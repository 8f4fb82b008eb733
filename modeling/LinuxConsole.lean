import LinuxConsole.Lib.Run
import LinuxConsole.Lib.Pieces
import LinuxConsole.Lib.PrefixCode
import LinuxConsole.Lib.References
import LinuxConsole.Lib.Gaps
import LinuxConsole.Lib.Packed
import LinuxConsole.Lib.LockTrace
import LinuxConsole.Lib.Unwinding
import LinuxConsole.Lib.Touch
import LinuxConsole.Map.Pagedir
import LinuxConsole.Map.Unimap
import LinuxConsole.Map.Refcount
import LinuxConsole.Map.Entries
import LinuxConsole.Map.CopyOnWrite
import LinuxConsole.Map.Listing
import LinuxConsole.Map.Glyphs
import LinuxConsole.Map.Inverse
import LinuxConsole.Vc.Data
import LinuxConsole.Vc.Screen
import LinuxConsole.Vte.Control
import LinuxConsole.Vte.Emulation
import LinuxConsole.Vc.Write
import LinuxConsole.Vc.Sound
import LinuxConsole.Vte.Sound
import LinuxConsole.Vc.Geometry
import LinuxConsole.Vte.Frame
import LinuxConsole.Vte.Still
import LinuxConsole.Vte.Place
import LinuxConsole.Vc.Takeover
import LinuxConsole.Lib.Transducer
import LinuxConsole.Vc.Decoder
import LinuxConsole.Vc.Inversion
import LinuxConsole.Lib.Flip
import LinuxConsole.Sel.Selection
import LinuxConsole.Sel.Highlight
import LinuxConsole.Sel.Text
import LinuxConsole.Sel.Bounds
import LinuxConsole.Sel.Paste
import LinuxConsole.Sel.Resize
import LinuxConsole.Lib.Slice
import LinuxConsole.Vcs.Device
import LinuxConsole.Vcs.Read
import LinuxConsole.Vcs.Cells
import LinuxConsole.Vcs.Overlay
import LinuxConsole.Vcs.Write
import LinuxConsole.Vc.Handed
import LinuxConsole.Vc.TabStops
import LinuxConsole.Vc.Display
import LinuxConsole.Vc.Pipeline
import LinuxConsole.Vc.Reports
import LinuxConsole.Vc.Reset
import LinuxConsole.Vc.Background
import LinuxConsole.Vc.Message
import LinuxConsole.Vc.Cells
import LinuxConsole.Vc.Grid
import LinuxConsole.Vc.Region
import LinuxConsole.Vc.Displayed
import LinuxConsole.Vte.Displayed
import LinuxConsole.Vc.Batch
import LinuxConsole.Vcs.Stale
import LinuxConsole.Vcs.Refresh
import LinuxConsole.Vc.Stream
import LinuxConsole.Vc.Autowrap
import LinuxConsole.Vc.Sequence
import LinuxConsole.Vc.Movement
import LinuxConsole.Vc.CursorReport
import LinuxConsole.Vc.SaveCursor
import LinuxConsole.Lib.Stops
import LinuxConsole.Vc.Tabulation
import LinuxConsole.Vc.Edits
import LinuxConsole.Kbd.FuncTable
import LinuxConsole.Kbd.FuncStore
import LinuxConsole.Kbd.Calls
import LinuxConsole.Kbd.Binding
import LinuxConsole.Kbd.Tables
import LinuxConsole.Switch.Kernel
import LinuxConsole.Switch.Numbering
import LinuxConsole.Switch.Step
import LinuxConsole.Switch.Moves
import LinuxConsole.Switch.Allocation
import LinuxConsole.Switch.Paths
import LinuxConsole.Switch.Requests
import LinuxConsole.Switch.SwitchLock
import LinuxConsole.Switch.Semaphore
import LinuxConsole.Switch.Disallocate
import LinuxConsole.Switch.ScreenDevices
import LinuxConsole.Switch.Queries
import LinuxConsole.Switch.Pool
import LinuxConsole.Switch.Palette
import LinuxConsole.Switch.Absent
import LinuxConsole.Switch.ProcessControl
import LinuxConsole.Kbd.Translate
import LinuxConsole.Kbd.Event
import LinuxConsole.Kbd.Isolation
import LinuxConsole.Lib.Window
import LinuxConsole.Lib.Records
import LinuxConsole.Lib.Decimal
import LinuxConsole.Vga.Card
import LinuxConsole.Vga.Scroll
import LinuxConsole.Vga.Machine
import LinuxConsole.Vga.Extent
import LinuxConsole.Vga.Private
import LinuxConsole.Vga.Preserve
import LinuxConsole.Vga.Blanked
import LinuxConsole.Vga.Fonts
import LinuxConsole.Lib.Ring
import LinuxConsole.Vga.Scrollback
import LinuxConsole.Jscal.Scripts
import LinuxConsole.Jscal.StateFile
import LinuxConsole.Jscal.Filter
import LinuxConsole.Jscal.Isolation
import LinuxConsole.Jscal.RoundTrip
import LinuxConsole.Jscal.Calibrator
import LinuxConsole.Jscal.Fields
import LinuxConsole.Jscal.Mapping
import LinuxConsole.Jscal.Grammar
import LinuxConsole.Jscal.Reprint
import LinuxConsole.Vc.Resize
import LinuxConsole.Switch.Neighbours
import LinuxConsole.Sel.MouseReport
import LinuxConsole.Kbd.MediumRaw
import LinuxConsole.Kbd.Raw
import LinuxConsole.Jscal.Follow
import LinuxConsole.Jscal.Centre
import LinuxConsole.Kbd.Numpad
import LinuxConsole.Kbd.Modes
import LinuxConsole.Kbd.Shift
import LinuxConsole.Kbd.Bounds
import LinuxConsole.Kbd.Dispatch
import LinuxConsole.Attach.Serial
import LinuxConsole.Attach.Packets
import LinuxConsole.Lib.Attempt
import LinuxConsole.Attach.Spaceball
import LinuxConsole.Jscal.ButtonMap
import LinuxConsole.Jscal.Calibrate
import LinuxConsole.Jscal.Course
import LinuxConsole.Jscal.Stages
import LinuxConsole.Jscal.Slopes
import LinuxConsole.Jscal.Timing
import LinuxConsole.Lib.FirstFree
import LinuxConsole.Xinput.Device
import LinuxConsole.Xinput.Capabilities
import LinuxConsole.Xinput.Configure
import LinuxConsole.Xinput.Mapping
import LinuxConsole.Xinput.Valuators
import LinuxConsole.Xinput.Buttons
import LinuxConsole.Xinput.Described
import LinuxConsole.Xinput.ReadInput
import LinuxConsole.Jscal.Identity
import LinuxConsole.Kbd.Keycode
import LinuxConsole.Kbd.Compose
import LinuxConsole.Dev.Event
import LinuxConsole.Dev.Fuzz
import LinuxConsole.Lib.Alternating
import LinuxConsole.Dev.Keys
import LinuxConsole.Dev.Listing
import LinuxConsole.Lib.Faultless
import LinuxConsole.Tty.Close
import LinuxConsole.Tty.Lifecycle
import LinuxConsole.Tty.Ldisc
import LinuxConsole.Tty.FlipBuffer
import LinuxConsole.Tty.WriteSplit
