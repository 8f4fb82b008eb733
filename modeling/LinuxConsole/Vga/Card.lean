import LinuxConsole.Lib.Window
import LinuxConsole.Vc.Data

/-!
# The VGA driver

The hooks of `vgacon.c` that move the text of a console: `con_set_origin`,
`con_save_screen`, `con_switch`, `con_blank` and `con_scroll_region`.

`Card` is what `vgacon_startup` finds out and `Globals` is in which state the
card is.  The video memory is the window `[vga_vram_base, vga_vram_end)` of the
one memory that the buffers of the consoles lie in too.  Sizes are in bytes, as
in the source, and a cell is what is at an even distance from the start of a
buffer.

`vc_visible_origin` and `vga_rolled_over` are left out: they serve the scrollback
only, which reads the video memory and changes nothing in it.
-/

namespace LinuxConsole.Vga

open Lib

/-- What `vgacon_startup` finds out. -/
structure Card where
  vramBase : Nat
  vramEnd : Nat
  base_le : vramBase ≤ vramEnd
  isVgac : Bool
  hardscrollEnabled : Bool

/-- `vga_vram_size`. -/
def Card.vramSize (k : Card) : Nat := k.vramEnd - k.vramBase

/-- The state of the card. -/
structure Globals where
  vesaBlanked : Bool
  paletteBlanked : Bool
  isGfx : Bool
  deriving DecidableEq

/-- `BLANK`. -/
def blankCell : Cell := 0x0020#16

variable (k : Card) (g : Globals)

/-- The bytes of a screen that are copied to or from the video memory. -/
def Card.copied (geo : Geom) : Nat :=
  if geo.screenbufSize > k.vramSize then k.vramSize else geo.screenbufSize

/-- `vgacon_set_origin`: the new origin, if there is one. -/
def vgaconSetOrigin (vtBlanked : Bool) : Option Nat :=
  if g.isGfx ∨ (vtBlanked ∧ !g.paletteBlanked) then none else some k.vramBase

/-- `vgacon_save_screen`. -/
def vgaconSaveScreen (mem : Nat → Cell) (geo : Geom) : Nat → Cell :=
  if g.isGfx then mem else copyTo mem geo.screenbuf geo.origin (k.copied geo)

/-- `vgacon_switch`. -/
def vgaconSwitch (mem : Nat → Cell) (geo : Geom) : Nat → Cell :=
  if g.isGfx then mem else copyTo mem geo.origin geo.screenbuf (k.copied geo)

/-- `vgacon_blank(c, 0, 1)`: the card after it and whether the screen has to be
restored. -/
def vgaconUnblank : Globals × Bool :=
  let g := { g with vesaBlanked := false }
  if g.paletteBlanked then ({ g with paletteBlanked := false }, false)
  else ({ g with isGfx := false }, true)

/-- `vgacon_blank(c, 1, mode_switch)`, also for -1: the card, the memory and the
origin after it, and whether the origin has to be reset. -/
def vgaconBlank (vtBlanked modeSwitch : Bool) (mem : Nat → Cell) (geo : Geom) :
    Globals × (Nat → Cell) × Nat × Bool :=
  if !modeSwitch ∧ k.isVgac then ({ g with paletteBlanked := true }, mem, geo.origin, false)
  else
    ({ g with isGfx := g.isGfx || modeSwitch },
      fillFrom mem k.vramBase blankCell geo.screenbufSize,
      (vgaconSetOrigin k g vtBlanked).getD geo.origin, true)

/-- `vgacon_blank(c, blank, 0)` for a VESA mode. -/
def vgaconVesaBlank : Globals := if k.isVgac then { g with vesaBlanked := true } else g

/-- What `vgacon_scroll_region` works on. -/
structure Scroll where
  mem : Nat → Cell
  geo : Geom
  pos : Nat
  eraseChar : Cell

/-- The text of the rows that stay is moved up by `delta`, to the start of the
video memory if there is no room behind the screen. -/
def scrollUpTo (s : Scroll) (delta : Nat) : (Nat → Cell) × Nat :=
  let r :=
    if s.geo.scrEnd + delta ≥ k.vramEnd then
      (copyTo s.mem k.vramBase (s.geo.origin + delta) (s.geo.screenbufSize - delta), k.vramBase)
    else (s.mem, s.geo.origin + delta)
  (fillFrom r.1 (r.2 + s.geo.screenbufSize - delta) s.eraseChar delta, r.2)

/-- The text of the rows that stay is moved down by `delta`, to the end of the
video memory if there is no room before the screen. -/
def scrollDownTo (s : Scroll) (delta : Nat) : (Nat → Cell) × Nat :=
  let r :=
    if s.geo.origin < k.vramBase + delta then
      (copyTo s.mem (k.vramEnd - s.geo.screenbufSize + delta) s.geo.origin
        (s.geo.screenbufSize - delta), k.vramEnd - s.geo.screenbufSize)
    else (s.mem, s.geo.origin - delta)
  (fillFrom r.1 r.2 s.eraseChar delta, r.2)

def scrollTo (dir : ScrollDir) (s : Scroll) (delta : Nat) : (Nat → Cell) × Nat :=
  match dir with
  | .up => scrollUpTo k s delta
  | .down => scrollDownTo k s delta

/-- `vgacon_scroll_region`; `none` where it returns 0. -/
def vgaconScrollRegion (s : Scroll) (t b : Nat) (dir : ScrollDir) (lines : Nat) :
    Option Scrolled :=
  if t ≠ 0 ∨ b ≠ s.geo.rows ∨ g.isGfx then none
  else if !k.hardscrollEnabled ∨ lines ≥ s.geo.rows / 2 then none
  else
    let r := scrollTo k dir s (lines * s.geo.sizeRow)
    some
      { mem := r.1
        origin := r.2
        scrEnd := r.2 + s.geo.screenbufSize
        pos := s.pos - s.geo.origin + r.2 }

end LinuxConsole.Vga
