import LinuxConsole.Vc.Screen

/-!
# The control functions of `decvte.c`

Every `vte_*` function of the emulator, with `set_mode`, `setterm_command` and
the reports, in the order of the source.  `Vte/Emulation.lean` dispatches to
them.

The access to an array at a computed index goes through `Con.check`: `vc_par`
in the two loops over the parameters, `color_table`, `vc_palette`, and
`vc_tab_stop` at the word of the cursor column.
-/

namespace LinuxConsole

variable (d : Driver)

/-! ### Format effectors -/

/-- LINE FEED. -/
def vteLf (s : Con) : Con :=
  let s :=
    if s.cur.y + 1 = s.mar.bottom then scrollRegionUp d s s.mar.top s.mar.bottom 1
    else if s.cur.y < s.geo.rows - 1 then
      { s with cur.y := s.cur.y + 1, cur.pos := s.cur.pos + s.geo.sizeRow }
    else s
  { s with cur.needWrap := false }

/-- REVERSE LINE FEED. -/
def vteRi (s : Con) : Con :=
  let s :=
    if s.cur.y = s.mar.top then scrollRegionDown d s s.mar.top s.mar.bottom 1
    else if 0 < s.cur.y then
      { s with cur.y := s.cur.y - 1, cur.pos := s.cur.pos - s.geo.sizeRow }
    else s
  { s with cur.needWrap := false }

/-- CARRIAGE RETURN. -/
def vteCr (s : Con) : Con :=
  { s with cur := ⟨0, s.cur.y, s.cur.pos - 2 * s.cur.x, false⟩ }

/-- BACK SPACE. -/
def vteBs (s : Con) : Con :=
  if s.cur.x ≠ 0 then { s with cur := ⟨s.cur.x - 1, s.cur.y, s.cur.pos - 2, false⟩ } else s

/-- CURSOR LINE TABULATION: `vpar` line feeds. -/
def vteCvt (s : Con) (vpar : Int) : Con := (vteLf d)^[vpar.toNat] s

/-- The bit of column `x` in `vc_tab_stop`. -/
def tabBit (s : Con) (x : Nat) : Bool := (s.tabStop (x >>> 5)).getLsbD (x % 32)

/-- The access `vc_tab_stop[vc_x >> 5]`. -/
def checkTab (s : Con) : Con :=
  s.check (s.cur.x >>> 5 < tabWords) (.vcTabStop (s.cur.x >>> 5))

/-- The loop of a backward tabulation, with `fuel` columns to go. -/
def tabLeft : Nat → Con → Con
  | 0, s => s
  | fuel + 1, s =>
    if 0 < s.cur.x then
      let s := checkTab { s with cur.x := s.cur.x - 1 }
      if tabBit s s.cur.x then s else tabLeft fuel s
    else s

/-- The loop of a forward tabulation, with `fuel` columns to go. -/
def tabRight : Nat → Con → Con
  | 0, s => s
  | fuel + 1, s =>
    if s.cur.x < s.geo.cols - 1 then
      let s := checkTab { s with cur.x := s.cur.x + 1 }
      if tabBit s s.cur.x then s else tabRight fuel s
    else s

/-- One backward tabulation: the address follows the column. -/
def backTab (s : Con) : Con :=
  let s := { s with cur.pos := s.cur.pos - 2 * s.cur.x }
  let s := tabLeft s.geo.cols s
  { s with cur.pos := s.cur.pos + 2 * s.cur.x }

/-- One forward tabulation, also HT. -/
def forwardTab (s : Con) : Con :=
  let s := { s with cur.pos := s.cur.pos - 2 * s.cur.x }
  let s := tabRight s.geo.cols s
  { s with cur.pos := s.cur.pos + 2 * s.cur.x }

/-- CURSOR BACKWARD TABULATION. -/
def vteCbt (s : Con) (vpar : Int) : Con := backTab^[vpar.toNat] s

/-- CURSOR FORWARD TABULATION. -/
def vteCht (s : Con) (vpar : Int) : Con := forwardTab^[vpar.toNat] s

/-- CHARACTER TABULATION SET at the cursor column. -/
def setTab (s : Con) : Con :=
  let s := checkTab s
  let word := s.tabStop (s.cur.x >>> 5) ||| (1#32 <<< (s.cur.x % 32))
  { s with tabStop := Function.update s.tabStop (s.cur.x >>> 5) word }

/-! ### Erasure -/

/-- ERASE IN PAGE. -/
def vteEd (s : Con) (vpar : Nat) : Con :=
  match vpar with
  | 0 =>
    let count := (s.geo.scrEnd - s.cur.pos) / 2
    let s := clearRegion s s.cur.x s.cur.y (s.geo.cols - s.cur.x) 1
    let s := clearRegion s 0 (s.cur.y + 1) s.geo.cols (s.geo.rows - s.cur.y - 1)
    let s := s.scrMemsetw s.cur.pos s.rend.videoEraseChar count
    { s with cur.needWrap := false }
  | 1 =>
    let count := (s.cur.pos - s.geo.origin) / 2 + 1
    let s := clearRegion s 0 0 s.geo.cols s.cur.y
    let s := clearRegion s 0 s.cur.y (s.cur.x + 1) 1
    let s := s.scrMemsetw s.geo.origin s.rend.videoEraseChar count
    { s with cur.needWrap := false }
  | 2 =>
    let s := clearRegion s 0 0 s.geo.cols s.geo.rows
    let s := s.scrMemsetw s.geo.origin s.rend.videoEraseChar (s.geo.cols * s.geo.rows)
    { s with cur.needWrap := false }
  | _ => s

/-- ERASE IN LINE. -/
def vteEl (s : Con) (vpar : Nat) : Con :=
  match vpar with
  | 0 =>
    let s := clearRegion s s.cur.x s.cur.y (s.geo.cols - s.cur.x) 1
    let s := s.scrMemsetw s.cur.pos s.rend.videoEraseChar (s.geo.cols - s.cur.x)
    { s with cur.needWrap := false }
  | 1 =>
    let s := clearRegion s 0 s.cur.y (s.cur.x + 1) 1
    let s := s.scrMemsetw (s.cur.pos - 2 * s.cur.x) s.rend.videoEraseChar (s.cur.x + 1)
    { s with cur.needWrap := false }
  | 2 =>
    let s := clearRegion s 0 s.cur.y s.geo.cols 1
    let s := s.scrMemsetw (s.cur.pos - 2 * s.cur.x) s.rend.videoEraseChar s.geo.cols
    { s with cur.needWrap := false }
  | _ => s

/-- ERASE CHARACTER. -/
def vteEch (s : Con) (vpar : Nat) : Con :=
  let vpar := if vpar = 0 then 1 else vpar
  let count := if vpar > s.geo.cols - s.cur.x then s.geo.cols - s.cur.x else vpar
  let s := s.scrMemsetw s.cur.pos s.rend.videoEraseChar count
  let s := clearRegion s s.cur.x s.cur.y count 1
  { s with cur.needWrap := false }

/-! ### Rendition -/

/-- `set_translate`. -/
def setTranslate (s : Con) (m : CharMap) : Con := { s with chars.translate := m }

/-- The access `color_table[i]`. -/
def checkColor (s : Con) (i : Nat) : Con := s.check (i < 16) (.colorTable i)

/-- `foreground` and `background`. -/
def foreground (s : Con) : BitVec 8 := s.rend.color &&& 0x0f
def background (s : Con) : BitVec 8 := s.rend.color &&& 0xf0

/-- One parameter of SELECT GRAPHIC RENDITION. -/
def sgrPar (s : Con) (p : Nat) : Con :=
  match p with
  | 0 => defaultAttr s
  | 1 => { s with rend.intensity := 2 }
  | 2 => { s with rend.intensity := 0 }
  | 4 => { s with rend.underline := true }
  | 5 | 6 => { s with rend.blink := true }
  | 7 => { s with rend.reverse := true }
  | 10 =>
    let s := setTranslate s (if s.chars.charset then s.chars.g1 else s.chars.g0)
    { s with modes.dispCtrl := false, modes.toggleMeta := false }
  | 11 =>
    let s := setTranslate s .ibmpc
    { s with modes.dispCtrl := true, modes.toggleMeta := false }
  | 12 =>
    let s := setTranslate s .ibmpc
    { s with modes.dispCtrl := true, modes.toggleMeta := true }
  | 21 | 22 => { s with rend.intensity := 1 }
  | 24 => { s with rend.underline := false }
  | 25 => { s with rend.blink := false }
  | 27 => { s with rend.reverse := false }
  | 38 =>
    { s with rend.color := (s.rend.defColor &&& 0x0f) ||| background s
             rend.underline := true }
  | 39 =>
    { s with rend.color := (s.rend.defColor &&& 0x0f) ||| background s
             rend.underline := false }
  | 49 => { s with rend.color := (s.rend.defColor &&& 0xf0) ||| foreground s }
  | p =>
    if 30 ≤ p ∧ p ≤ 37 then
      let s := checkColor s (p - 30)
      { s with rend.color := colorTable.getD (p - 30) 0 ||| background s }
    else if 40 ≤ p ∧ p ≤ 47 then
      let s := checkColor s (p - 40)
      { s with rend.color := (colorTable.getD (p - 40) 0 <<< 4) ||| foreground s }
    else s

/-- A loop `for (i = 0; i <= vc_npar; i++)` over the parameters. -/
def forPars (f : Con → Nat → Con) (s : Con) : Con :=
  (List.range (s.ps.npar + 1)).foldl
    (fun s i => f (s.check (i < NPAR) (.vcPar i)) (s.ps.par i)) s

/-- SELECT GRAPHIC RENDITION. -/
def vteSgr (s : Con) : Con := updateAttr d (forPars sgrPar s)

/-! ### Reports -/

/-- The characters of `%d`. -/
def decimal (n : Int) : List Nat :=
  (if n < 0 then [45] else []) ++ (Nat.toDigits 10 n.natAbs).map Char.toNat

/-- The characters of a string constant. -/
def chars (str : String) : List Nat := str.toList.map Char.toNat

/-- `__VTE_CSI`, `__VTE_DCS` and `__VTE_ST`. -/
def vteCsi (s : Con) : List Nat := if s.modes.c8bit then [0x9b] else [0x1b, 0x5b]
def vteDcs (s : Con) : List Nat := if s.modes.c8bit then [0x90] else [0x1b, 0x50]
def vteSt (s : Con) : List Nat := if s.modes.c8bit then [0x9c] else [0x1b, 0x5c]

def vteFakeDecDsr (s : Con) (reply : String) : Con :=
  s.putsQueue (vteCsi s ++ chars "?" ++ chars reply ++ chars "n")

/-- CURSOR POSITION REPORT, extended when `ext`. -/
def vteCpr (s : Con) (ext : Bool) : Con :=
  let row := decimal (s32 (s.cur.y + if s.modes.decom then s.mar.top + 1 else 1))
  let col := decimal (s32 (s.cur.x + 1))
  if ext then s.putsQueue (vteCsi s ++ chars "?" ++ row ++ chars ";" ++ col ++ chars ";1R")
  else s.putsQueue (vteCsi s ++ row ++ chars ";" ++ col ++ chars "R")

def vteDsr (s : Con) : Con := s.putsQueue (vteCsi s ++ chars "0n")

def vteAnswerback (s : Con) : Con := s.putsQueue (chars "linux")

def vteDa (s : Con) : Con := s.putsQueue (vteCsi s ++ chars "?62;1;2;6;7;8;9c")

/-- `VTE_VERSION`. -/
def vteVersion : Nat := 211

def vteDecDa2 (s : Con) : Con :=
  s.putsQueue (vteCsi s ++ chars ">" ++ decimal 1 ++ chars ";" ++ decimal (vteVersion / 10 : Nat)
    ++ chars ";0c")

def vteDecDa3 (s : Con) : Con := s.putsQueue (vteDcs s ++ chars "!|" ++ chars "0" ++ vteSt s)

def vteDecreptparm (s : Con) : Con :=
  s.putsQueue ([0x1b] ++ chars "[" ++ decimal (s32 (s.ps.par 0 + 2)) ++ chars ";1;1;120;120;1;0x")

/-! ### Modes -/

/-- `set_kbd_mode` and `clr_kbd_mode`. -/
def setKbdMode (s : Con) (flag : Nat) (on : Bool) : Con :=
  { s with kbd.modeflags := if on then s.kbd.modeflags ||| (1#5 <<< flag)
      else s.kbd.modeflags &&& ~~~(1#5 <<< flag) }

/-- `get_kbd_mode`. -/
def getKbdMode (s : Con) (flag : Nat) : Bool := s.kbd.modeflags.getLsbD flag

/-- A DEC private mode of `set_mode`. -/
def setPrivMode (on : Bool) (s : Con) (p : Nat) : Con :=
  match p with
  | 1 => setKbdMode s vcCkmode on
  | 5 =>
    if s.modes.decscnm ≠ on then
      let s := { s with modes.decscnm := on }
      updateAttr d (invertScreen d s 0 s.geo.screenbufSize)
    else s
  | 6 => gotoxay { s with modes.decom := on } 0 0
  | 7 => { s with modes.decawm := on }
  | 8 => setKbdMode { s with modes.decarm := on } vcRepeat on
  | 9 => { s with modes.reportMouse := if on then 1 else 0 }
  | 25 => { s with modes.dectcem := on }
  | 66 => setKbdMode { s with modes.decnkm := on } vcApplic on
  | 1000 => { s with modes.reportMouse := if on then 2 else 0 }
  | _ => s

/-- An ANSI mode of `set_mode`. -/
def setAnsiMode (on : Bool) (s : Con) (p : Nat) : Con :=
  match p with
  | 3 => { s with modes.dispCtrl := on }
  | 4 => { s with modes.irm := on }
  | 20 => setKbdMode s vcCrlf on
  | _ => s

/-- SET MODE and RESET MODE. -/
def setMode (s : Con) (on : Bool) : Con :=
  forPars (if s.ps.priv4 then setPrivMode d on else setAnsiMode on) s

def vteDecmsr (s : Con) : Con := s.putsQueue (vteCsi s ++ decimal 0 ++ chars "*\x7b")

/-- `vte_decrpm`: a mode that is reset is reported as 2, an unknown one as 0. -/
def vteDecrpm (s : Con) (priv : Bool) (mode status : Nat) : Con :=
  let status := if status = 0 then 2 else if status = 2 then 0 else status
  let tail := decimal (s32 mode) ++ chars ";" ++ decimal status ++ chars "$y"
  if priv then s.putsQueue (vteCsi s ++ chars "?" ++ tail) else s.putsQueue (vteCsi s ++ tail)

/-- The status `vte_decrqm` reports for a DEC private mode. -/
def privModeStatus (m : Modes) (p : Nat) : Nat :=
  match p with
  | 1 => m.decckm.toNat
  | 2 | 3 | 4 => 4
  | 5 => m.decscnm.toNat
  | 6 => m.decom.toNat
  | 7 => m.decawm.toNat
  | 8 => m.decarm.toNat
  | 25 => m.dectcem.toNat
  | 42 | 60 | 61 | 64 => 4
  | 66 => m.decnkm.toNat
  | 67 | 68 | 69 | 73 | 81 => 4
  | _ => 2

/-- The status `vte_decrqm` reports for an ANSI mode. -/
def ansiModeStatus (m : Modes) (p : Nat) : Nat :=
  match p with
  | 1 => 4
  | 2 => m.kam.toNat
  | 3 => 4
  | 4 => m.irm.toNat
  | 5 | 6 | 7 | 8 | 9 | 10 | 11 | 12 | 13 | 14 | 15 | 16 | 17 | 18 | 19 => 4
  | 20 => m.lnm.toNat
  | 21 | 22 => 4
  | _ => 2

/-- REQUEST MODE. -/
def vteDecrqm (s : Con) (priv : Bool) : Con :=
  vteDecrpm s priv (s.ps.par 0)
    (if priv then privModeStatus s.modes (s.ps.par 0) else ansiModeStatus s.modes (s.ps.par 0))

/-- SET OPERATING LEVEL. -/
def vteDecscl (s : Con) : Con :=
  match s.ps.par 0 with
  | 61 => if s.ps.npar = 1 then { s with modes.decscl := 1, modes.c8bit := false } else s
  | 62 | 63 | 64 =>
    if s.ps.npar ≤ 2 then { s with modes.decscl := 4, modes.c8bit := s.ps.par 1 != 1 } else s
  | _ => s

/-- `DEFAULT_BELL_PITCH` and `DEFAULT_BELL_DURATION`. -/
def defaultBellPitch : Nat := 750
def defaultBellDuration : Nat := HZ / 8

/-- The private commands `CSI n ; m ]`. -/
def settermCommand (s : Con) : Con :=
  let p1 := s.ps.par 1
  match s.ps.par 0 with
  | 1 =>
    if s.rend.canDoColor ∧ p1 < 16 then
      let s := checkColor s p1
      let s := { s with rend.ulcolor := colorTable.getD p1 0 }
      if s.rend.underline then updateAttr d s else s
    else s
  | 2 =>
    if s.rend.canDoColor ∧ p1 < 16 then
      let s := checkColor s p1
      let s := { s with rend.halfcolor := colorTable.getD p1 0 }
      if s.rend.intensity = 0 then updateAttr d s else s
    else s
  | 8 =>
    let s := { s with rend.defColor :=
      if s.rend.hiFontMask = 0x100#16 then s.rend.attr >>> 1 else s.rend.attr }
    updateAttr d (defaultAttr s)
  | 9 =>
    let s := { s with vt.blankInterval := (if p1 < 60 then p1 else 60) * 60 * HZ }
    pokeBlankedConsole d s
  | 10 => { s with bellPitch := if s.ps.npar ≥ 1 then p1 else defaultBellPitch }
  | 11 =>
    { s with bellDuration := if s.ps.npar ≥ 1 then (if p1 < 2000 then p1 * HZ / 1000 else 0)
        else defaultBellDuration }
  | 12 => s.request (.setConsole p1)
  | 13 => pokeBlankedConsole d s
  | 14 => { s with vt.offInterval := (if p1 < 60 then p1 else 60) * 60 * HZ }
  | 15 => s.request .setLastConsole
  | _ => s

/-! ### Insertion and deletion -/

/-- The count of ICH and DCH. -/
def charCount (s : Con) (nr : Nat) : Nat :=
  if nr > s.geo.cols - s.cur.x then s.geo.cols - s.cur.x else if nr = 0 then 1 else nr

/-- The count of IL and DL. -/
def lineCount (s : Con) (nr : Nat) : Nat :=
  if nr > s.geo.rows - s.cur.y then s.geo.rows - s.cur.y else if nr = 0 then 1 else nr

def vteIch (s : Con) (nr : Nat) : Con := insertChar s (charCount s nr)
def vteIl (s : Con) (nr : Nat) : Con := insertLine d s (lineCount s nr)
def vteDch (s : Con) (nr : Nat) : Con := deleteChar s (charCount s nr)
def vteDl (s : Con) (nr : Nat) : Con := deleteLine d s (lineCount s nr)

/-! ### Saving and resetting -/

/-- SAVE CURSOR. -/
def vteDecsc (s : Con) : Con :=
  { s with saved :=
    { x := s.cur.x, y := s.cur.y
      intensity := s.rend.intensity, underline := s.rend.underline, blink := s.rend.blink
      reverse := s.rend.reverse, charset := s.chars.charset, color := s.rend.color
      g0 := s.chars.g0, g1 := s.chars.g1, g2 := s.chars.g2, g3 := s.chars.g3 } }

/-- RESTORE CURSOR. -/
def vteDecrc (s : Con) : Con :=
  let v := s.saved
  let s := gotoxy s (s32 v.x) (s32 v.y)
  let s := { s with
    rend := { s.rend with
      intensity := v.intensity, underline := v.underline, blink := v.blink
      reverse := v.reverse, color := v.color }
    chars := { s.chars with charset := v.charset, g0 := v.g0, g1 := v.g1, g2 := v.g2, g3 := v.g3 } }
  let s := setTranslate s (if s.chars.charset then s.chars.g1 else s.chars.g0)
  let s := updateAttr d s
  { s with cur.needWrap := false }

/-- `KBD_DEFMODE`. -/
def kbdDefmode : BitVec 5 := (1 <<< vcRepeat) ||| (1 <<< vcMeta)

/-- The tab stops of `vte_ris`: every eighth column but the first, in the first
five words. -/
def risTabs (old : Nat → BitVec 32) (i : Nat) : BitVec 32 :=
  if i = 0 then 0x01010100 else if i < 5 then 0x01010101 else old i

/-- RESET TO INITIAL STATE. -/
def vteRis (s : Con) (doClear : Bool) : Con :=
  let s := { s with
    mar := ⟨0, s.geo.rows⟩
    ps := { s.ps with state := .init, priv1 := false, priv2 := false, priv3 := false
                      priv4 := false } }
  let s := setTranslate s .lat1
  let s := { s with
    chars := { s.chars with g0 := .lat1, g1 := .graf, charset := false }
    cur.needWrap := false
    dec := { s.dec with utf := false, utfCount := 0 }
    modes := { s.modes with
      reportMouse := 0, dispCtrl := false, toggleMeta := false, c8bit := false, decckm := false
      decsclm := false, decscnm := false, decom := false, decawm := true, decarm := true
      dectcem := true, kam := false, crm := false, irm := false, lnm := false }
    kbd := { lockstate := 0, slockstate := 0, ledmode := 0, ledflagstate := 0
             defaultLedflagstate := 0, kbdmode := 0, modeflags := kbdDefmode }
    rend := { s.rend with cursorType := 2, complementMask := s.rend.sComplementMask } }
  let s := updateAttr d (defaultAttr (s.request .setLeds))
  let s := { s with
    tabStop := risTabs s.tabStop
    bellPitch := defaultBellPitch
    bellDuration := defaultBellDuration }
  let s := vteDecsc (gotoxy s 0 0)
  if doClear then vteEd s 2 else s

/-- TABULATION CLEAR. -/
def vteTbc (s : Con) (vpar : Nat) : Con :=
  match vpar with
  | 0 =>
    let s := checkTab s
    let word := s.tabStop (s.cur.x >>> 5) &&& ~~~(1#32 <<< (s.cur.x % 32))
    { s with tabStop := Function.update s.tabStop (s.cur.x >>> 5) word }
  | 2 | 3 | 5 => { s with tabStop := fun i => if i < 5 then 0 else s.tabStop i }
  | _ => s

/-- `setledstate`. -/
def setledstate (s : Con) (led : Nat) : Con :=
  ({ s with kbd.ledmode := if led ≤ 7 then 1 else 0 }.request (.setLedState led)).request .setLeds

end LinuxConsole
