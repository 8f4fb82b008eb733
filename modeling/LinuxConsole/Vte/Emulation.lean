import LinuxConsole.Vte.Control

/-!
# `terminal_emulation`

The escape sequence interpreter, one byte at a time.  A byte is tried as a C0
control, then as a C1 control when those are eight bit, then given to the state
of the parser.  `c0Control` and `c1Control` are `none` where the switch of the
source has no `return`.

The state `EScsi` falls through to `EScsi_getpars` and that one to
`EScsi_gotpars`, so `csi` ends in a call of `csiGetpars`, and that one in a call
of `csiGotpars`.
-/

namespace LinuxConsole

variable (d : Driver)

def Con.setState (s : Con) (e : EsState) : Con := { s with ps.state := e }

/-- `vc_par[i] = v`. -/
def Con.setPar (s : Con) (i v : Nat) : Con :=
  { s.check (i < NPAR) (.vcPar i) with ps.par := Function.update s.ps.par i v }

/-- `if (!vc_par[0]) vc_par[0]++`. -/
def Con.atLeastOne (s : Con) : Con := if s.ps.par 0 = 0 then s.setPar 0 1 else s

/-- `if (vc_par[i]) vc_par[i]--`. -/
def Con.fromZero (s : Con) (i : Nat) : Con :=
  if s.ps.par i ≠ 0 then s.setPar i (s.ps.par i - 1) else s

/-- `for (npar = 0; npar < NPAR; npar++) par[npar] = 0; npar = 0`. -/
def Con.clearPars (s : Con) : Con :=
  { s with ps.par := fun i => if i < NPAR then 0 else s.ps.par i
           ps.npar := 0 }

/-! ### Control characters -/

/-- The switch on C0 control characters. -/
def c0Control (s : Con) (c : Nat) : Option Con :=
  match c with
  | 0x05 => some (vteAnswerback s)
  | 0x07 =>
    some (if s.bellDuration ≠ 0 then s.request (.mksound s.bellPitch s.bellDuration) else s)
  | 0x08 => some (vteBs s)
  | 0x09 => some (forwardTab s)
  | 0x0a | 0x0b | 0x0c =>
    let s := vteLf d s
    some (if getKbdMode s vcCrlf then vteCr s else s)
  | 0x0d => some (vteCr s)
  | 0x0e =>
    let s := setTranslate { s with chars.charset := true } s.chars.g1
    some { s with modes.dispCtrl := true }
  | 0x0f =>
    let s := setTranslate { s with chars.charset := false } s.chars.g0
    some { s with modes.dispCtrl := false }
  | 0x18 | 0x1a => some (s.setState .init)
  | 0x1b => some (s.setState .esc)
  | c => if c < 0x20 ∨ c = 0x7f then some s else none

/-- The switch on C1 control characters. -/
def c1Control (s : Con) (c : Nat) : Option Con :=
  match c with
  | 0x84 => some (vteLf d s)
  | 0x85 => some (vteCr (vteLf d s))
  | 0x88 => some (setTab s)
  | 0x8d => some (vteRi d s)
  | 0x8e | 0x8f => none
  | 0x9a => some (vteDa s)
  | 0x9b => some (s.setState .csi)
  | c => if 0x80 ≤ c ∧ c ≤ 0x9f then some s else none

/-! ### Escape sequences -/

/-- `ESesc`. -/
def escState (s : Con) (c : Nat) : Con :=
  let s := s.setState .init
  match c with
  | 0x20 => s.setState .acs
  | 0x23 => s.setState .scf
  | 0x25 => s.setState .docs
  | 0x28 => s.setState .gzd4
  | 0x29 => s.setState .g1d4
  | 0x37 => vteDecsc s
  | 0x38 => vteDecrc d s
  | 0x3d => setKbdMode { s with modes.decnkm := true } vcApplic true
  | 0x3e => setKbdMode { s with modes.decnkm := false } vcApplic false
  | 0x40 | 0x41 | 0x42 | 0x43 | 0x44 => vteLf d s
  | 0x45 => vteLf d (vteCr s)
  | 0x48 => setTab s
  | 0x4d => vteRi d s
  | 0x4e => { s with modes.shift := true, chars.gs := s.chars.g2 }
  | 0x4f => { s with modes.shift := true, chars.gs := s.chars.g3 }
  | 0x5a => vteDa s
  | 0x5b => s.setState .csi
  | 0x5d => s.setState .osc
  | 0x60 => { s with modes.kam := false }
  | 0x62 => { s with modes.kam := true }
  | 0x63 => vteRis d s true
  | _ => s

/-- `ESacs`. -/
def acsState (s : Con) (c : Nat) : Con :=
  let s := s.setState .init
  match c with
  | 0x46 => if s.modes.decscl ≠ 1 then { s with modes.c8bit := false } else s
  | 0x47 => if s.modes.decscl ≠ 1 then { s with modes.c8bit := true } else s
  | _ => s

/-- `ESosc`. -/
def oscState (s : Con) (c : Nat) : Con :=
  let s := s.setState .init
  match c with
  | 0x50 => s.clearPars.setState .palette
  | 0x52 => (resetPalette s).setState .init
  | _ => s

/-- The value of a hexadecimal digit, as `ESpalette` reads it. -/
def hexDigit (c : Nat) : Option Nat :=
  if (0x30 ≤ c ∧ c ≤ 0x39) ∨ (0x41 ≤ c ∧ c ≤ 0x46) ∨ (0x61 ≤ c ∧ c ≤ 0x66) then
    some (if c > 0x39 then (c &&& 0xdf) - 0x41 + 10 else c - 0x30)
  else none

/-- `vc_palette[i] = 16 * hi; vc_palette[i] += lo`. -/
def Con.setPaletteByte (s : Con) (i hi lo : Nat) : Con :=
  { s.check (i < 48) (.vcPalette i) with
    paletteMap := Function.update s.paletteMap i (BitVec.ofNat 8 (16 * hi + lo)) }

/-- `ESpalette`. -/
def paletteState (s : Con) (c : Nat) : Con :=
  match hexDigit c with
  | some v =>
    let s := s.setPar s.ps.npar v
    let s := { s with ps.npar := s.ps.npar + 1 }
    if s.ps.npar = 7 then
      let p := s.ps.par
      let i := p 0 * 3
      let s := s.setPaletteByte i (p 1) (p 2)
      let s := s.setPaletteByte (i + 1) (p 3) (p 4)
      let s := s.setPaletteByte (i + 2) (p 5) (p 6)
      (setPalette s).setState .init
    else s
  | none => s.setState .init

/-- `ESscf`: the screen alignment test. -/
def scfState (s : Con) (c : Nat) : Con :=
  let s := s.setState .init
  if c = 0x38 then
    let s := { s with rend.videoEraseChar := (s.rend.videoEraseChar &&& 0xff00#16) ||| 0x45#16 }
    let s := vteEd s 2
    let s := { s with rend.videoEraseChar := (s.rend.videoEraseChar &&& 0xff00#16) ||| 0x20#16 }
    doUpdateRegion s s.geo.origin (s.geo.screenbufSize / 2)
  else s

/-- `ESdocs`. -/
def docsState (s : Con) (c : Nat) : Con :=
  let s := s.setState .init
  match c with
  | 0x40 => { s with dec.utf := false }
  | 0x47 | 0x38 => { s with dec.utf := true }
  | _ => s

/-- The map a final byte designates, `old` when there is none. -/
def designate (c : Nat) (old : CharMap) : CharMap :=
  match c with
  | 0x30 => .graf
  | 0x41 | 0x42 => .lat1
  | 0x55 => .ibmpc
  | 0x4b => .user
  | _ => old

/-- `ESgzd4` to `ESg3d4`: `put` stores the map the designation leaves in `get`,
and the map is put in use when `active` charsets are. -/
def designateState (get : Charsets → CharMap) (put : Charsets → CharMap → Charsets)
    (active : Bool) (s : Con) (c : Nat) : Con :=
  let m := designate c (get s.chars)
  let s := { s with chars := put s.chars m }
  let s := if s.chars.charset == active then setTranslate s m else s
  s.setState .init

def gzd4State : Con → Nat → Con := designateState (·.g0) (fun h m => { h with g0 := m }) false
def g1d4State : Con → Nat → Con := designateState (·.g1) (fun h m => { h with g1 := m }) true
def g2d4State : Con → Nat → Con := designateState (·.g2) (fun h m => { h with g2 := m }) true
def g3d4State : Con → Nat → Con := designateState (·.g3) (fun h m => { h with g3 := m }) true

/-! ### Control sequences -/

/-- The DEC private reports of `CSI ? n n`. -/
def decDsr (s : Con) : Con :=
  match s.ps.par 0 with
  | 6 => vteCpr s true
  | 15 => vteFakeDecDsr s "13"
  | 25 => vteFakeDecDsr s "21"
  | 26 => vteFakeDecDsr s "27;1;0;1"
  | 53 => vteFakeDecDsr s "53"
  | 62 => vteDecmsr s
  | 75 => vteFakeDecDsr s "70"
  | 85 => vteFakeDecDsr s "83"
  | _ => s

/-- The reports of `CSI n n`. -/
def ansiDsr (s : Con) : Con :=
  match s.ps.par 0 with
  | 5 => vteDsr s
  | 6 => vteCpr s false
  | _ => s

/-- The cursor type `CSI ? n ; m ; k c` sets, `CUR_DEFAULT` for `n = 0`. -/
def cursorTypeOf (p : Nat → Nat) : BitVec 32 :=
  if p 0 ≠ 0 then
    BitVec.ofNat 32 (p 0) ||| (BitVec.ofNat 32 (p 1) <<< 8) ||| (BitVec.ofNat 32 (p 2) <<< 16)
  else 2

/-- The control functions that look at the private parameter flags. -/
def csiPrivate (s : Con) (c : Nat) : Option Con :=
  match c with
  | 0x24 => if s.ps.priv4 then some (s.setState .csiDollar) else none
  | 0x4a => if s.ps.priv4 then some s else none
  | 0x4b => if s.ps.priv4 then some s else none
  | 0x68 => some (setMode d s true)
  | 0x6c => some (setMode d s false)
  | 0x63 =>
    if s.ps.priv2 then
      let s := if s.ps.par 0 = 0 then vteDecDa3 s else s
      some { s with ps.priv2 := false }
    else if s.ps.priv3 then
      let s := if s.ps.par 0 = 0 then vteDecDa2 s else s
      some { s with ps.priv3 := false }
    else if s.ps.priv4 then
      some { s with rend.cursorType := cursorTypeOf s.ps.par, ps.priv4 := false }
    else none
  | 0x6d =>
    if s.ps.priv4 then
      let s := s.request .clearSelection
      let mask := if s.ps.par 0 ≠ 0 then
          (BitVec.ofNat 16 (s.ps.par 0) <<< 8) ||| BitVec.ofNat 16 (s.ps.par 1)
        else s.rend.sComplementMask
      some { s with rend.complementMask := mask, ps.priv4 := false }
    else none
  | 0x6e =>
    let s := if s.ps.priv4 then decDsr s else ansiDsr s
    some { s with ps.priv4 := false }
  | _ => none

/-- CURSOR TABULATION CONTROL. -/
def vteCtc (s : Con) : Con :=
  match s.ps.par 0 with
  | 0 => setTab s
  | 2 => vteTbc s 0
  | 5 => vteTbc s 5
  | _ => s

/-- DECSTBM. -/
def vteDecstbm (s : Con) : Con :=
  let s := s.atLeastOne
  let s := if s.ps.par 1 = 0 then s.setPar 1 s.geo.rows else s
  if s.ps.par 0 < s.ps.par 1 ∧ s.ps.par 1 ≤ s.geo.rows then
    gotoxay { s with mar := ⟨s.ps.par 0 - 1, s.ps.par 1⟩ } 0 0
  else s

/-- A move of the cursor by `dx` and `dy` with the wrapping of unsigned
arithmetic, to column 0 when `home`. -/
def moveBy (s : Con) (home : Bool) (dx dy : Int) : Con :=
  gotoxy s (if home then 0 else s32 (s.cur.x + dx)) (s32 (s.cur.y + dy))

/-- The control functions with standard parameter strings. -/
def csiFinal (s : Con) (c : Nat) : Con :=
  match c with
  | 0x20 => s.setState .csiSpace
  | 0x21 => s.setState .csiExclam
  | 0x22 => s.setState .csiDquote
  | 0x24 => s.setState .csiDollar
  | 0x26 => s.setState .csiAnd
  | 0x2a => s.setState .csiStar
  | 0x2b => s.setState .csiPlus
  | 0x40 => vteIch s (s.ps.par 0)
  | 0x41 | 0x6b =>
    let s := s.atLeastOne
    moveBy s false 0 (-s.ps.par 0)
  | 0x42 | 0x65 =>
    let s := s.atLeastOne
    moveBy s false 0 (s.ps.par 0)
  | 0x43 | 0x61 =>
    let s := s.atLeastOne
    moveBy s false (s.ps.par 0) 0
  | 0x44 | 0x6a =>
    let s := s.atLeastOne
    moveBy s false (-s.ps.par 0) 0
  | 0x45 =>
    let s := s.atLeastOne
    moveBy s true 0 (s.ps.par 0)
  | 0x46 =>
    let s := s.atLeastOne
    moveBy s true 0 (-s.ps.par 0)
  | 0x47 | 0x60 =>
    let s := s.fromZero 0
    gotoxy s (s32 (s.ps.par 0)) (s32 s.cur.y)
  | 0x48 | 0x66 =>
    let s := (s.fromZero 0).fromZero 1
    gotoxay s (s32 (s.ps.par 1)) (s32 (s.ps.par 0))
  | 0x49 =>
    let s := s.atLeastOne
    vteCht s (s32 (s.ps.par 0))
  | 0x4a => vteEd s (s.ps.par 0)
  | 0x4b => vteEl s (s.ps.par 0)
  | 0x4c => vteIl d s (s.ps.par 0)
  | 0x4d => vteDl d s (s.ps.par 0)
  | 0x50 => vteDch s (s.ps.par 0)
  | 0x57 => vteCtc s
  | 0x58 => vteEch s (s.ps.par 0)
  | 0x59 =>
    let s := s.atLeastOne
    vteCvt d s (s32 (s.ps.par 0))
  | 0x5a => vteCbt s (s32 (s.ps.par 0))
  | 0x5d => settermCommand d s
  | 0x63 => if s.ps.par 0 = 0 then vteDa s else s
  | 0x64 =>
    let s := s.fromZero 0
    gotoxay s (s32 s.cur.x) (s32 (s.ps.par 0))
  | 0x67 => vteTbc s (s.ps.par 0)
  | 0x6d => vteSgr d s
  | 0x71 =>
    if s.ps.par 0 ≤ 3 then setledstate s (if s.ps.par 0 < 3 then s.ps.par 0 else 4) else s
  | 0x72 => vteDecstbm s
  | 0x78 => vteDecreptparm s
  | _ => s

/-- `EScsi_gotpars`. -/
def csiGotpars (s : Con) (c : Nat) : Con :=
  let s := s.setState .init
  match csiPrivate d s c with
  | some s' => s'
  | none =>
    if s.ps.priv1 || s.ps.priv2 || s.ps.priv3 || s.ps.priv4 then
      { s with ps.priv1 := false, ps.priv2 := false, ps.priv3 := false, ps.priv4 := false }
    else csiFinal d s c

/-- `EScsi_getpars`. -/
def csiGetpars (s : Con) (c : Nat) : Con :=
  if c = 0x3b ∧ s.ps.npar < NPAR - 1 then { s with ps.npar := s.ps.npar + 1 }
  else if 0x30 ≤ c ∧ c ≤ 0x39 then
    s.setPar s.ps.npar (u32 (u32 (s.ps.par s.ps.npar * 10) + (c - 0x30)))
  else csiGotpars d (s.setState .csiGotpars) c

/-- `EScsi`. -/
def csiState (s : Con) (c : Nat) : Con :=
  let s := s.clearPars.setState .csiGetpars
  if c = 0x5b then s.setState .funckey
  else
    let s := { s with ps.priv1 := c == 0x3c, ps.priv2 := c == 0x3d, ps.priv3 := c == 0x3e
                      ps.priv4 := c == 0x3f }
    if s.ps.priv1 then s.setState .init
    else if s.ps.priv2 || s.ps.priv3 || s.ps.priv4 then s
    else csiGetpars d s c

/-- `EScsi_exclam`. -/
def csiExclamState (s : Con) (c : Nat) : Con :=
  let s := s.setState .init
  if c = 0x70 then vteRis d s true else s

/-- `EScsi_dquote`. -/
def csiDquoteState (s : Con) (c : Nat) : Con :=
  let s := s.setState .init
  if c = 0x70 then vteDecscl s else s

/-- `EScsi_dollar`: the other reports it names are not implemented. -/
def csiDollarState (s : Con) (c : Nat) : Con :=
  let s := s.setState .init
  if c = 0x70 then vteDecrqm s s.ps.priv4 else s

/-- The switch on the state of the parser. -/
def emulateState (s : Con) (c : Nat) : Con :=
  match s.ps.state with
  | .esc => escState d s c
  | .acs => acsState s c
  | .osc => oscState s c
  | .palette => paletteState s c
  | .csi => csiState d s c
  | .csiGetpars => csiGetpars d s c
  | .csiGotpars => csiGotpars d s c
  | .csiExclam => csiExclamState d s c
  | .csiDquote => csiDquoteState s c
  | .csiDollar => csiDollarState s c
  | .docs => docsState s c
  | .scf => scfState s c
  | .gzd4 => gzd4State s c
  | .g1d4 => g1d4State s c
  | .g2d4 => g2d4State s c
  | .g3d4 => g3d4State s c
  | .csiSpace | .csiAnd | .csiSquote | .csiStar | .csiPlus | .funckey => s.setState .init
  | .init | .g1d6 | .g2d6 | .g3d6 | .ignore => s.setState .init

/-- `terminal_emulation(tty, c)`. -/
def terminalEmulation (s : Con) (c : Nat) : Con :=
  match c0Control d s c with
  | some s' => s'
  | none =>
    match (if s.modes.c8bit then c1Control d s c else none) with
    | some s' => s'
    | none => emulateState d s c

end LinuxConsole
