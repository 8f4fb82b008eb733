import Mathlib.Logic.Function.Basic
import LinuxConsole.Vc.Data

/-!
# Fonts on the VGA

`KDFONTOP` sets and gets the font of a console: `con_font_set` and `con_font_get` of `vt_ioctl.c`,
which check the request and copy from and to the user, and `vgacon_font_set`, `vgacon_font_get` and
`vgacon_do_font_op` of `vgacon.c`, which move the glyphs to and from the third plane of the video
memory.  `vt_kern.h` defines `BROKEN_GRAPHICS_PROGRAMS` wherever `vgacon.c` is compiled: all fonts
are in the first slots of the plane.

A glyph has 32 bytes, the first 256 glyphs are at the start of the plane, and the other 256 are
behind a gap of the same size.  `vgacon_font_get` does not ask for these others.
**`font_round_trip_iff`** says when the font that is got is nevertheless the one that was set.
-/

namespace LinuxConsole.Vga

/-- What the functions return. -/
inductive FontRet
  | ok
  | einval
  | efault
  | enomem
  | enospc
  | eio
  deriving DecidableEq

/-- The members of `struct console_font_op` but `op` and `data`; the two flags are
`KD_FONT_FLAG_OLD` and `KD_FONT_FLAG_DONT_RECALC`. -/
structure FontOp where
  flagOld : Bool
  dontRecalc : Bool
  width : Nat
  height : Nat
  charcount : Nat
  deriving DecidableEq

/-- `struct console_font`. -/
structure ConsoleFont where
  width : Nat
  height : Nat
  charcount : Nat
  data : Nat → BitVec 8

/-- The user's memory from `op->data` on; `none` cannot be accessed. -/
abbrev UserBytes : Type := Nat → Option (BitVec 8)

/-- The registers that `vgacon_do_font_op` writes: of the sequencer, of the graphics controller and
of the attribute controller. -/
structure FontRegs where
  planeWrite : Nat
  memoryMode : Nat
  characterMap : Nat
  planeRead : Nat
  gfxMode : Nat
  gfxMisc : Nat
  planeEnable : Nat
  deriving DecidableEq

/-- The registers of the CRTC that `vgacon_adjust_height` writes. -/
structure CrtcRegs where
  overflow : BitVec 8
  fontSize : BitVec 8
  displayEnd : BitVec 8
  deriving DecidableEq

/-- What the functions look at in a `struct vc_data`. -/
structure FontCon where
  mode : KdMode
  fontHeight : Nat
  scanLines : Nat
  hiFontMask : Nat

/-- The card and the consoles of its VT.  `plane p a` is the byte of the plane `p` at `0xa0000 + a`;
`resizes` are the calls of `vc_resize`, with the console and the rows. -/
structure FontCard where
  videoType : Nat
  can64kb : Bool
  plane : Nat → Nat → BitVec 8
  regs : FontRegs
  crtc : CrtcRegs
  fontIsDefault : Bool
  chars512 : Bool
  con : Nat → FontCon
  vcCons : Nat → Option Nat
  vcCount : Nat
  fg : Nat
  resizes : List (Nat × Nat)

/-- `VIDEO_TYPE_EGAM`. -/
def videoTypeEgam : Nat := 0x20

/-- `VIDEO_TYPE_VGAC`. -/
def videoTypeVgac : Nat := 0x22

/-- `cmapsz`. -/
def cmapsz : Nat := 8192

/-- `max_font_size`. -/
def maxFontSize : Nat := 65536

namespace FontCard

variable (s : FontCard)

/-! ### The planes -/

/-- `vga_writeb` while addressing is sequential: the byte goes to the planes of the mask. -/
def writeb (b : BitVec 8) (a : Nat) : FontCard :=
  { s with
    plane := fun p => if s.regs.planeWrite.testBit p then Function.update (s.plane p) a b
      else s.plane p }

/-- `vga_readb` while addressing is sequential. -/
def readb (a : Nat) : BitVec 8 := s.plane s.regs.planeRead a

/-- CPU accesses to map 2 only, sequential and from A000:0000. -/
def openFontMap : FontCard :=
  { s with
    regs :=
      { s.regs with
        planeWrite := 0x04
        memoryMode := 0x07
        planeRead := 0x02
        gfxMode := 0x00
        gfxMisc := 0x00 } }

/-- `beg`. -/
def textMisc : Nat :=
  if s.videoType ≠ videoTypeEgam then if s.can64kb ∧ s.videoType = videoTypeVgac then 0x06 else 0x0e
  else 0x0a

/-- CPU accesses to the text, and the slots of the font if `fontSelect` is given. -/
def openText (fontSelect : Option Nat) : FontCard :=
  { s with
    regs :=
      { s.regs with
        planeWrite := 0x03
        memoryMode := 0x03
        characterMap := fontSelect.getD s.regs.characterMap
        planeRead := 0x00
        gfxMode := 0x10
        gfxMisc := s.textMisc } }

/-- The first `n` rounds of a loop of `vgacon_do_font_op` over the bytes from `arg` and from
`charmap` on. -/
def moveBytes (set : Bool) (arg charmap : Nat) :
    Nat → (Nat → BitVec 8) × FontCard → (Nat → BitVec 8) × FontCard
  | 0, r => r
  | i + 1, r =>
    let r := moveBytes set arg charmap i r
    if set then (r.1, r.2.writeb (r.1 (arg + i)) (charmap + i))
    else (Function.update r.1 (arg + i) (r.2.readb (charmap + i)), r.2)

/-- The loops of `vgacon_do_font_op`: in 512-character mode the map is not contiguous. -/
def moveFont (set ch512 : Bool) (size : Nat) (arg : Nat → BitVec 8) :
    (Nat → BitVec 8) × FontCard :=
  let r := moveBytes set 0 0 size (arg, s)
  if ch512 then moveBytes set size (2 * size) size r else r

/-- 512-character mode is switched on or off. -/
def set512 (ch512 : Bool) : FontCard :=
  { s with
    con := fun p =>
      if (List.range s.vcCount).any fun i => s.vcCons i == some p then
        { s.con p with hiFontMask := if ch512 then 0x0800 else 0 }
      else s.con p
    chars512 := ch512
    regs := { s.regs with planeEnable := if ch512 then 0x07 else 0x0f } }

/-- `vgacon_do_font_op`: the buffer `arg` after it, and the card. -/
def doFontOp (arg : Option (Nat → BitVec 8)) (set ch512 : Bool) :
    FontRet × Option (Nat → BitVec 8) × FontCard :=
  match arg with
  | none => (.einval, none, s)
  | some arg =>
    let s := { s with fontIsDefault := false }
    let r := s.openFontMap.moveFont set ch512 cmapsz arg
    let s := r.2.openText (if set then some (if ch512 then 0x04 else 0x00) else none)
    (.ok, some r.1, if set ∧ ch512 ≠ s.chars512 then s.set512 ch512 else s)

/-! ### The hooks of the driver -/

/-- The registers for a font of a height, with `rows` rows. -/
def crtcFor (rows fontheight : Nat) : CrtcRegs :=
  let maxscan : BitVec 32 := BitVec.ofNat 32 (rows * fontheight) - 1
  { overflow := (s.crtc.overflow &&& 0xbd) + ((maxscan &&& 0x100) >>> 7).setWidth 8 +
      ((maxscan &&& 0x200) >>> 3).setWidth 8
    fontSize := (s.crtc.fontSize &&& 0xe0) + BitVec.ofNat 8 (fontheight - 1)
    displayEnd := maxscan.setWidth 8 }

/-- `vgacon_adjust_height`; it returns 0. -/
def adjustHeight (vc fontheight : Nat) : FontCard :=
  if fontheight = (s.con vc).fontHeight then s
  else
    let rows := (s.con vc).scanLines / fontheight
    { s with
      con := Function.update s.con vc { s.con vc with fontHeight := fontheight }
      crtc := s.crtcFor rows fontheight
      resizes := if vc = s.fg then s.resizes ++ [(vc, rows)] else s.resizes }

/-- `vgacon_font_set`. -/
def vgaconFontSet (vc : Nat) (font : ConsoleFont) (dontRecalc : Bool) : FontRet × FontCard :=
  if s.videoType < videoTypeEgam then (.einval, s)
  else if font.width ≠ 8 ∨ (font.charcount ≠ 256 ∧ font.charcount ≠ 512) then (.einval, s)
  else
    let r := s.doFontOp (some font.data) true (font.charcount = 512)
    if r.1 ≠ .ok then (r.1, r.2.2)
    else (.ok, if dontRecalc then r.2.2 else r.2.2.adjustHeight vc font.height)

/-- `vgacon_font_get`: `data` is the buffer, if there is one; the font that it fills in. -/
def vgaconFontGet (vc : Nat) (data : Option (Nat → BitVec 8)) :
    FontRet × Option ConsoleFont × FontCard :=
  if s.videoType < videoTypeEgam then (.einval, none, s)
  else
    let font (data : Nat → BitVec 8) : ConsoleFont :=
      ⟨8, (s.con vc).fontHeight, if s.chars512 then 512 else 256, data⟩
    match data with
    | none => (.ok, some (font fun _ => 0), s)
    | some data =>
      let r := s.doFontOp (some data) false false
      (r.1, some (font (r.2.1.getD data)), r.2.2)

end FontCard

/-! ### The requests -/

/-- The rounds of the loops that guess the height of a font: the height and the glyph. -/
def guessRounds (charcount : Nat) : List (Nat × Nat) :=
  (List.range 32).flatMap fun k => (List.range charcount).map fun i => (32 - k, i)

/-- The height of a font is guessed from the last row with a dot in it. -/
def guessHeight (user : UserBytes) : List (Nat × Nat) → Except FontRet Nat
  | [] => .error .einval
  | (h, i) :: rest =>
    match user (32 * i + h - 1) with
    | none => .error .efault
    | some tmp => if tmp ≠ 0 then .ok h else guessHeight user rest

/-- `(width+7)/8 * 32 * charcount`. -/
def fontSize (width charcount : Nat) : Nat := (width + 7) / 8 * 32 * charcount

namespace FontCard

variable (s : FontCard)

/-- `con_font_set` once the height is known. -/
def conFontSetHeight (vc : Nat) (op : FontOp) (user : UserBytes) (alloc : Bool) :
    FontRet × FontOp × FontCard :=
  if op.width = 0 ∨ op.width > 32 ∨ op.height > 32 then (.einval, op, s)
  else if fontSize op.width op.charcount > maxFontSize then (.enospc, op, s)
  else if !alloc then (.enomem, op, s)
  else if (List.range (fontSize op.width op.charcount)).any fun i => (user i).isNone then
    (.efault, op, s)
  else
    let r := s.vgaconFontSet vc ⟨op.width, op.height, op.charcount, fun i => (user i).getD 0⟩
      op.dontRecalc
    (r.1, op, r.2)

/-- `con_font_set`; `alloc` is whether there is memory for the font. -/
def conFontSet (vc : Nat) (op : FontOp) (data : Option UserBytes) (alloc : Bool) :
    FontRet × FontOp × FontCard :=
  if (s.con vc).mode ≠ .text then (.einval, op, s)
  else
    match data with
    | none => (.einval, op, s)
    | some user =>
      if op.charcount > 512 then (.einval, op, s)
      else if op.height = 0 then
        if !op.flagOld then (.einval, op, s)
        else
          match guessHeight user (guessRounds op.charcount) with
          | .error e => (e, op, s)
          | .ok h => s.conFontSetHeight vc { op with height := h } user alloc
      else s.conFontSetHeight vc op user alloc

/-- Whether the request of `con_font_get` has room for a font; `hasData` is whether there is a
buffer. -/
def roomFor (op : FontOp) (font : ConsoleFont) (hasData : Bool) : FontRet :=
  let rc : FontRet := if hasData ∧ font.charcount > op.charcount then .enospc else .ok
  if !op.flagOld then
    if font.width > op.width ∨ font.height > op.height then .enospc else rc
  else if font.width ≠ 8 then .eio
  else if (op.height ≠ 0 ∧ font.height > op.height) ∨ font.height > 32 then .enospc
  else rc

/-- `con_font_get`; `heap` is what is in the memory that `kmalloc` gives for the font, if the user
has a buffer and there is memory.  The bytes are those that are copied to the user. -/
def conFontGet (vc : Nat) (op : FontOp) (hasData : Bool) (heap : Option (Nat → BitVec 8))
    (writable : Bool) : FontRet × FontOp × List (BitVec 8) × FontCard :=
  if (s.con vc).mode ≠ .text then (.einval, op, [], s)
  else if hasData ∧ heap = none then (.enomem, op, [], s)
  else
    let r := s.vgaconFontGet vc (if hasData then heap else none)
    match r.2.1 with
    | none => (r.1, op, [], r.2.2)
    | some font =>
      if r.1 ≠ .ok then (r.1, op, [], r.2.2)
      else if roomFor op font hasData ≠ .ok then (roomFor op font hasData, op, [], r.2.2)
      else
        let op :=
          { op with height := font.height, width := font.width, charcount := font.charcount }
        if !hasData then (.ok, op, [], r.2.2)
        else if !writable then (.efault, op, [], r.2.2)
        else (.ok, op, (List.range (fontSize font.width font.charcount)).map font.data, r.2.2)

/-! ### What the routine moves -/

variable {s : FontCard}

theorem moveBytes_set (arg charmap n : Nat) (d : Nat → BitVec 8) :
    moveBytes true arg charmap n (d, s) =
      (d, { s with
        plane := fun p a =>
          if s.regs.planeWrite.testBit p ∧ charmap ≤ a ∧ a < charmap + n then
            d (arg + (a - charmap))
          else s.plane p a }) := by
  induction n with
  | zero =>
    refine Prod.ext rfl ?_
    have hnone (a : Nat) : ¬ (charmap ≤ a ∧ a < charmap + 0) := by omega
    simp only [moveBytes, hnone, and_false, if_false]
  | succ n ih =>
    rw [moveBytes, ih, if_pos rfl]
    refine Prod.ext rfl ?_
    dsimp only [writeb]
    congr 1
    funext p a
    cases hp : s.regs.planeWrite.testBit p with
    | false => simp
    | true =>
      simp only [if_true, true_and, Function.update_apply]
      by_cases ha : a = charmap + n
      · rw [if_pos ha, if_pos (by omega), ha, Nat.add_sub_cancel_left]
      · rw [if_neg ha]
        exact if_congr (by omega) rfl rfl

/-- The bytes that a loop reads, from the plane that CPU reads come from. -/
theorem moveBytes_get (arg charmap n : Nat) (d : Nat → BitVec 8) :
    moveBytes false arg charmap n (d, s) =
      (fun a => if arg ≤ a ∧ a < arg + n then s.plane s.regs.planeRead (charmap + (a - arg))
        else d a, s) := by
  induction n with
  | zero =>
    refine Prod.ext ?_ rfl
    have hnone (a : Nat) : ¬ (arg ≤ a ∧ a < arg + 0) := by omega
    simp only [moveBytes, hnone, if_false]
  | succ n ih =>
    rw [moveBytes, ih, if_neg (by decide)]
    refine Prod.ext ?_ rfl
    funext a
    dsimp only [readb]
    rw [Function.update_apply]
    by_cases ha : a = arg + n
    · rw [if_pos ha, if_pos (by omega), ha, Nat.add_sub_cancel_left]
    · rw [if_neg ha]
      exact if_congr (by omega) rfl rfl

/-- What setting a font of `size` bytes, or twice as many, leaves: the glyphs are in the plane, and
neither the text nor the mode of a console has changed. -/
structure Holds (s' s : FontCard) (size : Nat) (d : Nat → BitVec 8) (ch512 : Bool) : Prop where
  glyphs : ∀ a < size, s'.plane 2 a = d a
  upper : ch512 = true → ∀ a < size, s'.plane 2 (2 * size + a) = d (size + a)
  text : s'.plane 0 = s.plane 0 ∧ s'.plane 1 = s.plane 1
  type : s'.videoType = s.videoType
  mode : ∀ p, (s'.con p).mode = (s.con p).mode

theorem moveFont_holds (h : s.regs.planeWrite = 0x04) (ch512 : Bool) (size : Nat)
    (d : Nat → BitVec 8) : Holds (s.moveFont true ch512 size d).2 s size d ch512 := by
  have htwo : s.regs.planeWrite.testBit 2 = true := by rw [h]; decide
  have hzero : s.regs.planeWrite.testBit 0 = false := by rw [h]; decide
  have hone : s.regs.planeWrite.testBit 1 = false := by rw [h]; decide
  rw [moveFont]
  cases ch512 with
  | false =>
    rw [if_neg (by decide), moveBytes_set]
    refine ⟨fun a ha => ?_, fun hch => (by cases hch), ?_, rfl, fun p => rfl⟩
    · simp [htwo, ha]
    · simp [hzero, hone]
  | true =>
    rw [if_pos rfl, moveBytes_set, moveBytes_set]
    refine ⟨fun a ha => ?_, fun _ a ha => ?_, ?_, rfl, fun p => rfl⟩
    · have hlow : ¬ (2 * size ≤ a ∧ a < 2 * size + size) := by omega
      simp [htwo, ha, hlow]
    · simp [htwo, ha]
    · simp [hzero, hone]

theorem moveFont_chars512 (ch512 : Bool) (size : Nat) (d : Nat → BitVec 8) :
    (s.moveFont true ch512 size d).2.chars512 = s.chars512 := by
  rw [moveFont]
  cases ch512 with
  | false => rw [if_neg (by decide), moveBytes_set]
  | true => rw [if_pos rfl, moveBytes_set, moveBytes_set]

theorem set512_mode (ch512 : Bool) (p : Nat) : ((s.set512 ch512).con p).mode = (s.con p).mode := by
  rw [set512]
  dsimp only
  split
  · rfl
  · rfl

/-- **Setting a font** puts all its glyphs into the plane, and the card knows how many there are. -/
theorem doFontOp_set (d : Nat → BitVec 8) (ch512 : Bool) :
    (s.doFontOp (some d) true ch512).1 = .ok ∧
      Holds (s.doFontOp (some d) true ch512).2.2 s cmapsz d ch512 ∧
        (s.doFontOp (some d) true ch512).2.2.chars512 = ch512 := by
  have hmoved := @moveFont_holds { s with fontIsDefault := false }.openFontMap rfl ch512 cmapsz d
  have hcount := @moveFont_chars512 { s with fontIsDefault := false }.openFontMap ch512 cmapsz d
  rw [doFontOp]
  dsimp only
  generalize (openFontMap { s with fontIsDefault := false }).moveFont true ch512 cmapsz d = r at *
  refine ⟨rfl, ?_⟩
  by_cases hnew : ch512 ≠ r.2.chars512
  · rw [if_pos ⟨rfl, hnew⟩]
    exact ⟨⟨hmoved.glyphs, hmoved.upper, hmoved.text, hmoved.type,
        fun p => (set512_mode ch512 p).trans (hmoved.mode p)⟩, rfl⟩
  · rw [if_neg fun h => hnew h.2]
    exact ⟨⟨hmoved.glyphs, hmoved.upper, hmoved.text, hmoved.type, hmoved.mode⟩,
      (not_not.mp hnew).symm⟩

theorem moveFont_get (h : s.regs.planeRead = 2) (size : Nat) (d : Nat → BitVec 8) :
    (s.moveFont false false size d).1 = fun a => if a < size then s.plane 2 a else d a := by
  rw [moveFont, if_neg (by decide), moveBytes_get]
  funext a
  simp [h]

theorem doFontOp_get (d : Nat → BitVec 8) :
    (s.doFontOp (some d) false false).1 = .ok ∧
      (s.doFontOp (some d) false false).2.1 =
        some fun a => if a < cmapsz then s.plane 2 a else d a := by
  refine ⟨rfl, ?_⟩
  have hmoved := @moveFont_get { s with fontIsDefault := false }.openFontMap rfl cmapsz d
  rw [doFontOp]
  exact congrArg some hmoved

/-! ### What a request that succeeds does -/

theorem adjustHeight_mode (vc fontheight p : Nat) :
    ((s.adjustHeight vc fontheight).con p).mode = (s.con p).mode := by
  rw [adjustHeight]
  split
  · rfl
  · by_cases hp : p = vc
    · rw [hp]
      simp
    · simp [hp]

theorem Holds.adjustHeight {s' : FontCard} {size : Nat} {d : Nat → BitVec 8} {ch512 : Bool}
    (h : Holds s' s size d ch512) (vc fontheight : Nat) :
    Holds (s'.adjustHeight vc fontheight) s size d ch512 := by
  have hplane : (s'.adjustHeight vc fontheight).plane = s'.plane := by
    rw [FontCard.adjustHeight]
    split <;> rfl
  have htype : (s'.adjustHeight vc fontheight).videoType = s'.videoType := by
    rw [FontCard.adjustHeight]
    split <;> rfl
  refine ⟨?_, ?_, ?_, htype.trans h.type, fun p => (adjustHeight_mode vc _ p).trans (h.mode p)⟩
  · rw [hplane]
    exact h.glyphs
  · rw [hplane]
    exact h.upper
  · rw [hplane]
    exact h.text

theorem adjustHeight_chars512 (vc fontheight : Nat) :
    (s.adjustHeight vc fontheight).chars512 = s.chars512 := by
  rw [adjustHeight]
  split <;> rfl

theorem vgaconFontSet_ok {vc : Nat} {font : ConsoleFont} {dontRecalc : Bool}
    (h : (s.vgaconFontSet vc font dontRecalc).1 = .ok) :
    font.width = 8 ∧ (font.charcount = 256 ∨ font.charcount = 512) ∧
      ¬ s.videoType < videoTypeEgam ∧
        Holds (s.vgaconFontSet vc font dontRecalc).2 s cmapsz font.data (font.charcount = 512) ∧
          (s.vgaconFontSet vc font dontRecalc).2.chars512 = decide (font.charcount = 512) := by
  rw [vgaconFontSet] at h ⊢
  split at h
  · cases h
  next htype =>
  rw [if_neg htype]
  split at h
  · cases h
  next hshape =>
  rw [if_neg hshape]
  obtain ⟨hok, hholds, hcount⟩ := @doFontOp_set s font.data (decide (font.charcount = 512))
  dsimp only
  rw [if_neg (not_not.mpr hok)]
  refine ⟨by omega, by omega, htype, ?_, ?_⟩
  · cases dontRecalc with
    | true => exact hholds
    | false => exact hholds.adjustHeight vc font.height
  · cases dontRecalc with
    | true => exact hcount
    | false => exact (adjustHeight_chars512 vc font.height).trans hcount

/-- The card after a font has been set: `user` is where it came from. -/
structure Loaded (s : FontCard) (vc charcount : Nat) (user : UserBytes) : Prop where
  mode : (s.con vc).mode = .text
  type : ¬ s.videoType < videoTypeEgam
  count : charcount = 256 ∨ charcount = 512
  chars : s.chars512 = decide (charcount = 512)
  read : ∀ a < 32 * charcount, user a ≠ none
  glyphs : ∀ a < cmapsz, user a = some (s.plane 2 a)

theorem conFontSetHeight_ok {vc : Nat} {op : FontOp} {user : UserBytes} {alloc : Bool}
    (hmode : (s.con vc).mode = .text) (h : (s.conFontSetHeight vc op user alloc).1 = .ok) :
    Loaded (s.conFontSetHeight vc op user alloc).2.2 vc op.charcount user := by
  rw [conFontSetHeight] at h ⊢
  split at h
  · cases h
  next hwidth =>
  rw [if_neg hwidth]
  split at h
  · cases h
  next hsize =>
  rw [if_neg hsize]
  split at h
  · cases h
  next halloc =>
  rw [if_neg halloc]
  split at h
  · cases h
  next hread =>
  rw [if_neg hread]
  obtain ⟨height, hcount, htype, hholds, hchars⟩ := vgaconFontSet_ok h
  have hread' : ∀ a < 32 * op.charcount, user a ≠ none := by
    intro a ha hnone
    refine hread (List.any_eq_true.mpr ⟨a, List.mem_range.mpr ?_, by rw [hnone]; rfl⟩)
    rw [show op.width = 8 from height]
    exact ha
  refine ⟨(hholds.mode vc).trans hmode, ?_, hcount, hchars, hread', fun a ha => ?_⟩
  · rw [hholds.type]
    exact htype
  · rw [hholds.glyphs a ha]
    obtain ⟨b, hb⟩ := Option.ne_none_iff_exists'.mp (hread' a (by
      have h32 : cmapsz = 32 * 256 := rfl
      dsimp only at hcount
      omega))
    simp [hb]

theorem guessHeight_ne_ok {user : UserBytes} {rounds : List (Nat × Nat)} {e : FontRet}
    (h : guessHeight user rounds = .error e) : e ≠ .ok := by
  induction rounds with
  | nil =>
    obtain rfl := Except.error.inj h
    decide
  | cons r rest ih =>
    rw [guessHeight.eq_def] at h
    dsimp only at h
    split at h
    · obtain rfl := Except.error.inj h
      decide
    · split at h
      · cases h
      · exact ih h

theorem conFontSet_ok {vc : Nat} {op : FontOp} {data : Option UserBytes} {alloc : Bool}
    (h : (s.conFontSet vc op data alloc).1 = .ok) :
    ∃ user, data = some user ∧
      Loaded (s.conFontSet vc op data alloc).2.2 vc op.charcount user := by
  rw [conFontSet.eq_def] at h ⊢
  split at h
  · cases h
  next hmode =>
  rw [if_neg hmode]
  cases data with
  | none => cases h
  | some user =>
    refine ⟨user, rfl, ?_⟩
    dsimp only at h ⊢
    split at h
    · cases h
    next hcount =>
    rw [if_neg hcount]
    split at h
    · next hzero =>
      rw [if_pos hzero]
      split at h
      · cases h
      next hold =>
      rw [if_neg hold]
      split at h
      · next e hguess =>
        -- the height is not guessed, and none of the errors is a success
        exact absurd h (guessHeight_ne_ok hguess)
      · next height hguess =>
        exact conFontSetHeight_ok (not_not.mp hmode) h
    · next hheight =>
      rw [if_neg hheight]
      exact conFontSetHeight_ok (not_not.mp hmode) h

/-- The request has room for a font of the VGA; the height 0 is no limit for `KD_FONT_FLAG_OLD`. -/
structure Room (s : FontCard) (vc charcount : Nat) (op : FontOp) : Prop where
  count : charcount ≤ op.charcount
  width : 8 ≤ op.width
  height : (s.con vc).fontHeight ≤ op.height ∨ (op.flagOld = true ∧ op.height = 0)
  old : op.flagOld = true → (s.con vc).fontHeight ≤ 32

theorem Room.roomFor {vc : Nat} {op : FontOp} {font : ConsoleFont} (h : Room s vc font.charcount op)
    (hwidth : font.width = 8) (hheight : font.height = (s.con vc).fontHeight) :
    roomFor op font true = .ok := by
  have hcount : ¬ ((true = true) ∧ font.charcount > op.charcount) := fun hmore =>
    Nat.not_lt_of_le h.count hmore.2
  rw [FontCard.roomFor, if_neg hcount]
  cases hflag : op.flagOld with
  | false =>
    have hlimit : (s.con vc).fontHeight ≤ op.height :=
      h.height.resolve_right fun hold => by rw [hflag] at hold; cases hold.1
    rw [if_pos (by decide), if_neg]
    have hwide := h.width
    omega
  | true =>
    have hold := h.old hflag
    have hlimit := h.height
    rw [if_neg (by decide), if_neg (not_not.mpr hwidth), if_neg]
    omega

theorem vgaconFontGet_ok {vc : Nat} (htype : ¬ s.videoType < videoTypeEgam)
    (heap : Nat → BitVec 8) :
    ∃ s', s.vgaconFontGet vc (some heap) =
      (.ok, some ⟨8, (s.con vc).fontHeight, if s.chars512 then 512 else 256,
        fun a => if a < cmapsz then s.plane 2 a else heap a⟩, s') := by
  obtain ⟨hok, hdata⟩ := @doFontOp_get s heap
  refine ⟨(s.doFontOp (some heap) false false).2.2, ?_⟩
  rw [vgaconFontGet.eq_def, if_neg htype]
  dsimp only
  rw [hok, hdata]
  rfl

/-- **Getting a font** gives the lower glyphs and, of a font with 512 glyphs, what was in the memory
in the place of the others. -/
theorem conFontGet_loaded {vc charcount : Nat} {user : UserBytes} (h : Loaded s vc charcount user)
    {op : FontOp} (hroom : Room s vc charcount op) (heap : Nat → BitVec 8) :
    (s.conFontGet vc op true (some heap) true).1 = .ok ∧
      (s.conFontGet vc op true (some heap) true).2.1.charcount = charcount ∧
        (s.conFontGet vc op true (some heap) true).2.2.1 =
          (List.range (32 * charcount)).map fun a =>
            if a < cmapsz then s.plane 2 a else heap a := by
  have hchars : (if s.chars512 then 512 else 256) = charcount := by
    rw [h.chars]
    rcases h.count with hcount | hcount
    · rw [hcount]
      rfl
    · rw [hcount]
      rfl
  obtain ⟨s', hget⟩ := @vgaconFontGet_ok s vc h.type heap
  rw [hchars] at hget
  have hfits := @Room.roomFor s vc op ⟨8, (s.con vc).fontHeight, charcount,
    fun a => if a < cmapsz then s.plane 2 a else heap a⟩ hroom rfl rfl
  rw [conFontGet, if_neg (not_not.mpr h.mode), if_neg (by simp), if_pos rfl, hget]
  dsimp only
  rw [if_neg (by decide), if_neg (not_not.mpr hfits), if_neg (by decide), if_neg (by decide)]
  exact ⟨rfl, rfl, rfl⟩

/-- The font that is got is the one that was set: as many glyphs, with the same bytes. -/
def RoundTrip (vc : Nat) (op : FontOp) (user : UserBytes) (alloc : Bool) (get : FontOp)
    (heap : Nat → BitVec 8) : Prop :=
  let got := (s.conFontSet vc op (some user) alloc).2.2.conFontGet vc get true (some heap) true
  got.1 = .ok ∧ got.2.1.charcount = op.charcount ∧
    got.2.2.1.map some = (List.range (32 * op.charcount)).map user

/-- What comes back in the place of the upper glyphs is what was in the memory. -/
theorem RoundTrip.upper {vc : Nat} {op : FontOp} {user : UserBytes} {alloc : Bool} {get : FontOp}
    {heap : Nat → BitVec 8} (hset : (s.conFontSet vc op (some user) alloc).1 = .ok)
    (hroom : (s.conFontSet vc op (some user) alloc).2.2.Room vc op.charcount get)
    (h : s.RoundTrip vc op user alloc get heap) {a : Nat} (ha : cmapsz ≤ a)
    (hlt : a < 32 * op.charcount) : user a = some (heap a) := by
  obtain ⟨user', huser, hloaded⟩ := conFontSet_ok hset
  obtain ⟨-, -, hdata⟩ := conFontGet_loaded hloaded hroom heap
  have hsame := h.2.2
  rw [hdata, List.map_map] at hsame
  have hat := List.map_inj_left.mp hsame a (List.mem_range.mpr hlt)
  rw [← hat, Function.comp_apply, if_neg (Nat.not_lt.mpr ha)]

end FontCard

/-- **The round trip of a font.**  For every card, console, font and way to ask for it, if setting
the font succeeds then getting it with enough room succeeds and gives the font back if and only if
it has 256 glyphs, or the memory that `kmalloc` gives for it happens to hold the other glyphs. -/
theorem font_round_trip_iff (s : FontCard) (vc : Nat) (op : FontOp) (user : UserBytes)
    (alloc : Bool) (hset : (s.conFontSet vc op (some user) alloc).1 = .ok) (get : FontOp)
    (hroom : (s.conFontSet vc op (some user) alloc).2.2.Room vc op.charcount get)
    (heap : Nat → BitVec 8) :
    s.RoundTrip vc op user alloc get heap ↔
      op.charcount = 256 ∨ ∀ a < cmapsz, user (cmapsz + a) = some (heap (cmapsz + a)) := by
  obtain ⟨user', huser, hloaded⟩ := FontCard.conFontSet_ok hset
  obtain rfl := Option.some.inj huser
  obtain ⟨hok, hcount, hdata⟩ := FontCard.conFontGet_loaded hloaded hroom heap
  have hsize : 32 * 256 = cmapsz := rfl
  constructor
  · intro htrip
    refine hloaded.count.imp_right fun hbig a ha => ?_
    exact FontCard.RoundTrip.upper hset hroom htrip (Nat.le_add_right _ _) (by omega)
  · intro hupper
    refine ⟨hok, hcount, ?_⟩
    rw [hdata, List.map_map]
    refine List.map_inj_left.mpr fun a ha => ?_
    rw [Function.comp_apply]
    by_cases hlow : a < cmapsz
    · rw [if_pos hlow, hloaded.glyphs a hlow]
    · rw [if_neg hlow]
      rcases hupper with hsmall | hupper
      · rw [hsmall, List.mem_range] at ha
        omega
      · obtain ⟨b, rfl⟩ := Nat.exists_eq_add_of_le (Nat.le_of_not_lt hlow)
        refine (hupper b ?_).symm
        have hlt := List.mem_range.mp ha
        have hcount' := hloaded.count
        omega

/-- A VGA in text mode with one console. -/
def textCard : FontCard where
  videoType := videoTypeVgac
  can64kb := true
  plane _ _ := 0
  regs := ⟨3, 3, 0, 0, 0x10, 0x06, 0x0f⟩
  crtc := ⟨0x1f, 0x4f, 0x8f⟩
  fontIsDefault := true
  chars512 := false
  con _ := ⟨.text, 16, 400, 0⟩
  vcCons i := if i = 0 then some 0 else none
  vcCount := 1
  fg := 0
  resizes := []

/-- The font whose every row is the same. -/
def barFont : UserBytes := fun _ => some 0x18

/-- A request to get the font of the console, whatever its height is. -/
def askFont (s : FontCard) (charcount : Nat) : FontOp :=
  ⟨false, false, 8, (s.con 0).fontHeight, charcount⟩

theorem askFont_room (s : FontCard) (charcount : Nat) :
    s.Room 0 charcount (askFont s charcount) :=
  ⟨Nat.le_refl _, Nat.le_refl _, .inl (Nat.le_refl _), fun hold => by cases hold⟩

theorem barFont_set {charcount : Nat} (hcount : charcount = 256 ∨ charcount = 512) :
    (textCard.conFontSet 0 ⟨false, false, 8, 16, charcount⟩ (some barFont) true).1 = .ok := by
  have hread : (List.range (fontSize 8 charcount)).any (fun i => (barFont i).isNone) = false :=
    List.any_eq_false.mpr fun i _ => Bool.false_ne_true
  have hsize : ¬ fontSize 8 charcount > maxFontSize := by
    rcases hcount with rfl | rfl
    · decide
    · decide
  have hfew : ¬ charcount > 512 := by omega
  have hshape : ¬ ((8 : Nat) ≠ 8 ∨ (charcount ≠ 256 ∧ charcount ≠ 512)) := by omega
  have htall : ¬ ((8 : Nat) = 0 ∨ (8 : Nat) > 32 ∨ (16 : Nat) > 32) := by decide
  rw [FontCard.conFontSet, if_neg (by decide)]
  dsimp only
  rw [if_neg hfew, if_neg (by decide), FontCard.conFontSetHeight]
  dsimp only
  rw [if_neg htall, if_neg hsize, if_neg (by decide), hread, if_neg (by decide),
    FontCard.vgaconFontSet, if_neg (by decide)]
  dsimp only
  rw [if_neg hshape]
  rfl

/-- The font of 256 glyphs comes back. -/
theorem font_round_trip_256 :
    let op : FontOp := ⟨false, false, 8, 16, 256⟩
    let set := textCard.conFontSet 0 op (some barFont) true
    textCard.RoundTrip 0 op barFont true (askFont set.2.2 256) (fun _ => 0) ↔
      op.charcount = 256 ∨ ∀ a < cmapsz, barFont (cmapsz + a) = some 0 :=
  font_round_trip_iff textCard 0 ⟨false, false, 8, 16, 256⟩ barFont true (barFont_set (.inl rfl))
    (askFont _ 256) (askFont_room _ 256) fun _ => 0

/-- **The upper half of a font is lost.**  A font of 512 glyphs is set, and getting it gives the
lower 256 of them and zeros. -/
theorem font_upper_half_lost :
    let op : FontOp := ⟨false, false, 8, 16, 512⟩
    let set := textCard.conFontSet 0 op (some barFont) true
    set.1 = .ok ∧ set.2.2.Room 0 512 (askFont set.2.2 512) ∧
      ¬ textCard.RoundTrip 0 op barFont true (askFont set.2.2 512) fun _ => 0 := by
  have hset := barFont_set (.inr rfl : (512 : Nat) = 256 ∨ (512 : Nat) = 512)
  have hroom := askFont_room
    (textCard.conFontSet 0 ⟨false, false, 8, 16, 512⟩ (some barFont) true).2.2 512
  refine ⟨hset, hroom, fun htrip => ?_⟩
  have hupper := FontCard.RoundTrip.upper hset hroom htrip (Nat.le_refl cmapsz) (by decide)
  exact absurd hupper (by decide)

end LinuxConsole.Vga
