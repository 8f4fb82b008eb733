import Mathlib.Tactic.IntervalCases
import LinuxConsole.Vc.Cells

/-!
# Inverting the screen

`invertViewed` is `invert_screen` with its last argument, which chooses between the screen and the
part of it that is being viewed.  The comment above it in the source says that inverting twice
should revert to the original state.

The three inversions `vt.c` has built in do, `invertCell_invertCell`, and so does the hook of the
VGA driver on a colour screen.  In monochrome the hook keeps the foreground `1` of an underlined
cell where it is, and a cell whose foreground is `6` is taken for one when it is inverted back.
`invert_twice_iff` says that **these are all the cells that do not come back**, for
`invert_screen`, for DECSCNM and for the highlight of a selection.
-/

namespace LinuxConsole

variable {d : Driver} {s : Con}

/-! ### The cells -/

/-- `vgacon_invert_region`. -/
def vgaconInvertRegion (c : Con) (a : Cell) : Cell :=
  if c.rend.canDoColor then
    (a &&& 0x88ff#16) ||| ((a &&& 0x7000#16) >>> 4) ||| ((a &&& 0x0700#16) <<< 4)
  else a ^^^ (if a &&& 0x0700#16 = 0x0100#16 then 0x7000#16 else 0x7700#16)

/-- The inversion a console with driver `d` uses. -/
def invertHook (d : Driver) (s : Con) : Cell → Cell :=
  match d.conInvertRegion with
  | some f => f s.seen
  | none => invertCell s.rend

theorem swap_fields (a : Cell) :
    (let b := (a &&& 0x88ff#16) ||| ((a &&& 0x7000#16) >>> 4) ||| ((a &&& 0x0700#16) <<< 4)
     (b &&& 0x88ff#16) ||| ((b &&& 0x7000#16) >>> 4) ||| ((b &&& 0x0700#16) <<< 4)) = a := by
  apply BitVec.eq_of_getLsbD_eq
  intro i hi
  interval_cases i <;> simp

theorem swap_fields_hi (a : Cell) :
    (let b := (a &&& 0x11ff#16) ||| ((a &&& 0xe000#16) >>> 4) ||| ((a &&& 0x0e00#16) <<< 4)
     (b &&& 0x11ff#16) ||| ((b &&& 0xe000#16) >>> 4) ||| ((b &&& 0x0e00#16) <<< 4)) = a := by
  apply BitVec.eq_of_getLsbD_eq
  intro i hi
  interval_cases i <;> simp

theorem xor_twice (a m : Cell) : a ^^^ m ^^^ m = a := by
  rw [BitVec.xor_assoc, BitVec.xor_self, BitVec.xor_zero]

/-- **The built-in inversions are involutions**, in monochrome and with 256 or 512 glyphs. -/
theorem invertCell_invertCell (r : Rendition) (a : Cell) : invertCell r (invertCell r a) = a := by
  by_cases hcolor : r.canDoColor = true
  · by_cases hmask : r.hiFontMask = 0x100#16
    · simp only [invertCell, hcolor, hmask]
      exact swap_fields_hi a
    · simp only [invertCell, hcolor, if_neg hmask]
      exact swap_fields a
  · simp only [invertCell, hcolor]
    exact xor_twice a _

/-- A cell the hook of the VGA driver does not bring back: one that is not underlined in monochrome,
and whose inverse looks underlined. -/
def Stuck (d : Driver) (s : Con) (a : Cell) : Prop :=
  d.conInvertRegion.isSome ∧ s.rend.canDoColor = false ∧ a &&& 0x0700#16 = 0x0600#16

theorem and_xor (a m k : Cell) : (a ^^^ m) &&& k = (a &&& k) ^^^ (m &&& k) := by
  apply BitVec.eq_of_getLsbD_eq
  intro i _
  simp only [BitVec.getLsbD_and, BitVec.getLsbD_xor]
  cases a.getLsbD i <;> cases m.getLsbD i <;> cases k.getLsbD i <;> rfl

/-- **In monochrome the hook brings back every cell but those of foreground `6`.** -/
theorem vgaconInvertRegion_twice (c : Con) (a : Cell) :
    vgaconInvertRegion c (vgaconInvertRegion c a) = a ↔
      ¬(c.rend.canDoColor = false ∧ a &&& 0x0700#16 = 0x0600#16) := by
  by_cases hcolor : c.rend.canDoColor = true
  · simp only [vgaconInvertRegion, hcolor]
    exact iff_of_true (swap_fields a) (by simp)
  rw [Bool.not_eq_true] at hcolor
  have hmono : ∀ b, vgaconInvertRegion c b =
      b ^^^ (if b &&& 0x0700#16 = 0x0100#16 then 0x7000#16 else 0x7700#16) := fun b => by
    simp only [vgaconInvertRegion, hcolor, Bool.false_eq_true, if_false]
  rw [hmono a]
  by_cases hunder : a &&& 0x0700#16 = 0x0100#16
  · have hkeeps : (a ^^^ 0x7000#16) &&& 0x0700#16 = 0x0100#16 := by
      rw [and_xor, hunder]
      decide
    rw [if_pos hunder, hmono, if_pos hkeeps, xor_twice, hunder]
    exact iff_of_true rfl fun h => absurd h.2 (by decide)
  · rw [if_neg hunder, hmono]
    have hback : (a ^^^ 0x7700#16) &&& 0x0700#16 = 0x0100#16 ↔ a &&& 0x0700#16 = 0x0600#16 := by
      rw [and_xor]
      constructor
      · intro h
        have hx := congrArg (· ^^^ (0x7700#16 &&& 0x0700#16)) h
        rw [xor_twice] at hx
        exact hx
      · intro h
        rw [h]
        decide
    by_cases hsix : a &&& 0x0700#16 = 0x0600#16
    · rw [if_pos (hback.mpr hsix)]
      refine iff_of_false (fun h => ?_) (not_not_intro ⟨hcolor, hsix⟩)
      have hbits := congrArg (· &&& 0x0700#16) h
      simp only [and_xor, hsix] at hbits
      exact absurd hbits (by decide)
    · rw [if_neg (fun h => hsix (hback.mp h)), xor_twice]
      exact iff_of_true rfl fun h => hsix h.2

theorem invertHook_twice
    (hd : d.conInvertRegion = none ∨ d.conInvertRegion = some vgaconInvertRegion) (s : Con)
    (a : Cell) : invertHook d s (invertHook d s a) = a ↔ ¬Stuck d s a := by
  rcases hd with hd | hd
  · simp only [invertHook, Stuck, hd]
    exact iff_of_true (invertCell_invertCell s.rend a) (by simp)
  · simp only [invertHook, Stuck, hd, Option.isSome_some, true_and]
    exact vgaconInvertRegion_twice s.seen a

/-! ### The screen -/

/-- How the viewed part of a screen is addressed: `vc_visible_origin`, and `con_screen_pos` of a
driver that has it. -/
structure View where
  visibleOrigin : Nat
  conScreenPos : Option (Nat → Nat)

/-- `screenpos`. -/
def screenpos (v : View) (s : Con) (offset : Nat) (viewed : Bool) : Nat :=
  if !viewed then s.geo.origin + offset
  else match v.conScreenPos with
    | none => v.visibleOrigin + offset
    | some f => f offset

/-- `invert_screen` from the address it has found on. -/
def invertAt (d : Driver) (s : Con) (p count : Nat) : Con :=
  let s := s.mapCells p count (invertHook d s)
  if s.vt.visible then doUpdateRegion s p count else s

/-- `invert_screen(vc, offset, count, viewed)`. -/
def invertViewed (d : Driver) (v : View) (s : Con) (offset count : Nat) (viewed : Bool) : Con :=
  invertAt d s (screenpos v s offset viewed) (count / 2)

/-- `highlight(s, e)` of the selection. -/
def highlight (d : Driver) (v : View) (s : Con) (start last : Nat) : Con :=
  invertViewed d v s start (last - start + 2) true

theorem mem_invertAt (d : Driver) (s : Con) (p n b : Nat) : (invertAt d s p n).mem b =
    if p ≤ b ∧ b < p + 2 * n ∧ (b - p) % 2 = 0 then invertHook d s (s.mem b) else s.mem b := by
  rw [invertAt]
  split
  · rfl
  · rfl

@[simp] theorem geo_invertAt (d : Driver) (s : Con) (p n : Nat) :
    (invertAt d s p n).geo = s.geo := by
  rw [invertAt]
  exact (apply_ite Con.geo _ _ _).trans (ite_self _)

@[simp] theorem rend_invertAt (d : Driver) (s : Con) (p n : Nat) :
    (invertAt d s p n).rend = s.rend := by
  rw [invertAt]
  exact (apply_ite Con.rend _ _ _).trans (ite_self _)

@[simp] theorem modes_invertAt (d : Driver) (s : Con) (p n : Nat) :
    (invertAt d s p n).modes = s.modes := by
  rw [invertAt]
  exact (apply_ite Con.modes _ _ _).trans (ite_self _)

theorem cur_invertAt (d : Driver) (s : Con) (p n : Nat) : (invertAt d s p n).cur = s.cur := by
  rw [invertAt]
  exact (apply_ite Con.cur _ _ _).trans (ite_self _)

theorem vt_invertAt (d : Driver) (s : Con) (p n : Nat) : (invertAt d s p n).vt = s.vt := by
  rw [invertAt]
  exact (apply_ite Con.vt _ _ _).trans (ite_self _)

theorem invertHook_congr
    (hd : d.conInvertRegion = none ∨ d.conInvertRegion = some vgaconInvertRegion) {s s' : Con}
    (hcolor : s'.rend.canDoColor = s.rend.canDoColor)
    (hmask : s'.rend.hiFontMask = s.rend.hiFontMask) : invertHook d s' = invertHook d s := by
  funext a
  rcases hd with hd | hd
  · simp only [invertHook, hd, invertCell, hcolor, hmask]
  · have hseen : s'.seen.rend.canDoColor = s.seen.rend.canDoColor := hcolor
    simp only [invertHook, hd]
    rw [vgaconInvertRegion, vgaconInvertRegion, hseen]

/-- The cells of a region that do not come back. -/
def Restores (d : Driver) (s : Con) (p n : Nat) : Prop := ∀ i < n, ¬Stuck d s (s.mem (p + 2 * i))

/-- The memory after the same region has been inverted by two consoles that invert alike. -/
theorem inverted_twice_iff
    (hd : d.conInvertRegion = none ∨ d.conInvertRegion = some vgaconInvertRegion) {s s' : Con}
    {p n : Nat} (hmem : s'.mem = (invertAt d s p n).mem)
    (hcolor : s'.rend.canDoColor = s.rend.canDoColor)
    (hmask : s'.rend.hiFontMask = s.rend.hiFontMask) :
    (∀ b, (∀ i < n, b ≠ p + 2 * i) → (invertAt d s' p n).mem b = s.mem b) ∧
      ((invertAt d s' p n).mem = s.mem ↔ Restores d s p n) := by
  have hcell : ∀ b, (invertAt d s' p n).mem b =
      if p ≤ b ∧ b < p + 2 * n ∧ (b - p) % 2 = 0 then invertHook d s (invertHook d s (s.mem b))
      else s.mem b := by
    intro b
    rw [mem_invertAt, hmem, mem_invertAt, invertHook_congr hd hcolor hmask]
    split
    · rfl
    · rfl
  refine ⟨fun b hb => ?_, fun h i hi => ?_, fun h => funext fun b => ?_⟩
  · rw [hcell, if_neg]
    rintro ⟨hp, hlt, heven⟩
    exact hb ((b - p) / 2) (by omega) (by omega)
  · have hb := congrFun h (p + 2 * i)
    rw [hcell, if_pos (by omega), invertHook_twice hd] at hb
    exact hb
  · rw [hcell]
    split
    case isTrue hin =>
      rw [invertHook_twice hd]
      have hb := h ((b - p) / 2) (by omega)
      rwa [show p + 2 * ((b - p) / 2) = b by omega] at hb
    case isFalse => rfl

theorem setPrivMode_inverts (d : Driver) {s : Con} {on : Bool} (h : s.modes.decscnm ≠ on) :
    setPrivMode d on s 5 = updateAttr d (invertAt d { s with modes.decscnm := on } s.geo.origin
      (s.geo.screenbufSize / 2)) := if_pos h

theorem mem_setPrivMode_decscnm
    (hd : d.conInvertRegion = none ∨ d.conInvertRegion = some vgaconInvertRegion) {s : Con} {on : Bool}
    (h : s.modes.decscnm ≠ on) : (setPrivMode d on s 5).mem =
      (invertAt d s s.geo.origin (s.geo.screenbufSize / 2)).mem := by
  have hhook : invertHook d { s with modes.decscnm := on } = invertHook d s :=
    invertHook_congr hd rfl rfl
  rw [setPrivMode_inverts d h]
  funext b
  rw [show ∀ r : Con, (updateAttr d r).mem = r.mem from fun _ => rfl, mem_invertAt, mem_invertAt,
    hhook]

theorem decscnm_twice_iff
    (hd : d.conInvertRegion = none ∨ d.conInvertRegion = some vgaconInvertRegion) {s : Con}
    (hoff : s.modes.decscnm = false) :
    (setPrivMode d false (setPrivMode d true s 5) 5).mem = s.mem ↔
      Restores d s s.geo.origin (s.geo.screenbufSize / 2) := by
  have hset : s.modes.decscnm ≠ true := by rw [hoff]; decide
  have hmem := mem_setPrivMode_decscnm hd hset
  obtain ⟨hgeo, hmodes, hcolor, hmask⟩ : (setPrivMode d true s 5).geo = s.geo ∧
      (setPrivMode d true s 5).modes.decscnm = true ∧
      (setPrivMode d true s 5).rend.canDoColor = s.rend.canDoColor ∧
      (setPrivMode d true s 5).rend.hiFontMask = s.rend.hiFontMask := by
    rw [setPrivMode_inverts d hset]
    refine ⟨geo_invertAt .., congrArg Modes.decscnm (modes_invertAt ..), ?_, ?_⟩
    · rw [show ∀ r, (updateAttr d r).rend.canDoColor = r.rend.canDoColor from fun _ => rfl,
        rend_invertAt]
    · rw [show ∀ r, (updateAttr d r).rend.hiFontMask = r.rend.hiFontMask from fun _ => rfl,
        rend_invertAt]
  have hreset : (setPrivMode d true s 5).modes.decscnm ≠ false := by rw [hmodes]; decide
  rw [mem_setPrivMode_decscnm hd hreset, hgeo]
  exact (inverted_twice_iff hd hmem hcolor hmask).2

/-- **Inverting twice brings back everything but the stuck cells.**  With the VGA driver's hook or
without a hook, for `invert_screen` on any region, for DECSCNM set and reset and for a highlight put
on and taken off: no cell outside the region changes, and the screen is what it was if and only if
no cell of the region is stuck. -/
theorem invert_twice_iff
    (hd : d.conInvertRegion = none ∨ d.conInvertRegion = some vgaconInvertRegion) (v : View)
    (s : Con) :
    (∀ offset count viewed, let p := screenpos v s offset viewed
      let s' := invertViewed d v (invertViewed d v s offset count viewed) offset count viewed
      (∀ b, (∀ i < count / 2, b ≠ p + 2 * i) → s'.mem b = s.mem b) ∧
        (s'.mem = s.mem ↔ Restores d s p (count / 2))) ∧
    (s.modes.decscnm = false →
      ((setPrivMode d false (setPrivMode d true s 5) 5).mem = s.mem ↔
        Restores d s s.geo.origin (s.geo.screenbufSize / 2))) ∧
    ∀ start last, (highlight d v (highlight d v s start last) start last).mem = s.mem ↔
      Restores d s (screenpos v s start true) ((last - start + 2) / 2) := by
  have hpos : ∀ p n offset viewed,
      screenpos v (invertAt d s p n) offset viewed = screenpos v s offset viewed := by
    intro p n offset viewed
    rw [screenpos, screenpos, geo_invertAt]
  have hregion : ∀ offset count viewed, let p := screenpos v s offset viewed
      let s' := invertViewed d v (invertViewed d v s offset count viewed) offset count viewed
      (∀ b, (∀ i < count / 2, b ≠ p + 2 * i) → s'.mem b = s.mem b) ∧
        (s'.mem = s.mem ↔ Restores d s p (count / 2)) := by
    intro offset count viewed
    simp only [invertViewed, hpos]
    exact inverted_twice_iff hd rfl (by rw [rend_invertAt]) (by rw [rend_invertAt])
  exact ⟨hregion, decscnm_twice_iff hd, fun start last => (hregion start _ true).2⟩

/-! ### A stuck cell -/

/-- The dummy driver with the inversion of the VGA driver, on a monochrome screen of the attribute
`6` all over. -/
def monoCon : Driver := { dummyCon with conInvertRegion := some vgaconInvertRegion }

def brownCon : Con := { bootCon with rend.canDoColor := false, mem := fun _ => 0x0620#16 }

/-- A highlight on that screen does not come off. -/
theorem invert_twice_brown :
    (highlight monoCon ⟨0x1000, none⟩ (highlight monoCon ⟨0x1000, none⟩ brownCon 0 2) 0 2).mem ≠
      brownCon.mem := fun h =>
  ((invert_twice_iff (.inr rfl) ⟨0x1000, none⟩ brownCon).2.2 0 2).mp h 0 (by decide)
    ⟨rfl, rfl, by decide⟩

/-- **A cell that does not come back**: inverted twice, the attribute `6` is `1`. -/
theorem invert_twice_stuck :
    (invertViewed monoCon ⟨0x1000, none⟩ (invertViewed monoCon ⟨0x1000, none⟩ brownCon 0 2 false)
      0 2 false).mem 0x1000 = 0x0120#16 ∧ brownCon.mem 0x1000 = 0x0620#16 := by
  decide +kernel

end LinuxConsole
