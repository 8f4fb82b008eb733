import LinuxConsole.Vc.Movement

/-!
# Saving the cursor

DECSC, anything but another save, DECRC.  `Restored` is what the comment on DECSC promises of the
console that comes out of it.

DECSC does not save the wrap flag and the origin mode, and DECRC goes to the saved position through
`gotoxy`, which bounds it by the margins in force then.  `save_restore_iff` says **exactly when the
cursor is restored**.
-/

namespace LinuxConsole

open Lib

variable {d : Driver} {N : Nat} {F : List Fault} {s s' : Con}

/-- **The console `s'` has the cursor of `s` back**: position, rendition, character sets, wrap flag and
origin mode; and it translates by the table of the character set that is active. -/
structure Restored (s s' : Con) : Prop where
  x : s'.cur.x = s.cur.x
  y : s'.cur.y = s.cur.y
  intensity : s'.rend.intensity = s.rend.intensity
  underline : s'.rend.underline = s.rend.underline
  blink : s'.rend.blink = s.rend.blink
  reverse : s'.rend.reverse = s.rend.reverse
  color : s'.rend.color = s.rend.color
  charset : s'.chars.charset = s.chars.charset
  g0 : s'.chars.g0 = s.chars.g0
  g1 : s'.chars.g1 = s.chars.g1
  g2 : s'.chars.g2 = s.chars.g2
  g3 : s'.chars.g3 = s.chars.g3
  wrap : s'.cur.needWrap = s.cur.needWrap
  decom : s'.modes.decom = s.modes.decom
  translate : s'.chars.translate = if s.chars.charset then s.chars.g1 else s.chars.g0

theorem vteDecrc_cur (s : Con) : (vteDecrc d s).cur.x = clampTo 0 s.geo.cols (s32 s.saved.x) ∧
    (vteDecrc d s).cur.y = clampTo s.firstRow s.rowEnd (s32 s.saved.y) :=
  ⟨rfl, clampY_eq s _⟩

/-- **What is saved comes back**, if the position is within the limits, no wrap was pending and
origin mode is what it was. -/
theorem restored_iff (hx : s.cur.x < s'.geo.cols) (hcols : s'.geo.cols ≤ 2 ^ 31)
    (hlimits : s'.firstRow < s'.rowEnd) (hy : s.cur.y < 2 ^ 31)
    (hsaved : s'.saved = (vteDecsc s).saved) : Restored s (vteDecrc d s') ↔
      s.cur.needWrap = false ∧ s'.modes.decom = s.modes.decom ∧ s'.firstRow ≤ s.cur.y ∧
        s.cur.y < s'.rowEnd := by
  obtain ⟨hcol, hrow⟩ := vteDecrc_cur (d := d) s'
  have hsx : s'.saved.x = s.cur.x := congrArg Saved.x hsaved
  have hsy : s'.saved.y = s.cur.y := congrArg Saved.y hsaved
  rw [hsx, s32_of_range (by omega) (by omega), clampTo] at hcol
  rw [hsy, s32_of_range (by omega) (by omega), clampTo] at hrow
  constructor
  · intro h
    have hback := h.y
    rw [hrow] at hback
    exact ⟨h.wrap.symm, h.decom, by omega, by omega⟩
  · rintro ⟨hwrap, hdecom, hlow, hhigh⟩
    have htranslate : (vteDecrc d s').chars.translate =
        if s'.saved.charset then s'.saved.g1 else s'.saved.g0 := rfl
    rw [hsaved] at htranslate
    exact {
      x := by rw [hcol]; omega
      y := by rw [hrow]; omega
      intensity := congrArg Saved.intensity hsaved
      underline := congrArg Saved.underline hsaved
      blink := congrArg Saved.blink hsaved
      reverse := congrArg Saved.reverse hsaved
      color := congrArg Saved.color hsaved
      charset := congrArg Saved.charset hsaved
      g0 := congrArg Saved.g0 hsaved
      g1 := congrArg Saved.g1 hsaved
      g2 := congrArg Saved.g2 hsaved
      g3 := congrArg Saved.g3 hsaved
      wrap := hwrap.symm
      decom := hdecom
      translate := htranslate }

/-! ### In a stream -/

theorem writeStep_decsc {w : Writing} (hs : w.con.ps.state = .esc) : ∃ u ds,
    (writeStep d w (.byte 0x37)).con =
      vteDecsc (Con.setState { w.con with dec := u, draws := ds } .init) :=
  writeStep_afterEsc hs (by decide) (by decide)

theorem writeStep_decrc {w : Writing} (hs : w.con.ps.state = .esc) : ∃ u ds,
    (writeStep d w (.byte 0x38)).con =
      vteDecrc d (Con.setState { w.con with dec := u, draws := ds } .init) :=
  writeStep_afterEsc hs (by decide) (by decide)

theorem saved_stream (as : List WriteOp) : ∀ {w : Writing},
    Along (writeStep d) (fun w a => w.saves a = false) w as →
    (run (writeStep d) w as).con.saved = w.con.saved := by
  intro w has
  refine Along.observe (f := fun w : Writing => w.con.saved) (has.imp (I := fun _ => True)
    (fun _ _ _ _ => trivial) (fun w a _ hs => (moves_writeStep w a).saved hs) trivial)

theorem size_stream (as : List WriteOp) (w : Writing) :
    (run (writeStep d) w as).con.geo.cols = w.con.geo.cols ∧
      (run (writeStep d) w as).con.geo.rows = w.con.geo.rows :=
  run_invariant (I := fun v : Writing => v.con.geo.cols = w.con.geo.cols ∧
    v.con.geo.rows = w.con.geo.rows) (fun v a hv => ⟨(moves_writeStep v a).cols.trans hv.1,
      (moves_writeStep v a).rows.trans hv.2⟩) ⟨rfl, rfl⟩ as

/-- **Save and restore.**  Between a DECSC and a DECRC anything is written but DECSC, RIS and DECSTR.
The cursor is restored exactly if no wrap was pending at DECSC, origin mode is the same at DECRC, and
there the margins, if they bound the cursor, have the row of DECSC between them. -/
theorem save_restore_iff {w : Writing} (h : Sound d N F w.con) (hN : N < 2 ^ 31)
    (hs : w.con.ps.state = .esc) {as : List WriteOp}
    (has : Along (writeStep d) (fun w a => w.saves a = false) (writeStep d w (.byte 0x37)) as)
    (hend : (run (writeStep d) (writeStep d w (.byte 0x37)) as).con.ps.state = .esc) :
    Restored w.con (writeStep d (run (writeStep d) (writeStep d w (.byte 0x37)) as) (.byte 0x38)).con ↔
      w.con.cur.needWrap = false ∧
      (run (writeStep d) (writeStep d w (.byte 0x37)) as).con.modes.decom = w.con.modes.decom ∧
      ((run (writeStep d) (writeStep d w (.byte 0x37)) as).con.modes.decom = true →
        (run (writeStep d) (writeStep d w (.byte 0x37)) as).con.mar.top ≤ w.con.cur.y ∧
        w.con.cur.y < (run (writeStep d) (writeStep d w (.byte 0x37)) as).con.mar.bottom) := by
  obtain ⟨u, ds, hsc⟩ := writeStep_decsc (d := d) hs
  have hsaved := saved_stream as has
  obtain ⟨hcols, hrows⟩ := size_stream (d := d) as (writeStep d w (.byte 0x37))
  have hsound : Sound d N F (run (writeStep d) (writeStep d w (.byte 0x37)) as).con :=
    run_invariant (I := fun v : Writing => Sound d N F v.con) (fun v a hv => hv.writeStep a)
      (h.writeStep (.byte 0x37)) as
  rw [hsc] at hsaved hcols hrows
  generalize run (writeStep d) (writeStep d w (.byte 0x37)) as = v at *
  obtain ⟨u', ds', hrc⟩ := writeStep_decrc (d := d) hend
  have hx := h.bounds.x_lt
  have hy := h.bounds.y_lt
  have hcols : v.con.geo.cols = w.con.geo.cols := hcols
  have hrows : v.con.geo.rows = w.con.geo.rows := hrows
  have htop := hsound.bounds.top_lt
  have hbottom := hsound.bounds.bottom_le
  have hrowsLt := hsound.bounds.rows_lt
  have hcolsLe := hsound.bounds.cols_le
  have hfirst : (Con.setState { v.con with dec := u', draws := ds' } .init).firstRow =
      if v.con.modes.decom then v.con.mar.top else 0 := rfl
  have hlast : (Con.setState { v.con with dec := u', draws := ds' } .init).rowEnd =
      if v.con.modes.decom then v.con.mar.bottom else v.con.geo.rows := rfl
  have hlimits : (if v.con.modes.decom then v.con.mar.top else 0) <
      if v.con.modes.decom then v.con.mar.bottom else v.con.geo.rows := by
    split
    · exact htop
    · omega
  have hiff : Restored w.con (vteDecrc d (Con.setState { v.con with dec := u', draws := ds' } .init)) ↔
      w.con.cur.needWrap = false ∧ v.con.modes.decom = w.con.modes.decom ∧
        (if v.con.modes.decom then v.con.mar.top else 0) ≤ w.con.cur.y ∧
        w.con.cur.y < if v.con.modes.decom then v.con.mar.bottom else v.con.geo.rows :=
    restored_iff (lt_of_lt_of_eq hx hcols.symm) (by show v.con.geo.cols ≤ 2 ^ 31; omega)
      (by rw [hfirst, hlast]; exact hlimits) (by omega) hsaved
  rw [hrc, hiff]
  refine and_congr_right fun _ => and_congr_right fun _ => ?_
  cases v.con.modes.decom with
  | false =>
    refine iff_of_true ⟨Nat.zero_le _, ?_⟩ fun hon => ?_
    · show w.con.cur.y < v.con.geo.rows
      omega
    · contradiction
  | true => exact ⟨fun hin _ => hin, fun hin => hin rfl⟩

/-- A stream in which ESC has been written, on a console that has been told `bytes`. -/
def afterEsc (bytes : List Nat) : Writing :=
  run (writeStep dummyCon) (.idle bootCon) ((bytes ++ [0x1b]).map .byte)

/-- A letter, another column and bold: then ESC. -/
def changes : List WriteOp := ([0x41] ++ csi [0x39] 0x47 ++ csi [0x31] 0x6d ++ [0x1b]).map .byte

theorem save_restore_changes :
    Restored (afterEsc []).con (writeStep dummyCon
        (run (writeStep dummyCon) (writeStep dummyCon (afterEsc []) (.byte 0x37)) changes)
        (.byte 0x38)).con ↔
      (afterEsc []).con.cur.needWrap = false ∧
      (run (writeStep dummyCon) (writeStep dummyCon (afterEsc []) (.byte 0x37))
        changes).con.modes.decom = (afterEsc []).con.modes.decom ∧
      ((run (writeStep dummyCon) (writeStep dummyCon (afterEsc []) (.byte 0x37))
          changes).con.modes.decom = true →
        (run (writeStep dummyCon) (writeStep dummyCon (afterEsc []) (.byte 0x37))
          changes).con.mar.top ≤ (afterEsc []).con.cur.y ∧
        (afterEsc []).con.cur.y < (run (writeStep dummyCon)
          (writeStep dummyCon (afterEsc []) (.byte 0x37)) changes).con.mar.bottom) :=
  save_restore_iff (sound_boot.writeStep (w := .idle bootCon) (.byte 0x1b)) (by decide)
    (by decide +kernel) (by decide +kernel) (by decide +kernel)

/-- Margins from the second row on, and origin mode: then ESC. -/
def originMode : List WriteOp :=
  (csi [0x32] 0x72 ++ csi [0x3f, 0x36] 0x68 ++ [0x1b]).map .byte

/-- **A wrap that was pending is gone**, and a cursor of the first row comes back within margins that
were set in between, in the origin mode that was set in between. -/
theorem cursor_not_restored :
    ¬Restored (afterEsc [0x1b, 0x5b, 0x38, 0x30, 0x47, 0x41]).con (writeStep dummyCon
        (run (writeStep dummyCon) (writeStep dummyCon
          (afterEsc [0x1b, 0x5b, 0x38, 0x30, 0x47, 0x41]) (.byte 0x37)) [.byte 0x1b])
        (.byte 0x38)).con ∧
      ¬Restored (afterEsc []).con (writeStep dummyCon
        (run (writeStep dummyCon) (writeStep dummyCon (afterEsc []) (.byte 0x37)) originMode)
        (.byte 0x38)).con := by
  have hwrap : (afterEsc [0x1b, 0x5b, 0x38, 0x30, 0x47, 0x41]).con.cur.needWrap = true ∧
      (writeStep dummyCon (run (writeStep dummyCon) (writeStep dummyCon
        (afterEsc [0x1b, 0x5b, 0x38, 0x30, 0x47, 0x41]) (.byte 0x37)) [.byte 0x1b])
        (.byte 0x38)).con.cur.needWrap = false := by decide +kernel
  have hrow : (afterEsc []).con.cur.y = 0 ∧ (writeStep dummyCon
      (run (writeStep dummyCon) (writeStep dummyCon (afterEsc []) (.byte 0x37)) originMode)
      (.byte 0x38)).con.cur.y = 1 := by decide +kernel
  refine ⟨fun h => ?_, fun h => ?_⟩
  · have hback := h.wrap
    rw [hwrap.1, hwrap.2] at hback
    contradiction
  · have hback := h.y
    rw [hrow.1, hrow.2] at hback
    contradiction

end LinuxConsole
