import LinuxConsole.Vc.Geometry

/-!
# The width of the screen and the array of tab stops

`vc_tab_stop` has eight words of 32 columns, and `vc_resize` accepts up to 32767
columns.  The arrays of the emulator are therefore accessed within their bounds
for every byte string exactly on screens of at most 256 columns, which is
`array_accesses_iff`.

One direction is the invariant `Sound`.  For the other, the bytes
`ESC [ 2 5 7 G ESC H`, written in any state of the parser and of the decoder,
move the cursor to column 256 and set a tab stop there.
-/

namespace LinuxConsole

open Lib

variable {d : Driver} {s : Con}

/-! ### Bytes that go to the emulator -/

theorem c0Control_none {c : Nat} (h : 0x20 ≤ c) (h' : c ≠ 0x7f) (s : Con) :
    c0Control d s c = none := by
  have hn : ¬ (c < 0x20 ∨ c = 0x7f) := by omega
  unfold c0Control
  split
  case h_14 => exact if_neg hn
  all_goals exact absurd h (by decide)

theorem c1Control_none {c : Nat} (h : c < 0x80) (s : Con) : c1Control d s c = none := by
  have hn : ¬ (0x80 ≤ c ∧ c ≤ 0x9f) := by omega
  unfold c1Control
  split
  case h_9 => exact if_neg hn
  all_goals exact absurd h (by decide)

/-- A graphic character of the seven bit set goes to the state of the parser. -/
theorem terminalEmulation_graphic {c : Nat} (h : 0x20 ≤ c) (h' : c < 0x7f) (s : Con) :
    terminalEmulation d s c = emulateState d s c := by
  have h1 := c1Control_none (d := d) (c := c) (by omega) s
  unfold terminalEmulation
  rw [c0Control_none h (by omega)]
  simp only [h1, ite_self]

theorem flush_fst (s : Con) (b : Batch) : ∃ ds, (flush s b).1 = { s with draws := ds } := by
  unfold flush
  split
  · exact ⟨s.draws, rfl⟩
  · exact ⟨_, rfl⟩

theorem writeByte_control (himask : Cell) {w : Con × Batch} {c : Nat}
    (hs : w.1.ps.state ≠ .init) (hc : c ≤ 0x7f) :
    ∃ u ds, (writeByte d himask w c).1 =
      terminalEmulation d { w.1 with dec := u, draws := ds } c := by
  obtain ⟨u, tc, ht⟩ : ∃ u tc, translateByte w.1 c = ({ w.1 with dec := u }, some (c, tc)) := by
    unfold translateByte
    rw [if_neg hs]
    split
    · rw [if_neg (by omega)]
      exact ⟨_, _, rfl⟩
    · exact ⟨w.1.dec, _, rfl⟩
  unfold writeByte
  rw [ht]
  dsimp only
  rw [if_neg (fun h => hs h.1)]
  obtain ⟨ds, hf⟩ := flush_fst { w.1 with dec := u } w.2
  exact ⟨u, ds, by rw [← hf]⟩

theorem writeByte_esc (himask : Cell) (w : Con × Batch) :
    ∃ u ds, (writeByte d himask w 0x1b).1 =
      Con.setState { w.1 with dec := u, draws := ds } .esc := by
  by_cases hs : w.1.ps.state = .init
  · have ht : translateByte w.1 0x1b = (w.1, some (0x1b, 0x1b)) := if_pos hs
    have hok : glyphOk w.1 0x1b 0x1b = false := by
      unfold glyphOk
      cases w.1.modes.dispCtrl <;> cases w.1.dec.utf <;> decide
    unfold writeByte
    rw [ht]
    dsimp only
    rw [hok, if_neg (by simp)]
    obtain ⟨ds, hf⟩ := flush_fst w.1 w.2
    exact ⟨w.1.dec, ds, by rw [hf]; rfl⟩
  · obtain ⟨u, ds, hw⟩ := writeByte_control (d := d) himask (w := w) (c := 0x1b) hs (by decide)
    exact ⟨u, ds, hw.trans rfl⟩

/-! ### A control sequence with one parameter -/

/-- The parser has read `v` as the first parameter of a control sequence. -/
structure Reading (s : Con) (v : Nat) : Prop where
  state : s.ps.state = .csiGetpars
  npar : s.ps.npar = 0
  par : s.ps.par 0 = v
  flags : (s.ps.priv1 || s.ps.priv2 || s.ps.priv3 || s.ps.priv4) = false

/-- What a console keeps while a sequence is read. -/
structure Kept (s s' : Con) : Prop where
  geo : s'.geo = s.geo
  arrays : arrayFaults s'.faults = arrayFaults s.faults

theorem Kept.trans {s₁ s₂ s₃ : Con} (h : Kept s₁ s₂) (h' : Kept s₂ s₃) : Kept s₁ s₃ :=
  ⟨h'.geo.trans h.geo, h'.arrays.trans h.arrays⟩

theorem csiGetpars_digit {v k : Nat} (h : Reading s v) (hk : k ≤ 9) (hv : v * 10 + k < 2 ^ 32) :
    Reading (csiGetpars d s (0x30 + k)) (v * 10 + k) ∧ Kept s (csiGetpars d s (0x30 + k)) := by
  have he : csiGetpars d s (0x30 + k) = s.setPar 0 (v * 10 + k) := by
    unfold csiGetpars
    rw [if_neg (by omega), if_pos (by omega), h.npar, h.par]
    have h1 := u32_of_lt (n := v * 10) (by omega) (by omega)
    have h2 := u32_of_lt (n := v * 10 + k) (by omega) (by omega)
    have hsub : ((0x30 + k : Nat) : Int) - 0x30 = k := by omega
    rw [h1, hsub]
    congr 1
    omega
  rw [he]
  exact ⟨⟨h.state, h.npar, by simp [Con.setPar], h.flags⟩, ⟨rfl, rfl⟩⟩

theorem csiState_digit {k : Nat} (hk : k ≤ 9) :
    Reading (csiState d s (0x30 + k)) k ∧ Kept s (csiState d s (0x30 + k)) := by
  have hb : ∀ m, 0x30 + k < m → ((0x30 + k) == m) = false := by
    intro m hm
    simp only [beq_eq_false_iff_ne]
    omega
  have he : csiState d s (0x30 + k) = csiGetpars d
      { s.clearPars.setState .csiGetpars with
        ps := { (s.clearPars.setState .csiGetpars).ps with
          priv1 := false, priv2 := false, priv3 := false, priv4 := false } } (0x30 + k) := by
    unfold csiState
    rw [if_neg (by omega)]
    simp only [hb 0x3c (by omega), hb 0x3d (by omega), hb 0x3e (by omega), hb 0x3f (by omega)]
    rfl
  rw [he]
  have hd := csiGetpars_digit (d := d) (s := { s.clearPars.setState .csiGetpars with
    ps := { (s.clearPars.setState .csiGetpars).ps with
      priv1 := false, priv2 := false, priv3 := false, priv4 := false } })
    (v := 0) (k := k) ⟨rfl, rfl, by simp [Con.clearPars, Con.setState, NPAR], rfl⟩ hk (by omega)
  rw [Nat.zero_mul, Nat.zero_add] at hd
  exact ⟨hd.1, hd.2.geo, hd.2.arrays⟩

theorem csiFinal_cha {v : Nat} (h : s.ps.par 0 = v + 1) (hv : v < 2 ^ 31) :
    csiFinal d s 0x47 = gotoxy (s.setPar 0 v) v (s32 s.cur.y) := by
  have hz : s.fromZero 0 = s.setPar 0 v := by
    unfold Con.fromZero
    rw [if_pos (by rw [h]; exact Nat.succ_ne_zero v), h]
    rfl
  have hp : (s.setPar 0 v).ps.par 0 = v := by simp [Con.setPar]
  have he : csiFinal d s 0x47 =
      gotoxy (s.fromZero 0) (s32 ((s.fromZero 0).ps.par 0)) (s32 (s.fromZero 0).cur.y) := rfl
  rw [he, hz, hp, s32_of_lt (by omega) (by omega)]
  rfl

theorem csiGetpars_cha {v : Nat} (h : Reading s (v + 1)) (hv : v < 2 ^ 31) (hc : v < s.geo.cols) :
    (csiGetpars d s 0x47).ps.state = .init ∧ (csiGetpars d s 0x47).cur.x = v ∧
      Kept s (csiGetpars d s 0x47) := by
  have he : csiGetpars d s 0x47 =
      gotoxy ((s.setState .init).setPar 0 v) v (s32 s.cur.y) := by
    have hg : csiGetpars d s 0x47 = csiGotpars d (s.setState .csiGotpars) 0x47 := by
      unfold csiGetpars
      rw [if_neg (by omega), if_neg (by omega)]
    have hp : csiPrivate d (s.setState .init) 0x47 = none := rfl
    have hf : ((s.setState .init).ps.priv1 || (s.setState .init).ps.priv2 ||
      (s.setState .init).ps.priv3 || (s.setState .init).ps.priv4) = false := h.flags
    rw [hg]
    unfold csiGotpars
    rw [show (s.setState .csiGotpars).setState .init = s.setState .init from rfl]
    dsimp only
    rw [hp]
    dsimp only
    rw [hf, if_neg (by decide), csiFinal_cha (s := s.setState .init) h.par hv]
    rfl
  rw [he]
  refine ⟨rfl, ?_, rfl, rfl⟩
  show (clampX _ v).toNat = v
  unfold clampX
  have hg : ((s.setState .init).setPar 0 v).geo = s.geo := rfl
  rw [hg, if_neg (by omega), if_neg (by omega)]
  omega

/-! ### The sequence that leaves the array -/

theorem Kept.of {s' : Con} {u : Utf} {ds : List Draw}
    (h : Kept { s with dec := u, draws := ds } s') : Kept s s' := ⟨h.geo, h.arrays⟩

theorem write_esc (himask : Cell) (w : Con × Batch) :
    (writeByte d himask w 0x1b).1.ps.state = .esc ∧
      (writeByte d himask w 0x1b).1.cur = w.1.cur ∧ Kept w.1 (writeByte d himask w 0x1b).1 := by
  obtain ⟨u, ds, h⟩ := writeByte_esc (d := d) himask w
  rw [h]
  exact ⟨rfl, rfl, rfl, rfl⟩

theorem write_csi (himask : Cell) {w : Con × Batch} (hs : w.1.ps.state = .esc) :
    (writeByte d himask w 0x5b).1.ps.state = .csi ∧ Kept w.1 (writeByte d himask w 0x5b).1 := by
  obtain ⟨u, ds, h⟩ := writeByte_control (d := d) himask (w := w) (c := 0x5b)
    (by rw [hs]; decide) (by decide)
  rw [h, terminalEmulation_graphic (by decide) (by decide)]
  unfold emulateState
  simp only [hs]
  exact ⟨rfl, rfl, rfl⟩

theorem write_first (himask : Cell) {w : Con × Batch} {k : Nat} (hs : w.1.ps.state = .csi)
    (hk : k ≤ 9) : Reading (writeByte d himask w (0x30 + k)).1 k ∧
      Kept w.1 (writeByte d himask w (0x30 + k)).1 := by
  obtain ⟨u, ds, h⟩ := writeByte_control (d := d) himask (w := w) (c := 0x30 + k)
    (by rw [hs]; decide) (by omega)
  rw [h, terminalEmulation_graphic (by omega) (by omega)]
  unfold emulateState
  simp only [hs]
  have hd := csiState_digit (d := d) (s := { w.1 with dec := u, draws := ds }) hk
  exact ⟨hd.1, hd.2.of⟩

theorem write_digit (himask : Cell) {w : Con × Batch} {v k : Nat} (hr : Reading w.1 v)
    (hk : k ≤ 9) (hv : v * 10 + k < 2 ^ 32) :
    Reading (writeByte d himask w (0x30 + k)).1 (v * 10 + k) ∧
      Kept w.1 (writeByte d himask w (0x30 + k)).1 := by
  obtain ⟨u, ds, h⟩ := writeByte_control (d := d) himask (w := w) (c := 0x30 + k)
    (by rw [hr.state]; decide) (by omega)
  rw [h, terminalEmulation_graphic (by omega) (by omega)]
  unfold emulateState
  simp only [hr.state]
  have hd := csiGetpars_digit (d := d) (s := { w.1 with dec := u, draws := ds })
    ⟨hr.state, hr.npar, hr.par, hr.flags⟩ hk hv
  exact ⟨hd.1, hd.2.of⟩

theorem write_cha (himask : Cell) {w : Con × Batch} {v : Nat} (hr : Reading w.1 (v + 1))
    (hv : v < 2 ^ 31) (hc : v < w.1.geo.cols) :
    (writeByte d himask w 0x47).1.cur.x = v ∧ Kept w.1 (writeByte d himask w 0x47).1 := by
  obtain ⟨u, ds, h⟩ := writeByte_control (d := d) himask (w := w) (c := 0x47)
    (by rw [hr.state]; decide) (by decide)
  rw [h, terminalEmulation_graphic (by decide) (by decide)]
  unfold emulateState
  simp only [hr.state]
  obtain ⟨-, hx, hk⟩ := csiGetpars_cha (d := d) (s := { w.1 with dec := u, draws := ds })
    ⟨hr.state, hr.npar, hr.par, hr.flags⟩ hv hc
  exact ⟨hx, hk.of⟩

theorem write_hts (himask : Cell) {w : Con × Batch} (hs : w.1.ps.state = .esc)
    (hx : 256 ≤ w.1.cur.x) : arrayFaults (writeByte d himask w 0x48).1.faults =
      .vcTabStop (w.1.cur.x >>> 5) :: arrayFaults w.1.faults := by
  obtain ⟨u, ds, h⟩ := writeByte_control (d := d) himask (w := w) (c := 0x48)
    (by rw [hs]; decide) (by decide)
  have hword : ¬ w.1.cur.x >>> 5 < tabWords := by
    rw [Nat.shiftRight_eq_div_pow]
    show ¬ w.1.cur.x / 32 < 8
    omega
  rw [h, terminalEmulation_graphic (by decide) (by decide)]
  unfold emulateState
  simp only [hs]
  show arrayFaults (if decide (w.1.cur.x >>> 5 < tabWords) then w.1.faults
    else .vcTabStop (w.1.cur.x >>> 5) :: w.1.faults) = _
  rw [decide_eq_false hword, if_neg (by decide)]
  rfl

theorem kept_hideCursor (s : Con) : Kept s (hideCursor s) := by
  unfold hideCursor hideSoftcursor
  split
  · exact ⟨rfl, rfl⟩
  next orig _ =>
  have hw : Kept s ((s.draw [.cursorErase]).scrWritew orig s.cur.pos) := by
    refine ⟨rfl, ?_⟩
    show arrayFaults (if _ then s.faults else .cell s.cur.pos 1 :: s.faults) = _
    split <;> rfl
  dsimp only
  split
  · exact ⟨hw.geo, hw.arrays⟩
  · exact ⟨hw.geo, hw.arrays⟩

/-- The bytes `ESC [ 2 5 7 G ESC H`. -/
def tabBeyond : List Nat := [0x1b, 0x5b, 0x30 + 2, 0x30 + 5, 0x30 + 7, 0x47, 0x1b, 0x48]

/-- **On a screen of more than 256 columns these bytes access the ninth word of
`vc_tab_stop`**, whatever the state of the console. -/
theorem tabBeyond_fault (hc : 256 < s.geo.cols) :
    arrayFaults (doConWrite d s tabBeyond).faults = .vcTabStop 8 :: arrayFaults s.faults := by
  have hk : Kept s (if s.vt.visible then hideCursor s else s) := by
    split
    · exact kept_hideCursor s
    · exact ⟨rfl, rfl⟩
  unfold doConWrite
  dsimp only
  generalize (if s.vt.visible then hideCursor s else s) = s₀ at hk ⊢
  generalize s₀.rend.hiFontMask = m
  obtain ⟨h1, -, k1⟩ := write_esc (d := d) m (s₀, ⟨none, 0, 0⟩)
  generalize hw1 : writeByte d m (s₀, ⟨none, 0, 0⟩) 0x1b = w1 at h1 k1
  obtain ⟨h2, k2⟩ := write_csi (d := d) m h1
  generalize hw2 : writeByte d m w1 0x5b = w2 at h2 k2
  obtain ⟨r3, k3⟩ := write_first (d := d) m (k := 2) h2 (by decide)
  generalize hw3 : writeByte d m w2 (0x30 + 2) = w3 at r3 k3
  obtain ⟨r4, k4⟩ := write_digit (d := d) m (k := 5) r3 (by decide) (by decide)
  generalize hw4 : writeByte d m w3 (0x30 + 5) = w4 at r4 k4
  obtain ⟨r5, k5⟩ := write_digit (d := d) m (k := 7) r4 (by decide) (by decide)
  generalize hw5 : writeByte d m w4 (0x30 + 7) = w5 at r5 k5
  have k05 := (((k1.trans k2).trans k3).trans k4).trans k5
  obtain ⟨h6, k6⟩ := write_cha (d := d) m (v := 256) r5 (by decide) (by
    rw [k05.geo]
    show 256 < s₀.geo.cols
    rwa [hk.geo])
  generalize hw6 : writeByte d m w5 0x47 = w6 at h6 k6
  obtain ⟨h7, x7, k7⟩ := write_esc (d := d) m w6
  generalize hw7 : writeByte d m w6 0x1b = w7 at h7 x7 k7
  have h8 := write_hts (d := d) m h7 (by rw [x7, h6])
  have hrun : writeLoop d m (s₀, ⟨none, 0, 0⟩) tabBeyond = writeByte d m w7 0x48 := by
    unfold writeLoop tabBeyond
    rw [List.foldl_cons, hw1, List.foldl_cons, hw2, List.foldl_cons, hw3, List.foldl_cons, hw4,
      List.foldl_cons, hw5, List.foldl_cons, hw6, List.foldl_cons, hw7]
    rfl
  rw [hrun]
  obtain ⟨ds, hf⟩ := flush_fst (writeByte d m w7 0x48).1 (writeByte d m w7 0x48).2
  rw [hf]
  show arrayFaults (writeByte d m w7 0x48).1.faults = _
  rw [h8, x7, h6, ((k05.trans k6).trans k7).arrays]
  show _ :: arrayFaults s₀.faults = _
  rw [hk.arrays]
  rfl

/-! ### The exact condition -/

/-- One step keeps the invariant at the width `vc_resize` accepts. -/
theorem Sound.conStep_any {F : List Fault} (h : Sound d vcResizeMaxcol F s) (op : ConOp) :
    Sound d vcResizeMaxcol F (LinuxConsole.conStep d s op) := by
  cases op with
  | resize cols lines buf =>
    refine h.vcResize fun hc => ?_
    unfold resizeCols
    split
    · exact hc
    · exact h.bounds.cols_le
  | write buf => exact h.doConWrite buf
  | flushChars => exact h.setCursor
  | print b oops => exact h.vtConsolePrint b oops
  | display vt => exact h
  | redraw => exact h.updateScreen

/-- A sound console is sound at its own width, from its own faults on. -/
theorem Sound.atWidth {N M : Nat} {F : List Fault} (h : Sound d N F s) (hM : s.geo.cols ≤ M) :
    Sound d M (arrayFaults s.faults) s :=
  { bounds := { h.bounds with cols_le := hM }
    parser := h.parser
    arrays := fun _ => rfl
    screen := h.screen }

/-- **The arrays of the emulator hold exactly 256 columns.**  In every state
reached from the one `vc_init` leaves, by writes, messages, resizes to any size
`vc_resize` accepts and events of the display, every byte string written keeps
every array access in bounds if and only if the screen has at most 256
columns. -/
theorem array_accesses_iff (d : Driver) (i : ConInit) (screenbuf : Nat) (mem : Nat → Cell)
    (vt : Display) (uni : Option UniPagedir) (userMap : Nat → Nat) (doClear : Bool) (hc : 1 ≤ i.cols)
    (hc' : i.cols ≤ vcResizeMaxcol) (hr : 1 ≤ i.rows) (hr' : i.rows ≤ vcResizeMaxrow)
    (ops : List ConOp) :
    let s := Lib.run (conStep d) (vcInit d (visualInit i screenbuf mem vt uni userMap) doClear) ops
    (∀ buf, arrayFaults (doConWrite d s buf).faults = arrayFaults s.faults) ↔
      s.geo.cols ≤ 256 := by
  intro s
  have hrows : i.rows < 2 ^ 31 := Nat.lt_of_le_of_lt hr' (by decide)
  have h : Sound d vcResizeMaxcol [] s :=
    run_invariant (I := Sound d vcResizeMaxcol []) (fun _ op hs => hs.conStep_any op)
      (sound_vcInit d i screenbuf mem vt uni userMap doClear hc hc' hr hrows) ops
  constructor
  · intro hall
    by_contra hwide
    have := hall tabBeyond
    rw [tabBeyond_fault (by omega)] at this
    exact List.cons_ne_self _ _ this
  · intro hle buf
    exact ((h.atWidth hle).doConWrite buf).arrays (Nat.le_refl _)

/-- The condition at the size of the dummy driver. -/
theorem array_accesses_iff_dummyCon :
    (∀ buf, arrayFaults (doConWrite dummyCon bootCon buf).faults = arrayFaults bootCon.faults) ↔
      bootCon.geo.cols ≤ 256 :=
  array_accesses_iff dummyCon dummyConInit 0x1000 (fun _ => 0) bootDisplay none defaultUserMap true
    (by decide) (by decide) (by decide) (by decide) []

/-- **A console of 300 columns**: `vc_resize` accepts the size, and the eight
bytes make the emulator access `vc_tab_stop[8]`. -/
theorem wide_console_fault :
    (vcResize dummyCon bootCon 300 25 (some 0x9000)).2 = 0 ∧
      arrayFaults (doConWrite dummyCon (vcResize dummyCon bootCon 300 25 (some 0x9000)).1
        [0x1b, 0x5b, 0x32, 0x35, 0x37, 0x47, 0x1b, 0x48]).faults = [.vcTabStop 8] := by
  decide +kernel

end LinuxConsole
