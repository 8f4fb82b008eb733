import LinuxConsole.Sel.Highlight

/-!
# The selection and the edges of the screen

`set_selection` limits the coordinates of a request to the console of the tty it is called on, and
selects on the console in front, which may be another one and have another size.  `Confined` says
that every offset that is read, inverted or copied lies in the window of the console it is on, and
that the scans come to their ends in the row they began in.

`selection_on_screen_iff` is **the exact condition** for a request, whatever is on the screens:
`Stays`, a condition on the two sizes and the offsets of the request.  It holds of every request if
the rows are equally long and the console in front has at least as many, `stays_of_same_width`.
-/

namespace LinuxConsole

variable {d : Nat → Driver} {st₀ st : Selection} {G : Nat → Geom} {fg : Nat}

/-! ### What has to hold -/

/-- The size of the window, in bytes. -/
def windowSize (g : Geom) : Nat := g.rows * g.sizeRow

/-- The offset is that of a cell of the window of the console it is on. -/
def InWindow (G : Nat → Geom) (t : Option Nat × Nat) : Prop :=
  ∀ k, t.1 = some k → t.2 + 2 ≤ windowSize (G k)

/-- The scan ends, and in the row it began in. -/
def InRow (g : Geom) (sc : Scan) : Prop :=
  sc.ended = true ∧ ∀ p ∈ sc.visited, p / g.sizeRow = sc.start / g.sizeRow

/-- **Nothing outside the screen has been looked at or changed**, on consoles of the sizes `G`. -/
structure Confined (G : Nat → Geom) (fg : Nat) (st : Selection) : Prop where
  touched : ∀ t ∈ st.touched, InWindow G t
  scans : ∀ sc ∈ st.scans, InRow (G fg) sc

/-- A selection that is still there lies on its console. -/
def Prior (G : Nat → Geom) (st : Selection) : Prop :=
  ∀ start, st.selStart = some start → start % 2 = 0 ∧ st.selEnd % 2 = 0 ∧ start ≤ st.selEnd ∧
    ∃ k, st.selCons = some k ∧ st.selEnd + 2 ≤ windowSize (G k)

/-- The state of a call: the sizes, and what has been recorded so far. -/
structure Within (G : Nat → Geom) (fg : Nat) (st : Selection) : Prop extends
    Confined G fg st where
  geo : ∀ k, (st.cons k).geo = G k

/-- Where a row begins and where its last cell is. -/
def rowStart (sizeRow p : Nat) : Nat := p - p % sizeRow
def rowEnd (sizeRow p : Nat) : Nat := p - p % sizeRow + sizeRow - 2

/-- **The condition**: how far a request for the offsets `ps` to `pe` on rows of the tty's console
`gv` can reach on the console `gf` in front. -/
def Stays (gv gf : Geom) (ps pe : Nat) : SelMode → Prop
  | .char =>
    if ps < pe ∧ atedge pe gv.sizeRow = false then
      rowEnd gv.sizeRow pe + 2 ≤ windowSize gf ∧
        rowEnd gv.sizeRow pe / gf.sizeRow = pe / gf.sizeRow
    else pe + 2 ≤ windowSize gf
  | .word => rowEnd gv.sizeRow pe + 2 ≤ windowSize gf ∧
      rowStart gv.sizeRow ps / gf.sizeRow = ps / gf.sizeRow ∧
      rowEnd gv.sizeRow pe / gf.sizeRow = pe / gf.sizeRow
  | .line => rowEnd gv.sizeRow pe + 2 ≤ windowSize gf
  | .pointer => pe + 2 ≤ windowSize gf
  | _ => True

instance decidableStays (gv gf : Geom) (ps pe : Nat) :
    ∀ mode : SelMode, Decidable (Stays gv gf ps pe mode)
  | .char => inferInstanceAs (Decidable (if ps < pe ∧ atedge pe gv.sizeRow = false then
      rowEnd gv.sizeRow pe + 2 ≤ windowSize gf ∧
        rowEnd gv.sizeRow pe / gf.sizeRow = pe / gf.sizeRow
      else pe + 2 ≤ windowSize gf))
  | .word => inferInstanceAs (Decidable (_ ∧ _ ∧ _))
  | .line => inferInstanceAs (Decidable (_ ≤ _))
  | .pointer => inferInstanceAs (Decidable (_ ≤ _))
  | .clear => .isTrue trivial
  | .mouseReport _ => .isTrue trivial
  | .other => .isTrue trivial

/-! ### Scans -/

/-- **A scan stays on its path**: with an edge `m` steps ahead it ends, it has looked at no offset
off the path to the edge, and it leaves with one of them. -/
theorem scanWord_path (stop edge : Nat → Bool) (next : Nat → Nat) {m p : Nat} (fuel last : Nat)
    (hm : m < fuel) (hedge : edge (next^[m] p) = true) :
    (scanWord stop edge next fuel p last).2.2 = true ∧
      (∀ v ∈ (scanWord stop edge next fuel p last).2.1, ∃ i ≤ m, v = next^[i] p) ∧
      ((scanWord stop edge next fuel p last).1 = last ∨
        ∃ i ≤ m, (scanWord stop edge next fuel p last).1 = next^[i] p) := by
  induction fuel generalizing m p last with
  | zero => omega
  | succ fuel ih =>
    have hfirst : ∀ v ∈ [p], ∃ i ≤ m, v = next^[i] p := fun v hv =>
      ⟨0, Nat.zero_le m, List.mem_singleton.mp hv⟩
    rw [scanWord]
    split
    · exact ⟨rfl, hfirst, .inl rfl⟩
    split
    · exact ⟨rfl, hfirst, .inr ⟨0, Nat.zero_le m, rfl⟩⟩
    next hnot =>
      cases m with
      | zero => exact absurd hedge hnot
      | succ m =>
        rw [Function.iterate_succ_apply] at hedge
        obtain ⟨hend, hvisited, hresult⟩ := ih p (by omega) hedge
        have hlater : ∀ v, (∃ i ≤ m, v = next^[i] (next p)) → ∃ i ≤ m + 1, v = next^[i] p := by
          rintro v ⟨i, hi, rfl⟩
          exact ⟨i + 1, by omega, (Function.iterate_succ_apply next i p).symm⟩
        refine ⟨hend, fun v hv => ?_, ?_⟩
        · rcases List.mem_cons.mp hv with rfl | hv
          · exact ⟨0, Nat.zero_le _, rfl⟩
          · exact hlater v (hvisited v hv)
        · rcases hresult with h | h
          · exact .inr ⟨0, Nat.zero_le _, h⟩
          · exact .inr (hlater _ h)

theorem scanWord_reach {stop : Nat → Bool} (edge : Nat → Bool) (next : Nat → Nat)
    (hstop : ∀ p, stop p = false)
    {m p : Nat} (fuel last : Nat) (hm : m < fuel) (hbefore : ∀ i < m, edge (next^[i] p) = false)
    (hedge : edge (next^[m] p) = true) :
    next^[m] p ∈ (scanWord stop edge next fuel p last).2.1 := by
  induction fuel generalizing m p last with
  | zero => omega
  | succ fuel ih =>
    rw [scanWord, hstop, if_neg Bool.false_ne_true]
    cases m with
    | zero =>
      rw [if_pos (show edge p = true from hedge)]
      exact List.mem_singleton_self _
    | succ m =>
      have hfirst : ¬edge p = true := by
        rw [show edge p = false from hbefore 0 (Nat.succ_pos m)]
        exact Bool.false_ne_true
      rw [if_neg hfirst]
      refine List.mem_cons_of_mem _ (ih p (by omega) (fun i hi => ?_) hedge)
      exact hbefore (i + 1) (by omega)

theorem scanBlanks_path (blank edge : Nat → Bool) {m p : Nat} (fuel : Nat) (hm : m < fuel)
    (hedge : edge (p + 2 * m) = true) :
    (scanBlanks blank edge fuel p).2.2 = true ∧
      (∀ v ∈ (scanBlanks blank edge fuel p).2.1, p ≤ v ∧ v ≤ p + 2 * m) ∧
      (scanBlanks blank edge fuel p).1 ≤ p + 2 * m := by
  induction fuel generalizing m p with
  | zero => omega
  | succ fuel ih =>
    rw [scanBlanks]
    split
    · refine ⟨rfl, fun v hv => ?_, Nat.le_add_right p _⟩
      rw [List.mem_singleton.mp hv]
      exact ⟨le_refl p, Nat.le_add_right p _⟩
    next hnot =>
      cases m with
      | zero => simp [show edge p = true from hedge] at hnot
      | succ m =>
        rw [show p + 2 * (m + 1) = p + 2 + 2 * m by omega] at hedge ⊢
        obtain ⟨hend, hvisited, hresult⟩ := ih (by omega) hedge
        refine ⟨hend, fun v hv => ?_, hresult⟩
        rcases List.mem_cons.mp hv with rfl | hv
        · omega
        · have := hvisited v hv
          omega

theorem scanBlanks_reach {blank edge : Nat → Bool} (hblank : ∀ p, blank p = true) {m p : Nat}
    (fuel : Nat) (hm : m < fuel) (hbefore : ∀ i < m, edge (p + 2 * i) = false)
    (hedge : edge (p + 2 * m) = true) : p + 2 * m ∈ (scanBlanks blank edge fuel p).2.1 := by
  induction fuel generalizing m p with
  | zero => omega
  | succ fuel ih =>
    rw [scanBlanks, hblank]
    cases m with
    | zero =>
      rw [show edge p = true from hedge]
      exact List.mem_singleton_self _
    | succ m =>
      rw [show edge p = false from hbefore 0 (Nat.succ_pos m)]
      rw [show p + 2 * (m + 1) = p + 2 + 2 * m by omega] at hedge ⊢
      refine List.mem_cons_of_mem _ (ih (by omega) (fun i hi => ?_) hedge)
      have := hbefore (i + 1) (by omega)
      rwa [show p + 2 * (i + 1) = p + 2 + 2 * i by omega] at this

/-! ### Rows -/

variable {cols p : Nat}

theorem mod_shift {R p x : Nat} (h : p % R + x < R) : (p + x) % R = p % R + x := by
  rw [Nat.add_mod, Nat.mod_eq_of_lt (a := x) (by omega), Nat.mod_eq_of_lt h]

theorem mod_wrap {R p x : Nat} (h : p % R + x = R) : (p + x) % R = 0 := by
  have hdiv := Nat.div_add_mod p R
  rw [show p + x = R * (p / R + 1) by rw [Nat.mul_succ]; omega]
  exact Nat.mul_mod_right _ _

theorem mod_back {R p x : Nat} (h : x ≤ p % R) : (p - x) % R = p % R - x := by
  rcases Nat.eq_zero_or_pos R with rfl | hpos
  · rw [Nat.mod_zero, Nat.mod_zero]
  have hlt := Nat.mod_lt p hpos
  have hdiv := Nat.div_add_mod p R
  rw [show p - x = R * (p / R) + (p % R - x) by omega, Nat.mul_add_mod, Nat.mod_eq_of_lt (by omega)]

theorem row_mod (hcols : 0 < cols) (hp : p % 2 = 0) :
    p % (2 * cols) % 2 = 0 ∧ p % (2 * cols) + 2 ≤ 2 * cols := by
  have heven : p % (2 * cols) % 2 = 0 := by
    rw [Nat.mod_mod_of_dvd p (Nat.dvd_mul_right 2 cols), hp]
  have hlt := Nat.mod_lt p (y := 2 * cols) (by omega)
  exact ⟨heven, by omega⟩

theorem iterate_up (i p : Nat) : (fun q => q + 2)^[i] p = p + 2 * i := by
  induction i generalizing p with
  | zero => rfl
  | succ i ih => rw [Function.iterate_succ_apply, ih]; omega

theorem iterate_down (i p : Nat) : (fun q => q - 2)^[i] p = p - 2 * i := by
  induction i generalizing p with
  | zero => rfl
  | succ i ih => rw [Function.iterate_succ_apply, ih]; omega

theorem rowEnd_bounds (hcols : 0 < cols) (hp : p % 2 = 0) :
    p ≤ rowEnd (2 * cols) p ∧ rowEnd (2 * cols) p % 2 = 0 ∧
      rowEnd (2 * cols) p = p + 2 * ((2 * cols - 2 - p % (2 * cols)) / 2) := by
  obtain ⟨heven, hroom⟩ := row_mod hcols hp
  have hle := Nat.mod_le p (2 * cols)
  rw [rowEnd]
  omega

theorem rowStart_bounds (hcols : 0 < cols) (hp : p % 2 = 0) :
    rowStart (2 * cols) p ≤ p ∧ rowStart (2 * cols) p % 2 = 0 ∧
      rowStart (2 * cols) p = p - 2 * (p % (2 * cols) / 2) := by
  obtain ⟨heven, hroom⟩ := row_mod hcols hp
  have hle := Nat.mod_le p (2 * cols)
  rw [rowStart]
  omega

/-- The cells from an offset to the end of its row, and which of them is at the edge. -/
theorem right_edge (hcols : 0 < cols) (hp : p % 2 = 0) :
    (∀ i < (2 * cols - 2 - p % (2 * cols)) / 2, ((p + 2 * i + 2) % (2 * cols) == 0) = false) ∧
      ((p + 2 * ((2 * cols - 2 - p % (2 * cols)) / 2) + 2) % (2 * cols) == 0) = true := by
  obtain ⟨heven, hroom⟩ := row_mod hcols hp
  refine ⟨fun i hi => ?_, ?_⟩
  · rw [beq_eq_false_iff_ne, show p + 2 * i + 2 = p + (2 * i + 2) by omega, mod_shift (by omega)]
    omega
  · rw [beq_iff_eq, show p + 2 * ((2 * cols - 2 - p % (2 * cols)) / 2) + 2 =
      p + (2 * ((2 * cols - 2 - p % (2 * cols)) / 2) + 2) by omega]
    exact mod_wrap (by omega)

theorem left_edge (hcols : 0 < cols) (hp : p % 2 = 0) :
    (∀ i < p % (2 * cols) / 2, ((p - 2 * i) % (2 * cols) == 0) = false) ∧
      ((p - 2 * (p % (2 * cols) / 2)) % (2 * cols) == 0) = true := by
  obtain ⟨heven, hroom⟩ := row_mod hcols hp
  refine ⟨fun i hi => ?_, ?_⟩
  · rw [beq_eq_false_iff_ne, mod_back (by omega)]
    omega
  · rw [beq_iff_eq, mod_back (by omega)]
    omega

/-- **The scan to the right** ends between where it began and the end of the row. -/
theorem scanRight_spec (st : Selection) (hcols : 0 < cols) (hp : p % 2 = 0) :
    (scanRight st (2 * cols) p).2.2 = true ∧
      (∀ v ∈ (scanRight st (2 * cols) p).2.1, p ≤ v ∧ v ≤ rowEnd (2 * cols) p) ∧
      p ≤ (scanRight st (2 * cols) p).1 ∧ (scanRight st (2 * cols) p).1 ≤ rowEnd (2 * cols) p := by
  obtain ⟨hroom, -, hend⟩ := rowEnd_bounds hcols hp
  have hedge := (right_edge hcols hp).2
  rw [← iterate_up] at hedge
  obtain ⟨hended, hvisited, hresult⟩ := scanWord_path
    (wordStop st (isspace (selPos st p))) (fun p => (p + 2) % (2 * cols) == 0) (fun q => q + 2)
    (2 * cols) p (by omega) hedge
  have hpath : ∀ v, (∃ i ≤ (2 * cols - 2 - p % (2 * cols)) / 2, v = (fun q => q + 2)^[i] p) →
      p ≤ v ∧ v ≤ rowEnd (2 * cols) p := by
    rintro v ⟨i, hi, rfl⟩
    rw [iterate_up, hend]
    omega
  refine ⟨hended, fun v hv => hpath v (hvisited v hv), ?_⟩
  rcases hresult with h | h
  · exact ⟨h.ge, h.le.trans hroom⟩
  · exact hpath _ h

/-- **The scan to the left** ends between the beginning of the row and where it began. -/
theorem scanLeft_spec (st : Selection) (hcols : 0 < cols) (hp : p % 2 = 0) :
    (scanLeft st (2 * cols) p).2.2 = true ∧
      (∀ v ∈ (scanLeft st (2 * cols) p).2.1, rowStart (2 * cols) p ≤ v ∧ v ≤ p) ∧
      rowStart (2 * cols) p ≤ (scanLeft st (2 * cols) p).1 ∧ (scanLeft st (2 * cols) p).1 ≤ p := by
  obtain ⟨hroom, -, hstart⟩ := rowStart_bounds hcols hp
  have hedge := (left_edge hcols hp).2
  rw [← iterate_down] at hedge
  have hle := Nat.mod_le p (2 * cols)
  obtain ⟨hended, hvisited, hresult⟩ := scanWord_path
    (wordStop st (isspace (selPos st p))) (fun p => p % (2 * cols) == 0) (fun q => q - 2)
    (p / 2 + 1) p (by omega) hedge
  have hpath : ∀ v, (∃ i ≤ p % (2 * cols) / 2, v = (fun q => q - 2)^[i] p) →
      rowStart (2 * cols) p ≤ v ∧ v ≤ p := by
    rintro v ⟨i, hi, rfl⟩
    rw [iterate_down, hstart]
    omega
  refine ⟨hended, fun v hv => hpath v (hvisited v hv), ?_⟩
  rcases hresult with h | h
  · exact ⟨hroom.trans h.ge, h.le⟩
  · exact hpath _ h

theorem rowEnd_eq {v : Nat} (hcols : 0 < cols) (hp : p % 2 = 0) (hv : v % 2 = 0) (hlow : p ≤ v)
    (hhigh : v ≤ rowEnd (2 * cols) p) : rowEnd (2 * cols) v = rowEnd (2 * cols) p := by
  obtain ⟨heven, hroom⟩ := row_mod hcols hp
  have hle := Nat.mod_le p (2 * cols)
  rw [rowEnd] at hhigh
  have hmod : v % (2 * cols) = p % (2 * cols) + (v - p) := by
    rw [← mod_shift (by omega), Nat.add_sub_cancel' hlow]
  rw [rowEnd, rowEnd, hmod]
  omega

/-- What lies between two offsets of one row of the other console lies in that row. -/
theorem div_between {a v b R : Nat} (hlow : a ≤ v) (hhigh : v ≤ b) (h : b / R = a / R) :
    v / R = a / R :=
  le_antisymm ((Nat.div_le_div_right hhigh).trans h.le) (Nat.div_le_div_right hlow)

/-- **The scan over trailing blanks** ends between its first cell and the end of the row. -/
theorem scanBlanks_spec (blank : Nat → Bool) (hcols : 0 < cols) (hp : p % 2 = 0)
    (hinner : atedge p (2 * cols) = false) :
    let r := scanBlanks blank (atedge · (2 * cols)) (2 * cols) (p + 2)
    r.2.2 = true ∧ (∀ v ∈ r.2.1, p ≤ v ∧ v ≤ rowEnd (2 * cols) p) ∧
      r.1 ≤ rowEnd (2 * cols) p := by
  obtain ⟨heven, hroom⟩ := row_mod hcols hp
  obtain ⟨hle, -, hend⟩ := rowEnd_bounds hcols hp
  have hnot : (p + 2) % (2 * cols) ≠ 0 := by
    simp only [atedge, Bool.or_eq_false_iff, beq_eq_false_iff_ne] at hinner
    exact hinner.2
  have hroom' : p % (2 * cols) + 2 < 2 * cols :=
    lt_of_le_of_ne hroom fun h => hnot (mod_wrap h)
  have hlast := (right_edge hcols hp).2
  rw [← hend] at hlast
  have hreach : p + 2 + 2 * ((2 * cols - 2 - p % (2 * cols)) / 2 - 1) = rowEnd (2 * cols) p := by
    omega
  have hedge : atedge (p + 2 + 2 * ((2 * cols - 2 - p % (2 * cols)) / 2 - 1)) (2 * cols) = true := by
    rw [hreach, atedge, hlast, Bool.or_true]
  obtain ⟨hended, hvisited, hresult⟩ := scanBlanks_path blank (atedge · (2 * cols)) (2 * cols)
    (by omega) hedge
  rw [hreach] at hvisited hresult
  refine ⟨hended, fun v hv => ?_, hresult⟩
  have := hvisited v hv
  omega

/-! ### The functions of the source -/

theorem Within.same {st' : Selection} (h : Within G fg st)
    (hgeo : ∀ k, (st'.cons k).geo = (st.cons k).geo) (ht : st'.touched = st.touched)
    (hs : st'.scans = st.scans) : Within G fg st' :=
  ⟨⟨by rw [ht]; exact h.touched, by rw [hs]; exact h.scans⟩, fun k => (hgeo k).trans (h.geo k)⟩

theorem Within.touch (h : Within G fg st) (offsets : List Nat)
    (hin : ∀ o ∈ offsets, InWindow G (st.selCons, o)) : Within G fg (st.touch offsets) := by
  refine ⟨⟨fun t ht => ?_, h.scans⟩, h.geo⟩
  rcases List.mem_append.mp ht with ht | ht
  · exact h.touched t ht
  · obtain ⟨o, ho, rfl⟩ := List.mem_map.mp ht
    exact hin o ho

theorem Within.onCon (h : Within G fg st) (k : Nat) {f : Con → Con}
    (hgeo : ∀ s, (f s).geo = s.geo) : Within G fg (st.onCon k f) :=
  h.same (st.onCon_field k hgeo) rfl rfl

theorem inWindow_some {k o : Nat} (h : o + 2 ≤ windowSize (G k)) : InWindow G (some k, o) := by
  intro j hj
  cases hj
  exact h

theorem Within.hidePointer (h : Within G fg st) : Within G fg (LinuxConsole.hidePointer st) := by
  rw [LinuxConsole.hidePointer.eq_def]
  split
  · exact h
  · dsimp only
    split
    · exact h.onCon _ fun _ => rfl
    · refine (h.onCon _ ?_).onCon _ ?_
      · exact fun _ => rfl
      · intro s
        exact (apply_ite Con.geo _ _ _).trans (ite_self _)

theorem Within.unpoint (h : Within G fg st) : Within G fg (highlightPointer st none) :=
  h.hidePointer.same (fun _ => rfl) rfl rfl

theorem Within.highlightSel (h : Within G fg st) {k start last : Nat} (hk : st.selCons = some k)
    (hin : last + 2 ≤ windowSize (G k)) (hs : start % 2 = 0) (hl : last % 2 = 0)
    (hle : start ≤ last) : Within G fg (LinuxConsole.highlightSel d st start last) := by
  rw [LinuxConsole.highlightSel.eq_def, hk]
  refine (h.onCon k fun s => geo_invertAt ..).touch _ fun o ho => ?_
  obtain ⟨i, hi, rfl⟩ := List.mem_map.mp ho
  rw [List.mem_range] at hi
  rw [Selection.selCons_onCon, hk]
  exact inWindow_some (by omega)

theorem Prior.same {st' : Selection} (h : Prior G st) (hsame : SameEnds st st') : Prior G st' := by
  rw [Prior, hsame.selStart, hsame.selEnd, hsame.selCons]
  exact h

theorem prior_none (h : st.selStart = none) : Prior G st := by
  intro start hstart
  rw [h] at hstart
  contradiction

theorem Within.clear (h : Within G fg st) (hp : Prior G st) :
    Within G fg (clearSelection d st) := by
  have hsame := sameEnds_highlightPointer_none st
  rw [clearSelection]
  dsimp only
  split
  case h_1 => exact h.unpoint
  case h_2 start hstart =>
    obtain ⟨hs, hl, hle, k, hk, hin⟩ := hp.same hsame start hstart
    exact (h.unpoint.highlightSel hk hin hs hl hle).same (fun _ => rfl) rfl rfl

theorem Within.poke (h : Within G fg st) (hp : Prior G st) (k : Nat) (unblanks : Bool) :
    Within G fg (pokeSelection d st k unblanks) ∧ Prior G (pokeSelection d st k unblanks) := by
  rw [pokeSelection]
  split
  · exact ⟨h.clear hp, prior_none (selStart_clearSelection d st)⟩
  · exact ⟨h, hp⟩

theorem Within.take (h : Within G fg st) (hp : Prior G st) :
    Within G fg (takeSelCons d st fg) ∧ Prior G (takeSelCons d st fg) ∧
      (takeSelCons d st fg).selCons = some fg := by
  rw [takeSelCons]
  split
  case isTrue =>
    exact ⟨(h.clear hp).same (fun _ => rfl) rfl rfl, prior_none (selStart_clearSelection d st), rfl⟩
  case isFalse hsel => exact ⟨h, hp, not_not.mp hsel⟩

theorem Within.showPointer (h : Within G fg st) {k offset : Nat} (hk : st.selCons = some k)
    (hin : offset + 2 ≤ windowSize (G k)) : Within G fg (LinuxConsole.showPointer st offset) := by
  have htouch : ∀ f, (∀ s, Con.geo (f s) = s.geo) →
      Within G fg ((st.onCon k f).touch [offset]) := by
    intro f hf
    refine (h.onCon k hf).touch _ fun o ho => ?_
    rw [Selection.selCons_onCon, hk, List.mem_singleton.mp ho]
    exact inWindow_some hin
  rw [LinuxConsole.showPointer.eq_def, hk]
  dsimp only
  split
  · refine (htouch (fun s => s.scrWritew _ _) fun _ => rfl).same (fun j => ?_) rfl rfl
    exact Selection.onCon_field _ k (f := fun s => s.draw _) (g := Con.geo) (fun _ => rfl) j
  · exact (htouch (fun s => s.scrWritew _ _) fun _ => rfl).same (fun _ => rfl) rfl rfl

/-- Where trailing blanks may lead to from the end `last` of a selection. -/
def TrailStays (g : Geom) (sizeRow start last : Nat) : Prop :=
  last + 2 ≤ windowSize g ∧ (last > start ∧ atedge last sizeRow = false →
    rowEnd sizeRow last + 2 ≤ windowSize g ∧ rowEnd sizeRow last / g.sizeRow = last / g.sizeRow)

theorem atedge_rowEnd (hcols : 0 < cols) (hp : p % 2 = 0) :
    atedge (rowEnd (2 * cols) p) (2 * cols) = true := by
  have hlast := (right_edge hcols hp).2
  rw [← (rowEnd_bounds hcols hp).2.2] at hlast
  rw [atedge, hlast, Bool.or_true]

/-- **The ends of the selection** stay on the screen, under the condition. -/
theorem Within.selectEnds {gv : Geom} (hrow : gv.sizeRow = 2 * cols) (hcols : 0 < cols)
    (h : Within G fg st) (hfg : st.selCons = some fg) {ps pe : Nat} (hps : ps % 2 = 0)
    (hpe : pe % 2 = 0) (hle : ps ≤ pe) (mode : SelMode) (hstays : Stays gv (G fg) ps pe mode) :
    Within G fg (LinuxConsole.selectEnds st (2 * cols) ps pe mode).1 ∧
      ∀ start last, (LinuxConsole.selectEnds st (2 * cols) ps pe mode).2 = some (start, last) →
        TrailStays (G fg) (2 * cols) start last := by
  rw [Stays.eq_def, hrow] at hstays
  obtain ⟨hroom, heven, -⟩ := rowEnd_bounds hcols hpe
  cases mode with
  | char =>
    refine ⟨h, fun start last heq => ?_⟩
    cases heq
    dsimp only at hstays
    split at hstays
    next htrail => exact ⟨by omega, fun _ => hstays⟩
    next hnot => exact ⟨hstays, fun htrail => absurd htrail hnot⟩
  | word =>
    obtain ⟨hwin, hleft, hright⟩ := hstays
    obtain ⟨hlend, hlvis, hlow, hlps⟩ := scanLeft_spec st hcols hps
    obtain ⟨hrend, hrvis, hrpe, hhigh⟩ := scanRight_spec st hcols hpe
    have hscans : ∀ sc ∈ [Scan.mk ps (scanLeft st (2 * cols) ps).2.1 (scanLeft st (2 * cols) ps).2.2,
        ⟨pe, (scanRight st (2 * cols) pe).2.1, (scanRight st (2 * cols) pe).2.2⟩],
        InRow (G fg) sc := by
      intro sc hsc
      rcases List.mem_cons.mp hsc with rfl | hsc
      · refine ⟨hlend, fun v hv => ?_⟩
        obtain ⟨hv1, hv2⟩ := hlvis v hv
        exact (div_between hv1 hv2 hleft.symm).trans hleft
      · rw [List.mem_singleton.mp hsc]
        refine ⟨hrend, fun v hv => ?_⟩
        obtain ⟨hv1, hv2⟩ := hrvis v hv
        exact div_between hv1 hv2 hright
    have htouched : ∀ o ∈ (scanLeft st (2 * cols) ps).2.1 ++ (scanRight st (2 * cols) pe).2.1,
        InWindow G (st.selCons, o) := by
      intro o ho
      rw [hfg]
      rcases List.mem_append.mp ho with ho | ho
      · have := hlvis o ho
        exact inWindow_some (by omega)
      · have := hrvis o ho
        exact inWindow_some (by omega)
    have hw := h.touch _ htouched
    refine ⟨⟨⟨hw.touched, fun sc hsc => ?_⟩, hw.geo⟩, fun start last heq => ?_⟩
    · rcases List.mem_append.mp hsc with hsc | hsc
      · exact h.scans sc hsc
      · exact hscans sc hsc
    · cases heq
      have hreven : (scanRight st (2 * cols) pe).1 % 2 = 0 := (scanWord_forth (wordStop st (isspace (selPos st pe)))
        (fun p => (p + 2) % (2 * cols) == 0) (2 * cols) hpe hpe (le_refl pe)).1
      have hsame := rowEnd_eq hcols hpe hreven hrpe hhigh
      refine ⟨by omega, fun _ => ?_⟩
      rw [hsame]
      exact ⟨hwin, hright.trans (div_between hrpe hhigh hright).symm⟩
  | line =>
    refine ⟨h, fun start last heq => ?_⟩
    have hlast : last = rowEnd (2 * cols) pe := by
      cases heq
      have := Nat.mod_le pe (2 * cols)
      rw [rowEnd]
      omega
    rw [hlast]
    refine ⟨hstays, fun htrail => ?_⟩
    rw [atedge_rowEnd hcols hpe] at htrail
    exact absurd htrail.2 Bool.true_eq_false_eq_False
  | pointer => exact ⟨h, fun start last heq => by contradiction⟩
  | clear => exact ⟨h, fun start last heq => by contradiction⟩
  | mouseReport button => exact ⟨h, fun start last heq => by contradiction⟩
  | other => exact ⟨h, fun start last heq => by contradiction⟩

/-- **Trailing blanks** are followed within the row. -/
theorem Within.selectTrailing (hcols : 0 < cols) (h : Within G fg st) (hfg : st.selCons = some fg)
    {start last : Nat} (hl : last % 2 = 0) (hstays : TrailStays (G fg) (2 * cols) start last) :
    Within G fg (LinuxConsole.selectTrailing st (2 * cols) start last).1 ∧
      (LinuxConsole.selectTrailing st (2 * cols) start last).2 + 2 ≤ windowSize (G fg) := by
  obtain ⟨hlast, htrail⟩ := hstays
  rw [LinuxConsole.selectTrailing]
  split
  next hinner =>
    obtain ⟨hwin, hsame⟩ := htrail hinner
    have hfirst : Within G fg (st.touch [last]) := h.touch _ fun o ho => by
      rw [hfg, List.mem_singleton.mp ho]
      exact inWindow_some hlast
    dsimp only
    split
    · obtain ⟨hended, hvisited, hresult⟩ := scanBlanks_spec
        (fun p => isspace (selPos (st.touch [last]) p)) hcols hl hinner.2
      generalize hr : scanBlanks (fun p => isspace (selPos (st.touch [last]) p))
        (atedge · (2 * cols)) (2 * cols) (last + 2) = r at hended hvisited hresult
      have hw := hfirst.touch (r.2.1 ++ [r.1]) fun o ho => by
        rw [Selection.selCons_touch, hfg]
        rcases List.mem_append.mp ho with ho | ho
        · have := hvisited o ho
          exact inWindow_some (by omega)
        · rw [List.mem_singleton.mp ho]
          exact inWindow_some (by omega)
      refine ⟨⟨⟨hw.touched, fun sc hsc => ?_⟩, hw.geo⟩, ?_⟩
      · rcases List.mem_append.mp hsc with hsc | hsc
        · exact h.scans sc hsc
        · rw [List.mem_singleton.mp hsc]
          refine ⟨hended, fun v hv => ?_⟩
          obtain ⟨hv1, hv2⟩ := hvisited v hv
          exact div_between hv1 hv2 hsame
      · dsimp only
        split
        · omega
        · exact hlast
    · exact ⟨hfirst, hlast⟩
  · exact ⟨h, hlast⟩

/-- The highlight is moved between cells of the old selection and the new one. -/
theorem Within.moveHighlight (h : Within G fg st) (hp : Prior G st) (hfg : st.selCons = some fg)
    {start last : Nat} (hs : start % 2 = 0) (hl : last % 2 = 0) (hle : start ≤ last)
    (hin : last + 2 ≤ windowSize (G fg)) (hmoves : ¬(st.selStart = some start ∧ last = st.selEnd)) :
    Within G fg (LinuxConsole.moveHighlight d st start last) := by
  rw [LinuxConsole.moveHighlight.eq_def]
  split
  case h_1 => exact h.highlightSel hfg hin hs hl hle
  case h_2 start0 hstart0 =>
    obtain ⟨hs0, hl0, hle0, k, hk, hin0⟩ := hp start0 hstart0
    obtain rfl : fg = k := Option.some.inj (hfg.symm.trans hk)
    split
    next heq =>
      have hne : last ≠ st.selEnd := fun he => hmoves ⟨by rw [heq]; exact hstart0, he⟩
      split
      · exact h.highlightSel hfg hin (by omega) hl (by omega)
      · exact h.highlightSel hfg hin0 (by omega) hl0 (by omega)
    split
    · split
      · exact h.highlightSel hfg (by omega) hs (by omega) (by omega)
      · exact h.highlightSel hfg (by omega) hs0 (by omega) (by omega)
    · exact (h.clear hp).highlightSel ((selCons_clearSelection d st).trans hfg) hin hs hl hle

/-- **The end of a call**: the new selection lies on the screen, and only it is copied. -/
theorem Within.finish (h : Within G fg st) (hp : Prior G st) (hfg : st.selCons = some fg)
    {start last : Nat} (hs : start % 2 = 0) (hl : last % 2 = 0) (hle : start ≤ last)
    (hin : last + 2 ≤ windowSize (G fg)) (sizeRow : Nat) (alloc : Bool) :
    Within G fg (finishSelection d st sizeRow start last alloc).1 ∧
      Prior G (finishSelection d st sizeRow start last alloc).1 := by
  rw [finishSelection]
  split
  · exact ⟨h, hp⟩
  next hmoves =>
    have hmoved := h.moveHighlight hp hfg hs hl hle hin hmoves (d := d)
    have hcons := (selCons_moveHighlight d st start last).trans hfg
    have hnew : Within G fg { LinuxConsole.moveHighlight d st start last with
        selStart := some start, selEnd := last } := hmoved.same (fun _ => rfl) rfl rfl
    have hprior : Prior G { LinuxConsole.moveHighlight d st start last with
        selStart := some start, selEnd := last } := by
      intro start' hstart'
      cases hstart'
      exact ⟨hs, hl, hle, fg, hcons, hin⟩
    dsimp only
    split
    · exact ⟨hnew.clear hprior, prior_none (selStart_clearSelection d _)⟩
    · refine ⟨(hnew.touch _ fun o ho => ?_).same (fun _ => rfl) rfl rfl, hprior⟩
      obtain ⟨i, hi, rfl⟩ := List.mem_map.mp ho
      rw [List.mem_range, selLength] at hi
      rw [show Selection.selCons { LinuxConsole.moveHighlight d st start last with
        selStart := some start, selEnd := last } = some fg from hcons]
      exact inWindow_some (by omega)

/-- **A call past its coordinates**, under the condition. -/
theorem Within.selectRange {gv : Geom} (hrow : gv.sizeRow = 2 * cols) (hcols : 0 < cols)
    (h : Within G fg st) (hp : Prior G st) {ps pe : Nat} (hps : ps % 2 = 0) (hpe : pe % 2 = 0)
    (hle : ps ≤ pe) (mode : SelMode) (hstays : Stays gv (G fg) ps pe mode) (alloc : Bool) :
    Within G fg (LinuxConsole.selectRange d st fg (2 * cols) ps pe mode alloc).1 ∧
      Prior G (LinuxConsole.selectRange d st fg (2 * cols) ps pe mode alloc).1 := by
  obtain ⟨htake, hprior, hfg⟩ := h.take hp (d := d)
  rw [LinuxConsole.selectRange]
  dsimp only
  split
  next hmode =>
    rw [hmode] at hstays
    have hhide := sameEnds_hidePointer (takeSelCons d st fg)
    have hshow := sameEnds_showPointer (LinuxConsole.hidePointer (takeSelCons d st fg)) pe
    exact ⟨htake.hidePointer.showPointer (hhide.selCons.trans hfg) hstays,
      (hprior.same hhide).same hshow⟩
  obtain ⟨hbare, hends⟩ := selectEnds_spec (takeSelCons d st fg) (Nat.mul_mod_right 2 cols)
    (by omega) hps hpe hle mode
  obtain ⟨hin, htrail⟩ := htake.selectEnds hrow hcols hfg hps hpe hle mode hstays
  split
  case h_1 st' heq =>
    rw [heq] at hbare hin
    exact ⟨hin, hprior.same (bare_eq hbare).2.2⟩
  case h_2 st' start last heq =>
    rw [heq] at hbare hends hin htrail
    obtain ⟨hs, hl, hsl⟩ := hends start last rfl
    have hsame := (bare_eq hbare).2.2
    have hclean := sameEnds_highlightPointer_none st'
    have hcons := hclean.selCons.trans (hsame.selCons.trans hfg)
    obtain ⟨hw, hwin⟩ := hin.unpoint.selectTrailing hcols hcons hl (htrail start last rfl)
    obtain ⟨hbare', heven, hfar⟩ :=
      selectTrailing_spec (highlightPointer st' none) (2 * cols) start hl
    have hsame' := (bare_eq hbare').2.2
    exact hw.finish (((hprior.same hsame).same hclean).same hsame') (hsame'.selCons.trans hcons) hs
      heven (hsl.trans hfar) hwin (2 * cols) alloc

/-! ### A blank screen -/

/-- The same console, blank. -/
def blankCon (s : Con) : Con :=
  { s with mem := fun _ => 0x20#16, uni := none, rend := { s.rend with hiFontMask := 0 } }

/-- Nothing selected on blank consoles. -/
def blankSelection (st : Selection) : Selection :=
  bootSelection (fun k => blankCon (st.cons k)) st.visibleOrigin

theorem screenGlyph_blank (v : View) (s : Con) (n : Nat) : screenGlyph v (blankCon s) n = 0x20 := by
  change (0x20#16 &&& 0xff#16).toNat ||| (if 0x20#16 &&& 0#16 ≠ 0 then 0x100 else 0) = 0x20
  decide

theorem selPos_blank (h : st.cons = (blankSelection st₀).cons) (hfg : st.selCons = some fg)
    (n : Nat) : selPos st n = 0x20 := by
  rw [selPos, hfg]
  dsimp only
  rw [h]
  change inverseTranslate (blankCon (st₀.cons fg)) (screenGlyph _ (blankCon (st₀.cons fg)) n) = 0x20
  rw [screenGlyph_blank]
  rfl

/-- Nothing recorded is lost. -/
def Extends (st st' : Selection) : Prop := st.touched ⊆ st'.touched ∧ st.scans ⊆ st'.scans

theorem Extends.trans {st' st'' : Selection} (h : Extends st st') (h' : Extends st' st'') :
    Extends st st'' := 
  ⟨List.Subset.trans h.1 h'.1, List.Subset.trans h.2 h'.2⟩

theorem extends_of_eq {st' : Selection} (ht : st'.touched = st.touched)
    (hs : st'.scans = st.scans) : Extends st st' :=
  ⟨by rw [ht]; exact List.Subset.refl _, by rw [hs]; exact List.Subset.refl _⟩

theorem extends_touch (st : Selection) (offsets : List Nat) : Extends st (st.touch offsets) :=
  ⟨List.subset_append_left _ _, List.Subset.refl _⟩

theorem extends_unpoint (st : Selection) : Extends st (highlightPointer st none) := by
  rw [highlightPointer, hidePointer.eq_def]
  split
  · exact extends_of_eq rfl rfl
  · dsimp only
    split
    · exact extends_of_eq rfl rfl
    · exact extends_of_eq rfl rfl

theorem extends_highlightSel (st : Selection) (start last : Nat) :
    Extends st (highlightSel d st start last) := by
  rw [highlightSel.eq_def]
  split
  · exact extends_of_eq rfl rfl
  · exact extends_touch _ _

theorem extends_selectTrailing (st : Selection) (sizeRow start last : Nat) :
    Extends st (selectTrailing st sizeRow start last).1 := by
  rw [selectTrailing]
  split
  · dsimp only
    split
    · exact (extends_touch st [last]).trans
        ⟨(extends_touch _ _).1, List.subset_append_left _ _⟩
    · exact extends_touch st [last]
  · exact extends_of_eq rfl rfl

/-- With nothing selected before, a call that gets its buffer copies the last cell. -/
theorem finish_touches (hnone : st.selStart = none) (hfg : st.selCons = some fg) {start last : Nat}
    (hs : start % 2 = 0) (hl : last % 2 = 0) (hle : start ≤ last) (sizeRow : Nat) :
    Extends st (finishSelection d st sizeRow start last true).1 ∧
      (some fg, last) ∈ (finishSelection d st sizeRow start last true).1.touched := by
  have hmoves : ¬(st.selStart = some start ∧ last = st.selEnd) := by
    rw [hnone]
    exact fun h => by cases h.1
  rw [finishSelection, if_neg hmoves, moveHighlight, hnone]
  dsimp only
  rw [if_neg (by decide)]
  refine ⟨(extends_highlightSel st start last (d := d)).trans ?_, ?_⟩
  · exact (extends_of_eq rfl rfl).trans (extends_touch _ _)
  · have hcons := (sameEnds_highlightSel (d := d) st start last).selCons.trans hfg
    refine List.mem_append_right _ (List.mem_map.mpr ⟨last, List.mem_map.mpr ?_, ?_⟩)
    · refine ⟨(last - start) / 2, ?_, by omega⟩
      rw [List.mem_range, selLength]
      omega
    · exact congrArg (·, last) hcons

/-! ### The calls -/

/-- The offsets of a request on the tty's console, the lower one first. -/
def requestRange (g : Geom) (sel : TioclSelection) : Nat × Nat :=
  let ps := clampCoord sel.ys g.rows * g.sizeRow + 2 * clampCoord sel.xs g.cols
  let pe := clampCoord sel.ye g.rows * g.sizeRow + 2 * clampCoord sel.xe g.cols
  (min ps pe, max ps pe)

theorem requestRange_spec {g : Geom} (hrow : g.sizeRow = 2 * cols) (sel : TioclSelection) :
    (requestRange g sel).1 % 2 = 0 ∧ (requestRange g sel).2 % 2 = 0 ∧
      (requestRange g sel).1 ≤ (requestRange g sel).2 := by
  have heven : ∀ y x, (y * g.sizeRow + 2 * x) % 2 = 0 := by
    intro y x
    rw [hrow, show y * (2 * cols) = 2 * (y * cols) by ring]
    omega
  refine ⟨?_, ?_, min_le_max⟩
  · rcases min_choice (clampCoord sel.ys g.rows * g.sizeRow + 2 * clampCoord sel.xs g.cols)
      (clampCoord sel.ye g.rows * g.sizeRow + 2 * clampCoord sel.xe g.cols) with h | h
    · exact (congrArg (· % 2) h).trans (heven _ _)
    · exact (congrArg (· % 2) h).trans (heven _ _)
  · rcases max_choice (clampCoord sel.ys g.rows * g.sizeRow + 2 * clampCoord sel.xs g.cols)
      (clampCoord sel.ye g.rows * g.sizeRow + 2 * clampCoord sel.xe g.cols) with h | h
    · exact (congrArg (· % 2) h).trans (heven _ _)
    · exact (congrArg (· % 2) h).trans (heven _ _)

/-- Whole rows on every console. -/
def Whole (G : Nat → Geom) : Prop := ∀ k, (G k).sizeRow = 2 * (G k).cols ∧ 0 < (G k).cols

/-- **A call**, under the condition, leaves the next one what it needs. -/
theorem Within.setSelection (hG : Whole G) (h : Within G fg st) (hp : Prior G st) (vc : Nat)
    (sel : TioclSelection) (hstays : Stays (G vc) (G fg) (requestRange (G vc) sel).1
      (requestRange (G vc) sel).2 sel.selMode) (unblanks alloc : Bool) :
    Within G fg (LinuxConsole.setSelection d st vc fg (some sel) unblanks alloc).1 ∧
      Prior G (LinuxConsole.setSelection d st vc fg (some sel) unblanks alloc).1 := by
  obtain ⟨hw, hprior⟩ := h.poke hp fg unblanks (d := d)
  have hgeo := hw.geo vc
  obtain ⟨hrow, hcols⟩ := hG vc
  obtain ⟨hps, hpe, hle⟩ := requestRange_spec hrow sel
  have hrange := hw.selectRange hrow hcols hprior hps hpe hle sel.selMode hstays alloc (d := d)
  rw [← hrow, ← hgeo] at hrange
  rw [LinuxConsole.setSelection.eq_def]
  dsimp only
  split
  · exact ⟨hw.clear hprior, prior_none (selStart_clearSelection d _)⟩
  next button hmode =>
    split
    · exact ⟨hw.onCon vc (f := fun s => mouseReport s button _ _) fun _ => rfl, hprior⟩
    · rw [hmode] at hrange
      exact hrange
  · exact hrange

theorem setSelection_range (st : Selection) (vc : Nat) (sel : TioclSelection) (alloc : Bool)
    (hmode : sel.selMode ∈ [SelMode.char, .word, .line, .pointer]) :
    setSelection d st vc fg (some sel) false alloc =
      selectRange d st fg (st.cons vc).geo.sizeRow (requestRange (st.cons vc).geo sel).1
        (requestRange (st.cons vc).geo sel).2 sel.selMode alloc := by
  have hpoke : pokeSelection d st fg false = st := if_neg (by simp)
  rw [setSelection.eq_def]
  dsimp only
  rw [hpoke]
  split
  next h => rw [h] at hmode; simp at hmode
  next h => rw [h] at hmode; simp at hmode
  next => rfl

theorem takeSelCons_blank :
    takeSelCons d (blankSelection st₀) fg = { blankSelection st₀ with selCons := some fg } :=
  if_pos (Option.some_ne_none fg).symm

theorem showPointer_touches {k : Nat} (hk : st.selCons = some k) (offset : Nat) :
    (some k, offset) ∈ (showPointer st offset).touched := by
  rw [showPointer, hk]
  dsimp only
  have hlast : (some k, offset) ∈ st.touched ++ [offset].map (st.selCons, ·) := by
    rw [hk]
    exact List.mem_append_right _ (List.mem_singleton_self _)
  split
  · exact hlast
  · exact hlast

theorem scans_blank (hcons : st.cons = (blankSelection st₀).cons) (hfg : st.selCons = some fg)
    (hcols : 0 < cols) (hp : p % 2 = 0) :
    rowStart (2 * cols) p ∈ (scanLeft st (2 * cols) p).2.1 ∧
      rowEnd (2 * cols) p ∈ (scanRight st (2 * cols) p).2.1 := by
  have hstop : ∀ q, wordStop st (isspace (selPos st p)) q = false := by
    intro q
    rw [selPos_blank hcons hfg, wordStop, selPos_blank hcons hfg]
    rfl
  constructor
  · obtain ⟨hbefore, hedge⟩ := left_edge hcols hp
    have hle := Nat.mod_le p (2 * cols)
    simp only [← iterate_down] at hbefore hedge
    have hreach := scanWord_reach (m := p % (2 * cols) / 2)
      (fun q => q % (2 * cols) == 0) (fun q => q - 2) hstop (p / 2 + 1) p (by omega) hbefore hedge
    rwa [iterate_down, ← (rowStart_bounds hcols hp).2.2] at hreach
  · obtain ⟨hbefore, hedge⟩ := right_edge hcols hp
    have hroom := row_mod hcols hp
    simp only [← iterate_up] at hbefore hedge
    have hreach := scanWord_reach (m := (2 * cols - 2 - p % (2 * cols)) / 2)
      (fun q => (q + 2) % (2 * cols) == 0) (fun q => q + 2) hstop (2 * cols) p (by omega) hbefore hedge
    rwa [iterate_up, ← (rowEnd_bounds hcols hp).2.2] at hreach

theorem trailing_blank (hcons : st.cons = (blankSelection st₀).cons) (hfg : st.selCons = some fg)
    (hcols : 0 < cols) {start last : Nat} (hl : last % 2 = 0)
    (hinner : last > start ∧ atedge last (2 * cols) = false) :
    (some fg, rowEnd (2 * cols) last) ∈ (selectTrailing st (2 * cols) start last).1.touched ∧
      ∃ sc ∈ (selectTrailing st (2 * cols) start last).1.scans,
        sc.start = last ∧ rowEnd (2 * cols) last ∈ sc.visited := by
  obtain ⟨heven, hroom⟩ := row_mod hcols hl
  obtain ⟨hle, -, hend⟩ := rowEnd_bounds hcols hl
  obtain ⟨hbefore, hedge⟩ := right_edge hcols hl
  rw [← hend] at hedge
  have hne : last % (2 * cols) ≠ 0 ∧ (last + 2) % (2 * cols) ≠ 0 := by
    have h := hinner.2
    simp only [atedge, Bool.or_eq_false_iff, beq_eq_false_iff_ne] at h
    exact h
  have hroom' : last % (2 * cols) + 2 < 2 * cols :=
    lt_of_le_of_ne hroom fun h => hne.2 (mod_wrap h)
  have hblank : ∀ q, isspace (selPos (st.touch [last]) q) = true := by
    intro q
    have hpos : selPos (st.touch [last]) q = 0x20 := selPos_blank hcons hfg q
    rw [hpos]
    rfl
  have hreach : rowEnd (2 * cols) last ∈ (scanBlanks (fun q => isspace (selPos (st.touch [last]) q))
      (atedge · (2 * cols)) (2 * cols) (last + 2)).2.1 := by
    have hnum : last + 2 + 2 * ((2 * cols - 2 - last % (2 * cols)) / 2 - 1) =
        rowEnd (2 * cols) last := by omega
    rw [← hnum]
    refine scanBlanks_reach hblank (2 * cols) (by omega) (fun i hi => ?_) ?_
    · have hmod : (last + (2 + 2 * i)) % (2 * cols) = last % (2 * cols) + (2 + 2 * i) :=
        mod_shift (by omega)
      have hnext := hbefore (i + 1) (by omega)
      rw [atedge, Bool.or_eq_false_iff]
      refine ⟨?_, by rwa [show last + 2 + 2 * i + 2 = last + 2 * (i + 1) + 2 by omega]⟩
      rw [beq_eq_false_iff_ne, show last + 2 + 2 * i = last + (2 + 2 * i) by omega, hmod]
      omega
    · rw [hnum, atedge, hedge, Bool.or_true]
  rw [selectTrailing, if_pos hinner]
  dsimp only
  rw [if_pos (hblank last)]
  refine ⟨?_, _, List.mem_append_right _ (List.mem_singleton_self _), rfl, hreach⟩
  refine List.mem_append_right _ (List.mem_map.mpr ⟨_, List.mem_append_left _ hreach, ?_⟩)
  exact congrArg (·, rowEnd (2 * cols) last) hfg

theorem call_records (hnone : st.selStart = none) (hfg : st.selCons = some fg) {start last : Nat}
    (hs : start % 2 = 0) (hl : last % 2 = 0) (hle : start ≤ last) (sizeRow : Nat) :
    let r := selectTrailing (highlightPointer st none) sizeRow start last
    let st' := (finishSelection d r.1 sizeRow start r.2 true).1
    Extends st st' ∧ Extends r.1 st' ∧ (some fg, r.2) ∈ st'.touched := by
  have hclean := sameEnds_highlightPointer_none st
  obtain ⟨hbare, heven, hfar⟩ := selectTrailing_spec (highlightPointer st none) sizeRow start hl
  have hsame := (bare_eq hbare).2.2
  obtain ⟨hext, hmem⟩ := finish_touches (d := d)
    (hsame.selStart.trans (hclean.selStart.trans hnone))
    (hsame.selCons.trans (hclean.selCons.trans hfg)) hs heven (hle.trans hfar) sizeRow
  exact ⟨(extends_unpoint st).trans ((extends_selectTrailing _ _ _ _).trans hext), hext, hmem⟩

/-- **On blank screens a request reaches as far as it can**, so the condition is needed. -/
theorem stays_of_blank {gv : Geom} (hrow : gv.sizeRow = 2 * cols) (hcols : 0 < cols) {ps pe : Nat}
    (hps : ps % 2 = 0) (hpe : pe % 2 = 0) (hle : ps ≤ pe) {mode : SelMode}
    (hmode : mode ∈ [SelMode.char, .word, .line, .pointer])
    (h : Confined G fg (selectRange d (blankSelection st₀) fg (2 * cols) ps pe mode true).1) :
    Stays gv (G fg) ps pe mode := by
  rw [selectRange, takeSelCons_blank] at h
  generalize hb : ({ blankSelection st₀ with selCons := some fg } : Selection) = b at h
  have hcons : b.cons = (blankSelection st₀).cons := by rw [← hb]
  have hfg : b.selCons = some fg := by rw [← hb]
  have hnone : b.selStart = none := by rw [← hb]; rfl
  have hunpointed : hidePointer b = b := by rw [← hb]; rfl
  have hclean : (highlightPointer b none).cons = (blankSelection st₀).cons := by
    rw [highlightPointer, hunpointed]
    exact hcons
  have hcleanfg : (highlightPointer b none).selCons = some fg :=
    (sameEnds_highlightPointer_none b).selCons.trans hfg
  obtain ⟨hroom, heven, -⟩ := rowEnd_bounds hcols hpe
  rw [Stays.eq_def, hrow]
  simp only [List.mem_cons, List.not_mem_nil, or_false] at hmode
  rcases hmode with rfl | rfl | rfl | rfl
  · obtain ⟨-, hext, hlast⟩ := call_records (d := d) hnone hfg hps hpe hle (2 * cols)
    dsimp only
    split
    next hinner =>
      obtain ⟨hmem, sc, hsc, hstart, hvis⟩ := trailing_blank hclean hcleanfg hcols hpe hinner
      have hrow := (h.scans sc (hext.2 hsc)).2 _ hvis
      rw [hstart] at hrow
      exact ⟨h.touched _ (hext.1 hmem) fg rfl, hrow⟩
    next hinner =>
      have hkeeps : (selectTrailing (highlightPointer b none) (2 * cols) ps pe).2 = pe := by
        rw [selectTrailing, if_neg hinner]
      have hwin := h.touched _ hlast fg rfl
      rwa [hkeeps] at hwin
  · obtain ⟨hbare, hends⟩ := selectEnds_spec b (Nat.mul_mod_right 2 cols) (by omega) hps hpe hle .word
    obtain ⟨hs, hl, hsl⟩ := hends _ _ rfl
    have hsame := (bare_eq hbare).2.2
    obtain ⟨hext, -, -⟩ := call_records (d := d) (hsame.selStart.trans hnone)
      (hsame.selCons.trans hfg) hs hl hsl (2 * cols)
    have hleft := (scans_blank hcons hfg hcols hps).1
    have hright := (scans_blank hcons hfg hcols hpe).2
    have htouched := hext.1 (List.mem_append_right b.touched
      (List.mem_map_of_mem (f := (b.selCons, ·)) (List.mem_append_right _ hright)))
    have hscan1 := hext.2 (List.mem_append_right b.scans List.mem_cons_self)
    have hscan2 := hext.2 (List.mem_append_right b.scans
      (List.mem_cons_of_mem _ (List.mem_singleton_self _)))
    exact ⟨h.touched _ htouched fg hfg, (h.scans _ hscan1).2 _ hleft, (h.scans _ hscan2).2 _ hright⟩
  · have hline : pe + 2 * cols - pe % (2 * cols) - 2 = rowEnd (2 * cols) pe := by
      have := Nat.mod_le pe (2 * cols)
      rw [rowEnd]
      omega
    have hstart := rowStart_bounds hcols hps
    rw [rowStart] at hstart
    obtain ⟨-, -, hlast⟩ := call_records (d := d) hnone hfg hstart.2.1 heven (hstart.1.trans (hle.trans hroom)) (2 * cols)
    have hkeeps : (selectTrailing (highlightPointer b none) (2 * cols) (ps - ps % (2 * cols))
        (rowEnd (2 * cols) pe)).2 = rowEnd (2 * cols) pe := by
      rw [selectTrailing, if_neg]
      rintro ⟨-, hedge⟩
      rw [atedge_rowEnd hcols hpe] at hedge
      contradiction
    rw [if_neg (by decide), selectEnds] at h
    dsimp only at h
    rw [hline] at h
    have hwin := h.touched _ hlast fg rfl
    rwa [hkeeps] at hwin
  · rw [if_pos rfl, highlightPointer, hunpointed] at h
    exact h.touched _ (showPointer_touches hfg pe) fg rfl

/-- **The exact condition.**  Whatever the screens hold and whatever lies on its console from the
call before, a request touches only cells of the windows they are on, and its scans end in the rows
they began in, if and only if the sizes of the tty's console and of the console in front are such
that it `Stays`. -/
theorem selection_on_screen_iff (d : Nat → Driver) (st₀ : Selection)
    (hwhole : Whole fun k => (st₀.cons k).geo) (vc fg : Nat) (sel : TioclSelection) :
    let G := fun k => (st₀.cons k).geo
    (∀ st unblanks alloc, (∀ k, (st.cons k).geo = G k) → st.touched = [] → st.scans = [] →
      Prior G st → Confined G fg (setSelection d st vc fg (some sel) unblanks alloc).1) ↔
    Stays (G vc) (G fg) (requestRange (G vc) sel).1 (requestRange (G vc) sel).2 sel.selMode := by
  intro G
  constructor
  · intro h
    by_cases hmode : sel.selMode ∈ [SelMode.char, .word, .line, .pointer]
    · obtain ⟨hrow, hcols⟩ := hwhole vc
      obtain ⟨hps, hpe, hle⟩ := requestRange_spec hrow sel
      have hblank := h (blankSelection st₀) false true (fun _ => rfl) rfl rfl (prior_none rfl)
      rw [setSelection_range _ _ _ _ hmode] at hblank
      have hgeo : ((blankSelection st₀).cons vc).geo = G vc := rfl
      rw [hgeo, show (G vc).sizeRow = 2 * (G vc).cols from hrow] at hblank
      exact stays_of_blank hrow hcols hps hpe hle hmode hblank
    · rw [Stays.eq_def]
      cases hm : sel.selMode with
      | char => simp [hm] at hmode
      | word => simp [hm] at hmode
      | line => simp [hm] at hmode
      | pointer => simp [hm] at hmode
      | clear => trivial
      | mouseReport button => trivial
      | other => trivial
  · intro hstays st unblanks alloc hgeo htouched hscans hp
    have hw : Within G fg st := by
      refine ⟨⟨?_, ?_⟩, hgeo⟩
      · rw [htouched]
        exact fun t ht => absurd ht (List.not_mem_nil)
      · rw [hscans]
        exact fun sc hsc => absurd hsc (List.not_mem_nil)
    exact (hw.setSelection hwhole hp vc sel hstays unblanks alloc).1.toConfined

/-! ### Equal sizes and others -/

theorem clampCoord_lt {n : Nat} (hpos : 0 < n) (hn : n < 2 ^ 16) (v : BitVec 16) :
    clampCoord v n < n := by
  have hlast : (BitVec.ofNat 16 n - 1).toNat = n - 1 := by
    have hone : (1 : BitVec 16).toNat = 1 := rfl
    rw [BitVec.toNat_sub, hone, BitVec.toNat_ofNat, Nat.mod_eq_of_lt hn]
    omega
  rw [clampCoord, limit]
  split
  · rw [hlast]
    omega
  next h =>
    have hle : (v - 1).toNat ≤ (BitVec.ofNat 16 n - 1).toNat := BitVec.not_lt.mp h
    rw [hlast] at hle
    omega

/-- **With rows of one length, and at least as many of them in front, every request stays.** -/
theorem stays_of_same_width {gv gf : Geom} (hrow : gv.sizeRow = 2 * gv.cols) (hcols : 0 < gv.cols)
    (hcols' : gv.cols < 2 ^ 16) (hrows : 0 < gv.rows) (hrows' : gv.rows < 2 ^ 16)
    (hwidth : gf.sizeRow = gv.sizeRow) (hheight : gv.rows ≤ gf.rows) (sel : TioclSelection) :
    Stays gv gf (requestRange gv sel).1 (requestRange gv sel).2 sel.selMode := by
  obtain ⟨hps, hpe, hle⟩ := requestRange_spec hrow sel
  have hoffset : ∀ y x, y < gv.rows → x < gv.cols →
      rowEnd gv.sizeRow (y * gv.sizeRow + 2 * x) + 2 ≤ windowSize gf := by
    intro y x hy hx
    have hmod : (y * gv.sizeRow + 2 * x) % gv.sizeRow = 2 * x := by
      rw [Nat.mul_comm, Nat.mul_add_mod, Nat.mod_eq_of_lt (by omega)]
    have hwin : (y + 1) * gv.sizeRow ≤ windowSize gf := by
      rw [windowSize, hwidth]
      exact Nat.mul_le_mul_right _ (by omega)
    rw [Nat.succ_mul] at hwin
    rw [rowEnd, hmod]
    omega
  have hend : rowEnd gv.sizeRow (requestRange gv sel).2 + 2 ≤ windowSize gf := by
    have hys := clampCoord_lt hrows hrows' sel.ys
    have hye := clampCoord_lt hrows hrows' sel.ye
    have hxs := clampCoord_lt hcols hcols' sel.xs
    have hxe := clampCoord_lt hcols hcols' sel.xe
    rw [requestRange]
    dsimp only
    rcases max_choice (clampCoord sel.ys gv.rows * gv.sizeRow + 2 * clampCoord sel.xs gv.cols)
      (clampCoord sel.ye gv.rows * gv.sizeRow + 2 * clampCoord sel.xe gv.cols) with h | h
    · rw [h]
      exact hoffset _ _ hys hxs
    · rw [h]
      exact hoffset _ _ hye hxe
  generalize (requestRange gv sel).1 = ps at hps hle
  generalize (requestRange gv sel).2 = pe at hpe hle hend
  rw [hrow] at hend hwidth
  obtain ⟨hroom, -, -⟩ := rowEnd_bounds hcols hpe
  have hright : rowEnd (2 * gv.cols) pe / (2 * gv.cols) = pe / (2 * gv.cols) := by
    have hdiv := Nat.div_add_mod' pe (2 * gv.cols)
    have hnext := Nat.add_one_mul (pe / (2 * gv.cols)) (2 * gv.cols)
    have hmod := (row_mod hcols hpe).2
    refine Nat.div_eq_of_lt_le ?_ ?_
    · rw [rowEnd]
      omega
    · rw [rowEnd]
      omega
  have hleft : rowStart (2 * gv.cols) ps / (2 * gv.cols) = ps / (2 * gv.cols) := by
    have hdiv := Nat.div_add_mod' ps (2 * gv.cols)
    have hnext := Nat.add_one_mul (ps / (2 * gv.cols)) (2 * gv.cols)
    have hmod := (row_mod hcols hps).2
    refine Nat.div_eq_of_lt_le ?_ ?_
    · rw [rowStart]
      omega
    · rw [rowStart]
      omega
  rw [Stays.eq_def, hrow, hwidth]
  cases sel.selMode with
  | char =>
    dsimp only
    split
    · exact ⟨hend, hright⟩
    · omega
  | word => exact ⟨hend, hleft, hright⟩
  | line => exact hend
  | pointer =>
    dsimp only
    omega
  | clear => trivial
  | mouseReport button => trivial
  | other => trivial

/-- A console of 80 columns and `rows` rows. -/
def tallCon (rows : Nat) : Con :=
  { bootCon with geo := { bootCon.geo with rows := rows, screenbufSize := rows * 160 } }

/-- Console 1 is in front with 25 rows; console 2 has 50. -/
def unevenSelection : Selection :=
  bootSelection (fun k => tallCon (if k = 1 then 25 else 50)) fun _ => 0x1000

/-- A line of the tty's console that the console in front does not have. -/
def lineFifty : TioclSelection := ⟨1, 50, 80, 50, .line⟩

/-- A request for its last line needs the condition, and the condition fails. -/
theorem selection_on_screen_uneven :
    ¬∀ st unblanks alloc, (∀ k, (st.cons k).geo = (unevenSelection.cons k).geo) →
      st.touched = [] → st.scans = [] → Prior (fun k => (unevenSelection.cons k).geo) st →
      Confined (fun k => (unevenSelection.cons k).geo) 1
        (setSelection (fun _ => dummyCon) st 2 1 (some lineFifty) unblanks alloc).1 := by
  intro h
  have hstays := (selection_on_screen_iff (fun _ => dummyCon) unevenSelection
    (fun _ => ⟨rfl, Nat.succ_pos 79⟩) 2 1 lineFifty).mp h
  exact absurd hstays (by decide +kernel)

/-- **The console in front is selected on beyond its end**: with 50 rows on the tty's console and 25
in front, the request for the last line inverts a cell past the window of `sel_cons`. -/
theorem selection_off_screen :
    let st := (setSelection (fun _ => dummyCon) unevenSelection 2 1 (some lineFifty) false true).1
    st.selCons = some 1 ∧ (some 1, 7840) ∈ st.touched ∧
      windowSize (unevenSelection.cons 1).geo = 4000 := by
  decide +kernel

end LinuxConsole
