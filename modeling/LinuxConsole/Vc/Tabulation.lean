import LinuxConsole.Lib.Stops
import LinuxConsole.Vc.Movement

/-!
# Tabulation

HT, CHT and CBT go from tab stop to tab stop, HTS and TBC set and clear them.  `nthRight` and
`nthLeft` are where the cursor should go, and `tab_stops_iff` compares the code with them.

HT, HTS and TBC 0 do what they should.  CHT and CBT take their parameter for an `int`, CBT does
nothing for a parameter that is missing or zero, and TBC 3 clears the stops of the first 160 columns
only: the theorem says **exactly when these three do what they should**.
-/

namespace LinuxConsole

open Lib

variable {d : Driver} {s : Con}

/-! ### Where the cursor should go -/

/-- The tab stops right of the cursor, and left of it, the nearest first. -/
def stopsRight (s : Con) : List Nat :=
  (List.range' (s.cur.x + 1) (s.geo.cols - 1 - s.cur.x)).filter (tabBit s)
def stopsLeft (s : Con) : List Nat := (List.range s.cur.x).reverse.filter (tabBit s)

/-- **The `n`-th tab stop** on the right, or the margin when there are fewer. -/
def nthRight (s : Con) (n : Nat) : Nat := (stopsRight s)[n - 1]?.getD (s.geo.cols - 1)

/-- The `n`-th tab stop on the left. -/
def nthLeft (s : Con) (n : Nat) : Nat := (stopsLeft s)[n - 1]?.getD 0

/-- The tab stops on the right that are not at the margin, and those on the left. -/
def innerRight (s : Con) : Nat := ((stopsRight s).filter (· < s.geo.cols - 1)).length
def innerLeft (s : Con) : Nat := ((stopsLeft s).filter (0 < ·)).length

/-! ### The loops -/

/-- A tab stop, counted from the right margin. -/
def tabFromRight (s : Con) (k : Nat) : Bool := tabBit s (s.geo.cols - 1 - k)

/-- The column is counted from the right margin. -/
theorem tabRight_x (fuel : Nat) : ∀ s : Con, s.geo.cols - 1 - s.cur.x ≤ fuel →
    s.cur.x ≤ s.geo.cols - 1 → (tabRight fuel s).cur.x ≤ s.geo.cols - 1 ∧
      s.geo.cols - 1 - (tabRight fuel s).cur.x =
        nextBelow (tabFromRight s) (s.geo.cols - 1 - s.cur.x) := by
  induction fuel with
  | zero =>
    intro s hfuel hx
    have hmargin : s.geo.cols - 1 - s.cur.x = 0 := by omega
    rw [hmargin]
    exact ⟨hx, hmargin⟩
  | succ fuel ih =>
    intro s hfuel hx
    rw [tabRight]
    by_cases hlast : s.cur.x < s.geo.cols - 1
    · have hnext : s.geo.cols - 1 - s.cur.x = s.geo.cols - 1 - (s.cur.x + 1) + 1 := by omega
      have hcolumn : s.geo.cols - 1 - (s.geo.cols - 1 - (s.cur.x + 1)) = s.cur.x + 1 := by omega
      rw [if_pos hlast, hnext, nextBelow_succ, tabFromRight, hcolumn]
      by_cases hstop : tabBit s (s.cur.x + 1) = true
      · have hstop' : tabBit (checkTab { s with cur.x := s.cur.x + 1 })
            (checkTab { s with cur.x := s.cur.x + 1 }).cur.x = true := hstop
        rw [if_pos hstop]
        simp only [hstop', if_true]
        exact ⟨hlast, rfl⟩
      · have hstop' : ¬tabBit (checkTab { s with cur.x := s.cur.x + 1 })
            (checkTab { s with cur.x := s.cur.x + 1 }).cur.x = true := hstop
        rw [if_neg hstop]
        simp only [hstop']
        exact ih (checkTab { s with cur.x := s.cur.x + 1 })
          (show s.geo.cols - 1 - (s.cur.x + 1) ≤ fuel by omega) hlast
    · have hmargin : s.geo.cols - 1 - s.cur.x = 0 := by omega
      rw [if_neg hlast, hmargin]
      exact ⟨hx, rfl⟩

theorem tabLeft_x (fuel : Nat) : ∀ s : Con, s.cur.x ≤ fuel →
    (tabLeft fuel s).cur.x = nextBelow (tabBit s) s.cur.x := by
  induction fuel with
  | zero =>
    intro s hfuel
    have hmargin : s.cur.x = 0 := Nat.le_zero.mp hfuel
    rw [hmargin]
    exact hmargin
  | succ fuel ih =>
    intro s hfuel
    rw [tabLeft]
    by_cases hpos : 0 < s.cur.x
    · have hnext : s.cur.x = s.cur.x - 1 + 1 := by omega
      rw [if_pos hpos]
      conv_rhs => rw [hnext, nextBelow_succ]
      by_cases hstop : tabBit s (s.cur.x - 1) = true
      · have hstop' : tabBit (checkTab { s with cur.x := s.cur.x - 1 })
            (checkTab { s with cur.x := s.cur.x - 1 }).cur.x = true := hstop
        rw [if_pos hstop]
        simp only [hstop', if_true]
        rfl
      · have hstop' : ¬tabBit (checkTab { s with cur.x := s.cur.x - 1 })
            (checkTab { s with cur.x := s.cur.x - 1 }).cur.x = true := hstop
        rw [if_neg hstop]
        simp only [hstop']
        exact ih (checkTab { s with cur.x := s.cur.x - 1 }) (show s.cur.x - 1 ≤ fuel by omega)
    · have hmargin : s.cur.x = 0 := by omega
      rw [if_neg hpos, hmargin]
      rfl

/-- A tabulation leaves the stops and the size of the screen. -/
theorem tabRight_tabs (fuel : Nat) : ∀ s : Con, (tabRight fuel s).tabStop = s.tabStop ∧
    (tabRight fuel s).geo = s.geo := by
  induction fuel with
  | zero => exact fun s => ⟨rfl, rfl⟩
  | succ fuel ih =>
    intro s
    rw [tabRight]
    split
    · dsimp only
      split
      · exact ⟨rfl, rfl⟩
      · exact ih _
    · exact ⟨rfl, rfl⟩

theorem tabLeft_tabs (fuel : Nat) : ∀ s : Con, (tabLeft fuel s).tabStop = s.tabStop := by
  induction fuel with
  | zero => exact fun s => rfl
  | succ fuel ih =>
    intro s
    rw [tabLeft]
    split
    · dsimp only
      split
      · rfl
      · exact ih _
    · rfl

theorem tabBit_congr {s' : Con} (h : s'.tabStop = s.tabStop) : tabBit s' = tabBit s := by
  funext c
  rw [tabBit, tabBit, h]

/-- **Forward tabulations** go from stop to stop. -/
theorem forwardTabs_x (n : Nat) : ∀ s : Con, s.cur.x ≤ s.geo.cols - 1 →
    (forwardTab^[n] s).cur.x ≤ s.geo.cols - 1 ∧ s.geo.cols - 1 - (forwardTab^[n] s).cur.x =
      (nextBelow (tabFromRight s))^[n] (s.geo.cols - 1 - s.cur.x) := by
  induction n with
  | zero => exact fun s hx => ⟨hx, rfl⟩
  | succ n ih =>
    intro s hx
    obtain ⟨hle, hstep⟩ : (forwardTab s).cur.x ≤ s.geo.cols - 1 ∧
        s.geo.cols - 1 - (forwardTab s).cur.x =
          nextBelow (tabFromRight s) (s.geo.cols - 1 - s.cur.x) :=
      tabRight_x s.geo.cols { s with cur.pos := s.cur.pos - 2 * s.cur.x }
        (show s.geo.cols - 1 - s.cur.x ≤ s.geo.cols by omega) hx
    obtain ⟨htabs, hgeo⟩ : (forwardTab s).tabStop = s.tabStop ∧ (forwardTab s).geo = s.geo :=
      tabRight_tabs s.geo.cols { s with cur.pos := s.cur.pos - 2 * s.cur.x }
    have hfrom : tabFromRight (forwardTab s) = tabFromRight s := by
      funext k
      rw [tabFromRight, tabFromRight, tabBit_congr htabs, hgeo]
    have hrest := ih (forwardTab s) (by rw [hgeo]; exact hle)
    rw [hgeo, hfrom, hstep] at hrest
    exact hrest

/-- **Backward tabulations** go from stop to stop. -/
theorem backTabs_x (n : Nat) : ∀ s : Con, s.cur.x ≤ s.geo.cols →
    (backTab^[n] s).cur.x = (nextBelow (tabBit s))^[n] s.cur.x := by
  induction n with
  | zero => exact fun s _ => rfl
  | succ n ih =>
    intro s hx
    have hstep : (backTab s).cur.x = nextBelow (tabBit s) s.cur.x :=
      tabLeft_x s.geo.cols { s with cur.pos := s.cur.pos - 2 * s.cur.x } hx
    have htabs : (backTab s).tabStop = s.tabStop :=
      tabLeft_tabs s.geo.cols { s with cur.pos := s.cur.pos - 2 * s.cur.x }
    have hcols : (backTab s).geo.cols = s.geo.cols := congrArg Place.cols (place_backTab s)
    have hless := nextBelow_le (tabBit s) s.cur.x
    have hrest := ih (backTab s) (by rw [hcols, hstep]; omega)
    rw [tabBit_congr htabs, hstep] at hrest
    exact hrest

/-! ### Stops by their columns -/

theorem stopsRight_eq (hx : s.cur.x ≤ s.geo.cols - 1) : stopsRight s =
    (below (tabFromRight s) (s.geo.cols - 1 - s.cur.x)).map (s.geo.cols - 1 - ·) := by
  have hcol : s.geo.cols - 1 - (s.geo.cols - 1 - s.cur.x) + 1 = s.cur.x + 1 := by omega
  have hmap := map_below (tabBit s) (s.geo.cols - 1) (Nat.sub_le (s.geo.cols - 1) s.cur.x)
  rw [hcol] at hmap
  exact hmap.symm

theorem nthRight_eq (hx : s.cur.x ≤ s.geo.cols - 1) (n : Nat) : nthRight s (n + 1) =
    s.geo.cols - 1 - (nextBelow (tabFromRight s))^[n + 1] (s.geo.cols - 1 - s.cur.x) := by
  rw [nthRight, stopsRight_eq hx, iterate_nextBelow, Nat.add_sub_cancel, List.getElem?_map]
  cases (below (tabFromRight s) (s.geo.cols - 1 - s.cur.x))[n]? with
  | none => rfl
  | some k => rfl

theorem nthLeft_eq (n : Nat) : nthLeft s (n + 1) = (nextBelow (tabBit s))^[n + 1] s.cur.x := by
  rw [nthLeft, iterate_nextBelow]
  rfl

theorem innerRight_eq (hx : s.cur.x ≤ s.geo.cols - 1) :
    innerRight s = short (tabFromRight s) (s.geo.cols - 1 - s.cur.x) := by
  rw [innerRight, stopsRight_eq hx, List.filter_map, List.length_map, short]
  refine congrArg List.length (List.filter_congr fun k hk => ?_)
  have hlt : k < s.geo.cols - 1 - s.cur.x := by
    rw [below, List.mem_filter, List.mem_reverse, List.mem_range] at hk
    exact hk.1
  simp only [Function.comp_apply, decide_eq_decide]
  omega

theorem forwardTabs_iff (hx : s.cur.x ≤ s.geo.cols - 1) (q : Nat) {n : Nat} (hn : 1 ≤ n) :
    (forwardTab^[q] s).cur.x = nthRight s n ↔
      q = n ∨ s.cur.x = s.geo.cols - 1 ∨ (innerRight s < q ∧ innerRight s < n) := by
  obtain ⟨n, rfl⟩ := Nat.exists_eq_add_of_le' hn
  obtain ⟨hle, hq⟩ := forwardTabs_x q s hx
  have hlen : (nextBelow (tabFromRight s))^[n + 1] (s.geo.cols - 1 - s.cur.x) ≤ s.geo.cols - 1 :=
    (Function.iterate_le_id_of_le_id (nextBelow_le (tabFromRight s)) (n + 1) _).trans
      (Nat.sub_le _ _)
  have hiff := iterate_nextBelow_eq_iff (tabFromRight s) q (n + 1) (s.geo.cols - 1 - s.cur.x)
  rw [← innerRight_eq hx, ← hq] at hiff
  rw [nthRight_eq hx]
  omega

theorem backTabs_iff (hx : s.cur.x ≤ s.geo.cols) (q : Nat) {n : Nat} (hn : 1 ≤ n) :
    (backTab^[q] s).cur.x = nthLeft s n ↔
      q = n ∨ s.cur.x = 0 ∨ (innerLeft s < q ∧ innerLeft s < n) := by
  obtain ⟨n, rfl⟩ := Nat.exists_eq_add_of_le' hn
  rw [backTabs_x q s hx, nthLeft_eq]
  exact iterate_nextBelow_eq_iff (tabBit s) q (n + 1) s.cur.x

/-! ### The control functions -/

/-- The tab stops and the cursor are the same. -/
structure SameTabs (s s' : Con) : Prop where
  tabStop : s'.tabStop = s.tabStop
  x : s'.cur.x = s.cur.x
  geo : s'.geo = s.geo

theorem SameTabs.right {s' : Con} (h : SameTabs s s') :
    nthRight s' = nthRight s ∧ innerRight s' = innerRight s := by
  have hstops : stopsRight s' = stopsRight s := by
    rw [stopsRight, stopsRight, h.x, h.geo, tabBit_congr h.tabStop]
  refine ⟨?_, ?_⟩
  · funext n
    rw [nthRight, nthRight, hstops, h.geo]
  · rw [innerRight, innerRight, hstops, h.geo]

theorem SameTabs.left {s' : Con} (h : SameTabs s s') :
    nthLeft s' = nthLeft s ∧ innerLeft s' = innerLeft s := by
  have hstops : stopsLeft s' = stopsLeft s := by
    rw [stopsLeft, stopsLeft, h.x, tabBit_congr h.tabStop]
  refine ⟨?_, ?_⟩
  · funext n
    rw [nthLeft, nthLeft, hstops]
  · rw [innerLeft, innerLeft, hstops]

theorem sameTabs_atLeastOne (s : Con) : SameTabs s s.atLeastOne := by
  rw [Con.atLeastOne]
  split
  · exact ⟨rfl, rfl, rfl⟩
  · exact ⟨rfl, rfl, rfl⟩

theorem SameTabs.trans {s' s'' : Con} (h : SameTabs s s') (h' : SameTabs s' s'') : SameTabs s s'' :=
  ⟨h'.tabStop.trans h.tabStop, h'.x.trans h.x, h'.geo.trans h.geo⟩

/-- The parameter of CHT, as the code has it, is enough. -/
def ChtFits (s : Con) (n : Nat) : Prop :=
  s.cur.x + 1 = s.geo.cols ∨
    (parameter n < 2 ^ 31 ∧ (n < 2 ^ 32 ∨ innerRight s < parameter n))

/-- The parameter of CBT, as the code has it, is enough: it is not zero. -/
def CbtFits (s : Con) (n : Nat) : Prop :=
  s.cur.x = 0 ∨
    (1 ≤ n % 2 ^ 32 ∧ n % 2 ^ 32 < 2 ^ 31 ∧ (n < 2 ^ 32 ∨ innerLeft s < n % 2 ^ 32))

theorem s32_toNat {p : Nat} (h : p < 2 ^ 32) : (s32 p).toNat = if p < 2 ^ 31 then p else 0 := by
  split
  case isTrue hp =>
    rw [s32_of_range (by omega) (by omega)]
    exact Int.toNat_natCast p
  case isFalse hp =>
    rw [s32_wraps (by omega) (by omega)]
    omega

theorem typed_cht_iff {w : Writing} (hx : w.con.cur.x < w.con.geo.cols) {ds : List Nat}
    (hds : Digits ds) : (w.typed d (csi ds 0x49)).cur.x = nthRight w.con (max (number ds) 1) ↔
      ChtFits w.con (number ds) := by
  obtain ⟨u, dr, heq⟩ := typed_csi (d := d) hds (c := 0x49)
    ⟨by decide, by decide, by decide, fun _ _ _ _ => rfl⟩ w
  have hcht (s : Con) : csiFinal d s 0x49 = vteCht s.atLeastOne (s32 (s.atLeastOne.ps.par 0)) := rfl
  have hpar : (gotPars { w.con with dec := u, draws := dr } 0 (onePar w.con ds)).ps.par 0 =
      number ds % 2 ^ 32 := onePar_zero w.con ds
  have hgot : SameTabs w.con (gotPars { w.con with dec := u, draws := dr } 0 (onePar w.con ds)) :=
    ⟨rfl, rfl, rfl⟩
  have hsame := hgot.trans (sameTabs_atLeastOne _)
  obtain ⟨h1, h2, h3, h4⟩ := parameter_cases (number ds)
  rw [heq, hcht, atLeastOne_par, hpar]
  generalize (gotPars { w.con with dec := u, draws := dr } 0 (onePar w.con ds)).atLeastOne = s at hsame
  have hxs : s.cur.x ≤ s.geo.cols - 1 := by
    rw [hsame.x, hsame.geo]
    omega
  show (forwardTab^[(s32 (parameter (number ds))).toNat] s).cur.x = _ ↔ _
  rw [s32_toNat h2, ← hsame.right.1, forwardTabs_iff hxs _ (by omega), ChtFits, hsame.right.2,
    hsame.x, hsame.geo]
  generalize parameter (number ds) = p at h1 h2 h3 h4
  split
  · omega
  · omega

theorem typed_cbt_iff {w : Writing} (hx : w.con.cur.x < w.con.geo.cols) {ds : List Nat}
    (hds : Digits ds) : (w.typed d (csi ds 0x5a)).cur.x = nthLeft w.con (max (number ds) 1) ↔
      CbtFits w.con (number ds) := by
  obtain ⟨u, dr, heq⟩ := typed_csi (d := d) hds (c := 0x5a)
    ⟨by decide, by decide, by decide, fun _ _ _ _ => rfl⟩ w
  have hcbt (s : Con) : csiFinal d s 0x5a = vteCbt s (s32 (s.ps.par 0)) := rfl
  have hpar : (gotPars { w.con with dec := u, draws := dr } 0 (onePar w.con ds)).ps.par 0 =
      number ds % 2 ^ 32 := onePar_zero w.con ds
  have hsame : SameTabs w.con (gotPars { w.con with dec := u, draws := dr } 0 (onePar w.con ds)) :=
    ⟨rfl, rfl, rfl⟩
  rw [heq, hcbt, hpar]
  generalize gotPars { w.con with dec := u, draws := dr } 0 (onePar w.con ds) = s at hsame
  have hxs : s.cur.x ≤ s.geo.cols := by
    rw [hsame.x, hsame.geo]
    omega
  show (backTab^[(s32 (number ds % 2 ^ 32 : Nat)).toNat] s).cur.x = _ ↔ _
  rw [s32_toNat (by omega), ← hsame.left.1, backTabs_iff hxs _ (by omega), CbtFits, hsame.left.2,
    hsame.x]
  split
  · omega
  · omega

/-! ### The stops -/

/-- A bit of the table, after one of its words has been changed at one bit. -/
theorem tabBit_update {x c : Nat} (word : BitVec 32) (on : Bool)
    (hbits : ∀ j < 32, word.getLsbD j =
      if j = x % 32 then on else (s.tabStop (x >>> 5)).getLsbD j) :
    (Function.update s.tabStop (x >>> 5) word (c >>> 5)).getLsbD (c % 32) =
      if c = x then on else tabBit s c := by
  have hword : c = x ↔ c >>> 5 = x >>> 5 ∧ c % 32 = x % 32 := by
    rw [Nat.shiftRight_eq_div_pow, Nat.shiftRight_eq_div_pow]
    omega
  by_cases hw : c >>> 5 = x >>> 5
  · rw [hw, Function.update_self, hbits _ (Nat.mod_lt c (by decide)), tabBit, hw]
    refine if_congr ?_ rfl rfl
    rw [hword]
    exact ⟨fun h => ⟨hw, h⟩, And.right⟩
  · rw [Function.update_of_ne hw, if_neg fun h => hw (hword.mp h).1]
    rfl

theorem getLsbD_mask {j k : Nat} (hj : j < 32) : (1#32 <<< k).getLsbD j = decide (j = k) := by
  rw [BitVec.getLsbD_shiftLeft, BitVec.getLsbD_one, Bool.eq_iff_iff]
  simp only [Bool.and_eq_true, Bool.not_eq_true', decide_eq_true_eq, decide_eq_false_iff_not]
  omega

/-- **HTS** sets the stop of the cursor. -/
theorem tabBit_setTab (s : Con) (c : Nat) :
    tabBit (setTab s) c = if c = s.cur.x then true else tabBit s c := by
  refine tabBit_update (x := s.cur.x) (s.tabStop (s.cur.x >>> 5) ||| (1#32 <<< (s.cur.x % 32))) true
    fun j hj => ?_
  rw [BitVec.getLsbD_or, getLsbD_mask hj]
  split
  case isTrue hat => rw [decide_eq_true hat, Bool.or_true]
  case isFalse hat =>
    rw [decide_eq_false hat, Bool.or_false]
    rfl

/-- **TBC 0** clears it. -/
theorem tabBit_vteTbc (s : Con) (c : Nat) :
    tabBit (vteTbc s 0) c = if c = s.cur.x then false else tabBit s c := by
  refine tabBit_update (x := s.cur.x) (s.tabStop (s.cur.x >>> 5) &&& ~~~(1#32 <<< (s.cur.x % 32)))
    false fun j hj => ?_
  rw [BitVec.getLsbD_and, BitVec.getLsbD_not, getLsbD_mask hj, decide_eq_true hj]
  split
  case isTrue hat => rw [decide_eq_true hat, Bool.not_true, Bool.and_false, Bool.and_false]
  case isFalse hat =>
    rw [decide_eq_false hat, Bool.not_false, Bool.and_true, Bool.and_true]
    rfl

theorem tabBit_vteTbc_all (s : Con) (c : Nat) :
    tabBit (vteTbc s 3) c = if c < 160 then false else tabBit s c := by
  have hword : c >>> 5 < 5 ↔ c < 160 := by
    rw [Nat.shiftRight_eq_div_pow]
    omega
  show (if c >>> 5 < 5 then (0 : BitVec 32) else s.tabStop (c >>> 5)).getLsbD (c % 32) = _
  by_cases h : c < 160
  · rw [if_pos h, if_pos (hword.mpr h)]
    exact BitVec.getLsbD_zero
  · rw [if_neg h, if_neg fun hw => h (hword.mp hw)]
    rfl

theorem standard_tbc : Standard d 0x67 :=
  ⟨by decide, by decide, by decide, fun _ _ _ _ => rfl⟩

theorem typed_tbc (w : Writing) {ds : List Nat} (hds : Digits ds) (h : number ds < 2 ^ 32) :
    ∃ s : Con, SameTabs w.con s ∧ w.typed d (csi ds 0x67) = vteTbc s (number ds) := by
  obtain ⟨u, dr, heq⟩ := typed_csi (d := d) hds standard_tbc w
  have htbc (s : Con) : csiFinal d s 0x67 = vteTbc s (s.ps.par 0) := rfl
  have hpar : (gotPars { w.con with dec := u, draws := dr } 0 (onePar w.con ds)).ps.par 0 =
      number ds := (onePar_zero w.con ds).trans (Nat.mod_eq_of_lt h)
  refine ⟨gotPars { w.con with dec := u, draws := dr } 0 (onePar w.con ds), ⟨rfl, rfl, rfl⟩, ?_⟩
  rw [heq, htbc, hpar]

theorem typed_hts (w : Writing) : ∃ s : Con, SameTabs w.con s ∧ w.typed d [0x1b, 0x48] = setTab s := by
  obtain ⟨u, ds, hesc⟩ := writeStep_esc (d := d) w
  have hs : (writeStep d w (.byte 0x1b)).con.ps.state = .esc := by rw [hesc]; rfl
  obtain ⟨u, ds, hhts⟩ := writeStep_afterEsc (d := d) (c := 0x48) hs (by decide) (by decide)
  have htab (s : Con) : escState d s 0x48 = setTab (s.setState .init) := rfl
  rw [hesc, htab] at hhts
  refine ⟨_, ?_, hhts⟩
  exact ⟨rfl, rfl, rfl⟩

/-- **Tab stops.**  Wherever in a stream, and with any tab stops: HT goes to the next tab stop or the
margin, HTS adds exactly the column of the cursor and TBC 0 removes exactly it; CHT and CBT go to the
`n`-th tab stop or the margin exactly if the parameter is enough; and TBC 3 leaves no tab stop exactly
if none was set from column 160 on. -/
theorem tab_stops_iff {w : Writing} (hx : w.con.cur.x < w.con.geo.cols) :
    (terminalEmulation d w.con 0x09).cur.x = nthRight w.con 1 ∧
    (∀ c, tabBit (w.typed d [0x1b, 0x48]) c =
      if c = w.con.cur.x then true else tabBit w.con c) ∧
    (∀ ds, Digits ds → number ds = 0 → ∀ c, tabBit (w.typed d (csi ds 0x67)) c =
      if c = w.con.cur.x then false else tabBit w.con c) ∧
    (∀ ds, Digits ds → ((w.typed d (csi ds 0x49)).cur.x = nthRight w.con (max (number ds) 1) ↔
      ChtFits w.con (number ds))) ∧
    (∀ ds, Digits ds → ((w.typed d (csi ds 0x5a)).cur.x = nthLeft w.con (max (number ds) 1) ↔
      CbtFits w.con (number ds))) ∧
    (∀ ds, Digits ds → number ds = 3 →
      ((∀ c < w.con.geo.cols, tabBit (w.typed d (csi ds 0x67)) c = false) ↔
        ∀ c < w.con.geo.cols, 160 ≤ c → tabBit w.con c = false)) := by
  refine ⟨?_, fun c => ?_, fun ds hds hzero c => ?_, fun ds hds => typed_cht_iff hx hds,
    fun ds hds => typed_cbt_iff hx hds, fun ds hds hthree => ?_⟩
  · exact (forwardTabs_iff (s := w.con) (by omega) 1 (le_refl 1)).mpr (.inl rfl)
  · obtain ⟨s, hsame, heq⟩ := typed_hts (d := d) w
    rw [heq, tabBit_setTab, hsame.x, tabBit_congr hsame.tabStop]
  · obtain ⟨s, hsame, heq⟩ := typed_tbc (d := d) w hds (by omega)
    rw [heq, hzero, tabBit_vteTbc, hsame.x, tabBit_congr hsame.tabStop]
  · obtain ⟨s, hsame, heq⟩ := typed_tbc (d := d) w hds (by omega)
    rw [heq, hthree]
    refine forall₂_congr fun c _ => ?_
    rw [tabBit_vteTbc_all, tabBit_congr hsame.tabStop]
    by_cases hc : c < 160
    · rw [if_pos hc]
      exact iff_of_true rfl fun hn => absurd hc (by omega)
    · rw [if_neg hc]
      exact ⟨fun hb _ => hb, fun hb => hb (by omega)⟩

theorem tab_stops_home :
    (terminalEmulation dummyCon bootCon 0x09).cur.x = nthRight bootCon 1 ∧
    (∀ c, tabBit ((Writing.idle bootCon).typed dummyCon [0x1b, 0x48]) c =
      if c = bootCon.cur.x then true else tabBit bootCon c) ∧
    (∀ ds, Digits ds → number ds = 0 → ∀ c,
      tabBit ((Writing.idle bootCon).typed dummyCon (csi ds 0x67)) c =
        if c = bootCon.cur.x then false else tabBit bootCon c) ∧
    (∀ ds, Digits ds → (((Writing.idle bootCon).typed dummyCon (csi ds 0x49)).cur.x =
      nthRight bootCon (max (number ds) 1) ↔ ChtFits bootCon (number ds))) ∧
    (∀ ds, Digits ds → (((Writing.idle bootCon).typed dummyCon (csi ds 0x5a)).cur.x =
      nthLeft bootCon (max (number ds) 1) ↔ CbtFits bootCon (number ds))) ∧
    (∀ ds, Digits ds → number ds = 3 → ((∀ c < bootCon.geo.cols,
        tabBit ((Writing.idle bootCon).typed dummyCon (csi ds 0x67)) c = false) ↔
      ∀ c < bootCon.geo.cols, 160 ≤ c → tabBit bootCon c = false)) :=
  tab_stops_iff (w := .idle bootCon) (show 0 < 80 by decide)

/-- A stream that has gone to the column of the digits `ds`, on a console of 200 columns. -/
def atColumn (ds : List Nat) : Writing :=
  run (writeStep dummyCon) (.idle (vcInit dummyCon (visualInit ⟨200, 25, true, 0, 0⟩ 0x1000
    (fun _ => 0) bootDisplay none defaultUserMap) true)) ((csi ds 0x47).map .byte)

/-- The digits of `2 ^ 31`. -/
def signBit : List Nat := [0x32, 0x31, 0x34, 0x37, 0x34, 0x38, 0x33, 0x36, 0x34, 0x38]

/-- **CBT without a parameter does nothing**, CHT by `2 ^ 31` does nothing, and a tab stop set in
column 163 survives TBC 3. -/
theorem tabs_missed :
    (atColumn [0x31, 0x30]).con.cur.x = 9 ∧
    ((atColumn [0x31, 0x30]).typed dummyCon (csi [] 0x5a)).cur.x = 9 ∧
    nthLeft (atColumn [0x31, 0x30]).con 1 = 8 ∧
    ((atColumn [0x31, 0x30]).typed dummyCon (csi signBit 0x49)).cur.x = 9 ∧
    nthRight (atColumn [0x31, 0x30]).con (number signBit) = 199 ∧
    tabBit ((atColumn [0x31, 0x36, 0x34]).typed dummyCon ([0x1b, 0x48] ++ csi [0x33] 0x67)) 163 =
      true := by
  decide +kernel

end LinuxConsole
