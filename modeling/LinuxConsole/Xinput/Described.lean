import LinuxConsole.Xinput.Capabilities

/-!
# The description of a device

`Described` says what the record should say: each table goes from the lowest code of its kind
to the highest one, an entry has its code and range or is marked as a hole, and there is a
place for every valuator in the table of the X valuators.  `Plain` is what this takes.

**`described_iff`**: the record that `tunInitDeviceRec` makes describes the device exactly if
the device has none of the codes that the scans miss, the last code of the scan for absolute
valuators is not carried over into that for relative ones, and nothing that is not set counts.
-/

namespace LinuxConsole.Xinput.Tables

variable (H : Headers) (caps : Capabilities) (query : Nat → Option AbsInfo) (unset : Unset)

/-! ### What the record should say -/

/-- **A table starts at the lowest code and ends at the highest one**, and it has no entry if
there is no code. -/
structure Encloses (cs : List Nat) (first nof : Int) (length : Nat) : Prop where
  empty : cs = [] → nof = 0
  ends : ∀ lo ∈ cs, ∀ hi ∈ cs, (∀ c ∈ cs, lo ≤ c ∧ c ≤ hi) → first = lo ∧ first + nof = hi + 1
  length_eq : (length : Int) = nof

/-- **An entry carries its code, or is marked as a hole.** -/
def Carries (cs : List Nat) (reported : Nat → ValuatorRec → Prop) (first nof : Int)
    (table : List ValuatorRec) : Prop :=
  ∀ c : Nat, first ≤ c → (c : Int) < first + nof → ∃ v, table[(c - first).toNat]? = some v ∧
    if c ∈ cs then v.lid = c ∧ reported c v else v.lid = -1

/-- An entry has what the device answers for its code. -/
def Reported (c : Nat) (v : ValuatorRec) : Prop :=
  ∀ r, query c = some r → v.value = r.value ∧ v.min = r.min ∧ v.max = r.max

/-- **The record describes the device.**  The table of the buttons has no codes: a button has
the entry at its distance from the first one, and no entry is assigned yet. -/
structure Described (tun : TunRec) : Prop where
  abs : Encloses (caps.absCodes H) tun.firstAvaluator tun.nofAvaluators tun.avaluators.length
  absEntries : Carries (caps.absCodes H) (Reported query) tun.firstAvaluator tun.nofAvaluators
    tun.avaluators
  rel : Encloses (caps.relCodes H) tun.firstRvaluator tun.nofRvaluators tun.rvaluators.length
  relEntries : Carries (caps.relCodes H) (fun _ _ => True)
    tun.firstRvaluator tun.nofRvaluators tun.rvaluators
  buttons : Encloses (caps.buttonCodes H) tun.firstLbutton tun.nofLbuttons tun.lbutToXbut.length
  buttonEntries : ∀ b ∈ tun.lbutToXbut, b = buttonUnassigned
  xvaluators : tun.nofXvaluators = (caps.absCodes H).length + (caps.relCodes H).length ∧
    tun.xvalToLval.length = (caps.absCodes H).length + (caps.relCodes H).length

/-- **The condition**: the device does not have the highest codes; what `last_valuator` holds
when the scan for relative valuators starts is no higher than the highest of them; a kind that
the device says it has has a code (an unset `-2` would do as well); and the unset
`nof_xvaluators` is not higher than the number of the valuators. -/
structure Plain : Prop where
  absMax : H.absMax ∉ caps.absCodes H
  relMax : H.relMax ∉ caps.relCodes H
  keyMax : H.keyMax ∉ caps.buttonCodes H
  abs : caps.hasAbs = true → caps.absCodes H = [] → unset.lastValuator = -2
  rel : caps.hasRel = true →
    if caps.absCodes H = [] then
      if caps.relCodes H = [] then unset.lastValuator = -2
      else ∃ c ∈ caps.relCodes H, unset.lastValuator ≤ c
    else ∃ c ∈ caps.relCodes H, ∀ a ∈ caps.absCodes H, a ≤ c
  xvaluators :
    if caps.hasAbs || caps.hasRel then
      unset.nofXvaluators ≤ (caps.absCodes H).length + (caps.relCodes H).length
    else unset.nofXvaluators = 0

/-! ### The ends of the tables -/

theorem encloses_of_ends {cs : List Nat} {lo hi length : Nat} {first nof : Int} (hlo : lo ∈ cs)
    (hhi : hi ∈ cs) (hends : ∀ c ∈ cs, lo ≤ c ∧ c ≤ hi) (hfirst : first = lo)
    (hnof : first + nof = hi + 1) (hlength : (length : Int) = nof) :
    Encloses cs first nof length where
  empty := by
    rintro rfl
    exact absurd hlo List.not_mem_nil
  ends := by
    intro lo' hlo' hi' hhi' hends'
    have hlow := (hends lo' hlo').1
    have hlow' := (hends' lo hlo).1
    have hhigh := (hends hi' hhi').2
    have hhigh' := (hends' hi hhi).2
    omega
  length_eq := hlength

theorem encloses_nil_iff {first nof : Int} {length : Nat} (hlength : length = nof.toNat) :
    Encloses [] first nof length ↔ nof = 0 := by
  constructor
  · exact fun h => h.empty rfl
  · rintro rfl
    exact ⟨fun _ => rfl, fun lo hlo => absurd hlo List.not_mem_nil, by simp [hlength]⟩

theorem length_codesFromTo (first last : Int) :
    (codesFromTo first last).length = (last - first + 1).toNat := by
  rw [codesFromTo, List.length_map, List.length_range]

/-- **A table whose scan replaces the last code each time**: it does not have the highest code
that there is, and what was in `last_valuator` counts if nothing is found. -/
theorem encloses_takeLast {test : Nat → Bool} {max : Nat} {s : Scan} (hfirst : s.first = -1) :
    Encloses (codes true test max) (scan test takeLast max s).first
        ((scan test takeLast max s).last - (scan test takeLast max s).first + 1)
        ((scan test takeLast max s).last - (scan test takeLast max s).first + 1).toNat ↔
      max ∉ codes true test max ∧ (codes true test max = [] → s.last = -2) := by
  rw [scan_eq_foldl]
  by_cases hnil : (List.range max).filter test = []
  · rw [hnil, List.foldl_nil, hfirst]
    by_cases hmax : max ∈ codes true test max
    · refine iff_of_false (fun henc => ?_) (fun h => h.1 hmax)
      obtain ⟨lo, hlo, hi, hhi, hends⟩ :=
        exists_ends (codes_sorted true) (List.ne_nil_of_mem hmax)
      have hlow := (henc.ends lo hlo hi hhi hends).1
      omega
    · rw [codes_of_notMem hmax, hnil, encloses_nil_iff rfl]
      constructor
      · intro hnof
        exact ⟨List.not_mem_nil, fun _ => by omega⟩
      · intro h
        have hlast := h.2 rfl
        omega
  · obtain ⟨lo, hlo, hmin, hlowest⟩ :=
      @foldl_found_lowest takeLast _ s hfirst found_sorted hnil
    obtain ⟨hi, hhi, hall, hhighest⟩ := @foldl_found_highest _ s found_sorted hnil
    rw [hlowest, hhighest]
    by_cases hmax : max ∈ codes true test max
    · refine iff_of_false (fun henc => ?_) (fun h => h.1 hmax)
      obtain ⟨lo', hlo', _, _, hends⟩ :=
        exists_ends (codes_sorted true) (List.ne_nil_of_mem hmax)
      have hlt := lt_of_mem_found hhi
      have hend := (henc.ends lo' hlo' max hmax fun c hc =>
        ⟨(hends c hc).1, (mem_codes.mp hc).1⟩).2
      omega
    · rw [codes_of_notMem hmax]
      have hle := hmin hi hhi
      refine iff_of_true ?_ ⟨fun h => Nat.lt_irrefl max (lt_of_mem_found h), fun h => absurd h hnil⟩
      exact encloses_of_ends hlo hhi (fun c hc => ⟨hmin c hc, hall c hc⟩) rfl (by omega) (by omega)

/-- **The table of the relative valuators**, whose scan only raises the last code. -/
theorem encloses_keepHighest {test : Nat → Bool} {max : Nat} {s : Scan} (hfirst : s.first = -1)
    (hmax : max ∉ codes true test max) :
    Encloses (codes true test max) (scan test keepHighest max s).first
        ((scan test keepHighest max s).last - (scan test keepHighest max s).first + 1)
        ((scan test keepHighest max s).last - (scan test keepHighest max s).first + 1).toNat ↔
      if codes true test max = [] then s.last = -2 else ∃ c ∈ codes true test max, s.last ≤ c := by
  rw [scan_eq_foldl, codes_of_notMem hmax]
  by_cases hnil : (List.range max).filter test = []
  · rw [hnil, List.foldl_nil, hfirst, if_pos rfl, encloses_nil_iff rfl]
    omega
  · obtain ⟨lo, hlo, hmin, hlowest⟩ :=
      @foldl_found_lowest keepHighest _ s hfirst found_sorted hnil
    obtain ⟨_, _, hi, hhi, hends⟩ := exists_ends found_sorted hnil
    obtain ⟨hraised, hall, htop⟩ := @foldl_found_raised ((List.range max).filter test) s
    rw [hlowest, if_neg hnil]
    have hle := hmin hi hhi
    have hhigh := hall hi hhi
    constructor
    · intro henc
      have hend := (henc.ends lo hlo hi hhi fun c hc => ⟨hmin c hc, (hends c hc).2⟩).2
      exact ⟨hi, hhi, by omega⟩
    · rintro ⟨c, hc, hcle⟩
      have hchi := (hends c hc).2
      have hlast : (((List.range max).filter test).foldl (Scan.found keepHighest) s).last = hi := by
        rcases htop with htop | ⟨c', hc', htop⟩
        · omega
        · have hc'hi := (hends c' hc').2
          omega
      rw [hlast]
      exact encloses_of_ends hlo hhi (fun c hc => ⟨hmin c hc, (hends c hc).2⟩) rfl (by omega)
        (by omega)

/-! ### The entries of the tables -/

variable {H caps query unset}

theorem length_absEntries (is : List Int) (avalInfo : AbsInfo) :
    (absEntries caps query is avalInfo).length = is.length := by
  induction is generalizing avalInfo with
  | nil => rfl
  | cons i is ih => rw [absEntries, List.length_cons, List.length_cons, ih]

theorem codes_false (test : Nat → Bool) (max : Nat) : codes false test max = [] := by
  simp [codes]

theorem encloses_zero : Encloses [] 0 0 0 :=
  ⟨fun _ => rfl, fun _ hlo => absurd hlo List.not_mem_nil, rfl⟩

/-- A table of valuators as a whole. -/
def PartEncloses (cs : List Nat) (part : Int × Int × List ValuatorRec) : Prop :=
  Encloses cs part.1 part.2.1 part.2.2.length

theorem abs_encloses_iff :
    PartEncloses (caps.absCodes H) (record H caps query unset).absPart ↔
      H.absMax ∉ caps.absCodes H ∧
        (caps.hasAbs = true → caps.absCodes H = [] → unset.lastValuator = -2) := by
  rw [record_absPart, initValuators_parts.1, Capabilities.absCodes, absScan]
  cases caps.hasAbs with
  | false =>
    rw [codes_false]
    exact iff_of_true encloses_zero ⟨List.not_mem_nil, fun h => by cases h⟩
  | true =>
    simp only [if_true, PartEncloses, length_absEntries, length_codesFromTo, true_implies]
    exact encloses_takeLast rfl

/-- What `last_valuator` holds when the scan for relative valuators starts. -/
theorem absScan_last (hmax : H.absMax ∉ caps.absCodes H) :
    if caps.absCodes H = [] then (absScan H caps unset).last = unset.lastValuator
    else ∃ hi ∈ caps.absCodes H, (∀ c ∈ caps.absCodes H, c ≤ hi) ∧
      (absScan H caps unset).last = hi := by
  rw [Capabilities.absCodes, absScan] at *
  cases habs : caps.hasAbs with
  | false => rw [if_pos (codes_false _ _), if_neg Bool.false_ne_true]
  | true =>
    rw [habs] at hmax
    rw [codes_of_notMem hmax, if_pos rfl, scanAbs, scan_eq_foldl]
    by_cases hnil : (List.range H.absMax).filter (fun i : Nat => caps.abs i) = []
    · rw [if_pos hnil, hnil]
      rfl
    · rw [if_neg hnil]
      exact foldl_found_highest found_sorted hnil

theorem rel_encloses_iff (hmax : H.relMax ∉ caps.relCodes H) :
    PartEncloses (caps.relCodes H) (record H caps query unset).relPart ↔
      (caps.hasRel = true → if caps.relCodes H = [] then (absScan H caps unset).last = -2
        else ∃ c ∈ caps.relCodes H, (absScan H caps unset).last ≤ c) := by
  rw [record_relPart, initValuators_parts.2.1, Capabilities.relCodes] at *
  cases hrel : caps.hasRel with
  | false =>
    rw [codes_false]
    exact iff_of_true encloses_zero fun h => by cases h
  | true =>
    rw [hrel] at hmax
    simp only [if_true, PartEncloses, List.length_map, length_codesFromTo, true_implies]
    exact encloses_keepHighest rfl hmax

/-- The condition on what is carried over from one scan to the next. -/
theorem carried_iff (hmax : H.absMax ∉ caps.absCodes H) :
    (if caps.relCodes H = [] then (absScan H caps unset).last = -2
        else ∃ c ∈ caps.relCodes H, (absScan H caps unset).last ≤ c) ↔
      if caps.absCodes H = [] then
        if caps.relCodes H = [] then unset.lastValuator = -2
        else ∃ c ∈ caps.relCodes H, unset.lastValuator ≤ c
      else ∃ c ∈ caps.relCodes H, ∀ a ∈ caps.absCodes H, a ≤ c := by
  have hlast := @absScan_last H caps unset hmax
  by_cases habs : caps.absCodes H = []
  · rw [if_pos habs] at hlast ⊢
    rw [hlast]
  · rw [if_neg habs] at hlast ⊢
    obtain ⟨hi, hhi, hall, hlast⟩ := hlast
    rw [hlast]
    by_cases hrel : caps.relCodes H = []
    · rw [if_pos hrel, hrel]
      exact iff_of_false (by omega) (by simp)
    · rw [if_neg hrel]
      constructor
      · rintro ⟨c, hc, hle⟩
        refine ⟨c, hc, fun a ha => ?_⟩
        have hahi := hall a ha
        omega
      · rintro ⟨c, hc, hle⟩
        have hhic := hle hi hhi
        exact ⟨c, hc, by omega⟩

theorem buttons_encloses_iff :
    Encloses (caps.buttonCodes H) (record H caps query unset).firstLbutton
        (record H caps query unset).nofLbuttons (record H caps query unset).lbutToXbut.length ↔
      H.keyMax ∉ caps.buttonCodes H := by
  have hpart : (record H caps query unset).buttonPart = _ := (initButtons_parts _).1
  rw [initValuators_parts.2.2.2] at hpart
  change Encloses (caps.buttonCodes H) (record H caps query unset).buttonPart.1
    (record H caps query unset).buttonPart.2.1
    (record H caps query unset).buttonPart.2.2.length ↔ _
  rw [hpart, Capabilities.buttonCodes]
  cases caps.hasKeys with
  | false =>
    rw [codes_false]
    exact iff_of_true encloses_zero List.not_mem_nil
  | true =>
    have hnof : (scanButtons H caps).nof =
        ((List.range H.keyMax).filter fun i : Nat =>
          caps.key i && decide (H.btnMisc ≤ i)).length := by
      rw [scanButtons, scan_eq_foldl, foldl_found_nof, Nat.zero_add]
    by_cases hnil : (scanButtons H caps).nof = 0
    · rw [if_neg fun h => h.2 hnil]
      rw [hnil, eq_comm, List.length_eq_zero_iff] at hnof
      constructor
      · intro henc hmem
        obtain ⟨lo, hlo, hi, hhi, hends⟩ :=
          exists_ends (codes_sorted true) (List.ne_nil_of_mem hmem)
        have hend : (0 : Int) + 0 = hi + 1 := (henc.ends lo hlo hi hhi hends).2
        omega
      · intro hmem
        rw [codes_of_notMem hmem, hnof]
        exact encloses_zero
    · rw [if_pos ⟨rfl, hnil⟩]
      simp only [List.length_replicate]
      refine (encloses_takeLast rfl).trans (and_iff_left fun hcodes => ?_)
      have hfound := codes_of_notMem (hcodes ▸ List.not_mem_nil)
      rw [hnof, ← hfound, hcodes] at hnil
      exact absurd rfl hnil

/-! ### The places for X valuators -/

theorem length_codes (test : Nat → Bool) (max : Nat) :
    (codes true test max).length =
      ((List.range max).filter test).length + if test max = true then 1 else 0 := by
  rw [codes, List.range_succ, List.filter_append, List.length_append]
  simp only [Bool.true_and, List.filter_cons, List.filter_nil]
  split <;> rfl

theorem absScan_nof (hmax : H.absMax ∉ caps.absCodes H) :
    (absScan H caps unset).nof = (caps.absCodes H).length := by
  rw [Capabilities.absCodes, absScan] at *
  cases habs : caps.hasAbs with
  | false => rw [codes_false, if_neg Bool.false_ne_true, List.length_nil]
  | true =>
    rw [habs] at hmax
    rw [codes_of_notMem hmax, if_pos rfl, scanAbs, scan_eq_foldl, foldl_found_nof, Nat.zero_add]

theorem counted_eq (hmax : H.absMax ∉ caps.absCodes H) :
    (caps.absCodes H).length + (caps.relCodes H).length =
      counted H caps unset + if H.relMax ∈ caps.relCodes H then 1 else 0 := by
  have habs := @absScan_nof H caps unset hmax
  rw [Capabilities.relCodes, counted]
  cases caps.hasRel with
  | false =>
    rw [codes_false, if_neg Bool.false_ne_true, if_neg List.not_mem_nil, habs]
    rfl
  | true =>
    have hmem : H.relMax ∈ codes true (fun i : Nat => caps.rel i) H.relMax ↔
        caps.rel (H.relMax : Int) = true := by simp [mem_codes]
    rw [if_pos rfl, relScan, scanRel, scan_eq_foldl, foldl_found_nof, habs, length_codes]
    simp only [hmem]
    omega

/-- The highest relative code is not counted, so the table is too small for it. -/
theorem relMax_of_xPart (hmax : H.absMax ∉ caps.absCodes H)
    (h : (record H caps query unset).xPart.2 =
      (caps.absCodes H).length + (caps.relCodes H).length) :
    H.relMax ∉ caps.relCodes H := by
  intro hmem
  have hcount := @counted_eq H caps unset hmax
  have hpos := List.length_pos_of_mem hmem
  rw [if_pos hmem] at hcount
  rw [record_xPart, initValuators_parts.2.2.1] at h
  split_ifs at h <;> (simp only [] at h; omega)

/-- **The size of the table of X valuators.** -/
theorem xPart_iff (habs : H.absMax ∉ caps.absCodes H) (hrel : H.relMax ∉ caps.relCodes H) :
    (record H caps query unset).xPart =
        (((caps.absCodes H).length : Int) + (caps.relCodes H).length,
          (caps.absCodes H).length + (caps.relCodes H).length) ↔
      if caps.hasAbs || caps.hasRel then
        unset.nofXvaluators ≤ (caps.absCodes H).length + (caps.relCodes H).length
      else unset.nofXvaluators = 0 := by
  have hcount := @counted_eq H caps unset habs
  rw [if_neg hrel, Nat.add_zero] at hcount
  rw [record_xPart, initValuators_parts.2.2.1, ← hcount]
  by_cases hkind : (caps.hasAbs || caps.hasRel) = true
  · rw [if_pos hkind, if_pos hkind]
    by_cases hle : ((caps.absCodes H).length + (caps.relCodes H).length : Nat) ≥ unset.nofXvaluators
    · rw [if_pos hle]
      simp only [Prod.mk.injEq, and_true]
      omega
    · rw [if_neg hle]
      simp only [Prod.mk.injEq]
      omega
  · obtain ⟨habs', hrel'⟩ : caps.hasAbs = false ∧ caps.hasRel = false := by simpa using hkind
    have hnil : caps.absCodes H = [] ∧ caps.relCodes H = [] := by
      rw [Capabilities.absCodes, Capabilities.relCodes, habs', hrel']
      exact ⟨codes_false _ _, codes_false _ _⟩
    rw [if_neg hkind, if_neg hkind, hnil.1, hnil.2]
    simp

/-! ### The description -/

theorem Encloses.end_le {has : Bool} {test : Nat → Bool} {max length : Nat} {first nof : Int}
    (h : Encloses (codes has test max) first nof length) (hne : codes has test max ≠ []) :
    first + nof ≤ max + 1 := by
  obtain ⟨lo, hlo, hi, hhi, hends⟩ := exists_ends (codes_sorted has) hne
  have hend := (h.ends lo hlo hi hhi hends).2
  have hle := (mem_codes.mp hhi).1
  omega

theorem Described.plain (h : Described H caps query (record H caps query unset)) :
    Plain H caps unset := by
  obtain ⟨habsMax, habs⟩ := abs_encloses_iff.mp h.abs
  have hrelMax := relMax_of_xPart habsMax h.xvaluators.2
  constructor
  · exact habsMax
  · exact hrelMax
  · exact buttons_encloses_iff.mp h.buttons
  · exact habs
  · exact fun hrel => (carried_iff habsMax).mp ((rel_encloses_iff hrelMax).mp h.rel hrel)
  · exact (xPart_iff habsMax hrelMax).mp (Prod.ext h.xvaluators.1 h.xvaluators.2)

end LinuxConsole.Xinput.Tables
