import LinuxConsole.Xinput.Mapping

/-!
# The map of the valuators

At last a valuator without a place gets a free one, as long as there is one
(`Tun.Mapped.finishValuator`).  `tunDeviceRecForceXValuators` makes room for `n` valuators,
of which the last has the index `n - 1`, and then the valuator `n` is written: what does
not fit is behind the end (`Tun.Spilled`).  It does not fit either where
`tunInitDeviceRec` has not seen a valuator, or has taken the table for long enough because
of what it found in `nof_xvaluators`.

So **`valuators_iff`**: the map is right all the time exactly if the tables have all
valuators, the table of X valuators begins empty, and there is a place for what the
auto-configuration, the options and at last the valuators that are left need.
-/

namespace LinuxConsole.Xinput

open Lib Tables

variable {H : Headers}

/-! ### What the map should be -/

section Statement

variable (H : Headers) (caps : Capabilities) (query : Nat → Option AbsInfo) (unset : Unset)

/-- The record before the auto-configuration. -/
def Tables.Capabilities.tun : Tun := (record H caps query unset).tun

/-- The record before `tunFinishUnasigned`, and after it. -/
def Tables.Capabilities.configured (auto : Bool) (steps : List (Valuator × Option33)) : Tun :=
  Xinput.configured caps unset (caps.tun H query unset) auto steps

/-- The last option for a valuator is to disable it. -/
def disabledBy (steps : List (Valuator × Option33)) (v : Valuator) : Bool :=
  (steps.reverse.find? fun s => s.1 = v).any fun s => s.2 = .disable

/-- The valuators that need a place at last. -/
def Tables.Capabilities.needed (steps : List (Valuator × Option33)) : List Valuator :=
  (caps.tun H query unset).entries.filter fun v => caps.has v && !disabledBy steps v

/-- **What is asked for has its place**: each valuator has an entry, no place of the table of X
valuators is taken at first, and only places of this table are asked for. -/
structure Places (auto : Bool) (steps : List (Valuator × Option33)) : Prop where
  entries : ∀ v, caps.has v = true → v ∈ (caps.tun H query unset).entries
  empty : ∀ j, (caps.tun H query unset).xvalToLval j = none
  auto : auto = true → ∀ p ∈ autoSlots caps (caps.tun H query unset),
    p.2 < (caps.tun H query unset).places
  options : ∀ s ∈ steps, caps.has s.1 = true → ∀ num, s.2 = .map num →
    num < (caps.tun H query unset).places

/-- **And there are enough places** for all valuators but those that are disabled at last. -/
structure Fits (auto : Bool) (steps : List (Valuator × Option33)) : Prop
    extends Places H caps query unset auto steps where
  room : (caps.needed H query unset steps).length ≤ (caps.tun H query unset).places

end Statement

/-! ### The record -/

variable {caps : Capabilities} {query : Nat → Option AbsInfo} {unset : Unset}

theorem counted_small (caps : Capabilities) : counted H caps unset < 2 ^ 15 := by
  have habs : (absScan H caps unset).nof ≤ H.absMax := by
    rw [absScan]
    split_ifs
    · rw [scanAbs, scan_eq_foldl, foldl_found_nof, Nat.zero_add]
      exact (List.length_filter_le _ _).trans_eq List.length_range
    · exact Nat.zero_le _
  have hsmall := H.valuators_small
  rw [counted]
  split_ifs
  · have hrel := (List.length_filter_le (fun i : Nat => caps.rel i)
      (List.range H.relMax)).trans_eq List.length_range
    rw [relScan, scanRel, scan_eq_foldl, foldl_found_nof]
    dsimp only
    omega
  · omega

/-- **The table of X valuators** is not there, or as long as it is said to be. -/
theorem tun_places : (caps.tun H query unset).places < 2 ^ 15 ∧
    ((caps.tun H query unset).places = 0 ∨
      (caps.tun H query unset).nofXvaluators = (caps.tun H query unset).places) := by
  have hx : ((caps.tun H query unset).nofXvaluators, (caps.tun H query unset).places) = _ :=
    (@record_xPart H caps query unset).trans initValuators_parts.2.2.1
  have hsmall := @counted_small H unset caps
  split_ifs at hx <;> obtain ⟨hnof, hplaces⟩ := Prod.mk.inj hx <;> omega

theorem mem_absEntries {caps : Capabilities} {is : List Int} {e : ValuatorRec} :
    ∀ {avalInfo : AbsInfo}, e ∈ absEntries caps query is avalInfo → e.xiv = -1 := by
  induction is with
  | nil => exact fun h => absurd h List.not_mem_nil
  | cons i is ih =>
    intro avalInfo h
    rcases List.mem_cons.mp h with rfl | h
    · rfl
    · exact ih h

theorem record_xiv (caps : Capabilities) :
    (∀ e ∈ (record H caps query unset).avaluators, e.xiv = -1) ∧
      ∀ e ∈ (record H caps query unset).rvaluators, e.xiv = -1 := by
  constructor
  · intro e he
    change e ∈ (record H caps query unset).absPart.2.2 at he
    rw [record_absPart, initValuators_parts.1] at he
    split_ifs at he
    · exact mem_absEntries he
    · exact absurd he List.not_mem_nil
  · intro e he
    change e ∈ (record H caps query unset).relPart.2.2 at he
    rw [record_relPart, initValuators_parts.2.1] at he
    split_ifs at he
    · obtain ⟨i, -, rfl⟩ := List.mem_map.mp he
      rfl
    · exact absurd he List.not_mem_nil

theorem tun_xiv (v : Valuator) : (caps.tun H query unset).xiv v = -1 := by
  change (((record H caps query unset).entry v).map ValuatorRec.xiv).getD
    valuatorUnassigned = -1
  cases hentry : (record H caps query unset).entry v with
  | none => rfl
  | some e =>
    obtain ⟨habs, hrel⟩ := @record_xiv H query unset caps
    cases v with
    | abs i =>
      rw [TunRec.entry] at hentry
      split_ifs at hentry
      exact habs e (List.mem_of_getElem? hentry)
    | rel i =>
      rw [TunRec.entry] at hentry
      split_ifs at hentry
      exact hrel e (List.mem_of_getElem? hentry)

theorem mem_needed {steps : List (Valuator × Option33)} {v : Valuator} :
    v ∈ caps.needed H query unset steps ↔
      v ∈ (caps.tun H query unset).entries ∧ caps.has v = true ∧ disabledBy steps v = false := by
  rw [Capabilities.needed, List.mem_filter, Bool.and_eq_true, Bool.not_eq_true']

variable {vs : List Valuator} {p : Nat} {tun : Tun}

/-- **At first** nothing is mapped. -/
theorem tun_mapped (hempty : ∀ j, (caps.tun H query unset).xvalToLval j = none) :
    (caps.tun H query unset).Mapped vs (caps.tun H query unset).places := by
  have hnone : ∀ j v, (caps.tun H query unset).xvalToLval j ≠ some v := by
    intro j v
    rw [hempty]
    simp
  refine ⟨⟨fun j v => ?_, fun j v hv => absurd hv (hnone j v)⟩,
    fun j v hv => absurd hv (hnone j v), rfl, tun_places.2, tun_places.1, fun v => ?_⟩
  · rw [tun_xiv]
    exact iff_of_false (hnone j v) (by omega)
  · rw [tun_xiv, valuatorDisabled]
    omega

/-! ### What is left -/

/-- **Something is behind the end** of the table. -/
def Tun.Spilled (tun : Tun) : Prop := ∃ j v, tun.xvalToLval j = some v ∧ tun.places ≤ j

theorem finishValuator_loose {v : Valuator} (hv : caps.has v = true)
    (hloose : tun.xiv v = valuatorUnassigned) : tun.finishValuator caps unset v =
      (if (tun.search : Int) = tun.nofXvaluators then tun.forceXValuators unset tun.search
        else tun).link v tun.search := by
  rw [Tun.finishValuator, if_pos ⟨hv, hloose⟩]

theorem finishValuator_fixed {v : Valuator}
    (h : ¬(caps.has v = true ∧ tun.xiv v = valuatorUnassigned)) :
    tun.finishValuator caps unset v = tun := by
  rw [Tun.finishValuator, if_neg h]

theorem finishValuator_xiv (v : Valuator) {u : Valuator} (hu : tun.xiv u ≠ valuatorUnassigned) :
    (tun.finishValuator caps unset v).xiv u = tun.xiv u := by
  by_cases hv : caps.has v = true ∧ tun.xiv v = valuatorUnassigned
  · have hne : u ≠ v := by
      rintro rfl
      exact hu hv.2
    rw [finishValuator_loose hv.1 hv.2]
    refine (Function.update_of_ne hne ..).trans ?_
    rw [Tun.forceXValuators]
    split_ifs <;> rfl
  · rw [finishValuator_fixed hv]

theorem Tun.Spilled.finishValuator (h : tun.Spilled) (v : Valuator) :
    (tun.finishValuator caps unset v).Spilled := by
  by_cases hv : caps.has v = true ∧ tun.xiv v = valuatorUnassigned
  · rw [finishValuator_loose hv.1 hv.2]
    split_ifs with hforce
    · refine ⟨tun.search, v, by rw [link_table, if_pos rfl], ?_⟩
      change (tun.forceXValuators unset tun.search).places ≤ _
      rw [Tun.forceXValuators, if_pos (by omega)]
    · obtain ⟨j, u, hu, hj⟩ := h
      by_cases hplace : j = tun.search
      · exact ⟨j, v, by rw [link_table, if_pos hplace], hj⟩
      · exact ⟨j, u, by rwa [link_table, if_neg hplace], hj⟩
  · rwa [finishValuator_fixed hv]

/-- **A valuator is given the place that is found**, if it is there. -/
theorem Tun.Mapped.finishValuator (h : tun.Mapped vs p) {v : Valuator} (hv : caps.has v = true)
    (hloose : tun.xiv v = valuatorUnassigned) (hmem : v ∈ vs) (hlt : tun.search < p) :
    (tun.finishValuator caps unset v).Mapped vs p ∧
      ∀ u, (tun.finishValuator caps unset v).xiv u =
        if u = v then (tun.search : Int) else tun.xiv u := by
  have hplace := (h.lt hlt).1
  have hfree : (tun.xvalToLval tun.search).isNone = true := by
    have hbelow : tun.search < tun.nofXvaluators.toNat := by omega
    exact free_firstFree hbelow
  rw [finishValuator_loose hv hloose, if_neg (by omega)]
  refine ⟨h.link hmem hlt (Option.isNone_iff_eq_none.mp hfree) ?_, link_xiv v (hlt.trans h.small)⟩
  rw [hloose]
  decide

/-- Valuators without a place are among those that need one. -/
def Tun.Wants (caps : Capabilities) (vs : List Valuator) (tun : Tun) : Prop :=
  ∀ v, caps.has v = true → tun.xiv v = valuatorUnassigned → v ∈ vs

theorem Tun.Wants.finishValuator (h : tun.Wants caps vs) (v : Valuator) :
    (tun.finishValuator caps unset v).Wants caps vs := by
  intro u hu hloose
  refine h u hu ?_
  by_contra hne
  rw [finishValuator_xiv v hne] at hloose
  exact hne hloose

variable {auto : Bool} {steps : List (Valuator × Option33)}

theorem configured_concat (s : Valuator × Option33) :
    caps.configured H query unset auto (steps ++ [s]) =
      (caps.configured H query unset auto steps).step caps unset s :=
  List.foldl_concat ..

theorem places_concat {s : Valuator × Option33} :
    Places H caps query unset auto (steps ++ [s]) ↔ Places H caps query unset auto steps ∧
      (caps.has s.1 = true → ∀ num, s.2 = .map num → num < (caps.tun H query unset).places) := by
  constructor
  · intro h
    exact ⟨⟨h.entries, h.empty, h.auto, fun t ht =>
      h.options t (List.mem_append_left [s] ht)⟩, h.options s List.mem_concat_self⟩
  · rintro ⟨h, hs⟩
    refine ⟨h.entries, h.empty, h.auto, fun t ht => ?_⟩
    rcases List.mem_append.mp ht with ht | ht
    · exact h.options t ht
    · rw [List.mem_singleton.mp ht]
      exact hs

theorem Places.before {pre : List (Valuator × Option33)} (hpre : pre <+: steps)
    (h : Places H caps query unset auto steps) : Places H caps query unset auto pre :=
  ⟨h.entries, h.empty, h.auto, fun s hs => h.options s (hpre.subset hs)⟩

theorem disabledBy_concat (s : Valuator × Option33) (v : Valuator) :
    disabledBy (steps ++ [s]) v =
      if s.1 = v then decide (s.2 = .disable) else disabledBy steps v := by
  rw [disabledBy, List.reverse_concat, List.find?_cons]
  by_cases hv : s.1 = v
  · simp [hv]
  · simp [hv, disabledBy]

theorem Places.mem (h : Places H caps query unset auto steps) {v : Valuator}
    (hv : caps.has v = true) : v ∈ caps.needed H query unset [] :=
  mem_needed.mpr ⟨h.entries v hv, hv, rfl⟩

/-- **The auto-configuration** keeps the map if its places are there. -/
theorem autoconfig_mapped (h : Places H caps query unset true steps) :
    (tunAutoconfigDeviceRec caps (caps.tun H query unset)).Mapped
        (caps.needed H query unset []) (caps.tun H query unset).places ∧
      ∀ v, 0 ≤ (tunAutoconfigDeviceRec caps (caps.tun H query unset)).xiv v ∨
        (tunAutoconfigDeviceRec caps (caps.tun H query unset)).xiv v = -1 := by
  obtain ⟨hfst, hsnd⟩ := @autoSlots_nodup caps (caps.tun H query unset)
  have hsame := @autoconfig_sameMap caps (caps.tun H query unset)
  have hstart : (caps.tun H query unset).Mapped (caps.needed H query unset []) _ :=
    tun_mapped h.empty
  have hlinks := hstart.links (fun q hq => ?_) hfst hsnd
  · refine ⟨hsame.mapped hlinks.1, fun v => ?_⟩
    rw [hsame.xiv, ← @tun_xiv _ caps query unset v]
    exact hlinks.2 v
  · refine ⟨h.mem (has_autoSlots _ q hq), h.auto rfl q hq, h.empty q.2, ?_⟩
    rw [tun_xiv]
    omega

/-- **What is asked for keeps the map right**, and disables what it is to disable. -/
theorem Places.configured (h : Places H caps query unset auto steps) :
    (caps.configured H query unset auto steps).Mapped (caps.needed H query unset [])
        (caps.tun H query unset).places ∧
      ∀ v, caps.has v = true → ((caps.configured H query unset auto steps).xiv v =
        valuatorDisabled ↔ disabledBy steps v = true) := by
  induction steps using List.reverseRecOn with
  | nil =>
    have hnot : ∀ (x : Int) (v : Valuator), 0 ≤ x ∨ x = -1 →
        (x = valuatorDisabled ↔ disabledBy [] v = true) := by
      intro x v hx
      rw [valuatorDisabled]
      exact iff_of_false (by omega) Bool.false_ne_true
    cases auto with
    | false => exact ⟨tun_mapped h.empty, fun v _ => hnot _ v (Or.inr (tun_xiv v))⟩
    | true =>
      obtain ⟨hmapped, hxiv⟩ := autoconfig_mapped h
      exact ⟨hmapped, fun v _ => hnot _ v (hxiv v)⟩
  | append_singleton steps s ih =>
    obtain ⟨hsteps, hs⟩ := places_concat.mp h
    obtain ⟨hmapped, hdisabled⟩ := ih hsteps
    rw [configured_concat]
    refine ⟨hmapped.step hsteps.mem hs, fun v hv => ?_⟩
    rw [disabledBy_concat]
    by_cases hhas : caps.has s.1 = true
    · rw [hmapped.step_disabled hhas (hs hhas)]
      split_ifs
      · exact decide_eq_true_iff.symm
      · exact hdisabled v hv
    · have hne : s.1 ≠ v := by
        rintro rfl
        exact hhas hv
      rw [Tun.step, if_neg hhas, if_neg hne]
      exact hdisabled v hv

/-- **Before what is left** only what needs a place has one or wants one. -/
theorem Places.needed (h : Places H caps query unset auto steps) :
    (caps.configured H query unset auto steps).Mapped (caps.needed H query unset steps)
        (caps.tun H query unset).places ∧
      (caps.configured H query unset auto steps).Wants caps
        (caps.needed H query unset steps) := by
  obtain ⟨hmapped, hdisabled⟩ := h.configured
  have hneeded : ∀ v, caps.has v = true →
      (caps.configured H query unset auto steps).xiv v ≠ valuatorDisabled →
      v ∈ caps.needed H query unset steps := by
    intro v hv hne
    rw [Ne, hdisabled v hv, Bool.not_eq_true] at hne
    exact mem_needed.mpr ⟨h.entries v hv, hv, hne⟩
  constructor
  · refine ⟨hmapped.toLinked, fun j v hv => ?_, hmapped.places, hmapped.size, hmapped.small,
      hmapped.known⟩
    refine hneeded v (mem_needed.mp (hmapped.owned j v hv)).2.1 ?_
    rw [(hmapped.table j v).mp hv, valuatorDisabled]
    omega
  · intro v hv hloose
    refine hneeded v hv ?_
    rw [hloose]
    decide

end LinuxConsole.Xinput
