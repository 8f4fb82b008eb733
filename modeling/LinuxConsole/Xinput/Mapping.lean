import LinuxConsole.Xinput.Configure

/-!
# A map of valuators that is right

`Tun.Linked`: the table and the indices of the valuators say the same, and nothing is
behind the end of the table.  `Tun.Mapped` is the invariant: as long as only places that
there are are asked for, the auto-configuration keeps it, which does no more than
`autoSlots` says (`autoconfig_sameMap`), and so does every option (`Tun.Mapped.step`).
-/

namespace LinuxConsole.Xinput

open Tables

/-! ### What the map should be -/

/-- **A partial bijection inside the table.** -/
structure Tun.Linked (tun : Tun) : Prop where
  table : ∀ (j : Nat) v, tun.xvalToLval j = some v ↔ tun.xiv v = j
  inside : ∀ j v, tun.xvalToLval j = some v → (j : Int) < tun.nofXvaluators ∧ j < tun.places

/-- What the auto-configuration maps. -/
def autoSlots (caps : Capabilities) (tun : Tun) : List (Valuator × Nat) :=
  if caps.isMouse then [(.rel relX, 0), (.rel relY, 1)]
  else if caps.isTablet then
    [(.abs absX, 0), (.abs absY, 1)] ++
      (if caps.abs absPressure then [(.abs absPressure, 2)] else []) ++
      (if caps.abs absTiltX then [(.abs absTiltX, 3)] else []) ++
      (if caps.abs absTiltY then [(.abs absTiltY, 4)] else [])
  else if tun.isSixDof caps then
    [(.abs absX, 0), (.abs absY, 1), (.abs absZ, 2), (.abs absRx, 3), (.abs absRy, 4),
      (.abs absRz, 5)]
  else []

/-! ### The invariant -/

variable {caps : Capabilities} {unset : Unset} {vs : List Valuator} {p : Nat} {tun : Tun}

/-- **The invariant** of the map: only valuators of `vs` are in the table, which has `p` places. -/
structure Tun.Mapped (vs : List Valuator) (p : Nat) (tun : Tun) : Prop extends tun.Linked where
  owned : ∀ j v, tun.xvalToLval j = some v → v ∈ vs
  places : tun.places = p
  size : p = 0 ∨ tun.nofXvaluators = p
  small : p < 2 ^ 15
  known : ∀ v, valuatorDisabled ≤ tun.xiv v

/-- What two records say of the map. -/
structure SameMap (a b : Tun) : Prop where
  xiv : a.xiv = b.xiv
  table : a.xvalToLval = b.xvalToLval
  size : a.nofXvaluators = b.nofXvaluators
  places : a.places = b.places
  entries : a.entries = b.entries

theorem SameMap.linked {a b : Tun} (h : SameMap a b) (hb : b.Linked) : a.Linked where
  table := by rw [h.xiv, h.table]; exact hb.table
  inside := by rw [h.table, h.size, h.places]; exact hb.inside

theorem SameMap.mapped {a b : Tun} (h : SameMap a b) (hb : b.Mapped vs p) : a.Mapped vs p where
  toLinked := h.linked hb.toLinked
  owned := by rw [h.table]; exact hb.owned
  places := h.places.trans hb.places
  size := by rw [h.size]; exact hb.size
  small := hb.small
  known := by rw [h.xiv]; exact hb.known

theorem link_xiv (v : Valuator) {x : Nat} (hx : x < 2 ^ 15) (u : Valuator) :
    (tun.link v x).xiv u = if u = v then (x : Int) else tun.xiv u := by
  rw [show (tun.link v x).xiv u = Function.update tun.xiv v (short x) u from rfl,
    short_natCast hx, Function.update_apply]

theorem link_table (v : Valuator) (x j : Nat) :
    (tun.link v x).xvalToLval j = if j = x then some v else tun.xvalToLval j :=
  Function.update_apply ..

theorem Tun.Mapped.lt (h : tun.Mapped vs p) {x : Nat} (hx : x < p) :
    (x : Int) < tun.nofXvaluators ∧ x < tun.places := by
  rw [h.places]
  rcases h.size with hp | hp <;> omega

/-- **A valuator gets a free place.** -/
theorem Tun.Mapped.link (h : tun.Mapped vs p) {v : Valuator} (hv : v ∈ vs) {x : Nat}
    (hx : x < p) (hfree : tun.xvalToLval x = none) (hloose : tun.xiv v < 0) :
    (tun.link v x).Mapped vs p where
  table := by
    intro j u
    rw [link_table, link_xiv v (hx.trans h.small)]
    by_cases hj : j = x
    · rw [if_pos hj]
      by_cases hu : u = v
      · simp [hu, hj]
      · have hnot : tun.xiv u ≠ x := by
          intro hux
          rw [(h.table x u).mpr hux] at hfree
          exact absurd hfree (by simp)
        rw [if_neg hu, hj]
        exact iff_of_false (fun heq => hu (Option.some.inj heq).symm) hnot
    · rw [if_neg hj]
      by_cases hu : u = v
      · rw [if_pos hu, h.table j u, hu]
        constructor
        · intro heq
          omega
        · intro heq
          omega
      · rw [if_neg hu]
        exact h.table j u
  inside := by
    intro j u hu
    rw [link_table] at hu
    split_ifs at hu with hj
    · rw [hj]
      exact h.lt hx
    · exact h.inside j u hu
  owned := by
    intro j u hu
    rw [link_table] at hu
    split_ifs at hu with hj
    · rwa [← Option.some.inj hu]
    · exact h.owned j u hu
  places := h.places
  size := h.size
  small := h.small
  known := by
    intro u
    rw [link_xiv v (hx.trans h.small)]
    split_ifs with hu
    · rw [valuatorDisabled]
      omega
    · exact h.known u

/-! ### Auto-configuration -/

def Tun.links (tun : Tun) (l : List (Valuator × Nat)) : Tun :=
  l.foldl (fun tun p => tun.link p.1 p.2) tun

/-- **Several valuators get free places**, and only they do. -/
theorem Tun.Mapped.links {l : List (Valuator × Nat)} : ∀ {tun : Tun}, tun.Mapped vs p →
    (∀ q ∈ l, q.1 ∈ vs ∧ q.2 < p ∧ tun.xvalToLval q.2 = none ∧ tun.xiv q.1 < 0) →
    (l.map Prod.fst).Nodup → (l.map Prod.snd).Nodup →
    (tun.links l).Mapped vs p ∧ ∀ v, 0 ≤ (tun.links l).xiv v ∨ (tun.links l).xiv v = tun.xiv v := by
  induction l with
  | nil =>
    intro tun h _ _ _
    exact ⟨h, fun _ => Or.inr rfl⟩
  | cons q l ih =>
    intro tun h hl hfst hsnd
    obtain ⟨hmem, hx, hfree, hloose⟩ := hl q (List.mem_cons_self ..)
    have hsmall := hx.trans h.small
    rw [List.map_cons, List.nodup_cons] at hfst hsnd
    have hrest := ih (h.link hmem hx hfree hloose) ?_ hfst.2 hsnd.2
    · refine ⟨hrest.1, fun v => ?_⟩
      rcases hrest.2 v with hpos | hsame
      · exact Or.inl hpos
      · rw [link_xiv q.1 hsmall] at hsame
        split_ifs at hsame with hv
        · exact Or.inl (hsame ▸ Int.natCast_nonneg q.2)
        · exact Or.inr hsame
    · intro r hr
      obtain ⟨hmem', hx', hfree', hloose'⟩ := hl r (List.mem_cons_of_mem q hr)
      have hv : r.1 ≠ q.1 := fun heq => hfst.1 (heq ▸ List.mem_map_of_mem hr)
      have hj : r.2 ≠ q.2 := fun heq => hsnd.1 (heq ▸ List.mem_map_of_mem hr)
      refine ⟨hmem', hx', ?_, ?_⟩
      · rwa [link_table, if_neg hj]
      · rwa [link_xiv q.1 hsmall, if_neg hv]

theorem SameMap.refl (a : Tun) : SameMap a a := ⟨rfl, rfl, rfl, rfl, rfl⟩

theorem SameMap.trans {a b c : Tun} (h : SameMap a b) (h' : SameMap b c) : SameMap a c :=
  ⟨h.xiv.trans h'.xiv, h.table.trans h'.table, h.size.trans h'.size, h.places.trans h'.places,
    h.entries.trans h'.entries⟩

theorem SameMap.symm {a b : Tun} (h : SameMap a b) : SameMap b a :=
  ⟨h.xiv.symm, h.table.symm, h.size.symm, h.places.symm, h.entries.symm⟩

theorem SameMap.link {a b : Tun} (h : SameMap a b) (v : Valuator) (x : Nat) :
    SameMap (a.link v x) (b.link v x) where
  xiv := by rw [Tun.link, Tun.link, h.xiv]
  table := by rw [Tun.link, Tun.link, h.table]
  size := h.size
  places := h.places
  entries := h.entries

theorem sameMap_buttonTest (a : Tun) (l x : Int) : SameMap (a.buttonTest caps l x) a := by
  rw [Tun.buttonTest]
  split_ifs
  · exact ⟨rfl, rfl, rfl, rfl, rfl⟩
  · exact .refl a

theorem SameMap.linkAsRel {a b : Tun} (h : SameMap a b) (v : Valuator) (x : Nat) :
    SameMap (a.linkAsRel v x) (b.link v x) :=
  SameMap.link (a := { a with absIsRelspeed := Function.update a.absIsRelspeed v true })
    ⟨h.xiv, h.table, h.size, h.places, h.entries⟩ v x

theorem links_append (l m : List (Valuator × Nat)) :
    tun.links (l ++ m) = (tun.links l).links m := List.foldl_append

theorem SameMap.linkIf {a b : Tun} (h : SameMap a b) (c : Bool) (v : Valuator) (x : Nat) :
    SameMap (if c then a.link v x else a) (b.links (if c then [(v, x)] else [])) := by
  cases c with
  | false => exact h
  | true => exact h.link v x

/-- **The auto-configuration** maps what it finds, and else changes no more than what is
said of the valuators and of the buttons. -/
theorem autoconfig_sameMap (tun : Tun) :
    SameMap (tunAutoconfigDeviceRec caps tun) (tun.links (autoSlots caps tun)) := by
  rw [tunAutoconfigDeviceRec, autoSlots]
  by_cases hmouse : caps.isMouse = true
  · rw [if_pos hmouse, if_pos hmouse]
    have hbuttons := fun a : Tun => ((@sameMap_buttonTest caps
      ((a.buttonTest caps btnLeft 1).buttonTest caps btnRight 2) btnMiddle 3).trans
      (sameMap_buttonTest _ btnRight 2)).trans (sameMap_buttonTest a btnLeft 1)
    have hwheel : ∀ a : Tun, SameMap (if caps.rel relWheel then
        { a with mouseWheelHack := Function.update a.mouseWheelHack (.rel relWheel) true }
        else a) a := by
      intro a
      split_ifs
      · exact ⟨rfl, rfl, rfl, rfl, rfl⟩
      · exact .refl a
    have hall := (hbuttons _).trans (hwheel ((tun.link (.rel relX) 0).link (.rel relY) 1))
    exact ⟨hall.xiv, hall.table, hall.size, hall.places, hall.entries⟩
  · rw [if_neg hmouse, if_neg hmouse]
    by_cases htablet : caps.isTablet = true
    · rw [if_pos htablet, if_pos htablet, links_append, links_append, links_append]
      have hupside : SameMap
          { (tun.link (.abs absX) 0).link (.abs absY) 1 with
            upsidedown := Function.update
              ((tun.link (.abs absX) 0).link (.abs absY) 1).upsidedown (.abs absY) true }
          (tun.links [(.abs absX, 0), (.abs absY, 1)]) := ⟨rfl, rfl, rfl, rfl, rfl⟩
      have hlinks := ((hupside.linkIf (caps.abs absPressure) (.abs absPressure) 2).linkIf
        (caps.abs absTiltX) (.abs absTiltX) 3).linkIf (caps.abs absTiltY) (.abs absTiltY) 4
      have hbuttons := fun a : Tun => ((@sameMap_buttonTest caps
        ((a.button btnTouch 1).buttonTest caps btnStylus 2) btnToolPen buttonProximity).trans
        (sameMap_buttonTest _ btnStylus 2)).trans
        (show SameMap (a.button btnTouch 1) a from ⟨rfl, rfl, rfl, rfl, rfl⟩)
      have hall := (hbuttons _).trans hlinks
      exact ⟨hall.xiv, hall.table, hall.size, hall.places, hall.entries⟩
    · rw [if_neg htablet, if_neg htablet]
      by_cases hsix : tun.isSixDof caps = true
      · rw [if_pos hsix, if_pos hsix]
        have hlow := (((SameMap.refl tun).linkAsRel (.abs absX) 0).linkAsRel
          (.abs absY) 1).linkAsRel (.abs absZ) 2
        have hall := ((hlow.linkAsRel (.abs absRx) 3).linkAsRel (.abs absRy) 4).linkAsRel
          (.abs absRz) 5
        exact ⟨hall.xiv, hall.table, hall.size, hall.places, hall.entries⟩
      · rw [if_neg hsix, if_neg hsix]
        exact .refl tun

theorem autoSlots_nodup (tun : Tun) :
    ((autoSlots caps tun).map Prod.fst).Nodup ∧ ((autoSlots caps tun).map Prod.snd).Nodup := by
  rw [autoSlots]
  split_ifs <;> decide

theorem has_autoSlots (tun : Tun) : ∀ q ∈ autoSlots caps tun, caps.has q.1 = true := by
  intro q hq
  rw [autoSlots] at hq
  by_cases hmouse : caps.isMouse = true
  · rw [if_pos hmouse] at hq
    simp only [Capabilities.isMouse, Bool.and_eq_true] at hmouse
    simp only [List.mem_cons, List.not_mem_nil, or_false] at hq
    rcases hq with rfl | rfl
    · exact hmouse.1.1
    · exact hmouse.1.2
  · rw [if_neg hmouse] at hq
    by_cases htablet : caps.isTablet = true
    · rw [if_pos htablet] at hq
      simp only [Capabilities.isTablet, Bool.and_eq_true] at htablet
      simp only [List.mem_append, List.mem_cons, List.not_mem_nil, or_false,
        List.mem_ite_nil_right] at hq
      rcases hq with (((rfl | rfl) | ⟨h, rfl⟩) | ⟨h, rfl⟩) | ⟨h, rfl⟩
      · exact htablet.1.1
      · exact htablet.1.2
      · exact h
      · exact h
      · exact h
    · rw [if_neg htablet] at hq
      by_cases hsix : tun.isSixDof caps = true
      · rw [if_pos hsix] at hq
        rw [Tun.isSixDof, Bool.and_eq_true, List.all_eq_true] at hsix
        simp only [List.mem_cons, List.not_mem_nil, or_false] at hq
        rcases hq with rfl | rfl | rfl | rfl | rfl | rfl <;> exact hsix.1 _ (by simp [sixAxes])
      · rw [if_neg hsix] at hq
        exact absurd hq List.not_mem_nil

/-! ### Options -/

/-- **A valuator is loose**: the map is right but for it, and the table does not have it. -/
structure Tun.Loose (vs : List Valuator) (p : Nat) (tun : Tun) (v : Valuator) : Prop where
  table : ∀ (j : Nat) u, u ≠ v → (tun.xvalToLval j = some u ↔ tun.xiv u = j)
  absent : ∀ j, tun.xvalToLval j ≠ some v
  inside : ∀ j u, tun.xvalToLval j = some u → (j : Int) < tun.nofXvaluators ∧ j < tun.places
  owned : ∀ j u, tun.xvalToLval j = some u → u ∈ vs
  places : tun.places = p
  size : p = 0 ∨ tun.nofXvaluators = p
  small : p < 2 ^ 15
  known : ∀ u, u ≠ v → valuatorDisabled ≤ tun.xiv u

theorem forget_table (h : tun.Mapped vs p) (v : Valuator) (j : Nat) :
    (tun.forget v).xvalToLval j =
      if tun.xvalToLval j = some v then none else tun.xvalToLval j := by
  rw [Tun.forget]
  by_cases hv : tun.xiv v ≥ 0
  · rw [if_pos hv]
    change Function.update tun.xvalToLval (tun.xiv v).toNat none j = _
    rw [Function.update_apply]
    by_cases hj : j = (tun.xiv v).toNat
    · have hmem : tun.xvalToLval j = some v := (h.table j v).mpr (by omega)
      rw [if_pos hj, if_pos hmem]
    · have hmem : tun.xvalToLval j ≠ some v := by
        intro hmem
        have hxiv := (h.table j v).mp hmem
        omega
      rw [if_neg hj, if_neg hmem]
  · have hmem : tun.xvalToLval j ≠ some v := by
      intro hmem
      have hxiv := (h.table j v).mp hmem
      omega
    rw [if_neg hv, if_neg hmem]

theorem forget_rest (tun : Tun) (v : Valuator) : (tun.forget v).xiv = tun.xiv ∧
    (tun.forget v).nofXvaluators = tun.nofXvaluators ∧ (tun.forget v).places = tun.places := by
  rw [Tun.forget]
  split_ifs <;> exact ⟨rfl, rfl, rfl⟩

theorem Tun.Mapped.forget (h : tun.Mapped vs p) (v : Valuator) :
    Tun.Loose vs p (tun.forget v) v := by
  obtain ⟨hxiv, hsize, hplaces⟩ := forget_rest tun v
  have hmem : ∀ j u, (tun.forget v).xvalToLval j = some u → u ≠ v ∧ tun.xvalToLval j = some u := by
    intro j u hu
    rw [forget_table h] at hu
    split_ifs at hu with hv
    · exact ⟨fun heq => hv (heq ▸ hu), hu⟩
  constructor
  · intro j u hu
    rw [hxiv, ← h.table j u]
    constructor
    · exact fun hj => (hmem j u hj).2
    · intro hj
      have hne : tun.xvalToLval j ≠ some v := by
        rw [hj]
        exact fun heq => hu (Option.some.inj heq)
      rwa [forget_table h, if_neg hne]
  · exact fun j hj => (hmem j v hj).1 rfl
  · intro j u hj
    rw [hsize, hplaces]
    exact h.inside j u (hmem j u hj).2
  · exact fun j u hj => h.owned j u (hmem j u hj).2
  · exact hplaces.trans h.places
  · rw [hsize]
    exact h.size
  · exact h.small
  · intro u _
    rw [hxiv]
    exact h.known u

/-- **A loose valuator is disabled.** -/
theorem Tun.Loose.disable {v : Valuator} (h : Tun.Loose vs p tun v) :
    Tun.Mapped vs p { tun with xiv := Function.update tun.xiv v valuatorDisabled } := by
  have hxiv : ∀ u, Function.update tun.xiv v valuatorDisabled u =
      if u = v then valuatorDisabled else tun.xiv u := Function.update_apply _ _ _
  constructor
  · constructor
    · intro j u
      simp only [hxiv]
      by_cases hu : u = v
      · rw [if_pos hu, hu]
        refine iff_of_false (h.absent j) ?_
        rw [valuatorDisabled]
        omega
      · rw [if_neg hu]
        exact h.table j u hu
    · exact h.inside
  · exact h.owned
  · exact h.places
  · exact h.size
  · exact h.small
  · intro u
    simp only [hxiv]
    split_ifs with hu
    · exact Int.le_refl _
    · exact h.known u hu

theorem unassign_xiv (o : Option Valuator) (u : Valuator) :
    (tun.unassign o).xiv u = if o = some u then valuatorUnassigned else tun.xiv u := by
  cases o with
  | none => rfl
  | some w =>
    change Function.update tun.xiv w valuatorUnassigned u = _
    rw [Function.update_apply]
    simp only [Option.some.injEq, eq_comm]

theorem unassign_rest (o : Option Valuator) : (tun.unassign o).xvalToLval = tun.xvalToLval ∧
    (tun.unassign o).nofXvaluators = tun.nofXvaluators ∧
      (tun.unassign o).places = tun.places := by
  cases o <;> exact ⟨rfl, rfl, rfl⟩

/-- The index of a valuator when another has taken a place. -/
theorem take_xiv {v : Valuator} {num : Nat} (hnum : num < 2 ^ 15) (u : Valuator) :
    ((tun.unassign (tun.xvalToLval num)).link v num).xiv u =
      if u = v then (num : Int)
      else if tun.xvalToLval num = some u then valuatorUnassigned else tun.xiv u := by
  rw [link_xiv v hnum, unassign_xiv]

/-- **A loose valuator takes a place**, and another that had it is without one. -/
theorem Tun.Loose.take {v : Valuator} (h : Tun.Loose vs p tun v) (hv : v ∈ vs)
    {num : Nat} (hnum : num < p) :
    ((tun.unassign (tun.xvalToLval num)).link v num).Mapped vs p := by
  obtain ⟨htables, hsize, hplaces⟩ := @unassign_rest tun (tun.xvalToLval num)
  have htable : ∀ j, ((tun.unassign (tun.xvalToLval num)).link v num).xvalToLval j =
      if j = num then some v else tun.xvalToLval j := by
    intro j
    rw [link_table, htables]
  have hxiv := @take_xiv tun v num (hnum.trans h.small)
  constructor
  · constructor
    · intro j u
      rw [htable, hxiv]
      by_cases hu : u = v
      · rw [if_pos hu, hu]
        by_cases hj : j = num
        · simp [hj]
        · rw [if_neg hj]
          exact iff_of_false (h.absent j) (by omega)
      · rw [if_neg hu]
        by_cases hj : j = num
        · -- the place is taken, so the index is another
          rw [if_pos hj, hj]
          refine iff_of_false (fun heq => hu (Option.some.inj heq).symm) ?_
          split_ifs with hold
          · rw [valuatorUnassigned]
            omega
          · exact fun heq => hold ((h.table num u hu).mpr heq)
        · rw [if_neg hj]
          split_ifs with hold
          · have hxiv' := (h.table num u hu).mp hold
            rw [h.table j u hu, hxiv', valuatorUnassigned]
            exact iff_of_false (by omega) (by omega)
          · exact h.table j u hu
    · intro j u hj
      change (j : Int) < (tun.unassign (tun.xvalToLval num)).nofXvaluators ∧
        j < (tun.unassign (tun.xvalToLval num)).places
      rw [hsize, hplaces]
      rw [htable] at hj
      split_ifs at hj with hnew
      · rw [hnew, h.places]
        rcases h.size with hp | hp <;> omega
      · exact h.inside j u hj
  · intro j u hj
    rw [htable] at hj
    split_ifs at hj with hnew
    · rwa [← Option.some.inj hj]
    · exact h.owned j u hj
  · exact hplaces.trans h.places
  · exact h.size.imp_right hsize.trans
  · exact h.small
  · intro u
    rw [hxiv]
    split_ifs with hu hold
    · rw [valuatorDisabled]
      omega
    · decide
    · exact h.known u hu

/-- The table is long enough for a place that there is. -/
theorem force_of_lt {n : Nat} (h : (n : Int) < tun.nofXvaluators) :
    tun.forceXValuators unset n = tun := by
  rw [Tun.forceXValuators, if_neg (by omega)]

theorem Tun.Mapped.config_map (h : tun.Mapped vs p) (v : Valuator) {num : Nat} (hnum : num < p) :
    tun.config unset v (.map num) =
      ((tun.forget v).unassign ((tun.forget v).xvalToLval num)).link v num := by
  rw [Tun.config, force_of_lt]
  rw [(forget_rest tun v).2.1]
  exact (h.lt hnum).1

/-- **An option** keeps the map if its place is there. -/
theorem Tun.Mapped.step (h : tun.Mapped vs p) {s : Valuator × Option33}
    (hmem : caps.has s.1 = true → s.1 ∈ vs)
    (hfits : caps.has s.1 = true → ∀ num, s.2 = .map num → num < p) :
    (tun.step caps unset s).Mapped vs p := by
  obtain ⟨v, o⟩ := s
  rw [Tun.step]
  split_ifs with hv
  · cases o with
    | map num =>
      have hnum := hfits hv num rfl
      rw [h.config_map v hnum]
      exact (h.forget v).take (hmem hv) hnum
    | disable => exact (h.forget v).disable
  · exact h

/-- **What is disabled** after an option: of its valuator the option decides. -/
theorem Tun.Mapped.step_disabled (h : tun.Mapped vs p) {s : Valuator × Option33}
    (hv : caps.has s.1 = true) (hfits : ∀ num, s.2 = .map num → num < p) (u : Valuator) :
    (tun.step caps unset s).xiv u = valuatorDisabled ↔
      if s.1 = u then s.2 = .disable else tun.xiv u = valuatorDisabled := by
  obtain ⟨v, o⟩ := s
  obtain ⟨hxiv, -, -⟩ := forget_rest tun v
  rw [Tun.step, if_pos hv]
  cases o with
  | map num =>
    have hnum := hfits num rfl
    rw [h.config_map v hnum, take_xiv (hnum.trans h.small), hxiv]
    by_cases hu : v = u
    · rw [if_pos hu.symm, if_pos hu, valuatorDisabled]
      exact iff_of_false (by omega) (by simp)
    · rw [if_neg (Ne.symm hu), if_neg hu]
      split_ifs with hold
      · have hplace := ((h.forget v).table num u (Ne.symm hu)).mp hold
        rw [hxiv] at hplace
        rw [hplace, valuatorUnassigned, valuatorDisabled]
        exact iff_of_false (by omega) (by omega)
      · exact Iff.rfl
  | disable =>
    change Function.update (tun.forget v).xiv v valuatorDisabled u = _ ↔ _
    rw [Function.update_apply, hxiv]
    by_cases hu : v = u
    · rw [if_pos hu.symm, if_pos hu]
      exact iff_of_true rfl rfl
    · rw [if_neg (Ne.symm hu), if_neg hu]

end LinuxConsole.Xinput
