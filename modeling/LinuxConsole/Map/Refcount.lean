import Mathlib.Data.Fintype.Basic
import LinuxConsole.Lib.References
import LinuxConsole.Lib.Run
import LinuxConsole.Map.Unimap

/-!
# The reference counts of the Unicode maps

The holders of a directory are the location cells that the consoles designate.
`RefCounts e s` says that the count of every live directory is the number of
its holders, that a directory is live exactly as long as it has a holder, and
that `dflt` points to a live one.

Every function is compared with a move of `Lib.Balanced.retarget`: it points
one cell somewhere else and brings two counts up to date.  One function is not
such a move.  When `dflt` is set and the console has another map,
`con_set_default_unimap` gives the old map back under the wrong test,
`if (p && --p->refcount)`: a map that others still use is released, and one
that nobody uses any more is kept.  `refcounts_iff` says that this and the
unification of a shared map, which no caller asks for, are the only steps that
upset the counts.
-/

namespace LinuxConsole

open Lib

variable {C L : Type} [Fintype C] [DecidableEq L]

/-- The location cells that the consoles designate. -/
def MapEnv.cells (e : MapEnv C L) : Finset L := Finset.univ.image e.loc

/-- The counts of the live directories. -/
def Maps.refs (s : Maps L) (p : Nat) : Option Nat := (s.heap.dir p).map (·.refcount)

/-- The reference counts are right. -/
structure RefCounts (e : MapEnv C L) (s : Maps L) : Prop where
  count : ∀ p d, s.heap.dir p = some d → d.refcount = holders e.cells s.cell p
  released : ∀ p, s.heap.dir p = none ↔ holders e.cells s.cell p = 0
  dflt_live : ∀ p, s.dflt = some p → s.heap.dir p ≠ none

/-- `dflt` does not dangle. -/
def DfltLive (s : Maps L) : Prop := ∀ p, s.dflt = some p → s.heap.dir p ≠ none

theorem mem_cells (e : MapEnv C L) (vc : C) : e.loc vc ∈ e.cells :=
  Finset.mem_image_of_mem _ (Finset.mem_univ vc)

theorem refCounts_iff {e : MapEnv C L} {s : Maps L} :
    RefCounts e s ↔ Balanced e.cells s.cell s.refs ∧ DfltLive s := by
  constructor
  · intro h
    refine ⟨fun p => ?_, h.dflt_live⟩
    cases hd : s.heap.dir p with
    | none => rw [(h.released p).mp hd, Maps.refs, hd]; rfl
    | some d =>
      have hpos : holders e.cells s.cell p ≠ 0 := by
        intro hzero
        rw [(h.released p).mpr hzero] at hd
        cases hd
      rw [Maps.refs, hd, Option.map_some]
      exact (tally_eq_some.mpr ⟨(h.count p d hd).symm, by rw [h.count p d hd]; omega⟩).symm
  · rintro ⟨hb, hdflt⟩
    refine ⟨fun p d hd => ?_, fun p => ?_, hdflt⟩
    · exact ((hb.count (by rw [Maps.refs, hd]; rfl)).1).symm
    · rw [← tally_eq_none, ← hb p, Maps.refs, Option.map_eq_none_iff]

/-! ### What the pieces do to the counts -/

section Pieces

omit [Fintype C] [DecidableEq L]

@[simp] theorem refs_brk (s : Maps L) : s.refs s.heap.brk = none := by
  simp [Maps.refs, s.heap.unused s.heap.brk (Nat.le_refl _)]

theorem refs_eq_some {s : Maps L} {p n : Nat} :
    s.refs p = some n ↔ ∃ d, s.heap.dir p = some d ∧ d.refcount = n := by
  simp [Maps.refs]

theorem refs_modify (s : Maps L) (p : Nat) (f : UniPagedir → UniPagedir) :
    (s.modify p f).refs =
      Function.update s.refs p ((s.heap.dir p).map fun d => (f d).refcount) := by
  funext q
  by_cases h : q = p
  · subst h; simp [Maps.refs, Maps.modify, DirHeap.modify, Function.comp_def]
  · simp [Maps.refs, Maps.modify, DirHeap.modify, h]

/-- A change that keeps the count of the directory keeps all counts. -/
theorem refs_modify_keep (s : Maps L) (p : Nat) {f : UniPagedir → UniPagedir}
    (hf : ∀ d, s.heap.dir p = some d → (f d).refcount = d.refcount) :
    (s.modify p f).refs = s.refs := by
  rw [refs_modify]
  refine Function.update_eq_self_iff.mpr ?_
  cases hd : s.heap.dir p with
  | none => rw [Maps.refs, hd]; rfl
  | some d => rw [Maps.refs, hd, Option.map_some, Option.map_some, hf d hd]

theorem refs_incr {s : Maps L} {p n : Nat} (h : s.refs p = some n) :
    (s.modify p UniPagedir.incr).refs = addRef s.refs (some p) := by
  obtain ⟨d, hd, rfl⟩ := refs_eq_some.mp h
  rw [refs_modify, addRef, h, hd]
  rfl

theorem refs_decr {s : Maps L} {p n : Nat} (h : s.refs p = some n) :
    (s.modify p UniPagedir.decr).refs = Function.update s.refs p (some (n - 1)) := by
  obtain ⟨d, hd, rfl⟩ := refs_eq_some.mp h
  rw [refs_modify, hd]
  rfl

theorem refs_release (s : Maps L) (p : Nat) : (conReleaseUnimap s p).refs = s.refs :=
  refs_modify_keep (s.forgetDflt p) p fun _ _ => rfl

theorem refs_releaseAndFree (s : Maps L) (p : Nat) :
    (releaseAndFree s p).refs = Function.update s.refs p none := by
  funext q
  by_cases h : q = p
  · subst h; simp [Maps.refs, releaseAndFree, DirHeap.free]
  · rw [Function.update_of_ne h, ← refs_release s p]
    simp [Maps.refs, releaseAndFree, DirHeap.free, h]

theorem DfltLive.modify {s : Maps L} (h : DfltLive s) (p : Nat) (f : UniPagedir → UniPagedir) :
    DfltLive (s.modify p f) := by
  intro q hq
  have hlive := h q hq
  by_cases hp : q = p
  · subst hp
    simpa [Maps.modify, DirHeap.modify] using hlive
  · simpa [Maps.modify, DirHeap.modify, hp] using hlive

theorem forgetDflt_eq_some {s : Maps L} {p q : Nat} :
    (s.forgetDflt p).dflt = some q ↔ s.dflt = some q ∧ q ≠ p := by
  unfold Maps.forgetDflt
  dsimp only
  split
  · next h => rw [h]; simp; exact fun h => h.symm
  · next h =>
    refine ⟨fun hq => ⟨hq, ?_⟩, And.left⟩
    rintro rfl
    exact h hq

theorem DfltLive.forget {s : Maps L} (h : DfltLive s) (p : Nat) : DfltLive (s.forgetDflt p) :=
  fun q hq => h q (forgetDflt_eq_some.mp hq).1

theorem DfltLive.release {s : Maps L} (h : DfltLive s) (p : Nat) :
    DfltLive (conReleaseUnimap s p) :=
  (h.forget p).modify p UniPagedir.emptied

theorem DfltLive.releaseAndFree {s : Maps L} (h : DfltLive s) (p : Nat) :
    DfltLive (releaseAndFree s p) := by
  intro q hq
  have hne : q ≠ p := (forgetDflt_eq_some.mp hq).2
  have hlive := h.release p q hq
  simpa [LinuxConsole.releaseAndFree, DirHeap.free, hne] using hlive

theorem DfltLive.alloc {s : Maps L} (h : DfltLive s) (d : UniPagedir) (k : Nat → Bool) :
    DfltLive { s with heap := s.heap.alloc d, kmalloc := k } := by
  intro q hq
  have hlive := h q hq
  have hne : q ≠ s.heap.brk := by
    rintro rfl
    exact hlive (s.heap.unused _ (Nat.le_refl _))
  simpa [DirHeap.alloc, hne] using hlive

end Pieces

/-! ### Filling a directory keeps its count -/

section Filling

omit [Fintype C] [DecidableEq L]

/-- A loop that leaves the count of the directory it fills alone. -/
def KeepsCount (g : Filling → Filling) : Prop := ∀ f, (g f).dir.refcount = f.dir.refcount

theorem keepsCount_foldl {α : Type*} {g : Filling → α → Filling}
    (h : ∀ a, KeepsCount fun f => g f a) (as : List α) : KeepsCount fun f => as.foldl g f := by
  intro f
  induction as generalizing f with
  | nil => rfl
  | cons a as ih => exact (ih (g f a)).trans (h a f)

theorem insertInRow_refcount (k : Nat → Bool) (d : UniPagedir) (p1 : PageRow) (u g : Nat) :
    (insertInRow k d p1 u g).dir.refcount = d.refcount := by
  unfold insertInRow
  split
  · rfl
  · split <;> rfl

theorem conInsertUnipair_refcount (k : Nat → Bool) (d : UniPagedir) (u g : Nat) :
    (conInsertUnipair k d u g).dir.refcount = d.refcount := by
  unfold conInsertUnipair
  split
  · exact insertInRow_refcount _ _ _ _ _
  · split
    · exact insertInRow_refcount _ _ _ _ _
    · rfl

theorem keepsCount_insertPair (u g : Nat) : KeepsCount fun f => insertPair f u g :=
  fun f => conInsertUnipair_refcount f.kmalloc f.dir u g

theorem keepsCount_insertList (list : List Unipair) : KeepsCount fun f => insertList f list :=
  keepsCount_foldl (fun _ => keepsCount_insertPair _ _) list

theorem keepsCount_insertPairs (pairs : List (Nat × Nat)) : KeepsCount (insertPairs pairs) := by
  have hpair : ∀ u : Nat × Nat, KeepsCount fun f => insertPair f u.1 u.2 :=
    fun u => keepsCount_insertPair u.1 u.2
  exact keepsCount_foldl hpair pairs

theorem keepsCount_setInverses (e : MapEnv C L) : KeepsCount (setInverses e) := by
  refine keepsCount_foldl (fun i f => ?_) [CharMap.lat1, .graf, .ibmpc, .user]
  unfold setInverseTransl
  dsimp only
  split
  · rfl
  · split <;> rfl

theorem copyGlyph_refcount (p2 : Page) (c : Copying) (k : Nat) :
    (copyGlyph p2 c k).q.dir.refcount = c.q.dir.refcount := by
  unfold copyGlyph
  split
  · rfl
  · split
    · exact conInsertUnipair_refcount _ _ _ _
    · rfl

private theorem foldl_refcount {α : Type*} {g : Copying → α → Copying}
    (h : ∀ c a, (g c a).q.dir.refcount = c.q.dir.refcount) (as : List α) (c : Copying) :
    (as.foldl g c).q.dir.refcount = c.q.dir.refcount := by
  induction as generalizing c with
  | nil => rfl
  | cons a as ih => exact (ih (g c a)).trans (h c a)

theorem copyPage_refcount (c : Copying) (p2 : Page) :
    (copyPage c p2).q.dir.refcount = c.q.dir.refcount := by
  unfold copyPage
  exact foldl_refcount (copyGlyph_refcount p2) (List.range 64) c

theorem copyRow_refcount (c : Copying) (p1 : PageRow) :
    (copyRow c p1).q.dir.refcount = c.q.dir.refcount := by
  refine foldl_refcount (fun c j => ?_) (List.range 32) c
  split
  · rfl
  · exact copyPage_refcount c _

theorem keepsCount_copyPagedir (d : UniPagedir) : KeepsCount (copyPagedir d) := by
  intro f
  refine foldl_refcount (fun c i => ?_) (List.range 32) ⟨f, 0⟩
  split
  · rfl
  · exact copyRow_refcount c _

variable {s : Maps L} {p : Nat} {g : Filling → Filling}

@[simp] theorem fill_cell (s : Maps L) (p : Nat) (g : Filling → Filling) :
    (s.fill p g).1.cell = s.cell := by
  unfold Maps.fill
  split <;> rfl

@[simp] theorem fill_dflt (s : Maps L) (p : Nat) (g : Filling → Filling) :
    (s.fill p g).1.dflt = s.dflt := by
  unfold Maps.fill
  split <;> rfl

theorem refs_fill (s : Maps L) (p : Nat) (hg : KeepsCount g) :
    (s.fill p g).1.refs = s.refs := by
  unfold Maps.fill
  split
  · rfl
  · next d hd =>
    refine refs_modify_keep s p fun d' hd' => ?_
    obtain rfl : d = d' := Option.some.inj (hd.symm.trans hd')
    exact hg _

theorem DfltLive.fill (h : DfltLive s) : DfltLive (s.fill p g).1 := by
  unfold Maps.fill
  split
  · exact h
  · exact h.modify p _

end Filling

/-! ### One lemma per function -/

section Functions

variable {e : MapEnv C L} {s : Maps L} {vc : C} {p q : Nat}

omit [Fintype C] [DecidableEq L] in
private theorem dropRef_eq {refs : Nat → Option Nat} {n : Nat} (h : refs p = some n) :
    dropRef refs (some p) = Function.update refs p (tally (n - 1)) := by
  rw [dropRef, h]
  rfl

/-- The console leaves its map, of which it is the only holder, for another. -/
theorem Balanced.moveOff (hb : Balanced e.cells s.cell s.refs)
    (hcell : s.cell (e.loc vc) = some p) (hone : s.refs p = some 1) {n : Nat}
    (hq : s.refs q = some n) (hne : q ≠ p) :
    Balanced e.cells
      (releaseAndFree ((s.modify q UniPagedir.incr).setCell (e.loc vc) (some q)) p).cell
      (releaseAndFree ((s.modify q UniPagedir.incr).setCell (e.loc vc) (some q)) p).refs := by
  have hmove := Balanced.retarget hb (mem_cells e vc) (some q)
  have hp : addRef s.refs (some q) p = some 1 := by
    rw [addRef, Function.update_of_ne (Ne.symm hne), hone]
  rw [hcell, dropRef_eq hp] at hmove
  have hrefs : (releaseAndFree ((s.modify q UniPagedir.incr).setCell (e.loc vc) (some q)) p).refs =
      Function.update (addRef s.refs (some q)) p none := by
    rw [refs_releaseAndFree, ← refs_incr hq]
    rfl
  rw [hrefs]
  exact hmove

omit [Fintype C] [DecidableEq L] in
/-- A map that the unification finds is another one, and live. -/
theorem unifyMatch_spec {d : UniPagedir} (h : unifyMatch e s vc p d = some q) :
    q ≠ p ∧ ∃ dq, s.heap.dir q = some dq ∧ samePagedir d dq = true := by
  obtain ⟨tmp, -, htmp⟩ := List.exists_of_findSome?_eq_some h
  obtain ⟨c, -, hc⟩ := Option.bind_eq_some_iff.mp htmp
  unfold unifiable at hc
  split at hc
  · cases hc
  · split at hc
    · cases hc
    · split at hc
      · cases hc
      · next r hr hne _ dq hdq =>
        split at hc
        · cases hc
        · split at hc
          · cases hc
            exact ⟨hne, dq, hdq, ‹_›⟩
          · cases hc

omit [Fintype C] in
theorem conUnifyUnimap_none (vc : C) (h : (conUnifyUnimap e s vc p).2 = false) :
    (conUnifyUnimap e s vc p).1 = s := by
  unfold conUnifyUnimap at h ⊢
  split
  · rfl
  · next hd =>
    simp only [hd] at h
    split
    · rfl
    · next hq => simp [hq] at h

theorem RefCounts.conUnifyUnimap (h : RefCounts e s) (hcell : s.cell (e.loc vc) = some p)
    (hone : s.refs p = some 1) : RefCounts e (conUnifyUnimap e s vc p).1 := by
  obtain ⟨hb, hdflt⟩ := refCounts_iff.mp h
  unfold LinuxConsole.conUnifyUnimap
  split
  · exact h
  · split
    · exact h
    · next q hq =>
      obtain ⟨hne, dq, hdq, -⟩ := unifyMatch_spec hq
      have hlive : s.refs q = some dq.refcount := by rw [Maps.refs, hdq]; rfl
      exact refCounts_iff.mpr ⟨Balanced.moveOff hb hcell hone hlive hne,
        (hdflt.modify q _).releaseAndFree p⟩

theorem RefCounts.of_eq {s' : Maps L} (h : RefCounts e s) (hcell : s'.cell = s.cell)
    (hrefs : s'.refs = s.refs) (hdflt : DfltLive s') : RefCounts e s' := by
  rw [refCounts_iff, hcell, hrefs]
  exact ⟨(refCounts_iff.mp h).1, hdflt⟩

theorem RefCounts.fill {g : Filling → Filling} (h : RefCounts e s) (hg : KeepsCount g) :
    RefCounts e (s.fill p g).1 :=
  h.of_eq (fill_cell s p g) (refs_fill s p hg) (DfltLive.fill h.dflt_live)

/-- The count of the map that a console's cell points to. -/
theorem RefCounts.own (h : RefCounts e s) (vc : C) (hcell : s.cell (e.loc vc) = some p) :
    ∃ d, s.heap.dir p = some d ∧ 0 < d.refcount := by
  obtain ⟨n, hn⟩ := (refCounts_iff.mp h).1.recorded (mem_cells e vc) hcell
  obtain ⟨d, hd, hcount⟩ := refs_eq_some.mp hn
  exact ⟨d, hd, by omega⟩

omit [Fintype C] [DecidableEq L] in
/-- Taking a reference back restores the state. -/
theorem modify_decr_incr {d : UniPagedir} (hd : s.heap.dir p = some d) (hpos : 0 < d.refcount) :
    (s.modify p UniPagedir.decr).modify p UniPagedir.incr = s := by
  have hback : d.decr.incr = d := by
    simp only [UniPagedir.decr, UniPagedir.incr, Nat.sub_add_cancel hpos]
  have hdir : (DirHeap.modify (s.heap.modify p UniPagedir.decr) p UniPagedir.incr).dir =
      s.heap.dir := by
    funext q
    by_cases h : q = p
    · subst h
      simp [DirHeap.modify, hd, hback]
    · simp [DirHeap.modify, h]
  have hheap : DirHeap.modify (s.heap.modify p UniPagedir.decr) p UniPagedir.incr = s.heap := by
    cases hs : s.heap with
    | mk dir brk unused =>
      rw [hs] at hdir
      simp only [DirHeap.modify, DirHeap.mk.injEq, and_true]
      exact hdir
  simp only [Maps.modify, hheap]

omit [Fintype C] in
/-- A new directory has one holder, the console's cell. -/
theorem clearFresh_ok (vc : C) (hk : s.kmalloc 0 = true) (o : Option Nat) :
    (clearFresh e s vc o).2 = .ok ∧
      (clearFresh e s vc o).1.cell = Function.update s.cell (e.loc vc) (some s.heap.brk) ∧
      (clearFresh e s vc o).1.refs = Function.update s.refs s.heap.brk (some 1) ∧
      (DfltLive s → DfltLive (clearFresh e s vc o).1) := by
  unfold clearFresh
  rw [if_pos hk]
  refine ⟨rfl, rfl, ?_, fun h => h.alloc _ fun n => s.kmalloc (n + 1)⟩
  funext q
  by_cases h : q = s.heap.brk
  · subst h; simp [Maps.refs, Maps.setCell, DirHeap.alloc]
  · simp [Maps.refs, Maps.setCell, DirHeap.alloc, h]

omit [Fintype C] in
theorem clearFresh_fail (hk : s.kmalloc 0 = false) :
    clearFresh e s vc none = ({ s with kmalloc := fun n => s.kmalloc (n + 1) }, .enomem) := by
  simp [clearFresh, hk]

omit [Fintype C] in
/-- When there is no memory for the new directory the count goes back up. -/
theorem clearFresh_fail_shared {d : UniPagedir} (hk : s.kmalloc 0 = false)
    (hd : s.heap.dir p = some d) (hpos : 0 < d.refcount) :
    clearFresh e (s.modify p UniPagedir.decr) vc (some p) =
      ({ s with kmalloc := fun n => s.kmalloc (n + 1) }, .enomem) := by
  have hback := modify_decr_incr hd hpos
  have hheap : ((s.modify p UniPagedir.decr).modify p UniPagedir.incr).heap = s.heap := by
    rw [hback]
  simp only [Maps.modify] at hheap
  simp [clearFresh, hk, Maps.modify, hheap]

/-- What a console has after `con_clear_unimap`: a map of its own.  A shared
map has one reference less. -/
theorem RefCounts.conClearUnimap (h : RefCounts e s) (vc : C) :
    RefCounts e (conClearUnimap e s vc).1 ∧
      ((LinuxConsole.conClearUnimap e s vc).2 = .ok →
        ∃ q, (LinuxConsole.conClearUnimap e s vc).1.cell (e.loc vc) = some q ∧
          (LinuxConsole.conClearUnimap e s vc).1.refs q = some 1 ∧
          ∀ p n, s.cell (e.loc vc) = some p → s.refs p = some (n + 2) →
            p ≠ q ∧ (LinuxConsole.conClearUnimap e s vc).1.refs p = some (n + 1)) := by
  obtain ⟨hb, hdflt⟩ := refCounts_iff.mp h
  unfold LinuxConsole.conClearUnimap
  cases hcell : s.cell (e.loc vc) with
  | none =>
    dsimp only
    cases hk : s.kmalloc 0 with
    | true =>
      obtain ⟨-, hc, hr, hd⟩ := clearFresh_ok (e := e) vc hk none
      refine ⟨refCounts_iff.mpr ⟨?_, hd hdflt⟩, fun _ => ⟨s.heap.brk, ?_, ?_, by simp⟩⟩
      · have hmove := hb.retarget (mem_cells e vc) (some s.heap.brk)
        rw [hcell, addRef, refs_brk] at hmove
        rw [hc, hr]
        exact hmove
      · rw [hc, Function.update_self]
      · rw [hr, Function.update_self]
    | false =>
      rw [clearFresh_fail hk]
      exact ⟨h.of_eq rfl rfl hdflt, by simp⟩
  | some p =>
    obtain ⟨d, hd, hpos⟩ := h.own vc hcell
    have hrefs : s.refs p = some d.refcount := by rw [Maps.refs, hd]; rfl
    simp only [hd]
    split_ifs with hro hone
    · exact ⟨h, by simp⟩
    · -- Others hold the map as well.
      have hpbrk : p ≠ s.heap.brk := by
        rintro rfl
        rw [s.heap.unused _ (Nat.le_refl _)] at hd
        cases hd
      cases hk : s.kmalloc 0 with
      | true =>
        obtain ⟨-, hc, hr, hl⟩ := clearFresh_ok (e := e)
          (s := s.modify p UniPagedir.decr) vc hk (some p)
        have hp1 : addRef s.refs (some s.heap.brk) p = some d.refcount := by
          rw [addRef, Function.update_of_ne hpbrk, hrefs]
        have hmove := hb.retarget (mem_cells e vc) (some s.heap.brk)
        rw [hcell, dropRef_eq hp1, addRef, refs_brk,
          Function.update_comm (Ne.symm hpbrk)] at hmove
        have htally : tally (d.refcount - 1) = some (d.refcount - 1) :=
          tally_eq_some.mpr ⟨rfl, Nat.pos_of_ne_zero hone⟩
        have hr' : (clearFresh e (s.modify p UniPagedir.decr) vc (some p)).1.refs =
            Function.update (Function.update s.refs p (some (d.refcount - 1))) s.heap.brk
              (some 1) := by
          rw [hr, refs_decr hrefs]
          rfl
        refine ⟨refCounts_iff.mpr ⟨?_, hl (hdflt.modify p _)⟩,
          fun _ => ⟨s.heap.brk, ?_, ?_, ?_⟩⟩
        · rw [hc, hr', ← htally]
          exact hmove
        · rw [hc]; exact Function.update_self ..
        · rw [hr', Function.update_self]
        · intro p' n hp' hn
          obtain rfl : p = p' := Option.some.inj hp'
          rw [hrefs] at hn
          refine ⟨hpbrk, ?_⟩
          rw [hr', Function.update_of_ne hpbrk, Function.update_self]
          have := Option.some.inj hn
          congr 1
          omega
      | false =>
        rw [clearFresh_fail_shared hk hd hpos]
        exact ⟨h.of_eq rfl rfl hdflt, by simp⟩
    · -- The only holder empties the map and keeps it.
      have hkeep : (conReleaseUnimap ((s.forgetDflt p).modify p fun d => { d with sum := 0 })
          p).refs = s.refs :=
        (refs_release _ p).trans (refs_modify_keep (s.forgetDflt p) p fun _ _ => rfl)
      refine ⟨h.of_eq rfl hkeep (((hdflt.forget p).modify p _).release p),
        fun _ => ⟨p, hcell, ?_, ?_⟩⟩
      · rw [hkeep, hrefs]
        congr 1
        omega
      · intro p' n hp' hn
        obtain rfl : p = p' := Option.some.inj hp'
        have := Option.some.inj (hrefs.symm.trans hn)
        omega

/-- The private copy: done, the console is the only holder of its map; not
done, it holds the shared map again. -/
theorem RefCounts.privateCopy {d : UniPagedir} (h : RefCounts e s)
    (hcell : s.cell (e.loc vc) = some p) (hd : s.heap.dir p = some d) (hshared : 1 < d.refcount) :
    RefCounts e (privateCopy e s vc p d).1 ∧
      ((LinuxConsole.privateCopy e s vc p d).2 = .ok →
        ∃ q, (LinuxConsole.privateCopy e s vc p d).1.cell (e.loc vc) = some q ∧
          (LinuxConsole.privateCopy e s vc p d).1.refs q = some 1) := by
  obtain ⟨h1, hown⟩ := h.conClearUnimap vc
  unfold LinuxConsole.privateCopy
  generalize LinuxConsole.conClearUnimap e s vc = r at h1 hown
  obtain ⟨s1, ret⟩ := r
  cases ret with
  | ok =>
    obtain ⟨q, hq, hone, hold⟩ := hown rfl
    dsimp only at h1 hq hone hold
    obtain ⟨hpq, hp⟩ := hold p (d.refcount - 2) hcell (by
      rw [Maps.refs, hd, Option.map_some, Nat.sub_add_cancel hshared])
    simp only [hq]
    have h2 := h1.fill (p := q) (keepsCount_copyPagedir d)
    have hrefs := refs_fill s1 q (keepsCount_copyPagedir d)
    have hcell2 := fill_cell s1 q (copyPagedir d)
    generalize s1.fill q (copyPagedir d) = f at h2 hrefs hcell2
    obtain ⟨s2, err⟩ := f
    dsimp only at h2 hrefs hcell2 ⊢
    split
    · refine ⟨refCounts_iff.mpr ⟨?_, ?_⟩, by simp⟩
      · exact Balanced.moveOff (refCounts_iff.mp h2).1 (by rw [hcell2, hq]) (by rw [hrefs, hone])
          (by rw [hrefs, hp]) hpq
      · exact (DfltLive.modify h2.dflt_live p _).releaseAndFree q
    · exact ⟨h2, fun _ => ⟨q, by rw [hcell2, hq], by rw [hrefs, hone]⟩⟩
  | eio | enomem | einval | oops => exact ⟨h1, by simp⟩

/-- Loading a list into a map that the console alone holds. -/
theorem RefCounts.setPrivate (h : RefCounts e s) (hcell : s.cell (e.loc vc) = some p)
    (hone : s.refs p = some 1) (list : List Unipair) :
    RefCounts e (setPrivate e s vc list).1 := by
  unfold LinuxConsole.setPrivate
  simp only [hcell]
  have h1 := h.fill (p := p) (keepsCount_insertList list)
  have hrefs := refs_fill s p (keepsCount_insertList list)
  have hcell1 := fill_cell s p fun f => insertList f list
  have h2 := h1.conUnifyUnimap (by rw [hcell1, hcell]) (by rw [hrefs, hone])
  generalize LinuxConsole.conUnifyUnimap e (s.fill p fun f => insertList f list).1 vc p = u at h2
  obtain ⟨s2, unified⟩ := u
  cases unified with
  | true => exact h2
  | false => exact h2.fill (keepsCount_setInverses e)

theorem RefCounts.conSetUnimap (h : RefCounts e s) (list : List Unipair) :
    RefCounts e (conSetUnimap e s vc list).1 := by
  unfold LinuxConsole.conSetUnimap
  cases hcell : s.cell (e.loc vc) with
  | none => exact h
  | some p =>
    obtain ⟨d, hd, hpos⟩ := h.own vc hcell
    simp only [hd]
    split
    · exact h
    · split
      · exact h
      · split
        · next hshared =>
          obtain ⟨h1, hown⟩ := h.privateCopy hcell hd hshared
          generalize LinuxConsole.privateCopy e s vc p d = r at h1 hown
          obtain ⟨s1, ret⟩ := r
          cases ret with
          | ok =>
            obtain ⟨q, hq, hone⟩ := hown rfl
            exact h1.setPrivate hq hone list
          | eio | enomem | einval | oops => exact h1
        · next hone =>
          have h1 : RefCounts e (s.forgetDflt p) :=
            h.of_eq rfl rfl (DfltLive.forget h.dflt_live p)
          refine h1.setPrivate hcell ?_ list
          have hrefs : (s.forgetDflt p).refs p = some d.refcount := by
            change Option.map _ (s.heap.dir p) = _
            rw [hd]
            rfl
          rw [hrefs]
          congr 1
          omega

theorem RefCounts.conFreeUnimap (h : RefCounts e s) (vc : C) :
    RefCounts e (conFreeUnimap e s vc).1 := by
  obtain ⟨hb, hdflt⟩ := refCounts_iff.mp h
  unfold LinuxConsole.conFreeUnimap
  cases hcell : s.cell (e.loc vc) with
  | none => exact h
  | some p =>
    obtain ⟨d, hd, hpos⟩ := h.own vc hcell
    simp only [hd]
    have hrefs : s.refs p = some d.refcount := by rw [Maps.refs, hd]; rfl
    have hmove := hb.retarget (mem_cells e vc) none
    rw [hcell, show addRef s.refs none = s.refs from rfl, dropRef_eq hrefs] at hmove
    have hdecr : ((s.setCell (e.loc vc) none).modify p UniPagedir.decr).refs =
        Function.update s.refs p (some (d.refcount - 1)) :=
      refs_decr (s := s.setCell (e.loc vc) none) hrefs
    have hdflt' : DfltLive ((s.setCell (e.loc vc) none).modify p UniPagedir.decr) :=
      DfltLive.modify (s := s.setCell (e.loc vc) none) hdflt p _
    split
    · next hmore =>
      refine refCounts_iff.mpr ⟨?_, hdflt'⟩
      rw [hdecr, ← tally_eq_some.mpr ⟨rfl, Nat.pos_of_ne_zero hmore⟩]
      exact hmove
    · next hlast =>
      refine refCounts_iff.mpr ⟨?_, hdflt'.releaseAndFree p⟩
      have hgone : tally (d.refcount - 1) = none := tally_eq_none.mpr (not_not.mp hlast)
      rw [refs_releaseAndFree, hdecr, Function.update_idem]
      rw [hgone] at hmove
      exact hmove

theorem RefCounts.conProtectUnimap (h : RefCounts e s) (rdonly : Bool) :
    RefCounts e (conProtectUnimap e s vc rdonly) := by
  unfold LinuxConsole.conProtectUnimap
  split
  · exact h
  · exact h.of_eq rfl (refs_modify_keep s _ fun _ _ => rfl) (DfltLive.modify h.dflt_live _ _)

/-- A console without a map takes up another one's. -/
theorem Balanced.takeUp (hb : Balanced e.cells s.cell s.refs)
    (hcell : s.cell (e.loc vc) = none) {n : Nat} (hq : s.refs q = some n) :
    Balanced e.cells ((s.modify q UniPagedir.incr).setCell (e.loc vc) (some q)).cell
      ((s.modify q UniPagedir.incr).setCell (e.loc vc) (some q)).refs := by
  have hmove := Balanced.retarget hb (mem_cells e vc) (some q)
  rw [hcell, dropRef, ← refs_incr hq] at hmove
  exact hmove

omit [Fintype C] in
theorem conFreeUnimap_cell (vc : C) :
    (conFreeUnimap e s vc).1.cell = Function.update s.cell (e.loc vc) none := by
  unfold conFreeUnimap
  split
  · next h => exact (Function.update_eq_self_iff.mpr h.symm).symm
  · split
    · rfl
    · dsimp only
      split <;> rfl

theorem RefCounts.conCopyUnimap (h : RefCounts e s) (dst : C) (src : Option C) :
    RefCounts e (conCopyUnimap e s dst src).1 := by
  unfold LinuxConsole.conCopyUnimap
  cases src with
  | none => exact h
  | some src =>
    cases hsrc : s.cell (e.loc src) with
    | none => simp only [hsrc]; exact h
    | some q =>
      simp only [hsrc]
      split
      · exact h
      · next hne =>
        have h1 := h.conFreeUnimap dst
        have hcell := conFreeUnimap_cell (e := e) (s := s) dst
        generalize LinuxConsole.conFreeUnimap e s dst = r at h1 hcell
        obtain ⟨s1, ret⟩ := r
        dsimp only at h1 hcell ⊢
        have hloc : e.loc src ≠ e.loc dst := by
          intro heq
          rw [heq] at hsrc
          exact hne hsrc
        have hq : s1.cell (e.loc src) = some q := by
          rw [hcell, Function.update_of_ne hloc, hsrc]
        obtain ⟨d, hd, -⟩ := h1.own src hq
        refine refCounts_iff.mpr ⟨?_, DfltLive.modify h1.dflt_live q _⟩
        exact Balanced.takeUp (refCounts_iff.mp h1).1 (by rw [hcell, Function.update_self])
          (n := d.refcount) (by rw [Maps.refs, hd]; rfl)

/-! ### The default map -/

/-- A console that has no map, or has the default one, is given the default
map as it should be. -/
theorem RefCounts.takeDefault {dflt : Nat} (h : RefCounts e s) (hdflt : s.dflt = some dflt)
    (hfit : ∀ p, s.cell (e.loc vc) = some p → p = dflt) :
    RefCounts e (conSetDefaultUnimap e s vc).1 := by
  unfold conSetDefaultUnimap
  simp only [hdflt]
  split
  · exact h
  · next hne =>
    cases hcell : s.cell (e.loc vc) with
    | some p => exact absurd (hfit p hcell ▸ hcell) hne
    | none =>
      obtain ⟨d, hd⟩ := Option.ne_none_iff_exists'.mp (h.dflt_live dflt hdflt)
      refine refCounts_iff.mpr ⟨?_, DfltLive.modify h.dflt_live dflt _⟩
      exact Balanced.takeUp (refCounts_iff.mp h).1 hcell (n := d.refcount)
        (by rw [Maps.refs, hd]; rfl)

/-- The default map is loaded where there is none yet. -/
theorem RefCounts.loadDefault (h : RefCounts e s) (hdflt : s.dflt = none) :
    RefCounts e (conSetDefaultUnimap e s vc).1 := by
  unfold conSetDefaultUnimap
  simp only [hdflt]
  obtain ⟨h1, hown⟩ := h.conClearUnimap vc
  generalize LinuxConsole.conClearUnimap e s vc = r at h1 hown
  obtain ⟨s1, ret⟩ := r
  cases ret with
  | eio | enomem | einval | oops => exact h1
  | ok =>
    obtain ⟨p, hp, hone, -⟩ := hown rfl
    dsimp only at h1 hp hone
    simp only [hp]
    have h2 := h1.fill (p := p) (keepsCount_insertPairs (dfontPairs e))
    have hrefs := refs_fill s1 p (keepsCount_insertPairs (dfontPairs e))
    have hcell2 := fill_cell s1 p (insertPairs (dfontPairs e))
    generalize s1.fill p (insertPairs (dfontPairs e)) = f at h2 hrefs hcell2
    obtain ⟨s2, err⟩ := f
    dsimp only at h2 hrefs hcell2 ⊢
    have h3 := h2.conUnifyUnimap (by rw [hcell2, hp]) (by rw [hrefs, hone])
    have hcell3 := conUnifyUnimap_none (e := e) (s := s2) (p := p) vc
    generalize LinuxConsole.conUnifyUnimap e s2 vc p = u at h3 hcell3
    obtain ⟨s3, unified⟩ := u
    cases unified with
    | true =>
      refine h3.of_eq rfl rfl fun q hq => ?_
      obtain ⟨d, hd, -⟩ := h3.own vc hq
      exact Option.ne_none_iff_exists'.mpr ⟨d, hd⟩
    | false =>
      obtain rfl : s3 = s2 := hcell3 rfl
      have h4 := h3.fill (p := p) (keepsCount_setInverses e)
      refine h4.of_eq rfl rfl fun q hq => ?_
      obtain rfl : p = q := Option.some.inj hq
      obtain ⟨d, hd, -⟩ := h4.own (p := p) vc (by rw [fill_cell, hcell2, hp])
      exact Option.ne_none_iff_exists'.mpr ⟨d, hd⟩

/-- A console with a map of its own is given the default one: either its map is
gone while it has holders, or nobody holds it and it stays. -/
theorem not_refCounts_takeDefault {dflt : Nat} (h : RefCounts e s) (hdflt : s.dflt = some dflt)
    (hcell : s.cell (e.loc vc) = some p) (hne : p ≠ dflt) :
    ¬RefCounts e (conSetDefaultUnimap e s vc).1 := by
  obtain ⟨d, hd, hpos⟩ := h.own vc hcell
  have hcount := h.count p d hd
  intro hafter
  unfold conSetDefaultUnimap at hafter
  have hcell' : ¬s.cell (e.loc vc) = some dflt := by
    rw [hcell]
    exact fun heq => hne (Option.some.inj heq)
  simp only [hdflt, hd, hcell, if_neg (show ¬some p = some dflt from hcell ▸ hcell')] at hafter
  split at hafter
  · next hmore =>
    obtain ⟨b, hb, hbl, hbp⟩ := exists_other_holder (e.loc vc)
      (show 1 < holders e.cells s.cell p by omega)
    have hgone := (hafter.released p).mp (Function.update_self ..)
    refine absurd hgone (Nat.pos_iff_ne_zero.mp (holders_pos hb ?_))
    change Function.update s.cell (e.loc vc) (some dflt) b = some p
    rw [Function.update_of_ne hbl, hbp]
  · next hlast =>
    have hkept : (((s.modify dflt UniPagedir.incr).setCell (e.loc vc) (some dflt)).modify p
        UniPagedir.decr).heap.dir p = some d.decr := by
      simp [Maps.modify, Maps.setCell, DirHeap.modify, hne, hd]
    have hzero := hafter.count p _ hkept
    have hgone := (hafter.released p).mpr (hzero.symm.trans (not_not.mp hlast))
    rw [hkept] at hgone
    cases hgone

/-- A shared map that is merged away is gone for its other holders too. -/
theorem not_refCounts_unify {d : UniPagedir} (h : RefCounts e s)
    (hcell : s.cell (e.loc vc) = some p) (hd : s.heap.dir p = some d) (hshared : d.refcount ≠ 1)
    (hmatch : unifyMatch e s vc p d = some q) :
    ¬RefCounts e (LinuxConsole.conUnifyUnimap e s vc p).1 := by
  have hcount := h.count p d hd
  have hpos := holders_pos (mem_cells e vc) hcell
  obtain ⟨b, hb, hbl, hbp⟩ := exists_other_holder (e.loc vc)
    (show 1 < holders e.cells s.cell p by omega)
  intro hafter
  unfold LinuxConsole.conUnifyUnimap at hafter
  simp only [hd, hmatch] at hafter
  have hgone := (hafter.released p).mp (Function.update_self ..)
  refine absurd hgone (Nat.pos_iff_ne_zero.mp (holders_pos hb ?_))
  change Function.update s.cell (e.loc vc) (some q) b = some p
  rw [Function.update_of_ne hbl, hbp]

end Functions

/-! ### Runs -/

/-- The calls.  `unify` is `con_unify_unimap` on the map of the console. -/
inductive MapOp (C : Type)
  | clear (vc : C)
  | set (vc : C) (list : List Unipair)
  | setDefault (vc : C)
  | copy (dst : C) (src : Option C)
  | free (vc : C)
  | unify (vc : C)
  | protect (vc : C) (rdonly : Bool)

/-- One call. -/
def mapStep {C L : Type} [DecidableEq L] (e : MapEnv C L) (s : Maps L) : MapOp C → Maps L
  | .clear vc => (conClearUnimap e s vc).1
  | .set vc list => (conSetUnimap e s vc list).1
  | .setDefault vc => (conSetDefaultUnimap e s vc).1
  | .copy dst src => (conCopyUnimap e s dst src).1
  | .free vc => (conFreeUnimap e s vc).1
  | .unify vc =>
    match s.cell (e.loc vc) with
    | none => s
    | some p => (conUnifyUnimap e s vc p).1
  | .protect vc rdonly => conProtectUnimap e s vc rdonly

/-- The state at start up, with any answers of the allocator to come. -/
def bootMaps {L : Type} (k : Nat → Bool) : Maps L where
  cell := fun _ => none
  heap := { dir := fun _ => none, brk := 0, unused := fun _ _ => rfl }
  dflt := none
  kmalloc := k

/-- The steps that do not upset the counts: the default map is given to no
console that has another one, and a shared map is not merged into an equal
one. -/
def Orderly {C L : Type} [DecidableEq L] (e : MapEnv C L) (s : Maps L) : MapOp C → Prop
  | .setDefault vc => ∀ p q, s.cell (e.loc vc) = some p → s.dflt = some q → p = q
  | .unify vc => ∀ p d, s.cell (e.loc vc) = some p → s.heap.dir p = some d →
      d.refcount = 1 ∨ unifyMatch e s vc p d = none
  | _ => True

theorem refCounts_boot (e : MapEnv C L) (k : Nat → Bool) : RefCounts e (bootMaps k) where
  count := fun _ _ h => by cases h
  released := by simp [bootMaps, holders]
  dflt_live := fun _ h => by cases h

/-- One call keeps the counts right exactly if it is orderly. -/
theorem refCounts_step_iff {e : MapEnv C L} {s : Maps L} (h : RefCounts e s) (op : MapOp C) :
    RefCounts e (mapStep e s op) ↔ Orderly e s op := by
  cases op with
  | clear vc => exact iff_of_true (h.conClearUnimap vc).1 trivial
  | set vc list => exact iff_of_true (h.conSetUnimap list) trivial
  | copy dst src => exact iff_of_true (h.conCopyUnimap dst src) trivial
  | free vc => exact iff_of_true (h.conFreeUnimap vc) trivial
  | protect vc rdonly => exact iff_of_true (h.conProtectUnimap rdonly) trivial
  | setDefault vc =>
    cases hdflt : s.dflt with
    | none =>
      refine iff_of_true (h.loadDefault hdflt) fun p q _ hq => ?_
      rw [hdflt] at hq
      cases hq
    | some dflt =>
      constructor
      · intro hafter p q hp hq
        obtain rfl : dflt = q := Option.some.inj (hdflt.symm.trans hq)
        by_contra hne
        exact not_refCounts_takeDefault h hdflt hp hne hafter
      · intro hfit
        exact h.takeDefault hdflt fun p hp => hfit p dflt hp hdflt
  | unify vc =>
    cases hcell : s.cell (e.loc vc) with
    | none =>
      simp only [mapStep, hcell]
      refine iff_of_true h fun p d hp _ => ?_
      rw [hcell] at hp
      cases hp
    | some p =>
      obtain ⟨d, hd, hpos⟩ := h.own vc hcell
      simp only [mapStep, hcell]
      constructor
      · intro hafter p' d' hp' hd'
        obtain rfl : p = p' := Option.some.inj (hcell.symm.trans hp')
        obtain rfl : d = d' := Option.some.inj (hd.symm.trans hd')
        by_contra hbad
        obtain ⟨hshared, hmatch⟩ := not_or.mp hbad
        obtain ⟨q, hq⟩ := Option.ne_none_iff_exists'.mp hmatch
        exact not_refCounts_unify h hcell hd hshared hq hafter
      · intro horderly
        rcases horderly p d hcell hd with hone | hmatch
        · exact h.conUnifyUnimap hcell (by rw [Maps.refs, hd, Option.map_some, hone])
        · have hsame : (conUnifyUnimap e s vc p).1 = s := by
            refine conUnifyUnimap_none vc ?_
            unfold conUnifyUnimap
            simp only [hd, hmatch]
          rw [hsame]
          exact h

/-- **The counts are right along a run exactly as long as its calls are
orderly**, whatever the allocator answers. -/
theorem refcounts_iff (e : MapEnv C L) {s : Maps L} (h : RefCounts e s) (ops : List (MapOp C)) :
    Along (mapStep e) (fun s op => RefCounts e (mapStep e s op)) s ops ↔
      Along (mapStep e) (Orderly e) s ops :=
  along_congr (I := RefCounts e) (fun _ _ _ hstep => hstep)
    (fun _ op h => refCounts_step_iff h op) h

/-- Three consoles with a cell each, one display, and a font with the letter
`A`. -/
def threeConsoles : MapEnv (Fin 3) (Fin 3) where
  loc := id
  display := fun _ => [some 0, some 1, some 2]
  userMap := defaultUserMap
  dfontUnicount := fun i => if i = 0x41 then 1 else 0
  dfontUnitable := fun _ => 0x41

theorem refcounts_iff_boot :
    Along (mapStep threeConsoles) (fun s op => RefCounts threeConsoles (mapStep threeConsoles s op))
      (bootMaps fun _ => true) [.setDefault 0, .copy 1 (some 0), .clear 1, .free 0] :=
  (refcounts_iff threeConsoles (refCounts_boot threeConsoles fun _ => true) _).mpr
    ⟨fun _ _ h _ => (by cases h), trivial, trivial, trivial, trivial⟩

/-- Two consoles share a map; one of them is given the default map, and the
map is released while the other one still holds it. -/
theorem shared_map_released :
    (Lib.run (mapStep threeConsoles) (bootMaps fun _ => true)
        [.setDefault 0, .clear 1, .copy 2 (some 1), .setDefault 1]).cell 2 = some 1 ∧
      ((Lib.run (mapStep threeConsoles) (bootMaps fun _ => true)
        [.setDefault 0, .clear 1, .copy 2 (some 1), .setDefault 1]).heap.dir 1).isNone = true := by
  decide +kernel

end LinuxConsole
