import LinuxConsole.Map.CopyOnWrite
import LinuxConsole.Map.Listing

/-!
# The Unicode table as a finite map

What a Unicode map is for: a map from codes to glyphs, which is emptied and into which pairs are
inserted.  `Glyphs` is such a map, one for each location cell, and `clear` and `insert` are what
`con_clear_unimap` and `con_set_unimap` are for.

**`table_refines_map`** says that the paged tables behave like these maps along every run of
successful calls on maps that are not shared, also when a call ends with a unification: looking a
code up, listing the codes and unifying agree with the maps.
-/

namespace LinuxConsole

open Lib

/-- The glyph last inserted for a code, if there is one. -/
abbrev Glyphs : Type := Nat → Option Nat

namespace Glyphs

/-- The map without glyphs. -/
def empty : Glyphs := fun _ => none

/-- Insert a list of pairs, one after the other. -/
def insert (m : Glyphs) (list : List Unipair) : Glyphs :=
  list.foldl (fun m u => Function.update m u.unicode.toNat (some u.fontpos.toNat)) m

/-- The glyph of a code, `-4` without one that can be shown. -/
def conv (m : Glyphs) (u : Nat) : Int :=
  match m u with
  | some g => if g < maxGlyph then (g : Int) else -4
  | none => -4

/-- The codes whose glyph can be shown, in order. -/
def codes (m : Glyphs) : List Nat :=
  (List.range 65536).filter fun u => (m u).any fun g => g < maxGlyph

/-- The entry that stands for the glyph of a code. -/
def entry (m : Glyphs) (u : Nat) : Nat := (m u).getD 0xffff

theorem entry_insert (m : Glyphs) (list : List Unipair) :
    (m.insert list).entry = override list m.entry := by
  induction list generalizing m with
  | nil => rfl
  | cons u list ih =>
    rw [insert, List.foldl_cons]
    refine (ih _).trans ?_
    rw [override, override, List.foldl_cons]
    congr 1
    funext v
    by_cases hv : v = u.unicode.toNat
    · rw [hv, entry, Function.update_self, Function.update_self]
      rfl
    · rw [entry, Function.update_of_ne hv, Function.update_of_ne hv]
      rfl

theorem conv_eq (m : Glyphs) (u : Nat) :
    m.conv u = if m.entry u < maxGlyph then (m.entry u : Int) else -4 := by
  rw [conv.eq_def, entry]
  cases m u with
  | none => rfl
  | some g => rfl

/-- What is listed are the codes, each with its glyph. -/
theorem mem_listed_entry {m : Glyphs} {u g : Nat} :
    (u, g) ∈ listed m.entry ↔ u < 65536 ∧ m u = some g ∧ g < maxGlyph := by
  rw [mem_listed, entry]
  refine and_congr_right fun _ => and_congr_left fun hlt => ?_
  cases m u with
  | none =>
    refine iff_of_false (fun hg => ?_) (Option.some_ne_none g).symm
    subst hg
    exact absurd hlt (by decide)
  | some h => exact Option.some_inj.symm

theorem map_fst_listed (m : Glyphs) : (listed m.entry).map Prod.fst = m.codes := by
  rw [listed, List.map_filterMap, codes, ← List.filterMap_eq_filter]
  refine List.filterMap_congr fun u _ => ?_
  rw [listedPair, entry]
  cases hm : m u with
  | none => simp [hm, maxGlyph, Option.guard]
  | some g =>
    by_cases hlt : g < maxGlyph
    · simp [hm, hlt, Option.guard]
    · simp [hm, hlt, Option.guard]

end Glyphs

/-! ### The calls -/

variable {C L : Type} [DecidableEq L]

/-- The calls that load a map. -/
inductive LoadOp (C : Type)
  | clear (vc : C)
  | set (vc : C) (list : List Unipair)

/-- The console that is called for. -/
def LoadOp.vc : LoadOp C → C
  | .clear vc => vc
  | .set vc _ => vc

def loadCall (e : MapEnv C L) (s : Maps L) : LoadOp C → Maps L × MapRet
  | .clear vc => conClearUnimap e s vc
  | .set vc list => conSetUnimap e s vc list

/-- One call. -/
def loadStep (e : MapEnv C L) (s : Maps L) (op : LoadOp C) : Maps L := (loadCall e s op).1

/-- The console has no map, or one that it does not share. -/
def Unshared (e : MapEnv C L) (s : Maps L) (vc : C) : Prop :=
  ∀ p d, s.cell (e.loc vc) = some p → s.heap.dir p = some d → d.refcount = 1

/-- The call is made on a map that is not shared, and succeeds. -/
def Loads (e : MapEnv C L) (s : Maps L) (op : LoadOp C) : Prop :=
  Unshared e s op.vc ∧ (loadCall e s op).2 = .ok

/-- What a call does to the maps. -/
def glyphStep (e : MapEnv C L) (a : L → Option Glyphs) : LoadOp C → L → Option Glyphs
  | .clear vc => Function.update a (e.loc vc) (some .empty)
  | .set vc list => Function.update a (e.loc vc) ((a (e.loc vc)).map fun m => m.insert list)

/-- A directory stands for a map. -/
def Stands (d : Option UniPagedir) (m : Glyphs) : Prop :=
  ∃ d', d = some d' ∧ ∀ u < 65536, d'.entry u = m.entry u

/-- The tables of the consoles stand for the maps. -/
def Refines (e : MapEnv C L) (s : Maps L) (a : L → Option Glyphs) : Prop :=
  ∀ c m, a (e.loc c) = some m → Stands (s.mapAt (e.loc c)) m

/-! ### One call -/

section Step

variable {e : MapEnv C L} {s s' : Maps L} {vc : C} {p : Nat} {d : UniPagedir}
  {a : L → Option Glyphs} {m : Glyphs}

/-- Only one cell points to a map that is not shared. -/
theorem RefCounts.sole [Fintype C] (h : RefCounts e s) (hcell : s.cell (e.loc vc) = some p)
    (hd : s.heap.dir p = some d) (hone : d.refcount = 1) {c : C} (hc : e.loc c ≠ e.loc vc) :
    s.cell (e.loc c) ≠ some p := by
  intro hother
  have hcount := (h.count p d hd).symm.trans hone
  rw [holders, Finset.card_eq_one] at hcount
  obtain ⟨l, hl⟩ := hcount
  have hmem (c : C) (hc : s.cell (e.loc c) = some p) : e.loc c = l := by
    have hin : e.loc c ∈ e.cells.filter fun l => s.cell l = some p :=
      Finset.mem_filter.mpr ⟨mem_cells e c, hc⟩
    rw [hl] at hin
    exact Finset.mem_singleton.mp hin
  exact hc ((hmem c hother).trans (hmem vc hcell).symm)

omit [DecidableEq L] in
/-- A cell that still points where it did, to a directory that differs at most in its count. -/
theorem Stands.untouched {l : L} (h : Stands (s.mapAt l) m) (hcell : s'.cell l = s.cell l)
    (huntouched : ∀ q, s.cell l = some q → Untouched s s' q) : Stands (s'.mapAt l) m := by
  obtain ⟨d, hd, hentry⟩ := h
  obtain ⟨q, hq, hdir⟩ := Option.bind_eq_some_iff.mp hd
  obtain ⟨n, hn⟩ := huntouched q hq d hdir
  refine ⟨{ d with refcount := n }, ?_, hentry⟩
  rw [Maps.mapAt, hcell, hq]
  exact hn

/-- The cell of the call stands for its new map, and the others for what they did. -/
theorem Refines.update (h : Refines e s a) {o : Option Glyphs}
    (hvc : ∀ m, o = some m → Stands (s'.mapAt (e.loc vc)) m)
    (hothers : ∀ c, e.loc c ≠ e.loc vc → s'.cell (e.loc c) = s.cell (e.loc c) ∧
      ∀ q, s.cell (e.loc c) = some q → Untouched s s' q) :
    Refines e s' (Function.update a (e.loc vc) o) := by
  intro c m' hm'
  by_cases hc : e.loc c = e.loc vc
  · rw [hc, Function.update_self] at hm'
    rw [hc]
    exact hvc m' hm'
  · rw [Function.update_of_ne hc] at hm'
    exact (h c m' hm').untouched (hothers c hc).1 (hothers c hc).2

theorem clearFresh_dir {o : Option Nat} (hok : (clearFresh e s vc o).2 = .ok) :
    (clearFresh e s vc o).1.cell = Function.update s.cell (e.loc vc) (some s.heap.brk) ∧
      (clearFresh e s vc o).1.heap.dir =
        Function.update s.heap.dir s.heap.brk (some { UniPagedir.zero with refcount := 1 }) := by
  cases hk : s.kmalloc 0 with
  | true =>
    rw [clearFresh.eq_def, if_pos hk]
    exact ⟨rfl, rfl⟩
  | false =>
    rw [clearFresh.eq_def, if_neg (by rw [hk]; exact Bool.false_ne_true)] at hok
    cases o with
    | none => cases hok
    | some p => cases hok

theorem Refines.clear [Fintype C] (h : Refines e s a) (hcounts : RefCounts e s)
    (hun : Unshared e s vc) (hok : (conClearUnimap e s vc).2 = .ok) :
    Refines e (conClearUnimap e s vc).1 (glyphStep e a (.clear vc)) := by
  rw [conClearUnimap.eq_def] at hok ⊢
  cases hcell : s.cell (e.loc vc) with
  | none =>
    simp only [hcell] at hok ⊢
    obtain ⟨hcell', hdir'⟩ := clearFresh_dir hok
    have hmap : (clearFresh e s vc none).1.mapAt (e.loc vc) =
        some { UniPagedir.zero with refcount := 1 } := by
      rw [Maps.mapAt, hcell', Function.update_self, Option.bind_some, hdir', Function.update_self]
    have hempty : ∀ m, some Glyphs.empty = some m →
        Stands ((clearFresh e s vc none).1.mapAt (e.loc vc)) m := by
      intro m hm
      obtain rfl := Option.some.inj hm
      exact ⟨_, hmap, fun _ _ => rfl⟩
    refine h.update hempty fun c hc => ⟨?_, fun q hq => ?_⟩
    · rw [hcell', Function.update_of_ne hc]
    · intro d hd
      have hne : q ≠ s.heap.brk := by
        rintro rfl
        rw [s.heap.unused _ (Nat.le_refl _)] at hd
        cases hd
      exact Untouched.of_eq (by rw [hdir', Function.update_of_ne hne]) d hd
  | some p =>
    obtain ⟨d, hd, -⟩ := hcounts.own vc hcell
    have hone := hun p d hcell hd
    simp only [hcell, hd] at hok ⊢
    split at hok
    · cases hok
    next hro =>
    rw [if_neg hro]
    have hlast : ¬ d.refcount - 1 ≠ 0 := by omega
    rw [if_neg hlast]
    generalize hs' : conReleaseUnimap ((s.forgetDflt p).modify p fun d => { d with sum := 0 }) p = s'
    have hdir : s'.heap.dir =
        Function.update s.heap.dir p (some { d with sum := 0 }.emptied) := by
      rw [← hs', conReleaseUnimap, modify_dir]
      change Function.update (((s.forgetDflt p).modify p fun d => { d with sum := 0 }).heap.dir) p
        ((((s.forgetDflt p).modify p fun d => { d with sum := 0 }).heap.dir p).map _) = _
      rw [modify_dir, Function.update_self]
      change Function.update (Function.update s.heap.dir p _) p (((s.heap.dir p).map _).map _) = _
      rw [Function.update_idem, hd]
      rfl
    have hcell' : s'.cell = s.cell := by
      rw [← hs']
      rfl
    have hmap : s'.mapAt (e.loc vc) = some { d with sum := 0 }.emptied := by
      rw [Maps.mapAt, hcell', hcell, Option.bind_some, hdir, Function.update_self]
    have hempty : ∀ m, some Glyphs.empty = some m → Stands (s'.mapAt (e.loc vc)) m := by
      intro m hm
      obtain rfl := Option.some.inj hm
      exact ⟨_, hmap, fun _ _ => rfl⟩
    refine h.update hempty fun c hc => ⟨by rw [hcell'], fun q hq => ?_⟩
    have hne : q ≠ p := by
      rintro rfl
      exact hcounts.sole hcell hd hone hc hq
    exact Untouched.of_eq (by rw [hdir, Function.update_of_ne hne])

omit [DecidableEq L] in
theorem conUnifyUnimap_cell [DecidableEq L] (hcell : s.cell (e.loc vc) ≠ none) :
    (conUnifyUnimap e s vc p).1.cell (e.loc vc) ≠ none := by
  rw [conUnifyUnimap.eq_def]
  split
  · exact hcell
  · split
    · exact hcell
    · next q _ =>
      refine (congrArg (· ≠ none) ?_).mpr (Option.some_ne_none q)
      exact Function.update_self ..

theorem setPrivate_cell (hcell : s.cell (e.loc vc) = some p) (list : List Unipair) :
    (setPrivate e s vc list).1.cell (e.loc vc) ≠ none := by
  rw [setPrivate.eq_def]
  simp only [hcell]
  have hfill : (s.fill p fun f => insertList f list).1.cell (e.loc vc) ≠ none := by
    rw [fill_cell, hcell]
    exact Option.some_ne_none p
  generalize (s.fill p fun f => insertList f list) = r at *
  obtain ⟨s1, err⟩ := r
  have hunify := conUnifyUnimap_cell (p := p) hfill
  dsimp only at hunify ⊢
  generalize conUnifyUnimap e s1 vc p = r at *
  obtain ⟨s2, unified⟩ := r
  cases unified with
  | true => exact hunify
  | false =>
    dsimp only at hunify ⊢
    rw [fill_cell]
    exact hunify

omit [DecidableEq L] in
/-- What a list makes of an entry depends on this entry only. -/
theorem override_congr {list : List Unipair} {f f' : Nat → Nat} {u : Nat} (h : f u = f' u) :
    override list f u = override list f' u := by
  by_cases hu : u ∈ codes list
  · exact override_of_mem hu f f'
  · rw [override_of_notMem hu, override_of_notMem hu, h]

theorem glyphStep_nil : glyphStep e a (.set vc []) = a := by
  refine Function.update_eq_self_iff.mpr ?_
  cases a (e.loc vc) <;> rfl

theorem Refines.set [Fintype C] (h : Refines e s a) (hcounts : RefCounts e s)
    (hun : Unshared e s vc) {list : List Unipair} (hok : (conSetUnimap e s vc list).2 = .ok) :
    Refines e (conSetUnimap e s vc list).1 (glyphStep e a (.set vc list)) := by
  have hafter : RefCounts e (conSetUnimap e s vc list).1 := hcounts.conSetUnimap list
  rw [conSetUnimap.eq_def] at hok hafter ⊢
  cases hcell : s.cell (e.loc vc) with
  | none =>
    simp only [hcell] at hok
    cases hok
  | some p =>
    obtain ⟨d, hd, -⟩ := hcounts.own vc hcell
    have hone := hun p d hcell hd
    simp only [hcell, hd] at hok hafter ⊢
    split at hok
    · cases hok
    next hro =>
    rw [if_neg hro] at hafter ⊢
    by_cases hnil : list = []
    · rw [if_pos hnil, hnil, glyphStep_nil]
      exact h
    have hfew : ¬ 1 < d.refcount := by omega
    rw [if_neg hnil, if_neg hfew] at hok hafter ⊢
    obtain ⟨hcells, huntouched, hwritten, -⟩ :=
      @setPrivate_spec C L _ e (s.forgetDflt p) vc p d hcell hd list
    obtain ⟨q, hq⟩ := Option.ne_none_iff_exists'.mp
      (@setPrivate_cell C L _ e (s.forgetDflt p) vc p hcell list)
    obtain ⟨d', hd', -⟩ := hafter.own vc hq
    refine h.update (fun m hm => ⟨d', ?_, fun u hu => ?_⟩) fun c hc => ⟨hcells _ hc, fun r hr => ?_⟩
    · rw [Maps.mapAt, hq]
      exact hd'
    · obtain ⟨m', hm', rfl⟩ := Option.map_eq_some_iff.mp hm
      have hentry := hwritten hok u hu
      rw [glyph_eq hq hd'] at hentry
      rw [hentry, Glyphs.entry_insert]
      obtain ⟨d'', hd'', hsame⟩ := h vc m' hm'
      rw [Maps.mapAt, hcell, Option.bind_some, hd] at hd''
      obtain rfl := Option.some.inj hd''
      exact override_congr (hsame u hu)
    · refine huntouched r ?_
      rintro rfl
      exact hcounts.sole hcell hd hone hc hr

/-- **A unification changes nobody's map.** -/
theorem conUnifyUnimap_entry [Fintype C] (hcounts : RefCounts e s)
    (hcell : s.cell (e.loc vc) = some p) (hd : s.heap.dir p = some d) (hone : d.refcount = 1) (c : C)
    {u : Nat} (hu : u < 65536) :
    ((conUnifyUnimap e s vc p).1.mapAt (e.loc c)).map (fun d => d.entry u) =
      (s.mapAt (e.loc c)).map fun d => d.entry u := by
  cases hunified : (conUnifyUnimap e s vc p).2 with
  | false => rw [conUnifyUnimap_none vc hunified]
  | true =>
    obtain ⟨q, dq, hne, hdq, hsame, hcell', hdir'⟩ := conUnifyUnimap_spec vc hd hunified
    rw [Maps.mapAt, Maps.mapAt, hcell', hdir']
    by_cases hc : e.loc c = e.loc vc
    · rw [hc, Function.update_self, hcell, Option.bind_some, Option.bind_some,
        Function.update_of_ne hne, Function.update_self, hd]
      exact congrArg some (samePagedir_entry hsame hu).symm
    · rw [Function.update_of_ne hc]
      cases hr : s.cell (e.loc c) with
      | none => rfl
      | some r =>
        have hrp : r ≠ p := by
          rintro rfl
          exact hcounts.sole hcell hd hone hc hr
        rw [Option.bind_some, Option.bind_some, Function.update_of_ne hrp]
        by_cases hrq : r = q
        · rw [hrq, Function.update_self, hdq]
          rfl
        · rw [Function.update_of_ne hrq]

end Step

/-! ### Runs -/

/-- A code that is looked up: not a control code, not of width zero, not in the direct zone. -/
def Ordinary (u : Nat) : Prop :=
  0x20 ≤ u ∧ u ≤ 0xfffd ∧ u ≠ 0xfeff ∧ ¬ (0x200a ≤ u ∧ u ≤ 0x200f) ∧ ¬ (0xf000 ≤ u ∧ u ≤ 0xf1ff)

theorem convUniToPc_ordinary {u : Nat} (h : Ordinary u) (loc : Option UniPagedir) :
    convUniToPc loc u = convLookup loc u := by
  obtain ⟨hlow, hhigh, hbom, hzero, hdirect⟩ := h
  rw [convUniToPc, if_neg (by omega), if_neg (by omega), if_neg (by omega), if_neg hdirect]

theorem convUniToPc_congr {d d' : Option UniPagedir}
    (h : ∀ u < 65536, d.map (fun d => d.entry u) = d'.map fun d => d.entry u) (u : Nat) :
    convUniToPc d u = convUniToPc d' u := by
  have hlookup : ∀ v < 65536, convLookup d v = convLookup d' v := by
    intro v hv
    have hv := h v hv
    cases d with
    | none =>
      cases d' with
      | none => rfl
      | some d' => cases hv
    | some d =>
      cases d' with
      | none => cases hv
      | some d' =>
        rw [convLookup.eq_def, convLookup.eq_def]
        dsimp only
        rw [show d.entry v = d'.entry v from Option.some.inj hv]
  rw [convUniToPc, convUniToPc, hlookup 0xfffd (by decide)]
  split
  · rfl
  · next hsmall => rw [hlookup u (by omega)]

theorem Stands.conv {d : Option UniPagedir} {m : Glyphs} (h : Stands d m) {u : Nat}
    (hu : Ordinary u) : convUniToPc d u = m.conv u := by
  obtain ⟨d, rfl, hentry⟩ := h
  have hsmall : u < 65536 := Nat.lt_of_le_of_lt hu.2.1 (by decide)
  rw [convUniToPc_ordinary hu, convLookup.eq_def, Glyphs.conv_eq, ← hentry u hsmall]

theorem Stands.get {d : Option UniPagedir} {m : Glyphs} (h : Stands d m) {ct : Nat}
    (hct : ct < 65536) (hroom : m.codes.length ≤ ct) :
    conGetUnimap d ct = (.ok, m.codes.length, listed m.entry) := by
  obtain ⟨d, rfl, hentry⟩ := h
  have hlisted : listed d.entry = listed m.entry := listed_congr hentry
  have hlength : (listed m.entry).length = m.codes.length := by
    rw [← Glyphs.map_fst_listed, List.length_map]
  rw [← hlength, ← hlisted] at hroom ⊢
  exact conGetUnimap_room hct hroom

variable [Fintype C] {e : MapEnv C L} {s : Maps L} {a : L → Option Glyphs} {vc : C}

theorem loads_step (h : RefCounts e s ∧ Refines e s a) {op : LoadOp C} (hop : Loads e s op) :
    RefCounts e (loadStep e s op) ∧ Refines e (loadStep e s op) (glyphStep e a op) := by
  cases op with
  | clear vc => exact ⟨(h.1.conClearUnimap vc).1, h.2.clear h.1 hop.1 hop.2⟩
  | set vc list => exact ⟨h.1.conSetUnimap list, h.2.set h.1 hop.1 hop.2⟩

theorem loads_run (h : RefCounts e s ∧ Refines e s a) {ops : List (LoadOp C)}
    (hops : Along (loadStep e) (Loads e) s ops) :
    RefCounts e (run (loadStep e) s ops) ∧
      Refines e (run (loadStep e) s ops) (run (glyphStep e) a ops) := by
  induction ops generalizing s a with
  | nil => exact h
  | cons op ops ih => exact ih (loads_step h hops.1) hops.2

/-- **The table refines a finite map.**  After every run of successful calls on maps that are not
shared, for every console with a map: an ordinary code has the glyph that was inserted last for it
since the map was emptied, and `con_get_unimap` with enough room lists exactly the codes whose glyph
can be shown, each once and in order, with their number.  And a unification of a map that is not
shared changes the glyph of no code on any console. -/
theorem table_refines_map (e : MapEnv C L) (s : Maps L) (h : RefCounts e s)
    (a : L → Option Glyphs) (ha : Refines e s a) (ops : List (LoadOp C))
    (hops : Along (loadStep e) (Loads e) s ops) :
    (∀ c m, run (glyphStep e) a ops (e.loc c) = some m →
      (∀ u, Ordinary u →
        convUniToPc ((run (loadStep e) s ops).mapAt (e.loc c)) u = m.conv u) ∧
      ∀ ct < 65536, m.codes.length ≤ ct → ∃ list : List (Nat × Nat),
        conGetUnimap ((run (loadStep e) s ops).mapAt (e.loc c)) ct = (.ok, list.length, list) ∧
          (list.Pairwise fun x y => x.1 < y.1) ∧
          ∀ u g, (u, g) ∈ list ↔ u < 65536 ∧ m u = some g ∧ g < maxGlyph) ∧
    ∀ t : Maps L, RefCounts e t → ∀ vc p d, t.cell (e.loc vc) = some p →
      t.heap.dir p = some d → d.refcount = 1 → ∀ c u,
        convUniToPc ((conUnifyUnimap e t vc p).1.mapAt (e.loc c)) u =
          convUniToPc (t.mapAt (e.loc c)) u := by
  constructor
  · intro c m hm
    have hstands := (loads_run ⟨h, ha⟩ hops).2 c m hm
    refine ⟨fun u hu => hstands.conv hu, fun ct hct hroom => ⟨listed m.entry, ?_, ?_, ?_⟩⟩
    · rw [hstands.get hct hroom, ← Glyphs.map_fst_listed, List.length_map]
    · exact listed_ascending m.entry
    · exact fun u g => Glyphs.mem_listed_entry
  · intro t ht vc p d hcell hd hone c
    exact convUniToPc_congr fun u hu => conUnifyUnimap_entry ht hcell hd hone c hu

omit [DecidableEq L] [Fintype C] in
theorem unshared_of_refs
    (h : (s.cell (e.loc vc)).bind s.refs = none ∨ (s.cell (e.loc vc)).bind s.refs = some 1) :
    Unshared e s vc := by
  intro p d hp hd
  rw [hp, Option.bind_some, Maps.refs, hd, Option.map_some] at h
  rcases h with h | h
  · cases h
  · exact Option.some.inj h

/-- The letter `A`, and a letter with a glyph that no font has. -/
def twoPairs : List Unipair := [⟨0x41, 0x41⟩, ⟨0x61, 0x300⟩]

/-- Two consoles load the same pairs, and the second map is unified with the first. -/
def loadTwice (c c' : C) : List (LoadOp C) :=
  [.clear c, .set c twoPairs, .clear c', .set c' twoPairs]

theorem loadTwice_loads :
    Along (loadStep threeConsoles) (Loads threeConsoles) (bootMaps fun _ => true) (loadTwice 0 1) := by
  refine ⟨⟨unshared_of_refs (.inl ?_), ?_⟩, ⟨unshared_of_refs (.inr ?_), ?_⟩,
    ⟨unshared_of_refs (.inl ?_), ?_⟩, ⟨unshared_of_refs (.inr ?_), ?_⟩, trivial⟩
  all_goals decide +kernel

theorem table_refines_map_boot :
    let s := run (loadStep threeConsoles) (bootMaps fun _ => true) (loadTwice 0 1)
    s.cell 0 = s.cell 1 ∧ convUniToPc (s.mapAt 1) 0x41 = 0x41 ∧
      convUniToPc (s.mapAt 1) 0x61 = -4 := by
  intro s
  have hmap := (table_refines_map threeConsoles (bootMaps fun _ => true)
    (refCounts_boot threeConsoles fun _ => true) (fun _ => none) (fun _ _ hm => by cases hm)
    (loadTwice 0 1) loadTwice_loads).1 1 _ rfl
  refine ⟨by decide +kernel, ?_, ?_⟩
  · exact (hmap.1 0x41 (by unfold Ordinary; decide)).trans (by decide +kernel)
  · exact (hmap.1 0x61 (by unfold Ordinary; decide)).trans (by decide +kernel)

end LinuxConsole
