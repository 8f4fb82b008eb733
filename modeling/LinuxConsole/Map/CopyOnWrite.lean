import LinuxConsole.Map.Entries
import LinuxConsole.Map.Refcount

/-!
# Copy on write

`con_set_unimap` on a map that others hold makes a private copy and changes
that.  `CopyOnWrite` is what the call owes its caller and the other holders.
The other holders and the way back after a failed allocation are right in every
state; the caller's own map is right exactly when the copy is, which
`copy_on_write_iff` states for one list and for all lists.
-/

namespace LinuxConsole

variable {C L : Type} [DecidableEq L]

/-- The map that a cell points to. -/
def Maps.mapAt (s : Maps L) (l : L) : Option UniPagedir := (s.cell l).bind s.heap.dir

/-- The entry of a code in the map that a cell points to. -/
def Maps.glyph (s : Maps L) (l : L) (u : Nat) : Nat :=
  match s.mapAt l with
  | none => 0xffff
  | some d => d.entry u

/-- The directory at `q` is there after the call and differs at most in its
count. -/
def Untouched (s s' : Maps L) (q : Nat) : Prop :=
  ∀ d, s.heap.dir q = some d → ∃ n, s'.heap.dir q = some { d with refcount := n }

/-- What `con_set_unimap(vc, list)` owes on a shared map.  After success the
caller's map is the old one overridden by the list and the cells of the others
and their maps are as they were.  If the private copy could not be made, nothing
has changed. -/
structure CopyOnWrite (e : MapEnv C L) (s : Maps L) (vc : C) (list : List Unipair) : Prop where
  written : (conSetUnimap e s vc list).2 = .ok → ∀ u < 65536,
    (conSetUnimap e s vc list).1.glyph (e.loc vc) u = override list (s.glyph (e.loc vc)) u
  others : (conSetUnimap e s vc list).2 = .ok → ∀ l ≠ e.loc vc,
    (conSetUnimap e s vc list).1.cell l = s.cell l ∧
      ∀ q, s.cell l = some q → Untouched s (conSetUnimap e s vc list).1 q
  restored : ∀ p d, s.cell (e.loc vc) = some p → s.heap.dir p = some d → list ≠ [] →
    (privateCopy e s vc p d).2 ≠ .ok →
    (conSetUnimap e s vc list).2 = .enomem ∧ (conSetUnimap e s vc list).1.cell = s.cell ∧
      (conSetUnimap e s vc list).1.heap.dir = s.heap.dir

/-! ### Frames -/

section Frames

omit [DecidableEq L]

theorem Untouched.refl (s : Maps L) (q : Nat) : Untouched s s q := fun d hd => ⟨d.refcount, hd⟩

theorem Untouched.trans {s s' s'' : Maps L} {q : Nat} (h : Untouched s s' q)
    (h' : Untouched s' s'' q) : Untouched s s'' q := by
  intro d hd
  obtain ⟨n, hn⟩ := h d hd
  obtain ⟨n', hn'⟩ := h' _ hn
  exact ⟨n', hn'⟩

theorem Untouched.of_eq {s s' : Maps L} {q : Nat} (h : s'.heap.dir q = s.heap.dir q) :
    Untouched s s' q := fun d hd => ⟨d.refcount, h.trans hd⟩

theorem modify_dir (s : Maps L) (p : Nat) (f : UniPagedir → UniPagedir) :
    (s.modify p f).heap.dir = Function.update s.heap.dir p ((s.heap.dir p).map f) := rfl

theorem releaseAndFree_dir (s : Maps L) (p : Nat) :
    (releaseAndFree s p).heap.dir = Function.update s.heap.dir p none := by
  unfold releaseAndFree conReleaseUnimap
  exact Function.update_idem ..

theorem fill_eq {s : Maps L} {p : Nat} {d : UniPagedir} (hd : s.heap.dir p = some d)
    (g : Filling → Filling) :
    s.fill p g = ({ s.modify p fun _ => (g ⟨d, s.kmalloc, false⟩).dir with
      kmalloc := (g ⟨d, s.kmalloc, false⟩).kmalloc }, (g ⟨d, s.kmalloc, false⟩).err) := by
  unfold Maps.fill
  rw [hd]
  rfl

theorem fill_dir {s : Maps L} {p : Nat} {d : UniPagedir} (hd : s.heap.dir p = some d)
    (g : Filling → Filling) :
    (s.fill p g).1.heap.dir =
      Function.update s.heap.dir p (some (g ⟨d, s.kmalloc, false⟩).dir) := by
  rw [fill_eq hd]
  refine (modify_dir s p _).trans ?_
  rw [hd]
  rfl

end Frames

/-! ### Unification keeps the entries -/

theorem samePage_eq {p q : Page} (h : samePage p q = true) {k : Nat} (hk : k < 64) :
    p k = q k :=
  beq_iff_eq.mp (List.all_eq_true.mp h k (List.mem_range.mpr hk))

theorem samePagedir_entry {d d' : UniPagedir} (h : samePagedir d d' = true) {u : Nat}
    (hu : u < 65536) : d.entry u = d'.entry u := by
  have hrow := List.all_eq_true.mp h (u / 64 / 32) (List.mem_range.mpr (by omega))
  rw [entry_eq, entry_eq]
  unfold UniPagedir.page
  cases h1 : d.uniPgdir (u / 64 / 32) with
  | none =>
    cases h2 : d'.uniPgdir (u / 64 / 32) with
    | none => rfl
    | some q1 => simp [h1, h2] at hrow
  | some p1 =>
    cases h2 : d'.uniPgdir (u / 64 / 32) with
    | none => simp [h1, h2] at hrow
    | some q1 =>
      simp only [h1, h2] at hrow
      have hpage := List.all_eq_true.mp hrow (u / 64 % 32) (List.mem_range.mpr (by omega))
      dsimp only [Option.bind_some]
      cases h3 : p1 (u / 64 % 32) with
      | none =>
        cases h4 : q1 (u / 64 % 32) with
        | none => rfl
        | some q2 => simp [h3, h4] at hpage
      | some p2 =>
        cases h4 : q1 (u / 64 % 32) with
        | none => simp [h3, h4] at hpage
        | some q2 =>
          simp only [h3, h4] at hpage
          exact samePage_eq hpage (by omega)

omit [DecidableEq L] in
theorem setInverseTransl_uniPgdir (e : MapEnv C L) (f : Filling) (i : CharMap) :
    (setInverseTransl e f i).dir.uniPgdir = f.dir.uniPgdir := by
  unfold setInverseTransl
  dsimp only
  split
  · rfl
  · split <;> rfl

omit [DecidableEq L] in
theorem setInverses_uniPgdir (e : MapEnv C L) (f : Filling) :
    (setInverses e f).dir.uniPgdir = f.dir.uniPgdir := by
  unfold setInverses
  simp only [List.foldl_cons, List.foldl_nil, setInverseTransl_uniPgdir]

variable {e : MapEnv C L} {s : Maps L} {vc : C} {p : Nat} {d : UniPagedir}

theorem conUnifyUnimap_spec (vc : C) (hd : s.heap.dir p = some d) :
    ((conUnifyUnimap e s vc p).2 = true →
      ∃ q dq, q ≠ p ∧ s.heap.dir q = some dq ∧ samePagedir d dq = true ∧
        (conUnifyUnimap e s vc p).1.cell = Function.update s.cell (e.loc vc) (some q) ∧
        (conUnifyUnimap e s vc p).1.heap.dir =
          Function.update (Function.update s.heap.dir q (some dq.incr)) p none) := by
  intro htrue
  unfold conUnifyUnimap at htrue ⊢
  simp only [hd] at htrue ⊢
  split
  · next hnone => simp [hnone] at htrue
  · next q hq =>
    obtain ⟨hne, dq, hdq, hsame⟩ := unifyMatch_spec hq
    refine ⟨q, dq, hne, hdq, hsame, rfl, ?_⟩
    rw [releaseAndFree_dir]
    change Function.update (s.modify q UniPagedir.incr).heap.dir p none = _
    rw [modify_dir, hdq]
    rfl

/-- Loading a list into the map of the cell: nobody else's cell or map changes,
and after success the map is overridden by the list. -/
theorem setPrivate_spec (hcell : s.cell (e.loc vc) = some p) (hd : s.heap.dir p = some d)
    (list : List Unipair) :
    (∀ l ≠ e.loc vc, (setPrivate e s vc list).1.cell l = s.cell l) ∧
      (∀ q ≠ p, Untouched s (setPrivate e s vc list).1 q) ∧
      ((setPrivate e s vc list).2 = .ok →
        ∀ u < 65536, (setPrivate e s vc list).1.glyph (e.loc vc) u = override list d.entry u) ∧
      (Ample s.kmalloc → (setPrivate e s vc list).2 = .ok) := by
  have hdir := fill_dir hd fun f => insertList f list
  have hcell1 := fill_cell s p fun f => insertList f list
  have herr : (s.fill p fun f => insertList f list).2 =
      (insertList ⟨d, s.kmalloc, false⟩ list).err := by rw [fill_eq hd]
  unfold setPrivate
  simp only [hcell]
  generalize (s.fill p fun f => insertList f list) = r at hdir hcell1 herr
  obtain ⟨s1, err⟩ := r
  dsimp only at hdir hcell1 herr ⊢
  subst herr
  have hentry : (insertList ⟨d, s.kmalloc, false⟩ list).err = false → ∀ v,
      (insertList ⟨d, s.kmalloc, false⟩ list).dir.entry v = override list d.entry v :=
    fun h => (insertList_entry h).2
  have hample : Ample s.kmalloc → (insertList ⟨d, s.kmalloc, false⟩ list).err = false :=
    fun h => insertList_ample (f := ⟨d, s.kmalloc, false⟩) h rfl
  generalize insertList ⟨d, s.kmalloc, false⟩ list = f at hdir hentry hample
  have hd1 : s1.heap.dir p = some f.dir := by rw [hdir, Function.update_self]
  have hret : ((if f.err then MapRet.enomem else MapRet.ok) = .ok) ↔ f.err = false := by
    cases f.err <;> simp
  have hspec := conUnifyUnimap_spec (e := e) vc hd1
  have hnone := conUnifyUnimap_none (e := e) (s := s1) (p := p) vc
  generalize conUnifyUnimap e s1 vc p = r at hspec hnone
  obtain ⟨s2, unified⟩ := r
  cases unified with
  | true =>
    obtain ⟨q, dq, hne, hdq, hsame, hcell2, hdir2⟩ := hspec rfl
    dsimp only at hcell2 hdir2 ⊢
    refine ⟨fun l hl => ?_, fun q' hq' d' hd' => ?_, fun hok u hu => ?_,
      fun h => hret.mpr (hample h)⟩
    · rw [hcell2, Function.update_of_ne hl, hcell1]
    · rw [hdir2, Function.update_of_ne hq']
      have hd1' : s1.heap.dir q' = some d' := by rw [hdir, Function.update_of_ne hq', hd']
      by_cases hqq : q' = q
      · subst hqq
        obtain rfl : dq = d' := Option.some.inj (hdq.symm.trans hd1')
        rw [Function.update_self]
        exact ⟨_, rfl⟩
      · rw [Function.update_of_ne hqq, hd1']
        exact ⟨d'.refcount, rfl⟩
    · have hmap : s2.mapAt (e.loc vc) = some dq.incr := by
        unfold Maps.mapAt
        rw [hcell2, Function.update_self, Option.bind_some, hdir2, Function.update_of_ne hne,
          Function.update_self]
      unfold Maps.glyph
      rw [hmap, ← hentry (hret.mp hok)]
      exact (samePagedir_entry hsame hu).symm
  | false =>
    obtain rfl : s2 = s1 := hnone rfl
    have hdir2 := fill_dir hd1 (setInverses e)
    refine ⟨fun l hl => ?_, fun q' hq' d' hd' => ?_, fun hok u hu => ?_,
      fun h => hret.mpr (hample h)⟩
    · exact (congrFun (fill_cell s2 p (setInverses e)) l).trans (congrFun hcell1 l)
    · refine ⟨d'.refcount, ?_⟩
      rw [hdir2, Function.update_of_ne hq', hdir, Function.update_of_ne hq', hd']
    · have hmap : (s2.fill p (setInverses e)).1.mapAt (e.loc vc) =
          some (setInverses e ⟨f.dir, s2.kmalloc, false⟩).dir := by
        unfold Maps.mapAt
        rw [fill_cell, hcell1, hcell, Option.bind_some, hdir2, Function.update_self]
      unfold Maps.glyph
      rw [hmap, ← hentry (hret.mp hok)]
      exact entry_congr (setInverses_uniPgdir e _) u

/-! ### The private copy -/

theorem conClearUnimap_shared (hcell : s.cell (e.loc vc) = some p) (hd : s.heap.dir p = some d)
    (hro : d.readonly = false) (hshared : 1 < d.refcount) :
    conClearUnimap e s vc = clearFresh e (s.modify p UniPagedir.decr) vc (some p) := by
  unfold conClearUnimap
  simp only [hcell, hd, hro]
  rw [if_neg Bool.false_ne_true, if_pos (by omega)]

/-- **The private copy of a shared map.**  It succeeds, and the cell points to a
new directory with the packed entries; or it fails, and everything is as it was. -/
theorem privateCopy_spec (hcell : s.cell (e.loc vc) = some p) (hd : s.heap.dir p = some d)
    (hro : d.readonly = false) (hshared : 1 < d.refcount) :
    ((privateCopy e s vc p d).2 = .ok → ∃ q dq,
        s.heap.dir q = none ∧
        (privateCopy e s vc p d).1.cell = Function.update s.cell (e.loc vc) (some q) ∧
        (privateCopy e s vc p d).1.heap.dir q = some dq ∧ (∀ u, dq.entry u = d.packed u) ∧
        ∀ r ≠ q, Untouched s (privateCopy e s vc p d).1 r) ∧
      ((privateCopy e s vc p d).2 ≠ .ok → (privateCopy e s vc p d).2 = .enomem ∧
        (privateCopy e s vc p d).1.cell = s.cell ∧
        (privateCopy e s vc p d).1.heap.dir = s.heap.dir) ∧
      (Ample s.kmalloc → (privateCopy e s vc p d).2 = .ok ∧
        Ample (privateCopy e s vc p d).1.kmalloc) := by
  have hpos : 0 < d.refcount := by omega
  have hpq : p ≠ s.heap.brk := by
    rintro rfl
    rw [s.heap.unused _ (Nat.le_refl _)] at hd
    cases hd
  have hfree : s.heap.dir s.heap.brk = none := s.heap.unused _ (Nat.le_refl _)
  unfold privateCopy
  rw [conClearUnimap_shared hcell hd hro hshared]
  cases hk : s.kmalloc 0 with
  | false =>
    rw [clearFresh_fail_shared hk hd hpos]
    exact ⟨fun h => (by cases h), fun _ => ⟨rfl, rfl, rfl⟩, fun h => by rw [h 0] at hk; cases hk⟩
  | true =>
    -- The state with the new directory, still empty.
    obtain ⟨s1, hclear, hcell1, hdir1, hk1⟩ : ∃ s1,
        clearFresh e (s.modify p UniPagedir.decr) vc (some p) = (s1, .ok) ∧
        s1.cell = Function.update s.cell (e.loc vc) (some s.heap.brk) ∧
        s1.heap.dir = Function.update (Function.update s.heap.dir p (some d.decr)) s.heap.brk
          (some { UniPagedir.zero with refcount := 1 }) ∧
        s1.kmalloc = fun n => s.kmalloc (n + 1) := by
      have hdecr : (s.heap.modify p UniPagedir.decr).dir =
          Function.update s.heap.dir p (some d.decr) := by
        refine (modify_dir s p _).trans ?_
        rw [hd, Option.map_some]
      refine ⟨_, if_pos hk, rfl, ?_, rfl⟩
      rw [← hdecr]
      rfl
    rw [hclear]
    have hself : s1.cell (e.loc vc) = some s.heap.brk := by rw [hcell1, Function.update_self]
    simp only [hself]
    have hnew : s1.heap.dir s.heap.brk = some { UniPagedir.zero with refcount := 1 } := by
      rw [hdir1, Function.update_self]
    have hdir2 := fill_dir hnew (copyPagedir d)
    have hcell2 := fill_cell s1 s.heap.brk (copyPagedir d)
    have hfill := fill_eq hnew (copyPagedir d)
    have hentry := copyPagedir_entry (d := d)
      (f := ⟨{ UniPagedir.zero with refcount := 1 }, s1.kmalloc, false⟩) fun _ => rfl
    have hample : Ample s.kmalloc → _ := fun h => copyPagedir_ample d
      (f := ⟨{ UniPagedir.zero with refcount := 1 }, s1.kmalloc, false⟩)
      (by rw [hk1]; exact h.tail) rfl
    generalize copyPagedir d ⟨{ UniPagedir.zero with refcount := 1 }, s1.kmalloc, false⟩ = f
      at hdir2 hfill hentry hample
    have herr : (s1.fill s.heap.brk (copyPagedir d)).2 = f.err := by rw [hfill]
    have hk2 : (s1.fill s.heap.brk (copyPagedir d)).1.kmalloc = f.kmalloc := by rw [hfill]
    generalize s1.fill s.heap.brk (copyPagedir d) = r at hdir2 hcell2 herr hk2
    obtain ⟨s2, err⟩ := r
    dsimp only at hdir2 hcell2 herr hk2 ⊢
    subst herr
    have hp2 : s2.heap.dir p = some d.decr := by
      rw [hdir2, Function.update_of_ne hpq, hdir1, Function.update_of_ne hpq, Function.update_self]
    cases hf : f.err with
    | false =>
      rw [if_neg Bool.false_ne_true]
      refine ⟨fun _ => ⟨s.heap.brk, f.dir, hfree, hcell2.trans hcell1, ?_, hentry hf, ?_⟩,
        fun h => absurd rfl h, fun h => ⟨rfl, ?_⟩⟩
      · rw [hdir2, Function.update_self]
      · intro r hr d' hd'
        by_cases hrp : r = p
        · subst hrp
          obtain rfl : d = d' := Option.some.inj (hd.symm.trans hd')
          exact ⟨_, hp2⟩
        · refine ⟨d'.refcount, ?_⟩
          rw [hdir2, Function.update_of_ne hr, hdir1, Function.update_of_ne hr,
            Function.update_of_ne hrp, hd']
      · rw [hk2]
        exact (hample h).1
    | true =>
      rw [if_pos rfl]
      refine ⟨fun h => (by cases h), fun _ => ⟨rfl, ?_, ?_⟩, fun h => ?_⟩
      · change Function.update s2.cell (e.loc vc) (some p) = s.cell
        rw [hcell2, hcell1, Function.update_idem, ← hcell, Function.update_eq_self]
      · rw [releaseAndFree_dir]
        change Function.update (s2.modify p UniPagedir.incr).heap.dir s.heap.brk none = s.heap.dir
        rw [modify_dir, hp2]
        funext r
        by_cases hr : r = s.heap.brk
        · rw [hr, Function.update_self, hfree]
        · rw [Function.update_of_ne hr]
          by_cases hrp : r = p
          · rw [hrp, Function.update_self, hd, Option.map_some]
            simp only [UniPagedir.incr, UniPagedir.decr, Nat.sub_add_cancel hpos]
          · rw [Function.update_of_ne hrp, hdir2, Function.update_of_ne hr, hdir1,
              Function.update_of_ne hr, Function.update_of_ne hrp]
      · rw [(hample h).2] at hf
        cases hf

/-! ### The call -/

theorem conSetUnimap_shared (hcell : s.cell (e.loc vc) = some p) (hd : s.heap.dir p = some d)
    (hro : d.readonly = false) (hshared : 1 < d.refcount) {list : List Unipair}
    (hne : list ≠ []) :
    conSetUnimap e s vc list =
      if (privateCopy e s vc p d).2 = .ok then setPrivate e (privateCopy e s vc p d).1 vc list
      else privateCopy e s vc p d := by
  unfold conSetUnimap
  simp only [hcell, hd, hro, if_neg hne, if_pos hshared]
  rw [if_neg Bool.false_ne_true]
  generalize privateCopy e s vc p d = r
  obtain ⟨s1, ret⟩ := r
  cases ret <;> rfl

omit [DecidableEq L] in
theorem glyph_eq (hcell : s.cell (e.loc vc) = some p) (hd : s.heap.dir p = some d) :
    s.glyph (e.loc vc) = d.entry := by
  funext u
  unfold Maps.glyph Maps.mapAt
  rw [hcell, Option.bind_some, hd]

/-- After success the caller's map is the *packed* one overridden by the list,
and the others have what they had. -/
theorem conSetUnimap_success (hcell : s.cell (e.loc vc) = some p) (hd : s.heap.dir p = some d)
    (hro : d.readonly = false) (hshared : 1 < d.refcount) {list : List Unipair}
    (hne : list ≠ []) (hok : (conSetUnimap e s vc list).2 = .ok) :
    (∀ u < 65536,
        (conSetUnimap e s vc list).1.glyph (e.loc vc) u = override list d.packed u) ∧
      ∀ l ≠ e.loc vc, (conSetUnimap e s vc list).1.cell l = s.cell l ∧
        ∀ q, s.cell l = some q → Untouched s (conSetUnimap e s vc list).1 q := by
  obtain ⟨hcopied, hfailed, -⟩ := privateCopy_spec (e := e) hcell hd hro hshared
  rw [conSetUnimap_shared hcell hd hro hshared hne] at hok ⊢
  split at hok
  · next hcopy =>
    rw [if_pos hcopy]
    obtain ⟨q, dq, hfree, hcell1, hdq, hpacked, huntouched⟩ := hcopied hcopy
    have hself : (privateCopy e s vc p d).1.cell (e.loc vc) = some q := by
      rw [hcell1, Function.update_self]
    obtain ⟨hcells, hothers, hwritten, -⟩ := setPrivate_spec hself hdq list
    refine ⟨fun u hu => ?_, fun l hl => ⟨?_, fun r _ d' hd' => ?_⟩⟩
    · rw [hwritten hok u hu, funext hpacked]
    · rw [hcells l hl, hcell1, Function.update_of_ne hl]
    · have hrq : r ≠ q := by
        rintro rfl
        rw [hfree] at hd'
        cases hd'
      exact (huntouched r hrq).trans (hothers r hrq) d' hd'
  · next hcopy => exact absurd hok hcopy

/-- The others and the way back are right whatever the pattern of pages, so the
call is right if the caller's map is. -/
theorem copyOnWrite_of_packed (hcell : s.cell (e.loc vc) = some p) (hd : s.heap.dir p = some d)
    (hro : d.readonly = false) (hshared : 1 < d.refcount) {list : List Unipair}
    (h : list = [] ∨ ∀ u < 65536, u ∉ codes list → d.packed u = d.entry u) :
    CopyOnWrite e s vc list := by
  by_cases hne : list = []
  · subst hne
    have hsame : conSetUnimap e s vc [] = (s, .ok) := by
      unfold conSetUnimap
      simp only [hcell, hd, hro]
      rfl
    exact ⟨fun _ u _ => by rw [hsame]; rfl,
      fun _ l _ => by rw [hsame]; exact ⟨rfl, fun q _ => .refl s q⟩,
      fun _ _ _ _ hnil => absurd rfl hnil⟩
  · have h := h.resolve_left hne
    refine ⟨fun hok u hu => ?_, fun hok => ?_, fun p' d' hp' hd' _ hfail => ?_⟩
    · rw [(conSetUnimap_success hcell hd hro hshared hne hok).1 u hu, glyph_eq hcell hd]
      by_cases hmem : u ∈ codes list
      · exact override_of_mem hmem _ _
      · rw [override_of_notMem hmem, override_of_notMem hmem, h u hu hmem]
    · exact (conSetUnimap_success hcell hd hro hshared hne hok).2
    · obtain rfl : p = p' := Option.some.inj (hcell.symm.trans hp')
      obtain rfl : d = d' := Option.some.inj (hd.symm.trans hd')
      rw [conSetUnimap_shared hcell hd hro hshared hne, if_neg hfail]
      exact (privateCopy_spec hcell hd hro hshared).2.1 hfail

/-- With memory enough the call succeeds, so the caller's map shows what the
copy did. -/
theorem packed_of_copyOnWrite (hcell : s.cell (e.loc vc) = some p) (hd : s.heap.dir p = some d)
    (hro : d.readonly = false) (hshared : 1 < d.refcount) {list : List Unipair}
    (hk : Ample s.kmalloc) (h : CopyOnWrite e s vc list) :
    list = [] ∨ ∀ u < 65536, u ∉ codes list → d.packed u = d.entry u := by
  by_cases hne : list = []
  · exact .inl hne
  · refine .inr fun u hu hmem => ?_
    obtain ⟨hcopied, -, hample⟩ := privateCopy_spec (e := e) hcell hd hro hshared
    obtain ⟨hcopy, hk1⟩ := hample hk
    have hok : (conSetUnimap e s vc list).2 = .ok := by
      rw [conSetUnimap_shared hcell hd hro hshared hne, if_pos hcopy]
      obtain ⟨q, dq, -, hcell1, hdq, -⟩ := hcopied hcopy
      exact (setPrivate_spec (by rw [hcell1, Function.update_self]) hdq list).2.2.2 hk1
    have hwritten := h.written hok u hu
    rw [(conSetUnimap_success hcell hd hro hshared hne hok).1 u hu, glyph_eq hcell hd,
      override_of_notMem hmem, override_of_notMem hmem] at hwritten
    exact hwritten

/-- **`con_set_unimap` is copy on write** for a list, whatever the allocator
answers, exactly when every code that the list leaves alone finds its old entry
at its own place among the pages that are there; and for every list exactly when
the pages up to the last entry are all there. -/
theorem copy_on_write_iff (hcell : s.cell (e.loc vc) = some p) (hd : s.heap.dir p = some d)
    (hro : d.readonly = false) (hshared : 1 < d.refcount) (list : List Unipair) :
    ((∀ k, CopyOnWrite e { s with kmalloc := k } vc list) ↔
      (list = [] ∨ ∀ u < 65536, u ∉ codes list → d.packed u = d.entry u)) ∧
    ((∀ list k, CopyOnWrite e { s with kmalloc := k } vc list) ↔ d.Dense) := by
  refine ⟨⟨fun h => ?_, fun h k => ?_⟩, ⟨fun h => ?_, fun h list k => ?_⟩⟩
  · exact packed_of_copyOnWrite (s := { s with kmalloc := fun _ => true }) hcell hd hro hshared
      (fun _ => rfl) (h fun _ => true)
  · exact copyOnWrite_of_packed (s := { s with kmalloc := k }) hcell hd hro hshared h
  · refine dense_of_packed_eq fun u hu => ?_
    -- A list that sets some other code.
    let w : Unipair := ⟨if u = 0 then 1 else 0, 0⟩
    have hw : u ∉ codes [w] := by
      intro hmem
      have heq : u = w.unicode.toNat := List.mem_singleton.mp hmem
      by_cases hu0 : u = 0
      · simp [w, hu0] at heq
      · simp [w, hu0] at heq
    have hpacked := packed_of_copyOnWrite (s := { s with kmalloc := fun _ => true }) hcell hd hro
      hshared (fun _ => rfl) (h [w] fun _ => true)
    exact (hpacked.resolve_left (List.cons_ne_nil w [])) u hu hw
  · exact copyOnWrite_of_packed (s := { s with kmalloc := k }) hcell hd hro hshared
      (.inr fun u hu _ => Dense.packed_eq h hu)

/-- A directory with the glyph 1 for the code `0x21`, in its first page. -/
def oneGlyph : UniPagedir :=
  ({ UniPagedir.zero with refcount := 2 } : UniPagedir).store (fun _ => none) (fun _ => 0xffff) 0x21 1

/-- Two of three cells share that directory. -/
def twoHolders : Maps (Fin 3) where
  cell := fun l => if l.val = 2 then none else some 0
  heap := { dir := fun q => if q = 0 then some oneGlyph else none
            brk := 1
            unused := fun q hq => if_neg (by omega) }
  dflt := none
  kmalloc := fun _ => true

theorem dense_oneGlyph : oneGlyph.Dense := by
  intro m n hmn hn _ k _
  have hpage : oneGlyph.page n = none := by
    unfold oneGlyph UniPagedir.store
    refine (page_setRow { UniPagedir.zero with refcount := 2 } _ n _).trans ?_
    split
    · exact Function.update_of_ne (by rw [shift_six]; rw [shift_eleven] at *; omega) _ _
    · rfl
  rw [hpage]
  rfl

theorem copy_on_write_iff_oneGlyph :
    CopyOnWrite threeConsoles { twoHolders with kmalloc := fun n => n ≠ 1 } 1 [⟨0x22, 2⟩] :=
  (copy_on_write_iff (s := twoHolders) (p := 0) (d := oneGlyph) rfl rfl rfl (by decide) []).2.mpr
    dense_oneGlyph _ _

/-- The letter `A` alone in a shared map, and its copy gets one more glyph: the
entry of `A` (`0x41`) comes out at `0x01`. -/
theorem sparse_copy_moves :
    let s := Lib.run (mapStep threeConsoles) (bootMaps fun _ => true)
      [.clear 0, .set 0 [⟨0x41, 1⟩], .copy 1 (some 0)]
    let r := conSetUnimap threeConsoles s 1 [⟨0x100, 2⟩]
    r.2 = .ok ∧ s.glyph 1 0x41 = 1 ∧ r.1.glyph 1 0x41 = 0xffff ∧ r.1.glyph 1 0x01 = 1 := by
  decide +kernel

end LinuxConsole
