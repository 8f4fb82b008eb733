import LinuxConsole.Map.Glyphs

/-!
# The inverse translation tables

A Unicode map carries, for each of the four translation maps, a table from glyphs back to codes,
which a selection is read with.  The tables are caches: `set_inverse_transl` computes one from the
map and from `translations`, and every function that changes either has to compute them anew.

`CharTables` adds `translations[USER_MAP]`, which all consoles share, to the maps of the consoles.
`con_set_trans_old` and `con_set_trans_new` write it and then refresh the tables of the consoles of
the caller's display only.  **`inverses_agree_run`** says along which runs the tables nevertheless
agree with the maps, and `inverses_agree_setTrans_iff` that the condition on these two calls is
exact.
-/

namespace LinuxConsole

open Lib

/-- The maps of the consoles and `translations[USER_MAP]`. -/
structure CharTables (L : Type) where
  maps : Maps L
  userMap : Nat → Nat

/-- What `con_set_trans_old` and `con_set_trans_new` return. -/
inductive TransRet
  | ok
  | efault
  deriving DecidableEq

variable {C L : Type} [DecidableEq L]

/-- The user map in force. -/
def MapEnv.withUser (e : MapEnv C L) (user : Nat → Nat) : MapEnv C L := { e with userMap := user }

/-- One turn of the loop of `update_user_maps`, with the directory refreshed last. -/
def refreshUser (e : MapEnv C L) (u : Maps L × Option Nat) (tmp : Option C) :
    Maps L × Option Nat :=
  match tmp.bind fun c => u.1.cell (e.loc c) with
  | none => u
  | some p =>
    if u.2 = some p then u
    else ((u.1.fill p fun f => setInverseTransl e f .user).1, some p)

/-- `update_user_maps`. -/
def updateUserMaps (e : MapEnv C L) (s : Maps L) (vc : C) : Maps L :=
  ((e.display vc).foldl (refreshUser e) (s, none)).1

/-- Write `translations[USER_MAP]` and refresh the tables that depend on it. -/
def setUserMap (e : MapEnv C L) (s : CharTables L) (vc : C) (user : Nat → Nat) : CharTables L where
  maps := updateUserMaps (e.withUser user) s.maps vc
  userMap := user

/-- The table that `con_set_trans_old` makes of its bytes. -/
def directMap (arg : Nat → BitVec 8) (i : Nat) : Nat := 0xf000 ||| (arg i).toNat

/-- `con_set_trans_old`; `arg` is what `__get_user` reads, if `access_ok` allows it. -/
def conSetTransOld (e : MapEnv C L) (s : CharTables L) (vc : C) (arg : Option (Nat → BitVec 8)) :
    CharTables L × TransRet :=
  match arg with
  | none => (s, .efault)
  | some arg => (setUserMap e s vc (directMap arg), .ok)

/-- `con_set_trans_new`. -/
def conSetTransNew (e : MapEnv C L) (s : CharTables L) (vc : C) (arg : Option (Nat → BitVec 16)) :
    CharTables L × TransRet :=
  match arg with
  | none => (s, .efault)
  | some arg => (setUserMap e s vc fun i => (arg i).toNat, .ok)

/-- The calls that write a translation map or a Unicode map. -/
inductive TransOp (C : Type)
  | setTransOld (vc : C) (arg : Option (Nat → BitVec 8))
  | setTransNew (vc : C) (arg : Option (Nat → BitVec 16))
  | maps (op : MapOp C)

/-- One call. -/
def transStep (e : MapEnv C L) (s : CharTables L) : TransOp C → CharTables L
  | .setTransOld vc arg => (conSetTransOld e s vc arg).1
  | .setTransNew vc arg => (conSetTransNew e s vc arg).1
  | .maps op => { s with maps := mapStep (e.withUser s.userMap) s.maps op }

/-- **The inverse tables agree with the maps.**  Every console has no map or one that is there, and
a nonzero entry of a table of its map is a code that the translation map of the table takes to a
code of that glyph. -/
def InversesAgree (e : MapEnv C L) (s : CharTables L) : Prop :=
  ∀ vc p, s.maps.cell (e.loc vc) = some p → ∃ d, s.maps.mapAt (e.loc vc) = some d ∧
    ∀ m q, d.inverseTranslations m = some q → ∀ g < maxGlyph, q g ≠ 0 →
      convUniToPc (s.maps.mapAt (e.loc vc)) (translations s.userMap m (q g)) = g

/-- The new user map may be set from the console `vc`: a map with a table for the user map is in use
on the display of `vc` as well, or it shows the same glyph for the old and the new entry of every
code that its table names. -/
def RefreshesUser (e : MapEnv C L) (s : CharTables L) (vc : C) (user : Nat → Nat) : Prop :=
  ∀ c p d q, s.maps.cell (e.loc c) = some p → s.maps.heap.dir p = some d →
    d.inverseTranslations .user = some q →
      (∃ tmp, some tmp ∈ e.display vc ∧ s.maps.cell (e.loc tmp) = some p) ∨
      ∀ g < maxGlyph, q g ≠ 0 →
        convUniToPc (some d) (user (q g)) = convUniToPc (some d) (s.userMap (q g))

/-- The calls after which the tables still agree. -/
def Refreshes (e : MapEnv C L) (s : CharTables L) : TransOp C → Prop
  | .setTransOld vc arg => ∀ a, arg = some a → RefreshesUser e s vc (directMap a)
  | .setTransNew vc arg => ∀ a, arg = some a → RefreshesUser e s vc fun i => (a i).toNat
  | .maps op => Orderly e s.maps op

/-! ### One table -/

/-- The table `q` is right for the directory `d` and the translation map `t`. -/
def Inverts (d : UniPagedir) (t q : Nat → Nat) : Prop :=
  ∀ g < maxGlyph, q g ≠ 0 → convUniToPc (some d) (t (q g)) = g

/-- The tables of a directory are right. -/
def UniPagedir.InversesRight (user : Nat → Nat) (d : UniPagedir) : Prop :=
  ∀ m q, d.inverseTranslations m = some q → Inverts d (translations user m) q

theorem convUniToPc_of_pages {d d' : UniPagedir} (h : d'.uniPgdir = d.uniPgdir) (u : Nat) :
    convUniToPc (some d') u = convUniToPc (some d) u := by
  refine convUniToPc_congr (fun v _ => ?_) u
  rw [Option.map_some, Option.map_some, entry_congr h]

theorem Inverts.congr {d d' : UniPagedir} {t q : Nat → Nat} (h : Inverts d t q)
    (hpages : d'.uniPgdir = d.uniPgdir) : Inverts d' t q := by
  intro g hg hq
  rw [convUniToPc_of_pages hpages]
  exact h g hg hq

theorem UniPagedir.InversesRight.congr {user : Nat → Nat} {d d' : UniPagedir}
    (h : d.InversesRight user) (hpages : d'.uniPgdir = d.uniPgdir)
    (htables : d'.inverseTranslations = d.inverseTranslations) : d'.InversesRight user := by
  intro m q hq
  rw [htables] at hq
  exact (h m q hq).congr hpages

theorem UniPagedir.emptied_right (user : Nat → Nat) (d : UniPagedir) :
    d.emptied.InversesRight user :=
  fun _ _ hq => by cases hq

theorem Inverts.entry {d : UniPagedir} {t q : Nat → Nat} (h : Inverts d t q) (j : Nat) :
    Inverts d t (inverseEntry (some d) t q j) := by
  rw [inverseEntry]
  split
  · next hglyph =>
    intro g hg hj
    by_cases heq : g = (convUniToPc (some d) (t j)).toNat
    · rw [heq, Function.update_self, Int.toNat_of_nonneg hglyph.1]
    · rw [Function.update_of_ne heq] at hj ⊢
      exact h g hg hj
  · exact h

/-- **What `set_inverse_transl` computes is right.** -/
theorem inverts_foldl (d : UniPagedir) (t : Nat → Nat) (js : List Nat) :
    Inverts d t (js.foldl (inverseEntry (some d) t) fun _ => 0) := by
  have hzero : Inverts d t fun _ => 0 := fun _ _ hq => absurd rfl hq
  generalize (fun _ => 0 : Nat → Nat) = q at *
  induction js generalizing q with
  | nil => exact hzero
  | cons j js ih => exact ih _ (hzero.entry j)

omit [DecidableEq L] in
theorem setInverseTransl_tables (e : MapEnv C L) (f : Filling) (i m : CharMap) :
    (m ≠ i → (setInverseTransl e f i).dir.inverseTranslations m = f.dir.inverseTranslations m) ∧
      ∀ q, (setInverseTransl e f i).dir.inverseTranslations i = some q →
        Inverts f.dir (translations e.userMap i) q := by
  have hright := inverts_foldl f.dir (translations e.userMap i) (List.range 256)
  rw [setInverseTransl.eq_def]
  generalize (List.range 256).foldl (inverseEntry (some f.dir) (translations e.userMap i))
    (fun _ => 0) = q at hright
  dsimp only
  have hfill : (m ≠ i → Function.update f.dir.inverseTranslations i (some q) m =
      f.dir.inverseTranslations m) ∧
      ∀ r, Function.update f.dir.inverseTranslations i (some q) i = some r →
        Inverts f.dir (translations e.userMap i) r := by
    refine ⟨fun hm => Function.update_of_ne hm _ _, fun r hr => ?_⟩
    rw [Function.update_self] at hr
    obtain rfl := Option.some.inj hr
    exact hright
  split
  · exact hfill
  · next hnone =>
    split
    · exact hfill
    · refine ⟨fun _ => rfl, fun r hr => ?_⟩
      rw [hnone] at hr
      cases hr

omit [DecidableEq L] in
/-- **All four tables are right after `set_inverse_transl` for each of them.** -/
theorem setInverses_right (e : MapEnv C L) (f : Filling) :
    (setInverses e f).dir.InversesRight e.userMap := by
  have hkeep : ∀ (done : List CharMap) (i : CharMap) (f : Filling),
      (∀ m ∈ done, ∀ q, f.dir.inverseTranslations m = some q →
        Inverts f.dir (translations e.userMap m) q) →
      ∀ m ∈ i :: done, ∀ q, (setInverseTransl e f i).dir.inverseTranslations m = some q →
        Inverts (setInverseTransl e f i).dir (translations e.userMap m) q := by
    intro done i f h m hm q hq
    obtain ⟨hothers, hthis⟩ := setInverseTransl_tables e f i m
    refine Inverts.congr ?_ (setInverseTransl_uniPgdir e f i)
    by_cases hmi : m = i
    · subst hmi
      exact hthis q hq
    · rw [hothers hmi] at hq
      exact h m ((List.mem_cons.mp hm).resolve_left hmi) q hq
  have h1 := hkeep [] .lat1 f fun _ hm => absurd hm List.not_mem_nil
  have h2 := hkeep _ .graf _ h1
  have h3 := hkeep _ .ibmpc _ h2
  have h4 := hkeep _ .user _ h3
  intro m q hq
  refine h4 m ?_ q hq
  cases m <;> decide

/-! ### The calls on the Unicode maps -/

/-- The tables of all directories but the one at `o` are right. -/
def RightBut (user : Nat → Nat) (s : Maps L) (o : Option Nat) : Prop :=
  ∀ p d, some p ≠ o → s.heap.dir p = some d → d.InversesRight user

section Maps

variable {e : MapEnv C L} {s : Maps L} {vc : C} {p : Nat} {o : Option Nat} {user : Nat → Nat}

omit [DecidableEq L] in
theorem RightBut.weaken (h : RightBut user s none) (o : Option Nat) : RightBut user s o :=
  fun p d _ hd => h p d (Option.some_ne_none p) hd

omit [DecidableEq L] in
theorem RightBut.update (h : RightBut user s o) {s' : Maps L} {o' : Option UniPagedir}
    (hdir : s'.heap.dir = Function.update s.heap.dir p o')
    (hnew : some p ≠ o → ∀ d, o' = some d → d.InversesRight user) : RightBut user s' o := by
  intro q d hq hd
  rw [hdir] at hd
  by_cases hqp : q = p
  · subst hqp
    rw [Function.update_self] at hd
    exact hnew hq d hd
  · rw [Function.update_of_ne hqp] at hd
    exact h q d hq hd

omit [DecidableEq L] in
theorem RightBut.modify (h : RightBut user s o) (p : Nat) {f : UniPagedir → UniPagedir}
    (hpages : ∀ d, (f d).uniPgdir = d.uniPgdir)
    (htables : ∀ d, (f d).inverseTranslations = d.inverseTranslations) :
    RightBut user (s.modify p f) o := by
  refine h.update (modify_dir s p f) fun hp d hd => ?_
  obtain ⟨d', hd', rfl⟩ := Option.map_eq_some_iff.mp hd
  exact (h p d' hp hd').congr (hpages d') (htables d')

omit [DecidableEq L] in
theorem RightBut.incr (h : RightBut user s o) (p : Nat) :
    RightBut user (s.modify p UniPagedir.incr) o :=
  h.modify p (fun _ => rfl) fun _ => rfl

omit [DecidableEq L] in
theorem RightBut.decr (h : RightBut user s o) (p : Nat) :
    RightBut user (s.modify p UniPagedir.decr) o :=
  h.modify p (fun _ => rfl) fun _ => rfl

omit [DecidableEq L] in
theorem RightBut.release (h : RightBut user s o) (p : Nat) :
    RightBut user (conReleaseUnimap s p) o := by
  refine h.update (modify_dir (s.forgetDflt p) p UniPagedir.emptied) fun _ d hd => ?_
  obtain ⟨d', -, rfl⟩ := Option.map_eq_some_iff.mp hd
  exact d'.emptied_right user

omit [DecidableEq L] in
theorem RightBut.free (h : RightBut user s (some p)) : RightBut user (releaseAndFree s p) none := by
  intro q d _ hd
  rw [releaseAndFree_dir] at hd
  by_cases hqp : q = p
  · rw [hqp, Function.update_self] at hd
    cases hd
  · rw [Function.update_of_ne hqp] at hd
    exact h q d (fun heq => hqp (Option.some.inj heq)) hd

omit [DecidableEq L] in
theorem RightBut.fill (h : RightBut user s (some p)) (f : Filling → Filling) :
    RightBut user (s.fill p f).1 (some p) := by
  cases hd : s.heap.dir p with
  | none =>
    rw [Maps.fill, hd]
    exact h
  | some d => exact h.update (fill_dir hd f) fun hp => absurd rfl hp

omit [DecidableEq L] in
/-- **The directory that was filled is right when its tables have been computed.** -/
theorem RightBut.invert (h : RightBut e.userMap s (some p)) :
    RightBut e.userMap (s.fill p (setInverses e)).1 none := by
  intro q d _ hd
  by_cases hqp : q = p
  · subst hqp
    cases hq : s.heap.dir q with
    | none =>
      rw [Maps.fill, hq] at hd
      exact absurd (hq.symm.trans hd) (Option.some_ne_none d).symm
    | some d' =>
      rw [fill_dir hq, Function.update_self] at hd
      obtain rfl := Option.some.inj hd
      exact setInverses_right e _
  · exact h.fill _ q d (fun heq => hqp (Option.some.inj heq)) hd

theorem RightBut.unify (h : RightBut user s (some p)) (vc : C) :
    ((conUnifyUnimap e s vc p).2 = true → RightBut user (conUnifyUnimap e s vc p).1 none) ∧
      ((conUnifyUnimap e s vc p).2 = false → (conUnifyUnimap e s vc p).1 = s) := by
  refine ⟨fun htrue => ?_, conUnifyUnimap_none vc⟩
  rw [conUnifyUnimap.eq_def] at htrue ⊢
  split at htrue
  · cases htrue
  · split at htrue
    · cases htrue
    · next q _ => exact (RightBut.incr h q).free

theorem RightBut.clearFresh (h : RightBut user s none) (o : Option Nat) :
    RightBut user (clearFresh e s vc o).1 none := by
  rw [clearFresh.eq_def]
  split
  · refine h.update (p := s.heap.brk) rfl fun _ d hd => ?_
    obtain rfl := Option.some.inj hd
    exact fun m q hq => by cases hq
  · cases o with
    | none => exact h
    | some p => exact h.incr p

theorem RightBut.conClearUnimap (h : RightBut user s none) (vc : C) :
    RightBut user (conClearUnimap e s vc).1 none := by
  rw [conClearUnimap.eq_def]
  split
  · exact h.clearFresh none
  · next p _ =>
    split
    · exact h
    · split
      · exact h
      · split
        · exact (h.decr p).clearFresh (some p)
        · refine RightBut.release ?_ p
          exact RightBut.modify (s := s.forgetDflt p) h p (fun _ => rfl) fun _ => rfl

theorem RightBut.privateCopy (h : RightBut user s none) (vc : C) (d : UniPagedir) :
    ((privateCopy e s vc p d).2 = .ok → ∃ q, (privateCopy e s vc p d).1.cell (e.loc vc) = some q ∧
        RightBut user (privateCopy e s vc p d).1 (some q)) ∧
      ((privateCopy e s vc p d).2 ≠ .ok → RightBut user (privateCopy e s vc p d).1 none) := by
  have hclear := h.conClearUnimap (e := e) vc
  rw [privateCopy.eq_def]
  generalize LinuxConsole.conClearUnimap e s vc = r at hclear
  obtain ⟨s1, ret⟩ := r
  cases ret with
  | ok =>
    cases hq : s1.cell (e.loc vc) with
    | none =>
      simp only [hq]
      exact ⟨fun h => (by cases h), fun _ => hclear⟩
    | some q =>
      simp only [hq]
      have hfill := (hclear.weaken (some q)).fill (copyPagedir d)
      have hcell := fill_cell s1 q (copyPagedir d)
      generalize s1.fill q (copyPagedir d) = r at hfill hcell
      obtain ⟨s2, err⟩ := r
      cases err with
      | true => exact ⟨fun h => (by cases h), fun _ => (RightBut.incr hfill p).free⟩
      | false => exact ⟨fun _ => ⟨q, (congrFun hcell _).trans hq, hfill⟩, fun h => absurd rfl h⟩
  | eio | enomem | einval | oops => exact ⟨fun h => (by cases h), fun _ => hclear⟩

/-- **After a loading all tables are right.** -/
theorem RightBut.setPrivate (hcell : s.cell (e.loc vc) = some p)
    (h : RightBut e.userMap s (some p)) (list : List Unipair) :
    RightBut e.userMap (setPrivate e s vc list).1 none := by
  rw [setPrivate.eq_def]
  simp only [hcell]
  have hfill := h.fill fun f => insertList f list
  generalize (s.fill p fun f => insertList f list) = r at hfill
  obtain ⟨s1, err⟩ := r
  obtain ⟨hunified, hnot⟩ := hfill.unify (e := e) vc
  dsimp only at hfill hunified hnot ⊢
  generalize conUnifyUnimap e s1 vc p = r at hunified hnot
  obtain ⟨s2, unified⟩ := r
  cases unified with
  | true => exact hunified rfl
  | false =>
    obtain rfl := hnot rfl
    exact hfill.invert

theorem RightBut.conSetUnimap (h : RightBut e.userMap s none) (vc : C) (list : List Unipair) :
    RightBut e.userMap (conSetUnimap e s vc list).1 none := by
  rw [conSetUnimap.eq_def]
  split
  · exact h
  · next p hcell =>
    split
    · exact h
    · next d _ =>
      split_ifs
      · exact h
      · exact h
      · obtain ⟨hcopied, hfailed⟩ := h.privateCopy (e := e) (p := p) vc d
        generalize LinuxConsole.privateCopy e s vc p d = r at hcopied hfailed
        obtain ⟨s1, ret⟩ := r
        cases ret with
        | ok =>
          obtain ⟨q, hq, hright⟩ := hcopied rfl
          exact RightBut.setPrivate hq hright list
        | eio | enomem | einval | oops => exact hfailed MapRet.noConfusion
      · exact RightBut.setPrivate (s := s.forgetDflt p) hcell (RightBut.weaken h _) list

theorem RightBut.conFreeUnimap (h : RightBut user s none) (vc : C) :
    RightBut user (conFreeUnimap e s vc).1 none := by
  rw [conFreeUnimap.eq_def]
  split
  · exact h
  · next p _ =>
    split
    · exact h
    · have hdecr := RightBut.decr (s := s.setCell (e.loc vc) none) h p
      dsimp only
      split
      · exact hdecr
      · exact (hdecr.weaken (some p)).free

theorem RightBut.conCopyUnimap (h : RightBut user s none) (dst : C) (src : Option C) :
    RightBut user (conCopyUnimap e s dst src).1 none := by
  rw [conCopyUnimap.eq_def]
  split
  · exact h
  · split
    · exact h
    · next q _ =>
      split
      · exact h
      · exact (h.conFreeUnimap dst).incr q

/-- **After the default map is set all tables are right**, whichever way the test on the count
goes. -/
theorem RightBut.conSetDefaultUnimap (h : RightBut e.userMap s none) (vc : C) :
    RightBut e.userMap (conSetDefaultUnimap e s vc).1 none := by
  rw [conSetDefaultUnimap.eq_def]
  split
  · next dflt _ =>
    have htaken : RightBut e.userMap ((s.modify dflt UniPagedir.incr).setCell (e.loc vc)
        (some dflt)) none := h.incr dflt
    split
    · exact h
    · dsimp only
      split
      · exact htaken
      · next p _ =>
        split
        · exact htaken
        · split
          · exact ((htaken.decr p).weaken (some p)).free
          · exact htaken.decr p
  · have hclear := h.conClearUnimap (e := e) vc
    generalize LinuxConsole.conClearUnimap e s vc = r at hclear
    obtain ⟨s1, ret⟩ := r
    cases ret with
    | eio | enomem | einval | oops => exact hclear
    | ok =>
      dsimp only at hclear ⊢
      split
      · exact hclear
      · next p _ =>
        have hfill := (hclear.weaken (some p)).fill (insertPairs (dfontPairs e))
        generalize s1.fill p (insertPairs (dfontPairs e)) = r at hfill
        obtain ⟨s2, err⟩ := r
        obtain ⟨hunified, hnot⟩ := hfill.unify (e := e) vc
        dsimp only at hfill hunified hnot ⊢
        generalize conUnifyUnimap e s2 vc p = r at hunified hnot
        obtain ⟨s3, unified⟩ := r
        cases unified with
        | true => exact hunified rfl
        | false =>
          obtain rfl := hnot rfl
          exact hfill.invert

/-- **No call on the Unicode maps makes a table wrong.** -/
theorem RightBut.mapStep (h : RightBut e.userMap s none) (op : MapOp C) :
    RightBut e.userMap (mapStep e s op) none := by
  cases op with
  | clear vc => exact h.conClearUnimap vc
  | set vc list => exact h.conSetUnimap vc list
  | setDefault vc => exact h.conSetDefaultUnimap vc
  | copy dst src => exact h.conCopyUnimap dst src
  | free vc => exact h.conFreeUnimap vc
  | unify vc =>
    rw [LinuxConsole.mapStep.eq_def]
    dsimp only
    split
    · exact h
    · next p _ =>
      obtain ⟨hunified, hnot⟩ := (h.weaken (some p)).unify (e := e) vc
      cases hu : (conUnifyUnimap e s vc p).2 with
      | true => exact hunified hu
      | false =>
        rw [hnot hu]
        exact h
  | protect vc rdonly =>
    rw [LinuxConsole.mapStep.eq_def]
    dsimp only
    rw [conProtectUnimap.eq_def]
    split
    · exact h
    · next p _ => exact h.modify p (fun _ => rfl) fun _ => rfl

end Maps

/-! ### Setting the user map -/

section UserMap

variable {e : MapEnv C L} {s : Maps L} {vc : C}

/-- The map at `p` is in use on one of these consoles. -/
def InUse (e : MapEnv C L) (s : Maps L) (consoles : List (Option C)) (p : Nat) : Prop :=
  ∃ tmp, some tmp ∈ consoles ∧ s.cell (e.loc tmp) = some p

omit [DecidableEq L] in
/-- What the loop of `update_user_maps` has done after some consoles: the table for the user map is
right or missing in the maps in use on them, and all else is as it was. -/
structure UserRefreshed (e : MapEnv C L) (s : Maps L) (consoles : List (Option C))
    (u : Maps L × Option Nat) : Prop where
  cell : u.1.cell = s.cell
  dflt : u.1.dflt = s.dflt
  refs : u.1.refs = s.refs
  last : ∀ p, u.2 = some p → InUse e s consoles p
  others : ∀ p, ¬InUse e s consoles p → u.1.heap.dir p = s.heap.dir p
  tables : ∀ p d, InUse e s consoles p → s.heap.dir p = some d → ∃ d', u.1.heap.dir p = some d' ∧
    d'.uniPgdir = d.uniPgdir ∧
    (∀ m, m ≠ .user → d'.inverseTranslations m = d.inverseTranslations m) ∧
    ∀ q, d'.inverseTranslations .user = some q → Inverts d e.userMap q

omit [DecidableEq L] in
theorem refreshed_nil (e : MapEnv C L) (s : Maps L) : UserRefreshed e s [] (s, none) where
  cell := rfl
  dflt := rfl
  refs := rfl
  last := fun _ h => by cases h
  others := fun _ _ => rfl
  tables := fun _ _ h _ => by obtain ⟨_, hmem, _⟩ := h; exact absurd hmem List.not_mem_nil

omit [DecidableEq L] in
theorem setInverseTransl_keepsCount (e : MapEnv C L) (i : CharMap) :
    KeepsCount fun f => setInverseTransl e f i := by
  intro f
  change (setInverseTransl e f i).dir.refcount = f.dir.refcount
  rw [setInverseTransl.eq_def]
  dsimp only
  split
  · rfl
  · split <;> rfl

omit [DecidableEq L] in
theorem InUse.append {consoles : List (Option C)} {p : Nat} (tmp : Option C) :
    InUse e s (consoles ++ [tmp]) p ↔
      InUse e s consoles p ∨ (tmp.bind fun c => s.cell (e.loc c)) = some p := by
  rw [InUse, InUse]
  simp only [List.mem_append, List.mem_singleton, Option.bind_eq_some_iff]
  constructor
  · rintro ⟨c, hc | rfl, hcell⟩
    · exact .inl ⟨c, hc, hcell⟩
    · exact .inr ⟨c, rfl, hcell⟩
  · rintro (⟨c, hc, hcell⟩ | ⟨c, rfl, hcell⟩)
    · exact ⟨c, .inl hc, hcell⟩
    · exact ⟨c, .inr rfl, hcell⟩

omit [DecidableEq L] in
theorem UserRefreshed.step {consoles : List (Option C)} {u : Maps L × Option Nat}
    (h : UserRefreshed e s consoles u) (tmp : Option C) :
    UserRefreshed e s (consoles ++ [tmp]) (refreshUser e u tmp) := by
  have hbind : (tmp.bind fun c => u.1.cell (e.loc c)) = tmp.bind fun c => s.cell (e.loc c) := by
    rw [h.cell]
  -- Nothing is done where the map has been refreshed already, or where there is none.
  have hsame (hdone : ∀ p, (tmp.bind fun c => s.cell (e.loc c)) = some p → InUse e s consoles p) :
      UserRefreshed e s (consoles ++ [tmp]) u := by
    have hiff (p : Nat) : InUse e s (consoles ++ [tmp]) p ↔ InUse e s consoles p := by
      rw [InUse.append]
      exact or_iff_left_of_imp (hdone p)
    exact
      { cell := h.cell
        dflt := h.dflt
        refs := h.refs
        last := fun p hp => (hiff p).mpr (h.last p hp)
        others := fun p hp => h.others p fun hin => hp ((hiff p).mpr hin)
        tables := fun p d hp hd => h.tables p d ((hiff p).mp hp) hd }
  rw [refreshUser.eq_def, hbind]
  split
  · next hnone =>
    refine hsame fun p hp => ?_
    rw [hnone] at hp
    cases hp
  · next p hp =>
    split
    · next hlast =>
      refine hsame fun p' hp' => ?_
      obtain rfl := Option.some.inj (hp.symm.trans hp')
      exact h.last p hlast
    · have hrefs := refs_fill u.1 p (setInverseTransl_keepsCount e .user)
      refine
        { cell := (fill_cell u.1 p _).trans h.cell
          dflt := (fill_dflt u.1 p _).trans h.dflt
          refs := hrefs.trans h.refs
          last := ?_
          others := ?_
          tables := ?_ }
      · intro p' hp'
        obtain rfl := Option.some.inj hp'
        exact (InUse.append tmp).mpr (.inr hp)
      · intro p' hp'
        rw [InUse.append, not_or] at hp'
        have hne : p' ≠ p := by
          rintro rfl
          exact hp'.2 hp
        rw [← h.others p' hp'.1]
        cases hd : u.1.heap.dir p with
        | none => rw [Maps.fill, hd]
        | some d => rw [fill_dir hd, Function.update_of_ne hne]
      · intro p' d hp' hd
        by_cases hpp : p' = p
        · -- The directory as the loop finds it, refreshed before or not.
          subst hpp
          obtain ⟨d', hd', hpages, hkept⟩ : ∃ d', u.1.heap.dir p' = some d' ∧
              d'.uniPgdir = d.uniPgdir ∧
              ∀ m, m ≠ .user → d'.inverseTranslations m = d.inverseTranslations m := by
            by_cases hin : InUse e s consoles p'
            · obtain ⟨d', hd', hpages, hkept, -⟩ := h.tables p' d hin hd
              exact ⟨d', hd', hpages, hkept⟩
            · exact ⟨d, (h.others p' hin).trans hd, rfl, fun _ _ => rfl⟩
          have htables := setInverseTransl_tables e ⟨d', u.1.kmalloc, false⟩ .user
          refine ⟨_, by rw [fill_dir hd', Function.update_self], ?_, fun m hm => ?_, fun q hq => ?_⟩
          · exact (setInverseTransl_uniPgdir e _ .user).trans hpages
          · exact ((htables m).1 hm).trans (hkept m hm)
          · exact ((htables .user).2 q hq).congr hpages.symm
        · have hin : InUse e s consoles p' := by
            refine ((InUse.append tmp).mp hp').resolve_right fun hp'' => hpp ?_
            exact Option.some.inj (hp''.symm.trans hp)
          obtain ⟨d', hd', hrest⟩ := h.tables p' d hin hd
          refine ⟨d', ?_, hrest⟩
          rw [← hd']
          cases hdp : u.1.heap.dir p with
          | none => rw [Maps.fill, hdp]
          | some d => rw [fill_dir hdp, Function.update_of_ne hpp]

omit [DecidableEq L] in
/-- **What `update_user_maps` does**, by induction on the consoles of the display. -/
theorem updateUserMaps_refreshed (e : MapEnv C L) (s : Maps L) (vc : C) :
    ∃ last, UserRefreshed e s (e.display vc) (updateUserMaps e s vc, last) := by
  have hrun : ∀ (todo done : List (Option C)) (u : Maps L × Option Nat), UserRefreshed e s done u →
      UserRefreshed e s (done ++ todo) (todo.foldl (refreshUser e) u) := by
    intro todo
    induction todo with
    | nil =>
      intro done u h
      rw [List.append_nil]
      exact h
    | cons tmp todo ih =>
      intro done u h
      have := ih (done ++ [tmp]) _ (h.step tmp)
      rwa [List.append_assoc] at this
  exact ⟨_, hrun (e.display vc) [] _ (refreshed_nil e s)⟩

end UserMap

/-! ### Runs -/

section Runs

variable [Fintype C] {e : MapEnv C L} {s : CharTables L} {vc : C} {user : Nat → Nat}

theorem refCounts_withUser {s : Maps L} (user : Nat → Nat) :
    RefCounts (e.withUser user) s ↔ RefCounts e s :=
  ⟨fun h => ⟨h.count, h.released, h.dflt_live⟩, fun h => ⟨h.count, h.released, h.dflt_live⟩⟩

/-- With the counts right, the tables agree exactly if those of every directory are right. -/
theorem inversesAgree_iff (h : RefCounts e s.maps) :
    InversesAgree e s ↔ RightBut s.userMap s.maps none := by
  constructor
  · intro hagree p d _ hd
    have hheld : holders e.cells s.maps.cell p ≠ 0 := by
      intro hzero
      rw [(h.released p).mpr hzero] at hd
      cases hd
    obtain ⟨l, hl, hcell⟩ := exists_holder (Nat.pos_of_ne_zero hheld)
    obtain ⟨vc, -, rfl⟩ := Finset.mem_image.mp hl
    obtain ⟨d', hmap, htables⟩ := hagree vc p hcell
    have hmap' : s.maps.mapAt (e.loc vc) = some d := by
      rw [Maps.mapAt, hcell, Option.bind_some, hd]
    obtain rfl := Option.some.inj (hmap'.symm.trans hmap)
    intro m q hq g hg hqg
    rw [← hmap]
    exact htables m q hq g hg hqg
  · intro hright vc p hcell
    obtain ⟨d, hd, -⟩ := h.own vc hcell
    have hmap : s.maps.mapAt (e.loc vc) = some d := by
      rw [Maps.mapAt, hcell, Option.bind_some, hd]
    refine ⟨d, hmap, ?_⟩
    rw [hmap]
    exact hright p d (Option.some_ne_none p) hd

theorem setUserMap_counts (h : RefCounts e s.maps) (vc : C) (user : Nat → Nat) :
    RefCounts e (setUserMap e s vc user).maps := by
  obtain ⟨last, hafter⟩ := updateUserMaps_refreshed (e.withUser user) s.maps vc
  refine h.of_eq hafter.cell hafter.refs fun p hp hnone => ?_
  have hrefs : s.maps.refs p = none := by
    rw [← hafter.refs]
    exact Option.map_eq_none_iff.mpr hnone
  exact h.dflt_live p (hafter.dflt.symm.trans hp) (Option.map_eq_none_iff.mp hrefs)

/-- **The tables agree after the user map is set exactly if the condition holds.** -/
theorem inversesAgree_setUserMap_iff (h : RefCounts e s.maps) (hagree : InversesAgree e s) :
    InversesAgree e (setUserMap e s vc user) ↔ RefreshesUser e s vc user := by
  have hright := (inversesAgree_iff h).mp hagree
  obtain ⟨last, hafter⟩ := updateUserMaps_refreshed (e.withUser user) s.maps vc
  rw [inversesAgree_iff (setUserMap_counts h vc user)]
  have hdisplay : (e.withUser user).display vc = e.display vc := rfl
  rw [hdisplay] at hafter
  constructor
  · intro hnew c p d q hcell hd hq
    refine or_iff_not_imp_left.mpr fun hnot g hg hqg => ?_
    have hsame : (setUserMap e s vc user).maps.heap.dir p = some d := (hafter.others p hnot).trans hd
    exact (hnew p d (Option.some_ne_none p) hsame .user q hq g hg hqg).trans
      (hright p d (Option.some_ne_none p) hd .user q hq g hg hqg).symm
  · intro hcond p d' _ hd'
    -- The directory before the call, and a console that holds it.
    obtain ⟨d, hd⟩ : ∃ d, s.maps.heap.dir p = some d := by
      refine Option.ne_none_iff_exists'.mp fun hnone => ?_
      have hrefs : (setUserMap e s vc user).maps.refs p = none := by
        refine (congrFun hafter.refs p).trans ?_
        rw [Maps.refs, hnone, Option.map_none]
      rw [Maps.refs, hd', Option.map_some] at hrefs
      cases hrefs
    have hold := hright p d (Option.some_ne_none p) hd
    by_cases hin : InUse e s.maps (e.display vc) p
    · obtain ⟨d'', hd'', hpages, hkept, huser⟩ := hafter.tables p d hin hd
      obtain rfl := Option.some.inj (hd'.symm.trans hd'')
      intro m q hq
      refine Inverts.congr ?_ hpages
      cases m with
      | user => exact huser q hq
      | lat1 | graf | ibmpc =>
        rw [hkept _ (by decide)] at hq
        exact hold _ q hq
    · obtain rfl := Option.some.inj (hd'.symm.trans ((hafter.others p hin).trans hd))
      obtain ⟨l, hl, hcell⟩ := exists_holder (Nat.pos_of_ne_zero fun hzero =>
        Option.some_ne_none d' (hd.symm.trans ((h.released p).mpr hzero)))
      obtain ⟨c, -, rfl⟩ := Finset.mem_image.mp hl
      intro m q hq
      cases m with
      | user =>
        intro g hg hqg
        exact (((hcond c p d' q hcell hd hq).resolve_left hin) g hg hqg).trans
          (hold .user q hq g hg hqg)
      | lat1 => exact hold .lat1 q hq
      | graf => exact hold .graf q hq
      | ibmpc => exact hold .ibmpc q hq

/-- **The condition on `con_set_trans_old` and `con_set_trans_new` is exact.** -/
theorem inverses_agree_setTrans_iff (h : RefCounts e s.maps) (hagree : InversesAgree e s)
    {op : TransOp C} (hop : ∀ o, op ≠ .maps o) :
    InversesAgree e (transStep e s op) ↔ Refreshes e s op := by
  cases op with
  | setTransOld vc arg =>
    cases arg with
    | none => exact iff_of_true hagree fun _ ha => by cases ha
    | some a =>
      refine (inversesAgree_setUserMap_iff h hagree).trans ⟨fun hr a' ha => ?_, fun hr => hr a rfl⟩
      obtain rfl := Option.some.inj ha
      exact hr
  | setTransNew vc arg =>
    cases arg with
    | none => exact iff_of_true hagree fun _ ha => by cases ha
    | some a =>
      refine (inversesAgree_setUserMap_iff h hagree).trans ⟨fun hr a' ha => ?_, fun hr => hr a rfl⟩
      obtain rfl := Option.some.inj ha
      exact hr
  | maps op => exact absurd rfl (hop op)

theorem transStep_counts (h : RefCounts e s.maps) {op : TransOp C} (hop : Refreshes e s op) :
    RefCounts e (transStep e s op).maps := by
  cases op with
  | setTransOld vc arg =>
    cases arg with
    | none => exact h
    | some a => exact setUserMap_counts h vc _
  | setTransNew vc arg =>
    cases arg with
    | none => exact h
    | some a => exact setUserMap_counts h vc _
  | maps op =>
    have horderly : Orderly (e.withUser s.userMap) s.maps op := by
      cases op <;> exact hop
    exact (refCounts_withUser s.userMap).mp
      ((refCounts_step_iff ((refCounts_withUser s.userMap).mpr h) op).mpr horderly)

theorem inverses_step (h : RefCounts e s.maps ∧ InversesAgree e s) {op : TransOp C}
    (hop : Refreshes e s op) :
    RefCounts e (transStep e s op).maps ∧ InversesAgree e (transStep e s op) := by
  have hcounts := transStep_counts h.1 hop
  refine ⟨hcounts, ?_⟩
  cases op with
  | setTransOld vc arg => exact (inverses_agree_setTrans_iff h.1 h.2 fun _ ho => by cases ho).mpr hop
  | setTransNew vc arg => exact (inverses_agree_setTrans_iff h.1 h.2 fun _ ho => by cases ho).mpr hop
  | maps op =>
    have hright := (inversesAgree_iff h.1).mp h.2
    exact (inversesAgree_iff hcounts).mpr
      (RightBut.mapStep (e := e.withUser s.userMap) hright op)

/-- **The inverse tables agree with the maps** in every state of a run whose calls meet the
condition. -/
theorem inverses_agree_run (e : MapEnv C L) (s : CharTables L) (h : RefCounts e s.maps)
    (hagree : InversesAgree e s) (ops : List (TransOp C))
    (hops : Along (transStep e) (Refreshes e) s ops) :
    Along (transStep e) (fun s op => InversesAgree e (transStep e s op)) s ops :=
  Along.imp (I := fun s => RefCounts e s.maps ∧ InversesAgree e s)
    (fun _ _ hs hop => inverses_step hs hop) (fun _ _ hs hop => (inverses_step hs hop).2)
    ⟨h, hagree⟩ hops

end Runs

/-- Two consoles with a cell each, on two displays. -/
def twoDisplays : MapEnv (Fin 2) (Fin 2) where
  loc := id
  display := fun c => [some c]
  userMap := defaultUserMap
  dfontUnicount := fun i => if i = 0x41 then 1 else 0
  dfontUnitable := fun _ => 0x41

/-- The tables at start up. -/
def bootTables : CharTables (Fin 2) where
  maps := bootMaps fun _ => true
  userMap := defaultUserMap

/-- A user map in which the byte `0x41` alone has a glyph. -/
def oneLetter (g : BitVec 16) (i : Nat) : BitVec 16 := if i = 0x41 then 0xf000 ||| g else 0

/-- A user map is loaded on each of the two displays, one after the other. -/
def mapscrnTwice : List (TransOp (Fin 2)) :=
  [.maps (.clear 0), .maps (.clear 1), .setTransNew 1 (some (oneLetter 0x41)),
    .setTransNew 0 (some (oneLetter 0x42))]

/-- **The table of the second display still belongs to the user map that was loaded there**: it
names the byte `0x41` for the glyph `0x41`, and this byte has the glyph `0x42` now. -/
theorem inverses_stale :
    ¬InversesAgree twoDisplays (run (transStep twoDisplays) bootTables mapscrnTwice) := by
  intro h
  obtain ⟨d, hd, htables⟩ := h 1 1 (by decide +kernel)
  have hentry : ((run (transStep twoDisplays) bootTables mapscrnTwice).maps.mapAt 1).bind
      (fun d => (d.inverseTranslations .user).map fun q => q 0x41) = some 0x41 := by
    decide +kernel
  have hglyph : convUniToPc ((run (transStep twoDisplays) bootTables mapscrnTwice).maps.mapAt 1)
      (translations (run (transStep twoDisplays) bootTables mapscrnTwice).userMap .user 0x41) =
        0x42 := by
    decide +kernel
  rw [show (run (transStep twoDisplays) bootTables mapscrnTwice).maps.mapAt 1 = some d from hd,
    Option.bind_some] at hentry
  obtain ⟨q, hq, hq41⟩ := Option.map_eq_some_iff.mp hentry
  have hagree := htables .user q hq 0x41 (by decide) (by rw [hq41]; decide)
  rw [hq41] at hagree
  exact absurd (hglyph.symm.trans hagree) (by decide)

/-- The same with one map for the two consoles. -/
def mapscrnShared : List (TransOp (Fin 2)) :=
  [.maps (.clear 0), .maps (.copy 1 (some 0)), .setTransNew 1 (some (oneLetter 0x41)),
    .setTransNew 0 (some (oneLetter 0x42))]

theorem inverses_agree_run_boot :
    Along (transStep twoDisplays) (fun s op => InversesAgree twoDisplays (transStep twoDisplays s op))
      bootTables mapscrnShared := by
  refine inverses_agree_run twoDisplays bootTables (refCounts_boot twoDisplays fun _ => true)
    (fun _ _ hcell => by cases hcell) mapscrnShared ⟨trivial, trivial, fun a _ => ?_, fun a _ => ?_,
      trivial⟩
  · intro c p d q hcell _ _
    refine .inl ⟨1, List.mem_singleton.mpr rfl, ?_⟩
    have hcells : ∀ c : Fin 2, (run (transStep twoDisplays) bootTables
        (mapscrnShared.take 2)).maps.cell c = some 0 := by
      decide +kernel
    exact (hcells 1).trans ((hcells c).symm.trans hcell)
  · intro c p d q hcell _ _
    refine .inl ⟨0, List.mem_singleton.mpr rfl, ?_⟩
    have hcells : ∀ c : Fin 2, (run (transStep twoDisplays) bootTables
        (mapscrnShared.take 3)).maps.cell c = some 0 := by
      decide +kernel
    exact (hcells 0).trans ((hcells c).symm.trans hcell)

end LinuxConsole
