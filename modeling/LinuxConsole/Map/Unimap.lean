import Mathlib.Logic.Function.Basic
import LinuxConsole.Map.Pagedir

/-!
# Loading and sharing the Unicode maps

The second half of `consolemap.c`: the functions that load the table from
Unicode to glyphs, share one table between consoles and give it back.

A console does not hold its map.  It designates a location cell
(`vc_uni_pagedir_loc`), the cell holds a pointer to a `struct uni_pagedir`, and
several consoles may designate one cell and several cells point to one
directory.  `MapEnv` says who designates what and does not change here; `Maps`
is what the functions change.  Directories live in a heap of their own and an
address is never used twice, so that a pointer to a released directory is a
pointer to nothing.  The pages and the inverse tables of a directory belong to
it alone and are values inside it.

`kmalloc` is the sequence of the answers that the allocator is going to give.
-/

namespace LinuxConsole

/-- What the six functions return: 0 and the three errors.  `oops` stands for
reading through a null pointer or through one to a released directory. -/
inductive MapRet
  | ok
  | eio
  | enomem
  | einval
  | oops
  deriving DecidableEq

/-- `struct unipair`. -/
structure Unipair where
  unicode : BitVec 16
  fontpos : BitVec 16

/-- What the map functions read and do not change.  `display` is
`vc->display_fg->vc_cons` up to `vc_count`, and the two `dfont` tables are
those of the generated `console_defmap.c`. -/
structure MapEnv (C L : Type) where
  loc : C → L
  display : C → List (Option C)
  userMap : Nat → Nat
  dfontUnicount : Nat → Nat
  dfontUnitable : Nat → Nat

/-- The directories in memory.  Nothing is at the addresses from `brk` on. -/
structure DirHeap where
  dir : Nat → Option UniPagedir
  brk : Nat
  unused : ∀ q, brk ≤ q → dir q = none

namespace DirHeap

/-- Change the directory at `p` in place. -/
def modify (h : DirHeap) (p : Nat) (f : UniPagedir → UniPagedir) : DirHeap where
  dir := Function.update h.dir p ((h.dir p).map f)
  brk := h.brk
  unused := by
    intro q hq
    by_cases hp : q = p
    · subst hp; simp [h.unused q hq]
    · simp [hp, h.unused q hq]

/-- `kfree`. -/
def free (h : DirHeap) (p : Nat) : DirHeap where
  dir := Function.update h.dir p none
  brk := h.brk
  unused := by
    intro q hq
    by_cases hp : q = p
    · subst hp; simp
    · simp [hp, h.unused q hq]

/-- A directory put at the next address. -/
def alloc (h : DirHeap) (d : UniPagedir) : DirHeap where
  dir := Function.update h.dir h.brk (some d)
  brk := h.brk + 1
  unused := by
    intro q hq
    rw [Function.update_of_ne (by omega)]
    exact h.unused q (by omega)

end DirHeap

/-- The location cells, the directories and the static pointer `dflt`. -/
structure Maps (L : Type) where
  cell : L → Option Nat
  heap : DirHeap
  dflt : Option Nat
  kmalloc : Nat → Bool

section

variable {C L : Type} [DecidableEq L]

namespace Maps

/-- Change the directory at `p`. -/
def modify (s : Maps L) (p : Nat) (f : UniPagedir → UniPagedir) : Maps L :=
  { s with heap := s.heap.modify p f }

/-- `*vc->vc_uni_pagedir_loc = q`. -/
def setCell (s : Maps L) (l : L) (q : Option Nat) : Maps L :=
  { s with cell := Function.update s.cell l q }

end Maps

/-- `p->refcount++`. -/
def UniPagedir.incr (d : UniPagedir) : UniPagedir := { d with refcount := d.refcount + 1 }

/-- `p->refcount--`.  The count of a live directory is positive. -/
def UniPagedir.decr (d : UniPagedir) : UniPagedir := { d with refcount := d.refcount - 1 }

/-- The directory with its pages and inverse tables freed. -/
def UniPagedir.emptied (d : UniPagedir) : UniPagedir :=
  { d with uniPgdir := fun _ => none, inverseTranslations := fun _ => none }

/-- `if (p == dflt) dflt = NULL`. -/
def Maps.forgetDflt (s : Maps L) (p : Nat) : Maps L :=
  { s with dflt := if s.dflt = some p then none else s.dflt }

/-- `con_release_unimap`. -/
def conReleaseUnimap (s : Maps L) (p : Nat) : Maps L :=
  (s.forgetDflt p).modify p UniPagedir.emptied

/-- `con_release_unimap(p)` followed by `kfree(p)`. -/
def releaseAndFree (s : Maps L) (p : Nat) : Maps L :=
  { conReleaseUnimap s p with heap := (conReleaseUnimap s p).heap.free p }

/-- `con_free_unimap`. -/
def conFreeUnimap (e : MapEnv C L) (s : Maps L) (vc : C) : Maps L × MapRet :=
  match s.cell (e.loc vc) with
  | none => (s, .ok)
  | some p =>
    match s.heap.dir p with
    | none => (s.setCell (e.loc vc) none, .oops)
    | some d =>
      let s := (s.setCell (e.loc vc) none).modify p UniPagedir.decr
      if d.refcount - 1 ≠ 0 then (s, .ok) else (releaseAndFree s p, .ok)

/-! ### Unification -/

/-- `memcmp` of two pages. -/
def samePage (p q : Page) : Bool := (List.range 64).all fun i => p i == q i

/-- The loop over `k`: the same pages are present and they are equal. -/
def samePageRow (p1 q1 : PageRow) : Bool :=
  (List.range 32).all fun k =>
    match p1 k, q1 k with
    | none, none => true
    | some p2, some q2 => samePage p2 q2
    | _, _ => false

/-- The loop over `j`. -/
def samePagedir (p q : UniPagedir) : Bool :=
  (List.range 32).all fun j =>
    match p.uniPgdir j, q.uniPgdir j with
    | none, none => true
    | some p1, some q1 => samePageRow p1 q1
    | _, _ => false

/-- Whether the map of the console `tmp` can stand in for `p`. -/
def unifiable (e : MapEnv C L) (s : Maps L) (p : Nat) (d : UniPagedir) (tmp : C) :
    Option Nat :=
  match s.cell (e.loc tmp) with
  | none => none
  | some q =>
    if q = p then none
    else
      match s.heap.dir q with
      | none => none
      | some dq => if dq.sum ≠ d.sum then none else if samePagedir d dq then some q else none

/-- The first map of the display's consoles that can stand in for `p`. -/
def unifyMatch (e : MapEnv C L) (s : Maps L) (vc : C) (p : Nat) (d : UniPagedir) : Option Nat :=
  (e.display vc).findSome? fun tmp => tmp.bind (unifiable e s p d)

/-- `con_unify_unimap`: true if another map has taken the place of `p`. -/
def conUnifyUnimap (e : MapEnv C L) (s : Maps L) (vc : C) (p : Nat) : Maps L × Bool :=
  match s.heap.dir p with
  | none => (s, false)
  | some d =>
    match unifyMatch e s vc p d with
    | none => (s, false)
    | some q =>
      (releaseAndFree ((s.modify q UniPagedir.incr).setCell (e.loc vc) (some q)) p, true)

/-! ### Insertion -/

/-- A directory being filled: what the allocator has still to say, and whether
an allocation has failed. -/
structure Filling where
  dir : UniPagedir
  kmalloc : Nat → Bool
  err : Bool

/-- Hang a row into the directory. -/
def UniPagedir.setRow (d : UniPagedir) (n : Nat) (p1 : PageRow) : UniPagedir :=
  { d with uniPgdir := Function.update d.uniPgdir n (some p1) }

/-- `(fontpos << 20) + unicode`, an `int`, as it is added to the sum. -/
def sumTerm (unicode fontpos : Nat) : BitVec 64 :=
  ((BitVec.ofNat 32 fontpos <<< 20) + BitVec.ofNat 32 unicode).signExtend 64

/-- `p2[unicode & 0x3f] = fontpos` and the new sum, for the page `p2` of the
row `p1`. -/
def UniPagedir.store (d : UniPagedir) (p1 : PageRow) (p2 : Page) (unicode fontpos : Nat) :
    UniPagedir :=
  { d.setRow (unicode >>> 11) (Function.update p1 ((unicode >>> 6) &&& 0x1f)
      (some (Function.update p2 (unicode &&& 0x3f) fontpos))) with
    sum := d.sum + sumTerm unicode fontpos }

/-- The second half of `con_insert_unipair`, with the row there. -/
def insertInRow (k : Nat → Bool) (d : UniPagedir) (p1 : PageRow) (unicode fontpos : Nat) :
    Filling :=
  match p1 ((unicode >>> 6) &&& 0x1f) with
  | some p2 => ⟨d.store p1 p2 unicode fontpos, k, false⟩
  | none =>
    if k 0 then ⟨d.store p1 (fun _ => 0xffff) unicode fontpos, fun n => k (n + 1), false⟩
    else ⟨d, fun n => k (n + 1), true⟩

/-- `con_insert_unipair`.  A row allocated for the pair stays when the page
cannot be. -/
def conInsertUnipair (k : Nat → Bool) (d : UniPagedir) (unicode fontpos : Nat) : Filling :=
  match d.uniPgdir (unicode >>> 11) with
  | some p1 => insertInRow k d p1 unicode fontpos
  | none =>
    if k 0 then
      insertInRow (fun n => k (n + 1)) (d.setRow (unicode >>> 11) fun _ => none)
        (fun _ => none) unicode fontpos
    else ⟨d, fun n => k (n + 1), true⟩

/-- One pair of a list: a failure is remembered and the loop goes on. -/
def insertPair (f : Filling) (unicode fontpos : Nat) : Filling :=
  { conInsertUnipair f.kmalloc f.dir unicode fontpos with
    err := (conInsertUnipair f.kmalloc f.dir unicode fontpos).err || f.err }

/-- The loop over the caller's list. -/
def insertList (f : Filling) (list : List Unipair) : Filling :=
  list.foldl (fun f u => insertPair f u.unicode.toNat u.fontpos.toNat) f

/-- `q[glyph] = j` in `set_inverse_transl`, where a smaller code is not already
there. -/
def inverseEntry (loc : Option UniPagedir) (t : Nat → Nat) (q : Nat → Nat) (j : Nat) :
    Nat → Nat :=
  let glyph := convUniToPc loc (t j)
  if 0 ≤ glyph ∧ glyph < (maxGlyph : Int) ∧ q glyph.toNat < 32 then
    Function.update q glyph.toNat j
  else q

/-- `set_inverse_transl` on the directory `f.dir`, which is the map in force. -/
def setInverseTransl (e : MapEnv C L) (f : Filling) (i : CharMap) : Filling :=
  let q := (List.range 256).foldl (inverseEntry (some f.dir) (translations e.userMap i))
    fun _ => 0
  let fill : UniPagedir :=
    { f.dir with inverseTranslations := Function.update f.dir.inverseTranslations i (some q) }
  match f.dir.inverseTranslations i with
  | some _ => { f with dir := fill }
  | none =>
    if f.kmalloc 0 then { f with dir := fill, kmalloc := fun n => f.kmalloc (n + 1) }
    else { f with kmalloc := fun n => f.kmalloc (n + 1) }

/-- All four inverse tables. -/
def setInverses (e : MapEnv C L) (f : Filling) : Filling :=
  [CharMap.lat1, .graf, .ibmpc, .user].foldl (setInverseTransl e) f

/-- Run a loop that fills the directory at `p`. -/
def Maps.fill (s : Maps L) (p : Nat) (g : Filling → Filling) : Maps L × Bool :=
  match s.heap.dir p with
  | none => (s, false)
  | some d =>
    let f := g ⟨d, s.kmalloc, false⟩
    ({ s with heap := s.heap.modify p fun _ => f.dir, kmalloc := f.kmalloc }, f.err)

/-! ### Clearing -/

/-- The branch of `con_clear_unimap` that gives the cell a new directory.  The
count of `p`, if there is one, has been decremented. -/
def clearFresh (e : MapEnv C L) (s : Maps L) (vc : C) (p : Option Nat) : Maps L × MapRet :=
  let rest := fun n => s.kmalloc (n + 1)
  if s.kmalloc 0 then
    let q := s.heap.brk
    ({ s with heap := s.heap.alloc { UniPagedir.zero with refcount := 1 },
              kmalloc := rest }.setCell (e.loc vc) (some q), .ok)
  else
    match p with
    | none => ({ s with kmalloc := rest }, .enomem)
    | some p => ({ s with kmalloc := rest }.modify p UniPagedir.incr, .enomem)

/-- `con_clear_unimap`. -/
def conClearUnimap (e : MapEnv C L) (s : Maps L) (vc : C) : Maps L × MapRet :=
  match s.cell (e.loc vc) with
  | none => clearFresh e s vc none
  | some p =>
    match s.heap.dir p with
    | none => (s, .oops)
    | some d =>
      if d.readonly then (s, .eio)
      else if d.refcount - 1 ≠ 0 then
        clearFresh e (s.modify p UniPagedir.decr) vc (some p)
      else
        -- The only reference: the directory is kept and emptied.
        (conReleaseUnimap ((s.forgetDflt p).modify p fun d => { d with sum := 0 }) p, .ok)

/-! ### The private copy -/

/-- The copy under way, with the running code `l`. -/
structure Copying where
  q : Filling
  l : Nat

/-- One turn of the loop over `k`.  An error ends all the loops. -/
def copyGlyph (p2 : Page) (c : Copying) (k : Nat) : Copying :=
  if c.q.err then c
  else
    { q := if p2 k ≠ 0xffff then conInsertUnipair c.q.kmalloc c.q.dir c.l (p2 k) else c.q
      l := (c.l + 1) % 65536 }

/-- The loop over `k`. -/
def copyPage (c : Copying) (p2 : Page) : Copying := (List.range 64).foldl (copyGlyph p2) c

/-- The loop over `j`.  An absent page is passed over, and `l` stays. -/
def copyRow (c : Copying) (p1 : PageRow) : Copying :=
  (List.range 32).foldl
    (fun c j =>
      match p1 j with
      | none => c
      | some p2 => copyPage c p2) c

/-- The loop over `i`.  An absent row is passed over, and `l` stays. -/
def copyPagedir (p : UniPagedir) (q : Filling) : Filling :=
  ((List.range 32).foldl
    (fun c i =>
      match p.uniPgdir i with
      | none => c
      | some p1 => copyRow c p1) (⟨q, 0⟩ : Copying)).q

/-- The block `if (p->refcount > 1)` of `con_set_unimap`: a private copy of
the map `d` at `p`, and the way back when an allocation fails. -/
def privateCopy (e : MapEnv C L) (s : Maps L) (vc : C) (p : Nat) (d : UniPagedir) :
    Maps L × MapRet :=
  match conClearUnimap e s vc with
  | (s1, .ok) =>
    match s1.cell (e.loc vc) with
    | none => (s1, .oops)
    | some q =>
      let (s2, err) := s1.fill q (copyPagedir d)
      if err then
        (releaseAndFree ((s2.modify p UniPagedir.incr).setCell (e.loc vc) (some p)) q, .enomem)
      else (s2, .ok)
  | (s1, err1) => (s1, err1)

/-- The rest of `con_set_unimap`, on the private map of the cell. -/
def setPrivate (e : MapEnv C L) (s : Maps L) (vc : C) (list : List Unipair) : Maps L × MapRet :=
  match s.cell (e.loc vc) with
  | none => (s, .oops)
  | some p =>
    let (s1, err) := s.fill p fun f => insertList f list
    let ret := if err then MapRet.enomem else MapRet.ok
    match conUnifyUnimap e s1 vc p with
    | (s2, true) => (s2, ret)
    | (s2, false) => ((s2.fill p (setInverses e)).1, ret)

/-- `con_set_unimap`, with `list` the `ct` pairs it is given. -/
def conSetUnimap (e : MapEnv C L) (s : Maps L) (vc : C) (list : List Unipair) :
    Maps L × MapRet :=
  match s.cell (e.loc vc) with
  | none => (s, .oops)
  | some p =>
    match s.heap.dir p with
    | none => (s, .oops)
    | some d =>
      if d.readonly then (s, .eio)
      else if list = [] then (s, .ok)
      else if 1 < d.refcount then
        match privateCopy e s vc p d with
        | (s1, .ok) => setPrivate e s1 vc list
        | (s1, err1) => (s1, err1)
      else setPrivate e (s.forgetDflt p) vc list

/-! ### The default map and copies -/

/-- The pairs of the default font: glyph `i` has the next `dfontUnicount i`
codes of `dfontUnitable`. -/
def dfontPairs (e : MapEnv C L) : List (Nat × Nat) :=
  let glyphs := (List.range 256).flatMap fun i => List.replicate (e.dfontUnicount i) i
  glyphs.mapIdx fun n i => (e.dfontUnitable n, i)

/-- The loops over the default font. -/
def insertPairs (pairs : List (Nat × Nat)) (f : Filling) : Filling :=
  pairs.foldl (fun f u => insertPair f u.1 u.2) f

/-- `con_set_default_unimap`. -/
def conSetDefaultUnimap (e : MapEnv C L) (s : Maps L) (vc : C) : Maps L × MapRet :=
  match s.dflt with
  | some dflt =>
    if s.cell (e.loc vc) = some dflt then (s, .ok)
    else
      let s1 := (s.modify dflt UniPagedir.incr).setCell (e.loc vc) (some dflt)
      match s.cell (e.loc vc) with
      | none => (s1, .ok)
      | some p =>
        match s.heap.dir p with
        | none => (s1, .oops)
        | some d =>
          -- The test is on a count that is *not* zero.
          if d.refcount - 1 ≠ 0 then (releaseAndFree (s1.modify p UniPagedir.decr) p, .ok)
          else (s1.modify p UniPagedir.decr, .ok)
  | none =>
    match conClearUnimap e s vc with
    | (s1, .ok) =>
      match s1.cell (e.loc vc) with
      | none => (s1, .oops)
      | some p =>
        let (s2, err) := s1.fill p (insertPairs (dfontPairs e))
        let ret := if err then MapRet.enomem else MapRet.ok
        match conUnifyUnimap e s2 vc p with
        | (s3, true) => ({ s3 with dflt := s3.cell (e.loc vc) }, ret)
        | (s3, false) => ({ (s3.fill p (setInverses e)).1 with dflt := some p }, ret)
    | (s1, err1) => (s1, err1)

/-- `con_copy_unimap`; `src` may be null. -/
def conCopyUnimap (e : MapEnv C L) (s : Maps L) (dst : C) (src : Option C) : Maps L × MapRet :=
  match src with
  | none => (s, .einval)
  | some src =>
    match s.cell (e.loc src) with
    | none => (s, .einval)
    | some q =>
      if s.cell (e.loc dst) = some q then (s, .ok)
      else
        let (s1, _) := conFreeUnimap e s dst
        ((s1.modify q UniPagedir.incr).setCell (e.loc dst) (some q), .ok)

/-- `con_protect_unimap`. -/
def conProtectUnimap (e : MapEnv C L) (s : Maps L) (vc : C) (rdonly : Bool) : Maps L :=
  match s.cell (e.loc vc) with
  | none => s
  | some p => s.modify p fun d => { d with readonly := rdonly }

end

end LinuxConsole
