import LinuxConsole.Lib.Gaps
import LinuxConsole.Map.Unimap

/-!
# The entries of the Unicode maps

A directory is read here as a function from codes to entries, or as 1024 pages
of which some may be absent.  Inserting a pair sets one entry.  The private copy
of `con_set_unimap` walks over the pages with a running code `l` and does not
move `l` on over a page that is absent, so what it makes is the old map with its
gaps squeezed out: `copyPagedir_entry`.  That is the old map exactly when no page
with an entry has an absent page before it (`Dense`).
-/

namespace LinuxConsole

open Lib

/-! ### The pages of a directory -/

/-- Page `n` of the 1024. -/
def UniPagedir.page (d : UniPagedir) (n : Nat) : Option Page :=
  (d.uniPgdir (n / 32)).bind fun p1 => p1 (n % 32)

/-- The entry of a page that may be absent. -/
def pageEntry (p : Option Page) (k : Nat) : Nat :=
  match p with
  | none => 0xffff
  | some p2 => p2 k

theorem shift_eleven (u : Nat) : u >>> 11 = u / 64 / 32 := by
  rw [Nat.shiftRight_eq_div_pow]
  omega

theorem shift_six (u : Nat) : (u >>> 6) &&& 0x1f = u / 64 % 32 := by
  rw [show (0x1f : Nat) = 2 ^ 5 - 1 from rfl, Nat.and_two_pow_sub_one_eq_mod,
    Nat.shiftRight_eq_div_pow]

theorem and_sixty_three (u : Nat) : u &&& 0x3f = u % 64 := by
  rw [show (0x3f : Nat) = 2 ^ 6 - 1 from rfl, Nat.and_two_pow_sub_one_eq_mod]

theorem entry_eq (d : UniPagedir) (u : Nat) : d.entry u = pageEntry (d.page (u / 64)) (u % 64) := by
  unfold UniPagedir.entry UniPagedir.page
  rw [shift_eleven, shift_six, and_sixty_three]
  cases h1 : d.uniPgdir (u / 64 / 32) with
  | none => rfl
  | some p1 =>
    dsimp only [Option.bind_some]
    cases p1 (u / 64 % 32) <;> rfl

@[simp] theorem entry_zero (n u : Nat) :
    ({ UniPagedir.zero with refcount := n } : UniPagedir).entry u = 0xffff := rfl

/-- Only the table matters for an entry. -/
theorem entry_congr {d d' : UniPagedir} (h : d.uniPgdir = d'.uniPgdir) (u : Nat) :
    d.entry u = d'.entry u := by
  unfold UniPagedir.entry
  rw [h]

/-! ### Insertion -/

theorem page_setRow (d : UniPagedir) (m n : Nat) (p1 : PageRow) :
    (d.setRow m p1).page n = if n / 32 = m then p1 (n % 32) else d.page n := by
  unfold UniPagedir.page UniPagedir.setRow
  dsimp only
  split
  · next h => rw [h, Function.update_self]; rfl
  · next h => rw [Function.update_of_ne h]

/-- A page stored in a row that shows what the directory had there. -/
theorem entry_store {d : UniPagedir} {p1 : PageRow} {p2 : Page} {u : Nat} (g : Nat)
    (hrow : ∀ n, n / 32 = u / 64 / 32 → pageEntry (p1 (n % 32)) = pageEntry (d.page n))
    (hpage : pageEntry (some p2) = pageEntry (p1 (u / 64 % 32))) (v : Nat) :
    (d.store p1 p2 u g).entry v = Function.update d.entry u g v := by
  have hentry : (d.store p1 p2 u g).entry v =
      pageEntry ((d.setRow (u / 64 / 32) (Function.update p1 (u / 64 % 32)
        (some (Function.update p2 (u % 64) g)))).page (v / 64)) (v % 64) := by
    rw [entry_eq]
    unfold UniPagedir.store
    rw [shift_eleven, shift_six, and_sixty_three]
    rfl
  rw [hentry, page_setRow]
  by_cases hr : v / 64 / 32 = u / 64 / 32
  · rw [if_pos hr]
    by_cases hp : v / 64 % 32 = u / 64 % 32
    · rw [hp, Function.update_self]
      by_cases hk : v % 64 = u % 64
      · obtain rfl : v = u := by omega
        rw [Function.update_self]
        exact Function.update_self ..
      · have hne : v ≠ u := by rintro rfl; exact hk rfl
        rw [Function.update_of_ne hne, entry_eq]
        change Function.update p2 (u % 64) g (v % 64) = _
        rw [Function.update_of_ne hk, ← hrow (v / 64) hr, hp, ← hpage]
        rfl
    · have hne : v ≠ u := by rintro rfl; exact hp rfl
      rw [Function.update_of_ne hp, Function.update_of_ne hne, entry_eq, hrow (v / 64) hr]
  · have hne : v ≠ u := by rintro rfl; exact hr rfl
    rw [if_neg hr, Function.update_of_ne hne, entry_eq]

theorem insertInRow_entry {d : UniPagedir} {p1 : PageRow} {k : Nat → Bool} {u g : Nat}
    (hrow : ∀ n, n / 32 = u / 64 / 32 → pageEntry (p1 (n % 32)) = pageEntry (d.page n))
    (h : (insertInRow k d p1 u g).err = false) (v : Nat) :
    (insertInRow k d p1 u g).dir.entry v = Function.update d.entry u g v := by
  unfold insertInRow at h ⊢
  split
  · next p2 hp2 =>
    refine entry_store g hrow ?_ v
    rw [← shift_six, hp2]
  · next hp2 =>
    split
    · refine entry_store g hrow ?_ v
      rw [← shift_six, hp2]
      rfl
    · next hk => simp [hp2, hk] at h

/-- **Insertion** sets the one entry. -/
theorem conInsertUnipair_entry {d : UniPagedir} {k : Nat → Bool} {u g : Nat}
    (h : (conInsertUnipair k d u g).err = false) (v : Nat) :
    (conInsertUnipair k d u g).dir.entry v = Function.update d.entry u g v := by
  unfold conInsertUnipair at h ⊢
  cases hr : d.uniPgdir (u >>> 11) with
  | some p1 =>
    simp only [hr] at h ⊢
    refine insertInRow_entry (fun n hn => ?_) h v
    unfold UniPagedir.page
    rw [hn, ← shift_eleven, hr]
    rfl
  | none =>
    simp only [hr] at h ⊢
    split at h
    · next hk =>
      rw [if_pos hk]
      -- The empty row shows what no row showed.
      have hpage : ∀ n, pageEntry ((d.setRow (u >>> 11) fun _ => none).page n) =
          pageEntry (d.page n) := by
        intro n
        rw [page_setRow]
        split
        · next hn =>
          unfold UniPagedir.page
          rw [hn, hr]
          rfl
        · rfl
      rw [insertInRow_entry (fun n hn => ?_) h v]
      · congr 1
        funext w
        rw [entry_eq, entry_eq, hpage]
      · rw [page_setRow, shift_eleven, if_pos hn]
    · cases h

/-- The allocator never says no. -/
def Ample (k : Nat → Bool) : Prop := ∀ n, k n = true

theorem Ample.tail {k : Nat → Bool} (h : Ample k) : Ample fun n => k (n + 1) := fun n => h (n + 1)

theorem insertInRow_ample {k : Nat → Bool} (h : Ample k) (d : UniPagedir) (p1 : PageRow)
    (u g : Nat) :
    (insertInRow k d p1 u g).err = false ∧ Ample (insertInRow k d p1 u g).kmalloc := by
  unfold insertInRow
  split
  · exact ⟨rfl, h⟩
  · rw [if_pos (h 0)]
    exact ⟨rfl, h.tail⟩

theorem conInsertUnipair_ample {k : Nat → Bool} (h : Ample k) (d : UniPagedir) (u g : Nat) :
    (conInsertUnipair k d u g).err = false ∧ Ample (conInsertUnipair k d u g).kmalloc := by
  unfold conInsertUnipair
  split
  · exact insertInRow_ample h _ _ _ _
  · rw [if_pos (h 0)]
    exact insertInRow_ample h.tail _ _ _ _

/-- A map overridden by a list of pairs. -/
def override (list : List Unipair) (m : Nat → Nat) : Nat → Nat :=
  list.foldl (fun m u => Function.update m u.unicode.toNat u.fontpos.toNat) m

/-- The codes that a list sets. -/
def codes (list : List Unipair) : List Nat := list.map (·.unicode.toNat)

theorem override_of_notMem {list : List Unipair} {v : Nat} (h : v ∉ codes list) (m : Nat → Nat) :
    override list m v = m v := by
  induction list generalizing m with
  | nil => rfl
  | cons u list ih =>
    obtain ⟨hu, hlist⟩ := not_or.mp (mt List.mem_cons.mpr h)
    exact (ih hlist _).trans (Function.update_of_ne hu _ _)

/-- What a list sets does not depend on what it overrides. -/
theorem override_of_mem {list : List Unipair} {v : Nat} (h : v ∈ codes list) (m m' : Nat → Nat) :
    override list m v = override list m' v := by
  induction list generalizing m m' with
  | nil => cases h
  | cons u list ih =>
    by_cases hlist : v ∈ codes list
    · exact ih hlist _ _
    · have hu : v = u.unicode.toNat := (List.mem_cons.mp h).resolve_right hlist
      have hset : ∀ m, override (u :: list) m v = u.fontpos.toNat := by
        intro m
        refine (override_of_notMem hlist _).trans ?_
        rw [hu]
        exact Function.update_self ..
      rw [hset, hset]

theorem insertPair_err {f : Filling} {u g : Nat} (h : (insertPair f u g).err = false) :
    f.err = false ∧ (conInsertUnipair f.kmalloc f.dir u g).err = false := by
  obtain ⟨h1, h2⟩ := Bool.or_eq_false_iff.mp h
  exact ⟨h2, h1⟩

theorem insertList_entry {list : List Unipair} {f : Filling} (h : (insertList f list).err = false) :
    f.err = false ∧ ∀ v, (insertList f list).dir.entry v = override list f.dir.entry v := by
  induction list generalizing f with
  | nil => exact ⟨h, fun _ => rfl⟩
  | cons u list ih =>
    obtain ⟨herr, hentry⟩ := ih h
    obtain ⟨hf, hone⟩ := insertPair_err herr
    refine ⟨hf, fun v => (hentry v).trans ?_⟩
    have hm : (insertPair f u.unicode.toNat u.fontpos.toNat).dir.entry =
        Function.update f.dir.entry u.unicode.toNat u.fontpos.toNat :=
      funext fun w => conInsertUnipair_entry hone w
    rw [hm]
    rfl

theorem insertList_ample {list : List Unipair} {f : Filling} (h : Ample f.kmalloc)
    (hf : f.err = false) : (insertList f list).err = false := by
  induction list generalizing f with
  | nil => exact hf
  | cons u list ih =>
    have hone := conInsertUnipair_ample h f.dir u.unicode.toNat u.fontpos.toNat
    refine ih hone.2 ?_
    change ((conInsertUnipair f.kmalloc f.dir _ _).err || f.err) = false
    rw [hone.1, hf]
    rfl

/-! ### The copy -/

/-- The pages that are there, in order. -/
def UniPagedir.pages (d : UniPagedir) : List Page := (List.range 1024).filterMap d.page

/-- Entry `w` of pages laid end to end. -/
def laid (ps : List Page) (w : Nat) : Nat := pageEntry ps[w / 64]? (w % 64)

/-- The entries of the pages with the gaps squeezed out. -/
def UniPagedir.packed (d : UniPagedir) (u : Nat) : Nat := laid d.pages u

theorem copyGlyph_err {p2 : Page} {c : Copying} {k : Nat} (h : (copyGlyph p2 c k).q.err = false) :
    c.q.err = false := by
  unfold copyGlyph at h
  split at h
  · exact h
  · next hc => exact Bool.not_eq_true _ ▸ hc

/-- The first `n` glyphs of a page, written from code `c.l` on. -/
theorem copyGlyphs_entry {p2 : Page} {c : Copying} (n : Nat) (hlt : c.l < 65536)
    (hn : c.l + n ≤ 65536) (h : ((List.range n).foldl (copyGlyph p2) c).q.err = false) :
    c.q.err = false ∧ ((List.range n).foldl (copyGlyph p2) c).l = (c.l + n) % 65536 ∧
      ∀ v, ((List.range n).foldl (copyGlyph p2) c).q.dir.entry v =
        if c.l ≤ v ∧ v < c.l + n ∧ p2 (v - c.l) ≠ 0xffff then p2 (v - c.l)
        else c.q.dir.entry v := by
  induction n with
  | zero =>
    refine ⟨h, (Nat.mod_eq_of_lt hlt).symm, fun v => ?_⟩
    rw [if_neg (by omega)]
    rfl
  | succ n ih =>
    rw [List.range_succ, List.foldl_append] at h ⊢
    have hprev := copyGlyph_err h
    obtain ⟨hc, hl, hentry⟩ := ih (by omega) hprev
    rw [Nat.mod_eq_of_lt (by omega)] at hl
    generalize (List.range n).foldl (copyGlyph p2) c = c' at h hprev hl hentry ⊢
    have hstep : [n].foldl (copyGlyph p2) c' = copyGlyph p2 c' n := rfl
    rw [hstep] at h ⊢
    unfold copyGlyph at h ⊢
    rw [if_neg (by rw [hprev]; exact Bool.false_ne_true)] at h ⊢
    dsimp only at h ⊢
    refine ⟨hc, by rw [hl, Nat.add_assoc], fun v => ?_⟩
    by_cases hg : p2 n ≠ 0xffff
    · rw [if_pos hg] at h ⊢
      rw [conInsertUnipair_entry h, hl]
      by_cases hv : v = c.l + n
      · subst hv
        rw [Function.update_self, Nat.add_sub_cancel_left, if_pos ⟨by omega, by omega, hg⟩]
      · rw [Function.update_of_ne hv, hentry]
        have hiff : (c.l ≤ v ∧ v < c.l + n ∧ p2 (v - c.l) ≠ 0xffff) ↔
            (c.l ≤ v ∧ v < c.l + (n + 1) ∧ p2 (v - c.l) ≠ 0xffff) := by
          constructor <;> rintro ⟨h1, h2, h3⟩ <;> exact ⟨h1, by omega, h3⟩
        simp only [hiff]
    · rw [if_neg hg, hentry]
      have hiff : (c.l ≤ v ∧ v < c.l + n ∧ p2 (v - c.l) ≠ 0xffff) ↔
          (c.l ≤ v ∧ v < c.l + (n + 1) ∧ p2 (v - c.l) ≠ 0xffff) := by
        constructor
        · rintro ⟨h1, h2, h3⟩
          exact ⟨h1, by omega, h3⟩
        · rintro ⟨h1, h2, h3⟩
          refine ⟨h1, ?_, h3⟩
          have hne : v - c.l ≠ n := by
            rintro hvn
            rw [hvn] at h3
            exact hg h3
          omega
      simp only [hiff]

theorem copyPage_entry {p2 : Page} {c : Copying} (hn : c.l + 64 ≤ 65536)
    (h : (copyPage c p2).q.err = false) :
    c.q.err = false ∧ (copyPage c p2).l = (c.l + 64) % 65536 ∧
      ∀ v, (copyPage c p2).q.dir.entry v =
        if c.l ≤ v ∧ v < c.l + 64 ∧ p2 (v - c.l) ≠ 0xffff then p2 (v - c.l)
        else c.q.dir.entry v := by
  unfold copyPage at h ⊢
  exact copyGlyphs_entry 64 (by omega) hn h

theorem copyGlyphs_err {p2 : Page} {ks : List Nat} {c : Copying}
    (h : (ks.foldl (copyGlyph p2) c).q.err = false) : c.q.err = false := by
  induction ks generalizing c with
  | nil => exact h
  | cons k ks ih => exact copyGlyph_err (ih h)

theorem copyPage_err {p2 : Page} {c : Copying} (h : (copyPage c p2).q.err = false) :
    c.q.err = false := by
  unfold copyPage at h
  exact copyGlyphs_err h

theorem copyPages_err {ps : List Page} {c : Copying} (h : (ps.foldl copyPage c).q.err = false) :
    c.q.err = false := by
  induction ps generalizing c with
  | nil => exact h
  | cons p2 ps ih =>
    rw [List.foldl_cons] at h
    exact copyPage_err (ih h)

theorem laid_cons_head {p2 : Page} {ps : List Page} {w : Nat} (h : w < 64) :
    laid (p2 :: ps) w = p2 w := by
  unfold laid
  rw [Nat.div_eq_of_lt h, Nat.mod_eq_of_lt h]
  rfl

theorem laid_cons_tail {p2 : Page} {ps : List Page} (w : Nat) :
    laid (p2 :: ps) (w + 64) = laid ps w := by
  unfold laid
  rw [Nat.add_div_right w (by decide), Nat.add_mod_right, List.getElem?_cons_succ]

/-- The pages from page `m` of the copy on. -/
theorem copyPages_entry {ps : List Page} {m : Nat} {c : Copying} (hl : c.l = 64 * m % 65536)
    (hm : m + ps.length ≤ 1024) (h : (ps.foldl copyPage c).q.err = false) :
    c.q.err = false ∧ ∀ v, (ps.foldl copyPage c).q.dir.entry v =
      if 64 * m ≤ v ∧ laid ps (v - 64 * m) ≠ 0xffff then laid ps (v - 64 * m)
      else c.q.dir.entry v := by
  induction ps generalizing m c with
  | nil =>
    refine ⟨h, fun v => ?_⟩
    rw [if_neg]
    · rfl
    · rintro ⟨-, hv⟩
      exact hv (by simp [laid, pageEntry])
  | cons p2 ps ih =>
    rw [List.length_cons] at hm
    rw [List.foldl_cons] at h ⊢
    rw [Nat.mod_eq_of_lt (by omega)] at hl
    have hroom : c.l + 64 ≤ 65536 := by omega
    obtain ⟨hc, hl', hfirst⟩ := copyPage_entry hroom (copyPages_err h)
    have hnext : (copyPage c p2).l = 64 * (m + 1) % 65536 := by rw [hl', hl, Nat.mul_succ]
    obtain ⟨-, hentry⟩ := ih hnext (by omega) h
    refine ⟨hc, fun v => ?_⟩
    rw [hentry, hfirst, hl]
    by_cases hv : v < 64 * m + 64
    · rw [if_neg (by omega)]
      by_cases hlow : 64 * m ≤ v
      · rw [laid_cons_head (by omega)]
        simp only [hlow, hv, true_and]
      · rw [if_neg (by omega), if_neg (by omega)]
    · have hw : v - 64 * m = v - 64 * (m + 1) + 64 := by omega
      rw [hw, laid_cons_tail]
      have h1 : 64 * (m + 1) ≤ v := by omega
      have h2 : 64 * m ≤ v := by omega
      simp only [h1, h2, hv, true_and, false_and, if_false]

/-- The loops over `i` and `j` visit the pages that are there. -/
theorem copyPagedir_eq (d : UniPagedir) (f : Filling) :
    copyPagedir d f = (d.pages.foldl copyPage ⟨f, 0⟩).q := by
  have hrow : ∀ (c : Copying) (p1 : PageRow),
      copyRow c p1 = ((List.range 32).filterMap p1).foldl copyPage c := by
    intro c p1
    rw [List.foldl_filterMap]
    unfold copyRow
    refine List.foldl_ext _ _ _ fun c j _ => ?_
    cases p1 j <;> rfl
  have hpages : d.pages = (List.range 32).flatMap fun i =>
      (d.uniPgdir i).elim [] fun p1 => (List.range 32).filterMap p1 := by
    unfold UniPagedir.pages
    rw [show 1024 = 32 * 32 from rfl, filterMap_range_mul]
    refine List.flatMap_congr fun i _ => ?_
    have hdigit : ∀ j ∈ List.range 32, d.page (i * 32 + j) = (d.uniPgdir i).bind fun p1 => p1 j := by
      intro j hj
      have hj := List.mem_range.mp hj
      unfold UniPagedir.page
      rw [show (i * 32 + j) / 32 = i by omega, show (i * 32 + j) % 32 = j by omega]
    rw [List.filterMap_congr hdigit]
    cases d.uniPgdir i with
    | none => simp
    | some p1 => rfl
  unfold copyPagedir
  rw [hpages, List.foldl_flatMap]
  refine congrArg Copying.q (List.foldl_ext _ _ _ fun c i _ => ?_)
  cases d.uniPgdir i with
  | none => rfl
  | some p1 => exact hrow c p1

/-- **What the copy makes**: the entries of the pages that are there, one page
behind the other. -/
theorem copyPagedir_entry {d : UniPagedir} {f : Filling} (hempty : ∀ v, f.dir.entry v = 0xffff)
    (h : (copyPagedir d f).err = false) (v : Nat) : (copyPagedir d f).dir.entry v = d.packed v := by
  rw [copyPagedir_eq] at h ⊢
  have hlen : d.pages.length ≤ 1024 := length_filterMap_range_le d.page 1024
  obtain ⟨-, hentry⟩ := copyPages_entry (m := 0) (c := ⟨f, 0⟩) rfl (by omega) h
  rw [hentry]
  dsimp only
  rw [Nat.mul_zero, Nat.sub_zero, hempty]
  change _ = laid d.pages v
  generalize laid d.pages v = g
  by_cases hg : g = 0xffff
  · rw [hg, if_neg (by omega)]
  · rw [if_pos ⟨Nat.zero_le v, hg⟩]

theorem copyGlyph_ample (p2 : Page) {c : Copying} (k : Nat) (h : Ample c.q.kmalloc)
    (hc : c.q.err = false) :
    Ample (copyGlyph p2 c k).q.kmalloc ∧ (copyGlyph p2 c k).q.err = false := by
  unfold copyGlyph
  rw [if_neg (by rw [hc]; exact Bool.false_ne_true)]
  dsimp only
  split
  · have hone := conInsertUnipair_ample h c.q.dir c.l (p2 k)
    exact ⟨hone.2, hone.1⟩
  · exact ⟨h, hc⟩

theorem copyGlyphs_ample (p2 : Page) {c : Copying} (ks : List Nat) (h : Ample c.q.kmalloc)
    (hc : c.q.err = false) :
    Ample (ks.foldl (copyGlyph p2) c).q.kmalloc ∧ (ks.foldl (copyGlyph p2) c).q.err = false := by
  induction ks generalizing c with
  | nil => exact ⟨h, hc⟩
  | cons k ks ih =>
    have hone := copyGlyph_ample p2 k h hc
    exact ih hone.1 hone.2

theorem copyPagedir_ample (d : UniPagedir) {f : Filling} (h : Ample f.kmalloc)
    (hf : f.err = false) :
    Ample (copyPagedir d f).kmalloc ∧ (copyPagedir d f).err = false := by
  rw [copyPagedir_eq]
  have hpages : ∀ (ps : List Page) (c : Copying), Ample c.q.kmalloc → c.q.err = false →
      Ample (ps.foldl copyPage c).q.kmalloc ∧ (ps.foldl copyPage c).q.err = false := by
    intro ps
    induction ps with
    | nil => intro c h hc; exact ⟨h, hc⟩
    | cons p2 ps ih =>
      intro c h hc
      have hone : Ample (copyPage c p2).q.kmalloc ∧ (copyPage c p2).q.err = false := by
        unfold copyPage
        exact copyGlyphs_ample p2 _ h hc
      rw [List.foldl_cons]
      exact ih (copyPage c p2) hone.1 hone.2
  exact hpages d.pages ⟨f, 0⟩ h hf

/-! ### Where the copy is right -/

/-- No page with an entry has an absent page before it. -/
def UniPagedir.Dense (d : UniPagedir) : Prop :=
  ∀ m n, m < n → n < 1024 → d.page m = none → ∀ k < 64, pageEntry (d.page n) k = 0xffff

theorem Dense.packed_eq {d : UniPagedir} (h : d.Dense) {u : Nat} (hu : u < 65536) :
    d.packed u = d.entry u := by
  have hn : u / 64 < 1024 := by omega
  have hk : u % 64 < 64 := Nat.mod_lt u (by decide)
  unfold UniPagedir.packed laid
  rw [entry_eq]
  by_cases hall : ∀ m ≤ u / 64, d.page m ≠ none
  · rw [UniPagedir.pages, stays hn hall]
  · -- Behind a gap there is nothing, neither before the copy nor after it.
    obtain ⟨m, hm, hgap⟩ : ∃ m ≤ u / 64, d.page m = none := by
      simpa only [not_forall, not_not, exists_prop] using hall
    have hafter : pageEntry (d.page (u / 64)) (u % 64) = 0xffff := by
      rcases Nat.lt_or_eq_of_le hm with hlt | heq
      · exact h m _ hlt hn hgap _ hk
      · rw [← heq, hgap]; rfl
    rw [hafter]
    cases hp : d.pages[u / 64]? with
    | none => rfl
    | some p2 =>
      obtain ⟨b, hnb, hb, hpage, -⟩ := origin hp
      have hmb : m < b := by
        refine Nat.lt_of_le_of_ne (Nat.le_trans hm hnb) ?_
        rintro rfl
        rw [hgap] at hpage
        cases hpage
      rw [← hpage]
      exact h m b hmb hb hgap _ hk

/-- If the copy is right, there is nothing behind a gap.  The induction runs from
the last page down. -/
theorem dense_of_packed_eq {d : UniPagedir} (h : ∀ u < 65536, d.packed u = d.entry u) :
    d.Dense := by
  have hdown : ∀ j n, 1024 ≤ n + j → n < 1024 → (∃ m < n, d.page m = none) →
      ∀ k < 64, pageEntry (d.page n) k = 0xffff := by
    intro j
    induction j with
    | zero => intro n hj hn; omega
    | succ j ih =>
      rintro n hj hn ⟨m, hmn, hgap⟩ k hk
      have hu := h (64 * n + k) (by omega)
      rw [entry_eq, show (64 * n + k) / 64 = n by omega, show (64 * n + k) % 64 = k by omega] at hu
      rw [← hu]
      change pageEntry d.pages[(64 * n + k) / 64]? ((64 * n + k) % 64) = _
      rw [show (64 * n + k) / 64 = n by omega, show (64 * n + k) % 64 = k by omega]
      cases hp : d.pages[n]? with
      | none => rfl
      | some p2 =>
        obtain ⟨b, hnb, hb, hpage, hfirst⟩ := origin hp
        have hne : b ≠ n := fun heq => hfirst heq m hmn hgap
        rw [← hpage]
        exact ih b (by omega) hb ⟨m, by omega, hgap⟩ k hk
  intro m n hmn hn hgap k hk
  exact hdown 1024 n (by omega) hn ⟨m, hmn, hgap⟩ k hk

end LinuxConsole
