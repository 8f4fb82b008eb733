import Mathlib.Data.List.Basic

/-!
# Texts made of records

A text is a list of characters and a file of lines is the text in which every line
is followed by a separator.  `records` splits a text at the separators, where the
last record may lack its own, and **`records_unlines`** reads back the lines that
were written, if none of them contains the separator.  `field` is the part of a
record between two of another separator.
-/

namespace LinuxConsole.Lib

variable {α : Type*} [DecidableEq α]

/-- The lines, each followed by a separator. -/
def unlines (sep : α) (ls : List (List α)) : List α := ls.flatMap (· ++ [sep])

/-- The parts of a text between separators, without an empty one at its end. -/
def records (sep : α) (t : List α) : List (List α) :=
  if (t.splitOn sep).getLast? = some [] then (t.splitOn sep).dropLast else t.splitOn sep

/-- The part of a record behind its `n`-th separator. -/
def field (sep : α) (n : Nat) (r : List α) : List α := (r.splitOn sep).getD n []

omit [DecidableEq α] in
theorem unlines_cons (sep : α) (l : List α) (ls : List (List α)) :
    unlines sep (l :: ls) = l ++ sep :: unlines sep ls := by
  unfold unlines
  rw [List.flatMap_cons, List.append_assoc, List.singleton_append]

omit [DecidableEq α] in
theorem unlines_append (sep : α) (ls ls' : List (List α)) :
    unlines sep (ls ++ ls') = unlines sep ls ++ unlines sep ls' := List.flatMap_append

theorem splitOn_unlines_append {sep : α} {ls : List (List α)} (h : ∀ l ∈ ls, sep ∉ l) {r : List α}
    (hr : sep ∉ r) : (unlines sep ls ++ r).splitOn sep = ls ++ [r] := by
  induction ls with
  | nil => exact List.splitOn_eq_singleton hr
  | cons l ls ih =>
    rw [unlines_cons, List.append_assoc, List.cons_append, List.splitOn_append_cons_self,
      List.splitOn_eq_singleton (h l List.mem_cons_self),
      ih fun l' hl' => h l' (List.mem_cons_of_mem _ hl')]
    rfl

theorem splitOn_unlines {sep : α} {ls : List (List α)} (h : ∀ l ∈ ls, sep ∉ l) :
    (unlines sep ls).splitOn sep = ls ++ [[]] := by
  rw [← List.append_nil (unlines sep ls), splitOn_unlines_append h List.not_mem_nil]

/-- **The lines are read back.** -/
theorem records_unlines {sep : α} {ls : List (List α)} (h : ∀ l ∈ ls, sep ∉ l) :
    records sep (unlines sep ls) = ls := by
  unfold records
  rw [splitOn_unlines h, List.getLast?_concat, if_pos rfl, List.dropLast_concat]

/-- They are read back also if the last one lacks its separator. -/
theorem records_unlines_append {sep : α} {ls : List (List α)} (h : ∀ l ∈ ls, sep ∉ l) {r : List α}
    (hr : sep ∉ r) (hne : r ≠ []) : records sep (unlines sep ls ++ r) = ls ++ [r] := by
  have hlast : (ls ++ [r]).getLast? ≠ some [] := by
    rw [List.getLast?_concat]
    exact fun heq => hne (Option.some.inj heq)
  unfold records
  rw [splitOn_unlines_append h hr, if_neg hlast]

theorem mem_splitOn {sep : α} {t l : List α} (h : l ∈ t.splitOn sep) : sep ∉ l ∧ l ⊆ t := by
  induction t generalizing l with
  | nil =>
    rw [List.splitOn_nil, List.mem_singleton] at h
    subst h
    exact ⟨List.not_mem_nil, List.nil_subset _⟩
  | cons c t ih =>
    rw [List.splitOn_cons_eq_if_modifyHead] at h
    have hrest : ∀ {r}, r ∈ t.splitOn sep → sep ∉ r ∧ r ⊆ c :: t := by
      intro r hr
      exact ⟨(ih hr).1, List.subset_cons_of_subset _ (ih hr).2⟩
    by_cases hc : c = sep
    · rw [if_pos (by simpa using hc), List.mem_cons] at h
      rcases h with rfl | h
      · exact ⟨List.not_mem_nil, List.nil_subset _⟩
      · exact hrest h
    · rw [if_neg (by simpa using hc)] at h
      obtain ⟨r, rs, hparts⟩ := List.exists_cons_of_ne_nil (List.splitOn_ne_nil sep t)
      rw [hparts] at h hrest
      rcases List.mem_cons.mp h with rfl | h
      · have hr := hrest List.mem_cons_self
        refine ⟨fun hmem => ?_, List.cons_subset.mpr ⟨List.mem_cons_self, hr.2⟩⟩
        rcases List.mem_cons.mp hmem with heq | hmem
        · exact hc heq.symm
        · exact hr.1 hmem
      · exact hrest (List.mem_cons_of_mem _ h)

theorem sep_not_mem_records {sep : α} {t l : List α} (h : l ∈ records sep t) : sep ∉ l := by
  unfold records at h
  split_ifs at h
  · exact (mem_splitOn (List.dropLast_subset _ h)).1
  · exact (mem_splitOn h).1

theorem mem_field {sep : α} {n : Nat} {r : List α} : sep ∉ field sep n r ∧ field sep n r ⊆ r := by
  unfold field
  rw [List.getD_eq_getElem?_getD]
  cases hn : (r.splitOn sep)[n]? with
  | none => exact ⟨List.not_mem_nil, List.nil_subset _⟩
  | some l => exact mem_splitOn (List.mem_of_getElem? hn)

theorem field_zero {sep : α} {x post : List α} (hx : sep ∉ x) :
    field sep 0 (x ++ sep :: post) = x := by
  unfold field
  rw [List.splitOn_append_cons_self, List.splitOn_eq_singleton hx]
  rfl

theorem field_one {sep : α} {pre x post : List α} (hpre : sep ∉ pre) (hx : sep ∉ x) :
    field sep 1 (pre ++ sep :: (x ++ sep :: post)) = x := by
  unfold field
  rw [List.splitOn_append_cons_self, List.splitOn_append_cons_self,
    List.splitOn_eq_singleton hpre, List.splitOn_eq_singleton hx]
  rfl

omit [DecidableEq α] in
/-- Only empty lines have no other character than the separator. -/
theorem unlines_all {sep : α} {ls : List (List α)} (h : ∀ l ∈ ls, sep ∉ l) :
    (∀ c ∈ unlines sep ls, c = sep) ↔ ∀ l ∈ ls, l = [] := by
  constructor
  · intro hall l hl
    rw [List.eq_nil_iff_forall_not_mem]
    intro c hc
    have hsep : c = sep :=
      hall c (List.mem_flatMap.mpr ⟨l, hl, List.mem_append_left _ hc⟩)
    exact h l hl (hsep ▸ hc)
  · intro hall c hc
    obtain ⟨l, hl, hcl⟩ := List.mem_flatMap.mp hc
    rw [hall l hl, List.nil_append, List.mem_singleton] at hcl
    exact hcl

end LinuxConsole.Lib
