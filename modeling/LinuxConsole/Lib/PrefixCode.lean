import Mathlib.Data.List.Infix

/-!
# Prefix codes

Words that are told apart from their first letters on.  No word of a `PrefixCode` begins another,
so that what is sent letter by letter is read in one way only: **one stream of words begins another
exactly if the words do** (`prefix_iff`).  `of_mark` is a way to show it, by a mark that the
beginning of a stream bears.
-/

namespace LinuxConsole.Lib

variable {α β γ : Type} {code : α → List β} {S : α → Prop}

/-- **A prefix code** for the symbols of `S`: no word is empty, and none begins another. -/
structure PrefixCode (code : α → List β) (S : α → Prop) : Prop where
  ne_nil : ∀ {a}, S a → code a ≠ []
  eq_of_prefix : ∀ {a b}, S a → S b → code a <+: code b → a = b

namespace PrefixCode

/-- Symbols that the first letters of any stream tell apart. -/
theorem of_mark (mark : List β → γ) (hne : ∀ {a}, S a → code a ≠ [])
    (hmark : ∀ {a}, S a → ∀ rest, mark (code a ++ rest) = mark (code a))
    (hinj : ∀ {a b}, S a → S b → mark (code a) = mark (code b) → a = b) : PrefixCode code S where
  ne_nil := hne
  eq_of_prefix := by
    intro a b ha hb hpre
    obtain ⟨rest, hrest⟩ := hpre
    apply hinj ha hb
    rw [← hrest, hmark ha]

/-- Two streams with one beginning start with the same symbol. -/
theorem head_eq (h : PrefixCode code S) {a b : α} (ha : S a) (hb : S b) {l m : List β}
    (hpre : code a ++ l <+: code b ++ m) : a = b := by
  have hleft : code a <+: code b ++ m := (List.prefix_append _ _).trans hpre
  have hright : code b <+: code b ++ m := List.prefix_append _ _
  rcases Nat.le_total (code a).length (code b).length with hle | hle
  · exact h.eq_of_prefix ha hb (List.prefix_of_prefix_length_le hleft hright hle)
  · exact (h.eq_of_prefix hb ha (List.prefix_of_prefix_length_le hright hleft hle)).symm

/-- **Streams are read as they are sent**: one begins another exactly if its symbols do. -/
theorem prefix_iff (h : PrefixCode code S) {as bs : List α} (has : ∀ a ∈ as, S a)
    (hbs : ∀ b ∈ bs, S b) : as.flatMap code <+: bs.flatMap code ↔ as <+: bs := by
  constructor
  · induction as generalizing bs with
    | nil => exact fun _ => List.nil_prefix
    | cons a as ih =>
      intro hpre
      have ha := has a List.mem_cons_self
      cases bs with
      | nil =>
        rw [List.flatMap_nil, List.prefix_nil, List.flatMap_cons, List.append_eq_nil_iff] at hpre
        exact absurd hpre.1 (h.ne_nil ha)
      | cons b bs =>
        rw [List.flatMap_cons, List.flatMap_cons] at hpre
        obtain rfl := h.head_eq ha (hbs b List.mem_cons_self) hpre
        rw [List.prefix_append_right_inj] at hpre
        rw [List.prefix_cons_inj]
        exact ih (fun c hc => has c (List.mem_cons_of_mem _ hc))
          (fun c hc => hbs c (List.mem_cons_of_mem _ hc)) hpre
  · rintro ⟨cs, rfl⟩
    rw [List.flatMap_append]
    exact List.prefix_append _ _

end PrefixCode

end LinuxConsole.Lib
