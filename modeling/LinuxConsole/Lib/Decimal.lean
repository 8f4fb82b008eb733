import Mathlib.Data.List.Basic
import Mathlib.Data.List.TakeWhile

/-!
# Decimal numbers in texts

`showInt` and `scanInt` are what `%d` is to `printf` and to `sscanf`: the second passes
over white space, reads a sign and as many digits as there are, and finds nothing if there
is no digit.  **`scanInt_showInt`** reads back what was written.  A text is also a sequence
of fields between separators; `scanInt` never looks beyond the first of them, and
`nextField` is the text behind the next separator, if there is one.

`decimal` reads a field only if all of it is a number.
-/

namespace LinuxConsole.Lib

/-! ### Numbers -/

def minus : Char := Char.ofNat 45

def plus : Char := Char.ofNat 43

/-- `isspace`. -/
def isBlank (c : Char) : Bool := c.toNat = 32 || (9 ≤ c.toNat && c.toNat ≤ 13)

/-- `%d` of `printf`. -/
def showInt (n : Int) : List Char :=
  if n < 0 then minus :: Nat.toDigits 10 n.natAbs else Nat.toDigits 10 n.natAbs

/-- The digits at the front. -/
def scanNat (t : List Char) : Option Int :=
  if t.takeWhile Char.isDigit = [] then none
  else some (Nat.ofDigitChars 10 (t.takeWhile Char.isDigit) 0)

/-- A sign and digits. -/
def scanSigned : List Char → Option Int
  | [] => none
  | c :: t =>
    if c = minus then (scanNat t).map fun n => -n
    else if c = plus then scanNat t
    else scanNat (c :: t)

/-- `%d` of `sscanf`. -/
def scanInt (t : List Char) : Option Int := scanSigned (t.dropWhile isBlank)

/-- The text without its sign. -/
def unsigned : List Char → List Char
  | [] => []
  | c :: t => if c = minus ∨ c = plus then t else c :: t

/-- A number that is the whole text. -/
def decimal (t : List Char) : Option Int :=
  if unsigned t ≠ [] ∧ (unsigned t).all Char.isDigit then scanInt t else none

theorem scanNat_append {ds t : List Char} (hds : ∀ c ∈ ds, c.isDigit)
    (ht : ∀ c ∈ t.head?, c.isDigit = false) : scanNat (ds ++ t) = scanNat ds := by
  have hnone : t.takeWhile Char.isDigit = [] := by
    cases t with
    | nil => rfl
    | cons c t => rw [List.takeWhile_cons_of_neg (by simp [ht c rfl])]
  have htake : (ds ++ t).takeWhile Char.isDigit = ds.takeWhile Char.isDigit := by
    rw [List.takeWhile_append_of_pos hds, hnone, List.append_nil,
      List.takeWhile_eq_self_iff.mpr hds]
  simp only [scanNat, htake]

theorem scanNat_toDigits (n : Nat) : scanNat (Nat.toDigits 10 n) = some (n : Int) := by
  have hall : (Nat.toDigits 10 n).takeWhile Char.isDigit = Nat.toDigits 10 n :=
    List.takeWhile_eq_self_iff.mpr fun c hc =>
      Nat.isDigit_of_mem_toDigits (by omega) (by omega) hc
  simp only [scanNat, hall, if_neg Nat.toDigits_ne_nil, Nat.ofDigitChars_ten_toDigits]

/-- A digit is neither a blank nor a sign. -/
theorem isDigit_plain {c : Char} (h : c.isDigit) : isBlank c = false ∧ c ≠ minus ∧ c ≠ plus := by
  have hrange : 48 ≤ c.toNat ∧ c.toNat ≤ 57 := Char.isDigit_iff_toNat.mp h
  refine ⟨?_, ?_, ?_⟩
  · simp only [isBlank, Bool.or_eq_false_iff, decide_eq_false_iff_not, Bool.and_eq_false_iff]
    omega
  · rintro rfl
    exact absurd hrange (by decide)
  · rintro rfl
    exact absurd hrange (by decide)

theorem scanInt_digit {c : Char} (h : c.isDigit) (t : List Char) :
    scanInt (c :: t) = scanNat (c :: t) := by
  obtain ⟨hblank, hminus, hplus⟩ := isDigit_plain h
  simp only [scanInt, List.dropWhile_cons_of_neg (by simp [hblank] : ¬isBlank c), scanSigned,
    if_neg hminus, if_neg hplus]

theorem scanInt_minus (t : List Char) : scanInt (minus :: t) = (scanNat t).map fun n => -n := by
  simp only [scanInt, List.dropWhile_cons_of_neg (by decide : ¬isBlank minus), scanSigned,
    if_pos]

/-- **A number that was written is read back**, if no digit follows it. -/
theorem scanInt_showInt (n : Int) {t : List Char} (ht : ∀ c ∈ t.head?, c.isDigit = false) :
    scanInt (showInt n ++ t) = some n := by
  have hdigits : ∀ c ∈ Nat.toDigits 10 n.natAbs, c.isDigit := fun c hc =>
    Nat.isDigit_of_mem_toDigits (by omega) (by omega) hc
  have hscan := (scanNat_append hdigits ht).trans (scanNat_toDigits n.natAbs)
  by_cases hn : n < 0
  · rw [showInt, if_pos hn, List.cons_append, scanInt_minus, hscan, Option.map_some]
    congr 1
    omega
  · rw [showInt, if_neg hn]
    obtain ⟨c, ds, hcons⟩ := List.exists_cons_of_ne_nil (@Nat.toDigits_ne_nil n.natAbs 10)
    rw [hcons] at hscan hdigits ⊢
    rw [List.cons_append, scanInt_digit (hdigits c List.mem_cons_self), ← List.cons_append, hscan]
    congr 1
    omega

theorem notMem_digits {n : Nat} {c : Char} (hc : c.isDigit = false) :
    c ∉ Nat.toDigits 10 n := by
  intro hmem
  have hdigit : c.isDigit := Nat.isDigit_of_mem_toDigits (by omega) (by omega) hmem
  rw [hc] at hdigit
  contradiction

/-- A number has digits and maybe a sign. -/
theorem notMem_showInt {c : Char} (hc : c.isDigit = false) (hminus : c ≠ minus) (n : Int) :
    c ∉ showInt n := by
  unfold showInt
  split
  · exact List.not_mem_cons_of_ne_of_not_mem hminus (notMem_digits hc)
  · exact notMem_digits hc

theorem unsigned_digit {c : Char} (hc : c.isDigit) (t : List Char) :
    unsigned (c :: t) = c :: t := by
  obtain ⟨-, hminus, hplus⟩ := isDigit_plain hc
  exact if_neg (not_or.mpr ⟨hminus, hplus⟩)

/-- What is written is a number. -/
theorem decimal_showInt (n : Int) : decimal (showInt n) = some n := by
  have hdigits : ∀ c ∈ Nat.toDigits 10 n.natAbs, c.isDigit := fun c hc =>
    Nat.isDigit_of_mem_toDigits (by omega) (by omega) hc
  have hunsigned : unsigned (showInt n) = Nat.toDigits 10 n.natAbs := by
    unfold showInt
    split
    · rw [unsigned, if_pos (Or.inl rfl)]
    · obtain ⟨c, ds, hcons⟩ := List.exists_cons_of_ne_nil (@Nat.toDigits_ne_nil n.natAbs 10)
      rw [hcons] at hdigits ⊢
      exact unsigned_digit (hdigits c List.mem_cons_self) ds
  have hscan := scanInt_showInt n (t := []) (fun c hc => by simp at hc)
  rw [List.append_nil] at hscan
  rw [decimal, hunsigned, if_pos ⟨Nat.toDigits_ne_nil, List.all_eq_true.mpr hdigits⟩, hscan]

theorem scanInt_of_decimal {f : List Char} {n : Int} (h : decimal f = some n) :
    scanInt f = some n := by
  unfold decimal at h
  split at h
  · exact h
  · contradiction

/-! ### Fields -/

/-- A separator that no number contains. -/
structure Separates (sep : Char) : Prop where
  digit : sep.isDigit = false
  blank : isBlank sep = false
  not_minus : sep ≠ minus
  not_plus : sep ≠ plus

/-- What is behind the next separator. -/
def nextField (sep : Char) (t : List Char) : Option (List Char) :=
  match t.dropWhile (· ≠ sep) with
  | [] => none
  | _ :: r => some r

/-- The fields one behind the other, if there are any. -/
def joined (sep : Char) : List (List Char) → Option (List Char)
  | [] => none
  | f :: fs => some ([sep].intercalate (f :: fs))

theorem intercalate_cons (sep : Char) (f : List Char) (fs : List (List Char)) :
    [sep].intercalate (f :: fs) = f ++ ((joined sep fs).map (sep :: ·)).getD [] := by
  cases fs with
  | nil => simp [joined]
  | cons g gs => simp [joined, List.intercalate]

theorem nextField_join {sep : Char} {f : List Char} (hf : sep ∉ f) (fs : List (List Char)) :
    nextField sep ([sep].intercalate (f :: fs)) = joined sep fs := by
  have hdrop : ∀ t, (f ++ t).dropWhile (· ≠ sep) = t.dropWhile (· ≠ sep) := fun t =>
    List.dropWhile_append_of_pos fun c hc => by
      simpa using ne_of_mem_of_not_mem hc hf
  rw [intercalate_cons, nextField, hdrop]
  cases fs with
  | nil => rfl
  | cons g gs => simp [joined]

theorem takeWhile_sep {p : Char → Bool} {sep : Char} (hsep : p sep = false) (f t : List Char) :
    (f ++ sep :: t).takeWhile p = f.takeWhile p := by
  induction f with
  | nil => rw [List.nil_append, List.takeWhile_cons_of_neg (by simp [hsep]), List.takeWhile_nil]
  | cons c f ih => rw [List.cons_append, List.takeWhile_cons, List.takeWhile_cons, ih]

theorem dropWhile_sep {p : Char → Bool} {sep : Char} (hsep : p sep = false) (f t : List Char) :
    (f ++ sep :: t).dropWhile p = f.dropWhile p ++ sep :: t := by
  induction f with
  | nil => rw [List.nil_append, List.dropWhile_cons_of_neg (by simp [hsep]), List.dropWhile_nil,
      List.nil_append]
  | cons c f ih =>
    rw [List.cons_append, List.dropWhile_cons, List.dropWhile_cons, ih]
    split <;> rfl

/-- `scanInt` does not look beyond a separator. -/
theorem scanInt_join {sep : Char} (hsep : Separates sep) (f : List Char)
    (fs : List (List Char)) : scanInt ([sep].intercalate (f :: fs)) = scanInt f := by
  have hscan : ∀ g t : List Char, scanNat (g ++ sep :: t) = scanNat g := fun g t => by
    unfold scanNat
    rw [takeWhile_sep hsep.digit]
  cases fs with
  | nil => rw [List.intercalate_singleton]
  | cons g gs =>
    have hcons : [sep].intercalate (f :: g :: gs) = f ++ sep :: [sep].intercalate (g :: gs) := by
      rw [intercalate_cons, joined, Option.map_some, Option.getD_some]
    rw [hcons]
    simp only [scanInt, dropWhile_sep hsep.blank]
    cases f.dropWhile isBlank with
    | nil => simp [scanSigned, hsep.not_minus, hsep.not_plus, scanNat, hsep.digit]
    | cons c t =>
      have hall := hscan (c :: t) ([sep].intercalate (g :: gs))
      rw [List.cons_append] at hall
      simp only [List.cons_append, scanSigned, hscan, hall]

theorem joined_splitOn (sep : Char) (t : List Char) : joined sep (t.splitOn sep) = some t := by
  cases h : t.splitOn sep with
  | nil => exact absurd h (List.splitOn_ne_nil sep t)
  | cons f fs => rw [joined, ← h, List.intercalate_splitOn]

theorem notMem_field {sep : Char} {t : List Char} : ∀ {f}, f ∈ t.splitOn sep → sep ∉ f := by
  induction t with
  | nil =>
    intro f hf
    rw [List.splitOn_nil, List.mem_singleton] at hf
    rw [hf]
    exact List.not_mem_nil
  | cons c t ih =>
    intro f hf
    rw [List.splitOn_cons_eq_if_modifyHead] at hf
    split at hf
    · rcases List.mem_cons.mp hf with rfl | hf
      · exact List.not_mem_nil
      · exact ih hf
    case isFalse hc =>
      obtain ⟨g, gs, hsplit⟩ := List.exists_cons_of_ne_nil (List.splitOn_ne_nil sep t)
      rw [hsplit, List.modifyHead_cons] at hf
      have hne : sep ≠ c := fun h => hc (beq_iff_eq.mpr h.symm)
      rcases List.mem_cons.mp hf with rfl | hf
      · exact List.not_mem_cons_of_ne_of_not_mem hne (ih (hsplit ▸ List.mem_cons_self))
      · exact ih (hsplit ▸ List.mem_cons_of_mem _ hf)

end LinuxConsole.Lib
