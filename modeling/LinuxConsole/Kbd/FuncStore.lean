import LinuxConsole.Kbd.FuncTable
import LinuxConsole.Lib.Packed
import LinuxConsole.Lib.Run

/-!
# The function key strings as a map

`Layout s m` says that the table and the buffer of `s` are the map `m` from keys
to strings, laid out in the order of the keys with nothing in between.  Setting
a string makes room for it, either by moving what stands behind it or in a
larger buffer (`Opened`), and then copies it in.  `func_table_refines` is the
result for every sequence of calls.
-/

namespace LinuxConsole

open Lib

/-- What a key has in the buffer: its string and the NUL. -/
def cell (m : Nat → Option (List UInt8)) (k : Nat) : List UInt8 :=
  match m k with
  | none => []
  | some t => t ++ [0]

/-- The bytes of all strings. -/
def used (m : Nat → Option (List UInt8)) : List UInt8 := pack (cell m) MAX_NR_FUNC

/-- The table of `s` is the map `m`, packed in the order of the keys. -/
structure Layout (s : FuncTable) (m : Nat → Option (List UInt8)) : Prop where
  nonzero : ∀ k t, m k = some t → 0 ∉ t
  table : ∀ k < MAX_NR_FUNC,
    s.table k = (m k).map fun _ => ⟨s.bufptr.blk, (pack (cell m) k).length⟩
  holds : Holds (s.mem s.bufptr.blk) 0 (used m)
  bufptr_off : s.bufptr.off = 0
  bufleft : s.bufleft = s.bufsize - (used m).length
  room : ((used m).length : Int) ≤ s.bufsize
  size : s.size s.bufptr.blk = s.bufsize
  fresh : s.bufptr.blk < s.next
  inside : s.oob = false

/-! ### Cells -/

theorem cell_eq_nil {m : Nat → Option (List UInt8)} {k : Nat} : cell m k = [] ↔ m k = none := by
  unfold cell
  cases m k <;> simp

theorem cell_update (m : Nat → Option (List UInt8)) (i : Nat) (t : List UInt8) :
    cell (Function.update m i (some t)) = Function.update (cell m) i (t ++ [0]) := by
  funext k
  by_cases h : k = i
  · subst h
    rw [Function.update_self, cell, Function.update_self]
  · rw [Function.update_of_ne h, cell, Function.update_of_ne h]
    rfl

theorem cstr_eq {m : Int → UInt8} {o : Int} {t : List UInt8} (ht : 0 ∉ t)
    (h : Holds m o (t ++ [0])) {n : Nat} (hn : t.length < n) : cstr m n o = t := by
  induction t generalizing o n with
  | nil =>
    obtain ⟨n, rfl⟩ : ∃ k, n = k + 1 := ⟨n - 1, by omega⟩
    have h0 := (holds_cons.mp h).1
    unfold cstr
    rw [if_pos h0]
  | cons x t ih =>
    obtain ⟨n, rfl⟩ : ∃ k, n = k + 1 := ⟨n - 1, by omega⟩
    rw [List.length_cons] at hn
    obtain ⟨hx, hrest⟩ := holds_cons.mp h
    have hne : x ≠ 0 := fun h0 => ht (h0 ▸ List.mem_cons_self)
    unfold cstr
    rw [hx, if_neg hne, ih (fun h0 => ht (List.mem_cons_of_mem x h0)) hrest (by omega)]

theorem cstr_nonzero (m : Int → UInt8) (n : Nat) (o : Int) : 0 ∉ cstr m n o := by
  induction n generalizing o with
  | zero => exact List.not_mem_nil
  | succ n ih =>
    unfold cstr
    split
    · exact List.not_mem_nil
    · next h =>
      intro hmem
      rcases List.mem_cons.mp hmem with h0 | h0
      · exact h h0.symm
      · exact ih (o + 1) h0

section Memory

variable {s : FuncTable} {d e : FuncPtr} {n o : Int} {l t : List UInt8}

/-! ### `memmove` and `strcpy` -/

theorem holds_memmove (h : Holds (s.mem e.blk) e.off l) (hn : l.length ≤ n) :
    Holds ((s.memmove d e n).mem d.blk) d.off l := by
  refine h.moved fun k hk => ?_
  unfold FuncTable.memmove
  dsimp only
  rw [if_pos ⟨rfl, by omega, by omega⟩]
  congr 1
  omega

theorem holds_memmove_frame (h : Holds (s.mem d.blk) o l)
    (hdis : o + l.length ≤ d.off ∨ d.off + n ≤ o) :
    Holds ((s.memmove d e n).mem d.blk) o l := by
  refine h.congr fun a ha ha' => ?_
  unfold FuncTable.memmove
  exact if_neg (by rintro ⟨-, h1, h2⟩; omega)

theorem memmove_mem_of_ne {b : Nat} (h : b ≠ d.blk) :
    (s.memmove d e n).mem b = s.mem b := by
  funext a
  unfold FuncTable.memmove
  exact if_neg (by rintro ⟨h1, -⟩; exact h h1)

theorem memmove_oob (e : FuncPtr) (hs : s.oob = false) (h : 0 ≤ d.off) (h' : d.off + n ≤ s.size d.blk) :
    (s.memmove d e n).oob = false := by
  have hin : s.inBlock d n = true := decide_eq_true (.inr ⟨h, h'⟩)
  unfold FuncTable.memmove
  rw [hs, hin]
  rfl

theorem holds_strcpy : Holds ((s.strcpy d t).mem d.blk) d.off (t ++ [0]) := by
  intro k hk
  have hlen : k < t.length + 1 := by simpa using hk
  unfold FuncTable.strcpy
  dsimp only
  rw [if_pos ⟨rfl, by omega, by omega⟩, show (d.off + k - d.off).toNat = k by omega,
    List.getD_eq_getElem?_getD, List.getElem?_eq_getElem hk, Option.getD_some]

theorem holds_strcpy_frame (h : Holds (s.mem d.blk) o l)
    (hdis : o + l.length ≤ d.off ∨ d.off + t.length < o) :
    Holds ((s.strcpy d t).mem d.blk) o l := by
  refine h.congr fun a ha ha' => ?_
  unfold FuncTable.strcpy
  exact if_neg (by rintro ⟨-, h1, h2⟩; omega)

theorem strcpy_oob (hs : s.oob = false) (h : 0 ≤ d.off)
    (h' : d.off + (t.length + 1) ≤ s.size d.blk) : (s.strcpy d t).oob = false := by
  have hin : s.inBlock d (t.length + 1) = true := decide_eq_true (.inr ⟨h, h'⟩)
  unfold FuncTable.strcpy
  rw [hs, hin]
  rfl

end Memory

/-! ### Reading the layout -/

section Layout

variable {s : FuncTable} {m : Nat → Option (List UInt8)} {i : Nat}

theorem Layout.split (h : Layout s m) (hi : i < MAX_NR_FUNC) :
    Holds (s.mem s.bufptr.blk) 0 (pack (cell m) i) ∧
      Holds (s.mem s.bufptr.blk) (pack (cell m) i).length (cell m i) ∧
      Holds (s.mem s.bufptr.blk) ((pack (cell m) i).length + (cell m i).length)
        (behind (cell m) i MAX_NR_FUNC) ∧
      (used m).length = (pack (cell m) i).length + (cell m i).length +
        (behind (cell m) i MAX_NR_FUNC).length := by
  have hsplit : used m = _ := pack_split (cell m) hi
  have hholds := h.holds
  rw [hsplit, holds_append, holds_append] at hholds
  obtain ⟨⟨h1, h2⟩, h3⟩ := hholds
  refine ⟨h1, by simpa using h2, by simpa using h3, ?_⟩
  rw [hsplit, List.length_append, List.length_append]

theorem Layout.stringAt {t : List UInt8} (h : Layout s m) (hi : i < MAX_NR_FUNC)
    (ht : m i = some t) :
    s.stringAt ⟨s.bufptr.blk, (pack (cell m) i).length⟩ = t := by
  obtain ⟨-, hcell, -, hlen⟩ := h.split hi
  have hroom := h.room
  have hc : cell m i = t ++ [0] := by unfold cell; rw [ht]
  rw [hc] at hcell hlen
  rw [List.length_append, List.length_singleton] at hlen
  unfold FuncTable.stringAt
  dsimp only
  rw [h.size]
  exact cstr_eq (h.nonzero i t ht) hcell (by omega)

theorem nextUsed_spec (s : FuncTable) {n j : Nat} (hj : j ≤ MAX_NR_FUNC)
    (hn : MAX_NR_FUNC ≤ j + n) :
    j ≤ s.nextUsed n j ∧ s.nextUsed n j ≤ MAX_NR_FUNC ∧
      (∀ k, j ≤ k → k < s.nextUsed n j → s.table k = none) ∧
      (s.nextUsed n j < MAX_NR_FUNC → s.table (s.nextUsed n j) ≠ none) := by
  induction n generalizing j with
  | zero =>
    unfold FuncTable.nextUsed
    exact ⟨Nat.le_refl j, hj, fun k h1 h2 => absurd h2 (by omega), fun h => absurd h (by omega)⟩
  | succ n ih =>
    unfold FuncTable.nextUsed
    split
    · next hnone =>
      obtain ⟨h1, h2, h3, h4⟩ := ih (j := j + 1) (by omega) (by omega)
      refine ⟨by omega, h2, fun k hk hk' => ?_, h4⟩
      rcases Nat.eq_or_lt_of_le hk with rfl | hk
      · exact Option.isNone_iff_eq_none.mp hnone.2
      · exact h3 k (by omega) hk'
    · next hsome =>
      refine ⟨Nat.le_refl j, hj, fun k h1 h2 => absurd h2 (by omega), fun h hnone => ?_⟩
      exact hsome ⟨h, Option.isNone_iff_eq_none.mpr hnone⟩

/-! ### Making room -/

/-- Room has been made in `s` for the string `str` of key `i` in the map `m`:
everything else is where it will be. -/
structure Opened (s : FuncTable) (m : Nat → Option (List UInt8)) (i : Nat) (str : List UInt8) :
    Prop where
  table : ∀ k < MAX_NR_FUNC, s.table k = (Function.update m i (some str) k).map fun _ =>
    ⟨s.bufptr.blk, (pack (cell (Function.update m i (some str))) k).length⟩
  before : Holds (s.mem s.bufptr.blk) 0 (pack (cell m) i)
  after : Holds (s.mem s.bufptr.blk) ((pack (cell m) i).length + (str.length + 1))
    (behind (cell m) i MAX_NR_FUNC)
  bufptr_off : s.bufptr.off = 0
  bufleft : s.bufleft = s.bufsize - (used (Function.update m i (some str))).length
  room : ((used (Function.update m i (some str))).length : Int) ≤ s.bufsize
  size : s.size s.bufptr.blk = s.bufsize
  fresh : s.bufptr.blk < s.next
  inside : s.oob = false

theorem used_update (m : Nat → Option (List UInt8)) (hi : i < MAX_NR_FUNC) (str : List UInt8) :
    used (Function.update m i (some str)) =
      pack (cell m) i ++ (str ++ [0]) ++ behind (cell m) i MAX_NR_FUNC := by
  unfold used
  rw [cell_update, pack_update _ _ hi]

/-- The start of a key after the string of another was set. -/
theorem start_update (m : Nat → Option (List UInt8)) (i : Nat) (str : List UInt8) (k : Nat) :
    ((pack (cell (Function.update m i (some str))) k).length : Int) =
      (pack (cell m) k).length +
        if i < k then (str.length : Int) + 1 - (cell m i).length else 0 := by
  rw [cell_update, length_pack_update]
  simp

/-- **Copying the string in** completes the layout. -/
theorem Opened.strcpy {str : List UInt8} (h : Opened s m i str)
    (hm : ∀ k t, m k = some t → 0 ∉ t) (hi : i < MAX_NR_FUNC) (hstr : 0 ∉ str) :
    Layout (s.strcpy ⟨s.bufptr.blk, (pack (cell m) i).length⟩ str)
      (Function.update m i (some str)) := by
  have hroom := h.room
  have hused := used_update m hi str
  have hlen := congrArg List.length hused
  simp only [List.length_append, List.length_singleton] at hlen
  have hnew := holds_strcpy (s := s) (d := ⟨s.bufptr.blk, (pack (cell m) i).length⟩) (t := str)
  refine
    { nonzero := fun k t ht => ?_
      table := h.table
      holds := ?_
      bufptr_off := h.bufptr_off
      bufleft := h.bufleft
      room := h.room
      size := h.size
      fresh := h.fresh
      inside := strcpy_oob h.inside (by dsimp only; omega) (by rw [h.size]; dsimp only; omega) }
  · by_cases hk : k = i
    · subst hk
      rw [Function.update_self] at ht
      rwa [← Option.some.inj ht]
    · rw [Function.update_of_ne hk] at ht
      exact hm k t ht
  · rw [hused, holds_append, holds_append]
    refine ⟨⟨?_, ?_⟩, ?_⟩
    · exact holds_strcpy_frame (d := ⟨s.bufptr.blk, (pack (cell m) i).length⟩) h.before
        (.inl (by dsimp only; omega))
    · rw [Int.zero_add]
      exact hnew
    · have hafter := holds_strcpy_frame (d := ⟨s.bufptr.blk, (pack (cell m) i).length⟩)
        (t := str) h.after (.inr (by dsimp only; omega))
      simp only [List.length_append, List.length_singleton]
      rw [Int.zero_add]
      exact_mod_cast hafter

/-! ### The next key in use -/

/-- `j` is the first key behind `i` that has a string, or 256. -/
structure Next (m : Nat → Option (List UInt8)) (i j : Nat) : Prop where
  lt : i < j
  le : j ≤ MAX_NR_FUNC
  empty : ∀ k, i < k → k < j → m k = none
  used : j < MAX_NR_FUNC → m j ≠ none

theorem Layout.table_eq_none (h : Layout s m) {k : Nat} (hk : k < MAX_NR_FUNC) :
    s.table k = none ↔ m k = none := by
  rw [h.table k hk, Option.map_eq_none_iff]

theorem Layout.next (h : Layout s m) (hi : i < MAX_NR_FUNC) :
    Next m i (s.nextUsed MAX_NR_FUNC (i + 1)) := by
  obtain ⟨h1, h2, h3, h4⟩ := nextUsed_spec s (n := MAX_NR_FUNC) (j := i + 1) hi (by omega)
  exact ⟨h1, h2, fun k hk hk' => (h.table_eq_none (by omega)).mp (h3 k hk hk'),
    fun hlt => (h.table_eq_none hlt).not.mp (h4 hlt)⟩

section Next

variable {j : Nat}

theorem Next.start (hj : Next m i j) :
    (pack (cell m) j).length = (pack (cell m) i).length + (cell m i).length := by
  have hempty : behind (cell m) i j = [] :=
    behind_eq_nil fun k hk hk' => cell_eq_nil.mpr (hj.empty k hk hk')
  rw [pack_split (cell m) hj.lt, hempty, List.append_nil, List.length_append]

theorem Next.behind_length (hj : Next m i j) (hi : i < MAX_NR_FUNC) :
    (behind (cell m) i MAX_NR_FUNC).length = 0 ↔ j = MAX_NR_FUNC := by
  constructor
  · intro hzero
    by_contra hne
    have hlt : j < MAX_NR_FUNC := Nat.lt_of_le_of_ne hj.le hne
    have hcell : 0 < (cell m j).length :=
      List.length_pos_iff.mpr (mt cell_eq_nil.mp (hj.used hlt))
    have h1 := congrArg List.length (pack_split (cell m) hi)
    have h2 := congrArg List.length (pack_split (cell m) hlt)
    simp only [List.length_append] at h1 h2
    have := hj.start
    omega
  · rintro rfl
    rw [behind_eq_nil fun k hk hk' => cell_eq_nil.mpr (hj.empty k hk hk')]
    rfl

theorem Layout.firstFree (h : Layout s m) :
    s.bufptr.add (s.bufsize - s.bufleft) = ⟨s.bufptr.blk, (used m).length⟩ := by
  have hoff := h.bufptr_off
  have hleft := h.bufleft
  unfold FuncPtr.add
  congr 1
  omega

/-- `fj` points behind the cell of `i`, also when there is no key behind `i`. -/
theorem Layout.fj (h : Layout s m) (hi : i < MAX_NR_FUNC) (hj : Next m i j) :
    (if j < MAX_NR_FUNC then s.table j else none).getD
        (s.bufptr.add (s.bufsize - s.bufleft)) =
      ⟨s.bufptr.blk, (pack (cell m) i).length + (cell m i).length⟩ := by
  split
  · next hlt =>
    obtain ⟨t, ht⟩ := Option.ne_none_iff_exists'.mp (hj.used hlt)
    rw [h.table j hlt, ht, Option.map_some, Option.getD_some, hj.start]
    rfl
  · next hge =>
    have hlen := (h.split hi).2.2.2
    rw [(hj.behind_length hi).mpr (Nat.le_antisymm hj.le (by omega))] at hlen
    rw [Option.getD_none, h.firstFree, hlen]
    rfl

theorem Layout.delta (h : Layout s m) (hi : i < MAX_NR_FUNC) (str : List UInt8) :
    s.delta i str = str.length + 1 - (cell m i).length := by
  unfold FuncTable.delta
  rw [h.table i hi]
  cases ht : m i with
  | none =>
    rw [cell_eq_nil.mpr ht, Option.map_none, List.length_nil]
    dsimp only
    omega
  | some t =>
    have hc : cell m i = t ++ [0] := by unfold cell; rw [ht]
    rw [Option.map_some]
    dsimp only
    rw [h.stringAt hi ht, hc, List.length_append, List.length_singleton, Int.add_comm,
      ← Int.sub_eq_add_neg]
    omega

/-- The table once room has been made, in the old buffer or in a new one `b`. -/
theorem Layout.table_opened (h : Layout s m) (hi : i < MAX_NR_FUNC) (hj : Next m i j)
    (str : List UInt8) {T : Nat → Option FuncPtr} {b : Nat}
    (hlow : ∀ k < i, T k = (s.table k).map fun p => ⟨b, p.off⟩)
    (hself : T i = some ⟨b, (pack (cell m) i).length⟩)
    (hmid : ∀ k, i < k → k < j → T k = none)
    (hhigh : ∀ k, j ≤ k → k < MAX_NR_FUNC →
      T k = (s.table k).map fun p => ⟨b, p.off + (str.length + 1 - (cell m i).length)⟩) :
    ∀ k < MAX_NR_FUNC, T k = (Function.update m i (some str) k).map fun _ =>
      ⟨b, (pack (cell (Function.update m i (some str))) k).length⟩ := by
  intro k hk
  have hstart := start_update m i str k
  rcases Nat.lt_trichotomy k i with hlt | rfl | hgt
  · rw [if_neg (by omega), Int.add_zero] at hstart
    rw [hlow k hlt, h.table k hk, Function.update_of_ne (Nat.ne_of_lt hlt), Option.map_map, hstart]
    rfl
  · rw [if_neg (by omega), Int.add_zero] at hstart
    rw [hself, Function.update_self, Option.map_some, hstart]
  · rw [if_pos hgt] at hstart
    rw [Function.update_of_ne (Nat.ne_of_gt hgt)]
    by_cases hkj : k < j
    · rw [hmid k hgt hkj, hj.empty k hgt hkj]
      rfl
    · rw [hhigh k (by omega) hk, h.table k hk, Option.map_map, hstart]
      rfl

theorem setIfNull_eq (s : FuncTable) (q : Option FuncPtr) (i : Nat) (p : FuncPtr) :
    s.setIfNull q i p =
      { s with table := if q.isNone then Function.update s.table i (some p) else s.table } := by
  unfold FuncTable.setIfNull
  split <;> rfl

theorem setIfNull_table_of_ne {T : Nat → Option FuncPtr} {c : Bool} {p : FuncPtr} {k : Nat}
    (h : k ≠ i) : (if c then Function.update T i (some p) else T) k = T k := by
  cases c
  · rfl
  · exact Function.update_of_ne h _ _

/-- Key `i` points to where its cell starts, once `fj` is put there if there
was no pointer. -/
theorem Layout.self (h : Layout s m) (hi : i < MAX_NR_FUNC) {T : Nat → Option FuncPtr}
    (hT : T i = s.table i) :
    (if (s.table i).isNone then Function.update T i
        (some ⟨s.bufptr.blk, (pack (cell m) i).length + (cell m i).length⟩) else T) i =
      some ⟨s.bufptr.blk, (pack (cell m) i).length⟩ := by
  rw [h.table i hi] at hT ⊢
  cases ht : m i with
  | none =>
    rw [cell_eq_nil.mpr ht, Option.map_none, Option.isNone_none, if_pos rfl, Function.update_self]
    simp
  | some t =>
    rw [Option.map_some, Option.isNone_some, if_neg Bool.false_ne_true, hT, ht]
    rfl

/-! ### In the old buffer -/

theorem Layout.shiftTail (h : Layout s m) (hi : i < MAX_NR_FUNC) (hj : Next m i j) {n : Int}
    (hn : 0 ≤ (cell m i).length + n) (hfit : n ≤ s.bufleft) :
    ∃ s1, shiftTail s ⟨s.bufptr.blk, (pack (cell m) i).length + (cell m i).length⟩
        ⟨s.bufptr.blk, (used m).length⟩ j n = s1 ∧
      (s1.bufptr = s.bufptr ∧ s1.bufsize = s.bufsize ∧ s1.size = s.size ∧ s1.next = s.next) ∧
      (∀ k, s1.table k =
        if j ≤ k ∧ k < MAX_NR_FUNC then (s.table k).map (·.add n) else s.table k) ∧
      Holds (s1.mem s.bufptr.blk) 0 (pack (cell m) i) ∧
      Holds (s1.mem s.bufptr.blk) ((pack (cell m) i).length + (cell m i).length + n)
        (behind (cell m) i MAX_NR_FUNC) ∧
      s1.oob = false := by
  obtain ⟨hbefore, -, hbehind, hlen⟩ := h.split hi
  have hleft := h.bufleft
  have hsize := h.size
  refine ⟨_, rfl, ?_⟩
  unfold LinuxConsole.shiftTail
  split
  · have hdis : (0 : Int) + (pack (cell m) i).length ≤
        (pack (cell m) i).length + (cell m i).length + n := by omega
    have hcount : ((behind (cell m) i MAX_NR_FUNC).length : Int) ≤
        (used m).length - ((pack (cell m) i).length + (cell m i).length) := by omega
    refine ⟨⟨rfl, rfl, rfl, rfl⟩, fun _ => rfl, ?_, ?_, ?_⟩
    · exact holds_memmove_frame
        (d := ⟨s.bufptr.blk, (pack (cell m) i).length + (cell m i).length + n⟩) hbefore (.inl hdis)
    · exact holds_memmove
        (d := ⟨s.bufptr.blk, (pack (cell m) i).length + (cell m i).length + n⟩)
        (e := ⟨s.bufptr.blk, (pack (cell m) i).length + (cell m i).length⟩) hbehind hcount
    · exact memmove_oob (s := s)
        (d := ⟨s.bufptr.blk, (pack (cell m) i).length + (cell m i).length + n⟩)
        ⟨s.bufptr.blk, (pack (cell m) i).length + (cell m i).length⟩ h.inside
        (by dsimp only; omega) (by rw [hsize]; dsimp only; omega)
  · next hge =>
    have hnil := List.length_eq_zero_iff.mp
      ((hj.behind_length hi).mpr (Nat.le_antisymm hj.le (by omega)))
    rw [hnil]
    exact ⟨⟨rfl, rfl, rfl, rfl⟩, fun k => (if_neg (by omega)).symm, hbefore, holds_nil, h.inside⟩

/-- **The string fits**: what stands behind is moved within the buffer. -/
theorem Layout.fit (h : Layout s m) (hi : i < MAX_NR_FUNC) (hj : Next m i j) (str : List UInt8)
    (hfit : (str.length : Int) + 1 - (cell m i).length ≤ s.bufleft) :
    Opened (fitString s i j ⟨s.bufptr.blk, (pack (cell m) i).length + (cell m i).length⟩
      ⟨s.bufptr.blk, (used m).length⟩ (str.length + 1 - (cell m i).length)) m i str := by
  obtain ⟨-, -, -, hlen⟩ := h.split hi
  have hij := hj.lt
  have hleft := h.bufleft
  have hused := congrArg List.length (used_update m hi str)
  simp only [List.length_append, List.length_singleton] at hused
  obtain ⟨s1, hs1, ⟨hb, hbs, hsz, hnx⟩, htable, hbefore, hafter, hoob⟩ :=
    h.shiftTail hi hj (n := str.length + 1 - (cell m i).length) (by omega) hfit
  rw [show ((pack (cell m) i).length : Int) + (cell m i).length +
    (str.length + 1 - (cell m i).length) = (pack (cell m) i).length + (str.length + 1) by omega]
    at hafter
  unfold fitString
  rw [hs1, setIfNull_eq]
  refine
    { table := ?_
      before := by rw [hb]; exact hbefore
      after := by rw [hb]; exact hafter
      bufptr_off := by rw [hb]; exact h.bufptr_off
      bufleft := by dsimp only; omega
      room := by dsimp only; omega
      size := by dsimp only; rw [hb, hsz, hbs, h.size]
      fresh := by dsimp only; rw [hb, hnx]; exact h.fresh
      inside := hoob }
  dsimp only
  rw [hb]
  refine h.table_opened hi hj str (fun k hk => ?_) (h.self hi ?_) (fun k hk hk' => ?_)
    fun k hk hk' => ?_
  · rw [setIfNull_table_of_ne (Nat.ne_of_lt hk), htable, if_neg (by omega), h.table k (by omega),
      Option.map_map]
    rfl
  · rw [htable, if_neg (by omega)]
  · rw [setIfNull_table_of_ne (Nat.ne_of_gt hk), htable, if_neg (by omega)]
    exact (h.table_eq_none (Nat.lt_of_lt_of_le hk' hj.le)).mpr (hj.empty k hk hk')
  · rw [setIfNull_table_of_ne (by omega), htable, if_pos ⟨hk, hk'⟩, h.table k hk',
      Option.map_map, Option.map_map]
    rfl

/-! ### In a larger buffer -/

theorem growSize_ge (need : Int) {n : Nat} {sz : Int} (hsz : 1 ≤ sz) (h : need ≤ sz + n) :
    need ≤ growSize need n sz := by
  induction n generalizing sz with
  | zero =>
    unfold growSize
    omega
  | succ n ih =>
    unfold growSize
    split
    · exact ih (by omega) (by omega)
    · omega

theorem add_sub_base (n : Nat) (x y : Int) : FuncPtr.add ⟨n, 0⟩ (x - 0 + y) = ⟨n, x + y⟩ := by
  unfold FuncPtr.add
  dsimp only
  rw [Int.sub_zero, Int.zero_add]

/-- The head of the buffer `b` copied to the start of the buffer `n`. -/
theorem copyHead_spec {n b : Nat} (hne : b ≠ n) {a : Int} (j : Nat) {l : List UInt8}
    (hl : l.length ≤ a) (hholds : Holds (s.mem b) 0 l) (hsize : a ≤ s.size n)
    (hoob : s.oob = false) :
    ∃ s1, copyHead s ⟨n, 0⟩ ⟨b, 0⟩ ⟨b, a⟩ j = s1 ∧
      (s1.size = s.size ∧ s1.next = s.next ∧ s1.mem b = s.mem b) ∧
      (∀ k, s1.table k = if k < j then (s.table k).map fun p => ⟨n, p.off⟩ else s.table k) ∧
      Holds (s1.mem n) 0 l ∧ s1.oob = false := by
  have hptr : (fun p : FuncPtr => FuncPtr.add ⟨n, 0⟩ (p.off - 0)) = fun p => ⟨n, p.off⟩ := by
    funext p
    have h := add_sub_base n p.off 0
    rwa [Int.add_zero, Int.add_zero] at h
  refine ⟨_, rfl, ?_⟩
  unfold copyHead
  dsimp only
  rw [hptr, Int.sub_zero]
  split
  · refine ⟨⟨rfl, rfl, memmove_mem_of_ne hne⟩, fun k => ?_, ?_, ?_⟩
    · simp only [FuncTable.rebase, Nat.zero_le, true_and]
      rfl
    · exact holds_memmove (d := ⟨n, 0⟩) (e := ⟨b, 0⟩) hholds hl
    · exact memmove_oob (d := ⟨n, 0⟩) ⟨b, 0⟩ hoob (Int.le_refl 0) (by dsimp only; omega)
  · have hnil : l = [] := List.length_eq_zero_iff.mp (by omega)
    refine ⟨⟨rfl, rfl, rfl⟩, fun k => ?_, ?_, hoob⟩
    · simp only [FuncTable.rebase, Nat.zero_le, true_and]
    · rw [hnil]
      exact holds_nil

/-- The bytes of the buffer `b` from `a` to `u` copied to the buffer `n`,
behind a list that is already there. -/
theorem copyTail_spec {n b : Nat} {a u t : Int} (j : Nat) {l l' : List UInt8}
    (hl : (l.length : Int) = u - a) (hholds : Holds (s.mem b) a l)
    (hl' : l'.length ≤ a + t) (hholds' : Holds (s.mem n) 0 l') (hsize : u + t ≤ s.size n)
    (hoob : s.oob = false) :
    ∃ s1, copyTail s ⟨n, 0⟩ ⟨b, 0⟩ ⟨b, a⟩ ⟨b, u⟩ j t = s1 ∧
      (s1.size = s.size ∧ s1.next = s.next) ∧
      (∀ k, s1.table k = if a < u ∧ j ≤ k ∧ k < MAX_NR_FUNC then
        (s.table k).map fun p => ⟨n, p.off + t⟩ else s.table k) ∧
      Holds (s1.mem n) 0 l' ∧ Holds (s1.mem n) (a + t) l ∧ s1.oob = false := by
  have hptr : (fun p : FuncPtr => FuncPtr.add ⟨n, 0⟩ (p.off - 0 + t)) = fun p => ⟨n, p.off + t⟩ :=
    funext fun p => add_sub_base n p.off t
  refine ⟨_, rfl, ?_⟩
  unfold copyTail
  dsimp only
  rw [hptr, add_sub_base]
  split
  · next hlt =>
    have hdis : (0 : Int) + l'.length ≤ a + t := by omega
    refine ⟨⟨rfl, rfl⟩, fun k => ?_, ?_, ?_, ?_⟩
    · simp only [FuncTable.rebase, show a < u from hlt, true_and]
      rfl
    · exact holds_memmove_frame (d := ⟨n, a + t⟩) hholds' (.inl hdis)
    · exact holds_memmove (d := ⟨n, a + t⟩) (e := ⟨b, a⟩) hholds (by omega)
    · exact memmove_oob (d := ⟨n, a + t⟩) ⟨b, a⟩ hoob (by dsimp only; omega) (by dsimp only; omega)
  · next hge =>
    have hnil : l = [] := List.length_eq_zero_iff.mp (by omega)
    refine ⟨⟨rfl, rfl⟩, fun k => (if_neg (fun hk => hge hk.1)).symm, hholds', ?_, hoob⟩
    rw [hnil]
    exact holds_nil

/-- **A larger buffer**: the head and the tail are copied to it. -/
theorem Layout.grow (h : Layout s m) (hi : i < MAX_NR_FUNC) (hj : Next m i j) (str : List UInt8)
    (hmore : s.bufleft < (str.length : Int) + 1 - (cell m i).length) {sz : Int}
    (hsz : s.bufsize - s.bufleft + (str.length + 1 - (cell m i).length) ≤ sz) :
    Opened (growString s i j ⟨s.bufptr.blk, (pack (cell m) i).length + (cell m i).length⟩
      ⟨s.bufptr.blk, (used m).length⟩ (str.length + 1 - (cell m i).length) sz) m i str := by
  obtain ⟨hbefore, -, hbehind, hlen⟩ := h.split hi
  have hij := hj.lt
  have hleft := h.bufleft
  have hroom := h.room
  have hused := congrArg List.length (used_update m hi str)
  simp only [List.length_append, List.length_singleton] at hused
  have hne : s.bufptr.blk ≠ s.next := Nat.ne_of_lt h.fresh
  have hold : s.bufptr = ⟨s.bufptr.blk, 0⟩ := by rw [← h.bufptr_off]
  -- The new block, and `fj` for a key without a string.
  obtain ⟨s1, hs1, hmem1, hsize1, hnext1, hoob1, htable1⟩ : ∃ s1,
      (newBuffer s sz).setIfNull (s.table i) i
        ⟨s.bufptr.blk, (pack (cell m) i).length + (cell m i).length⟩ = s1 ∧
      s1.mem = s.mem ∧ s1.size = Function.update s.size s.next sz ∧ s1.next = s.next + 1 ∧
      s1.oob = false ∧
      s1.table = if (s.table i).isNone then Function.update s.table i
        (some ⟨s.bufptr.blk, (pack (cell m) i).length + (cell m i).length⟩) else s.table := by
    refine ⟨_, rfl, ?_⟩
    rw [setIfNull_eq]
    exact ⟨rfl, rfl, rfl, h.inside, rfl⟩
  have hself1 := h.self hi (T := s.table) rfl
  rw [← htable1] at hself1
  have hother1 : ∀ k ≠ i, s1.table k = s.table k := by
    intro k hk
    rw [htable1]
    exact setIfNull_table_of_ne hk
  -- The head.
  obtain ⟨s2, hs2, ⟨hsize2, hnext2, hmem2⟩, htable2, hbefore2, hoob2⟩ :=
    copyHead_spec (s := s1) hne (a := (pack (cell m) i).length + (cell m i).length) j
      (l := pack (cell m) i) (by omega) (by rw [hmem1]; exact hbefore)
      (by rw [hsize1, Function.update_self]; omega) hoob1
  -- The tail.
  obtain ⟨s3, hs3, ⟨hsize3, hnext3⟩, htable3, hbefore3, hafter3, hoob3⟩ :=
    copyTail_spec (s := s2) (n := s.next) (b := s.bufptr.blk) (u := (used m).length)
      (a := (pack (cell m) i).length + (cell m i).length)
      (t := str.length + 1 - (cell m i).length) j
      (l := behind (cell m) i MAX_NR_FUNC) (by omega)
      (by rw [hmem2, hmem1]; exact hbehind) (by omega) hbefore2
      (by rw [hsize2, hsize1, Function.update_self]; omega) hoob2
  rw [show ((pack (cell m) i).length : Int) + (cell m i).length +
    (str.length + 1 - (cell m i).length) = (pack (cell m) i).length + (str.length + 1) by omega]
    at hafter3
  have hfree : ∀ s3 : FuncTable, (if s.bufptr ≠ funcBuf then s3.kfree s.bufptr else s3) =
      { s3 with size := if s.bufptr ≠ funcBuf then Function.update s3.size s.bufptr.blk 0
          else s3.size } := by
    intro s3
    split <;> rfl
  have hshape : growString s i j ⟨s.bufptr.blk, (pack (cell m) i).length + (cell m i).length⟩
      ⟨s.bufptr.blk, (used m).length⟩ (str.length + 1 - (cell m i).length) sz =
      { s3 with
        size := if s.bufptr ≠ funcBuf then Function.update s3.size s.bufptr.blk 0 else s3.size
        bufptr := ⟨s.next, 0⟩
        bufleft := s.bufleft - (str.length + 1 - (cell m i).length) + sz - s.bufsize
        bufsize := sz } := by
    unfold growString
    dsimp only
    rw [hs1]
    rw [← hold] at hs2 hs3
    rw [hs2, hs3, hfree]
  rw [hshape]
  refine
    { table := ?_
      before := hbefore3
      after := hafter3
      bufptr_off := rfl
      bufleft := by dsimp only; omega
      room := by dsimp only; omega
      size := ?_
      fresh := by dsimp only; omega
      inside := hoob3 }
  · dsimp only
    have hlast : ¬((pack (cell m) i).length + (cell m i).length : Int) < (used m).length →
        j = MAX_NR_FUNC := fun hge => (hj.behind_length hi).mp (by omega)
    refine h.table_opened hi hj str (fun k hk => ?_) ?_ (fun k hk hk' => ?_) fun k hk hk' => ?_
    · rw [htable3, if_neg (by omega), htable2, if_pos (by omega), hother1 k (Nat.ne_of_lt hk)]
    · rw [htable3, if_neg (by omega), htable2, if_pos hij, hself1]
      rfl
    · rw [htable3, if_neg (by omega), htable2, if_pos hk', hother1 k (Nat.ne_of_gt hk),
        (h.table_eq_none (Nat.lt_of_lt_of_le hk' hj.le)).mpr (hj.empty k hk hk')]
      rfl
    · have hlt : ((pack (cell m) i).length + (cell m i).length : Int) < (used m).length := by
        by_contra hge
        have := hlast hge
        omega
      rw [htable3, if_pos ⟨hlt, hk, hk'⟩, htable2, if_neg (by omega), hother1 k (by omega)]
  · dsimp only
    split
    · rw [Function.update_of_ne (Ne.symm hne), hsize3, hsize2, hsize1, Function.update_self]
    · rw [hsize3, hsize2, hsize1, Function.update_self]

end Next

/-! ### The calls -/

/-- **`KDSKBSENT`** sets the string in the map, or finds no memory for a larger
buffer and changes nothing. -/
theorem Layout.setString (h : Layout s m) (hi : i < MAX_NR_FUNC) {str : List UInt8}
    (hstr : 0 ∉ str) (alloc : Bool) :
    (setString s i str alloc = (s, .enomem) ∧ alloc = false) ∨
      ∃ s', setString s i str alloc = (s', .ok) ∧ Layout s' (Function.update m i (some str)) := by
  have hj := h.next hi
  have hcopy : ∀ s' : FuncTable, Opened s' m i str →
      Layout (s'.copyString i str) (Function.update m i (some str)) := by
    intro s' ho
    have hptr := ho.table i hi
    rw [Function.update_self, Option.map_some, cell_update,
      pack_congr fun k hk => Function.update_of_ne (Nat.ne_of_lt hk) _ (cell m)] at hptr
    unfold FuncTable.copyString
    rw [hptr]
    exact ho.strcpy h.nonzero hi hstr
  unfold LinuxConsole.setString
  dsimp only
  rw [h.delta hi str, h.fj hi hj, h.firstFree]
  split
  · next hfit => exact .inr ⟨_, rfl, hcopy _ (h.fit hi hj str hfit)⟩
  · next hmore =>
    cases alloc with
    | false => exact .inl ⟨rfl, rfl⟩
    | true =>
      refine .inr ⟨_, rfl, hcopy _ (h.grow hi hj str (by omega) ?_)⟩
      exact growSize_ge _ (by decide) (by omega)

theorem Layout.strings (h : Layout s m) {k : Nat} (hk : k < MAX_NR_FUNC) : s.strings k = m k := by
  unfold FuncTable.strings
  rw [h.table k hk]
  cases hm : m k with
  | none => rfl
  | some t => rw [Option.map_some, Option.map_some, h.stringAt hk hm]

theorem Layout.used_strings (h : Layout s m) : used s.strings = used m := by
  refine pack_congr fun k hk => ?_
  unfold cell
  rw [h.strings hk]

/-- What the loop of `KDGKBSENT` puts, if no `put_user` fails. -/
theorem putString_spec {mem : Int → UInt8} {put : Nat → Bool} {t : List UInt8} (ht : 0 ∉ t)
    {sz : Nat} {o : Int} {n : Nat} (h : Holds mem o (t ++ [0])) :
    ((∀ a, put a = true) → (putString mem put sz o n).2 ≠ none) ∧
      ∀ a, (putString mem put sz o n).2 = some a →
        (putString mem put sz o n).1 = t.take sz ∧ (mem a ≠ 0 ↔ sz < t.length) := by
  induction t generalizing sz o n with
  | nil =>
    have h0 : mem o = 0 := (holds_cons.mp h).1
    cases sz with
    | zero => exact ⟨fun _ => Option.some_ne_none _, fun a ha => by
        obtain rfl : o = a := Option.some.inj ha
        exact ⟨rfl, iff_of_false (not_not.mpr h0) (Nat.lt_irrefl 0)⟩⟩
    | succ sz =>
      unfold putString
      rw [if_pos h0]
      refine ⟨fun _ => Option.some_ne_none _, fun a ha => ?_⟩
      obtain rfl : o = a := Option.some.inj ha
      exact ⟨rfl, iff_of_false (not_not.mpr h0) (Nat.not_lt_zero _)⟩
  | cons x t ih =>
    obtain ⟨hx, hrest⟩ := holds_cons.mp h
    have hne : x ≠ 0 := fun h0 => ht (h0 ▸ List.mem_cons_self)
    cases sz with
    | zero => exact ⟨fun _ => Option.some_ne_none _, fun a ha => by
        obtain rfl : o = a := Option.some.inj ha
        exact ⟨rfl, iff_of_true (hx ▸ hne) (Nat.succ_pos _)⟩⟩
    | succ sz =>
      obtain ⟨hput, hend⟩ := @ih (fun h0 => ht (List.mem_cons_of_mem x h0)) sz _ (n + 1) hrest
      unfold putString
      rw [hx, if_neg hne]
      split
      · refine ⟨hput, fun a ha => ?_⟩
        obtain ⟨h1, h2⟩ := hend a ha
        refine ⟨congrArg (x :: ·) h1, h2.trans ?_⟩
        rw [List.length_cons]
        omega
      · next hp => exact ⟨fun hall => absurd (hall n) hp, fun a ha => by cases ha⟩

/-- **`KDGKBSENT`** gives the first 511 characters of the string. -/
theorem Layout.getString (h : Layout s m) (hi : i < MAX_NR_FUNC) (put : Nat → Bool) :
    ((∀ a, put a = true) → (getString s i put).1 ≠ .efault) ∧
      ((LinuxConsole.getString s i put).1 ≠ .efault →
        (LinuxConsole.getString s i put).2 = ((m i).getD []).take 511 ++ [0] ∧
        (LinuxConsole.getString s i put).1 =
          if 511 < ((m i).getD []).length then .eoverflow else .ok) := by
  unfold LinuxConsole.getString
  rw [h.table i hi]
  cases hm : m i with
  | none =>
    rw [Option.map_none]
    dsimp only
    split
    · exact ⟨fun _ => KbRet.noConfusion, fun _ => ⟨rfl, rfl⟩⟩
    · next hp => exact ⟨fun hall => absurd (hall 0) hp, fun hne => absurd rfl hne⟩
  | some t =>
    have hcell := (h.split hi).2.1
    have hc : cell m i = t ++ [0] := by unfold cell; rw [hm]
    rw [hc] at hcell
    obtain ⟨hput, hend⟩ := @putString_spec _ put _ (h.nonzero i t hm) 511 _ 0 hcell
    rw [Option.map_some, Option.getD_some]
    dsimp only
    generalize putString (s.mem s.bufptr.blk) put 511 (pack (cell m) i).length 0 = r at hput hend
    obtain ⟨out, stop⟩ := r
    cases stop with
    | none => exact ⟨fun hall => absurd rfl (hput hall), fun hne => absurd rfl hne⟩
    | some a =>
      obtain ⟨hout, hlong⟩ := hend a rfl
      dsimp only at hout ⊢
      split
      · refine ⟨fun _ => ?_, fun _ => ⟨by rw [hout], ?_⟩⟩
        · split <;> exact KbRet.noConfusion
        · simp only [hlong]
      · next hp => exact ⟨fun hall => absurd (hall _) hp, fun hne => absurd rfl hne⟩

end Layout

end LinuxConsole
