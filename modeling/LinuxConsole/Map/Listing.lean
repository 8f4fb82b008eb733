import LinuxConsole.Lib.Gaps
import LinuxConsole.Map.Entries

/-!
# Listing a Unicode map

`con_get_unimap` walks over the three levels of a map and puts every code with a glyph below
`MAX_GLYPH` into the user's list while there is room, and counts them all.  **`conGetUnimap_eq`**
says that the list is the beginning of `UniPagedir.listed`, which takes the codes in order.
-/

namespace LinuxConsole

open Lib

/-- The count `ect` and what has been put into the list. -/
structure Putting where
  ect : Nat
  list : List (Nat × Nat)

/-- The code of a place in the three levels, as a `u_short`. -/
def codeOf (i j k : Nat) : Nat := ((i <<< 11) + (j <<< 6) + k) % 65536

/-- A pair is counted, and put into the list if there is room. -/
def putPair (ct : Nat) (r : Putting) (pair : Nat × Nat) : Putting :=
  { ect := r.ect + 1
    list := if r.ect < ct then r.list ++ [pair] else r.list }

/-- One turn of the loop over `k`. -/
def putUnipair (ct i j : Nat) (p2 : Page) (r : Putting) (k : Nat) : Putting :=
  if p2 k < maxGlyph then putPair ct r (codeOf i j k, p2 k) else r

/-- The loop over `k`, if the page is there. -/
def putPage (ct i j : Nat) (p2 : Option Page) (r : Putting) : Putting :=
  match p2 with
  | none => r
  | some p2 => (List.range 64).foldl (putUnipair ct i j p2) r

/-- The loop over `j`. -/
def putRow (ct i : Nat) (p1 : PageRow) (r : Putting) : Putting :=
  (List.range 32).foldl (fun r j => putPage ct i j (p1 j) r) r

/-- The loop over `i`. -/
def putPagedir (ct : Nat) (p : UniPagedir) : Putting :=
  (List.range 32).foldl
    (fun r i =>
      match p.uniPgdir i with
      | none => r
      | some p1 => putRow ct i p1 r) ⟨0, []⟩

/-- `con_get_unimap` with room for `ct` pairs: what it returns, the count as a `u_short`, and the
pairs. -/
def conGetUnimap (loc : Option UniPagedir) (ct : Nat) : MapRet × Nat × List (Nat × Nat) :=
  let r : Putting :=
    match loc with
    | none => ⟨0, []⟩
    | some p => putPagedir ct p
  (if r.ect ≤ ct then .ok else .enomem, r.ect % 65536, r.list)

/-! ### What is listed -/

/-- The pair of a code, if its glyph is below `MAX_GLYPH`. -/
def listedPair (m : Nat → Nat) (u : Nat) : Option (Nat × Nat) :=
  if m u < maxGlyph then some (u, m u) else none

/-- The codes with a glyph below `MAX_GLYPH`, in order, each with its glyph. -/
def listed (m : Nat → Nat) : List (Nat × Nat) := (List.range 65536).filterMap (listedPair m)

theorem listedPair_eq_some {m : Nat → Nat} {u : Nat} {pair : Nat × Nat} :
    listedPair m u = some pair ↔ pair = (u, m u) ∧ m u < maxGlyph := by
  rw [listedPair]
  split
  · next hlt =>
    rw [Option.some.injEq, eq_comm]
    exact (and_iff_left hlt).symm
  · next hge => exact iff_of_false (Option.some_ne_none pair).symm fun h => hge h.2

theorem mem_listed {m : Nat → Nat} {u g : Nat} :
    (u, g) ∈ listed m ↔ u < 65536 ∧ m u = g ∧ g < maxGlyph := by
  rw [listed, List.mem_filterMap]
  constructor
  · rintro ⟨v, hv, hpair⟩
    obtain ⟨heq, hlt⟩ := listedPair_eq_some.mp hpair
    obtain ⟨rfl, rfl⟩ := Prod.mk.inj heq
    exact ⟨List.mem_range.mp hv, rfl, hlt⟩
  · rintro ⟨hu, rfl, hlt⟩
    exact ⟨u, List.mem_range.mpr hu, listedPair_eq_some.mpr ⟨rfl, hlt⟩⟩

theorem listed_ascending (m : Nat → Nat) : (listed m).Pairwise fun a b => a.1 < b.1 := by
  refine List.Pairwise.filterMap (listedPair m) (fun u v huv a ha b hb => ?_) List.pairwise_lt_range
  obtain ⟨rfl, -⟩ := listedPair_eq_some.mp ha
  obtain ⟨rfl, -⟩ := listedPair_eq_some.mp hb
  exact huv

theorem listed_congr {m m' : Nat → Nat} (h : ∀ u < 65536, m u = m' u) : listed m = listed m' := by
  refine List.filterMap_congr fun u hu => ?_
  rw [listedPair, listedPair, h u (List.mem_range.mp hu)]

/-! ### The loops -/

/-- Putting pairs counts them all and puts the first of them. -/
theorem putPairs_eq (ct : Nat) (pairs : List (Nat × Nat)) (r : Putting) :
    pairs.foldl (putPair ct) r = ⟨r.ect + pairs.length, r.list ++ pairs.take (ct - r.ect)⟩ := by
  induction pairs generalizing r with
  | nil => simp
  | cons pair pairs ih =>
    rw [List.foldl_cons, ih, putPair, List.length_cons]
    dsimp only
    congr 1
    · omega
    · by_cases hroom : r.ect < ct
      · obtain ⟨n, hn⟩ := Nat.exists_eq_add_of_lt hroom
        have hleft : ct - r.ect = n + 1 := by omega
        have hrest : ct - (r.ect + 1) = n := by omega
        rw [if_pos hroom, hleft, hrest, List.take_succ_cons, List.append_assoc]
        rfl
      · have hleft : ct - r.ect = 0 := by omega
        have hrest : ct - (r.ect + 1) = 0 := by omega
        rw [if_neg hroom, hleft, hrest, List.take_zero, List.take_zero]

theorem entry_codeOf (d : UniPagedir) {i j k : Nat} (hi : i < 32) (hj : j < 32) (hk : k < 64) :
    codeOf i j k = i * 2048 + (j * 64 + k) ∧
      d.entry (i * 2048 + (j * 64 + k)) = pageEntry ((d.uniPgdir i).bind fun p1 => p1 j) k := by
  constructor
  · rw [codeOf, Nat.shiftLeft_eq, Nat.shiftLeft_eq]
    omega
  · rw [entry_eq, UniPagedir.page]
    rw [show (i * 2048 + (j * 64 + k)) / 64 / 32 = i by omega,
      show (i * 2048 + (j * 64 + k)) / 64 % 32 = j by omega,
      show (i * 2048 + (j * 64 + k)) % 64 = k by omega]

theorem listed_eq (m : Nat → Nat) :
    listed m = (List.range 32).flatMap fun i => (List.range 32).flatMap fun j =>
      (List.range 64).filterMap fun k => listedPair m (i * 2048 + (j * 64 + k)) := by
  rw [listed, show 65536 = 32 * 2048 from rfl, filterMap_range_mul]
  refine List.flatMap_congr fun i _ => ?_
  rw [show 2048 = 32 * 64 from rfl, filterMap_range_mul]

theorem listedPair_hole {m : Nat → Nat} {u : Nat} (h : m u = 0xffff) : listedPair m u = none := by
  rw [listedPair, h, if_neg (by decide)]

theorem putPage_eq (ct : Nat) {d : UniPagedir} {i j : Nat} (hi : i < 32) (hj : j < 32)
    (r : Putting) :
    putPage ct i j ((d.uniPgdir i).bind fun p1 => p1 j) r =
      ((List.range 64).filterMap fun k =>
        listedPair d.entry (i * 2048 + (j * 64 + k))).foldl (putPair ct) r := by
  rw [List.foldl_filterMap, putPage.eq_def]
  cases hpage : (d.uniPgdir i).bind fun p1 => p1 j with
  | none =>
    refine (List.foldl_ext _ (fun r _ => r) _ fun r k hk => ?_).trans (List.foldl_fixed _) |>.symm
    have hentry := (entry_codeOf d hi hj (List.mem_range.mp hk)).2
    rw [hpage] at hentry
    rw [listedPair_hole hentry]
  | some p2 =>
    refine List.foldl_ext _ _ _ fun r k hk => ?_
    obtain ⟨hcode, hentry⟩ := entry_codeOf d hi hj (List.mem_range.mp hk)
    rw [hpage] at hentry
    rw [putUnipair, listedPair, hentry, hcode]
    by_cases hlow : p2 k < maxGlyph
    · have hlow' : pageEntry (some p2) k < maxGlyph := hlow
      rw [if_pos hlow, if_pos hlow']
      rfl
    · have hlow' : ¬ pageEntry (some p2) k < maxGlyph := hlow
      rw [if_neg hlow, if_neg hlow']

theorem putPagedir_eq (ct : Nat) (d : UniPagedir) :
    putPagedir ct d = (listed d.entry).foldl (putPair ct) ⟨0, []⟩ := by
  rw [listed_eq, List.foldl_flatMap, putPagedir]
  refine List.foldl_ext _ _ _ fun r i hi => ?_
  have hi := List.mem_range.mp hi
  have hrow : ∀ r, (List.range 32).foldl
      (fun r j => putPage ct i j ((d.uniPgdir i).bind fun p1 => p1 j) r) r =
        ((List.range 32).flatMap fun j => (List.range 64).filterMap fun k =>
          listedPair d.entry (i * 2048 + (j * 64 + k))).foldl (putPair ct) r := by
    intro r
    rw [List.foldl_flatMap]
    exact List.foldl_ext _ _ _ fun r j hj => putPage_eq ct hi (List.mem_range.mp hj) r
  rw [← hrow]
  cases d.uniPgdir i with
  | none => exact (List.foldl_fixed _).symm
  | some p1 => rfl

/-- **The list is the beginning of the codes in order, and the count is the count of all of them.** -/
theorem conGetUnimap_eq (d : UniPagedir) (ct : Nat) :
    conGetUnimap (some d) ct =
      (if (listed d.entry).length ≤ ct then .ok else .enomem, (listed d.entry).length % 65536,
        (listed d.entry).take ct) := by
  rw [conGetUnimap.eq_def]
  dsimp only
  rw [putPagedir_eq, putPairs_eq]
  simp only [Nat.zero_add, List.nil_append, Nat.sub_zero]

/-- With enough room all of them are listed, and counted exactly. -/
theorem conGetUnimap_room {d : UniPagedir} {ct : Nat} (hct : ct < 65536)
    (hroom : (listed d.entry).length ≤ ct) :
    conGetUnimap (some d) ct = (.ok, (listed d.entry).length, listed d.entry) := by
  rw [conGetUnimap_eq, if_pos hroom, List.take_of_length_le hroom,
    Nat.mod_eq_of_lt (Nat.lt_of_le_of_lt hroom hct)]

end LinuxConsole
