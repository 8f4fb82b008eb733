import LinuxConsole.Switch.Pool

/-!
# The colour map

`PIO_CMAP` gives all consoles of the VT one palette and `GIO_CMAP` returns that of a console, 48
bytes in the order red, green, blue.

`con_set_cmap` reads three bytes for every colour and stores three (`conSetCmap_palette`).
`con_get_cmap` has kept the index of the colour where the one of the byte belongs: it writes each of
the first sixteen bytes three times.  **`cmap_round_trip_iff`** says that the two agree exactly on
the maps whose bytes are all the same.
-/

namespace LinuxConsole.Switch

/-- The local variables `red`, `green` and `blue` of `con_set_cmap`. -/
structure Colours where
  red : Nat → Nat
  green : Nat → Nat
  blue : Nat → Nat

/-- The three arrays after `n` rounds of the first loop of `con_set_cmap`, from the round `i` on,
where `arg` has moved by `p` bytes. -/
def readColours (arg : Nat → BitVec 8) : Nat → Nat → Nat → Colours → Colours
  | 0, _, _, c => c
  | n + 1, i, p, c =>
    readColours arg n (i + 1) (p + 3)
      { red := Function.update c.red i (arg p).toNat
        green := Function.update c.green i (arg (p + 1)).toNat
        blue := Function.update c.blue i (arg (p + 2)).toNat }

/-- `vc_palette` after `n` rounds of the inner loop of `con_set_cmap`, from `j` and `k` on. -/
def storeColours (c : Colours) : Nat → Nat → Nat → (Nat → BitVec 8) → Nat → BitVec 8
  | 0, _, _, palette => palette
  | n + 1, j, k, palette =>
    let palette := Function.update palette k (BitVec.ofNat 8 (c.red j))
    let palette := Function.update palette (k + 1) (BitVec.ofNat 8 (c.green j))
    let palette := Function.update palette (k + 2) (BitVec.ofNat 8 (c.blue j))
    storeColours c n (j + 1) (k + 3) palette

/-- The bytes that `n` rounds of the loop of `con_get_cmap` write, from the round `i` on. -/
def writeColours (palette : Nat → BitVec 8) : Nat → Nat → List (BitVec 8)
  | 0, _ => []
  | n + 1, i => palette i :: palette i :: palette i :: writeColours palette n (i + 1)

/-- The consoles with their palettes.  `hooked` is what the driver's `con_set_palette` has been
given: a console and the palette that it had. -/
structure Coloured (N : Nat) where
  kernel : Kernel N
  vcPalette : Nat → Nat → BitVec 8
  hooked : List (Nat × (Nat → BitVec 8))

namespace Coloured

variable {N : Nat} (P : Pools N) (s : Coloured N)

/-- `set_palette`. -/
def setPalette (p : Nat) : Coloured N :=
  if s.kernel.isVisible p ∧ (s.kernel.con p).vcMode ≠ .graphics then
    { s with hooked := s.hooked ++ [(p, s.vcPalette p)] }
  else s

/-- One round of the loop of `con_set_cmap` over the consoles of the VT `v`. -/
def setCmapAt (c : Colours) (v : Fin N) (s : Coloured N) (i : Nat) : Coloured N :=
  match (s.kernel.vt v).vcCons i with
  | some tmp =>
    { s with vcPalette :=
        Function.update s.vcPalette tmp (storeColours c 16 0 0 (s.vcPalette tmp)) }
  | none => s

/-- `con_set_cmap`, with the bytes behind `arg`. -/
def conSetCmap (vc : Nat) (arg : Nat → BitVec 8) : Coloured N :=
  let v := (s.kernel.con vc).displayFg
  let c := readColours arg 16 0 0 ⟨fun _ => 0, fun _ => 0, fun _ => 0⟩
  let s := (List.range (P.vcCount v)).foldl (setCmapAt c v) s
  s.setPalette (s.kernel.vt v).fgConsole

/-- `con_get_cmap`: the bytes written through `arg`. -/
def conGetCmap (vc : Nat) : List (BitVec 8) := writeColours (s.vcPalette vc) 16 0

/-- The console is in a slot of the VT `v`. -/
def OnVt (v : Fin N) (p : Nat) : Prop := ∃ i < P.vcCount v, (s.kernel.vt v).vcCons i = some p

/-- After `con_set_cmap` on the console `vc` every console of its VT has the palette, the other
consoles have the palettes that they had, and `con_get_cmap` on each console of the VT returns the
bytes of the map in their order. -/
def CmapRoundTrip (vc : Nat) (arg : Nat → BitVec 8) : Prop :=
  let v := (s.kernel.con vc).displayFg
  (∀ p, s.OnVt P v p → ∀ m < 48, (s.conSetCmap P vc arg).vcPalette p m = arg m) ∧
    (∀ p, ¬ s.OnVt P v p → (s.conSetCmap P vc arg).vcPalette p = s.vcPalette p) ∧
    ∀ p, s.OnVt P v p → (s.conSetCmap P vc arg).conGetCmap p = (List.range 48).map arg

end Coloured

/-! ### The loops -/

/-- **The first loop**: the arrays hold every third byte. -/
theorem readColours_spec (arg : Nat → BitVec 8) (n i p : Nat) (c : Colours) (j : Nat) :
    (readColours arg n i p c).red j =
        (if i ≤ j ∧ j < i + n then (arg (p + 3 * (j - i))).toNat else c.red j) ∧
      (readColours arg n i p c).green j =
        (if i ≤ j ∧ j < i + n then (arg (p + 3 * (j - i) + 1)).toNat else c.green j) ∧
      (readColours arg n i p c).blue j =
        (if i ≤ j ∧ j < i + n then (arg (p + 3 * (j - i) + 2)).toNat else c.blue j) := by
  induction n generalizing i p c with
  | zero =>
    rw [if_neg (by omega), if_neg (by omega), if_neg (by omega)]
    exact ⟨rfl, rfl, rfl⟩
  | succ n ih =>
    rw [readColours]
    obtain ⟨hred, hgreen, hblue⟩ := ih (i + 1) (p + 3) _
    rw [hred, hgreen, hblue]
    dsimp only
    by_cases hj : j = i
    · subst hj
      have hout : ¬ (j + 1 ≤ j ∧ j < j + 1 + n) := by omega
      have hin : j ≤ j ∧ j < j + (n + 1) := by omega
      simp only [if_neg hout, if_pos hin, Function.update_self, Nat.sub_self, Nat.mul_zero,
        Nat.add_zero, and_self]
    · simp only [Function.update_of_ne hj]
      by_cases hin : i + 1 ≤ j ∧ j < i + 1 + n
      · have hin' : i ≤ j ∧ j < i + (n + 1) := by omega
        have hplace : p + 3 + 3 * (j - (i + 1)) = p + 3 * (j - i) := by omega
        simp only [if_pos hin, if_pos hin', hplace, and_self]
      · have hout : ¬ (i ≤ j ∧ j < i + (n + 1)) := by omega
        simp only [if_neg hin, if_neg hout, and_self]

/-- The parts of colour `j`. -/
def Colours.part (c : Colours) (j r : Nat) : Nat :=
  if r = 0 then c.red j else if r = 1 then c.green j else c.blue j

/-- **The inner loop**: byte `k + 3 * i + r` of the palette is part `r` of colour `j + i`. -/
theorem storeColours_spec (c : Colours) (n j k : Nat) (palette : Nat → BitVec 8) (m : Nat) :
    storeColours c n j k palette m =
      if k ≤ m ∧ m < k + 3 * n then BitVec.ofNat 8 (c.part (j + (m - k) / 3) ((m - k) % 3))
      else palette m := by
  induction n generalizing j k palette with
  | zero =>
    rw [if_neg (by omega)]
    rfl
  | succ n ih =>
    rw [storeColours, ih]
    by_cases hlater : k + 3 ≤ m ∧ m < k + 3 + 3 * n
    · have hin : k ≤ m ∧ m < k + 3 * (n + 1) := by omega
      have hmod : (m - (k + 3)) % 3 = (m - k) % 3 := by omega
      have hdiv : j + 1 + (m - (k + 3)) / 3 = j + (m - k) / 3 := by omega
      rw [if_pos hlater, if_pos hin, hmod, hdiv]
    · rw [if_neg hlater, Function.update_apply, Function.update_apply, Function.update_apply]
      by_cases hfirst : k ≤ m ∧ m < k + 3
      · have hin : k ≤ m ∧ m < k + 3 * (n + 1) := by omega
        have hdiv : (m - k) / 3 = 0 := by omega
        have hmod : (m - k) % 3 = m - k := by omega
        rw [if_pos hin, hdiv, hmod, Nat.add_zero]
        obtain rfl | rfl | rfl : m = k ∨ m = k + 1 ∨ m = k + 2 := by omega
        · rw [if_neg (by omega), if_neg (by omega), if_pos rfl, Nat.sub_self]
          rfl
        · rw [if_neg (by omega), if_pos rfl, Nat.add_sub_cancel_left]
          rfl
        · rw [if_pos rfl, Nat.add_sub_cancel_left]
          rfl
      · have hout : ¬ (k ≤ m ∧ m < k + 3 * (n + 1)) := by omega
        rw [if_neg (by omega), if_neg (by omega), if_neg (by omega), if_neg hout]

theorem storeColours_readColours (arg : Nat → BitVec 8) (c : Colours) (palette : Nat → BitVec 8)
    (m : Nat) :
    storeColours (readColours arg 16 0 0 c) 16 0 0 palette m =
      if m < 48 then arg m else palette m := by
  rw [storeColours_spec]
  by_cases hm : m < 48
  · obtain ⟨hred, hgreen, hblue⟩ := readColours_spec arg 16 0 0 c (m / 3)
    have hin : 0 ≤ m / 3 ∧ m / 3 < 0 + 16 := by omega
    have hplace : 0 + 3 * (m / 3 - 0) = m - m % 3 := by omega
    rw [if_pos hin, hplace] at hred hgreen hblue
    rw [if_pos (by omega), if_pos hm, Nat.sub_zero, Nat.zero_add, Colours.part, hred, hgreen, hblue]
    have hlt := Nat.mod_lt m (show 0 < 3 by decide)
    have hle := Nat.mod_le m 3
    split_ifs with hzero hone
    · rw [hzero, Nat.sub_zero, BitVec.ofNat_toNat, BitVec.setWidth_eq]
    · have hplace : m - m % 3 + 1 = m := by omega
      rw [hplace, BitVec.ofNat_toNat, BitVec.setWidth_eq]
    · have hplace : m - m % 3 + 2 = m := by omega
      rw [hplace, BitVec.ofNat_toNat, BitVec.setWidth_eq]
  · rw [if_neg (by omega), if_neg hm]

/-- **The loop of `con_get_cmap`** writes every byte three times. -/
theorem writeColours_eq (palette : Nat → BitVec 8) (n i : Nat) :
    writeColours palette n i = (List.range (3 * n)).map fun m => palette (i + m / 3) := by
  induction n generalizing i with
  | zero => rfl
  | succ n ih =>
    have hshift : (List.range (3 * n)).map (fun m => palette (i + 1 + m / 3)) =
        (List.range (3 * n)).map fun m => palette (i + (3 + m) / 3) := by
      refine List.map_congr_left fun m _ => congrArg palette ?_
      omega
    have hlen : 3 * (n + 1) = 3 + 3 * n := by omega
    rw [writeColours, ih, hlen, List.range_add, List.map_append, List.map_map, hshift]
    rfl

/-! ### The palettes -/

namespace Coloured

variable {N : Nat} {P : Pools N} {s : Coloured N}

@[simp] theorem setPalette_vcPalette (p : Nat) : (s.setPalette p).vcPalette = s.vcPalette := by
  rw [setPalette]
  split <;> rfl

@[simp] theorem setCmapAt_kernel (c : Colours) (v : Fin N) (i : Nat) :
    (setCmapAt c v s i).kernel = s.kernel := by
  rw [setCmapAt]
  split <;> rfl

theorem setCmapLoop_spec (arg : Nat → BitVec 8) (v : Fin N) (n p : Nat) :
    let c := readColours arg 16 0 0 ⟨fun _ => 0, fun _ => 0, fun _ => 0⟩
    ((List.range n).foldl (setCmapAt c v) s).kernel = s.kernel ∧
      ((∃ i < n, (s.kernel.vt v).vcCons i = some p) →
        ∀ m, ((List.range n).foldl (setCmapAt c v) s).vcPalette p m =
          if m < 48 then arg m else s.vcPalette p m) ∧
      (¬ (∃ i < n, (s.kernel.vt v).vcCons i = some p) →
        ((List.range n).foldl (setCmapAt c v) s).vcPalette p = s.vcPalette p) := by
  intro c
  induction n with
  | zero => exact ⟨rfl, fun h => absurd h (by simp), fun _ => rfl⟩
  | succ n ih =>
    rw [List.range_succ, List.foldl_append, List.foldl_cons, List.foldl_nil]
    obtain ⟨hkernel, hon, hoff⟩ := ih
    generalize (List.range n).foldl (setCmapAt c v) s = t at hkernel hon hoff
    rw [setCmapAt_kernel]
    by_cases hslot : (s.kernel.vt v).vcCons n = some p
    · -- the console of this slot gets the map, whether or not it had it already
      have hnew : ∀ m, (setCmapAt c v t n).vcPalette p m = if m < 48 then arg m else t.vcPalette p m := by
        intro m
        rw [setCmapAt, hkernel, hslot]
        dsimp only
        rw [Function.update_self, storeColours_readColours]
      refine ⟨hkernel, fun _ m => ?_, fun hnot => absurd ⟨n, Nat.lt_succ_self n, hslot⟩ hnot⟩
      rw [hnew]
      by_cases hm : m < 48
      · rw [if_pos hm, if_pos hm]
      · rw [if_neg hm, if_neg hm]
        by_cases hbefore : ∃ i < n, (s.kernel.vt v).vcCons i = some p
        · rw [hon hbefore, if_neg hm]
        · rw [hoff hbefore]
    · have hsame : (setCmapAt c v t n).vcPalette p = t.vcPalette p := by
        rw [setCmapAt, hkernel]
        cases hother : (s.kernel.vt v).vcCons n with
        | none => rfl
        | some q =>
          dsimp only
          rw [Function.update_of_ne]
          rintro rfl
          exact hslot hother
      have hiff : (∃ i < n + 1, (s.kernel.vt v).vcCons i = some p) ↔
          ∃ i < n, (s.kernel.vt v).vcCons i = some p := by
        constructor
        · rintro ⟨i, hi, hp⟩
          rcases Nat.lt_succ_iff_lt_or_eq.mp hi with hlt | rfl
          · exact ⟨i, hlt, hp⟩
          · exact absurd hp hslot
        · rintro ⟨i, hi, hp⟩
          exact ⟨i, Nat.lt_succ_of_lt hi, hp⟩
      rw [hsame, hiff]
      exact ⟨hkernel, hon, hoff⟩

/-- **What `con_set_cmap` does**: the consoles of the VT have the map and the others what they
had. -/
theorem conSetCmap_palette (vc : Nat) (arg : Nat → BitVec 8) (p : Nat) :
    (s.OnVt P (s.kernel.con vc).displayFg p →
        ∀ m, (s.conSetCmap P vc arg).vcPalette p m = if m < 48 then arg m else s.vcPalette p m) ∧
      (¬ s.OnVt P (s.kernel.con vc).displayFg p →
        (s.conSetCmap P vc arg).vcPalette p = s.vcPalette p) := by
  obtain ⟨-, hon, hoff⟩ := setCmapLoop_spec (s := s) arg (s.kernel.con vc).displayFg
    (P.vcCount (s.kernel.con vc).displayFg) p
  rw [conSetCmap, setPalette_vcPalette]
  exact ⟨hon, hoff⟩

theorem conGetCmap_eq_iff {palette arg : Nat → BitVec 8} (hmap : ∀ m < 48, palette m = arg m) :
    writeColours palette 16 0 = (List.range 48).map arg ↔ ∀ m < 48, arg m = arg 0 := by
  have hwritten : writeColours palette 16 0 = (List.range 48).map fun m => arg (m / 3) := by
    rw [writeColours_eq]
    refine List.map_congr_left fun m hm => ?_
    rw [List.mem_range] at hm
    rw [Nat.zero_add]
    exact hmap _ (by omega)
  rw [hwritten, List.map_inj_left]
  constructor
  · intro h m
    -- a byte is the one at a third of its place, down to the first
    induction m using Nat.strongRecOn with
    | ind m ih =>
      intro hm
      by_cases hzero : m = 0
      · rw [hzero]
      · rw [← h m (List.mem_range.mpr hm)]
        exact ih (m / 3) (by omega) (by omega)
  · intro h m hm
    rw [List.mem_range] at hm
    rw [h (m / 3) (by omega), h m hm]

theorem onVt_self (h : Consistent P s.kernel) {vc : Nat} (hvc : vc < s.kernel.next)
    (hslot : s.kernel.InSlot P (s.kernel.con vc).displayFg vc) :
    s.OnVt P (s.kernel.con vc).displayFg vc := by
  obtain ⟨hge, hlt⟩ := h.num vc hvc
  exact ⟨_, by omega, hslot⟩

end Coloured

/-- **The colour map makes the round trip exactly if its bytes are all the same**, for every map and
every set of consoles in the pools. -/
theorem cmap_round_trip_iff {N : Nat} (P : Pools N) (s : Coloured N) (h : Consistent P s.kernel)
    (vc : Nat) (hvc : s.kernel.live vc)
    (hslot : s.kernel.InSlot P (s.kernel.con vc).displayFg vc) (arg : Nat → BitVec 8) :
    s.CmapRoundTrip P vc arg ↔ ∀ m < 48, arg m = arg 0 := by
  have hstored : ∀ p, s.OnVt P (s.kernel.con vc).displayFg p →
      ∀ m < 48, (s.conSetCmap P vc arg).vcPalette p m = arg m := by
    intro p hp m hm
    rw [(Coloured.conSetCmap_palette vc arg p).1 hp, if_pos hm]
  constructor
  · rintro ⟨-, -, hget⟩
    have hself := Coloured.onVt_self h (h.live vc hvc) hslot
    exact (Coloured.conGetCmap_eq_iff (hstored vc hself)).mp (hget vc hself)
  · intro hsame
    refine ⟨hstored, fun p => (Coloured.conSetCmap_palette vc arg p).2, fun p hp => ?_⟩
    exact (Coloured.conGetCmap_eq_iff (hstored p hp)).mpr hsame

/-- The machine with two consoles, all palettes black. -/
def blackConsoles : Coloured 1 := ⟨Kernel.activated, fun _ _ => 0, []⟩

/-- A grey map. -/
theorem cmap_round_trip_grey :
    blackConsoles.CmapRoundTrip onePool 0 (fun _ => 0x80) ↔
      ∀ m < 48, (fun _ : Nat => (0x80 : BitVec 8)) m = (fun _ : Nat => (0x80 : BitVec 8)) 0 := by
  have hslot : (Kernel.activated.vt (Kernel.activated.con 0).displayFg).vcCons
      ((Kernel.activated.con 0).vcNum -
        onePool.firstVc (Kernel.activated.con 0).displayFg) = some 0 := by
    decide +kernel
  exact cmap_round_trip_iff onePool blackConsoles activated_consistent 0 (by decide +kernel) hslot
    fun _ => 0x80

/-- **The bytes that come back.**  The map counts from 0 to 47; the console has it, and what it
returns is 0, 0, 0, 1, 1, 1 and so on. -/
theorem cmap_bytes_repeated :
    let arg : Nat → BitVec 8 := fun m => BitVec.ofNat 8 m
    let s := blackConsoles.conSetCmap onePool 0 arg
    (∀ m < 48, s.vcPalette 0 m = arg m) ∧
      s.conGetCmap 0 = (List.range 48).map (fun m => BitVec.ofNat 8 (m / 3)) ∧
      ¬ blackConsoles.CmapRoundTrip onePool 0 arg := by
  have hrun :
      let arg : Nat → BitVec 8 := fun m => BitVec.ofNat 8 m
      let s := blackConsoles.conSetCmap onePool 0 arg
      (∀ m < 48, s.vcPalette 0 m = arg m) ∧
        s.conGetCmap 0 = (List.range 48).map (fun m => BitVec.ofNat 8 (m / 3)) ∧
        s.conGetCmap 0 ≠ (List.range 48).map arg := by
    decide +kernel
  refine ⟨hrun.1, hrun.2.1, fun htrip => hrun.2.2 (htrip.2.2 0 ⟨0, by decide, by decide +kernel⟩)⟩

end LinuxConsole.Switch
