import LinuxConsole.Xinput.Device
import Mathlib.Data.List.Basic
import Mathlib.Data.List.Pairwise
import Mathlib.Order.Nat

/-!
# What a device reports, as tables

`tunInitDeviceRec` reads the capability bitmaps of a device and makes a table of its absolute
valuators, one of its relative valuators and one of its buttons.  A table goes from the lowest
code that was found to the highest one, and has entries for the codes between them, too.

The scans stop before the highest code that there is, the scan for relative valuators goes on
with the `last_valuator` of the scan before it, and what `tunAllocate` and the declarations
leave unset is used where nothing was found.  `Unset` is what is found there.

Here are the scans and the parts of the record: **`foldl_found_lowest`**,
**`foldl_found_highest`** and **`foldl_found_raised`** say what a scan leaves in its
variables, and **`initValuators_parts`** what is made of it.
-/

namespace LinuxConsole.Xinput.Tables

/-! ### Records -/

/-- `TunDeviceInfo`: which kinds of events there are, and the bit of each code.  The bits are
those of the memory around the bitmap if the code is outside of it. -/
structure Capabilities where
  hasAbs : Bool
  hasRel : Bool
  hasKeys : Bool
  abs : Int → Bool
  rel : Int → Bool
  key : Int → Bool

/-- `TunAbsValuatorInfo`, as far as it is read. -/
structure AbsInfo where
  value : Int
  min : Int
  max : Int

structure ValuatorRec where
  lid : Int
  xiv : Int
  value : Int
  relValue : Int
  min : Int
  max : Int
  isAbsolute : Bool
  upsidedown : Bool
  mouseWheelHack : Bool
  absIsRelspeed : Bool

/-- What `tunInitDeviceRec` and `tunReadInput` use of a `TunDeviceRec`.  A table that is not
there is empty. -/
structure TunRec where
  firstAvaluator : Int
  nofAvaluators : Int
  avaluators : List ValuatorRec
  firstRvaluator : Int
  nofRvaluators : Int
  rvaluators : List ValuatorRec
  nofXvaluators : Int
  xvalToLval : List (Option Valuator)
  firstLbutton : Int
  nofLbuttons : Int
  lbutToXbut : List Int

/-- **What is found in memory that nobody has set**: in `last_valuator` and `aval_info`, in the
new entries of the tables, and in `nof_xvaluators`. -/
structure Unset where
  lastValuator : Int
  avalInfo : AbsInfo
  relValue : Int
  xval : Option Valuator
  nofXvaluators : Int

/-- Unset memory that happens to be zero. -/
def zeroed : Unset where
  lastValuator := 0
  avalInfo := ⟨0, 0, 0⟩
  relValue := 0
  xval := none
  nofXvaluators := 0

variable (H : Headers) (caps : Capabilities) (query : Nat → Option AbsInfo) (unset : Unset)

/-- `tunAllocate`. -/
def tunAllocate : TunRec where
  firstAvaluator := 0
  nofAvaluators := 0
  avaluators := []
  firstRvaluator := 0
  nofRvaluators := 0
  rvaluators := []
  nofXvaluators := unset.nofXvaluators
  xvalToLval := []
  firstLbutton := 0
  nofLbuttons := 0
  lbutToXbut := []

/-! ### The scans -/

/-- `first_valuator`, `last_valuator` and `nof_valuators`. -/
structure Scan where
  first : Int
  last : Int
  nof : Nat

/-- One code that was found; `raise` is what becomes of the last one. -/
def Scan.found (raise : Int → Nat → Int) (s : Scan) (i : Nat) : Scan where
  first := if s.first = -1 then i else s.first
  last := raise s.last i
  nof := s.nof + 1

/-- `for (i = 0; i < max; i++)` with a test of each code. -/
def scan (test : Nat → Bool) (raise : Int → Nat → Int) (max : Nat) (s : Scan) : Scan :=
  (List.range max).foldl (fun s i => if test i then s.found raise i else s) s

/-- `last_valuator = i`. -/
def takeLast (_ : Int) (i : Nat) : Int := i

/-- `if (i > last_valuator) last_valuator = i`. -/
def keepHighest (last : Int) (i : Nat) : Int := if i > last then i else last

def scanAbs : Scan :=
  scan (fun i => caps.abs i) takeLast H.absMax ⟨-1, unset.lastValuator, 0⟩

/-- The scan for relative valuators goes on with the last code and the number of the one
before it. -/
def scanRel (last : Int) (nof : Nat) : Scan :=
  scan (fun i => caps.rel i) keepHighest H.relMax ⟨-1, last, nof⟩

/-- The scan for buttons: keys are counted, too, but only for the log. -/
def scanButtons : Scan :=
  scan (fun i => caps.key i && decide (H.btnMisc ≤ i)) takeLast H.keyMax ⟨-1, -1, 0⟩

/-! ### The tables -/

/-- The codes from `first` to `last`. -/
def codesFromTo (first last : Int) : List Int :=
  (List.range (last - first + 1).toNat).map fun k : Nat => first + (k : Int)

/-- `tunQueryAbsValuator`, which leaves `aval_info` as it is if the device does not answer. -/
def tunQueryAbsValuator (i : Int) (avalInfo : AbsInfo) : AbsInfo :=
  (query i.toNat).getD avalInfo

def absEntry (i : Int) (avalInfo : AbsInfo) : ValuatorRec where
  lid := if caps.abs i then short i else -1
  xiv := -1
  value := avalInfo.value
  relValue := avalInfo.value
  min := avalInfo.min
  max := avalInfo.max
  isAbsolute := true
  upsidedown := false
  mouseWheelHack := false
  absIsRelspeed := false

/-- The loop that fills the table of absolute valuators; a hole gets the range that was
queried last. -/
def absEntries : List Int → AbsInfo → List ValuatorRec
  | [], _ => []
  | i :: is, avalInfo =>
    let avalInfo := if caps.abs i then tunQueryAbsValuator query i avalInfo else avalInfo
    absEntry caps i avalInfo :: absEntries is avalInfo

def relEntry (i : Int) : ValuatorRec where
  lid := if caps.rel i then short i else -1
  xiv := -1
  value := 0
  relValue := unset.relValue
  min := -1
  max := -1
  isAbsolute := false
  upsidedown := false
  mouseWheelHack := false
  absIsRelspeed := false

/-- `tunDeviceRecForceXValuators`. -/
def TunRec.forceXValuators (tun : TunRec) (n : Nat) : TunRec :=
  if n ≥ tun.nofXvaluators then
    { tun with
      xvalToLval := (List.range n).map fun i : Nat =>
        if (i : Int) ≥ tun.nofXvaluators then none else (tun.xvalToLval[i]?).getD unset.xval
      nofXvaluators := n }
  else tun

def initAbs (tun : TunRec) : TunRec × Scan :=
  if caps.hasAbs then
    let s := scanAbs H caps unset
    ({ tun with
        firstAvaluator := s.first
        nofAvaluators := s.last - s.first + 1
        avaluators := absEntries caps query (codesFromTo s.first s.last) unset.avalInfo }, s)
  else (tun, ⟨-1, unset.lastValuator, 0⟩)

def initRel (tun : TunRec) (last : Int) (nof : Nat) : TunRec × Scan :=
  if caps.hasRel then
    let s := scanRel H caps last nof
    ({ tun with
        firstRvaluator := s.first
        nofRvaluators := s.last - s.first + 1
        rvaluators := (codesFromTo s.first s.last).map (relEntry caps unset) }, s)
  else (tun, ⟨-1, last, nof⟩)

def initValuators (tun : TunRec) : TunRec :=
  if caps.hasAbs || caps.hasRel then
    let abs := initAbs H caps query unset tun
    let rel := initRel H caps unset abs.1 abs.2.last abs.2.nof
    rel.1.forceXValuators unset rel.2.nof
  else tun

def initButtons (tun : TunRec) : TunRec :=
  if caps.hasKeys then
    let s := scanButtons H caps
    if s.nof ≠ 0 then
      { tun with
        nofLbuttons := s.last - s.first + 1
        firstLbutton := s.first
        lbutToXbut := List.replicate (s.last - s.first + 1).toNat buttonUnassigned }
    else tun
  else tun

def tunInitDeviceRec (tun : TunRec) : TunRec :=
  initButtons H caps (initValuators H caps query unset tun)

/-- The record of a device, from what `tunAllocate` leaves. -/
def record (H : Headers) (caps : Capabilities) (query : Nat → Option AbsInfo) (unset : Unset) :
    TunRec :=
  tunInitDeviceRec H caps query unset (tunAllocate unset)

/-! ### What a scan finds -/

section Scan

variable {raise : Int → Nat → Int} {l : List Nat}

theorem head_le (hsorted : l.Pairwise (· < ·)) (hne : l ≠ []) : ∀ c ∈ l, l.head hne ≤ c := by
  cases l with
  | nil => exact absurd rfl hne
  | cons i l =>
    intro c hc
    rcases List.mem_cons.mp hc with rfl | hc
    · exact Nat.le_refl c
    · exact ((List.pairwise_cons.mp hsorted).1 c hc).le

theorem le_getLast (hsorted : l.Pairwise (· < ·)) (hne : l ≠ []) :
    ∀ c ∈ l, c ≤ l.getLast hne := by
  intro c hc
  have hsplit := List.dropLast_append_getLast hne
  rw [← hsplit] at hc hsorted
  rcases List.mem_append.mp hc with hc | hc
  · exact ((List.pairwise_append.mp hsorted).2.2 c hc _ (List.mem_singleton_self _)).le
  · exact (List.mem_singleton.mp hc).le

theorem scan_eq_foldl (test : Nat → Bool) (raise : Int → Nat → Int) (max : Nat) (s : Scan) :
    scan test raise max s = ((List.range max).filter test).foldl (Scan.found raise) s := by
  rw [scan, List.foldl_filter]

theorem foldl_found_nof (s : Scan) : (l.foldl (Scan.found raise) s).nof = s.nof + l.length := by
  induction l generalizing s with
  | nil => rfl
  | cons i l ih =>
    rw [List.foldl_cons, ih, List.length_cons]
    change s.nof + 1 + l.length = _
    omega

theorem foldl_found_first_of_ne {s : Scan} (h : s.first ≠ -1) :
    (l.foldl (Scan.found raise) s).first = s.first := by
  induction l generalizing s with
  | nil => rfl
  | cons i l ih =>
    have hfound : (s.found raise i).first = s.first := if_neg h
    rw [List.foldl_cons, ih (by rwa [hfound]), hfound]

theorem foldl_found_first {s : Scan} (h : s.first = -1) (i : Nat) :
    ((i :: l).foldl (Scan.found raise) s).first = i := by
  have hfound : (s.found raise i).first = i := if_pos h
  rw [List.foldl_cons, foldl_found_first_of_ne (by rw [hfound]; omega), hfound]

/-- **The ends of what was found**: the first code is the lowest one. -/
theorem foldl_found_lowest {s : Scan} (h : s.first = -1) (hsorted : l.Pairwise (· < ·))
    (hne : l ≠ []) :
    ∃ lo ∈ l, (∀ c ∈ l, lo ≤ c) ∧ (l.foldl (Scan.found raise) s).first = lo := by
  refine ⟨l.head hne, List.head_mem hne, head_le hsorted hne, ?_⟩
  cases l with
  | nil => exact absurd rfl hne
  | cons i l => exact foldl_found_first h i

/-- The last code is the highest one, if the scan replaces it each time. -/
theorem foldl_found_highest {s : Scan} (hsorted : l.Pairwise (· < ·)) (hne : l ≠ []) :
    ∃ hi ∈ l, (∀ c ∈ l, c ≤ hi) ∧ (l.foldl (Scan.found takeLast) s).last = hi := by
  refine ⟨l.getLast hne, List.getLast_mem hne, le_getLast hsorted hne, ?_⟩
  conv_lhs => rw [← List.dropLast_append_getLast hne, List.foldl_append]
  rfl

/-- If it is only ever raised, it is the highest code or what it was before. -/
theorem foldl_found_raised (s : Scan) :
    s.last ≤ (l.foldl (Scan.found keepHighest) s).last ∧
      (∀ c ∈ l, (c : Int) ≤ (l.foldl (Scan.found keepHighest) s).last) ∧
      ((l.foldl (Scan.found keepHighest) s).last = s.last ∨
        ∃ c ∈ l, (l.foldl (Scan.found keepHighest) s).last = c) := by
  induction l generalizing s with
  | nil => exact ⟨Int.le_refl _, by simp, Or.inl rfl⟩
  | cons i l ih =>
    have hraise : s.last ≤ keepHighest s.last i ∧ (i : Int) ≤ keepHighest s.last i ∧
        (keepHighest s.last i = s.last ∨ keepHighest s.last i = i) := by
      rw [keepHighest]
      split <;> omega
    obtain ⟨hlow, hall, htop⟩ := ih (s.found keepHighest i)
    change keepHighest s.last i ≤ _ at hlow
    change _ = keepHighest s.last i ∨ _ at htop
    rw [List.foldl_cons]
    refine ⟨Int.le_trans hraise.1 hlow, fun c hc => ?_, ?_⟩
    · rcases List.mem_cons.mp hc with rfl | hc
      · exact Int.le_trans hraise.2.1 hlow
      · exact hall c hc
    · rcases htop with htop | ⟨c, hc, htop⟩
      · rcases hraise.2.2 with hsame | hnew
        · exact Or.inl (htop.trans hsame)
        · exact Or.inr ⟨i, List.mem_cons_self, htop.trans hnew⟩
      · exact Or.inr ⟨c, List.mem_cons_of_mem i hc, htop⟩

end Scan

/-! ### Codes -/

/-- The codes up to `max` that the device has, from the lowest on. -/
def codes (has : Bool) (test : Nat → Bool) (max : Nat) : List Nat :=
  (List.range (max + 1)).filter fun i => has && test i

def Capabilities.absCodes : List Nat := codes caps.hasAbs (fun i => caps.abs i) H.absMax

def Capabilities.relCodes : List Nat := codes caps.hasRel (fun i => caps.rel i) H.relMax

def Capabilities.buttonCodes : List Nat :=
  codes caps.hasKeys (fun i => caps.key i && decide (H.btnMisc ≤ i)) H.keyMax

section Codes

variable {test : Nat → Bool} {max : Nat}

theorem mem_codes {has : Bool} {c : Nat} :
    c ∈ codes has test max ↔ c ≤ max ∧ has = true ∧ test c = true := by
  simp only [codes, List.mem_filter, List.mem_range, Nat.lt_succ_iff, Bool.and_eq_true]

theorem codes_sorted (has : Bool) : (codes has test max).Pairwise (· < ·) :=
  List.Pairwise.filter _ List.pairwise_lt_range

theorem found_sorted : ((List.range max).filter test).Pairwise (· < ·) :=
  List.Pairwise.filter _ List.pairwise_lt_range

/-- The scan stops before the highest code. -/
theorem codes_of_notMem (h : max ∉ codes true test max) :
    codes true test max = (List.range max).filter test := by
  have htest : test max = false := by
    by_contra htrue
    exact h (mem_codes.mpr ⟨Nat.le_refl max, rfl, by simpa using htrue⟩)
  simp [codes, List.range_succ, htest]

theorem lt_of_mem_found {c : Nat} (h : c ∈ (List.range max).filter test) : c < max :=
  List.mem_range.mp (List.mem_filter.mp h).1

/-- The ends of a list of codes. -/
theorem exists_ends {cs : List Nat} (hsorted : cs.Pairwise (· < ·)) (hne : cs ≠ []) :
    ∃ lo ∈ cs, ∃ hi ∈ cs, ∀ c ∈ cs, lo ≤ c ∧ c ≤ hi :=
  ⟨cs.head hne, List.head_mem hne, cs.getLast hne, List.getLast_mem hne,
    fun c hc => ⟨head_le hsorted hne c hc, le_getLast hsorted hne c hc⟩⟩

end Codes

/-! ### The parts of the record -/

variable {H caps query unset}

def TunRec.absPart (tun : TunRec) : Int × Int × List ValuatorRec :=
  (tun.firstAvaluator, tun.nofAvaluators, tun.avaluators)

def TunRec.relPart (tun : TunRec) : Int × Int × List ValuatorRec :=
  (tun.firstRvaluator, tun.nofRvaluators, tun.rvaluators)

def TunRec.xPart (tun : TunRec) : Int × Nat := (tun.nofXvaluators, tun.xvalToLval.length)

def TunRec.buttonPart (tun : TunRec) : Int × Int × List Int :=
  (tun.firstLbutton, tun.nofLbuttons, tun.lbutToXbut)

/-- What the variables are after the scan for absolute valuators, and after that for relative
ones. -/
def absScan (H : Headers) (caps : Capabilities) (unset : Unset) : Scan :=
  if caps.hasAbs then scanAbs H caps unset else ⟨-1, unset.lastValuator, 0⟩

def relScan (H : Headers) (caps : Capabilities) (unset : Unset) : Scan :=
  scanRel H caps (absScan H caps unset).last (absScan H caps unset).nof

/-- `nof_valuators` at the end. -/
def counted (H : Headers) (caps : Capabilities) (unset : Unset) : Nat :=
  if caps.hasRel then (relScan H caps unset).nof else (absScan H caps unset).nof

theorem initAbs_parts (tun : TunRec) :
    (initAbs H caps query unset tun).2 = absScan H caps unset ∧
      (initAbs H caps query unset tun).1.absPart =
        (if caps.hasAbs then
          ((absScan H caps unset).first,
            (absScan H caps unset).last - (absScan H caps unset).first + 1,
            absEntries caps query (codesFromTo (absScan H caps unset).first
              (absScan H caps unset).last) unset.avalInfo)
        else tun.absPart) ∧
      (initAbs H caps query unset tun).1.relPart = tun.relPart ∧
      (initAbs H caps query unset tun).1.xPart = tun.xPart ∧
      (initAbs H caps query unset tun).1.buttonPart = tun.buttonPart := by
  rw [initAbs, absScan]
  split
  · exact ⟨rfl, rfl, rfl, rfl, rfl⟩
  · exact ⟨rfl, rfl, rfl, rfl, rfl⟩

theorem initRel_parts (tun : TunRec) (last : Int) (nof : Nat) :
    (initRel H caps unset tun last nof).2.nof =
        (if caps.hasRel then (scanRel H caps last nof).nof else nof) ∧
      (initRel H caps unset tun last nof).1.relPart =
        (if caps.hasRel then
          ((scanRel H caps last nof).first,
            (scanRel H caps last nof).last - (scanRel H caps last nof).first + 1,
            (codesFromTo (scanRel H caps last nof).first (scanRel H caps last nof).last).map
              (relEntry caps unset))
        else tun.relPart) ∧
      (initRel H caps unset tun last nof).1.absPart = tun.absPart ∧
      (initRel H caps unset tun last nof).1.xPart = tun.xPart ∧
      (initRel H caps unset tun last nof).1.buttonPart = tun.buttonPart := by
  rw [initRel]
  split
  · exact ⟨rfl, rfl, rfl, rfl, rfl⟩
  · exact ⟨rfl, rfl, rfl, rfl, rfl⟩

theorem forceXValuators_parts (tun : TunRec) (n : Nat) :
    (tun.forceXValuators unset n).xPart =
        (if n ≥ tun.xPart.1 then ((n : Int), n) else tun.xPart) ∧
      (tun.forceXValuators unset n).absPart = tun.absPart ∧
      (tun.forceXValuators unset n).relPart = tun.relPart ∧
      (tun.forceXValuators unset n).buttonPart = tun.buttonPart := by
  rw [TunRec.forceXValuators]
  change _ = (if n ≥ tun.nofXvaluators then ((n : Int), n) else tun.xPart) ∧ _
  split
  · exact ⟨by simp [TunRec.xPart], rfl, rfl, rfl⟩
  · exact ⟨rfl, rfl, rfl, rfl⟩

theorem initButtons_parts (tun : TunRec) :
    (initButtons H caps tun).buttonPart =
        (if caps.hasKeys ∧ (scanButtons H caps).nof ≠ 0 then
          ((scanButtons H caps).first, (scanButtons H caps).last - (scanButtons H caps).first + 1,
            List.replicate ((scanButtons H caps).last - (scanButtons H caps).first + 1).toNat
              buttonUnassigned)
        else tun.buttonPart) ∧
      (initButtons H caps tun).absPart = tun.absPart ∧
      (initButtons H caps tun).relPart = tun.relPart ∧
      (initButtons H caps tun).xPart = tun.xPart := by
  rw [initButtons]
  by_cases hkeys : caps.hasKeys = true
  · by_cases hnof : (scanButtons H caps).nof ≠ 0
    · have hboth : caps.hasKeys = true ∧ (scanButtons H caps).nof ≠ 0 := ⟨hkeys, hnof⟩
      rw [if_pos hkeys, if_pos hboth]
      dsimp only
      rw [if_pos hnof]
      exact ⟨rfl, rfl, rfl, rfl⟩
    · have hboth : ¬(caps.hasKeys = true ∧ (scanButtons H caps).nof ≠ 0) := fun h => hnof h.2
      rw [if_pos hkeys, if_neg hboth]
      dsimp only
      rw [if_neg hnof]
      exact ⟨rfl, rfl, rfl, rfl⟩
  · have hboth : ¬(caps.hasKeys = true ∧ (scanButtons H caps).nof ≠ 0) := fun h => hkeys h.1
    rw [if_neg hkeys, if_neg hboth]
    exact ⟨rfl, rfl, rfl, rfl⟩

theorem initValuators_of_kind (h : (caps.hasAbs || caps.hasRel) = true) (tun : TunRec) :
    initValuators H caps query unset tun =
      (initRel H caps unset (initAbs H caps query unset tun).1 (absScan H caps unset).last
        (absScan H caps unset).nof).1.forceXValuators unset
        (initRel H caps unset (initAbs H caps query unset tun).1 (absScan H caps unset).last
          (absScan H caps unset).nof).2.nof := by
  rw [initValuators, if_pos h]
  dsimp only
  rw [(initAbs_parts tun).1]

/-- **What `initValuators` makes of a new record.** -/
theorem initValuators_parts :
    (initValuators H caps query unset (tunAllocate unset)).absPart =
        (if caps.hasAbs then
          ((absScan H caps unset).first,
            (absScan H caps unset).last - (absScan H caps unset).first + 1,
            absEntries caps query (codesFromTo (absScan H caps unset).first
              (absScan H caps unset).last) unset.avalInfo)
        else (0, 0, [])) ∧
      (initValuators H caps query unset (tunAllocate unset)).relPart =
        (if caps.hasRel then
          ((relScan H caps unset).first,
            (relScan H caps unset).last - (relScan H caps unset).first + 1,
            (codesFromTo (relScan H caps unset).first (relScan H caps unset).last).map
              (relEntry caps unset))
        else (0, 0, [])) ∧
      (initValuators H caps query unset (tunAllocate unset)).xPart =
        (if caps.hasAbs || caps.hasRel then
          if counted H caps unset ≥ unset.nofXvaluators then
            ((counted H caps unset : Int), counted H caps unset)
          else (unset.nofXvaluators, 0)
        else (unset.nofXvaluators, 0)) ∧
      (initValuators H caps query unset (tunAllocate unset)).buttonPart = (0, 0, []) := by
  by_cases hkind : (caps.hasAbs || caps.hasRel) = true
  · obtain ⟨-, habs₁, hrel₁, hx₁, hbuttons₁⟩ :=
      @initAbs_parts H caps query unset (tunAllocate unset)
    obtain ⟨hnof, hrel₂, habs₂, hx₂, hbuttons₂⟩ :=
      @initRel_parts H caps unset (initAbs H caps query unset (tunAllocate unset)).1
        (absScan H caps unset).last (absScan H caps unset).nof
    rw [initValuators_of_kind hkind, if_pos hkind]
    obtain ⟨hx₃, habs₃, hrel₃, hbuttons₃⟩ := @forceXValuators_parts unset
      (initRel H caps unset (initAbs H caps query unset (tunAllocate unset)).1
        (absScan H caps unset).last (absScan H caps unset).nof).1
      (initRel H caps unset (initAbs H caps query unset (tunAllocate unset)).1
        (absScan H caps unset).last (absScan H caps unset).nof).2.nof
    refine ⟨habs₃.trans (habs₂.trans habs₁), hrel₃.trans ?_, hx₃.trans ?_,
      hbuttons₃.trans (hbuttons₂.trans hbuttons₁)⟩
    · rw [hrel₂, hrel₁]
      rfl
    · rw [hx₂, hx₁, hnof]
      rfl
  · rw [initValuators, if_neg hkind, if_neg hkind]
    obtain ⟨habs, hrel⟩ : caps.hasAbs = false ∧ caps.hasRel = false := by simpa using hkind
    rw [habs, hrel]
    exact ⟨rfl, rfl, rfl, rfl⟩

theorem record_absPart : (record H caps query unset).absPart =
    (initValuators H caps query unset (tunAllocate unset)).absPart := (initButtons_parts _).2.1

theorem record_relPart : (record H caps query unset).relPart =
    (initValuators H caps query unset (tunAllocate unset)).relPart := (initButtons_parts _).2.2.1

theorem record_xPart : (record H caps query unset).xPart =
    (initValuators H caps query unset (tunAllocate unset)).xPart := (initButtons_parts _).2.2.2

end LinuxConsole.Xinput.Tables
