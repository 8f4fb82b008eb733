import LinuxConsole.Jscal.Calibrator

/-!
# The fields of an argument

What the loops of `jscal` read from an argument, in terms of its fields: the parts between
its commas.  A pointer into the argument is **`joined`** of the fields still to be read.
-/

namespace LinuxConsole.Jscal

open Lib

variable {S : System}

theorem comma_separates : Separates comma where
  digit := by decide
  blank := by decide
  not_minus := by decide
  not_plus := by decide

/-- The parts of a text between its commas. -/
def fields (p : Text) : List Text := p.splitOn comma

theorem joined_cons (f : Text) (fs : List Text) :
    joined comma (f :: fs) = some ([comma].intercalate (f :: fs)) := rfl

theorem joined_fields (p : Text) : joined comma (fields p) = some p := joined_splitOn comma p

theorem comma_notMem_fields (p : Text) : ∀ f ∈ fields p, comma ∉ f := fun _ => notMem_field

theorem scan_join (old : Int) (f : Text) (fs : List Text) :
    S.scan old ([comma].intercalate (f :: fs)) = S.scan old f := by
  rw [System.scan, scanInt_join comma_separates, System.scan]

theorem next_join {f : Text} {fs : List Text} (h : ∀ g ∈ f :: fs, comma ∉ g) :
    next ([comma].intercalate (f :: fs)) = joined comma fs :=
  nextField_join (h f List.mem_cons_self) fs

/-! ### Codes -/

/-- What a variable holds after each of the fields. -/
def System.carried (S : System) : Int → List Text → List Int
  | _, [] => []
  | old, f :: fs => S.scan old f :: S.carried (S.scan old f) fs

/-- **The loop over the codes.**  It gets through if there are enough fields and each value
passes the check, and then holds what the variable held after each of them; otherwise it
stops with an error. -/
theorem readMap_cases (missing : Nat → Error) {check : Nat → Int → Option Error}
    {Valid : Int → Prop} (hcheck : ∀ i v, check i v = none ↔ Valid v) (n : Nat) :
    ∀ (i : Nat) (old : Int) (fs : List Text), (∀ f ∈ fs, comma ∉ f) →
    ((n ≤ fs.length ∧ ∀ v ∈ S.carried old (fs.take n), Valid v) ∧
        S.readMap missing check n i old (joined comma fs) =
          .ok (S.carried old (fs.take n), joined comma (fs.drop n))) ∨
      (¬(n ≤ fs.length ∧ ∀ v ∈ S.carried old (fs.take n), Valid v) ∧
        ∃ e, S.readMap missing check n i old (joined comma fs) = .error (.exit e)) := by
  induction n with
  | zero =>
    intro i old fs hfs
    left
    exact ⟨⟨Nat.zero_le _, by simp [System.carried]⟩, rfl⟩
  | succ n ih =>
    intro i old fs hfs
    cases fs with
    | nil =>
      right
      exact ⟨fun h => absurd h.1 (Nat.not_succ_le_zero n), missing i, rfl⟩
    | cons f fs =>
      have hrest : ∀ g ∈ fs, comma ∉ g := fun g hg => hfs g (List.mem_cons_of_mem _ hg)
      rw [joined, System.readMap, scan_join, next_join hfs]
      cases hc : check i (S.scan old f) with
      | some e =>
        right
        refine ⟨fun h => ?_, e, rfl⟩
        rw [(hcheck i _).mpr (h.2 _ List.mem_cons_self)] at hc
        contradiction
      | none =>
        have hvalid : Valid (S.scan old f) := (hcheck i _).mp hc
        have hall : (∀ v ∈ S.carried old ((f :: fs).take (n + 1)), Valid v) ↔
            ∀ v ∈ S.carried (S.scan old f) (fs.take n), Valid v := by
          simp [System.carried, hvalid]
        rw [hall, List.length_cons, Nat.add_le_add_iff_right]
        rcases ih (i + 1) (S.scan old f) fs hrest with ⟨h, hr⟩ | ⟨h, e, hr⟩
        · left
          exact ⟨h, by rw [hr]; rfl⟩
        · right
          exact ⟨h, e, by rw [hr]; rfl⟩

theorem scan_decimal {f : Text} {n : Int} (h : decimal f = some n) (hn : Fits 32 n) (old : Int) :
    S.scan old f = n := by
  rw [System.scan, scanInt_of_decimal h, Option.map_some, Option.getD_some, S.convert_eq n hn]

theorem carried_decimal {ns : List Int} (hns : ∀ n ∈ ns, Fits 32 n) :
    ∀ {fs : List Text} (old : Int), fs.map decimal = ns.map some → S.carried old fs = ns := by
  induction ns with
  | nil =>
    intro fs old h
    rw [List.map_eq_nil_iff.mp h]
    rfl
  | cons n ns ih =>
    intro fs old h
    obtain ⟨f, gs, rfl, hf, hgs⟩ := List.map_eq_cons_iff.mp h
    rw [System.carried, scan_decimal hf (hns n List.mem_cons_self),
      ih (fun m hm => hns m (List.mem_cons_of_mem _ hm)) n hgs]

theorem length_carried (fs : List Text) : ∀ old, (S.carried old fs).length = fs.length := by
  induction fs with
  | nil => intro old; rfl
  | cons f fs ih => intro old; rw [System.carried, List.length_cons, ih, List.length_cons]

/-- **The second half of an argument of `-u`** passes the checks. -/
def System.PassesButtons (S : System) (buttons : Int) : List Text → Prop
  | [] => True
  | f :: fs =>
    (S.scan 0 f = buttons ∨ S.scan 0 f = 0) ∧ (S.scan 0 f).toNat = fs.length ∧
      ∀ v ∈ S.carried 0 fs, (S.btnMisc : Int) ≤ v ∧ v ≤ S.keyMax

/-- **The fields of an argument of `-u`** pass the checks: the first count is that of the
axes, as many codes follow and none is too large, and the rest is nothing or the count of the
buttons or 0 and as many codes between `BTN_MISC` and `KEY_MAX`. -/
def System.PassesMappings (S : System) (axes buttons : Int) : List Text → Prop
  | [] => False
  | f :: fs =>
    S.scan 0 f = axes ∧ axes.toNat ≤ fs.length ∧
      (∀ v ∈ S.carried 0 (fs.take axes.toNat), v ≤ S.absMax + 1) ∧
      S.PassesButtons buttons (fs.drop axes.toNat)

theorem checkAxis_eq_none (i : Nat) (v : Int) : S.checkAxis i v = none ↔ v ≤ S.absMax + 1 := by
  simp [System.checkAxis]

theorem checkButton_eq_none (i : Nat) (v : Int) :
    S.checkButton i v = none ↔ (S.btnMisc : Int) ≤ v ∧ v ≤ S.keyMax := by
  unfold System.checkButton
  split
  · simp only [reduceCtorEq, false_iff]
    omega
  · split
    · simp only [reduceCtorEq, false_iff]
      omega
    · simp only [true_iff]
      omega

/-- **The buttons are read** if the fields pass the checks, and an error otherwise. -/
theorem parseButtons_cons (buttons : Int) {f : Text} {fs : List Text}
    (h : ∀ g ∈ f :: fs, comma ∉ g) :
    (S.PassesButtons buttons (f :: fs) ∧
        S.parseButtons buttons (joined comma (f :: fs)) = .ok (S.scan 0 f, S.carried 0 fs)) ∨
      (¬S.PassesButtons buttons (f :: fs) ∧
        ∃ e, S.parseButtons buttons (joined comma (f :: fs)) = .error (.exit e)) := by
  have hrest : ∀ g ∈ fs, comma ∉ g := fun g hg => h g (List.mem_cons_of_mem _ hg)
  simp only [joined_cons, System.parseButtons, scan_join, next_join h, System.PassesButtons]
  by_cases hcount : S.scan 0 f = buttons ∨ S.scan 0 f = 0
  · rw [if_neg (by tauto)]
    rcases readMap_cases (S := S) .buttonMissing checkButton_eq_none (S.scan 0 f).toNat 0 0 fs
      hrest with ⟨⟨hlen, hv⟩, hr⟩ | ⟨hno, e, hr⟩
    · rw [hr]
      by_cases heq : (S.scan 0 f).toNat = fs.length
      · left
        rw [heq, List.take_length] at hv
        rw [heq, List.take_length, List.drop_length]
        exact ⟨⟨hcount, rfl, hv⟩, rfl⟩
      · right
        obtain ⟨g, gs, hdrop⟩ : ∃ g gs, fs.drop (S.scan 0 f).toNat = g :: gs :=
          List.exists_cons_of_ne_nil fun hnil => heq (by
            have := List.drop_eq_nil_iff.mp hnil
            omega)
        rw [hdrop]
        exact ⟨fun hp => heq hp.2.1, .tooMany, rfl⟩
    · right
      rw [hr]
      refine ⟨fun ⟨_, heq, hv⟩ => hno ⟨heq.le, ?_⟩, e, rfl⟩
      rw [heq, List.take_length]
      exact hv
  · right
    rw [if_pos (by tauto)]
    exact ⟨fun hp => hcount hp.1, _, rfl⟩

/-- **An argument of `-u` is read** if its fields pass the checks, unless the count of the
buttons is missing, and an error otherwise. -/
theorem parseMappings_cases (axes buttons : Int) (p : Text) :
    (¬S.PassesMappings axes buttons (fields p) ∧
        ∃ e, S.parseMappings axes buttons p = .error (.exit e)) ∨
      (S.PassesMappings axes buttons (fields p) ∧
        ((fields p).length = axes.toNat + 1 ∧ S.parseMappings axes buttons p = .error .fault ∨
          ∃ f ms g bs, fields p = f :: (ms ++ g :: bs) ∧ ms.length = axes.toNat ∧
            S.parseMappings axes buttons p =
              .ok ⟨(S.carried 0 ms).map (BitVec.ofInt 8), S.scan 0 g,
                (S.carried 0 bs).map (BitVec.ofInt 16)⟩)) := by
  have hcomma := comma_notMem_fields p
  have hp := joined_fields p
  obtain ⟨f, fs, hfields⟩ := List.exists_cons_of_ne_nil (List.splitOn_ne_nil comma p)
  rw [fields, hfields] at hcomma hp ⊢
  obtain rfl : _ = p := Option.some.inj hp
  have hrest : ∀ g ∈ fs, comma ∉ g := fun g hg => hcomma g (List.mem_cons_of_mem _ hg)
  simp only [System.parseMappings, scan_join, next_join hcomma, System.PassesMappings]
  by_cases hcount : S.scan 0 f = axes
  · rw [if_neg (not_not.mpr hcount)]
    rcases readMap_cases (S := S) .axisMissing checkAxis_eq_none axes.toNat 0 0 fs hrest with
      ⟨⟨hlen, hv⟩, hr⟩ | ⟨hno, e, hr⟩
    · have hback : ∀ g ∈ fs.drop axes.toNat, comma ∉ g := fun g hg =>
        hrest g (List.mem_of_mem_drop hg)
      rw [hr]
      cases hdrop : fs.drop axes.toNat with
      | nil =>
        right
        have heq := List.drop_eq_nil_iff.mp hdrop
        exact ⟨⟨hcount, hlen, hv, trivial⟩, .inl ⟨by rw [List.length_cons]; omega, rfl⟩⟩
      | cons g bs =>
        rw [hdrop] at hback
        have hscan := parseButtons_cons (S := S) buttons hback
        rcases hscan with ⟨h, hb⟩ | ⟨h, e, hb⟩
        · right
          refine ⟨⟨hcount, hlen, hv, h⟩, .inr ⟨f, fs.take axes.toNat, g, bs, ?_, ?_, ?_⟩⟩
          · rw [← hdrop, List.take_append_drop]
          · exact List.length_take_of_le hlen
          · simp only [hb]
            rfl
        · left
          exact ⟨fun hp => h hp.2.2.2, e, by simp only [hb]; rfl⟩
    · left
      rw [hr]
      exact ⟨fun hp => hno ⟨hp.2.1, hp.2.2.1⟩, e, rfl⟩
  · left
    rw [if_pos hcount]
    exact ⟨fun hp => hcount hp.1, _, rfl⟩

/-! ### Corrections -/

/-- **The fields of `n` corrections** pass the checks, where `t` is the number read last: each
type is at most `MAX_CORR`, precision and coefficients follow, and nothing else.  There is no
check once a negative type has been used as an index. -/
def System.PassesCorr (S : System) : Nat → Int → List Text → Prop
  | 0, _, fs => fs = []
  | n + 1, t, f :: g :: fs =>
    S.scan t f ≤ maxCorr ∧
      match corrCoefNum[(BitVec.ofInt 16 (S.scan t f)).toNat]? with
      | none => True
      | some k => k ≤ fs.length ∧ S.PassesCorr n (S.scan (S.scan t f) g) (fs.drop k)
  | _ + 1, _, _ => False

/-- **The fields of an argument of `-s`** pass the checks. -/
def System.PassesCorrection (S : System) (axes : Int) : List Text → Prop
  | [] => False
  | f :: fs => S.scan 0 f = axes ∧ S.PassesCorr axes.toNat axes fs

theorem readCoefs_cases (i n : Nat) : ∀ (j : Nat) (fs : List Text), (∀ f ∈ fs, comma ∉ f) →
    (n ≤ fs.length ∧ S.readCoefs i n j (joined comma fs) =
        .ok ((fs.take n).map (S.scan 0), joined comma (fs.drop n))) ∨
      (¬n ≤ fs.length ∧ ∃ e, S.readCoefs i n j (joined comma fs) = .error (.exit e)) := by
  induction n with
  | zero =>
    intro j fs _
    exact .inl ⟨Nat.zero_le _, rfl⟩
  | succ n ih =>
    intro j fs hfs
    cases fs with
    | nil => exact .inr ⟨Nat.not_succ_le_zero n, .coefficientMissing j i, rfl⟩
    | cons f fs =>
      have hrest : ∀ g ∈ fs, comma ∉ g := fun g hg => hfs g (List.mem_cons_of_mem _ hg)
      rw [joined_cons, System.readCoefs, scan_join, next_join hfs, List.length_cons,
        Nat.add_le_add_iff_right]
      rcases ih (j + 1) fs hrest with ⟨h, hr⟩ | ⟨h, e, hr⟩
      · exact .inl ⟨h, by rw [hr]; rfl⟩
      · exact .inr ⟨h, e, by rw [hr]; rfl⟩

/-- **The loop over the corrections.**  If the fields pass the checks it reads them all or
goes wrong; otherwise it stops with an error or leaves some. -/
theorem readCorr_cases (n : Nat) : ∀ (i : Nat) (t : Int) (fs : List Text),
    (∀ f ∈ fs, comma ∉ f) →
    (¬S.PassesCorr n t fs ∧ ((∃ e, S.readCorr n i t (joined comma fs) = .error (.exit e)) ∨
        ∃ cs q, S.readCorr n i t (joined comma fs) = .ok (cs, some q))) ∨
      (S.PassesCorr n t fs ∧ (S.readCorr n i t (joined comma fs) = .error .fault ∨
        ∃ cs, S.readCorr n i t (joined comma fs) = .ok (cs, none))) := by
  induction n with
  | zero =>
    intro i t fs _
    cases fs with
    | nil => exact .inr ⟨rfl, .inr ⟨[], rfl⟩⟩
    | cons f fs => exact .inl ⟨List.cons_ne_nil f fs, .inr ⟨[], _, rfl⟩⟩
  | succ n ih =>
    intro i t fs hfs
    match fs with
    | [] => exact .inl ⟨id, .inl ⟨.typeMissing i, rfl⟩⟩
    | f :: gs =>
      have hgs : ∀ g ∈ gs, comma ∉ g := fun g hg => hfs g (List.mem_cons_of_mem _ hg)
      simp only [joined_cons, System.readCorr, scan_join, next_join hfs]
      by_cases htype : S.scan t f > maxCorr
      · rw [if_pos htype]
        refine .inl ⟨?_, .inl ⟨.typeUnknown i, rfl⟩⟩
        cases gs with
        | nil => exact id
        | cons g gs => exact fun hp => absurd hp.1 (by omega)
      · rw [if_neg htype]
        match gs with
        | [] => exact .inl ⟨id, .inl ⟨.precisionMissing i, rfl⟩⟩
        | g :: gs =>
          have hrest : ∀ h ∈ gs, comma ∉ h := fun h hh => hgs h (List.mem_cons_of_mem _ hh)
          simp only [joined_cons, scan_join, next_join hgs, System.PassesCorr,
            Int.not_lt.mp htype, true_and]
          cases hnum : corrCoefNum[(BitVec.ofInt 16 (S.scan t f)).toNat]? with
          | none => exact .inr ⟨trivial, .inl rfl⟩
          | some k =>
            rcases readCoefs_cases (S := S) i k 0 gs hrest with ⟨hlen, hr⟩ | ⟨hlen, e, hr⟩
            · have hdrop : ∀ h ∈ gs.drop k, comma ∉ h := fun h hh =>
                hrest h (List.mem_of_mem_drop hh)
              simp only [hr, hlen, true_and]
              rcases ih (i + 1) (S.scan (S.scan t f) g) (gs.drop k) hdrop with
                ⟨h, ⟨e, he⟩ | ⟨cs, q, hc⟩⟩ | ⟨h, he | ⟨cs, hc⟩⟩
              · exact .inl ⟨h, .inl ⟨e, by rw [he]; rfl⟩⟩
              · exact .inl ⟨h, .inr ⟨_, q, by rw [hc]; rfl⟩⟩
              · exact .inr ⟨h, .inl (by rw [he]; rfl)⟩
              · exact .inr ⟨h, .inr ⟨_, by rw [hc]; rfl⟩⟩
            · exact .inl ⟨fun hp => hlen hp.1, .inl ⟨e, by simp only [hr]⟩⟩

/-- **An argument of `-s` is read** if its fields pass the checks, unless a type is negative,
and an error otherwise. -/
theorem parseCorrection_cases (axes : Int) (p : Text) :
    (¬S.PassesCorrection axes (fields p) ∧
        ∃ e, S.parseCorrection axes p = .error (.exit e)) ∨
      (S.PassesCorrection axes (fields p) ∧
        (S.parseCorrection axes p = .error .fault ∨ ∃ cs, S.parseCorrection axes p = .ok cs)) := by
  have hcomma := comma_notMem_fields p
  have hp := joined_fields p
  obtain ⟨f, fs, hfields⟩ := List.exists_cons_of_ne_nil (List.splitOn_ne_nil comma p)
  rw [fields, hfields] at hcomma hp ⊢
  obtain rfl : _ = p := Option.some.inj hp
  have hrest : ∀ g ∈ fs, comma ∉ g := fun g hg => hcomma g (List.mem_cons_of_mem _ hg)
  simp only [System.parseCorrection, scan_join, next_join hcomma, System.PassesCorrection]
  by_cases hcount : S.scan 0 f = axes
  · rw [if_neg (not_not.mpr hcount), hcount]
    rcases readCorr_cases (S := S) axes.toNat 0 axes fs hrest with
      ⟨h, ⟨e, he⟩ | ⟨cs, q, hc⟩⟩ | ⟨h, he | ⟨cs, hc⟩⟩
    · exact .inl ⟨fun hp => h hp.2, e, by simp only [he]⟩
    · exact .inl ⟨fun hp => h hp.2, .tooMany, by simp only [hc]⟩
    · exact .inr ⟨⟨rfl, h⟩, .inl (by simp only [he])⟩
    · exact .inr ⟨⟨rfl, h⟩, .inr ⟨cs, by simp only [hc]⟩⟩
  · rw [if_pos hcount]
    exact .inl ⟨fun hp => hcount hp.1, _, rfl⟩

end LinuxConsole.Jscal
