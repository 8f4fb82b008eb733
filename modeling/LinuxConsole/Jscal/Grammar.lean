import LinuxConsole.Jscal.Mapping

/-!
# The arguments of the calibration program

The documented forms of the arguments of `-s` and `-u`: decimal numbers between commas.  For
`-s` the number of axes, then for every axis the type, the precision and the coefficients; for
`-u` the number of axes and their codes, then the number of buttons, or 0, and their codes.

`jscal` should set exactly what such an argument says and otherwise fail without having set
anything.  **`arguments_iff`**: for an argument that its checks let through, that needs the
documented form, and numbers that the fields of the joystick hold.
-/

namespace LinuxConsole.Jscal

open Lib

variable {S : System}

/-! ### Corrections -/

/-- The correction of an axis as an argument gives it. -/
structure Setting where
  type : Nat
  prec : Int
  coefs : List Int
  coefs_length : corrCoefNum[type]? = some coefs.length

namespace Setting

variable (a : Setting)

/-- The numbers of the setting. -/
def values : List Int := a.type :: a.prec :: a.coefs

/-- The joystick can hold it. -/
def Representable : Prop := Fits 16 a.prec ∧ ∀ c ∈ a.coefs, Fits 32 c

/-- A correction that says the same. -/
def Is (c : Corr) : Prop :=
  c.type.toNat = a.type ∧ c.prec.toInt = a.prec ∧
    ((List.ofFn c.coef).take a.coefs.length).map BitVec.toInt = a.coefs

/-- What the loop makes of it. -/
def toCorr : Corr := .ofValues a.type a.prec a.coefs

variable {a}

theorem type_le : a.type ≤ 1 := by
  have h := a.coefs_length
  by_contra hgt
  rw [List.getElem?_eq_none (by simp [corrCoefNum]; omega)] at h
  contradiction

theorem coefs_le : a.coefs.length ≤ 8 := by
  have h := a.coefs_length
  have hmem := List.mem_of_getElem? h
  simp only [corrCoefNum, List.mem_cons, List.not_mem_nil, or_false] at hmem
  omega

theorem type_toNat : (BitVec.ofInt 16 (a.type : Int)).toNat = a.type := by
  have h := a.type_le
  rw [BitVec.ofInt_natCast, BitVec.toNat_ofNat]
  omega

theorem representable_of_is {c : Corr} (h : a.Is c) : a.Representable := by
  obtain ⟨-, hprec, hcoefs⟩ := h
  refine ⟨hprec ▸ ⟨BitVec.le_toInt _, BitVec.toInt_lt⟩, fun n hn => ?_⟩
  rw [← hcoefs] at hn
  obtain ⟨b, -, rfl⟩ := List.mem_map.mp hn
  exact ⟨BitVec.le_toInt _, BitVec.toInt_lt⟩

theorem is_toCorr (h : a.Representable) : a.Is a.toCorr := by
  refine ⟨type_toNat, BitVec.toInt_ofInt_eq_self (by decide) h.1.1 h.1.2, ?_⟩
  have hlen := a.coefs_le
  refine List.ext_getElem (by simp; omega) fun i hi hi' => ?_
  have hfits := h.2 a.coefs[i] (List.getElem_mem hi')
  simp only [toCorr, Corr.ofValues, List.getElem_map, List.getElem_take, List.getElem_ofFn,
    List.getD_eq_getElem?_getD, List.getElem?_eq_getElem hi', Option.getD_some]
  exact BitVec.toInt_ofInt_eq_self (by decide) hfits.1 hfits.2

end Setting

/-- The documented form of an argument of `-s`. -/
def DocumentedCorrection (axes : Nat) (p : Text) (as : List Setting) : Prop :=
  as.length = axes ∧
    (fields p).map decimal = ((axes : Int) :: as.flatMap Setting.values).map some

/-- **What `-s` is to do**: set what the argument says, or fail and set nothing. -/
def Joystick.SetsCorrection (d : Joystick S) (p : Text) (o : Outcome S) : Prop :=
  (∃ as, DocumentedCorrection d.axmap.length p as ∧ ∃ d', o = .done d' ∧
    List.Forall₂ Setting.Is as d'.corr ∧ d'.axmap = d.axmap ∧ d'.btnmap = d.btnmap) ∨
  ∃ e, o = .exit e d

theorem fits_small {n : Nat} (h : n < 2 ^ 31) : Fits 32 n := by
  constructor <;> omega

theorem readCoefs_decimal {ns : List Int} (hns : ∀ n ∈ ns, Fits 32 n) {fs gs : List Text}
    (hfs : ∀ f ∈ fs ++ gs, comma ∉ f) (h : fs.map decimal = ns.map some) (i : Nat) :
    S.readCoefs i ns.length 0 (joined comma (fs ++ gs)) = .ok (ns, joined comma gs) := by
  have hlen : fs.length = ns.length := by simpa using congrArg List.length h
  have hscan : fs.map (S.scan 0) = ns := by
    refine List.ext_getElem (by simpa using hlen) fun j hj hj' => ?_
    rw [List.length_map] at hj
    have hdec : decimal fs[j] = some ns[j] := by
      have hget := congrArg (·[j]?) h
      simpa [List.getElem?_eq_getElem hj, List.getElem?_eq_getElem hj'] using hget
    rw [List.getElem_map]
    exact scan_decimal hdec (hns _ (List.getElem_mem hj')) 0
  rcases readCoefs_cases (S := S) i ns.length 0 (fs ++ gs) hfs with ⟨-, hr⟩ | ⟨hno, -⟩
  · rw [hr, ← hlen, List.take_left, List.drop_left, hscan]
  · rw [List.length_append] at hno
    omega

/-- **Documented settings are read.** -/
theorem readCorr_settings (as : List Setting) (has : ∀ a ∈ as, a.Representable) :
    ∀ (i : Nat) (t : Int) (fs : List Text), (∀ f ∈ fs, comma ∉ f) →
    fs.map decimal = (as.flatMap Setting.values).map some →
    S.readCorr as.length i t (joined comma fs) = .ok (as.map Setting.toCorr, none) := by
  induction as with
  | nil =>
    intro i t fs _ h
    rw [List.map_eq_nil_iff.mp h]
    rfl
  | cons a as ih =>
    intro i t fs hfs h
    obtain ⟨hprec, hcoefs⟩ := has a List.mem_cons_self
    rw [List.flatMap_cons, Setting.values] at h
    obtain ⟨f, fs, rfl, hf, h⟩ := List.map_eq_cons_iff.mp h
    obtain ⟨g, fs, rfl, hg, h⟩ := List.map_eq_cons_iff.mp h
    obtain ⟨cs, rest, rfl, hcs, hrest⟩ := List.map_eq_append_iff.mp (h.trans List.map_append)
    have htail : ∀ x ∈ g :: (cs ++ rest), comma ∉ x := fun x hx =>
      hfs x (List.mem_cons_of_mem _ hx)
    have hcomma : ∀ x ∈ cs ++ rest, comma ∉ x := fun x hx => htail x (List.mem_cons_of_mem _ hx)
    have htype : S.scan t f = a.type := scan_decimal hf (fits_small (by have := a.type_le; omega)) t
    have hle : ¬(a.type : Int) > maxCorr := by
      have := a.type_le
      simp only [maxCorr]
      omega
    have hread : S.scan (a.type : Int) g = a.prec :=
      scan_decimal hg ⟨by have := hprec.1; omega, by have := hprec.2; omega⟩ _
    simp only [List.length_cons, joined_cons, System.readCorr, scan_join, htype, if_neg hle,
      next_join hfs, hread, Setting.type_toNat, a.coefs_length, next_join htail,
      readCoefs_decimal hcoefs hcomma hcs,
      ih (fun b hb => has b (List.mem_cons_of_mem _ hb)) (i + 1) a.prec rest
        (fun x hx => hcomma x (List.mem_append_right _ hx)) hrest]
    rfl

/-- **A documented argument of `-s` sets what it says.** -/
theorem setCorrection_documented (d : Joystick S) {p : Text} {as : List Setting}
    (h : DocumentedCorrection d.axmap.length p as) (has : ∀ a ∈ as, a.Representable) :
    ∃ d', setCorrection (fun _ => true) d (some p) = .done d' ∧
      List.Forall₂ Setting.Is as d'.corr ∧ d'.axmap = d.axmap ∧ d'.btnmap = d.btnmap := by
  obtain ⟨hlen, hfields⟩ := h
  obtain ⟨f, fs, hcons, hf, hfs⟩ := List.map_eq_cons_iff.mp hfields
  have hcomma := comma_notMem_fields p
  have hp := joined_fields p
  rw [hcons] at hcomma hp
  obtain rfl : _ = p := Option.some.inj hp
  have hcount : S.scan 0 f = d.axmap.length :=
    scan_decimal hf (fits_small (by have := d.axes_le; have := S.absMax_lt; omega)) 0
  have hread := readCorr_settings (S := S) as has 0 d.axmap.length fs
    (fun g hg => hcomma g (List.mem_cons_of_mem _ hg)) hfs
  rw [hlen] at hread
  have hparse : S.parseCorrection d.axes ([comma].intercalate (f :: fs)) =
      .ok (as.map Setting.toCorr) := by
    simp only [System.parseCorrection, scan_join, d.axes_eq, hcount, next_join hcomma,
      Int.toNat_natCast, ne_eq, not_true, if_false, hread]
  refine ⟨d.setCorr (as.map Setting.toCorr), ?_, ?_, rfl, rfl⟩
  · simp only [setCorrection, hparse]
    rfl
  · rw [setCorr_corr (by rw [List.length_map, hlen])]
    exact List.forall₂_map_right_iff.mpr
      (List.forall₂_same.mpr fun a ha => Setting.is_toCorr (has a ha))

theorem setCorrection_iff (d : Joystick S) (p : Text) :
    d.SetsCorrection p (setCorrection (fun _ => true) d (some p)) ↔
      (S.PassesCorrection d.axes (fields p) →
        ∃ as, DocumentedCorrection d.axmap.length p as ∧ ∀ a ∈ as, a.Representable) := by
  constructor
  · rintro (⟨as, hdoc, d', -, his, -, -⟩ | ⟨e, he⟩) hpass
    · refine ⟨as, hdoc, fun a ha => ?_⟩
      obtain ⟨i, hi, rfl⟩ := List.getElem_of_mem ha
      exact Setting.representable_of_is (his.get hi (his.length_eq ▸ hi))
    · -- What passes the checks does not end in an error.
      rcases parseCorrection_cases (S := S) d.axes p with ⟨hno, -⟩ | ⟨-, hfault | ⟨cs, hok⟩⟩
      · exact absurd hpass hno
      · simp [setCorrection, hfault, Stop.outcome] at he
      · simp [setCorrection, hok] at he
  · intro h
    rcases parseCorrection_cases (S := S) d.axes p with ⟨-, e, he⟩ | ⟨hpass, -⟩
    · exact .inr ⟨e, by simp [setCorrection, he, Stop.outcome]⟩
    · obtain ⟨as, hdoc, has⟩ := h hpass
      obtain ⟨d', hd'⟩ := setCorrection_documented d hdoc has
      exact .inl ⟨as, hdoc, d', hd'⟩

/-! ### Mappings -/

/-- The documented form of an argument of `-u`. -/
def Joystick.DocumentedMappings (d : Joystick S) (p : Text) (ms bs : List Int) : Prop :=
  ms.length = d.axmap.length ∧ (bs.length = d.btnmap.length ∨ bs = []) ∧
    (fields p).map decimal =
      ((d.axmap.length : Int) :: (ms ++ (bs.length : Int) :: bs)).map some

/-- Codes as numbers. -/
def codes {w : Nat} (l : List (BitVec w)) : List Int := l.map fun c => (c.toNat : Int)

/-- **What `-u` is to do**: set what the argument says, or fail and set nothing. -/
def Joystick.SetsMappings (d : Joystick S) (p : Text) (o : Outcome S) : Prop :=
  (∃ ms bs, d.DocumentedMappings p ms bs ∧ ∃ d', o = .done d' ∧ codes d'.axmap = ms ∧
    codes d'.btnmap = if bs = [] then codes d.btnmap else bs) ∨
  ∃ e, o = .exit e d

/-- The codes are those of the joystick's axes, and of buttons. -/
def Joystick.Acceptable (d : Joystick S) (ms bs : List Int) : Prop :=
  (∀ c ∈ d.axmap, c.toNat ≤ S.absMax) ∧ (∀ m ∈ ms, m ∈ codes d.axmap) ∧
    ∀ b ∈ bs, (S.btnMisc : Int) ≤ b ∧ b ≤ S.keyMax

theorem codes_map {w : Nat} {ns : List Int} (h : ∀ n ∈ ns, 0 ≤ n ∧ n < 2 ^ w) :
    codes (ns.map (BitVec.ofInt w)) = ns := by
  rw [codes, List.map_map]
  refine (List.map_congr_left fun n hn => ?_).trans (List.map_id ns)
  obtain ⟨hpos, hlt⟩ := h n hn
  have hmod : n % 2 ^ w = n := Int.emod_eq_of_lt hpos hlt
  simp [hmod, Int.toNat_of_nonneg hpos]

theorem map_codes {w : Nat} (l : List (BitVec w)) : (codes l).map (BitVec.ofInt w) = l := by
  rw [codes, List.map_map]
  refine (List.map_congr_left fun c _ => ?_).trans (List.map_id l)
  simp

theorem code_lt {w : Nat} {l : List (BitVec w)} {n : Int} (h : n ∈ codes l) :
    0 ≤ n ∧ n < 2 ^ w := by
  obtain ⟨c, -, rfl⟩ := List.mem_map.mp h
  have hlt := c.isLt
  exact ⟨Int.natCast_nonneg _, by exact_mod_cast hlt⟩

theorem Joystick.DocumentedMappings.parts {d : Joystick S} {p : Text} {ms bs : List Int}
    (h : d.DocumentedMappings p ms bs) {f g : Text} {xs ys : List Text}
    (hfields : fields p = f :: (xs ++ g :: ys)) (hlen : xs.length = d.axmap.length) :
    xs.map decimal = ms.map some ∧ decimal g = some (bs.length : Int) ∧
      ys.map decimal = bs.map some := by
  obtain ⟨hms, -, hall⟩ := h
  rw [hfields] at hall
  simp only [List.map_cons, List.map_append, List.cons.injEq] at hall
  obtain ⟨hxs, hrest⟩ := List.append_inj hall.2 (by simp [hlen, hms])
  obtain ⟨hg, hys⟩ := List.cons.inj hrest
  exact ⟨hxs, hg, hys⟩

/-- **Mappings are set** if the codes are those of the joystick. -/
theorem applyMappings_done {d : Joystick S} {m : Mappings} (hlen : m.axmap.length = d.axmap.length)
    (h : S.Remappable d.axmap m.axmap) :
    ∃ d', applyMappings (fun _ => true) d m = .done d' ∧ d'.axmap = m.axmap ∧
      Follows d.axmap m.axmap d.corr d'.corr ∧
      d'.btnmap = if m.buttons = 0 then d.btnmap else firsts d.btnmap.length 0 m.btnmap := by
  obtain ⟨ax, hax⟩ := exists_remap h
  obtain ⟨hmoved, hfollow⟩ := moveCorr_follows hax d.corr_length
  have hmap : (d.setAxmap m.axmap).axmap = m.axmap := setAxmap_axmap hlen
  have hcorr : ((d.setAxmap m.axmap).setCorr (moveCorr d.corr ax)).corr = moveCorr d.corr ax :=
    setCorr_corr (by rw [hmap]; exact hmoved)
  rw [← hcorr] at hfollow
  simp only [applyMappings, correctAxes, hmap, hax, Bool.not_true, Bool.false_eq_true, if_false]
  by_cases hzero : m.buttons = 0
  · rw [if_neg (not_not.mpr hzero), if_pos hzero]
    exact ⟨_, rfl, hmap, hfollow, rfl⟩
  · rw [if_pos hzero, if_neg hzero]
    exact ⟨_, rfl, hmap, hfollow, rfl⟩

theorem applyMappings_fault {d : Joystick S} {m : Mappings}
    (hlen : m.axmap.length = d.axmap.length) (h : ¬S.Remappable d.axmap m.axmap) :
    applyMappings (fun _ => true) d m = .fault (d.setAxmap m.axmap) := by
  have hmap : (d.setAxmap m.axmap).axmap = m.axmap := setAxmap_axmap hlen
  cases hax : S.remap d.axmap m.axmap with
  | none => simp [applyMappings, correctAxes, hmap, hax]
  | some ax => exact absurd (remap_spec hax).1 h

theorem setMappings_ok {d : Joystick S} {p : Text} {m : Mappings}
    (h : S.parseMappings d.axes d.buttons p = .ok m) :
    setMappings (fun _ => true) d (some p) = applyMappings (fun _ => true) d m := by
  simp [setMappings, h]

theorem fits_button {n : Int} (h : 0 ≤ n ∧ n < 2 ^ 16) : Fits 32 n := by
  constructor <;> omega

/-- **A documented argument of `-u` sets what it says**, if it passes the checks and its codes
are acceptable. -/
theorem setMappings_documented {d : Joystick S} {p : Text} {ms bs : List Int}
    (hpass : S.PassesMappings d.axes d.buttons (fields p)) (h : d.DocumentedMappings p ms bs)
    (hacc : d.Acceptable ms bs) :
    ∃ d', setMappings (fun _ => true) d (some p) = .done d' ∧ codes d'.axmap = ms ∧
      Follows d.axmap d'.axmap d.corr d'.corr ∧
      codes d'.btnmap = if bs = [] then codes d.btnmap else bs := by
  obtain ⟨hcodes, hms, hbs⟩ := hacc
  have hkey := S.keyMax_lt
  have hbits : ∀ b ∈ bs, 0 ≤ b ∧ b < 2 ^ 16 := fun b hb => by
    have := hbs b hb
    omega
  have hbytes : ∀ m ∈ ms, 0 ≤ m ∧ m < 2 ^ 8 := fun m hm => code_lt (hms m hm)
  rcases parseMappings_cases (S := S) d.axes d.buttons p with
    ⟨hno, -⟩ | ⟨-, ⟨hlen, -⟩ | ⟨f, xs, g, ys, hfields, hlen, hok⟩⟩
  · exact absurd hpass hno
  · have hdoc := congrArg List.length h.2.2
    simp only [List.length_map, List.length_cons, List.length_append, h.1, hlen,
      d.toNat_axes] at hdoc
    omega
  · rw [d.toNat_axes] at hlen
    obtain ⟨hxs, hg, hys⟩ := h.parts hfields hlen
    have hsmall : bs.length < 256 := by
      rcases h.2.1 with hb | rfl
      · rw [hb]
        exact d.buttons_lt
      · decide
    rw [carried_decimal (fun n hn => fits_button ⟨(hbytes n hn).1, by have := hbytes n hn; omega⟩)
        0 hxs, carried_decimal (fun n hn => fits_button (hbits n hn)) 0 hys,
      scan_decimal hg (fits_small (by omega)) 0] at hok
    have hremap : S.Remappable d.axmap (ms.map (BitVec.ofInt 8)) := by
      refine ⟨hcodes, fun c hc => ?_⟩
      obtain ⟨m, hm, rfl⟩ := List.mem_map.mp hc
      have hmem := List.mem_map_of_mem (f := BitVec.ofInt 8) (hms m hm)
      rwa [map_codes] at hmem
    obtain ⟨d', hdone, haxes, hfollow, hbuttons⟩ := applyMappings_done
      (m := ⟨ms.map (BitVec.ofInt 8), bs.length, bs.map (BitVec.ofInt 16)⟩)
      (by rw [List.length_map, h.1]) hremap
    refine ⟨d', by rw [setMappings_ok hok, hdone], ?_, haxes ▸ hfollow, ?_⟩
    · rw [haxes, codes_map hbytes]
    · rw [hbuttons]
      by_cases hnil : bs = []
      · simp [hnil]
      · have hpos : (bs.length : Int) ≠ 0 := by
          simpa using hnil
        rw [if_neg hnil, if_neg hpos, firsts_eq_self (by
          rw [List.length_map]
          exact h.2.1.resolve_right hnil), codes_map hbits]

theorem acceptable_of_done {d d' : Joystick S} {p : Text} {ms bs : List Int}
    (hpass : S.PassesMappings d.axes d.buttons (fields p)) (h : d.DocumentedMappings p ms bs)
    (hdone : setMappings (fun _ => true) d (some p) = .done d') (haxes : codes d'.axmap = ms)
    (hbuttons : codes d'.btnmap = if bs = [] then codes d.btnmap else bs) :
    d.Acceptable ms bs := by
  have hkey := S.keyMax_lt
  rcases parseMappings_cases (S := S) d.axes d.buttons p with
    ⟨hno, -⟩ | ⟨-, ⟨-, hfault⟩ | ⟨f, xs, g, ys, hfields, hlen, hok⟩⟩
  · exact absurd hpass hno
  · simp [setMappings, hfault, Stop.outcome] at hdone
  · have hreq : d.Requests (some p) _ := ⟨p, rfl, hok⟩
    obtain ⟨hcount, -, -⟩ := hreq.counts
    rw [setMappings_ok hok] at hdone
    rw [hfields] at hpass
    rw [d.toNat_axes] at hlen
    obtain ⟨-, -, -, hpass⟩ := hpass
    rw [d.toNat_axes, ← hlen, List.drop_left] at hpass
    obtain ⟨-, hys, hvalid⟩ := hpass
    by_cases hremap : S.Remappable d.axmap ((S.carried 0 xs).map (BitVec.ofInt 8))
    · obtain ⟨e, he, hmap, -, hbtn⟩ := applyMappings_done hcount hremap
      rw [hdone, Outcome.done.injEq] at he
      subst he
      refine ⟨hremap.1, fun m hm => ?_, fun b hb => ?_⟩
      · rw [← haxes, hmap] at hm
        obtain ⟨c, hc, rfl⟩ := List.mem_map.mp hm
        exact List.mem_map_of_mem (hremap.2 c hc)
      · have hnil : bs ≠ [] := List.ne_nil_of_mem hb
        have hsize := h.2.1.resolve_right hnil
        obtain ⟨-, hg, -⟩ := h.parts hfields hlen
        have hscan : S.scan 0 g = bs.length :=
          scan_decimal hg (fits_small (by have := d.buttons_lt; omega)) 0
        have hpos : (bs.length : Int) ≠ 0 := by simpa using hnil
        rw [hscan, Int.toNat_natCast] at hys
        rw [if_neg hnil, hbtn, hscan, if_neg hpos, firsts_eq_self (by
          rw [List.length_map, length_carried, ← hys, hsize]),
          codes_map fun v hv => by have := hvalid v hv; omega] at hbuttons
        exact hvalid b (hbuttons ▸ hb)
    · rw [applyMappings_fault hcount hremap] at hdone
      contradiction

theorem setMappings_iff (d : Joystick S) (p : Text) :
    d.SetsMappings p (setMappings (fun _ => true) d (some p)) ↔
      (S.PassesMappings d.axes d.buttons (fields p) →
        ∃ ms bs, d.DocumentedMappings p ms bs ∧ d.Acceptable ms bs) := by
  constructor
  · rintro (⟨ms, bs, hdoc, d', hdone, haxes, hbuttons⟩ | ⟨e, he⟩) hpass
    · exact ⟨ms, bs, hdoc, acceptable_of_done hpass hdoc hdone haxes hbuttons⟩
    · -- What passes the checks does not end in an error.
      rcases parseMappings_cases (S := S) d.axes d.buttons p with
        ⟨hno, -⟩ | ⟨-, ⟨-, hfault⟩ | ⟨f, xs, g, ys, hfields, hlen, hok⟩⟩
      · exact absurd hpass hno
      · simp [setMappings, hfault, Stop.outcome] at he
      · have hreq : d.Requests (some p) _ := ⟨p, rfl, hok⟩
        obtain ⟨hcount, -, -⟩ := hreq.counts
        rw [setMappings_ok hok] at he
        by_cases hremap : S.Remappable d.axmap ((S.carried 0 xs).map (BitVec.ofInt 8))
        · obtain ⟨d', hdone, -⟩ := applyMappings_done hcount hremap
          rw [hdone] at he
          contradiction
        · rw [applyMappings_fault hcount hremap] at he
          contradiction
  · intro h
    rcases parseMappings_cases (S := S) d.axes d.buttons p with ⟨-, e, he⟩ | ⟨hpass, -⟩
    · exact .inr ⟨e, by simp [setMappings, he, Stop.outcome]⟩
    · obtain ⟨ms, bs, hdoc, hacc⟩ := h hpass
      obtain ⟨d', hdone, haxes, -, hbuttons⟩ := setMappings_documented hpass hdoc hacc
      exact .inl ⟨ms, bs, hdoc, d', hdone, haxes, hbuttons⟩

/-! ### Both arguments -/

/-- **The arguments of `-s` and `-u`** are taken as documented exactly if one that passes the
checks is of the documented form, with numbers that the joystick can hold: for `-s` precisions
of 16 bits and coefficients of 32 bits, for `-u` codes of the joystick's own axes, all of them
in the range of the tables. -/
theorem arguments_iff (d : Joystick S) (p : Text) :
    (d.SetsCorrection p (setCorrection (fun _ => true) d (some p)) ↔
      (S.PassesCorrection d.axes (fields p) →
        ∃ as, DocumentedCorrection d.axmap.length p as ∧ ∀ a ∈ as, a.Representable)) ∧
    (d.SetsMappings p (setMappings (fun _ => true) d (some p)) ↔
      (S.PassesMappings d.axes d.buttons (fields p) →
        ∃ ms bs, d.DocumentedMappings p ms bs ∧ d.Acceptable ms bs)) :=
  ⟨setCorrection_iff d p, setMappings_iff d p⟩

/-- A code that is missing is the one before, with a comma too few the program reads from a
null pointer, and a precision that is missing is the type. -/
theorem fields_missing :
    setMappings (fun _ => true) twoAxes (some "2,1,,0".toList) =
        .done ((twoAxes.setAxmap [1, 1]).setCorr (moveCorr twoAxes.corr [1, 1])) ∧
      ¬twoAxes.SetsMappings "2,1,,0".toList
        (setMappings (fun _ => true) twoAxes (some "2,1,,0".toList)) ∧
      setMappings (fun _ => true) twoAxes (some "2,1,0".toList) = .fault twoAxes ∧
      setCorrection (fun _ => true) twoAxes (some "2,0,7,0,".toList) =
        .done (twoAxes.setCorr [.ofValues 0 7 [], .ofValues 0 0 []]) := by
  have hdone : setMappings (fun _ => true) twoAxes (some "2,1,,0".toList) =
      .done ((twoAxes.setAxmap [1, 1]).setCorr (moveCorr twoAxes.corr [1, 1])) := by
    decide +kernel
  refine ⟨hdone, ?_, by decide +kernel, by decide +kernel⟩
  rw [hdone]
  rintro (⟨ms, bs, ⟨-, -, hdoc⟩, -⟩ | ⟨e, he⟩)
  · have hempty : none ∈ (fields "2,1,,0".toList).map decimal := by decide +kernel
    rw [hdoc] at hempty
    simp at hempty
  · contradiction

end LinuxConsole.Jscal
