import LinuxConsole.Jscal.Grammar

/-!
# Setting what has been printed

`jscal -q` and `jscal -p` print command lines that are to bring back what they found.  A
command line that is printed has the documented form.  **`mappings_reprinted_iff`**: the
mappings come back exactly if fewer than 128 buttons are there to be counted; otherwise the
count is negative, no code follows, and the button map is set to zeros.
**`corrections_reprinted`**: the corrections come back, whatever was there before.
-/

namespace LinuxConsole.Jscal

open Lib

variable {S : System}

/-! ### Command lines -/

theorem blank_notMem_showInt (n : Int) : blank ∉ showInt n :=
  notMem_showInt (by decide) (by decide) n

theorem blank_notMem_commaText (ns : List Int) : blank ∉ commaText ns := by
  intro h
  obtain ⟨n, -, hn⟩ := List.mem_flatMap.mp h
  rcases List.mem_cons.mp hn with hc | hn
  · exact absurd hc (by decide)
  · exact blank_notMem_showInt n hn

theorem words_line (option : Text) (hoption : blank ∉ option) {arg : Text} (harg : blank ∉ arg)
    (rest : Text) :
    ("jscal".toList ++ blank :: (option ++ blank :: (arg ++ blank :: rest))).splitOn blank =
      "jscal".toList :: option :: arg :: rest.splitOn blank := by
  have hname : blank ∉ "jscal".toList := by decide
  rw [List.splitOn_append_cons_self, List.splitOn_append_cons_self,
    List.splitOn_append_cons_self, List.splitOn_eq_singleton hname,
    List.splitOn_eq_singleton hoption, List.splitOn_eq_singleton harg]
  rfl

theorem jscal_mappings (ok : Call → Bool) (d : Joystick S) {arg : Text} (harg : blank ∉ arg)
    (rest : Text) :
    jscal ok d ("jscal -u ".toList ++ (arg ++ blank :: rest)) =
      some (setMappings ok d (some arg)) := by
  have hwords := words_line "-u".toList (by decide) harg rest
  change jscal ok d ("jscal".toList ++ blank :: ("-u".toList ++ blank :: (arg ++ blank :: rest))) = _
  rw [jscal, hwords]
  exact if_pos rfl

theorem jscal_correction (ok : Call → Bool) (d : Joystick S) {arg : Text} (harg : blank ∉ arg)
    (rest : Text) :
    jscal ok d ("jscal -s ".toList ++ (arg ++ blank :: rest)) =
      some (setCorrection ok d (some arg)) := by
  have hwords := words_line "-s".toList (by decide) harg rest
  change jscal ok d ("jscal".toList ++ blank :: ("-s".toList ++ blank :: (arg ++ blank :: rest))) = _
  rw [jscal, hwords]
  exact (if_neg (by decide)).trans (if_pos rfl)

theorem commaText_append (ns ms : List Int) :
    commaText (ns ++ ms) = commaText ns ++ commaText ms := List.flatMap_append

theorem numbers_eq (n : Int) (ns : List Int) :
    showInt n ++ commaText ns = [comma].intercalate ((n :: ns).map showInt) := by
  induction ns generalizing n with
  | nil => simp [commaText]
  | cons m ns ih =>
    rw [List.map_cons, intercalate_cons, List.map_cons, joined, ← List.map_cons, ← ih]
    rfl

/-- **Numbers that are printed are the fields.** -/
theorem fields_numbers (n : Int) (ns : List Int) :
    fields (showInt n ++ commaText ns) = (n :: ns).map showInt := by
  rw [numbers_eq, fields, List.splitOn_intercalate]
  · intro f hf
    obtain ⟨m, -, rfl⟩ := List.mem_map.mp hf
    exact notMem_showInt comma_separates.digit comma_separates.not_minus m
  · exact List.cons_ne_nil _ _

theorem decimal_numbers (n : Int) (ns : List Int) :
    (fields (showInt n ++ commaText ns)).map decimal = (n :: ns).map some := by
  rw [fields_numbers, List.map_map]
  exact List.map_congr_left fun m _ => decimal_showInt m

/-! ### Mappings -/

/-- The numbers that `jscal -q` prints. -/
def Joystick.mappingNumbers (d : Joystick S) : List Int :=
  codes d.axmap ++ d.buttons :: codes (d.btnmap.take d.buttons.toNat)

theorem printMappings_eq (d : Joystick S) (devicename : Text) :
    printMappings (fun _ => true) d devicename =
      .ok ("jscal -u ".toList ++ (showInt d.axmap.length ++ commaText d.mappingNumbers ++
        blank :: (devicename ++ [newline]))) := by
  simp [printMappings, d.signedChar_axes, Joystick.mappingNumbers, commaText, codes]

theorem jscal_reprint (d : Joystick S) (devicename : Text) :
    ∃ line, printMappings (fun _ => true) d devicename = .ok line ∧
      jscal (fun _ => true) d line = some (setMappings (fun _ => true) d
        (some (showInt d.axmap.length ++ commaText d.mappingNumbers))) := by
  refine ⟨_, printMappings_eq d devicename, jscal_mappings _ d ?_ _⟩
  intro h
  rcases List.mem_append.mp h with h | h
  · exact blank_notMem_showInt _ h
  · exact blank_notMem_commaText _ h

theorem Follows.eq {old : List (BitVec 8)} {cs cs' : List Corr} (h : Follows old old cs cs')
    (hdistinct : old.Nodup) (hcs : cs.length = old.length) (hcs' : cs'.length = old.length) :
    cs' = cs := by
  refine List.ext_getElem? fun i => ?_
  obtain ⟨j, hcode, hcorr⟩ := h i
  by_cases hi : i < old.length
  · rw [hcorr, (List.getElem?_inj hi hdistinct).mp hcode.symm]
  · rw [List.getElem?_eq_none (by omega), List.getElem?_eq_none (by omega)]

theorem codes_inj {w : Nat} {l l' : List (BitVec w)} (h : codes l = codes l') : l = l' := by
  rw [← map_codes l, h, map_codes]

theorem carried_numbers {ns : List Int} (hns : ∀ n ∈ ns, Fits 32 n) (old : Int) :
    S.carried old (ns.map showInt) = ns := by
  refine carried_decimal hns old ?_
  rw [List.map_map]
  exact List.map_congr_left fun n _ => decimal_showInt n

theorem scan_showInt {n : Int} (hn : Fits 32 n) (old : Int) : S.scan old (showInt n) = n :=
  scan_decimal (decimal_showInt n) hn old

/-- Up to 127 buttons, **what is printed comes back**. -/
theorem reprint_few {d : Joystick S} (hdistinct : d.axmap.Nodup)
    (hcodes : ∀ c ∈ d.axmap, c.toNat ≤ S.absMax)
    (hbuttons : ∀ b ∈ d.btnmap, S.btnMisc ≤ b.toNat ∧ b.toNat ≤ S.keyMax)
    (hfew : d.btnmap.length < 128) :
    setMappings (fun _ => true) d
      (some (showInt d.axmap.length ++ commaText d.mappingNumbers)) = .done d := by
  have hmax := S.absMax_lt
  have hle := d.axes_le
  have hcount : d.buttons = d.btnmap.length := by rw [d.buttons_eq, if_pos hfew]
  have hnumbers : d.mappingNumbers = codes d.axmap ++ (d.btnmap.length : Int) :: codes d.btnmap := by
    rw [Joystick.mappingNumbers, hcount, Int.toNat_natCast, List.take_length]
  have hlen : (codes d.axmap).length = d.axmap.length := List.length_map _
  have hbtnlen : (codes d.btnmap).length = d.btnmap.length := List.length_map _
  have hdoc : d.DocumentedMappings (showInt d.axmap.length ++ commaText d.mappingNumbers)
      (codes d.axmap) (codes d.btnmap) := by
    refine ⟨hlen, .inl hbtnlen, ?_⟩
    rw [decimal_numbers, hnumbers, hbtnlen]
  have hrange : ∀ b ∈ codes d.btnmap, (S.btnMisc : Int) ≤ b ∧ b ≤ S.keyMax := fun b hb => by
    obtain ⟨c, hc, rfl⟩ := List.mem_map.mp hb
    have := hbuttons c hc
    exact ⟨by exact_mod_cast this.1, by exact_mod_cast this.2⟩
  have hacc : d.Acceptable (codes d.axmap) (codes d.btnmap) := ⟨hcodes, fun m hm => hm, hrange⟩
  have hpass : S.PassesMappings d.axes d.buttons
      (fields (showInt d.axmap.length ++ commaText d.mappingNumbers)) := by
    rw [fields_numbers, hnumbers, List.map_cons, List.map_append, List.map_cons, d.axes_eq]
    have htake : d.axmap.length = ((codes d.axmap).map showInt).length := by
      rw [List.length_map, hlen]
    refine ⟨scan_showInt (fits_small (by omega)) 0, ?_, ?_, ?_⟩
    · rw [Int.toNat_natCast, List.length_append, ← htake]
      omega
    · rw [Int.toNat_natCast, htake, List.take_left, carried_numbers]
      · intro v hv
        obtain ⟨c, hc, rfl⟩ := List.mem_map.mp hv
        have := hcodes c hc
        omega
      · intro v hv
        have := code_lt hv
        exact fits_button ⟨this.1, by omega⟩
    · rw [Int.toNat_natCast, htake, List.drop_left]
      have hscan : S.scan 0 (showInt (d.btnmap.length : Int)) = d.btnmap.length :=
        scan_showInt (fits_small (by omega)) 0
      refine ⟨.inl (hscan.trans hcount.symm), ?_, ?_⟩
      · rw [hscan, Int.toNat_natCast, List.length_map, hbtnlen]
      · rw [carried_numbers fun v hv => fits_button (code_lt hv)]
        exact hrange
  obtain ⟨d', hdone, haxes, hfollow, hbtn⟩ := setMappings_documented hpass hdoc hacc
  have hsame : d'.axmap = d.axmap := codes_inj haxes
  rw [hsame] at hfollow
  have hbtn' : codes d'.btnmap = codes d.btnmap := by
    rw [hbtn]
    split <;> rfl
  rw [hdone, Outcome.done.injEq]
  exact Joystick.ext hsame
    (hfollow.eq hdistinct d.corr_length (by rw [d'.corr_length, hsame])) (codes_inj hbtn')

/-- From 128 buttons on, **their map is lost**. -/
theorem reprint_many {d : Joystick S} (hbuttons : ∀ b ∈ d.btnmap, S.btnMisc ≤ b.toNat)
    (hmany : 128 ≤ d.btnmap.length) :
    setMappings (fun _ => true) d
      (some (showInt d.axmap.length ++ commaText d.mappingNumbers)) ≠ .done d := by
  intro hdone
  have hpos := S.btnMisc_pos
  have hcount : d.buttons = (d.btnmap.length : Int) - 256 := by
    rw [d.buttons_eq, if_neg (by omega)]
  have hlt := d.buttons_lt
  rcases parseMappings_cases (S := S) d.axes d.buttons
      (showInt d.axmap.length ++ commaText d.mappingNumbers) with
    ⟨-, e, he⟩ | ⟨-, ⟨-, hfault⟩ | ⟨f, xs, g, ys, hfields, hlen, hok⟩⟩
  · simp [setMappings, he, Stop.outcome] at hdone
  · simp [setMappings, hfault, Stop.outcome] at hdone
  · have hreq : d.Requests (some _) _ := ⟨_, rfl, hok⟩
    obtain ⟨haxes, hsize, -⟩ := hreq.counts
    rw [d.toNat_axes] at hlen
    -- The count is printed with its sign.
    have hg : g = showInt d.buttons := by
      rw [fields_numbers, Joystick.mappingNumbers, List.map_cons, List.map_append,
        List.map_cons] at hfields
      have hrest := (List.cons.inj hfields).2
      obtain ⟨-, htail⟩ := List.append_inj hrest (by simp [hlen, codes])
      exact (List.cons.inj htail).1.symm
    have hscan : S.scan 0 g = d.buttons := by
      rw [hg]
      exact scan_showInt ⟨by omega, by omega⟩ 0
    rw [setMappings_ok hok] at hdone
    by_cases hremap : S.Remappable d.axmap ((S.carried 0 xs).map (BitVec.ofInt 8))
    · obtain ⟨d', he, -, -, hbtn⟩ := applyMappings_done haxes hremap
      rw [hdone, Outcome.done.injEq] at he
      rw [← he, if_neg (by simp only; omega)] at hbtn
      have hnil : (S.carried 0 ys).map (BitVec.ofInt 16) = [] := by
        refine List.eq_nil_of_length_eq_zero ?_
        simp only at hsize
        omega
      simp only [hnil] at hbtn
      have hmem : (0 : BitVec 16) ∈ d.btnmap := by
        rw [hbtn]
        exact List.mem_map.mpr ⟨0, List.mem_range.mpr (by omega), rfl⟩
      have := hbuttons 0 hmem
      simp at this
      omega
    · rw [applyMappings_fault haxes hremap] at hdone
      contradiction

/-- **The command line that `jscal -q` prints brings the mappings and the corrections back**
exactly if there are fewer than 128 buttons. -/
theorem mappings_reprinted_iff (d : Joystick S) (hdistinct : d.axmap.Nodup)
    (hcodes : ∀ c ∈ d.axmap, c.toNat ≤ S.absMax)
    (hbuttons : ∀ b ∈ d.btnmap, S.btnMisc ≤ b.toNat ∧ b.toNat ≤ S.keyMax) (devicename : Text) :
    (∃ line, printMappings (fun _ => true) d devicename = .ok line ∧
      jscal (fun _ => true) d line = some (.done d)) ↔ d.btnmap.length < 128 := by
  obtain ⟨line, hprint, hset⟩ := jscal_reprint d devicename
  constructor
  · rintro ⟨line', hprint', hdone⟩
    rw [hprint, Except.ok.injEq] at hprint'
    rw [← hprint', hset, Option.some.injEq] at hdone
    by_contra hmany
    exact reprint_many (fun b hb => (hbuttons b hb).1) (by omega) hdone
  · intro hfew
    exact ⟨line, hprint, by rw [hset, reprint_few hdistinct hcodes hbuttons hfew]⟩

theorem mappings_reprinted_twoAxes :
    ∃ line, printMappings (fun _ => true) twoAxes "js0".toList = .ok line ∧
      jscal (fun _ => true) twoAxes line = some (.done twoAxes) :=
  (mappings_reprinted_iff twoAxes (by decide) (by decide)
    (List.forall_mem_singleton.mpr ⟨by decide, by decide⟩) "js0".toList).mpr (by decide)

/-- A joystick with one axis and 128 triggers. -/
def manyButtons : Joystick linux where
  axmap := [0]
  corr := [.zero]
  btnmap := List.replicate 128 0x120
  corr_length := rfl
  axes_le := by decide
  buttons_lt := by rw [List.length_replicate]; decide

/-- The 128 buttons are printed as -128 and their map is set to zeros. -/
theorem buttons_zeroed :
    printMappings (fun _ => true) manyButtons "js0".toList =
        .ok ("jscal -u 1,0,-128 js0".toList ++ [newline]) ∧
      jscal (fun _ => true) manyButtons ("jscal -u 1,0,-128 js0".toList ++ [newline]) =
        some (.done (manyButtons.setBtnmap [])) ∧
      manyButtons.setBtnmap [] ≠ manyButtons := by
  decide +kernel

/-! ### Corrections -/

/-- The correction `c'` is `c` as far as its type says. -/
def Restored (c c' : Corr) : Prop :=
  c'.type = c.type ∧ c'.prec = c.prec ∧
    ∀ k, corrCoefNum[c.type.toNat]? = some k → ∀ j : Fin 8, j.val < k → c'.coef j = c.coef j

theorem exists_setting {c : Corr} (h : c.type.toNat ≤ 1) :
    ∃ k, ∃ a : Setting, corrCoefNum[c.type.toNat]? = some k ∧ a.values = c.values k ∧
      a.Representable ∧ ∀ c', a.Is c' → Restored c c' := by
  obtain ⟨k, hk⟩ : ∃ k, corrCoefNum[c.type.toNat]? = some k :=
    ⟨_, List.getElem?_eq_getElem (by simp [corrCoefNum]; omega)⟩
  have hle : k ≤ 8 := by
    have hmem := List.mem_of_getElem? hk
    simp only [corrCoefNum, List.mem_cons, List.not_mem_nil, or_false] at hmem
    omega
  have hlen : (((List.ofFn c.coef).take k).map BitVec.toInt).length = k := by
    rw [List.length_map, List.length_take, List.length_ofFn]
    omega
  refine ⟨k, ⟨c.type.toNat, c.prec.toInt, _, by rw [hk, hlen]⟩, hk, rfl, ⟨?_, ?_⟩, ?_⟩
  · exact ⟨BitVec.le_toInt _, BitVec.toInt_lt⟩
  · intro n hn
    obtain ⟨b, -, rfl⟩ := List.mem_map.mp hn
    exact ⟨BitVec.le_toInt _, BitVec.toInt_lt⟩
  · rintro c' ⟨htype, hprec, hcoefs⟩
    refine ⟨BitVec.eq_of_toNat_eq htype, BitVec.eq_of_toInt_eq hprec, fun k' hk' j hj => ?_⟩
    rw [hk, Option.some.injEq] at hk'
    subst hk'
    simp only [hlen] at hcoefs
    have hget := congrArg (·[j.val]?) hcoefs
    simp only [List.getElem?_map, List.getElem?_take, hj, if_true, List.getElem?_ofFn, j.isLt,
      dif_pos, Option.map_some, Option.some.injEq] at hget
    exact BitVec.eq_of_toInt_eq hget

/-- **Corrections of type 0 and 1 are printed** as settings. -/
theorem corrText_settings {cs : List Corr} (h : ∀ c ∈ cs, c.type.toNat ≤ 1) :
    ∃ as : List Setting, corrText cs = .ok (commaText (as.flatMap Setting.values)) ∧
      List.Forall₂ (fun c a => a.Representable ∧ ∀ c', a.Is c' → Restored c c') cs as := by
  induction cs with
  | nil => exact ⟨[], rfl, .nil⟩
  | cons c cs ih =>
    obtain ⟨k, a, hk, hvalues, hfits, hback⟩ := exists_setting (h c List.mem_cons_self)
    obtain ⟨as, htext, has⟩ := ih fun c' hc' => h c' (List.mem_cons_of_mem _ hc')
    refine ⟨a :: as, ?_, .cons ⟨hfits, hback⟩ has⟩
    simp only [corrText, hk, htext, List.flatMap_cons, commaText_append, hvalues]
    rfl

/-- **The command line that `jscal -p` prints brings the corrections back**: for every axis
the type, the precision and the coefficients that the type has, whatever was set before. -/
theorem corrections_reprinted (d d' : Joystick S) (hsame : d'.axmap.length = d.axmap.length)
    (htypes : ∀ c ∈ d.corr, c.type.toNat ≤ 1) (devicename : Text) :
    ∃ line e, printSettings (fun _ => true) d devicename = .ok line ∧
      jscal (fun _ => true) d' line = some (.done e) ∧ List.Forall₂ Restored d.corr e.corr ∧
      e.axmap = d'.axmap ∧ e.btnmap = d'.btnmap := by
  obtain ⟨as, htext, has⟩ := corrText_settings htypes
  have hprint : printSettings (fun _ => true) d devicename =
      .ok ("jscal -s ".toList ++ (showInt d.axmap.length ++ commaText (as.flatMap Setting.values) ++
        blank :: (devicename ++ [newline]))) := by
    have hall : d.corr.take d.axmap.length = d.corr := by rw [← d.corr_length, List.take_length]
    simp only [printSettings, d.signedChar_axes, Int.toNat_natCast, hall, htext]
    simp [Except.map]
  have hblank : blank ∉ showInt d.axmap.length ++ commaText (as.flatMap Setting.values) := by
    intro h
    rcases List.mem_append.mp h with h | h
    · exact blank_notMem_showInt _ h
    · exact blank_notMem_commaText _ h
  have hdoc : DocumentedCorrection d'.axmap.length
      (showInt d.axmap.length ++ commaText (as.flatMap Setting.values)) as :=
    ⟨by rw [← has.length_eq, d.corr_length, hsame], by rw [decimal_numbers, hsame]⟩
  have hfits : ∀ a ∈ as, a.Representable := fun a ha => by
    obtain ⟨i, hi, rfl⟩ := List.getElem_of_mem ha
    exact (has.get (has.length_eq ▸ hi) hi).1
  obtain ⟨e, hdone, his, haxes, hbuttons⟩ := setCorrection_documented d' hdoc hfits
  refine ⟨_, e, hprint, ?_, ?_, haxes, hbuttons⟩
  · rw [jscal_correction _ _ hblank, hdone]
  · refine List.forall₂_iff_get.mpr ⟨has.length_eq.trans his.length_eq, fun i hi hi' => ?_⟩
    have hi'' : i < as.length := has.length_eq ▸ hi
    exact (has.get hi hi'').2 _ (his.get hi'' hi')

/-- The two corrections of `twoAxes` are set again after they have been zeroed. -/
theorem corrections_reprinted_twoAxes :
    ∃ line e, printSettings (fun _ => true) twoAxes "js0".toList = .ok line ∧
      jscal (fun _ => true) (twoAxes.setCorr []) line = some (.done e) ∧
      List.Forall₂ Restored twoAxes.corr e.corr ∧ e.axmap = (twoAxes.setCorr []).axmap ∧
      e.btnmap = (twoAxes.setCorr []).btnmap :=
  corrections_reprinted twoAxes (twoAxes.setCorr []) rfl (by decide) "js0".toList

end LinuxConsole.Jscal
