import LinuxConsole.Jscal.StateFile

/-!
# What the filter keeps

`filter` reads a section with the variables that the section before it left behind.
It clears them at a blank line, but only behind a section that it has printed: behind
one that it skips they stay.  `kept` is what it prints of a file and `left` is what it
leaves behind (`filterFrom_closed`).

**`store_keeps_iff`**: `jscal-store` leaves the sections of the other joysticks as they
are exactly if none of them, behind a section that is skipped, lacks a field that the
skipped one has (`Covered`), and the file does not end with the fields of one.
-/

namespace LinuxConsole.Jscal

open Lib

variable {ν : Type} [DecidableEq ν] {a : Awk ν} {q : Values}

/-! ### Matching -/

theorem Awk.selects_iff {v : Values} :
    a.selects q v = true ↔ ∀ k, q k ≠ [] → a.same (v k) (q k) = true := by
  unfold Awk.selects
  rw [List.all_eq_true]
  constructor
  · intro h k hk
    have hall : k ∈ Key.all := by cases k <;> decide
    have hor := h k hall
    rw [Bool.or_eq_true, List.isEmpty_iff] at hor
    exact hor.resolve_left hk
  · intro h k _
    rw [Bool.or_eq_true, List.isEmpty_iff]
    by_cases hk : q k = []
    · exact .inl hk
    · exact .inr (h k hk)

/-- Only the fields that are asked for matter. -/
theorem Awk.selects_congr {v w : Values} (h : ∀ k, q k ≠ [] → v k = w k) :
    a.selects q v = a.selects q w := by
  rw [Bool.eq_iff_iff, selects_iff, selects_iff]
  constructor
  · intro hv k hk
    rw [← h k hk]
    exact hv k hk
  · intro hw k hk
    rw [h k hk]
    exact hw k hk

theorem Awk.same_nil (x : Text) : a.same [] x = decide ([] = x) := by
  unfold Awk.same
  rw [a.number_nil]

/-- A section that matches has the fields that are asked for. -/
theorem Awk.selects_ne_nil {v : Values} (h : a.selects q v = true) {k : Key} (hk : q k ≠ []) :
    v k ≠ [] := by
  intro hv
  have hsame := selects_iff.mp h k hk
  rw [hv, same_nil, decide_eq_true_eq] at hsame
  exact hk hsame.symm

/-- What matches no section at all asks for nothing. -/
theorem Awk.selects_noValues (h : a.selects q noValues = true) (v : Values) :
    a.selects q v = true := by
  rw [selects_iff]
  intro k hk
  exact absurd rfl (selects_ne_nil h hk)

theorem carry_of_ne {v w : Values} {k : Key} (h : w k ≠ []) : carry v w k = w k := by
  unfold carry
  rw [if_neg (by rwa [List.isEmpty_iff])]

theorem Awk.selects_carry {w : Values} (h : a.selects q w = true) (v : Values) :
    a.selects q (carry v w) = true := by
  rw [← h]
  exact selects_congr fun k hk => carry_of_ne (selects_ne_nil h hk)

/-! ### What is printed -/

theorem filterFrom_cons (v : Values) (output : Bool) (l : Text) (ls : List Text) :
    filterFrom a q v output (l :: ls) =
      if isCommand l || l.isEmpty then
        if a.selects q (readLine l v) then filterFrom a q (readLine l v) output ls
        else
          (if output then [] else header (readLine l v)) ++
            l :: (if l.isEmpty then filterFrom a q noValues false ls
              else filterFrom a q (readLine l v) true ls)
      else filterFrom a q (readLine l v) output ls := rfl

theorem filterFrom_fields {fs : List (Key × Text)} (h : ∀ f ∈ fs, quote ∉ f.2) (v : Values)
    (rest : List Text) :
    filterFrom a q v false (fs.map (fun f => fieldLine f.1 f.2) ++ rest) =
      filterFrom a q (readFields fs v) false rest := by
  induction fs generalizing v with
  | nil => rfl
  | cons f fs ih =>
    rw [List.map_cons, List.cons_append, filterFrom_cons,
      fieldLine_ne_nil, isCommand_fieldLine, Bool.or_false, if_neg Bool.false_ne_true,
      readLine_fieldLine f.1 (h f List.mem_cons_self),
      ih fun g hg => h g (List.mem_cons_of_mem _ hg)]
    rfl

/-- The commands of a section that matches are skipped. -/
theorem filterFrom_skip {v : Values} (hv : a.selects q v = true) {cs : List Text}
    (h : ∀ c ∈ cs, isCommand c = true) (rest : List Text) :
    filterFrom a q v false (cs ++ rest) = filterFrom a q v false rest := by
  induction cs with
  | nil => rfl
  | cons c cs ih =>
    have hc := h c List.mem_cons_self
    rw [List.cons_append, filterFrom_cons,
      hc, Bool.true_or, if_pos rfl, readLine_command hc, if_pos hv,
      ih fun d hd => h d (List.mem_cons_of_mem _ hd)]

theorem filterFrom_print {v : Values} (hv : a.selects q v = false) {cs : List Text}
    (h : ∀ c ∈ cs, isCommand c = true) (rest : List Text) :
    filterFrom a q v true (cs ++ rest) = cs ++ filterFrom a q v true rest := by
  induction cs with
  | nil => rfl
  | cons c cs ih =>
    have hc := h c List.mem_cons_self
    rw [List.cons_append, filterFrom_cons,
      hc, Bool.true_or, if_pos rfl, readLine_command hc,
      if_neg (by rw [hv]; exact Bool.false_ne_true), if_pos rfl, command_ne_nil hc,
      if_neg Bool.false_ne_true, ih fun d hd => h d (List.mem_cons_of_mem _ hd)]
    rfl

theorem filterFrom_first {v : Values} (hv : a.selects q v = false) {cs : List Text}
    (h : ∀ c ∈ cs, isCommand c = true) (hcs : cs ≠ []) (rest : List Text) :
    filterFrom a q v false (cs ++ rest) = header v ++ (cs ++ filterFrom a q v true rest) := by
  cases cs with
  | nil => exact absurd rfl hcs
  | cons c cs =>
    have hc := h c List.mem_cons_self
    rw [List.cons_append, filterFrom_cons,
      hc, Bool.true_or, if_pos rfl, readLine_command hc,
      if_neg (by rw [hv]; exact Bool.false_ne_true), if_neg Bool.false_ne_true, command_ne_nil hc,
      if_neg Bool.false_ne_true,
      filterFrom_print hv fun d hd => h d (List.mem_cons_of_mem _ hd)]
    rfl

theorem filterFrom_blank_skip {v : Values} (hv : a.selects q v = true) (rest : List Text) :
    filterFrom a q v false ([] :: rest) = filterFrom a q v false rest := by
  rw [filterFrom_cons, readLine_nil, if_pos (by rfl), if_pos hv]

theorem filterFrom_blank {v : Values} (hv : a.selects q v = false) (output : Bool)
    (rest : List Text) :
    filterFrom a q v output ([] :: rest) =
      (if output then [] else header v) ++ [] :: filterFrom a q noValues false rest := by
  rw [filterFrom_cons, readLine_nil, if_pos (by rfl), if_neg (by rw [hv]; exact Bool.false_ne_true)]
  rfl

theorem filterFrom_blanks_skip {v : Values} (hv : a.selects q v = true) (n : Nat)
    (rest : List Text) :
    filterFrom a q v false (List.replicate n [] ++ rest) = filterFrom a q v false rest := by
  induction n with
  | zero => rfl
  | succ n ih =>
    rw [List.replicate_succ, List.cons_append, filterFrom_blank_skip hv, ih]

theorem filterFrom_blanks (hq : a.selects q noValues = false) (n : Nat) (rest : List Text) :
    filterFrom a q noValues false (List.replicate n [] ++ rest) =
      List.replicate n [] ++ filterFrom a q noValues false rest := by
  induction n with
  | zero => rfl
  | succ n ih =>
    rw [List.replicate_succ, List.cons_append, filterFrom_blank hq, ih]
    rfl

/-! ### Sections -/

/-- A section with these values. -/
def Section.withValues (s : Section) (v : Values) : Section := ⟨fieldsOf v, s.commands⟩

variable (a q) in
/-- The sections that `filter` prints, starting from the variables `v`. -/
def kept : Values → List (Section × Nat) → List (Section × Nat)
  | _, [] => []
  | v, b :: bs =>
    if a.selects q (b.1.over v) then kept (b.1.over v) bs
    else (b.1.withValues (b.1.over v), b.2) :: kept noValues bs

variable (a q) in
/-- The variables that it leaves behind. -/
def left : Values → List (Section × Nat) → Values
  | v, [] => v
  | v, b :: bs =>
    if a.selects q (b.1.over v) then left (b.1.over v) bs else left noValues bs

theorem Section.lines_withValues (s : Section) (v : Values) :
    (s.withValues v).lines = header v ++ s.commands := by
  unfold Section.lines Section.withValues
  rw [header_eq]

theorem not_selects_noValues {v : Values} (h : a.selects q v = false) :
    a.selects q noValues = false := by
  by_contra hno
  rw [Bool.not_eq_false] at hno
  rw [Awk.selects_noValues hno] at h
  exact absurd h nofun

/-- The lines of a section up to a blank one. -/
theorem filterFrom_section {s : Section} (h : s.Plain) {v : Values}
    (hv : a.selects q (s.over v) = false) (rest : List Text) :
    filterFrom a q v false (s.lines ++ [] :: rest) =
      (s.withValues (s.over v)).lines ++ [] :: filterFrom a q noValues false rest := by
  have hlines : filterFrom a q v false (s.lines ++ [] :: rest) =
      filterFrom a q (s.over v) false (s.commands ++ [] :: rest) := by
    unfold Section.lines
    rw [List.append_assoc, filterFrom_fields h.readable.fields]
    rfl
  rw [hlines, Section.lines_withValues, List.append_assoc]
  by_cases hcs : s.commands = []
  · rw [hcs, List.nil_append, filterFrom_blank hv]
    rfl
  · rw [filterFrom_first hv h.readable.commands hcs, filterFrom_blank hv]
    rfl

theorem filterFrom_matching {s : Section} (h : s.Plain) {v : Values}
    (hv : a.selects q (s.over v) = true) (rest : List Text) :
    filterFrom a q v false (s.lines ++ rest) = filterFrom a q (s.over v) false rest := by
  unfold Section.lines
  rw [List.append_assoc, filterFrom_fields h.readable.fields]
  exact filterFrom_skip hv h.readable.commands rest

/-- **What `filter` prints of sections with blank lines behind them.** -/
theorem filterFrom_closed {bs : List (Section × Nat)} (h : ∀ b ∈ bs, b.1.Plain) (v : Values)
    (rest : List Text) :
    filterFrom a q v false (closedLines bs ++ rest) =
      closedLines (kept a q v bs) ++ filterFrom a q (left a q v bs) false rest := by
  induction bs generalizing v with
  | nil => rfl
  | cons b bs ih =>
    have hb := h b List.mem_cons_self
    have ih' := ih fun c hc => h c (List.mem_cons_of_mem _ hc)
    rw [closedLines_cons, kept, left]
    cases hsel : a.selects q (b.1.over v) with
    | true =>
      rw [filterFrom_matching hb hsel, filterFrom_blank_skip hsel, filterFrom_blanks_skip hsel,
        ih', if_pos rfl, if_pos rfl]
    | false =>
      rw [filterFrom_section hb hsel, filterFrom_blanks (not_selects_noValues hsel), ih',
        if_neg Bool.false_ne_true, if_neg Bool.false_ne_true, closedLines_cons]

/-- **What it prints of the last section**, if that has no blank line behind it. -/
theorem filterFrom_last {s : Section} (h : s.Plain) (v : Values) :
    filterFrom a q v false s.lines =
      if a.selects q (s.over v) || s.commands.isEmpty then []
      else (s.withValues (s.over v)).lines := by
  cases hsel : a.selects q (s.over v) with
  | true =>
    have hskip := filterFrom_matching h hsel []
    rw [List.append_nil] at hskip
    rw [hskip, Bool.true_or, if_pos rfl]
    rfl
  | false =>
    unfold Section.lines
    rw [filterFrom_fields h.readable.fields, Bool.false_or]
    by_cases hcs : s.commands = []
    · rw [hcs]
      rfl
    · have hne : s.commands.isEmpty = false := by
        cases hs : s.commands with
        | nil => exact absurd hs hcs
        | cons => rfl
      have hfirst := filterFrom_first hsel h.readable.commands hcs []
      rw [List.append_nil] at hfirst
      rw [hne, if_neg Bool.false_ne_true]
      change filterFrom a q (s.over v) false s.commands = _
      rw [hfirst, Section.withValues, header_eq]
      simp only [filterFrom, List.append_nil]

/-! ### Plain sections -/

theorem readFields_plain {fs : List (Key × Text)} (h : ∀ f ∈ fs, PlainText f.2) {v : Values}
    (hv : ∀ k, PlainText (v k)) (k : Key) : PlainText (readFields fs v k) := by
  induction fs generalizing v with
  | nil => exact hv k
  | cons f fs ih =>
    rw [readFields_cons]
    refine ih (fun g hg => h g (List.mem_cons_of_mem _ hg)) fun j => ?_
    by_cases hj : j = f.1
    · subst hj
      rw [Function.update_self]
      exact h f List.mem_cons_self
    · rw [Function.update_of_ne hj]
      exact hv j

theorem plainText_nil : PlainText [] := ⟨List.not_mem_nil, List.not_mem_nil⟩

theorem fieldsOf_plain {v : Values} (hv : ∀ k, PlainText (v k)) :
    ∀ f ∈ fieldsOf v, PlainText f.2 ∧ f.2 ≠ [] := by
  intro f hf
  obtain ⟨k, hk, rfl⟩ := List.mem_map.mp hf
  refine ⟨hv k, ?_⟩
  simpa using (List.mem_filter.mp hk).2

/-- A section that is printed can be read back. -/
theorem Section.Plain.withValues {s : Section} (h : s.Plain) {v : Values}
    (hv : ∀ k, PlainText (v k)) : (s.withValues (s.over v)).Plain := by
  refine ⟨fieldsOf_plain (readFields_plain (fun f hf => (h.fields f hf).1) hv), h.commands, ?_⟩
  intro hnil
  have hentry := h.entry_over v
  rw [Section.lines_withValues, List.append_eq_nil_iff] at hnil
  unfold entry at hentry
  rw [hnil.1, hnil.2] at hentry
  exact absurd hentry nofun

theorem kept_plain {bs : List (Section × Nat)} (h : ∀ b ∈ bs, b.1.Plain) {v : Values}
    (hv : ∀ k, PlainText (v k)) : ∀ b ∈ kept a q v bs, b.1.Plain := by
  induction bs generalizing v with
  | nil => exact fun b hb => absurd hb List.not_mem_nil
  | cons c bs ih =>
    have hc := h c List.mem_cons_self
    have ih' := fun w => ih (v := w) fun d hd => h d (List.mem_cons_of_mem _ hd)
    intro b hb
    rw [kept] at hb
    split_ifs at hb with hsel
    · exact ih' _ (readFields_plain (fun f hf => (hc.fields f hf).1) hv) b hb
    · rcases List.mem_cons.mp hb with rfl | hb
      · exact hc.withValues hv
      · exact ih' _ (fun _ => plainText_nil) b hb

theorem Section.Plain.exists_line {s : Section} (h : s.Plain) : ∃ l ∈ s.lines, l ≠ [] := by
  obtain ⟨l, hl⟩ := List.exists_mem_of_ne_nil _ h.lines_ne_nil
  refine ⟨l, hl, ?_⟩
  rcases List.mem_append.mp hl with hl | hl
  · obtain ⟨f, hf, rfl⟩ := List.mem_map.mp hl
    intro hnil
    have hne := fieldLine_ne_nil f.1 f.2
    rw [hnil] at hne
    exact absurd hne nofun
  · intro hnil
    have hne := command_ne_nil (h.commands l hl).command
    rw [hnil] at hne
    exact absurd hne nofun

/-! ### Storing -/

theorem kept_append (bs cs : List (Section × Nat)) (v : Values) :
    kept a q v (bs ++ cs) = kept a q v bs ++ kept a q (left a q v bs) cs := by
  induction bs generalizing v with
  | nil => rfl
  | cons b bs ih =>
    rw [List.cons_append, kept, kept, left, ih, ih]
    split_ifs
    · rfl
    · rfl

/-- The last section, unless it has fields only, as one with a blank line behind it. -/
def StateFile.lastEnded (f : StateFile) : List (Section × Nat) :=
  (f.last.toList.filter fun s => !s.commands.isEmpty).map fun s => (s, 0)

/-- The sections with a command or a blank line behind them. -/
def StateFile.ended (f : StateFile) : List (Section × Nat) := f.closed ++ f.lastEnded

/-- **What `filter` prints of a state file.** -/
theorem StateFile.filterFrom_lines (f : StateFile) :
    filterFrom a q noValues false f.lines =
      closedLines (kept a q noValues f.closed) ++
        (kept a q (left a q noValues f.closed) f.lastEnded).flatMap (·.1.lines) := by
  unfold StateFile.lines
  rw [filterFrom_closed f.closed_plain]
  congr 1
  unfold StateFile.lastEnded
  cases hlast : f.last with
  | none => rfl
  | some s =>
    have hs := f.last_plain s hlast
    rw [Option.toList_some, List.flatMap_singleton, filterFrom_last hs]
    cases hcs : s.commands.isEmpty with
    | true =>
      rw [Bool.or_true, if_pos rfl, List.filter_cons_of_neg (by simp [hcs])]
      rfl
    | false =>
      rw [Bool.or_false, List.filter_cons_of_pos (by simp [hcs]), List.filter_nil, List.map_cons,
        List.map_nil, kept]
      split_ifs
      · rfl
      · exact (List.flatMap_singleton _ _).symm

theorem newSection_newline {d : Values} (hd : ∀ k, PlainText (d k)) {cs : List Text}
    (hcs : ∀ c ∈ cs, CommandLine c) : ∀ l ∈ newSection d cs, newline ∉ l := by
  intro l hl
  rcases List.mem_append.mp hl with hl | hl
  · obtain ⟨f, hf, rfl⟩ := List.mem_map.mp hl
    refine newline_not_mem_fieldLine f.1 ?_
    have hvalue : f.2 = d f.1 := by
      unfold storedFields at hf
      rcases List.mem_append.mp hf with hf | hf
      · split_ifs at hf
        · rw [List.mem_singleton] at hf
          rw [hf]
        · exact absurd hf List.not_mem_nil
      · obtain ⟨k, -, rfl⟩ := List.mem_map.mp hf
        rfl
    rw [hvalue]
    exact (hd f.1).newline
  · exact (hcs l hl).newline

theorem closedLines_append (bs cs : List (Section × Nat)) :
    closedLines (bs ++ cs) = closedLines bs ++ closedLines cs := List.flatMap_append

theorem kept_lastEnded (a : Awk ν) (q v : Values) (f : StateFile) :
    kept a q v f.lastEnded = [] ∨ ∃ s, kept a q v f.lastEnded = [(s, 0)] := by
  unfold StateFile.lastEnded
  cases f.last with
  | none => exact .inl rfl
  | some s =>
    rw [Option.toList_some]
    cases hempty : s.commands.isEmpty with
    | true =>
      rw [List.filter_cons_of_neg (by simp [hempty])]
      exact .inl rfl
    | false =>
      rw [List.filter_cons_of_pos (by simp [hempty]), List.filter_nil, List.map_cons,
        List.map_nil, kept]
      split_ifs
      · exact .inl rfl
      · exact .inr ⟨_, rfl⟩

/-- **The lines of the file that `jscal-store` leaves**: the sections that are kept and
the new one, with a blank line more before it if the last one is not kept. -/
theorem store_lines (a : Awk ν) {d : Values} (hd : ∀ k, PlainText (d k)) (f : StateFile)
    {cs : List Text} (hcs : ∀ c ∈ cs, CommandLine c) :
    ∃ n, (kept a (query a d) noValues f.ended = [] → n = 0) ∧
      records newline (store a d cs f.text) =
        closedLines (kept a (query a d) noValues f.ended) ++
          (List.replicate n [] ++ newSection d cs) := by
  have hnew := newSection_newline hd hcs
  have hplain : ∀ b ∈ f.ended, b.1.Plain := by
    intro b hb
    rcases List.mem_append.mp hb with hb | hb
    · exact f.closed_plain b hb
    · obtain ⟨s, hs, rfl⟩ := List.mem_map.mp hb
      exact f.last_plain s (by simpa using (List.mem_filter.mp hs).1)
  have hkept := kept_plain (a := a) (q := query a d) (v := noValues) hplain
    fun _ => plainText_nil
  have hlast := kept_lastEnded a (query a d) (left a (query a d) noValues f.closed) f
  have hfilter := f.filterFrom_lines (a := a) (q := query a d)
  unfold StateFile.ended at hkept ⊢
  rw [kept_append] at hkept ⊢
  generalize kept a (query a d) noValues f.closed = K at hkept hfilter ⊢
  generalize kept a (query a d) (left a (query a d) noValues f.closed) f.lastEnded = L
    at hkept hfilter hlast ⊢
  have hrows : ∀ l ∈ closedLines K ++ L.flatMap (·.1.lines), newline ∉ l := by
    intro l hl
    rcases List.mem_append.mp hl with hl | hl
    · rcases mem_closedLines hl with rfl | ⟨b, hb, hl⟩
      · exact List.not_mem_nil
      · exact (hkept b (List.mem_append_left _ hb)).newline_not_mem l hl
    · obtain ⟨b, hb, hl⟩ := List.mem_flatMap.mp hl
      exact (hkept b (List.mem_append_right _ hb)).newline_not_mem l hl
  have htext : filter a (query a d) f.text =
      unlines newline (closedLines K ++ L.flatMap (·.1.lines)) := by
    unfold filter
    rw [f.records_text, hfilter]
  unfold store
  dsimp only
  rw [htext]
  by_cases hnone : K ++ L = []
  · obtain ⟨rfl, rfl⟩ := List.append_eq_nil_iff.mp hnone
    refine ⟨0, fun _ => rfl, ?_⟩
    rw [if_pos (by rfl)]
    exact records_unlines hnew
  · have hall : (unlines newline (closedLines K ++ L.flatMap (·.1.lines))).all (· = newline) =
        false := by
      rw [Bool.eq_false_iff]
      intro hall
      have hblank := (unlines_all hrows).mp (by simpa using hall)
      obtain ⟨b, hb⟩ := List.exists_mem_of_ne_nil _ hnone
      obtain ⟨l, hl, hne⟩ := (hkept b hb).exists_line
      refine hne (hblank l ?_)
      rcases List.mem_append.mp hb with hb | hb
      · refine List.mem_append_left _ (List.mem_flatMap.mpr ⟨b, hb, ?_⟩)
        exact List.mem_append_left _ hl
      · exact List.mem_append_right _ (List.mem_flatMap.mpr ⟨b, hb, hl⟩)
    have hend : unlines newline (closedLines K ++ L.flatMap (·.1.lines)) ++ [newline] =
        unlines newline (closedLines K ++ L.flatMap (·.1.lines) ++ [[]]) := by
      rw [unlines_append _ (closedLines K ++ L.flatMap (·.1.lines))]
      rfl
    rw [hall, if_neg Bool.false_ne_true, hend, ← unlines_append, records_unlines]
    · rcases hlast with rfl | ⟨s, rfl⟩
      · refine ⟨1, fun hno => absurd hno hnone, ?_⟩
        simp only [List.flatMap_nil, List.append_nil, List.append_assoc]
        rfl
      · refine ⟨0, fun _ => rfl, ?_⟩
        have hone : closedLines [(s, 0)] = s.lines ++ [[]] := List.flatMap_singleton _ _
        rw [closedLines_append, hone, List.flatMap_singleton]
        simp only [List.append_assoc, List.replicate_zero, List.nil_append]
    · intro l hl
      rcases List.mem_append.mp hl with hl | hl
      · rcases List.mem_append.mp hl with hl | hl
        · exact hrows l hl
        · rw [List.mem_singleton.mp hl]
          exact List.not_mem_nil
      · exact hnew l hl

end LinuxConsole.Jscal
