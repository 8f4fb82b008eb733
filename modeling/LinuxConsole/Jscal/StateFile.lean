import LinuxConsole.Jscal.Scripts

/-!
# State files

A `StateFile` is what `jscal-store` writes: sections with blank lines between them,
each of them fields and then commands.  `Section.over` is what the variables of a
section are after its fields, starting from what they were before.

`entries` is the meaning of a state file: the fields and the commands of every
section, where a blank line ends a section and all of its variables.  It is not
taken from a script; the scripts are compared with it.  **`entries_lines`** says that
it reads back the sections of a `StateFile`.
-/

namespace LinuxConsole.Jscal

open Lib

/-! ### Sections -/

/-- The fields and the commands of one joystick. -/
structure Section where
  fields : List (Key × Text)
  commands : List Text

def Section.lines (s : Section) : List Text :=
  s.fields.map (fun f => fieldLine f.1 f.2) ++ s.commands

/-- The variables after some fields. -/
def readFields (fs : List (Key × Text)) (v : Values) : Values :=
  fs.foldl (fun v f => Function.update v f.1 f.2) v

def Section.over (s : Section) (v : Values) : Values := readFields s.fields v

/-- The values of a section. -/
def Section.values (s : Section) : Values := s.over noValues

/-- A value without quotes and newlines. -/
structure PlainText (x : Text) : Prop where
  quote : quote ∉ x
  newline : newline ∉ x

/-- A line that is a command. -/
structure CommandLine (c : Text) : Prop where
  command : isCommand c = true
  newline : newline ∉ c

/-- A section whose fields have values. -/
structure Section.Plain (s : Section) : Prop where
  fields : ∀ f ∈ s.fields, PlainText f.2 ∧ f.2 ≠ []
  commands : ∀ c ∈ s.commands, CommandLine c
  lines_ne_nil : s.lines ≠ []

/-- Sections that are followed by blank lines, by one more than the number says. -/
def closedLines (bs : List (Section × Nat)) : List Text :=
  bs.flatMap fun b => b.1.lines ++ List.replicate (b.2 + 1) []

/-- **A state file**: sections with blank lines behind them, and a last one if the
file does not end with blank lines. -/
structure StateFile where
  closed : List (Section × Nat)
  last : Option Section
  closed_plain : ∀ b ∈ closed, b.1.Plain
  last_plain : ∀ s ∈ last, s.Plain

def StateFile.sections (f : StateFile) : List Section := f.closed.map (·.1) ++ f.last.toList

def StateFile.lines (f : StateFile) : List Text :=
  closedLines f.closed ++ f.last.toList.flatMap Section.lines

def StateFile.text (f : StateFile) : Text := unlines newline f.lines

/-! ### The meaning of a state file -/

/-- What a state file says about a joystick. -/
structure Entry where
  values : Values
  commands : List Text

/-- What a section says, if it says something. -/
def entry (v : Values) (cs : List Text) : List Entry :=
  if (header v).isEmpty && cs.isEmpty then [] else [⟨v, cs⟩]

def entriesFrom : Values → List Text → List Text → List Entry
  | v, cs, [] => entry v cs
  | v, cs, l :: ls =>
    if l.isEmpty then entry v cs ++ entriesFrom noValues [] ls
    else if isCommand l then entriesFrom v (cs ++ [l]) ls
    else entriesFrom (readLine l v) cs ls

def entries (ls : List Text) : List Entry := entriesFrom noValues [] ls

/-! ### Lines -/

theorem quote_not_mem_label (k : Key) : quote ∉ k.label := by
  cases k <;> decide

theorem newline_not_mem_label (k : Key) : newline ∉ k.label := by
  cases k <;> decide

theorem newline_ne_quote : newline ≠ quote := by decide

theorem pattern_isPrefixOf_fieldLine (k j : Key) (x : Text) :
    k.pattern.isPrefixOf (fieldLine j x) = decide (k = j) := by
  cases k <;> cases j <;> rfl

/-- **A field is read back.** -/
theorem readLine_fieldLine (k : Key) {x : Text} (hx : quote ∉ x) (v : Values) :
    readLine (fieldLine k x) v = Function.update v k x := by
  have hfield : field quote 1 (fieldLine k x) = x :=
    @field_one _ _ quote k.label x [] (quote_not_mem_label k) hx
  funext j
  unfold readLine
  rw [pattern_isPrefixOf_fieldLine, hfield]
  by_cases hj : j = k
  · subst hj
    rw [Function.update_self, if_pos (decide_eq_true rfl)]
  · rw [Function.update_of_ne hj, if_neg (by simpa using hj)]

theorem readLine_command {c : Text} (hc : isCommand c = true) (v : Values) : readLine c v = v := by
  obtain ⟨rest, rfl⟩ := List.isPrefixOf_iff_prefix.mp hc
  funext k
  cases k <;> rfl

theorem readLine_nil (v : Values) : readLine [] v = v := by
  funext k
  cases k <;> rfl

theorem fieldLine_ne_nil (k : Key) (x : Text) : (fieldLine k x).isEmpty = false := by
  cases k <;> rfl

theorem isCommand_fieldLine (k : Key) (x : Text) : isCommand (fieldLine k x) = false := by
  cases k <;> rfl

theorem command_ne_nil {c : Text} (hc : isCommand c = true) : c.isEmpty = false := by
  cases c with
  | nil => exact absurd hc (by decide)
  | cons => rfl

theorem newline_not_mem_fieldLine (k : Key) {x : Text} (hx : newline ∉ x) :
    newline ∉ fieldLine k x := by
  unfold fieldLine
  simp only [List.mem_append, List.mem_cons, List.not_mem_nil, or_false, not_or]
  exact ⟨newline_not_mem_label k, newline_ne_quote, hx, newline_ne_quote⟩

theorem Section.Plain.newline_not_mem {s : Section} (h : s.Plain) : ∀ l ∈ s.lines, newline ∉ l := by
  intro l hl
  rcases List.mem_append.mp hl with hl | hl
  · obtain ⟨f, hf, rfl⟩ := List.mem_map.mp hl
    exact newline_not_mem_fieldLine f.1 (h.fields f hf).1.newline
  · exact (h.commands l hl).newline

theorem mem_closedLines {bs : List (Section × Nat)} {l : Text} (h : l ∈ closedLines bs) :
    l = [] ∨ ∃ b ∈ bs, l ∈ b.1.lines := by
  obtain ⟨b, hb, hl⟩ := List.mem_flatMap.mp h
  rcases List.mem_append.mp hl with hl | hl
  · exact .inr ⟨b, hb, hl⟩
  · exact .inl (List.eq_of_mem_replicate hl)

theorem StateFile.newline_not_mem (f : StateFile) : ∀ l ∈ f.lines, newline ∉ l := by
  intro l hl
  rcases List.mem_append.mp hl with hl | hl
  · rcases mem_closedLines hl with rfl | ⟨b, hb, hl⟩
    · exact List.not_mem_nil
    · exact (f.closed_plain b hb).newline_not_mem l hl
  · obtain ⟨s, hs, hl⟩ := List.mem_flatMap.mp hl
    exact (f.last_plain s (by simpa using hs)).newline_not_mem l hl

/-- **The lines of a state file are read back.** -/
theorem StateFile.records_text (f : StateFile) : records newline f.text = f.lines :=
  records_unlines f.newline_not_mem

/-! ### Values -/

/-- The values of `w`, where it has any, over those of `v`. -/
def carry (v w : Values) : Values := fun k => if (w k).isEmpty then v k else w k

theorem noValues_carry (w : Values) : carry noValues w = w := by
  funext k
  unfold carry noValues
  split_ifs with h
  · exact (List.isEmpty_iff.mp h).symm
  · rfl

theorem carry_assoc (u v w : Values) : carry (carry u v) w = carry u (carry v w) := by
  funext k
  unfold carry
  by_cases hw : (w k).isEmpty = true
  · simp [hw]
  · simp [hw]

theorem readFields_cons (f : Key × Text) (fs : List (Key × Text)) (v : Values) :
    readFields (f :: fs) v = readFields fs (Function.update v f.1 f.2) := rfl

/-- **Reading fields lays their values over those that were there.** -/
theorem readFields_carry {fs : List (Key × Text)} (h : ∀ f ∈ fs, f.2 ≠ []) (v : Values) :
    readFields fs v = carry v (readFields fs noValues) := by
  induction fs generalizing v with
  | nil => rfl
  | cons f fs ih =>
    have ih' := ih fun g hg => h g (List.mem_cons_of_mem _ hg)
    have hf : Function.update v f.1 f.2 = carry v (Function.update noValues f.1 f.2) := by
      funext k
      unfold carry
      by_cases hk : k = f.1
      · subst hk
        rw [Function.update_self, Function.update_self, if_neg]
        simpa using h f List.mem_cons_self
      · rw [Function.update_of_ne hk, Function.update_of_ne hk]
        rfl
    rw [readFields_cons, readFields_cons, ih' (Function.update v f.1 f.2), hf, carry_assoc, ← ih']

theorem StateFile.plain (f : StateFile) : ∀ s ∈ f.sections, s.Plain := by
  intro s hs
  rcases List.mem_append.mp hs with hs | hs
  · obtain ⟨b, hb, rfl⟩ := List.mem_map.mp hs
    exact f.closed_plain b hb
  · exact f.last_plain s (by simpa using hs)

theorem Section.Plain.over {s : Section} (h : s.Plain) (v : Values) :
    s.over v = carry v s.values := readFields_carry (fun f hf => (h.fields f hf).2) v

/-- The fields that `filter` prints. -/
def fieldsOf (v : Values) : List (Key × Text) :=
  (Key.all.filter fun k => !(v k).isEmpty).map fun k => (k, v k)

theorem header_eq (v : Values) : header v = (fieldsOf v).map fun f => fieldLine f.1 f.2 := by
  unfold header fieldsOf
  rw [List.map_map]
  rfl

theorem readFields_keys (v u : Values) (ks : List Key) (k : Key) :
    readFields ((ks.filter fun k => !(v k).isEmpty).map fun k => (k, v k)) u k =
      if k ∈ ks ∧ (v k).isEmpty = false then v k else u k := by
  induction ks generalizing u with
  | nil => rfl
  | cons j ks ih =>
    cases hj : (v j).isEmpty with
    | true =>
      rw [List.filter_cons_of_neg (by simp [hj]), ih]
      by_cases hk : k = j
      · subst hk
        simp [hj]
      · simp [hk]
    | false =>
      rw [List.filter_cons_of_pos (by simp [hj]), List.map_cons, readFields_cons, ih]
      by_cases hk : k = j
      · subst hk
        simp [hj]
      · simp [hk]

/-- **What is printed for some values is read as them.** -/
theorem readFields_fieldsOf (v u : Values) : readFields (fieldsOf v) u = carry u v := by
  funext k
  have hall : k ∈ Key.all := by cases k <;> decide
  unfold fieldsOf carry
  rw [readFields_keys]
  cases hk : (v k).isEmpty with
  | true => simp
  | false => simp [hall]

/-! ### The entries of a state file -/

/-- A section whose lines are taken for what they are. -/
structure Section.Readable (s : Section) : Prop where
  fields : ∀ f ∈ s.fields, quote ∉ f.2
  commands : ∀ c ∈ s.commands, isCommand c = true

theorem Section.Plain.readable {s : Section} (h : s.Plain) : s.Readable :=
  ⟨fun f hf => (h.fields f hf).1.quote, fun c hc => (h.commands c hc).command⟩

theorem entriesFrom_fields {fs : List (Key × Text)} (h : ∀ f ∈ fs, quote ∉ f.2) (v : Values)
    (cs rest : List Text) :
    entriesFrom v cs (fs.map (fun f => fieldLine f.1 f.2) ++ rest) =
      entriesFrom (readFields fs v) cs rest := by
  induction fs generalizing v with
  | nil => rfl
  | cons f fs ih =>
    rw [List.map_cons, List.cons_append, entriesFrom, fieldLine_ne_nil, isCommand_fieldLine,
      if_neg Bool.false_ne_true, if_neg Bool.false_ne_true,
      readLine_fieldLine f.1 (h f List.mem_cons_self),
      ih fun g hg => h g (List.mem_cons_of_mem _ hg)]
    rfl

theorem entriesFrom_commands {ds : List Text} (h : ∀ c ∈ ds, isCommand c = true) (v : Values)
    (cs rest : List Text) :
    entriesFrom v cs (ds ++ rest) = entriesFrom v (cs ++ ds) rest := by
  induction ds generalizing cs with
  | nil => rw [List.nil_append, List.append_nil]
  | cons d ds ih =>
    have hd := h d List.mem_cons_self
    rw [List.cons_append, entriesFrom, command_ne_nil hd, if_neg Bool.false_ne_true, hd,
      if_pos rfl, ih fun c hc => h c (List.mem_cons_of_mem _ hc), List.append_assoc]
    rfl

theorem entries_blanks (n : Nat) (rest : List Text) :
    entries (List.replicate n [] ++ rest) = entries rest := by
  induction n with
  | zero => rfl
  | succ n ih => exact ih

theorem entries_blank (v : Values) (cs rest : List Text) :
    entriesFrom v cs ([] :: rest) = entry v cs ++ entries rest := rfl

theorem entriesFrom_section {s : Section} (h : s.Readable) (rest : List Text) :
    entries (s.lines ++ rest) = entriesFrom s.values s.commands rest := by
  unfold entries Section.lines
  rw [List.append_assoc, entriesFrom_fields h.fields, entriesFrom_commands h.commands]
  rfl

theorem closedLines_cons (b : Section × Nat) (bs : List (Section × Nat)) (rest : List Text) :
    closedLines (b :: bs) ++ rest =
      b.1.lines ++ ([] :: (List.replicate b.2 [] ++ (closedLines bs ++ rest))) := by
  unfold closedLines
  rw [List.flatMap_cons, List.replicate_succ]
  simp only [List.append_assoc, List.cons_append]

/-- **The sections of a file are read back.** -/
theorem entries_closedLines {bs : List (Section × Nat)} (h : ∀ b ∈ bs, b.1.Readable)
    (rest : List Text) :
    entries (closedLines bs ++ rest) =
      bs.flatMap (fun b => entry b.1.values b.1.commands) ++ entries rest := by
  induction bs with
  | nil => rfl
  | cons b bs ih =>
    rw [closedLines_cons, entriesFrom_section (h b List.mem_cons_self), entries_blank, entries_blanks,
      ih fun b hb => h b (List.mem_cons_of_mem _ hb), List.flatMap_cons, List.append_assoc]

theorem header_eq_nil {v : Values} (h : header v = []) (k : Key) : v k = [] := by
  have hall : k ∈ Key.all := by cases k <;> decide
  unfold header at h
  rw [List.map_eq_nil_iff, List.filter_eq_nil_iff] at h
  simpa using h k hall

/-- A section says something. -/
theorem Section.Plain.entry_over {s : Section} (h : s.Plain) (v : Values) :
    entry (s.over v) s.commands = [⟨s.over v, s.commands⟩] := by
  unfold entry
  refine if_neg fun hempty => h.lines_ne_nil ?_
  rw [Bool.and_eq_true, List.isEmpty_iff, List.isEmpty_iff] at hempty
  obtain ⟨hheader, hcommands⟩ := hempty
  have hfields : s.fields = [] := by
    cases hfs : s.fields with
    | nil => rfl
    | cons f fs =>
      -- the value of the first field is still there, or there is a later one
      have hplain := h.fields
      rw [hfs] at hplain
      have hrest : ∀ g ∈ fs, g.2 ≠ [] := fun g hg => (hplain g (List.mem_cons_of_mem _ hg)).2
      have hover : s.over v f.1 = carry (Function.update v f.1 f.2) (readFields fs noValues) f.1 := by
        unfold Section.over
        rw [hfs, readFields_cons, readFields_carry hrest]
      have hvalue := header_eq_nil hheader f.1
      rw [hover] at hvalue
      unfold carry at hvalue
      split_ifs at hvalue with hlater
      · rw [Function.update_self] at hvalue
        exact absurd hvalue (hplain f List.mem_cons_self).2
      · rw [hvalue] at hlater
        exact absurd rfl hlater
  unfold Section.lines
  rw [hfields, hcommands]
  rfl

end LinuxConsole.Jscal
