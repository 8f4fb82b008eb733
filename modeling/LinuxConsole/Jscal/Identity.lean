import LinuxConsole.Jscal.StateFile
import Mathlib.Data.List.DropRight
import Mathlib.Data.List.Infix

/-!
# The identity of a joystick

The awk script `ident` reads the attributes that udev lists for a device, section by
section, and prints the five fields of a joystick.  `jscal-store` sources what it
prints, so a shell reads the values as double-quoted strings; `jscal-restore` takes it
line by line and cuts the values out of the lines, and each line is a word in which the
shell replaces patterns by the names of files.

`Shell` is what the shells make of a text and `World` is what they meet: the values of
the expansions, the names of files.  A `$`, a backquote and a backslash are special to
the first reader, and `*`, `?` and `[` to the second, for some shells a backslash too.

**`identity_agrees_iff`**: both get what `ident` printed, whatever they meet, exactly
if all the characters of the values stand for themselves in double quotes and no line
is a pattern.
-/

namespace LinuxConsole.Jscal

open Lib

def dollar : Char := Char.ofNat 36

def backquote : Char := Char.ofNat 96

/-! ### The attributes -/

/-- What a line with the attribute contains. -/
def Key.attribute : Key → Text
  | .kernel => "KERNELS==".toList
  | .name => "ATTRS{name}".toList
  | .serial => "ATTRS{serial}".toList
  | .vendor => "ATTRS{idVendor}".toList
  | .product => "ATTRS{idProduct}".toList

/-- The variables of `ident`: `kernel`, `name`, ... and `seckernel`, `secname`, ... -/
structure Ident where
  found : Values
  sec : Values

/-- What is remembered from a section: the name and the serial number of an input
device, and the vendor and the product. -/
def remember (found sec : Values) : Values :=
  let found :=
    if "input".toList <:+: sec .kernel ∧ sec .name ≠ [] ∧ found .name = [] then
      Function.update (Function.update found .name (sec .name)) .serial (sec .serial)
    else found
  if sec .vendor ≠ [] ∧ found .vendor = [] then
    Function.update (Function.update found .vendor (sec .vendor)) .product (sec .product)
  else found

/-- The rules for a line. -/
def identLine (s : Ident) (l : Text) : Ident :=
  let found :=
    if "KERNEL==".toList <:+: l then Function.update s.found .kernel (field quote 1 l) else s.found
  let sec := fun k => if k.attribute <:+: l then field quote 1 l else s.sec k
  if l.isEmpty then ⟨remember found sec, noValues⟩ else ⟨found, sec⟩

/-- The values that `ident` prints. -/
def identity (t : Text) : Values :=
  ((records newline t).foldl identLine ⟨noValues, noValues⟩).found

/-- `ident`. -/
def ident (t : Text) : Text :=
  unlines newline (Key.all.map fun k => fieldLine k (identity t k))

/-! ### The shells -/

/-- What a backslash takes its meaning from, in double quotes. -/
def escapable : List Char := [quote, backslash, dollar, backquote]

def wildcards : List Char := "*?[".toList ++ [backslash]

/-- A `$` begins an expansion in front of it. -/
def parameterStart (c : Char) : Bool :=
  c.isAlphanum || c ∈ "_@*#?-$!".toList ++ [Char.ofNat 123, Char.ofNat 40]

/-- What the shells make of a text: the characters that the expansion at its beginning
takes, none of them if the first one stands for itself, and `none` if the expansion has
no end in it; the words that are patterns, and the names of files they cover. -/
structure Shell where
  expansion : Text → Option Nat
  pattern : Text → Bool
  covers : Text → Text → Bool
  expansion_backquote : ∀ t, expansion (backquote :: t) ≠ some 0
  expansion_dollar : ∀ c t, c ≠ '[' →
    (expansion (dollar :: c :: t) = some 0 ↔ parameterStart c = false)
  pattern_wildcard : ∀ l, pattern l = true → ∃ c ∈ l, c ∈ wildcards
  pattern_covers : ∀ k x, PlainText x → pattern (fieldLine k x) = true →
    ∃ y, PlainText y ∧ y ≠ x ∧ covers (fieldLine k x) (fieldLine k y) = true

/-- What the shells meet: the values of the expansions, each with what follows it, where
`none` is an error, the names of the files, and the variables after a text that they
cannot read as assignments. -/
structure World where
  value : Key → Text → Option Text
  names : List Text
  broken : Text → Values

variable (sh : Shell) (w : World)

/-! ### `jscal-store` -/

/-- The rest of a line as the rest of a double-quoted string, behind the characters
that the number says. -/
def readQuoted (k : Key) : Nat → Text → Option Text
  | _, [] => none
  | n + 1, _ :: t => readQuoted k n t
  | 0, c :: t =>
    if c = quote then
      if t.isEmpty then some [] else none
    else if c = backslash then
      match t.head? with
      | none => none
      | some d =>
        if d ∈ escapable then (readQuoted k 1 t).map (d :: ·) else (readQuoted k 0 t).map (c :: ·)
    else if c = dollar ∨ c = backquote then
      match sh.expansion (c :: t) with
      | none => none
      | some 0 => (readQuoted k 0 t).map (c :: ·)
      | some (n + 1) => (w.value k (c :: t)).bind fun x => (readQuoted k n t).map (x ++ ·)
    else (readQuoted k 0 t).map (c :: ·)

/-- A line as an assignment. -/
def readAssignment (l : Text) : Option (Key × Text) :=
  (Key.all.find? fun k => (k.label ++ [quote]).isPrefixOf l).bind fun k =>
    (readQuoted sh w k 0 (l.drop (k.label.length + 1))).map fun x => (k, x)

/-- `. $ident`. -/
def source (t : Text) : Values :=
  match (records newline t).mapM (readAssignment sh w) with
  | none => w.broken t
  | some fs => readFields fs noValues

/-! ### `jscal-restore` -/

/-- `cut` of a line. -/
def cut (sep : Char) (n : Nat) (l : Text) : Text := if sep ∈ l then field sep n l else l

/-- What a command substitution makes of an output. -/
def captured (t : Text) : Text := t.rdropWhile (· = newline)

/-- `$( echo "$ATTRIBUTE" | cut ... )`. -/
def cutOut (sep : Char) (n : Nat) (l : Text) : Text :=
  captured (unlines newline ((records newline (l ++ [newline])).map (cut sep n)))

/-- A word with the names of files in place of a pattern. -/
def pathnames (l : Text) : List Text :=
  if sh.pattern l ∧ w.names.any (sh.covers l) then w.names.filter (sh.covers l) else [l]

/-- The words of the loop. -/
def attributes (t : Text) : List Text :=
  ((records newline (captured t)).filter fun l => !l.isEmpty).flatMap (pathnames sh w)

/-- The variable of a field. -/
def Key.variable : Key → Text
  | .kernel => "DEVICE".toList
  | .name => "NAME".toList
  | .serial => "SERIAL".toList
  | .vendor => "VENDOR".toList
  | .product => "PRODUCT".toList

/-- The body of the loop. -/
def takeAttribute (v : Values) (l : Text) : Values :=
  fun k => if cutOut '=' 0 l = k.variable then cutOut quote 1 l else v k

/-- The loop of `jscal-restore`. -/
def takeAttributes (t : Text) : Values := (attributes sh w t).foldl takeAttribute noValues

/-! ### What `ident` prints -/

/-- No value has a quote or a newline. -/
def Values.Plain (v : Values) : Prop := ∀ k, PlainText (v k)

theorem noValues_plain : Values.Plain noValues :=
  fun _ => ⟨List.not_mem_nil, List.not_mem_nil⟩

theorem Values.Plain.update {v : Values} (h : v.Plain) (k : Key) {x : Text} (hx : PlainText x) :
    Values.Plain (Function.update v k x) := by
  intro j
  by_cases hj : j = k
  · subst hj
    rw [Function.update_self]
    exact hx
  · rw [Function.update_of_ne hj]
    exact h j

theorem plainText_field {l : Text} (h : newline ∉ l) : PlainText (field quote 1 l) :=
  ⟨mem_field.1, fun hmem => h (mem_field.2 hmem)⟩

theorem Values.Plain.ite {c : Prop} [Decidable c] {v v' : Values} (h : v.Plain) (h' : v'.Plain) :
    Values.Plain (if c then v else v') := by
  split_ifs
  · exact h
  · exact h'

theorem remember_plain {found sec : Values} (hfound : found.Plain) (hsec : sec.Plain) :
    (remember found sec).Plain := by
  have hname := (hfound.update .name (hsec .name)).update .serial (hsec .serial)
  have hfound' := hname.ite
    (c := "input".toList <:+: sec .kernel ∧ sec .name ≠ [] ∧ found .name = []) hfound
  exact Values.Plain.ite ((hfound'.update _ (hsec .vendor)).update _ (hsec .product)) hfound'

/-- Both kinds of variables of `ident`. -/
structure Ident.Plain (s : Ident) : Prop where
  found : s.found.Plain
  sec : s.sec.Plain

theorem Ident.Plain.identLine {s : Ident} (h : s.Plain) {l : Text} (hl : newline ∉ l) :
    (identLine s l).Plain := by
  have hfield := plainText_field hl
  have hfound := (h.found.update .kernel hfield).ite (c := "KERNEL==".toList <:+: l) h.found
  have hsec : Values.Plain fun k => if k.attribute <:+: l then field quote 1 l else s.sec k := by
    intro k
    dsimp only
    split_ifs
    · exact hfield
    · exact h.sec k
  simp only [Jscal.identLine]
  by_cases hempty : l.isEmpty = true
  · rw [if_pos hempty]
    exact ⟨remember_plain hfound hsec, noValues_plain⟩
  · rw [if_neg hempty]
    exact ⟨hfound, hsec⟩

theorem foldl_identLine_plain {ls : List Text} (hls : ∀ l ∈ ls, newline ∉ l) {s : Ident}
    (h : s.Plain) : (ls.foldl identLine s).Plain := by
  induction ls generalizing s with
  | nil => exact h
  | cons l ls ih =>
    exact ih (fun l' hl' => hls l' (List.mem_cons_of_mem _ hl'))
      (h.identLine (hls l List.mem_cons_self))

/-- **What is printed has neither quotes nor newlines in it**, whatever is listed. -/
theorem identity_plain (t : Text) : (identity t).Plain :=
  (foldl_identLine_plain (fun _ hl => sep_not_mem_records hl)
    ⟨noValues_plain, noValues_plain⟩).found

theorem ident_lines (t : Text) :
    ∀ l ∈ Key.all.map fun k => fieldLine k (identity t k), newline ∉ l := by
  intro l hl
  obtain ⟨k, -, rfl⟩ := List.mem_map.mp hl
  exact newline_not_mem_fieldLine k (identity_plain t k).newline

theorem records_ident (t : Text) :
    records newline (ident t) = Key.all.map fun k => fieldLine k (identity t k) :=
  records_unlines (ident_lines t)

theorem readFields_all (v u : Values) : readFields (Key.all.map fun k => (k, v k)) u = v := by
  funext k
  cases k <;> rfl

/-! ### Double-quoted strings -/

/-- The character stands for itself in front of the rest. -/
def Shell.literal (c : Char) (t : Text) : Bool :=
  if c = backslash then t.head?.all fun d => d ∉ escapable
  else if c = dollar ∨ c = backquote then sh.expansion (c :: t) = some 0
  else true

/-- All characters stand for themselves. -/
def Shell.plain : Text → Bool
  | [] => true
  | c :: t => sh.literal c t && Shell.plain t

variable {sh w} {k : Key} {t : Text}

theorem readQuoted_literal {c : Char} (hc : c ≠ quote) (ht : t ≠ []) (h : sh.literal c t = true) :
    readQuoted sh w k 0 (c :: t) = (readQuoted sh w k 0 t).map (c :: ·) := by
  obtain ⟨d, t, rfl⟩ := List.exists_cons_of_ne_nil ht
  rw [readQuoted, if_neg hc]
  unfold Shell.literal at h
  split_ifs at h ⊢ with hb hd
  · have hescape : d ∉ escapable := by simpa using h
    simp only [List.head?_cons]
    rw [if_neg hescape]
  · have hexpansion : sh.expansion (c :: d :: t) = some 0 := by simpa using h
    rw [hexpansion]
  · rfl

/-- **A string whose characters stand for themselves is read as it is.** -/
theorem readQuoted_plain {x : Text} (hx : quote ∉ x) (h : sh.plain (x ++ [quote]) = true) :
    readQuoted sh w k 0 (x ++ [quote]) = some x := by
  induction x with
  | nil => rfl
  | cons c x ih =>
    rw [List.cons_append, Shell.plain, Bool.and_eq_true] at h
    have hc : c ≠ quote := fun heq => hx (heq ▸ List.mem_cons_self)
    have hrest := ih (fun hmem => hx (List.mem_cons_of_mem _ hmem)) h.2
    have hne : x ++ [quote] ≠ [] := List.append_ne_nil_of_right_ne_nil _ (List.cons_ne_nil _ _)
    rw [List.cons_append, readQuoted_literal hc hne h.1, hrest]
    rfl

/-- **What reading a character comes to**: the end of the string, the character itself,
an escaped one, or the value of an expansion. -/
theorem readQuoted_cases {c : Char} {r : Text} (h : readQuoted sh w k 0 (c :: t) = some r) :
    (c = quote ∧ t = [] ∧ r = []) ∨
    (sh.literal c t = true ∧ ∃ r', readQuoted sh w k 0 t = some r' ∧ r = c :: r') ∨
    (∃ d r', readQuoted sh w k 1 t = some r' ∧ r = d :: r') ∨
    (∃ x n r', w.value k (c :: t) = some x ∧ readQuoted sh w k n t = some r' ∧ r = x ++ r') := by
  rw [readQuoted] at h
  unfold Shell.literal
  by_cases hq : c = quote
  · rw [if_pos hq] at h
    cases t with
    | nil => exact .inl ⟨hq, rfl, (Option.some.inj h).symm⟩
    | cons => exact nomatch h
  rw [if_neg hq] at h
  by_cases hb : c = backslash
  · rw [if_pos hb] at h ⊢
    cases t with
    | nil => exact nomatch h
    | cons d t =>
      simp only [List.head?_cons] at h ⊢
      by_cases hd : d ∈ escapable
      · rw [if_pos hd] at h
        obtain ⟨r', hr', rfl⟩ := Option.map_eq_some_iff.mp h
        exact .inr (.inr (.inl ⟨d, r', hr', rfl⟩))
      · rw [if_neg hd] at h
        obtain ⟨r', hr', rfl⟩ := Option.map_eq_some_iff.mp h
        exact .inr (.inl ⟨by simpa using hd, r', hr', rfl⟩)
  rw [if_neg hb] at h ⊢
  by_cases he : c = dollar ∨ c = backquote
  · rw [if_pos he] at h ⊢
    match hexpansion : sh.expansion (c :: t) with
    | none =>
      rw [hexpansion] at h
      exact nomatch h
    | some 0 =>
      rw [hexpansion] at h
      obtain ⟨r', hr', rfl⟩ := Option.map_eq_some_iff.mp h
      exact .inr (.inl ⟨rfl, r', hr', rfl⟩)
    | some (n + 1) =>
      rw [hexpansion] at h
      obtain ⟨x, hx, h⟩ := Option.bind_eq_some_iff.mp h
      obtain ⟨r', hr', rfl⟩ := Option.map_eq_some_iff.mp h
      exact .inr (.inr (.inr ⟨x, n, r', hx, hr', rfl⟩))
  · rw [if_neg he] at h ⊢
    obtain ⟨r', hr', rfl⟩ := Option.map_eq_some_iff.mp h
    exact .inr (.inl ⟨rfl, r', hr', rfl⟩)

/-! #### Where expansions are empty -/

/-- All expansions give the empty text, there are no files, and a text that is not read
leaves the variables empty. -/
def emptyWorld : World where
  value _ _ := some []
  names := []
  broken _ := noValues

/-- What is read is shorter by the closing quote, and by more if a character does not
stand for itself. -/
theorem readQuoted_length {n : Nat} {r : Text} (h : readQuoted sh emptyWorld k n t = some r) :
    r.length + n + 1 ≤ t.length ∧ (n = 0 → sh.plain t = false → r.length + 2 ≤ t.length) := by
  induction t generalizing n r with
  | nil => cases n <;> exact nomatch h
  | cons c t ih =>
    rw [List.length_cons]
    cases n with
    | succ n =>
      rw [readQuoted] at h
      have hlength := (ih h).1
      exact ⟨by omega, nofun⟩
    | zero =>
      rw [Shell.plain]
      rcases readQuoted_cases h with ⟨rfl, rfl, rfl⟩ | ⟨hl, r', hr', rfl⟩ | ⟨d, r', hr', rfl⟩ |
        ⟨x, n, r', hx, hr', rfl⟩
      · exact ⟨le_rfl, fun _ hplain => nomatch hplain⟩
      · obtain ⟨hlength, hshorter⟩ := ih hr'
        rw [hl, Bool.true_and, List.length_cons]
        refine ⟨by omega, fun _ hplain => ?_⟩
        have hless := hshorter rfl hplain
        omega
      · have hlength := (ih hr').1
        rw [List.length_cons]
        exact ⟨by omega, fun _ _ => by omega⟩
      · have hlength := (ih hr').1
        cases hx
        rw [List.nil_append]
        exact ⟨by omega, fun _ _ => by omega⟩

/-- **A character that does not stand for itself can be lost.** -/
theorem readQuoted_ne {x : Text} (h : sh.plain (x ++ [quote]) = false) :
    readQuoted sh emptyWorld k 0 (x ++ [quote]) ≠ some x := by
  intro hread
  have hlength := (readQuoted_length hread).2 rfl h
  rw [List.length_append, List.length_singleton] at hlength
  omega

/-! ### Sourcing -/

theorem readAssignment_fieldLine (x : Text) :
    readAssignment sh w (fieldLine k x) =
      (readQuoted sh w k 0 (x ++ [quote])).map fun y => (k, y) := by
  cases k <;> rfl

theorem mapM_fields {v : Values} {fs : List (Key × Text)} (ks : List Key)
    (h : (ks.map fun k => fieldLine k (v k)).mapM (readAssignment sh w) = some fs) :
    fs.map Prod.fst = ks ∧ ∀ f ∈ fs, readQuoted sh w f.1 0 (v f.1 ++ [quote]) = some f.2 := by
  induction ks generalizing fs with
  | nil =>
    cases h
    exact ⟨rfl, fun f hf => nomatch hf⟩
  | cons k ks ih =>
    rw [List.map_cons, List.mapM_cons, readAssignment_fieldLine] at h
    obtain ⟨f, hf, h⟩ := Option.bind_eq_some_iff.mp h
    obtain ⟨x, hx, rfl⟩ := Option.map_eq_some_iff.mp hf
    obtain ⟨gs, hgs, h⟩ := Option.bind_eq_some_iff.mp h
    cases h
    obtain ⟨hkeys, hvalues⟩ := ih hgs
    refine ⟨by rw [List.map_cons, hkeys], fun g hg => ?_⟩
    rcases List.mem_cons.mp hg with rfl | hg
    · exact hx
    · exact hvalues g hg

theorem readFields_of_not_mem {fs : List (Key × Text)} (u : Values) (h : k ∉ fs.map Prod.fst) :
    readFields fs u k = u k := by
  induction fs generalizing u with
  | nil => rfl
  | cons f fs ih =>
    rw [List.map_cons, List.mem_cons, not_or] at h
    rw [readFields_cons, ih _ h.2, Function.update_of_ne h.1]

theorem readFields_of_mem {fs : List (Key × Text)} (u : Values) (h : (fs.map Prod.fst).Nodup)
    {f : Key × Text} (hf : f ∈ fs) : readFields fs u f.1 = f.2 := by
  induction fs generalizing u with
  | nil => exact nomatch hf
  | cons g fs ih =>
    rw [List.map_cons, List.nodup_cons] at h
    rcases List.mem_cons.mp hf with rfl | hf
    · rw [readFields_cons, readFields_of_not_mem _ h.1, Function.update_self]
    · rw [readFields_cons, ih _ h.2 hf]

/-- **Values in which all characters stand for themselves are sourced.** -/
theorem source_ident (h : ∀ k, sh.plain (identity t k ++ [quote]) = true) :
    source sh w (ident t) = identity t := by
  have hline : ∀ k, readAssignment sh w (fieldLine k (identity t k)) = some (k, identity t k) := by
    intro k
    rw [readAssignment_fieldLine, readQuoted_plain (identity_plain t k).quote (h k)]
    rfl
  have hlines : (Key.all.map fun k => fieldLine k (identity t k)).mapM (readAssignment sh w) =
      some (Key.all.map fun k => (k, identity t k)) := by
    simp only [Key.all, List.map_cons, List.map_nil, List.mapM_cons, List.mapM_nil, hline]
    rfl
  rw [source, records_ident, hlines]
  exact readFields_all _ _

/-- **They are not where all expansions are empty, if one does not.** -/
theorem plain_of_source (h : source sh emptyWorld (ident t) = identity t) (k : Key) :
    sh.plain (identity t k ++ [quote]) = true := by
  rw [source, records_ident] at h
  cases hlines : (Key.all.map fun k => fieldLine k (identity t k)).mapM
      (readAssignment sh emptyWorld) with
  | none =>
    -- nothing was read, so there was nothing to be read
    rw [hlines] at h
    have hempty : identity t k = [] := congrFun h.symm k
    rw [hempty]
    rfl
  | some fs =>
    rw [hlines] at h
    obtain ⟨hkeys, hvalues⟩ := mapM_fields Key.all hlines
    have hk : k ∈ fs.map Prod.fst := by
      rw [hkeys]
      cases k <;> decide
    obtain ⟨f, hf, rfl⟩ := List.mem_map.mp hk
    have hnodup : (fs.map Prod.fst).Nodup := by
      rw [hkeys]
      decide
    have hvalue : f.2 = identity t f.1 := by
      rw [← readFields_of_mem noValues hnodup hf]
      exact congrFun h f.1
    by_contra hplain
    have hread := hvalues f hf
    rw [hvalue] at hread
    exact readQuoted_ne (Bool.eq_false_iff.mpr hplain) hread

/-! ### Cutting -/

theorem captured_concat {x : Text} (hx : newline ∉ x) : captured (x ++ [newline]) = x := by
  unfold captured
  rw [List.rdropWhile_concat_pos _ _ _ (by simp), List.rdropWhile_eq_self_iff]
  intro hne heq
  have hlast : x.getLast hne = newline := by simpa using heq
  exact hx (hlast ▸ List.getLast_mem hne)

theorem cutOut_line {sep : Char} {n : Nat} {l : Text} (hl : newline ∉ l) (hsep : sep ∈ l) :
    cutOut sep n l = field sep n l := by
  have hline : l ++ [newline] = unlines newline [l] := by
    rw [unlines_cons]
    rfl
  have hrecords : records newline (l ++ [newline]) = [l] := by
    rw [hline]
    exact records_unlines (by simpa using hl)
  have hcut : cut sep n l = field sep n l := if_pos hsep
  rw [cutOut, hrecords, List.map_singleton, hcut, unlines_cons]
  exact captured_concat fun hmem => hl (mem_field.2 hmem)

theorem cutOut_value {x : Text} (hx : PlainText x) : cutOut quote 1 (fieldLine k x) = x := by
  rw [cutOut_line (newline_not_mem_fieldLine k hx.newline) (by simp [fieldLine])]
  exact @field_one _ _ quote k.label x [] (quote_not_mem_label k) hx.quote

theorem label_eq (k : Key) : k.label = k.variable ++ ['='] := by
  cases k <;> rfl

theorem fieldLine_eq (k : Key) (x : Text) :
    fieldLine k x = k.variable ++ '=' :: quote :: (x ++ [quote]) := by
  rw [fieldLine, label_eq, List.append_assoc]
  rfl

theorem cutOut_id {x : Text} (hx : PlainText x) : cutOut '=' 0 (fieldLine k x) = k.variable := by
  have hsep : '=' ∉ k.variable := by cases k <;> decide
  rw [cutOut_line (newline_not_mem_fieldLine k hx.newline) (by simp [fieldLine_eq]), fieldLine_eq]
  exact field_zero hsep

theorem variable_inj {j k : Key} : j.variable = k.variable ↔ j = k := by
  cases j <;> cases k <;> decide

theorem takeAttribute_fieldLine {x : Text} (hx : PlainText x) (v : Values) :
    takeAttribute v (fieldLine k x) = Function.update v k x := by
  funext j
  rw [takeAttribute, cutOut_id hx, cutOut_value hx]
  by_cases hj : j = k
  · subst hj
    rw [Function.update_self, if_pos rfl]
  · rw [Function.update_of_ne hj, if_neg (fun heq => hj (variable_inj.mp heq).symm)]

theorem foldl_takeAttribute {fs : List (Key × Text)} (h : ∀ f ∈ fs, PlainText f.2) (v : Values) :
    (fs.map fun f => fieldLine f.1 f.2).foldl takeAttribute v = readFields fs v := by
  induction fs generalizing v with
  | nil => rfl
  | cons f fs ih =>
    rw [List.map_cons, List.foldl_cons, takeAttribute_fieldLine (h f List.mem_cons_self),
      ih (fun g hg => h g (List.mem_cons_of_mem _ hg)), readFields_cons]

theorem words_ident (t : Text) :
    ((records newline (captured (ident t))).filter fun l => !l.isEmpty) =
      Key.all.map fun k => fieldLine k (identity t k) := by
  have hne : ∀ k, fieldLine k (identity t k) ≠ [] := by
    intro k heq
    have hempty := fieldLine_ne_nil k (identity t k)
    rw [heq] at hempty
    exact nomatch hempty
  have hline : ∀ k, newline ∉ fieldLine k (identity t k) :=
    fun k => newline_not_mem_fieldLine k (identity_plain t k).newline
  -- the last newline is lost, and only that
  have hcaptured : captured (ident t) =
      unlines newline
        ([Key.kernel, .name, .serial, .vendor].map fun k => fieldLine k (identity t k)) ++
        fieldLine .product (identity t .product) := by
    have hlast : unlines newline [fieldLine .product (identity t .product)] =
        fieldLine .product (identity t .product) ++ [newline] := by
      rw [unlines_cons]
      rfl
    have hall : Key.all = [Key.kernel, .name, .serial, .vendor] ++ [.product] := rfl
    rw [ident, hall, List.map_append, unlines_append, List.map_singleton, hlast,
      ← List.append_assoc]
    unfold captured
    rw [List.rdropWhile_concat_pos _ _ _ (by simp), List.rdropWhile_eq_self_iff]
    intro hne' heq
    rw [List.getLast_append_of_ne_nil _ (hne _)] at heq
    have hnewline : (fieldLine .product (identity t .product)).getLast (hne _) = newline := by
      simpa using heq
    exact hline _ (hnewline ▸ List.getLast_mem (hne _))
  have hlines : ∀ l ∈ [Key.kernel, .name, .serial, .vendor].map fun k => fieldLine k (identity t k),
      newline ∉ l := by
    intro l hl
    obtain ⟨k, -, rfl⟩ := List.mem_map.mp hl
    exact hline k
  rw [hcaptured, records_unlines_append hlines (hline _) (hne _), List.filter_eq_self.mpr]
  · rfl
  · intro l hl
    rcases List.mem_append.mp hl with hl | hl
    · obtain ⟨k, -, rfl⟩ := List.mem_map.mp hl
      simp [fieldLine_ne_nil]
    · rw [List.mem_singleton.mp hl]
      simp [fieldLine_ne_nil]

theorem pathnames_eq (sh : Shell) (w : World) (l : Text) : pathnames sh w l =
    if sh.pattern l ∧ w.names.any (sh.covers l) then w.names.filter (sh.covers l) else [l] := rfl

theorem attributes_ident (sh : Shell) (w : World) (t : Text) : attributes sh w (ident t) =
    Key.all.flatMap fun k => pathnames sh w (fieldLine k (identity t k)) := by
  rw [attributes, words_ident, List.flatMap_map]

/-- **Lines that are no patterns are cut.** -/
theorem takeAttributes_ident (h : ∀ k, sh.pattern (fieldLine k (identity t k)) = false) :
    takeAttributes sh w (ident t) = identity t := by
  have hwords : ∀ k, pathnames sh w (fieldLine k (identity t k)) =
      [fieldLine k (identity t k)] := by
    intro k
    rw [pathnames_eq, h k]
    rfl
  have hfields : (Key.all.map fun k => fieldLine k (identity t k)) =
      (Key.all.map fun k => (k, identity t k)).map fun f => fieldLine f.1 f.2 := by
    rw [List.map_map]
    rfl
  have hattributes : attributes sh w (ident t) =
      Key.all.map fun k => fieldLine k (identity t k) := by
    rw [attributes_ident]
    simp only [hwords]
    exact List.map_eq_flatMap.symm
  rw [takeAttributes, hattributes, hfields, foldl_takeAttribute]
  · exact readFields_all _ _
  · intro f hf
    obtain ⟨k, -, rfl⟩ := List.mem_map.mp hf
    exact identity_plain t k

/-! #### Where there is one file -/

def oneFile (l : Text) : World := { emptyWorld with names := [l] }

theorem mem_pathnames {l l' x : Text} (h : x ∈ pathnames sh (oneFile l) l') : x = l' ∨ x = l := by
  rw [pathnames_eq] at h
  split_ifs at h
  · exact .inr (List.mem_singleton.mp (List.mem_filter.mp h).1)
  · exact .inl (List.mem_singleton.mp h)

theorem foldl_takeAttribute_eq {x : Text} (hx : PlainText x) {v : Values} (hv : v.Plain)
    {ls : List Text} (hls : ∀ l ∈ ls, l = fieldLine k x ∨ ∃ j ≠ k, l = fieldLine j (v j))
    {u : Values} (h : u k = x ∨ fieldLine k x ∈ ls) : ls.foldl takeAttribute u k = x := by
  induction ls generalizing u with
  | nil => exact h.resolve_right List.not_mem_nil
  | cons l ls ih =>
    have hrest := fun l hl => hls l (List.mem_cons_of_mem _ hl)
    rw [List.foldl_cons]
    apply ih hrest
    rcases hls l List.mem_cons_self with rfl | ⟨j, hj, rfl⟩
    · rw [takeAttribute_fieldLine hx, Function.update_self]
      exact .inl rfl
    · rw [takeAttribute_fieldLine (hv j), Function.update_of_ne hj.symm]
      refine h.imp_right fun hmem => (List.mem_cons.mp hmem).resolve_left fun heq => ?_
      have hid := congrArg (cutOut '=' 0) heq
      rw [cutOut_id hx, cutOut_id (hv j)] at hid
      exact hj (variable_inj.mp hid).symm

/-- **A line that is a pattern can be lost.** -/
theorem pattern_of_takeAttributes
    (h : ∀ l, takeAttributes sh (oneFile l) (ident t) = identity t) (k : Key) :
    sh.pattern (fieldLine k (identity t k)) = false := by
  by_contra hpattern
  have hpattern : sh.pattern (fieldLine k (identity t k)) = true := by simpa using hpattern
  obtain ⟨y, hy, hne, hcovers⟩ := sh.pattern_covers k _ (identity_plain t k) hpattern
  have hword : pathnames sh (oneFile (fieldLine k y)) (fieldLine k (identity t k)) =
      [fieldLine k y] := by
    simp [pathnames_eq, oneFile, hpattern, hcovers]
  have hmem : fieldLine k y ∈ attributes sh (oneFile (fieldLine k y)) (ident t) := by
    rw [attributes_ident]
    refine List.mem_flatMap.mpr ⟨k, by cases k <;> decide, ?_⟩
    rw [hword]
    exact List.mem_singleton_self _
  have hwords : ∀ l ∈ attributes sh (oneFile (fieldLine k y)) (ident t),
      l = fieldLine k y ∨ ∃ j ≠ k, l = fieldLine j (identity t j) := by
    intro l hl
    rw [attributes_ident] at hl
    obtain ⟨j, -, hl⟩ := List.mem_flatMap.mp hl
    by_cases hj : j = k
    · subst hj
      rw [hword, List.mem_singleton] at hl
      exact .inl hl
    · rcases mem_pathnames hl with rfl | rfl
      · exact .inr ⟨j, hj, rfl⟩
      · exact .inl rfl
  have hvalue := foldl_takeAttribute_eq hy (identity_plain t) hwords (u := noValues) (.inr hmem)
  rw [← hvalue] at hne
  exact hne (congrFun (h _) k)

/-! ### Both -/

variable (sh t)

/-- **`jscal-store` and `jscal-restore` both get what `ident` prints, whatever they meet,
exactly if** in double quotes every character of the values stands for itself, and no
line is a pattern. -/
theorem identity_agrees_iff :
    (∀ w : World, source sh w (ident t) = identity t ∧
        takeAttributes sh w (ident t) = identity t) ↔
      ∀ k, sh.plain (identity t k ++ [quote]) = true ∧
        sh.pattern (fieldLine k (identity t k)) = false := by
  constructor
  · intro h k
    have hpattern := pattern_of_takeAttributes fun l => (h (oneFile l)).2
    exact ⟨plain_of_source (h emptyWorld).1 k, hpattern k⟩
  · intro h w
    exact ⟨source_ident fun k => (h k).1, takeAttributes_ident fun k => (h k).2⟩

/-- A shell that expands positional parameters. -/
def positionalShell : Shell where
  expansion t :=
    if t.head? = some backquote then none
    else if t.head? = some dollar ∧ t.tail.head?.any parameterStart then
      if t.tail.head?.any Char.isDigit then some 2 else none
    else some 0
  pattern _ := false
  covers _ _ := false
  expansion_backquote t := by simp
  expansion_dollar c t _ := by
    have hne : dollar ≠ backquote := by decide
    by_cases hp : parameterStart c = true
    · by_cases hd : c.isDigit = true <;> simp [hne, hp, hd]
    · simp [hne, hp]
  pattern_wildcard _ h := nomatch h
  pattern_covers _ _ _ h := nomatch h

def attributeLine (a x : Text) : Text := a ++ '=' :: '=' :: quote :: (x ++ [quote])

/-- A joystick whose name has a `$` in it. -/
def listing : Text :=
  unlines newline
    [attributeLine "    KERNEL".toList "js0".toList, [],
      attributeLine "    KERNELS".toList "input3".toList,
      attributeLine "    ATTRS{name}".toList "Pad $5".toList, []]

/-- **A name is stored without its `$5`** and asked for with it. -/
theorem identity_dollar :
    (∀ k, quote ∉ identity listing k ∧ newline ∉ identity listing k) ∧
      source positionalShell emptyWorld (ident listing) .name = "Pad ".toList ∧
      takeAttributes positionalShell emptyWorld (ident listing) .name = "Pad $5".toList ∧
      identity listing .name = "Pad $5".toList := by
  refine ⟨fun k => ⟨(identity_plain listing k).quote, (identity_plain listing k).newline⟩,
    ?_, ?_, ?_⟩
  · decide +kernel
  · decide +kernel
  · decide +kernel

variable {sh t}

theorem plain_of_ordinary {x : Text} (h : ∀ c ∈ x, c ≠ backslash ∧ c ≠ dollar ∧ c ≠ backquote) :
    sh.plain (x ++ [quote]) = true := by
  induction x with
  | nil => rfl
  | cons c x ih =>
    obtain ⟨hb, hd, hq⟩ := h c List.mem_cons_self
    have hliteral : sh.literal c (x ++ [quote]) = true := by
      rw [Shell.literal, if_neg hb, if_neg (not_or.mpr ⟨hd, hq⟩)]
    rw [List.cons_append, Shell.plain, hliteral, ih fun d hmem => h d (List.mem_cons_of_mem _ hmem)]
    rfl

theorem pattern_fieldLine {x : Text} (h : ∀ c ∈ x, c ∉ wildcards) :
    sh.pattern (fieldLine k x) = false := by
  by_contra hpattern
  obtain ⟨c, hc, hwild⟩ := sh.pattern_wildcard _ (by simpa using hpattern)
  have hlabel : (k.label.all fun c => c ∉ wildcards) = true := by cases k <;> decide
  have hquote : quote ∉ wildcards := by decide
  rw [fieldLine, List.mem_append, List.mem_cons, List.mem_append, List.mem_singleton] at hc
  rcases hc with hc | rfl | hc | rfl
  · exact of_decide_eq_true (List.all_eq_true.mp hlabel c hc) hwild
  · exact hquote hwild
  · exact h c hc hwild
  · exact hquote hwild

/-- **Values of other characters reach both.** -/
theorem identity_ordinary
    (h : ∀ k, ∀ c ∈ identity t k, c ∉ wildcards ∧ c ≠ dollar ∧ c ≠ backquote) :
    source sh w (ident t) = identity t ∧ takeAttributes sh w (ident t) = identity t := by
  have hbackslash : backslash ∈ wildcards := by decide
  refine ⟨source_ident fun k => plain_of_ordinary fun c hc => ⟨?_, (h k c hc).2⟩,
    takeAttributes_ident fun k => pattern_fieldLine fun c hc => (h k c hc).1⟩
  rintro rfl
  exact (h _ _ hc).1 hbackslash

end LinuxConsole.Jscal
