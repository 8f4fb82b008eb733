import LinuxConsole.Jscal.Filter

/-!
# The sections of other joysticks

`jscal-store` for one joystick must leave what the state file says about the others
as it is.  **`store_keeps_iff`** says when it does.  A section that is skipped leaves
its values behind, so the next one needs a value of its own for each of them
(`Covered`); and the fields of a last section without commands are never printed.

`joystick_gains_serial` is a file in which a joystick without a serial number gets the
one of the joystick before it.
-/

namespace LinuxConsole.Jscal

open Lib

variable {ν : Type} [DecidableEq ν] {a : Awk ν} {q : Values}

/-- What a section says. -/
def Section.entries (s : Section) : List Entry := entry s.values s.commands

theorem Section.Plain.entries {s : Section} (h : s.Plain) :
    s.entries = [⟨s.values, s.commands⟩] := h.entry_over noValues

theorem Section.values_withValues (s : Section) (v : Values) : (s.withValues v).values = v := by
  unfold Section.values Section.over Section.withValues
  rw [readFields_fieldsOf, noValues_carry]

theorem Section.Plain.entries_withValues {s : Section} (h : s.Plain) (v : Values) :
    (s.withValues (s.over v)).entries = [⟨s.over v, s.commands⟩] := by
  unfold Section.entries
  rw [Section.values_withValues]
  exact h.entry_over v

theorem StateFile.entries_lines (f : StateFile) :
    Jscal.entries f.lines = f.sections.flatMap Section.entries := by
  unfold StateFile.lines StateFile.sections
  rw [entries_closedLines fun b hb => (f.closed_plain b hb).readable, List.flatMap_append,
    List.flatMap_map]
  congr 1
  cases hlast : f.last with
  | none => rfl
  | some s =>
    have hs := entriesFrom_section (f.last_plain s hlast).readable []
    rw [List.append_nil] at hs
    rw [Option.toList_some, List.flatMap_singleton, List.flatMap_singleton, hs]
    rfl

/-! ### Values left behind -/

variable (a q) in
/-- **Every section that does not match has a value for each field that the matching
ones right before it have**; `v` is what those leave behind. -/
def Covered : Values → List Section → Prop
  | _, [] => True
  | v, s :: ss =>
    if a.selects q s.values then Covered (s.over v) ss
    else (∀ k, v k ≠ [] → s.values k ≠ []) ∧ Covered noValues ss

variable (a q) in
/-- What the sections say that do not match. -/
def others (ss : List Section) : List Entry :=
  (ss.flatMap Section.entries).filter fun e => !a.selects q e.values

variable (a q) in
/-- What `filter` leaves of some sections, starting from the variables `v`. -/
def keptEntries (v : Values) (bs : List (Section × Nat)) : List Entry :=
  (kept a q v bs).flatMap fun b => b.1.entries

theorem others_cons_matching {s : Section} (h : s.Plain) (hs : a.selects q s.values = true)
    (ss : List Section) : others a q (s :: ss) = others a q ss := by
  unfold others
  rw [List.flatMap_cons, h.entries, List.singleton_append, List.filter_cons_of_neg (by simp [hs])]

theorem others_cons {s : Section} (h : s.Plain) (hs : a.selects q s.values = false)
    (ss : List Section) :
    others a q (s :: ss) = ⟨s.values, s.commands⟩ :: others a q ss := by
  unfold others
  rw [List.flatMap_cons, h.entries, List.singleton_append, List.filter_cons_of_pos (by simp [hs])]

theorem others_append (ss ts : List Section) :
    others a q (ss ++ ts) = others a q ss ++ others a q ts := by
  unfold others
  rw [List.flatMap_append, List.filter_append]

theorem keptEntries_matching {b : Section × Nat} {v : Values}
    (hsel : a.selects q (b.1.over v) = true) (bs : List (Section × Nat)) :
    keptEntries a q v (b :: bs) = keptEntries a q (b.1.over v) bs := by
  unfold keptEntries
  rw [kept, if_pos hsel]

theorem keptEntries_cons {b : Section × Nat} (h : b.1.Plain) {v : Values}
    (hsel : a.selects q (b.1.over v) = false) (bs : List (Section × Nat)) :
    keptEntries a q v (b :: bs) = ⟨b.1.over v, b.1.commands⟩ :: keptEntries a q noValues bs := by
  unfold keptEntries
  rw [kept, if_neg (by rw [hsel]; exact Bool.false_ne_true), List.flatMap_cons,
    h.entries_withValues, List.singleton_append]

/-- A section that matches does so whatever is left behind. -/
theorem Section.Plain.selects_over {s : Section} (h : s.Plain) (hs : a.selects q s.values = true)
    (v : Values) : a.selects q (s.over v) = true := by
  rw [h.over]
  exact Awk.selects_carry hs v

/-- Nothing is taken from what is left behind by one that has all of it. -/
theorem Section.Plain.over_eq_iff {s : Section} (h : s.Plain) (v : Values) :
    s.over v = s.values ↔ ∀ k, v k ≠ [] → s.values k ≠ [] := by
  rw [h.over]
  constructor
  · intro heq k hk hs
    have hkey := congrFun heq k
    unfold carry at hkey
    rw [hs] at hkey
    exact hk hkey
  · intro hcovers
    funext k
    unfold carry
    split_ifs with hempty
    · rw [List.isEmpty_iff] at hempty
      rw [hempty]
      by_contra hk
      exact hcovers k hk hempty
    · rfl

theorem keptEntries_length_le {bs : List (Section × Nat)} (h : ∀ b ∈ bs, b.1.Plain) (v : Values) :
    (keptEntries a q v bs).length ≤ (others a q (bs.map (·.1))).length := by
  induction bs generalizing v with
  | nil => exact Nat.le_refl _
  | cons b bs ih =>
    have hb := h b List.mem_cons_self
    have ih' := ih fun c hc => h c (List.mem_cons_of_mem _ hc)
    rw [List.map_cons]
    cases hs : a.selects q b.1.values with
    | true =>
      rw [keptEntries_matching (hb.selects_over hs v), others_cons_matching hb hs]
      exact ih' _
    | false =>
      rw [others_cons hb hs, List.length_cons]
      cases hsel : a.selects q (b.1.over v) with
      | true =>
        rw [keptEntries_matching hsel]
        exact Nat.le_succ_of_le (ih' _)
      | false =>
        rw [keptEntries_cons hb hsel, List.length_cons]
        exact Nat.succ_le_succ (ih' _)

/-- **The others are kept exactly if each has what is left behind before it.** -/
theorem keptEntries_eq_iff {bs : List (Section × Nat)} (h : ∀ b ∈ bs, b.1.Plain) (v : Values) :
    keptEntries a q v bs = others a q (bs.map (·.1)) ↔ Covered a q v (bs.map (·.1)) := by
  induction bs generalizing v with
  | nil => exact ⟨fun _ => trivial, fun _ => rfl⟩
  | cons b bs ih =>
    have hb := h b List.mem_cons_self
    have hbs : ∀ c ∈ bs, c.1.Plain := fun c hc => h c (List.mem_cons_of_mem _ hc)
    have hcovers := hb.over_eq_iff v
    rw [List.map_cons, Covered]
    cases hs : a.selects q b.1.values with
    | true =>
      rw [keptEntries_matching (hb.selects_over hs v), others_cons_matching hb hs, if_pos rfl]
      exact ih hbs _
    | false =>
      rw [others_cons hb hs, if_neg Bool.false_ne_true, ← hcovers]
      cases hsel : a.selects q (b.1.over v) with
      | true =>
        -- it is skipped, and then one is missing
        rw [keptEntries_matching hsel]
        constructor
        · intro heq
          have hle := keptEntries_length_le (a := a) (q := q) hbs (b.1.over v)
          rw [heq, List.length_cons] at hle
          omega
        · rintro ⟨hsame, -⟩
          rw [hsame, hs] at hsel
          exact absurd hsel Bool.false_ne_true
      | false =>
        rw [keptEntries_cons hb hsel, List.cons.injEq, Entry.mk.injEq, and_iff_left rfl]
        exact and_congr Iff.rfl (ih hbs noValues)

/-! ### Storing -/

theorem covered_append_matching (ss : List Section) {s : Section}
    (hs : a.selects q s.values = true) (v : Values) :
    Covered a q v (ss ++ [s]) ↔ Covered a q v ss := by
  induction ss generalizing v with
  | nil =>
    have hone : Covered a q v [s] = Covered a q (s.over v) [] := if_pos hs
    exact Iff.of_eq hone
  | cons t ss ih =>
    rw [List.cons_append, Covered, Covered]
    split_ifs
    · exact ih _
    · exact and_congr Iff.rfl (ih _)

theorem StateFile.ended_plain (f : StateFile) : ∀ b ∈ f.ended, b.1.Plain := by
  intro b hb
  rcases List.mem_append.mp hb with hb | hb
  · exact f.closed_plain b hb
  · obtain ⟨s, hs, rfl⟩ := List.mem_map.mp hb
    exact f.last_plain s (by simpa using (List.mem_filter.mp hs).1)

theorem entries_store (a : Awk ν) {d : Values} (hd : ∀ k, PlainText (d k)) (f : StateFile)
    {cs : List Text} (hcs : ∀ c ∈ cs, CommandLine c) :
    entries (records newline (store a d cs f.text)) =
      keptEntries a (query a d) noValues f.ended ++ entries (newSection d cs) := by
  obtain ⟨n, -, hlines⟩ := store_lines a hd f hcs
  have hkept := kept_plain (a := a) (q := query a d) (v := noValues) f.ended_plain
    fun _ => plainText_nil
  rw [hlines, entries_closedLines fun b hb => (hkept b hb).readable, entries_blanks]
  rfl

/-- **`jscal-store` keeps the sections of the other joysticks**, in their order and with
their fields and commands, exactly if each of them has a value for every field that
the skipped sections right before it have, and the last one has a command. -/
theorem store_keeps_iff (a : Awk ν) (d : Values) (hd : ∀ k, PlainText (d k)) (f : StateFile)
    (cs : List Text) (hcs : ∀ c ∈ cs, CommandLine c) :
    entries (records newline (store a d cs f.text)) =
        ((entries (records newline f.text)).filter fun e => !a.selects (query a d) e.values) ++
          entries (newSection d cs) ↔
      Covered a (query a d) noValues f.sections ∧
        ∀ s ∈ f.last, s.commands = [] → a.selects (query a d) s.values = true := by
  have hiff := keptEntries_eq_iff (a := a) (q := query a d) f.ended_plain noValues
  have hle := keptEntries_length_le (a := a) (q := query a d) f.ended_plain noValues
  rw [entries_store a hd f hcs, List.append_left_inj, f.records_text, f.entries_lines]
  change keptEntries a (query a d) noValues f.ended = others a (query a d) f.sections ↔ _
  unfold StateFile.ended StateFile.lastEnded at hiff hle ⊢
  unfold StateFile.sections
  rw [List.map_append] at hiff hle
  cases hlast : f.last with
  | none =>
    rw [hlast] at hiff
    rw [and_iff_left nofun]
    exact hiff
  | some s =>
    rw [hlast, Option.toList_some] at hiff hle
    rw [Option.toList_some]
    cases hempty : s.commands.isEmpty with
    | false =>
      rw [List.filter_cons_of_pos (by simp [hempty])] at hiff ⊢
      have hcommands : ∀ t ∈ some s, t.commands = [] → a.selects (query a d) t.values = true := by
        intro t ht hnil
        rw [Option.mem_some_iff] at ht
        subst ht
        rw [hnil] at hempty
        exact absurd hempty nofun
      rw [and_iff_left hcommands]
      exact hiff
    | true =>
      rw [List.filter_cons_of_neg (by simp [hempty])] at hiff hle ⊢
      simp only [List.filter_nil, List.map_nil, List.append_nil] at hiff hle ⊢
      cases hs : a.selects (query a d) s.values with
      | true =>
        have hcommands : ∀ t ∈ some s, t.commands = [] → a.selects (query a d) t.values = true := by
          intro t ht _
          rw [Option.mem_some_iff] at ht
          rw [← ht]
          exact hs
        rw [and_iff_left hcommands, covered_append_matching _ hs, others_append,
          others_cons_matching (f.last_plain s hlast) hs]
        rw [← hiff]
        unfold others
        simp only [List.flatMap_nil, List.filter_nil, List.append_nil]
      | false =>
        rw [others_append, others_cons (f.last_plain s hlast) hs]
        constructor
        · intro heq
          rw [heq, List.length_append, List.length_cons] at hle
          omega
        · rintro ⟨-, hcommands⟩
          have hsel := hcommands s rfl (by simpa using hempty)
          rw [hs] at hsel
          exact absurd hsel Bool.false_ne_true

/-! ### Two state files -/

/-- An awk that reads decimal numbers. -/
def decimalAwk : Awk Nat where
  number x :=
    if x ≠ [] ∧ x.all Char.isDigit then some (x.foldl (fun n c => 10 * n + (c.toNat - 48)) 0)
    else none
  assigned x := x
  number_nil := rfl
  assigned_plain _ _ := rfl

/-- A joystick with a name and a serial number. -/
def pad : Values
  | .name => "Pad".toList
  | .serial => "S1".toList
  | _ => []

/-- A section with a name and other fields. -/
def joystick (fields : List (Key × Text)) : Section := ⟨fields, ["jscal -u 2,0,1".toList]⟩

theorem joystick_plain {fields : List (Key × Text)}
    (h : ∀ f ∈ fields, PlainText f.2 ∧ f.2 ≠ []) : (joystick fields).Plain := by
  refine ⟨h, fun c hc => ?_, ?_⟩
  · rw [List.mem_singleton.mp hc]
    exact ⟨by decide, by decide⟩
  · unfold joystick Section.lines
    exact List.append_ne_nil_of_right_ne_nil _ (List.cons_ne_nil _ _)

/-- The section of that joystick and one of another behind it. -/
def twoJoysticks (second : List (Key × Text)) (h : ∀ f ∈ second, PlainText f.2 ∧ f.2 ≠ []) :
    StateFile where
  closed := [(joystick [(.name, "Pad".toList), (.serial, "S1".toList)], 0)]
  last := some (joystick second)
  closed_plain b hb := by
    rw [List.mem_singleton.mp hb]
    refine joystick_plain fun f hf => ?_
    rcases List.mem_cons.mp hf with rfl | hf
    · exact ⟨⟨by decide, by decide⟩, by decide⟩
    · rw [List.mem_singleton.mp hf]
      exact ⟨⟨by decide, by decide⟩, by decide⟩
  last_plain s hs := by
    rw [← Option.mem_some_iff.mp hs]
    exact joystick_plain h

theorem stick_plain : ∀ f ∈ [(Key.name, "Stick".toList)], PlainText f.2 ∧ f.2 ≠ [] := by
  intro f hf
  rw [List.mem_singleton.mp hf]
  exact ⟨⟨by decide, by decide⟩, by decide⟩

theorem stick_serial_plain :
    ∀ f ∈ [(Key.name, "Stick".toList), (Key.serial, "S2".toList)], PlainText f.2 ∧ f.2 ≠ [] := by
  intro f hf
  rcases List.mem_cons.mp hf with rfl | hf
  · exact ⟨⟨by decide, by decide⟩, by decide⟩
  · rw [List.mem_singleton.mp hf]
    exact ⟨⟨by decide, by decide⟩, by decide⟩

theorem pad_plain (k : Key) : PlainText (pad k) := by
  cases k <;> exact ⟨by decide, by decide⟩

/-- **The serial number of a joystick that is stored again** stays with the next one. -/
theorem joystick_gains_serial :
    ¬ ∀ (d : Values) (f : StateFile) (cs : List Text), (∀ k, PlainText (d k)) →
      (∀ c ∈ cs, CommandLine c) →
        entries (records newline (store decimalAwk d cs f.text)) =
          ((entries (records newline f.text)).filter fun e =>
            !decimalAwk.selects (query decimalAwk d) e.values) ++ entries (newSection d cs) := by
  intro h
  have heq := h pad (twoJoysticks _ stick_plain) [] pad_plain nofun
  have hserials := congrArg (List.map fun e : Entry => e.values .serial) heq
  revert hserials
  decide +kernel

/-- One with a serial number of its own keeps it. -/
theorem joystick_keeps_serial :
    entries (records newline (store decimalAwk pad ["jscal -u 2,1,0".toList]
        (twoJoysticks _ stick_serial_plain).text)) =
      ((entries (records newline (twoJoysticks _ stick_serial_plain).text)).filter fun e =>
        !decimalAwk.selects (query decimalAwk pad) e.values) ++
          entries (newSection pad ["jscal -u 2,1,0".toList]) := by
  refine (store_keeps_iff decimalAwk pad pad_plain
    (twoJoysticks _ stick_serial_plain) ["jscal -u 2,1,0".toList] ?_).mpr ⟨?_, ?_⟩
  · intro c hc
    rw [List.mem_singleton.mp hc]
    exact ⟨by decide, by decide⟩
  · have hpad : decimalAwk.selects (query decimalAwk pad)
        (joystick [(.name, "Pad".toList), (.serial, "S1".toList)]).values = true := by
      decide +kernel
    have hstick : decimalAwk.selects (query decimalAwk pad)
        (joystick [(.name, "Stick".toList), (.serial, "S2".toList)]).values = false := by
      decide +kernel
    change Covered _ _ _ [_, _]
    rw [Covered, if_pos hpad, Covered, if_neg (by rw [hstick]; exact Bool.false_ne_true)]
    refine ⟨fun k => ?_, trivial⟩
    cases k <;> decide +kernel
  · intro s hs hcommands
    rw [← Option.mem_some_iff.mp hs] at hcommands
    exact absurd hcommands (by decide)

end LinuxConsole.Jscal
