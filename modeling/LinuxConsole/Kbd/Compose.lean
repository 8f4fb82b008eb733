import LinuxConsole.Lib.Run
import LinuxConsole.Kbd.Translate

/-!
# Dead keys

A diacritic waits in `diacr` for the character that it goes on, 0 if there is none, and
the compose key makes a diacritic of the next character.  The handlers of letters, of
dead keys, of Enter and of the compose key share these two.

`Composing` is the rule of the comment of `handle_diacr` applied from left to right.
Its characters are `Group`s, each with the typed characters that it stands for, so that
**`composing_conserves`** can say that no typed character is lost or duplicated.

**`compose_iff`**: the code follows the rule exactly as long as it does not make a
diacritic of the character 0, which it takes for no diacritic at all.
-/

namespace LinuxConsole.Input

open Lib

/-! ### The rule -/

/-- A character with the typed ones that it is made of. -/
structure Group where
  typed : List UInt8
  char : UInt8
  deriving DecidableEq

/-- What becomes of a diacritic and the character after it: the first result that the
table has for them, or the diacritic itself if the character is a space or the diacritic
again. -/
def combination (table : List (UInt8 × UInt8 × UInt8)) (diacr ch : UInt8) : Option UInt8 :=
  match table.find? fun a => a.1 = diacr ∧ a.2.1 = ch with
  | some a => some a.2.2
  | none => if ch = 0x20 ∨ ch = diacr then some diacr else none

/-- **The typed characters so far**: those that are done, the diacritic that waits, and
whether the next character is to be one. -/
structure Composing where
  done : List Group
  pending : Option Group
  compose : Bool

/-- The keys: a character, a dead key, the compose key and Enter. -/
inductive TextKey
  | self (ch : UInt8)
  | dead (ch : UInt8)
  | compose
  | enter
  deriving DecidableEq

/-- The character that a key types. -/
def TextKey.typed : TextKey → List UInt8
  | .self ch => [ch]
  | .dead ch => [ch]
  | _ => []

variable (table : List (UInt8 × UInt8 × UInt8)) (crlf : Bool)

/-- A typed character goes on the diacritic that waits, or the diacritic is done. -/
def combine (pending : Option Group) (ch : UInt8) : List Group × Group :=
  match pending with
  | none => ([], ⟨[ch], ch⟩)
  | some g =>
    match combination table g.char ch with
    | some r => ([], ⟨g.typed ++ [ch], r⟩)
    | none => ([g], ⟨[ch], ch⟩)

/-- **The rule for one key.** -/
def Composing.key (s : Composing) : TextKey → Composing
  | .self ch =>
    let (gs, g) := combine table s.pending ch
    if s.compose then ⟨s.done ++ gs, some g, false⟩ else ⟨s.done ++ gs ++ [g], none, false⟩
  | .dead ch =>
    let (gs, g) := combine table s.pending ch
    ⟨s.done ++ gs, some g, s.compose⟩
  | .compose => { s with compose := true }
  | .enter =>
    ⟨s.done ++ s.pending.toList ++ ⟨[], 13⟩ :: (if crlf then [⟨[], 10⟩] else []), none, s.compose⟩

/-- All groups, the one that waits last. -/
def Composing.groups (s : Composing) : List Group := s.done ++ s.pending.toList

/-- A group is made by the rule from what was typed, if anything was. -/
inductive Made : List UInt8 → UInt8 → Prop
  | control (ch : UInt8) : Made [] ch
  | typed (ch : UInt8) : Made [ch] ch
  | combined {l : List UInt8} {d ch r : UInt8} : Made l d → combination table d ch = some r →
      Made (l ++ [ch]) r

/-! ### The handlers -/

/-- A key with the handler that it has. -/
def Xlate.textKey (e : Env) (x : Xlate) : TextKey → Xlate
  | .self ch => x.kSelf e ch.toNat false
  | .dead ch => x.kDead2 e ch.toNat false
  | .compose => x.fnCompose
  | .enter => x.fnEnter

/-- The code and the rule with the same keys. -/
def bothKeys (e : Env) (p : Xlate × Composing) (k : TextKey) : Xlate × Composing :=
  (p.1.textKey e k, p.2.key e.accentTable crlf k)

/-- **The code has done what the rule says**: the characters that are done are in the
queue, which was that of `con`, and the same diacritic waits. -/
structure Agree (con : Console) (x : Xlate) (s : Composing) : Prop where
  queued : x.con = s.done.foldl (fun c g => c.putQueue g.char.toNat) con
  pending : s.pending.map Group.char = if x.mods.diacr = 0 then none else some x.mods.diacr
  compose : x.mods.deadKeyNext = s.compose

/-- The key makes no diacritic of the character 0. -/
def NotNul (x : Xlate) : TextKey → Prop
  | .self ch => x.mods.deadKeyNext = true → ch ≠ 0
  | .dead ch => ch ≠ 0
  | _ => True

/-! ### What is typed is kept -/

variable {table crlf}

theorem combine_typed (pending : Option Group) (ch : UInt8) :
    ((combine table pending ch).1 ++ [(combine table pending ch).2]).flatMap Group.typed =
      pending.toList.flatMap Group.typed ++ [ch] := by
  cases pending with
  | none => rfl
  | some g =>
    rw [combine]
    cases combination table g.char ch <;> simp

theorem combine_made {pending : Option Group} (h : ∀ g ∈ pending, Made table g.typed g.char)
    (ch : UInt8) : ∀ g ∈ (combine table pending ch).1 ++ [(combine table pending ch).2],
      Made table g.typed g.char := by
  have hnew : Made table [ch] ch := .typed ch
  cases pending with
  | none =>
    intro g hg
    obtain rfl := List.mem_singleton.mp hg
    exact hnew
  | some d =>
    have hd := h d rfl
    rw [combine]
    cases hcomb : combination table d.char ch with
    | none =>
      intro g hg
      rcases List.mem_cons.mp hg with rfl | hg
      · exact hd
      · obtain rfl := List.mem_singleton.mp hg
        exact hnew
    | some r =>
      intro g hg
      obtain rfl := List.mem_singleton.mp hg
      exact .combined hd hcomb

theorem Composing.groups_typed (s : Composing) (ch : UInt8) (c : Bool) :
    (Composing.mk (s.done ++ (combine table s.pending ch).1)
        (some (combine table s.pending ch).2) c).groups =
      s.done ++ ((combine table s.pending ch).1 ++ [(combine table s.pending ch).2]) :=
  List.append_assoc ..

/-- **One key** adds what it types, and every group is made by the rule. -/
theorem Composing.key_conserves {s : Composing}
    (h : ∀ g ∈ s.groups, Made table g.typed g.char) (k : TextKey) :
    (s.key table crlf k).groups.flatMap Group.typed =
        s.groups.flatMap Group.typed ++ k.typed ∧
      ∀ g ∈ (s.key table crlf k).groups, Made table g.typed g.char := by
  have hdone : ∀ g ∈ s.done, Made table g.typed g.char :=
    fun g hg => h g (List.mem_append_left _ hg)
  have hpending : ∀ g ∈ s.pending, Made table g.typed g.char :=
    fun g hg => h g (List.mem_append_right _ (Option.mem_toList.mpr hg))
  have htyped : ∀ ch : UInt8,
      (s.done ++ ((combine table s.pending ch).1 ++ [(combine table s.pending ch).2])).flatMap
          Group.typed = s.groups.flatMap Group.typed ++ [ch] ∧
        ∀ g ∈ s.done ++ ((combine table s.pending ch).1 ++ [(combine table s.pending ch).2]),
          Made table g.typed g.char := by
    intro ch
    constructor
    · rw [List.flatMap_append, combine_typed, groups, List.flatMap_append, List.append_assoc]
    · intro g hg
      rcases List.mem_append.mp hg with hg | hg
      · exact hdone g hg
      · exact combine_made hpending ch g hg
  cases k with
  | self ch =>
    cases hc : s.compose with
    | true =>
      rw [key]
      dsimp only
      rw [hc, if_pos rfl, groups_typed]
      exact htyped ch
    | false =>
      rw [key]
      dsimp only
      rw [hc, if_neg Bool.false_ne_true, groups, Option.toList_none, List.append_nil,
        List.append_assoc]
      exact htyped ch
  | dead ch =>
    rw [key]
    dsimp only
    rw [groups_typed]
    exact htyped ch
  | compose => exact ⟨(List.append_nil _).symm, h⟩
  | enter =>
    have hcontrol : ∀ ch : UInt8, Made table [] ch := .control
    cases crlf with
    | true =>
      constructor
      · simp [key, groups, TextKey.typed]
      · intro g hg
        simp only [key, groups, if_true, Option.toList_none, List.append_nil, List.mem_append,
          List.mem_cons, List.not_mem_nil, or_false] at hg
        rcases hg with hg | rfl | rfl
        · exact h g (List.mem_append.mpr hg)
        · exact hcontrol 13
        · exact hcontrol 10
    | false =>
      constructor
      · simp [key, groups, TextKey.typed]
      · intro g hg
        simp only [key, groups, Bool.false_eq_true, if_false, Option.toList_none, List.append_nil,
          List.mem_append, List.mem_cons, List.not_mem_nil, or_false] at hg
        rcases hg with hg | rfl
        · exact h g (List.mem_append.mpr hg)
        · exact hcontrol 13

/-- **No typed character is lost or duplicated** by the rule: the groups are made of what
was typed, in its order. -/
theorem composing_conserves {s : Composing} (h : ∀ g ∈ s.groups, Made table g.typed g.char)
    (keys : List TextKey) :
    (run (Composing.key table crlf) s keys).groups.flatMap Group.typed =
        s.groups.flatMap Group.typed ++ keys.flatMap TextKey.typed ∧
      ∀ g ∈ (run (Composing.key table crlf) s keys).groups, Made table g.typed g.char := by
  induction keys generalizing s with
  | nil => exact ⟨(List.append_nil _).symm, h⟩
  | cons k keys ih =>
    obtain ⟨htyped, hmade⟩ := @Composing.key_conserves table crlf s h k
    obtain ⟨hall, hmades⟩ := ih hmade
    rw [run_cons]
    refine ⟨?_, hmades⟩
    rw [hall, htyped, List.flatMap_cons, List.append_assoc]

/-! ### The code and the rule -/

theorem handleDiacr_eq (e : Env) (x : Xlate) (ch : UInt8) :
    x.handleDiacr e ch =
      match combination e.accentTable x.mods.diacr ch with
      | some r => (r, { x with mods.diacr := 0 })
      | none => (ch, { x with mods.diacr := 0, con := x.con.putQueue x.mods.diacr.toNat }) := by
  rw [Xlate.handleDiacr, combination]
  dsimp only
  cases e.accentTable.find? fun a => a.1 = x.mods.diacr ∧ a.2.1 = ch with
  | some a => rfl
  | none =>
    by_cases hsame : ch = 0x20 ∨ ch = x.mods.diacr
    · rw [if_pos hsame, if_pos hsame]
    · rw [if_neg hsame, if_neg hsame]
      rfl

theorem Agree.diacr_none {con : Console} {x : Xlate} {s : Composing} (h : Agree con x s)
    (hnone : s.pending = none) : x.mods.diacr = 0 := by
  have hp := h.pending
  rw [hnone] at hp
  by_contra hne
  rw [if_neg hne] at hp
  exact nomatch hp

theorem Agree.diacr_some {con : Console} {x : Xlate} {s : Composing} (h : Agree con x s)
    {g : Group} (hsome : s.pending = some g) : x.mods.diacr ≠ 0 ∧ g.char = x.mods.diacr := by
  have hp := h.pending
  rw [hsome] at hp
  split_ifs at hp with hzero
  · exact nomatch hp
  · exact ⟨hzero, Option.some.inj hp⟩

/-- What `k_self` and `k_dead2` begin with: the character after the diacritic, which is then
none. -/
def Xlate.combined (e : Env) (x : Xlate) (ch : UInt8) : UInt8 × Xlate :=
  if x.mods.diacr ≠ 0 then x.handleDiacr e ch else (ch, x)

theorem Agree.combined {con : Console} {x : Xlate} {s : Composing} (h : Agree con x s) (e : Env)
    (ch : UInt8) :
    (x.combined e ch).1 = (combine e.accentTable s.pending ch).2.char ∧
      (x.combined e ch).2.con =
        (s.done ++ (combine e.accentTable s.pending ch).1).foldl
          (fun c g => c.putQueue g.char.toNat) con ∧
      (x.combined e ch).2.mods.diacr = 0 ∧ (x.combined e ch).2.mods.deadKeyNext = s.compose := by
  cases hpending : s.pending with
  | none =>
    have hzero := h.diacr_none hpending
    rw [Xlate.combined, combine, if_neg (not_not_intro hzero), List.append_nil]
    exact ⟨rfl, h.queued, hzero, h.compose⟩
  | some g =>
    obtain ⟨hne, hchar⟩ := h.diacr_some hpending
    rw [Xlate.combined, combine, if_pos hne, handleDiacr_eq, ← hchar]
    cases combination e.accentTable g.char ch with
    | some r =>
      rw [List.append_nil]
      exact ⟨rfl, h.queued, rfl, h.compose⟩
    | none =>
      rw [List.foldl_append, ← h.queued]
      exact ⟨rfl, rfl, rfl, h.compose⟩

theorem textKey_self (e : Env) (x : Xlate) (ch : UInt8) :
    x.textKey e (.self ch) =
      if (x.combined e ch).2.mods.deadKeyNext then
        { (x.combined e ch).2 with
          mods.deadKeyNext := false
          mods.diacr := (x.combined e ch).1 }
      else (x.combined e ch).2.onCon (·.putQueue (x.combined e ch).1.toNat) := by
  rw [Xlate.textKey, Xlate.kSelf, if_neg Bool.false_ne_true, UInt8.ofNat_toNat]
  rfl

theorem textKey_dead (e : Env) (x : Xlate) (ch : UInt8) :
    x.textKey e (.dead ch) = { (x.combined e ch).2 with mods.diacr := (x.combined e ch).1 } := by
  rw [Xlate.textKey, Xlate.kDead2, if_neg Bool.false_ne_true, UInt8.ofNat_toNat]
  rfl

/-- The characters and the results of the table are not 0. -/
def Nonzero (table : List (UInt8 × UInt8 × UInt8)) : Prop :=
  ∀ a ∈ table, a.1 ≠ 0 ∧ a.2.1 ≠ 0 ∧ a.2.2 ≠ 0

theorem combine_char_eq_zero (htable : Nonzero table) {pending : Option Group}
    (hpending : ∀ g ∈ pending, g.char ≠ 0) (ch : UInt8) :
    (combine table pending ch).2.char = 0 ↔ ch = 0 := by
  cases pending with
  | none => exact Iff.rfl
  | some g =>
    have hg : g.char ≠ 0 := hpending g rfl
    rw [combine, combination]
    cases hfind : table.find? fun a => a.1 = g.char ∧ a.2.1 = ch with
    | some a =>
      have hmem := htable a (List.mem_of_find?_eq_some hfind)
      have hpair := List.find?_some hfind
      have hbase : a.2.1 = ch := (of_decide_eq_true hpair).2
      exact iff_of_false hmem.2.2 (hbase ▸ hmem.2.1)
    | none =>
      by_cases hsame : ch = 0x20 ∨ ch = g.char
      · simp only [if_pos hsame]
        refine iff_of_false hg ?_
        rcases hsame with rfl | rfl
        · decide
        · exact hg
      · simp only [if_neg hsame]

theorem Agree.pending_ne_zero {con : Console} {x : Xlate} {s : Composing} (h : Agree con x s) :
    ∀ g ∈ s.pending, g.char ≠ 0 := by
  intro g hg
  obtain ⟨hne, hchar⟩ := h.diacr_some hg
  rwa [hchar]

theorem foldl_putQueue_kbd (gs : List Group) (con : Console) :
    (gs.foldl (fun c g => c.putQueue g.char.toNat) con).kbd = con.kbd := by
  induction gs generalizing con with
  | nil => rfl
  | cons g gs ih => exact ih _

theorem Agree.enter {con : Console} {x : Xlate} {s : Composing} (h : Agree con x s) :
    Agree con x.fnEnter (s.key table (con.getKbdMode vcCrlf) .enter) := by
  have hmode : ∀ gs : List Group,
      (gs.foldl (fun c g => c.putQueue g.char.toNat) con).getKbdMode vcCrlf =
        con.getKbdMode vcCrlf := by
    intro gs
    rw [Console.getKbdMode, foldl_putQueue_kbd]
    rfl
  -- the queue before Enter puts its own characters there
  have hflushed : ∃ y : Xlate, y.mods.diacr = 0 ∧ y.mods.deadKeyNext = x.mods.deadKeyNext ∧
      y.con = (s.done ++ s.pending.toList).foldl (fun c g => c.putQueue g.char.toNat) con ∧
      x.fnEnter =
        if (y.con.putQueue 13).getKbdMode vcCrlf then
          { y with con := (y.con.putQueue 13).putQueue 10 }
        else { y with con := y.con.putQueue 13 } := by
    cases hpending : s.pending with
    | none =>
      have hzero := h.diacr_none hpending
      refine ⟨x, hzero, rfl, ?_, ?_⟩
      · rw [Option.toList_none, List.append_nil]
        exact h.queued
      · rw [Xlate.fnEnter, if_neg (not_not_intro hzero)]
        rfl
    | some g =>
      obtain ⟨hne, hchar⟩ := h.diacr_some hpending
      refine ⟨{ x with mods.diacr := 0, con := x.con.putQueue x.mods.diacr.toNat }, rfl, rfl, ?_, ?_⟩
      · rw [Option.toList_some, List.foldl_append, ← h.queued, ← hchar]
        rfl
      · rw [Xlate.fnEnter, if_pos hne]
        rfl
  obtain ⟨y, hzero, hcompose, hcon, heq⟩ := hflushed
  have hcrlf : (y.con.putQueue 13).getKbdMode vcCrlf = con.getKbdMode vcCrlf := by
    rw [hcon]
    exact hmode _
  have hagree : ∀ gs : List Group,
      Agree con { y with con := gs.foldl (fun c g => c.putQueue g.char.toNat) y.con }
        ⟨s.done ++ s.pending.toList ++ gs, none, s.compose⟩ := by
    intro gs
    refine ⟨?_, (if_pos hzero).symm, hcompose.trans h.compose⟩
    rw [List.foldl_append, ← hcon]
  rw [heq, hcrlf, Composing.key]
  cases con.getKbdMode vcCrlf with
  | true => exact hagree [⟨[], 13⟩, ⟨[], 10⟩]
  | false => exact hagree [⟨[], 13⟩]

variable {e : Env} {con : Console}

/-- **One key**: the code goes on as the rule does exactly if it makes no diacritic of the
character 0. -/
theorem agree_key_iff (htable : Nonzero e.accentTable) {x : Xlate} {s : Composing}
    (h : Agree con x s) (k : TextKey) :
    Agree con (x.textKey e k) (s.key e.accentTable (con.getKbdMode vcCrlf) k) ↔ NotNul x k := by
  cases k with
  | self ch =>
    obtain ⟨hchar, hcon, hzero, hcompose⟩ := h.combined e ch
    have hnul := combine_char_eq_zero htable h.pending_ne_zero ch
    rw [textKey_self, NotNul, h.compose, hcompose, Composing.key]
    dsimp only
    cases hflag : s.compose with
    | true =>
      rw [if_pos rfl, if_pos rfl]
      constructor
      · intro hagree _ heq
        have hne := hagree.pending_ne_zero _ rfl
        exact hne (hnul.mpr heq)
      · intro hne
        refine ⟨hcon, ?_, rfl⟩
        dsimp only
        rw [hchar, if_neg fun hzero => hne rfl (hnul.mp hzero)]
        rfl
    | false =>
      have hcompose' := hcompose.trans hflag
      rw [if_neg Bool.false_ne_true, if_neg Bool.false_ne_true]
      refine iff_of_true ⟨?_, (if_pos hzero).symm, hcompose'⟩
        fun hfalse => absurd hfalse Bool.false_ne_true
      rw [List.foldl_append, ← hcon]
      exact congrArg (fun v => (x.combined e ch).2.con.putQueue (UInt8.toNat v)) hchar
  | dead ch =>
    obtain ⟨hchar, hcon, hzero, hcompose⟩ := h.combined e ch
    have hnul := combine_char_eq_zero htable h.pending_ne_zero ch
    rw [textKey_dead, NotNul, Composing.key]
    constructor
    · intro hagree heq
      have hne := hagree.pending_ne_zero _ rfl
      exact hne (hnul.mpr heq)
    · intro hne
      refine ⟨hcon, ?_, hcompose⟩
      dsimp only
      rw [hchar, if_neg fun hzero => hne (hnul.mp hzero)]
      rfl
  | compose => exact iff_of_true ⟨h.queued, h.pending, rfl⟩ trivial
  | enter => exact iff_of_true h.enter trivial

/-- The rule where nothing has been typed since the diacritic of `x`. -/
def Xlate.composing (x : Xlate) : Composing where
  done := []
  pending := if x.mods.diacr = 0 then none else some ⟨[x.mods.diacr], x.mods.diacr⟩
  compose := x.mods.deadKeyNext

theorem agree_composing (x : Xlate) : Agree x.con x x.composing where
  queued := rfl
  pending := by
    rw [Xlate.composing]
    split_ifs <;> rfl
  compose := rfl

theorem composing_made (table : List (UInt8 × UInt8 × UInt8)) (x : Xlate) :
    ∀ g ∈ x.composing.groups, Made table g.typed g.char := by
  intro g hg
  rw [Composing.groups, Xlate.composing, List.nil_append, Option.mem_toList] at hg
  dsimp only at hg
  split_ifs at hg
  obtain rfl := Option.some.inj hg
  exact .typed _

/-- The code follows the rule from `x` on, in every state that the keys lead to. -/
def FollowsRule (e : Env) (x : Xlate) (keys : List TextKey) : Prop :=
  Along (bothKeys (x.con.getKbdMode vcCrlf) e)
    (fun p k => Agree x.con (bothKeys (x.con.getKbdMode vcCrlf) e p k).1
      (bothKeys (x.con.getKbdMode vcCrlf) e p k).2) (x, x.composing) keys

/-- What the rule queues and keeps back is what was typed. -/
def Conserves (e : Env) (x : Xlate) (keys : List TextKey) : Prop :=
  let s := run (Composing.key e.accentTable (x.con.getKbdMode vcCrlf)) x.composing keys
  s.groups.flatMap Group.typed =
      x.composing.groups.flatMap Group.typed ++ keys.flatMap TextKey.typed ∧
    ∀ g ∈ s.groups, Made e.accentTable g.typed g.char

/-- **The code follows the rule exactly as long as it makes no diacritic of the character
0**, and the rule loses and duplicates no typed character. -/
theorem compose_iff (e : Env) (htable : Nonzero e.accentTable) (x : Xlate)
    (keys : List TextKey) :
    (FollowsRule e x keys ↔ Along (Xlate.textKey e) NotNul x keys) ∧ Conserves e x keys := by
  refine ⟨?_, composing_conserves (composing_made _ x) keys⟩
  have hboth : FollowsRule e x keys ↔
      Along (bothKeys (x.con.getKbdMode vcCrlf) e) (fun p k => NotNul p.1 k)
        (x, x.composing) keys :=
    along_congr (I := fun p : Xlate × Composing => Agree x.con p.1 p.2)
      (fun _ _ _ hnext => hnext) (fun _ k hp => agree_key_iff htable hp k) (agree_composing x)
  rw [hboth]
  exact along_map (f := Prod.fst) (fun _ _ => rfl) _ keys

/-! ### An acute accent and a NUL -/

/-- A table with one letter. -/
def acuteKeys : Env where
  plainMap _ := 0xf200
  keyMaps _ := none
  accentTable := [(0x27, 0x65, 0xe9)]
  funcTable _ := none
  nrKeys := 255
  magicSysrq := false
  handleSysrq _ c := c

/-- A console on which nothing has been typed. -/
def untyped : Xlate where
  mods :=
    { shiftDown := fun _ => 0
      shiftState := 0
      deadKeyNext := false
      npadch := -1
      diacr := 0
      rep := false
      sysrqDown := false
      sysrqAlt := false }
  con :=
    { kbd :=
        { lockstate := 0, slockstate := 0, ledflagstate := 0, kbdmode := .xlate, modeflags := 4 }
      vcTty := some { stopped := false, flowStopped := false, flip := [] } }
  request := none

/-- The accent typed as a dead key and by the compose key. -/
theorem compose_iff_acute :
    (FollowsRule acuteKeys untyped [.dead 0x27, .self 0x65, .compose, .self 0x27, .enter] ↔
      Along (Xlate.textKey acuteKeys) NotNul untyped
        [.dead 0x27, .self 0x65, .compose, .self 0x27, .enter]) ∧
      Conserves acuteKeys untyped [.dead 0x27, .self 0x65, .compose, .self 0x27, .enter] :=
  compose_iff acuteKeys (fun a ha => by
    obtain rfl := List.mem_singleton.mp ha
    decide) untyped [.dead 0x27, .self 0x65, .compose, .self 0x27, .enter]

/-- A NUL behind the compose key is lost: of NUL and a letter the letter alone is queued. -/
theorem compose_loses_nul : ¬FollowsRule acuteKeys untyped [.compose, .self 0, .self 0x61] := by
  intro h
  have hagree := h.2.2.1
  have hflip := congrArg (fun c => c.vcTty.map fun t => t.flip.map Prod.fst) hagree.queued
  exact absurd hflip (by decide)

end LinuxConsole.Input
