import LinuxConsole.Attach.Serial
import LinuxConsole.Lib.Attempt
import Mathlib.Data.List.GetD

/-!
# The handshake of a Spaceball

`spaceball_init` speaks with the device line by line, and every line is read into the
64 bytes of `r`.  `spaceball_waitchar` passes over newlines, stores every other byte and
ends the text with a NUL, and nothing counts what it stores.

`r` is a memory without an end here, and `stores` are the places of it that have been
written.  `spaceballDialogue` says which lines the handshake asks of a device that sends
these, so what the bytes and timeouts have to be is said of them alone.
**`spaceball_inBounds_iff`**: the writes stay inside `r` exactly if no line that is asked for
has 64 bytes, newlines apart, and one that is still to end has no more.
-/

namespace LinuxConsole.Attach

open Lib

/-- Why the handshake has stopped: an answer is still to come, or it has returned -1. -/
inductive Stop
  | waiting
  | failed
  deriving DecidableEq

/-- **The handshake.** -/
structure Ball where
  /-- the answers that `readchar` is still to find -/
  answers : Answers
  /-- whether the next bytes can be written to the device -/
  writes : List Bool
  sent : List Byte
  r : Nat → Byte
  id : Nat
  /-- the places of `r` that have been written -/
  stores : List Nat

/-- A program of the handshake. -/
abbrev Talk := ExceptT Stop (StateM Ball)

def Ball.put (s : Ball) (d : Nat) (b : Byte) : Ball :=
  { s with r := Function.update s.r d b, stores := s.stores ++ [d] }

/-! ### The functions -/

/-- The loop of `spaceball_waitchar`. -/
def waitchar (c : Byte) : Byte → Nat → Answers → Ball → Except Stop Unit × Ball
  | _, _, [], s => (.error .waiting, { s with answers := [] })
  | b, d, none :: l, s =>
    (if b ≠ c then .error .failed else .ok (), { s.put d 0 with answers := l })
  | _, d, some b :: l, s =>
    if b = 0x0a then waitchar c b d l s
    else if b = c then (.ok (), { (s.put d b).put (d + 1) 0 with answers := l })
    else waitchar c b (d + 1) l (s.put d b)

/-- `spaceball_waitchar`, behind which every caller gives up if it does not return 0. -/
def spaceballWaitchar (c : Byte) : Talk Unit := fun s => waitchar c 0 0 s.answers s

/-- The loop of `spaceball_waitcmd`, with so many rounds left. -/
def waitcmd (c : Byte) : Nat → Talk Unit
  | 0 => throw .failed
  | i + 1 => do
    spaceballWaitchar 0x0d
    let s ← get
    if s.r 0 = c then pure () else waitcmd c i

def spaceballWaitcmd (c : Byte) : Talk Unit := waitcmd c 8

/-- `write` of one byte. -/
def writeByte (b : Byte) : Talk Unit := fun s =>
  match s.writes with
  | [] => (.error .waiting, s)
  | ok :: rest =>
    (if ok then .ok () else .error .failed, { s with writes := rest, sent := s.sent ++ [b] })

def writeBytes : List Byte → Talk Unit
  | [] => pure ()
  | b :: c => do
    writeByte b
    writeBytes c

def toupper (b : Byte) : Byte := if 0x61 ≤ b ∧ b ≤ 0x7a then b - 0x20 else b

def spaceballCmd (c : List Byte) : Talk Unit := do
  writeBytes c
  writeByte 0x0d
  spaceballWaitcmd (toupper (c.headD 0))

/-- The bytes of a text. -/
def bytes (t : String) : List Byte := t.toList.map fun c => BitVec.ofNat 8 c.toNat

def quoteByte : Byte := 0x22

/-- `strncmp(p, r, n)` is 0, where `n` is the length of `p`. -/
def strncmp (p : List Byte) (r : Nat → Byte) : Bool :=
  (List.range p.length).all fun i => p.getD i 0 = r i

/-- `strncasecmp(p, r, n)` is 0. -/
def strncasecmp (p : List Byte) (r : Nat → Byte) : Bool :=
  (List.range p.length).all fun i => toupper (p.getD i 0) = toupper (r i)

/-- `strstr(r, p)` finds the text. -/
def strstr (r : Nat → Byte) (p : List Byte) : Bool :=
  decide (p <:+: ((List.range 64).map r).takeWhile (· ≠ 0))

def spaceball2003B : Nat := 3
def spaceball2003C : Nat := 4
def spaceball3003C : Nat := 7
def spaceball4000FLX : Nat := 8
def spaceball4000FLXL : Nat := 9

/-- The device is the one if the text says so. -/
def setId (t : String) (id : Nat) : Talk Unit :=
  modify fun s => if strncmp (bytes t) s.r then { s with id := id } else s

def giveUpUnless (c : (Nat → Byte) → Bool) : Talk Unit := do
  let s ← get
  if c s.r then pure () else throw .failed

/-- `spaceball_init`. -/
def spaceballInit : Talk Unit := do
  spaceballWaitchar 0x11
  spaceballWaitchar 0x0d
  spaceballWaitcmd 0x40
  giveUpUnless (strncmp (bytes "@1 Spaceball alive"))
  spaceballWaitcmd 0x40
  spaceballCmd (bytes "hm")
  setId "Hm2003B" spaceball2003B
  setId "Hm2003C" spaceball2003C
  setId "Hm3003C" spaceball3003C
  let s ← get
  if strncasecmp (bytes "HvFirmware") s.r then
    spaceballCmd [quoteByte]
    giveUpUnless (strncmp (quoteByte :: bytes "1 Spaceball 4000 FLX"))
    spaceballWaitcmd quoteByte
    modify fun s =>
      { s with id := if strstr s.r (bytes " L ") then spaceball4000FLXL else spaceball4000FLX }
    spaceballWaitcmd quoteByte
    spaceballCmd (bytes "YS")
    spaceballCmd (bytes "M")
  else
    spaceballCmd (bytes "P@A@A")
    spaceballCmd (bytes "FT@")
    spaceballCmd (bytes "MSS")

/-- Before the handshake, with what `r` and `id` hold by chance and by type. -/
def Ball.start (r : Nat → Byte) (id : Nat) (l : Answers) (writes : List Bool) : Ball where
  answers := l
  writes := writes
  sent := []
  r := r
  id := id
  stores := []

/-- **The writes are inside `r`.** -/
def Ball.InBounds (s : Ball) : Prop := ∀ d ∈ s.stores, d < 64

/-! ### What a device is asked for -/

/-- What becomes of a line: it ends, it stops for too long, or it is still to come.  The text is
without newlines. -/
inductive Heard
  | complete (text : List Byte) (rest : Answers)
  | silent (text : List Byte)
  | waiting (text : List Byte)

/-- A line up to the byte `c`, of which the text is there already. -/
def hearLine (c : Byte) : List Byte → Answers → Heard
  | text, [] => .waiting text
  | text, none :: _ => .silent text
  | text, some b :: l =>
    if b = 0x0a then hearLine c text l
    else if b = c then .complete (text ++ [b]) l
    else hearLine c (text ++ [b]) l

/-- **What is asked of a device**: a line up to a byte, or to take a byte. -/
inductive Dialogue
  | over
  | hear (c : Byte) (next : List Byte → Dialogue)
  | send (next : Dialogue)

/-- **The device is brief**: no line that it is asked for has 64 bytes, and one that is still to
come has no more. -/
def Dialogue.Brief : Dialogue → Answers → List Bool → Prop
  | .over, _, _ => True
  | .hear c next, l, writes =>
    match hearLine c [] l with
    | .waiting text => text.length ≤ 64
    | .silent text => text.length < 64
    | .complete text rest => text.length < 64 ∧ (next text).Brief rest writes
  | .send next, l, true :: writes => next.Brief l writes
  | .send _, _, _ => True

def Dialogue.sends (next : Dialogue) : Nat → Dialogue
  | 0 => next
  | n + 1 => .send (sends next n)

/-- A line that begins with `c`, out of at most so many. -/
def Dialogue.hearCmd (c : Byte) (next : List Byte → Dialogue) : Nat → Dialogue
  | 0 => .over
  | i + 1 => .hear 0x0d fun text => if text.headD 0 = c then next text else hearCmd c next i

/-- A command, and its answer. -/
def Dialogue.cmd (c : List Byte) (next : List Byte → Dialogue) : Dialogue :=
  .sends (.hearCmd (toupper (c.headD 0)) next 8) (c.length + 1)

/-- **The lines of the handshake.** -/
def spaceballDialogue : Dialogue :=
  .hear 0x11 fun _ => .hear 0x0d fun _ => .hearCmd 0x40 (fun greeting =>
    if bytes "@1 Spaceball alive" <+: greeting then
      .hearCmd 0x40 (fun _ => .cmd (bytes "hm") fun answer =>
        if (bytes "HvFirmware").map toupper <+: answer.map toupper then
          .cmd [quoteByte] fun firmware =>
            if quoteByte :: bytes "1 Spaceball 4000 FLX" <+: firmware then
              .hearCmd quoteByte (fun _ => .hearCmd quoteByte (fun _ =>
                .cmd (bytes "YS") fun _ => .cmd (bytes "M") fun _ => .over) 8) 8
            else .over
        else .cmd (bytes "P@A@A") fun _ => .cmd (bytes "FT@") fun _ => .cmd (bytes "MSS")
          fun _ => .over) 8
    else .over) 8

/-! ### One line -/

/-- The text is in `r`. -/
def Holds (r : Nat → Byte) (text : List Byte) : Prop := ∀ i < text.length, r i = text.getD i 0

/-- The text is in `r`, and a NUL behind it. -/
structure IsText (r : Nat → Byte) (text : List Byte) : Prop where
  holds : Holds r text
  nul : r text.length = 0

variable {s : Ball} {text : List Byte}

theorem put_inBounds (d : Nat) (b : Byte) : (s.put d b).InBounds ↔ s.InBounds ∧ d < 64 := by
  rw [Ball.InBounds, Ball.put, List.forall_mem_append, List.forall_mem_singleton]
  rfl

theorem Holds.put (h : Holds s.r text) (b : Byte) :
    Holds (s.put text.length b).r (text ++ [b]) := by
  intro i hi
  rw [List.length_append, List.length_singleton] at hi
  change Function.update s.r text.length b i = _
  by_cases hlast : i = text.length
  · rw [hlast, Function.update_self]
    simp
  · have hlt : i < text.length := by omega
    rw [Function.update_of_ne hlast, h i hlt, List.getD_append _ _ _ _ hlt]

theorem Holds.end (h : Holds s.r text) : IsText (s.put text.length 0).r text where
  holds := by
    intro i hi
    exact (Function.update_of_ne (Nat.ne_of_lt hi) ..).trans (h i hi)
  nul := Function.update_self ..

/-- **What has become of a line**, where the writes before it are inside `r` if `B` holds. -/
def Ended (B : Prop) (writes : List Bool) : Heard → Except Stop Unit × Ball → Prop
  | .waiting text, (res, s) => res = .error .waiting ∧ (s.InBounds ↔ B ∧ text.length ≤ 64)
  | .silent text, (res, s) => res = .error .failed ∧ (s.InBounds ↔ B ∧ text.length < 64)
  | .complete text rest, (res, s) => res = .ok () ∧ (s.InBounds ↔ B ∧ text.length < 64) ∧
    s.answers = rest ∧ s.writes = writes ∧ IsText s.r text

theorem endLine_inBounds {B : Prop} (hbounds : s.InBounds ↔ B ∧ text.length ≤ 64) :
    (s.put text.length 0).InBounds ↔ B ∧ text.length < 64 := by
  rw [put_inBounds, hbounds, and_assoc]
  exact and_congr_right fun _ => by omega

/-- **One line**: it is stored byte by byte, and the NUL at its end. -/
theorem waitchar_ended {B : Prop} {c : Byte} (hc : c ≠ 0x0a) (rest : Answers) :
    ∀ {b : Byte} {s : Ball} {text : List Byte}, b ≠ c → Holds s.r text →
      (s.InBounds ↔ B ∧ text.length ≤ 64) →
      Ended B s.writes (hearLine c text rest) (waitchar c b text.length rest s) := by
  induction rest with
  | nil => exact fun _ _ hbounds => ⟨rfl, hbounds⟩
  | cons a rest ih =>
    intro b s text hb hholds hbounds
    cases a with
    | none =>
      rw [waitchar, hearLine, if_pos hb]
      exact ⟨rfl, endLine_inBounds hbounds⟩
    | some x =>
      have hlength : (text ++ [x]).length = text.length + 1 := by
        rw [List.length_append, List.length_singleton]
      have hput : (s.put text.length x).InBounds ↔ B ∧ (text ++ [x]).length ≤ 64 := by
        rw [put_inBounds, hbounds, and_assoc, hlength]
        exact and_congr_right fun _ => by omega
      rw [waitchar, hearLine]
      by_cases hnewline : x = 0x0a
      · rw [if_pos hnewline, if_pos hnewline]
        exact ih (hnewline ▸ hc.symm) hholds hbounds
      · rw [if_neg hnewline, if_neg hnewline]
        by_cases hx : x = c
        · rw [if_pos hx, if_pos hx, ← hlength]
          exact ⟨rfl, endLine_inBounds hput, rfl, rfl, (hholds.put x).end⟩
        · rw [if_neg hx, if_neg hx, ← hlength]
          exact ih hx (hholds.put x) hput

/-! ### The handshake -/

/-- **A program follows a dialogue** from a state on. -/
def FollowsAt (s : Ball) (m : Talk Unit) (d : Dialogue) : Prop :=
  (m.run s).2.InBounds ↔ s.InBounds ∧ d.Brief s.answers s.writes

/-- It does where `r` holds the last text. -/
def Follows (heard : List Byte) (m : Talk Unit) (d : Dialogue) : Prop :=
  ∀ s : Ball, IsText s.r heard → FollowsAt s m d

variable {heard : List Byte} {m n : Talk Unit} {d e : Dialogue}

theorem follows_over {m : Talk Unit} (h : ∀ s, (m.run s).2 = s) : Follows heard m .over := by
  intro s _
  rw [FollowsAt, h s]
  exact (and_iff_left trivial).symm

/-- A line is asked for, whatever `r` holds. -/
theorem followsAt_hear {c : Byte} (hc : c ≠ 0x0a) (hzero : c ≠ 0) {next : List Byte → Dialogue}
    (h : ∀ text, Follows text m (next text)) (s : Ball) :
    FollowsAt s (spaceballWaitchar c >>= fun _ => m) (.hear c next) := by
  have hempty : Holds s.r [] := fun _ hi => absurd hi (Nat.not_lt_zero _)
  have hended := waitchar_ended (B := s.InBounds) hc s.answers hzero.symm hempty
    (and_iff_left (Nat.zero_le _)).symm
  rw [FollowsAt, Dialogue.Brief]
  rcases hrun : (spaceballWaitchar c).run s with ⟨res, s'⟩
  rw [show waitchar c 0 [].length s.answers s = (res, s') from hrun] at hended
  cases hline : hearLine c [] s.answers with
  | waiting text =>
    rw [hline] at hended
    obtain ⟨rfl, hbounds⟩ := hended
    rw [run_bind_error _ hrun]
    exact hbounds
  | silent text =>
    rw [hline] at hended
    obtain ⟨rfl, hbounds⟩ := hended
    rw [run_bind_error _ hrun]
    exact hbounds
  | complete text rest =>
    rw [hline] at hended
    obtain ⟨rfl, hbounds, hanswers, hwrites, htext⟩ := hended
    rw [run_bind_ok _ hrun]
    refine (h text s' htext).trans ?_
    rw [hbounds, hanswers, hwrites, and_assoc]

theorem follows_hear {c : Byte} (hc : c ≠ 0x0a) (hzero : c ≠ 0) {next : List Byte → Dialogue}
    (h : ∀ text, Follows text m (next text)) :
    Follows heard (spaceballWaitchar c >>= fun _ => m) (.hear c next) :=
  fun s _ => followsAt_hear hc hzero h s

theorem follows_choose {c : Prop} [Decidable c] {p : Ball → Prop} [DecidablePred p]
    {a b : Talk Unit} (hp : ∀ s, IsText s.r heard → (p s ↔ c))
    (ha : Follows heard (a >>= fun _ => m) d) (hb : Follows heard (b >>= fun _ => m) e) :
    Follows heard (get >>= fun s => (if p s then a else b) >>= fun _ => m)
      (if c then d else e) := by
  intro s hs
  change FollowsAt s ((if p s then a else b) >>= fun _ => m) _
  by_cases hc : c
  · rw [if_pos ((hp s hs).mpr hc), if_pos hc]
    exact ha s hs
  · rw [if_neg (mt (hp s hs).mp hc), if_neg hc]
    exact hb s hs

theorem IsText.zero {r : Nat → Byte} (h : IsText r heard) : r 0 = heard.headD 0 := by
  cases heard with
  | nil => exact h.nul
  | cons b heard => exact h.holds 0 (Nat.succ_pos _)

/-- **A line that begins with `c`.** -/
theorem follows_waitcmd {c : Byte} {next : List Byte → Dialogue}
    (h : ∀ text, Follows text m (next text)) (i : Nat) : ∀ {heard : List Byte},
    Follows heard (waitcmd c i >>= fun _ => m) (.hearCmd c next i) := by
  induction i with
  | zero => exact follows_over fun _ => rfl
  | succ i ih =>
    intro heard s _
    rw [waitcmd, Dialogue.hearCmd]
    simp only [bind_assoc]
    refine followsAt_hear (by decide) (by decide) (fun text => ?_) s
    refine follows_choose (fun s hs => ?_) ?_ ih
    · rw [hs.zero]
    · rw [pure_bind]
      exact h text

theorem follows_writeByte (b : Byte) (h : Follows heard m d) :
    Follows heard (writeByte b >>= fun _ => m) (.send d) := by
  intro s hs
  have hrun : (writeByte b).run s = match s.writes with
    | [] => (.error .waiting, s)
    | ok :: rest =>
      (if ok then .ok () else .error .failed, { s with writes := rest, sent := s.sent ++ [b] }) :=
    rfl
  rw [FollowsAt]
  rcases hwrites : s.writes with _ | ⟨ok, rest⟩
  · rw [hwrites] at hrun
    rw [run_bind_error _ hrun]
    exact (and_iff_left trivial).symm
  · rw [hwrites] at hrun
    cases ok with
    | false =>
      rw [run_bind_error _ hrun]
      exact (and_iff_left trivial).symm
    | true =>
      rw [run_bind_ok _ hrun]
      exact h _ hs

theorem follows_writeBytes (c : List Byte) (h : Follows heard m d) :
    Follows heard (writeBytes c >>= fun _ => m) (.sends d c.length) := by
  induction c with
  | nil =>
    rw [writeBytes, pure_bind]
    exact h
  | cons b c ih =>
    rw [writeBytes, bind_assoc]
    exact follows_writeByte b ih

theorem sends_succ (d : Dialogue) (n : Nat) : Dialogue.sends (.send d) n = .sends d (n + 1) := by
  induction n with
  | zero => rfl
  | succ n ih => exact congrArg Dialogue.send ih

/-- **A command and its answer.** -/
theorem follows_cmd (c : List Byte) {next : List Byte → Dialogue}
    (h : ∀ text, Follows text m (next text)) :
    Follows heard (spaceballCmd c >>= fun _ => m) (.cmd c next) := by
  rw [spaceballCmd, Dialogue.cmd, ← sends_succ]
  simp only [bind_assoc]
  exact follows_writeBytes c (follows_writeByte 0x0d (follows_waitcmd h 8))

theorem follows_giveUpUnless {c : Prop} [Decidable c] {test : (Nat → Byte) → Bool}
    (htest : ∀ r, IsText r heard → (test r = true ↔ c)) (h : Follows heard m d) :
    Follows heard (giveUpUnless test >>= fun _ => m) (if c then d else .over) := by
  rw [giveUpUnless, bind_assoc]
  refine follows_choose (fun s hs => htest s.r hs) ?_ (follows_over fun _ => rfl)
  rw [pure_bind]
  exact h

theorem follows_modify {f : Ball → Ball} (hf : ∀ s, ∃ id, f s = { s with id := id })
    (h : Follows heard m d) : Follows heard (modify f >>= fun _ => m) d := by
  intro s hs
  obtain ⟨id, hid⟩ := hf s
  have hrest := h { s with id := id } hs
  rw [← hid] at hrest
  rw [FollowsAt, run_bind_ok _ (show (modify f : Talk Unit).run s = (.ok (), f s) from rfl)]
  refine hrest.trans ?_
  rw [hid]
  rfl

theorem follows_setId (t : String) (id : Nat) (h : Follows heard m d) :
    Follows heard (setId t id >>= fun _ => m) d := by
  refine follows_modify (fun s => ?_) h
  split_ifs
  · exact ⟨id, rfl⟩
  · exact ⟨s.id, rfl⟩

/-! ### Texts in `r` -/

/-- **A text without a NUL is compared with what was heard.** -/
theorem IsText.compare_iff {r : Nat → Byte} (h : IsText r heard) {f : Byte → Byte}
    (hf : ∀ b, f b = f 0 → b = 0) {p : List Byte} (hp : 0 ∉ p) :
    ((List.range p.length).all fun i => f (p.getD i 0) = f (r i)) = true ↔
      p.map f <+: heard.map f := by
  simp only [List.all_eq_true, List.mem_range, decide_eq_true_eq, List.prefix_iff_getElem,
    List.length_map, List.getElem_map]
  constructor
  · intro hall
    have hle : p.length ≤ heard.length := by
      by_contra hlong
      have hlt : heard.length < p.length := by omega
      have hnul := hall heard.length hlt
      rw [h.nul, List.getD_eq_getElem _ _ hlt] at hnul
      exact hp (hf _ hnul ▸ List.getElem_mem hlt)
    refine ⟨hle, fun i hi => ?_⟩
    have heq := hall i hi
    rwa [h.holds i (by omega), List.getD_eq_getElem _ _ hi,
      List.getD_eq_getElem _ _ (by omega)] at heq
  · rintro ⟨hle, hall⟩ i hi
    rw [h.holds i (by omega), List.getD_eq_getElem _ _ hi, List.getD_eq_getElem _ _ (by omega)]
    exact hall i hi

theorem strncmp_iff {r : Nat → Byte} (h : IsText r heard) {p : List Byte} (hp : 0 ∉ p) :
    strncmp p r = true ↔ p <+: heard := by
  have hcompare := h.compare_iff (f := id) (fun _ => id) hp
  rwa [List.map_id, List.map_id] at hcompare

theorem toupper_zero (b : Byte) (h : toupper b = toupper 0) : b = 0 := by
  revert b
  decide

theorem strncasecmp_iff {r : Nat → Byte} (h : IsText r heard) {p : List Byte} (hp : 0 ∉ p) :
    strncasecmp p r = true ↔ p.map toupper <+: heard.map toupper :=
  h.compare_iff toupper_zero hp

/-! ### The whole -/

/-- The state of the handshake when it has returned, or while it waits. -/
def handshake (r : Nat → Byte) (id : Nat) (l : Answers) (writes : List Bool) : Ball :=
  (spaceballInit.run (.start r id l writes)).2

/-- **The handshake writes inside `r` exactly if the device is brief.** -/
theorem spaceball_inBounds_iff (r : Nat → Byte) (id : Nat) (l : Answers) (writes : List Bool) :
    (handshake r id l writes).InBounds ↔ spaceballDialogue.Brief l writes := by
  have hfollows : FollowsAt (.start r id l writes) (spaceballInit >>= fun _ => pure ())
      spaceballDialogue := by
    simp only [spaceballInit, bind_assoc]
    refine followsAt_hear (by decide) (by decide) (fun _ => ?_) _
    refine follows_hear (by decide) (by decide) fun _ => ?_
    refine follows_waitcmd (fun greeting => ?_) 8
    refine follows_giveUpUnless (fun r hr => strncmp_iff hr (by decide)) ?_
    refine follows_waitcmd (fun _ => ?_) 8
    refine follows_cmd _ fun answer => ?_
    refine follows_setId _ _ (follows_setId _ _ (follows_setId _ _ ?_))
    refine follows_choose (fun s hs => strncasecmp_iff hs (by decide)) ?_ ?_ <;>
      simp only [bind_assoc]
    · refine follows_cmd _ fun firmware => ?_
      refine follows_giveUpUnless (fun r hr => strncmp_iff hr (by decide)) ?_
      refine follows_waitcmd (fun _ => ?_) 8
      refine follows_modify (fun s => ⟨_, rfl⟩) ?_
      refine follows_waitcmd (fun _ => ?_) 8
      exact follows_cmd _ fun _ => follows_cmd _ fun _ => follows_over fun _ => rfl
    · exact follows_cmd _ fun _ => follows_cmd _ fun _ => follows_cmd _ fun _ =>
        follows_over fun _ => rfl
  rw [show (spaceballInit >>= fun _ => pure ()) = spaceballInit from bind_pure _] at hfollows
  refine hfollows.trans (and_iff_right ?_)
  intro d hd
  exact absurd hd List.not_mem_nil

/-- A device that greets with 64 bytes and falls silent: the NUL is behind the end. -/
theorem spaceball_overflows :
    ¬(handshake (fun _ => 0) 0 (List.replicate 64 (some 0x41) ++ [none]) []).InBounds := by
  have hstores : 64 ∈ (handshake (fun _ => 0) 0
      (List.replicate 64 (some 0x41) ++ [none]) []).stores := by
    decide +kernel
  intro h
  exact absurd (h 64 hstores) (by decide)

end LinuxConsole.Attach
