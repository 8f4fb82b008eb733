import Mathlib.Data.Nat.Bitwise
import LinuxConsole.Kbd.Isolation

/-!
# The codes of medium raw mode

A keyboard in medium raw mode sends a key code below 128 as one byte and any
other as three, the first of them null but for the up flag.  `readMediumraw` is
the reader that the comment in `kbd_keycode` describes.

One event is read back with whatever follows it left over
(`readMediumraw_code`), so a stream is (`readMediumraw_codes`), and no code
begins another (`mediumrawCode_prefix`).  In this mode `kbd_keycode` queues
nothing but these codes, unless the SysRq hack takes the event or a number is
still pending on the pad (`kbdKeycode_mediumraw`).  **`mediumraw_decodable`** puts
these together.
-/

namespace LinuxConsole.Input

/-! ### The codes -/

/-- The bytes of one event. -/
def mediumrawCode (keycode upFlag : Nat) : List UInt8 :=
  if keycode < 128 then [UInt8.ofNat (keycode ||| upFlag)]
  else [UInt8.ofNat upFlag, UInt8.ofNat (keycode >>> 7 ||| 0x80), UInt8.ofNat (keycode ||| 0x80)]

/-- The bytes of an event: `true` is a press. -/
def eventCode (ev : Nat × Bool) : List UInt8 := mediumrawCode ev.1 (if ev.2 then 0 else 0x80)

/-- **The rule of the comment**: a byte that is null but for the up flag is
followed by the high and the low seven bits, both with the up flag. -/
def readMediumraw : List UInt8 → Option (List (Nat × Bool))
  | [] => some []
  | b :: rest =>
    let down : Bool := b.toNat < 128
    if b.toNat % 128 ≠ 0 then (readMediumraw rest).map ((b.toNat % 128, down) :: ·)
    else
      match rest with
      | hi :: lo :: rest =>
        if 128 ≤ hi.toNat ∧ 128 ≤ lo.toNat then
          (readMediumraw rest).map ((hi.toNat % 128 * 128 + lo.toNat % 128, down) :: ·)
        else none
      | _ => none

theorem or_up_mod (n : Nat) : (n ||| 0x80) % 256 = 128 + n % 128 := by
  have hlow : ∀ m < 256, m ||| 128 = 128 + m % 128 := by decide +kernel
  have hmod := Nat.or_mod_two_pow (a := n) (b := 0x80) (n := 8)
  rw [show (2 : Nat) ^ 8 = 256 from rfl] at hmod
  rw [hmod, show 0x80 % 256 = 128 from rfl, hlow _ (Nat.mod_lt _ (by decide)),
    Nat.mod_mod_of_dvd n (by decide : 128 ∣ 256)]

theorem toNat_byte (n : Nat) : (UInt8.ofNat n).toNat = n % 256 := UInt8.toNat_ofNat'

theorem eventCode_short {k : Nat} (down : Bool) (hk : k < 128) :
    ∃ b : UInt8, eventCode (k, down) = [b] ∧ b.toNat % 128 = k ∧
      decide (b.toNat < 128) = down := by
  refine ⟨_, by rw [eventCode, mediumrawCode, if_pos hk], ?_⟩
  rw [toNat_byte]
  cases down with
  | true =>
    have hor : (k ||| 0) % 256 = k := by rw [Nat.or_zero]; omega
    rw [if_pos rfl, hor]
    exact ⟨by omega, decide_eq_true hk⟩
  | false =>
    rw [if_neg Bool.false_ne_true, or_up_mod]
    exact ⟨by omega, decide_eq_false (by omega)⟩

theorem eventCode_long {k : Nat} (down : Bool) (hk : ¬k < 128) (hmax : k ≤ 16383) :
    ∃ b hi lo : UInt8, eventCode (k, down) = [b, hi, lo] ∧ b.toNat % 128 = 0 ∧
      decide (b.toNat < 128) = down ∧ 128 ≤ hi.toNat ∧ 128 ≤ lo.toNat ∧
      hi.toNat % 128 * 128 + lo.toNat % 128 = k := by
  refine ⟨_, _, _, by rw [eventCode, mediumrawCode, if_neg hk], ?_⟩
  rw [toNat_byte, toNat_byte, toNat_byte, or_up_mod, or_up_mod, Nat.shiftRight_eq_div_pow]
  cases down with
  | true => exact ⟨by simp, by simp, by omega, by omega, by omega⟩
  | false => exact ⟨by simp, by simp, by omega, by omega, by omega⟩

theorem readMediumraw_short {b : UInt8} (h : b.toNat % 128 ≠ 0) (rest : List UInt8) :
    readMediumraw (b :: rest) =
      (readMediumraw rest).map ((b.toNat % 128, decide (b.toNat < 128)) :: ·) := by
  rw [readMediumraw.eq_def]
  exact if_pos h

theorem readMediumraw_long {b hi lo : UInt8} (h : b.toNat % 128 = 0) (hhi : 128 ≤ hi.toNat)
    (hlo : 128 ≤ lo.toNat) (rest : List UInt8) :
    readMediumraw (b :: hi :: lo :: rest) = (readMediumraw rest).map
      ((hi.toNat % 128 * 128 + lo.toNat % 128, decide (b.toNat < 128)) :: ·) := by
  rw [readMediumraw.eq_def]
  exact (if_neg (not_not_intro h)).trans (if_pos ⟨hhi, hlo⟩)

/-- **One event is read back**, and what follows it is left. -/
theorem readMediumraw_code {ev : Nat × Bool} (hpos : 1 ≤ ev.1) (hmax : ev.1 ≤ 16383)
    (rest : List UInt8) :
    readMediumraw (eventCode ev ++ rest) = (readMediumraw rest).map (ev :: ·) := by
  obtain ⟨k, down⟩ := ev
  by_cases hk : k < 128
  · obtain ⟨b, hcode, hmod, hdown⟩ := eventCode_short down hk
    have hne : b.toNat % 128 ≠ 0 := by
      rw [hmod]
      exact Nat.one_le_iff_ne_zero.mp hpos
    rw [hcode, List.cons_append, List.nil_append, readMediumraw_short hne, hmod, hdown]
  · obtain ⟨b, hi, lo, hcode, hmod, hdown, hhi, hlo, hval⟩ := eventCode_long down hk hmax
    rw [hcode, List.cons_append, List.cons_append, List.cons_append, List.nil_append,
      readMediumraw_long hmod hhi hlo, hdown, hval]

theorem readMediumraw_codes {events : List (Nat × Bool)}
    (h : ∀ ev ∈ events, 1 ≤ ev.1 ∧ ev.1 ≤ 16383) :
    readMediumraw (events.flatMap eventCode) = some events := by
  induction events with
  | nil => rfl
  | cons ev events ih =>
    have hev := h ev (List.mem_cons_self ..)
    rw [List.flatMap_cons, readMediumraw_code hev.1 hev.2,
      ih fun ev' h' => h ev' (List.mem_cons_of_mem _ h'), Option.map_some]

/-- **No code begins another.** -/
theorem mediumrawCode_prefix {a b : Nat × Bool} (ha : 1 ≤ a.1 ∧ a.1 ≤ 16383)
    (hb : 1 ≤ b.1 ∧ b.1 ≤ 16383) (h : eventCode a <+: eventCode b) : a = b := by
  obtain ⟨rest, hrest⟩ := h
  have hread := readMediumraw_code ha.1 ha.2 rest
  have hone := readMediumraw_code hb.1 hb.2 []
  rw [List.append_nil] at hone
  rw [hrest, hone, readMediumraw] at hread
  obtain ⟨events, _, heq⟩ := Option.map_eq_some_iff.mp hread.symm
  exact (List.cons.inj heq).1

/-! ### What is queued -/

/-- What the tty of the console has been sent. -/
def Console.flip (c : Console) : Option (List (UInt8 × Bool)) := c.vcTty.map Tty.flip

theorem Console.flip_putQueue (c : Console) (ch : Nat) :
    (c.putQueue ch).flip = c.flip.map (· ++ [(UInt8.ofNat ch, false)]) := by
  rw [flip, flip, putQueue, insertFlipChar]
  cases c.vcTty <;> rfl

theorem Console.flip_putMediumraw (c : Console) (keycode up : Nat) :
    (c.putMediumraw keycode up).flip =
      c.flip.map (· ++ (mediumrawCode keycode up).map fun b => (b, false)) := by
  rw [putMediumraw, mediumrawCode]
  split_ifs
  · exact c.flip_putQueue _
  · rw [flip_putQueue, flip_putQueue, flip_putQueue, Option.map_map, Option.map_map]
    refine congrArg (Option.map · _) (funext fun l => ?_)
    simp only [Function.comp_apply, List.append_assoc, List.map_cons, List.map_nil,
      List.cons_append, List.nil_append]

/-- The branch for each of the events. -/
def Console.putMediumraws (c : Console) (events : List (Nat × Nat)) : Console :=
  events.foldl (fun c ev => c.putMediumraw ev.1 (Xlate.upFlag ev.2)) c

/-- Key code and direction of each event. -/
def pressed (events : List (Nat × Nat)) : List (Nat × Bool) :=
  events.map fun ev => (ev.1, decide (ev.2 ≠ 0))

theorem pressed_cons (ev : Nat × Nat) (events : List (Nat × Nat)) :
    pressed (ev :: events) = (ev.1, decide (ev.2 ≠ 0)) :: pressed events := List.map_cons

theorem eventCode_pressed (keycode down : Nat) :
    eventCode (keycode, decide (down ≠ 0)) = mediumrawCode keycode (Xlate.upFlag down) := by
  rw [eventCode, Xlate.upFlag]
  by_cases h : down = 0 <;> simp [h]

theorem Console.flip_putMediumraws (events : List (Nat × Nat)) (c : Console) :
    (c.putMediumraws events).flip =
      c.flip.map (· ++ ((pressed events).flatMap eventCode).map fun b => (b, false)) := by
  induction events generalizing c with
  | nil =>
    rw [pressed, List.map_nil, List.flatMap_nil, List.map_nil]
    simp only [putMediumraws, List.foldl_nil, List.append_nil, Option.map_id']
  | cons ev events ih =>
    rw [putMediumraws, List.foldl_cons, ← putMediumraws, ih, flip_putMediumraw, Option.map_map,
      pressed_cons, List.flatMap_cons, List.map_append, eventCode_pressed]
    refine congrArg (Option.map · _) (funext fun l => ?_)
    rw [Function.comp_apply, List.append_assoc]

namespace Xlate

variable (e : Env) (keyDown : Nat → Bool) (x : Xlate)

theorem handleKey_raw (hraw : x.rawMode) (hpad : x.mods.npadch = -1) {type : Nat}
    (htype : type = ktSpec ∨ type = ktShift) (value : Nat) (up : Bool) :
    (x.handleKey e keyDown type value up).con.flip = x.con.flip ∧
      (x.handleKey e keyDown type value up).mods.npadch = -1 := by
  have hslock : type ≠ ktSlock := by rcases htype with rfl | rfl <;> decide
  rw [handleKey]
  dsimp only
  rw [if_pos hslock]
  suffices h : (x.kHandler e keyDown type value up).con.flip = x.con.flip ∧
      (x.kHandler e keyDown type value up).mods.npadch = -1 from h
  rcases htype with rfl | rfl
  · rw [show x.kHandler e keyDown ktSpec value up = x.kSpec e keyDown value up from rfl, kSpec]
    split_ifs with hup hbig hnot
    · exact ⟨rfl, hpad⟩
    · exact ⟨rfl, hpad⟩
    · exact ⟨rfl, hpad⟩
    · obtain rfl : value = 15 := by
        by_contra hne
        exact hnot ⟨hraw, hne⟩
      exact ⟨rfl, hpad⟩
  · rw [show x.kHandler e keyDown ktShift value up = x.kShift value up from rfl, kShift]
    have hflush : ∀ (y : Xlate) (old : Nat), y.mods.npadch = -1 →
        (y.flushPad old up).con.flip = y.con.flip ∧ (y.flushPad old up).mods.npadch = -1 := by
      intro y old hy
      rw [flushPad, if_neg fun h => h.2.2 hy]
      exact ⟨rfl, hy⟩
    split_ifs
    · exact ⟨rfl, hpad⟩
    · exact hflush (x.countShift kgShift up) _ hpad
    · exact hflush ((x.onCon (·.clrKbdLed vcCapslock)).countShift kgShift up) _ hpad
    · exact hflush (x.countShift value up) _ hpad

theorem lookupKey_raw (hraw : x.rawMode) (hpad : x.mods.npadch = -1) (keycode : Nat)
    (down : Bool) :
    (x.lookupKey e keyDown keycode down true).con.flip = x.con.flip ∧
      (x.lookupKey e keyDown keycode down true).mods.npadch = -1 := by
  rw [lookupKey]
  cases hmap : keyMap e x.shiftFinal with
  | none =>
    have hmods : (x.mods.computeShiftstate e.plainMap keyDown).npadch = x.mods.npadch := by
      rw [Mods.computeShiftstate]
    refine ⟨?_, hmods.trans hpad⟩
    dsimp only [onCon, Console.flip]
  | some m =>
    dsimp only
    split_ifs with hbig hsym hdown htype
    · exact ⟨rfl, hpad⟩
    · exact absurd hdown.2 (by decide)
    · exact ⟨rfl, hpad⟩
    · exact ⟨rfl, hpad⟩
    · have htype' : m keycode >>> 8 - 0xf0 = ktSpec ∨ m keycode >>> 8 - 0xf0 = ktShift := by
        by_contra hnot
        exact htype ⟨rfl, fun h => hnot (.inl h), fun h => hnot (.inr h)⟩
      have hletter : m keycode >>> 8 - 0xf0 ≠ ktLetter := by
        rcases htype' with h | h <;> rw [h] <;> decide
      have htv : x.typeAndValue e (m keycode) keycode =
          (m keycode >>> 8 - 0xf0, kval (m keycode)) := by
        rw [typeAndValue, if_neg hletter]
      have h := x.handleKey_raw e keyDown hraw hpad htype' (kval (m keycode)) (!down)
      rw [htv]
      dsimp only
      exact h

/-- The SysRq hack takes the event. -/
def TakenBySysrq (keycode down : Nat) : Prop :=
  e.magicSysrq ∧ (keycode = keySysrq ∧
      ((x.noteRepeat keycode down).mods.sysrqDown ∨
        (down = 1 ∧ (x.noteRepeat keycode down).mods.sysrqAlt)) ∨
    (x.noteRepeat keycode down).mods.sysrqDown ∧ down ≠ 0 ∧ !(x.noteRepeat keycode down).mods.rep)

/-- **In medium raw mode an event queues its code** and nothing else, if the SysRq
hack leaves it and no number is pending. -/
theorem kbdKeycode_mediumraw (hmode : x.con.kbd.kbdmode = .mediumraw)
    (hpad : x.mods.npadch = -1) {keycode down : Nat} (hsysrq : ¬x.TakenBySysrq e keycode down)
    (hwRaw : Bool) :
    (x.kbdKeycode e keyDown keycode down hwRaw).2.con.flip = x.con.flip.map
        (· ++ (eventCode (keycode, decide (down ≠ 0))).map fun b => (b, false)) ∧
      (x.kbdKeycode e keyDown keycode down hwRaw).2.mods.npadch = -1 := by
  have hput : (x.noteRepeat keycode down).putRaw keycode down hwRaw =
      x.noteRepeat keycode down := by
    rw [putRaw, if_neg]
    rintro ⟨h, _⟩
    exact absurd (hmode.symm.trans h) (by decide)
  rw [kbdKeycode, hput]
  dsimp only
  rw [if_neg fun h => hsysrq ⟨h.1, .inl h.2⟩, if_neg fun h => hsysrq ⟨h.1, .inr h.2⟩, translateKey,
    if_pos (show (x.noteRepeat keycode down).con.kbd.kbdmode = .mediumraw from hmode)]
  have hcode : (x.con.putMediumraw keycode (upFlag down)).flip = x.con.flip.map
      (· ++ (eventCode (keycode, decide (down ≠ 0))).map fun b => (b, false)) := by
    rw [Console.flip_putMediumraw, eventCode_pressed]
  have hkbd := putMediumraw_kbd x.con keycode (upFlag down)
  have hraw : (x.noteRepeat keycode down).rawMode = true :=
    decide_eq_true (.inr (by exact hmode))
  split_ifs with hrep
  · exact ⟨hcode, hpad⟩
  · rw [hraw]
    have h := ((x.noteRepeat keycode down).onCon
      (·.putMediumraw keycode (upFlag down))).lookupKey_raw e (setKey keyDown keycode down)
      (decide_eq_true (.inr (by
        rw [show ((x.noteRepeat keycode down).onCon (·.putMediumraw keycode
          (upFlag down))).con.kbd = x.con.kbd from hkbd]
        exact hmode))) hpad keycode (decide (down ≠ 0))
    exact ⟨h.1.trans hcode, h.2⟩

/-- `kbd_keycode` for each of the events. -/
def kbdKeycodes (hwRaw : Bool) : (Nat → Bool) × Xlate → List (Nat × Nat) → (Nat → Bool) × Xlate
  | s, [] => s
  | s, ev :: events => kbdKeycodes hwRaw (s.2.kbdKeycode e s.1 ev.1 ev.2 hwRaw) events

/-- The keyboard is in medium raw mode at every event, and the SysRq hack takes
none. -/
def AllMediumraw (hwRaw : Bool) : (Nat → Bool) × Xlate → List (Nat × Nat) → Prop
  | _, [] => True
  | s, ev :: events =>
    s.2.con.kbd.kbdmode = .mediumraw ∧ ¬s.2.TakenBySysrq e ev.1 ev.2 ∧
      AllMediumraw hwRaw (s.2.kbdKeycode e s.1 ev.1 ev.2 hwRaw) events

/-- **A run in medium raw mode** queues the codes of its events. -/
theorem kbdKeycodes_mediumraw (hwRaw : Bool) (events : List (Nat × Nat))
    (s : (Nat → Bool) × Xlate) (hpad : s.2.mods.npadch = -1)
    (h : AllMediumraw e hwRaw s events) :
    (kbdKeycodes e hwRaw s events).2.con.flip = s.2.con.flip.map
      (· ++ ((pressed events).flatMap eventCode).map fun b => (b, false)) := by
  induction events generalizing s with
  | nil =>
    rw [pressed, List.map_nil, List.flatMap_nil, List.map_nil]
    simp only [kbdKeycodes, List.append_nil, Option.map_id']
  | cons ev events ih =>
    obtain ⟨hmode, hsysrq, hrest⟩ := h
    obtain ⟨hflip, hpad'⟩ := s.2.kbdKeycode_mediumraw e s.1 hmode hpad hsysrq hwRaw
    rw [kbdKeycodes, ih _ hpad' hrest, hflip, Option.map_map, pressed_cons, List.flatMap_cons,
      List.map_append]
    refine congrArg (Option.map · _) (funext fun l => ?_)
    rw [Function.comp_apply, List.append_assoc]

end Xlate

/-- **Medium raw mode is uniquely decodable**: what the branch queues for a list
of events is read back as the list, no code begins another, and `kbd_keycode` as
a whole queues the same. -/
theorem mediumraw_decodable (events : List (Nat × Nat))
    (hcodes : ∀ ev ∈ events, 1 ≤ ev.1 ∧ ev.1 ≤ 16383) :
    ∃ bytes, readMediumraw bytes = some (pressed events) ∧
      (∀ c : Console, (c.putMediumraws events).flip =
        c.flip.map (· ++ bytes.map fun b => (b, false))) ∧
      (∀ (e : Env) (hwRaw : Bool) (s : (Nat → Bool) × Xlate), s.2.mods.npadch = -1 →
        Xlate.AllMediumraw e hwRaw s events →
        (Xlate.kbdKeycodes e hwRaw s events).2.con.flip =
          s.2.con.flip.map (· ++ bytes.map fun b => (b, false))) ∧
      ∀ a b : Nat × Bool, 1 ≤ a.1 ∧ a.1 ≤ 16383 → 1 ≤ b.1 ∧ b.1 ≤ 16383 →
        eventCode a <+: eventCode b → a = b := by
  refine ⟨(pressed events).flatMap eventCode, readMediumraw_codes ?_,
    fun c => c.flip_putMediumraws events,
    fun e hwRaw s hpad h => Xlate.kbdKeycodes_mediumraw e hwRaw events s hpad h,
    fun a b ha hb h => mediumrawCode_prefix ha hb h⟩
  intro ev hev
  obtain ⟨ev', hev', rfl⟩ := List.mem_map.mp hev
  exact hcodes ev' hev'

/-- A key of either form pressed, repeated and released. -/
theorem mediumraw_decodable_keys :
    ∃ bytes, readMediumraw bytes =
      some [(30, true), (300, true), (300, true), (30, false), (300, false)] := by
  obtain ⟨bytes, hbytes, _⟩ := mediumraw_decodable [(30, 1), (300, 1), (300, 2), (30, 0), (300, 0)]
    (by decide)
  exact ⟨bytes, hbytes⟩

end LinuxConsole.Input
