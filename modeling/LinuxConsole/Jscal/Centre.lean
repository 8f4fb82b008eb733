import LinuxConsole.Jscal.Mapping

/-!
# Testing the centre

`jscal -t` reads the burst of events with which a joystick starts, and
`wait_for_event` one event at a time while a joystick is calibrated.  Both keep
the buttons as the bits of one `int`, and `wait_for_event` keeps in bit 31 that a
key of the keyboard was pressed.

C does not define a shift of an `int` by 32 or more.  `Shifts` is any function
that shifts by less as it should; whatever it does beyond, a 33rd button cannot
be told from the others.  `Holds` is what the bits say after a list of events, and
**`centre_iff`** says for how many buttons the verdict of `jscal -t` is right and
for how many the key has a bit of its own.
-/

namespace LinuxConsole.Jscal

variable {S : System}

/-! ### Events -/

/-- `struct js_event`, less its time. -/
structure JsEvent where
  value : BitVec 16
  type : BitVec 8
  number : BitVec 8
  deriving DecidableEq

/-- `JS_EVENT_BUTTON`, `JS_EVENT_AXIS` and `JS_EVENT_INIT`. -/
def jsEventButton : BitVec 8 := 0x01
def jsEventAxis : BitVec 8 := 0x02
def jsEventInit : BitVec 8 := 0x80

/-- `ev.type & ~JS_EVENT_INIT`. -/
def JsEvent.kind (ev : JsEvent) : BitVec 8 := ev.type &&& ~~~jsEventInit

/-- `struct js_info`. -/
structure JsInfo where
  buttons : BitVec 32
  axis : Nat → BitVec 32

/-- A static one. -/
def JsInfo.zero : JsInfo := ⟨0, fun _ => 0⟩

/-- A left shift of an `int`, which is defined for less than 32 places. -/
structure Shifts where
  shl : BitVec 32 → Nat → BitVec 32
  shl_of_lt : ∀ v n, n < 32 → shl v n = v <<< n

variable (M : Shifts)

/-- The `switch` over the kind of an event. -/
def JsInfo.event (s : JsInfo) (ev : JsEvent) : JsInfo :=
  if ev.kind = jsEventAxis then
    { s with axis := Function.update s.axis ev.number.toNat (ev.value.signExtend 32) }
  else if ev.kind = jsEventButton then
    { s with
      buttons := (s.buttons &&& ~~~M.shl 1 ev.number.toNat) |||
        M.shl (ev.value.signExtend 32) ev.number.toNat }
  else s

/-- `test_center`: the status with which `jscal` exits.  `nonblocking` is whether
`fcntl` succeeds. -/
def testCenter (ok : Call → Bool) (nonblocking : Bool) (d : Joystick S) (burst : List JsEvent) :
    Nat :=
  if !ok .axes then 1
  else if !ok .buttons then 1
  else if !nonblocking then 1
  else
    let js := burst.foldl (JsInfo.event M) .zero
    if (List.range (signedChar d.axmap.length).toNat).any fun i => js.axis i ≠ 0 then 2
    else if js.buttons ≠ 0 then 3
    else 0

/-- What `wait_for_event` finds: nothing in a tenth of a second, or an event that
it reads whole, or a key, or both. -/
inductive Ready
  | timeout
  | ready (ev : Option JsEvent) (key : Bool)
  deriving DecidableEq

/-- `wait_for_event`. -/
def waitForEvent (s : JsInfo) : Ready → JsInfo
  | .timeout => { s with buttons := s.buttons &&& ~~~M.shl 1 31 }
  | .ready ev key =>
    let s := ev.elim s fun ev => s.event M ev
    if key then { s with buttons := s.buttons ||| M.shl 1 31 } else s

/-! ### What they should say -/

/-- The events are those of the joystick: its axes and its buttons, which are
pressed or released. -/
def Joystick.Sends (d : Joystick S) (ev : JsEvent) : Prop :=
  (ev.kind = jsEventAxis → ev.number.toNat < d.axmap.length) ∧
    (ev.kind = jsEventButton → ev.number.toNat < d.btnmap.length ∧ (ev.value = 0 ∨ ev.value = 1))

/-- The value in the last event of the axis `i`, or of the button, or 0. -/
def lastValue (kind : BitVec 8) (i : Nat) (burst : List JsEvent) : BitVec 16 :=
  burst.foldl (fun v ev => if ev.kind = kind ∧ ev.number.toNat = i then ev.value else v) 0

/-- **The verdict of the manual.** -/
def Verdict (burst : List JsEvent) (status : Nat) : Prop :=
  ((∃ i, lastValue jsEventAxis i burst ≠ 0) → status = 2) ∧
    ((¬∃ i, lastValue jsEventAxis i burst ≠ 0) →
      ((∃ i, lastValue jsEventButton i burst ≠ 0) → status = 3) ∧
        ((¬∃ i, lastValue jsEventButton i burst ≠ 0) → status = 0))

/-- `jscal -t` exits with this status, or with 1 if a call has failed. -/
def CentreTested (d : Joystick S) : Prop :=
  ∀ (ok : Call → Bool) (nonblocking : Bool) (burst : List JsEvent), (∀ ev ∈ burst, d.Sends ev) →
    if ok .axes ∧ ok .buttons ∧ nonblocking then
      Verdict burst (testCenter M ok nonblocking d burst)
    else testCenter M ok nonblocking d burst = 1

/-- The last key was pressed after the last pause. -/
def keyPressed (rs : List Ready) : Bool :=
  rs.foldl
    (fun v r =>
      match r with
      | .timeout => false
      | .ready _ key => v || key)
    false

/-- The events that have been read. -/
def readEvents (rs : List Ready) : List JsEvent :=
  rs.filterMap fun r =>
    match r with
    | .timeout => none
    | .ready ev _ => ev

/-- **Every button and the key have a bit of their own.** -/
def KeptApart (d : Joystick S) : Prop :=
  ∀ rs, (∀ ev ∈ readEvents rs, d.Sends ev) →
    (∀ b < d.btnmap.length, (rs.foldl (waitForEvent M) .zero).buttons.getLsbD b =
      decide (lastValue jsEventButton b (readEvents rs) ≠ 0)) ∧
      (rs.foldl (waitForEvent M) .zero).buttons.getLsbD 31 = keyPressed rs

/-! ### Bits -/

theorem event_bit {d : Joystick S} {s : JsInfo} {ev : JsEvent} (h : d.Sends ev)
    (hfew : d.btnmap.length ≤ 32) {b : Nat} (hb : b < 32) :
    (s.event M ev).buttons.getLsbD b =
      if ev.kind = jsEventButton ∧ ev.number.toNat = b then decide (ev.value ≠ 0)
      else s.buttons.getLsbD b := by
  rw [JsInfo.event]
  by_cases haxis : ev.kind = jsEventAxis
  · rw [if_pos haxis, if_neg fun hbutton => absurd (haxis.symm.trans hbutton.1) (by decide)]
  · rw [if_neg haxis]
    by_cases hbutton : ev.kind = jsEventButton
    · obtain ⟨hnumber, hvalue⟩ := h.2 hbutton
      rw [if_pos hbutton, M.shl_of_lt _ _ (by omega), M.shl_of_lt _ _ (by omega)]
      have hone : ∀ k, (1 : BitVec 32).getLsbD k = decide (k = 0) := fun k => by
        simp [BitVec.getLsbD_one]
      have hext : ∀ k, (ev.value.signExtend 32).getLsbD k =
          (decide (ev.value ≠ 0) && decide (k = 0)) := by
        intro k
        rcases hvalue with hv | hv <;> rw [hv]
        · simp
        · rw [show (1 : BitVec 16).signExtend 32 = 1 by decide, hone]
          simp
      simp only [hbutton, true_and, BitVec.getLsbD_or, BitVec.getLsbD_and, BitVec.getLsbD_not,
        BitVec.getLsbD_shiftLeft, hone, hext]
      by_cases hn : ev.number.toNat = b
      · simp [hn, hb]
      · by_cases hlt : b < ev.number.toNat
        · simp [hn, hb, hlt]
        · have hpos : b - ev.number.toNat ≠ 0 := by omega
          simp [hn, hb, hlt, hpos]
    · rw [if_neg hbutton, if_neg fun h => hbutton h.1]

theorem event_axis (s : JsInfo) (ev : JsEvent) (i : Nat) :
    (s.event M ev).axis i =
      if ev.kind = jsEventAxis ∧ ev.number.toNat = i then ev.value.signExtend 32
      else s.axis i := by
  rw [JsInfo.event]
  by_cases haxis : ev.kind = jsEventAxis
  · rw [if_pos haxis]
    by_cases hi : ev.number.toNat = i
    · rw [if_pos ⟨haxis, hi⟩, ← hi]
      exact Function.update_self ..
    · rw [if_neg fun h => hi h.2]
      exact Function.update_of_ne (Ne.symm hi) ..
  · rw [if_neg haxis, if_neg (show ¬(ev.kind = jsEventAxis ∧ ev.number.toNat = i) from
      fun h => haxis h.1)]
    split_ifs <;> rfl

theorem lastValue_concat (kind : BitVec 8) (i : Nat) (burst : List JsEvent) (ev : JsEvent) :
    lastValue kind i (burst ++ [ev]) =
      if ev.kind = kind ∧ ev.number.toNat = i then ev.value else lastValue kind i burst := by
  rw [lastValue, List.foldl_concat, ← lastValue]

theorem exists_of_lastValue {kind : BitVec 8} {i : Nat} {burst : List JsEvent}
    (h : lastValue kind i burst ≠ 0) :
    ∃ ev ∈ burst, ev.kind = kind ∧ ev.number.toNat = i := by
  induction burst using List.reverseRecOn with
  | nil => exact absurd rfl h
  | append_singleton burst ev ih =>
    rw [lastValue_concat] at h
    by_cases hev : ev.kind = kind ∧ ev.number.toNat = i
    · exact ⟨ev, List.mem_append_right _ (List.mem_singleton_self ev), hev⟩
    · rw [if_neg hev] at h
      obtain ⟨ev', hmem, hev'⟩ := ih h
      exact ⟨ev', List.mem_append_left _ hmem, hev'⟩

/-- **What the fields say after a list of events**: the last value of every axis,
and of every button. -/
theorem foldl_event {d : Joystick S} (hfew : d.btnmap.length ≤ 32) {burst : List JsEvent}
    (h : ∀ ev ∈ burst, d.Sends ev) :
    (∀ i, (burst.foldl (JsInfo.event M) .zero).axis i =
      (lastValue jsEventAxis i burst).signExtend 32) ∧
      ∀ b < 32, (burst.foldl (JsInfo.event M) .zero).buttons.getLsbD b =
        decide (lastValue jsEventButton b burst ≠ 0) := by
  induction burst using List.reverseRecOn with
  | nil => exact ⟨fun _ => rfl, fun b _ => by simp [JsInfo.zero, lastValue]⟩
  | append_singleton burst ev ih =>
    obtain ⟨haxis, hbutton⟩ := ih fun ev' hev => h ev' (List.mem_append_left _ hev)
    have hev := h ev (List.mem_append_right _ (List.mem_singleton_self ev))
    rw [List.foldl_concat]
    refine ⟨fun i => ?_, fun b hb => ?_⟩
    · rw [event_axis, lastValue_concat, haxis]
      split_ifs <;> rfl
    · rw [event_bit M hev hfew hb, lastValue_concat, hbutton b hb]
      split_ifs <;> rfl

/-! ### The verdict -/

theorem signExtend_ne_zero {v : BitVec 16} : v.signExtend 32 ≠ 0 ↔ v ≠ 0 := by
  refine not_congr ⟨fun h => ?_, fun h => by rw [h]; decide⟩
  have hback : (v.signExtend 32).setWidth 16 = v := by
    ext i hi
    rw [BitVec.getElem_setWidth, BitVec.getLsbD_eq_getElem (by omega),
      BitVec.getElem_signExtend, dif_pos hi]
  rw [← hback, h]
  decide

theorem testCenter_verdict {d : Joystick S} (hfew : d.btnmap.length ≤ 32)
    {ok : Call → Bool} {nonblocking : Bool} (hok : ok .axes ∧ ok .buttons ∧ nonblocking)
    {burst : List JsEvent} (h : ∀ ev ∈ burst, d.Sends ev) :
    Verdict burst (testCenter M ok nonblocking d burst) := by
  obtain ⟨haxis, hbutton⟩ := foldl_event M hfew h
  have hoff : ((List.range (signedChar d.axmap.length).toNat).any fun i =>
      (burst.foldl (JsInfo.event M) .zero).axis i ≠ 0) = true ↔
      ∃ i, lastValue jsEventAxis i burst ≠ 0 := by
    rw [List.any_eq_true, d.signedChar_axes, Int.toNat_natCast]
    constructor
    · rintro ⟨i, -, hi⟩
      exact ⟨i, signExtend_ne_zero.mp (haxis i ▸ of_decide_eq_true hi)⟩
    · rintro ⟨i, hi⟩
      obtain ⟨ev, hev, hkind, hnumber⟩ := exists_of_lastValue hi
      refine ⟨i, List.mem_range.mpr (hnumber ▸ (h ev hev).1 hkind), decide_eq_true ?_⟩
      rw [haxis]
      exact signExtend_ne_zero.mpr hi
  have hheld : (burst.foldl (JsInfo.event M) .zero).buttons ≠ 0 ↔
      ∃ i, lastValue jsEventButton i burst ≠ 0 := by
    constructor
    · intro hne
      by_contra hnone
      refine hne (BitVec.eq_of_getLsbD_eq fun b hb => ?_)
      rw [hbutton b hb, decide_eq_false fun hb => hnone ⟨b, hb⟩]
      exact BitVec.getLsbD_zero.symm
    · rintro ⟨b, hb⟩ hzero
      obtain ⟨ev, hev, hkind, hnumber⟩ := exists_of_lastValue hb
      have hlt := ((h ev hev).2 hkind).1
      have hbit := hbutton b (by omega)
      rw [hzero, decide_eq_true hb] at hbit
      exact Bool.false_ne_true (BitVec.getLsbD_zero.symm.trans hbit)
  rw [testCenter, if_neg (by simp [hok.1]), if_neg (by simp [hok.2.1]),
    if_neg (by simp [hok.2.2])]
  dsimp only
  split_ifs with haway hpressed
  · exact ⟨fun _ => rfl, fun hnot => absurd (hoff.mp haway) hnot⟩
  · refine ⟨fun hyes => absurd (hoff.mpr hyes) haway, fun _ => ⟨fun _ => rfl, fun hnot => ?_⟩⟩
    exact absurd (hheld.mp hpressed) hnot
  · refine ⟨fun hyes => absurd (hoff.mpr hyes) haway, fun _ => ⟨fun hyes => ?_, fun _ => rfl⟩⟩
    exact absurd (hheld.mpr hyes) hpressed

/-- A press and a release of the button `n`. -/
def press (n : Nat) : JsEvent := ⟨1, jsEventButton, BitVec.ofNat 8 n⟩
def release (n : Nat) : JsEvent := ⟨0, jsEventButton, BitVec.ofNat 8 n⟩

theorem kind_button : jsEventButton &&& ~~~jsEventInit = jsEventButton := by decide

theorem kind_press (n : Nat) : (press n).kind = jsEventButton := kind_button

theorem kind_release (n : Nat) : (release n).kind = jsEventButton := kind_button

theorem toNat_number {n : Nat} (hn : n < 256) : (BitVec.ofNat 8 n).toNat = n := by
  rw [BitVec.toNat_ofNat]
  exact Nat.mod_eq_of_lt (by omega)

theorem sends_press {d : Joystick S} {n : Nat} (hn : n < d.btnmap.length) :
    d.Sends (press n) ∧ d.Sends (release n) := by
  have hlt := d.buttons_lt
  have hnumber : (BitVec.ofNat 8 n).toNat = n := toNat_number (by omega)
  constructor
  · exact ⟨fun h => absurd ((kind_press n).symm.trans h) (by decide),
      fun _ => ⟨lt_of_eq_of_lt hnumber hn, .inr rfl⟩⟩
  · exact ⟨fun h => absurd ((kind_release n).symm.trans h) (by decide),
      fun _ => ⟨lt_of_eq_of_lt hnumber hn, .inl rfl⟩⟩

theorem event_press {n : Nat} (hn : n < 256) (s : JsInfo) :
    (s.event M (press n)).buttons = (s.buttons &&& ~~~M.shl 1 n) ||| M.shl 1 n := by
  rw [JsInfo.event, if_neg (by rw [kind_press]; decide), if_pos (kind_press n)]
  dsimp only [press]
  rw [toNat_number hn, show (1 : BitVec 16).signExtend 32 = 1 by decide]

theorem event_release {n : Nat} (hn : n < 256) (s : JsInfo) :
    (s.event M (release n)).buttons = (s.buttons &&& ~~~M.shl 1 n) ||| M.shl 0 n := by
  rw [JsInfo.event, if_neg (by rw [kind_release]; decide), if_pos (kind_release n)]
  dsimp only [release]
  rw [toNat_number hn, show (0 : BitVec 16).signExtend 32 = 0 by decide]

/-- Where only buttons have sent events the verdict is about their bits. -/
theorem CentreTested.buttons {d : Joystick S} (h : CentreTested M d) {burst : List JsEvent}
    (hsends : ∀ ev ∈ burst, d.Sends ev) (hkind : ∀ ev ∈ burst, ev.kind = jsEventButton) :
    (burst.foldl (JsInfo.event M) .zero).buttons ≠ 0 ↔
      ∃ i, lastValue jsEventButton i burst ≠ 0 := by
  have hstill : ∀ i, lastValue jsEventAxis i burst = 0 ∧
      (burst.foldl (JsInfo.event M) .zero).axis i = 0 := by
    intro i
    induction burst using List.reverseRecOn with
    | nil => exact ⟨rfl, rfl⟩
    | append_singleton burst ev ih =>
      obtain ⟨hlast, haxis⟩ := ih (fun ev' hev => hsends ev' (List.mem_append_left _ hev))
        fun ev' hev => hkind ev' (List.mem_append_left _ hev)
      have hev := hkind ev (List.mem_append_right _ (List.mem_singleton_self ev))
      have hno : ¬(ev.kind = jsEventAxis ∧ ev.number.toNat = i) := fun hyes =>
        absurd (hev.symm.trans hyes.1) (by decide)
      rw [lastValue_concat, List.foldl_concat, event_axis, if_neg hno, if_neg hno]
      exact ⟨hlast, haxis⟩
  have hright := h (fun _ => true) true burst hsends
  have hbuttons := hright.2 fun ⟨i, hi⟩ => hi (hstill i).1
  rw [testCenter, if_neg (by simp), if_neg (by simp), if_neg (by simp),
    if_neg (by simp [(hstill _).2])] at hbuttons
  by_cases hzero : (burst.foldl (JsInfo.event M) .zero).buttons = 0
  · rw [if_neg (not_not_intro hzero)] at hbuttons
    exact iff_of_false (not_not_intro hzero) fun hyes => absurd (hbuttons.1 hyes) (by decide)
  · rw [if_pos hzero] at hbuttons
    exact iff_of_true hzero (by_contra fun hno => absurd (hbuttons.2 hno) (by decide))

/-- **A 33rd button cannot be told from the others**, whatever a shift by 32
does: its release sets a bit, or its press sets none, or it has a bit of another
button and its release clears that. -/
theorem not_centreTested {d : Joystick S} (hmany : 32 < d.btnmap.length) :
    ¬CentreTested M d := by
  intro h
  obtain ⟨hpress, hrelease⟩ := sends_press hmany
  have hzero : M.shl 0 32 = 0 := by
    by_contra hne
    have hsent : ∀ ev ∈ [release 32], d.Sends ev := fun ev hev =>
      List.mem_singleton.mp hev ▸ hrelease
    obtain ⟨i, hi⟩ := (h.buttons M hsent
      fun ev hev => List.mem_singleton.mp hev ▸ kind_release 32).mp (by
        rw [List.foldl_cons, List.foldl_nil, event_release M (by decide)]
        simpa [JsInfo.zero] using hne)
    rw [show [release 32] = [] ++ [release 32] from rfl, lastValue_concat] at hi
    split_ifs at hi
    · exact hi rfl
    · exact hi rfl
  have hone : M.shl 1 32 ≠ 0 := by
    intro heq
    have hsent : ∀ ev ∈ [press 32], d.Sends ev := fun ev hev =>
      List.mem_singleton.mp hev ▸ hpress
    have hset := (h.buttons M hsent
      fun ev hev => List.mem_singleton.mp hev ▸ kind_press 32).mpr ⟨32, by decide⟩
    rw [List.foldl_cons, List.foldl_nil, event_press M (by decide), heq] at hset
    exact hset (by simp [JsInfo.zero])
  obtain ⟨n, hn, hbit⟩ : ∃ n < 32, (M.shl 1 32).getLsbD n = true := by
    by_contra hnone
    refine hone (BitVec.eq_of_getLsbD_eq fun n hn => ?_)
    rw [Bool.eq_false_iff.mpr fun hyes => hnone ⟨n, hn, hyes⟩]
    exact BitVec.getLsbD_zero.symm
  have hsends : d.Sends (press n) := (sends_press (by omega)).1
  have hsent : ∀ ev ∈ [press n, release 32], d.Sends ev := by
    intro ev hev
    rcases List.mem_cons.mp hev with rfl | hev
    · exact hsends
    · exact List.mem_singleton.mp hev ▸ hrelease
  have hset := (h.buttons M hsent
    (fun ev hev => by
      rcases List.mem_cons.mp hev with rfl | hev
      · exact kind_press n
      · exact List.mem_singleton.mp hev ▸ kind_release 32)).mpr ⟨n, by
        rw [show [press n, release 32] = ([] ++ [press n]) ++ [release 32] from rfl,
          lastValue_concat, lastValue_concat, if_neg,
          if_pos ⟨kind_press n, toNat_number (by omega)⟩]
        · exact (by decide : (1 : BitVec 16) ≠ 0)
        · rintro ⟨-, hsame⟩
          have : (BitVec.ofNat 8 32).toNat = 32 := rfl
          have : (BitVec.ofNat 8 32).toNat = n := hsame
          omega⟩
  refine hset (BitVec.eq_of_getLsbD_eq fun b hb => ?_)
  rw [List.foldl_cons, List.foldl_cons, List.foldl_nil, event_release M (by decide),
    event_press M (by omega), hzero, M.shl_of_lt _ _ hn]
  by_cases hbn : b = n
  · subst hbn
    simp only [JsInfo.zero, BitVec.getLsbD_or, BitVec.getLsbD_and, BitVec.getLsbD_not, hbit]
    simp
  · have : (b < n) ∨ b - n ≠ 0 := by omega
    rcases this with hlt | hne
    · simp [hb, hlt, JsInfo.zero]
    · simp [hb, hne, JsInfo.zero]

/-! ### The key -/

theorem shl_one_bit {n b : Nat} (hn : n < 32) (hb : b < 32) :
    (M.shl 1 n).getLsbD b = decide (n = b) := by
  rw [M.shl_of_lt _ _ hn, BitVec.getLsbD_shiftLeft]
  by_cases hlt : b < n
  · simp [hlt, hb, Nat.ne_of_gt hlt]
  · by_cases heq : n = b
    · simp [heq, hb]
    · have hpos : b - n ≠ 0 := by omega
      simp [hlt, hb, hpos, heq]

/-- With at most 31 buttons each has a bit of its own, and so has the key. -/
theorem keptApart {d : Joystick S} (hfew : d.btnmap.length ≤ 31) : KeptApart M d := by
  intro rs
  suffices h : (∀ ev ∈ readEvents rs, d.Sends ev) →
      (∀ b < 31, (rs.foldl (waitForEvent M) .zero).buttons.getLsbD b =
        decide (lastValue jsEventButton b (readEvents rs) ≠ 0)) ∧
        (rs.foldl (waitForEvent M) .zero).buttons.getLsbD 31 = keyPressed rs from
    fun hsends => ⟨fun b hb => (h hsends).1 b (by omega), (h hsends).2⟩
  induction rs using List.reverseRecOn with
  | nil =>
    exact fun _ => ⟨fun b _ => by simp [JsInfo.zero, readEvents, lastValue],
      by simp [JsInfo.zero, keyPressed]⟩
  | append_singleton rs r ih =>
    intro hsends
    have hread : readEvents (rs ++ [r]) = readEvents rs ++ readEvents [r] :=
      List.filterMap_append
    rw [hread] at hsends ⊢
    obtain ⟨hbits, hkey⟩ := ih fun ev hev => hsends ev (List.mem_append_left _ hev)
    rw [List.foldl_concat, keyPressed, List.foldl_concat, ← keyPressed]
    generalize hs : rs.foldl (waitForEvent M) .zero = s at hbits hkey ⊢
    cases r with
    | timeout =>
      rw [show readEvents [Ready.timeout] = [] from rfl, List.append_nil, waitForEvent]
      refine ⟨fun b hb => ?_, ?_⟩
      · rw [BitVec.getLsbD_and, BitVec.getLsbD_not, shl_one_bit M (by decide) (by omega),
          decide_eq_false (show ¬31 = b by omega), hbits b hb]
        simp [show b < 32 by omega]
      · rw [BitVec.getLsbD_and, BitVec.getLsbD_not, shl_one_bit M (by decide) (by decide)]
        simp
    | ready ev key =>
      -- The event first, which leaves bit 31 alone.
      obtain ⟨t, ht, htbits, htkey⟩ : ∃ t, t = ev.elim s (fun ev => s.event M ev) ∧
          (∀ b < 31, t.buttons.getLsbD b = decide (lastValue jsEventButton b
            (readEvents rs ++ readEvents [.ready ev key]) ≠ 0)) ∧
          t.buttons.getLsbD 31 = keyPressed rs := by
        refine ⟨_, rfl, ?_⟩
        cases ev with
        | none =>
          rw [show readEvents [Ready.ready none key] = [] from rfl, List.append_nil]
          exact ⟨hbits, hkey⟩
        | some ev =>
          have hev : d.Sends ev := hsends ev (List.mem_append_right _ List.mem_cons_self)
          rw [show readEvents [Ready.ready (some ev) key] = [ev] from rfl]
          refine ⟨fun b hb => ?_, ?_⟩
          · rw [Option.elim_some, event_bit M hev (by omega) (by omega), lastValue_concat,
              hbits b hb]
            split_ifs <;> rfl
          · rw [Option.elim_some, event_bit M hev (by omega) (by decide), hkey, if_neg]
            rintro ⟨hkind, hnumber⟩
            have := (hev.2 hkind).1
            omega
      rw [waitForEvent, ← ht]
      dsimp only
      cases key with
      | false =>
        rw [if_neg Bool.false_ne_true, Bool.or_false]
        exact ⟨htbits, htkey⟩
      | true =>
        rw [if_pos rfl, Bool.or_true]
        refine ⟨fun b hb => ?_, ?_⟩
        · rw [BitVec.getLsbD_or, shl_one_bit M (by decide) (by omega),
            decide_eq_false (show ¬31 = b by omega), Bool.or_false, htbits b hb]
        · rw [BitVec.getLsbD_or, shl_one_bit M (by decide) (by decide)]
          simp

/-- **The verdict is right for at most 32 buttons, and the key has a bit of its own
beside at most 31.** -/
theorem centre_iff (d : Joystick S) :
    (CentreTested M d ↔ d.btnmap.length ≤ 32) ∧ (KeptApart M d ↔ d.btnmap.length ≤ 31) := by
  refine ⟨⟨fun h => ?_, fun hfew ok nonblocking burst hsends => ?_⟩,
    ⟨fun h => ?_, keptApart M⟩⟩
  · by_contra hmany
    exact not_centreTested M (Nat.lt_of_not_le hmany) h
  · split_ifs with hok
    · exact testCenter_verdict M hfew hok hsends
    · rw [testCenter]
      split_ifs with haxes hbuttons hnon
      · rfl
      · rfl
      · rfl
      all_goals exact absurd (by simp_all : ok .axes ∧ ok .buttons ∧ nonblocking) hok
  · -- A key sets the bit of the button 31.
    by_contra hmany
    obtain ⟨hbits, hkey⟩ := h [.ready none true] fun ev hev => absurd hev (List.not_mem_nil)
    have hbutton := hbits 31 (by omega)
    rw [hkey] at hbutton
    exact absurd hbutton (by decide)

/-- Shifts that go on beyond 32, as on a processor that takes the count modulo 32. -/
def wrapping : Shifts where
  shl v n := v <<< (n % 32)
  shl_of_lt v n h := by rw [Nat.mod_eq_of_lt h]

/-- A joystick with 33 buttons and no axis. -/
def thirtyThreeButtons : Joystick linux where
  axmap := []
  corr := []
  btnmap := (List.range 33).map (BitVec.ofNat 16)
  corr_length := rfl
  axes_le := by decide
  buttons_lt := by decide

/-- The release of the button 32 hides that the button 0 is held, and a key is
taken for the button 31. -/
theorem button_hidden :
    ((∀ ev ∈ [press 0, release 32], thirtyThreeButtons.Sends ev) ∧
      testCenter wrapping (fun _ => true) true thirtyThreeButtons [press 0, release 32] = 0 ∧
      ¬Verdict [press 0, release 32] 0) ∧
    ([Ready.ready none true].foldl (waitForEvent wrapping) .zero).buttons.getLsbD 31 = true := by
  refine ⟨⟨fun ev hev => ?_, by decide, fun h => ?_⟩, by decide⟩
  · rcases List.mem_cons.mp hev with rfl | hev
    · exact (sends_press (by decide)).1
    · exact List.mem_singleton.mp hev ▸ (sends_press (by decide)).2
  have hstill : ¬∃ i, lastValue jsEventAxis i [press 0, release 32] ≠ 0 := by
    rintro ⟨i, hi⟩
    obtain ⟨ev, hev, hkind, -⟩ := exists_of_lastValue hi
    rcases List.mem_cons.mp hev with rfl | hev
    · exact absurd hkind (by decide)
    · rw [List.mem_singleton.mp hev] at hkind
      exact absurd hkind (by decide)
  exact absurd ((h.2 hstill).1 ⟨0, by decide⟩) (by decide)

end LinuxConsole.Jscal
