import LinuxConsole.Kbd.Event
import LinuxConsole.Lib.Unwinding

/-!
# Seats that do not see each other

What the keyboard of one VT can see of another's: the translator's globals are
shared, and a request for a console goes by its number, which may be that of a
console of another VT.

`view` is what a seat depends on.  Of the keys that are down only those that the
plain map makes modifiers count, and the flag `rep` is written before it is read.
A seat's own events take equal views to equal views (`own_congruent`), and
**`seats_isolated`** says that what is queued on a seat depends on its own events
alone in every run in which the other seats' events are quiet: they do not touch
a modifier, a dead or compose key, the number on the pad or SysRq.
-/

namespace LinuxConsole.Input

open Switch (Pools)

variable {N : Nat}

/-! ### What a seat depends on -/

/-- The modifiers among the keys that are down. -/
def modifiersDown (plainMap : Nat → Nat) (keyDown : Nat → Bool) (k : Nat) : Bool :=
  keyDown k && isShiftKey plainMap k

/-- The globals but `rep`. -/
def Mods.lasting (m : Mods) : Mods := { m with rep := false }

/-- **What a seat depends on.** -/
def Machine.view (e : Env) (v : Fin N) (m : Machine N) : (Nat → Bool) × Mods × Seat :=
  (modifiersDown e.plainMap m.keyDown, m.mods.lasting, m.seat v)

/-- The counts and the state that `compute_shiftstate` would give are those in
force. -/
def Mods.Settled (m : Mods) (plainMap : Nat → Nat) (keyDown : Nat → Bool) : Prop :=
  shiftstateOf plainMap keyDown = (m.shiftDown, m.shiftState)

/-! ### Quiet events -/

/-- A special function that leaves the globals alone. -/
def QuietSpec (e : Env) (keyDown : Nat → Bool) (x : Xlate) (value : Nat) : Prop :=
  match value with
  | 0 => x.mods.Settled e.plainMap keyDown
  | 1 => x.mods.diacr = 0
  | 14 => x.mods.deadKeyNext = true
  | _ => True

/-- A dead key that finds the accent as it would leave it. -/
def QuietDead (e : Env) (x : Xlate) (ch : UInt8) : Prop :=
  if x.mods.diacr = 0 then ch = 0
  else
    match e.accentTable.find? fun a => a.1 = x.mods.diacr ∧ a.2.1 = ch with
    | some a => a.2.2 = x.mods.diacr
    | none => ch = 0x20 ∨ ch = x.mods.diacr

/-- A digit that leaves the number as it is. -/
def QuietDigit (x : Xlate) (value : Nat) : Prop :=
  x.mods.npadch ≠ -1 ∧
    x.mods.npadch * BitVec.ofNat 32 (if value < 10 then 10 else 16) +
      BitVec.ofNat 32 (if value < 10 then value else value - 10) = x.mods.npadch

/-- A modifier that repeats, or that is released and is not in force. -/
def QuietShift (x : Xlate) (value down : Nat) : Prop :=
  down = 2 ∨ (down = 0 ∧ x.mods.shiftDown value = 0 ∧ x.mods.shiftState.testBit value = false)

/-- A handler that leaves the globals alone and asks for no console that `taken`
names. -/
def QuietHandler (e : Env) (taken : Nat → Prop) (keyDown : Nat → Bool) (x : Xlate)
    (type value down : Nat) : Prop :=
  match type with
  | 0 => down ≠ 0 → x.mods.diacr = 0 ∧ x.mods.deadKeyNext = false
  | 2 =>
    down ≠ 0 → value < 20 → ¬ (x.rawMode = true ∧ value ≠ 15) → QuietSpec e keyDown x value
  | 4 => down ≠ 0 → QuietDead e x (UInt8.ofNat (Xlate.retDiacr.getD value 0))
  | 13 => down ≠ 0 → QuietDead e x (UInt8.ofNat value)
  | 9 => down ≠ 0 → QuietDigit x value
  | 5 => down ≠ 0 → ¬ taken value
  | 7 => QuietShift x (if value = kgCapsshift then kgShift else value) down
  | 12 => QuietShift x (if value = kgCapsshift then kgShift else value) down
  | _ => True

/-- The key, looked up, leaves the globals alone. -/
def QuietLookup (e : Env) (taken : Nat → Prop) (keyDown : Nat → Bool) (x : Xlate)
    (keycode down : Nat) : Prop :=
  match Xlate.keyMap e x.shiftFinal with
  | none => x.mods.Settled e.plainMap keyDown
  | some m =>
    keycode ≤ e.nrKeys → 0xf0 ≤ m keycode >>> 8 →
      ¬ (x.rawMode = true ∧ m keycode >>> 8 - 0xf0 ≠ ktSpec ∧ m keycode >>> 8 - 0xf0 ≠ ktShift) →
        QuietHandler e taken keyDown x (x.typeAndValue e (m keycode) keycode).1
          (x.typeAndValue e (m keycode) keycode).2 down

/-- The key leaves the globals alone. -/
def QuietKey (e : Env) (taken : Nat → Prop) (keyDown : Nat → Bool) (x : Xlate)
    (keycode down : Nat) : Prop :=
  (keycode = keyLeftalt ∨ keycode = keyRightalt → x.mods.sysrqAlt = decide (down ≠ 0)) ∧
    if e.magicSysrq ∧ keycode = keySysrq ∧ (x.mods.sysrqDown ∨ (down = 1 ∧ x.mods.sysrqAlt)) then
      x.mods.sysrqDown = decide (down ≠ 0)
    else if e.magicSysrq ∧ x.mods.sysrqDown ∧ down ≠ 0 ∧ down ≠ 2 then True
    else
      (isShiftKey e.plainMap keycode = true → keyDown keycode = decide (down ≠ 0)) ∧
        ((down = 2 → x.con.getKbdMode vcRepeat = true) →
          QuietLookup e taken (Xlate.setKey keyDown keycode down) x keycode down)

/-- The number, counted from the first of `w`, is that of a console of `v`. -/
def Machine.Takes (P : Pools N) (m : Machine N) (v w : Fin N) (value : Nat) : Prop :=
  Switch.Kernel.poolOf P (value + P.firstVc w) = some v ∧
    (m.seat v).slots (value + P.firstVc w - P.firstVc v) = true

/-- **An event of another seat that the seat `v` does not see.** -/
def Machine.Quiet (P : Pools N) (e : Env) (v : Fin N) (m : Machine N) (a : Fin N × Event) : Prop :=
  match a.2 with
  | .raw _ => True
  | .key keycode value => QuietKey e (m.Takes P v a.1) m.keyDown (m.xlate a.1) keycode value
  | .work goes =>
    goes = true → (m.seat a.1).wantVc ≠ (m.seat a.1).fgConsole →
      m.mods.Settled e.plainMap m.keyDown

/-! ### Own events -/

theorem shiftstateOf_congr {plainMap : Nat → Nat} {kd kd' : Nat → Bool}
    (h : modifiersDown plainMap kd = modifiersDown plainMap kd') :
    shiftstateOf plainMap kd = shiftstateOf plainMap kd' := by
  have hk : ∀ k, (kd k && isShiftKey plainMap k) = (kd' k && isShiftKey plainMap k) := congrFun h
  unfold shiftstateOf
  simp only [hk]

theorem computeShiftstate_congr {plainMap : Nat → Nat} {kd kd' : Nat → Bool} (m : Mods)
    (h : modifiersDown plainMap kd = modifiersDown plainMap kd') :
    m.computeShiftstate plainMap kd = m.computeShiftstate plainMap kd' := by
  unfold Mods.computeShiftstate
  rw [shiftstateOf_congr h]

namespace Xlate

variable {e : Env} {kd kd' : Nat → Bool}

theorem kHandler_congr (h : modifiersDown e.plainMap kd = modifiersDown e.plainMap kd')
    (x : Xlate) (type value : Nat) (up : Bool) :
    x.kHandler e kd type value up = x.kHandler e kd' type value up := by
  have hspec : x.kSpec e kd value up = x.kSpec e kd' value up := by
    have hnull : x.fnNull e kd = x.fnNull e kd' := by
      unfold fnNull
      rw [computeShiftstate_congr x.mods h]
    unfold kSpec fnHandler
    rw [hnull]
  unfold kHandler
  rw [hspec]

theorem lookupKey_congr (h : modifiersDown e.plainMap kd = modifiersDown e.plainMap kd')
    (x : Xlate) (keycode : Nat) (down rawMode : Bool) :
    x.lookupKey e kd keycode down rawMode = x.lookupKey e kd' keycode down rawMode := by
  unfold lookupKey handleKey
  simp only [computeShiftstate_congr x.mods h, kHandler_congr h]

theorem setKey_congr (h : modifiersDown e.plainMap kd = modifiersDown e.plainMap kd')
    (keycode down : Nat) :
    modifiersDown e.plainMap (setKey kd keycode down) =
      modifiersDown e.plainMap (setKey kd' keycode down) := by
  funext k
  have hk := congrFun h k
  unfold modifiersDown setKey at *
  by_cases hkey : k = keycode
  · rw [hkey, Function.update_self, Function.update_self]
  · rw [Function.update_of_ne hkey, Function.update_of_ne hkey]
    exact hk

theorem translateKey_congr (h : modifiersDown e.plainMap kd = modifiersDown e.plainMap kd')
    (x : Xlate) (keycode down : Nat) :
    modifiersDown e.plainMap (x.translateKey e kd keycode down).1 =
        modifiersDown e.plainMap (x.translateKey e kd' keycode down).1 ∧
      (x.translateKey e kd keycode down).2 = (x.translateKey e kd' keycode down).2 := by
  have hset := setKey_congr h keycode down
  unfold translateKey
  dsimp only
  simp only [lookupKey_congr hset]
  split_ifs <;> exact ⟨hset, rfl⟩

theorem noteRepeat_congr {x x' : Xlate} (hmods : x.mods.lasting = x'.mods.lasting)
    (hcon : x.con = x'.con) (hreq : x.request = x'.request) (keycode down : Nat) :
    x.noteRepeat keycode down = x'.noteRepeat keycode down := by
  obtain ⟨mods, con, request⟩ := x
  obtain ⟨mods', con', request'⟩ := x'
  obtain ⟨⟩ := mods
  obtain ⟨⟩ := mods'
  simp only [Mods.lasting, Mods.mk.injEq] at hmods
  simp only [noteRepeat, Xlate.mk.injEq, Mods.mk.injEq]
  simp_all

theorem kbdKeycode_congr (h : modifiersDown e.plainMap kd = modifiersDown e.plainMap kd')
    {x x' : Xlate} (hmods : x.mods.lasting = x'.mods.lasting) (hcon : x.con = x'.con)
    (hreq : x.request = x'.request) (keycode down : Nat) (hwRaw : Bool) :
    modifiersDown e.plainMap (x.kbdKeycode e kd keycode down hwRaw).1 =
        modifiersDown e.plainMap (x'.kbdKeycode e kd' keycode down hwRaw).1 ∧
      (x.kbdKeycode e kd keycode down hwRaw).2 = (x'.kbdKeycode e kd' keycode down hwRaw).2 := by
  unfold kbdKeycode
  dsimp only
  rw [noteRepeat_congr hmods hcon hreq]
  split_ifs
  · exact ⟨h, rfl⟩
  · exact ⟨h, rfl⟩
  · exact translateKey_congr h _ keycode down

end Xlate

namespace Machine

variable {P : Pools N} {e : Env}

@[simp] theorem updSeat_keyDown (m : Machine N) (v : Fin N) (f : Seat → Seat) :
    (m.updSeat v f).keyDown = m.keyDown := rfl

@[simp] theorem updSeat_mods (m : Machine N) (v : Fin N) (f : Seat → Seat) :
    (m.updSeat v f).mods = m.mods := rfl

theorem updSeat_seat (m : Machine N) (v w : Fin N) (f : Seat → Seat) :
    (m.updSeat v f).seat w = if w = v then f (m.seat v) else m.seat w := by
  simp [updSeat, Function.update_apply]

theorem serve_globals (m : Machine N) (v : Fin N) (r : Option Request) :
    (m.serve P v r).keyDown = m.keyDown ∧ (m.serve P v r).mods = m.mods := by
  cases r with
  | none => exact ⟨rfl, rfl⟩
  | some r =>
    cases r with
    | console n =>
      change (m.setConsole P _).keyDown = _ ∧ (m.setConsole P _).mods = _
      unfold setConsole
      split
      · split_ifs <;> exact ⟨rfl, rfl⟩
      · exact ⟨rfl, rfl⟩
    | _ => exact ⟨rfl, rfl⟩

/-- `set_console` reaches the seat whose pool the number is of. -/
theorem setConsole_seat (m : Machine N) (n : Nat) (v : Fin N) :
    (m.setConsole P n).seat v =
      if Switch.Kernel.poolOf P n = some v ∧ (m.seat v).slots (n - P.firstVc v) = true then
        { m.seat v with wantVc := n - P.firstVc v }
      else m.seat v := by
  unfold setConsole
  cases Switch.Kernel.poolOf P n with
  | none => simp
  | some w =>
    dsimp only
    by_cases hw : w = v
    · subst hw
      by_cases hslot : (m.seat w).slots (n - P.firstVc w) = true
      · rw [if_pos hslot, if_pos ⟨rfl, hslot⟩, updSeat_seat, if_pos rfl]
      · rw [if_neg hslot, if_neg fun hc => hslot hc.2]
    · have hother : ¬ (some w = some v ∧ (m.seat v).slots (n - P.firstVc v) = true) :=
        fun hc => hw (Option.some.inj hc.1)
      rw [if_neg hother]
      by_cases hslot : (m.seat w).slots (n - P.firstVc w) = true
      · rw [if_pos hslot, updSeat_seat, if_neg (Ne.symm hw)]
      · rw [if_neg hslot]

/-- What a request does to a seat depends on that seat alone. -/
theorem serve_congr {m m' : Machine N} {v : Fin N} (hseat : m.seat v = m'.seat v)
    (r : Option Request) : (m.serve P v r).seat v = (m'.serve P v r).seat v := by
  cases r with
  | none => exact hseat
  | some r =>
    cases r with
    | console n =>
      change (m.setConsole P _).seat v = (m'.setConsole P _).seat v
      rw [setConsole_seat, setConsole_seat, hseat]
    | last => simp only [serve, updSeat_seat, if_true, hseat]
    | dec => simp only [serve, updSeat_seat, if_true, hseat]
    | inc => simp only [serve, updSeat_seat, if_true, hseat]

/-- **A seat's own events take equal views to equal views.** -/
theorem own_congruent (v : Fin N) :
    Lib.Congruent (step P e) (view e v) (fun a => a.1 = v) := by
  rintro m m' ⟨w, ev⟩ rfl hview
  obtain ⟨hkeys, hmods, hseat⟩ : modifiersDown e.plainMap m.keyDown =
      modifiersDown e.plainMap m'.keyDown ∧ m.mods.lasting = m'.mods.lasting ∧
        m.seat w = m'.seat w := by simpa [view] using hview
  cases ev with
  | raw data =>
    unfold step
    dsimp only
    rw [hseat]
    split_ifs
    · simp only [view, onForeground, updSeat_keyDown, updSeat_mods, updSeat_seat, if_true, hkeys,
        hmods, hseat]
    · exact hview
  | key keycode value =>
    have hstart : (m.xlate w).con = (m'.xlate w).con := by
      unfold xlate
      rw [hseat]
    have hmods' : (m.xlate w).mods.lasting = (m'.xlate w).mods.lasting := hmods
    obtain ⟨hkeys', hx⟩ :=
      Xlate.kbdKeycode_congr hkeys hmods' hstart rfl keycode value (m'.seat w).hwRaw
    change (m.key P e w keycode value).view e w = (m'.key P e w keycode value).view e w
    unfold key view
    dsimp only
    rw [hseat, hx]
    rw [(serve_globals _ w _).1, (serve_globals _ w _).2, (serve_globals _ w _).1,
      (serve_globals _ w _).2]
    simp only [Prod.mk.injEq]
    refine ⟨hkeys', rfl, serve_congr ?_ _⟩
    simp only [onForeground, updSeat_seat, if_true, hseat]
  | work goes =>
    change (m.work e w goes).view e w = (m'.work e w goes).view e w
    unfold work
    rw [hseat]
    split_ifs
    · have hshift := shiftstateOf_congr hkeys
      simp only [view, updSeat_keyDown, updSeat_mods, updSeat_seat, if_true, hseat, hkeys,
        Prod.mk.injEq, true_and, and_true, Mods.computeShiftstate, hshift]
      simp only [Mods.lasting, Mods.mk.injEq] at hmods ⊢
      exact ⟨trivial, trivial, hmods.2.2⟩
    · exact hview

end Machine

/-! ### Events of other seats -/

namespace Xlate

variable {e : Env} {taken : Nat → Prop} {keyDown : Nat → Bool}

/-- From `x` to `x'` the globals stay and no console that `taken` names is asked
for. -/
structure Unseen (taken : Nat → Prop) (x x' : Xlate) : Prop where
  mods : x'.mods = x.mods
  request : ∀ n, x'.request = some (.console n) → x.request = some (.console n) ∨ ¬ taken n

theorem Unseen.refl (x : Xlate) : Unseen taken x x := ⟨rfl, fun _ hn => .inl hn⟩

theorem Unseen.trans {x x' x'' : Xlate} (h : Unseen taken x x') (h' : Unseen taken x' x'') :
    Unseen taken x x'' := by
  refine ⟨h'.mods.trans h.mods, fun n hn => ?_⟩
  rcases h'.request n hn with hn' | hfree
  · exact h.request n hn'
  · exact .inr hfree

theorem Unseen.onCon (x : Xlate) (f : Console → Console) : Unseen taken x (x.onCon f) :=
  ⟨rfl, fun _ hn => .inl hn⟩

theorem computeShiftstate_settled {m : Mods} {plainMap : Nat → Nat}
    (h : m.Settled plainMap keyDown) : m.computeShiftstate plainMap keyDown = m := by
  unfold Mods.computeShiftstate
  rw [show shiftstateOf plainMap keyDown = _ from h]

theorem Unseen.of_settled {x : Xlate} {plainMap : Nat → Nat}
    (h : x.mods.Settled plainMap keyDown) :
    Unseen taken x { x with mods := x.mods.computeShiftstate plainMap keyDown } :=
  ⟨computeShiftstate_settled h, fun _ hn => .inl hn⟩

theorem unseen_fnHandler (x : Xlate) (value : Nat) (hq : QuietSpec e keyDown x value) :
    Unseen taken x (x.fnHandler e keyDown value) := by
  have hask : ∀ r, (∀ n, r ≠ Request.console n) → Unseen taken x (x.ask r) := fun r hr =>
    ⟨rfl, fun n hn => absurd (Option.some.inj hn) (hr n)⟩
  unfold QuietSpec at hq
  unfold fnHandler
  split
  · exact .of_settled hq
  · have hdiacr : ¬ x.mods.diacr ≠ 0 := not_not_intro hq
    unfold fnEnter
    simp only [if_neg hdiacr]
    split_ifs
    · exact .trans (.onCon _ _) (.onCon _ _)
    · exact .onCon _ _
  · exact .onCon _ _
  · exact hask _ fun _ => nofun
  · unfold fnCapsToggle
    split_ifs
    · exact .refl x
    · exact .onCon _ _
  · unfold fnNum fnBareNum
    split_ifs
    · exact .onCon _ _
    · exact .refl x
    · exact .onCon _ _
  · unfold fnHold
    split
    · exact .refl x
    · split_ifs
      · exact .refl x
      · exact .refl x
      · exact .onCon _ _
      · exact .onCon _ _
  · unfold fnCapsOn
    split_ifs
    · exact .refl x
    · exact .onCon _ _
  · have hnext : x.mods.deadKeyNext = true := hq
    exact ⟨by simp only [fnCompose, ← hnext], fun _ hn => .inl hn⟩
  · exact .onCon _ _
  · exact hask _ fun _ => nofun
  · exact hask _ fun _ => nofun
  · unfold fnBareNum
    split_ifs
    · exact .refl x
    · exact .onCon _ _
  · exact .refl x

theorem unseen_kFn (x : Xlate) (value : Nat) (up : Bool) :
    Unseen taken x (x.kFn e value up) := by
  unfold kFn
  split_ifs
  · exact .refl x
  · split
    · exact .onCon _ _
    · exact .refl x

theorem unseen_kCur (x : Xlate) (value : Nat) (up : Bool) :
    Unseen taken x (x.kCur value up) := by
  unfold kCur
  split_ifs
  · exact .refl x
  · exact .onCon _ _

theorem unseen_kPad (x : Xlate) (value : Nat) (up : Bool) :
    Unseen taken x (x.kPad e value up) := by
  have hchar : Unseen taken x
      (if value = 14 ∧ (x.onCon (·.putQueue (padChars.getD value 0))).con.getKbdMode vcCrlf then
        (x.onCon (·.putQueue (padChars.getD value 0))).onCon (·.putQueue 10)
      else x.onCon (·.putQueue (padChars.getD value 0))) := by
    split_ifs
    · exact .trans (.onCon _ _) (.onCon _ _)
    · exact .onCon _ _
  unfold kPad
  dsimp only
  by_cases hup : up = true
  · rw [if_pos hup]
    exact .refl x
  rw [if_neg hup]
  by_cases happlic : x.con.getKbdMode vcApplic ∧ x.mods.shiftDown kgShift = 0
  · rw [if_pos happlic]
    exact .onCon _ _
  rw [if_neg happlic]
  by_cases hnum : x.con.getKbdLed vcNumlock = true
  · rw [if_pos hnum]
    exact hchar
  rw [if_neg hnum]
  split
  · exact unseen_kFn x _ false
  · exact unseen_kCur x _ false
  · by_cases hfive : value = 5
    · rw [if_pos hfive]
      exact .onCon _ _
    · rw [if_neg hfive]
      exact hchar

theorem kShift_rep {x : Xlate} (hrep : x.mods.rep = true) (value : Nat) (up : Bool) :
    x.kShift value up = x := by
  unfold kShift
  rw [if_pos hrep]

/-- A modifier that is not in force is released. -/
theorem countShift_idle {x : Xlate} {value : Nat} (hcount : x.mods.shiftDown value = 0)
    (hstate : x.mods.shiftState.testBit value = false) : x.countShift value true = x := by
  have hbit : (x.mods.shiftState ||| 1 <<< value) ^^^ 1 <<< value = x.mods.shiftState := by
    refine Nat.eq_of_testBit_eq fun i => ?_
    rw [Nat.testBit_xor, Nat.testBit_or, Nat.one_shiftLeft, Nat.testBit_two_pow]
    by_cases hi : value = i
    · subst hi
      rw [hstate]
      simp
    · simp [hi]
  obtain ⟨mods, con, request⟩ := x
  obtain ⟨⟩ := mods
  simp only at hcount hbit
  simp only [countShift, if_true, hcount, ne_eq, not_true_eq_false, if_false, hbit]
  rw [← hcount, Function.update_eq_self]

theorem unseen_kShift {x : Xlate} {value down : Nat} (hrep : x.mods.rep = decide (down = 2))
    (hq : QuietShift x (if value = kgCapsshift then kgShift else value) down) :
    x.kShift value (!decide (down ≠ 0)) = x := by
  rcases hq with htwo | ⟨hzero, hcount, hstate⟩
  · exact kShift_rep (by rw [hrep]; exact decide_eq_true htwo) _ _
  · have hup : (!decide (down ≠ 0)) = true := by simp [hzero]
    have hidle := countShift_idle hcount hstate
    unfold kShift
    rw [hup, hrep, if_neg (by simp [hzero])]
    by_cases hcaps : value = kgCapsshift
    · rw [if_pos hcaps] at hidle
      simp [hcaps, hidle, flushPad]
    · rw [if_neg hcaps] at hidle
      simp [hcaps, hidle, flushPad]

theorem unseen_kDead2 {x : Xlate} {value : Nat} (hq : QuietDead e x (UInt8.ofNat value)) :
    Unseen taken x (x.kDead2 e value false) := by
  unfold QuietDead at hq
  unfold kDead2
  rw [if_neg Bool.false_ne_true]
  by_cases hnone : x.mods.diacr = 0
  · rw [if_pos hnone] at hq
    simp only [hnone, ne_eq, not_true_eq_false, if_false, hq]
    exact ⟨by rw [← hnone], fun _ hn => .inl hn⟩
  · rw [if_neg hnone] at hq
    simp only [ne_eq, hnone, not_false_eq_true, if_true, handleDiacr]
    cases hfind : e.accentTable.find? fun a => a.1 = x.mods.diacr ∧ a.2.1 = UInt8.ofNat value with
    | some a =>
      simp only [hfind] at hq ⊢
      exact ⟨by rw [hq], fun _ hn => .inl hn⟩
    | none =>
      simp only [hfind] at hq ⊢
      rw [if_pos hq]
      exact ⟨rfl, fun _ hn => .inl hn⟩

theorem unseen_kAscii {x : Xlate} {value : Nat} (hq : QuietDigit x value) :
    Unseen taken x (x.kAscii value false) := by
  obtain ⟨hset, hsame⟩ := hq
  unfold kAscii
  simp only [Bool.false_eq_true, if_false, if_neg hset, hsame]
  exact .refl x

/-- Of the handlers only those of the modifiers act on a release. -/
theorem unseen_kHandler_release (x : Xlate) (type value : Nat)
    (hrep : x.mods.rep = decide (0 = 2))
    (hq : QuietHandler e taken keyDown x type value 0) :
    Unseen taken x (x.kHandler e keyDown type value (!decide (0 ≠ 0))) := by
  unfold kHandler
  split
  case h_8 =>
    rw [unseen_kShift hrep hq]
    exact .refl x
  case h_12 =>
    have hshift := unseen_kShift hrep hq
    simp only [ne_eq, not_true_eq_false, decide_false, Bool.not_false] at hshift ⊢
    simp only [kSlock, hshift, true_or, if_true]
    exact .refl x
  all_goals
    simp [kSelf, kFn, kSpec, kPad, kDead, kCons, kCur, kMeta, kAscii, kLock, kDead2, Unseen.refl]

/-- **A quiet handler is not seen.** -/
theorem unseen_kHandler (x : Xlate) (type value down : Nat)
    (hrep : x.mods.rep = decide (down = 2))
    (hq : QuietHandler e taken keyDown x type value down) :
    Unseen taken x (x.kHandler e keyDown type value (!decide (down ≠ 0))) := by
  by_cases hdown : down = 0
  · subst hdown
    exact unseen_kHandler_release x type value hrep hq
  have hup : (!decide (down ≠ 0)) = false := by simpa using hdown
  rw [hup]
  unfold kHandler
  split
  · obtain ⟨hdiacr, hnext⟩ : x.mods.diacr = 0 ∧ x.mods.deadKeyNext = false := hq hdown
    simp only [kSelf, hdiacr, ne_eq, not_true_eq_false, if_false, hnext, Bool.false_eq_true]
    exact .onCon _ _
  · exact unseen_kFn x value false
  · unfold kSpec
    rw [if_neg Bool.false_ne_true]
    by_cases hlarge : value ≥ 20
    · rw [if_pos hlarge]
      exact .refl x
    rw [if_neg hlarge]
    by_cases hraw : x.rawMode = true ∧ value ≠ 15
    · rw [if_pos hraw]
      exact .refl x
    rw [if_neg hraw]
    exact unseen_fnHandler x value (hq hdown (by omega) hraw)
  · exact unseen_kPad x value false
  · exact unseen_kDead2 (hq hdown)
  · refine ⟨rfl, fun n hn => .inr ?_⟩
    have hvalue : value = n := Request.console.inj (Option.some.inj hn)
    exact hvalue ▸ hq hdown
  · exact unseen_kCur x value false
  · have hshift := unseen_kShift hrep hq
    rw [hup] at hshift
    rw [hshift]
    exact .refl x
  · unfold kMeta
    rw [if_neg Bool.false_ne_true]
    split_ifs
    · exact .onCon _ _
    · exact .onCon _ _
  · exact unseen_kAscii (hq hdown)
  · unfold kLock
    by_cases hrep' : x.mods.rep = true
    · rw [if_pos (.inr hrep')]
      exact .refl x
    · rw [if_neg (by simpa using hrep')]
      exact .onCon _ _
  · have htwo : down = 2 := hq.resolve_right fun hzero => hdown hzero.1
    have hrep' : x.mods.rep = true := by rw [hrep]; exact decide_eq_true htwo
    unfold kSlock
    rw [kShift_rep hrep']
    simp only [hrep', or_true, if_true]
    exact .refl x
  · exact unseen_kDead2 (hq hdown)
  · exact .refl x

/-- **A quiet lookup is not seen.** -/
theorem unseen_lookupKey (x : Xlate) (keycode down : Nat)
    (hrep : x.mods.rep = decide (down = 2))
    (hq : QuietLookup e taken keyDown x keycode down) :
    Unseen taken x (x.lookupKey e keyDown keycode (decide (down ≠ 0)) x.rawMode) := by
  unfold QuietLookup at hq
  unfold lookupKey
  cases hmap : keyMap e x.shiftFinal with
  | none =>
    simp only [hmap] at hq
    exact (Unseen.of_settled hq).trans (.onCon _ _)
  | some m =>
    simp only [hmap] at hq
    dsimp only
    by_cases hlarge : keycode > e.nrKeys
    · rw [if_pos hlarge]
      exact .refl x
    rw [if_neg hlarge]
    by_cases hchar : m keycode >>> 8 < 0xf0
    · rw [if_pos hchar]
      split_ifs
      · exact .onCon _ _
      · exact .refl x
    rw [if_neg hchar]
    by_cases hraw : x.rawMode = true ∧ m keycode >>> 8 - 0xf0 ≠ ktSpec ∧
        m keycode >>> 8 - 0xf0 ≠ ktShift
    · rw [if_pos hraw]
      exact .refl x
    rw [if_neg hraw]
    generalize x.typeAndValue e (m keycode) keycode = tv at hq ⊢
    have hhandler := unseen_kHandler x tv.1 tv.2 down hrep
      (hq (Nat.le_of_not_lt hlarge) (Nat.le_of_not_lt hchar) hraw)
    unfold handleKey
    dsimp only
    split_ifs
    · exact hhandler.trans (.onCon _ _)
    · exact hhandler

/-- Two states that the handlers of a quiet key tell apart by their queues only. -/
structure Alike (x x' : Xlate) : Prop where
  mods : x.mods.lasting = x'.mods.lasting
  kbd : x.con.kbd = x'.con.kbd

theorem Alike.onCon (x : Xlate) {f : Console → Console} (h : ∀ c, (f c).kbd = c.kbd) :
    Alike x (x.onCon f) := ⟨rfl, (h x.con).symm⟩

theorem Alike.trans {x x' x'' : Xlate} (h : Alike x x') (h' : Alike x' x'') : Alike x x'' :=
  ⟨h.mods.trans h'.mods, h.kbd.trans h'.kbd⟩

theorem Alike.fields {x x' : Xlate} (h : Alike x x') :
    x.shiftFinal = x'.shiftFinal ∧ x.rawMode = x'.rawMode ∧
      (x.mods.diacr = x'.mods.diacr ∧ x.mods.deadKeyNext = x'.mods.deadKeyNext) ∧
        x.mods.npadch = x'.mods.npadch ∧
          (x.mods.shiftDown, x.mods.shiftState) = (x'.mods.shiftDown, x'.mods.shiftState) := by
  have hstate := congrArg Mods.shiftState h.mods
  have hshift : (x.mods.shiftDown, x.mods.shiftState) = (x'.mods.shiftDown, x'.mods.shiftState) :=
    congrArg (fun m => (m.shiftDown, m.shiftState)) h.mods
  have hpad : x.mods.npadch = x'.mods.npadch := congrArg (fun m => m.npadch) h.mods
  have hdead : (x.mods.diacr, x.mods.deadKeyNext) = (x'.mods.diacr, x'.mods.deadKeyNext) :=
    congrArg (fun m => (m.diacr, m.deadKeyNext)) h.mods
  refine ⟨?_, ?_, ⟨congrArg Prod.fst hdead, congrArg Prod.snd hdead⟩,
    hpad, hshift⟩
  · unfold shiftFinal
    rw [show x.mods.shiftState = x'.mods.shiftState from hstate, h.kbd]
  · unfold rawMode
    rw [h.kbd]

theorem Alike.typeAndValue {x x' : Xlate} (h : Alike x x') (keysym keycode : Nat) :
    x.typeAndValue e keysym keycode = x'.typeAndValue e keysym keycode := by
  unfold Xlate.typeAndValue Console.getKbdLed
  rw [h.kbd, h.fields.1]

theorem Alike.quietHandler {x x' : Xlate} (h : Alike x x') (type value down : Nat) :
    QuietHandler e taken keyDown x type value down =
      QuietHandler e taken keyDown x' type value down := by
  obtain ⟨-, hraw, ⟨hdiacr, hnext⟩, hpad, hshift⟩ := h.fields
  have hcount : x.mods.shiftDown = x'.mods.shiftDown := congrArg Prod.fst hshift
  have hstate : x.mods.shiftState = x'.mods.shiftState := congrArg Prod.snd hshift
  unfold QuietHandler QuietSpec QuietDead QuietDigit QuietShift Mods.Settled
  rw [hraw, hdiacr, hnext, hpad, hcount, hstate]

theorem Alike.quietLookup {x x' : Xlate} (h : Alike x x') (keycode down : Nat) :
    QuietLookup e taken keyDown x keycode down = QuietLookup e taken keyDown x' keycode down := by
  obtain ⟨hfinal, hraw, -, -, hshift⟩ := h.fields
  unfold QuietLookup Mods.Settled
  simp only [hfinal, hraw, hshift, h.typeAndValue, h.quietHandler]

theorem emulateRaw_kbd (c : Console) (sysrqAlt : Bool) (keycode up : Nat) :
    (c.emulateRaw sysrqAlt keycode up).kbd = c.kbd := by
  unfold Console.emulateRaw
  dsimp only
  split_ifs <;> rfl

theorem putMediumraw_kbd (c : Console) (keycode up : Nat) :
    (c.putMediumraw keycode up).kbd = c.kbd := by
  unfold Console.putMediumraw
  split_ifs <;> rfl

theorem noteRepeat_lasting (x : Xlate) (keycode down : Nat)
    (halt : keycode = keyLeftalt ∨ keycode = keyRightalt → x.mods.sysrqAlt = decide (down ≠ 0)) :
    (x.noteRepeat keycode down).mods.lasting = x.mods.lasting := by
  by_cases hkey : keycode = keyLeftalt ∨ keycode = keyRightalt
  · simp only [noteRepeat, Mods.lasting, if_pos hkey, halt hkey]
  · simp only [noteRepeat, Mods.lasting, if_neg hkey]

/-- The start of `kbd_keycode` tells nothing to the handlers. -/
theorem alike_start (x : Xlate) (keycode down : Nat) (hwRaw : Bool)
    (halt : keycode = keyLeftalt ∨ keycode = keyRightalt → x.mods.sysrqAlt = decide (down ≠ 0)) :
    Alike x ((x.noteRepeat keycode down).putRaw keycode down hwRaw) := by
  have hnote : Alike x (x.noteRepeat keycode down) :=
    ⟨(noteRepeat_lasting x keycode down halt).symm, rfl⟩
  unfold putRaw
  split_ifs
  · exact hnote.trans (.onCon _ fun c => emulateRaw_kbd c _ _ _)
  · exact hnote

@[simp] theorem noteRepeat_rep (x : Xlate) (keycode down : Nat) :
    (x.noteRepeat keycode down).mods.rep = decide (down = 2) := rfl

@[simp] theorem putRaw_mods (x : Xlate) (keycode down : Nat) (hwRaw : Bool) :
    (x.putRaw keycode down hwRaw).mods = x.mods := by
  unfold putRaw
  split_ifs <;> rfl

@[simp] theorem putRaw_request (x : Xlate) (keycode down : Nat) (hwRaw : Bool) :
    (x.putRaw keycode down hwRaw).request = x.request := by
  unfold putRaw
  split_ifs <;> rfl

/-- A key that is no modifier, or is as it was, leaves the modifiers down. -/
theorem modifiersDown_setKey {keycode down : Nat}
    (h : isShiftKey e.plainMap keycode = true → keyDown keycode = decide (down ≠ 0)) :
    modifiersDown e.plainMap (setKey keyDown keycode down) = modifiersDown e.plainMap keyDown := by
  funext k
  unfold modifiersDown setKey
  by_cases hkey : k = keycode
  · subst hkey
    rw [Function.update_self]
    cases hshift : isShiftKey e.plainMap k with
    | false => simp
    | true => rw [h hshift]
  · rw [Function.update_of_ne hkey]

/-- **A quiet key is not seen.** -/
theorem unseen_translateKey (x : Xlate) (keycode down : Nat)
    (hrep : x.mods.rep = decide (down = 2))
    (hlookup : (down = 2 → x.con.getKbdMode vcRepeat = true) →
      QuietLookup e taken (setKey keyDown keycode down) x keycode down) :
    Unseen taken x (x.translateKey e keyDown keycode down).2 := by
  have hput : ∀ x' : Xlate, Alike x x' → Unseen taken x x' →
      Unseen taken x (if x'.mods.rep ∧ !x'.con.getKbdMode vcRepeat then
        (setKey keyDown keycode down, x')
      else (setKey keyDown keycode down,
        x'.lookupKey e (setKey keyDown keycode down) keycode (decide (down ≠ 0)) x.rawMode)).2 := by
    intro x' halike hunseen
    have hmode : x'.con.getKbdMode vcRepeat = x.con.getKbdMode vcRepeat := by
      unfold Console.getKbdMode
      rw [halike.kbd]
    have hraw := halike.fields.2.1
    have hrep' : x'.mods.rep = decide (down = 2) := by rw [hunseen.mods, hrep]
    by_cases hdrop : x'.mods.rep = true ∧ (!x'.con.getKbdMode vcRepeat) = true
    · rw [if_pos hdrop]
      exact hunseen
    · rw [if_neg hdrop, hraw]
      refine hunseen.trans (unseen_lookupKey x' keycode down hrep' ?_)
      rw [← halike.quietLookup]
      refine hlookup fun htwo => ?_
      rw [hrep', hmode] at hdrop
      simpa [htwo] using hdrop
  unfold translateKey
  dsimp only
  by_cases hmedium : x.con.kbd.kbdmode = .mediumraw
  · rw [if_pos hmedium]
    exact hput _ (.onCon x fun c => putMediumraw_kbd c _ _) (.onCon x _)
  · rw [if_neg hmedium]
    exact hput x ⟨rfl, rfl⟩ (.refl x)

theorem translateKey_keyDown (x : Xlate) (keycode down : Nat) :
    (x.translateKey e keyDown keycode down).1 = setKey keyDown keycode down := by
  unfold translateKey
  dsimp only
  split_ifs <;> rfl

/-- **A quiet key leaves what the others depend on.** -/
theorem quiet_kbdKeycode {x : Xlate} {keycode down : Nat} (hwRaw : Bool)
    (hreq : x.request = none) (hq : QuietKey e taken keyDown x keycode down) :
    modifiersDown e.plainMap (x.kbdKeycode e keyDown keycode down hwRaw).1 =
        modifiersDown e.plainMap keyDown ∧
      (x.kbdKeycode e keyDown keycode down hwRaw).2.mods.lasting = x.mods.lasting ∧
        ∀ n, (x.kbdKeycode e keyDown keycode down hwRaw).2.request = some (.console n) →
          ¬ taken n := by
  obtain ⟨halt, hkey⟩ := hq
  have hstart := alike_start x keycode down hwRaw halt
  have hreq' : ((x.noteRepeat keycode down).putRaw keycode down hwRaw).request = none := by
    rw [putRaw_request]
    exact hreq
  have hrep : ((x.noteRepeat keycode down).putRaw keycode down hwRaw).mods.rep =
      decide (down = 2) := by rw [putRaw_mods, noteRepeat_rep]
  have hsysrq : ((x.noteRepeat keycode down).putRaw keycode down hwRaw).mods.sysrqDown =
      x.mods.sysrqDown := by rw [putRaw_mods]; rfl
  have hmods := hstart.mods.symm
  have hsysrqAlt : ((x.noteRepeat keycode down).putRaw keycode down hwRaw).mods.sysrqAlt =
      x.mods.sysrqAlt := by
    simp only [Mods.lasting, Mods.mk.injEq] at hmods
    exact hmods.2.2.2.2.2.2.2
  unfold kbdKeycode
  dsimp only
  generalize (x.noteRepeat keycode down).putRaw keycode down hwRaw = x' at *
  rw [hsysrq, hsysrqAlt]
  by_cases hmagic : e.magicSysrq = true ∧ keycode = keySysrq ∧
      (x.mods.sysrqDown = true ∨ down = 1 ∧ x.mods.sysrqAlt = true)
  · rw [if_pos hmagic] at hkey
    rw [if_pos hmagic]
    refine ⟨rfl, ?_, fun n hn => ?_⟩
    · rw [← hmods, ← hkey, ← hsysrq, ← hsysrqAlt]
    · rw [hreq'] at hn
      exact absurd hn nofun
  rw [if_neg hmagic] at hkey
  rw [if_neg hmagic]
  have hheld : (e.magicSysrq = true ∧ x.mods.sysrqDown = true ∧ down ≠ 0 ∧
      (!x'.mods.rep) = true) ↔
      e.magicSysrq = true ∧ x.mods.sysrqDown = true ∧ down ≠ 0 ∧ down ≠ 2 := by
    rw [hrep]
    simp
  by_cases hdrop : e.magicSysrq = true ∧ x.mods.sysrqDown = true ∧ down ≠ 0 ∧ down ≠ 2
  · rw [if_pos (hheld.mpr hdrop)]
    refine ⟨rfl, hmods, fun n hn => ?_⟩
    rw [show (x'.onCon (e.handleSysrq keycode)).request = none from hreq'] at hn
    exact absurd hn nofun
  rw [if_neg hdrop] at hkey
  rw [if_neg (mt hheld.mp hdrop)]
  obtain ⟨hshift, hlookup⟩ := hkey
  have hunseen : Unseen taken x' (x'.translateKey e keyDown keycode down).2 := by
    refine unseen_translateKey x' keycode down hrep fun hrepeat => ?_
    rw [← hstart.quietLookup]
    refine hlookup fun htwo => ?_
    have hmode := hrepeat htwo
    unfold Console.getKbdMode at hmode ⊢
    rw [hstart.kbd]
    exact hmode
  rw [translateKey_keyDown]
  refine ⟨modifiersDown_setKey hshift, ?_, fun n hn => ?_⟩
  · rw [hunseen.mods]
    exact hmods
  · rcases hunseen.request n hn with hasked | hfree
    · rw [hreq'] at hasked
      exact absurd hasked nofun
    · exact hfree

end Xlate

namespace Machine

variable {P : Pools N} {e : Env}

/-- A request of the VT `w` that takes no console of `v` leaves the seat of `v`
alone. -/
theorem serve_other {m : Machine N} {v w : Fin N} (hother : w ≠ v) {r : Option Request}
    (hfree : ∀ n, r = some (.console n) → ¬ m.Takes P v w n) :
    (m.serve P w r).seat v = m.seat v := by
  cases r with
  | none => rfl
  | some r =>
    cases r with
    | console n =>
      change (m.setConsole P _).seat v = _
      rw [setConsole_seat]
      exact if_neg (hfree n rfl)
    | last => simp only [serve, updSeat_seat, if_neg (Ne.symm hother)]
    | dec => simp only [serve, updSeat_seat, if_neg (Ne.symm hother)]
    | inc => simp only [serve, updSeat_seat, if_neg (Ne.symm hother)]

/-- **A quiet event of another seat is not seen.** -/
theorem quiet_unseen {v : Fin N} (m : Machine N) (a : Fin N × Event) (hother : ¬ a.1 = v)
    (hq : m.Quiet P e v a) : (step P e m a).view e v = m.view e v := by
  obtain ⟨w, ev⟩ := a
  have hseat : ∀ f : Seat → Seat, (m.updSeat w f).seat v = m.seat v := fun f => by
    rw [updSeat_seat, if_neg (Ne.symm hother)]
  cases ev with
  | raw data =>
    unfold step
    dsimp only
    split_ifs
    · simp only [view, onForeground, updSeat_keyDown, updSeat_mods, hseat]
    · rfl
  | key keycode value =>
    obtain ⟨hkeys, hmods, hfree⟩ := Xlate.quiet_kbdKeycode (m.seat w).hwRaw
      (rfl : (m.xlate w).request = none) hq
    change (m.key P e w keycode value).view e v = m.view e v
    unfold key view
    dsimp only
    generalize (m.xlate w).kbdKeycode e m.keyDown keycode value (m.seat w).hwRaw = r at *
    have hserve := serve_other (m := ({ m with keyDown := r.1, mods := r.2.mods } :
      Machine N).onForeground w fun _ => r.2.con) hother (r := r.2.request) (P := P) fun n hn => by
        have := hfree n hn
        unfold Takes at this ⊢
        rw [onForeground, updSeat_seat, if_neg (Ne.symm hother)]
        exact this
    rw [(serve_globals _ w _).1, (serve_globals _ w _).2, hserve]
    simp only [Prod.mk.injEq]
    refine ⟨hkeys, hmods, ?_⟩
    rw [onForeground, updSeat_seat, if_neg (Ne.symm hother)]
  | work goes =>
    change (m.work e w goes).view e v = m.view e v
    unfold work
    by_cases hgoes : goes = true ∧ (m.seat w).wantVc ≠ (m.seat w).fgConsole
    · have hsettled : m.mods.Settled e.plainMap m.keyDown := hq hgoes.1 hgoes.2
      rw [if_pos hgoes, Xlate.computeShiftstate_settled hsettled]
      simp only [view, updSeat_keyDown, updSeat_mods, updSeat_seat, if_neg (Ne.symm hother)]
    · rw [if_neg hgoes]

/-- **What is queued on a seat depends on the events of that seat alone**, in
every two runs in which the events of the other seats are quiet. -/
theorem seats_isolated (P : Pools N) (e : Env) (v : Fin N) (m : Machine N)
    (as bs : List (Fin N × Event))
    (hsame : as.filter (fun a => a.1 = v) = bs.filter (fun a => a.1 = v))
    (has : Lib.Along (step P e) (fun m a => ¬ a.1 = v → m.Quiet P e v a) m as)
    (hbs : Lib.Along (step P e) (fun m a => ¬ a.1 = v → m.Quiet P e v a) m bs) (i : Nat) :
    (Lib.run (step P e) m as).queued v i = (Lib.run (step P e) m bs).queued v i := by
  have hview : (Lib.run (step P e) m as).view e v = (Lib.run (step P e) m bs).view e v :=
    Lib.view_run_congr (own_congruent v) (fun m a => quiet_unseen m a) rfl hsame has hbs
  unfold queued
  rw [show (Lib.run (step P e) m as).seat v = (Lib.run (step P e) m bs).seat v from
    congrArg (fun w => w.2.2) hview]

end Machine

/-! ### Two seats -/

/-- Two displays with a pool of 16 numbers each. -/
def twoPools : Pools 2 where
  firstVc v := 16 * v
  vcCount _ := 16
  count_pos _ := by decide
  count_le _ := by decide
  apart v w n h1 h2 h3 h4 := by
    apply Fin.ext
    omega

/-- Maps in which key 30 is the letter a, key 16 the letter q and key 42 Shift. -/
def letterKeys : Env where
  plainMap k := if k = 30 then 0xfb61 else if k = 16 then 0xfb71 else
    if k = 42 then 0xf700 else 0xf200
  keyMaps i := if i = 1 then some fun k =>
    if k = 30 then 0xfb41 else if k = 16 then 0xfb51 else if k = 42 then 0xf700 else 0xf200
    else none
  accentTable := []
  funcTable _ := none
  nrKeys := 255
  magicSysrq := true
  handleSysrq _ c := c

/-- Two seats with one console each, on which nothing has been typed. -/
def twoSeats : Machine 2 where
  keyDown _ := false
  mods :=
    { shiftDown := fun _ => 0
      shiftState := 0
      deadKeyNext := false
      npadch := -1
      diacr := 0
      rep := false
      sysrqDown := false
      sysrqAlt := false }
  seat _ :=
    { fgConsole := 0
      lastConsole := 0
      wantVc := 0
      slots := fun i => i = 0
      con := fun _ =>
        { kbd :=
            { lockstate := 0, slockstate := 0, ledflagstate := 0, kbdmode := .xlate,
              modeflags := 4 }
          vcTty := some { stopped := false, flowStopped := false, flip := [] } }
      hwRaw := false }

/-- A letter typed on the other seat is not seen. -/
theorem seats_isolated_letter :
    let as : List (Fin 2 × Event) := [(1, .key 16 1), (0, .key 30 1)]
    let bs : List (Fin 2 × Event) := [(0, .key 30 1)]
    (Lib.run (Machine.step twoPools letterKeys) twoSeats as).queued 0 0 =
      (Lib.run (Machine.step twoPools letterKeys) twoSeats bs).queued 0 0 := by
  have hmap : Xlate.keyMap letterKeys (twoSeats.xlate 1).shiftFinal =
      some letterKeys.plainMap := rfl
  have hletter : (twoSeats.xlate 1).typeAndValue letterKeys (letterKeys.plainMap 16) 16 =
      (0, 0x71) := by decide +kernel
  have hquiet : twoSeats.Quiet twoPools letterKeys 0 (1, .key 16 1) := by
    refine ⟨by decide, ?_⟩
    rw [if_neg (by decide), if_neg (by decide)]
    refine ⟨by decide, fun _ => ?_⟩
    unfold QuietLookup
    rw [hmap]
    intro _ _ _
    rw [hletter]
    exact fun _ => ⟨rfl, rfl⟩
  exact Machine.seats_isolated twoPools letterKeys 0 twoSeats
    [(1, .key 16 1), (0, .key 30 1)] [(0, .key 30 1)] rfl
    ⟨fun _ => hquiet, fun h => absurd rfl h, trivial⟩ ⟨fun h => absurd rfl h, trivial⟩ 0

/-- **Shift held on one seat makes a capital on the other.** -/
theorem shift_crosses_seats :
    let as : List (Fin 2 × Event) := [(1, .key 42 1), (0, .key 30 1)]
    let bs : List (Fin 2 × Event) := [(0, .key 30 1)]
    as.filter (fun a => a.1 = 0) = bs.filter (fun a => a.1 = 0) ∧
      (Lib.run (Machine.step twoPools letterKeys) twoSeats as).queued 0 0 =
          some [(0x41, false)] ∧
        (Lib.run (Machine.step twoPools letterKeys) twoSeats bs).queued 0 0 =
          some [(0x61, false)] := by
  refine ⟨rfl, ?_, ?_⟩
  · decide +kernel
  · decide +kernel

end LinuxConsole.Input
