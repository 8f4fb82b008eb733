import LinuxConsole.Kbd.Bounds
import LinuxConsole.Kbd.Tables

/-!
# What the handlers are called with

`KDSKBENT` compares the value of a keysym with `max_vals` when it stores it, and
`kbd_keycode` calls the handler of its type with it later, in another mode and with no
test of its own.  `Keyboard` is the machine of the keyboards together with the maps
that the calls change.

`handlerArrays` lists the arrays in which a handler looks for a value, with their
sizes, and `storable_handler` says that what the calls store is in range of them.  The
invariant is `Keyboard.Sound`: the maps hold storable entries below `NR_KEYS`, and
`shift_state` and the locks are bytes, so that `shift_final` is the index of a map.
**`Keyboard.dispatch_inRange`** carries it along every run that reads the maps in bounds;
`dispatch_outOfRange` is what the code `NR_KEYS` does.
-/

namespace LinuxConsole.Input

open Switch (Pools)
open Lib (Along)

/-! ### The locks are bytes -/

/-- `lockstate` and `slockstate` are bytes. -/
structure LockBytes (c : Console) : Prop where
  lock : c.kbd.lockstate < 256
  slock : c.kbd.slockstate < 256

theorem LockBytes.of_kbd {c c' : Console} (h : LockBytes c) (hkbd : c'.kbd = c.kbd) :
    LockBytes c' := ⟨hkbd ▸ h.lock, hkbd ▸ h.slock⟩

theorem LockBytes.clearSlock {c : Console} (h : LockBytes c) :
    LockBytes { c with kbd.slockstate := 0 } := ⟨h.lock, (by decide : 0 < 256)⟩

namespace Console

theorem putsQueue_kbd (c : Console) (cp : List UInt8) : (c.putsQueue cp).kbd = c.kbd := by
  rw [putsQueue]
  generalize cp.takeWhile _ = l
  induction l generalizing c with
  | nil => rfl
  | cons ch l ih => exact ih _

theorem applkey_kbd (c : Console) (key : Nat) (mode : Bool) : (c.applkey key mode).kbd = c.kbd :=
  c.putsQueue_kbd _

theorem toUtf8_kbd (c : Console) (ch : Nat) : (c.toUtf8 ch).kbd = c.kbd := by
  rw [toUtf8]
  split_ifs <;> rfl

end Console

namespace Xlate

variable (e : Env) (keyDown : Nat → Bool) {x : Xlate}

theorem lockBytes_handleDiacr (h : LockBytes x.con) (ch : UInt8) :
    LockBytes (x.handleDiacr e ch).2.con := by
  rw [handleDiacr]
  dsimp only
  split
  · exact h
  · split_ifs
    · exact h
    · exact h.of_kbd rfl

theorem lockBytes_kSelf (h : LockBytes x.con) (value : Nat) (up : Bool) :
    LockBytes (x.kSelf e value up).con := by
  have hdiacr : LockBytes (if x.mods.diacr ≠ 0 then x.handleDiacr e (UInt8.ofNat value)
      else (UInt8.ofNat value, x)).2.con := by
    split_ifs
    · exact lockBytes_handleDiacr e h _
    · exact h
  rw [kSelf]
  generalize (if x.mods.diacr ≠ 0 then x.handleDiacr e (UInt8.ofNat value)
    else (UInt8.ofNat value, x)) = r at hdiacr ⊢
  dsimp only
  split_ifs
  · exact h
  · exact hdiacr
  · exact hdiacr.of_kbd rfl

theorem lockBytes_kDead2 (h : LockBytes x.con) (value : Nat) (up : Bool) :
    LockBytes (x.kDead2 e value up).con := by
  rw [kDead2]
  dsimp only
  split_ifs
  · exact h
  · exact lockBytes_handleDiacr e h _
  · exact h

theorem lockBytes_kFn (h : LockBytes x.con) (value : Nat) (up : Bool) :
    LockBytes (x.kFn e value up).con := by
  rw [kFn]
  split_ifs
  · exact h
  · split
    · exact h.of_kbd (Console.putsQueue_kbd _ _)
    · exact h

theorem lockBytes_kCur (h : LockBytes x.con) (value : Nat) (up : Bool) :
    LockBytes (x.kCur value up).con := by
  rw [kCur]
  split_ifs
  · exact h
  · exact h.of_kbd (Console.applkey_kbd _ _ _)

theorem lockBytes_kPad (h : LockBytes x.con) (value : Nat) (up : Bool) :
    LockBytes (x.kPad e value up).con := by
  have hchar : ∀ y : Xlate, LockBytes y.con →
      LockBytes (if value = 14 ∧ y.con.getKbdMode vcCrlf then y.onCon (·.putQueue 10)
        else y).con := by
    intro y hy
    split_ifs
    · exact hy.of_kbd rfl
    · exact hy
  rw [kPad]
  by_cases hup : up = true
  · rw [if_pos hup]
    exact h
  rw [if_neg hup]
  by_cases happlic : x.con.getKbdMode vcApplic ∧ x.mods.shiftDown kgShift = 0
  · rw [if_pos happlic]
    exact h.of_kbd (Console.applkey_kbd _ _ _)
  rw [if_neg happlic]
  by_cases hnum : x.con.getKbdLed vcNumlock
  · rw [if_pos hnum]
    exact hchar _ (h.of_kbd rfl)
  rw [if_neg hnum]
  split
  · exact lockBytes_kFn e h _ _
  · exact lockBytes_kCur h _ _
  · split_ifs
    · exact h.of_kbd (Console.applkey_kbd _ _ _)
    · exact hchar _ (h.of_kbd rfl)

theorem lockBytes_fnHandler (h : LockBytes x.con) (value : Nat) :
    LockBytes (x.fnHandler e keyDown value).con := by
  have henter : LockBytes x.fnEnter.con := by
    rw [fnEnter]
    dsimp only
    split_ifs <;> exact h.of_kbd rfl
  have hcaps : LockBytes x.fnCapsToggle.con := by
    rw [fnCapsToggle]
    split_ifs
    · exact h
    · exact ⟨h.lock, h.slock⟩
  have hbare : LockBytes x.fnBareNum.con := by
    rw [fnBareNum]
    split_ifs
    · exact h
    · exact ⟨h.lock, h.slock⟩
  have hnum : LockBytes x.fnNum.con := by
    rw [fnNum]
    split_ifs
    · exact h.of_kbd (Console.applkey_kbd _ _ _)
    · exact hbare
  have hhold : LockBytes x.fnHold.con := by
    rw [fnHold]
    split
    · exact h
    · split_ifs
      · exact h
      · exact h
      · exact ⟨h.lock, h.slock⟩
      · exact ⟨h.lock, h.slock⟩
  have hon : LockBytes x.fnCapsOn.con := by
    rw [fnCapsOn]
    split_ifs
    · exact h
    · exact ⟨h.lock, h.slock⟩
  rw [fnHandler.eq_def]
  split
  · rw [fnNull]
    generalize x.mods.computeShiftstate e.plainMap keyDown = mods
    exact h
  · exact henter
  · exact h.of_kbd rfl
  · exact h
  · exact hcaps
  · exact hnum
  · exact hhold
  · exact hon
  · exact h
  · exact ⟨h.lock, h.slock⟩
  · exact h
  · exact h
  · exact hbare
  · exact h

theorem lockBytes_kShift (h : LockBytes x.con) (value : Nat) (up : Bool) :
    LockBytes (x.kShift value up).con := by
  have hflush : ∀ (y : Xlate) (old : Nat), LockBytes y.con → LockBytes (y.flushPad old up).con := by
    intro y old hy
    rw [flushPad]
    split_ifs
    · rw [onCon]
      dsimp only
      split_ifs
      · exact hy.of_kbd (Console.toUtf8_kbd _ _)
      · exact hy.of_kbd rfl
    · exact hy
  rw [kShift]
  dsimp only
  split_ifs
  · exact h
  · exact hflush _ _ h
  · exact hflush _ _ ⟨h.lock, h.slock⟩
  · exact hflush _ _ h

/-- The bytes are kept by `chg_kbd_slock`, which `k_slock` may call twice. -/
theorem lockBytes_kSlock (h : LockBytes x.con) (value : Nat) (up : Bool) :
    LockBytes (x.kSlock e value up).con := by
  have hshift := lockBytes_kShift h value up
  rw [kSlock]
  generalize x.kShift value up = y at hshift ⊢
  dsimp only
  split_ifs
  · exact hshift
  · rw [onCon]
    dsimp only
    split_ifs
    · exact ⟨hshift.lock, Nat.mod_lt _ (by decide)⟩
    · exact ⟨hshift.lock, Nat.mod_lt _ (by decide)⟩

theorem lockBytes_kHandler (h : LockBytes x.con) (type value : Nat) (up : Bool) :
    LockBytes (x.kHandler e keyDown type value up).con := by
  rw [kHandler.eq_def]
  split
  · exact lockBytes_kSelf e h _ _
  · exact lockBytes_kFn e h _ _
  · rw [kSpec]
    split_ifs
    · exact h
    · exact h
    · exact h
    · exact lockBytes_fnHandler e keyDown h _
  · exact lockBytes_kPad e h _ _
  · exact lockBytes_kDead2 e h _ _
  · rw [kCons]
    split_ifs <;> exact h
  · exact lockBytes_kCur h _ _
  · exact lockBytes_kShift h _ _
  · rw [kMeta]
    split_ifs
    · exact h
    · exact h.of_kbd rfl
    · exact h.of_kbd rfl
  · rw [kAscii]
    split_ifs <;> exact h
  · rw [kLock]
    split_ifs
    · exact h
    · exact ⟨Nat.mod_lt _ (by decide), h.slock⟩
  · exact lockBytes_kSlock e h _ _
  · exact lockBytes_kDead2 e h _ _
  · exact h

theorem lockBytes_lookupKey (h : LockBytes x.con) (keycode : Nat) (down rawMode : Bool) :
    LockBytes (x.lookupKey e keyDown keycode down rawMode).con := by
  rw [lookupKey]
  split
  · generalize x.mods.computeShiftstate e.plainMap keyDown = mods
    exact h.clearSlock
  · dsimp only
    split_ifs
    · exact h
    · exact h.of_kbd (Console.toUtf8_kbd _ _)
    · exact h
    · exact h
    · rw [handleKey]
      dsimp only
      split_ifs
      · exact (lockBytes_kHandler e keyDown h _ _ _).clearSlock
      · exact lockBytes_kHandler e keyDown h _ _ _

/-- **A key event keeps the locks bytes.** -/
theorem lockBytes_kbdKeycode (h : LockBytes x.con) (keycode down : Nat) (hwRaw : Bool)
    (hsys : ∀ c, LockBytes c → LockBytes (e.handleSysrq keycode c)) :
    LockBytes (x.kbdKeycode e keyDown keycode down hwRaw).2.con := by
  have hraw := h.of_kbd (SameKbd.putRaw x keycode down hwRaw).kbd
  rw [kbdKeycode]
  generalize (x.noteRepeat keycode down).putRaw keycode down hwRaw = y at hraw ⊢
  split_ifs
  · exact hraw
  · exact hsys _ hraw
  · have hmedium : LockBytes (if y.con.kbd.kbdmode = .mediumraw
        then y.onCon (·.putMediumraw keycode (upFlag down)) else y).con := by
      split_ifs
      · exact hraw.of_kbd (putMediumraw_kbd _ _ _)
      · exact hraw
    rw [translateKey]
    generalize (if y.con.kbd.kbdmode = .mediumraw
      then y.onCon (·.putMediumraw keycode (upFlag down)) else y) = z at hmedium ⊢
    split_ifs
    · exact hmedium
    · exact lockBytes_lookupKey e _ hmedium _ _ _

end Xlate

/-! ### The maps that `KDSKBENT` makes -/

/-- An entry that `KDSKBENT` would store, or the mark of an allocated map. -/
def Storable (x : BitVec 16) : Prop := keysymValid true (keyU x) = true ∨ keyU x = kAllocated

namespace KeyTables

variable (t : KeyTables)

/-- `key_maps[j]`. -/
def mapAt (j : Nat) : Option KeyMap := if h : j < 256 then t.keyMaps ⟨j, h⟩ else none

/-- `key_maps[0][k]`. -/
def plainEntry (k : Nat) : BitVec 16 := (t.mapAt 0).elim 0 fun m => m.entry k

/-- The maps and the accents as the translator reads them. -/
def env (e : Env) : Env :=
  { e with
    plainMap := fun k => (t.plainEntry k).toNat
    keyMaps := fun j => (t.mapAt j).map fun m k => (m.entry k).toNat
    accentTable := (List.range t.accentTableSize).map fun n =>
      (⟨(t.accentTable n).1⟩, ⟨(t.accentTable n).2.1⟩, ⟨(t.accentTable n).2.2⟩) }

/-- The call has stored an entry of the plain map that is or was of type `KT_SHIFT`,
`t'` being the tables after it. -/
def storesShift (t' : KeyTables) : TableCall → Bool
  | .kdskbent (some entry) _ _ _ _ _ =>
    let ov := keyU (t.plainEntry entry.index)
    let v := keyU (t'.plainEntry entry.index)
    entry.table.val = 0 && ov ≠ v && (keyTyp ov = ktShift || keyTyp v = ktShift)
  | _ => false

/-- There is a plain map, and all entries of the maps below `n` are storable. -/
structure Valid (n : Nat) : Prop where
  plain : (t.mapAt 0).isSome = true
  entries : ∀ s m, t.keyMaps s = some m → ∀ k < n, Storable (m.entry k)

variable {t} {n : Nat}

theorem storable_newMap (k : Nat) : Storable (newMap.entry k) := by
  rw [newMap]
  dsimp only
  split
  · exact .inr (by decide)
  · exact .inl (by decide)

theorem keysymValid_unicode {unicode : Bool} {v : BitVec 16} (h : keysymValid unicode v = true) :
    keysymValid true v = true := by
  rw [keysymValid] at h ⊢
  split_ifs at h ⊢
  · exact h
  · rfl

theorem storable_keyU {unicode : Bool} {v : BitVec 16} (h : keysymValid unicode v = true) :
    Storable (keyU v) := by
  have hback : keyU (keyU v) = v := by
    rw [keyU, keyU, BitVec.xor_assoc, BitVec.xor_self, BitVec.xor_zero]
  exact .inl (hback.symm ▸ keysymValid_unicode h)

theorem valid_setMap (h : t.Valid n) {s : Fin 256} {m : KeyMap}
    (hm : ∀ k < n, Storable (m.entry k)) : (t.setMap s (some m)).Valid n := by
  refine ⟨?_, fun r m' hr k hk => ?_⟩
  · have hplain := h.plain
    rw [mapAt, dif_pos (by decide)] at hplain ⊢
    rw [setMap]
    dsimp only
    by_cases hs : (⟨0, by decide⟩ : Fin 256) = s
    · rw [hs, Function.update_self]
      rfl
    · rw [Function.update_of_ne hs]
      exact hplain
  · rw [setMap] at hr
    dsimp only at hr
    by_cases hs : r = s
    · rw [hs, Function.update_self] at hr
      exact Option.some.inj hr ▸ hm k hk
    · rw [Function.update_of_ne hs] at hr
      exact h.entries r m' hr k hk

theorem valid_storeEntry (h : t.Valid n) (s i : Fin 256) {v : BitVec 16} (capAdmin : Bool)
    {m : KeyMap} (hm : ∀ k < n, Storable (m.entry k)) (hv : Storable (keyU v)) :
    (t.storeEntry s i v capAdmin m).2.Valid n := by
  rw [storeEntry]
  split_ifs
  · exact h
  · exact h
  · refine valid_setMap h fun k hk => ?_
    dsimp only
    by_cases hi : k = i
    · rw [hi, Function.update_self]
      exact hv
    · rw [Function.update_of_ne hi]
      exact hm k hk

theorem valid_disallocate (h : t.Valid n) (s : Fin 256) : (t.disallocate s).Valid n := by
  have hnone : s ≠ 0 → (t.setMap s none).Valid n := by
    intro hs
    have hzero : (⟨0, by decide⟩ : Fin 256) ≠ s := fun heq => hs heq.symm
    refine ⟨?_, fun r m' hr k hk => ?_⟩
    · have hplain := h.plain
      rw [mapAt, dif_pos (by decide)] at hplain ⊢
      rw [setMap]
      dsimp only
      rw [Function.update_of_ne hzero]
      exact hplain
    · rw [setMap] at hr
      dsimp only at hr
      by_cases hrs : r = s
      · rw [hrs, Function.update_self] at hr
        exact absurd hr (Option.some_ne_none m').symm
      · rw [Function.update_of_ne hrs] at hr
        exact h.entries r m' hr k hk
  rw [disallocate]
  split
  · exact h
  · split_ifs with hs hmark
    · exact h
    · exact ⟨(hnone hs).plain, (hnone hs).entries⟩
    · exact hnone hs

/-- **The calls keep the maps valid.** -/
theorem valid_step (zero : Bool) (h : t.Valid n) (c : TableCall) : (t.step zero c).Valid n := by
  rw [step]
  cases c with
  | kdskbent entry perm unicode mem capResource capAdmin =>
    rw [call, kdskbent.eq_def]
    split
    · exact h
    · next e =>
      split_ifs with hperm hfree hvalid
      · exact h
      · exact valid_disallocate h _
      · exact h
      · exact h
      · have hv : Storable (keyU e.value) := storable_keyU (by simpa using hvalid)
        rw [assign]
        split
        · next m hmap => exact valid_storeEntry h _ _ _ (h.entries _ m hmap) hv
        · split_ifs
          · exact h
          · exact h
          · have hnew := valid_setMap (s := e.table) h fun k _ => storable_newMap k
            have hgrown : (t.grown e.table).Valid n := ⟨hnew.plain, hnew.entries⟩
            exact valid_storeEntry hgrown _ _ _ (fun k _ => storable_newMap k) hv
  | kdskbdiacr ct perm copied accents =>
    rw [call, kdskbdiacr.eq_def]
    by_cases hperm : (!perm) = true
    · rw [if_pos hperm]
      exact h
    rw [if_neg hperm]
    split
    · exact h
    · next ct =>
      by_cases hlarge : ct.toNat ≥ maxDiacr
      · rw [if_pos hlarge]
        exact h
      rw [if_neg hlarge]
      dsimp only
      split_ifs
      · exact ⟨h.plain, h.entries⟩
      · exact ⟨h.plain, h.entries⟩

theorem mapAt_some {j : Nat} {m : KeyMap} (h : t.mapAt j = some m) :
    ∃ hj : j < 256, t.keyMaps ⟨j, hj⟩ = some m := by
  rw [mapAt] at h
  split_ifs at h with hj
  exact ⟨hj, h⟩

theorem keyMap_env {e : Env} (h : t.Valid n) {j : Nat} {m : Nat → Nat}
    (hm : Xlate.keyMap (t.env e) j = some m) :
    ∀ k < n, ∃ x : BitVec 16, m k = x.toNat ∧ Storable x := by
  intro k hk
  rw [Xlate.keyMap] at hm
  split_ifs at hm
  · obtain ⟨m₀, hm₀⟩ := Option.isSome_iff_exists.mp h.plain
    obtain ⟨hj, hs⟩ := mapAt_some hm₀
    refine ⟨m₀.entry k, ?_, h.entries _ _ hs k hk⟩
    rw [← Option.some.inj hm, env]
    dsimp only
    rw [plainEntry, hm₀]
    rfl
  · rw [env] at hm
    dsimp only at hm
    obtain ⟨m₀, hm₀, rfl⟩ := Option.map_eq_some_iff.mp hm
    obtain ⟨hj, hs⟩ := mapAt_some hm₀
    exact ⟨m₀.entry k, rfl, h.entries _ _ hs k hk⟩

end KeyTables

/-! ### The arrays of the handlers -/

/-- `NR_SHIFT`. -/
def nrShift : Nat := 9

namespace Xlate

/-- Where a handler looks in an array, with the size of the array: `func_table` in
`k_fn`; `fn_handler` in `k_spec`, which compares the value with the size first;
`pad_chars` and `app_map` in `k_pad`, and `func_table` and `cur_chars` for a key of
the pad that stands for another; `ret_diacr` in `k_dead`; `cur_chars` in `k_cur`;
`shift_down` in `k_shift` and `k_slock`. -/
def handlerArrays (type value : Nat) : List (Nat × Nat) :=
  match type with
  | 1 => [(value, 256)]
  | 2 => if value < 20 then [(value, 20)] else []
  | 3 =>
    [(value, padChars.length), (value, appMap.length)] ++
      (padAsFunction value).toList.map (fun f => (f, 256)) ++
      (padAsCursor value).toList.map (fun d => (d, curChars.length))
  | 4 => [(value, retDiacr.length)]
  | 6 => [(value, curChars.length)]
  | 7 | 12 => [(modifierOf value, nrShift)]
  | _ => []

theorem handlerArrays_lt {type value : Nat} (htype : type < maxVals.length)
    (hvalue : value ≤ maxVals.getD type 0) : ∀ a ∈ handlerArrays type value, a.1 < a.2 := by
  have hpad : ∀ f ∈ padAsFunction value, f < 256 := by
    rw [padAsFunction.eq_def]
    split <;> decide
  have hcur : ∀ d ∈ padAsCursor value, d < curChars.length := by
    rw [padAsCursor.eq_def]
    split <;> decide
  have hmod : ∀ v, v ≤ 8 → modifierOf v < nrShift := by
    intro v hv
    rw [modifierOf]
    split_ifs
    · decide
    · exact Nat.lt_succ_of_le hv
  have hone : ∀ i n : Nat, i < n → ∀ a ∈ [(i, n)], a.1 < a.2 := by
    intro i n hlt a ha
    rw [List.mem_singleton.mp ha]
    exact hlt
  rw [handlerArrays.eq_def]
  split
  · exact hone _ _ (Nat.lt_succ_of_le hvalue)
  · have hlt : value < 20 := Nat.lt_succ_of_le hvalue
    rw [if_pos hlt]
    exact hone _ _ hlt
  · have hlt : value < 20 := Nat.lt_succ_of_le hvalue
    intro a ha
    rw [List.mem_append, List.mem_append, List.mem_map, List.mem_map] at ha
    rcases ha with (ha | ⟨f, hf, rfl⟩) | ⟨d, hd, rfl⟩
    · rcases List.mem_pair.mp ha with rfl | rfl
      · exact Nat.lt_trans hlt (by decide : 20 < padChars.length)
      · exact Nat.lt_trans hlt (by decide : 20 < appMap.length)
    · exact hpad f (Option.mem_toList.mp hf)
    · exact hcur d (Option.mem_toList.mp hd)
  · exact hone _ _ (Nat.lt_succ_of_le hvalue)
  · exact hone _ _ (Nat.lt_succ_of_le hvalue)
  · exact hone _ _ (hmod value hvalue)
  · exact hone _ _ (hmod value (Nat.le_trans hvalue (by decide)))
  · exact fun _ ha => absurd ha List.not_mem_nil

end Xlate

theorem keyTyp_keyU (x : BitVec 16) : keyTyp (keyU x) = ktyp x.toNat := by
  rw [keyTyp, keyU, ktyp, BitVec.toNat_ushiftRight, BitVec.toNat_xor]
  rfl

/-- The type of an entry as the call and as the translator see it. -/
theorem ktyp_toNat {x : BitVec 16} (h : 0xf0 ≤ x.toNat >>> 8) :
    ktyp x.toNat = x.toNat >>> 8 - 0xf0 ∧ x.toNat >>> 8 - 0xf0 < 16 := by
  have hsmall : ∀ a < 16, 0xf0 + a ^^^ 0xf0 = a := by decide
  have hlt := x.isLt
  have hbyte : x.toNat >>> 8 < 256 := by
    rw [Nat.shiftRight_eq_div_pow]
    omega
  obtain ⟨a, ha⟩ := Nat.exists_eq_add_of_le h
  have ha16 : a < 16 := by omega
  rw [ktyp_eq, ha, hsmall a ha16, Nat.add_sub_cancel_left]
  exact ⟨rfl, ha16⟩

theorem keyVal_keyU (x : BitVec 16) : keyVal (keyU x) = kval x.toNat := by
  rw [keyVal, keyU, kval, BitVec.toNat_and, BitVec.toNat_xor, Nat.and_xor_distrib_right]
  exact Nat.xor_zero _

/-- **A handler that is called for a storable entry finds its arrays in range.** -/
theorem storable_handler {x : BitVec 16} (hx : Storable x) (hsym : 0xf0 ≤ x.toNat >>> 8) :
    ∀ a ∈ Xlate.handlerArrays (x.toNat >>> 8 - 0xf0) (kval x.toNat), a.1 < a.2 := by
  obtain ⟨htyp, hlt⟩ := ktyp_toNat hsym
  rw [← htyp, ← keyTyp_keyU] at hlt ⊢
  rw [← keyVal_keyU]
  rcases hx with hvalid | hmark
  · rw [keysymValid] at hvalid
    split_ifs at hvalid with htype
    · exact Xlate.handlerArrays_lt htype (of_decide_eq_true hvalid)
    · have hignore : keyTyp (keyU x) = 14 ∨ keyTyp (keyU x) = 15 := by
        rw [show maxVals.length = 14 from rfl] at htype
        omega
      rcases hignore with h | h <;> rw [h] <;> exact fun _ ha => absurd ha List.not_mem_nil
  · rw [hmark]
    decide

theorem storable_modifier {x : BitVec 16} (hx : Storable x)
    (htype : ktyp x.toNat = ktShift ∨ ktyp x.toNat = ktSlock) : modifierOf (kval x.toNat) < 8 := by
  rw [← keyTyp_keyU] at htype
  rw [← keyVal_keyU]
  have hle : keyVal (keyU x) ≤ 8 := by
    rcases hx with hvalid | hmark
    · rw [keysymValid] at hvalid
      rcases htype with h | h <;> rw [h] at hvalid
      · exact of_decide_eq_true hvalid
      · exact Nat.le_trans (of_decide_eq_true hvalid) (by decide)
    · rw [hmark] at htype
      exact absurd htype (by decide)
  rw [modifierOf, kgCapsshift]
  split_ifs with h
  · decide
  · omega

/-! ### The state is a byte -/

theorem countShiftPair_lt {s : (Nat → UInt8) × Nat} {w : Nat} (h : s.2 < 256) (hw : w < 8)
    (up : Bool) : (countShiftPair s w up).2 < 256 := by
  refine Nat.lt_pow_two_of_testBit (n := 8) _ fun v hv => ?_
  have hbit : s.2.testBit v = false :=
    Nat.testBit_lt_two_pow (Nat.lt_of_lt_of_le h (Nat.pow_le_pow_right Nat.two_pos hv))
  have hne : decide (v = w) = false := decide_eq_false (show ¬ v = w by omega)
  rw [countShiftPair]
  generalize (if up = true then if s.1 w ≠ 0 then s.1 w - 1 else s.1 w else s.1 w + 1) = n
  dsimp only
  split_ifs
  · rw [testBit_or_bit, hbit, hne]
    rfl
  · rw [testBit_clear_bit, hbit]
    rfl

theorem shiftstateOf_lt {plainMap : Nat → Nat} {keyDown : Nat → Bool}
    (h : ∀ k < keyBits, keyDown k = true → isShiftKey plainMap k = true →
      shiftOf plainMap k < 8) : (shiftstateOf plainMap keyDown).2 < 256 := by
  refine Nat.lt_pow_two_of_testBit (n := 8) _ fun w hw => ?_
  have hnone : heldCount plainMap keyDown w = 0 := by
    rw [heldCount, heldBelow, Finset.card_eq_zero, Finset.filter_eq_empty_iff]
    intro k hk hholds
    rw [holds, Bool.and_eq_true] at hholds
    have hlt := h k (Finset.mem_range.mp hk) hholds.1.1 hholds.1.2
    omega
  rw [(shiftstateOf_reads plainMap keyDown).state, hnone]
  rfl

/-! ### Keyboards and their maps -/

/-- The keyboards and the maps. -/
structure Keyboard (N : Nat) where
  machine : Machine N
  tables : KeyTables

/-- What happens to them: an event or a change of mode, or a call. -/
inductive KbdOp (N : Nat)
  | mode (o : ModeOp N)
  | call (c : TableCall)

variable {N : Nat}

/-- What happens; a call that stores a modifier in the plain map ends in
`compute_shiftstate`. -/
def Keyboard.step (P : Pools N) (e : Env) (zero : Bool) (s : Keyboard N) : KbdOp N → Keyboard N
  | .mode o => { s with machine := s.machine.op P (s.tables.env e) o }
  | .call c =>
    let t := s.tables.step zero c
    { machine := if s.tables.storesShift t c then s.machine.recompute (t.env e) else s.machine
      tables := t }

/-- The maps are valid, `shift_state` and the locks are bytes. -/
structure Keyboard.Sound (e : Env) (s : Keyboard N) : Prop where
  valid : s.tables.Valid e.nrKeys
  state : s.machine.mods.shiftState < 256
  locks : ∀ v i, LockBytes ((s.machine.seat v).con i)

/-- The locks that are set are bytes. -/
def KbdOp.Bytes : KbdOp N → Prop
  | .mode (.setKbd _ _ kbd) => kbd.lockstate < 256 ∧ kbd.slockstate < 256
  | _ => True

/-- The maps are read in bounds: `ClearStep`, and no key from `NR_KEYS` on is down when
a call ends in `compute_shiftstate`. -/
def Keyboard.Clear (e : Env) (zero : Bool) (s : Keyboard N) : KbdOp N → Prop
  | .mode o => ClearStep (s.tables.env e) s.machine o
  | .call c =>
    s.tables.storesShift (s.tables.step zero c) c = true → NoneAbove e s.machine.keyDown

/-- **The handler that is called exists and finds its arrays in range, and
`shift_final` is the index of a map.** -/
structure Keyboard.Dispatches (e : Env) (s : Keyboard N) (o : KbdOp N) : Prop where
  final : ∀ v, (s.machine.xlate v).shiftFinal < 256
  handler : ∀ v keycode value, o = .mode (.event v (.key keycode value)) →
    ∀ type arg, (s.machine.xlate v).fate (s.tables.env e) keycode value = .handled type arg →
      type < 16 ∧ ∀ a ∈ Xlate.handlerArrays type arg, a.1 < a.2

/-! ### One step -/

section

variable {P : Pools N} {e : Env} {t : KeyTables}

theorem handled_storable (ht : t.Valid e.nrKeys) {x : Xlate} {keycode down type arg : Nat}
    (hf : x.fate (t.env e) keycode down = .handled type arg) (hk : keycode ≠ e.nrKeys) :
    type < 16 ∧ (∀ a ∈ Xlate.handlerArrays type arg, a.1 < a.2) ∧
      (type = ktShift ∨ type = ktSlock → modifierOf arg < 8) := by
  obtain ⟨hle, m, hmap, hsym, htv⟩ := x.lookupFate_handled _ (x.fate_handled _ hf)
  have hlt : keycode < e.nrKeys := Nat.lt_of_le_of_ne hle hk
  obtain ⟨s, hs, hstorable⟩ := KeyTables.keyMap_env ht hmap keycode hlt
  rw [hs] at hsym htv
  rcases x.typeAndValue_cases (t.env e) s.toNat keycode with ⟨letter, hlatin⟩ | hplain
  · obtain ⟨rfl, rfl⟩ := Prod.mk.inj (hlatin.symm.trans htv)
    exact ⟨by decide, fun _ ha => absurd ha List.not_mem_nil, fun h => absurd h (by decide)⟩
  · obtain ⟨rfl, rfl⟩ := Prod.mk.inj (hplain.symm.trans htv)
    obtain ⟨htyp, h16⟩ := ktyp_toNat hsym
    refine ⟨h16, storable_handler hstorable hsym, fun htype => ?_⟩
    rw [← htyp] at htype
    exact storable_modifier hstorable htype

/-- `compute_shiftstate` makes a byte of the keys below `NR_KEYS`. -/
theorem shiftstateOf_env_lt (ht : t.Valid e.nrKeys) {keyDown : Nat → Bool}
    (hnone : NoneAbove e keyDown) : (shiftstateOf (t.env e).plainMap keyDown).2 < 256 := by
  refine shiftstateOf_lt fun k hk hdown hkey => ?_
  have hlt : k < e.nrKeys := by
    by_contra hbig
    rw [hnone k (Nat.le_of_not_lt hbig) hk] at hdown
    exact Bool.false_ne_true hdown
  obtain ⟨x, hx, hstorable⟩ := KeyTables.keyMap_env (j := 0) ht rfl k hlt
  rw [isShiftKey, hx] at hkey
  rw [shiftOf, hx]
  exact storable_modifier hstorable (of_decide_eq_true hkey)

theorem shiftAfter_lt (ht : t.Valid e.nrKeys) {x : Xlate} (hx : x.mods.shiftState < 256)
    {keyDown : Nat → Bool} {keycode down : Nat}
    (hlook : Xlate.looksUp (x.fate (t.env e) keycode down) = true → keycode ≠ e.nrKeys)
    (hrec : x.recomputes down (x.fate (t.env e) keycode down) = true → NoneAbove e keyDown) :
    (x.shiftAfter (t.env e) keyDown down (x.fate (t.env e) keycode down)).2 < 256 := by
  by_cases hanew : x.recomputes down (x.fate (t.env e) keycode down) = true
  · rw [Xlate.shiftAfter_recomputes _ _ _ _ _ hanew]
    exact shiftstateOf_env_lt ht (hrec hanew)
  · rw [Xlate.shiftAfter_counts _ _ _ _ _ (Bool.eq_false_iff.mpr hanew)]
    cases hcount : Xlate.countsFor down (x.fate (t.env e) keycode down) with
    | none => exact hx
    | some w =>
      obtain ⟨type, arg, hf, htype, -, rfl⟩ := Xlate.countsFor_some hcount
      have hk := hlook (by rw [hf]; rfl)
      exact countShiftPair_lt hx ((handled_storable ht hf hk).2.2 htype) _

theorem serve_con (m : Machine N) (v w : Fin N) (r : Option Request) :
    ((m.serve P v r).seat w).con = (m.seat w).con := by
  have hwant : ∀ (u : Fin N) (f : Seat → Seat), (∀ s, (f s).con = s.con) →
      ((m.updSeat u f).seat w).con = (m.seat w).con := by
    intro u f hf
    rw [Machine.updSeat_seat]
    split_ifs with hw
    · rw [hf, hw]
    · rfl
  cases r with
  | none => rfl
  | some r =>
    cases r with
    | console n =>
      rw [Machine.serve, Machine.setConsole]
      split
      · split_ifs
        · exact hwant _ _ fun _ => rfl
        · rfl
      · rfl
    | last =>
      rw [Machine.serve]
      exact hwant _ _ fun _ => rfl
    | dec =>
      rw [Machine.serve]
      refine hwant _ _ fun s => ?_
      split <;> rfl
    | inc =>
      rw [Machine.serve]
      refine hwant _ _ fun s => ?_
      split <;> rfl

theorem lockBytes_updSeat {m : Machine N} (h : ∀ w i, LockBytes ((m.seat w).con i)) (v : Fin N)
    (f : Seat → Seat) (hf : ∀ i, LockBytes ((f (m.seat v)).con i)) :
    ∀ w i, LockBytes (((m.updSeat v f).seat w).con i) := by
  intro w i
  rw [Machine.updSeat_seat]
  split_ifs
  · exact hf i
  · exact h w i

theorem lockBytes_update {con : Nat → Console} (h : ∀ i, LockBytes (con i)) {c : Console}
    (hc : LockBytes c) (j i : Nat) : LockBytes (Function.update con j c i) := by
  rw [Function.update_apply]
  split_ifs
  · exact hc
  · exact h i

/-- **What happens keeps the locks bytes.** -/
theorem lockBytes_op {m : Machine N} (h : ∀ v i, LockBytes ((m.seat v).con i)) {o : ModeOp N}
    (ho : (KbdOp.mode o).Bytes)
    (hsys : ∀ keycode c, LockBytes c → LockBytes (e.handleSysrq keycode c)) :
    ∀ v i, LockBytes (((m.op P e o).seat v).con i) := by
  cases o with
  | event v ev =>
    cases ev with
    | raw data =>
      rw [Machine.op, Machine.step]
      dsimp only
      split_ifs
      · refine lockBytes_updSeat h v _ fun i => lockBytes_update (h v) ?_ _ i
        change LockBytes (((m.seat v).con (m.seat v).fgConsole).kbdRawcode data)
        rw [Console.kbdRawcode]
        split_ifs
        · exact (h v _).of_kbd rfl
        · exact h v _
      · exact h
    | key keycode value =>
      intro w i
      rw [Machine.op, Machine.step]
      dsimp only
      rw [Machine.key, serve_con]
      refine lockBytes_updSeat (m := { m with
        keyDown := ((m.xlate v).kbdKeycode e m.keyDown keycode value (m.seat v).hwRaw).1
        mods := ((m.xlate v).kbdKeycode e m.keyDown keycode value (m.seat v).hwRaw).2.mods }) h v _
        (lockBytes_update (h v) ?_ _) w i
      exact Xlate.lockBytes_kbdKeycode e m.keyDown (h v _) keycode value _ (hsys keycode)
    | work goes =>
      rw [Machine.op, Machine.step]
      dsimp only
      rw [Machine.work]
      split_ifs
      · exact lockBytes_updSeat (m := { m with
          mods := m.mods.computeShiftstate e.plainMap m.keyDown }) h v _ (h v)
      · exact h
  | kdskbmode v j mode =>
    have hmode : ∀ w i, LockBytes (((m.updKbd v j fun k => { k with kbdmode := mode }).seat
        w).con i) := by
      refine lockBytes_updSeat h v _ fun i => lockBytes_update (h v) ?_ j i
      exact ⟨(h v j).lock, (h v j).slock⟩
    rw [Machine.op, Machine.kdskbmode]
    split_ifs
    · exact hmode
    · exact hmode
  | setKbd v j kbd =>
    rw [Machine.op, Machine.updKbd]
    refine lockBytes_updSeat h v _ fun i => lockBytes_update (h v) ?_ j i
    exact ⟨ho.1, ho.2⟩
  | activate v j =>
    rw [Machine.op]
    exact lockBytes_updSeat h v _ (h v)
  | reldisp v j =>
    have hseat := lockBytes_updSeat h v
      (fun s => { s with fgConsole := j, lastConsole := s.fgConsole }) (h v)
    exact hseat

/-- **What happens keeps `shift_state` a byte.** -/
theorem shiftState_op (ht : t.Valid e.nrKeys) {m : Machine N} (h : m.mods.shiftState < 256)
    {o : ModeOp N} (hc : ClearStep (t.env e) m o) :
    (m.op P (t.env e) o).mods.shiftState < 256 := by
  change m.mods.shift.2 < 256 at h
  change (m.op P (t.env e) o).mods.shift.2 < 256
  cases o with
  | event v ev =>
    cases ev with
    | raw data =>
      rw [Machine.op, Machine.step]
      dsimp only
      split_ifs
      · exact h
      · exact h
    | key keycode value =>
      rw [show (m.op P (t.env e) (.event v (.key keycode value))).mods.shift = _ from
        (m.key_fate P (t.env e) v keycode value).2]
      exact shiftAfter_lt ht h hc.1 hc.2
    | work goes =>
      rw [show (m.op P (t.env e) (.event v (.work goes))).mods.shift = _ from
        (m.work_globals (t.env e) v goes).2]
      split_ifs with hgoes
      · exact shiftstateOf_env_lt ht (hc hgoes.1 hgoes.2)
      · exact h
  | kdskbmode v i mode =>
    rw [Machine.op, (m.kdskbmode_globals (t.env e) v i mode).2]
    split_ifs with hmode
    · exact shiftstateOf_env_lt ht (hc hmode)
    · exact h
  | setKbd v i kbd => exact h
  | activate v i => exact h
  | reldisp v i =>
    rw [Machine.op, (m.completeChange_globals (t.env e) v i).2]
    exact shiftstateOf_env_lt ht hc

end

namespace Keyboard

variable {P : Pools N} {e : Env} {zero : Bool}

theorem shiftFinal_lt {s : Keyboard N} (h : s.Sound e) (v : Fin N) :
    (s.machine.xlate v).shiftFinal < 256 :=
  Nat.xor_lt_two_pow (n := 8) (Nat.or_lt_two_pow h.state (h.locks v _).slock) (h.locks v _).lock

/-- **A sound keyboard dispatches in range**, where the step reads the maps in bounds. -/
theorem dispatches_of_sound {s : Keyboard N} (h : s.Sound e) {o : KbdOp N}
    (hc : s.Clear e zero o) : s.Dispatches e o := by
  refine ⟨shiftFinal_lt h, ?_⟩
  rintro v keycode value rfl type arg hf
  obtain ⟨hlook, -⟩ := hc
  rw [hf] at hlook
  obtain ⟨h16, harrays, -⟩ := handled_storable h.valid hf (hlook rfl)
  exact ⟨h16, harrays⟩

/-- **One step keeps the keyboard sound.** -/
theorem sound_step {s : Keyboard N} (h : s.Sound e) {o : KbdOp N} (hc : s.Clear e zero o)
    (ho : o.Bytes) (hsys : ∀ keycode c, LockBytes c → LockBytes (e.handleSysrq keycode c)) :
    (s.step P e zero o).Sound e := by
  cases o with
  | mode o => exact ⟨h.valid, shiftState_op h.valid h.state hc, lockBytes_op h.locks ho hsys⟩
  | call c =>
    have hvalid := KeyTables.valid_step zero h.valid c
    rw [step]
    refine ⟨hvalid, ?_, ?_⟩
    · dsimp only
      split_ifs with hstores
      · rw [Machine.recompute, Mods.computeShiftstate]
        dsimp only
        exact shiftstateOf_env_lt hvalid (hc hstores)
      · exact h.state
    · dsimp only
      split_ifs
      · exact h.locks
      · exact h.locks

/-- **Every keysym that is dispatched is in range, and `shift_final` is the index of a
map, along every run that reads the maps in bounds.** -/
theorem dispatch_inRange (P : Pools N) (e : Env) (zero : Bool) (s : Keyboard N) (h : s.Sound e)
    (ops : List (KbdOp N)) (hops : ∀ o ∈ ops, o.Bytes)
    (hsys : ∀ keycode c, LockBytes c → LockBytes (e.handleSysrq keycode c))
    (hclear : Along (step P e zero) (Clear e zero) s ops) :
    Along (step P e zero) (Dispatches e) s ops := by
  exact Along.imp (I := Sound e) (fun s o hs ho => sound_step hs ho.2 ho.1 hsys)
    (fun s o hs ho => dispatches_of_sound hs ho.2) h ((Lib.along_and_mem hops).mpr hclear)

/-- The step keeps the keys from `NR_KEYS` on up, if the code of the event is below. -/
theorem clear_step_of_code {s : Keyboard N} (h : NoneAbove e s.machine.keyDown) {o : KbdOp N}
    (ho : ∀ o', o = .mode o' → CodeBelow e o') :
    s.Clear e zero o ∧ NoneAbove e (s.step P e zero o).machine.keyDown := by
  cases o with
  | mode o =>
    have hcode : CodeBelow (s.tables.env e) o := by
      have hbelow := ho o rfl
      cases o with
      | event v ev =>
        cases ev with
        | key keycode value => exact hbelow
        | raw data => trivial
        | work goes => trivial
      | kdskbmode v i mode => trivial
      | setKbd v i kbd => trivial
      | activate v i => trivial
      | reldisp v i => trivial
    exact ⟨clearStep_of_code (s.tables.env e) h hcode, noneAbove_op P (s.tables.env e) h hcode⟩
  | call c =>
    refine ⟨fun _ => h, ?_⟩
    rw [step]
    dsimp only
    split_ifs
    · rw [Machine.recompute_keyDown]
      exact h
    · exact h

/-- **Codes below `NR_KEYS` keep all reads in bounds**, whatever calls there are. -/
theorem clear_of_codes (P : Pools N) (e : Env) (zero : Bool) {s : Keyboard N}
    (h : NoneAbove e s.machine.keyDown) {ops : List (KbdOp N)}
    (hops : ∀ o ∈ ops, ∀ o', o = .mode o' → CodeBelow e o') :
    Along (step P e zero) (Clear e zero) s ops := by
  have htrue : Along (step P e zero) (fun _ _ => True) s ops := Lib.along_true ops
  exact Along.imp (I := fun s => NoneAbove e s.machine.keyDown)
    (fun s o hs ho => (clear_step_of_code hs ho.1).2)
    (fun s o hs ho => (clear_step_of_code (P := P) hs ho.1).1) h
    ((Lib.along_and_mem hops).mpr htrue)

end Keyboard

/-! ### One plain map -/

/-- A plain map with Shift on key 42, and the word behind it. -/
def shiftTables (behind : BitVec 16) : KeyTables where
  keyMaps s :=
    if s.val = 0 then
      some ⟨false, fun k => if k < 255 then if k = 42 then 0xf700 else 0xf200 else behind⟩
    else none
  keymapCount := 0
  accentTable _ := (0, 0, 0)
  accentTableSize := 0

theorem shiftTables_valid (behind : BitVec 16) : (shiftTables behind).Valid 255 := by
  refine ⟨rfl, fun s m hm k hk => ?_⟩
  rw [shiftTables] at hm
  dsimp only at hm
  split_ifs at hm
  rw [← Option.some.inj hm]
  dsimp only
  rw [if_pos hk]
  split_ifs
  · exact .inl (by decide)
  · exact .inl (by decide)

theorem shiftTables_sound (behind : BitVec 16) :
    (⟨twoSeats, shiftTables behind⟩ : Keyboard 2).Sound letterKeys where
  valid := shiftTables_valid behind
  state := (by decide : 0 < 256)
  locks _ _ := ⟨(by decide : 0 < 256), (by decide : 0 < 256)⟩

/-- An entry stored, then Shift and key 43 pressed. -/
def bindAndPress (entry : Kbentry) (v : Fin N) : List (KbdOp N) :=
  [.call (.kdskbent (some entry) true false true false false),
    .mode (.event v (.key 42 1)), .mode (.event v (.key 43 1))]

/-- Control is put on key 43 of the plain map, and then Shift and Control are pressed. -/
theorem dispatch_inRange_bound :
    Along (Keyboard.step twoPools letterKeys false) (Keyboard.Dispatches letterKeys)
      ⟨twoSeats, shiftTables 0xf4ff⟩ (bindAndPress ⟨0, 43, 0x702⟩ 0) := by
  have hmem : ∀ o ∈ bindAndPress ⟨0, 43, 0x702⟩ (0 : Fin 2),
      o.Bytes ∧ ∀ o', o = .mode o' → CodeBelow letterKeys o' := by
    intro o ho
    rw [bindAndPress, List.mem_cons, List.mem_pair] at ho
    rcases ho with rfl | rfl | rfl
    · refine ⟨trivial, fun o' h => ?_⟩
      cases h
    · exact ⟨trivial, fun o' h => KbdOp.mode.inj h ▸ (by decide : 42 < letterKeys.nrKeys)⟩
    · exact ⟨trivial, fun o' h => KbdOp.mode.inj h ▸ (by decide : 43 < letterKeys.nrKeys)⟩
  exact Keyboard.dispatch_inRange twoPools letterKeys false ⟨twoSeats, shiftTables 0xf4ff⟩
    (shiftTables_sound _) (bindAndPress ⟨0, 43, 0x702⟩ 0) (fun o ho => (hmem o ho).1)
    (fun _ _ h => h)
    (Keyboard.clear_of_codes twoPools letterKeys false (fun _ _ _ => rfl) fun o ho => (hmem o ho).2)

/-- **The word behind the map is dispatched for the code `NR_KEYS`**: here it has the
type of a dead key and the value 255, with which `k_dead` looks in an array of 6. -/
theorem dispatch_outOfRange :
    letterKeys.nrKeys = 255 ∧ (⟨twoSeats, shiftTables 0xf4ff⟩ : Keyboard 2).Sound letterKeys ∧
      ¬ Along (Keyboard.step twoPools letterKeys false) (Keyboard.Dispatches letterKeys)
        ⟨twoSeats, shiftTables 0xf4ff⟩ [.mode (.event 0 (.key 255 1))] := by
  refine ⟨rfl, shiftTables_sound _, fun h => ?_⟩
  have hf : (twoSeats.xlate 0).fate ((shiftTables 0xf4ff).env letterKeys) 255 1 =
      .handled 4 255 := by decide +kernel
  have hlt := (h.1.handler 0 255 1 rfl 4 255 hf).2 (255, 6) (List.mem_singleton.mpr rfl)
  exact absurd hlt (by decide)

end LinuxConsole.Input
