import Mathlib.Data.List.FinRange
import Mathlib.Logic.Function.Basic
import LinuxConsole.Lib.Run

/-!
# Keyboards, beepers and the VTs they are bound to

A handle is what the keyboard handler holds of one input device.  The binding of
handles to VTs is kept twice: `handle->private` is the VT, and the VT has its
main keyboard and its beeper.  `kbd_connect` and `kbd_disconnect` make and undo
it when devices come and go, and a write to a VT's `keyboard` file rebinds a
handle by the physical path of its device; with a `+` before the path the handle
is added to the VT without becoming its main keyboard.

A pointer to a handle is a number and is never given out twice.  `handles` are
the handles in the order of the list that `input_find_handle` goes through.

`kbd_disconnect` looks at the main keyboard only.  **`binding_iff`** says that
the bindings hold along a run exactly when no handle is disconnected while it is
the beeper of a VT.
-/

namespace LinuxConsole.Input

/-- What the handler looks at in a `struct input_dev`: whether it has a key below
`BTN_MISC`, whether `EV_SND` is set, and `phys`, which may be null. -/
structure InputDev where
  hasKey : Bool
  hasSnd : Bool
  phys : Option (List UInt8)
  deriving DecidableEq

/-- The bindings.  `beep` is the `data` of a VT's timer `beep`: the handle that
`kd_nosound` is called with. -/
structure Seats (N : Nat) where
  handles : List Nat
  dev : Nat → InputDev
  private_ : Nat → Option (Fin N)
  next : Nat
  keyboard : Fin N → Option Nat
  beeper : Fin N → Option Nat
  beep : Fin N → Option Nat
  adminVt : Option (Fin N)

namespace Seats

variable {N : Nat} (s : Seats N)

/-! ### Devices that come and go -/

/-- `vt_map_input`. -/
def vtMapInput (v : Fin N) : Seats N :=
  match s.beeper v with
  | some h => { s with beep := Function.update s.beep v (some h) }
  | none => s

/-- The loop of `kbd_connect` over the VTs: the first one without a keyboard. -/
def freeVt : Option (Fin N) := (List.finRange N).find? fun v => (s.keyboard v).isNone

/-- `vt->keyboard = handle; handle->private = vt`. -/
def setKeyboard (v : Fin N) (h : Nat) : Seats N :=
  { s with keyboard := Function.update s.keyboard v (some h)
           private_ := Function.update s.private_ h (some v) }

/-- `vt->beeper = handle` and `vt_map_input`. -/
def setBeeper (v : Fin N) (h : Nat) : Seats N :=
  { s with beeper := Function.update s.beeper v (some h) }.vtMapInput v

/-- What `kbd_connect` does with the handle it has allocated. -/
def bindInitially (h : Nat) (dev : InputDev) : Seats N :=
  if dev.hasKey then
    match s.freeVt with
    | some v =>
      let s := s.setKeyboard v h
      if dev.hasSnd then s.setBeeper v h else s
    | none => s
  else
    match s.adminVt with
    | some v =>
      if s.beeper v = none then
        { s with private_ := Function.update s.private_ h (some v) }.setBeeper v h
      else s
    | none => s

/-- `kbd_connect` of a device, and `input_link_handle`; `mem` is whether the
`kmalloc` succeeds. -/
def kbdConnect (dev : InputDev) (mem : Bool) : Seats N :=
  if !dev.hasKey ∧ !dev.hasSnd then s
  else if !mem then s
  else
    let h := s.next
    { s with handles := s.handles ++ [h]
             next := h + 1
             dev := Function.update s.dev h dev
             private_ := Function.update s.private_ h none }.bindInitially h dev

/-- `kbd_disconnect`, after the handle has been taken off the lists. -/
def kbdDisconnect (h : Nat) : Seats N :=
  let s := { s with handles := s.handles.erase h }
  match s.private_ h with
  | some v =>
    if s.keyboard v = some h then
      { s with keyboard := Function.update s.keyboard v none
               private_ := Function.update s.private_ h none }
    else s
  | none => s

/-! ### The `keyboard` file of a VT -/

/-- The string at `i` is `phys`, as `strcmp` compares them. -/
def strEq (mem : Int → UInt8) : Int → List UInt8 → Bool
  | i, [] => mem i = 0
  | i, c :: phys => mem i = c ∧ strEq mem (i + 1) phys

/-- What `input_find_handle` comes to; `strcmp` of a null `phys` faults. -/
inductive Found
  | handle (h : Nat)
  | nothing
  | fault

/-- `input_find_handle`. -/
def inputFindHandle (mem : Int → UInt8) (i : Int) (dev : Nat → InputDev) : List Nat → Found
  | [] => .nothing
  | h :: handles =>
    match (dev h).phys with
    | none => .fault
    | some phys => if strEq mem i phys then .handle h else inputFindHandle mem i dev handles

/-- `WRITE_BUF_MAX_LEN`. -/
def writeBufMaxLen : Nat := 256

/-- `phys_descr` after the copy of `count` bytes and the `'\0'` in the place of a
final newline or behind the last byte; `stack` is what was there before. -/
def physDescr (stack : Int → UInt8) (buffer : List UInt8) : Int → UInt8 :=
  let bytes := buffer.take writeBufMaxLen
  let mem := fun i : Int => if 0 ≤ i then bytes.getD i.toNat (stack i) else stack i
  if mem (bytes.length - 1) = 0x0a then Function.update mem (bytes.length - 1) 0
  else Function.update mem bytes.length 0

/-- What `write_kbd_phys` does with the handle it has found. -/
def rebind (v : Fin N) (addNext : Bool) (h : Nat) : Seats N :=
  let s :=
    match s.private_ h with
    | some w => { s with keyboard := Function.update s.keyboard w none }
    | none => s
  let s :=
    if addNext then s
    else
      let s :=
        match s.keyboard v with
        | some h' => { s with private_ := Function.update s.private_ h' none }
        | none => s
      { s with keyboard := Function.update s.keyboard v (some h) }
  { s with private_ := Function.update s.private_ h (some v) }

/-- `write_kbd_phys` on the file of the VT `v`; `buffer` is what the caller
writes, or nothing where `copy_from_user` fails. -/
def writeKbdPhys (v : Fin N) (stack : Int → UInt8) (buffer : Option (List UInt8)) : Seats N :=
  match buffer with
  | none => s
  | some buffer =>
    let mem := physDescr stack buffer
    let addNext : Bool := mem 0 = 0x2b
    match inputFindHandle mem (if addNext then 1 else 0) s.dev s.handles with
    | .handle h => s.rebind v addNext h
    | .nothing => s
    | .fault => s

end Seats

/-- What happens to the bindings. -/
inductive Op (N : Nat)
  | connect (dev : InputDev) (mem : Bool)
  | disconnect (h : Nat)
  | writeKbd (v : Fin N) (stack : Int → UInt8) (buffer : Option (List UInt8))

namespace Seats

variable {N : Nat}

/-- One operation; only a handle on the lists can be disconnected. -/
def step (s : Seats N) : Op N → Seats N
  | .connect dev mem => s.kbdConnect dev mem
  | .disconnect h => if h ∈ s.handles then s.kbdDisconnect h else s
  | .writeKbd v stack buffer => s.writeKbdPhys v stack buffer

/-- The state in which no device is there; the first VT is `admin_vt`. -/
def boot (N : Nat) : Seats N where
  handles := []
  dev _ := ⟨false, false, none⟩
  private_ _ := none
  next := 0
  keyboard _ := none
  beeper _ := none
  beep _ := none
  adminVt := (List.finRange N).head?

/-! ### The bindings hold -/

/-- **The bindings**: keyboards and beepers are connected, the main keyboard of a
VT knows the VT, and no handle is the main keyboard of two. -/
structure Bound (s : Seats N) : Prop where
  keyboard : ∀ v h, s.keyboard v = some h → h ∈ s.handles
  beeper : ∀ v h, s.beeper v = some h → h ∈ s.handles
  private_ : ∀ v h, s.keyboard v = some h → s.private_ h = some v
  once : ∀ v w h, s.keyboard v = some h → s.keyboard w = some h → v = w

/-- Handles are given out once. -/
structure Fresh (s : Seats N) : Prop where
  lt : ∀ h ∈ s.handles, h < s.next
  nodup : s.handles.Nodup

/-- What an operation needs: a handle that is disconnected is no VT's beeper. -/
def Unbinds (s : Seats N) : Op N → Prop
  | .disconnect h => h ∈ s.handles → ∀ v, s.beeper v ≠ some h
  | _ => True

variable {s : Seats N}

theorem Bound.mk' (hkeyboard : ∀ v h, s.keyboard v = some h → h ∈ s.handles ∧
    s.private_ h = some v) (hbeeper : ∀ v h, s.beeper v = some h → h ∈ s.handles) : s.Bound where
  keyboard v h hv := (hkeyboard v h hv).1
  beeper := hbeeper
  private_ v h hv := (hkeyboard v h hv).2
  once v w h hv hw := by
    have hboth := (hkeyboard v h hv).2.symm.trans (hkeyboard w h hw).2
    exact Option.some.inj hboth

/-! ### Connecting -/

theorem setBeeper_eq (v : Fin N) (h : Nat) :
    s.setBeeper v h =
      { s with beeper := Function.update s.beeper v (some h)
               beep := Function.update s.beep v (some h) } := by
  simp [setBeeper, vtMapInput]

theorem Bound.setBeeper (hb : s.Bound) {v : Fin N} {h : Nat} (hh : h ∈ s.handles) :
    (s.setBeeper v h).Bound := by
  rw [setBeeper_eq]
  refine .mk' (fun w h' hw => ⟨hb.keyboard w h' hw, hb.private_ w h' hw⟩) ?_
  intro w h' hw
  simp only [Function.update_apply] at hw
  split_ifs at hw
  · rw [← Option.some.inj hw]
    exact hh
  · exact hb.beeper w h' hw

theorem Bound.setKeyboard (hb : s.Bound) {v : Fin N} {h : Nat} (hh : h ∈ s.handles)
    (hfree : ∀ w, s.keyboard w ≠ some h) : (s.setKeyboard v h).Bound := by
  refine .mk' (fun w h' hw => ?_) hb.beeper
  simp only [Seats.setKeyboard, Function.update_apply] at hw ⊢
  split_ifs at hw with hwv
  · obtain rfl := Option.some.inj hw
    rw [if_pos rfl, hwv]
    exact ⟨hh, rfl⟩
  · have hne : h' ≠ h := by
      rintro rfl
      exact hfree w hw
    rw [if_neg hne]
    exact ⟨hb.keyboard w h' hw, hb.private_ w h' hw⟩

theorem Bound.bindInitially (hb : s.Bound) {h : Nat} (hh : h ∈ s.handles)
    (hfree : ∀ w, s.keyboard w ≠ some h) (dev : InputDev) : (s.bindInitially h dev).Bound := by
  unfold Seats.bindInitially
  by_cases hkey : dev.hasKey = true
  · rw [if_pos hkey]
    cases hv : s.freeVt with
    | none => exact hb
    | some v =>
      have hset : (s.setKeyboard v h).Bound := hb.setKeyboard hh hfree
      dsimp only
      split_ifs
      · exact hset.setBeeper hh
      · exact hset
  · rw [if_neg hkey]
    have hprivate : ∀ v,
        Bound { s with private_ := Function.update s.private_ h (some v) } := by
      refine fun v => .mk' (fun w h' hw => ?_) hb.beeper
      have hne : h' ≠ h := by
        rintro rfl
        exact hfree w hw
      dsimp only
      rw [Function.update_of_ne hne]
      exact ⟨hb.keyboard w h' hw, hb.private_ w h' hw⟩
    split
    · split_ifs
      · exact (hprivate _).setBeeper hh
      · exact hb
    · exact hb

theorem bindInitially_handles (h : Nat) (dev : InputDev) :
    (s.bindInitially h dev).handles = s.handles ∧ (s.bindInitially h dev).next = s.next := by
  unfold bindInitially
  by_cases hkey : dev.hasKey = true
  · rw [if_pos hkey]
    cases s.freeVt with
    | none => exact ⟨rfl, rfl⟩
    | some v =>
      dsimp only
      split_ifs
      · rw [setBeeper_eq]
        exact ⟨rfl, rfl⟩
      · exact ⟨rfl, rfl⟩
  · rw [if_neg hkey]
    cases s.adminVt with
    | none => exact ⟨rfl, rfl⟩
    | some v =>
      dsimp only
      split_ifs
      · rw [setBeeper_eq]
        exact ⟨rfl, rfl⟩
      · exact ⟨rfl, rfl⟩

/-- **A device that appears is bound as it should be.** -/
theorem Bound.kbdConnect (hb : s.Bound) (hf : s.Fresh) (dev : InputDev) (mem : Bool) :
    (s.kbdConnect dev mem).Bound ∧ (s.kbdConnect dev mem).Fresh := by
  unfold Seats.kbdConnect
  split_ifs
  · exact ⟨hb, hf⟩
  · exact ⟨hb, hf⟩
  · have hold : ∀ {h}, h ∈ s.handles → h ≠ s.next := fun hh => Nat.ne_of_lt (hf.lt _ hh)
    dsimp only
    refine ⟨Bound.bindInitially (.mk' ?_ ?_) (by simp) ?_ dev, ?_, ?_⟩
    · intro v h hv
      dsimp only
      rw [Function.update_of_ne (hold (hb.keyboard v h hv))]
      exact ⟨List.mem_append_left _ (hb.keyboard v h hv), hb.private_ v h hv⟩
    · intro v h hv
      exact List.mem_append_left _ (hb.beeper v h hv)
    · intro v hv
      exact hold (hb.keyboard v _ hv) rfl
    · intro h hh
      rw [(bindInitially_handles _ _).1] at hh
      rw [(bindInitially_handles _ _).2]
      rcases List.mem_append.mp hh with hh | hh
      · exact Nat.lt_succ_of_lt (hf.lt h hh)
      · rw [List.mem_singleton.mp hh]
        exact Nat.lt_succ_self _
    · rw [(bindInitially_handles _ _).1]
      dsimp only
      rw [List.nodup_append_comm, List.singleton_append, List.nodup_cons]
      exact ⟨fun hh => hold hh rfl, hf.nodup⟩

/-! ### Disconnecting -/

theorem kbdDisconnect_handles (h : Nat) :
    (s.kbdDisconnect h).handles = s.handles.erase h ∧ (s.kbdDisconnect h).next = s.next ∧
      (s.kbdDisconnect h).beeper = s.beeper := by
  unfold kbdDisconnect
  dsimp only
  split
  · split_ifs <;> exact ⟨rfl, rfl, rfl⟩
  · exact ⟨rfl, rfl, rfl⟩

theorem kbdDisconnect_keyboard (hb : s.Bound) (h : Nat) {w : Fin N} {h' : Nat}
    (hw : (s.kbdDisconnect h).keyboard w = some h') :
    s.keyboard w = some h' ∧ h' ≠ h ∧ (s.kbdDisconnect h).private_ h' = s.private_ h' := by
  have hmain : s.keyboard w = some h → s.private_ h = some w := hb.private_ w h
  unfold kbdDisconnect at hw ⊢
  dsimp only at hw ⊢
  cases hp : s.private_ h with
  | none =>
    rw [hp] at hw hmain
    refine ⟨hw, ?_, rfl⟩
    rintro rfl
    cases hmain hw
  | some v =>
    rw [hp] at hw hmain
    dsimp only at hw ⊢
    split_ifs at hw ⊢ with hv
    · simp only [Function.update_apply] at hw
      split_ifs at hw with hwv
      have hne : h' ≠ h := by
        rintro rfl
        exact hwv (Option.some.inj (hmain hw)).symm
      exact ⟨hw, hne, Function.update_of_ne hne ..⟩
    · refine ⟨hw, ?_, rfl⟩
      rintro rfl
      rw [Option.some.inj (hmain hw)] at hv
      exact hv hw

/-- **A device that goes is unbound as it should be, unless it was a beeper.** -/
theorem kbdDisconnect_bound_iff (hb : s.Bound) (hf : s.Fresh) (h : Nat) :
    (s.kbdDisconnect h).Bound ↔ ∀ v, s.beeper v ≠ some h := by
  obtain ⟨hhandles, -, hbeeper⟩ := s.kbdDisconnect_handles h
  have hgone : ∀ {h'}, h' ∈ s.handles.erase h ↔ h' ≠ h ∧ h' ∈ s.handles :=
    List.Nodup.mem_erase_iff hf.nodup
  constructor
  · intro hb' v hv
    have hmem := hb'.beeper v h (by rw [hbeeper]; exact hv)
    rw [hhandles] at hmem
    exact (hgone.mp hmem).1 rfl
  · intro hno
    refine .mk' (fun w h' hw => ?_) fun w h' hw => ?_
    · obtain ⟨hold, hne, hpriv⟩ := kbdDisconnect_keyboard hb h hw
      rw [hhandles, hpriv]
      exact ⟨hgone.mpr ⟨hne, hb.keyboard w h' hold⟩, hb.private_ w h' hold⟩
    · rw [hbeeper] at hw
      rw [hhandles]
      exact hgone.mpr ⟨fun e => hno w (e ▸ hw), hb.beeper w h' hw⟩

/-! ### Rebinding -/

theorem inputFindHandle_mem {mem : Int → UInt8} {i : Int} {dev : Nat → InputDev}
    {handles : List Nat} {h : Nat} (hfind : inputFindHandle mem i dev handles = .handle h) :
    h ∈ handles := by
  induction handles with
  | nil => cases hfind
  | cons h' handles ih =>
    unfold inputFindHandle at hfind
    split at hfind
    · cases hfind
    · split_ifs at hfind
      · obtain rfl := Found.handle.inj hfind
        exact List.mem_cons_self
      · exact List.mem_cons_of_mem _ (ih hfind)

theorem Bound.bind (hb : s.Bound) {v : Fin N} {h : Nat} (hh : h ∈ s.handles)
    (hno : ∀ w, s.keyboard w ≠ some h) {f : Nat → Option (Fin N)}
    (hf : ∀ w, w ≠ v → ∀ h', s.keyboard w = some h' → f h' = some w) :
    Bound { s with
      keyboard := Function.update s.keyboard v (some h)
      private_ := Function.update f h (some v) } := by
  refine .mk' (fun w h' hw => ?_) hb.beeper
  simp only [Function.update_apply] at hw ⊢
  split_ifs at hw with hwv
  · obtain rfl := Option.some.inj hw
    rw [if_pos rfl, hwv]
    exact ⟨hh, rfl⟩
  · have hne : h' ≠ h := by
      rintro rfl
      exact hno w hw
    rw [if_neg hne]
    exact ⟨hb.keyboard w h' hw, hf w hwv h' hw⟩

/-- **A handle that is bound to another VT leaves the one it was the keyboard
of.** -/
theorem Bound.rebind (hb : s.Bound) (v : Fin N) (addNext : Bool) {h : Nat}
    (hh : h ∈ s.handles) : (s.rebind v addNext h).Bound := by
  -- After the first step the handle is no VT's keyboard.
  have hfirst : ∀ s' : Seats N,
      s' = (match s.private_ h with
        | some w => { s with keyboard := Function.update s.keyboard w none }
        | none => s) →
      s'.Bound ∧ (∀ w, s'.keyboard w ≠ some h) ∧ s'.handles = s.handles := by
    rintro s' rfl
    cases hp : s.private_ h with
    | none =>
      refine ⟨hb, fun w hw => ?_, rfl⟩
      have hpriv := hb.private_ w h hw
      rw [hp] at hpriv
      cases hpriv
    | some u =>
      refine ⟨.mk' (fun w h' hw => ?_) hb.beeper, fun w hw => ?_, rfl⟩
      · simp only [Function.update_apply] at hw
        split_ifs at hw
        exact ⟨hb.keyboard w h' hw, hb.private_ w h' hw⟩
      · simp only [Function.update_apply] at hw
        split_ifs at hw with hwu
        have hpriv := hb.private_ w h hw
        rw [hp] at hpriv
        exact hwu (Option.some.inj hpriv).symm
  unfold Seats.rebind
  dsimp only
  obtain ⟨hb', hno, hhandles⟩ := hfirst _ rfl
  generalize (match s.private_ h with
    | some w => { s with keyboard := Function.update s.keyboard w none }
    | none => s) = s' at hb' hno hhandles ⊢
  have hh' : h ∈ s'.handles := hhandles ▸ hh
  cases addNext with
  | true =>
    rw [if_pos rfl]
    refine .mk' (fun w h' hw => ?_) hb'.beeper
    have hne : h' ≠ h := by
      rintro rfl
      exact hno w hw
    dsimp only
    rw [Function.update_of_ne hne]
    exact ⟨hb'.keyboard w h' hw, hb'.private_ w h' hw⟩
  | false =>
    rw [if_neg (by decide)]
    -- The keyboard that the VT had is bound to none.
    cases hv : s'.keyboard v with
    | none => exact hb'.bind hh' hno fun w _ h' hw => hb'.private_ w h' hw
    | some old =>
      refine hb'.bind (f := Function.update s'.private_ old none) hh' hno fun w hwv h' hw => ?_
      have hne : h' ≠ old := by
        rintro rfl
        exact hwv (hb'.once w v h' hw hv)
      rw [Function.update_of_ne hne]
      exact hb'.private_ w h' hw

theorem rebind_handles (v : Fin N) (addNext : Bool) (h : Nat) :
    (s.rebind v addNext h).handles = s.handles ∧ (s.rebind v addNext h).next = s.next := by
  unfold rebind
  cases addNext <;> cases s.private_ h <;> dsimp only <;> repeat' split
  all_goals exact ⟨rfl, rfl⟩

/-! ### Steps and runs -/

theorem step_fresh (hb : s.Bound) (hf : s.Fresh) (op : Op N) : (s.step op).Fresh := by
  cases op with
  | connect dev mem => exact (hb.kbdConnect hf dev mem).2
  | disconnect h =>
    unfold step
    dsimp only
    split_ifs
    · obtain ⟨hhandles, hnext, -⟩ := s.kbdDisconnect_handles h
      refine ⟨fun h' hh' => ?_, ?_⟩
      · rw [hhandles] at hh'
        rw [hnext]
        exact hf.lt h' (List.mem_of_mem_erase hh')
      · rw [hhandles]
        exact hf.nodup.erase h
    · exact hf
  | writeKbd v stack buffer =>
    unfold step writeKbdPhys
    cases buffer with
    | none => exact hf
    | some buffer =>
      dsimp only
      split
      · obtain ⟨hhandles, hnext⟩ := s.rebind_handles v _ _
        exact ⟨fun h' hh' => by rw [hhandles] at hh'; rw [hnext]; exact hf.lt h' hh',
          by rw [hhandles]; exact hf.nodup⟩
      · exact hf
      · exact hf

/-- **One operation.** -/
theorem step_bound_iff (hb : s.Bound) (hf : s.Fresh) (op : Op N) :
    (s.step op).Bound ↔ s.Unbinds op := by
  cases op with
  | connect dev mem => exact iff_of_true (hb.kbdConnect hf dev mem).1 trivial
  | disconnect h =>
    unfold step Unbinds
    by_cases hh : h ∈ s.handles
    · simp only [hh, if_true, forall_true_left]
      exact kbdDisconnect_bound_iff hb hf h
    · simp only [hh, if_false, false_implies, iff_true]
      exact hb
  | writeKbd v stack buffer =>
    refine iff_of_true ?_ trivial
    unfold step writeKbdPhys
    cases buffer with
    | none => exact hb
    | some buffer =>
      dsimp only
      split
      · rename_i h hfind
        exact hb.rebind v _ (inputFindHandle_mem hfind)
      · exact hb
      · exact hb

end Seats

/-- **The bindings hold along a run if and only if no handle is disconnected
while it is a VT's beeper.** -/
theorem binding_iff {N : Nat} (s : Seats N) (hb : s.Bound) (hf : s.Fresh) (ops : List (Op N)) :
    Lib.Along Seats.step (fun s op => (s.step op).Bound) s ops ↔
      Lib.Along Seats.step Seats.Unbinds s ops :=
  Lib.along_congr (I := fun s : Seats N => s.Bound ∧ s.Fresh)
    (fun _ op hs hop => ⟨hop, Seats.step_fresh hs.1 hs.2 op⟩)
    (fun _ op hs => Seats.step_bound_iff hs.1 hs.2 op) ⟨hb, hf⟩

theorem boot_bound (N : Nat) : (Seats.boot N).Bound ∧ (Seats.boot N).Fresh :=
  ⟨⟨fun _ _ h => (by cases h), fun _ _ h => (by cases h), fun _ _ h => (by cases h),
    fun _ _ _ h => (by cases h)⟩, ⟨fun _ h => (by cases h), List.nodup_nil⟩⟩

/-- Two VTs get a keyboard each, and the second takes that of the first. -/
theorem binding_iff_twoSeats :
    let ops : List (Op 2) :=
      [.connect ⟨true, false, some [0x61]⟩ true, .connect ⟨true, false, some [0x62]⟩ true,
        .writeKbd 1 (fun _ => 0) (some [0x61, 0x0a]), .disconnect 1, .disconnect 0]
    Lib.Along Seats.step (fun s op => (s.step op).Bound) (Seats.boot 2) ops ↔
      Lib.Along Seats.step Seats.Unbinds (Seats.boot 2) ops :=
  binding_iff (Seats.boot 2) (boot_bound 2).1 (boot_bound 2).2
    [.connect ⟨true, false, some [0x61]⟩ true, .connect ⟨true, false, some [0x62]⟩ true,
      .writeKbd 1 (fun _ => 0) (some [0x61, 0x0a]), .disconnect 1, .disconnect 0]

/-- **A keyboard with a built-in speaker is unplugged** and stays the beeper of
its VT. -/
theorem beeper_dangles :
    let s := Lib.run Seats.step (Seats.boot 1)
      [.connect ⟨true, true, some [0x61]⟩ true, .disconnect 0]
    s.beeper 0 = some 0 ∧ s.handles = [] ∧ ¬ s.Bound := by
  have hrun :
      let s := Lib.run Seats.step (Seats.boot 1)
        [.connect ⟨true, true, some [0x61]⟩ true, .disconnect 0];
      s.beeper 0 = some 0 ∧ s.handles = [] := by
    decide +kernel
  obtain ⟨hbeeper, hhandles⟩ := hrun
  refine ⟨hbeeper, hhandles, fun hb => ?_⟩
  have hmem := hb.beeper 0 0 hbeeper
  rw [hhandles] at hmem
  cases hmem

end LinuxConsole.Input
