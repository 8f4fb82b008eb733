import LinuxConsole.Vc.Handed
import LinuxConsole.Vc.TabStops

/-!
# What a mode report says

DECRQM asks for the value of a mode.  `told` follows a history of writes and keeps what the
emulator has last been told about each mode since power-up or RIS, and `report_iff` compares the
reply with it.

DECCKM and LNM are set in the flags of the keyboard and reported from fields of the console that
nothing sets, and RIS resets the keypad in the flags of the keyboard alone.  So the reply is
**the value last set exactly** for every other mode, for a DECCKM or LNM that was last reset, and
for a keypad mode that agrees with what it was last told before any RIS.
-/

namespace LinuxConsole

variable {d : Driver} {s : Con}

/-! ### Modes by number -/

/-- The number of the mode in SM, RM and DECRQM. -/
def ModeName.number : ModeName → Nat
  | .decckm => 1
  | .decscnm => 5
  | .decom => 6
  | .decawm => 7
  | .decarm => 8
  | .dectcem => 25
  | .decnkm => 66
  | .irm => 4
  | .lnm => 20

/-- Whether it is a DEC private mode. -/
def ModeName.isPrivate : ModeName → Bool
  | .irm | .lnm => false
  | _ => true

/-- The DEC private mode of a number. -/
def privMode : Nat → Option ModeName
  | 1 => some .decckm
  | 5 => some .decscnm
  | 6 => some .decom
  | 7 => some .decawm
  | 8 => some .decarm
  | 25 => some .dectcem
  | 66 => some .decnkm
  | _ => none

/-- The ANSI mode of a number. -/
def ansiMode : Nat → Option ModeName
  | 4 => some .irm
  | 20 => some .lnm
  | _ => none

/-! ### What the emulator has been told -/

/-- A value for each mode. -/
abbrev Told := ModeName → Bool

/-- The modes at power-up and after RIS. -/
def initialModes : Told
  | .decawm | .decarm | .dectcem => true
  | _ => false

/-- A mode is set or reset. -/
def tell (on : Bool) (t : Told) : Option ModeName → Told
  | some m => Function.update t m on
  | none => t

/-- The modes of all parameters are set or reset. -/
def tellPars (ps : Parser) (on : Bool) (t : Told) : Told :=
  (List.range (ps.npar + 1)).foldl
    (fun t i => tell on t (if ps.priv4 then privMode (ps.par i) else ansiMode (ps.par i))) t

/-- A character handed to the emulator: SM, RM, ESC =, ESC > and RIS, which `reset` stands for.
The soft reset is a RIS here. -/
def tellChar (reset : Told → Told) (ps : Parser) (c : Nat) (t : Told) : Told :=
  match ps.state with
  | .esc =>
    if c = 0x3d then Function.update t .decnkm true
    else if c = 0x3e then Function.update t .decnkm false
    else if c = 0x63 then reset t
    else t
  | .csiExclam => if c = 0x70 then reset t else t
  | .csiGetpars | .csiGotpars =>
    if c = 0x68 then tellPars ps true t
    else if c = 0x6c then tellPars ps false t
    else t
  | _ => t

/-- A byte of a write. -/
def tellByte (d : Driver) (reset : Told → Told) (himask : Cell) (w : (Con × Batch) × Told) (c : Nat) :
    (Con × Batch) × Told :=
  (writeByte d himask w.1 c,
    match handed w.1.1 c with
    | some ch => tellChar reset w.1.1.ps ch w.2
    | none => w.2)

/-- A write. -/
def tellWrite (d : Driver) (reset : Told → Told) (p : Con × Told) (buf : List Nat) : Con × Told :=
  let w := buf.foldl (tellByte d reset (undrawCursor p.1).rend.hiFontMask)
    ((undrawCursor p.1, ⟨none, 0, 0⟩), p.2)
  ((flush w.1.1 w.1.2).1, w.2)

/-- **What the console has been told** by a history of writes since power-up. -/
def told (d : Driver) (reset : Told → Told) (s : Con) (history : List (List Nat)) : Told :=
  (history.foldl (tellWrite d reset) (s, initialModes)).2

/-- RIS sets every mode to its initial value. -/
def resetAll (_ : Told) : Told := initialModes

/-- RIS as the emulator performs it on the modes it reports: the keypad mode is left. -/
def resetButKeypad (t : Told) : Told := Function.update initialModes .decnkm (t .decnkm)

/-! ### The flags follow -/

/-- The modes that the emulator does not keep where it reports them from. -/
def ModeName.elsewhere (m : ModeName) : Prop := m = .decckm ∨ m = .lnm

instance (m : ModeName) : Decidable m.elsewhere := inferInstanceAs (Decidable (_ ∨ _))

/-- The flags of the console agree with what it has been told. -/
structure Follows (s : Con) (t : Told) : Prop where
  kept : ∀ m, ¬m.elsewhere → s.modes.flag m = t m
  elsewhere : ∀ m, m.elsewhere → s.modes.flag m = false

theorem Follows.of_flag {s' : Con} {t : Told} (h : Follows s t)
    (hf : s'.modes.flag = s.modes.flag) : Follows s' t :=
  ⟨fun m hm => by rw [hf]; exact h.kept m hm, fun m hm => by rw [hf]; exact h.elsewhere m hm⟩

/-- The flags after a mode has been set or reset. -/
theorem Follows.tell {s' : Con} {t : Told} (h : Follows s t) {on : Bool} {o : Option ModeName}
    (hf : ∀ m, s'.modes.flag m =
      if m.elsewhere then s.modes.flag m else LinuxConsole.tell on s.modes.flag o m) :
    Follows s' (LinuxConsole.tell on t o) where
  kept m hm := by
    rw [hf, if_neg hm]
    cases o with
    | none => exact h.kept m hm
    | some k =>
      by_cases hk : m = k
      · rw [hk, LinuxConsole.tell, LinuxConsole.tell, Function.update_self, Function.update_self]
      · rw [LinuxConsole.tell, LinuxConsole.tell, Function.update_of_ne hk,
          Function.update_of_ne hk]
        exact h.kept m hm
  elsewhere m hm := by
    rw [hf, if_pos hm]
    exact h.elsewhere m hm

/-- The screen is inverted when the mode changes. -/
theorem setPrivMode_decscnm (on : Bool) (s : Con) :
    (setPrivMode d on s 5).modes.flag = Function.update s.modes.flag .decscnm on := by
  have hset (m : Modes) : { m with decscnm := on }.flag = Function.update m.flag .decscnm on :=
    funext fun k => by cases k <;> rfl
  by_cases h : s.modes.decscnm = on
  · have hsame : setPrivMode d on s 5 = s := if_neg (not_not.mpr h)
    rw [hsame, ← hset, ← h]
  · have hchanged : setPrivMode d on s 5 = updateAttr d (invertScreen d
        { s with modes.decscnm := on } 0 s.geo.screenbufSize) := if_pos h
    rw [hchanged, ((frame_invertScreen _ 0 _).trans (frame_updateAttr _)).flags, ← hset]

theorem setPrivMode_flag (on : Bool) (s : Con) (p : Nat) (m : ModeName) :
    (setPrivMode d on s p).modes.flag m =
      if m.elsewhere then s.modes.flag m else tell on s.modes.flag (privMode p) m := by
  by_cases h5 : p = 5
  · subst h5
    rw [setPrivMode_decscnm]
    cases m <;> rfl
  rw [setPrivMode.eq_def]
  split
  case h_2 => contradiction
  case h_10 =>
    have hnone : privMode p = none := by
      rw [privMode.eq_def]
      split
      case h_8 => rfl
      all_goals contradiction
    simp only [hnone, tell, ite_self]
  all_goals cases m <;> rfl

theorem setAnsiMode_flag (on : Bool) (s : Con) (p : Nat) (m : ModeName) :
    (setAnsiMode on s p).modes.flag m =
      if m.elsewhere then s.modes.flag m else tell on s.modes.flag (ansiMode p) m := by
  rw [setAnsiMode.eq_def]
  split
  case h_4 =>
    have hnone : ansiMode p = none := by
      rw [ansiMode.eq_def]
      split
      case h_3 => rfl
      all_goals contradiction
    simp only [hnone, tell, ite_self]
  all_goals cases m <;> rfl

theorem setPrivMode_ps (on : Bool) (s : Con) (p : Nat) : (setPrivMode d on s p).ps = s.ps := by
  rw [setPrivMode.eq_def]
  split
  case h_2 =>
    split
    · exact invertScreen_ps _ _ _
    · rfl
  all_goals rfl

theorem setAnsiMode_ps (on : Bool) (s : Con) (p : Nat) : (setAnsiMode on s p).ps = s.ps := by
  rw [setAnsiMode.eq_def]
  split
  all_goals rfl

/-- **SM and RM** keep the flags in step. -/
theorem follows_setMode {t : Told} (h : Follows s t) (on : Bool) :
    Follows (setMode d s on) (tellPars s.ps on t) := by
  have hloop (is : List Nat) : ∀ (s' : Con) (t : Told), Follows s' t → s'.ps = s.ps → Follows
      (is.foldl (fun s' i => (if s.ps.priv4 then setPrivMode d on else setAnsiMode on)
        (s'.check (i < NPAR) (.vcPar i)) (s'.ps.par i)) s')
      (is.foldl (fun t i => tell on t
        (if s.ps.priv4 then privMode (s.ps.par i) else ansiMode (s.ps.par i))) t) := by
    induction is with
    | nil => exact fun s' t h _ => h
    | cons i is ih =>
      intro s' t h hps
      rw [List.foldl_cons, List.foldl_cons, hps]
      refine ih _ _ (h.tell fun m => ?_) ?_
      · split
        · exact setPrivMode_flag on _ _ m
        · exact setAnsiMode_flag on _ _ m
      · split
        · exact (setPrivMode_ps on _ _).trans hps
        · exact (setAnsiMode_ps on _ _).trans hps
  exact hloop _ s t h rfl

/-- RIS leaves the keypad mode and sets every other. -/
theorem vteRis_flag (s : Con) (doClear : Bool) : (vteRis d s doClear).modes.flag =
    Function.update initialModes .decnkm (s.modes.flag .decnkm) := by
  have herase (s : Con) : (vteEd s 2).modes = s.modes := by
    simp only [vteEd, clearRegion]
    split
    · rfl
    · rfl
  rw [vteRis]
  split
  · rw [herase]
    exact funext fun m => by cases m <;> rfl
  · exact funext fun m => by cases m <;> rfl

theorem follows_vteRis {t : Told} (h : Follows s t) (doClear : Bool) :
    Follows (vteRis d s doClear) (resetButKeypad t) := by
  refine ⟨fun m _ => ?_, fun m hm => ?_⟩
  · rw [vteRis_flag, resetButKeypad, h.kept .decnkm (by decide)]
  · rw [vteRis_flag]
    rcases hm with rfl | rfl
    · rfl
    · rfl

theorem tellChar_quiet (reset : Told → Told) {c : Nat} (hc : s.setsModes c = false) (t : Told) :
    tellChar reset s.ps c t = t := by
  rw [Con.setsModes.eq_def] at hc
  rw [tellChar.eq_def]
  cases hs : s.ps.state with
  | esc =>
    simp only [hs, Bool.or_eq_false_iff, beq_eq_false_iff_ne] at hc
    simp only [if_neg hc.1.1, if_neg hc.1.2, if_neg hc.2]
  | csiExclam =>
    simp only [hs, beq_eq_false_iff_ne] at hc
    simp only [if_neg hc]
  | csiGetpars | csiGotpars =>
    simp only [hs, Bool.or_eq_false_iff, beq_eq_false_iff_ne] at hc
    simp only [if_neg hc.1, if_neg hc.2]
  | _ => rfl

theorem follows_keypad {t : Told} (h : Follows s t) (on : Bool) :
    Follows (setKbdMode { s with modes.decnkm := on } vcApplic on)
      (Function.update t .decnkm on) :=
  h.tell (o := some .decnkm) fun m => by cases m <;> rfl

/-- **A character handed to the emulator** keeps the flags in step. -/
theorem follows_terminalEmulation {t : Told} (h : Follows s t) (c : Nat) :
    Follows (terminalEmulation d s c) (tellChar resetButKeypad s.ps c t) := by
  cases hc : s.setsModes c with
  | false =>
    rw [tellChar_quiet _ hc]
    exact h.of_flag (terminalEmulation_flag hc)
  | true =>
    have hinit : Follows (s.setState .init) t := h.of_flag rfl
    rw [Con.setsModes.eq_def] at hc
    split at hc
    case h_1 hs =>
      simp only [Bool.or_eq_true, beq_iff_eq] at hc
      rcases hc with (rfl | rfl) | rfl
      · rw [terminalEmulation_graphic (by decide) (by decide), emulateState, tellChar, hs]
        exact follows_keypad hinit true
      · rw [terminalEmulation_graphic (by decide) (by decide), emulateState, tellChar, hs]
        exact follows_keypad hinit false
      · rw [terminalEmulation_graphic (by decide) (by decide), emulateState, tellChar, hs]
        exact follows_vteRis hinit true
    case h_2 hs =>
      obtain rfl := beq_iff_eq.mp hc
      rw [terminalEmulation_graphic (by decide) (by decide), emulateState, tellChar, hs]
      exact follows_vteRis hinit true
    case h_3 hs =>
      simp only [Bool.or_eq_true, beq_iff_eq] at hc
      rcases hc with rfl | rfl
      · rw [terminalEmulation_graphic (by decide) (by decide), emulateState, tellChar, hs]
        exact follows_setMode hinit true
      · rw [terminalEmulation_graphic (by decide) (by decide), emulateState, tellChar, hs]
        exact follows_setMode hinit false
    case h_4 hs =>
      simp only [Bool.or_eq_true, beq_iff_eq] at hc
      rcases hc with rfl | rfl
      · rw [terminalEmulation_graphic (by decide) (by decide), emulateState, tellChar, hs]
        exact follows_setMode hinit true
      · rw [terminalEmulation_graphic (by decide) (by decide), emulateState, tellChar, hs]
        exact follows_setMode hinit false
    case h_5 => contradiction

/-- **A byte of a write** keeps the flags in step. -/
theorem follows_tellByte (himask : Cell) {w : (Con × Batch) × Told} (hb : w.1.2.Fits w.1.1)
    (h : Follows w.1.1 w.2) (c : Nat) :
    Follows (tellByte d resetButKeypad himask w c).1.1 (tellByte d resetButKeypad himask w c).2 := by
  cases hc : handed w.1.1 c with
  | none =>
    simp only [tellByte, hc]
    exact h.of_flag (frame_writeByte himask hb hc).1.flags
  | some ch =>
    have htr := frame_translateByte w.1.1 c
    have hstart := h.of_flag (htr.trans (frame_flush (hb.of_visible htr.visible))).flags
    have hps := (flush_ps (translateByte w.1.1 c).1 w.1.2).trans (translateByte_ps w.1.1 c)
    simp only [tellByte, hc, writeByte_handed himask hc]
    rw [← hps]
    exact follows_terminalEmulation hstart ch

theorem follows_tellBytes (himask : Cell) (buf : List Nat) : ∀ {w : (Con × Batch) × Told},
    w.1.2.Fits w.1.1 → Follows w.1.1 w.2 →
      Follows (buf.foldl (tellByte d resetButKeypad himask) w).1.1
        (buf.foldl (tellByte d resetButKeypad himask) w).2 := by
  induction buf with
  | nil => exact fun _ h => h
  | cons c buf ih =>
    intro w hb h
    obtain ⟨hs, hb'⟩ := steady_writeByte (d := d) himask hb c
    exact ih (hb'.of_visible hs.visible) (follows_tellByte himask hb h c)

/-! ### The console of the run is the console -/

theorem tellBytes_fst (reset : Told → Told) (himask : Cell) (buf : List Nat) :
    ∀ w : (Con × Batch) × Told,
      (buf.foldl (tellByte d reset himask) w).1 = writeLoop d himask w.1 buf := by
  induction buf with
  | nil => exact fun _ => rfl
  | cons c buf ih => exact fun w => ih _

theorem tellWrite_fst (reset : Told → Told) (p : Con × Told) (buf : List Nat) :
    (tellWrite d reset p buf).1 = doConWrite d p.1 buf := by
  simp only [tellWrite, tellBytes_fst]
  rfl

theorem tellWrites_fst (reset : Told → Told) (history : List (List Nat)) : ∀ p : Con × Told,
    (history.foldl (tellWrite d reset) p).1 = writes d p.1 history := by
  induction history with
  | nil => exact fun _ => rfl
  | cons buf history ih =>
    intro p
    rw [List.foldl_cons, ih, tellWrite_fst]
    rfl

/-- **A write** keeps the flags in step. -/
theorem follows_tellWrite {p : Con × Told} (h : Follows p.1 p.2) (buf : List Nat) :
    Follows (tellWrite d resetButKeypad p buf).1 (tellWrite d resetButKeypad p buf).2 := by
  have hu := keeps_undrawCursor p.1
  have hloop := follows_tellBytes (d := d) (undrawCursor p.1).rend.hiFontMask buf
    (w := ((undrawCursor p.1, ⟨none, 0, 0⟩), p.2)) (fits_none _) (h.of_flag hu.flags)
  have hfst := tellBytes_fst (d := d) resetButKeypad (undrawCursor p.1).rend.hiFontMask buf
    ((undrawCursor p.1, ⟨none, 0, 0⟩), p.2)
  refine hloop.of_flag (frame_flush ?_).flags
  rw [hfst]
  exact (steady_writeCells p.1 buf).2

theorem follows_told (history : List (List Nat)) : ∀ {p : Con × Told}, Follows p.1 p.2 →
    Follows (history.foldl (tellWrite d resetButKeypad) p).1
      (history.foldl (tellWrite d resetButKeypad) p).2 := by
  induction history with
  | nil => exact id
  | cons buf history ih => exact fun h => ih (follows_tellWrite h buf)

/-! ### The request and its reply -/

/-- DECRQM: `CSI ? n $ p`, or `CSI n $ p` for an ANSI mode. -/
def request (m : ModeName) : List Nat :=
  [0x1b, 0x5b] ++ (if m.isPrivate then [0x3f] else []) ++ decimal m.number ++ [0x24, 0x70]

/-- DECRPM with the value `b` for the mode, `csi` being the introducer in use. -/
def report (csi : List Nat) (m : ModeName) (b : Bool) : List Nat :=
  csi ++ (if m.isPrivate then chars "?" else [])
    ++ (decimal m.number ++ chars ";" ++ decimal (if b then 1 else 2) ++ chars "$y")

theorem report_inj {csi : List Nat} {m : ModeName} {a b : Bool} :
    report csi m a = report csi m b ↔ a = b := by
  refine ⟨fun h => ?_, fun h => by rw [h]⟩
  simp only [report, List.append_assoc, List.append_cancel_left_eq] at h
  revert h
  cases a <;> cases b <;> decide

/-- `s'` is `s` in the middle of a request that has read the number `v`. -/
structure Asked (s : Con) (priv : Bool) (v : Nat) (s' : Con) : Prop where
  state : s'.ps.state = .csiGetpars
  npar : s'.ps.npar = 0
  par : s'.ps.par 0 = v
  priv1 : s'.ps.priv1 = false
  priv2 : s'.ps.priv2 = false
  priv3 : s'.ps.priv3 = false
  priv4 : s'.ps.priv4 = priv
  modes : s'.modes = s.modes
  queue : s'.queue = s.queue

variable {s' : Con} {priv : Bool} {v : Nat}

theorem writeByte_sequence (himask : Cell) {w : Con × Batch} {c : Nat}
    (hs : w.1.ps.state ≠ .init) (h : 0x20 ≤ c) (h' : c < 0x7f) :
    ∃ u ds, (writeByte d himask w c).1 = emulateState d { w.1 with dec := u, draws := ds } c := by
  obtain ⟨u, ds, he⟩ := writeByte_control (d := d) himask hs (by omega : c ≤ 0x7f)
  exact ⟨u, ds, by rw [he, terminalEmulation_graphic h h']⟩

theorem Asked.digit (h : Asked s priv v s') {k : Nat} (hk : k ≤ 9) :
    Asked s priv (u32 (u32 (v * 10) + k)) (csiGetpars d s' (0x30 + k)) := by
  have hsub : ((0x30 + k : Nat) : Int) - 0x30 = k := by omega
  have heq : csiGetpars d s' (0x30 + k) = s'.setPar 0 (u32 (u32 (v * 10) + k)) := by
    rw [csiGetpars, if_neg (by omega), if_pos (by omega), h.npar, h.par, hsub]
  rw [heq]
  refine { h with par := ?_ }
  simp only [Con.setPar, Function.update_self]

theorem Asked.dollar (h : Asked s priv v s') : csiGetpars d s' 0x24 = s'.setState .csiDollar := by
  have hpriv : csiPrivate d (s'.setState .init) 0x24 =
      if s'.ps.priv4 then some (s'.setState .csiDollar) else none := rfl
  have hget : csiGetpars d s' 0x24 = csiGotpars d (s'.setState .csiGotpars) 0x24 := rfl
  have hstate : (s'.setState .csiGotpars).setState .init = s'.setState .init := rfl
  rw [hget, csiGotpars, hstate]
  simp only [hpriv, h.priv4]
  cases priv with
  | true => rfl
  | false =>
    simp only [Con.setState, h.priv1, h.priv2, h.priv3, h.priv4]
    rfl

theorem vteDecrpm_queue (s : Con) (priv : Bool) (n : Nat) (b : Bool) :
    (vteDecrpm s priv n b.toNat).queue = s.queue ++ (vteCsi s ++
      (if priv then chars "?" else []) ++
        (decimal (s32 n) ++ chars ";" ++ decimal (if b then 1 else 2) ++ chars "$y")) := by
  cases priv <;> cases b <;> simp [vteDecrpm, Con.putsQueue]

/-- **The reply to a complete request** is the flag of the mode. -/
theorem vteDecrqm_queue {m : ModeName} (hpar : s.ps.par 0 = m.number) :
    (vteDecrqm s m.isPrivate).queue = s.queue ++ report (vteCsi s) m (s.modes.flag m) := by
  have hstatus : (if m.isPrivate then privModeStatus s.modes m.number
      else ansiModeStatus s.modes m.number) = (s.modes.flag m).toNat := by
    cases m <;> rfl
  have hnumber : s32 m.number = m.number := by
    cases m <;> decide
  rw [vteDecrqm, hpar, hstatus, vteDecrpm_queue, hnumber, report]

/-- The digits of the number of the mode. -/
def ModeName.digits : ModeName → List Nat
  | .decckm => [1]
  | .decscnm => [5]
  | .decom => [6]
  | .decawm => [7]
  | .decarm => [8]
  | .dectcem => [2, 5]
  | .decnkm => [6, 6]
  | .irm => [4]
  | .lnm => [2, 0]

theorem digits_le (m : ModeName) : ∀ k ∈ m.digits, k ≤ 9 := by
  cases m <;> decide

theorem decimal_number (m : ModeName) : decimal m.number = m.digits.map (0x30 + ·) := by
  cases m <;> decide

/-- The number that is read. -/
def readDigits (v : Nat) (ks : List Nat) : Nat := ks.foldl (fun v k => u32 (u32 (v * 10) + k)) v

theorem readDigits_number (m : ModeName) : readDigits 0 m.digits = m.number := by
  cases m <;> decide

theorem Asked.of_eq (h : Asked s priv v s') {u : Utf} {ds : List Draw} :
    Asked s priv v { s' with dec := u, draws := ds } := { h with }

theorem asked_digits (himask : Cell) (ks : List Nat) : ∀ {w : Con × Batch} {v : Nat},
    Asked s priv v w.1 → (∀ k ∈ ks, k ≤ 9) →
      Asked s priv (readDigits v ks) (writeLoop d himask w (ks.map (0x30 + ·))).1 := by
  induction ks with
  | nil => exact fun h _ => h
  | cons k ks ih =>
    intro w v h hks
    have hk := hks k List.mem_cons_self
    obtain ⟨u, ds, he⟩ := writeByte_sequence (d := d) himask (w := w) (c := 0x30 + k)
      (by rw [h.state]; decide) (by omega) (by omega)
    refine ih ?_ fun j hj => hks j (List.mem_cons_of_mem k hj)
    rw [he, emulateState, h.state]
    exact h.of_eq.digit hk

theorem asked_first {k : Nat} (hk : k ≤ 9) (hm : s'.modes = s.modes) (hq : s'.queue = s.queue) :
    Asked s false (readDigits 0 [k]) (csiState d s' (0x30 + k)) := by
  have hne (m : Nat) (hlt : 0x39 < m) : (0x30 + k == m) = false :=
    beq_eq_false_iff_ne.mpr (by omega)
  have hcsi : csiState d s' (0x30 + k) = csiGetpars d (afterCsi s' (0x30 + k)) (0x30 + k) := by
    rw [csiState, if_neg (by omega)]
    simp only [hne 0x3c (by decide), hne 0x3d (by decide), hne 0x3e (by decide),
      hne 0x3f (by decide), afterCsi]
    rfl
  have hstart : Asked s false 0 (afterCsi s' (0x30 + k)) :=
    ⟨rfl, rfl, rfl, hne 0x3c (by decide), hne 0x3d (by decide), hne 0x3e (by decide),
      hne 0x3f (by decide), hm, hq⟩
  rw [hcsi]
  exact hstart.digit hk

theorem asked_number (himask : Cell) (m : ModeName) {w : Con × Batch}
    (hs : w.1.ps.state = .csi) (hm : w.1.modes = s.modes) (hq : w.1.queue = s.queue) :
    Asked s m.isPrivate m.number (writeLoop d himask w
      ((if m.isPrivate then [0x3f] else []) ++ m.digits.map (0x30 + ·))).1 := by
  have hdigits := digits_le m
  rw [← readDigits_number m]
  cases hp : m.isPrivate with
  | true =>
    obtain ⟨u, ds, he⟩ := writeByte_sequence (d := d) himask (w := w) (c := 0x3f)
      (by rw [hs]; decide) (by decide) (by decide)
    refine asked_digits himask m.digits (w := writeByte d himask w 0x3f) ?_ hdigits
    rw [he, emulateState, hs]
    exact ⟨rfl, rfl, rfl, rfl, rfl, rfl, rfl, hm, hq⟩
  | false =>
    obtain ⟨k, ks, hks⟩ : ∃ k ks, m.digits = k :: ks := by
      cases m <;> exact ⟨_, _, rfl⟩
    rw [hks] at hdigits ⊢
    have hk := hdigits k List.mem_cons_self
    obtain ⟨u, ds, he⟩ := writeByte_sequence (d := d) himask (w := w) (c := 0x30 + k)
      (by rw [hs]; decide) (by omega) (by omega)
    refine asked_digits himask ks (w := writeByte d himask w (0x30 + k))
      (v := readDigits 0 [k]) ?_ fun j hj => hdigits j (List.mem_cons_of_mem k hj)
    rw [he, emulateState, hs]
    exact asked_first hk hm hq

theorem write_dollar (himask : Cell) {w : Con × Batch} (h : Asked s priv v w.1) :
    ∃ u ds, (writeByte d himask w 0x24).1 =
      Con.setState { w.1 with dec := u, draws := ds } .csiDollar := by
  obtain ⟨u, ds, he⟩ := writeByte_sequence (d := d) himask (w := w) (c := 0x24)
    (by rw [h.state]; decide) (by decide) (by decide)
  refine ⟨u, ds, ?_⟩
  rw [he, emulateState, h.state]
  exact h.of_eq.dollar

theorem write_reply (himask : Cell) {m : ModeName} {w : Con × Batch}
    (hs : w.1.ps.state = .csiDollar) (hpar : w.1.ps.par 0 = m.number)
    (hpriv : w.1.ps.priv4 = m.isPrivate) : (writeByte d himask w 0x70).1.queue =
      w.1.queue ++ report (vteCsi w.1) m (w.1.modes.flag m) := by
  obtain ⟨u, ds, he⟩ := writeByte_sequence (d := d) himask (w := w) (c := 0x70)
    (by rw [hs]; decide) (by decide) (by decide)
  have hdollar (s : Con) : csiDollarState s 0x70 = vteDecrqm (s.setState .init) s.ps.priv4 := rfl
  rw [he, emulateState, hs]
  simp only [hdollar]
  rw [hpriv]
  exact vteDecrqm_queue hpar

theorem asked_reply (himask : Cell) {m : ModeName} {w : Con × Batch}
    (h : Asked s m.isPrivate m.number w.1) : (writeLoop d himask w [0x24, 0x70]).1.queue =
      s.queue ++ report (vteCsi s) m (s.modes.flag m) := by
  obtain ⟨u, ds, hw⟩ := write_dollar (d := d) himask h
  have hreply := write_reply (d := d) himask (m := m) (w := writeByte d himask w 0x24)
    (by rw [hw]; rfl) (by rw [hw]; exact h.par) (by rw [hw]; exact h.priv4)
  have hsame : (writeByte d himask w 0x24).1.queue = s.queue ∧
      (writeByte d himask w 0x24).1.modes = s.modes := by
    rw [hw]
    exact ⟨h.queue, h.modes⟩
  have hloop : writeLoop d himask w [0x24, 0x70] =
      writeByte d himask (writeByte d himask w 0x24) 0x70 := rfl
  rw [hloop, hreply, hsame.1, vteCsi, hsame.2]
  rfl

theorem flush_queue (s : Con) (b : Batch) : (flush s b).1.queue = s.queue := by
  rw [flush]
  split
  · rfl
  · rfl

/-- What taking the cursor off the screen leaves. -/
theorem undrawCursor_queue (s : Con) : (undrawCursor s).queue = s.queue := by
  rw [undrawCursor]
  split
  · rw [hideCursor, hideSoftcursor]
    split
    · rfl
    · dsimp only
      split
      · rfl
      · rfl
  · rfl

/-- ESC and the bracket, in any state of the parser. -/
theorem write_introducer (himask : Cell) (w : Con × Batch) :
    ∃ u ds, (writeLoop d himask w [0x1b, 0x5b]).1 =
      Con.setState { w.1 with dec := u, draws := ds } .csi := by
  obtain ⟨u, ds, he⟩ := writeByte_esc (d := d) himask w
  have hesc : (writeByte d himask w 0x1b).1.ps.state = .esc := by
    rw [he]
    rfl
  obtain ⟨u', ds', hc⟩ := writeByte_sequence (d := d) himask (w := writeByte d himask w 0x1b)
    (c := 0x5b) (by rw [hesc]; decide) (by decide) (by decide)
  refine ⟨u', ds', hc.trans ?_⟩
  rw [emulateState, hesc, he]
  rfl

theorem writeLoop_append (himask : Cell) (w : Con × Batch) (a b : List Nat) :
    writeLoop d himask w (a ++ b) = writeLoop d himask (writeLoop d himask w a) b :=
  List.foldl_append

/-- **A request** is answered with the flag of the mode, in any state of the parser. -/
theorem request_reply (s : Con) (m : ModeName) : (doConWrite d s (request m)).queue =
    s.queue ++ report (vteCsi s) m (s.modes.flag m) := by
  obtain ⟨-, hmodes, -⟩ := undrawCursor_frame s
  obtain ⟨u, ds, hc⟩ := write_introducer (d := d) (undrawCursor s).rend.hiFontMask
    (undrawCursor s, ⟨none, 0, 0⟩)
  have hnumber := asked_number (s := s) (d := d) (undrawCursor s).rend.hiFontMask m
    (by rw [hc]; rfl) (by rw [hc]; exact hmodes) (by rw [hc]; exact undrawCursor_queue s)
  rw [doConWrite_eq, flush_queue, writeCells, request, decimal_number, List.append_assoc [0x1b, 0x5b],
    writeLoop_append, writeLoop_append]
  exact asked_reply (d := d) _ hnumber

/-! ### The whole history -/

/-- Two accounts that agree on everything but the keypad. -/
def SameButKeypad (t t' : Told) : Prop := ∀ m, m ≠ .decnkm → t m = t' m

theorem SameButKeypad.update {t t' : Told} (h : SameButKeypad t t') (k : ModeName) (on : Bool) :
    SameButKeypad (Function.update t k on) (Function.update t' k on) := by
  intro m hm
  by_cases hk : m = k
  · rw [hk, Function.update_self, Function.update_self]
  · rw [Function.update_of_ne hk, Function.update_of_ne hk]
    exact h m hm

theorem SameButKeypad.tellPars {t t' : Told} (h : SameButKeypad t t') (ps : Parser) (on : Bool) :
    SameButKeypad (LinuxConsole.tellPars ps on t) (LinuxConsole.tellPars ps on t') := by
  have htell (o : Option ModeName) {t t' : Told} (h : SameButKeypad t t') :
      SameButKeypad (tell on t o) (tell on t' o) := by
    cases o with
    | none => exact h
    | some k => exact h.update k on
  have hloop (is : List Nat) : ∀ {t t' : Told}, SameButKeypad t t' → SameButKeypad
      (is.foldl (fun t i => tell on t
        (if ps.priv4 then privMode (ps.par i) else ansiMode (ps.par i))) t)
      (is.foldl (fun t i => tell on t
        (if ps.priv4 then privMode (ps.par i) else ansiMode (ps.par i))) t') := by
    induction is with
    | nil => exact id
    | cons i is ih => exact fun h => ih (htell _ h)
  exact hloop _ h

theorem SameButKeypad.tellChar {t t' : Told} (h : SameButKeypad t t') (ps : Parser) (c : Nat) :
    SameButKeypad (LinuxConsole.tellChar resetAll ps c t)
      (LinuxConsole.tellChar resetButKeypad ps c t') := by
  have hreset : SameButKeypad (resetAll t) (resetButKeypad t') :=
    fun m hm => (Function.update_of_ne hm _ _).symm
  have hite {p : Prop} [Decidable p] {a a' b b' : Told} (ha : SameButKeypad a a')
      (hb : SameButKeypad b b') : SameButKeypad (if p then a else b) (if p then a' else b') := by
    split
    · exact ha
    · exact hb
  rw [LinuxConsole.tellChar.eq_def, LinuxConsole.tellChar.eq_def]
  split
  · exact hite (h.update _ _) (hite (h.update _ _) (hite hreset h))
  · exact hite hreset h
  · exact hite (h.tellPars ps true) (hite (h.tellPars ps false) h)
  · exact hite (h.tellPars ps true) (hite (h.tellPars ps false) h)
  · exact h

theorem sameButKeypad_tellBytes (himask : Cell) (buf : List Nat) : ∀ {w : Con × Batch}
    {t t' : Told}, SameButKeypad t t' → SameButKeypad
      (buf.foldl (tellByte d resetAll himask) (w, t)).2
      (buf.foldl (tellByte d resetButKeypad himask) (w, t')).2 := by
  induction buf with
  | nil => exact id
  | cons c buf ih =>
    intro w t t' h
    refine ih ?_
    dsimp only
    split
    · exact h.tellChar _ _
    · exact h

theorem sameButKeypad_told (history : List (List Nat)) : ∀ {p q : Con × Told}, p.1 = q.1 →
    SameButKeypad p.2 q.2 → SameButKeypad (history.foldl (tellWrite d resetAll) p).2
      (history.foldl (tellWrite d resetButKeypad) q).2 := by
  induction history with
  | nil => exact fun _ h => h
  | cons buf history ih =>
    intro p q hp h
    refine ih ?_ ?_
    · rw [tellWrite_fst, tellWrite_fst, hp]
    · rw [tellWrite, tellWrite, hp]
      exact sameButKeypad_tellBytes _ buf h

/-- The console at power-up has the initial modes. -/
theorem follows_vcInit (d : Driver) (i : ConInit) (screenbuf : Nat) (mem : Nat → Cell)
    (vt : Display) (uni : Option UniPagedir) (user : Nat → Nat) (doClear : Bool) :
    Follows (vcInit d (visualInit i screenbuf mem vt uni user) doClear) initialModes := by
  have hzero : ((resetVc { setOrigin d (visualInit i screenbuf mem vt uni user) with
      cur.pos := (setOrigin d (visualInit i screenbuf mem vt uni user)).geo.origin }).modes).flag
        .decnkm = false := by
    rw [resetVc, (frame_resetPalette _).flags]
    rfl
  have hflag : (vcInit d (visualInit i screenbuf mem vt uni user) doClear).modes.flag =
      initialModes := by
    rw [vcInit, vteRis_flag]
    exact Function.update_eq_self_iff.mpr hzero
  refine ⟨fun m _ => by rw [hflag], fun m hm => ?_⟩
  rw [hflag]
  rcases hm with rfl | rfl
  · rfl
  · rfl

/-- **Mode reports.**  After any history of writes since power-up, DECRQM is answered with the
value the mode was last set to, since RIS if there was one, exactly if the mode is not a DECCKM or
LNM that is set, and not a keypad mode that RIS ought to have changed. -/
theorem report_iff (d : Driver) (i : ConInit) (screenbuf : Nat) (mem : Nat → Cell) (vt : Display)
    (uni : Option UniPagedir) (user : Nat → Nat) (doClear : Bool) (history : List (List Nat))
    (m : ModeName) :
    let s := vcInit d (visualInit i screenbuf mem vt uni user) doClear
    let value := told d resetAll s history
    (writes d s (history ++ [request m])).queue =
        (writes d s history).queue ++ report (vteCsi (writes d s history)) m (value m) ↔
      (m = .decckm ∨ m = .lnm → value m = false) ∧
        (m = .decnkm → value m = told d resetButKeypad s history m) := by
  intro s value
  have hf := follows_told (d := d) history (p := (s, initialModes))
    (follows_vcInit d i screenbuf mem vt uni user doClear)
  have hsame := sameButKeypad_told (d := d) history (p := (s, initialModes))
    (q := (s, initialModes)) rfl fun _ _ => rfl
  rw [tellWrites_fst] at hf
  have hwrites : writes d s (history ++ [request m]) = doConWrite d (writes d s history) (request m) :=
    List.foldl_append
  rw [hwrites, request_reply, List.append_cancel_left_eq, report_inj]
  by_cases helse : m.elsewhere
  · have hn : m ≠ .decnkm := by
      rintro rfl
      exact absurd helse (by decide)
    rw [hf.elsewhere m helse]
    exact ⟨fun h => ⟨fun _ => h.symm, fun hm => absurd hm hn⟩, fun h => (h.1 helse).symm⟩
  · rw [hf.kept m helse]
    by_cases hn : m = .decnkm
    · exact ⟨fun h => ⟨fun he => absurd he helse, fun _ => h.symm⟩, fun h => (h.2 hn).symm⟩
    · exact ⟨fun _ => ⟨fun he => absurd he helse, fun hm => absurd hm hn⟩,
        fun _ => (hsame m hn).symm⟩

/-- `CSI ? 1 h`. -/
def setCursorKeys : List Nat := [0x1b, 0x5b, 0x3f, 0x31, 0x68]

/-- Cursor keys that have been set are reported as reset. -/
theorem cursorKeys_report_false :
    (writes dummyCon bootCon ([setCursorKeys] ++ [request .decckm])).queue ≠
      (writes dummyCon bootCon [setCursorKeys]).queue ++
        report (vteCsi (writes dummyCon bootCon [setCursorKeys])) .decckm
          (told dummyCon resetAll bootCon [setCursorKeys] .decckm) := by
  have hwrites : writes dummyCon bootCon ([setCursorKeys] ++ [request .decckm]) =
      doConWrite dummyCon (writes dummyCon bootCon [setCursorKeys]) (request .decckm) := rfl
  rw [hwrites, request_reply, Ne, List.append_cancel_left_eq, report_inj]
  decide +kernel

end LinuxConsole
