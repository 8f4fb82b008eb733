import LinuxConsole.Vc.Stream
import LinuxConsole.Vc.TabStops

/-!
# Control sequences in a stream of writes

What a control sequence with decimal parameters does, wherever in a stream it is written: ESC starts
it in every state of the parser and of the decoder, the digits accumulate modulo `2 ^ 32` in
`vc_par`, and **`typed_csi` is the control function that the last byte calls**, on the parameters as
the parser has them.

`Expects s k par w` says that the next byte of `w` is taken as the parameter `k` of a sequence that
was begun on the console `s`; one lemma for each kind of byte moves it on.
-/

namespace LinuxConsole

open Lib

variable {d : Driver} {s : Con} {w : Writing} {k : Nat} {par : Nat → Nat}

/-- The console after the bytes. -/
def Writing.typed (d : Driver) (w : Writing) (bytes : List Nat) : Con :=
  (run (writeStep d) w (bytes.map .byte)).con

/-- The digits of a decimal number, in a stream. -/
def Digits (ds : List Nat) : Prop := ∀ c ∈ ds, 0x30 ≤ c ∧ c ≤ 0x39

instance (ds : List Nat) : Decidable (Digits ds) :=
  inferInstanceAs (Decidable (∀ c ∈ ds, 0x30 ≤ c ∧ c ≤ 0x39))

/-- **The number that digits denote**, continued from `v`. -/
def numberFrom (v : Nat) (ds : List Nat) : Nat := ds.foldl (fun v c => v * 10 + (c - 0x30)) v

/-- The number that digits denote, zero if there are none. -/
def number (ds : List Nat) : Nat := numberFrom 0 ds

/-- **What `%d` writes** is digits of the number. -/
theorem digits_decimal (n : Nat) : Digits (decimal n) ∧ number (decimal n) = n := by
  have htext : decimal n = (Nat.toDigits 10 n).map Char.toNat := by
    rw [decimal, if_neg (by omega), Int.natAbs_natCast, List.nil_append]
  rw [htext]
  constructor
  · intro c hc
    obtain ⟨ch, hch, rfl⟩ := List.mem_map.mp hc
    exact Char.isDigit_iff_toNat.mp (Nat.isDigit_of_mem_toDigits (by decide) (by decide) hch)
  · have hfold (l : List Char) : ∀ v, numberFrom v (l.map Char.toNat) = Nat.ofDigitChars 10 l v := by
      induction l with
      | nil => exact fun v => rfl
      | cons c l ih =>
        intro v
        rw [Nat.ofDigitChars_cons, Nat.mul_comm]
        exact ih _
    exact (hfold _ 0).trans Nat.ofDigitChars_ten_toDigits

/-- A control sequence: its parameters and its final byte. -/
def csi (params : List Nat) (c : Nat) : List Nat := [0x1b, 0x5b] ++ params ++ [c]

theorem numberFrom_mod (ds : List Nat) : ∀ v,
    numberFrom (v % 2 ^ 32) ds % 2 ^ 32 = numberFrom v ds % 2 ^ 32 := by
  induction ds with
  | nil => exact fun v => Nat.mod_mod v _
  | cons c ds ih =>
    intro v
    have hstep : (v % 2 ^ 32 * 10 + (c - 0x30)) % 2 ^ 32 = (v * 10 + (c - 0x30)) % 2 ^ 32 :=
      ((Nat.mod_modEq v (2 ^ 32)).mul_right 10).add_right (c - 0x30)
    show numberFrom (v % 2 ^ 32 * 10 + (c - 0x30)) ds % 2 ^ 32 =
      numberFrom (v * 10 + (c - 0x30)) ds % 2 ^ 32
    rw [← ih, hstep, ih]

/-! ### The parser -/

theorem u32_natCast (n : Nat) : u32 n = n % 2 ^ 32 := by
  rw [u32, BitVec.ofInt_natCast, BitVec.toNat_ofNat]

/-- The parser reads the parameter `k`. -/
def readPars (s : Con) (k : Nat) (par : Nat → Nat) : Con :=
  { s with ps := ⟨.csiGetpars, k, par, false, false, false, false⟩ }

/-- The console on which the control function is called. -/
def gotPars (s : Con) (k : Nat) (par : Nat → Nat) : Con :=
  { s with ps := ⟨.init, k, par, false, false, false, false⟩ }

theorem csiGetpars_accumulates {c : Nat} (hc : 0x30 ≤ c ∧ c ≤ 0x39) (hk : k < NPAR) :
    csiGetpars d (readPars s k par) c =
      readPars s k (Function.update par k ((par k * 10 + (c - 0x30)) % 2 ^ 32)) := by
  have hvalue : u32 (u32 (par k * 10) + (c - 0x30)) = (par k * 10 + (c - 0x30)) % 2 ^ 32 := by
    have hinner : u32 (par k * 10) = par k * 10 % 2 ^ 32 := u32_natCast (par k * 10)
    have hsum : ((par k * 10 % 2 ^ 32 : Nat) : Int) + (c - 0x30) =
        ((par k * 10 % 2 ^ 32 + (c - 0x30) : Nat) : Int) := by
      rw [Nat.cast_add, Nat.cast_sub hc.1]
      rfl
    rw [hinner, hsum, u32_natCast, Nat.mod_add_mod]
  have hset (v : Nat) : (readPars s k par).setPar k v = readPars s k (Function.update par k v) := by
    rw [Con.setPar, Con.check, decide_eq_true hk]
    rfl
  rw [csiGetpars, if_neg (by omega), if_pos hc]
  show (readPars s k par).setPar k (u32 (u32 (par k * 10) + (c - 0x30))) = _
  rw [hvalue, hset]

theorem csiGetpars_separates (hk : k + 1 < NPAR) :
    csiGetpars d (readPars s k par) 0x3b = readPars s (k + 1) par := by
  have hk : (readPars s k par).ps.npar < NPAR - 1 := by
    show k < NPAR - 1
    omega
  rw [csiGetpars, if_pos ⟨rfl, hk⟩]
  rfl

theorem csiGetpars_final {c : Nat} (hc : 0x40 ≤ c)
    (hnone : ∀ s, s.ps.priv2 = false → s.ps.priv3 = false → s.ps.priv4 = false →
      csiPrivate d s c = none) :
    csiGetpars d (readPars s k par) c = csiFinal d (gotPars s k par) c := by
  have hgot : csiGetpars d (readPars s k par) c =
      csiGotpars d ((readPars s k par).setState .csiGotpars) c := by
    rw [csiGetpars, if_neg (by omega), if_neg (by omega)]
  rw [hgot, csiGotpars]
  rw [show ((readPars s k par).setState .csiGotpars).setState .init = gotPars s k par from rfl]
  dsimp only
  rw [hnone _ rfl rfl rfl]
  rfl

theorem csiState_first {c : Nat} (hc : c ∉ [0x5b, 0x3c, 0x3d, 0x3e, 0x3f]) :
    csiState d s c = csiGetpars d (readPars s 0 s.clearPars.ps.par) c := by
  simp only [List.mem_cons, List.not_mem_nil, or_false, not_or] at hc
  obtain ⟨h0, h1, h2, h3, h4⟩ := hc
  rw [csiState, if_neg h0, beq_eq_false_iff_ne.mpr h1, beq_eq_false_iff_ne.mpr h2,
    beq_eq_false_iff_ne.mpr h3, beq_eq_false_iff_ne.mpr h4]
  rfl

/-! ### In a stream -/

/-- **The next byte is taken as one of the parameter `k`.** -/
def Expects (d : Driver) (s : Con) (k : Nat) (par : Nat → Nat) (w : Writing) : Prop :=
  ∀ c, 0x20 ≤ c → c < 0x7f → c ∉ [0x5b, 0x3c, 0x3d, 0x3e, 0x3f] → ∃ u ds,
    (writeStep d w (.byte c)).con =
      csiGetpars d (readPars { s with dec := u, draws := ds } k par) c

theorem writeStep_inside {c : Nat} (hs : w.con.ps.state ≠ .init) (hc : 0x20 ≤ c) (hc' : c < 0x7f) :
    ∃ u ds, (writeStep d w (.byte c)).con =
      emulateState d { w.con with dec := u, draws := ds } c := by
  obtain ⟨u, ds, h⟩ := writeByte_control (d := d) w.himask (w := (w.con, w.batch)) hs
    (Nat.le_of_lt hc')
  exact ⟨u, ds, h.trans (terminalEmulation_graphic hc hc' _)⟩

theorem writeStep_esc (w : Writing) : ∃ u ds, (writeStep d w (.byte 0x1b)).con =
    Con.setState { w.con with dec := u, draws := ds } .esc :=
  writeByte_esc (d := d) w.himask (w.con, w.batch)

theorem writeStep_afterEsc {c : Nat} (hs : w.con.ps.state = .esc) (hc : 0x20 ≤ c) (hc' : c < 0x7f) :
    ∃ u ds, (writeStep d w (.byte c)).con = escState d { w.con with dec := u, draws := ds } c := by
  obtain ⟨u, ds, h⟩ := writeStep_inside (d := d) (w := w) (by rw [hs]; decide) hc hc'
  refine ⟨u, ds, ?_⟩
  rw [h, emulateState]
  simp only [hs]

theorem expects_readPars {u : Utf} {ds : List Draw}
    (h : w.con = readPars { s with dec := u, draws := ds } k par) : Expects d s k par w := by
  intro c hc hc' _
  have hs : w.con.ps.state = .csiGetpars := by rw [h]; rfl
  obtain ⟨u', ds', hstep⟩ := writeStep_inside (d := d) (w := w) (by rw [hs]; decide) hc hc'
  refine ⟨u', ds', ?_⟩
  rw [hstep, emulateState]
  simp only [hs]
  rw [h]
  rfl

/-- **ESC [** begins a sequence. -/
theorem expects_csi (w : Writing) :
    Expects d w.con 0 w.con.clearPars.ps.par (run (writeStep d) w [.byte 0x1b, .byte 0x5b]) := by
  intro c hc hc' hfirst
  obtain ⟨u, ds, hesc⟩ := writeStep_esc (d := d) w
  have hs : (writeStep d w (.byte 0x1b)).con.ps.state = .esc := by rw [hesc]; rfl
  obtain ⟨u, ds, hcsi⟩ := writeStep_afterEsc (d := d) (c := 0x5b) hs (by decide) (by decide)
  have hcon : (run (writeStep d) w [.byte 0x1b, .byte 0x5b]).con =
      Con.setState { w.con with dec := u, draws := ds } .csi := by
    rw [run_cons, run_cons, run_nil, hcsi, hesc]
    rfl
  generalize run (writeStep d) w [.byte 0x1b, .byte 0x5b] = w' at hcon
  have hs : w'.con.ps.state = .csi := by rw [hcon]; rfl
  obtain ⟨u', ds', hstep⟩ := writeStep_inside (d := d) (w := w') (by rw [hs]; decide) hc hc'
  refine ⟨u', ds', ?_⟩
  rw [hstep, emulateState]
  simp only [hs]
  rw [csiState_first hfirst, hcon]
  rfl

theorem Expects.digit (h : Expects d s k par w) {c : Nat} (hc : 0x30 ≤ c ∧ c ≤ 0x39) (hk : k < NPAR) :
    Expects d s k (Function.update par k ((par k * 10 + (c - 0x30)) % 2 ^ 32))
      (writeStep d w (.byte c)) := by
  obtain ⟨u, ds, hstep⟩ := h c (by omega) (by omega) (by simp; omega)
  rw [csiGetpars_accumulates hc hk] at hstep
  exact expects_readPars hstep

theorem Expects.separator (h : Expects d s k par w) (hk : k + 1 < NPAR) :
    Expects d s (k + 1) par (writeStep d w (.byte 0x3b)) := by
  obtain ⟨u, ds, hstep⟩ := h 0x3b (by decide) (by decide) (by decide)
  rw [csiGetpars_separates hk] at hstep
  exact expects_readPars hstep

/-- **Digits accumulate** modulo `2 ^ 32`. -/
theorem Expects.digits (ds : List Nat) : ∀ {par : Nat → Nat} {w : Writing}, Expects d s k par w →
    Digits ds → k < NPAR → par k < 2 ^ 32 →
    Expects d s k (Function.update par k (numberFrom (par k) ds % 2 ^ 32))
      (run (writeStep d) w (ds.map .byte)) := by
  induction ds with
  | nil =>
    intro par w h _ _ hpar
    rw [show numberFrom (par k) [] % 2 ^ 32 = par k from Nat.mod_eq_of_lt hpar,
      Function.update_eq_self]
    exact h
  | cons c ds ih =>
    intro par w h hds hk hpar
    have hstep := h.digit (hds c List.mem_cons_self) hk
    have hrest := ih hstep (fun c hc => hds c (List.mem_cons_of_mem _ hc)) hk
      (by rw [Function.update_self]; omega)
    have hvalue : numberFrom ((par k * 10 + (c - 0x30)) % 2 ^ 32) ds % 2 ^ 32 =
        numberFrom (par k) (c :: ds) % 2 ^ 32 := numberFrom_mod ds _
    rw [Function.update_self, Function.update_idem, hvalue] at hrest
    exact hrest

/-- **The final byte** calls the control function. -/
theorem Expects.final (h : Expects d s k par w) {c : Nat} (hc : 0x40 ≤ c) (hc' : c < 0x7f)
    (hcsi : c ≠ 0x5b) (hnone : ∀ s, s.ps.priv2 = false → s.ps.priv3 = false → s.ps.priv4 = false →
      csiPrivate d s c = none) : ∃ u ds, (writeStep d w (.byte c)).con =
        csiFinal d (gotPars { s with dec := u, draws := ds } k par) c := by
  obtain ⟨u, ds, hstep⟩ := h c (by omega) hc' (by simp; omega)
  exact ⟨u, ds, hstep.trans (csiGetpars_final hc hnone)⟩

/-- The parameters of a sequence with one parameter. -/
def onePar (s : Con) (ds : List Nat) : Nat → Nat :=
  Function.update s.clearPars.ps.par 0 (number ds % 2 ^ 32)

theorem onePar_zero (s : Con) (ds : List Nat) : onePar s ds 0 = number ds % 2 ^ 32 := by
  rw [onePar, Function.update_self]

/-- The parameters of a sequence with two parameters. -/
def twoPars (s : Con) (ds es : List Nat) : Nat → Nat :=
  Function.update (onePar s ds) 1 (number es % 2 ^ 32)

theorem twoPars_zero (s : Con) (ds es : List Nat) : twoPars s ds es 0 = number ds % 2 ^ 32 := by
  rw [twoPars, Function.update_of_ne (by decide), onePar_zero]

theorem twoPars_one (s : Con) (ds es : List Nat) : twoPars s ds es 1 = number es % 2 ^ 32 := by
  rw [twoPars, Function.update_self]

/-- A final byte that `csiPrivate` has nothing to do with. -/
def Standard (d : Driver) (c : Nat) : Prop :=
  0x40 ≤ c ∧ c < 0x7f ∧ c ≠ 0x5b ∧ ∀ s : Con, s.ps.priv2 = false → s.ps.priv3 = false →
    s.ps.priv4 = false → csiPrivate d s c = none

theorem Digits.expects {ds : List Nat} (hds : Digits ds) (w : Writing) :
    Expects d w.con 0 (onePar w.con ds)
      (run (writeStep d) w ([.byte 0x1b, .byte 0x5b] ++ ds.map .byte)) := by
  rw [run_append]
  exact (expects_csi w).digits ds hds (by decide) (show (0 : Nat) < 2 ^ 32 by decide)

theorem typed_append (w : Writing) (bytes : List Nat) (c : Nat) : w.typed d (bytes ++ [c]) =
    (writeStep d (run (writeStep d) w (bytes.map .byte)) (.byte c)).con := by
  rw [Writing.typed, List.map_append, run_append]
  rfl

/-- **A sequence with one parameter**, wherever it is written. -/
theorem typed_csi {ds : List Nat} (hds : Digits ds) {c : Nat} (hc : Standard d c) (w : Writing) :
    ∃ u dr, w.typed d (csi ds c) =
      csiFinal d (gotPars { w.con with dec := u, draws := dr } 0 (onePar w.con ds)) c := by
  obtain ⟨h40, h7f, hcsi, hnone⟩ := hc
  obtain ⟨u, dr, hstep⟩ := (hds.expects (d := d) w).final h40 h7f hcsi hnone
  refine ⟨u, dr, ?_⟩
  rw [csi, typed_append, List.map_append]
  exact hstep

/-- **A sequence with two parameters.** -/
theorem typed_csi_two {ds es : List Nat} (hds : Digits ds) (hes : Digits es) {c : Nat}
    (hc : Standard d c) (w : Writing) : ∃ u dr, w.typed d (csi (ds ++ 0x3b :: es) c) =
      csiFinal d (gotPars { w.con with dec := u, draws := dr } 1 (twoPars w.con ds es)) c := by
  obtain ⟨h40, h7f, hcsi, hnone⟩ := hc
  have hfirst := (hds.expects (d := d) w).separator (by decide)
  have hsecond := hfirst.digits es hes (by decide) (show (0 : Nat) < 2 ^ 32 by decide)
  obtain ⟨u, dr, hstep⟩ := hsecond.final h40 h7f hcsi hnone
  refine ⟨u, dr, ?_⟩
  have hbytes : ([0x1b, 0x5b] ++ (ds ++ 0x3b :: es)).map WriteOp.byte =
      ([.byte 0x1b, .byte 0x5b] ++ ds.map .byte) ++ (.byte 0x3b :: es.map .byte) := by
    simp
  rw [csi, typed_append, hbytes, run_append]
  exact hstep

end LinuxConsole
