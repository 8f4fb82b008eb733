import LinuxConsole.Jscal.Fields

/-!
# Setting the mappings

`set_mappings` sets the new axis map first and then moves the corrections to where the axes
went, which takes two more calls, and a third one sets the button map.  **`atomic_iff`** says
when all of this is done or nothing: the last four calls are not undone.  `correct_axes` looks
up every code of the new map in a table that has the codes of the old one only.
-/

namespace LinuxConsole.Jscal

open Lib

variable {S : System}

theorem firsts_eq_self {α : Type} {n : Nat} {z : α} {l : List α} (h : l.length = n) :
    firsts n z l = l := by
  refine List.ext_getElem? fun i => ?_
  rw [firsts, List.getElem?_map]
  by_cases hi : i < n
  · rw [List.getElem?_range hi, Option.map_some, List.getD_eq_getElem?_getD,
      List.getElem?_eq_getElem (h ▸ hi), Option.getD_some]
  · rw [List.getElem?_eq_none (by simp; omega), List.getElem?_eq_none (by omega)]
    rfl

theorem Joystick.signedChar_axes (d : Joystick S) :
    signedChar d.axmap.length = d.axmap.length := by
  have hle := d.axes_le
  have hmax := S.absMax_lt
  rw [signedChar, BitVec.toInt_eq_toNat_cond, BitVec.toNat_ofNat, Nat.mod_eq_of_lt (by omega),
    if_pos (by omega)]

theorem Joystick.axes_eq (d : Joystick S) : d.axes = d.axmap.length := by
  have hle := d.axes_le
  rw [Joystick.axes, d.signedChar_axes]
  omega

theorem Joystick.toNat_axes (d : Joystick S) : d.axes.toNat = d.axmap.length := by
  rw [d.axes_eq, Int.toNat_natCast]

/-- Fewer than 128 buttons are counted right, and more are counted as a negative number. -/
theorem Joystick.buttons_eq (d : Joystick S) :
    d.buttons = if d.btnmap.length < 128 then (d.btnmap.length : Int)
      else (d.btnmap.length : Int) - 256 := by
  have hlt := d.buttons_lt
  rw [Joystick.buttons, signedChar, BitVec.toInt_eq_toNat_cond, BitVec.toNat_ofNat,
    Nat.mod_eq_of_lt (by omega)]
  by_cases h : d.btnmap.length < 128
  · rw [if_pos h, if_pos (by omega)]
  · rw [if_neg h, if_neg (by omega)]
    rfl

/-! ### The table of the axes -/

/-- Every code of the new map is one of the old map, and that has no code too large for the
table. -/
def System.Remappable (S : System) (old new : List (BitVec 8)) : Prop :=
  (∀ c ∈ old, c.toNat ≤ S.absMax) ∧ ∀ c ∈ new, c ∈ old

theorem axmes_spec {cs : List (BitVec 8)} : ∀ {table t : Nat → Option Nat} {i : Nat},
    S.axmes table i cs = some t →
    (∀ c ∈ cs, c.toNat ≤ S.absMax) ∧
      (∀ x j, t x = some j →
        (∃ k c, cs[k]? = some c ∧ c.toNat = x ∧ j = i + k) ∨ table x = some j) ∧
      (∀ c ∈ cs, t c.toNat ≠ none) ∧ ∀ x, table x ≠ none → t x ≠ none := by
  induction cs with
  | nil =>
    intro table t i h
    obtain rfl := Option.some.inj h
    exact ⟨by simp, fun x j hj => .inr hj, by simp, fun x hx => hx⟩
  | cons c cs ih =>
    intro table t i h
    rw [System.axmes] at h
    split at h
    case isFalse => contradiction
    case isTrue hc =>
      obtain ⟨hle, hfrom, hset, hkeep⟩ := ih h
      have hself : t c.toNat ≠ none := hkeep _ (by rw [Function.update_self]; simp)
      refine ⟨List.forall_mem_cons.mpr ⟨hc, hle⟩, fun x j hj => ?_,
        List.forall_mem_cons.mpr ⟨hself, hset⟩, fun x hx => ?_⟩
      · rcases hfrom x j hj with ⟨k, c', hk, hx, rfl⟩ | hold
        · exact .inl ⟨k + 1, c', hk, hx, by omega⟩
        · by_cases hx : x = c.toNat
          · subst hx
            rw [Function.update_self] at hold
            exact .inl ⟨0, c, rfl, rfl, (Option.some.inj hold).symm⟩
          · rw [Function.update_of_ne hx] at hold
            exact .inr hold
      · refine hkeep x ?_
        by_cases hxc : x = c.toNat
        · rw [hxc, Function.update_self]
          simp
        · rwa [Function.update_of_ne hxc]

theorem exists_axmes {cs : List (BitVec 8)} (h : ∀ c ∈ cs, c.toNat ≤ S.absMax) :
    ∀ (table : Nat → Option Nat) (i : Nat), ∃ t, S.axmes table i cs = some t := by
  induction cs with
  | nil => exact fun table i => ⟨table, rfl⟩
  | cons c cs ih =>
    intro table i
    rw [System.axmes, if_pos (h c List.mem_cons_self)]
    exact ih (fun c' hc' => h c' (List.mem_cons_of_mem _ hc')) _ _

theorem lookupAxes_spec {table : Nat → Option Nat} {cs : List (BitVec 8)} :
    ∀ {ax : List Nat}, S.lookupAxes table cs = some ax →
      List.Forall₂ (fun c j => table c.toNat = some j) cs ax := by
  induction cs with
  | nil =>
    intro ax h
    obtain rfl := Option.some.inj h
    exact .nil
  | cons c cs ih =>
    intro ax h
    rw [System.lookupAxes] at h
    split at h
    · obtain ⟨j, hj, h⟩ := Option.bind_eq_some_iff.mp h
      obtain ⟨ax', hax, rfl⟩ := Option.map_eq_some_iff.mp h
      exact .cons hj (ih hax)
    · contradiction

theorem exists_lookupAxes {table : Nat → Option Nat} {cs : List (BitVec 8)}
    (h : ∀ c ∈ cs, c.toNat ≤ S.absMax ∧ table c.toNat ≠ none) :
    ∃ ax, S.lookupAxes table cs = some ax := by
  induction cs with
  | nil => exact ⟨[], rfl⟩
  | cons c cs ih =>
    obtain ⟨hc, hset⟩ := h c List.mem_cons_self
    obtain ⟨j, hj⟩ := Option.ne_none_iff_exists'.mp hset
    obtain ⟨ax, hax⟩ := ih fun c' hc' => h c' (List.mem_cons_of_mem _ hc')
    exact ⟨j :: ax, by rw [System.lookupAxes, if_pos hc, hj, hax]; rfl⟩

/-- **Where the axes are**: at places of the old map that hold their codes, the same place
for the same code. -/
theorem remap_spec {old new : List (BitVec 8)} {ax : List Nat} (h : S.remap old new = some ax) :
    S.Remappable old new ∧ ∃ place : BitVec 8 → Option Nat,
      List.Forall₂ (fun c j => place c = some j ∧ old[j]? = some c) new ax := by
  obtain ⟨t, ht, hax⟩ := Option.bind_eq_some_iff.mp h
  obtain ⟨hle, hfrom, -, -⟩ := axmes_spec ht
  have hplace : List.Forall₂ (fun c j => t c.toNat = some j ∧ old[j]? = some c) new ax :=
    (lookupAxes_spec hax).imp fun c j hj => by
      rcases hfrom c.toNat j hj with ⟨k, c', hk, hc, rfl⟩ | hnone
      · rw [Nat.zero_add, hk, BitVec.eq_of_toNat_eq hc]
        exact ⟨by rw [hj, Nat.zero_add], rfl⟩
      · contradiction
  refine ⟨⟨hle, fun c hc => ?_⟩, fun c => t c.toNat, hplace⟩
  obtain ⟨i, hi, rfl⟩ := List.getElem_of_mem hc
  have hi' : i < ax.length := hplace.length_eq ▸ hi
  exact List.mem_of_getElem? (hplace.get hi hi').2

theorem exists_remap {old new : List (BitVec 8)} (h : S.Remappable old new) :
    ∃ ax, S.remap old new = some ax := by
  obtain ⟨t, ht⟩ := exists_axmes h.1 (fun _ => none) 0
  obtain ⟨-, -, hset, -⟩ := axmes_spec ht
  obtain ⟨ax, hax⟩ := exists_lookupAxes (S := S) fun c hc =>
    ⟨h.1 c (h.2 c hc), hset c (h.2 c hc)⟩
  exact ⟨ax, by rw [System.remap, ht, Option.bind_some, hax]⟩

/-- The corrections `cs'` of the axes `new` are those that `cs` has for the same codes. -/
def Follows (old new : List (BitVec 8)) (cs cs' : List Corr) : Prop :=
  ∀ i : Nat, ∃ j : Nat, old[j]? = new[i]? ∧ cs'[i]? = cs[j]?

/-- Axes with one code have one correction. -/
def Uniform (old : List (BitVec 8)) (cs : List Corr) : Prop :=
  ∀ i j : Nat, old[i]? = old[j]? → cs[i]? = cs[j]?

theorem moveCorr_at {old new : List (BitVec 8)} {cs : List Corr} {ax : List Nat}
    {place : BitVec 8 → Option Nat} (hcs : cs.length = old.length)
    (h : List.Forall₂ (fun c j => place c = some j ∧ old[j]? = some c) new ax) {i : Nat}
    (hi : i < new.length) :
    ∃ j : Nat, place new[i] = some j ∧ old[j]? = new[i]? ∧ (moveCorr cs ax)[i]? = cs[j]? := by
  have hi' : i < ax.length := h.length_eq ▸ hi
  obtain ⟨hplace, hcode⟩ := h.get hi hi'
  have hj : ax[i] < cs.length := by
    rw [hcs]
    exact (List.getElem?_eq_some_iff.mp hcode).1
  refine ⟨ax[i], hplace, by rw [List.getElem?_eq_getElem hi]; exact hcode, ?_⟩
  rw [moveCorr, List.getElem?_map, List.getElem?_eq_getElem hi', Option.map_some,
    List.getD_eq_getElem?_getD, List.getElem?_eq_getElem hj, Option.getD_some]

/-- **The corrections follow the codes.** -/
theorem moveCorr_follows {old new : List (BitVec 8)} {cs : List Corr} {ax : List Nat}
    (h : S.remap old new = some ax) (hcs : cs.length = old.length) :
    (moveCorr cs ax).length = new.length ∧ Follows old new cs (moveCorr cs ax) := by
  obtain ⟨-, place, hplace⟩ := remap_spec h
  have hlen : (moveCorr cs ax).length = new.length := by
    rw [moveCorr, List.length_map, hplace.length_eq]
  refine ⟨hlen, fun i => ?_⟩
  by_cases hi : i < new.length
  · obtain ⟨j, -, hj⟩ := moveCorr_at hcs hplace hi
    exact ⟨j, hj⟩
  · refine ⟨old.length, ?_, ?_⟩
    · rw [List.getElem?_eq_none le_rfl, List.getElem?_eq_none (by omega)]
    · rw [List.getElem?_eq_none (by omega), List.getElem?_eq_none (by omega)]

theorem moveCorr_eq_iff {old : List (BitVec 8)} {cs : List Corr} {ax : List Nat}
    (h : S.remap old old = some ax) (hcs : cs.length = old.length) :
    moveCorr cs ax = cs ↔ Uniform old cs := by
  obtain ⟨hlen, hfollow⟩ := moveCorr_follows h hcs
  obtain ⟨-, place, hplace⟩ := remap_spec h
  constructor
  · intro hsame i j hij
    by_cases hi : i < old.length
    · have hj : j < old.length := by
        rw [List.getElem?_eq_getElem hi] at hij
        exact (List.getElem?_eq_some_iff.mp hij.symm).1
      obtain ⟨k, hk, -, hik⟩ := moveCorr_at hcs hplace hi
      obtain ⟨l, hl, -, hjl⟩ := moveCorr_at hcs hplace hj
      rw [List.getElem?_eq_getElem hi, List.getElem?_eq_getElem hj, Option.some.injEq] at hij
      rw [← hij, hk, Option.some.injEq] at hl
      rw [hsame] at hik hjl
      rw [hik, hl, ← hjl]
    · have hj : ¬j < old.length := fun hj => by
        rw [List.getElem?_eq_none (Nat.not_lt.mp hi), List.getElem?_eq_getElem hj] at hij
        contradiction
      rw [List.getElem?_eq_none (by omega), List.getElem?_eq_none (by omega)]
  · intro huniform
    refine List.ext_getElem? fun i => ?_
    obtain ⟨j, hcode, hcorr⟩ := hfollow i
    rw [hcorr]
    exact huniform j i hcode

/-! ### All or nothing -/

/-- The argument asks for `m`. -/
def Joystick.Requests (d : Joystick S) (p : Option Text) (m : Mappings) : Prop :=
  ∃ t, p = some t ∧ S.parseMappings d.axes d.buttons t = .ok m

/-- The joystick `d'` is `d` with the mappings `m`. -/
def Joystick.Remapped (d : Joystick S) (m : Mappings) (d' : Joystick S) : Prop :=
  d'.axmap = m.axmap ∧ Follows d.axmap m.axmap d.corr d'.corr ∧
    d'.btnmap = if m.buttons = 0 then d.btnmap else m.btnmap

/-- **All or nothing**: unless `jscal` succeeds the joystick is as before, and if it does then
the joystick is as the argument asks. -/
def Joystick.AllOrNothing (d : Joystick S) (p : Option Text) : Outcome S → Prop
  | .done d' => ∃ m, d.Requests p m ∧ d.Remapped m d'
  | .exit _ d' => d' = d
  | .fault d' => d' = d

/-- The calls after `JSIOCSAXMAP` do no harm: the map that has been set is the old one, or has
its codes and the corrections can be moved; and then the button map is not asked for, or is
set for a joystick whose buttons are counted right, or nothing has changed yet. -/
def Joystick.Harmless (d : Joystick S) (ok : Call → Bool) (m : Mappings) : Prop :=
  (m.axmap = d.axmap ∨ S.Remappable d.axmap m.axmap ∧ ok .getCorr ∧ ok .setCorr) ∧
    (S.Remappable d.axmap m.axmap → ok .getCorr → ok .setCorr → m.buttons ≠ 0 →
      if ok .setBtnmap then d.btnmap.length < 128
      else m.axmap = d.axmap ∧ Uniform d.axmap d.corr)

theorem setAxmap_axmap {d : Joystick S} {m : List (BitVec 8)} (h : m.length = d.axmap.length) :
    (d.setAxmap m).axmap = m := firsts_eq_self h

theorem setCorr_corr {d : Joystick S} {cs : List Corr} (h : cs.length = d.axmap.length) :
    (d.setCorr cs).corr = cs := firsts_eq_self h

theorem setAxmap_eq_self {d : Joystick S} {m : List (BitVec 8)} (h : m.length = d.axmap.length) :
    d.setAxmap m = d ↔ m = d.axmap := by
  constructor
  · intro hd
    rw [← setAxmap_axmap h, hd]
  · rintro rfl
    exact Joystick.ext (setAxmap_axmap h) rfl rfl

theorem Joystick.Requests.unique {d : Joystick S} {p : Option Text} {m m' : Mappings}
    (h : d.Requests p m) (h' : d.Requests p m') : m' = m := by
  obtain ⟨t, rfl, ht⟩ := h
  obtain ⟨t', heq, ht'⟩ := h'
  obtain rfl := Option.some.inj heq
  rw [ht] at ht'
  exact (Except.ok.inj ht').symm

/-- An argument that is read has as many codes as there are axes, and as many codes for
buttons as it says, and says 0 or the count of the buttons. -/
theorem Joystick.Requests.counts {d : Joystick S} {p : Option Text} {m : Mappings}
    (h : d.Requests p m) : m.axmap.length = d.axmap.length ∧
      m.btnmap.length = m.buttons.toNat ∧ (m.buttons = d.buttons ∨ m.buttons = 0) := by
  obtain ⟨t, rfl, ht⟩ := h
  rcases parseMappings_cases (S := S) d.axes d.buttons t with
    ⟨-, e, he⟩ | ⟨hpass, ⟨-, hf⟩ | ⟨f, ms, g, bs, hfields, hlen, hok⟩⟩
  · rw [he] at ht
    contradiction
  · rw [hf] at ht
    contradiction
  · rw [hok] at ht
    obtain rfl := Except.ok.inj ht
    rw [hfields] at hpass
    obtain ⟨-, -, -, hbuttons⟩ := hpass
    rw [← hlen, List.drop_left] at hbuttons
    refine ⟨?_, ?_, hbuttons.1⟩
    · rw [List.length_map, length_carried, hlen, d.toNat_axes]
    · rw [List.length_map, length_carried, hbuttons.2.1]

theorem setBtnmap_btnmap {d : Joystick S} {m : Mappings}
    (hlen : m.btnmap.length = m.buttons.toNat) (hcount : m.buttons = d.buttons) :
    (d.setBtnmap m.btnmap).btnmap = m.btnmap ↔ d.btnmap.length < 128 := by
  rw [hcount, d.buttons_eq] at hlen
  have hlt := d.buttons_lt
  constructor
  · intro h
    by_contra hge
    have hsame : d.btnmap.length = m.btnmap.length := by
      rw [← h]
      exact (length_firsts _ _ _).symm
    rw [if_neg hge] at hlen
    omega
  · intro h
    rw [if_pos h, Int.toNat_natCast] at hlen
    exact firsts_eq_self hlen

theorem correctAxes_allOrNothing {d : Joystick S} {p : Option Text} {m : Mappings}
    (ok : Call → Bool) (h : d.Requests p m) :
    d.AllOrNothing p (correctAxes ok d.axmap m (d.setAxmap m.axmap)) ↔ d.Harmless ok m := by
  obtain ⟨hlen, hbtn, hcount⟩ := h.counts
  have hmap : (d.setAxmap m.axmap).axmap = m.axmap := setAxmap_axmap hlen
  have hold : (d.setAxmap m.axmap).corr = d.corr := rfl
  have hself := setAxmap_eq_self (d := d) hlen
  simp only [correctAxes, hmap, hold, Joystick.Harmless]
  cases hr : S.remap d.axmap m.axmap with
  | none =>
    have hno : ¬S.Remappable d.axmap m.axmap := fun hyes => by
      obtain ⟨ax, hax⟩ := exists_remap hyes
      rw [hr] at hax
      contradiction
    simp [Joystick.AllOrNothing, hself, hno]
  | some ax =>
    have hyes := (remap_spec hr).1
    cases hget : ok .getCorr with
    | false => simp [Joystick.AllOrNothing, hself]
    | true =>
      cases hset : ok .setCorr with
      | false => simp [Joystick.AllOrNothing, hself]
      | true =>
        obtain ⟨hmoved, hfollow⟩ := moveCorr_follows hr d.corr_length
        -- The joystick after both calls, and all that is known of it.
        obtain ⟨e, he⟩ : ∃ e, (d.setAxmap m.axmap).setCorr (moveCorr d.corr ax) = e := ⟨_, rfl⟩
        have haxes : e.axmap = m.axmap := by rw [← he]; exact hmap
        have hcorr : e.corr = moveCorr d.corr ax := by
          rw [← he]
          exact setCorr_corr (by rw [hmap]; exact hmoved)
        have hbtnmap : e.btnmap = d.btnmap := by rw [← he]; rfl
        have hdone : ∀ d' : Joystick S, d'.axmap = m.axmap → d'.corr = moveCorr d.corr ax →
            (d.AllOrNothing p (.done d') ↔
              d'.btnmap = if m.buttons = 0 then d.btnmap else m.btnmap) := by
          intro d' haxes hcorrs
          constructor
          · rintro ⟨m', hm', -, -, hbuttons⟩
            rwa [h.unique hm'] at hbuttons
          · intro hbuttons
            exact ⟨m, h, haxes, hcorrs ▸ hfollow, hbuttons⟩
        have hstays : e = d ↔ m.axmap = d.axmap ∧ Uniform d.axmap d.corr := by
          constructor
          · rintro rfl
            rw [← haxes] at hr
            exact ⟨haxes.symm, (moveCorr_eq_iff hr e.corr_length).mp hcorr.symm⟩
          · rintro ⟨hsame, huniform⟩
            rw [hsame] at hr
            exact Joystick.ext (haxes.trans hsame)
              (hcorr.trans ((moveCorr_eq_iff hr d.corr_length).mpr huniform)) hbtnmap
        simp only [he]
        by_cases hzero : m.buttons = 0
        · have hd := hdone e haxes hcorr
          rw [if_pos hzero] at hd
          simp [hzero, hd, hyes, hbtnmap]
        · cases hcall : ok .setBtnmap with
          | false => simp [hzero, hyes, Joystick.AllOrNothing, hstays]
          | true =>
            have hset := setBtnmap_btnmap (d := e) hbtn (by
              rw [Joystick.buttons, hbtnmap]
              exact hcount.resolve_right hzero)
            have hd := hdone (e.setBtnmap m.btnmap) haxes hcorr
            rw [if_neg hzero, hset, hbtnmap] at hd
            simp [hzero, hyes, hd]

/-- **`set_mappings` does all or nothing** exactly if, where the argument is read and the new
axis map is set, the calls that follow do no harm. -/
theorem atomic_iff (ok : Call → Bool) (d : Joystick S) (p : Option Text) :
    d.AllOrNothing p (setMappings ok d p) ↔
      (ok .axes → ok .buttons → ok .getAxmap → ok .setAxmap →
        ∀ m, d.Requests p m → d.Harmless ok m) := by
  simp only [setMappings]
  cases haxes : ok .axes with
  | false => simp [Joystick.AllOrNothing]
  | true =>
    cases hbuttons : ok .buttons with
    | false => simp [Joystick.AllOrNothing]
    | true =>
      cases p with
      | none => simp [Joystick.AllOrNothing, Joystick.Requests]
      | some t =>
        cases hparse : S.parseMappings d.axes d.buttons t with
        | error e => cases e <;> simp [Joystick.AllOrNothing, Stop.outcome, Joystick.Requests, hparse]
        | ok m =>
          have hm : d.Requests (some t) m := ⟨t, rfl, hparse⟩
          have hall : (∀ m', d.Requests (some t) m' → d.Harmless ok m') ↔ d.Harmless ok m :=
            ⟨fun h => h m hm, fun h m' hm' => hm.unique hm' ▸ h⟩
          rw [hall]
          simp only [hparse, applyMappings]
          cases hget : ok .getAxmap with
          | false => simp [Joystick.AllOrNothing]
          | true =>
            cases hset : ok .setAxmap with
            | false => simp [Joystick.AllOrNothing]
            | true => simpa using correctAxes_allOrNothing ok hm

/-- The input layer of Linux, with numbers that wrap around. -/
def linux : System where
  absMax := 0x3f
  btnMisc := 0x100
  keyMax := 0x2ff
  convert n := (BitVec.ofInt 32 n).toInt
  absMax_lt := by decide
  btnMisc_pos := by decide
  keyMax_lt := by decide
  convert_eq _ h := BitVec.toInt_ofInt_eq_self (by decide) h.1 h.2
  convert_fits _ := ⟨BitVec.le_toInt _, BitVec.toInt_lt⟩

/-- Two axes and a trigger. -/
def twoAxes : Joystick linux where
  axmap := [0, 1]
  corr := [.ofValues 0 5 [], .ofValues 1 0 [120, 136, 4194176, -4194176]]
  btnmap := [0x120]
  corr_length := rfl
  axes_le := by decide
  buttons_lt := by decide

/-- The axes are to change places, and the corrections cannot be read: they are not moved, and
`jscal` fails with the new map in place. -/
theorem axes_half_swapped :
    setMappings (fun c => c ≠ .getCorr) twoAxes (some "2,1,0,0".toList) =
        .exit (.failed .getCorr) (twoAxes.setAxmap [1, 0]) ∧
      twoAxes.setAxmap [1, 0] ≠ twoAxes := by
  decide +kernel

end LinuxConsole.Jscal
