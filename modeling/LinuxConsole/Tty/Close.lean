import LinuxConsole.Tty.Use

/-!
# Closing a terminal

`release_dev` on an open file: its checks pass, its counts do not become negative, it takes the file
off its terminal and lays closing flags where nobody is left, and where that is so on both sides the
last close is under way (`releaseDev_run`).  What it leaves is in order again (`Ok.closed`).
-/

namespace LinuxConsole.Tty

variable {S : Drivers} {k : Kernel} {t filp : Nat} {tty : TtyStruct}

/-! ### `release_dev` -/

/-- The struct whose file is closed. -/
def TtyStruct.closed (filp : Nat) (tty : TtyStruct) : TtyStruct :=
  { tty with
    count := countDown tty.count
    closing := tty.closing || decide (tty.count ≤ 1)
    ttyFiles := tty.ttyFiles.erase filp }

/-- The other side has no file that keeps it open. -/
def TtyStruct.idle (ptyMaster : Bool) (oTty : TtyStruct) : Bool :=
  decide (oTty.count ≤ if ptyMaster then 1 else 0)

/-- The other side of a struct whose file is closed. -/
def TtyStruct.otherClosed (ptyMaster : Bool) (oTty : TtyStruct) : TtyStruct :=
  { oTty with
    count := if ptyMaster then countDown oTty.count else oTty.count
    closing := oTty.closing || oTty.idle ptyMaster }

/-- The state that `release_dev` leaves. -/
def Kernel.closed (S : Drivers) (k : Kernel) (filp t : Nat) (tty : TtyStruct) : Kernel :=
  { k with
    tty := useLine k.tty t tty (tty.closed filp)
      (TtyStruct.otherClosed (S.isMaster tty.driver))
    privateData := Function.update k.privateData filp none
    releasing :=
      if decide (tty.count ≤ 1) &&
          (tty.link.bind k.tty).all (TtyStruct.idle (S.isMaster tty.driver)) then
        t :: k.releasing
      else k.releasing }

/-- **The checks pass.** -/
theorem paranoid_run (h : Ok S k) (htty : k.tty t = some tty) :
    (paranoid S t tty).run k = some (false, k) := by
  have hseat := h.seats.seated htty List.not_mem_nil
  have hok := h.ttyOk htty
  have htermios := fun locked => (h.blocks.termios htty List.not_mem_nil locked).2
  rw [paranoid, bind_run (get_run k)]
  dsimp only
  rw [if_neg (Nat.not_le.mpr (h.seats.inRange hseat).2), if_neg (not_not.mpr hseat),
    if_neg (not_not.mpr (htermios false)), if_neg (not_not.mpr (htermios true))]
  cases hother : (S.drv tty.driver).other with
  | none => rfl
  | some d' =>
    dsimp only
    have hlink := hok.link
    rw [hother, Option.bind_some] at hlink
    have hsome := hok.paired (by rw [hother]; rfl)
    obtain ⟨o, ho⟩ := Option.isSome_iff_exists.mp hsome
    obtain ⟨oTty, hoTty, hd, _, hidx, hback, _⟩ := h.link htty ho
    rw [hother] at hd
    cases hd
    have htermios' := fun locked => (h.blocks.termios hoTty List.not_mem_nil locked).2
    rw [hidx] at htermios'
    rw [if_neg (not_not.mpr hlink), bind_run (deref_run ho), bind_run (load_run hoTty),
      if_neg (not_not.mpr (htermios' false)), if_neg (not_not.mpr (htermios' true)), hback,
      decide_eq_false (not_not.mpr rfl)]
    rfl

theorem TtyStruct.closed_eq (filp : Nat) (tty : TtyStruct) : tty.closed filp =
    if decide (tty.count ≤ 1) = true then
      { tty with
        count := countDown tty.count, ttyFiles := tty.ttyFiles.erase filp, closing := true }
    else { tty with count := countDown tty.count, ttyFiles := tty.ttyFiles.erase filp } := by
  rw [closed]
  cases decide (tty.count ≤ 1) with
  | true => rw [if_pos rfl, Bool.or_true]
  | false => rw [if_neg Bool.false_ne_true, Bool.or_false]

theorem TtyStruct.otherClosed_eq (ptyMaster : Bool) (oTty oTty' : TtyStruct)
    (h : oTty' = if ptyMaster = true then { oTty with count := countDown oTty.count } else oTty) :
    oTty.otherClosed ptyMaster =
      if oTty.idle ptyMaster = true then { oTty' with closing := true } else oTty' := by
  subst h
  rw [otherClosed]
  cases oTty.idle ptyMaster with
  | true =>
    rw [if_pos rfl, Bool.or_true]
    cases ptyMaster <;> rfl
  | false =>
    rw [if_neg Bool.false_ne_true, Bool.or_false]
    cases ptyMaster <;> rfl

theorem releaseDev_run (h : Ok S k) (hfile : k.privateData filp = some t)
    (htty : k.tty t = some tty) :
    (releaseDev S filp).run k = some (⟨⟩, k.closed S filp t tty) := by
  rw [releaseDev, bind_run (get_run k), hfile]
  dsimp only
  rw [bind_run (load_run htty), bind_run (paranoid_run h htty), if_neg Bool.false_ne_true,
    ← Drivers.isMaster]
  cases hlink : tty.link with
  | none =>
    have hmaster : S.isMaster tty.driver = false := by
      rw [Drivers.isMaster, h.plain htty hlink]
      rfl
    rw [oTtyClosing, pure_bind, hmaster, bind_run (storeIf_false_run ..),
      bind_run (store_run htty _), bind_run (modify_run ..),
      bind_run (storeIf_run (fun _ => rfl)
        ((congrFun (setFile_tty ..) _).trans (put_tty_self ..)) _),
      bind_run (storeIf_false_run ..), modify_run, Kernel.closed, hlink, hmaster]
    refine congrArg (fun s => some (PUnit.unit, s)) ?_
    refine Kernel.ext (funext fun x => ?_) rfl rfl rfl rfl rfl rfl rfl rfl rfl
    rw [setReleasing_tty]
    dsimp only
    by_cases hx : x = t
    · rw [hx, useLine_self, TtyStruct.closed_eq, hlink, put_tty_self]
    · rw [useLine_of_ne hx (by rw [hlink]; exact (Option.some_ne_none x).symm), put_tty_of_ne hx,
        setFile_tty, put_tty_of_ne hx]
  | some o =>
    obtain ⟨oTty, hoTty, _, _, _, _, hne⟩ := h.link htty hlink
    have hclosing : (oTtyClosing (S.isMaster tty.driver) (some o)).run k =
        some (oTty.idle (S.isMaster tty.driver), k) := by
      rw [oTtyClosing, bind_run (load_run hoTty)]
      rfl
    rw [bind_run hclosing, bind_run (storeIf_run (fun _ => rfl) hoTty _),
      bind_run (store_run ((put_tty_of_ne hne.symm ..).trans htty) _), bind_run (modify_run ..),
      bind_run (storeIf_run (fun _ => rfl)
        ((congrFun (setFile_tty ..) _).trans (put_tty_self ..)) _),
      bind_run (storeIf_run (fun _ => rfl) ((put_tty_of_ne hne ..).trans
        ((congrFun (setFile_tty ..) _).trans ((put_tty_of_ne hne ..).trans (put_tty_self ..)))) _),
      modify_run, Kernel.closed, hlink]
    refine congrArg (fun s => some (PUnit.unit, s)) ?_
    refine Kernel.ext (funext fun x => ?_) rfl rfl rfl rfl rfl rfl rfl rfl ?_
    · rw [setReleasing_tty]
      dsimp only
      by_cases hx : x = t
      · rw [hx, useLine_self, TtyStruct.closed_eq, hlink, put_tty_of_ne hne.symm, put_tty_self]
      · by_cases ho : x = o
        · rw [ho, useLine_link hne hlink hoTty, TtyStruct.otherClosed_eq _ oTty _ rfl,
            put_tty_self]
        · rw [useLine_of_ne hx fun heq => ho (Option.some.inj (hlink.symm.trans heq)).symm,
            put_tty_of_ne ho, put_tty_of_ne hx, setFile_tty, put_tty_of_ne hx, put_tty_of_ne ho]
    · rw [Option.bind_some, hoTty]
      rfl

/-! ### What a close leaves -/

theorem sameSeats_closed (htty : k.tty t = some tty) :
    SameSeats k (k.closed S filp t tty) where
  tty := useLine_fixed htty rfl fun _ => rfl
  nextTty := rfl
  blocks := rfl
  nextBlock := rfl
  ttys := rfl
  termios := rfl
  refcount := rfl
  modules := rfl

/-! ### The invariant -/

theorem countDown_of_pos {c : Int} (h : 1 ≤ c) : countDown c = c - 1 := if_neg (by omega)

theorem Ok.file (h : Ok S k) (hfile : k.privateData filp = some t) :
    ∃ tty, k.tty t = some tty ∧ filp ∈ tty.ttyFiles := h.conduct.file.mp hfile

theorem TtyOk.not_closing {f : Nat} (h : TtyOk S k t tty) (hf : f ∈ tty.ttyFiles) :
    tty.closing ≠ true := by
  intro hclosing
  rw [h.closing hclosing] at hf
  exact List.not_mem_nil hf

theorem apart_closed (h : Ok S k) (htty : k.tty t = some tty) :
    Apart S k (k.closed S filp t tty) tty.slot := by
  refine h.apart_use htty rfl rfl (fun _ => rfl) rfl fun {x} hx => ?_
  change x ∈ (if _ then t :: k.releasing else k.releasing) ↔ _
  split_ifs
  · rw [List.mem_cons, or_iff_right hx]
  · exact Iff.rfl

/-- Where the closed file was the last on both sides the last close is under way. -/
theorem closed_use (h : Ok S k) (htty : k.tty t = some tty) (hmem : filp ∈ tty.ttyFiles) :
    tty.ttyFiles.erase filp ≠ [] ∨ t ∈ (k.closed S filp t tty).releasing ∨
      ∃ o oTty, tty.link = some o ∧ k.tty o = some oTty ∧ oTty.ttyFiles ≠ [] := by
  by_cases hfiles : tty.ttyFiles.erase filp = []
  swap
  · exact .inl hfiles
  right
  have hone : tty.ttyFiles.length = 1 := by
    have hlen := List.length_erase_of_mem hmem
    rw [hfiles, List.length_nil] at hlen
    have hpos := List.length_pos_of_mem hmem
    omega
  change t ∈ (if _ then t :: k.releasing else k.releasing) ∨ _
  cases hlink : tty.link with
  | none =>
    left
    have hcount := (h.ttyOk htty).count
    rw [held_plain (by rw [h.plain htty hlink]; exact Option.some_ne_none _ ∘ Eq.symm), hone]
      at hcount
    rw [if_pos]
    · exact List.mem_cons_self
    · rw [Option.bind_none, Option.all_none, Bool.and_true]
      exact decide_eq_true (by omega)
  | some o =>
    obtain ⟨oTty, hoTty, _⟩ := h.link htty hlink
    obtain ⟨hcount, hcount'⟩ := h.counts htty hlink hoTty
    by_cases hidle : oTty.ttyFiles = []
    · left
      rw [hidle, List.length_nil] at hcount hcount'
      rw [if_pos]
      · exact List.mem_cons_self
      · rw [Option.bind_some, hoTty, Option.all_some, Bool.and_eq_true, TtyStruct.idle,
          decide_eq_true_iff, decide_eq_true_iff]
        split_ifs at hcount hcount' ⊢ <;> omega
    · exact .inr ⟨o, oTty, rfl, hoTty, hidle⟩

theorem Ok.closed_self (h : Ok S k) (htty : k.tty t = some tty) (hmem : filp ∈ tty.ttyFiles) :
    TtyOk S (k.closed S filp t tty) t (tty.closed filp) := by
  have hok := h.ttyOk htty
  have hpos := List.length_pos_of_mem hmem
  have hlen := List.length_erase_of_mem hmem
  have hcount := hok.count
  have hheld : held S (k.closed S filp t tty) (tty.closed filp) = held S k tty := by
    rw [held, held]
    change (if _ then (tty.link.bind _).elim 0 _ else 0) = _
    cases hlink : tty.link with
    | none => rfl
    | some o =>
      obtain ⟨oTty, hoTty, _, _, _, _, hne⟩ := h.link htty hlink
      have hoTty' : (k.closed S filp t tty).tty o = _ := useLine_link hne hlink hoTty
      rw [Option.bind_some, Option.bind_some, hoTty, hoTty']
      rfl
  refine hok.used (sameSeats_closed htty) rfl ?_ ?_ ?_ ?_ ?_
  · rw [hheld]
    change countDown tty.count = ((tty.ttyFiles.erase filp).length : Int) + _
    rw [countDown_of_pos (by omega), hlen]
    omega
  · intro hmaster
    have hsingle := hok.single hmaster
    change (tty.ttyFiles.erase filp).length ≤ 1
    omega
  · exact hok.nodup.erase filp
  · intro hclosing
    change (tty.closing || decide (tty.count ≤ 1)) = true at hclosing
    rw [Bool.or_eq_true, decide_eq_true_iff] at hclosing
    rcases hclosing with hclosing | hle
    · rw [hok.closing hclosing] at hmem
      exact absurd hmem List.not_mem_nil
    · exact List.eq_nil_of_length_eq_zero (by
        change (tty.ttyFiles.erase filp).length = 0
        omega)
  · rcases closed_use h htty hmem with hfiles | hrel | ⟨o, oTty, ho, hoTty, hfiles⟩
    · exact .inl hfiles
    · exact .inr (.inl hrel)
    · obtain ⟨oTty', hoTty', _, _, _, _, hne⟩ := h.link htty ho
      exact .inr (.inr ⟨o, ho, .inr ⟨_, useLine_link hne ho hoTty, hfiles⟩⟩)

theorem Ok.closed_link {o : Nat} {oTty : TtyStruct} (h : Ok S k) (htty : k.tty t = some tty)
    (hmem : filp ∈ tty.ttyFiles) (ho : tty.link = some o) (hoTty : k.tty o = some oTty) :
    TtyOk S (k.closed S filp t tty) o (oTty.otherClosed (S.isMaster tty.driver)) := by
  have hok := h.ttyOk hoTty
  have hpos := List.length_pos_of_mem hmem
  have hlen := List.length_erase_of_mem hmem
  obtain ⟨oTty', hoTty', hd, hd', _, hback, hne⟩ := h.link htty ho
  rw [hoTty] at hoTty'
  cases hoTty'
  obtain ⟨hcount, hcount'⟩ := h.counts htty ho hoTty
  have hmaster : S.isMaster tty.driver = true → tty.ttyFiles.length = 1 := by
    intro hm
    have hsingle := (h.ttyOk htty).single (of_decide_eq_true hm)
    omega
  have hheld : held S (k.closed S filp t tty) (oTty.otherClosed (S.isMaster tty.driver)) =
      if S.isMaster tty.driver = true then (tty.ttyFiles.erase filp).length else 0 := by
    refine (held_link ?_ (useLine_self ..)).trans (if_congr (S.slave_iff hd).1 rfl rfl)
    exact hback
  refine hok.used (sameSeats_closed htty) rfl ?_ hok.single hok.nodup ?_ ?_
  · rw [hheld]
    change (if S.isMaster tty.driver = true then countDown oTty.count else oTty.count) =
      (oTty.ttyFiles.length : Int) + _
    cases hm : S.isMaster tty.driver with
    | true =>
      have hone := hmaster hm
      rw [hm, if_pos rfl] at hcount'
      rw [if_pos rfl, if_pos rfl, countDown_of_pos (by omega), hlen]
      omega
    | false =>
      rw [hm, if_neg Bool.false_ne_true] at hcount'
      rw [if_neg Bool.false_ne_true, if_neg Bool.false_ne_true]
      exact hcount'
  · intro hclosing
    change (oTty.closing || oTty.idle _) = true at hclosing
    rw [Bool.or_eq_true, TtyStruct.idle, decide_eq_true_iff] at hclosing
    rcases hclosing with hclosing | hle
    · exact hok.closing hclosing
    · refine List.eq_nil_of_length_eq_zero (?_ : oTty.ttyFiles.length = 0)
      cases hm : S.isMaster tty.driver with
      | true =>
        have hone := hmaster hm
        rw [hm, if_pos rfl] at hcount' hle
        omega
      | false =>
        rw [hm, if_neg Bool.false_ne_true] at hcount' hle
        omega
  · rcases closed_use h htty hmem with hfiles | hrel | ⟨o', oTty', ho', hoTty', hfiles⟩
    · exact .inr (.inr ⟨t, hback, .inr ⟨_, useLine_self .., hfiles⟩⟩)
    · exact .inr (.inr ⟨t, hback, .inl hrel⟩)
    · rw [ho] at ho'
      cases ho'
      rw [hoTty] at hoTty'
      cases hoTty'
      exact .inl hfiles

/-- **A close leaves everything in order.** -/
theorem Ok.closed (h : Ok S k) (htty : k.tty t = some tty) (hmem : filp ∈ tty.ttyFiles) :
    Ok S (k.closed S filp t tty) := by
  have hok := h.ttyOk htty
  obtain ⟨hreleasing, hreleasing'⟩ := h.not_releasing htty (hok.not_closing hmem)
  have hfile : k.privateData filp = some t := h.conduct.file.mpr ⟨tty, htty, hmem⟩
  have hold {x : Nat} (hx : x ∈ (k.closed S filp t tty).releasing) : x = t ∨ x ∈ k.releasing := by
    change x ∈ (if _ then t :: k.releasing else k.releasing) at hx
    split_ifs at hx
    · exact List.mem_cons.mp hx
    · exact .inr hx
  refine h.used (sameSeats_closed htty) (apart_closed h htty) ?_ ?_ ?_ ?_
  · intro x y' hy' hmates
    rcases useLine_cases hy' with ⟨rfl, rfl⟩ | ⟨hx, y, hy, hcases⟩
    · exact h.closed_self htty hmem
    · rcases hcases with ⟨hlink, rfl⟩ | ⟨hne, rfl⟩
      · exact h.closed_link htty hmem hlink hy
      · exact absurd ((h.mates htty hy hmates).resolve_left hx) hne
  · intro f x
    change Function.update k.privateData filp none f = some x ↔ _
    by_cases hf : f = filp
    · subst hf
      rw [Function.update_self]
      refine ⟨fun hnone => absurd hnone.symm (Option.some_ne_none x), ?_⟩
      rintro ⟨y', hy', hmem'⟩
      rcases useLine_cases hy' with ⟨rfl, rfl⟩ | ⟨hx, y, hy, hcases⟩
      · exact absurd hmem' hok.nodup.not_mem_erase
      · have hfiles : y'.ttyFiles = y.ttyFiles := by rcases hcases with ⟨_, rfl⟩ | ⟨_, rfl⟩ <;> rfl
        rw [hfiles] at hmem'
        have hfile' := h.conduct.file.mpr ⟨y, hy, hmem'⟩
        rw [hfile] at hfile'
        exact absurd (Option.some.inj hfile').symm hx
    · rw [Function.update_of_ne hf, h.conduct.file]
      constructor
      · rintro ⟨y, hy, hmem'⟩
        by_cases hx : x = t
        · subst hx
          rw [htty] at hy
          cases hy
          exact ⟨_, useLine_self .., (List.mem_erase_of_ne hf).mpr hmem'⟩
        · by_cases hlink : tty.link = some x
          · exact ⟨_, useLine_link hx hlink hy, hmem'⟩
          · exact ⟨y, (useLine_of_ne hx hlink).trans hy, hmem'⟩
      · rintro ⟨y', hy', hmem'⟩
        rcases useLine_cases hy' with ⟨rfl, rfl⟩ | ⟨_, y, hy, hcases⟩
        · exact ⟨tty, htty, List.mem_of_mem_erase hmem'⟩
        · rcases hcases with ⟨_, rfl⟩ | ⟨_, rfl⟩ <;> exact ⟨_, hy, hmem'⟩
  · intro x hx
    rcases hold hx with rfl | hx'
    · change x ∈ (if _ then x :: k.releasing else k.releasing) at hx
      split_ifs at hx with hlast
      · rw [Bool.and_eq_true] at hlast
        refine ⟨_, useLine_self .., ?_, fun o ho => ?_⟩
        · change (tty.closing || decide (tty.count ≤ 1)) = true
          rw [hlast.1, Bool.or_true]
        · change tty.link = some o at ho
          obtain ⟨oTty, hoTty, _, _, _, _, hne⟩ := h.link htty ho
          refine ⟨fun hmem' => (hold hmem').elim hne (hreleasing' o ho), fun oTty' hoTty' => ?_⟩
          cases (useLine_link hne ho hoTty).symm.trans hoTty'
          rw [ho, Option.bind_some, hoTty, Option.all_some] at hlast
          change (oTty.closing || oTty.idle _) = true
          rw [hlast.2, Bool.or_true]
      · exact absurd hx hreleasing
    · have hline : (k.closed S filp t tty).tty = useLine k.tty t tty (tty.closed filp)
          (TtyStruct.otherClosed (S.isMaster tty.driver)) := rfl
      obtain ⟨y, hy, hclosing, hlinks⟩ := h.releasing_use htty hline hreleasing hreleasing' hx'
      refine ⟨y, hy, hclosing, fun o ho => ?_⟩
      obtain ⟨hot, hmem', hother⟩ := hlinks o ho
      exact ⟨fun hnew => (hold hnew).elim hot hmem', hother⟩
  · change (if _ then t :: k.releasing else k.releasing).Nodup
    split_ifs
    · exact List.nodup_cons.mpr ⟨hreleasing, h.conduct.once⟩
    · exact h.conduct.once

end LinuxConsole.Tty
