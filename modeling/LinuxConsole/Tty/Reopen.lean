import LinuxConsole.Tty.Use

/-!
# Opening a line that is open

The label `fast_track` of `init_dev`: a line whose struct is there gets one more file, unless the
struct is on its way out or is a master that is open.
-/

namespace LinuxConsole.Tty

variable {S : Drivers} {k : Kernel} {t filp : Nat} {tty : TtyStruct}

/-- A file is attached to a struct. -/
def Kernel.attach (k : Kernel) (filp t : Nat) (tty : TtyStruct) : Kernel :=
  (k.setFile filp (some t)).put t (some { tty with ttyFiles := filp :: tty.ttyFiles })

/-- **The struct waits for the file that opens it.** -/
def Opened (S : Drivers) (k : Kernel) (t : Nat) : Prop :=
  ∃ tty, k.tty t = some tty ∧ ∀ filp, k.privateData filp = none → Ok S (k.attach filp t tty)

theorem attach_run (htty : k.tty t = some tty) :
    ((modify (·.setFile filp (some t)) : K Unit) >>= fun _ =>
      store t fun tty => { tty with ttyFiles := filp :: tty.ttyFiles }).run k =
        some (⟨⟩, k.attach filp t tty) := by
  rw [bind_run (modify_run ..), store_run ((congrFun (setFile_tty ..) t).trans htty)]
  rfl

/-! ### One more use -/

/-- The struct with one open more. -/
def TtyStruct.more (tty : TtyStruct) : TtyStruct := { tty with count := tty.count + 1 }

/-- The other side of a struct with one open more. -/
def TtyStruct.otherMore (ptyMaster : Bool) (oTty : TtyStruct) : TtyStruct :=
  if ptyMaster then oTty.more else oTty

/-- The state that `fast_track` leaves. -/
def Kernel.reopened (S : Drivers) (k : Kernel) (t : Nat) (tty : TtyStruct) : Kernel :=
  { k with tty := useLine k.tty t tty tty.more (TtyStruct.otherMore (S.isMaster tty.driver)) }

/-- It refuses. -/
def refuses (S : Drivers) (tty : TtyStruct) : Bool :=
  tty.closing || (S.isMaster tty.driver && decide (tty.count ≠ 0))

theorem fastTrack_run (h : Ok S k) (htty : k.tty t = some tty) :
    (fastTrack S tty.driver t).run k =
      if refuses S tty then some (.error EIO, k) else some (.ok t, k.reopened S t tty) := by
  rw [fastTrack, bind_run (load_run htty), refuses]
  cases hclosing : tty.closing with
  | true => rfl
  | false =>
    rw [if_neg Bool.false_ne_true, Bool.false_or]
    cases hm : S.isMaster tty.driver with
    | false =>
      rw [if_neg (of_decide_eq_false hm), bind_run (store_run htty _), Bool.false_and,
        if_neg Bool.false_ne_true]
      refine congrArg (fun s => some (Except.ok t, s)) (Kernel.ext (funext fun x => ?_) rfl rfl rfl
        rfl rfl rfl rfl rfl rfl)
      change _ = useLine k.tty t tty tty.more (TtyStruct.otherMore (S.isMaster tty.driver)) x
      by_cases hx : x = t
      · rw [hx, useLine_self, put_tty_self]
        rfl
      · rw [put_tty_of_ne hx, useLine, if_neg hx, hm]
        split_ifs
        · exact (Option.map_id' ..).symm
        · rfl
    | true =>
      rw [if_pos (of_decide_eq_true hm), Bool.true_and]
      by_cases hcount : tty.count ≠ 0
      · rw [if_pos hcount, decide_eq_true hcount, if_pos rfl]
        rfl
      · have hother : (S.drv tty.driver).other ≠ none := by
          rw [Ne, S.other_none, of_decide_eq_true hm]
          exact Option.some_ne_none _
        obtain ⟨o, ho⟩ := Option.isSome_iff_exists.mp
          ((h.ttyOk htty).paired (Option.isSome_iff_ne_none.mpr hother))
        obtain ⟨oTty, hoTty, _, _, _, _, hne⟩ := h.link htty ho
        rw [if_neg hcount, decide_eq_false hcount, if_neg Bool.false_ne_true,
          bind_run (deref_run ho), bind_run (store_run hoTty _),
          bind_run (store_run ((put_tty_of_ne hne.symm ..).trans htty) _)]
        refine congrArg (fun s => some (Except.ok t, s)) (Kernel.ext (funext fun x => ?_) rfl rfl
          rfl rfl rfl rfl rfl rfl rfl)
        change _ = useLine k.tty t tty tty.more (TtyStruct.otherMore (S.isMaster tty.driver)) x
        by_cases hx : x = t
        · rw [hx, useLine_self, put_tty_self]
          rfl
        · rw [put_tty_of_ne hx]
          by_cases hxo : x = o
          · rw [hxo, put_tty_self, useLine_link hne ho hoTty, hm]
            rfl
          · rw [put_tty_of_ne hxo,
              useLine_of_ne hx fun heq => hxo (Option.some.inj (ho.symm.trans heq)).symm]

/-! ### The invariant -/

/-- The struct with the file. -/
def TtyStruct.opened (filp : Nat) (tty : TtyStruct) : TtyStruct :=
  { tty.more with ttyFiles := filp :: tty.ttyFiles }

theorem attach_reopened_tty (S : Drivers) (k : Kernel) (filp t : Nat) (tty : TtyStruct) :
    ((k.reopened S t tty).attach filp t tty.more).tty =
      useLine k.tty t tty (tty.opened filp) (TtyStruct.otherMore (S.isMaster tty.driver)) := by
  funext x
  rw [Kernel.attach]
  by_cases hx : x = t
  · rw [hx, put_tty_self, useLine_self]
    rfl
  · rw [put_tty_of_ne hx, setFile_tty]
    change useLine k.tty t tty tty.more _ x = _
    rw [useLine, useLine, if_neg hx, if_neg hx]

theorem otherMore_fixed (ptyMaster : Bool) (oTty : TtyStruct) :
    (oTty.otherMore ptyMaster).fixed = oTty.fixed := by
  cases ptyMaster <;> rfl

theorem otherMore_files (ptyMaster : Bool) (oTty : TtyStruct) :
    (oTty.otherMore ptyMaster).ttyFiles = oTty.ttyFiles ∧
      (oTty.otherMore ptyMaster).closing = oTty.closing := by
  cases ptyMaster <;> exact ⟨rfl, rfl⟩

section Reopened

variable {k' : Kernel}

/-- The struct itself. -/
theorem Ok.reopened_self (h : Ok S k) (htty : k.tty t = some tty) (hsame : SameSeats k k')
    (hline : k'.tty = useLine k.tty t tty (tty.opened filp)
      (TtyStruct.otherMore (S.isMaster tty.driver)))
    (hopen : refuses S tty = false) (hnew : k.privateData filp = none) :
    TtyOk S k' t (tty.opened filp) := by
  have hok := h.ttyOk htty
  have hcount := hok.count
  rw [refuses, Bool.or_eq_false_iff] at hopen
  have hheld : held S k' (tty.opened filp) = held S k tty := by
    rw [held, held, hline]
    change (if _ then (tty.link.bind _).elim 0 _ else 0) = _
    cases hlink : tty.link with
    | none => rfl
    | some o =>
      obtain ⟨oTty, hoTty, _, _, _, _, hne⟩ := h.link htty hlink
      rw [Option.bind_some, Option.bind_some, hoTty, useLine_link hne hlink hoTty, Option.elim_some,
        Option.elim_some, (otherMore_files _ oTty).1]
      rfl
  refine hok.used hsame rfl ?_ ?_ ?_ ?_ ?_
  · rw [hheld]
    change tty.count + 1 = ((filp :: tty.ttyFiles).length : Int) + _
    rw [List.length_cons]
    push_cast
    omega
  · intro hmaster
    have hm : S.isMaster tty.driver = true := decide_eq_true hmaster
    rw [hm, Bool.true_and, decide_eq_false_iff_not, not_not] at hopen
    change (filp :: tty.ttyFiles).length ≤ 1
    rw [List.length_cons]
    omega
  · refine List.nodup_cons.mpr ⟨fun hmem => ?_, hok.nodup⟩
    rw [h.conduct.file.mpr ⟨tty, htty, hmem⟩] at hnew
    cases hnew
  · intro hclosing
    exact absurd (hopen.1.symm.trans hclosing) Bool.false_ne_true
  · exact .inl (List.cons_ne_nil _ _)

theorem Ok.reopened_link {o : Nat} {oTty : TtyStruct} (h : Ok S k) (htty : k.tty t = some tty)
    (hsame : SameSeats k k') (hline : k'.tty = useLine k.tty t tty (tty.opened filp)
      (TtyStruct.otherMore (S.isMaster tty.driver)))
    (ho : tty.link = some o) (hoTty : k.tty o = some oTty) :
    TtyOk S k' o (oTty.otherMore (S.isMaster tty.driver)) := by
  have hok := h.ttyOk hoTty
  obtain ⟨oTty', hoTty', hd, _, _, hback, _⟩ := h.link htty ho
  rw [hoTty] at hoTty'
  cases hoTty'
  obtain ⟨hcount, hcount'⟩ := h.counts htty ho hoTty
  obtain ⟨hfiles, hclosing⟩ := otherMore_files (S.isMaster tty.driver) oTty
  obtain ⟨hdriver, _, hlink, _⟩ := TtyStruct.fixed_eq (otherMore_fixed (S.isMaster tty.driver) oTty)
  have hself : k'.tty t = some (tty.opened filp) := by rw [hline, useLine_self]
  have hheld : held S k' (oTty.otherMore (S.isMaster tty.driver)) =
      if S.isMaster tty.driver = true then tty.ttyFiles.length + 1 else 0 := by
    rw [held_link (hlink.trans hback) hself, hdriver]
    exact if_congr (S.slave_iff hd).1 rfl rfl
  refine hok.used hsame (otherMore_fixed ..) ?_ ?_ ?_ ?_ ?_
  · rw [hheld, hfiles]
    cases hm : S.isMaster tty.driver with
    | true =>
      rw [hm, if_pos rfl] at hcount'
      change oTty.count + 1 = _
      rw [if_pos rfl]
      push_cast
      omega
    | false =>
      rw [hm, if_neg Bool.false_ne_true] at hcount'
      rw [if_neg Bool.false_ne_true]
      exact hcount'
  · rw [hfiles]
    exact hok.single
  · rw [hfiles]
    exact hok.nodup
  · rw [hfiles, hclosing]
    exact hok.closing
  · exact .inr (.inr ⟨t, hlink.trans hback, .inr ⟨_, hself, List.cons_ne_nil _ _⟩⟩)

end Reopened

/-- **The line is in order once the file is attached.** -/
theorem Ok.reopened (h : Ok S k) (htty : k.tty t = some tty) (hopen : refuses S tty = false) :
    Opened S (k.reopened S t tty) t := by
  refine ⟨tty.more, useLine_self .., fun filp hnew => ?_⟩
  have hline := attach_reopened_tty S k filp t tty
  have hsame : SameSeats k ((k.reopened S t tty).attach filp t tty.more) := by
    refine ⟨fun x => ?_, rfl, rfl, rfl, rfl, rfl, rfl, rfl⟩
    rw [hline]
    exact useLine_fixed htty (by rfl) (otherMore_fixed _) x
  have hclosing : tty.closing ≠ true := by
    rw [refuses, Bool.or_eq_false_iff] at hopen
    rw [hopen.1]
    exact Bool.false_ne_true
  obtain ⟨ht, hlink⟩ := h.not_releasing htty hclosing
  refine h.used hsame (h.apart_use htty hline rfl (otherMore_fixed _) rfl fun _ => Iff.rfl) ?_ ?_ ?_
    h.conduct.once
  · intro x y' hy' hmates
    rw [hline] at hy'
    rcases useLine_cases hy' with ⟨rfl, rfl⟩ | ⟨hx, y, hy, hcases⟩
    · exact h.reopened_self htty hsame hline hopen hnew
    · rcases hcases with ⟨ho, rfl⟩ | ⟨hne, rfl⟩
      · exact h.reopened_link htty hsame hline ho hy
      · exact absurd ((h.mates htty hy hmates).resolve_left hx) hne
  · intro f x
    rw [hline]
    change Function.update k.privateData filp (some t) f = some x ↔ _
    by_cases hf : f = filp
    · subst hf
      rw [Function.update_self]
      constructor
      · intro heq
        cases heq
        exact ⟨_, useLine_self .., List.mem_cons_self⟩
      · rintro ⟨y', hy', hmem⟩
        rcases useLine_cases hy' with ⟨rfl, _⟩ | ⟨_, y, hy, hcases⟩
        · rfl
        · have hfiles : y'.ttyFiles = y.ttyFiles := by
            rcases hcases with ⟨_, rfl⟩ | ⟨_, rfl⟩
            · exact (otherMore_files _ y).1
            · rfl
          rw [hfiles] at hmem
          have hold := h.conduct.file.mpr ⟨y, hy, hmem⟩
          change k.privateData f = none at hnew
          rw [hnew] at hold
          cases hold
    · rw [Function.update_of_ne hf, h.conduct.file]
      constructor
      · rintro ⟨y, hy, hmem⟩
        by_cases hx : x = t
        · subst hx
          rw [htty] at hy
          cases hy
          exact ⟨_, useLine_self .., List.mem_cons_of_mem _ hmem⟩
        · by_cases hlink : tty.link = some x
          · exact ⟨_, useLine_link hx hlink hy, by rwa [(otherMore_files _ y).1]⟩
          · exact ⟨y, (useLine_of_ne hx hlink).trans hy, hmem⟩
      · rintro ⟨y', hy', hmem⟩
        rcases useLine_cases hy' with ⟨rfl, rfl⟩ | ⟨_, y, hy, hcases⟩
        · exact ⟨tty, htty, (List.mem_cons.mp hmem).resolve_left hf⟩
        · rcases hcases with ⟨_, rfl⟩ | ⟨_, rfl⟩
          · rw [(otherMore_files _ y).1] at hmem
            exact ⟨y, hy, hmem⟩
          · exact ⟨_, hy, hmem⟩
  · intro x hx
    obtain ⟨y, hy, hclosing', hlinks⟩ := h.releasing_use htty hline ht hlink hx
    exact ⟨y, hy, hclosing', fun o ho => (hlinks o ho).2⟩

end LinuxConsole.Tty
