import LinuxConsole.Jscal.Mapping

/-!
# The corrections and their axes

What `correct_axes` does to the corrections over any number of calls, and which
elements of its tables it touches.

A correction belongs to the code of its axis.  When the maps are rearrangements
of the codes of the device, `InPlace` says that every code still has the
correction that it had at the start; one call keeps it (`setMappings_inPlace`)
and so does any sequence of them (**`runMappings_inPlace`**).

With other maps the tables do not hold.  `accesses` lists what `correct_axes`
does to `axmes`, `ax` and `corr`, and **`accesses_sound_iff`** says that all of it
is in order exactly if the new map has codes of the old one only, and that no
code too large.
-/

namespace LinuxConsole.Jscal

variable {S : System}

/-! ### Any number of calls -/

/-- The joystick at the end. -/
def Outcome.joystick : Outcome S → Joystick S
  | .done d => d
  | .exit _ d => d
  | .fault d => d

/-- `set_mappings` again and again, each time with its own answers and argument. -/
def runMappings (d : Joystick S) : List ((Call → Bool) × Option Text) → Joystick S
  | [] => d
  | call :: calls => runMappings (setMappings call.1 d call.2).joystick calls

/-- **Every axis has the correction that its code had at the start.** -/
structure InPlace (start d : Joystick S) : Prop where
  codes : d.axmap.Perm start.axmap
  buttons : d.btnmap.length = start.btnmap.length
  corr : ∀ i j : Nat, i < d.axmap.length → d.axmap[i]? = start.axmap[j]? →
    d.corr[i]? = start.corr[j]?

theorem InPlace.start {d : Joystick S} (hnodup : d.axmap.Nodup) : InPlace d d := by
  refine ⟨.refl _, rfl, fun i j hi hij => ?_⟩
  rw [(List.getElem?_inj hi hnodup).mp hij]

/-- The argument, if it is read, asks for a rearrangement of the codes. -/
def Rearranges (d : Joystick S) (p : Option Text) : Prop :=
  ∀ m, d.Requests p m → m.axmap.Perm d.axmap

theorem InPlace.requests {start d : Joystick S} (h : InPlace start d) {p : Option Text}
    {m : Mappings} : d.Requests p m ↔ start.Requests p m := by
  rw [Joystick.Requests, Joystick.Requests, d.axes_eq, start.axes_eq, h.codes.length_eq,
    Joystick.buttons, Joystick.buttons, h.buttons]

theorem remappable_of_perm {old new : List (BitVec 8)} (hfit : ∀ c ∈ old, c.toNat ≤ S.absMax)
    (h : new.Perm old) : S.Remappable old new :=
  ⟨hfit, fun _ hc => h.mem_iff.mp hc⟩

/-- **One call moves the corrections with their axes.** -/
theorem InPlace.remapped {start d : Joystick S} (h : InPlace start d) {new : List (BitVec 8)}
    {cs : List Corr} (hfollow : Follows d.axmap new d.corr cs) {i j : Nat} (hi : i < new.length)
    (hij : new[i]? = start.axmap[j]?) : cs[i]? = start.corr[j]? := by
  obtain ⟨k, hcode, hcorr⟩ := hfollow i
  rw [hcorr]
  have hk : k < d.axmap.length := by
    rw [List.getElem?_eq_getElem hi] at hcode
    exact (List.getElem?_eq_some_iff.mp hcode).1
  exact h.corr k j hk (hcode.trans hij)

/-- **A call keeps every correction with its code**, whatever the answers to the
calls before `correct_axes` and after it. -/
theorem setMappings_inPlace {start d : Joystick S} (h : InPlace start d)
    (hfit : ∀ c ∈ start.axmap, c.toNat ≤ S.absMax)
    {ok : Call → Bool} (hok : ok .setAxmap → ok .getCorr ∧ ok .setCorr) {p : Option Text}
    (hp : Rearranges start p) : InPlace start (setMappings ok d p).joystick := by
  rw [setMappings.eq_def]
  split_ifs
  · exact h
  · exact h
  · cases p with
    | none => exact h
    | some t =>
      dsimp only
      cases hparse : S.parseMappings d.axes d.buttons t with
      | error e => cases e <;> exact h
      | ok m =>
        have hreq : d.Requests (some t) m := ⟨t, rfl, hparse⟩
        have hperm : m.axmap.Perm start.axmap := hp m (h.requests.mp hreq)
        have hlen : m.axmap.length = d.axmap.length := hreq.counts.1
        have hmap : (d.setAxmap m.axmap).axmap = m.axmap := setAxmap_axmap hlen
        have hfit' : ∀ c ∈ d.axmap, c.toNat ≤ S.absMax :=
          fun c hc => hfit c (h.codes.mem_iff.mp hc)
        obtain ⟨ax, hax⟩ := exists_remap
          (remappable_of_perm hfit' (hperm.trans h.codes.symm))
        obtain ⟨hcorrs, hfollow⟩ := moveCorr_follows hax d.corr_length
        dsimp only
        rw [applyMappings]
        split_ifs with hgetmap hsetmap
        · exact h
        · exact h
        · obtain ⟨hget, hset⟩ := hok (by simpa using hsetmap)
          rw [correctAxes, hmap, hax]
          dsimp only
          rw [if_neg (by simp [hget]), if_neg (by simp [hset])]
          have hmoved : InPlace start ((d.setAxmap m.axmap).setCorr (moveCorr d.corr ax)) := by
            have hcorr : ((d.setAxmap m.axmap).setCorr (moveCorr d.corr ax)).corr =
                moveCorr d.corr ax := setCorr_corr (by rw [hmap, hcorrs])
            refine ⟨?_, h.buttons, fun i j hi hij => ?_⟩
            · rw [show ((d.setAxmap m.axmap).setCorr (moveCorr d.corr ax)).axmap = m.axmap
                from hmap]
              exact hperm
            · rw [show ((d.setAxmap m.axmap).setCorr (moveCorr d.corr ax)).axmap = m.axmap
                from hmap] at hi hij
              rw [hcorr]
              exact h.remapped hfollow hi hij
          have hbuttons : ∀ bs, InPlace start
              (((d.setAxmap m.axmap).setCorr (moveCorr d.corr ax)).setBtnmap bs) := fun bs =>
            ⟨hmoved.codes, (length_firsts _ _ _).trans h.buttons, hmoved.corr⟩
          split_ifs
          · exact hmoved
          · exact hbuttons _
          · exact hmoved

/-- **Corrections follow their axes** over any number of calls.  The codes of the
driver are those of absolute axes, and `JSIOCGCORR` and `JSIOCSCORR` do not fail
where `JSIOCSAXMAP` has succeeded. -/
theorem runMappings_inPlace (d : Joystick S) (hnodup : d.axmap.Nodup)
    (hfit : ∀ c ∈ d.axmap, c.toNat ≤ S.absMax) (calls : List ((Call → Bool) × Option Text))
    (hok : ∀ call ∈ calls, call.1 .setAxmap → call.1 .getCorr ∧ call.1 .setCorr)
    (hcalls : ∀ call ∈ calls, Rearranges d call.2) : InPlace d (runMappings d calls) := by
  suffices h : ∀ d', InPlace d d' → InPlace d (runMappings d' calls) from h d (.start hnodup)
  induction calls with
  | nil => exact fun d' h => h
  | cons call calls ih =>
    intro d' h
    exact ih (fun c hc => hok c (List.mem_cons_of_mem _ hc))
      (fun c hc => hcalls c (List.mem_cons_of_mem _ hc)) _
      (setMappings_inPlace h hfit (hok call List.mem_cons_self) (hcalls call List.mem_cons_self))

/-- Three axes with a correction each. -/
def threeAxes : Joystick linux where
  axmap := [0, 1, 2]
  corr := [.ofValues 0 5 [], .ofValues 0 6 [], .ofValues 0 7 []]
  btnmap := []
  corr_length := rfl
  axes_le := by decide
  buttons_lt := by decide

/-- Every axis takes the place of the one before it. -/
def turn : (Call → Bool) × Option Text := (fun _ => true, some "3,1,2,0,0".toList)

theorem turn_rearranges : Rearranges threeAxes turn.2 := by
  rintro m ⟨t, ht, hm⟩
  obtain rfl := Option.some.inj ht
  have hparse : linux.parseMappings threeAxes.axes threeAxes.buttons "3,1,2,0,0".toList =
      .ok ⟨[1, 2, 0], 0, []⟩ := by decide +kernel
  obtain rfl := Except.ok.inj (hparse.symm.trans hm)
  decide

/-- Turned twice, the axes have their corrections. -/
theorem runMappings_inPlace_turn : InPlace threeAxes (runMappings threeAxes [turn, turn]) :=
  runMappings_inPlace threeAxes (by decide) (by decide) [turn, turn] (fun _ h _ => by
    rcases List.mem_cons.mp h with rfl | h
    · exact ⟨rfl, rfl⟩
    · rw [List.mem_singleton.mp h]
      exact ⟨rfl, rfl⟩) (fun _ h => by
    rcases List.mem_cons.mp h with rfl | h
    · exact turn_rearranges
    · rw [List.mem_singleton.mp h]
      exact turn_rearranges)

/-! ### The tables -/

/-- What `correct_axes` does to an element of `axmes`, `ax` or `corr`: `set` says
whether the element of `axmes` has been written, and the subscript of `corr` is
`none` where it comes from an element that has not. -/
inductive Access
  | setAxmes (c : Nat)
  | getAxmes (c : Nat) (set : Bool)
  | setAx (i : Nat)
  | getAx (i : Nat)
  | getCorr (j : Option Nat)

/-- **The access is in order**, with so many axes. -/
def Access.Sound (S : System) (axes : Nat) : Access → Prop
  | .setAxmes c => c ≤ S.absMax
  | .getAxmes c set => c ≤ S.absMax ∧ set
  | .setAx i => i < axes
  | .getAx i => i < axes
  | .getCorr j => ∃ k, j = some k ∧ k < axes

/-- `axmes` after the first loop, without regard to its size. -/
def fillAxmes (table : Nat → Option Nat) : Nat → List (BitVec 8) → Nat → Option Nat
  | _, [] => table
  | i, c :: cs => fillAxmes (Function.update table c.toNat (some i)) (i + 1) cs

/-- What `correct_axes` does to its tables, loop by loop; `old` is `axmap2` and
`new` is `axmap`. -/
def accesses (old new : List (BitVec 8)) : List Access :=
  let axmes := fillAxmes (fun _ => none) 0 old
  old.map (fun c => .setAxmes c.toNat) ++
    new.zipIdx.flatMap (fun c => [.getAxmes c.1.toNat (axmes c.1.toNat).isSome, .setAx c.2]) ++
    new.zipIdx.flatMap fun c => [.getAx c.2, .getCorr (axmes c.1.toNat)]

theorem fillAxmes_eq {cs : List (BitVec 8)} : ∀ {table t : Nat → Option Nat} {i : Nat},
    S.axmes table i cs = some t → fillAxmes table i cs = t := by
  induction cs with
  | nil => exact fun h => Option.some.inj h
  | cons c cs ih =>
    intro table t i h
    rw [System.axmes] at h
    split at h
    · exact ih h
    · contradiction

theorem fillAxmes_spec {old : List (BitVec 8)} (hfit : ∀ c ∈ old, c.toNat ≤ S.absMax) :
    (∀ x j, fillAxmes (fun _ => none) 0 old x = some j →
      j < old.length ∧ ∃ c ∈ old, c.toNat = x) ∧
      ∀ c ∈ old, (fillAxmes (fun _ => none) 0 old c.toNat).isSome := by
  obtain ⟨t, ht⟩ := exists_axmes (S := S) hfit (fun _ => none) 0
  rw [fillAxmes_eq ht]
  obtain ⟨-, hfrom, hset, -⟩ := axmes_spec ht
  refine ⟨fun x j hj => ?_, fun c hc => Option.isSome_iff_ne_none.mpr (hset c hc)⟩
  rcases hfrom x j hj with ⟨k, c, hk, hx, rfl⟩ | hnone
  · have hlt := (List.getElem?_eq_some_iff.mp hk).1
    exact ⟨by omega, c, List.mem_of_getElem? hk, hx⟩
  · contradiction

/-- **The tables hold** exactly if no code of the device is too large and the
argument asks for codes of the device only. -/
theorem accesses_sound_iff {d : Joystick S} {p : Option Text} {m : Mappings}
    (h : d.Requests p m) :
    (∀ a ∈ accesses d.axmap m.axmap, a.Sound S d.axmap.length) ↔
      S.Remappable d.axmap m.axmap := by
  have hlen : m.axmap.length = d.axmap.length := h.counts.1
  constructor
  · intro hsound
    have hfit : ∀ c ∈ d.axmap, c.toNat ≤ S.absMax := fun c hc => hsound (.setAxmes c.toNat) <| by
      rw [accesses, List.append_assoc]
      exact List.mem_append_left _ (List.mem_map.mpr ⟨c, hc, rfl⟩)
    refine ⟨hfit, fun c hc => ?_⟩
    obtain ⟨i, hi, hci⟩ := List.getElem_of_mem hc
    have hzip : (c, i) ∈ m.axmap.zipIdx := by
      rw [List.mem_zipIdx_iff_getElem?, List.getElem?_eq_getElem hi, hci]
    obtain ⟨-, hwritten⟩ := hsound
      (.getAxmes c.toNat (fillAxmes (fun _ => none) 0 d.axmap c.toNat).isSome) <| by
        rw [accesses]
        refine List.mem_append_left _ (List.mem_append_right _ ?_)
        exact List.mem_flatMap.mpr ⟨(c, i), hzip, List.mem_cons_self⟩
    obtain ⟨j, hj⟩ := Option.isSome_iff_exists.mp hwritten
    obtain ⟨-, c', hc', heq⟩ := (fillAxmes_spec hfit).1 _ _ hj
    rw [← BitVec.eq_of_toNat_eq heq]
    exact hc'
  · rintro ⟨hfit, hcodes⟩ a ha
    obtain ⟨hplace, hset⟩ := fillAxmes_spec hfit
    have hindex : ∀ c ∈ m.axmap.zipIdx, c.2 < d.axmap.length ∧ c.1 ∈ d.axmap := by
      intro c hc
      have hget := List.mem_zipIdx_iff_getElem?.mp hc
      rw [← hlen]
      exact ⟨(List.getElem?_eq_some_iff.mp hget).1, hcodes _ (List.mem_of_getElem? hget)⟩
    rw [accesses] at ha
    rcases List.mem_append.mp ha with ha | ha
    · rcases List.mem_append.mp ha with ha | ha
      · obtain ⟨c, hc, rfl⟩ := List.mem_map.mp ha
        exact hfit c hc
      · obtain ⟨c, hc, ha⟩ := List.mem_flatMap.mp ha
        obtain ⟨hi, hmem⟩ := hindex c hc
        rcases List.mem_cons.mp ha with rfl | ha
        · exact ⟨hfit _ hmem, hset _ hmem⟩
        · rw [List.mem_singleton.mp ha]
          exact hi
    · obtain ⟨c, hc, ha⟩ := List.mem_flatMap.mp ha
      obtain ⟨hi, hmem⟩ := hindex c hc
      rcases List.mem_cons.mp ha with rfl | ha
      · exact hi
      · rw [List.mem_singleton.mp ha]
        obtain ⟨j, hj⟩ := Option.isSome_iff_exists.mp (hset _ hmem)
        exact ⟨j, hj, (hplace _ _ hj).1⟩

theorem remap_iff_sound {d : Joystick S} {p : Option Text} {m : Mappings}
    (h : d.Requests p m) : (∃ ax, S.remap d.axmap m.axmap = some ax) ↔
      ∀ a ∈ accesses d.axmap m.axmap, a.Sound S d.axmap.length := by
  rw [accesses_sound_iff h]
  exact ⟨fun ⟨_, hax⟩ => (remap_spec hax).1, exists_remap⟩

/-- A code that the device does not have is accepted, and its element of `axmes`
is read although it has not been written; so is `ABS_MAX` + 1, which is no
subscript of `axmes`. -/
theorem accesses_not_sound :
    (twoAxes.Requests (some "2,0,5,0".toList) ⟨[0, 5], 0, []⟩ ∧
      ¬∀ a ∈ accesses twoAxes.axmap [0, 5], a.Sound linux twoAxes.axmap.length) ∧
    twoAxes.Requests (some "2,0,64,0".toList) ⟨[0, 64], 0, []⟩ ∧
      ¬∀ a ∈ accesses twoAxes.axmap [0, 64], a.Sound linux twoAxes.axmap.length := by
  refine ⟨⟨⟨_, rfl, by decide +kernel⟩, fun h => ?_⟩, ⟨_, rfl, by decide +kernel⟩, fun h => ?_⟩
  · exact absurd (h (.getAxmes 5 false) (by simp [accesses, fillAxmes, twoAxes])).2 (by decide)
  · exact absurd (h (.getAxmes 64 false) (by simp [accesses, fillAxmes, twoAxes])).1 (by decide)

/-- Two axes that change places. -/
theorem accesses_sound_swap :
    twoAxes.Requests (some "2,1,0,0".toList) ⟨[1, 0], 0, []⟩ ∧
      ∀ a ∈ accesses twoAxes.axmap [1, 0], a.Sound linux twoAxes.axmap.length := by
  have hreq : twoAxes.Requests (some "2,1,0,0".toList) ⟨[1, 0], 0, []⟩ :=
    ⟨_, rfl, by decide +kernel⟩
  exact ⟨hreq, (accesses_sound_iff hreq).mpr ⟨by decide, by decide⟩⟩

end LinuxConsole.Jscal
