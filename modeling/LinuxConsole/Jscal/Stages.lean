import LinuxConsole.Jscal.Course
import LinuxConsole.Lib.Attempt

/-!
# A calibration goes through its course

Each stage of `calibrate` keeps to the walk that the course has for it: `Desk.At` relates the
variables to how far the walk has come.  While a position is held, `Desk.Holds` says that what is
kept of it is what has been seen so far.  **`calibration_goesThrough`** puts the stages together.
-/

namespace LinuxConsole.Jscal

open Lib

variable {clock : Clock} {M : Shifts} {polls : List Ready} {n : Nat} {s : Desk} {w : Walk}

/-! ### The program -/

/-- **The state of a walk.** -/
structure Desk.At (M : Shifts) (polls : List Ready) (s : Desk) (w : Walk) : Prop
    extends s.After M polls w.polls where
  reads : s.reads = w.reads
  b : s.b = w.b
  corda : ∀ q, w.held q ≠ [] → Summarises (s.corda q.1 q.2) (w.held q)

theorem Desk.After.polls_eq_nil (h : s.After M polls n) : s.polls = [] ↔ polls.length ≤ n := by
  rw [h.left, List.drop_eq_nil_iff]

theorem waitEvent_keeps :
    KeepsTo (Desk.At M polls) (Desk.At M polls) .waiting (waitEvent M) w (w.poll polls) := by
  intro s hs
  rw [Walk.poll]
  rcases hpolls : s.polls with _ | ⟨r, l⟩
  · have hge := hs.polls_eq_nil.mp hpolls
    rw [if_neg (by omega)]
    refine ⟨s, ?_⟩
    simp only [waitEvent, ExceptT.run, hpolls]
  · have hdrop := hs.left.symm.trans hpolls
    rw [if_pos (drop_succ hdrop).2]
    refine ⟨(), s.poll M r l, ?_, ⟨hs.toAfter.poll hdrop, hs.reads, hs.b, hs.corda⟩⟩
    simp only [waitEvent, ExceptT.run, hpolls]

/-! ### Until something is so -/

theorem firstFrom_of_lt {p : Nat → Bool} (h : polls.length < n) : firstFrom polls p n = none := by
  rw [firstFrom, Nat.sub_eq_zero_of_le h]
  rfl

theorem firstFrom_of_le (p : Nat → Bool) (h : n ≤ polls.length) :
    firstFrom polls p n = if p n then some n else firstFrom polls p (n + 1) := by
  rw [firstFrom, firstFrom, show polls.length + 1 - n = polls.length + 1 - (n + 1) + 1 by omega,
    List.range'_succ, List.find?_cons]
  cases p n <;> rfl

theorem waitWhile_run {c : Desk → Bool} {p : Nat → Bool} {b : BitVec 32}
    (hc : ∀ n (s : Desk), s.After M polls n → s.b = b → c s = !p n) :
    ∀ (l : List Ready) {n : Nat} {s : Desk}, s.After M polls n → s.b = b → s.polls = l →
      match firstFrom polls p n with
      | none => ∃ s', waitWhile M c l s = (.error .waiting, s')
      | some m => ∃ s' : Desk, waitWhile M c l s = (.ok (), s') ∧ s'.After M polls m ∧
          s'.reads = s.reads ∧ s'.b = b ∧ s'.corda = s.corda := by
  intro l
  induction l with
  | nil =>
    intro n s hs hb hl
    have hge := hs.polls_eq_nil.mp hl
    rw [firstFrom_of_le p hs.le, firstFrom_of_lt (Nat.lt_succ_of_le hge), waitWhile, hc n s hs hb]
    cases p n with
    | true => exact ⟨s, rfl, hs, rfl, hb, rfl⟩
    | false => exact ⟨s, rfl⟩
  | cons r l ih =>
    intro n s hs hb hl
    rw [firstFrom_of_le p hs.le, waitWhile, hc n s hs hb]
    cases p n with
    | true => exact ⟨s, rfl, hs, rfl, hb, rfl⟩
    | false => exact ih (hs.poll (hs.left.symm.trans hl)) hb rfl

theorem waitWhile_keeps {c : Desk → Bool} {p : Nat → Bool}
    (hc : ∀ n (s : Desk), s.After M polls n → s.b = w.b → c s = !p n) :
    KeepsTo (Desk.At M polls) (Desk.At M polls) .waiting
      (fun s => waitWhile M c s.polls s : Prog Unit) w (w.until polls p) := by
  intro s hs
  have hrun := waitWhile_run hc s.polls hs.toAfter hs.b rfl
  rw [Walk.until]
  cases hfirst : firstFrom polls p w.polls with
  | none =>
    rw [hfirst] at hrun
    exact hrun
  | some m =>
    rw [hfirst] at hrun
    obtain ⟨s', hrun, hs', hreads, hb, hcorda⟩ := hrun
    exact ⟨(), s', hrun, hs', hreads.trans hs.reads, hb, fun q hq => hcorda ▸ hs.corda q hq⟩

/-! ### The stages -/

theorem settle_keeps :
    KeepsTo (Desk.At M polls) (Desk.At M polls) .waiting (settle clock M) w
      (w.poll polls >>= fun w => w.through clock polls w.settling) := by
  refine keepsTo_bind waitEvent_keeps fun _ w _ s hs => ?_
  have hwatch : Watch.start clock s.reads = w.settling.watch clock 0 := by
    rw [hs.reads]
    rfl
  change Reaches _ _ (timedLoop clock M w.settling.span (fun _ => true) id id s.polls s
    (.start clock s.reads)) _
  rw [hwatch]
  refine through_reaches (J := fun i s => s.After M polls (w.polls + i) ∧ s.b = w.b ∧
    ∀ q, w.held q ≠ [] → Summarises (s.corda q.1 q.2) (w.held q)) ?_ ?_ ?_ ?_ ?_
  · exact fun i s hs => hs.1
  · exact fun i s _ => rfl
  · rintro i s r l ⟨hs, hb, hcorda⟩ hdrop p rfl
    exact ⟨⟨hs.poll hdrop, hb, hcorda⟩, (watch_succ w.settling i).symm⟩
  · rintro k s ⟨hs, hb, hcorda⟩
    exact ⟨⟨hs.le, hs.left, hs.js⟩, rfl, hb, hcorda⟩
  · exact ⟨hs.toAfter, hs.b, hs.corda⟩

theorem extremes_range_succ (m n i : Nat) : extremes M polls (List.range (m + 1)) n i =
    extremes M polls (List.range m) n i + extremes M polls [m] n i := by
  rw [extremes, extremes, extremes, List.range_succ, List.filter_append, List.length_append]

theorem seeAxes_succ (m : Nat) (p : Desk × Watch) :
    seeAxes clock (m + 1) p =
      let q := seeAxes clock m p
      let look := (q.1.extent m).track clock q.2 (q.1.axis m)
      ({ q.1 with extent := Function.update q.1.extent m look.1 }, look.2) := by
  rw [seeAxes, List.range_succ, List.foldl_append]
  rfl

/-- **A round** looks for the extremes of all axes. -/
theorem seeAxes_spec (clock : Clock) {axes n k : Nat} {s : Desk}
    (hs : s.After M polls (n + k)) (watch : Watch)
    (h : ∀ a < axes, Summarises (s.extent a) (seenFrom M polls a n k)) :
    ∃ extent, seeAxes clock axes (s, watch) =
        ({ s with extent := extent },
          watch.resets clock (extremes M polls (List.range axes) n (n + k))) ∧
      ∀ a < axes, Summarises (extent a) (seenFrom M polls a n (k + 1)) := by
  suffices hpart : ∀ m ≤ axes, ∃ extent, seeAxes clock m (s, watch) =
        ({ s with extent := extent },
          watch.resets clock (extremes M polls (List.range m) n (n + k))) ∧
      (∀ a < m, Summarises (extent a) (seenFrom M polls a n (k + 1))) ∧
      ∀ a, m ≤ a → extent a = s.extent a by
    obtain ⟨extent, hsee, hseen, -⟩ := hpart axes le_rfl
    exact ⟨extent, hsee, hseen⟩
  intro m hm
  induction m with
  | zero => exact ⟨s.extent, rfl, fun a ha => absurd ha (Nat.not_lt_zero a), fun _ _ => rfl⟩
  | succ m ih =>
    obtain ⟨extent, hsee, hseen, hunseen⟩ := ih (by omega)
    have hlook := (h m hm).look clock
      (watch.resets clock (extremes M polls (List.range m) n (n + k)))
    rw [← hs.axis m, ← hunseen m le_rfl] at hlook
    refine ⟨Function.update extent m ((extent m).track clock
      (watch.resets clock (extremes M polls (List.range m) n (n + k))) (s.axis m)).1,
      ?_, fun a ha => ?_, fun a ha => ?_⟩
    · rw [seeAxes_succ, hsee, extremes_range_succ, ← resets_add]
      exact Prod.ext rfl hlook.2
    · by_cases hlast : a = m
      · rw [hlast, Function.update_self]
        exact hlook.1
      · rw [Function.update_of_ne hlast]
        exact hseen a (by omega)
    · rw [Function.update_of_ne (by omega)]
      exact hunseen a (by omega)

theorem start_resets (n m : Nat) :
    (Watch.start clock n).resets clock m = ⟨getTime (clock (n + m)), n + 1 + m⟩ := by
  induction m with
  | zero => rfl
  | succ m ih =>
    rw [Watch.resets, ih]
    exact congrArg (fun k => (⟨getTime (clock k), n + 1 + (m + 1)⟩ : Watch))
      (show n + 1 + m = n + (m + 1) by omega)

/-- **The precision** is measured from the event before the watch on. -/
theorem watchAxes_keeps (axes : Nat) :
    KeepsTo (fun s w => s.At M polls w ∧
        ∀ a < axes, Summarises (s.extent a) (seenFrom M polls a w.polls 1))
      (Desk.At M polls) .waiting (watchAxes clock M axes) w
      (w.poll polls >>= fun _ => w.through clock polls (w.watching M polls axes)) := by
  rintro s ⟨hs, hextent⟩
  rcases hpolls : s.polls with _ | ⟨r, l⟩
  · have hge := hs.polls_eq_nil.mp hpolls
    rw [Walk.poll, if_neg (by omega)]
    refine ⟨{ s with reads := (Watch.start clock s.reads).reads }, ?_⟩
    simp only [watchAxes, ExceptT.run, hpolls]
  · have hdrop := hs.left.symm.trans hpolls
    have hpoll := hs.toAfter.poll hdrop
    obtain ⟨extent, hsee, hseen⟩ := seeAxes_spec clock (k := 1) hpoll
      (Watch.start clock s.reads) (s := s.poll M r l) hextent
    have hrun : (watchAxes clock M axes).run s =
        timedLoop clock M 4000 (fun _ => true) id (seeAxes clock axes) l
          (seeAxes clock axes (s.poll M r l, Watch.start clock s.reads)).1
          (seeAxes clock axes (s.poll M r l, Watch.start clock s.reads)).2 := by
      simp only [watchAxes, ExceptT.run, hpolls]
    have hwatch : (Watch.start clock s.reads).resets clock
        (extremes M polls (List.range axes) w.polls (w.polls + 1)) =
          (w.watching M polls axes).watch clock 0 := by
      rw [start_resets, hs.reads]
      rfl
    rw [Walk.poll, if_pos (drop_succ hdrop).2, hrun, hsee, hwatch]
    refine through_reaches (s := { s.poll M r l with extent := extent })
      (J := fun i s => s.After M polls (w.polls + 1 + i) ∧ s.b = w.b ∧
        (∀ q, w.held q ≠ [] → Summarises (s.corda q.1 q.2) (w.held q)) ∧
        ∀ a < axes, Summarises (s.extent a) (seenFrom M polls a w.polls (i + 2))) ?_ ?_ ?_ ?_ ?_
    · exact fun i s hs => hs.1
    · exact fun i s _ => rfl
    · rintro i s r l ⟨hs, hb, hcorda, hseen⟩ hdrop p rfl
      have hnext := hs.poll hdrop
      rw [show w.polls + 1 + i + 1 = w.polls + (i + 2) by omega] at hnext
      obtain ⟨extent, hsee, hseen'⟩ := seeAxes_spec clock hnext
        ((w.watching M polls axes).watch clock i).read hseen
      dsimp only [id]
      rw [hsee, watch_succ]
      refine ⟨⟨?_, hb, hcorda, hseen'⟩, rfl⟩
      rw [Nat.add_right_comm]
      exact ⟨hnext.le, hnext.left, hnext.js⟩
    · rintro k s ⟨hs, hb, hcorda, -⟩
      exact ⟨⟨hs.le, hs.left, hs.js⟩, rfl, hb, hcorda⟩
    · exact ⟨⟨hpoll.le, hpoll.left, hpoll.js⟩, hs.b, hs.corda, hseen⟩

theorem precision_keeps (axes : Nat) :
    KeepsTo (Desk.At M polls) (Desk.At M polls) .waiting (precision clock M axes) w
      (w.poll polls >>= fun w => w.poll polls >>= fun _ =>
        w.through clock polls (w.watching M polls axes)) := by
  refine keepsTo_bind waitEvent_keeps fun _ w _ => ?_
  refine keepsTo_modify (fun s hs => ?_) ((watchAxes_keeps axes).modify
    (C := Desk.At M polls) fun s w' hs => ⟨⟨hs.le, hs.left, hs.js⟩, hs.reads, hs.b, hs.corda⟩)
  refine ⟨⟨⟨hs.le, hs.left, hs.js⟩, hs.reads, hs.b, hs.corda⟩, fun a ha => ?_⟩
  dsimp only
  rw [if_pos ha, hs.axis a]
  exact summarises_first a w.polls le_rfl

/-- The place is held: it has been looked at `k` times, and all others are as they were. -/
structure Desk.Holds (M : Shifts) (polls : List Ready) (place : Nat × Nat) (n k : Nat) (s : Desk)
    (w : Walk) : Prop extends s.After M polls (n + k) where
  b : s.b = w.b
  others : ∀ q, q ≠ place → w.held q ≠ [] → Summarises (s.corda q.1 q.2) (w.held q)
  corda : Summarises (s.corda place.1 place.2) (seenFrom M polls place.1 n k)

theorem setCorda_corda (s : Desk) (place q : Nat × Nat) (r : Range) :
    (s.setCorda place.1 place.2 r).corda q.1 q.2 = if q = place then r else s.corda q.1 q.2 := by
  change Function.update s.corda place.1 (Function.update (s.corda place.1) place.2 r) q.1 q.2 = _
  by_cases haxis : q.1 = place.1
  · rw [haxis, Function.update_self, Function.update_apply]
    by_cases hpos : q.2 = place.2
    · rw [if_pos hpos, if_pos (Prod.ext haxis hpos)]
    · rw [if_neg hpos, if_neg fun heq => hpos (congrArg Prod.snd heq)]
  · rw [Function.update_of_ne haxis, if_neg fun heq => haxis (congrArg Prod.fst heq)]

theorem Desk.After.pushed (h : s.After M polls n) (hb : s.b = w.b) :
    s.pushed = w.pushedAt M polls n := by
  rw [Desk.pushed, Walk.pushedAt, hb, h.js]

/-- **The loop that holds.** -/
theorem holding_keeps (place : Nat × Nat) :
    KeepsTo (fun s w => s.Holds M polls place w.polls 0 w ∧ s.reads = w.reads)
      (fun s w' => s.Holds M polls place w.polls (w'.polls - w.polls) w' ∧ s.reads = w'.reads ∧
        s.After M polls w'.polls) .waiting
      (timed clock M 2000 Desk.pushed (look clock place.1 place.2) id) w
      (w.through clock polls (w.holding M polls place.1)) := by
  rintro s ⟨hs, hreads⟩
  have hwatch : Watch.start clock s.reads = (w.holding M polls place.1).watch clock 0 := by
    rw [hreads]
    rfl
  change Reaches _ _ (timedLoop clock M (w.holding M polls place.1).span Desk.pushed
    (look clock place.1 place.2) id s.polls s (.start clock s.reads)) _
  rw [hwatch]
  refine through_reaches (J := fun i s => s.Holds M polls place w.polls i w) ?_ ?_ ?_ ?_ hs
  · exact fun i s hs => hs.toAfter
  · exact fun i s hs => hs.toAfter.pushed hs.b
  · rintro i s r l hs hdrop p rfl
    have hlook := hs.corda.look clock ((w.holding M polls place.1).watch clock i).read
    rw [← hs.axis] at hlook
    refine ⟨⟨?_, hs.b, fun q hq hheld => ?_, ?_⟩, hlook.2.trans (watch_succ _ i).symm⟩
    · exact Desk.After.poll (s := s.setCorda place.1 place.2 _) ⟨hs.le, hs.left, hs.js⟩ hdrop
    · change Summarises ((s.setCorda place.1 place.2 _).corda q.1 q.2) _
      rw [setCorda_corda, if_neg hq]
      exact hs.others q hq hheld
    · change Summarises ((s.setCorda place.1 place.2 _).corda place.1 place.2) _
      rw [setCorda_corda, if_pos rfl]
      exact hlook.1
  · rintro k s hs
    dsimp only
    rw [show (w.holding M polls place.1).start + k - w.polls = k from Nat.add_sub_cancel_left ..]
    exact ⟨⟨⟨hs.le, hs.left, hs.js⟩, hs.b, hs.others, hs.corda⟩, rfl, hs.le, hs.left, hs.js⟩

/-- **One position** of one axis. -/
theorem position_keeps (place : Nat × Nat) :
    KeepsTo (Desk.At M polls) (Desk.At M polls) .waiting (position clock M place.1 place.2) w
      (w.hold clock M polls place) := by
  refine keepsTo_bind (waitWhile_keeps fun n s hs hb => ?_) fun _ w _ => ?_
  · rw [Bool.not_not]
    exact hs.pushed hb
  refine keepsTo_bind (waitWhile_keeps fun n s hs hb => ?_) fun _ w _ => ?_
  · rw [hs.pushed hb]
  refine KeepsTo.then (keepsTo_modify (fun s hs => ?_) (holding_keeps place)) fun s w' hs => ?_
  · refine ⟨⟨⟨hs.le, hs.left, hs.js⟩, hs.b, fun q hq hheld => ?_, ?_⟩, hs.reads⟩
    · rw [setCorda_corda, if_neg hq]
      exact hs.corda q hheld
    · rw [setCorda_corda, if_pos rfl, hs.axis]
      exact summarises_first _ _ (Nat.zero_le 1)
  · obtain ⟨hholds, hreads, hafter⟩ := hs
    refine ⟨hafter, hreads, hholds.b, fun q hheld => ?_⟩
    dsimp only at hheld ⊢
    by_cases hq : q = place
    · subst hq
      rw [Function.update_self]
      exact hholds.corda
    · rw [Function.update_of_ne hq] at hheld ⊢
      exact hholds.others q hq hheld

theorem positions_keeps (ps : List (Nat × Nat)) : ∀ {w : Walk},
    KeepsTo (Desk.At M polls) (Desk.At M polls) .waiting (positions clock M ps) w
      (ps.foldlM (Walk.hold clock M polls) w) := by
  induction ps with
  | nil => exact keepsTo_pure ()
  | cons p ps ih =>
    intro w
    rw [positions, List.foldlM_cons]
    exact keepsTo_bind (position_keeps p) fun _ w _ => ih

/-- **The course**, between the two calls of `JSIOCSCORR`. -/
theorem course_keeps (clock : Clock) (axes : Nat) :
    KeepsTo (Desk.At M polls) (Desk.At M polls) .waiting
      (settle clock M >>= fun _ => precision clock M axes >>= fun _ =>
        (modify fun s => { s with b := s.js.buttons } : Prog Unit) >>= fun _ =>
          positions clock M (places axes))
      ⟨0, 0, 0, [], fun _ => []⟩ (course clock M polls axes) := by
  have hcourse : course clock M polls axes =
      (Walk.poll polls ⟨0, 0, 0, [], fun _ => []⟩ >>= fun w => w.through clock polls w.settling) >>=
        fun w => (w.poll polls >>= fun w => w.poll polls >>= fun _ =>
          w.through clock polls (w.watching M polls axes)) >>= fun w =>
            (places axes).foldlM (Walk.hold clock M polls)
              { w with b := (jsAt M polls w.polls).buttons } := by
    simp only [course, bind_assoc]
  rw [hcourse]
  refine keepsTo_bind settle_keeps fun _ w _ => ?_
  refine keepsTo_bind (precision_keeps axes) fun _ w _ => ?_
  refine keepsTo_modify (fun s hs => ?_) (positions_keeps (places axes))
  exact ⟨⟨hs.le, hs.left, hs.js⟩, hs.reads, congrArg JsInfo.buttons hs.js, hs.corda⟩

/-- **How a calibration ends**: it waits as its course does, and else it returns if both calls
succeed. -/
def ending (first last : Bool) (course : Except Walk Walk) : Except Halt Unit :=
  if first then
    match course with
    | .error _ => .error .waiting
    | .ok _ => if last then .ok () else .error .exit
  else .error .exit

variable (clock M polls) in
/-- **A calibration goes through its course.** -/
structure GoesThrough (axes : Nat) (first last : Bool) (run : Except Halt Unit × Desk) : Prop where
  status : run.1 = ending first last (course clock M polls axes)
  ends : first = true → ∀ w, course clock M polls axes = .ok w → run.2.At M polls w

theorem calibration_goesThrough (clock : Clock) (M : Shifts) (polls : List Ready) (axes : Nat)
    (first last : Bool) (corr : List Corr) :
    GoesThrough clock M polls axes first last
      (calibration clock M axes first last corr polls) := by
  cases first with
  | false => exact ⟨rfl, fun h => Bool.noConfusion h⟩
  | true =>
    let quiet := corr.map fun c => { c with type := jsCorrNone, prec := 0 }
    let s : Desk := { Desk.start quiet polls with sent := [quiet] }
    have hstart : s.At M polls ⟨0, 0, 0, [], fun _ => []⟩ :=
      ⟨⟨Nat.zero_le _, rfl, rfl⟩, rfl, rfl, fun _ h => absurd rfl h⟩
    have hcourse := course_keeps clock axes s hstart
    let finish : Prog Unit := (modify fun s =>
      { s with
        corr := s.corr.mapIdx fun j c =>
          if j < axes then c.broken (solveBroken (s.corda j)) else c }) >>= fun _ => setCorr last
    have hall : calibration clock M axes true last corr polls =
        ((settle clock M >>= fun _ => precision clock M axes >>= fun _ =>
          (modify fun s => { s with b := s.js.buttons } : Prog Unit) >>= fun _ =>
            positions clock M (places axes)) >>= fun _ => finish).run s := by
      simp only [bind_assoc]
      rfl
    cases hplan : course clock M polls axes with
    | error w =>
      rw [hplan] at hcourse
      obtain ⟨s', hrun⟩ := hcourse
      rw [hall, run_bind_error _ hrun]
      exact ⟨by rw [hplan]; rfl, fun _ w hw => by rw [hplan] at hw; cases hw⟩
    | ok w =>
      rw [hplan] at hcourse
      obtain ⟨_, s', hrun, hs'⟩ := hcourse
      rw [hall, run_bind_ok _ hrun]
      have hends (run : Except Halt Unit × Desk) (hrun : run.2.At M polls w) (hstatus : run.1 =
          if last then .ok () else .error .exit) :
          GoesThrough clock M polls axes true last run := by
        refine ⟨?_, fun _ w' hw' => ?_⟩
        · rw [hplan]
          exact hstatus
        · rw [hplan] at hw'
          cases hw'
          exact hrun
      cases last with
      | false => exact hends _ ⟨⟨hs'.le, hs'.left, hs'.js⟩, hs'.reads, hs'.b, hs'.corda⟩ rfl
      | true => exact hends _ ⟨⟨hs'.le, hs'.left, hs'.js⟩, hs'.reads, hs'.b, hs'.corda⟩ rfl

end LinuxConsole.Jscal
