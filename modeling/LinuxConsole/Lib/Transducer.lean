import Mathlib.Data.List.Basic

/-!
# Transducers that resynchronise

A transducer reads letters and now and then emits a value: `step : σ → α → σ × Option β`.  `feed`
gives the state after a text and the values emitted on the way, `feedAll` the same for a text that
comes in chunks.  The chunks do not matter, `feedAll_eq_feed`.

An encoding `enc` is **synchronizing** if the text of a value, read from any state whatever, emits
that value and nothing else.  Then a list of values is read back after any text at all,
`Synchronizing.feed_append`.
-/

namespace LinuxConsole.Lib

variable {σ α β : Type*}

/-- The state after a text, and what the transducer has emitted. -/
def feed (step : σ → α → σ × Option β) : σ → List α → σ × List β
  | s, [] => (s, [])
  | s, a :: as =>
    let r := step s a
    let q := feed step r.1 as
    (q.1, r.2.toList ++ q.2)

/-- The same for a text in chunks, the state carried from each to the next. -/
def feedAll (step : σ → α → σ × Option β) : σ → List (List α) → σ × List β
  | s, [] => (s, [])
  | s, c :: cs =>
    let r := feed step s c
    let q := feedAll step r.1 cs
    (q.1, r.2 ++ q.2)

variable {step : σ → α → σ × Option β}

@[simp] theorem feed_nil (s : σ) : feed step s [] = (s, []) := rfl

theorem feed_cons (s : σ) (a : α) (as : List α) :
    feed step s (a :: as) =
      ((feed step (step s a).1 as).1, (step s a).2.toList ++ (feed step (step s a).1 as).2) := rfl

theorem feed_cons_none {s : σ} {a : α} (h : (step s a).2 = none) (as : List α) :
    feed step s (a :: as) = feed step (step s a).1 as := by
  rw [feed_cons, h]
  rfl

theorem feed_append (s : σ) (as bs : List α) :
    feed step s (as ++ bs) =
      ((feed step (feed step s as).1 bs).1,
        (feed step s as).2 ++ (feed step (feed step s as).1 bs).2) := by
  induction as generalizing s with
  | nil => rfl
  | cons a as ih =>
    rw [List.cons_append, feed_cons, ih, feed_cons, List.append_assoc]

/-- **How a text is cut into chunks does not matter.** -/
theorem feedAll_eq_feed (s : σ) (cs : List (List α)) :
    feedAll step s cs = feed step s cs.flatten := by
  induction cs generalizing s with
  | nil => rfl
  | cons c cs ih =>
    rw [List.flatten_cons, feed_append, ← ih]
    rfl

theorem feed_map {τ γ : Type*} {step' : τ → α → τ × Option γ} (f : σ → τ) (g : β → γ) (I : σ → Prop)
    (hstep : ∀ s a, I s → I (step s a).1 ∧ step' (f s) a = (f (step s a).1, (step s a).2.map g)) :
    ∀ {s : σ} (as : List α), I s →
      feed step' (f s) as = (f (feed step s as).1, (feed step s as).2.map g) := by
  intro s as
  induction as generalizing s with
  | nil => intro _; rfl
  | cons a as ih =>
    intro hs
    obtain ⟨hi, he⟩ := hstep s a hs
    have htoList : ((step s a).2.map g).toList = (step s a).2.toList.map g := by
      cases (step s a).2 with
      | none => rfl
      | some b => rfl
    rw [feed_cons, feed_cons, he, ih hi, List.map_append, htoList]

/-- The text of each value of `P`, read from any state, emits that value alone. -/
def Synchronizing (step : σ → α → σ × Option β) (enc : β → List α) (P : β → Prop) : Prop :=
  ∀ s x, P x → (feed step s (enc x)).2 = [x]

variable {enc : β → List α} {P : β → Prop}

theorem Synchronizing.feed_flatMap (h : Synchronizing step enc P) (s : σ) {xs : List β}
    (hxs : ∀ x ∈ xs, P x) : (feed step s (xs.flatMap enc)).2 = xs := by
  induction xs generalizing s with
  | nil => rfl
  | cons x xs ih =>
    rw [List.flatMap_cons, feed_append, h s x (hxs x List.mem_cons_self),
      ih _ (fun y hy => hxs y (List.mem_cons_of_mem x hy)), List.singleton_append]

/-- **Resynchronisation.**  Whatever has been read before, the values of a synchronizing encoding
come out after what the text before them emitted. -/
theorem Synchronizing.feed_append (h : Synchronizing step enc P) (s : σ) (before : List α)
    {xs : List β} (hxs : ∀ x ∈ xs, P x) :
    (feed step s (before ++ xs.flatMap enc)).2 = (feed step s before).2 ++ xs := by
  rw [Lib.feed_append, h.feed_flatMap _ hxs]

end LinuxConsole.Lib
