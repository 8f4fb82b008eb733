import LinuxConsole.Sel.Highlight

/-!
# Pasting the selection

The loop of `paste_selection` delivers what is left of the selection in pieces of at most
`receive_room` bytes.  It reads `sel_buffer` and `sel_buffer_lth` again in every round, and sleeps
where the receiver is throttled; other processes then call `set_selection`, which frees the buffer
and puts another in its place.

`set_selection` does not read the buffer, so the text that a call stores is the one it leaves where
there was none: `selStep_selBuffer`.  The memory behind `sel_buffer` is a structure in which the
pointer always points at a buffer that has not been freed.

`paste_whole_iff` is the result: **no freed buffer is read, and while no sleep changes what is left
to deliver the bytes delivered are those of the selection the paste began with**.  A sleep that
changes it delivers a mixture of two selections, as `paste_mixed` shows.
-/

namespace LinuxConsole

open Lib

variable (d : Nat → Driver) {st : Selection} {b : Option (List Nat)}

/-! ### The text that a call stores -/

/-- `st` with another buffer. -/
def Selection.withBuffer (st : Selection) (b : Option (List Nat)) : Selection :=
  { st with selBuffer := b }

theorem highlightSel_withBuffer (start last : Nat) :
    highlightSel d (st.withBuffer b) start last = (highlightSel d st start last).withBuffer b := by
  obtain ⟨_, _, sel, _, _, _, _, _, _, _, _, _⟩ := st
  cases sel <;> rfl

theorem hidePointer_withBuffer :
    hidePointer (st.withBuffer b) = (hidePointer st).withBuffer b := by
  obtain ⟨_, _, sel, _, _, _, ptr, _, _, _, _, _⟩ := st
  cases ptr <;> cases sel <;> rfl

theorem showPointer_withBuffer (offset : Nat) :
    showPointer (st.withBuffer b) offset = (showPointer st offset).withBuffer b := by
  obtain ⟨cons, _, sel, _, _, _, _, _, _, _, _, _⟩ := st
  cases sel with
  | none => rfl
  | some k =>
    change (if (cons k).vt.visible = true then _ else _) =
      Selection.withBuffer (if (cons k).vt.visible = true then _ else _) b
    split <;> rfl

theorem highlightPointer_none :
    highlightPointer st none = { hidePointer st with pointer := none } := rfl

theorem highlightPointer_some (offset : Nat) :
    highlightPointer st (some offset) = showPointer (hidePointer st) offset := rfl

theorem highlightPointer_withBuffer (offset : Option Nat) :
    highlightPointer (st.withBuffer b) offset = (highlightPointer st offset).withBuffer b := by
  cases offset with
  | none =>
    rw [highlightPointer_none, highlightPointer_none, hidePointer_withBuffer]
    rfl
  | some offset =>
    rw [highlightPointer_some, highlightPointer_some, hidePointer_withBuffer]
    exact showPointer_withBuffer offset

theorem clearSelection_withBuffer :
    clearSelection d (st.withBuffer b) = (clearSelection d st).withBuffer b := by
  simp only [clearSelection, highlightPointer_withBuffer]
  have hstart : ((highlightPointer st none).withBuffer b).selStart =
    (highlightPointer st none).selStart := rfl
  simp only [hstart]
  cases h : (highlightPointer st none).selStart with
  | none => rfl
  | some start =>
    have hsel : highlightSel d ((highlightPointer st none).withBuffer b) start
        (highlightPointer st none).selEnd =
      (highlightSel d (highlightPointer st none) start (highlightPointer st none).selEnd).withBuffer
        b := highlightSel_withBuffer d start (highlightPointer st none).selEnd
    exact congrArg (fun s : Selection => { s with selStart := none }) hsel

theorem pokeSelection_withBuffer (fg : Nat) (unblanks : Bool) :
    pokeSelection d (st.withBuffer b) fg unblanks = (pokeSelection d st fg unblanks).withBuffer b := by
  have hsel : (st.withBuffer b).selCons = st.selCons := rfl
  rw [pokeSelection, pokeSelection, hsel]
  split
  · exact clearSelection_withBuffer d
  · rfl

theorem takeSelCons_withBuffer (fg : Nat) :
    takeSelCons d (st.withBuffer b) fg = (takeSelCons d st fg).withBuffer b := by
  have hsel : (st.withBuffer b).selCons = st.selCons := rfl
  rw [takeSelCons, takeSelCons, hsel]
  split
  · rw [clearSelection_withBuffer]
    rfl
  · rfl

theorem selectEnds_withBuffer (sizeRow ps pe : Nat) (mode : SelMode) :
    selectEnds (st.withBuffer b) sizeRow ps pe mode =
      ((selectEnds st sizeRow ps pe mode).1.withBuffer b, (selectEnds st sizeRow ps pe mode).2) := by
  cases mode <;> rfl

theorem selectTrailing_withBuffer (sizeRow start last : Nat) :
    selectTrailing (st.withBuffer b) sizeRow start last =
      ((selectTrailing st sizeRow start last).1.withBuffer b,
        (selectTrailing st sizeRow start last).2) := by
  rw [selectTrailing, selectTrailing]
  split
  · have hpos : selPos ((st.withBuffer b).touch [last]) = selPos (st.touch [last]) := rfl
    simp only [hpos]
    split <;> rfl
  · rfl

theorem moveHighlight_withBuffer (start last : Nat) :
    moveHighlight d (st.withBuffer b) start last = (moveHighlight d st start last).withBuffer b := by
  have hstart : (st.withBuffer b).selStart = st.selStart := rfl
  have hend : (st.withBuffer b).selEnd = st.selEnd := rfl
  rw [moveHighlight.eq_def, moveHighlight.eq_def d st, hstart, hend]
  cases st.selStart with
  | none => exact highlightSel_withBuffer d start last
  | some start0 =>
    simp only [clearSelection_withBuffer, highlightSel_withBuffer]
    split
    · split <;> rfl
    · split
      · split <;> rfl
      · rfl

/-! ### What a call does to the buffer -/

/-- `f` leaves the buffer or puts another in its place, and does not read it. -/
def Stores (f : Selection → Selection) : Prop :=
  ∀ (st : Selection) (b : Option (List Nat)),
    f (st.withBuffer b) = (f (st.withBuffer none)).withBuffer ((f (st.withBuffer none)).selBuffer.or b)

variable {f g : Selection → Selection}

theorem stores_of_keeps
    (h : ∀ (st : Selection) (b : Option (List Nat)), f (st.withBuffer b) = (f st).withBuffer b) :
    Stores f := by
  intro st b
  rw [h st b, h st none]
  rfl

theorem Stores.after (hg : Stores g)
    (h : ∀ (st : Selection) (b : Option (List Nat)), f (st.withBuffer b) = (f st).withBuffer b) :
    Stores fun st => g (f st) := by
  intro st b
  simp only [h]
  exact hg (f st) b

theorem stores_finishSelection (sizeRow start last : Nat) (alloc : Bool) :
    Stores fun st => (finishSelection d st sizeRow start last alloc).1 := by
  intro st b
  have hstart : ∀ c, (st.withBuffer c).selStart = st.selStart := fun _ => rfl
  have hend : ∀ c, (st.withBuffer c).selEnd = st.selEnd := fun _ => rfl
  simp only [finishSelection, hstart, hend, moveHighlight_withBuffer]
  split
  · rfl
  · cases alloc with
    | false =>
      let moved : Selection :=
        { moveHighlight d st start last with selStart := some start, selEnd := last }
      exact stores_of_keeps (fun st b => clearSelection_withBuffer d) moved b
    | true => rfl

theorem stores_selectRange (fg sizeRow ps pe : Nat) (mode : SelMode) (alloc : Bool) :
    Stores fun st => (selectRange d st fg sizeRow ps pe mode alloc).1 := by
  intro st b
  simp only [selectRange, takeSelCons_withBuffer, selectEnds_withBuffer]
  by_cases hmode : mode = .pointer
  · simp only [hmode, if_true]
    exact stores_of_keeps (f := (highlightPointer · (some pe)))
      (fun st b => highlightPointer_withBuffer (some pe)) (takeSelCons d st fg) b
  · simp only [hmode, if_false]
    rcases selectEnds (takeSelCons d st fg) sizeRow ps pe mode with ⟨ends, _ | ⟨start, last⟩⟩
    · rfl
    · simp only [highlightPointer_withBuffer, selectTrailing_withBuffer]
      exact stores_finishSelection d sizeRow start _ alloc _ b

theorem stores_selStep (call : SelCall) : Stores (selStep d · call) := by
  intro st b
  cases call with
  | clear => exact stores_of_keeps (fun st b => clearSelection_withBuffer d) st b
  | set vc fg sel unblanks alloc =>
    simp only [selStep, setSelection, pokeSelection_withBuffer]
    cases sel with
    | none => rfl
    | some sel =>
      have hcons : ∀ c, ((pokeSelection d st fg unblanks).withBuffer c).cons =
        (pokeSelection d st fg unblanks).cons := fun _ => rfl
      simp only [hcons]
      split
      · exact stores_of_keeps (fun st b => clearSelection_withBuffer d) _ b
      · split
        · rfl
        · exact stores_selectRange d fg _ _ _ _ alloc _ b
      · exact stores_selectRange d fg _ _ _ _ alloc _ b

/-- The text that a call stores, if it stores one. -/
def storedText (st : Selection) (call : SelCall) : Option (List Nat) :=
  (selStep d (st.withBuffer none) call).selBuffer

/-- **What a call leaves in the buffer** is the text it stores, or else what was there. -/
theorem selStep_selBuffer (st : Selection) (call : SelCall) :
    (selStep d st call).selBuffer = (storedText d st call).or st.selBuffer :=
  congrArg Selection.selBuffer (stores_selStep d call st st.selBuffer)

/-! ### The memory behind `sel_buffer` -/

/-- The buffers by number, of which a freed one is `none`, and the variables `sel_buffer` and
`sel_buffer_lth`. -/
structure SelMem where
  heap : Nat → Option (List Nat)
  next : Nat
  selBuffer : Option Nat
  selBufferLth : Nat
  fresh : ∀ id, next ≤ id → heap id = none
  live : ∀ id, selBuffer = some id → ∃ text, heap id = some text ∧ text.length = selBufferLth

namespace SelMem

/-- No buffer. -/
def empty : SelMem where
  heap _ := none
  next := 0
  selBuffer := none
  selBufferLth := 0
  fresh _ _ := rfl
  live _ h := absurd h.symm (Option.some_ne_none _)

/-- The heap when `kmalloc` has found a new buffer for `text` and `kfree` has taken the old one. -/
def replaceHeap (m : SelMem) (text : List Nat) : Nat → Option (List Nat) :=
  fun id => if id = m.next then some text else if some id = m.selBuffer then none else m.heap id

/-- A call has stored `text`. -/
def replace (m : SelMem) (text : List Nat) : SelMem where
  heap := m.replaceHeap text
  next := m.next + 1
  selBuffer := some m.next
  selBufferLth := text.length
  fresh := by
    intro id h
    rw [replaceHeap, if_neg (by omega : id ≠ m.next), m.fresh id (by omega), ite_self]
  live := by
    intro id h
    cases h
    exact ⟨text, if_pos rfl, rfl⟩

/-- What a call does to the memory. -/
def store (m : SelMem) : Option (List Nat) → SelMem
  | none => m
  | some text => m.replace text

/-- The bytes at `sel_buffer`. -/
def text (m : SelMem) : List Nat := ((m.selBuffer.bind m.heap).getD [])

@[simp] theorem text_empty : empty.text = [] := rfl

theorem text_store (m : SelMem) (stored : Option (List Nat)) :
    (m.store stored).text = stored.getD m.text := by
  cases stored with
  | none => rfl
  | some text =>
    have hheap : m.replaceHeap text m.next = some text := if_pos rfl
    change (m.replaceHeap text m.next).getD [] = text
    rw [hheap]
    rfl

/-- The pointer points at a buffer that is there, and the length is that of its text. -/
theorem text_of_live (m : SelMem) {id : Nat} (h : m.selBuffer = some id) :
    m.heap id = some m.text ∧ m.selBufferLth = m.text.length := by
  obtain ⟨text, hheap, hlen⟩ := m.live id h
  have ht : m.text = text := by
    rw [SelMem.text, h]
    exact congrArg (Option.getD · []) hheap
  rw [ht]
  exact ⟨hheap, hlen.symm⟩

end SelMem

/-! ### The loop of `paste_selection` -/

/-- What happens while the process sleeps: the screens are whatever others have made of them when
a call comes. -/
structure Meanwhile where
  cons : Nat → Con
  call : SelCall

/-- A round of the loop: `TTY_THROTTLED` is set and the process sleeps, or the receiver has room. -/
inductive PasteRound
  | sleep (calls : List Meanwhile)
  | deliver (room : Nat)

/-- The selection, the memory, the local `pasted`, what `receive_buf` was given, and how often it was
given bytes that are not in a buffer. -/
structure Paste where
  sel : Selection
  mem : SelMem
  pasted : Nat
  received : List Nat
  badReads : Nat

namespace Paste

/-- The condition of the loop. -/
def more (p : Paste) : Bool := p.mem.selBuffer.isSome && decide (p.mem.selBufferLth > p.pasted)

/-- A call of another process. -/
def other (p : Paste) (m : Meanwhile) : Paste :=
  let st := { p.sel with cons := m.cons }
  { p with sel := selStep d st m.call, mem := p.mem.store (storedText d st m.call) }

/-- The receiver takes what there is, or as much as it has room for. -/
def deliver (p : Paste) (room : Nat) : Paste :=
  let count := min (p.mem.selBufferLth - p.pasted) room
  match p.mem.selBuffer.bind p.mem.heap with
  | none => { p with pasted := p.pasted + count, badReads := p.badReads + 1 }
  | some text =>
    { p with
      pasted := p.pasted + count
      received := p.received ++ (text.drop p.pasted).take count
      badReads := if p.pasted + count ≤ text.length then p.badReads else p.badReads + 1 }

end Paste

/-- The loop when it begins, after `poke_blanked_console`. -/
def beginPaste (st : Selection) (fg : Nat) (unblanks : Bool) : Paste :=
  ⟨pokeSelection d st fg unblanks, SelMem.empty.store st.selBuffer, 0, [], 0⟩

/-- A round, if the loop has not been left. -/
def pasteRound (p : Paste) (r : PasteRound) : Paste :=
  if p.more then
    match r with
    | .sleep calls => run (Paste.other d) p calls
    | .deliver room => p.deliver room
  else p

/-- Others leave alone what is still to be delivered. -/
def LeavesRest (p : Paste) : PasteRound → Prop
  | .sleep calls => p.more = true →
    (run (Paste.other d) p calls).mem.text.drop p.pasted = p.mem.text.drop p.pasted
  | .deliver _ => True

/-! ### Rounds -/

/-- What has been delivered and what would be delivered now if nobody called. -/
def Paste.total (p : Paste) : List Nat := p.received ++ p.mem.text.drop p.pasted

theorem pasteRound_ended {p : Paste} (h : p.more = false) (r : PasteRound) :
    pasteRound d p r = p := by
  rw [pasteRound.eq_def, h]
  exact if_neg Bool.false_ne_true

theorem pasteRound_sleep {p : Paste} (h : p.more = true) (calls : List Meanwhile) :
    pasteRound d p (.sleep calls) = run (Paste.other d) p calls := if_pos h

theorem pasteRound_deliver {p : Paste} (h : p.more = true) (room : Nat) :
    pasteRound d p (.deliver room) = p.deliver room := if_pos h

/-- In the loop there is a buffer, and more of its text than has been pasted. -/
theorem Paste.more_spec {p : Paste} (h : p.more = true) :
    p.mem.selBuffer.bind p.mem.heap = some p.mem.text ∧ p.mem.selBufferLth = p.mem.text.length ∧
      p.pasted < p.mem.text.length := by
  rw [Paste.more, Bool.and_eq_true, decide_eq_true_iff, Option.isSome_iff_exists] at h
  obtain ⟨⟨id, hid⟩, hlt⟩ := h
  obtain ⟨hheap, hlth⟩ := p.mem.text_of_live hid
  rw [hid, Option.bind_some]
  exact ⟨hheap, hlth, by omega⟩

theorem Paste.rest_ended {p : Paste} (h : p.more = false) : p.mem.text.drop p.pasted = [] := by
  cases hid : p.mem.selBuffer with
  | none => rw [SelMem.text, hid, Option.bind_none, Option.getD_none, List.drop_nil]
  | some id =>
    have hlth := (p.mem.text_of_live hid).2
    rw [Paste.more, hid, Option.isSome_some, Bool.true_and, decide_eq_false_iff_not] at h
    exact List.drop_of_length_le (by omega)

/-- A delivery moves bytes of the buffer from what is left to what has been received. -/
theorem Paste.deliver_spec {p : Paste} (h : p.more = true) (room : Nat) :
    (p.deliver room).mem = p.mem ∧ (p.deliver room).sel = p.sel ∧
      (p.deliver room).badReads = p.badReads ∧ (p.deliver room).total = p.total := by
  obtain ⟨hheap, hlth, hlt⟩ := p.more_spec h
  have hcount : p.pasted + min (p.mem.selBufferLth - p.pasted) room ≤ p.mem.text.length := by omega
  rw [Paste.deliver, hheap]
  refine ⟨rfl, rfl, if_pos hcount, ?_⟩
  rw [Paste.total, Paste.total, List.append_assoc, ← List.drop_drop, List.take_append_drop]

/-- Other processes do not change what has been delivered, and do not count as readers. -/
theorem others_spec (p : Paste) (calls : List Meanwhile) :
    let q := run (Paste.other d) p calls
    q.pasted = p.pasted ∧ q.received = p.received ∧ q.badReads = p.badReads := by
  refine run_invariant (I := fun q : Paste => q.pasted = p.pasted ∧
    q.received = p.received ∧ q.badReads = p.badReads) (fun q m h => ?_) ⟨rfl, rfl, rfl⟩ calls
  exact h

/-- The buffer in memory is the one `set_selection` has left. -/
def Paste.Linked (p : Paste) : Prop := p.mem.text = p.sel.selBuffer.getD []

theorem Paste.Linked.other {p : Paste} (h : p.Linked) (m : Meanwhile) : (p.other d m).Linked := by
  have hbuf := selStep_selBuffer d { p.sel with cons := m.cons } m.call
  change (p.mem.store _).text = (selStep d { p.sel with cons := m.cons } m.call).selBuffer.getD []
  rw [hbuf, SelMem.text_store, h]
  cases storedText d { p.sel with cons := m.cons } m.call <;> rfl

theorem Paste.Linked.round {p : Paste} (h : p.Linked) (r : PasteRound) :
    (pasteRound d p r).Linked := by
  cases hmore : p.more with
  | false => rwa [pasteRound_ended d hmore]
  | true =>
    cases r with
    | sleep calls =>
      rw [pasteRound_sleep d hmore]
      exact run_invariant (fun q m hq => hq.other d m) h calls
    | deliver room =>
      rw [pasteRound_deliver d hmore]
      obtain ⟨hmem, hsel, -⟩ := Paste.deliver_spec hmore room
      rw [Paste.Linked, hmem, hsel]
      exact h

theorem Paste.Linked.begin (st : Selection) (fg : Nat) (unblanks : Bool) :
    (beginPaste d st fg unblanks).Linked := by
  have hsame : pokeSelection d (st.withBuffer st.selBuffer) fg unblanks =
    (pokeSelection d st fg unblanks).withBuffer st.selBuffer := pokeSelection_withBuffer d fg unblanks
  have hpoke : (pokeSelection d st fg unblanks).selBuffer = st.selBuffer := by
    have hbuf := congrArg Selection.selBuffer hsame
    exact hbuf
  change (SelMem.empty.store st.selBuffer).text = (pokeSelection d st fg unblanks).selBuffer.getD []
  rw [hpoke, SelMem.text_store, SelMem.text_empty]

/-- **What the loop reads is the selection**: after any rounds the text at `sel_buffer` is the one
that `set_selection` has left. -/
theorem linked_rounds (st : Selection) (fg : Nat) (unblanks : Bool) (rounds : List PasteRound) :
    (run (pasteRound d) (beginPaste d st fg unblanks) rounds).Linked :=
  run_invariant (fun _ r h => h.round d r) (Paste.Linked.begin d st fg unblanks) rounds

/-! ### Runs -/

theorem badReads_round (p : Paste) (r : PasteRound) : (pasteRound d p r).badReads = p.badReads := by
  cases hmore : p.more with
  | false => rw [pasteRound_ended d hmore]
  | true =>
    cases r with
    | sleep calls =>
      rw [pasteRound_sleep d hmore]
      exact (others_spec d p calls).2.2
    | deliver room =>
      rw [pasteRound_deliver d hmore]
      exact (Paste.deliver_spec hmore room).2.2.1

/-- A round changes the total exactly if it is a sleep in which others change what is left. -/
theorem total_round_iff (p : Paste) (r : PasteRound) :
    (pasteRound d p r).total = p.total ↔ LeavesRest d p r := by
  cases hmore : p.more with
  | false =>
    rw [pasteRound_ended d hmore]
    cases r with
    | sleep calls => exact iff_of_true rfl fun h => absurd (hmore.symm.trans h) Bool.false_ne_true
    | deliver room => exact iff_of_true rfl trivial
  | true =>
    cases r with
    | sleep calls =>
      rw [pasteRound_sleep d hmore]
      obtain ⟨hpasted, hreceived, -⟩ := others_spec d p calls
      rw [Paste.total, Paste.total, hpasted, hreceived, List.append_cancel_left_eq]
      exact ⟨fun h _ => h, fun h => h hmore⟩
    | deliver room =>
      rw [pasteRound_deliver d hmore]
      exact iff_of_true (Paste.deliver_spec hmore room).2.2.2 trivial

theorem total_deliveries (p : Paste) (rooms : List Nat) :
    (run (pasteRound d) p (rooms.map .deliver)).total = p.total := by
  induction rooms generalizing p with
  | nil => rfl
  | cons room rooms ih =>
    have hround : (pasteRound d p (.deliver room)).total = p.total :=
      (total_round_iff d p (.deliver room)).mpr trivial
    exact (ih (pasteRound d p (.deliver room))).trans hround

/-- Behind the loop the total has been delivered. -/
theorem Paste.received_ended {p : Paste} (h : p.more = false) : p.received = p.total := by
  rw [Paste.total, Paste.rest_ended h, List.append_nil]

/-- **What is pasted.**  No freed buffer is read, whatever happens.  If every sleep leaves alone what
is still to be delivered, the bytes delivered are a prefix of the selection the paste began with, and
all of it when the loop has been left; and if the next sleep is the last one, the paste is whole
exactly if that sleep leaves alone what is still to be delivered. -/
theorem paste_whole_iff (st : Selection) (fg : Nat) (unblanks : Bool) (rounds : List PasteRound) :
    let begun := beginPaste d st fg unblanks
    let selected := st.selBuffer.getD []
    let p := run (pasteRound d) begun rounds
    p.badReads = 0 ∧ (Along (pasteRound d) (LeavesRest d) begun rounds →
      p.received <+: selected ∧ (p.more = false → p.received = selected) ∧
      ∀ (calls : List Meanwhile) (rooms : List Nat),
        let q := run (pasteRound d) p (.sleep calls :: rooms.map .deliver)
        q.more = false → (q.received = selected ↔ LeavesRest d p (.sleep calls))) := by
  intro begun selected p
  have hreads : p.badReads = 0 := run_invariant (I := fun q : Paste => q.badReads = 0)
    (fun q r h => (badReads_round d q r).trans h) (show begun.badReads = 0 from rfl) rounds
  refine ⟨hreads, fun hleaves => ?_⟩
  have hbegun : begun.total = selected := by
    change [] ++ ((SelMem.empty.store st.selBuffer).text).drop 0 = selected
    rw [SelMem.text_store, SelMem.text_empty, List.nil_append, List.drop_zero]
  have htotal : p.total = selected := hleaves.invariant (I := fun q => q.total = selected)
    (fun q r h hr => ((total_round_iff d q r).mpr hr).trans h) hbegun
  refine ⟨⟨_, htotal⟩, fun hended => (Paste.received_ended hended).trans htotal, ?_⟩
  intro calls rooms q hended
  have hrest : q.total = (pasteRound d p (.sleep calls)).total :=
    total_deliveries d (pasteRound d p (.sleep calls)) rooms
  rw [Paste.received_ended hended, hrest, ← htotal]
  exact total_round_iff d p (.sleep calls)

/-! ### A mixture -/

/-- The letters in the cells of the first two rows. -/
def letters (a : Nat) : Cell :=
  match a with
  | 0x1000 => 0x41
  | 0x1002 => 0x42
  | 0x1004 => 0x43
  | 0x1006 => 0x44
  | 0x10a0 => 0x77
  | 0x10a2 => 0x78
  | 0x10a4 => 0x79
  | 0x10a6 => 0x7a
  | _ => 0x20

/-- `ABCD` and `wxyz` on the screen, with the first of them selected. -/
def selectedLetters : Selection :=
  (selStep fun _ => dummyCon) (bootSelection (fun _ => { bootCon with mem := letters }) fun _ => 0x1000)
    (.set 0 0 (some ⟨1, 1, 4, 1, .char⟩) false true)

/-- Another process selects the second. -/
def selectSecond : Meanwhile :=
  ⟨fun _ => { bootCon with mem := letters }, .set 0 0 (some ⟨1, 2, 4, 2, .char⟩) false true⟩

/-- A throttled receiver, and meanwhile the selection is cleared but not replaced. -/
theorem paste_whole_cleared :
    (run (pasteRound fun _ => dummyCon) (beginPaste (fun _ => dummyCon) selectedLetters 0 false)
      [.deliver 2, .sleep [⟨fun _ => bootCon, .clear⟩], .deliver 9]).received =
        [0x41, 0x42, 0x43, 0x44] := by
  have h := (paste_whole_iff (fun _ => dummyCon) selectedLetters 0 false
    [.deliver 2, .sleep [⟨fun _ => bootCon, .clear⟩], .deliver 9]).2
      ⟨trivial, fun _ => by decide +kernel, trivial, trivial⟩
  exact (h.2.1 (by decide +kernel)).trans (by decide +kernel)

/-- **Two selections mixed**: half of `ABCD` is delivered, another process selects `wxyz` while the
receiver is throttled, and the rest is taken from there. -/
theorem paste_mixed :
    let p := run (pasteRound fun _ => dummyCon)
      (beginPaste (fun _ => dummyCon) selectedLetters 0 false)
      [.deliver 2, .sleep [selectSecond], .deliver 2]
    selectedLetters.selBuffer = some [0x41, 0x42, 0x43, 0x44] ∧
      p.sel.selBuffer = some [0x77, 0x78, 0x79, 0x7a] ∧ p.more = false ∧
      p.received = [0x41, 0x42, 0x79, 0x7a] := by
  decide +kernel

end LinuxConsole
