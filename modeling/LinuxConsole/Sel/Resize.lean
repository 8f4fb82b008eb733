import LinuxConsole.Vc.Resize
import LinuxConsole.Vcs.Overlay

/-!
# Resizing a console with a selection

`vc_resize` on one of the consoles of a `Selection`.  It copies the text as it is, with the cells
that the selection and the pointer have inverted.  If the console is displayed, `update_screen`
hides the cursor after this, which takes the selection away: at the offsets that it had in the old
screen, although the screen has been laid out anew.

**`resize_keeps_text`** says when the text nevertheless is where it belongs: if the console is not
displayed or not `sel_cons`, and otherwise if the selection is `Harmless`, which it is when there is
none.
-/

namespace LinuxConsole

open Lib

variable (d : Nat → Driver)

/-- `set_origin` on console `k`. -/
def setOriginOn (st : Selection) (k : Nat) : Selection :=
  let st := st.onCon k (setOrigin (d k))
  { st with visibleOrigin := Function.update st.visibleOrigin k (st.cons k).geo.origin }

/-- `update_screen` on console `k`. -/
def updateScreenOn (st : Selection) (k : Nat) : Selection :=
  let oldWasColor := (st.cons k).rend.canDoColor
  let st := setOriginOn d (hideCursorOn d st k) k
  setCursorOn d (st.onCon k (redraw (d k) oldWasColor)) k

/-- Console `k` in its new buffer. -/
def refitOn (st : Selection) (k cols rows buf : Nat) : Selection :=
  let st := st.onCon k fun s => refit (d k) s cols rows buf
  { st with visibleOrigin := Function.update st.visibleOrigin k (st.cons k).geo.origin }

/-- `vc_resize` once the new buffer is there and the hardware has followed. -/
def resizeOn (st : Selection) (k cols rows buf : Nat) : Selection :=
  let st := refitOn d st k cols rows buf
  if (st.cons k).vt.visible then updateScreenOn d st k else st

/-- The rows a resize leads to. -/
def resizeRows (s : Con) (lines : Nat) : Nat := if lines ≠ 0 then lines else s.geo.rows

/-- `vc_resize` on console `k`. -/
def vcResizeOn (st : Selection) (k cols lines : Nat) (newscreen : Option Nat) : Selection × Int :=
  let s := st.cons k
  if cols > vcResizeMaxcol ∨ lines > vcResizeMaxrow then (st, -EINVAL)
  else
    let newCols := resizeCols s cols
    let newRows := resizeRows s lines
    if newCols = s.geo.cols ∧ newRows = s.geo.rows then (st, 0)
    else
      match newscreen with
      | none => (st, - ENOMEM)
      | some buf =>
        let err := resizeScreen (d k) s newCols newRows
        if err ≠ 0 then (st, err) else (resizeOn d st k newCols newRows buf, 0)

/-! ### What a resize owes -/

/-- The console `t` shows the text of `s` in `cols` columns and `rows` rows, less a software cursor
that is drawn now; nothing has been written but the new buffer and the window, and the margins, the
cursor and the saved cursor are inside. -/
structure TextKept (s : Con) (cols rows : Nat) (newscreen : Option Nat) (t : Con) : Prop where
  size : t.geo.cols = cols ∧ t.geo.rows = rows
  cells : ∀ r < rows, ∀ c < cols, t.logical (t.geo.origin + r * t.geo.sizeRow + 2 * c) =
    movedCell s rows t.rend.videoEraseChar r c
  outside : ∀ a, (∀ buf, newscreen = some buf → ∀ i < rows * cols, a ≠ buf + 2 * i) →
    (∀ i < rows * cols, a ≠ t.geo.origin + 2 * i) → t.logical a = s.mem a
  faults : t.faults = s.faults
  margins : t.mar.top < t.mar.bottom ∧ t.mar.bottom ≤ rows
  cursor : t.cur.x < cols ∧ t.cur.y < rows
  saved : t.saved.x < cols ∧ t.saved.y < rows

/-- **A resize keeps the text**, or it fails and changes nothing. -/
def KeepsText (st : Selection) (k cols lines : Nat) (newscreen : Option Nat)
    (r : Selection × Int) : Prop :=
  (r.2 = 0 → TextKept (st.cons k) (resizeCols (st.cons k) cols) (resizeRows (st.cons k) lines)
    newscreen (r.1.cons k)) ∧ (r.2 ≠ 0 → r.1 = st)

/-- A console as the emulator leaves it: a screen of whole rows, with the cursor, the margins and
the saved cursor inside, and no software cursor. -/
structure WholeScreen (N : Nat) (s : Con) : Prop where
  bounds : InBounds N s.geo s.cur s.mar
  screen : OnScreen s.geo s.cur
  saved : s.saved.x < s.geo.cols ∧ s.saved.y < s.geo.rows
  bare : s.vt.cursorOriginal = none

/-- The call gets as far as giving the console another size, if there is memory for it. -/
def Goes (d : Driver) (s : Con) (cols lines : Nat) : Prop :=
  (cols ≤ vcResizeMaxcol ∧ lines ≤ vcResizeMaxrow) ∧
    ¬(resizeCols s cols = s.geo.cols ∧ resizeRows s lines = s.geo.rows) ∧
      resizeScreen d s (resizeCols s cols) (resizeRows s lines) = 0

/-- An inversion that looks at the colours and the font only. -/
def StableHook (d : Driver) : Prop := ∀ s t : Con, t.rend.canDoColor = s.rend.canDoColor →
  t.rend.hiFontMask = s.rend.hiFontMask → invertHook d t = invertHook d s

/-- The driver shows the buffer at `buf` in its window at `win`: the buffer itself, or one apart
from it.  This is about the consoles in the mode of `s`. -/
structure HasWindow (d : Driver) (s : Con) (buf size win : Nat) : Prop where
  even : win % 2 = 0
  apart : win = buf ∨ win + size ≤ buf ∨ buf + size ≤ win
  shows : ∀ t, t.vt.visible = true → t.modes = s.modes → t.geo.screenbuf = buf →
    t.geo.screenbufSize = size → (setOrigin d t).geo.origin = win ∧ ShowsWindow d t

/-- The ends of the selection are at cells and in order; the pointer is at a cell, and not in the
buffer that `kmalloc` has given. -/
structure SelectionFits (st : Selection) (k buf size : Nat) : Prop where
  ends : ∀ start, st.selStart = some start →
    start % 2 = 0 ∧ st.selEnd % 2 = 0 ∧ start ≤ st.selEnd
  pointer : ∀ p, st.pointer = some p → p.con = k →
    p.addr % 2 = 0 ∧ (p.addr + 2 ≤ buf ∨ buf + size ≤ p.addr)

/-- The erase character a console has in its new size. -/
def resizedErase (d : Driver) (s : Con) (cols rows : Nat) : Cell :=
  (updateAttr d (setSize s cols rows)).rend.videoEraseChar

/-- The selection from `start` to `last` lies in the new screen; where this is drawn into the
buffer, all its cells are their own inverse. -/
def HarmlessAt (d : Driver) (s : Con) (cols rows buf win start last : Nat) : Prop :=
  last / 2 < rows * cols ∧ (win = buf → ∀ i, start / 2 ≤ i → i ≤ last / 2 →
    invertHook d s (movedCell s rows (resizedErase d s cols rows) (i / cols) (i % cols)) =
      movedCell s rows (resizedErase d s cols rows) (i / cols) (i % cols))

/-- **Taking the selection away at the offsets it had does no harm**: the pointer is in the window,
if it is on the console, and so is the selection. -/
def Harmless (d : Driver) (st : Selection) (k cols rows buf win : Nat) : Prop :=
  (∀ p, st.pointer = some p → p.con = k → ∃ i < rows * cols, p.addr = win + 2 * i) ∧
    ∀ start, st.selStart = some start →
      HarmlessAt d (st.cons k) cols rows buf win start st.selEnd

variable {d} {st : Selection} {k : Nat}

/-! ### The selection is taken away -/

/-- A console before and after its cells have been written. -/
def SameButCells (s t : Con) : Prop :=
  ∃ mem faults ds, t = { s with mem := mem, faults := faults, draws := ds }

theorem SameButCells.refl (s : Con) : SameButCells s s := ⟨_, _, _, rfl⟩

theorem SameButCells.trans {s t u : Con} (h : SameButCells s t) (h' : SameButCells t u) :
    SameButCells s u := by
  obtain ⟨mem, faults, ds, rfl⟩ := h
  obtain ⟨mem', faults', ds', rfl⟩ := h'
  exact ⟨_, _, _, rfl⟩

theorem sameButCells_onCon {f : Con → Con} (hf : ∀ s, SameButCells s (f s)) (j : Nat) :
    SameButCells (st.cons j) ((st.onCon k f).cons j) := by
  by_cases hj : j = k
  · rw [hj, Selection.onCon_self]
    exact hf _
  · rw [Selection.onCon_of_ne st hj]
    exact .refl _

theorem sameButCells_highlight (D : Driver) (v : View) (s : Con) (start last : Nat) :
    SameButCells s (highlight D v s start last) := by
  rw [highlight, invertViewed, invertAt]
  split
  · exact ⟨_, _, _, rfl⟩
  · exact ⟨_, _, _, rfl⟩

theorem sameButCells_hidePointer (st : Selection) (j : Nat) :
    SameButCells (st.cons j) ((hidePointer st).cons j) := by
  have hdraw : ∀ (q : Prop) [Decidable q] (ds : List Draw) (s : Con),
      SameButCells s (if q then s.draw ds else s) := by
    intro q _ ds s
    split
    · exact ⟨_, _, _, rfl⟩
    · exact .refl s
  rw [hidePointer.eq_def]
  split
  · exact .refl _
  · next p _ =>
    have hwrite : SameButCells (st.cons j)
        ((st.onCon p.con fun s => s.scrWritew p.old p.addr).cons j) :=
      sameButCells_onCon (fun _ => ⟨_, _, _, rfl⟩) j
    dsimp only
    split
    · exact hwrite
    · exact hwrite.trans (sameButCells_onCon (fun s => hdraw _ _ s) j)

theorem hidePointer_cons (hk : st.selCons = some k) :
    ((∀ p, st.pointer = some p → p.con ≠ k) →
      ∃ ds, (hidePointer st).cons k = { st.cons k with draws := ds }) ∧
    ∀ p, st.pointer = some p → p.con = k →
      ∃ ds, (hidePointer st).cons k = { (st.cons k).scrWritew p.old p.addr with draws := ds } := by
  rw [hidePointer.eq_def]
  cases hp : st.pointer with
  | none => exact ⟨fun _ => ⟨_, rfl⟩, fun p hp' => by cases hp'⟩
  | some p =>
    have hdraw : ∀ s : Con, ∃ ds,
        (if s.vt.visible then s.draw [.putc p.old st.oldy st.oldx] else s) =
          { s with draws := ds } := by
      intro s
      split
      · exact ⟨_, rfl⟩
      · exact ⟨_, rfl⟩
    simp only [Selection.selCons_onCon, hk, Selection.onCon_self]
    constructor
    · intro hother
      rw [Selection.onCon_of_ne st (Ne.symm (hother p rfl))]
      exact hdraw _
    · intro p' hp' hcon
      obtain rfl := Option.some.inj hp'
      rw [hcon, Selection.onCon_self]
      exact hdraw _

theorem clearSelection_cons_none (hnone : st.selStart = none) :
    (clearSelection d st).cons = (hidePointer st).cons := by
  have hstart : (highlightPointer st none).selStart = none :=
    (sameEnds_highlightPointer_none st).selStart.trans hnone
  rw [clearSelection.eq_def]
  simp only [hstart]
  rfl

theorem clearSelection_cons_some (hk : st.selCons = some k) {start : Nat}
    (hstart : st.selStart = some start) : (clearSelection d st).cons k =
      highlight (d k) (st.view k) ((hidePointer st).cons k) start st.selEnd := by
  have hsame := sameEnds_highlightPointer_none st
  rw [clearSelection.eq_def]
  simp only [hsame.selStart.trans hstart]
  rw [highlightSel.eq_def]
  simp only [hsame.selCons.trans hk]
  change ((highlightPointer st none).onCon k fun s => highlight (d k)
    ((highlightPointer st none).view k) s start (highlightPointer st none).selEnd).cons k = _
  rw [Selection.onCon_self, hsame.selEnd, Selection.view, Selection.view, hsame.origin]
  rfl

/-- The consoles before `hide_cursor` has hidden the cursor itself. -/
def cleared (d : Nat → Driver) (st : Selection) (k : Nat) : Selection :=
  if st.selCons = some k then clearSelection d st else st

theorem sameButCells_cleared (d : Nat → Driver) (st : Selection) (k : Nat) :
    SameButCells (st.cons k) ((cleared d st k).cons k) := by
  rw [cleared]
  split
  · next hk =>
    cases hstart : st.selStart with
    | none =>
      rw [clearSelection_cons_none hstart]
      exact sameButCells_hidePointer st k
    | some start =>
      rw [clearSelection_cons_some hk hstart]
      exact (sameButCells_hidePointer st k).trans (sameButCells_highlight ..)
  · exact .refl _

theorem setCursorOn_cons (hk : st.selCons = some k → st.pointer = none ∧ st.selStart = none) :
    (setCursorOn d st k).cons k = setCursor (st.cons k) := by
  have hclear : (if st.selCons = some k then clearSelection d st else st).cons k = st.cons k := by
    split
    · next hsel =>
      obtain ⟨hp, hs⟩ := hk hsel
      rw [clearSelection_cons_none hs, hidePointer.eq_def]
      simp only [hp]
    · rfl
  rw [setCursorOn]
  split
  · next hoff => rw [setCursor, if_pos hoff]
  next hon =>
  split
  · rw [Selection.onCon_self, hclear]
  · next hdec => rw [hideCursorOn, Selection.onCon_self, hclear, setCursor, if_neg hon, if_neg hdec]

/-- **`update_screen` with a selection** takes it away first. -/
theorem updateScreenOn_cons (d : Nat → Driver) (st : Selection) (k : Nat) :
    (updateScreenOn d st k).cons k = updateScreen (d k) ((cleared d st k).cons k) := by
  have hcolour : (st.cons k).rend.canDoColor = ((cleared d st k).cons k).rend.canDoColor := by
    obtain ⟨mem, faults, ds, h⟩ := sameButCells_cleared d st k
    rw [h]
  have hhide : hideCursorOn d st k = (cleared d st k).onCon k hideCursor := rfl
  rw [updateScreenOn, setCursorOn_cons, Selection.onCon_self, hhide, hcolour, updateScreen_eq]
  · refine congrArg (fun s => setCursor (redraw _ _ s)) ?_
    refine (Selection.onCon_self ..).trans ?_
    rw [Selection.onCon_self]
  · intro hsel
    have hsel' : (cleared d st k).selCons = some k := hsel
    change (cleared d st k).pointer = none ∧ (cleared d st k).selStart = none
    rw [cleared] at hsel' ⊢
    split
    · exact ⟨pointer_clearSelection st, selStart_clearSelection d st⟩
    · next hne =>
      rw [if_neg hne] at hsel'
      exact absurd hsel' hne

theorem refitOn_cons (st : Selection) (k cols rows buf : Nat) :
    (refitOn d st k cols rows buf).cons k = refit (d k) (st.cons k) cols rows buf :=
  Selection.onCon_self st k fun s => refit (d k) s cols rows buf

/-! ### The text in the new buffer -/

/-- The text of `s` in the buffer at `buf`, and nothing written but this buffer and the window. -/
structure TextIn (s : Con) (cols rows buf win : Nat) (u : Con) : Prop where
  cells : ∀ r < rows, ∀ c < cols, u.mem (buf + r * (2 * cols) + 2 * c) =
    movedCell s rows u.rend.videoEraseChar r c
  outside : ∀ a, (∀ i < rows * cols, a ≠ buf + 2 * i) → (∀ i < rows * cols, a ≠ win + 2 * i) →
    u.mem a = s.mem a
  faults : u.faults = s.faults

variable {D : Driver} {s t u v : Con} {cols rows buf win : Nat}

theorem cell_lt {r c : Nat} (hr : r < rows) (hc : c < cols) : r * cols + c < rows * cols := by
  have hrow : (r + 1) * cols ≤ rows * cols := Nat.mul_le_mul_right _ hr
  rw [Nat.succ_mul] at hrow
  omega

theorem cell_address (r c : Nat) : buf + r * (2 * cols) + 2 * c = buf + 2 * (r * cols + c) := by
  have hrow : r * (2 * cols) = 2 * (r * cols) := Nat.mul_left_comm r 2 cols
  omega

theorem screen_bytes (cols rows : Nat) : 2 * cols * rows = 2 * (rows * cols) := by
  rw [Nat.mul_assoc, Nat.mul_comm cols]

theorem Refitted.scrEnd (hr : Refitted D s cols rows buf t) (hwin : t.geo.origin = win) :
    t.geo.scrEnd = win + 2 * (rows * cols) := by
  rw [hr.geo]
  dsimp only
  rw [hwin, screen_bytes]

theorem Refitted.textIn (h : Refitted D s cols rows buf t) : TextIn s cols rows buf win t :=
  ⟨h.cells, fun a ha _ => h.others a ha, h.faults⟩

theorem Refitted.size (h : Refitted D s cols rows buf t) :
    t.geo.screenbufSize / 2 = rows * cols := by
  rw [h.geo, screen_bytes]
  exact Nat.mul_div_cancel_left _ (by decide)

/-- **Displaying a console** shows the text as it is in the buffer. -/
theorem textKept_iff (hr : Refitted D s cols rows buf t) (hu : SameButCells t u) (hv : Shown D u v)
    (hwin : v.geo.origin = win) :
    TextKept s cols rows (some buf) v ↔ TextIn s cols rows buf win u := by
  obtain ⟨mem, faults, ds, rfl⟩ := hu
  have hbuf : t.geo.screenbuf = buf := by rw [hr.geo]
  have hwindow : ∀ r < rows, ∀ c < cols,
      v.logical (v.geo.origin + r * v.geo.sizeRow + 2 * c) =
        mem (buf + r * (2 * cols) + 2 * c) := by
    intro r hrow c hcol
    have hcell := hv.window (r * cols + c) (by
      rw [show Con.geo { t with mem := mem, faults := faults, draws := ds } = t.geo from rfl,
        hr.size]
      exact cell_lt hrow hcol)
    have hsize : v.geo.sizeRow = 2 * cols := by
      rw [hv.geo, hr.geo]
    rw [hsize, cell_address, cell_address, hcell]
    exact congrArg (fun b => mem (b + 2 * (r * cols + c))) hbuf
  have hothers : ∀ a, (∀ i < rows * cols, a ≠ win + 2 * i) → v.logical a = mem a := by
    intro a ha
    refine hv.others a fun i hi => ?_
    rw [hwin]
    rw [show Con.geo { t with mem := mem, faults := faults, draws := ds } = t.geo from rfl,
      hr.size] at hi
    exact ha i hi
  constructor
  · intro h
    refine ⟨fun r hrow c hcol => ?_, fun a ha hawin => ?_, hv.faults.symm.trans h.faults⟩
    · rw [← hv.rend]
      exact (hwindow r hrow c hcol).symm.trans (h.cells r hrow c hcol)
    · refine (hothers a hawin).symm.trans (h.outside a (fun b hb => ?_) (hwin ▸ hawin))
      obtain rfl := Option.some.inj hb
      exact ha
  · intro h
    have hcursor : v.cur.x < cols ∧ v.cur.y < rows := by
      rw [hv.cursor.1, hv.cursor.2]
      exact hr.cursor
    refine
      { size := by rw [hv.geo, hr.geo]; exact ⟨rfl, rfl⟩
        cells := fun r hrow c hcol => ?_
        outside := fun a ha hawin => ?_
        faults := hv.faults.trans h.faults
        margins := ?_
        cursor := hcursor
        saved := ?_ }
    · rw [hwindow r hrow c hcol, hv.rend]
      exact h.cells r hrow c hcol
    · rw [hwin] at hawin
      exact (hothers a hawin).trans (h.outside a (ha buf rfl) hawin)
    · have hrows : 0 < rows := by omega
      rw [hv.mar, hr.mar]
      exact ⟨hrows, Nat.le_refl _⟩
    · rw [hv.saved]
      change t.saved.x < cols ∧ t.saved.y < rows
      rw [hr.saved.1, hr.saved.2]
      exact hr.cursor

theorem textKept_hidden (hr : Refitted D s cols rows buf t) (hv : s.vt.visible = false) :
    TextKept s cols rows (some buf) t := by
  have hlogical : t.logical = t.mem := by
    refine logical_undrawn fun hvis => ?_
    rw [hr.vt] at hvis
    exact absurd hvis (by rw [hv]; decide)
  have hrows : 0 < rows := by
    have := hr.cursor.2
    omega
  refine
    { size := by rw [hr.geo]; exact ⟨rfl, rfl⟩
      cells := fun r hrow c hcol => ?_
      outside := fun a ha _ => ?_
      faults := hr.faults
      margins := by rw [hr.mar]; exact ⟨hrows, Nat.le_refl _⟩
      cursor := hr.cursor
      saved := by rw [hr.saved.1, hr.saved.2]; exact hr.cursor }
  · have hsize : t.geo.sizeRow = 2 * cols := by rw [hr.geo]
    rw [hlogical, hsize, hr.hidden hv]
    exact hr.cells r hrow c hcol
  · rw [hlogical]
    exact hr.others a (ha buf rfl)

/-- **A console that keeps its size** keeps its text. -/
theorem WholeScreen.textKept {N : Nat} (h : WholeScreen N s) (newscreen : Option Nat) :
    TextKept s s.geo.cols s.geo.rows newscreen s := by
  have hlogical : s.logical = s.mem := logical_undrawn fun _ => h.bare
  refine
    { size := ⟨rfl, rfl⟩
      cells := fun r hr c hc => ?_
      outside := fun a _ _ => congrFun hlogical a
      faults := rfl
      margins := ⟨h.bounds.top_lt, h.bounds.bottom_le⟩
      cursor := ⟨h.bounds.x_lt, h.bounds.y_lt⟩
      saved := h.saved }
  rw [hlogical, movedCell, Nat.sub_self, Nat.add_zero, if_pos ⟨hr, hc⟩]

/-! ### The faults of taking it away -/

theorem faults_check (ok : Bool) (f : Fault) :
    (s.check ok f).faults = s.faults ↔ ok = true := by
  cases ok with
  | true => exact iff_of_true rfl rfl
  | false => exact iff_of_false (List.cons_ne_self _ _) Bool.false_ne_true

theorem faults_highlight (D : Driver) (s : Con) (win start last : Nat) :
    (highlight D ⟨win, none⟩ s start last).faults =
      (s.check (s.inScreen (win + start) ((last - start + 2) / 2))
        (.cell (win + start) ((last - start + 2) / 2))).faults := by
  rw [highlight, invertViewed, invertAt]
  exact (apply_ite Con.faults _ _ _).trans (ite_self _)

theorem length_faults_check (ok : Bool) (f : Fault) :
    s.faults.length ≤ (s.check ok f).faults.length := by
  cases ok with
  | true => exact Nat.le_refl _
  | false => exact Nat.le_succ _

theorem inScreen_highlight (hr : Refitted D s cols rows buf t) (hwin : t.geo.origin = win)
    (hu : SameButCells t u) {start last : Nat} (hs : start % 2 = 0) (hl : last % 2 = 0)
    (hle : start ≤ last) :
    u.inScreen (win + start) ((last - start + 2) / 2) = true ↔ last / 2 < rows * cols := by
  obtain ⟨mem, faults, ds, rfl⟩ := hu
  change ((last - start + 2) / 2 == 0 || (decide (t.geo.origin ≤ win + start) &&
    decide (win + start + 2 * ((last - start + 2) / 2) ≤ t.geo.scrEnd))) = true ↔ _
  have hne : ((last - start + 2) / 2 == 0) = false := by
    rw [beq_eq_false_iff_ne]
    omega
  rw [hne, Bool.false_or, Bool.and_eq_true, decide_eq_true_iff, decide_eq_true_iff, hwin,
    hr.scrEnd hwin]
  omega

/-- **Inverting the cells at the old offsets** of the selection. -/
theorem textIn_highlight (hr : Refitted D s cols rows buf t) (hwin : t.geo.origin = win)
    (hw : HasWindow D s buf (2 * cols * rows) win) (hook : StableHook D) (hu : SameButCells t u)
    (htext : TextIn s cols rows buf win u) {start last : Nat} (hs : start % 2 = 0)
    (hl : last % 2 = 0) (hle : start ≤ last) :
    TextIn s cols rows buf win (highlight D ⟨win, none⟩ u start last) ↔
      HarmlessAt D s cols rows buf win start last := by
  have herase : u.rend.videoEraseChar = resizedErase D s cols rows := by
    obtain ⟨mem, faults, ds, rfl⟩ := hu
    exact congrArg Rendition.videoEraseChar hr.rend
  have hhook : invertHook D u = invertHook D s := by
    obtain ⟨mem, faults, ds, rfl⟩ := hu
    have hcolour : t.rend.canDoColor = s.rend.canDoColor :=
      (congrArg Rendition.canDoColor hr.rend).trans rfl
    have hmask : t.rend.hiFontMask = s.rend.hiFontMask :=
      (congrArg Rendition.hiFontMask hr.rend).trans rfl
    exact hook s _ hcolour hmask
  have hfaults : (highlight D ⟨win, none⟩ u start last).faults = s.faults ↔
      last / 2 < rows * cols := by
    rw [faults_highlight, ← htext.faults, faults_check, inScreen_highlight hr hwin hu hs hl hle]
  have hmem := mem_highlight D win u hs hl hle
  rw [hhook] at hmem
  have hrend : (highlight D ⟨win, none⟩ u start last).rend = u.rend := rend_invertAt ..
  have hin : ∀ i, start / 2 ≤ i → i ≤ last / 2 →
      (highlight D ⟨win, none⟩ u start last).mem (win + 2 * i) =
        invertHook D s (u.mem (win + 2 * i)) := by
    intro i hlow hhigh
    have hmember : win + 2 * i ∈ stride win (span start last) :=
      ⟨i, ⟨hlow, Nat.lt_succ_of_le hhigh⟩, rfl⟩
    rw [hmem]
    exact flipOn_of_mem hmember _
  have hout : ∀ b, (∀ i, start / 2 ≤ i → i ≤ last / 2 → b ≠ win + 2 * i) →
      (highlight D ⟨win, none⟩ u start last).mem b = u.mem b := by
    intro b hb
    rw [hmem]
    refine flipOn_of_notMem ?_ _
    rintro ⟨i, ⟨hlow, hhigh⟩, hi⟩
    exact hb i hlow (Nat.le_of_lt_succ hhigh) hi.symm
  have hcols : 0 < cols := by
    have := hr.cursor.1
    omega
  have hcell : ∀ r < rows, ∀ c < cols, u.mem (buf + 2 * (r * cols + c)) =
      movedCell s rows (resizedErase D s cols rows) r c := by
    intro r hrow c hcol
    rw [← herase, ← htext.cells r hrow c hcol, cell_address]
  constructor
  · intro h
    refine ⟨hfaults.mp h.faults, fun hbuf i hlow hhigh => ?_⟩
    have hi : i < rows * cols := by
      have := hfaults.mp h.faults
      omega
    have hrow : i / cols < rows := Nat.div_lt_of_lt_mul (by rwa [Nat.mul_comm])
    have hcol : i % cols < cols := Nat.mod_lt _ hcols
    have hsplit : i / cols * cols + i % cols = i := Nat.div_add_mod' i cols
    have hflipped := h.cells _ hrow _ hcol
    rw [hrend, herase, cell_address, hsplit, ← hbuf, hin i hlow hhigh] at hflipped
    have hkept := hcell _ hrow _ hcol
    rw [hsplit, ← hbuf] at hkept
    rwa [hkept] at hflipped
  · rintro ⟨hlast, hself⟩
    refine ⟨fun r hrow c hcol => ?_, fun a ha hawin => ?_, hfaults.mpr hlast⟩
    · have hj := cell_lt hrow hcol
      have hkept := hcell r hrow c hcol
      rw [hrend, herase, cell_address]
      by_cases hbuf : win = buf
      · by_cases hsel : start / 2 ≤ r * cols + c ∧ r * cols + c ≤ last / 2
        · have hdiv : (r * cols + c) / cols = r := by
            rw [Nat.add_comm, Nat.add_mul_div_right _ _ hcols, Nat.div_eq_of_lt hcol, Nat.zero_add]
          have hmod : (r * cols + c) % cols = c := by
            rw [Nat.add_comm, Nat.add_mul_mod_self_right, Nat.mod_eq_of_lt hcol]
          have hown := hself hbuf _ hsel.1 hsel.2
          rw [hdiv, hmod] at hown
          rw [← hbuf, hin _ hsel.1 hsel.2, hbuf, hkept, hown]
        · rw [hout _ fun i hlow hhigh => by omega, hkept]
      · have hapart := hw.apart.resolve_left hbuf
        rw [screen_bytes] at hapart
        rw [hout _ fun i hlow hhigh => by omega, hkept]
    · rw [hout a fun i _ hhigh => hawin i (by omega)]
      exact htext.outside a ha hawin

/-! ### The console that is displayed -/

/-- **The cell under the pointer comes back** into the window. -/
theorem textIn_hidePointer (hr : Refitted D s cols rows buf (st.cons k))
    (hwin : (st.cons k).geo.origin = win) (hk : st.selCons = some k)
    (hfit : SelectionFits st k buf (2 * cols * rows))
    (hp : ∀ p, st.pointer = some p → p.con = k → ∃ i < rows * cols, p.addr = win + 2 * i) :
    TextIn s cols rows buf win ((hidePointer st).cons k) := by
  have htext : TextIn s cols rows buf win (st.cons k) := hr.textIn
  by_cases hother : ∀ p, st.pointer = some p → p.con ≠ k
  · obtain ⟨ds, heq⟩ := (hidePointer_cons hk).1 hother
    rw [heq]
    exact ⟨htext.cells, htext.outside, htext.faults⟩
  simp only [not_forall, not_not] at hother
  obtain ⟨p, hpointer, hcon⟩ := hother
  obtain ⟨ds, heq⟩ := (hidePointer_cons hk).2 p hpointer hcon
  obtain ⟨i, hi, haddr⟩ := hp p hpointer hcon
  have hin : (st.cons k).inScreen p.addr 1 = true := by
    have hlow : (st.cons k).geo.origin ≤ p.addr := by omega
    have hhigh : p.addr + 2 * 1 ≤ (st.cons k).geo.scrEnd := by
      rw [hr.scrEnd hwin]
      omega
    rw [Con.inScreen, decide_eq_true hlow, decide_eq_true hhigh]
    rfl
  rw [heq]
  refine ⟨fun r hrow c hcol => ?_, fun a ha hawin => ?_, ?_⟩
  · have happart := (hfit.pointer p hpointer hcon).2
    have hcell := cell_lt hrow hcol
    rw [screen_bytes] at happart
    refine Eq.trans (Function.update_of_ne ?_ _ _) (htext.cells r hrow c hcol)
    rw [cell_address]
    omega
  · exact (Function.update_of_ne (haddr ▸ hawin i hi) _ _).trans (htext.outside a ha hawin)
  · exact ((faults_check _ _).mpr hin).trans htext.faults

theorem length_faults_hidePointer (hk : st.selCons = some k) :
    (st.cons k).faults.length ≤ ((hidePointer st).cons k).faults.length := by
  by_cases hother : ∀ p, st.pointer = some p → p.con ≠ k
  · obtain ⟨ds, heq⟩ := (hidePointer_cons hk).1 hother
    rw [heq]
  simp only [not_forall, not_not] at hother
  obtain ⟨p, hpointer, hcon⟩ := hother
  obtain ⟨ds, heq⟩ := (hidePointer_cons hk).2 p hpointer hcon
  rw [heq]
  exact length_faults_check _ _

theorem faults_hidePointer (hr : Refitted D s cols rows buf (st.cons k))
    (hwin : (st.cons k).geo.origin = win) (heven : win % 2 = 0) (hk : st.selCons = some k)
    {p : Pointer} (hpointer : st.pointer = some p) (hcon : p.con = k) (haddr : p.addr % 2 = 0)
    (hout : ¬∃ i < rows * cols, p.addr = win + 2 * i) :
    s.faults.length < ((hidePointer st).cons k).faults.length := by
  obtain ⟨ds, heq⟩ := (hidePointer_cons hk).2 p hpointer hcon
  have hfault : (st.cons k).inScreen p.addr 1 = false := by
    rw [Con.inScreen, hwin, hr.scrEnd hwin]
    by_cases hlow : win ≤ p.addr
    · have hhigh : ¬p.addr + 2 * 1 ≤ win + 2 * (rows * cols) := fun hle =>
        hout ⟨(p.addr - win) / 2, by omega, by omega⟩
      rw [decide_eq_false hhigh, Bool.and_false]
      rfl
    · rw [decide_eq_false hlow]
      rfl
  rw [heq, ← hr.faults]
  change _ < ((st.cons k).check ((st.cons k).inScreen p.addr 1) (.cell p.addr 1)).faults.length
  rw [hfault]
  exact Nat.lt_succ_self _

/-- **What is left of the text when the selection has been taken away.** -/
theorem textIn_cleared_iff (hr : Refitted (d k) s cols rows buf (st.cons k))
    (hwin : (st.cons k).geo.origin = win) (hview : st.visibleOrigin k = win)
    (hw : HasWindow (d k) s buf (2 * cols * rows) win) (hook : StableHook (d k))
    (hfit : SelectionFits st k buf (2 * cols * rows)) (hk : st.selCons = some k) :
    TextIn s cols rows buf win ((cleared d st k).cons k) ↔
      (∀ p, st.pointer = some p → p.con = k → ∃ i < rows * cols, p.addr = win + 2 * i) ∧
        ∀ start, st.selStart = some start →
          HarmlessAt (d k) s cols rows buf win start st.selEnd := by
  have hpointer : s.faults.length = ((hidePointer st).cons k).faults.length →
      ∀ p, st.pointer = some p → p.con = k → ∃ i < rows * cols, p.addr = win + 2 * i := by
    intro hsame p hp hcon
    by_contra hout
    exact absurd hsame (Nat.ne_of_lt
      (faults_hidePointer hr hwin hw.even hk hp hcon (hfit.pointer p hp hcon).1 hout))
  rw [cleared, if_pos hk]
  cases hstart : st.selStart with
  | none =>
    rw [clearSelection_cons_none hstart]
    constructor
    · intro h
      exact ⟨hpointer (congrArg List.length h.faults.symm), fun start hs => by cases hs⟩
    · rintro ⟨hp, -⟩
      exact textIn_hidePointer hr hwin hk hfit hp
  | some start =>
    obtain ⟨hs, hl, hle⟩ := hfit.ends start hstart
    have hsame : SameButCells (st.cons k) ((hidePointer st).cons k) := sameButCells_hidePointer st k
    rw [clearSelection_cons_some hk hstart, Selection.view, hview]
    constructor
    · intro h
      have hlength : s.faults.length = ((hidePointer st).cons k).faults.length := by
        have hmore := length_faults_hidePointer hk
        rw [hr.faults] at hmore
        refine Nat.le_antisymm hmore ?_
        rw [← h.faults, faults_highlight]
        exact length_faults_check _ _
      have hp := hpointer hlength
      refine ⟨hp, fun start' hs' => ?_⟩
      obtain rfl := Option.some.inj hs'
      exact (textIn_highlight hr hwin hw hook hsame (textIn_hidePointer hr hwin hk hfit hp) hs hl
        hle).mp h
    · rintro ⟨hp, hsel⟩
      exact (textIn_highlight hr hwin hw hook hsame (textIn_hidePointer hr hwin hk hfit hp) hs hl
        hle).mpr (hsel start rfl)

/-- A console that has been refitted is displayed with the text that is in its buffer then. -/
theorem shown_updateScreen (hr : Refitted D s cols rows buf t) (hu : SameButCells t u)
    (hw : HasWindow D s buf (2 * cols * rows) win) (hv : s.vt.visible = true)
    (hbare : s.vt.cursorOriginal = none) :
    Shown D u (updateScreen D u) ∧ (updateScreen D u).geo.origin = win := by
  obtain ⟨mem, faults, draws, rfl⟩ := hu
  have hvisible : t.vt.visible = true := by rw [hr.vt, hv]
  have hwindow := fun ds =>
    hw.shows { t with mem := mem, faults := faults, draws := ds } hvisible hr.modes
      (congrArg Geom.screenbuf hr.geo) (congrArg Geom.screenbufSize hr.geo)
  have hshown : Shown D { t with mem := mem, faults := faults, draws := draws }
      (updateScreen D { t with mem := mem, faults := faults, draws := draws }) := by
    refine updateScreen_shown (fun ds => (hwindow ds).2) ?_ ?_ ?_ ?_ ?_
    · change t.vt.cursorOriginal = none
      rw [hr.vt]
      exact hbare
    · change t.geo.sizeRow = 2 * t.geo.cols
      rw [hr.geo]
    · change t.geo.screenbufSize = 2 * t.geo.cols * t.geo.rows
      rw [hr.geo]
    · change t.cur.x < t.geo.cols
      rw [hr.geo]
      exact hr.cursor.1
    · change t.cur.y < t.geo.rows
      rw [hr.geo]
      exact hr.cursor.2
  obtain ⟨ds, horigin⟩ := hshown.origin
  exact ⟨hshown, horigin.trans (hwindow ds).1⟩

theorem keepsText_zero (st' : Selection) (cols lines : Nat) (newscreen : Option Nat) :
    KeepsText st k cols lines newscreen (st', 0) ↔ TextKept (st.cons k)
      (resizeCols (st.cons k) cols) (resizeRows (st.cons k) lines) newscreen (st'.cons k) :=
  ⟨fun h => h.1 rfl, fun h => ⟨fun _ => h, fun hne => absurd rfl hne⟩⟩

theorem keepsText_error {err : Int} (herr : err ≠ 0) (cols lines : Nat) (newscreen : Option Nat) :
    KeepsText st k cols lines newscreen (st, err) :=
  ⟨fun h => absurd h herr, fun _ => rfl⟩

/-- **The text of a displayed console** after a resize, if it is `sel_cons`. -/
theorem textKept_displayed_iff {st : Selection} {k cols rows buf win : Nat}
    (hr : Refitted (d k) (st.cons k) cols rows buf (refit (d k) (st.cons k) cols rows buf))
    (hw : HasWindow (d k) (st.cons k) buf (2 * cols * rows) win) (hook : StableHook (d k))
    (hfit : SelectionFits st k buf (2 * cols * rows)) (hv : (st.cons k).vt.visible = true)
    (hbare : (st.cons k).vt.cursorOriginal = none) :
    TextKept (st.cons k) cols rows (some buf) ((resizeOn d st k cols rows buf).cons k) ↔
      (st.selCons = some k → Harmless (d k) st k cols rows buf win) := by
  have hcons := refitOn_cons (d := d) st k cols rows buf
  rw [← hcons] at hr
  have hwin : ((refitOn d st k cols rows buf).cons k).geo.origin = win := by
    obtain ⟨u, hvisible, hmodes, hbuf, hsize, horigin⟩ := hr.origin
    exact horigin.trans (hw.shows u (hvisible.trans hv) hmodes hbuf hsize).1
  have hview : (refitOn d st k cols rows buf).visibleOrigin k = win :=
    (Function.update_self ..).trans hwin
  have hvisible : ((refitOn d st k cols rows buf).cons k).vt.visible = true := by rw [hr.vt, hv]
  have hsame := sameButCells_cleared d (refitOn d st k cols rows buf) k
  obtain ⟨hshown, horigin⟩ := shown_updateScreen hr hsame hw hv hbare
  rw [resizeOn, if_pos hvisible, updateScreenOn_cons, textKept_iff hr hsame hshown horigin]
  by_cases hsel : st.selCons = some k
  · refine (textIn_cleared_iff hr hwin hview hw hook ⟨hfit.ends, hfit.pointer⟩ hsel).trans ?_
    exact ⟨fun h _ => h, fun h => h hsel⟩
  · have hnone : cleared d (refitOn d st k cols rows buf) k = refitOn d st k cols rows buf :=
      if_neg hsel
    rw [hnone]
    exact iff_of_true hr.textIn fun h => absurd h hsel

/-- **Resizing keeps the text** exactly if the call does not get to a displayed console with a
selection, or taking the selection away at its old offsets does no harm. -/
theorem resize_keeps_text {N : Nat} (cols lines : Nat) (newscreen : Option Nat) (win : Nat)
    (hscreen : WholeScreen N (st.cons k))
    (hnew : ∀ buf, newscreen = some buf →
      let size := 2 * resizeCols (st.cons k) cols * resizeRows (st.cons k) lines
      (buf + size ≤ (st.cons k).geo.origin ∨ (st.cons k).geo.scrEnd ≤ buf) ∧
        HasWindow (d k) (st.cons k) buf size win ∧ SelectionFits st k buf size)
    (hook : StableHook (d k)) :
    KeepsText st k cols lines newscreen (vcResizeOn d st k cols lines newscreen) ↔
      ∀ buf, newscreen = some buf → (st.cons k).vt.visible = true →
        Goes (d k) (st.cons k) cols lines → st.selCons = some k →
          Harmless (d k) st k (resizeCols (st.cons k) cols) (resizeRows (st.cons k) lines) buf
            win := by
  rw [vcResizeOn]
  dsimp only
  split
  case isTrue hmax =>
    refine iff_of_true (keepsText_error (by decide) ..) fun _ _ _ hgoes => ?_
    have hle := hgoes.1
    omega
  next hmax =>
  split
  case isTrue hsame =>
    refine iff_of_true ?_ fun _ _ _ hgoes => absurd hsame hgoes.2.1
    rw [keepsText_zero, hsame.1, hsame.2]
    exact hscreen.textKept newscreen
  next hdiff =>
  cases newscreen with
  | none => exact iff_of_true (keepsText_error (by decide) ..) fun _ h => by cases h
  | some buf =>
    dsimp only
    split
    case isTrue herr =>
      exact iff_of_true (keepsText_error herr ..) fun _ _ _ hgoes => absurd hgoes.2.2 herr
    next herr =>
    have hgoes : Goes (d k) (st.cons k) cols lines := ⟨by omega, hdiff, not_not.mp herr⟩
    obtain ⟨hapart, hw, hfit⟩ := hnew buf rfl
    have hcols : 0 < resizeCols (st.cons k) cols := by
      have hpos := hscreen.bounds.cols_pos
      rw [resizeCols]
      split
      · omega
      · omega
    have hrows : 0 < resizeRows (st.cons k) lines := by
      have hpos := hscreen.bounds.y_lt
      rw [resizeRows]
      split
      · omega
      · omega
    have hr := refit_spec (d := d k) hscreen.bounds hscreen.screen hcols hrows hapart
    rw [keepsText_zero]
    cases hv : (st.cons k).vt.visible with
    | false =>
      have hkept : TextKept (st.cons k) _ _ (some buf) _ := textKept_hidden hr hv
      have hvisible : ((refitOn d st k (resizeCols (st.cons k) cols)
          (resizeRows (st.cons k) lines) buf).cons k).vt.visible ≠ true := by
        rw [refitOn_cons, hr.vt, hv]
        decide
      refine iff_of_true ?_ fun _ _ h => absurd h Bool.false_ne_true
      rw [resizeOn, if_neg hvisible, refitOn_cons]
      exact hkept
    | true =>
      rw [textKept_displayed_iff hr hw hook hfit hv hscreen.bare]
      constructor
      · rintro h buf' hbuf - -
        obtain rfl := Option.some.inj hbuf
        exact h
      · intro h
        exact h buf rfl rfl hgoes

/-! ### At the start -/

theorem hasWindow_buffer (horigin : ∀ s, D.conSetOrigin s = none)
    (hcolour : ∀ s, (D.conSwitch s).2.1 = s.rend.canDoColor)
    (hmem : ∀ s, (D.conSwitch s).1 = s.mem) (s : Con) {buf : Nat} (heven : buf % 2 = 0)
    (size : Nat) : HasWindow D s buf size buf := by
  refine ⟨heven, .inl rfl, fun t _ _ hbuf _ => ?_⟩
  have hplace : (setOrigin D t).geo.origin = t.geo.screenbuf := by
    change (if t.vt.visible then D.conSetOrigin t.seen else none).getD t.geo.screenbuf = _
    rw [horigin, ite_self]
    rfl
  refine ⟨hplace.trans hbuf, hcolour _, fun i _ => ?_, fun a _ => ?_⟩
  · rw [hmem, hplace]
    rfl
  · rw [hmem]
    rfl

theorem wholeScreen_bootCon : WholeScreen 80 bootCon where
  bounds := by constructor <;> decide
  screen := ⟨rfl, rfl⟩
  saved := by decide
  bare := rfl

/-- Without a selection the text is kept in 100 columns. -/
theorem resize_keeps_text_boot :
    KeepsText (bootSelection (fun _ => bootCon) fun _ => 0x1000) 0 100 0 (some 0x9000)
      (vcResizeOn (fun _ => dummyCon) (bootSelection (fun _ => bootCon) fun _ => 0x1000) 0 100 0
        (some 0x9000)) := by
  have hwindow : ∀ size, HasWindow dummyCon bootCon 0x9000 size 0x9000 :=
    hasWindow_buffer (D := dummyCon) (fun _ => rfl) (fun _ => rfl) (fun _ => rfl) bootCon
      (by decide)
  have hfit : ∀ buf size,
      SelectionFits (bootSelection (fun _ => bootCon) fun _ => 0x1000) 0 buf size :=
    fun buf size => ⟨fun start h => absurd h.symm (Option.some_ne_none start),
      fun p h => absurd h.symm (Option.some_ne_none p)⟩
  have happart : bootCon.geo.scrEnd ≤ 0x9000 := by decide
  have hiff := @resize_keeps_text (fun _ => dummyCon)
    (bootSelection (fun _ => bootCon) fun _ => 0x1000) 0 80 100 0 (some 0x9000) 0x9000
    wholeScreen_bootCon
  refine (hiff ?_ ?_).mpr ?_
  · intro buf hbuf
    obtain rfl := Option.some.inj hbuf
    exact ⟨.inr happart, hwindow _, hfit _ _⟩
  · exact fun _ _ => invertHook_congr (.inl rfl)
  · intro _ _ _ _ h
    exact absurd h.symm (Option.some_ne_none 0)

/-- The second row has been selected. -/
def rowSelected : Selection :=
  run (selStep fun _ => dummyCon) (bootSelection (fun _ => bootCon) fun _ => 0x1000)
    [.set 0 0 (some ⟨1, 2, 2, 2, .char⟩) false true]

/-- The second row has been selected, and the console has 100 columns. -/
def rowResized : Selection × Int :=
  vcResizeOn (fun _ => dummyCon) rowSelected 0 100 0 (some 0x9000)

/-- **The highlight moves.**  In 100 columns the offset of the second row is in the first one, where
a blank cell is inverted. -/
theorem resize_moves_highlight : ¬KeepsText rowSelected 0 100 0 (some 0x9000)
    (vcResizeOn (fun _ => dummyCon) rowSelected 0 100 0 (some 0x9000)) := by
  change ¬KeepsText rowSelected 0 100 0 (some 0x9000) rowResized
  intro h
  have hzero : rowResized.2 = 0 := by decide +kernel
  have hrows : 0 < resizeRows (rowSelected.cons 0) 0 := by decide +kernel
  have hcols : 80 < resizeCols (rowSelected.cons 0) 100 := by decide +kernel
  have hcell := (h.1 hzero).cells 0 hrows 80 hcols
  have hinverted : (rowResized.1.cons 0).logical ((rowResized.1.cons 0).geo.origin +
      0 * (rowResized.1.cons 0).geo.sizeRow + 2 * 80) ≠ movedCell (rowSelected.cons 0)
        (resizeRows (rowSelected.cons 0) 0) (rowResized.1.cons 0).rend.videoEraseChar 0 80 := by
    decide +kernel
  exact hinverted hcell

end LinuxConsole
