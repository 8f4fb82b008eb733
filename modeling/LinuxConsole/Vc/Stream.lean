import LinuxConsole.Lib.Run
import LinuxConsole.Vte.Place
import LinuxConsole.Vc.Batch

/-!
# A stream of writes

`do_con_write` byte by byte.  A `Writing` is a write that is going on, and `writeStep` its next byte
or the start of the next write; `writes_eq_run` says that **the writes to a console are the runs**
of this step.

A byte is handed to the emulator, stored as the glyph `Writing.glyph`, or only moves the decoder.
`moves_writeStep` is what each does with the cursor: but for a glyph, which advances it, this is
`Moves` of the emulator.
-/

namespace LinuxConsole

open Lib

variable {d : Driver} {N : Nat} {F : List Fault} {W S : Prop} {s : Con}

/-- **A write that is going on**: its `himask`, the console, the cells not yet drawn. -/
structure Writing where
  himask : Cell
  con : Con
  batch : Batch

/-- What comes next: a byte, or the end of this write and the start of another. -/
inductive WriteOp
  | byte (c : Nat)
  | next

/-- FLUSH ends the write. -/
def Writing.close (w : Writing) : Con := (flush w.con w.batch).1

/-- A console that is not being written to. -/
def Writing.idle (s : Con) : Writing := ⟨0, s, ⟨none, 0, 0⟩⟩

/-- A write begins. -/
def Writing.start (s : Con) : Writing :=
  ⟨(undrawCursor s).rend.hiFontMask, undrawCursor s, ⟨none, 0, 0⟩⟩

/-- **A step of the stream.** -/
def writeStep (d : Driver) (w : Writing) : WriteOp → Writing
  | .byte c => ⟨w.himask, (writeByte d w.himask (w.con, w.batch) c).1,
      (writeByte d w.himask (w.con, w.batch) c).2⟩
  | .next => .start w.close

/-- The bytes of the writes. -/
def writeOps (chunks : List (List Nat)) : List WriteOp :=
  chunks.flatMap fun buf => .next :: buf.map .byte

theorem run_bytes (buf : List Nat) : ∀ w : Writing, run (writeStep d) w (buf.map .byte) =
    ⟨w.himask, (writeLoop d w.himask (w.con, w.batch) buf).1,
      (writeLoop d w.himask (w.con, w.batch) buf).2⟩ := by
  induction buf with
  | nil => exact fun _ => rfl
  | cons c buf ih => exact fun w => ih (writeStep d w (.byte c))

/-- **The writes are a run of the stream.** -/
theorem writes_eq_run (chunks : List (List Nat)) : ∀ w : Writing,
    writes d w.close chunks = (run (writeStep d) w (writeOps chunks)).close := by
  induction chunks with
  | nil => exact fun _ => rfl
  | cons buf chunks ih =>
    intro w
    have hbuf : doConWrite d w.close buf =
        (run (writeStep d) (writeStep d w .next) (buf.map .byte)).close := by
      rw [run_bytes]
      rfl
    show writes d (doConWrite d w.close buf) chunks = _
    rw [hbuf, ih]
    show _ = (run (writeStep d) w ((.next :: buf.map .byte) ++ writeOps chunks)).close
    rw [run_append]
    rfl

/-! ### Bytes -/

/-- The glyph a byte is stored as. -/
def Writing.glyph (w : Writing) (c : Nat) : Option Nat :=
  match (translateByte w.con c).2 with
  | some (ch, tc) =>
    if w.con.ps.state = .init ∧ glyphOk (translateByte w.con c).1 ch tc then
      glyphShown w.himask w.con.uni ch tc
    else none
  | none => none

theorem putGlyph_fst (himask : Cell) (g : Nat) (s : Con) (b : Batch) : ∃ ds,
    (putGlyph d himask g s b).1 = advance (storeGlyph d himask g { s with draws := ds }) := by
  obtain ⟨ds, hf⟩ := flush_fst s b
  rw [putGlyph]
  by_cases hflush : (s.cur.needWrap || s.modes.irm) = true
  · rw [if_pos hflush]
    refine ⟨ds, ?_⟩
    rw [← hf]
  · rw [if_neg hflush]
    exact ⟨s.draws, rfl⟩

/-- **A byte that is shown** stores its glyph. -/
theorem writeStep_glyph {w : Writing} {c g : Nat} (h : w.glyph c = some g) : ∃ u ds,
    (writeStep d w (.byte c)).con =
      advance (storeGlyph d w.himask g { w.con with dec := u, draws := ds }) := by
  obtain ⟨u, hu⟩ := translateByte_fst w.con c
  rw [Writing.glyph] at h
  rw [writeStep, writeByte]
  generalize translateByte w.con c = t at hu h
  obtain ⟨s, o⟩ := t
  obtain rfl : s = { w.con with dec := u } := hu
  cases o with
  | none => contradiction
  | some p =>
    obtain ⟨ch, tc⟩ := p
    dsimp only at h ⊢
    split at h
    case isTrue hshown =>
      rw [if_pos hshown]
      rw [glyphShown] at h
      split at h
      case isTrue => contradiction
      case isFalse hno =>
        obtain ⟨ds, hput⟩ := putGlyph_fst (d := d) w.himask (shownGlyph w.con.uni ch tc).toNat
          { w.con with dec := u } w.batch
        rw [if_neg hno, hput, Option.some.inj h]
        exact ⟨u, ds, rfl⟩
    case isFalse => contradiction

/-- **A byte that is neither shown nor handed over** only moves the decoder. -/
theorem writeStep_silent {w : Writing} {c : Nat} (h : handed w.con c = none)
    (hg : w.glyph c = none) : ∃ u, (writeStep d w (.byte c)).con = { w.con with dec := u } := by
  obtain ⟨u, hu⟩ := translateByte_fst w.con c
  rw [handed] at h
  rw [Writing.glyph] at hg
  rw [writeStep, writeByte]
  generalize translateByte w.con c = t at hu h hg
  obtain ⟨s, o⟩ := t
  obtain rfl : s = { w.con with dec := u } := hu
  cases o with
  | none => exact ⟨u, rfl⟩
  | some p =>
    obtain ⟨ch, tc⟩ := p
    dsimp only at h hg ⊢
    split at h
    case isTrue hshown =>
      rw [if_pos hshown, glyphShown] at hg
      rw [if_pos hshown]
      split at hg
      case isTrue hno =>
        rw [if_pos hno]
        exact ⟨u, rfl⟩
      case isFalse => contradiction
    case isFalse => contradiction

/-- **A byte that is handed over** is a step of the emulator. -/
theorem writeStep_handed {w : Writing} {c ch : Nat} (h : handed w.con c = some ch) : ∃ u ds,
    (writeStep d w (.byte c)).con =
      terminalEmulation d { w.con with dec := u, draws := ds } ch := by
  obtain ⟨u, hu⟩ := translateByte_fst w.con c
  obtain ⟨ds, hf⟩ := flush_fst (translateByte w.con c).1 w.batch
  refine ⟨u, ds, ?_⟩
  rw [writeStep, writeByte_handed (w := (w.con, w.batch)) w.himask h, hf, hu]

/-! ### The cursor -/

/-- The byte strands a pending wrap. -/
def Writing.strands (w : Writing) : WriteOp → Bool
  | .byte c => (handed w.con c).any w.con.strands
  | .next => false

/-- The byte saves the cursor. -/
def Writing.saves (w : Writing) : WriteOp → Bool
  | .byte c => (handed w.con c).any w.con.saves
  | .next => false

/-- The step stores a glyph. -/
def Writing.shows (w : Writing) : WriteOp → Bool
  | .byte c => (w.glyph c).isSome
  | .next => false

theorem moves_storeGlyph (himask : Cell) (g : Nat) (s : Con) :
    Moves W S s (storeGlyph d himask g s) := by
  have hwrap : Moves W S s (wrapPending d s) := by
    rw [wrapPending]
    exact .ite (fun _ => (moves_vteCr s).trans (moves_vteLf _)) fun _ => .refl s
  have hinsert (s : Con) : Moves W S s (insertPending s) := by
    rw [insertPending]
    exact .ite (fun _ => moves_insertChar s 1) fun _ => .refl s
  exact (hwrap.trans (hinsert _)).trans (.of_place rfl)

theorem Moves.unwrapped {s' : Con} (h : Moves True S s s') (hs : s.cur.needWrap = false) :
    s'.cur.needWrap = false := by
  by_contra hn
  have hfilled : Filled s := fun hwrap => by
    rw [hs] at hwrap
    contradiction
  have hbefore := (h.wrap trivial hfilled (Bool.not_eq_false _ ▸ hn)).1
  rw [hs] at hbefore
  contradiction

theorem storeGlyph_needWrap (himask : Cell) (g : Nat) (s : Con) :
    (storeGlyph d himask g s).cur.needWrap = false := by
  have hwrap : (wrapPending d s).cur.needWrap = false := by
    rw [wrapPending]
    split
    case isTrue => exact (moves_vteLf (S := True) (vteCr s)).unwrapped rfl
    case isFalse h => exact Bool.eq_false_iff.mpr h
  have hinsert : (insertPending (wrapPending d s)).cur.needWrap = false := by
    rw [insertPending]
    split
    · exact (moves_insertChar (S := True) _ 1).unwrapped hwrap
    · exact hwrap
  exact hinsert

theorem moves_advance (s : Con) : Moves False S s (advance s) := by
  rw [advance]
  split
  · exact ⟨rfl, rfl, fun hi => ⟨hi.rows_pos, hi.top_lt, hi.row⟩, fun hw => hw.elim, fun _ => rfl⟩
  · exact ⟨rfl, rfl, fun hi => ⟨hi.rows_pos, hi.top_lt, hi.row⟩, fun hw => hw.elim, fun _ => rfl⟩

/-- **A wrap is pending** behind a glyph in the last column, with autowrap on. -/
theorem filled_advance (hcols : 0 < s.geo.cols) (hwrap : s.cur.needWrap = false) :
    Filled (advance s) := by
  intro hn
  rw [advance] at hn ⊢
  split at hn
  case isTrue hlast =>
    rw [if_pos hlast]
    exact ⟨by show s.cur.x + 1 = s.geo.cols; omega, hn⟩
  case isFalse =>
    have hn : s.cur.needWrap = true := hn
    rw [hwrap] at hn
    contradiction

theorem place_undrawCursor (s : Con) : (undrawCursor s).place = s.place :=
  place_ite (place_hideCursor s) rfl

theorem place_close (w : Writing) : w.close.place = w.con.place := by
  obtain ⟨ds, hf⟩ := flush_fst w.con w.batch
  rw [Writing.close, hf]
  rfl

theorem place_next (w : Writing) : (writeStep d w .next).con.place = w.con.place :=
  (place_undrawCursor w.close).trans (place_close w)

/-- **What a step of the stream does with the cursor**, but for the glyphs. -/
theorem moves_writeStep (w : Writing) (a : WriteOp) :
    Moves (w.strands a = false ∧ w.shows a = false) (w.saves a = false) w.con
      (writeStep d w a).con := by
  cases a with
  | next => exact .of_place (place_next w)
  | byte c =>
    cases hh : handed w.con c with
    | some ch =>
      obtain ⟨u, ds, heq⟩ := writeStep_handed (d := d) hh
      have hem := moves_terminalEmulation (d := d) { w.con with dec := u, draws := ds } ch
      rw [heq]
      simp only [Writing.strands, Writing.saves, hh, Option.any_some]
      exact ⟨hem.cols, hem.rows, fun hi => hem.inside ⟨hi.rows_pos, hi.top_lt, hi.row⟩,
        fun hw hf => hem.wrap hw.1 hf, hem.saved⟩
    | none =>
      cases hg : w.glyph c with
      | none =>
        obtain ⟨u, heq⟩ := writeStep_silent (d := d) hh hg
        rw [heq]
        exact .of_place rfl
      | some g =>
        obtain ⟨u, ds, heq⟩ := writeStep_glyph (d := d) hg
        have hshow : ¬(w.strands (.byte c) = false ∧ w.shows (.byte c) = false) := by
          rw [Writing.shows, hg]
          simp
        have hstore := moves_storeGlyph (d := d) (W := False) (S := w.saves (.byte c) = false)
          w.himask g { w.con with dec := u, draws := ds }
        have hglyph := hstore.trans (moves_advance _)
        rw [heq]
        exact ⟨hglyph.cols, hglyph.rows, fun hi => hglyph.inside ⟨hi.rows_pos, hi.top_lt, hi.row⟩,
          fun hw => absurd hw hshow, hglyph.saved⟩

/-- **A wrap stays where it belongs** at a step that does not strand it. -/
theorem filled_writeStep {w : Writing} {a : WriteOp} (hcols : 0 < w.con.geo.cols)
    (hs : w.strands a = false) (hf : Filled w.con) : Filled (writeStep d w a).con := by
  by_cases hshow : w.shows a = false
  · exact (moves_writeStep w a).filled ⟨hs, hshow⟩ hf
  cases a with
  | next => exact absurd rfl hshow
  | byte c =>
    rw [Bool.not_eq_false, Writing.shows, Option.isSome_iff_exists] at hshow
    obtain ⟨g, hg⟩ := hshow
    obtain ⟨u, ds, heq⟩ := writeStep_glyph (d := d) hg
    have hstore := moves_storeGlyph (d := d) (W := False) (S := True) w.himask g
      { w.con with dec := u, draws := ds }
    rw [heq]
    refine filled_advance ?_ (storeGlyph_needWrap _ _ _)
    rw [hstore.cols]
    exact hcols

/-! ### Soundness -/

theorem Sound.undrawCursor (h : Sound d N F s) : Sound d N F (undrawCursor s) :=
  Sound.ite (fun _ => h.hideCursor) fun _ => h

/-- **A step of the stream keeps the geometry.** -/
theorem Sound.writeStep {w : Writing} (h : Sound d N F w.con) (a : WriteOp) :
    Sound d N F (writeStep d w a).con := by
  cases a with
  | byte c => exact Sound.writeByte (w := (w.con, w.batch)) h w.himask c
  | next => exact (Sound.flush h w.batch).undrawCursor

theorem inside_vcInit (hrows : 0 < s.geo.rows) (doClear : Bool) : Inside (vcInit d s doClear) := by
  have hreset (s : Con) : (resetVc s).geo.rows = s.geo.rows :=
    congrArg Place.rows (place_resetPalette _)
  rw [vcInit]
  refine inside_vteRis ?_ doClear
  show 0 < (resetVc { setOrigin d s with cur.pos := (setOrigin d s).geo.origin }).geo.rows
  rw [hreset]
  exact hrows

end LinuxConsole
