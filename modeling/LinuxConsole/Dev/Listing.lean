import LinuxConsole.Lib.Slice
import Mathlib.Data.List.Basic

/-!
# The list of input devices

`/proc/bus/input/devices` has a record for every device.  The function that reads it prints
all records anew at each call, one over the other as long as they end before the position,
and then one behind the other, and it returns the place in the buffer where the position is.

**`inputDevicesRead_listing`**: a call returns the bytes of the listing from the position on,
as many as were asked for and as there are, and calls that each go on where the last one
ended return the whole listing and then nothing.
-/

namespace LinuxConsole.Dev

open Lib

/-! ### Records -/

/-- What the listing says of a device.  A bitmap is the list of its words, the lowest first,
and a text is what stands before its terminating zero. -/
structure ProcDev where
  bustype : Nat
  vendor : Nat
  product : Nat
  version : Nat
  name : Option (List Char)
  phys : Option (List Char)
  handlers : List (List Char)
  evbit : List Nat
  keybit : List Nat
  relbit : List Nat
  absbit : List Nat
  mscbit : List Nat
  ledbit : List Nat
  sndbit : List Nat
  ffbit : List Nat

def evKey : Nat := 0x01
def evRel : Nat := 0x02
def evAbs : Nat := 0x03
def evMsc : Nat := 0x04
def evLed : Nat := 0x11
def evSnd : Nat := 0x12
def evFf : Nat := 0x15

/-- `test_bit`; `bitsPerLong` is the width of a word. -/
def testBit (bitsPerLong n : Nat) (bit : List Nat) : Bool :=
  ((bit[n / bitsPerLong]?).getD 0).testBit (n % bitsPerLong)

/-- `%lx`. -/
def hex (n : Nat) : List Char := Nat.toDigits 16 n

/-- `%04x`. -/
def hex4 (n : Nat) : List Char := (hex n).leftpad 4 '0'

/-- `SPRINTF_BIT_B`: what each `sprintf` prints.  Words above the highest one that is not zero
are left out. -/
def bitPieces (name : String) (bit : List Nat) : List (List Char) :=
  ("B: ".toList ++ name.toList) ::
    ((bit.reverse.dropWhile (· = 0)).map fun word => hex word ++ [' ']) ++ [['\n']]

/-- `SPRINTF_BIT_B2`. -/
def bitPieces2 (bitsPerLong : Nat) (dev : ProcDev) (name : String) (bit : List Nat) (ev : Nat) :
    List (List Char) :=
  if testBit bitsPerLong ev dev.evbit then bitPieces name bit else []

/-- What each `sprintf` prints for a device. -/
def pieces (bitsPerLong : Nat) (dev : ProcDev) : List (List Char) :=
  ["I: Bus=".toList ++ hex4 dev.bustype ++ " Vendor=".toList ++ hex4 dev.vendor ++
      " Product=".toList ++ hex4 dev.product ++ " Version=".toList ++ hex4 dev.version ++ ['\n'],
    "N: Name=\"".toList ++ dev.name.getD [] ++ "\"\n".toList,
    "P: Phys=".toList ++ dev.phys.getD [] ++ ['\n'],
    "H: Handlers=".toList] ++
  dev.handlers.map (fun name => name ++ [' ']) ++
  [['\n']] ++
  bitPieces "EV=" dev.evbit ++
  bitPieces2 bitsPerLong dev "KEY=" dev.keybit evKey ++
  bitPieces2 bitsPerLong dev "REL=" dev.relbit evRel ++
  bitPieces2 bitsPerLong dev "ABS=" dev.absbit evAbs ++
  bitPieces2 bitsPerLong dev "MSC=" dev.mscbit evMsc ++
  bitPieces2 bitsPerLong dev "LED=" dev.ledbit evLed ++
  bitPieces2 bitsPerLong dev "SND=" dev.sndbit evSnd ++
  bitPieces2 bitsPerLong dev "FF=" dev.ffbit evFf ++
  [['\n']]

/-- The record of a device. -/
def record (bitsPerLong : Nat) (dev : ProcDev) : List Char := (pieces bitsPerLong dev).flatten

/-- The records of all devices. -/
def listing (bitsPerLong : Nat) (devs : List ProcDev) : List Char :=
  devs.flatMap (record bitsPerLong)

/-! ### Printing -/

def nul : Char := Char.ofNat 0

/-- `sprintf(buf, …)` writes a text and a zero behind it. -/
def sprintf (mem : Nat → Char) (buf : Nat) (text : List Char) : Nat → Char :=
  splice mem buf (text ++ [nul])

/-- `len += sprintf(buf + len, …)` for each text. -/
def sprintfAll (buf : Nat) (mem : Nat → Char) (len : Nat) (texts : List (List Char)) :
    (Nat → Char) × Nat :=
  texts.foldl (fun s text => (sprintf s.1 (buf + s.2) text, s.2 + text.length)) (mem, len)

/-! ### Reading -/

/-- The variables of `input_devices_read`; `upto` is `at`. -/
structure Cursor where
  mem : Nat → Char
  buf : Nat
  upto : Nat
  start : Option Nat
  cnt : Nat

/-- What the body of the loop does with a record that reaches the position. -/
def Cursor.keep (c : Cursor) (pos len : Nat) : Cursor :=
  let start := c.buf + (pos - (c.upto - len))
  match c.start with
  | none => { c with start := some start, cnt := c.upto - pos, buf := c.buf + len }
  | some _ => { c with cnt := c.cnt + len, buf := c.buf + len }

/-- The loop; the second result is `*eof`. -/
def readLoop (bitsPerLong pos count : Nat) : List ProcDev → Cursor → Cursor × Bool
  | [], c => (c, true)
  | dev :: devs, c =>
    let (mem, len) := sprintfAll c.buf c.mem 0 (pieces bitsPerLong dev)
    let c := { c with mem := mem, upto := c.upto + len }
    if c.upto ≥ pos then
      let c := c.keep pos len
      if c.cnt ≥ count then (c, false) else readLoop bitsPerLong pos count devs c
    else readLoop bitsPerLong pos count devs c

/-- What a call returns: its value, `*start` and `*eof`, and the memory. -/
structure ReadResult where
  mem : Nat → Char
  start : Option Nat
  result : Nat
  eof : Bool

def Cursor.finish (c : Cursor) (count : Nat) (eof : Bool) : ReadResult :=
  ⟨c.mem, c.start, if count > c.cnt then c.cnt else count, eof⟩

def inputDevicesRead (bitsPerLong : Nat) (devs : List ProcDev) (mem : Nat → Char)
    (buf pos count : Nat) : ReadResult :=
  let (c, eof) := readLoop bitsPerLong pos count devs ⟨mem, buf, 0, none, 0⟩
  c.finish count eof

/-- The bytes that the caller gets; without a `*start` there are none. -/
def ReadResult.bytes (r : ReadResult) : List Char :=
  match r.start with
  | none => []
  | some start => slice r.mem start r.result

/-- A call in a sequence of reads: how much is asked for, and the buffer. -/
structure ReadCall where
  count : Nat
  mem : Nat → Char
  buf : Nat

/-- A reader goes on where the last call ended until a call returns nothing; `none` if the
calls do not suffice. -/
def readAll (bitsPerLong : Nat) (devs : List ProcDev) : Nat → List ReadCall → Option (List Char)
  | _, [] => none
  | pos, call :: calls =>
    let r := inputDevicesRead bitsPerLong devs call.mem call.buf pos call.count
    if r.result = 0 then some []
    else (readAll bitsPerLong devs (pos + r.result) calls).map (r.bytes ++ ·)

/-! ### What is printed -/

theorem sprintf_of_lt (mem : Nat → Char) {buf i : Nat} (text : List Char) (h : i < buf) :
    sprintf mem buf text i = mem i := splice_of_lt mem _ h

theorem slice_sprintf (mem : Nat → Char) (buf : Nat) (text : List Char) :
    slice (sprintf mem buf text) buf text.length = text := by
  have hsplit : sprintf mem buf text =
      splice (splice mem buf text) (buf + text.length) [nul] := (splice_append mem buf text _).symm
  calc slice (sprintf mem buf text) buf text.length
      = slice (splice mem buf text) buf text.length := by
        rw [hsplit]
        exact slice_congr fun i hi => splice_of_lt _ _ (by omega)
    _ = text := slice_splice mem buf text

/-- **What has been printed at `buf`.** -/
structure Printed (mem : Nat → Char) (buf : Nat) (text : List Char) (mem' : Nat → Char) : Prop where
  text : slice mem' buf text.length = text
  below : ∀ i < buf, mem' i = mem i

theorem Printed.slice_below {mem mem' : Nat → Char} {buf : Nat} {text : List Char}
    (h : Printed mem buf text mem') {a n : Nat} (hle : a + n ≤ buf) :
    slice mem' a n = slice mem a n :=
  slice_congr fun i hi => h.below (a + i) (by omega)

theorem printed_sprintf (mem : Nat → Char) (buf : Nat) (text : List Char) :
    Printed mem buf text (sprintf mem buf text) :=
  ⟨slice_sprintf mem buf text, fun _ hi => sprintf_of_lt mem text hi⟩

theorem Printed.append {mem mem' mem'' : Nat → Char} {buf : Nat} {text text' : List Char}
    (h : Printed mem buf text mem') (h' : Printed mem' (buf + text.length) text' mem'') :
    Printed mem buf (text ++ text') mem'' := by
  constructor
  · rw [List.length_append, ← slice_append, h'.text, h'.slice_below (Nat.le_refl _), h.text]
  · intro i hi
    rw [h'.below i (by omega), h.below i hi]

theorem sprintfAll_spec (buf : Nat) (mem : Nat → Char) (texts : List (List Char)) :
    (sprintfAll buf mem 0 texts).2 = texts.flatten.length ∧
      Printed mem buf texts.flatten (sprintfAll buf mem 0 texts).1 := by
  induction texts using List.reverseRecOn with
  | nil => exact ⟨rfl, rfl, fun i _ => rfl⟩
  | append_singleton texts text ih =>
    obtain ⟨hlen, hprinted⟩ := ih
    have hstep : sprintfAll buf mem 0 (texts ++ [text]) =
        (sprintf (sprintfAll buf mem 0 texts).1 (buf + (sprintfAll buf mem 0 texts).2) text,
          (sprintfAll buf mem 0 texts).2 + text.length) := by
      rw [sprintfAll, List.foldl_append]
      rfl
    have hflatten : (texts ++ [text]).flatten = texts.flatten ++ text := by simp
    rw [hstep, hflatten, hlen, List.length_append]
    exact ⟨rfl, hprinted.append (printed_sprintf _ _ text)⟩

/-! ### The loop -/

/-- **The invariant**: `text` is what the records so far are, and from `*start` on the buffer
has what of it lies behind the position. -/
structure Cursor.At (c : Cursor) (pos : Nat) (text : List Char) : Prop where
  upto : c.upto = text.length
  none : c.start = none → text.length ≤ pos ∧ c.cnt = 0
  some : ∀ start, c.start = some start → pos ≤ text.length ∧ c.cnt = text.length - pos ∧
    start + c.cnt = c.buf ∧ slice c.mem start c.cnt = text.drop pos

theorem Cursor.At.skip {c : Cursor} {pos : Nat} {text : List Char} (h : c.At pos text)
    {rec : List Char} {mem : Nat → Char} (hlt : ¬c.upto + rec.length ≥ pos) :
    ({ c with mem := mem, upto := c.upto + rec.length } : Cursor).At pos (text ++ rec) := by
  have hupto := h.upto
  constructor
  · change c.upto + rec.length = _
    rw [h.upto, List.length_append]
  · intro hstart
    rw [List.length_append]
    exact ⟨by omega, (h.none hstart).2⟩
  · intro start hstart
    have hpos := (h.some start hstart).1
    omega

/-- A record that reaches the position stays in the buffer. -/
theorem Cursor.At.keep {c : Cursor} {pos : Nat} {text : List Char} (h : c.At pos text)
    {rec : List Char} {mem : Nat → Char} (hprinted : Printed c.mem c.buf rec mem)
    (hge : c.upto + rec.length ≥ pos) :
    (({ c with mem := mem, upto := c.upto + rec.length } : Cursor).keep pos rec.length).At pos
      (text ++ rec) := by
  have hupto := h.upto
  have hlength : (text ++ rec).length = text.length + rec.length := List.length_append
  cases hstart : c.start with
  | none =>
    obtain ⟨hpos, hcnt⟩ := h.none hstart
    -- The position is in this record, or at its end.
    have hdrop : (text ++ rec).drop pos =
        slice mem (c.buf + (pos - text.length)) (text.length + rec.length - pos) := by
      rw [List.drop_append, List.drop_of_length_le hpos, List.nil_append]
      calc rec.drop (pos - text.length)
          = (slice mem c.buf rec.length).drop (pos - text.length) := by rw [hprinted.text]
        _ = slice mem (c.buf + (pos - text.length)) (text.length + rec.length - pos) := by
          rw [drop_slice]
          congr 1
          omega
    simp only [Cursor.keep]
    refine ⟨by simp [hupto], by simp, ?_⟩
    rintro start ⟨⟩
    rw [hdrop, hlength]
    simp only [hupto, Nat.add_sub_cancel]
    exact ⟨by omega, trivial, by omega, trivial⟩
  | some start =>
    obtain ⟨hpos, hcnt, hbuf, hslice⟩ := h.some start hstart
    have hdrop : (text ++ rec).drop pos = slice mem start (c.cnt + rec.length) := by
      have hbelow : slice mem start c.cnt = slice c.mem start c.cnt :=
        hprinted.slice_below (by omega)
      rw [List.drop_append, Nat.sub_eq_zero_of_le hpos, List.drop_zero, ← slice_append, hbelow,
        hslice, hbuf, hprinted.text]
    simp only [Cursor.keep]
    refine ⟨by simp [hupto], by simp, ?_⟩
    rintro start' ⟨⟩
    rw [hdrop, hlength]
    exact ⟨by omega, by simp only []; omega, by simp only []; omega, rfl⟩

/-- **What the variables are worth at the end.** -/
theorem Cursor.At.bytes_finish {c : Cursor} {pos : Nat} {text : List Char} (h : c.At pos text)
    (count : Nat) (eof : Bool) :
    (c.finish count eof).bytes = (text.drop pos).take count ∧
      (c.finish count eof).result = ((text.drop pos).take count).length := by
  have hresult : (c.finish count eof).result = min count c.cnt := by
    change (if count > c.cnt then c.cnt else count) = min count c.cnt
    split <;> omega
  rw [hresult, List.length_take, List.length_drop, ReadResult.bytes, hresult]
  cases hstart : c.start with
  | none =>
    obtain ⟨hpos, hcnt⟩ := h.none hstart
    simp only [Cursor.finish, hstart]
    rw [List.drop_of_length_le hpos, List.take_nil, hcnt]
    exact ⟨rfl, by omega⟩
  | some start =>
    obtain ⟨hpos, hcnt, -, hslice⟩ := h.some start hstart
    simp only [Cursor.finish, hstart]
    rw [← hslice, take_slice, hcnt]
    exact ⟨rfl, rfl⟩

theorem Cursor.At.take_append {c : Cursor} {pos count : Nat} {text : List Char}
    (h : c.At pos text) (hcnt : c.cnt ≥ count) (rest : List Char) :
    ((text ++ rest).drop pos).take count = (text.drop pos).take count := by
  cases hstart : c.start with
  | none =>
    obtain ⟨-, hzero⟩ := h.none hstart
    have hcount : count = 0 := by omega
    rw [hcount, List.take_zero, List.take_zero]
  | some start =>
    obtain ⟨hpos, hlen, -, -⟩ := h.some start hstart
    rw [List.drop_append_of_le_length hpos, List.take_append_of_le_length]
    rw [List.length_drop]
    omega

theorem readLoop_spec (bitsPerLong pos count : Nat) (devs : List ProcDev) {c : Cursor}
    {text : List Char} (h : c.At pos text) :
    ∃ done rest, text ++ listing bitsPerLong devs = done ++ rest ∧
      (readLoop bitsPerLong pos count devs c).1.At pos done ∧
      (rest = [] ∨ (readLoop bitsPerLong pos count devs c).1.cnt ≥ count) := by
  induction devs generalizing c text with
  | nil => exact ⟨text, [], by simp [listing], h, Or.inl rfl⟩
  | cons dev devs ih =>
    obtain ⟨hlen, hprinted⟩ := sprintfAll_spec c.buf c.mem (pieces bitsPerLong dev)
    have hlisting : text ++ listing bitsPerLong (dev :: devs) =
        (text ++ (pieces bitsPerLong dev).flatten) ++ listing bitsPerLong devs := by
      rw [listing, List.flatMap_cons, ← List.append_assoc, listing, record]
    rw [hlisting, readLoop]
    generalize sprintfAll c.buf c.mem 0 (pieces bitsPerLong dev) = printed at hlen hprinted ⊢
    generalize (pieces bitsPerLong dev).flatten = rec at hlen hprinted ⊢
    obtain ⟨mem, len⟩ := printed
    obtain rfl : len = rec.length := hlen
    by_cases hge : c.upto + rec.length ≥ pos
    · have hkeep := h.keep hprinted hge
      simp only [if_pos hge]
      split
      · rename_i hcnt
        exact ⟨_, _, rfl, hkeep, Or.inr hcnt⟩
      · exact ih hkeep
    · simp only [if_neg hge]
      exact ih (h.skip hge)

/-! ### Calls -/

/-- **A call** returns what is there of what was asked for. -/
theorem inputDevicesRead_spec (bitsPerLong : Nat) (devs : List ProcDev) (mem : Nat → Char)
    (buf pos count : Nat) :
    (inputDevicesRead bitsPerLong devs mem buf pos count).bytes =
        ((listing bitsPerLong devs).drop pos).take count ∧
      (inputDevicesRead bitsPerLong devs mem buf pos count).result =
        (((listing bitsPerLong devs).drop pos).take count).length := by
  have hinit : (⟨mem, buf, 0, none, 0⟩ : Cursor).At pos [] :=
    ⟨rfl, fun _ => ⟨Nat.zero_le pos, rfl⟩, fun start hstart => by cases hstart⟩
  obtain ⟨done, rest, hlisting, hat, hend⟩ := readLoop_spec bitsPerLong pos count devs hinit
  have hbytes := hat.bytes_finish count
    (readLoop bitsPerLong pos count devs ⟨mem, buf, 0, none, 0⟩).2
  have htake : ((listing bitsPerLong devs).drop pos).take count = (done.drop pos).take count := by
    rw [← List.nil_append (listing bitsPerLong devs), hlisting]
    rcases hend with rfl | hcnt
    · rw [List.append_nil]
    · exact hat.take_append hcnt rest
  rw [htake]
  exact hbytes

theorem readAll_spec (bitsPerLong : Nat) (devs : List ProcDev) {calls : List ReadCall}
    (hcount : ∀ call ∈ calls, 0 < call.count) {pos : Nat}
    (hlen : (listing bitsPerLong devs).length - pos < calls.length) :
    readAll bitsPerLong devs pos calls = some ((listing bitsPerLong devs).drop pos) := by
  induction calls generalizing pos with
  | nil => simp at hlen
  | cons call calls ih =>
    obtain ⟨hbytes, hresult⟩ :=
      inputDevicesRead_spec bitsPerLong devs call.mem call.buf pos call.count
    have hpos := hcount call List.mem_cons_self
    have hprefix := List.take_prefix call.count ((listing bitsPerLong devs).drop pos)
    simp only [readAll, hbytes, hresult]
    split
    · rename_i hzero
      have hnil : ((listing bitsPerLong devs).drop pos).take call.count = [] :=
        List.eq_nil_of_length_eq_zero hzero
      rw [(List.take_eq_nil_iff.mp hnil).resolve_left (by omega)]
    · rename_i hsome
      have hle := hprefix.length_le
      rw [List.length_drop] at hle
      rw [List.prefix_iff_eq_append] at hprefix
      rw [ih, Option.map_some, ← List.drop_drop, hprefix]
      · exact fun call' h => hcount call' (List.mem_cons_of_mem call h)
      · rw [List.length_cons] at hlen
        omega

/-- **Chunked reading.** -/
theorem inputDevicesRead_listing (bitsPerLong : Nat) (devs : List ProcDev) :
    (∀ mem buf pos count,
      (inputDevicesRead bitsPerLong devs mem buf pos count).bytes =
          ((listing bitsPerLong devs).drop pos).take count ∧
        (inputDevicesRead bitsPerLong devs mem buf pos count).result =
          min (pos + count) (listing bitsPerLong devs).length - pos) ∧
      ∀ calls : List ReadCall, (∀ call ∈ calls, 0 < call.count) →
        (listing bitsPerLong devs).length < calls.length →
        readAll bitsPerLong devs 0 calls = some (listing bitsPerLong devs) := by
  constructor
  · intro mem buf pos count
    obtain ⟨hbytes, hresult⟩ := inputDevicesRead_spec bitsPerLong devs mem buf pos count
    refine ⟨hbytes, ?_⟩
    rw [hresult, List.length_take, List.length_drop]
    omega
  · intro calls hcount hlen
    have hall := readAll_spec bitsPerLong devs hcount (show _ - 0 < calls.length from hlen)
    rw [hall, List.drop_zero]

end LinuxConsole.Dev
