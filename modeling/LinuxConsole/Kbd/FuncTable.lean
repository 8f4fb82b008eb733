import Mathlib.Logic.Function.Basic

/-!
# The function key strings

`do_kdgkb_ioctl` of `vt_ioctl.c`, the ioctls `KDGKBSENT` and `KDSKBSENT`, and
what they work on: the table `func_table` of 256 pointers into one buffer, its
size and the count of the bytes left in it.

Memory is a set of blocks.  A pointer is a block and an offset, so that two
buffers never overlap and a pointer to an old buffer is not one into the new.
`func_buf`, the buffer of the generated keymap, is block 0.  `oob` records that
a byte was written outside its block; a freed block has size 0.
-/

namespace LinuxConsole

/-- A pointer into a block. -/
structure FuncPtr where
  blk : Nat
  off : Int
  deriving DecidableEq

def FuncPtr.add (p : FuncPtr) (n : Int) : FuncPtr := { p with off := p.off + n }

/-- `func_table`, `funcbufptr`, `funcbufsize`, `funcbufleft` and the memory. -/
structure FuncTable where
  table : Nat → Option FuncPtr
  bufptr : FuncPtr
  bufsize : Int
  bufleft : Int
  mem : Nat → Int → UInt8
  size : Nat → Int
  next : Nat
  oob : Bool

/-- `MAX_NR_FUNC`. -/
def MAX_NR_FUNC : Nat := 256

/-- `func_buf`. -/
def funcBuf : FuncPtr := ⟨0, 0⟩

/-- The characters up to the NUL, in at most `n` bytes from address `o`. -/
def cstr (m : Int → UInt8) : Nat → Int → List UInt8
  | 0, _ => []
  | n + 1, o => if m o = 0 then [] else m o :: cstr m n (o + 1)

namespace FuncTable

/-- The string at a pointer, as far as its block goes. -/
def stringAt (s : FuncTable) (p : FuncPtr) : List UInt8 :=
  cstr (s.mem p.blk) (s.size p.blk - p.off).toNat p.off

/-- The string of a key, if it has one. -/
def strings (s : FuncTable) (k : Nat) : Option (List UInt8) := (s.table k).map s.stringAt

/-- Whether `n` bytes from `p` on lie in the block of `p`. -/
def inBlock (s : FuncTable) (p : FuncPtr) (n : Int) : Bool :=
  n ≤ 0 ∨ 0 ≤ p.off ∧ p.off + n ≤ s.size p.blk

/-- `memmove`. -/
def memmove (s : FuncTable) (dst src : FuncPtr) (n : Int) : FuncTable :=
  { s with
    mem := fun b o =>
      if b = dst.blk ∧ dst.off ≤ o ∧ o < dst.off + n then s.mem src.blk (src.off + (o - dst.off))
      else s.mem b o
    oob := s.oob || !s.inBlock dst n }

/-- `strcpy` of a string with its NUL. -/
def strcpy (s : FuncTable) (dst : FuncPtr) (str : List UInt8) : FuncTable :=
  { s with
    mem := fun b o =>
      if b = dst.blk ∧ dst.off ≤ o ∧ o ≤ dst.off + str.length then
        (str ++ [0]).getD (o - dst.off).toNat 0
      else s.mem b o
    oob := s.oob || !s.inBlock dst (str.length + 1) }

/-- `kfree`. -/
def kfree (s : FuncTable) (p : FuncPtr) : FuncTable :=
  { s with size := Function.update s.size p.blk 0 }

/-- `func_table[i] = p`. -/
def setPtr (s : FuncTable) (i : Nat) (p : FuncPtr) : FuncTable :=
  { s with table := Function.update s.table i (some p) }

/-- The loops over `k` from `lo` up to `hi` that replace every pointer that is
not null. -/
def rebase (s : FuncTable) (lo hi : Nat) (f : FuncPtr → FuncPtr) : FuncTable :=
  { s with table := fun k => if lo ≤ k ∧ k < hi then (s.table k).map f else s.table k }

/-- `for (j = i + 1; j < MAX_NR_FUNC && !func_table[j]; j++);` -/
def nextUsed (s : FuncTable) : Nat → Nat → Nat
  | 0, j => j
  | n + 1, j => if j < MAX_NR_FUNC ∧ (s.table j).isNone then nextUsed s n (j + 1) else j

end FuncTable

/-- `while (sz < need) sz <<= 1;`.  At most `need` rounds are needed. -/
def growSize (need : Int) : Nat → Int → Int
  | 0, sz => sz
  | n + 1, sz => if sz < need then growSize need n (2 * sz) else sz

/-- The return values. -/
inductive KbRet
  | ok
  | efault
  | enomem
  | eperm
  | eoverflow
  deriving DecidableEq

/-- `if (!q) func_table[i] = fj;` -/
def FuncTable.setIfNull (s : FuncTable) (q : Option FuncPtr) (i : Nat) (fj : FuncPtr) :
    FuncTable :=
  if q.isNone then s.setPtr i fj else s

/-- What stands from `fj` on is moved by `delta` bytes, with its pointers. -/
def shiftTail (s : FuncTable) (fj firstFree : FuncPtr) (j : Nat) (delta : Int) : FuncTable :=
  if j < MAX_NR_FUNC then
    (s.memmove (fj.add delta) fj (firstFree.off - fj.off)).rebase j MAX_NR_FUNC (·.add delta)
  else s

/-- The branch of `KDSKBSENT` in which the new string fits, up to the copying
of the string. -/
def fitString (s : FuncTable) (i j : Nat) (fj firstFree : FuncPtr) (delta : Int) : FuncTable :=
  { (shiftTail s fj firstFree j delta).setIfNull (s.table i) i fj with
    bufleft := s.bufleft - delta }

/-- `fnw = kmalloc(sz)`, a block of its own. -/
def newBuffer (s : FuncTable) (sz : Int) : FuncTable :=
  { s with next := s.next + 1, size := Function.update s.size s.next sz }

/-- What stands before `fj` goes to the new buffer, with its pointers. -/
def copyHead (s : FuncTable) (fnw old fj : FuncPtr) (j : Nat) : FuncTable :=
  (if fj.off > old.off then s.memmove fnw old (fj.off - old.off) else s).rebase 0 j fun p =>
    fnw.add (p.off - old.off)

/-- What stands from `fj` on goes to the new buffer, `delta` bytes further. -/
def copyTail (s : FuncTable) (fnw old fj firstFree : FuncPtr) (j : Nat) (delta : Int) :
    FuncTable :=
  if firstFree.off > fj.off then
    (s.memmove (fnw.add (fj.off - old.off + delta)) fj (firstFree.off - fj.off)).rebase j
      MAX_NR_FUNC fun p => fnw.add (p.off - old.off + delta)
  else s

/-- The branch with a larger buffer of `sz` bytes, up to the copying of the
string. -/
def growString (s : FuncTable) (i j : Nat) (fj firstFree : FuncPtr) (delta sz : Int) :
    FuncTable :=
  let fnw : FuncPtr := ⟨s.next, 0⟩
  let s1 := (newBuffer s sz).setIfNull (s.table i) i fj
  let s2 := copyTail (copyHead s1 fnw s.bufptr fj j) fnw s.bufptr fj firstFree j delta
  let s3 := if s.bufptr ≠ funcBuf then s2.kfree s.bufptr else s2
  { s3 with
    bufptr := fnw
    bufleft := s.bufleft - delta + sz - s.bufsize
    bufsize := sz }

/-- `delta = (q ? -strlen(q) : 1) + strlen(kbs->kb_string)`. -/
def FuncTable.delta (s : FuncTable) (i : Nat) (str : List UInt8) : Int :=
  (match s.table i with
    | some q => -((s.stringAt q).length : Int)
    | none => 1) + str.length

/-- `strcpy(func_table[i], kbs->kb_string)`. -/
def FuncTable.copyString (s : FuncTable) (i : Nat) (str : List UInt8) : FuncTable :=
  match s.table i with
  | some p => s.strcpy p str
  | none => s

/-- `KDSKBSENT` with the permission.  `alloc` is the answer of `kmalloc` if a
larger buffer is asked for. -/
def setString (s : FuncTable) (i : Nat) (str : List UInt8) (alloc : Bool) : FuncTable × KbRet :=
  let firstFree := s.bufptr.add (s.bufsize - s.bufleft)
  let j := s.nextUsed MAX_NR_FUNC (i + 1)
  let fj := (if j < MAX_NR_FUNC then s.table j else none).getD firstFree
  let delta := s.delta i str
  if delta ≤ s.bufleft then ((fitString s i j fj firstFree delta).copyString i str, .ok)
  else if alloc then
    let need := s.bufsize - s.bufleft + delta
    let sz := growSize need need.toNat 256
    ((growString s i j fj firstFree delta sz).copyString i str, .ok)
  else (s, .enomem)

/-- What `KDGKBSENT` puts to the user: at most `sz` characters from `o` on.
`put n` is whether the `n`th `put_user` works.  The result is the bytes put, and
the address reached unless a `put_user` failed. -/
def putString (m : Int → UInt8) (put : Nat → Bool) : Nat → Int → Nat → List UInt8 × Option Int
  | 0, o, _ => ([], some o)
  | sz + 1, o, n =>
    if m o = 0 then ([], some o)
    else if put n then
      let r := putString m put sz (o + 1) (n + 1)
      (m o :: r.1, r.2)
    else ([], none)

/-- `KDGKBSENT`: the return value and the bytes put to the user. -/
def getString (s : FuncTable) (i : Nat) (put : Nat → Bool) : KbRet × List UInt8 :=
  match s.table i with
  | none => if put 0 then (.ok, [0]) else (.efault, [])
  | some p =>
    match putString (s.mem p.blk) put 511 p.off 0 with
    | (out, none) => (.efault, out)
    | (out, some o) =>
      if put out.length then (if s.mem p.blk o ≠ 0 then .eoverflow else .ok, out ++ [0])
      else (.efault, out)

inductive KbCmd
  | get
  | set
  deriving DecidableEq

/-- A call with the `struct kbsentry` of the user and what the kernel meets on
its way: the two allocations, the copy from and the puts to the user, and the
permission. -/
structure KbCall where
  cmd : KbCmd
  kbFunc : UInt8
  kbString : Nat → UInt8
  kmallocKbs : Bool
  copyFromUser : Bool
  putUser : Nat → Bool
  kmallocBuf : Bool
  perm : Bool

/-- The string of the call: `kb_string[511]` is made a NUL. -/
def KbCall.string (c : KbCall) : List UInt8 :=
  cstr (fun o => if o = 511 then 0 else c.kbString o.toNat) 512 0

/-- `do_kdgkb_ioctl`: the state, the return value and the bytes put. -/
def doKdgkbIoctl (s : FuncTable) (c : KbCall) : FuncTable × KbRet × List UInt8 :=
  if !c.kmallocKbs then (s, .enomem, [])
  else if !c.copyFromUser then (s, .efault, [])
  else
    match c.cmd with
    | .get => (s, getString s c.kbFunc.toNat c.putUser)
    | .set =>
      if !c.perm then (s, .eperm, [])
      else
        let r := setString s c.kbFunc.toNat c.string c.kmallocBuf
        (r.1, r.2, [])

end LinuxConsole
