import Mathlib.Data.BitVec

/-!
# The character maps

The two tables between a byte written to a console and the glyph shown for it.
`translations` is the `static unsigned short translations[][256]` of
`consolemap.c`: the four maps a charset designation can choose, from bytes to
Unicode.  `UniPagedir` is a `struct uni_pagedir`, the three-level paged table
from Unicode to glyphs, and `convUniToPc` is the lookup `conv_uni_to_pc`.

A C array is a total function here and an absent pointer is `none`.  The last
level holds `0xffff` for a code that has no glyph.
-/

namespace LinuxConsole

/-- The indices `LAT1_MAP`, `GRAF_MAP`, `IBMPC_MAP` and `USER_MAP`. -/
inductive CharMap
  | lat1
  | graf
  | ibmpc
  | user
  deriving DecidableEq

/-- The entries of the VT100 graphics map from `0x5f` to `0x7e`, the ones that
are not the byte itself together with the arrows and the block below `0x31`. -/
def grafEntries : List Nat :=
  [
   0x00a0, 0x25c6, 0x2592, 0x2409, 0x240c, 0x240d, 0x240a, 0x00b0, 0x00b1, 0x2591, 0x240b, 0x2518,
   0x2510, 0x250c, 0x2514, 0x253c, 0x23ba, 0x23bb, 0x2500, 0x23bc, 0x23bd, 0x251c, 0x2524, 0x2534,
   0x252c, 0x2502, 0x2264, 0x2265, 0x03c0, 0x2260, 0x00a3, 0x00b7]

/-- IBM code page 437. -/
def ibmpcEntries : List Nat :=
  [
   0x0000, 0x263a, 0x263b, 0x2665, 0x2666, 0x2663, 0x2660, 0x2022, 0x25d8, 0x25cb, 0x25d9, 0x2642,
   0x2640, 0x266a, 0x266b, 0x263c, 0x25b6, 0x25c0, 0x2195, 0x203c, 0x00b6, 0x00a7, 0x25ac, 0x21a8,
   0x2191, 0x2193, 0x2192, 0x2190, 0x221f, 0x2194, 0x25b2, 0x25bc, 0x0020, 0x0021, 0x0022, 0x0023,
   0x0024, 0x0025, 0x0026, 0x0027, 0x0028, 0x0029, 0x002a, 0x002b, 0x002c, 0x002d, 0x002e, 0x002f,
   0x0030, 0x0031, 0x0032, 0x0033, 0x0034, 0x0035, 0x0036, 0x0037, 0x0038, 0x0039, 0x003a, 0x003b,
   0x003c, 0x003d, 0x003e, 0x003f, 0x0040, 0x0041, 0x0042, 0x0043, 0x0044, 0x0045, 0x0046, 0x0047,
   0x0048, 0x0049, 0x004a, 0x004b, 0x004c, 0x004d, 0x004e, 0x004f, 0x0050, 0x0051, 0x0052, 0x0053,
   0x0054, 0x0055, 0x0056, 0x0057, 0x0058, 0x0059, 0x005a, 0x005b, 0x005c, 0x005d, 0x005e, 0x005f,
   0x0060, 0x0061, 0x0062, 0x0063, 0x0064, 0x0065, 0x0066, 0x0067, 0x0068, 0x0069, 0x006a, 0x006b,
   0x006c, 0x006d, 0x006e, 0x006f, 0x0070, 0x0071, 0x0072, 0x0073, 0x0074, 0x0075, 0x0076, 0x0077,
   0x0078, 0x0079, 0x007a, 0x007b, 0x007c, 0x007d, 0x007e, 0x2302, 0x00c7, 0x00fc, 0x00e9, 0x00e2,
   0x00e4, 0x00e0, 0x00e5, 0x00e7, 0x00ea, 0x00eb, 0x00e8, 0x00ef, 0x00ee, 0x00ec, 0x00c4, 0x00c5,
   0x00c9, 0x00e6, 0x00c6, 0x00f4, 0x00f6, 0x00f2, 0x00fb, 0x00f9, 0x00ff, 0x00d6, 0x00dc, 0x00a2,
   0x00a3, 0x00a5, 0x20a7, 0x0192, 0x00e1, 0x00ed, 0x00f3, 0x00fa, 0x00f1, 0x00d1, 0x00aa, 0x00ba,
   0x00bf, 0x2310, 0x00ac, 0x00bd, 0x00bc, 0x00a1, 0x00ab, 0x00bb, 0x2591, 0x2592, 0x2593, 0x2502,
   0x2524, 0x2561, 0x2562, 0x2556, 0x2555, 0x2563, 0x2551, 0x2557, 0x255d, 0x255c, 0x255b, 0x2510,
   0x2514, 0x2534, 0x252c, 0x251c, 0x2500, 0x253c, 0x255e, 0x255f, 0x255a, 0x2554, 0x2569, 0x2566,
   0x2560, 0x2550, 0x256c, 0x2567, 0x2568, 0x2564, 0x2565, 0x2559, 0x2558, 0x2552, 0x2553, 0x256b,
   0x256a, 0x2518, 0x250c, 0x2588, 0x2584, 0x258c, 0x2590, 0x2580, 0x03b1, 0x00df, 0x0393, 0x03c0,
   0x03a3, 0x03c3, 0x00b5, 0x03c4, 0x03a6, 0x0398, 0x03a9, 0x03b4, 0x221e, 0x03c6, 0x03b5, 0x2229,
   0x2261, 0x00b1, 0x2265, 0x2264, 0x2320, 0x2321, 0x00f7, 0x2248, 0x00b0, 0x2219, 0x00b7, 0x221a,
   0x207f, 0x00b2, 0x25a0, 0x00a0]

/-- The user map at start up: the bytes in the direct-to-font zone. -/
def defaultUserMap (c : Nat) : Nat := 0xf000 + c

/-- The tables, with `user` in the place of the user map, the one that
`con_set_trans_old` and `con_set_trans_new` overwrite. -/
def translations (user : Nat → Nat) : CharMap → Nat → Nat
  | .lat1, c => c
  | .graf, c =>
    if c = 0x2b then 0x2192
    else if c = 0x2c then 0x2190
    else if c = 0x2d then 0x2191
    else if c = 0x2e then 0x2193
    else if c = 0x30 then 0x2588
    else if 0x5f ≤ c ∧ c ≤ 0x7e then grafEntries.getD (c - 0x5f) 0
    else c
  | .ibmpc, c => ibmpcEntries.getD c 0
  | .user, c => user c

/-- `MAX_GLYPH`, the bound on glyph values. -/
def maxGlyph : Nat := 512

/-- A page of 64 glyphs. -/
abbrev Page := Nat → Nat

/-- The 32 pages of one directory entry. -/
abbrev PageRow := Nat → Option Page

/-- `struct uni_pagedir`. -/
structure UniPagedir where
  uniPgdir : Nat → Option PageRow
  refcount : Nat
  sum : BitVec 64
  inverseTranslations : CharMap → Option (Nat → Nat)
  readonly : Bool

/-- The directory that `memset` leaves. -/
def UniPagedir.zero : UniPagedir where
  uniPgdir := fun _ => none
  refcount := 0
  sum := 0
  inverseTranslations := fun _ => none
  readonly := false

/-- The entry of the table for a 16-bit code, `0xffff` where a page is absent. -/
def UniPagedir.entry (p : UniPagedir) (ucs : Nat) : Nat :=
  match p.uniPgdir (ucs >>> 11) with
  | none => 0xffff
  | some p1 =>
    match p1 ((ucs >>> 6) &&& 0x1f) with
    | none => 0xffff
    | some p2 => p2 (ucs &&& 0x3f)

/-- `conv_uni_to_pc` on a 16-bit code past its range checks: `-3` without a
map, `-4` when the map has no glyph for the code. -/
def convLookup (loc : Option UniPagedir) (ucs : Nat) : Int :=
  match loc with
  | none => -3
  | some p => if p.entry ucs < maxGlyph then (p.entry ucs : Int) else -4

/-- `conv_uni_to_pc`.  Codes above 16 bits are looked up as U+FFFD; control
codes give `-1`, zero-width ones `-2`, and the direct-to-font zone `0xf000` to
`0xf1ff` needs no map. -/
def convUniToPc (loc : Option UniPagedir) (ucs : Nat) : Int :=
  if ucs > 0xffff then convLookup loc 0xfffd
  else if ucs < 0x20 ∨ ucs ≥ 0xfffe then -1
  else if ucs = 0xfeff ∨ (ucs ≥ 0x200a ∧ ucs ≤ 0x200f) then -2
  else if 0xf000 ≤ ucs ∧ ucs ≤ 0xf1ff then ((ucs &&& 0x1ff : Nat) : Int)
  else convLookup loc ucs

end LinuxConsole
