import LinuxConsole.Lib.Pieces
import LinuxConsole.Vc.Display
import Mathlib.Data.Finset.Card
import Mathlib.Order.Interval.Finset.Nat

/-!
# The character display pipeline

`do_con_write` decodes UTF-8 and applies the translation table under the guard
`if (!vc->vc_state) tc = c; else ...`, below the comment that there is no
translation at all in control states.  The guard is the opposite of the comment:
a byte is taken as it is in ground state, and decoded or translated inside a
sequence.

`display_pipeline_iff` says exactly what is left of the pipeline.  In UTF-8 mode
a text shows the right glyphs on every console precisely when it is ASCII; with
UTF-8 off, a byte string does precisely when the table in use maps each of its
bytes to itself; and inside a sequence a byte is left alone precisely when the
stage that should not run does nothing to it.

The counterexamples behind these are two consoles with a row wide enough for the
text: one without a map, which shows every byte as itself, and one whose map
shows the codes below 256 shifted by a constant and no others.
-/

namespace LinuxConsole

open Lib

variable {d : Driver} {s : Con}

/-! ### What should be shown -/

/-- The bytes of a text in UTF-8. -/
def utf8Bytes (cs : List Char) : List Nat :=
  cs.flatMap fun c => (String.utf8EncodeChar c).map UInt8.toNat

/-- A code point that is not a control character. -/
def Printable (c : Char) : Prop := 0x20 ≤ c.toNat ∧ ¬ (0x7f ≤ c.toNat ∧ c.toNat ≤ 0x9f)

/-- A byte that is not a control character. -/
def PrintableByte (c : Nat) : Prop := 0x20 ≤ c ∧ c < 256 ∧ c ≠ 0x7f ∧ c ≠ 0x9b

/-- The code points of a text shown one after the other. -/
def displayText (d : Driver) (s : Con) (cs : List Char) : Con :=
  cs.foldl (fun t c => displayChar d s.rend.hiFontMask t c.toNat c.toNat) (undrawCursor s)

/-- The entry of the table in use for a byte. -/
def tableEntry (s : Con) (c : Nat) : Nat :=
  translations s.userMap s.chars.translate (if s.modes.toggleMeta then c ||| 0x80 else c)

/-- The table entries of a byte string shown one after the other. -/
def displayTable (d : Driver) (s : Con) (bs : List Nat) : Con :=
  bs.foldl (fun t c => displayChar d s.rend.hiFontMask t c (tableEntry s c)) (undrawCursor s)

/-! ### Filling a row -/

/-- Room for `n` glyphs in the row of the cursor. -/
structure Room (s : Con) (n : Nat) : Prop where
  irm : s.modes.irm = false
  needWrap : s.cur.needWrap = false
  cols : s.cur.x + n < s.geo.cols

theorem displayGlyph_room (himask : Cell) (g : Nat) {n : Nat} (h : Room s (n + 1)) :
    displayGlyph d himask s (some g) =
      { s.scrWritew (glyphCell himask s.rend.attr g) s.cur.pos with
        cur := ⟨s.cur.x + 1, s.cur.y, s.cur.pos + 2, s.cur.needWrap⟩ } := by
  have hc := h.cols
  have hw : wrapPending d s = s := if_neg (by rw [h.needWrap]; decide)
  have hi : insertPending s = s := if_neg (by rw [h.irm]; decide)
  show advance (storeGlyph d himask g s) = _
  unfold storeGlyph
  rw [hw, hi]
  exact if_neg (show ¬ s.cur.x = s.geo.cols - 1 by omega)

/-- **Glyphs in a row with room for them**: the cursor moves by their number, and
each is in its cell. -/
theorem row_fill (himask : Cell) (gs : List Nat) (h : Room s gs.length) :
    (gs.foldl (fun t g => displayGlyph d himask t (some g)) s).cur.x = s.cur.x + gs.length ∧
      (∀ a < s.cur.pos, (gs.foldl (fun t g => displayGlyph d himask t (some g)) s).mem a =
        s.mem a) ∧
      ∀ k (hk : k < gs.length),
        (gs.foldl (fun t g => displayGlyph d himask t (some g)) s).mem (s.cur.pos + 2 * k) =
          glyphCell himask s.rend.attr gs[k] := by
  induction gs generalizing s with
  | nil => exact ⟨rfl, fun _ _ => rfl, fun k hk => absurd hk (Nat.not_lt_zero k)⟩
  | cons g gs ih =>
    rw [List.length_cons] at h
    have hc := h.cols
    have hs := displayGlyph_room (d := d) himask g h
    rw [List.foldl_cons]
    generalize displayGlyph d himask s (some g) = s' at hs ⊢
    have hx' : s'.cur.x = s.cur.x + 1 := by rw [hs]
    have hp' : s'.cur.pos = s.cur.pos + 2 := by rw [hs]
    have ha' : s'.rend.attr = s.rend.attr := by rw [hs]; rfl
    have hm' : s'.mem = Function.update s.mem s.cur.pos (glyphCell himask s.rend.attr g) := by
      rw [hs]; rfl
    have hroom : Room s' gs.length := by
      refine ⟨by rw [hs]; exact h.irm, by rw [hs]; exact h.needWrap, ?_⟩
      rw [hx', show s'.geo = s.geo by rw [hs]; rfl]
      omega
    obtain ⟨hx, hlow, hcell⟩ := ih hroom
    rw [hp'] at hlow hcell
    rw [hm'] at hlow
    refine ⟨?_, fun a ha => ?_, fun k hk => ?_⟩
    · rw [hx, hx', List.length_cons]
      omega
    · rw [hlow a (by omega), Function.update_of_ne (by omega)]
    · cases k with
      | zero => rw [Nat.mul_zero, Nat.add_zero, hlow _ (by omega), Function.update_self]; rfl
      | succ k =>
        have he := hcell k (Nat.lt_of_succ_lt_succ hk)
        rw [ha'] at he
        rw [show s.cur.pos + 2 * (k + 1) = s.cur.pos + 2 + 2 * k by omega]
        exact he

theorem glyphCell_inj {attr : BitVec 8} {g g' : Nat} (hg : g < 256) (hg' : g' < 256)
    (h : glyphCell 0 attr g = glyphCell 0 attr g') : g = g' := by
  unfold glyphCell at h
  simp only [ne_eq, not_true_eq_false, if_false, BitVec.add_right_inj] at h
  have := congrArg BitVec.toNat h
  rw [BitVec.toNat_ofNat, BitVec.toNat_ofNat, Nat.mod_eq_of_lt (by omega),
    Nat.mod_eq_of_lt (by omega)] at this
  exact this

theorem glyphs_eq {gs gs' : List Nat} (h : Room s gs.length) (h' : Room s gs'.length)
    (hg : ∀ g ∈ gs, g < 256) (hg' : ∀ g ∈ gs', g < 256)
    (he : (gs.foldl (fun t g => displayGlyph d 0 t (some g)) s).undrawn =
      (gs'.foldl (fun t g => displayGlyph d 0 t (some g)) s).undrawn) : gs = gs' := by
  obtain ⟨hx, -, hcell⟩ := row_fill (d := d) 0 gs h
  obtain ⟨hx', -, hcell'⟩ := row_fill (d := d) 0 gs' h'
  have hlen : gs.length = gs'.length := by
    have := congrArg (fun t : Con => t.cur.x) he
    change (gs.foldl _ s).cur.x = (gs'.foldl _ s).cur.x at this
    rw [hx, hx'] at this
    omega
  refine List.ext_getElem hlen fun k hk hk' => ?_
  have hmem := congrArg (fun t : Con => t.mem (s.cur.pos + 2 * k)) he
  change (gs.foldl _ s).mem _ = (gs'.foldl _ s).mem _ at hmem
  rw [hcell k hk, hcell' k hk'] at hmem
  exact glyphCell_inj (hg _ (List.getElem_mem hk)) (hg' _ (List.getElem_mem hk')) hmem

theorem foldl_glyphs {α : Type} {u : Option UniPagedir} {step : Con → α → Con} {f : α → List Nat}
    (hstep : ∀ s a, s.uni = u →
      step s a = (f a).foldl (fun t g => displayGlyph d 0 t (some g)) s)
    (as : List α) (hu : s.uni = u) :
    as.foldl step s = (as.flatMap f).foldl (fun t g => displayGlyph d 0 t (some g)) s := by
  have huni : ∀ (gs : List Nat) (s : Con),
      (gs.foldl (fun t g => displayGlyph d 0 t (some g)) s).uni = s.uni := by
    intro gs
    induction gs with
    | nil => intro s; rfl
    | cons g gs ih => intro s; exact (ih _).trans (sameMode_displayGlyph 0 (some g) s).uni
  induction as generalizing s with
  | nil => rfl
  | cons a as ih =>
    rw [List.foldl_cons, List.flatMap_cons, List.foldl_append, hstep s a hu]
    exact ih ((huni _ _).trans hu)

theorem displayGlyph_toList (g : Option Nat) :
    displayGlyph d 0 s g = g.toList.foldl (fun t g => displayGlyph d 0 t (some g)) s := by
  cases g <;> rfl

/-! ### A console with a wide row -/

/-- The console of one row of `n + 1` columns, on a display in the background:
its maps are `uni` and `user`, UTF-8 is `utf`, `m` is the table in use and `hi`
the meta toggle. -/
def rowCon (n : Nat) (uni : Option UniPagedir) (user : Nat → Nat) (utf : Bool) (m : CharMap)
    (hi : Bool) : Con :=
  let s := visualInit ⟨n + 1, 1, true, 0, 0⟩ 0 (fun _ => 0) { bootDisplay with visible := false }
    uni user
  let s := setOrigin dummyCon s
  { s with
    cur := ⟨0, 0, 0, false⟩
    mar := ⟨0, 1⟩
    dec := ⟨utf, 0, 0⟩
    modes := { s.modes with toggleMeta := hi }
    chars := { s.chars with translate := m } }

theorem sound_rowCon (n : Nat) (uni : Option UniPagedir) (user : Nat → Nat) (utf : Bool)
    (m : CharMap) (hi : Bool) : Sound dummyCon (n + 1) [] (rowCon n uni user utf m hi) := by
  have h := sound_home (d := dummyCon) (N := n + 1) (F := [])
    (s := setOrigin dummyCon (visualInit ⟨n + 1, 1, true, 0, 0⟩ 0 (fun _ => 0)
      { bootDisplay with visible := false } uni user))
    (Nat.succ_le_succ (Nat.zero_le n)) (Nat.le_refl _) (Nat.le_refl 1) (by decide)
    ⟨show 0 < NPAR by decide, fun he => by cases he⟩ rfl rfl rfl rfl rfl
    (fun _ => rfl) (fun _ => rfl) false
  exact h

theorem room_rowCon {n k : Nat} (hk : k ≤ n) (uni : Option UniPagedir) (user : Nat → Nat)
    (utf : Bool) (m : CharMap) (hi : Bool) : Room (rowCon n uni user utf m hi) k :=
  ⟨rfl, rfl, show 0 + k < n + 1 by omega⟩

/-- The glyphs a byte shows in ground state, without a mask for the font. -/
def byteGlyphs (uni : Option UniPagedir) (c : Nat) : List Nat :=
  if c = 0x9b then [] else (glyphShown 0 uni c c).toList

theorem glyphShown_hit {uni : Option UniPagedir} {c tc n : Nat}
    (h : convUniToPc uni tc = (n : Int)) :
    glyphShown 0 uni c tc = if n < 256 then some n else none := by
  have hs : shownGlyph uni c tc = n := by
    unfold shownGlyph
    dsimp only
    rw [h, if_neg (by omega), if_neg (by omega)]
  unfold glyphShown
  rw [hs, show charmask 0 = 0xff from rfl]
  by_cases hn : n < 256
  · rw [if_neg (by omega), if_pos hn]
    rfl
  · rw [if_pos (by omega), if_neg hn]

theorem glyphShown_miss {uni : Option UniPagedir} {c tc : Nat} (h : convUniToPc uni tc = -3) :
    glyphShown 0 uni c tc = if c < 256 then some c else none := by
  have hs : shownGlyph uni c tc = c := by
    unfold shownGlyph
    dsimp only
    rw [h, if_neg (by decide), if_pos rfl]
  unfold glyphShown
  rw [hs, show charmask 0 = 0xff from rfl]
  by_cases hn : c < 256
  · rw [if_neg (by omega), if_pos hn]
    rfl
  · rw [if_pos (by omega), if_neg hn]

theorem glyphShown_neg {uni : Option UniPagedir} {c tc : Nat}
    (h : convUniToPc uni tc = -1 ∨ convUniToPc uni tc = -2) : glyphShown 0 uni c tc = none := by
  have hs : shownGlyph uni c tc = convUniToPc uni tc := by
    unfold shownGlyph
    dsimp only
    rw [if_neg (by omega), if_neg (by omega)]
  unfold glyphShown
  rw [hs, if_pos (Or.inl (by omega))]

theorem glyphShown_lt {uni : Option UniPagedir} {c tc g : Nat}
    (h : glyphShown 0 uni c tc = some g) : g < 256 := by
  unfold glyphShown at h
  rw [show charmask 0 = 0xff from rfl] at h
  split at h
  · cases h
  · next hg =>
    have := Option.some.inj h
    omega

theorem writes_rowCon {n : Nat} {uni : Option UniPagedir} {user : Nat → Nat} {utf : Bool}
    {m : CharMap} {hi : Bool} {bs : List Nat} (hb : ∀ c ∈ bs, 0x20 ≤ c ∧ c ≠ 0x7f) :
    (writes dummyCon (rowCon n uni user utf m hi) [bs]).undrawn =
      ((bs.flatMap (byteGlyphs uni)).foldl (fun t g => displayGlyph dummyCon 0 t (some g))
        (rowCon n uni user utf m hi)).undrawn := by
  have hw := writes_plain (d := dummyCon) (s := rowCon n uni user utf m hi) [bs] rfl
    (by simp) fun c hc => by
      rw [List.flatten_singleton] at hc
      exact ⟨(hb c hc).1, (hb c hc).2, fun _ => rfl⟩
  rw [hw, List.flatten_singleton]
  show (bs.foldl (showByte dummyCon 0) (rowCon n uni user utf m hi)).undrawn = _
  congr 1
  refine foldl_glyphs (u := uni) (fun s c hu => ?_) bs rfl
  unfold showByte byteGlyphs displayChar
  rw [hu]
  split
  · rfl
  · exact displayGlyph_toList _

/-! ### UTF-8 mode -/

theorem convUniToPc_high {uni : Option UniPagedir} {c : Nat} (h : c > 0xffff) :
    convUniToPc uni c = convLookup uni 0xfffd := if_pos h

theorem convUniToPc_control {uni : Option UniPagedir} {c : Nat} (h1 : ¬ c > 0xffff)
    (h2 : c < 0x20 ∨ c ≥ 0xfffe) : convUniToPc uni c = -1 := by
  unfold convUniToPc
  rw [if_neg h1, if_pos h2]

theorem convUniToPc_zeroWidth {uni : Option UniPagedir} {c : Nat}
    (h : c = 0xfeff ∨ (c ≥ 0x200a ∧ c ≤ 0x200f)) : convUniToPc uni c = -2 := by
  unfold convUniToPc
  rw [if_neg (by omega), if_neg (by omega), if_pos h]

theorem convUniToPc_direct {uni : Option UniPagedir} {c : Nat} (h : 0xf000 ≤ c ∧ c ≤ 0xf1ff) :
    convUniToPc uni c = ((c % 512 : Nat) : Int) := by
  have hand : c &&& 0x1ff = c % 512 := Nat.and_two_pow_sub_one_eq_mod c 9
  unfold convUniToPc
  rw [if_neg (by omega), if_neg (by omega), if_neg (by omega), if_pos h, hand]

theorem convUniToPc_map (uni : Option UniPagedir) {c : Nat} (h1 : ¬ c > 0xffff)
    (h2 : ¬ (c < 0x20 ∨ c ≥ 0xfffe)) (h3 : ¬ (c = 0xfeff ∨ (c ≥ 0x200a ∧ c ≤ 0x200f)))
    (h4 : ¬ (0xf000 ≤ c ∧ c ≤ 0xf1ff)) : convUniToPc uni c = convLookup uni c := by
  unfold convUniToPc
  rw [if_neg h1, if_neg h2, if_neg h3, if_neg h4]

theorem glyphShown_none {c : Nat} (h : 0x20 ≤ c) :
    glyphShown 0 none c c = if c < 256 then some c
      else if 0xf000 ≤ c ∧ c ≤ 0xf0ff then some (c % 256) else none := by
  by_cases h1 : c > 0xffff
  · rw [glyphShown_miss (convUniToPc_high h1), if_neg (by omega), if_neg (by omega), if_neg (by omega)]
  by_cases h2 : c < 0x20 ∨ c ≥ 0xfffe
  · rw [glyphShown_neg (Or.inl (convUniToPc_control h1 h2)), if_neg (by omega), if_neg (by omega)]
  by_cases h3 : c = 0xfeff ∨ (c ≥ 0x200a ∧ c ≤ 0x200f)
  · rw [glyphShown_neg (Or.inr (convUniToPc_zeroWidth h3)), if_neg (by omega), if_neg (by omega)]
  by_cases h4 : 0xf000 ≤ c ∧ c ≤ 0xf1ff
  · rw [glyphShown_hit (convUniToPc_direct h4), if_neg (show ¬ c < 256 by omega)]
    by_cases h5 : c ≤ 0xf0ff
    · rw [if_pos (by omega), if_pos ⟨h4.1, h5⟩]
      congr 1
      omega
    · rw [if_neg (by omega), if_neg (by omega)]
  · rw [glyphShown_miss (convUniToPc_map _ h1 h2 h3 h4)]
    by_cases h5 : c < 256
    · rw [if_pos h5, if_pos h5]
    · rw [if_neg h5, if_neg h5, if_neg (by omega)]

theorem byteGlyphs_none {b : Nat} (h : 0x20 ≤ b) (h' : b < 256) :
    byteGlyphs none b = if b = 0x9b then [] else [b] := by
  unfold byteGlyphs
  rw [glyphShown_none h, if_pos h']
  rfl

theorem utf8_bytes (c : Char) :
    (c.toNat ≤ 0x7f ∧ (String.utf8EncodeChar c).map UInt8.toNat = [c.toNat]) ∨
    (0x7f < c.toNat ∧ c.toNat ≤ 0x7ff ∧ (String.utf8EncodeChar c).map UInt8.toNat =
      [c.toNat / 64 + 0xc0, c.toNat % 64 + 0x80]) ∨
    (0x7ff < c.toNat ∧ c.toNat ≤ 0xffff ∧ (String.utf8EncodeChar c).map UInt8.toNat =
      [c.toNat / 4096 + 0xe0, c.toNat / 64 % 64 + 0x80, c.toNat % 64 + 0x80]) ∨
    (0xffff < c.toNat ∧ (String.utf8EncodeChar c).map UInt8.toNat =
      [c.toNat / 262144 % 8 + 0xf0, c.toNat / 4096 % 64 + 0x80, c.toNat / 64 % 64 + 0x80,
        c.toNat % 64 + 0x80]) := by
  have hv : c.val.toNat = c.toNat := rfl
  unfold String.utf8EncodeChar
  dsimp only
  rw [hv]
  generalize c.toNat = v
  by_cases h1 : v ≤ 0x7f
  · left
    rw [if_pos h1]
    simp only [List.map_cons, List.map_nil, UInt8.toNat_ofNat', List.cons.injEq, and_true]
    omega
  right
  by_cases h2 : v ≤ 0x7ff
  · left
    rw [if_neg h1, if_pos h2]
    simp only [List.map_cons, List.map_nil, UInt8.toNat_ofNat', List.cons.injEq, and_true]
    omega
  right
  by_cases h3 : v ≤ 0xffff
  · left
    rw [if_neg h1, if_neg h2, if_pos h3]
    simp only [List.map_cons, List.map_nil, UInt8.toNat_ofNat', List.cons.injEq, and_true]
    omega
  right
  rw [if_neg h1, if_neg h2, if_neg h3]
  simp only [List.map_cons, List.map_nil, UInt8.toNat_ofNat', List.cons.injEq, and_true]
  omega

theorem utf8_plain {c : Char} (hc : Printable c) :
    ∀ b ∈ (String.utf8EncodeChar c).map UInt8.toNat, 0x20 ≤ b ∧ b ≠ 0x7f := by
  obtain ⟨h20, h7f⟩ := hc
  rcases utf8_bytes c with ⟨h, he⟩ | ⟨h, h', he⟩ | ⟨h, h', he⟩ | ⟨h, he⟩ <;> rw [he] <;>
    simp only [List.mem_cons, List.not_mem_nil, or_false, forall_eq_or_imp, forall_eq] <;> omega

/-- **The bytes of a code point against the code point**, on a console without a
map: they show at least as many glyphs, and the same ones only in ASCII. -/
theorem utf8_glyphs {c : Char} (hc : Printable c) :
    (glyphShown 0 none c.toNat c.toNat).toList.length ≤
      (((String.utf8EncodeChar c).map UInt8.toNat).flatMap (byteGlyphs none)).length ∧
    (((String.utf8EncodeChar c).map UInt8.toNat).flatMap (byteGlyphs none) =
      (glyphShown 0 none c.toNat c.toNat).toList → c.toNat < 0x80) := by
  obtain ⟨h20, h7f⟩ := hc
  rw [glyphShown_none h20]
  rcases utf8_bytes c with ⟨h, he⟩ | ⟨h, h', he⟩ | ⟨h, h', he⟩ | ⟨h, he⟩ <;> rw [he]
  · rw [List.flatMap_singleton, byteGlyphs_none h20 (by omega),
      if_neg (show ¬ c.toNat = 0x9b by omega), if_pos (show c.toNat < 256 by omega)]
    exact ⟨Nat.le_refl _, fun _ => by omega⟩
  · simp only [List.flatMap_cons, List.flatMap_nil, List.append_nil]
    rw [byteGlyphs_none (by omega) (by omega), byteGlyphs_none (by omega) (by omega),
      if_neg (show ¬ c.toNat / 64 + 0xc0 = 0x9b by omega),
      if_neg (show ¬ (0xf000 ≤ c.toNat ∧ c.toNat ≤ 0xf0ff) by omega)]
    split <;> split <;> simp
    omega
  · simp only [List.flatMap_cons, List.flatMap_nil, List.append_nil]
    rw [byteGlyphs_none (by omega) (by omega), byteGlyphs_none (by omega) (by omega),
      byteGlyphs_none (by omega) (by omega), if_neg (show ¬ c.toNat / 4096 + 0xe0 = 0x9b by omega),
      if_neg (show ¬ c.toNat < 256 by omega)]
    by_cases hd : 0xf000 ≤ c.toNat ∧ c.toNat ≤ 0xf0ff
    · rw [if_pos hd, if_neg (show ¬ c.toNat / 64 % 64 + 0x80 = 0x9b by omega)]
      simp
    · rw [if_neg hd]
      simp
  · have hm : c.toNat < 0x110000 := by
      have := c.valid
      have hv : c.val.toNat = c.toNat := rfl
      rcases this with h1 | ⟨_, h1⟩ <;> omega
    simp only [List.flatMap_cons, List.flatMap_nil, List.append_nil]
    rw [byteGlyphs_none (show 0x20 ≤ c.toNat / 262144 % 8 + 0xf0 by omega) (by omega),
      if_neg (show ¬ c.toNat / 262144 % 8 + 0xf0 = 0x9b by omega),
      if_neg (show ¬ c.toNat < 256 by omega), if_neg (by omega)]
    simp

/-- **Text in UTF-8 mode.**  In ground state a printable text shows its glyphs on
every console, in every chunking, exactly when it is ASCII. -/
theorem utf8_text_iff {cs : List Char} (hcs : ∀ c ∈ cs, Printable c) :
    (∀ (d : Driver) (N : Nat) (F : List Fault) (s : Con) (chunks : List (List Nat)),
      Sound d N F s → s.ps.state = .init → s.dec.utf = true → s.dec.utfCount = 0 →
      chunks ≠ [] → chunks.flatten = utf8Bytes cs →
      (writes d s chunks).undrawn = (displayText d s cs).undrawn) ↔
    ∀ c ∈ cs, c.toNat < 0x80 := by
  constructor
  · intro hall
    have hb : ∀ b ∈ utf8Bytes cs, 0x20 ≤ b ∧ b ≠ 0x7f := by
      intro b hb
      obtain ⟨c, hc, hbc⟩ := List.mem_flatMap.mp hb
      exact utf8_plain (hcs c hc) b hbc
    -- the console without a map, with room for all the bytes
    let n := ((utf8Bytes cs).flatMap (byteGlyphs none)).length
    have hw := hall dummyCon (n + 1) [] (rowCon n none defaultUserMap true .lat1 false) [utf8Bytes cs]
      (sound_rowCon n none defaultUserMap true .lat1 false) rfl rfl rfl (by simp) (List.flatten_singleton ..)
    rw [writes_rowCon hb] at hw
    have ht : displayText dummyCon (rowCon n none defaultUserMap true .lat1 false) cs =
        (cs.flatMap fun c => (glyphShown 0 none c.toNat c.toNat).toList).foldl
          (fun t g => displayGlyph dummyCon 0 t (some g)) (rowCon n none defaultUserMap true .lat1 false) := by
      refine foldl_glyphs (u := none) (fun s c hu => ?_) cs rfl
      unfold displayChar
      rw [hu]
      exact displayGlyph_toList _
    rw [ht] at hw
    have hflat : (utf8Bytes cs).flatMap (byteGlyphs none) = cs.flatMap fun c =>
        ((String.utf8EncodeChar c).map UInt8.toNat).flatMap (byteGlyphs none) :=
      List.flatMap_assoc
    have hle := length_flatMap_le fun c hc => (utf8_glyphs (hcs c hc)).1
    rw [← hflat] at hle
    have heq := glyphs_eq (room_rowCon (Nat.le_refl n) none defaultUserMap true .lat1 false)
      (room_rowCon hle none defaultUserMap true .lat1 false)
      (fun g hg => by
        obtain ⟨b, _, hgb⟩ := List.mem_flatMap.mp hg
        unfold byteGlyphs at hgb
        split at hgb
        · cases hgb
        · exact glyphShown_lt (Option.mem_toList.mp hgb))
      (fun g hg => by
        obtain ⟨c, _, hgc⟩ := List.mem_flatMap.mp hg
        exact glyphShown_lt (Option.mem_toList.mp hgc)) hw
    rw [hflat] at heq
    intro c hc
    exact (utf8_glyphs (hcs c hc)).2 (pieces_eq (fun c hc => (utf8_glyphs (hcs c hc)).1) heq c hc)
  · intro hascii d N F s chunks _ hs _ _ hne hflat
    have hbytes : ∀ cs : List Char, (∀ c ∈ cs, c.toNat < 0x80) → utf8Bytes cs = cs.map Char.toNat := by
      intro cs h
      induction cs with
      | nil => rfl
      | cons c cs ih =>
        have hc := h c List.mem_cons_self
        have hb : (String.utf8EncodeChar c).map UInt8.toNat = [c.toNat] := by
          rcases utf8_bytes c with ⟨_, he⟩ | ⟨h, _⟩ | ⟨h, _⟩ | ⟨h, _⟩
          · exact he
          all_goals omega
        show (String.utf8EncodeChar c).map UInt8.toNat ++ utf8Bytes cs = _
        rw [hb, ih fun c' hc' => h c' (List.mem_cons_of_mem _ hc')]
        rfl
    have hplain : ∀ b ∈ chunks.flatten, PlainByte s b := by
      rw [hflat, hbytes cs hascii]
      intro b hb
      obtain ⟨c, hc, rfl⟩ := List.mem_map.mp hb
      have h1 := hcs c hc
      have h2 := hascii c hc
      exact ⟨h1.1, by have := h1.2; omega, fun h => by omega⟩
    rw [writes_plain _ hs hne hplain, hflat, hbytes cs hascii, List.foldl_map]
    unfold displayText
    congr 1
    refine List.foldl_ext _ _ _ fun t c hc => ?_
    have := hascii c hc
    exact if_neg (by omega)

/-! ### UTF-8 off -/

/-- The map that shows the code `u` as glyph `f u`. -/
def mapOf (f : Nat → Nat) : UniPagedir :=
  { UniPagedir.zero with
    uniPgdir := fun i => some fun j => some fun k => f (i * 2048 + j * 64 + k) }

theorem entry_mapOf (f : Nat → Nat) (u : Nat) : (mapOf f).entry u = f u := by
  have h1 : u >>> 11 = u / 2048 := Nat.shiftRight_eq_div_pow u 11
  have h2 : (u >>> 6) &&& 0x1f = u / 64 % 32 := by
    rw [Nat.shiftRight_eq_div_pow]
    exact Nat.and_two_pow_sub_one_eq_mod _ 5
  have h3 : u &&& 0x3f = u % 64 := Nat.and_two_pow_sub_one_eq_mod u 6
  show f ((u >>> 11) * 2048 + ((u >>> 6) &&& 0x1f) * 64 + (u &&& 0x3f)) = f u
  rw [h1, h2, h3]
  congr 1
  omega

/-- The codes below 256 shifted by `k`; the glyph of the others is outside a
font of 256 glyphs. -/
def shiftMap (k : Nat) : UniPagedir := mapOf fun u => if u < 256 then (u + k) % 256 else 0x1ff

theorem convLookup_shiftMap (k u : Nat) :
    convLookup (some (shiftMap k)) u = ((if u < 256 then (u + k) % 256 else 0x1ff : Nat) : Int) := by
  unfold convLookup shiftMap
  dsimp only
  rw [entry_mapOf]
  exact if_pos (by show (if u < 256 then (u + k) % 256 else 0x1ff) < 512; split <;> omega)

theorem glyphShown_shift {k c tc g : Nat} (h : glyphShown 0 (some (shiftMap k)) c tc = some g) :
    (tc < 256 ∧ g = (tc + k) % 256) ∨ (0xf000 ≤ tc ∧ tc ≤ 0xf1ff ∧ g = tc % 512) := by
  have hlook : ∀ u, convUniToPc (some (shiftMap k)) tc = convLookup (some (shiftMap k)) u →
      u < 256 ∧ g = (u + k) % 256 := by
    intro u he
    rw [convLookup_shiftMap] at he
    rw [glyphShown_hit he] at h
    by_cases hu' : u < 256
    · rw [if_pos hu', if_pos (by omega)] at h
      have := Option.some.inj h
      omega
    · rw [if_neg hu', if_neg (by omega)] at h
      cases h
  by_cases h1 : tc > 0xffff
  · have := hlook 0xfffd (convUniToPc_high h1)
    omega
  by_cases h2 : tc < 0x20 ∨ tc ≥ 0xfffe
  · rw [glyphShown_neg (Or.inl (convUniToPc_control h1 h2))] at h
    cases h
  by_cases h3 : tc = 0xfeff ∨ (tc ≥ 0x200a ∧ tc ≤ 0x200f)
  · rw [glyphShown_neg (Or.inr (convUniToPc_zeroWidth h3))] at h
    cases h
  by_cases h4 : 0xf000 ≤ tc ∧ tc ≤ 0xf1ff
  · rw [glyphShown_hit (convUniToPc_direct h4)] at h
    split at h
    · exact Or.inr ⟨h4.1, h4.2, (Option.some.inj h).symm⟩
    · cases h
  · exact Or.inl (hlook tc (convUniToPc_map _ h1 h2 h3 h4))

theorem glyphShown_shift_byte (k : Nat) {c : Nat} (hc : PrintableByte c) :
    glyphShown 0 (some (shiftMap k)) c c = some ((c + k) % 256) := by
  obtain ⟨h20, h256, -, -⟩ := hc
  have hm := convUniToPc_map (some (shiftMap k)) (c := c) (by omega) (by omega) (by omega)
    (by omega)
  rw [convLookup_shiftMap, if_pos h256] at hm
  rw [glyphShown_hit hm, if_pos (by omega)]

/-- **A shift that no glyph of a table follows.**  There are 256 shifts and fewer
printable bytes, and each byte rules out one shift. -/
theorem exists_shift (D : Nat → Nat) :
    ∃ k < 256, ∀ c, PrintableByte c → D c ≠ (c + k) % 256 := by
  by_contra hno
  push Not at hno
  choose! w hw using hno
  have hmaps : ∀ k ∈ Finset.range 256, w k ∈ Finset.Ico 0x20 256 := fun k hk => by
    obtain ⟨⟨h20, h256, _⟩, _⟩ := hw k (Finset.mem_range.mp hk)
    exact Finset.mem_Ico.mpr ⟨h20, h256⟩
  obtain ⟨k, hk, k', hk', hne, heq⟩ :=
    Finset.exists_ne_map_eq_of_card_lt_of_maps_to (by simp) hmaps
  rw [Finset.mem_range] at hk hk'
  have h1 := (hw k hk).2
  have h2 := (hw k' hk').2
  rw [← heq] at h2
  omega

/-- **A table entry against its byte**, on the console with a shifted map: they
show the same glyph only when they are the same. -/
theorem table_glyph {k c tc : Nat} (hc : PrintableByte c)
    (hD : tc % 512 ≠ (c + k) % 256)
    (h : glyphShown 0 (some (shiftMap k)) c tc = some ((c + k) % 256)) : tc = c := by
  obtain ⟨-, h256, -, -⟩ := hc
  rcases glyphShown_shift h with ⟨h1, h2⟩ | ⟨-, -, h3⟩
  · omega
  · exact absurd h3.symm hD

/-- **Text with UTF-8 off.**  In ground state a string of printable bytes shows
the entries of the table in use on every console, in every chunking, exactly
when the table maps each of them to itself. -/
theorem table_text_iff (user : Nat → Nat) (m : CharMap) (hi : Bool) {bs : List Nat}
    (hbs : ∀ c ∈ bs, PrintableByte c) :
    (∀ (d : Driver) (N : Nat) (F : List Fault) (s : Con) (chunks : List (List Nat)),
      Sound d N F s → s.ps.state = .init → s.dec.utf = false → s.userMap = user →
      s.chars.translate = m → s.modes.toggleMeta = hi → chunks ≠ [] → chunks.flatten = bs →
      (writes d s chunks).undrawn = (displayTable d s bs).undrawn) ↔
    ∀ c ∈ bs, translations user m (if hi then c ||| 0x80 else c) = c := by
  constructor
  · intro hall
    obtain ⟨k, -, hD⟩ := exists_shift fun c =>
      translations user m (if hi then c ||| 0x80 else c) % 512
    -- the console with that map, with room for all the bytes
    have hw := hall dummyCon (bs.length + 1) []
      (rowCon bs.length (some (shiftMap k)) user false m hi) [bs]
      (sound_rowCon _ _ _ _ _ _) rfl rfl rfl rfl rfl (by simp) (List.flatten_singleton ..)
    rw [writes_rowCon fun c hc => ⟨(hbs c hc).1, (hbs c hc).2.2.1⟩] at hw
    have ht : displayTable dummyCon (rowCon bs.length (some (shiftMap k)) user false m hi) bs =
        (bs.flatMap fun c => (glyphShown 0 (some (shiftMap k)) c
          (translations user m (if hi then c ||| 0x80 else c))).toList).foldl
          (fun t g => displayGlyph dummyCon 0 t (some g))
          (rowCon bs.length (some (shiftMap k)) user false m hi) := by
      refine foldl_glyphs (u := some (shiftMap k)) (fun s c hu => ?_) bs rfl
      unfold displayChar
      rw [hu]
      exact displayGlyph_toList _
    rw [ht] at hw
    have hbyte : ∀ c ∈ bs, byteGlyphs (some (shiftMap k)) c = [(c + k) % 256] := by
      intro c hc
      unfold byteGlyphs
      rw [if_neg (hbs c hc).2.2.2, glyphShown_shift_byte k (hbs c hc)]
      rfl
    have hlen : (bs.flatMap (byteGlyphs (some (shiftMap k)))).length = bs.length := by
      rw [List.length_flatMap, List.map_congr_left fun c hc => by rw [hbyte c hc]]
      simp
    have hle : ∀ c ∈ bs, (glyphShown 0 (some (shiftMap k)) c
        (translations user m (if hi then c ||| 0x80 else c))).toList.length ≤
        (byteGlyphs (some (shiftMap k)) c).length := by
      intro c hc
      rw [hbyte c hc]
      generalize glyphShown 0 (some (shiftMap k)) c _ = g
      cases g <;> simp
    have hle' := length_flatMap_le hle
    rw [hlen] at hle'
    have heq := glyphs_eq (room_rowCon (Nat.le_of_eq hlen) (some (shiftMap k)) user false m hi)
      (room_rowCon hle' (some (shiftMap k)) user false m hi)
      (fun g hg => by
        obtain ⟨b, hb, hgb⟩ := List.mem_flatMap.mp hg
        rw [hbyte b hb, List.mem_singleton] at hgb
        omega)
      (fun g hg => by
        obtain ⟨c, _, hgc⟩ := List.mem_flatMap.mp hg
        exact glyphShown_lt (Option.mem_toList.mp hgc)) hw
    intro c hc
    have hc' := pieces_eq hle heq c hc
    rw [hbyte c hc] at hc'
    refine table_glyph (hbs c hc) (hD c (hbs c hc)) (Option.mem_toList.mp ?_)
    rw [← hc']
    exact List.mem_singleton.mpr rfl
  · intro htable d N F s chunks _ hs _ hu hm hhi hne hflat
    subst hu hm hhi
    have hplain : ∀ b ∈ chunks.flatten, PlainByte s b := by
      rw [hflat]
      intro b hb
      obtain ⟨h1, -, h3, h4⟩ := hbs b hb
      exact ⟨h1, h3, fun h => absurd h h4⟩
    rw [writes_plain _ hs hne hplain, hflat]
    unfold displayTable
    congr 1
    refine List.foldl_ext _ _ _ fun t c hc => ?_
    unfold tableEntry
    rw [htable c hc]
    exact if_neg (hbs c hc).2.2.2

/-! ### Inside a sequence -/

theorem decodeByte_ne (u : Utf) (c : Nat) (ch : Nat) : decodeByte u c ≠ (u, some ch) := by
  unfold decodeByte
  split
  · next h =>
    intro he
    have hc := congrArg (fun p : Utf × Option Nat => p.1.utfCount) he
    simp only at hc
    omega
  · split_ifs <;> simp

/-- **Bytes inside a sequence.**  The first stage leaves a byte as it is exactly
when UTF-8 is on, the byte is ASCII and no sequence was begun, or UTF-8 is off
and the table maps the byte to itself. -/
theorem control_byte_iff (s : Con) (c : Nat) (hs : s.ps.state ≠ .init) :
    translateByte s c = (s, some (c, c)) ↔
      if s.dec.utf then c ≤ 0x7f ∧ s.dec.utfCount = 0 else tableEntry s c = c := by
  unfold translateByte
  rw [if_neg hs]
  cases hu : s.dec.utf
  · simp only [Bool.false_eq_true, if_false, Prod.mk.injEq, true_and, Option.some.injEq]
    exact Iff.rfl
  · simp only [if_true]
    by_cases hc : c > 0x7f
    · rw [if_pos hc]
      refine iff_of_false (fun he => ?_) (by omega)
      have h1 := congrArg (fun p : Con × Option (Nat × Nat) => p.1.dec) he
      have h2 := congrArg (fun p : Con × Option (Nat × Nat) => p.2) he
      simp only at h1 h2
      obtain ⟨ch, hch, -⟩ := Option.map_eq_some_iff.mp h2
      exact decodeByte_ne s.dec c ch (Prod.ext h1 hch)
    · rw [if_neg hc]
      constructor
      · intro he
        have h1 := congrArg (fun p : Con × Option (Nat × Nat) => p.1.dec.utfCount) he
        exact ⟨by omega, h1.symm⟩
      · rintro ⟨-, h0⟩
        have hd : s.dec = { s.dec with utfCount := 0 } := by rw [← h0]
        rw [← hd]

/-! ### The pipeline -/

/-- **What the inverted guard leaves of the pipeline.**  The three parts are
`utf8_text_iff`, `table_text_iff` and `control_byte_iff`. -/
theorem display_pipeline_iff {cs : List Char} (hcs : ∀ c ∈ cs, Printable c)
    (user : Nat → Nat) (m : CharMap) (hi : Bool) {bs : List Nat}
    (hbs : ∀ c ∈ bs, PrintableByte c) {s : Con} (c : Nat) (hs : s.ps.state ≠ .init) :
    ((∀ (d : Driver) (N : Nat) (F : List Fault) (s : Con) (chunks : List (List Nat)),
        Sound d N F s → s.ps.state = .init → s.dec.utf = true → s.dec.utfCount = 0 →
        chunks ≠ [] → chunks.flatten = utf8Bytes cs →
        (writes d s chunks).undrawn = (displayText d s cs).undrawn) ↔
      ∀ c ∈ cs, c.toNat < 0x80) ∧
    ((∀ (d : Driver) (N : Nat) (F : List Fault) (s : Con) (chunks : List (List Nat)),
        Sound d N F s → s.ps.state = .init → s.dec.utf = false → s.userMap = user →
        s.chars.translate = m → s.modes.toggleMeta = hi → chunks ≠ [] → chunks.flatten = bs →
        (writes d s chunks).undrawn = (displayTable d s bs).undrawn) ↔
      ∀ c ∈ bs, translations user m (if hi then c ||| 0x80 else c) = c) ∧
    (translateByte s c = (s, some (c, c)) ↔
      if s.dec.utf then c ≤ 0x7f ∧ s.dec.utfCount = 0 else tableEntry s c = c) :=
  ⟨utf8_text_iff hcs, table_text_iff user m hi hbs, control_byte_iff s c hs⟩

/-- The letter `A` goes through in both modes, and `[` inside a sequence. -/
theorem display_pipeline_iff_ascii :
    (∀ (d : Driver) (N : Nat) (F : List Fault) (s : Con) (chunks : List (List Nat)),
      Sound d N F s → s.ps.state = .init → s.dec.utf = true → s.dec.utfCount = 0 →
      chunks ≠ [] → chunks.flatten = utf8Bytes ['A'] →
      (writes d s chunks).undrawn = (displayText d s ['A']).undrawn) ∧
    (∀ (d : Driver) (N : Nat) (F : List Fault) (s : Con) (chunks : List (List Nat)),
      Sound d N F s → s.ps.state = .init → s.dec.utf = false → s.userMap = defaultUserMap →
      s.chars.translate = .lat1 → s.modes.toggleMeta = false → chunks ≠ [] →
      chunks.flatten = [0x41] →
      (writes d s chunks).undrawn = (displayTable d s [0x41]).undrawn) ∧
    (translateByte { bootCon with ps.state := .esc } 0x5b).2 = some (0x5b, 0x5b) := by
  have hcs : ∀ c ∈ ['A'], Printable c := by simp [Printable]
  have hbs : ∀ c ∈ [0x41], PrintableByte c := by simp [PrintableByte]
  have h := display_pipeline_iff (s := { bootCon with ps.state := .esc }) hcs defaultUserMap
    .lat1 false hbs 0x5b (by decide)
  have hascii : ∀ c ∈ ['A'], c.toNat < 0x80 := List.forall_mem_singleton.mpr (by decide)
  have hkept : ∀ c ∈ [0x41], translations defaultUserMap .lat1 c = c :=
    List.forall_mem_singleton.mpr (by decide)
  exact ⟨h.1.mpr hascii, h.2.1.mpr hkept, by rw [h.2.2.mpr (by decide +kernel)]⟩

/-- The two bytes of `é` in UTF-8 mode fill two cells instead of one. -/
theorem utf8_not_decoded :
    (doConWrite dummyCon { bootCon with dec.utf := true } [0xc3, 0xa9]).cur.x = 2 ∧
      (displayText dummyCon { bootCon with dec.utf := true } ['é']).cur.x = 1 := by
  decide +kernel

end LinuxConsole
