import LinuxConsole.Vc.Reports

/-!
# What RIS forgets

Two consoles of the same size are written any two histories and then ESC c.  `settled` is what the
reset is about: margins, tab stops, modes, designations, rendition, cursors, parser, decoder and
screen.  `leftover` is what `vte_ris` does not assign of it: the keypad mode, the operating level,
G2 and G3, the tab stops from column 160 on, and the default, underline and half-bright colours.

`ris_forgets_iff`: the two consoles have settled on the same **exactly if what was left over was
the same** before the ESC.
-/

namespace LinuxConsole

variable {d : Driver} {s s₁ s₂ : Con}

/-! ### What the reset settles and what it leaves -/

/-- The state RIS is to make independent of the past. -/
@[ext]
structure Settled where
  mar : Margins
  tabs : List Bool
  modes : Modes
  kbd : KbdTable
  chars : Charsets
  rend : Rendition
  cursor : Nat × Nat × Bool
  saved : Saved
  parser : EsState × Bool × Bool × Bool × Bool
  decoder : Bool × Nat
  screen : List Cell

/-- The tab stops of `n` columns from `a`. -/
def tabStops (s : Con) (a n : Nat) : List Bool := (List.range' a n).map (tabBit s)

/-- The shift of SS2 and SS3, which nothing reads, and the graphics mode, which is no mode of the
terminal, are left out. -/
def settled (s : Con) : Settled where
  mar := s.mar
  tabs := tabStops s 0 s.geo.cols
  modes := { s.modes with shift := false, vcMode := .text }
  kbd := s.kbd
  chars := { s.chars with gs := .lat1 }
  rend := s.rend
  cursor := (s.cur.x, s.cur.y, s.cur.needWrap)
  saved := s.saved
  parser := (s.ps.state, s.ps.priv1, s.ps.priv2, s.ps.priv3, s.ps.priv4)
  decoder := (s.dec.utf, s.dec.utfCount)
  screen := s.cells s.geo.origin (s.geo.cols * s.geo.rows)

/-- What the past leaves behind. -/
@[ext]
structure Leftover where
  decnkm : Bool
  decscl : Nat
  g2 : CharMap
  g3 : CharMap
  tabs : List Bool
  defColor : BitVec 8
  ulcolor : BitVec 8
  halfcolor : BitVec 8
  canDoColor : Bool
  hiFontMask : Cell
  sComplementMask : Cell
  mono : Option (BitVec 8)

/-- The columns `vte_ris` sets the tab stops of. -/
def risColumns : Nat := 160

def leftover (s : Con) : Leftover where
  decnkm := s.modes.decnkm
  decscl := s.modes.decscl
  g2 := s.chars.g2
  g3 := s.chars.g3
  tabs := tabStops s risColumns (s.geo.cols - risColumns)
  defColor := s.rend.defColor
  ulcolor := s.rend.ulcolor
  halfcolor := s.rend.halfcolor
  canDoColor := s.rend.canDoColor
  hiFontMask := s.rend.hiFontMask
  sComplementMask := s.rend.sComplementMask
  mono := if s.rend.canDoColor then none else some s.rend.color

/-! ### The attribute of a driver -/

/-- What of the rendition an attribute is built from, its arguments apart. -/
def Rendition.colours (r : Rendition) : Bool × BitVec 8 × BitVec 8 × BitVec 8 × Cell :=
  (r.canDoColor, r.color, r.ulcolor, r.halfcolor, r.hiFontMask)

/-- `vgacon_build_attr`, the only such hook. -/
def vgaconBuildAttr (s : Con) (color : BitVec 8) (intensity : Nat) (blink underline reverse : Bool) :
    BitVec 8 :=
  let a := color
  let a := if s.rend.canDoColor then
      if underline then (a &&& 0xf0) ||| s.rend.ulcolor
      else if intensity = 0 then (a &&& 0xf0) ||| s.rend.halfcolor else a
    else a
  let a := if reverse then (a &&& 0x88) ||| (((a >>> 4) ||| (a <<< 4)) &&& 0x77) else a
  let a := if blink then a ^^^ 0x80 else a
  let a := if intensity = 2 then a ^^^ 0x08 else a
  if !s.rend.canDoColor then
    if underline then (a &&& 0xf8) ||| 0x01
    else if intensity = 0 then (a &&& 0xf0) ||| 0x08 else a
  else a

/-- The hook looks at the colours only. -/
def BuildsFromColours (d : Driver) : Prop :=
  ∀ f, d.conBuildAttr = some f → ∀ s s' : Con, s.rend.colours = s'.rend.colours → f s = f s'

theorem buildAttr_congr (hd : BuildsFromColours d) (h : s₁.rend.colours = s₂.rend.colours) :
    buildAttr d s₁ = buildAttr d s₂ := by
  funext color intensity blink underline reverse
  obtain ⟨h1, h2, h3, h4, h5⟩ : s₁.rend.canDoColor = s₂.rend.canDoColor ∧
      s₁.rend.color = s₂.rend.color ∧ s₁.rend.ulcolor = s₂.rend.ulcolor ∧
      s₁.rend.halfcolor = s₂.rend.halfcolor ∧ s₁.rend.hiFontMask = s₂.rend.hiFontMask := by
    simpa [Rendition.colours] using h
  rw [buildAttr, buildAttr]
  split
  · next f hf => rw [hd f hf s₁.seen s₂.seen h]
  · rw [h1, h2, h3, h4, h5]

/-! ### The console after RIS -/

theorem vteEd_all (s : Con) : ∃ ds fs, vteEd s 2 = { s with
    mem := (s.scrMemsetw s.geo.origin s.rend.videoEraseChar (s.geo.cols * s.geo.rows)).mem
    cur := { s.cur with needWrap := false }, draws := ds, faults := fs } := by
  simp only [vteEd, clearRegion]
  split
  · exact ⟨_, _, rfl⟩
  · exact ⟨_, _, rfl⟩

theorem cells_scrMemsetw (s : Con) (a : Nat) (c : Cell) (n : Nat) :
    (s.scrMemsetw a c n).cells a n = List.replicate n c := by
  have hcell : ∀ i ∈ List.range n, (s.scrMemsetw a c n).mem (a + 2 * i) = c := by
    intro i hi
    have hlt := List.mem_range.mp hi
    exact if_pos ⟨by omega, by omega, by omega⟩
  rw [Con.cells, List.map_congr_left hcell, List.map_const', List.length_range]

theorem vteRis_clear (s : Con) : vteRis d s true = vteEd (vteRis d s false) 2 := rfl

theorem vteRis_rend (s : Con) : (vteRis d s true).rend = (vteRis d s false).rend := by
  obtain ⟨ds, fs, he⟩ := vteEd_all (vteRis d s false)
  rw [vteRis_clear, he]

theorem gotoxy_home (hs : s.modes.decom = false) :
    (gotoxy s 0 0).cur.x = 0 ∧ (gotoxy s 0 0).cur.y = 0 := by
  constructor
  · show (clampX s 0).toNat = 0
    rw [clampX]
    split
    · rfl
    split
    · omega
    · rfl
  · show (clampY s 0).toNat = 0
    simp only [clampY, hs, Bool.false_eq_true, if_false]
    split
    · rfl
    split
    · omega
    · rfl

theorem vteRis_home (s : Con) : ∃ s', vteRis d s false = vteDecsc (gotoxy s' 0 0) ∧
    s'.modes.decom = false := ⟨_, rfl, rfl⟩

theorem vteRis_cursor (s : Con) : (vteRis d s false).cur.x = 0 ∧ (vteRis d s false).cur.y = 0 := by
  obtain ⟨s', he, hs⟩ := vteRis_home (d := d) s
  rw [he]
  exact gotoxy_home hs

/-- The tab stop of RIS at a column. -/
def risTab (s : Con) (x : Nat) : Bool := (risTabs s.tabStop (x >>> 5)).getLsbD (x % 32)

/-- **What RIS settles**, field by field. -/
theorem settled_vteRis (s : Con) : settled (vteRis d s true) =
    { mar := ⟨0, s.geo.rows⟩
      tabs := (List.range' 0 s.geo.cols).map (risTab s)
      modes :=
        { vcMode := .text, dispCtrl := false, toggleMeta := false, decscnm := false, decom := false
          decawm := true, dectcem := true, irm := false, decckm := false, decsclm := false
          decarm := true, decnkm := s.modes.decnkm, kam := false, crm := false, lnm := false
          c8bit := false, shift := false, decscl := s.modes.decscl, reportMouse := 0 }
      kbd :=
        { lockstate := 0, slockstate := 0, ledmode := 0, ledflagstate := 0
          defaultLedflagstate := 0, kbdmode := 0, modeflags := kbdDefmode }
      chars :=
        { charset := false, g0 := .lat1, g1 := .graf, g2 := s.chars.g2, g3 := s.chars.g3
          gs := .lat1, translate := .lat1 }
      rend := (vteRis d s true).rend
      cursor := (0, 0, false)
      saved :=
        { x := 0, y := 0, intensity := 1, underline := false, blink := false, reverse := false
          charset := false, color := (vteRis d s true).rend.color, g0 := .lat1, g1 := .graf
          g2 := s.chars.g2, g3 := s.chars.g3 }
      parser := (.init, false, false, false, false)
      decoder := (false, 0)
      screen := List.replicate (s.geo.cols * s.geo.rows) (vteRis d s true).rend.videoEraseChar } := by
  obtain ⟨ds, fs, he⟩ := vteEd_all (vteRis d s false)
  obtain ⟨hx, hy⟩ := vteRis_cursor (d := d) s
  have hsaved : (vteRis d s false).saved =
      { x := (vteRis d s false).cur.x, y := (vteRis d s false).cur.y, intensity := 1
        underline := false, blink := false, reverse := false
        charset := false, color := (vteRis d s false).rend.color, g0 := .lat1, g1 := .graf
        g2 := s.chars.g2, g3 := s.chars.g3 } := rfl
  have hscreen : (vteRis d s true).cells (vteRis d s true).geo.origin
      ((vteRis d s true).geo.cols * (vteRis d s true).geo.rows) =
      List.replicate (s.geo.cols * s.geo.rows) (vteRis d s true).rend.videoEraseChar := by
    rw [vteRis_clear, he]
    exact cells_scrMemsetw _ _ _ _
  refine Settled.ext ?_ ?_ ?_ ?_ ?_ rfl ?_ ?_ ?_ ?_ hscreen
  · rw [vteRis_clear, he]
    rfl
  · rw [vteRis_clear, he]
    rfl
  · rw [vteRis_clear, he]
    rfl
  · rw [vteRis_clear, he]
    rfl
  · rw [vteRis_clear, he]
    rfl
  · rw [vteRis_clear, he]
    simp only [settled, hx, hy]
  · rw [vteRis_clear, he]
    simp only [settled, hsaved, hx, hy]
  · rw [vteRis_clear, he]
    rfl
  · rw [vteRis_clear, he]
    rfl

/-! ### Two consoles -/

/-- The rendition of RIS comes from the colours that were left. -/
theorem vteRis_rend_eq (s : Con) : ∃ s' : Con, (vteRis d s true).rend =
    { s'.rend with
      attr := buildAttr d s' s'.rend.color 1 false false false
      videoEraseChar := ((buildAttr d s' s'.rend.color 1 false false false).setWidth 16 <<< 8)
        ||| 0x20#16 } ∧
    s'.rend = { s.rend with
      cursorType := 2, complementMask := s.rend.sComplementMask, intensity := 1
      underline := false, reverse := false, blink := false
      color := if s.rend.canDoColor then s.rend.defColor else s.rend.color } := by
  refine ⟨_, (vteRis_rend s).trans rfl, rfl⟩

theorem vteRis_leaves (s : Con) :
    (vteRis d s true).rend.defColor = s.rend.defColor ∧
      (vteRis d s true).rend.ulcolor = s.rend.ulcolor ∧
      (vteRis d s true).rend.halfcolor = s.rend.halfcolor ∧
      (vteRis d s true).rend.canDoColor = s.rend.canDoColor ∧
      (vteRis d s true).rend.hiFontMask = s.rend.hiFontMask ∧
      (vteRis d s true).rend.sComplementMask = s.rend.sComplementMask ∧
      (vteRis d s true).rend.color =
        if s.rend.canDoColor then s.rend.defColor else s.rend.color := by
  rw [vteRis_rend]
  exact ⟨rfl, rfl, rfl, rfl, rfl, rfl, rfl⟩

theorem mono_eq {can : Bool} {a b : BitVec 8}
    (h : (if can then none else some a) = (if can then none else some b)) (c : BitVec 8) :
    (if can then c else a) = if can then c else b := by
  cases can with
  | true => rfl
  | false => exact Option.some.inj h

theorem vteRis_rend_congr (hd : BuildsFromColours d) (h : leftover s₁ = leftover s₂) :
    (vteRis d s₁ true).rend = (vteRis d s₂ true).rend := by
  obtain ⟨t₁, he₁, hr₁⟩ := vteRis_rend_eq (d := d) s₁
  obtain ⟨t₂, he₂, hr₂⟩ := vteRis_rend_eq (d := d) s₂
  have hdef : s₁.rend.defColor = s₂.rend.defColor := congrArg Leftover.defColor h
  have hul : s₁.rend.ulcolor = s₂.rend.ulcolor := congrArg Leftover.ulcolor h
  have hhalf : s₁.rend.halfcolor = s₂.rend.halfcolor := congrArg Leftover.halfcolor h
  have hcan : s₁.rend.canDoColor = s₂.rend.canDoColor := congrArg Leftover.canDoColor h
  have hfont : s₁.rend.hiFontMask = s₂.rend.hiFontMask := congrArg Leftover.hiFontMask h
  have hmask : s₁.rend.sComplementMask = s₂.rend.sComplementMask :=
    congrArg Leftover.sComplementMask h
  have hmono : (if s₂.rend.canDoColor then none else some s₁.rend.color) =
      (if s₂.rend.canDoColor then none else some s₂.rend.color) := by
    rw [← hcan]
    exact (congrArg Leftover.mono h).trans (by rw [leftover, hcan])
  have hcolor := mono_eq hmono s₂.rend.defColor
  have hcolours : t₁.rend.colours = t₂.rend.colours := by
    simp only [Rendition.colours, hr₁, hr₂, hdef, hul, hhalf, hcan, hfont, hcolor]
  rw [he₁, he₂, buildAttr_congr hd hcolours]
  simp only [hr₁, hr₂, hdef, hul, hhalf, hcan, hfont, hmask, hcolor]

theorem risTab_of_le (s : Con) {x : Nat} (hx : risColumns ≤ x) : risTab s x = tabBit s x := by
  have hword : 5 ≤ x >>> 5 := by
    rw [Nat.shiftRight_eq_div_pow]
    exact (Nat.le_div_iff_mul_le (by decide)).mpr hx
  rw [risTab, risTabs, if_neg (by omega), if_neg (by omega), tabBit]

theorem risTab_of_lt {x : Nat} (hx : x < risColumns) : risTab s₁ x = risTab s₂ x := by
  have hword : x >>> 5 < 5 := by
    rw [Nat.shiftRight_eq_div_pow]
    exact Nat.div_lt_of_lt_mul hx
  simp only [risTab, risTabs, hword, if_true]

theorem risTabs_iff (n : Nat) : (List.range' 0 n).map (risTab s₁) = (List.range' 0 n).map (risTab s₂) ↔
    tabStops s₁ risColumns (n - risColumns) = tabStops s₂ risColumns (n - risColumns) := by
  rw [tabStops, tabStops, List.map_inj_left, List.map_inj_left]
  constructor
  · intro h x hx
    have hrange := List.mem_range'_1.mp hx
    rw [← risTab_of_le s₁ hrange.1, ← risTab_of_le s₂ hrange.1]
    exact h x (List.mem_range'_1.mpr ⟨Nat.zero_le x, by omega⟩)
  · intro h x hx
    have hrange := List.mem_range'_1.mp hx
    rcases Nat.lt_or_ge x risColumns with hlt | hge
    · exact risTab_of_lt hlt
    · rw [risTab_of_le s₁ hge, risTab_of_le s₂ hge]
      exact h x (List.mem_range'_1.mpr ⟨hge, by omega⟩)

/-- **RIS on two consoles of one size.** -/
theorem settled_vteRis_iff (hd : BuildsFromColours d) (hcols : s₁.geo.cols = s₂.geo.cols)
    (hrows : s₁.geo.rows = s₂.geo.rows) :
    settled (vteRis d s₁ true) = settled (vteRis d s₂ true) ↔ leftover s₁ = leftover s₂ := by
  rw [settled_vteRis, settled_vteRis]
  constructor
  · intro h
    obtain ⟨hdef₁, hul₁, hhalf₁, hcan₁, hfont₁, hmask₁, hcolor₁⟩ := vteRis_leaves (d := d) s₁
    obtain ⟨hdef₂, hul₂, hhalf₂, hcan₂, hfont₂, hmask₂, hcolor₂⟩ := vteRis_leaves (d := d) s₂
    have hrend : (vteRis d s₁ true).rend = (vteRis d s₂ true).rend := congrArg Settled.rend h
    rw [hrend] at hdef₁ hul₁ hhalf₁ hcan₁ hfont₁ hmask₁ hcolor₁
    have hcan := hcan₁.symm.trans hcan₂
    have hcolor := hcolor₁.symm.trans hcolor₂
    have htabs := (risTabs_iff s₂.geo.cols).mp
      ((congrArg (fun k => (List.range' 0 k).map (risTab s₁)) hcols).symm.trans
        (congrArg Settled.tabs h))
    refine Leftover.ext (congrArg (fun k => k.modes.decnkm) h)
      (congrArg (fun k => k.modes.decscl) h) (congrArg (fun k => k.chars.g2) h)
      (congrArg (fun k => k.chars.g3) h) ?_ (hdef₁.symm.trans hdef₂) (hul₁.symm.trans hul₂)
      (hhalf₁.symm.trans hhalf₂) hcan (hfont₁.symm.trans hfont₂) (hmask₁.symm.trans hmask₂) ?_
    · rw [leftover, leftover, hcols, htabs]
    · simp only [leftover]
      rw [hcan] at hcolor ⊢
      cases hc : s₂.rend.canDoColor with
      | true => rfl
      | false =>
        rw [hc] at hcolor
        exact congrArg some hcolor
  · intro h
    have hrend := vteRis_rend_congr hd h
    have hkm : s₁.modes.decnkm = s₂.modes.decnkm := congrArg Leftover.decnkm h
    have hscl : s₁.modes.decscl = s₂.modes.decscl := congrArg Leftover.decscl h
    have hg2 : s₁.chars.g2 = s₂.chars.g2 := congrArg Leftover.g2 h
    have hg3 : s₁.chars.g3 = s₂.chars.g3 := congrArg Leftover.g3 h
    have hleft := congrArg Leftover.tabs h
    simp only [leftover, hcols] at hleft
    have htabs := (risTabs_iff s₂.geo.cols).mpr hleft
    rw [hcols, hrows, hrend, hkm, hscl, hg2, hg3, htabs]

/-! ### At the end of a history -/

/-- `ESC c`. -/
def risBytes : List Nat := [0x1b, 0x63]

/-- The settled state does not see the decoder's character and the drawing record. -/
theorem settled_draws (s : Con) (ds : List Draw) : settled { s with draws := ds } = settled s := rfl

theorem settled_write_ris (s : Con) (buf : List Nat) : ∃ s',
    settled (doConWrite d s (buf ++ risBytes)) = settled (vteRis d s' true) ∧
      leftover s' = leftover (writeCells d s buf).1 ∧ s'.geo = (writeCells d s buf).1.geo := by
  obtain ⟨u, ds, he⟩ := writeByte_esc (d := d) (undrawCursor s).rend.hiFontMask (writeCells d s buf)
  have hesc : (writeByte d (undrawCursor s).rend.hiFontMask (writeCells d s buf) 0x1b).1.ps.state =
      .esc := by
    rw [he]
    rfl
  obtain ⟨u', ds', hc⟩ := writeByte_sequence (d := d) (undrawCursor s).rend.hiFontMask
    (w := writeByte d (undrawCursor s).rend.hiFontMask (writeCells d s buf) 0x1b) (c := 0x63)
    (by rw [hesc]; decide) (by decide) (by decide)
  rw [emulateState, hesc, he] at hc
  have hloop : writeCells d s (buf ++ risBytes) = writeByte d (undrawCursor s).rend.hiFontMask
      (writeByte d (undrawCursor s).rend.hiFontMask (writeCells d s buf) 0x1b) 0x63 :=
    List.foldl_append
  obtain ⟨ds'', hf⟩ := flush_fst (writeCells d s (buf ++ risBytes)).1
    (writeCells d s (buf ++ risBytes)).2
  rw [doConWrite_eq, hf, settled_draws, hloop, hc]
  exact ⟨_, rfl, rfl, rfl⟩

/-- **RIS forgets.**  After two histories that end in RIS, written to consoles of one size, the
consoles have settled on the same exactly if RIS was given the same to leave. -/
theorem ris_forgets_iff (hd : BuildsFromColours d) (hcols : s₁.geo.cols = s₂.geo.cols)
    (hrows : s₁.geo.rows = s₂.geo.rows) (h₁ h₂ : List (List Nat)) (b₁ b₂ : List Nat) :
    settled (writes d s₁ (h₁ ++ [b₁ ++ risBytes])) =
        settled (writes d s₂ (h₂ ++ [b₂ ++ risBytes])) ↔
      leftover (writeCells d (writes d s₁ h₁) b₁).1 =
        leftover (writeCells d (writes d s₂ h₂) b₂).1 := by
  have hsize (s : Con) (h : List (List Nat)) (b : List Nat) :
      (writeCells d (writes d s h) b).1.geo.cols = s.geo.cols ∧
        (writeCells d (writes d s h) b).1.geo.rows = s.geo.rows := by
    have hs := ((steady_writes h s).trans (steady_writeCells (d := d) (writes d s h) b).1).size
    simp only [Geom.size, Prod.mk.injEq] at hs
    exact ⟨hs.1, hs.2.1⟩
  have hlast (s : Con) (h : List (List Nat)) (b : List Nat) :
      writes d s (h ++ [b]) = doConWrite d (writes d s h) b := List.foldl_append
  obtain ⟨t₁, hs₁, hl₁, hg₁⟩ := settled_write_ris (d := d) (writes d s₁ h₁) b₁
  obtain ⟨t₂, hs₂, hl₂, hg₂⟩ := settled_write_ris (d := d) (writes d s₂ h₂) b₂
  obtain ⟨hc₁, hr₁⟩ := hsize s₁ h₁ b₁
  obtain ⟨hc₂, hr₂⟩ := hsize s₂ h₂ b₂
  rw [hlast, hlast, hs₁, hs₂, ← hl₁, ← hl₂]
  refine settled_vteRis_iff hd ?_ ?_
  · rw [hg₁, hg₂, hc₁, hc₂, hcols]
  · rw [hg₁, hg₂, hr₁, hr₂, hrows]

/-- A console on a driver that builds attributes as `vgacon.c` does. -/
def vgaLike : Driver := { dummyCon with conBuildAttr := some vgaconBuildAttr }

theorem buildsFromColours_vgaLike : BuildsFromColours vgaLike := by
  intro f hf s s' h
  obtain rfl : vgaconBuildAttr = f := Option.some.inj hf
  obtain ⟨h1, -, h3, h4, -⟩ : s.rend.canDoColor = s'.rend.canDoColor ∧
      s.rend.color = s'.rend.color ∧ s.rend.ulcolor = s'.rend.ulcolor ∧
      s.rend.halfcolor = s'.rend.halfcolor ∧ s.rend.hiFontMask = s'.rend.hiFontMask := by
    simpa [Rendition.colours] using h
  funext color intensity blink underline reverse
  rw [vgaconBuildAttr, vgaconBuildAttr, h1, h3, h4]

theorem ris_forgets_iff_vga :
    settled (writes vgaLike bootCon ([] ++ [[0x41] ++ risBytes])) =
        settled (writes vgaLike bootCon ([] ++ [[] ++ risBytes])) ↔
      leftover (writeCells vgaLike (writes vgaLike bootCon []) [0x41]).1 =
        leftover (writeCells vgaLike (writes vgaLike bootCon []) []).1 :=
  ris_forgets_iff buildsFromColours_vgaLike rfl rfl [] [] [0x41] []

/-- The keypad mode of `ESC =` survives. -/
theorem keypad_survives_ris :
    settled (writes dummyCon bootCon ([] ++ [[0x1b, 0x3d] ++ risBytes])) ≠
      settled (writes dummyCon bootCon ([] ++ [[] ++ risBytes])) := by
  intro h
  have hkeypad := congrArg (fun k => k.modes.decnkm) h
  revert hkeypad
  decide +kernel

end LinuxConsole
