import LinuxConsole.Vte.Place

/-!
# Taking a display over

`take_over_console` puts another driver behind the consoles of a VT.  It takes a
reference on the new driver's module, de-initialises the consoles, moves the
VT's reference from the old module to the new one and only then starts the new
hardware.  When that fails it goes back with one `module_put`, for two
references taken, and without initialising a console again.

When it succeeds `visual_init` lets the new driver choose the size of every
console.  A driver that calls `vc_resize` gets a buffer of that size; one that
sets `vc_cols` and `vc_rows`, as `vgacon` does, leaves the console with the
buffer and the cursor that it had.  **`take_over_iff`** says that these two are
all that goes wrong.

What the map cells hold is a parameter here; the subject is where
`vc_uni_pagedir_loc` points.  The source writes `vc_size_rows` where it means
`vc_size_row`.
-/

namespace LinuxConsole

/-- `ENODEV`. -/
def ENODEV : Int := 19

/-- Where `vc_uni_pagedir_loc` points: to the console's own cell or to the one
that a driver's consoles share. -/
inductive FontLoc
  | own
  | shared
  deriving DecidableEq

/-- How `con_init` settles the size of a console that is not new: it sets the
columns and rows, or it calls `vc_resize`. -/
inductive InitSize
  | set (cols rows : Nat)
  | resize (cols rows : Nat)

/-- A console with what the drivers keep about it.  `allocated` is the size of
the block that `vc_screenbuf` points to. -/
structure Driven where
  con : Con
  allocated : Nat
  loc : FontLoc

/-- `struct consw`, as far as it has to do with taking over.  The module is
`none` for a driver that is built in. -/
structure Consw where
  owner : Option Nat
  hooks : Driver
  canDoColor : Bool
  complementMask : Cell
  initSize : InitSize
  sharesMap : Bool
  sharedMap : Option UniPagedir
  defaultMap : Option UniPagedir

namespace Driven

variable (v : Driven)

/-- The console after `vc_resize` to `cols` by `rows`, with the block that it
leaves: a new one unless there was an error or nothing to do. -/
def resized (r : Con × Int) (cols rows : Nat) : Driven :=
  { v with
    con := r.1
    allocated :=
      if r.2 ≠ 0 ∨ cols = v.con.geo.cols ∧ rows = v.con.geo.rows then v.allocated
      else r.1.geo.screenbufSize }

/-- `vc_resize`. -/
def vcResize (d : Driver) (cols lines : Nat) (newscreen : Option Nat) : Driven :=
  v.resized (LinuxConsole.vcResize d v.con cols lines newscreen)
    (if cols ≠ 0 then cols else v.con.geo.cols) (if lines ≠ 0 then lines else v.con.geo.rows)

/-- `con_deinit`: a driver whose consoles share a map gives the console its own
again. -/
def conDeinit (csw : Consw) : Driven :=
  if csw.sharesMap then { v with loc := .own, con.uni := csw.defaultMap } else v

/-- `con_init(vc, 0)`. -/
def conInit (csw : Consw) (newscreen : Option Nat) : Driven :=
  let v := { v with con.rend.canDoColor := csw.canDoColor
                    con.rend.complementMask := csw.complementMask }
  let v := if csw.sharesMap then { v with loc := .shared, con.uni := csw.sharedMap } else v
  match csw.initSize with
  | .set cols rows => { v with con.geo.cols := cols, con.geo.rows := rows }
  | .resize cols rows => v.vcResize csw.hooks cols rows newscreen

/-- The mask for a driver that sets none. -/
def complementMask (r : Rendition) : Cell :=
  if r.complementMask = 0 then (if r.canDoColor then 0x7700 else 0x0800) else r.complementMask

/-- `visual_init(vc, 0)`. -/
def visualInit (csw : Consw) (newscreen : Option Nat) : Driven :=
  let v := { v with loc := .own
                    con.uni := none
                    con.rend.hiFontMask := 0
                    con.rend.complementMask := 0
                    con.rend.canDoColor := false }
  let v := v.conInit csw newscreen
  let mask := complementMask v.con.rend
  { v with con.rend.complementMask := mask
           con.rend.sComplementMask := mask
           con.geo.sizeRow := 2 * v.con.geo.cols
           con.geo.screenbufSize := v.con.geo.rows * (2 * v.con.geo.cols) }

/-- The round of `take_over_console` for one console, less its number, which
stays. -/
def setNewMode (csw : Consw) (newscreen : Option Nat) : Driven :=
  let oldWasColor := v.con.rend.canDoColor
  let g := v.con.geo
  let v := { v with con.geo.origin := g.screenbuf
                    con.geo.scrEnd := g.screenbuf + g.screenbufSize
                    con.cur.pos := g.screenbuf + g.sizeRow * v.con.cur.y + 2 * v.con.cur.x }
  let v := v.visualInit csw newscreen
  let c := updateAttr csw.hooks v.con
  { v with con := if oldWasColor ≠ c.rend.canDoColor then clearBufferAttributes c else c }

/-- The sizes agree with each other and with the buffer, and the cursor is on
the screen. -/
structure Fits (v : Driven) : Prop where
  sizeRow : v.con.geo.sizeRow = 2 * v.con.geo.cols
  bufSize : v.con.geo.screenbufSize = v.con.geo.rows * v.con.geo.sizeRow
  allocated : v.con.geo.screenbufSize = v.allocated
  x_lt : v.con.cur.x < v.con.geo.cols
  y_lt : v.con.cur.y < v.con.geo.rows

end Driven

/-- A VT with `n` slots for consoles, one of them in front.  `inits` counts the
calls of `con_init` for a slot less those of `con_deinit`, `refs` the references
on the modules. -/
structure DrivenVt (n : Nat) where
  cons : Fin n → Option Driven
  fg : Fin n
  fg_live : (cons fg).isSome
  vtSw : Consw
  inits : Fin n → Int
  refs : Nat → Int

namespace DrivenVt

variable {n : Nat} (s : DrivenVt n)

/-! ### Modules -/

/-- `try_module_get`; `alive` is whether the module is not being unloaded. -/
def tryModuleGet (owner : Option Nat) (alive : Bool) : Option (DrivenVt n) :=
  match owner with
  | none => some s
  | some m =>
    if alive then some { s with refs := Function.update s.refs m (s.refs m + 1) } else none

/-- `__module_get`. -/
def moduleGet (owner : Option Nat) : DrivenVt n :=
  match owner with
  | none => s
  | some m => { s with refs := Function.update s.refs m (s.refs m + 1) }

/-- `module_put`. -/
def modulePut (owner : Option Nat) : DrivenVt n :=
  match owner with
  | none => s
  | some m => { s with refs := Function.update s.refs m (s.refs m - 1) }

/-! ### Consoles -/

/-- Change the consoles, each by its slot. -/
def mapCons (f : Fin n → Driven → Driven) : DrivenVt n :=
  { s with
    cons := fun i => (s.cons i).map (f i)
    fg_live := by rw [Option.isSome_map]; exact s.fg_live }

/-- Change the console in front. -/
def updFg (f : Con → Con) : DrivenVt n :=
  s.mapCons fun i v => if i = s.fg then { v with con := f v.con } else v

/-- Count `k` for every slot that has a console. -/
def count (k : Int) : DrivenVt n :=
  { s with inits := fun i => if (s.cons i).isSome then s.inits i + k else s.inits i }

/-- `con_deinit` of every console. -/
def deinitAll : DrivenVt n := (s.mapCons fun _ v => v.conDeinit s.vtSw).count (-1)

/-- The new mode for every console. -/
def setNewModes (csw : Consw) (newscreen : Fin n → Option Nat) : DrivenVt n :=
  (s.mapCons fun i v => v.setNewMode csw (newscreen i)).count 1

/-- `take_over_console(vt, csw)`; `started` is whether `con_startup` of the new
driver returns a description. -/
def takeOverConsole (csw : Consw) (alive started : Bool) (newscreen : Fin n → Option Nat) :
    Int × DrivenVt n :=
  match s.tryModuleGet csw.owner alive with
  | none => (-ENODEV, s)
  | some s =>
    let s := (s.updFg hideCursor).deinitAll
    let s := (s.modulePut s.vtSw.owner).moduleGet csw.owner
    -- a failed start leaves the old driver in place, started once more
    if !started then (-ENODEV, s.modulePut csw.owner)
    else
      let s := { s with vtSw := csw }.setNewModes csw newscreen
      (0, (s.updFg (updateScreen csw.hooks)).modulePut csw.owner)

/-! ### All or nothing -/

/-- The references besides which the VT holds one on the module. -/
def held (others : Nat → Int) (owner : Option Nat) : Nat → Int :=
  match owner with
  | none => others
  | some m => Function.update others m (others m + 1)

/-- Every console of the VT fits its buffer. -/
def AllFit : Prop := ∀ i v, s.cons i = some v → v.Fits

/-- Modules, driver and what the driver owns of the consoles are the same. -/
structure AsBefore (s s' : DrivenVt n) : Prop where
  refs : s'.refs = s.refs
  vtSw : s'.vtSw = s.vtSw
  inits : s'.inits = s.inits
  loc : ∀ i, (s'.cons i).map Driven.loc = (s.cons i).map Driven.loc

/-- The VT's one reference has gone from its old driver to the new one, and
consoles that fitted their buffers still do. -/
structure TakenOver (s s' : DrivenVt n) (csw : Consw) : Prop where
  refs : ∀ others, s.refs = held others s.vtSw.owner → s'.refs = held others csw.owner
  fits : s.AllFit → s'.AllFit

/-- An error means that nothing has changed, 0 that the VT has been taken over. -/
def AllOrNothing (csw : Consw) (r : Int × DrivenVt n) : Prop :=
  (r.1 ≠ 0 → s.AsBefore r.2) ∧ (r.1 = 0 → s.TakenOver r.2 csw)

/-- The module of the driver can be had. -/
def CanGet (csw : Consw) (alive : Bool) : Prop := csw.owner = none ∨ alive = true

end DrivenVt

/-- The driver resizes the console, or its size is that of the console's buffer
and has room for the cursor. -/
def Consw.Suits (csw : Consw) (v : Driven) : Prop :=
  match csw.initSize with
  | .set cols rows => rows * (2 * cols) = v.allocated ∧ v.con.cur.x < cols ∧ v.con.cur.y < rows
  | .resize _ _ => True

/-! ### What leaves the sizes alone -/

/-- `vc_size_row` and `vc_screenbuf_size`. -/
def Con.sizes (s : Con) : Nat × Nat := (s.geo.sizeRow, s.geo.screenbufSize)

section Sizes

variable {d : Driver}

theorem sizes_ite {c : Prop} [Decidable c] {a b : Con} {p : Nat × Nat} (ha : a.sizes = p)
    (hb : b.sizes = p) : (if c then a else b).sizes = p := by
  split
  · exact ha
  · exact hb

theorem sizes_hideCursor (s : Con) : (hideCursor s).sizes = s.sizes := by
  rw [hideCursor, hideSoftcursor]
  split
  · rfl
  dsimp only
  split
  · rfl
  · rfl

theorem sizes_addSoftcursor (s : Con) : (addSoftcursor s).sizes = s.sizes := by
  rw [addSoftcursor]
  split
  · rfl
  split
  · rfl
  dsimp only
  split
  · rfl
  · rfl

theorem sizes_setCursor (s : Con) : (setCursor s).sizes = s.sizes := by
  have hsoft := sizes_addSoftcursor s
  rw [setCursor]
  split
  · rfl
  split
  · exact sizes_ite hsoft hsoft
  · exact sizes_hideCursor s

theorem sizes_setPalette (s : Con) : (setPalette s).sizes = s.sizes := by
  rw [setPalette]
  exact sizes_ite rfl rfl

theorem sizes_updateScreen (s : Con) : (updateScreen d s).sizes = s.sizes := by
  have hstart : (setOrigin d (hideCursor s)).sizes = s.sizes := sizes_hideCursor s
  have hswitch (mem : Nat → Cell) (can : Bool) : (setPalette { setOrigin d (hideCursor s) with
      mem := mem, rend.canDoColor := can }).sizes = s.sizes := (sizes_setPalette _).trans hstart
  have hattr (s' : Con) (p : Prop) [Decidable p] (h : s'.sizes = s.sizes) :
      (if p then clearBufferAttributes (updateAttr d s') else s').sizes = s.sizes := sizes_ite h h
  have hdraw (s' : Con) (p : Prop) [Decidable p] (h : s'.sizes = s.sizes) :
      (if p then doUpdateRegion s' s'.geo.origin (s'.geo.screenbufSize / 2) else s').sizes =
        s.sizes := sizes_ite h h
  rw [updateScreen]
  exact (sizes_setCursor _).trans (hdraw _ _ (hattr _ _ (hswitch _ _)))

end Sizes

namespace Driven

variable {v : Driven}

theorem fits_congr {w : Driven} (hplace : w.con.place = v.con.place)
    (hsizes : w.con.sizes = v.con.sizes) (halloc : w.allocated = v.allocated) :
    w.Fits ↔ v.Fits := by
  have hcols : w.con.geo.cols = v.con.geo.cols := congrArg Place.cols hplace
  have hrows : w.con.geo.rows = v.con.geo.rows := congrArg Place.rows hplace
  have hx : w.con.cur.x = v.con.cur.x := congrArg Place.x hplace
  have hy : w.con.cur.y = v.con.cur.y := congrArg Place.y hplace
  have hrow : w.con.geo.sizeRow = v.con.geo.sizeRow := congrArg Prod.fst hsizes
  have hbuf : w.con.geo.screenbufSize = v.con.geo.screenbufSize := congrArg Prod.snd hsizes
  constructor
  · rintro ⟨h1, h2, h3, h4, h5⟩
    exact ⟨by rw [← hrow, ← hcols, h1], by rw [← hbuf, ← hrows, ← hrow, h2],
      by rw [← hbuf, ← halloc, h3], by rw [← hx, ← hcols]; exact h4,
      by rw [← hy, ← hrows]; exact h5⟩
  · rintro ⟨h1, h2, h3, h4, h5⟩
    exact ⟨by rw [hrow, hcols, h1], by rw [hbuf, hrows, hrow, h2], by rw [hbuf, halloc, h3],
      by rw [hx, hcols]; exact h4, by rw [hy, hrows]; exact h5⟩

/-! ### `vc_resize` -/

/-- The cursor is on the screen after `gotoxy` when the margins are the
screen. -/
theorem gotoxy_on {s : Con} (hc : 1 ≤ s.geo.cols) (hr : 1 ≤ s.geo.rows)
    (hm : s.mar = ⟨0, s.geo.rows⟩) (x y : Int) :
    (gotoxy s x y).cur.x < s.geo.cols ∧ (gotoxy s x y).cur.y < s.geo.rows := by
  constructor
  · change (clampX s x).toNat < s.geo.cols
    rw [clampX]
    split
    · exact hc
    · split <;> omega
  · change (clampY s y).toNat < s.geo.rows
    have htop : s.mar.top = 0 := by rw [hm]
    have hbottom : s.mar.bottom = s.geo.rows := by rw [hm]
    rw [clampY, htop, hbottom]
    simp only [ite_self, Nat.cast_zero]
    split
    · exact hr
    · split <;> omega

theorem copyRows_frame (lo hi oldRow newRow fuel ol nl : Nat) (s : Con) :
    (copyRows lo hi oldRow newRow fuel ol nl s).1.geo = s.geo ∧
      (copyRows lo hi oldRow newRow fuel ol nl s).1.cur = s.cur := by
  induction fuel generalizing s ol nl with
  | zero => exact ⟨rfl, rfl⟩
  | succ fuel ih =>
    rw [copyRows]
    split
    · dsimp only
      split
      · exact ih _ _ _
      · exact ih _ _ _
    · exact ⟨rfl, rfl⟩

theorem copyScreen_frame (s : Con) (oldRows oldRow buf : Nat) :
    (copyScreen s oldRows oldRow buf).geo = s.geo ∧
      (copyScreen s oldRows oldRow buf).cur = s.cur := by
  rw [copyScreen]
  dsimp only
  generalize s.geo.origin + _ = ol
  split
  · exact copyRows_frame _ _ _ _ _ _ _ _
  · exact copyRows_frame _ _ _ _ _ _ _ _

/-- **A console that was resized fits its new buffer.** -/
theorem fits_resizeTo {d : Driver} {s : Con} {cols rows : Nat} (hc : 1 ≤ cols) (hr : 1 ≤ rows)
    (buf : Nat) (loc : FontLoc) :
    Fits ⟨resizeTo d s cols rows buf, (resizeTo d s cols rows buf).geo.screenbufSize, loc⟩ := by
  obtain ⟨hgeo, hcur⟩ := copyScreen_frame (updateAttr d (setSize s cols rows)) s.geo.rows
    s.geo.sizeRow buf
  have hfits (c : Con) (hgc : c.geo.cols = cols) (hgr : c.geo.rows = rows)
      (hsizes : c.sizes = (2 * cols, 2 * cols * rows)) (hx : c.cur.x < cols) (hy : c.cur.y < rows) :
      Fits ⟨c, c.geo.screenbufSize, loc⟩ := by
    have hrow : c.geo.sizeRow = 2 * cols := congrArg Prod.fst hsizes
    have hbuf : c.geo.screenbufSize = 2 * cols * rows := congrArg Prod.snd hsizes
    exact ⟨by rw [hrow, hgc], by rw [hbuf, hgr, hrow, Nat.mul_comm], rfl, by rw [hgc]; exact hx,
      by rw [hgr]; exact hy⟩
  rw [resizeTo]
  dsimp only
  generalize copyScreen _ _ _ buf = c at hgeo hcur
  have hcols : c.geo.cols = cols := by rw [hgeo]; rfl
  have hrows : c.geo.rows = rows := by rw [hgeo]; rfl
  have hsizes : c.sizes = (2 * cols, 2 * cols * rows) := by rw [Con.sizes, hgeo]; rfl
  have hgoto := gotoxy_on
    (s := { (setOrigin d { c with geo.screenbuf := buf, vt.kmalloced := true }) with
      mar := ⟨0, c.geo.rows⟩ }) (hcols ▸ hc) (hrows ▸ hr) rfl c.cur.x c.cur.y
  obtain ⟨hx, hy⟩ := hgoto
  split
  · refine hfits _ ?_ ?_ ((sizes_updateScreen _).trans hsizes) ?_ ?_
    · exact (congrArg Place.cols (place_updateScreen _)).trans hcols
    · exact (congrArg Place.rows (place_updateScreen _)).trans hrows
    · exact lt_of_eq_of_lt (congrArg Place.x (place_updateScreen _)) (hcols ▸ hx)
    · exact lt_of_eq_of_lt (congrArg Place.y (place_updateScreen _)) (hrows ▸ hy)
  · exact hfits _ hcols hrows hsizes (hcols ▸ hx) (hrows ▸ hy)

theorem Fits.kept (h : v.Fits) {e : Int} {cols rows : Nat}
    (hsame : e ≠ 0 ∨ cols = v.con.geo.cols ∧ rows = v.con.geo.rows) :
    (v.resized (v.con, e) cols rows).Fits := by
  rw [resized, if_pos hsame]
  exact h

/-- **`vc_resize` keeps a console that fits**, whatever it returns. -/
theorem Fits.vcResize (h : v.Fits) (d : Driver) (cols lines : Nat) (newscreen : Option Nat) :
    (v.vcResize d cols lines newscreen).Fits := by
  have hc : 1 ≤ (if cols ≠ 0 then cols else v.con.geo.cols) := by
    have := h.x_lt
    split <;> omega
  have hr : 1 ≤ (if lines ≠ 0 then lines else v.con.geo.rows) := by
    have := h.y_lt
    split <;> omega
  rw [Driven.vcResize, LinuxConsole.vcResize]
  dsimp only
  generalize (if cols ≠ 0 then cols else v.con.geo.cols) = newCols at hc ⊢
  generalize (if lines ≠ 0 then lines else v.con.geo.rows) = newRows at hr ⊢
  by_cases hmax : cols > vcResizeMaxcol ∨ lines > vcResizeMaxrow
  · rw [if_pos hmax]
    exact h.kept (Or.inl (show -EINVAL ≠ 0 by decide))
  · rw [if_neg hmax]
    by_cases hsame : newCols = v.con.geo.cols ∧ newRows = v.con.geo.rows
    · rw [if_pos hsame]
      exact h.kept (Or.inr hsame)
    · rw [if_neg hsame]
      cases newscreen with
      | none => exact h.kept (Or.inl (show -ENOMEM ≠ 0 by decide))
      | some buf =>
        dsimp only
        by_cases herr : resizeScreen d v.con newCols newRows ≠ 0
        · rw [if_pos herr]
          exact h.kept (Or.inl herr)
        · rw [if_neg herr, resized, if_neg]
          · exact fits_resizeTo hc hr buf v.loc
          · rintro (hzero | hsizes)
            · exact hzero rfl
            · exact hsame hsizes

/-! ### The new mode -/

/-- The console that `con_init` is called with. -/
def prepared (v : Driven) : Driven :=
  let g := v.con.geo
  { v with loc := .own
           con.geo.origin := g.screenbuf
           con.geo.scrEnd := g.screenbuf + g.screenbufSize
           con.cur.pos := g.screenbuf + g.sizeRow * v.con.cur.y + 2 * v.con.cur.x
           con.uni := none
           con.rend.hiFontMask := 0
           con.rend.complementMask := 0
           con.rend.canDoColor := false }

/-- The sizes that `visual_init` derives. -/
def derived (v : Driven) : Driven :=
  { v with con.geo.sizeRow := 2 * v.con.geo.cols
           con.geo.screenbufSize := v.con.geo.rows * (2 * v.con.geo.cols) }

theorem fits_derived : v.derived.Fits ↔
    v.con.geo.rows * (2 * v.con.geo.cols) = v.allocated ∧ v.con.cur.x < v.con.geo.cols ∧
      v.con.cur.y < v.con.geo.rows := by
  constructor
  · rintro ⟨-, -, h3, h4, h5⟩
    exact ⟨h3, h4, h5⟩
  · rintro ⟨h3, h4, h5⟩
    exact ⟨rfl, rfl, h3, h4, h5⟩

theorem Fits.derived (h : v.Fits) : v.derived.Fits := by
  refine fits_derived.mpr ⟨?_, h.x_lt, h.y_lt⟩
  rw [← h.sizeRow, ← h.bufSize]
  exact h.allocated

/-- A console fits after the new mode exactly if the sizes do that are derived
from what `con_init` left. -/
theorem fits_setNewMode (csw : Consw) (newscreen : Option Nat) :
    (v.setNewMode csw newscreen).Fits ↔ (v.prepared.conInit csw newscreen).derived.Fits := by
  rw [setNewMode]
  dsimp only
  split
  · exact fits_congr rfl rfl rfl
  · exact fits_congr rfl rfl rfl

/-- **A console that fits still does under the new driver** exactly if the driver
suits it. -/
theorem Fits.setNewMode_iff (h : v.Fits) (csw : Consw) (newscreen : Option Nat) :
    (v.setNewMode csw newscreen).Fits ↔ csw.Suits v := by
  rw [fits_setNewMode, conInit, Consw.Suits]
  cases csw.initSize with
  | set cols rows =>
    dsimp only
    rw [fits_derived]
    split <;> exact Iff.rfl
  | resize cols rows =>
    dsimp only
    refine iff_of_true (Fits.derived (Fits.vcResize ?_ _ _ _ _)) trivial
    split
    · refine (fits_congr (v := v) ?_ ?_ ?_).mpr h <;> rfl
    · refine (fits_congr (v := v) ?_ ?_ ?_).mpr h <;> rfl

end Driven

/-! ### The references -/

namespace DrivenVt

variable {n : Nat} {s : DrivenVt n}

theorem modulePut_refs (owner : Option Nat) :
    (s.modulePut owner).refs = fun m => if owner = some m then s.refs m - 1 else s.refs m := by
  funext m
  cases owner with
  | none => rfl
  | some o =>
    by_cases h : m = o
    · subst h
      simp [modulePut]
    · simp [modulePut, h, Ne.symm h]

theorem moduleGet_refs (owner : Option Nat) :
    (s.moduleGet owner).refs = fun m => if owner = some m then s.refs m + 1 else s.refs m := by
  funext m
  cases owner with
  | none => rfl
  | some o =>
    by_cases h : m = o
    · subst h
      simp [moduleGet]
    · simp [moduleGet, h, Ne.symm h]

theorem held_apply (others : Nat → Int) (owner : Option Nat) :
    held others owner = fun m => if owner = some m then others m + 1 else others m := by
  funext m
  cases owner with
  | none => rfl
  | some o =>
    by_cases h : m = o
    · subst h
      simp [held]
    · simp [held, h, Ne.symm h]

theorem tryModuleGet_eq (csw : Consw) (alive : Bool) :
    (CanGet csw alive → s.tryModuleGet csw.owner alive = some (s.moduleGet csw.owner)) ∧
      (¬ CanGet csw alive → s.tryModuleGet csw.owner alive = none) := by
  rw [CanGet]
  cases csw.owner with
  | none => exact ⟨fun _ => rfl, fun h => absurd (Or.inl rfl) h⟩
  | some m =>
    cases alive with
    | true => exact ⟨fun _ => rfl, fun h => absurd (Or.inr rfl) h⟩
    | false =>
      refine ⟨?_, fun _ => rfl⟩
      rintro (h | h)
      · cases h
      · cases h

@[simp] theorem modulePut_frame (owner : Option Nat) : (s.modulePut owner).cons = s.cons ∧
    (s.modulePut owner).fg = s.fg ∧ (s.modulePut owner).vtSw = s.vtSw ∧
      (s.modulePut owner).inits = s.inits := by
  cases owner <;> exact ⟨rfl, rfl, rfl, rfl⟩

@[simp] theorem moduleGet_frame (owner : Option Nat) : (s.moduleGet owner).cons = s.cons ∧
    (s.moduleGet owner).fg = s.fg ∧ (s.moduleGet owner).vtSw = s.vtSw ∧
      (s.moduleGet owner).inits = s.inits := by
  cases owner <;> exact ⟨rfl, rfl, rfl, rfl⟩

/-! ### The two ways it ends -/

/-- The state in which the new hardware is started. -/
def handedOver (s : DrivenVt n) (csw : Consw) : DrivenVt n :=
  ((((s.moduleGet csw.owner).updFg hideCursor).deinitAll).modulePut s.vtSw.owner).moduleGet
    csw.owner

/-- The state when the hardware has been started. -/
def switched (s : DrivenVt n) (csw : Consw) (newscreen : Fin n → Option Nat) : DrivenVt n :=
  (({ s.handedOver csw with vtSw := csw }.setNewModes csw newscreen).updFg
    (updateScreen csw.hooks)).modulePut csw.owner

/-- **What `take_over_console` comes to.** -/
theorem takeOverConsole_eq (s : DrivenVt n) (csw : Consw) (alive started : Bool)
    (newscreen : Fin n → Option Nat) :
    (¬ CanGet csw alive → s.takeOverConsole csw alive started newscreen = (-ENODEV, s)) ∧
    (CanGet csw alive → started = false → s.takeOverConsole csw alive started newscreen =
      (-ENODEV, (s.handedOver csw).modulePut csw.owner)) ∧
    (CanGet csw alive → started = true → s.takeOverConsole csw alive started newscreen =
      (0, s.switched csw newscreen)) := by
  obtain ⟨hget, hnot⟩ := tryModuleGet_eq (s := s) csw alive
  have hsw : (((s.moduleGet csw.owner).updFg hideCursor).deinitAll).vtSw = s.vtSw :=
    (moduleGet_frame csw.owner).2.2.1
  refine ⟨fun h => ?_, fun h hfail => ?_, fun h hstart => ?_⟩
  · rw [takeOverConsole, hnot h]
  · rw [takeOverConsole, hget h, hfail]
    dsimp only
    rw [hsw]
    rfl
  · rw [takeOverConsole, hget h, hstart]
    dsimp only
    rw [hsw]
    rfl

theorem handedOver_inits (csw : Consw) :
    (s.handedOver csw).inits =
      fun i => if (s.cons i).isSome then s.inits i + -1 else s.inits i := by
  rw [handedOver, (moduleGet_frame csw.owner).2.2.2, (modulePut_frame s.vtSw.owner).2.2.2]
  funext i
  simp only [deinitAll, count, updFg, mapCons, Option.isSome_map, moduleGet_frame]

theorem handedOver_refs (csw : Consw) (m : Nat) :
    (s.handedOver csw).refs m = s.refs m + (if csw.owner = some m then 2 else 0) -
      (if s.vtSw.owner = some m then 1 else 0) := by
  rw [handedOver, moduleGet_refs, modulePut_refs]
  have hget : (((s.moduleGet csw.owner).updFg hideCursor).deinitAll).refs =
      fun m => if csw.owner = some m then s.refs m + 1 else s.refs m := moduleGet_refs csw.owner
  rw [hget]
  dsimp only
  split <;> split <;> omega

/-- A failed start never leaves things as they were: the console in front has
been de-initialised. -/
theorem not_asBefore (csw : Consw) :
    ¬ s.AsBefore ((s.handedOver csw).modulePut csw.owner) := by
  intro h
  have hinits := congrFun h.inits s.fg
  rw [(modulePut_frame csw.owner).2.2.2, handedOver_inits] at hinits
  dsimp only at hinits
  rw [if_pos s.fg_live] at hinits
  omega

theorem switched_refs (csw : Consw) (newscreen : Fin n → Option Nat) {others : Nat → Int}
    (h : s.refs = held others s.vtSw.owner) :
    (s.switched csw newscreen).refs = held others csw.owner := by
  rw [switched, modulePut_refs, held_apply]
  funext m
  have hm : (({ s.handedOver csw with vtSw := csw }.setNewModes csw newscreen).updFg
      (updateScreen csw.hooks)).refs m = (s.handedOver csw).refs m := rfl
  rw [hm, handedOver_refs, h, held_apply]
  dsimp only
  split <;> split <;> omega

/-- The function on the console in front. -/
def inFront (s : DrivenVt n) (f : Con → Con) (i : Fin n) (v : Driven) : Driven :=
  if i = s.fg then { v with con := f v.con } else v

/-- What becomes of the console in a slot. -/
def taken (s : DrivenVt n) (csw : Consw) (newscreen : Fin n → Option Nat) (i : Fin n) (v : Driven) :
    Driven :=
  s.inFront (updateScreen csw.hooks) i
    (((s.inFront hideCursor i v).conDeinit s.vtSw).setNewMode csw (newscreen i))

theorem switched_cons (csw : Consw) (newscreen : Fin n → Option Nat) (i : Fin n) :
    (s.switched csw newscreen).cons i = (s.cons i).map (s.taken csw newscreen i) := by
  have hfg : (s.handedOver csw).fg = s.fg := by
    rw [handedOver, (moduleGet_frame csw.owner).2.1, (modulePut_frame s.vtSw.owner).2.1]
    exact (moduleGet_frame csw.owner).2.1
  have hsw : (s.moduleGet csw.owner).vtSw = s.vtSw := (moduleGet_frame csw.owner).2.2.1
  have hcons : (s.handedOver csw).cons i =
      (s.cons i).map fun v => (s.inFront hideCursor i v).conDeinit s.vtSw := by
    rw [handedOver, (moduleGet_frame csw.owner).1, (modulePut_frame s.vtSw.owner).1]
    change (((s.moduleGet csw.owner).cons i).map _).map _ = _
    rw [(moduleGet_frame csw.owner).1, Option.map_map]
    simp only [updFg, mapCons, hsw, (moduleGet_frame csw.owner).2.1]
    rfl
  rw [switched, (modulePut_frame csw.owner).1]
  change (((s.handedOver csw).cons i).map _).map _ = _
  rw [hcons, Option.map_map, Option.map_map]
  simp only [setNewModes, mapCons, count, hfg]
  rfl

theorem fits_updateScreen {v : Driven} (csw : Consw) (i : Fin n) :
    (s.inFront (updateScreen csw.hooks) i v).Fits ↔ v.Fits := by
  rw [inFront]
  split
  · exact Driven.fits_congr (place_updateScreen _) (sizes_updateScreen _) rfl
  · exact Iff.rfl

theorem released_frame {v : Driven} (i : Fin n) :
    ((s.inFront hideCursor i v).conDeinit s.vtSw).con.place = v.con.place ∧
      ((s.inFront hideCursor i v).conDeinit s.vtSw).con.sizes = v.con.sizes ∧
      ((s.inFront hideCursor i v).conDeinit s.vtSw).allocated = v.allocated := by
  have hhide : (s.inFront hideCursor i v).con.place = v.con.place ∧
      (s.inFront hideCursor i v).con.sizes = v.con.sizes ∧
      (s.inFront hideCursor i v).allocated = v.allocated := by
    rw [inFront]
    split
    · exact ⟨place_hideCursor _, sizes_hideCursor _, rfl⟩
    · exact ⟨rfl, rfl, rfl⟩
  rw [Driven.conDeinit]
  split
  · exact hhide
  · exact hhide

/-- **A console that fits still does when the VT has been taken over** exactly if
the new driver suits it. -/
theorem fits_taken {v : Driven} (h : v.Fits) (csw : Consw) (newscreen : Fin n → Option Nat)
    (i : Fin n) : (s.taken csw newscreen i v).Fits ↔ csw.Suits v := by
  obtain ⟨hplace, hsizes, halloc⟩ := released_frame (s := s) (v := v) i
  rw [taken, fits_updateScreen, ((Driven.fits_congr hplace hsizes halloc).mpr h).setNewMode_iff]
  rw [Consw.Suits, Consw.Suits]
  have hx := congrArg Place.x hplace
  have hy := congrArg Place.y hplace
  change _ = v.con.cur.x at hx
  change _ = v.con.cur.y at hy
  cases csw.initSize with
  | set cols rows =>
    dsimp only
    rw [halloc]
    change _ ∧ Place.x (Con.place _) < _ ∧ Place.y (Con.place _) < _ ↔ _
    rw [hx, hy]
  | resize cols rows => exact Iff.rfl

end DrivenVt

open DrivenVt

/-- **Taking over is all or nothing** exactly if the new hardware does not fail to
start once its module has been had, and, where every console fits its buffer,
the new driver suits every one of them. -/
theorem take_over_iff {n : Nat} (s : DrivenVt n) (csw : Consw) (alive started : Bool)
    (newscreen : Fin n → Option Nat) :
    s.AllOrNothing csw (s.takeOverConsole csw alive started newscreen) ↔
      (CanGet csw alive →
        started = true ∧ (s.AllFit → ∀ i v, s.cons i = some v → csw.Suits v)) := by
  obtain ⟨hnot, hfail, hstart⟩ := takeOverConsole_eq s csw alive started newscreen
  by_cases hget : CanGet csw alive
  · cases started with
    | false =>
      rw [hfail hget rfl]
      refine iff_of_false ?_ ?_
      · rintro ⟨herr, -⟩
        exact not_asBefore csw (herr (show -ENODEV ≠ 0 by decide))
      · intro h
        cases (h hget).1
    | true =>
      rw [hstart hget rfl]
      have hfits : (s.AllFit → (s.switched csw newscreen).AllFit) ↔
          (s.AllFit → ∀ i v, s.cons i = some v → csw.Suits v) := by
        refine imp_congr_right fun hall => forall_congr' fun i => ?_
        rw [switched_cons]
        cases hcons : s.cons i with
        | none =>
          refine iff_of_true ?_ ?_
          · intro v hv
            cases hv
          · intro v hv
            cases hv
        | some v =>
          have hv := fits_taken (s := s) (hall i v hcons) csw newscreen i
          constructor
          · intro h w hw
            obtain rfl := Option.some.inj hw
            exact hv.mp (h _ rfl)
          · intro h w hw
            obtain rfl := Option.some.inj hw
            exact hv.mpr (h v rfl)
      constructor
      · rintro ⟨-, hdone⟩ -
        exact ⟨rfl, hfits.mp (hdone rfl).fits⟩
      · intro h
        refine ⟨fun hne => absurd rfl hne, fun _ => ⟨?_, hfits.mpr (h hget).2⟩⟩
        intro others hrefs
        exact switched_refs csw newscreen hrefs
  · rw [hnot hget]
    refine iff_of_true ⟨fun _ => ⟨rfl, rfl, rfl, fun _ => rfl⟩, fun hzero => ?_⟩
      fun h => absurd h hget
    exact absurd hzero (show -ENODEV ≠ 0 by decide)

/-- `dummy_con`. -/
def dummyConsw (owner : Option Nat) : Consw where
  owner := owner
  hooks := dummyCon
  canDoColor := true
  complementMask := 0
  initSize := .resize 80 25
  sharesMap := false
  sharedMap := none
  defaultMap := none

/-- `vga_con` in a mode of `cols` by `rows`. -/
def vgaConsw (owner : Option Nat) (hooks : Driver) (cols rows : Nat) : Consw where
  owner := owner
  hooks := hooks
  canDoColor := true
  complementMask := 0x7700
  initSize := .set cols rows
  sharesMap := true
  sharedMap := none
  defaultMap := none

/-- A VT with one console of 80 by 25 on the dummy driver, which is module 0. -/
def dummyVt : DrivenVt 1 where
  cons _ := some ⟨bootCon, 4000, .own⟩
  fg := 0
  fg_live := rfl
  vtSw := dummyConsw (some 0)
  inits _ := 1
  refs := held (fun _ => 0) (some 0)

theorem allFit_dummyVt : dummyVt.AllFit := by
  intro i v hv
  obtain rfl := Option.some.inj hv
  exact ⟨by decide +kernel, by decide +kernel, by decide +kernel, by decide +kernel,
    by decide +kernel⟩

/-- **A driver that does not start** keeps a reference, and the dummy driver has
lost its own and its console; **one that starts with 50 lines** leaves the
console with 8000 bytes of screen in a block of 4000. -/
theorem takeover_half_done :
    (dummyVt.takeOverConsole (vgaConsw (some 1) dummyCon 80 25) true false fun _ => none).1 = -19 ∧
    (dummyVt.takeOverConsole (vgaConsw (some 1) dummyCon 80 25) true false
      fun _ => none).2.refs 0 = 0 ∧
    (dummyVt.takeOverConsole (vgaConsw (some 1) dummyCon 80 25) true false
      fun _ => none).2.refs 1 = 1 ∧
    (dummyVt.takeOverConsole (vgaConsw (some 1) dummyCon 80 25) true false
      fun _ => none).2.inits 0 = 0 ∧
    ¬ dummyVt.AllOrNothing (vgaConsw (some 1) dummyCon 80 25)
      (dummyVt.takeOverConsole (vgaConsw (some 1) dummyCon 80 25) true false fun _ => none) ∧
    ¬ dummyVt.AllOrNothing (vgaConsw (some 1) dummyCon 80 50)
      (dummyVt.takeOverConsole (vgaConsw (some 1) dummyCon 80 50) true true fun _ => none) := by
  have hrefs : (dummyVt.takeOverConsole (vgaConsw (some 1) dummyCon 80 25) true false
      fun _ => none).2.refs 0 = 0 := by decide
  have hsizes : ((dummyVt.takeOverConsole (vgaConsw (some 1) dummyCon 80 50) true true
      fun _ => none).2.cons 0).map (fun v => (v.con.geo.screenbufSize, v.allocated)) =
        some (8000, 4000) := by decide +kernel
  refine ⟨by decide, hrefs, by decide, by decide, ?_, ?_⟩
  · rintro ⟨herr, -⟩
    have hsame := congrFun (herr (by decide)).refs 0
    rw [hrefs] at hsame
    exact absurd hsame (by decide)
  · rintro ⟨-, hdone⟩
    obtain ⟨v, hv, heq⟩ := Option.map_eq_some_iff.mp hsizes
    have hfits := (hdone rfl).fits allFit_dummyVt 0 v hv
    have halloc := hfits.allocated
    rw [Prod.mk.injEq] at heq
    rw [heq.1, heq.2] at halloc
    exact absurd halloc (by decide)

end LinuxConsole
