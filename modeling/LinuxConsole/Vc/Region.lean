import LinuxConsole.Vc.Grid

/-!
# Redrawing a region

The two loops of `do_update_region` as they are written: the outer one goes on with every row, the
inner one with every cell, and both count the cells that are left.  `regionLoop` is given fuel for
the outer loop.

**`region_runs`**: for a region inside the screen the loops end, and the calls of `con_putcs` that
they make cover its cells once and in order, each with cells of one attribute byte in one row.  And
the calls are those that a `Grid` is redrawn with (`region_updateRuns`).
-/

namespace LinuxConsole

/-- A call `con_putcs(vc, q, count, y, x)`. -/
structure PutcsCall where
  q : Nat
  count : Nat
  y : Nat
  x : Nat
  deriving DecidableEq

/-- The local variables of `do_update_region` in a row, and the calls made so far. -/
structure RegionVars where
  p : Nat
  q : Nat
  xx : Nat
  startx : Nat
  attrib : Cell
  calls : List PutcsCall

namespace RegionVars

/-- The calls after `if (p > q) sw->con_putcs(vc, q, p-q, yy, startx)`. -/
def put (r : RegionVars) (yy : Nat) : List PutcsCall :=
  if r.p > r.q then r.calls ++ [⟨r.q, (r.p - r.q) / 2, yy, r.startx⟩] else r.calls

/-- One round of the inner loop. -/
def next (mem : Nat → Cell) (yy : Nat) (r : RegionVars) : RegionVars :=
  let r :=
    if r.attrib ≠ mem r.p &&& 0xff00#16 then
      { r with calls := r.put yy, startx := r.xx, q := r.p, attrib := mem r.p &&& 0xff00#16 }
    else r
  { r with p := r.p + 2, xx := r.xx + 1 }

end RegionVars

/-- The inner loop, with the cells that are left. -/
def rowLoop (mem : Nat → Cell) (cols yy : Nat) : Nat → RegionVars → Nat × RegionVars
  | 0, r => (0, r)
  | count + 1, r =>
    if r.xx < cols then rowLoop mem cols yy count (r.next mem yy) else (count + 1, r)

/-- The variables at the beginning of a row. -/
def rowBegin (mem : Nat → Cell) (p xx : Nat) (calls : List PutcsCall) : RegionVars :=
  ⟨p, p, xx, xx, mem p &&& 0xff00#16, calls⟩

/-- The outer loop; `none` when the fuel runs out. -/
def regionLoop (mem : Nat → Cell) (cols : Nat) :
    Nat → Nat → Nat → Nat → Nat → List PutcsCall → Option (List PutcsCall)
  | 0, _, _, _, _, _ => none
  | fuel + 1, p, xx, yy, count, calls =>
    let row := rowLoop mem cols yy count (rowBegin mem p xx calls)
    if row.1 = 0 then some (row.2.put yy)
    else regionLoop mem cols fuel row.2.p 0 (yy + 1) row.1 (row.2.put yy)

/-- `do_update_region` without the `con_getxy` hook: the calls of `con_putcs`. -/
def regionCalls (s : Con) (fuel start count : Nat) : Option (List PutcsCall) :=
  let offset := (start - s.geo.origin) / 2
  regionLoop s.mem s.geo.cols fuel start (offset % s.geo.cols) (offset / s.geo.cols) count []

/-! ### What the calls should be -/

/-- The addresses of `n` cells. -/
def cellAddrs (a n : Nat) : List Nat := (List.range n).map fun i => a + 2 * i

namespace PutcsCall

/-- The addresses of the cells of a call. -/
def addrs (c : PutcsCall) : List Nat := cellAddrs c.q c.count

/-- The run of a call. -/
def run (mem : Nat → Cell) (c : PutcsCall) : PutRun := ⟨c.addrs.map mem, c.y, c.x⟩

/-- The call is for cells within one row, at the row and column of its first cell, and of one
attribute byte. -/
structure Sound (origin cols : Nat) (mem : Nat → Cell) (c : PutcsCall) : Prop where
  pos : 0 < c.count
  within : c.x + c.count ≤ cols
  place : c.q = origin + 2 * (c.y * cols + c.x)
  attr : ∀ i < c.count, mem (c.q + 2 * i) &&& 0xff00#16 = mem c.q &&& 0xff00#16

end PutcsCall

/-- The calls cover the cells from `start` to `stop` once and in order, and each of them is sound. -/
structure CallsCover (origin cols : Nat) (mem : Nat → Cell) (start stop : Nat)
    (calls : List PutcsCall) : Prop where
  covered : ∃ n, stop = start + 2 * n ∧ calls.flatMap PutcsCall.addrs = cellAddrs start n
  sound : ∀ c ∈ calls, c.Sound origin cols mem

/-- What holds between the rounds of the inner loop in row `yy`: the calls cover the region up to
`q`, and the cells from `q` to `p` are in the row and of the attribute `attrib`. -/
structure RowSoFar (origin cols : Nat) (mem : Nat → Cell) (start yy : Nat) (r : RegionVars) : Prop where
  calls : CallsCover origin cols mem start r.q r.calls
  begun : r.startx ≤ r.xx
  within : r.xx ≤ cols
  place : r.q = origin + 2 * (yy * cols + r.startx)
  ahead : r.p = r.q + 2 * (r.xx - r.startx)
  head : r.attrib = mem r.q &&& 0xff00#16
  attr : ∀ i < r.xx - r.startx, mem (r.q + 2 * i) &&& 0xff00#16 = r.attrib

variable {origin cols start yy : Nat} {mem : Nat → Cell} {r : RegionVars}

/-! ### Addresses -/

theorem cellAddrs_add (a n m : Nat) :
    cellAddrs a (n + m) = cellAddrs a n ++ cellAddrs (a + 2 * n) m := by
  rw [cellAddrs, cellAddrs, cellAddrs, List.range_add, List.map_append, List.map_map]
  congr 1
  refine List.map_congr_left fun i _ => ?_
  rw [Function.comp_apply]
  omega

theorem mem_cellAddrs {a n b : Nat} : b ∈ cellAddrs a n ↔ ∃ i < n, b = a + 2 * i := by
  rw [cellAddrs, List.mem_map]
  constructor
  · rintro ⟨i, hi, rfl⟩
    exact ⟨i, List.mem_range.mp hi, rfl⟩
  · rintro ⟨i, hi, rfl⟩
    exact ⟨i, List.mem_range.mpr hi, rfl⟩

/-! ### One row -/

/-- **The call for the run so far** covers the region up to `p`. -/
theorem RowSoFar.put (h : RowSoFar origin cols mem start yy r) :
    CallsCover origin cols mem start r.p (r.put yy) := by
  obtain ⟨n, hq, hflat⟩ := h.calls.covered
  have hlen : (r.p - r.q) / 2 = r.xx - r.startx := by
    rw [h.ahead]
    omega
  rw [RegionVars.put]
  split
  · next hmore =>
    have hahead := h.ahead
    have hwithin := h.within
    refine ⟨⟨n + (r.xx - r.startx), by omega, ?_⟩, ?_⟩
    · rw [List.flatMap_append, hflat, List.flatMap_singleton, PutcsCall.addrs, hlen, cellAddrs_add,
        ← hq]
    · intro c hc
      rcases List.mem_append.mp hc with hc | hc
      · exact h.calls.sound c hc
      · obtain rfl := List.mem_singleton.mp hc
        refine ⟨?_, ?_, h.place, ?_⟩
        · dsimp only
          omega
        · dsimp only
          omega
        · intro i hi
          dsimp only at hi ⊢
          rw [← h.head]
          exact h.attr i (hlen ▸ hi)
  · next hnone =>
    have hahead := h.ahead
    have hempty : r.p = r.q := by omega
    rw [hempty]
    exact h.calls

/-- **A round of the inner loop.** -/
theorem RowSoFar.next (h : RowSoFar origin cols mem start yy r) (hroom : r.xx < cols) :
    RowSoFar origin cols mem start yy (r.next mem yy) := by
  have hahead := h.ahead
  have hbegun := h.begun
  rw [RegionVars.next]
  split
  · -- the run is put and another one begins
    have hp : r.p = origin + 2 * (yy * cols + r.xx) := by
      rw [hahead, h.place]
      omega
    refine ⟨h.put, ?_, hroom, hp, ?_, rfl, ?_⟩
    · dsimp only
      omega
    · dsimp only
      omega
    · intro i hi
      dsimp only at hi ⊢
      obtain rfl : i = 0 := by omega
      rfl
  · next hsame =>
    rw [ne_eq, not_not] at hsame
    refine ⟨h.calls, ?_, hroom, h.place, ?_, h.head, ?_⟩
    · dsimp only
      omega
    · dsimp only
      omega
    · intro i hi
      dsimp only at hi ⊢
      by_cases hlast : i < r.xx - r.startx
      · exact h.attr i hlast
      · have hi' : i = r.xx - r.startx := by omega
        rw [hi', ← hahead]
        exact hsame.symm

theorem next_p (mem : Nat → Cell) (yy : Nat) (r : RegionVars) : (r.next mem yy).p = r.p + 2 := by
  rw [RegionVars.next]
  split <;> rfl

/-- **The inner loop** ends with the row or with the region. -/
theorem rowLoop_spec (count : Nat) (h : RowSoFar origin cols mem start yy r) :
    RowSoFar origin cols mem start yy (rowLoop mem cols yy count r).2 ∧
      (rowLoop mem cols yy count r).2.p + 2 * (rowLoop mem cols yy count r).1 = r.p + 2 * count ∧
      (rowLoop mem cols yy count r).1 ≤ count ∧
      ((rowLoop mem cols yy count r).1 = 0 ∨ (rowLoop mem cols yy count r).2.xx = cols) := by
  induction count generalizing r with
  | zero => exact ⟨h, rfl, Nat.le_refl _, Or.inl rfl⟩
  | succ count ih =>
    rw [rowLoop]
    split
    · next hroom =>
      obtain ⟨hin, hp, hle, hend⟩ := ih (h.next hroom)
      rw [next_p] at hp
      exact ⟨hin, by omega, by omega, hend⟩
    · next hfull =>
      exact ⟨h, rfl, Nat.le_refl _, Or.inr (Nat.le_antisymm h.within (Nat.le_of_not_lt hfull))⟩

theorem rowLoop_lt (count : Nat) (h : RowSoFar origin cols mem start yy r) (hroom : r.xx < cols)
    (hcount : 0 < count) : (rowLoop mem cols yy count r).1 < count := by
  obtain ⟨count, rfl⟩ := Nat.exists_eq_succ_of_ne_zero (Nat.ne_of_gt hcount)
  rw [rowLoop, if_pos hroom]
  exact Nat.lt_succ_of_le (rowLoop_spec count (h.next hroom)).2.2.1

theorem rowSoFar_rowBegin {p xx : Nat} {calls : List PutcsCall} (hxx : xx < cols)
    (hp : p = origin + 2 * (yy * cols + xx)) (hcalls : CallsCover origin cols mem start p calls) :
    RowSoFar origin cols mem start yy (rowBegin mem p xx calls) where
  calls := hcalls
  begun := Nat.le_refl _
  within := Nat.le_of_lt hxx
  place := hp
  ahead := by rw [rowBegin, Nat.sub_self, Nat.mul_zero, Nat.add_zero]
  head := rfl
  attr i hi := absurd hi (by rw [rowBegin, Nat.sub_self]; exact Nat.not_lt_zero i)

theorem RowSoFar.full (h : RowSoFar origin cols mem start yy r) (hfull : r.xx = cols) :
    r.p = origin + 2 * ((yy + 1) * cols + 0) := by
  have hbegun := h.begun
  have hrow := Nat.add_one_mul yy cols
  rw [h.ahead, h.place]
  omega

/-! ### All rows -/

/-- **The outer loop ends and covers the region.**  The measure is the number of cells left. -/
theorem regionLoop_spec (count : Nat) :
    ∀ (p xx yy : Nat) (calls : List PutcsCall), xx < cols →
      p = origin + 2 * (yy * cols + xx) → CallsCover origin cols mem start p calls →
      ∃ calls', (∀ fuel, count < fuel → regionLoop mem cols fuel p xx yy count calls = some calls') ∧
        CallsCover origin cols mem start (p + 2 * count) calls' := by
  induction count using Nat.strongRecOn with
  | ind count ih =>
    intro p xx yy calls hxx hp hcalls
    have hbegin := rowSoFar_rowBegin hxx hp hcalls
    obtain ⟨hin, hleft, -, hend⟩ := rowLoop_spec count hbegin
    have hlt := rowLoop_lt count hbegin hxx
    have hloop : ∀ fuel, regionLoop mem cols (fuel + 1) p xx yy count calls =
        if (rowLoop mem cols yy count (rowBegin mem p xx calls)).1 = 0 then
          some ((rowLoop mem cols yy count (rowBegin mem p xx calls)).2.put yy)
        else regionLoop mem cols fuel (rowLoop mem cols yy count (rowBegin mem p xx calls)).2.p 0
          (yy + 1) (rowLoop mem cols yy count (rowBegin mem p xx calls)).1
          ((rowLoop mem cols yy count (rowBegin mem p xx calls)).2.put yy) := fun _ => rfl
    generalize rowLoop mem cols yy count (rowBegin mem p xx calls) = row at hin hleft hend hlt hloop
    change row.2.p + 2 * row.1 = p + 2 * count at hleft
    by_cases hzero : row.1 = 0
    · refine ⟨row.2.put yy, fun fuel hfuel => ?_, ?_⟩
      · obtain ⟨fuel, rfl⟩ := Nat.exists_eq_succ_of_ne_zero (Nat.ne_zero_of_lt hfuel)
        rw [hloop, if_pos hzero]
      · rw [← hleft, hzero, Nat.mul_zero, Nat.add_zero]
        exact hin.put
    · have hfull := hin.full (hend.resolve_left hzero)
      have hfewer : row.1 < count := by
        refine hlt ?_
        by_contra hnone
        have hnone := Nat.eq_zero_of_not_pos hnone
        rw [hnone, hp] at hleft
        have hbegun := hin.begun
        rw [hin.ahead, hin.place, hend.resolve_left hzero] at hleft
        omega
      obtain ⟨calls', hrest, hcover⟩ := ih row.1 hfewer row.2.p 0 (yy + 1) (row.2.put yy)
        (Nat.zero_lt_of_lt hxx) hfull hin.put
      rw [hleft] at hcover
      refine ⟨calls', fun fuel hfuel => ?_, hcover⟩
      obtain ⟨fuel, rfl⟩ := Nat.exists_eq_succ_of_ne_zero (Nat.ne_zero_of_lt hfuel)
      rw [hloop, if_neg hzero]
      exact hrest fuel (Nat.lt_of_lt_of_le hfewer (Nat.le_of_lt_succ hfuel))

/-- **Redrawing a region.**  For every console, every start inside the screen and every count that
does not go past its end the loops end, and the calls of `con_putcs` cover each of the cells once
and in order, each within one row, at the row and column of its first cell, and of one attribute
byte. -/
theorem region_runs (s : Con) (k count : Nat) (hk : k < s.geo.rows * s.geo.cols)
    (hend : k + count ≤ s.geo.rows * s.geo.cols) :
    ∃ calls, (∀ fuel, count < fuel →
        regionCalls s fuel (s.geo.origin + 2 * k) count = some calls) ∧
      calls.flatMap PutcsCall.addrs = cellAddrs (s.geo.origin + 2 * k) count ∧
      ∀ c ∈ calls, c.Sound s.geo.origin s.geo.cols s.mem ∧ c.y < s.geo.rows := by
  have hcols : 0 < s.geo.cols := by
    by_contra hnone
    rw [Nat.eq_zero_of_not_pos hnone, Nat.mul_zero] at hk
    exact Nat.not_lt_zero k hk
  have hoffset : (s.geo.origin + 2 * k - s.geo.origin) / 2 = k := by omega
  have hplace := Nat.div_add_mod' k s.geo.cols
  obtain ⟨calls, hloop, hcover⟩ := @regionLoop_spec s.geo.origin s.geo.cols
    (s.geo.origin + 2 * k) s.mem count (s.geo.origin + 2 * k) (k % s.geo.cols)
    (k / s.geo.cols) [] (Nat.mod_lt k hcols) (by rw [hplace])
    ⟨⟨0, rfl, rfl⟩, fun c hc => absurd hc List.not_mem_nil⟩
  obtain ⟨n, hstop, hflat⟩ := hcover.covered
  obtain rfl : count = n := by omega
  refine ⟨calls, ?_, hflat, fun c hc => ⟨hcover.sound c hc, ?_⟩⟩
  · intro fuel hfuel
    rw [regionCalls, hoffset]
    exact hloop fuel hfuel
  · -- the first cell of the call is one of the region, and so on the screen
    have hsound := hcover.sound c hc
    have hfirst : c.q ∈ calls.flatMap PutcsCall.addrs :=
      List.mem_flatMap.mpr ⟨c, hc, mem_cellAddrs.mpr ⟨0, hsound.pos, rfl⟩⟩
    rw [hflat] at hfirst
    obtain ⟨i, hi, hq⟩ := mem_cellAddrs.mp hfirst
    have hcell : c.y * s.geo.cols + c.x < s.geo.rows * s.geo.cols := by
      have hq' := hsound.place
      omega
    by_contra hlow
    have hrow := Nat.mul_le_mul_right s.geo.cols (Nat.le_of_not_lt hlow)
    omega

/-- The end of the first row and the beginning of the second on the console at boot. -/
theorem region_runs_boot :
    ∃ calls, (∀ fuel, 5 < fuel →
        regionCalls bootCon fuel (bootCon.geo.origin + 2 * 78) 5 = some calls) ∧
      calls.flatMap PutcsCall.addrs = cellAddrs (bootCon.geo.origin + 2 * 78) 5 ∧
      ∀ c ∈ calls, c.Sound bootCon.geo.origin bootCon.geo.cols bootCon.mem ∧
        c.y < bootCon.geo.rows :=
  region_runs bootCon 78 5 (by decide) (by decide)

-- the attribute changes after two cells, and the row ends after three
example : regionLoop (fun a => if a < 4 then 0x0741#16 else 0x1741#16) 3 6 0 0 0 5 [] =
    some [⟨0, 2, 0, 0⟩, ⟨4, 1, 0, 2⟩, ⟨6, 2, 1, 0⟩] := by decide

/-! ### The runs of the display -/

theorem addrs_map_succ (mem : Nat → Cell) (a n : Nat) :
    (cellAddrs a (n + 1)).map mem = mem a :: (cellAddrs (a + 2) n).map mem := by
  rw [Nat.add_comm, cellAddrs_add]
  rfl

theorem addrs_map_append (mem : Nat → Cell) (a n : Nat) :
    (cellAddrs a (n + 1)).map mem = (cellAddrs a n).map mem ++ [mem (a + 2 * n)] := by
  rw [cellAddrs_add, List.map_append]
  rfl

/-- The runs of the calls so far and of the `count` cells that are left. -/
def RegionVars.runs (mem : Nat → Cell) (cols yy : Nat) (r : RegionVars) (count : Nat) :
    List PutRun :=
  r.calls.map (PutcsCall.run mem) ++ updateRuns cols
    ((cellAddrs r.q (r.xx - r.startx)).map mem) yy r.startx ((cellAddrs r.p count).map mem)

theorem length_addrs_map (mem : Nat → Cell) (a n : Nat) :
    ((cellAddrs a n).map mem).length = n := by
  rw [List.length_map, cellAddrs, List.length_map, List.length_range]

theorem RowSoFar.put_runs (h : RowSoFar origin cols mem start yy r) :
    (r.put yy).map (PutcsCall.run mem) = r.calls.map (PutcsCall.run mem) ++
      putRun ((cellAddrs r.q (r.xx - r.startx)).map mem) yy r.startx := by
  have hahead := h.ahead
  rw [RegionVars.put]
  cases hn : r.xx - r.startx with
  | zero =>
    rw [hn] at hahead
    rw [if_neg (by omega)]
    exact (List.append_nil _).symm
  | succ n =>
    rw [hn] at hahead
    have hlen : (r.p - r.q) / 2 = n + 1 := by omega
    rw [if_pos (by omega), List.map_append, List.map_singleton, PutcsCall.run, PutcsCall.addrs,
      hlen, addrs_map_succ]
    rfl

/-- **A round of the inner loop** leaves the runs as they are. -/
theorem RowSoFar.next_runs (h : RowSoFar origin cols mem start yy r) (hroom : r.xx < cols)
    (count : Nat) :
    (r.next mem yy).runs mem cols yy count = r.runs mem cols yy (count + 1) := by
  have hahead := h.ahead
  have hbegun := h.begun
  have hlen : r.startx + (r.xx - r.startx) = r.xx := Nat.add_sub_cancel' hbegun
  have hruns : r.runs mem cols yy (count + 1) = r.calls.map (PutcsCall.run mem) ++
      updateRuns cols ((cellAddrs r.q (r.xx - r.startx)).map mem) yy r.startx
        (mem r.p :: (cellAddrs (r.p + 2) count).map mem) := by
    rw [RegionVars.runs, addrs_map_succ]
  rw [hruns, updateRuns, length_addrs_map, hlen, if_pos hroom]
  have hhead : ((cellAddrs r.q (r.xx - r.startx)).map mem).headD (mem r.p) &&& 0xff00#16 =
      r.attrib := by
    cases hn : r.xx - r.startx with
    | zero =>
      rw [hn] at hahead
      rw [h.head, hahead]
      rfl
    | succ n =>
      rw [addrs_map_succ, h.head]
      rfl
  rw [hhead, RegionVars.next, RegionVars.runs]
  by_cases hattr : r.attrib = mem r.p &&& 0xff00#16
  · have hone : r.xx + 1 - r.startx = r.xx - r.startx + 1 := by omega
    rw [if_neg (not_not.mpr hattr), if_pos hattr]
    dsimp only
    rw [hone, addrs_map_append, ← hahead]
  · have hone : r.xx + 1 - r.xx = 0 + 1 := by omega
    rw [if_pos hattr, if_neg hattr]
    dsimp only
    rw [h.put_runs, hone, addrs_map_succ, List.append_assoc]
    rfl

/-- **The inner loop** leaves the runs as they are. -/
theorem rowLoop_runs (count : Nat) (h : RowSoFar origin cols mem start yy r) :
    (rowLoop mem cols yy count r).2.runs mem cols yy (rowLoop mem cols yy count r).1 =
      r.runs mem cols yy count := by
  induction count generalizing r with
  | zero => rfl
  | succ count ih =>
    rw [rowLoop]
    split
    · next hroom => rw [ih (h.next hroom), h.next_runs hroom]
    · rfl

theorem updateRuns_begin (hcols : 0 < cols) (y : Nat) (c : Cell) (cs : List Cell) :
    updateRuns cols [] y 0 (c :: cs) = updateRuns cols [c] y 0 cs := by
  rw [updateRuns, List.length_nil, Nat.add_zero, if_pos hcols, if_pos]
  · rfl
  · rfl

/-- **The calls of the outer loop** are the runs of the cells that are left. -/
theorem regionLoop_runs (fuel : Nat) :
    ∀ (count p xx yy : Nat) (calls calls' : List PutcsCall), xx < cols →
      p = origin + 2 * (yy * cols + xx) → CallsCover origin cols mem start p calls →
      regionLoop mem cols fuel p xx yy count calls = some calls' →
      calls'.map (PutcsCall.run mem) = calls.map (PutcsCall.run mem) ++
        updateRuns cols [] yy xx ((cellAddrs p count).map mem) := by
  induction fuel with
  | zero =>
    intro count p xx yy calls calls' _ _ _ h
    cases h
  | succ fuel ih =>
    intro count p xx yy calls calls' hxx hp hcalls h
    have hbegin := rowSoFar_rowBegin hxx hp hcalls
    obtain ⟨hin, -, -, hend⟩ := rowLoop_spec count hbegin
    have hruns := rowLoop_runs count hbegin
    have hempty : (rowBegin mem p xx calls).runs mem cols yy count =
        calls.map (PutcsCall.run mem) ++
          updateRuns cols [] yy xx ((cellAddrs p count).map mem) := by
      rw [RegionVars.runs, rowBegin, Nat.sub_self]
      rfl
    rw [← hempty, ← hruns]
    rw [regionLoop] at h
    generalize rowLoop mem cols yy count (rowBegin mem p xx calls) = row at hin hend h
    rw [RegionVars.runs]
    split at h
    · next hzero =>
      obtain rfl := Option.some.inj h
      rw [hin.put_runs, hzero]
      rfl
    · next hmore =>
      have hxx' := hend.resolve_left hmore
      have hrest := ih row.1 row.2.p 0 (yy + 1) (row.2.put yy) calls' (Nat.zero_lt_of_lt hxx)
        (hin.full hxx') hin.put h
      obtain ⟨n, hn⟩ := Nat.exists_eq_succ_of_ne_zero hmore
      have hlen : row.2.startx + (row.2.xx - row.2.startx) = cols := by
        rw [Nat.add_sub_cancel' hin.begun, hxx']
      rw [hrest, hin.put_runs, hn, Nat.succ_eq_add_one, addrs_map_succ,
        updateRuns_begin (Nat.zero_lt_of_lt hxx), updateRuns, length_addrs_map, hlen,
        if_neg (Nat.lt_irrefl _), List.append_assoc]

/-- **The calls are what a grid is redrawn with.** -/
theorem region_updateRuns (s : Con) (k count fuel : Nat) (hcols : 0 < s.geo.cols)
    {calls : List PutcsCall}
    (h : regionCalls s fuel (s.geo.origin + 2 * k) count = some calls) (g : Grid) :
    g.draw s.geo (.updateRegion (s.geo.origin + 2 * k) (s.cells (s.geo.origin + 2 * k) count)) =
      g.putRuns (calls.map (PutcsCall.run s.mem)) := by
  have hoffset : (s.geo.origin + 2 * k - s.geo.origin) / 2 = k := by omega
  have hcells : s.cells (s.geo.origin + 2 * k) count =
      (cellAddrs (s.geo.origin + 2 * k) count).map s.mem := by
    rw [Con.cells, cellAddrs, List.map_map]
    rfl
  rw [regionCalls, hoffset] at h
  have hruns := @regionLoop_runs s.geo.origin s.geo.cols (s.geo.origin + 2 * k) s.mem fuel
    count (s.geo.origin + 2 * k) (k % s.geo.cols) (k / s.geo.cols) [] calls (Nat.mod_lt k hcols)
    (by rw [Nat.div_add_mod' k s.geo.cols])
    ⟨⟨0, rfl, rfl⟩, fun c hc => absurd hc List.not_mem_nil⟩ h
  rw [Grid.draw, hoffset, hcells, hruns]
  rfl

end LinuxConsole
