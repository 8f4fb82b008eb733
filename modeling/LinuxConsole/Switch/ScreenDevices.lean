import LinuxConsole.Switch.Disallocate

/-!
# The names of the screen devices

`vcs_make_devfs` makes two devices for a tty, `vcsN` and `vcsaN`, whose minor numbers count from
one; `vcs_init` makes the two for the screen that is looked at, with the minor numbers 0 and 128.
`vcs_open` gives the low bits of the minor number to `find_vc` as they are, and `find_vc` counts
from zero.

So a device opens the console after the one that it is named after.  **`vcs_names_iff`** says that
an open gives what the name says exactly when there is nothing to be given, under either number, and
that the device 0 is right while the console of number 0 is in front.
-/

namespace LinuxConsole.Switch

/-- A device with the names that it has in `devfs` and in its class. -/
structure ScreenDevice where
  minor : Nat
  devfs : String
  cls : String
  deriving DecidableEq

/-- `vcs_make_devfs` for the tty of an index. -/
def vcsMakeDevfs (index : Nat) : List ScreenDevice :=
  [⟨index + 1, s!"vcc/{index + 1}", s!"vcs{index + 1}"⟩,
    ⟨index + 129, s!"vcc/a{index + 1}", s!"vcsa{index + 1}"⟩]

/-- The devices that `vcs_init` makes. -/
def vcsInit : List ScreenDevice := [⟨0, "vcc/0", "vcs"⟩, ⟨128, "vcc/a0", "vcsa"⟩]

namespace Kernel

variable {N : Nat} (P : Pools N) (k : Kernel N)

/-- `vcs_open` of the file `f` with what it returns. -/
def tryVcsOpen (f minor : Nat) : VtRet × Kernel N :=
  match findVc P k (minor &&& 127) with
  | none => (.enxio, k)
  | some p => (.ok, { k with vcs := Function.update k.vcs f (some p) })

/-- What an open of the file `f` should do when its device stands for the console `c`, or for none
that is allocated. -/
def openOf (f : Nat) (c : Option Nat) : VtRet × Kernel N :=
  match c with
  | none => (.enxio, k)
  | some p => (.ok, { k with vcs := Function.update k.vcs f (some p) })

/-- The open of the device gives the console `c`. -/
def Opens (f minor : Nat) (c : Option Nat) : Prop := k.tryVcsOpen P f minor = k.openOf f c

/-- The foreground console of the administrative VT, the first that was mapped. -/
def adminFg {N : Nat} (k : Kernel (N + 1)) : Nat := (k.vt ⟨0, Nat.succ_pos N⟩).fgConsole

variable {P k}

theorem openOf_inj (f : Nat) {c d : Option Nat} : k.openOf f c = k.openOf f d ↔ c = d := by
  constructor
  · intro h
    cases c with
    | none =>
      cases d with
      | none => rfl
      | some q => exact absurd (congrArg Prod.fst h) (by simp [openOf])
    | some p =>
      cases d with
      | none => exact absurd (congrArg Prod.fst h) (by simp [openOf])
      | some q =>
        have hvcs := congrFun (congrArg Kernel.vcs (congrArg Prod.snd h)) f
        simpa [openOf] using hvcs
  · intro h
    rw [h]

/-- **An open gives the console of the number that the minor holds**, whatever it stands for. -/
theorem opens_iff (f minor : Nat) (c : Option Nat) :
    k.Opens P f minor c ↔ k.findVc P (minor &&& 127) = c :=
  openOf_inj f (c := k.findVc P (minor &&& 127))

theorem findVc_ne (h : Consistent P k) {n m : Nat} (hnm : n ≠ m)
    (heq : k.findVc P n = k.findVc P m) : k.findVc P m = none ∧ k.findVc P n = none := by
  cases hm : k.findVc P m with
  | none => exact ⟨rfl, heq.trans hm⟩
  | some p =>
    have hn := (h.found (heq.trans hm)).2.1
    have hm := (h.found hm).2.1
    exact absurd (hn.symm.trans hm) hnm

theorem minor_number {index : Nat} (hindex : index < maxNrConsoles) {dev : ScreenDevice}
    (hdev : dev ∈ vcsMakeDevfs index) : dev.minor &&& 127 = index + 1 := by
  rw [maxNrConsoles] at hindex
  have hand : ∀ n : Nat, n &&& 127 = n % 128 := fun n => Nat.and_two_pow_sub_one_eq_mod n 7
  rw [vcsMakeDevfs, List.mem_cons, List.mem_singleton] at hdev
  rw [hand]
  rcases hdev with rfl | rfl
  · dsimp only
    omega
  · dsimp only
    omega

end Kernel

open Kernel

/-- **A screen device opens the console of its name exactly if there is none to open.**  For every
layout of the pools and every state of the consoles, opening a device that `vcs_make_devfs` made for
a tty gives the console of that tty, or `-ENXIO` when the tty has none, if and only if neither the
number of the tty nor the next one is allocated; and opening a device that `vcs_init` made gives the
foreground console if and only if that is the console of number 0. -/
theorem vcs_names_iff {N : Nat} (P : Pools (N + 1)) (k : Kernel (N + 1)) (h : Consistent P k)
    (f : Nat) :
    (∀ index < maxNrConsoles, ∀ dev ∈ vcsMakeDevfs index,
      k.Opens P f dev.minor (k.findVc P index) ↔
        k.findVc P index = none ∧ k.findVc P (index + 1) = none) ∧
      ∀ dev ∈ vcsInit, k.Opens P f dev.minor (some k.adminFg) ↔
        k.findVc P 0 = some k.adminFg := by
  constructor
  · intro index hindex dev hdev
    rw [opens_iff, minor_number hindex hdev]
    constructor
    · exact findVc_ne h (Nat.succ_ne_self index)
    · rintro ⟨hnone, hnext⟩
      rw [hnone, hnext]
  · intro dev hdev
    rw [opens_iff]
    rw [vcsInit, List.mem_cons, List.mem_singleton] at hdev
    rcases hdev with rfl | rfl
    · rfl
    · rfl

/-- The devices of the machine with two consoles. -/
theorem vcs_names_activated :
    (∀ index < maxNrConsoles, ∀ dev ∈ vcsMakeDevfs index,
      Kernel.activated.Opens onePool 0 dev.minor (Kernel.activated.findVc onePool index) ↔
        Kernel.activated.findVc onePool index = none ∧
          Kernel.activated.findVc onePool (index + 1) = none) ∧
      ∀ dev ∈ vcsInit,
        Kernel.activated.Opens onePool 0 dev.minor (some Kernel.activated.adminFg) ↔
          Kernel.activated.findVc onePool 0 = some Kernel.activated.adminFg :=
  vcs_names_iff onePool Kernel.activated activated_consistent 0

/-- **The screen of another tty.**  The ttys of the indices 1 and 2 have been opened.  The device
`vcs2`, made for the tty of index 1, opens console 2, which is that of `/dev/tty3`; and `vcs3` cannot
be opened although its tty has a console. -/
theorem vcs_next_console :
    let k := Lib.run (Kernel.step onePool) (Kernel.boot onePool) [.ttyOpen 1 true, .ttyOpen 2 true]
    (vcsMakeDevfs 1).map (fun dev => (dev.cls, dev.minor)) = [("vcs2", 2), ("vcsa2", 130)] ∧
      k.findVc onePool 1 = some 1 ∧ ¬ k.Opens onePool 0 2 (k.findVc onePool 1) ∧
      ((k.tryVcsOpen onePool 0 2).2).vcs 0 = some 2 ∧
      k.findVc onePool 2 = some 2 ∧ (k.tryVcsOpen onePool 0 3).1 = .enxio := by
  have hrun :
      let k := Lib.run (Kernel.step onePool) (Kernel.boot onePool)
        [.ttyOpen 1 true, .ttyOpen 2 true]
      k.findVc onePool 1 = some 1 ∧ k.findVc onePool 2 = some 2 ∧
        ((k.tryVcsOpen onePool 0 2).2).vcs 0 = some 2 ∧
        (k.tryVcsOpen onePool 0 3).1 = .enxio := by
    decide +kernel
  obtain ⟨hone, htwo, hvcs, hret⟩ := hrun
  refine ⟨by decide +kernel, hone, fun hopen => ?_, hvcs, htwo, hret⟩
  have heq : _ = _ := ((opens_iff 0 2 _).mp hopen).trans hone
  exact absurd (htwo.symm.trans heq) (by decide)

end LinuxConsole.Switch
