/-
The settings of the math repairs.
-/
import CribSheet.Text.Basic

set_option relaxedAutoImplicit false
set_option autoImplicit false

namespace CribSheet

/-- Which repairs are made to the mathematics of a sheet. -/
structure MathOptions where
  /-- Integrals without a differential are given one. -/
  repairDifferentials : Bool := true
  /-- Display mathematics is put on lines of its own. -/
  isolateDisplay : Bool := true
  /-- The variable of the differentials that are added. -/
  variableName : Text := ['x']
deriving Repr, DecidableEq

/-- Some repair is switched on. -/
def MathOptions.isActive (options : MathOptions) : Bool :=
  options.repairDifferentials || options.isolateDisplay

end CribSheet
