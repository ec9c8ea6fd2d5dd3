/-
How large numbers may be.

Main definitions:

* `CribSheet.isInteger` — integers of 64 bits with a sign;
* `CribSheet.greatestNatural`, `CribSheet.greatestCount` — the greatest numbers of 64 and of 32 bits.
-/
set_option relaxedAutoImplicit false
set_option autoImplicit false

namespace CribSheet

/-- The greatest integer. -/
def greatestInteger : Int := 0x7FFFFFFFFFFFFFFF

/-- The least integer. -/
def leastInteger : Int := -0x8000000000000000

/-- The number is an integer of 64 bits. -/
def isInteger (n : Int) : Bool := leastInteger ≤ n && n ≤ greatestInteger

/-- The greatest natural number. -/
def greatestNatural : Nat := 0xFFFFFFFFFFFFFFFF

/-- The greatest count. -/
def greatestCount : Nat := 0xFFFFFFFF

end CribSheet
