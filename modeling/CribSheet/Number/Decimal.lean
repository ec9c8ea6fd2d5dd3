/-
Decimals: digits with a power of ten.

Main definitions:

* `CribSheet.Decimal` — the number `digits * 10 ^ exponent`;
* `CribSheet.Decimal.ratio` — the same as a quotient;
* `CribSheet.Decimal.positional` — its digits with a point and no exponent.
-/
import CribSheet.Text.Number

set_option relaxedAutoImplicit false
set_option autoImplicit false

namespace CribSheet

/-- The number `digits * 10 ^ exponent`. -/
structure Decimal where
  /-- The digits, read as a number. -/
  digits : Nat
  /-- The power of ten. -/
  exponent : Int
deriving Repr, DecidableEq

namespace Decimal

/-- A power of ten. -/
def tenTo (n : Nat) : Nat := Nat.pow 10 n

/-- The decimal as a quotient of two numbers. -/
def ratio (d : Decimal) : Nat × Nat :=
  (d.digits * tenTo d.exponent.toNat, tenTo (-d.exponent).toNat)

/-- The number of places in front of the point; for a number below one, minus the number of zeros behind
the point. -/
def magnitude (d : Decimal) : Int := (Text.ofNat d.digits).length + d.exponent

/-- **The decimal written out**, without an exponent.  Zeros at its end that stand behind the point are
dropped, and so is the point when nothing is left behind it. -/
def positional (d : Decimal) : Text :=
  let ds := Text.ofNat d.digits
  if 0 ≤ d.exponent then ds ++ List.replicate d.exponent.toNat '0'
  else
    let places := (-d.exponent).toNat
    let ds := List.replicate (places + 1 - ds.length) '0' ++ ds
    let fraction := Text.dropEndWhile (· == '0') (ds.drop (ds.length - places))
    ds.take (ds.length - places) ++ if fraction = [] then [] else '.' :: fraction

end Decimal

end CribSheet
