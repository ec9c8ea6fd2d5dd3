/-
Binary floating-point numbers of 64 bits.

A finite number is a significand of at most 53 bits times a power of two.  A decimal is read as the
nearest such number, the even significand winning a tie.  A number is written with the fewest digits
that read back as the same number.

Main definitions:

* `CribSheet.Binary64` — the numbers;
* `CribSheet.Binary64.ofDecimal` — the nearest number to a decimal;
* `CribSheet.Binary64.shortest` — the shortest decimal that reads back;
* `CribSheet.Binary64.toText` — a number written out;
* `CribSheet.Binary64.toNatural` — the nearest natural number up to a limit.
-/
import CribSheet.Number.Decimal

set_option relaxedAutoImplicit false
set_option autoImplicit false

namespace CribSheet

/-- A binary floating-point number. -/
inductive Binary64
  /-- The number `significand * 2 ^ exponent`, or its negative. -/
  | finite (negative : Bool) (significand : Nat) (exponent : Int)
  /-- An infinity. -/
  | infinite (negative : Bool)
  /-- No number. -/
  | nan
deriving Repr, DecidableEq

namespace Binary64

/-- The number of bits of a significand. -/
def precision : Nat := 53

/-- The least exponent. -/
def leastExponent : Int := -1074

/-- The greatest exponent. -/
def greatestExponent : Int := 971

/-- A power of two. -/
def twoTo (n : Nat) : Nat := Nat.pow 2 n

/-! ### Reading -/

/-- A quotient divided by a power of two. -/
def scale (num den : Nat) (exponent : Int) : Nat × Nat :=
  (num * twoTo (-exponent).toNat, den * twoTo exponent.toNat)

/-- The nearest natural number to a quotient; of two that are as near, the even one. -/
def roundEven (num den : Nat) : Nat :=
  let whole := num / den
  let twice := 2 * (num % den)
  if twice < den ∨ twice = den ∧ whole % 2 = 0 then whole else whole + 1

/-- The exponent at which a positive quotient has a significand of full precision, unless it is too
small for that. -/
def exponentOf (num den : Nat) : Int :=
  let estimate : Int := (Nat.log2 num : Int) - Nat.log2 den - precision
  let scaled := scale num den estimate
  max leastExponent (if twoTo precision ≤ scaled.1 / scaled.2 then estimate + 1 else estimate)

/-- The nearest number to a positive quotient. -/
def ofRatio (negative : Bool) (num den : Nat) : Binary64 :=
  let exponent := exponentOf num den
  let scaled := scale num den exponent
  let significand := roundEven scaled.1 scaled.2
  let carried := significand = twoTo precision
  let exponent := if carried then exponent + 1 else exponent
  if greatestExponent < exponent then .infinite negative
  else .finite negative (if carried then twoTo (precision - 1) else significand) exponent

/-- **The nearest number to a decimal.**  Decimals far out of range are not computed. -/
def ofDecimal (negative : Bool) (d : Decimal) : Binary64 :=
  if d.digits = 0 ∨ d.magnitude < -330 then .finite negative 0 leastExponent
  else if 310 < d.magnitude then .infinite negative
  else ofRatio negative d.ratio.1 d.ratio.2

/-! ### Writing -/

/-- The decimal reads back as `significand * 2 ^ exponent`: it lies between the points halfway to the
neighbours of that number, which belong to it when its significand is even. -/
def readsBack (significand : Nat) (exponent : Int) (d : Decimal) : Bool :=
  let gap := if significand = twoTo (precision - 1) ∧ leastExponent < exponent then 1 else 2
  -- everything is compared in quarters of the last place
  let (num, den) := d.ratio
  let (num, den) := scale (4 * num) den exponent
  let low := (4 * significand - gap) * den
  let high := (4 * significand + 2) * den
  if significand % 2 = 0 then low ≤ num && num ≤ high else low < num && num < high

/-- The least `k` from a start on for which a positive quotient is below `10 ^ k`; `left` bounds the
search. -/
def searchMagnitude (num den : Nat) : (left : Nat) → Int → Int
  | 0, k => k
  | left + 1, k =>
    if num * Decimal.tenTo (-k).toNat < den * Decimal.tenTo k.toNat then k
    else searchMagnitude num den left (k + 1)

/-- The two neighbours of a quotient among the decimals with an exponent. -/
def neighbours (num den : Nat) (exponent : Int) : Decimal × Decimal :=
  let below := num * Decimal.tenTo (-exponent).toNat / (den * Decimal.tenTo exponent.toNat)
  (⟨below, exponent⟩, ⟨below + 1, exponent⟩)

/-- The lower of two neighbouring decimals is nearer to a quotient than the upper one. -/
def lowerIsNearer (num den : Nat) (below : Decimal) : Bool :=
  let (middle, unit) := (⟨2 * below.digits + 1, below.exponent⟩ : Decimal).ratio
  2 * num * unit < middle * den

/-- The shortest decimal that reads back, from a number of digits on; `left` bounds the search. -/
def searchShortest (significand : Nat) (exponent : Int) (num den : Nat) (magnitude : Int) :
    (left digits : Nat) → Decimal
  | 0, digits => (neighbours num den (magnitude - digits)).1
  | left + 1, digits =>
    let (below, above) := neighbours num den (magnitude - digits)
    match readsBack significand exponent below, readsBack significand exponent above with
    | true, true => if lowerIsNearer num den below then below else above
    | true, false => below
    | false, true => above
    | false, false => searchShortest significand exponent num den magnitude left (digits + 1)

/-- **The shortest decimal that reads back** as a positive number; of two, the nearer one, and of two
that are as near, the greater one. -/
def shortest (significand : Nat) (exponent : Int) : Decimal :=
  let (num, den) := scale significand 1 (-exponent)
  let estimate : Int := ((Nat.log2 significand : Int) + exponent) * 30103 / 100000 - 1
  let magnitude := searchMagnitude num den 4 estimate
  searchShortest significand exponent num den magnitude 17 1

/-- **The number written out**, without an exponent. -/
def toText : Binary64 → Text
  | finite negative significand exponent =>
    (if negative then ['-'] else []) ++
      if significand = 0 then ['0'] else (shortest significand exponent).positional
  | infinite negative => if negative then ['-', 'i', 'n', 'f'] else ['i', 'n', 'f']
  | nan => ['N', 'a', 'N']

/-! ### Other values -/

/-- The number is zero. -/
def isZero : Binary64 → Bool
  | finite _ significand _ => significand == 0
  | _ => false

/-- The nearest natural number up to a limit, halves rounded up; everything below zero becomes zero. -/
def toNatural (limit : Nat) : Binary64 → Nat
  | finite false significand exponent =>
    let (num, den) := scale (2 * significand) 1 (-exponent)
    min limit ((num + den) / (2 * den))
  | infinite false => limit
  | _ => 0

end Binary64

end CribSheet
