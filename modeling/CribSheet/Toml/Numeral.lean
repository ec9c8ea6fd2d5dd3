/-
Numbers of a TOML document.

An underscore may stand between two digits.  A decimal number has a sign or not, and no zero in front of
its other digits; with a fraction or an exponent it is a float.  Numbers in base 16, 8 and 2 have a
marker instead of a sign.

Main definitions:

* `CribSheet.Toml.readDigits?` — a run of digits, and what follows it;
* `CribSheet.Toml.readNumber?` — an integer or a float, and what follows it.
-/
import CribSheet.Number.Bounds
import CribSheet.Toml.Value

set_option relaxedAutoImplicit false
set_option autoImplicit false

namespace CribSheet.Toml

/-! ### Digits -/

/-- The further digits of a run, without the underscores between them, and what follows. -/
def moreDigits? (isDigit : Char → Bool) : Text → Option (Text × Text)
  | [] => some ([], [])
  | '_' :: d :: t =>
    if isDigit d then (moreDigits? isDigit t).map fun (ds, t) => (d :: ds, t) else none
  | c :: t =>
    if isDigit c then (moreDigits? isDigit t).map fun (ds, t) => (c :: ds, t)
    else if c = '_' then none
    else some ([], c :: t)

/-- A run of digits, without the underscores between them, and what follows. -/
def readDigits? (isDigit : Char → Bool) : Text → Option (Text × Text)
  | c :: t => if isDigit c then (moreDigits? isDigit t).map fun (ds, t) => (c :: ds, t) else none
  | [] => none

/-- The whole part of a decimal number: a run of digits, or a zero alone. -/
def readWhole? : Text → Option (Text × Text)
  | '0' :: t => some (['0'], t)
  | t => readDigits? Text.isDigit t

/-- A sign, or none: whether it is a minus sign, and what follows. -/
def readSign : Text → Bool × Text
  | '-' :: t => (true, t)
  | '+' :: t => (false, t)
  | t => (false, t)

/-! ### Integers -/

/-- The integer with a sign and digits in a base. -/
def integer? (base : Nat) (isNegative : Bool) (digits : Text) : Option Value := do
  let n ← Text.numeral? base digits
  let n : Int := if isNegative then -n else n
  if isInteger n then some (.integer n) else none

/-- An integer in a base other than ten, and what follows. -/
def readBased? (base : Nat) (t : Text) : Option (Value × Text) := do
  let (digits, t) ← readDigits? (fun c => (Text.digit? base c).isSome) t
  return (← integer? base false digits, t)

/-! ### Floats -/

/-- The fraction of a number, which starts with a point, and what follows. -/
def readFraction? : Text → Option (Text × Text)
  | '.' :: t => readDigits? Text.isDigit t
  | t => some ([], t)

/-- The exponent of a number, and what follows. -/
def readExponent? : Text → Option (Int × Text)
  | c :: t =>
    if c = 'e' || c = 'E' then do
      let (isNegative, t) := readSign t
      let (digits, t) ← readDigits? Text.isDigit t
      let n ← Text.natural? digits
      return (if isNegative then -n else n, t)
    else some (0, c :: t)
  | [] => some (0, [])

/-- The float with a sign, digits and an exponent; the positive ones are bounded. -/
def float? (isNegative : Bool) (whole fraction : Text) (exponent : Int) : Option Value := do
  let digits ← Text.natural? (whole ++ fraction)
  let x := Binary64.ofDecimal isNegative ⟨digits, exponent - fraction.length⟩
  if x = .infinite false then none else some (.float x)

/-! ### Numbers -/

/-- The text goes on like a float behind its whole part. -/
def isFloatMark : Char → Bool
  | '.' => true
  | 'e' => true
  | 'E' => true
  | _ => false

/-- A decimal number behind its sign, and what follows. -/
def readDecimal? (isNegative : Bool) (t : Text) : Option (Value × Text) := do
  let (whole, t) ← readWhole? t
  if t.head?.any isFloatMark then
    let (fraction, t) ← readFraction? t
    let (exponent, t) ← readExponent? t
    return (← float? isNegative whole fraction exponent, t)
  else return (← integer? 10 isNegative whole, t)

/-- A number behind its sign, and what follows. -/
def readSigned? (isNegative : Bool) : Text → Option (Value × Text)
  | 'i' :: 'n' :: 'f' :: t => some (.float (.infinite isNegative), t)
  | 'n' :: 'a' :: 'n' :: t => some (.float .nan, t)
  | t => readDecimal? isNegative t

/-- **A number, and what follows it.** -/
def readNumber? : Text → Option (Value × Text)
  | '0' :: 'x' :: t => readBased? 16 t
  | '0' :: 'o' :: t => readBased? 8 t
  | '0' :: 'b' :: t => readBased? 2 t
  | t => readSigned? (readSign t).1 (readSign t).2

end CribSheet.Toml
