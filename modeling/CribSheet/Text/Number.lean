/-
Numbers as text.

Main definitions:

* `CribSheet.Text.ofNat` — a number in decimal digits;
* `CribSheet.Text.natural?` — the number that decimal digits write;
* `CribSheet.Text.unsigned?` — the same with a sign in front and a limit.
-/
import CribSheet.Text.Basic

set_option relaxedAutoImplicit false
set_option autoImplicit false

namespace CribSheet.Text

/-- A number in decimal digits. -/
def ofNat (n : Nat) : Text := Nat.toDigits 10 n

/-- The value of a digit in a base up to 36. -/
def digit? (base : Nat) (c : Char) : Option Nat :=
  let value :=
    if isDigit c then c.toNat - '0'.toNat
    else if isLetter c then c.toLower.toNat - 'a'.toNat + 10
    else base
  if value < base then some value else none

/-- The number that digits in a base continue. -/
def continueNumber? (base : Nat) : (value : Nat) → Text → Option Nat
  | value, [] => some value
  | value, c :: t => (digit? base c).bind fun d => continueNumber? base (value * base + d) t

/-- The number that the text writes in a base: digits only, and at least one. -/
def numeral? (base : Nat) (t : Text) : Option Nat :=
  match t with
  | [] => none
  | t => continueNumber? base 0 t

/-- The number that the text writes in decimal digits. -/
def natural? (t : Text) : Option Nat := numeral? 10 t

/-- The number that the text writes in decimal digits, with a plus sign in front or not, when it is at
most `limit`. -/
def unsigned? (limit : Nat) (t : Text) : Option Nat :=
  let digits :=
    match t with
    | '+' :: t => t
    | t => t
  (natural? digits).filter (· ≤ limit)

end CribSheet.Text
