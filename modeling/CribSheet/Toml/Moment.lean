/-
Dates and times of a TOML document.

A moment is a date, a time, or a date with a time and perhaps an offset.  It is kept as text in its
standard form: a `T` in front of the time, a `Z` for the offset of none, and at most nine digits of a
second, without zeros at their end.

Main definitions:

* `CribSheet.Toml.readDate?`, `CribSheet.Toml.readTime?`, `CribSheet.Toml.readOffset?` — the parts;
* `CribSheet.Toml.readMoment?` — a moment, and what follows it.
-/
import CribSheet.Toml.Value

set_option relaxedAutoImplicit false
set_option autoImplicit false

namespace CribSheet.Toml

/-! ### Parts -/

/-- A number of so many digits between two bounds, as it is written, and what follows it. -/
def readField? (width low high : Nat) (t : Text) : Option (Text × Text) := do
  let n ← Text.natural? (t.take width)
  if width ≤ t.length && low ≤ n && n ≤ high then some (t.take width, t.drop width) else none

/-- What follows a character. -/
def readChar? (c : Char) (t : Text) : Option Text := Text.after? [c] t

/-- The year has a 29th of February. -/
def isLeapYear (year : Nat) : Bool := year % 4 == 0 && (year % 100 != 0 || year % 400 == 0)

/-- The number of days of a month. -/
def daysOf (year month : Nat) : Nat :=
  if month = 2 then if isLeapYear year then 29 else 28
  else if [4, 6, 9, 11].contains month then 30
  else 31

/-- A date, and what follows it. -/
def readDate? (t : Text) : Option (Text × Text) := do
  let (year, t) ← readField? 4 0 9999 t
  let t ← readChar? '-' t
  let (month, t) ← readField? 2 1 12 t
  let t ← readChar? '-' t
  let (day, t) ← readField? 2 1 (daysOf (← Text.natural? year) (← Text.natural? month)) t
  some (year ++ '-' :: month ++ '-' :: day, t)

/-- The fraction of a second with its point, and what follows it; nothing when there is none. -/
def readSecondFraction (t : Text) : Text × Text :=
  match t with
  | '.' :: d :: t' =>
    if Text.isDigit d then
      let digits := (d :: t').takeWhile Text.isDigit
      let kept := Text.dropEndWhile (· == '0') (digits.take 9)
      (if kept = [] then [] else '.' :: kept, (d :: t').dropWhile Text.isDigit)
    else ([], t)
  | _ => ([], t)

/-- A time, and what follows it; a second may be added to a minute. -/
def readTime? (t : Text) : Option (Text × Text) := do
  let (hour, t) ← readField? 2 0 23 t
  let t ← readChar? ':' t
  let (minute, t) ← readField? 2 0 59 t
  let t ← readChar? ':' t
  let (second, t) ← readField? 2 0 60 t
  let (fraction, t) := readSecondFraction t
  some (hour ++ ':' :: minute ++ ':' :: second ++ fraction, t)

/-- An offset, and what follows it.  An offset of none is written with a plus sign. -/
def readOffset? : Text → Option (Text × Text)
  | [] => none
  | sign :: t =>
    if sign = 'Z' || sign = 'z' then some (['Z'], t)
    else if sign = '+' || sign = '-' then do
      let (hour, t) ← readField? 2 0 23 t
      let t ← readChar? ':' t
      let (minute, t) ← readField? 2 0 59 t
      let offset := hour ++ ':' :: minute
      some ((if offset = "00:00".toList then '+' else sign) :: offset, t)
    else none

/-! ### Moments -/

/-- The time and the offset that follow a date, and what follows them. -/
def readTimeOfDay? : Text → Option (Text × Text)
  | [] => none
  | c :: t =>
    if c = 'T' || c = 't' || c = ' ' then do
      let (time, t) ← readTime? t
      let (offset, t) := (readOffset? t).getD ([], t)
      some ('T' :: time ++ offset, t)
    else none

/-- **A moment, and what follows it.** -/
def readMoment? (t : Text) : Option (Text × Text) :=
  match readDate? t with
  | some (date, t) =>
    let (time, t) := (readTimeOfDay? t).getD ([], t)
    some (date ++ time, t)
  | none => readTime? t

end CribSheet.Toml
