/-
Strings of a TOML document.

A string stands between quotes or apostrophes, one or three of them on both sides.  Between quotes a
backslash starts an escape; between apostrophes every character stands for itself.  Three of either allow
line breaks; one right at the start is dropped, and every other one becomes a line feed.

Main definitions:

* `CribSheet.Toml.readQuoted?` — a string, and what follows it;
* `CribSheet.Toml.readLine?` — the same for a string that stands on one line.
-/
import CribSheet.Text.Number
import CribSheet.Toml.Gap

set_option relaxedAutoImplicit false
set_option autoImplicit false

namespace CribSheet.Toml

/-! ### Escapes -/

/-- The character with a code that is written in hexadecimal digits. -/
def coded? (digits : Text) : Option Char :=
  (Text.numeral? 16 digits).bind fun n => if n.isValidChar then some (Char.ofNat n) else none

/-- The character that a letter behind a backslash stands for. -/
def escaped? : Char → Option Char
  | 'b' => some '\x08'
  | 't' => some '\t'
  | 'n' => some '\n'
  | 'f' => some '\x0c'
  | 'r' => some '\r'
  | '"' => some '"'
  | '\\' => some '\\'
  | _ => none

/-- What stands behind a backslash that ends a line: the next visible text. -/
def skipLineEnd? (t : Text) : Option Text :=
  match skipBlanks t with
  | '\n' :: t => some (skipBlankLines t)
  | '\r' :: '\n' :: t => some (skipBlankLines t)
  | _ => none
where
  /-- The text behind blanks and line breaks. -/
  skipBlankLines : Text → Text
    | '\r' :: '\n' :: t => skipBlankLines t
    | c :: t => if c = '\n' || isGap c then skipBlankLines t else c :: t
    | [] => []

/-! ### Strings -/

/-- How a string is written. -/
structure Quotation where
  /-- The character on both sides. -/
  mark : Char
  /-- It stands there three times, and the string may have several lines. -/
  isTripled : Bool
deriving Repr, DecidableEq

namespace Quotation

/-- Escapes are read. -/
def hasEscapes (q : Quotation) : Bool := q.mark == '"'

/-- The end of a string with several lines: up to two marks may stand in front of the last three. -/
def tripledEnd? (mark : Char) (t : Text) : Option (Text × Text) :=
  let marks := (t.takeWhile (· == mark)).length
  if 3 ≤ marks then
    let kept := min (marks - 3) 2
    some (List.replicate kept mark, t.drop (kept + 3))
  else none

/-- What closes the string here: marks that still belong to it, and what follows. -/
def end? (q : Quotation) (t : Text) : Option (Text × Text) :=
  if q.isTripled then tripledEnd? q.mark t
  else
    match t with
    | c :: t => if c = q.mark then some ([], t) else none
    | [] => none

/-- The next piece of a string behind a backslash, and what follows it. -/
def escape? (q : Quotation) : Text → Option (Text × Text)
  | 'u' :: t => (coded? (t.take 4)).bind fun c => if 4 ≤ t.length then some ([c], t.drop 4) else none
  | 'U' :: t => (coded? (t.take 8)).bind fun c => if 8 ≤ t.length then some ([c], t.drop 8) else none
  | c :: t =>
    match escaped? c with
    | some d => some ([d], t)
    | none => if q.isTripled then (skipLineEnd? (c :: t)).map fun t => ([], t) else none
  | [] => none

/-- The next piece of a string that goes on, and what follows it. -/
def piece? (q : Quotation) : Text → Option (Text × Text)
  | '\n' :: t => if q.isTripled then some (['\n'], t) else none
  | '\r' :: '\n' :: t => if q.isTripled then some (['\n'], t) else none
  | c :: t =>
    if c = '\\' && q.hasEscapes then q.escape? t
    else if isPlain c then some ([c], t)
    else none
  | [] => none

/-- The rest of a string, and what follows it; every piece is at least one character long, and `left`
bounds their number. -/
def rest? (q : Quotation) : (left : Nat) → Text → Option (Text × Text)
  | 0, _ => none
  | left + 1, t =>
    match q.end? t with
    | some found => some found
    | none => do
      let (piece, t) ← q.piece? t
      let (rest, t) ← q.rest? left t
      some (piece ++ rest, t)

end Quotation

/-- The string behind its first marks, and what follows it. -/
def readBody? (q : Quotation) (t : Text) : Option (Text × Text) :=
  let t :=
    match t with
    | '\n' :: t' => if q.isTripled then t' else t
    | '\r' :: '\n' :: t' => if q.isTripled then t' else t
    | _ => t
  q.rest? (t.length + 1) t

/-- **A string, and what follows it.** -/
def readQuoted? : Text → Option (Text × Text)
  | '"' :: '"' :: '"' :: t => readBody? ⟨'"', true⟩ t
  | '"' :: t => readBody? ⟨'"', false⟩ t
  | '\'' :: '\'' :: '\'' :: t => readBody? ⟨'\'', true⟩ t
  | '\'' :: t => readBody? ⟨'\'', false⟩ t
  | _ => none

/-- A string that stands on one line, and what follows it. -/
def readLine? : Text → Option (Text × Text)
  | '"' :: t => readBody? ⟨'"', false⟩ t
  | '\'' :: t => readBody? ⟨'\'', false⟩ t
  | _ => none

end CribSheet.Toml
