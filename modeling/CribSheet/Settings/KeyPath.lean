/-
Paths to settings.

A path is a name followed by steps: another name behind a point, or a number between brackets.  Names
are made of ASCII letters, digits, blanks, underscores and hyphens.

Main definitions:

* `CribSheet.Step`, `CribSheet.KeyPath` — the paths;
* `CribSheet.KeyPathFault`, `CribSheet.KeyPathFault.message` — why a text is no path;
* `CribSheet.KeyPath.ofText` — the path that a text writes.
-/
import CribSheet.Number.Bounds
import CribSheet.Text.Blank
import CribSheet.Text.Number

set_option relaxedAutoImplicit false
set_option autoImplicit false

namespace CribSheet

/-! ### Paths -/

/-- One step on the way to a setting. -/
inductive Step
  /-- To the entry of a table. -/
  | name (name : Text)
  /-- To the item of a list; negative numbers count from its end. -/
  | index (index : Int)
deriving Repr, DecidableEq

/-- The way to a setting. -/
abbrev KeyPath := List Step

/-- Why a text is no path. -/
inductive KeyPathFault
  /-- It does not start with a name. -/
  | noName
  /-- Neither a name nor a bracket follows where it should, or a bracket is not closed. -/
  | noStep
  /-- There is no number between the brackets. -/
  | noNumber
  /-- The number between the brackets is too large. -/
  | largeNumber
deriving Repr, DecidableEq

/-- The wording of a fault. -/
def KeyPathFault.message : KeyPathFault → Text
  | .noName => "IsA".toList
  | .noStep => "Char".toList
  | .noNumber => "Digit".toList
  | .largeNumber => "Map on Result".toList

namespace KeyPath

/-! ### Reading -/

/-- The characters of a name. -/
def isNameChar (c : Char) : Bool := c.isAlphanum || c == ' ' || c == '_' || c == '-'

/-- A name at the start of a text, and what follows it. -/
def readName? (t : Text) : Option (Text × Text) :=
  if t.takeWhile isNameChar = [] then none else some (t.takeWhile isNameChar, t.dropWhile isNameChar)

/-- A number behind its opening bracket, and what follows the closing one. -/
def readIndex (t : Text) : Except KeyPathFault (Int × Text) := do
  let t := t.dropWhile isGap
  let (isNegative, t) :=
    match t with
    | '-' :: t => (true, t)
    | t => (false, t)
  match Text.natural? (t.takeWhile Text.isDigit) with
  | none => .error .noNumber
  | some n =>
    let n : Int := if isNegative then -n else n
    if isInteger n then
      match (t.dropWhile Text.isDigit).dropWhile isGap with
      | ']' :: t => .ok (n, t)
      | _ => .error .noStep
    else .error .largeNumber

/-- A step at the start of a text, and what follows it. -/
def readStep (t : Text) : Except KeyPathFault (Step × Text) :=
  match t with
  | '.' :: t =>
    match readName? t with
    | some (name, t) => .ok (.name name, t)
    | none => .error .noStep
  | '[' :: t => (readIndex t).map fun (index, t) => (.index index, t)
  | _ => .error .noStep

/-- The steps of a text.  Every step is at least one character long, and `left` bounds their number. -/
def readSteps : (left : Nat) → Text → Except KeyPathFault KeyPath
  | _, [] => .ok []
  | 0, _ => .error .noStep
  | left + 1, t => do
    let (step, t) ← readStep t
    return step :: (← readSteps left t)

/-- **The path that a text writes.** -/
def ofText (t : Text) : Except KeyPathFault KeyPath :=
  match readName? t with
  | none => .error .noName
  | some (name, t) => (readSteps t.length t).map (.name name :: ·)

end KeyPath

end CribSheet
