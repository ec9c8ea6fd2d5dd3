/-
The words of a command line.

A word that starts with a hyphen names an option, unless it is a hyphen alone.  An option has a long name
behind two hyphens, and perhaps a letter behind one.  Its value is attached, to a long name with an equals
sign, or it is the next word.  Two hyphens alone end the options.  No option may be given twice.

Main definitions:

* `CribSheet.OptionForm`, `CribSheet.Grammar` — the options and the operands of a command;
* `CribSheet.Given` — what a command line gives for them;
* `CribSheet.Diversion` — what a command line may lead to instead;
* `CribSheet.Grammar.read` — reading a command line.
-/
import CribSheet.Text.Basic

set_option relaxedAutoImplicit false
set_option autoImplicit false

namespace CribSheet

/-! ### Grammars -/

/-- An option of a command. -/
structure OptionForm where
  /-- Its name, which stands behind two hyphens. -/
  name : Text
  /-- Its letter, which stands behind one. -/
  letter : Option Char := none
  /-- It has a value. -/
  hasValue : Bool := true
deriving Repr, DecidableEq

/-- What the words of a command may be. -/
structure Grammar where
  /-- The options. -/
  options : List OptionForm
  /-- The number of words that may be given as operands. -/
  operands : Nat := 0
  /-- Words that end the command line and start that of another command. -/
  commands : List Text := []
  /-- The version can be asked for. -/
  hasVersion : Bool := false
deriving Repr, DecidableEq

/-- What a command line gives. -/
structure Given where
  /-- The values of the options by their names; an option without a value has an empty one. -/
  values : List (Text × Text) := []
  /-- The operands. -/
  operands : List Text := []
deriving Repr, DecidableEq

/-- What a command line may lead to instead of a request. -/
inductive Diversion
  /-- It does not follow the grammar. -/
  | malformed
  /-- It asks for help. -/
  | helpWanted
  /-- It asks for the version. -/
  | versionWanted
deriving Repr, DecidableEq

namespace Given

/-- The value of an option. -/
def value? (g : Given) (name : Text) : Option Text := g.values.lookup name

/-- The option is given. -/
def has (g : Given) (name : Text) : Bool := (g.value? name).isSome

/-- One more option; it must not have been given before. -/
def addValue (g : Given) (name value : Text) : Except Diversion Given :=
  if g.has name then .error .malformed else .ok { g with values := g.values ++ [(name, value)] }

/-- One more operand; there may be at most so many. -/
def addOperand (g : Given) (most : Nat) (word : Text) : Except Diversion Given :=
  if g.operands.length < most then .ok { g with operands := g.operands ++ [word] }
  else .error .malformed

end Given

/-! ### Words -/

/-- What a word is. -/
inductive Word
  /-- The end of the options. -/
  | endOfOptions
  /-- A long name, and a value that is attached to it. -/
  | long (name : Text) (value : Option Text)
  /-- A letter, and what is attached to it. -/
  | short (letter : Char) (rest : Text)
  /-- Any other word. -/
  | plain (word : Text)
deriving Repr, DecidableEq

/-- What a word is. -/
def Word.ofText : Text → Word
  | ['-', '-'] => .endOfOptions
  | '-' :: '-' :: body =>
    match Text.cutAt? ['='] body with
    | some (name, value) => .long name (some value)
    | none => .long body none
  | '-' :: letter :: rest => .short letter rest
  | word => .plain word

/-- The value that is attached to a letter. -/
def attached? : Text → Option Text
  | [] => none
  | '=' :: value => some value
  | value => some value

/-- The value that a word is, if it can be one. -/
def valueOf? (word : Text) : Option Text :=
  match Word.ofText word with
  | .plain value => some value
  | _ => none

namespace Grammar

/-- The option that a word names, with the value that is attached to it. -/
def option? (g : Grammar) : Word → Option (OptionForm × Option Text)
  | .long name value => (g.options.find? (·.name = name)).map (·, value)
  | .short letter rest => (g.options.find? (·.letter = some letter)).map (·, attached? rest)
  | _ => none

/-- The word asks for help. -/
def asksForHelp : Word → Bool
  | .long name none => name = "help".toList
  | .short letter _ => letter = 'h'
  | _ => false

/-- The word asks for the version. -/
def asksForVersion : Word → Bool
  | .long name none => name = "version".toList
  | .short letter _ => letter = 'V'
  | _ => false

/-- **Read a command line** up to a word that starts another command: what is given, and the words from
there on. -/
def read (g : Grammar) : (words : List Text) → (noOptions : Bool) → Given →
    Except Diversion (Given × List Text)
  | [], _, given => .ok (given, [])
  | word :: words, true, given => do g.read words true (← given.addOperand g.operands word)
  | word :: words, false, given =>
    if g.commands.contains word then .ok (given, word :: words)
    else
      match Word.ofText word with
      | .endOfOptions => g.read words true given
      | .plain word => do g.read words false (← given.addOperand g.operands word)
      | w =>
        if asksForHelp w then .error .helpWanted
        else if g.hasVersion && asksForVersion w then .error .versionWanted
        else
          match g.option? w with
          | none => .error .malformed
          | some (o, value) =>
            if o.hasValue then
              match value with
              | some v => do g.read words false (← given.addValue o.name v)
              | none =>
                match words with
                | [] => .error .malformed
                | next :: words =>
                  match valueOf? next with
                  | some v => do g.read words false (← given.addValue o.name v)
                  | none => .error .malformed
            else if value.isSome then .error .malformed
            else do g.read words false (← given.addValue o.name [])

end Grammar

end CribSheet
