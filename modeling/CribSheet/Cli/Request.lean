/-
Requests: what a command line asks the program to do.

Main definitions:

* `CribSheet.BuildRequest`, `CribSheet.Request` — the requests;
* `CribSheet.Invocation` — a request, and how much is to be told about it;
* `CribSheet.Invocation.ofWords` — the invocation that a command line stands for.
-/
import CribSheet.Cli.Words

set_option relaxedAutoImplicit false
set_option autoImplicit false

namespace CribSheet

/-! ### Requests -/

/-- A sheet to build. -/
structure BuildRequest where
  /-- The file of the payload; without one, or with a hyphen, it is read from the input. -/
  input : Option Text := none
  /-- The topic. -/
  topic : Text := []
  /-- The name of the format. -/
  format : Text := "latex".toList
  /-- The file to write. -/
  output : Option Text := none
  /-- The directory to write to, under the name of the artifact. -/
  directory : Option Text := none
  /-- The configuration file. -/
  config : Option Text := none
  /-- The mathematics is not repaired. -/
  skipsMath : Bool := false
deriving Repr, DecidableEq

/-- What the program is asked to do. -/
inductive Request
  /-- Build a sheet. -/
  | build (b : BuildRequest)
  /-- Tell the names of the artifacts of a topic, perhaps as data. -/
  | slug (topic : Text) (asData : Bool) (config : Option Text)
  /-- List the formats. -/
  | formats
  /-- Put the names below a directory in title case. -/
  | rename (directory : Text)
deriving Repr, DecidableEq

/-- A call of the program. -/
structure Invocation where
  /-- The name of the level of the journal. -/
  level : Text := "warn".toList
  /-- What to do; nothing, when no command is given. -/
  request : Option Request := none
deriving Repr, DecidableEq

/-! ### Names -/

/-- The command that builds a sheet. -/
def buildCommand : Text := "build".toList

/-- The command that tells the names of artifacts. -/
def slugCommand : Text := "slug".toList

/-- The command that lists the formats. -/
def formatsCommand : Text := "formats".toList

/-- The command that renames files. -/
def renameCommand : Text := "rename".toList

/-- The command that helps. -/
def helpCommand : Text := "help".toList

/-- All commands. -/
def commandNames : List Text :=
  [buildCommand, slugCommand, formatsCommand, renameCommand, helpCommand]

/-- The option for the level of the journal. -/
def levelOption : Text := "log-level".toList

/-- The option for the configuration file. -/
def configOption : Text := "config".toList

/-- The option for the topic. -/
def topicOption : Text := "topic".toList

/-- The option for the format. -/
def formatOption : Text := "to".toList

/-- The option for the file to write. -/
def outputOption : Text := "output".toList

/-- The option for the directory to write to. -/
def directoryOption : Text := "out-dir".toList

/-- The option that leaves the mathematics alone. -/
def noMathOption : Text := "no-math".toList

/-- The option for data instead of prose. -/
def dataOption : Text := "json".toList

/-! ### Grammars -/

/-- The words in front of a command. -/
def programGrammar : Grammar where
  options := [{ name := levelOption }]
  commands := commandNames
  hasVersion := true

/-- The words of a command with some options; the level may be given here too. -/
def commandGrammar (operands : Nat) (options : List OptionForm) : Grammar where
  options := { name := levelOption } :: options
  operands

/-- The option for the configuration file, as it is written. -/
def configForm : OptionForm := { name := configOption, letter := some 'c' }

/-- The words of a request to build a sheet. -/
def buildGrammar : Grammar :=
  commandGrammar 1
    [{ name := topicOption, letter := some 't' }, { name := formatOption },
     { name := outputOption, letter := some 'o' }, { name := directoryOption }, configForm,
     { name := noMathOption, hasValue := false }]

/-- The words of a request for the names of artifacts. -/
def slugGrammar : Grammar :=
  commandGrammar 1 [{ name := dataOption, hasValue := false }, configForm]

/-! ### Reading -/

namespace Request

/-- A sheet to build. -/
def ofBuild (given : Given) : Except Diversion Request :=
  if given.has outputOption && given.has directoryOption then .error .malformed
  else
    let default : BuildRequest := {}
    .ok (.build {
      input := given.operands.head?
      topic := (given.value? topicOption).getD default.topic
      format := (given.value? formatOption).getD default.format
      output := given.value? outputOption
      directory := given.value? directoryOption
      config := given.value? configOption
      skipsMath := given.has noMathOption })

/-- A request for the names of artifacts; it needs a topic. -/
def ofSlug (given : Given) : Except Diversion Request :=
  match given.operands with
  | [] => .error .malformed
  | topic :: _ => .ok (.slug topic (given.has dataOption) (given.value? configOption))

/-- The request of a command, and the level that is given with it. -/
def ofCommand (command : Text) (words : List Text) : Except Diversion (Request × Option Text) := do
  let read (g : Grammar) (of : Given → Except Diversion Request) :
      Except Diversion (Request × Option Text) := do
    let (given, _) ← g.read words false {}
    return (← of given, given.value? levelOption)
  if command = buildCommand then read buildGrammar ofBuild
  else if command = slugCommand then read slugGrammar ofSlug
  else if command = formatsCommand then read (commandGrammar 0 []) fun _ => .ok .formats
  else if command = renameCommand then
    read (commandGrammar 1 []) fun given => .ok (.rename (given.operands.head?.getD ['.']))
  else
    match words with
    | [] => .error .helpWanted
    | [about] => .error (if commandNames.contains about then .helpWanted else .malformed)
    | _ => .error .malformed

end Request

/-- **The invocation that a command line stands for.**  A level behind the command counts more than one in
front of it.  A command line that gives nothing at all is malformed. -/
def Invocation.ofWords (words : List Text) : Except Diversion Invocation := do
  let default : Invocation := {}
  let (given, rest) ← programGrammar.read words false {}
  let level := given.value? levelOption
  match rest with
  | command :: words =>
    let (request, inner) ← Request.ofCommand command words
    return { level := (inner <|> level).getD default.level, request := some request }
  | [] =>
    match level with
    | some level => return { level }
    | none => .error .malformed

end CribSheet
