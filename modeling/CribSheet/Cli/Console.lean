/-
What the program tells its user.

Results go to the output.  Notes go to the error output: journal lines, when their level is shown, and
plain lines in between.

Main definitions:

* `CribSheet.ProgramError` — why a request fails;
* `CribSheet.Note`, `CribSheet.Note.text` — notes;
* `CribSheet.Work` — what a request leaves;
* `CribSheet.Outcome`, `CribSheet.Work.outcome` — the same as the user sees it.
-/
import CribSheet.Payload.Loading
import CribSheet.Publish.Format
import CribSheet.Settings.Fault

set_option relaxedAutoImplicit false
set_option autoImplicit false

namespace CribSheet

/-! ### Errors -/

/-- Why a request fails. -/
inductive ProgramError
  /-- The configuration cannot be used. -/
  | settings (fault : SettingsFault)
  /-- The payload gives no sheet. -/
  | load (error : LoadError)
  /-- The sheet cannot be published. -/
  | format (error : FormatError)
  /-- Files cannot be renamed. -/
  | files (fault : FileFault)
  /-- A path does not name a directory. -/
  | notDirectory (path : Text)
  /-- No level has this name. -/
  | unknownLevel (name : Text)
  /-- No command is given. -/
  | noCommand
deriving Repr, DecidableEq

namespace ProgramError

/-- The wording of the error. -/
def message : ProgramError → Text
  | settings fault => "configuration error: ".toList ++ fault.message
  | load error => error.message
  | format error => error.message
  | files fault => "I/O error: ".toList ++ fault.message
  | notDirectory path => '\'' :: path ++ "' is not a directory".toList
  | unknownLevel name =>
    "unsupported log level `".toList ++ Level.key name ++
      "`; expected trace|debug|info|warn|error".toList
  | noCommand => "unknown command".toList

/-- The exit status of the error; an empty payload has one of its own. -/
def status : ProgramError → Nat
  | load (.refused .emptyInput) => 2
  | format (.refused .emptyInput) => 2
  | _ => 1

end ProgramError

/-! ### Notes -/

/-- What is told besides the result. -/
inductive Note
  /-- A journal line. -/
  | report (r : Report)
  /-- A plain line. -/
  | line (t : Text)
deriving Repr, DecidableEq

/-- The text of a note at a level. -/
def Note.text (level : Level) : Note → Text
  | report r => if level.shows r.level then r.line else []
  | line t => t ++ ['\n']

/-- Reports as notes. -/
def notesOf (reports : List Report) : List Note := reports.map .report

/-! ### Outcomes -/

/-- What a request leaves: the files, the notes, and its result. -/
structure Work where
  /-- The files. -/
  files : FileTree
  /-- The notes. -/
  notes : List Note := []
  /-- The result. -/
  result : Except ProgramError Text

/-- The work with notes that came before it. -/
def Work.after (work : Work) (notes : List Note) : Work := { work with notes := notes ++ work.notes }

/-- What is written to the error output. -/
inductive Complaint
  /-- How the program is to be called. -/
  | usage
  /-- Notes. -/
  | notes (t : Text)
deriving Repr, DecidableEq

/-- What the user sees of a call of the program. -/
structure Outcome where
  /-- The exit status. -/
  status : Nat
  /-- The output. -/
  output : Text := []
  /-- The error output. -/
  complaint : Complaint := .notes []
  /-- The files. -/
  files : FileTree

namespace Outcome

/-- The last line of a call that fails. -/
def errorLine (e : ProgramError) : Text := "error: ".toList ++ e.message ++ ['\n']

/-- A call that fails, after some notes. -/
def failed (files : FileTree) (notes : Text) (e : ProgramError) : Outcome :=
  { status := e.status, complaint := .notes (notes ++ errorLine e), files }

end Outcome

/-- **What the user sees** of a request when the journal has a level. -/
def Work.outcome (work : Work) (level : Level) : Outcome :=
  let notes := work.notes.flatMap (Note.text level)
  match work.result with
  | .ok output => { status := 0, output, complaint := .notes notes, files := work.files }
  | .error e => .failed work.files notes e

end CribSheet
