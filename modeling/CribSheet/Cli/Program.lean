/-
The program: from the words of a command line to what the user sees.

Main definitions:

* `CribSheet.tellNames`, `CribSheet.listFormats`, `CribSheet.renameFiles` — the requests besides building;
* `CribSheet.Request.work` — what a request leaves;
* `CribSheet.program` — the program.
-/
import CribSheet.Cli.Build
import CribSheet.Files.Renaming

set_option relaxedAutoImplicit false
set_option autoImplicit false

namespace CribSheet

/-! ### Names of artifacts -/

/-- The names of artifacts as lines. -/
def namesAsLines (names : ArtifactNames) : Text :=
  Text.joinWith ['\n']
    ["slug: ".toList ++ names.slug, "tex: ".toList ++ names.source, "pdf: ".toList ++ names.pdf, []]

/-- The names of artifacts as data. -/
def namesAsData (names : ArtifactNames) : Text :=
  let field (key : String) (value : Text) : Text :=
    [' ', ' '] ++ Text.dataQuote key.toList ++ [':', ' '] ++ value.dataQuote
  let fields :=
    [field "markdown" (names.withExtension "md".toList), field "pdf" names.pdf,
     field "slug" names.slug, field "tex" names.source]
  ['{', '\n'] ++ Text.joinWith [',', '\n'] fields ++ ['\n', '}', '\n']

/-- Tell the names of the artifacts of a topic. -/
def tellNames (files : FileTree) (topic : Text) (asData : Bool) (config : Option Text) : Work where
  files
  result := (readConfiguration files config false).map fun c =>
    let names := c.artifactNames topic
    if asData then namesAsData names else namesAsLines names

/-! ### Formats -/

/-- The width of the names of formats. -/
def nameWidth : Nat := 10

/-- The line of a format. -/
def formatLine (f : Format) : Text :=
  let extensions := Text.joinWith [',', ' '] (f.extensions.map ('.' :: ·))
  [' ', ' '] ++ f.name ++ List.replicate (nameWidth - f.name.length) ' ' ++ ' ' :: f.description ++
    " (".toList ++ extensions ++ [')', '\n']

/-- List the formats. -/
def listFormats (s : Surroundings) : Work where
  files := s.files
  result := .ok ("Available formats:\n\n".toList ++ (Registry.builtIn s.engines {}).formats.flatMap formatLine)

/-! ### Renaming -/

/-- How many names were changed. -/
def renamingSummary (renamings : List Renaming) : Text :=
  "renamed ".toList ++ Text.ofNat (renamings.countP Renaming.isFile) ++ " files and ".toList ++
    Text.ofNat (renamings.countP Renaming.isDirectory) ++ " directories, skipped ".toList ++
    Text.ofNat (renamings.countP Renaming.isSkipped) ++ ['\n']

/-- Put the names below a directory in title case. -/
def renameFiles (files : FileTree) (directory : Text) : Work :=
  match files.isDirectory directory, files.locate directory with
  | true, .ok base =>
    let renamed := files.renameBelow base
    { files := renamed.tree
      notes := notesOf (renamed.renamings.map (Renaming.report directory))
      result :=
        match renamed.fault with
        | some fault => .error (.files fault)
        | none => .ok (renamingSummary renamed.renamings) }
  | _, _ => { files, result := .error (.notDirectory directory) }

/-! ### The program -/

/-- What a request leaves. -/
def Request.work (s : Surroundings) : Request → Work
  | .build b => buildSheet s b
  | .slug topic asData config => tellNames s.files topic asData config
  | .formats => listFormats s
  | .rename directory => renameFiles s.files directory

/-- How the program is called. -/
def usageText : Text :=
  ("Usage: sheetcheat [--log-level <level>] <command>\n\n" ++
    "  build [<input>] [-t <topic>] [--to <format>] [-o <file> | --out-dir <dir>] [-c <file>] [--no-math]\n" ++
    "  slug <topic> [--json] [-c <file>]\n" ++
    "  formats\n" ++
    "  rename [<dir>]\n").toList

/-- The name of the program and its version. -/
def versionText : Text := "sheetcheat 0.1.0\n".toList

/-- What the user sees of a command line that leads to no request. -/
def Diversion.outcome (files : FileTree) : Diversion → Outcome
  | .malformed => { status := 2, complaint := .usage, files }
  | .helpWanted => { status := 0, output := usageText, files }
  | .versionWanted => { status := 0, output := versionText, files }

/-- **The program.** -/
def program (s : Surroundings) (words : List Text) : Outcome :=
  match Invocation.ofWords words with
  | .error diversion => diversion.outcome s.files
  | .ok invocation =>
    match Level.ofText? invocation.level with
    | none => .failed s.files [] (.unknownLevel invocation.level)
    | some level =>
      match invocation.request with
      | none => .failed s.files [] .noCommand
      | some request => (request.work s).outcome level

end CribSheet
