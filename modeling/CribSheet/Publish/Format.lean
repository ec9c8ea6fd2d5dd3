/-
Output formats.

A format may be able to read a source, to serialize a sheet, or both; what it cannot do is refused.
Some formats give text and others bytes.

Main definitions:

* `CribSheet.FormatError` — why a format has no answer;
* `CribSheet.Artifact` — what a format makes of a sheet;
* `CribSheet.Format` — formats;
* `CribSheet.Format.latex`, `CribSheet.Format.markdown`, `CribSheet.Format.pdf` — the built-in ones.
-/
import CribSheet.Markdown.Render
import CribSheet.Number.Bounds
import CribSheet.Sheet.Pipeline
import CribSheet.Typeset.Compile

set_option relaxedAutoImplicit false
set_option autoImplicit false

namespace CribSheet

/-! ### Errors -/

/-- Why a format has no answer. -/
inductive FormatError
  /-- No format has this name. -/
  | notFound (name : Text)
  /-- The format reads no sources. -/
  | cannotParse (name : Text)
  /-- The format serializes no sheets. -/
  | cannotSerialize (name : Text)
  /-- The format gives bytes where text was asked for. -/
  | onlyBinary (name : Text)
  /-- The number of passes is no number. -/
  | badPassCount (given : Text)
  /-- Bytes can only be written to a file. -/
  | needsOutputPath
  /-- The artifact cannot be written. -/
  | io (fault : FileFault)
  /-- The sheet cannot be compiled. -/
  | compile (error : CompileError)
  /-- The source is refused. -/
  | refused (refusal : Refusal)
deriving Repr, DecidableEq

/-- The wording of the error. -/
def FormatError.message : FormatError → Text
  | .notFound name => "Format '".toList ++ name ++ "' not found".toList
  | .cannotParse name =>
    "Operation not supported: Format '".toList ++ name ++ "' does not support parsing".toList
  | .cannotSerialize name =>
    "Operation not supported: Format '".toList ++ name ++ "' does not support serialization".toList
  | .onlyBinary name =>
    "Operation not supported: Format '".toList ++ name ++
      "' is binary; use serialize_with_options".toList
  | .badPassCount given =>
    "Serialization error: invalid pass count '".toList ++ given ++
      "': expected a positive integer".toList
  | .needsOutputPath => "Serialization error: binary formats require an explicit output path".toList
  | .io fault => "Serialization error: ".toList ++ fault.message
  | .compile error => "Compilation failed: ".toList ++ error.message
  | .refused refusal => "Transform error: ".toList ++ refusal.message

/-! ### Formats -/

/-- What a format makes of a sheet. -/
inductive Artifact
  | text (t : Text)
  | binary (bytes : ByteArray)

namespace Artifact

/-- The artifact as bytes. -/
def bytes : Artifact → ByteArray
  | text t => t.encode
  | binary bytes => bytes

/-- The artifact is given as bytes. -/
def isBinary : Artifact → Bool
  | text _ => false
  | binary _ => true

end Artifact

/-- Named values that change how a format serializes. -/
abbrev FormatOptions := List (Text × Text)

/-- A format. -/
structure Format where
  /-- Its name. -/
  name : Text
  /-- What it is. -/
  description : Text := []
  /-- The extensions of its files, without the dot. -/
  extensions : List Text := []
  /-- It can read sources. -/
  parses : Bool := false
  /-- It can serialize sheets. -/
  serializes : Bool := false
  /-- The sheet that a source describes. -/
  parse : Text → Except FormatError Document := fun _ => .error (.cannotParse name)
  /-- The text of a sheet. -/
  serialize : Document → Except FormatError Text := fun _ => .error (.cannotSerialize name)
  /-- The artifact of a sheet, and the reports about it. -/
  serializeWith : FormatOptions → Document → List Report × Except FormatError Artifact :=
    fun _ doc => ([], (serialize doc).map .text)

namespace Format

/-- Sheets as LaTeX. -/
def latex : Format where
  name := "latex".toList
  description := "Normalized LaTeX source".toList
  extensions := ["tex".toList]
  parses := true
  serializes := true
  parse source := ((runStages normalization source).map Document.mk).mapError .refused
  serialize doc := .ok doc.text

/-- Sheets as Markdown. -/
def markdown : Format where
  name := "markdown".toList
  description := "Markdown preview with $-delimited math".toList
  extensions := ["md".toList, "markdown".toList]
  serializes := true
  serialize doc := .ok (Markdown.preview doc).1
  serializeWith _ doc := ([(Markdown.preview doc).2], .ok (.text (Markdown.preview doc).1))

/-- The name of the format of compiled sheets. -/
def pdfName : Text := "pdf".toList

/-- The compiler options that format options ask for: another engine, another number of passes. -/
def compilerOptions (compiler : CompilerOptions) (options : FormatOptions) :
    Except FormatError CompilerOptions :=
  let compiler :=
    match options.lookup "engine".toList with
    | some engine => { compiler with engines := [engine.trim] }
    | none => compiler
  match options.lookup "passes".toList with
  | none => .ok compiler
  | some given =>
    match Text.unsigned? greatestCount given.trim with
    | some passes => .ok { compiler with passes }
    | none => .error (.badPassCount given)

/-- The stem of the files of a compiled sheet that has none of its own. -/
def defaultStem : Text := "document".toList

/-- Compiled sheets. -/
def pdf (available : Engines) (compiler : CompilerOptions) : Format where
  name := pdfName
  description := "PDF compiled with an installed LaTeX engine".toList
  extensions := [pdfName]
  serializes := true
  serialize _ := .error (.onlyBinary pdfName)
  serializeWith options doc :=
    match compilerOptions compiler options with
    | .error e => ([], .error e)
    | .ok compiler =>
      let work := compile available compiler ((options.lookup "stem".toList).getD defaultStem) doc
      (work.1, (work.2.map .binary).mapError .compile)

end Format

end CribSheet
