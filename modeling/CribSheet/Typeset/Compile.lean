/-
Compiling a sheet.

The first available engine of a list is started several times in a fresh work directory that holds the
source.  The first pass that fails ends the work; when no pass fails, the artifact of the last one is
the result.

Main definitions:

* `CribSheet.CompilerOptions` — which engines to try, and how many passes to make;
* `CribSheet.CompileError` — why there is no artifact;
* `CribSheet.runPasses`, `CribSheet.compile` — the passes, and the whole work.
-/
import CribSheet.Journal
import CribSheet.Sheet.Document
import CribSheet.Typeset.Engine

set_option relaxedAutoImplicit false
set_option autoImplicit false

namespace CribSheet

/-! ### Options and errors -/

/-- Which engines to try, in this order, and how many passes to make. -/
structure CompilerOptions where
  /-- The names of the engines. -/
  engines : List Text := ["pdflatex".toList, "xelatex".toList, "lualatex".toList]
  /-- The number of passes; none counts as one. -/
  passes : Nat := 2
deriving Repr, DecidableEq

/-- Why a sheet was not compiled. -/
inductive CompileError
  /-- None of these engines can be started. -/
  | unavailable (tried : List Text)
  /-- The engine failed. -/
  | failed (engine : Text) (pass : Nat) (log : Text)
  /-- No pass failed, but there is no artifact. -/
  | missingOutput (engine : Text)
  /-- The work directory cannot be used. -/
  | io (fault : FileFault)
deriving Repr, DecidableEq

/-- The wording of the error. -/
def CompileError.message : CompileError → Text
  | .unavailable tried =>
    "no LaTeX engine available (tried: ".toList ++ Text.joinWith [',', ' '] tried ++ [')']
  | .failed engine pass _ => engine ++ " failed on pass ".toList ++ Text.ofNat pass
  | .missingOutput engine => engine ++ " finished without producing a PDF".toList
  | .io fault => "I/O error while compiling: ".toList ++ fault.message

/-! ### Passes -/

/-- What every engine is told. -/
def engineFlags : List Text :=
  ["-interaction=nonstopmode".toList, "-halt-on-error".toList, "-file-line-error".toList]

/-- The first available engine of a list. -/
def resolveEngine? (available : Engines) (names : List Text) : Option (Text × Engine) :=
  names.findSome? fun name => (available name).map fun engine => (name, engine)

/-- The journal of a failed run: the file that the engine left, or else what it wrote to its console. -/
def engineLog (stem : Text) (r : EngineRun) : Text :=
  match r.files.read (stem ++ ".log".toList) with
  | .ok content => (Text.decode? content).getD r.console
  | .error _ => r.console

/-- The passes from number `pass` on, of which `left` are to be made: the reports, and the work directory
that they leave. -/
def runPasses (name : Text) (engine : Engine) (stem : Text) :
    (left pass : Nat) → FileTree → List Report × Except CompileError FileTree
  | 0, _, files => ([], .ok files)
  | left + 1, pass, files =>
    let r := engine.run pass (engineFlags ++ [stem ++ ".tex".toList]) files
    if r.status = 0 then
      let others := runPasses name engine stem left (pass + 1) r.files
      (.passed name pass r.status :: others.1, others.2)
    else
      ([.passed name pass r.status, .compileFailed name pass],
        .error (.failed name pass (engineLog stem r)))

/-- The artifact in a work directory. -/
def readArtifact (name stem : Text) (files : FileTree) : Except CompileError ByteArray :=
  match files.read (stem ++ ".pdf".toList) with
  | .ok content => .ok content
  | .error .notFound => .error (.missingOutput name)
  | .error fault => .error (.io fault)

/-- **Compile a sheet:** the reports, and the artifact. -/
def compile (available : Engines) (options : CompilerOptions) (stem : Text) (doc : Document) :
    List Report × Except CompileError ByteArray :=
  match resolveEngine? available options.engines with
  | none => ([], .error (.unavailable options.engines))
  | some (name, engine) =>
    match ({} : FileTree).write (stem ++ ".tex".toList) doc.text.encode with
    | .error fault => ([], .error (.io fault))
    | .ok files =>
      let passes := max options.passes 1
      let work := runPasses name engine stem passes 1 files
      (.compiling name passes stem :: work.1, work.2.bind (readArtifact name stem))

end CribSheet
