/-
Typesetting engines.

An engine is started in a work directory, once for every pass.  It leaves files there, writes to its
console, and ends with an exit status.

Main definitions:

* `CribSheet.Engine`, `CribSheet.EngineRun` — engines and what a run does;
* `CribSheet.Engines` — the engines that can be started;
* `CribSheet.EngineScript.engine` — an engine that follows a script.
-/
import CribSheet.Files.Tree
import CribSheet.Text.Bytes
import CribSheet.Text.Number

set_option relaxedAutoImplicit false
set_option autoImplicit false

namespace CribSheet

/-! ### Engines -/

/-- What one run of an engine does. -/
structure EngineRun where
  /-- The exit status; zero means success. -/
  status : Nat
  /-- What it writes to its output. -/
  stdout : Text
  /-- What it writes to its error output. -/
  stderr : Text
  /-- The work directory that it leaves. -/
  files : FileTree

namespace EngineRun

/-- Everything that the run writes to its console. -/
def console (r : EngineRun) : Text := r.stdout ++ r.stderr

end EngineRun

/-- An engine: what it does when it is started. -/
structure Engine where
  /-- A run, from the number of times that it was started in the work directory, this time included, its
  arguments, and the work directory. -/
  run : (pass : Nat) → (arguments : List Text) → FileTree → EngineRun

/-- The engines that can be started, by their names. -/
abbrev Engines := Text → Option Engine

/-! ### Scripted engines -/

/-- What a scripted engine does.  It stands in for a typesetting engine where none is installed. -/
structure EngineScript where
  /-- What it writes to its output. -/
  stdout : Text := []
  /-- What it writes to its error output. -/
  stderr : Text := []
  /-- The journal that it writes. -/
  log : Option Text := none
  /-- The artifact that it writes. -/
  pdf : Option Text := none
  /-- It writes an artifact that tells the pass, the arguments and the source. -/
  echoes : Bool := false
  /-- The pass on which it fails. -/
  failingPass : Option Nat := none
  /-- Its exit status otherwise. -/
  status : Nat := 0
deriving Repr, DecidableEq

namespace EngineScript

/-- The source as the engine shows it; a name that starts with a hyphen is taken for an option, and
nothing is shown. -/
def shownSource (source : Text) (files : FileTree) : ByteArray :=
  if source.head? = some '-' then .empty
  else
    match files.read source with
    | .ok content => content
    | .error _ => .empty

/-- The artifact that tells the pass, the arguments and the source. -/
def echo (pass : Nat) (arguments : List Text) (source : Text) (files : FileTree) : ByteArray :=
  Text.encode ("pass ".toList ++ Text.ofNat pass ++ ['\n'] ++
      arguments.flatMap fun a => '<' :: a ++ ['>', '\n']) ++
    shownSource source files

/-- The work directory with a file in it, if the file can be written. -/
def leave (path : Text) (content : ByteArray) (files : FileTree) : FileTree :=
  match files.write path content with
  | .ok files => files
  | .error _ => files

/-- The engine that follows the script.  Its last argument names the source. -/
def engine (script : EngineScript) : Engine where
  run pass arguments files :=
    let source := (arguments.getLast?).getD []
    let stem := (dropReversedTexOnce source.reverse).reverse
    let files :=
      match script.log with
      | some t => leave (stem ++ ".log".toList) t.encode files
      | none => files
    let files :=
      match script.pdf with
      | some t => leave (stem ++ ".pdf".toList) t.encode files
      | none => files
    let files :=
      if script.echoes then
        leave (stem ++ ".pdf".toList) (echo pass arguments source files) files
      else files
    let status := if script.failingPass = some pass then 1 else script.status % 256
    ⟨status, script.stdout, script.stderr, files⟩
where
  /-- A text read from its end, without one extension of a LaTeX source. -/
  dropReversedTexOnce : Text → Text
    | 'x' :: 'e' :: 't' :: '.' :: t => t
    | t => t

end EngineScript

end CribSheet
