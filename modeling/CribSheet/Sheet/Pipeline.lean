/-
From a raw payload to a sheet.

The work is a chain of stages, each from text to text: sanitizing, completing, the identity, and the
repairs of the mathematics.  Their order matters.  Only sanitizing can refuse its input, when nothing is
left of it.

Main definitions:

* `CribSheet.Stage`, `CribSheet.Stage.run`, `CribSheet.Stage.report` — the stages;
* `CribSheet.runStages`, `CribSheet.reportStages` — a chain, and what it reports;
* `CribSheet.normalization` — the chain without identity and mathematics;
* `CribSheet.PipelineOptions.stages`, `CribSheet.PipelineOptions.document` — the full chain for a topic,
  and the document that it makes.
-/
import CribSheet.Journal
import CribSheet.Math.Differential
import CribSheet.Math.Display
import CribSheet.Payload.Sanitize
import CribSheet.Sheet.Identity
import CribSheet.Sheet.Skeleton

set_option relaxedAutoImplicit false
set_option autoImplicit false

namespace CribSheet

/-! ### Stages -/

/-- Why a payload is refused. -/
inductive Refusal
  /-- Nothing is left of the payload. -/
  | emptyInput
deriving Repr, DecidableEq

/-- The wording of a refusal. -/
def Refusal.message : Refusal → Text
  | .emptyInput => "nothing to process: input is empty".toList

/-- A step from text to text. -/
inductive Stage
  | sanitize
  | complete (skeleton : Skeleton)
  | identify (topic : Text) (identity : Identity)
  | repairMath (options : MathOptions)
deriving Repr, DecidableEq

/-- The text with the repairs that are switched on: differentials first, then display regions. -/
def MathOptions.repair (options : MathOptions) (t : Text) : Text :=
  let t := if options.repairDifferentials then ensureDifferential options.variableName t else t
  if options.isolateDisplay then isolateDisplayMath t else t

namespace Stage

/-- What the stage makes of a text. -/
def run (stage : Stage) (t : Text) : Except Refusal Text :=
  match stage with
  | .sanitize =>
    let sanitized := Payload.sanitize t
    if sanitized = [] then .error .emptyInput else .ok sanitized
  | .complete skeleton => .ok (skeleton.complete t)
  | .identify topic identity => .ok (identity.injectFooter (identity.enforceTitle topic t))
  | .repairMath options => .ok (options.repair t)

/-- What the stage reports about a text. -/
def report (stage : Stage) (t : Text) : Report :=
  match stage with
  | .sanitize => .sanitized t.size (Payload.sanitize t).size
  | .complete skeleton => .completed (!Text.holds beginDocument t) skeleton.language
  | .identify topic identity =>
    let titled := identity.enforceTitle topic t
    .identified (titled != t) (identity.injectFooter titled != titled)
  | .repairMath options => .mathRepaired options

end Stage

/-! ### Chains -/

/-- What a chain of stages makes of a text. -/
def runStages (stages : List Stage) (t : Text) : Except Refusal Text :=
  match stages with
  | [] => .ok t
  | stage :: rest =>
    match stage.run t with
    | .ok t => runStages rest t
    | .error refusal => .error refusal

/-- What a chain of stages reports about a text, up to a refusal. -/
def reportStages (stages : List Stage) (t : Text) : List Report :=
  match stages with
  | [] => []
  | stage :: rest =>
    stage.report t ::
      match stage.run t with
      | .ok t => reportStages rest t
      | .error _ => []

/-- The chain that makes a complete document of a payload and leaves the rest alone. -/
def normalization : List Stage := [.sanitize, .complete {}]

/-! ### The full chain -/

/-- The settings of the full chain. -/
structure PipelineOptions where
  /-- The settings of the skeleton. -/
  skeleton : Skeleton := {}
  /-- The settings of the identity. -/
  identity : Identity := {}
  /-- The settings of the math repairs. -/
  math : MathOptions := {}
deriving Repr, DecidableEq

namespace PipelineOptions

/-- The full chain for a topic. -/
def stages (options : PipelineOptions) (topic : Text) : List Stage :=
  [.sanitize, .complete options.skeleton, .identify topic options.identity] ++
    if options.math.isActive then [.repairMath options.math] else []

/-- The text with a line break at its end. -/
def endLine (t : Text) : Text := if t.endsWith (· == '\n') then t else t ++ ['\n']

/-- **The sheet** that a payload becomes for a topic.  Its text ends with a line break. -/
def document (options : PipelineOptions) (topic raw : Text) : Except Refusal Document :=
  (runStages (options.stages topic) raw).map fun t => ⟨endLine t⟩

end PipelineOptions

end CribSheet
