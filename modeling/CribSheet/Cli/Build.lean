/-
Building a sheet on request.

The steps come in a fixed order: configuration, format, payload, sheet, artifact.  The files change only in
the last one.  A compiled sheet that no engine can make degrades to its source.

Main definitions:

* `CribSheet.Surroundings` — what the program works with;
* `CribSheet.BuildRequest.configuration`, `CribSheet.BuildRequest.payload` — what is read first;
* `CribSheet.BuildRequest.destination` — where the artifact goes;
* `CribSheet.buildSheet` — the whole work.
-/
import CribSheet.Cli.Console
import CribSheet.Cli.Request
import CribSheet.Publish.Registry
import CribSheet.Settings.Configuration

set_option relaxedAutoImplicit false
set_option autoImplicit false

namespace CribSheet

/-- What the program works with. -/
structure Surroundings where
  /-- The engines that can be started. -/
  engines : Engines := fun _ => none
  /-- The input. -/
  input : ByteArray := .empty
  /-- The files. -/
  files : FileTree := {}

/-- The configuration, perhaps with a file and without repairs of mathematics. -/
def readConfiguration (files : FileTree) (config : Option Text) (skipsMath : Bool) :
    Except ProgramError Configuration :=
  let off (key : String) : Text × Setting := (key.toList, .scalar none (.boolean false))
  let overrides :=
    if skipsMath then [off "math.repair_differentials", off "math.isolate_display"] else []
  (Configuration.load files config.toList overrides).mapError .settings

namespace BuildRequest

/-- The configuration of the request. -/
def configuration (b : BuildRequest) (files : FileTree) : Except ProgramError Configuration :=
  readConfiguration files b.config b.skipsMath

/-- The bytes of the payload. -/
def payloadBytes (b : BuildRequest) (s : Surroundings) : Except FileFault ByteArray :=
  match b.input with
  | none => .ok s.input
  | some path => if path = ['-'] then .ok s.input else s.files.read path

/-- The payload. -/
def payload (b : BuildRequest) (s : Surroundings) : Except ProgramError Text :=
  match b.payloadBytes s with
  | .error fault => .error (.load (.unreadable fault))
  | .ok bytes => (Payload.ofBytes bytes).mapError .load

/-- The name of the artifact in a format. -/
def artifactName (names : ArtifactNames) (format : Text) : Text :=
  if format = "latex".toList then names.source
  else if format = Format.pdfName then names.pdf
  else if format = "markdown".toList then names.withExtension "md".toList
  else names.withExtension format

/-- The file to write; a compiled sheet always has one. -/
def destination (b : BuildRequest) (names : ArtifactNames) : Option Text :=
  match b.output, b.directory with
  | some path, _ => some path
  | none, some directory => some (Path.join directory (artifactName names b.format))
  | none, none => if b.format = Format.pdfName then some names.pdf else none

/-- The order to publish a sheet. -/
def order (b : BuildRequest) (names : ArtifactNames) (doc : Document) : Order where
  document := doc
  format := b.format
  output := b.destination names
  options := if b.format = Format.pdfName then [("stem".toList, names.stem)] else []

end BuildRequest

/-- What is told about something published: a text itself, or the path of a file. -/
def Published.shown : Published → Text
  | .text t => t
  | .file path => path ++ ['\n']

/-- What publishing leaves. -/
def Publication.work (p : Publication) : Work where
  files := p.files
  notes := notesOf p.reports
  result := (p.outcome.map Published.shown).mapError .format

/-- The source of a sheet instead of the compiled sheet, for which these engines were tried. -/
def degrade (r : Registry) (files : FileTree) (doc : Document) (path : Text) (tried : List Text) : Work :=
  let source := Path.withExtension path "tex".toList
  let warning := "warning: no LaTeX engine available (tried: ".toList ++
    Text.joinWith [',', ' '] tried ++ "); writing the LaTeX source instead".toList
  (r.publish files { document := doc, format := "latex".toList, output := some source }).work.after
    [.report (.degraded tried source), .line warning]

/-- The work of publishing a sheet. -/
def publishSheet (r : Registry) (b : BuildRequest) (files : FileTree) (names : ArtifactNames)
    (doc : Document) : Work :=
  let p := r.publish files (b.order names doc)
  match p.outcome with
  | .error (.compile (.unavailable tried)) =>
    (degrade r p.files doc ((b.destination names).getD names.pdf) tried).after (notesOf p.reports)
  | .error (.compile (.failed engine pass log)) =>
    { files := p.files
      notes := notesOf p.reports ++ [.line log]
      result := .error (.format (.compile (.failed engine pass log))) }
  | _ => p.work

/-- **Build a sheet.** -/
def buildSheet (s : Surroundings) (b : BuildRequest) : Work :=
  let ready := do
    let c ← b.configuration s.files
    let r := Registry.builtIn s.engines c.compiler
    let _ ← (r.get b.format).mapError ProgramError.format
    return (c, r, ← b.payload s)
  match ready with
  | .error e => { files := s.files, result := .error e }
  | .ok (c, r, raw) =>
    let told := notesOf (reportStages (c.pipelineOptions.stages b.topic) raw)
    match Payload.normalize c.pipelineOptions b.topic raw with
    | .error e => { files := s.files, notes := told, result := .error (.load e) }
    | .ok doc =>
      let names := c.artifactNames b.topic
      let built := Report.built b.format names.slug doc.text.size
      (publishSheet r b s.files names doc).after (told ++ [.report built])

end CribSheet
