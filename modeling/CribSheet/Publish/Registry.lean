/-
The registry of formats, and publishing through it.

Formats are found by their names.  Publishing serializes a sheet and hands the text back or writes it to
a file; bytes are always written.

Main definitions:

* `CribSheet.Registry`, `CribSheet.Registry.register`, `CribSheet.Registry.get` — the registry;
* `CribSheet.Registry.parse`, `CribSheet.Registry.serialize`, `CribSheet.Registry.serializeWith` — what
  its formats do;
* `CribSheet.Registry.publish` — publishing.
-/
import CribSheet.Publish.Format

set_option relaxedAutoImplicit false
set_option autoImplicit false

namespace CribSheet

/-! ### The registry -/

/-- Formats, in the order of their names. -/
structure Registry where
  /-- The formats. -/
  formats : List Format := []

namespace Registry

/-- The formats with one more in its place; it replaces a format with its name. -/
def insert (f : Format) : List Format → List Format
  | [] => [f]
  | g :: gs =>
    if f.name = g.name then f :: gs
    else if f.name < g.name then f :: g :: gs
    else g :: insert f gs

/-- The registry with one more format. -/
def register (r : Registry) (f : Format) : Registry := ⟨insert f r.formats⟩

/-- The built-in formats; `compiler` says how sheets are compiled. -/
def builtIn (available : Engines) (compiler : CompilerOptions) : Registry :=
  ((({} : Registry).register .latex).register .markdown).register (.pdf available compiler)

/-- The names of the formats. -/
def names (r : Registry) : List Text := r.formats.map Format.name

/-- The format with a name. -/
def find? (r : Registry) (name : Text) : Option Format := r.formats.find? (·.name = name)

/-- The format with a name, or the error that there is none. -/
def get (r : Registry) (name : Text) : Except FormatError Format :=
  match r.find? name with
  | some f => .ok f
  | none => .error (.notFound name)

/-- The format with a name, if it serializes sheets. -/
def serializer (r : Registry) (name : Text) : Except FormatError Format := do
  let f ← r.get name
  if f.serializes then .ok f else .error (.cannotSerialize name)

/-- The sheet that a source in some format describes. -/
def parse (r : Registry) (name source : Text) : Except FormatError Document := do
  let f ← r.get name
  if f.parses then f.parse source else .error (.cannotParse name)

/-- The text of a sheet in some format. -/
def serialize (r : Registry) (name : Text) (doc : Document) : Except FormatError Text := do
  (← r.serializer name).serialize doc

/-- The artifact of a sheet in some format, and the reports about it. -/
def serializeWith (r : Registry) (name : Text) (options : FormatOptions) (doc : Document) :
    List Report × Except FormatError Artifact :=
  match r.serializer name with
  | .ok f => f.serializeWith options doc
  | .error e => ([], .error e)

end Registry

/-! ### Publishing -/

/-- What to publish, and where. -/
structure Order where
  /-- The sheet. -/
  document : Document
  /-- The name of the format. -/
  format : Text
  /-- The file to write. -/
  output : Option Text := none
  /-- The options of the format. -/
  options : FormatOptions := []

/-- What was published. -/
inductive Published
  /-- A text that was not written to a file. -/
  | text (t : Text)
  /-- A file. -/
  | file (path : Text)
deriving Repr, DecidableEq

/-- The files after publishing, the reports, and what was published. -/
structure Publication where
  /-- The files. -/
  files : FileTree
  /-- The reports. -/
  reports : List Report
  /-- What was published. -/
  outcome : Except FormatError Published

/-- **Publish a sheet.** -/
def Registry.publish (r : Registry) (files : FileTree) (order : Order) : Publication :=
  match r.serializeWith order.format order.options order.document with
  | (reports, .error e) => ⟨files, reports, .error e⟩
  | (reports, .ok artifact) =>
    let reports := reports ++ [.published order.format artifact.isBinary order.output.isSome]
    match order.output, artifact with
    | some path, _ =>
      let stored := files.store path artifact.bytes
      ⟨stored.1, reports, (stored.2.map fun _ => .file path).mapError .io⟩
    | none, .text t => ⟨files, reports, .ok (.text t)⟩
    | none, .binary _ => ⟨files, reports, .error .needsOutputPath⟩

end CribSheet
