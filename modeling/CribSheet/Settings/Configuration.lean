/-
The configuration of the program.

The built-in values are the lowest layer.  Files are put on top of it in their order, and single settings
on top of the files.

Main definitions:

* `CribSheet.Configuration` — the configuration, with the built-in values as defaults;
* `CribSheet.Configuration.setting`, `CribSheet.Configuration.ofSetting` — a configuration as settings,
  and back;
* `CribSheet.Configuration.load` — the configuration with layers and single settings.
-/
import CribSheet.Artifact.FileName
import CribSheet.Files.Tree
import CribSheet.Settings.Section
import CribSheet.Sheet.Pipeline
import CribSheet.Text.Bytes
import CribSheet.Toml.Document
import CribSheet.Typeset.Compile

set_option relaxedAutoImplicit false
set_option autoImplicit false

namespace CribSheet

/-! ### Configurations -/

/-- How artifacts are named. -/
structure ArtifactOptions where
  /-- What their names start with. -/
  lead : Text := defaultArtifactPrefix
  /-- What stands between the words of a slug. -/
  separator : Separator := .underscore
deriving Repr, DecidableEq

/-- The configuration of the program. -/
structure Configuration where
  /-- What a sheet says about itself. -/
  identity : Identity := {}
  /-- The skeleton of a sheet. -/
  skeleton : Skeleton := {}
  /-- The repairs of mathematics. -/
  math : MathOptions := {}
  /-- The names of artifacts. -/
  artifacts : ArtifactOptions := {}
  /-- The compilation of sheets. -/
  compiler : CompilerOptions := {}
deriving Repr, DecidableEq

namespace Configuration

/-- The settings of the full chain. -/
def pipelineOptions (c : Configuration) : PipelineOptions := ⟨c.skeleton, c.identity, c.math⟩

/-- The names of the artifacts of a topic. -/
def artifactNames (c : Configuration) (topic : Text) : ArtifactNames :=
  .ofTopic c.artifacts.lead c.artifacts.separator topic

/-! ### As settings -/

/-- A text as a setting. -/
def textSetting (t : Text) : Setting := .scalar none (.text t)

/-- A truth value as a setting. -/
def booleanSetting (b : Bool) : Setting := .scalar none (.boolean b)

/-- Entries as a table. -/
def tableSetting (es : List (String × Setting)) : Setting :=
  .table none (es.map fun (name, s) => (name.toList, s))

/-- **The configuration as settings.** -/
def setting (c : Configuration) : Setting :=
  tableSetting
    [("identity", tableSetting
       [("title_prefix", textSetting c.identity.titlePrefix),
        ("default_topic", textSetting c.identity.defaultTopic),
        ("attribution", textSetting c.identity.attribution)]),
     ("document", tableSetting [("language", textSetting c.skeleton.language)]),
     ("math", tableSetting
       [("repair_differentials", booleanSetting c.math.repairDifferentials),
        ("isolate_display", booleanSetting c.math.isolateDisplay),
        ("variable", textSetting c.math.variableName)]),
     ("artifacts", tableSetting
       [("prefix", textSetting c.artifacts.lead),
        ("separator", textSetting c.artifacts.separator.name)]),
     ("compile", tableSetting
       [("engines", .list none (c.compiler.engines.map textSetting)),
        ("passes", .scalar none (.integer c.compiler.passes))])]

/-- The identity that a section stands for. -/
def identityOf (f : Field) : Except SettingsFault Identity := do
  let titlePrefix := "title_prefix".toList
  let defaultTopic := "default_topic".toList
  let attribution := "attribution".toList
  let default : Identity := {}
  let s ← f.toSection "Identity".toList [titlePrefix, defaultTopic, attribution]
  return {
    titlePrefix := ← s.read titlePrefix Field.text default.titlePrefix
    defaultTopic := ← s.read defaultTopic Field.text default.defaultTopic
    attribution := ← s.read attribution Field.text default.attribution }

/-- The skeleton that a section stands for. -/
def skeletonOf (f : Field) : Except SettingsFault Skeleton := do
  let language := "language".toList
  let default : Skeleton := {}
  let s ← f.toSection "Skeleton".toList [language]
  return { language := ← s.read language Field.text default.language }

/-- The repairs that a section stands for. -/
def mathOf (f : Field) : Except SettingsFault MathOptions := do
  let repairDifferentials := "repair_differentials".toList
  let isolateDisplay := "isolate_display".toList
  let variableName := "variable".toList
  let default : MathOptions := {}
  let s ← f.toSection "MathOptions".toList [repairDifferentials, isolateDisplay, variableName]
  return {
    repairDifferentials := ← s.read repairDifferentials Field.boolean default.repairDifferentials
    isolateDisplay := ← s.read isolateDisplay Field.boolean default.isolateDisplay
    variableName := ← s.read variableName Field.text default.variableName }

/-- The separators by their names. -/
def separators : List (Text × Separator) :=
  [.underscore, .hyphen].map fun s => (Separator.name s, s)

/-- The naming that a section stands for; neither of its fields may be left out. -/
def artifactsOf (f : Field) : Except SettingsFault ArtifactOptions := do
  let lead := "prefix".toList
  let separator := "separator".toList
  let name := "ArtifactsConfig".toList
  let s ← f.toSection name [lead, separator]
  let lacking (before : Nat) (field : Text) : SettingsFault :=
    if s.isList then .tooShort before ("struct ".toList ++ name ++ " with 2 elements".toList)
    else .missingField field
  match ← s.read? lead Field.text, ← s.read? separator (Field.choice "Separator".toList separators) with
  | none, _ => .error (lacking 0 lead)
  | some _, none => .error (lacking 1 separator)
  | some l, some s => .ok ⟨l, s⟩

/-- The compilation that a section stands for. -/
def compilerOf (f : Field) : Except SettingsFault CompilerOptions := do
  let engines := "engines".toList
  let passes := "passes".toList
  let default : CompilerOptions := {}
  let s ← f.toSection "CompilerOptions".toList [engines, passes]
  return {
    engines := ← s.read engines Field.texts default.engines
    passes := ← s.read passes Field.count default.passes }

/-- A section of settings; none of them may be left out. -/
def sectionOf {α : Type} (settings : Setting) (name : Text) (read : Field → Except SettingsFault α) :
    Except SettingsFault α :=
  match settings.entries.lookup name with
  | some s => read ⟨name, s⟩
  | none => .error (.missingField name)

/-- **The configuration that settings stand for.** -/
def ofSetting (s : Setting) : Except SettingsFault Configuration :=
  return {
    identity := ← sectionOf s "identity".toList identityOf
    skeleton := ← sectionOf s "document".toList skeletonOf
    math := ← sectionOf s "math".toList mathOf
    artifacts := ← sectionOf s "artifacts".toList artifactsOf
    compiler := ← sectionOf s "compile".toList compilerOf }

/-! ### Layers -/

/-- The file of a layer: the path itself, or else the path with an extension. -/
def layerPath? (files : FileTree) (path : Text) : Option Text :=
  let extended := Path.trim path ++ ".toml".toList
  if files.isFile path then some path
  else if (Path.fileName? path).isSome && files.isFile extended then some extended
  else none

/-- The name of a file as the origin of settings. -/
def originName (path : Text) : Text :=
  (if Path.isAbsolute path then ['/'] else []) ++
    Text.joinWith ['/'] ((Path.names path).filter (· ≠ Path.here))

/-- The entries of a layer, each under its path; a name that is no path stands for itself. -/
def layerEntries (origin : Text) (es : List (Text × Toml.Value)) : List (KeyPath × Setting) :=
  es.map fun (name, v) =>
    let path :=
      match KeyPath.ofText name with
      | .ok path => path
      | .error _ => [.name name]
    (path, .ofValue (some origin) v)

/-- The settings of a layer. -/
def readLayer (files : FileTree) (path : Text) : Except SettingsFault (List (KeyPath × Setting)) :=
  match layerPath? files path with
  | none => .error (.missingFile path)
  | some found =>
    let origin := originName found
    match (files.read found).toOption.bind fun bytes => (Text.decode? bytes).bind fun t =>
        Toml.document? (Toml.dropMark t) with
    | some es => .ok (layerEntries origin es)
    | none => .error (.badFile origin)

/-- Settings with others on top of them, one after the other. -/
def setAll (settings : Setting) (more : List (KeyPath × Setting)) : Setting :=
  more.foldl (fun settings (path, s) => settings.set path s) settings

/-- Single settings with one more; it replaces one under the same path. -/
def addSingle (singles : List (KeyPath × Setting)) (path : KeyPath) (s : Setting) :
    List (KeyPath × Setting) :=
  singles.filter (·.1 ≠ path) ++ [(path, s)]

/-- Single settings under their paths. -/
def singlesOf (overrides : List (Text × Setting)) : Except SettingsFault (List (KeyPath × Setting)) :=
  overrides.foldlM
    (fun singles (key, s) =>
      match KeyPath.ofText key with
      | .ok path => .ok (addSingle singles path s)
      | .error fault => .error (.badPath fault))
    []

/-- **The configuration** with the files of some paths and single settings on top of it.  The keys of the
single settings are looked at first. -/
def load (files : FileTree) (layers : List Text) (overrides : List (Text × Setting)) :
    Except SettingsFault Configuration := do
  let singles ← singlesOf overrides
  let below ← layers.foldlM (fun s path => (readLayer files path).map (setAll s)) ({} : Configuration).setting
  ofSetting (setAll below singles)

end Configuration

end CribSheet
