/-
The command line.

The program itself is a function on files (`CribSheet.program`).  Here the files that a request looks at
are read, the program is run on them, and what has changed is written back.  No engine can be started from
here, so that compiled sheets degrade to their source.  The names below a directory that is to be renamed
are taken from the input, one path a line, as a walk of the directory prints them; a directory has a slash
at its end.

Main definitions:

* `CribSheet.Request.paths`, `CribSheet.Request.usesInput` — what a request looks at;
* `main` — the command line.
-/
import CribSheet.Cli.Program

set_option relaxedAutoImplicit false
set_option autoImplicit false

namespace CribSheet

/-! ### What a request looks at -/

/-- The paths of a configuration file. -/
def configPaths (config : Option Text) : List Text :=
  config.toList.flatMap fun path => [path, Path.trim path ++ ".toml".toList]

/-- The paths that a request looks at. -/
def Request.paths : Request → List Text
  | .build b => b.input.toList ++ configPaths b.config ++ b.output.toList ++ b.directory.toList
  | .slug _ _ config => configPaths config
  | .formats => []
  | .rename directory => [directory]

/-- The request reads the input. -/
def Request.usesInput : Request → Bool
  | .build b => b.input = none || b.input = some ['-']
  | .rename _ => true
  | _ => false

/-- The paths below a directory that the input lists, if the request renames them. -/
def Request.listed (input : ByteArray) : Request → List Text
  | .rename _ => (Text.lines ((Text.decode? input).getD [])).filter (· ≠ [])
  | _ => []

/-! ### Reading and writing -/

/-- The path of a location. -/
def Location.path (loc : Location) : String := String.ofList (Text.joinWith ['/'] loc)

/-- The tree with a directory at a path. -/
def FileTree.withDirectory (tree : FileTree) (path : Text) : FileTree :=
  (tree.makeDirectories (Path.isAbsolute path) (Path.components path).reverse).1

/-- The tree with an entry at a path whose content does not matter. -/
def FileTree.withListed (tree : FileTree) (path : Text) : FileTree :=
  if Path.endsWithSlash path then tree.withDirectory path else (tree.store path .empty).1

/-- The tree with what is found at a path. -/
def lookUp (tree : FileTree) (path : Text) : IO FileTree := do
  try
    return (tree.store path (← IO.FS.readBinFile (String.ofList path))).1
  catch
    | .inappropriateType _ 21 _ => return tree.withDirectory path
    | _ => return tree

/-- Give entries their new names, the deepest ones first. -/
def applyNames (changes : List (Location × Location)) : IO Unit := do
  let deepest := changes.foldl (fun d c => max d c.1.length) 0
  for depth in (List.range (deepest + 1)).reverse do
    for (old, new) in changes do
      if old.length = depth ∧ old.getLast? ≠ new.getLast? then
        IO.FS.rename old.path (Location.path (old.dropLast ++ new.getLast?.toList))

/-- Write what a run of the program has changed.  Entries keep their places in the tree, and new ones
follow them. -/
def writeBack (before after : FileTree) : IO Unit := do
  applyNames ((before.entries.map (·.1)).zip (after.entries.map (·.1)))
  for (loc, e) in after.entries do
    match e, before.find? loc with
    | .directory, none => IO.FS.createDirAll loc.path
    | .file new, some (.file old) => if new.data != old.data then IO.FS.writeBinFile loc.path new
    | .file new, _ => if !new.isEmpty then IO.FS.writeBinFile loc.path new
    | .directory, _ => pure ()

end CribSheet

open CribSheet in
/-- **The command line.** -/
def main (arguments : List String) : IO UInt32 := do
  let words := arguments.map String.toList
  let request := (Invocation.ofWords words).toOption.bind Invocation.request
  let input ←
    if request.any Request.usesInput then (← IO.getStdin).readBinToEnd else pure .empty
  let found ← (request.elim [] Request.paths).foldlM lookUp {}
  let files := (request.elim [] (Request.listed input)).foldl FileTree.withListed found
  let outcome := program { input, files } words
  try
    writeBack files outcome.files
    IO.print (String.ofList outcome.output)
    match outcome.complaint with
    | .usage => IO.eprint (String.ofList usageText)
    | .notes t => IO.eprint (String.ofList t)
    return outcome.status.toUInt32
  catch e =>
    IO.eprintln s!"error: {e}"
    return 1
