/-
Putting the names of a whole tree in title case.

Every name below a directory that holds a blank is put in title case.  Hidden entries, and directories
that belong to tools, are left alone with all that is in them.  The deepest entries come first, so that
the names that lead to an entry have not changed yet when its turn comes.  A name that is taken is left to
its owner.

Main definitions:

* `CribSheet.isVisible` — the names that are looked at;
* `CribSheet.FileTree.visibleBelow`, `CribSheet.deepestFirst` — the entries that are visited, in order;
* `CribSheet.Renaming` — what happens to a name;
* `CribSheet.FileTree.renameAll`, `CribSheet.FileTree.renameBelow` — the tree afterwards.
-/
import CribSheet.Files.Tree
import CribSheet.Journal

set_option relaxedAutoImplicit false
set_option autoImplicit false

namespace CribSheet

/-! ### Visited entries -/

/-- Directories that belong to tools. -/
def toolNames : List Text :=
  [".git".toList, ".github".toList, ".hg".toList, ".svn".toList, ".venv".toList, ".vscode".toList,
   "__pycache__".toList, "node_modules".toList, "target".toList]

/-- The name is neither hidden nor that of a tool. -/
def isVisible (name : Text) : Bool := name.head? != some '.' && !toolNames.contains name

/-- An entry below a directory: the names that lead to it from there, and what it is. -/
abbrev Visit := List Text × Entry

/-- The entries below a location that visible names lead to. -/
def FileTree.visibleBelow (tree : FileTree) (base : Location) : List Visit :=
  tree.entries.filterMap fun (loc, e) =>
    let names := loc.drop base.length
    if base.isPrefixOf loc && names ≠ [] && names.all isVisible then some (names, e) else none

/-- The entries by their depth, the deepest ones first. -/
def deepestFirst (visits : List Visit) : List Visit :=
  let deepest := visits.foldl (fun d v => max d v.1.length) 0
  (List.range (deepest + 1)).reverse.flatMap fun depth => visits.filter (·.1.length = depth)

/-! ### New names -/

/-- The name that an entry is given, if it is given another one. -/
def newName? (name : Text) : Option Text :=
  let titled := titleCaseFileName name
  if name.any isBlank && titled ≠ name then some titled else none

/-- The location beside another one; no name at all stands for the directory itself. -/
def Location.beside (loc : Location) (name : Text) : Location :=
  if name = [] then loc.parent else loc.parent.child name

/-- What happens to an entry, which names below a directory lead to. -/
inductive Renaming
  /-- It has a new name. -/
  | done (names : List Text) (name : Text) (isDirectory : Bool)
  /-- It keeps its name, since the new one is taken. -/
  | skipped (names : List Text) (name : Text)
deriving Repr, DecidableEq

namespace Renaming

/-- The path to an entry below a directory. -/
def path (directory : Text) (names : List Text) : Text := names.foldl Path.join directory

/-- The report about an entry below a directory. -/
def report (directory : Text) : Renaming → Report
  | done names name _ => .renamed (path directory names) (Path.withFileName (path directory names) name)
  | skipped names name =>
    .renameSkipped (path directory names) (Path.withFileName (path directory names) name)

/-- A file was renamed. -/
def isFile : Renaming → Bool
  | done _ _ isDirectory => !isDirectory
  | skipped _ _ => false

/-- A directory was renamed. -/
def isDirectory : Renaming → Bool
  | done _ _ isDirectory => isDirectory
  | skipped _ _ => false

/-- A name was taken. -/
def isSkipped : Renaming → Bool
  | done _ _ _ => false
  | skipped _ _ => true

end Renaming

/-! ### Renaming -/

/-- What is left of a tree after renaming: what happened to its entries, and why the work ended early, if
it did. -/
structure RenamedTree where
  /-- The tree. -/
  tree : FileTree
  /-- What happened. -/
  renamings : List Renaming := []
  /-- Why the work ended early. -/
  fault : Option FileFault := none

/-- The result with one more thing that happened before. -/
def RenamedTree.after (r : Renaming) (result : RenamedTree) : RenamedTree :=
  { result with renamings := r :: result.renamings }

/-- The tree after some visits to entries below a location. -/
def FileTree.renameAll (base : Location) : List Visit → FileTree → RenamedTree
  | [], tree => { tree }
  | (names, e) :: visits, tree =>
    match names.getLast?.bind newName? with
    | none => renameAll base visits tree
    | some name =>
      let source := base ++ names
      let target := source.beside name
      if (tree.find? target).isSome then (renameAll base visits tree).after (.skipped names name)
      else
        match tree.rename source target with
        | .error fault => { tree, fault := some fault }
        | .ok tree => (renameAll base visits tree).after (.done names name e.isDirectory)

/-- **The tree with the names below a location in title case.** -/
def FileTree.renameBelow (tree : FileTree) (base : Location) : RenamedTree :=
  tree.renameAll base (deepestFirst (tree.visibleBelow base))

end CribSheet
