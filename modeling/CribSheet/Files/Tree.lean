/-
A tree of files.

Paths are resolved from one directory, the top of the tree, as an operating system resolves them: every
name but the last must lead to a directory.  The tree holds what is below the top; what is above it is
taken to be directories.

Main definitions:

* `CribSheet.Location`, `CribSheet.Entry`, `CribSheet.FileTree` — trees;
* `CribSheet.FileTree.locate` — the location that a path names;
* `CribSheet.FileTree.read`, `CribSheet.FileTree.write` — the content of files;
* `CribSheet.FileTree.makeDirectories`, `CribSheet.FileTree.store` — directories, and files in them;
* `CribSheet.FileTree.rename` — another location for an entry and what is below it.
-/
import CribSheet.Files.Fault
import CribSheet.Files.Path

set_option relaxedAutoImplicit false
set_option autoImplicit false

namespace CribSheet

/-! ### Trees -/

/-- A place in a tree: the names that lead to it from the top. -/
abbrev Location := List Text

/-- What stands at a location. -/
inductive Entry
  | file (content : ByteArray)
  | directory

/-- The entry is a directory. -/
def Entry.isDirectory : Entry → Bool
  | .directory => true
  | .file _ => false

/-- The entries below the top of a tree. -/
structure FileTree where
  /-- The entries with their locations, in the order in which they are listed. -/
  entries : List (Location × Entry) := []

namespace Location

/-- The root of all files. -/
def root : Location := [['/']]

/-- The location is the top, or outside of the tree and a directory. -/
def isAbove (loc : Location) : Bool := loc = root || loc.all (· == Path.above)

/-- The directory that holds a location. -/
def parent (loc : Location) : Location :=
  if loc = root then root else if loc.isAbove then loc ++ [Path.above] else loc.dropLast

/-- The location that a name leads to. -/
def child (loc : Location) (name : Text) : Location :=
  if name = Path.here then loc else if name = Path.above then loc.parent else loc ++ [name]

end Location

namespace FileTree

/-- What stands at a location. -/
def find? (tree : FileTree) (loc : Location) : Option Entry :=
  if loc.isAbove then some .directory else tree.entries.lookup loc

/-- The tree with an entry at a location. -/
def put (tree : FileTree) (loc : Location) (entry : Entry) : FileTree :=
  if tree.entries.any (·.1 == loc) then
    ⟨tree.entries.map fun (l, e) => if l = loc then (l, entry) else (l, e)⟩
  else ⟨tree.entries ++ [(loc, entry)]⟩

/-! ### Paths -/

/-- The longest name, in bytes. -/
def longestName : Nat := 255

/-- The directory that some names lead to from another one. -/
def reach (tree : FileTree) : Location → List Text → Except FileFault Location
  | loc, [] => .ok loc
  | loc, name :: rest =>
    if longestName < Text.size name then .error .nameTooLong
    else
      match tree.find? (loc.child name) with
      | none => .error .notFound
      | some (.file _) => .error .notDirectory
      | some .directory => tree.reach (loc.child name) rest

/-- Where a path starts. -/
def start (path : Text) : Location := if Path.isAbsolute path then Location.root else []

/-- **The location that a path names**, whether or not something is there. -/
def locate (tree : FileTree) (path : Text) : Except FileFault Location :=
  if '\x00' ∈ path then .error .nulInPath
  else
    match (Path.names path).getLast? with
    | none => if Path.isAbsolute path then .ok Location.root else .error .notFound
    | some name => do
      let loc ← tree.reach (start path) (Path.names path).dropLast
      if longestName < Text.size name then .error .nameTooLong else .ok (loc.child name)

/-- What a path names. -/
def entry? (tree : FileTree) (path : Text) : Option Entry :=
  match tree.locate path with
  | .ok loc => tree.find? loc
  | .error _ => none

/-- The path names something. -/
def exists? (tree : FileTree) (path : Text) : Bool :=
  match tree.entry? path with
  | some (.file _) => !Path.endsWithSlash path
  | some .directory => true
  | none => false

/-- The path names a directory. -/
def isDirectory (tree : FileTree) (path : Text) : Bool := (tree.entry? path).any Entry.isDirectory

/-- The path names a file. -/
def isFile (tree : FileTree) (path : Text) : Bool := tree.exists? path && !tree.isDirectory path

/-! ### Files -/

/-- The content of the file that a path names. -/
def read (tree : FileTree) (path : Text) : Except FileFault ByteArray := do
  let loc ← tree.locate path
  match tree.find? loc with
  | none => .error .notFound
  | some .directory => .error .isDirectory
  | some (.file content) => if Path.endsWithSlash path then .error .notDirectory else .ok content

/-- The tree with a file at a path; a file that is there is replaced. -/
def write (tree : FileTree) (path : Text) (content : ByteArray) : Except FileFault FileTree := do
  let loc ← tree.locate path
  if Path.endsWithSlash path ∨ (tree.find? loc).any Entry.isDirectory then .error .isDirectory
  else .ok (tree.put loc (.file content))

/-! ### Directories -/

/-- The tree with a new directory at the end of some names. -/
def makeDirectory (tree : FileTree) (absolute : Bool) (names : List Text) : Except FileFault FileTree := do
  let path := (if absolute then ['/'] else []) ++ Text.joinWith ['/'] names
  let loc ← tree.locate path
  match tree.find? loc with
  | some _ => .error .alreadyExists
  | none => .ok (tree.put loc .directory)

/-- The tree with a directory at the end of some names, which are given backwards, and with every
directory on the way.  What could be made stays even if not all could. -/
def makeDirectories (tree : FileTree) (absolute : Bool) (reversed : List Text) :
    FileTree × Except FileFault Unit :=
  match reversed with
  | [] => (tree, .ok ())
  | name :: before =>
    let names := before.reverse ++ [name]
    let path := (if absolute then ['/'] else []) ++ Text.joinWith ['/'] names
    let orKeep (tree : FileTree) (fault : FileFault) : FileTree × Except FileFault Unit :=
      (tree, if tree.isDirectory path then .ok () else .error fault)
    match tree.makeDirectory absolute names with
    | .ok tree => (tree, .ok ())
    | .error .notFound =>
      match makeDirectories tree absolute before with
      | (tree, .error fault) => (tree, .error fault)
      | (tree, .ok ()) =>
        match tree.makeDirectory absolute names with
        | .ok tree => (tree, .ok ())
        | .error fault => orKeep tree fault
    | .error fault => orKeep tree fault

/-- **Store a file**, with the directories on the way to it.  What could be made stays even if the file
could not. -/
def store (tree : FileTree) (path : Text) (content : ByteArray) : FileTree × Except FileFault Unit :=
  match
    match Path.parent? path with
    | some parent => tree.makeDirectories (Path.isAbsolute parent) (Path.components parent).reverse
    | none => (tree, .ok ())
  with
  | (tree, .error fault) => (tree, .error fault)
  | (tree, .ok ()) =>
    match tree.write path content with
    | .ok tree => (tree, .ok ())
    | .error fault => (tree, .error fault)

/-! ### Moving -/

/-- The tree with everything at and below one location at another one instead.  What stood at and below the
other one is gone, unless it moves. -/
def move (tree : FileTree) (source target : Location) : FileTree :=
  let kept := tree.entries.filter fun (loc, _) => source.isPrefixOf loc || !target.isPrefixOf loc
  ⟨kept.map fun (loc, e) =>
    if source.isPrefixOf loc then (target ++ loc.drop source.length, e) else (loc, e)⟩

/-- **The tree with another location for an entry**, with all that is below it. -/
def rename (tree : FileTree) (source target : Location) : Except FileFault FileTree :=
  if (tree.find? source).isNone then .error .notFound
  else if target.getLast?.any fun name => longestName < Text.size name then .error .nameTooLong
  else .ok (tree.move source target)

end FileTree

end CribSheet
