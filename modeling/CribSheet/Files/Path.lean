/-
Paths.

A path is a text whose names stand between slashes; an empty name between two slashes does not count,
and neither does a dot behind the first name.  A path is kept as it is written, since it is shown to
the reader again.

Main definitions:

* `CribSheet.Path.names` — the names on the way;
* `CribSheet.Path.parent?`, `CribSheet.Path.fileName?` — the path without its last name, and that name;
* `CribSheet.Path.join`, `CribSheet.Path.withFileName`, `CribSheet.Path.withExtension` — other paths.
-/
import CribSheet.Artifact.FileName

set_option relaxedAutoImplicit false
set_option autoImplicit false

namespace CribSheet.Path

/-- The name of a directory for itself. -/
def here : Text := ['.']

/-- The name of a directory for the one that holds it. -/
def above : Text := ['.', '.']

/-- The path starts at the root. -/
def isAbsolute (path : Text) : Bool := path.head? == some '/'

/-- The path ends with a slash, and so can only name a directory. -/
def endsWithSlash (path : Text) : Bool := Text.endsWith (· == '/') path

/-- The names on the way. -/
def names (path : Text) : List Text := (Text.splitOn '/' path).filter (· ≠ [])

/-- The names on the way, without dots behind the first name. -/
def components (path : Text) : List Text :=
  match names path with
  | [] => []
  | name :: rest =>
    if isAbsolute path then (name :: rest).filter (· ≠ here) else name :: rest.filter (· ≠ here)

/-- A path read from its end, without the slashes and dots that add nothing to it. -/
def trimReversed : Text → Text
  | '/' :: [] => ['/']
  | '/' :: c :: path => trimReversed (c :: path)
  | '.' :: '/' :: [] => ['/']
  | '.' :: '/' :: c :: path => trimReversed (c :: path)
  | path => path

/-- The path without the slashes and dots at its end that add nothing to it. -/
def trim (path : Text) : Text := (trimReversed path.reverse).reverse

/-- The path to the directory that holds what the path names; there is none for an empty path and for
the root. -/
def parent? (path : Text) : Option Text :=
  let path := trim path
  if path = [] ∨ path = ['/'] then none
  else
    match Text.cutAtLast? '/' path with
    | some ([], _) => some ['/']
    | some (before, _) => some (trim before)
    | none => some []

/-- The last name of the path, unless it stands for another directory. -/
def fileName? (path : Text) : Option Text :=
  let name :=
    match Text.cutAtLast? '/' (trim path) with
    | some (_, name) => name
    | none => trim path
  if name = [] ∨ name = here ∨ name = above then none else some name

/-- The path that starts at a directory and goes on with another path. -/
def join (directory path : Text) : Text :=
  if isAbsolute path then path
  else if directory = [] ∨ endsWithSlash directory then directory ++ path
  else directory ++ '/' :: path

/-- The path with another last name. -/
def withFileName (path name : Text) : Text :=
  match fileName? path with
  | some _ => join ((parent? path).getD []) name
  | none => join path name

/-- The path with another extension. -/
def withExtension (path extension : Text) : Text :=
  match fileName? path with
  | some name =>
    let path := trim path
    path.take (path.length - name.length) ++ (splitExtension name).1 ++ '.' :: extension
  | none => path

end CribSheet.Path
