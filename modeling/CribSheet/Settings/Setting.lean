/-
Settings: values with names, and where they come from.

Settings are layered.  A later table adds its entries to an earlier one, entry by entry; any other value
replaces what was there.  The names of entries are kept in small letters.

Main definitions:

* `CribSheet.Scalar`, `CribSheet.Setting` — settings;
* `CribSheet.Setting.ofValue` — the settings of a TOML value;
* `CribSheet.Setting.merge` — one setting on top of another;
* `CribSheet.Setting.set` — a setting at the end of a path.
-/
import CribSheet.Settings.KeyPath
import CribSheet.Text.Casing
import CribSheet.Toml.Value

set_option relaxedAutoImplicit false
set_option autoImplicit false

namespace CribSheet

/-! ### Settings -/

/-- A value without parts. -/
inductive Scalar
  | nothing
  | boolean (b : Bool)
  | integer (n : Int)
  | float (x : Binary64)
  | text (t : Text)
deriving Repr, DecidableEq

/-- A setting, with the file that it comes from. -/
inductive Setting
  | scalar (origin : Option Text) (value : Scalar)
  | list (origin : Option Text) (items : List Setting)
  | table (origin : Option Text) (entries : List (Text × Setting))
deriving Repr, Inhabited

namespace Setting

/-- No setting at all. -/
def nothing : Setting := .scalar none .nothing

/-- The file that a setting comes from. -/
def origin : Setting → Option Text
  | scalar origin _ => origin
  | list origin _ => origin
  | table origin _ => origin

/-- The entries of a table; nothing else has entries. -/
def entries : Setting → List (Text × Setting)
  | table _ es => es
  | _ => []

/-- The items of a list; nothing else has items. -/
def items : Setting → List Setting
  | list _ its => its
  | _ => []

/-- A table with other entries; anything else becomes a table of no origin. -/
def withEntries (s : Setting) (es : List (Text × Setting)) : Setting :=
  match s with
  | table origin _ => table origin es
  | _ => table none es

/-- A list with other items; anything else becomes a list of no origin. -/
def withItems (s : Setting) (its : List Setting) : Setting :=
  match s with
  | list origin _ => list origin its
  | _ => list none its

mutual

/-- The settings of a TOML value. -/
def ofValue (origin : Option Text) : Toml.Value → Setting
  | .string t => scalar origin (.text t)
  | .integer n => scalar origin (.integer n)
  | .float x => scalar origin (.float x)
  | .boolean b => scalar origin (.boolean b)
  | .moment t => scalar origin (.text t)
  | .array vs => list origin (ofItems origin vs)
  | .table es => table origin (ofEntries origin es)

/-- The settings of several TOML values. -/
def ofItems (origin : Option Text) : List Toml.Value → List Setting
  | [] => []
  | v :: vs => ofValue origin v :: ofItems origin vs

/-- The settings of the entries of a TOML table. -/
def ofEntries (origin : Option Text) : List (Text × Toml.Value) → List (Text × Setting)
  | [] => []
  | (name, v) :: es => (name, ofValue origin v) :: ofEntries origin es

end

/-! ### Merging -/

/-- The name of an entry as it is kept. -/
def keptName (name : Text) : Text := name.toSmall

/-- The entries with another setting under a name, which is made from the one that is there. -/
def alterEntry (name : Text) (change : Option Setting → Setting) :
    List (Text × Setting) → List (Text × Setting)
  | [] => [(name, change none)]
  | (n, s) :: es => if n = name then (n, change (some s)) :: es else (n, s) :: alterEntry name change es

mutual

/-- **One setting on top of another one.**  A table without entries changes nothing that is there. -/
def merge (old : Option Setting) : Setting → Setting
  | table _ [] => old.getD (table none [])
  | table _ es =>
    let below := old.getD nothing
    below.withEntries (mergeEntries below.entries es)
  | s => s

/-- Entries on top of other ones. -/
def mergeEntries (old : List (Text × Setting)) : List (Text × Setting) → List (Text × Setting)
  | [] => old
  | (name, s) :: es => mergeEntries (alterEntry (keptName name) (fun below => merge below s) old) es

end

/-! ### Paths -/

/-- The place of an item in a list of some length; negative numbers count from its end. -/
def place (length : Nat) (index : Int) : Nat :=
  if index < 0 then length - (-index).toNat else index.toNat

/-- Items with another one at a place; a list that is too short is filled up with nothing. -/
def alterItem (i : Nat) (change : Setting → Setting) (its : List Setting) : List Setting :=
  (its ++ List.replicate (i + 1 - its.length) nothing).modify i change

/-- A setting with a change at the end of a path.  What is no table or list on the way becomes one. -/
def alter (change : Option Setting → Setting) : KeyPath → Option Setting → Setting
  | [], s => change s
  | .name name :: path, s =>
    let s := s.getD nothing
    s.withEntries (alterEntry (keptName name) (alter change path) s.entries)
  | .index i :: path, s =>
    let s := s.getD nothing
    s.withItems (alterItem (place s.items.length i) (fun item => alter change path (some item)) s.items)

/-- **The settings with one more at the end of a path.**  A name at the end of the path is merged, an
item of a list is replaced. -/
def set (settings : Setting) (path : KeyPath) (s : Setting) : Setting :=
  let change (old : Option Setting) : Setting :=
    match path.getLast? with
    | some (.index _) => s
    | _ => merge old s
  alter change path (some settings)

end Setting

end CribSheet
