/-
The values of a TOML document, and how its tables grow.

A table may be opened by a header, or it exists because the header of a table below it or a dotted key
names it.  How it came to be decides what may still be added to it: a header opens a table once, and a
dotted key only extends tables that dotted keys have made.

Main definitions:

* `CribSheet.Toml.Value` — finished values;
* `CribSheet.Toml.TableKind`, `CribSheet.Toml.Item` — what names stand for while a document is read;
* `CribSheet.Toml.alter` — a change to the table behind some names;
* `CribSheet.Toml.insert`, `CribSheet.Toml.openTable`, `CribSheet.Toml.openElement` — the three ways in
  which tables grow;
* `CribSheet.Toml.Item.finish` — the finished value of an item.
-/
import CribSheet.Number.Binary64

set_option relaxedAutoImplicit false
set_option autoImplicit false

namespace CribSheet.Toml

/-! ### Values -/

/-- A finished value. -/
inductive Value
  | string (t : Text)
  | integer (n : Int)
  | float (x : Binary64)
  | boolean (b : Bool)
  /-- A date, a time, or both, in its standard form. -/
  | moment (t : Text)
  | array (items : List Value)
  | table (entries : List (Text × Value))
deriving Repr

/-- How a table came to be. -/
inductive TableKind
  /-- It has a header of its own, or is the document. -/
  | headed
  /-- A header names a table below it. -/
  | implied
  /-- A dotted key names something in it. -/
  | dotted
deriving Repr, DecidableEq

/-- What a name stands for while a document is read. -/
inductive Item
  /-- A value; nothing can be added to it. -/
  | value (v : Value)
  /-- A table. -/
  | table (kind : TableKind) (entries : List (Text × Item))
  /-- Tables under one header, of which the last one is still open. -/
  | tables (earlier : List (List (Text × Item))) (last : List (Text × Item))

/-- The entries of a table that is still open. -/
abbrev Entries := List (Text × Item)

/-! ### Growing tables -/

/-- The entries with another item under a name that they hold. -/
def Entries.replace (es : Entries) (name : Text) (item : Item) : Entries :=
  es.map fun e => if e.1 = name then (name, item) else e

/-- The entries with one more. -/
def Entries.add (es : Entries) (name : Text) (item : Item) : Entries := es ++ [(name, item)]

/-- **The entries after a change to the table behind some names.**  The change is given the kind of that
table and its entries.  Tables that are missing on the way are made.  The way leads through the last of
several tables, and never through a value; a dotted key does not lead through a table with a header. -/
def alter (isDotted : Bool) (change : TableKind → Entries → Option Entries) :
    (names : List Text) → TableKind → Entries → Option Entries
  | [], kind, es => change kind es
  | name :: names, _, es =>
    match es.lookup name with
    | none =>
      let kind := if isDotted then TableKind.dotted else .implied
      (alter isDotted change names kind []).map fun below => es.add name (.table kind below)
    | some (.table kind below) =>
      if isDotted && kind = .headed then none
      else (alter isDotted change names kind below).map fun below => es.replace name (.table kind below)
    | some (.tables earlier last) =>
      (alter isDotted change names .headed last).map fun last => es.replace name (.tables earlier last)
    | some (.value _) => none

/-- The entries with a value under a key.  A dotted key ends in a table that dotted keys have made, a
plain one in a table that they have not; the last name of the key must be new. -/
def insert (key : List Text) (v : Value) (kind : TableKind) (es : Entries) : Option Entries :=
  match key.getLast? with
  | none => none
  | some name =>
    let path := key.dropLast
    let change (kind : TableKind) (es : Entries) : Option Entries :=
      if kind = .dotted ↔ path = [] then none
      else if (es.lookup name).isSome then none
      else some (es.add name (.value v))
    alter (path ≠ []) change path kind es

/-- The entries of the table behind a header, changed; the header starts at the document. -/
def alterHeaded (header : List Text) (change : Text → Entries → Option Entries) (es : Entries) :
    Option Entries :=
  match header.getLast? with
  | none => none
  | some name => alter false (fun _ => change name) header.dropLast .headed es

/-- The document with a table under a header.  The table is new, or it was only implied so far. -/
def openTable (header : List Text) (es : Entries) : Option Entries :=
  alterHeaded header
    (fun name es =>
      match es.lookup name with
      | none => some (es.add name (.table .headed []))
      | some (.table .implied below) => some (es.replace name (.table .headed below))
      | some _ => none)
    es

/-- The document with one more of the tables under a header. -/
def openElement (header : List Text) (es : Entries) : Option Entries :=
  alterHeaded header
    (fun name es =>
      match es.lookup name with
      | none => some (es.add name (.tables [] []))
      | some (.tables earlier last) => some (es.replace name (.tables (earlier ++ [last]) []))
      | some _ => none)
    es

/-! ### Finished tables -/

mutual

/-- The finished value of an item. -/
def Item.finish : Item → Value
  | .value v => v
  | .table _ es => .table (finishEntries es)
  | .tables earlier last => .array (finishTables earlier ++ [.table (finishEntries last)])

/-- The finished values of entries. -/
def finishEntries : Entries → List (Text × Value)
  | [] => []
  | (name, item) :: es => (name, item.finish) :: finishEntries es

/-- The finished values of several tables. -/
def finishTables : List Entries → List Value
  | [] => []
  | es :: tables => .table (finishEntries es) :: finishTables tables

end

end CribSheet.Toml
