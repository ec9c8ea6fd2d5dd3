/-
TOML documents.

A document is read as a list of statements, which are then carried out one after the other on an empty
table.  A document that cannot be read has no value; why is not told.

Main definitions:

* `CribSheet.Toml.readKey?` — a key, and what follows it;
* `CribSheet.Toml.readValue?` — a value, and what follows it;
* `CribSheet.Toml.Statement`, `CribSheet.Toml.statements?` — the statements of a document;
* `CribSheet.Toml.document?` — the entries of a document.
-/
import CribSheet.Toml.Moment
import CribSheet.Toml.Numeral
import CribSheet.Toml.Quoted

set_option relaxedAutoImplicit false
set_option autoImplicit false

namespace CribSheet.Toml

/-! ### Keys -/

/-- The characters of a name without quotes. -/
def isNameChar (c : Char) : Bool := c.isAlphanum || c == '_' || c == '-'

/-- One name of a key, and what follows it. -/
def readName? (t : Text) : Option (Text × Text) :=
  match readLine? t with
  | some found => some found
  | none =>
    let name := t.takeWhile isNameChar
    if name = [] then none else some (name, t.dropWhile isNameChar)

/-- A key of at most `longest` names with points between them, and what follows it. -/
def readKeyUpTo? : (longest : Nat) → Text → Option (List Text × Text)
  | 0, _ => none
  | longest + 1, t => do
    let (name, t) ← readName? (skipBlanks t)
    match skipBlanks t with
    | '.' :: t => do
      let (names, t) ← readKeyUpTo? longest t
      some (name :: names, t)
    | t => some ([name], t)

/-- The number of names of the longest key, and of values inside each other. -/
def deepest : Nat := 79

/-- **A key, and what follows it.** -/
def readKey? (t : Text) : Option (List Text × Text) := readKeyUpTo? deepest t

/-! ### Values -/

/-- A reader of values: a value, and what follows it. -/
abbrev ValueReader := Text → Option (Value × Text)

/-- A value that holds no other values, and what follows it. -/
def readScalar? : ValueReader
  | 't' :: 'r' :: 'u' :: 'e' :: t => some (.boolean true, t)
  | 'f' :: 'a' :: 'l' :: 's' :: 'e' :: t => some (.boolean false, t)
  | t =>
    match readQuoted? t with
    | some (s, t) => some (.string s, t)
    | none =>
      match readMoment? t with
      | some (s, t) => some (.moment s, t)
      | none => readNumber? t

/-- A key with its value, and what follows them. -/
def readPair? (read : ValueReader) (t : Text) : Option ((List Text × Value) × Text) := do
  let (key, t) ← readKey? t
  let t ← Text.after? ['='] t
  let (v, t) ← read (skipBlanks t)
  some ((key, v), t)

/-- The rest of an array, and what follows it.  Every item is at least one character long, and `left`
bounds their number. -/
def readItems? (read : ValueReader) : (left : Nat) → Text → Option (List Value × Text)
  | 0, _ => none
  | left + 1, t => do
    match ← skipGap false t with
    | ']' :: t => some ([], t)
    | t => do
      let (v, t) ← read t
      match ← skipGap false t with
      | ']' :: t => some ([v], t)
      | ',' :: t => do
        let (vs, t) ← readItems? read left t
        some (v :: vs, t)
      | _ => none

/-- The rest of a table in braces, and what follows it. -/
def readPairs? (read : ValueReader) :
    (left : Nat) → Text → Option (List (List Text × Value) × Text)
  | 0, _ => none
  | left + 1, t => do
    let (pair, t) ← readPair? read t
    match skipBlanks t with
    | '}' :: t => some ([pair], t)
    | ',' :: t => do
      let (pairs, t) ← readPairs? read left t
      some (pair :: pairs, t)
    | _ => none

/-- A table of keys and values. -/
def tableOf? (pairs : List (List Text × Value)) : Option Value :=
  (pairs.foldlM (fun es (key, v) => insert key v .headed es) []).map fun es => .table (finishEntries es)

/-- The rest of a table in braces as a value, and what follows it. -/
def readTable? (read : ValueReader) (t : Text) : Option (Value × Text) :=
  match skipBlanks t with
  | '}' :: t => some (.table [], t)
  | t => do
    let (pairs, t) ← readPairs? read (t.length + 1) t
    return (← tableOf? pairs, t)

/-- **A value, and what follows it.**  It holds other values at most `depth` deep. -/
def readValue? : (depth : Nat) → ValueReader
  | 0 => readScalar?
  | depth + 1 => fun t =>
    match t with
    | '[' :: t => (readItems? (readValue? depth) (t.length + 1) t).map fun (vs, t) => (.array vs, t)
    | '{' :: t => readTable? (readValue? depth) t
    | t => readScalar? t

/-! ### Statements -/

/-- What one line of a document says. -/
inductive Statement
  /-- A value under a key of the open table. -/
  | pair (key : List Text) (v : Value)
  /-- A header that opens a table. -/
  | table (header : List Text)
  /-- A header that opens one more of several tables. -/
  | element (header : List Text)
deriving Repr

/-- A statement, and what follows it. -/
def readStatement? : Text → Option (Statement × Text)
  | '[' :: '[' :: t => do
    let (header, t) ← readKey? t
    return (.element header, ← Text.after? [']', ']'] t)
  | '[' :: t => do
    let (header, t) ← readKey? t
    return (.table header, ← Text.after? [']'] t)
  | t => do
    let ((key, v), t) ← readPair? (readValue? deepest) t
    return (.pair key v, t)

/-- The statements of a text.  Every statement is at least one character long, and `left` bounds their
number. -/
def readStatements? : (left : Nat) → Text → Option (List Statement)
  | 0, _ => none
  | left + 1, t => do
    match ← skipGap false t with
    | [] => some []
    | t => do
      let (s, t) ← readStatement? t
      return s :: (← readStatements? left (← afterLine t))

/-- A text without the mark that may stand at its start. -/
def dropMark : Text → Text
  | '\uFEFF' :: t => t
  | t => t

/-- The statements of a document. -/
def statements? (t : Text) : Option (List Statement) := readStatements? (t.length + 1) (dropMark t)

/-! ### Documents -/

/-- A document while its statements are carried out: its entries, and the header of the open table. -/
structure Draft where
  /-- The entries. -/
  entries : Entries := []
  /-- The header of the open table; the document itself has none. -/
  header : List Text := []

/-- The draft after one more statement. -/
def Draft.apply? (draft : Draft) : Statement → Option Draft
  | .pair key v => do
    let es ← alter false (insert key v) draft.header .headed draft.entries
    some { draft with entries := es }
  | .table header => (openTable header draft.entries).map fun es => ⟨es, header⟩
  | .element header => (openElement header draft.entries).map fun es => ⟨es, header⟩

/-- **The entries of a document.** -/
def document? (t : Text) : Option (List (Text × Value)) := do
  let draft ← (← statements? t).foldlM Draft.apply? {}
  some (finishEntries draft.entries)

end CribSheet.Toml
