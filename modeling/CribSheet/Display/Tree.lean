/-
The display tree: a sheet as a reader sees it, without its LaTeX.

Blocks hold inlines; lists hold items, and an item is a list of blocks.  The first ordered list of a
sheet is numbered and every later one lettered, since sheets use nested enumerations for sub-steps.  Ordered
lists are counted in a machine word.

Main definitions:

* `CribSheet.Inline`, `CribSheet.Block` — the tree;
* `CribSheet.Inline.isBlank` — nothing visible is left of an inline;
* `CribSheet.nextCount` — the count with one more ordered list;
* `CribSheet.ListKind.label` — the label of an item.
-/
import CribSheet.Text.Blank

set_option relaxedAutoImplicit false
set_option autoImplicit false

namespace CribSheet

/-! ### Inlines -/

/-- A piece of running text. -/
inductive Inline
  /-- Characters as they are. -/
  | text (t : Text)
  /-- Strong emphasis. -/
  | strong (children : List Inline)
  /-- Emphasis. -/
  | emphasis (children : List Inline)
  /-- A formula, without its delimiters. -/
  | math (body : Text)
  /-- A link that shows its address. -/
  | link (url : Text)
  /-- A line break. -/
  | lineBreak
deriving Repr

namespace Inline

mutual

/-- The inline shows nothing. -/
def isBlank : Inline → Bool
  | text t => t.isBlankText
  | strong children => areBlank children
  | emphasis children => areBlank children
  | math _ => false
  | link _ => false
  | lineBreak => true

/-- None of the inlines shows anything. -/
def areBlank : List Inline → Bool
  | [] => true
  | i :: rest => i.isBlank && areBlank rest

end

/-- The inlines with neighbouring texts joined and empty texts dropped. -/
def merge : List Inline → List Inline
  | [] => []
  | text t :: rest =>
    match merge rest with
    | text u :: rest' => text (t ++ u) :: rest'
    | rest' => if t = [] then rest' else text t :: rest'
  | i :: rest => i :: merge rest

/-- The inlines with the blanks at the start of a first text dropped. -/
def trimFirst : List Inline → List Inline
  | text t :: rest => text t.trimStart :: rest
  | content => content

/-- The inlines with the blanks at the end of a last text dropped. -/
def trimLast : List Inline → List Inline
  | [] => []
  | [text t] => [text t.trimEnd]
  | i :: rest => i :: trimLast rest

/-- The inline is a text without characters. -/
def isEmptyText : Inline → Bool
  | text [] => true
  | _ => false

/-- The inlines without blanks at their edges; a text that becomes empty is dropped. -/
def trimEdges (content : List Inline) : List Inline :=
  (trimLast (trimFirst content)).filter fun i => !i.isEmptyText

end Inline

/-! ### Blocks -/

/-- How an ordered list is labelled. -/
inductive ListKind
  /-- `1`, `2`, `3`, … -/
  | numbered
  /-- `a`, `b`, …, `z`, `aa`, `ab`, … -/
  | lettered
deriving Repr, DecidableEq

/-- A piece of a sheet that stands on lines of its own. -/
inductive Block
  /-- A heading. -/
  | heading (level : Nat) (content : List Inline)
  /-- A paragraph. -/
  | paragraph (content : List Inline)
  /-- An unordered list; each item is a step. -/
  | steps (items : List (List Block))
  /-- An ordered list. -/
  | list (kind : ListKind) (items : List (List Block))
  /-- A formula on lines of its own, without its delimiters. -/
  | math (body : Text)
  /-- A box. -/
  | callout (children : List Block)
deriving Repr

/-- The level of every heading that is read from a sheet. -/
def headingLevel : Nat := 3

/-- Ordered lists are counted in a word of 64 bits, which has so many values. -/
def countLimit : Nat := UInt64.size

/-- The count with one more ordered list.  The last count of a word is followed by zero. -/
def nextCount (seen : Nat) : Nat := (seen + 1) % countLimit

namespace ListKind

/-- The kind of the next ordered list, when so many were met before it. -/
def next (seen : Nat) : ListKind := if seen = 0 then numbered else lettered

/-- The letters of an item: a number in base 26 whose digits are `a` to `z` and that has no zero. -/
def letters (index : Nat) : Text :=
  let letter := Char.ofNat ('a'.toNat + index % 26)
  if index < 26 then [letter] else letters (index / 26 - 1) ++ [letter]
termination_by index
decreasing_by omega

/-- The label of the item at an index, counted from zero, without punctuation. -/
def label (kind : ListKind) (index : Nat) : Text :=
  match kind with
  | numbered => (toString (index + 1)).toList
  | lettered => letters index

end ListKind

end CribSheet
