/-
The Markdown tree of a sheet.

Steps and lettered lists become bullet lists whose items open with a step sign or a bold letter; the
numbered list becomes an ordered list.  Source line breaks become soft breaks, and the blanks around
them are dropped, so that indentation never reaches the reader.

Main definitions:

* `CribSheet.Markdown.Span`, `CribSheet.Markdown.Node` — the tree;
* `CribSheet.Markdown.Span.ofInlines` — running text;
* `CribSheet.Markdown.Node.ofBlocks` — the tree of a display tree.
-/
import CribSheet.Display.Tree

set_option relaxedAutoImplicit false
set_option autoImplicit false

namespace CribSheet.Markdown

/-! ### Trees -/

/-- A piece of running text. -/
inductive Span
  /-- Characters on one line; they are escaped when they are written. -/
  | text (t : Text)
  /-- A line break in the source. -/
  | softBreak
  /-- A line break that the reader sees. -/
  | hardBreak
  /-- Strong emphasis. -/
  | strong (children : List Span)
  /-- Emphasis. -/
  | emphasis (children : List Span)
  /-- A formula, on lines of its own or not; it is written as it is. -/
  | math (display : Bool) (body : Text)
  /-- A link that shows its address. -/
  | link (url : Text)
deriving Repr

/-- A piece of a page. -/
inductive Node
  /-- A heading. -/
  | heading (level : Nat) (content : List Span)
  /-- A paragraph. -/
  | paragraph (content : List Span)
  /-- A quotation. -/
  | quote (children : List Node)
  /-- A list, numbered from one or with bullets. -/
  | list (ordered : Bool) (items : List (List Node))
deriving Repr

/-- The node is a list. -/
def Node.isList : Node → Bool
  | .list .. => true
  | _ => false

/-! ### Running text -/

namespace Span

/-- Lines of text with a soft break between each two.  Inside the text lines are trimmed; lines without
characters leave only their breaks. -/
def ofLines : (first : Bool) → List Text → List Span
  | _, [] => []
  | first, line :: rest =>
    let line := if first then line else line.trimStart
    let line := if rest.isEmpty then line else line.trimEnd
    (if first then [] else [softBreak]) ++ (if line = [] then [] else [text line]) ++
      ofLines false rest

/-- The spans of some characters; a tab counts as a blank. -/
def ofText (t : Text) : List Span :=
  ofLines true (Text.lines (t.map fun c => if c = '\t' then ' ' else c))

mutual

/-- The spans of an inline. -/
def ofInline : Inline → List Span
  | .text t => ofText t
  | .strong children => [strong (ofInlines children)]
  | .emphasis children => [emphasis (ofInlines children)]
  | .math body => [math false body.trim]
  | .link url => [link url]
  | .lineBreak => [hardBreak]

/-- The spans of running text. -/
def ofInlines : List Inline → List Span
  | [] => []
  | i :: rest => ofInline i ++ ofInlines rest

end

end Span

/-- The inline is a line break. -/
def isBreak : Inline → Bool
  | .lineBreak => true
  | _ => false

/-- The inlines without blanks next to line breaks.  `behind` says whether a break stands before. -/
def trimAtBreaks : (behind : Bool) → List Inline → List Inline
  | _, [] => []
  | behind, .text t :: rest =>
    let t := if behind then t.trimStart else t
    let t := if rest.head?.any isBreak then t.trimEnd else t
    .text t :: trimAtBreaks false rest
  | _, i :: rest => i :: trimAtBreaks (isBreak i) rest

/-- The inline on one line. -/
def flattenBreaks : Inline → Inline
  | .text t => .text (t.map fun c => if c = '\n' then ' ' else c)
  | .lineBreak => .text [' ']
  | i => i

/-! ### Pages -/

/-- The sign that marks a step. -/
def stepSign : Char := '▸'

/-- What opens an item of a list: of steps, when no kind is given. -/
def itemLead (kind : Option ListKind) (index : Nat) : List Inline :=
  match kind with
  | none => [.text [stepSign, ' ']]
  | some .numbered => []
  | some .lettered => [.strong [.text (ListKind.lettered.label index ++ [')'])], .text [' ']]

namespace Node

/-- The paragraph of some running text. -/
def ofParagraph (content : List Inline) : Node := paragraph (Span.ofInlines (trimAtBreaks false content))

mutual

/-- The node of a block. -/
def ofBlock : Block → Node
  | .heading level content =>
    heading (max 1 (min level 6)) (Span.ofInlines (content.map flattenBreaks))
  | .paragraph content => ofParagraph content
  | .steps items => list false (ofItems none 0 items)
  | .list .numbered items => list true (ofItems (some .numbered) 0 items)
  | .list .lettered items => list false (ofItems (some .lettered) 0 items)
  | .math body => paragraph [.math true ('\n' :: body.trim ++ ['\n'])]
  | .callout children => quote (ofBlocks children)

/-- The nodes of blocks. -/
def ofBlocks : List Block → List Node
  | [] => []
  | b :: rest => ofBlock b :: ofBlocks rest

/-- The items of a list, from an index on.  What opens an item joins its first paragraph, or is a
paragraph of its own when the item starts with something else. -/
def ofItems (kind : Option ListKind) (index : Nat) : List (List Block) → List (List Node)
  | [] => []
  | [] :: rest =>
    (if itemLead kind index = [] then [] else [ofParagraph (itemLead kind index)]) ::
      ofItems kind (index + 1) rest
  | (.paragraph content :: blocks) :: rest =>
    (ofParagraph (itemLead kind index ++ content) :: ofBlocks blocks) :: ofItems kind (index + 1) rest
  | (b :: blocks) :: rest =>
    ((if itemLead kind index = [] then [] else [ofParagraph (itemLead kind index)]) ++
      ofBlock b :: ofBlocks blocks) :: ofItems kind (index + 1) rest

end

end Node

end CribSheet.Markdown
