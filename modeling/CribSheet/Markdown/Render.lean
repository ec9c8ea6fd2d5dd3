/-
Markdown from a display tree.

Lists are written tight.  Between two neighbouring lists stands a separator while they are written,
since they would run together otherwise; it is taken out of the finished text.

Main definitions:

* `CribSheet.Markdown.writeSpans`, `CribSheet.Markdown.writeNodes` — writing a tree;
* `CribSheet.Markdown.page` — the text of a tree;
* `CribSheet.Markdown.render` — the text of a display tree;
* `CribSheet.Markdown.preview` — the text of a sheet, and the report about it.
-/
import CribSheet.Display.Parser
import CribSheet.Journal
import CribSheet.Markdown.Node
import CribSheet.Markdown.Writer

set_option relaxedAutoImplicit false
set_option autoImplicit false

namespace CribSheet.Markdown

open Writer

/-! ### Running text -/

/-- What directly holds a span. -/
inductive Holder
  | block
  | strong
  | emphasis
deriving Repr, DecidableEq

/-- A character that may stand in the scheme of an address, behind its first letter. -/
def isSchemeChar (c : Char) : Bool :=
  Text.isLetter c || Text.isDigit c || c == '.' || c == '+' || c == '-'

/-- The address starts with a scheme: a letter, one to thirty-one more characters, and a colon. -/
def hasScheme (url : Text) : Bool :=
  match url with
  | [] => false
  | c :: rest =>
    let scheme := rest.takeWhile isSchemeChar
    Text.isLetter c && 1 ≤ scheme.length && scheme.length ≤ 31 &&
      (rest.dropWhile isSchemeChar).head? == some ':'

/-- The address can be written between angle brackets; a mail address shows more than it would. -/
def isPlainLink (url : Text) : Bool :=
  hasScheme url && !Text.startsWith ['m', 'a', 'i', 'l', 't', 'o', ':'] url

mutual

/-- Write a span; `alone` says whether nothing stands beside it, `last` whether nothing follows. -/
def writeSpan (holder : Holder) (alone last : Bool) : Span → Writer → Writer
  | .text t, w => w.prose t
  | .softBreak, w => if w.oneLine then w.literal [' '] else w.oweBreak
  | .hardBreak, w => if last then w.oweBreak else (w.literal ['\\']).oweBreak
  | .strong children, w =>
    let fence := fun w : Writer => if holder = .strong then w else w.literal ['*', '*']
    fence (writeSpans .strong children.length children (fence w))
  | .emphasis children, w =>
    let fence := if holder = .emphasis ∧ alone then ['_'] else ['*']
    (writeSpans .emphasis children.length children (w.literal fence)).literal fence
  | .math display body, w =>
    let fence := if display then ['$', '$'] else ['$']
    ((w.literal fence).literal body).literal fence
  | .link url, w =>
    if isPlainLink url then w.literal ('<' :: url ++ ['>'])
    else ((((w.literal ['[']).prose url).literal [']', '(']).address url).literal [')']

/-- Write spans; `count` is how many stand together with them. -/
def writeSpans (holder : Holder) (count : Nat) : List Span → Writer → Writer
  | [], w => w
  | s :: rest, w => writeSpans holder count rest (writeSpan holder (count == 1) rest.isEmpty s w)

end

/-! ### Blocks -/

/-- What stands between two neighbouring lists while they are written. -/
def listSeparator : Text := "<!-- end list -->".toList

/-- The marker of an item: of a bullet list, when no number is given. -/
def itemMarker (number : Option Nat) : Text :=
  match number with
  | none => ['-', ' ']
  | some n => (toString n).toList ++ if n < 10 then ['.', ' ', ' '] else ['.', ' ']

/-- Leave a quotation; a margin without room for a quote mark stays as it is. -/
def leaveQuote (w : Writer) : Writer :=
  (if w.margin.length < 2 then w else w.outdent 2).oweBlankLine

mutual

/-- Write a node; `inItem` says whether an item holds it directly, `beforeList` whether a list follows. -/
def writeNode (inItem beforeList : Bool) (node : Node) (w : Writer) : Writer :=
  let w := if inItem then { w with tight := true } else w
  match node with
  | .heading level content =>
    let w := { w.mark (List.replicate level '#' ++ [' ']) with oneLine := true }
    let w := writeSpans .block content.length content w
    { w with oneLine := false }.oweBlankLine
  | .paragraph content => (writeSpans .block content.length content w).oweBlankLine
  | .quote children =>
    leaveQuote (writeNodes false children ((w.mark ['>', ' ']).indent ['>', ' ']))
  | .list ordered items =>
    let w := { writeItems (if ordered then some 1 else none) items w with tight := inItem }
    if beforeList then (w.oweBreak.literal listSeparator).oweBlankLine else w

/-- Write nodes that stand together. -/
def writeNodes (inItem : Bool) : List Node → Writer → Writer
  | [], w => w
  | n :: rest, w => writeNodes inItem rest (writeNode inItem (rest.head?.any Node.isList) n w)

/-- Write the items of a list; in an ordered one `number` is that of the first.  The margin is narrowed
by the width of the number that comes next. -/
def writeItems (number : Option Nat) : List (List Node) → Writer → Writer
  | [], w => w
  | item :: rest, w =>
    let next := number.map (· + 1)
    let marker := itemMarker number
    let w := (w.mark marker).indent (List.replicate marker.length ' ')
    let w := (writeNodes true item w).outdent (itemMarker next).length
    writeItems next rest w.oweBreak

end

/-! ### Texts -/

/-- **The text of a page**, with a line break at its end. -/
def page (nodes : List Node) : Text :=
  let t := (writeNodes false nodes {}).text
  if t = [] ∨ Text.endsWith (· == '\n') t then t else t ++ ['\n']

/-- **The text of a display tree**, without the list separators. -/
def render (blocks : List Block) : Text :=
  Text.replaceAll (listSeparator ++ ['\n', '\n']) [] (page (Node.ofBlocks blocks))

/-- **The text of a sheet**, and the report about it. -/
def preview (doc : Document) : Text × Report :=
  let text := render doc.display
  (text, .previewed doc.display.length text.size)

end CribSheet.Markdown
