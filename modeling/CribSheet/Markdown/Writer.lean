/-
Writing text so that Markdown reads it back.

The writer owes line breaks until more text comes, so that a break at the end of one block and a blank
line before the next never add up.  Every line opens with the margin: the quote marks and item
indents of what surrounds it.  Prose is escaped where Markdown would take it for markup; formulas and
marks are written as they are.

Main definitions:

* `CribSheet.Markdown.Writer` — the state: what is written, what is owed, and the margin;
* `CribSheet.Markdown.Writer.literal` — writing text as it is;
* `CribSheet.Markdown.Writer.prose`, `CribSheet.Markdown.Writer.address` — writing it escaped.
-/
import CribSheet.Text.Blank

set_option relaxedAutoImplicit false
set_option autoImplicit false

namespace CribSheet.Markdown

/-! ### The state -/

/-- What is written so far and how writing goes on. -/
structure Writer where
  /-- The text written so far, its last character first. -/
  written : Text := []
  /-- What every line starts with. -/
  margin : Text := []
  /-- The line breaks to write before more text: two for a blank line. -/
  owed : Nat := 0
  /-- The next character starts a line. -/
  atLineStart : Bool := true
  /-- Nothing but digits stands between the marks at the start of the line and the next character. -/
  atContentStart : Bool := true
  /-- Line breaks of the source become blanks. -/
  oneLine : Bool := false
  /-- No blank lines are written. -/
  tight : Bool := false
deriving Repr, DecidableEq

namespace Writer

/-- The text written so far. -/
def text (w : Writer) : Text := w.written.reverse

/-! ### Line breaks -/

/-- Owe at least a line break. -/
def oweBreak (w : Writer) : Writer := { w with owed := max w.owed 1 }

/-- Owe a blank line. -/
def oweBlankLine (w : Writer) : Writer := { w with owed := max w.owed 2 }

/-- The text, backwards, after the owed line breaks, of which those count that it ends with.  `back` is
where they are looked for; the margin stands on every blank line. -/
def payBreaks (margin : Text) : (owed : Nat) → (back written : Text) → Text
  | 0, _, written => written
  | owed + 1, [], written => payBreaks margin owed [] written
  | owed + 1, c :: back, written =>
    if c = '\n' then payBreaks margin owed back written
    else
      payBreaks margin owed (c :: back)
        ((if owed = 0 then [] else margin.reverse) ++ '\n' :: written)

/-- Write the owed line breaks; where no blank lines are written, at most one. -/
def settle (w : Writer) : Writer :=
  let owed := if w.tight then min w.owed 1 else w.owed
  { w with
    written := payBreaks w.margin owed w.written w.written
    owed := 0
    atLineStart := w.atLineStart || owed != 0
    atContentStart := w.atContentStart || owed != 0 }

/-! ### Characters as they are -/

/-- Write the margin at the start of a line. -/
def startLine (w : Writer) : Writer :=
  if w.atLineStart then { w with written := w.margin.reverse ++ w.written } else w

/-- Write a character as it is. -/
def literalChar (w : Writer) (c : Char) : Writer :=
  let w := w.startLine
  if c = '\n' then { w with written := c :: w.written, atLineStart := true, atContentStart := true }
  else
    { w with
      written := c :: w.written
      atLineStart := false
      atContentStart := w.atContentStart && Text.isDigit c }

/-- **Write text as it is.** -/
def literal (t : Text) (w : Writer) : Writer := t.foldl literalChar w.settle

/-! ### Escapes -/

/-- The characters that Markdown counts as blanks. -/
def isSpace (c : Char) : Bool := c == ' ' || c == '\t' || c == '\n' || c == '\r'

/-- Characters that may start markup anywhere in prose. -/
def isMarkup (c : Char) : Bool :=
  c == '*' || c == '_' || c == '[' || c == ']' || c == '#' || c == '<' || c == '>' || c == '\\' ||
    c == '`' || c == '!'

/-- The last written character is a digit. -/
def followsDigit (w : Writer) : Bool := w.written.head?.any Text.isDigit

/-- A character of prose must be escaped before `next`, which is NUL at the end: it is a control
character, it may start markup, it opens a character reference, or it stands where a list marker
or an underline would. -/
def escapesProse (w : Writer) (c next : Char) : Bool :=
  c.toNat < 32 || isMarkup c || c == '&' && Text.isLetter next ||
    w.atContentStart &&
      ((c == '-' || c == '+' || c == '=') && !w.followsDigit ||
        (c == '.' || c == ')') && w.followsDigit && (next == '\x00' || isSpace next))

/-- A character that must be escaped in an address. -/
def escapesAddress (c : Char) : Bool :=
  c == '`' || c == '<' || c == '>' || c == '\\' || c == '(' || c == ')' || isSpace c

/-- The character reference of a control character. -/
def reference (c : Char) : Text := '&' :: '#' :: (toString c.toNat).toList ++ [';']

/-- A blank in an address: a percent sign and its code in two hexadecimal places, the first of which
is blank when it is zero. -/
def percent (c : Char) : Text :=
  if c = '\t' then ['%', ' ', '9'] else if c = '\n' then ['%', ' ', 'A']
  else if c = '\r' then ['%', ' ', 'D'] else ['%', '2', '0']

/-- Put characters into the line. -/
def put (t : Text) (w : Writer) : Writer := { w with written := t.reverse ++ w.written }

/-- Note that a character was written into the line. -/
def note (c : Char) (w : Writer) : Writer :=
  { w with atLineStart := false, atContentStart := w.atContentStart && Text.isDigit c }

/-- Write a character of prose before `next`.  A control character is written as a text of its own, and
so has the margin before it once more at the start of a line. -/
def proseChar (w : Writer) (c next : Char) : Writer :=
  let w := w.startLine
  note c <|
    if w.escapesProse c next then
      if c.toNat < 32 then w.literal (reference c) else w.put ['\\', c]
    else w.put [c]

/-- Write a character of an address. -/
def addressChar (w : Writer) (c : Char) : Writer :=
  let w := w.startLine
  note c (if escapesAddress c then if isSpace c then w.put (percent c) else w.put ['\\', c] else w.put [c])

/-- Write characters of prose, each before the next. -/
def proseChars : Text → Writer → Writer
  | [], w => w
  | [c], w => w.proseChar c '\x00'
  | c :: d :: t, w => proseChars (d :: t) (w.proseChar c d)

/-- **Write prose.** -/
def prose (t : Text) (w : Writer) : Writer := proseChars t w.settle

/-- **Write an address.** -/
def address (t : Text) (w : Writer) : Writer := t.foldl addressChar w.settle

/-! ### Margins -/

/-- Write a mark that opens a block. -/
def mark (t : Text) (w : Writer) : Writer := { literal t w with atContentStart := true }

/-- Widen the margin. -/
def indent (t : Text) (w : Writer) : Writer := { w with margin := w.margin ++ t }

/-- Narrow the margin by so many characters, or to nothing. -/
def outdent (width : Nat) (w : Writer) : Writer :=
  { w with margin := w.margin.take (w.margin.length - width) }

end Writer

end CribSheet.Markdown
