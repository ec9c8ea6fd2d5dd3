/-
What stands between the parts of a TOML document: blanks, comments and line breaks.

A line ends with a line feed, with a carriage return and a line feed, or with the document.  A carriage
return alone, or a control character in a comment, makes the document invalid.

Main definitions:

* `CribSheet.Toml.skipBlanks` — the text behind blanks;
* `CribSheet.Toml.skipGap` — the text behind blanks, comments and line breaks;
* `CribSheet.Toml.afterLine` — the text behind a statement, which has its line to itself.
-/
import CribSheet.Text.Blank

set_option relaxedAutoImplicit false
set_option autoImplicit false

namespace CribSheet.Toml

/-- The characters that may stand in a comment, and in text between quotes: no control characters but
the tabulator. -/
def isPlain (c : Char) : Bool := c == '\t' || (' ' ≤ c && c ≠ '\x7f')

/-- The text behind blanks. -/
def skipBlanks (t : Text) : Text := t.dropWhile isGap

/-- The text behind blanks, comments and line breaks.  `inComment` tells that a comment goes on. -/
def skipGap (inComment : Bool) : Text → Option Text
  | [] => some []
  | '\n' :: t => skipGap false t
  | '\r' :: '\n' :: t => skipGap false t
  | c :: t =>
    if inComment then if isPlain c then skipGap true t else none
    else if c = '#' then skipGap true t
    else if isGap c then skipGap false t
    else if c = '\r' then none
    else some (c :: t)

/-- The text behind a statement: nothing but a comment may follow on its line. -/
def afterLine (t : Text) : Option Text :=
  match skipBlanks t with
  | [] => some []
  | '\n' :: t => some t
  | '\r' :: '\n' :: t => some t
  | '#' :: t => skipGap true t
  | _ => none

end CribSheet.Toml
