/-
Texts between quotes.

There are two ways of writing a text on one line: for a reader of messages, where every character that
leaves no mark is written as its code, and for a reader of data, where only what would end the text or the
line is escaped.

Main definitions:

* `CribSheet.Text.quote` — a text in a message;
* `CribSheet.Text.dataQuote` — a text in data.
-/
import CribSheet.Text.Unprintable

set_option relaxedAutoImplicit false
set_option autoImplicit false

namespace CribSheet.Text

/-- The code of a character in hexadecimal digits. -/
def hexCode (c : Char) : Text := Nat.toDigits 16 c.toNat

/-! ### Messages -/

/-- A character between the quotes of a message. -/
def quoteChar (c : Char) : Text :=
  match c with
  | '"' => ['\\', '"']
  | '\\' => ['\\', '\\']
  | '\n' => ['\\', 'n']
  | '\r' => ['\\', 'r']
  | '\t' => ['\\', 't']
  | '\x00' => ['\\', '0']
  | c => if isPrintable c then [c] else ['\\', 'u', '{'] ++ hexCode c ++ ['}']

/-- **A text in a message.** -/
def quote (t : Text) : Text := '"' :: t.flatMap quoteChar ++ ['"']

/-! ### Data -/

/-- A character between the quotes of data. -/
def dataQuoteChar (c : Char) : Text :=
  match c with
  | '"' => ['\\', '"']
  | '\\' => ['\\', '\\']
  | '\n' => ['\\', 'n']
  | '\r' => ['\\', 'r']
  | '\t' => ['\\', 't']
  | '\x08' => ['\\', 'b']
  | '\x0c' => ['\\', 'f']
  | c =>
    if c < ' ' then
      let digits := hexCode c
      ['\\', 'u'] ++ List.replicate (4 - digits.length) '0' ++ digits
    else [c]

/-- **A text in data.** -/
def dataQuote (t : Text) : Text := '"' :: t.flatMap dataQuoteChar ++ ['"']

end CribSheet.Text
