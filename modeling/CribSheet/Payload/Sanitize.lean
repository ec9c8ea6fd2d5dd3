/-
Sanitizing a raw payload.

The service that writes sheets wraps its answers in noise: fences, editor comments, a byte-order mark,
line breaks that are escaped as two characters, and the sentinel line that it was asked for.  One pass
removes all of it in a fixed order.  Removing one kind of noise can uncover another, so passes repeat
until the text stops shrinking: every pass but the first either leaves the text alone or shortens it.

Main definitions:

* `CribSheet.Payload.pass` — one pass;
* `CribSheet.Payload.settle` — repeating a pass while it shortens the text;
* `CribSheet.Payload.sanitizeWith`, `CribSheet.Payload.sanitize` — the whole, with a table of forbidden
  directives or the built-in one.
-/
import CribSheet.Payload.Directive

set_option relaxedAutoImplicit false
set_option autoImplicit false

namespace CribSheet.Payload

open CribSheet.Text

/-! ### Line breaks -/

/-- The text without byte-order marks. -/
def dropByteOrderMarks (t : Text) : Text := t.filter (· ≠ '\ufeff')

/-- Every way of ending a line, written as a line feed. -/
def unifyBreaks : Text → Text
  | [] => []
  | '\r' :: '\n' :: t => '\n' :: unifyBreaks t
  | '\r' :: t => '\n' :: unifyBreaks t
  | c :: t => c :: unifyBreaks t

/-- The text starts with a backslash and an `n` that begin no longer control word. -/
def startsEscapedBreak : Text → Bool
  | '\\' :: 'n' :: t => !t.head?.any isLetter
  | _ => false

/-- An escaped line break occurs in the text. -/
def hasEscapedBreak : Text → Bool
  | [] => false
  | c :: t => startsEscapedBreak (c :: t) || hasEscapedBreak t

/-- Every escaped line break, written as a line feed. -/
def decodeBreaks : Text → Text
  | [] => []
  | '\\' :: 'r' :: '\\' :: 'n' :: t => '\n' :: decodeBreaks t
  | '\\' :: 'n' :: t => '\n' :: decodeBreaks t
  | c :: t => c :: decodeBreaks t

/-- The text with line feeds for line breaks.  Escaped breaks are decoded only in a text without a real
one, and only when one of them cannot be the start of a control word. -/
def normalizeBreaks (t : Text) : Text :=
  let t := unifyBreaks t
  if !t.contains '\n' && hasEscapedBreak t then decodeBreaks t else t

/-! ### Noise lines -/

/-- What opens and closes a fenced block: three grave accents. -/
def fence : Text := ['\x60', '\x60', '\x60']

/-- The key word of an editor comment. -/
def editorMark : Text := ['!', 'T', 'E', 'X']

/-- The line is a fence or an editor comment. -/
def isNoiseLine (line : Text) : Bool :=
  match line.trimStart with
  | '%' :: rest => startsWith editorMark (trimStart rest)
  | start => startsWith fence start

/-- The text without its noise lines. -/
def dropNoiseLines (t : Text) : Text := unlines (t.lines.filter fun line => !isNoiseLine line)

/-! ### The sentinel -/

/-- The line that the service writes first. -/
def sentinel : Text := ['C', 'O', 'O', 'R', '-', 'B', 'O', '-', 'Z', 'Y']

/-- What follows the first line, trimmed. -/
def belowFirstLine (t : Text) : Text := trim ((firstLine t).2.drop 1)

theorem length_belowFirstLine_lt {t : Text} (h : (firstLine t).1.trimEnd = sentinel) :
    (belowFirstLine t).length < t.length := by
  have h₁ := congrArg List.length (firstLine_append t)
  have h₂ := length_dropEndWhile_le isBlank (firstLine t).1
  have h₃ := congrArg List.length h
  have h₄ := length_trim_le ((firstLine t).2.drop 1)
  simp only [List.length_append, trimEnd, sentinel, List.length_cons, List.length_nil,
    List.length_drop] at h₁ h₂ h₃ h₄
  rw [belowFirstLine]
  omega

/-- The text without the sentinel lines at its start. -/
def stripSentinel (t : Text) : Text :=
  if h : (firstLine t).1.trimEnd = sentinel then
    have : (belowFirstLine t).length < t.length := length_belowFirstLine_lt h
    stripSentinel (belowFirstLine t)
  else t
termination_by t.length

/-! ### Passes -/

/-- **One pass**: line breaks, forbidden directives, noise lines, the blanks around the text, and the
sentinel, in this order. -/
def pass (table : List Directive) (t : Text) : Text :=
  let t := normalizeBreaks (dropByteOrderMarks t)
  stripSentinel (trim (dropNoiseLines (removeDirectives table t)))

/-- The text after as many passes as shorten it. -/
def settle (pass : Text → Text) (t : Text) : Text :=
  let next := pass t
  if next.length < t.length then settle pass next else t
termination_by t.length

/-- **A raw payload without its noise.**  The first pass may also change characters without shortening
the text, so it is made in any case. -/
def sanitizeWith (table : List Directive) (raw : Text) : Text :=
  settle (pass table) (pass table raw)

/-- The payload without its noise and the built-in forbidden directives. -/
def sanitize (raw : Text) : Text := sanitizeWith Directive.forbidden raw

end CribSheet.Payload
