/-
Documents: texts with a document root.

The root is the pair of markers `\begin{document}` and `\end{document}`.  What stands before it is the
preamble, what stands inside it the body.  A text without an opening marker is all body, and a missing
closing marker leaves the body open to the end of the text.

Main definitions:

* `CribSheet.Document` — a document, kept as its text;
* `CribSheet.Document.hasRoot`, `CribSheet.Document.preamble`, `CribSheet.Document.body` — its parts.
-/
import CribSheet.Text.Blank

set_option relaxedAutoImplicit false
set_option autoImplicit false

namespace CribSheet

/-- The marker that opens the document root. -/
def beginDocument : Text :=
  ['\\', 'b', 'e', 'g', 'i', 'n', '{', 'd', 'o', 'c', 'u', 'm', 'e', 'n', 't', '}']

/-- The marker that closes the document root. -/
def endDocument : Text :=
  ['\\', 'e', 'n', 'd', '{', 'd', 'o', 'c', 'u', 'm', 'e', 'n', 't', '}']

/-- A LaTeX document. -/
structure Document where
  /-- Its text. -/
  text : Text
deriving Repr, DecidableEq

namespace Document

/-- The text has an opening root marker. -/
def hasRoot (d : Document) : Bool := Text.holds beginDocument d.text

/-- What stands before the root; nothing when there is no root. -/
def preamble (d : Document) : Text :=
  match Text.cutAt? beginDocument d.text with
  | some (before, _) => before
  | none => []

/-- What stands inside the root; everything when there is no root. -/
def body (d : Document) : Text :=
  match Text.cutAt? beginDocument d.text with
  | some (_, rest) =>
    match Text.cutAt? endDocument rest with
    | some (inner, _) => inner
    | none => rest
  | none => d.text

end Document

end CribSheet
