/-
Texts as bytes.

Files and streams hold bytes; texts are stored in UTF-8.

Main definitions:

* `CribSheet.Text.encode`, `CribSheet.Text.decode?` — the bytes of a text, and the text of bytes.

Main results:

* `CribSheet.Text.decode?_encode` — what was encoded is read back.
-/
import CribSheet.Text.Basic

set_option relaxedAutoImplicit false
set_option autoImplicit false

namespace CribSheet.Text

/-- The UTF-8 form of the text. -/
def encode (t : Text) : ByteArray := (String.ofList t).toUTF8

/-- The text whose UTF-8 form the bytes are. -/
def decode? (bytes : ByteArray) : Option Text := (String.fromUTF8? bytes).map String.toList

theorem decode?_encode (t : Text) : decode? (encode t) = some t := by
  have h : String.fromUTF8? (String.ofList t).toUTF8 = some (String.ofList t) := by
    simp only [String.fromUTF8?]
    exact dif_pos (String.ofList t).isValidUTF8
  rw [decode?, encode, h]
  simp

end CribSheet.Text
