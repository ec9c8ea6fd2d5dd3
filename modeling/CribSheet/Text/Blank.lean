/-
Blank characters: the 25 characters with the Unicode property `White_Space`.

They are what trimming removes, what separates words, and what a line may consist of to count as
blank.  The byte-order mark, the zero-width space and the separators U+001C to U+001F are not among
them.

Main definitions:

* `CribSheet.isBlank` — membership;
* `CribSheet.Text.trimStart`, `CribSheet.Text.trimEnd`, `CribSheet.Text.trim` — removal at the ends;
* `CribSheet.Text.words` — the maximal runs of other characters.
-/
import CribSheet.Text.Basic

set_option relaxedAutoImplicit false
set_option autoImplicit false

namespace CribSheet

/-- The character has the Unicode property `White_Space`. -/
def isBlank (c : Char) : Bool :=
  let n := c.toNat
  (9 ≤ n && n ≤ 13) || n == 32 || n == 0x85 || n == 0xA0 || n == 0x1680 ||
    (0x2000 ≤ n && n ≤ 0x200A) || n == 0x2028 || n == 0x2029 || n == 0x202F || n == 0x205F ||
    n == 0x3000

/-- A space or a tab. -/
def isGap (c : Char) : Bool := c == ' ' || c == '\t'

theorem isBlank_of_isGap {c : Char} (h : isGap c = true) : isBlank c = true := by
  simp only [isGap, Bool.or_eq_true, beq_iff_eq] at h
  rcases h with rfl | rfl <;> decide

namespace Text

/-- The text without the blanks at its start. -/
def trimStart (t : Text) : Text := t.dropWhile isBlank

/-- The text without the blanks at its end. -/
def trimEnd (t : Text) : Text := dropEndWhile isBlank t

/-- The text without the blanks at both ends. -/
def trim (t : Text) : Text := trimEnd (trimStart t)

/-- The text consists of blanks only. -/
def isBlankText (t : Text) : Bool := t.all isBlank

theorem length_dropEndWhile_le (p : Char → Bool) (t : Text) :
    (dropEndWhile p t).length ≤ t.length := by
  induction t with
  | nil => exact Nat.le_refl _
  | cons c t ih =>
    rw [dropEndWhile]
    split
    · split <;> simp
    · next h =>
      rw [h] at ih
      simpa using ih

theorem length_trim_le (t : Text) : t.trim.length ≤ t.length :=
  Nat.le_trans (length_dropEndWhile_le _ _) (List.dropWhile_suffix _).length_le

/-- The maximal runs of characters that are not blank. -/
def words : Text → List Text
  | [] => []
  | c :: t =>
    if isBlank c then words t
    else
      match t with
      | [] => [[c]]
      | d :: _ =>
        if isBlank d then [c] :: words t
        else
          match words t with
          | [] => [[c]]
          | word :: rest => (c :: word) :: rest

end Text

end CribSheet
