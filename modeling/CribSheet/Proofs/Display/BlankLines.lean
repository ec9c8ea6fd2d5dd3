/-
Blank lines and blanks, as the reader of blocks sees them.

A paragraph has no blanks at its ends, and a gap adds no block.  So blanks in front of a text, or between a
paragraph and what ends it, make no difference to the blocks that are read.

Main results:

* `CribSheet.paragraph?_append_blank` — a paragraph does not end with blanks;
* `CribSheet.readPieces_blank_append` — blank lines at the start of a text add nothing to its blocks;
* `CribSheet.readPieces_prose_break` — a line break in front of a blank line ends the pending paragraph.
-/
import CribSheet.Proofs.Display.BlockReading
import CribSheet.Proofs.Display.ListMarkup

set_option relaxedAutoImplicit false
set_option autoImplicit false

namespace CribSheet

open CribSheet.Markup

/-! ### Blanks around a paragraph -/

theorem trim_append_blank {x : Text} (hx : x.isBlankText = true) (t : Text) : (t ++ x).trim = t.trim := by
  cases hdrop : t.dropWhile isBlank with
  | nil =>
    -- All of the text is blank.
    have ht : t.isBlankText = true := by
      rw [Text.isBlankText, List.all_eq_true]
      exact List.dropWhile_eq_nil_iff.1 hdrop
    have hnil := trim_blank_append hx []
    have ht' := trim_blank_append ht []
    rw [List.append_nil] at hnil ht'
    rw [trim_blank_append ht, hnil, ht']
  | cons c s =>
    rw [Text.trim, Text.trim, Text.trimStart, Text.trimStart, (dropWhile_append_of_cons hdrop x).1, hdrop,
      Text.trimEnd_append_blank hx]

theorem trim_trim (t : Text) : t.trim.trim = t.trim := by
  obtain ⟨x, y, hx, hy, ht⟩ := exists_trim t
  calc t.trim.trim = (x ++ t.trim ++ y).trim := by rw [trim_append_blank hy, trim_blank_append hx]
    _ = t.trim := by rw [← ht]

theorem paragraph?_append_blank {x : Text} (hx : x.isBlankText = true) (w : Text) :
    paragraph? (w ++ x) = paragraph? w := by
  rw [paragraph?, trim_append_blank hx]
  rfl

/-! ### Pending prose -/

section Pending

variable (read : Reader)

/-- A gap ends the pending paragraph. -/
theorem readPieces_prose_gap (w : Text) (ps : List Piece) (seen : Nat) :
    readPieces read ((Piece.prose w).cons (.gap :: ps)) seen =
      ((paragraph? w).toList ++ (readPieces read ps seen).1, (readPieces read ps seen).2) := by
  simp [Piece.cons, readPieces, Piece.blocks]

/-- An environment ends the pending paragraph. -/
theorem readPieces_prose_environment (w name content : Text) (ps : List Piece) (seen : Nat) :
    readPieces read ((Piece.prose w).cons ((Piece.environment name content).cons ps)) seen =
      let env := readEnvironment read name content seen
      ((paragraph? w).toList ++ (env.1 ++ (readPieces read ps env.2).1), (readPieces read ps env.2).2) := by
  simp [Piece.cons, readPieces, Piece.blocks]

end Pending

/-! ### Blank lines -/

theorem blankLineAfter_of_blank {x : Text} (hx : x.isBlankText = true) : Text.blankLineAfter true x = true := by
  induction x with
  | nil => rfl
  | cons c x ih =>
    rw [Text.isBlankText, List.all_cons, Bool.and_eq_true] at hx
    have hstep : Text.blankLineStep true c = true := by
      unfold Text.blankLineStep
      split
      · rfl
      · rw [hx.1]
        rfl
    rw [Text.blankLineAfter_cons, hstep, ih hx.2]

theorem isBlankText_blankLines (t : Text) : (blankLines t).1.isBlankText = true := by
  have hline := Text.lastLine_append (t.takeWhile isBlank)
  have hall : Text.isBlankText (t.takeWhile isBlank) = true := List.all_takeWhile
  rw [← hline, Text.isBlankText_append, Bool.and_eq_true] at hall
  unfold blankLines
  split
  · next blanks hb =>
    rw [hb] at hall
    exact hall.2
  · next ended blanks _ hb =>
    rw [hb] at hall
    exact hall.1

/-- A line break in front of a line that is not blank is prose. -/
theorem pieces_break {t : Text} (h : t.firstLine.1.isBlankText = false) (blank : Bool) :
    pieces blank ('\n' :: t) = (Piece.prose ['\n']).cons (pieces true t) := by
  have hread : Reading.read blank '\n' t = ⟨['\n'], .prose ['\n'], t⟩ := by
    rw [Reading.read_newline, Reading.ofBreak, h, if_neg Bool.false_ne_true]
  exact pieces_of_read_eq hread

theorem pieces_gap_eq {t : Text} (h : t.firstLine.1.isBlankText = true) (blank : Bool) :
    pieces blank ('\n' :: t) = .gap :: pieces true (blankLines t).2 := by
  have hblank : Text.blankLineAfter blank ('\n' :: (blankLines t).1) = true :=
    blankLineAfter_of_blank (isBlankText_blankLines t)
  rw [pieces_gap h, hblank]

theorem not_mem_of_isBlank {c : Char} {specials : Text} (hc : isBlank c = true)
    (hspecials : specials.all (!isBlank ·) = true) : c ∉ specials := by
  intro hmem
  have hblank := List.all_eq_true.1 hspecials c hmem
  simp [hc] at hblank

/-- A blank that ends no line starts nothing. -/
theorem not_special_of_isBlank {c : Char} (hc : isBlank c = true) (hne : c ≠ '\n') :
    c ∉ ['\n', '\\', '$', '%'] := by
  rw [List.mem_cons, not_or]
  exact ⟨hne, not_mem_of_isBlank hc (by decide)⟩

theorem pieces_blank_char {c : Char} (hc : isBlank c = true) (hne : c ≠ '\n') (t : Text) :
    pieces true (c :: t) = (Piece.prose [c]).cons (pieces true t) := by
  have hblank : Text.blankLineAfter true [c] = true := blankLineAfter_of_blank (List.all_eq_true.2 (by simpa using hc))
  rw [pieces_of_read_eq (read_char (not_special_of_isBlank hc hne) true t), hblank]

/-- **Blank lines at the start of a text** add nothing to its blocks. -/
theorem readPieces_blank_append (read : Reader) {x : Text} (hx : x.isBlankText = true) (t : Text) (seen : Nat) :
    readPieces read (pieces true (x ++ t)) seen = readPieces read (pieces true t) seen := by
  induction hlen : (x ++ t).length using Nat.strong_induction_on generalizing x t with
  | _ n ih =>
    subst hlen
    cases x with
    | nil => rfl
    | cons c x =>
      rw [Text.isBlankText, List.all_cons, Bool.and_eq_true] at hx
      obtain ⟨hc, (hx : Text.isBlankText x = true)⟩ := hx
      have hblank : Text.isBlankText [c] = true := List.all_eq_true.2 (by simpa using hc)
      have hrest : readPieces read (pieces true (x ++ t)) seen = readPieces read (pieces true t) seen :=
        ih _ (Nat.lt_succ_self _) hx t rfl
      by_cases hnewline : c = '\n'
      · subst hnewline
        cases hline : Text.isBlankText (Text.firstLine (x ++ t)).1 with
        | false => rw [List.cons_append, pieces_break hline, readPieces_blank_cons read hblank, hrest]
        | true =>
          -- The look takes blank lines of the text along, or leaves some of those in front of it.
          have hlines := isBlankText_blankLines (x ++ t)
          have hgap : readPieces read (pieces true ('\n' :: (x ++ t))) seen =
              readPieces read (pieces true (blankLines (x ++ t)).2) seen := by
            rw [pieces_gap_eq hline]
            simp [readPieces, Piece.blocks]
          rw [List.cons_append, hgap]
          rcases List.append_eq_append_iff.1 (blankLines_append (x ++ t)) with ⟨z, hxz, ht'⟩ | ⟨z, hyz, ht⟩
          · rw [hxz, Text.isBlankText_append, Bool.and_eq_true] at hx
            rw [ht']
            refine ih _ ?_ hx.2 t rfl
            rw [hxz]
            simp only [List.cons_append, List.length_cons, List.length_append]
            omega
          · rw [hyz, Text.isBlankText_append, Bool.and_eq_true] at hlines
            conv => rhs; rw [ht]
            refine (ih _ ?_ hlines.2 _ rfl).symm
            rw [← ht]
            simp only [List.cons_append, List.length_cons, List.length_append]
            omega
      · rw [List.cons_append, pieces_blank_char hc hnewline, readPieces_blank_cons read hblank, hrest]

/-- A line break in front of a blank line ends the pending paragraph. -/
theorem readPieces_prose_break (read : Reader) (w : Text) {t : Text}
    (h : t.firstLine.1.isBlankText = true) (blank : Bool) (seen : Nat) :
    readPieces read ((Piece.prose w).cons (pieces blank ('\n' :: t))) seen =
      ((paragraph? w).toList ++ (readPieces read (pieces true t) seen).1,
        (readPieces read (pieces true t) seen).2) := by
  have hlines := readPieces_blank_append read (isBlankText_blankLines t) (blankLines t).2 seen
  rw [blankLines_append] at hlines
  rw [pieces_gap_eq h, readPieces_prose_gap, hlines]

theorem pieces_blanks_append {x : Text} (hx : x.isBlankText = true) (hline : '\n' ∉ x) (v t : Text) :
    (Piece.prose v).cons (pieces true (x ++ t)) = (Piece.prose (v ++ x)).cons (pieces true t) := by
  induction x generalizing v with
  | nil => simp
  | cons c x ih =>
    rw [Text.isBlankText, List.all_cons, Bool.and_eq_true] at hx
    have hne : c ≠ '\n' := fun h => hline (h ▸ List.mem_cons_self ..)
    rw [List.cons_append, pieces_blank_char hx.1 hne, prose_cons_prose_cons,
      ih hx.2 fun h => hline (List.mem_cons_of_mem _ h), List.append_assoc, List.singleton_append]

end CribSheet
