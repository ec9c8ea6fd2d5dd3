/-
Lines, byte by byte.

Where a line ends is searched ahead of a position, where it starts is searched behind it.  A comment reaches to the end
of its line, and over the line break if nothing but blanks stands before it; blank lines are skipped up to the last line
break among the blanks; a span grows to whole lines if nothing but blanks stands on them.

Main definitions:

* `CribSheet.Checked.startsBlankLine`, `CribSheet.Checked.skipBlankLines` — blank lines;
* `CribSheet.Checked.commentEnd` — the end of a comment;
* `CribSheet.Checked.wholeLineSpan` — the growth of a span.

Main results:

* `CribSheet.Checked.Stands.startsBlankLine`, `CribSheet.Checked.Stands.skipBlankLines`,
  `CribSheet.Checked.Stands.commentEnd` — the searches run without a fault, and end where the reading does;
* `CribSheet.Checked.Stands.wholeLineSpan` — **a span grows without a fault**, as the growth by offset says.
-/
import CribSheet.Proofs.Bytes.Position
import CribSheet.Proofs.Display.BlankLines

set_option relaxedAutoImplicit false
set_option autoImplicit false

namespace CribSheet.Checked

open Text Markup

/-! ### Line breaks -/

/-- Where the last line break stands in a text that starts at a position. -/
def lastBreak? (i : Nat) : Text → Option Nat
  | [] => none
  | c :: t => (lastBreak? (i + c.utf8Size) t).or (if c = '\n' then some i else none)

/-- It stands at the end of all lines but the last. -/
theorem lastBreak?_eq (i : Nat) (t : Text) :
    (lastBreak? i t).map (· + 1) = if (lastLine t).1 = [] then none else some (i + size (lastLine t).1) := by
  induction t generalizing i with
  | nil => rfl
  | cons c t ih =>
      have ih := ih (i + c.utf8Size)
      rw [lastBreak?, Option.map_or, ih, lastLine]
      cases hlast : lastLine t with
      | mk before line =>
          cases before with
          | nil =>
              by_cases hc : c = '\n'
              · subst hc
                rfl
              · simp [hc]
          | cons d before => simp [Nat.add_assoc]

/-- The last line starts behind it. -/
theorem getD_lastBreak? (t : Text) : ((lastBreak? 0 t).map (· + 1)).getD 0 = size (lastLine t).1 := by
  rw [lastBreak?_eq]
  split
  · next hnil => rw [hnil]; rfl
  · simp

/-- What stands on the line before a position. -/
theorem Stands.cut_lastLine {t behind ahead : Text} {i : Nat} (h : Stands t behind ahead i) :
    Checked.cut t (((lastBreak? 0 behind).map (· + 1)).getD 0) i = .ok (lastLine behind).2 := by
  have hstart : Stands t (lastLine behind).1 ((lastLine behind).2 ++ ahead) (size (lastLine behind).1) :=
    ⟨by rw [← List.append_assoc, lastLine_append, h.text_eq], rfl⟩
  rw [getD_lastBreak?]
  exact h.cut_segment hstart

/-- The first line break stands behind the first line. -/
theorem position?_newline (t : Text) :
    position? (fun c => decide (c = '\n')) t = if (firstLine t).2 = [] then none else some (size (firstLine t).1) := by
  have hline : (fun c => !decide (c = '\n')) = fun c => decide (c ≠ '\n') := by
    funext c
    exact decide_not.symm
  rw [position?, hline, firstLine]
  cases t.dropWhile fun c => decide (c ≠ '\n') with
  | nil => rfl
  | cons c rest => rfl

/-- The end of the line that goes on at a position. -/
theorem Stands.lineEnd {t behind ahead : Text} {i : Nat} (h : Stands t behind ahead i) :
    (Checked.position? (fun c => decide (c = '\n')) ahead).elim t.size (i + ·) = i + size (firstLine ahead).1 := by
  have happend := firstLine_append ahead
  rw [position?_newline]
  split
  · next hnil =>
      rw [hnil, List.append_nil] at happend
      rw [Option.elim_none, h.size_text, happend]
  · rfl

/-- Trimming leaves nothing of a blank text only. -/
theorem isEmpty_trim (t : Text) : (trim t).isEmpty = isBlankText t := by
  obtain ⟨x, y, hx, hy, ht⟩ := exists_trim t
  rw [Bool.eq_iff_iff, List.isEmpty_iff]
  constructor
  · intro htrim
    rw [ht, htrim, List.append_nil, isBlankText_append, hx, hy]
    rfl
  · intro hblank
    have hstart : trimStart t = [] := List.dropWhile_eq_nil_iff.2 (List.all_eq_true.1 hblank)
    rw [trim, hstart]
    rfl

/-! ### Blank lines -/

/-- The line that starts at a position is blank, or everything is from there on. -/
def startsBlankLine (t : Text) (i : Nat) : Run Bool := do
  let rest ← cutFrom t i
  .ok (rest.contains '\n' && (trim (firstLine rest).1).isEmpty || (trim rest).isEmpty)

/-- The position behind the blank lines that follow. -/
def skipBlankLines (t : Text) (i : Nat) : Run Nat := do
  let rest ← cutFrom t i
  let consumed ← minus rest.size (size (trimStart rest))
  let blanks ← cutTo rest consumed
  .ok (((lastBreak? 0 blanks).map (· + 1)).elim (i + consumed) (i + ·))

section Blank

variable {t behind ahead : Text} {i : Nat}

theorem Stands.startsBlankLine (h : Stands t behind ahead i) :
    Checked.startsBlankLine t i = .ok (isBlankText (firstLine ahead).1) := by
  have hsplit : isBlankText ahead = (isBlankText (firstLine ahead).1 && isBlankText (firstLine ahead).2) := by
    rw [← isBlankText_append, firstLine_append]
  rw [Checked.startsBlankLine, h.cutFrom, ok_bind, isEmpty_trim, isEmpty_trim, hsplit]
  by_cases hbreak : '\n' ∈ ahead
  · rw [List.contains_iff_mem.2 hbreak, Bool.true_and]
    cases isBlankText (firstLine ahead).1 <;> rfl
  · have hline : (firstLine ahead).2 = [] := by
      refine List.dropWhile_eq_nil_iff.2 fun c hc => decide_eq_true fun heq => hbreak (heq ▸ hc)
    rw [hline]
    simp [hbreak]

theorem Stands.skipBlankLines (h : Stands t behind ahead i) :
    Checked.skipBlankLines t i = .ok (i + size (blankLines ahead).1) := by
  have happend : ahead.takeWhile isBlank ++ ahead.dropWhile isBlank = ahead := List.takeWhile_append_dropWhile
  have hsize : ahead.size = size (ahead.takeWhile isBlank) + size (trimStart ahead) := by
    rw [trimStart, ← size_append, happend]
  have hblanks : Stands ahead (ahead.takeWhile isBlank) (ahead.dropWhile isBlank) (size (ahead.takeWhile isBlank)) :=
    ⟨happend.symm, rfl⟩
  have hlast := lastLine_append (ahead.takeWhile isBlank)
  -- Only the blanks up to the last line break among them are skipped.
  rw [Checked.skipBlankLines, h.cutFrom, ok_bind, hsize, minus_add, ok_bind, hblanks.cutTo, ok_bind, lastBreak?_eq,
    blankLines]
  cases hlines : lastLine (ahead.takeWhile isBlank) with
  | mk ended blanks =>
      rw [hlines] at hlast
      cases ended with
      | nil =>
          obtain rfl : blanks = ahead.takeWhile isBlank := hlast
          rfl
      | cons c ended => simp

/-! ### Comments -/

/-- The line is blank up to the end of a text if its last line is. -/
theorem blankLineAfter_eq (t : Text) : blankLineAfter true t = isBlankText (lastLine t).2 := by
  have hnot := not_mem_lastLine t
  have hstart : blankLineAfter true (lastLine t).1 = true := by
    rcases lastLine_fst t with hnil | ⟨x, hx⟩
    · rw [hnil]
      rfl
    · rw [hx, blankLineAfter_append]
      rfl
  conv => lhs; rw [← lastLine_append t, blankLineAfter_append, hstart]
  rw [Bool.eq_iff_iff]
  exact ⟨isBlankText_of_blankLineAfter hnot, blankLineAfter_of_blank⟩

/-- The end of the comment that starts at a position. -/
def commentEnd (t : Text) (i : Nat) : Run Nat := do
  let ahead ← cutFrom t i
  let lineEnd := (position? (fun c => decide (c = '\n')) ahead).elim t.size (i + ·)
  let behind ← cutTo t i
  let lead ← cut t (((lastBreak? 0 behind).map (· + 1)).getD 0) i
  .ok (if (trim lead).isEmpty && lineEnd < t.size then lineEnd + 1 else lineEnd)

theorem Stands.commentEnd (h : Stands t behind ('%' :: ahead) i) :
    Checked.commentEnd t i =
      .ok (i + size (Reading.ofComment (blankLineAfter true behind) ahead).source) := by
  have hend : (firstLine ('%' :: ahead)).1 = '%' :: (firstLine ahead).1 := rfl
  have hsize := h.size_text
  have happend := firstLine_append ahead
  rw [Checked.commentEnd, h.cutFrom, ok_bind, h.cutTo, ok_bind, h.cut_lastLine, ok_bind, h.lineEnd, isEmpty_trim,
    ← blankLineAfter_eq, hend, Reading.ofComment]
  cases hfirst : firstLine ahead with
  | mk line rest =>
      rw [hfirst] at happend
      cases rest with
      | nil =>
          obtain rfl : line = ahead := by simpa using happend
          have hlt : ¬ i + size ('%' :: line) < t.size := by omega
          simp only [decide_eq_false hlt, Bool.and_false, Bool.false_eq_true, if_false]
      | cons newline rest =>
          obtain rfl : newline = '\n' := newline_of_firstLine (congrArg Prod.snd hfirst)
          have hone : Char.utf8Size '\n' = 1 := rfl
          have hlt : i + size ('%' :: line) < t.size := by
            rw [hsize, ← happend, size_cons, size_cons, size_append, size_cons '\n', hone]
            simp only
            omega
          cases blankLineAfter true behind with
          | false => rfl
          | true =>
              simp only [Bool.true_and, decide_eq_true hlt, if_true]
              rw [size_append, ← Nat.add_assoc]
              rfl

end Blank

/-! ### Whole lines -/

/-- The span between two positions, grown to whole lines when nothing else stands on them. -/
def wholeLineSpan (t : Text) (i j : Nat) : Run (Nat × Nat) := do
  let behind ← cutTo t i
  let lineStart := ((lastBreak? 0 behind).map (· + 1)).getD 0
  let ahead ← cutFrom t j
  let lineEnd := (position? (fun c => decide (c = '\n')) ahead).map (j + ·)
  let head ← cut t lineStart i
  let tail ← cut t j (lineEnd.getD t.size)
  .ok (if (trim head).isEmpty ∧ (trim tail).isEmpty then (lineStart, lineEnd.elim t.size (· + 1)) else (i, j))

section WholeLines

variable {t behind span after : Text} {i : Nat}

/-- Where a cut lies in its text. -/
def spanOf (c : Cut) : Nat × Nat := (c.before.size, c.before.size + c.span.size)

/-- By offset, a span grows like the cut that marks it. -/
theorem Stands.offset_wholeLineSpan (h : Stands t behind (span ++ after) i) :
    Offset.wholeLineSpan t i (i + span.size) = spanOf ((Cut.mk behind span after).wholeLines true) := by
  have hspan : Stands (span ++ after) span after span.size := ⟨rfl, rfl⟩
  rw [Offset.wholeLineSpan, h.splitAt?]
  simp only [Nat.add_sub_cancel_left, hspan.splitAt?]
  rfl

/-- **Growing to whole lines runs without a fault**, at positions between characters that are in order. -/
theorem Stands.wholeLineSpan (h : Stands t behind (span ++ after) i) :
    Checked.wholeLineSpan t i (i + span.size) = .ok (Offset.wholeLineSpan t i (i + span.size)) := by
  have happend := firstLine_append after
  have hbehind := congrArg size (lastLine_append behind)
  rw [size_append, h.size_eq] at hbehind
  rw [h.offset_wholeLineSpan, Checked.wholeLineSpan, h.cutTo, ok_bind, h.advance.cutFrom, ok_bind, position?_newline,
    h.cut_lastLine, ok_bind, getD_lastBreak?, isEmpty_trim, ← blankLineAfter_eq, Cut.wholeLines]
  cases hfirst : firstLine after with
  | mk line rest =>
      rw [hfirst] at happend
      obtain rfl : line ++ rest = after := happend
      have htail : Checked.cut t (i + span.size) (i + span.size + line.size) = .ok line := h.advance.cut
      have hsize := h.size_text
      simp only [size_append] at hsize
      cases rest with
      | nil =>
          have hend : t.size = i + span.size + line.size := by
            rw [size_nil] at hsize
            omega
          simp only [if_true, Option.map_none, Option.getD_none, Option.elim_none]
          rw [hend, htail, ok_bind, isEmpty_trim]
          by_cases hgrows : blankLineAfter true behind = true ∧ isBlankText line = true
          · rw [if_pos hgrows, if_pos hgrows]
            simp only [spanOf, size_append]
            rw [← hbehind]
            simp only [Nat.add_assoc]
          · rw [if_neg hgrows, if_neg hgrows, spanOf, h.size_eq]
      | cons newline rest =>
          obtain rfl : newline = '\n' := newline_of_firstLine (congrArg Prod.snd hfirst)
          simp only [reduceCtorEq, if_false, Option.map_some, Option.getD_some, Option.elim_some]
          rw [htail, ok_bind, isEmpty_trim]
          by_cases hgrows : blankLineAfter true behind = true ∧ isBlankText line = true
          · rw [if_pos hgrows, if_pos hgrows]
            have hone : Char.utf8Size '\n' = 1 := rfl
            simp only [spanOf, size_append, size_cons, size_nil, hone]
            rw [← hbehind]
            simp only [Nat.add_assoc]
          · rw [if_neg hgrows, if_neg hgrows, spanOf, h.size_eq]

end WholeLines

end CribSheet.Checked
