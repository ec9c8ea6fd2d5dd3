/-
Texts that are read alike.

Two texts are alike when they give the same blocks, whatever paragraph is pending in front of them.  What
is read as prose can be put in front of both.  In front of a formula on lines of its own the pending
paragraph ends in any case, so blanks and line breaks there make no difference, and the second text may
have others than the first one.

Main definitions:

* `CribSheet.blocksBehind` — the blocks of a text behind pending prose;
* `CribSheet.Closes` — a text in front of which every paragraph ends;
* `CribSheet.Alike` — two texts that are read alike.

Main results:

* `CribSheet.Alike.prose`, `CribSheet.Alike.lineBreak` — prose and line breaks in front of both;
* `CribSheet.Alike.insertBreak`, `CribSheet.Alike.dropBlank`, `CribSheet.Alike.escapedBlank` — other blanks
  in front of a formula.
-/
import CribSheet.Proofs.Display.BlankLines
import CribSheet.Proofs.Markup.Delimiter

set_option relaxedAutoImplicit false
set_option autoImplicit false

namespace CribSheet

open CribSheet.Markup

/-! ### Pending prose -/

/-- A backslash with a character that is no letter and starts no formula is prose. -/
theorem read_pair {d : Char} (hletter : Text.isLetter d = false) (hd : d ∉ ['[', '(']) (blank : Bool)
    (t : Text) : Reading.read blank '\\' (d :: t) = ⟨['\\', d], .prose ['\\', d], t⟩ := by
  have hbracket : d ≠ '[' := fun he => hd (by simp [he])
  have hparen : d ≠ '(' := fun he => hd (by simp [he])
  rw [Reading.read.eq_def, if_pos rfl]
  simp only [hletter, Bool.false_eq_true, if_false, hbracket, hparen]

section Pending

variable (read : Reader)

/-- **The blocks of a text behind the prose `w`** of a paragraph that has not ended. -/
def blocksBehind (blank : Bool) (w t : Text) (seen : Nat) : List Block × Nat :=
  readPieces read ((Piece.prose w).cons (pieces blank t)) seen

/-- **Every pending paragraph ends in front of the text**, however the line begins. -/
def Closes (t : Text) : Prop :=
  ∀ blank w seen, blocksBehind read blank w t seen =
    ((paragraph? w).toList ++ (blocksBehind read true [] t seen).1, (blocksBehind read true [] t seen).2)

variable {read}

/-- Blank prose adds nothing. -/
theorem blocksBehind_of_blank {w : Text} (hw : w.isBlankText = true) (blank : Bool) (t : Text) (seen : Nat) :
    blocksBehind read blank w t seen = readPieces read (pieces blank t) seen :=
  readPieces_blank_cons read hw _ seen

/-- A look that reads prose goes on with more prose pending. -/
theorem blocksBehind_prose {blank : Bool} {c : Char} {t x rest : Text}
    (h : Reading.read blank c t = ⟨x, .prose x, rest⟩) (w : Text) (seen : Nat) :
    blocksBehind read blank w (c :: t) seen =
      blocksBehind read (Text.blankLineAfter blank x) (w ++ x) rest seen := by
  rw [blocksBehind, pieces_of_read_eq h, prose_cons_prose_cons]
  rfl

/-- A look that reads a formula on lines of its own ends the paragraph. -/
theorem blocksBehind_math {blank : Bool} {c : Char} {t x body rest : Text}
    (h : Reading.read blank c t = ⟨x, .math body, rest⟩) (w : Text) (seen : Nat) :
    blocksBehind read blank w (c :: t) seen =
      let next := readPieces read (pieces (Text.blankLineAfter blank x) rest) seen
      ((paragraph? w).toList ++ .math body.trim :: next.1, next.2) := by
  rw [blocksBehind, pieces_of_read_eq h]
  simp [Piece.cons, readPieces, Piece.blocks]

theorem blocksBehind_char {c : Char} (hc : c ∉ ['\n', '\\', '$', '%']) (blank : Bool) (w t : Text) (seen : Nat) :
    blocksBehind read blank w (c :: t) seen =
      blocksBehind read (Text.blankLineAfter blank [c]) (w ++ [c]) t seen :=
  blocksBehind_prose (read_char hc blank t) w seen

/-- A line break in front of a line that is not blank is prose. -/
theorem blocksBehind_break {t : Text} (h : t.firstLine.1.isBlankText = false) (blank : Bool) (w : Text)
    (seen : Nat) :
    blocksBehind read blank w ('\n' :: t) seen = blocksBehind read true (w ++ ['\n']) t seen := by
  rw [blocksBehind, pieces_break h, prose_cons_prose_cons]
  rfl

/-- A line break in front of a blank line ends the paragraph. -/
theorem blocksBehind_blankLine {t : Text} (h : t.firstLine.1.isBlankText = true) (blank : Bool) (w : Text)
    (seen : Nat) :
    blocksBehind read blank w ('\n' :: t) seen =
      ((paragraph? w).toList ++ (blocksBehind read true [] t seen).1,
        (blocksBehind read true [] t seen).2) := by
  rw [blocksBehind, readPieces_prose_break read w h, blocksBehind_of_blank rfl]

/-- Where no paragraph is pending a line break makes no difference. -/
theorem blocksBehind_nil_break (blank : Bool) (t : Text) (seen : Nat) :
    blocksBehind read blank [] ('\n' :: t) seen = blocksBehind read true [] t seen := by
  cases hline : Text.isBlankText t.firstLine.1 with
  | true =>
    rw [blocksBehind_blankLine hline, paragraph?_nil]
    rfl
  | false =>
    have hblank : Text.isBlankText ['\n'] = true := by decide
    rw [blocksBehind_break hline, List.nil_append, blocksBehind_of_blank hblank, blocksBehind_of_blank rfl]

/-- A blank in front of a text that closes makes no difference. -/
theorem Closes.blocksBehind_blank {t : Text} (h : Closes read t) {c : Char} (hc : isBlank c = true)
    (blank blank' : Bool) (w : Text) (seen : Nat) :
    blocksBehind read blank w (c :: t) seen = blocksBehind read blank' w t seen := by
  have hblank : Text.isBlankText [c] = true := List.all_eq_true.2 (by simpa using hc)
  have hparagraph : paragraph? (w ++ [c]) = paragraph? w := paragraph?_append_blank hblank w
  by_cases hbreak : c = '\n'
  · subst hbreak
    cases hline : Text.isBlankText t.firstLine.1 with
    | true => rw [blocksBehind_blankLine hline, h blank' w]
    | false => rw [blocksBehind_break hline, h true (w ++ ['\n']), hparagraph, h blank' w]
  · rw [blocksBehind_char (not_special_of_isBlank hc hbreak), h _ (w ++ [c]), hparagraph, h blank' w]

theorem Closes.blank_cons {t : Text} (h : Closes read t) {c : Char} (hc : isBlank c = true) :
    Closes read (c :: t) := by
  intro blank w seen
  rw [h.blocksBehind_blank hc blank true, h.blocksBehind_blank hc true true]
  exact h true w seen

end Pending

/-! ### Texts that are read alike -/

/-- **The texts are read alike**, and what is said of the first one where the reader looks ahead holds of
the second one, as far as that matters. -/
structure Alike (read : Reader) (t u : Text) : Prop where
  /-- They give the same blocks. -/
  reads : ∀ blank blank' w seen, blocksBehind read blank w t seen = blocksBehind read blank' w u seen
  /-- Their first lines are both blank or both not, or paragraphs end in front of them. -/
  line : t.firstLine.1.isBlankText = u.firstLine.1.isBlankText ∨ Closes read u
  /-- An inline formula that does not close in the first one does not close in the second one. -/
  finds : ∀ closing ∈ [['$'], ['\\', ')']], findUnescaped? closing t = none → findUnescaped? closing u = none

theorem whole_of_mem {closing : Text} (h : closing ∈ [['$'], ['\\', ')']]) : Whole closing := by
  simp only [List.mem_cons, List.not_mem_nil, or_false] at h
  exact h.imp_right fun h => ⟨')', h⟩

theorem firstLine_cons_of_not_blank {c : Char} (hc : isBlank c = false) (t : Text) :
    (Text.firstLine (c :: t)).1.isBlankText = false := by
  have hne : c ≠ '\n' := by
    rintro rfl
    exact absurd hc (by decide)
  simp [Text.firstLine, Text.isBlankText, hne, hc]

namespace Alike

variable {read : Reader} {t u : Text}

/-- In front of a text that is read like one that closes, paragraphs end. -/
theorem closes (h : Alike read t u) (hu : Closes read u) : Closes read t := by
  intro blank w seen
  rw [h.reads blank true, h.reads true true]
  exact hu true w seen

/-- The same text in front of both hides no closing delimiter. -/
theorem finds_append {x : Text} (hx : escapedAfter false x = false) (h : Alike read t u) :
    ∀ closing ∈ [['$'], ['\\', ')']], findUnescaped? closing (x ++ t) = none →
      findUnescaped? closing (x ++ u) = none := by
  intro closing hclosing hnone
  have hwhole := whole_of_mem hclosing
  obtain ⟨hleft, hright⟩ := (findUnescaped?_append_eq_none_iff hwhole hx t).1 hnone
  exact (findUnescaped?_append_eq_none_iff hwhole hx u).2 ⟨hleft, h.finds closing hclosing hright⟩

/-- **Prose that starts with a visible character** in front of both. -/
theorem prose {c : Char} {x : Text} (h : Alike read t u) (hc : isBlank c = false)
    (hx : escapedAfter false (c :: x) = false)
    (hread : ∀ v, v = t ∨ v = u → ∀ blank, Reading.read blank c (x ++ v) = ⟨c :: x, .prose (c :: x), v⟩) :
    Alike read (c :: x ++ t) (c :: x ++ u) := by
  refine ⟨fun blank blank' w seen => ?_, Or.inl ?_, h.finds_append hx⟩
  · rw [List.cons_append, List.cons_append, blocksBehind_prose (hread t (Or.inl rfl) blank),
      blocksBehind_prose (hread u (Or.inr rfl) blank')]
    exact h.reads _ _ _ _
  · rw [List.cons_append, List.cons_append, firstLine_cons_of_not_blank hc, firstLine_cons_of_not_blank hc]

/-- A line break in front of both. -/
theorem lineBreak (h : Alike read t u) : Alike read ('\n' :: t) ('\n' :: u) := by
  refine ⟨fun blank blank' w seen => ?_, Or.inl rfl, h.finds_append (x := ['\n']) rfl⟩
  rcases h.line with hline | hclose
  · cases hu : Text.isBlankText u.firstLine.1 with
    | true =>
      rw [blocksBehind_blankLine (hline.trans hu), blocksBehind_blankLine hu, h.reads true true]
    | false =>
      rw [blocksBehind_break (hline.trans hu), blocksBehind_break hu]
      exact h.reads _ _ _ _
  · have hblank : isBlank '\n' = true := by decide
    rw [(h.closes hclose).blocksBehind_blank hblank blank true, hclose.blocksBehind_blank hblank blank' true]
    exact h.reads _ _ _ _

/-- Another character in front of both. -/
theorem char {c : Char} (hc : c ∉ ['\n', '\\', '$', '%']) (h : Alike read t u) :
    Alike read (c :: t) (c :: u) := by
  have hslash : c ≠ '\\' := fun he => hc (by simp [he])
  cases hblank : isBlank c with
  | false =>
    exact h.prose (x := []) hblank (escapedAfter_cons_of_ne hslash false []) fun v _ blank => read_char hc blank v
  | true =>
    have hbreak : c ≠ '\n' := fun he => hc (by simp [he])
    have hline : ∀ v : Text, (Text.firstLine (c :: v)).1.isBlankText = v.firstLine.1.isBlankText := by
      intro v
      simp [Text.firstLine, Text.isBlankText, hbreak, hblank]
    refine ⟨fun blank blank' w seen => ?_, ?_, h.finds_append (x := [c]) (escapedAfter_cons_of_ne hslash false [])⟩
    · rw [blocksBehind_char hc, blocksBehind_char hc]
      exact h.reads _ _ _ _
    · rw [hline, hline]
      exact h.line.imp_right fun hclose => hclose.blank_cons hblank

/-! ### Blanks in front of a formula -/

theorem finds_cons {c : Char} (hc : c ≠ '\\') {closing : Text} (hclosing : closing ∈ [['$'], ['\\', ')']])
    (hfind : findUnescaped? closing (c :: t) = none) : findUnescaped? closing t = none :=
  ((findUnescaped?_append_eq_none_iff (x := [c]) (whole_of_mem hclosing)
    (escapedAfter_cons_of_ne hc false []) t).1 hfind).2

theorem finds_break {closing : Text} (hclosing : closing ∈ [['$'], ['\\', ')']])
    (hfind : findUnescaped? closing u = none) : findUnescaped? closing ('\n' :: u) = none := by
  have hbreak : findUnescaped? closing ['\n'] = none := by
    simp only [List.mem_cons, List.not_mem_nil, or_false] at hclosing
    rcases hclosing with rfl | rfl <;> rfl
  exact (findUnescaped?_append_eq_none_iff (x := ['\n']) (whole_of_mem hclosing) rfl u).2 ⟨hbreak, hfind⟩

/-- **A line break may be put in** where paragraphs end. -/
theorem insertBreak (h : Alike read t u) (hu : Closes read u) : Alike read t ('\n' :: u) := by
  have hblank : isBlank '\n' = true := by decide
  refine ⟨fun blank blank' w seen => ?_, Or.inr (hu.blank_cons hblank), fun closing hclosing hfind => ?_⟩
  · rw [hu.blocksBehind_blank hblank blank' blank']
    exact h.reads _ _ _ _
  · exact finds_break hclosing (h.finds closing hclosing hfind)

/-- **A blank may be dropped** where paragraphs end. -/
theorem dropBlank {c : Char} (hc : isBlank c = true) (h : Alike read t u) (hu : Closes read u) :
    Alike read (c :: t) u := by
  refine ⟨fun blank blank' w seen => ?_, Or.inr hu, fun closing hclosing hfind => ?_⟩
  · rw [(h.closes hu).blocksBehind_blank hc blank blank]
    exact h.reads _ _ _ _
  · exact h.finds closing hclosing (finds_cons (ne_of_isBlank hc).1 hclosing hfind)

/-- **An escaped blank may become an escaped line break** where paragraphs end. -/
theorem escapedBlank {d : Char} (hd : isBlank d = true) (h : Alike read t u) (hu : Closes read u) :
    Alike read ('\\' :: d :: t) ('\\' :: '\n' :: u) := by
  have hread : ∀ {e : Char}, isBlank e = true → ∀ blank v,
      Reading.read blank '\\' (e :: v) = ⟨['\\', e], .prose ['\\', e], v⟩ := by
    intro e he blank v
    have hletter : Text.isLetter e = false := by
      cases hl : Text.isLetter e with
      | false => rfl
      | true => simp [isBlank_of_isLetter hl] at he
    exact read_pair hletter (not_mem_of_isBlank he (by decide)) blank v
  have hparagraph : ∀ {e : Char}, isBlank e = true → ∀ w, paragraph? (w ++ ['\\', e]) = paragraph? (w ++ ['\\']) := by
    intro e he w
    have hblank : Text.isBlankText [e] = true := List.all_eq_true.2 (by simpa using he)
    rw [← paragraph?_append_blank hblank (w ++ ['\\']), List.append_assoc, List.singleton_append]
  have hbreak : isBlank '\n' = true := by decide
  have hslash : isBlank '\\' = false := by decide
  refine ⟨fun blank blank' w seen => ?_, Or.inl ?_, fun closing hclosing hfind => ?_⟩
  · rw [blocksBehind_prose (hread hd blank t), blocksBehind_prose (hread hbreak blank' u),
      (h.closes hu) _ _ seen, hu _ _ seen, hparagraph hd, hparagraph hbreak, h.reads true true]
  · rw [firstLine_cons_of_not_blank hslash, firstLine_cons_of_not_blank hslash]
  · have hwhole := whole_of_mem hclosing
    have hpair : ∀ e, escapedAfter false ['\\', e] = false := fun e => escapedAfter_pair e []
    obtain ⟨-, ht⟩ := (findUnescaped?_append_eq_none_iff (x := ['\\', d]) hwhole (hpair d) t).1 hfind
    refine (findUnescaped?_append_eq_none_iff (x := ['\\', '\n']) hwhole (hpair '\n') u).2
      ⟨?_, h.finds closing hclosing ht⟩
    simp only [List.mem_cons, List.not_mem_nil, or_false] at hclosing
    rcases hclosing with rfl | rfl <;> rfl

end Alike

end CribSheet
