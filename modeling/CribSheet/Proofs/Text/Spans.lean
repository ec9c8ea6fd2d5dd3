/-
Where the spans of a revision lie.

The edits of a revision follow one another in the text that was given, so the spans that they remove are disjoint and
in order.  A program that knows the whole text grows a span to the start of its line by looking back from it, and could
look back over the end of an edit made before.  It does not when that end is an edge: nothing grows over a line break,
nor over a character that is not blank.

Main definitions:

* `CribSheet.Text.Deletion`, `CribSheet.Text.Revision.deletions` — spans in bytes, and those that a revision removes;
* `CribSheet.Text.IsEdge` — what no growth goes over.

Main results:

* `CribSheet.Text.Revision.pairwise_deletions` — **the spans of a revision are disjoint and in order**;
* `CribSheet.Text.IsEdge.wholeLines_within` — **growth behind an edge** is the growth that only sees the text behind it;
* `CribSheet.Text.IsEdge.wholeLines` — growth leads from edge to edge.
-/
import CribSheet.Proofs.Text.Cut

set_option relaxedAutoImplicit false
set_option autoImplicit false

namespace CribSheet.Text

/-! ### Spans in bytes -/

/-- A span that goes, in bytes, and what is written in its place. -/
structure Deletion where
  /-- Where the span starts. -/
  start : Nat
  /-- Where the span ends. -/
  stop : Nat
  /-- The text that takes its place. -/
  inserted : Text
deriving Repr, DecidableEq

/-- The spans that edits remove from a text that starts at `offset`. -/
def deletionsOf (offset : Nat) : List Edit → List Deletion
  | [] => []
  | e :: edits =>
    let start := offset + e.kept.size
    let stop := start + e.removed.size
    ⟨start, stop, e.inserted⟩ :: deletionsOf stop edits

namespace Revision

/-- The spans that the revision removes from a text that starts at `offset`. -/
def deletions (offset : Nat) (r : Revision) : List Deletion := deletionsOf offset r.edits

@[simp] theorem deletions_none (offset : Nat) (t : Text) : (none t).deletions offset = [] := rfl

@[simp] theorem deletions_cons (offset : Nat) (e : Edit) (r : Revision) :
    (cons e r).deletions offset =
      ⟨offset + e.kept.size, offset + e.kept.size + e.removed.size, e.inserted⟩ ::
        r.deletions (offset + e.kept.size + e.removed.size) := rfl

@[simp] theorem deletions_behind (offset : Nat) (t : Text) (r : Revision) :
    (r.behind t).deletions offset = r.deletions (offset + t.size) := by
  obtain ⟨edits, rest⟩ := r
  cases edits with
  | nil => rfl
  | cons e edits => simp only [behind, deletions, deletionsOf, size_append, Nat.add_assoc]

/-- A text in front changes only what is kept. -/
theorem forall_edits_behind {p : Text → Text → Prop} {r : Revision} (t : Text) :
    (∀ e ∈ (r.behind t).edits, p e.removed e.inserted) ↔ ∀ e ∈ r.edits, p e.removed e.inserted := by
  obtain ⟨edits, rest⟩ := r
  cases edits with
  | nil => rfl
  | cons e edits => simp only [behind, List.forall_mem_cons]

/-- Each span is that of an edit, and lies in the text that was given. -/
theorem exists_edit_of_mem_deletions {offset : Nat} {r : Revision} {d : Deletion} (h : d ∈ r.deletions offset) :
    ∃ e ∈ r.edits, offset ≤ d.start ∧ d.stop = d.start + e.removed.size ∧ d.stop ≤ offset + r.given.size := by
  obtain ⟨edits, rest⟩ := r
  induction edits generalizing offset with
  | nil => simp [deletions, deletionsOf] at h
  | cons e edits ih =>
      have hgiven : (Revision.mk (e :: edits) rest).given.size =
          e.kept.size + e.removed.size + (Revision.mk edits rest).given.size := by
        rw [← size_append, ← size_append]
        exact congrArg size (given_cons e ⟨edits, rest⟩)
      rw [hgiven]
      rcases List.mem_cons.1 h with rfl | h
      · exact ⟨e, List.mem_cons_self, Nat.le_add_right _ _, rfl, by simp only; omega⟩
      · obtain ⟨e', he', hstart, hstop, hle⟩ := ih h
        exact ⟨e', List.mem_cons_of_mem _ he', by omega, hstop, by omega⟩

/-- **The spans of a revision are disjoint**, and in the order of its edits. -/
theorem pairwise_deletions (offset : Nat) (r : Revision) :
    (r.deletions offset).Pairwise fun d e => d.stop ≤ e.start := by
  obtain ⟨edits, rest⟩ := r
  induction edits generalizing offset with
  | nil => exact List.Pairwise.nil
  | cons e edits ih =>
      refine List.pairwise_cons.2 ⟨fun d hd => ?_, ih _⟩
      obtain ⟨-, -, hstart, -⟩ := exists_edit_of_mem_deletions (r := ⟨edits, rest⟩) hd
      exact hstart

end Revision

/-! ### Edges -/

/-- The text ends with a line break or a character that is not blank, or is empty. -/
def EndsLine (t : Text) : Prop := ∀ c ∈ t.getLast?, c = '\n' ∨ isBlank c = false

/-- **No growth goes over the border of the two texts**: the first one ends with a line break or a character that is not
blank, or a line ends in front of the second one. -/
def IsEdge (behind ahead : Text) : Prop := EndsLine behind ∨ ∀ c ∈ ahead.head?, c = '\n'

theorem endsLine_nil : EndsLine [] := nofun

theorem isEdge_nil (ahead : Text) : IsEdge [] ahead := Or.inl endsLine_nil

/-- Only the end of the second one of two texts matters. -/
theorem EndsLine.append_left {b : Text} (h : EndsLine b) (hb : b ≠ []) (a : Text) : EndsLine (a ++ b) := by
  intro c hc
  rw [List.getLast?_append, List.getLast?_eq_some_getLast hb, Option.some_or, ← List.getLast?_eq_some_getLast hb] at hc
  exact h c hc

theorem EndsLine.append {a b : Text} (ha : EndsLine a) (hb : EndsLine b) : EndsLine (a ++ b) := by
  by_cases hnil : b = []
  · rwa [hnil, List.append_nil]
  · exact hb.append_left hnil a

theorem endsLine_concat (t : Text) {c : Char} (hc : isBlank c = false) : EndsLine (t ++ [c]) := by
  intro d hd
  obtain rfl : c = d := by simpa using hd
  exact Or.inr hc

theorem IsEdge.append_left {b ahead : Text} (h : IsEdge b ahead) (hb : b ≠ []) (a : Text) : IsEdge (a ++ b) ahead :=
  h.imp_left fun hends => hends.append_left hb a

/-- **A blank line does not reach over an edge.** -/
theorem IsEdge.lastLine_append {behind before rest : Text} {c : Char} (h : IsEdge behind (before ++ c :: rest))
    (hc : c ≠ '\n') (hblank : blankLineAfter true (behind ++ before) = true) :
    lastLine (behind ++ before) = (behind ++ (lastLine before).1, (lastLine before).2) := by
  by_cases hmem : '\n' ∈ before
  · exact lastLine_append_of_mem behind hmem
  · have hends : EndsLine behind := by
      refine h.resolve_right fun hhead => ?_
      cases before with
      | nil => exact hc (hhead c rfl)
      | cons d before => exact hmem (List.mem_cons.2 (Or.inl (hhead d rfl).symm))
    rw [lastLine_of_not_mem hmem, List.append_nil]
    rcases List.eq_nil_or_concat behind with rfl | ⟨x, d, rfl⟩
    · exact lastLine_of_not_mem hmem
    · rw [List.concat_eq_append] at hends hblank ⊢
      rcases hends d (by simp) with rfl | hd
      · rw [List.append_assoc]
        exact lastLine_append_break x hmem
      · -- A character that is not blank would stand on the line.
        have hne : d ≠ '\n' := by
          rintro rfl
          exact absurd hd (by decide)
        rw [blankLineAfter_append, blankLineAfter_append, blankLineAfter_cons, blankLineAfter_nil, blankLineStep,
          if_neg hne, hd, Bool.and_false, blankLineAfter_false_of_not_mem hmem] at hblank
        exact absurd hblank Bool.false_ne_true

namespace Cut

/-- The same cut in a text with `t` in front. -/
def within (t : Text) (c : Cut) : Cut := { c with before := t ++ c.before }

end Cut

/-- **Growth behind an edge** stays behind it: what a look over the whole text finds is what a look over the text behind
the edge finds, when it is told whether the line was blank before. -/
theorem IsEdge.wholeLines_within {behind : Text} {c : Cut} {d : Char} (h : IsEdge behind (c.before ++ c.span ++ c.after))
    (hspan : c.span.head? = some d) (hd : d ≠ '\n') :
    (c.within behind).wholeLines true = (c.wholeLines (blankLineAfter true behind)).within behind := by
  obtain ⟨before, span, after⟩ := c
  obtain ⟨span, rfl⟩ : ∃ rest, span = d :: rest := List.head?_eq_some_iff.1 hspan
  have hline : blankLineAfter true (behind ++ before) = blankLineAfter (blankLineAfter true behind) before :=
    blankLineAfter_append true behind before
  by_cases hgrows : blankLineAfter true (behind ++ before) = true ∧ isBlankText (firstLine after).1 = true
  · have hedge : IsEdge behind (before ++ d :: (span ++ after)) := by simpa using h
    have hlast := hedge.lastLine_append hd hgrows.1
    simp only [Cut.within, Cut.wholeLines, if_pos hgrows, if_pos (hline ▸ hgrows), hlast]
    cases (firstLine after).2 <;> rfl
  · have hfixed : (Cut.mk before (d :: span) after).wholeLines (blankLineAfter true behind) = ⟨before, d :: span, after⟩ :=
      if_neg (hline ▸ hgrows)
    rw [hfixed]
    exact if_neg hgrows

/-- **Growth leads from edge to edge**: a cut that ends at one still does when it is grown. -/
theorem IsEdge.wholeLines {c : Cut} (h : IsEdge c.span c.after) (blank : Bool) :
    IsEdge (c.wholeLines blank).span (c.wholeLines blank).after := by
  simp only [Cut.wholeLines]
  split
  · split
    · exact Or.inr nofun
    · next newline rest hrest =>
        obtain rfl : newline = '\n' := newline_of_firstLine hrest
        exact Or.inl fun d hd => Or.inl (by simpa using hd.symm)
  · exact h

end CribSheet.Text
