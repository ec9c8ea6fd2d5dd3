/-
Cuts and revisions.

A cut marks a span of a text.  When nothing but blanks shares the lines of the span, it can be grown
to whole lines, so that removing it leaves no empty line behind.  A revision is a text with a list of
cuts in it, one after the other, each with what replaces it; the given and the revised text are two
readings of the same value, so spans are disjoint and in order by construction.

Main definitions:

* `CribSheet.Text.Cut`, `CribSheet.Text.Cut.wholeLines` — a marked span, and its growth;
* `CribSheet.Text.blankLineAfter` — whether the current line is blank so far;
* `CribSheet.Text.Edit`, `CribSheet.Text.Revision` — replacements in order;
* `CribSheet.Text.Revision.given`, `CribSheet.Text.Revision.result` — the two readings.

Main results:

* `CribSheet.Text.Cut.text_wholeLines` — growing moves characters into the span and changes nothing
  else.
-/
import CribSheet.Text.Blank

set_option relaxedAutoImplicit false
set_option autoImplicit false

namespace CribSheet.Text

/-! ### Blank lines behind -/

/-- Whether the line is blank up to behind `c`, from whether it is blank up to `c`. -/
def blankLineStep (blank : Bool) (c : Char) : Bool := if c = '\n' then true else blank && isBlank c

/-- Whether the line is blank up to the end of `t`, from whether it is blank up to its start. -/
def blankLineAfter (blank : Bool) (t : Text) : Bool := t.foldl blankLineStep blank

@[simp] theorem blankLineAfter_nil (blank : Bool) : blankLineAfter blank [] = blank := rfl

@[simp] theorem blankLineAfter_cons (blank : Bool) (c : Char) (t : Text) :
    blankLineAfter blank (c :: t) = blankLineAfter (blankLineStep blank c) t := rfl

theorem blankLineAfter_append (blank : Bool) (t u : Text) :
    blankLineAfter blank (t ++ u) = blankLineAfter (blankLineAfter blank t) u := by
  simp [blankLineAfter, List.foldl_append]

/-! ### Cuts -/

/-- A span marked in a text. -/
structure Cut where
  /-- What stands before the span. -/
  before : Text
  /-- The span. -/
  span : Text
  /-- What stands after the span. -/
  after : Text
deriving Repr, DecidableEq

namespace Cut

/-- The text in which the span is marked. -/
def text (c : Cut) : Text := c.before ++ c.span ++ c.after

/-- **Growing to whole lines**: when only blanks stand on the lines of the span, before and after it, it
takes them all and the line break that ends them.  `blank` says whether the line is blank up to the
start of `c.before`. -/
def wholeLines (blank : Bool) (c : Cut) : Cut :=
  let (tail, rest) := firstLine c.after
  if blankLineAfter blank c.before ∧ isBlankText tail then
    let (before, head) := lastLine c.before
    match rest with
    | [] => ⟨before, head ++ c.span ++ tail, []⟩
    | newline :: rest => ⟨before, head ++ c.span ++ tail ++ [newline], rest⟩
  else c

theorem text_wholeLines (blank : Bool) (c : Cut) : (c.wholeLines blank).text = c.text := by
  have h₁ := firstLine_append c.after
  have h₂ := lastLine_append c.before
  simp only [wholeLines]
  split
  · split
    · next h =>
      rw [h] at h₁
      simp only [text]
      conv => rhs; rw [← h₁, ← h₂]
      simp
    · next h =>
      rw [h] at h₁
      simp only [text]
      conv => rhs; rw [← h₁, ← h₂]
      simp
  · rfl

theorem length_after_wholeLines_le (blank : Bool) (c : Cut) :
    (c.wholeLines blank).after.length ≤ c.after.length := by
  have h₁ := firstLine_append c.after
  have h₂ := congrArg List.length h₁
  rw [List.length_append] at h₂
  simp only [wholeLines]
  split
  · split
    · simp
    · next h =>
      rw [h, List.length_cons] at h₂
      simp only
      omega
  · exact Nat.le_refl _

end Cut

/-! ### Revisions -/

/-- A replacement in a text: what is kept before it, what it removes, and what it puts there. -/
structure Edit where
  /-- The text kept between the last edit and this one. -/
  kept : Text
  /-- The text that is removed. -/
  removed : Text
  /-- The text that takes its place. -/
  inserted : Text
deriving Repr, DecidableEq

/-- A text with edits in it, in order, and what follows the last one. -/
structure Revision where
  /-- The edits. -/
  edits : List Edit
  /-- The text after the last edit. -/
  rest : Text
deriving Repr, DecidableEq

namespace Revision

/-- The text before the revision. -/
def given (r : Revision) : Text := r.edits.flatMap (fun e => e.kept ++ e.removed) ++ r.rest

/-- The text after the revision. -/
def result (r : Revision) : Text := r.edits.flatMap (fun e => e.kept ++ e.inserted) ++ r.rest

/-- The revision of a text in which nothing is found. -/
def none (t : Text) : Revision := ⟨[], t⟩

/-- The revision with an edit in front. -/
def cons (e : Edit) (r : Revision) : Revision := ⟨e :: r.edits, r.rest⟩

/-- The same revision in a text with `t` in front. -/
def behind (t : Text) (r : Revision) : Revision :=
  match r.edits with
  | [] => ⟨[], t ++ r.rest⟩
  | e :: edits => ⟨{ e with kept := t ++ e.kept } :: edits, r.rest⟩

@[simp] theorem given_none (t : Text) : (none t).given = t := rfl

@[simp] theorem result_none (t : Text) : (none t).result = t := rfl

@[simp] theorem given_cons (e : Edit) (r : Revision) :
    (cons e r).given = e.kept ++ e.removed ++ r.given := by
  simp [cons, given]

@[simp] theorem result_cons (e : Edit) (r : Revision) :
    (cons e r).result = e.kept ++ e.inserted ++ r.result := by
  simp [cons, result]

@[simp] theorem given_behind (t : Text) (r : Revision) :
    (r.behind t).given = t ++ r.given := by
  obtain ⟨edits, rest⟩ := r
  cases edits <;> simp [behind, given]

@[simp] theorem result_behind (t : Text) (r : Revision) : (r.behind t).result = t ++ r.result := by
  obtain ⟨edits, rest⟩ := r
  cases edits <;> simp [behind, result]

end Revision

end CribSheet.Text
