/-
Removing every occurrence of a kind of markup.

A finder marks the next occurrence in a text.  Each occurrence is grown to whole lines and removed, and
the search goes on behind it.  The two bits of look-back, whether the next character is escaped and
whether the line is blank so far, always speak about the text as it was given.

Main definitions:

* `CribSheet.Markup.Finder` — marks the next occurrence;
* `CribSheet.Markup.removeAll` — the edits that remove all occurrences.

Main results:

* `CribSheet.Markup.given_removeAll` — they are edits of the text that was given.
-/
import CribSheet.Text.Cut
import CribSheet.Markup.Group

set_option relaxedAutoImplicit false
set_option autoImplicit false

namespace CribSheet.Markup

open CribSheet.Text

/-- Marks the next occurrence of something in a text, from whether its first character is escaped. -/
abbrev Finder := (escaped : Bool) → Text → Option Cut

/-- The finder marks spans of the text it is given. -/
def Finder.Splits (find : Finder) : Prop :=
  ∀ {escaped : Bool} {t : Text} {c : Cut}, find escaped t = some c → c.text = t

/-- **The edits that remove every occurrence**, from left to right.  `escaped` says whether the first
character is escaped, `blank` whether the line is blank up to it. -/
def removeAll (find : Finder) (escaped blank : Bool) (t : Text) : Revision :=
  match find escaped t with
  | none => Revision.none t
  | some found =>
    let c := found.wholeLines blank
    if c.after.length < t.length then
      let read := c.before ++ c.span
      Revision.cons ⟨c.before, c.span, []⟩
        (removeAll find (escapedAfter escaped read) (blankLineAfter blank read) c.after)
    else Revision.none t
termination_by t.length

theorem given_removeAll {find : Finder} (hf : find.Splits) (escaped blank : Bool) (t : Text) :
    (removeAll find escaped blank t).given = t := by
  fun_induction removeAll find escaped blank t with
  | case1 => rfl
  | case2 escaped blank t found h c _ _ ih =>
    rw [Revision.given_cons, ih]
    exact (Cut.text_wholeLines blank found).trans (hf h)
  | case3 => rfl

/-- Marks the next command with the name, without its arguments. -/
def commandFinder (name : Text) : Finder := fun escaped t =>
  (Sighting.find? [name] escaped t).map fun s => ⟨s.before, s.source, s.after⟩

theorem commandFinder_splits (name : Text) : (commandFinder name).Splits := by
  intro escaped t c h
  obtain ⟨s, hs, rfl⟩ := Option.map_eq_some_iff.1 h
  exact Sighting.text_find? hs

end CribSheet.Markup
