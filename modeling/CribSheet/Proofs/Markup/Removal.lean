/-
What the removal of a kind of markup takes.

Removing all occurrences takes their spans and the blanks around them, so the result is less than the
text, and it is less by what the first span holds as soon as there is one.

Main results:

* `CribSheet.Markup.result_removeAll_sublist`, `CribSheet.Markup.countP_result_removeAll_lt` — what goes;
* `CribSheet.Markup.heads_result_removeAll_command` — a command that does not count.
-/
import CribSheet.Markup.Removal
import CribSheet.Proofs.Markup.Heads
import CribSheet.Proofs.Markup.Sighting

set_option relaxedAutoImplicit false
set_option autoImplicit false

namespace CribSheet.Markup

open CribSheet.Text

/-- **Removing deletes.** -/
theorem result_removeAll_sublist (find : Finder) (hfind : find.Splits) (escaped blank : Bool)
    (t : Text) : (removeAll find escaped blank t).result.Sublist t := by
  fun_induction removeAll find escaped blank t with
  | case1 => exact List.Sublist.refl _
  | case2 escaped blank t found h c _ read ih =>
      have htext : c.before ++ c.span ++ c.after = t :=
        (Cut.text_wholeLines blank found).trans (hfind h)
      rw [Revision.result_cons, List.append_nil]
      conv => rhs; rw [← htext]
      exact (List.sublist_append_left _ _).append ih
  | case3 => exact List.Sublist.refl _

/-- What follows a span that is not empty is shorter than the text. -/
theorem length_after_wholeLines_lt {find : Finder} (hfind : find.Splits) (escaped blank : Bool)
    {t : Text} {found : Cut} (h : find escaped t = some found) (hne : found.span ≠ []) :
    (found.wholeLines blank).after.length < t.length := by
  have htext := congrArg List.length (hfind h)
  have hle := found.length_after_wholeLines_le blank
  have hpos := List.length_pos_of_ne_nil hne
  simp only [Cut.text, List.length_append] at htext
  omega

/-- **Removing takes what is counted in the first span.** -/
theorem countP_result_removeAll_lt (find : Finder) (hfind : find.Splits) (escaped blank : Bool)
    {t : Text} {found : Cut} (h : find escaped t = some found) {q : Char → Bool}
    (hq : 0 < found.span.countP q) :
    (removeAll find escaped blank t).result.countP q < t.countP q := by
  have hne : found.span ≠ [] := by
    rintro hnil
    rw [hnil] at hq
    exact absurd hq (Nat.lt_irrefl 0)
  have hlt := length_after_wholeLines_lt hfind escaped blank h hne
  obtain ⟨a, b, -, -, hbefore, -, hafter⟩ := found.exists_wholeLines blank
  have htext : found.before ++ found.span ++ found.after = t := hfind h
  have hrest := (result_removeAll_sublist find hfind
    (escapedAfter escaped ((found.wholeLines blank).before ++ (found.wholeLines blank).span))
    (blankLineAfter blank ((found.wholeLines blank).before ++ (found.wholeLines blank).span))
    (found.wholeLines blank).after).countP_le (p := q)
  rw [removeAll, h]
  simp only [if_pos hlt, Revision.result_cons, List.append_nil, List.countP_append]
  rw [← htext, hbefore, hafter]
  simp only [List.countP_append]
  omega

/-! ### Commands -/

section Command

variable {name : Text} {first : Char} {letters : Text}

/-- The command that is found counts by its first letter only, and leaves no escape open. -/
theorem find?_command {escaped : Bool} {t : Text} {s : Sighting} (hname : name = first :: letters)
    (hslash : '\\' ∉ name) (h : Sighting.find? [name] escaped t = some s) :
    s.name = name ∧ escapedAfter escaped s.before = false ∧ escapedAfter false s.source = false ∧
      heads false s.source = if isHead first then 1 else 0 := by
  obtain ⟨hn, hin⟩ := Sighting.isIn_find? h
  obtain rfl : s.name = name := by simpa using hn
  exact ⟨rfl, hin.fresh, Sighting.escapedAfter_source hname hslash,
    Sighting.heads_source hname hslash⟩

/-- **No escape is open** on either side of the cut that takes a command out. -/
theorem escapedAfter_cut_command (hname : name = first :: letters) (hslash : '\\' ∉ name) {t : Text}
    {found : Cut} (h : commandFinder name false t = some found) (blank : Bool) :
    escapedAfter false (found.wholeLines blank).before = false ∧
      escapedAfter false ((found.wholeLines blank).before ++ (found.wholeLines blank).span) = false := by
  obtain ⟨s, hs, rfl⟩ := Option.map_eq_some_iff.1 h
  obtain ⟨-, hfresh, hsource, -⟩ := find?_command hname hslash hs
  obtain ⟨a, b, ha, hb, -, hspan, -⟩ := Cut.exists_wholeLines blank ⟨s.before, s.source, s.after⟩
  have hbefore := escapedAfter_before_wholeLines (c := ⟨s.before, s.source, s.after⟩) hfresh blank
  refine ⟨hbefore, ?_⟩
  rw [escapedAfter_append, hbefore, hspan, escapedAfter_append, escapedAfter_append, escapedAfter_blank ha,
    hsource, escapedAfter_blank hb]

/-- **A command that does not count goes unnoticed.** -/
theorem heads_result_removeAll_command (hname : name = first :: letters) (hslash : '\\' ∉ name)
    (hhead : isHead first = false) {escaped : Bool} (hescaped : escaped = false) (blank : Bool)
    (t : Text) :
    heads false (removeAll (commandFinder name) escaped blank t).result = heads false t := by
  fun_induction removeAll (commandFinder name) escaped blank t with
  | case1 => rfl
  | case2 escaped blank t found h c _ read ih =>
      subst hescaped
      obtain ⟨hcbefore, hread⟩ : escapedAfter false c.before = false ∧ escapedAfter false read = false :=
        escapedAfter_cut_command hname hslash h blank
      obtain ⟨s, hs, rfl⟩ := Option.map_eq_some_iff.1 h
      obtain ⟨-, -, -, hheads⟩ := find?_command hname hslash hs
      obtain ⟨a, b, ha, hb, -, hspan, -⟩ := Cut.exists_wholeLines blank ⟨s.before, s.source, s.after⟩
      have hspan : c.span = a ++ s.source ++ b := hspan
      have hzero : heads false c.span = 0 := by
        rw [hspan, heads_append_blank hb, heads_blank_append ha, hheads, hhead]
        rfl
      have htext : read ++ c.after = t :=
        (Cut.text_wholeLines blank _).trans (commandFinder_splits name h)
      simp only [Revision.result_cons, List.append_nil, heads_append, hcbefore, ih hread]
      conv => rhs; rw [← htext, heads_append, hread, heads_append, hcbefore, hzero]
      rfl
  | case3 => rfl

end Command

end CribSheet.Markup
