/-
Directives that a sheet cannot accept, and their removal from a payload.

A row of the table names a command and says what goes: the command with all its arguments, or one
package out of the list that it imports.  An import whose list becomes empty goes as a whole.  What is
removed as a whole takes its lines with it when nothing else stands on them.  The removal knows no
directive by name; adding one means adding a row.

Main definitions:

* `CribSheet.Payload.Directive` — a row of the table;
* `CribSheet.Payload.Directive.forbidden` — the built-in rows;
* `CribSheet.Payload.Directive.revise` — the edits that one row makes in a text;
* `CribSheet.Payload.removeDirectives` — the text after all rows of a table.

Main results:

* `CribSheet.Payload.Directive.given_revise` — the edits are edits of the text that was given.
-/
import CribSheet.Text.Cut
import CribSheet.Markup.Group

set_option relaxedAutoImplicit false
set_option autoImplicit false

namespace CribSheet.Payload

open CribSheet.Text CribSheet.Markup

/-- What is taken out of a text for a forbidden command. -/
inductive Removal
  /-- The package with this name, from the list that the command imports. -/
  | package (name : Text)
  /-- The command and every group that follows it. -/
  | command
deriving Repr, DecidableEq

/-- A command that a sheet cannot accept, and what is done about it. -/
structure Directive where
  /-- The name of the command, without the backslash. -/
  name : Text
  /-- What is taken out. -/
  removal : Removal
deriving Repr, DecidableEq

/-- What becomes of a command that is edited. -/
structure Replacement where
  /-- The arguments that go together with the command. -/
  arguments : Text
  /-- What is written in place of the command and its arguments. -/
  inserted : Text
  /-- What follows the arguments. -/
  after : Text
deriving Repr, DecidableEq

namespace Directive

/-- The built-in table: heading packages and the commands they bring, which the skeleton of a sheet
does not support. -/
def forbidden : List Directive :=
  [⟨"usepackage".toList, .package "titlesec".toList⟩,
   ⟨"RequirePackage".toList, .package "titlesec".toList⟩,
   ⟨"titleformat".toList, .command⟩,
   ⟨"titlespacing".toList, .command⟩]

/-- The names in an import list: separated by commas, trimmed, and none of them empty. -/
def importNames (list : Text) : List Text := ((list.splitOn ',').map Text.trim).filter (· ≠ [])

/-- Two names are equal up to the case of the letters `a` to `z`. -/
def sameName (a b : Text) : Bool := a.lower == b.lower

/-- The options of an import: a balanced bracket group, as it is written, and the rest of the text.
No options are fine; a bracket that is not closed is not. -/
def importOptions? (t : Text) : Option (Text × Text) :=
  if t.head? = some '[' then (Group.read? t).map fun g => (g.source, g.after) else some ([], t)

/-- The import without the package; nothing when the command does not import it or cannot be read.  The
space in front of the list is crossed when the list is read.  When there are no options it was crossed
before already, so the two can cross a blank line. -/
def dropPackage? (package : Text) (s : Sighting) : Option Replacement := do
  let (space, rest) := argumentSpace s.after
  let (options, rest) ← importOptions? rest
  let list ← Argument.read? rest
  let names := importNames list.inner
  if names.any (sameName package) then
    let kept := names.filter fun name => !sameName package name
    some
      { arguments := space ++ options ++ list.source
        inserted :=
          if kept = [] then [] else s.source ++ options ++ '{' :: joinWith [','] kept ++ ['}']
        after := list.after }
  else none

/-- What becomes of a command that the directive names. -/
def replacement? (d : Directive) (s : Sighting) : Option Replacement :=
  match d.removal with
  | .package name => dropPackage? name s
  | .command => some ⟨(groups s.after).1, [], (groups s.after).2⟩

theorem text_importOptions? {t options rest : Text} (h : importOptions? t = some (options, rest)) :
    options ++ rest = t := by
  rw [importOptions?] at h
  split at h
  · obtain ⟨g, hg, he⟩ := Option.map_eq_some_iff.1 h
    obtain ⟨rfl, rfl⟩ := Prod.mk.inj he
    exact Group.text_read? hg
  · obtain ⟨rfl, rfl⟩ := Prod.mk.inj (Option.some.inj h)
    rfl

theorem text_replacement? {d : Directive} {s : Sighting} {r : Replacement}
    (h : d.replacement? s = some r) : r.arguments ++ r.after = s.after := by
  rw [replacement?] at h
  split at h
  · simp only [dropPackage?, Option.bind_eq_bind, Option.bind_eq_some_iff] at h
    obtain ⟨⟨options, rest⟩, ho, list, hl, h⟩ := h
    split at h
    · obtain rfl := Option.some.inj h
      have hl : Argument.read? rest = some list := hl
      conv => rhs; rw [← argumentSpace_append s.after, ← text_importOptions? ho,
        ← Argument.text_read? hl]
      simp [Argument.text]
    · simp at h
  · obtain rfl := Option.some.inj h
    exact groups_append s.after

/-- The span that an edit removes, marked in the text of the sighting. -/
def cut (blank : Bool) (s : Sighting) (r : Replacement) : Cut :=
  let c : Cut := ⟨s.before, s.source ++ r.arguments, r.after⟩
  if r.inserted = [] then c.wholeLines blank else c

theorem text_cut (blank : Bool) {d : Directive} {s : Sighting} {r : Replacement}
    (h : d.replacement? s = some r) : (cut blank s r).text = s.text := by
  have hc : (Cut.mk s.before (s.source ++ r.arguments) r.after).text = s.text := by
    simp [Cut.text, Sighting.text, ← text_replacement? h]
  rw [cut]
  split
  · rw [Cut.text_wholeLines, hc]
  · exact hc

theorem length_after_cut_le (blank : Bool) {d : Directive} {s : Sighting} {r : Replacement}
    (h : d.replacement? s = some r) : (cut blank s r).after.length ≤ s.after.length := by
  have hr := congrArg List.length (text_replacement? h)
  rw [List.length_append] at hr
  have hc : (cut blank s r).after.length ≤ r.after.length := by
    rw [cut]
    split
    · exact Cut.length_after_wholeLines_le blank _
    · exact Nat.le_refl _
  omega

/-- **The edits that a directive makes in a text**, from left to right.  `escaped` says whether the
first character is escaped, `blank` whether the line is blank up to it. -/
def revise (d : Directive) (escaped blank : Bool) (t : Text) : Revision :=
  match h : Sighting.find? [d.name] escaped t with
  | none => Revision.none t
  | some s =>
    have hs : s.after.length < t.length := Sighting.length_after_find? h
    match hr : d.replacement? s with
    | none =>
      let read := s.before ++ s.source
      (d.revise (escapedAfter escaped read) (blankLineAfter blank read) s.after).behind read
    | some r =>
      let c := cut blank s r
      have : c.after.length < t.length := Nat.lt_of_le_of_lt (length_after_cut_le blank hr) hs
      let read := c.before ++ c.span
      Revision.cons ⟨c.before, c.span, r.inserted⟩
        (d.revise (escapedAfter escaped read) (blankLineAfter blank read) c.after)
termination_by t.length

theorem given_revise (d : Directive) (escaped blank : Bool) (t : Text) :
    (d.revise escaped blank t).given = t := by
  fun_induction revise d escaped blank t with
  | case1 => rfl
  | case2 escaped blank t s hs _ _ _ ih =>
    rw [Revision.given_behind, ih]
    exact Sighting.text_find? hs
  | case3 escaped blank t s hs _ r hr _ _ _ ih =>
    rw [Revision.given_cons, ih]
    exact (text_cut blank hr).trans (Sighting.text_find? hs)

end Directive

/-- The text after the edits of every row of the table, row by row. -/
def removeDirectives (table : List Directive) (t : Text) : Text :=
  table.foldl (fun t d => (d.revise false true t).result) t

end CribSheet.Payload
