/-
The edits of a directive.

A directive edits a command by deleting it, or by writing an import again with a shorter list.  Either way the span that
it edits ends at an edge, with the last group of the command or with the command itself, so that what the directive
deletes behind it does not reach back over it.

Main definitions:

* `CribSheet.Payload.Directive.DropsPackage`, `CribSheet.Payload.Directive.Leaves` — what is written in place of a span.

Main results:

* `CribSheet.Payload.Directive.isEdge_cut` — **an edit ends at an edge**;
* `CribSheet.Payload.Directive.forall_edits_revise` — **every edit deletes or shortens a list**.
-/
import CribSheet.Proofs.Markup.Edges
import CribSheet.Proofs.Payload.Directive

set_option relaxedAutoImplicit false
set_option autoImplicit false

namespace CribSheet.Payload.Directive

open Text Markup

variable {d : Directive} {s : Sighting} {r : Replacement}

/-! ### Ends -/

/-- The arguments of a command that is edited end with a group, if there are any. -/
theorem endsLine_arguments (h : d.replacement? s = some r) : EndsLine r.arguments := by
  rw [replacement?] at h
  split at h
  · obtain ⟨options, rest, list, -, -, -, rfl⟩ := dropPackage?_eq_some h
    exact list.endsLine_source.append_left (by simp [Argument.source]) _
  · obtain rfl := Option.some.inj h
    exact endsLine_groups s.after

/-- **An edit ends at an edge.** -/
theorem isEdge_cut (hname : IsWord s.name) (h : d.replacement? s = some r) (blank : Bool) :
    IsEdge (cut blank s r).span (cut blank s r).after := by
  have hspan : EndsLine (s.source ++ r.arguments) := (Sighting.endsLine_source hname).append (endsLine_arguments h)
  rw [cut]
  split
  · exact IsEdge.wholeLines (c := ⟨s.before, s.source ++ r.arguments, r.after⟩) (Or.inl hspan) blank
  · exact Or.inl hspan

/-! ### What takes the place of a span -/

/-- **An import is written again without a package**: with its options, and with the names of its list that are not the
package's, of which there is one less at least. -/
def DropsPackage (package removed inserted : Text) : Prop :=
  ∃ command space options : Text, ∃ list : Argument,
    removed = command ++ space ++ options ++ list.source ∧
      inserted = command ++ options ++ '{' ::
        joinWith [','] ((importNames list.inner).filter fun name => !sameName package name) ++ ['}'] ∧
      ((importNames list.inner).filter fun name => !sameName package name).length < (importNames list.inner).length

/-- What the directive may write in place of a span: nothing, or the import that the span is, with a shorter list. -/
def Leaves (d : Directive) (removed inserted : Text) : Prop :=
  inserted = [] ∨ ∃ package, d.removal = .package package ∧ DropsPackage package removed inserted

theorem leaves_of_replacement? (h : d.replacement? s = some r) : d.Leaves (s.source ++ r.arguments) r.inserted := by
  rw [replacement?] at h
  split at h
  · next package hpackage =>
      obtain ⟨options, rest, list, -, -, ⟨name, hname, hsame⟩, rfl⟩ := dropPackage?_eq_some h
      simp only
      split
      · exact Or.inl rfl
      · refine Or.inr ⟨package, hpackage, s.source, (argumentSpace s.after).1, options, list, ?_, rfl, ?_⟩
        · simp only [List.append_assoc]
        · exact List.length_filter_lt_length_iff_exists.2 ⟨name, hname, by simp [hsame]⟩
  · obtain rfl := Option.some.inj h
    exact Or.inl rfl

/-- An edit takes fewer bytes than what it edits. -/
theorem size_inserted_lt (blank : Bool) (h : d.replacement? s = some r) : r.inserted.size < (cut blank s r).span.size :=
  size_lt_of_sublist (inserted_sublist_span_cut blank h) fun heq =>
    absurd (heq ▸ length_inserted_lt blank h) (Nat.lt_irrefl _)

theorem leaves_cut (blank : Bool) (h : d.replacement? s = some r) : d.Leaves (cut blank s r).span r.inserted := by
  rw [cut]
  split
  · next hnil => exact Or.inl hnil
  · exact leaves_of_replacement? h

/-- **Every edit deletes or shortens a list**, and makes the text smaller. -/
theorem forall_edits_revise (d : Directive) (escaped blank : Bool) (t : Text) :
    ∀ e ∈ (d.revise escaped blank t).edits, d.Leaves e.removed e.inserted ∧ e.inserted.size < e.removed.size := by
  fun_induction revise d escaped blank t with
  | case1 => exact List.forall_mem_nil _
  | case2 escaped blank t s _ _ _ _ ih =>
      exact (Revision.forall_edits_behind
        (p := fun removed inserted => d.Leaves removed inserted ∧ inserted.size < removed.size) _).2 ih
  | case3 escaped blank t s _ _ r hr _ _ _ ih =>
      intro e he
      rcases List.mem_cons.1 he with rfl | he
      · exact ⟨leaves_cut blank hr, size_inserted_lt blank hr⟩
      · exact ih e he

end CribSheet.Payload.Directive
