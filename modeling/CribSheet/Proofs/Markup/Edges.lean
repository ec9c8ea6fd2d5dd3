/-
Where markup ends.

A group ends with its closing delimiter and a command with a letter or its star, so a span that is taken out of a text
ends at an edge: nothing that is found behind it grows over its end.

Main definitions:

* `CribSheet.Markup.Finder.Edged` — finders that mark what starts with a backslash and ends at an edge.

Main results:

* `CribSheet.Markup.Sighting.endsLine_source`, `CribSheet.Markup.endsLine_groups` — the ends of commands and groups;
* `CribSheet.Markup.commandFinder_edged` — the finder of a command is one of them;
* `CribSheet.Markup.Finder.Edged.forall_edits_removeAll` — removing all occurrences only deletes.
-/
import CribSheet.Proofs.Markup.Removal
import CribSheet.Proofs.Markup.Parted
import CribSheet.Proofs.Text.Spans

set_option relaxedAutoImplicit false
set_option autoImplicit false

namespace CribSheet

open Text

namespace Markup

/-! ### Commands and groups -/

/-- A command ends with a letter of its name or with its star. -/
theorem Sighting.endsLine_source {s : Sighting} (hname : IsWord s.name) : EndsLine s.source := by
  rw [Sighting.source]
  cases s.starred with
  | true => exact endsLine_concat _ (by decide)
  | false =>
      obtain ⟨letters, last, hlast⟩ := (List.eq_nil_or_concat s.name).resolve_left hname.ne_nil
      rw [List.concat_eq_append] at hlast
      have hletter := hname.letters last (by simp [hlast])
      rw [if_neg Bool.false_ne_true, List.append_nil, hlast, ← List.cons_append]
      exact endsLine_concat _ (isBlank_of_isLetter hletter)

/-- A group ends with its closing delimiter. -/
theorem Group.endsLine_source (g : Group) : EndsLine g.source := by
  obtain ⟨fence, inner, after⟩ := g
  cases fence with
  | brace => exact endsLine_concat _ (by decide)
  | bracket => exact endsLine_concat _ (by decide)

theorem Group.source_ne_nil (g : Group) : g.source ≠ [] := by
  obtain ⟨fence, inner, after⟩ := g
  cases fence <;> simp [Group.source]

theorem Argument.endsLine_source (a : Argument) : EndsLine a.source := endsLine_concat _ (by decide)

/-- All groups that follow end with the closing delimiter of the last one. -/
theorem endsLine_groups (t : Text) : EndsLine (groups t).1 := by
  fun_induction groups t with
  | case1 => exact endsLine_nil
  | case2 t g h _ ih => exact (g.endsLine_source.append_left g.source_ne_nil _).append ih

/-! ### Finders -/

/-- **What the finder marks is a span of the text that begins with a backslash and ends at an edge.** -/
structure Finder.Edged (find : Finder) : Prop where
  /-- The span is one of the text. -/
  splits : find.Splits
  /-- It begins with a backslash. -/
  head? : ∀ {escaped : Bool} {t : Text} {c : Cut}, find escaped t = some c → c.span.head? = some '\\'
  /-- It ends at an edge. -/
  isEdge : ∀ {escaped : Bool} {t : Text} {c : Cut}, find escaped t = some c → IsEdge c.span c.after

theorem commandFinder_edged {name : Text} (hname : IsWord name) : (commandFinder name).Edged where
  splits := commandFinder_splits name
  head? h := by
    obtain ⟨s, -, rfl⟩ := Option.map_eq_some_iff.1 h
    rfl
  isEdge h := by
    obtain ⟨s, hs, rfl⟩ := Option.map_eq_some_iff.1 h
    obtain rfl := List.mem_singleton.1 (Sighting.isIn_find? hs).1
    exact Or.inl (Sighting.endsLine_source hname)

section Edged

variable {find : Finder} (hfind : find.Edged) {escaped : Bool} {t : Text} {c : Cut}

include hfind

theorem Finder.Edged.span_ne_nil (h : find escaped t = some c) : c.span ≠ [] := by
  intro hnil
  have hhead := hfind.head? h
  rw [hnil] at hhead
  exact nomatch hhead

/-- Growth leaves something to delete. -/
theorem Finder.Edged.wholeLines_span_ne_nil (h : find escaped t = some c) (blank : Bool) :
    (c.wholeLines blank).span ≠ [] := by
  have hpos := List.length_pos_of_ne_nil (hfind.span_ne_nil h)
  exact List.ne_nil_of_length_pos (Nat.lt_of_lt_of_le hpos (c.length_span_le_wholeLines blank))

/-- **Removing all occurrences only deletes**, and something every time. -/
theorem Finder.Edged.forall_edits_removeAll (escaped blank : Bool) (t : Text) :
    ∀ e ∈ (removeAll find escaped blank t).edits, e.inserted = [] ∧ e.removed ≠ [] := by
  fun_induction removeAll find escaped blank t with
  | case1 => exact List.forall_mem_nil _
  | case2 escaped blank t found h c _ _ ih =>
      rintro e he
      rcases List.mem_cons.1 he with rfl | he
      · exact ⟨rfl, hfind.wholeLines_span_ne_nil h blank⟩
      · exact ih e he
  | case3 => exact List.forall_mem_nil _

end Edged

end Markup

end CribSheet
