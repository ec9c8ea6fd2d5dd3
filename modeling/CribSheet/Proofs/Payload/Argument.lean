/-
Titles and the arguments of other commands.

A title with a plain argument is balanced, and what stands between its braces closes no bracket, so a
group that is read over a text with a title in it either ends before the title or holds all of it.

Main results:

* `CribSheet.Payload.read?_title` — a title and a group.
-/
import CribSheet.Proofs.Sheet.Title

set_option relaxedAutoImplicit false
set_option autoImplicit false

namespace CribSheet

open CribSheet.Text CribSheet.Markup CribSheet.Identity

/-! ### Titles in groups -/

namespace Payload

/-- A brace group goes on behind a title as before it. -/
theorem closeBrace?_title {y : Text} (hy : Plain y) (depth : Nat) (b : Text) :
    closeBrace? depth (plainTitle y ++ b) =
      (closeBrace? depth b).map fun p => (plainTitle y ++ p.1, p.2) := by
  have hsplit : plainTitle y ++ b = '\\' :: 't' :: (['i', 't', 'l', 'e'] ++ '{' :: (y ++ '}' :: b)) := by
    simp [plainTitle, titleName]
  rw [hsplit, closeBrace?_pair, closeBrace?_plain_append (by decide), closeBrace?_open,
    closeBrace?_plain_append hy, closeBrace?_close]
  simp [plainTitle, titleName, Function.comp_def]

/-- A bracket group goes on behind a title as before it. -/
theorem closeBracket?_title {y : Text} (hy : Plain y) (depth braces : Nat) (b : Text) :
    closeBracket? depth braces (plainTitle y ++ b) =
      (closeBracket? depth braces b).map fun p => (plainTitle y ++ p.1, p.2) := by
  have hsplit : plainTitle y ++ b = '\\' :: 't' :: (['i', 't', 'l', 'e'] ++ '{' :: (y ++ '}' :: b)) := by
    simp [plainTitle, titleName]
  rw [hsplit, closeBracket?_pair, closeBracket?_bare_append (by decide), closeBracket?_open,
    closeBracket?_plain_append hy, closeBracket?_close]
  simp [plainTitle, titleName, Function.comp_def]

/-- **A title and a group**: a group that starts before the title ends before it or holds it. -/
theorem read?_title {a y q : Text} (hy : Plain y) (ha : a ≠ []) (hfresh : escapedAfter false a = false)
    {g : Group} (h : Group.read? (a ++ (plainTitle y ++ q)) = some g) :
    (∃ rest, a = g.source ++ rest ∧ g.after = rest ++ (plainTitle y ++ q)) ∨
      ∃ c i₁ i₂ d, a = c :: i₁ ∧ q = i₂ ++ d :: g.after ∧ g.inner = i₁ ++ plainTitle y ++ i₂ ∧
        g.source = c :: g.inner ++ [d] ∧ escapedAfter false i₁ = false := by
  obtain ⟨c, a, rfl⟩ := List.exists_cons_of_ne_nil ha
  rcases read?_eq_some h with ⟨t, ht, hclose, hsource⟩ | ⟨t, ht, hclose, hsource⟩
  · obtain ⟨rfl, rfl⟩ := List.cons.inj ht
    rw [escapedAfter_cons_of_ne (by decide)] at hfresh
    rcases closeBrace?_append hclose hfresh with ⟨rest, hrest, hafter⟩ | ⟨depth', i, hi, hrest⟩
    · refine Or.inl ⟨rest, ?_, hafter⟩
      rw [hsource, closeBrace?_eq_append 0 a hrest]
      simp
    · rw [closeBrace?_title hy] at hrest
      obtain ⟨⟨i₂, r⟩, hi₂, hir⟩ := Option.map_eq_some_iff.1 hrest
      obtain ⟨rfl, rfl⟩ := Prod.mk.inj hir
      refine Or.inr ⟨_, a, i₂, '}', rfl, closeBrace?_eq_append depth' q hi₂, ?_, hsource, hfresh⟩
      rw [hi, List.append_assoc]
  · obtain ⟨rfl, rfl⟩ := List.cons.inj ht
    rw [escapedAfter_cons_of_ne (by decide)] at hfresh
    rcases closeBracket?_append hclose hfresh with
      ⟨rest, hrest, hafter⟩ | ⟨depth', braces', i, hi, hrest⟩
    · refine Or.inl ⟨rest, ?_, hafter⟩
      rw [hsource, closeBracket?_eq_append 0 0 a hrest]
      simp
    · rw [closeBracket?_title hy] at hrest
      obtain ⟨⟨i₂, r⟩, hi₂, hir⟩ := Option.map_eq_some_iff.1 hrest
      obtain ⟨rfl, rfl⟩ := Prod.mk.inj hir
      refine Or.inr ⟨_, a, i₂, ']', rfl, closeBracket?_eq_append depth' braces' q hi₂, ?_, hsource,
        hfresh⟩
      rw [hi, List.append_assoc]

/-- **A title and a mandatory argument.** -/
theorem argument_read?_title {a y q : Text} (hy : Plain y) (hfresh : escapedAfter false a = false)
    {list : Argument} (h : Argument.read? (a ++ (plainTitle y ++ q)) = some list) :
    (∃ p, a = list.source ++ p ∧ list.after = p ++ (plainTitle y ++ q)) ∨
      ∃ i₁ i₂, a = list.space ++ '{' :: i₁ ∧ list.inner = i₁ ++ plainTitle y ++ i₂ ∧
        q = i₂ ++ '}' :: list.after ∧ escapedAfter false i₁ = false := by
  have hblank := isBlankText_argumentSpace (a ++ (plainTitle y ++ q))
  have hsplit : (argumentSpace (a ++ (plainTitle y ++ q))).1 ++
      (argumentSpace (a ++ (plainTitle y ++ q))).2 = a ++ plainTitle y ++ q := by
    rw [argumentSpace_append, List.append_assoc]
  rw [Argument.read?] at h
  generalize argumentSpace (a ++ (plainTitle y ++ q)) = found at h hblank hsplit
  obtain ⟨space, u⟩ := found
  simp only at h hblank hsplit
  obtain ⟨p, rfl, hu⟩ := cut_plainTitle_plain (slash_not_mem_of_isBlankText hblank) hsplit
  rw [escapedAfter_append, escapedAfter_blank hblank] at hfresh
  rw [hu, List.append_assoc] at h
  split at h
  · next inner after hg =>
      obtain rfl := Option.some.inj h
      have hp : p ≠ [] := by
        rintro rfl
        simp [plainTitle, Group.read?] at hg
      rcases read?_title hy hp hfresh hg with ⟨z, hz, hafter⟩ | ⟨c, i₁, i₂, d, rfl, hd, hinner, hsource, hi⟩
      · refine Or.inl ⟨z, ?_, hafter⟩
        rw [hz]
        simp [Argument.source, Group.source]
      · have hbraces : '{' :: inner ++ ['}'] = c :: inner ++ [d] := hsource
        obtain ⟨rfl, htail⟩ := List.cons.inj hbraces
        obtain rfl : '}' = d := by simpa using htail
        exact Or.inr ⟨i₁, i₂, rfl, hinner, hd, hi⟩
  · simp at h

end Payload

end CribSheet
