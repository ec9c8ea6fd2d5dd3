/-
The end of the skeleton.

Behind a completed fragment stand a line break and the closing root marker.  A group that the fragment
leaves open does not close there: the marker opens a brace before it closes one, and it holds no bracket.
A command at the end of the fragment finds no argument there either.  So what a fragment imports does not
change with the end of the skeleton behind it.

Main definitions:

* `CribSheet.Skeleton.ending` — the end of the skeleton, and blanks behind it;
* `CribSheet.Skeleton.EndsSolid` — a text that does not end with a blank.

Main results:

* `CribSheet.Skeleton.exists_read?` — a group in front of the end of the skeleton is a group without it;
* `CribSheet.Skeleton.findsPackage_of_append_ending` — a package that is found in front of the end of the
  skeleton is found without it.
-/
import CribSheet.Proofs.Payload.OtherImport
import CribSheet.Proofs.Payload.Clean
import CribSheet.Sheet.Skeleton

set_option relaxedAutoImplicit false
set_option autoImplicit false

namespace CribSheet

open CribSheet.Text CribSheet.Markup CribSheet.Payload

namespace Markup

/-! ### Groups and what follows them -/

/-- No brace group closes in a text without a closing brace. -/
theorem closeBrace?_eq_none {t : Text} (h : '}' ∉ t) (depth : Nat) : closeBrace? depth t = none := by
  refine Option.eq_none_iff_forall_ne_some.2 fun ⟨inner, after⟩ hclose => h ?_
  rw [closeBrace?_eq_append depth t hclose]
  simp

/-- No bracket group closes in a text without a closing bracket. -/
theorem closeBracket?_eq_none {t : Text} (h : ']' ∉ t) (depth braces : Nat) :
    closeBracket? depth braces t = none := by
  refine Option.eq_none_iff_forall_ne_some.2 fun ⟨inner, after⟩ hclose => h ?_
  rw [closeBracket?_eq_append depth braces t hclose]
  simp

end Markup

namespace Skeleton

/-! ### The end -/

/-- The end of the skeleton, with some text behind it. -/
def ending (w : Text) : Text := '\n' :: endDocument ++ w

/-- The text does not end with a blank. -/
def EndsSolid (t : Text) : Prop := ∀ c ∈ t.getLast?, isBlank c = false

theorem EndsSolid.of_suffix {x t : Text} (h : EndsSolid t) (hx : x <:+ t) : EndsSolid x := by
  obtain ⟨y, rfl⟩ := hx
  intro c hc
  refine h c ?_
  rw [List.getLast?_append, hc]
  rfl

/-- Behind its leading gaps a text that does not end with a blank goes on. -/
theorem EndsSolid.dropWhile_ne_nil {t : Text} (h : EndsSolid t) (hne : t ≠ []) : t.dropWhile isGap ≠ [] := by
  intro hnil
  have hgap := List.dropWhile_eq_nil_iff.1 hnil _ (List.getLast_mem hne)
  have hsolid := h _ (List.getLast?_eq_some_getLast hne)
  rw [isBlank_of_isGap hgap] at hsolid
  simp at hsolid

section Behind

variable {w : Text} (hw : isBlankText w = true)

include hw

theorem not_mem_of_blank {c : Char} (hc : isBlank c = false) : c ∉ w := fun h => by
  rw [List.all_eq_true.1 hw c h] at hc
  simp at hc

/-- A brace group that is open in front of the end of the skeleton does not close in it. -/
theorem closeBrace?_endDocument (depth : Nat) : closeBrace? depth (endDocument ++ w) = none := by
  have hnone := closeBrace?_eq_none (not_mem_of_blank hw (by decide : isBlank '}' = false))
  have hclose : closeBrace? (depth + 1) ('}' :: w) = none := by
    rw [closeBrace?_close, hnone, Option.map_none]
  simp [endDocument, closeBrace?, hclose]

/-- A brace group closes in front of the end of the skeleton. -/
theorem exists_closeBrace? {y inner after : Text}
    (h : closeBrace? 0 (y ++ ending w) = some (inner, after)) :
    ∃ after', closeBrace? 0 y = some (inner, after') := by
  -- The line break takes an escape that is open at the end of `y`.
  have hsplit : y ++ ending w = (y ++ ['\n']) ++ (endDocument ++ w) := by simp [ending]
  rw [hsplit] at h
  rcases closeBrace?_append h (escapedAfter_concat (by decide) false y) with
    ⟨rest, hclose, -⟩ | ⟨depth', inner', -, hclose⟩
  · have htext := closeBrace?_eq_append 0 _ hclose
    rcases List.eq_nil_or_concat rest with rfl | ⟨after', c, rfl⟩
    · have hlast := congrArg List.getLast? htext
      simp at hlast
    · refine ⟨after', ?_⟩
      have hy : y ++ ['\n'] = (inner ++ '}' :: after') ++ [c] := by rw [htext]; simp
      rw [(List.append_inj' hy rfl).1]
      exact closeBrace?_replace hclose after'
  · rw [closeBrace?_endDocument hw] at hclose
    simp at hclose

/-- A bracket group closes in front of the end of the skeleton. -/
theorem exists_closeBracket? {y inner after : Text}
    (h : closeBracket? 0 0 (y ++ ending w) = some (inner, after)) :
    ∃ after', closeBracket? 0 0 y = some (inner, after') := by
  have hsplit : y ++ ending w = (y ++ ['\n']) ++ (endDocument ++ w) := by simp [ending]
  have hbracket : ']' ∉ endDocument ++ w := by
    rw [List.mem_append, not_or]
    exact ⟨by decide, not_mem_of_blank hw (by decide)⟩
  rw [hsplit] at h
  rcases closeBracket?_append h (escapedAfter_concat (by decide) false y) with
    ⟨rest, hclose, -⟩ | ⟨depth', braces', inner', -, hclose⟩
  · have htext := closeBracket?_eq_append 0 0 _ hclose
    rcases List.eq_nil_or_concat rest with rfl | ⟨after', c, rfl⟩
    · have hlast := congrArg List.getLast? htext
      simp at hlast
    · refine ⟨after', ?_⟩
      have hy : y ++ ['\n'] = (inner ++ ']' :: after') ++ [c] := by rw [htext]; simp
      rw [(List.append_inj' hy rfl).1]
      exact closeBracket?_replace hclose after'
  · rw [closeBracket?_eq_none hbracket] at hclose
    simp at hclose

/-- **A group in front of the end of the skeleton is a group without it.** -/
theorem exists_read? {y : Text} {g : Group} (h : Group.read? (y ++ ending w) = some g) :
    ∃ g', Group.read? y = some g' ∧ g = { g' with after := g'.after ++ ending w } := by
  have hread : ∃ g', Group.read? y = some g' := by
    cases y with
    | nil =>
        rw [List.nil_append, ending, List.cons_append, Group.read?] at h
        simp at h
    | cons c y =>
        rw [List.cons_append, Group.read?] at h
        rw [Group.read?]
        split at h
        · next hc =>
            obtain ⟨⟨inner, after⟩, hclose, -⟩ := Option.map_eq_some_iff.1 h
            obtain ⟨after', hclose'⟩ := exists_closeBrace? hw hclose
            rw [if_pos hc, hclose']
            exact ⟨_, rfl⟩
        · next hc =>
            split at h
            · next hc' =>
                obtain ⟨⟨inner, after⟩, hclose, -⟩ := Option.map_eq_some_iff.1 h
                obtain ⟨after', hclose'⟩ := exists_closeBracket? hw hclose
                rw [if_neg hc, if_pos hc', hclose']
                exact ⟨_, rfl⟩
            · simp at h
  obtain ⟨g', hg'⟩ := hread
  refine ⟨g', hg', ?_⟩
  rw [read?_append_right hg' (ending w)] at h
  exact (Option.some.inj h).symm

end Behind

/-! ### Arguments and imports -/

/-- What may follow a command in front of a text that does not end with a blank follows it there, too. -/
theorem argumentSpace_append_of_endsSolid {x : Text} (h : EndsSolid x) (hne : x ≠ []) (r : Text) :
    (argumentSpace (x ++ r)).2 = (argumentSpace x).2 ++ r := by
  have hdrop : ∀ t : Text, EndsSolid t → t ≠ [] → (t ++ r).dropWhile isGap = t.dropWhile isGap ++ r := by
    intro t ht hne
    rw [List.dropWhile_append, if_neg]
    rw [List.isEmpty_iff]
    exact ht.dropWhile_ne_nil hne
  rw [argumentSpace, argumentSpace, hdrop x h hne]
  cases hx : x.dropWhile isGap with
  | nil => exact absurd hx (h.dropWhile_ne_nil hne)
  | cons c rest =>
      by_cases hc : c = '\n'
      · subst hc
        have hsuffix : '\n' :: rest <:+ x := hx ▸ List.dropWhile_suffix isGap
        have hrest : rest ≠ [] := by
          rintro rfl
          have hsolid := h.of_suffix hsuffix '\n' rfl
          simp [isBlank] at hsolid
        exact hdrop rest (h.of_suffix ((List.suffix_cons '\n' rest).trans hsuffix)) hrest
      · simp [hc]

theorem argumentSpace_suffix (t : Text) : (argumentSpace t).2 <:+ t :=
  ⟨(argumentSpace t).1, argumentSpace_append t⟩

/-- An argument in front of the end of the skeleton is an argument without it. -/
theorem exists_argument_read? {w x : Text} (hw : isBlankText w = true) (hx : EndsSolid x) {a : Argument}
    (h : Argument.read? (x ++ ending w) = some a) :
    ∃ a', Argument.read? x = some a' ∧ a'.inner = a.inner := by
  rw [Argument.read?] at h
  split at h
  · next inner after hg =>
      obtain rfl := Option.some.inj h
      rcases Classical.em (x = []) with rfl | hne
      · have hspace : (argumentSpace ([] ++ ending w)).2 = endDocument ++ w := rfl
        rw [hspace, endDocument, List.cons_append, Group.read?] at hg
        simp at hg
      · rw [argumentSpace_append_of_endsSolid hx hne] at hg
        obtain ⟨g', hg', heq⟩ := exists_read? hw hg
        obtain ⟨fence, inner', after'⟩ := g'
        obtain ⟨rfl, rfl, -⟩ := Group.mk.inj heq
        exact ⟨⟨(argumentSpace x).1, inner, after'⟩, by rw [Argument.read?, hg'], rfl⟩
  · simp at h

/-- **A package that is found in front of the end of the skeleton is found without it.** -/
theorem findsPackage_of_append_ending {w x package : Text} (hw : isBlankText w = true) (hx : EndsSolid x)
    (h : FindsPackage package (x ++ ending w)) : FindsPackage package x := by
  obtain ⟨rest, list, hoptions, hlist, hpiece⟩ := h
  have hfound : ∀ z : Text, EndsSolid z → AfterOptions (argumentSpace x).2 z → rest = z ++ ending w →
      FindsPackage package x := by
    rintro z hz hbehind rfl
    obtain ⟨list', hlist', hinner⟩ := exists_argument_read? hw hz hlist
    exact ⟨z, list', hbehind, hlist', hinner ▸ hpiece⟩
  rcases Classical.em (x = []) with rfl | hne
  · have hspace : (argumentSpace ([] ++ ending w)).2 = endDocument ++ w := rfl
    have hnone : Group.read? (endDocument ++ w) = none := rfl
    have hrest : rest = endDocument ++ w := by
      rcases hoptions with hrest | ⟨g, hg, -⟩
      · rw [hrest, hspace]
      · rw [hspace, hnone] at hg
        simp at hg
    rw [hrest, Argument.read?] at hlist
    have hspace' : (argumentSpace (endDocument ++ w)).2 = endDocument ++ w := rfl
    rw [hspace', hnone] at hlist
    simp at hlist
  · have hsolid := hx.of_suffix (argumentSpace_suffix x)
    rw [argumentSpace_append_of_endsSolid hx hne] at hoptions
    rcases hoptions with hrest | ⟨g, hg, hfence, hrest⟩
    · exact hfound _ hsolid (Or.inl rfl) hrest
    · obtain ⟨g', hg', heq⟩ := exists_read? hw hg
      have hafter : g'.after <:+ (argumentSpace x).2 := ⟨g'.source, Group.text_read? hg'⟩
      refine hfound _ (hsolid.of_suffix hafter) (Or.inr ⟨g', hg', ?_, rfl⟩) ?_
      · rw [heq] at hfence
        exact hfence
      · rw [hrest, heq]

end Skeleton

end CribSheet
