/-
The first command at or after a position.

Where a command stands is told here by position, without a search: its backslash and its name stand there, an even
number of backslashes stands directly before them, and no letter goes on with the name.  The backslashes are counted
back to where they start, even if that is before the position at which a search starts.

Main definitions:

* `CribSheet.Checked.slashesAtEnd` — the number of backslashes at the end of a text;
* `CribSheet.Checked.CommandAt`, `CribSheet.Checked.StarAt` — a command, or a star, stands at a position;
* `CribSheet.Checked.IsFirstCommand` — the span of the first command at or after a position.

Main results:

* `CribSheet.Checked.escapedAfter_eq_slashesAtEnd` — a character is escaped behind an odd number of backslashes;
* `CribSheet.Checked.Stands.exists_isIn` — commands by position are those that stand in what lies ahead;
* `CribSheet.Checked.findCommand?_first` — **the search finds the first command**, and nothing only where there is none.
-/
import CribSheet.Proofs.Bytes.Position
import CribSheet.Proofs.Markup.Sighting
import Mathlib.Data.List.Induction
import Mathlib.Order.Bounds.Basic

set_option relaxedAutoImplicit false
set_option autoImplicit false

namespace CribSheet.Checked

open Text Markup

/-! ### Backslashes -/

/-- How many backslashes the text ends with. -/
def slashesAtEnd (t : Text) : Nat := (t.reverse.takeWhile (· = '\\')).length

theorem slashesAtEnd_concat (t : Text) (c : Char) :
    slashesAtEnd (t ++ [c]) = if c = '\\' then slashesAtEnd t + 1 else 0 := by
  rw [slashesAtEnd, List.reverse_append, List.reverse_singleton, List.singleton_append, List.takeWhile_cons]
  by_cases hc : c = '\\' <;> simp [hc, slashesAtEnd]

/-- **A character is escaped** behind an odd number of backslashes. -/
theorem escapedAfter_eq_slashesAtEnd (t : Text) : escapedAfter false t = (slashesAtEnd t % 2 == 1) := by
  induction t using List.reverseRecOn with
  | nil => rfl
  | append_singleton t c ih =>
      rw [escapedAfter_append, escapedAfter_cons, escapedAfter_nil, slashesAtEnd_concat, ih, escapes]
      by_cases hc : c = '\\'
      · rcases Nat.mod_two_eq_zero_or_one (slashesAtEnd t) with h | h <;> simp [hc, h, Nat.add_mod]
      · simp [hc]

theorem escapedAfter_eq_false_iff {t : Text} : escapedAfter false t = false ↔ slashesAtEnd t % 2 = 0 := by
  rw [escapedAfter_eq_slashesAtEnd, beq_eq_false_iff_ne]
  omega

/-! ### Positions -/

section Positions

variable {t behind ahead front rest : Text} {i j : Nat}

/-- The same position splits the text in the same way. -/
theorem Stands.eq_parts (h : Stands t behind ahead i) (h' : Stands t front rest i) : front = behind ∧ rest = ahead := by
  have hsplit := h'.splitAt?.symm.trans h.splitAt?
  exact Prod.mk.inj (Option.some.inj hsplit)

/-- A later position lies in what is ahead. -/
theorem Stands.exists_of_le (h : Stands t behind ahead i) (h' : Stands t front rest j) (hle : i ≤ j) :
    ∃ between, front = behind ++ between ∧ ahead = between ++ rest := by
  have htext : front ++ rest = behind ++ ahead := h'.text_eq.symm.trans h.text_eq
  rcases List.append_eq_append_iff.1 htext with ⟨between, hbehind, hrest⟩ | ⟨between, hfront, hahead⟩
  · -- What lies between takes no bytes.
    have hnil : between = [] := by
      by_contra hne
      have hpos := size_pos_of_ne_nil hne
      have hsize := congrArg size hbehind
      rw [size_append, h.size_eq, h'.size_eq] at hsize
      omega
    subst hnil
    exact ⟨[], by simpa using hbehind.symm, by simpa using hrest.symm⟩
  · exact ⟨between, hfront, hahead⟩

end Positions

/-! ### Commands by position -/

/-- **The command stands at the position.** -/
def CommandAt (t name : Text) (i : Nat) : Prop :=
  ∃ before rest, Stands t before ('\\' :: (name ++ rest)) i ∧ slashesAtEnd before % 2 = 0 ∧
    ∀ c ∈ rest.head?, isLetter c = false

/-- A star stands at the position. -/
def StarAt (t : Text) (i : Nat) : Prop := ∃ before rest, Stands t before ('*' :: rest) i

/-- **The span of the first command** with the name at or after the position. -/
structure IsFirstCommand (t name : Text) (i : Nat) (span : CommandSpan) : Prop where
  /-- It starts where the first command stands. -/
  isLeast_start : IsLeast {j | i ≤ j ∧ CommandAt t name j} span.start
  /-- It has a star if one follows the name. -/
  starred_iff : span.starred = true ↔ StarAt t (span.start + size ('\\' :: name))
  /-- It ends behind the name and the star. -/
  stop_eq : span.stop = span.start + size ('\\' :: name) + if span.starred then 1 else 0

/-- There is one such span at most. -/
theorem IsFirstCommand.unique {t name : Text} {i : Nat} {span span' : CommandSpan} (h : IsFirstCommand t name i span)
    (h' : IsFirstCommand t name i span') : span = span' := by
  obtain ⟨start, stop, starred⟩ := span
  obtain ⟨start', stop', starred'⟩ := span'
  obtain rfl : start = start' := h.isLeast_start.unique h'.isLeast_start
  obtain rfl : starred = starred' := Bool.eq_iff_iff.2 (h.starred_iff.trans h'.starred_iff.symm)
  obtain rfl : stop = stop' := h.stop_eq.trans h'.stop_eq.symm
  rfl

section Search

variable {t name behind ahead : Text} {i j : Nat}

/-- A sighting of what lies ahead is a command of the text. -/
theorem Stands.commandAt {s : Sighting} (h : Stands t behind ahead i) (hs : s.IsIn (escapedAfter false behind) ahead) :
    CommandAt t s.name (i + s.before.size) := by
  refine ⟨behind ++ s.before, (if s.starred then ['*'] else []) ++ s.after, ?_, ?_, hs.not_isLetter_behind_name⟩
  · exact Stands.advance (hs.eq_behind_name ▸ h)
  · rw [← escapedAfter_eq_false_iff, escapedAfter_append]
    exact hs.fresh

/-- **A command of the text** at or after the position is a sighting of what lies ahead. -/
theorem Stands.exists_isIn (h : Stands t behind ahead i) (hj : i ≤ j) (hcommand : CommandAt t name j) :
    ∃ s : Sighting, s.name = name ∧ s.IsIn (escapedAfter false behind) ahead ∧ j = i + s.before.size := by
  obtain ⟨before, rest, hstands, hslashes, hletter⟩ := hcommand
  obtain ⟨between, rfl, rfl⟩ := h.exists_of_le hstands hj
  have hposition : j = i + between.size := by rw [← hstands.size_eq, size_append, h.size_eq]
  have hfresh : escapedAfter (escapedAfter false behind) between = false := by
    rw [← escapedAfter_append, escapedAfter_eq_false_iff]
    exact hslashes
  by_cases hstar : rest.head? = some '*'
  · obtain ⟨after, rfl⟩ : ∃ after, rest = '*' :: after := List.head?_eq_some_iff.1 hstar
    exact ⟨⟨between, name, true, after⟩, rfl, ⟨by simp [Sighting.text, Sighting.source], hfresh, nofun⟩, hposition⟩
  · refine ⟨⟨between, name, false, rest⟩, rfl, ⟨by simp [Sighting.text, Sighting.source], hfresh, ?_⟩, hposition⟩
    rintro - c hc
    refine ⟨hletter c hc, ?_⟩
    rintro rfl
    exact hstar hc

/-- What the search finds is the first command. -/
theorem Stands.isFirstCommand {s : Sighting} (h : Stands t behind ahead i)
    (hs : Sighting.find? [name] (escapedAfter false behind) ahead = some s) :
    IsFirstCommand t name i (Offset.commandSpan i s) := by
  obtain ⟨hname, hin⟩ := Sighting.isIn_find? hs
  obtain rfl := List.mem_singleton.1 hname
  refine ⟨⟨⟨Nat.le_add_right _ _, h.commandAt hin⟩, ?_⟩, ?_, ?_⟩
  · rintro j ⟨hj, hcommand⟩
    obtain ⟨s', hname', hin', rfl⟩ := h.exists_isIn hj hcommand
    -- Both start in the same text, so the shorter beginning takes no more bytes.
    have hlength := Sighting.length_before_find?_le hs (List.mem_singleton.2 hname') hin'
    obtain ⟨between, hbetween⟩ : s.before <+: s'.before :=
      List.prefix_of_prefix_length_le ⟨_, hin.eq_append.symm⟩ ⟨_, hin'.eq_append.symm⟩ hlength
    have hstart : (Offset.commandSpan i s).start = i + s.before.size := rfl
    rw [hstart, ← hbetween, size_append]
    omega
  · have hstands : Stands t (behind ++ s.before ++ '\\' :: s.name) ((if s.starred then ['*'] else []) ++ s.after)
        (i + s.before.size + size ('\\' :: s.name)) := by
      exact Stands.advance (Stands.advance (hin.eq_behind_name ▸ h))
    change s.starred = true ↔ StarAt t (i + s.before.size + size ('\\' :: s.name))
    constructor
    · intro hstar
      rw [hstar] at hstands
      exact ⟨_, _, hstands⟩
    · rintro ⟨before, rest, hrest⟩
      obtain ⟨-, hahead⟩ := hstands.eq_parts hrest
      cases hstar : s.starred with
      | true => rfl
      | false =>
          have hhead : s.after.head? = some '*' := by simp [hstar] at hahead; rw [← hahead]; rfl
          exact absurd rfl (hin.ends hstar '*' hhead).2
  · have hsource : s.source.size = size ('\\' :: s.name) + if s.starred then 1 else 0 := by
      rw [Sighting.source, size_append]
      cases s.starred <;> rfl
    change i + s.before.size + s.source.size = _
    rw [hsource, ← Nat.add_assoc]
    rfl

end Search

/-- **The search finds the first command**: the one that stands at the least position from the given one on, if there
is one, and nothing otherwise. -/
theorem findCommand?_first {t : Text} {i : Nat} (hi : ∃ behind ahead, Stands t behind ahead i) (name : Text) :
    (∀ span, Offset.findCommand? t name i = some span ↔ IsFirstCommand t name i span) ∧
      (Offset.findCommand? t name i = none ↔ ∀ j, i ≤ j → ¬ CommandAt t name j) := by
  obtain ⟨behind, ahead, h⟩ := hi
  rw [Offset.findCommand?, h.splitAt?]
  simp only
  cases hs : Sighting.find? [name] (escapedAfter false behind) ahead with
  | none =>
      have hnone : ∀ j, i ≤ j → ¬ CommandAt t name j := by
        intro j hj hcommand
        obtain ⟨s, hname, hin, -⟩ := h.exists_isIn hj hcommand
        exact Sighting.find?_eq_none_iff.1 hs s (List.mem_singleton.2 hname) hin
      refine ⟨fun span => iff_of_false nofun fun hspan => ?_, iff_of_true rfl hnone⟩
      obtain ⟨⟨hle, hcommand⟩, -⟩ := hspan.isLeast_start
      exact hnone _ hle hcommand
  | some s =>
      have hfirst := h.isFirstCommand hs
      refine ⟨fun span => ⟨?_, fun hspan => congrArg some (hfirst.unique hspan)⟩, iff_of_false nofun fun hnone => ?_⟩
      · intro hspan
        obtain rfl := Option.some.inj hspan
        exact hfirst
      · obtain ⟨⟨hle, hcommand⟩, -⟩ := hfirst.isLeast_start
        exact hnone _ hle hcommand

/-- From behind a backslash, the first one of `\\title\titlex\title*` is the last one: the backslash of the first is
escaped, and the name of the second goes on. -/
theorem findCommand?_first_of_three :
    ∃ behind ahead, Stands "\\\\title\\titlex\\title*".toList behind ahead 1 ∧
      IsFirstCommand "\\\\title\\titlex\\title*".toList "title".toList 1 ⟨14, 21, true⟩ := by
  have hposition : Stands "\\\\title\\titlex\\title*".toList ['\\'] "\\title\\titlex\\title*".toList 1 := ⟨rfl, rfl⟩
  exact ⟨_, _, hposition, ((findCommand?_first ⟨_, _, hposition⟩ "title".toList).1 ⟨14, 21, true⟩).1 (by decide)⟩

end CribSheet.Checked
