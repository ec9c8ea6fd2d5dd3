/-
Texts without raw list directives.

The commands `\item`, `\begin` and `\end` of a list are directives; none of them should be shown.  A tidy
text cannot show one, whatever the reader of running text drops from it or joins in it: no word of it is
the beginning of a directive's name, except in the marker of an environment that is no list.

Main definitions:

* `CribSheet.HoldsDirective` — a text shows a directive;
* `CribSheet.Tidy` — texts in which no directive can come about.

Main results:

* `CribSheet.Tidy.not_holdsDirective` — a tidy text shows no directive;
* `CribSheet.Tidy.append`, `CribSheet.Tidy.of_append`, `CribSheet.Tidy.of_closeBrace?`,
  `CribSheet.Tidy.trim` — tidy texts can be joined, cut and trimmed.
-/
import CribSheet.Proofs.Display.InlineReading
import CribSheet.Proofs.Text.Deletion

set_option relaxedAutoImplicit false
set_option autoImplicit false

namespace CribSheet

open CribSheet.Markup
open CribSheet.Identity (Plain)

/-! ### Directives -/

/-- **The text shows a directive:** an unescaped control word `\item`, or a marker of a list with its
whole argument. -/
def HoldsDirective (t : Text) : Prop :=
  ∃ before name after : Text, t = before ++ '\\' :: (name ++ after) ∧
    escapedAfter false before = false ∧ (∀ c ∈ after.head?, Text.isLetter c = false) ∧
    (name = itemName ∨
      (name = beginName ∨ name = endName) ∧
        ∃ a, Argument.read? after = some a ∧ isListName a.inner.trim = true)

/-- The names of the commands that are directives. -/
def directiveNames : List Text := [itemName, beginName, endName]

/-- The word is the beginning of a directive's name, or the whole of it. -/
def StartsDirective (word : Text) : Prop := ∃ name ∈ directiveNames, word <+: name

/-- A name of letters and stars that is no list. -/
structure IsOtherName (name : Text) : Prop where
  chars : ∀ c ∈ name, Text.isLetter c = true ∨ c = '*'
  not_list : isListName name = false

/-- **Tidy texts.**  A word may be followed by more letters, since reading may drop what stands between. -/
inductive Tidy : Text → Prop
  | nil : Tidy []
  | slash : Tidy ['\\']
  | char {c : Char} {w : Text} (hc : c ≠ '\\') (h : Tidy w) : Tidy (c :: w)
  | escape {c : Char} {w : Text} (hc : Text.isLetter c = false) (h : Tidy w) : Tidy ('\\' :: c :: w)
  | word {name w : Text} (hname : ∀ c ∈ name, Text.isLetter c = true) (hstart : ¬ StartsDirective name)
    (h : Tidy w) : Tidy ('\\' :: (name ++ w))
  | marker {word name w : Text} (hword : word = beginName ∨ word = endName) (hname : IsOtherName name)
    (h : Tidy w) : Tidy ('\\' :: (word ++ '{' :: (name ++ '}' :: w)))

theorem ne_backslash_of_isLetter {c : Char} (hc : Text.isLetter c = true) : c ≠ '\\' := by
  rintro rfl
  exact absurd hc (by decide)

theorem slash_not_mem_of_letters {name : Text} (hname : ∀ c ∈ name, Text.isLetter c = true) :
    '\\' ∉ name := fun h => ne_backslash_of_isLetter (hname _ h) rfl

/-- The empty word starts every directive. -/
theorem ne_nil_of_not_startsDirective {name : Text} (h : ¬ StartsDirective name) : name ≠ [] := by
  rintro rfl
  exact h ⟨itemName, by simp [directiveNames], List.nil_prefix⟩

theorem plain_of_letters {name : Text} (hname : ∀ c ∈ name, Text.isLetter c = true) : Plain name := by
  intro c hc hmem
  have hletter := hname c hc
  simp only [List.mem_cons, List.not_mem_nil, or_false] at hmem
  rcases hmem with rfl | rfl | rfl <;> exact absurd hletter (by decide)

namespace IsOtherName

variable {name : Text}

theorem plain (h : IsOtherName name) : Plain name := by
  intro c hc hmem
  rcases h.chars c hc with hletter | rfl
  · have hsingle : Plain [c] := plain_of_letters (by simpa using hletter)
    exact hsingle c (List.mem_singleton_self c) hmem
  · exact absurd hmem (by decide)

theorem not_special (h : IsOtherName name) {c : Char} (hc : c ∈ name) : c ∉ ['\\', '$', '~'] := by
  rcases h.chars c hc with hletter | rfl
  · intro hmem
    simp only [List.mem_cons, List.not_mem_nil, or_false] at hmem
    rcases hmem with rfl | rfl | rfl <;> exact absurd hletter (by decide)
  · decide

theorem trim_eq (h : IsOtherName name) : name.trim = name := by
  have hblank : ∀ c ∈ name, isBlank c = false := by
    intro c hc
    rcases h.chars c hc with hletter | rfl
    · exact isBlank_of_isLetter hletter
    · decide
  exact (Text.trim_eq_self_iff name).2
    ⟨fun c hc => hblank c (List.mem_of_mem_head? hc), fun c hc => hblank c (List.mem_of_mem_getLast? hc)⟩

end IsOtherName

theorem slash_not_mem_marker {word name : Text} (hword : word = beginName ∨ word = endName)
    (hname : IsOtherName name) : '\\' ∉ word ++ '{' :: (name ++ ['}']) := by
  have hplain := hname.plain.slash_not_mem
  rcases hword with rfl | rfl <;> simpa [beginName, endName] using hplain

/-- A word without backslashes closes the escape in front of it. -/
theorem escapedAfter_word {x : Text} (hne : x ≠ []) (hx : '\\' ∉ x) :
    escapedAfter false ('\\' :: x) = false := by
  obtain ⟨c, x, rfl⟩ := List.exists_cons_of_ne_nil hne
  rw [escapedAfter_pair, escapedAfter_plain fun h => hx (List.mem_cons_of_mem _ h)]

/-! #### Cuts -/

section Cuts

variable {P : Text → Prop} {a b w : Text}

/-- What follows a cut of a text that starts with a character: all of the text, or what follows a cut behind it. -/
theorem behind_cut_char {c : Char} (hc : c ≠ '\\') (hwhole : P (c :: w))
    (ih : ∀ a, escapedAfter false a = false → a ++ b = w → P b)
    (h : a ++ b = c :: w) (hfresh : escapedAfter false a = false) : P b := by
  cases a with
  | nil =>
    obtain rfl : b = c :: w := h
    exact hwhole
  | cons d a =>
    obtain ⟨rfl, hrest⟩ := List.cons.inj h
    rw [escapedAfter_cons_of_ne hc] at hfresh
    exact ih a hfresh hrest

/-- What follows a cut of a text that starts with a command, with no escape open: all of the text, what stands behind
a part of the command's letters, or what follows a cut behind the command. -/
theorem behind_cut_command {x : Text} (hne : x ≠ []) (hx : '\\' ∉ x) (hwhole : P ('\\' :: (x ++ w)))
    (hletters : ∀ y, y <:+ x → P (y ++ w)) (ih : ∀ a, escapedAfter false a = false → a ++ b = w → P b)
    (h : a ++ b = '\\' :: (x ++ w)) (hfresh : escapedAfter false a = false) : P b := by
  cases a with
  | nil =>
    obtain rfl : b = '\\' :: (x ++ w) := h
    exact hwhole
  | cons d a =>
    obtain ⟨rfl, hrest⟩ := List.cons.inj h
    rcases List.append_eq_append_iff.1 hrest with ⟨y, rfl, rfl⟩ | ⟨y, rfl, hy⟩
    · exact hletters y (List.suffix_append a y)
    · rw [← List.cons_append, escapedAfter_append, escapedAfter_word hne hx] at hfresh
      exact ih y hfresh hy.symm

end Cuts

/-! #### Directives behind something else -/

/-- What stands behind a command shows a directive when both together do and the command is none. -/
theorem HoldsDirective.of_command {x w : Text} (hne : x ≠ []) (hx : '\\' ∉ x)
    (h : HoldsDirective ('\\' :: (x ++ w)))
    (hnone : ∀ name after, x ++ w = name ++ after → (∀ c ∈ after.head?, Text.isLetter c = false) →
      ¬ (name = itemName ∨ (name = beginName ∨ name = endName) ∧
        ∃ a, Argument.read? after = some a ∧ isListName a.inner.trim = true)) : HoldsDirective w := by
  obtain ⟨before, name, after, htext, hfresh, hends, hdirective⟩ := h
  cases before with
  | nil => exact absurd hdirective (hnone name after (List.cons.inj htext).2 hends)
  | cons c before =>
    obtain ⟨rfl, hrest⟩ := List.cons.inj htext
    obtain ⟨before, rfl, rfl⟩ := Text.exists_of_plain_append_eq hx hrest
    rw [← List.cons_append, escapedAfter_append, escapedAfter_word hne hx] at hfresh
    exact ⟨before, name, after, rfl, hfresh, hends, hdirective⟩

/-- The name of a directive, where a word stands that is not the beginning of one. -/
theorem startsDirective_of_append_eq {word name w after : Text}
    (hword : ∀ c ∈ word, Text.isLetter c = true) (h : word ++ w = name ++ after)
    (hends : ∀ c ∈ after.head?, Text.isLetter c = false) (hname : name ∈ directiveNames) :
    StartsDirective word := by
  rcases List.append_eq_append_iff.1 h with ⟨y, hy, -⟩ | ⟨y, hy, hafter⟩
  · exact ⟨name, hname, y, hy.symm⟩
  · -- The word would go on behind the name, with a letter.
    cases y with
    | nil => exact ⟨name, hname, by simp [hy]⟩
    | cons c y =>
      have hletter := hword c (by simp [hy])
      have hnot := hends c (by simp [hafter])
      simp [hletter] at hnot

theorem letters_of_mem_directiveNames {name : Text} (h : name ∈ directiveNames) :
    ∀ c ∈ name, Text.isLetter c = true := by
  simp only [directiveNames, List.mem_cons, List.not_mem_nil, or_false] at h
  rcases h with rfl | rfl | rfl <;> decide

theorem exists_letter_of_mem_directiveNames {name : Text} (h : name ∈ directiveNames) :
    ∃ c rest, name = c :: rest ∧ Text.isLetter c = true := by
  have hletters := letters_of_mem_directiveNames h
  cases name with
  | nil => exact absurd h (by decide)
  | cons c rest => exact ⟨c, rest, rfl, hletters c (List.mem_cons_self ..)⟩

/-- Every directive has the name of one. -/
theorem mem_directiveNames {name : Text} {p : Prop} (h : name = itemName ∨ (name = beginName ∨ name = endName) ∧ p) :
    name ∈ directiveNames := by
  rcases h with rfl | ⟨rfl | rfl, -⟩ <;> simp [directiveNames]

namespace HoldsDirective

theorem not_nil : ¬ HoldsDirective [] := by
  rintro ⟨before, name, after, htext, -⟩
  simp at htext

theorem not_slash : ¬ HoldsDirective ['\\'] := by
  rintro ⟨before, name, after, htext, -, -, hdirective⟩
  obtain ⟨d, name, rfl, -⟩ := exists_letter_of_mem_directiveNames (mem_directiveNames hdirective)
  cases before with
  | nil => simp at htext
  | cons c before => simp at htext

/-- A directive stands behind what is no backslash. -/
theorem of_char {c : Char} {w : Text} (hc : c ≠ '\\') (h : HoldsDirective (c :: w)) : HoldsDirective w := by
  obtain ⟨before, name, after, htext, hfresh, hends, hdirective⟩ := h
  cases before with
  | nil => exact absurd (List.cons.inj htext).1 hc
  | cons d before =>
    obtain ⟨rfl, rfl⟩ := List.cons.inj htext
    rw [escapedAfter_cons_of_ne hc] at hfresh
    exact ⟨before, name, after, rfl, hfresh, hends, hdirective⟩

/-- A directive stands behind an escaped character that is no letter. -/
theorem of_escape {c : Char} {w : Text} (hc : Text.isLetter c = false) (h : HoldsDirective ('\\' :: c :: w)) :
    HoldsDirective w := by
  obtain ⟨before, name, after, htext, hfresh, hends, hdirective⟩ := h
  cases before with
  | nil =>
    obtain ⟨d, name, rfl, hd⟩ := exists_letter_of_mem_directiveNames (mem_directiveNames hdirective)
    obtain ⟨rfl, -⟩ := List.cons.inj (List.cons.inj htext).2
    simp [hc] at hd
  | cons d before =>
    obtain ⟨rfl, hrest⟩ := List.cons.inj htext
    cases before with
    | nil => exact absurd hfresh (by decide)
    | cons e before =>
      obtain ⟨rfl, rfl⟩ := List.cons.inj hrest
      rw [escapedAfter_pair] at hfresh
      exact ⟨before, name, after, rfl, hfresh, hends, hdirective⟩

/-- A directive stands behind a word that starts none. -/
theorem of_word {name w : Text} (hname : ∀ c ∈ name, Text.isLetter c = true) (hstart : ¬ StartsDirective name)
    (h : HoldsDirective ('\\' :: (name ++ w))) : HoldsDirective w := by
  refine h.of_command (ne_nil_of_not_startsDirective hstart) (slash_not_mem_of_letters hname) ?_
  intro name' after htext hends hdirective
  exact hstart (startsDirective_of_append_eq hname htext hends (mem_directiveNames hdirective))

/-- A directive stands behind the marker of an environment that is no list. -/
theorem of_marker {word name w : Text} (hword : word = beginName ∨ word = endName) (hname : IsOtherName name)
    (h : HoldsDirective ('\\' :: (word ++ '{' :: (name ++ '}' :: w)))) : HoldsDirective w := by
  have hsplit : '\\' :: (word ++ '{' :: (name ++ '}' :: w)) = '\\' :: (word ++ '{' :: (name ++ ['}']) ++ w) := by
    simp
  rw [hsplit] at h
  refine h.of_command (by simp) (slash_not_mem_marker hword hname) ?_
  intro name' after htext hends hdirective
  have hletters := letters_of_mem_directiveNames (mem_directiveNames hdirective)
  have hword' : ∀ c ∈ word, Text.isLetter c = true := by rcases hword with rfl | rfl <;> decide
  have hbrace : ∀ c ∈ ('{' :: (name ++ '}' :: w)).head?, Text.isLetter c = false := by simp; decide
  rw [List.append_assoc, List.cons_append, List.append_assoc, List.singleton_append] at htext
  obtain ⟨rfl, rfl⟩ := word_eq_of_append_eq hword' hletters hbrace hends htext
  rcases hdirective with h | ⟨-, a, ha, hlist⟩
  · rcases hword with rfl | rfl <;> exact absurd h (by decide)
  · rw [argument_read?_plain hname.plain] at ha
    obtain rfl := Option.some.inj ha
    simp [hname.trim_eq, hname.not_list] at hlist

end HoldsDirective

/-- **A tidy text shows no directive.** -/
theorem Tidy.not_holdsDirective {t : Text} (h : Tidy t) : ¬ HoldsDirective t := by
  induction h with
  | nil => exact HoldsDirective.not_nil
  | slash => exact HoldsDirective.not_slash
  | char hc _ ih => exact fun h => ih (h.of_char hc)
  | escape hc _ ih => exact fun h => ih (h.of_escape hc)
  | word hname hstart _ ih => exact fun h => ih (h.of_word hname hstart)
  | marker hword hname _ ih => exact fun h => ih (h.of_marker hword hname)

/-! ### Parts of tidy texts -/

namespace Tidy

/-- Text without backslashes in front of a tidy text. -/
theorem plain_append {x w : Text} (hx : '\\' ∉ x) (h : Tidy w) : Tidy (x ++ w) := by
  induction x with
  | nil => exact h
  | cons c x ih =>
    obtain ⟨hc, hx⟩ := not_or.1 fun h => hx (List.mem_cons.2 h)
    exact .char (Ne.symm hc) (ih hx)

theorem of_plain {x : Text} (hx : '\\' ∉ x) : Tidy x := by
  simpa using plain_append hx .nil

/-- A tidy text that leaves no escape open goes on with any tidy text. -/
theorem append {a w : Text} (ha : Tidy a) (hfresh : escapedAfter false a = false) (h : Tidy w) :
    Tidy (a ++ w) := by
  induction ha with
  | nil => exact h
  | slash => exact absurd hfresh (by decide)
  | char hc _ ih =>
    rw [escapedAfter_cons_of_ne hc] at hfresh
    exact .char hc (ih hfresh)
  | escape hc _ ih =>
    rw [escapedAfter_pair] at hfresh
    exact .escape hc (ih hfresh)
  | @word name w' hname hstart _ ih =>
    rw [← List.cons_append, escapedAfter_append, escapedAfter_word
      (ne_nil_of_not_startsDirective hstart) (slash_not_mem_of_letters hname)] at hfresh
    rw [List.cons_append, List.append_assoc]
    exact .word hname hstart (ih hfresh)
  | @marker word name w' hword hname _ ih =>
    have hmarker : escapedAfter false ('\\' :: (word ++ '{' :: (name ++ ['}']))) = false :=
      escapedAfter_word (by simp) (slash_not_mem_marker hword hname)
    have hsplit : '\\' :: (word ++ '{' :: (name ++ '}' :: w')) =
        '\\' :: (word ++ '{' :: (name ++ ['}'])) ++ w' := by simp
    rw [hsplit, escapedAfter_append, hmarker] at hfresh
    simpa using Tidy.marker hword hname (ih hfresh)

/-- **What follows is tidy**, wherever a tidy text is cut with no escape open. -/
theorem of_append {a b : Text} (h : Tidy (a ++ b)) (hfresh : escapedAfter false a = false) : Tidy b := by
  generalize htext : a ++ b = t at h
  induction h generalizing a with
  | nil =>
    obtain ⟨-, rfl⟩ := List.append_eq_nil_iff.1 htext
    exact .nil
  | slash =>
    cases a with
    | nil =>
      obtain rfl : b = ['\\'] := htext
      exact .slash
    | cons c a =>
      obtain ⟨-, rfl⟩ := List.append_eq_nil_iff.1 (List.cons.inj htext).2
      exact .nil
  | char hc h ih => exact behind_cut_char hc (.char hc h) (fun a => ih) htext hfresh
  | @escape c w hc h ih =>
    cases a with
    | nil =>
      obtain rfl : b = '\\' :: c :: w := htext
      exact .escape hc h
    | cons d a =>
      obtain ⟨rfl, hrest⟩ := List.cons.inj htext
      cases a with
      | nil => exact absurd hfresh (by decide)
      | cons e a =>
        obtain ⟨rfl, hrest'⟩ := List.cons.inj hrest
        rw [escapedAfter_pair] at hfresh
        exact ih hfresh hrest'
  | word hname hstart h ih =>
    have hslash := slash_not_mem_of_letters hname
    exact behind_cut_command (ne_nil_of_not_startsDirective hstart) hslash (.word hname hstart h)
      (fun y hy => plain_append (fun hm => hslash (hy.subset hm)) h) (fun a => ih) htext hfresh
  | @marker word name w hword hname h ih =>
    have hslash := slash_not_mem_marker hword hname
    have hwhole : Tidy ('\\' :: (word ++ '{' :: (name ++ ['}']) ++ w)) := by
      simpa using Tidy.marker hword hname h
    exact behind_cut_command (by simp) hslash hwhole
      (fun y hy => plain_append (fun hm => hslash (hy.subset hm)) h) (fun a => ih) (by simpa using htext) hfresh

/-- **The content of a group in a tidy text is tidy.** -/
theorem of_closeBrace? {t : Text} (h : Tidy t) {depth : Nat} {inner after : Text}
    (hclose : closeBrace? depth t = some (inner, after)) : Tidy inner := by
  induction h generalizing depth inner with
  | nil => simp [closeBrace?] at hclose
  | slash => simp [closeBrace?] at hclose
  | @char c w hc _ ih =>
    obtain ⟨-, rfl, -⟩ | ⟨depth', inner', -, rfl, hi⟩ := braceReader.read_char_cases hc hclose
    · exact .nil
    · exact .char hc (ih hi)
  | @escape c w hc _ ih =>
    obtain ⟨inner', rfl, hi⟩ := braceReader.exists_of_read_pair hclose
    exact .escape hc (ih hi)
  | @word name w hname hstart _ ih =>
    rw [closeBrace?_word (ne_nil_of_not_startsDirective hstart) (plain_of_letters hname)] at hclose
    obtain ⟨⟨inner', after'⟩, hi, hia⟩ := Option.map_eq_some_iff.1 hclose
    obtain ⟨rfl, rfl⟩ := Prod.mk.inj hia
    exact .word hname hstart (ih hi)
  | @marker word name w hword hname _ ih =>
    have hne : word ≠ [] := by rcases hword with rfl | rfl <;> decide
    have hletters : ∀ c ∈ word, Text.isLetter c = true := by rcases hword with rfl | rfl <;> decide
    rw [closeBrace?_command hne (plain_of_letters hletters), closeBrace?_plain_append hname.plain,
      closeBrace?_close, Option.map_map, Option.map_map] at hclose
    obtain ⟨⟨inner', after'⟩, hi, hia⟩ := Option.map_eq_some_iff.1 hclose
    obtain ⟨rfl, rfl⟩ := Prod.mk.inj hia
    exact .marker hword hname (ih hi)

/-- Blanks at the end of a tidy text can be dropped. -/
theorem of_append_blank {a b : Text} (h : Tidy (a ++ b)) (hb : b.isBlankText = true) : Tidy a := by
  generalize htext : a ++ b = t at h
  -- Blanks do not start inside of a command, which ends with a letter or a brace.
  induction h generalizing a with
  | nil =>
    obtain ⟨rfl, -⟩ := List.append_eq_nil_iff.1 htext
    exact .nil
  | slash =>
    cases a with
    | nil => exact .nil
    | cons c a =>
      obtain ⟨rfl, hrest⟩ := List.cons.inj htext
      obtain ⟨rfl, -⟩ := List.append_eq_nil_iff.1 hrest
      exact .slash
  | @char c w hc h ih =>
    cases a with
    | nil => exact .nil
    | cons d a =>
      obtain ⟨rfl, hrest⟩ := List.cons.inj htext
      exact .char hc (ih hrest)
  | @escape c w hc h ih =>
    cases a with
    | nil => exact .nil
    | cons d a =>
      obtain ⟨rfl, hrest⟩ := List.cons.inj htext
      cases a with
      | nil => exact .slash
      | cons e a =>
        obtain ⟨rfl, hrest'⟩ := List.cons.inj hrest
        exact .escape hc (ih hrest')
  | @word name w hname hstart h ih =>
    cases a with
    | nil => exact .nil
    | cons d a =>
      obtain ⟨rfl, hrest⟩ := List.cons.inj htext
      obtain ⟨a, rfl, ha⟩ := Text.exists_of_append_blank_eq hb
        (fun c hc => isBlank_of_isLetter (hname c (List.mem_of_mem_getLast? hc))) hrest
      exact .word hname hstart (ih ha.symm)
  | @marker word name w hword hname h ih =>
    cases a with
    | nil => exact .nil
    | cons d a =>
      obtain ⟨rfl, hrest⟩ := List.cons.inj htext
      have hlast : ∀ c ∈ (word ++ '{' :: (name ++ ['}'])).getLast?, isBlank c = false := by
        rw [← List.cons_append, ← List.append_assoc, List.getLast?_concat]
        intro c hc
        obtain rfl := Option.some.inj hc
        decide
      have htail : a ++ b = word ++ '{' :: (name ++ ['}']) ++ w := by simpa using hrest
      obtain ⟨a, rfl, ha⟩ := Text.exists_of_append_blank_eq hb hlast htail
      simpa using Tidy.marker hword hname (ih ha.symm)

theorem trimStart {t : Text} (h : Tidy t) : Tidy t.trimStart := by
  obtain ⟨x, hx, ht⟩ := exists_trimStart t
  rw [ht] at h
  exact h.of_append (escapedAfter_blank hx)

theorem trimEnd {t : Text} (h : Tidy t) : Tidy t.trimEnd := by
  rw [← Text.dropEndWhile_append_takeEndWhile isBlank t] at h
  exact h.of_append_blank (List.all_eq_true.2 fun c hc => Text.mem_takeEndWhile hc)

theorem trim {t : Text} (h : Tidy t) : Tidy t.trim := h.trimStart.trimEnd

end Tidy

end CribSheet
