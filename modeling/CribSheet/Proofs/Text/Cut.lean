/-
What the growth of a cut to whole lines takes.

Growing a cut moves characters from the text before it and after it into its span.  It only takes
blanks, and it either stops behind a line break or at an end of the text.

Main results:

* `CribSheet.Text.Cut.exists_wholeLines` — growth takes blanks, on both sides;
* `CribSheet.Text.Cut.wholeLines_cases` — growth reaches the start of a line;
* `CribSheet.Text.Cut.length_span_le_wholeLines` — the span does not shrink.
-/
import CribSheet.Text.Cut

set_option relaxedAutoImplicit false
set_option autoImplicit false

namespace CribSheet.Text

/-! ### Beginnings -/

theorem startsWith_iff {lead t : Text} : startsWith lead t = true ↔ lead <+: t := by
  rw [startsWith, Option.isSome_iff_exists]
  exact exists_congr fun rest => after?_eq_some_iff.trans eq_comm

theorem startsWith_singleton_iff {c : Char} {t : Text} : startsWith [c] t = true ↔ t.head? = some c := by
  rw [startsWith_iff]
  cases t with
  | nil => simp
  | cons d t => simp [List.cons_prefix_cons, eq_comm]

/-- **A beginning does not run across** the start of a text that no character of it starts. -/
theorem isPrefix_of_isPrefix_append {lead t u : Text} (h : lead <+: t ++ u) (hu : ∀ c ∈ u.head?, c ∉ lead) :
    lead <+: t := by
  rcases List.prefix_or_prefix_of_prefix h (List.prefix_append t u) with h' | ⟨x, rfl⟩
  · exact h'
  · have hx : x <+: u := (List.prefix_append_right_inj t).1 h
    cases x with
    | nil => simp
    | cons c x =>
        obtain ⟨y, rfl⟩ := hx
        exact absurd (List.mem_append_right t List.mem_cons_self) (hu c rfl)

/-- A beginning is looked for in front of a text that no character of it starts. -/
theorem after?_append_of_head? {lead u : Text} (hu : ∀ c ∈ u.head?, c ∉ lead) (t : Text) :
    after? lead (t ++ u) = (after? lead t).map (· ++ u) := by
  induction lead generalizing t with
  | nil => rfl
  | cons p lead ih =>
      cases t with
      | nil =>
          cases u with
          | nil => rfl
          | cons c u =>
              have hne : p ≠ c := fun h => hu c rfl (h ▸ List.mem_cons_self)
              exact if_neg hne
      | cons c t =>
          rw [List.cons_append, after?, after?]
          split
          · exact ih (fun d hd hmem => hu d hd (List.mem_cons_of_mem p hmem)) t
          · rfl

/-! ### Two splits of one text -/

/-- What stands in front of a character goes on behind a text without that character. -/
theorem exists_of_plain_append_eq {c : Char} {x u p w : Text} (hx : c ∉ x) (h : x ++ u = p ++ c :: w) :
    ∃ p', p = x ++ p' ∧ u = p' ++ c :: w := by
  rcases List.append_eq_append_iff.1 h with ⟨p', hp, hu⟩ | ⟨y, hy, hw⟩
  · exact ⟨p', hp, hu⟩
  · cases y with
    | nil => exact ⟨[], by simpa using hy.symm, by simpa using hw.symm⟩
    | cons d y =>
        obtain rfl := (List.cons.inj hw).1
        exact absurd (hy ▸ by simp) hx

/-- Blanks at the end of a text stand behind what does not end with a blank. -/
theorem exists_of_append_blank_eq {x w a b : Text} (hb : isBlankText b = true)
    (hx : ∀ c ∈ x.getLast?, isBlank c = false) (h : a ++ b = x ++ w) : ∃ a', a = x ++ a' ∧ w = a' ++ b := by
  rcases List.append_eq_append_iff.1 h with ⟨y, rfl, rfl⟩ | ⟨y, rfl, hy⟩
  · rcases List.eq_nil_or_concat y with rfl | ⟨y, c, rfl⟩
    · exact ⟨[], by simp, rfl⟩
    · have hc : isBlank c = true := List.all_eq_true.1 hb c (by simp)
      simp [hx c (by simp)] at hc
  · exact ⟨y, rfl, hy⟩

/-! ### Blank lines -/

@[simp] theorem isBlankText_nil : isBlankText [] = true := rfl

@[simp] theorem isBlankText_append (t u : Text) :
    isBlankText (t ++ u) = (isBlankText t && isBlankText u) := by
  simp [isBlankText, List.all_append]

theorem blankLineAfter_false_of_not_mem {t : Text} (h : '\n' ∉ t) :
    blankLineAfter false t = false := by
  induction t with
  | nil => rfl
  | cons c t ih =>
      obtain ⟨hc, ht⟩ := not_or.1 (fun hm => h (List.mem_cons.2 hm))
      rw [blankLineAfter_cons, blankLineStep, if_neg (Ne.symm hc), Bool.false_and, ih ht]

theorem isBlankText_of_blankLineAfter {blank : Bool} {t : Text} (hn : '\n' ∉ t)
    (h : blankLineAfter blank t = true) : isBlankText t = true := by
  induction t generalizing blank with
  | nil => rfl
  | cons c t ih =>
      obtain ⟨hc, ht⟩ := not_or.1 (fun hm => hn (List.mem_cons.2 hm))
      rw [blankLineAfter_cons, blankLineStep, if_neg (Ne.symm hc)] at h
      cases hb : isBlank c with
      | false =>
          rw [hb, Bool.and_false, blankLineAfter_false_of_not_mem ht] at h
          simp at h
      | true => simp [isBlankText, hb, ← ih ht h]

/-! ### First and last lines -/

theorem not_mem_lastLine (t : Text) : '\n' ∉ (lastLine t).2 := by
  induction t with
  | nil => simp [lastLine]
  | cons c t ih =>
      rw [lastLine]
      split
      · next line h =>
          rw [h] at ih
          split
          · exact ih
          · next hc => simp [Ne.symm hc, ih]
      · next d before line h =>
          rw [h] at ih
          exact ih

/-- What stands before the last line is empty or ends with a line break. -/
theorem lastLine_fst (t : Text) : (lastLine t).1 = [] ∨ ∃ x, (lastLine t).1 = x ++ ['\n'] := by
  induction t with
  | nil => exact Or.inl rfl
  | cons c t ih =>
      rw [lastLine]
      split
      · split
        · exact Or.inr ⟨[], rfl⟩
        · exact Or.inl rfl
      · next d before line h =>
          rw [h] at ih
          obtain ⟨x, hx⟩ := ih.resolve_left (by simp)
          exact Or.inr ⟨c :: x, by rw [List.cons_append, ← hx]⟩

theorem lastLine_of_not_mem {t : Text} (h : '\n' ∉ t) : lastLine t = ([], t) := by
  induction t with
  | nil => rfl
  | cons c t ih =>
      obtain ⟨hc, ht⟩ := not_or.1 (fun hm => h (List.mem_cons.2 hm))
      rw [lastLine, ih ht]
      exact if_neg (Ne.symm hc)

theorem lastLine_append_break (a : Text) {x : Text} (hx : '\n' ∉ x) :
    lastLine (a ++ '\n' :: x) = (a ++ ['\n'], x) := by
  induction a with
  | nil =>
      rw [List.nil_append, lastLine, lastLine_of_not_mem hx]
      rfl
  | cons c a ih =>
      rw [List.cons_append, lastLine, ih]
      cases a <;> rfl

/-- A line that starts in the second one of two texts starts there in both together. -/
theorem lastLine_append_of_mem (a : Text) {b : Text} (h : '\n' ∈ b) :
    lastLine (a ++ b) = (a ++ (lastLine b).1, (lastLine b).2) := by
  have happend := lastLine_append b
  have hnot := not_mem_lastLine b
  rcases lastLine_fst b with hnil | ⟨x, hx⟩
  · rw [hnil, List.nil_append] at happend
    exact absurd h (happend ▸ hnot)
  · have hb : a ++ b = a ++ x ++ '\n' :: (lastLine b).2 := by
      conv => lhs; rw [← happend, hx]
      simp
    rw [hb, lastLine_append_break (a ++ x) hnot, hx, List.append_assoc]

/-- The start of the last line of a text is behind a line break that the text is known to hold. -/
theorem lastLine_append_cons (a x : Text) : ∃ z, (lastLine (a ++ '\n' :: x)).1 = a ++ '\n' :: z := by
  by_cases hx : '\n' ∈ x
  · refine ⟨(lastLine x).1, ?_⟩
    rw [List.append_cons, lastLine_append_of_mem _ hx, ← List.append_cons]
  · exact ⟨[], by rw [lastLine_append_break a hx]⟩

theorem not_mem_firstLine (t : Text) : '\n' ∉ (firstLine t).1 := by
  intro h
  have hp := List.all_eq_true.1 (List.all_takeWhile (p := (· ≠ '\n')) (l := t)) _ h
  simp at hp

/-- The rest behind the first line starts with a line break, or is empty. -/
theorem head?_firstLine (t : Text) : ∀ c ∈ (firstLine t).2.head?, c = '\n' := by
  intro c hc
  have hhead := List.head?_dropWhile_not (· ≠ '\n') t
  rw [show (t.dropWhile (· ≠ '\n')).head? = some c from hc] at hhead
  simpa using hhead

theorem newline_of_firstLine {t rest : Text} {newline : Char} (h : (firstLine t).2 = newline :: rest) :
    newline = '\n' :=
  head?_firstLine t newline (by rw [h]; rfl)

namespace Cut

/-- **Growth takes blanks**: those before the span and those behind it, and nothing else. -/
theorem exists_wholeLines (blank : Bool) (c : Cut) :
    ∃ a b, isBlankText a = true ∧ isBlankText b = true ∧
      c.before = (c.wholeLines blank).before ++ a ∧
      (c.wholeLines blank).span = a ++ c.span ++ b ∧
      c.after = b ++ (c.wholeLines blank).after := by
  have hafter := firstLine_append c.after
  have hbefore := lastLine_append c.before
  simp only [wholeLines]
  split
  · next h =>
      obtain ⟨hhead, htail⟩ := h
      rw [← hbefore, blankLineAfter_append] at hhead
      have ha := isBlankText_of_blankLineAfter (not_mem_lastLine c.before) hhead
      split
      · next hnil =>
          rw [hnil, List.append_nil] at hafter
          exact ⟨_, _, ha, htail, hbefore.symm, rfl, by rw [List.append_nil, hafter]⟩
      · next newline rest hcons =>
          have hnewline : isBlank newline = true := newline_of_firstLine hcons ▸ (by decide)
          rw [hcons] at hafter
          refine ⟨_, (firstLine c.after).1 ++ [newline], ha, ?_, hbefore.symm, ?_, ?_⟩
          · rw [isBlankText_append, htail, Bool.true_and]
            simp [isBlankText, hnewline]
          · simp
          · simpa using hafter.symm
  · exact ⟨[], [], rfl, rfl, by simp, by simp, by simp⟩

/-- Growth stops at the start of a line. -/
theorem before_wholeLines (blank : Bool) (c : Cut) :
    (c.wholeLines blank).before = c.before ∨
      (c.wholeLines blank).before = (lastLine c.before).1 := by
  simp only [wholeLines]
  split
  · right
    split <;> rfl
  · exact Or.inl rfl

/-- A cut grows to the start of a line, or not at all. -/
theorem wholeLines_cases (blank : Bool) (c : Cut) :
    c.wholeLines blank = c ∨
      (c.wholeLines blank).before = [] ∧ blank = true ∨
        ∃ x, (c.wholeLines blank).before = x ++ ['\n'] := by
  by_cases h : blankLineAfter blank c.before = true ∧ isBlankText (firstLine c.after).1 = true
  · refine Or.inr ?_
    have hbefore : (c.wholeLines blank).before = (lastLine c.before).1 := by
      simp only [Cut.wholeLines, if_pos h]
      split <;> rfl
    rw [hbefore]
    refine (lastLine_fst c.before).imp_left fun hnil => ⟨hnil, ?_⟩
    -- Without a line break in front of the cut, the line was blank before.
    have hline : '\n' ∉ c.before := by
      have hlast := lastLine_append c.before
      rw [hnil, List.nil_append] at hlast
      exact hlast ▸ not_mem_lastLine c.before
    cases blank with
    | true => rfl
    | false => rw [blankLineAfter_false_of_not_mem hline] at h; simp at h
  · refine Or.inl ?_
    simp only [Cut.wholeLines, if_neg h]

theorem length_span_le_wholeLines (blank : Bool) (c : Cut) :
    c.span.length ≤ (c.wholeLines blank).span.length := by
  obtain ⟨a, b, _, _, _, hspan, _⟩ := exists_wholeLines blank c
  rw [hspan, List.length_append, List.length_append]
  omega

end Cut

end CribSheet.Text
