/-
Occurrences of a word in a text.

A word occurs in a text when it is an infix of it.  Where a character stands that the word does not
hold, or holds at its start only, the word cannot run across, so that the occurrences in a text are those
on both sides.  Taking blanks out between words, or putting some in, therefore neither makes nor breaks
an occurrence of a word without blanks.

Main definitions:

* `CribSheet.Text.Solid` — a word that no formatting cuts.

Main results:

* `CribSheet.Text.holds_iff_isInfix` — what `holds` decides;
* `CribSheet.Text.isInfix_append_cons_iff` — a word does not run across the start of another word;
* `CribSheet.Text.isInfix_blank_append_iff`, `CribSheet.Text.isInfix_append_blank_iff`,
  `CribSheet.Text.isInfix_trim_iff` — blanks around a text hold no word;
* `CribSheet.Text.replaceAll_cons`, `CribSheet.Text.replaceAll_append_self` — replacing a word along a text.
-/
import CribSheet.Proofs.Text.Cut
import CribSheet.Proofs.Text.Deletion

set_option relaxedAutoImplicit false
set_option autoImplicit false

namespace CribSheet.Text

theorem exists_cutAt?_of_isInfix {piece t : Text} (h : piece <:+: t) :
    ∃ before rest, cutAt? piece t = some (before, rest) := by
  induction t with
  | nil =>
      obtain rfl := List.infix_nil.1 h
      exact ⟨[], [], rfl⟩
  | cons c t ih =>
      rw [cutAt?]
      cases ha : after? piece (c :: t) with
      | some rest => exact ⟨[], rest, rfl⟩
      | none =>
          rcases List.infix_cons_iff.1 h with ⟨rest, hrest⟩ | h
          · rw [after?_eq_some_iff.2 hrest.symm] at ha
            simp at ha
          · obtain ⟨before, rest, hb⟩ := ih h
            exact ⟨c :: before, rest, by rw [hb]; rfl⟩

/-- A character is found behind a text that does not hold it. -/
theorem cutAt?_append_cons {c : Char} {before : Text} (hc : c ∉ before) (rest : Text) :
    cutAt? [c] (before ++ c :: rest) = some (before, rest) := by
  induction before with
  | nil => rw [List.nil_append, cutAt?, after?, if_pos rfl, after?]
  | cons d before ih =>
      obtain ⟨hd, hbefore⟩ := not_or.1 (fun h => hc (List.mem_cons.2 h))
      rw [List.cons_append, cutAt?, after?, if_neg hd, ih hbefore]
      rfl

/-- **A text holds a piece exactly when the piece is an infix of it.** -/
theorem holds_iff_isInfix {piece t : Text} : holds piece t = true ↔ piece <:+: t := by
  rw [holds, Option.isSome_iff_exists]
  constructor
  · rintro ⟨⟨before, rest⟩, h⟩
    exact ⟨before, rest, (cutAt?_eq_append h).symm⟩
  · intro h
    obtain ⟨before, rest, hb⟩ := exists_cutAt?_of_isInfix h
    exact ⟨_, hb⟩

section Seam

variable {w : Text}

/-- **A word does not run across** a character that can only be its first one. -/
theorem isInfix_append_cons_iff {c : Char} (hc : c ∉ w.tail) (a b : Text) :
    w <:+: a ++ c :: b ↔ w <:+: a ∨ w <:+: c :: b := by
  constructor
  · intro h
    rcases List.infix_append_iff.1 h with h | h | ⟨x, y, rfl, hx, hy⟩
    · exact Or.inl h
    · exact Or.inr h
    · cases y with
      | nil => exact Or.inl (by simpa using hx.isInfix)
      | cons d y =>
          obtain ⟨z, hz⟩ := hy
          obtain rfl : d = c := (List.cons.inj hz).1
          cases x with
          | nil => exact Or.inr ⟨[], z, hz⟩
          | cons e x => exact absurd (by simp) hc
  · rintro (h | h)
    · exact List.infix_append_of_infix_left h
    · exact List.infix_append_of_infix_right h

theorem isInfix_append_iff_of_head {b : Text} (hw : w ≠ []) (hb : ∀ c ∈ b.head?, c ∉ w.tail)
    (a : Text) : w <:+: a ++ b ↔ w <:+: a ∨ w <:+: b := by
  cases b with
  | nil => simp [hw]
  | cons c b => exact isInfix_append_cons_iff (hb c rfl) a b

/-- A word does not run across a character that can only be its last one. -/
theorem isInfix_concat_append_iff {c : Char} (hc : c ∉ w.dropLast) (a b : Text) :
    w <:+: (a ++ [c]) ++ b ↔ w <:+: a ++ [c] ∨ w <:+: b := by
  have hc' : c ∉ w.reverse.tail := by rwa [List.tail_reverse, List.mem_reverse]
  have h := isInfix_append_cons_iff hc' b.reverse a.reverse
  have hac : c :: a.reverse = (a ++ [c]).reverse := by simp
  rw [hac, ← List.reverse_append, List.reverse_infix, List.reverse_infix, List.reverse_infix] at h
  exact h.trans or_comm

/-- A character that the word does not hold separates its occurrences. -/
theorem isInfix_append_cons_iff_of_not_mem {c : Char} (hc : c ∉ w) (hw : w ≠ []) (a b : Text) :
    w <:+: a ++ c :: b ↔ w <:+: a ∨ w <:+: b := by
  rw [isInfix_append_cons_iff (fun h => hc (List.mem_of_mem_tail h)), List.infix_cons_iff]
  refine or_congr_right (or_iff_right ?_)
  rintro ⟨z, hz⟩
  cases w with
  | nil => exact hw rfl
  | cons d w => exact hc ((List.cons.inj hz).1 ▸ List.mem_cons_self)

variable (hblank : ∀ c ∈ w, isBlank c = false) (hw : w ≠ [])

include hblank hw

theorem isInfix_blank_append_iff {x : Text} (hx : isBlankText x = true) (t : Text) :
    w <:+: x ++ t ↔ w <:+: t := by
  induction x with
  | nil => rfl
  | cons c x ih =>
      obtain ⟨hc, hx⟩ : isBlank c = true ∧ isBlankText x = true := by
        simpa [isBlankText] using hx
      have hnot : c ∉ w := fun h => by simp [hblank c h] at hc
      have h := isInfix_append_cons_iff_of_not_mem hnot hw [] (x ++ t)
      rw [List.nil_append, ih hx] at h
      refine h.trans (or_iff_right ?_)
      simpa using hw

theorem isInfix_append_blank_iff {x : Text} (hx : isBlankText x = true) (t : Text) :
    w <:+: t ++ x ↔ w <:+: t := by
  cases x with
  | nil => rw [List.append_nil]
  | cons c x =>
      obtain ⟨hc, hx⟩ : isBlank c = true ∧ isBlankText x = true := by
        simpa [isBlankText] using hx
      have hnot : c ∉ w := fun h => by simp [hblank c h] at hc
      rw [isInfix_append_cons_iff_of_not_mem hnot hw]
      refine or_iff_left fun h => ?_
      have hnil := (isInfix_blank_append_iff hblank hw hx []).1 (by simpa using h)
      exact hw (List.infix_nil.1 hnil)

/-- What is dropped at the end of a text, when it is blank, holds no word. -/
theorem isInfix_dropEndWhile_iff {p : Char → Bool} (hp : ∀ c, p c = true → isBlank c = true)
    (t : Text) : w <:+: dropEndWhile p t ↔ w <:+: t := by
  have hblankEnd : isBlankText (takeEndWhile p t) = true :=
    List.all_eq_true.2 fun c hc => hp c (mem_takeEndWhile hc)
  conv => rhs; rw [← dropEndWhile_append_takeEndWhile p t]
  exact (isInfix_append_blank_iff hblank hw hblankEnd _).symm

/-- **Trimming neither makes nor breaks an occurrence.** -/
theorem isInfix_trim_iff (t : Text) : w <:+: t.trim ↔ w <:+: t := by
  rw [trim, trimEnd, isInfix_dropEndWhile_iff hblank hw fun _ h => h]
  conv => rhs; rw [← List.takeWhile_append_dropWhile (p := isBlank) (l := t)]
  exact (isInfix_blank_append_iff hblank hw List.all_takeWhile _).symm

end Seam

/-! ### Solid words -/

/-- A word that no formatting cuts: a control sequence and what follows it, without blanks, without
commas, and without the delimiters of formulas. -/
structure Solid (w : Text) : Prop where
  /-- It starts with a backslash. -/
  head : w.head? = some '\\'
  /-- It is more than that. -/
  tail : w.tail ≠ []
  /-- It holds no other backslash. -/
  slash : '\\' ∉ w.tail
  /-- It holds no blank. -/
  blank : ∀ c ∈ w, isBlank c = false
  /-- It holds no comma and no delimiter. -/
  plain : ∀ c ∈ w, c ∉ [',', '$', '[', ']']

namespace Solid

variable {w : Text} (h : Solid w)

include h

theorem ne_nil : w ≠ [] := fun hw => h.tail (by rw [hw]; rfl)

/-- A text without backslashes holds no solid word. -/
theorem not_isInfix {t : Text} (ht : '\\' ∉ t) : ¬ w <:+: t :=
  fun hw => ht (hw.subset (List.mem_of_mem_head? h.head))

theorem isInfix_plain_append_iff {x : Text} (hx : '\\' ∉ x) (t : Text) :
    w <:+: x ++ t ↔ w <:+: t := by
  constructor
  · intro hw
    rcases List.infix_append_iff.1 hw with hw | hw | ⟨y, z, rfl, hy, hz⟩
    · exact absurd hw (h.not_isInfix hx)
    · exact hw
    · cases y with
      | nil => exact hz.isInfix
      | cons c y =>
          obtain rfl : c = '\\' := Option.some.inj h.head
          exact absurd (hy.subset List.mem_cons_self) hx
  · exact List.infix_append_of_infix_right

/-- A lone backslash is no solid word, so what separates words does so behind a backslash, too. -/
theorem isInfix_append_slash_iff (a : Text) : w <:+: a ++ ['\\'] ↔ w <:+: a := by
  rw [isInfix_append_cons_iff h.slash]
  refine or_iff_left fun hw => h.tail ?_
  have hlen := hw.length_le
  exact List.length_eq_zero_iff.1 (by rw [List.length_tail]; exact Nat.sub_eq_zero_of_le hlen)

/-- Where a delimiter stands, the words are those on both sides. -/
theorem isInfix_append_delimiter_iff {c : Char} (hc : c ∈ [',', '$', '[', ']']) (a b : Text) :
    w <:+: a ++ '\\' :: c :: b ↔ w <:+: a ∨ w <:+: b := by
  have hnot : c ∉ w := fun hm => h.plain c hm hc
  have hsplit : a ++ '\\' :: c :: b = (a ++ ['\\']) ++ c :: b := by simp
  rw [hsplit, isInfix_append_cons_iff_of_not_mem hnot h.ne_nil, h.isInfix_append_slash_iff]

theorem isInfix_append_dollars_iff (a b : Text) :
    w <:+: a ++ '$' :: '$' :: b ↔ w <:+: a ∨ w <:+: b := by
  have hnot : '$' ∉ w := fun hm => h.plain '$' hm (by decide)
  have hb : w <:+: '$' :: b ↔ w <:+: b := by
    have hsplit := isInfix_append_cons_iff_of_not_mem hnot h.ne_nil [] b
    rw [List.nil_append] at hsplit
    exact hsplit.trans (or_iff_right fun hw => h.ne_nil (List.infix_nil.1 hw))
  rw [isInfix_append_cons_iff_of_not_mem hnot h.ne_nil, hb]

end Solid

/-! ### Replacing -/

section Replacing

variable {old new t : Text}

/-- What does not start here is replaced further on. -/
theorem replaceAll_cons {c : Char} (hold : old ≠ []) (h : ¬ old <+: c :: t) :
    replaceAll old new (c :: t) = c :: replaceAll old new t := by
  have hafter : after? old (c :: t) = none := by
    rw [← Option.not_isSome_iff_eq_none, ← startsWith, startsWith_iff]
    exact h
  have hcut : cutAt? old (c :: t) = (cutAt? old t).map fun p => (c :: p.1, p.2) := by
    rw [cutAt?, hafter]
  rw [replaceAll, hcut, replaceAll.eq_def old new t]
  cases hrest : cutAt? old t with
  | none => rfl
  | some p =>
      obtain ⟨before, rest⟩ := p
      have hlen := congrArg List.length (cutAt?_eq_append hrest)
      have hpos := List.length_pos_iff.2 hold
      simp only [List.length_append] at hlen
      have hlt : rest.length < t.length := by omega
      simp only [Option.map_some, List.length_cons, if_pos hlt, if_pos (Nat.lt_succ_of_lt hlt), List.cons_append]

theorem replaceAll_append_self (hold : old ≠ []) :
    replaceAll old new (old ++ t) = new ++ replaceAll old new t := by
  have hcut : cutAt? old (old ++ t) = some ([], t) := by
    obtain ⟨c, old, rfl⟩ := List.exists_cons_of_ne_nil hold
    rw [List.cons_append, cutAt?, ← List.cons_append, after?_append]
  have hpos := List.length_pos_iff.2 hold
  have hlt : t.length < (old ++ t).length := by
    rw [List.length_append]
    omega
  rw [replaceAll, hcut]
  simp only [if_pos hlt, List.nil_append]

theorem replaceAll_eq_self (h : ¬ old <:+: t) : replaceAll old new t = t := by
  have hcut : cutAt? old t = none := by
    rw [← Option.not_isSome_iff_eq_none, ← holds, holds_iff_isInfix]
    exact h
  rw [replaceAll, hcut]

end Replacing

end CribSheet.Text
