/-
Letter labels number the items without a gap and without a repetition.

A label is a numeral in base 26 whose digits run from 1 to 26, so that there is no zero to be left out in front
and every word of letters is the numeral of one number only.  The place of a word among all words is read off its
letters, the last one counting for least.  Longer words have later places, since the words of one length take up
exactly the places between two powers of 26; that is what carries the comparison across `z` and `aa`.

Main definitions:

* `CribSheet.ListKind.IsLabelWord` — the words over the letters `a` to `z`;
* `CribSheet.ListKind.place` — the place of a word among all words, counted from one.

Main results:

* `CribSheet.ListKind.place_letters`, `CribSheet.ListKind.letters_place` — places and labels are inverse;
* `CribSheet.ListKind.place_lt_place_iff` — earlier places are taken by shorter words, and by smaller words of
  the same length;
* `CribSheet.ListKind.lettered_label_bijective` — **letter labels are a numbering of the words in this order**.
-/
import CribSheet.Display.Tree
import Mathlib.Data.Char
import Mathlib.Data.List.Induction
import Mathlib.Data.List.Lex
import Mathlib.Data.Set.Function
import Mathlib.Tactic.Ring

set_option relaxedAutoImplicit false
set_option autoImplicit false

namespace CribSheet

namespace ListKind

/-! ### Letters -/

/-- The character is a letter of labels. -/
def IsLabelLetter (c : Char) : Prop := 'a' ≤ c ∧ c ≤ 'z'

/-- **A word**: one or more letters from `a` to `z`. -/
def IsLabelWord (t : Text) : Prop := t ≠ [] ∧ ∀ c ∈ t, IsLabelLetter c

/-- The letter with some letters before it in the alphabet. -/
def letter (n : Nat) : Char := Char.ofNat ('a'.toNat + n)

/-- How many letters stand before a letter in the alphabet. -/
def rank (c : Char) : Nat := c.toNat - 'a'.toNat

theorem isLabelLetter_iff {c : Char} : IsLabelLetter c ↔ 97 ≤ c.toNat ∧ c.toNat ≤ 122 := Iff.rfl

theorem rank_lt {c : Char} (h : IsLabelLetter c) : rank c < 26 := by
  have := isLabelLetter_iff.1 h
  have : 'a'.toNat = 97 := rfl
  rw [rank]
  omega

theorem toNat_letter {n : Nat} (h : n < 26) : (letter n).toNat = 97 + n := by
  have hall : ∀ n < 26, (letter n).toNat = 97 + n := by decide
  exact hall n h

theorem isLabelLetter_letter {n : Nat} (h : n < 26) : IsLabelLetter (letter n) := by
  rw [isLabelLetter_iff, toNat_letter h]
  omega

theorem rank_letter {n : Nat} (h : n < 26) : rank (letter n) = n := by
  rw [rank, toNat_letter h]
  exact Nat.add_sub_cancel_left ..

theorem letter_rank {c : Char} (h : IsLabelLetter c) : letter (rank c) = c := by
  have hle : 'a'.toNat ≤ c.toNat := (isLabelLetter_iff.1 h).1
  rw [letter, rank, Nat.add_sub_of_le hle, Char.ofNat_toNat]

/-- Letters stand in the alphabet as they stand among the characters. -/
theorem rank_lt_rank {c d : Char} (hc : IsLabelLetter c) (hlt : c < d) : rank c < rank d := by
  have hc := isLabelLetter_iff.1 hc
  have hlt : c.toNat < d.toNat := hlt
  have : 'a'.toNat = 97 := rfl
  rw [rank, rank]
  omega

/-! ### Places -/

/-- **The place of a word** among all words, counted from one: the numeral that it is, with the letters as the
digits from 1 to 26. -/
def place (t : Text) : Nat := t.foldl (fun n c => 26 * n + (rank c + 1)) 0

@[simp] theorem place_nil : place [] = 0 := rfl

@[simp] theorem place_concat (t : Text) (c : Char) : place (t ++ [c]) = 26 * place t + (rank c + 1) := by
  rw [place, List.foldl_concat, place]

/-- The first letter counts for most. -/
theorem place_cons (c : Char) (t : Text) : place (c :: t) = (rank c + 1) * 26 ^ t.length + place t := by
  induction t using List.reverseRecOn with
  | nil => simp [place]
  | append_singleton t d ih =>
    rw [← List.cons_append, place_concat, ih, place_concat, List.length_append, List.length_singleton, pow_succ]
    ring

theorem letters_eq (i : Nat) :
    letters i = if i < 26 then [letter i] else letters (i / 26 - 1) ++ [letter (i % 26)] := by
  rw [letters]
  simp only [letter]
  split
  · next h => rw [Nat.mod_eq_of_lt h]
  · rfl

/-- **The labels are words.** -/
theorem isLabelWord_letters (i : Nat) : IsLabelWord (letters i) := by
  induction i using Nat.strong_induction_on with
  | _ i ih =>
    rw [letters_eq]
    split
    · next h => exact ⟨List.cons_ne_nil _ _, by simpa using isLabelLetter_letter h⟩
    · next h =>
      refine ⟨by simp, fun c hc => ?_⟩
      rcases List.mem_append.1 hc with hc | hc
      · exact (ih _ (by omega)).2 c hc
      · obtain rfl := List.mem_singleton.1 hc
        exact isLabelLetter_letter (Nat.mod_lt i (by decide))

/-- **The place of a label** tells the item. -/
theorem place_letters (i : Nat) : place (letters i) = i + 1 := by
  induction i using Nat.strong_induction_on with
  | _ i ih =>
    rw [letters_eq]
    split
    · next h => simp [place, rank_letter h]
    · next h =>
      rw [place_concat, ih _ (by omega), rank_letter (Nat.mod_lt i (by decide))]
      omega

/-- **Every word is the label** of the item at its place. -/
theorem letters_place {t : Text} (h : IsLabelWord t) : letters (place t - 1) = t := by
  induction t using List.reverseRecOn with
  | nil => exact absurd rfl h.1
  | append_singleton t c ih =>
    have hc : IsLabelLetter c := h.2 c (by simp)
    have hlt := rank_lt hc
    rw [letters_eq, place_concat]
    by_cases ht : t = []
    · subst ht
      rw [if_pos (by simpa using hlt), List.nil_append, ← letter_rank hc]
      simp [rank_letter hlt]
    · have hword : IsLabelWord t := ⟨ht, fun d hd => h.2 d (List.mem_append_left [c] hd)⟩
      have hpos : 0 < place t := by
        obtain ⟨d, t, rfl⟩ := List.exists_cons_of_ne_nil ht
        rw [place_cons]
        exact Nat.add_pos_left (Nat.mul_pos (Nat.succ_pos _) (Nat.pow_pos (by decide))) _
      have hdiv : (26 * place t + (rank c + 1) - 1) / 26 = place t := by omega
      have hmod : (26 * place t + (rank c + 1) - 1) % 26 = rank c := by omega
      rw [if_neg (by omega), hdiv, hmod, ih hword, letter_rank hc]

/-! ### Order -/

/-- The words of one length take up the places between two powers of 26. -/
theorem place_bounds {t : Text} (h : ∀ c ∈ t, IsLabelLetter c) :
    26 ^ t.length ≤ 25 * place t + 1 ∧ 25 * place t + 26 ≤ 26 ^ (t.length + 1) := by
  induction t using List.reverseRecOn with
  | nil => simp
  | append_singleton t c ih =>
    obtain ⟨hlow, hhigh⟩ := ih fun d hd => h d (List.mem_append_left [c] hd)
    have hlt := rank_lt (h c (by simp))
    rw [place_concat, List.length_append, List.length_singleton]
    constructor
    · rw [pow_succ]
      omega
    · rw [pow_succ]
      omega

theorem place_lt_place_of_length_lt {t u : Text} (ht : ∀ c ∈ t, IsLabelLetter c) (hu : ∀ c ∈ u, IsLabelLetter c)
    (hlt : t.length < u.length) : place t < place u := by
  have hpow : 26 ^ (t.length + 1) ≤ 26 ^ u.length := Nat.pow_le_pow_right (by decide) hlt
  have := (place_bounds ht).2
  have := (place_bounds hu).1
  omega

/-- Of two words of one length, the first letter in which they differ decides. -/
theorem place_lt_place_of_lt {t u : Text} (ht : ∀ c ∈ t, IsLabelLetter c) (hu : ∀ c ∈ u, IsLabelLetter c)
    (hlength : t.length = u.length) (hlt : t < u) : place t < place u := by
  induction hlt with
  | nil => cases hlength
  | @cons c t u _ ih =>
    obtain ⟨-, ht⟩ := List.forall_mem_cons.1 ht
    obtain ⟨-, hu⟩ := List.forall_mem_cons.1 hu
    have hlength : t.length = u.length := Nat.succ.inj hlength
    rw [place_cons, place_cons, hlength]
    exact Nat.add_lt_add_left (ih ht hu hlength) _
  | @rel c t d u hcd =>
    obtain ⟨hc, ht⟩ := List.forall_mem_cons.1 ht
    obtain ⟨-, hu⟩ := List.forall_mem_cons.1 hu
    have hlength : t.length = u.length := Nat.succ.inj hlength
    have hhigh := (place_bounds ht).2
    have hlow := (place_bounds hu).1
    rw [hlength, pow_succ] at hhigh
    have hrank : (rank c + 1) * 26 ^ u.length + 26 ^ u.length ≤ (rank d + 1) * 26 ^ u.length := by
      rw [← Nat.succ_mul]
      exact Nat.mul_le_mul_right _ (Nat.succ_le_succ (rank_lt_rank hc hcd))
    rw [place_cons, place_cons, hlength]
    omega

/-- **Earlier places are taken by shorter words**, and by smaller words of the same length. -/
theorem place_lt_place_iff {t u : Text} (ht : IsLabelWord t) (hu : IsLabelWord u) :
    place t < place u ↔ t.length < u.length ∨ t.length = u.length ∧ t < u := by
  constructor
  · intro hlt
    rcases Nat.lt_trichotomy t.length u.length with h | h | h
    · exact .inl h
    · rcases lt_trichotomy t u with h' | rfl | h'
      · exact .inr ⟨h, h'⟩
      · exact absurd hlt (Nat.lt_irrefl _)
      · exact absurd hlt (Nat.lt_asymm (place_lt_place_of_lt hu.2 ht.2 h.symm h'))
    · exact absurd hlt (Nat.lt_asymm (place_lt_place_of_length_lt hu.2 ht.2 h))
  · rintro (h | ⟨h, hlt⟩)
    · exact place_lt_place_of_length_lt ht.2 hu.2 h
    · exact place_lt_place_of_lt ht.2 hu.2 h hlt

/-- **Letter labels are a numbering of the words**: every word over `a` to `z` is the label of exactly one item, and
an item comes before another one exactly when its label is shorter, or of the same length and smaller. -/
theorem lettered_label_bijective :
    Set.BijOn (label .lettered) Set.univ {t | IsLabelWord t} ∧
      ∀ i j, i < j ↔
        (label .lettered i).length < (label .lettered j).length ∨
          (label .lettered i).length = (label .lettered j).length ∧ label .lettered i < label .lettered j := by
  refine ⟨⟨fun i _ => isLabelWord_letters i, fun i _ j _ heq => ?_,
      fun t ht => ⟨place t - 1, trivial, letters_place ht⟩⟩,
    fun i j => ?_⟩
  · have hplace : place (letters i) = place (letters j) := congrArg place heq
    rw [place_letters, place_letters] at hplace
    exact Nat.succ.inj hplace
  · rw [label, label, ← place_lt_place_iff (isLabelWord_letters i) (isLabelWord_letters j), place_letters,
      place_letters]
    exact Nat.succ_lt_succ_iff.symm

end ListKind

end CribSheet
