/-
Delimiters, byte by byte.

The bytes of a delimiter are compared with those of the text.  After a backslash the search moves on by two bytes,
whatever follows it; where it starts inside of a character, it goes on behind it.

Main definitions:

* `CribSheet.Checked.findUnescaped?` — the next delimiter that is not escaped.

Main results:

* `CribSheet.Checked.aheadOf_cases` — what lies ahead of a position that may be inside of a character;
* `CribSheet.Checked.findUnescaped?_eq` — **the search runs without a fault**, and finds what the search by offset
  finds.
-/
import CribSheet.Proofs.Bytes.Position

set_option relaxedAutoImplicit false
set_option autoImplicit false

namespace CribSheet.Checked

open Text Markup

/-! ### Delimiters -/

/-- **Bytes tell characters**: a text whose bytes start with those of another one starts with it. -/
theorem prefix_of_bytes_prefix {t u : Text} (h : bytes u <+: bytes t) : u <+: t := by
  induction u generalizing t with
  | nil => exact List.nil_prefix
  | cons d u ih =>
      obtain ⟨rest, hrest⟩ := h
      cases t with
      | nil =>
          rw [bytes_cons, bytes_nil, List.append_assoc] at hrest
          exact absurd (List.append_eq_nil_iff.1 hrest).1 String.utf8EncodeChar_ne_nil
      | cons c t =>
          rw [bytes_cons, bytes_cons, List.append_assoc] at hrest
          -- Both sides decode to the same first character.
          have hdecode := congrArg (fun l : List UInt8 => l.toByteArray.utf8DecodeChar? 0) hrest
          simp only [List.toByteArray_append, ByteArray.utf8DecodeChar?_utf8EncodeChar_append] at hdecode
          obtain rfl := Option.some.inj hdecode
          exact (List.prefix_cons_inj d).2 (ih ⟨rest, List.append_cancel_left hrest⟩)

/-- One round of the search for a delimiter. -/
def delimiterRound (t delimiter : Text) (_ : Unit) (i : Nat) : Run (Round Unit (Option Nat)) :=
  if t.size ≤ i then .ok (.done none)
  else do
    let ahead ← bytesFrom t i
    if (bytes delimiter).isPrefixOf ahead then .ok (.done (some i))
    else
      let b ← byte t i
      .ok (.next () (if b = code '\\' then i + 2 else i + 1))

/-- The first position at or after the given one at which the delimiter stands and is not escaped. -/
def findUnescaped? (t delimiter : Text) (i : Nat) : Run (Option Nat) :=
  loop t.size (delimiterRound t delimiter) () i

section Delimiters

variable {t delimiter behind ahead : Text} {i : Nat}

theorem isPrefixOf_bytes_iff (h : Stands t behind ahead i) :
    (bytes delimiter).isPrefixOf ((bytes t).drop i) = (after? delimiter ahead).isSome := by
  rw [h.drop_bytes, Bool.eq_iff_iff, List.isPrefixOf_iff_prefix, Option.isSome_iff_exists]
  constructor
  · intro hbytes
    obtain ⟨rest, hrest⟩ := prefix_of_bytes_prefix hbytes
    exact ⟨rest, after?_eq_some_iff.2 hrest.symm⟩
  · rintro ⟨rest, hrest⟩
    rw [after?_eq_some_iff.1 hrest, bytes_append]
    exact List.prefix_append _ _

theorem delimiterRound_cons {c : Char} (h : Stands t behind (c :: ahead) i) :
    delimiterRound t delimiter () i =
      if (after? delimiter (c :: ahead)).isSome then .ok (.done (some i))
      else .ok (.next () (if c = '\\' then i + 2 else i + 1)) := by
  have hsize := h.size_text
  have hpos := Char.utf8Size_pos c
  rw [size_cons] at hsize
  rw [delimiterRound, if_neg (by omega), bytesFrom, if_neg (by omega), ok_bind, isPrefixOf_bytes_iff h, h.byte_cons]
  simp only [ok_bind, lead_eq_code_iff (show IsAscii '\\' by decide)]

theorem passesOver_delimiterRound (hd : delimiter ≠ []) : PassesOver t (delimiterRound t delimiter) := by
  intro _ i b hb hgoesOn
  have hlt : i < t.size := by
    rw [← length_bytes]
    exact (List.getElem?_eq_some_iff.1 hb).1
  have hdrop : ((bytes t).drop i).head? = some b := by rw [List.head?_drop]; exact hb
  have hnot : (bytes delimiter).isPrefixOf ((bytes t).drop i) = false := by
    rw [← Bool.not_eq_true, List.isPrefixOf_iff_prefix]
    rintro ⟨rest, hrest⟩
    obtain ⟨c, delimiter, rfl⟩ := List.exists_cons_of_ne_nil hd
    rw [← hrest, bytes_cons, List.append_assoc, List.head?_append,
      List.head?_eq_some_head String.utf8EncodeChar_ne_nil] at hdrop
    obtain rfl : lead c = b := Option.some.inj hdrop
    exact not_goesOn_lead c hgoesOn
  rw [delimiterRound, if_neg (by omega), bytesFrom, if_neg (by omega), ok_bind, hnot, if_neg Bool.false_ne_true, byte,
    hb, ok_bind, if_neg (hgoesOn.ne_code (by decide))]

/-- **The search for a delimiter** finds where it stands first. -/
theorem Stands.findUnescaped? (hd : delimiter ≠ []) (h : Stands t behind ahead i) :
    Checked.findUnescaped? t delimiter i =
      .ok ((Markup.findUnescaped? delimiter ahead).map fun p => i + p.1.size) := by
  have hpasses := passesOver_delimiterRound (t := t) hd
  have hone : Char.utf8Size '\\' = 1 := rfl
  rw [Checked.findUnescaped?]
  fun_induction Markup.findUnescaped? delimiter ahead generalizing behind i with
  | case1 =>
      have hsize := h.size_text
      exact loop_done (by rw [delimiterRound, if_pos (by rw [hsize, size_nil]; omega)]; rfl)
  | case2 c ahead rest hafter => exact loop_done (by rw [delimiterRound_cons h, hafter]; rfl)
  | case3 hafter =>
      have hsize := h.size_text
      rw [size_cons, size_nil, hone] at hsize
      have hround : delimiterRound t delimiter () i = .ok (.next () (i + 2)) := by
        rw [delimiterRound_cons h, hafter]
        rfl
      rw [loop_next hround (by omega) (by omega)]
      exact loop_done (by rw [delimiterRound, if_pos (by omega)]; rfl)
  | case4 d ahead hafter ih =>
      have hslash : IsAscii '\\' := by decide
      have hround : delimiterRound t delimiter () i = .ok (.next () (i + 2)) := by
        rw [delimiterRound_cons h, hafter]
        rfl
      rw [loop_pair hpasses h hslash hround, ih (h.succ hslash).next]
      cases Markup.findUnescaped? delimiter ahead <;> simp [Nat.add_assoc, hone]
  | case5 c ahead hafter hc ih =>
      have hround : delimiterRound t delimiter () i = .ok (.next () (i + 1)) := by
        rw [delimiterRound_cons h, hafter, if_neg hc]
        rfl
      rw [loop_step hpasses h hround, ih h.next]
      cases Markup.findUnescaped? delimiter ahead <;> simp [Nat.add_assoc]

/-- The text up to a delimiter, and the position behind it. -/
theorem Stands.formula {closing inner rest : Text} (h : Stands t behind ahead i) (hclosing : closing ≠ [])
    (hfind : Markup.findUnescaped? closing ahead = some (inner, rest)) :
    Checked.findUnescaped? t closing i = .ok (some (i + inner.size)) ∧
      Checked.cut t i (i + inner.size) = .ok inner := by
  have hahead := Markup.findUnescaped?_eq_append ahead hfind
  refine ⟨by rw [h.findUnescaped? hclosing, hfind]; rfl, ?_⟩
  rw [hahead, List.append_assoc] at h
  exact h.cut

/-- **The border that comes next**: the position itself, the end of the text, or the end of the character that the
position is inside of. -/
theorem aheadOf_cases (t : Text) (i : Nat) :
    (∃ behind, Stands t behind (t.aheadOf i).2 (t.aheadOf i).1) ∧
      (i = (t.aheadOf i).1 ∨ (t.size < i ∧ (t.aheadOf i).2 = []) ∨
        ∃ behind c j, Stands t behind (c :: (t.aheadOf i).2) j ∧ j < i ∧ i < j + c.utf8Size ∧
          (t.aheadOf i).1 = j + c.utf8Size) := by
  induction t generalizing i with
  | nil =>
      refine ⟨⟨[], rfl, rfl⟩, ?_⟩
      rcases Nat.eq_zero_or_pos i with rfl | hi
      · exact Or.inl rfl
      · exact Or.inr (Or.inl ⟨hi, rfl⟩)
  | cons c t ih =>
      rw [aheadOf]
      split
      · next hi => exact ⟨⟨[], rfl, rfl⟩, Or.inl hi⟩
      · next hi =>
          obtain ⟨⟨behind, hbehind⟩, hcases⟩ := ih (i - c.utf8Size)
          have hcons : ∀ {behind ahead : Text} {j : Nat}, Stands t behind ahead j →
              Stands (c :: t) (c :: behind) ahead (c.utf8Size + j) := fun h =>
            ⟨by rw [h.text_eq, List.cons_append], by rw [size_cons, h.size_eq]⟩
          refine ⟨⟨c :: behind, hcons hbehind⟩, ?_⟩
          rcases Nat.lt_or_ge i c.utf8Size with hlt | hle
          · have hzero : aheadOf (i - c.utf8Size) t = (0, t) := by
              rw [Nat.sub_eq_zero_of_le (Nat.le_of_lt hlt)]
              cases t <;> rfl
            rw [hzero]
            exact Or.inr (Or.inr ⟨[], c, 0, ⟨rfl, rfl⟩, Nat.pos_of_ne_zero hi, by omega, by simp only; omega⟩)
          · rcases hcases with heq | ⟨hsize, hnil⟩ | ⟨front, d, j, hfront, hj, hj', heq⟩
            · exact Or.inl (by simp only; omega)
            · exact Or.inr (Or.inl ⟨by rw [size_cons]; omega, hnil⟩)
            · exact Or.inr (Or.inr
                ⟨c :: front, d, c.utf8Size + j, hcons hfront, by omega, by omega, by simp only; omega⟩)

/-- **The search for a delimiter runs without a fault**, wherever it starts. -/
theorem findUnescaped?_eq (t delimiter : Text) (i : Nat) :
    findUnescaped? t delimiter i = .ok (Offset.findUnescaped? t delimiter i) := by
  rw [Offset.findUnescaped?]
  split
  · next hd =>
      -- An empty delimiter stands wherever the text has a byte left.
      subst hd
      refine loop_done ?_
      rw [delimiterRound]
      split
      · next hle => rw [if_neg (by omega)]
      · next hlt =>
          rw [if_pos (by omega), bytesFrom, if_neg (by omega), ok_bind, bytes_nil]
          rfl
  · next hd =>
      obtain ⟨⟨behind, hbehind⟩, hcases⟩ := aheadOf_cases t i
      have hborder := hbehind.findUnescaped? hd
      simp only
      rw [← hborder]
      rcases hcases with heq | ⟨hsize, hnil⟩ | ⟨front, c, j, hfront, hj, hj', heq⟩
      · rw [← heq]
      · rw [hnil] at hborder
        rw [hborder]
        exact loop_done (by rw [delimiterRound, if_pos (by omega)]; rfl)
      -- The search starts inside of a character and goes on to its end.
      · rw [heq]
        exact loop_inside (passesOver_delimiterRound hd) hfront hj (Nat.le_of_lt hj')

end Delimiters

end CribSheet.Checked
