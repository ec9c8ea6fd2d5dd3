/-
Texts as pieces around a place.

A text that is split at a separator is put together again around any one of its pieces: those before it,
each with its separator behind, and those after it, each with its separator in front.  Splitting two
texts that are joined splits each of them, except that the last piece of the first one and the first
piece of the second one become one piece.

Main definitions:

* `CribSheet.Text.leadJoin`, `CribSheet.Text.trailJoin` — the pieces before a place and after it.

Main results:

* `CribSheet.Text.joinWith_append_cons` — joining around a piece;
* `CribSheet.Text.splitOn_append` — splitting two texts that are joined;
* `CribSheet.Markup.heads_leadJoin`, `CribSheet.Markup.heads_trailJoin` — counting piece by piece.
-/
import CribSheet.Proofs.Markup.Heads
import Mathlib.Algebra.GroupWithZero.Nat

set_option relaxedAutoImplicit false
set_option autoImplicit false

namespace CribSheet

namespace Text

/-- The pieces, each with the separator behind it. -/
def leadJoin (separator : Char) (pieces : List Text) : Text := pieces.flatMap (· ++ [separator])

/-- The pieces, each with the separator in front of it. -/
def trailJoin (separator : Char) (pieces : List Text) : Text := pieces.flatMap (separator :: ·)

variable {separator : Char}

@[simp] theorem leadJoin_nil : leadJoin separator [] = [] := rfl

@[simp] theorem leadJoin_cons (piece : Text) (pieces : List Text) :
    leadJoin separator (piece :: pieces) = piece ++ separator :: leadJoin separator pieces := by
  simp [leadJoin]

@[simp] theorem trailJoin_nil : trailJoin separator [] = [] := rfl

@[simp] theorem trailJoin_cons (piece : Text) (pieces : List Text) :
    trailJoin separator (piece :: pieces) = separator :: piece ++ trailJoin separator pieces := rfl

theorem trailJoin_append (pieces more : List Text) :
    trailJoin separator (pieces ++ more) = trailJoin separator pieces ++ trailJoin separator more :=
  List.flatMap_append ..

theorem mem_of_mem_trailJoin {c : Char} {pieces : List Text} (h : c ∈ trailJoin separator pieces) :
    c = separator ∨ ∃ piece ∈ pieces, c ∈ piece := by
  obtain ⟨piece, hp, hc⟩ := List.mem_flatMap.1 h
  exact (List.mem_cons.1 hc).imp_right fun hc => ⟨piece, hp, hc⟩

theorem mem_trailJoin_of_mem {c : Char} {piece : Text} {pieces : List Text} (hp : piece ∈ pieces)
    (hc : c ∈ piece) : c ∈ trailJoin separator pieces :=
  List.mem_flatMap.2 ⟨piece, hp, List.mem_cons_of_mem _ hc⟩

theorem joinWith_cons_eq (piece : Text) (pieces : List Text) :
    joinWith [separator] (piece :: pieces) = piece ++ trailJoin separator pieces := by
  induction pieces generalizing piece with
  | nil => simp [joinWith]
  | cons next pieces ih =>
      rw [joinWith_cons _ _ (List.cons_ne_nil next pieces), ih, trailJoin_cons]
      simp

/-- **Joining around a piece.** -/
theorem joinWith_append_cons (before : List Text) (piece : Text) (after : List Text) :
    joinWith [separator] (before ++ piece :: after) =
      leadJoin separator before ++ piece ++ trailJoin separator after := by
  induction before with
  | nil => exact joinWith_cons_eq piece after
  | cons first before ih =>
      rw [List.cons_append, joinWith_cons _ _ (by simp), ih, leadJoin_cons]
      simp

/-- A piece stands in the text. -/
theorem isInfix_of_mem_splitOn {piece t : Text} (h : piece ∈ splitOn separator t) : piece <:+: t := by
  obtain ⟨before, after, hsplit⟩ := List.append_of_mem h
  have hjoin := joinWith_splitOn separator t
  rw [hsplit, joinWith_append_cons] at hjoin
  exact ⟨_, _, hjoin⟩

/-- **Splitting two texts that are joined** makes one piece of the two that meet. -/
theorem splitOn_append {a b l f : Text} {before after : List Text}
    (ha : splitOn separator a = before ++ [l]) (hb : splitOn separator b = f :: after) :
    splitOn separator (a ++ b) = before ++ (l ++ f) :: after := by
  have hja := joinWith_splitOn separator a
  have hjb := joinWith_splitOn separator b
  rw [ha, joinWith_append_cons, trailJoin_nil, List.append_nil] at hja
  rw [hb, joinWith_cons_eq] at hjb
  have hjoin : a ++ b = joinWith [separator] (before ++ (l ++ f) :: after) := by
    rw [joinWith_append_cons, ← hja, ← hjb]
    simp
  rw [hjoin]
  refine splitOn_joinWith (by simp) fun piece hp => ?_
  have hmem := fun p hp => not_mem_of_mem_splitOn (ha ▸ hp : p ∈ splitOn separator a)
  have hmem' := fun p hp => not_mem_of_mem_splitOn (hb ▸ hp : p ∈ splitOn separator b)
  rcases List.mem_append.1 hp with hp | hp
  · exact hmem piece (List.mem_append_left _ hp)
  · rcases List.mem_cons.1 hp with rfl | hp
    · rw [List.mem_append, not_or]
      exact ⟨hmem l (by simp), hmem' f List.mem_cons_self⟩
    · exact hmem' piece (List.mem_cons_of_mem f hp)

theorem exists_splitOn_eq_concat (separator : Char) (t : Text) :
    ∃ before l, splitOn separator t = before ++ [l] ∧ t = leadJoin separator before ++ l := by
  obtain ⟨before, l, h⟩ := List.eq_nil_or_concat _ |>.resolve_left (splitOn_ne_nil separator t)
  have hjoin := joinWith_splitOn separator t
  rw [List.concat_eq_append] at h
  rw [h, joinWith_append_cons, trailJoin_nil, List.append_nil] at hjoin
  exact ⟨before, l, h, hjoin.symm⟩

theorem exists_splitOn_eq_cons (separator : Char) (t : Text) :
    ∃ f after, splitOn separator t = f :: after ∧ t = f ++ trailJoin separator after := by
  obtain ⟨f, after, h⟩ := List.exists_cons_of_ne_nil (splitOn_ne_nil separator t)
  have hjoin := joinWith_splitOn separator t
  rw [h, joinWith_cons_eq] at hjoin
  exact ⟨f, after, h, hjoin.symm⟩

theorem countP_leadJoin {q : Char → Bool} (hq : q separator = false) (pieces : List Text) :
    (leadJoin separator pieces).countP q = (pieces.map (List.countP q)).sum := by
  induction pieces with
  | nil => rfl
  | cons piece pieces ih =>
      rw [leadJoin_cons, List.countP_append, List.countP_cons, ih, hq]
      simp

theorem countP_trailJoin {q : Char → Bool} (hq : q separator = false) (pieces : List Text) :
    (trailJoin separator pieces).countP q = (pieces.map (List.countP q)).sum := by
  induction pieces with
  | nil => rfl
  | cons piece pieces ih =>
      rw [trailJoin_cons, List.countP_append, List.countP_cons, ih, hq]
      simp

theorem countP_joinWith {q : Char → Bool} (hq : q separator = false) (pieces : List Text) :
    (joinWith [separator] pieces).countP q = (pieces.map (List.countP q)).sum := by
  cases pieces with
  | nil => rfl
  | cons piece pieces =>
      rw [joinWith_cons_eq, List.countP_append, countP_trailJoin hq, List.map_cons, List.sum_cons]

/-- Counting characters around a place. -/
theorem countP_around {q : Char → Bool} (hq : q separator = false) (before after : List Text)
    (l f : Text) :
    (leadJoin separator before ++ l ++ (f ++ trailJoin separator after)).countP q =
      ((before ++ after).map (List.countP q)).sum + l.countP q + f.countP q := by
  simp only [List.countP_append, countP_leadJoin hq, countP_trailJoin hq, List.map_append,
    List.sum_append]
  omega

/-! ### Sums over pieces -/

theorem sum_map_filter_le (f : Text → Nat) (p : Text → Bool) (pieces : List Text) :
    ((pieces.filter p).map f).sum ≤ (pieces.map f).sum := by
  induction pieces with
  | nil => exact Nat.le_refl _
  | cons piece pieces ih =>
      rw [List.filter_cons]
      split
      · simp only [List.map_cons, List.sum_cons]
        omega
      · rw [List.map_cons, List.sum_cons]
        omega

theorem sum_map_filter_lt {f : Text → Nat} {p : Text → Bool} {pieces : List Text}
    (h : ∃ piece ∈ pieces, p piece = false ∧ 0 < f piece) :
    ((pieces.filter p).map f).sum < (pieces.map f).sum := by
  obtain ⟨dropped, hmem, hp, hf⟩ := h
  obtain ⟨before, after, rfl⟩ := List.append_of_mem hmem
  have hbefore := sum_map_filter_le f p before
  have hafter := sum_map_filter_le f p after
  simp only [List.filter_append, List.filter_cons, hp, Bool.false_eq_true, if_false,
    List.map_append, List.map_cons, List.sum_append, List.sum_cons]
  omega

end Text

namespace Markup

open CribSheet.Text

variable {separator : Char} (hslash : separator ≠ '\\') (hhead : isHead separator = false)

include hslash

/-- No escape is open behind a separator. -/
theorem escapedAfter_leadJoin (pieces : List Text) :
    escapedAfter false (leadJoin separator pieces) = false := by
  induction pieces with
  | nil => rfl
  | cons piece pieces ih =>
      rw [leadJoin_cons, escapedAfter_append, escapedAfter_cons_of_ne hslash, ih]

include hhead

/-- **Counting piece by piece**, before a place. -/
theorem heads_leadJoin (pieces : List Text) :
    heads false (leadJoin separator pieces) = (pieces.map (heads false)).sum := by
  induction pieces with
  | nil => rfl
  | cons piece pieces ih =>
      rw [leadJoin_cons, heads_append, heads_cons_of_ne hslash hhead, ih, List.map_cons, List.sum_cons]

/-- Counting piece by piece, after a place. -/
theorem heads_trailJoin (escaped : Bool) (pieces : List Text) :
    heads escaped (trailJoin separator pieces) = (pieces.map (heads false)).sum := by
  induction pieces generalizing escaped with
  | nil => rfl
  | cons piece pieces ih =>
      rw [trailJoin_cons, List.cons_append, heads_cons_of_ne hslash hhead, heads_append, ih,
        List.map_cons, List.sum_cons]

theorem heads_leadJoin_append (before : List Text) (l : Text) :
    heads false (leadJoin separator before ++ l) = (before.map (heads false)).sum + heads false l := by
  rw [heads_append, heads_leadJoin hslash hhead, escapedAfter_leadJoin hslash]

theorem heads_append_trailJoin (f : Text) (after : List Text) :
    heads false (f ++ trailJoin separator after) = heads false f + (after.map (heads false)).sum := by
  rw [heads_append, heads_trailJoin hslash hhead]

theorem heads_joinWith (pieces : List Text) :
    heads false (joinWith [separator] pieces) = (pieces.map (heads false)).sum := by
  cases pieces with
  | nil => rfl
  | cons piece pieces =>
      rw [joinWith_cons_eq, heads_append, heads_trailJoin hslash hhead, List.map_cons, List.sum_cons]

end Markup

end CribSheet
