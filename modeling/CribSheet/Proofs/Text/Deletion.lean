/-
Operations that only take characters out of a text.

Trimming, dropping lines and dropping names from a list all leave a sublist of the text behind.  A
sublist is either the whole text or takes fewer bytes, so a chain of such operations that leaves the
text as it was has left it alone at every step.  This module shows for the operations of
`CribSheet.Text` that they delete, and when they delete nothing.

Main definitions:

* `CribSheet.Text.Deletes` — an operation that only takes characters out.

Main results:

* `CribSheet.Text.size_lt_of_sublist` — a sublist is the text or shorter;
* `CribSheet.Text.Deletes.comp_eq_self_iff` — a chain of deletions is the identity exactly when each
  of them is;
* `CribSheet.Text.joinWith_sublist` — joining deletes when it drops pieces or shortens them;
* `CribSheet.Text.splitOn_joinWith` — splitting undoes joining;
* `CribSheet.Text.trim_eq_self_iff` — the texts that trimming leaves alone.
-/
import CribSheet.Text.Blank
import Mathlib.Data.List.DropRight
import Mathlib.Data.List.Forall2

set_option relaxedAutoImplicit false
set_option autoImplicit false

namespace CribSheet.Text

/-! ### Sublists and their size -/

theorem size_le_of_sublist {t u : Text} (h : t.Sublist u) : t.size ≤ u.size := by
  induction h with
  | slnil => exact Nat.le_refl _
  | cons c _ ih => exact Nat.le_trans ih (Nat.le_add_left _ _)
  | cons_cons c _ ih => exact Nat.add_le_add_left ih _

theorem size_lt_of_sublist {t u : Text} (h : t.Sublist u) (hne : t ≠ u) : t.size < u.size := by
  induction h with
  | slnil => exact absurd rfl hne
  | cons c h _ =>
      have hle := size_le_of_sublist h
      have hpos := c.utf8Size_pos
      rw [size_cons]
      omega
  | cons_cons c _ ih =>
      have hlt := ih (fun h => hne (h ▸ rfl))
      simp only [size_cons]
      omega

/-! ### Deletions -/

/-- The operation only takes characters out of a text. -/
def Deletes (f : Text → Text) : Prop := ∀ t, (f t).Sublist t

namespace Deletes

variable {f g : Text → Text}

theorem comp (hg : Deletes g) (hf : Deletes f) : Deletes (g ∘ f) :=
  fun t => (hg (f t)).trans (hf t)

/-- **A chain of two deletions leaves a text alone exactly when both do.** -/
theorem comp_eq_self_iff (hg : Deletes g) (hf : Deletes f) (t : Text) :
    g (f t) = t ↔ f t = t ∧ g t = t := by
  constructor
  · intro h
    have hsub : t.Sublist (f t) := by
      have hgf := hg (f t)
      rwa [h] at hgf
    have hft : f t = t := (hf t).antisymm hsub
    exact ⟨hft, by rwa [hft] at h⟩
  · rintro ⟨hft, hgt⟩
    rw [hft, hgt]

theorem not_mem (hf : Deletes f) {c : Char} {t : Text} (h : c ∉ t) : c ∉ f t :=
  fun hc => h ((hf t).subset hc)

end Deletes

/-! ### Ends -/

theorem dropEndWhile_eq_rdropWhile (p : Char → Bool) (t : Text) :
    dropEndWhile p t = t.rdropWhile p := by
  induction t with
  | nil => rfl
  | cons c t ih =>
      rw [dropEndWhile, ih, List.rdropWhile, List.rdropWhile, List.reverse_cons,
        List.dropWhile_append]
      cases h : t.reverse.dropWhile p with
      | nil => by_cases hc : p c <;> simp [hc]
      | cons d u =>
          have hne : (d :: u).reverse ≠ [] := by simp
          obtain ⟨e, v, he⟩ := List.exists_cons_of_ne_nil hne
          simp only [List.isEmpty_cons, Bool.false_eq_true, if_false, List.reverse_append,
            List.reverse_cons, List.reverse_nil, List.nil_append, List.singleton_append] at he ⊢
          rw [he]

theorem dropEndWhile_isPrefix (p : Char → Bool) (t : Text) : dropEndWhile p t <+: t := by
  rw [dropEndWhile_eq_rdropWhile]
  exact List.rdropWhile_prefix p t

theorem dropEndWhile_append_takeEndWhile (p : Char → Bool) (t : Text) :
    dropEndWhile p t ++ takeEndWhile p t = t := by
  obtain ⟨u, hu⟩ := dropEndWhile_isPrefix p t
  have hdrop : t.drop (dropEndWhile p t).length = u := by
    conv => lhs; rhs; rw [← hu]
    exact List.drop_left
  rw [takeEndWhile, hdrop, hu]

theorem mem_takeEndWhile {p : Char → Bool} {t : Text} {c : Char} (h : c ∈ takeEndWhile p t) :
    p c = true := by
  have hsplit := dropEndWhile_append_takeEndWhile p t
  rw [dropEndWhile_eq_rdropWhile] at hsplit
  have hlib : t.rdropWhile p ++ t.rtakeWhile p = t := List.rdropWhile_append_rtakeWhile
  have heq := List.append_cancel_left (hsplit.trans hlib.symm)
  rw [heq] at h
  exact List.mem_rtakeWhile_imp h

theorem dropEndWhile_eq_nil_iff {p : Char → Bool} {t : Text} :
    dropEndWhile p t = [] ↔ ∀ c ∈ t, p c = true := by
  rw [dropEndWhile_eq_rdropWhile, List.rdropWhile_eq_nil_iff]

theorem dropEndWhile_append (p : Char → Bool) (a b : Text) :
    dropEndWhile p (a ++ b) = if dropEndWhile p b = [] then dropEndWhile p a else a ++ dropEndWhile p b := by
  cases hb : dropEndWhile p b with
  | nil =>
      rw [if_pos rfl]
      induction a with
      | nil => exact hb
      | cons c a ih => rw [List.cons_append, dropEndWhile, dropEndWhile, ih]
  | cons d u =>
      rw [if_neg (List.cons_ne_nil d u)]
      induction a with
      | nil => exact hb
      | cons c a ih =>
          obtain ⟨e, v, hv⟩ := List.exists_cons_of_ne_nil (List.append_ne_nil_of_right_ne_nil a (List.cons_ne_nil d u))
          rw [List.cons_append, dropEndWhile, ih, hv, List.cons_append, hv]

theorem dropEndWhile_append_cons {p : Char → Bool} {c : Char} (hc : p c = false) (a b : Text) :
    dropEndWhile p (a ++ c :: b) = a ++ c :: dropEndWhile p b := by
  have hcons : dropEndWhile p (c :: b) = c :: dropEndWhile p b := by
    rw [dropEndWhile]
    split
    · next h => rw [h, if_neg (by simp [hc])]
    · next d t h => rw [h]
  rw [dropEndWhile_append, hcons, if_neg (List.cons_ne_nil _ _)]

theorem trimStart_append_cons {c : Char} (hc : isBlank c = false) (a b : Text) :
    trimStart (a ++ c :: b) = trimStart a ++ c :: b := by
  induction a with
  | nil => simp [trimStart, hc]
  | cons d a ih =>
      cases hd : isBlank d with
      | true => simpa [trimStart, hd] using ih
      | false => simp [trimStart, hd]

theorem deletes_trimStart : Deletes trimStart := fun _ => List.dropWhile_sublist _

theorem deletes_trimEnd : Deletes trimEnd := fun t => (dropEndWhile_isPrefix isBlank t).sublist

theorem deletes_trim : Deletes trim := deletes_trimEnd.comp deletes_trimStart

theorem trimStart_eq_self_iff (t : Text) :
    t.trimStart = t ↔ ∀ c ∈ t.head?, isBlank c = false := by
  cases t with
  | nil => simp [trimStart]
  | cons c t =>
      cases hc : isBlank c with
      | false => simp [trimStart, hc]
      | true =>
          have hle := (List.dropWhile_suffix isBlank (l := t)).length_le
          have hne : trimStart (c :: t) ≠ c :: t := by
            intro h
            have hlen := congrArg List.length h
            simp only [trimStart, List.dropWhile_cons, hc, if_true, List.length_cons] at hlen
            omega
          simp [hne, hc]

theorem trimEnd_eq_self_iff (t : Text) :
    t.trimEnd = t ↔ ∀ c ∈ t.getLast?, isBlank c = false := by
  rw [trimEnd, dropEndWhile_eq_rdropWhile, List.rdropWhile_eq_self_iff]
  cases t using List.reverseRecOn with
  | nil => simp
  | append_singleton t c => simp

theorem trimEnd_append_blank {x : Text} (hx : isBlankText x = true) (t : Text) :
    (t ++ x).trimEnd = t.trimEnd := by
  have hnil := dropEndWhile_eq_nil_iff.2 (List.all_eq_true.1 hx)
  rw [trimEnd, trimEnd, dropEndWhile_append, if_pos hnil]

/-- **A text is trimmed** when it neither starts nor ends with a blank. -/
theorem trim_eq_self_iff (t : Text) :
    t.trim = t ↔ (∀ c ∈ t.head?, isBlank c = false) ∧ ∀ c ∈ t.getLast?, isBlank c = false := by
  rw [← trimStart_eq_self_iff, ← trimEnd_eq_self_iff]
  exact deletes_trimEnd.comp_eq_self_iff deletes_trimStart t

/-! ### Pieces -/

theorem joinWith_cons (separator piece : Text) {pieces : List Text} (h : pieces ≠ []) :
    joinWith separator (piece :: pieces) = piece ++ separator ++ joinWith separator pieces := by
  cases pieces with
  | nil => exact absurd rfl h
  | cons next pieces => rfl

theorem sublistForall₂_of_sublist {ps qs : List Text} (h : ps.Sublist qs) :
    List.SublistForall₂ List.Sublist ps qs :=
  List.sublistForall₂_iff.2 ⟨ps, List.forall₂_same.2 fun p _ => List.Sublist.refl p, h⟩

/-- **Joining deletes** when it joins fewer pieces, or pieces with characters taken out. -/
theorem joinWith_sublist (separator : Text) {ps qs : List Text}
    (h : List.SublistForall₂ List.Sublist ps qs) :
    (joinWith separator ps).Sublist (joinWith separator qs) := by
  induction h with
  | nil => exact List.nil_sublist _
  | @cons p q ps qs hpq hs ih =>
      cases ps with
      | nil =>
          cases qs with
          | nil => exact hpq
          | cons q' qs =>
              rw [joinWith_cons _ _ (List.cons_ne_nil q' qs), List.append_assoc]
              exact hpq.trans (List.sublist_append_left _ _)
      | cons p' ps =>
          cases qs with
          | nil => cases hs
          | cons q' qs =>
              rw [joinWith_cons _ _ (List.cons_ne_nil p' ps),
                joinWith_cons _ _ (List.cons_ne_nil q' qs)]
              exact (hpq.append (List.Sublist.refl _)).append ih
  | @cons_right q ps qs _ ih =>
      cases qs with
      | nil => exact ih.trans (List.nil_sublist _)
      | cons q' qs =>
          rw [joinWith_cons _ _ (List.cons_ne_nil q' qs)]
          exact ih.trans (List.sublist_append_right _ _)

theorem not_mem_of_mem_splitOn {separator : Char} {t piece : Text}
    (h : piece ∈ splitOn separator t) : separator ∉ piece := by
  induction t generalizing piece with
  | nil =>
      rw [splitOn, List.mem_singleton] at h
      simp [h]
  | cons c t ih =>
      rw [splitOn] at h
      split at h
      · rcases List.mem_cons.1 h with rfl | h
        · exact List.not_mem_nil
        · exact ih h
      · next hc =>
          split at h
          · next hs => exact absurd hs (splitOn_ne_nil separator t)
          · next p ps hs =>
              rcases List.mem_cons.1 h with rfl | h
              · have hp : separator ∉ p := ih (hs ▸ List.mem_cons_self)
                simp [hp, Ne.symm hc]
              · exact ih (hs ▸ List.mem_cons_of_mem p h)

/-- Two texts with a separator between them are split one after the other. -/
theorem splitOn_append_cons (separator : Char) (a b : Text) :
    splitOn separator (a ++ separator :: b) = splitOn separator a ++ splitOn separator b := by
  induction a with
  | nil => simp [splitOn]
  | cons c a ih =>
      rw [List.cons_append, splitOn, splitOn]
      split
      · rw [ih, List.cons_append]
      · obtain ⟨piece, pieces, hsplit⟩ := List.exists_cons_of_ne_nil (splitOn_ne_nil separator a)
        rw [ih, hsplit]
        rfl

theorem lines_append_break (a b : Text) : (a ++ '\n' :: b).lines = a.lines ++ b.lines :=
  splitOn_append_cons '\n' a b

theorem splitOn_eq_singleton {separator : Char} {piece : Text} (h : separator ∉ piece) :
    splitOn separator piece = [piece] := by
  induction piece with
  | nil => rfl
  | cons c piece ih =>
      obtain ⟨hc, hp⟩ := not_or.1 (fun hm => h (List.mem_cons.2 hm))
      rw [splitOn, if_neg (Ne.symm hc), ih hp]

theorem splitOn_append_separator {separator : Char} {piece : Text} (h : separator ∉ piece)
    (t : Text) : splitOn separator (piece ++ separator :: t) = piece :: splitOn separator t := by
  rw [splitOn_append_cons, splitOn_eq_singleton h, List.singleton_append]

/-- **Splitting undoes joining** when no piece holds the separator. -/
theorem splitOn_joinWith {separator : Char} {pieces : List Text} (hne : pieces ≠ [])
    (h : ∀ piece ∈ pieces, separator ∉ piece) :
    splitOn separator (joinWith [separator] pieces) = pieces := by
  induction pieces with
  | nil => exact absurd rfl hne
  | cons piece pieces ih =>
      have hp := h piece List.mem_cons_self
      cases pieces with
      | nil => exact splitOn_eq_singleton hp
      | cons next pieces =>
          rw [joinWith_cons _ _ (List.cons_ne_nil next pieces), List.append_assoc,
            List.singleton_append, splitOn_append_separator hp,
            ih (List.cons_ne_nil next pieces) fun q hq => h q (List.mem_cons_of_mem _ hq)]

theorem lines_unlines {ls : List Text} (hne : ls ≠ []) (h : ∀ line ∈ ls, '\n' ∉ line) :
    lines (unlines ls) = ls := splitOn_joinWith hne h

/-- Dropping lines deletes. -/
theorem deletes_filter_lines (p : Text → Bool) : Deletes fun t => unlines (t.lines.filter p) := by
  intro t
  have hjoin := joinWith_sublist ['\n']
    (sublistForall₂_of_sublist (List.filter_sublist : (t.lines.filter p).Sublist t.lines))
  rwa [show joinWith ['\n'] t.lines = t from unlines_lines t] at hjoin

end CribSheet.Text
