/-
Text whose only commands are those of lists.

In such a text every scanner of this library either comes to an end, whatever follows the text, or goes on
with what follows it in a state of its own.  So what is inserted behind the text matters only for the
scanners that go on.

Main definitions:

* `CribSheet.ListMarkup` — a text whose only commands start items or stand in markers of lists.

Main results:

* `CribSheet.ListMarkup.of_append` — what follows a cut is such a text again;
* `CribSheet.ListMarkup.closingSearch` — the search for the marker that closes a list;
* `CribSheet.bracketRead`, `CribSheet.labelRead` — a bracket group, and the label of an item.
-/
import CribSheet.Proofs.Display.WrittenItems
import CribSheet.Proofs.Display.Tidy

set_option relaxedAutoImplicit false
set_option autoImplicit false

namespace CribSheet

open CribSheet.Markup
open CribSheet.Identity (Plain)

/-! ### List markup -/

/-- **Text whose only commands are those of lists,** without formulas and comments: every backslash starts
an item, or a marker of a list. -/
inductive ListMarkup : Text → Prop
  | nil : ListMarkup []
  | char {c : Char} {w : Text} (hc : c ∉ ['\\', '$', '%']) (h : ListMarkup w) : ListMarkup (c :: w)
  | item {c : Char} {w : Text} (hc : Text.isLetter c = false) (h : ListMarkup (c :: w)) :
    ListMarkup ('\\' :: (itemName ++ c :: w))
  | marker {word name w : Text} (hword : word = beginName ∨ word = endName) (hname : isListName name = true)
    (h : ListMarkup w) : ListMarkup (command word name ++ w)

theorem isName_of_isListName {name : Text} (h : isListName name = true) : IsName name := by
  simp only [isListName, Bool.or_eq_true, beq_iff_eq] at h
  rcases h with rfl | rfl
  · exact ⟨by unfold Plain; decide, by decide⟩
  · exact ⟨by unfold Plain; decide, by decide⟩

namespace ListMarkup

/-- Text without markup in front. -/
theorem chars_append {x w : Text} (hx : ∀ c ∈ x, c ∉ ['\\', '$', '%']) (h : ListMarkup w) :
    ListMarkup (x ++ w) := by
  induction x with
  | nil => exact h
  | cons c x ih =>
    obtain ⟨hc, hx⟩ := List.forall_mem_cons.1 hx
    exact .char hc (ih hx)

/-- **What follows is list markup**, wherever the text is cut with no escape open. -/
theorem of_append {a b : Text} (h : ListMarkup (a ++ b)) (hfresh : escapedAfter false a = false) :
    ListMarkup b := by
  generalize htext : a ++ b = t at h
  induction h generalizing a with
  | nil =>
    obtain ⟨-, rfl⟩ := List.append_eq_nil_iff.1 htext
    exact .nil
  | char hc h ih =>
    exact behind_cut_char (fun heq => hc (heq ▸ List.mem_cons_self ..)) (.char hc h) (fun a => ih) htext hfresh
  | item hc h ih =>
    exact behind_cut_command (by decide) (by decide) (.item hc h)
      (fun y hy => chars_append (fun d hd => (by decide : ∀ d ∈ itemName, d ∉ ['\\', '$', '%']) d (hy.subset hd)) h)
      (fun a => ih) htext hfresh
  | @marker word name w hword hname h ih =>
    have hchars : ∀ c ∈ word ++ '{' :: (name ++ ['}']), c ∉ ['\\', '$', '%'] := by
      simp only [isListName, Bool.or_eq_true, beq_iff_eq] at hname
      rcases hword with rfl | rfl <;> rcases hname with rfl | rfl <;> decide
    exact behind_cut_command (x := word ++ '{' :: (name ++ ['}'])) (by simp) (fun hm => hchars _ hm (by decide))
      (by simpa [command] using ListMarkup.marker hword hname h)
      (fun y hy => chars_append (fun d hd => hchars d (hy.subset hd)) h) (fun a => ih)
      (by simpa [command] using htext) hfresh

end ListMarkup

/-! ### Closing markers -/

/-- What the search for the marker that closes a list comes to in the text: it ends there, whatever
follows, or goes on behind the text with some number of lists open. -/
inductive ClosingSearch (name : Text) (depth : Nat) (a : Text) : Prop
  | inside (content a' : Text) (htext : a = content ++ (command endName name ++ a'))
      (hfresh : escapedAfter false content = false)
      (hfind : ∀ t, Closing.find? name depth false (a ++ t) = some ⟨content, command endName name, a' ++ t⟩)
  | beyond (depth' : Nat)
      (hfind : ∀ t, Closing.find? name depth false (a ++ t) =
        (Closing.find? name depth' false t).map (Closing.behind a))

/-- The search behind something that it passes over. -/
theorem ClosingSearch.behind {name x w : Text} {depth depth' : Nat} (hfresh : escapedAfter false x = false)
    (hpass : ∀ t, Closing.find? name depth false (x ++ t) =
      (Closing.find? name depth' false t).map (Closing.behind x))
    (hw : ClosingSearch name depth' w) : ClosingSearch name depth (x ++ w) := by
  cases hw with
  | inside content a' htext hcontent hfind =>
    refine .inside (x ++ content) a' (by simp [htext]) (by rw [escapedAfter_append, hfresh, hcontent])
      fun t => ?_
    rw [List.append_assoc, hpass, hfind]
    rfl
  | beyond depth'' hfind =>
    refine .beyond depth'' fun t => ?_
    rw [List.append_assoc, hpass, hfind, Option.map_map]
    simp [Closing.behind_behind, Function.comp_def]

/-- **The search for the marker that closes a list** ends in list markup, or goes on behind it. -/
theorem ListMarkup.closingSearch {a : Text} (h : ListMarkup a) (name : Text) (depth : Nat) :
    ClosingSearch name depth a := by
  induction h generalizing depth with
  | nil =>
    refine .beyond depth fun t => ?_
    cases hfind : Closing.find? name depth false t <;> simp [Closing.behind, hfind]
  | @char c w hc _ ih =>
    have hslash : '\\' ∉ [c] := fun h => hc (List.mem_singleton.1 h ▸ List.mem_cons_self ..)
    exact .behind (x := [c]) (escapedAfter_plain hslash)
      (fun t => Closing.find?_quiet_append (quiet_of_no_backslash hslash) name t depth) (ih depth)
  | @item c w hc _ ih =>
    exact .behind (x := '\\' :: itemName) (by decide)
      (fun t => Closing.find?_quiet_append quiet_itemName name t depth) (ih depth)
  | @marker word name' w hword hname' _ ih =>
    obtain ⟨hplain, htrim⟩ := isName_of_isListName hname'
    have hfresh : escapedAfter false (command word name') = false := (quiet_marker hword hplain).escapedAfter_eq
    rcases hword with rfl | rfl
    · have hmarker := Marker.next?_begin hplain
      by_cases heq : name' = name
      · exact (ih (depth + 1)).behind hfresh fun t => Closing.find?_of_opens (hmarker t) (htrim.trans heq) rfl
      · exact (ih depth).behind hfresh fun t => Closing.find?_of_other (hmarker t) (htrim.trans_ne heq)
    · have hmarker := Marker.next?_end hplain
      by_cases heq : name' = name
      · cases depth with
        | zero =>
          refine .inside [] w (by rw [heq]; rfl) rfl fun t => ?_
          rw [List.append_assoc, Closing.find?_of_closes_zero (hmarker _) (htrim.trans heq) rfl, heq]
        | succ depth =>
          exact (ih depth).behind hfresh fun t =>
            Closing.find?_of_closes_succ (hmarker t) (htrim.trans heq) rfl
      · exact (ih depth).behind hfresh fun t => Closing.find?_of_other (hmarker t) (htrim.trans_ne heq)

/-! ### Labels -/

/-- What a bracket group at the start of a text comes to: it closes in the text, whatever follows, or goes
on behind it. -/
inductive BracketRead (r : Text) : Prop
  | inside (inner a : Text) (htext : r = inner ++ ']' :: a) (hfresh : escapedAfter false inner = false)
      (hread : ∀ t, Group.readBracket? ('[' :: (r ++ t)) = some ⟨.bracket, inner, a ++ t⟩)
  | beyond (depth braces : Nat)
      (hread : ∀ t, Group.readBracket? ('[' :: (r ++ t)) =
        (closeBracket? depth braces t).map fun p => ⟨.bracket, r ++ p.1, p.2⟩)

theorem readBracket?_bracket_cons (t : Text) :
    Group.readBracket? ('[' :: t) = (closeBracket? 0 0 t).map fun p => ⟨.bracket, p.1, p.2⟩ := by
  rw [Group.readBracket?, Group.read?, if_neg (by decide), if_pos rfl]
  cases closeBracket? 0 0 t <;> rfl

theorem readBracket?_cons_of_ne {c : Char} (hc : c ≠ '[') (t : Text) : Group.readBracket? (c :: t) = none := by
  rw [Group.readBracket?, Group.read?, if_neg hc]
  split
  · cases closeBrace? 0 t <;> simp
  · rfl

theorem bracketRead {r : Text} (hfresh : escapedAfter false r = false) : BracketRead r := by
  cases hclose : closeBracket? 0 0 r with
  | some p =>
    have htext := closeBracket?_eq_append 0 0 r hclose
    refine .inside p.1 p.2 htext (escapedAfter_closeBracket? hclose) fun t => ?_
    rw [readBracket?_bracket_cons, closeBracket?_append_right hclose]
    rfl
  | none =>
    obtain ⟨depth, braces, hgo⟩ := closeBracket?_append_of_none hclose hfresh
    refine .beyond depth braces fun t => ?_
    rw [readBracket?_bracket_cons, hgo, Option.map_map]
    rfl

/-- What the label of an item comes to in the text behind the command: it ends in the text, if there is
one; or its bracket closes behind the text; or all of the text stands before it. -/
inductive LabelRead (a : Text) : Prop
  | inside (label a' : Text) (htext : a = label ++ a') (hne : a' ≠ [])
      (hfresh : escapedAfter false label = false) (hsolid : label = [] ∨ ∃ x, label = x ++ [']'])
      (hlabel : ∀ t, itemLabel (a ++ t) = (label, a' ++ t))
  | beyond (x : Text) (depth braces : Nat) (hbracket : '[' ∈ a)
      (hlabel : ∀ t, itemLabel (a ++ t) =
        ((closeBracket? depth braces t).map fun p => (x ++ (p.1 ++ [']']), p.2)).getD ([], a ++ t))
  | atEnd (gaps : Text) (htext : a = gaps ++ ['\n']) (hgaps : ∀ c ∈ gaps, isGap c = true)
      (hlabel : ∀ t, (t.dropWhile isGap).head? ≠ some '[' → itemLabel (a ++ t) = ([], a ++ t))

theorem dropWhile_append_of_cons {p : Char → Bool} {a s : Text} {c : Char} (h : a.dropWhile p = c :: s)
    (t : Text) : (a ++ t).dropWhile p = c :: s ++ t ∧ (a ++ t).takeWhile p = a.takeWhile p := by
  induction a with
  | nil => simp at h
  | cons d a ih =>
    cases hd : p d with
    | true =>
      rw [List.dropWhile_cons_of_pos hd] at h
      obtain ⟨hdrop, htake⟩ := ih h
      simp [hd, hdrop, htake]
    | false =>
      rw [List.dropWhile_cons_of_neg (by simp [hd])] at h
      rw [← h]
      simp [hd]

/-- A line break is no gap: a text that holds one does not end with its leading gaps. -/
theorem exists_dropWhile_isGap {a : Text} (h : '\n' ∈ a) : ∃ c s, a.dropWhile isGap = c :: s := by
  refine List.exists_cons_of_ne_nil fun hnil => ?_
  have hgap := List.dropWhile_eq_nil_iff.1 hnil _ h
  exact absurd hgap (by decide)

/-- What follows the space behind a command. -/
theorem labelRead_of_space {space r : Text} {c : Char} (hblank : space.isBlankText = true)
    (hlast : (space ++ c :: r).getLast? = some '\n') (hfresh : escapedAfter false (space ++ c :: r) = false)
    (hspace : ∀ t, argumentSpace (space ++ c :: r ++ t) = (space, c :: r ++ t)) :
    LabelRead (space ++ c :: r) := by
  by_cases hc : c = '['
  · subst hc
    have hr : escapedAfter false r = false := by
      rwa [escapedAfter_append, escapedAfter_blank hblank, escapedAfter_cons_of_ne (by decide)] at hfresh
    cases bracketRead hr with
    | inside inner a htext hinner hread =>
      refine .inside (space ++ '[' :: (inner ++ [']'])) a (by simp [htext]) ?_ ?_
        (.inr ⟨space ++ '[' :: inner, by simp⟩) fun t => ?_
      · rintro rfl
        rw [htext, ← List.cons_append, ← List.append_assoc, List.getLast?_concat] at hlast
        exact absurd (Option.some.inj hlast) (by decide)
      · rw [escapedAfter_append, escapedAfter_blank hblank, escapedAfter_cons_of_ne (by decide),
          escapedAfter_append, hinner]
        rfl
      · rw [itemLabel, hspace, List.cons_append, hread]
        rfl
    | beyond depth braces hread =>
      refine .beyond (space ++ '[' :: r) depth braces (by simp) fun t => ?_
      rw [itemLabel, hspace, List.cons_append, hread]
      cases closeBracket? depth braces t with
      | none => rfl
      | some p => simp [Group.source]
  · refine .inside [] _ rfl (by simp) rfl (.inl rfl) fun t => itemLabel_of_head?_ne ?_
    rw [hspace]
    simpa using hc

/-- **The label of an item** in front of more text. -/
theorem labelRead {a : Text} (hlast : a.getLast? = some '\n') (hfresh : escapedAfter false a = false) :
    LabelRead a := by
  have hgaps := isBlankText_takeWhile_isGap a
  obtain ⟨c, s, hdrop⟩ := exists_dropWhile_isGap (List.mem_of_getLast? hlast)
  have hsplit : a.takeWhile isGap ++ c :: s = a := hdrop ▸ List.takeWhile_append_dropWhile
  by_cases hc : c = '\n'
  · subst hc
    have hspace : ∀ t, argumentSpace (a ++ t) =
        (a.takeWhile isGap ++ '\n' :: (s ++ t).takeWhile isGap, (s ++ t).dropWhile isGap) := by
      intro t
      obtain ⟨hdrop', htake⟩ := dropWhile_append_of_cons hdrop t
      rw [argumentSpace, hdrop', htake]
      rfl
    by_cases hs : s = []
    · subst hs
      refine .atEnd (a.takeWhile isGap) hsplit.symm
        (fun c hc => List.all_eq_true.1 List.all_takeWhile c hc) fun t ht => itemLabel_of_head?_ne ?_
      rwa [hspace]
    · -- The text ends with a second line break.
      have hbreak : s.getLast? = some '\n' := by
        rwa [← hsplit, List.getLast?_append_of_ne_nil _ (List.cons_ne_nil _ _),
          List.getLast?_cons_of_ne_nil hs] at hlast
      obtain ⟨d, s', hdrop'⟩ := exists_dropWhile_isGap (List.mem_of_getLast? hbreak)
      have hs' : s.takeWhile isGap ++ d :: s' = s := hdrop' ▸ List.takeWhile_append_dropWhile
      have htext : a = a.takeWhile isGap ++ '\n' :: s.takeWhile isGap ++ d :: s' := by
        rw [List.append_assoc, List.cons_append, hs', hsplit]
      have hblank : Text.isBlankText (a.takeWhile isGap ++ '\n' :: s.takeWhile isGap) = true := by
        rw [Text.isBlankText_append, hgaps, Bool.true_and]
        exact List.all_eq_true.2
          (List.forall_mem_cons.2 ⟨by decide, List.all_eq_true.1 (isBlankText_takeWhile_isGap s)⟩)
      rw [htext] at hlast hfresh ⊢
      refine labelRead_of_space hblank hlast hfresh fun t => ?_
      rw [← htext, hspace, (dropWhile_append_of_cons hdrop' t).1, (dropWhile_append_of_cons hdrop' t).2]
  · have hspace : ∀ t, argumentSpace (a ++ t) = (a.takeWhile isGap, c :: s ++ t) := by
      intro t
      obtain ⟨hdrop', htake⟩ := dropWhile_append_of_cons hdrop t
      rw [argumentSpace, hdrop', htake]
      split
      · next h => exact absurd (List.cons.inj h).1 hc
      · rfl
    rw [← hsplit] at hlast hfresh ⊢
    refine labelRead_of_space hgaps hlast hfresh fun t => ?_
    rw [hsplit, hspace]

end CribSheet
