/-
A comment on a line of its own, and the items around it.

A comment stands on a line of its own behind list markup.  Cutting a list into its items goes through the
comment as through any other text, so with the comment the same items are found, one of which has the
comment in it.

Main definitions:

* `CribSheet.commentLine` — a comment with its line break;
* `CribSheet.CommentBetween` — the comment may stand between two texts;
* `CribSheet.Beside` — two texts of which one may have the comment in it.

Main results:

* `CribSheet.CommentBetween.of_append` — the comment may stand between parts of these texts;
* `CribSheet.CommentBetween.nextItem` — the next item with the comment and without it;
* `CribSheet.CommentBetween.listItems` — the items of a list with the comment and without it.
-/
import CribSheet.Proofs.Display.ListMarkup
import CribSheet.Proofs.Display.Parts

set_option relaxedAutoImplicit false
set_option autoImplicit false

namespace CribSheet

open CribSheet.Markup

/-! ### Comments -/

/-- A comment on a line of its own. -/
def commentLine (c : Text) : Text := '%' :: (c ++ ['\n'])

/-- The text starts with a single blank line.  A line break in front of it ends a paragraph, but a second
one behind it would be needed where the line break is kept from it by a comment. -/
def SingleBlankLine (t : Text) : Prop :=
  t.firstLine.1.isBlankText = true ∧
    ∃ rest : Text, t.firstLine.2 = '\n' :: rest ∧ rest.firstLine.1.isBlankText = false

/-- **The comment `c` may stand between `a` and `b`.** -/
structure CommentBetween (a c b : Text) : Prop where
  /-- In front of it stands list markup, -/
  markup : ListMarkup a
  /-- which ends a line. -/
  last : a.getLast? = some '\n'
  /-- The comment ends with its line. -/
  line : '\n' ∉ c
  /-- A list in front of it finds no directive in it, -/
  quiet : '\\' ∈ a → ∀ names, Directives names → Quiet names (commentLine c)
  /-- and a bracket in front of it no group. -/
  brackets : '[' ∈ a → ∀ d ∈ c, d ∉ ['\\', '{', '}', '[', ']']
  /-- It does not keep an item from its label. -/
  label : ∀ x star gaps, a = x ++ '\\' :: (itemName ++ (star ++ (gaps ++ ['\n']))) →
    (star = [] ∨ star = ['*']) → (∀ d ∈ gaps, isGap d = true) → (b.dropWhile isGap).head? ≠ some '['
  /-- It does not keep a paragraph from the single blank line that ends it. -/
  gap : Text.blankLineAfter true a.dropLast = true ∨ ¬ SingleBlankLine b

/-- The texts are the same, or the first one has the comment in it. -/
def Beside (c t t' : Text) : Prop :=
  t = t' ∨ ∃ a b, CommentBetween a c b ∧ t = a ++ (commentLine c ++ b) ∧ t' = a ++ b

theorem Beside.refl (c t : Text) : Beside c t t := .inl rfl

/-! ### Blank lines -/

theorem blankLineStep_mono {blank : Bool} {c : Char} (h : Text.blankLineStep blank c = true) :
    Text.blankLineStep true c = true := by
  unfold Text.blankLineStep at h ⊢
  split
  · rfl
  · next hc =>
    rw [if_neg hc, Bool.and_eq_true] at h
    simpa using h.2

/-- A line that is blank behind something is blank. -/
theorem blankLineAfter_mono {blank : Bool} {t : Text} (h : Text.blankLineAfter blank t = true) :
    Text.blankLineAfter true t = true := by
  induction t generalizing blank with
  | nil => rfl
  | cons c t ih =>
    rw [Text.blankLineAfter_cons] at h ⊢
    cases hstep : Text.blankLineStep blank c with
    | true =>
      rw [blankLineStep_mono hstep]
      rwa [hstep] at h
    | false =>
      rw [hstep] at h
      cases Text.blankLineStep true c with
      | true => exact ih h
      | false => exact h

theorem firstLine_append_fst (t u : Text) : ∃ z, (t ++ u).firstLine.1 = t.firstLine.1 ++ z := by
  unfold Text.firstLine
  induction t with
  | nil => exact ⟨u.takeWhile (· ≠ '\n'), rfl⟩
  | cons c t ih =>
    by_cases hc : c = '\n'
    · exact ⟨[], by simp [hc]⟩
    · obtain ⟨z, hz⟩ := ih
      exact ⟨z, by simpa [hc] using hz⟩

/-- A text starts with a single blank line as soon as its beginning does. -/
theorem SingleBlankLine.append {t : Text} (h : SingleBlankLine t) (u : Text) : SingleBlankLine (t ++ u) := by
  obtain ⟨hblank, rest, hrest, hvisible⟩ := h
  have hdrop : t.dropWhile (· ≠ '\n') = '\n' :: rest := hrest
  obtain ⟨hdrop', htake⟩ := dropWhile_append_of_cons hdrop u
  refine ⟨?_, rest ++ u, hdrop', ?_⟩
  · rwa [Text.firstLine, htake]
  · obtain ⟨z, hz⟩ := firstLine_append_fst rest u
    rw [hz, Text.isBlankText_append, hvisible, Bool.false_and]

/-! ### Parts of the texts around a comment -/

namespace CommentBetween

variable {a b c : Text}

theorem ne_nil (h : CommentBetween a c b) : a ≠ [] := by
  rintro rfl
  simpa using h.last

/-- A character other than a line break is not the last one in front of the comment. -/
theorem behind_ne_nil {x : Text} {d : Char} (h : CommentBetween (x ++ d :: a) c b) (hd : d ≠ '\n') : a ≠ [] := by
  rintro rfl
  have hlast := h.last
  rw [List.getLast?_concat] at hlast
  exact hd (Option.some.inj hlast)

/-- **The comment may stand between the end of the first text and the start of the second one.** -/
theorem of_append {x y : Text} (h : CommentBetween (x ++ a) c (b ++ y)) (hfresh : escapedAfter false x = false)
    (hne : a ≠ []) : CommentBetween a c b where
  markup := h.markup.of_append hfresh
  last := by
    have := h.last
    rwa [List.getLast?_append_of_ne_nil _ hne] at this
  line := h.line
  quiet := fun hmem => h.quiet (List.mem_append_right _ hmem)
  brackets := fun hmem => h.brackets (List.mem_append_right _ hmem)
  label := by
    rintro z star gaps rfl hstar hgaps hbracket
    refine h.label (x ++ z) star gaps (by simp) hstar hgaps ?_
    obtain ⟨w, hw⟩ := List.head?_eq_some_iff.1 hbracket
    rw [(dropWhile_append_of_cons hw y).1]
    rfl
  gap := by
    refine h.gap.imp (fun hblank => ?_) fun hsingle hb => hsingle (hb.append y)
    rw [List.dropLast_append_of_ne_nil hne, Text.blankLineAfter_append] at hblank
    exact blankLineAfter_mono hblank

end CommentBetween

/-! ### The next item -/

/-- What the next item is, with the comment `c` between `a` and `b` and without it: it stands in `a`, or
nothing but what stands before it makes a difference. -/
inductive NextItem (a c b : Text) : Prop
  | inside (before source a' : Text) (htext : a = before ++ (source ++ a')) (hne : a' ≠ [])
      (hfresh : escapedAfter false (before ++ source) = false)
      (hnext : ∀ t, t = commentLine c ++ b ∨ t = b → ItemMark.next? (a ++ t) = some ⟨before, source, a' ++ t⟩)
  | beyond (mark mark' : ItemMark) (hafter : mark.after = mark'.after)
      (hbefore : mark.before = mark'.before ∨
        ∃ b₁ y, b = b₁ ++ y ∧ mark.before = a ++ (commentLine c ++ b₁) ∧ mark'.before = a ++ b₁)
      (hnext : ItemMark.next? (a ++ (commentLine c ++ b)) = some mark)
      (hnext' : ItemMark.next? (a ++ b) = some mark')
  | absent (hnext : ItemMark.next? (a ++ (commentLine c ++ b)) = none) (hnext' : ItemMark.next? (a ++ b) = none)

/-- The next item behind something that the search passes over. -/
theorem NextItem.behind {x w c b : Text} (hfresh : escapedAfter false x = false)
    (hpass : ∀ t, t = commentLine c ++ b ∨ t = b →
      ItemMark.next? (x ++ (w ++ t)) = (ItemMark.next? (w ++ t)).map (ItemMark.behind x))
    (hw : NextItem w c b) : NextItem (x ++ w) c b := by
  have hcomment := hpass _ (.inl rfl)
  have hplain := hpass _ (.inr rfl)
  cases hw with
  | inside before source a' htext hne hsource hnext =>
    refine .inside (x ++ before) source a' (by simp [htext]) hne
      (by rw [List.append_assoc, escapedAfter_append, hfresh, hsource]) fun t ht => ?_
    rw [List.append_assoc, hpass t ht, hnext t ht]
    rfl
  | beyond mark mark' hafter hbefore hnext hnext' =>
    refine .beyond (mark.behind x) (mark'.behind x) hafter ?_
      (by rw [List.append_assoc, hcomment, hnext]; rfl) (by rw [List.append_assoc, hplain, hnext']; rfl)
    rcases hbefore with hbefore | ⟨b₁, y, hb, hbefore, hbefore'⟩
    · exact .inl (by simp [ItemMark.behind, hbefore])
    · exact .inr ⟨b₁, y, hb, by simp [ItemMark.behind, hbefore], by simp [ItemMark.behind, hbefore']⟩
  | absent hnext hnext' =>
    exact .absent (by rw [List.append_assoc, hcomment, hnext]; rfl) (by rw [List.append_assoc, hplain, hnext']; rfl)

/-- The next item is the one in a text behind the comment. -/
theorem NextItem.of_rest {a c b₀ u : Text}
    (hlong : ItemMark.next? (a ++ (commentLine c ++ (b₀ ++ u))) =
      (ItemMark.next? u).map (ItemMark.behind (a ++ (commentLine c ++ b₀))))
    (hshort : ItemMark.next? (a ++ (b₀ ++ u)) = (ItemMark.next? u).map (ItemMark.behind (a ++ b₀))) :
    NextItem a c (b₀ ++ u) := by
  cases hmark : ItemMark.next? u with
  | none =>
    rw [hmark] at hlong hshort
    exact .absent hlong hshort
  | some mark =>
    rw [hmark] at hlong hshort
    have htext := ItemMark.text_next? hmark
    refine .beyond (mark.behind (a ++ (commentLine c ++ b₀))) (mark.behind (a ++ b₀)) rfl
      (.inr ⟨b₀ ++ mark.before, mark.source ++ mark.after, ?_, ?_, ?_⟩) hlong hshort
    · simp [← htext, ItemMark.text]
    · simp [ItemMark.behind]
    · simp [ItemMark.behind]

/-- A bracket group that is open in front of a comment goes on behind it. -/
theorem closeBracket?_commentLine {c : Text} (hc : ∀ d ∈ c, d ∉ ['\\', '{', '}', '[', ']'])
    (depth braces : Nat) (b : Text) :
    closeBracket? depth braces (commentLine c ++ b) =
      (closeBracket? depth braces b).map fun p => (commentLine c ++ p.1, p.2) := by
  have hline : ∀ d ∈ commentLine c, d ∉ ['\\', '{', '}', '[', ']'] := by
    intro d hd
    simp only [commentLine, List.mem_cons, List.mem_append, List.not_mem_nil, or_false] at hd
    rcases hd with rfl | hd | rfl
    · decide
    · exact hc d hd
    · decide
  exact closeBracket?_bare_append hline depth braces b

theorem head?_dropWhile_commentLine (c b : Text) :
    ((commentLine c ++ b).dropWhile isGap).head? ≠ some '[' := by
  have hgap : isGap '%' = false := by decide
  simp [commentLine, hgap]

section NextItem

variable {a b c : Text}

/-- A star stands at the start of the text, or not, whatever follows. -/
theorem star_append_eq {w : Text} (hne : w ≠ []) (t : Text) : star (w ++ t) = ((star w).1, (star w).2 ++ t) := by
  obtain ⟨d, w, rfl⟩ := List.exists_cons_of_ne_nil hne
  by_cases hd : d = '*'
  · subst hd
    rfl
  · have hnone : ∀ u, star (d :: u) = ([], d :: u) := by
      intro u
      unfold star
      split
      · next hu => exact absurd (List.cons.inj hu).1 hd
      · rfl
    rw [List.cons_append, hnone, hnone]
    rfl

theorem star_fst (w : Text) : (star w).1 = [] ∨ (star w).1 = ['*'] := by
  unfold star
  split
  · exact .inr rfl
  · exact .inl rfl

/-- The item that a text starts with, with the comment and without it. -/
theorem CommentBetween.nextItem_item {w : Text} (h : CommentBetween ('\\' :: (itemName ++ w)) c b)
    (hletter : ∀ d ∈ w.head?, Text.isLetter d = false) (hne : w ≠ []) :
    NextItem ('\\' :: (itemName ++ w)) c b := by
  obtain ⟨s, r, hs⟩ : ∃ s r, star w = (s, r) := ⟨_, _, rfl⟩
  have hstar : s = [] ∨ s = ['*'] := by simpa [hs] using star_fst w
  have hw : w = s ++ r := by simpa [hs] using (star_append w).symm
  have hnext : ∀ t, ItemMark.next? ('\\' :: (itemName ++ w) ++ t) = some
      ⟨[], '\\' :: (itemName ++ (s ++ (itemLabel (r ++ t)).1)), (itemLabel (r ++ t)).2⟩ := by
    intro t
    have hhead : ∀ e ∈ (w ++ t).head?, Text.isLetter e = false := by
      rwa [List.head?_append_of_ne_nil _ hne]
    rw [List.cons_append, List.append_assoc, ItemMark.next?_item hhead, star_append_eq hne, hs]
  -- The star is not the end of the line.
  have hr : r ≠ [] := by
    rintro rfl
    have hlast := h.last
    rw [hw, List.append_nil] at hlast
    rcases hstar with rfl | rfl <;> simp [itemName] at hlast
  have hlast : r.getLast? = some '\n' := by
    have hlast := h.last
    rwa [hw, ← List.append_assoc, ← List.cons_append, List.getLast?_append_of_ne_nil _ hr] at hlast
  have hcommand : escapedAfter false ('\\' :: (itemName ++ s)) = false := by
    rcases hstar with rfl | rfl <;> decide
  -- Without a label the item ends behind its command.
  have hunlabelled : (∀ t, t = commentLine c ++ b ∨ t = b → itemLabel (r ++ t) = ([], r ++ t)) →
      NextItem ('\\' :: (itemName ++ w)) c b := by
    intro hlabel
    refine .inside [] ('\\' :: (itemName ++ s)) r (by simp [hw]) hr hcommand fun t ht => ?_
    rw [hnext, hlabel t ht, List.append_nil]
  cases labelRead hlast (escapedAfter_of_getLast? hlast (by decide) false) with
  | inside label a' htext hne hfresh _ hlabel =>
    refine .inside [] ('\\' :: (itemName ++ (s ++ label))) a' (by simp [hw, htext]) hne ?_ fun t _ => ?_
    · rw [List.nil_append, ← List.append_assoc, ← List.cons_append, escapedAfter_append, hcommand, hfresh]
    · rw [hnext, hlabel]
  | beyond x depth braces hbracket hlabel =>
    have hplain := h.brackets (by simp [hw, hbracket])
    have hcomment := hlabel (commentLine c ++ b)
    rw [closeBracket?_commentLine hplain] at hcomment
    have hlabel := hlabel b
    cases hclose : closeBracket? depth braces b with
    | none =>
      rw [hclose] at hcomment hlabel
      refine hunlabelled fun t ht => ?_
      rcases ht with rfl | rfl
      · exact hcomment
      · exact hlabel
    | some p =>
      rw [hclose] at hcomment hlabel
      refine .beyond _ _ ?_ (.inl ?_) (hnext _) (hnext _)
      · rw [hcomment, hlabel]
        rfl
      · rfl
  | atEnd gaps htext hgaps hlabel =>
    refine hunlabelled fun t ht => hlabel t ?_
    rcases ht with rfl | rfl
    · exact head?_dropWhile_commentLine c b
    · exact h.label [] s gaps (by simp [hw, htext]) hstar hgaps

/-- The next item behind the marker that opens a list: the search passes over the list, if it is closed. -/
theorem nextItem_begin {name w : Text} (hname : isListName name = true) (hw : ListMarkup w)
    (hquiet : Quiet [beginName, endName] (commentLine c))
    (hrest : ∀ x a', command beginName name ++ w = x ++ a' → escapedAfter false x = false → x ≠ [] →
      NextItem a' c b) : NextItem (command beginName name ++ w) c b := by
  have hisname := isName_of_isListName hname
  have hfresh : ∀ {word}, word = beginName ∨ word = endName → escapedAfter false (command word name) = false :=
    fun hword => (quiet_marker hword hisname.plain).escapedAfter_eq
  have hnext : ∀ {t region u : Text},
      regionOf ⟨.opens, name.trim, [], command beginName name, w ++ t⟩ = (region, u) →
      ItemMark.next? (command beginName name ++ (w ++ t)) =
        (ItemMark.next? u).map (ItemMark.behind region) := ItemMark.next?_begin_append hisname.plain
  simp only [regionOf, hisname.trim_eq] at hnext
  cases hw.closingSearch name 0 with
  | inside content a' htext hcontent hfind =>
    -- The list is closed in front of the comment.
    have hregion : escapedAfter false (command beginName name ++ content ++ command endName name) = false := by
      rw [escapedAfter_append, escapedAfter_append, hfresh (.inl rfl), hcontent, hfresh (.inr rfl)]
    have hsplit : command beginName name ++ w =
        command beginName name ++ content ++ command endName name ++ a' := by simp [htext]
    have hbehind := hrest _ _ hsplit hregion (by simp [command])
    rw [hsplit]
    refine hbehind.behind hregion fun t _ => ?_
    rw [← hnext (t := t) (by rw [hfind]), ← List.append_assoc, ← hsplit, List.append_assoc]
  | beyond depth hfind =>
    have hcomment := Closing.find?_quiet_append hquiet name b depth
    cases hclose : Closing.find? name depth false b with
    | none =>
      -- The list is not closed at all.
      refine (hrest _ w rfl (hfresh (.inl rfl)) (by simp [command])).behind (hfresh (.inl rfl)) fun t ht => hnext ?_
      rcases ht with rfl | rfl
      · rw [hfind, hcomment, hclose]
        rfl
      · rw [hfind, hclose]
        rfl
    | some closing =>
      -- The list is closed behind the comment.
      have hb : b = closing.content ++ closing.source ++ closing.after := (Closing.text_find? hclose).symm
      have hlong := hnext (t := commentLine c ++ b) (by rw [hfind, hcomment, hclose, Option.map_some, Option.map_some])
      have hshort := hnext (t := b) (by rw [hfind, hclose, Option.map_some])
      rw [hb] at hlong hshort ⊢
      refine .of_rest ?_ ?_
      · simpa [Closing.behind] using hlong
      · simpa [Closing.behind] using hshort

/-- **The next item** with the comment and without it. -/
theorem CommentBetween.nextItem (hquiet : ∀ names, Directives names → Quiet names (commentLine c))
    (h : a = [] ∨ CommentBetween a c b) : NextItem a c b := by
  induction hlen : a.length using Nat.strong_induction_on generalizing a with
  | _ n ih =>
    subst hlen
    -- What follows something in `a` is shorter.
    have hpart : ∀ {x a' : Text}, a = x ++ a' → escapedAfter false x = false → x ≠ [] → NextItem a' c b := by
      rintro x a' rfl hfresh hne
      refine ih a'.length ?_ ?_ rfl
      · rw [List.length_append]
        have := List.length_pos_iff.2 hne
        omega
      · by_cases ha' : a' = []
        · exact .inl ha'
        · rcases h with h | h
          · exact absurd (List.append_eq_nil_iff.1 h).1 hne
          · rw [← List.append_nil b] at h
            exact .inr (h.of_append hfresh ha')
    have hmarkup : ListMarkup a := h.elim (fun ha => ha ▸ .nil) (·.markup)
    cases hmarkup with
    | nil =>
      have hpass := ItemMark.next?_quiet_append (hquiet _ (.inl rfl)) (hquiet _ (.inr rfl)) b
      have hbehind : (ItemMark.next? b).map (ItemMark.behind []) = ItemMark.next? b := Option.map_id'
      have hlong : ItemMark.next? ([] ++ (commentLine c ++ ([] ++ b))) =
          (ItemMark.next? b).map (ItemMark.behind ([] ++ (commentLine c ++ []))) := by simpa using hpass
      exact .of_rest hlong hbehind.symm
    | @char d w hd hw =>
      have hslash : '\\' ∉ [d] := fun h => hd (List.mem_singleton.1 h ▸ List.mem_cons_self ..)
      exact .behind (x := [d]) (escapedAfter_plain hslash)
        (fun t _ => ItemMark.next?_quiet_append (quiet_of_no_backslash hslash) (quiet_of_no_backslash hslash) _)
        (hpart rfl (escapedAfter_plain hslash) (by simp))
    | @item d w hd hw =>
      rcases h with h | h
      · simp at h
      · exact h.nextItem_item (by simpa using hd) (by simp)
    | @marker word name w hword hname hw =>
      have hisname := isName_of_isListName hname
      have hfresh : escapedAfter false (command word name) = false :=
        (quiet_marker hword hisname.plain).escapedAfter_eq
      have hne : command word name ≠ [] := by simp [command]
      rcases hword with rfl | rfl
      · exact nextItem_begin hname hw (hquiet _ (.inl rfl)) fun x a' hsplit hx hne => hpart hsplit hx hne
      · exact .behind hfresh (fun t _ => ItemMark.next?_end_append hisname _) (hpart rfl hfresh hne)

end NextItem

/-! ### The content of a list -/

section Content

variable {a b c : Text}

/-- The content has no options. -/
theorem body_ofText_of_none {t : Text} (h : Group.readBracket? (t.dropWhile isGap) = none) :
    (EnvironmentContent.ofText t).body = t := by
  rw [EnvironmentContent.ofText, h]

/-- The content starts with options. -/
theorem body_ofText_of_some {t : Text} {g : Group} (h : Group.readBracket? (t.dropWhile isGap) = some g) :
    (EnvironmentContent.ofText t).body = g.after := by
  rw [EnvironmentContent.ofText, h]

/-- Options that start in front of the comment. -/
theorem CommentBetween.body_bracket {r : Text} (h : CommentBetween a c b) (hdrop : a.dropWhile isGap = '[' :: r) :
    Beside c (EnvironmentContent.ofText (a ++ (commentLine c ++ b))).body
      (EnvironmentContent.ofText (a ++ b)).body := by
  have hdrop' : ∀ t, (a ++ t).dropWhile isGap = '[' :: (r ++ t) := fun t => (dropWhile_append_of_cons hdrop t).1
  have hgaps : escapedAfter false (a.takeWhile isGap) = false :=
    escapedAfter_blank (isBlankText_takeWhile_isGap a)
  have hsplit : a.takeWhile isGap ++ '[' :: r = a := hdrop ▸ List.takeWhile_append_dropWhile
  have hr : escapedAfter false r = false := by
    have hfresh := escapedAfter_of_getLast? h.last (by decide) false
    rwa [← hsplit, escapedAfter_append, hgaps, escapedAfter_cons_of_ne (by decide)] at hfresh
  cases bracketRead hr with
  | inside inner a' htext _ hread =>
    have hbody : ∀ t, (EnvironmentContent.ofText (a ++ t)).body = a' ++ t := fun t =>
      body_ofText_of_some ((congrArg Group.readBracket? (hdrop' t)).trans (hread t))
    have hoptions : a = a.takeWhile isGap ++ '[' :: inner ++ ']' :: a' := by
      conv => lhs; rw [← hsplit, htext]
      simp
    have hfresh : escapedAfter false (a.takeWhile isGap ++ '[' :: inner ++ [']']) = false :=
      escapedAfter_of_getLast? List.getLast?_concat (by decide) false
    have hne : a' ≠ [] := by
      rw [hoptions] at h
      exact h.behind_ne_nil (by decide)
    have hbehind : CommentBetween (a.takeWhile isGap ++ '[' :: inner ++ [']'] ++ a') c (b ++ []) := by
      rwa [List.append_nil, List.append_assoc _ [']'], List.singleton_append, ← hoptions]
    rw [hbody, hbody]
    exact .inr ⟨a', b, hbehind.of_append hfresh hne, rfl, rfl⟩
  | beyond depth braces hread =>
    have hplain := h.brackets (by rw [← hsplit]; simp)
    have hlong := hread (commentLine c ++ b)
    rw [closeBracket?_commentLine hplain] at hlong
    have hshort := hread b
    rw [← hdrop'] at hlong hshort
    cases hclose : closeBracket? depth braces b with
    | none =>
      rw [hclose] at hlong hshort
      rw [body_ofText_of_none hlong, body_ofText_of_none hshort]
      exact .inr ⟨a, b, h, rfl, rfl⟩
    | some p =>
      rw [hclose] at hlong hshort
      rw [body_ofText_of_some hlong, body_ofText_of_some hshort]
      exact .refl c _

/-- The content of a list without its options, with the comment and without it. -/
theorem CommentBetween.body (h : CommentBetween a c b) :
    Beside c (EnvironmentContent.ofText (a ++ (commentLine c ++ b))).body
      (EnvironmentContent.ofText (a ++ b)).body := by
  cases hdrop : a.dropWhile isGap with
  | nil =>
    -- A line break is no gap.
    have hgap := List.dropWhile_eq_nil_iff.1 hdrop _ (List.mem_of_getLast? h.last)
    exact absurd hgap (by decide)
  | cons d r =>
    by_cases hd : d = '['
    · subst hd
      exact h.body_bracket hdrop
    · have hnone : ∀ t, Group.readBracket? ((a ++ t).dropWhile isGap) = none := by
        intro t
        rw [(dropWhile_append_of_cons hdrop t).1, List.cons_append, readBracket?_cons_of_ne hd]
      rw [body_ofText_of_none (hnone _), body_ofText_of_none (hnone _)]
      exact .inr ⟨a, b, h, rfl, rfl⟩

end Content

/-! ### The items of a list -/

section Items

variable {a b c : Text} (hquiet : ∀ names, Directives names → Quiet names (commentLine c))
include hquiet

/-- The items of a text, with the comment and without it. -/
theorem CommentBetween.items (h : CommentBetween a c b) :
    Beside c (items (a ++ (commentLine c ++ b))).1 (CribSheet.items (a ++ b)).1 ∧
      List.Forall₂ (Beside c) (CribSheet.items (a ++ (commentLine c ++ b))).2 (CribSheet.items (a ++ b)).2 := by
  induction hlen : a.length using Nat.strong_induction_on generalizing a with
  | _ n ih =>
    subst hlen
    cases CommentBetween.nextItem hquiet (.inr h) with
    | inside before source a' htext hne hfresh hnext =>
      have hsplit : a = before ++ source ++ a' := by simp [htext]
      have ha' : CommentBetween a' c b := by
        rw [hsplit, ← List.append_nil b] at h
        exact h.of_append hfresh hne
      have hsource : source ≠ [] := ItemMark.source_next?_ne_nil (hnext b (.inr rfl))
      have hlt : a'.length < a.length := by
        have := List.length_pos_iff.2 hsource
        simp only [htext, List.length_append]
        omega
      obtain ⟨hlead, hitems⟩ := ih a'.length hlt ha' rfl
      rw [items_of_next? (hnext _ (.inl rfl)), items_of_next? (hnext _ (.inr rfl))]
      exact ⟨.refl c before, .cons hlead hitems⟩
    | beyond mark mark' hafter hbefore hnext hnext' =>
      rw [items_of_next? hnext, items_of_next? hnext', hafter]
      refine ⟨?_, List.forall₂_same.2 fun t _ => .refl c t⟩
      rcases hbefore with hbefore | ⟨b₁, y, rfl, hbefore, hbefore'⟩
      · exact .inl hbefore
      · exact .inr ⟨a, b₁, h.of_append (x := []) rfl h.ne_nil, hbefore, hbefore'⟩
    | absent hnext hnext' =>
      rw [items_of_next?_eq_none hnext, items_of_next?_eq_none hnext']
      exact ⟨.inr ⟨a, b, h, rfl, rfl⟩, .nil⟩

/-- **The items of a list** with the comment and without it. -/
theorem CommentBetween.listItems (h : CommentBetween a c b) :
    Beside c (listItems (a ++ (commentLine c ++ b))).1 (CribSheet.listItems (a ++ b)).1 ∧
      List.Forall₂ (Beside c) (CribSheet.listItems (a ++ (commentLine c ++ b))).2
        (CribSheet.listItems (a ++ b)).2 := by
  unfold CribSheet.listItems
  rcases h.body with heq | ⟨a', b', h', heq, heq'⟩
  · rw [heq]
    exact ⟨.refl c _, List.forall₂_same.2 fun t _ => .refl c t⟩
  · rw [heq, heq']
    exact h'.items hquiet

end Items

end CribSheet
