/-
The texts that inlines show.

Reading running text drops commands, joins what stands around them, and takes the arguments of styled
runs apart.  None of this makes a directive out of a tidy text: every text of the inlines that are read
from it is tidy again.

Main definitions:

* `CribSheet.inlinesTexts` — the texts in some inlines, at any depth;
* `CribSheet.ShowsTidy` — all of them are tidy.

Main results:

* `CribSheet.Tidy.showsTidy` — the inlines of a tidy text show tidy texts only.
-/
import CribSheet.Proofs.Display.InlineReading
import CribSheet.Proofs.Display.Tidy
import CribSheet.Proofs.Markup.Delimiter

set_option relaxedAutoImplicit false
set_option autoImplicit false

namespace CribSheet

open CribSheet.Markup
open CribSheet.Identity (Plain)

/-! ### Texts of a tree -/

mutual

/-- The texts in an inline, at any depth. -/
def Inline.texts : Inline → List Text
  | .text t => [t]
  | .strong children => inlinesTexts children
  | .emphasis children => inlinesTexts children
  | .math _ => []
  | .link _ => []
  | .lineBreak => []

/-- The texts in some inlines, at any depth. -/
def inlinesTexts : List Inline → List Text
  | [] => []
  | i :: rest => i.texts ++ inlinesTexts rest

end

/-- The inlines show tidy texts only. -/
def ShowsTidy (is : List Inline) : Prop := ∀ t ∈ inlinesTexts is, Tidy t

theorem showsTidy_cons {i : Inline} {is : List Inline} :
    ShowsTidy (i :: is) ↔ (∀ t ∈ i.texts, Tidy t) ∧ ShowsTidy is := by
  simp only [ShowsTidy, inlinesTexts, List.mem_append, or_imp, forall_and]

/-- An empty text changes nothing. -/
theorem merge_text_nil (is : List Inline) : Inline.merge (.text [] :: is) = Inline.merge is := by
  rw [Inline.merge]
  split
  · next u rest heq => rw [heq, List.nil_append]
  · exact if_pos rfl

/-- Joining two texts first changes nothing. -/
theorem merge_text_text (a b : Text) (is : List Inline) :
    Inline.merge (.text a :: .text b :: is) = Inline.merge (.text (a ++ b) :: is) := by
  rcases Classical.em (b = []) with rfl | hb
  · rw [List.append_nil, Inline.merge, merge_text_nil, ← Inline.merge]
  · by_cases htext : startsWithText (Inline.merge is) = true
    · cases h : Inline.merge is with
      | nil => simp [h, startsWithText] at htext
      | cons i rest =>
        cases i with
        | text u =>
          rw [merge_text_cons_of_text (merge_text_cons_of_text h), merge_text_cons_of_text h, List.append_assoc]
        | strong | emphasis | math | link | lineBreak => simp [h, startsWithText] at htext
    · have hnot : startsWithText (Inline.merge is) = false := by simpa using htext
      have hab : a ++ b ≠ [] := fun h => hb (List.append_eq_nil_iff.1 h).2
      rw [merge_text_cons_of_text (merge_text_cons_of_not_text hb hnot), merge_text_cons_of_not_text hab hnot]

/-- A text that leaves tidy texts tidy when it is put in front of them. -/
def LeadsTidy (a : Text) : Prop := ∀ w, Tidy w → Tidy (a ++ w)

theorem leadsTidy_of_plain {a : Text} (ha : '\\' ∉ a) : LeadsTidy a := fun _ => Tidy.plain_append ha

/-- Joined with a text that leaves it tidy, a tidy text stays tidy. -/
theorem showsTidy_merge_text {a : Text} {is : List Inline} (ha : LeadsTidy a)
    (h : ShowsTidy (Inline.merge is)) : ShowsTidy (Inline.merge (.text a :: is)) := by
  rw [Inline.merge]
  split
  · next u rest heq =>
    rw [heq, showsTidy_cons] at h
    refine showsTidy_cons.2 ⟨fun t ht => ?_, h.2⟩
    obtain rfl := List.mem_singleton.1 ht
    exact ha u (h.1 u (List.mem_singleton_self u))
  · split
    · exact h
    · refine showsTidy_cons.2 ⟨fun t ht => ?_, h⟩
      obtain rfl := List.mem_singleton.1 ht
      simpa using ha [] .nil

/-! ### What is left behind a token -/

/-- The text is left over when something in front of it is read that leaves no escape open. -/
def LeftOver (t rest : Text) : Prop := ∃ a, t = a ++ rest ∧ escapedAfter false a = false

theorem Tidy.leftOver {t rest : Text} (h : Tidy t) (hrest : LeftOver t rest) : Tidy rest := by
  obtain ⟨a, rfl, hfresh⟩ := hrest
  exact h.of_append hfresh

namespace LeftOver

theorem refl (t : Text) : LeftOver t t := ⟨[], rfl, rfl⟩

theorem trans {t u v : Text} (h : LeftOver t u) (h' : LeftOver u v) : LeftOver t v := by
  obtain ⟨a, rfl, ha⟩ := h
  obtain ⟨b, rfl, hb⟩ := h'
  exact ⟨a ++ b, (List.append_assoc ..).symm, by rw [escapedAfter_append, ha, hb]⟩

theorem gaps (t : Text) : LeftOver t (t.dropWhile isGap) :=
  ⟨_, List.takeWhile_append_dropWhile.symm, escapedAfter_blank (isBlankText_takeWhile_isGap t)⟩

theorem space (t : Text) : LeftOver t (argumentSpace t).2 :=
  ⟨_, (argumentSpace_append t).symm, escapedAfter_blank (isBlankText_argumentSpace t)⟩

theorem group {t : Text} {g : Group} (h : Group.read? t = some g) : LeftOver t g.after :=
  ⟨_, (Group.text_read? h).symm, escapedAfter_source_of_read? h⟩

theorem ofGroups (t : Text) : LeftOver t (groups t).2 := ⟨_, (groups_append t).symm, escapedAfter_groups t⟩

theorem cons {c : Char} (hc : c ≠ '\\') (t : Text) : LeftOver (c :: t) t :=
  ⟨[c], rfl, by rw [escapedAfter_cons_of_ne hc]; rfl⟩

theorem ofDropStar (t : Text) : LeftOver t (dropStar t) := by
  unfold dropStar
  split
  · exact cons (by decide) _
  · exact refl _

theorem ofDropEmptyGroup (t : Text) : LeftOver t (dropEmptyGroup t) := by
  unfold dropEmptyGroup
  split
  · exact (cons (by decide) _).trans (cons (by decide) _)
  · exact refl _

theorem ofDropBreakArguments (t : Text) : LeftOver t (dropBreakArguments t) := by
  unfold dropBreakArguments
  split
  · next g hg => exact (ofDropStar t).trans (group (Option.filter_eq_some_iff.1 hg).1)
  · exact ofDropStar t

end LeftOver

/-- **The argument of a command in a tidy text is tidy**, and so is what follows it. -/
theorem Tidy.argument {t : Text} (h : Tidy t) {a : Argument} (ha : Argument.read? t = some a) :
    Tidy a.inner ∧ Tidy a.after := by
  obtain ⟨t', hspace, hclose⟩ := argument_read?_eq_some ha
  have hgroup : Group.read? (argumentSpace t).2 = some ⟨.brace, a.inner, a.after⟩ := by
    rw [hspace, Group.read?, if_pos rfl, hclose]
    rfl
  have hinner : Tidy ('{' :: t') := by
    rw [← hspace]
    exact h.leftOver (.space t)
  exact ⟨(hinner.leftOver (.cons (by decide) t')).of_closeBrace? hclose,
    h.leftOver ((LeftOver.space t).trans (.group hgroup))⟩

theorem LeftOver.formula {delimiter t inner rest : Text} (hd : escapedAfter false delimiter = false)
    (h : findUnescaped? delimiter t = some (inner, rest)) : LeftOver t rest :=
  ⟨inner ++ delimiter, findUnescaped?_eq_append t h, by
    rw [escapedAfter_append, escapedAfter_findUnescaped? t h, hd]⟩

/-! ### Tokens of a tidy text -/

namespace InlineToken

/-- A token that shows tidy texts only, once it is joined with what follows it. -/
def IsTidy : InlineToken → Prop
  | text a => LeadsTidy a
  | inline i => i.texts = []
  | styled _ content => Tidy content

/-- The token of a word that starts no directive. -/
theorem isTidy_ofWord {name rest : Text} (hname : ∀ c ∈ name, Text.isLetter c = true)
    (hstart : ¬ StartsDirective name) (hrest : Tidy rest) :
    (ofWord name rest).1.IsTidy ∧ Tidy (ofWord name rest).2 := by
  have hword : LeadsTidy ('\\' :: name) := fun w hw => .word hname hstart hw
  unfold ofWord
  split
  · split
    · next a ha => exact hrest.argument ha
    · exact ⟨hword, hrest⟩
  · split
    · split
      · next a ha => exact ⟨rfl, (hrest.argument ha).2⟩
      · exact ⟨hword, hrest⟩
    · split
      · next t ht =>
        refine ⟨leadsTidy_of_plain ?_, hrest.leftOver (.ofDropEmptyGroup rest)⟩
        unfold replacement? at ht
        split at ht
        · obtain rfl := Option.some.inj ht
          decide
        · split at ht
          · obtain rfl := Option.some.inj ht
            decide
          · simp at ht
      · split
        · exact ⟨fun w hw => hw, hrest.leftOver ((LeftOver.ofDropStar rest).trans (.ofGroups _))⟩
        · split
          · exact ⟨fun w hw => hw, hrest.leftOver (.gaps rest)⟩
          · exact ⟨hword, hrest⟩

theorem isTidy_read_char {c : Char} {t : Text} (hc : c ≠ '\\') (ht : Tidy t) :
    (read c t).1.IsTidy ∧ Tidy (read c t).2 := by
  have hplain : ∀ d : Char, d ≠ '\\' → LeadsTidy [d] := by
    intro d hd
    exact leadsTidy_of_plain (by simpa using Ne.symm hd)
  unfold read
  rw [if_neg hc]
  split
  · split
    · next t' => exact ⟨leadsTidy_of_plain (by decide), ht.leftOver (.cons (by decide) t')⟩
    · split
      · next inner rest hf => exact ⟨rfl, ht.leftOver (.formula (by decide) hf)⟩
      · exact ⟨hplain c hc, ht⟩
  · split
    · exact ⟨hplain ' ' (by decide), ht⟩
    · exact ⟨hplain c hc, ht⟩

theorem isTidy_read_escape {d : Char} {t : Text} (hd : Text.isLetter d = false) (ht : Tidy t) :
    (read '\\' (d :: t)).1.IsTidy ∧ Tidy (read '\\' (d :: t)).2 := by
  have hescape : LeadsTidy ['\\', d] := fun w hw => .escape hd hw
  unfold read
  rw [if_pos rfl]
  simp only [hd, Bool.false_eq_true, if_false]
  split
  · exact ⟨rfl, ht.leftOver (.ofDropBreakArguments t)⟩
  · split
    · split
      · next inner rest hf => exact ⟨rfl, ht.leftOver (.formula (by decide) hf)⟩
      · exact ⟨hescape, ht⟩
    · split
      · next hne =>
        refine ⟨leadsTidy_of_plain ?_, ht⟩
        rcases hne with rfl | rfl <;> decide
      · exact ⟨hescape, ht⟩

/-- A word takes the letters along that follow it. -/
theorem isTidy_read_word {name t : Text} (hname : ∀ c ∈ name, Text.isLetter c = true)
    (hstart : ¬ StartsDirective name) (ht : Tidy t) :
    (read '\\' (name ++ t)).1.IsTidy ∧ Tidy (read '\\' (name ++ t)).2 := by
  have hletters : ∀ c ∈ t.takeWhile Text.isLetter, Text.isLetter c = true :=
    fun c hc => List.all_eq_true.1 (List.all_takeWhile (p := Text.isLetter) (l := t)) c hc
  have hends : ∀ c ∈ (t.dropWhile Text.isLetter).head?, Text.isLetter c = false := by
    intro c hc
    have := List.head?_dropWhile_not Text.isLetter t
    rw [hc] at this
    simpa using this
  have hsplit : name ++ t = name ++ t.takeWhile Text.isLetter ++ t.dropWhile Text.isLetter := by
    rw [List.append_assoc, List.takeWhile_append_dropWhile]
  have hrest : Tidy (t.dropWhile Text.isLetter) :=
    ht.leftOver ⟨_, List.takeWhile_append_dropWhile.symm, escapedAfter_plain (slash_not_mem_of_letters hletters)⟩
  have hne : name ++ t.takeWhile Text.isLetter ≠ [] := by
    simp [ne_nil_of_not_startsDirective hstart]
  have hword : ∀ c ∈ name ++ t.takeWhile Text.isLetter, Text.isLetter c = true :=
    fun c hc => (List.mem_append.1 hc).elim (hname c) (hletters c)
  rw [hsplit, read_word hne hword hends]
  refine isTidy_ofWord hword (fun h => hstart ?_) hrest
  obtain ⟨directive, hmem, hprefix⟩ := h
  exact ⟨directive, hmem, (List.prefix_append _ _).trans hprefix⟩

theorem read_marker {word t : Text} (hword : word = beginName ∨ word = endName) :
    read '\\' (word ++ '{' :: t) = (.text ('\\' :: word), '{' :: t) := by
  have hletters : ∀ c ∈ word, Text.isLetter c = true := by rcases hword with rfl | rfl <;> decide
  have hne : word ≠ [] := by rcases hword with rfl | rfl <;> decide
  rw [read_word hne hletters (by simp; decide)]
  rcases hword with rfl | rfl <;> rfl

end InlineToken

/-! ### Inlines of a tidy text -/

/-- Texts without markup are joined into one. -/
theorem merge_inlineTokens_append {parse : Text → List Inline} {a x w : Text}
    (hx : ∀ c ∈ x, c ∉ ['\\', '$', '~']) :
    Inline.merge (.text a :: (inlineTokens (x ++ w)).map (InlineToken.toInline parse)) =
      Inline.merge (.text (a ++ x) :: (inlineTokens w).map (InlineToken.toInline parse)) := by
  induction x generalizing a with
  | nil => simp
  | cons c x ih =>
    obtain ⟨hc, hx⟩ := List.forall_mem_cons.1 hx
    rw [List.cons_append, inlineTokens_cons, InlineToken.read_char hc, List.map_cons, InlineToken.toInline,
      merge_text_text, ih hx, List.append_assoc, List.singleton_append]

/-- A token in front of inlines that show tidy texts only. -/
theorem showsTidy_merge_token {parse : Text → List Inline} {token : InlineToken} {is : List Inline}
    (htoken : token.IsTidy) (hparse : ∀ style content, token = .styled style content → ShowsTidy (parse content))
    (h : ShowsTidy (Inline.merge is)) : ShowsTidy (Inline.merge (token.toInline parse :: is)) := by
  cases token with
  | text a => exact showsTidy_merge_text htoken h
  | inline i =>
    have hmerge : Inline.merge (i :: is) = i :: Inline.merge is := by
      cases i with
      | text t => simp [InlineToken.IsTidy, Inline.texts] at htoken
      | strong | emphasis | math | link | lineBreak => rfl
    rw [InlineToken.toInline, hmerge, showsTidy_cons]
    exact ⟨fun t ht => by simp [show i.texts = [] from htoken] at ht, h⟩
  | styled style content =>
    have hcontent := hparse style content rfl
    cases style with
    | strong | emphasis =>
      refine showsTidy_cons.2 ⟨fun t ht => hcontent t ?_, h⟩
      rwa [InlineToken.toInline, Style.inline, Inline.texts] at ht

/-- The tokens of a tidy text show tidy texts only, when styled content does. -/
theorem Tidy.showsTidy_merge {t : Text} (h : Tidy t) {parse : Text → List Inline}
    (hparse : ∀ content : Text, content.length < t.length → Tidy content → ShowsTidy (parse content)) :
    ShowsTidy (Inline.merge ((inlineTokens t).map (InlineToken.toInline parse))) := by
  induction hlen : t.length using Nat.strong_induction_on generalizing t with
  | _ n ih =>
    subst hlen
    have hnext : ∀ {rest : Text}, Tidy rest → rest.length < t.length →
        ShowsTidy (Inline.merge ((inlineTokens rest).map (InlineToken.toInline parse))) :=
      fun hrest hlt => ih _ hlt hrest (fun content hc => hparse content (hc.trans hlt)) rfl
    -- One step: the first token and what is left behind it are tidy.
    have hstep : ∀ {c : Char} {w : Text}, c :: w = t →
        (InlineToken.read c w).1.IsTidy ∧ Tidy (InlineToken.read c w).2 →
        ShowsTidy (Inline.merge ((inlineTokens (c :: w)).map (InlineToken.toInline parse))) := by
      rintro c w rfl ⟨htoken, hrest⟩
      rw [inlineTokens_cons, List.map_cons]
      refine showsTidy_merge_token htoken ?_
        (hnext hrest (Nat.lt_succ_of_le (InlineToken.length_read_le c w)))
      intro style content hread
      rw [hread] at htoken
      exact hparse content (Nat.lt_succ_of_lt (InlineToken.length_content_of_read hread)) htoken
    cases h with
    | nil => simp [inlineTokens, Inline.merge, ShowsTidy, inlinesTexts]
    | slash =>
      have hread : InlineToken.read '\\' [] = (.text ['\\'], []) := rfl
      intro t ht
      simp [inlineTokens_cons, hread, inlineTokens, InlineToken.toInline, Inline.merge, inlinesTexts,
        Inline.texts] at ht
      exact ht ▸ .slash
    | char hc hw => exact hstep rfl (InlineToken.isTidy_read_char hc hw)
    | escape hd hw => exact hstep rfl (InlineToken.isTidy_read_escape hd hw)
    | word hname hstart hw => exact hstep rfl (InlineToken.isTidy_read_word hname hstart hw)
    | @marker word name w hword hname hw =>
      -- The marker falls into a word and characters, which are joined again.
      have hinner : ∀ c ∈ '{' :: (name ++ ['}']), c ∉ ['\\', '$', '~'] := by
        intro c hc
        simp only [List.mem_cons, List.mem_append, List.not_mem_nil, or_false] at hc
        rcases hc with rfl | hc | rfl
        · decide
        · exact hname.not_special hc
        · decide
      have hsplit : '{' :: (name ++ '}' :: w) = '{' :: (name ++ ['}']) ++ w := by simp
      have hlt : w.length < ('\\' :: (word ++ '{' :: (name ++ '}' :: w))).length := by
        simp only [List.length_cons, List.length_append]
        omega
      have hrest := hnext hw hlt
      rw [inlineTokens_cons, InlineToken.read_marker hword, hsplit, List.map_cons, InlineToken.toInline,
        merge_inlineTokens_append hinner]
      refine showsTidy_merge_text (fun u hu => ?_) hrest
      simpa using Tidy.marker hword hname hu

/-- **The inlines of a tidy text show tidy texts only.** -/
theorem Tidy.showsTidy {t : Text} (h : Tidy t) : ShowsTidy (parseInlines t) := by
  rw [parseInlines_eq]
  exact h.showsTidy_merge fun content _ hcontent => hcontent.showsTidy
termination_by t.length

end CribSheet
