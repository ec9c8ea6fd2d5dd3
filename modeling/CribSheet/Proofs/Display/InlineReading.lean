/-
Reading written inlines.

Written inlines fall into the tokens of each inline, one after the other: a text into its characters, every
other inline into a token of its own.  Joining the characters again gives the inlines back.

Main definitions:

* `CribSheet.Inline.tokens` — the tokens that a written inline falls into.

Main results:

* `CribSheet.inlineTokens_write_append` — written inlines fall into their tokens;
* `CribSheet.parseInlines_writeInlines` — reading written inlines gives them back;
* `CribSheet.parseInlines_plain` — text without markup is shown as it is.
-/
import CribSheet.Proofs.Display.Running

set_option relaxedAutoImplicit false
set_option autoImplicit false

namespace CribSheet

open CribSheet.Markup
open CribSheet.Identity (Plain)

/-! ### Tokens -/

/-- The tokens that a written inline falls into. -/
def Inline.tokens : Inline → List InlineToken
  | .text t => t.map fun c => .text [c]
  | .strong children => [.styled .strong (writeInlines children)]
  | .emphasis children => [.styled .emphasis (writeInlines children)]
  | .math body => [.inline (.math body)]
  | .link url => [.inline (.link url)]
  | .lineBreak => [.inline .lineBreak]

/-- No star and no bracket stands at the start of the text, so that a line break in front of it has no
arguments. -/
def EndsBreak (t : Text) : Prop := ∀ c ∈ t.head?, c ≠ '*' ∧ c ≠ '['

namespace InlineToken

theorem read_char {c : Char} (hc : c ∉ ['\\', '$', '~']) (t : Text) : read c t = (.text [c], t) := by
  simp only [List.mem_cons, List.not_mem_nil, or_false, not_or] at hc
  rw [read.eq_def, if_neg hc.1, if_neg hc.2.1, if_neg hc.2.2]

theorem read_word {name rest : Text} (hne : name ≠ []) (hname : ∀ c ∈ name, Text.isLetter c = true)
    (hrest : ∀ c ∈ rest.head?, Text.isLetter c = false) : read '\\' (name ++ rest) = ofWord name rest := by
  obtain ⟨htake, hdrop⟩ := takeWhile_dropWhile_isLetter hname hrest
  obtain ⟨d, name, rfl⟩ := List.exists_cons_of_ne_nil hne
  rw [read.eq_def, if_pos rfl, List.cons_append]
  simp only [hname d (List.mem_cons_self ..), if_true]
  rw [← List.cons_append, htake, hdrop]

theorem read_style {w : Text} (s : Style) (hw : Running 0 w) (t : Text) :
    read '\\' (s.command ++ '{' :: (w ++ '}' :: t)) = (.styled s w, t) := by
  have hletters : ∀ c ∈ s.command, Text.isLetter c = true := by cases s <;> decide
  have hstyle : style? s.command = some s := by cases s <;> decide
  rw [read_word (style_command_ne_nil s) hletters (by simp; decide), ofWord, hstyle]
  simp only [hw.argument_read?]

theorem read_url {url : Text} (hurl : Plain url) (htrim : url.trim = url) (t : Text) :
    read '\\' (urlName ++ '{' :: (url ++ '}' :: t)) = (.inline (.link url), t) := by
  have hstyle : style? urlName = none := by decide
  rw [read_word (by decide) (by decide) (by simp; decide), ofWord, hstyle]
  simp only [if_true, argument_read?_plain hurl, htrim]

theorem read_formula {body : Text} (hne : body ≠ []) (hslash : '\\' ∉ body) (hdollar : '$' ∉ body)
    (t : Text) : read '$' (body ++ '$' :: t) = (.inline (.math body), t) := by
  obtain ⟨c, body, rfl⟩ := List.exists_cons_of_ne_nil hne
  have hc : c ≠ '$' := fun h => hdollar (h ▸ List.mem_cons_self ..)
  have hfind := findUnescaped?_dollar hslash hdollar t
  rw [read.eq_def, if_neg (by decide), if_pos rfl]
  split
  · next h => exact absurd (List.cons.inj h).1 hc
  · rw [hfind]

theorem dropBreakArguments_of_endsBreak {t : Text} (ht : EndsBreak t) : dropBreakArguments t = t := by
  cases t with
  | nil => rfl
  | cons c t =>
    obtain ⟨hstar, hbracket⟩ := ht c rfl
    have hdrop : dropStar (c :: t) = c :: t := by
      unfold dropStar
      split
      · next h => exact absurd (List.cons.inj h).1 hstar
      · rfl
    have hgroup : Group.readBracket? (c :: t) = none := by
      rw [Group.readBracket?, Group.read?, if_neg hbracket]
      split
      · cases closeBrace? 0 t <;> simp
      · rfl
    rw [dropBreakArguments, hdrop, hgroup]

theorem read_lineBreak {t : Text} (ht : EndsBreak t) : read '\\' ('\\' :: t) = (.inline .lineBreak, t) := by
  have hletter : Text.isLetter '\\' = false := by decide
  rw [read.eq_def, if_pos rfl]
  simp only [hletter, Bool.false_eq_true, if_false, if_true, dropBreakArguments_of_endsBreak ht]

end InlineToken

theorem inlineTokens_cons (c : Char) (t : Text) :
    inlineTokens (c :: t) = (InlineToken.read c t).1 :: inlineTokens (InlineToken.read c t).2 := by
  rw [inlineTokens]

theorem inlineTokens_text_append {t : Text} (ht : ∀ c ∈ t, IsProse c) (rest : Text) :
    inlineTokens (t ++ rest) = (Inline.text t).tokens ++ inlineTokens rest := by
  induction t with
  | nil => rfl
  | cons c t ih =>
    obtain ⟨hc, ht⟩ := List.forall_mem_cons.1 ht
    have hread := InlineToken.read_char (c := c) (fun h => hc (List.Sublist.subset (by decide) h))
    rw [List.cons_append, inlineTokens_cons, hread, ih ht]
    rfl

/-- A written inline falls into its tokens, whatever follows it. -/
theorem inlineTokens_write_append {i : Inline} (hi : i.isNormal = true) {rest : Text}
    (hrest : EndsBreak rest) : inlineTokens (i.write ++ rest) = i.tokens ++ inlineTokens rest := by
  cases i with
  | text t => exact inlineTokens_text_append (Inline.isNormal_text_iff.1 hi).2 rest
  | strong children =>
    rw [Inline.isNormal] at hi
    rw [Inline.write, command_append, inlineTokens_cons,
      InlineToken.read_style .strong (running_of_areNormal hi)]
    rfl
  | emphasis children =>
    rw [Inline.isNormal] at hi
    rw [Inline.write, command_append, inlineTokens_cons,
      InlineToken.read_style .emphasis (running_of_areNormal hi)]
    rfl
  | math body =>
    obtain ⟨hne, hbody⟩ := Inline.isNormal_math_iff.1 hi
    have hslash : '\\' ∉ body := fun h => hbody _ h (by decide)
    have hdollar : '$' ∉ body := fun h => hbody _ h (by decide)
    rw [Inline.write, List.cons_append, List.append_assoc, List.singleton_append, inlineTokens_cons,
      InlineToken.read_formula hne hslash hdollar]
    rfl
  | link url =>
    obtain ⟨htrim, hurl⟩ := Inline.isNormal_link_iff.1 hi
    rw [Inline.write, command_append, inlineTokens_cons, InlineToken.read_url hurl htrim]
    rfl
  | lineBreak =>
    rw [Inline.write, List.cons_append, List.cons_append, List.nil_append, inlineTokens_cons,
      InlineToken.read_lineBreak hrest]
    rfl

theorem endsBreak_writeInlines {is : List Inline} (hn : areNormal is = true) :
    EndsBreak (writeInlines is) := by
  cases is with
  | nil => simp [EndsBreak, writeInlines]
  | cons i rest =>
    obtain ⟨hi, -, -⟩ := areNormal_cons_iff.1 hn
    cases i with
    | text t =>
      obtain ⟨hne, ht⟩ := Inline.isNormal_text_iff.1 hi
      obtain ⟨c, t, rfl⟩ := List.exists_cons_of_ne_nil hne
      have hc := ht c (List.mem_cons_self ..)
      simpa [EndsBreak, writeInlines, Inline.write] using
        And.intro (ne_of_isProse hc (d := '*') (by decide)) (ne_of_isProse hc (d := '[') (by decide))
    | strong | emphasis | math | link | lineBreak =>
      simp [EndsBreak, writeInlines, Inline.write, command]

/-- **Written inlines fall into the tokens of each of them.** -/
theorem inlineTokens_writeInlines {is : List Inline} (hn : areNormal is = true) :
    inlineTokens (writeInlines is) = is.flatMap Inline.tokens := by
  induction is with
  | nil => simp [writeInlines, inlineTokens]
  | cons i rest ih =>
    obtain ⟨hi, -, hrest⟩ := areNormal_cons_iff.1 hn
    rw [writeInlines, inlineTokens_write_append hi (endsBreak_writeInlines hrest), ih hrest,
      List.flatMap_cons]

/-! ### Joining characters -/

theorem merge_text_cons_of_text {t u : Text} {is rest : List Inline}
    (h : Inline.merge is = .text u :: rest) : Inline.merge (.text t :: is) = .text (t ++ u) :: rest := by
  simp only [Inline.merge, h]

theorem merge_text_cons_of_not_text {t : Text} (hne : t ≠ []) {is : List Inline}
    (h : startsWithText (Inline.merge is) = false) :
    Inline.merge (.text t :: is) = .text t :: Inline.merge is := by
  rw [Inline.merge]
  split
  · next u rest heq => simp [heq, startsWithText] at h
  · rw [if_neg hne]

/-- The characters of a text are joined to it, when no other text follows. -/
theorem merge_chars_append {t : Text} (hne : t ≠ []) {is : List Inline}
    (h : startsWithText (Inline.merge is) = false) :
    Inline.merge (t.map (fun c => .text [c]) ++ is) = .text t :: Inline.merge is := by
  induction t with
  | nil => exact absurd rfl hne
  | cons c t ih =>
    cases t with
    | nil => exact merge_text_cons_of_not_text hne h
    | cons d t => exact merge_text_cons_of_text (ih (List.cons_ne_nil _ _))

/-- The tokens of inlines are joined to them, once the content of styled ones is read back. -/
theorem merge_tokens {is : List Inline} (hn : areNormal is = true)
    (hchildren : ∀ (style : Style) (children : List Inline), style.inline children ∈ is →
      parseInlines (writeInlines children) = children) :
    Inline.merge ((is.flatMap Inline.tokens).map (InlineToken.toInline parseInlines)) = is := by
  induction is with
  | nil => rfl
  | cons i rest ih =>
    obtain ⟨hi, hmeet, hrest⟩ := areNormal_cons_iff.1 hn
    have ih := ih hrest fun style children h => hchildren style children (List.mem_cons_of_mem _ h)
    rw [List.flatMap_cons, List.map_append]
    cases i with
    | text t =>
      have hne := (Inline.isNormal_text_iff.1 hi).1
      have hchars : (Inline.text t).tokens.map (InlineToken.toInline parseInlines) =
          t.map fun c => .text [c] := by
        simp [Inline.tokens, InlineToken.toInline]
      rw [hchars, merge_chars_append hne (by rw [ih]; exact hmeet rfl), ih]
    | strong children =>
      have hback := hchildren .strong children (List.mem_cons_self ..)
      simp [Inline.tokens, InlineToken.toInline, Style.inline, Inline.merge, ih, hback]
    | emphasis children =>
      have hback := hchildren .emphasis children (List.mem_cons_self ..)
      simp [Inline.tokens, InlineToken.toInline, Style.inline, Inline.merge, ih, hback]
    | math | link | lineBreak =>
      simp [Inline.tokens, InlineToken.toInline, Inline.merge, ih]

theorem areNormal_children {is children : List Inline} {style : Style} (hn : areNormal is = true)
    (h : style.inline children ∈ is) : areNormal children = true := by
  have := isNormal_of_mem hn h
  cases style <;> simpa only [Style.inline, Inline.isNormal] using this

/-- **Reading written inlines gives them back.** -/
theorem parseInlines_writeInlines (is : List Inline) (hn : areNormal is = true) :
    parseInlines (writeInlines is) = is := by
  rw [parseInlines_eq, inlineTokens_writeInlines hn]
  refine merge_tokens hn fun style children hmem => ?_
  have hlt : sizeOf children < sizeOf is := by
    have := List.sizeOf_lt_of_mem hmem
    cases style <;> simp [Style.inline] at this <;> omega
  exact parseInlines_writeInlines children (areNormal_children hn hmem)
termination_by sizeOf is

/-! ### Text without markup -/

/-- **Text without markup** is shown as it is. -/
theorem parseInlines_plain {t : Text} (hne : t ≠ []) (ht : ∀ c ∈ t, c ∉ ['\\', '$', '~']) :
    parseInlines t = [.text t] := by
  have htokens : inlineTokens t = t.map fun c => .text [c] := by
    clear hne
    induction t with
    | nil => simp [inlineTokens]
    | cons c t ih =>
      obtain ⟨hc, ht⟩ := List.forall_mem_cons.1 ht
      rw [inlineTokens_cons, InlineToken.read_char hc, ih ht, List.map_cons]
  have hchars := @merge_chars_append t hne [] rfl
  rw [List.append_nil] at hchars
  rw [parseInlines_eq, htokens, List.map_map]
  exact hchars

end CribSheet
