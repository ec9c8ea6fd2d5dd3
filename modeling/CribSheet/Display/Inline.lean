/-
Reading running text.

The text is cut into tokens first: characters, finished inlines, and styled arguments whose content is
still to be read.  Formulas are taken as they are written; a handful of commands is dropped; everything
that is not recognized stays as it is.  The content of a styled argument is read in the same way.

Main definitions:

* `CribSheet.InlineToken`, `CribSheet.InlineToken.read`, `CribSheet.inlineTokens` — tokens;
* `CribSheet.parseInlines` — the inlines of a text.

Main results:

* `CribSheet.parseInlines_eq` — the recursion that `parseInlines` stands for.
-/
import CribSheet.Display.Tree
import CribSheet.Markup.Group

set_option relaxedAutoImplicit false
set_option autoImplicit false

namespace CribSheet

open CribSheet.Markup

/-! ### Tokens -/

/-- How the argument of a style command is set. -/
inductive Style
  | strong
  | emphasis
deriving Repr, DecidableEq

/-- The inline with a style. -/
def Style.inline : Style → List Inline → Inline
  | .strong => .strong
  | .emphasis => .emphasis

/-- A piece of running text before its styled arguments are read. -/
inductive InlineToken
  /-- Characters. -/
  | text (t : Text)
  /-- A finished inline. -/
  | inline (i : Inline)
  /-- A styled argument. -/
  | styled (style : Style) (content : Text)
deriving Repr

/-- Commands that are dropped together with their arguments. -/
def droppedWithArguments : List Text :=
  ["title".toList, "author".toList, "date".toList, "vspace".toList, "hspace".toList,
   "tcbset".toList, "setlength".toList, "label".toList]

/-- Commands that are dropped, with the space behind them. -/
def droppedAlone : List Text :=
  ["maketitle".toList, "noindent".toList, "scriptsize".toList, "footnotesize".toList,
   "small".toList, "large".toList, "Large".toList, "centering".toList, "smallskip".toList,
   "medskip".toList, "bigskip".toList, "newpage".toList, "clearpage".toList, "hfill".toList,
   "par".toList]

/-- The style that a command sets. -/
def style? (name : Text) : Option Style :=
  if name = "textbf".toList then some .strong
  else if name = "emph".toList ∨ name = "textit".toList then some .emphasis
  else none

/-- The characters that a command stands for. -/
def replacement? (name : Text) : Option Text :=
  if name = "ldots".toList ∨ name = "dots".toList then some ['…']
  else if name = "LaTeX".toList then some "LaTeX".toList
  else none

/-- The name of the command for an address. -/
def urlName : Text := ['u', 'r', 'l']

/-- The text without a star at its start. -/
def dropStar (t : Text) : Text :=
  match t with
  | '*' :: rest => rest
  | t => t

/-- The text without an empty group at its start. -/
def dropEmptyGroup (t : Text) : Text :=
  match t with
  | '{' :: '}' :: rest => rest
  | t => t

/-- The text without the star and the length that may follow a line break. -/
def dropBreakArguments (t : Text) : Text :=
  match Group.readBracket? (dropStar t) with
  | some g => g.after
  | none => dropStar t

namespace InlineToken

/-- The token for a control word, from what follows its name, and what is left then. -/
def ofWord (name rest : Text) : InlineToken × Text :=
  match style? name with
  | some style =>
    match Argument.read? rest with
    | some a => (.styled style a.inner, a.after)
    | none => (.text ('\\' :: name), rest)
  | none =>
    if name = urlName then
      match Argument.read? rest with
      | some a => (.inline (.link a.inner.trim), a.after)
      | none => (.text ('\\' :: name), rest)
    else
      match replacement? name with
      | some t => (.text t, dropEmptyGroup rest)
      | none =>
        if name ∈ droppedWithArguments then (.text [], (groups (dropStar rest)).2)
        else if name ∈ droppedAlone then (.text [], rest.dropWhile isGap)
        else (.text ('\\' :: name), rest)

/-- The token at the start of `c :: t`, and what is left then. -/
def read (c : Char) (t : Text) : InlineToken × Text :=
  if c = '\\' then
    match t with
    | [] => (.text [c], [])
    | d :: t' =>
      if Text.isLetter d then
        ofWord ((d :: t').takeWhile Text.isLetter) ((d :: t').dropWhile Text.isLetter)
      else if d = '\\' then (.inline .lineBreak, dropBreakArguments t')
      else if d = '(' then
        match findUnescaped? ['\\', ')'] t' with
        | some (inner, rest) => (.inline (.math inner), rest)
        | none => (.text [c, d], t')
      else if d = '%' ∨ d = '&' then (.text [d], t')
      else (.text [c, d], t')
  else if c = '$' then
    match t with
    | '$' :: t' => (.text ['$', '$'], t')
    | t =>
      match findUnescaped? ['$'] t with
      | some (inner, rest) => (.inline (.math inner), rest)
      | none => (.text [c], t)
  else if c = '~' then (.text [' '], t)
  else (.text [c], t)

/-! ### Lengths -/

theorem length_dropStar_le (t : Text) : (dropStar t).length ≤ t.length := by
  unfold dropStar
  split <;> simp

theorem length_dropEmptyGroup_le (t : Text) : (dropEmptyGroup t).length ≤ t.length := by
  unfold dropEmptyGroup
  split
  · simp only [List.length_cons]
    omega
  · exact Nat.le_refl _

theorem length_dropBreakArguments_le (t : Text) : (dropBreakArguments t).length ≤ t.length := by
  have h := length_dropStar_le t
  unfold dropBreakArguments
  split
  · next g hg =>
    have := Group.length_after_read? (Option.filter_eq_some_iff.1 hg).1
    omega
  · exact h

theorem length_groups_le (t : Text) : (groups t).2.length ≤ t.length := by
  have h := congrArg List.length (groups_append t)
  rw [List.length_append] at h
  omega

theorem length_findUnescaped?_le {delimiter t inner rest : Text}
    (h : findUnescaped? delimiter t = some (inner, rest)) : rest.length ≤ t.length := by
  rw [findUnescaped?_eq_append t h]
  simp only [List.length_append]
  omega

theorem length_ofWord_le (name rest : Text) : (ofWord name rest).2.length ≤ rest.length := by
  unfold ofWord
  split
  · split
    · next a ha =>
      have := Argument.length_inner_add_after_read? ha
      simp only
      omega
    · exact Nat.le_refl _
  · split
    · split
      · next a ha =>
        have := Argument.length_inner_add_after_read? ha
        simp only
        omega
      · exact Nat.le_refl _
    · split
      · exact length_dropEmptyGroup_le rest
      · split
        · exact Nat.le_trans (length_groups_le _) (length_dropStar_le rest)
        · split
          · exact (List.dropWhile_suffix _).length_le
          · exact Nat.le_refl _

/-- A token takes at least the first character. -/
theorem length_read_le (c : Char) (t : Text) : (read c t).2.length ≤ t.length := by
  unfold read
  split
  · split
    · simp
    · next d t' =>
      split
      · exact Nat.le_trans (length_ofWord_le _ _) (List.dropWhile_suffix _).length_le
      · split
        · have := length_dropBreakArguments_le t'
          simp only [List.length_cons]
          omega
        · split
          · split
            · next h =>
              have := length_findUnescaped?_le h
              simp only [List.length_cons]
              omega
            · simp
          · split <;> simp
  · split
    · split
      · simp
      · split
        · next h => exact length_findUnescaped?_le h
        · exact Nat.le_refl _
    · split <;> simp

/-- The content of a styled token is shorter than the text it was read from. -/
theorem length_content_of_read {c : Char} {t content : Text} {style : Style}
    (h : (read c t).1 = .styled style content) : content.length < t.length := by
  unfold read at h
  split at h
  · split at h
    · simp at h
    · next d t' =>
      split at h
      · unfold ofWord at h
        split at h
        · split at h
          · next a ha =>
            have := Argument.length_inner_add_after_read? ha
            have := (List.dropWhile_suffix (l := d :: t') Text.isLetter).length_le
            obtain ⟨rfl, rfl⟩ := InlineToken.styled.inj h
            omega
          · simp at h
        · split at h
          · split at h <;> simp at h
          · split at h
            · simp at h
            · split at h
              · simp at h
              · split at h <;> simp at h
      · split at h
        · simp at h
        · split at h
          · split at h <;> simp at h
          · split at h <;> simp at h
  · split at h
    · split at h
      · simp at h
      · split at h <;> simp at h
    · split at h <;> simp at h

end InlineToken

/-- The tokens of a text. -/
def inlineTokens (t : Text) : List InlineToken :=
  match t with
  | [] => []
  | c :: t =>
    have := InlineToken.length_read_le c t
    (InlineToken.read c t).1 :: inlineTokens (InlineToken.read c t).2
termination_by t.length

theorem length_content_of_mem {t content : Text} {style : Style}
    (h : .styled style content ∈ inlineTokens t) : content.length < t.length := by
  fun_induction inlineTokens t with
  | case1 => simp at h
  | case2 c t hle ih =>
    rcases List.mem_cons.1 h with h | h
    · have := InlineToken.length_content_of_read h.symm
      simp only [List.length_cons]
      omega
    · have := ih h
      simp only [List.length_cons]
      omega

/-! ### Inlines -/

/-- The inline that a token stands for, with `parse` for what is still to be read. -/
def InlineToken.toInline (parse : Text → List Inline) : InlineToken → Inline
  | .text t => .text t
  | .inline i => i
  | .styled style content => style.inline (parse content)

/-- **The inlines of a text.**  The content of a styled token is always shorter than the text; the test
says so where the recursion needs it. -/
def parseInlines (t : Text) : List Inline :=
  Inline.merge ((inlineTokens t).map (InlineToken.toInline fun content =>
    if content.length < t.length then parseInlines content else []))
termination_by t.length

/-- Inlines are the merged tokens, with styled content read in the same way. -/
theorem parseInlines_eq (t : Text) :
    parseInlines t = Inline.merge ((inlineTokens t).map (InlineToken.toInline parseInlines)) := by
  rw [parseInlines]
  congr 1
  refine List.map_congr_left fun token h => ?_
  cases token with
  | text t => rfl
  | inline i => rfl
  | styled style content => simp [InlineToken.toInline, length_content_of_mem h]

end CribSheet
