/-
Cutting a sheet into pieces.

A piece is what one look at the text recognizes: prose, the end of a paragraph, a heading, a formula on
lines of its own, or a balanced environment whose content is still to be read.  Prose is changed on
the way where it must be: comments vanish, and list markers without a list become line breaks and
bullets.  Anything that is not recognized is prose as it is written.

Main definitions:

* `CribSheet.Piece`, `CribSheet.Reading`, `CribSheet.Reading.read` — one look at the text;
* `CribSheet.pieces` — the pieces of a text.

Main results:

* `CribSheet.Reading.text_read` — a look splits the text and loses nothing;
* `CribSheet.length_content_of_mem_pieces` — the content of an environment is shorter than the text.
-/
import CribSheet.Markup.Environment
import CribSheet.Text.Cut

set_option relaxedAutoImplicit false
set_option autoImplicit false

namespace CribSheet

open CribSheet.Markup

/-! ### Pieces -/

/-- A piece of a sheet. -/
inductive Piece
  /-- Characters of the current paragraph. -/
  | prose (t : Text)
  /-- The end of the current paragraph. -/
  | gap
  /-- A heading. -/
  | heading (content : Text)
  /-- A formula on lines of its own. -/
  | math (body : Text)
  /-- An environment. -/
  | environment (name content : Text)
deriving Repr, DecidableEq

/-- One look at a text: what was read, what it is, and what is left. -/
structure Reading where
  /-- What was read. -/
  source : Text
  /-- What it is. -/
  piece : Piece
  /-- What is left. -/
  rest : Text
deriving Repr, DecidableEq

/-- Environments that are shown as lists. -/
def itemizeName : Text := ['i', 't', 'e', 'm', 'i', 'z', 'e']

/-- Environments that are shown as ordered lists. -/
def enumerateName : Text := ['e', 'n', 'u', 'm', 'e', 'r', 'a', 't', 'e']

/-- The name of the command that starts an item. -/
def itemName : Text := ['i', 't', 'e', 'm']

/-- The environment is a list. -/
def isListName (name : Text) : Bool := name == itemizeName || name == enumerateName

/-- The command starts a section. -/
def isSectionName (name : Text) : Bool :=
  name == "section".toList || name == "subsection".toList || name == "subsubsection".toList

/-- The optional label of an item and what follows it. -/
def itemLabel (t : Text) : Text × Text :=
  match Group.readBracket? (argumentSpace t).2 with
  | some g => ((argumentSpace t).1 ++ g.source, g.after)
  | none => ([], t)

theorem itemLabel_append (t : Text) : (itemLabel t).1 ++ (itemLabel t).2 = t := by
  unfold itemLabel
  split
  · next g hg =>
    conv => rhs; rw [← argumentSpace_append t, ← Group.text_read? (Option.filter_eq_some_iff.1 hg).1]
    simp [Group.text]
  · rfl

/-- A star at the start of a text, and what follows it. -/
def star (t : Text) : Text × Text :=
  match t with
  | '*' :: rest => (['*'], rest)
  | t => ([], t)

theorem star_append (t : Text) : (star t).1 ++ (star t).2 = t := by
  unfold star
  split <;> rfl

/-- The short form of a heading, if there is one, and what follows it.  An opening bracket without a
closing one makes no heading. -/
def shortForm? (t : Text) : Option (Text × Text) :=
  if (argumentSpace t).2.head? = some '[' then
    (Group.read? (argumentSpace t).2).map fun g => ((argumentSpace t).1 ++ g.source, g.after)
  else some ([], t)

theorem shortForm?_eq_append {t short rest : Text} (h : shortForm? t = some (short, rest)) :
    short ++ rest = t := by
  unfold shortForm? at h
  split at h
  · obtain ⟨g, hg, he⟩ := Option.map_eq_some_iff.1 h
    obtain ⟨rfl, rfl⟩ := Prod.mk.inj he
    conv => rhs; rw [← argumentSpace_append t, ← Group.text_read? hg]
    simp [Group.text]
  · obtain ⟨rfl, rfl⟩ := Prod.mk.inj (Option.some.inj h)
    rfl

/-- The blank lines at the start of a text, of which the first ends a line; blanks that start the next
line stay, unless nothing but blanks is left. -/
def blankLines (t : Text) : Text × Text :=
  match Text.lastLine (t.takeWhile isBlank) with
  | ([], blanks) => (blanks, t.dropWhile isBlank)
  | (ended, blanks) => (ended, blanks ++ t.dropWhile isBlank)

theorem blankLines_append (t : Text) : (blankLines t).1 ++ (blankLines t).2 = t := by
  have h := Text.lastLine_append (t.takeWhile isBlank)
  have h' : t.takeWhile isBlank ++ t.dropWhile isBlank = t := List.takeWhile_append_dropWhile
  unfold blankLines
  split
  · next blanks hb =>
    rw [hb] at h
    conv => rhs; rw [← h', ← h]
    simp
  · next ended blanks _ hb =>
    rw [hb] at h
    conv => rhs; rw [← h', ← h]
    simp

namespace Reading

/-! ### Control words -/

/-- The control word with this name, kept as it is written. -/
def ofName (name rest : Text) : Reading := ⟨'\\' :: name, .prose ('\\' :: name), rest⟩

/-- A section command, from what follows its name: a star, a short form, and the heading. -/
def ofSection (name rest : Text) : Reading :=
  match shortForm? (star rest).2 with
  | none => ofName name rest
  | some (short, rest') =>
    match Argument.read? rest' with
    | some a => ⟨'\\' :: name ++ (star rest).1 ++ short ++ a.source, .heading a.inner, a.after⟩
    | none => ofName name rest

/-- An opening marker, from what follows its name: the environment, when it is balanced. -/
def ofBegin (rest : Text) : Reading :=
  match Argument.read? rest with
  | none => ofName beginName rest
  | some a =>
    let marker := '\\' :: beginName ++ a.source
    match Closing.find? a.inner.trim 0 false a.after with
    | some c => ⟨marker ++ c.content ++ c.source, .environment a.inner.trim c.content, c.after⟩
    | none => ⟨marker, .prose (if isListName a.inner.trim then ['\n'] else marker), a.after⟩

/-- A closing marker, from what follows its name: that of a list becomes a line break. -/
def ofEnd (rest : Text) : Reading :=
  match Argument.read? rest with
  | some a =>
    if isListName a.inner.trim then ⟨'\\' :: endName ++ a.source, .prose ['\n'], a.after⟩
    else ofName endName rest
  | none => ofName endName rest

/-- An item without a list, from what follows its name: a line break and a bullet. -/
def ofItem (rest : Text) : Reading :=
  let (label, rest) := itemLabel rest
  ⟨'\\' :: itemName ++ label ++ rest.takeWhile isGap, .prose ['\n', '•', ' '], rest.dropWhile isGap⟩

/-- An address, from what follows the name of its command; a percent sign in it starts no comment. -/
def ofUrl (name rest : Text) : Reading :=
  match Argument.read? rest with
  | some a => ⟨'\\' :: name ++ a.source, .prose ('\\' :: name ++ a.source), a.after⟩
  | none => ofName name rest

/-- A control word, from its name and what follows. -/
def ofWord (name rest : Text) : Reading :=
  if name = beginName then ofBegin rest
  else if name = endName then ofEnd rest
  else if isSectionName name then ofSection name rest
  else if name = itemName then ofItem rest
  else if name = ['u', 'r', 'l'] then ofUrl name rest
  else ofName name rest

/-! ### Formulas, comments and line breaks -/

/-- A formula from its opening delimiter to its closing one: a piece of its own, or, inline, prose as it
is written.  Without a closing delimiter only the opening one is read. -/
def ofFormula (display : Bool) (opening closing t : Text) : Reading :=
  match findUnescaped? closing t with
  | some (body, rest) =>
    let source := opening ++ body ++ closing
    ⟨source, if display then .math body else .prose source, rest⟩
  | none => ⟨opening, .prose opening, t⟩

/-- A comment, from what follows the percent sign: it reaches to the end of its line, and takes the line
break with it when the line is blank before it. -/
def ofComment (blank : Bool) (t : Text) : Reading :=
  match t.firstLine with
  | (line, newline :: rest) =>
    if blank then ⟨'%' :: line ++ [newline], .prose [], rest⟩
    else ⟨'%' :: line, .prose [], newline :: rest⟩
  | (line, []) => ⟨'%' :: line, .prose [], []⟩

/-- A line break, from what follows it: the end of the paragraph when the next line is blank. -/
def ofBreak (t : Text) : Reading :=
  if t.firstLine.1.isBlankText then ⟨'\n' :: (blankLines t).1, .gap, (blankLines t).2⟩
  else ⟨['\n'], .prose ['\n'], t⟩

/-- **One look** at the text `c :: t`; `blank` says whether the line is blank up to it. -/
def read (blank : Bool) (c : Char) (t : Text) : Reading :=
  if c = '\\' then
    match t with
    | [] => ⟨[c], .prose [c], []⟩
    | d :: t' =>
      if Text.isLetter d then
        ofWord ((d :: t').takeWhile Text.isLetter) ((d :: t').dropWhile Text.isLetter)
      else if d = '[' then ofFormula true [c, d] ['\\', ']'] t'
      else if d = '(' then ofFormula false [c, d] ['\\', ')'] t'
      else ⟨[c, d], .prose [c, d], t'⟩
  else if c = '$' then
    match t with
    | '$' :: t' => ofFormula true [c, '$'] ['$', '$'] t'
    | t => ofFormula false [c] ['$'] t
  else if c = '%' then ofComment blank t
  else if c = '\n' then ofBreak t
  else ⟨[c], .prose [c], t⟩

/-! ### Nothing is lost -/

/-- The text that was looked at. -/
def text (r : Reading) : Text := r.source ++ r.rest

theorem text_ofName (name rest : Text) : (ofName name rest).text = '\\' :: name ++ rest := rfl

theorem text_ofSection (name rest : Text) : (ofSection name rest).text = '\\' :: name ++ rest := by
  unfold ofSection
  split
  · rfl
  · next short rest' hs =>
    split
    · next a ha =>
      conv => rhs; rw [← star_append rest, ← shortForm?_eq_append hs, ← Argument.text_read? ha]
      simp [text, Argument.text]
    · rfl

theorem text_ofBegin (rest : Text) : (ofBegin rest).text = '\\' :: beginName ++ rest := by
  unfold ofBegin
  split
  · rfl
  · next a ha =>
    have ha := Argument.text_read? ha
    simp only
    split
    · next c hc =>
      conv => rhs; rw [← ha, Argument.text, ← Closing.text_find? hc]
      simp [text, Closing.text]
    · conv => rhs; rw [← ha]
      simp [text, Argument.text]

theorem text_ofEnd (rest : Text) : (ofEnd rest).text = '\\' :: endName ++ rest := by
  unfold ofEnd
  split
  · next a ha =>
    split
    · conv => rhs; rw [← Argument.text_read? ha]
      simp [text, Argument.text]
    · rfl
  · rfl

theorem text_ofItem (rest : Text) : (ofItem rest).text = '\\' :: itemName ++ rest := by
  conv => rhs; rw [← itemLabel_append rest]
  simp [ofItem, text, List.takeWhile_append_dropWhile]

theorem text_ofUrl (name rest : Text) : (ofUrl name rest).text = '\\' :: name ++ rest := by
  unfold ofUrl
  split
  · next a ha =>
    conv => rhs; rw [← Argument.text_read? ha]
    simp [text, Argument.text]
  · rfl

theorem text_ofWord (name rest : Text) : (ofWord name rest).text = '\\' :: name ++ rest := by
  unfold ofWord
  split
  · next h => rw [h, text_ofBegin]
  · split
    · next h => rw [h, text_ofEnd]
    · split
      · exact text_ofSection name rest
      · split
        · next h => rw [h, text_ofItem]
        · split
          · exact text_ofUrl name rest
          · exact text_ofName name rest

theorem text_ofFormula (display : Bool) (opening closing t : Text) :
    (ofFormula display opening closing t).text = opening ++ t := by
  unfold ofFormula
  split
  · next h =>
    conv => rhs; rw [findUnescaped?_eq_append t h]
    simp [text]
  · rfl

theorem text_ofComment (blank : Bool) (t : Text) : (ofComment blank t).text = '%' :: t := by
  have h := t.firstLine_append
  unfold ofComment
  split
  · next line newline rest heq =>
    rw [heq] at h
    split <;> simp [text, ← h]
  · next line heq =>
    rw [heq] at h
    simp [text, ← h]

theorem text_ofBreak (t : Text) : (ofBreak t).text = '\n' :: t := by
  unfold ofBreak
  split
  · simp [text, blankLines_append]
  · rfl

/-- **A look loses nothing.** -/
theorem text_read (blank : Bool) (c : Char) (t : Text) : (read blank c t).text = c :: t := by
  unfold read
  split
  · next hc =>
    split
    · rfl
    · next d t' =>
      split
      · rw [text_ofWord, hc, List.cons_append, List.takeWhile_append_dropWhile]
      · split
        · rw [text_ofFormula]
          rfl
        · split
          · rw [text_ofFormula]
            rfl
          · rfl
  · split
    · split
      · rw [text_ofFormula]
        rfl
      · rw [text_ofFormula]
        rfl
    · split
      · next hc => rw [text_ofComment, hc]
      · split
        · next hc => rw [text_ofBreak, hc]
        · rfl

/-! ### Lengths -/

theorem source_ofFormula_ne_nil (display : Bool) (c : Char) (opening closing t : Text) :
    (ofFormula display (c :: opening) closing t).source ≠ [] := by
  unfold ofFormula
  split <;> simp

theorem source_ofWord_ne_nil (name rest : Text) : (ofWord name rest).source ≠ [] := by
  unfold ofWord ofBegin ofEnd ofSection ofItem ofUrl
  simp only
  repeat' split
  all_goals simp [ofName]

/-- A look reads at least one character. -/
theorem source_read_ne_nil (blank : Bool) (c : Char) (t : Text) : (read blank c t).source ≠ [] := by
  unfold read
  split
  · split
    · simp
    · split
      · exact source_ofWord_ne_nil _ _
      · split
        · exact source_ofFormula_ne_nil _ _ _ _ _
        · split
          · exact source_ofFormula_ne_nil _ _ _ _ _
          · simp
  · split
    · split
      · exact source_ofFormula_ne_nil _ _ _ _ _
      · exact source_ofFormula_ne_nil _ _ _ _ _
    · split
      · unfold ofComment
        split
        · split <;> simp
        · simp
      · split
        · unfold ofBreak
          split <;> simp
        · simp

theorem length_rest_read_le (blank : Bool) (c : Char) (t : Text) :
    (read blank c t).rest.length ≤ t.length := by
  have h := congrArg List.length (text_read blank c t)
  have h' := List.length_pos_iff.2 (source_read_ne_nil blank c t)
  simp only [text, List.length_append, List.length_cons] at h
  omega

theorem piece_ofFormula_ne_environment (display : Bool) (opening closing t name content : Text) :
    (ofFormula display opening closing t).piece ≠ .environment name content := by
  unfold ofFormula
  split
  · simp only
    split <;> simp
  · simp

theorem length_content_of_ofBegin {rest name content : Text}
    (h : (ofBegin rest).piece = .environment name content) : content.length ≤ rest.length := by
  unfold ofBegin at h
  split at h
  · simp [ofName] at h
  · next a ha =>
    simp only at h
    split at h
    · next closing hc =>
      obtain ⟨-, rfl⟩ := Piece.environment.inj h
      have h₁ := Argument.length_inner_add_after_read? ha
      have h₂ := congrArg List.length (Closing.text_find? hc)
      simp only [Closing.text, List.length_append] at h₂
      omega
    · simp at h

/-- Of the words, only one that opens an environment is read as an environment. -/
theorem length_content_of_ofWord {word rest name content : Text}
    (h : (ofWord word rest).piece = .environment name content) : content.length ≤ rest.length := by
  unfold ofWord at h
  split at h
  · exact length_content_of_ofBegin h
  · exfalso
    revert h
    unfold ofEnd ofSection ofItem ofUrl
    simp only
    repeat' split
    all_goals simp [ofName]

/-- The content of an environment is shorter than the text it was read from. -/
theorem length_content_of_read {blank : Bool} {c : Char} {t name content : Text}
    (h : (read blank c t).piece = .environment name content) : content.length ≤ t.length := by
  unfold read at h
  split at h
  · split at h
    · simp at h
    · next d t' =>
      split at h
      · exact Nat.le_trans (length_content_of_ofWord h) (List.dropWhile_suffix _).length_le
      · split at h
        · exact absurd h (piece_ofFormula_ne_environment _ _ _ _ _ _)
        · split at h
          · exact absurd h (piece_ofFormula_ne_environment _ _ _ _ _ _)
          · simp at h
  · split at h
    · split at h
      · exact absurd h (piece_ofFormula_ne_environment _ _ _ _ _ _)
      · exact absurd h (piece_ofFormula_ne_environment _ _ _ _ _ _)
    · exfalso
      revert h
      unfold ofComment ofBreak
      repeat' split
      all_goals simp

end Reading

/-! ### All pieces -/

/-- A piece in front of others; prose joins prose. -/
def Piece.cons : Piece → List Piece → List Piece
  | .prose t, .prose u :: ps => .prose (t ++ u) :: ps
  | p, ps => p :: ps

/-- **The pieces of a text.**  `blank` says whether the line is blank up to it. -/
def pieces (blank : Bool) (t : Text) : List Piece :=
  match t with
  | [] => []
  | c :: t =>
    have := Reading.length_rest_read_le blank c t
    (Reading.read blank c t).piece.cons
      (pieces (Text.blankLineAfter blank (Reading.read blank c t).source) (Reading.read blank c t).rest)
termination_by t.length

theorem mem_of_environment_mem_cons {p : Piece} {ps : List Piece} {name content : Text}
    (h : .environment name content ∈ p.cons ps) :
    p = .environment name content ∨ .environment name content ∈ ps := by
  unfold Piece.cons at h
  split at h
  · next t u ps =>
    rcases List.mem_cons.1 h with h | h
    · simp at h
    · exact .inr (List.mem_cons_of_mem _ h)
  · rcases List.mem_cons.1 h with h | h
    · exact .inl h.symm
    · exact .inr h

/-- **The content of an environment is shorter than the text.** -/
theorem length_content_of_mem_pieces {blank : Bool} {t name content : Text}
    (h : .environment name content ∈ pieces blank t) : content.length < t.length := by
  fun_induction pieces blank t with
  | case1 => simp at h
  | case2 blank c t hle ih =>
    rcases mem_of_environment_mem_cons h with h | h
    · have := Reading.length_content_of_read h
      simp only [List.length_cons]
      omega
    · have := ih h
      simp only [List.length_cons]
      omega

end CribSheet
