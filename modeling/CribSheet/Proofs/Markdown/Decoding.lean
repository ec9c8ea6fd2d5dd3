/-
Prose survives its escapes.

Markdown takes a backslash off a punctuation mark, and reads a number between `&#` and `;` as the character
with that number.  What is written for a character of prose is read as this character, whatever stands behind
it: nothing that is written starts with a number sign, so that an ampersand opens no reference by accident.
So the text of a paragraph gives its lines back, each trimmed where it meets a line break of the source.

Main definitions:

* `CribSheet.Markdown.decode` — what a text with escapes and references is read as;
* `CribSheet.Markdown.Encodes` — a text that is read as another one wherever it stands;
* `CribSheet.Markdown.proseLines` — the lines of a text as a paragraph shows them;
* `CribSheet.Markdown.Holds` — the lines that are written.

Main results:

* `CribSheet.Markdown.spells_proseChar`, `CribSheet.Markdown.spells_proseChars` — prose is read as it was;
* `CribSheet.Markdown.decode_render_paragraph` — a paragraph is read as its lines.
-/
import CribSheet.Proofs.Markdown.Heading
import CribSheet.Text.Number

set_option relaxedAutoImplicit false
set_option autoImplicit false

namespace CribSheet.Markdown

open Writer Opening

/-! ### Decoding -/

/-- The character is an ASCII punctuation mark. -/
def isPunctuation (c : Char) : Bool :=
  let n := c.toNat
  (33 ≤ n && n ≤ 47) || (58 ≤ n && n ≤ 64) || (91 ≤ n && n ≤ 96) || (123 ≤ n && n ≤ 126)

/-- The character of a reference, from what follows `&#`: a number and a semicolon. -/
def referenced? (t : Text) : Option (Char × Text) :=
  match t.dropWhile Text.isDigit with
  | ';' :: rest => (Text.natural? (t.takeWhile Text.isDigit)).map fun n => (Char.ofNat n, rest)
  | _ => none

/-- The first character that `c :: t` is read as, and what is left then. -/
def decodeChar (c : Char) (t : Text) : Char × Text :=
  if c = '\\' then
    match t with
    | d :: rest => if isPunctuation d then (d, rest) else (c, t)
    | [] => (c, t)
  else if c = '&' then
    match t with
    | '#' :: rest => (referenced? rest).getD (c, t)
    | _ => (c, t)
  else (c, t)

theorem length_referenced?_le {t rest : Text} {c : Char} (h : referenced? t = some (c, rest)) :
    rest.length ≤ t.length := by
  have hdrop := (List.dropWhile_suffix (l := t) Text.isDigit).length_le
  unfold referenced? at h
  split at h
  · next rest' heq =>
    obtain ⟨n, -, he⟩ := Option.map_eq_some_iff.1 h
    obtain ⟨-, rfl⟩ := Prod.mk.inj he
    rw [heq, List.length_cons] at hdrop
    omega
  · simp at h

theorem length_decodeChar_le (c : Char) (t : Text) : (decodeChar c t).2.length ≤ t.length := by
  unfold decodeChar
  split
  · split
    · split <;> simp
    · simp
  · split
    · split
      · next rest =>
        cases href : referenced? rest with
        | none => simp
        | some p =>
          have := length_referenced?_le href
          simp only [Option.getD_some, List.length_cons]
          omega
      · simp
    · simp

/-- **What a text is read as**, in one pass from left to right: a backslash is taken off a punctuation mark,
and a reference stands for its character. -/
def decode (t : Text) : Text :=
  match t with
  | [] => []
  | c :: t =>
    have := length_decodeChar_le c t
    (decodeChar c t).1 :: decode (decodeChar c t).2
termination_by t.length

theorem decode_cons (c : Char) (t : Text) : decode (c :: t) = (decodeChar c t).1 :: decode (decodeChar c t).2 := by
  rw [decode]

/-! ### Encoded text -/

/-- **`x` is read as `t` wherever it stands**, unless a number sign follows; it starts with none itself. -/
structure Encodes (x t : Text) : Prop where
  /-- It starts with no number sign. -/
  head : x.head? ≠ some '#'
  /-- What it is read as. -/
  decodes : ∀ rest : Text, rest.head? ≠ some '#' → decode (x ++ rest) = t ++ decode rest

namespace Encodes

variable {x y t u : Text} {c : Char}

theorem nil : Encodes [] [] := ⟨by simp, fun _ _ => rfl⟩

theorem append (h : Encodes x t) (h' : Encodes y u) : Encodes (x ++ y) (t ++ u) where
  head := by
    cases x with
    | nil => exact h'.head
    | cons c x => exact h.head
  decodes rest hrest := by
    have hy : (y ++ rest).head? ≠ some '#' := by
      cases y with
      | nil => exact hrest
      | cons c y => exact h'.head
    rw [List.append_assoc, h.decodes _ hy, h'.decodes _ hrest, List.append_assoc]

/-- Something is written for every text that is not empty. -/
theorem ne_nil (h : Encodes x t) (ht : t ≠ []) : x ≠ [] := by
  rintro rfl
  have := h.decodes [] (by simp)
  rw [List.nil_append, List.self_eq_append_left] at this
  exact ht this

theorem decode_eq (h : Encodes x t) : decode x = t := by
  have := h.decodes [] (by simp)
  rwa [decode, List.append_nil, List.append_nil] at this

/-- A character that means nothing is read as itself. -/
theorem char (hslash : c ≠ '\\') (hsharp : c ≠ '#') : Encodes [c] [c] where
  head := by simpa using hsharp
  decodes rest hrest := by
    have hread : decodeChar c rest = (c, rest) := by
      unfold decodeChar
      rw [if_neg hslash]
      split
      · split
        · exact absurd rfl hrest
        · rfl
      · rfl
    rw [List.singleton_append, decode_cons, hread]
    rfl

/-- A backslash is taken off a punctuation mark. -/
theorem escape (hc : isPunctuation c = true) : Encodes ['\\', c] [c] where
  head := by simp
  decodes rest _ := by
    have hread : decodeChar '\\' (c :: rest) = (c, rest) := by
      rw [decodeChar, if_pos rfl]
      exact if_pos hc
    rw [List.cons_append, List.singleton_append, decode_cons, hread]
    rfl

/-- **A reference is read as the control character** that it stands for. -/
theorem reference (hc : c.toNat < 32) : Encodes (reference c) [c] where
  head := by simp [Writer.reference]
  decodes rest _ := by
    -- Only control characters are written as references, and those are few enough to be looked at one by one.
    have hdigits : ∀ k : Fin 32, (∀ d ∈ (toString k.val).toList, Text.isDigit d = true) ∧
        Text.natural? (toString k.val).toList = some k.val := by decide +kernel
    obtain ⟨hdigit, hvalue⟩ := hdigits ⟨c.toNat, hc⟩
    have href : referenced? ((toString c.toNat).toList ++ ';' :: rest) = some (c, rest) := by
      have hend : Text.isDigit ';' = false := by decide
      rw [referenced?, List.takeWhile_append_of_pos hdigit, List.dropWhile_append_of_pos hdigit]
      simp only [List.takeWhile_cons, List.dropWhile_cons, hend, Bool.false_eq_true, if_false, List.append_nil,
        hvalue, Option.map_some, Char.ofNat_toNat]
    have hread : decodeChar '&' ('#' :: ((toString c.toNat).toList ++ ';' :: rest)) = (c, rest) := by
      rw [decodeChar, if_neg (by decide), if_pos rfl]
      simp only [href, Option.getD_some]
    have htext : Writer.reference c ++ rest = '&' :: '#' :: ((toString c.toNat).toList ++ ';' :: rest) := by
      simp [Writer.reference]
    rw [htext, decode_cons, hread]
    rfl

end Encodes

/-! ### Prose -/

/-- **Writing from `w` to `w'`** adds a text that is read as `t`. -/
def Spells (t : Text) (w w' : Writer) : Prop := ∃ x, Encodes x t ∧ w'.text = w.text ++ x

theorem Spells.trans {t u : Text} {w w' w'' : Writer} (h : Spells t w w') (h' : Spells u w' w'') :
    Spells (t ++ u) w w'' := by
  obtain ⟨x, hx, htext⟩ := h
  obtain ⟨y, hy, htext'⟩ := h'
  exact ⟨x ++ y, hx.append hy, by rw [htext', htext, List.append_assoc]⟩

/-- What is escaped with a backslash is a punctuation mark. -/
theorem isPunctuation_of_escapesProse {w : Writer} {c next : Char} (h : w.escapesProse c next = true)
    (hcontrol : ¬ c.toNat < 32) : isPunctuation c = true := by
  have hall : ∀ d ∈ ['*', '_', '[', ']', '#', '<', '>', '\\', '`', '!', '&', '-', '+', '=', '.', ')'],
      isPunctuation d = true := by decide
  refine hall c ?_
  simp only [escapesProse, isMarkup, hcontrol, decide_false, Bool.false_or, Bool.or_eq_true, Bool.and_eq_true,
    beq_iff_eq] at h
  simp only [List.mem_cons, List.not_mem_nil, or_false]
  grind

section Prose

variable {w : Writer} (hmargin : w.margin = []) (howed : w.owed = 0)
include hmargin howed

/-- **A character of prose is read as it was.** -/
theorem spells_proseChar (c next : Char) : Spells [c] w (w.proseChar c next) := by
  have hmargin' : w.startLine.margin = [] := (Frame.startLine w).margin.trans hmargin
  have hzero : w.startLine.owed = 0 := (continues_startLine hmargin).owed.trans howed
  have hstart : w.startLine.text = w.text := congrArg List.reverse (written_startLine hmargin)
  rw [Spells, ← hstart]
  unfold Writer.proseChar
  simp only
  cases hescapes : w.startLine.escapesProse c next with
  | false =>
    have hsharp : c ≠ '#' := by rintro rfl; simp [escapesProse, isMarkup] at hescapes
    exact ⟨[c], .char (ne_of_not_escapesProse hescapes).1 hsharp, by simp [Writer.note, put, Writer.text]⟩
  | true =>
    rw [if_pos rfl]
    split
    · next hcontrol =>
      refine ⟨reference c, .reference hcontrol, ?_⟩
      rw [Writer.text, Writer.note, written_literal hmargin', settle_eq_self hzero]
      simp [Writer.text]
    · next hcontrol =>
      exact ⟨['\\', c], .escape (isPunctuation_of_escapesProse hescapes hcontrol), by
        simp [Writer.note, put, Writer.text]⟩

theorem spells_proseChars (t : Text) : Spells t w (Writer.proseChars t w) := by
  fun_induction Writer.proseChars t w with
  | case1 w => exact ⟨[], .nil, (List.append_nil _).symm⟩
  | case2 c w => exact spells_proseChar hmargin howed c '\x00'
  | case3 c d t w ih =>
    have howed' := (continues_proseChar hmargin howed c d).owed.trans howed
    exact (spells_proseChar hmargin howed c d).trans (ih ((Frame.proseChar w c d).margin.trans hmargin) howed')

end Prose

/-! ### Lines -/

/-- The lines, all but the first without the blanks at their start. -/
def trimStarts (ls : List Text) : List Text := ls.take 1 ++ (ls.drop 1).map Text.trimStart

/-- The lines, all but the last without the blanks at their end. -/
def trimEnds (ls : List Text) : List Text := ls.dropLast.map Text.trimEnd ++ ls.getLast?.toList

/-- **The lines of a text as a paragraph shows them**: a tab counts as a blank, lines are trimmed where they
meet a line break, and those without characters are dropped. -/
def proseLines (t : Text) : List Text :=
  (trimEnds (trimStarts (Text.lines (t.map fun c => if c = '\t' then ' ' else c)))).filter fun line => !line.isEmpty

theorem trimEnds_cons (line : Text) (rest : List Text) :
    trimEnds (line :: rest) = (if rest.isEmpty then line else line.trimEnd) :: trimEnds rest := by
  cases rest with
  | nil => rfl
  | cons next rest => simp [trimEnds, List.getLast?_cons_cons]

/-- **The lines that are written**, each of them closed by a line break, but for the last break. -/
structure Holds (ls : List Text) (w : Writer) : Prop where
  /-- There is no margin. -/
  margin : w.margin = []
  /-- Line breaks of the source are written. -/
  oneLine : w.oneLine = false
  /-- Blank lines would be written. -/
  tight : w.tight = false
  /-- At most one line break is owed. -/
  owed : w.owed ≤ 1
  /-- The text does not end with a line break. -/
  last : w.written.head? ≠ some '\n'
  /-- What the text is read as. -/
  text : ls = [] ∧ w.written = [] ∨
    w.written ≠ [] ∧ Encodes (w.text ++ ['\n']) (ls.flatMap fun line => line ++ ['\n'])

theorem payBreaks_nil (margin : Text) (owed : Nat) (written : Text) : payBreaks margin owed [] written = written := by
  induction owed with
  | zero => rfl
  | succ owed ih => exact ih

namespace Holds

variable {ls : List Text} {w : Writer}

theorem start : Holds [] {} := ⟨rfl, rfl, rfl, Nat.zero_le _, by simp, .inl ⟨rfl, rfl⟩⟩

theorem oweBreak (h : Holds ls w) : Holds ls w.oweBreak :=
  ⟨h.margin, h.oneLine, h.tight, Nat.max_le.2 ⟨h.owed, Nat.le_refl 1⟩, h.last, h.text⟩

/-- Where a line break is owed, all lines are closed. -/
theorem settle (h : Holds ls w) (howed : w.written = [] ∨ w.owed = 1) :
    Encodes w.settle.text (ls.flatMap fun line => line ++ ['\n']) := by
  have hwritten : w.settle.written = payBreaks [] w.owed w.written w.written := by
    simp [Writer.settle, h.margin, h.tight]
  rcases h.text with ⟨rfl, hnil⟩ | ⟨hne, htext⟩
  · rw [Writer.text, hwritten, hnil, payBreaks_nil]
    exact .nil
  · have hbreak : w.settle.written = '\n' :: w.written := by
      obtain ⟨c, back, hcons⟩ := List.exists_cons_of_ne_nil hne
      have hc : c ≠ '\n' := fun hc => h.last (by rw [hcons, hc, List.head?_cons])
      rw [hwritten, howed.resolve_left hne, hcons, payBreaks, if_neg hc, if_pos rfl, payBreaks, List.nil_append]
    rwa [Writer.text, hbreak, List.reverse_cons]

/-- **One more line** is written behind a line break. -/
theorem prose (h : Holds ls w) (howed : w.written = [] ∨ w.owed = 1) {line : Text} (hne : line ≠ []) :
    Holds (ls ++ [line]) (w.prose line) := by
  have hframe := Frame.prose line w
  have hline := Encodes.char (c := '\n') (by decide) (by decide)
  obtain ⟨x, hx, htext⟩ := spells_proseChars (w := w.settle) h.margin rfl line
  obtain ⟨y, hy, hwritten, hzero⟩ := continues_proseChars (w := w.settle) h.margin rfl line
  -- What is read back and what holds no line break are the same characters.
  have hxy : y = x.reverse := by
    have heq := congrArg List.reverse htext
    rw [Writer.text, Writer.text, List.reverse_append, List.reverse_reverse, List.reverse_reverse, hwritten] at heq
    exact List.append_cancel_right heq
  have hyne : y ≠ [] := by rw [hxy]; simpa using hx.ne_nil hne
  have hprose : (w.prose line).written = y ++ w.settle.written := hwritten
  refine ⟨hframe.margin.trans h.margin, hframe.oneLine.trans h.oneLine, hframe.tight.trans h.tight, ?_, ?_,
    .inr ⟨?_, ?_⟩⟩
  · exact hzero.le.trans (Nat.zero_le 1)
  · rw [hprose, List.head?_append_of_ne_nil _ hyne]
    exact fun hhead => hy (List.mem_of_mem_head? hhead)
  · rw [hprose]
    exact List.append_ne_nil_of_left_ne_nil hyne _
  · have hclosed := (h.settle howed).append (hx.append hline)
    rw [← List.append_assoc, ← htext] at hclosed
    rw [List.flatMap_append, List.flatMap_singleton]
    exact hclosed

end Holds

/-- What is left of a line is one more line, if anything is. -/
theorem Holds.line {ls : List Text} {w : Writer} (h : Holds ls w) (howed : w.written = [] ∨ w.owed = 1) (line : Text)
    (holder : Holder) (count : Nat) (rest : List Span) :
    ∃ w', Holds (ls ++ [line].filter fun line => !line.isEmpty) w' ∧
      writeSpans holder count ((if line = [] then [] else [Span.text line]) ++ rest) w =
        writeSpans holder count rest w' := by
  by_cases hne : line = []
  · refine ⟨w, ?_, by rw [if_pos hne, List.nil_append]⟩
    rw [hne]
    simpa using h
  · refine ⟨w.prose line, ?_, by rw [if_neg hne, List.singleton_append, writeSpans, writeSpan]⟩
    rw [List.filter_cons_of_pos (by simpa using hne)]
    exact h.prose howed hne

/-- **Lines are written one after the other**, each but the very first with a line break owed in front of it. -/
theorem holds_ofLines (first : Bool) (lines : List Text) {ls : List Text} {w : Writer} (h : Holds ls w)
    (hfirst : first = true → w.written = []) (holder : Holder) (count : Nat) :
    Holds
      (ls ++ (trimEnds (if first then trimStarts lines else lines.map Text.trimStart)).filter fun line =>
        !line.isEmpty)
      (writeSpans holder count (Span.ofLines first lines) w) := by
  induction lines generalizing ls w first with
  | nil => cases first <;> simpa [Span.ofLines, writeSpans, trimStarts, trimEnds] using h
  | cons line rest ih =>
    have hstarts : (if first then trimStarts (line :: rest) else (line :: rest).map Text.trimStart) =
        (if first then line else line.trimStart) :: rest.map Text.trimStart := by
      cases first <;> rfl
    -- The break in front of the line.
    obtain ⟨w₁, hw₁, howed, hbreak⟩ : ∃ w₁, Holds ls w₁ ∧ (w₁.written = [] ∨ w₁.owed = 1) ∧ ∀ ss,
        writeSpans holder count ((if first then [] else [Span.softBreak]) ++ ss) w =
          writeSpans holder count ss w₁ := by
      cases first with
      | true => exact ⟨w, h, .inl (hfirst rfl), fun _ => rfl⟩
      | false =>
        refine ⟨w.oweBreak, h.oweBreak, .inr (Nat.max_eq_right h.owed), fun ss => ?_⟩
        rw [if_neg (by decide), List.singleton_append, writeSpans, writeSpan, h.oneLine]
        rfl
    obtain ⟨w₂, hw₂, hline⟩ := hw₁.line howed
      (if rest.isEmpty then (if first then line else line.trimStart)
        else (if first then line else line.trimStart).trimEnd)
      holder count (Span.ofLines false rest)
    rw [Span.ofLines, List.append_assoc, hbreak, hline, hstarts, trimEnds_cons, List.isEmpty_map]
    have hrest := ih false hw₂ (by simp)
    rwa [List.append_assoc, ← List.filter_append] at hrest

/-! ### Pages -/

/-- What is written of a paragraph, without the line break behind it. -/
theorem written_writeNodes_paragraph (content : List Span) :
    (writeNodes false [.paragraph content] {}).written = (writeSpans .block content.length content {}).written := by
  rw [writeNodes, writeNodes, writeNode]
  rfl

/-- **A page is read as its lines**, each of them closed by a line break. -/
theorem Holds.decode_page {ls : List Text} {content : List Span}
    (h : Holds ls (writeSpans .block content.length content {})) :
    decode (page [.paragraph content]) = (ls.flatMap fun line => line ++ ['\n']) ∧
      (page [.paragraph content] = [] ∨
        page [.paragraph content] = (writeSpans .block content.length content {}).text ++ ['\n']) := by
  have hwritten := written_writeNodes_paragraph content
  rcases h.text with ⟨rfl, hnil⟩ | ⟨hne, hencodes⟩
  · have hpage : page [.paragraph content] = [] := by
      have htext : (writeNodes false [.paragraph content] {}).text = [] := by rw [Writer.text, hwritten, hnil]; rfl
      rw [page, htext]
      rfl
    exact ⟨by rw [hpage]; exact Encodes.nil.decode_eq, .inl hpage⟩
  · have hpage : page [.paragraph content] = _ :=
      page_eq_append_break (by rwa [hwritten]) (by rw [hwritten]; exact h.last)
    rw [Writer.text, hwritten, ← Writer.text] at hpage
    exact ⟨by rw [hpage]; exact hencodes.decode_eq, .inr hpage⟩

/-- **A paragraph is read as its lines**, each of them closed by a line break. -/
theorem decode_render_paragraph (t : Text) :
    decode (render [.paragraph [.text t]]) = (proseLines t).flatMap fun line => line ++ ['\n'] := by
  have hnodes : Node.ofBlocks [.paragraph [.text t]] = [.paragraph (Span.ofText t)] := by
    simp [Node.ofBlocks, Node.ofBlock, Node.ofParagraph, trimAtBreaks, Span.ofInlines, Span.ofInline]
  have hholds : Holds (proseLines t) (writeSpans .block (Span.ofText t).length (Span.ofText t) {}) :=
    holds_ofLines true (Text.lines (t.map fun c => if c = '\t' then ' ' else c)) .start (fun _ => rfl) .block _
  obtain ⟨hdecode, hpage⟩ := hholds.decode_page
  have hseparator : ¬ separatorLine <:+: page [.paragraph (Span.ofText t)] := by
    have hleaves := forall_leaves_ofLines Leaf.inherited_uncommented true
      (Text.lines (t.map fun c => if c = '\t' then ' ' else c))
    obtain ⟨x, htext, hx⟩ := writeSpans_writes .block (Span.ofText t).length (Span.ofText t) (w := {})
      (by simp [Filler]) hleaves
    have hfree : (clear.after (writeSpans .block (Span.ofText t).length (Span.ofText t) {}).text).Free := by
      rw [htext]
      exact hx clear (.inl rfl)
    refine not_separatorLine_of_free ?_
    rcases hpage with hpage | hpage
    · rw [hpage]
      exact .inl rfl
    · rw [hpage, after_append]
      exact hfree.next (by decide)
  rw [render_eq_page (by rwa [hnodes]), hnodes, hdecode]

end CribSheet.Markdown
