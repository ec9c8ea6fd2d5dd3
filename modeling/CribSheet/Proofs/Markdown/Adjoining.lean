/-
Writing neighbouring lists.

Between two neighbouring lists the writer puts a separator and owes a blank line.  Where blank lines are
written and there is no margin, two line breaks follow the separator, so that it is taken out of the page.
Behind a margin, in an item or a quotation, the margin comes in behind the first line break, and the
separator stays.  The margin is put back behind every node, so whether a separator stays depends on the tree
alone.

Main definitions:

* `CribSheet.Markdown.Adjoining` — two lists stand next to each other;
* `CribSheet.Markdown.Node.Crowded` — a quotation or an item with neighbouring lists;
* `CribSheet.Markdown.Shows` — whether a separator that stays has been written;
* `CribSheet.Markdown.Awaits` — the same, with another separator at the end.

Main results:

* `CribSheet.Markdown.Shows.separate`, `CribSheet.Markdown.Awaits.startLine` — writing a separator and what
  follows it;
* `CribSheet.Markdown.writeNodes_shows` — writing a tree.
-/
import CribSheet.Proofs.Markdown.Comment

set_option relaxedAutoImplicit false
set_option autoImplicit false

namespace CribSheet.Markdown

open Writer Opening

/-! ### Neighbouring lists -/

/-- **Two lists stand next to each other.** -/
def Adjoining {α : Type} (isList : α → Bool) (xs : List α) : Prop :=
  ∃ a b, [a, b] <:+: xs ∧ isList a = true ∧ isList b = true

section Adjoining

variable {α : Type} {isList : α → Bool}

theorem not_adjoining_nil : ¬ Adjoining isList [] := by
  rintro ⟨a, b, h, -⟩
  simp at h

theorem adjoining_cons {a : α} {xs : List α} :
    Adjoining isList (a :: xs) ↔ (isList a = true ∧ xs.head?.any isList = true) ∨ Adjoining isList xs := by
  constructor
  · rintro ⟨b, c, h, hb, hc⟩
    rcases List.infix_cons_iff.1 h with h | h
    · obtain ⟨rfl, d, rfl⟩ := List.cons_prefix_cons.1 h
      exact .inl ⟨hb, hc⟩
    · exact .inr ⟨b, c, h, hb, hc⟩
  · rintro (⟨ha, hhead⟩ | ⟨b, c, h, hbc⟩)
    · cases xs with
      | nil => simp at hhead
      | cons b xs => exact ⟨a, b, (List.prefix_append [a, b] xs).isInfix, ha, by simpa using hhead⟩
    · exact ⟨b, c, List.infix_cons_iff.2 (.inr h), hbc⟩

end Adjoining

/-- What the node holds directly, together as it stands. -/
def Node.parts : Node → List (List Node)
  | .quote children => [children]
  | .list _ items => items
  | _ => []

/-- **The node holds neighbouring lists directly.** -/
def Node.Crowded (n : Node) : Prop := ∃ part ∈ n.parts, Adjoining Node.isList part

@[simp] theorem not_crowded_heading (level : Nat) (content : List Span) : ¬ (Node.heading level content).Crowded := by
  simp [Node.Crowded, Node.parts]

@[simp] theorem not_crowded_paragraph (content : List Span) : ¬ (Node.paragraph content).Crowded := by
  simp [Node.Crowded, Node.parts]

@[simp] theorem crowded_quote {children : List Node} :
    (Node.quote children).Crowded ↔ Adjoining Node.isList children := by
  simp [Node.Crowded, Node.parts]

@[simp] theorem crowded_list {ordered : Bool} {items : List (List Node)} :
    (Node.list ordered items).Crowded ↔ ∃ item ∈ items, Adjoining Node.isList item := Iff.rfl

/-- The node is not a list without items. -/
def Node.Filled (n : Node) : Prop := n.isList = true → n.parts ≠ []

/-! ### States -/

/-- The text is a margin: quote marks and blanks. -/
def IsMargin (t : Text) : Prop := ∀ c ∈ t, c = ' ' ∨ c = '>'

theorem IsMargin.filler {t : Text} (h : IsMargin t) : Filler t := fun c hc => .inr (h c hc)

/-- **A separator that stays has been written**, or none has. -/
structure Shows (l : Prop) (w : Writer) : Prop where
  /-- The margin is one. -/
  margin : IsMargin w.margin
  /-- The text that is written. -/
  spells : ∃ gs, (clear.reads gs).Free ∧ w.text = spell gs ∧ ((∃ c, Glyph.kept c ∈ gs) ↔ l)

/-- **A separator has just been written**, and one that stays then will have been, or none will. -/
structure Awaits (l : Prop) (w : Writer) : Prop where
  /-- The margin is one. -/
  margin : IsMargin w.margin
  /-- A blank line is owed. -/
  owed : w.owed = 2
  /-- Without a margin blank lines are written. -/
  loose : w.margin = [] → w.tight = false
  /-- The text that is written. -/
  spells : ∃ gs, clear.reads gs = clear ∧ w.text = spell gs ++ listSeparator ∧
    ((∃ c, Glyph.kept c ∈ gs) ∨ w.margin ≠ [] ↔ l)

theorem shows_start : Shows False {} where
  margin := by simp [IsMargin]
  spells := ⟨[], .inl rfl, rfl, by simp⟩

variable {l l' : Prop} {w w' : Writer}

theorem Shows.congr (h : Shows l w) (hl : l ↔ l') : Shows l' w := by rwa [← propext hl]

/-- Characters show no separator. -/
theorem exists_kept_append_chars {gs : List Glyph} (x : Text) :
    (∃ c, Glyph.kept c ∈ gs ++ x.map .char) ↔ ∃ c, Glyph.kept c ∈ gs := by
  simp

/-- Writing that leaves a free end free. -/
theorem Shows.writes (h : Shows l w) (hw : Writes Free Free w w') (hmargin : IsMargin w'.margin) : Shows l w' := by
  obtain ⟨gs, hgs, htext, hl⟩ := h.spells
  obtain ⟨x, htext', hx⟩ := hw
  refine ⟨hmargin, gs ++ x.map .char, ?_, ?_, (exists_kept_append_chars x).trans hl⟩
  · rw [reads_append, reads_chars]
    exact hx _ hgs
  · rw [htext', htext, spell_append, spell_chars]

/-- Nothing but the surroundings changes. -/
theorem Shows.of_written (h : Shows l w) (hwritten : w'.written = w.written) (hmargin : IsMargin w'.margin) :
    Shows l w' := h.writes (.of_written hwritten) hmargin

theorem Shows.oweBreak (h : Shows l w) : Shows l w.oweBreak := h.of_written rfl h.margin

theorem Shows.oweBlankLine (h : Shows l w) : Shows l w.oweBlankLine := h.of_written rfl h.margin

theorem Shows.setOneLine (h : Shows l w) (oneLine : Bool) : Shows l { w with oneLine := oneLine } :=
  h.of_written rfl h.margin

theorem Shows.setTight (h : Shows l w) (tight : Bool) : Shows l { w with tight := tight } :=
  h.of_written rfl h.margin

theorem Shows.outdent (h : Shows l w) (width : Nat) : Shows l (w.outdent width) :=
  h.of_written rfl fun c hc => h.margin c (List.mem_of_mem_take hc)

theorem Shows.indent (h : Shows l w) {t : Text} (ht : IsMargin t) : Shows l (w.indent t) :=
  h.of_written rfl fun c hc => (List.mem_append.1 hc).elim (h.margin c) (ht c)

theorem Shows.leaveQuote (h : Shows l w) : Shows l (leaveQuote w) := by
  unfold Markdown.leaveQuote
  split
  · exact h.oweBlankLine
  · exact (h.outdent 2).oweBlankLine

/-! ### Marks -/

/-- The text opens a block: no separator could start with it or go on behind it. -/
def IsMark (t : Text) : Prop :=
  ∃ c rest, t = c :: rest ∧ c ∉ ['<', '!', '\n'] ∧ ∀ d ∈ rest, d ∉ ['<', '!', '-', '\n']

theorem isMark_itemMarker (number : Option Nat) : IsMark (itemMarker number) := by
  match number with
  | none => exact ⟨'-', [' '], rfl, by decide, by decide⟩
  | some k =>
      have hdigits : (toString k).toList = Nat.toDigits 10 k := String.toList_ofList
      obtain ⟨c, rest, hct⟩ := List.exists_cons_of_ne_nil (@Nat.toDigits_ne_nil k 10)
      have hdigit : ∀ d ∈ c :: rest, d ∉ ['<', '!', '-', '\n'] := by
        intro d hd hbad
        have hd' : d.isDigit = true := Nat.isDigit_of_mem_toDigits (by decide) (by decide) (hct ▸ hd)
        simp only [List.mem_cons, List.not_mem_nil, or_false] at hbad
        rcases hbad with rfl | rfl | rfl | rfl <;> exact absurd hd' (by decide)
      refine ⟨c, rest ++ if k < 10 then ['.', ' ', ' '] else ['.', ' '], ?_, ?_, ?_⟩
      · rw [itemMarker, hdigits, hct, List.cons_append]
      · have hc := hdigit c List.mem_cons_self
        simp only [List.mem_cons, List.not_mem_nil, or_false, not_or] at hc ⊢
        exact ⟨hc.1, hc.2.1, hc.2.2.2⟩
      · intro d hd
        rcases List.mem_append.1 hd with hd | hd
        · exact hdigit d (List.mem_cons_of_mem c hd)
        · have hdot : ∀ d ∈ if k < 10 then ['.', ' ', ' '] else ['.', ' '], d ∉ ['<', '!', '-', '\n'] := by
            split <;> decide
          exact hdot d hd

theorem isMark_quote : IsMark ['>', ' '] := ⟨'>', [' '], rfl, by decide, by decide⟩

theorem isMark_heading (level : Nat) : IsMark (List.replicate level '#' ++ [' ']) := by
  have hrest : ∀ n : Nat, ∀ d ∈ List.replicate n '#' ++ [' '], d ∉ ['<', '!', '-', '\n'] := by
    intro n d hd
    rcases List.mem_append.1 hd with hd | hd
    · obtain rfl := List.eq_of_mem_replicate hd
      decide
    · obtain rfl := List.mem_singleton.1 hd
      decide
  cases level with
  | zero => exact ⟨' ', [], rfl, by decide, by simp⟩
  | succ level => exact ⟨'#', List.replicate level '#' ++ [' '], rfl, by decide, hrest level⟩

/-- What is written of a mark once the line is started. -/
theorem writes_mark {t : Text} (ht : IsMark t) (hmargin : Filler w.margin) :
    Writes Free Free w.settle.startLine (w.mark t) := by
  obtain ⟨c, rest, rfl, hc, hrest⟩ := ht
  simp only [List.mem_cons, List.not_mem_nil, or_false, not_or] at hc
  have hfirst : Writes Free (· = clear) w.settle.startLine (w.settle.literalChar c) :=
    .of_text (text_literalChar _ c) fun s hs => hs.next_clear hc.2.1 hc.1
  have hplain : clear.after rest = clear := after_plain fun d hd => by
    have hd := hrest d hd
    simp only [List.mem_cons, List.not_mem_nil, or_false, not_or] at hd ⊢
    exact ⟨hd.1, hd.2.1, hd.2.2.1⟩
  have hmore := writes_literalChars (w := w.settle.literalChar c) (t := rest) (s := clear)
    (((Frame.settle w).trans (.literalChar _ c)).margin ▸ hmargin) (fun _ => rfl) (by rw [hplain]; simp)
  exact ((hfirst.trans hmore).imp (fun _ h => h) fun s hs => .inl (hs.trans hplain)).trans (.of_written rfl)

theorem Shows.startLine (h : Shows l w) : Shows l w.settle.startLine :=
  h.writes ((writes_settle h.margin.filler airy_free).trans
    (writes_startLine (w := w.settle) h.margin.filler airy_free))
    (((Frame.settle w).trans (.startLine _)).margin ▸ h.margin)

theorem Shows.mark (h : Shows l w) {t : Text} (ht : IsMark t) : Shows l (w.mark t) :=
  h.startLine.writes (writes_mark ht h.margin.filler) ((Frame.mark t w).margin ▸ h.margin)

/-! ### Separators -/

/-- A line break at the end of the text clears it. -/
theorem reads_of_text_break {gs : List Glyph} (hgs : (clear.reads gs).Free) {t : Text} (h : spell gs = t ++ ['\n']) :
    clear.reads gs = clear := by
  rcases List.eq_nil_or_concat gs with rfl | ⟨gs, g, rfl⟩
  · rfl
  · rw [List.concat_eq_append] at h hgs ⊢
    have hlast := congrArg List.getLast? h
    rw [spell_append, reads_append] at *
    rw [reads_cons, reads_nil] at hgs ⊢
    cases g with
    | char c =>
        obtain rfl : c = '\n' := by simpa [Glyph.source] using hlast
        refine next_clear ?_ (by decide)
        intro hcomment
        simp [nextGlyph, hcomment, next, Free] at hgs
    | lost =>
        rw [nextGlyph] at hgs ⊢
        split at hgs
        · next hclear => rw [if_pos hclear]
        · simp [Free] at hgs
    | kept c =>
        obtain rfl : c = '\n' := by simpa [Glyph.source] using hlast
        simp [nextGlyph, Free] at hgs

/-- **Where a line break is owed the end becomes clear.** -/
theorem Shows.settle_clear (h : Shows l w) (howed : 1 ≤ w.owed) :
    ∃ gs, clear.reads gs = clear ∧ w.settle.text = spell gs ∧ ((∃ c, Glyph.kept c ∈ gs) ↔ l) := by
  obtain ⟨gs, hgs, htext, hl⟩ := h.spells
  obtain ⟨gap, hgap, heq, hne⟩ :=
    exists_payBreaks h.margin.filler (if w.tight then min w.owed 1 else w.owed) w.written w.written
  have hpaid : 1 ≤ if w.tight then min w.owed 1 else w.owed := by split <;> omega
  have hsettle : w.settle.text = w.text ++ gap.reverse := by
    rw [Writer.text, Writer.settle, heq, List.reverse_append, Writer.text]
  have hfill : Filler gap.reverse := fun c hc => hgap c (List.mem_reverse.1 hc)
  refine ⟨gs ++ gap.reverse.map .char, ?_, ?_, (exists_kept_append_chars _).trans hl⟩
  · rw [reads_append, reads_chars]
    refine after_filler hfill hgs.ne_comment ?_
    -- Either some line break is written, or the text ends with one or is empty.
    cases hwritten : w.written with
    | nil =>
        right
        cases gs with
        | nil => rfl
        | cons g gs =>
            rw [Writer.text, hwritten] at htext
            cases g <;> simp [Glyph.source, separatorLine] at htext
    | cons c back =>
        by_cases hc : c = '\n'
        · right
          refine reads_of_text_break hgs (t := back.reverse) ?_
          rw [← htext, Writer.text, hwritten, hc, List.reverse_cons]
        · left
          rw [Ne, List.reverse_eq_nil_iff]
          exact hne c back hwritten hc hpaid
  · rw [hsettle, htext, spell_append, spell_chars]

/-- Characters without line breaks come behind the start of the line. -/
theorem text_literalChars {c : Char} {t : Text} (w : Writer) (hbreak : '\n' ∉ c :: t) :
    ((c :: t).foldl Writer.literalChar w).text = w.startLine.text ++ c :: t := by
  induction t generalizing c w with
  | nil => exact text_literalChar w c
  | cons d t ih =>
      have hc : c ≠ '\n' := fun hc => hbreak (by simp [hc])
      have hinside : (w.literalChar c).startLine = w.literalChar c := by
        rw [Writer.startLine, atLineStart_literalChar]
        simp [hc]
      rw [List.foldl_cons, ih _ fun hmem => hbreak (List.mem_cons_of_mem c hmem), hinside, text_literalChar,
        List.append_assoc, List.singleton_append]

/-- Write a separator behind a list. -/
def separate (w : Writer) : Writer := (w.oweBreak.literal listSeparator).oweBlankLine

theorem text_oweBlankLine (w : Writer) : w.oweBlankLine.text = w.text := rfl

theorem frame_separate (w : Writer) : Frame w (separate w) :=
  ((Frame.oweBreak w).trans (.literal _ _)).trans (.oweBlankLine _)

/-- **A separator behind a list**: with a margin it will stay. -/
theorem Shows.separate (h : Shows l w) (hloose : w.margin = [] → w.tight = false) :
    Awaits (l ∨ w.margin ≠ []) (separate w) where
  margin := (frame_separate w).margin ▸ h.margin
  owed := by rw [Markdown.separate, Writer.oweBlankLine, owed_literal]; rfl
  loose := by rw [(frame_separate w).margin, (frame_separate w).tight]; exact hloose
  spells := by
    obtain ⟨gs, hgs, htext, hl⟩ := h.oweBreak.settle_clear (Nat.le_max_right ..)
    have hmargin : Filler w.oweBreak.settle.margin := h.margin.filler
    obtain ⟨x, hx, hclear⟩ := writes_startLine (w := w.oweBreak.settle) hmargin airy_clear
    refine ⟨gs ++ x.map .char, ?_, ?_, ?_⟩
    · rw [reads_append, reads_chars]
      exact hclear _ hgs
    · have hbreak : '\n' ∉ '<' :: listSeparator.tail := by decide
      have hseparator := text_literalChars w.oweBreak.settle hbreak
      rw [← listSeparator_eq_cons] at hseparator
      rw [spell_append, spell_chars, ← htext, ← hx, Markdown.separate, text_oweBlankLine, literal]
      exact hseparator
    · rw [exists_kept_append_chars, hl, (frame_separate w).margin]

/-- What the writer puts between a separator and what comes next. -/
theorem Awaits.text_startLine (h : Awaits l w) :
    w.settle.startLine.text = w.text ++ ((if w.tight then ['\n'] else '\n' :: w.margin ++ ['\n']) ++ w.margin) := by
  obtain ⟨gs, -, htext, -⟩ := h.spells
  -- The separator ends the text, and not with a line break.
  obtain ⟨back, hback⟩ : ∃ back, w.written = '>' :: back := by
    have hlast := congrArg List.getLast? htext
    have hseparator : listSeparator.getLast? = some '>' := by decide
    rw [List.getLast?_append, hseparator, Writer.text, List.getLast?_reverse] at hlast
    exact List.head?_eq_some_iff.1 hlast
  have hsettle : w.settle.text = w.text ++ if w.tight then ['\n'] else '\n' :: w.margin ++ ['\n'] := by
    rw [Writer.text, Writer.settle, h.owed, hback, Writer.text, hback]
    cases w.tight <;> simp [payBreaks]
  have hline : w.settle.atLineStart = true := by
    rw [Writer.settle, h.owed]
    cases w.tight <;> simp
  rw [← List.append_assoc, ← hsettle, Writer.startLine, hline]
  simp [Writer.text, Writer.settle]

/-- With a margin that is the line break and a character of the margin, and filler. -/
theorem IsMargin.exists_filler {m : Char} {margin : Text} (h : IsMargin (m :: margin)) (tight : Bool) :
    ∃ x, Filler x ∧ (if tight then ['\n'] else '\n' :: m :: margin ++ ['\n']) ++ m :: margin = '\n' :: m :: x := by
  have hm := h m List.mem_cons_self
  have hfiller : Filler margin := fun c hc => .inr (h c (List.mem_cons_of_mem m hc))
  cases tight with
  | true => exact ⟨margin, hfiller, rfl⟩
  | false =>
      refine ⟨margin ++ '\n' :: m :: margin, ?_, by simp⟩
      intro c hc
      simp only [List.mem_append, List.mem_cons] at hc
      rcases hc with hc | rfl | rfl | hc
      · exact hfiller c hc
      · exact .inl rfl
      · exact .inr hm
      · exact hfiller c hc

/-- **Whether the separator stays** is settled once more is written. -/
theorem Awaits.startLine (h : Awaits l w) : Shows l w.settle.startLine := by
  obtain ⟨gs, hgs, htext, hl⟩ := h.spells
  refine ⟨((Frame.settle w).trans (.startLine _)).margin ▸ h.margin, ?_⟩
  rw [h.text_startLine, htext]
  cases hmargin : w.margin with
  | nil =>
      refine ⟨gs ++ [.lost], ?_, ?_, ?_⟩
      · rw [reads_append, hgs]
        exact .inl rfl
      · rw [h.loose hmargin, spell_append]
        simp [Glyph.source, separatorLine]
      · rw [← hl, hmargin]
        simp
  | cons m margin =>
      have hm : m ≠ '\n' ∧ m ∉ ['<', '!', '-'] := by
        rcases h.margin m (by simp [hmargin]) with rfl | rfl <;> decide
      obtain ⟨x, hx, heq⟩ := (hmargin ▸ h.margin).exists_filler w.tight
      refine ⟨gs ++ .kept m :: x.map .char, ?_, ?_, ?_⟩
      · rw [reads_append, hgs, reads_cons, reads_chars, nextGlyph, if_pos ⟨rfl, hm.1⟩, next_clear (by simp) hm.2]
        exact .inl (after_filler hx (by simp) (.inr rfl))
      · rw [List.append_assoc, heq, spell_append, spell_cons, spell_chars]
        simp [Glyph.source]
      · rw [← hl, hmargin]
        simp

theorem Awaits.mark (h : Awaits l w) {t : Text} (ht : IsMark t) : Shows l (w.mark t) :=
  h.startLine.writes (writes_mark ht h.margin.filler) ((Frame.mark t w).margin ▸ h.margin)

/-- With a margin it does not matter whether blank lines are written. -/
theorem Awaits.setTight (h : Awaits l w) (hmargin : w.margin ≠ []) : Awaits l { w with tight := true } :=
  ⟨h.margin, h.owed, fun hnil => absurd hnil hmargin, h.spells⟩

/-! ### Trees -/

/-- The separator behind a list is written last. -/
theorem writeNode_eq (inItem beforeList : Bool) (node : Node) (w : Writer) :
    writeNode inItem beforeList node w =
      if node.isList && beforeList then separate (writeNode inItem false node w)
      else writeNode inItem false node w := by
  cases node with
  | heading | paragraph | quote => simp [writeNode, Node.isList]
  | list => cases beforeList <;> simp [writeNode, Node.isList, separate]

/-- A list with items whose numbers take the same room, or no list. -/
structure Node.Regular (n : Node) : Prop where
  /-- The list has items. -/
  filled : n.Filled
  /-- Its numbers take the same room. -/
  narrow : n.Narrow

/-- Running text shows no separator. -/
theorem Shows.writeSpans (h : Shows l w) (holder : Holder) (count : Nat) {ss : List Span}
    (hleaves : ∀ l ∈ spansLeaves ss, l.Uncommented) : Shows l (writeSpans holder count ss w) :=
  h.writes (writeSpans_writes holder count ss h.margin.filler hleaves)
    ((writeSpans_frame holder count ss w).margin ▸ h.margin)

mutual

/-- **Writing a node** shows a separator when some node in it is crowded. -/
theorem writeNode_shows (inItem : Bool) (node : Node) {l : Prop} {w : Writer}
    (hleaves : ∀ l ∈ nodeLeaves node, l.Uncommented) (hregular : ∀ n ∈ node.all, n.Regular)
    (hitem : inItem = true → w.margin ≠ []) (h : Shows l w ∨ node.isList = true ∧ Awaits l w) :
    Shows (l ∨ ∃ n ∈ node.all, n.Crowded) (writeNode inItem false node w) := by
  have htight : Shows l (if inItem then { w with tight := true } else w) ∨
      node.isList = true ∧ Awaits l (if inItem then { w with tight := true } else w) := by
    refine h.imp (fun h => ?_) (And.imp_right fun h => ?_)
    · split
      · exact h.setTight true
      · exact h
    · split
      · next hin => exact h.setTight (hitem hin)
      · exact h
  cases node with
  | heading level content =>
      have hstart := htight.resolve_right (by simp [Node.isList])
      have hcontent := ((hstart.mark (isMark_heading level)).setOneLine true).writeSpans .block content.length hleaves
      rw [writeNode]
      exact (hcontent.setOneLine false).oweBlankLine.congr (by simp [Node.all])
  | paragraph content =>
      have hstart := htight.resolve_right (by simp [Node.isList])
      rw [writeNode]
      exact (hstart.writeSpans .block content.length hleaves).oweBlankLine.congr (by simp [Node.all])
  | quote children =>
      have hstart := htight.resolve_right (by simp [Node.isList])
      have hmark := (hstart.mark isMark_quote).indent (t := ['>', ' ']) (by simp [IsMargin])
      have hmargin : ∀ w : Writer, (w.indent ['>', ' ']).margin ≠ [] := by simp [indent]
      have hchildren := writeNodes_shows false children hleaves (fun n hn => hregular n (List.mem_cons_of_mem _ hn))
        (by simp) (fun hnil => absurd hnil (hmargin _)) (.inl hmark)
      rw [writeNode]
      refine hchildren.leaveQuote.congr ?_
      simp only [Node.all, List.exists_mem_cons_iff, crowded_quote, hmargin, ne_eq, not_false_eq_true, true_and]
  | list ordered items =>
      have hne : items ≠ [] := (hregular _ (Node.self_mem_all _)).filled rfl
      have hitems := writeItems_shows (if ordered then some 1 else none) items hleaves
        (fun n hn => hregular n (List.mem_cons_of_mem _ hn)) (htight.imp_right fun h => ⟨hne, h.2⟩)
      rw [writeNode]
      simp only [Bool.false_eq_true, if_false]
      refine (hitems.setTight inItem).congr ?_
      simp only [Node.all, List.exists_mem_cons_iff, crowded_list]

/-- **Writing some nodes** shows a separator when two lists adjoin behind a margin, or some node is
crowded. -/
theorem writeNodes_shows (inItem : Bool) (ns : List Node) {l : Prop} {w : Writer}
    (hleaves : ∀ l ∈ nodesLeaves ns, l.Uncommented) (hregular : ∀ n ∈ allNodes ns, n.Regular)
    (hitem : inItem = true → w.margin ≠ []) (hloose : w.margin = [] → w.tight = false)
    (h : Shows l w ∨ ns.head?.any Node.isList = true ∧ Awaits l w) :
    Shows (l ∨ (w.margin ≠ [] ∧ Adjoining Node.isList ns) ∨ ∃ n ∈ allNodes ns, n.Crowded)
      (writeNodes inItem ns w) := by
  cases ns with
  | nil =>
      refine (h.resolve_right (by simp)).congr ?_
      simp [not_adjoining_nil, allNodes]
  | cons node rest =>
      have hfirst := writeNode_shows inItem node (fun l hl => hleaves l (List.mem_append_left _ hl))
        (fun n hn => hregular n (List.mem_append_left _ hn)) hitem (by simpa using h)
      -- The surroundings are the same behind the node, and behind its separator.
      have hmargin : ∀ beforeList, (writeNode inItem beforeList node w).margin = w.margin := fun beforeList =>
        writeNode_margin inItem beforeList node w fun n hn => (hregular n (List.mem_append_left _ hn)).narrow
      have hloose' : ∀ beforeList, (writeNode inItem beforeList node w).margin = [] →
          (writeNode inItem beforeList node w).tight = false := by
        intro beforeList hnil
        rw [hmargin] at hnil
        cases inItem with
        | true => exact absurd hnil (hitem rfl)
        | false => exact writeNode_tight beforeList node (hloose hnil)
      have hrest := fun beforeList l' => @writeNodes_shows inItem rest l' (writeNode inItem beforeList node w)
        (fun l hl => hleaves l (List.mem_append_right _ hl)) (fun n hn => hregular n (List.mem_append_right _ hn))
        (fun hin => by rw [hmargin]; exact hitem hin) (hloose' beforeList)
      rw [writeNodes]
      by_cases hboth : node.isList = true ∧ rest.head?.any Node.isList = true
      · -- A separator comes in, and the next list settles whether it stays.
        have hseparate := hfirst.separate (hloose' false)
        have heq : writeNode inItem (rest.head?.any Node.isList) node w = separate (writeNode inItem false node w) := by
          rw [writeNode_eq, hboth.1, hboth.2]
          rfl
        rw [← heq, hmargin] at hseparate
        refine (hrest _ _ (.inr ⟨hboth.2, hseparate⟩)).congr ?_
        simp only [hmargin, adjoining_cons, hboth, and_self, true_or, and_true, allNodes, List.mem_append,
          or_and_right, exists_or]
        have hassoc : ∀ a b c d e : Prop, (((a ∨ b) ∨ c) ∨ c ∧ d ∨ e) ↔ a ∨ c ∨ b ∨ e := by
          grind
        exact hassoc _ _ _ _ _
      · have heq : writeNode inItem (rest.head?.any Node.isList) node w = writeNode inItem false node w := by
          rw [writeNode_eq, if_neg (by simpa using hboth)]
        refine (hrest _ _ (.inl (heq ▸ hfirst))).congr ?_
        simp only [hmargin, adjoining_cons, hboth, false_or, allNodes, List.mem_append, or_and_right, exists_or]
        have hassoc : ∀ a b c d : Prop, ((a ∨ b) ∨ c ∨ d) ↔ a ∨ c ∨ b ∨ d := by
          grind
        exact hassoc _ _ _ _

/-- Writing the items of a list shows a separator when two lists adjoin in one of them, or some node is
crowded. -/
theorem writeItems_shows (number : Option Nat) (items : List (List Node)) {l : Prop} {w : Writer}
    (hleaves : ∀ l ∈ nodeItemsLeaves items, l.Uncommented) (hregular : ∀ n ∈ allItemNodes items, n.Regular)
    (h : Shows l w ∨ items ≠ [] ∧ Awaits l w) :
    Shows (l ∨ (∃ item ∈ items, Adjoining Node.isList item) ∨ ∃ n ∈ allItemNodes items, n.Crowded)
      (writeItems number items w) := by
  cases items with
  | nil =>
      refine (h.resolve_right (by simp)).congr ?_
      simp [allItemNodes]
  | cons item rest =>
      have hmark : Shows l (w.mark (itemMarker number)) := by
        rcases h with h | ⟨-, h⟩
        · exact h.mark (isMark_itemMarker number)
        · exact h.mark (isMark_itemMarker number)
      have hspaces : IsMargin (List.replicate (itemMarker number).length ' ') := fun c hc =>
        .inl (List.eq_of_mem_replicate hc)
      have hmargin :
          ((w.mark (itemMarker number)).indent (List.replicate (itemMarker number).length ' ')).margin ≠ [] := by
        obtain ⟨c, t, ht, -⟩ := isMark_itemMarker number
        simp [indent, ht, List.replicate_succ]
      have hbody := writeNodes_shows true item (fun l hl => hleaves l (List.mem_append_left _ hl))
        (fun n hn => hregular n (List.mem_append_left _ hn)) (fun _ => hmargin) (fun hnil => absurd hnil hmargin)
        (.inl (hmark.indent hspaces))
      have hrest := writeItems_shows (number.map (· + 1)) rest (fun l hl => hleaves l (List.mem_append_right _ hl))
        (fun n hn => hregular n (List.mem_append_right _ hn))
        (.inl (hbody.outdent (itemMarker (number.map (· + 1))).length).oweBreak)
      rw [writeItems]
      refine hrest.congr ?_
      simp only [allItemNodes, List.exists_mem_cons_iff, List.mem_append, or_and_right, exists_or, hmargin, ne_eq,
        not_false_eq_true, true_and]
      rw [or_assoc, or_or_or_comm]

end

end CribSheet.Markdown
