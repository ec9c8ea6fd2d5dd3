/-
Headings on one line.

A heading is written as one line: line breaks in its texts become blanks, and so do the line breaks that stand
in it directly.  A line break that stands deeper, in emphasized text, is written as it is everywhere else, and
so is the line break of a formula or of an address between angle brackets; nothing else tears the line.  What
tears it may be a line break that is only owed yet, since the mark that closes the emphasis pays it.

Main definitions:

* `CribSheet.Inline.keepsLine` — an inline that is written on one line;
* `CribSheet.Markdown.IsLine` — a text of one line;
* `CribSheet.Markdown.Torn` — a line break is written or owed;
* `CribSheet.Markdown.Heads` — a heading is being written, and when its line is torn;
* `CribSheet.Markdown.Within` — the text ends inside a line.

Main results:

* `CribSheet.Markdown.writeSpans_heads` — what tears the line of a heading;
* `CribSheet.Markdown.isLine_page_heading` — when a heading fills a page of one line;
* `CribSheet.Markdown.isLine_render_heading` — the same of a display tree.
-/
import CribSheet.Proofs.Markdown.Comment

set_option relaxedAutoImplicit false
set_option autoImplicit false

namespace CribSheet

open CribSheet.Markdown

/-! ### Inlines on one line -/

mutual

/-- **The inline is written on one line** inside a heading: it holds no line break for the reader, no formula
with a line break, and no address with one between angle brackets. -/
def Inline.keepsLine : Inline → Bool
  | .text _ => true
  | .strong children => inlinesKeepLine children
  | .emphasis children => inlinesKeepLine children
  | .math body => !body.trim.contains '\n'
  | .link url => !(isPlainLink url && url.contains '\n')
  | .lineBreak => false

/-- All of some inlines are written on one line. -/
def inlinesKeepLine : List Inline → Bool
  | [] => true
  | i :: rest => i.keepsLine && inlinesKeepLine rest

end

namespace Markdown

open Writer Opening

mutual

/-- The span is written on one line. -/
def Span.keepsLine : Span → Bool
  | .text _ => true
  | .softBreak => true
  | .hardBreak => false
  | .strong children => spansKeepLine children
  | .emphasis children => spansKeepLine children
  | .math _ body => !body.contains '\n'
  | .link url => !(isPlainLink url && url.contains '\n')

/-- All of some spans are written on one line. -/
def spansKeepLine : List Span → Bool
  | [] => true
  | s :: rest => s.keepsLine && spansKeepLine rest

end

theorem spansKeepLine_append (ss ss' : List Span) :
    spansKeepLine (ss ++ ss') = (spansKeepLine ss && spansKeepLine ss') := by
  induction ss with
  | nil => rfl
  | cons s ss ih => rw [List.cons_append, spansKeepLine, spansKeepLine, ih, Bool.and_assoc]

theorem spansKeepLine_of_forall {ss : List Span} (h : ∀ s ∈ ss, s.keepsLine = true) : spansKeepLine ss = true := by
  induction ss with
  | nil => rfl
  | cons s ss ih =>
      rw [spansKeepLine, h s List.mem_cons_self, ih fun s hs => h s (List.mem_cons_of_mem _ hs)]
      rfl

@[simp] theorem spansKeepLine_ofText (t : Text) : spansKeepLine (Span.ofText t) = true := by
  refine spansKeepLine_of_forall fun s hs => ?_
  obtain rfl | ⟨t, rfl⟩ := mem_ofLines hs <;> rfl

mutual

theorem spansKeepLine_ofInline : (i : Inline) → spansKeepLine (Span.ofInline i) = i.keepsLine
  | .text t => by rw [Span.ofInline, spansKeepLine_ofText, Inline.keepsLine]
  | .strong children => by
    simp [Span.ofInline, spansKeepLine, Span.keepsLine, Inline.keepsLine, spansKeepLine_ofInlines children]
  | .emphasis children => by
    simp [Span.ofInline, spansKeepLine, Span.keepsLine, Inline.keepsLine, spansKeepLine_ofInlines children]
  | .math body => by simp [Span.ofInline, spansKeepLine, Span.keepsLine, Inline.keepsLine]
  | .link url => by simp [Span.ofInline, spansKeepLine, Span.keepsLine, Inline.keepsLine]
  | .lineBreak => by simp [Span.ofInline, spansKeepLine, Span.keepsLine, Inline.keepsLine]

/-- The spans of some inlines are written on one line when these are. -/
theorem spansKeepLine_ofInlines : (is : List Inline) → spansKeepLine (Span.ofInlines is) = inlinesKeepLine is
  | [] => rfl
  | i :: rest => by
    rw [Span.ofInlines, spansKeepLine_append, spansKeepLine_ofInline i, spansKeepLine_ofInlines rest, inlinesKeepLine]

end

/-- The line breaks that stand in a heading directly do not count. -/
theorem inlinesKeepLine_flattenBreaks {content : List Inline} :
    inlinesKeepLine (content.map flattenBreaks) = true ↔ ∀ i ∈ content, isBreak i = true ∨ i.keepsLine = true := by
  induction content with
  | nil => simp [inlinesKeepLine]
  | cons i rest ih =>
      rw [List.map_cons, inlinesKeepLine, Bool.and_eq_true, ih, List.forall_mem_cons]
      cases i <;> simp [flattenBreaks, isBreak, Inline.keepsLine]

/-- A heading directly holds no line break for the reader. -/
theorem ne_hardBreak_of_flattenBreaks {content : List Inline} {s : Span}
    (hs : s ∈ Span.ofInlines (content.map flattenBreaks)) : s ≠ .hardBreak := by
  induction content with
  | nil => simp [Span.ofInlines] at hs
  | cons i rest ih =>
      rw [List.map_cons, Span.ofInlines, List.mem_append] at hs
      rcases hs with hs | hs
      · cases i with
        | text | lineBreak =>
            obtain rfl | ⟨t, rfl⟩ := mem_ofLines hs <;> simp
        | strong | emphasis | math | link =>
            obtain rfl := List.mem_singleton.1 hs
            simp
      · exact ih hs

/-! ### What is written without a margin -/

section Written

variable {w : Writer}

theorem written_startLine (hmargin : w.margin = []) : w.startLine.written = w.written := by
  unfold Writer.startLine
  split <;> simp [hmargin]

theorem written_literalChars (hmargin : w.margin = []) (t : Text) :
    (t.foldl Writer.literalChar w).written = t.reverse ++ w.written := by
  induction t generalizing w with
  | nil => rfl
  | cons c t ih =>
      have hchar : (w.literalChar c).written = c :: w.written := by
        have htext := text_literalChar w c
        rw [Writer.text, Writer.text, written_startLine hmargin] at htext
        simpa using congrArg List.reverse htext
      rw [List.foldl_cons, ih ((Frame.literalChar w c).margin.trans hmargin), hchar, List.reverse_cons,
        List.append_assoc, List.singleton_append]

theorem written_literal (hmargin : w.margin = []) (t : Text) :
    (w.literal t).written = t.reverse ++ w.settle.written :=
  written_literalChars (w := w.settle) hmargin t

/-- **Characters were written**, none of them a line break. -/
def Continues (w w' : Writer) : Prop := ∃ x, '\n' ∉ x ∧ w'.written = x ++ w.written ∧ w'.owed = w.owed

theorem Continues.trans {w w' w'' : Writer} (h : Continues w w') (h' : Continues w' w'') : Continues w w'' := by
  obtain ⟨x, hx, heq, howed⟩ := h
  obtain ⟨y, hy, heq', howed'⟩ := h'
  refine ⟨y ++ x, ?_, by rw [heq', heq, List.append_assoc], howed'.trans howed⟩
  rw [List.mem_append, not_or]
  exact ⟨hy, hx⟩

theorem Continues.owed {w w' : Writer} (h : Continues w w') : w'.owed = w.owed := by
  obtain ⟨-, -, -, howed⟩ := h
  exact howed

theorem continues_startLine (hmargin : w.margin = []) : Continues w w.startLine :=
  ⟨[], List.not_mem_nil, written_startLine hmargin, by unfold Writer.startLine; split <;> rfl⟩

theorem continues_put {t : Text} (ht : '\n' ∉ t) (w : Writer) : Continues w (w.put t) :=
  ⟨t.reverse, by simpa using ht, rfl, rfl⟩

/-- A character of prose is no line break: it has a reference of its own. -/
theorem continues_proseChar (hmargin : w.margin = []) (howed : w.owed = 0) (c next : Char) :
    Continues w (w.proseChar c next) := by
  have hstart := continues_startLine hmargin
  have hmargin' : w.startLine.margin = [] := (Frame.startLine w).margin.trans hmargin
  have hzero : w.startLine.owed = 0 := hstart.owed.trans howed
  refine hstart.trans ?_
  unfold Writer.proseChar
  simp only
  split
  · split
    · next hcontrol =>
        have hplain := (reference_clear hcontrol).2
        refine ⟨(reference c).reverse, ?_, ?_, ?_⟩
        · exact fun hmem => hplain _ (List.mem_reverse.1 hmem) (by decide)
        · rw [Writer.note, written_literal hmargin', settle_eq_self hzero]
        · rw [Writer.note, owed_literal, hzero]
    · next hcontrol =>
        have hc : '\n' ≠ c := by rintro rfl; exact hcontrol (by decide)
        exact continues_put (t := ['\\', c]) (by simp [hc]) w.startLine
  · next hescapes =>
      have hc : '\n' ≠ c := by rintro rfl; exact hescapes (by simp [escapesProse])
      exact continues_put (t := [c]) (by simp [hc]) w.startLine

theorem continues_proseChars (hmargin : w.margin = []) (howed : w.owed = 0) (t : Text) :
    Continues w (Writer.proseChars t w) := by
  fun_induction Writer.proseChars t w with
  | case1 w => exact ⟨[], List.not_mem_nil, rfl, rfl⟩
  | case2 c w => exact continues_proseChar hmargin howed c '\x00'
  | case3 c d t w ih =>
      have hfirst : Continues w (w.proseChar c d) := continues_proseChar hmargin howed c d
      have howed' : (w.proseChar c d).owed = w.owed := hfirst.owed
      exact hfirst.trans (ih ((Frame.proseChar w c d).margin.trans hmargin) (howed'.trans howed))

/-- A character of an address is no line break: a percent sign and a code stand for it. -/
theorem newline_not_mem_addressForm (c : Char) : '\n' ∉ addressForm c := by
  unfold addressForm
  split
  · split
    · unfold percent
      repeat' split
      all_goals decide
    · next hspace =>
        have hc : '\n' ≠ c := by rintro rfl; exact hspace (by decide)
        simp [hc]
  · next hescapes =>
      have hc : '\n' ≠ c := by rintro rfl; exact hescapes (by decide)
      simp [hc]

theorem continues_addressChar (hmargin : w.margin = []) (c : Char) : Continues w (w.addressChar c) := by
  rw [addressChar_eq]
  exact (continues_startLine hmargin).trans (continues_put (newline_not_mem_addressForm c) w.startLine)

theorem continues_addressChars (hmargin : w.margin = []) (t : Text) :
    Continues w (t.foldl Writer.addressChar w) := by
  induction t generalizing w with
  | nil => exact ⟨[], List.not_mem_nil, rfl, rfl⟩
  | cons c t ih =>
      exact (continues_addressChar hmargin c).trans (ih ((Frame.addressChar w c).margin.trans hmargin))

end Written

/-! ### Torn lines -/

/-- **The line is torn**: a line break is written, or owed. -/
def Torn (w : Writer) : Prop := '\n' ∈ w.written ∨ 1 ≤ w.owed

/-- Behind some text, owed line breaks are written. -/
theorem mem_payBreaks_iff {owed : Nat} {written : Text} (hne : written ≠ []) :
    '\n' ∈ payBreaks [] owed written written ↔ '\n' ∈ written ∨ 1 ≤ owed := by
  have hgrows : ∀ owed back (t : Text), '\n' ∈ t → '\n' ∈ payBreaks [] owed back t := by
    intro owed back t ht
    obtain ⟨gap, -, heq, -⟩ := @exists_payBreaks [] (by simp [Filler]) owed back t
    rw [heq]
    exact List.mem_append_right _ ht
  cases owed with
  | zero => simp [payBreaks]
  | succ owed =>
      obtain ⟨c, back, rfl⟩ := List.exists_cons_of_ne_nil hne
      refine iff_of_true ?_ (.inr (by omega))
      rw [payBreaks]
      split
      · next hc => exact hgrows _ _ _ (by simp [hc])
      · exact hgrows _ _ _ (by simp)

/-- **A heading is being written**: some of it is, without a margin, and its line is torn when `l` holds. -/
structure Heads (l : Prop) (w : Writer) : Prop where
  /-- There is no margin. -/
  margin : w.margin = []
  /-- Line breaks of the source become blanks. -/
  oneLine : w.oneLine = true
  /-- Something is written. -/
  started : w.written ≠ []
  /-- When the line is torn. -/
  torn : Torn w ↔ l

namespace Heads

variable {l l' : Prop} {w w' : Writer}

theorem congr (h : Heads l w) (hl : l ↔ l') : Heads l' w := ⟨h.margin, h.oneLine, h.started, h.torn.trans hl⟩

/-- Owed line breaks are written behind the text. -/
theorem mem_settle (h : Heads l w) : '\n' ∈ w.settle.written ↔ l := by
  rw [← h.torn, Writer.settle, h.margin]
  refine (mem_payBreaks_iff h.started).trans (or_congr_right ?_)
  split <;> omega

theorem settle (h : Heads l w) : Heads l w.settle where
  margin := h.margin
  oneLine := h.oneLine
  started := by
    obtain ⟨gap, -, heq, -⟩ := @exists_payBreaks w.margin (by simp [h.margin, Filler])
      (if w.tight then min w.owed 1 else w.owed) w.written w.written
    rw [Writer.settle, heq]
    exact List.append_ne_nil_of_right_ne_nil _ h.started
  torn := (or_iff_left (by simp [Writer.settle])).trans h.mem_settle

/-- Characters that are no line breaks leave the line as it is. -/
theorem continues (h : Heads l w) (hframe : Frame w w') (hw : Continues w w') : Heads l w' where
  margin := hframe.margin.trans h.margin
  oneLine := hframe.oneLine.trans h.oneLine
  started := by
    obtain ⟨x, -, heq, -⟩ := hw
    rw [heq]
    exact List.append_ne_nil_of_right_ne_nil _ h.started
  torn := by
    obtain ⟨x, hx, heq, howed⟩ := hw
    rw [← h.torn, Torn, Torn, heq, howed, List.mem_append, or_iff_right hx]

/-- **Text as it is** tears the line when it holds a line break. -/
theorem literal (h : Heads l w) (t : Text) : Heads (l ∨ '\n' ∈ t) (w.literal t) where
  margin := (Frame.literal t w).margin.trans h.margin
  oneLine := (Frame.literal t w).oneLine.trans h.oneLine
  started := by
    rw [written_literal h.margin]
    exact List.append_ne_nil_of_right_ne_nil _ h.settle.started
  torn := by
    rw [Torn, owed_literal, written_literal h.margin, List.mem_append, h.mem_settle, List.mem_reverse]
    simp [or_comm]

/-- Marks leave the line as it is. -/
theorem literal_line (h : Heads l w) {t : Text} (ht : '\n' ∉ t) : Heads l (w.literal t) :=
  (h.literal t).congr (or_iff_left ht)

theorem prose (h : Heads l w) (t : Text) : Heads l (w.prose t) :=
  h.settle.continues (.proseChars t _) (continues_proseChars h.settle.margin rfl t)

theorem address (h : Heads l w) (t : Text) : Heads l (w.address t) :=
  h.settle.continues (.addressChars t _) (continues_addressChars h.settle.margin t)

theorem oweBreak (h : Heads l w) : Heads True w.oweBreak :=
  ⟨h.margin, h.oneLine, h.started, iff_true_intro (.inr (Nat.le_max_right ..))⟩

end Heads

/-! ### Running text -/

mutual

theorem writeSpan_heads (holder : Holder) (alone last : Bool) (s : Span) {l : Prop} {w : Writer} (h : Heads l w) :
    Heads (l ∨ s.keepsLine = false) (writeSpan holder alone last s w) := by
  cases s with
  | text t => exact (h.prose t).congr (by simp [Span.keepsLine])
  | softBreak =>
      rw [writeSpan, if_pos h.oneLine]
      exact (h.literal_line (by decide)).congr (by simp [Span.keepsLine])
  | hardBreak =>
      have htorn : True ↔ l ∨ Span.hardBreak.keepsLine = false := iff_of_true trivial (.inr rfl)
      rw [writeSpan]
      split
      · exact h.oweBreak.congr htorn
      · exact (h.literal ['\\']).oweBreak.congr htorn
  | strong children =>
      have hfence : ∀ {l : Prop} {w : Writer}, Heads l w →
          Heads l (if holder = .strong then w else w.literal ['*', '*']) := by
        intro l w h
        split
        · exact h
        · exact h.literal_line (by decide)
      exact hfence (writeSpans_heads .strong children.length children (hfence h))
  | emphasis children =>
      have hfence : '\n' ∉ if holder = .emphasis ∧ alone then ['_'] else ['*'] := by split <;> decide
      exact (writeSpans_heads .emphasis children.length children (h.literal_line hfence)).literal_line hfence
  | math display body =>
      have hfence : '\n' ∉ if display then ['$', '$'] else ['$'] := by split <;> decide
      exact (((h.literal_line hfence).literal body).literal_line hfence).congr (by simp [Span.keepsLine])
  | link url =>
      rw [writeSpan]
      split
      · next hplain =>
          refine (h.literal _).congr ?_
          simp [Span.keepsLine, hplain]
      · next hplain =>
          have htext := (h.literal_line (t := ['[']) (by decide)).prose url
          have htarget := ((htext.literal_line (t := [']', '(']) (by decide)).address url).literal_line
            (t := [')']) (by decide)
          exact htarget.congr (by simp [Span.keepsLine, hplain])

/-- **What tears the line of a heading**: a span that is not written on one line. -/
theorem writeSpans_heads (holder : Holder) (count : Nat) (ss : List Span) {l : Prop} {w : Writer} (h : Heads l w) :
    Heads (l ∨ spansKeepLine ss = false) (writeSpans holder count ss w) := by
  cases ss with
  | nil => exact h.congr (by simp [spansKeepLine])
  | cons s rest =>
      have hs := writeSpan_heads holder (count == 1) rest.isEmpty s h
      rw [writeSpans]
      refine (writeSpans_heads holder count rest hs).congr ?_
      rw [spansKeepLine, Bool.and_eq_false_iff, or_assoc]

end

/-! ### The end of a heading -/

/-- The text ends inside a line, and nothing is owed. -/
structure Within (w : Writer) : Prop where
  /-- Nothing is owed. -/
  owed : w.owed = 0
  /-- The last character is no line break. -/
  last : w.written.head? ≠ some '\n'

section Within

variable {w w' : Writer}

theorem Within.continues (h : Within w) (hw : Continues w w') : Within w' where
  owed := hw.owed.trans h.owed
  last := by
    obtain ⟨x, hx, heq, -⟩ := hw
    rw [heq]
    cases x with
    | nil => exact h.last
    | cons c x =>
        rw [List.cons_append, List.head?_cons, Ne, Option.some.injEq]
        rintro rfl
        exact hx List.mem_cons_self

/-- Text as it is leaves nothing owed. -/
theorem within_literal (hmargin : w.margin = []) {t : Text} (hne : t ≠ []) (hlast : t.getLast? ≠ some '\n') :
    Within (w.literal t) where
  owed := owed_literal t w
  last := by
    rwa [written_literal hmargin, List.head?_append_of_ne_nil _ (by simpa using hne), List.head?_reverse]

end Within

/-- A span that stands in a heading directly is closed on the line on which it ends, a line break for the reader
apart. -/
theorem Within.writeSpan {w : Writer} {l : Prop} (h : Within w) (hheads : Heads l w) (alone last : Bool) {s : Span}
    (hs : s ≠ .hardBreak) : Within (writeSpan .block alone last s w) := by
  cases s with
  | text t =>
      rw [Markdown.writeSpan, prose, settle_eq_self h.owed]
      exact h.continues (continues_proseChars hheads.margin h.owed t)
  | softBreak =>
      rw [Markdown.writeSpan, if_pos hheads.oneLine]
      exact within_literal hheads.margin (by decide) (by decide)
  | hardBreak => exact absurd rfl hs
  | strong children =>
      have hopen := hheads.literal_line (t := ['*', '*']) (by decide)
      rw [Markdown.writeSpan]
      exact within_literal (writeSpans_heads .strong children.length children hopen).margin (by decide) (by decide)
  | emphasis children =>
      have hopen := hheads.literal (if Holder.block = .emphasis ∧ alone then ['_'] else ['*'])
      have hchildren := writeSpans_heads .emphasis children.length children hopen
      rw [Markdown.writeSpan]
      refine within_literal hchildren.margin ?_ ?_ <;> split <;> decide
  | math display body =>
      have hbody := (hheads.literal (if display then ['$', '$'] else ['$'])).literal body
      rw [Markdown.writeSpan]
      refine within_literal hbody.margin ?_ ?_ <;> cases display <;> decide
  | link url =>
      rw [Markdown.writeSpan]
      split
      · exact within_literal hheads.margin (by simp) (by simp [List.getLast?_cons])
      · have htarget := (((hheads.literal ['[']).prose url).literal [']', '(']).address url
        exact within_literal htarget.margin (by decide) (by decide)

theorem Within.writeSpans {w : Writer} {l : Prop} (h : Within w) (hheads : Heads l w) (count : Nat) {ss : List Span}
    (hss : ∀ s ∈ ss, s ≠ .hardBreak) : Within (writeSpans .block count ss w) := by
  induction ss generalizing w l with
  | nil => exact h
  | cons s rest ih =>
      rw [Markdown.writeSpans]
      exact ih (h.writeSpan hheads _ _ (hss s List.mem_cons_self)) (writeSpan_heads .block _ _ s hheads)
        fun s hs => hss s (List.mem_cons_of_mem _ hs)

/-! ### Pages -/

/-- **The text is one line**, closed by a line break. -/
def IsLine (t : Text) : Prop := ∃ line, '\n' ∉ line ∧ t = line ++ ['\n']

theorem isLine_iff {t : Text} : IsLine t ↔ t.getLast? = some '\n' ∧ '\n' ∉ t.dropLast := by
  constructor
  · rintro ⟨line, hline, rfl⟩
    simpa using hline
  · rintro ⟨hlast, hline⟩
    exact ⟨t.dropLast, hline, (List.dropLast_append_getLast? _ hlast).symm⟩

instance (t : Text) : Decidable (IsLine t) := decidable_of_iff _ isLine_iff.symm

theorem isLine_append_break {t : Text} : IsLine (t ++ ['\n']) ↔ '\n' ∉ t := by
  constructor
  · rintro ⟨line, hline, heq⟩
    rwa [List.append_cancel_right heq]
  · exact fun ht => ⟨t, ht, rfl⟩

/-- A page whose text does not end with a line break gets one. -/
theorem page_eq_append_break {nodes : List Node} (hne : (writeNodes false nodes {}).written ≠ [])
    (hlast : (writeNodes false nodes {}).written.head? ≠ some '\n') :
    page nodes = (writeNodes false nodes {}).text ++ ['\n'] := by
  refine if_neg ?_
  rintro (hnil | hbreak)
  · exact hne (List.reverse_eq_nil_iff.1 hnil)
  · rw [Text.endsWith, Writer.text, List.getLast?_reverse, Option.any_eq_true] at hbreak
    obtain ⟨c, hc, hbreak⟩ := hbreak
    rw [eq_of_beq hbreak] at hc
    exact hlast hc

/-- The mark of a heading is written. -/
def marked (level : Nat) : Writer := { Writer.mark (List.replicate level '#' ++ [' ']) {} with oneLine := true }

theorem written_marked (level : Nat) : (marked level).written = (List.replicate level '#' ++ [' ']).reverse := by
  have hliteral := written_literal (w := {}) rfl (List.replicate level '#' ++ [' '])
  rwa [show Writer.settle {} = {} from rfl, List.append_nil] at hliteral

theorem owed_marked (level : Nat) : (marked level).owed = 0 := owed_literal (List.replicate level '#' ++ [' ']) {}

theorem heads_marked (level : Nat) : Heads False (marked level) where
  margin := (Frame.mark _ {}).margin
  oneLine := rfl
  started := by simp [written_marked]
  torn := by simp [Torn, written_marked, owed_marked]

theorem within_marked (level : Nat) : Within (marked level) := ⟨owed_marked level, by simp [written_marked]⟩

/-- What is written of a heading, without the line break behind it. -/
theorem written_writeNodes_heading (level : Nat) (content : List Span) :
    (writeNodes false [.heading level content] {}).written =
      (writeSpans .block content.length content (marked level)).written := by
  rw [writeNodes, writeNodes, writeNode]
  rfl

theorem page_heading (level : Nat) {content : List Span} (hcontent : ∀ s ∈ content, s ≠ .hardBreak) :
    page [.heading level content] = (writeSpans .block content.length content (marked level)).text ++ ['\n'] := by
  have hwritten := written_writeNodes_heading level content
  have hheads := writeSpans_heads .block content.length content (heads_marked level)
  have hend := (within_marked level).writeSpans (heads_marked level) content.length hcontent
  rw [page_eq_append_break (hwritten ▸ hheads.started) (hwritten ▸ hend.last), Writer.text, hwritten, Writer.text]

/-- **When a heading fills a page of one line.** -/
theorem isLine_page_heading (level : Nat) {content : List Span} (hcontent : ∀ s ∈ content, s ≠ .hardBreak) :
    IsLine (page [.heading level content]) ↔ spansKeepLine content = true := by
  have hheads := writeSpans_heads .block content.length content (heads_marked level)
  have hend := (within_marked level).writeSpans (heads_marked level) content.length hcontent
  have htorn := hheads.torn
  rw [Torn, hend.owed, or_iff_left (by omega), false_or] at htorn
  rw [page_heading level hcontent, isLine_append_break, Writer.text, List.mem_reverse, htorn, Bool.not_eq_false]

/-! ### Display trees -/

theorem render_eq_page {blocks : List Block} (h : ¬ separatorLine <:+: page (Node.ofBlocks blocks)) :
    render blocks = page (Node.ofBlocks blocks) := by
  rw [render, ← separatorLine]
  exact Text.replaceAll_eq_self h

/-- A separator that is taken out has two line breaks behind it. -/
theorem IsLine.not_separatorLine {t : Text} (h : IsLine t) : ¬ separatorLine <:+: t := by
  obtain ⟨line, hline, rfl⟩ := h
  intro hseparator
  have hle := hseparator.sublist.count_le '\n'
  rw [List.count_append, List.count_eq_zero_of_not_mem hline] at hle
  exact absurd hle (by decide)

/-- A text with a free end holds no separator. -/
theorem not_separatorLine_of_free {t : Text} (h : (clear.after t).Free) : ¬ separatorLine <:+: t := fun hseparator =>
  have hstart : commentStart <:+: separatorLine :=
    (commentStart_isPrefix_listSeparator.trans (List.prefix_append ..)).isInfix
  h.ne_comment (after_of_isInfix (hstart.trans hseparator))

/-- A page with a heading holds no separator, unless a formula or an address does. -/
theorem not_separatorLine_page_heading (level : Nat) {content : List Span} (hcontent : ∀ s ∈ content, s ≠ .hardBreak)
    (hleaves : ∀ l ∈ spansLeaves content, l.Uncommented) : ¬ separatorLine <:+: page [.heading level content] := by
  have hmargin : Filler (marked level).margin := by simp [(heads_marked level).margin, Filler]
  obtain ⟨x, htext, hx⟩ := writeSpans_writes .block content.length content hmargin hleaves
  have hmark : clear.after (marked level).text = clear := by
    rw [Writer.text, written_marked, List.reverse_reverse]
    refine after_plain fun c hc => ?_
    rcases List.mem_append.1 hc with hc | hc
    · rw [List.eq_of_mem_replicate hc]
      decide
    · rw [List.mem_singleton.1 hc]
      decide
  have hfree : (clear.after (page [.heading level content])).Free := by
    rw [page_heading level hcontent, htext, after_append, after_append, hmark]
    exact (hx clear (.inl rfl)).next (by decide)
  exact not_separatorLine_of_free hfree

/-- **A heading is one line** if what it holds is written on one line, line breaks for the reader apart that
stand in it directly; without a start of a comment in its formulas and addresses also only if. -/
theorem isLine_render_heading (level : Nat) (content : List Inline) :
    ((∀ i ∈ content, isBreak i = true ∨ i.keepsLine = true) → IsLine (render [.heading level content])) ∧
      ((∀ l ∈ inlinesLeaves content, l.Uncommented) → IsLine (render [.heading level content]) →
        ∀ i ∈ content, isBreak i = true ∨ i.keepsLine = true) := by
  have hbreaks : ∀ s ∈ Span.ofInlines (content.map flattenBreaks), s ≠ .hardBreak := fun _ =>
    ne_hardBreak_of_flattenBreaks
  have hpage : IsLine (page (Node.ofBlocks [.heading level content])) ↔
      ∀ i ∈ content, isBreak i = true ∨ i.keepsLine = true := by
    rw [← inlinesKeepLine_flattenBreaks, ← spansKeepLine_ofInlines]
    exact isLine_page_heading _ hbreaks
  constructor
  · intro hcontent
    have hline := hpage.2 hcontent
    rwa [render_eq_page hline.not_separatorLine]
  · intro hleaves hline
    have hspans := forall_leaves_ofInlines Leaf.inherited_uncommented _
      (forall_leaves_flattenBreaks Leaf.inherited_uncommented hleaves)
    have hseparator : ¬ separatorLine <:+: page (Node.ofBlocks [.heading level content]) :=
      not_separatorLine_page_heading _ hbreaks hspans
    rw [render_eq_page hseparator] at hline
    exact hpage.1 hline

/-- Line breaks of the source are written on one line at any depth, those for the reader only outside of
emphasis. -/
theorem isLine_render_heading_of_strong :
    let content := [Inline.strong [.text ['a', '\n', 'b'], .emphasis [.math ['\n', 'x']]], .lineBreak, .link ['u']]
    (∀ i ∈ content, isBreak i = true ∨ i.keepsLine = true) ∧ IsLine (render [.heading 2 content]) := by
  intro content
  have hcontent : ∀ i ∈ content, isBreak i = true ∨ i.keepsLine = true := by decide +kernel
  exact ⟨hcontent, (isLine_render_heading 2 content).1 hcontent⟩

/-- **A line break in strong emphasis tears a heading.** -/
theorem not_isLine_render_heading_of_break :
    let heading := Block.heading 3 [.strong [.text ['a'], .lineBreak, .text ['b']]]
    render [heading] = ['#', '#', '#', ' ', '*', '*', 'a', '\\', '\n', 'b', '*', '*', '\n'] ∧
      ¬ IsLine (render [heading]) := by
  decide +kernel

end Markdown

end CribSheet
