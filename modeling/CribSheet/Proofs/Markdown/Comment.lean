/-
Running text begins no comment.

Prose escapes angle brackets and exclamation marks, and an address its angle brackets; formulas and plain
addresses are written as they are.  So where these hold no start of a comment, the text that is written
for some spans begins none either, whatever stands in front of it, as long as the end there is free.

Main definitions:

* `CribSheet.Markdown.Writes` — what writing does to the end of the text;
* `CribSheet.Markdown.Leaf.Uncommented` — a formula or an address without a start of a comment.

Main results:

* `CribSheet.Markdown.writeSpans_writes` — running text leaves a free end free.
-/
import CribSheet.Proofs.Markdown.Frame
import CribSheet.Proofs.Markdown.Leaves
import CribSheet.Proofs.Markdown.Separator

set_option relaxedAutoImplicit false
set_option autoImplicit false

namespace CribSheet.Markdown

open Writer Opening

/-! ### Writing and the end of the text -/

/-- **Writing from `w` to `w'`** adds some text that makes an end with `P` one with `Q`. -/
def Writes (P Q : Opening → Prop) (w w' : Writer) : Prop :=
  ∃ x, w'.text = w.text ++ x ∧ ∀ s, P s → Q (s.after x)

namespace Writes

variable {P Q R : Opening → Prop} {w w' w'' : Writer}

/-- Nothing is written. -/
theorem of_written (h : w'.written = w.written) : Writes P P w w' :=
  ⟨[], by rw [Writer.text, h, List.append_nil, Writer.text], fun _ hs => hs⟩

theorem trans (h : Writes P Q w w') (h' : Writes Q R w' w'') : Writes P R w w'' := by
  obtain ⟨x, htext, hx⟩ := h
  obtain ⟨y, htext', hy⟩ := h'
  refine ⟨x ++ y, by rw [htext', htext, List.append_assoc], fun s hs => ?_⟩
  rw [after_append]
  exact hy _ (hx s hs)

theorem imp {P' Q' : Opening → Prop} (h : Writes P Q w w') (hP : ∀ s, P' s → P s) (hQ : ∀ s, Q s → Q' s) :
    Writes P' Q' w w' := by
  obtain ⟨x, htext, hx⟩ := h
  exact ⟨x, htext, fun s hs => hQ _ (hx s (hP s hs))⟩

/-- Some text is added to what is written. -/
theorem of_text {x : Text} (h : w'.text = w.text ++ x) (hx : ∀ s, P s → Q (s.after x)) : Writes P Q w w' :=
  ⟨x, h, hx⟩

/-- Noting a character writes nothing. -/
theorem note (h : Writes P Q w w') (c : Char) : Writes P Q w (note c w') := h.trans (.of_written rfl)

end Writes

/-- Filler leaves an end clear, and makes one clear. -/
theorem after_filler {x : Text} (hx : Filler x) {s : Opening} (hs : s ≠ comment) (h : x ≠ [] ∨ s = clear) :
    s.after x = clear := by
  induction x generalizing s with
  | nil => exact h.resolve_left (not_not.2 rfl)
  | cons c x ih =>
      have hc : c ∉ ['<', '!', '-'] := by
        rcases hx c List.mem_cons_self with rfl | rfl | rfl <;> decide
      rw [after_cons, next_clear hs hc]
      exact ih (fun d hd => hx d (List.mem_cons_of_mem c hd)) (by simp) (.inr rfl)

/-- An end may be passed through filler. -/
def Airy (P : Opening → Prop) : Prop := ∀ s, P s → s ≠ comment ∧ P clear

theorem Airy.filler {P : Opening → Prop} (hP : Airy P) {x : Text} (hx : Filler x) :
    ∀ s, P s → P (s.after x) := by
  intro s hs
  by_cases hnil : x = []
  · rwa [hnil, after_nil]
  · rw [after_filler hx (hP s hs).1 (.inl hnil)]
    exact (hP s hs).2

theorem airy_free : Airy Free := fun _ hs => ⟨hs.ne_comment, .inl rfl⟩

theorem airy_clear : Airy (· = clear) := fun s hs => ⟨by simp [hs], rfl⟩

theorem airy_ne_comment : Airy (· ≠ comment) := fun _ hs => ⟨hs, by simp⟩

section Pieces

variable {P Q : Opening → Prop} {w : Writer}

theorem writes_settle (hmargin : Filler w.margin) (hP : Airy P) : Writes P P w w.settle := by
  obtain ⟨gap, hgap, heq, -⟩ :=
    exists_payBreaks hmargin (if w.tight then min w.owed 1 else w.owed) w.written w.written
  refine .of_text (x := gap.reverse) ?_ (hP.filler fun c hc => hgap c (List.mem_reverse.1 hc))
  rw [Writer.text, Writer.settle, heq, List.reverse_append, Writer.text]

theorem writes_startLine (hmargin : Filler w.margin) (hP : Airy P) : Writes P P w w.startLine := by
  unfold Writer.startLine
  split
  · exact .of_text (x := w.margin) (by simp [Writer.text]) (hP.filler hmargin)
  · exact .of_written rfl

theorem text_literalChar (w : Writer) (c : Char) : (w.literalChar c).text = w.startLine.text ++ [c] := by
  unfold Writer.literalChar
  simp only [Writer.text]
  split <;> simp

/-- One more character as it is. -/
theorem Writes.literalChar {w' : Writer} {c : Char} (h : Writes P P w w'.startLine)
    (hc : ∀ s, P s → Q (s.next c)) : Writes P Q w (w'.literalChar c) :=
  h.trans (.of_text (text_literalChar w' c) hc)

theorem atLineStart_literalChar (w : Writer) (c : Char) : (w.literalChar c).atLineStart = (c == '\n') := by
  unfold Writer.literalChar
  simp only
  split <;> simp_all

/-- **Characters as they are** write themselves, and the margin behind line breaks. -/
theorem writes_literalChars {t : Text} (hmargin : Filler w.margin) {s : Opening}
    (hline : w.atLineStart = true → s = clear) (ht : s.after t ≠ comment) :
    Writes (· = s) (· = s.after t) w (t.foldl Writer.literalChar w) := by
  induction t generalizing w s with
  | nil => exact .of_written rfl
  | cons c t ih =>
      have hnext : s.next c ≠ comment := by
        intro hnext
        rw [after_cons, hnext, after_comment] at ht
        exact ht rfl
      have hs : s ≠ comment := by
        rintro rfl
        rw [after_comment] at ht
        exact ht rfl
      have hstart : Writes (· = s) (· = s) w w.startLine := by
        cases hstarts : w.atLineStart with
        | true =>
            obtain rfl := hline hstarts
            exact writes_startLine hmargin airy_clear
        | false =>
            refine .of_written ?_
            rw [Writer.startLine, hstarts]
            rfl
      have hchar : Writes (· = s) (· = s.next c) w (w.literalChar c) :=
        hstart.literalChar (by rintro _ rfl; rfl)
      refine hchar.trans (ih ?_ ?_ ht)
      · rwa [(Frame.literalChar w c).margin]
      · intro hbreak
        obtain rfl : c = '\n' := by simpa [atLineStart_literalChar] using hbreak
        exact next_clear hs (by decide)

/-- **Text as it is**, behind an end at which its first character always does the same. -/
theorem writes_literal {c : Char} {t : Text} (hmargin : Filler w.margin) (hP : Airy P) {s : Opening}
    (hc : ∀ s', P s' → s'.next c = s) (hbreak : c ≠ '\n') (ht : s.after t ≠ comment) :
    Writes P (· = s.after t) w (w.literal (c :: t)) := by
  have hstart : Writes P P w w.settle.startLine :=
    (writes_settle hmargin hP).trans (writes_startLine (w := w.settle) hmargin hP)
  have hfirst : Writes P (· = s) w (w.settle.literalChar c) := hstart.literalChar hc
  refine hfirst.trans (writes_literalChars ?_ ?_ ht)
  · exact ((Frame.settle w).trans (.literalChar _ c)).margin ▸ hmargin
  · intro hline
    rw [atLineStart_literalChar] at hline
    exact absurd (by simpa using hline) hbreak

theorem after_plain {t : Text} (ht : ∀ c ∈ t, c ∉ ['<', '!', '-']) : clear.after t = clear := by
  induction t with
  | nil => rfl
  | cons c t ih =>
      rw [after_cons, next_clear (by simp) (ht c List.mem_cons_self)]
      exact ih fun d hd => ht d (List.mem_cons_of_mem c hd)

/-- Text as it is that has nothing of the start of a comment clears the end. -/
theorem writes_literal_plain {t : Text} (hmargin : Filler w.margin) (hne : t ≠ [])
    (ht : ∀ c ∈ t, c ∉ ['<', '!', '-', '\n']) : Writes (· ≠ comment) (· = clear) w (w.literal t) := by
  obtain ⟨c, t, rfl⟩ := List.exists_cons_of_ne_nil hne
  have hplain : ∀ d ∈ c :: t, d ∉ ['<', '!', '-'] ∧ d ≠ '\n' := by
    intro d hd
    have hd := ht d hd
    simp only [List.mem_cons, List.not_mem_nil, or_false, not_or] at hd ⊢
    exact ⟨⟨hd.1, hd.2.1, hd.2.2.1⟩, hd.2.2.2⟩
  obtain ⟨hc, hbreak⟩ := hplain c List.mem_cons_self
  have hrest : clear.after t = clear := after_plain fun d hd => (hplain d (List.mem_cons_of_mem c hd)).1
  have hwrites := writes_literal (w := w) hmargin airy_ne_comment (fun _ hs => next_clear hs hc) hbreak
    (t := t) (by rw [hrest]; simp)
  rwa [hrest] at hwrites

/-- Marks and fences leave a free end free. -/
theorem writes_literal_free {t : Text} (hmargin : Filler w.margin) (hne : t ≠ [])
    (ht : ∀ c ∈ t, c ∉ ['<', '!', '-', '\n']) : Writes Free Free w (w.literal t) :=
  (writes_literal_plain hmargin hne ht).imp (fun _ => Free.ne_comment) fun _ hs => .inl hs

theorem owed_literalChars (t : Text) (w : Writer) : (t.foldl Writer.literalChar w).owed = w.owed := by
  induction t generalizing w with
  | nil => rfl
  | cons c t ih =>
      rw [List.foldl_cons, ih, Writer.literalChar, Writer.startLine]
      split <;> split <;> rfl

theorem owed_literal (t : Text) (w : Writer) : (w.literal t).owed = 0 := owed_literalChars t w.settle

/-- With nothing owed the characters come at once. -/
theorem literal_of_owed (h : w.owed = 0) (t : Text) : w.literal t = t.foldl Writer.literalChar w := by
  rw [literal, settle_eq_self h]

/-- The references of control characters have nothing of the start of a comment. -/
theorem reference_clear {c : Char} (hc : c.toNat < 32) :
    reference c ≠ [] ∧ ∀ d ∈ reference c, d ∉ ['<', '!', '-', '\n'] := by
  have hall : ∀ k : Fin 32, ∀ d ∈ '&' :: '#' :: (toString k.val).toList ++ [';'], d ∉ ['<', '!', '-', '\n'] := by
    decide
  exact ⟨by simp [reference], hall ⟨c.toNat, hc⟩⟩

/-! ### Prose -/

/-- **A character of prose** leaves a free end free. -/
theorem writes_proseChar (hmargin : Filler w.margin) (c next : Char) : Writes Free Free w (w.proseChar c next) := by
  refine (writes_startLine hmargin airy_free).trans ?_
  have hmargin' : Filler w.startLine.margin := (Frame.startLine w).margin ▸ hmargin
  unfold Writer.proseChar
  simp only
  refine Writes.note ?_ c
  cases hescapes : w.startLine.escapesProse c next with
  | false =>
      obtain ⟨-, hbang⟩ := ne_of_not_escapesProse hescapes
      exact .of_text (x := [c]) (by simp [put, Writer.text]) fun _ hs => hs.next hbang
  | true =>
      rw [if_pos rfl]
      split
      · next hcontrol =>
          obtain ⟨hne, hplain⟩ := reference_clear hcontrol
          exact writes_literal_free hmargin' hne hplain
      · refine .of_text (x := ['\\', c]) (by simp [put, Writer.text]) fun s hs => ?_
        rw [after_cons, hs.next_clear (by decide) (by decide)]
        by_cases hangle : c = '<' <;> simp [Opening.next, Free, hangle]

theorem writes_proseChars (hmargin : Filler w.margin) (t : Text) : Writes Free Free w (Writer.proseChars t w) := by
  fun_induction Writer.proseChars t w with
  | case1 w => exact .of_written rfl
  | case2 c w => exact writes_proseChar hmargin c '\x00'
  | case3 c d t w ih =>
      exact (writes_proseChar hmargin c d).trans (ih ((Frame.proseChar w c d).margin ▸ hmargin))

/-- **Prose** leaves a free end free. -/
theorem writes_prose (hmargin : Filler w.margin) (t : Text) : Writes Free Free w (w.prose t) :=
  (writes_settle hmargin airy_free).trans (writes_proseChars (w := w.settle) hmargin t)

/-! ### Addresses -/

/-- A blank clears the end like the percent sign and the code that stand for it. -/
theorem after_percent {s : Opening} (hs : s ≠ comment) (c : Char) : s.after (percent c) = clear := by
  unfold percent
  repeat' split
  all_goals
    rw [after_cons, next_clear hs (by decide)]
    decide

theorem after_addressForm {s : Opening} (hs : s ≠ comment) (c : Char) : s.after (addressForm c) = s.next c := by
  unfold addressForm
  split
  · next hescapes =>
      -- Of the start of a comment only the angle bracket is escaped.
      have hbang : c ≠ '!' := by rintro rfl; exact absurd hescapes (by decide)
      have hdash : c ≠ '-' := by rintro rfl; exact absurd hescapes (by decide)
      by_cases hangle : c = '<'
      · subst hangle
        rw [if_neg (by decide), after_cons, next_clear hs (by decide), next_angle hs]
        rfl
      · have hc : c ∉ ['<', '!', '-'] := by simp [hangle, hbang, hdash]
        rw [next_clear hs hc]
        split
        · exact after_percent hs c
        · rw [after_cons, next_clear hs (by decide), after_cons, next_clear (by simp) hc, after_nil]
  · rfl

/-- A character of an address does at the end what it does as it is. -/
theorem writes_addressChar (hline : w.atLineStart = false) {s : Opening} (hs : s ≠ comment) (c : Char) :
    Writes (· = s) (· = s.next c) w (w.addressChar c) := by
  have hstart : w.startLine = w := by
    rw [Writer.startLine, hline]
    rfl
  rw [addressChar_eq, hstart]
  refine Writes.note (.of_text (x := addressForm c) (by simp [put, Writer.text]) ?_) c
  rintro _ rfl
  exact after_addressForm hs c

theorem writes_addressChars {t : Text} (hline : w.atLineStart = false) {s : Opening} (ht : s.after t ≠ comment) :
    Writes (· = s) (· = s.after t) w (t.foldl Writer.addressChar w) := by
  induction t generalizing w s with
  | nil => exact .of_written rfl
  | cons c t ih =>
      have hs : s ≠ comment := by
        rintro rfl
        rw [after_comment] at ht
        exact ht rfl
      exact (writes_addressChar hline hs c).trans (ih rfl ht)

end Pieces

/-! ### Running text -/

/-- **A formula or an address holds no start of a comment.** -/
def Leaf.Uncommented : Leaf → Prop
  | .text _ => True
  | .math _ body => ¬ commentStart <:+: body
  | .link url => ¬ commentStart <:+: url

theorem Leaf.inherited_uncommented : Inherited Uncommented where
  text _ := trivial
  inline {body} h := by
    rw [Uncommented] at h ⊢
    rwa [Text.isInfix_trim_iff (by decide) (by decide)]
  display {body} h := by
    rw [Uncommented] at h ⊢
    rw [← List.singleton_append, Text.isInfix_append_blank_iff (by decide) (by decide) (by decide),
      Text.isInfix_blank_append_iff (by decide) (by decide) (by decide), Text.isInfix_trim_iff (by decide) (by decide)]
    exact h

theorem after_ne_comment {t : Text} (h : ¬ commentStart <:+: t) : clear.after t ≠ comment := fun hcomment =>
  h (isInfix_of_after hcomment)

section Spans

variable {w : Writer}

/-- A formula leaves the end clear. -/
theorem writes_formula (hmargin : Filler w.margin) (display : Bool) {body : Text} (h : ¬ commentStart <:+: body) :
    let fence := if display then ['$', '$'] else ['$']
    Writes (· ≠ comment) (· = clear) w (((w.literal fence).literal body).literal fence) := by
  intro fence
  have hfence : fence ≠ [] ∧ (∀ c ∈ fence, c ∉ ['<', '!', '-', '\n']) ∧ (w.literal fence).atLineStart = false := by
    cases display <;>
      exact ⟨by decide, by decide, by simp [fence, literal, atLineStart_literalChar]⟩
  obtain ⟨hne, hplain, hline⟩ := hfence
  have hopen := writes_literal_plain hmargin hne hplain
  have hbody : Writes (· = clear) (· = clear.after body) (w.literal fence) ((w.literal fence).literal body) := by
    rw [literal_of_owed (owed_literal fence w)]
    exact writes_literalChars ((Frame.literal fence w).margin ▸ hmargin) (by simp [hline]) (after_ne_comment h)
  have hclose := writes_literal_plain (w := (w.literal fence).literal body)
    (((Frame.literal fence w).trans (.literal body _)).margin ▸ hmargin) hne hplain
  refine (hopen.trans hbody).trans (hclose.imp ?_ fun _ hs => hs)
  rintro _ rfl
  exact after_ne_comment h

/-- A plain address is a letter and more. -/
theorem exists_letter_of_isPlainLink {url : Text} (h : isPlainLink url = true) :
    ∃ c rest, url = c :: rest ∧ Text.isLetter c = true := by
  cases url with
  | nil => simp [isPlainLink, hasScheme] at h
  | cons c rest => exact ⟨c, rest, rfl, by simp_all [isPlainLink, hasScheme]⟩

/-- A plain address between angle brackets leaves the end clear. -/
theorem writes_plainLink (hmargin : Filler w.margin) {url : Text} (hplain : isPlainLink url = true)
    (h : ¬ commentStart <:+: url) : Writes (· ≠ comment) (· = clear) w (w.literal ('<' :: url ++ ['>'])) := by
  obtain ⟨c, rest, rfl, hletter⟩ := exists_letter_of_isPlainLink hplain
  have hc : c ∉ ['<', '!', '-'] := by
    rw [List.mem_cons, List.mem_cons, List.mem_singleton]
    rintro (rfl | rfl | rfl) <;> exact absurd hletter (by decide)
  have hurl := after_ne_comment h
  rw [after_cons, next_clear (by simp) hc] at hurl
  have hend : angle.after (c :: rest ++ ['>']) = clear := by
    rw [List.cons_append, after_cons, next_clear (by simp) hc, after_append, after_cons, after_nil,
      next_clear hurl (by decide)]
  have hwrites := writes_literal (w := w) (t := c :: rest ++ ['>']) hmargin airy_ne_comment
    (fun _ hs => next_angle hs) (by decide) (by rw [hend]; simp)
  rwa [hend] at hwrites

/-- The target of a link leaves the end clear. -/
theorem writes_target (hmargin : Filler w.margin) {url : Text} (h : ¬ commentStart <:+: url) :
    Writes (· ≠ comment) (· = clear) w (((w.literal [']', '(']).address url).literal [')']) := by
  have hopen := writes_literal_plain (w := w) (t := [']', '(']) hmargin (by decide) (by decide)
  have hline : (w.literal [']', '(']).atLineStart = false := by simp [literal, atLineStart_literalChar]
  have haddress :
      Writes (· = clear) (· = clear.after url) (w.literal [']', '(']) ((w.literal [']', '(']).address url) := by
    rw [address, settle_eq_self (owed_literal _ w)]
    exact writes_addressChars hline (after_ne_comment h)
  have hclose := writes_literal_plain (w := (w.literal [']', '(']).address url) (t := [')'])
    (((Frame.literal _ w).trans (.address url _)).margin ▸ hmargin) (by decide) (by decide)
  refine (hopen.trans haddress).trans (hclose.imp ?_ fun _ hs => hs)
  rintro _ rfl
  exact after_ne_comment h

end Spans

theorem Writes.free {w w' : Writer} (h : Writes (· ≠ comment) (· = clear) w w') : Writes Free Free w w' :=
  h.imp (fun _ => Free.ne_comment) fun _ hs => .inl hs

mutual

theorem writeSpan_writes (holder : Holder) (alone last : Bool) (s : Span) {w : Writer} (hmargin : Filler w.margin)
    (hplain : ∀ l ∈ spanLeaves s, l.Uncommented) : Writes Free Free w (writeSpan holder alone last s w) := by
  cases s with
  | text t => exact writes_prose hmargin t
  | softBreak =>
      rw [writeSpan]
      split
      · exact writes_literal_free hmargin (by decide) (by decide)
      · exact .of_written rfl
  | hardBreak =>
      rw [writeSpan]
      split
      · exact .of_written rfl
      · exact (writes_literal_free hmargin (by decide) (by decide)).trans (.of_written rfl)
  | strong children =>
      have hfence : ∀ {w : Writer}, Filler w.margin →
          Writes Free Free w (if holder = .strong then w else w.literal ['*', '*']) ∧
            Filler (if holder = .strong then w else w.literal ['*', '*']).margin := by
        intro w hmargin
        split
        · exact ⟨.of_written rfl, hmargin⟩
        · exact ⟨writes_literal_free hmargin (by decide) (by decide), (Frame.literal _ w).margin ▸ hmargin⟩
      obtain ⟨hopen, hmargin'⟩ := hfence hmargin
      have hchildren := writeSpans_writes .strong children.length children hmargin' hplain
      have hclose := (hfence ((writeSpans_frame .strong children.length children _).margin ▸ hmargin')).1
      exact (hopen.trans hchildren).trans hclose
  | emphasis children =>
      have hfence : ∀ {w : Writer}, Filler w.margin →
          Writes Free Free w (w.literal (if holder = .emphasis ∧ alone then ['_'] else ['*'])) := by
        intro w hmargin
        split <;> exact writes_literal_free hmargin (by decide) (by decide)
      have hmargin' : Filler (w.literal (if holder = .emphasis ∧ alone then ['_'] else ['*'])).margin :=
        (Frame.literal _ w).margin ▸ hmargin
      have hchildren := writeSpans_writes .emphasis children.length children hmargin' hplain
      have hclose := hfence ((writeSpans_frame .emphasis children.length children _).margin ▸ hmargin')
      exact ((hfence hmargin).trans hchildren).trans hclose
  | math display body => exact (writes_formula hmargin display (hplain _ List.mem_cons_self)).free
  | link url =>
      have hurl : ¬ commentStart <:+: url := hplain _ List.mem_cons_self
      rw [writeSpan]
      split
      · next hlink => exact (writes_plainLink hmargin hlink hurl).free
      · have hopen := writes_literal_free (w := w) (t := ['[']) hmargin (by decide) (by decide)
        have hmargin' := (Frame.literal ['['] w).margin ▸ hmargin
        have hprose := writes_prose hmargin' url
        have htarget := writes_target ((Frame.prose url _).margin ▸ hmargin') hurl
        exact (hopen.trans hprose).trans htarget.free

/-- **Running text leaves a free end free.** -/
theorem writeSpans_writes (holder : Holder) (count : Nat) (ss : List Span) {w : Writer} (hmargin : Filler w.margin)
    (hplain : ∀ l ∈ spansLeaves ss, l.Uncommented) : Writes Free Free w (writeSpans holder count ss w) := by
  cases ss with
  | nil => exact .of_written rfl
  | cons s rest =>
      have hs := writeSpan_writes holder (count == 1) rest.isEmpty s hmargin
        fun l hl => hplain l (List.mem_append_left _ hl)
      have hrest := writeSpans_writes holder count rest
        ((writeSpan_frame holder (count == 1) rest.isEmpty s w).margin ▸ hmargin)
        fun l hl => hplain l (List.mem_append_right _ hl)
      rw [writeSpans]
      exact hs.trans hrest

end

end CribSheet.Markdown
