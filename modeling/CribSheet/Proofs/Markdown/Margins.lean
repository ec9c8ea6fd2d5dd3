/-
What stands in a container stays in it.

Every line of a quotation starts with its mark, and every line of a list with a marker or the blanks under one.
Writing keeps it so whatever the container holds: the margin stands at the start of each line, line breaks are
paid behind a line that has begun, and no text without characters comes between two line breaks.  What carries
the proof is the line that is being written: it starts as it should, or it is still empty, and then nothing is
owed and the margin comes next.

Main definitions:

* `CribSheet.Block.Narrow` — a list whose numbers take the same room, or no list;
* `CribSheet.Markdown.Container` — how the lines of a quotation or a list start;
* `CribSheet.Markdown.Lined` — a text with such lines, and the line that is being written;
* `CribSheet.Markdown.Inside`, `CribSheet.Markdown.Ready` — writing in a container;
* `CribSheet.Markdown.BehindItem` — writing a list that nothing holds.

Main results:

* `CribSheet.Markdown.writeSpans_inside`, `CribSheet.Markdown.writeNodes_inside` — writing stays in a container;
* `CribSheet.Markdown.lines_removeSeparators` — taking separators out leaves the starts of lines alone;
* `CribSheet.Markdown.lines_render_nested` — the lines of a box, of steps and of a lettered list.
-/
import CribSheet.Proofs.Markdown.Decoding
import CribSheet.Proofs.Markdown.Neighbours
import CribSheet.Proofs.Markup.Pieces

set_option relaxedAutoImplicit false
set_option autoImplicit false

namespace CribSheet

/-- **A numbered list of at most ninety-eight items**, or another block. -/
def Block.Narrow : Block → Prop
  | .list .numbered items => items.length ≤ 98
  | _ => True

namespace Markdown

open Writer

theorem narrow_ofBlock {b : Block} (h : b.Narrow) : (Node.ofBlock b).Narrow := by
  rcases b with ⟨level, content⟩ | ⟨content⟩ | ⟨items⟩ | ⟨⟨⟩, items⟩ | ⟨body⟩ | ⟨children⟩ <;> rw [Node.ofBlock]
  case list.numbered => rwa [Node.Narrow, length_ofItems]
  all_goals trivial

/-- The nodes of a page are narrow when the blocks are. -/
theorem narrow_allNodes_ofBlocks {bs : List Block} (h : ∀ b ∈ allBlocks bs, b.Narrow) :
    ∀ n ∈ allNodes (Node.ofBlocks bs), n.Narrow :=
  forall_allNodes_ofBlocks (fun _ => trivial) fun b hb => narrow_ofBlock (h b hb)

/-! ### Texts with characters -/

/-- The leaf is not a text without characters. -/
def Leaf.Shown (l : Leaf) : Prop := l ≠ .text []

/-- Lines without characters leave only their breaks. -/
theorem shown_ofLines (first : Bool) (ls : List Text) : ∀ l ∈ spansLeaves (Span.ofLines first ls), l.Shown := by
  induction ls generalizing first with
  | nil => simp [Span.ofLines, spansLeaves]
  | cons line rest ih =>
    have hline : ∀ line : Text, ∀ l ∈ spansLeaves (if line = [] then [] else [Span.text line]), l.Shown := by
      intro line
      split
      · simp [spansLeaves]
      · next hne => simpa [spansLeaves, spanLeaves, Leaf.Shown] using hne
    intro l hl
    rw [Span.ofLines, spansLeaves_append, spansLeaves_append, List.mem_append, List.mem_append] at hl
    rcases hl with (hl | hl) | hl
    · cases first <;> exact absurd hl List.not_mem_nil
    · exact hline _ l hl
    · exact ih false l hl

mutual

theorem shown_ofInline (i : Inline) : ∀ l ∈ spansLeaves (Span.ofInline i), l.Shown := by
  cases i with
  | text t => exact shown_ofLines true _
  | strong children | emphasis children =>
    simpa [Span.ofInline, spansLeaves, spanLeaves] using shown_ofInlines children
  | math | link | lineBreak => simp [Span.ofInline, spansLeaves, spanLeaves, Leaf.Shown]

theorem shown_ofInlines (is : List Inline) : ∀ l ∈ spansLeaves (Span.ofInlines is), l.Shown := by
  cases is with
  | nil => simp [Span.ofInlines, spansLeaves]
  | cons i rest =>
    intro l hl
    rw [Span.ofInlines, spansLeaves_append] at hl
    exact (List.mem_append.1 hl).elim (shown_ofInline i l) (shown_ofInlines rest l)

end

theorem shown_ofParagraph (content : List Inline) : ∀ l ∈ nodeLeaves (Node.ofParagraph content), l.Shown :=
  shown_ofInlines _

theorem shown_leadParagraph (lead : List Inline) :
    ∀ l ∈ nodesLeaves (if lead = [] then [] else [Node.ofParagraph lead]), l.Shown := by
  split
  · simp [nodesLeaves]
  · simpa [nodesLeaves] using shown_ofParagraph lead

mutual

theorem shown_ofBlock : (b : Block) → ∀ l ∈ nodeLeaves (Node.ofBlock b), l.Shown
  | .heading _ content => by
    rw [Node.ofBlock]
    exact shown_ofInlines _
  | .paragraph content => by
    rw [Node.ofBlock]
    exact shown_ofParagraph content
  | .steps items => by
    rw [Node.ofBlock]
    exact shown_ofItems none 0 items
  | .list .numbered items => by
    rw [Node.ofBlock]
    exact shown_ofItems (some .numbered) 0 items
  | .list .lettered items => by
    rw [Node.ofBlock]
    exact shown_ofItems (some .lettered) 0 items
  | .math body => by simp [Node.ofBlock, nodeLeaves, spansLeaves, spanLeaves, Leaf.Shown]
  | .callout children => by
    rw [Node.ofBlock]
    exact shown_ofBlocks children

/-- **A page holds no text without characters.** -/
theorem shown_ofBlocks : (bs : List Block) → ∀ l ∈ nodesLeaves (Node.ofBlocks bs), l.Shown
  | [] => by simp [Node.ofBlocks, nodesLeaves]
  | b :: rest => by
    intro l hl
    rw [Node.ofBlocks] at hl
    exact (List.mem_append.1 hl).elim (shown_ofBlock b l) (shown_ofBlocks rest l)

theorem shown_ofItems (kind : Option ListKind) (index : Nat) :
    (items : List (List Block)) → ∀ l ∈ nodeItemsLeaves (Node.ofItems kind index items), l.Shown
  | [] => by simp [Node.ofItems, nodeItemsLeaves]
  | [] :: rest => by
    intro l hl
    rw [Node.ofItems] at hl
    exact (List.mem_append.1 hl).elim (shown_leadParagraph _ l) (shown_ofItems kind (index + 1) rest l)
  | (b :: blocks) :: rest => by
    have hb := shown_ofBlock b
    have hblocks := shown_ofBlocks blocks
    have hrest := shown_ofItems kind (index + 1) rest
    intro l hl
    cases b with
    | paragraph content =>
      simp only [Node.ofItems, nodeItemsLeaves, nodesLeaves, List.mem_append] at hl
      rcases hl with (hl | hl) | hl
      · exact shown_ofParagraph _ l hl
      · exact hblocks l hl
      · exact hrest l hl
    | heading | steps | list | math | callout =>
      simp only [Node.ofItems, nodeItemsLeaves, nodesLeaves_append, nodesLeaves, List.mem_append] at hl
      rcases hl with (hl | hl | hl) | hl
      · exact shown_leadParagraph _ l hl
      · exact hb l hl
      · exact hblocks l hl
      · exact hrest l hl

end

/-! ### Containers -/

/-- **How the lines of a quotation or a list start.** -/
structure Container where
  /-- What a line may start with. -/
  leads : List Text
  /-- Lines without characters may stand between the others. -/
  gaps : Bool
  /-- Some character stands at the start of a line, and no angle bracket that opens a separator. -/
  solid : ∀ lead ∈ leads, lead ≠ [] ∧ '<' ∉ lead

namespace Container

/-- A quotation. -/
def quotation : Container := ⟨[['>']], false, by decide⟩

/-- A list of bullets. -/
def bullets : Container := ⟨[['-', ' '], [' ', ' ']], true, by decide⟩

/-- The line starts as it should. -/
def Starts (k : Container) (line : Text) : Prop := ∃ lead ∈ k.leads, lead <+: line

/-- The line may stand in the container. -/
def Admits (k : Container) (line : Text) : Prop := k.Starts line ∨ k.gaps = true ∧ line = []

variable {k : Container} {line : Text}

theorem Starts.append (h : k.Starts line) (x : Text) : k.Starts (line ++ x) := by
  obtain ⟨lead, hmem, hlead⟩ := h
  exact ⟨lead, hmem, hlead.trans (List.prefix_append line x)⟩

theorem Starts.ne_nil (h : k.Starts line) : line ≠ [] := by
  obtain ⟨lead, hmem, hlead⟩ := h
  rintro rfl
  exact (k.solid lead hmem).1 (List.prefix_nil.1 hlead)

/-- The start of a line stands in front of its first angle bracket. -/
theorem Starts.of_append_angle {x y : Text} (h : k.Starts (x ++ '<' :: y)) : k.Starts x := by
  obtain ⟨lead, hmem, hlead⟩ := h
  refine ⟨lead, hmem, ?_⟩
  rcases List.prefix_or_prefix_of_prefix hlead (List.prefix_append x ('<' :: y)) with hx | hx
  · exact hx
  · obtain ⟨z, rfl⟩ := hx
    rw [List.prefix_append_right_inj] at hlead
    cases z with
    | nil => exact (List.append_nil x).symm ▸ List.prefix_rfl
    | cons c z =>
      obtain ⟨rfl, -⟩ := List.cons_prefix_cons.1 hlead
      exact absurd (by simp) (k.solid _ hmem).2

end Container

/-- **A text with lines of the container**; the last one, which is being written, has `P`. -/
def Lined (k : Container) (P : Text → Prop) (t : Text) : Prop :=
  ∃ ls line, Text.lines t = ls ++ [line] ∧ (∀ l ∈ ls, k.Admits l) ∧ P line

namespace Lined

variable {k : Container} {P Q : Text → Prop} {t : Text}

theorem imp (h : Lined k P t) (hPQ : ∀ line, P line → Q line) : Lined k Q t := by
  obtain ⟨ls, line, hlines, hls, hline⟩ := h
  exact ⟨ls, line, hlines, hls, hPQ line hline⟩

/-- Characters join the line. -/
theorem append (h : Lined k P t) {x : Text} (hx : '\n' ∉ x) (hP : ∀ line, P line → Q (line ++ x)) :
    Lined k Q (t ++ x) := by
  obtain ⟨ls, line, hlines, hls, hline⟩ := h
  exact ⟨ls, line ++ x, Text.splitOn_append hlines (Text.splitOn_eq_singleton hx), hls, hP line hline⟩

/-- A line break ends the line. -/
theorem endLine (h : Lined k P t) (hP : ∀ line, P line → k.Admits line) : Lined k (· = []) (t ++ ['\n']) := by
  obtain ⟨ls, line, hlines, hls, hline⟩ := h
  refine ⟨ls ++ [line], [], ?_, ?_, rfl⟩
  · rw [Text.lines_append_break, hlines]
    rfl
  · exact List.forall_mem_append.2 ⟨hls, List.forall_mem_singleton.2 (hP line hline)⟩

/-- A line that has begun does not end with a line break. -/
theorem exists_written {w : Writer} (h : Lined k k.Starts w.text) : ∃ c back, w.written = c :: back ∧ c ≠ '\n' := by
  obtain ⟨ls, line, hlines, -, hline⟩ := h
  obtain ⟨front, c, rfl⟩ := List.eq_nil_or_concat line |>.resolve_left hline.ne_nil
  rw [List.concat_eq_append, Text.lines] at hlines
  have hjoin := Text.joinWith_splitOn '\n' w.text
  have hc : '\n' ∉ front ++ [c] := Text.not_mem_of_mem_splitOn (t := w.text) (by rw [hlines]; simp)
  rw [hlines, Text.joinWith_append_cons] at hjoin
  refine ⟨c, (Text.leadJoin '\n' ls ++ front).reverse, ?_, fun hbreak => hc (by simp [hbreak])⟩
  rw [← List.reverse_reverse w.written, ← Writer.text, ← hjoin]
  simp

end Lined

/-! ### Writing in a container -/

/-- The margin starts every line as it should. -/
structure Container.IsMargin (k : Container) (margin : Text) : Prop where
  /-- It starts as a line does. -/
  starts : k.Starts margin
  /-- It is no more than one line. -/
  line : '\n' ∉ margin

/-- The line that is being written starts as it should, or nothing of it is written yet. -/
def Begun (k : Container) (w : Writer) (line : Text) : Prop := k.Starts line ∨ line = [] ∧ w.atLineStart = true

/-- **Writing stands inside of a line.** -/
structure Inside (k : Container) (w : Writer) : Prop where
  /-- The margin is one. -/
  margin : k.IsMargin w.margin
  /-- The line has begun. -/
  lined : Lined k k.Starts w.text

/-- **A character may be written.** -/
structure Ready (k : Container) (w : Writer) : Prop where
  /-- The margin is one. -/
  margin : k.IsMargin w.margin
  /-- Nothing is owed. -/
  owed : w.owed = 0
  /-- The line has begun, or the margin comes next. -/
  lined : Lined k (Begun k w) w.text

section Writing

variable {k : Container} {w w' : Writer}

/-- Every owed line break ends a line, and puts the margin on a blank one. -/
theorem lined_payBreaks {margin back : Text} {c : Char} (hmargin : k.Admits margin) (hbreak : '\n' ∉ margin)
    (hc : c ≠ '\n') (owed : Nat) {written : Text} (h : Lined k k.Admits written.reverse) :
    Lined k (· = []) (payBreaks margin (owed + 1) (c :: back) written).reverse := by
  induction owed generalizing written with
  | zero =>
    rw [payBreaks, if_neg hc, if_pos rfl, payBreaks, List.nil_append, List.reverse_cons]
    exact h.endLine fun _ hline => hline
  | succ owed ih =>
    -- Another break follows, so the line that starts here is blank and holds the margin only.
    rw [payBreaks, if_neg hc, if_neg (Nat.succ_ne_zero owed)]
    refine ih ?_
    rw [List.reverse_append, List.reverse_reverse, List.reverse_cons]
    exact (h.endLine fun _ hline => hline).append hbreak fun line hline => by rwa [hline, List.nil_append]

/-- **Behind the owed line breaks** the line has begun, or the margin comes next. -/
theorem lined_settle (hmargin : k.Admits w.margin) (hbreak : '\n' ∉ w.margin) (h : Lined k k.Starts w.text) :
    Lined k (Begun k w.settle) w.settle.text := by
  obtain ⟨c, back, hwritten, hc⟩ := h.exists_written
  rw [Writer.text, Writer.settle]
  simp only
  cases hpaid : if w.tight then min w.owed 1 else w.owed with
  | zero =>
    rw [payBreaks]
    exact h.imp fun _ => .inl
  | succ owed =>
    have hlines : Lined k (· = []) (payBreaks w.margin (owed + 1) (c :: back) w.written).reverse :=
      lined_payBreaks hmargin hbreak hc owed (h.imp fun _ => .inl)
    rw [← hwritten] at hlines
    exact hlines.imp fun line hnil => .inr ⟨hnil, by simp⟩

theorem Inside.settle (h : Inside k w) : Ready k w.settle :=
  ⟨h.margin, rfl, lined_settle (.inl h.margin.starts) h.margin.line h.lined⟩

theorem Ready.settle (h : Ready k w) : Ready k w.settle := by rwa [settle_eq_self h.owed]

theorem Inside.ready (h : Inside k w) (howed : w.owed = 0) : Ready k w :=
  ⟨h.margin, howed, h.lined.imp fun _ => .inl⟩

/-- The surroundings may change while nothing is written. -/
theorem Inside.of_written (h : Inside k w) (hmargin : k.IsMargin w'.margin) (hwritten : w'.written = w.written) :
    Inside k w' := ⟨hmargin, by rw [Writer.text, hwritten]; exact h.lined⟩

theorem Inside.setOneLine (h : Inside k w) (oneLine : Bool) : Inside k { w with oneLine := oneLine } :=
  h.of_written h.margin rfl

theorem Inside.setTight (h : Inside k w) (tight : Bool) : Inside k { w with tight := tight } :=
  h.of_written h.margin rfl

theorem Inside.note (h : Inside k w) (c : Char) : Inside k (note c w) := h.of_written h.margin rfl

theorem Inside.oweBreak (h : Inside k w) : Inside k w.oweBreak := h.of_written h.margin rfl

theorem Inside.oweBlankLine (h : Inside k w) : Inside k w.oweBlankLine := h.of_written h.margin rfl

theorem Inside.put (h : Inside k w) {x : Text} (hx : '\n' ∉ x) : Inside k (w.put x) where
  margin := h.margin
  lined := by
    rw [Writer.text, Writer.put, List.reverse_append, List.reverse_reverse]
    exact h.lined.append hx fun _ hline => hline.append x

theorem Ready.startLine (h : Ready k w) : Inside k w.startLine ∧ w.startLine.owed = 0 := by
  unfold Writer.startLine
  split
  · refine ⟨⟨h.margin, ?_⟩, h.owed⟩
    rw [Writer.text, List.reverse_append, List.reverse_reverse]
    refine h.lined.append h.margin.line fun line hline => ?_
    rcases hline with hstarts | ⟨rfl, -⟩
    · exact hstarts.append _
    · exact h.margin.starts
  · next hline => exact ⟨⟨h.margin, h.lined.imp fun _ hbegun => hbegun.resolve_right fun h => hline h.2⟩, h.owed⟩

/-! ### Text as it is -/

theorem Ready.literalChar (h : Ready k w) {c : Char} (hc : c ≠ '\n') : Inside k (w.literalChar c) where
  margin := (Frame.literalChar w c).margin ▸ h.margin
  lined := by
    rw [text_literalChar]
    exact h.startLine.1.lined.append (by simpa using Ne.symm hc) fun _ hline => hline.append [c]

/-- Behind a line break the margin comes next. -/
theorem Ready.literalChar_ready (h : Ready k w) (c : Char) : Ready k (w.literalChar c) := by
  have howed : (w.literalChar c).owed = 0 := (owed_literalChars [c] w).trans h.owed
  by_cases hc : c = '\n'
  · subst hc
    refine ⟨(Frame.literalChar w '\n').margin ▸ h.margin, howed, ?_⟩
    rw [text_literalChar]
    exact (h.startLine.1.lined.endLine fun _ => .inl).imp fun _ hnil =>
      .inr ⟨hnil, by rw [atLineStart_literalChar]; rfl⟩
  · exact (h.literalChar hc).ready howed

theorem Ready.literalChars (h : Ready k w) (t : Text) : Ready k (t.foldl Writer.literalChar w) := by
  induction t generalizing w with
  | nil => exact h
  | cons c t ih => exact ih (h.literalChar_ready c)

theorem ready_literal (h : Ready k w.settle) (t : Text) : Ready k (w.literal t) := h.literalChars t

/-- **Text as it is ends inside of a line**, unless it ends with a line break. -/
theorem inside_literal (h : Ready k w.settle) {t : Text} (hne : t ≠ []) (hlast : t.getLast? ≠ some '\n') :
    Inside k (w.literal t) := by
  obtain ⟨front, c, rfl⟩ := List.eq_nil_or_concat t |>.resolve_left hne
  rw [List.concat_eq_append] at hlast ⊢
  rw [Writer.literal, List.foldl_append]
  exact (h.literalChars front).literalChar fun hc => hlast (by simp [hc])

/-! ### Prose and addresses -/

theorem Ready.proseChar (h : Ready k w) (c next : Char) :
    Inside k (w.proseChar c next) ∧ (w.proseChar c next).owed = 0 := by
  obtain ⟨hinside, howed⟩ := h.startLine
  have hput : ∀ x : Text, '\n' ∉ x → Inside k (note c (w.startLine.put x)) ∧ (note c (w.startLine.put x)).owed = 0 :=
    fun x hx => ⟨(hinside.put hx).note c, howed⟩
  unfold Writer.proseChar
  simp only
  split
  · split
    · next hcontrol =>
      obtain ⟨hne, hplain⟩ := reference_clear hcontrol
      have hlast : (reference c).getLast? ≠ some '\n' := fun hlast =>
        hplain _ (List.mem_of_getLast? hlast) (by decide)
      have hreference := inside_literal (hinside.ready howed).settle hne hlast
      exact ⟨hreference.note c, owed_literal (reference c) w.startLine⟩
    · next hcontrol => exact hput ['\\', c] (by simp; rintro rfl; exact hcontrol (by decide))
  · next hescapes => exact hput [c] (by simp; rintro rfl; exact hescapes (by simp [escapesProse]))

theorem Ready.proseChars (h : Ready k w) {t : Text} (hne : t ≠ []) :
    Inside k (Writer.proseChars t w) ∧ (Writer.proseChars t w).owed = 0 := by
  fun_induction Writer.proseChars t w with
  | case1 w => exact absurd rfl hne
  | case2 c w => exact h.proseChar c '\x00'
  | case3 c d t w ih =>
    obtain ⟨hinside, howed⟩ := h.proseChar c d
    exact ih (hinside.ready howed) (List.cons_ne_nil d t)

/-- **Prose ends inside of a line.** -/
theorem inside_prose (h : Ready k w.settle) {t : Text} (hne : t ≠ []) : Inside k (w.prose t) := (h.proseChars hne).1

theorem ready_prose (h : Ready k w.settle) (t : Text) : Ready k (w.prose t) := by
  by_cases hne : t = []
  · subst hne
    exact h
  · obtain ⟨hinside, howed⟩ := h.proseChars hne
    exact hinside.ready howed

theorem Ready.addressChar (h : Ready k w) (c : Char) : Ready k (w.addressChar c) := by
  obtain ⟨hinside, howed⟩ := h.startLine
  rw [addressChar_eq]
  exact ((hinside.put (newline_not_mem_addressForm c)).note c).ready howed

theorem ready_address (h : Ready k w.settle) (t : Text) : Ready k (w.address t) := by
  have hchars : ∀ {w : Writer}, Ready k w → Ready k (t.foldl Writer.addressChar w) := by
    induction t with
    | nil => exact fun h => h
    | cons c t ih => exact fun h => ih (h.addressChar c)
  exact hchars h

/-! ### Running text -/

/-- A formula may hold line breaks, and is closed behind the last one. -/
theorem Inside.formula (h : Inside k w) (display : Bool) (body : Text) :
    let fence := if display then ['$', '$'] else ['$']
    Inside k (((w.literal fence).literal body).literal fence) := by
  intro fence
  have hfence : fence ≠ [] ∧ fence.getLast? ≠ some '\n' := by cases display <;> decide
  have hopen := ready_literal h.settle fence
  have hbody := ready_literal hopen.settle body
  exact inside_literal hbody.settle hfence.1 hfence.2

/-- An address is closed behind its last character. -/
theorem Inside.link (h : Inside k w) (url : Text) :
    Inside k (((((w.literal ['[']).prose url).literal [']', '(']).address url).literal [')']) := by
  have hopen := ready_literal h.settle ['[']
  have hprose := ready_prose hopen.settle url
  have hmiddle := ready_literal hprose.settle [']', '(']
  have haddress := ready_address hmiddle.settle url
  exact inside_literal haddress.settle (by decide) (by decide)

end Writing

section Trees

variable {k : Container}

mutual

theorem writeSpan_inside (holder : Holder) (alone last : Bool) (s : Span) {w : Writer} (h : Inside k w)
    (hleaves : ∀ l ∈ spanLeaves s, l.Shown) : Inside k (writeSpan holder alone last s w) := by
  cases s with
  | text t =>
    have hne : t ≠ [] := fun hnil => hleaves (.text t) List.mem_cons_self (by rw [hnil])
    exact inside_prose h.settle hne
  | softBreak =>
    rw [writeSpan]
    split
    · exact inside_literal h.settle (by decide) (by decide)
    · exact h.oweBreak
  | hardBreak =>
    rw [writeSpan]
    split
    · exact h.oweBreak
    · exact (inside_literal h.settle (by decide) (by decide)).oweBreak
  | strong children =>
    have hfence : ∀ {w : Writer}, Inside k w → Inside k (if holder = .strong then w else w.literal ['*', '*']) := by
      intro w h
      split
      · exact h
      · exact inside_literal h.settle (by decide) (by decide)
    exact hfence (writeSpans_inside .strong children.length children (hfence h) hleaves)
  | emphasis children =>
    have hfence : ∀ {w : Writer}, Inside k w →
        Inside k (w.literal (if holder = .emphasis ∧ alone then ['_'] else ['*'])) := by
      intro w h
      refine inside_literal h.settle ?_ ?_ <;> split <;> decide
    exact hfence (writeSpans_inside .emphasis children.length children (hfence h) hleaves)
  | math display body => exact h.formula display body
  | link url =>
    rw [writeSpan]
    split
    · exact inside_literal h.settle (by simp) (by simp [List.getLast?_cons])
    · exact h.link url

/-- **Running text ends inside of a line.** -/
theorem writeSpans_inside (holder : Holder) (count : Nat) (ss : List Span) {w : Writer} (h : Inside k w)
    (hleaves : ∀ l ∈ spansLeaves ss, l.Shown) : Inside k (writeSpans holder count ss w) := by
  cases ss with
  | nil => exact h
  | cons s rest =>
    rw [writeSpans]
    exact writeSpans_inside holder count rest
      (writeSpan_inside holder _ _ s h fun l hl => hleaves l (List.mem_append_left _ hl))
      fun l hl => hleaves l (List.mem_append_right _ hl)

end

/-! ### Pages -/

theorem itemMarker_facts (number : Option Nat) :
    itemMarker number ≠ [] ∧ (itemMarker number).getLast? ≠ some '\n' := by
  cases number with
  | none => decide
  | some n =>
    rw [itemMarker]
    split <;> simp [List.getLast?_append]

/-- A mark that opens a block. -/
theorem Inside.mark {w : Writer} (h : Inside k w) {t : Text} (hne : t ≠ []) (hlast : t.getLast? ≠ some '\n') :
    Inside k (w.mark t) := (inside_literal h.settle hne hlast).of_written ((Frame.mark t w).margin ▸ h.margin) rfl

/-- A wider margin starts as the narrower one. -/
theorem Inside.indent {w : Writer} (h : Inside k w) {t : Text} (ht : '\n' ∉ t) : Inside k (w.indent t) :=
  h.of_written ⟨h.margin.starts.append t, fun hmem => (List.mem_append.1 hmem).elim h.margin.line ht⟩ rfl

theorem newline_not_mem_blanks (n : Nat) : '\n' ∉ List.replicate n ' ' := fun hmem =>
  absurd (List.eq_of_mem_replicate hmem) (by decide)

/-- The items of a list are written one after the other. -/
theorem writeItems_cons (number : Option Nat) (item : List Node) (rest : List (List Node)) (w : Writer) :
    writeItems number (item :: rest) w = writeItems (number.map (· + 1)) rest (writeItems number [item] w) := by
  simp only [writeItems]

theorem written_leaveQuote (w : Writer) : (leaveQuote w).written = w.written := by
  unfold leaveQuote
  split <;> rfl

mutual

theorem writeNode_inside (inItem beforeList : Bool) (node : Node) {w : Writer} (h : Inside k w)
    (hleaves : ∀ l ∈ nodeLeaves node, l.Shown) (hnarrow : ∀ n ∈ node.all, n.Narrow) :
    Inside k (writeNode inItem beforeList node w) := by
  have hback := writeNode_margin inItem beforeList node w hnarrow
  have hstart : Inside k (if inItem then { w with tight := true } else w) := by
    split
    · exact h.setTight true
    · exact h
  -- The margin is what it was, as numbers take the same room; what is left is the last line.
  suffices hlined : Lined k k.Starts (writeNode inItem beforeList node w).text from ⟨hback ▸ h.margin, hlined⟩
  clear hback
  cases node with
  | heading level content =>
    rw [writeNode]
    generalize (if inItem then { w with tight := true } else w) = w at hstart
    have hmark := (hstart.mark (t := List.replicate level '#' ++ [' ']) (by simp) (by simp)).setOneLine true
    exact ((writeSpans_inside .block content.length content hmark hleaves).setOneLine false).oweBlankLine.lined
  | paragraph content =>
    rw [writeNode]
    exact (writeSpans_inside .block content.length content hstart hleaves).oweBlankLine.lined
  | quote children =>
    rw [writeNode]
    generalize (if inItem then { w with tight := true } else w) = w at hstart
    have hmark := (hstart.mark (t := ['>', ' ']) (by decide) (by decide)).indent (t := ['>', ' ']) (by decide)
    have hchildren := writeNodes_inside false children hmark hleaves fun n hn => hnarrow n (List.mem_cons_of_mem _ hn)
    rw [Writer.text, written_leaveQuote]
    exact hchildren.lined
  | list ordered items =>
    have hnumber : ∀ j ∈ if ordered then some 1 else none, j + items.length ≤ 99 := by
      have hself := hnarrow _ (Node.self_mem_all _)
      cases ordered with
      | false => simp
      | true =>
        rintro j ⟨⟩
        simp only [Node.Narrow] at hself
        omega
    rw [writeNode]
    generalize (if inItem then { w with tight := true } else w) = w at hstart
    have hitems := (writeItems_inside (if ordered then some 1 else none) items hstart hleaves
      (fun n hn => hnarrow n (List.mem_cons_of_mem _ hn)) hnumber).setTight inItem
    simp only
    split
    · exact (inside_literal hitems.oweBreak.settle (by decide) (by decide)).oweBlankLine.lined
    · exact hitems.lined

/-- **Nodes end inside of a line** of what surrounds them. -/
theorem writeNodes_inside (inItem : Bool) (ns : List Node) {w : Writer} (h : Inside k w)
    (hleaves : ∀ l ∈ nodesLeaves ns, l.Shown) (hnarrow : ∀ n ∈ allNodes ns, n.Narrow) :
    Inside k (writeNodes inItem ns w) := by
  cases ns with
  | nil => exact h
  | cons node rest =>
    rw [writeNodes]
    exact writeNodes_inside inItem rest
      (writeNode_inside inItem _ node h (fun l hl => hleaves l (List.mem_append_left _ hl))
        fun n hn => hnarrow n (List.mem_append_left _ hn))
      (fun l hl => hleaves l (List.mem_append_right _ hl)) fun n hn => hnarrow n (List.mem_append_right _ hn)

theorem writeItems_inside (number : Option Nat) (items : List (List Node)) {w : Writer} (h : Inside k w)
    (hleaves : ∀ l ∈ nodeItemsLeaves items, l.Shown) (hnarrow : ∀ n ∈ allItemNodes items, n.Narrow)
    (hnumber : ∀ j ∈ number, j + items.length ≤ 99) : Inside k (writeItems number items w) := by
  cases items with
  | nil => exact h
  | cons item rest =>
    obtain ⟨hne, hlast⟩ := itemMarker_facts number
    have hmark := (h.mark hne hlast).indent (newline_not_mem_blanks (itemMarker number).length)
    have hbody := writeNodes_inside true item hmark (fun l hl => hleaves l (List.mem_append_left _ hl))
      fun n hn => hnarrow n (List.mem_append_left _ hn)
    have hback := writeItems_margin number [item] w
      (fun n hn => hnarrow n (List.mem_append_left _ (by simpa [allItemNodes] using hn)))
      fun j hj => (Nat.add_le_add_left (by simp) j).trans (hnumber j hj)
    have hitem : Inside k (writeItems number [item] w) := ⟨hback ▸ h.margin, by
      simp only [writeItems]
      exact hbody.lined⟩
    rw [writeItems_cons]
    refine writeItems_inside (number.map (· + 1)) rest hitem (fun l hl => hleaves l (List.mem_append_right _ hl))
      (fun n hn => hnarrow n (List.mem_append_right _ hn)) fun j hj => ?_
    obtain ⟨i, hi, rfl⟩ := Option.map_eq_some_iff.1 hj
    have hle := hnumber i hi
    rw [List.length_cons] at hle
    omega

end

end Trees

/-! ### Separators -/

section Separators

variable {k : Container} {x t rest : Text}

/-- A separator ends the line it stands on, and leaves one without characters behind. -/
theorem lines_append_separatorLine (hx : '\n' ∉ x) :
    Text.lines (x ++ (separatorLine ++ rest)) = (x ++ listSeparator) :: [] :: Text.lines rest := by
  have hopen : '\n' ∉ x ++ listSeparator := fun hmem => (List.mem_append.1 hmem).elim hx (by decide)
  have hsplit : x ++ (separatorLine ++ rest) = (x ++ listSeparator) ++ '\n' :: ([] ++ '\n' :: rest) := by
    simp [separatorLine]
  rw [hsplit, Text.lines_append_break, Text.lines_append_break, Text.lines, Text.splitOn_eq_singleton hopen]
  rfl

/-- A line that starts as it should may be put in front. -/
theorem Container.Starts.lines_append (hstarts : k.Starts x) (hx : '\n' ∉ x)
    (h : ∀ line ∈ Text.lines t, line ≠ [] → k.Starts line) :
    ∀ line ∈ Text.lines (x ++ t), line ≠ [] → k.Starts line := by
  obtain ⟨first, after, hsplit, -⟩ := Text.exists_splitOn_eq_cons '\n' t
  have hfront : Text.splitOn '\n' x = [] ++ [x] := Text.splitOn_eq_singleton hx
  have hjoined : Text.lines (x ++ t) = (x ++ first) :: after := Text.splitOn_append hfront hsplit
  intro line hline
  rw [hjoined] at hline
  rcases List.mem_cons.1 hline with rfl | hline
  · exact fun _ => hstarts.append first
  · exact h line (by rw [Text.lines, hsplit]; exact List.mem_cons_of_mem first hline)

/-- **Taking separators out leaves the starts of lines alone**: of two lines it makes one that starts as the first
one did, in front of its angle bracket. -/
theorem lines_removeSeparators (h : ∀ line ∈ Text.lines t, line ≠ [] → k.Starts line) :
    ∀ line ∈ Text.lines (Text.replaceAll separatorLine [] t), line ≠ [] → k.Starts line := by
  -- `x` is what stands on the line in front of `t`.
  suffices hbehind : ∀ x t : Text, '\n' ∉ x → (∀ line ∈ Text.lines (x ++ t), line ≠ [] → k.Starts line) →
      ∀ line ∈ Text.lines (x ++ Text.replaceAll separatorLine [] t), line ≠ [] → k.Starts line from
    hbehind [] t List.not_mem_nil h
  clear h
  intro x t hx h
  induction hlength : t.length using Nat.strong_induction_on generalizing x t with
  | _ n ih =>
    subst hlength
    by_cases hseparator : separatorLine <+: t
    · obtain ⟨rest, rfl⟩ := hseparator
      rw [lines_append_separatorLine hx] at h
      -- The line behind the separator is joined to `x`, so `x` itself has to start as it should.
      have hstarts : k.Starts x := by
        have hfirst := h (x ++ listSeparator) List.mem_cons_self
        rw [listSeparator_eq_cons] at hfirst
        exact (hfirst (List.append_ne_nil_of_right_ne_nil x (List.cons_ne_nil _ _))).of_append_angle
      have hrest := hstarts.lines_append hx fun line hline =>
        h line (List.mem_cons_of_mem _ (List.mem_cons_of_mem _ hline))
      have hshorter : rest.length < (separatorLine ++ rest).length := by
        rw [List.length_append]
        exact Nat.lt_add_of_pos_left (List.length_pos_iff.2 separatorLine_ne_nil)
      rw [Text.replaceAll_append_self separatorLine_ne_nil, List.nil_append]
      exact ih rest.length hshorter x rest hx hrest rfl
    · cases t with
      | nil => rwa [Text.replaceAll_eq_self fun hinfix => separatorLine_ne_nil (List.infix_nil.1 hinfix)]
      | cons c t =>
        rw [Text.replaceAll_cons separatorLine_ne_nil hseparator]
        by_cases hc : c = '\n'
        · subst hc
          rw [Text.lines_append_break] at h ⊢
          obtain ⟨hfront, hback⟩ := List.forall_mem_append.1 h
          exact List.forall_mem_append.2 ⟨hfront, ih t.length t.length.lt_succ_self [] t List.not_mem_nil hback rfl⟩
        · rw [List.append_cons] at h ⊢
          exact ih t.length t.length.lt_succ_self (x ++ [c]) t (by simp [hx, Ne.symm hc]) h rfl

end Separators

/-! ### Pages in a container -/

/-- **The lines of a page** whose last line has begun. -/
theorem Lined.exists_lines_page {k : Container} {nodes : List Node}
    (h : Lined k k.Starts (writeNodes false nodes {}).text) :
    ∃ ls, Text.lines (page nodes) = ls ++ [[]] ∧ ∀ line ∈ ls, k.Admits line := by
  obtain ⟨c, back, hwritten, hc⟩ := h.exists_written
  have hpage : page nodes = _ := page_eq_append_break (by simp [hwritten]) (by simp [hwritten, hc])
  obtain ⟨ls, line, hlines, hls, rfl⟩ := h.endLine fun _ => .inl
  exact ⟨ls, by rw [hpage, hlines], hls⟩

/-- A separator leaves a line without characters in front of another one. -/
theorem not_separatorLine_of_lines {t : Text} {ls : List Text} (hlines : Text.lines t = ls ++ [[]])
    (hls : ∀ line ∈ ls, line ≠ []) : ¬ separatorLine <:+: t := by
  rintro ⟨before, after, hseparator⟩
  have hsplit : t = (before ++ listSeparator) ++ '\n' :: ([] ++ '\n' :: after) := by
    rw [← hseparator]
    simp [separatorLine]
  obtain ⟨behind, last, hafter⟩ := List.eq_nil_or_concat (Text.lines after) |>.resolve_left (Text.splitOn_ne_nil _ _)
  rw [hsplit, Text.lines_append_break, Text.lines_append_break, hafter, List.concat_eq_append,
    ← List.append_assoc, ← List.append_assoc] at hlines
  have hfront := (List.append_inj' hlines rfl).1
  exact hls [] (by simp [← hfront, Text.lines, Text.splitOn]) rfl

/-- The first line of a quotation is written. -/
theorem inside_quotation : Inside .quotation ((Writer.mark ['>', ' '] {}).indent ['>', ' ']) where
  margin := ⟨⟨['>'], by decide, by decide⟩, by decide⟩
  lined := ⟨[], ['>', ' '], by decide, by simp, ['>'], by decide, by decide⟩

/-- **The lines of a page with a quotation** start with its mark. -/
theorem exists_lines_page_quote {children : List Node} (hleaves : ∀ l ∈ nodesLeaves children, l.Shown)
    (hnarrow : ∀ n ∈ allNodes children, n.Narrow) :
    ∃ ls, Text.lines (page [.quote children]) = ls ++ [[]] ∧ ∀ line ∈ ls, Container.quotation.Starts line := by
  have hchildren := writeNodes_inside false children inside_quotation hleaves hnarrow
  have hpage : Lined .quotation Container.quotation.Starts (writeNodes false [.quote children] {}).text := by
    rw [Writer.text, writeNodes, writeNodes, writeNode, written_leaveQuote]
    exact hchildren.lined
  obtain ⟨ls, hlines, hls⟩ := hpage.exists_lines_page
  exact ⟨ls, hlines, fun line hline => (hls line hline).resolve_right fun h => absurd h.1 (by decide)⟩

/-- **Writing stands behind an item** of a list that nothing holds. -/
structure BehindItem (w : Writer) : Prop where
  /-- There is no margin. -/
  margin : w.margin = []
  /-- The item ended inside of a line, or there was none. -/
  lined : w.written = [] ∨ Lined .bullets Container.bullets.Starts w.text

namespace BehindItem

variable {w : Writer}

/-- The bullet of the next item starts a line. -/
theorem inside_mark (h : BehindItem w) : Inside .bullets ((w.mark ['-', ' ']).indent [' ', ' ']) where
  margin := by
    have hmargin : ((w.mark ['-', ' ']).indent [' ', ' ']).margin = [' ', ' '] := by
      rw [Writer.indent, (Frame.mark ['-', ' '] w).margin, h.margin]
      rfl
    rw [hmargin]
    exact ⟨⟨[' ', ' '], by decide, List.prefix_rfl⟩, by decide⟩
  lined := by
    have hsettled : Lined .bullets (Begun .bullets w.settle) w.settle.text ∨ w.settle.text = [] := by
      rcases h.lined with hnil | hlined
      · right
        rw [Writer.text, Writer.settle, hnil, payBreaks_nil]
        rfl
      · exact .inl (lined_settle (.inr ⟨rfl, h.margin⟩) (by simp [h.margin]) hlined)
    have hbullet : Container.bullets.Starts ['-', ' '] := ⟨['-', ' '], by decide, List.prefix_rfl⟩
    have htext : ((w.mark ['-', ' ']).indent [' ', ' ']).text = w.settle.text ++ ['-', ' '] := by
      rw [Writer.text, Writer.indent, Writer.mark, written_literal h.margin, List.reverse_append,
        List.reverse_reverse]
      rfl
    rw [htext]
    rcases hsettled with hlined | hnil
    · refine hlined.append (by decide) fun line hline => ?_
      rcases hline with hstarts | ⟨rfl, -⟩
      · exact hstarts.append _
      · exact hbullet
    · rw [hnil]
      exact ⟨[], ['-', ' '], by decide, by simp, hbullet⟩

/-- One more item is written. -/
theorem item (h : BehindItem w) {item : List Node} (hleaves : ∀ l ∈ nodesLeaves item, l.Shown)
    (hnarrow : ∀ n ∈ allNodes item, n.Narrow) : BehindItem (writeItems none [item] w) where
  margin := by
    rw [writeItems_margin none [item] w (by simpa [allItemNodes] using hnarrow) (by simp), h.margin]
  lined := by
    right
    simp only [writeItems]
    exact (writeNodes_inside true item h.inside_mark hleaves hnarrow).lined

/-- **The items of a list are written**, one after the other. -/
theorem items (h : BehindItem w) {items : List (List Node)} (hleaves : ∀ l ∈ nodeItemsLeaves items, l.Shown)
    (hnarrow : ∀ n ∈ allItemNodes items, n.Narrow) : BehindItem (writeItems none items w) := by
  induction items generalizing w with
  | nil => exact h
  | cons item rest ih =>
    obtain ⟨hitemLeaves, hrestLeaves⟩ := List.forall_mem_append.1 hleaves
    obtain ⟨hitemNarrow, hrestNarrow⟩ := List.forall_mem_append.1 hnarrow
    rw [writeItems_cons]
    exact ih (h.item hitemLeaves hitemNarrow) hrestLeaves hrestNarrow

end BehindItem

/-- **The lines of a page with a list** start with a bullet, or under one. -/
theorem lines_page_list {items : List (List Node)} (hleaves : ∀ l ∈ nodeItemsLeaves items, l.Shown)
    (hnarrow : ∀ n ∈ allItemNodes items, n.Narrow) :
    ∀ line ∈ Text.lines (page [.list false items]), line ≠ [] → Container.bullets.Starts line := by
  have hitems : BehindItem (writeItems none items {}) := BehindItem.items ⟨rfl, .inl rfl⟩ hleaves hnarrow
  have hwritten : (writeNodes false [.list false items] {}).written = (writeItems none items {}).written := by
    rw [writeNodes, writeNodes, writeNode]
    rfl
  rcases hitems.lined with hnil | hlined
  · have hpage : page [.list false items] = [] := by
      rw [page, Writer.text, hwritten, hnil]
      rfl
    simp [hpage, Text.lines, Text.splitOn]
  · rw [Writer.text, ← hwritten, ← Writer.text] at hlined
    obtain ⟨ls, hlines, hls⟩ := hlined.exists_lines_page
    rw [hlines]
    intro line hline hne
    rcases List.mem_append.1 hline with hline | hline
    · exact (hls line hline).resolve_right fun h => hne h.2
    · exact absurd (List.mem_singleton.1 hline) hne

/-! ### Display trees -/

/-- The lines of a list with bullets start with one, or under one. -/
theorem lines_render_list {b : Block} {kind : Option ListKind} {items : List (List Block)}
    (hnode : Node.ofBlock b = .list false (Node.ofItems kind 0 items)) (h : ∀ b' ∈ allBlocks [b], b'.Narrow) :
    ∀ line ∈ Text.lines (render [b]), line ≠ [] → ['-', ' '] <+: line ∨ [' ', ' '] <+: line := by
  have hnodes : Node.ofBlocks [b] = [.list false (Node.ofItems kind 0 items)] := by
    rw [Node.ofBlocks, Node.ofBlocks, hnode]
  have hnarrow := narrow_allNodes_ofBlocks h
  rw [hnodes, allNodes, allNodes, List.append_nil, Node.all] at hnarrow
  have hpage := lines_page_list (shown_ofItems kind 0 items) fun n hn => hnarrow n (List.mem_cons_of_mem _ hn)
  rw [← hnodes] at hpage
  intro line hline hne
  obtain ⟨lead, hmem, hlead⟩ := lines_removeSeparators hpage line hline hne
  simp only [Container.bullets, List.mem_cons, List.not_mem_nil, or_false] at hmem
  rcases hmem with rfl | rfl
  · exact .inl hlead
  · exact .inr hlead

/-- **What is nested never leaves its container**: of a box every line starts with the quotation mark, and of
steps or a lettered list every line with characters starts with a bullet or stands under one. -/
theorem lines_render_nested {children : List Block} {items : List (List Block)}
    (hchildren : ∀ b ∈ allBlocks children, b.Narrow) (hitems : ∀ b ∈ allItemBlocks items, b.Narrow) :
    (∃ ls, Text.lines (render [.callout children]) = ls ++ [[]] ∧ ∀ line ∈ ls, ['>'] <+: line) ∧
      ∀ list ∈ [Block.steps items, .list .lettered items], ∀ line ∈ Text.lines (render [list]),
        line ≠ [] → ['-', ' '] <+: line ∨ [' ', ' '] <+: line := by
  constructor
  · obtain ⟨ls, hlines, hls⟩ := exists_lines_page_quote (shown_ofBlocks children) (narrow_allNodes_ofBlocks hchildren)
    have hrender : render [.callout children] = page [.quote (Node.ofBlocks children)] :=
      render_eq_page (not_separatorLine_of_lines hlines fun line hline => (hls line hline).ne_nil)
    refine ⟨ls, hrender ▸ hlines, fun line hline => ?_⟩
    obtain ⟨lead, hmem, hlead⟩ := hls line hline
    rwa [List.mem_singleton.1 hmem] at hlead
  · have hnarrow : ∀ list ∈ [Block.steps items, .list .lettered items], ∀ b ∈ allBlocks [list], b.Narrow := by
      simpa [allBlocks, Block.all, Block.Narrow] using hitems
    intro list hlist
    have hnode : ∃ kind, Node.ofBlock list = .list false (Node.ofItems kind 0 items) := by
      simp only [List.mem_cons, List.not_mem_nil, or_false] at hlist
      rcases hlist with rfl | rfl <;> exact ⟨_, by rw [Node.ofBlock]⟩
    obtain ⟨kind, hnode⟩ := hnode
    exact lines_render_list hnode (hnarrow list hlist)

/-- Formulas of several lines, lists and boxes in each other. -/
theorem lines_render_nested_of_formulas :
    let children :=
      [Block.list .numbered [[.math ['x', '\n', 'y']], [.callout [.steps [[.paragraph [.text ['a']]]]]]],
        .paragraph [.text ['b'], .math ['\n']]]
    let items := [[.math ['x', '\n', 'y'], .callout [.list .numbered [[.paragraph [.text ['c']]]]]], []]
    (∀ b ∈ allBlocks children, b.Narrow) ∧ (∀ b ∈ allItemBlocks items, b.Narrow) ∧
      (∃ ls, Text.lines (render [.callout children]) = ls ++ [[]] ∧ ∀ line ∈ ls, ['>'] <+: line) ∧
      ∀ list ∈ [Block.steps items, .list .lettered items], ∀ line ∈ Text.lines (render [list]),
        line ≠ [] → ['-', ' '] <+: line ∨ [' ', ' '] <+: line := by
  intro children items
  have hchildren : ∀ b ∈ allBlocks children, b.Narrow := by
    simp [children, allBlocks, allItemBlocks, Block.all, Block.Narrow]
  have hitems : ∀ b ∈ allItemBlocks items, b.Narrow := by
    simp [items, allBlocks, allItemBlocks, Block.all, Block.Narrow]
  exact ⟨hchildren, hitems, lines_render_nested hchildren hitems⟩

end Markdown

end CribSheet
