/-
What writing leaves alone.

Writing text changes what is written and what is owed, and nothing of what surrounds it: the margin, and
whether blank lines and line breaks are written.  Writing a node changes the margin in between, and puts it
back in the end, unless the number of an item takes more room than the one before it.

Main definitions:

* `CribSheet.Markdown.Frame` — the same surroundings;
* `CribSheet.Markdown.Node.all`, `CribSheet.Markdown.allNodes` — the nodes of a tree, at any depth;
* `CribSheet.Markdown.Node.Narrow` — a list whose numbers take the same room.

Main results:

* `CribSheet.Markdown.writeSpans_frame` — running text leaves its surroundings alone;
* `CribSheet.Markdown.writeNodes_margin` — the margin is put back;
* `CribSheet.Markdown.writeNodes_tight` — blank lines are written again.
-/
import CribSheet.Markdown.Render

set_option relaxedAutoImplicit false
set_option autoImplicit false

namespace CribSheet.Markdown

open Writer

/-! ### Text -/

/-- What is written for a character of an address. -/
def addressForm (c : Char) : Text :=
  if escapesAddress c then if isSpace c then percent c else ['\\', c] else [c]

theorem addressChar_eq (w : Writer) (c : Char) : w.addressChar c = note c (w.startLine.put (addressForm c)) := by
  unfold Writer.addressChar addressForm
  repeat' split
  all_goals rfl

/-- **The surroundings are the same.** -/
structure Frame (w w' : Writer) : Prop where
  /-- The margin is the same. -/
  margin : w'.margin = w.margin
  /-- Blank lines are written or not, as before. -/
  tight : w'.tight = w.tight
  /-- Line breaks are written or not, as before. -/
  oneLine : w'.oneLine = w.oneLine

namespace Frame

variable {w w' w'' : Writer}

theorem refl (w : Writer) : Frame w w := ⟨rfl, rfl, rfl⟩

theorem trans (h : Frame w w') (h' : Frame w' w'') : Frame w w'' :=
  ⟨h'.margin.trans h.margin, h'.tight.trans h.tight, h'.oneLine.trans h.oneLine⟩

theorem settle (w : Writer) : Frame w w.settle := ⟨rfl, rfl, rfl⟩

theorem oweBreak (w : Writer) : Frame w w.oweBreak := ⟨rfl, rfl, rfl⟩

theorem oweBlankLine (w : Writer) : Frame w w.oweBlankLine := ⟨rfl, rfl, rfl⟩

theorem startLine (w : Writer) : Frame w w.startLine := by
  unfold Writer.startLine
  split <;> exact ⟨rfl, rfl, rfl⟩

theorem note (c : Char) (w : Writer) : Frame w (note c w) := ⟨rfl, rfl, rfl⟩

theorem put (t : Text) (w : Writer) : Frame w (w.put t) := ⟨rfl, rfl, rfl⟩

theorem literalChar (w : Writer) (c : Char) : Frame w (w.literalChar c) := by
  refine (startLine w).trans ?_
  unfold Writer.literalChar
  simp only
  split <;> exact ⟨rfl, rfl, rfl⟩

theorem literalChars (t : Text) (w : Writer) : Frame w (t.foldl Writer.literalChar w) := by
  induction t generalizing w with
  | nil => exact refl w
  | cons c t ih => exact (literalChar w c).trans (ih _)

theorem literal (t : Text) (w : Writer) : Frame w (w.literal t) := (settle w).trans (literalChars t _)

theorem mark (t : Text) (w : Writer) : Frame w (w.mark t) := (literal t w).trans ⟨rfl, rfl, rfl⟩

theorem proseChar (w : Writer) (c next : Char) : Frame w (w.proseChar c next) := by
  refine (startLine w).trans ?_
  unfold Writer.proseChar
  simp only
  refine Frame.trans ?_ (note c _)
  split
  · split
    · exact literal _ _
    · exact put _ _
  · exact put _ _

theorem proseChars (t : Text) (w : Writer) : Frame w (Writer.proseChars t w) := by
  fun_induction Writer.proseChars t w with
  | case1 w => exact refl w
  | case2 c w => exact proseChar w c '\x00'
  | case3 c d t w ih => exact (proseChar w c d).trans ih

theorem prose (t : Text) (w : Writer) : Frame w (w.prose t) := (settle w).trans (proseChars t _)

theorem addressChar (w : Writer) (c : Char) : Frame w (w.addressChar c) := by
  rw [addressChar_eq]
  exact ((startLine w).trans (put _ _)).trans (note c _)

theorem addressChars (t : Text) (w : Writer) : Frame w (t.foldl Writer.addressChar w) := by
  induction t generalizing w with
  | nil => exact refl w
  | cons c t ih => exact (addressChar w c).trans (ih _)

theorem address (t : Text) (w : Writer) : Frame w (w.address t) := (settle w).trans (addressChars t _)

end Frame

/-! ### Running text -/

mutual

theorem writeSpan_frame (holder : Holder) (alone last : Bool) (s : Span) (w : Writer) :
    Frame w (writeSpan holder alone last s w) := by
  cases s with
  | text t => exact .prose t w
  | softBreak =>
      rw [writeSpan]
      split
      · exact .literal _ w
      · exact .oweBreak w
  | hardBreak =>
      rw [writeSpan]
      split
      · exact .oweBreak w
      · exact (Frame.literal _ w).trans (.oweBreak _)
  | strong children =>
      have hfence : ∀ w : Writer, Frame w (if holder = .strong then w else w.literal ['*', '*']) := by
        intro w
        split
        · exact .refl w
        · exact .literal _ w
      exact ((hfence w).trans (writeSpans_frame .strong children.length children _)).trans (hfence _)
  | emphasis children =>
      exact ((Frame.literal _ w).trans (writeSpans_frame .emphasis children.length children _)).trans
        (.literal _ _)
  | math display body => exact ((Frame.literal _ w).trans (.literal _ _)).trans (.literal _ _)
  | link url =>
      rw [writeSpan]
      split
      · exact .literal _ w
      · exact ((((Frame.literal _ w).trans (.prose _ _)).trans (.literal _ _)).trans (.address _ _)).trans
          (.literal _ _)

/-- **Running text leaves its surroundings alone.** -/
theorem writeSpans_frame (holder : Holder) (count : Nat) (ss : List Span) (w : Writer) :
    Frame w (writeSpans holder count ss w) := by
  cases ss with
  | nil => exact .refl w
  | cons s rest =>
      rw [writeSpans]
      exact (writeSpan_frame holder _ _ s w).trans (writeSpans_frame holder count rest _)

end

/-! ### Trees -/

mutual

/-- The node and the nodes in it, at any depth. -/
def Node.all : Node → List Node
  | .heading level content => [.heading level content]
  | .paragraph content => [.paragraph content]
  | .quote children => .quote children :: allNodes children
  | .list ordered items => .list ordered items :: allItemNodes items

/-- **The nodes of a tree**, at any depth. -/
def allNodes : List Node → List Node
  | [] => []
  | n :: rest => n.all ++ allNodes rest

/-- The nodes of some items, at any depth. -/
def allItemNodes : List (List Node) → List Node
  | [] => []
  | item :: rest => allNodes item ++ allItemNodes rest

end

theorem Node.self_mem_all (n : Node) : n ∈ n.all := by cases n <;> simp [Node.all]

/-- **The numbers of the list take the same room**, that of the number behind the last item included. -/
def Node.Narrow : Node → Prop
  | .list true items => items.length ≤ 98
  | _ => True

/-- The markers of bullets take two characters, those of numbers below a hundred take four. -/
theorem length_itemMarker {number : Option Nat} (h : ∀ k ∈ number, k < 100) :
    (itemMarker number).length = if number = none then 2 else 4 := by
  cases number with
  | none => rfl
  | some k =>
      have hall : ∀ k : Fin 100, (itemMarker (some k.val)).length = 4 := by decide +kernel
      exact hall ⟨k, h k rfl⟩

/-! ### Margins -/

theorem margin_outdent_indent {w w' : Writer} {t : Text} {width : Nat} (h : w'.margin = (w.indent t).margin)
    (hwidth : t.length = width) : (w'.outdent width).margin = w.margin := by
  subst hwidth
  simp [outdent, h, indent]

/-- Leaving a quotation. -/
theorem margin_leaveQuote {w w' : Writer} (h : w'.margin = (w.indent ['>', ' ']).margin) :
    (leaveQuote w').margin = w.margin := by
  have hlen : ¬ w'.margin.length < 2 := by
    rw [h, indent, List.length_append]
    simp
  rw [leaveQuote, if_neg hlen]
  exact margin_outdent_indent h rfl

mutual

theorem writeNode_margin (inItem beforeList : Bool) (node : Node) (w : Writer) (h : ∀ n ∈ node.all, n.Narrow) :
    (writeNode inItem beforeList node w).margin = w.margin := by
  have htight : (if inItem then { w with tight := true } else w).margin = w.margin := by split <;> rfl
  rw [← htight]
  cases node with
  | heading level content =>
      rw [writeNode]
      generalize (if inItem then { w with tight := true } else w) = w
      exact (writeSpans_frame .block content.length content _).margin.trans (Frame.mark _ w).margin
  | paragraph content =>
      rw [writeNode]
      exact (writeSpans_frame .block content.length content _).margin
  | quote children =>
      rw [writeNode]
      generalize (if inItem then { w with tight := true } else w) = w
      have hchildren := writeNodes_margin false children ((w.mark ['>', ' ']).indent ['>', ' '])
        fun n hn => h n (List.mem_cons_of_mem _ hn)
      exact (margin_leaveQuote hchildren).trans (Frame.mark _ w).margin
  | list ordered items =>
      have hnumber : ∀ k ∈ if ordered then some 1 else none, k + items.length ≤ 99 := by
        have hnarrow := h _ (Node.self_mem_all _)
        cases ordered with
        | false => simp
        | true =>
            rintro k ⟨⟩
            simp only [Node.Narrow] at hnarrow
            omega
      rw [writeNode]
      generalize (if inItem then { w with tight := true } else w) = w
      have hitems := writeItems_margin (if ordered then some 1 else none) items w
        (fun n hn => h n (List.mem_cons_of_mem _ hn)) hnumber
      simp only
      split
      · exact (((Frame.oweBreak _).trans (.literal _ _)).trans (.oweBlankLine _)).margin.trans hitems
      · exact hitems

/-- **The margin is put back.** -/
theorem writeNodes_margin (inItem : Bool) (ns : List Node) (w : Writer) (h : ∀ n ∈ allNodes ns, n.Narrow) :
    (writeNodes inItem ns w).margin = w.margin := by
  cases ns with
  | nil => rfl
  | cons node rest =>
      rw [writeNodes]
      exact (writeNodes_margin inItem rest _ fun n hn => h n (List.mem_append_right _ hn)).trans
        (writeNode_margin inItem _ node w fun n hn => h n (List.mem_append_left _ hn))

theorem writeItems_margin (number : Option Nat) (items : List (List Node)) (w : Writer)
    (h : ∀ n ∈ allItemNodes items, n.Narrow) (hnumber : ∀ k ∈ number, k + items.length ≤ 99) :
    (writeItems number items w).margin = w.margin := by
  cases items with
  | nil => rfl
  | cons item rest =>
      have hnext : ∀ k ∈ number.map (· + 1), k + rest.length ≤ 99 := by
        intro k hk
        obtain ⟨j, hj, rfl⟩ := Option.map_eq_some_iff.1 hk
        have hle := hnumber j hj
        rw [List.length_cons] at hle
        omega
      have hwidth : (itemMarker number).length = (itemMarker (number.map (· + 1))).length := by
        rw [length_itemMarker fun k hk => ?_, length_itemMarker fun k hk => ?_]
        · cases number <;> rfl
        · have hle := hnext k hk
          omega
        · have hle := hnumber k hk
          rw [List.length_cons] at hle
          omega
      have hitem := writeNodes_margin true item
        ((w.mark (itemMarker number)).indent (List.replicate (itemMarker number).length ' '))
        fun n hn => h n (List.mem_append_left _ hn)
      have hback := margin_outdent_indent hitem (List.length_replicate.trans hwidth)
      rw [writeItems]
      exact (writeItems_margin (number.map (· + 1)) rest _ (fun n hn => h n (List.mem_append_right _ hn)) hnext).trans
        (hback.trans (Frame.mark _ w).margin)

end

/-! ### Blank lines -/

theorem tight_leaveQuote (w : Writer) : (leaveQuote w).tight = w.tight := by
  unfold leaveQuote
  split <;> rfl

mutual

theorem writeNode_tight (beforeList : Bool) (node : Node) {w : Writer} (h : w.tight = false) :
    (writeNode false beforeList node w).tight = false := by
  cases node with
  | heading level content =>
      rw [writeNode]
      refine (writeSpans_frame .block content.length content _).tight.trans ?_
      exact (Frame.mark _ w).tight.trans h
  | paragraph content =>
      rw [writeNode]
      exact (writeSpans_frame .block content.length content w).tight.trans h
  | quote children =>
      have hmark : ((w.mark ['>', ' ']).indent ['>', ' ']).tight = false := (Frame.mark _ w).tight.trans h
      have hchildren := writeNodes_tight children hmark
      rw [writeNode]
      exact (tight_leaveQuote _).trans hchildren
  | list ordered items =>
      rw [writeNode]
      simp only
      split
      · exact (((Frame.oweBreak _).trans (.literal _ _)).trans (.oweBlankLine _)).tight
      · rfl

/-- **Blank lines are written** where no item holds the nodes directly, as before. -/
theorem writeNodes_tight (ns : List Node) {w : Writer} (h : w.tight = false) :
    (writeNodes false ns w).tight = false := by
  cases ns with
  | nil => exact h
  | cons node rest =>
      rw [writeNodes]
      exact writeNodes_tight rest (writeNode_tight _ node h)

end

end CribSheet.Markdown
