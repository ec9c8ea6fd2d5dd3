/-
Properties that the leaves of a page inherit.

A page is made from a display tree by splitting its texts into lines, putting in texts, and changing the
blanks around its formulas.  So whatever all texts have, and a formula has with any blanks around it, the
leaves of the page have when those of the display tree do.

Main definitions:

* `CribSheet.Markdown.Leaf.Inherited` — such a property.

Main results:

* `CribSheet.Markdown.forall_leaves_ofInlines`, `CribSheet.Markdown.forall_leaves_ofBlocks` — it is
  inherited by running text and by pages.
-/
import CribSheet.Proofs.Markdown.Dollars

set_option relaxedAutoImplicit false
set_option autoImplicit false

namespace CribSheet.Markdown

/-- A property of leaves that every text has, and that blanks around a formula do not touch. -/
structure Leaf.Inherited (P : Leaf → Prop) : Prop where
  /-- Texts have it. -/
  text : ∀ t, P (.text t)
  /-- A formula in the line keeps it. -/
  inline : ∀ {body : Text}, P (.math false body) → P (.math false body.trim)
  /-- A formula on lines of its own keeps it. -/
  display : ∀ {body : Text}, P (.math true body) → P (.math true ('\n' :: body.trim ++ ['\n']))

/-! ### Running text -/

variable {P : Leaf → Prop}

/-- Lines of text become texts and soft breaks. -/
theorem mem_ofLines {first : Bool} {ls : List Text} {s : Span} (hs : s ∈ Span.ofLines first ls) :
    s = .softBreak ∨ ∃ t, s = .text t := by
  induction ls generalizing first with
  | nil => simp [Span.ofLines] at hs
  | cons line rest ih =>
      have hline : ∀ t : Text, s ∈ (if t = [] then [] else [Span.text t]) → ∃ t, s = .text t := by
        intro t ht
        split at ht
        · exact absurd ht List.not_mem_nil
        · exact ⟨t, List.mem_singleton.1 ht⟩
      rw [Span.ofLines, List.mem_append, List.mem_append] at hs
      rcases hs with (hs | hs) | hs
      · cases first <;> simp_all
      · exact .inr (hline _ hs)
      · exact ih hs

theorem mem_spansLeaves {ss : List Span} {l : Leaf} : l ∈ spansLeaves ss ↔ ∃ s ∈ ss, l ∈ spanLeaves s := by
  induction ss with
  | nil => simp [spansLeaves]
  | cons s ss ih => rw [spansLeaves, List.mem_append, ih, List.exists_mem_cons_iff]

theorem forall_leaves_ofLines (hP : Leaf.Inherited P) (first : Bool) (ls : List Text) :
    ∀ l ∈ spansLeaves (Span.ofLines first ls), P l := by
  intro l hl
  obtain ⟨s, hs, hl⟩ := mem_spansLeaves.1 hl
  obtain rfl | ⟨t, rfl⟩ := mem_ofLines hs
  · exact absurd hl List.not_mem_nil
  · obtain rfl := List.mem_singleton.1 hl
    exact hP.text t

mutual

theorem forall_leaves_ofInline (hP : Leaf.Inherited P) (i : Inline) (h : ∀ l ∈ inlineLeaves i, P l) :
    ∀ l ∈ spansLeaves (Span.ofInline i), P l := by
  cases i with
  | text t => exact forall_leaves_ofLines hP true _
  | strong children | emphasis children =>
      simpa [Span.ofInline, spansLeaves, spanLeaves] using forall_leaves_ofInlines hP children h
  | math body =>
      simpa [Span.ofInline, spansLeaves, spanLeaves] using hP.inline (h _ (by simp [inlineLeaves]))
  | link url => simpa [Span.ofInline, spansLeaves, spanLeaves] using h _ (by simp [inlineLeaves])
  | lineBreak => simp [Span.ofInline, spansLeaves, spanLeaves]

theorem forall_leaves_ofInlines (hP : Leaf.Inherited P) (is : List Inline) (h : ∀ l ∈ inlinesLeaves is, P l) :
    ∀ l ∈ spansLeaves (Span.ofInlines is), P l := by
  cases is with
  | nil => simp [Span.ofInlines, spansLeaves]
  | cons i rest =>
      intro l hl
      rw [Span.ofInlines, spansLeaves_append, List.mem_append] at hl
      rcases hl with hl | hl
      · exact forall_leaves_ofInline hP i (fun l hl => h l (List.mem_append_left _ hl)) l hl
      · exact forall_leaves_ofInlines hP rest (fun l hl => h l (List.mem_append_right _ hl)) l hl

end

theorem forall_leaves_trimAtBreaks (hP : Leaf.Inherited P) (behind : Bool) (is : List Inline)
    (h : ∀ l ∈ inlinesLeaves is, P l) : ∀ l ∈ inlinesLeaves (trimAtBreaks behind is), P l := by
  induction is generalizing behind with
  | nil => exact h
  | cons i rest ih =>
      have hrest := fun behind => ih behind fun l hl => h l (List.mem_append_right _ hl)
      cases i with
      | text t =>
          intro l hl
          rcases List.mem_append.1 hl with hl | hl
          · obtain rfl := List.mem_singleton.1 hl
            exact hP.text _
          · exact hrest false l hl
      | strong | emphasis | math | link | lineBreak =>
          intro l hl
          rcases List.mem_append.1 hl with hl | hl
          · exact h l (List.mem_append_left _ hl)
          · exact hrest _ l hl

theorem forall_leaves_flattenBreaks (hP : Leaf.Inherited P) {content : List Inline}
    (h : ∀ l ∈ inlinesLeaves content, P l) : ∀ l ∈ inlinesLeaves (content.map flattenBreaks), P l := by
  induction content with
  | nil => exact h
  | cons i rest ih =>
      intro l hl
      rcases List.mem_append.1 hl with hl | hl
      · cases i with
        | text | lineBreak =>
            obtain rfl := List.mem_singleton.1 hl
            exact hP.text _
        | strong | emphasis | math | link => exact h l (List.mem_append_left _ hl)
      · exact ih (fun l hl => h l (List.mem_append_right _ hl)) l hl

/-! ### Pages -/

theorem forall_leaves_ofParagraph (hP : Leaf.Inherited P) {content : List Inline}
    (h : ∀ l ∈ inlinesLeaves content, P l) : ∀ l ∈ nodeLeaves (Node.ofParagraph content), P l :=
  forall_leaves_ofInlines hP _ (forall_leaves_trimAtBreaks hP false content h)

theorem forall_leaves_itemLead (hP : Leaf.Inherited P) (kind : Option ListKind) (index : Nat) :
    ∀ l ∈ inlinesLeaves (itemLead kind index), P l := by
  intro l hl
  match kind with
  | none =>
      obtain rfl := List.mem_singleton.1 hl
      exact hP.text _
  | some .numbered => exact absurd hl List.not_mem_nil
  | some .lettered =>
      simp only [itemLead, inlinesLeaves, inlineLeaves, List.append_nil, List.cons_append, List.nil_append,
        List.mem_cons, List.not_mem_nil, or_false] at hl
      rcases hl with rfl | rfl <;> exact hP.text _

theorem forall_leaves_leadParagraph (hP : Leaf.Inherited P) (kind : Option ListKind) (index : Nat) :
    ∀ l ∈ nodesLeaves (if itemLead kind index = [] then [] else [Node.ofParagraph (itemLead kind index)]), P l := by
  split
  · simp [nodesLeaves]
  · simpa [nodesLeaves] using forall_leaves_ofParagraph hP (forall_leaves_itemLead hP kind index)

mutual

theorem forall_leaves_ofBlock (hP : Leaf.Inherited P) :
    (b : Block) → (∀ l ∈ blockLeaves b, P l) → ∀ l ∈ nodeLeaves (Node.ofBlock b), P l
  | .heading _ content, h => by
    rw [Node.ofBlock]
    exact forall_leaves_ofInlines hP _ (forall_leaves_flattenBreaks hP h)
  | .paragraph content, h => by
    rw [Node.ofBlock]
    exact forall_leaves_ofParagraph hP h
  | .steps items, h => by
    rw [Node.ofBlock]
    exact forall_leaves_ofItems hP none 0 items h
  | .list .numbered items, h => by
    rw [Node.ofBlock]
    exact forall_leaves_ofItems hP (some .numbered) 0 items h
  | .list .lettered items, h => by
    rw [Node.ofBlock]
    exact forall_leaves_ofItems hP (some .lettered) 0 items h
  | .math body, h => by
    simpa [Node.ofBlock, nodeLeaves, spansLeaves, spanLeaves] using hP.display (h _ (by simp [blockLeaves]))
  | .callout children, h => by
    rw [Node.ofBlock]
    exact forall_leaves_ofBlocks hP children h

/-- **A property that is inherited** by the leaves of a page. -/
theorem forall_leaves_ofBlocks (hP : Leaf.Inherited P) :
    (bs : List Block) → (∀ l ∈ blocksLeaves bs, P l) → ∀ l ∈ nodesLeaves (Node.ofBlocks bs), P l
  | [], _ => by simp [Node.ofBlocks, nodesLeaves]
  | b :: rest, h => by
    intro l hl
    rw [Node.ofBlocks] at hl
    rcases List.mem_append.1 hl with hl | hl
    · exact forall_leaves_ofBlock hP b (fun l hl => h l (List.mem_append_left _ hl)) l hl
    · exact forall_leaves_ofBlocks hP rest (fun l hl => h l (List.mem_append_right _ hl)) l hl

theorem forall_leaves_ofItems (hP : Leaf.Inherited P) (kind : Option ListKind) (index : Nat) :
    (items : List (List Block)) → (∀ l ∈ itemsLeaves items, P l) →
      ∀ l ∈ nodeItemsLeaves (Node.ofItems kind index items), P l
  | [], _ => by simp [Node.ofItems, nodeItemsLeaves]
  | [] :: rest, h => by
    intro l hl
    rw [Node.ofItems] at hl
    rcases List.mem_append.1 hl with hl | hl
    · exact forall_leaves_leadParagraph hP kind index l hl
    · exact forall_leaves_ofItems hP kind (index + 1) rest h l hl
  | (b :: blocks) :: rest, h => by
    have hb := forall_leaves_ofBlock hP b fun l hl => h l (List.mem_append_left _ (List.mem_append_left _ hl))
    have hblocks := forall_leaves_ofBlocks hP blocks fun l hl =>
      h l (List.mem_append_left _ (List.mem_append_right _ hl))
    have hrest := forall_leaves_ofItems hP kind (index + 1) rest fun l hl => h l (List.mem_append_right _ hl)
    have hlead := forall_leaves_leadParagraph hP kind index
    intro l hl
    cases b with
    | paragraph content =>
        have hcontent : ∀ l ∈ inlinesLeaves (itemLead kind index ++ content), P l := by
          intro l hl
          rw [inlinesLeaves_append] at hl
          rcases List.mem_append.1 hl with hl | hl
          · exact forall_leaves_itemLead hP kind index l hl
          · exact h l (List.mem_append_left _ (List.mem_append_left _ hl))
        rw [Node.ofItems] at hl
        rcases List.mem_append.1 hl with hl | hl
        · rcases List.mem_append.1 hl with hl | hl
          · exact forall_leaves_ofParagraph hP hcontent l hl
          · exact hblocks l hl
        · exact hrest l hl
    | heading | steps | list | math | callout =>
        simp only [Node.ofItems, nodeItemsLeaves, nodesLeaves_append, nodesLeaves, List.mem_append] at hl
        rcases hl with (hl | hl | hl) | hl
        · exact hlead l hl
        · exact hb l hl
        · exact hblocks l hl
        · exact hrest l hl

end

end CribSheet.Markdown
