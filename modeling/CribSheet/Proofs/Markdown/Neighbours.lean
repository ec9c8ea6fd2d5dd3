/-
Neighbouring lists of a page.

Separators between neighbouring lists are taken out of the finished page, together with the blank line
behind them.  That works for the lists of the page itself.  In a box the blank line has a quote mark on it,
and in an item there is none, so that the separators between the lists there are not found, and the reader
sees them.

Main definitions:

* `CribSheet.allBlocks` — the blocks of a display tree, at any depth;
* `CribSheet.Block.Crowded` — a box with neighbouring lists, or a list with such an item;
* `CribSheet.Block.Regular` — a list with items whose numbers take the same room, or no list.

Main results:

* `CribSheet.Markdown.solid_allNodes_ofBlocks` — the nodes of a page are its blocks;
* `CribSheet.Markdown.separator_isInfix_render_iff` — when a reader sees a separator.
-/
import CribSheet.Proofs.Markdown.Adjoining

set_option relaxedAutoImplicit false
set_option autoImplicit false

namespace CribSheet

open CribSheet.Markdown

/-! ### Blocks -/

mutual

/-- The block and the blocks in it, at any depth. -/
def Block.all : Block → List Block
  | .heading level content => [.heading level content]
  | .paragraph content => [.paragraph content]
  | .steps items => .steps items :: allItemBlocks items
  | .list kind items => .list kind items :: allItemBlocks items
  | .math body => [.math body]
  | .callout children => .callout children :: allBlocks children

/-- **The blocks of a display tree**, at any depth. -/
def allBlocks : List Block → List Block
  | [] => []
  | b :: rest => b.all ++ allBlocks rest

/-- The blocks of some items, at any depth. -/
def allItemBlocks : List (List Block) → List Block
  | [] => []
  | item :: rest => allBlocks item ++ allItemBlocks rest

end

namespace Block

/-- The block is a list. -/
def isList : Block → Bool
  | steps _ => true
  | list .. => true
  | _ => false

/-- What the block holds directly, together as it stands. -/
def parts : Block → List (List Block)
  | steps items => items
  | list _ items => items
  | callout children => [children]
  | _ => []

/-- **The block holds neighbouring lists directly**: in a box, or in an item of a list. -/
def Crowded (b : Block) : Prop := ∃ part ∈ b.parts, Adjoining isList part

/-- **A list with items whose numbers take the same room**, or no list. -/
@[mk_iff]
structure Regular (b : Block) : Prop where
  /-- A list has items. -/
  filled : b.isList = true → b.parts ≠ []
  /-- A numbered list has no more than ninety-eight. -/
  narrow : ∀ items, b = list .numbered items → items.length ≤ 98

end Block

namespace Markdown

open Writer Opening

/-! ### The nodes of a page -/

/-- The node is a paragraph. -/
def Node.isParagraph : Node → Bool
  | .paragraph _ => true
  | _ => false

theorem ofBlocks_eq_map (bs : List Block) : Node.ofBlocks bs = bs.map Node.ofBlock := by
  induction bs with
  | nil => rfl
  | cons b bs ih => rw [Node.ofBlocks, ih, List.map_cons]

@[simp] theorem isList_ofBlock (b : Block) : (Node.ofBlock b).isList = b.isList := by
  rcases b with _ | _ | _ | ⟨⟨⟩, _⟩ | _ | _ <;> rw [Node.ofBlock] <;> rfl

theorem adjoining_map_ofBlock {bs : List Block} :
    Adjoining Node.isList (bs.map Node.ofBlock) ↔ Adjoining Block.isList bs := by
  induction bs with
  | nil => exact iff_of_false not_adjoining_nil not_adjoining_nil
  | cons b bs ih =>
      rw [List.map_cons, adjoining_cons, adjoining_cons, ih, isList_ofBlock, List.head?_map]
      cases bs <;> simp

theorem adjoining_ofBlocks {bs : List Block} :
    Adjoining Node.isList (Node.ofBlocks bs) ↔ Adjoining Block.isList bs := by
  rw [ofBlocks_eq_map, adjoining_map_ofBlock]

/-- What opens an item is not a list. -/
theorem adjoining_lead {kind : Option ListKind} {index : Nat} {ns : List Node} :
    Adjoining Node.isList
        ((if itemLead kind index = [] then [] else [Node.ofParagraph (itemLead kind index)]) ++ ns) ↔
      Adjoining Node.isList ns := by
  split
  · rfl
  · rw [List.singleton_append, adjoining_cons]
    simp [Node.ofParagraph, Node.isList]

theorem adjoining_ofItems (kind : Option ListKind) (index : Nat) (items : List (List Block)) :
    (∃ part ∈ Node.ofItems kind index items, Adjoining Node.isList part) ↔
      ∃ item ∈ items, Adjoining Block.isList item := by
  induction items generalizing index with
  | nil => simp [Node.ofItems]
  | cons item rest ih =>
      cases item with
      | nil =>
          have hlead := @adjoining_lead kind index []
          rw [List.append_nil] at hlead
          rw [Node.ofItems, List.exists_mem_cons_iff, List.exists_mem_cons_iff, ih, hlead]
          exact or_congr_left (iff_of_false not_adjoining_nil not_adjoining_nil)
      | cons b blocks =>
          cases b with
          | paragraph content =>
              rw [Node.ofItems, List.exists_mem_cons_iff, List.exists_mem_cons_iff, ih, adjoining_cons, adjoining_cons,
                adjoining_ofBlocks]
              simp [Node.ofParagraph, Node.isList, Block.isList]
          | heading | steps | list | math | callout =>
              simp only [Node.ofItems, List.exists_mem_cons_iff, ih, adjoining_lead]
              rw [← Node.ofBlocks, adjoining_ofBlocks]

theorem length_ofItems (kind : Option ListKind) (index : Nat) (items : List (List Block)) :
    (Node.ofItems kind index items).length = items.length := by
  induction items generalizing index with
  | nil => simp [Node.ofItems]
  | cons item rest ih =>
      rcases item with _ | ⟨⟨⟩, blocks⟩ <;> simp [Node.ofItems, ih]

theorem crowded_ofBlock {b : Block} : (Node.ofBlock b).Crowded ↔ b.Crowded := by
  rcases b with ⟨level, content⟩ | ⟨content⟩ | ⟨items⟩ | ⟨⟨⟩, items⟩ | ⟨body⟩ | ⟨children⟩
  · simp [Node.ofBlock, Block.Crowded, Block.parts]
  · simp [Node.ofBlock, Node.ofParagraph, Block.Crowded, Block.parts]
  · rw [Node.ofBlock, crowded_list, adjoining_ofItems]
    rfl
  · rw [Node.ofBlock, crowded_list, adjoining_ofItems]
    rfl
  · rw [Node.ofBlock, crowded_list, adjoining_ofItems]
    rfl
  · simp [Node.ofBlock, Block.Crowded, Block.parts]
  · simp [Node.ofBlock, Block.Crowded, Block.parts, adjoining_ofBlocks]

theorem ofItems_ne_nil {kind : Option ListKind} {index : Nat} {items : List (List Block)} (h : items ≠ []) :
    Node.ofItems kind index items ≠ [] := by
  rw [← List.length_pos_iff] at h ⊢
  rwa [length_ofItems]

theorem regular_ofBlock {b : Block} (h : b.Regular) : (Node.ofBlock b).Regular := by
  rcases b with ⟨level, content⟩ | ⟨content⟩ | ⟨items⟩ | ⟨kind, items⟩ | ⟨body⟩ | ⟨children⟩
  · exact ⟨fun hlist => by simp [Block.isList] at hlist, by rw [Node.ofBlock]; trivial⟩
  · exact ⟨fun hlist => by simp [Block.isList] at hlist, by rw [Node.ofBlock]; trivial⟩
  · have hne : items ≠ [] := h.filled rfl
    rw [Node.ofBlock]
    exact ⟨fun _ => ofItems_ne_nil hne, trivial⟩
  · have hne : items ≠ [] := h.filled rfl
    cases kind with
    | numbered =>
        have hle : items.length ≤ 98 := h.narrow items rfl
        rw [Node.ofBlock]
        exact ⟨fun _ => ofItems_ne_nil hne, by rwa [Node.Narrow, length_ofItems]⟩
    | lettered =>
        rw [Node.ofBlock]
        exact ⟨fun _ => ofItems_ne_nil hne, trivial⟩
  · exact ⟨fun hlist => by simp [Block.isList] at hlist, by rw [Node.ofBlock]; trivial⟩
  · exact ⟨fun hlist => by simp [Block.isList] at hlist, by rw [Node.ofBlock]; trivial⟩

/-- The nodes that are no paragraphs. -/
def Node.solid (ns : List Node) : List Node := ns.filter fun n => !n.isParagraph

/-- The blocks that do not become paragraphs. -/
def Block.solid (bs : List Block) : List Block := bs.filter fun b => !(Node.ofBlock b).isParagraph

theorem solid_leadParagraph (kind : Option ListKind) (index : Nat) :
    Node.solid (allNodes (if itemLead kind index = [] then [] else [Node.ofParagraph (itemLead kind index)])) = [] := by
  split <;> rfl

theorem allNodes_append (ns ns' : List Node) : allNodes (ns ++ ns') = allNodes ns ++ allNodes ns' := by
  induction ns with
  | nil => rfl
  | cons n ns ih => rw [List.cons_append, allNodes, allNodes, ih, List.append_assoc]

theorem Node.solid_append (ns ns' : List Node) : Node.solid (ns ++ ns') = Node.solid ns ++ Node.solid ns' :=
  List.filter_append ..

theorem Block.solid_append (bs bs' : List Block) : Block.solid (bs ++ bs') = Block.solid bs ++ Block.solid bs' :=
  List.filter_append ..

theorem Node.solid_cons (n : Node) (ns : List Node) :
    Node.solid (n :: ns) = if n.isParagraph then Node.solid ns else n :: Node.solid ns := by
  cases hkind : n.isParagraph <;> simp [Node.solid, hkind]

theorem Block.solid_cons (b : Block) (bs : List Block) :
    Block.solid (b :: bs) = if (Node.ofBlock b).isParagraph then Block.solid bs else b :: Block.solid bs := by
  cases hkind : (Node.ofBlock b).isParagraph <;> simp [Block.solid, hkind]

/-- A block becomes one node, in front of what its parts become. -/
theorem solid_cons_ofBlock (b : Block) {ns : List Node} {bs : List Block}
    (h : Node.solid ns = (Block.solid bs).map Node.ofBlock) :
    Node.solid (Node.ofBlock b :: ns) = (Block.solid (b :: bs)).map Node.ofBlock := by
  rw [Node.solid_cons, Block.solid_cons, h]
  split <;> rfl

mutual

theorem solid_all_ofBlock : (b : Block) → Node.solid (Node.ofBlock b).all = (Block.solid b.all).map Node.ofBlock
  | .heading level content => @solid_cons_ofBlock (.heading level content) [] [] rfl
  | .paragraph content => @solid_cons_ofBlock (.paragraph content) [] [] rfl
  | .steps items => solid_cons_ofBlock (.steps items) (solid_allItemNodes_ofItems none 0 items)
  | .list .numbered items =>
    solid_cons_ofBlock (.list .numbered items) (solid_allItemNodes_ofItems (some .numbered) 0 items)
  | .list .lettered items =>
    solid_cons_ofBlock (.list .lettered items) (solid_allItemNodes_ofItems (some .lettered) 0 items)
  | .math body => @solid_cons_ofBlock (.math body) [] [] rfl
  | .callout children => solid_cons_ofBlock (.callout children) (solid_allNodes_ofBlocks children)

/-- **The nodes of a page** are its blocks, paragraphs apart. -/
theorem solid_allNodes_ofBlocks :
    (bs : List Block) → Node.solid (allNodes (Node.ofBlocks bs)) = (Block.solid (allBlocks bs)).map Node.ofBlock
  | [] => rfl
  | b :: rest => by
    rw [Node.ofBlocks, allNodes, allBlocks, Node.solid_append, Block.solid_append, List.map_append,
      solid_all_ofBlock b, solid_allNodes_ofBlocks rest]

theorem solid_allItemNodes_ofItems (kind : Option ListKind) (index : Nat) : (items : List (List Block)) →
    Node.solid (allItemNodes (Node.ofItems kind index items)) = (Block.solid (allItemBlocks items)).map Node.ofBlock
  | [] => by simp [Node.ofItems, allItemNodes, allItemBlocks, Node.solid, Block.solid]
  | [] :: rest => by
    rw [Node.ofItems, allItemNodes, allItemBlocks, allBlocks, Node.solid_append, solid_leadParagraph,
      solid_allItemNodes_ofItems kind (index + 1) rest]
    rfl
  | (b :: blocks) :: rest => by
    have hb := solid_all_ofBlock b
    have hblocks := solid_allNodes_ofBlocks blocks
    have hrest := solid_allItemNodes_ofItems kind (index + 1) rest
    rw [allItemBlocks, allBlocks, Block.solid_append, Block.solid_append, List.map_append, List.map_append,
      ← hb, ← hblocks, ← hrest]
    cases b with
    | paragraph content =>
        rw [Node.ofItems, allItemNodes, allNodes, Node.solid_append, Node.solid_append]
        rfl
    | heading | steps | list | math | callout =>
        simp only [Node.ofItems, allItemNodes, allNodes_append, allNodes, Node.solid_append, solid_leadParagraph,
          List.nil_append, List.append_assoc]

end

/-! ### The page -/

/-- A property that paragraphs have passes from the blocks of a page to its nodes. -/
theorem forall_allNodes_ofBlocks {P : Node → Prop} (hparagraph : ∀ content, P (.paragraph content)) {bs : List Block}
    (h : ∀ b ∈ allBlocks bs, P (Node.ofBlock b)) : ∀ n ∈ allNodes (Node.ofBlocks bs), P n := by
  intro n hn
  cases hkind : n.isParagraph with
  | true =>
      cases n with
      | paragraph content => exact hparagraph content
      | heading | quote | list => simp [Node.isParagraph] at hkind
  | false =>
      have hsolid : n ∈ Node.solid (allNodes (Node.ofBlocks bs)) := List.mem_filter.2 ⟨hn, by simp [hkind]⟩
      rw [solid_allNodes_ofBlocks] at hsolid
      obtain ⟨b, hb, rfl⟩ := List.mem_map.1 hsolid
      exact h b (List.mem_filter.1 hb).1

theorem regular_allNodes_ofBlocks {bs : List Block} (h : ∀ b ∈ allBlocks bs, b.Regular) :
    ∀ n ∈ allNodes (Node.ofBlocks bs), n.Regular :=
  forall_allNodes_ofBlocks (fun _ => ⟨fun hlist => by simp [Node.isList] at hlist, trivial⟩) fun b hb =>
    regular_ofBlock (h b hb)

/-- The page has a crowded node exactly when the display tree has a crowded block. -/
theorem exists_crowded_ofBlocks {bs : List Block} :
    (∃ n ∈ allNodes (Node.ofBlocks bs), n.Crowded) ↔ ∃ b ∈ allBlocks bs, b.Crowded := by
  constructor
  · contrapose!
    intro h
    exact forall_allNodes_ofBlocks not_crowded_paragraph fun b hb => mt crowded_ofBlock.1 (h b hb)
  · rintro ⟨b, hb, hcrowded⟩
    have hnode := crowded_ofBlock.2 hcrowded
    have hkind : (Node.ofBlock b).isParagraph = false := by
      cases hn : Node.ofBlock b with
      | paragraph content => exact absurd (hn ▸ hnode) (not_crowded_paragraph content)
      | heading | quote | list => rfl
    have hsolid : Node.ofBlock b ∈ Node.solid (allNodes (Node.ofBlocks bs)) := by
      rw [solid_allNodes_ofBlocks]
      exact List.mem_map_of_mem (List.mem_filter.2 ⟨hb, by simp [hkind]⟩)
    exact ⟨_, (List.mem_filter.1 hsolid).1, hnode⟩

/-- The line break at the end of a page is a character like others. -/
theorem spells_page {l : Prop} {nodes : List Node} (h : Shows l (writeNodes false nodes {})) :
    ∃ gs, (clear.reads gs).Free ∧ page nodes = spell gs ∧ ((∃ c, Glyph.kept c ∈ gs) ↔ l) := by
  obtain ⟨gs, hgs, htext, hl⟩ := h.spells
  unfold page
  simp only
  split
  · exact ⟨gs, hgs, htext, hl⟩
  · refine ⟨gs ++ ['\n'].map .char, ?_, ?_, (exists_kept_append_chars _).trans hl⟩
    · rw [reads_append, reads_chars]
      exact hgs.next (by decide)
    · rw [htext, spell_append, spell_chars]

/-- **When a reader sees a separator**: when two lists stand next to each other in a box or in an item, at any
depth.  Formulas and addresses hold no start of a comment, and lists have items, numbered ones up to
ninety-eight. -/
theorem separator_isInfix_render_iff {blocks : List Block} (hleaves : ∀ l ∈ blocksLeaves blocks, l.Uncommented)
    (hregular : ∀ b ∈ allBlocks blocks, b.Regular) :
    listSeparator <:+: render blocks ↔ ∃ b ∈ allBlocks blocks, b.Crowded := by
  have hleaves' := forall_leaves_ofBlocks Leaf.inherited_uncommented blocks hleaves
  have hwrite := writeNodes_shows false (Node.ofBlocks blocks) hleaves' (regular_allNodes_ofBlocks hregular)
    (by simp) (fun _ => rfl) (.inl shows_start)
  obtain ⟨gs, hgs, hpage, hl⟩ := spells_page hwrite
  have hremove := separator_isInfix_removeSeparators_iff hgs.ne_comment
  rw [render, hpage, ← separatorLine, hremove, hl, ← exists_crowded_ofBlocks]
  simp

/-- The separator of two lists in a page is taken out, and there are none behind other blocks. -/
theorem not_separator_isInfix_render_of_lists :
    let blocks := [Block.steps [[.paragraph [.text ['a']], .list .numbered [[.paragraph [.text ['b']]]]]],
      .steps [[.callout [.paragraph [.text ['c']], .list .lettered [[.math ['d']]]]]]]
    (∀ l ∈ blocksLeaves blocks, l.Uncommented) ∧ (∀ b ∈ allBlocks blocks, b.Regular) ∧
      ¬ listSeparator <:+: render blocks := by
  intro blocks
  have hmath : ¬ commentStart <:+: ['d'] := by decide
  have hleaves : ∀ l ∈ blocksLeaves blocks, l.Uncommented := by
    simp [blocks, blocksLeaves, itemsLeaves, blockLeaves, inlinesLeaves, inlineLeaves, Leaf.Uncommented, hmath]
  have hregular : ∀ b ∈ allBlocks blocks, b.Regular := by
    simp [blocks, allBlocks, allItemBlocks, Block.all, Block.regular_iff, Block.isList, Block.parts]
  have hcrowded : ¬ ∃ b ∈ allBlocks blocks, b.Crowded := by
    simp [blocks, allBlocks, allItemBlocks, Block.all, Block.Crowded, Block.isList, Block.parts, adjoining_cons,
      not_adjoining_nil]
  exact ⟨hleaves, hregular, mt (separator_isInfix_render_iff hleaves hregular).1 hcrowded⟩

/-- **In a box the reader sees the separator** of two lists. -/
theorem separator_isInfix_render_of_box :
    let blocks := [Block.callout [.steps [[.paragraph [.text ['a']]]], .steps [[.paragraph [.text ['b']]]]]]
    (∀ l ∈ blocksLeaves blocks, l.Uncommented) ∧ (∀ b ∈ allBlocks blocks, b.Regular) ∧
      listSeparator <:+: render blocks := by
  intro blocks
  refine ⟨?_, ?_, by decide +kernel⟩
  · simp [blocks, blocksLeaves, itemsLeaves, blockLeaves, inlinesLeaves, inlineLeaves, Leaf.Uncommented]
  · simp [blocks, allBlocks, allItemBlocks, Block.all, Block.regular_iff, Block.isList, Block.parts]

end Markdown

end CribSheet
