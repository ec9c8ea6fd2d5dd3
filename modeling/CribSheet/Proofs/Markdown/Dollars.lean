/-
Dollar signs of a page.

A page is written from the leaves of its tree: texts, formulas and addresses.  Formulas are written between
dollar signs, two for one in the line and four for one on lines of its own; nothing else that the writer
adds is a dollar sign.  Texts keep the dollar signs they hold, since prose does not escape them.  So where
formulas and addresses hold neither a dollar sign nor a backslash, the open dollars of the page are those of
its formulas and those in its texts; a page whose texts hold none has no delimiters but those of formulas.

Main definitions:

* `CribSheet.Markdown.Leaf` — texts, formulas and addresses;
* `CribSheet.Markdown.blocksLeaves` — the leaves of a display tree, at any depth;
* `CribSheet.Markdown.Leaf.IsBare` — a formula or an address without dollar signs and backslashes.

Main results:

* `CribSheet.Markdown.follows_ofBlocks` — the tree of a page keeps the dollars of the display tree;
* `CribSheet.Markdown.writeNodes_tracks` — writing a page opens the dollars of its leaves;
* `CribSheet.Markdown.openDollars_render` — the open dollars of a page.
-/
import CribSheet.Proofs.Markdown.Writer
import CribSheet.Proofs.Markup.Heads

set_option relaxedAutoImplicit false
set_option autoImplicit false

namespace CribSheet.Markdown

open Writer

/-! ### Leaves -/

/-- What the branches of a tree end in. -/
inductive Leaf
  /-- Characters that are shown. -/
  | text (t : Text)
  /-- A formula, on lines of its own or not. -/
  | math (display : Bool) (body : Text)
  /-- An address. -/
  | link (url : Text)
deriving DecidableEq

namespace Leaf

/-- A formula or an address holds neither a dollar sign nor a backslash. -/
def IsBare : Leaf → Prop
  | text _ => True
  | math _ body => '$' ∉ body ∧ '\\' ∉ body
  | link url => '$' ∉ url ∧ '\\' ∉ url

/-- The leaf is a formula in the line. -/
def isInline : Leaf → Bool
  | math display _ => !display
  | _ => false

/-- The leaf is a formula on lines of its own. -/
def isDisplay : Leaf → Bool
  | math display _ => display
  | _ => false

/-- The characters that the leaf shows as they are. -/
def shown : Leaf → Text
  | text t => t
  | _ => []

/-- How many dollars the leaf opens. -/
def dollars : Leaf → Nat
  | text t => t.count '$'
  | math display _ => if display then 4 else 2
  | link _ => 0

end Leaf

/-- All the leaves are bare. -/
def Bare (ls : List Leaf) : Prop := ∀ l ∈ ls, l.IsBare

/-- How many dollars the leaves open. -/
def dollars : List Leaf → Nat
  | [] => 0
  | l :: ls => l.dollars + dollars ls

@[simp] theorem dollars_nil : dollars [] = 0 := rfl

@[simp] theorem dollars_cons (l : Leaf) (ls : List Leaf) : dollars (l :: ls) = l.dollars + dollars ls := rfl

@[simp] theorem dollars_append (ls ls' : List Leaf) : dollars (ls ++ ls') = dollars ls + dollars ls' := by
  induction ls with
  | nil => simp
  | cons l ls ih => rw [List.cons_append, dollars_cons, dollars_cons, ih, Nat.add_assoc]

@[simp] theorem bare_nil : Bare [] := by simp [Bare]

@[simp] theorem bare_cons {l : Leaf} {ls : List Leaf} : Bare (l :: ls) ↔ l.IsBare ∧ Bare ls := by simp [Bare]

@[simp] theorem bare_append {ls ls' : List Leaf} : Bare (ls ++ ls') ↔ Bare ls ∧ Bare ls' := by
  simp [Bare, or_imp, forall_and]

/-- **The dollars of some leaves**: two for a formula in the line, four for one on lines of its own, and
those in the texts. -/
theorem dollars_eq (ls : List Leaf) :
    dollars ls =
      2 * ls.countP Leaf.isInline + 4 * ls.countP Leaf.isDisplay + (ls.flatMap Leaf.shown).count '$' := by
  induction ls with
  | nil => rfl
  | cons l ls ih =>
    rw [dollars_cons, ih, List.countP_cons, List.countP_cons, List.flatMap_cons, List.count_append]
    cases l with
    | text t =>
      simp only [Leaf.dollars, Leaf.isInline, Leaf.isDisplay, Leaf.shown, Bool.false_eq_true, if_false]
      omega
    | math display body =>
      cases display <;>
        simp [Leaf.dollars, Leaf.isInline, Leaf.isDisplay, Leaf.shown] <;> omega
    | link url => simp [Leaf.dollars, Leaf.isInline, Leaf.isDisplay, Leaf.shown]

/-- The leaves `ls'` come from `ls`: they open as many dollars, and are bare when those are. -/
structure Follows (ls ls' : List Leaf) : Prop where
  /-- They open as many dollars. -/
  count : dollars ls' = dollars ls
  /-- They are bare when those are. -/
  bare : Bare ls → Bare ls'

namespace Follows

theorem refl (ls : List Leaf) : Follows ls ls := ⟨rfl, id⟩

theorem trans {ls₁ ls₂ ls₃ : List Leaf} (h : Follows ls₁ ls₂) (h' : Follows ls₂ ls₃) : Follows ls₁ ls₃ :=
  ⟨h'.count.trans h.count, h'.bare ∘ h.bare⟩

theorem append {ls₁ ls₂ ls₁' ls₂' : List Leaf} (h : Follows ls₁ ls₁') (h' : Follows ls₂ ls₂') :
    Follows (ls₁ ++ ls₂) (ls₁' ++ ls₂') := by
  constructor
  · rw [dollars_append, dollars_append, h.count, h'.count]
  · simp only [bare_append]
    exact And.imp h.bare h'.bare

/-- What opens nothing and is bare may be put in front. -/
theorem lead {ls ls' lead : List Leaf} (h : Follows ls ls') (hlead : dollars lead = 0) (hbare : Bare lead) :
    Follows ls (lead ++ ls') := by
  constructor
  · rw [dollars_append, hlead, Nat.zero_add, h.count]
  · intro hls
    exact bare_append.2 ⟨hbare, h.bare hls⟩

theorem math {display : Bool} {body body' : Text} (h : ∀ c, c ∉ body → c ∉ body' ∨ isBlank c = true) :
    Follows [.math display body] [.math display body'] := by
  refine ⟨rfl, ?_⟩
  simp only [bare_cons, bare_nil, and_true]
  rintro ⟨hdollar, hslash⟩
  exact ⟨(h _ hdollar).resolve_right (by decide), (h _ hslash).resolve_right (by decide)⟩

end Follows

/-! ### Leaves of trees -/

mutual

/-- The leaves of an inline, at any depth. -/
def inlineLeaves : Inline → List Leaf
  | .text t => [.text t]
  | .strong children => inlinesLeaves children
  | .emphasis children => inlinesLeaves children
  | .math body => [.math false body]
  | .link url => [.link url]
  | .lineBreak => []

/-- The leaves of some inlines, at any depth. -/
def inlinesLeaves : List Inline → List Leaf
  | [] => []
  | i :: rest => inlineLeaves i ++ inlinesLeaves rest

end

mutual

/-- The leaves of a block, at any depth. -/
def blockLeaves : Block → List Leaf
  | .heading _ content => inlinesLeaves content
  | .paragraph content => inlinesLeaves content
  | .steps items => itemsLeaves items
  | .list _ items => itemsLeaves items
  | .math body => [.math true body]
  | .callout children => blocksLeaves children

/-- **The leaves of some blocks**, at any depth. -/
def blocksLeaves : List Block → List Leaf
  | [] => []
  | b :: rest => blockLeaves b ++ blocksLeaves rest

/-- The leaves of some items, at any depth. -/
def itemsLeaves : List (List Block) → List Leaf
  | [] => []
  | item :: rest => blocksLeaves item ++ itemsLeaves rest

end

mutual

/-- The leaves of a span, at any depth. -/
def spanLeaves : Span → List Leaf
  | .text t => [.text t]
  | .softBreak => []
  | .hardBreak => []
  | .strong children => spansLeaves children
  | .emphasis children => spansLeaves children
  | .math display body => [.math display body]
  | .link url => [.link url]

/-- The leaves of some spans, at any depth. -/
def spansLeaves : List Span → List Leaf
  | [] => []
  | s :: rest => spanLeaves s ++ spansLeaves rest

end

mutual

/-- The leaves of a node, at any depth. -/
def nodeLeaves : Node → List Leaf
  | .heading _ content => spansLeaves content
  | .paragraph content => spansLeaves content
  | .quote children => nodesLeaves children
  | .list _ items => nodeItemsLeaves items

/-- The leaves of some nodes, at any depth. -/
def nodesLeaves : List Node → List Leaf
  | [] => []
  | n :: rest => nodeLeaves n ++ nodesLeaves rest

/-- The leaves of the items of a list, at any depth. -/
def nodeItemsLeaves : List (List Node) → List Leaf
  | [] => []
  | item :: rest => nodesLeaves item ++ nodeItemsLeaves rest

end

theorem spansLeaves_append (ss ss' : List Span) :
    spansLeaves (ss ++ ss') = spansLeaves ss ++ spansLeaves ss' := by
  induction ss with
  | nil => rfl
  | cons s ss ih => rw [List.cons_append, spansLeaves, spansLeaves, ih, List.append_assoc]

theorem inlinesLeaves_append (is is' : List Inline) :
    inlinesLeaves (is ++ is') = inlinesLeaves is ++ inlinesLeaves is' := by
  induction is with
  | nil => rfl
  | cons i is ih => rw [List.cons_append, inlinesLeaves, inlinesLeaves, ih, List.append_assoc]

/-! ### Running text -/

/-- A dollar sign is no blank. -/
theorem visible_dollar : Markup.Visible (· == '$') := by
  intro c hc
  rw [beq_iff_eq] at hc
  subst hc
  decide

theorem count_trimStart (t : Text) : t.trimStart.count '$' = t.count '$' := visible_dollar.countP_trimStart t

theorem count_trimEnd (t : Text) : t.trimEnd.count '$' = t.count '$' :=
  visible_dollar.countP_dropEndWhile (fun _ h => h) t

/-- Exchanging characters that are no dollar signs. -/
theorem count_map {f : Char → Char} (hf : ∀ c, f c = '$' ↔ c = '$') (t : Text) :
    (t.map f).count '$' = t.count '$' := by
  induction t with
  | nil => rfl
  | cons c t ih =>
    rw [List.map_cons, count_dollar_cons, count_dollar_cons, ih]
    simp only [hf]

/-- The lines of a text hold its dollar signs. -/
theorem count_flatten_lines (t : Text) : (Text.lines t).flatten.count '$' = t.count '$' := by
  unfold Text.lines
  induction t with
  | nil => rfl
  | cons c t ih =>
    rw [Text.splitOn, count_dollar_cons, ← ih]
    split
    · next hc =>
      subst hc
      simp
    · cases h : Text.splitOn '\n' t with
      | nil => exact absurd h (Text.splitOn_ne_nil '\n' t)
      | cons piece pieces => simp only [List.flatten_cons, List.cons_append, count_dollar_cons]

theorem leaves_ofLines (first : Bool) (ls : List Text) :
    Bare (spansLeaves (Span.ofLines first ls)) ∧
      dollars (spansLeaves (Span.ofLines first ls)) = ls.flatten.count '$' := by
  induction ls generalizing first with
  | nil => exact ⟨bare_nil, rfl⟩
  | cons line rest ih =>
    obtain ⟨hbare, hdollars⟩ := ih false
    rw [Span.ofLines, spansLeaves_append, spansLeaves_append, bare_append, bare_append, dollars_append,
      dollars_append, hdollars, List.flatten_cons, List.count_append]
    have hbreak : spansLeaves (if first then [] else [Span.softBreak]) = [] := by cases first <;> rfl
    have hline : ∀ t : Text, Bare (spansLeaves (if t = [] then [] else [Span.text t])) ∧
        dollars (spansLeaves (if t = [] then [] else [Span.text t])) = t.count '$' := by
      intro t
      split
      · next ht =>
        subst ht
        exact ⟨bare_nil, rfl⟩
      · exact ⟨by simp [spansLeaves, spanLeaves, Leaf.IsBare], by simp [spansLeaves, spanLeaves, Leaf.dollars]⟩
    rw [hbreak, dollars_nil, Nat.zero_add, (hline _).2]
    refine ⟨⟨⟨bare_nil, (hline _).1⟩, hbare⟩, ?_⟩
    congr 1
    cases first <;> cases rest.isEmpty <;> simp [count_trimStart, count_trimEnd]

/-- **The spans of some characters** hold their dollar signs. -/
theorem follows_ofText (t : Text) : Follows [.text t] (spansLeaves (Span.ofText t)) := by
  have htab : ∀ c, (if c = '\t' then ' ' else c) = '$' ↔ c = '$' := by
    intro c
    split
    · next hc =>
      subst hc
      decide
    · rfl
  obtain ⟨hbare, hdollars⟩ := leaves_ofLines true (Text.lines (t.map fun c => if c = '\t' then ' ' else c))
  constructor
  · rw [Span.ofText, hdollars, count_flatten_lines, count_map htab]
    simp [Leaf.dollars]
  · exact fun _ => hbare

mutual

/-- **The spans of an inline** come from its leaves. -/
theorem follows_ofInline (i : Inline) : Follows (inlineLeaves i) (spansLeaves (Span.ofInline i)) := by
  cases i with
  | text t =>
    rw [Span.ofInline, inlineLeaves]
    exact follows_ofText t
  | strong children =>
    simpa [Span.ofInline, inlineLeaves, spansLeaves, spanLeaves] using follows_ofInlines children
  | emphasis children =>
    simpa [Span.ofInline, inlineLeaves, spansLeaves, spanLeaves] using follows_ofInlines children
  | math body =>
    simp only [Span.ofInline, inlineLeaves, spansLeaves, spanLeaves, List.append_nil]
    exact .math fun c hc => .inl (Text.deletes_trim.not_mem hc)
  | link url => exact .refl _
  | lineBreak => exact .refl _

/-- The spans of some inlines come from their leaves. -/
theorem follows_ofInlines (is : List Inline) : Follows (inlinesLeaves is) (spansLeaves (Span.ofInlines is)) := by
  cases is with
  | nil => exact .refl _
  | cons i rest =>
    rw [Span.ofInlines, inlinesLeaves, spansLeaves_append]
    exact (follows_ofInline i).append (follows_ofInlines rest)

end

/-- A text may be exchanged for another with as many dollar signs. -/
theorem follows_text {t u : Text} (h : u.count '$' = t.count '$') : Follows [.text t] [.text u] :=
  ⟨by simp [Leaf.dollars, h], by simp [Leaf.IsBare]⟩

theorem follows_trimAtBreaks (behind : Bool) (is : List Inline) :
    Follows (inlinesLeaves is) (inlinesLeaves (trimAtBreaks behind is)) := by
  induction is generalizing behind with
  | nil => exact .refl _
  | cons i rest ih =>
    cases i with
    | text t =>
      simp only [trimAtBreaks, inlinesLeaves, inlineLeaves]
      refine (follows_text ?_).append (ih false)
      cases behind <;> cases rest.head?.any isBreak <;> simp [count_trimStart, count_trimEnd]
    | strong | emphasis | math | link | lineBreak =>
      simp only [trimAtBreaks, inlinesLeaves]
      exact (Follows.refl _).append (ih _)

theorem follows_ofParagraph (content : List Inline) :
    Follows (inlinesLeaves content) (nodeLeaves (Node.ofParagraph content)) := by
  rw [Node.ofParagraph, nodeLeaves]
  exact (follows_trimAtBreaks false content).trans (follows_ofInlines _)

theorem follows_flattenBreaks (content : List Inline) :
    Follows (inlinesLeaves content) (inlinesLeaves (content.map flattenBreaks)) := by
  induction content with
  | nil => exact .refl _
  | cons i rest ih =>
    rw [List.map_cons, inlinesLeaves, inlinesLeaves]
    refine Follows.append ?_ ih
    cases i with
    | text t =>
      refine follows_text (count_map ?_ t)
      intro c
      split
      · next hc =>
        subst hc
        decide
      · rfl
    | lineBreak => exact ⟨rfl, fun _ => by simp [flattenBreaks, inlineLeaves, Leaf.IsBare]⟩
    | strong | emphasis | math | link => exact .refl _

/-! ### Pages -/

/-- The letters of an item are no dollar signs. -/
theorem dollar_not_mem_letters (index : Nat) : '$' ∉ ListKind.letters index := by
  have hletter : ∀ k : Fin 26, '$' ≠ Char.ofNat ('a'.toNat + k.val) := by decide
  induction index using Nat.strong_induction_on with
  | _ index ih =>
    rw [ListKind.letters]
    have hlast := hletter ⟨index % 26, Nat.mod_lt _ (by decide)⟩
    split
    · simpa using hlast
    · rw [List.mem_append, List.mem_singleton, not_or]
      exact ⟨ih _ (by omega), hlast⟩

/-- What opens an item is text without dollar signs. -/
theorem leaves_itemLead (kind : Option ListKind) (index : Nat) :
    Bare (inlinesLeaves (itemLead kind index)) ∧ dollars (inlinesLeaves (itemLead kind index)) = 0 := by
  match kind with
  | none => exact ⟨by simp [itemLead, inlinesLeaves, inlineLeaves, Leaf.IsBare], rfl⟩
  | some .numbered => exact ⟨bare_nil, rfl⟩
  | some .lettered =>
    refine ⟨by simp [itemLead, inlinesLeaves, inlineLeaves, Leaf.IsBare], ?_⟩
    have hlabel : (ListKind.lettered.label index).count '$' = 0 :=
      List.count_eq_zero.2 (dollar_not_mem_letters index)
    simp [itemLead, inlinesLeaves, inlineLeaves, Leaf.dollars, hlabel]

/-- The paragraph that opens an item, if any. -/
theorem leaves_leadParagraph (kind : Option ListKind) (index : Nat) :
    let paragraphs := if itemLead kind index = [] then [] else [Node.ofParagraph (itemLead kind index)]
    Bare (nodesLeaves paragraphs) ∧ dollars (nodesLeaves paragraphs) = 0 := by
  intro paragraphs
  obtain ⟨hbare, hdollars⟩ := leaves_itemLead kind index
  have hlead := follows_ofParagraph (itemLead kind index)
  unfold paragraphs
  split
  · exact ⟨bare_nil, rfl⟩
  · simp only [nodesLeaves, List.append_nil]
    exact ⟨hlead.bare hbare, hlead.count.trans hdollars⟩

theorem nodesLeaves_append (ns ns' : List Node) :
    nodesLeaves (ns ++ ns') = nodesLeaves ns ++ nodesLeaves ns' := by
  induction ns with
  | nil => rfl
  | cons n ns ih => rw [List.cons_append, nodesLeaves, nodesLeaves, ih, List.append_assoc]

mutual

/-- The node of a block comes from its leaves. -/
theorem follows_ofBlock : (b : Block) → Follows (blockLeaves b) (nodeLeaves (Node.ofBlock b))
  | .heading _ content => by
    rw [Node.ofBlock, blockLeaves, nodeLeaves]
    exact (follows_flattenBreaks content).trans (follows_ofInlines _)
  | .paragraph content => by
    rw [Node.ofBlock, blockLeaves]
    exact follows_ofParagraph content
  | .steps items => by
    rw [Node.ofBlock, blockLeaves, nodeLeaves]
    exact follows_ofItems none 0 items
  | .list .numbered items => by
    rw [Node.ofBlock, blockLeaves, nodeLeaves]
    exact follows_ofItems (some .numbered) 0 items
  | .list .lettered items => by
    rw [Node.ofBlock, blockLeaves, nodeLeaves]
    exact follows_ofItems (some .lettered) 0 items
  | .math body => by
    simp only [Node.ofBlock, blockLeaves, nodeLeaves, spansLeaves, spanLeaves, List.append_nil]
    refine .math fun c hc => ?_
    -- The line breaks around the formula are blanks.
    by_cases hnewline : c = '\n'
    · subst hnewline
      exact .inr (by decide)
    · exact .inl (by simp [hnewline, Text.deletes_trim.not_mem hc])
  | .callout children => by
    rw [Node.ofBlock, blockLeaves, nodeLeaves]
    exact follows_ofBlocks children

/-- **The nodes of some blocks** come from their leaves. -/
theorem follows_ofBlocks : (bs : List Block) → Follows (blocksLeaves bs) (nodesLeaves (Node.ofBlocks bs))
  | [] => .refl _
  | b :: rest => by
    rw [Node.ofBlocks, blocksLeaves, nodesLeaves]
    exact (follows_ofBlock b).append (follows_ofBlocks rest)

/-- The items of a list come from their leaves. -/
theorem follows_ofItems (kind : Option ListKind) (index : Nat) :
    (items : List (List Block)) →
      Follows (itemsLeaves items) (nodeItemsLeaves (Node.ofItems kind index items))
  | [] => .refl _
  | [] :: rest => by
    obtain ⟨hbare, hdollars⟩ := leaves_leadParagraph kind index
    rw [Node.ofItems, itemsLeaves, blocksLeaves, nodeItemsLeaves]
    have hlead := (Follows.refl []).lead hdollars hbare
    rw [List.append_nil] at hlead
    exact hlead.append (follows_ofItems kind (index + 1) rest)
  | (b :: blocks) :: rest => by
    have hblock := follows_ofBlock b
    have hblocks := follows_ofBlocks blocks
    have hrest := follows_ofItems kind (index + 1) rest
    rw [itemsLeaves, blocksLeaves]
    cases b with
    | paragraph content =>
      -- What opens the item joins its first paragraph.
      obtain ⟨hbare, hdollars⟩ := leaves_itemLead kind index
      have hcontent : Follows (inlinesLeaves content) (inlinesLeaves (itemLead kind index ++ content)) := by
        rw [inlinesLeaves_append]
        exact (Follows.refl _).lead hdollars hbare
      rw [Node.ofItems, blockLeaves, nodeItemsLeaves, nodesLeaves]
      exact ((hcontent.trans (follows_ofParagraph _)).append hblocks).append hrest
    | heading | steps | list | math | callout =>
      obtain ⟨hbare, hdollars⟩ := leaves_leadParagraph kind index
      simp only [Node.ofItems, nodeItemsLeaves]
      rw [nodesLeaves_append, nodesLeaves]
      exact ((hblock.append hblocks).lead hdollars hbare).append hrest

end

/-! ### Writing -/

/-- A formula opens its fences. -/
theorem Tracks.formula {n : Nat} {w : Writer} (h : Tracks n w) {fence body : Text} {k : Nat}
    (hfence : fence = List.replicate (k + 1) '$') (hdollar : '$' ∉ body) (hslash : '\\' ∉ body) :
    Tracks (n + 2 * (k + 1)) (((w.literal fence).literal body).literal fence) := by
  have hplain : '\\' ∉ fence := by
    rw [hfence, List.mem_replicate]
    rintro ⟨-, h⟩
    exact absurd h (by decide)
  have hcount : fence.count '$' = k + 1 := by rw [hfence, List.count_replicate_self]
  have hopen : Rests (· = .clear) (n + (k + 1)) (w.literal fence) := by
    rw [← hcount]
    rw [hfence, List.replicate_succ] at hplain ⊢
    exact h.literal hplain (by decide)
  have hclose := (hopen.literal hslash).literal hplain
  rw [List.count_eq_zero.2 hdollar, hcount] at hclose
  have htotal : n + (k + 1) + 0 + (k + 1) = n + 2 * (k + 1) := by omega
  exact (htotal ▸ hclose).tracks fun _ hs => .inl hs

mutual

/-- **Writing a span** opens the dollars of its leaves. -/
theorem writeSpan_tracks (holder : Holder) (alone last : Bool) (s : Span) {n : Nat} {w : Writer}
    (hbare : Bare (spanLeaves s)) (h : Tracks n w) :
    Tracks (n + dollars (spanLeaves s)) (writeSpan holder alone last s w) := by
  cases s with
  | text t => simpa [writeSpan, spanLeaves, Leaf.dollars] using h.prose t
  | softBreak =>
    rw [writeSpan]
    split
    · exact h.literal_plain (by decide) (by decide) (by decide)
    · exact h.oweBreak
  | hardBreak =>
    rw [writeSpan]
    split
    · exact h.oweBreak
    · exact h.hardBreak
  | strong children =>
    have hfence : ∀ {m : Nat} {w : Writer}, Tracks m w →
        Tracks m (if holder = .strong then w else w.literal ['*', '*']) := by
      intro m w hw
      split
      · exact hw
      · exact hw.literal_plain (by decide) (by decide) (by decide)
    exact hfence (writeSpans_tracks .strong children.length children hbare (hfence h))
  | emphasis children =>
    have hfence : ∀ {m : Nat} {w : Writer}, Tracks m w →
        Tracks m (w.literal (if holder = .emphasis ∧ alone then ['_'] else ['*'])) := by
      intro m w hw
      split <;> exact hw.literal_plain (by decide) (by decide) (by decide)
    exact hfence (writeSpans_tracks .emphasis children.length children hbare (hfence h))
  | math display body =>
    obtain ⟨hdollar, hslash⟩ := (bare_cons.1 hbare).1
    rw [writeSpan, spanLeaves, dollars_cons, dollars_nil]
    cases display
    · exact @Tracks.formula n w h _ _ 0 rfl hdollar hslash
    · exact @Tracks.formula n w h _ _ 1 rfl hdollar hslash
  | link url =>
    obtain ⟨hdollar, hslash⟩ := (bare_cons.1 hbare).1
    rw [writeSpan]
    split
    · refine h.literal_plain ?_ ?_ (by decide)
      · simp [hslash]
      · simp [hdollar]
    · have hopen := h.literal_plain (c := '[') (t := []) (by decide) (by decide) (by decide)
      have hprose := hopen.prose url
      rw [List.count_eq_zero.2 hdollar] at hprose
      exact hprose.target hslash hdollar

/-- Writing spans opens the dollars of their leaves. -/
theorem writeSpans_tracks (holder : Holder) (count : Nat) (ss : List Span) {n : Nat} {w : Writer}
    (hbare : Bare (spansLeaves ss)) (h : Tracks n w) :
    Tracks (n + dollars (spansLeaves ss)) (writeSpans holder count ss w) := by
  cases ss with
  | nil => exact h
  | cons s rest =>
    obtain ⟨hs, hrest⟩ := bare_append.1 hbare
    rw [writeSpans, spansLeaves, dollars_append, ← Nat.add_assoc]
    exact writeSpans_tracks holder count rest hrest (writeSpan_tracks holder _ _ s hs h)

end

/-- Writing a mark that opens nothing. -/
theorem Tracks.mark {n : Nat} {w : Writer} (h : Tracks n w) {c : Char} {t : Text} (hslash : '\\' ∉ c :: t)
    (hdollar : '$' ∉ c :: t) (hbang : c ≠ '!') : Tracks n (w.mark (c :: t)) :=
  (h.literal_plain hslash hdollar hbang).congr rfl rfl (Nat.le_refl _)

/-- The marker of an item is plain. -/
theorem itemMarker_plain (number : Option Nat) :
    ∃ c t, itemMarker number = c :: t ∧ '\\' ∉ c :: t ∧ '$' ∉ c :: t ∧ c ≠ '!' := by
  match number with
  | none => exact ⟨'-', [' '], rfl, by decide, by decide, by decide⟩
  | some k =>
    have hdigits : (toString k).toList = Nat.toDigits 10 k := String.toList_ofList
    have hdigit : ∀ d ∈ Nat.toDigits 10 k, d.isDigit = true := fun d hd =>
      Nat.isDigit_of_mem_toDigits (by decide) (by decide) hd
    have hne : ∀ d e, d ∈ Nat.toDigits 10 k → e.isDigit = false → d ≠ e := by
      rintro d e hd he rfl
      simp [hdigit d hd] at he
    obtain ⟨c, t, hct⟩ := List.exists_cons_of_ne_nil (@Nat.toDigits_ne_nil k 10)
    have hdot : ∀ e ∈ (if k < 10 then ['.', ' ', ' '] else ['.', ' ']), e = '.' ∨ e = ' ' := by
      split <;> simp
    refine ⟨c, t ++ if k < 10 then ['.', ' ', ' '] else ['.', ' '], ?_, ?_, ?_, ?_⟩
    · rw [itemMarker, hdigits, hct, List.cons_append]
    all_goals rw [hct] at hne
    · rw [← List.cons_append, List.mem_append, not_or]
      exact ⟨fun hmem => hne _ _ hmem (by decide) rfl, fun hmem => by simpa using hdot _ hmem⟩
    · rw [← List.cons_append, List.mem_append, not_or]
      exact ⟨fun hmem => hne _ _ hmem (by decide) rfl, fun hmem => by simpa using hdot _ hmem⟩
    · exact hne c '!' (by simp) (by decide)

theorem Tracks.leaveQuote {n : Nat} {w : Writer} (h : Tracks n w) : Tracks n (leaveQuote w) := by
  unfold Markdown.leaveQuote
  split
  · exact h.oweBlankLine
  · exact (h.outdent 2).oweBlankLine

mutual

/-- Writing a node opens the dollars of its leaves. -/
theorem writeNode_tracks (inItem beforeList : Bool) (node : Node) {n : Nat} {w : Writer}
    (hbare : Bare (nodeLeaves node)) (h : Tracks n w) :
    Tracks (n + dollars (nodeLeaves node)) (writeNode inItem beforeList node w) := by
  have htight : Tracks n (if inItem then { w with tight := true } else w) := by
    split
    · exact h.setTight true
    · exact h
  cases node with
  | heading level content =>
    rw [writeNode]
    have hmark : Tracks n ((if inItem then { w with tight := true } else w).mark
        (List.replicate level '#' ++ [' '])) := by
      cases level with
      | zero => exact htight.mark (by decide) (by decide) (by decide)
      | succ level =>
        rw [List.replicate_succ, List.cons_append]
        exact htight.mark (by simp [List.mem_replicate]) (by simp [List.mem_replicate]) (by decide)
    have hcontent := writeSpans_tracks .block content.length content hbare (hmark.setOneLine true)
    exact (hcontent.setOneLine false).oweBlankLine
  | paragraph content =>
    rw [writeNode]
    exact (writeSpans_tracks .block content.length content hbare htight).oweBlankLine
  | quote children =>
    rw [writeNode]
    have hmark := (htight.mark (c := '>') (t := [' ']) (by decide) (by decide) (by decide)).indent
      (t := ['>', ' ']) (by simp [Filler])
    exact (writeNodes_tracks false children hbare hmark).leaveQuote
  | list ordered items =>
    rw [writeNode]
    have hitems := (writeItems_tracks (if ordered then some 1 else none) items hbare htight).setTight inItem
    simp only
    split
    · have hseparator : listSeparator = '<' :: listSeparator.tail := by decide
      rw [hseparator]
      exact (hitems.oweBreak.literal_plain (by decide) (by decide) (by decide)).oweBlankLine
    · exact hitems

/-- **Writing some nodes** opens the dollars of their leaves. -/
theorem writeNodes_tracks (inItem : Bool) (ns : List Node) {n : Nat} {w : Writer}
    (hbare : Bare (nodesLeaves ns)) (h : Tracks n w) :
    Tracks (n + dollars (nodesLeaves ns)) (writeNodes inItem ns w) := by
  cases ns with
  | nil => exact h
  | cons node rest =>
    obtain ⟨hnode, hrest⟩ := bare_append.1 hbare
    rw [writeNodes, nodesLeaves, dollars_append, ← Nat.add_assoc]
    exact writeNodes_tracks inItem rest hrest (writeNode_tracks inItem _ node hnode h)

/-- Writing the items of a list opens the dollars of their leaves. -/
theorem writeItems_tracks (number : Option Nat) (items : List (List Node)) {n : Nat} {w : Writer}
    (hbare : Bare (nodeItemsLeaves items)) (h : Tracks n w) :
    Tracks (n + dollars (nodeItemsLeaves items)) (writeItems number items w) := by
  cases items with
  | nil => exact h
  | cons item rest =>
    obtain ⟨hitem, hrest⟩ := bare_append.1 hbare
    rw [writeItems, nodeItemsLeaves, dollars_append, ← Nat.add_assoc]
    obtain ⟨c, t, hmarker, hslash, hdollar, hbang⟩ := itemMarker_plain number
    have hmark : Tracks n ((w.mark (itemMarker number)).indent
        (List.replicate (itemMarker number).length ' ')) := by
      rw [hmarker]
      exact (h.mark hslash hdollar hbang).indent fun d hd => .inr (.inl (List.eq_of_mem_replicate hd))
    have hbody := ((writeNodes_tracks true item hitem hmark).outdent
      (itemMarker (number.map (· + 1))).length).oweBreak
    exact writeItems_tracks (number.map (· + 1)) rest hrest hbody

end

/-! ### The page -/

/-- The line break at the end of a page opens nothing. -/
theorem ends_page {n : Nat} {nodes : List Node} (h : Tracks n (writeNodes false nodes {})) :
    ∃ s : Trail, s ≠ .broken ∧ Ends n s (page nodes) := by
  obtain ⟨-, s, hs, hends⟩ := h
  have hbroken : s ≠ .broken := by
    rcases hs with (rfl | rfl) | ⟨rfl, -⟩ <;> simp
  unfold page
  simp only
  split
  · exact ⟨s, hbroken, hends⟩
  · have hpush := hends.push hbroken '\n'
    rw [if_neg (by simp), Nat.add_zero] at hpush
    refine ⟨_, ?_, hpush⟩
    rcases hs with (rfl | rfl) | ⟨rfl, -⟩ <;> decide

/-- **The open dollars of a page**: two for each formula in the line, four for each formula on lines of its
own, and the dollar signs of the texts, at any depth, where formulas and addresses are bare. -/
theorem openDollars_render {blocks : List Block} (h : ∀ l ∈ blocksLeaves blocks, l.IsBare) :
    openDollars 0 (render blocks) =
      2 * (blocksLeaves blocks).countP Leaf.isInline + 4 * (blocksLeaves blocks).countP Leaf.isDisplay +
        ((blocksLeaves blocks).flatMap Leaf.shown).count '$' := by
  have hfollows := follows_ofBlocks blocks
  have hwrite := writeNodes_tracks false (Node.ofBlocks blocks) (hfollows.bare h) tracks_start
  rw [Nat.zero_add, hfollows.count, dollars_eq] at hwrite
  obtain ⟨s, hs, hends⟩ := ends_page hwrite
  rw [render, ← hends.count]
  refine openDollars_removeSeparators ?_
  rw [hends.trail]
  exact hs

/-- A price, three formulas and an address. -/
theorem openDollars_render_price :
    let blocks := [Block.steps [[.paragraph [.text ['5', '$'], .math ['x']]], [.math ['y']]],
      .callout [.paragraph [.strong [.math ['z']], .lineBreak, .link ['u', '!']]]]
    (∀ l ∈ blocksLeaves blocks, l.IsBare) ∧ openDollars 0 (render blocks) = 9 := by
  intro blocks
  have hbare : ∀ l ∈ blocksLeaves blocks, l.IsBare := by
    intro l hl
    have hleaves : blocksLeaves blocks =
        [.text ['5', '$'], .math false ['x'], .math true ['y'], .math false ['z'], .link ['u', '!']] := by
      decide
    rw [hleaves] at hl
    simp only [List.mem_cons, List.not_mem_nil, or_false] at hl
    rcases hl with rfl | rfl | rfl | rfl | rfl <;> simp [Leaf.IsBare]
  exact ⟨hbare, (openDollars_render hbare).trans (by decide)⟩

/-- **A dollar sign in a text is not escaped**: a page without formulas has an open dollar. -/
theorem render_dollar :
    let blocks := [Block.paragraph [.text ['$']]]
    (∀ l ∈ blocksLeaves blocks, l.IsBare) ∧ render blocks = ['$', '\n'] ∧
      openDollars 0 (render blocks) ≠
        2 * (blocksLeaves blocks).countP Leaf.isInline + 4 * (blocksLeaves blocks).countP Leaf.isDisplay := by
  intro blocks
  have hrender : render blocks = ['$', '\n'] := by decide +kernel
  refine ⟨?_, hrender, ?_⟩
  · simp [blocks, blocksLeaves, blockLeaves, inlinesLeaves, inlineLeaves, Leaf.IsBare]
  · rw [hrender]
    decide

end CribSheet.Markdown
