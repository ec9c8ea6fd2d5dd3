/-
No directive is shown.

What a paragraph shows was recognized look by look.  A look at a list marker without a list, or at an item
outside of one, puts a line break and a bullet in its place; any other prose is kept as it is written, and
headings and titles are read as they stand.  So a directive is shown only if what is kept holds one, or
the beginnings of one that reading glues together.  Where everything that is kept is tidy, no text of the
tree shows a directive.

Main definitions:

* `CribSheet.looks` — the looks at a text, one after the other;
* `CribSheet.AllLooks` — a property of the looks at a text and at its parts, at any depth;
* `CribSheet.Reading.IsTame` — what a look keeps is tidy;
* `CribSheet.blocksTexts` — the texts in some blocks, at any depth.

Main results:

* `CribSheet.tame_of_mem_pieces` — the pieces of tame looks are tame;
* `CribSheet.display_shows_no_directive` — the tree of a sheet with tame looks shows no directive;
* `CribSheet.heading_shows_directive` — a heading is read as it stands.
-/
import CribSheet.Proofs.Display.Parts
import CribSheet.Proofs.Display.ShownTexts

set_option relaxedAutoImplicit false
set_option autoImplicit false

namespace CribSheet

open CribSheet.Markup

/-! ### Looks -/

/-- The looks at a text, one after the other.  `blank` says whether the line is blank up to it. -/
def looks (blank : Bool) (t : Text) : List Reading :=
  match t with
  | [] => []
  | c :: t =>
    have := Reading.length_rest_read_le blank c t
    Reading.read blank c t ::
      looks (Text.blankLineAfter blank (Reading.read blank c t).source) (Reading.read blank c t).rest
termination_by t.length

/-- Every look at the text and at its parts, at any depth. -/
inductive AllLooks (P : Reading → Prop) : Text → Prop
  | intro {t : Text} (here : ∀ r ∈ looks true t, P r)
    (parts : ∀ p ∈ pieces true t, ∀ u ∈ p.parts, AllLooks P u) : AllLooks P t

/-! ### What a look keeps -/

namespace Reading

/-- Prose of the look is kept as it is written, with no escape left open unless the text ends, or holds
no backslash. -/
def KeepsProse (r : Reading) : Prop :=
  ∀ a, r.piece = .prose a → '\\' ∉ a ∨ a = r.source ∧ (r.rest = [] ∨ escapedAfter false a = false)

theorem keepsProse_of_ne {r : Reading} (h : ∀ a, r.piece ≠ .prose a) : r.KeepsProse :=
  fun a ha => absurd ha (h a)

theorem keepsProse_of_plain {source a rest : Text} (ha : '\\' ∉ a) :
    KeepsProse ⟨source, .prose a, rest⟩ := by
  intro b hb
  obtain rfl := Piece.prose.inj hb
  exact .inl ha

theorem keepsProse_source {source rest : Text} (h : rest = [] ∨ escapedAfter false source = false) :
    KeepsProse ⟨source, .prose source, rest⟩ := by
  intro b hb
  obtain rfl := Piece.prose.inj hb
  exact .inr ⟨rfl, h⟩

section Words

variable {name : Text} (hne : name ≠ []) (hname : '\\' ∉ name)
include hne hname

theorem keepsProse_ofName (rest : Text) : (ofName name rest).KeepsProse :=
  keepsProse_source (.inr (escapedAfter_word hne hname))

/-- A word and its argument leave no escape open. -/
theorem escapedAfter_word_argument {t : Text} {a : Argument} (ha : Argument.read? t = some a) :
    escapedAfter false ('\\' :: name ++ a.source) = false := by
  rw [escapedAfter_append, escapedAfter_word hne hname, escapedAfter_source_of_argument ha]

theorem keepsProse_ofSection (rest : Text) : (ofSection name rest).KeepsProse := by
  unfold ofSection
  split
  · exact keepsProse_ofName hne hname rest
  · split
    · exact keepsProse_of_ne (by simp)
    · exact keepsProse_ofName hne hname rest

theorem keepsProse_ofUrl (rest : Text) : (ofUrl name rest).KeepsProse := by
  unfold ofUrl
  split
  · next a ha => exact keepsProse_source (.inr (escapedAfter_word_argument hne hname ha))
  · exact keepsProse_ofName hne hname rest

end Words

theorem keepsProse_ofBegin (rest : Text) : (ofBegin rest).KeepsProse := by
  unfold ofBegin
  split
  · exact keepsProse_ofName (by decide) (by decide) rest
  · next a ha =>
    simp only
    split
    · exact keepsProse_of_ne (by simp)
    · split
      · exact keepsProse_of_plain (by decide)
      · exact keepsProse_source (.inr (escapedAfter_word_argument (by decide) (by decide) ha))

theorem keepsProse_ofEnd (rest : Text) : (ofEnd rest).KeepsProse := by
  have hname : (ofName endName rest).KeepsProse := keepsProse_ofName (by decide) (by decide) rest
  unfold ofEnd
  split
  · split
    · exact keepsProse_of_plain (by decide)
    · exact hname
  · exact hname

theorem keepsProse_ofWord {name : Text} (hne : name ≠ []) (hname : '\\' ∉ name) (rest : Text) :
    (ofWord name rest).KeepsProse := by
  unfold ofWord
  split
  · exact keepsProse_ofBegin rest
  · split
    · exact keepsProse_ofEnd rest
    · split
      · exact keepsProse_ofSection hne hname rest
      · split
        · exact keepsProse_of_plain (by decide)
        · split
          · exact keepsProse_ofUrl hne hname rest
          · exact keepsProse_ofName hne hname rest

theorem keepsProse_ofFormula (display : Bool) {opening closing : Text} (t : Text)
    (hopening : escapedAfter false opening = false) (hclosing : escapedAfter false closing = false) :
    (ofFormula display opening closing t).KeepsProse := by
  unfold ofFormula
  split
  · next body rest hf =>
    cases display with
    | true => exact keepsProse_of_ne (by simp)
    | false =>
      refine keepsProse_source (.inr ?_)
      rw [escapedAfter_append, escapedAfter_append, hopening, escapedAfter_findUnescaped? t hf, hclosing]
  · exact keepsProse_source (.inr hopening)

theorem keepsProse_ofComment (blank : Bool) (t : Text) : (ofComment blank t).KeepsProse := by
  unfold ofComment
  split
  · split <;> exact keepsProse_of_plain (by decide)
  · exact keepsProse_of_plain (by decide)

theorem keepsProse_ofBreak (t : Text) : (ofBreak t).KeepsProse := by
  unfold ofBreak
  split
  · exact keepsProse_of_ne (by simp)
  · exact keepsProse_of_plain (by decide)

/-- **A look keeps prose as it is written**, or puts prose without a backslash in its place. -/
theorem keepsProse_read (blank : Bool) (c : Char) (t : Text) : (read blank c t).KeepsProse := by
  unfold read
  split
  · next hc =>
    subst hc
    split
    · exact keepsProse_source (.inl rfl)
    · next d t' =>
      split
      · next hd =>
        have hword : (d :: t').takeWhile Text.isLetter = d :: t'.takeWhile Text.isLetter := by simp [hd]
        have hletters : ∀ e ∈ (d :: t').takeWhile Text.isLetter, Text.isLetter e = true :=
          fun e he => List.all_eq_true.1 (List.all_takeWhile (p := Text.isLetter) (l := d :: t')) e he
        exact keepsProse_ofWord (by simp [hword]) (slash_not_mem_of_letters hletters) _
      · split
        · next hd => exact hd ▸ keepsProse_ofFormula true t' (by decide) (by decide)
        · split
          · next hd => exact hd ▸ keepsProse_ofFormula false t' (by decide) (by decide)
          · exact keepsProse_source (.inr (by rw [escapedAfter_pair]; rfl))
  · next hc =>
    split
    · next hdollar =>
      subst hdollar
      split
      · exact keepsProse_ofFormula true _ (by decide) (by decide)
      · exact keepsProse_ofFormula false _ (by decide) (by decide)
    · split
      · exact keepsProse_ofComment blank t
      · split
        · exact keepsProse_ofBreak t
        · exact keepsProse_of_plain (by simpa using Ne.symm hc)

end Reading

/-! ### Tame pieces -/

/-- The title of a box, if the environment is one that has a title. -/
def boxTitle? (name content : Text) : Option Text :=
  if name = "tcolorbox".toList then (EnvironmentContent.ofText content).options.bind calloutTitle? else none

/-- What is read from the piece as running text is tidy. -/
def Piece.IsTame : Piece → Prop
  | .prose t => Tidy t
  | .heading content => Tidy content
  | .environment name content => ∀ title, boxTitle? name content = some title → Tidy title
  | _ => True

/-- **What the look keeps is tidy:** it puts other prose in the place of what it read, or its piece is
tame. -/
def Reading.IsTame (r : Reading) : Prop := (∃ a, r.piece = .prose a ∧ a ≠ r.source) ∨ r.piece.IsTame

/-- A tame look has a tame piece, with no escape open at the end of prose unless the text ends. -/
theorem Reading.isTame_read {blank : Bool} {c : Char} {t : Text} (h : (read blank c t).IsTame) :
    (read blank c t).piece.IsTame ∧
      ∀ a, (read blank c t).piece = .prose a →
        (read blank c t).rest = [] ∨ escapedAfter false a = false := by
  have hkeeps := keepsProse_read blank c t
  constructor
  · rcases h with ⟨a, ha, hne⟩ | h
    · rcases hkeeps a ha with hplain | ⟨hsource, -⟩
      · rw [ha]
        exact Tidy.of_plain hplain
      · exact absurd hsource hne
    · exact h
  · intro a ha
    rcases hkeeps a ha with hplain | ⟨-, hfresh⟩
    · exact .inr (escapedAfter_plain hplain)
    · exact hfresh

/-- A tame piece in front of tame pieces. -/
theorem Piece.tame_of_mem_cons {p : Piece} {ps : List Piece} (hp : p.IsTame) (hps : ∀ q ∈ ps, q.IsTame)
    (hfresh : ∀ a, p = .prose a → ps = [] ∨ escapedAfter false a = false) : ∀ q ∈ p.cons ps, q.IsTame := by
  unfold Piece.cons
  split
  · next a b ps =>
    obtain ⟨hb, hps⟩ := List.forall_mem_cons.1 hps
    refine List.forall_mem_cons.2 ⟨?_, hps⟩
    rcases hfresh a rfl with hnil | hfresh
    · simp at hnil
    · exact Tidy.append hp hfresh hb
  · exact List.forall_mem_cons.2 ⟨hp, hps⟩

/-- **The pieces of tame looks are tame.** -/
theorem tame_of_mem_pieces {blank : Bool} {t : Text} (h : ∀ r ∈ looks blank t, r.IsTame) :
    ∀ p ∈ pieces blank t, p.IsTame := by
  fun_induction pieces blank t with
  | case1 => simp
  | case2 blank c t _ ih =>
    rw [looks] at h
    obtain ⟨hlook, hlooks⟩ := List.forall_mem_cons.1 h
    obtain ⟨hpiece, hfresh⟩ := Reading.isTame_read hlook
    refine Piece.tame_of_mem_cons hpiece (ih hlooks) fun a ha => (hfresh a ha).imp_left fun hnil => ?_
    rw [hnil, pieces]

/-! ### Texts of blocks -/

mutual

/-- The texts in a block, at any depth. -/
def Block.texts : Block → List Text
  | .heading _ content => inlinesTexts content
  | .paragraph content => inlinesTexts content
  | .steps items => itemsTexts items
  | .list _ items => itemsTexts items
  | .math _ => []
  | .callout children => blocksTexts children

/-- The texts in some blocks, at any depth. -/
def blocksTexts : List Block → List Text
  | [] => []
  | b :: rest => b.texts ++ blocksTexts rest

/-- The texts in some items, at any depth. -/
def itemsTexts : List (List Block) → List Text
  | [] => []
  | item :: rest => blocksTexts item ++ itemsTexts rest

end

/-- The blocks show tidy texts only. -/
def BlocksShowTidy (bs : List Block) : Prop := ∀ t ∈ blocksTexts bs, Tidy t

theorem blocksShowTidy_nil : BlocksShowTidy [] := by
  simp [BlocksShowTidy, blocksTexts]

theorem blocksShowTidy_cons {b : Block} {bs : List Block} :
    BlocksShowTidy (b :: bs) ↔ (∀ t ∈ b.texts, Tidy t) ∧ BlocksShowTidy bs := by
  simp only [BlocksShowTidy, blocksTexts, List.mem_append, or_imp, forall_and]

theorem BlocksShowTidy.append {as bs : List Block} (ha : BlocksShowTidy as) (hb : BlocksShowTidy bs) :
    BlocksShowTidy (as ++ bs) := by
  induction as with
  | nil => exact hb
  | cons a as ih =>
    obtain ⟨h, has⟩ := blocksShowTidy_cons.1 ha
    exact blocksShowTidy_cons.2 ⟨h, ih has⟩

theorem tidy_of_mem_itemsTexts {its : List (List Block)} (h : ∀ item ∈ its, BlocksShowTidy item) :
    ∀ t ∈ itemsTexts its, Tidy t := by
  induction its with
  | nil => simp [itemsTexts]
  | cons item its ih =>
    obtain ⟨hitem, hits⟩ := List.forall_mem_cons.1 h
    intro t ht
    rcases List.mem_append.1 (by rwa [itemsTexts] at ht) with ht | ht
    · exact hitem t ht
    · exact ih hits t ht

/-! ### Edges -/

theorem showsTidy_trimFirst {is : List Inline} (h : ShowsTidy is) : ShowsTidy (Inline.trimFirst is) := by
  unfold Inline.trimFirst
  split
  · next t rest =>
    rw [showsTidy_cons] at h ⊢
    refine ⟨fun u hu => ?_, h.2⟩
    obtain rfl := List.mem_singleton.1 hu
    exact (h.1 t (List.mem_singleton_self t)).trimStart
  · exact h

theorem showsTidy_trimLast {is : List Inline} (h : ShowsTidy is) : ShowsTidy (Inline.trimLast is) := by
  fun_induction Inline.trimLast is with
  | case1 => exact h
  | case2 t =>
    rw [showsTidy_cons] at h ⊢
    refine ⟨fun u hu => ?_, h.2⟩
    obtain rfl := List.mem_singleton.1 hu
    exact (h.1 t (List.mem_singleton_self t)).trimEnd
  | case3 i rest _ ih =>
    rw [showsTidy_cons] at h ⊢
    exact ⟨h.1, ih h.2⟩

theorem showsTidy_trimEdges {is : List Inline} (h : ShowsTidy is) : ShowsTidy (Inline.trimEdges is) := by
  unfold Inline.trimEdges
  have htrimmed := showsTidy_trimLast (showsTidy_trimFirst h)
  generalize Inline.trimLast (Inline.trimFirst is) = trimmed at htrimmed
  induction trimmed with
  | nil => exact htrimmed
  | cons i rest ih =>
    obtain ⟨hi, hrest⟩ := showsTidy_cons.1 htrimmed
    rw [List.filter_cons]
    split
    · exact showsTidy_cons.2 ⟨hi, ih hrest⟩
    · exact ih hrest

/-! ### Trees -/

theorem blocksShowTidy_paragraph? {t : Text} (h : Tidy t) : BlocksShowTidy (paragraph? t).toList := by
  have hcontent := showsTidy_trimEdges h.trim.showsTidy
  simp only [paragraph?]
  split
  · exact blocksShowTidy_nil
  · refine blocksShowTidy_cons.2 ⟨?_, blocksShowTidy_nil⟩
    rw [Block.texts]
    exact hcontent

section Readers

variable {read : Reader}

/-- The blocks of a list show what those of its lead and items show. -/
theorem blocksShowTidy_readList {list : List (List Block) → Block} {content : Text}
    (hlist : ∀ its, (list its).texts = itemsTexts its)
    (hlead : ∀ seen, BlocksShowTidy (read (listItems content).1 seen).1)
    (hitems : ∀ u ∈ (listItems content).2, ∀ seen, BlocksShowTidy (read u seen).1) (seen : Nat) :
    BlocksShowTidy (readList read list content seen).1 := by
  have hall : ∀ (us : List Text) (seen : Nat), (∀ u ∈ us, ∀ seen, BlocksShowTidy (read u seen).1) →
      ∀ item ∈ (readAll read us seen).1, BlocksShowTidy item := by
    intro us
    induction us with
    | nil => simp [readAll]
    | cons u us ih =>
      intro seen hus
      obtain ⟨hu, hus⟩ := List.forall_mem_cons.1 hus
      exact List.forall_mem_cons.2 ⟨hu seen, ih _ hus⟩
  have hits := hall (listItems content).2 (read (listItems content).1 seen).2 hitems
  simp only [readList, listItems] at hits ⊢
  split
  · exact hlead seen
  · refine (hlead seen).append (blocksShowTidy_cons.2 ⟨?_, blocksShowTidy_nil⟩)
    rw [hlist]
    exact tidy_of_mem_itemsTexts hits

/-- The blocks of a tame piece show what those of its parts show, and tidy texts. -/
theorem blocksShowTidy_piece {p : Piece} (hp : p.IsTame)
    (hparts : ∀ u ∈ p.parts, ∀ seen, BlocksShowTidy (read u seen).1) (seen : Nat) :
    BlocksShowTidy (p.blocks read seen).1 := by
  cases p with
  | prose t => exact blocksShowTidy_paragraph? hp
  | gap => exact blocksShowTidy_nil
  | heading content =>
    refine blocksShowTidy_cons.2 ⟨?_, blocksShowTidy_nil⟩
    rw [Block.texts]
    exact (Tidy.trim hp).showsTidy
  | math body => exact blocksShowTidy_cons.2 ⟨by simp [Block.texts], blocksShowTidy_nil⟩
  | environment name content =>
    rw [Piece.parts] at hparts
    rw [Piece.blocks]
    rcases environmentForm name content with
      ⟨-, hform, hread⟩ | ⟨-, hform, hread⟩ | ⟨-, hbox, hform, hread⟩ | ⟨body, -, -, hread⟩ | ⟨-, hform, hread⟩
    · obtain ⟨hlead, hitems⟩ := List.forall_mem_cons.1 (hform ▸ hparts)
      rw [hread]
      exact blocksShowTidy_readList (fun its => by rw [Block.texts]) hlead hitems seen
    · obtain ⟨hlead, hitems⟩ := List.forall_mem_cons.1 (hform ▸ hparts)
      rw [hread]
      exact blocksShowTidy_readList (fun its => by rw [Block.texts]) hlead hitems (nextCount seen)
    · have hbody := hparts _ (hform ▸ List.mem_singleton_self _) seen
      rw [hread]
      refine blocksShowTidy_cons.2 ⟨?_, blocksShowTidy_nil⟩
      rw [Block.texts]
      refine BlocksShowTidy.append ?_ hbody
      cases htitle : (EnvironmentContent.ofText content).options.bind calloutTitle? with
      | none => exact blocksShowTidy_nil
      | some title =>
        have htidy := hp title (by rw [boxTitle?, if_pos hbox, htitle])
        refine blocksShowTidy_cons.2 ⟨?_, blocksShowTidy_nil⟩
        simp only [Block.texts, inlinesTexts, Inline.texts, List.append_nil]
        exact htidy.showsTidy
    · rw [hread]
      exact blocksShowTidy_cons.2 ⟨by simp [Block.texts], blocksShowTidy_nil⟩
    · rw [hread]
      exact hparts content (hform ▸ List.mem_singleton_self content) seen

end Readers

/-- **The blocks of a text with tame looks show tidy texts only.** -/
theorem AllLooks.blocksShowTidy {t : Text} (h : AllLooks Reading.IsTame t) (seen : Nat) :
    BlocksShowTidy (parseBlocks t seen).1 := by
  induction h generalizing seen with
  | @intro t here _ ih =>
    have htame := tame_of_mem_pieces here
    rw [parseBlocks_eq]
    generalize pieces true t = ps at htame ih
    induction ps generalizing seen with
    | nil => exact blocksShowTidy_nil
    | cons p ps ihps =>
      obtain ⟨hp, hps⟩ := List.forall_mem_cons.1 htame
      obtain ⟨hpart, hparts⟩ := List.forall_mem_cons.1 ih
      exact (blocksShowTidy_piece hp hpart seen).append (ihps _ hps hparts)

/-- **No directive is shown** in the tree of a sheet, when all its looks are tame and its title is
tidy. -/
theorem display_shows_no_directive (doc : Document) (seen : Nat) (hlooks : AllLooks Reading.IsTame doc.body)
    (htitle : ∀ u, title? doc.text = some u → Tidy u) :
    ∀ t ∈ blocksTexts (doc.displayFrom seen).1, ¬ HoldsDirective t := by
  have hbody := hlooks.blocksShowTidy seen
  have hheading : BlocksShowTidy ((title? doc.text).map fun t =>
      Block.heading headingLevel (parseInlines t)).toList := by
    cases h : title? doc.text with
    | none => exact blocksShowTidy_nil
    | some u =>
      refine blocksShowTidy_cons.2 ⟨?_, blocksShowTidy_nil⟩
      rw [Block.texts]
      exact (htitle u h).showsTidy
  exact fun t ht => (hheading.append hbody t ht).not_holdsDirective

/-- Behind a heading, an item and an end without a list. -/
theorem stray_markers_not_shown :
    let doc : Document := ⟨"\\section\x7bA\x7d\\item b\\end\x7bitemize\x7d".toList⟩
    AllLooks Reading.IsTame doc.body ∧ title? doc.text = none ∧
      ∀ t ∈ blocksTexts (doc.displayFrom 0).1, ¬ HoldsDirective t := by
  intro doc
  have hbody : doc.body = doc.text := by decide +kernel
  have hlooks : looks true doc.text =
      [⟨"\\section\x7bA\x7d".toList, .heading ['A'], "\\item b\\end\x7bitemize\x7d".toList⟩,
        ⟨"\\item ".toList, .prose ['\n', '•', ' '], "b\\end\x7bitemize\x7d".toList⟩,
        ⟨['b'], .prose ['b'], "\\end\x7bitemize\x7d".toList⟩,
        ⟨"\\end\x7bitemize\x7d".toList, .prose ['\n'], []⟩] := by decide +kernel
  have hpieces : pieces true doc.text = [.heading ['A'], .prose ['\n', '•', ' ', 'b', '\n']] := by
    decide +kernel
  have hall : AllLooks Reading.IsTame doc.body := by
    rw [hbody]
    refine .intro (fun r hr => ?_) fun p hp u hu => ?_
    · rw [hlooks] at hr
      simp only [List.mem_cons, List.not_mem_nil, or_false] at hr
      rcases hr with rfl | rfl | rfl | rfl <;> exact .inr (Tidy.of_plain (by decide))
    · rw [hpieces] at hp
      simp only [List.mem_cons, List.not_mem_nil, or_false] at hp
      rcases hp with rfl | rfl <;> simp [Piece.parts] at hu
  have htitle : title? doc.text = none := by decide +kernel
  exact ⟨hall, htitle, display_shows_no_directive doc 0 hall fun u hu => by simp [htitle] at hu⟩

/-- **A heading is read as it stands,** with the directives in it. -/
theorem heading_shows_directive :
    let doc : Document := ⟨"\\section\x7b\\item x\x7d".toList⟩
    ∃ t ∈ blocksTexts doc.display, HoldsDirective t := by
  intro doc
  have htexts : blocksTexts doc.display = ["\\item x".toList] := by decide +kernel
  refine ⟨"\\item x".toList, by rw [htexts]; exact List.mem_singleton_self _, [], itemName, " x".toList,
    by decide +kernel, rfl, ?_, .inl rfl⟩
  intro c hc
  obtain rfl := Option.some.inj hc
  decide

end CribSheet
