/-
Reading written blocks.

A written tree is cut where it was joined: each block is one piece, and the empty line behind it ends a
paragraph.  The content of a box and of each item is read in the same way, so reading gives the tree
back, with its ordered lists labelled by their order.

Main definitions:

* `CribSheet.Block.piece` — the piece that a written block is read as.

Main results:

* `CribSheet.pieces_write_append` — a written block is one piece;
* `CribSheet.parseBlocks_writeBlocks` — reading a written tree gives it back.
-/
import CribSheet.Proofs.Display.WrittenItems

set_option relaxedAutoImplicit false
set_option autoImplicit false

namespace CribSheet

open CribSheet.Markup
open CribSheet.Identity (Plain)

/-! ### Pieces -/

/-- The piece that a written block is read as. -/
def Block.piece : Block → Piece
  | .heading _ content => .heading (writeInlines content)
  | .paragraph content => .prose (writeInlines content)
  | .steps items => .environment itemizeName ('\n' :: writeItems items)
  | .list _ items => .environment enumerateName ('\n' :: writeItems items)
  | .math body => .math body
  | .callout children => .environment calloutName ('\n' :: (writeBlocks children ++ ['\n']))

theorem read_section {w : Text} (hw : Running 0 w) (blank : Bool) (t : Text) :
    Reading.read blank '\\' (sectionName ++ '{' :: (w ++ '}' :: t)) =
      ⟨command sectionName w, .heading w, t⟩ := by
  have hsection : isSectionName sectionName = true := by decide
  rw [read_word (by decide) (by decide) (by simp; decide), Reading.ofWord, if_neg (by decide),
    if_neg (by decide), if_pos hsection]
  have hshort : shortForm? (star ('{' :: (w ++ '}' :: t))).2 = some ([], '{' :: (w ++ '}' :: t)) := rfl
  simp only [Reading.ofSection, hshort, hw.argument_read?]
  rfl

theorem read_environment {name body : Text} (hname : IsName name) (hbody : Nested true body)
    (blank : Bool) (t : Text) :
    Reading.read blank '\\' (beginName ++ '{' :: (name ++ '}' :: (body ++ (command endName name ++ t)))) =
      ⟨environment name body, .environment name body, t⟩ := by
  have hclose := Closing.find?_of_closes_zero (Marker.next?_end hname.plain t) hname.trim_eq rfl
  have hfind := hbody.find?_append name (command endName name ++ t) 0
  rw [hclose, Option.map_some] at hfind
  rw [read_word (by decide) (by decide) (by simp; decide), Reading.ofWord, if_pos rfl]
  simp only [Reading.ofBegin, argument_read?_plain hname.plain, hname.trim_eq, hfind]
  simp [Closing.behind, environment, command, Argument.source]

theorem findUnescaped?_display {body : Text} (hbody : '\\' ∉ body) (t : Text) :
    findUnescaped? ['\\', ']'] (body ++ '\\' :: ']' :: t) = some (body, t) := by
  induction body with
  | nil => rfl
  | cons c body ih =>
    have hc : c ≠ '\\' := fun h => hbody (h ▸ List.mem_cons_self ..)
    have ih := ih fun h => hbody (List.mem_cons_of_mem _ h)
    rw [List.cons_append, findUnescaped?.eq_def]
    simp [Text.after?, hc, hc.symm, ih]

theorem read_display {body : Text} (hbody : '\\' ∉ body) (blank : Bool) (t : Text) :
    Reading.read blank '\\' ('[' :: (body ++ '\\' :: ']' :: t)) =
      ⟨'\\' :: '[' :: (body ++ ['\\', ']']), .math body, t⟩ := by
  rw [Reading.read_bracket, Reading.ofFormula, findUnescaped?_display hbody]
  simp

/-- **A written block is one piece**, whatever follows it. -/
theorem pieces_write_append {b : Block} (hn : b.isNormal = true) (blank : Bool) (rest : Text) :
    pieces blank (b.write ++ rest) = b.piece.cons (pieces (Text.blankLineAfter blank b.write) rest) := by
  have hsolid := startsSolid_write hn
  have hnested : ∀ its : List (List Block), itemsAreNormal its = true →
      Nested true ('\n' :: writeItems its) := fun its hits =>
    (nested_writeItems_of_forall fun item hitem =>
      nested_writeBlocks (itemsAreNormal_iff.1 hits item hitem)).newline_cons
  cases b with
  | heading level content =>
    have hw := running_of_areNormal (Block.isNormal_heading_iff.1 hn).2.1
    rw [Block.write, command_append, pieces_of_read_eq (read_section hw blank rest)]
    rfl
  | paragraph content =>
    have hw := running_of_areNormal (Block.isNormal_paragraph_iff.1 hn).1
    rw [Block.write] at hsolid ⊢
    rw [hw.pieces_append, proseBefore, if_neg hsolid.ne_nil]
    rfl
  | steps items =>
    have hbody := hnested items (Block.isNormal_steps_iff.1 hn).2
    rw [Block.write, environment_append, command_append,
      pieces_of_read_eq (read_environment isName_itemizeName hbody blank rest)]
    rfl
  | list kind items =>
    have hbody := hnested items (Block.isNormal_list_iff.1 hn).2
    rw [Block.write, environment_append, command_append,
      pieces_of_read_eq (read_environment isName_enumerateName hbody blank rest)]
    rfl
  | math body =>
    have hread := read_display (Block.isNormal_math_iff.1 hn).2 blank rest
    have hsplit : Block.write (.math body) ++ rest = '\\' :: '[' :: (body ++ '\\' :: ']' :: rest) := by
      simp [Block.write]
    rw [hsplit, pieces_of_read_eq hread]
    rfl
  | callout children =>
    rw [Block.isNormal] at hn
    have hbody : Nested true ('\n' :: (writeBlocks children ++ ['\n'])) :=
      ((nested_writeBlocks hn).with_items.append (.of_no_backslash (by decide))).newline_cons
    rw [Block.write, environment_append, command_append,
      pieces_of_read_eq (read_environment isName_calloutName hbody blank rest)]
    rfl

/-! ### Line breaks between blocks -/

/-- A line break in front of a blank line ends a paragraph. -/
theorem pieces_gap {blank : Bool} {t : Text} (h : t.firstLine.1.isBlankText = true) :
    pieces blank ('\n' :: t) =
      .gap :: pieces (Text.blankLineAfter blank ('\n' :: (blankLines t).1)) (blankLines t).2 := by
  have hread : Reading.read blank '\n' t = ⟨'\n' :: (blankLines t).1, .gap, (blankLines t).2⟩ := by
    rw [Reading.read_newline, Reading.ofBreak, if_pos h]
  rw [pieces_of_read_eq hread]
  rfl

/-- An empty line in front of text that is not blank. -/
theorem pieces_emptyLine {t : Text} (h : StartsSolid t) (blank : Bool) :
    pieces blank ('\n' :: '\n' :: t) = .gap :: pieces true t := by
  obtain ⟨c, w, rfl, hc, -⟩ := h
  have hblank : isBlank '\n' = true := by decide
  have htake : ('\n' :: c :: w).takeWhile isBlank = ['\n'] := by
    rw [List.takeWhile_cons_of_pos hblank, List.takeWhile_cons_of_neg (by simp [hc])]
  have hdrop : ('\n' :: c :: w).dropWhile isBlank = c :: w := by
    rw [List.dropWhile_cons_of_pos hblank, List.dropWhile_cons_of_neg (by simp [hc])]
  have hlines : blankLines ('\n' :: c :: w) = (['\n'], c :: w) := by
    rw [blankLines, htake, hdrop]
    rfl
  rw [pieces_gap rfl, hlines]
  rfl

/-- A line break in front of text that is not blank is prose. -/
theorem read_break {t : Text} (h : StartsSolid t) (blank : Bool) :
    Reading.read blank '\n' t = ⟨['\n'], .prose ['\n'], t⟩ := by
  obtain ⟨c, w, rfl, hc, -⟩ := h
  have hne : c ≠ '\n' := by
    rintro rfl
    exact absurd hc (by decide)
  have hline : (Text.firstLine (c :: w)).1.isBlankText = false := by
    simp [Text.firstLine, Text.isBlankText, hne, hc]
  rw [Reading.read_newline, Reading.ofBreak, hline, if_neg Bool.false_ne_true]

theorem pieces_lastBreak (blank : Bool) : pieces blank ['\n'] = [.gap] := by
  rw [pieces_gap rfl]
  simp [blankLines, Text.lastLine, pieces]

theorem cons_gap (p : Piece) (ps : List Piece) : p.cons (.gap :: ps) = p :: .gap :: ps := by
  cases p <;> rfl

theorem cons_nil (p : Piece) : p.cons [] = [p] := by
  cases p <;> rfl

theorem trim_blank_append {x : Text} (hx : x.isBlankText = true) (t : Text) : (x ++ t).trim = t.trim := by
  rw [Text.trim, Text.trimStart, List.dropWhile_append_of_pos (List.all_eq_true.1 hx)]
  rfl

/-- A paragraph does not start with blanks. -/
theorem paragraph?_blank_append {x : Text} (hx : x.isBlankText = true) (t : Text) :
    paragraph? (x ++ t) = paragraph? t := by
  rw [paragraph?, trim_blank_append hx]
  rfl

theorem paragraph?_nil : paragraph? [] = none := by
  simp [paragraph?, Text.trim, Text.trimStart, Text.trimEnd, Text.dropEndWhile, parseInlines_eq, inlineTokens,
    Inline.merge, Inline.trimEdges, Inline.trimFirst, Inline.trimLast, Inline.areBlank]

theorem paragraph?_of_blank {w : Text} (hw : w.isBlankText = true) : paragraph? w = none := by
  have happend := paragraph?_blank_append hw []
  rwa [List.append_nil, paragraph?_nil] at happend

/-- Blank prose in front of the pieces of a text adds nothing to its blocks. -/
theorem readPieces_blank_cons (read : Reader) {w : Text} (hw : w.isBlankText = true) (ps : List Piece)
    (seen : Nat) : readPieces read ((Piece.prose w).cons ps) seen = readPieces read ps seen := by
  have hnone := paragraph?_of_blank hw
  cases ps with
  | nil => simp [Piece.cons, readPieces, Piece.blocks, hnone]
  | cons p ps =>
    cases p with
    | prose t => simp only [Piece.cons, readPieces, Piece.blocks, paragraph?_blank_append hw]
    | gap | heading | math | environment =>
      simp [Piece.cons, readPieces, Piece.blocks, hnone]

/-! ### Paragraphs -/

theorem write_ne_nil {i : Inline} (hi : i.isNormal = true) : i.write ≠ [] := by
  cases i with
  | text t => exact (Inline.isNormal_text_iff.1 hi).1
  | strong | emphasis | math | link | lineBreak => simp [Inline.write, command]

/-- Nothing is trimmed from a first text when the writing does not start with a blank. -/
theorem trimFirst_eq_self {is : List Inline} (hn : areNormal is = true)
    (htrim : (writeInlines is).trim = writeInlines is) : Inline.trimFirst is = is := by
  cases is with
  | nil => rfl
  | cons i rest =>
    cases i with
    | text t =>
      obtain ⟨ht, -⟩ := Inline.isNormal_text_iff.1 (areNormal_cons_iff.1 hn).1
      obtain ⟨c, t, rfl⟩ := List.exists_cons_of_ne_nil ht
      have hhead := (Text.trim_eq_self_iff _).1 htrim |>.1 c rfl
      have hstart : Text.trimStart (c :: t) = c :: t :=
        (Text.trimStart_eq_self_iff _).2 (by simpa using hhead)
      rw [Inline.trimFirst, hstart]
    | strong | emphasis | math | link | lineBreak => rfl

/-- Nothing is trimmed from a last text when the writing does not end with a blank. -/
theorem trimLast_eq_self {is : List Inline} (hn : areNormal is = true)
    (hlast : ∀ c ∈ (writeInlines is).getLast?, isBlank c = false) : Inline.trimLast is = is := by
  induction is with
  | nil => rfl
  | cons i rest ih =>
    obtain ⟨hi, -, hrest⟩ := areNormal_cons_iff.1 hn
    cases rest with
    | nil =>
      cases i with
      | text t =>
        have hend : t.trimEnd = t := (Text.trimEnd_eq_self_iff t).2 (by
          simpa [writeInlines, Inline.write] using hlast)
        rw [Inline.trimLast, hend]
      | strong | emphasis | math | link | lineBreak => rfl
    | cons j rest =>
      have hne : writeInlines (j :: rest) ≠ [] := by
        simp [writeInlines, write_ne_nil (areNormal_cons_iff.1 hrest).1]
      rw [writeInlines, List.getLast?_append_of_ne_nil _ hne] at hlast
      rw [Inline.trimLast, ih hrest hlast]
      simp

theorem trimEdges_eq_self {is : List Inline} (hn : areNormal is = true)
    (htrim : (writeInlines is).trim = writeInlines is) : Inline.trimEdges is = is := by
  have hlast := (Text.trim_eq_self_iff _).1 htrim |>.2
  rw [Inline.trimEdges, trimFirst_eq_self hn htrim, trimLast_eq_self hn hlast, List.filter_eq_self]
  intro i hi
  have := write_ne_nil (isNormal_of_mem hn hi)
  cases i with
  | text t => cases t <;> simp_all [Inline.write, Inline.isEmptyText]
  | strong | emphasis | math | link | lineBreak => rfl

/-- A written paragraph is read back. -/
theorem paragraph?_writeInlines {is : List Inline} (hn : areNormal is = true)
    (htrim : (writeInlines is).trim = writeInlines is) (hblank : Inline.areBlank is = false) :
    paragraph? (writeInlines is) = some (.paragraph is) := by
  simp only [paragraph?, htrim, parseInlines_writeInlines is hn, trimEdges_eq_self hn htrim, hblank,
    Bool.false_eq_true, if_false]

/-! ### Blocks -/

/-- Reading the piece of a block gives the block, when its ordered lists are labelled in order. -/
def ReadsBack (b : Block) : Prop :=
  ∀ seen, KindsFrom seen b.orderedLists →
    b.piece.blocks parseBlocks seen = ([b], nextCount^[b.orderedLists.length] seen)

/-- Reading blocks that are written one after the other gives these blocks, if each is read back. -/
theorem readPieces_writeBlocks {bs : List Block} (hn : blocksAreNormal bs = true)
    (hread : ∀ b ∈ bs, ReadsBack b) {trail : Text} (htrail : trail = [] ∨ trail = ['\n'])
    (blank : Bool) (seen : Nat) (hkinds : KindsFrom seen (orderedLists bs)) :
    readPieces parseBlocks (pieces blank (writeBlocks bs ++ trail)) seen =
      (bs, nextCount^[(orderedLists bs).length] seen) := by
  have htrailing : ∀ blank, pieces blank trail = [] ∨ pieces blank trail = [.gap] := by
    intro blank
    rcases htrail with rfl | rfl
    · exact .inl (by rw [pieces])
    · exact .inr (pieces_lastBreak blank)
  have hend : ∀ blank seen, readPieces parseBlocks (pieces blank trail) seen = ([], seen) := by
    intro blank seen
    rcases htrailing blank with h | h <;> (rw [h]; rfl)
  induction bs generalizing blank seen with
  | nil => simpa [writeBlocks, orderedLists] using hend blank seen
  | cons b bs ih =>
    obtain ⟨hb, hbs⟩ := List.forall_mem_cons.1 (blocksAreNormal_iff.1 hn)
    rw [orderedLists] at hkinds ⊢
    obtain ⟨hfirst, hothers⟩ := kindsFrom_append_iff.1 hkinds
    have hreadb := hread b (List.mem_cons_self ..) seen hfirst
    cases bs with
    | nil =>
      have hcons : ∀ blank, b.piece.cons (pieces blank trail) = b.piece :: pieces blank trail := by
        intro blank
        rcases htrailing blank with h | h
        · rw [h, cons_nil]
        · rw [h, cons_gap]
      rw [writeBlocks, pieces_write_append hb, hcons, readPieces, hreadb, hend]
      simp [orderedLists]
    | cons b' bs =>
      have ih := ih (blocksAreNormal_iff.2 hbs) (fun c hc => hread c (List.mem_cons_of_mem _ hc)) true
        (nextCount^[b.orderedLists.length] seen) hothers
      have hsolid := (startsSolid_writeBlocks (blocksAreNormal_iff.2 hbs)).append trail
      rw [writeBlocks, List.append_assoc, List.cons_append, List.cons_append, pieces_write_append hb,
        pieces_emptyLine hsolid, cons_gap, readPieces, hreadb, readPieces, Piece.blocks]
      simp only [ih, List.nil_append, List.singleton_append, iterate_nextCount_append]

/-- Reading an item of a written list gives its blocks. -/
theorem parseBlocks_itemText {item : List Block} (hn : blocksAreNormal item = true)
    (hread : ∀ b ∈ item, ReadsBack b) (seen : Nat) (hkinds : KindsFrom seen (orderedLists item)) :
    parseBlocks (itemText item) seen = (item, nextCount^[(orderedLists item).length] seen) := by
  have hspace := read_char (c := ' ') (by decide) true (writeBlocks item ++ ['\n'])
  rw [parseBlocks_eq, itemText, pieces_of_read_eq hspace, readPieces_blank_cons _ (by decide)]
  exact readPieces_writeBlocks hn hread (.inr rfl) _ seen hkinds

/-- Reading the items of a written list gives them back, counted one after the other. -/
theorem readAll_itemText {its : List (List Block)} (hn : itemsAreNormal its = true)
    (hread : ∀ item ∈ its, ∀ b ∈ item, ReadsBack b) (seen : Nat)
    (hkinds : KindsFrom seen (itemsOrderedLists its)) :
    readAll parseBlocks (its.map itemText) seen = (its, nextCount^[(itemsOrderedLists its).length] seen) := by
  induction its generalizing seen with
  | nil => rfl
  | cons item its ih =>
    obtain ⟨hitem, hits⟩ := List.forall_mem_cons.1 (itemsAreNormal_iff.1 hn)
    rw [itemsOrderedLists] at hkinds ⊢
    obtain ⟨hfirst, hothers⟩ := kindsFrom_append_iff.1 hkinds
    have hreaditem := parseBlocks_itemText hitem (hread item (List.mem_cons_self ..)) seen hfirst
    have ih := ih (itemsAreNormal_iff.2 hits) (fun i hi => hread i (List.mem_cons_of_mem _ hi))
      (nextCount^[(orderedLists item).length] seen) hothers
    rw [List.map_cons, readAll, hreaditem]
    simp only [ih, iterate_nextCount_append]

/-! ### Environments -/

/-- Content that starts on a line of its own has no options. -/
theorem ofText_newline_cons (t : Text) : EnvironmentContent.ofText ('\n' :: t) = ⟨none, '\n' :: t⟩ := rfl

/-- Reading a written list gives it back. -/
theorem readList_writeItems {its : List (List Block)} (hne : its ≠ []) (hn : itemsAreNormal its = true)
    (hread : ∀ item ∈ its, ∀ b ∈ item, ReadsBack b) (list : List (List Block) → Block) (seen : Nat)
    (hkinds : KindsFrom seen (itemsOrderedLists its)) :
    readList parseBlocks list ('\n' :: writeItems its) seen =
      ([list its], nextCount^[(itemsOrderedLists its).length] seen) := by
  have hitems : items ('\n' :: writeItems its) = (['\n'], its.map itemText) :=
    items_writeItems hn (Nested.of_no_backslash (a := ['\n']) (by decide))
  have hlead : parseBlocks ['\n'] seen = ([], seen) := by
    rw [parseBlocks_eq, pieces_lastBreak]
    rfl
  have hempty : its.isEmpty = false := List.isEmpty_eq_false_iff.2 hne
  simp only [readList, ofText_newline_cons, hitems, hlead, readAll_itemText hn hread seen hkinds, hempty,
    Bool.false_eq_true, if_false, List.nil_append]

/-- Reading the content of a written box gives its blocks. -/
theorem parseBlocks_calloutContent {bs : List Block} (hn : blocksAreNormal bs = true)
    (hread : ∀ b ∈ bs, ReadsBack b) (seen : Nat) (hkinds : KindsFrom seen (orderedLists bs)) :
    parseBlocks ('\n' :: (writeBlocks bs ++ ['\n'])) seen = (bs, nextCount^[(orderedLists bs).length] seen) := by
  cases bs with
  | nil =>
    have hlines : blankLines ['\n'] = (['\n'], []) := by decide
    have hgap : pieces true ['\n', '\n'] = [.gap] := by
      rw [pieces_gap rfl, hlines, pieces]
    rw [writeBlocks, List.nil_append, parseBlocks_eq, hgap]
    rfl
  | cons b bs =>
    have hbreak := read_break ((startsSolid_writeBlocks hn).append ['\n']) true
    rw [parseBlocks_eq, pieces_of_read_eq hbreak, readPieces_blank_cons _ (by decide)]
    exact readPieces_writeBlocks hn hread (.inr rfl) _ seen hkinds

/-- **Every written block is read back.** -/
theorem readsBack (b : Block) (hn : b.isNormal = true) : ReadsBack b := by
  intro seen hkinds
  have hblocks : ∀ bs : List Block, sizeOf bs < sizeOf b → blocksAreNormal bs = true →
      ∀ b' ∈ bs, ReadsBack b' := by
    intro bs hlt hbs b' hb'
    have := List.sizeOf_lt_of_mem hb'
    exact readsBack b' (blocksAreNormal_iff.1 hbs b' hb')
  have hitems : ∀ its : List (List Block), sizeOf its < sizeOf b → itemsAreNormal its = true →
      ∀ item ∈ its, ∀ b' ∈ item, ReadsBack b' := by
    intro its hlt hits item hitem
    have := List.sizeOf_lt_of_mem hitem
    exact hblocks item (by omega) (itemsAreNormal_iff.1 hits item hitem)
  cases b with
  | heading level content =>
    obtain ⟨rfl, hnormal, htrim⟩ := Block.isNormal_heading_iff.1 hn
    simp only [Block.piece, Piece.blocks, htrim, parseInlines_writeInlines content hnormal]
    rfl
  | paragraph content =>
    obtain ⟨hnormal, htrim, hblank⟩ := Block.isNormal_paragraph_iff.1 hn
    simp only [Block.piece, Piece.blocks, paragraph?_writeInlines hnormal htrim hblank]
    rfl
  | steps its =>
    obtain ⟨hne, hits⟩ := Block.isNormal_steps_iff.1 hn
    have hlist := readList_writeItems hne hits (hitems its (by simp) hits) .steps seen hkinds
    simpa only [Block.piece, Piece.blocks, readEnvironment, if_true, Block.orderedLists] using hlist
  | list kind its =>
    obtain ⟨hne, hits⟩ := Block.isNormal_list_iff.1 hn
    rw [Block.orderedLists] at hkinds ⊢
    obtain ⟨hkind, hinner⟩ := kindsFrom_cons_iff.1 hkinds
    have hlt : sizeOf its < sizeOf (Block.list kind its) := by
      rw [Block.list.sizeOf_spec]
      omega
    have hlist := readList_writeItems hne hits (hitems its hlt hits) (.list kind) (nextCount seen) hinner
    have hname : enumerateName ≠ itemizeName := by decide
    simp only [Block.piece, Piece.blocks, readEnvironment, if_neg hname, if_true, ← hkind, hlist, List.length_cons,
      Function.iterate_succ_apply]
  | math body =>
    obtain ⟨htrim, -⟩ := Block.isNormal_math_iff.1 hn
    simp only [Block.piece, Piece.blocks, htrim]
    rfl
  | callout children =>
    rw [Block.isNormal] at hn
    have hbody := parseBlocks_calloutContent hn (hblocks children (by simp) hn) seen hkinds
    have hitemize : calloutName ≠ itemizeName := by decide
    have henumerate : calloutName ≠ enumerateName := by decide
    have hcallout : calloutName = "tcolorbox".toList := by decide
    simp only [Block.piece, Piece.blocks, readEnvironment, if_neg hitemize, if_neg henumerate,
      if_pos hcallout, readCallout, ofText_newline_cons, hbody]
    rfl
termination_by sizeOf b

/-- **Reading a written tree gives it back**, when its ordered lists are labelled in order, and counts them.  Within
the word the count grows by their number (`iterate_nextCount`). -/
theorem parseBlocks_writeBlocks {bs : List Block} (hn : blocksAreNormal bs = true) (seen : Nat)
    (hkinds : KindsFrom seen (orderedLists bs)) :
    parseBlocks (writeBlocks bs) seen = (bs, nextCount^[(orderedLists bs).length] seen) := by
  have hread := readPieces_writeBlocks hn (fun b hb => readsBack b (blocksAreNormal_iff.1 hn b hb))
    (.inl rfl) true seen hkinds
  rwa [List.append_nil, ← parseBlocks_eq] at hread

/-- A lettered list in an item of the numbered one, an empty item, and a box. -/
theorem parseBlocks_nested_lists :
    let tree : List Block :=
      [.heading 3 [.text ['P', 'a', 's', 'o', 's']],
        .list .numbered
          [[.paragraph [.text ['a', ' '], .strong [.math ['x']], .lineBreak, .text ['b']],
            .list .lettered [[.paragraph [.link ['u', '%']]]]], []],
        .callout [.math ['[']]]
    parseBlocks (writeBlocks tree) 0 = (tree, 2) := by
  intro tree
  have hn : blocksAreNormal tree = true := by decide
  have hkinds : KindsFrom 0 (orderedLists tree) := by
    unfold KindsFrom
    decide
  exact parseBlocks_writeBlocks hn 0 hkinds

end CribSheet
