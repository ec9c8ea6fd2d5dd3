/-
The form of the trees that are read.

Reading joins the texts that meet and drops those without characters, takes the blanks off both edges of a
paragraph, and leaves out what shows nothing: a paragraph, or a list without items.  So every tree that is
read is formed.  Only the title of a box is set without a look at what it shows.

Main definitions:

* `CribSheet.areJoined` — no text is empty and no two texts meet, at any depth;
* `CribSheet.isSolid` — running text that shows something and has no blanks at its edges;
* `CribSheet.blocksAreFormed` — formed trees;
* `CribSheet.titleParagraph` — the paragraph that a box starts with, if it has a title.

Main results:

* `CribSheet.areJoined_parseInlines`, `CribSheet.blocksAreFormed_paragraph?` — running text and paragraphs;
* `CribSheet.blocksAreFormed_parseBlocks` — every tree that is read is formed.
-/
import CribSheet.Proofs.Display.BlankLines
import CribSheet.Proofs.Display.Directives

set_option relaxedAutoImplicit false
set_option autoImplicit false

namespace CribSheet

open CribSheet.Markup

/-! ### Joined running text -/

/-- The inline is a text. -/
def Inline.isText : Inline → Bool
  | .text _ => true
  | _ => false

mutual

/-- The inline is not an empty text, and the inlines in it are joined. -/
def Inline.isJoined : Inline → Bool
  | .text t => !t.isEmpty
  | .strong children => areJoined children
  | .emphasis children => areJoined children
  | .math _ => true
  | .link _ => true
  | .lineBreak => true

/-- **No text among the inlines is empty and no two texts meet**, at any depth. -/
def areJoined : List Inline → Bool
  | [] => true
  | i :: rest => i.isJoined && !(i.isText && rest.head?.any Inline.isText) && areJoined rest

end

/-- An inline in front of others: what it is, and how it meets them. -/
theorem areJoined_cons_iff {i : Inline} {rest : List Inline} :
    areJoined (i :: rest) = true ↔
      i.isJoined = true ∧ (i.isText = true → ∀ j ∈ rest.head?, j.isText = false) ∧ areJoined rest = true := by
  rw [areJoined, Bool.and_eq_true, Bool.and_eq_true, and_assoc, Bool.not_eq_true', Bool.and_eq_false_imp]
  cases rest.head? <;> simp

theorem areJoined_cons_of_not_text {i : Inline} {rest : List Inline} (hi : i.isText = false) :
    areJoined (i :: rest) = true ↔ i.isJoined = true ∧ areJoined rest = true := by
  simp [areJoined_cons_iff, hi]

/-- **What is merged is joined**, as soon as everything in it but the texts is. -/
theorem areJoined_merge {is : List Inline} (h : ∀ i ∈ is, i.isText = false → i.isJoined = true) :
    areJoined (Inline.merge is) = true := by
  induction is with
  | nil => rfl
  | cons i rest ih =>
    obtain ⟨hi, hrest⟩ := List.forall_mem_cons.1 h
    have ih := ih hrest
    cases i with
    | text t =>
      rw [Inline.merge]
      split
      · next u rest' heq =>
        rw [heq] at ih
        obtain ⟨hu, hmeet, hrest'⟩ := areJoined_cons_iff.1 ih
        have hne : u ≠ [] := by simpa [Inline.isJoined] using hu
        exact areJoined_cons_iff.2 ⟨by simp [Inline.isJoined, hne], fun _ => hmeet rfl, hrest'⟩
      · next hnot =>
        split
        · exact ih
        · next hne =>
          refine areJoined_cons_iff.2 ⟨by simp [Inline.isJoined, hne], fun _ j hj => ?_, ih⟩
          cases j with
          | text u =>
            obtain ⟨rest', heq⟩ := List.head?_eq_some_iff.1 hj
            exact absurd heq (hnot u rest')
          | strong | emphasis | math | link | lineBreak => rfl
    | strong | emphasis | math | link | lineBreak => exact (areJoined_cons_of_not_text rfl).2 ⟨hi rfl, ih⟩

/-- A token stands for finished inlines only where nothing in them is left to join. -/
theorem InlineToken.isJoined_of_read {c : Char} {t : Text} {i : Inline} (h : (read c t).1 = .inline i) :
    i.isJoined = true := by
  have hword : ∀ name rest, (ofWord name rest).1 = .inline i → i.isJoined = true := by
    intro name rest h
    unfold ofWord at h
    repeat' split at h
    all_goals first
      | (obtain rfl := InlineToken.inline.inj h; rfl)
      | simp at h
  unfold read at h
  repeat' split at h
  all_goals first
    | exact hword _ _ h
    | (obtain rfl := InlineToken.inline.inj h; rfl)
    | simp at h

theorem isJoined_of_mem_inlineTokens {t : Text} {i : Inline} (h : .inline i ∈ inlineTokens t) :
    i.isJoined = true := by
  fun_induction inlineTokens t with
  | case1 => simp at h
  | case2 c t _ ih =>
    rcases List.mem_cons.1 h with h | h
    · exact InlineToken.isJoined_of_read h.symm
    · exact ih h

/-- **Running text is read joined.** -/
theorem areJoined_parseInlines (t : Text) : areJoined (parseInlines t) = true := by
  rw [parseInlines_eq]
  refine areJoined_merge fun i hi hnot => ?_
  obtain ⟨token, htoken, rfl⟩ := List.mem_map.1 hi
  cases token with
  | text u => exact absurd hnot (by simp [InlineToken.toInline, Inline.isText])
  | inline i => exact isJoined_of_mem_inlineTokens htoken
  | styled style content =>
    have hlt := length_content_of_mem htoken
    cases style <;> simpa only [InlineToken.toInline, Style.inline, Inline.isJoined]
      using areJoined_parseInlines content
termination_by t.length

/-! ### Texts apart -/

/-- **No two texts meet**, empty or not. -/
def AreApart (is : List Inline) : Prop :=
  (is.map Inline.isText).IsChain fun text next => text = true → next = false

theorem areApart_cons_iff {i : Inline} {rest : List Inline} :
    AreApart (i :: rest) ↔ (i.isText = true → ∀ j ∈ rest.head?, j.isText = false) ∧ AreApart rest := by
  rw [AreApart, List.map_cons, List.isChain_cons, List.head?_map]
  cases rest.head? <;> simp [AreApart]

/-- Inlines are joined when each of them is and no two texts meet. -/
theorem areJoined_iff {is : List Inline} :
    areJoined is = true ↔ (∀ i ∈ is, i.isJoined = true) ∧ AreApart is := by
  induction is with
  | nil => simp [areJoined, AreApart]
  | cons i rest ih =>
    rw [areJoined_cons_iff, areApart_cons_iff, List.forall_mem_cons, ih]
    exact ⟨fun ⟨hi, hmeet, hrest, hapart⟩ => ⟨⟨hi, hrest⟩, hmeet, hapart⟩,
      fun ⟨⟨hi, hrest⟩, hmeet, hapart⟩ => ⟨hi, hmeet, hrest, hapart⟩⟩

namespace Inline

theorem isText_of_isEmptyText {i : Inline} (h : i.isEmptyText = true) : i.isText = true := by
  cases i with
  | text t => rfl
  | strong | emphasis | math | link | lineBreak => simp [isEmptyText] at h

theorem map_isText_trimFirst (is : List Inline) : (trimFirst is).map isText = is.map isText := by
  unfold trimFirst
  split <;> rfl

theorem map_isText_trimLast (is : List Inline) : (trimLast is).map isText = is.map isText := by
  fun_induction trimLast is with
  | case1 | case2 => rfl
  | case3 i rest _ ih => rw [List.map_cons, List.map_cons, ih]

/-- Trimming touches nothing but texts. -/
theorem mem_of_mem_trim {is : List Inline} {i : Inline} (h : i ∈ trimLast (trimFirst is))
    (hi : i.isText = false) : i ∈ is := by
  have hlast : ∀ {is : List Inline}, i ∈ trimLast is → i ∈ is := by
    intro is h
    fun_induction trimLast is with
    | case1 => exact h
    | case2 t =>
      obtain rfl := List.mem_singleton.1 h
      simp [isText] at hi
    | case3 j rest _ ih =>
      rcases List.mem_cons.1 h with rfl | h
      · exact List.mem_cons_self
      · exact List.mem_cons_of_mem _ (ih h)
  have hfirst := hlast h
  unfold trimFirst at hfirst
  split at hfirst
  · next t rest =>
    rcases List.mem_cons.1 hfirst with rfl | hmem
    · simp [isText] at hi
    · exact List.mem_cons_of_mem _ hmem
  · exact hfirst

/-- An inline that is no text is kept. -/
theorem filter_cons_of_not_text {i : Inline} (hi : i.isText = false) (rest : List Inline) :
    ((i :: rest).filter fun j => !j.isEmptyText) = i :: rest.filter fun j => !j.isEmptyText := by
  have hempty : i.isEmptyText = false := by
    by_contra h
    simp [isText_of_isEmptyText (by simpa using h)] at hi
  rw [List.filter_cons_of_pos (by simp [hempty])]

/-- What stands first and is no text stays first. -/
theorem head?_filter_of_not_text {is : List Inline} (h : ∀ j ∈ is.head?, j.isText = false) :
    (is.filter fun j => !j.isEmptyText).head? = is.head? := by
  cases is with
  | nil => rfl
  | cons j rest => rw [filter_cons_of_not_text (h j rfl), List.head?_cons, List.head?_cons]

/-- Dropping texts brings no texts together: next to a text stands none. -/
theorem areApart_filter {is : List Inline} (h : AreApart is) :
    AreApart (is.filter fun i => !i.isEmptyText) := by
  induction is with
  | nil => exact h
  | cons i rest ih =>
    obtain ⟨hmeet, hrest⟩ := areApart_cons_iff.1 h
    rw [List.filter_cons]
    split
    · exact areApart_cons_iff.2 ⟨fun hi => by rw [head?_filter_of_not_text (hmeet hi)]; exact hmeet hi, ih hrest⟩
    · exact ih hrest

theorem areApart_trim {is : List Inline} (h : AreApart is) : AreApart (trimLast (trimFirst is)) := by
  rwa [AreApart, map_isText_trimLast, map_isText_trimFirst]

/-- **Trimming keeps running text joined.** -/
theorem areJoined_trimEdges {is : List Inline} (h : areJoined is = true) : areJoined (trimEdges is) = true := by
  obtain ⟨hjoined, hapart⟩ := areJoined_iff.1 h
  refine areJoined_iff.2 ⟨fun i hi => ?_, areApart_filter (areApart_trim hapart)⟩
  obtain ⟨hmem, hkept⟩ := List.mem_filter.1 hi
  cases hi : i.isText with
  | false => exact hjoined i (mem_of_mem_trim hmem hi)
  | true =>
    cases i with
    | text t => cases t <;> simp [isJoined, isEmptyText] at hkept ⊢
    | strong | emphasis | math | link | lineBreak => simp [isText] at hi

/-! ### Edges -/

/-- The inline is a text that starts with a blank. -/
def startsBlank : Inline → Bool
  | .text t => t.head?.any CribSheet.isBlank
  | _ => false

/-- The inline is a text that ends with a blank. -/
def endsBlank : Inline → Bool
  | .text t => t.getLast?.any CribSheet.isBlank
  | _ => false

theorem startsBlank_of_not_text {i : Inline} (h : i.isText = false) : i.startsBlank = false := by
  cases i <;> simp [startsBlank, isText] at h ⊢

theorem endsBlank_of_not_text {i : Inline} (h : i.isText = false) : i.endsBlank = false := by
  cases i <;> simp [endsBlank, isText] at h ⊢

theorem startsBlank_text_eq_false_iff {t : Text} : (text t).startsBlank = false ↔ t.trimStart = t := by
  rw [startsBlank, Text.trimStart_eq_self_iff]
  cases t.head? <;> simp

theorem endsBlank_text_eq_false_iff {t : Text} : (text t).endsBlank = false ↔ t.trimEnd = t := by
  rw [endsBlank, Text.trimEnd_eq_self_iff]
  cases t.getLast? <;> simp

theorem startsBlank_trimFirst (is : List Inline) : (trimFirst is).head?.any startsBlank = false := by
  cases is with
  | nil => rfl
  | cons i rest =>
    cases i with
    | text t => exact startsBlank_text_eq_false_iff.2 (List.dropWhile_idempotent ..)
    | strong | emphasis | math | link | lineBreak => rfl

theorem startsBlank_trimLast {is : List Inline} (h : is.head?.any startsBlank = false) :
    (trimLast is).head?.any startsBlank = false := by
  unfold trimLast
  split
  · rfl
  · next t =>
    obtain ⟨dropped, hsplit⟩ := Text.dropEndWhile_isPrefix CribSheet.isBlank t
    have hstart : ∀ c ∈ t.head?, CribSheet.isBlank c = false :=
      (Text.trimStart_eq_self_iff t).1 (startsBlank_text_eq_false_iff.1 h)
    refine startsBlank_text_eq_false_iff.2 ((Text.trimStart_eq_self_iff _).2 fun c hc => hstart c ?_)
    rw [Text.trimEnd] at hc
    rw [← hsplit, List.head?_append, hc]
    rfl
  · exact h

theorem endsBlank_trimLast (is : List Inline) : (trimLast is).getLast?.any endsBlank = false := by
  fun_induction trimLast is with
  | case1 => rfl
  | case2 t =>
    refine endsBlank_text_eq_false_iff.2 ?_
    simp only [Text.trimEnd, Text.dropEndWhile_eq_rdropWhile]
    exact List.rdropWhile_idempotent _ _
  | case3 i rest hne ih =>
    cases rest with
    | nil =>
      cases i with
      | text t => exact absurd rfl (hne t rfl)
      | strong | emphasis | math | link | lineBreak => rfl
    | cons j rest =>
      have hlength := congrArg List.length (map_isText_trimLast (j :: rest))
      rw [List.getLast?_cons_of_ne_nil (by rintro hnil; simp [hnil] at hlength)]
      exact ih

theorem startsBlank_filter {is : List Inline} (hapart : AreApart is)
    (h : is.head?.any startsBlank = false) :
    (is.filter fun i => !i.isEmptyText).head?.any startsBlank = false := by
  cases is with
  | nil => rfl
  | cons i rest =>
    obtain ⟨hmeet, -⟩ := areApart_cons_iff.1 hapart
    rw [List.filter_cons]
    split
    · exact h
    · next hdropped =>
      have hmeet := hmeet (isText_of_isEmptyText (by simpa using hdropped))
      rw [head?_filter_of_not_text hmeet]
      cases hhead : rest.head? with
      | none => rfl
      | some j => exact startsBlank_of_not_text (hmeet j hhead)

theorem endsBlank_filter {is : List Inline} (hapart : AreApart is)
    (h : is.getLast?.any endsBlank = false) :
    (is.filter fun i => !i.isEmptyText).getLast?.any endsBlank = false := by
  induction is with
  | nil => rfl
  | cons i rest ih =>
    obtain ⟨hmeet, hrest⟩ := areApart_cons_iff.1 hapart
    cases rest with
    | nil =>
      rw [List.filter_cons]
      split
      · exact h
      · rfl
    | cons j rest =>
      have ih := ih hrest (by rwa [List.getLast?_cons_cons] at h)
      rw [List.filter_cons]
      split
      · cases hi : i.isText with
        | true =>
          rw [filter_cons_of_not_text (hmeet hi j rfl)] at ih ⊢
          rwa [List.getLast?_cons_cons]
        | false =>
          cases hkept : (j :: rest).filter fun j => !j.isEmptyText with
          | nil => exact endsBlank_of_not_text hi
          | cons k kept =>
            rw [hkept] at ih
            rwa [List.getLast?_cons_cons]
      · exact ih

end Inline

/-- **Running text that shows something and has no blanks at its edges.** -/
def isSolid (content : List Inline) : Bool :=
  !Inline.areBlank content && !content.head?.any Inline.startsBlank && !content.getLast?.any Inline.endsBlank

/-- Trimmed running text is solid when it shows something. -/
theorem isSolid_trimEdges {content : List Inline} (h : areJoined content = true)
    (hshows : Inline.areBlank (Inline.trimEdges content) = false) : isSolid (Inline.trimEdges content) = true := by
  have hapart := Inline.areApart_trim (areJoined_iff.1 h).2
  have hstart := Inline.startsBlank_filter hapart (Inline.startsBlank_trimLast (Inline.startsBlank_trimFirst content))
  have hend := Inline.endsBlank_filter hapart (Inline.endsBlank_trimLast _)
  rw [isSolid, hshows, Inline.trimEdges, hstart, hend]
  rfl

/-! ### Formed trees -/

/-- The block is a paragraph of strong text, as the title of a box is set. -/
def Block.isTitle : Block → Bool
  | .paragraph [.strong content] => areJoined content
  | _ => false

mutual

/-- The block is formed: running text is joined, a paragraph is solid, a list has items, and a formula has
no blanks around it.  The first block of a box may also be its title. -/
def Block.isFormed : Block → Bool
  | .heading _ content => areJoined content
  | .paragraph content => areJoined content && isSolid content
  | .steps items => !items.isEmpty && itemsAreFormed items
  | .list _ items => !items.isEmpty && itemsAreFormed items
  | .math body => body.trim == body
  | .callout [] => true
  | .callout (first :: children) => (first.isTitle || first.isFormed) && blocksAreFormed children

/-- **Each of the blocks is formed.** -/
def blocksAreFormed : List Block → Bool
  | [] => true
  | block :: blocks => block.isFormed && blocksAreFormed blocks

/-- Each of the items is formed. -/
def itemsAreFormed : List (List Block) → Bool
  | [] => true
  | item :: items => blocksAreFormed item && itemsAreFormed items

end

theorem blocksAreFormed_iff {blocks : List Block} :
    blocksAreFormed blocks = true ↔ ∀ block ∈ blocks, block.isFormed = true := by
  induction blocks with
  | nil => simp [blocksAreFormed]
  | cons block blocks ih => simp [blocksAreFormed, ih]

theorem itemsAreFormed_iff {items : List (List Block)} :
    itemsAreFormed items = true ↔ ∀ item ∈ items, blocksAreFormed item = true := by
  induction items with
  | nil => simp [itemsAreFormed]
  | cons item items ih => simp [itemsAreFormed, ih]

theorem blocksAreFormed_append {blocks blocks' : List Block} :
    blocksAreFormed (blocks ++ blocks') = true ↔ blocksAreFormed blocks = true ∧ blocksAreFormed blocks' = true := by
  simp only [blocksAreFormed_iff, List.forall_mem_append]

theorem blocksAreFormed_singleton {block : Block} : blocksAreFormed [block] = true ↔ block.isFormed = true := by
  simp [blocksAreFormed_iff]

/-! ### Reading formed trees -/

/-- **A paragraph is read formed.** -/
theorem blocksAreFormed_paragraph? (t : Text) : blocksAreFormed (paragraph? t).toList = true := by
  have hjoined := areJoined_parseInlines t.trim
  simp only [paragraph?]
  split
  · rfl
  · next hshows =>
    have hsolid := isSolid_trimEdges hjoined (by simpa using hshows)
    rw [Option.toList_some, blocksAreFormed_singleton, Block.isFormed, Inline.areJoined_trimEdges hjoined, hsolid]
    rfl

/-- The paragraph that a box with this content starts with, if it has a title. -/
def titleParagraph (content : Text) : List Block :=
  (((EnvironmentContent.ofText content).options.bind calloutTitle?).map fun t =>
    Block.paragraph [.strong (parseInlines t)]).toList

/-- Nothing is trimmed between texts that start and end with something else than a blank. -/
theorem trim_between {x y : Text} {c d : Char} (hx : x.head? = some c) (hc : isBlank c = false)
    (hy : y.getLast? = some d) (hd : isBlank d = false) (t : Text) : (x ++ t ++ y).trim = x ++ t ++ y := by
  refine (Text.trim_eq_self_iff _).2 ⟨fun e he => ?_, fun e he => ?_⟩
  · rw [List.append_assoc, List.head?_append, hx, Option.some_or] at he
    exact Option.some.inj he ▸ hc
  · rw [List.getLast?_append, hy, Option.some_or] at he
    exact Option.some.inj he ▸ hd

theorem trim_aligned (content : Text) : (aligned content).trim = aligned content :=
  trim_between (c := '\\') (by decide) (by decide) (d := '}') (by decide) (by decide) content.trim

/-- No blanks stand around a formula, nor around the markers of aligned ones. -/
theorem trim_of_formula {name content body : Text} (hname : isListName name = false)
    (hparts : environmentParts name content = [])
    (hread : ∀ read seen, readEnvironment read name content seen = ([.math body], seen)) : body.trim = body := by
  obtain ⟨hsteps, hlist⟩ : name ≠ itemizeName ∧ name ≠ enumerateName := by simpa [isListName] using hname
  have hbox : name ≠ "tcolorbox".toList := by
    rintro rfl
    rw [environmentParts, hname] at hparts
    simp at hparts
  -- What is left does not depend on how the parts are read, so any reader shows what the body is.
  have hread := hread (fun _ seen => ([], seen)) 0
  rw [readEnvironment, if_neg hsteps, if_neg hlist, if_neg hbox] at hread
  split at hread
  · obtain rfl : content.trim = body := by simpa using hread
    exact trim_trim content
  · split at hread
    · obtain rfl : aligned content = body := by simpa using hread
      exact trim_aligned content
    · simp at hread

section Readers

variable {read : Reader}

/-- Every item of a list is what was read from one of its texts. -/
theorem exists_of_mem_readAll {us : List Text} {seen : Nat} {item : List Block}
    (h : item ∈ (readAll read us seen).1) : ∃ u ∈ us, ∃ seen, item = (read u seen).1 := by
  induction us generalizing seen with
  | nil => simp [readAll] at h
  | cons u us ih =>
    rcases List.mem_cons.1 h with rfl | h
    · exact ⟨u, List.mem_cons_self, seen, rfl⟩
    · obtain ⟨v, hv, hitem⟩ := ih h
      exact ⟨v, List.mem_cons_of_mem _ hv, hitem⟩

/-- A list is left out when it has no items. -/
theorem blocksAreFormed_readList {list : List (List Block) → Block} {content : Text}
    (hlist : ∀ its, (list its).isFormed = (!its.isEmpty && itemsAreFormed its))
    (hlead : ∀ seen, blocksAreFormed (read (listItems content).1 seen).1 = true)
    (hitems : ∀ u ∈ (listItems content).2, ∀ seen, blocksAreFormed (read u seen).1 = true) (seen : Nat) :
    blocksAreFormed (readList read list content seen).1 = true := by
  simp only [readList]
  split
  · exact hlead seen
  · next hne =>
    refine blocksAreFormed_append.2 ⟨hlead seen, blocksAreFormed_singleton.2 ?_⟩
    rw [hlist, Bool.and_eq_true]
    refine ⟨by simpa using hne, itemsAreFormed_iff.2 fun item hitem => ?_⟩
    obtain ⟨u, hu, seen', rfl⟩ := exists_of_mem_readAll hitem
    exact hitems u hu seen'

/-- A box holds its title and its body. -/
theorem fst_readCallout (content : Text) (seen : Nat) :
    (readCallout read content seen).1 =
      [.callout (titleParagraph content ++ (read (EnvironmentContent.ofText content).body seen).1)] := rfl

theorem isFormed_callout {content : Text} {body : List Block} (hbody : blocksAreFormed body = true) :
    (Block.callout (titleParagraph content ++ body)).isFormed = true := by
  rw [titleParagraph]
  cases (EnvironmentContent.ofText content).options.bind calloutTitle? with
  | none =>
    cases body with
    | nil => rfl
    | cons first rest =>
      obtain ⟨hfirst, hrest⟩ := Bool.and_eq_true_iff.1 hbody
      simp [Block.isFormed, hfirst, hrest]
  | some title => simp [Block.isFormed, Block.isTitle, areJoined_parseInlines, hbody]

/-- **The blocks of a piece are formed**, when those of its parts are. -/
theorem blocksAreFormed_piece {p : Piece}
    (hparts : ∀ u ∈ p.parts, ∀ seen, blocksAreFormed (read u seen).1 = true) (seen : Nat) :
    blocksAreFormed (p.blocks read seen).1 = true := by
  cases p with
  | prose t => exact blocksAreFormed_paragraph? t
  | gap => rfl
  | heading content => exact blocksAreFormed_singleton.2 (areJoined_parseInlines content.trim)
  | math body => exact blocksAreFormed_singleton.2 (by simp [Block.isFormed, trim_trim])
  | environment name content =>
    rw [Piece.parts] at hparts
    rw [Piece.blocks]
    rcases environmentForm name content with
      ⟨-, hform, hread⟩ | ⟨-, hform, hread⟩ | ⟨-, -, hform, hread⟩ | ⟨body, hname, hform, hread⟩ | ⟨-, hform, hread⟩
    · obtain ⟨hlead, hitems⟩ := List.forall_mem_cons.1 (hform ▸ hparts)
      rw [hread]
      exact blocksAreFormed_readList (fun its => by rw [Block.isFormed]) hlead hitems seen
    · obtain ⟨hlead, hitems⟩ := List.forall_mem_cons.1 (hform ▸ hparts)
      rw [hread]
      exact blocksAreFormed_readList (fun its => by rw [Block.isFormed]) hlead hitems (nextCount seen)
    · rw [hread, fst_readCallout, blocksAreFormed_singleton]
      exact isFormed_callout (hparts _ (hform ▸ List.mem_singleton_self _) seen)
    · rw [hread, blocksAreFormed_singleton, Block.isFormed, trim_of_formula hname hform hread, beq_self_eq_true]
    · rw [hread]
      exact hparts content (hform ▸ List.mem_singleton_self content) seen

end Readers

theorem blocksAreFormed_fst_parseBlocks (t : Text) : ∀ seen, blocksAreFormed (parseBlocks t seen).1 = true := by
  induction t using parts_induction with
  | step t ih =>
  intro seen
  rw [parseBlocks_eq]
  generalize pieces true t = ps at ih
  induction ps generalizing seen with
  | nil => rfl
  | cons p ps ihps =>
    obtain ⟨hp, hps⟩ := List.forall_mem_cons.1 ih
    exact blocksAreFormed_append.2 ⟨blocksAreFormed_piece hp seen, ihps _ hps⟩

/-- **Every tree that is read is formed**, and a box starts with a title that was set without a look at
what it shows only if its options hold one: everything behind the title is formed, and without a title
everything is. -/
theorem blocksAreFormed_parseBlocks (t : Text) (seen : Nat) :
    blocksAreFormed (parseBlocks t seen).1 = true ∧
      ∃ body, blocksAreFormed body = true ∧
        (readCallout parseBlocks t seen).1 = [.callout (titleParagraph t ++ body)] :=
  ⟨blocksAreFormed_fst_parseBlocks t seen, _, blocksAreFormed_fst_parseBlocks _ seen, fst_readCallout t seen⟩

end CribSheet
