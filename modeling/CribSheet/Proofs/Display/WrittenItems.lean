/-
Written blocks and the items of written lists.

Written blocks are nested texts that start with a character of their own, so that nothing in front of
them takes them for an argument; a written list is cut at its own items, and at no item of a list inside
of it.

Main results:

* `CribSheet.nested_write` — written blocks are nested texts;
* `CribSheet.startsSolid_write` — a written block starts with a character that is no blank and no bracket;
* `CribSheet.items_writeItems` — a written list is cut at its own items.
-/
import CribSheet.Proofs.Display.InlineReading
import CribSheet.Proofs.Display.Nesting
import CribSheet.Proofs.Text.Deletion

set_option relaxedAutoImplicit false
set_option autoImplicit false

namespace CribSheet

open CribSheet.Markup
open CribSheet.Identity (Plain)

/-! ### Written blocks are nested -/

theorem isName_itemizeName : IsName itemizeName := ⟨by unfold Plain; decide, by decide⟩

theorem isName_enumerateName : IsName enumerateName := ⟨by unfold Plain; decide, by decide⟩

theorem isName_calloutName : IsName calloutName := ⟨by unfold Plain; decide, by decide⟩

theorem nested_writeInlines {is : List Inline} (hn : areNormal is = true) :
    Nested false (writeInlines is) :=
  .of_quiet ((running_of_areNormal hn).quiet (.inl rfl)) ((running_of_areNormal hn).quiet (.inr rfl))

theorem nested_section {is : List Inline} (hn : areNormal is = true) :
    Nested false (command sectionName (writeInlines is)) := by
  have hquiet : ∀ names, Directives names → Quiet names (command sectionName (writeInlines is)) := by
    intro names hnames
    have hcommand : Quiet names ('\\' :: (sectionName ++ ['{'])) := by
      refine quiet_command (letters_of_directives hnames) (endsName_cons.2 (by decide)) (by decide) ?_
        (by decide)
      rcases hnames with rfl | rfl <;> decide
    have hclose : Quiet names ['}'] := quiet_of_no_backslash (by decide)
    simpa [command] using hcommand.append (((running_of_areNormal hn).quiet hnames).append hclose)
  exact .of_quiet (hquiet _ (.inl rfl)) (hquiet _ (.inr rfl))

theorem nested_display {body : Text} (hbody : '\\' ∉ body) :
    Nested false ('\\' :: '[' :: (body ++ ['\\', ']'])) := by
  have hquiet : ∀ names, Directives names → Quiet names ('\\' :: '[' :: (body ++ ['\\', ']'])) := by
    intro names hnames
    have hopen : Quiet names ['\\', '['] := quiet_escape hnames (by decide)
    have hclose : Quiet names ['\\', ']'] := quiet_escape hnames (by decide)
    exact hopen.append ((quiet_of_no_backslash hbody).append hclose)
  exact .of_quiet (hquiet _ (.inl rfl)) (hquiet _ (.inr rfl))

/-- Line breaks do not disturb nesting. -/
theorem Nested.newline_cons {items : Bool} {w : Text} (h : Nested items w) : Nested items ('\n' :: w) :=
  Nested.append (w := ['\n']) (.of_no_backslash (by decide)) h

/-- Blocks are nested when each of them is. -/
theorem nested_writeBlocks_of_forall {bs : List Block} (h : ∀ b ∈ bs, Nested false b.write) :
    Nested false (writeBlocks bs) := by
  induction bs with
  | nil => exact .nil
  | cons b bs ih =>
    obtain ⟨hb, hbs⟩ := List.forall_mem_cons.1 h
    cases bs with
    | nil => exact hb
    | cons b' bs => exact hb.append (ih hbs).newline_cons.newline_cons

/-- Items are nested when each of them is. -/
theorem nested_writeItems_of_forall {its : List (List Block)}
    (h : ∀ item ∈ its, Nested false (writeBlocks item)) : Nested true (writeItems its) := by
  induction its with
  | nil => exact .nil
  | cons item its ih =>
    obtain ⟨hitem, hits⟩ := List.forall_mem_cons.1 h
    exact .item (hitem.with_items.append (ih hits).newline_cons)

theorem Nested.environment {name body : Text} (hname : IsName name) (hbody : Nested true body) :
    Nested false (CribSheet.environment name body) := by
  simpa using Nested.enclosed hname hbody (.nil : Nested false [])

/-- **Written blocks are nested texts.** -/
theorem nested_write (b : Block) (hn : b.isNormal = true) : Nested false b.write := by
  have hitems : ∀ its : List (List Block), sizeOf its < sizeOf b → itemsAreNormal its = true →
      Nested true ('\n' :: writeItems its) := by
    intro its hlt hits
    refine (nested_writeItems_of_forall fun item hitem => ?_).newline_cons
    refine nested_writeBlocks_of_forall fun b' hb' => ?_
    have := List.sizeOf_lt_of_mem hitem
    have := List.sizeOf_lt_of_mem hb'
    exact nested_write b' (blocksAreNormal_iff.1 (itemsAreNormal_iff.1 hits item hitem) b' hb')
  cases b with
  | heading level content => exact nested_section (Block.isNormal_heading_iff.1 hn).2.1
  | paragraph content => exact nested_writeInlines (Block.isNormal_paragraph_iff.1 hn).1
  | steps its =>
    exact .environment isName_itemizeName (hitems its (by simp) (Block.isNormal_steps_iff.1 hn).2)
  | list kind its =>
    have hlt : sizeOf its < sizeOf (Block.list kind its) := by
      rw [Block.list.sizeOf_spec]
      omega
    exact .environment isName_enumerateName (hitems its hlt (Block.isNormal_list_iff.1 hn).2)
  | math body => exact nested_display (Block.isNormal_math_iff.1 hn).2
  | callout children =>
    rw [Block.isNormal] at hn
    have hchildren : Nested false (writeBlocks children) := by
      refine nested_writeBlocks_of_forall fun b' hb' => ?_
      have := List.sizeOf_lt_of_mem hb'
      exact nested_write b' (blocksAreNormal_iff.1 hn b' hb')
    exact .environment isName_calloutName
      (hchildren.with_items.append (.of_no_backslash (by decide))).newline_cons
termination_by sizeOf b

theorem nested_writeBlocks {bs : List Block} (hn : blocksAreNormal bs = true) :
    Nested false (writeBlocks bs) :=
  nested_writeBlocks_of_forall fun b hb => nested_write b (blocksAreNormal_iff.1 hn b hb)

/-! ### How written blocks start -/

/-- The text starts with a character that is no blank and no bracket. -/
def StartsSolid (t : Text) : Prop := ∃ c w, t = c :: w ∧ isBlank c = false ∧ c ≠ '['

theorem startsSolid_backslash (t : Text) : StartsSolid ('\\' :: t) :=
  ⟨'\\', t, rfl, by decide, by decide⟩

theorem StartsSolid.append {t : Text} (h : StartsSolid t) (u : Text) : StartsSolid (t ++ u) := by
  obtain ⟨c, w, rfl, hc⟩ := h
  exact ⟨c, w ++ u, rfl, hc⟩

theorem StartsSolid.ne_nil {t : Text} (h : StartsSolid t) : t ≠ [] := by
  obtain ⟨c, w, rfl, -⟩ := h
  exact List.cons_ne_nil c w

/-- Running text that shows something and does not start with a blank. -/
theorem startsSolid_writeInlines {is : List Inline} (hne : is ≠ []) (hn : areNormal is = true)
    (htrim : (writeInlines is).trim = writeInlines is) : StartsSolid (writeInlines is) := by
  obtain ⟨i, rest, rfl⟩ := List.exists_cons_of_ne_nil hne
  obtain ⟨hi, -, -⟩ := areNormal_cons_iff.1 hn
  cases i with
  | text t =>
    obtain ⟨ht, hprose⟩ := Inline.isNormal_text_iff.1 hi
    obtain ⟨c, t, rfl⟩ := List.exists_cons_of_ne_nil ht
    have hhead := (Text.trim_eq_self_iff _).1 htrim |>.1 c rfl
    exact ⟨c, t ++ writeInlines rest, rfl, hhead,
      ne_of_isProse (hprose c (List.mem_cons_self ..)) (by decide)⟩
  | strong children => exact startsSolid_backslash _
  | emphasis children => exact startsSolid_backslash _
  | math body => exact ⟨'$', _, rfl, by decide, by decide⟩
  | link url => exact startsSolid_backslash _
  | lineBreak => exact startsSolid_backslash _

/-- Every written block starts with a character of its own. -/
theorem startsSolid_write {b : Block} (hn : b.isNormal = true) : StartsSolid b.write := by
  cases b with
  | heading level content => exact startsSolid_backslash _
  | paragraph content =>
    obtain ⟨hnormal, htrim, hblank⟩ := Block.isNormal_paragraph_iff.1 hn
    refine startsSolid_writeInlines ?_ hnormal htrim
    rintro rfl
    simp [Inline.areBlank] at hblank
  | steps items => exact startsSolid_backslash _
  | list kind items => exact startsSolid_backslash _
  | math body => exact startsSolid_backslash _
  | callout children => exact startsSolid_backslash _

theorem startsSolid_writeBlocks {b : Block} {bs : List Block} (hn : blocksAreNormal (b :: bs) = true) :
    StartsSolid (writeBlocks (b :: bs)) := by
  have hb := startsSolid_write (blocksAreNormal_iff.1 hn b (List.mem_cons_self ..))
  cases bs with
  | nil => exact hb
  | cons b' bs => exact hb.append _

/-! ### Items of a written list -/

/-- An item has no label when no bracket follows its command. -/
theorem itemLabel_of_head?_ne {t : Text} (h : (argumentSpace t).2.head? ≠ some '[') :
    itemLabel t = ([], t) := by
  have hbracket : Group.readBracket? (argumentSpace t).2 = none := by
    cases ht : (argumentSpace t).2 with
    | nil => rfl
    | cons c u =>
      have hc : c ≠ '[' := by simpa [ht] using h
      rw [Group.readBracket?, Group.read?, if_neg hc]
      split
      · cases closeBrace? 0 u <;> simp
      · rfl
  rw [itemLabel, hbracket]

/-- A single blank is the whole argument space in front of a character that is none. -/
theorem argumentSpace_blank_cons {c : Char} (hc : isBlank c = false) (t : Text) :
    argumentSpace (' ' :: c :: t) = ([' '], c :: t) := by
  have hgap : isGap c = false := by
    cases hg : isGap c with
    | false => rfl
    | true => simp [isBlank_of_isGap hg] at hc
  have hspace : isGap ' ' = true := rfl
  have hdrop : (' ' :: c :: t).dropWhile isGap = c :: t := by
    rw [List.dropWhile_cons_of_pos hspace, List.dropWhile_cons_of_neg (by simp [hgap])]
  have htake : (' ' :: c :: t).takeWhile isGap = [' '] := by
    rw [List.takeWhile_cons_of_pos hspace, List.takeWhile_cons_of_neg (by simp [hgap])]
  rw [argumentSpace, hdrop, htake]
  split
  · next rest h =>
    obtain ⟨rfl, -⟩ := List.cons.inj h
    exact absurd hc (by decide)
  · rfl

/-- What a written item consists of, behind its command. -/
def itemText (item : List Block) : Text := ' ' :: (writeBlocks item ++ ['\n'])

theorem writeItems_cons (item : List Block) (its : List (List Block)) :
    writeItems (item :: its) = '\\' :: (itemName ++ (itemText item ++ writeItems its)) := by
  simp [writeItems, itemText]

/-- A written item has no label. -/
theorem itemLabel_itemText {item : List Block} (hn : blocksAreNormal item = true)
    (its : List (List Block)) :
    itemLabel (itemText item ++ writeItems its) = ([], itemText item ++ writeItems its) := by
  refine itemLabel_of_head?_ne ?_
  cases item with
  | nil =>
    -- Argument space takes the line break of an empty item along, up to the next command.
    cases its with
    | nil => decide
    | cons item its => simp [writeItems_cons, itemText, writeBlocks, argumentSpace, isGap]
  | cons b bs =>
    obtain ⟨c, w, hw, hblank, hbracket⟩ := startsSolid_writeBlocks hn
    have htext : itemText (b :: bs) ++ writeItems its = ' ' :: c :: (w ++ '\n' :: writeItems its) := by
      simp [itemText, hw]
    rw [htext, argumentSpace_blank_cons hblank]
    simpa using hbracket

theorem nested_itemText {item : List Block} (hn : blocksAreNormal item = true) :
    Nested false (itemText item) :=
  Nested.append (w := [' ']) (.of_no_backslash (by decide))
    ((nested_writeBlocks hn).append (.of_no_backslash (by decide)))

/-- The item that a text starts with is the next one. -/
theorem next?_item {item : List Block} (hn : blocksAreNormal item = true) (its : List (List Block)) :
    ItemMark.next? (writeItems (item :: its)) =
      some ⟨[], '\\' :: itemName, itemText item ++ writeItems its⟩ := by
  have hstar : star (itemText item ++ writeItems its) = ([], itemText item ++ writeItems its) := rfl
  have hblank : ∀ c ∈ (itemText item ++ writeItems its).head?, Text.isLetter c = false := by
    intro c hc
    obtain rfl := Option.some.inj hc
    decide
  rw [writeItems_cons, ItemMark.next?_item hblank, hstar, itemLabel_itemText hn]
  simp

theorem items_of_next?_eq_none {t : Text} (h : ItemMark.next? t = none) : items t = (t, []) := by
  rw [items]
  split
  · rfl
  · next h' => simp [h] at h'

theorem items_of_next? {t : Text} {mark : ItemMark} (h : ItemMark.next? t = some mark) :
    items t = (mark.before, (items mark.after).1 :: (items mark.after).2) := by
  rw [items]
  split
  · next h' => simp [h] at h'
  · next h' =>
    obtain rfl := Option.some.inj (h.symm.trans h')
    rfl

/-- **A written list is cut at its own items.** -/
theorem items_writeItems {its : List (List Block)} (hn : itemsAreNormal its = true) {lead : Text}
    (hlead : Nested false lead) : items (lead ++ writeItems its) = (lead, its.map itemText) := by
  induction its generalizing lead with
  | nil =>
    have hnone : ItemMark.next? (lead ++ writeItems []) = none := by
      rw [hlead.next?_append, ItemMark.next?_eq_none rfl, Option.map_none]
    rw [items_of_next?_eq_none hnone]
    simp [writeItems]
  | cons item its ih =>
    obtain ⟨hitem, hits⟩ := List.forall_mem_cons.1 (itemsAreNormal_iff.1 hn)
    have hnext : ItemMark.next? (lead ++ writeItems (item :: its)) = _ := hlead.next?_append _
    rw [next?_item hitem, Option.map_some] at hnext
    rw [items_of_next? hnext]
    simp [ItemMark.behind, ih (itemsAreNormal_iff.2 hits) (nested_itemText hitem)]

end CribSheet
