/-
Writing a display tree as LaTeX.

Every tree has a plain way of being written: commands for styles, addresses and headings, environments
for boxes and lists, and an empty line between blocks.  A normal tree is one whose parts cannot be taken
for markup where they stand; it is what reading gives back from its own writing.

Main definitions:

* `CribSheet.Inline.write`, `CribSheet.Block.write` — the writing of a tree;
* `CribSheet.Inline.isNormal`, `CribSheet.Block.isNormal` — normal trees;
* `CribSheet.KindsFrom` — ordered lists are numbered or lettered as a reader would count them.
-/
import CribSheet.Proofs.Display.Numbering

set_option relaxedAutoImplicit false
set_option autoImplicit false

namespace CribSheet

open CribSheet.Markup

/-! ### Commands and environments -/

/-- A command with one argument. -/
def command (name argument : Text) : Text := '\\' :: (name ++ '{' :: (argument ++ ['}']))

theorem command_append (name argument rest : Text) :
    command name argument ++ rest = '\\' :: (name ++ '{' :: (argument ++ '}' :: rest)) := by
  simp [command]

/-- An environment. -/
def environment (name content : Text) : Text := command beginName name ++ content ++ command endName name

/-- The name of the command that sets a style. -/
def Style.command : Style → Text
  | .strong => ['t', 'e', 'x', 't', 'b', 'f']
  | .emphasis => ['e', 'm', 'p', 'h']

/-- The name of the command for a heading. -/
def sectionName : Text := ['s', 'e', 'c', 't', 'i', 'o', 'n']

/-- The name of the environment for a box. -/
def calloutName : Text := ['t', 'c', 'o', 'l', 'o', 'r', 'b', 'o', 'x']

/-! ### Inlines -/

mutual

/-- An inline as it is written. -/
def Inline.write : Inline → Text
  | .text t => t
  | .strong children => command Style.strong.command (writeInlines children)
  | .emphasis children => command Style.emphasis.command (writeInlines children)
  | .math body => '$' :: (body ++ ['$'])
  | .link url => command urlName url
  | .lineBreak => ['\\', '\\']

/-- Inlines as they are written, one after the other. -/
def writeInlines : List Inline → Text
  | [] => []
  | i :: rest => i.write ++ writeInlines rest

end

/-- The characters that are no prose: they start markup, group it, or end a line. -/
def markupChars : Text := ['\n', '\\', '$', '%', '~', '{', '}', '[', ']', '*']

/-- The characters that end a formula, or are grouped by what stands around it. -/
def formulaStops : Text := ['\\', '$', '{', '}']

/-- The characters that end an address or group it. -/
def addressStops : Text := ['\\', '{', '}']

/-- The inlines start with a text. -/
def startsWithText : List Inline → Bool
  | .text _ :: _ => true
  | _ => false

mutual

/-- The inline can be told from its writing: texts are prose, formulas and addresses hold nothing that
ends them. -/
def Inline.isNormal : Inline → Bool
  | .text t => !t.isEmpty && t.all fun c => !markupChars.contains c
  | .strong children => areNormal children
  | .emphasis children => areNormal children
  | .math body => !body.isEmpty && body.all fun c => !formulaStops.contains c
  | .link url => url.trim == url && url.all fun c => !addressStops.contains c
  | .lineBreak => true

/-- The inlines can be told from their writing: each of them can, and no two texts meet. -/
def areNormal : List Inline → Bool
  | [] => true
  | i :: rest => i.isNormal && !(startsWithText [i] && startsWithText rest) && areNormal rest

end

namespace Inline

theorem isNormal_text_iff {t : Text} :
    (text t).isNormal = true ↔ t ≠ [] ∧ ∀ c ∈ t, c ∉ markupChars := by
  simp [isNormal]

theorem isNormal_math_iff {body : Text} :
    (math body).isNormal = true ↔ body ≠ [] ∧ ∀ c ∈ body, c ∉ formulaStops := by
  simp [isNormal]

theorem isNormal_link_iff {url : Text} :
    (link url).isNormal = true ↔ url.trim = url ∧ ∀ c ∈ url, c ∉ addressStops := by
  simp [isNormal]

end Inline

theorem areNormal_cons_iff {i : Inline} {rest : List Inline} :
    areNormal (i :: rest) = true ↔
      i.isNormal = true ∧ (startsWithText [i] = true → startsWithText rest = false) ∧
        areNormal rest = true := by
  simp only [areNormal, Bool.and_eq_true, Bool.not_eq_true', and_assoc, Bool.and_eq_false_imp]

theorem isNormal_of_mem {is : List Inline} (hn : areNormal is = true) {i : Inline} (h : i ∈ is) :
    i.isNormal = true := by
  induction is with
  | nil => simp at h
  | cons j rest ih =>
    obtain ⟨hj, -, hrest⟩ := areNormal_cons_iff.1 hn
    rcases List.mem_cons.1 h with rfl | h
    · exact hj
    · exact ih hrest h

/-! ### Blocks -/

mutual

/-- A block as it is written. -/
def Block.write : Block → Text
  | .heading _ content => command sectionName (writeInlines content)
  | .paragraph content => writeInlines content
  | .steps items => environment itemizeName ('\n' :: writeItems items)
  | .list _ items => environment enumerateName ('\n' :: writeItems items)
  | .math body => '\\' :: '[' :: (body ++ ['\\', ']'])
  | .callout children => environment calloutName ('\n' :: (writeBlocks children ++ ['\n']))

/-- Blocks as they are written, with an empty line between each two. -/
def writeBlocks : List Block → Text
  | [] => []
  | [block] => block.write
  | block :: next :: blocks => block.write ++ '\n' :: '\n' :: writeBlocks (next :: blocks)

/-- Items as they are written, each with its command, a blank, its blocks and a line break. -/
def writeItems : List (List Block) → Text
  | [] => []
  | item :: items => '\\' :: (itemName ++ ' ' :: (writeBlocks item ++ '\n' :: writeItems items))

end

mutual

/-- The block can be told from its writing: running text does not start or end with a blank, a
paragraph shows something, a formula holds nothing that ends it, and a list has an item. -/
def Block.isNormal : Block → Bool
  | .heading level content =>
    level == headingLevel && areNormal content && (writeInlines content).trim == writeInlines content
  | .paragraph content =>
    areNormal content && (writeInlines content).trim == writeInlines content &&
      !Inline.areBlank content
  | .steps items => !items.isEmpty && itemsAreNormal items
  | .list _ items => !items.isEmpty && itemsAreNormal items
  | .math body => body.trim == body && !body.contains '\\'
  | .callout children => blocksAreNormal children

/-- Each of the blocks can be told from its writing. -/
def blocksAreNormal : List Block → Bool
  | [] => true
  | block :: blocks => block.isNormal && blocksAreNormal blocks

/-- Each of the items can be told from its writing. -/
def itemsAreNormal : List (List Block) → Bool
  | [] => true
  | item :: items => blocksAreNormal item && itemsAreNormal items

end

theorem blocksAreNormal_iff {blocks : List Block} :
    blocksAreNormal blocks = true ↔ ∀ block ∈ blocks, block.isNormal = true := by
  induction blocks with
  | nil => simp [blocksAreNormal]
  | cons block blocks ih => simp [blocksAreNormal, ih]

theorem itemsAreNormal_iff {items : List (List Block)} :
    itemsAreNormal items = true ↔ ∀ item ∈ items, blocksAreNormal item = true := by
  induction items with
  | nil => simp [itemsAreNormal]
  | cons item items ih => simp [itemsAreNormal, ih]

namespace Block

theorem isNormal_steps_iff {items : List (List Block)} :
    (steps items).isNormal = true ↔ items ≠ [] ∧ itemsAreNormal items = true := by
  simp [isNormal]

theorem isNormal_list_iff {kind : ListKind} {items : List (List Block)} :
    (list kind items).isNormal = true ↔ items ≠ [] ∧ itemsAreNormal items = true := by
  simp [isNormal]

theorem isNormal_heading_iff {level : Nat} {content : List Inline} :
    (heading level content).isNormal = true ↔
      level = headingLevel ∧ areNormal content = true ∧
        (writeInlines content).trim = writeInlines content := by
  simp [isNormal, and_assoc]

theorem isNormal_paragraph_iff {content : List Inline} :
    (paragraph content).isNormal = true ↔
      areNormal content = true ∧ (writeInlines content).trim = writeInlines content ∧
        Inline.areBlank content = false := by
  simp [isNormal, and_assoc]

theorem isNormal_math_iff {body : Text} :
    (math body).isNormal = true ↔ body.trim = body ∧ '\\' ∉ body := by
  simp [isNormal]

end Block

/-- **The kinds of ordered lists** are those that reading gives them in this order, when `seen` ordered
lists were met before.  From zero on the first list is numbered and every other one is lettered
(`kindsFrom_zero_iff`). -/
def KindsFrom (seen : Nat) (lists : List OrderedList) : Prop :=
  ∀ i (h : i < lists.length), lists[i].1 = .next (nextCount^[i] seen)

/-- Only the very first list is numbered, among as many as the count can tell apart. -/
theorem kindsFrom_zero_iff {lists : List OrderedList} (hlimit : lists.length ≤ countLimit) :
    KindsFrom 0 lists ↔ ∀ i (h : i < lists.length), lists[i].1 = if i = 0 then .numbered else .lettered := by
  refine forall_congr' fun i => forall_congr' fun h => ?_
  rw [iterate_nextCount (by omega), Nat.zero_add, ListKind.next]

theorem kindsFrom_cons_iff {seen : Nat} {list : OrderedList} {lists : List OrderedList} :
    KindsFrom seen (list :: lists) ↔ list.1 = .next seen ∧ KindsFrom (nextCount seen) lists := by
  constructor
  · intro h
    exact ⟨h 0 (Nat.zero_lt_succ _), fun i hi => h (i + 1) (Nat.succ_lt_succ hi)⟩
  · rintro ⟨hfirst, hrest⟩ i hi
    cases i with
    | zero => exact hfirst
    | succ i => exact hrest i (Nat.lt_of_succ_lt_succ hi)

theorem kindsFrom_append_iff {seen : Nat} {lists lists' : List OrderedList} :
    KindsFrom seen (lists ++ lists') ↔
      KindsFrom seen lists ∧ KindsFrom (nextCount^[lists.length] seen) lists' := by
  induction lists generalizing seen with
  | nil => simp [KindsFrom]
  | cons list lists ih =>
    rw [List.cons_append, kindsFrom_cons_iff, kindsFrom_cons_iff, ih, and_assoc, List.length_cons,
      Function.iterate_succ_apply]

end CribSheet
