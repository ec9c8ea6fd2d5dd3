/-
Reading the display tree.

The pieces of a text become blocks one after another; the content of an environment is read in the same
way.  The number of ordered lists met so far is handed from block to block in the order of the text, so
that the first ordered list is numbered and every later one lettered.

Main definitions:

* `CribSheet.parseBlocks` — the blocks of a text;
* `CribSheet.Document.displayFrom`, `CribSheet.Document.display` — the display tree of a sheet;
* `CribSheet.displayAll` — the trees of several sheets that count their lists together.

Main results:

* `CribSheet.parseBlocks_eq` — the recursion that `parseBlocks` stands for.
-/
import CribSheet.Display.Callout
import CribSheet.Display.Inline
import CribSheet.Display.Item
import CribSheet.Sheet.Document

set_option relaxedAutoImplicit false
set_option autoImplicit false

namespace CribSheet

open CribSheet.Markup

/-! ### Paragraphs -/

/-- The paragraph of some prose; there is none when nothing visible is left of it. -/
def paragraph? (t : Text) : Option Block :=
  let content := Inline.trimEdges (parseInlines t.trim)
  if Inline.areBlank content then none else some (.paragraph content)

/-! ### Environments -/

/-- A way of reading a text: its blocks, and the counts of ordered lists before and after. -/
abbrev Reader := Text → Nat → List Block × Nat

/-- The blocks of each text, read in order. -/
def readAll (read : Reader) : List Text → Nat → List (List Block) × Nat
  | [], seen => ([], seen)
  | t :: ts, seen =>
    let first := read t seen
    let others := readAll read ts first.2
    (first.1 :: others.1, others.2)

/-- The blocks of a list: what stands before its first item, and the list, unless it has no items. -/
def readList (read : Reader) (list : List (List Block) → Block) (content : Text) (seen : Nat) :
    List Block × Nat :=
  let body := (EnvironmentContent.ofText content).body
  let lead := read (items body).1 seen
  let its := readAll read (items body).2 lead.2
  (if its.1.isEmpty then lead.1 else lead.1 ++ [list its.1], its.2)

/-- The blocks of a box, its title first. -/
def readCallout (read : Reader) (content : Text) (seen : Nat) : List Block × Nat :=
  let parts := EnvironmentContent.ofText content
  let body := read parts.body seen
  let title := (parts.options.bind calloutTitle?).map fun t => Block.paragraph [.strong (parseInlines t)]
  ([.callout (title.toList ++ body.1)], body.2)

/-- Environments that hold one formula. -/
def formulaNames : List Text :=
  ["equation".toList, "equation*".toList, "gather".toList, "gather*".toList, "displaymath".toList]

/-- Environments that hold aligned formulas. -/
def alignedNames : List Text := ["align".toList, "align*".toList]

/-- Aligned formulas, as one formula. -/
def aligned (content : Text) : Text :=
  "\\begin\x7baligned\x7d\n".toList ++ content.trim ++ "\n\\end\x7baligned\x7d".toList

/-- The blocks of an environment.  One that has no form of its own stands for its content. -/
def readEnvironment (read : Reader) (name content : Text) (seen : Nat) : List Block × Nat :=
  if name = itemizeName then readList read .steps content seen
  else if name = enumerateName then readList read (.list (.next seen)) content (nextCount seen)
  else if name = "tcolorbox".toList then readCallout read content seen
  else if formulaNames.contains name then ([.math content.trim], seen)
  else if alignedNames.contains name then ([.math (aligned content)], seen)
  else read content seen

/-! ### Blocks -/

/-- The blocks of a piece. -/
def Piece.blocks (read : Reader) (p : Piece) (seen : Nat) : List Block × Nat :=
  match p with
  | .prose t => ((paragraph? t).toList, seen)
  | .gap => ([], seen)
  | .heading content => ([.heading headingLevel (parseInlines content.trim)], seen)
  | .math body => ([.math body.trim], seen)
  | .environment name content => readEnvironment read name content seen

/-- The blocks of all pieces. -/
def readPieces (read : Reader) : List Piece → Nat → List Block × Nat
  | [], seen => ([], seen)
  | p :: ps, seen =>
    let first := p.blocks read seen
    let others := readPieces read ps first.2
    (first.1 ++ others.1, others.2)

/-- **The blocks of a text**, when `seen` ordered lists were met before it, and the count behind it.
The content of an environment is always shorter than the text; the test says so where the recursion
needs it. -/
def parseBlocks (t : Text) (seen : Nat) : List Block × Nat :=
  readPieces (fun t' seen => if t'.length < t.length then parseBlocks t' seen else ([], seen))
    (pieces true t) seen
termination_by t.length

/-! ### The recursion without its test -/

theorem readAll_congr {read read' : Reader} {ts : List Text} (seen : Nat)
    (h : ∀ t ∈ ts, ∀ seen, read t seen = read' t seen) : readAll read ts seen = readAll read' ts seen := by
  induction ts generalizing seen with
  | nil => rfl
  | cons t ts ih =>
    simp only [readAll]
    rw [h t (List.mem_cons_self ..), ih _ fun u hu => h u (List.mem_cons_of_mem _ hu)]

/-- Reading an environment looks at no text longer than its content. -/
theorem readEnvironment_congr {read read' : Reader} (name : Text) {content : Text} (seen : Nat)
    (h : ∀ t : Text, t.length ≤ content.length → ∀ seen, read t seen = read' t seen) :
    readEnvironment read name content seen = readEnvironment read' name content seen := by
  have hbody := EnvironmentContent.length_body_ofText_le content
  have hlist : ∀ list seen, readList read list content seen = readList read' list content seen := by
    intro list seen
    have hlead := length_items_fst_le (EnvironmentContent.ofText content).body
    have hitems : ∀ t ∈ (items (EnvironmentContent.ofText content).body).2, ∀ seen,
        read t seen = read' t seen := fun t ht =>
      h t (Nat.le_trans (Nat.le_of_lt (length_lt_of_mem_items ht)) hbody)
    simp only [readList]
    rw [h _ (Nat.le_trans hlead hbody), readAll_congr _ hitems]
  have hcallout : readCallout read content seen = readCallout read' content seen := by
    simp only [readCallout]
    rw [h _ hbody]
  unfold readEnvironment
  rw [hlist, hlist, hcallout, h _ (Nat.le_refl _)]

theorem readPieces_congr {read read' : Reader} {ps : List Piece} (seen : Nat)
    (h : ∀ name content, .environment name content ∈ ps → ∀ t : Text, t.length ≤ content.length →
      ∀ seen, read t seen = read' t seen) :
    readPieces read ps seen = readPieces read' ps seen := by
  induction ps generalizing seen with
  | nil => rfl
  | cons p ps ih =>
    have hp : ∀ seen, p.blocks read seen = p.blocks read' seen := by
      intro seen
      cases p with
      | environment name content =>
        exact readEnvironment_congr name seen (h name content (List.mem_cons_self ..))
      | _ => rfl
    simp only [readPieces]
    rw [hp, ih _ fun name content hm => h name content (List.mem_cons_of_mem _ hm)]

/-- Blocks are read from the pieces, with environments read in the same way. -/
theorem parseBlocks_eq (t : Text) (seen : Nat) :
    parseBlocks t seen = readPieces parseBlocks (pieces true t) seen := by
  rw [parseBlocks]
  refine readPieces_congr seen fun name content hm u hu seen => ?_
  rw [if_pos (Nat.lt_of_le_of_lt hu (length_content_of_mem_pieces hm))]

/-! ### Sheets -/

/-- The title of a sheet, unless it is empty: the argument of the first `\title`, behind a short form
if there is one. -/
def title? (t : Text) : Option Text :=
  (Sighting.find? ["title".toList] false t).bind fun command =>
    (shortForm? command.after).bind fun (short, rest) =>
      let rest := if short = [] then (argumentSpace rest).2 else rest
      (Argument.read? rest).bind fun argument =>
        if argument.inner.trim = [] then none else some argument.inner.trim

/-- **The display tree of a sheet**, when `seen` ordered lists were met before it: its title, and the
blocks of its body. -/
def Document.displayFrom (doc : Document) (seen : Nat) : List Block × Nat :=
  let title := (title? doc.text).map fun t => Block.heading headingLevel (parseInlines t)
  let body := parseBlocks doc.body seen
  (title.toList ++ body.1, body.2)

/-- The display tree of a sheet on its own. -/
def Document.display (doc : Document) : List Block := (doc.displayFrom 0).1

/-- The display trees of sheets that count their ordered lists together, each with the count after it. -/
def displayAll : List Document → Nat → List (List Block × Nat)
  | [], _ => []
  | doc :: docs, seen =>
    let first := doc.displayFrom seen
    first :: displayAll docs first.2

end CribSheet
