/-
Whole sheets, byte by byte.

A sheet is converted by looking up its title, cutting out its body and reading the blocks of it.  Every step that could
go wrong with a position is checked in these functions: that a byte that is read is one of the text, that a text is cut
between two of its characters and the end of a cut does not lie before its start, that a loop moves forward in every
round, and that a text that is read within another one is shorter.

Main definitions:

* `CribSheet.Checked.title?`, `CribSheet.Checked.body` — the parts of a sheet;
* `CribSheet.Checked.display` — the display tree of a sheet.

Main results:

* `CribSheet.Checked.display_eq` — the display tree is made without a fault;
* `CribSheet.Checked.no_fault_at_any_offset` — **no step goes wrong**, in the conversion of a sheet and in the scans by
  offset, whatever text is scanned and wherever a scan starts.
-/
import CribSheet.Proofs.Bytes.Blocks

set_option relaxedAutoImplicit false
set_option autoImplicit false

namespace CribSheet.Checked

open Text Markup

/-! ### The title -/

/-- The title that is the argument behind a position, unless it is empty. -/
def titleArgument? (t : Text) (i : Nat) : Run (Option Text) := do
  match ← readArgument? t i with
  | none => .ok none
  | some (title, _) => .ok (if title.trim = [] then none else some title.trim)

/-- The title of a sheet: the argument of the first `\title`, behind a short form if there is one. -/
def title? (t : Text) : Run (Option Text) := do
  match ← findCommand? t "title".toList 0 with
  | none => .ok none
  | some found => do
    let next ← skipArgumentSpace t found.stop
    let ahead ← cutFrom t next
    if startsWith ['['] ahead then
      match ← groupEnd? t next with
      | none => .ok none
      | some next => titleArgument? t next
    else titleArgument? t next

section Title

variable {t behind ahead : Text} {i : Nat}

theorem Stands.titleArgument? (h : Stands t behind ahead i) :
    Checked.titleArgument? t i =
      .ok ((Argument.read? ahead).bind fun a => if a.inner.trim = [] then none else some a.inner.trim) := by
  rw [Checked.titleArgument?, h.readArgument?, ok_bind]
  cases Argument.read? ahead <;> rfl

theorem title?_eq (t : Text) : title? t = .ok (CribSheet.title? t) := by
  have hstart := stands_zero t
  rw [title?, hstart.findCommand?, ok_bind, CribSheet.title?]
  cases hc : Sighting.find? ["title".toList] (escapedAfter false []) t with
  | none =>
      rw [escapedAfter_nil] at hc
      rw [hc]
      rfl
  | some command =>
      have hbehind := hstart.afterCommand hc
      have hspace := hbehind.afterSpace
      rw [escapedAfter_nil] at hc
      rw [hc, Option.map_some, Option.bind_some, shortForm?]
      simp only
      rw [hbehind.skipArgumentSpace, ok_bind, hspace.cutFrom, ok_bind]
      by_cases hbracket : (argumentSpace command.after).2.head? = some '['
      · rw [if_pos (startsWith_singleton_iff.2 hbracket), if_pos hbracket, hspace.groupEnd?, ok_bind]
        cases hread : Group.read? (argumentSpace command.after).2 with
        | none => rfl
        | some g =>
            -- A short form is never empty, which tells it from none.
            have hne : (argumentSpace command.after).1 ++ g.source ≠ [] := by
              rcases read?_eq_some hread with ⟨-, -, -, hsource⟩ | ⟨-, -, -, hsource⟩ <;> simp [hsource]
            rw [← Group.text_read? hread, Group.text] at hspace
            simp only [Option.map_some, Option.bind_some, if_neg hne]
            exact hspace.advance.titleArgument?
      · rw [if_neg fun h => hbracket (startsWith_singleton_iff.1 h), if_neg hbracket]
        exact hspace.titleArgument?

end Title

/-! ### The body -/

/-- What stands inside the document root; everything when there is none. -/
def body (t : Text) : Run Text :=
  match find beginDocument t with
  | none => .ok t
  | some start => do
    let rest ← cutFrom t (start + beginDocument.size)
    cut t (start + beginDocument.size)
      ((find endDocument rest).elim t.size (start + beginDocument.size + ·))

theorem body_eq (doc : Document) : body doc.text = .ok doc.body := by
  rw [body, find, Document.body]
  cases hopening : cutAt? beginDocument doc.text with
  | none => rfl
  | some found =>
      obtain ⟨before, rest⟩ := found
      have hrest : Stands doc.text (before ++ beginDocument) rest (before.size + beginDocument.size) :=
        ⟨cutAt?_eq_append hopening, size_append _ _⟩
      simp only [Option.map_some]
      rw [hrest.cutFrom, ok_bind, find]
      cases hclosing : cutAt? endDocument rest with
      | none =>
          have hsize := hrest.size_text
          rw [← List.append_nil rest] at hrest
          have hcut := hrest.cut
          rwa [← hsize] at hcut
      | some found =>
          obtain ⟨inner, after⟩ := found
          rw [cutAt?_eq_append hclosing, List.append_assoc] at hrest
          exact hrest.cut

/-! ### The display tree -/

/-- The display tree of a sheet, when so many ordered lists were met before it. -/
def display (doc : Document) (seen : Nat) : Run (List Block × Nat) := do
  let heading ← match ← title? doc.text with
    | some title => do
      let content ← parseInlines title
      .ok [Block.heading headingLevel content]
    | none => .ok []
  let text ← body doc.text
  let (blocks, seen) ← parseBlocks text seen
  .ok (heading ++ blocks, seen)

/-- **The display tree is made without a fault.** -/
theorem display_eq (doc : Document) (seen : Nat) : display doc seen = .ok (doc.displayFrom seen) := by
  rw [display, title?_eq, ok_bind, Document.displayFrom, body_eq]
  cases CribSheet.title? doc.text with
  | none =>
      simp only [ok_bind]
      rw [parseBlocks_eq]
      rfl
  | some title =>
      simp only [parseInlines_eq, ok_bind]
      rw [parseBlocks_eq]
      rfl

/-- **No step goes wrong**, in the conversion of a sheet and in the scans by offset, whatever text is scanned and
wherever a scan starts: no byte is read past the end, no text is cut there, inside of a character or backwards, no count
goes below zero, and every loop and every recursion moves on. -/
theorem no_fault_at_any_offset (t : Text) :
    (∀ i j u, cut t i j = .ok u → i ≤ j ∧ j ≤ t.size ∧ (t.splitAt? i).isSome ∧ (t.splitAt? j).isSome) ∧
    (∀ name i, findCommand? t name i = .ok (Offset.findCommand? t name i)) ∧
    (∀ i, skipArgumentSpace t i = .ok (Offset.skipArgumentSpace t i)) ∧
    (∀ i, groupEnd? t i = .ok (Offset.groupEnd? t i)) ∧
    (∀ i, readArgument? t i = .ok (Offset.readArgument? t i)) ∧
    (∀ i, skipGroups t i = .ok (Offset.skipGroups t i)) ∧
    (∀ delimiter i, findUnescaped? t delimiter i = .ok (Offset.findUnescaped? t delimiter i)) ∧
    (∀ i, nextMarker? t i = .ok (Offset.nextMarker? t i)) ∧
    (∀ name i, matchingEnd? t name i = .ok (Offset.matchingEnd? t name i)) ∧
    parseInlines t = .ok (CribSheet.parseInlines t) ∧
    (∀ seen, parseBlocks t seen = .ok (CribSheet.parseBlocks t seen)) ∧
    ∀ seen, display ⟨t⟩ seen = .ok (Document.displayFrom ⟨t⟩ seen) :=
  ⟨fun _ _ _ => between_of_cut, findCommand?_eq t, skipArgumentSpace_eq t, groupEnd?_eq t, readArgument?_eq t,
    skipGroups_eq t, findUnescaped?_eq t, nextMarker?_eq t, matchingEnd?_eq t, parseInlines_eq t, parseBlocks_eq t,
    display_eq ⟨t⟩⟩

end CribSheet.Checked
