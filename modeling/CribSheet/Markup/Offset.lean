/-
The scanners by byte offset.

The scanners of this library split texts.  Here the same questions are asked and answered by offsets
into the UTF-8 form of one text, as an editor or another program would ask them.  An offset is taken
apart into what lies behind it and what lies ahead; an answer is measured with `Text.size`.

An offset inside a character or past the end is legal.  Searches for markup find nothing there and
skips stay where they are; a search for a delimiter goes on from the next character.

Main definitions:

* `CribSheet.Text.splitAt?` — the two parts of a text at an offset;
* `CribSheet.Markup.CommandSpan`, `CribSheet.Markup.MarkerSpan`, `CribSheet.Markup.EnvironmentSpan` —
  answers by offset;
* the functions in the namespace `CribSheet.Markup.Offset`, one for each scanner.
-/
import CribSheet.Text.Cut
import CribSheet.Markup.Environment

set_option relaxedAutoImplicit false
set_option autoImplicit false

namespace CribSheet

namespace Text

/-- What lies behind and ahead of a byte offset, when it is at a character's border. -/
def splitAt? (offset : Nat) : Text → Option (Text × Text)
  | [] => if offset = 0 then some ([], []) else none
  | c :: t =>
    if offset = 0 then some ([], c :: t)
    else if offset < c.utf8Size then none
    else (splitAt? (offset - c.utf8Size) t).map fun (behind, ahead) => (c :: behind, ahead)

theorem splitAt?_eq_append {offset : Nat} {t behind ahead : Text}
    (h : splitAt? offset t = some (behind, ahead)) : t = behind ++ ahead ∧ size behind = offset := by
  induction t generalizing offset behind with
  | nil =>
    rw [splitAt?] at h
    split at h
    · next h0 =>
      obtain ⟨rfl, rfl⟩ := Prod.mk.inj (Option.some.inj h)
      exact ⟨rfl, h0.symm⟩
    · simp at h
  | cons c t ih =>
    rw [splitAt?] at h
    split at h
    · next h0 =>
      obtain ⟨rfl, rfl⟩ := Prod.mk.inj (Option.some.inj h)
      exact ⟨rfl, h0.symm⟩
    · split at h
      · simp at h
      · obtain ⟨⟨b, a⟩, hb, hba⟩ := Option.map_eq_some_iff.1 h
        obtain ⟨rfl, rfl⟩ := Prod.mk.inj hba
        obtain ⟨ht, hs⟩ := ih hb
        refine ⟨by rw [ht]; rfl, ?_⟩
        rw [size_cons, hs]
        omega

/-- What lies ahead of the first character's border at or after a byte offset, and that border. -/
def aheadOf (offset : Nat) : Text → Nat × Text
  | [] => (0, [])
  | c :: t =>
    if offset = 0 then (0, c :: t)
    else
      let (border, ahead) := aheadOf (offset - c.utf8Size) t
      (c.utf8Size + border, ahead)

end Text

namespace Markup

/-! ### Answers -/

/-- Where a command stands: from its backslash to behind its name and star. -/
structure CommandSpan where
  /-- Offset of the backslash. -/
  start : Nat
  /-- Offset behind the name and the star. -/
  stop : Nat
  /-- The command has a star. -/
  starred : Bool
deriving Repr, DecidableEq

/-- Where an environment marker stands: from its backslash to behind its argument. -/
structure MarkerSpan where
  /-- Whether it opens or closes. -/
  kind : MarkerKind
  /-- The environment's name, trimmed. -/
  name : Text
  /-- Offset of the backslash. -/
  start : Nat
  /-- Offset behind the argument. -/
  stop : Nat
deriving Repr, DecidableEq

/-- Where a balanced environment stands. -/
structure EnvironmentSpan where
  /-- The environment's name. -/
  name : Text
  /-- Offset of the opening marker. -/
  start : Nat
  /-- Offset behind the opening marker. -/
  contentStart : Nat
  /-- Offset of the closing marker. -/
  contentStop : Nat
  /-- Offset behind the closing marker. -/
  stop : Nat
  /-- What stands between the two markers. -/
  content : Text
deriving Repr, DecidableEq

namespace Offset

/-! ### Commands and delimiters -/

/-- The character at the offset is preceded by an odd number of backslashes. -/
def isEscaped (t : Text) (offset : Nat) : Bool :=
  match t.splitAt? offset with
  | some (behind, _) => escapedAfter false behind
  | none => false

/-- The span of a sighting in a text that starts at `offset`. -/
def commandSpan (offset : Nat) (s : Sighting) : CommandSpan :=
  { start := offset + s.before.size
    stop := offset + s.before.size + s.source.size
    starred := s.starred }

/-- The first command with the name at or after the offset. -/
def findCommand? (t name : Text) (offset : Nat) : Option CommandSpan :=
  match t.splitAt? offset with
  | some (behind, ahead) =>
    (Sighting.find? [name] (escapedAfter false behind) ahead).map (commandSpan offset)
  | none => none

/-- All commands with the name in a text that starts at `offset`. -/
def commandsIn (name : Text) (escaped : Bool) (offset : Nat) (t : Text) : List CommandSpan :=
  match h : Sighting.find? [name] escaped t with
  | none => []
  | some s =>
    have : s.after.length < t.length := Sighting.length_after_find? h
    let span := commandSpan offset s
    span :: commandsIn name (escapedAfter escaped (s.before ++ s.source)) span.stop s.after
termination_by t.length

/-- All commands with the name at or after the offset. -/
def commands (t name : Text) (offset : Nat) : List CommandSpan :=
  match t.splitAt? offset with
  | some (behind, ahead) => commandsIn name (escapedAfter false behind) offset ahead
  | none => []

/-- The offset of the first occurrence of the delimiter, at or after the offset, that is not
escaped. -/
def findUnescaped? (t delimiter : Text) (offset : Nat) : Option Nat :=
  if delimiter = [] then if offset < t.size then some offset else none
  else
    let (border, ahead) := t.aheadOf offset
    (Markup.findUnescaped? delimiter ahead).map fun (inner, _) => border + inner.size

/-! ### Groups -/

/-- The offset behind the space that may stand before an argument. -/
def skipArgumentSpace (t : Text) (offset : Nat) : Nat :=
  match t.splitAt? offset with
  | some (_, ahead) => offset + (argumentSpace ahead).1.size
  | none => offset

/-- The offset behind the group that starts at the offset. -/
def groupEnd? (t : Text) (offset : Nat) : Option Nat :=
  match t.splitAt? offset with
  | some (_, ahead) => (Group.read? ahead).map fun g => offset + g.source.size
  | none => none

/-- The next mandatory argument and the offset behind it. -/
def readArgument? (t : Text) (offset : Nat) : Option (Text × Nat) :=
  match t.splitAt? offset with
  | some (_, ahead) => (Argument.read? ahead).map fun a => (a.inner, offset + a.source.size)
  | none => none

/-- The offset behind all groups that follow directly. -/
def skipGroups (t : Text) (offset : Nat) : Nat :=
  match t.splitAt? offset with
  | some (_, ahead) => offset + (groups ahead).1.size
  | none => offset

/-- The span from `start` to `stop`, grown to whole lines when nothing else stands on them. -/
def wholeLineSpan (t : Text) (start stop : Nat) : Nat × Nat :=
  match t.splitAt? start with
  | none => (start, stop)
  | some (before, ahead) =>
    match ahead.splitAt? (stop - start) with
    | none => (start, stop)
    | some (span, after) =>
      let cut := (Text.Cut.mk before span after).wholeLines true
      (cut.before.size, cut.before.size + cut.span.size)

/-! ### Environments -/

/-- The span of a marker in a text that starts at `offset`. -/
def markerSpan (offset : Nat) (m : Marker) : MarkerSpan :=
  { kind := m.kind
    name := m.name
    start := offset + m.before.size
    stop := offset + m.before.size + m.source.size }

/-- The first environment marker at or after the offset. -/
def nextMarker? (t : Text) (offset : Nat) : Option MarkerSpan :=
  match t.splitAt? offset with
  | some (behind, ahead) =>
    (Marker.next? (escapedAfter false behind) ahead).map (markerSpan offset)
  | none => none

/-- All environment markers in a text that starts at `offset`. -/
def markersIn (escaped : Bool) (offset : Nat) (t : Text) : List MarkerSpan :=
  match h : Marker.next? escaped t with
  | none => []
  | some m =>
    have : m.after.length < t.length := Marker.length_after_next? h
    let span := markerSpan offset m
    span :: markersIn false span.stop m.after
termination_by t.length

/-- All environment markers at or after the offset. -/
def markers (t : Text) (offset : Nat) : List MarkerSpan :=
  match t.splitAt? offset with
  | some (behind, ahead) => markersIn (escapedAfter false behind) offset ahead
  | none => []

/-- The span of the marker that closes the environment whose content starts at the offset. -/
def matchingEnd? (t name : Text) (offset : Nat) : Option (Nat × Nat) :=
  match t.splitAt? offset with
  | some (behind, ahead) =>
    (Closing.find? name 0 (escapedAfter false behind) ahead).map fun c =>
      (offset + c.content.size, offset + c.content.size + c.source.size)
  | none => none

/-- The first environment with one of the names at or after the offset; when it is not closed, the
offset of its opening marker. -/
def nextEnvironment? (t : Text) (names : List Text) (offset : Nat) :
    Option (Except Nat EnvironmentSpan) :=
  match t.splitAt? offset with
  | none => none
  | some (behind, ahead) =>
    match Environment.next? names (escapedAfter false behind) ahead with
    | none => none
    | some (.error before) => some (.error (offset + before.size))
    | some (.ok e) =>
      let start := offset + e.before.size
      let contentStart := start + e.opening.size
      let contentStop := contentStart + e.closing.content.size
      some (.ok
        { name := e.name
          start
          contentStart
          contentStop
          stop := contentStop + e.closing.source.size
          content := e.closing.content })

end Offset

end Markup

end CribSheet
