/-
Environments: `\begin{name}` and `\end{name}` and what stands between them.

A marker is one of the two commands with its name argument; a command without a balanced argument is
passed over.  Environments of one name nest, so the marker that closes one is found by counting the
markers of its name and ignoring all others.

Main definitions:

* `CribSheet.Markup.Marker.next?` — the next marker;
* `CribSheet.Markup.Closing.find?` — the marker that closes an environment, and its content;
* `CribSheet.Markup.Environment.next?` — the next environment with one of some names.

Main results:

* `CribSheet.Markup.Marker.text_next?`, `CribSheet.Markup.Closing.text_find?` — finding splits the
  text and loses nothing.
-/
import CribSheet.Markup.Group

set_option relaxedAutoImplicit false
set_option autoImplicit false

namespace CribSheet.Markup

/-- The name of the command that opens an environment. -/
def beginName : Text := ['b', 'e', 'g', 'i', 'n']

/-- The name of the command that closes an environment. -/
def endName : Text := ['e', 'n', 'd']

/-! ### Markers -/

/-- What a marker does to its environment. -/
inductive MarkerKind
  | opens
  | closes
deriving Repr, DecidableEq

/-- An environment marker in a text. -/
structure Marker where
  /-- Whether it opens or closes. -/
  kind : MarkerKind
  /-- The environment's name, trimmed. -/
  name : Text
  /-- What was read before the marker. -/
  before : Text
  /-- The marker as it is written. -/
  source : Text
  /-- What follows the marker. -/
  after : Text
deriving Repr, DecidableEq

namespace Marker

/-- The text that the marker splits. -/
def text (m : Marker) : Text := m.before ++ m.source ++ m.after

/-- The same marker in a text with `t` in front. -/
def behind (t : Text) (m : Marker) : Marker := { m with before := t ++ m.before }

@[simp] theorem text_behind (t : Text) (m : Marker) : (m.behind t).text = t ++ m.text := by
  simp [behind, text]

@[simp] theorem after_behind (t : Text) (m : Marker) : (m.behind t).after = m.after := rfl

/-- The next marker. -/
def next? (escaped : Bool) (t : Text) : Option Marker :=
  match h : Sighting.find? [beginName, endName] escaped t with
  | none => none
  | some command =>
    match Argument.read? command.after with
    | some argument =>
      some
        { kind := if command.name = beginName then .opens else .closes
          name := argument.inner.trim
          before := command.before
          source := command.source ++ argument.source
          after := argument.after }
    | none =>
      have : command.after.length < t.length := Sighting.length_after_find? h
      (next? false command.after).map (behind (command.before ++ command.source))
termination_by t.length

theorem text_next? {escaped : Bool} {t : Text} {m : Marker} (h : next? escaped t = some m) :
    m.text = t := by
  fun_induction next? escaped t generalizing m with
  | case1 => simp at h
  | case2 escaped t command hc argument ha =>
    obtain rfl := Option.some.inj h
    conv => rhs; rw [← Sighting.text_find? hc, Sighting.text, ← Argument.text_read? ha]
    simp [text, Argument.text]
  | case3 escaped t command hc _ _ ih =>
    obtain ⟨m', hm, rfl⟩ := Option.map_eq_some_iff.1 h
    conv => rhs; rw [← Sighting.text_find? hc, Sighting.text]
    simp [ih hm]

theorem length_after_next? {escaped : Bool} {t : Text} {m : Marker}
    (h : next? escaped t = some m) : m.after.length < t.length := by
  fun_induction next? escaped t generalizing m with
  | case1 => simp at h
  | case2 escaped t command hc argument ha =>
    obtain rfl := Option.some.inj h
    have := Argument.length_inner_add_after_read? ha
    have := Sighting.length_after_find? hc
    simp only
    omega
  | case3 escaped t command hc _ hlt ih =>
    obtain ⟨m', hm, rfl⟩ := Option.map_eq_some_iff.1 h
    have := ih hm
    simp only [after_behind]
    omega

end Marker

/-! ### Matching -/

/-- The end of an environment whose opening marker was just read. -/
structure Closing where
  /-- The content of the environment. -/
  content : Text
  /-- The closing marker as it is written. -/
  source : Text
  /-- What follows the closing marker. -/
  after : Text
deriving Repr, DecidableEq

namespace Closing

/-- The text that starts with the content. -/
def text (c : Closing) : Text := c.content ++ c.source ++ c.after

/-- The same closing of an environment with `t` in front of its content. -/
def behind (t : Text) (c : Closing) : Closing := { c with content := t ++ c.content }

@[simp] theorem text_behind (t : Text) (c : Closing) : (c.behind t).text = t ++ c.text := by
  simp [behind, text]

/-- The marker that closes the environment `name`, while `depth` inner environments of that name are
open. -/
def find? (name : Text) (depth : Nat) (escaped : Bool) (t : Text) : Option Closing :=
  match h : Marker.next? escaped t with
  | none => none
  | some marker =>
    have : marker.after.length < t.length := Marker.length_after_next? h
    let read := marker.before ++ marker.source
    if marker.name = name then
      match marker.kind, depth with
      | .opens, _ => (find? name (depth + 1) false marker.after).map (behind read)
      | .closes, 0 => some ⟨marker.before, marker.source, marker.after⟩
      | .closes, depth + 1 => (find? name depth false marker.after).map (behind read)
    else (find? name depth false marker.after).map (behind read)
termination_by t.length

theorem text_find? {name : Text} {depth : Nat} {escaped : Bool} {t : Text} {c : Closing}
    (h : find? name depth escaped t = some c) : c.text = t := by
  fun_induction find? name depth escaped t generalizing c with
  | case1 => simp at h
  | case3 _ t marker hm =>
    obtain rfl := Option.some.inj h
    exact Marker.text_next? hm
  | case2 | case4 | case5 =>
    rename_i ih
    obtain ⟨c', hc, rfl⟩ := Option.map_eq_some_iff.1 h
    rw [text_behind, ih hc]
    exact Marker.text_next? ‹_›

end Closing

/-! ### Environments -/

/-- A balanced environment in a text. -/
structure Environment where
  /-- What was read before the opening marker. -/
  before : Text
  /-- The environment's name. -/
  name : Text
  /-- The opening marker as it is written. -/
  opening : Text
  /-- The content and the closing marker. -/
  closing : Closing
deriving Repr, DecidableEq

namespace Environment

/-- The text that the environment splits. -/
def text (e : Environment) : Text := e.before ++ e.opening ++ e.closing.text

/-- The next environment with one of the names.  When its closing marker is missing, the answer is the
text before its opening marker. -/
def next? (names : List Text) (escaped : Bool) (t : Text) : Option (Except Text Environment) :=
  match h : Marker.next? escaped t with
  | none => none
  | some marker =>
    have : marker.after.length < t.length := Marker.length_after_next? h
    if marker.kind = .opens ∧ marker.name ∈ names then
      match Closing.find? marker.name 0 false marker.after with
      | some closing => some (.ok ⟨marker.before, marker.name, marker.source, closing⟩)
      | none => some (.error marker.before)
    else
      let read := marker.before ++ marker.source
      match next? names false marker.after with
      | none => none
      | some (.error before) => some (.error (read ++ before))
      | some (.ok environment) => some (.ok { environment with before := read ++ environment.before })
termination_by t.length

end Environment

end CribSheet.Markup
