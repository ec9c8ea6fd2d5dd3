/-
The body of a list, cut at its items.

An item starts at an `\item` that stands outside every environment of the body; one inside belongs to
a nested list and is left to it.  An environment that is opened and never closed hides only its
opening marker.

Main definitions:

* `CribSheet.ItemMark.next?` — the next item outside of environments;
* `CribSheet.items` — what stands before the first item, and the text of each item.

Main results:

* `CribSheet.ItemMark.text_next?` — finding an item splits the text and loses nothing;
* `CribSheet.length_items_fst_le`, `CribSheet.length_lt_of_mem_items` — every part is at most as long
  as the body.
-/
import CribSheet.Display.Piece

set_option relaxedAutoImplicit false
set_option autoImplicit false

namespace CribSheet

open CribSheet.Markup

/-! ### Opening markers -/

/-- The next marker that opens an environment. -/
def nextOpening? (t : Text) : Option Marker :=
  match h : Marker.next? false t with
  | none => none
  | some marker =>
    have : marker.after.length < t.length := Marker.length_after_next? h
    if marker.kind = .opens then some marker
    else (nextOpening? marker.after).map (Marker.behind (marker.before ++ marker.source))
termination_by t.length

theorem text_nextOpening? {t : Text} {m : Marker} (h : nextOpening? t = some m) : m.text = t := by
  fun_induction nextOpening? t generalizing m with
  | case1 => simp at h
  | case2 t marker hm _ _ =>
    obtain rfl := Option.some.inj h
    exact Marker.text_next? hm
  | case3 t marker hm _ _ ih =>
    obtain ⟨m', hm', rfl⟩ := Option.map_eq_some_iff.1 h
    rw [Marker.text_behind, ih hm']
    exact Marker.text_next? hm

theorem length_after_nextOpening? {t : Text} {m : Marker} (h : nextOpening? t = some m) :
    m.after.length < t.length := by
  fun_induction nextOpening? t generalizing m with
  | case1 => simp at h
  | case2 t marker hm hlt _ =>
    obtain rfl := Option.some.inj h
    exact hlt
  | case3 t marker hm hlt _ ih =>
    obtain ⟨m', hm', rfl⟩ := Option.map_eq_some_iff.1 h
    have := ih hm'
    simp only [Marker.after_behind]
    omega

/-- The environment that an opening marker starts, as it is written, and what follows it; only the
marker itself, when the environment is not closed. -/
def regionOf (m : Marker) : Text × Text :=
  match Closing.find? m.name 0 false m.after with
  | some c => (m.source ++ c.content ++ c.source, c.after)
  | none => (m.source, m.after)

theorem regionOf_append (m : Marker) :
    (regionOf m).1 ++ (regionOf m).2 = m.source ++ m.after := by
  unfold regionOf
  split
  · next c hc =>
    conv => rhs; rw [← Closing.text_find? hc]
    simp [Closing.text]
  · rfl

theorem length_regionOf_le (m : Marker) :
    (regionOf m).2.length ≤ m.after.length := by
  unfold regionOf
  split
  · next c hc =>
    rw [← Closing.text_find? hc]
    simp only [Closing.text, List.length_append]
    omega
  · exact Nat.le_refl _

/-! ### Items -/

/-- The start of an item in the body of a list. -/
structure ItemMark where
  /-- What was read before the command. -/
  before : Text
  /-- The command with its label. -/
  source : Text
  /-- What follows the label. -/
  after : Text
deriving Repr, DecidableEq

namespace ItemMark

/-- The text that the mark splits. -/
def text (m : ItemMark) : Text := m.before ++ m.source ++ m.after

/-- The same mark in a text with `t` in front. -/
def behind (t : Text) (m : ItemMark) : ItemMark := { m with before := t ++ m.before }

@[simp] theorem text_behind (t : Text) (m : ItemMark) : (m.behind t).text = t ++ m.text := by
  simp [behind, text]

@[simp] theorem after_behind (t : Text) (m : ItemMark) : (m.behind t).after = m.after := rfl

/-- The mark of an item command: the command takes its label along. -/
def ofSighting (command : Sighting) : ItemMark :=
  ⟨command.before, command.source ++ (itemLabel command.after).1, (itemLabel command.after).2⟩

theorem text_ofSighting (command : Sighting) : (ofSighting command).text = command.text := by
  conv => rhs; rw [Sighting.text, ← itemLabel_append command.after]
  simp [ofSighting, text]

/-- The opening marker ends before the command starts. -/
def opensBefore (marker : Marker) (command : Sighting) : Bool :=
  marker.before.length + marker.source.length ≤ command.before.length

/-- **The next item** that does not stand in an environment. -/
def next? (t : Text) : Option ItemMark :=
  match Sighting.find? [itemName] false t with
  | none => none
  | some command =>
    match h : nextOpening? t with
    | none => some (ofSighting command)
    | some marker =>
      have : (regionOf marker).2.length < t.length :=
        Nat.lt_of_le_of_lt (length_regionOf_le marker) (length_after_nextOpening? h)
      if opensBefore marker command then
        (next? (regionOf marker).2).map (behind (marker.before ++ (regionOf marker).1))
      else some (ofSighting command)
termination_by t.length

theorem text_next? {t : Text} {m : ItemMark} (h : next? t = some m) : m.text = t := by
  fun_induction next? t generalizing m with
  | case1 => simp at h
  | case2 t command hc _ =>
    obtain rfl := Option.some.inj h
    rw [text_ofSighting, Sighting.text_find? hc]
  | case3 t command hc marker hm _ _ ih =>
    obtain ⟨m', hm', rfl⟩ := Option.map_eq_some_iff.1 h
    rw [text_behind, ih hm', List.append_assoc, regionOf_append, ← List.append_assoc]
    exact text_nextOpening? hm
  | case4 t command hc marker hm _ _ =>
    obtain rfl := Option.some.inj h
    rw [text_ofSighting, Sighting.text_find? hc]

theorem source_next?_ne_nil {t : Text} {m : ItemMark} (h : next? t = some m) : m.source ≠ [] := by
  fun_induction next? t generalizing m with
  | case1 => simp at h
  | case2 | case4 =>
    obtain rfl := Option.some.inj h
    simp [ofSighting, Sighting.source]
  | case3 t command hc marker hm _ _ ih =>
    obtain ⟨m', hm', rfl⟩ := Option.map_eq_some_iff.1 h
    have := ih hm'
    exact this

theorem length_before_add_after_next? {t : Text} {m : ItemMark} (h : next? t = some m) :
    m.before.length + m.after.length < t.length := by
  have := List.length_pos_iff.2 (source_next?_ne_nil h)
  rw [← text_next? h]
  simp only [text, List.length_append]
  omega

end ItemMark

/-- **The items of a list body:** what stands before the first one, and the text of each. -/
def items (t : Text) : Text × List Text :=
  match h : ItemMark.next? t with
  | none => (t, [])
  | some mark =>
    have : mark.after.length < t.length := by
      have := ItemMark.length_before_add_after_next? h
      omega
    (mark.before, (items mark.after).1 :: (items mark.after).2)
termination_by t.length

theorem length_items_fst_le (t : Text) : (items t).1.length ≤ t.length := by
  rw [items]
  split
  · exact Nat.le_refl _
  · next mark h =>
    have := ItemMark.length_before_add_after_next? h
    simp only
    omega

theorem length_lt_of_mem_items {t item : Text} (h : item ∈ (items t).2) : item.length < t.length := by
  fun_induction items t with
  | case1 => simp at h
  | case2 t mark hm hlt ih =>
    rcases List.mem_cons.1 h with rfl | h
    · exact Nat.lt_of_le_of_lt (length_items_fst_le _) hlt
    · exact Nat.lt_trans (ih h) hlt

end CribSheet
