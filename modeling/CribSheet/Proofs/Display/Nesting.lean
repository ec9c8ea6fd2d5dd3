/-
Nested texts.

A text is nested when its environments lie side by side or inside each other, each closed by the marker of
its own name, and nothing else in it is a marker.  The search for the marker that closes an environment
goes through such a text, whatever environments it holds; the search for the next item does so as well,
when no item stands outside of the environments.

Main definitions:

* `CribSheet.Nested` — nested texts, with or without items outside of their environments.

Main results:

* `CribSheet.Nested.find?_append` — the search for a closing marker goes through a nested text;
* `CribSheet.Nested.next?_append` — the search for an item goes through a nested text without items;
* `CribSheet.items_writeItems` — a written list is cut at its own items.
-/
import CribSheet.Display.Item
import CribSheet.Proofs.Display.Running

set_option relaxedAutoImplicit false
set_option autoImplicit false

namespace CribSheet

open CribSheet.Markup
open CribSheet.Identity (Plain)

/-! ### Markers behind quiet text -/

namespace Markup

namespace Marker

theorem next?_eq_none {escaped : Bool} {t : Text}
    (h : Sighting.find? [beginName, endName] escaped t = none) : next? escaped t = none := by
  rw [next?]
  split
  · rfl
  · next h' => simp [h] at h'

/-- A command with an argument is a marker. -/
theorem next?_of_argument {escaped : Bool} {t : Text} {command : Sighting} {argument : Argument}
    (hc : Sighting.find? [beginName, endName] escaped t = some command)
    (ha : Argument.read? command.after = some argument) :
    next? escaped t = some
      { kind := if command.name = beginName then .opens else .closes
        name := argument.inner.trim
        before := command.before
        source := command.source ++ argument.source
        after := argument.after } := by
  rw [next?]
  split
  · next h' => simp [hc] at h'
  · next h' =>
    obtain rfl := Option.some.inj (hc.symm.trans h')
    split
    · next ha' =>
      obtain rfl := Option.some.inj (ha.symm.trans ha')
      rfl
    · next ha' => simp [ha] at ha'

/-- A command without an argument is passed over. -/
theorem next?_of_no_argument {escaped : Bool} {t : Text} {command : Sighting}
    (hc : Sighting.find? [beginName, endName] escaped t = some command)
    (ha : Argument.read? command.after = none) :
    next? escaped t = (next? false command.after).map (behind (command.before ++ command.source)) := by
  rw [next?]
  split
  · next h' => simp [hc] at h'
  · next h' =>
    obtain rfl := Option.some.inj (hc.symm.trans h')
    split
    · next ha' => simp [ha] at ha'
    · rfl

/-- The next marker of `t` is the next one of `a ++ t`, when the first command that can start one is. -/
theorem next?_of_find?_within {escaped : Bool} {a t : Text}
    (h : Sighting.find? [beginName, endName] escaped (a ++ t) =
      (Sighting.find? [beginName, endName] false t).map (Sighting.within a [])) :
    next? escaped (a ++ t) = (next? false t).map (behind a) := by
  cases hc : Sighting.find? [beginName, endName] false t with
  | none =>
    rw [hc, Option.map_none] at h
    rw [next?_eq_none h, next?_eq_none hc, Option.map_none]
  | some command =>
    rw [hc, Option.map_some] at h
    have hafter : (command.within a []).after = command.after := by simp [Sighting.within]
    cases harg : Argument.read? command.after with
    | some argument =>
      rw [next?_of_argument h (hafter ▸ harg), next?_of_argument hc harg, Option.map_some]
      rfl
    | none =>
      rw [next?_of_no_argument h (hafter ▸ harg), next?_of_no_argument hc harg, Option.map_map,
        hafter]
      congr 1
      funext m
      simp [behind, Sighting.within, Sighting.source]

/-- The next marker behind a quiet text. -/
theorem next?_quiet_append {a : Text} (ha : Quiet [beginName, endName] a) (t : Text) :
    next? false (a ++ t) = (next? false t).map (behind a) :=
  next?_of_find?_within (ha t)

/-- An opening marker at the start of a text. -/
theorem next?_begin {name : Text} (hname : Plain name) (t : Text) :
    next? false (command beginName name ++ t) =
      some ⟨.opens, name.trim, [], command beginName name, t⟩ := by
  have hc : Sighting.find? [beginName, endName] false (command beginName name ++ t) =
      some ⟨[], beginName, false, '{' :: (name ++ '}' :: t)⟩ := by
    rw [command_append]
    rfl
  rw [next?_of_argument hc (argument_read?_plain hname t)]
  simp [command, Sighting.source, Argument.source]

/-- A closing marker at the start of a text. -/
theorem next?_end {name : Text} (hname : Plain name) (t : Text) :
    next? false (command endName name ++ t) =
      some ⟨.closes, name.trim, [], command endName name, t⟩ := by
  have hc : Sighting.find? [beginName, endName] false (command endName name ++ t) =
      some ⟨[], endName, false, '{' :: (name ++ '}' :: t)⟩ := by
    rw [command_append]
    rfl
  have hne : endName ≠ beginName := by decide
  rw [next?_of_argument hc (argument_read?_plain hname t)]
  simp [command, Sighting.source, Argument.source, hne]

end Marker

namespace Closing

variable {name t : Text} {depth : Nat} {marker : Marker}

theorem find?_eq_none (h : Marker.next? false t = none) : find? name depth false t = none := by
  rw [find?]
  split
  · rfl
  · next h' => simp [h] at h'

/-- One step of the search: what it makes of the next marker. -/
theorem find?_of_next? (h : Marker.next? false t = some marker) :
    find? name depth false t =
      if marker.name = name then
        match marker.kind, depth with
        | .opens, _ =>
          (find? name (depth + 1) false marker.after).map (behind (marker.before ++ marker.source))
        | .closes, 0 => some ⟨marker.before, marker.source, marker.after⟩
        | .closes, depth + 1 =>
          (find? name depth false marker.after).map (behind (marker.before ++ marker.source))
      else (find? name depth false marker.after).map (behind (marker.before ++ marker.source)) := by
  rw [find?.eq_def]
  split
  · next h' => simp [h] at h'
  · next h' =>
    obtain rfl := Option.some.inj (h.symm.trans h')
    rfl

/-- The search goes on behind a marker of another environment. -/
theorem find?_of_other (h : Marker.next? false t = some marker) (hname : marker.name ≠ name) :
    find? name depth false t =
      (find? name depth false marker.after).map (behind (marker.before ++ marker.source)) := by
  rw [find?_of_next? h, if_neg hname]

/-- An inner environment of the same name is opened. -/
theorem find?_of_opens (h : Marker.next? false t = some marker) (hname : marker.name = name)
    (hkind : marker.kind = .opens) :
    find? name depth false t =
      (find? name (depth + 1) false marker.after).map (behind (marker.before ++ marker.source)) := by
  rw [find?_of_next? h, if_pos hname, hkind]

/-- An inner environment of the same name is closed. -/
theorem find?_of_closes_succ (h : Marker.next? false t = some marker) (hname : marker.name = name)
    (hkind : marker.kind = .closes) :
    find? name (depth + 1) false t =
      (find? name depth false marker.after).map (behind (marker.before ++ marker.source)) := by
  rw [find?_of_next? h, if_pos hname, hkind]

/-- The environment itself is closed. -/
theorem find?_of_closes_zero (h : Marker.next? false t = some marker) (hname : marker.name = name)
    (hkind : marker.kind = .closes) :
    find? name 0 false t = some ⟨marker.before, marker.source, marker.after⟩ := by
  rw [find?_of_next? h, if_pos hname, hkind]

theorem behind_behind (a b : Text) (c : Closing) : (c.behind b).behind a = c.behind (a ++ b) := by
  simp [behind]

/-- The search for a closing marker behind a quiet text. -/
theorem find?_quiet_append {a : Text} (ha : Quiet [beginName, endName] a) (name t : Text) (depth : Nat) :
    find? name depth false (a ++ t) = (find? name depth false t).map (behind a) := by
  have happend := Marker.next?_quiet_append ha t
  cases hm : Marker.next? false t with
  | none =>
    rw [hm, Option.map_none] at happend
    rw [find?_eq_none happend, find?_eq_none hm, Option.map_none]
  | some marker =>
    rw [hm, Option.map_some] at happend
    have hbehind : ∀ d, ((find? name d false marker.after).map
        (behind (marker.before ++ marker.source))).map (behind a) =
        (find? name d false (marker.behind a).after).map
          (behind ((marker.behind a).before ++ (marker.behind a).source)) := by
      intro d
      simp [Marker.behind, behind_behind, Function.comp_def]
    by_cases hname : marker.name = name
    · cases hkind : marker.kind with
      | opens => rw [find?_of_opens happend hname hkind, find?_of_opens hm hname hkind, hbehind]
      | closes =>
        cases depth with
        | zero =>
          rw [find?_of_closes_zero happend hname hkind, find?_of_closes_zero hm hname hkind]
          rfl
        | succ depth =>
          rw [find?_of_closes_succ happend hname hkind, find?_of_closes_succ hm hname hkind, hbehind]
    · rw [find?_of_other happend hname, find?_of_other hm hname, hbehind]

end Closing

end Markup

/-! ### Nested texts -/

/-- The name of an environment, as a marker holds it. -/
structure IsName (name : Text) : Prop where
  plain : Plain name
  trim_eq : name.trim = name

/-- **Nested texts.**  `items` says whether items may stand outside of the environments. -/
inductive Nested : (items : Bool) → Text → Prop
  | nil {items : Bool} : Nested items []
  | quiet {items : Bool} {a w : Text} (hmarkers : Quiet [beginName, endName] a)
      (hitems : Quiet [itemName] a) (h : Nested items w) : Nested items (a ++ w)
  | item {w : Text} (h : Nested true w) : Nested true ('\\' :: (itemName ++ ' ' :: w))
  | enclosed {items : Bool} {name body w : Text} (hname : IsName name) (hbody : Nested true body)
      (h : Nested items w) : Nested items (environment name body ++ w)

theorem environment_append (name body t : Text) :
    environment name body ++ t = command beginName name ++ (body ++ (command endName name ++ t)) := by
  simp [environment]

/-- An item is no marker, whatever follows it. -/
theorem quiet_itemName : Quiet [beginName, endName] ('\\' :: itemName) := by
  intro t
  have hslash : escapes false '\\' = true := rfl
  have hskip : escapes true 'i' = false := by decide
  have hnone : Sighting.atName? [beginName, endName] (itemName ++ t) = none := by
    simp [Sighting.atName?, Text.after?, beginName, endName, itemName]
  have hrest : Sighting.find? [beginName, endName] false (['t', 'e', 'm'] ++ t) = _ :=
    Sighting.find?_plain_append (by decide) t
  have hsplit : itemName ++ t = 'i' :: (['t', 'e', 'm'] ++ t) := rfl
  rw [List.cons_append, Sighting.find?, hslash, if_pos rfl, hnone, hsplit, Sighting.find?, hskip,
    if_neg Bool.false_ne_true, hrest]
  cases Sighting.find? [beginName, endName] false t <;> simp [Sighting.within, Sighting.behind, itemName]

theorem quiet_item : Quiet [beginName, endName] ('\\' :: (itemName ++ [' '])) :=
  quiet_itemName.append (quiet_of_no_backslash (by decide))

/-- **The search for a closing marker goes through a nested text.** -/
theorem Nested.find?_append {items : Bool} {w : Text} (h : Nested items w) (name t : Text) (depth : Nat) :
    Closing.find? name depth false (w ++ t) = (Closing.find? name depth false t).map (Closing.behind w) := by
  induction h generalizing depth t with
  | nil => cases hc : Closing.find? name depth false t <;> simp [Closing.behind, hc]
  | @quiet _ a w hmarkers _ _ ih =>
    rw [List.append_assoc, Closing.find?_quiet_append hmarkers, ih, Option.map_map]
    simp [Closing.behind_behind, Function.comp_def]
  | @item w _ ih =>
    have hsplit : '\\' :: (itemName ++ ' ' :: w) = '\\' :: (itemName ++ [' ']) ++ w := rfl
    rw [hsplit, List.append_assoc, Closing.find?_quiet_append quiet_item, ih, Option.map_map]
    simp [Closing.behind_behind, Function.comp_def]
  | @enclosed _ name' body w hname _ _ ihbody ih =>
    have hopen := Marker.next?_begin hname.plain (body ++ (command endName name' ++ (w ++ t)))
    have hclose := Marker.next?_end hname.plain (w ++ t)
    rw [List.append_assoc, environment_append]
    by_cases heq : name' = name
    · have htrim : name'.trim = name := hname.trim_eq.trans heq
      rw [Closing.find?_of_opens hopen htrim rfl, ihbody, Closing.find?_of_closes_succ hclose htrim rfl, ih]
      simp [Closing.behind_behind, Function.comp_def, environment]
    · have htrim : name'.trim ≠ name := hname.trim_eq.trans_ne heq
      rw [Closing.find?_of_other hopen htrim, ihbody, Closing.find?_of_other hclose htrim, ih]
      simp [Closing.behind_behind, Function.comp_def, environment]

theorem Nested.append {items : Bool} {w w' : Text} (h : Nested items w) (h' : Nested items w') :
    Nested items (w ++ w') := by
  induction h with
  | nil => exact h'
  | quiet hmarkers hitems _ ih =>
    rw [List.append_assoc]
    exact .quiet hmarkers hitems (ih h')
  | item _ ih =>
    simp only [List.cons_append, List.append_assoc]
    exact .item (ih h')
  | enclosed hname hbody _ _ ih =>
    rw [List.append_assoc]
    exact .enclosed hname hbody (ih h')

theorem Nested.of_quiet {items : Bool} {a : Text} (hmarkers : Quiet [beginName, endName] a)
    (hitems : Quiet [itemName] a) : Nested items a := by
  simpa using Nested.quiet hmarkers hitems .nil

theorem Nested.of_no_backslash {items : Bool} {a : Text} (ha : '\\' ∉ a) : Nested items a :=
  .of_quiet (quiet_of_no_backslash ha) (quiet_of_no_backslash ha)

/-- Where items may stand, none has to. -/
theorem Nested.with_items {items : Bool} {w : Text} (h : Nested items w) : Nested true w := by
  induction h with
  | nil => exact .nil
  | quiet hmarkers hitems _ ih => exact .quiet hmarkers hitems ih
  | item _ ih => exact .item ih
  | enclosed hname hbody _ _ ih => exact .enclosed hname hbody ih

/-! ### Escapes -/

/-- A quiet text leaves no escape open. -/
theorem Quiet.escapedAfter_eq {a : Text} (h : Quiet [itemName] a) : escapedAfter false a = false := by
  have hfind : Sighting.find? [itemName] false ('\\' :: itemName) = some ⟨[], itemName, false, []⟩ := rfl
  have happend := h ('\\' :: itemName)
  rw [hfind, Option.map_some] at happend
  simpa [Sighting.within] using (Sighting.isIn_find? happend).2.fresh

/-- A marker is quiet for a search for items. -/
theorem quiet_marker {name argument : Text} (hname : name = beginName ∨ name = endName)
    (hargument : Plain argument) : Quiet [itemName] (command name argument) := by
  have hcommand : Quiet [itemName] ('\\' :: (name ++ ['{'])) := by
    refine quiet_command (letters_of_directives (.inr rfl)) (endsName_cons.2 (by decide)) (by decide) ?_ ?_
    · rcases hname with rfl | rfl <;> decide
    · rcases hname with rfl | rfl <;> decide
  have hslash : '\\' ∉ argument ++ ['}'] := by simpa using hargument.slash_not_mem
  simpa [command] using hcommand.append (quiet_of_no_backslash hslash)

theorem Nested.escapedAfter_eq {items : Bool} {w : Text} (h : Nested items w) :
    escapedAfter false w = false := by
  induction h with
  | nil => rfl
  | quiet _ hitems _ ih => rw [escapedAfter_append, hitems.escapedAfter_eq, ih]
  | @item w _ ih =>
    have hitem : escapedAfter false ('\\' :: (itemName ++ [' '])) = false := by decide
    have hsplit : '\\' :: (itemName ++ ' ' :: w) = '\\' :: (itemName ++ [' ']) ++ w := rfl
    rw [hsplit, escapedAfter_append, hitem, ih]
  | enclosed hname _ _ ihbody ih =>
    rw [environment_append, escapedAfter_append, (quiet_marker (.inl rfl) hname.plain).escapedAfter_eq,
      escapedAfter_append, ihbody, escapedAfter_append,
      (quiet_marker (.inr rfl) hname.plain).escapedAfter_eq, ih]

/-- No escape is open behind a command that was found. -/
theorem Markup.Sighting.escapedAfter_find? {names : List Text} (hnames : ∀ name ∈ names, name ≠ [] ∧ '\\' ∉ name)
    {escaped : Bool} {t : Text} {s : Sighting} (h : Sighting.find? names escaped t = some s) :
    escapedAfter escaped (s.before ++ s.source) = false := by
  obtain ⟨hname, hin⟩ := Sighting.isIn_find? h
  obtain ⟨hne, hslash⟩ := hnames s.name hname
  obtain ⟨c, name, hcons⟩ := List.exists_cons_of_ne_nil hne
  rw [escapedAfter_append, hin.fresh]
  exact Sighting.escapedAfter_source hcons hslash

/-- No escape is open behind a marker. -/
theorem Markup.Marker.escapedAfter_next? {escaped : Bool} {t : Text} {m : Marker}
    (h : Marker.next? escaped t = some m) : escapedAfter escaped (m.before ++ m.source) = false := by
  have hnames : ∀ name ∈ [beginName, endName], name ≠ [] ∧ '\\' ∉ name := by decide
  fun_induction Marker.next? escaped t generalizing m with
  | case1 => simp at h
  | case2 escaped t command hc argument ha =>
    obtain rfl := Option.some.inj h
    rw [← List.append_assoc, escapedAfter_append, Sighting.escapedAfter_find? hnames hc,
      escapedAfter_source_of_argument ha]
  | case3 escaped t command hc _ _ ih =>
    obtain ⟨m', hm, rfl⟩ := Option.map_eq_some_iff.1 h
    rw [Marker.behind, List.append_assoc, escapedAfter_append, Sighting.escapedAfter_find? hnames hc, ih hm]

/-- No escape is open behind a closing marker. -/
theorem Markup.Closing.escapedAfter_find? {name : Text} {depth : Nat} {escaped : Bool} {t : Text} {c : Closing}
    (h : Closing.find? name depth escaped t = some c) :
    escapedAfter escaped (c.content ++ c.source) = false := by
  fun_induction Closing.find? name depth escaped t generalizing c with
  | case1 => simp at h
  | case3 =>
    obtain rfl := Option.some.inj h
    exact Marker.escapedAfter_next? ‹_›
  | case2 | case4 | case5 =>
    rename_i ih
    obtain ⟨c', hc, rfl⟩ := Option.map_eq_some_iff.1 h
    rw [Closing.behind, List.append_assoc, escapedAfter_append, Marker.escapedAfter_next? ‹_›, ih hc]

/-! ### Opening markers and items -/

theorem nextOpening?_eq_none {t : Text} (h : Marker.next? false t = none) : nextOpening? t = none := by
  rw [nextOpening?]
  split
  · rfl
  · next h' => simp [h] at h'

theorem nextOpening?_of_opens {t : Text} {marker : Marker} (h : Marker.next? false t = some marker)
    (hkind : marker.kind = .opens) : nextOpening? t = some marker := by
  rw [nextOpening?]
  split
  · next h' => simp [h] at h'
  · next h' =>
    obtain rfl := Option.some.inj (h.symm.trans h')
    rw [if_pos hkind]

theorem nextOpening?_of_closes {t : Text} {marker : Marker} (h : Marker.next? false t = some marker)
    (hkind : marker.kind ≠ .opens) :
    nextOpening? t = (nextOpening? marker.after).map (Marker.behind (marker.before ++ marker.source)) := by
  rw [nextOpening?]
  split
  · next h' => simp [h] at h'
  · next h' =>
    obtain rfl := Option.some.inj (h.symm.trans h')
    rw [if_neg hkind]

theorem nextOpening?_quiet_append {a : Text} (ha : Quiet [beginName, endName] a) (t : Text) :
    nextOpening? (a ++ t) = (nextOpening? t).map (Marker.behind a) := by
  have happend := Marker.next?_quiet_append ha t
  cases hm : Marker.next? false t with
  | none =>
    rw [hm, Option.map_none] at happend
    rw [nextOpening?_eq_none happend, nextOpening?_eq_none hm, Option.map_none]
  | some marker =>
    rw [hm, Option.map_some] at happend
    by_cases hkind : marker.kind = .opens
    · rw [nextOpening?_of_opens happend hkind, nextOpening?_of_opens hm hkind, Option.map_some]
    · rw [nextOpening?_of_closes happend hkind, nextOpening?_of_closes hm hkind, Option.map_map]
      have hbehind : ∀ m : Marker, (m.behind (marker.before ++ marker.source)).behind a =
          m.behind ((marker.behind a).before ++ (marker.behind a).source) := by simp [Marker.behind]
      simp only [Function.comp_def, hbehind]
      rfl

namespace ItemMark

variable {t : Text} {command : Sighting} {marker : Marker}

theorem next?_eq_none (h : Sighting.find? [itemName] false t = none) : next? t = none := by
  rw [next?]
  split
  · rfl
  · next h' => simp [h] at h'

theorem next?_of_no_opening (hc : Sighting.find? [itemName] false t = some command)
    (hm : nextOpening? t = none) : next? t = some (ofSighting command) := by
  rw [next?]
  split
  · next h' => simp [hc] at h'
  · next h' =>
    obtain rfl := Option.some.inj (hc.symm.trans h')
    split
    · rfl
    · next hm' => simp [hm] at hm'

theorem next?_of_opening (hc : Sighting.find? [itemName] false t = some command)
    (hm : nextOpening? t = some marker) :
    next? t =
      if opensBefore marker command then
        (next? (regionOf marker).2).map (behind (marker.before ++ (regionOf marker).1))
      else some (ofSighting command) := by
  rw [next?.eq_def]
  split
  · next h' => simp [hc] at h'
  · next h' =>
    obtain rfl := Option.some.inj (hc.symm.trans h')
    split
    · next hm' => simp [hm] at hm'
    · next hm' =>
      obtain rfl := Option.some.inj (hm.symm.trans hm')
      rfl

theorem behind_behind (a b : Text) (m : ItemMark) : (m.behind b).behind a = m.behind (a ++ b) := by
  simp [behind]

/-- The next item behind a text without items that the search for opening markers goes through. -/
theorem next?_append_of_no_items {a : Text} (hitems : Quiet [itemName] a) {t : Text}
    (hopening : nextOpening? (a ++ t) = (nextOpening? t).map (Marker.behind a)) :
    next? (a ++ t) = (next? t).map (behind a) := by
  have happend := hitems t
  cases hc : Sighting.find? [itemName] false t with
  | none =>
    rw [hc, Option.map_none] at happend
    rw [next?_eq_none happend, next?_eq_none hc, Option.map_none]
  | some command =>
    rw [hc, Option.map_some] at happend
    have hmark : ofSighting (command.within a []) = (ofSighting command).behind a := by
      simp [ofSighting, Sighting.within, behind, Sighting.source]
    cases hm : nextOpening? t with
    | none =>
      rw [hm, Option.map_none] at hopening
      rw [next?_of_no_opening happend hopening, next?_of_no_opening hc hm, Option.map_some, hmark]
    | some marker =>
      rw [hm, Option.map_some] at hopening
      have hbefore : opensBefore (marker.behind a) (command.within a []) = opensBefore marker command := by
        simp [opensBefore, Marker.behind, Sighting.within, Nat.add_assoc]
      have hregion : regionOf (marker.behind a) = regionOf marker := rfl
      rw [next?_of_opening happend hopening, next?_of_opening hc hm, hbefore, hregion, hmark]
      split
      · simp [behind_behind, Function.comp_def, Marker.behind]
      · rfl

/-- The next item behind a quiet text. -/
theorem next?_quiet_append {a : Text} (hmarkers : Quiet [beginName, endName] a)
    (hitems : Quiet [itemName] a) (t : Text) : next? (a ++ t) = (next? t).map (behind a) :=
  next?_append_of_no_items hitems (nextOpening?_quiet_append hmarkers t)

end ItemMark

/-- The next item behind a closing marker. -/
theorem ItemMark.next?_end_append {name : Text} (hname : IsName name) (t : Text) :
    next? (command endName name ++ t) = (next? t).map (behind (command endName name)) := by
  refine next?_append_of_no_items (quiet_marker (.inr rfl) hname.plain) ?_
  rw [nextOpening?_of_closes (Marker.next?_end hname.plain t) (by simp)]
  rfl

/-- An item at the start of a text; a star belongs to its command. -/
theorem ItemMark.next?_item {w : Text} (hw : ∀ c ∈ w.head?, Text.isLetter c = false) :
    next? ('\\' :: (itemName ++ w)) =
      some ⟨[], '\\' :: (itemName ++ ((star w).1 ++ (itemLabel (star w).2).1)), (itemLabel (star w).2).2⟩ := by
  have hname : Sighting.atName? [itemName] (itemName ++ w) =
      some ⟨[], itemName, (star w).1 == ['*'], (star w).2⟩ := by
    have hafter : Text.after? itemName (itemName ++ w) = some w := by
      simp [Text.after?, itemName]
    rw [Sighting.atName?, hafter]
    cases w with
    | nil => rfl
    | cons c w =>
      have hc := hw c rfl
      by_cases hstar : c = '*'
      · subst hstar
        rfl
      · have hnone : star (c :: w) = ([], c :: w) := by
          unfold star
          split
          · next h => exact absurd (List.cons.inj h).1 hstar
          · rfl
        simp [hc, hstar, hnone]
  have hc : Sighting.find? [itemName] false ('\\' :: (itemName ++ w)) =
      some ⟨[], itemName, (star w).1 == ['*'], (star w).2⟩ := by
    have hslash : escapes false '\\' = true := rfl
    rw [Sighting.find?, hslash, if_pos rfl, hname]
  have hmark : ofSighting ⟨[], itemName, (star w).1 == ['*'], (star w).2⟩ =
      ⟨[], '\\' :: (itemName ++ ((star w).1 ++ (itemLabel (star w).2).1)), (itemLabel (star w).2).2⟩ := by
    have hstar : (if (star w).1 = ['*'] then ['*'] else []) = (star w).1 := by
      unfold star
      split <;> rfl
    simp [ofSighting, Sighting.source, hstar]
  -- Whatever environment is opened, its marker stands behind the command of the item.
  have hopening : nextOpening? ('\\' :: itemName ++ w) = _ := nextOpening?_quiet_append quiet_itemName w
  cases hm : nextOpening? w with
  | none =>
    rw [hm, Option.map_none] at hopening
    rw [next?_of_no_opening hc hopening, hmark]
  | some marker =>
    rw [hm, Option.map_some] at hopening
    rw [next?_of_opening hc hopening, if_neg (by simp [opensBefore, Marker.behind]), hmark]

/-- An environment with a nested content is read as a region. -/
theorem regionOf_begin {name body : Text} (hname : IsName name) (hbody : Nested true body) (t : Text) :
    regionOf ⟨.opens, name.trim, [], command beginName name, body ++ (command endName name ++ t)⟩ =
      (environment name body, t) := by
  have hclose := Closing.find?_of_closes_zero (Marker.next?_end hname.plain t) hname.trim_eq rfl
  have hfind := hbody.find?_append name (command endName name ++ t) 0
  rw [hclose, Option.map_some] at hfind
  simp only [regionOf, hname.trim_eq, hfind]
  simp [Closing.behind, environment]

/-- No escape is open behind a region. -/
theorem escapedAfter_regionOf {name : Text} (hname : Plain name) (t : Text) :
    escapedAfter false (regionOf ⟨.opens, name.trim, [], command beginName name, t⟩).1 = false := by
  have hcommand : escapedAfter false (command beginName name) = false :=
    (quiet_marker (.inl rfl) hname).escapedAfter_eq
  unfold regionOf
  split
  · next c hc =>
    rw [List.append_assoc, escapedAfter_append, hcommand, Closing.escapedAfter_find? hc]
  · exact hcommand

/-- The next item behind an opening marker: the region is passed over. -/
theorem ItemMark.next?_begin_append {name : Text} (hname : Plain name) {t u region : Text}
    (hregion : regionOf ⟨.opens, name.trim, [], command beginName name, t⟩ = (region, u)) :
    next? (command beginName name ++ t) = (next? u).map (behind region) := by
  have hopening := nextOpening?_of_opens (Marker.next?_begin hname t) rfl
  have htext := regionOf_append ⟨.opens, name.trim, [], command beginName name, t⟩
  have hfresh := escapedAfter_regionOf hname t
  rw [hregion] at htext hfresh
  cases hc : Sighting.find? [itemName] false (command beginName name ++ t) with
  | none =>
    -- An item behind the region would be found in the whole text as well.
    have hrest : Sighting.find? [itemName] false u = none := by
      refine Sighting.find?_eq_none_iff.2 fun s hs hin => ?_
      have hin : s.IsIn (escapedAfter false region) u := by rwa [hfresh]
      have hwithin := hin.within
      rw [htext] at hwithin
      exact Sighting.find?_eq_none_iff.1 hc (s.within region []) hs hwithin
    rw [next?_eq_none hc, next?_eq_none hrest, Option.map_none]
  | some found =>
    have hquiet : Quiet [itemName] (command beginName name) := quiet_marker (.inl rfl) hname
    have hquiet := hquiet t
    rw [hc] at hquiet
    obtain ⟨s, -, rfl⟩ := Option.map_eq_some_iff.1 hquiet.symm
    rw [next?_of_opening hc hopening, if_pos (by simp [opensBefore, Sighting.within]), hregion]
    rfl

/-- The next item behind an environment. -/
theorem ItemMark.next?_environment_append {name body : Text} (hname : IsName name)
    (hbody : Nested true body) (t : Text) :
    next? (environment name body ++ t) = (next? t).map (behind (environment name body)) := by
  rw [environment_append]
  exact next?_begin_append hname.plain (regionOf_begin hname hbody t)

/-- **The search for an item goes through a nested text without items** outside of its environments. -/
theorem Nested.next?_append {w : Text} (h : Nested false w) (t : Text) :
    ItemMark.next? (w ++ t) = (ItemMark.next? t).map (ItemMark.behind w) := by
  generalize hitems : false = items at h
  induction h with
  | nil => cases hm : ItemMark.next? t <;> simp [ItemMark.behind, hm]
  | quiet hmarkers hquiet _ ih =>
    rw [List.append_assoc, ItemMark.next?_quiet_append hmarkers hquiet, ih hitems, Option.map_map]
    simp [ItemMark.behind_behind, Function.comp_def]
  | item => exact absurd hitems Bool.false_ne_true
  | enclosed hname hbody _ _ ih =>
    rw [List.append_assoc, ItemMark.next?_environment_append hname hbody, ih hitems, Option.map_map]
    simp [ItemMark.behind_behind, Function.comp_def]

end CribSheet
