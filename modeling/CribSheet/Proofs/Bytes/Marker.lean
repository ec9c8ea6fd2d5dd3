/-
Environment markers, byte by byte.

The next marker is the nearer one of the next two commands that can start one, if an argument follows it; otherwise
the search goes on behind the command.  The marker that closes an environment is found by counting.

Main definitions:

* `CribSheet.Checked.nextMarker?` — the next marker;
* `CribSheet.Checked.matchingEnd?` — the marker that closes an environment.

Main results:

* `CribSheet.Checked.nearer_find?` — the first one of two commands is the nearer one of the first of each;
* `CribSheet.Checked.nextMarker?_eq`, `CribSheet.Checked.matchingEnd?_eq` — **the searches run without a fault, and find
  what the searches by offset find**.
-/
import CribSheet.Proofs.Bytes.Command
import CribSheet.Proofs.Bytes.Group
import CribSheet.Proofs.Display.Nesting

set_option relaxedAutoImplicit false
set_option autoImplicit false

namespace CribSheet.Checked

open Text Markup

/-! ### The nearer one of two commands -/

/-- Whichever stands first of two commands. -/
def nearer (opening closing : Option CommandSpan) : Option (MarkerKind × CommandSpan) :=
  match opening, closing with
  | some b, some e => if b.start < e.start then some (.opens, b) else some (.closes, e)
  | none, some e => some (.closes, e)
  | some b, none => some (.opens, b)
  | none, none => none

/-- The kind of marker that a command can start. -/
def kindOf (s : Sighting) : MarkerKind := if s.name = beginName then .opens else .closes

theorem atName?_pair (t : Text) :
    (Sighting.atName? [beginName] t = none ∧
        Sighting.atName? [beginName, endName] t = Sighting.atName? [endName] t) ∨
      (∃ s, Sighting.atName? [beginName] t = some s ∧ Sighting.atName? [beginName, endName] t = some s ∧
        Sighting.atName? [endName] t = none ∧ s.name = beginName ∧ s.before = []) := by
  cases h : Sighting.atName? [beginName] t with
  | none =>
      refine Or.inl ⟨rfl, ?_⟩
      rw [Sighting.atName?] at h ⊢
      split at h
      · rfl
      · simp at h
      · split at h
        · next hc => rw [if_pos hc]
        · split at h <;> simp at h
  | some s =>
      obtain ⟨hname, hbefore, hin⟩ := Sighting.isIn_atName? h
      refine Or.inr ⟨s, rfl, ?_, ?_, List.mem_singleton.1 hname, hbefore⟩
      · rw [Sighting.atName?] at h ⊢
        split at h
        · simp [Sighting.atName?] at h
        · exact h
        · split at h
          · simp [Sighting.atName?] at h
          · next hc => rw [if_neg hc]; exact h
      · -- The names start with different letters.
        have ht : t = beginName ++ ((if s.starred then ['*'] else []) ++ s.after) := by
          have htext := hin.text_eq
          rw [Sighting.text, Sighting.source, hbefore, List.mem_singleton.1 hname] at htext
          simpa using htext.symm
        rw [ht]
        rfl

/-- **The first one of two commands** is the nearer one of the first of each. -/
theorem nearer_find? (escaped : Bool) (t : Text) (i : Nat) :
    nearer ((Sighting.find? [beginName] escaped t).map (Offset.commandSpan i))
        ((Sighting.find? [endName] escaped t).map (Offset.commandSpan i)) =
      (Sighting.find? [beginName, endName] escaped t).map fun s => (kindOf s, Offset.commandSpan i s) := by
  induction t generalizing escaped i with
  | nil => rfl
  | cons c t ih =>
      have hpos := Char.utf8Size_pos c
      have hlater : ∀ (names : List Text) (e : Bool),
          ((Sighting.find? names e t).map (Sighting.behind c)).map (Offset.commandSpan i) =
            (Sighting.find? names e t).map (Offset.commandSpan (i + c.utf8Size)) := fun names e => by
        rw [Option.map_map]
        exact congrArg (Option.map · _) (funext (commandSpan_behind i c))
      have hnone : nearer (((Sighting.find? [beginName] (escapes escaped c) t).map (Sighting.behind c)).map
            (Offset.commandSpan i))
          (((Sighting.find? [endName] (escapes escaped c) t).map (Sighting.behind c)).map (Offset.commandSpan i)) =
          ((Sighting.find? [beginName, endName] (escapes escaped c) t).map (Sighting.behind c)).map
            fun s => (kindOf s, Offset.commandSpan i s) := by
        rw [hlater, hlater, ih, Option.map_map]
        congr 1
        funext s
        rw [Function.comp_apply, commandSpan_behind]
        rfl
      rw [Sighting.find?, Sighting.find?, Sighting.find?]
      cases hescapes : escapes escaped c with
      | false =>
          rw [hescapes] at hnone
          exact hnone
      | true =>
          rw [hescapes] at hnone
          simp only [if_true]
          rcases atName?_pair t with ⟨hbegin, hboth⟩ | ⟨s, hbegin, hboth, hend, hname, hbefore⟩
          · rw [hbegin, hboth]
            cases hend : Sighting.atName? [endName] t with
            | none => exact hnone
            | some s =>
                obtain ⟨hname, hbefore, -⟩ := Sighting.isIn_atName? hend
                have hkind : kindOf s = .closes := by rw [kindOf, List.mem_singleton.1 hname]; rfl
                have hstart : (Offset.commandSpan i s).start = i := by rw [Offset.commandSpan, hbefore]; rfl
                simp only [Option.map_some, hlater, hkind]
                cases hfirst : Sighting.find? [beginName] true t with
                | none => rfl
                | some b =>
                    have hb : (Offset.commandSpan (i + c.utf8Size) b).start = i + c.utf8Size + b.before.size := rfl
                    rw [Option.map_some, nearer, if_neg (by omega)]
          · have hkind : kindOf s = .opens := by rw [kindOf, if_pos hname]
            have hstart : (Offset.commandSpan i s).start = i := by rw [Offset.commandSpan, hbefore]; rfl
            rw [hbegin, hboth, hend]
            simp only [Option.map_some, hlater, hkind]
            cases hfirst : Sighting.find? [endName] true t with
            | none => rfl
            | some e =>
                have he : (Offset.commandSpan (i + c.utf8Size) e).start = i + c.utf8Size + e.before.size := rfl
                rw [Option.map_some, nearer, if_pos (by omega)]

/-! ### The next marker -/

/-- One round of the search for a marker. -/
def markerRound (t : Text) (_ : Unit) (i : Nat) : Run (Round Unit (Option MarkerSpan)) := do
  let opening ← findCommand? t beginName i
  let closing ← findCommand? t endName i
  match nearer opening closing with
  | none => .ok (.done none)
  | some (kind, found) =>
    match ← readArgument? t found.stop with
    | some (name, stop) => .ok (.done (some ⟨kind, name.trim, found.start, stop⟩))
    | none => .ok (.next () found.stop)

/-- The next marker at or after a position. -/
def nextMarker? (t : Text) (i : Nat) : Run (Option MarkerSpan) := loop t.size (markerRound t) () i

section Markers

variable {t behind ahead : Text} {i : Nat}

/-- The position behind a command. -/
theorem Stands.behindCommand {s : Sighting} (h : Stands t behind s.text i) :
    Stands t (behind ++ (s.before ++ s.source)) s.after (Offset.commandSpan i s).stop := by
  have hbehind := h.advance
  rwa [size_append, ← Nat.add_assoc] at hbehind

/-- The position behind a command that was found. -/
theorem Stands.afterCommand {names : List Text} {escaped : Bool} {s : Sighting} (h : Stands t behind ahead i)
    (hs : Sighting.find? names escaped ahead = some s) :
    Stands t (behind ++ (s.before ++ s.source)) s.after (Offset.commandSpan i s).stop :=
  Stands.behindCommand (Sighting.text_find? hs ▸ h)

theorem Stands.findCommand? (h : Stands t behind ahead i) (name : Text) :
    Checked.findCommand? t name i =
      .ok ((Sighting.find? [name] (escapedAfter false behind) ahead).map (Offset.commandSpan i)) := by
  rw [findCommand?_eq, Offset.findCommand?, h.splitAt?]

theorem markerRound_eq (h : Stands t behind ahead i) :
    markerRound t () i =
      match Sighting.find? [beginName, endName] (escapedAfter false behind) ahead with
      | none => .ok (.done none)
      | some s =>
        match Argument.read? s.after with
        | some a =>
          .ok (.done (some (Offset.markerSpan i ⟨kindOf s, a.inner.trim, s.before, s.source ++ a.source, a.after⟩)))
        | none => .ok (.next () (Offset.commandSpan i s).stop) := by
  rw [markerRound, h.findCommand?, ok_bind, h.findCommand?, ok_bind, nearer_find?]
  cases hs : Sighting.find? [beginName, endName] (escapedAfter false behind) ahead with
  | none => rfl
  | some s =>
      simp only [Option.map_some]
      rw [(h.afterCommand hs).readArgument?, ok_bind]
      cases Argument.read? s.after with
      | none => rfl
      | some a => simp [Offset.markerSpan, Offset.commandSpan, Nat.add_assoc]

/-- **The search for a marker** finds the next one. -/
theorem loop_markerRound {escaped : Bool} (h : Stands t behind ahead i)
    (hescaped : escapedAfter false behind = escaped) :
    loop t.size (markerRound t) () i = .ok ((Marker.next? escaped ahead).map (Offset.markerSpan i)) := by
  have hnames : ∀ name ∈ [beginName, endName], name ≠ [] ∧ '\\' ∉ name := by decide
  fun_induction Marker.next? escaped ahead generalizing behind i with
  | case1 escaped ahead hs =>
      exact loop_done (by rw [markerRound_eq h, hescaped, hs]; rfl)
  | case2 escaped ahead s hs a ha =>
      refine loop_done ?_
      rw [markerRound_eq h, hescaped, hs]
      simp only [ha]
      rfl
  | case3 escaped ahead s hs ha hlt ih =>
      -- The command has no argument and starts no marker; the search goes on behind it.
      have hround : markerRound t () i = .ok (.next () (Offset.commandSpan i s).stop) := by
        rw [markerRound_eq h, hescaped, hs]
        simp only [ha]
      have hbehind := h.afterCommand hs
      have hfresh : escapedAfter false (behind ++ (s.before ++ s.source)) = false := by
        rw [escapedAfter_append, hescaped, Sighting.escapedAfter_find? hnames hs]
      have hsize := hbehind.size_text
      have hstop : (Offset.commandSpan i s).stop = i + s.before.size + s.source.size := rfl
      have hpos : 0 < s.source.size := size_pos_of_ne_nil (by simp [Sighting.source])
      rw [loop_next hround (by omega) (by omega), ih hbehind hfresh, Option.map_map]
      congr 2
      funext m
      simp [Offset.markerSpan, Offset.commandSpan, Marker.behind, Nat.add_assoc]

theorem Stands.nextMarker? (h : Stands t behind ahead i) :
    Checked.nextMarker? t i = .ok ((Marker.next? (escapedAfter false behind) ahead).map (Offset.markerSpan i)) :=
  loop_markerRound h rfl

/-- **The search for a marker runs without a fault**, wherever it starts. -/
theorem nextMarker?_eq (t : Text) (i : Nat) : nextMarker? t i = .ok (Offset.nextMarker? t i) := by
  rw [Offset.nextMarker?]
  cases h : t.splitAt? i with
  | some parts => exact (stands_of_splitAt? h).nextMarker?
  | none =>
      have hcommand : ∀ name, Offset.findCommand? t name i = none := fun name => by rw [Offset.findCommand?, h]
      refine loop_done ?_
      rw [markerRound, findCommand?_eq, ok_bind, findCommand?_eq, ok_bind, hcommand, hcommand]
      rfl

end Markers

/-! ### The marker that closes an environment -/

/-- One round of the search for the marker that closes an environment, while so many of its name are open. -/
def closingRound (t name : Text) (depth : Nat) (i : Nat) : Run (Round Nat (Option (Nat × Nat))) := do
  match ← nextMarker? t i with
  | none => .ok (.done none)
  | some marker =>
    if marker.name = name then
      match marker.kind with
      | .opens => .ok (.next (depth + 1) marker.stop)
      | .closes =>
        let depth ← pred depth
        if depth = 0 then .ok (.done (some (marker.start, marker.stop))) else .ok (.next depth marker.stop)
    else .ok (.next depth marker.stop)

/-- The marker that closes the environment whose content starts at a position. -/
def matchingEnd? (t name : Text) (i : Nat) : Run (Option (Nat × Nat)) := loop t.size (closingRound t name) 1 i

section Closings

variable {t name behind ahead : Text} {i : Nat}

/-- The position behind a marker that was found. -/
theorem Stands.afterMarker {escaped : Bool} {m : Marker} (h : Stands t behind ahead i)
    (hm : Marker.next? escaped ahead = some m) :
    Stands t (behind ++ (m.before ++ m.source)) m.after (Offset.markerSpan i m).stop := by
  have hbehind : Stands t (behind ++ (m.before ++ m.source)) m.after (i + size (m.before ++ m.source)) := by
    refine Stands.advance ?_
    rwa [← Marker.text, Marker.text_next? hm]
  rwa [size_append, ← Nat.add_assoc] at hbehind

theorem size_pos_of_next? {escaped : Bool} {m : Marker} (hm : Marker.next? escaped ahead = some m) :
    0 < size (m.before ++ m.source) := by
  have hlt := Marker.length_after_next? hm
  rw [← Marker.text_next? hm, Marker.text] at hlt
  exact size_pos_of_length_lt hlt

theorem closingRound_eq (h : Stands t behind ahead i) (depth : Nat) :
    closingRound t name depth i =
      match Marker.next? (escapedAfter false behind) ahead with
      | none => .ok (.done none)
      | some m =>
        if m.name = name then
          match m.kind with
          | .opens => .ok (.next (depth + 1) (Offset.markerSpan i m).stop)
          | .closes => do
            let depth ← pred depth
            if depth = 0 then .ok (.done (some ((Offset.markerSpan i m).start, (Offset.markerSpan i m).stop)))
            else .ok (.next depth (Offset.markerSpan i m).stop)
        else .ok (.next depth (Offset.markerSpan i m).stop) := by
  rw [closingRound, h.nextMarker?, ok_bind]
  cases Marker.next? (escapedAfter false behind) ahead <;> rfl

/-- Where an environment closes whose content starts at a position. -/
def closingSpan (i : Nat) (c : Closing) : Nat × Nat := (i + c.content.size, i + c.content.size + c.source.size)

theorem closingSpan_behind (i : Nat) (u : Text) (c : Closing) :
    closingSpan i (c.behind u) = closingSpan (i + u.size) c := by
  simp [closingSpan, Closing.behind, Nat.add_assoc]

/-- The search goes on behind a marker. -/
theorem loop_behind_marker {escaped : Bool} {m : Marker} {depth depth' : Nat} {found : Option Closing}
    (h : Stands t behind ahead i) (hm : Marker.next? escaped ahead = some m)
    (hround : closingRound t name depth i = .ok (.next depth' (Offset.markerSpan i m).stop))
    (hfound : loop t.size (closingRound t name) depth' (Offset.markerSpan i m).stop =
      .ok (found.map (closingSpan (Offset.markerSpan i m).stop))) :
    loop t.size (closingRound t name) depth i =
      .ok ((found.map (Closing.behind (m.before ++ m.source))).map (closingSpan i)) := by
  have hsize := (h.afterMarker hm).size_text
  have hstop : (Offset.markerSpan i m).stop = i + size (m.before ++ m.source) := by
    rw [size_append, ← Nat.add_assoc]
    rfl
  have hpos := size_pos_of_next? hm
  rw [loop_next hround (by omega) (by omega), hfound, Option.map_map, hstop]
  congr 2
  funext c
  exact (closingSpan_behind i _ c).symm

/-- **Counting finds the marker that closes.** -/
theorem loop_closingRound {escaped : Bool} (h : Stands t behind ahead i)
    (hescaped : escapedAfter false behind = escaped) (depth : Nat) :
    loop t.size (closingRound t name) (depth + 1) i =
      .ok ((Closing.find? name depth escaped ahead).map (closingSpan i)) := by
  -- Behind a marker no escape is open.
  have hfresh : ∀ {behind ahead : Text} {escaped : Bool} {m : Marker}, escapedAfter false behind = escaped →
      Marker.next? escaped ahead = some m → escapedAfter false (behind ++ (m.before ++ m.source)) = false :=
    fun hescaped hm => by rw [escapedAfter_append, hescaped, Marker.escapedAfter_next? hm]
  fun_induction Closing.find? name depth escaped ahead generalizing behind i with
  | case1 depth escaped ahead hm =>
      exact loop_done (by rw [closingRound_eq h, hescaped, hm]; rfl)
  | case2 depth escaped ahead m hm hlt read hname hkind =>
      rename_i ih
      have hround : closingRound t name (depth + 1) i = .ok (.next (depth + 2) (Offset.markerSpan i m).stop) := by
        rw [closingRound_eq h, hescaped, hm]
        simp only [hname, hkind, if_true]
      exact loop_behind_marker h hm hround (ih (h.afterMarker hm) (hfresh hescaped hm))
  | case3 escaped ahead m hm hlt hname hkind =>
      refine loop_done ?_
      rw [closingRound_eq h, hescaped, hm]
      simp only [hname, hkind, if_true]
      rfl
  | case4 escaped ahead m hm hlt read hname depth hkind =>
      rename_i ih
      have hround : closingRound t name (depth + 2) i = .ok (.next (depth + 1) (Offset.markerSpan i m).stop) := by
        rw [closingRound_eq h, hescaped, hm]
        simp only [hname, hkind, if_true]
        rfl
      exact loop_behind_marker h hm hround (ih (h.afterMarker hm) (hfresh hescaped hm))
  | case5 depth escaped ahead m hm hlt read hname =>
      rename_i ih
      have hround : closingRound t name (depth + 1) i = .ok (.next (depth + 1) (Offset.markerSpan i m).stop) := by
        rw [closingRound_eq h, hescaped, hm]
        simp only [hname, if_false]
      exact loop_behind_marker h hm hround (ih (h.afterMarker hm) (hfresh hescaped hm))

theorem Stands.matchingEnd? (h : Stands t behind ahead i) (name : Text) :
    Checked.matchingEnd? t name i =
      .ok ((Closing.find? name 0 (escapedAfter false behind) ahead).map (closingSpan i)) :=
  loop_closingRound h rfl 0

/-- **The search for the closing marker runs without a fault**, wherever it starts. -/
theorem matchingEnd?_eq (t name : Text) (i : Nat) : matchingEnd? t name i = .ok (Offset.matchingEnd? t name i) := by
  rw [Offset.matchingEnd?]
  cases h : t.splitAt? i with
  | some parts => exact (stands_of_splitAt? h).matchingEnd? name
  | none =>
      have hmarker : Offset.nextMarker? t i = none := by rw [Offset.nextMarker?, h]
      exact loop_done (by rw [closingRound, nextMarker?_eq, ok_bind, hmarker])

end Closings

end CribSheet.Checked
