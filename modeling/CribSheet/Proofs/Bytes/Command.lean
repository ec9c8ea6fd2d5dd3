/-
Commands, byte by byte.

A command is searched by its name and its backslash; the search goes on one byte behind a backslash that is escaped, or
whose name goes on with another letter.  Its answer is that of the search by offset, at whatever position it starts.

Main definitions:

* `CribSheet.Checked.isEscaped` — the position is behind an odd number of backslashes;
* `CribSheet.Checked.findCommand?` — the next command with a name.

Main results:

* `CribSheet.Checked.Stands.isEscaped` — counting backslashes tells whether an escape is open;
* `CribSheet.Checked.findCommand?_eq` — **the search runs without a fault**, and finds what the search by offset finds.
-/
import CribSheet.Proofs.Bytes.Position
import CribSheet.Proofs.Markup.Heads
import Mathlib.Data.List.Induction

set_option relaxedAutoImplicit false
set_option autoImplicit false

namespace CribSheet.Checked

open Text Markup

/-! ### Escapes -/

/-- The number of backslashes directly before a position. -/
def slashesBefore (t : Text) : Nat → Run Nat
  | 0 => .ok 0
  | i + 1 => do
    let b ← byte t i
    if b = code '\\' then (slashesBefore t i).map (· + 1) else .ok 0

/-- An odd number of backslashes stands directly before a position. -/
def isEscaped (t : Text) (i : Nat) : Run Bool := (slashesBefore t i).map fun count => count % 2 == 1

/-- The last byte before a position between two characters. -/
theorem Stands.byte_pred {t behind ahead : Text} {c : Char} {i : Nat} (h : Stands t (behind ++ [c]) ahead (i + 1)) :
    ∃ b, byte t i = .ok b ∧ (b = code '\\' ↔ c = '\\') := by
  have hstart : Stands t behind (c :: ahead) behind.size := ⟨by rw [h.text_eq]; simp, rfl⟩
  have hsize := h.size_eq
  have hpos := Char.utf8Size_pos c
  rw [size_append, size_cons, size_nil] at hsize
  -- A character of several bytes ends in one that goes on with it, and is no backslash.
  rcases Nat.eq_or_lt_of_le hpos with hone | hmany
  · obtain rfl : behind.size = i := by omega
    exact ⟨lead c, hstart.byte_cons, lead_eq_code_iff (by decide)⟩
  · obtain ⟨b, hbyte, hb⟩ := hstart.byte?_inside (show behind.size < i by omega) (by omega)
    refine ⟨b, by rw [byte, hbyte], iff_of_false (hb.ne_code (by decide)) ?_⟩
    rintro rfl
    exact absurd hmany (by decide)

theorem slashesBefore_eq {t behind ahead : Text} {i : Nat} (h : Stands t behind ahead i) :
    ∃ count, slashesBefore t i = .ok count ∧ (count % 2 == 1) = escapedAfter false behind := by
  -- The count goes backwards, so the induction is on the end of what stands behind.
  induction behind using List.reverseRecOn generalizing ahead i with
  | nil =>
      obtain rfl : i = 0 := h.size_eq.symm
      exact ⟨0, rfl, rfl⟩
  | append_singleton behind c ih =>
      have hsize := h.size_eq
      have hpos := Char.utf8Size_pos c
      rw [size_append, size_cons, size_nil] at hsize
      obtain ⟨i, rfl⟩ : ∃ j, i = j + 1 := ⟨i - 1, by omega⟩
      obtain ⟨b, hbyte, hb⟩ := h.byte_pred
      rw [slashesBefore, hbyte, ok_bind, escapedAfter_append, escapedAfter_cons, escapedAfter_nil]
      by_cases hc : c = '\\'
      · subst hc
        obtain rfl : size behind = i := by
          have hone : Char.utf8Size '\\' = 1 := rfl
          omega
        have hbehind : Stands t behind ('\\' :: ahead) (size behind) := ⟨by rw [h.text_eq]; simp, rfl⟩
        obtain ⟨count, hcount, hodd⟩ := ih hbehind
        refine ⟨count + 1, by rw [if_pos (hb.2 rfl), hcount]; rfl, ?_⟩
        rw [← hodd, escapes]
        rcases Nat.mod_two_eq_zero_or_one count with h2 | h2 <;> simp [h2, Nat.add_mod]
      · rw [if_neg fun heq => hc (hb.1 heq)]
        exact ⟨0, rfl, by simp [escapes, hc]⟩

theorem Stands.isEscaped {t behind ahead : Text} {i : Nat} (h : Stands t behind ahead i) :
    Checked.isEscaped t i = .ok (escapedAfter false behind) := by
  obtain ⟨count, hcount, hodd⟩ := slashesBefore_eq h
  rw [Checked.isEscaped, hcount, ← hodd]
  rfl

/-! ### Commands -/

/-- Where the piece occurs first. -/
def find (piece t : Text) : Option Nat := (cutAt? piece t).map fun (before, _) => before.size

/-- One round of the search for a command: the next occurrence of its name behind a backslash. -/
def commandRound (t name : Text) (_ : Unit) (i : Nat) : Run (Round Unit (Option CommandSpan)) :=
  match (from? t i).bind (find ('\\' :: name)) with
  | none => .ok (.done none)
  | some offset => do
    let start := i + offset
    let stop := start + size ('\\' :: name)
    if ← isEscaped t start then .ok (.next () (start + 1))
    else if (byte? t stop).any isLetterByte then .ok (.next () (start + 1))
    else
      let starred := byte? t stop == some (code '*')
      .ok (.done (some ⟨start, if starred then stop + 1 else stop, starred⟩))

/-- The first command with the name at or after a position. -/
def findCommand? (t name : Text) (i : Nat) : Run (Option CommandSpan) := loop t.size (commandRound t name) () i

section Commands

variable {t name behind ahead : Text} {i : Nat}

/-- The search begins where the text is behind a character at which the name does not stand. -/
theorem commandRound_step {c : Char} (h : Stands t behind (c :: ahead) i)
    (hname : after? ('\\' :: name) (c :: ahead) = none) :
    commandRound t name () i = commandRound t name () (i + c.utf8Size) := by
  have hfind : find ('\\' :: name) (c :: ahead) = (find ('\\' :: name) ahead).map (c.utf8Size + ·) := by
    rw [find, find, cutAt?, hname, Option.map_map, Option.map_map]
    rfl
  rw [commandRound, commandRound, h.from?, h.next.from?, Option.bind_some, Option.bind_some, hfind]
  cases find ('\\' :: name) ahead with
  | none => rfl
  | some offset => simp only [Option.map_some, Nat.add_assoc]

/-- The search moves on. -/
theorem lt_of_commandRound {u : Unit} {i' : Nat} (h : Stands t behind ahead i)
    (hround : commandRound t name () i = .ok (.next u i')) : i < i' ∧ i < t.size := by
  rw [commandRound, h.from?, Option.bind_some] at hround
  cases hfind : find ('\\' :: name) ahead with
  | none =>
      rw [hfind] at hround
      simp at hround
  | some offset =>
      rw [hfind] at hround
      have hi' : i + offset + 1 = i' := by
        simp only at hround
        cases hescaped : Checked.isEscaped t (i + offset) with
        | error fault =>
            rw [hescaped] at hround
            cases hround
        | ok escaped =>
            rw [hescaped, ok_bind] at hround
            split at hround
            · exact (Round.next.inj (Except.ok.inj hround)).2
            · split at hround
              · exact (Round.next.inj (Except.ok.inj hround)).2
              · simp at hround
      have hahead : ahead ≠ [] := by
        rintro rfl
        simp [find, cutAt?, after?] at hfind
      obtain ⟨c, ahead, rfl⟩ := List.exists_cons_of_ne_nil hahead
      have hsize := h.size_text
      have hpos := Char.utf8Size_pos c
      rw [size_cons] at hsize
      omega

/-- A round where the name stands behind a backslash. -/
theorem commandRound_name {rest : Text} (h : Stands t behind ('\\' :: (name ++ rest)) i) :
    commandRound t name () i =
      match if escapes (escapedAfter false behind) '\\' then Sighting.atName? [name] (name ++ rest) else none with
      | some s => .ok (.done (some (Offset.commandSpan i s)))
      | none => .ok (.next () (i + 1)) := by
  have hfind : find ('\\' :: name) ('\\' :: (name ++ rest)) = some 0 := by
    have hname : after? ('\\' :: name) ('\\' :: (name ++ rest)) = some rest := by rw [after?, if_pos rfl, after?_append]
    rw [find, cutAt?, hname]
    rfl
  have hstop : Stands t (behind ++ '\\' :: name) rest (i + size ('\\' :: name)) :=
    Stands.advance (u := '\\' :: name) (by simpa using h)
  rw [commandRound, h.from?, Option.bind_some, hfind]
  simp only [Nat.add_zero]
  rw [h.isEscaped, ok_bind]
  cases escapedAfter false behind with
  | true => rfl
  | false =>
      rw [if_neg Bool.false_ne_true, if_pos (show escapes false '\\' = true from rfl), Sighting.atName?, after?_append]
      cases rest with
      | nil =>
          rw [hstop.byte?_nil]
          simp [Offset.commandSpan, Sighting.source]
      | cons d rest =>
          have hstar : (some (lead d) == some (code '*')) = decide (d = '*') := by
            rw [Bool.eq_iff_iff, beq_iff_eq, Option.some_inj, lead_eq_code_iff (by decide), decide_eq_true_iff]
          rw [hstop.byte?_cons, Option.any_some, isLetterByte_lead, hstar]
          by_cases hd : isLetter d = true
          · simp [hd, Sighting.atName?]
          · by_cases hd' : d = '*'
            · subst hd'
              have hone : Char.utf8Size '*' = 1 := rfl
              simp [Offset.commandSpan, Sighting.source, hd]
              omega
            · simp [Offset.commandSpan, Sighting.source, hd, hd']

theorem commandSpan_behind (i : Nat) (c : Char) (s : Sighting) :
    Offset.commandSpan i (s.behind c) = Offset.commandSpan (i + c.utf8Size) s := by
  simp only [Offset.commandSpan, Sighting.behind, Sighting.source, size_cons, Nat.add_assoc]
  rfl

/-- **The search finds the first sighting.** -/
theorem loop_commandRound (h : Stands t behind ahead i) :
    loop t.size (commandRound t name) () i =
      .ok ((Sighting.find? [name] (escapedAfter false behind) ahead).map (Offset.commandSpan i)) := by
  induction ahead generalizing behind i with
  | nil =>
      have hfind : find ('\\' :: name) [] = none := rfl
      exact loop_done (by rw [commandRound, h.from?, Option.bind_some, hfind]; rfl)
  | cons c ahead ih =>
      have hbehind : (Offset.commandSpan i ∘ Sighting.behind c) = Offset.commandSpan (i + c.utf8Size) :=
        funext (commandSpan_behind i c)
      have hlater : loop t.size (commandRound t name) () (i + c.utf8Size) =
          .ok (((Sighting.find? [name] (escapes (escapedAfter false behind) c) ahead).map (Sighting.behind c)).map
            (Offset.commandSpan i)) := by
        rw [ih h.next, Option.map_map, hbehind, escapedAfter_append, escapedAfter_cons, escapedAfter_nil]
      rw [Sighting.find?]
      cases hname : after? ('\\' :: name) (c :: ahead) with
      | none =>
          have hnone :
              (if escapes (escapedAfter false behind) c then Sighting.atName? [name] ahead else none) = none := by
            split
            · next hc =>
                have hc : c = '\\' := by simp [escapes] at hc; exact hc.1
                rw [hc, after?, if_pos rfl] at hname
                rw [Sighting.atName?, hname]
                rfl
            · rfl
          rw [hnone, ← hlater, loop, commandRound_step h hname, loop]
          -- The rounds agree, and both positions lie before the one at which the search goes on.
          cases hround : commandRound t name () (i + c.utf8Size) with
          | error fault => rfl
          | ok round =>
              cases round with
              | done a => rfl
              | next u i' =>
                  obtain ⟨hlt, hsize⟩ := lt_of_commandRound h.next hround
                  simp only
                  rw [if_pos ⟨by omega, by omega⟩, if_pos ⟨hlt, hsize⟩]
      | some rest =>
          obtain ⟨rfl, rfl⟩ : c = '\\' ∧ ahead = name ++ rest := by
            simpa using after?_eq_some_iff.1 hname
          have hsize := h.size_text
          have hone : Char.utf8Size '\\' = 1 := rfl
          rw [size_cons] at hsize
          have hround := commandRound_name h
          cases hs :
            (if escapes (escapedAfter false behind) '\\' then Sighting.atName? [name] (name ++ rest) else none) with
          | some s =>
              rw [hs] at hround
              exact loop_done hround
          | none =>
              rw [hs] at hround
              rw [hone] at hlater
              exact (loop_next hround (Nat.lt_succ_self i) (by omega)).trans hlater

/-- **The search for a command runs without a fault**, wherever it starts. -/
theorem findCommand?_eq (t name : Text) (i : Nat) : findCommand? t name i = .ok (Offset.findCommand? t name i) := by
  rw [findCommand?, Offset.findCommand?]
  cases h : t.splitAt? i with
  | none => exact loop_done (by rw [commandRound, from?, h]; rfl)
  | some parts => exact loop_commandRound (stands_of_splitAt? h)

end Commands

end CribSheet.Checked
