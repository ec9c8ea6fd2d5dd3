/-
What counts as a differential.

The repair of integrals looks for a differential in a span with a scan.  Here it is told without a scan what
a differential is: a `d` that ends no word and no command, or an upright `d`, and the name of a variable
behind it.  A longer text holds the differentials of its beginning, and what the repair writes is one.

Main definitions:

* `CribSheet.IsVariable` — the name of a variable;
* `CribSheet.IsDifferential` — a differential, behind a given character;
* `CribSheet.HoldsDifferential` — a differential occurs in a text.

Main results:

* `CribSheet.hasDifferential_iff` — what the scan decides;
* `CribSheet.holdsDifferential_differential` — the repair writes a differential.
-/
import CribSheet.Math.Differential
import CribSheet.Proofs.Markup.Heads

set_option relaxedAutoImplicit false
set_option autoImplicit false

namespace CribSheet

open CribSheet.Text CribSheet.Markup

/-! ### Variables -/

/-- The name of a variable: a letter, or a control word. -/
inductive IsVariable : Text → Prop
  /-- A letter. -/
  | letter {c : Char} (hc : isLetter c = true) : IsVariable [c]
  /-- A backslash and letters. -/
  | word {name : Text} (hne : name ≠ []) (hname : ∀ c ∈ name, isLetter c = true) :
      IsVariable ('\\' :: name)

/-- The name of a variable starts with a letter or a backslash. -/
theorem IsVariable.exists_cons {v : Text} (hv : IsVariable v) : ∃ c rest, v = c :: rest ∧ isBlank c = false := by
  cases hv with
  | letter hc => exact ⟨_, _, rfl, isBlank_of_isLetter hc⟩
  | word => exact ⟨_, _, rfl, by decide⟩

/-- **A text starts with the name of a variable** where the scan says so. -/
theorem startsVariable_iff {t : Text} : startsVariable t = true ↔ ∃ v rest, t = v ++ rest ∧ IsVariable v := by
  constructor
  · intro h
    unfold startsVariable at h
    split at h
    · next c rest => exact ⟨['\\', c], rest, rfl, .word (by simp) (by simpa using h)⟩
    · next c rest _ => exact ⟨[c], rest, rfl, .letter h⟩
    · simp at h
  · rintro ⟨v, rest, rfl, hv⟩
    cases hv with
    | @letter c hc =>
        have hslash : c ≠ '\\' := by
          rintro rfl
          exact absurd hc (by decide)
        simp [startsVariable, hslash, hc]
    | @word name hne hname =>
        obtain ⟨c, name, rfl⟩ := List.exists_cons_of_ne_nil hne
        simpa [startsVariable] using hname c (by simp)

/-! ### Differentials -/

/-- **The text is a differential** behind the character `last`, if there is one. -/
inductive IsDifferential (last : Option Char) : Text → Prop
  /-- A `d` that ends no word and no command, and a variable. -/
  | italic {v : Text} (hlast : ∀ c ∈ last, isLetter c = false ∧ c ≠ '\\') (hv : IsVariable v) :
      IsDifferential last ('d' :: v)
  /-- An upright `d` and a variable, with blanks between them. -/
  | upright {gap v : Text} (hgap : isBlankText gap = true) (hv : IsVariable v) :
      IsDifferential last (uprightD ++ gap ++ v)

/-- **A differential occurs in the text.** -/
def HoldsDifferential (t : Text) : Prop :=
  ∃ front d rest, t = front ++ d ++ rest ∧ IsDifferential front.getLast? d

theorem startsDifferential_iff {last : Option Char} {t : Text} :
    startsDifferential last t = true ↔ ∃ d rest, t = d ++ rest ∧ IsDifferential last d := by
  unfold startsDifferential
  rw [Bool.or_eq_true]
  constructor
  · rintro (h | h)
    · split at h
      · next rest =>
          rw [Bool.and_eq_true, startsVariable_iff] at h
          obtain ⟨hlast, v, rest, rfl, hv⟩ := h
          refine ⟨'d' :: v, rest, rfl, .italic ?_ hv⟩
          rintro c rfl
          simpa using hlast
      · simp at h
    · split at h
      · next rest hafter =>
          obtain ⟨v, rest', hrest, hv⟩ := startsVariable_iff.1 h
          refine ⟨uprightD ++ rest.takeWhile isBlank ++ v, rest', ?_, .upright List.all_takeWhile hv⟩
          rw [after?_eq_some_iff.1 hafter, List.append_assoc, List.append_assoc, ← hrest, trimStart,
            List.takeWhile_append_dropWhile]
      · simp at h
  · rintro ⟨d, rest, rfl, hd⟩
    cases hd with
    | italic hlast hv =>
        refine .inl (Bool.and_eq_true_iff.2 ⟨?_, startsVariable_iff.2 ⟨_, rest, rfl, hv⟩⟩)
        cases last with
        | none => rfl
        | some c => simpa using hlast c rfl
    | @upright gap v hgap hv =>
        obtain ⟨c, v', rfl, hc⟩ := hv.exists_cons
        have htrim : trimStart (gap ++ (c :: v' ++ rest)) = c :: v' ++ rest := by
          rw [List.cons_append, trimStart_append_cons hc, trimStart,
            List.dropWhile_eq_nil_iff.2 (List.all_eq_true.1 hgap), List.nil_append]
        right
        simp only [List.append_assoc, after?_append]
        rw [htrim]
        exact startsVariable_iff.2 ⟨_, rest, rfl, hv⟩

theorem hasDifferentialAfter_iff {last : Option Char} {t : Text} :
    hasDifferentialAfter last t = true ↔
      ∃ front d rest, t = front ++ d ++ rest ∧ IsDifferential (front.getLast?.or last) d := by
  induction t generalizing last with
  | nil =>
      simp only [hasDifferentialAfter, Bool.false_eq_true, false_iff]
      rintro ⟨front, d, rest, h, hd⟩
      cases hd <;> simp [uprightD] at h
  | cons c t ih =>
      rw [hasDifferentialAfter, Bool.or_eq_true, startsDifferential_iff, ih]
      constructor
      · rintro (⟨d, rest, ht, hd⟩ | ⟨front, d, rest, rfl, hd⟩)
        · exact ⟨[], d, rest, by simpa using ht, by simpa using hd⟩
        · refine ⟨c :: front, d, rest, by simp, ?_⟩
          cases hfront : front.getLast? <;> simpa [List.getLast?_cons, hfront] using hd
      · rintro ⟨front, d, rest, ht, hd⟩
        cases front with
        | nil => exact .inl ⟨d, rest, by simpa using ht, by simpa using hd⟩
        | cons e front =>
            obtain ⟨rfl, rfl⟩ : c = e ∧ t = front ++ d ++ rest := by simpa using ht
            refine .inr ⟨front, d, rest, rfl, ?_⟩
            cases hfront : front.getLast? <;> simpa [List.getLast?_cons, hfront] using hd

/-- **The scan finds a differential** exactly where one occurs. -/
theorem hasDifferential_iff {t : Text} : hasDifferential t = true ↔ HoldsDifferential t := by
  rw [hasDifferential, hasDifferentialAfter_iff]
  simp only [Option.or_none, HoldsDifferential]

instance : DecidablePred HoldsDifferential := fun _ => decidable_of_iff _ hasDifferential_iff

/-- A longer text holds the differentials of its beginning. -/
theorem HoldsDifferential.append {t : Text} (h : HoldsDifferential t) (u : Text) : HoldsDifferential (t ++ u) := by
  obtain ⟨front, d, rest, rfl, hd⟩ := h
  exact ⟨front, d, rest ++ u, by simp, hd⟩

/-- **What the repair writes is a differential**, wherever it stands. -/
theorem holdsDifferential_differential {variableName : Text} (hv : IsVariable variableName) (a b : Text) :
    HoldsDifferential (a ++ differential variableName ++ b) :=
  ⟨a ++ ['\\', ','], 'd' :: variableName, b, by simp [differential],
    .italic (by simp; decide) hv⟩

end CribSheet
