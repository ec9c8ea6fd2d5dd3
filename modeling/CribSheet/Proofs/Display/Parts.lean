/-
The texts that are read on their own.

Reading the blocks of a text reads some shorter texts in the same way: the lead and the items of a list,
the body of a box, the content of an environment without a form of its own.  They are the parts of the
text.  What holds of a text as soon as it holds of its parts holds of every text.

Main definitions:

* `CribSheet.Piece.parts` — the texts that are read for the blocks of a piece, in the order of reading.

Main results:

* `CribSheet.parts_induction` — induction on the parts of a text;
* `CribSheet.environmentForm` — the five ways in which an environment is read.
-/
import CribSheet.Display.Parser

set_option relaxedAutoImplicit false
set_option autoImplicit false

namespace CribSheet

open CribSheet.Markup

/-! ### Parts -/

/-- The text of a list's content ahead of its first item, and the texts of its items. -/
def listItems (content : Text) : Text × List Text := items (EnvironmentContent.ofText content).body

/-- The texts that are read for the blocks of an environment, in the order of reading. -/
def environmentParts (name content : Text) : List Text :=
  if isListName name then (listItems content).1 :: (listItems content).2
  else if name = "tcolorbox".toList then [(EnvironmentContent.ofText content).body]
  else if formulaNames.contains name || alignedNames.contains name then []
  else [content]

/-- The texts that are read for the blocks of a piece, in the order of reading. -/
def Piece.parts : Piece → List Text
  | .environment name content => environmentParts name content
  | _ => []

theorem length_le_of_mem_environmentParts {name content u : Text}
    (h : u ∈ environmentParts name content) : u.length ≤ content.length := by
  have hbody := EnvironmentContent.length_body_ofText_le content
  unfold environmentParts at h
  split at h
  · rcases List.mem_cons.1 h with rfl | h
    · exact Nat.le_trans (length_items_fst_le _) hbody
    · exact Nat.le_trans (Nat.le_of_lt (length_lt_of_mem_items h)) hbody
  · split at h
    · obtain rfl := List.mem_singleton.1 h
      exact hbody
    · split at h
      · simp at h
      · obtain rfl := List.mem_singleton.1 h
        exact Nat.le_refl _

/-- The parts of a text are shorter than the text. -/
theorem length_lt_of_mem_parts {blank : Bool} {t u : Text} {p : Piece} (hp : p ∈ pieces blank t)
    (hu : u ∈ p.parts) : u.length < t.length := by
  cases p with
  | environment name content =>
    exact Nat.lt_of_le_of_lt (length_le_of_mem_environmentParts hu) (length_content_of_mem_pieces hp)
  | _ => simp [Piece.parts] at hu

/-- **Induction on parts:** what holds of a text when it holds of its parts holds of every text. -/
theorem parts_induction {P : Text → Prop}
    (step : ∀ t, (∀ p ∈ pieces true t, ∀ u ∈ p.parts, P u) → P t) (t : Text) : P t :=
  step t fun _ hp _ hu =>
    have := length_lt_of_mem_parts hp hu
    parts_induction step _
termination_by t.length

/-! ### Forms of environments -/

/-- How the environment is read, and what its parts are. -/
inductive EnvironmentForm (name content : Text) : Prop
  | steps (hname : name = itemizeName)
      (hparts : environmentParts name content = (listItems content).1 :: (listItems content).2)
      (hread : ∀ read, readEnvironment read name content = readList read .steps content)
  | list (hname : name = enumerateName)
      (hparts : environmentParts name content = (listItems content).1 :: (listItems content).2)
      (hread : ∀ read seen, readEnvironment read name content seen =
        readList read (.list (.next seen)) content (nextCount seen))
  | callout (hname : isListName name = false) (hbox : name = "tcolorbox".toList)
      (hparts : environmentParts name content = [(EnvironmentContent.ofText content).body])
      (hread : ∀ read, readEnvironment read name content = readCallout read content)
  | formula (body : Text) (hname : isListName name = false)
      (hparts : environmentParts name content = [])
      (hread : ∀ read seen, readEnvironment read name content seen = ([.math body], seen))
  | transparent (hname : isListName name = false) (hparts : environmentParts name content = [content])
      (hread : ∀ read, readEnvironment read name content = read content)

theorem environmentForm (name content : Text) : EnvironmentForm name content := by
  by_cases hitemize : name = itemizeName
  · exact .steps hitemize (by simp [environmentParts, isListName, hitemize])
      fun read => by funext seen; simp [readEnvironment, hitemize]
  by_cases henumerate : name = enumerateName
  · have hne : enumerateName ≠ itemizeName := by decide
    exact .list henumerate (by simp [environmentParts, isListName, henumerate])
      fun read seen => by simp [readEnvironment, henumerate, hne]
  have hname : isListName name = false := by simp [isListName, hitemize, henumerate]
  by_cases hbox : name = "tcolorbox".toList
  · refine .callout hname hbox ?_ fun read => ?_
    · rw [environmentParts, if_neg (by simp [hname]), if_pos hbox]
    · funext seen
      rw [readEnvironment, if_neg hitemize, if_neg henumerate, if_pos hbox]
  have hparts : environmentParts name content =
      if formulaNames.contains name || alignedNames.contains name then [] else [content] := by
    rw [environmentParts, if_neg (by simp [hname]), if_neg hbox]
  have hread : ∀ read seen, readEnvironment read name content seen =
      if formulaNames.contains name then ([.math content.trim], seen)
      else if alignedNames.contains name then ([.math (aligned content)], seen)
      else read content seen := by
    intro read seen
    rw [readEnvironment, if_neg hitemize, if_neg henumerate, if_neg hbox]
  by_cases hformula : formulaNames.contains name = true
  · exact .formula content.trim hname (by rw [hparts, hformula]; rfl)
      fun read seen => by rw [hread, if_pos hformula]
  by_cases haligned : alignedNames.contains name = true
  · exact .formula (aligned content) hname (by rw [hparts, haligned, Bool.or_true]; rfl)
      fun read seen => by rw [hread, if_neg hformula, if_pos haligned]
  · refine .transparent hname ?_ fun read => ?_
    · rw [hparts, if_neg (by simp only [Bool.or_eq_true]; rintro (h | h) <;> contradiction)]
    · funext seen
      rw [hread, if_neg hformula, if_neg haligned]

end CribSheet
