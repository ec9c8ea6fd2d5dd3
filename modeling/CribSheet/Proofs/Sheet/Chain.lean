/-
The full chain as one composition.

The full chain refuses a payload exactly when nothing is left of it, and is the composition of its
stages otherwise.  Repairs that are switched off leave the text alone, so the composition is the same
for all settings.

Main results:

* `CribSheet.PipelineOptions.document_eq_ok_iff` — what the full chain makes of a payload.
-/
import CribSheet.Proofs.Text.Occurrence
import CribSheet.Sheet.Pipeline

set_option relaxedAutoImplicit false
set_option autoImplicit false

namespace CribSheet

/-! ### Stages that leave a text alone -/

theorem Skeleton.complete_eq_self (s : Skeleton) {t : Text} (h : beginDocument <:+: t) : s.complete t = t := by
  rw [complete, if_pos (Text.holds_iff_isInfix.2 h)]

theorem Identity.injectFooter_eq_self {identity : Identity} {t : Text} (h : identity.footer <:+: t) :
    identity.injectFooter t = t := by
  rw [injectFooter, if_pos (Text.holds_iff_isInfix.2 h)]

theorem MathOptions.repair_of_not_isActive {options : MathOptions} (h : options.isActive = false)
    (t : Text) : options.repair t = t := by
  obtain ⟨hd, hi⟩ : options.repairDifferentials = false ∧ options.isolateDisplay = false := by
    simpa [isActive] using h
  simp [repair, hd, hi]

/-! ### The chain -/

namespace PipelineOptions

/-- What the stages behind sanitizing make of a text. -/
def finish (options : PipelineOptions) (topic t : Text) : Text :=
  let t := options.identity.enforceTitle topic (options.skeleton.complete t)
  endLine (options.math.repair (options.identity.injectFooter t))

/-- **The full chain**: it refuses what sanitizing leaves empty, and finishes the rest. -/
theorem document_eq_ok_iff {options : PipelineOptions} {topic raw : Text} {d : Document} :
    options.document topic raw = .ok d ↔
      Payload.sanitize raw ≠ [] ∧ d = ⟨options.finish topic (Payload.sanitize raw)⟩ := by
  by_cases hs : Payload.sanitize raw = []
  · simp [document, stages, runStages, Stage.run, hs, Except.map]
  · cases hm : options.math.isActive with
    | true =>
        simp [document, stages, runStages, Stage.run, hs, hm, Except.map, finish, eq_comm]
    | false =>
        simp [document, stages, runStages, Stage.run, hs, hm, Except.map, finish, eq_comm,
          MathOptions.repair_of_not_isActive hm]

end PipelineOptions

end CribSheet
