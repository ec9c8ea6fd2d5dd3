/-
What the stages behind the title stage write.

The attribution, the differentials and the line break at the end are put in where they are missing, and
display regions are moved to lines of their own.  Nothing else happens to a sheet behind the title
stage: no command that counts comes or goes, a title that stands in the sheet stays, and the characters
that are no blanks are those of the sheet and those that are put in.

Main definitions:

* `CribSheet.PipelineOptions.write` — the stages behind the title stage;
* `CribSheet.Identity.missingFooters` — how many attributions they write.

Main results:

* `CribSheet.PipelineOptions.heads_write`, `CribSheet.PipelineOptions.countP_write`,
  `CribSheet.PipelineOptions.stands_write` — what they do to a sheet.
-/
import CribSheet.Proofs.Math.Writing
import CribSheet.Proofs.Sheet.Chain

set_option relaxedAutoImplicit false
set_option autoImplicit false

namespace CribSheet

open CribSheet.Text CribSheet.Markup

namespace Identity

/-! ### The attribution -/

/-- How many attributions are written. -/
def missingFooters (identity : Identity) (t : Text) : Nat :=
  if Text.holds identity.footer t then 0 else 1

theorem missingFooters_eq_zero_iff {identity : Identity} {t : Text} :
    identity.missingFooters t = 0 ↔ identity.footer <:+: t := by
  rw [missingFooters, ← holds_iff_isInfix]
  split <;> simp_all

/-- The ways of writing the attribution. -/
theorem injectFooter_cases (identity : Identity) (t : Text) :
    (identity.missingFooters t = 0 ∧ identity.injectFooter t = t) ∨
      (identity.missingFooters t = 1 ∧ ∃ before rest, t = before ++ (endDocument ++ rest) ∧
        identity.injectFooter t = before ++ (identity.footer ++ (endDocument ++ rest))) ∨
      (identity.missingFooters t = 1 ∧ identity.injectFooter t = t ++ identity.footer) := by
  rw [missingFooters, injectFooter]
  split
  · exact Or.inl ⟨rfl, rfl⟩
  · split
    · next before rest hcut =>
        refine Or.inr (Or.inl ⟨rfl, before, rest, ?_, by simp⟩)
        rw [cutAt?_eq_append hcut, List.append_assoc]
    · exact Or.inr (Or.inr ⟨rfl, rfl⟩)

theorem countP_injectFooter (identity : Identity) (t : Text) (q : Char → Bool) :
    (identity.injectFooter t).countP q =
      t.countP q + identity.missingFooters t * identity.footer.countP q := by
  rcases identity.injectFooter_cases t with ⟨hn, h⟩ | ⟨hn, before, rest, ht, h⟩ | ⟨hn, h⟩
  · rw [h, hn, Nat.zero_mul, Nat.add_zero]
  · rw [h, hn, ht]
    simp only [List.countP_append]
    omega
  · rw [h, hn, List.countP_append, Nat.one_mul]

/-- The attribution holds no command that counts. -/
theorem heads_footer (escaped : Bool) : heads escaped ({} : Identity).footer = 0 := by
  cases escaped <;> decide

theorem escapedAfter_footer (escaped : Bool) : escapedAfter escaped ({} : Identity).footer = false := by
  obtain ⟨x, hx⟩ : ∃ x, ({} : Identity).footer = x ++ ['\n'] :=
    List.getLast?_eq_some_iff.1 (by decide)
  rw [hx]
  exact escapedAfter_concat (by decide) escaped x

theorem heads_endDocument_append (escaped : Bool) (t : Text) :
    heads escaped (endDocument ++ t) = heads false (endDocument ++ t) := by
  have hsplit : endDocument ++ t = '\\' :: 'e' :: (endDocument.drop 2 ++ t) := rfl
  rw [hsplit]
  cases escaped <;> simp [heads_cons, escapes, isHead]

theorem heads_injectFooter (t : Text) :
    heads false (({} : Identity).injectFooter t) = heads false t := by
  rcases ({} : Identity).injectFooter_cases t with ⟨-, h⟩ | ⟨-, before, rest, ht, h⟩ | ⟨-, h⟩
  · rw [h]
  · have hbefore := heads_append false before (endDocument ++ rest)
    rw [heads_endDocument_append] at hbefore
    rw [h, ht, hbefore, heads_append, heads_append, heads_footer, escapedAfter_footer, Nat.zero_add]
  · rw [h, heads_append, heads_footer, Nat.add_zero]

/-- **A title stays** where the attribution is written. -/
theorem Stands.injectFooter {y t : Text} (hy : Tight y) (h : Stands y false t) :
    Stands y false (({} : Identity).injectFooter t) := by
  rcases ({} : Identity).injectFooter_cases t with ⟨-, heq⟩ | ⟨-, before, rest, ht, heq⟩ | ⟨-, heq⟩
  · rwa [heq]
  · have hsplit : endDocument ++ rest = '\\' :: 'e' :: (endDocument.drop 2 ++ rest) := rfl
    rw [ht] at h
    rw [heq]
    rcases h.of_append hy (by rw [hsplit]; simp) with h | h
    · exact h.append_right _
    · rw [hsplit] at h ⊢
      have hrest := h.of_cons_cons (by decide) (by decide)
      refine Stands.append_left (Stands.append_left ?_)
      rw [escapedAfter_footer]
      have hlead : ∀ t, '\\' :: 'e' :: t = ['\\', 'e'] ++ t := fun _ => rfl
      rw [hlead]
      exact Stands.append_left hrest
  · rw [heq]
    exact h.append_right _

end Identity

/-! ### All stages behind the title stage -/

namespace PipelineOptions

open Identity

/-- The stages behind the title stage. -/
def write (options : PipelineOptions) (t : Text) : Text :=
  endLine (options.math.repair (options.identity.injectFooter t))

theorem finish_eq_write (options : PipelineOptions) (topic t : Text) :
    options.finish topic t =
      options.write (options.identity.enforceTitle topic (options.skeleton.complete t)) := rfl

theorem write_eq (t : Text) :
    ({} : PipelineOptions).write t =
      endLine (isolateDisplayMath (ensureDifferential ({} : MathOptions).variableName
        (({} : Identity).injectFooter t))) := rfl

theorem exists_endLine (t : Text) : ∃ x, isBlankText x = true ∧ endLine t = t ++ x := by
  rw [endLine]
  split
  · exact ⟨[], rfl, (List.append_nil t).symm⟩
  · exact ⟨['\n'], by decide, rfl⟩

/-- **Behind the title stage no command that counts comes or goes.** -/
theorem heads_write (t : Text) : heads false (({} : PipelineOptions).write t) = heads false t := by
  obtain ⟨x, hx, hend⟩ := exists_endLine (isolateDisplayMath (ensureDifferential
    ({} : MathOptions).variableName (({} : Identity).injectFooter t)))
  rw [write_eq, hend, heads_append_blank hx, heads_isolateDisplayMath,
    heads_ensureDifferential (by decide), heads_injectFooter]

/-- **Behind the title stage attributions and differentials are written**, and nothing else but
blanks. -/
theorem countP_write {q : Char → Bool} (hq : Visible q) (t : Text) :
    (({} : PipelineOptions).write t).countP q =
      t.countP q + ({} : Identity).missingFooters t * ({} : Identity).footer.countP q +
        (bareIntegrals (({} : Identity).injectFooter t)).length *
          (differential ({} : MathOptions).variableName).countP q := by
  obtain ⟨x, hx, hend⟩ := exists_endLine (isolateDisplayMath (ensureDifferential
    ({} : MathOptions).variableName (({} : Identity).injectFooter t)))
  rw [write_eq, hend, List.countP_append, hq.countP_blank hx, countP_isolateDisplayMath hq,
    countP_ensureDifferential, countP_injectFooter, Nat.add_zero]

/-- **A title stays** behind the title stage. -/
theorem stands_write {y t : Text} (hy : Tight y) (h : Stands y false t) :
    Stands y false (({} : PipelineOptions).write t) := by
  obtain ⟨x, hx, hend⟩ := exists_endLine (isolateDisplayMath (ensureDifferential
    ({} : MathOptions).variableName (({} : Identity).injectFooter t)))
  rw [write_eq, hend]
  exact (((h.injectFooter hy).ensureDifferential hy (by decide)).isolateDisplayMath hy).append_right x

/-- No carriage return is written. -/
theorem return_not_mem_write {t : Text} (h : '\r' ∉ t) : '\r' ∉ ({} : PipelineOptions).write t := by
  have hzero : ∀ u : Text, '\r' ∉ u ↔ u.countP (· == '\r') = 0 := fun _ => List.count_eq_zero.symm
  have hrepaired : '\r' ∉ ensureDifferential ({} : MathOptions).variableName
      (({} : Identity).injectFooter t) := by
    rw [hzero, countP_ensureDifferential, countP_injectFooter, (hzero t).1 h,
      (by decide : ({} : Identity).footer.countP (· == '\r') = 0),
      (by decide : (differential ({} : MathOptions).variableName).countP (· == '\r') = 0)]
    omega
  have hisolated := fun hm => hrepaired (mem_isolateDisplayMath (by decide : '\r' ≠ '\n') hm)
  rw [write_eq, endLine]
  split
  · exact hisolated
  · intro hm
    rcases List.mem_append.1 hm with hm | hm
    · exact hisolated hm
    · exact absurd hm (by decide)

end PipelineOptions

end CribSheet
