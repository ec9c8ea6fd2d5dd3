/-
Following a title through the whole of sanitizing.

A pass over a text without byte-order marks and carriage returns is a gentle step, and every pass makes
such a text.  Only the first pass may see byte-order marks; when they all stand in the title, it takes
them out of the title and leaves the rest alone.

Main results:

* `CribSheet.Payload.tracked_sanitize` — a title can be followed through sanitizing.
-/
import CribSheet.Proofs.Payload.GentleDirective
import CribSheet.Proofs.Payload.Settling

set_option relaxedAutoImplicit false
set_option autoImplicit false

namespace CribSheet.Payload

open CribSheet.Text CribSheet.Markup CribSheet.Identity

/-! ### One pass -/

/-- A pass over a text that needs no new characters. -/
def tidyBreaks (t : Text) : Text :=
  tidy Directive.forbidden (if !t.contains '\n' && hasEscapedBreak t then decodeBreaks t else t)

theorem gentle_tidyBreaks : Gentle tidyBreaks := by
  have htidy : Gentle (tidy Directive.forbidden) :=
    gentle_stripSentinel.comp (gentle_trim.comp (gentle_dropNoiseLines.comp
      (gentle_removeDirectives tractable_forbidden)))
  exact htidy.comp (gentle_decodeBreaks.ite fun t => !t.contains '\n' && hasEscapedBreak t)

theorem pass_eq_tidyBreaks {t : Text} (h : '\r' ∉ t) :
    pass Directive.forbidden t = tidyBreaks (dropByteOrderMarks t) := by
  have hreturn : '\r' ∉ dropByteOrderMarks t := deletes_dropByteOrderMarks.not_mem h
  rw [pass_eq_tidy, normalizeBreaks, unifyBreaks_eq_self hreturn]
  rfl

/-- Byte-order marks in the argument of a title go, and nothing else does. -/
theorem Mark.dropByteOrderMarks_text {m : Mark} (h : '\ufeff' ∉ m.outside) :
    dropByteOrderMarks m.text = (Mark.mk m.before (dropByteOrderMarks m.argument) m.after).text := by
  obtain ⟨hbefore, hafter⟩ := not_or.1 fun hm => h (List.mem_append.2 hm)
  have hkeep : ∀ t, dropByteOrderMarks (plainTitle t) = plainTitle (dropByteOrderMarks t) := fun t => by
    simp [dropByteOrderMarks, plainTitle, titleName, List.filter_append]
  have happend : ∀ a b, dropByteOrderMarks (a ++ b) = dropByteOrderMarks a ++ dropByteOrderMarks b :=
    fun a b => List.filter_append ..
  rw [Mark.text, happend, happend, hkeep, (dropByteOrderMarks_eq_self_iff _).2 hbefore,
    (dropByteOrderMarks_eq_self_iff _).2 hafter, Mark.text]

theorem tracked_pass {m : Mark} (hm : m.Fits false) (hmark : '\ufeff' ∉ m.outside)
    (hreturn : '\r' ∉ m.text) : Tracked false m (pass Directive.forbidden m.text) := by
  have hfits : (Mark.mk m.before (dropByteOrderMarks m.argument) m.after).Fits false :=
    ⟨hm.plain.sublist (deletes_dropByteOrderMarks _), deletes_dropByteOrderMarks.not_mem hm.line,
      hm.fresh⟩
  rw [pass_eq_tidyBreaks hreturn, Mark.dropByteOrderMarks_text hmark]
  refine (gentle_tidyBreaks.tracked _ hfits).of_sheds ?_
  rw [Mark.heads_text hm, Mark.heads_text hfits]
  exact Sheds.refl _ _

/-! ### All passes -/

/-- Behind the first pass, passes only shed. -/
theorem sheds_pass {t : Text} (hmark : '\ufeff' ∉ t) (hreturn : '\r' ∉ t) :
    Sheds (heads false t) t (heads false (pass Directive.forbidden t)) (pass Directive.forbidden t) := by
  rw [pass_eq_tidyBreaks hreturn, (dropByteOrderMarks_eq_self_iff t).2 hmark]
  exact gentle_tidyBreaks.sheds t

theorem tracked_iterate_pass {m : Mark} (hm : m.Fits false) (hmark : '\ufeff' ∉ m.outside)
    (hreturn : '\r' ∉ m.text) (n : Nat) : Tracked false m ((pass Directive.forbidden)^[n + 1] m.text) := by
  induction n with
  | zero => exact tracked_pass hm hmark hreturn
  | succ n ih =>
      have hclean : '\ufeff' ∉ (pass Directive.forbidden)^[n + 1] m.text ∧
          '\r' ∉ (pass Directive.forbidden)^[n + 1] m.text := by
        rw [Function.iterate_succ_apply']
        exact ⟨mark_not_mem_pass _ _, not_mem_pass _ _⟩
      rw [Function.iterate_succ_apply']
      rcases ih with ⟨m', ht, hm', hsheds⟩ | hlost
      · rw [← ht] at hclean ⊢
        have houtside : '\ufeff' ∉ m'.outside := fun h => hclean.1 (by
          rcases List.mem_append.1 h with h | h <;> simp [Mark.text, h])
        exact (tracked_pass hm' houtside hclean.2).of_sheds hsheds
      · exact Or.inr (hlost.sheds (sheds_pass hclean.1 hclean.2))

/-- **A title can be followed through sanitizing.** -/
theorem tracked_sanitize {m : Mark} (hm : m.Fits false) (hmark : '\ufeff' ∉ m.outside)
    (hreturn : '\r' ∉ m.text) : Tracked false m (sanitize m.text) := by
  obtain ⟨n, -, hstops, hsanitize⟩ := exists_stopsAfter_sanitizeWith Directive.forbidden m.text
  obtain ⟨k, rfl⟩ : ∃ k, n = k + 1 := ⟨n - 1, by have := hstops.1; omega⟩
  rw [sanitize, hsanitize]
  exact tracked_iterate_pass hm hmark hreturn k

end CribSheet.Payload
