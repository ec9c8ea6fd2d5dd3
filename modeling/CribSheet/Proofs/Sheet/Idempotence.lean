/-
Running the full chain again.

A second run gives the same sheet exactly when the sheet is settled.  A sheet that the chain gives back
has kept its root in sanitizing: a fragment would have been completed, and then the skeleton would stand
in front of the sheet, where sanitizing does not touch it.  With its root kept, nothing else is missing.

A first run does not always settle a sheet.  An attribution at the very end of a text ends with a line
break that sanitizing trims, and is not recognized without it.

Main results:

* `CribSheet.isInfix_sanitize_of_finish_eq` — a sheet that the chain leaves alone keeps its root;
* `CribSheet.document_text_eq_self_iff` — **which sheets a run gives back unchanged**.
-/
import CribSheet.Proofs.Sheet.Fixed
import CribSheet.Proofs.Sheet.LeadSanitized

set_option relaxedAutoImplicit false
set_option autoImplicit false

namespace CribSheet

open CribSheet.Text CribSheet.Markup CribSheet.Identity CribSheet.PipelineOptions

variable {topic t : Text}

theorem Skeleton.return_not_mem_complete (h : '\r' ∉ t) : '\r' ∉ ({} : Skeleton).complete t := by
  have hpreamble : '\r' ∉ ({} : Skeleton).preamble := Skeleton.lead_facts.2.2.2.2.2
  have hbegin : '\r' ∉ beginDocument := by decide
  have hend : '\r' ∉ endDocument := by decide
  rw [complete]
  generalize ({} : Skeleton).preamble = preamble at hpreamble ⊢
  split
  · exact h
  · simp [hpreamble, hbegin, hend, h]

/-- **A sheet that the chain leaves alone keeps its root** in sanitizing. -/
theorem isInfix_sanitize_of_finish_eq (htopic : Tight topic)
    (h : ({} : PipelineOptions).finish topic (Payload.sanitize t) = t) :
    beginDocument <:+: Payload.sanitize t := by
  by_contra hroot
  rw [finish_eq_write] at h
  have hleads := ((Skeleton.leads_complete hroot).enforceTitle {} topic).write
  have hreturn := return_not_mem_written htopic
    (Skeleton.return_not_mem_complete (Payload.return_not_mem_sanitize t))
  rw [h] at hleads hreturn
  have hled := Skeleton.Led.sanitize (Or.inr hleads) hreturn
  exact hroot hled.isInfix

/-- **Which sheets a run gives back unchanged**: the settled ones. -/
theorem document_text_eq_self_iff (htopic : Tight topic) (d : Document) :
    ({} : PipelineOptions).document topic d.text = .ok d ↔ ∃ c, Settled topic d.text c := by
  rw [document_eq_ok_iff]
  constructor
  · rintro ⟨-, hd⟩
    have hfinish : ({} : PipelineOptions).finish topic (Payload.sanitize d.text) = d.text :=
      (congrArg Document.text hd).symm
    exact settled_of_finish_eq htopic (isInfix_sanitize_of_finish_eq htopic hfinish) hfinish
  · rintro ⟨c, hsettled⟩
    refine ⟨fun hnil => ?_, ?_⟩
    · have hroot := hsettled.root
      rw [hnil] at hroot
      exact absurd (List.infix_nil.1 hroot) (by decide)
    · exact congrArg Document.mk (hsettled.finish_eq htopic.plain).symm

/-- A sheet with a preamble, a body and an attribution in front of the closing root marker. -/
theorem settled_of_sheet_with_end :
    ∃ c, Settled ['T'] ("\\documentclass\x7barticle\x7d\n\\title\x7bSheet Cheat: T\x7d\n" ++
      "\\begin\x7bdocument\x7d\n\\maketitle\n\\[\n\\int x\\,dx\n\\]\n\n\\vspace\x7b1em\x7d\n" ++
      "\\begin\x7bcenter\x7d\\scriptsize Generado con Sheet Cheat\\end\x7bcenter\x7d\n" ++
      "\\end\x7bdocument\x7d\n").toList c := by
  -- The letters are spelled out, since the kernel is slow at decoding strings.
  repeat rewrite [String.toList_append]
  repeat rewrite [String.toList_ofList]
  exact (document_text_eq_self_iff (by unfold Tight; decide) ⟨_⟩).1
    (document_eq_ok_iff.2 ⟨by decide +kernel, by decide +kernel⟩)

/-- Without a closing root marker the attribution ends the sheet, and the next run adds another. -/
theorem document_text_ne_self_of_open_root :
    ∃ d, ({} : PipelineOptions).document ['T'] ("\\begin\x7bdocument\x7dx").toList = .ok d ∧
      ({} : PipelineOptions).document ['T'] d.text ≠ .ok d := by
  rewrite [String.toList_ofList]
  refine ⟨_, document_eq_ok_iff.2 ⟨by decide +kernel, rfl⟩, fun h => ?_⟩
  exact absurd (document_eq_ok_iff.1 h).2 (by decide +kernel)

end CribSheet
