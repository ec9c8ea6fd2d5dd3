/-
Settled sheets: those that the full chain leaves alone.

Main definitions:

* `CribSheet.Settled` — what a sheet must be like for the chain to leave it alone.

Main results:

* `CribSheet.Settled.finish_eq` — the chain leaves settled sheets alone.
-/
import CribSheet.Proofs.Sheet.Chain
import CribSheet.Proofs.Sheet.Title
import CribSheet.Proofs.Text.Occurrence

set_option relaxedAutoImplicit false
set_option autoImplicit false

namespace CribSheet

open CribSheet.Text CribSheet.Markup CribSheet.Identity CribSheet.PipelineOptions

/-- The text with the directive in the place of the title that is marked in it. -/
def Identity.retitled (directive : Text) (c : Cut) : Text := c.before ++ directive ++ c.after

/-- **The sheet is settled**: with the directive of the topic in the place of the title that sanitizing
leaves, marked by `c`, there is nothing to do but to write its display mathematics on lines of its own
and to end the last line, and that gives the sheet. -/
structure Settled (topic sheet : Text) (c : Cut) : Prop where
  /-- The first title of the sanitized sheet. -/
  found : titleFinder false (Payload.sanitize sheet) = some c
  /-- The sanitized sheet has a root. -/
  root : beginDocument <:+: Payload.sanitize sheet
  /-- There is one title. -/
  title : ∃! s : Sighting, s.name = titleName ∧
    s.IsIn false (retitled (({} : Identity).titleDirective topic) c)
  /-- There is one command that prints it. -/
  maketitle : ∃! s : Sighting, s.name = maketitleName ∧
    s.IsIn false (retitled (({} : Identity).titleDirective topic) c)
  /-- The attribution is there. -/
  footer : ({} : Identity).footer <:+: retitled (({} : Identity).titleDirective topic) c
  /-- Every integral has a differential. -/
  differentials : ∀ i ∈ (Integral.scan false (retitled (({} : Identity).titleDirective topic) c)).1,
    hasDifferential i.span = true
  /-- The sheet is what is written then. -/
  written : endLine (isolateDisplayMath (retitled (({} : Identity).titleDirective topic) c)) = sheet

/-- A text whose integrals have differentials is left alone. -/
theorem ensureDifferential_eq_self {variableName t : Text}
    (h : ∀ i ∈ (Integral.scan false t).1, hasDifferential i.span = true) :
    ensureDifferential variableName t = t := by
  have hsource : (Integral.scan false t).1.flatMap (Integral.repaired variableName) =
      (Integral.scan false t).1.flatMap Integral.source :=
    List.flatMap_congr fun i hi => by rw [Integral.repaired, if_pos (h i hi)]
  exact (congrArg (· ++ (Integral.scan false t).2) hsource).trans (Integral.scan_append false t)

namespace Settled

variable {topic sheet : Text} {c : Cut}

/-- The title stage puts the directive in the place of the title and does nothing else. -/
theorem enforceTitle_eq (h : Settled topic sheet c) (htopic : Plain topic) :
    ({} : Identity).enforceTitle topic (Payload.sanitize sheet) =
      retitled (({} : Identity).titleDirective topic) c := by
  have hplain := plain_titlePayload htopic
  have hbefore := titleFinder_before h.found
  have htitle := h.title
  have hmaketitle := h.maketitle
  rw [retitled, titleDirective_eq] at htitle hmaketitle
  have hone := (existsUnique_title_iff hplain.slash_not_mem hbefore.1 hbefore.2).1 htitle
  rw [enforceTitle, titleDirective_eq, placeTitle_eq hplain h.found hone,
    oneMaketitle_eq hmaketitle, retitled]

/-- **The chain leaves a settled sheet alone.** -/
theorem finish_eq (h : Settled topic sheet c) (htopic : Plain topic) :
    ({} : PipelineOptions).finish topic (Payload.sanitize sheet) = sheet := by
  have hrepair : ({} : MathOptions).repair (retitled (({} : Identity).titleDirective topic) c) =
      isolateDisplayMath (retitled (({} : Identity).titleDirective topic) c) := by
    simp only [MathOptions.repair, if_true, ensureDifferential_eq_self h.differentials]
  change endLine (({} : MathOptions).repair (({} : Identity).injectFooter
    (({} : Identity).enforceTitle topic (({} : Skeleton).complete (Payload.sanitize sheet))))) = sheet
  rw [Skeleton.complete_eq_self _ h.root, h.enforceTitle_eq htopic, injectFooter_eq_self h.footer, hrepair, h.written]

end Settled

end CribSheet
