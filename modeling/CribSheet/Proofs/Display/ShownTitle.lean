/-
The preview of a finished sheet opens with its title.

The title stage makes the directive of the topic the first title of the sheet, and the stages behind it keep
it the first one.  The title of a display tree is read from the first title command, so that it is read from
this directive.  A topic without markup is shown as it is written.

Main results:

* `CribSheet.title?_of_opens` — the title that opens a text is the one that is read;
* `CribSheet.PipelineOptions.display_opens_with_title` — the first block of the preview of a sheet.
-/
import CribSheet.Proofs.Display.InlineReading
import CribSheet.Proofs.Sheet.FirstTitle

set_option relaxedAutoImplicit false
set_option autoImplicit false

namespace CribSheet

open CribSheet.Text CribSheet.Markup CribSheet.Identity

/-! ### Reading the title -/

/-- **The title that opens a text** is the one that is read. -/
theorem title?_of_opens {y t : Text} (hy : Plain y) (htrim : y.trim = y) (hne : y ≠ [])
    (h : Opens y false t) : title? t = some y := by
  obtain ⟨a, b, rfl, ha, hnone⟩ := h
  have hends : EndsName ('{' :: (y ++ '}' :: b)) := endsName_brace _
  have hsplit : a ++ plainTitle y ++ b = a ++ '\\' :: (titleName ++ '{' :: (y ++ '}' :: b)) := by
    simp [plainTitle]
  have hspace : argumentSpace ('{' :: (y ++ '}' :: b)) = ([], '{' :: (y ++ '}' :: b)) := by
    simp [argumentSpace, isGap]
  have hshort : shortForm? ('{' :: (y ++ '}' :: b)) = some ([], '{' :: (y ++ '}' :: b)) := by
    rw [shortForm?, hspace, if_neg (by simp)]
  have hname : "title".toList = titleName := by decide
  rw [title?, hname, hsplit, Sighting.find?_append_source (by decide) hnone ha hends, Option.bind_some, hshort,
    Option.bind_some]
  simp only [if_true, hspace, argument_read?_plain hy, Option.bind_some, htrim, if_neg hne]

/-! ### The title of a topic -/

/-- The title of a topic is shown without blanks around it. -/
theorem trim_titlePayload (topic : Text) :
    (({} : Identity).titlePayload topic).trim = ({} : Identity).titlePayload topic := by
  generalize hshown : (if topic.trim = [] then ({} : Identity).defaultTopic.trim else topic.trim) = shown
  have hpayload : ({} : Identity).titlePayload topic = ({} : Identity).titlePrefix ++ ':' :: ' ' :: shown := by
    rw [titlePayload, hshown]
  have htrimEnd : ∀ t : Text, t.trim.trimEnd = t.trim := by
    intro t
    simp only [Text.trim, trimEnd, dropEndWhile_eq_rdropWhile]
    exact List.rdropWhile_idempotent isBlank _
  have hlast : shown ≠ [] ∧ ∀ c ∈ shown.getLast?, isBlank c = false := by
    rw [← trimEnd_eq_self_iff, ← hshown]
    split
    · exact ⟨by decide, htrimEnd _⟩
    · next hne => exact ⟨hne, htrimEnd topic⟩
  rw [hpayload]
  have hhead : (({} : Identity).titlePrefix ++ ':' :: ' ' :: shown).head? = some 'S' := rfl
  refine (trim_eq_self_iff _).2 ⟨fun c hc => ?_, ?_⟩
  · obtain rfl := Option.some.inj (hhead.symm.trans hc)
    rfl
  · obtain ⟨c, shown, rfl⟩ := List.exists_cons_of_ne_nil hlast.1
    simpa [List.getLast?_cons_cons] using hlast.2

theorem titlePayload_ne_nil (topic : Text) : ({} : Identity).titlePayload topic ≠ [] := by
  simp [titlePayload]

namespace PipelineOptions

/-- **The preview of a finished sheet opens with its title**, for every payload from which sanitizing leaves
something without a starred command that prints the title, and every topic without markup. -/
theorem display_opens_with_title {topic raw : Text} {d : Document}
    (hstar : Text.holds starredMaketitle (Payload.sanitize raw) = false)
    (htopic : ∀ c ∈ topic, c ∉ ['\\', '$', '~', '{', '}', '\n'])
    (h : ({} : PipelineOptions).document topic raw = .ok d) :
    d.display.head? = some (.heading 3 [.text (({} : Identity).titlePayload topic)]) := by
  obtain ⟨-, rfl⟩ := document_eq_ok_iff.1 h
  have hpayload : ∀ c ∈ ({} : Identity).titlePayload topic, c ∉ ['\\', '$', '~', '{', '}', '\n'] :=
    forall_mem_titlePayload (by decide) (by decide) htopic
  have hy : Seamless (({} : Identity).titlePayload topic) := fun c hc hm => hpayload c hc (by
    simp only [List.mem_cons, List.not_mem_nil, or_false] at hm ⊢
    tauto)
  have hcompleted : ¬ starredMaketitle <:+: ({} : Skeleton).complete (Payload.sanitize raw) := by
    intro hinfix
    have hsanitized := holds_iff_isInfix.2 (Skeleton.isInfix_starredMaketitle_complete hinfix)
    rw [hstar] at hsanitized
    simp at hsanitized
  have hopens := opens_write hy (opens_enforceTitle ({} : Identity) hy.plain hcompleted)
  have htitle := title?_of_opens hy.plain (trim_titlePayload topic) (titlePayload_ne_nil topic) hopens
  have hinlines := parseInlines_plain (titlePayload_ne_nil topic) fun c hc hm => hpayload c hc (by
    simp only [List.mem_cons, List.not_mem_nil, or_false] at hm ⊢
    tauto)
  rw [finish_eq_write, Document.display, Document.displayFrom]
  simp only [htitle, Option.map_some, Option.toList_some, hinlines, List.cons_append, List.head?_cons]
  rfl

/-- A payload with two titles, the first of them with a short form and without its closing brace. -/
theorem display_opens_with_title_of_short_form :
    let raw := "\\maketitle\n\\title[A]\x7bB\n\\begin\x7bdocument\x7d\\title\x7bC\x7d$$x$$".toList
    Text.holds starredMaketitle (Payload.sanitize raw) = false ∧
      ∃ d, ({} : PipelineOptions).document ['T'] raw = .ok d ∧
        d.display.head? = some (.heading 3 [.text (({} : Identity).titlePayload ['T'])]) := by
  rewrite [String.toList_ofList]
  intro raw
  have hstar : Text.holds starredMaketitle (Payload.sanitize raw) = false := by decide +kernel
  have hsome : Payload.sanitize raw ≠ [] := by decide +kernel
  have hdocument : ({} : PipelineOptions).document ['T'] raw = .ok ⟨_⟩ := document_eq_ok_iff.2 ⟨hsome, rfl⟩
  exact ⟨hstar, _, hdocument, display_opens_with_title hstar (by decide) hdocument⟩

end PipelineOptions

end CribSheet
