/-
The root of a finished sheet.

Completion gives every payload a root, and neither the attribution nor the repairs of the mathematics
cut one.  Only the title stage can take the root away again: it replaces title directives with their
arguments, wherever these end, and a root marker between the braces of a title goes with the title.  So
a finished sheet has a root exactly when the title stage leaves one, and it does leave one as soon as a
root marker stands outside of all titles.

Main definitions:

* `CribSheet.Identity.piecesOutsideTitles` — what the title stage keeps of a text.

Main results:

* `CribSheet.Identity.isInfix_injectFooter_iff` — the attribution keeps the root;
* `CribSheet.Identity.isInfix_enforceTitle` — the title stage keeps a root outside of the titles;
* `CribSheet.PipelineOptions.hasRoot_iff_titled` — when a finished sheet has a root.
-/
import CribSheet.Proofs.Markup.Sighting
import CribSheet.Proofs.Math.Occurrence
import CribSheet.Proofs.Sheet.Chain

set_option relaxedAutoImplicit false
set_option autoImplicit false

namespace CribSheet

open CribSheet.Text CribSheet.Markup

/-! ### Commands that are not the word -/

namespace Markup

variable {w : Text} (hw : Solid w)

include hw

/-- A command holds no part of a word that starts with another letter. -/
theorem Sighting.isInfix_source_append_iff {s : Sighting} (hslash : '\\' ∉ s.name)
    (hhead : ∀ c ∈ s.name.head?, some c ≠ w.tail.head?) (hname : s.name ≠ []) (t : Text) :
    w <:+: s.source ++ t ↔ w <:+: t := by
  have hplain : '\\' ∉ s.name ++ if s.starred then ['*'] else [] := by
    rw [List.mem_append, not_or]
    refine ⟨hslash, ?_⟩
    split <;> decide
  rw [Sighting.source, List.cons_append, List.cons_append, List.infix_cons_iff,
    hw.isInfix_plain_append_iff hplain]
  refine or_iff_right fun hp => ?_
  cases w with
  | nil => exact hw.tail rfl
  | cons c w =>
      have hp := (List.cons_prefix_cons.1 hp).2
      cases w with
      | nil => exact hw.tail rfl
      | cons d w =>
          obtain ⟨e, name, he⟩ := List.exists_cons_of_ne_nil hname
          rw [he] at hp
          obtain ⟨rfl, -⟩ := List.cons_prefix_cons.1 hp
          exact hhead d (by rw [he]; rfl) rfl

/-- A command starts at a seam. -/
theorem Sighting.isInfix_append_source_iff (s : Sighting) (a t : Text) :
    w <:+: a ++ (s.source ++ t) ↔ w <:+: a ∨ w <:+: s.source ++ t := by
  refine isInfix_append_iff_of_head hw.ne_nil (fun c hc => ?_) a
  obtain rfl : '\\' = c := by simpa [source] using hc
  exact hw.slash

/-- Removing all commands of a name keeps the words that start with another letter. -/
theorem isInfix_result_removeAll {name : Text} (hslash : '\\' ∉ name)
    (hhead : ∀ c ∈ name.head?, some c ≠ w.tail.head?) (hname : name ≠ []) (escaped blank : Bool)
    (t : Text) (h : w <:+: t) :
    w <:+: (removeAll (commandFinder name) escaped blank t).result := by
  fun_induction removeAll (commandFinder name) escaped blank t with
  | case1 => exact h
  | case2 escaped blank t found hfound c hlen read ih =>
      obtain ⟨s, hs, rfl⟩ := Option.map_eq_some_iff.1 hfound
      obtain ⟨hn, hin⟩ := Sighting.isIn_find? hs
      obtain rfl : s.name = name := by simpa using hn
      obtain ⟨a, b, ha, hb, hbefore, -, hafter⟩ :=
        Cut.exists_wholeLines blank ⟨s.before, s.source, s.after⟩
      rw [Revision.result_cons, List.append_nil]
      rw [← hin.text_eq, Sighting.text, List.append_assoc, s.isInfix_append_source_iff hw] at h
      rcases h with h | h
      · have hc : w <:+: c.before := by
          change s.before = c.before ++ a at hbefore
          rw [hbefore] at h
          exact (isInfix_append_blank_iff hw.blank hw.ne_nil ha _).1 h
        exact List.infix_append_of_infix_left hc
      · have hrest := (s.isInfix_source_append_iff hw hslash hhead hname s.after).1 h
        change s.after = b ++ c.after at hafter
        rw [hafter, isInfix_blank_append_iff hw.blank hw.ne_nil hb] at hrest
        exact List.infix_append_of_infix_right (ih hrest)
  | case3 => exact h

end Markup

/-! ### The root marker -/

theorem solid_beginDocument : Solid beginDocument := by constructor <;> decide

/-- **Completion gives every text a root.** -/
theorem Skeleton.isInfix_complete (s : Skeleton) (t : Text) : beginDocument <:+: s.complete t := by
  rw [complete]
  split
  · next h => exact holds_iff_isInfix.1 h
  · refine ⟨s.preamble ++ ['\n'], '\n' :: t ++ '\n' :: endDocument ++ ['\n'], ?_⟩
    simp only [List.append_assoc, List.cons_append, List.nil_append]

namespace Identity

/-! ### The attribution -/

/-- The attribution stands on lines of its own. -/
theorem exists_footer (identity : Identity) : ∃ x, identity.footer = '\n' :: x ++ ['\n'] := by
  have hlines : ∀ a b m : Text, a.head? = some '\n' → b.getLast? = some '\n' →
      ∃ x, a ++ m ++ b = '\n' :: x ++ ['\n'] := by
    intro a b m ha hb
    obtain ⟨a, rfl⟩ := List.head?_eq_some_iff.1 ha
    obtain ⟨b, rfl⟩ := List.getLast?_eq_some_iff.1 hb
    exact ⟨a ++ m ++ b, by simp⟩
  exact hlines _ _ identity.attribution (by decide) (by decide)

/-- **The attribution keeps the root** and brings none, unless it holds one itself. -/
theorem isInfix_injectFooter_iff {identity : Identity} (h : ¬ beginDocument <:+: identity.footer)
    (t : Text) : beginDocument <:+: identity.injectFooter t ↔ beginDocument <:+: t := by
  have hw := solid_beginDocument
  -- The attribution starts and ends with a line break, which no marker holds.
  have hfooter : ∀ a b, beginDocument <:+: a ++ identity.footer ++ b ↔
      beginDocument <:+: a ∨ beginDocument <:+: b := by
    intro a b
    obtain ⟨x, hx⟩ := exists_footer identity
    have hsplit : a ++ identity.footer ++ b = (a ++ '\n' :: x) ++ '\n' :: b := by simp [hx]
    have hinner : ¬ beginDocument <:+: x := fun hm => by
      rw [hx] at h
      exact h (List.infix_append_of_infix_left (List.infix_cons hm))
    have hnewline : '\n' ∉ beginDocument := by decide
    rw [hsplit, isInfix_append_cons_iff_of_not_mem hnewline hw.ne_nil,
      isInfix_append_cons_iff_of_not_mem hnewline hw.ne_nil, or_iff_left hinner]
  rw [injectFooter]
  split
  · rfl
  · split
    · next before rest hcut =>
        rw [cutAt?_eq_append hcut, List.append_assoc _ endDocument, List.append_assoc _ endDocument,
          hfooter]
        exact (isInfix_append_cons_iff hw.slash before _).symm
    · have hnil := hfooter t []
      rw [List.append_nil] at hnil
      exact hnil.trans (or_iff_left fun hn => hw.ne_nil (List.infix_nil.1 hn))

/-! ### The title -/

/-- The edits that remove every title behind the first one. -/
def laterTitles (directive : Text) (c : Cut) : Revision :=
  removeAll titleFinder (escapedAfter false (c.before ++ directive))
    (blankLineAfter true (c.before ++ directive))
    ((after? directive (c.span ++ c.after)).getD c.after)

/-- What the title stage keeps of a text: the pieces between the title directives. -/
def piecesOutsideTitles (directive t : Text) : List Text :=
  match titleFinder false t with
  | none => [t]
  | some c =>
    c.before :: ((laterTitles directive c).edits.map Edit.kept ++ [(laterTitles directive c).rest])

theorem isInfix_result_of_kept {r : Revision} {piece : Text}
    (h : piece ∈ r.edits.map Edit.kept ++ [r.rest]) : piece <:+: r.result := by
  obtain ⟨edits, rest⟩ := r
  induction edits with
  | nil =>
      obtain rfl : piece = rest := by simpa using h
      simp [Revision.result]
  | cons e edits ih =>
      have hcons : Revision.result ⟨e :: edits, rest⟩ =
          e.kept ++ (e.inserted ++ Revision.result ⟨edits, rest⟩) := by
        simp [Revision.result]
      rw [hcons]
      rcases List.mem_cons.1 h with rfl | h
      · exact (List.prefix_append _ _).isInfix
      · exact List.infix_append_of_infix_right (List.infix_append_of_infix_right (ih h))

variable {directive t : Text}

/-- A place that is made for a title leaves the root where it is. -/
theorem isInfix_newTitlePlace (h : beginDocument <:+: t) :
    beginDocument <:+: (newTitlePlace t).before ++ directive ++ (newTitlePlace t).after := by
  rw [newTitlePlace]
  split
  · next s hs =>
      rw [← (Sighting.isIn_find? hs).2.text_eq, Sighting.text, List.append_assoc,
        s.isInfix_append_source_iff solid_beginDocument] at h
      rcases h with h | h
      · exact List.infix_append_of_infix_left (List.infix_append_of_infix_left h)
      · refine List.infix_append_of_infix_right ?_
        exact List.infix_cons h
  · obtain ⟨before, rest, hcut⟩ := exists_cutAt?_of_isInfix h
    rw [hcut]
    exact ⟨before, _, by simp only [List.append_assoc]; rfl⟩

/-- A root outside of all titles is there with the title in place. -/
theorem isInfix_placeTitle {piece : Text} (hp : piece ∈ piecesOutsideTitles directive t)
    (h : beginDocument <:+: piece) :
    beginDocument <:+: (placeTitle directive t).before ++ directive ++
      (placeTitle directive t).after := by
  rw [placeTitle]
  rw [piecesOutsideTitles] at hp
  split at hp
  · next hnone =>
      obtain rfl : piece = t := by simpa using hp
      rw [hnone]
      exact isInfix_newTitlePlace h
  · next c hsome =>
      rw [hsome]
      rcases List.mem_cons.1 hp with rfl | hp
      · exact List.infix_append_of_infix_left (List.infix_append_of_infix_left h)
      · exact List.infix_append_of_infix_right (h.trans (isInfix_result_of_kept hp))

/-- Neither taking away surplus commands nor putting one in cuts the root. -/
theorem isInfix_oneMaketitle {lead : Text} (place : TitlePlace)
    (h : beginDocument <:+: place.before ++ (lead ++ ['}']) ++ place.after) :
    beginDocument <:+: oneMaketitle (lead ++ ['}']) place := by
  have hw := solid_beginDocument
  simp only [oneMaketitle]
  split
  · next first hfirst =>
      obtain ⟨hn, hin⟩ := Sighting.isIn_find? hfirst
      have hname : first.name = maketitleName := by simpa using hn
      have hhead : ∀ c ∈ maketitleName.head?, some c ≠ beginDocument.tail.head? := by
        simp [maketitleName, beginDocument]
      rw [← hin.text_eq, Sighting.text, List.append_assoc, first.isInfix_append_source_iff hw] at h
      rcases h with h | h
      · exact List.infix_append_of_infix_left (List.infix_append_of_infix_left h)
      · rw [first.isInfix_source_append_iff hw (by rw [hname]; decide) (by rwa [hname])
          (by rw [hname]; decide)] at h
        refine List.infix_append_of_infix_right ?_
        exact isInfix_result_removeAll hw (by decide) hhead (by decide) _ _ _ h
  · obtain ⟨before, rest, hcut⟩ := exists_cutAt?_of_isInfix h
    rw [hcut]
    dsimp only
    split
    · exact ⟨before, _, by simp only [List.append_assoc]; rfl⟩
    · -- The brace that ends the directive is the last character of the marker at most.
      have hbrace : '}' ∉ beginDocument.dropLast := by decide
      have hsplit : place.before ++ (lead ++ ['}']) = place.before ++ lead ++ ['}'] := by simp
      rw [hsplit, isInfix_concat_append_iff hbrace] at h
      rw [hsplit, List.append_assoc]
      rcases h with h | h
      · exact List.infix_append_of_infix_left h
      · exact List.infix_append_of_infix_right (List.infix_append_of_infix_right h)

/-- **The title stage keeps a root outside of the titles.** -/
theorem isInfix_enforceTitle (identity : Identity) {topic piece : Text}
    (hp : piece ∈ piecesOutsideTitles (identity.titleDirective topic) t)
    (h : beginDocument <:+: piece) : beginDocument <:+: identity.enforceTitle topic t :=
  isInfix_oneMaketitle _ (isInfix_placeTitle hp h)

end Identity

/-! ### The finished sheet -/

namespace PipelineOptions

theorem isInfix_repair_iff {w : Text} (hw : Solid w) {options : MathOptions}
    (hv : '\\' ∉ options.variableName) (t : Text) : w <:+: options.repair t ↔ w <:+: t := by
  simp only [MathOptions.repair]
  split
  · split
    · rw [isInfix_isolateDisplayMath_iff hw, isInfix_ensureDifferential_iff hw hv]
    · exact isInfix_isolateDisplayMath_iff hw t
  · split
    · exact isInfix_ensureDifferential_iff hw hv t
    · rfl

theorem isInfix_endLine_iff {w : Text} (hw : Solid w) (t : Text) :
    w <:+: endLine t ↔ w <:+: t := by
  rw [endLine]
  split
  · rfl
  · exact isInfix_append_blank_iff hw.blank hw.ne_nil (by decide) t

/-- Behind the title stage nothing makes or breaks the root. -/
theorem isInfix_finish_iff {options : PipelineOptions}
    (hfooter : ¬ beginDocument <:+: options.identity.footer)
    (hv : '\\' ∉ options.math.variableName) (topic t : Text) :
    beginDocument <:+: options.finish topic t ↔
      beginDocument <:+: options.identity.enforceTitle topic (options.skeleton.complete t) := by
  rw [finish, isInfix_endLine_iff solid_beginDocument, isInfix_repair_iff solid_beginDocument hv,
    Identity.isInfix_injectFooter_iff hfooter]

/-- **When a finished sheet has a root**: exactly when the title stage leaves one of those that
completion has made sure of, and in any case when one stands outside of all titles. -/
theorem hasRoot_iff_titled {topic raw : Text} {d : Document}
    (h : ({} : PipelineOptions).document topic raw = .ok d) :
    let completed := ({} : Skeleton).complete (Payload.sanitize raw)
    let directive := ({} : Identity).titleDirective topic
    beginDocument <:+: completed ∧
      (d.hasRoot = true ↔ beginDocument <:+: ({} : Identity).enforceTitle topic completed) ∧
      ((∃ piece ∈ Identity.piecesOutsideTitles directive completed, beginDocument <:+: piece) →
        d.hasRoot = true) := by
  intro completed directive
  have hfooter : ¬ beginDocument <:+: ({} : Identity).footer := by
    rw [← holds_iff_isInfix]
    decide
  obtain ⟨-, rfl⟩ := document_eq_ok_iff.1 h
  have hiff : Document.hasRoot ⟨({} : PipelineOptions).finish topic (Payload.sanitize raw)⟩ = true ↔
      beginDocument <:+: ({} : Identity).enforceTitle topic completed := by
    rw [Document.hasRoot, holds_iff_isInfix]
    exact isInfix_finish_iff hfooter (by decide) topic (Payload.sanitize raw)
  refine ⟨Skeleton.isInfix_complete _ _, hiff, ?_⟩
  rintro ⟨piece, hp, hpiece⟩
  exact hiff.2 (Identity.isInfix_enforceTitle _ hp hpiece)

/-- A root marker in a title does no harm to the one behind it. -/
theorem hasRoot_of_root_behind_title :
    ∃ d, ({} : PipelineOptions).document ['T']
        ("\\title\x7bA \\begin\x7bdocument\x7d\x7d\n" ++
          "\\begin\x7bdocument\x7dx").toList = .ok d ∧
      d.hasRoot = true := by
  rewrite [String.toList_append, String.toList_ofList, String.toList_ofList]
  refine ⟨_, document_eq_ok_iff.2 ⟨by decide +kernel, rfl⟩, ?_⟩
  refine (hasRoot_iff_titled (document_eq_ok_iff.2 ⟨by decide +kernel, rfl⟩)).2.2
    ⟨'\n' :: beginDocument ++ ['x'], by decide +kernel, ?_⟩
  exact ⟨['\n'], ['x'], rfl⟩

/-- The brace of this title never closes, so that its argument runs over the root marker on the same
line, and the marker is lost with it. -/
theorem hasRoot_eq_false_of_root_in_title :
    ∃ d, ({} : PipelineOptions).document ['T']
        ("\\title\x7bVectores \\begin\x7bdocument\x7d\n" ++
          "Texto\n\\end\x7bdocument\x7d").toList = .ok d ∧
      d.hasRoot = false := by
  rewrite [String.toList_append, String.toList_ofList, String.toList_ofList]
  exact ⟨_, document_eq_ok_iff.2 ⟨by decide +kernel, rfl⟩, by decide +kernel⟩

end PipelineOptions

end CribSheet
