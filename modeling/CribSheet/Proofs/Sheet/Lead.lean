/-
The skeleton in front of a sheet.

A fragment that is completed is given a preamble and a root marker in front.  No stage takes them away
again: nothing in them is a title, an integral, a formula, or a directive that is forbidden, and no
such thing starts in them and ends behind them, since a line break follows.

Main definitions:

* `CribSheet.Skeleton.lead` — the preamble and the root marker;
* `CribSheet.Skeleton.letters` — the preamble letter by letter;
* `CribSheet.Skeleton.Leads` — a text begins with them.

Main results:

* `CribSheet.Skeleton.Leads.before` — what a text with them in front has in front of another word;
* `CribSheet.Skeleton.leads_complete`, `CribSheet.Skeleton.Leads.enforceTitle`,
  `CribSheet.Skeleton.Leads.write` — the stages behind sanitizing.
-/
import CribSheet.Proofs.Sheet.Placing
import CribSheet.Proofs.Sheet.Writing

set_option relaxedAutoImplicit false
set_option autoImplicit false

namespace CribSheet

open CribSheet.Text CribSheet.Markup CribSheet.Identity CribSheet.PipelineOptions

namespace Text

/-- The first occurrence in a text is the first one in a longer text. -/
theorem cutAt?_append {piece t before rest : Text} (h : cutAt? piece t = some (before, rest))
    (r : Text) : cutAt? piece (t ++ r) = some (before, rest ++ r) := by
  induction t generalizing before with
  | nil =>
      obtain ⟨rest', hrest, he⟩ := Option.map_eq_some_iff.1 h
      obtain ⟨rfl, rfl⟩ := Prod.mk.inj he
      have ht := after?_eq_some_iff.1 hrest
      obtain ⟨rfl, rfl⟩ := List.append_eq_nil_iff.1 ht.symm
      cases r <;> rfl
  | cons c t ih =>
      rw [cutAt?] at h
      rw [List.cons_append, cutAt?]
      cases hafter : after? piece (c :: t) with
      | some rest' =>
          rw [hafter] at h
          obtain ⟨rfl, rfl⟩ := Prod.mk.inj (Option.some.inj h)
          have ht := after?_eq_some_iff.1 hafter
          have hlonger : after? piece (c :: (t ++ r)) = some (rest' ++ r) := by
            rw [after?_eq_some_iff, ← List.append_assoc, ← ht]
            rfl
          rw [hlonger]
      | none =>
          rw [hafter] at h
          obtain ⟨⟨b, rest'⟩, hcut, he⟩ := Option.map_eq_some_iff.1 h
          obtain ⟨rfl, rfl⟩ := Prod.mk.inj he
          have hlonger : after? piece (c :: (t ++ r)) = none := by
            cases hsome : after? piece (c :: (t ++ r)) with
            | none => rfl
            | some rest'' =>
                -- The piece is no longer than what it occurs in further on.
                have hlength := congrArg List.length (cutAt?_eq_append hcut)
                have hlonger : piece <+: (c :: t) ++ r := ⟨rest'', (after?_eq_some_iff.1 hsome).symm⟩
                have hprefix : piece <+: c :: t :=
                  List.prefix_of_prefix_length_le hlonger (List.prefix_append _ _) (by
                    simp only [List.length_append, List.length_cons] at hlength ⊢
                    omega)
                obtain ⟨z, hz⟩ := hprefix
                rw [after?_eq_some_iff.2 hz.symm] at hafter
                simp at hafter
          rw [hlonger]
          simp [ih hcut]

end Text

namespace Skeleton

/-- The preamble and the root marker, as they stand in front of a completed fragment. -/
def lead : Text := ({} : Skeleton).preamble ++ '\n' :: beginDocument

theorem languageLine_spanish (s : Skeleton) (h : s.language = "spanish".toList) :
    s.languageLine = "\\usepackage[".toList ++ "spanish, es-tabla".toList ++ "]\x7bbabel\x7d\n".toList := by
  unfold languageLine
  simp only
  rw [if_pos h]

/-- The preamble with its strings spelled out, since the kernel is slow at decoding them. -/
def spelled : { l : Text // ({} : Skeleton).preamble = l } :=
  ⟨_, by
    unfold preamble
    rewrite [languageLine_spanish {} rfl]
    repeat rewrite [String.toList_append]
    repeat rewrite [String.toList_ofList]
    rfl⟩

/-- The letters of the preamble. -/
def letters : Text := spelled.1

theorem preamble_eq_letters : ({} : Skeleton).preamble = letters := spelled.2

theorem lead_eq_letters : lead = letters ++ '\n' :: beginDocument := by
  rw [lead, preamble_eq_letters]

/-- **The text begins with the skeleton**, on lines of its own. -/
def Leads (t : Text) : Prop := ∃ x, t = lead ++ '\n' :: x

theorem Leads.append {t : Text} (h : Leads t) (z : Text) : Leads (t ++ z) := by
  obtain ⟨x, rfl⟩ := h
  exact ⟨x ++ z, by simp⟩

/-- What the stages look for, apart from imports. -/
def strangers : List Text :=
  ['\\' :: titleName, maketitle, endDocument, ['\\', '['], ['$', '$']] ++
    integralNames.map (fun name => '\\' :: name) ++
    ["\\RequirePackage".toList, "\\titleformat".toList, "\\titlespacing".toList]

/-- What the letters of the skeleton are looked through for, all in one evaluation. -/
theorem lead_facts :
    (∀ w ∈ strangers, holds w lead = false) ∧
      cutAt? beginDocument lead = some (({} : Skeleton).preamble ++ ['\n'], []) ∧
      lead = '\\' :: lead.tail.dropLast ++ ['}'] ∧ Payload.dropByteOrderMarks lead = lead ∧
      Payload.dropNoiseLines lead = lead ∧ '\r' ∉ ({} : Skeleton).preamble := by
  rw [lead_eq_letters, preamble_eq_letters]
  decide +kernel

theorem not_isInfix_lead {w : Text} (hw : w ∈ strangers) : ¬ w <:+: lead := by
  rw [← holds_iff_isInfix, lead_facts.1 w hw]
  simp

/-- **What stands in front of another word** in a text with the skeleton in front begins with the
skeleton, too. -/
theorem Leads.before {t before w rest : Text} (h : Leads t) (hw : w ∈ strangers)
    (ht : t = before ++ (w ++ rest)) : Leads before := by
  obtain ⟨x, rfl⟩ := h
  have hnewline : '\n' ∉ w := (by decide : ∀ w ∈ strangers, '\n' ∉ w) w hw
  have hne : w ≠ [] := (by decide : ∀ w ∈ strangers, w ≠ []) w hw
  rcases List.append_eq_append_iff.1 ht with ⟨z, rfl, hz⟩ | ⟨z, hlead, hz⟩
  · cases z with
    | nil =>
        obtain ⟨c, w, rfl⟩ := List.exists_cons_of_ne_nil hne
        exact absurd ((List.cons.inj hz).1 ▸ List.mem_cons_self) hnewline
    | cons c z =>
        obtain ⟨rfl, -⟩ := List.cons.inj hz
        exact ⟨z, rfl⟩
  · rcases List.append_eq_append_iff.1 hz with ⟨z', hz', -⟩ | ⟨z', hw', hz'⟩
    · exact absurd ⟨before, z', by rw [hlead, hz', List.append_assoc]⟩ (not_isInfix_lead hw)
    · cases z' with
      | nil =>
          refine absurd ⟨before, [], ?_⟩ (not_isInfix_lead hw)
          rw [hlead, hw']
          simp
      | cons c z' =>
          obtain ⟨rfl, -⟩ := List.cons.inj hz'
          exact absurd (hw' ▸ by simp) hnewline

/-! ### The stages behind sanitizing -/

/-- A completed fragment begins with the skeleton. -/
theorem leads_complete {t : Text} (h : ¬ beginDocument <:+: t) :
    Leads (({} : Skeleton).complete t) := by
  rw [complete, if_neg (by rwa [holds_iff_isInfix])]
  exact ⟨t ++ '\n' :: endDocument ++ ['\n'], by simp [lead]⟩

theorem cutAt?_lead (r : Text) :
    cutAt? beginDocument (lead ++ r) = some (({} : Skeleton).preamble ++ ['\n'], r) :=
  cutAt?_append lead_facts.2.1 r

theorem Leads.before_sighting {t : Text} {names : List Text} {s : Sighting} (h : Leads t)
    (hnames : ∀ name ∈ names, '\\' :: name ∈ strangers)
    (hs : Sighting.find? names false t = some s) : Leads s.before := by
  obtain ⟨hname, hin⟩ := Sighting.isIn_find? hs
  have htext : t = s.before ++ ('\\' :: s.name ++ ((if s.starred then ['*'] else []) ++ s.after)) := by
    rw [← hin.text_eq, Sighting.text, Sighting.source]
    simp
  exact h.before (hnames _ hname) htext

theorem Leads.before_placeTitle {t : Text} (h : Leads t) (directive : Text) :
    Leads (placeTitle directive t).before := by
  rw [placeTitle]
  split
  · next c hc =>
      obtain ⟨s, hs, rfl⟩ := titleFinder_eq_some hc
      exact h.before_sighting (by decide) hs
  · rw [newTitlePlace]
    split
    · next s hs => exact h.before_sighting (by decide) hs
    · obtain ⟨x, rfl⟩ := h
      rw [cutAt?_lead]
      exact ⟨[], by simp [lead]⟩

/-- **The title stage leaves the skeleton in front.** -/
theorem Leads.enforceTitle {t : Text} (h : Leads t) (identity : Identity) (topic : Text) :
    Leads (identity.enforceTitle topic t) := by
  have hbefore := h.before_placeTitle (identity.titleDirective topic)
  rw [Identity.enforceTitle, titleDirective_eq] at *
  rcases oneMaketitle_cases (y := identity.titlePayload topic)
    (placeTitle (plainTitle (identity.titlePayload topic)) t) with ⟨s, blank, hs, heq⟩ | ⟨-, w, b, -, -, heq⟩
  · have hfilled : Leads ((placeTitle (plainTitle (identity.titlePayload topic)) t).filled
        (identity.titlePayload topic)) := (hbefore.append _).append _
    rw [heq]
    exact ((hfilled.before_sighting (by decide) hs).append _).append _
  · rw [heq]
    exact (((hbefore.append _).append _).append _).append _

theorem Leads.injectFooter {t : Text} (h : Leads t) (identity : Identity) :
    Leads (identity.injectFooter t) := by
  rcases identity.injectFooter_cases t with ⟨-, heq⟩ | ⟨-, before, rest, ht, heq⟩ | ⟨-, heq⟩
  · rwa [heq]
  · rw [heq]
    exact (h.before (by decide) ht).append _
  · rw [heq]
    exact h.append _

theorem Leads.ensureDifferential {t : Text} (h : Leads t) (variableName : Text) :
    Leads (ensureDifferential variableName t) := by
  change Leads ((Integral.scan false t).1.flatMap (Integral.repaired variableName) ++
    (Integral.scan false t).2)
  rw [Integral.scan.eq_def]
  split
  · exact h
  · next s hs =>
      obtain ⟨z, hz⟩ := Integral.repaired_eq_append variableName
        ⟨s.before, s.source, (formulaSpan s.after).1⟩
      simp only [List.flatMap_cons, hz]
      exact ((((h.before_sighting (by decide) hs).append _).append _).append _).append _

theorem Leads.isolateDisplayMath {t : Text} (h : Leads t) : Leads (isolateDisplayMath t) := by
  rcases isolateDisplayMath_cases t with heq | ⟨first, regions, rest, hfenced, ht, heq⟩
  · rwa [heq]
  · have hopening : first.opening ∈ strangers := by
      rcases hfenced first List.mem_cons_self with ⟨ho, -⟩ | ⟨ho, -⟩ <;> rw [ho] <;> decide
    have hsplit : t = first.before ++ (first.opening ++
        (first.content ++ first.closing ++ (regions.flatMap DisplayRegion.source ++ rest))) := by
      rw [ht, List.flatMap_cons, DisplayRegion.source]
      simp
    obtain ⟨x, hx⟩ := h.before hopening hsplit
    obtain ⟨z, -, hisolated⟩ := DisplayRegion.exists_isolated first.before first
    have hgap : Leads (dropEndWhile isGap first.before) :=
      ⟨dropEndWhile isGap x, by rw [hx, dropEndWhile_append_cons (by decide)]⟩
    rw [heq, hisolated]
    exact (((((hgap.append _).append _).append _).append _).append _).append _

/-- **The stages behind the title stage leave the skeleton in front.** -/
theorem Leads.write {t : Text} (h : Leads t) : Leads (({} : PipelineOptions).write t) := by
  obtain ⟨x, -, hend⟩ := exists_endLine (CribSheet.isolateDisplayMath
    (CribSheet.ensureDifferential ({} : MathOptions).variableName (({} : Identity).injectFooter t)))
  rw [write_eq, hend]
  exact ((h.injectFooter _).ensureDifferential _).isolateDisplayMath.append x

end Skeleton

end CribSheet
