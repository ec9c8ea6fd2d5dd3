/-
The skeleton of a sheet and sanitizing.

Sanitizing a text with the skeleton in front leaves the skeleton there.  Its lines are no noise and no
sentinel, it starts and ends with characters that are no blanks, and its imports are none of the
package that is dropped.  The other forbidden commands stand behind it, and so what is edited does, too.

Main definitions:

* `CribSheet.Skeleton.Led` — the text is the skeleton or begins with it.

Main results:

* `CribSheet.Skeleton.Led.dropNoiseLines`, `CribSheet.Skeleton.Led.removeDirectives` — the steps;
* `CribSheet.Skeleton.Led.sanitize` — sanitizing leaves the skeleton in front.
-/
import CribSheet.Proofs.Payload.GentlePass
import CribSheet.Proofs.Payload.OtherImport
import CribSheet.Proofs.Sheet.Lead

set_option relaxedAutoImplicit false
set_option autoImplicit false

namespace CribSheet

open CribSheet.Text CribSheet.Markup CribSheet.Payload

namespace Skeleton

/-- The text is the skeleton or begins with it. -/
def Led (t : Text) : Prop := t = lead ∨ Leads t

theorem Led.of_append {r : Text} (h : ∀ c ∈ r.head?, c = '\n') : Led (lead ++ r) := by
  cases r with
  | nil => exact Or.inl (List.append_nil lead)
  | cons c r =>
      obtain rfl := h c rfl
      exact Or.inr ⟨r, rfl⟩

theorem Led.isInfix {t : Text} (h : Led t) : beginDocument <:+: t := by
  have hlead : beginDocument <:+: lead := ⟨({} : Skeleton).preamble ++ ['\n'], [], by simp [lead]⟩
  rcases h with rfl | ⟨x, rfl⟩
  · exact hlead
  · exact List.infix_append_of_infix_left hlead

theorem Led.before {t before w rest : Text} (h : Led t) (hw : w ∈ strangers)
    (ht : t = before ++ (w ++ rest)) : Leads before := by
  rcases h with rfl | h
  · exact absurd ⟨before, rest, by rw [ht, List.append_assoc]⟩ (not_isInfix_lead hw)
  · exact h.before hw ht

/-! ### Blanks and lines -/

/-- The skeleton starts with a backslash and ends with a brace. -/
theorem exists_lead : ∃ x, lead = '\\' :: x ++ ['}'] := ⟨_, lead_facts.2.2.1⟩

theorem Led.exists_cons {t : Text} (h : Led t) : ∃ x, t = '\\' :: x := by
  obtain ⟨x, hx⟩ := exists_lead
  rcases h with rfl | ⟨y, rfl⟩
  · exact ⟨x ++ ['}'], hx⟩
  · exact ⟨x ++ ['}'] ++ '\n' :: y, by rw [hx]; simp⟩

theorem Led.trim {t : Text} (h : Led t) : Led t.trim := by
  have hslash : isBlank '\\' = false := by decide
  have hbrace : isBlank '}' = false := by decide
  obtain ⟨x, hx⟩ := exists_lead
  have htrim : ∀ r, Text.trim (lead ++ r) = lead ++ r.dropEndWhile isBlank := by
    intro r
    have hstart : Text.trimStart (lead ++ r) = lead ++ r := by
      have h := trimStart_append_cons hslash [] (x ++ ['}'] ++ r)
      rw [hx]
      simpa [Text.trimStart] using h
    have hend := dropEndWhile_append_cons hbrace ('\\' :: x) r
    rw [Text.trim, hstart, trimEnd, hx]
    simpa using hend
  have hled : ∀ r, (∀ c ∈ r.head?, c = '\n') → Led (Text.trim (lead ++ r)) := by
    intro r hr
    rw [htrim]
    refine Led.of_append fun c hc => ?_
    obtain ⟨z, hz⟩ := dropEndWhile_isPrefix isBlank r
    cases hcons : r.dropEndWhile isBlank with
    | nil =>
        rw [hcons] at hc
        simp at hc
    | cons d r' =>
        rw [hcons] at hc hz
        obtain rfl : d = c := by simpa using hc
        exact hr d (by rw [← hz]; rfl)
  rcases h with rfl | ⟨y, rfl⟩
  · have hnil := hled [] (by simp)
    rwa [List.append_nil] at hnil
  · exact hled ('\n' :: y) (by simp)

/-- The first line of the skeleton is no sentinel. -/
theorem Led.stripSentinel {t : Text} (h : Led t) : Payload.stripSentinel t = t := by
  obtain ⟨x, rfl⟩ := h.exists_cons
  refine (stripSentinel_eq_self_iff _).2 fun hs => ?_
  have hfirst : (firstLine ('\\' :: x)).1 = '\\' :: x.takeWhile (· ≠ '\n') := by
    simp [firstLine]
  have hend := dropEndWhile_append_cons (p := isBlank) (by decide : isBlank '\\' = false) []
    (x.takeWhile (· ≠ '\n'))
  rw [hfirst, trimEnd] at hs
  rw [List.nil_append, List.nil_append] at hend
  rw [hend] at hs
  exact absurd (List.cons.inj hs).1 (by decide)

theorem Led.dropByteOrderMarks {t : Text} (h : Led t) : Led (Payload.dropByteOrderMarks t) := by
  have hlead : Payload.dropByteOrderMarks lead = lead := lead_facts.2.2.2.1
  rcases h with rfl | ⟨y, rfl⟩
  · rw [hlead]
    exact Or.inl rfl
  · refine Or.inr ⟨Payload.dropByteOrderMarks y, ?_⟩
    have happend : Payload.dropByteOrderMarks (lead ++ '\n' :: y) =
        Payload.dropByteOrderMarks lead ++ '\n' :: Payload.dropByteOrderMarks y := by
      simp [Payload.dropByteOrderMarks]
    rw [happend, hlead]

/-- **No line of the skeleton is noise.** -/
theorem Led.dropNoiseLines {t : Text} (h : Led t) : Led (Payload.dropNoiseLines t) := by
  have hlead : Payload.dropNoiseLines lead = lead := lead_facts.2.2.2.2.1
  rcases h with rfl | ⟨y, rfl⟩
  · rw [hlead]
    exact Or.inl rfl
  · obtain ⟨before, l, hsplit, hjoin⟩ := exists_splitOn_eq_concat '\n' lead
    have hkept : lead.lines.filter (fun line => !isNoiseLine line) = lead.lines :=
      List.filter_eq_self.2 fun line hline => by
        simp [(dropNoiseLines_eq_self_iff lead).1 hlead line hline]
    have hkeptLines : keptLines (lead ++ '\n' :: y).lines = before ++ l :: keptLines (splitOn '\n' y) := by
      rw [lines_append_break, keptLines_append, keptLines, hkept, lines, lines, hsplit]
      simp
    change Led (unlines (keptLines (lead ++ '\n' :: y).lines))
    rw [hkeptLines, unlines, joinWith_append_cons, ← hjoin]
    refine Led.of_append fun c hc => ?_
    cases hcons : keptLines (splitOn '\n' y) with
    | nil => simp [hcons] at hc
    | cons line more => simpa [hcons, eq_comm] using hc

/-! ### Directives -/

/-- **A forbidden command that is no import stands behind the skeleton.** -/
theorem Led.revise {t : Text} (h : Led t) {d : Directive} (hd : '\\' :: d.name ∈ strangers)
    (blank : Bool) : Led (d.revise false blank t).result := by
  rcases d.result_revise_cases false blank t with ⟨-, heq⟩ | ⟨s, z, hs, heq⟩
  · rwa [heq]
  · obtain ⟨hname, hin⟩ := Sighting.isIn_find? hs
    have hname : s.name = d.name := by simpa using hname
    have hbefore : Leads s.before := by
      have htext : t = s.before ++ ('\\' :: d.name ++ ((if s.starred then ['*'] else []) ++ s.after)) := by
        rw [← hin.text_eq, Sighting.text, Sighting.source, hname]
        simp
      exact h.before hd htext
    rcases heq with heq | heq
    · rw [heq]
      exact Or.inr (hbefore.append z)
    · obtain ⟨x, hx⟩ := hbefore
      obtain ⟨x', hx'⟩ := lastLine_append_cons lead x
      rw [heq, hx, hx']
      exact Or.inr ⟨x' ++ z, by simp⟩

theorem Led.eq_append {t : Text} (h : Led t) : ∃ r, (∀ c ∈ r.head?, c = '\n') ∧ t = lead ++ r := by
  rcases h with rfl | ⟨x, rfl⟩
  · exact ⟨[], by simp, (List.append_nil lead).symm⟩
  · exact ⟨'\n' :: x, by simp, rfl⟩

/-- **The imports of the skeleton stay.** -/
theorem Led.revise_import {t : Text} (h : Led t) {d : Directive} {package : Text}
    (hd : d.removal = .package package) (hne : d.name ≠ []) (hname : ∀ c ∈ d.name, isLetter c = true)
    (hlines : ∀ line ∈ lead.lines, keepsLine d.name package line = true)
    (hfirst : ∀ line ∈ lead.lines.head?,
      Sighting.find? [d.name] false line = none ∧ escapedAfter false line = false)
    (blank : Bool) : Led (d.revise false blank t).result := by
  obtain ⟨r, hr, rfl⟩ := h.eq_append
  obtain ⟨first, rows, hsplit, hlead⟩ := exists_splitOn_eq_cons '\n' lead
  obtain ⟨hnone, hfresh⟩ := hfirst first (by rw [lines, hsplit]; rfl)
  obtain ⟨r', hr', heq⟩ := result_revise_trailJoin hd hne hname
    (fun line hline => hlines line (by rw [lines, hsplit]; exact List.mem_cons_of_mem _ hline))
    hnone hfresh hr blank
  rw [← hlead] at heq
  rw [heq]
  exact Led.of_append hr'

/-- **No forbidden directive takes the skeleton away.** -/
theorem Led.removeDirectives {t : Text} (h : Led t) :
    Led (Payload.removeDirectives Directive.forbidden t) := by
  have himport : ∀ t, Led t →
      Led ((Directive.mk "usepackage".toList (.package "titlesec".toList)).revise false true t).result :=
    fun t ht => ht.revise_import rfl (by decide) (by decide)
      (by rw [lead_eq_letters]; decide +kernel) (by rw [lead_eq_letters]; decide +kernel) true
  have hrows : ∀ d ∈ Directive.forbidden.tail, '\\' :: d.name ∈ strangers := by decide
  have htail : ∀ table : List Directive, (∀ d ∈ table, '\\' :: d.name ∈ strangers) →
      ∀ t, Led t → Led (Payload.removeDirectives table t) := by
    intro table htable
    induction table with
    | nil => exact fun t ht => ht
    | cons d table ih =>
        obtain ⟨hd, htable⟩ := List.forall_mem_cons.1 htable
        exact fun t ht => ih htable _ (ht.revise hd true)
  exact htail _ hrows _ (himport t h)

/-! ### Passes -/

theorem Led.pass {t : Text} (h : Led t) (hreturn : '\r' ∉ t) : Led (pass Directive.forbidden t) := by
  have hmarks := h.dropByteOrderMarks
  have hbreak : (Payload.dropByteOrderMarks t).contains '\n' = true := by
    obtain ⟨r, -, hr⟩ := hmarks.eq_append
    have hlead : '\n' ∈ lead := by simp [lead]
    rw [hr, List.contains_iff_mem]
    exact List.mem_append_left _ hlead
  rw [pass_eq_tidyBreaks hreturn, tidyBreaks, hbreak]
  simp only [Bool.not_true, Bool.false_and, Bool.false_eq_true, if_false]
  change Led (Payload.stripSentinel (Text.trim (Payload.dropNoiseLines
    (Payload.removeDirectives Directive.forbidden (Payload.dropByteOrderMarks t)))))
  have htrimmed := hmarks.removeDirectives.dropNoiseLines.trim
  rwa [htrimmed.stripSentinel]

/-- **Sanitizing leaves the skeleton in front.** -/
theorem Led.sanitize {t : Text} (h : Led t) (hreturn : '\r' ∉ t) : Led (Payload.sanitize t) := by
  obtain ⟨n, -, -, hsanitize⟩ := exists_stopsAfter_sanitizeWith Directive.forbidden t
  rw [Payload.sanitize, hsanitize]
  clear hsanitize
  induction n generalizing t with
  | zero => exact h
  | succ n ih =>
      rw [Function.iterate_succ_apply]
      exact ih (h.pass hreturn) (not_mem_pass _ t)

end Skeleton

end CribSheet
