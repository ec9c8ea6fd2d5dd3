/-
Sheets that are read again.

A payload is sanitized and completed with the skeleton.  What comes out is itself a payload, and reading
it once more must not take anything out of it.  Sanitizing sees three parts: the front of the skeleton,
the sanitized fragment, and the end of the skeleton.  Lines and commands stand in one of the parts, and
none of them is noise there; the one thing that reaches from part to part is an import at the end of the
fragment, and it finds no further argument behind it.  So only the blanks around the text go, which is
the line break at its end.

Main definitions:

* `CribSheet.Skeleton.wrapped` — a fragment between the front and the end of the skeleton.

Main results:

* `CribSheet.Skeleton.isIn_wrapped` — a command stands in one of the three parts;
* `CribSheet.Skeleton.not_findsPackage_wrapped` — wrapping a sanitized fragment brings no package for
  headings;
* `CribSheet.Skeleton.sanitize_wrapped` — sanitizing a wrapped sanitized fragment only trims it;
* `CribSheet.normalization_rereads` — **reading a sheet again only trims it**.
-/
import CribSheet.Proofs.Sheet.Ending
import CribSheet.Proofs.Sheet.LeadSanitized
import CribSheet.Publish.Format
import Mathlib.Data.List.Infix

set_option relaxedAutoImplicit false
set_option autoImplicit false

namespace CribSheet

open CribSheet.Text CribSheet.Markup CribSheet.Payload

namespace Skeleton

/-! ### The three parts -/

/-- A fragment between the front and the end of the skeleton, with blanks behind. -/
def wrapped (fragment w : Text) : Text := lead ++ '\n' :: (fragment ++ ending w)

theorem complete_eq_wrapped {t : Text} (h : ¬ beginDocument <:+: t) :
    ({} : Skeleton).complete t = wrapped t ['\n'] := by
  rw [complete, if_neg (by rwa [holds_iff_isInfix])]
  simp [wrapped, lead, ending]

theorem escapedAfter_lead : escapedAfter false lead = false := by
  obtain ⟨x, hx⟩ := exists_lead
  rw [hx]
  exact escapedAfter_concat (by decide) false _

/-- **A command stands in one of the three parts** of a wrapped fragment. -/
theorem isIn_wrapped {s : Sighting} {fragment w : Text} (hname : ∀ c ∈ s.name, isLetter c = true)
    (h : s.IsIn false (wrapped fragment w)) :
    (∃ s' : Sighting, s = s'.within [] ('\n' :: (fragment ++ ending w)) ∧ s'.IsIn false lead) ∨
      (∃ s' : Sighting, s = s'.within (lead ++ ['\n']) (ending w) ∧ s'.IsIn false fragment) ∨
      ∃ (s' : Sighting) (escaped : Bool), s'.name = s.name ∧ s'.IsIn escaped (ending w) := by
  rcases Nat.lt_or_ge s.before.length lead.length with hlen | hlen
  · exact Or.inl (h.exists_front hname (endsName_newline _) hlen)
  · obtain ⟨s₁, rfl, h₁⟩ := h.exists_within hlen
    rw [escapedAfter_lead] at h₁
    obtain ⟨s₂, rfl, h₂⟩ := Sighting.IsIn.exists_within_plain (x := ['\n']) (by decide) h₁
    rcases Nat.lt_or_ge s₂.before.length fragment.length with hlen | hlen
    · obtain ⟨s₃, rfl, h₃⟩ := h₂.exists_front hname (endsName_newline _) hlen
      exact Or.inr (Or.inl ⟨s₃, by simp [Sighting.within], h₃⟩)
    · obtain ⟨s₃, rfl, h₃⟩ := h₂.exists_within hlen
      exact Or.inr (Or.inr ⟨s₃, _, rfl, h₃⟩)

/-! ### Directives -/

/-- The imports that the table goes through. -/
def importCommands : List Text := ["usepackage".toList, "RequirePackage".toList]

/-- Every import in the front of the skeleton is one without the package for headings. -/
theorem importsOthers_of_isIn_lead {s : Sighting} (hname : s.name ∈ importCommands)
    (h : s.IsIn false lead) : importsOthers "titlesec".toList s.after = true := by
  have hlead : ∀ name ∈ importCommands, ∀ rest ∈ lead.tails, ∀ arguments ∈ after? ('\\' :: name) rest,
      importsOthers "titlesec".toList arguments = true := by
    have hspelled : importCommands = [['u', 's', 'e', 'p', 'a', 'c', 'k', 'a', 'g', 'e'],
      ['R', 'e', 'q', 'u', 'i', 'r', 'e', 'P', 'a', 'c', 'k', 'a', 'g', 'e']] := by decide
    rw [lead_eq_letters, hspelled]
    decide +kernel
  obtain ⟨htext, -, -⟩ := h
  obtain ⟨before, name, starred, after⟩ := s
  have hothers := hlead name hname ('\\' :: name ++ ((if starred then ['*'] else []) ++ after))
    ((List.mem_tails _ _).2 ⟨before, by rw [← htext]; simp [Sighting.text, Sighting.source]⟩)
    ((if starred then ['*'] else []) ++ after) (after?_append _ _)
  cases starred with
  | true => simp [importsOthers] at hothers
  | false => exact hothers

/-- **Wrapping a sanitized fragment brings no package for headings.** -/
theorem not_findsPackage_wrapped {fragment w : Text} (hf : Sanitized fragment) (hw : w = [] ∨ w = ['\n'])
    {s : Sighting} (hname : s.name ∈ importCommands) (h : s.IsIn false (wrapped fragment w)) :
    ¬ FindsPackage "titlesec".toList s.after := by
  have hletters : ∀ c ∈ s.name, isLetter c = true :=
    (by decide : ∀ name ∈ importCommands, ∀ c ∈ name, isLetter c = true) s.name hname
  rcases isIn_wrapped hletters h with ⟨s', rfl, h'⟩ | ⟨s', rfl, h'⟩ | ⟨s', escaped, hsame, h'⟩
  · refine (dropPackage?_eq_none_iff (by decide) _).1 ?_
    exact dropPackage?_append (importsOthers_of_isIn_lead (s := s') hname h') rfl
  · have hblank : isBlankText w = true := by rcases hw with rfl | rfl <;> rfl
    have hsolid : EndsSolid s'.after :=
      EndsSolid.of_suffix ((trim_eq_self_iff _).1 hf.trimmed).2
        ⟨s'.before ++ s'.source, h'.text_eq⟩
    have hnone : ¬ FindsPackage "titlesec".toList s'.after := hf.not_findsPackage hname h'
    exact fun hfinds => hnone (findsPackage_of_append_ending hblank hsolid hfinds)
  · have hnone : ∀ escaped, Sighting.find? importCommands escaped (ending w) = none := by
      rcases hw with rfl | rfl <;> decide
    exact absurd h' (Sighting.find?_eq_none_iff.1 (hnone escaped) s' (hsame ▸ hname))

/-- Wrapping a sanitized fragment brings no command that changes the layout of headings. -/
theorem find?_wrapped {fragment w : Text} (hf : Sanitized fragment) (hw : w = [] ∨ w = ['\n'])
    {name : Text} (hname : name ∈ ["titleformat".toList, "titlespacing".toList]) :
    Sighting.find? [name] false (wrapped fragment w) = none := by
  have hletters : ∀ c ∈ name, isLetter c = true :=
    (by decide : ∀ name ∈ ["titleformat".toList, "titlespacing".toList], ∀ c ∈ name, isLetter c = true)
      name hname
  have hlead : Sighting.find? [name] false lead = none := by
    have hstrange : '\\' :: name ∈ strangers :=
      (by decide : ∀ name ∈ ["titleformat".toList, "titlespacing".toList], '\\' :: name ∈ strangers)
        name hname
    refine Sighting.find?_eq_none_iff.2 fun s hs h => not_isInfix_lead hstrange ?_
    rw [← h.text_eq, ← List.mem_singleton.1 hs]
    exact ⟨s.before, (if s.starred then ['*'] else []) ++ s.after, by simp [Sighting.text, Sighting.source]⟩
  have hend : ∀ escaped, Sighting.find? [name] escaped (ending w) = none := by
    rcases hw with rfl | rfl
    · exact (by decide : ∀ name ∈ ["titleformat".toList, "titlespacing".toList], ∀ escaped,
        Sighting.find? [name] escaped (ending []) = none) name hname
    · exact (by decide : ∀ name ∈ ["titleformat".toList, "titlespacing".toList], ∀ escaped,
        Sighting.find? [name] escaped (ending ['\n']) = none) name hname
  refine Sighting.find?_eq_none_iff.2 fun s hs h => ?_
  obtain rfl := List.mem_singleton.1 hs
  rcases isIn_wrapped hletters h with ⟨s', rfl, h'⟩ | ⟨s', rfl, h'⟩ | ⟨s', escaped, hsame, h'⟩
  · exact Sighting.find?_eq_none_iff.1 hlead s' (List.mem_singleton_self _) h'
  · exact Sighting.find?_eq_none_iff.1 (hf.noHeadingCommand _ hname) s' (List.mem_singleton_self _) h'
  · exact Sighting.find?_eq_none_iff.1 (hend escaped) s' (List.mem_singleton.2 hsame) h'

/-- **No directive is removed from a wrapped sanitized fragment.** -/
theorem removeDirectives_wrapped {fragment w : Text} (hf : Sanitized fragment) (hw : w = [] ∨ w = ['\n']) :
    removeDirectives Directive.forbidden (wrapped fragment w) = wrapped fragment w :=
  (removeDirectives_forbidden_eq_self_iff _).2
    ⟨fun _ hname => find?_wrapped hf hw hname, fun _ hname h => not_findsPackage_wrapped hf hw hname h⟩

/-! ### The other steps -/

theorem lines_wrapped (fragment w : Text) :
    (wrapped fragment w).lines = lead.lines ++ (fragment.lines ++ (endDocument ++ w).lines) := by
  rw [wrapped, lines_append_break, ending, List.cons_append, lines_append_break]

/-- No line of a wrapped sanitized fragment is noise. -/
theorem dropNoiseLines_wrapped {fragment w : Text} (hf : Sanitized fragment) (hw : w = [] ∨ w = ['\n']) :
    dropNoiseLines (wrapped fragment w) = wrapped fragment w := by
  have hlead := (dropNoiseLines_eq_self_iff lead).1 lead_facts.2.2.2.2.1
  have hend : ∀ line ∈ (endDocument ++ w).lines, isNoiseLine line = false := by
    rcases hw with rfl | rfl <;> decide
  refine (dropNoiseLines_eq_self_iff _).2 fun line hline => ?_
  rw [lines_wrapped, List.mem_append, List.mem_append] at hline
  rcases hline with hline | hline | hline
  · exact hlead line hline
  · exact Bool.eq_false_iff.2 fun h => hf.noNoiseLine line hline ((isNoiseLine_iff line).1 h)
  · exact hend line hline

theorem not_mem_wrapped {fragment w : Text} {c : Char} (hlead : c ∉ lead) (hf : c ∉ fragment)
    (hend : c ∉ ending w) (hc : c ≠ '\n') : c ∉ wrapped fragment w := by
  rw [wrapped, List.mem_append, List.mem_cons, List.mem_append]
  rintro (h | h | h | h)
  exacts [hlead h, hc h, hf h, hend h]

theorem leads_wrapped (fragment w : Text) : Leads (wrapped fragment w) := ⟨_, rfl⟩

/-- Only the blanks behind it are trimmed. -/
theorem trim_wrapped {fragment w : Text} (hw : isBlankText w = true) :
    (wrapped fragment w).trim = wrapped fragment [] := by
  have hsplit : wrapped fragment w = wrapped fragment [] ++ w := by simp [wrapped, ending]
  have hstart : trimStart (wrapped fragment w) = wrapped fragment w := by
    obtain ⟨x, hx⟩ := Led.exists_cons (Or.inr (leads_wrapped fragment w))
    rw [hx]
    exact trimStart_append_cons (by decide) [] x
  have hend : trimEnd (wrapped fragment []) = wrapped fragment [] := by
    refine (trimEnd_eq_self_iff _).2 fun c hc => ?_
    have hlast : (wrapped fragment []).getLast? = some '}' := by
      rw [wrapped, List.getLast?_append_of_ne_nil _ (List.cons_ne_nil _ _),
        List.getLast?_cons_of_ne_nil (by simp [ending]),
        List.getLast?_append_of_ne_nil _ (by simp [ending])]
      rfl
    obtain rfl : '}' = c := by simpa [hlast] using hc
    decide
  rw [Text.trim, hstart, hsplit, trimEnd_append_blank hw, hend]

/-- **A pass over a wrapped sanitized fragment only trims it.** -/
theorem pass_wrapped {fragment w : Text} (hf : Sanitized fragment) (hw : w = [] ∨ w = ['\n']) :
    pass Directive.forbidden (wrapped fragment w) = wrapped fragment [] := by
  have hblank : isBlankText w = true := by rcases hw with rfl | rfl <;> rfl
  have hmark : '\ufeff' ∉ wrapped fragment w := by
    refine not_mem_wrapped ((dropByteOrderMarks_eq_self_iff lead).1 lead_facts.2.2.2.1) hf.noMark ?_
      (by decide)
    rcases hw with rfl | rfl <;> decide
  have hreturn : '\r' ∉ wrapped fragment w := by
    refine not_mem_wrapped ?_ hf.noReturn ?_ (by decide)
    · rw [lead, List.mem_append, not_or]
      exact ⟨lead_facts.2.2.2.2.2, by decide⟩
    · rcases hw with rfl | rfl <;> decide
  have hbreak : ¬('\n' ∉ wrapped fragment w ∧ hasEscapedBreak (wrapped fragment w) = true) :=
    fun h => h.1 (by simp [wrapped])
  rw [pass_eq_tidy, (dropByteOrderMarks_eq_self_iff _).2 hmark, normalizeBreaks_of_not_mem hreturn,
    if_neg hbreak]
  rw [tidy, Function.comp_apply, Function.comp_apply, Function.comp_apply, removeDirectives_wrapped hf hw,
    dropNoiseLines_wrapped hf hw, trim_wrapped hblank]
  exact Led.stripSentinel (Or.inr (leads_wrapped fragment []))

/-- **Sanitizing a wrapped sanitized fragment only trims it.** -/
theorem sanitize_wrapped {fragment w : Text} (hf : Sanitized fragment) (hw : w = [] ∨ w = ['\n']) :
    sanitize (wrapped fragment w) = wrapped fragment [] := by
  have hfixed : sanitize (wrapped fragment []) = wrapped fragment [] :=
    (sanitizeWith_eq_self_iff _ _).2 (pass_wrapped hf (Or.inl rfl))
  rw [sanitize, sanitizeWith, pass_wrapped hf hw, settle, pass_wrapped hf (Or.inl rfl),
    if_neg (Nat.lt_irrefl _)]

end Skeleton

/-! ### Reading again -/

/-- What the short chain gives. -/
theorem runStages_normalization_eq_ok_iff {raw t : Text} :
    runStages normalization raw = .ok t ↔
      sanitize raw ≠ [] ∧ ({} : Skeleton).complete (sanitize raw) = t := by
  by_cases hs : sanitize raw = [] <;> simp [normalization, runStages, Stage.run, hs]

/-- The short chain only sanitizes a text that has a root. -/
theorem runStages_normalization_of_root {t u : Text} (hroot : beginDocument <:+: u)
    (h : sanitize t = u) : runStages normalization t = .ok u := by
  refine runStages_normalization_eq_ok_iff.2 ⟨fun hnil => ?_, ?_⟩
  · rw [← h, hnil] at hroot
    exact absurd (List.infix_nil.1 hroot) (by decide)
  · rw [h, Skeleton.complete_eq_self _ hroot]

/-- **Reading a sheet again only trims it**: the text that a payload becomes is the trimmed text or has
one line break more, it is accepted and becomes the trimmed text, and that stays as it is.  So a document
that is written and read again is the same one up to the line break at its end. -/
theorem normalization_rereads {raw t : Text} (h : runStages normalization raw = .ok t) :
    runStages normalization t = .ok t.trim ∧
      runStages normalization t.trim = .ok t.trim ∧
      (t = t.trim ∨ t = t.trim ++ ['\n']) ∧
      Format.latex.parse raw = .ok ⟨t⟩ ∧
      (Format.latex.serialize ⟨t⟩).bind Format.latex.parse = .ok ⟨t.trim⟩ := by
  have hsanitized : Sanitized (sanitize raw) :=
    (pass_eq_self_iff_sanitized _).1 (pass_sanitizeWith Directive.forbidden raw)
  -- The text with its root, and the line break at its end if the skeleton put it there.
  obtain ⟨u, hroot, htrim, hend, hagain, hfixed⟩ : ∃ u, beginDocument <:+: u ∧ t.trim = u ∧
      (t = u ∨ t = u ++ ['\n']) ∧ sanitize t = u ∧ sanitize u = u := by
    obtain ⟨-, rfl⟩ := runStages_normalization_eq_ok_iff.1 h
    by_cases hroot : beginDocument <:+: sanitize raw
    · have hfixed : sanitize (sanitize raw) = sanitize raw :=
        (sanitizeWith_eq_self_iff _ _).2 (pass_sanitizeWith Directive.forbidden raw)
      rw [Skeleton.complete_eq_self _ hroot]
      exact ⟨_, hroot, hsanitized.trimmed, Or.inl rfl, hfixed, hfixed⟩
    · rw [Skeleton.complete_eq_wrapped hroot]
      refine ⟨Skeleton.wrapped (sanitize raw) [], ?_, Skeleton.trim_wrapped rfl, Or.inr ?_,
        Skeleton.sanitize_wrapped hsanitized (Or.inr rfl), Skeleton.sanitize_wrapped hsanitized (Or.inl rfl)⟩
      · exact Skeleton.Led.isInfix (Or.inr (Skeleton.leads_wrapped _ _))
      · simp [Skeleton.wrapped, Skeleton.ending]
  have hread := runStages_normalization_of_root hroot hagain
  have hparse : ∀ x y : Text, runStages normalization x = .ok y → Format.latex.parse x = .ok ⟨y⟩ := by
    intro x y hxy
    change ((runStages normalization x).map Document.mk).mapError FormatError.refused = _
    rw [hxy]
    rfl
  rw [htrim]
  exact ⟨hread, runStages_normalization_of_root hroot hfixed, hend, hparse _ _ h, hparse _ _ hread⟩

/-- A fragment that ends in the middle of an import, with a backslash. -/
theorem normalization_rereads_open_import :
    ∃ t, runStages normalization "\\usepackage[x]\x7btitlesec,\\".toList = .ok t ∧
      runStages normalization t = .ok t.trim ∧ runStages normalization t.trim = .ok t.trim ∧
      (Format.latex.serialize ⟨t⟩).bind Format.latex.parse = .ok ⟨t.trim⟩ := by
  have hne : sanitize "\\usepackage[x]\x7btitlesec,\\".toList ≠ [] := by
    rewrite [String.toList_ofList]
    decide +kernel
  have h := runStages_normalization_eq_ok_iff.2 ⟨hne, rfl⟩
  obtain ⟨hread, hagain, -, -, hparse⟩ := normalization_rereads h
  exact ⟨_, h, hread, hagain, hparse⟩

end CribSheet
