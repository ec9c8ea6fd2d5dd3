/-
The texts that sanitizing reaches and leaves alone.

A text is clean when it shows none of the kinds of noise that sanitizing removes.  Each kind is told
here by what stands in the text, without the steps that remove it.  Removing one kind can uncover
another, so that the result is clean does not follow step by step: it follows because the passes stop
where every single step changes nothing.

A blank line ends the arguments of a command, but not for an import without options: the space in front
of its list is crossed once for the options and once more for the list, with a line break each time.
Sanitizing therefore removes more than the imports of a package, and leaves exactly those clean texts
alone that hold none of the others.

Main definitions:

* `CribSheet.Payload.NoiseLine` — a line that is noise;
* `CribSheet.Payload.Imports`, `CribSheet.Payload.ImportsBehindBlankLine` — an import of a package, and a
  list of packages that a blank line parts from its command;
* `CribSheet.Payload.Clean` — the text shows no noise;
* `CribSheet.Payload.Sanitized` — it shows no list behind a blank line either.

Main results:

* `CribSheet.Payload.result_revise_package_eq_self_iff`,
  `CribSheet.Payload.result_revise_command_eq_self_iff` — what a directive leaves alone;
* `CribSheet.Payload.findsPackage_iff` — where the removal of a package sees it;
* `CribSheet.Payload.pass_eq_self_iff_sanitized` — a pass leaves exactly the sanitized texts alone;
* `CribSheet.Payload.sanitize_reaches_sanitized` — **sanitizing reaches exactly the clean texts without a
  list behind a blank line, and leaves them alone**;
* `CribSheet.Payload.sanitize_edits_clean_text` — it edits a clean text.
-/
import CribSheet.Proofs.Markup.Groups
import CribSheet.Proofs.Payload.Settling

set_option relaxedAutoImplicit false
set_option autoImplicit false

namespace CribSheet.Payload

open CribSheet.Text CribSheet.Markup

/-! ### Kinds of noise -/

/-- Behind its leading blanks the line starts with a fence, or with a percent sign, blanks and the key
word of an editor comment. -/
def NoiseLine (line : Text) : Prop :=
  (∃ rest, line.trimStart = fence ++ rest) ∨
    ∃ blanks rest, isBlankText blanks = true ∧ line.trimStart = '%' :: blanks ++ editorMark ++ rest

/-- The package stands between the commas of the list, up to the case of the letters `a` to `z`. -/
def ListsPackage (package list : Text) : Prop :=
  ∃ piece ∈ splitOn ',' list, Directive.sameName package (trim piece) = true

/-- The arguments at the start of the text import the package: behind argument space, or behind argument
space, a balanced bracket group and argument space again, stands a balanced brace group that lists the
package. -/
def Imports (package t : Text) : Prop :=
  (∃ list, Argument.read? t = some list ∧ ListsPackage package list.inner) ∨
    ∃ options list, Group.read? (argumentSpace t).2 = some options ∧ options.fence = .bracket ∧
      Argument.read? options.after = some list ∧ ListsPackage package list.inner

/-- A blank line ends the argument space at the start of the text, and behind the line break that ends it
and more argument space stands a balanced brace group that lists the package. -/
def ImportsBehindBlankLine (package t : Text) : Prop :=
  (argumentSpace t).2.head? = some '\n' ∧
    ∃ list, Argument.read? (argumentSpace t).2 = some list ∧ ListsPackage package list.inner

/-- **The text shows no noise.** -/
structure Clean (t : Text) : Prop where
  /-- It holds no byte-order mark. -/
  noMark : '\ufeff' ∉ t
  /-- It holds no carriage return. -/
  noReturn : '\r' ∉ t
  /-- It has a line break, or no backslash with an `n` that is not followed by a letter. -/
  noEscapedBreak : '\n' ∈ t ∨ ∀ a b, t = a ++ '\\' :: 'n' :: b → b.head?.any isLetter = true
  /-- No line is a fence or an editor comment. -/
  noNoiseLine : ∀ line ∈ t.lines, ¬ NoiseLine line
  /-- It neither starts nor ends with a blank. -/
  trimmed : t.trim = t
  /-- The first line, without the blanks at its end, is not the sentinel. -/
  noSentinel : (firstLine t).1.trimEnd ≠ sentinel
  /-- It holds no command that changes the layout of headings. -/
  noHeadingCommand : ∀ name ∈ ["titleformat".toList, "titlespacing".toList],
    Sighting.find? [name] false t = none
  /-- No import in it imports the package for headings. -/
  noHeadingImport : ∀ s : Sighting, s.name ∈ ["usepackage".toList, "RequirePackage".toList] →
    s.IsIn false t → ¬ Imports "titlesec".toList s.after

/-- **The text shows no noise**, and no list with the package for headings that a blank line parts from the
command in front of it. -/
structure Sanitized (t : Text) : Prop extends Clean t where
  /-- No blank line stands between an import command and a list with the package for headings. -/
  noImportBehindBlankLine : ∀ s : Sighting, s.name ∈ ["usepackage".toList, "RequirePackage".toList] →
    s.IsIn false t → ¬ ImportsBehindBlankLine "titlesec".toList s.after

/-! ### Escaped breaks -/

theorem startsEscapedBreak_iff (t : Text) :
    startsEscapedBreak t = true ↔ ∃ b, t = '\\' :: 'n' :: b ∧ b.head?.any isLetter = false := by
  unfold startsEscapedBreak
  split
  · next b => simp
  · next h =>
      simp only [Bool.false_eq_true, false_iff, not_exists, not_and]
      exact fun b hb => absurd hb (h b)

theorem hasEscapedBreak_eq_false_iff (t : Text) :
    hasEscapedBreak t = false ↔
      ∀ a b, t = a ++ '\\' :: 'n' :: b → b.head?.any isLetter = true := by
  induction t with
  | nil => simp [hasEscapedBreak]
  | cons c t ih =>
      rw [hasEscapedBreak, Bool.or_eq_false_iff, ih]
      constructor
      · rintro ⟨hstart, hrest⟩ a b heq
        cases a with
        | nil =>
            by_contra hb
            rw [Bool.not_eq_true] at hb
            have := (startsEscapedBreak_iff (c :: t)).2 ⟨b, heq, hb⟩
            simp [hstart] at this
        | cons d a => exact hrest a b (List.cons.inj heq).2
      · intro h
        refine ⟨?_, fun a b heq => h (c :: a) b (by rw [heq]; rfl)⟩
        by_contra hstart
        rw [Bool.not_eq_false] at hstart
        obtain ⟨b, heq, hb⟩ := (startsEscapedBreak_iff _).1 hstart
        simp [h [] b heq] at hb

/-! ### Noise lines -/

theorem startsWith_trimStart_editorMark_iff (t : Text) :
    startsWith editorMark (trimStart t) = true ↔
      ∃ blanks rest, isBlankText blanks = true ∧ t = blanks ++ editorMark ++ rest := by
  rw [startsWith_iff]
  constructor
  · rintro ⟨rest, h⟩
    refine ⟨t.takeWhile isBlank, rest, List.all_takeWhile, ?_⟩
    rw [List.append_assoc, h]
    exact List.takeWhile_append_dropWhile.symm
  · rintro ⟨blanks, rest, hb, rfl⟩
    refine ⟨rest, Eq.symm ?_⟩
    have hdrop : blanks.dropWhile isBlank = [] := by
      rw [List.dropWhile_eq_nil_iff]
      exact List.all_eq_true.1 hb
    rw [trimStart, List.append_assoc, List.dropWhile_append, hdrop]
    simp [editorMark, isBlank]

theorem isNoiseLine_iff (line : Text) : isNoiseLine line = true ↔ NoiseLine line := by
  rw [isNoiseLine, NoiseLine]
  split
  · next rest h =>
      rw [startsWith_trimStart_editorMark_iff, h]
      simp [fence]
  · next h =>
      rw [startsWith_iff]
      refine (exists_congr fun rest => eq_comm).trans (or_iff_left ?_).symm
      rintro ⟨blanks, rest, -, heq⟩
      exact h _ heq

/-! ### Directives -/

/-- `rest` follows the bracketed options at the start of the text, or is the text. -/
def AfterOptions (t rest : Text) : Prop :=
  rest = t ∨ ∃ g, Group.read? t = some g ∧ g.fence = .bracket ∧ rest = g.after

/-- What the removal of a package looks for at the start of the text: argument space, optional bracketed
options, and a list with the package.  Reading the list crosses argument space of its own
(`Argument.read?`), so without options the space in front of it is crossed twice, with up to two line
breaks. -/
def FindsPackage (package t : Text) : Prop :=
  ∃ rest list, AfterOptions (argumentSpace t).2 rest ∧ Argument.read? rest = some list ∧
    ListsPackage package list.inner

/-- **The removal of a package sees its imports**, and those lists behind a blank line that hold it. -/
theorem findsPackage_iff {package t : Text} :
    FindsPackage package t ↔ Imports package t ∨ ImportsBehindBlankLine package t := by
  constructor
  · rintro ⟨rest, list, rfl | ⟨options, hoptions, hfence, rfl⟩, hlist, hlists⟩
    · by_cases hblank : (argumentSpace t).2.head? = some '\n'
      · exact Or.inr ⟨hblank, list, hlist, hlists⟩
      · have hinner := Argument.inner_read?_argumentSpace hblank
        rw [hlist] at hinner
        obtain ⟨list', hlist', heq⟩ := Option.map_eq_some_iff.1 hinner.symm
        exact Or.inl (Or.inl ⟨list', hlist', heq ▸ hlists⟩)
    · exact Or.inl (Or.inr ⟨options, list, hoptions, hfence, hlist, hlists⟩)
  · rintro ((⟨list, hlist, hlists⟩ | ⟨options, list, hoptions, hfence, hlist, hlists⟩) |
      ⟨-, list, hlist, hlists⟩)
    · obtain ⟨t', hbrace, -⟩ := argument_read?_eq_some hlist
      have hinner := Argument.inner_read?_argumentSpace (t := t) (by simp [hbrace])
      rw [hlist] at hinner
      obtain ⟨list', hlist', heq⟩ := Option.map_eq_some_iff.1 hinner
      exact ⟨_, list', Or.inl rfl, hlist', heq ▸ hlists⟩
    · exact ⟨options.after, list, Or.inr ⟨options, hoptions, hfence, rfl⟩, hlist, hlists⟩
    · exact ⟨_, list, Or.inl rfl, hlist, hlists⟩

theorem head?_of_fence_bracket {t : Text} {g : Group} (h : Group.read? t = some g)
    (hg : g.fence = .bracket) : t.head? = some '[' := by
  cases t with
  | nil => simp [Group.read?] at h
  | cons c t =>
      rw [Group.read?] at h
      split at h
      · obtain ⟨i, -, rfl⟩ := Option.map_eq_some_iff.1 h
        simp at hg
      · split at h
        · next hc => rw [hc]; rfl
        · simp at h

theorem fence_bracket_of_head? {t : Text} {g : Group} (h : Group.read? t = some g)
    (ht : t.head? = some '[') : g.fence = .bracket := by
  cases t with
  | nil => simp at ht
  | cons c t =>
      obtain rfl : c = '[' := by simpa using ht
      simp only [Group.read?, Char.reduceEq, if_false, if_true, Option.map_eq_some_iff] at h
      obtain ⟨i, -, rfl⟩ := h
      rfl

/-- No argument follows directly where a bracket stands. -/
theorem read?_eq_none_of_head? {t : Text} (ht : t.head? = some '[') : Argument.read? t = none := by
  have hspace : argumentSpace t = ([], t) := argumentSpace_of_head fun c hc => by
    obtain rfl : '[' = c := Option.some.inj (ht.symm.trans hc)
    decide
  refine argument_read?_eq_none ?_
  rw [hspace, ht]
  decide

theorem afterOptions_iff {t rest : Text} {list : Argument} (hl : Argument.read? rest = some list) :
    AfterOptions t rest ↔ ∃ options, Directive.importOptions? t = some (options, rest) := by
  rw [Directive.importOptions?]
  constructor
  · rintro (rfl | ⟨g, hg, hfence, rfl⟩)
    · refine ⟨[], ?_⟩
      rw [if_neg]
      intro hhead
      simp [read?_eq_none_of_head? hhead] at hl
    · exact ⟨g.source, by rw [if_pos (head?_of_fence_bracket hg hfence), hg]; rfl⟩
  · rintro ⟨options, h⟩
    split at h
    · next hhead =>
        obtain ⟨g, hg, heq⟩ := Option.map_eq_some_iff.1 h
        obtain ⟨-, rfl⟩ := Prod.mk.inj heq
        exact Or.inr ⟨g, hg, fence_bracket_of_head? hg hhead, rfl⟩
    · exact Or.inl (Prod.mk.inj (Option.some.inj h)).2.symm

theorem exists_mem_importNames_iff {package : Text} (hp : package ≠ []) (list : Text) :
    (∃ name ∈ Directive.importNames list, Directive.sameName package name = true) ↔
      ListsPackage package list := by
  simp only [Directive.importNames, List.mem_filter, List.mem_map]
  constructor
  · rintro ⟨name, ⟨⟨piece, hpiece, rfl⟩, -⟩, hsame⟩
    exact ⟨piece, hpiece, hsame⟩
  · rintro ⟨piece, hpiece, hsame⟩
    refine ⟨trim piece, ⟨⟨piece, hpiece, rfl⟩, ?_⟩, hsame⟩
    rw [decide_eq_true_iff]
    intro hnil
    simp [Directive.sameName, lower, hnil, hp] at hsame

/-- A package is dropped exactly where it is found. -/
theorem dropPackage?_eq_none_iff {package : Text} (hp : package ≠ []) (s : Sighting) :
    Directive.dropPackage? package s = none ↔ ¬ FindsPackage package s.after := by
  constructor
  · rintro h ⟨rest, list, hrest, hl, hpiece⟩
    obtain ⟨options, ho⟩ := (afterOptions_iff hl).1 hrest
    obtain ⟨name, hn, hs⟩ := (exists_mem_importNames_iff hp list.inner).2 hpiece
    have hfalse : Directive.sameName package name = false := by
      simp only [Directive.dropPackage?, ho, hl, Option.bind_eq_bind, Option.bind_some,
        ite_eq_right_iff, reduceCtorEq, imp_false, List.any_eq_true, not_exists, not_and,
        Bool.not_eq_true] at h
      exact h name hn
    rw [hs] at hfalse
    simp at hfalse
  · intro h
    cases hd : Directive.dropPackage? package s with
    | none => rfl
    | some r =>
        obtain ⟨options, rest, list, ho, hl, hname, -⟩ := Directive.dropPackage?_eq_some hd
        exact absurd ⟨rest, list, (afterOptions_iff hl).2 ⟨options, ho⟩, hl,
          (exists_mem_importNames_iff hp list.inner).1 hname⟩ h

/-- A directive against a package leaves a text alone when it finds the package behind no command of its
name. -/
theorem result_revise_package_eq_self_iff {name package : Text} (hname : '\\' ∉ name)
    (hp : package ≠ []) (t : Text) :
    (Directive.revise ⟨name, .package package⟩ false true t).result = t ↔
      ∀ s : Sighting, s.name = name → s.IsIn false t → ¬ FindsPackage package s.after := by
  rw [Directive.result_revise_eq_self_iff _ hname]
  exact forall_congr' fun s => imp_congr_right fun _ => imp_congr_right fun _ =>
    dropPackage?_eq_none_iff hp s

/-- A directive against a command leaves a text alone when the command is not found in it. -/
theorem result_revise_command_eq_self_iff {name : Text} (hname : '\\' ∉ name) (t : Text) :
    (Directive.revise ⟨name, .command⟩ false true t).result = t ↔
      Sighting.find? [name] false t = none := by
  rw [Directive.result_revise_eq_self_iff _ hname, Sighting.find?_eq_none_iff]
  refine forall_congr' fun s => ?_
  rw [List.mem_singleton]
  refine imp_congr_right fun _ => imp_congr_right fun _ => ?_
  simp [Directive.replacement?]

/-- What the built-in table leaves alone. -/
theorem removeDirectives_forbidden_eq_self_iff (t : Text) :
    removeDirectives Directive.forbidden t = t ↔
      (∀ name ∈ ["titleformat".toList, "titlespacing".toList],
        Sighting.find? [name] false t = none) ∧
      ∀ s : Sighting, s.name ∈ ["usepackage".toList, "RequirePackage".toList] →
        s.IsIn false t → ¬ FindsPackage "titlesec".toList s.after := by
  have hpackage : "titlesec".toList ≠ [] := by decide
  rw [removeDirectives_eq_self_iff]
  simp only [Directive.forbidden, List.not_mem_nil, List.mem_cons, or_false, or_imp, forall_and,
    forall_eq]
  rw [result_revise_package_eq_self_iff (by decide) hpackage,
    result_revise_package_eq_self_iff (by decide) hpackage,
    result_revise_command_eq_self_iff (by decide), result_revise_command_eq_self_iff (by decide)]
  constructor
  · rintro ⟨huse, hrequire, hformat, hspacing⟩
    exact ⟨⟨hformat, hspacing⟩, huse, hrequire⟩
  · rintro ⟨⟨hformat, hspacing⟩, huse, hrequire⟩
    exact ⟨huse, hrequire, hformat, hspacing⟩

/-! ### Clean texts -/

/-- No import in a sanitized text is one that the table would edit. -/
theorem Sanitized.not_findsPackage {t : Text} (h : Sanitized t) {s : Sighting}
    (hname : s.name ∈ ["usepackage".toList, "RequirePackage".toList]) (hs : s.IsIn false t) :
    ¬ FindsPackage "titlesec".toList s.after := by
  rw [findsPackage_iff, not_or]
  exact ⟨h.noHeadingImport s hname hs, h.noImportBehindBlankLine s hname hs⟩

/-- **A pass leaves exactly the sanitized texts alone.** -/
theorem pass_eq_self_iff_sanitized (t : Text) : pass Directive.forbidden t = t ↔ Sanitized t := by
  rw [pass_eq_self_iff, removeDirectives_forbidden_eq_self_iff, dropNoiseLines_eq_self_iff,
    stripSentinel_eq_self_iff, hasEscapedBreak_eq_false_iff]
  constructor
  · rintro ⟨hmark, hreturn, hbreak, ⟨hcommand, himport⟩, hnoise, htrim, hsentinel⟩
    simp only [findsPackage_iff, not_or, imp_and, forall_and] at himport
    have hline : ∀ line ∈ t.lines, ¬ NoiseLine line := fun line hl hline => by
      have := hnoise line hl
      simp [(isNoiseLine_iff line).2 hline] at this
    exact ⟨⟨hmark, hreturn, hbreak, hline, htrim, hsentinel, hcommand, himport.1⟩, himport.2⟩
  · intro h
    refine ⟨h.noMark, h.noReturn, h.noEscapedBreak,
      ⟨h.noHeadingCommand, fun _ hname hs => h.not_findsPackage hname hs⟩, fun line hl => ?_, h.trimmed,
      h.noSentinel⟩
    rw [← Bool.not_eq_true]
    exact fun hline => h.noNoiseLine line hl ((isNoiseLine_iff line).1 hline)

/-- **Sanitizing reaches exactly the clean texts without a list behind a blank line**, and leaves them
alone: the result for any text is one of them, and a text that is not one of them is edited. -/
theorem sanitize_reaches_sanitized (t : Text) :
    Sanitized (sanitize t) ∧ (sanitize t = t ↔ Sanitized t) := by
  constructor
  · exact (pass_eq_self_iff_sanitized _).1 (pass_sanitizeWith Directive.forbidden t)
  · exact (sanitizeWith_eq_self_iff Directive.forbidden t).trans (pass_eq_self_iff_sanitized t)

/-- A blank line ends the arguments of a command, so the text imports nothing and is clean; the list behind
the blank line goes all the same, together with the command. -/
theorem sanitize_edits_clean_text :
    Clean "a\n\\usepackage\n\n\x7btitlesec\x7d\nb".toList ∧
      sanitize "a\n\\usepackage\n\n\x7btitlesec\x7d\nb".toList = "a\nb".toList := by
  have hargument : Argument.read? "\n\n\x7btitlesec\x7d\nb".toList = none := by decide +kernel
  have hoptions : Group.read? (argumentSpace "\n\n\x7btitlesec\x7d\nb".toList).2 = none := by
    decide +kernel
  have himports : ¬ Imports "titlesec".toList "\n\n\x7btitlesec\x7d\nb".toList := by
    rintro (⟨list, hlist, -⟩ | ⟨options, -, hread, -⟩)
    · exact Option.some_ne_none _ (hlist.symm.trans hargument)
    · exact Option.some_ne_none _ (hread.symm.trans hoptions)
  refine ⟨⟨by decide +kernel, by decide +kernel, Or.inl (by decide +kernel), fun line hl hline => ?_,
    by decide +kernel, by decide +kernel, by decide +kernel, fun s hname hs => ?_⟩, by decide +kernel⟩
  · have hnone : ∀ line ∈ lines "a\n\\usepackage\n\n\x7btitlesec\x7d\nb".toList,
        isNoiseLine line = false := by decide +kernel
    exact Bool.false_ne_true ((hnone line hl).symm.trans ((isNoiseLine_iff line).2 hline))
  · rcases List.mem_pair.1 hname with hname | hname
    · have hfind : Sighting.find? ["usepackage".toList] false
          "a\n\\usepackage\n\n\x7btitlesec\x7d\nb".toList =
            some ⟨"a\n".toList, "usepackage".toList, false, "\n\n\x7btitlesec\x7d\nb".toList⟩ := by
        decide +kernel
      rw [Sighting.eq_of_find? (by decide) hfind (by decide +kernel) hname hs]
      exact himports
    · have hnone : Sighting.find? ["RequirePackage".toList] false
          "a\n\\usepackage\n\n\x7btitlesec\x7d\nb".toList = none := by decide +kernel
      exact absurd hs (Sighting.find?_eq_none_iff.1 hnone s (by simp [hname]))

end CribSheet.Payload
