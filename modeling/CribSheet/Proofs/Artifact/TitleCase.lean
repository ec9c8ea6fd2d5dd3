/-
Title case leaves blanks in extensions only.

The words of a stem hold no blanks, they are joined by underscores, and no case mapping makes a blank out of
another character, which the tables of the mappings show.  What follows the last dot is kept as it stands, blanks
included.  Leading dots start no extension, so the last dot has to stand behind another character; nothing is said
here of a name whose last dot is one of several leading dots.

Main definitions:

* `CribSheet.HasExtension`, `CribSheet.HasBlankExtension` — a name with an extension, and with a blank in it;
* `CribSheet.DotLed` — a name whose last dot is one of several leading dots.

Main results:

* `CribSheet.isBlank_of_mem_otherCase` — a case mapping makes no blanks;
* `CribSheet.any_isBlank_titledStem` — a stem in title case holds no blanks;
* `CribSheet.HasExtension.titleCaseFileName` — title case keeps an extension behind a stem without blanks;
* `CribSheet.any_isBlank_titleCaseFileName` — **the blanks of a name in title case** are those of its extension.
-/
import CribSheet.Proofs.Artifact.Naming
import CribSheet.Proofs.Markup.Pieces

set_option relaxedAutoImplicit false
set_option autoImplicit false

namespace CribSheet

open CribSheet.Text

/-! ### Case mappings -/

/-- **A case mapping makes no blanks** when its tables hold none. -/
theorem isBlank_of_mem_otherCase {ranges : List CaseRange} {sequences : List (Nat × List Nat)}
    (hranges : ∀ r ∈ ranges, ∀ n ∈ List.range (r.last - r.first + 1), isBlank (r.map (r.first + n)) = false)
    (hsequences : ∀ entry ∈ sequences, ∀ code ∈ entry.2, isBlank (Char.ofNat code) = false) {c d : Char}
    (hc : isBlank c = false) (h : d ∈ otherCase ranges sequences c) : isBlank d = false := by
  rw [otherCase] at h
  split at h
  · next code codes hfind =>
      obtain ⟨n, hn, rfl⟩ := List.mem_map.1 h
      exact hsequences _ (List.mem_of_find?_eq_some hfind) n hn
  · split at h
    · next r hfind =>
        obtain rfl := List.mem_singleton.1 h
        have hholds := List.find?_some hfind
        simp only [CaseRange.holds, Bool.and_eq_true, decide_eq_true_eq] at hholds
        obtain ⟨⟨hfirst, hlast⟩, -⟩ := hholds
        have hcode := hranges r (List.mem_of_find?_eq_some hfind) (c.toNat - r.first) (List.mem_range.2 (by omega))
        rwa [Nat.add_sub_of_le hfirst] at hcode
    · obtain rfl := List.mem_singleton.1 h
      exact hc

theorem isBlank_of_mem_toUpper {c d : Char} (hc : isBlank c = false) (h : d ∈ toUpper c) : isBlank d = false := by
  rw [toUpper] at h
  split at h
  · next hascii =>
      obtain rfl := List.mem_singleton.1 h
      exact forall_of_codes (P := fun c => isBlank c = false → isBlank c.toUpper = false) (by decide +kernel) hascii hc
  · exact isBlank_of_mem_otherCase (by decide +kernel) (by decide +kernel) hc h

theorem isBlank_of_mem_toLower {c d : Char} (hc : isBlank c = false) (h : d ∈ toLower c) : isBlank d = false := by
  rw [toLower] at h
  split at h
  · next hascii =>
      obtain rfl := List.mem_singleton.1 h
      exact forall_of_codes (P := fun c => isBlank c = false → isBlank c.toLower = false) (by decide +kernel) hascii hc
  · exact isBlank_of_mem_otherCase (by decide +kernel) (by decide +kernel) hc h

theorem isBlank_of_mem_capitalize {word : Text} (hword : ∀ c ∈ word, isBlank c = false) :
    ∀ d ∈ capitalize word, isBlank d = false := by
  intro d hd
  cases word with
  | nil => exact absurd hd List.not_mem_nil
  | cons c word =>
      obtain ⟨hc, hword⟩ := List.forall_mem_cons.1 hword
      rcases List.mem_append.1 hd with hd | hd
      · exact isBlank_of_mem_toUpper hc hd
      · obtain ⟨e, he, hd⟩ := List.mem_flatMap.1 hd
        exact isBlank_of_mem_toLower (hword e he) hd

/-! ### Stems -/

/-- A stem in title case. -/
def titledStem (stem : Text) : Text :=
  joinWith ['_'] ((((joinWith ['_'] stem.words).splitOn '_').filter (· ≠ [])).map capitalize)

theorem titleCaseFileName_eq (name : Text) :
    titleCaseFileName name = titledStem (splitExtension name).1 ++ (splitExtension name).2 := rfl

/-- Joined pieces hold no blanks, when neither the pieces nor the separator does. -/
theorem isBlank_of_mem_joinWith {separator : Char} (hseparator : isBlank separator = false) {pieces : List Text}
    (hpieces : ∀ piece ∈ pieces, ∀ c ∈ piece, isBlank c = false) {c : Char} (hc : c ∈ joinWith [separator] pieces) :
    isBlank c = false := by
  rcases mem_joinWith hc with hc | ⟨piece, hpiece, hc⟩
  · rwa [List.mem_singleton.1 hc]
  · exact hpieces piece hpiece c hc

/-- **A stem in title case holds no blanks.** -/
theorem any_isBlank_titledStem (stem : Text) : (titledStem stem).any isBlank = false := by
  have hunderscore : isBlank '_' = false := by decide
  have hjoined : ∀ c ∈ joinWith ['_'] stem.words, isBlank c = false := fun c hc =>
    isBlank_of_mem_joinWith hunderscore (fun word hword c hc => (mem_of_mem_words hword hc).2) hc
  rw [List.any_eq_false]
  intro c hc
  rw [Bool.not_eq_true]
  refine isBlank_of_mem_joinWith hunderscore (fun piece hpiece => ?_) hc
  obtain ⟨word, hword, rfl⟩ := List.mem_map.1 hpiece
  have hsubset := (isInfix_of_mem_splitOn (List.mem_of_mem_filter hword)).subset
  exact isBlank_of_mem_capitalize fun c hc => hjoined c (hsubset hc)

/-! ### Extensions -/

/-- **The name has the extension** behind its stem.  The extension follows the last dot, and what stands in front of
that dot is not made of dots alone. -/
structure HasExtension (stem extension name : Text) : Prop where
  /-- The last dot parts the stem from the extension. -/
  name_eq : name = stem ++ '.' :: extension
  /-- It is no leading dot. -/
  exists_ne : ∃ c ∈ stem, c ≠ '.'
  /-- It is the last one. -/
  not_mem : '.' ∉ extension

/-- The name has a blank in its extension. -/
def HasBlankExtension (name : Text) : Prop :=
  ∃ stem extension, HasExtension stem extension name ∧ extension.any isBlank = true

/-- The last dot of the name is one of several leading dots. -/
def DotLed (name : Text) : Prop :=
  ∃ n extension, name = List.replicate (n + 2) '.' ++ extension ∧ '.' ∉ extension

theorem HasExtension.splitExtension {stem extension name : Text} (h : HasExtension stem extension name) :
    splitExtension name = (stem, '.' :: extension) := by
  obtain ⟨rfl, ⟨c, hc, -⟩, hdot⟩ := h
  obtain ⟨d, stem, rfl⟩ := List.exists_cons_of_ne_nil (List.ne_nil_of_mem hc)
  rw [CribSheet.splitExtension, cutAtLast?_append_cons hdot]

/-- A name is taken whole, or it has an extension, or its last dot is one of several leading dots. -/
theorem splitExtension_cases (name : Text) :
    splitExtension name = (name, []) ∨ (∃ stem extension, HasExtension stem extension name) ∨ DotLed name := by
  rw [splitExtension]
  split
  · next c stem extension h =>
      have hname := cutAtLast?_eq_append h
      have hdot := not_mem_of_cutAtLast? h
      by_cases hled : ∀ d ∈ c :: stem, d = '.'
      · refine .inr (.inr ⟨stem.length, extension, ?_, hdot⟩)
        rw [hname, List.eq_replicate_of_mem hled, List.length_cons, ← List.singleton_append,
          ← List.append_assoc, ← List.replicate_succ']
      · push Not at hled
        exact .inr (.inl ⟨c :: stem, extension, hname, hled, hdot⟩)
  · exact .inl rfl

/-- **Title case keeps an extension** behind a stem without blanks. -/
theorem HasExtension.titleCaseFileName {stem extension name : Text} (h : HasExtension stem extension name) :
    ∃ titled, titleCaseFileName name = titled ++ '.' :: extension ∧ titled.any isBlank = false := by
  refine ⟨titledStem stem, ?_, any_isBlank_titledStem stem⟩
  rw [titleCaseFileName_eq, h.splitExtension]

/-- **The blanks of a name in title case** are those of its extension. -/
theorem any_isBlank_titleCaseFileName {name : Text} (hled : ¬ DotLed name) :
    (titleCaseFileName name).any isBlank = true ↔ HasBlankExtension name := by
  constructor
  · intro hblank
    rw [titleCaseFileName_eq, List.any_append, any_isBlank_titledStem, Bool.false_or] at hblank
    obtain hwhole | ⟨stem, extension, h⟩ | hdots := splitExtension_cases name
    · rw [hwhole] at hblank
      cases hblank
    · rw [h.splitExtension, List.any_cons] at hblank
      exact ⟨stem, extension, h, hblank⟩
    · exact absurd hdots hled
  · rintro ⟨stem, extension, h, hblank⟩
    obtain ⟨titled, heq, -⟩ := h.titleCaseFileName
    rw [heq, List.any_append, List.any_cons, hblank, Bool.or_true, Bool.or_true]

/-- A name that does not start with a dot has no leading dots. -/
theorem not_dotLed {name : Text} (h : name.head? ≠ some '.') : ¬ DotLed name := by
  rintro ⟨n, extension, rfl, -⟩
  exact h rfl

end CribSheet
