/-
Names of artifacts on paths.

A slug is made of small letters, digits and separators.  So when what the names of artifacts start with holds no
slash, they hold none, and an artifact stands in the directory that it is put into.  Then the file beside a
compiled sheet that has the extension of a source is the source itself.

Main results:

* `CribSheet.mem_slugifyWith` — a slug holds small letters, digits and separators only;
* `CribSheet.Path.withExtension_join` — another extension for a name in a directory;
* `CribSheet.ArtifactNames.withExtension_join_pdf` — **the source beside a compiled sheet**.
-/
import CribSheet.Artifact.FileName
import CribSheet.Files.Path
import CribSheet.Proofs.Text.Deletion

set_option relaxedAutoImplicit false
set_option autoImplicit false

namespace CribSheet

open CribSheet.Text

/-! ### Slugs -/

/-- A small letter or a digit. -/
def IsSlugChar (c : Char) : Prop := 'a' ≤ c ∧ c ≤ 'z' ∨ '0' ≤ c ∧ c ≤ '9'

instance : DecidablePred IsSlugChar := fun _ => inferInstanceAs (Decidable (_ ∨ _))

/-- A character of ASCII becomes a small letter, a digit or a blank. -/
theorem isSlugChar_slugChar {c : Char} (h : c.toNat < 128) : IsSlugChar (slugChar c) ∨ slugChar c = ' ' :=
  forall_of_codes (P := fun c => IsSlugChar (slugChar c) ∨ slugChar c = ' ') (by decide +kernel) h

/-- The words of a text hold its characters, and no blanks. -/
theorem mem_of_mem_words {t word : Text} (hword : word ∈ words t) {c : Char} (hc : c ∈ word) :
    c ∈ t ∧ isBlank c = false := by
  induction t generalizing word with
  | nil => exact absurd hword List.not_mem_nil
  | cons d t ih =>
      have hrest : ∀ {word : Text}, word ∈ words t → c ∈ word → c ∈ d :: t ∧ isBlank c = false :=
        fun hword hc => (ih hword hc).imp_left (List.mem_cons_of_mem d)
      rw [words.eq_def] at hword
      simp only at hword
      split at hword
      · exact hrest hword hc
      · next hblank =>
          have hfirst : isBlank d = false := by simpa using hblank
          split at hword
          · obtain rfl := List.mem_singleton.1 hword
            obtain rfl := List.mem_singleton.1 hc
            exact ⟨List.mem_cons_self, hfirst⟩
          · split at hword
            · rcases List.mem_cons.1 hword with rfl | hword
              · obtain rfl := List.mem_singleton.1 hc
                exact ⟨List.mem_cons_self, hfirst⟩
              · exact hrest hword hc
            · split at hword
              · obtain rfl := List.mem_singleton.1 hword
                obtain rfl := List.mem_singleton.1 hc
                exact ⟨List.mem_cons_self, hfirst⟩
              · next word' rest hwords =>
                  rcases List.mem_cons.1 hword with rfl | hword
                  · rcases List.mem_cons.1 hc with rfl | hc
                    · exact ⟨List.mem_cons_self, hfirst⟩
                    · exact hrest (hwords ▸ List.mem_cons_self) hc
                  · exact hrest (hwords ▸ List.mem_cons_of_mem word' hword) hc

theorem mem_joinWith {separator : Text} {pieces : List Text} {c : Char} (h : c ∈ joinWith separator pieces) :
    c ∈ separator ∨ ∃ piece ∈ pieces, c ∈ piece := by
  induction pieces with
  | nil => simp [joinWith] at h
  | cons piece pieces ih =>
      cases pieces with
      | nil => exact Or.inr ⟨piece, List.mem_singleton_self piece, h⟩
      | cons next pieces =>
          rw [joinWith, List.mem_append, List.mem_append] at h
          rcases h with (h | h) | h
          · exact Or.inr ⟨piece, List.mem_cons_self, h⟩
          · exact Or.inl h
          · rcases ih h with h | ⟨p, hp, hc⟩
            · exact Or.inl h
            · exact Or.inr ⟨p, List.mem_cons_of_mem piece hp, hc⟩

section

variable {decompose : Text → Text} {separator : Separator} {topic : Text}

/-- The words of a topic hold small letters and digits only. -/
theorem mem_of_mem_slugWords {word : Text} (hword : word ∈ slugWords decompose topic) {c : Char} (hc : c ∈ word) :
    IsSlugChar c := by
  obtain ⟨hmem, hblank⟩ := mem_of_mem_words hword hc
  obtain ⟨d, hd, rfl⟩ := List.mem_map.1 hmem
  refine (isSlugChar_slugChar (by simpa using (List.mem_filter.1 hd).2)).resolve_right fun hspace => ?_
  rw [hspace] at hblank
  exact absurd hblank (by decide)

/-- **A slug holds small letters, digits and separators only.** -/
theorem mem_slugifyWith {c : Char} (h : c ∈ slugifyWith decompose separator topic) :
    IsSlugChar c ∨ c = separator.char := by
  rw [slugifyWith] at h
  split at h
  · exact Or.inl ((by decide : ∀ c ∈ defaultSlug, IsSlugChar c) c h)
  · next word words hwords =>
      rcases mem_joinWith h with h | ⟨word', hword, hc⟩
      · exact Or.inr (List.mem_singleton.1 h)
      · exact Or.inl (mem_of_mem_slugWords (hwords ▸ hword) hc)

end

theorem slash_not_mem_slugify (separator : Separator) (topic : Text) : '/' ∉ slugify separator topic := by
  intro h
  rcases mem_slugifyWith h with h | h
  · exact absurd h (by decide)
  · cases separator <;> exact absurd h (by decide)

/-! ### Extensions -/

namespace Text

theorem cutAtLast?_eq_none_iff {separator : Char} {t : Text} : cutAtLast? separator t = none ↔ separator ∉ t := by
  induction t with
  | nil => simp [cutAtLast?]
  | cons c t ih =>
      rw [cutAtLast?, List.mem_cons, not_or, ← ih]
      split
      · next h => simp [h]
      · next h => simp [h, eq_comm]

theorem cutAtLast?_append_cons {separator : Char} {b : Text} (h : separator ∉ b) (a : Text) :
    cutAtLast? separator (a ++ separator :: b) = some (a, b) := by
  induction a with
  | nil => rw [List.nil_append, cutAtLast?, cutAtLast?_eq_none_iff.2 h, if_pos rfl]
  | cons c a ih => rw [List.cons_append, cutAtLast?, ih]

/-- The last separator has none behind it. -/
theorem not_mem_of_cutAtLast? {separator : Char} {t before rest : Text}
    (h : cutAtLast? separator t = some (before, rest)) : separator ∉ rest := by
  induction t generalizing before with
  | nil => cases h
  | cons c t ih =>
      rw [cutAtLast?] at h
      split at h
      · next b r hb =>
          obtain ⟨rfl, rfl⟩ := Prod.mk.inj (Option.some.inj h)
          exact ih hb
      · next hnone =>
          obtain ⟨-, h⟩ := Option.ite_none_right_eq_some.1 h
          obtain ⟨rfl, rfl⟩ := Prod.mk.inj (Option.some.inj h)
          exact cutAtLast?_eq_none_iff.1 hnone

end Text

namespace Path

/-- Nothing is taken from the end of a path that ends with another character. -/
theorem trim_concat {c : Char} (hslash : c ≠ '/') (hdot : c ≠ '.') (t : Text) : trim (t ++ [c]) = t ++ [c] := by
  have hstop : trimReversed (c :: t.reverse) = c :: t.reverse := by
    unfold trimReversed
    split <;> simp_all
  rw [trim, List.reverse_append, List.reverse_singleton, List.singleton_append, hstop]
  simp

/-- What stands in front of a name that a directory is joined with. -/
theorem exists_join (directory : Text) :
    ∃ q, (q = [] ∨ ∃ d, q = d ++ ['/']) ∧ ∀ name, isAbsolute name = false → join directory name = q ++ name := by
  rcases Classical.em (directory = [] ∨ endsWithSlash directory = true) with h | h
  · refine ⟨directory, h.imp_right fun hslash => ?_, fun name hname => ?_⟩
    · rw [endsWithSlash, endsWith, Option.any_eq_true] at hslash
      obtain ⟨c, hc, hslash⟩ := hslash
      obtain ⟨d, rfl⟩ := List.getLast?_eq_some_iff.1 hc
      exact ⟨d, by rw [beq_iff_eq.1 hslash]⟩
    · rw [join, if_neg (by simp [hname]), if_pos h]
  · refine ⟨directory ++ ['/'], Or.inr ⟨directory, rfl⟩, fun name hname => ?_⟩
    rw [join, if_neg (by simp [hname]), if_neg h]
    simp

/-- The last name of a path in a directory. -/
theorem fileName?_append {q name : Text} (hq : q = [] ∨ ∃ d, q = d ++ ['/']) (hslash : '/' ∉ name)
    (htrim : trim (q ++ name) = q ++ name) (hlong : 2 < name.length) : fileName? (q ++ name) = some name := by
  have hproper : ¬(name = [] ∨ name = here ∨ name = above) := by
    rintro (rfl | rfl | rfl) <;> simp [here, above] at hlong
  rw [fileName?, htrim]
  rcases hq with rfl | ⟨d, rfl⟩
  · rw [List.nil_append, cutAtLast?_eq_none_iff.2 hslash]
    exact if_neg hproper
  · rw [List.append_assoc, List.singleton_append, cutAtLast?_append_cons hslash]
    exact if_neg hproper

/-- **Another extension for a name in a directory.** -/
theorem withExtension_join (directory : Text) {stem : Text} (extension : Text) (hstem : '/' ∉ stem) (hne : stem ≠ [])
    (hplain : ∀ c ∈ extension, c ≠ '/' ∧ c ≠ '.') (hnonempty : extension ≠ []) {other : Text} :
    withExtension (join directory (stem ++ '.' :: extension)) other = join directory (stem ++ '.' :: other) := by
  obtain ⟨q, hq, hjoin⟩ := exists_join directory
  obtain ⟨d, stem, rfl⟩ := List.exists_cons_of_ne_nil hne
  have hrelative : ∀ x, isAbsolute (d :: stem ++ x) = false := by
    intro x
    have hd : d ≠ '/' := fun he => hstem (he ▸ List.mem_cons_self)
    simp [isAbsolute, hd]
  have hslash : '/' ∉ d :: stem ++ '.' :: extension := by
    rw [List.mem_append, not_or, List.mem_cons (b := '.'), not_or]
    exact ⟨hstem, by decide, fun h => (hplain _ h).1 rfl⟩
  have hdot : '.' ∉ extension := fun h => (hplain _ h).2 rfl
  rw [hjoin _ (hrelative _), hjoin _ (hrelative _)]
  have htrim : trim (q ++ (d :: stem ++ '.' :: extension)) = q ++ (d :: stem ++ '.' :: extension) := by
    obtain ⟨x, c, rfl⟩ := (List.eq_nil_or_concat extension).resolve_left hnonempty
    obtain ⟨hcs, hcd⟩ := hplain c (by simp)
    have h := trim_concat hcs hcd (q ++ (d :: stem ++ '.' :: x))
    simpa using h
  have hlong : 2 < (d :: stem ++ '.' :: extension).length := by
    have := List.length_pos_iff.2 hnonempty
    simp only [List.length_append, List.length_cons]
    omega
  have hsplit : splitExtension (d :: stem ++ '.' :: extension) = (d :: stem, '.' :: extension) := by
    rw [splitExtension, cutAtLast?_append_cons hdot]
  simp only [withExtension, fileName?_append hq hslash htrim hlong, htrim, hsplit]
  rw [List.length_append, Nat.add_sub_cancel, List.take_left', List.append_assoc]
  rfl

end Path

namespace ArtifactNames

theorem slash_not_mem_stem {lead : Text} (hlead : '/' ∉ lead) (separator : Separator) (topic : Text) :
    '/' ∉ lead ++ '_' :: slugify separator topic := by
  rw [List.mem_append, List.mem_cons, not_or, not_or]
  exact ⟨hlead, by decide, slash_not_mem_slugify separator topic⟩

/-- The name of a source is no path. -/
theorem slash_not_mem_source {lead : Text} (hlead : '/' ∉ lead) (separator : Separator) (topic : Text) :
    '/' ∉ (ofTopic lead separator topic).source := by
  intro h
  rcases List.mem_append.1 h with h | h
  · exact slash_not_mem_stem hlead separator topic h
  · exact absurd h (by decide)

/-- **The source beside a compiled sheet** is the source that the names tell, in whatever directory. -/
theorem withExtension_join_pdf {lead : Text} (hlead : '/' ∉ lead) (separator : Separator) (topic directory : Text) :
    Path.withExtension (Path.join directory (ofTopic lead separator topic).pdf) "tex".toList =
      Path.join directory (ofTopic lead separator topic).source := by
  exact Path.withExtension_join directory "pdf".toList (slash_not_mem_stem hlead separator topic) (by simp)
    (by decide) (by decide)

end ArtifactNames

end CribSheet
