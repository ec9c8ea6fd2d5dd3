/-
Slugs are canonical.

The words of a slug are the words of its topic, and a separator is no letter and no digit: where a slug is taken for
a topic, its separators are what stands between the words.  So reading the words back from a slug gives the words
that it was made of, whatever the separators; everything that is decided by the words is decided by the slug.
Of the decomposition this takes only that it leaves a text of ASCII as it is.

Main definitions:

* `CribSheet.IsSlugWord`, `CribSheet.IsSlug` — the grammar of slugs;
* `CribSheet.FixesAscii` — a decomposition that leaves ASCII as it is;
* `CribSheet.topicWords` — the words that a slug is made of.

Main results:

* `CribSheet.words_joinWith` — joined words are read back;
* `CribSheet.slugWords_slugifyWith` — **the words of a slug are the words of its topic**;
* `CribSheet.ArtifactNames.stem_ofSlug` — the stem of a name is read back from the source;
* `CribSheet.slug_is_canonical` — **slugs follow their grammar, are slugs of themselves, and name artifacts**.
-/
import CribSheet.Proofs.Artifact.Naming

set_option relaxedAutoImplicit false
set_option autoImplicit false

namespace CribSheet

open CribSheet.Text

/-! ### The grammar -/

/-- A word of a slug: one or more small letters and digits. -/
def IsSlugWord (word : Text) : Prop := word ≠ [] ∧ ∀ c ∈ word, IsSlugChar c

/-- **The grammar of slugs**: a word, and any number of words with a separator in front. -/
inductive IsSlug (separator : Separator) : Text → Prop
  /-- A word alone. -/
  | word {word : Text} (h : IsSlugWord word) : IsSlug separator word
  /-- A word, a separator and a slug. -/
  | joined {word rest : Text} (h : IsSlugWord word) (hrest : IsSlug separator rest) :
    IsSlug separator (word ++ separator.char :: rest)

theorem isSlug_joinWith (separator : Separator) {ws : List Text} (hne : ws ≠ []) (h : ∀ word ∈ ws, IsSlugWord word) :
    IsSlug separator (joinWith [separator.char] ws) := by
  induction ws with
  | nil => exact absurd rfl hne
  | cons word ws ih =>
      obtain ⟨hword, hws⟩ := List.forall_mem_cons.1 h
      cases ws with
      | nil => exact .word hword
      | cons next ws =>
          rw [joinWith_cons _ _ (List.cons_ne_nil next ws), List.append_assoc, List.singleton_append]
          exact .joined hword (ih (List.cons_ne_nil next ws) hws)

/-- A small letter or a digit is a character of ASCII. -/
theorem IsSlugChar.toNat_lt {c : Char} (h : IsSlugChar c) : c.toNat < 128 := by
  have hc : 97 ≤ c.toNat ∧ c.toNat ≤ 122 ∨ 48 ≤ c.toNat ∧ c.toNat ≤ 57 := h
  omega

/-- **A small letter or a digit** is no blank and stays as it is. -/
theorem IsSlugChar.plain {c : Char} (h : IsSlugChar c) : isBlank c = false ∧ slugChar c = c :=
  forall_of_codes (P := fun c => IsSlugChar c → isBlank c = false ∧ slugChar c = c) (by decide) h.toNat_lt h

/-- A separator reads as a blank. -/
theorem Separator.slugChar_char (separator : Separator) : slugChar separator.char = ' ' := by
  cases separator <;> decide

/-! ### Decompositions -/

/-- **The decomposition leaves every text of ASCII as it is.** -/
def FixesAscii (decompose : Text → Text) : Prop := ∀ t : Text, (∀ c ∈ t, c.toNat < 128) → decompose t = t

/-- The forms of the table do so. -/
theorem fixesAscii_asciiForms : FixesAscii asciiForms := by
  intro t h
  have hself : ∀ c ∈ t, asciiForm c = [c] := fun c hc => if_pos (h c hc)
  rw [asciiForms, List.flatMap_congr hself, List.flatMap_singleton']

/-! ### Words -/

theorem words_blank_cons {b : Char} (hb : isBlank b = true) (t : Text) : words (b :: t) = words t := by
  rw [words.eq_def]
  exact if_pos hb

theorem words_singleton {c : Char} (hc : isBlank c = false) : words [c] = [[c]] := by
  rw [words.eq_def]
  exact if_neg (by simp [hc])

/-- A character in front of a blank is a word of its own. -/
theorem words_cons_blank_cons {c b : Char} (hc : isBlank c = false) (hb : isBlank b = true) (t : Text) :
    words (c :: b :: t) = [c] :: words t := by
  rw [words.eq_def]
  simp only [hc, hb, if_true, Bool.false_eq_true, if_false, words_blank_cons hb]

/-- A character in front of a word belongs to it. -/
theorem words_cons_cons {c d : Char} (hc : isBlank c = false) (hd : isBlank d = false) {t word : Text}
    {rest : List Text} (h : words (d :: t) = word :: rest) : words (c :: d :: t) = (c :: word) :: rest := by
  rw [words.eq_def]
  simp only [hc, hd, Bool.false_eq_true, if_false, h]

/-- A text without blanks is one word. -/
theorem words_eq_singleton {word : Text} (hne : word ≠ []) (h : ∀ c ∈ word, isBlank c = false) :
    words word = [word] := by
  induction word with
  | nil => exact absurd rfl hne
  | cons c word ih =>
      obtain ⟨hc, hword⟩ := List.forall_mem_cons.1 h
      cases word with
      | nil => exact words_singleton hc
      | cons d word => exact words_cons_cons hc (hword d List.mem_cons_self) (ih (List.cons_ne_nil d word) hword)

/-- A blank ends a word. -/
theorem words_append_blank {word : Text} (hne : word ≠ []) (h : ∀ c ∈ word, isBlank c = false) {b : Char}
    (hb : isBlank b = true) (t : Text) : words (word ++ b :: t) = word :: words t := by
  induction word with
  | nil => exact absurd rfl hne
  | cons c word ih =>
      obtain ⟨hc, hword⟩ := List.forall_mem_cons.1 h
      cases word with
      | nil => exact words_cons_blank_cons hc hb t
      | cons d word => exact words_cons_cons hc (hword d List.mem_cons_self) (ih (List.cons_ne_nil d word) hword)

/-- **Joined words are read back.** -/
theorem words_joinWith {b : Char} (hb : isBlank b = true) {ws : List Text}
    (h : ∀ word ∈ ws, word ≠ [] ∧ ∀ c ∈ word, isBlank c = false) : words (joinWith [b] ws) = ws := by
  induction ws with
  | nil => rfl
  | cons word ws ih =>
      obtain ⟨⟨hne, hword⟩, hws⟩ := List.forall_mem_cons.1 h
      cases ws with
      | nil => exact words_eq_singleton hne hword
      | cons next ws =>
          rw [joinWith_cons _ _ (List.cons_ne_nil next ws), List.append_assoc, List.singleton_append,
            words_append_blank hne hword hb, ih hws]

/-- No word is empty. -/
theorem nil_not_mem_words (t : Text) : [] ∉ words t := by
  induction t with
  | nil => exact List.not_mem_nil
  | cons c t ih =>
      rw [words.eq_def]
      simp only
      split
      · exact ih
      · split
        · simp
        · split
          · simpa using ih
          · split
            · simp
            · next word rest hwords =>
                rw [hwords, List.mem_cons, not_or] at ih
                simpa using ih.2

/-! ### Slugs -/

section

variable {decompose : Text → Text}

/-- **The words that a slug is made of**: those of the topic, or the word for a topic without any. -/
def topicWords (decompose : Text → Text) (topic : Text) : List Text :=
  if slugWords decompose topic = [] then [defaultSlug] else slugWords decompose topic

theorem topicWords_ne_nil (topic : Text) : topicWords decompose topic ≠ [] := by
  rw [topicWords]
  split
  · exact List.cons_ne_nil _ _
  · assumption

theorem slugifyWith_eq_joinWith (separator : Separator) (topic : Text) :
    slugifyWith decompose separator topic = joinWith [separator.char] (topicWords decompose topic) := by
  rw [slugifyWith, topicWords]
  split
  · next h => rw [if_pos h]; rfl
  · next word words h => rw [if_neg (by simp [h]), h]

theorem isSlugWord_of_mem_topicWords {topic word : Text} (h : word ∈ topicWords decompose topic) :
    IsSlugWord word := by
  rw [topicWords] at h
  split at h
  · obtain rfl := List.mem_singleton.1 h
    exact ⟨by decide, by decide⟩
  · refine ⟨?_, fun c hc => mem_of_mem_slugWords h hc⟩
    rintro rfl
    exact nil_not_mem_words _ h

/-- Joined words read with blanks for the separators. -/
theorem map_slugChar_joinWith (separator : Separator) {ws : List Text} (h : ∀ word ∈ ws, IsSlugWord word) :
    (joinWith [separator.char] ws).map slugChar = joinWith [' '] ws := by
  have hself : ∀ word, IsSlugWord word → word.map slugChar = word := by
    intro word hword
    rw [List.map_congr_left fun c hc => (hword.2 c hc).plain.2, List.map_id']
  induction ws with
  | nil => rfl
  | cons word ws ih =>
      obtain ⟨hword, hws⟩ := List.forall_mem_cons.1 h
      cases ws with
      | nil => exact hself word hword
      | cons next ws =>
          rw [joinWith_cons _ _ (List.cons_ne_nil next ws), joinWith_cons _ _ (List.cons_ne_nil next ws),
            List.map_append, List.map_append, hself word hword, List.map_singleton, separator.slugChar_char, ih hws]

/-- A slug is a text of ASCII. -/
theorem toNat_lt_of_mem_slugifyWith {separator : Separator} {topic : Text} {c : Char}
    (h : c ∈ slugifyWith decompose separator topic) : c.toNat < 128 := by
  rcases mem_slugifyWith h with h | rfl
  · exact h.toNat_lt
  · cases separator <;> decide

/-- **The words of a slug are the words of its topic**, whatever separates them. -/
theorem slugWords_slugifyWith (hform : FixesAscii decompose) (separator : Separator) (topic : Text) :
    slugWords decompose (slugifyWith decompose separator topic) = topicWords decompose topic := by
  have hwords : ∀ word ∈ topicWords decompose topic, IsSlugWord word := fun _ => isSlugWord_of_mem_topicWords
  have hascii : ∀ c ∈ slugifyWith decompose separator topic, c.toNat < 128 := fun _ => toNat_lt_of_mem_slugifyWith
  have hkept : (slugifyWith decompose separator topic).filter (·.toNat < 128) =
      slugifyWith decompose separator topic :=
    List.filter_eq_self.2 fun c hc => decide_eq_true (hascii c hc)
  rw [slugWords, hform _ hascii, hkept, slugifyWith_eq_joinWith, map_slugChar_joinWith separator hwords]
  exact words_joinWith (by decide) fun word hword =>
    ⟨(hwords word hword).1, fun c hc => ((hwords word hword).2 c hc).plain.1⟩

/-- **A slug taken for a topic** has the slug of the topic. -/
theorem slugifyWith_slugifyWith (hform : FixesAscii decompose) (other separator : Separator) (topic : Text) :
    slugifyWith decompose other (slugifyWith decompose separator topic) = slugifyWith decompose other topic := by
  rw [slugifyWith_eq_joinWith other, topicWords, slugWords_slugifyWith hform, if_neg (topicWords_ne_nil topic),
    slugifyWith_eq_joinWith]

theorem isSlug_slugifyWith (separator : Separator) (topic : Text) :
    IsSlug separator (slugifyWith decompose separator topic) := by
  rw [slugifyWith_eq_joinWith]
  exact isSlug_joinWith separator (topicWords_ne_nil topic) fun _ => isSlugWord_of_mem_topicWords

theorem dot_not_mem_slugifyWith (separator : Separator) (topic : Text) :
    '.' ∉ slugifyWith decompose separator topic := by
  intro h
  rcases mem_slugifyWith h with h | h
  · exact absurd h (by decide)
  · cases separator <;> exact absurd h (by decide)

end

/-! ### Names of artifacts -/

/-- Where no dot stands behind an underscore, nothing is dropped from the end. -/
theorem dropReversedTex_append {a : Text} (h : '.' ∉ a) (b : Text) :
    dropReversedTex (a ++ '_' :: b) = a ++ '_' :: b := by
  match a with
  | [] | [_] | [_, _] | [_, _, _] => simp [dropReversedTex]
  | w :: x :: y :: z :: a =>
      have hz : z ≠ '.' := by
        rintro rfl
        simp at h
      simp [dropReversedTex, hz]

namespace ArtifactNames

/-- **The stem of a name is read back from the source**, when the slug holds no dot. -/
theorem stem_ofSlug (lead : Text) {slug : Text} (h : '.' ∉ slug) : (ofSlug lead slug).stem = lead ++ '_' :: slug := by
  have hreverse : (ofSlug lead slug).source.reverse =
      'x' :: 'e' :: 't' :: '.' :: (slug.reverse ++ '_' :: lead.reverse) := by
    simp [ofSlug]
  rw [stem, dropTexExtension, hreverse, dropReversedTex, dropReversedTex_append (by simpa using h)]
  simp

end ArtifactNames

/-- **Slugs are canonical** for every decomposition that leaves ASCII as it is: a slug follows the grammar, its slug
with any separator is that of the topic, and the names of artifacts that it is put into differ in their extension
only. -/
theorem slug_is_canonical {decompose : Text → Text} (hform : FixesAscii decompose) (separator other : Separator)
    (topic : Text) :
    IsSlug separator (slugifyWith decompose separator topic) ∧
      slugifyWith decompose other (slugifyWith decompose separator topic) = slugifyWith decompose other topic ∧
      ∀ lead extension : Text,
        let names := ArtifactNames.ofSlug lead (slugifyWith decompose separator topic)
        names.withExtension extension = lead ++ '_' :: slugifyWith decompose separator topic ++ '.' :: extension ∧
          names.withExtension "tex".toList = names.source ∧ names.withExtension "pdf".toList = names.pdf := by
  refine ⟨isSlug_slugifyWith separator topic, slugifyWith_slugifyWith hform other separator topic,
    fun lead extension => ?_⟩
  have hdot : '.' ∉ slugifyWith decompose separator topic := dot_not_mem_slugifyWith separator topic
  have hstem := ArtifactNames.stem_ofSlug lead hdot
  refine ⟨?_, ?_, ?_⟩
  · rw [ArtifactNames.withExtension, hstem]
  · rw [ArtifactNames.withExtension, hstem]
    rfl
  · rw [ArtifactNames.withExtension, hstem]
    rfl

/-- An accent, a character without ASCII in its decomposition, and a circled number. -/
theorem slug_is_canonical_accents :
    FixesAscii asciiForms ∧ slugify .underscore "Ángulo — ①".toList = "angulo_1".toList ∧
      IsSlug .underscore (slugify .underscore "Ángulo — ①".toList) ∧
      slugify .hyphen (slugify .underscore "Ángulo — ①".toList) = "angulo-1".toList ∧
      (ArtifactNames.ofTopic "cheat_sheat".toList .underscore "Ángulo — ①".toList).withExtension "log".toList =
        "cheat_sheat_angulo_1.log".toList := by
  obtain ⟨hslug, hagain, hnames⟩ :=
    slug_is_canonical fixesAscii_asciiForms .underscore .hyphen "Ángulo — ①".toList
  exact ⟨fixesAscii_asciiForms, by decide +kernel, hslug, hagain.trans (by decide +kernel),
    ((hnames "cheat_sheat".toList "log".toList).1).trans (by decide +kernel)⟩

end CribSheet
