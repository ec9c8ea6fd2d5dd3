/-
Where a title stands in a text.

A title stands in a text when it occurs there and its backslash is not escaped.  It starts with its only
backslash, ends with a brace, and has neither a line break nor a dollar in it, so it does not run across
the start of a command, the end of a line, or a formula's delimiter: it stands on one side of the seam.
The stages behind the title stage write at such seams only, and so the title stays.

Main definitions:

* `CribSheet.Identity.Tight` — arguments without the characters that seams begin with;
* `CribSheet.Identity.Stands` — a title stands in a text.

Main results:

* `CribSheet.Identity.Stands.of_append` — a title stands on one side of a seam;
* `CribSheet.Identity.Stands.of_append_blank`, `CribSheet.Identity.Stands.of_blank_append` — blanks
  around a text hold no title.
-/
import CribSheet.Proofs.Markup.Heads
import CribSheet.Proofs.Sheet.Title

set_option relaxedAutoImplicit false
set_option autoImplicit false

namespace CribSheet

open CribSheet.Text CribSheet.Markup

namespace Identity

/-- The argument is plain, on one line, and outside of formulas. -/
def Tight (y : Text) : Prop := ∀ c ∈ y, c ∉ ['\\', '{', '}', '$', '\n', '\r']

/-- **The title with the argument `y` stands in the text.**  `escaped` says whether the first character
of the text is escaped. -/
def Stands (y : Text) (escaped : Bool) (t : Text) : Prop :=
  ∃ a b, t = a ++ plainTitle y ++ b ∧ escapedAfter escaped a = false

variable {y a b t : Text} {escaped : Bool}

namespace Tight

variable (hy : Tight y)

include hy

theorem plain : Plain y := fun c hc h => hy c hc (by
  simp only [List.mem_cons, List.not_mem_nil, or_false] at h ⊢
  tauto)

theorem newline_not_mem : '\n' ∉ y := fun h => hy _ h (by decide)

theorem return_not_mem_title : '\r' ∉ plainTitle y := by
  have hnot : '\r' ∉ y := fun h => hy _ h (by decide)
  simp [plainTitle, titleName, hnot]

/-- What a seam begins with is the first character of a title at most. -/
theorem not_mem_tail {c : Char} (hc : c ∈ ['\n', '$', '\\']) : c ∉ (plainTitle y).tail := by
  have hnot : c ∉ y := fun h => hy c h (by
    simp only [List.mem_cons, List.not_mem_nil, or_false] at hc ⊢
    tauto)
  simp only [List.mem_cons, List.not_mem_nil, or_false] at hc
  rcases hc with rfl | rfl | rfl <;> simp [plainTitle, titleName, hnot]

end Tight

/-- The title of a tight topic is tight. -/
theorem tight_titlePayload {topic : Text} (h : Tight topic) :
    Tight (({} : Identity).titlePayload topic) :=
  forall_mem_titlePayload (by decide) (by decide) h

namespace Stands

theorem append_right (h : Stands y escaped a) (b : Text) : Stands y escaped (a ++ b) := by
  obtain ⟨x, z, rfl, hx⟩ := h
  exact ⟨x, z ++ b, by simp, hx⟩

theorem append_left (h : Stands y (escapedAfter escaped a) b) : Stands y escaped (a ++ b) := by
  obtain ⟨x, z, rfl, hx⟩ := h
  exact ⟨a ++ x, z, by simp, by rwa [escapedAfter_append]⟩

theorem ne_nil (h : Stands y escaped t) : t ≠ [] := by
  rintro rfl
  obtain ⟨x, z, ht, -⟩ := h
  simp [plainTitle] at ht

/-- **A title stands on one side of a seam.** -/
theorem of_append (hy : Tight y) (hb : ∀ c ∈ b.head?, c ∈ ['\n', '$', '\\'])
    (h : Stands y escaped (a ++ b)) : Stands y escaped a ∨ Stands y (escapedAfter escaped a) b := by
  obtain ⟨x, z, ht, hx⟩ := h
  rcases cut_plainTitle (fun c hc => hy.not_mem_tail (hb c hc)) ht with ⟨z', ha⟩ | ⟨w, rfl, hw⟩
  · exact Or.inl ⟨x, z', ha, hx⟩
  · exact Or.inr ⟨w, z, hw, by rwa [escapedAfter_append] at hx⟩

/-- Blanks behind a text hold no title. -/
theorem of_append_blank (hb : isBlankText b = true) (h : Stands y escaped (a ++ b)) :
    Stands y escaped a := by
  obtain ⟨x, z, ht, hx⟩ := h
  obtain ⟨z', ha, -⟩ := cut_plainTitle_blank hb ht
  exact ⟨x, z', ha, hx⟩

/-- A text without backslashes in front holds no title. -/
theorem of_plain_append (ha : '\\' ∉ a) (h : Stands y escaped (a ++ b)) :
    Stands y (escapedAfter escaped a) b := by
  obtain ⟨x, z, ht, hx⟩ := h
  obtain ⟨w, rfl, hw⟩ := cut_plainTitle_plain ha ht
  exact ⟨w, z, hw, by rwa [escapedAfter_append] at hx⟩

/-- Blanks in front of a text hold no title. -/
theorem of_blank_append (ha : isBlankText a = true) (h : Stands y false (a ++ b)) :
    Stands y false b := by
  have hb := h.of_plain_append (slash_not_mem_of_isBlankText ha)
  rwa [escapedAfter_blank ha] at hb

theorem dropEndWhile {p : Char → Bool} (hp : ∀ c, p c = true → isBlank c = true)
    (h : Stands y escaped t) : Stands y escaped (t.dropEndWhile p) := by
  refine of_append_blank (isBlankText_takeEndWhile hp t) ?_
  rwa [dropEndWhile_append_takeEndWhile]

/-- Trimming keeps a title, in a text whose first character is not escaped. -/
theorem trim (h : Stands y false t) : Stands y false t.trim := by
  obtain ⟨x, hx, ht⟩ := exists_trimStart t
  rw [ht] at h
  exact (h.of_blank_append hx).dropEndWhile fun _ h => h

/-- Where another command starts, a title stands behind its first letter, and whether its backslash is
escaped does not matter. -/
theorem of_cons_cons {c : Char} (hc : c ≠ 't') (hslash : c ≠ '\\')
    (h : Stands y escaped ('\\' :: c :: t)) : Stands y false t := by
  obtain ⟨x, z, ht, hx⟩ := h
  obtain ⟨x', rfl, hrest⟩ := cut_plainTitle_cons_cons hc hslash ht
  exact ⟨x', z, hrest, by rwa [escapedAfter_cons, escapedAfter_cons_of_ne hslash] at hx⟩

/-- A title stands behind what is no backslash. -/
theorem of_cons {c : Char} (hslash : c ≠ '\\') (h : Stands y escaped (c :: t)) :
    Stands y false t := by
  obtain ⟨x, z, ht, hx⟩ := h
  obtain ⟨x', rfl, hrest⟩ := cut_plainTitle_cons hslash ht
  exact ⟨x', z, hrest, by rwa [escapedAfter_cons_of_ne hslash] at hx⟩

end Stands

end Identity

end CribSheet
