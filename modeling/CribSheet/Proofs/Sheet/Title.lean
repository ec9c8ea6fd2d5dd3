/-
Titles with a plain argument.

A title whose argument holds no backslash and no brace is read up to its first closing brace, whatever
follows it.  The directive of a topic without such characters is one, so where it stands in a text it is
a title as a whole, and a title that a text begins with is this directive or none at all.

Main definitions:

* `CribSheet.Identity.Plain`, `CribSheet.Identity.plainTitle` — plain arguments, and titles with one;
* `CribSheet.Identity.behindTitle` — what stands behind the title once the directive is in its place.

Main results:

* `CribSheet.Identity.titleArguments_plain` — a plain argument is read as it is written;
* `CribSheet.Identity.behindTitle_eq` — the directive takes the place of the first title and no more;
* `CribSheet.Identity.find?_titleName_plainTitle` — a plain title is found as it is written;
* `CribSheet.Identity.existsUnique_title_iff` — the directive is the only title when no title stands behind it.
-/
import CribSheet.Proofs.Markup.Groups
import CribSheet.Proofs.Markup.Sighting
import CribSheet.Sheet.Identity

set_option relaxedAutoImplicit false
set_option autoImplicit false

namespace CribSheet

open CribSheet.Text CribSheet.Markup

namespace Identity

/-! ### Plain arguments -/

/-- The text holds no backslash and no brace. -/
def Plain (y : Text) : Prop := ∀ c ∈ y, c ∉ ['\\', '{', '}']

/-- The title with the argument `y`. -/
def plainTitle (y : Text) : Text := '\\' :: titleName ++ '{' :: y ++ ['}']

theorem Plain.sublist {x y : Text} (hy : Plain y) (h : x.Sublist y) : Plain x :=
  fun c hc => hy c (h.subset hc)

theorem Plain.slash_not_mem {y : Text} (hy : Plain y) : '\\' ∉ y := fun h => hy _ h (by decide)

theorem closeBrace?_plain {y : Text} (hy : Plain y) (rest : Text) :
    closeBrace? 0 (y ++ '}' :: rest) = some (y, rest) := by
  rw [closeBrace?_plain_append hy, closeBrace?_end, Option.map_some, List.append_nil]

/-- **A plain argument is read as it is written.** -/
theorem titleArguments_plain {y : Text} (hy : Plain y) (rest : Text) :
    titleArguments ('{' :: y ++ '}' :: rest) = ('{' :: y ++ ['}'], rest) := by
  have hread : Group.read? ('{' :: (y ++ '}' :: rest)) = some ⟨.brace, y, rest⟩ := by
    simp [Group.read?, closeBrace?_plain hy]
  have hspace : argumentSpace ('{' :: (y ++ '}' :: rest)) = ([], '{' :: (y ++ '}' :: rest)) := by
    simp [argumentSpace, isGap]
  have hbracket : Group.readBracket? ('{' :: (y ++ '}' :: rest)) = none := by
    rw [Group.readBracket?, hread]
    rfl
  simp [titleArguments, hspace, hbracket, hread, Group.source]

/-! ### Cuts through a text with a title -/

section Cuts

variable {y x z a b t : Text}

/-- **A title is not cut** in front of a character that is its first one at most. -/
theorem cut_plainTitle (hb : ∀ c ∈ b.head?, c ∉ (plainTitle y).tail) (ht : a ++ b = x ++ plainTitle y ++ z) :
    (∃ z', a = x ++ plainTitle y ++ z') ∨ ∃ w, x = a ++ w ∧ b = w ++ plainTitle y ++ z := by
  rcases List.append_eq_append_iff.1 ht with ⟨x', hx', hb'⟩ | ⟨z', ha, -⟩
  · -- The cut comes before the end of the title.
    rcases List.append_eq_append_iff.1 hx' with ⟨w, ha, hw⟩ | ⟨w, hw, ha⟩
    · cases x' with
      | nil => exact .inl ⟨[], by simpa using hx'.symm⟩
      | cons c x' =>
          have hmem := hb c (by rw [hb']; rfl)
          cases w with
          | nil =>
              obtain rfl : a = x := by simpa using ha
              exact .inr ⟨[], by simp, by rw [hb', hw]; rfl⟩
          | cons d w =>
              refine absurd ?_ hmem
              rw [hw]
              simp
    · exact .inr ⟨w, hw, by rw [hb', ha]⟩
  · exact .inl ⟨z', ha⟩

/-- A title stands behind a text without backslashes. -/
theorem cut_plainTitle_plain (ha : '\\' ∉ a) (ht : a ++ b = x ++ plainTitle y ++ z) :
    ∃ w, x = a ++ w ∧ b = w ++ plainTitle y ++ z := by
  have hsplit : a ++ b = x ++ '\\' :: (titleName ++ '{' :: y ++ '}' :: z) := by
    rw [ht]
    simp [plainTitle]
  obtain ⟨w, rfl, hw⟩ := exists_of_plain_append_eq ha hsplit
  exact ⟨w, rfl, by rw [hw]; simp [plainTitle]⟩

/-- Blanks at the end of a text stand behind the title. -/
theorem cut_plainTitle_blank (hb : isBlankText b = true) (ht : a ++ b = x ++ plainTitle y ++ z) :
    ∃ w, a = x ++ plainTitle y ++ w ∧ z = w ++ b := by
  refine exists_of_append_blank_eq hb (fun c hc => ?_) ht
  rw [plainTitle, ← List.append_assoc, List.getLast?_concat] at hc
  obtain rfl := Option.some.inj hc
  decide

/-- A title stands behind what is no backslash. -/
theorem cut_plainTitle_cons {c : Char} (hslash : c ≠ '\\') (ht : c :: t = x ++ plainTitle y ++ z) :
    ∃ x', x = c :: x' ∧ t = x' ++ plainTitle y ++ z := by
  cases x with
  | nil =>
      rw [List.nil_append, plainTitle] at ht
      exact absurd (List.cons.inj ht).1 hslash
  | cons d x =>
      obtain ⟨rfl, htail⟩ := List.cons.inj ht
      exact ⟨x, rfl, htail⟩

/-- Where another command starts, a title stands behind its first letter. -/
theorem cut_plainTitle_cons_cons {c : Char} (hc : c ≠ 't') (hslash : c ≠ '\\')
    (ht : '\\' :: c :: t = x ++ plainTitle y ++ z) : ∃ x', x = '\\' :: c :: x' ∧ t = x' ++ plainTitle y ++ z := by
  cases x with
  | nil =>
      rw [List.nil_append, plainTitle] at ht
      obtain ⟨rfl, -⟩ := List.cons.inj (List.cons.inj ht).2
      exact absurd rfl hc
  | cons d x =>
      obtain ⟨rfl, htail⟩ := List.cons.inj ht
      obtain ⟨x', rfl, hrest⟩ := cut_plainTitle_cons hslash htail
      exact ⟨x', rfl, hrest⟩

end Cuts

/-! ### Arguments in general -/

/-- What is read in front of the brace group of a title: space, and an optional bracket group. -/
def titleLead (t : Text) : Text × Text :=
  match Group.readBracket? (argumentSpace t).2 with
  | some g => ((argumentSpace t).1 ++ g.source ++ (argumentSpace g.after).1, (argumentSpace g.after).2)
  | none => argumentSpace t

theorem titleLead_append (t : Text) : (titleLead t).1 ++ (titleLead t).2 = t := by
  have hspace := argumentSpace_append t
  rw [titleLead]
  split
  · next g hg =>
      have htext : g.source ++ g.after = (argumentSpace t).2 :=
        Group.text_read? (Option.filter_eq_some_iff.1 hg).1
      rw [List.append_assoc, argumentSpace_append, List.append_assoc, htext, hspace]
  · exact hspace

/-- The arguments of a title are what is read in front of the brace group, and the group. -/
theorem titleArguments_eq (t : Text) :
    titleArguments t =
      if (titleLead t).2.head? = some '{' then
        match Group.read? (titleLead t).2 with
        | some g => ((titleLead t).1 ++ g.source, g.after)
        | none => ((titleLead t).1 ++ (titleLead t).2.firstLine.1, (titleLead t).2.firstLine.2)
      else ([], t) := by
  rfl

/-- **The ways of reading the arguments of a title**: none, up to the brace that closes the group, or up
to the end of the line. -/
theorem titleArguments_cases (t : Text) :
    titleArguments t = ([], t) ∨
      (∃ g, Group.read? (titleLead t).2 = some g ∧
        titleArguments t = ((titleLead t).1 ++ g.source, g.after)) ∨
      titleArguments t =
        ((titleLead t).1 ++ (titleLead t).2.firstLine.1, (titleLead t).2.firstLine.2) := by
  rw [titleArguments_eq]
  split
  · split
    · next g hg => exact Or.inr (Or.inl ⟨g, hg, rfl⟩)
    · exact Or.inr (Or.inr rfl)
  · exact Or.inl rfl

theorem titleArguments_append (t : Text) : (titleArguments t).1 ++ (titleArguments t).2 = t := by
  have hlead := titleLead_append t
  rcases titleArguments_cases t with h | ⟨g, hg, h⟩ | h
  · rw [h, List.nil_append]
  · have htext : g.source ++ g.after = (titleLead t).2 := Group.text_read? hg
    rw [h, List.append_assoc, htext, hlead]
  · rw [h, List.append_assoc, firstLine_append, hlead]

/-- **The arguments of a title end** where no escape is open, or at the end of a line. -/
theorem titleArguments_end (t : Text) :
    escapedAfter false (titleArguments t).1 = false ∨
      ∀ c ∈ (titleArguments t).2.head?, c = '\n' := by
  rcases titleArguments_cases t with h | ⟨g, hg, h⟩ | h
  · rw [h]
    exact Or.inl rfl
  · have hlead : escapedAfter false (titleLead t).1 = false := by
      have hspace := escapedAfter_blank (isBlankText_argumentSpace t)
      rw [titleLead]
      split
      · next g hg =>
          have hbracket := escapedAfter_source_of_read? (Option.filter_eq_some_iff.1 hg).1
          rw [escapedAfter_append, escapedAfter_append, hspace, hbracket,
            escapedAfter_blank (isBlankText_argumentSpace g.after)]
      · exact hspace
    rw [h]
    exact Or.inl (by rw [escapedAfter_append, hlead, escapedAfter_source_of_read? hg])
  · rw [h]
    exact Or.inr (head?_firstLine (titleLead t).2)

/-! ### The first title -/

/-- What stands behind the title once the directive is in the place of the first one. -/
def behindTitle (directive : Text) (c : Cut) : Text :=
  (after? directive (c.span ++ c.after)).getD c.after

/-- What the finder marks: the first command, with the arguments that are read behind it. -/
theorem titleFinder_eq_some {escaped : Bool} {t : Text} {c : Cut}
    (h : titleFinder escaped t = some c) :
    ∃ s : Sighting, Sighting.find? [titleName] escaped t = some s ∧
      c = ⟨s.before, s.source ++ (titleArguments s.after).1, (titleArguments s.after).2⟩ := by
  obtain ⟨s, hs, hc⟩ := Option.map_eq_some_iff.1 h
  exact ⟨s, hs, hc.symm⟩

/-- No title stands before the first one, and its backslash is not escaped. -/
theorem titleFinder_before {escaped : Bool} {t : Text} {c : Cut} (h : titleFinder escaped t = some c) :
    Sighting.find? [titleName] escaped c.before = none ∧ escapedAfter escaped c.before = false := by
  obtain ⟨s, hs, rfl⟩ := titleFinder_eq_some h
  exact Sighting.find?_before hs

theorem titleFinder_eq_none_iff {escaped : Bool} {t : Text} :
    titleFinder escaped t = none ↔ Sighting.find? [titleName] escaped t = none :=
  Option.map_eq_none_iff

/-- **A plain title is found as it is written**, behind a text without titles. -/
theorem find?_titleName_plainTitle {y a b : Text} {escaped : Bool}
    (ha : Sighting.find? [titleName] escaped a = none) (hfresh : escapedAfter escaped a = false) :
    Sighting.find? [titleName] escaped (a ++ plainTitle y ++ b) =
      some ⟨a, titleName, false, '{' :: y ++ '}' :: b⟩ := by
  have hname : ∀ c ∈ titleName, isLetter c = true := by decide
  have hends : EndsName ('{' :: y ++ '}' :: b) := endsName_brace _
  have hsplit : a ++ plainTitle y ++ b = a ++ '\\' :: (titleName ++ ('{' :: y ++ '}' :: b)) := by
    simp [plainTitle]
  rw [hsplit, Sighting.find?_append_source hname ha hfresh hends]

/-- A plain title at the place of the first title is that title. -/
theorem eq_of_plainTitle_append {y rest : Text} (hy : Plain y) {escaped : Bool} {t : Text} {c : Cut}
    (h : titleFinder escaped t = some c) (hc : c.span ++ c.after = plainTitle y ++ rest) :
    c.span = plainTitle y ∧ c.after = rest := by
  obtain ⟨s, hs, rfl⟩ := titleFinder_eq_some h
  obtain ⟨hname, hin⟩ := Sighting.isIn_find? hs
  obtain ⟨before, name, starred, after⟩ := s
  obtain rfl : name = titleName := by simpa using hname
  have hargs : (titleArguments after).1 ++ (titleArguments after).2 = after :=
    titleArguments_append after
  simp only [List.append_assoc, hargs] at hc
  cases starred with
  | true => simp [Sighting.source, plainTitle] at hc
  | false =>
      obtain rfl : after = '{' :: y ++ '}' :: rest := by
        simpa [Sighting.source, plainTitle] using hc
      dsimp only
      rw [titleArguments_plain hy]
      exact ⟨by simp [Sighting.source, plainTitle], rfl⟩

/-- **A plain directive takes the place of the first title and no more.** -/
theorem behindTitle_eq {y : Text} (hy : Plain y) {escaped : Bool} {t : Text} {c : Cut}
    (h : titleFinder escaped t = some c) : behindTitle (plainTitle y) c = c.after := by
  rw [behindTitle]
  cases hafter : after? (plainTitle y) (c.span ++ c.after) with
  | none => rfl
  | some rest => exact (eq_of_plainTitle_append hy h (after?_eq_some_iff.1 hafter)).2.symm

/-! ### One title -/

theorem escapedAfter_plainTitle {y : Text} (hy : '\\' ∉ y) :
    escapedAfter false (plainTitle y) = false := by
  have hrest : escapedAfter false (y ++ ['}']) = false := escapedAfter_plain (by simp [hy])
  simpa [plainTitle, titleName, escapes] using hrest

/-- A plain title counts as one command. -/
theorem heads_plainTitle {y : Text} (hy : Plain y) : heads false (plainTitle y) = 1 := by
  have hrest : heads false (y ++ ['}']) = 0 :=
    heads_plain fun h => by
      rcases List.mem_append.1 h with h | h
      · exact hy.slash_not_mem h
      · simp at h
  simpa [plainTitle, titleName, heads_cons, escapes, isHead] using hrest

/-- **There is one title** with the directive in the place of the first one exactly when no title stands
behind it. -/
theorem existsUnique_title_iff {y : Text} (hy : '\\' ∉ y) {a b : Text}
    (ha : Sighting.find? [titleName] false a = none) (hfresh : escapedAfter false a = false) :
    (∃! s : Sighting, s.name = titleName ∧ s.IsIn false (a ++ plainTitle y ++ b)) ↔
      Sighting.find? [titleName] false b = none := by
  have hsource : escapedAfter false (a ++ '\\' :: titleName) = false := by
    rw [escapedAfter_append, hfresh]
    decide
  have hargument : '\\' ∉ '{' :: y ++ ['}'] := by
    simp [hy]
  rw [Sighting.existsUnique_isIn_iff (by decide), find?_titleName_plainTitle ha hfresh]
  simp only [Option.some.injEq, exists_eq_left', Sighting.source, Bool.false_eq_true, if_false,
    List.append_nil, hsource]
  have hargs : '{' :: y ++ '}' :: b = ('{' :: y ++ ['}']) ++ b := by simp
  rw [hargs, Sighting.find?_plain_append hargument, Option.map_eq_none_iff]

/-- The place of the title in a text with one title. -/
theorem placeTitle_eq {y : Text} (hy : Plain y) {t : Text} {c : Cut}
    (hc : titleFinder false t = some c) (hone : Sighting.find? [titleName] false c.after = none) :
    placeTitle (plainTitle y) t = ⟨c.before, c.after⟩ := by
  have hbehind := behindTitle_eq hy hc
  rw [behindTitle] at hbehind
  rw [placeTitle, hc]
  simp only
  rw [hbehind, escapedAfter_append, (titleFinder_before hc).2, escapedAfter_plainTitle hy.slash_not_mem, removeAll,
    titleFinder_eq_none_iff.2 hone]
  rfl

/-- A text with one command that prints the title is left alone. -/
theorem oneMaketitle_eq {directive : Text} {place : TitlePlace}
    (h : ∃! s : Sighting, s.name = maketitleName ∧
      s.IsIn false (place.before ++ directive ++ place.after)) :
    oneMaketitle directive place = place.before ++ directive ++ place.after := by
  obtain ⟨s, hs, hnone⟩ := (Sighting.existsUnique_isIn_iff (by decide)).1 h
  have hfinder : commandFinder maketitleName
      (escapedAfter false (s.before ++ s.source)) s.after = none := by
    rw [commandFinder, hnone]
    rfl
  simp only [oneMaketitle, hs]
  rw [removeAll, hfinder]
  exact (Sighting.isIn_find? hs).2.text_eq

/-! ### The directive of a topic -/

theorem titleDirective_eq (identity : Identity) (topic : Text) :
    identity.titleDirective topic = plainTitle (identity.titlePayload topic) := rfl

/-- What holds of the characters of a topic, and of those that a title says anyway, holds of the title. -/
theorem forall_mem_titlePayload {p : Char → Prop} {topic : Text}
    (hlead : ∀ c ∈ ({} : Identity).titlePrefix ++ [':', ' '], p c)
    (hdefault : ∀ c ∈ ({} : Identity).defaultTopic.trim, p c) (htopic : ∀ c ∈ topic, p c) :
    ∀ c ∈ ({} : Identity).titlePayload topic, p c := by
  have hshown : ∀ c ∈ if topic.trim = [] then ({} : Identity).defaultTopic.trim else topic.trim,
      p c := by
    split
    · exact hdefault
    · exact fun c hc => htopic c ((deletes_trim topic).subset hc)
  intro c hc
  have hsplit : ({} : Identity).titlePayload topic = ({} : Identity).titlePrefix ++ [':', ' '] ++
      (if topic.trim = [] then ({} : Identity).defaultTopic.trim else topic.trim) := by
    simp [titlePayload]
  rw [hsplit, List.mem_append] at hc
  exact hc.elim (hlead c) (hshown c)

/-- The title of a plain topic is plain. -/
theorem plain_titlePayload {topic : Text} (h : Plain topic) :
    Plain (({} : Identity).titlePayload topic) :=
  forall_mem_titlePayload (by decide) (by decide) h

end Identity

end CribSheet
