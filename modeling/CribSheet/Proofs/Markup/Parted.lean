/-
Commands that are set off from the text in front of them.

Where a text is cut, what stands in front of the cut and what stands behind it meet, and a name may come about
that stood in neither of them.  It takes a letter in front of the cut for that, or the backslash itself.  Two
texts are therefore searched one after the other when the first one ends with neither, as well as when the
second one starts where no name can go on.

Main definitions:

* `CribSheet.Markup.IsWord` — words of letters, such as the names of commands;
* `CribSheet.Markup.Parted` — the text does not end with a letter;
* `CribSheet.Markup.Seam` — no command runs across the place where two texts meet;
* `CribSheet.Markup.Apart` — no command with the name is preceded by a letter.

Main results:

* `CribSheet.Markup.Sighting.IsIn.append_cases`, `CribSheet.Markup.Sighting.IsIn.within_front` — what stands on
  both sides of a seam;
* `CribSheet.Markup.Sighting.find?_append_eq_none_iff` — nothing is there exactly when nothing is on both sides;
* `CribSheet.Markup.Sighting.find?_eq_some_of_isIn` — what is found is what stands behind a text without it.
-/
import CribSheet.Proofs.Markup.Heads
import CribSheet.Proofs.Markup.Sighting
import Mathlib.Data.List.Chain

set_option relaxedAutoImplicit false
set_option autoImplicit false

namespace CribSheet.Markup

open CribSheet.Text

/-! ### Words -/

/-- **A word of letters**, such as the name of a command. -/
structure IsWord (name : Text) : Prop where
  /-- It holds letters only. -/
  letters : ∀ c ∈ name, isLetter c = true
  /-- It holds one at least. -/
  ne_nil : name ≠ []

theorem IsWord.slash_not_mem {name : Text} (h : IsWord name) : '\\' ∉ name :=
  fun hmem => absurd (h.letters _ hmem) (by decide)

/-- No escape is open behind a word. -/
theorem IsWord.escapedAfter {name : Text} (h : IsWord name) (escaped : Bool) :
    escapedAfter escaped name = false := by
  obtain ⟨first, letters, rfl⟩ := List.exists_cons_of_ne_nil h.ne_nil
  obtain ⟨hfirst, hletters⟩ := not_or.1 fun hmem => h.slash_not_mem (List.mem_cons.2 hmem)
  rw [escapedAfter_cons_of_ne (Ne.symm hfirst), escapedAfter_plain hletters]

/-- No escape is open behind a command. -/
theorem IsWord.escapedAfter_source {s : Sighting} (h : IsWord s.name) : Markup.escapedAfter false s.source = false := by
  obtain ⟨first, letters, hfirst⟩ := List.exists_cons_of_ne_nil h.ne_nil
  exact Sighting.escapedAfter_source hfirst h.slash_not_mem

/-! ### Ends of texts -/

/-- The text does not end with a letter. -/
def Parted (t : Text) : Prop := ∀ c ∈ t.getLast?, isLetter c = false

section Parted

variable {a b t : Text} {c : Char}

theorem parted_nil : Parted [] := by simp [Parted]

theorem parted_concat : Parted (t ++ [c]) ↔ isLetter c = false := by simp [Parted]

theorem parted_append_of_ne_nil (hb : b ≠ []) : Parted (a ++ b) ↔ Parted b := by
  rw [Parted, Parted, List.getLast?_append_of_ne_nil a hb]

theorem parted_of_getLast? (h : t.getLast? = some c) (hc : isLetter c = false) : Parted t := by
  intro d hd
  rw [h, Option.mem_some_iff] at hd
  rwa [← hd]

/-- Behind what does not end with a letter, it depends on the second text alone. -/
theorem Parted.append (ha : Parted a) (hb : Parted b) : Parted (a ++ b) := by
  cases b with
  | nil => rwa [List.append_nil]
  | cons c b => exact (parted_append_of_ne_nil (List.cons_ne_nil c b)).2 hb

theorem Parted.of_append (h : Parted (a ++ b)) : Parted b := by
  cases b with
  | nil => exact parted_nil
  | cons c b => exact (parted_append_of_ne_nil (List.cons_ne_nil c b)).1 h

end Parted

/-! ### Seams -/

/-- **No command runs across the place where the two texts meet.**  `escaped` says whether the first character
of the first text is escaped. -/
def Seam (escaped : Bool) (a b : Text) : Prop :=
  (Parted a ∧ escapedAfter escaped a = false) ∨ EndsName b

/-- A text that ends within a command ends with a letter or leaves an escape open. -/
theorem escapedAfter_of_letters {escaped : Bool} {x z : Text} (hx : escapedAfter escaped x = false)
    (hz : ∀ c ∈ z, isLetter c = true) (h : Parted (x ++ '\\' :: z)) :
    escapedAfter escaped (x ++ '\\' :: z) = true := by
  rcases List.eq_nil_or_concat z with rfl | ⟨z, c, rfl⟩
  · rw [escapedAfter_append, hx]
    rfl
  · have hletter := hz c (by simp)
    rw [List.concat_eq_append, ← List.cons_append, ← List.append_assoc, parted_concat, hletter] at h
    simp at h

namespace Sighting

variable {s : Sighting} {escaped : Bool} {a b t : Text}

/-- **What stands in front of a seam** stands in the whole text. -/
theorem IsIn.within_front (h : s.IsIn escaped a) (hseam : Seam escaped a b) (hname : IsWord s.name) :
    (s.within [] b).IsIn escaped (a ++ b) := by
  refine ⟨?_, h.fresh, fun hstar => ?_⟩
  · rw [← h.text_eq]
    simp only [text, before_within, source_within, after_within, List.nil_append, List.append_assoc]
  · rw [after_within]
    cases hafter : s.after with
    | cons c rest => exact endsName_cons.2 (endsName_cons.1 (hafter ▸ h.ends hstar))
    | nil =>
        -- The command runs up to the seam.
        have hsplit : a = s.before ++ '\\' :: s.name := by
          have hstar' : s.starred = false := hstar
          rw [← h.text_eq, text, source, hafter, hstar']
          simp
        refine hseam.resolve_left ?_
        rintro ⟨hparted, hclosed⟩
        rw [hsplit] at hparted hclosed
        rw [escapedAfter_of_letters h.fresh hname.letters hparted] at hclosed
        simp at hclosed

/-- What starts in front of the end of a text that no name runs across stands in it. -/
theorem IsIn.exists_front_of_parted (h : s.IsIn escaped (a ++ b)) (ha : Parted a)
    (hclosed : escapedAfter escaped a = false) (hname : IsWord s.name)
    (hlen : s.before.length < a.length) :
    ∃ s' : Sighting, s = s'.within [] b ∧ s'.IsIn escaped a := by
  obtain ⟨htext, hfresh, hends⟩ := h
  obtain ⟨before, name, starred, after⟩ := s
  simp only at hname hlen hfresh hends
  simp only [text, source, List.append_assoc] at htext
  obtain ⟨z, rfl⟩ : before <+: a :=
    List.prefix_of_prefix_length_le ⟨_, htext⟩ (List.prefix_append a b) (Nat.le_of_lt hlen)
  rw [List.append_assoc] at htext
  -- The first text ends within the command, or behind it.
  have hopen : ∀ r, '\\' :: name ≠ z ++ r := by
    intro r hr
    cases z with
    | nil => simp at hlen
    | cons c z =>
        obtain ⟨rfl, rfl⟩ := List.cons.inj hr
        rw [escapedAfter_of_letters hfresh (fun c hc => hname.letters c (List.mem_append_left r hc)) ha] at hclosed
        simp at hclosed
  rcases List.append_eq_append_iff.1 (List.append_cancel_left htext) with ⟨r, rfl, hr⟩ | ⟨r, hr, -⟩
  · cases r with
    | nil => exact absurd (by simp) (hopen [])
    | cons d r =>
        cases starred with
        | true =>
            obtain ⟨rfl, rfl⟩ := List.cons.inj (show '*' :: after = d :: (r ++ b) from hr)
            exact ⟨⟨before, name, true, r⟩, rfl, by simp [text, source], hfresh, fun hs => by simp at hs⟩
        | false =>
            obtain rfl : after = d :: (r ++ b) := hr
            refine ⟨⟨before, name, false, d :: r⟩, rfl, by simp [text, source], hfresh, fun _ => ?_⟩
            exact endsName_cons.2 (endsName_cons.1 (hends rfl))
  · exact absurd hr (hopen r)

/-- **What stands in two texts that meet at a seam** stands in one of them. -/
theorem IsIn.append_cases (h : s.IsIn escaped (a ++ b)) (hseam : Seam escaped a b) (hname : IsWord s.name) :
    (∃ s' : Sighting, s = s'.within [] b ∧ s'.IsIn escaped a) ∨
      ∃ s' : Sighting, s = s'.within a [] ∧ s'.IsIn (escapedAfter escaped a) b := by
  rcases Nat.lt_or_ge s.before.length a.length with hlt | hle
  · refine Or.inl ?_
    rcases hseam with ⟨ha, hclosed⟩ | hb
    · exact h.exists_front_of_parted ha hclosed hname hlt
    · exact h.exists_front hname.letters hb hlt
  · exact Or.inr (h.exists_within hle)

/-- **Nothing stands in two texts that meet at a seam** exactly when nothing stands in either. -/
theorem find?_append_eq_none_iff {name : Text} (hname : IsWord name) (hseam : Seam escaped a b) :
    find? [name] escaped (a ++ b) = none ↔
      find? [name] escaped a = none ∧ find? [name] (escapedAfter escaped a) b = none := by
  simp only [find?_eq_none_iff, List.mem_singleton]
  constructor
  · intro h
    exact ⟨fun s hs hin => h (s.within [] b) hs (hin.within_front hseam (by rwa [hs])),
      fun s hs hin => h (s.within a []) hs hin.within⟩
  · rintro ⟨hfirst, hsecond⟩ s hs hin
    rcases hin.append_cases hseam (by rwa [hs]) with ⟨s', rfl, hin'⟩ | ⟨s', rfl, hin'⟩
    · exact hfirst s' hs hin'
    · exact hsecond s' hs hin'

/-- **What is found** is what stands behind a text without it. -/
theorem find?_eq_some_of_isIn {name : Text} (hname : IsWord name) (hs : s.name = name)
    (h : s.IsIn escaped t) (hnone : find? [name] escaped s.before = none) :
    find? [name] escaped t = some s := by
  cases hfound : find? [name] escaped t with
  | none => exact absurd h (find?_eq_none_iff.1 hfound s (by simp [hs]))
  | some s' =>
      obtain ⟨hname', hin⟩ := isIn_find? hfound
      obtain rfl : s'.name = name := by simpa using hname'
      have hle := length_before_find?_le hfound (by simp [hs]) h
      rcases Nat.eq_or_lt_of_le hle with heq | hlt
      · rw [hin.eq_of_length_before_eq h hs.symm heq]
      · -- A command in front of it would stand in the text in front of it.
        have htext : s.before ++ (s.source ++ s.after) = t := by rw [← h.text_eq, text, List.append_assoc]
        obtain ⟨s'', rfl, hin''⟩ := (htext ▸ hin).exists_front hname.letters (endsName_backslash _) hlt
        exact absurd hin'' (find?_eq_none_iff.1 hnone s'' (by simp))

/-- **A command that is written between two texts without it** is there exactly when no letter follows. -/
theorem existsUnique_written_iff {name : Text} (hname : IsWord name)
    (ha : find? [name] escaped a = none) (hclosed : escapedAfter escaped a = false)
    (hb : find? [name] false b = none) :
    (∃! s : Sighting, s.name = name ∧ s.IsIn escaped (a ++ '\\' :: (name ++ b))) ↔
      ∀ c ∈ b.head?, isLetter c = false := by
  constructor
  · rintro ⟨s, ⟨hs, hin⟩, -⟩
    rcases hin.append_cases (Or.inr (endsName_backslash _)) (by rwa [hs]) with ⟨s₁, rfl, hin₁⟩ | ⟨s₁, rfl, hin₁⟩
    · exact absurd hin₁ (find?_eq_none_iff.1 ha s₁ (by simpa using hs))
    · rw [hclosed] at hin₁
      obtain rfl : s₁.name = name := hs
      rcases hin₁.eq_nil_or_behind with ⟨hbefore, -⟩ | ⟨s₂, rfl, hin₂⟩
      · -- It is the command that was written.
        have hrest : (if s₁.starred then ['*'] else []) ++ s₁.after = b := by
          simpa [text, source, hbefore] using hin₁.text_eq
        rw [← hrest]
        cases hstar : s₁.starred with
        | true => simp [isLetter]
        | false => exact fun c hc => (hin₁.ends hstar c hc).1
      · -- It stands behind it.
        have hname : IsWord s₂.name := hname
        obtain ⟨s₃, hs₃, hin₃⟩ := hin₂.exists_within_plain hname.slash_not_mem
        have hname₃ : s₃.name = s₂.name := (congrArg Sighting.name hs₃).symm
        rw [hname.escapedAfter] at hin₃
        exact absurd hin₃ (find?_eq_none_iff.1 hb s₃ (by simp [hname₃]))
  · intro h
    obtain ⟨starred, after, rfl, hends⟩ :
        ∃ starred after, b = (if starred then ['*'] else []) ++ after ∧ (starred = false → EndsName after) := by
      by_cases hstar : b.head? = some '*'
      · obtain ⟨after, rfl⟩ := List.head?_eq_some_iff.1 hstar
        exact ⟨true, after, rfl, by simp⟩
      · exact ⟨false, b, rfl, fun _ c hc => ⟨h c hc, fun hc' => hstar (hc' ▸ hc)⟩⟩
    have hin : (⟨a, name, starred, after⟩ : Sighting).IsIn escaped
        (a ++ '\\' :: (name ++ ((if starred then ['*'] else []) ++ after))) := by
      refine ⟨?_, hclosed, hends⟩
      simp [text, source]
    refine (existsUnique_isIn_iff hname.slash_not_mem).2 ⟨_, find?_eq_some_of_isIn hname rfl hin ha, ?_⟩
    have hstar : '\\' ∉ if starred then ['*'] else [] := by split <;> decide
    rw [find?_plain_append hstar, Option.map_eq_none_iff] at hb
    rw [escapedAfter_append, hclosed, IsWord.escapedAfter_source (by exact hname)]
    exact hb

end Sighting

/-! ### Commands that are set off -/

/-- **No command with the name is preceded by a letter.**  `escaped` says whether the first character of the
text is escaped. -/
def Apart (name : Text) (escaped : Bool) (t : Text) : Prop :=
  ∀ s : Sighting, s.name = name → s.IsIn escaped t → Parted s.before

namespace Apart

variable {name a b : Text} {escaped : Bool}

/-- The commands of a second text are set off in it. -/
theorem of_append (h : Apart name escaped (a ++ b)) : Apart name (escapedAfter escaped a) b :=
  fun s hs hin => (h (s.within a []) hs hin.within).of_append

/-- **Commands on both sides of a seam** that are set off. -/
theorem append (hname : IsWord name) (hseam : Seam escaped a b) (hparted : Parted a)
    (ha : Apart name escaped a) (hb : Apart name (escapedAfter escaped a) b) :
    Apart name escaped (a ++ b) := by
  intro s hs hin
  rcases hin.append_cases hseam (by rwa [hs]) with ⟨s', rfl, hin'⟩ | ⟨s', rfl, hin'⟩
  · exact ha s' hs hin'
  · exact hparted.append (hb s' hs hin')

/-- The commands in front of a seam are set off in front of it. -/
theorem of_append_left (hname : IsWord name) (hseam : Seam escaped a b)
    (h : Apart name escaped (a ++ b)) : Apart name escaped a :=
  fun s hs hin => h (s.within [] b) hs (hin.within_front hseam (by rwa [hs]))

/-- A text without a letter right in front of a backslash. -/
theorem of_isChain {t : Text} (h : t.IsChain fun c d => d = '\\' → isLetter c = false) :
    Apart name escaped t := by
  intro s _ hin c hc
  rw [hin.eq_append, List.isChain_append] at h
  exact h.2.2 c hc '\\' rfl rfl

/-- The commands behind the first one are set off, too. -/
theorem behind_found {t other : Text} {s : Sighting} (hname : IsWord name)
    (hs : Sighting.find? [name] escaped t = some s) (h : Apart other escaped t) : Apart other false s.after := by
  obtain ⟨hsname, hin⟩ := Sighting.isIn_find? hs
  obtain rfl : s.name = name := by simpa using hsname
  have htext : s.before ++ s.source ++ s.after = t := hin.text_eq
  have hread : escapedAfter escaped (s.before ++ s.source) = false := by
    rw [escapedAfter_append, hin.fresh, hname.escapedAfter_source]
  rw [← htext] at h
  exact hread ▸ h.of_append

theorem of_find?_eq_none {t : Text} (h : Sighting.find? [name] escaped t = none) : Apart name escaped t :=
  fun s hs hin => absurd hin (Sighting.find?_eq_none_iff.1 h s (by simp [hs]))

end Apart

end CribSheet.Markup
