/-
What remains of a text when commands are taken out of it.

Taking a command out brings what stands in front of it together with what stands behind it.  When a letter
stands in front of no such command, the cut ends there with no letter and with no escape open, so that no
command runs across it.  What stands in the remains is therefore there in the text, too, and it is still set
off when it was.

Main definitions:

* `CribSheet.Markup.Finder.Marks` — the finder marks the commands with a name, with what belongs to them.

Main results:

* `CribSheet.Identity.exists_isIn_of_remains` — what stands in the remains stands in the text;
* `CribSheet.Identity.find?_remains`, `CribSheet.Identity.apart_remains` — the commands are gone, and others are
  set off in the remains when they were.
-/
import CribSheet.Proofs.Markup.Parted
import CribSheet.Proofs.Sheet.Placing

set_option relaxedAutoImplicit false
set_option autoImplicit false

namespace CribSheet

open CribSheet.Text CribSheet.Markup

/-! ### Finders of commands -/

/-- **The finder marks the first command with the name**, and what follows it up to where no escape is open or
a line ends. -/
structure Markup.Finder.Marks (find : Finder) (name : Text) : Prop where
  /-- The name is a word. -/
  isWord : IsWord name
  /-- What is marked begins with the first command. -/
  found : ∀ {escaped : Bool} {t : Text} {c : Cut}, find escaped t = some c →
    ∃ s arguments, Sighting.find? [name] escaped t = some s ∧
      c.before = s.before ∧ c.span = s.source ++ arguments ∧ s.after = arguments ++ c.after ∧
      (escapedAfter false arguments = false ∨ ∀ d ∈ c.after.head?, d = '\n')
  /-- Nothing is marked when there is no command. -/
  missed : ∀ {escaped : Bool} {t : Text}, find escaped t = none → Sighting.find? [name] escaped t = none

theorem Markup.Finder.Marks.splits {find : Finder} {name : Text} (h : find.Marks name) : find.Splits := by
  intro escaped t c hc
  obtain ⟨s, arguments, hs, hbefore, hspan, hafter, -⟩ := h.found hc
  rw [Cut.text, hbefore, hspan, ← Sighting.text_find? hs, Sighting.text, hafter]
  simp only [List.append_assoc]

theorem Markup.commandFinder_marks {name : Text} (hname : IsWord name) : (commandFinder name).Marks name where
  isWord := hname
  found h := by
    obtain ⟨s, hs, rfl⟩ := Option.map_eq_some_iff.1 h
    exact ⟨s, [], hs, rfl, (List.append_nil _).symm, rfl, Or.inl rfl⟩
  missed h := Option.map_eq_none_iff.1 h

/-- **Where nothing is taken out**, nothing is there. -/
theorem Markup.Finder.Marks.find?_eq_none {find : Finder} {name : Text} (h : find.Marks name)
    {escaped blank : Bool} {t : Text} (heq : (removeAll find escaped blank t).result = t) :
    Sighting.find? [name] escaped t = none := by
  cases hfound : find escaped t with
  | none => exact h.missed hfound
  | some c =>
      obtain ⟨s, arguments, -, -, hspan, -⟩ := h.found hfound
      have hlt := countP_result_removeAll_lt find h.splits escaped blank hfound (q := (· == '\\'))
        (by simp [hspan, Sighting.source])
      rw [heq] at hlt
      exact absurd hlt (Nat.lt_irrefl _)

/-- The first command is not at the start of the text, and so the text starts as before. -/
theorem Markup.Finder.Marks.endsName_remains {find : Finder} {name : Text} (h : find.Marks name)
    {escaped : Bool} {t : Text} (hends : EndsName t)
    (hbefore : ∀ s, Sighting.find? [name] escaped t = some s → s.before ≠ []) :
    EndsName (removeAll find escaped false t).result := by
  rw [removeAll]
  cases hfound : find escaped t with
  | none => exact hends
  | some found =>
      obtain ⟨s, arguments, hs, hsbefore, -⟩ := h.found hfound
      have htext : found.text = t := h.splits hfound
      have hne : (found.wholeLines false).before ≠ [] := by
        rcases found.wholeLines_cases false with hc | ⟨-, hfalse⟩ | ⟨x, hc⟩
        · rw [hc, hsbefore]
          exact hbefore s hs
        · simp at hfalse
        · simp [hc]
      rw [← htext, ← Cut.text_wholeLines false found, Cut.text, List.append_assoc] at hends
      simp only
      split
      · rw [Revision.result_cons, List.append_nil]
        exact endsName_append_of_ne_nil hne hends
      · rwa [Revision.result_none, ← htext, ← Cut.text_wholeLines false found, Cut.text, List.append_assoc]

namespace Identity

theorem isWord_titleName : IsWord titleName := ⟨by decide, by decide⟩

theorem isWord_maketitleName : IsWord maketitleName := ⟨by decide, by decide⟩

theorem titleFinder_marks : titleFinder.Marks titleName where
  isWord := isWord_titleName
  found h := by
    obtain ⟨s, hs, rfl⟩ := titleFinder_eq_some h
    exact ⟨s, (titleArguments s.after).1, hs, rfl, rfl, (titleArguments_append s.after).symm,
      titleArguments_end s.after⟩
  missed h := titleFinder_eq_none_iff.1 h

/-! ### Cuts -/

/-- Where the first character may be escaped, nothing else is read differently. -/
theorem Loose.isIn {escaped : Bool} {t : Text} (h : Loose escaped t) {s : Sighting} (hs : s.IsIn false t) :
    s.IsIn escaped t :=
  ⟨hs.text_eq, (h.before hs.eq_append).1.trans hs.fresh, hs.ends⟩

theorem Loose.apart {escaped : Bool} {t name : Text} (h : Loose escaped t) (hapart : Apart name escaped t) :
    Apart name false t := fun s hs hin => hapart s hs (h.isIn hin)

theorem parted_before_wholeLines {c : Cut} (h : Parted c.before) (blank : Bool) :
    Parted (c.wholeLines blank).before := by
  rcases c.wholeLines_cases blank with hc | ⟨hc, -⟩ | ⟨x, hc⟩
  · rwa [hc]
  · rw [hc]
    exact parted_nil
  · rw [hc, parted_concat]
    decide

section Remains

variable {find : Finder} {name : Text} (hfind : find.Marks name)
  {escaped : Bool} (blank : Bool) {t : Text} (hloose : Loose escaped t) (hapart : Apart name escaped t)

include hfind hloose in
/-- **One cut**: no escape is open in front of it, and behind it one is in front of a line break at most. -/
theorem loose_behind_cut {found : Cut} (h : find escaped t = some found) :
    escapedAfter false (found.wholeLines blank).before = false ∧
      Loose (escapedAfter escaped ((found.wholeLines blank).before ++ (found.wholeLines blank).span))
        (found.wholeLines blank).after := by
  obtain ⟨s, arguments, hs, hbefore, hspan, hafter, hend⟩ := hfind.found h
  obtain ⟨hname, hin⟩ := Sighting.isIn_find? hs
  obtain rfl : s.name = name := by simpa using hname
  have hsource : escapedAfter false s.source = false := hfind.isWord.escapedAfter_source
  obtain ⟨x, z, -, hz, hx, hgrown, hrest⟩ := found.exists_wholeLines blank
  constructor
  · refine escapedAfter_before_wholeLines ?_ blank
    rw [hbefore, ← (hloose.before hin.eq_append).1, hin.fresh]
  · have hread : (found.wholeLines blank).before ++ (found.wholeLines blank).span =
        s.before ++ (s.source ++ (arguments ++ z)) := by
      rw [hgrown, hspan, ← List.append_assoc, ← List.append_assoc, ← hx, hbefore]
      simp only [List.append_assoc]
    rw [hread, escapedAfter_append, hin.fresh, escapedAfter_append, hsource, escapedAfter_append]
    exact (loose_arguments (hrest ▸ hend)).behind_blanks hz

include hfind hapart in
/-- In front of a cut stands no letter. -/
theorem parted_before_cut {found : Cut} (h : find escaped t = some found) :
    Parted (found.wholeLines blank).before := by
  obtain ⟨s, arguments, hs, hbefore, -⟩ := hfind.found h
  obtain ⟨hname, hin⟩ := Sighting.isIn_find? hs
  refine parted_before_wholeLines ?_ blank
  rw [hbefore]
  exact hapart s (by simpa using hname) hin

include hfind in
/-- In front of a cut stands none of the commands. -/
theorem name_ne_of_before_cut {found : Cut} (h : find escaped t = some found) {s : Sighting}
    (hin : s.IsIn escaped t) (hlt : s.before.length < (found.wholeLines blank).before.length) : s.name ≠ name := by
  intro hname
  obtain ⟨first, arguments, hfirst, hbefore, -⟩ := hfind.found h
  have hle := Sighting.length_before_find?_le hfirst (by simp [hname]) hin
  obtain ⟨x, -, -, -, hx, -⟩ := found.exists_wholeLines blank
  have hlen := congrArg List.length (hbefore.symm.trans hx)
  rw [List.length_append] at hlen
  omega

include hfind hloose hapart in
/-- **What stands in the remains stands in the text**, has another name, and is set off when it was. -/
theorem exists_isIn_of_remains {s' : Sighting} (hname' : IsWord s'.name)
    (hs' : s'.IsIn false (removeAll find escaped blank t).result) :
    s'.name ≠ name ∧ ∃ s : Sighting, s.name = s'.name ∧ s.IsIn escaped t ∧
      (Parted s.before → Parted s'.before) := by
  fun_induction removeAll find escaped blank t generalizing s' with
  | case1 escaped blank t hnone =>
      have hin := hloose.isIn hs'
      refine ⟨fun hname => ?_, s', rfl, hin, id⟩
      exact Sighting.find?_eq_none_iff.1 (hfind.missed hnone) s' (by simp [hname]) hin
  | case2 escaped blank t found hfound c hlt read ih =>
      have htext : read ++ c.after = t := (Cut.text_wholeLines blank found).trans (hfind.splits hfound)
      obtain ⟨hclosed, hbehind⟩ := loose_behind_cut hfind blank hloose hfound
      have hparted : Parted c.before := parted_before_cut hfind blank hapart hfound
      rw [Revision.result_cons, List.append_nil] at hs'
      rcases hs'.append_cases (Or.inl ⟨hparted, hclosed⟩) hname' with ⟨s, rfl, hin⟩ | ⟨s, rfl, hin⟩
      · -- In front of the cut stands what stands in front of the first command.
        have hwhole : (s.within [] (c.span ++ c.after)).IsIn escaped t := by
          refine hloose.isIn ?_
          have hfront := hin.within_front (b := c.span ++ c.after) (Or.inl ⟨hparted, hclosed⟩) hname'
          rwa [← List.append_assoc, htext] at hfront
        have hname : s.name ≠ name := name_ne_of_before_cut hfind blank hfound
          (s := s.within [] (c.span ++ c.after)) hwhole hin.length_before_lt
        exact ⟨hname, s.within [] (c.span ++ c.after), rfl, hwhole, id⟩
      · -- What stands behind it stands behind the first command.
        rw [hclosed] at hin
        have hname' : IsWord s.name := hname'
        obtain ⟨hname, s₀, hs₀, hin₀, hkept⟩ := ih hbehind (Apart.of_append (htext ▸ hapart)) hname' hin
        refine ⟨hname, s₀.within read [], hs₀, htext ▸ hin₀.within, fun h => ?_⟩
        exact hparted.append (hkept h.of_append)
  | case3 escaped blank t found hfound c hlt =>
      obtain ⟨s, arguments, -, -, hspan, -⟩ := hfind.found hfound
      refine absurd (length_after_wholeLines_lt hfind.splits escaped blank hfound ?_) hlt
      simp [hspan, Sighting.source]

include hfind hloose hapart

/-- **The commands are gone**, -/
theorem find?_remains : Sighting.find? [name] false (removeAll find escaped blank t).result = none := by
  refine Sighting.find?_eq_none_iff.2 fun s hs hin => ?_
  obtain rfl : s.name = name := by simpa using hs
  exact (exists_isIn_of_remains hfind blank hloose hapart hfind.isWord hin).1 rfl

/-- and no others have come in, -/
theorem find?_remains_of_none {other : Text} (hother : IsWord other)
    (hnone : Sighting.find? [other] escaped t = none) :
    Sighting.find? [other] false (removeAll find escaped blank t).result = none := by
  refine Sighting.find?_eq_none_iff.2 fun s hs hin => ?_
  obtain rfl : s.name = other := by simpa using hs
  obtain ⟨-, s₀, hs₀, hin₀, -⟩ := exists_isIn_of_remains hfind blank hloose hapart hother hin
  exact Sighting.find?_eq_none_iff.1 hnone s₀ (by simp [hs₀]) hin₀

/-- and others are set off in the remains when they were. -/
theorem apart_remains {other : Text} (hother : IsWord other) (hkept : Apart other escaped t) :
    Apart other false (removeAll find escaped blank t).result := by
  intro s hs hin
  obtain ⟨-, s₀, hs₀, hin₀, hparted⟩ :=
    exists_isIn_of_remains hfind blank hloose hapart (hs ▸ hother) hin
  exact hparted (hkept s₀ (hs₀.trans hs) hin₀)

end Remains

end Identity

end CribSheet
