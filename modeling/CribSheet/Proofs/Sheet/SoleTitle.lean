/-
The title stage leaves one title.

Whatever the sheet said, the directive of the topic stands in it behind the title stage, at the place of the
first title or before it.  When no command for a title or for printing it is preceded by a letter, nothing that
is taken out brings a title about, and the directive is the only one.

Main definitions:

* `CribSheet.Identity.Sole` — a title is the only title command of a text;
* `CribSheet.Identity.Kept` — a title stays where the text around it is changed;
* `CribSheet.Identity.TitlePlace.Clear` — a place for the title in a text without other titles.

Main results:

* `CribSheet.Identity.kept_remains` — a title stays where commands that print it are taken out;
* `CribSheet.Identity.exists_title_in_enforceTitle` — the directive stands in every sheet;
* `CribSheet.Identity.sole_enforceTitle` — it is the only title of a sheet whose commands are set off.
-/
import CribSheet.Proofs.Sheet.FirstTitle
import CribSheet.Proofs.Sheet.Remains

set_option relaxedAutoImplicit false
set_option autoImplicit false

namespace CribSheet

open CribSheet.Text CribSheet.Markup

namespace Identity

variable {y a b t : Text}

/-- **The title with the argument `y` is the only title of the text.** -/
def Sole (y t : Text) : Prop :=
  ∃ a b, t = a ++ plainTitle y ++ b ∧ escapedAfter false a = false ∧ Untitled false a ∧ Untitled false b

/-- Where a title stands, a title command stands. -/
theorem isIn_plainTitle {escaped : Bool} (ha : escapedAfter escaped a = false) :
    (⟨a, titleName, false, '{' :: y ++ '}' :: b⟩ : Sighting).IsIn escaped (a ++ plainTitle y ++ b) := by
  refine ⟨?_, ha, fun _ => endsName_brace _⟩
  simp [Sighting.text, Sighting.source, plainTitle]

/-- **The title between `a` and `b` is kept** in the text: it stands there, not behind its place, and it is the
only title where it was and the commands are set off. -/
def Kept (y : Text) (apart : Prop) (a b t : Text) : Prop :=
  ∃ a' b', t = a' ++ plainTitle y ++ b' ∧ escapedAfter false a' = false ∧ a'.length ≤ a.length ∧
    (apart → Untitled false a → Untitled false b → Untitled false a' ∧ Untitled false b')

namespace Kept

variable {apart apart' : Prop}

/-- Something happens behind the title. -/
theorem behind {b' : Text} (ha : escapedAfter false a = false)
    (hb : apart → Untitled false b → Untitled false b') : Kept y apart a b (a ++ plainTitle y ++ b') :=
  ⟨a, b', rfl, ha, Nat.le_refl _, fun hapart hfirst hlast => ⟨hfirst, hb hapart hlast⟩⟩

/-- Something happens in front of the title, and the rest stands behind it. -/
theorem append_left {x a' : Text} (h : Kept y apart' a' b t) (hx : escapedAfter false x = false)
    (hlen : x.length + a'.length ≤ a.length)
    (ha : apart → Untitled false a →
      apart' ∧ Untitled false a' ∧ ∀ u, Untitled false u → Untitled false (x ++ u)) :
    Kept y apart a b (x ++ t) := by
  obtain ⟨a₂, b₂, rfl, hclosed, hle, hnone⟩ := h
  refine ⟨x ++ a₂, b₂, by simp only [List.append_assoc], ?_, ?_, fun hapart hfirst hlast => ?_⟩
  · rw [escapedAfter_append, hx, hclosed]
  · rw [List.length_append]
    omega
  · obtain ⟨hapart', hfirst', hkeep⟩ := ha hapart hfirst
    obtain ⟨hfirst₂, hlast₂⟩ := hnone hapart' hfirst' hlast
    exact ⟨hkeep a₂ hfirst₂, hlast₂⟩

end Kept

/-! ### Taking out commands that print the title -/

/-- What goes with a command that prints the title holds no title. -/
theorem untitled_cut_append_iff {escaped escaped' : Bool} {found : Cut}
    (h : commandFinder maketitleName escaped t = some found) (blank : Bool) {p q : Text} :
    Untitled escaped' (p ++ (found.wholeLines blank).span ++ q) ↔ Untitled escaped' p ∧ Untitled false q := by
  obtain ⟨s, hs, rfl⟩ := Option.map_eq_some_iff.1 h
  obtain ⟨hname, -⟩ := Sighting.isIn_find? hs
  obtain ⟨x, z, hx, hz, -, hspan, -⟩ := Cut.exists_wholeLines blank ⟨s.before, s.source, s.after⟩
  have hsplit : p ++ (Cut.wholeLines blank ⟨s.before, s.source, s.after⟩).span ++ q =
      { s with before := p ++ x }.before ++ s.source ++ (z ++ q) := by
    rw [hspan]
    simp only [List.append_assoc]
  rw [hsplit]
  refine (untitled_source_append_iff (s := { s with before := p ++ x }) (by simpa using hname)).trans ?_
  rw [untitled_append_iff (endsName_of_isBlankText hx),
    untitled_plain_append_iff (slash_not_mem_of_isBlankText hz)]
  exact ⟨fun h => ⟨h.1.1, h.2⟩, fun h => ⟨⟨h.1, untitled_blank hx _⟩, h.2⟩⟩

/-- **The cut for a command that prints the title** lies in front of a title or behind it. -/
theorem cut_cases (hy : '\\' ∉ y) (ha : escapedAfter false a = false) {found : Cut}
    (h : commandFinder maketitleName false (a ++ plainTitle y ++ b) = some found) (blank : Bool) :
    (∃ a', a = (found.wholeLines blank).before ++ (found.wholeLines blank).span ++ a' ∧
        (found.wholeLines blank).after = a' ++ plainTitle y ++ b) ∨
      ∃ w, (found.wholeLines blank).before = a ++ plainTitle y ++ w ∧
        b = w ++ (found.wholeLines blank).span ++ (found.wholeLines blank).after := by
  obtain ⟨s, hs, rfl⟩ := Option.map_eq_some_iff.1 h
  have htext := (Cut.text_wholeLines blank ⟨s.before, s.source, s.after⟩).trans (Sighting.text_find? hs)
  obtain ⟨x, z, hx, hz, hbefore, hspan, hafter⟩ :=
    Cut.exists_wholeLines blank ⟨s.before, s.source, s.after⟩
  generalize Cut.wholeLines blank ⟨s.before, s.source, s.after⟩ = c at htext hbefore hspan hafter ⊢
  simp only at hbefore hspan hafter
  rcases maketitle_cases hy ha hs with ⟨s', hs', rfl⟩ | ⟨w, hw⟩
  · rw [Sighting.after_within, ← List.append_assoc] at hafter
    obtain ⟨a', ha', hrest⟩ := cut_plainTitle_plain (slash_not_mem_of_isBlankText hz) hafter.symm
    refine Or.inl ⟨a', ?_, hrest⟩
    rw [← Sighting.text_find? hs', Sighting.text, ha', hspan]
    rw [Sighting.before_within, List.nil_append] at hbefore
    rw [hbefore]
    simp
  · obtain ⟨w', hw', -⟩ := cut_plainTitle_blank hx (hbefore.symm.trans hw)
    refine Or.inr ⟨w', hw', ?_⟩
    rw [Cut.text, hw', List.append_assoc, List.append_assoc] at htext
    simpa using (List.append_cancel_left htext).symm

/-- **A title stays where commands that print it are taken out.** -/
theorem kept_remains (hy : '\\' ∉ y) {escaped : Bool} (hescaped : escaped = false) (blank : Bool)
    (ht : t = a ++ plainTitle y ++ b) (ha : escapedAfter false a = false) :
    Kept y (Apart maketitleName false t) a b (removeAll (commandFinder maketitleName) escaped blank t).result := by
  have hmarks := commandFinder_marks isWord_maketitleName
  fun_induction removeAll (commandFinder maketitleName) escaped blank t generalizing a b with
  | case1 => exact ht ▸ .behind ha fun _ hlast => hlast
  | case2 escaped blank t found hfound c hlt =>
      rename_i read ih
      subst hescaped
      obtain ⟨hclosed, hread⟩ : escapedAfter false c.before = false ∧ escapedAfter false read = false :=
        escapedAfter_cut_command rfl (by decide) hfound blank
      have hparted : Apart maketitleName false t → Parted c.before := fun hapart =>
        parted_before_cut hmarks blank hapart hfound
      have hbehind : Apart maketitleName false t → Apart maketitleName false c.after := by
        intro hapart
        have htext : read ++ c.after = t := (Cut.text_wholeLines blank found).trans (hmarks.splits hfound)
        rw [← htext] at hapart
        exact hread ▸ hapart.of_append
      rw [Revision.result_cons, List.append_nil]
      rcases cut_cases hy ha (ht ▸ hfound) blank with ⟨a', hsplit, hrest⟩ | ⟨w, hbefore, hsplit⟩
      · -- The cut lies in front of the title, which stands in the rest.
        have hsplit : a = read ++ a' := hsplit
        have ha' : escapedAfter false a' = false := by
          rwa [hsplit, escapedAfter_append, hread] at ha
        refine (ih hread hrest ha').append_left hclosed ?_ fun hapart hfirst => ?_
        · simp only [hsplit, read, List.length_append]
          omega
        · have hseam : ∀ u, Seam false c.before u := fun u => Or.inl ⟨hparted hapart, hclosed⟩
          rw [hsplit, untitled_cut_append_iff hfound] at hfirst
          refine ⟨hbehind hapart, hfirst.2, fun u hu => ?_⟩
          exact (Sighting.find?_append_eq_none_iff isWord_titleName (hseam u)).2 ⟨hfirst.1, hclosed.symm ▸ hu⟩
      · -- The cut lies behind the title, which is written before it.
        have hbefore : c.before = a ++ plainTitle y ++ w := hbefore
        have hw : escapedAfter false w = false := by
          rwa [hbefore, escapedAfter_append, escapedAfter_append, ha, escapedAfter_plainTitle hy] at hclosed
        simp only [hbefore]
        rw [List.append_assoc]
        refine .behind ha fun hapart hlast => ?_
        rw [hsplit, untitled_cut_append_iff hfound] at hlast
        have hseam : ∀ u, Seam false w u := fun u =>
          Or.inl ⟨(hbefore ▸ hparted hapart : Parted (a ++ plainTitle y ++ w)).of_append, hw⟩
        refine (Sighting.find?_append_eq_none_iff isWord_titleName (hseam _)).2 ⟨hlast.1, ?_⟩
        rw [hw, hread]
        exact find?_remains_of_none hmarks _ (loose_false _) (hbehind hapart) isWord_titleName hlast.2
  | case3 => exact ht ▸ .behind ha fun _ hlast => hlast

/-! ### Seeing to one command that prints the title -/

/-- What is put in to print the title holds no title, and separates. -/
theorem untitled_maketitle_append_iff {escaped : Bool} {p q : Text} :
    Untitled escaped (p ++ '\n' :: maketitle ++ q) ↔ Untitled escaped p ∧ Untitled false q := by
  have hsplit : p ++ '\n' :: maketitle ++ q =
      (p ++ ['\n']) ++ (⟨p ++ ['\n'], maketitleName, false, q⟩ : Sighting).source ++ q := by
    simp [Sighting.source, maketitle]
  rw [hsplit]
  refine (untitled_source_append_iff (s := ⟨p ++ ['\n'], maketitleName, false, q⟩) rfl).trans ?_
  rw [untitled_append_iff (endsName_newline [])]
  exact ⟨fun h => ⟨h.1.1, h.2⟩, fun h => ⟨⟨h.1, untitled_blank (by decide) _⟩, h.2⟩⟩

/-- **The directive stays where one command that prints the title is seen to.** -/
theorem kept_oneMaketitle (hy : '\\' ∉ y) {p : TitlePlace} (hp : escapedAfter false p.before = false) :
    Kept y (Apart maketitleName false (p.filled y)) p.before p.after (oneMaketitle (plainTitle y) p) := by
  rcases oneMaketitle_cases (y := y) p with ⟨s, blank, hs, heq⟩ | ⟨-, w, b, hfilled, hw, heq⟩
  · obtain ⟨hname, hfresh, hsource, -⟩ := find?_command rfl (by decide) hs
    have hbehind : Apart maketitleName false (p.filled y) → Apart maketitleName false s.after :=
      Apart.behind_found isWord_maketitleName hs
    rcases maketitle_cases hy hp hs with ⟨s', hs', rfl⟩ | ⟨z, hz⟩
    · -- The first of these commands stands before the directive.
      have hname : s'.name = maketitleName := hname
      have hread : escapedAfter false (s'.before ++ s'.source) = false := by
        rw [escapedAfter_append]
        exact (congrArg (escapedAfter · s'.source) hfresh).trans hsource
      have htext : p.before = s'.before ++ s'.source ++ s'.after := (Sighting.text_find? hs').symm
      have hclosed : escapedAfter false s'.after = false := by
        rwa [htext, escapedAfter_append, hread] at hp
      have hrest := kept_remains hy rfl blank (List.append_assoc s'.after (plainTitle y) p.after).symm hclosed
      rw [heq]
      refine Kept.append_left hrest hread ?_ fun hapart hfirst => ?_
      · rw [htext, List.length_append, List.length_append, List.length_append]
        exact Nat.le_refl _
      · rw [htext, untitled_source_append_iff hname] at hfirst
        exact ⟨hbehind hapart, hfirst.2, fun u hu => (untitled_source_append_iff hname).2 ⟨hfirst.1, hu⟩⟩
    · -- It stands behind the directive, which is written before it.
      have hafter : p.after = z ++ s.source ++ s.after := by
        have htext := Sighting.text_find? hs
        rw [Sighting.text, hz, List.append_assoc, List.append_assoc] at htext
        simpa using (List.append_cancel_left htext).symm
      have hiff : ∀ u, Untitled false (z ++ s.source ++ u) ↔ Untitled false z ∧ Untitled false u := fun u =>
        untitled_source_append_iff (s := { s with before := z }) hname
      rw [heq, hz, List.append_assoc, List.append_assoc, ← List.append_assoc z]
      refine .behind hp fun hapart hlast => ?_
      rw [hafter, hiff] at hlast
      refine (hiff _).2 ⟨hlast.1, ?_⟩
      exact find?_remains_of_none (commandFinder_marks isWord_maketitleName) blank (loose_false _)
        (hbehind hapart) isWord_titleName hlast.2
  · -- One is put in behind the directive, or behind the marker of the root.
    have hafter : p.after = w ++ b := by
      rw [TitlePlace.filled, List.append_assoc _ w] at hfilled
      exact List.append_cancel_left hfilled
    have hend : Parted w ∧ escapedAfter false w = false := by
      rcases hw with rfl | hlast
      · exact ⟨parted_nil, rfl⟩
      · exact ⟨parted_of_getLast? hlast (by decide), escapedAfter_of_getLast? hlast (by decide) false⟩
    rw [heq, List.append_assoc _ w, List.append_assoc _ (w ++ _)]
    refine .behind hp fun _ hlast => ?_
    rw [hafter, Untitled, Sighting.find?_append_eq_none_iff isWord_titleName (Or.inl hend), hend.2] at hlast
    exact untitled_maketitle_append_iff.2 hlast

/-! ### The place of the title -/

/-- What stands behind the title with the directive in its place, and where it comes from. -/
theorem exists_behindTitle (hy : '\\' ∉ y) {c : Cut} (h : titleFinder false t = some c) :
    ∃ w, t = c.before ++ w ++ behindTitle (plainTitle y) c ∧
      Loose (escapedAfter false (c.before ++ w)) (behindTitle (plainTitle y) c) := by
  obtain ⟨command, arguments, hspan, -, hfresh, hstate, -, hend⟩ := exists_titleSpan h
  have htext : c.before ++ c.span ++ c.after = t := titleFinder_splits h
  cases hafter : after? (plainTitle y) (c.span ++ c.after) with
  | some rest =>
      have hbehind : behindTitle (plainTitle y) c = rest := by rw [behindTitle, hafter, Option.getD_some]
      rw [hbehind]
      refine ⟨plainTitle y, ?_, ?_⟩
      · rw [← htext, List.append_assoc, after?_eq_some_iff.1 hafter, List.append_assoc]
      · rw [escapedAfter_append, hfresh, escapedAfter_plainTitle hy]
        exact loose_false rest
  | none =>
      have hbehind : behindTitle (plainTitle y) c = c.after := by rw [behindTitle, hafter, Option.getD_none]
      rw [hbehind]
      refine ⟨c.span, htext.symm, ?_⟩
      rw [escapedAfter_append, hfresh, hspan, escapedAfter_append, hstate]
      exact loose_arguments hend

theorem parted_plainTitle (y : Text) : Parted (plainTitle y) := by
  rw [plainTitle, parted_concat]
  decide

/-- A text around the directive has the commands that print the title on both sides. -/
theorem apart_around (hy : '\\' ∉ y) (ha : Parted a) (hclosed : escapedAfter false a = false)
    (hfirst : Apart maketitleName false a) (hlast : Apart maketitleName false b) :
    Apart maketitleName false (a ++ plainTitle y ++ b) := by
  have htitle : Apart maketitleName false (plainTitle y) := by
    refine Apart.of_find?_eq_none ?_
    rw [← List.append_nil (plainTitle y), find?_plainTitle_append hy]
    rfl
  have hstate : escapedAfter false (a ++ plainTitle y) = false := by
    rw [escapedAfter_append, hclosed, escapedAfter_plainTitle hy]
  have hparted : Parted (a ++ plainTitle y) := ha.append (parted_plainTitle y)
  refine Apart.append isWord_maketitleName (Or.inl ⟨hparted, hstate⟩) hparted ?_ (by rwa [hstate])
  exact Apart.append isWord_maketitleName (Or.inl ⟨ha, hclosed⟩) ha hfirst (by rwa [hclosed])

/-- **A place for the title** in a text without other titles, whose commands that print it are set off. -/
structure TitlePlace.Clear (y : Text) (p : TitlePlace) : Prop where
  /-- No escape is open there. -/
  closed : escapedAfter false p.before = false
  /-- No title stands before it. -/
  before : Untitled false p.before
  /-- No title stands behind it. -/
  after : Untitled false p.after
  /-- The commands that print the title are set off. -/
  apart : Apart maketitleName false (p.filled y)

/-- The place of the first title is clear. -/
theorem clear_placeTitle_found (hy : '\\' ∉ y) (htitle : Apart titleName false t)
    (hmaketitle : Apart maketitleName false t) {c : Cut} (h : titleFinder false t = some c) :
    (placeTitle (plainTitle y) t).Clear y := by
  have hclosed := escapedAfter_before_placeTitle hy t
  obtain ⟨blank, hplace⟩ := placeTitle_behindTitle hy h
  obtain ⟨w, hw, hloose⟩ := exists_behindTitle hy h
  obtain ⟨s, hs, hcut⟩ := titleFinder_eq_some h
  have hbefore : c.before = s.before := by rw [hcut]
  obtain ⟨hname, hin⟩ := Sighting.isIn_find? hs
  have hparted : Parted c.before := hbefore ▸ htitle s (by simpa using hname) hin
  have hbehind : ∀ name, Apart name false t → Apart name false (behindTitle (plainTitle y) c) := by
    intro name hapart
    rw [hw] at hapart
    exact hloose.apart hapart.of_append
  have hfirst : Apart maketitleName false c.before := by
    rw [hw, List.append_assoc] at hmaketitle
    refine hmaketitle.of_append_left isWord_maketitleName (Or.inl ⟨hparted, ?_⟩)
    rwa [hplace] at hclosed
  have hloose' := loose_false (behindTitle (plainTitle y) c)
  rw [hplace] at hclosed ⊢
  refine ⟨hclosed, ?_, ?_, ?_⟩
  · rw [hbefore]
    exact (Sighting.find?_before hs).1
  · exact find?_remains titleFinder_marks blank hloose' (hbehind _ htitle)
  · refine apart_around hy hparted hclosed hfirst ?_
    exact apart_remains titleFinder_marks blank hloose' (hbehind _ htitle) isWord_maketitleName
      (hbehind _ hmaketitle)

/-- A new place is clear, where a text without titles is parted for it. -/
theorem clear_around (hy : '\\' ∉ y) {x z : Text} (hnone : Untitled false (a ++ b))
    (hapart : Apart maketitleName false (a ++ b)) (hparted : Parted a) (hclosed : escapedAfter false a = false)
    (hx : x = [] ∨ x = ['\n']) (hz : Untitled false (z ++ ['\n'])) (hz' : Apart maketitleName false (z ++ ['\n'])) :
    (TitlePlace.mk (a ++ x) (z ++ ['\n'] ++ b)).Clear y := by
  have hname := isWord_maketitleName
  have hseam : ∀ u, Seam false a u := fun u => Or.inl ⟨hparted, hclosed⟩
  obtain ⟨hfirst, hlast⟩ := (Sighting.find?_append_eq_none_iff isWord_titleName (hseam b)).1 hnone
  rw [hclosed] at hlast
  have hblank : isBlankText x = true ∧ Parted x ∧ Apart maketitleName false x := by
    rcases hx with rfl | rfl
    · exact ⟨by decide, parted_nil, .of_find?_eq_none (by decide)⟩
    · exact ⟨by decide, (parted_concat (t := [])).2 (by decide), .of_find?_eq_none (by decide)⟩
  have hclosed' : escapedAfter false (a ++ x) = false := by
    rw [escapedAfter_append, hclosed, escapedAfter_blank hblank.1]
  have hline : Parted (z ++ ['\n']) ∧ escapedAfter false (z ++ ['\n']) = false :=
    ⟨parted_concat.2 (by decide), escapedAfter_concat (by decide) _ _⟩
  refine ⟨hclosed', ?_, ?_, ?_⟩
  · exact (untitled_append_iff (endsName_of_isBlankText hblank.1)).2 ⟨hfirst, untitled_blank hblank.1 _⟩
  · exact untitled_lines_append (Or.inr ⟨z, rfl⟩) hz hlast
  · refine apart_around hy (hparted.append hblank.2.1) hclosed' ?_ ?_
    · exact Apart.append hname (hseam x) hparted (hapart.of_append_left hname (hseam b))
        (by rw [hclosed]; exact hblank.2.2)
    · refine Apart.append hname (Or.inl hline) hline.1 hz' ?_
      rw [hline.2]
      exact hclosed ▸ hapart.of_append

/-- The place of a new title is clear. -/
theorem clear_newTitlePlace (hy : '\\' ∉ y) (hnone : Untitled false t)
    (hapart : Apart maketitleName false t) : (newTitlePlace t).Clear y := by
  have hblock : ∀ {a b : Text}, t = a ++ b → Parted a → escapedAfter false a = false →
      ∀ x, x = [] ∨ x = ['\n'] → (TitlePlace.mk (a ++ x)
        ('\n' :: emptyUnlessGiven ['a', 'u', 't', 'h', 'o', 'r'] t ++
          emptyUnlessGiven ['d', 'a', 't', 'e'] t ++ maketitle ++ ['\n'] ++ b)).Clear y := by
    intro a b ht hparted hclosed x hx
    refine clear_around hy (ht ▸ hnone) (ht ▸ hapart) hparted hclosed hx ?_ ?_
    · rw [emptyUnlessGiven, emptyUnlessGiven, Untitled]
      split <;> split <;> decide
    · rw [emptyUnlessGiven, emptyUnlessGiven]
      split <;> split <;> exact .of_isChain (by decide)
  rw [newTitlePlace]
  split
  · next s hs =>
      obtain ⟨hname, hin⟩ := Sighting.isIn_find? hs
      have htext : s.before ++ (s.source ++ s.after) = t := by
        rw [← hin.text_eq, Sighting.text, List.append_assoc]
      have hclear := clear_around (x := []) (z := []) hy (htext ▸ hnone) (htext ▸ hapart)
        (hapart s (by simpa using hname) hin) hin.fresh (Or.inl rfl) (by unfold Untitled; decide)
        (.of_find?_eq_none (by decide))
      rwa [List.append_nil] at hclear
  · split
    · next before rest hcut =>
        have hmarker : before ++ beginDocument = before ++ beginDocument.dropLast ++ ['}'] := by
          rw [List.append_assoc]
          rfl
        refine hblock (cutAt?_eq_append hcut) ?_ ?_ _ (Or.inr rfl)
        · rw [hmarker, parted_concat]
          decide
        · rw [hmarker]
          exact escapedAfter_concat (by decide) _ _
    · exact hblock rfl parted_nil rfl [] (Or.inl rfl)

/-- **The place of the title is clear**, in a text whose commands are set off. -/
theorem clear_placeTitle (hy : '\\' ∉ y) (htitle : Apart titleName false t)
    (hmaketitle : Apart maketitleName false t) : (placeTitle (plainTitle y) t).Clear y := by
  cases h : titleFinder false t with
  | some c => exact clear_placeTitle_found hy htitle hmaketitle h
  | none =>
      have hplace : placeTitle (plainTitle y) t = newTitlePlace t := by rw [placeTitle, h]
      rw [hplace]
      exact clear_newTitlePlace hy (titleFinder_eq_none_iff.1 h) hmaketitle

/-! ### The title stage -/

/-- **The directive stands in every sheet** behind the title stage. -/
theorem exists_title_in_enforceTitle (identity : Identity) {topic : Text}
    (hy : '\\' ∉ identity.titlePayload topic) (t : Text) :
    ∃ a b, identity.enforceTitle topic t = a ++ plainTitle (identity.titlePayload topic) ++ b ∧
      escapedAfter false a = false := by
  obtain ⟨a, b, heq, ha, -⟩ := kept_oneMaketitle hy (escapedAfter_before_placeTitle hy t)
  exact ⟨a, b, heq, ha⟩

/-- **It is the only title** of a sheet whose commands are set off. -/
theorem sole_enforceTitle (identity : Identity) {topic : Text} (hy : '\\' ∉ identity.titlePayload topic)
    (htitle : Apart titleName false t) (hmaketitle : Apart maketitleName false t) :
    Sole (identity.titlePayload topic) (identity.enforceTitle topic t) := by
  have hclear := clear_placeTitle hy htitle hmaketitle
  obtain ⟨a, b, heq, ha, -, hnone⟩ := kept_oneMaketitle hy hclear.closed
  exact ⟨a, b, heq, ha, hnone hclear.apart hclear.before hclear.after⟩

/-- **One title is left.**  In a text where no letter stands right in front of a command for a title or for
printing it, the title stage leaves exactly one title command, and the text from there on starts with the
directive of the topic. -/
theorem enforceTitle_leaves_one_title (identity : Identity) {topic t : Text}
    (hy : '\\' ∉ identity.titlePayload topic) (htitle : Apart titleName false t)
    (hmaketitle : Apart maketitleName false t) :
    ∃ s, Sighting.find? [titleName] false (identity.enforceTitle topic t) = some s ∧
      identity.titleDirective topic <+: s.source ++ s.after ∧
      ∀ s' : Sighting, s'.name = titleName → s'.IsIn false (identity.enforceTitle topic t) → s' = s := by
  obtain ⟨a, b, heq, hclosed, hfirst, hlast⟩ := sole_enforceTitle identity hy htitle hmaketitle
  obtain ⟨s, -, hunique⟩ := (existsUnique_title_iff hy hfirst hclosed).2 hlast
  have hin := isIn_plainTitle (y := identity.titlePayload topic) (b := b) hclosed
  refine ⟨_, heq ▸ Sighting.find?_eq_some_of_isIn isWord_titleName rfl hin hfirst, ⟨b, ?_⟩, fun s' hs' hin' => ?_⟩
  · simp [titleDirective, Sighting.source]
  · exact (hunique s' ⟨hs', heq ▸ hin'⟩).trans (hunique _ ⟨rfl, hin⟩).symm

/-- A starred title with a short form, one that never closes, and one without an argument, around a command that
prints the title. -/
theorem enforceTitle_leaves_one_title_of_four :
    ∃ s, Sighting.find? [titleName] false (({} : Identity).enforceTitle ['T']
        "x \\title*[A]\x7bB \\title\x7bC\x7d\x7d\\maketitle*\n \\title\n\\maketitle \\title\x7bD".toList) = some s ∧
      ({} : Identity).titleDirective ['T'] <+: s.source ++ s.after ∧
      ∀ s' : Sighting, s'.name = titleName → s'.IsIn false (({} : Identity).enforceTitle ['T']
        "x \\title*[A]\x7bB \\title\x7bC\x7d\x7d\\maketitle*\n \\title\n\\maketitle \\title\x7bD".toList) →
        s' = s := by
  rewrite [String.toList_ofList]
  exact enforceTitle_leaves_one_title {} (by decide +kernel) (.of_isChain (by decide +kernel))
    (.of_isChain (by decide +kernel))

end Identity

end CribSheet
