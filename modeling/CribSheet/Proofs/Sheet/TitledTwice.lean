/-
The title stage run twice.

A sheet is left alone by the title stage exactly when the directive is its only title and it has one command that
prints the title.  What the stage writes is such a sheet, unless a command comes about or is lost where texts are
brought together.  One is lost where `\maketitle` is put in right in front of a letter, as no line break is put
behind it; in a sheet whose commands are set off this is the only way.

Main definitions:

* `CribSheet.Identity.MaketitleFits` — no letter stands behind the place where a command that prints the title is
  put in.

Main results:

* `CribSheet.Identity.enforceTitle_eq_self_iff` — the sheets that the stage leaves alone;
* `CribSheet.Identity.existsUnique_maketitle_iff` — when one command that prints the title is left;
* `CribSheet.Identity.enforceTitle_twice_eq_iff` — when a second run changes nothing.
-/
import CribSheet.Proofs.Sheet.SoleTitle

set_option relaxedAutoImplicit false
set_option autoImplicit false

namespace CribSheet

open CribSheet.Text CribSheet.Markup

namespace Identity

variable {y a b t : Text}

/-! ### Titles and their arguments -/

/-- The arguments of a title hold a brace, if there are any. -/
theorem titleArguments_eq_nil_or_mem (t : Text) : (titleArguments t).1 = [] ∨ '{' ∈ (titleArguments t).1 := by
  rw [titleArguments_eq]
  split
  · next hbrace =>
      obtain ⟨rest, hrest⟩ := List.head?_eq_some_iff.1 hbrace
      refine Or.inr ?_
      split
      · next g hg =>
          rcases read?_eq_some hg with ⟨-, -, -, hsource⟩ | ⟨t', ht, -⟩
          · simp [hsource]
          · rw [hrest] at ht
            simp at ht
      · simp [hrest, firstLine]
  · exact Or.inl rfl

/-- **Where no brace goes with the titles of a text**, no `k` goes with them. -/
theorem countP_k_removeAll_titles {escaped blank : Bool} {t : Text}
    (h : (removeAll titleFinder escaped blank t).result.countP (· == '{') = t.countP (· == '{')) :
    (removeAll titleFinder escaped blank t).result.countP (· == 'k') = t.countP (· == 'k') := by
  fun_induction removeAll titleFinder escaped blank t with
  | case1 => rfl
  | case2 escaped blank t found hfound c hlt read ih =>
      have htext : c.before ++ c.span ++ c.after = t :=
        (Cut.text_wholeLines blank found).trans (titleFinder_splits hfound)
      have hle := (result_removeAll_sublist titleFinder titleFinder_splits (escapedAfter escaped read)
        (blankLineAfter blank read) c.after).countP_le (p := (· == '{'))
      rw [Revision.result_cons, List.append_nil, ← htext] at h ⊢
      simp only [List.countP_append] at h ⊢
      rw [ih (by omega)]
      obtain ⟨s, hs, rfl⟩ := titleFinder_eq_some hfound
      obtain ⟨hname, -⟩ := find?_command rfl (by decide) hs
      obtain ⟨x, z, hx, hz, -, hspan, -⟩ := Cut.exists_wholeLines blank
        ⟨s.before, s.source ++ (titleArguments s.after).1, (titleArguments s.after).2⟩
      have hspan : c.span = x ++ (s.source ++ (titleArguments s.after).1) ++ z := hspan
      have hbrace : c.span.countP (· == '{') = 0 := by omega
      have hargs : (titleArguments s.after).1 = [] := by
        refine (titleArguments_eq_nil_or_mem s.after).resolve_right fun hmem => ?_
        exact absurd (List.countP_eq_zero.1 hbrace '{' (by simp [hspan, hmem])) (by simp)
      have hsource : s.source.countP (· == 'k') = 0 := by
        rw [Sighting.source, hname]
        cases s.starred <;> decide
      have hvisible : Visible (· == 'k') := by
        intro d hd
        obtain rfl : d = 'k' := by simpa using hd
        decide
      rw [hspan, hargs]
      simp [hsource, hvisible.countP_blank hx, hvisible.countP_blank hz]
  | case3 => rfl

/-- **A command that prints the title does not go with the titles**: these take a brace with a `k`. -/
theorem result_removeAll_titles_ne (escaped blank : Bool) (a b : Text) :
    (removeAll titleFinder escaped blank (a ++ '\n' :: maketitle ++ b)).result ≠ a ++ b := by
  intro h
  have hbrace : ('\n' :: maketitle).countP (· == '{') = 0 := by decide
  have hk : ('\n' :: maketitle).countP (· == 'k') = 1 := by decide
  have hcount := @countP_k_removeAll_titles escaped blank (a ++ '\n' :: maketitle ++ b)
  rw [h] at hcount
  simp only [List.countP_append, hbrace, hk] at hcount
  omega

/-! ### Sheets that the stage leaves alone -/

/-- **One title command** is the title that stands in the text. -/
theorem sole_iff_existsUnique (hy : '\\' ∉ y) (ht : t = a ++ plainTitle y ++ b)
    (ha : escapedAfter false a = false) :
    Sole y t ↔ ∃! s : Sighting, s.name = titleName ∧ s.IsIn false t := by
  constructor
  · rintro ⟨a, b, rfl, hclosed, hfirst, hlast⟩
    exact (existsUnique_title_iff hy hfirst hclosed).2 hlast
  · intro hone
    have hfirst : Untitled false a := by
      refine Sighting.find?_eq_none_iff.2 fun s hs hin => ?_
      obtain ⟨s', -, hunique⟩ := hone
      have hseam : Seam false a (plainTitle y ++ b) := Or.inr (endsName_backslash _)
      have hname : s.name = titleName := by simpa using hs
      have hwhole := hin.within_front hseam (hname ▸ isWord_titleName)
      rw [← List.append_assoc, ← ht] at hwhole
      -- It would be the title itself, which stands behind it.
      have hsame := (hunique (s.within [] (plainTitle y ++ b)) ⟨hname, hwhole⟩).trans
        (hunique _ ⟨rfl, ht ▸ isIn_plainTitle ha⟩).symm
      have hlen : s.before.length = a.length := congrArg (List.length ∘ Sighting.before) hsame
      exact absurd hlen (Nat.ne_of_lt hin.length_before_lt)
    rw [ht] at hone
    exact ⟨a, b, ht, ha, hfirst, (existsUnique_title_iff hy hfirst ha).1 hone⟩

/-- The first title of a text in which a title stands does not start behind it. -/
theorem exists_titleFinder (ha : escapedAfter false a = false) :
    ∃ c, titleFinder false (a ++ plainTitle y ++ b) = some c ∧ c.before.length ≤ a.length := by
  have hin := isIn_plainTitle (y := y) (b := b) ha
  cases hc : titleFinder false (a ++ plainTitle y ++ b) with
  | none => exact absurd hin (Sighting.find?_eq_none_iff.1 (titleFinder_eq_none_iff.1 hc) _ (by simp))
  | some c =>
      obtain ⟨s, hs, hcut⟩ := titleFinder_eq_some hc
      refine ⟨c, rfl, ?_⟩
      rw [hcut]
      exact Sighting.length_before_find?_le hs (by simp) hin

/-- **The place of the title** in a text that has the title there already. -/
theorem placeTitle_of_first (hy : '\\' ∉ y) {c : Cut} (hc : titleFinder false (a ++ plainTitle y ++ b) = some c)
    (hlen : c.before.length = a.length) :
    Untitled false a ∧ ∃ blank, placeTitle (plainTitle y) (a ++ plainTitle y ++ b) =
      ⟨a, (removeAll titleFinder false blank b).result⟩ := by
  have htext : c.before ++ (c.span ++ c.after) = a ++ (plainTitle y ++ b) := by
    rw [← List.append_assoc, ← List.append_assoc]
    exact titleFinder_splits hc
  obtain ⟨hbefore, hspan⟩ := List.append_inj htext hlen
  obtain ⟨blank, hplace⟩ := placeTitle_behindTitle hy hc
  have hbehind : behindTitle (plainTitle y) c = b := by
    rw [behindTitle, hspan, after?_append, Option.getD_some]
  constructor
  · rw [← hbefore]
    exact (titleFinder_before hc).1
  · rw [hbefore, hbehind] at hplace
    exact ⟨blank, hplace⟩

/-- **What the stage leaves alone** has the directive as its only title. -/
theorem sole_of_oneMaketitle_eq (hy : '\\' ∉ y)
    (h : oneMaketitle (plainTitle y) (placeTitle (plainTitle y) t) = t) :
    Sole y t ∧ ∃! s : Sighting, s.name = maketitleName ∧ s.IsIn false t := by
  obtain ⟨a, b, ht, ha, hle, -⟩ := kept_oneMaketitle hy (escapedAfter_before_placeTitle hy t)
  rw [h] at ht
  subst ht
  -- The directive is the first title, as the stage puts nothing in front of the place of that.
  obtain ⟨c, hc, hle'⟩ := exists_titleFinder (y := y) (b := b) ha
  obtain ⟨blank, hplace⟩ := placeTitle_behindTitle hy hc
  rw [hplace] at hle
  obtain ⟨hfirst, blank, hplace⟩ := placeTitle_of_first hy hc (Nat.le_antisymm hle' hle)
  rw [hplace] at h
  have hsub := result_removeAll_sublist titleFinder titleFinder_splits false blank b
  rcases oneMaketitle_cases (y := y) ⟨a, (removeAll titleFinder false blank b).result⟩ with
    ⟨s, blank', hs, heq⟩ | ⟨-, w, rest, hfilled, -, heq⟩
  · -- Nothing goes, as the text has kept its length.
    obtain ⟨-, hfresh, hsource, -⟩ := find?_command rfl (by decide) hs
    have hsub' := result_removeAll_sublist (commandFinder maketitleName) (commandFinder_splits _) false blank'
      s.after
    have htext := congrArg List.length (Sighting.text_find? hs)
    have hlen := congrArg List.length (heq.symm.trans h)
    have hle := hsub.length_le
    have hle' := hsub'.length_le
    simp only [Sighting.text, TitlePlace.filled, List.length_append] at htext hlen
    have hrest := hsub.eq_of_length (by omega)
    have hrest' := hsub'.eq_of_length (by omega)
    rw [hrest] at hs
    refine ⟨⟨a, b, rfl, ha, hfirst, titleFinder_marks.find?_eq_none hrest⟩, ?_⟩
    refine (Sighting.existsUnique_isIn_iff (by decide)).2 ⟨s, hs, ?_⟩
    rw [escapedAfter_append, hfresh, hsource]
    exact (commandFinder_marks isWord_maketitleName).find?_eq_none hrest'
  · -- One is put in, so that it would have gone with the titles.
    have hremains : (removeAll titleFinder false blank b).result = w ++ rest := by
      rw [TitlePlace.filled, List.append_assoc _ w] at hfilled
      exact List.append_cancel_left hfilled
    have hgiven : b = w ++ '\n' :: maketitle ++ rest := by
      have htext := h.symm.trans heq
      simp only [List.append_assoc] at htext
      simpa using List.append_cancel_left (List.append_cancel_left htext)
    rw [hgiven] at hremains
    exact absurd hremains (result_removeAll_titles_ne false blank w rest)

/-- **The sheets that the title stage leaves alone**: the directive of the topic is the only title, and there is
one command that prints it. -/
theorem enforceTitle_eq_self_iff (identity : Identity) {topic : Text}
    (hy : '\\' ∉ identity.titlePayload topic) (t : Text) :
    identity.enforceTitle topic t = t ↔
      Sole (identity.titlePayload topic) t ∧ ∃! s : Sighting, s.name = maketitleName ∧ s.IsIn false t := by
  refine ⟨sole_of_oneMaketitle_eq hy, ?_⟩
  rintro ⟨⟨a, b, rfl, ha, hfirst, hlast⟩, hone⟩
  obtain ⟨c, hc, -⟩ := exists_titleFinder (y := identity.titlePayload topic) (b := b) ha
  have hlen : c.before.length = a.length := by
    obtain ⟨s, hs, hcut⟩ := titleFinder_eq_some hc
    rw [Sighting.find?_eq_some_of_isIn isWord_titleName rfl (isIn_plainTitle ha) hfirst, Option.some.injEq] at hs
    rw [hcut, ← hs]
  obtain ⟨-, blank, hplace⟩ := placeTitle_of_first hy hc hlen
  have hremains : (removeAll titleFinder false blank b).result = b := by
    rw [removeAll, titleFinder_eq_none_iff.2 hlast]
    rfl
  rw [hremains] at hplace
  rw [enforceTitle, titleDirective_eq, hplace]
  exact oneMaketitle_eq hone

/-! ### One command that prints the title -/

/-- **The command that prints the title is complete** where one is put in: no letter stands behind it. -/
def MaketitleFits (directive : Text) (p : TitlePlace) : Prop :=
  Sighting.find? [maketitleName] false (p.before ++ directive ++ p.after) = none →
    ∀ c ∈ (maketitlePlace directive p).2.head?, isLetter c = false

variable {p : TitlePlace}

/-- The command is put in behind a brace. -/
theorem getLast?_maketitlePlace (y : Text) (p : TitlePlace) :
    (maketitlePlace (plainTitle y) p).1.getLast? = some '}' := by
  obtain ⟨-, w, hw, rfl | hlast⟩ := maketitlePlace_spec y p
  · have htitle : plainTitle y = '\\' :: titleName ++ '{' :: y ++ ['}'] := by simp [plainTitle]
    rw [hw, List.append_nil, htitle, ← List.append_assoc, List.getLast?_concat]
  · rw [hw, List.getLast?_append, hlast, Option.some_or]

/-- Where later commands that print the title go, the first one is left. -/
theorem existsUnique_maketitle_of_found (hapart : Apart maketitleName false (p.filled y)) {s : Sighting}
    (hs : Sighting.find? [maketitleName] false (p.filled y) = some s) :
    ∃! s : Sighting, s.name = maketitleName ∧ s.IsIn false (oneMaketitle (plainTitle y) p) := by
  have hmarks := commandFinder_marks isWord_maketitleName
  obtain ⟨hname, hfresh, hsource, -⟩ := find?_command rfl (by decide) hs
  have hin := (Sighting.isIn_find? hs).2
  have htext : s.before ++ s.source ++ s.after = p.filled y := hin.text_eq
  have hread : escapedAfter false (s.before ++ s.source) = false := by
    rw [escapedAfter_append, hfresh, hsource]
  have hbehind : Apart maketitleName false s.after := hapart.behind_found isWord_maketitleName hs
  rw [oneMaketitle_found hs]
  have hnone : Sighting.find? [maketitleName] false
      (removeAll (commandFinder maketitleName) false false s.after).result = none :=
    find?_remains hmarks false (loose_false _) hbehind
  have hends : s.starred = false →
      EndsName (removeAll (commandFinder maketitleName) false false s.after).result := by
    intro hstar
    refine hmarks.endsName_remains (hin.ends hstar) fun s₂ hs₂ hnil => ?_
    -- A second command right behind the first one would be preceded by its last letter.
    obtain ⟨hname₂, hin₂⟩ := Sighting.isIn_find? hs₂
    have hwhole := hin₂
    rw [← hread] at hwhole
    have hparted := hapart _ (by simpa using hname₂) (htext ▸ hwhole.within)
    have hsplit : s.before ++ s.source = s.before ++ '\\' :: maketitleName.dropLast ++ ['e'] := by
      rw [Sighting.source, hname, hstar]
      simp [maketitleName]
    rw [Sighting.before_within, hnil, List.append_nil, hsplit, parted_concat] at hparted
    exact absurd hparted (by decide)
  refine (Sighting.existsUnique_isIn_iff (by decide)).2
    ⟨{ s with after := (removeAll (commandFinder maketitleName) false false s.after).result }, ?_, ?_⟩
  · exact Sighting.find?_eq_some_of_isIn isWord_maketitleName hname ⟨rfl, hfresh, hends⟩
      (Sighting.find?_before hs).1
  · exact hread.symm ▸ hnone

/-- **One command that prints the title** is left in a text whose commands are set off, if one that is put in is
complete. -/
theorem existsUnique_maketitle_iff (hp : p.Clear y) :
    (∃! s : Sighting, s.name = maketitleName ∧ s.IsIn false (oneMaketitle (plainTitle y) p)) ↔
      MaketitleFits (plainTitle y) p := by
  cases hfound : Sighting.find? [maketitleName] false (p.filled y) with
  | none =>
      obtain ⟨happend, -⟩ := maketitlePlace_spec y p
      have hlast := getLast?_maketitlePlace y p
      have hfits : MaketitleFits (plainTitle y) p ↔
          ∀ c ∈ (maketitlePlace (plainTitle y) p).2.head?, isLetter c = false :=
        ⟨fun h => h hfound, fun h _ => h⟩
      rw [oneMaketitle_missing hfound, hfits]
      generalize maketitlePlace (plainTitle y) p = cut at happend hlast ⊢
      obtain ⟨u, v⟩ := cut
      simp only at happend hlast ⊢
      have hclosed : escapedAfter false u = false := escapedAfter_of_getLast? hlast (by decide) false
      have hseam : Seam false u v := Or.inl ⟨parted_of_getLast? hlast (by decide), hclosed⟩
      rw [← happend, Sighting.find?_append_eq_none_iff isWord_maketitleName hseam, hclosed] at hfound
      have hline : Sighting.find? [maketitleName] false (u ++ ['\n']) = none := by
        refine (Sighting.find?_append_eq_none_iff isWord_maketitleName (Or.inr (endsName_newline []))).2
          ⟨hfound.1, ?_⟩
        rw [hclosed]
        decide
      have hsplit : u ++ '\n' :: maketitle ++ v = (u ++ ['\n']) ++ '\\' :: (maketitleName ++ v) := by
        simp [maketitle]
      rw [hsplit]
      exact Sighting.existsUnique_written_iff isWord_maketitleName hline (escapedAfter_concat (by decide) _ _)
        hfound.2
  | some s =>
      refine iff_of_true (existsUnique_maketitle_of_found hp.apart hfound) fun hnone => ?_
      have hnone : Sighting.find? [maketitleName] false (p.filled y) = none := hnone
      rw [hfound] at hnone
      simp at hnone

/-! ### Running the stage twice -/

/-- **The title stage run twice.**  A second run changes nothing exactly when the first one has left one title
command and one command that prints it; in a text where no letter stands right in front of such a command, this
is when a command that is put in to print the title is complete. -/
theorem enforceTitle_twice_eq_iff (identity : Identity) {topic : Text}
    (hy : '\\' ∉ identity.titlePayload topic) (t : Text) :
    let once := identity.enforceTitle topic t
    (identity.enforceTitle topic once = once ↔
        (∃! s : Sighting, s.name = titleName ∧ s.IsIn false once) ∧
          ∃! s : Sighting, s.name = maketitleName ∧ s.IsIn false once) ∧
      (Apart titleName false t → Apart maketitleName false t →
        (identity.enforceTitle topic once = once ↔
          MaketitleFits (identity.titleDirective topic) (placeTitle (identity.titleDirective topic) t))) := by
  intro once
  constructor
  · obtain ⟨a, b, honce, ha⟩ := exists_title_in_enforceTitle identity hy t
    rw [enforceTitle_eq_self_iff identity hy, sole_iff_existsUnique hy honce ha]
  · intro htitle hmaketitle
    rw [enforceTitle_eq_self_iff identity hy, and_iff_right (sole_enforceTitle identity hy htitle hmaketitle)]
    exact existsUnique_maketitle_iff (clear_placeTitle hy htitle hmaketitle)

/-- In a sheet with a root the title is printed behind its marker. -/
theorem enforceTitle_twice_eq_of_root :
    ({} : Identity).enforceTitle ['T'] (({} : Identity).enforceTitle ['T']
        "\\title\x7bA\x7d\n\\begin\x7bdocument\x7d\nx".toList) =
      ({} : Identity).enforceTitle ['T'] "\\title\x7bA\x7d\n\\begin\x7bdocument\x7d\nx".toList := by
  rewrite [String.toList_ofList]
  refine ((enforceTitle_twice_eq_iff {} (by decide +kernel) _).2 (.of_isChain (by decide +kernel))
    (.of_isChain (by decide +kernel))).2 fun _ c hc => ?_
  have hline : (maketitlePlace (({} : Identity).titleDirective ['T']) (placeTitle (({} : Identity).titleDirective ['T'])
      "\\title\x7bA\x7d\n\\begin\x7bdocument\x7d\nx".toList)).2.head? = some '\n' := by
    rewrite [String.toList_ofList]
    decide +kernel
  rw [String.toList_ofList] at hline
  obtain rfl : '\n' = c := Option.some.inj (hline.symm.trans hc)
  rfl

/-- Here a letter stands behind the title, so that the command that is put in to print it is none, and the second
run puts in another one. -/
theorem enforceTitle_twice_ne_of_letter_behind :
    ({} : Identity).enforceTitle ['T'] (({} : Identity).enforceTitle ['T'] "\\title\x7bA\x7dabc".toList) ≠
      ({} : Identity).enforceTitle ['T'] "\\title\x7bA\x7dabc".toList := by
  rewrite [String.toList_ofList]
  decide +kernel

end Identity

end CribSheet
