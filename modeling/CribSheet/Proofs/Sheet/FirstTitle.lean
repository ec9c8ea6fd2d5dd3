/-
The title that the title stage puts into a sheet is its first one.

The directive takes the place of the first title, or a place of its own in a sheet without titles, so no
title stands before it.  Then the surplus commands that print the title go, and one that stands before the
directive may go, too.  What is left closes up at the end of a name, or at the start of a line when the whole
line goes; neither makes a title.  A command with a star, though, may be followed by a letter, and taking it
out could make a title of what stands around it, so that no such command may stand in the sheet.

Main results:

* `CribSheet.Identity.opens_removeMaketitles` — taking out the commands that print the title;
* `CribSheet.Identity.opens_enforceTitle` — the directive is the first title of the sheet.
-/
import CribSheet.Proofs.Sheet.Lead
import CribSheet.Proofs.Sheet.Opening

set_option relaxedAutoImplicit false
set_option autoImplicit false

namespace CribSheet

open CribSheet.Text CribSheet.Markup

namespace Identity

/-- The command that prints the title, with a star. -/
def starredMaketitle : Text := maketitle ++ ['*']

variable {y a b : Text}

/-! ### Commands that print the title -/

/-- A title holds no command that prints it. -/
theorem find?_plainTitle_append (hy : '\\' ∉ y) (b : Text) :
    Sighting.find? [maketitleName] false (plainTitle y ++ b) =
      (Sighting.find? [maketitleName] false b).map (Sighting.within (plainTitle y) []) := by
  obtain ⟨x, hx, htitle⟩ : ∃ x, '\\' ∉ x ∧ plainTitle y = '\\' :: 't' :: x :=
    ⟨titleName.tail ++ '{' :: y ++ ['}'], by simp [titleName, hy], by
      simp [plainTitle, titleName]⟩
  have hname : Sighting.atName? [maketitleName] ('t' :: (x ++ b)) = none := by
    simp [Sighting.atName?, maketitleName, after?]
  have hletter : escapes (escapes false '\\') 't' = false := by decide
  rw [htitle, List.cons_append, List.cons_append, Sighting.find?, Sighting.find?, hname, hletter,
    Sighting.find?_plain_append hx]
  cases Sighting.find? [maketitleName] false b with
  | none => simp
  | some s => simp [Sighting.behind, Sighting.within]

/-- **A command that prints the title** stands before a title or behind it. -/
theorem maketitle_cases (hy : '\\' ∉ y) (ha : escapedAfter false a = false) {s : Sighting}
    (h : Sighting.find? [maketitleName] false (a ++ plainTitle y ++ b) = some s) :
    (∃ s' : Sighting, Sighting.find? [maketitleName] false a = some s' ∧
        s = s'.within [] (plainTitle y ++ b)) ∨
      ∃ z, s.before = a ++ plainTitle y ++ z := by
  have hnames : ∀ name ∈ [maketitleName], ∀ c ∈ name, isLetter c = true := by decide
  have hends : EndsName (plainTitle y ++ b) := endsName_backslash _
  rw [List.append_assoc, Sighting.find?_append hnames hends, ha, find?_plainTitle_append hy,
    Option.or_eq_some_iff] at h
  rcases h with h | ⟨-, h⟩
  · obtain ⟨s', hs', rfl⟩ := Option.map_eq_some_iff.1 h
    exact Or.inl ⟨s', hs', rfl⟩
  · obtain ⟨s', hs', rfl⟩ := Option.map_eq_some_iff.1 h
    obtain ⟨s'', -, rfl⟩ := Option.map_eq_some_iff.1 hs'
    exact Or.inr ⟨s''.before, by simp⟩

/-- A text behind the end of a line has its titles to itself. -/
theorem untitled_lines_append (ha : a = [] ∨ ∃ x, a = x ++ ['\n']) (hfirst : Untitled false a)
    (hrest : Untitled false b) : Untitled false (a ++ b) := by
  rcases ha with rfl | ⟨x, rfl⟩
  · exact hrest
  · have hline : ∀ t, EndsName ('\n' :: t) := endsName_newline
    rw [untitled_append_iff (hline [])] at hfirst
    rw [List.append_assoc, List.singleton_append, untitled_append_iff (hline b)]
    exact ⟨hfirst.1, (untitled_cons_iff (by decide)).2 hrest⟩

/-- The same for the first title. -/
theorem opens_lines_append (ha : a = [] ∨ ∃ x, a = x ++ ['\n']) (hfirst : Untitled false a)
    (hrest : Opens y false b) : Opens y false (a ++ b) := by
  obtain ⟨x, z, rfl, hx, hnone⟩ := hrest
  refine ⟨a ++ x, z, by simp, ?_, untitled_lines_append ha hfirst hnone⟩
  rw [escapedAfter_append]
  rcases ha with rfl | ⟨w, rfl⟩
  · exact hx
  · rwa [escapedAfter_concat (by decide)]

/-- Behind a command the line is not blank. -/
theorem blankLineAfter_source {s : Sighting} (hname : s.name = maketitleName) (blank : Bool) (t : Text) :
    blankLineAfter blank (t ++ s.source) = false := by
  rw [blankLineAfter_append]
  generalize blankLineAfter blank t = blank
  rw [Sighting.source, hname]
  cases s.starred <;> cases blank <;> decide

/-- **A command that prints the title** separates: what holds no title in front of it and behind it holds
none with it in between. -/
theorem untitled_source_append_iff {s : Sighting} (hname : s.name = maketitleName) {escaped : Bool}
    {t : Text} :
    Untitled escaped (s.before ++ s.source ++ t) ↔ Untitled escaped s.before ∧ Untitled false t := by
  have hsource : s.source ++ t =
      '\\' :: 'm' :: (maketitleName.tail ++ (if s.starred then ['*'] else []) ++ t) := by
    rw [Sighting.source, hname]
    simp [maketitleName]
  have hplain : '\\' ∉ maketitleName.tail ++ if s.starred then ['*'] else [] := by
    split <;> decide
  rw [List.append_assoc, hsource, untitled_append_iff (endsName_backslash _),
    untitled_cons_cons_iff (by decide) (by decide), untitled_plain_append_iff hplain]

/-- A command that prints the title has no titles in front of it or behind it in a text without titles. -/
theorem untitled_around {s : Sighting} (hs : Sighting.find? [maketitleName] false a = some s)
    (h : Untitled false a) : Untitled false s.before ∧ Untitled false s.after := by
  obtain ⟨hname, -⟩ := find?_command rfl (by decide) hs
  rw [← Sighting.text_find? hs, Sighting.text] at h
  exact (untitled_source_append_iff hname).1 h

/-- In a text without commands that print the title with a star, there is no star behind them. -/
theorem starred_eq_false {s : Sighting} (hs : Sighting.find? [maketitleName] false a = some s)
    (h : ¬ starredMaketitle <:+: a) : s.starred = false := by
  obtain ⟨hname, -⟩ := find?_command rfl (by decide) hs
  cases hstarred : s.starred with
  | false => rfl
  | true =>
      refine absurd ⟨s.before, s.after, ?_⟩ h
      have hsource : s.source = starredMaketitle := by
        rw [Sighting.source, hname, hstarred]
        rfl
      rw [← hsource]
      exact Sighting.text_find? hs

theorem Opens.ne_nil {escaped : Bool} {t : Text} (h : Opens y escaped t) : t ≠ [] := by
  rintro rfl
  obtain ⟨x, z, ht, -⟩ := h
  simp [plainTitle] at ht

/-- Behind a command that is taken out in front of a title, that title is still the first one. -/
theorem exists_before_of_removed {s : Sighting} (hs : Sighting.find? [maketitleName] false a = some s)
    (ha : escapedAfter false a = false) (hnone : Untitled false a) (hstar : ¬ starredMaketitle <:+: a)
    {z rest : Text} (hz : isBlankText z = true) (h : s.after ++ (plainTitle y ++ b) = z ++ rest) :
    ∃ a', rest = a' ++ plainTitle y ++ b ∧ escapedAfter false a' = false ∧ Untitled false a' ∧
      ¬ starredMaketitle <:+: a' := by
  obtain ⟨-, hfresh, hsource, -⟩ := find?_command rfl (by decide) hs
  obtain ⟨-, hrest⟩ := untitled_around hs hnone
  rw [← List.append_assoc] at h
  obtain ⟨a', ha', hafter⟩ := cut_plainTitle_plain (slash_not_mem_of_isBlankText hz) h.symm
  have hsplit : a = s.before ++ s.source ++ z ++ a' := by
    rw [List.append_assoc, ← ha']
    exact (Sighting.text_find? hs).symm
  refine ⟨a', hafter, ?_, ?_, fun hinfix => hstar (hsplit ▸ List.infix_append_of_infix_right hinfix)⟩
  · rwa [hsplit, escapedAfter_append, escapedAfter_append, escapedAfter_append, hfresh, hsource,
      escapedAfter_blank hz] at ha
  · rwa [ha', untitled_plain_append_iff (slash_not_mem_of_isBlankText hz)] at hrest

/-- **What is left where a command was taken out in front of a title closes up**, and the title stays the
first one. -/
theorem opens_closeUp {s : Sighting} (hs : Sighting.find? [maketitleName] false a = some s)
    (hnone : Untitled false a) (blank : Bool) {rest result : Text} {c : Cut}
    (hc : c = Cut.wholeLines blank ⟨s.before, s.source, s.after ++ rest⟩)
    (hrest : EndsName (s.after ++ rest)) (hopens : Opens y false result)
    (hends : blankLineAfter blank (c.before ++ c.span) = false → EndsName c.after → EndsName result) :
    Opens y false (c.before ++ result) ∧
      (blank = false → EndsName (c.before ++ c.span ++ c.after) → EndsName (c.before ++ result)) := by
  obtain ⟨hname, hfresh, -⟩ := find?_command rfl (by decide) hs
  have hbefore : Untitled false c.before := by
    obtain ⟨x, -, hx, -, hsplit, -⟩ := Cut.exists_wholeLines blank ⟨s.before, s.source, s.after ++ rest⟩
    have hblank : Untitled false (c.before ++ x) := by
      rw [hc, ← hsplit]
      exact (untitled_around hs hnone).1
    exact ((untitled_append_iff (endsName_of_isBlankText hx)).1 hblank).1
  have hkept : c.before ≠ [] → EndsName (c.before ++ c.span ++ c.after) → EndsName (c.before ++ result) := by
    intro hne h
    rw [List.append_assoc] at h
    exact endsName_append_of_ne_nil hne h
  rcases Cut.wholeLines_cases blank ⟨s.before, s.source, s.after ++ rest⟩ with hcut | ⟨hnil, hblank⟩ | ⟨p, hp⟩
  · -- Nothing goes with the command, and so a name ends where it stood.
    rw [hcut] at hc
    have hresult : EndsName result := by
      refine hends ?_ (by rwa [hc])
      rw [hc]
      exact blankLineAfter_source hname blank s.before
    refine ⟨Opens.append_left hbefore hresult (by rwa [hc, hfresh]), fun _ h => ?_⟩
    by_cases hne : c.before = []
    · rwa [hne, List.nil_append]
    · exact hkept hne h
  · rw [← hc] at hnil
    rw [hnil, List.nil_append]
    exact ⟨hopens, fun h => absurd (hblank.symm.trans h) (by decide)⟩
  · rw [← hc] at hp
    exact ⟨opens_lines_append (.inr ⟨p, hp⟩) hbefore hopens, fun _ h => hkept (by simp [hp]) h⟩

/-- **Taking out the commands that print the title** leaves a title the first one, when no command with a
star stands before it; and it does not open the name that ends in front of the text, unless the text starts a
line. -/
theorem opens_removeMaketitles (hy : Plain y) {escaped : Bool} (blank : Bool) {t : Text}
    (hescaped : escaped = false) (ht : t = a ++ plainTitle y ++ b) (ha : escapedAfter false a = false)
    (hnone : Untitled false a) (hstar : ¬ starredMaketitle <:+: a) :
    let result := (removeAll (commandFinder maketitleName) escaped blank t).result
    Opens y false result ∧ (blank = false → EndsName t → EndsName result) := by
  fun_induction removeAll (commandFinder maketitleName) escaped blank t generalizing a with
  | case1 => exact ⟨⟨a, b, ht, ha, hnone⟩, fun _ hends => hends⟩
  | case2 escaped blank t found hfound c hlt read =>
      rename_i ih
      subst hescaped
      have hread : escapedAfter false read = false := (escapedAfter_cut_command rfl (by decide) hfound blank).2
      obtain ⟨s, hs, rfl⟩ := Option.map_eq_some_iff.1 hfound
      obtain ⟨x, z, hx, hz, hbefore, hspan, hafter⟩ :=
        Cut.exists_wholeLines blank ⟨s.before, s.source, s.after⟩
      have hbefore : s.before = c.before ++ x := hbefore
      have hspan : c.span = x ++ s.source ++ z := hspan
      have hafter : s.after = z ++ c.after := hafter
      have htext : t = c.before ++ c.span ++ c.after := by
        rw [← Sighting.text_find? hs, Sighting.text, hbefore, hspan, hafter]
        simp only [List.append_assoc]
      rw [Revision.result_cons, List.append_nil]
      generalize hresult : (removeAll (commandFinder maketitleName) (escapedAfter false read)
        (blankLineAfter blank read) c.after).result = result at ih ⊢
      change Opens y false (c.before ++ result) ∧
        (blank = false → EndsName t → EndsName (c.before ++ result))
      rcases maketitle_cases hy.slash_not_mem ha (ht ▸ hs) with ⟨s', hs', rfl⟩ | ⟨w, hw⟩
      · -- The command stands before the title.
        have hstarred := starred_eq_false hs' hstar
        obtain ⟨a', hcafter, hstate, hnone', hstar'⟩ := exists_before_of_removed hs' ha hnone hstar hz hafter
        obtain ⟨hopens, hends⟩ := ih hread hcafter hstate hnone' hstar'
        rw [htext]
        exact opens_closeUp hs' hnone blank rfl ((Sighting.isIn_find? hs).2.ends hstarred) hopens hends
      · -- The command stands behind the title, which is written before it.
        have hopens : Opens y false s.before := ⟨a, w, hw, ha, hnone⟩
        rw [hbefore] at hopens
        have hfirst : Opens y false c.before := hopens.of_append_blank hx
        rw [htext, List.append_assoc]
        exact ⟨hfirst.append_right _, fun _ hends => endsName_append_of_ne_nil hfirst.ne_nil hends⟩
  | case3 => exact ⟨⟨a, b, ht, ha, hnone⟩, fun _ hends => hends⟩

/-! ### The title stage -/

theorem oneMaketitle_found {directive : Text} {p : TitlePlace} {s : Sighting}
    (hs : Sighting.find? [maketitleName] false (p.before ++ directive ++ p.after) = some s) :
    oneMaketitle directive p =
      s.before ++ s.source ++ (removeAll (commandFinder maketitleName) false false s.after).result := by
  obtain ⟨hname, hfresh, hsource, -⟩ := find?_command rfl (by decide) hs
  simp only [oneMaketitle, hs]
  rw [escapedAfter_append, hfresh, hsource, blankLineAfter_source hname]

/-- **Seeing to one command that prints the title** leaves the directive the first title. -/
theorem opens_oneMaketitle (hy : Plain y) {p : TitlePlace} (hp : escapedAfter false p.before = false)
    (hnone : Untitled false p.before) (hstar : ¬ starredMaketitle <:+: p.before) :
    Opens y false (oneMaketitle (plainTitle y) p) := by
  cases hfound : Sighting.find? [maketitleName] false (p.filled y) with
  | none =>
      rcases oneMaketitle_cases (y := y) p with ⟨s, -, hs, -⟩ | ⟨-, w, b, -, -, h⟩
      · rw [hfound] at hs
        simp at hs
      · rw [h]
        exact ⟨p.before, w ++ ('\n' :: maketitle) ++ b, by simp, hp, hnone⟩
  | some s =>
      rw [oneMaketitle_found hfound]
      rcases maketitle_cases hy.slash_not_mem hp hfound with ⟨s', hs', rfl⟩ | ⟨z, hz⟩
      · -- The first of the commands stands before the directive.
        obtain ⟨hname, hfresh, hsource, -⟩ := find?_command rfl (by decide) hs'
        have hstarred := starred_eq_false hs' hstar
        obtain ⟨hfirst, hrest⟩ := untitled_around hs' hnone
        have hends : EndsName s'.after := (Sighting.isIn_find? hs').2.ends hstarred
        have htext : p.before = s'.before ++ s'.source ++ s'.after := (Sighting.text_find? hs').symm
        have hstate : escapedAfter false (s'.before ++ s'.source) = false := by
          rw [escapedAfter_append, hfresh, hsource]
        have hlead : Untitled false (s'.before ++ s'.source) := by
          rw [htext, untitled_append_iff hends] at hnone
          exact hnone.1
        have hafter : escapedAfter false s'.after = false := by
          rwa [htext, escapedAfter_append, hstate] at hp
        obtain ⟨hopens, hclosed⟩ := opens_removeMaketitles (b := p.after) hy false rfl rfl hafter hrest
          fun h => hstar (htext ▸ List.infix_append_of_infix_right h)
        have hends' : EndsName (s'.after ++ plainTitle y ++ p.after) := by
          rw [List.append_assoc]
          exact (Sighting.isIn_find? hfound).2.ends hstarred
        have hresult := Opens.append_left hlead (hclosed rfl hends') (by rwa [hstate])
        simpa only [Sighting.before_within, Sighting.source_within, Sighting.after_within, List.nil_append,
          List.append_assoc] using hresult
      · have hopens : Opens y false s.before := ⟨p.before, z, hz, hp, hnone⟩
        exact (hopens.append_right _).append_right _

/-- A prefix of a text without titles that ends at a seam. -/
theorem untitled_before {s : Sighting} {t : Text} (hs : s.text = t) (h : Untitled false t) :
    Untitled false s.before := by
  have hsource : EndsName (s.source ++ s.after) := endsName_backslash _
  rw [← hs, Sighting.text, List.append_assoc, untitled_append_iff hsource] at h
  exact h.1

/-- **No title stands before the place of the title**, and no new command that prints it with a star. -/
theorem untitled_placeTitle (hy : Plain y) {t : Text} (hstar : ¬ starredMaketitle <:+: t) :
    Untitled false (placeTitle (plainTitle y) t).before ∧
      ¬ starredMaketitle <:+: (placeTitle (plainTitle y) t).before := by
  cases hfound : titleFinder false t with
  | some c =>
      obtain ⟨blank, hplace⟩ := placeTitle_found hy hfound
      obtain ⟨s, hs, rfl⟩ := titleFinder_eq_some hfound
      rw [hplace]
      refine ⟨(Sighting.find?_before hs).1, fun h => hstar ?_⟩
      rw [← Sighting.text_find? hs, Sighting.text]
      exact List.infix_append_of_infix_left (List.infix_append_of_infix_left h)
  | none =>
      have hnone : Untitled false t := titleFinder_eq_none_iff.1 hfound
      rw [placeTitle, hfound]
      simp only [newTitlePlace]
      split
      · next s hs =>
          have htext := Sighting.text_find? hs
          refine ⟨untitled_before htext hnone, fun h => hstar ?_⟩
          rw [← htext, Sighting.text]
          exact List.infix_append_of_infix_left (List.infix_append_of_infix_left h)
      · split
        · next before rest hcut =>
            have ht := cutAt?_eq_append hcut
            constructor
            · have hmarker : EndsName (beginDocument ++ rest) := endsName_backslash _
              rw [ht, List.append_assoc, untitled_append_iff hmarker] at hnone
              have hopened : EndsName (beginDocument ++ ['\n']) := endsName_backslash _
              have hroot : Untitled false (beginDocument.drop 2 ++ ['\n']) := by
                unfold Untitled
                decide
              rw [List.append_assoc]
              exact (untitled_append_iff hopened).2
                ⟨hnone.1, (untitled_cons_cons_iff (by decide) (by decide)).2 hroot⟩
            · rw [isInfix_append_blank_iff (by decide) (by decide) (by decide)]
              intro h
              rw [ht] at hstar
              exact hstar (List.infix_append_of_infix_left h)
        · exact ⟨untitled_nil, fun h => absurd (List.infix_nil.1 h) (by decide)⟩

/-- **The directive is the first title of the sheet** behind the title stage. -/
theorem opens_enforceTitle (identity : Identity) {topic : Text} (hy : Plain (identity.titlePayload topic))
    {t : Text} (hstar : ¬ starredMaketitle <:+: t) :
    Opens (identity.titlePayload topic) false (identity.enforceTitle topic t) := by
  obtain ⟨hnone, hstar'⟩ := untitled_placeTitle hy hstar
  exact opens_oneMaketitle hy (escapedAfter_before_placeTitle hy.slash_not_mem t) hnone hstar'

end Identity

/-- Completion brings in no command that prints the title. -/
theorem Skeleton.isInfix_starredMaketitle_complete {t : Text}
    (h : Identity.starredMaketitle <:+: ({} : Skeleton).complete t) : Identity.starredMaketitle <:+: t := by
  rw [complete] at h
  split at h
  · exact h
  · have hsplit : ({} : Skeleton).preamble ++ '\n' :: beginDocument ++ '\n' :: t ++ '\n' :: endDocument ++
        ['\n'] = lead ++ '\n' :: (t ++ '\n' :: (endDocument ++ ['\n'])) := by
      simp [lead]
    rw [hsplit, isInfix_append_cons_iff_of_not_mem (by decide) (by decide),
      isInfix_append_cons_iff_of_not_mem (by decide) (by decide)] at h
    rcases h with h | h | h
    · refine absurd (List.IsInfix.trans ?_ h) (not_isInfix_lead (w := Identity.maketitle) (by decide))
      exact ⟨[], ['*'], rfl⟩
    · exact h
    · rw [← holds_iff_isInfix] at h
      exact absurd h (by decide)

end CribSheet
