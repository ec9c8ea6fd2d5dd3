/-
What the title stage does to a sheet.

The title stage puts the directive of the topic in the place of the first title, takes all other titles
out, and sees to one command that prints the title.  A sheet with titles loses a command that counts
with every title but one, and with everything that counts in the arguments of a title; a sheet without
titles gains one.

Main definitions:

* `CribSheet.Identity.Loose` — what is escaped at the start of the text is a line break at most;
* `CribSheet.Identity.maketitlePlace` — where a command that prints the title is put in.

Main results:

* `CribSheet.Identity.heads_result_removeAll_titles` — what goes with the later titles;
* `CribSheet.Identity.stands_enforceTitle` — the directive stands in the sheet;
* `CribSheet.Identity.heads_enforceTitle` — the commands that count;
* `CribSheet.Identity.countP_enforceTitle_le` — the other characters.
-/
import CribSheet.Proofs.Markup.Removal
import CribSheet.Proofs.Sheet.Standing

set_option relaxedAutoImplicit false
set_option autoImplicit false

namespace CribSheet

open CribSheet.Text CribSheet.Markup

namespace Identity

/-! ### The span of a title -/

theorem titleFinder_splits : titleFinder.Splits := by
  intro escaped t c h
  obtain ⟨s, hs, rfl⟩ := titleFinder_eq_some h
  rw [Cut.text]
  conv => rhs; rw [← Sighting.text_find? hs, Sighting.text, ← titleArguments_append s.after]
  simp

/-- The first title, with the arguments that are read behind it. -/
theorem exists_titleSpan {escaped : Bool} {t : Text} {c : Cut} (h : titleFinder escaped t = some c) :
    ∃ command arguments, c.span = command ++ arguments ∧ command.head? = some '\\' ∧
      escapedAfter escaped c.before = false ∧ escapedAfter false command = false ∧
      heads false command = 1 ∧
      (escapedAfter false arguments = false ∨ ∀ d ∈ c.after.head?, d = '\n') := by
  obtain ⟨s, hs, rfl⟩ := titleFinder_eq_some h
  obtain ⟨-, hfresh, hsource, hheads⟩ := find?_command rfl (by decide) hs
  exact ⟨s.source, (titleArguments s.after).1, rfl, rfl, hfresh, hsource, hheads,
    titleArguments_end s.after⟩

/-! ### Later titles -/

/-- When the first character of the text may be escaped, it is a line break. -/
def Loose (escaped : Bool) (t : Text) : Prop := escaped = true → ∀ c ∈ t.head?, c = '\n'

theorem Loose.heads {escaped : Bool} {t : Text} (h : Loose escaped t) :
    heads escaped t = heads false t := by
  cases escaped with
  | false => rfl
  | true => exact heads_eq_of_head? (fun c hc => by rw [h rfl c hc]; decide) true

theorem loose_false (t : Text) : Loose false t := fun h => absurd h (by decide)

/-- Where a title ends, an escape is open in front of a line break at most. -/
theorem loose_arguments {arguments t : Text}
    (hend : escapedAfter false arguments = false ∨ ∀ d ∈ t.head?, d = '\n') :
    Loose (escapedAfter false arguments) t := fun hescaped =>
  hend.resolve_left (by rw [hescaped]; decide)

/-- Blanks close an escape. -/
theorem Loose.behind_blanks {escaped : Bool} {a b : Text} (h : Loose escaped (a ++ b))
    (ha : isBlankText a = true) : Loose (escapedAfter escaped a) b := by
  intro hescaped
  cases a with
  | nil => exact h hescaped
  | cons d a =>
      obtain ⟨hd, hplain⟩ := not_or.1 fun hm => slash_not_mem_of_isBlankText ha (List.mem_cons.2 hm)
      rw [escapedAfter_cons_of_ne (Ne.symm hd), escapedAfter_plain hplain] at hescaped
      exact absurd hescaped (by decide)

/-- In front of a backslash it does not matter then whether the first character is escaped. -/
theorem Loose.before {escaped : Bool} {t x z : Text} (h : Loose escaped t) (ht : t = x ++ '\\' :: z) :
    escapedAfter escaped x = escapedAfter false x ∧ Markup.heads escaped x = Markup.heads false x := by
  cases escaped with
  | false => exact ⟨rfl, rfl⟩
  | true =>
      cases x with
      | nil => exact absurd (h rfl '\\' (by rw [ht]; rfl)) (by decide)
      | cons c x =>
          obtain rfl : c = '\n' := h rfl c (by rw [ht]; rfl)
          exact ⟨rfl, rfl⟩

/-- **What goes with the titles of a text** that are taken out: a command that counts at least. -/
theorem heads_result_removeAll_titles {escaped : Bool} (blank : Bool) {t : Text}
    (h : Loose escaped t) :
    heads false (removeAll titleFinder escaped blank t).result +
        (if titleFinder escaped t = none then 0 else 1) ≤ heads escaped t := by
  fun_induction removeAll titleFinder escaped blank t with
  | case1 escaped blank t hnone =>
      rw [if_pos hnone, h.heads]
      rfl
  | case2 escaped blank t found hfound c hlt read ih =>
      obtain ⟨command, arguments, hcommand, hhead, hfresh, hstate, hheads, hend⟩ :=
        exists_titleSpan hfound
      obtain ⟨a, b, ha, hb, hbefore, hspan, hafter⟩ := found.exists_wholeLines blank
      have hbefore : found.before = c.before ++ a := hbefore
      have hspan : c.span = a ++ found.span ++ b := hspan
      have hafter : found.after = b ++ c.after := hafter
      obtain ⟨command', rfl⟩ := List.head?_eq_some_iff.1 hhead
      have htext : found.before ++ found.span ++ found.after = t := titleFinder_splits hfound
      obtain ⟨hsame, hsame'⟩ := h.before (x := found.before) (z := command' ++ arguments ++ found.after)
        (by rw [← htext, hcommand]; simp)
      have hcbefore : escapedAfter false c.before = false :=
        escapedAfter_before_wholeLines (hsame ▸ hfresh) blank
      have hread : read = found.before ++ ('\\' :: command' ++ arguments) ++ b := by
        rw [← hcommand, hbefore]
        simp only [read, hspan, List.append_assoc]
      have hreadState : escapedAfter escaped read = escapedAfter (escapedAfter false arguments) b := by
        rw [hread, escapedAfter_append, escapedAfter_append, hfresh, escapedAfter_append, hstate]
      have hreadHeads : heads escaped read = heads false found.before + (1 + heads false arguments) := by
        rw [hread, heads_append_blank hb, heads_append, hfresh, heads_append, hstate, hheads, hsame']
      have hloose : Loose (escapedAfter escaped read) c.after := by
        rw [hreadState]
        exact (loose_arguments (hafter ▸ hend)).behind_blanks hb
      have hrest := ih hloose
      have hbeforeHeads : heads false found.before = heads false c.before := by
        rw [hbefore, heads_append_blank ha]
      have hwhole : t = read ++ c.after := by
        rw [← htext, hread, hafter, hcommand]
        simp
      have hone : (if titleFinder escaped t = none then 0 else 1) ≤ 1 := by
        split <;> omega
      simp only [Revision.result_cons, List.append_nil]
      conv => rhs; rw [hwhole, heads_append, hreadHeads]
      rw [heads_append, hcbefore]
      omega
  | case3 escaped blank t found hfound c hlt =>
      obtain ⟨command, arguments, hcommand, hhead, -⟩ := exists_titleSpan hfound
      refine absurd (length_after_wholeLines_lt titleFinder_splits escaped blank hfound ?_) hlt
      rw [hcommand]
      intro hnil
      rw [(List.append_eq_nil_iff.1 hnil).1] at hhead
      simp at hhead

/-! ### The place of the title -/

variable {y t : Text} {c : Cut}

/-- The text with the title in its place. -/
def TitlePlace.filled (y : Text) (p : TitlePlace) : Text := p.before ++ plainTitle y ++ p.after

/-- **The place of the title** in a text with titles. -/
theorem placeTitle_behindTitle (hy : '\\' ∉ y) (h : titleFinder false t = some c) :
    ∃ blank, placeTitle (plainTitle y) t =
      ⟨c.before, (removeAll titleFinder false blank (behindTitle (plainTitle y) c)).result⟩ := by
  obtain ⟨-, -, -, -, hfresh, -⟩ := exists_titleSpan h
  have hstate : escapedAfter false (c.before ++ plainTitle y) = false := by
    rw [escapedAfter_append, hfresh, escapedAfter_plainTitle hy]
  refine ⟨blankLineAfter true (c.before ++ plainTitle y), ?_⟩
  rw [placeTitle, h]
  simp only [hstate]
  rfl

/-- A plain title leaves behind it what the first title had. -/
theorem placeTitle_found (hy : Plain y) (h : titleFinder false t = some c) :
    ∃ blank, placeTitle (plainTitle y) t =
      ⟨c.before, (removeAll titleFinder false blank c.after).result⟩ := by
  obtain ⟨blank, hplace⟩ := placeTitle_behindTitle hy.slash_not_mem h
  rw [behindTitle_eq hy h] at hplace
  exact ⟨blank, hplace⟩

/-- The characters that are written around a new title. -/
def settingMarks : Text := '\n' :: maketitle ++ ['a', 'u', 't', 'h', 'o', 'r', 'd', 'a', 't', 'e', '{', '}']

/-- What is written around a title: no command that counts, and none of the characters that sanitizing
looks for. -/
structure Setting (z : Text) : Prop where
  /-- No command in it counts. -/
  heads : Markup.heads false z = 0
  /-- No escape is open behind it. -/
  closed : escapedAfter false z = false
  /-- It holds only the characters that are written. -/
  marks : ∀ c ∈ z, c ∈ settingMarks

theorem Setting.countP {z : Text} (hz : Setting z) {q : Char → Bool}
    (hq : ∀ c ∈ settingMarks, q c = false) : z.countP q = 0 :=
  List.countP_eq_zero.2 fun c hc => by simp [hq c (hz.marks c hc)]

theorem setting_line : Setting ['\n'] := by constructor <;> decide

theorem setting_maketitle : Setting ('\n' :: maketitle) := by constructor <;> decide

theorem setting_block (t : Text) :
    Setting ('\n' :: emptyUnlessGiven ['a', 'u', 't', 'h', 'o', 'r'] t ++
      emptyUnlessGiven ['d', 'a', 't', 'e'] t ++ maketitle ++ ['\n']) := by
  rw [emptyUnlessGiven, emptyUnlessGiven]
  split <;> split <;> constructor <;> decide

/-- **The place of a new title** is where no escape is open, with blanks in front and a setting behind. -/
theorem newTitlePlace_cases (t : Text) :
    ∃ a b x z, t = a ++ b ∧ escapedAfter false a = false ∧ isBlankText x = true ∧
      (∀ c ∈ x, c ∈ settingMarks) ∧ Setting z ∧ newTitlePlace t = ⟨a ++ x, z ++ b⟩ := by
  rw [newTitlePlace]
  split
  · next s hs =>
      obtain ⟨-, hin⟩ := Sighting.isIn_find? hs
      refine ⟨s.before, s.source ++ s.after, [], ['\n'], ?_, hin.fresh, rfl, by simp, setting_line, ?_⟩
      · rw [← hin.text_eq, Sighting.text, List.append_assoc]
      · simp
  · split
    · next before rest hcut =>
        refine ⟨before ++ beginDocument, rest, ['\n'], _, cutAt?_eq_append hcut, ?_, by decide,
          by decide, setting_block t, rfl⟩
        have hmarker : beginDocument = beginDocument.dropLast ++ ['}'] := by decide
        rw [hmarker, ← List.append_assoc]
        exact escapedAfter_concat (by decide) _ _
    · exact ⟨[], t, [], _, rfl, rfl, rfl, by simp, setting_block t, rfl⟩

theorem escapedAfter_before_placeTitle (hy : '\\' ∉ y) (t : Text) :
    escapedAfter false (placeTitle (plainTitle y) t).before = false := by
  cases h : titleFinder false t with
  | some c =>
      obtain ⟨blank, hplace⟩ := placeTitle_behindTitle hy h
      obtain ⟨-, -, -, -, hfresh, -⟩ := exists_titleSpan h
      rw [hplace]
      exact hfresh
  | none =>
      obtain ⟨a, b, x, z, -, ha, hx, -, -, hplace⟩ := newTitlePlace_cases t
      rw [placeTitle, h]
      simp only [hplace]
      rw [escapedAfter_append, ha, escapedAfter_blank hx]

/-- **The commands that count** in a sheet with titles, with the directive in the place of the first one
and without the others. -/
theorem heads_placeTitle_found (hy : Plain y) (h : titleFinder false t = some c) :
    heads false ((placeTitle (plainTitle y) t).filled y) + heads false c.span +
        (if titleFinder false c.after = none then 0 else 1) ≤ heads false t + 1 := by
  obtain ⟨command, arguments, hspan, -, hfresh, hstate, hheads, hend⟩ := exists_titleSpan h
  obtain ⟨blank, hplace⟩ := placeTitle_found hy h
  have htext : c.before ++ c.span ++ c.after = t := titleFinder_splits h
  have hloose : Loose (escapedAfter false arguments) c.after := loose_arguments hend
  have hrest := heads_result_removeAll_titles blank (loose_false c.after)
  rw [hplace, TitlePlace.filled, heads_append, heads_append, escapedAfter_append, hfresh,
    escapedAfter_plainTitle hy.slash_not_mem, heads_plainTitle hy, hspan, heads_append, hstate, hheads]
  conv => rhs; rw [← htext, hspan, heads_append, heads_append, escapedAfter_append, hfresh,
    escapedAfter_append, hstate, hloose.heads, heads_append, hstate, hheads]
  simp only
  omega

/-- In a sheet without titles the directive is one command more. -/
theorem heads_placeTitle_none (hy : Plain y) (h : titleFinder false t = none) :
    heads false ((placeTitle (plainTitle y) t).filled y) = heads false t + 1 := by
  obtain ⟨a, b, x, z, ht, ha, hx, -, hz, hplace⟩ := newTitlePlace_cases t
  rw [placeTitle, h]
  simp only [hplace, TitlePlace.filled]
  have hsplit : a ++ x ++ plainTitle y ++ (z ++ b) = a ++ (x ++ (plainTitle y ++ (z ++ b))) := by simp
  rw [hsplit, heads_append, ha, heads_blank_append hx, heads_append, heads_plainTitle hy,
    escapedAfter_plainTitle hy.slash_not_mem, heads_append, hz.heads, hz.closed, ht, heads_append, ha]
  omega

/-- **The other characters** of a sheet with titles. -/
theorem countP_placeTitle_found (hy : Plain y) (h : titleFinder false t = some c) (q : Char → Bool) :
    ((placeTitle (plainTitle y) t).filled y).countP q ≤
      (c.before ++ c.after).countP q + (plainTitle y).countP q := by
  obtain ⟨blank, hplace⟩ := placeTitle_found hy h
  have hrest := (result_removeAll_sublist titleFinder titleFinder_splits false blank c.after).countP_le
    (p := q)
  rw [hplace]
  simp only [TitlePlace.filled, List.countP_append]
  omega

/-- The other characters of a sheet without titles. -/
theorem countP_placeTitle_none {q : Char → Bool} (hq : ∀ c ∈ settingMarks, q c = false)
    (h : titleFinder false t = none) :
    ((placeTitle (plainTitle y) t).filled y).countP q = t.countP q + (plainTitle y).countP q := by
  obtain ⟨a, b, x, z, ht, -, -, hx, hz, hplace⟩ := newTitlePlace_cases t
  have hxq : x.countP q = 0 := List.countP_eq_zero.2 fun c hc => by simp [hq c (hx c hc)]
  rw [placeTitle, h]
  simp only [hplace]
  rw [ht]
  simp only [TitlePlace.filled, List.countP_append, hxq, hz.countP hq]
  omega

/-! ### The command that prints the title -/

variable {p : TitlePlace}

/-- **Where a command that prints the title is put in**, when there is none: what stands before it and behind
it. -/
def maketitlePlace (directive : Text) (p : TitlePlace) : Text × Text :=
  match cutAt? beginDocument (p.before ++ directive ++ p.after) with
  | some (before, rest) =>
    if p.before.length + directive.length ≤ before.length then (before ++ beginDocument, rest)
    else (p.before ++ directive, p.after)
  | none => (p.before ++ directive, p.after)

/-- The command is put in behind the title: behind its brace, or behind that of the marker of the root. -/
theorem maketitlePlace_spec (y : Text) (p : TitlePlace) :
    (maketitlePlace (plainTitle y) p).1 ++ (maketitlePlace (plainTitle y) p).2 = p.filled y ∧
      ∃ w, (maketitlePlace (plainTitle y) p).1 = p.before ++ plainTitle y ++ w ∧
        (w = [] ∨ w.getLast? = some '}') := by
  have htitle : p.before ++ plainTitle y <+: p.filled y := ⟨p.after, rfl⟩
  rw [maketitlePlace]
  split
  · next before rest hcut =>
      have ht : p.filled y = before ++ beginDocument ++ rest := cutAt?_eq_append hcut
      split
      · next hle =>
          have hbefore : before <+: p.filled y := ⟨beginDocument ++ rest, by rw [ht, List.append_assoc]⟩
          obtain ⟨w, hw⟩ := List.prefix_of_prefix_length_le htitle hbefore (by rwa [List.length_append])
          refine ⟨ht.symm, w ++ beginDocument, by rw [← hw, List.append_assoc], Or.inr ?_⟩
          have hmarker : beginDocument = beginDocument.dropLast ++ ['}'] := by decide
          rw [hmarker, ← List.append_assoc, List.getLast?_concat]
      · exact ⟨rfl, [], (List.append_nil _).symm, Or.inl rfl⟩
  · exact ⟨rfl, [], (List.append_nil _).symm, Or.inl rfl⟩

theorem oneMaketitle_missing (h : Sighting.find? [maketitleName] false (p.filled y) = none) :
    oneMaketitle (plainTitle y) p =
      (maketitlePlace (plainTitle y) p).1 ++ '\n' :: maketitle ++ (maketitlePlace (plainTitle y) p).2 := by
  have hfilled : p.before ++ plainTitle y ++ p.after = p.filled y := rfl
  simp only [oneMaketitle, maketitlePlace, hfilled, h]
  cases cutAt? beginDocument (p.filled y) with
  | none => rfl
  | some cut =>
      simp only
      split <;> rfl

/-- **The ways of getting one command** that prints the title: the later ones go, or one is put in behind
the title. -/
theorem oneMaketitle_cases (p : TitlePlace) :
    (∃ s blank, Sighting.find? [maketitleName] false (p.filled y) = some s ∧
      oneMaketitle (plainTitle y) p = s.before ++ s.source ++
        (removeAll (commandFinder maketitleName) false blank s.after).result) ∨
    (Sighting.find? [maketitleName] false (p.filled y) = none ∧
      ∃ w b, p.filled y = p.before ++ plainTitle y ++ w ++ b ∧
        (w = [] ∨ w.getLast? = some '}') ∧
        oneMaketitle (plainTitle y) p = p.before ++ plainTitle y ++ w ++ ('\n' :: maketitle) ++ b) := by
  cases hfound : Sighting.find? [maketitleName] false (p.filled y) with
  | some s =>
      obtain ⟨-, hfresh, hsource, -⟩ := find?_command rfl (by decide) hfound
      have hfilled : p.before ++ plainTitle y ++ p.after = p.filled y := rfl
      refine Or.inl ⟨s, blankLineAfter true (s.before ++ s.source), rfl, ?_⟩
      simp only [oneMaketitle, hfilled, hfound]
      rw [escapedAfter_append, hfresh, hsource]
  | none =>
      obtain ⟨happend, w, hw, hlast⟩ := maketitlePlace_spec y p
      refine Or.inr ⟨rfl, w, (maketitlePlace (plainTitle y) p).2, ?_, hlast, ?_⟩
      · rw [← hw, happend]
      · rw [oneMaketitle_missing hfound, ← hw]

/-- **The command that prints the title does not count.** -/
theorem heads_oneMaketitle (hy : Plain y) (hp : escapedAfter false p.before = false) :
    heads false (oneMaketitle (plainTitle y) p) = heads false (p.filled y) := by
  rcases oneMaketitle_cases (y := y) p with ⟨s, blank, hs, h⟩ | ⟨-, w, b, hfilled, hw, h⟩
  · obtain ⟨-, hfresh, hsource, -⟩ := find?_command rfl (by decide) hs
    have hrest := heads_result_removeAll_command (rfl : maketitleName = 'm' :: _) (by decide)
      (by decide) rfl blank s.after
    have hstate : escapedAfter false (s.before ++ s.source) = false := by
      rw [escapedAfter_append, hfresh, hsource]
    rw [h, ← Sighting.text_find? hs, Sighting.text]
    generalize s.before ++ s.source = lead at hstate ⊢
    rw [heads_append, hstate, hrest, heads_append, hstate]
  · have hw : escapedAfter false w = false := by
      rcases hw with rfl | hlast
      · rfl
      · exact escapedAfter_of_getLast? hlast (by decide) false
    have hstate : escapedAfter false (p.before ++ plainTitle y ++ w) = false := by
      rw [escapedAfter_append, escapedAfter_append, hp, escapedAfter_plainTitle hy.slash_not_mem,
        hw]
    rw [h, hfilled]
    generalize p.before ++ plainTitle y ++ w = lead at hstate ⊢
    rw [heads_append, heads_append, escapedAfter_append, hstate, setting_maketitle.heads,
      setting_maketitle.closed, heads_append, hstate, Nat.add_zero]

theorem commandFinder_eq {name : Text} {escaped : Bool} {t : Text} {s : Sighting}
    (h : Sighting.find? [name] escaped t = some s) :
    commandFinder name escaped t = some ⟨s.before, s.source, s.after⟩ := by
  rw [commandFinder, h]
  rfl

theorem countP_oneMaketitle_le {q : Char → Bool} (hq : ∀ c ∈ settingMarks, q c = false) :
    (oneMaketitle (plainTitle y) p).countP q ≤ (p.filled y).countP q := by
  rcases oneMaketitle_cases (y := y) p with ⟨s, blank, hs, h⟩ | ⟨-, w, b, hfilled, hw, h⟩
  · have hsub : (removeAll (commandFinder maketitleName) false blank s.after).result.Sublist s.after :=
      result_removeAll_sublist _ (commandFinder_splits _) false blank s.after
    have hrest := hsub.countP_le (p := q)
    rw [h, ← Sighting.text_find? hs, Sighting.text]
    simp only [List.countP_append]
    omega
  · rw [h, hfilled]
    simp only [List.countP_append, setting_maketitle.countP hq]
    omega

/-- **Commands that print the title are counted** by their third letter: as many come or go. -/
theorem existsUnique_maketitle_of_countP
    (h : (oneMaketitle (plainTitle y) p).countP (· == 'k') = (p.filled y).countP (· == 'k')) :
    ∃! s : Sighting, s.name = maketitleName ∧ s.IsIn false (p.filled y) := by
  refine (Sighting.existsUnique_isIn_iff (by decide)).2 ?_
  rcases oneMaketitle_cases (y := y) p with ⟨s, blank, hs, heq⟩ | ⟨-, w, b, hfilled, hw, heq⟩
  · obtain ⟨-, hfresh, hsource, -⟩ := find?_command rfl (by decide) hs
    refine ⟨s, hs, ?_⟩
    rw [escapedAfter_append, hfresh, hsource]
    by_contra hne
    obtain ⟨s', hs'⟩ := Option.ne_none_iff_exists'.1 hne
    have hlt := countP_result_removeAll_lt (commandFinder maketitleName) (commandFinder_splits _) false
      blank (commandFinder_eq hs') (q := (· == 'k')) ?_
    · rw [heq, ← Sighting.text_find? hs, Sighting.text] at h
      simp only [List.countP_append] at h hlt
      omega
    · obtain ⟨hname, -⟩ := find?_command rfl (by decide) hs'
      simp [Sighting.source, hname]
  · rw [heq, hfilled] at h
    simp only [List.countP_append] at h
    have hone : ('\n' :: maketitle).countP (· == 'k') = 1 := by decide
    omega

/-- A title in front of another command or behind it. -/
theorem Stands.of_command (hy : Tight y) {escaped : Bool} {s : Sighting} {t : Text}
    (hname : s.name = maketitleName) (h : Stands y escaped (s.before ++ s.source ++ t)) :
    Stands y escaped s.before ∨ Stands y false t := by
  have hsource : s.source ++ t =
      '\\' :: 'm' :: (maketitleName.tail ++ ((if s.starred then ['*'] else []) ++ t)) := by
    rw [Sighting.source, hname]
    simp [maketitleName]
  rw [List.append_assoc] at h
  refine (h.of_append hy (by rw [hsource]; simp)).imp_right fun h => ?_
  rw [hsource] at h
  have hplain : '\\' ∉ maketitleName.tail ++ if s.starred then ['*'] else [] := by
    split <;> decide
  have hrest := h.of_cons_cons (by decide) (by decide)
  rw [← List.append_assoc] at hrest
  have hbehind := hrest.of_plain_append hplain
  rwa [escapedAfter_plain hplain] at hbehind

/-- **The title stays** where commands that print it go. -/
theorem Stands.removeAll (hy : Tight y) {escaped : Bool} (hescaped : escaped = false) (blank : Bool)
    (h : Stands y escaped t) :
    Stands y false (removeAll (commandFinder maketitleName) escaped blank t).result := by
  fun_induction Markup.removeAll (commandFinder maketitleName) escaped blank t with
  | case1 escaped blank t hnone => exact hescaped ▸ h
  | case2 escaped blank t found hfound c hlt read ih =>
      subst hescaped
      obtain ⟨hcbefore, hread⟩ : escapedAfter false c.before = false ∧ escapedAfter false read = false :=
        escapedAfter_cut_command rfl (by decide) hfound blank
      obtain ⟨s, hs, rfl⟩ := Option.map_eq_some_iff.1 hfound
      obtain ⟨hname, -⟩ := find?_command rfl (by decide) hs
      obtain ⟨a, b, ha, hb, hbefore, -, hafter⟩ :=
        Cut.exists_wholeLines blank ⟨s.before, s.source, s.after⟩
      have hbefore : s.before = c.before ++ a := hbefore
      have hafter : s.after = b ++ c.after := hafter
      rw [← Sighting.text_find? hs, Sighting.text] at h
      rw [Revision.result_cons, List.append_nil]
      rcases h.of_command hy hname with h | h
      · rw [hbefore] at h
        exact (h.of_append_blank ha).append_right _
      · rw [hafter] at h
        refine Stands.append_left ?_
        rw [hcbefore]
        exact ih hread (by rw [hread]; exact h.of_blank_append hb)
  | case3 => exact hescaped ▸ h

/-- **The title stays** where the command that prints it is seen to. -/
theorem stands_oneMaketitle (hy : Tight y) (hp : escapedAfter false p.before = false) :
    Stands y false (oneMaketitle (plainTitle y) p) := by
  rcases oneMaketitle_cases (y := y) p with ⟨s, blank, hs, h⟩ | ⟨-, w, b, hfilled, hw, h⟩
  · obtain ⟨hname, hfresh, hsource, -⟩ := find?_command rfl (by decide) hs
    have hfilled : Stands y false (p.filled y) := ⟨p.before, p.after, rfl, hp⟩
    rw [← Sighting.text_find? hs, Sighting.text] at hfilled
    rw [h]
    rcases hfilled.of_command hy hname with h | h
    · exact (h.append_right _).append_right _
    · refine Stands.append_left ?_
      rw [escapedAfter_append, hfresh, hsource]
      exact h.removeAll hy rfl blank
  · rw [h]
    exact ⟨p.before, w ++ ('\n' :: maketitle) ++ b, by simp, hp⟩

/-! ### The whole stage -/

/-- **The directive stands** in the sheet behind the title stage. -/
theorem stands_enforceTitle (identity : Identity) {topic : Text}
    (hy : Tight (identity.titlePayload topic)) (t : Text) :
    Stands (identity.titlePayload topic) false (identity.enforceTitle topic t) :=
  stands_oneMaketitle hy (escapedAfter_before_placeTitle hy.plain.slash_not_mem t)

theorem heads_enforceTitle (identity : Identity) {topic : Text}
    (hy : Plain (identity.titlePayload topic)) (t : Text) :
    heads false (identity.enforceTitle topic t) =
      heads false ((placeTitle (identity.titleDirective topic) t).filled
        (identity.titlePayload topic)) :=
  heads_oneMaketitle hy (escapedAfter_before_placeTitle hy.slash_not_mem t)

theorem countP_enforceTitle_le (identity : Identity) (topic t : Text) {q : Char → Bool}
    (hq : ∀ c ∈ settingMarks, q c = false) :
    (identity.enforceTitle topic t).countP q ≤
      ((placeTitle (identity.titleDirective topic) t).filled (identity.titlePayload topic)).countP q :=
  countP_oneMaketitle_le hq

end Identity

end CribSheet
