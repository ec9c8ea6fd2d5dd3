/-
The first title of a text.

A title opens a text when it is the first title command in it.  Where a text is changed at seams only, in
front of a line break, a dollar, or the backslash of another command, a title that opens it opens the changed
text, and a text without titles stays one without.  Both are kept by each of the small changes that the
stages behind the title stage are made of, and so by the stages.

Main definitions:

* `CribSheet.Identity.Untitled` — no title command stands in the text;
* `CribSheet.Identity.Opens` — a title is the first title command of a text;
* `CribSheet.Identity.Keeps` — a change of a text keeps both.

Main results:

* `CribSheet.Identity.Keeps.append` — changes on both sides of a seam;
* `CribSheet.PipelineOptions.opens_write` — the title that opens a sheet opens it behind the last stage.
-/
import CribSheet.Proofs.Sheet.Writing

set_option relaxedAutoImplicit false
set_option autoImplicit false

namespace CribSheet

open CribSheet.Text CribSheet.Markup

namespace Identity

/-! ### Texts without titles -/

/-- No title command stands in the text. -/
def Untitled (escaped : Bool) (t : Text) : Prop := Sighting.find? [titleName] escaped t = none

section Untitled

variable {a b t : Text} {escaped : Bool}

theorem untitled_nil : Untitled escaped [] := rfl

/-- **A text without titles** is one without on both sides of a seam. -/
theorem untitled_append_iff (hb : EndsName b) :
    Untitled escaped (a ++ b) ↔ Untitled escaped a ∧ Untitled (escapedAfter escaped a) b := by
  have hnames : ∀ name ∈ [titleName], ∀ c ∈ name, isLetter c = true := by decide
  rw [Untitled, Sighting.find?_append hnames hb, Option.or_eq_none_iff, Option.map_eq_none_iff,
    Option.map_eq_none_iff]
  rfl

theorem untitled_plain_append_iff (ha : '\\' ∉ a) : Untitled false (a ++ b) ↔ Untitled false b := by
  rw [Untitled, Sighting.find?_plain_append ha, Option.map_eq_none_iff]
  rfl

theorem untitled_cons_iff {c : Char} (hc : c ≠ '\\') : Untitled escaped (c :: t) ↔ Untitled false t := by
  rw [Untitled, Sighting.find?, escapes_of_ne hc]
  simp [Untitled]

/-- Another command is no title, and whether its backslash is escaped does not matter. -/
theorem untitled_cons_cons_iff {c : Char} (hc : c ≠ 't') (hslash : c ≠ '\\') :
    Untitled escaped ('\\' :: c :: t) ↔ Untitled false t := by
  have hname : Sighting.atName? [titleName] (c :: t) = none := by
    simp [Sighting.atName?, titleName, after?, Ne.symm hc]
  have hrest : ∀ escaped, Sighting.find? [titleName] escaped (c :: t) = none ↔ Untitled false t :=
    fun escaped => untitled_cons_iff hslash
  rw [Untitled, Sighting.find?]
  cases escaped <;> simp [hname, hrest]

/-- In front of a title no name is left open. -/
theorem endsName_of_plainTitle {y : Text} (h : a ++ plainTitle y ++ b = t) (ht : EndsName t) : EndsName a := by
  cases a with
  | nil => exact endsName_nil
  | cons c a =>
    subst h
    exact ht

end Untitled

/-! ### The first title -/

/-- The argument is plain, and no seam runs through it. -/
def Seamless (y : Text) : Prop := ∀ c ∈ y, c ∉ ['\\', '{', '}', '$', '\n']

namespace Seamless

variable {y : Text} (hy : Seamless y)

include hy

theorem plain : Plain y := fun c hc h => hy c hc (by
  simp only [List.mem_cons, List.not_mem_nil, or_false] at h ⊢
  tauto)

/-- What a seam begins with is the first character of a title at most. -/
theorem not_mem_tail {c : Char} (hc : c ∈ ['\n', '$', '\\']) : c ∉ (plainTitle y).tail := by
  have hnot : c ∉ y := fun h => hy c h (by
    simp only [List.mem_cons, List.not_mem_nil, or_false] at hc ⊢
    tauto)
  simp only [List.mem_cons, List.not_mem_nil, or_false] at hc
  rcases hc with rfl | rfl | rfl <;> simp [plainTitle, titleName, hnot]

end Seamless

/-- **The title with the argument `y` opens the text**: it is the first title command in it.  `escaped` says
whether the first character of the text is escaped. -/
def Opens (y : Text) (escaped : Bool) (t : Text) : Prop :=
  ∃ a b, t = a ++ plainTitle y ++ b ∧ escapedAfter escaped a = false ∧ Untitled escaped a

theorem endsName_of_seam {b : Text} (hb : ∀ c ∈ b.head?, c ∈ ['\n', '$', '\\']) : EndsName b := by
  intro c hc
  have hmem := hb c hc
  simp only [List.mem_cons, List.not_mem_nil, or_false] at hmem
  rcases hmem with rfl | rfl | rfl <;> decide

namespace Opens

variable {y a b t : Text} {escaped : Bool}

theorem append_right (h : Opens y escaped a) (b : Text) : Opens y escaped (a ++ b) := by
  obtain ⟨x, z, rfl, hx, hnone⟩ := h
  exact ⟨x, z ++ b, by simp, hx, hnone⟩

theorem append_left (ha : Untitled escaped a) (hb : EndsName b) (h : Opens y (escapedAfter escaped a) b) :
    Opens y escaped (a ++ b) := by
  obtain ⟨x, z, hb', hx, hnone⟩ := h
  have hends : EndsName x := endsName_of_plainTitle hb'.symm hb
  refine ⟨a ++ x, z, by simp [hb'], by rwa [escapedAfter_append], ?_⟩
  exact (untitled_append_iff hends).2 ⟨ha, hnone⟩

/-- Text without backslashes may stand in front. -/
theorem plain_append (ha : '\\' ∉ a) (h : Opens y false b) : Opens y false (a ++ b) := by
  obtain ⟨x, z, rfl, hx, hnone⟩ := h
  refine ⟨a ++ x, z, by simp, ?_, (untitled_plain_append_iff ha).2 hnone⟩
  rwa [escapedAfter_append, escapedAfter_plain ha]

/-- **A title opens one side of a seam**: what stands before it, or what stands behind a text without
titles. -/
theorem of_append (hy : Seamless y) (hb : ∀ c ∈ b.head?, c ∈ ['\n', '$', '\\'])
    (h : Opens y escaped (a ++ b)) :
    Opens y escaped a ∨ Untitled escaped a ∧ Opens y (escapedAfter escaped a) b := by
  obtain ⟨x, z, ht, hx, hnone⟩ := h
  rcases cut_plainTitle (fun c hc => hy.not_mem_tail (hb c hc)) ht with ⟨z', ha⟩ | ⟨w, rfl, hw⟩
  · exact Or.inl ⟨x, z', ha, hx, hnone⟩
  · have hends : EndsName w := endsName_of_plainTitle hw.symm (endsName_of_seam hb)
    rw [escapedAfter_append] at hx
    rw [untitled_append_iff hends] at hnone
    exact Or.inr ⟨hnone.1, w, z, hw, hx, hnone.2⟩

theorem cons_iff {c : Char} (hslash : c ≠ '\\') : Opens y escaped (c :: t) ↔ Opens y false t := by
  constructor
  · rintro ⟨x, z, ht, hx, hnone⟩
    obtain ⟨x', rfl, hrest⟩ := cut_plainTitle_cons hslash ht
    rw [escapedAfter_cons_of_ne hslash] at hx
    exact ⟨x', z, hrest, hx, (untitled_cons_iff hslash).1 hnone⟩
  · rintro ⟨x, z, rfl, hx, hnone⟩
    refine ⟨c :: x, z, rfl, ?_, (untitled_cons_iff hslash).2 hnone⟩
    rwa [escapedAfter_cons_of_ne hslash]

/-- Another command in front makes no difference, and whether its backslash is escaped does not matter. -/
theorem cons_cons_iff {c : Char} (hc : c ≠ 't') (hslash : c ≠ '\\') :
    Opens y escaped ('\\' :: c :: t) ↔ Opens y false t := by
  constructor
  · rintro ⟨x, z, ht, hx, hnone⟩
    obtain ⟨x', rfl, hrest⟩ := cut_plainTitle_cons_cons hc hslash ht
    rw [escapedAfter_cons, escapedAfter_cons_of_ne hslash] at hx
    exact ⟨x', z, hrest, hx, (untitled_cons_cons_iff hc hslash).1 hnone⟩
  · rintro ⟨x, z, rfl, hx, hnone⟩
    refine ⟨'\\' :: c :: x, z, rfl, ?_, (untitled_cons_cons_iff hc hslash).2 hnone⟩
    rwa [escapedAfter_cons, escapedAfter_cons_of_ne hslash]

/-- Blanks behind a text hold no title. -/
theorem of_append_blank (hb : isBlankText b = true) (h : Opens y escaped (a ++ b)) : Opens y escaped a := by
  obtain ⟨x, z, ht, hx, hnone⟩ := h
  obtain ⟨z', ha, -⟩ := cut_plainTitle_blank hb ht
  exact ⟨x, z', ha, hx, hnone⟩

/-- Text without backslashes in front makes no difference. -/
theorem of_plain_append (ha : '\\' ∉ a) (h : Opens y false (a ++ b)) : Opens y false b := by
  induction a with
  | nil => exact h
  | cons c a ih =>
      have hc : c ≠ '\\' := fun hc => ha (by simp [hc])
      exact ih (fun hm => ha (List.mem_cons_of_mem c hm)) ((cons_iff hc).1 h)

end Opens

/-! ### Changes that keep the first title -/

/-- **The change of `t` to `u` keeps the first title**, and brings none into a text without titles.
`escaped` and `escaped'` say whether their first characters are escaped. -/
structure Keeps (y : Text) (escaped : Bool) (t : Text) (escaped' : Bool) (u : Text) : Prop where
  /-- No title comes in. -/
  untitled : Untitled escaped t → Untitled escaped' u
  /-- The first title stays the first one. -/
  opens : Opens y escaped t → Opens y escaped' u

namespace Keeps

variable {y a a' b b' t u v : Text} {e e' e'' : Bool}

theorem refl (y : Text) (e : Bool) (t : Text) : Keeps y e t e t := ⟨id, id⟩

theorem trans (h : Keeps y e t e' u) (h' : Keeps y e' u e'' v) : Keeps y e t e'' v :=
  ⟨h'.untitled ∘ h.untitled, h'.opens ∘ h.opens⟩

/-- **Changes on both sides of a seam.** -/
theorem append (hy : Seamless y) (hb : ∀ c ∈ b.head?, c ∈ ['\n', '$', '\\']) (hb' : EndsName b')
    (ha : Keeps y e a e' a') (h : Keeps y (escapedAfter e a) b (escapedAfter e' a') b') :
    Keeps y e (a ++ b) e' (a' ++ b') := by
  constructor
  · intro hnone
    obtain ⟨hfirst, hsecond⟩ := (untitled_append_iff (endsName_of_seam hb)).1 hnone
    exact (untitled_append_iff hb').2 ⟨ha.untitled hfirst, h.untitled hsecond⟩
  · intro hopens
    rcases hopens.of_append hy hb with hfirst | ⟨hfirst, hsecond⟩
    · exact (ha.opens hfirst).append_right b'
    · exact (h.opens hsecond).append_left (ha.untitled hfirst) hb'

/-- A character that is no backslash in front. -/
theorem cons {c : Char} (hc : c ≠ '\\') (h : Keeps y false t false u) : Keeps y e (c :: t) e' (c :: u) :=
  ⟨fun hnone => (untitled_cons_iff hc).2 (h.untitled ((untitled_cons_iff hc).1 hnone)),
    fun hopens => (Opens.cons_iff hc).2 (h.opens ((Opens.cons_iff hc).1 hopens))⟩

/-- Another command in front. -/
theorem cons_cons {c : Char} (hc : c ≠ 't') (hslash : c ≠ '\\') (h : Keeps y false t false u) :
    Keeps y e ('\\' :: c :: t) e' ('\\' :: c :: u) :=
  ⟨fun hnone => (untitled_cons_cons_iff hc hslash).2 (h.untitled ((untitled_cons_cons_iff hc hslash).1 hnone)),
    fun hopens => (Opens.cons_cons_iff hc hslash).2 (h.opens ((Opens.cons_cons_iff hc hslash).1 hopens))⟩

/-- Text without backslashes is put in front. -/
theorem plain_append {x : Text} (hx : '\\' ∉ x) : Keeps y false t false (x ++ t) :=
  ⟨(untitled_plain_append_iff hx).2, Opens.plain_append hx⟩

/-- Text without backslashes is taken from the front. -/
theorem of_plain_append {x : Text} (hx : '\\' ∉ x) : Keeps y false (x ++ t) false t :=
  ⟨(untitled_plain_append_iff hx).1, Opens.of_plain_append hx⟩

/-- Text without titles is put behind. -/
theorem append_untitled {x : Text} (hx : EndsName x) (hnone : Untitled (escapedAfter e t) x) :
    Keeps y e t e (t ++ x) :=
  ⟨fun h => (untitled_append_iff hx).2 ⟨h, hnone⟩, fun h => h.append_right x⟩

end Keeps

/-- A blank ends a name. -/
theorem endsName_of_isBlankText {x : Text} (hx : isBlankText x = true) : EndsName x := by
  intro c hc
  have hblank := List.all_eq_true.1 hx c (List.mem_of_mem_head? hc)
  constructor
  · cases hletter : isLetter c with
    | false => rfl
    | true =>
        rw [isBlank_of_isLetter hletter] at hblank
        simp at hblank
  · rintro rfl
    exact absurd hblank (by decide)

theorem untitled_blank {x : Text} (hx : isBlankText x = true) (e : Bool) : Untitled e x := by
  cases x with
  | nil => exact untitled_nil
  | cons c x =>
      have hslash := slash_not_mem_of_isBlankText hx
      obtain ⟨hc, hx⟩ := not_or.1 fun hm => hslash (List.mem_cons.2 hm)
      refine (untitled_cons_iff (Ne.symm hc)).2 ?_
      have hplain := (untitled_plain_append_iff (b := []) hx).2 untitled_nil
      rwa [List.append_nil] at hplain

namespace Keeps

variable {y t : Text} {e : Bool}

/-- Blanks are put behind. -/
theorem append_blank {x : Text} (hx : isBlankText x = true) : Keeps y e t e (t ++ x) :=
  append_untitled (endsName_of_isBlankText hx) (untitled_blank hx _)

/-- Blanks are taken from behind. -/
theorem of_append_blank {x : Text} (hx : isBlankText x = true) : Keeps y e (t ++ x) e t :=
  ⟨fun h => ((untitled_append_iff (endsName_of_isBlankText hx)).1 h).1, fun h => h.of_append_blank hx⟩

theorem dropEndWhile {p : Char → Bool} (hp : ∀ c, p c = true → isBlank c = true) :
    Keeps y e t e (t.dropEndWhile p) := by
  have h := of_append_blank (y := y) (e := e) (t := t.dropEndWhile p) (isBlankText_takeEndWhile hp t)
  rwa [dropEndWhile_append_takeEndWhile] at h

theorem trim : Keeps y false t false t.trim := by
  obtain ⟨x, hx, ht⟩ := exists_trimStart t
  have hstart := of_plain_append (y := y) (t := t.trimStart) (slash_not_mem_of_isBlankText hx)
  rw [← ht] at hstart
  exact hstart.trans (dropEndWhile fun _ h => h)

end Keeps

/-! ### The attribution -/

theorem endsName_footer (t : Text) : EndsName (({} : Identity).footer ++ t) := by
  have hhead : ({} : Identity).footer.head? = some '\n' := by decide
  obtain ⟨x, hx⟩ := List.head?_eq_some_iff.1 hhead
  rw [hx]
  exact endsName_newline _

theorem untitled_footer (e : Bool) : Untitled e ({} : Identity).footer := by
  unfold Untitled
  cases e <;> decide

/-- **The first title stays the first one** where the attribution is written. -/
theorem Keeps.injectFooter {y : Text} (hy : Seamless y) (t : Text) :
    Keeps y false t false (({} : Identity).injectFooter t) := by
  rcases ({} : Identity).injectFooter_cases t with ⟨-, heq⟩ | ⟨-, before, rest, ht, heq⟩ | ⟨-, heq⟩
  · rw [heq]
    exact .refl y false t
  · -- The marker that closes the root is the seam.
    have hmarker : ∀ e e', Keeps y e (endDocument ++ rest) e' (endDocument ++ rest) := fun e e' =>
      .cons_cons (by decide) (by decide) (.refl y false (endDocument.drop 2 ++ rest))
    have hends : EndsName (endDocument ++ rest) := endsName_backslash _
    rw [heq, ht]
    refine (Keeps.refl y false before).append hy (by simp [endDocument]) (endsName_footer _) ?_
    generalize escapedAfter false before = e
    constructor
    · intro hnone
      exact (untitled_append_iff hends).2 ⟨untitled_footer e, (hmarker e _).untitled hnone⟩
    · intro hopens
      exact ((hmarker e _).opens hopens).append_left (untitled_footer e) hends
  · rw [heq]
    refine .append_untitled ?_ (untitled_footer _)
    rw [← List.append_nil ({} : Identity).footer]
    exact endsName_footer []

/-! ### The math repairs -/

theorem Keeps.repaired {y variableName : Text} (hv : '\\' ∉ variableName) {e : Bool} (i : Integral) :
    Keeps y e i.source e (i.repaired variableName) := by
  rw [Integral.repaired]
  split
  · exact .refl y e _
  · have hblank : isBlankText (i.span.takeEndWhile isBlank) = true :=
      isBlankText_takeEndWhile (fun _ h => h) i.span
    have hspan : i.span.trimEnd ++ i.span.takeEndWhile isBlank = i.span :=
      dropEndWhile_append_takeEndWhile isBlank i.span
    have hdifferential : ∀ e, Untitled e (differential variableName) := fun e =>
      (untitled_cons_cons_iff (by decide) (by decide)).2
        ((untitled_cons_iff (by decide)).2 (by
          have hplain := (untitled_plain_append_iff (b := []) hv).2 untitled_nil
          rwa [List.append_nil] at hplain))
    have hsource : i.source = i.before ++ i.operator ++ i.span.trimEnd ++ i.span.takeEndWhile isBlank := by
      conv => lhs; rw [Integral.source, ← hspan]
      simp only [List.append_assoc]
    rw [hsource]
    refine (Keeps.of_append_blank hblank).trans (Keeps.trans ?_ (.append_blank hblank))
    exact .append_untitled (endsName_backslash _) (hdifferential _)

/-- The repair of integrals does not touch the first character of a text. -/
theorem head?_repaired (variableName : Text) (escaped : Bool) (t : Text) :
    ((Integral.scan escaped t).1.flatMap (Integral.repaired variableName) ++
      (Integral.scan escaped t).2).head? = t.head? := by
  fun_cases Integral.scan escaped t with
  | case1 => rfl
  | case2 s hs _ integral more rest heq =>
      have hsource : s.source ≠ [] := by simp [Sighting.source]
      have hlead : ∀ x, (s.before ++ s.source ++ x).head? = (s.before ++ s.source).head? := fun x =>
        List.head?_append_of_ne_nil _ (by simp [hsource])
      have hrepaired : ∃ x, integral.repaired variableName = s.before ++ s.source ++ x := by
        rw [Integral.repaired]
        split
        · exact ⟨_, rfl⟩
        · exact ⟨_, by simp only [List.append_assoc]; rfl⟩
      obtain ⟨x, hx⟩ := hrepaired
      rw [List.flatMap_cons, hx, List.append_assoc, List.append_assoc, hlead, ← Sighting.text_find? hs,
        Sighting.text, hlead]

/-- **The first title stays the first one** where differentials are written. -/
theorem Keeps.ensureDifferential {y variableName : Text} (hy : Seamless y) (hv : '\\' ∉ variableName)
    (escaped : Bool) (t : Text) :
    Keeps y escaped t escaped
      ((Integral.scan escaped t).1.flatMap (Integral.repaired variableName) ++
        (Integral.scan escaped t).2) := by
  fun_induction Integral.scan escaped t with
  | case1 escaped t => exact .refl y escaped t
  | case2 escaped t s hs _ integral more rest heq ih =>
      have hseam : ∀ c ∈ (formulaSpan s.after).2.head?, c ∈ ['\n', '$', '\\'] := fun c hc => by
        simpa using head?_formulaSpan s.after c hc
      have hends : EndsName (more.flatMap (Integral.repaired variableName) ++ rest) := by
        have hhead := head?_repaired variableName (escapedAfter escaped integral.source)
          (formulaSpan s.after).2
        rw [heq] at hhead
        exact endsName_of_seam fun c hc => hseam c (hhead ▸ hc)
      rw [heq] at ih
      rw [List.flatMap_cons, List.append_assoc]
      have htext : integral.source ++ (formulaSpan s.after).2 = t := Integral.text_of_find? hs
      rw [← htext]
      refine (Keeps.repaired hv integral).append hy hseam hends ?_
      by_cases hnil : (formulaSpan s.after).2 = []
      · rw [hnil, Integral.scan_nil] at heq
        obtain ⟨rfl, rfl⟩ := Prod.mk.inj heq
        rw [hnil]
        exact ⟨fun _ => untitled_nil, fun h => by
          obtain ⟨a, b, hab, -⟩ := h
          simp [plainTitle] at hab⟩
      · rw [Integral.escapedAfter_repaired_eq hv hs hnil]
        exact ih

section Regions

variable {y : Text} (hy : Seamless y) {r : DisplayRegion} (hr : r.Fenced)

include hr in
/-- The delimiters of a region are seams. -/
theorem Keeps.opening {t u : Text} {e e' : Bool} (h : Keeps y false t false u) :
    Keeps y e (r.opening ++ t) e' (r.opening ++ u) := by
  rcases hr with ⟨ho, -⟩ | ⟨ho, -⟩ <;> rw [ho]
  · exact .cons_cons (by decide) (by decide) h
  · exact .cons (by decide) (.cons (by decide) h)

include hr in
theorem Keeps.closing {t u : Text} {e e' : Bool} (h : Keeps y false t false u) :
    Keeps y e (r.closing ++ t) e' (r.closing ++ u) := by
  rcases hr with ⟨-, hc⟩ | ⟨-, hc⟩ <;> rw [hc]
  · exact .cons_cons (by decide) (by decide) h
  · exact .cons (by decide) (.cons (by decide) h)

include hy hr in
/-- A region is isolated. -/
theorem Keeps.isolated {before before' t u : Text} (hbefore : Keeps y false before false before')
    (h : Keeps y false t false u) :
    Keeps y false (before ++ r.opening ++ r.content ++ r.closing ++ t) false (r.isolated before' ++ u) := by
  obtain ⟨lineBreak, hblank, hisolated⟩ := DisplayRegion.exists_isolated before' r
  have hnewline : isBlankText ['\n'] = true := by decide
  have hlead : Keeps y false before false (before'.dropEndWhile isGap ++ lineBreak) :=
    (hbefore.trans (.dropEndWhile isBlank_of_isGap_imp)).trans (.append_blank hblank)
  have hrest : Keeps y false t false (['\n'] ++ u) := h.trans (.plain_append (by decide))
  have hcontent : Keeps y false r.content false (r.content.trim ++ ['\n']) :=
    Keeps.trim.trans (.append_blank hnewline)
  have hclosing := hcontent.append hy (hr.head?_closing t) (endsName_of_seam (hr.head?_closing _))
    (Keeps.closing hr hrest)
  have hopening := hlead.append hy (hr.head?_opening _) (endsName_of_seam (hr.head?_opening _))
    (Keeps.opening hr (hclosing.trans (.plain_append (x := ['\n']) (by decide))))
  rw [hisolated]
  simpa only [List.append_assoc] using hopening

end Regions

theorem Keeps.dropLineRest {y t : Text} : Keeps y false t false (DisplayRegion.dropLineRest t) := by
  obtain ⟨x, hx, ht⟩ := DisplayRegion.exists_dropLineRest t
  have h := of_plain_append (y := y) (t := DisplayRegion.dropLineRest t) (slash_not_mem_of_isBlankText hx)
  rwa [← ht] at h

theorem Keeps.regions {y : Text} (hy : Seamless y) {regions : List DisplayRegion}
    (hr : ∀ r ∈ regions, r.Fenced) (rest : Text) :
    Keeps y false (regions.flatMap DisplayRegion.source ++ rest) false
      (regions.flatMap (fun r => r.isolated (DisplayRegion.dropLineRest r.before)) ++
        DisplayRegion.dropLineRest rest) := by
  induction regions with
  | nil => exact .dropLineRest
  | cons r regions ih =>
      have ih := ih fun r' hr' => hr r' (List.mem_cons_of_mem r hr')
      rw [List.flatMap_cons, List.flatMap_cons, List.append_assoc, List.append_assoc, DisplayRegion.source]
      exact .isolated hy (hr r List.mem_cons_self) .dropLineRest ih

/-- **The first title stays the first one** where display regions are put on lines of their own. -/
theorem Keeps.isolateDisplayMath {y : Text} (hy : Seamless y) (t : Text) :
    Keeps y false t false (isolateDisplayMath t) := by
  rcases isolateDisplayMath_cases t with heq | ⟨first, regions, rest, hfenced, ht, heq⟩
  · rw [heq]
    exact .refl y false t
  · obtain ⟨hfirst, hmore⟩ := List.forall_mem_cons.1 hfenced
    rw [heq, ht, List.flatMap_cons, List.append_assoc, DisplayRegion.source]
    exact .isolated hy hfirst (.refl y false _) (.regions hy hmore rest)

end Identity

/-! ### All stages behind the title stage -/

/-- **The title that opens a sheet** opens it behind the last stage. -/
theorem PipelineOptions.opens_write {y t : Text} (hy : Identity.Seamless y) (h : Identity.Opens y false t) :
    Identity.Opens y false (({} : PipelineOptions).write t) := by
  obtain ⟨x, hx, hend⟩ := exists_endLine (isolateDisplayMath (ensureDifferential
    ({} : MathOptions).variableName (({} : Identity).injectFooter t)))
  have hfooter := (Identity.Keeps.injectFooter hy t).opens h
  have hdifferential : Identity.Opens y false (ensureDifferential ({} : MathOptions).variableName
      (({} : Identity).injectFooter t)) :=
    (Identity.Keeps.ensureDifferential hy (by decide) false _).opens hfooter
  rw [write_eq, hend]
  exact ((Identity.Keeps.isolateDisplayMath hy _).opens hdifferential).append_right x

end CribSheet
