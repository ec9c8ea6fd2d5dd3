/-
What the math repairs write into a text.

The repair of integrals puts in differentials and nothing else, one for each integral without one.  The
isolation of display regions changes blanks only.  Neither takes a command out or brings one in that
counts, and a title that stands in the text stands in the repaired text.

Main definitions:

* `CribSheet.bareIntegrals` — the integrals without a differential.

Main results:

* `CribSheet.countP_ensureDifferential`, `CribSheet.heads_ensureDifferential`,
  `CribSheet.Identity.Stands.ensureDifferential` — the repair of integrals;
* `CribSheet.countP_isolateDisplayMath`, `CribSheet.heads_isolateDisplayMath`,
  `CribSheet.Identity.Stands.isolateDisplayMath` — the isolation of display regions.
-/
import CribSheet.Proofs.Math.Occurrence
import CribSheet.Proofs.Payload.Mark
import CribSheet.Proofs.Sheet.Standing

set_option relaxedAutoImplicit false
set_option autoImplicit false

namespace CribSheet

open CribSheet.Text CribSheet.Markup CribSheet.Identity

/-! ### Differentials -/

/-- The integrals without a differential. -/
def bareIntegrals (t : Text) : List Integral :=
  (Integral.scan false t).1.filter fun i => !hasDifferential i.span

theorem bareIntegrals_eq_nil_iff {t : Text} :
    bareIntegrals t = [] ↔ ∀ i ∈ (Integral.scan false t).1, hasDifferential i.span = true := by
  simp [bareIntegrals]

namespace Integral

theorem countP_repaired (variableName : Text) (q : Char → Bool) (i : Integral) :
    (i.repaired variableName).countP q =
      i.source.countP q +
        if hasDifferential i.span then 0 else (differential variableName).countP q := by
  rw [repaired]
  split
  · rw [Nat.add_zero]
  · have hspan := congrArg (List.countP q) (dropEndWhile_append_takeEndWhile isBlank i.span)
    rw [List.countP_append] at hspan
    simp only [source, List.countP_append, trimEnd]
    omega

end Integral

/-- **The repair of integrals writes a differential for each integral without one.** -/
theorem countP_ensureDifferential (variableName t : Text) (q : Char → Bool) :
    (ensureDifferential variableName t).countP q =
      t.countP q + (bareIntegrals t).length * (differential variableName).countP q := by
  have hsum : ∀ is : List Integral,
      (is.flatMap (Integral.repaired variableName)).countP q =
        (is.flatMap Integral.source).countP q +
          (is.filter fun i => !hasDifferential i.span).length *
            (differential variableName).countP q := by
    intro is
    induction is with
    | nil => simp
    | cons i is ih =>
        rw [List.flatMap_cons, List.flatMap_cons, List.countP_append, List.countP_append, ih,
          Integral.countP_repaired]
        cases hd : hasDifferential i.span with
        | true => simp [hd]; omega
        | false => simp [hd, Nat.add_mul]; omega
  have ht := congrArg (List.countP q) (Integral.scan_append false t)
  rw [List.countP_append] at ht
  change ((Integral.scan false t).1.flatMap (Integral.repaired variableName) ++
    (Integral.scan false t).2).countP q = _
  rw [List.countP_append, hsum, bareIntegrals]
  omega

/-- No escape is open where a span ends, unless the text ends there. -/
theorem escapedAfter_formulaSpan (t : Text) (h : (formulaSpan t).2 ≠ []) :
    escapedAfter false (formulaSpan t).1 = false := by
  fun_induction formulaSpan t with
  | case1 => rfl
  | case2 => rfl
  | case3 => exact absurd rfl h
  | case4 => rfl
  | case5 d t' _ _ ih =>
      rw [escapedAfter_pair]
      exact ih h
  | case6 c t _ hc ih =>
      rw [escapedAfter_cons_of_ne hc]
      exact ih h

namespace Integral

theorem escapedAfter_repaired {variableName : Text} (hv : '\\' ∉ variableName) (escaped : Bool)
    {i : Integral} (h : hasDifferential i.span = false) :
    escapedAfter escaped (i.repaired variableName) = false := by
  have hd : '\\' ∉ variableName ++ i.span.takeEndWhile isBlank := by
    rw [List.mem_append, not_or]
    exact ⟨hv, fun hm => absurd (mem_takeEndWhile hm) (by decide)⟩
  have hsplit : i.repaired variableName = (i.before ++ i.operator ++ i.span.trimEnd ++ ['\\', ',']) ++
      'd' :: (variableName ++ i.span.takeEndWhile isBlank) := by
    rw [repaired, if_neg (by simp [h])]
    simp [differential]
  rw [hsplit, escapedAfter_append, escapedAfter_cons_of_ne (by decide), escapedAfter_plain hd]

/-- Differentials do not count. -/
theorem heads_repaired {variableName : Text} (hv : '\\' ∉ variableName) (escaped : Bool)
    (i : Integral) : heads escaped (i.repaired variableName) = heads escaped i.source := by
  rw [repaired]
  split
  · rfl
  · have hblank : isBlankText (i.span.takeEndWhile isBlank) = true :=
      isBlankText_takeEndWhile (fun _ h => h) i.span
    have hzero : ∀ escaped, heads escaped (differential variableName) = 0 := by
      intro escaped
      have hd : '\\' ∉ 'd' :: variableName := by simp [hv]
      cases escaped <;> simp [differential, heads_cons, escapes, isHead, heads_plain hv]
    have hspan := dropEndWhile_append_takeEndWhile isBlank i.span
    rw [heads_append_blank hblank, heads_append, hzero, Nat.add_zero, source]
    conv => rhs; rw [← hspan, ← List.append_assoc, heads_append_blank hblank]
    rfl

/-- **A title stays** where a differential is put in. -/
theorem stands_repaired {y variableName : Text} {escaped : Bool} {i : Integral}
    (h : Stands y escaped i.source) : Stands y escaped (i.repaired variableName) := by
  rw [repaired]
  split
  · exact h
  · have hspan := dropEndWhile_append_takeEndWhile isBlank i.span
    have hblank : isBlankText (i.span.takeEndWhile isBlank) = true :=
      isBlankText_takeEndWhile (fun _ h => h) i.span
    rw [source, ← hspan, ← List.append_assoc] at h
    exact ((h.of_append_blank hblank).append_right _).append_right _

/-- What the repair makes of one integral and what follows it. -/
theorem escapedAfter_source {escaped : Bool} {t : Text} {s : Sighting}
    (hs : Sighting.find? integralNames escaped t = some s) (hrest : (formulaSpan s.after).2 ≠ []) :
    escapedAfter escaped (Integral.mk s.before s.source (formulaSpan s.after).1).source = false := by
  obtain ⟨hname, hin⟩ := Sighting.isIn_find? hs
  have hletters : ∀ name ∈ integralNames, '\\' ∉ name ∧ ∃ c rest, name = c :: rest := by
    simp [integralNames]
  obtain ⟨hslash, c, rest, hc⟩ := hletters _ hname
  rw [source, escapedAfter_append, escapedAfter_append, hin.fresh,
    Sighting.escapedAfter_source hc hslash, escapedAfter_formulaSpan _ hrest]

theorem text_of_find? {escaped : Bool} {t : Text} {s : Sighting}
    (hs : Sighting.find? integralNames escaped t = some s) :
    (Integral.mk s.before s.source (formulaSpan s.after).1).source ++ (formulaSpan s.after).2 = t := by
  have htext := Sighting.text_find? hs
  rw [← htext, Sighting.text]
  conv => rhs; rw [← formulaSpan_append s.after]
  simp [source]

/-- What follows an integral reads the same behind its repair. -/
theorem escapedAfter_repaired_eq {variableName : Text} (hv : '\\' ∉ variableName) {escaped : Bool}
    {t : Text} {s : Sighting} (hs : Sighting.find? integralNames escaped t = some s)
    (hrest : (formulaSpan s.after).2 ≠ []) :
    let i : Integral := ⟨s.before, s.source, (formulaSpan s.after).1⟩
    escapedAfter escaped (i.repaired variableName) = escapedAfter escaped i.source := by
  intro i
  cases hd : hasDifferential i.span with
  | true => rw [repaired, if_pos hd]
  | false => rw [escapedAfter_repaired hv escaped hd, escapedAfter_source hs hrest]

theorem scan_nil (escaped : Bool) : scan escaped [] = ([], []) := by
  rw [scan.eq_def]
  simp [Sighting.find?]

/-- **Differentials do not count** in a text, either. -/
theorem heads_flatMap_repaired {variableName : Text} (hv : '\\' ∉ variableName) (escaped : Bool)
    (t : Text) :
    heads escaped ((scan escaped t).1.flatMap (repaired variableName) ++ (scan escaped t).2) =
      heads escaped t := by
  fun_induction scan escaped t with
  | case1 => rfl
  | case2 escaped t s hs _ integral more rest heq ih =>
      rw [heq] at ih
      have ht := text_of_find? hs
      rw [List.flatMap_cons, List.append_assoc, heads_append, heads_repaired hv]
      conv => rhs; rw [← ht, heads_append]
      congr 1
      by_cases hnil : (formulaSpan s.after).2 = []
      · rw [hnil, scan_nil] at heq
        obtain ⟨rfl, rfl⟩ := Prod.mk.inj heq
        rw [hnil]
        rfl
      · rw [escapedAfter_repaired_eq hv hs hnil]
        exact ih

theorem stands_flatMap_repaired {y variableName : Text} (hy : Tight y) (hv : '\\' ∉ variableName)
    (escaped : Bool) (t : Text) (h : Stands y escaped t) :
    Stands y escaped ((scan escaped t).1.flatMap (repaired variableName) ++ (scan escaped t).2) := by
  fun_induction scan escaped t with
  | case1 => exact h
  | case2 escaped t s hs _ integral more rest heq ih =>
      rw [heq] at ih
      have hseam : ∀ c ∈ (formulaSpan s.after).2.head?, c ∈ ['\n', '$', '\\'] := fun c hc => by
        simpa using head?_formulaSpan s.after c hc
      rw [← text_of_find? hs] at h
      rw [List.flatMap_cons, List.append_assoc]
      rcases h.of_append hy hseam with h | h
      · exact (stands_repaired h).append_right _
      · refine Stands.append_left ?_
        rw [escapedAfter_repaired_eq hv hs h.ne_nil]
        exact ih h

end Integral

theorem heads_ensureDifferential {variableName : Text} (hv : '\\' ∉ variableName) (t : Text) :
    heads false (ensureDifferential variableName t) = heads false t :=
  Integral.heads_flatMap_repaired hv false t

theorem Identity.Stands.ensureDifferential {y variableName t : Text} (hy : Tight y)
    (hv : '\\' ∉ variableName) (h : Stands y false t) :
    Stands y false (ensureDifferential variableName t) :=
  Integral.stands_flatMap_repaired hy hv false t h

/-! ### Display regions -/

theorem isBlank_of_isGap_imp : ∀ c, isGap c = true → isBlank c = true := fun _ => isBlank_of_isGap

namespace DisplayRegion

section Fenced

variable {r : DisplayRegion} (hr : r.Fenced)

include hr

/-- Delimiters do not count, and no escape is open behind them. -/
theorem Fenced.heads_opening (escaped : Bool) (x : Text) :
    heads escaped (r.opening ++ x) = heads false x := by
  rcases hr with ⟨ho, -⟩ | ⟨ho, -⟩ <;> rw [ho] <;> cases escaped <;>
    simp [heads_cons, escapes, isHead]

theorem Fenced.heads_closing (escaped : Bool) (x : Text) :
    heads escaped (r.closing ++ x) = heads false x := by
  rcases hr with ⟨-, hc⟩ | ⟨-, hc⟩ <;> rw [hc] <;> cases escaped <;>
    simp [heads_cons, escapes, isHead]

theorem Fenced.heads_append (a b x : Text) :
    heads false (a ++ r.opening ++ b ++ r.closing ++ x) =
      heads false a + heads false b + heads false x := by
  rw [List.append_assoc, List.append_assoc, List.append_assoc, Markup.heads_append, hr.heads_opening,
    Markup.heads_append, hr.heads_closing]
  omega

theorem Fenced.head?_opening (x : Text) :
    ∀ c ∈ (r.opening ++ x).head?, c ∈ ['\n', '$', '\\'] := by
  rcases hr with ⟨ho, -⟩ | ⟨ho, -⟩ <;> rw [ho] <;> simp

theorem Fenced.head?_closing (x : Text) :
    ∀ c ∈ (r.closing ++ x).head?, c ∈ ['\n', '$', '\\'] := by
  rcases hr with ⟨-, hc⟩ | ⟨-, hc⟩ <;> rw [hc] <;> simp

theorem Fenced.escapedAfter_opening (escaped : Bool) : escapedAfter escaped r.opening = false := by
  rcases hr with ⟨ho, -⟩ | ⟨ho, -⟩ <;> rw [ho] <;> cases escaped <;> decide

theorem Fenced.stands_opening {y : Text} {escaped : Bool} {x : Text}
    (h : Stands y escaped (r.opening ++ x)) : Stands y false x := by
  rcases hr with ⟨ho, -⟩ | ⟨ho, -⟩ <;> rw [ho] at h
  · exact h.of_cons_cons (by decide) (by decide)
  · exact (h.of_cons (by decide)).of_cons (by decide)

theorem Fenced.stands_closing {y : Text} {escaped : Bool} {x : Text}
    (h : Stands y escaped (r.closing ++ x)) : Stands y false x := by
  rcases hr with ⟨-, hc⟩ | ⟨-, hc⟩ <;> rw [hc] at h
  · exact h.of_cons_cons (by decide) (by decide)
  · exact (h.of_cons (by decide)).of_cons (by decide)

/-- **A title stands in front of a region, in it, or behind it.** -/
theorem Fenced.stands_cases {y : Text} (hy : Tight y) {a b x : Text}
    (h : Stands y false (a ++ r.opening ++ b ++ r.closing ++ x)) :
    Stands y false a ∨ Stands y false b ∨ Stands y false x := by
  rw [List.append_assoc, List.append_assoc, List.append_assoc] at h
  rcases h.of_append hy (hr.head?_opening _) with h | h
  · exact Or.inl h
  · rcases (hr.stands_opening h).of_append hy (hr.head?_closing _) with h | h
    · exact Or.inr (Or.inl h)
    · exact Or.inr (Or.inr (hr.stands_closing h))

end Fenced

/-- A title stays where a region is isolated. -/
theorem stands_isolated {r : DisplayRegion} {y before x : Text}
    (h : Stands y false before ∨ Stands y false r.content ∨ Stands y false x) :
    Stands y false (r.isolated before ++ x) := by
  obtain ⟨lineBreak, hblank, hisolated⟩ := exists_isolated before r
  have hend : escapedAfter false (r.isolated before) = false := by
    rw [hisolated]
    exact escapedAfter_concat (by decide) _ _
  rcases h with h | h | h
  · rw [hisolated]
    simp only [List.append_assoc]
    exact (h.dropEndWhile isBlank_of_isGap_imp).append_right _
  · have hopening : escapedAfter false (dropEndWhile isGap before ++ lineBreak ++ r.opening ++ ['\n']) =
        false := escapedAfter_concat (by decide) _ _
    have hsplit : r.isolated before ++ x =
        (dropEndWhile isGap before ++ lineBreak ++ r.opening ++ ['\n']) ++
          (r.content.trim ++ (['\n'] ++ r.closing ++ ['\n'] ++ x)) := by
      rw [hisolated]
      simp
    rw [hsplit]
    refine Stands.append_left ?_
    rw [hopening]
    exact h.trim.append_right _
  · refine Stands.append_left ?_
    rwa [hend]

theorem heads_dropLineRest (t : Text) : heads false (dropLineRest t) = heads false t := by
  obtain ⟨x, hx, ht⟩ := exists_dropLineRest t
  conv => rhs; rw [ht, heads_blank_append hx]

theorem Fenced.heads_isolated {r : DisplayRegion} (hr : r.Fenced) (before x : Text) :
    heads false (r.isolated before ++ x) =
      heads false before + heads false r.content + heads false x := by
  obtain ⟨lineBreak, hblank, hisolated⟩ := exists_isolated before r
  have hnewline : isBlankText ['\n'] = true := by decide
  rw [hisolated, List.append_assoc _ ['\n'] x, hr.heads_append, heads_append_blank hblank,
    heads_dropEndWhile isBlank_of_isGap_imp, heads_append_blank hnewline,
    heads_blank_append hnewline, heads_trim, heads_blank_append hnewline]

theorem heads_flatMap_isolated {regions : List DisplayRegion} (hr : ∀ r ∈ regions, r.Fenced)
    (rest : Text) :
    heads false (regions.flatMap (fun r => r.isolated (dropLineRest r.before)) ++ dropLineRest rest) =
      heads false (regions.flatMap source ++ rest) := by
  induction regions with
  | nil => exact heads_dropLineRest rest
  | cons r regions ih =>
      have hfirst := hr r List.mem_cons_self
      have ih := ih fun r' hr' => hr r' (List.mem_cons_of_mem r hr')
      rw [List.flatMap_cons, List.flatMap_cons, List.append_assoc, List.append_assoc,
        hfirst.heads_isolated, heads_dropLineRest, ih, source, hfirst.heads_append]

theorem stands_dropLineRest {y t : Text} (h : Stands y false t) : Stands y false (dropLineRest t) := by
  obtain ⟨x, hx, ht⟩ := exists_dropLineRest t
  rw [ht] at h
  exact h.of_blank_append hx

theorem stands_flatMap_isolated {y : Text} (hy : Tight y) {regions : List DisplayRegion}
    (hr : ∀ r ∈ regions, r.Fenced) {rest : Text}
    (h : Stands y false (regions.flatMap source ++ rest)) :
    Stands y false
      (regions.flatMap (fun r => r.isolated (dropLineRest r.before)) ++ dropLineRest rest) := by
  induction regions with
  | nil => exact stands_dropLineRest h
  | cons r regions ih =>
      have hfirst := hr r List.mem_cons_self
      have ih := ih fun r' hr' => hr r' (List.mem_cons_of_mem r hr')
      rw [List.flatMap_cons, List.append_assoc] at h ⊢
      refine stands_isolated ?_
      exact (hfirst.stands_cases hy h).imp stands_dropLineRest (Or.imp_right ih)

theorem countP_dropLineRest {q : Char → Bool} (hq : Visible q) (t : Text) :
    (dropLineRest t).countP q = t.countP q := by
  obtain ⟨x, hx, ht⟩ := exists_dropLineRest t
  conv => rhs; rw [ht, List.countP_append, hq.countP_blank hx, Nat.zero_add]

theorem countP_isolated {q : Char → Bool} (hq : Visible q) (before : Text)
    (r : DisplayRegion) :
    (r.isolated before).countP q =
      before.countP q + r.opening.countP q + r.content.countP q + r.closing.countP q := by
  obtain ⟨lineBreak, hblank, hisolated⟩ := exists_isolated before r
  have hnewline := hq.countP_blank (by decide : isBlankText ['\n'] = true)
  rw [hisolated]
  simp only [List.countP_append, hnewline, hq.countP_blank hblank, hq.countP_trim,
    hq.countP_dropEndWhile isBlank_of_isGap_imp]
  omega

theorem countP_flatMap_isolated {q : Char → Bool} (hq : Visible q)
    (regions : List DisplayRegion) (rest : Text) :
    (regions.flatMap (fun r => r.isolated (dropLineRest r.before)) ++ dropLineRest rest).countP q =
      (regions.flatMap source ++ rest).countP q := by
  induction regions with
  | nil => exact countP_dropLineRest hq rest
  | cons r regions ih =>
      rw [List.flatMap_cons, List.flatMap_cons, List.append_assoc, List.append_assoc,
        List.countP_append, countP_isolated hq, countP_dropLineRest hq, ih, List.countP_append, source]
      simp only [List.countP_append]

theorem mem_dropLineRest {c : Char} {t : Text} (h : c ∈ dropLineRest t) : c ∈ t := by
  obtain ⟨x, -, ht⟩ := exists_dropLineRest t
  rw [ht]
  exact List.mem_append_right x h

theorem mem_isolated {c : Char} (hc : c ≠ '\n') {r : DisplayRegion} {before : Text}
    (hbefore : c ∈ before → c ∈ r.before) (h : c ∈ r.isolated before) : c ∈ r.source := by
  have hgap : c ∈ before.dropEndWhile isGap → c ∈ r.before := fun hd =>
    hbefore ((dropEndWhile_isPrefix isGap before).subset hd)
  have htrim : c ∈ r.content.trim → c ∈ r.content := fun hd => (deletes_trim r.content).subset hd
  have hline : ∀ p : Prop, [Decidable p] → c ∉ if p then [] else ['\n'] := fun p _ => by
    split <;> simp [hc]
  simp only [isolated, List.mem_append, List.mem_cons, hc, hline, List.not_mem_nil, or_false,
    false_or] at h
  simp only [source, List.mem_append]
  tauto

end DisplayRegion

/-- The regions of a text that is isolated, and what that makes of it. -/
theorem isolateDisplayMath_cases (t : Text) :
    isolateDisplayMath t = t ∨ ∃ first regions rest,
      (∀ r ∈ first :: regions, r.Fenced) ∧
      t = (first :: regions).flatMap DisplayRegion.source ++ rest ∧
      isolateDisplayMath t = first.isolated first.before ++
        (regions.flatMap (fun r => r.isolated (DisplayRegion.dropLineRest r.before)) ++
          DisplayRegion.dropLineRest rest) := by
  rw [isolateDisplayMath]
  split
  · exact Or.inl rfl
  · exact Or.inl rfl
  · next first regions rest hscan =>
      refine Or.inr ⟨first, regions, rest, DisplayRegion.fenced_of_scan? t hscan, ?_, ?_⟩
      · exact (DisplayRegion.scan?_append t hscan).symm
      · rw [List.append_assoc]

/-- Isolation writes line breaks only. -/
theorem mem_isolateDisplayMath {c : Char} (hc : c ≠ '\n') {t : Text} (h : c ∈ isolateDisplayMath t) :
    c ∈ t := by
  rcases isolateDisplayMath_cases t with heq | ⟨first, regions, rest, -, ht, heq⟩
  · exact heq ▸ h
  · rw [heq, List.mem_append, List.mem_append, List.mem_flatMap] at h
    rw [ht, List.mem_append, List.mem_flatMap]
    rcases h with h | ⟨r, hr, h⟩ | h
    · exact Or.inl ⟨first, List.mem_cons_self, DisplayRegion.mem_isolated hc (fun h => h) h⟩
    · exact Or.inl ⟨r, List.mem_cons_of_mem _ hr,
        DisplayRegion.mem_isolated hc DisplayRegion.mem_dropLineRest h⟩
    · exact Or.inr (DisplayRegion.mem_dropLineRest h)

theorem heads_isolateDisplayMath (t : Text) :
    heads false (isolateDisplayMath t) = heads false t := by
  rcases isolateDisplayMath_cases t with h | ⟨first, regions, rest, hfenced, ht, h⟩
  · rw [h]
  · obtain ⟨hfirst, hmore⟩ := List.forall_mem_cons.1 hfenced
    rw [h, hfirst.heads_isolated, DisplayRegion.heads_flatMap_isolated hmore, ht, List.flatMap_cons,
      List.append_assoc, DisplayRegion.source, hfirst.heads_append]

/-- **Isolation changes blanks only.** -/
theorem countP_isolateDisplayMath {q : Char → Bool} (hq : Visible q) (t : Text) :
    (isolateDisplayMath t).countP q = t.countP q := by
  rcases isolateDisplayMath_cases t with h | ⟨first, regions, rest, -, ht, h⟩
  · rw [h]
  · rw [h, List.countP_append, DisplayRegion.countP_isolated hq,
      DisplayRegion.countP_flatMap_isolated hq, ht, List.flatMap_cons, List.append_assoc,
      List.countP_append, DisplayRegion.source]
    simp only [List.countP_append]

theorem Identity.Stands.isolateDisplayMath {y t : Text} (hy : Tight y) (h : Stands y false t) :
    Stands y false (isolateDisplayMath t) := by
  rcases isolateDisplayMath_cases t with heq | ⟨first, regions, rest, hfenced, ht, heq⟩
  · rwa [heq]
  · obtain ⟨hfirst, hmore⟩ := List.forall_mem_cons.1 hfenced
    rw [ht, List.flatMap_cons, List.append_assoc] at h
    rw [heq]
    exact DisplayRegion.stands_isolated ((hfirst.stands_cases hy h).imp_right
      (Or.imp_right (DisplayRegion.stands_flatMap_isolated hy hmore)))

end CribSheet
