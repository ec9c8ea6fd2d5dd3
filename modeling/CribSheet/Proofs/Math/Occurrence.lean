/-
The math repairs and the words of a text.

Both repairs write something at seams of a text: a differential at the end of an integral, line breaks
around the delimiters of a display region, in place of the blanks that stood there.  No solid word runs
across such a seam, so the repaired text holds the solid words that the given text held, and no others.

Main results:

* `CribSheet.isInfix_ensureDifferential_iff` — the repair of integrals keeps the solid words;
* `CribSheet.isInfix_isolateDisplayMath_iff` — so does the isolation of display regions.
-/
import CribSheet.Math.Differential
import CribSheet.Math.Display
import CribSheet.Proofs.Text.Occurrence

set_option relaxedAutoImplicit false
set_option autoImplicit false

namespace CribSheet

open CribSheet.Text CribSheet.Markup

/-! ### Differentials -/

/-- A span ends at a line break, at a dollar, at a command, or with the text. -/
theorem head?_formulaSpan (t : Text) :
    ∀ c ∈ (formulaSpan t).2.head?, c = '\n' ∨ c = '$' ∨ c = '\\' := by
  fun_induction formulaSpan t with
  | case1 => simp
  | case2 c t h =>
      intro d hd
      obtain rfl : c = d := by simpa using hd
      exact h.imp_right Or.inl
  | case3 => simp
  | case4 => simp
  | case5 _ _ _ _ ih => exact ih
  | case6 _ _ _ _ ih => exact ih

namespace Integral

theorem head?_append_source (i : Integral) (hop : i.operator ≠ []) (x y : Text) :
    (i.source ++ x).head? = (i.before ++ i.operator ++ y).head? := by
  have h : i.before ++ i.operator ≠ [] := by simp [hop]
  rw [source, List.append_assoc, List.head?_append_of_ne_nil _ h, List.head?_append_of_ne_nil _ h]

theorem repaired_eq_append (variableName : Text) (i : Integral) :
    ∃ y, i.repaired variableName = i.before ++ i.operator ++ y := by
  rw [repaired]
  split
  · exact ⟨i.span, rfl⟩
  · refine ⟨i.span.trimEnd ++ differential variableName ++ i.span.takeEndWhile isBlank, ?_⟩
    simp only [List.append_assoc]

variable {w : Text} (hw : Solid w)

include hw

/-- What follows an integral starts at a seam, so the words of the text are those of the integral and
those that follow it, and the repair keeps the former. -/
theorem isInfix_repaired_append_iff {variableName : Text} (hv : '\\' ∉ variableName) (i : Integral)
    {x y : Text} (hx : ∀ c ∈ x.head?, c = '\n' ∨ c = '$' ∨ c = '\\') (hhead : y.head? = x.head?)
    (hxy : w <:+: y ↔ w <:+: x) :
    w <:+: i.repaired variableName ++ y ↔ w <:+: i.source ++ x := by
  have hseam : ∀ c ∈ x.head?, c ∉ w.tail := by
    intro c hc hm
    rcases hx c hc with rfl | rfl | rfl
    · exact absurd (hw.blank _ (List.mem_of_mem_tail hm)) (by decide)
    · exact hw.plain _ (List.mem_of_mem_tail hm) (by decide)
    · exact hw.slash hm
  rw [isInfix_append_iff_of_head hw.ne_nil (hhead ▸ hseam), isInfix_append_iff_of_head hw.ne_nil hseam,
    hxy]
  refine or_congr_left ?_
  rw [repaired]
  split
  · rfl
  · have hd : '\\' ∉ 'd' :: variableName ++ i.span.takeEndWhile isBlank := by
      simp only [List.cons_append, List.mem_cons, List.mem_append, not_or]
      exact ⟨by decide, hv, fun hm => absurd (mem_takeEndWhile hm) (by decide)⟩
    have hsplit : i.before ++ i.operator ++ i.span.trimEnd ++ differential variableName ++
          i.span.takeEndWhile isBlank =
        (i.before ++ i.operator ++ i.span.trimEnd) ++ '\\' :: ',' ::
          ('d' :: variableName ++ i.span.takeEndWhile isBlank) := by
      simp [differential]
    have hblank : isBlankText (i.span.takeEndWhile isBlank) = true :=
      List.all_eq_true.2 fun c hc => mem_takeEndWhile hc
    rw [hsplit, hw.isInfix_append_delimiter_iff (by decide), or_iff_left (hw.not_isInfix hd),
      ← isInfix_append_blank_iff hw.blank hw.ne_nil hblank, List.append_assoc, trimEnd,
      dropEndWhile_append_takeEndWhile, source]

/-- The same for all integrals of a text, along the scan. -/
theorem isInfix_flatMap_repaired_iff {variableName : Text} (hv : '\\' ∉ variableName)
    (escaped : Bool) (t : Text) :
    ((scan escaped t).1.flatMap (repaired variableName) ++ (scan escaped t).2).head? = t.head? ∧
      (w <:+: (scan escaped t).1.flatMap (repaired variableName) ++ (scan escaped t).2 ↔
        w <:+: t) := by
  fun_induction scan escaped t with
  | case1 => simp
  | case2 escaped t s hs _ integral more rest heq ih =>
      rw [heq] at ih
      have hop : integral.operator ≠ [] := by simp [integral, Sighting.source]
      have ht : integral.source ++ (formulaSpan s.after).2 = t := by
        have htext := Sighting.text_find? hs
        rw [← htext, Sighting.text]
        conv => rhs; rw [← formulaSpan_append s.after]
        simp [integral, source]
      obtain ⟨y, hy⟩ := repaired_eq_append variableName integral
      simp only [List.flatMap_cons, List.append_assoc]
      constructor
      · conv => rhs; rw [← ht]
        rw [head?_append_source integral hop _ (y ++ (more.flatMap (repaired variableName) ++ rest)),
          hy, List.append_assoc]
      · conv => rhs; rw [← ht]
        exact isInfix_repaired_append_iff hw hv integral (head?_formulaSpan s.after) ih.1 ih.2

end Integral

/-- **The repair of integrals keeps the solid words** and brings none. -/
theorem isInfix_ensureDifferential_iff {w : Text} (hw : Solid w) {variableName : Text}
    (hv : '\\' ∉ variableName) (t : Text) :
    w <:+: ensureDifferential variableName t ↔ w <:+: t :=
  (Integral.isInfix_flatMap_repaired_iff hw hv false t).2

/-! ### Display regions -/

namespace DisplayRegion

/-- The delimiters of the region belong together. -/
def Fenced (r : DisplayRegion) : Prop :=
  (r.opening = ['\\', '['] ∧ r.closing = ['\\', ']']) ∨
    (r.opening = ['$', '$'] ∧ r.closing = ['$', '$'])

theorem forall_fenced_behind {t : Text} {found : List DisplayRegion × Text}
    (h : ∀ r ∈ found.1, r.Fenced) : ∀ r ∈ (behind t found).1, r.Fenced := by
  obtain ⟨regions, rest⟩ := found
  cases regions with
  | nil => exact h
  | cons first regions =>
      intro r hr
      rcases List.mem_cons.1 hr with rfl | hr
      · exact h first List.mem_cons_self
      · exact h r (List.mem_cons_of_mem _ hr)

/-- **Every region that is scanned is fenced.** -/
theorem fenced_of_scan? (t : Text) {found : List DisplayRegion × Text}
    (h : scan? t = some found) : ∀ r ∈ found.1, r.Fenced := by
  fun_induction scan? t generalizing found with
  | case1 | case2 =>
      obtain rfl := Option.some.inj h
      simp
  | case4 | case9 => simp at h
  | case3 | case8 =>
      rename_i ih
      obtain ⟨found', hf, rfl⟩ := Option.map_eq_some_iff.1 h
      intro r hr
      rcases List.mem_cons.1 hr with rfl | hr
      · simp_all [Fenced]
      · exact ih hf r hr
  | case5 | case6 | case7 | case10 | case11 | case12 =>
      rename_i ih
      obtain ⟨found', hf, rfl⟩ := Option.map_eq_some_iff.1 h
      exact forall_fenced_behind (ih hf)

theorem exists_dropLineRest (t : Text) : ∃ x, isBlankText x = true ∧ t = x ++ dropLineRest t := by
  have hgap : isBlankText (t.takeWhile isGap) = true :=
    List.all_eq_true.2 fun c hc =>
      isBlank_of_isGap (List.all_eq_true.1 (List.all_takeWhile (p := isGap) (l := t)) c hc)
  have ht : t.takeWhile isGap ++ t.dropWhile isGap = t := List.takeWhile_append_dropWhile
  rw [dropLineRest]
  split
  · next rest hrest =>
      refine ⟨t.takeWhile isGap ++ ['\n'], ?_, ?_⟩
      · rw [isBlankText_append, hgap, Bool.true_and]
        decide
      · rw [hrest] at ht
        simpa using ht.symm
  · exact ⟨_, hgap, ht.symm⟩

/-- Isolation puts blanks around the delimiters of a region. -/
theorem exists_isolated (before : Text) (r : DisplayRegion) :
    ∃ x, isBlankText x = true ∧
      r.isolated before = (dropEndWhile isGap before ++ x) ++ r.opening ++
        (['\n'] ++ r.content.trim ++ ['\n']) ++ r.closing ++ ['\n'] := by
  simp only [isolated]
  split
  · exact ⟨[], rfl, by simp⟩
  · exact ⟨['\n'], by decide, by simp⟩

section Words

variable {w : Text} (hw : Solid w)

include hw

theorem isInfix_dropLineRest_iff (t : Text) : w <:+: dropLineRest t ↔ w <:+: t := by
  obtain ⟨x, hx, ht⟩ := exists_dropLineRest t
  conv => rhs; rw [ht]
  exact (isInfix_blank_append_iff hw.blank hw.ne_nil hx _).symm

/-- The words of a text with a fenced region in it are those around and between the delimiters. -/
theorem Fenced.isInfix_iff {r : DisplayRegion} (hr : r.Fenced) (a b c : Text) :
    w <:+: a ++ r.opening ++ b ++ r.closing ++ c ↔ (w <:+: a ∨ w <:+: b) ∨ w <:+: c := by
  rcases hr with ⟨ho, hc⟩ | ⟨ho, hc⟩
  · have hopening := hw.isInfix_append_delimiter_iff (by decide : '[' ∈ [',', '$', '[', ']']) a b
    have hclosing :=
      hw.isInfix_append_delimiter_iff (by decide : ']' ∈ [',', '$', '[', ']'])
        (a ++ '\\' :: '[' :: b) c
    rw [← hopening, ← hclosing, ho, hc]
    simp
  · have hopening := hw.isInfix_append_dollars_iff a b
    have hclosing := hw.isInfix_append_dollars_iff (a ++ '$' :: '$' :: b) c
    rw [← hopening, ← hclosing, ho, hc]
    simp

theorem Fenced.isInfix_source_append_iff {r : DisplayRegion} (hr : r.Fenced) (x : Text) :
    w <:+: r.source ++ x ↔ (w <:+: r.before ∨ w <:+: r.content) ∨ w <:+: x := hr.isInfix_iff hw _ _ _

theorem Fenced.isInfix_isolated_append_iff {r : DisplayRegion} (hr : r.Fenced) (before x : Text) :
    w <:+: r.isolated before ++ x ↔ (w <:+: before ∨ w <:+: r.content) ∨ w <:+: x := by
  obtain ⟨lineBreak, hblank, hisolated⟩ := exists_isolated before r
  have hgap : ∀ c, isGap c = true → isBlank c = true := fun _ => isBlank_of_isGap
  have hnewline : isBlankText ['\n'] = true := by decide
  rw [hisolated, List.append_assoc _ ['\n'] x, hr.isInfix_iff hw,
    isInfix_append_blank_iff hw.blank hw.ne_nil hblank,
    isInfix_append_blank_iff hw.blank hw.ne_nil hnewline,
    isInfix_blank_append_iff hw.blank hw.ne_nil hnewline,
    isInfix_blank_append_iff hw.blank hw.ne_nil hnewline,
    isInfix_dropEndWhile_iff hw.blank hw.ne_nil hgap, isInfix_trim_iff hw.blank hw.ne_nil]

/-- All regions behind the first one, and what follows them. -/
theorem isInfix_flatMap_isolated_iff {regions : List DisplayRegion} (hr : ∀ r ∈ regions, r.Fenced)
    (rest : Text) :
    w <:+: regions.flatMap (fun r => r.isolated (dropLineRest r.before)) ++ dropLineRest rest ↔
      w <:+: regions.flatMap source ++ rest := by
  induction regions with
  | nil => exact isInfix_dropLineRest_iff hw rest
  | cons r regions ih =>
      have hfirst := hr r List.mem_cons_self
      have ih := ih fun r' hr' => hr r' (List.mem_cons_of_mem r hr')
      rw [List.flatMap_cons, List.flatMap_cons, List.append_assoc, List.append_assoc,
        hfirst.isInfix_isolated_append_iff hw, hfirst.isInfix_source_append_iff hw,
        isInfix_dropLineRest_iff hw, ih]

end Words

end DisplayRegion

/-- **The isolation of display regions keeps the solid words** and brings none. -/
theorem isInfix_isolateDisplayMath_iff {w : Text} (hw : Solid w) (t : Text) :
    w <:+: isolateDisplayMath t ↔ w <:+: t := by
  rw [isolateDisplayMath]
  split
  · rfl
  · rfl
  · next first regions rest hscan =>
      have hfenced := DisplayRegion.fenced_of_scan? t hscan
      have hfirst := hfenced first List.mem_cons_self
      have hmore := fun r hr => hfenced r (List.mem_cons_of_mem first hr)
      rw [← DisplayRegion.scan?_append t hscan, List.append_assoc,
        hfirst.isInfix_isolated_append_iff hw, DisplayRegion.isInfix_flatMap_isolated_iff hw hmore,
        List.flatMap_cons, List.append_assoc, hfirst.isInfix_source_append_iff hw]

end CribSheet
