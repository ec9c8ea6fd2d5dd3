/-
When the repair of integrals is complete.

The differential goes behind the last character of a span that is not blank.  When that character is a
backslash, as in a control space, the differential starts with a second one, the two are a line break
command, and the span now ends in front of them: the integral still has no differential, and a second
repair gives it another one.  In all other integrals the differential lies in the span when the text is
scanned again, and every span behind it is the same.  So the repair is complete, and a second one changes
nothing, exactly when no integral without a differential ends in a backslash.

Main definitions:

* `CribSheet.Unended` — a text in which no formula ends;
* `CribSheet.Integral.Repairable` — an integral that one repair is enough for.

Main results:

* `CribSheet.Unended.formulaSpan_append` — a formula runs through such a text;
* `CribSheet.Integral.scan_repaired_append`, `CribSheet.Integral.exists_bare_of_not_repairable` — the scan
  of a repaired integral and what follows it;
* `CribSheet.ensureDifferential_eq_self_iff` — the texts that the repair leaves alone;
* `CribSheet.ensureDifferential_twice_iff` — when the repair is complete.
-/
import CribSheet.Proofs.Math.Sites
import CribSheet.Proofs.Sheet.Settled

set_option relaxedAutoImplicit false
set_option autoImplicit false

namespace CribSheet

open CribSheet.Text CribSheet.Markup

/-! ### Texts in which no formula ends -/

/-- **No formula ends in the text**, and no escape is open at its end. -/
structure Unended (t : Text) : Prop where
  /-- The span is the text. -/
  rest : (formulaSpan t).2 = []
  /-- No escape is open. -/
  closed : escapedAfter false t = false

theorem formulaSpan_eq_self_iff {t : Text} : formulaSpan t = (t, []) ↔ (formulaSpan t).2 = [] := by
  constructor
  · intro h
    rw [h]
  · intro h
    have happend := formulaSpan_append t
    rw [h, List.append_nil] at happend
    rw [← h]
    exact Prod.ext happend rfl

theorem not_endsFormula_iff {d : Char} {t : Text} :
    ¬ (d = ']' ∨ d = ')' ∨ d = '\\' ∨ startsWith endBrace (d :: t) = true) ↔
      d ∉ [']', ')', '\\'] ∧ ¬ endBrace <+: d :: t := by
  simp [startsWith_iff, and_assoc]

/-- A pair that ends no formula stays in the span. -/
theorem formulaSpan_pair {d : Char} {t : Text} (hd : d ∉ [']', ')', '\\']) (hbrace : ¬ endBrace <+: d :: t) :
    formulaSpan ('\\' :: d :: t) = ('\\' :: d :: (formulaSpan t).1, (formulaSpan t).2) := by
  rw [formulaSpan.eq_def]
  simp [if_neg (not_endsFormula_iff.2 ⟨hd, hbrace⟩)]

/-- A character that ends no formula and starts no command stays in the span. -/
theorem formulaSpan_cons {c : Char} (hplain : ¬ (c = '\n' ∨ c = '$')) (hslash : c ≠ '\\') (t : Text) :
    formulaSpan (c :: t) = (c :: (formulaSpan t).1, (formulaSpan t).2) := by
  rw [formulaSpan.eq_def]
  simp only [if_neg hplain, if_neg hslash]

/-- What follows a span ends its formula at once. -/
theorem formulaSpan_rest (t : Text) : formulaSpan (formulaSpan t).2 = ([], (formulaSpan t).2) := by
  fun_induction formulaSpan t with
  | case1 | case3 => rfl
  | case2 c t' h => rw [formulaSpan.eq_def]; simp [h]
  | case4 c d t' hend => rw [formulaSpan.eq_def]; simp_all
  | case5 _ _ _ _ ih | case6 _ _ _ _ ih => exact ih

/-- **No formula ends in the beginning of a span.** -/
theorem formulaSpan_of_isPrefix {x t : Text} (h : x <+: (formulaSpan t).1) : (formulaSpan x).2 = [] := by
  fun_induction formulaSpan t generalizing x with
  | case1 | case2 | case4 =>
      obtain rfl := List.prefix_nil.1 h
      rfl
  | case3 =>
      rcases List.prefix_cons_iff.1 h with rfl | ⟨x, rfl, hx⟩
      · rfl
      · obtain rfl := List.prefix_nil.1 hx
        rfl
  | case5 d t' hend _ ih =>
      obtain ⟨hd, hbrace⟩ := not_endsFormula_iff.1 hend
      rcases List.prefix_cons_iff.1 h with rfl | ⟨y, rfl, hy⟩
      · rfl
      · rcases List.prefix_cons_iff.1 hy with rfl | ⟨x, rfl, hx⟩
        · rfl
        · -- Where the beginning starts with the end of an environment, the whole text does.
          have hbegins : d :: x <+: d :: t' :=
            (List.prefix_cons_inj d).2 (hx.trans ⟨_, formulaSpan_append t'⟩)
          rw [formulaSpan_pair hd fun hb => hbrace (hb.trans hbegins)]
          exact ih hx
  | case6 c t' hplain hslash ih =>
      rcases List.prefix_cons_iff.1 h with rfl | ⟨x, rfl, hx⟩
      · rfl
      · rw [formulaSpan_cons hplain hslash]
        exact ih hx

/-- In a span an escape is open behind a backslash at its end, and nowhere else. -/
theorem escapedAfter_iff_getLast? {x : Text} (hx : (formulaSpan x).2 = []) :
    escapedAfter false x = true ↔ x.getLast? = some '\\' := by
  fun_induction formulaSpan x with
  | case1 | case3 => simp [escapes]
  | case2 | case4 => simp at hx
  | case5 d t' hend _ ih =>
      have hd : d ≠ '\\' := fun hd => hend (.inr (.inr (.inl hd)))
      rw [escapedAfter_pair, ih hx]
      cases t' with
      | nil => simp [hd]
      | cons e t' => simp
  | case6 c t' hplain hslash ih =>
      rw [escapedAfter_cons_of_ne hslash, ih hx]
      cases t' with
      | nil => simp [hslash]
      | cons e t' => simp

namespace Unended

/-- **A formula runs through** a text in which none ends, into what follows it. -/
theorem formulaSpan_append {x u : Text} (hx : Unended x) (hu : ∀ c ∈ u.head?, c ∉ endBrace) :
    formulaSpan (x ++ u) = (x ++ (formulaSpan u).1, (formulaSpan u).2) := by
  obtain ⟨hrest, hclosed⟩ := hx
  fun_induction formulaSpan x with
  | case1 => rfl
  | case2 | case4 => simp at hrest
  | case3 => simp [escapes] at hclosed
  | case5 d t' hend _ ih =>
      obtain ⟨hd, hbrace⟩ := not_endsFormula_iff.1 hend
      have hbrace' : ¬ endBrace <+: d :: (t' ++ u) := fun hb =>
        hbrace (isPrefix_of_isPrefix_append (t := d :: t') hb hu)
      rw [escapedAfter_pair] at hclosed
      rw [List.cons_append, List.cons_append, formulaSpan_pair hd hbrace', ih hrest hclosed]
      rfl
  | case6 c t' hplain hslash ih =>
      rw [escapedAfter_cons_of_ne hslash] at hclosed
      rw [List.cons_append, formulaSpan_cons hplain hslash, ih hrest hclosed]
      rfl

theorem append {x u : Text} (hx : Unended x) (hu : Unended u) (hhead : ∀ c ∈ u.head?, c ∉ endBrace) :
    Unended (x ++ u) :=
  ⟨by rw [hx.formulaSpan_append hhead, hu.rest], by rw [escapedAfter_append, hx.closed, hu.closed]⟩

theorem pair {d : Char} {t : Text} (hd : d ∉ [']', ')', '\\']) (hbrace : ¬ endBrace <+: d :: t) (ht : Unended t) :
    Unended ('\\' :: d :: t) :=
  ⟨by rw [formulaSpan_pair hd hbrace, ht.rest], by rw [escapedAfter_pair, ht.closed]⟩

theorem cons {c : Char} {t : Text} (hc : c ∉ ['\n', '$', '\\']) (ht : Unended t) : Unended (c :: t) := by
  simp only [List.mem_cons, List.not_mem_nil, or_false, not_or] at hc
  have hplain : ¬ (c = '\n' ∨ c = '$') := fun h => h.elim hc.1 hc.2.1
  exact ⟨by rw [formulaSpan_cons hplain hc.2.2, ht.rest], by rw [escapedAfter_cons_of_ne hc.2.2, ht.closed]⟩

theorem of_plain {x : Text} (hx : ∀ c ∈ x, c ∉ ['\n', '$', '\\']) : Unended x := by
  induction x with
  | nil => exact ⟨rfl, rfl⟩
  | cons c x ih =>
      have ih := ih fun d hd => hx d (List.mem_cons_of_mem c hd)
      exact ih.cons (hx c List.mem_cons_self)

theorem of_letters {name : Text} (hname : ∀ c ∈ name, isLetter c = true) : Unended name := by
  refine of_plain fun c hc hend => ?_
  have hletter := hname c hc
  rw [List.mem_cons, List.mem_cons, List.mem_singleton] at hend
  rcases hend with rfl | rfl | rfl <;> exact absurd hletter (by decide)

end Unended

theorem IsVariable.unended {v : Text} (hv : IsVariable v) : Unended v := by
  cases hv with
  | @letter c hc => exact .of_letters (by simpa using hc)
  | @word name hne hname =>
      obtain ⟨d, name, rfl⟩ := List.exists_cons_of_ne_nil hne
      have hd : d ∉ [']', ')', '\\'] := by
        have hletter := hname d List.mem_cons_self
        rw [List.mem_cons, List.mem_cons, List.mem_singleton]
        rintro (rfl | rfl | rfl) <;> exact absurd hletter (by decide)
      -- No brace stands in a control word.
      have hbrace : ¬ endBrace <+: d :: name := fun hb =>
        absurd (hname '{' (hb.mem (by decide))) (by decide)
      exact .pair hd hbrace (.of_letters fun e he => hname e (List.mem_cons_of_mem d he))

/-- **What the repair writes ends no formula.** -/
theorem unended_differential {variableName : Text} (hv : IsVariable variableName) :
    Unended (differential variableName) := by
  have hbrace : ¬ endBrace <+: ',' :: 'd' :: variableName := by simp [endBrace]
  exact .pair (by decide) hbrace (hv.unended.cons (by decide))

/-- **A text that ends its formula at once** still does with more text changed behind a backslash in it. -/
theorem formulaSpan_append_slash {a u : Text} (ha : a ≠ []) (h : (formulaSpan (a ++ '\\' :: u)).1 = []) (u' : Text) :
    formulaSpan (a ++ '\\' :: u') = ([], a ++ '\\' :: u') := by
  obtain ⟨c, a, rfl⟩ := List.exists_cons_of_ne_nil ha
  by_cases hplain : c = '\n' ∨ c = '$'
  · rw [List.cons_append, formulaSpan.eq_def]
    simp [hplain]
  by_cases hslash : c = '\\'
  · subst hslash
    cases a with
    | nil => rw [List.cons_append, List.nil_append, formulaSpan.eq_def]; simp
    | cons d a =>
        by_cases hend : d ∈ [']', ')', '\\'] ∨ endBrace <+: d :: a
        · rw [List.cons_append, List.cons_append, formulaSpan.eq_def]
          have hend' : d = ']' ∨ d = ')' ∨ d = '\\' ∨ startsWith endBrace (d :: (a ++ '\\' :: u')) = true := by
            rw [← not_not (a := _ ∨ _), not_endsFormula_iff]
            rintro ⟨hd, hbrace⟩
            exact hend.elim hd fun hb => hbrace (hb.trans (List.prefix_append (d :: a) _))
          simp [hend']
        · obtain ⟨hd, hbrace⟩ := not_or.1 hend
          have hbrace' : ¬ endBrace <+: d :: (a ++ '\\' :: u) := fun hb =>
            hbrace (isPrefix_of_isPrefix_append (t := d :: a) hb (by simp [endBrace]))
          rw [List.cons_append, List.cons_append, formulaSpan_pair hd hbrace'] at h
          exact absurd h (List.cons_ne_nil _ _)
  · rw [List.cons_append, formulaSpan_cons hplain hslash] at h
    exact absurd h (List.cons_ne_nil _ _)

/-! ### One integral and its repair -/

namespace Integral

/-- **One repair is enough** for the integral: there is a differential, or the span does not end in a
backslash, blanks apart. -/
def Repairable (i : Integral) : Prop := HoldsDifferential i.span ∨ i.span.trimEnd.getLast? ≠ some '\\'

instance : DecidablePred Repairable := fun i =>
  inferInstanceAs (Decidable (HoldsDifferential i.span ∨ i.span.trimEnd.getLast? ≠ some '\\'))

/-- The span that the repair makes. -/
def repairedSpan (variableName span : Text) : Text :=
  if HoldsDifferential span then span
  else span.trimEnd ++ differential variableName ++ span.takeEndWhile isBlank

variable {variableName : Text}

theorem repaired_eq (i : Integral) :
    i.repaired variableName = i.before ++ i.operator ++ repairedSpan variableName i.span := by
  simp only [repaired, repairedSpan, hasDifferential_iff]
  split
  · rfl
  · simp only [List.append_assoc]

theorem holdsDifferential_repairedSpan (hv : IsVariable variableName) (span : Text) :
    HoldsDifferential (repairedSpan variableName span) := by
  rw [repairedSpan]
  split
  · assumption
  · exact holdsDifferential_differential hv _ _

/-- No name goes on with a repaired span where none goes on with the span. -/
theorem endsName_repairedSpan {span rest : Text} (h : EndsName (span ++ rest)) (z : Text) :
    EndsName (repairedSpan variableName span ++ z) := by
  rw [repairedSpan]
  split
  · next hd =>
      refine endsName_append_of_ne_nil ?_ h
      rintro rfl
      exact absurd hd (by decide)
  · rw [← dropEndWhile_append_takeEndWhile isBlank span, ← trimEnd, List.append_assoc] at h
    rw [List.append_assoc, List.append_assoc]
    by_cases hnil : span.trimEnd = []
    · rw [hnil]
      exact endsName_backslash _
    · exact endsName_append_of_ne_nil hnil h

/-- **No formula ends in a repaired span** when one repair is enough. -/
theorem unended_repairedSpan (hv : IsVariable variableName) {i : Integral} {u rest : Text}
    (hspan : formulaSpan u = (i.span, rest)) (hgood : i.Repairable) (hrest : HoldsDifferential i.span → rest ≠ []) :
    Unended (repairedSpan variableName i.span) := by
  have hwhole : (formulaSpan i.span).2 = [] := formulaSpan_of_isPrefix (t := u) (by simp [hspan])
  rw [repairedSpan]
  split
  · next hd =>
      have hclosed := escapedAfter_formulaSpan u (by rw [hspan]; exact hrest hd)
      rw [hspan] at hclosed
      exact ⟨hwhole, hclosed⟩
  · next hd =>
      have hblank : ∀ c ∈ i.span.takeEndWhile isBlank, c ∉ endBrace ∧ '\\' ≠ c := by
        have hall : ∀ c ∈ endBrace, isBlank c = false := by decide
        intro c hc
        have hc := mem_takeEndWhile hc
        refine ⟨fun hbrace => by simp [hall c hbrace] at hc, ?_⟩
        rintro rfl
        exact absurd hc (by decide)
      have hhead : ∀ c ∈ (i.span.takeEndWhile isBlank).head?, c ∉ endBrace := fun c hc =>
        (hblank c (List.mem_of_mem_head? hc)).1
      have htrim : (formulaSpan i.span.trimEnd).2 = [] :=
        formulaSpan_of_isPrefix (t := u) (by rw [hspan]; exact dropEndWhile_isPrefix isBlank _)
      have hfront : Unended i.span.trimEnd :=
        ⟨htrim, by rw [← Bool.not_eq_true, escapedAfter_iff_getLast? htrim]; exact hgood.resolve_left hd⟩
      have hback : Unended (i.span.takeEndWhile isBlank) := by
        refine ⟨?_, escapedAfter_plain fun hslash => (hblank _ hslash).2 rfl⟩
        rw [← dropEndWhile_append_takeEndWhile isBlank i.span, ← trimEnd, hfront.formulaSpan_append hhead] at hwhole
        exact hwhole
      refine (hfront.append (unended_differential hv) ?_).append hback hhead
      simp [differential, endBrace]

/-- A span that ends in a backslash, blanks apart, ends in front of it when another backslash follows. -/
theorem formulaSpan_trimEnd_append {u span rest : Text} (hspan : formulaSpan u = (span, rest))
    (hslash : span.trimEnd.getLast? = some '\\') (z : Text) :
    (formulaSpan (span.trimEnd ++ '\\' :: z)).1 = span.trimEnd.dropLast := by
  have hsplit : span.trimEnd.dropLast ++ ['\\'] = span.trimEnd :=
    List.dropLast_append_getLast? _ hslash
  have hprefix : span.trimEnd <+: (formulaSpan u).1 := by
    rw [hspan]
    exact dropEndWhile_isPrefix isBlank _
  have hopen := (escapedAfter_iff_getLast? (formulaSpan_of_isPrefix hprefix)).2 hslash
  have hfront : Unended span.trimEnd.dropLast := by
    refine ⟨formulaSpan_of_isPrefix ((List.dropLast_prefix _).trans hprefix), ?_⟩
    rw [← hsplit, escapedAfter_append] at hopen
    simpa [escapes] using hopen
  have hbreak : formulaSpan ('\\' :: '\\' :: z) = ([], '\\' :: '\\' :: z) := by
    rw [formulaSpan.eq_def]
    simp
  rw [← hsplit, List.append_assoc, List.singleton_append, hfront.formulaSpan_append (by simp [endBrace]), hbreak,
    List.append_nil, hsplit]

/-- A text without integral commands is scanned as a whole. -/
theorem scan_of_find?_eq_none {escaped : Bool} {t : Text} (h : Sighting.find? integralNames escaped t = none) :
    scan escaped t = ([], t) := by
  rw [scan.eq_def]
  split
  · rfl
  · next c hc => simp [h] at hc

section Scan

variable {escaped : Bool} {t span rest : Text} {c : Sighting}
  (hc : Sighting.find? integralNames escaped t = some c)

include hc

/-- The scan of a command, its span and what follows. -/
theorem scan_of_find? (hspan : formulaSpan c.after = (span, rest)) :
    scan escaped t =
      (⟨c.before, c.source, span⟩ :: (scan (escapedAfter escaped (c.before ++ c.source ++ span)) rest).1,
        (scan (escapedAfter escaped (c.before ++ c.source ++ span)) rest).2) := by
  obtain ⟨rfl, rfl⟩ : (formulaSpan c.after).1 = span ∧ (formulaSpan c.after).2 = rest := by simp [hspan]
  rw [scan.eq_def]
  split
  · next hnone => simp [hc] at hnone
  · next c' hc' =>
      obtain rfl := Option.some.inj (hc.symm.trans hc')
      rfl

variable (hspan : formulaSpan c.after = (span, rest))

include hspan

/-- The command is found again in front of its repaired span. -/
theorem find?_repaired_append (z : Text) :
    Sighting.find? integralNames escaped (repaired variableName ⟨c.before, c.source, span⟩ ++ z) =
      some { c with after := repairedSpan variableName span ++ z } := by
  obtain ⟨hname, hin⟩ := Sighting.isIn_find? hc
  refine Sighting.find?_of_isIn (fun _ => letters_of_mem_integralNames) hname ⟨?_, hin.fresh, fun hstar => ?_⟩
    (Sighting.find?_before hc).1
  · rw [repaired_eq]
    simp [Sighting.text, Sighting.source]
  · have hends := hin.ends hstar
    rw [← formulaSpan_append c.after, hspan] at hends
    exact endsName_repairedSpan hends z

/-- **A repaired integral is scanned** with its whole repaired span. -/
theorem scan_repaired_append (hv : IsVariable variableName)
    (hgood : (⟨c.before, c.source, span⟩ : Integral).Repairable) {z : Text} (hz : formulaSpan z = ([], z))
    (hnil : rest = [] → z = []) :
    scan escaped (repaired variableName ⟨c.before, c.source, span⟩ ++ z) =
      (⟨c.before, c.source, repairedSpan variableName span⟩ ::
          (scan (escapedAfter escaped (repaired variableName ⟨c.before, c.source, span⟩)) z).1,
        (scan (escapedAfter escaped (repaired variableName ⟨c.before, c.source, span⟩)) z).2) := by
  have hrepaired : formulaSpan (repairedSpan variableName span ++ z) = (repairedSpan variableName span, z) := by
    by_cases hrest : HoldsDifferential span → rest ≠ []
    · have hunended := unended_repairedSpan hv hspan hgood hrest
      have hhead : ∀ c ∈ z.head?, c ∉ endBrace := by
        intro d hd
        have hend := head?_formulaSpan z d (by rw [hz]; exact hd)
        rcases hend with rfl | rfl | rfl <;> decide
      rw [hunended.formulaSpan_append hhead, hz, List.append_nil]
    · -- The span ends with the text.
      obtain ⟨hd, hrest⟩ := Classical.not_imp.1 hrest
      rw [not_not] at hrest
      obtain rfl := hnil hrest
      rw [List.append_nil, repairedSpan, if_pos hd, formulaSpan_eq_self_iff]
      exact formulaSpan_of_isPrefix (t := c.after) (by simp [hspan])
  rw [scan_of_find? (find?_repaired_append hc hspan z) hrepaired, repaired_eq]
  rfl

/-- No escape is open behind a repaired integral. -/
theorem escapedAfter_repaired_of_repairable (hv : IsVariable variableName)
    (hgood : (⟨c.before, c.source, span⟩ : Integral).Repairable) (hrest : rest ≠ []) :
    escapedAfter escaped (repaired variableName ⟨c.before, c.source, span⟩) = false := by
  rw [repaired_eq, escapedAfter_append, IntegralSite.fresh_of_find? hc]
  exact (unended_repairedSpan hv hspan hgood fun _ => hrest).closed

/-- **The second scan misses a differential** behind a backslash. -/
theorem exists_bare_of_not_repairable (hbad : ¬ (⟨c.before, c.source, span⟩ : Integral).Repairable) (z : Text) :
    ∃ i ∈ (scan escaped (repaired variableName ⟨c.before, c.source, span⟩ ++ z)).1, ¬ HoldsDifferential i.span := by
  obtain ⟨hbare, hslash⟩ := not_or.1 hbad
  rw [not_not] at hslash
  rw [scan_of_find? (find?_repaired_append hc hspan z) rfl]
  refine ⟨_, List.mem_cons_self, fun hd => hbare ?_⟩
  have hspan' : repairedSpan variableName span ++ z =
      span.trimEnd ++ '\\' :: (',' :: 'd' :: variableName ++ span.takeEndWhile isBlank ++ z) := by
    rw [repairedSpan, if_neg hbare]
    simp [differential]
  simp only [hspan', formulaSpan_trimEnd_append hspan hslash] at hd
  obtain ⟨u, hu⟩ := (List.dropLast_prefix span.trimEnd).trans (dropEndWhile_isPrefix isBlank span)
  rw [← hu]
  exact hd.append u

end Scan

/-! ### The second scan -/

/-- The repaired text, along the scan. -/
def repairAll (variableName : Text) (escaped : Bool) (t : Text) : Text :=
  (scan escaped t).1.flatMap (repaired variableName) ++ (scan escaped t).2

theorem repairAll_nil (escaped : Bool) : repairAll variableName escaped [] = [] := by
  rw [repairAll, scan_nil]
  rfl

theorem repairAll_of_find? {escaped : Bool} {t span rest : Text} {c : Sighting}
    (hc : Sighting.find? integralNames escaped t = some c) (hspan : formulaSpan c.after = (span, rest)) :
    repairAll variableName escaped t =
      repaired variableName ⟨c.before, c.source, span⟩ ++
        repairAll variableName (escapedAfter escaped (c.before ++ c.source ++ span)) rest := by
  simp only [repairAll, scan_of_find? hc hspan, List.flatMap_cons, List.append_assoc]

/-- No integral starts where a formula ends. -/
theorem before_ne_nil_of_find? {escaped : Bool} {t : Text} {c : Sighting}
    (hc : Sighting.find? integralNames escaped t = some c) (ht : formulaSpan t = ([], t)) : c.before ≠ [] := by
  obtain ⟨hname, hin⟩ := Sighting.isIn_find? hc
  have hheads : ∀ name ∈ integralNames, name.head? ≠ some 'e' := by decide
  obtain ⟨d, name, hcons⟩ := exists_cons_of_mem_integralNames hname
  have hletter : isLetter d = true := letters_of_mem_integralNames hname d (hcons ▸ List.mem_cons_self)
  have hd : d ∉ [']', ')', '\\'] := by
    rw [List.mem_cons, List.mem_cons, List.mem_singleton]
    rintro (rfl | rfl | rfl) <;> exact absurd hletter (by decide)
  have he : d ≠ 'e' := by
    rintro rfl
    exact hheads c.name hname (by simp [hcons])
  intro hbefore
  have htext := hin.eq_append
  simp only [hbefore, Sighting.source, hcons, List.cons_append, List.nil_append, List.tail_cons] at htext
  have hbrace : ∀ u, ¬ endBrace <+: d :: u := fun u hb => he (List.cons_prefix_cons.1 hb).1.symm
  rw [htext, formulaSpan_pair hd (hbrace _)] at ht
  simp at ht

/-- **Where a formula ends, it ends in the repaired text**. -/
theorem formulaSpan_repairAll (variableName : Text) (escaped : Bool) {t : Text} (ht : formulaSpan t = ([], t)) :
    formulaSpan (repairAll variableName escaped t) = ([], repairAll variableName escaped t) := by
  cases hc : Sighting.find? integralNames escaped t with
  | none =>
      rw [repairAll, scan_of_find?_eq_none hc]
      exact ht
  | some c =>
      have htext := (Sighting.isIn_find? hc).2.eq_append
      have hspan : (formulaSpan (c.before ++ '\\' :: (c.source.tail ++ c.after))).1 = [] := by
        rw [← htext, ht]
      rw [repairAll_of_find? hc rfl, repaired_eq]
      simp only [Sighting.source, List.append_assoc, List.cons_append]
      exact formulaSpan_append_slash (before_ne_nil_of_find? hc ht) hspan _

/-- **The second scan finds a differential everywhere** exactly when one repair is enough everywhere. -/
theorem forall_holdsDifferential_repairAll_iff (hv : IsVariable variableName) (escaped : Bool) (t : Text) :
    (∀ i ∈ (scan escaped (repairAll variableName escaped t)).1, HoldsDifferential i.span) ↔
      ∀ i ∈ (scan escaped t).1, i.Repairable := by
  fun_induction scan escaped t with
  | case1 escaped t hnone =>
      have hscan := scan_of_find?_eq_none hnone
      rw [repairAll, hscan]
      simp [hscan]
  | case2 escaped t c hc _ integral more rest heq ih =>
      rw [heq] at ih
      rw [repairAll_of_find? hc rfl, List.forall_mem_cons]
      by_cases hgood : integral.Repairable
      · rw [scan_repaired_append hc rfl hv hgood (formulaSpan_repairAll _ _ (formulaSpan_rest c.after))
          fun hnil => by rw [hnil, repairAll_nil]]
        rw [List.forall_mem_cons]
        refine and_congr (iff_of_true (holdsDifferential_repairedSpan hv _) hgood) ?_
        by_cases hrest : (formulaSpan c.after).2 = []
        · rw [hrest, repairAll_nil, scan_nil]
          rw [hrest, repairAll_nil, scan_nil] at ih
          exact ih
        · have hclosed : escapedAfter escaped (c.before ++ c.source ++ (formulaSpan c.after).1) = false :=
            escapedAfter_source hc hrest
          rw [escapedAfter_repaired_of_repairable hc rfl hv hgood hrest, hclosed]
          rw [escapedAfter_source hc hrest] at ih
          exact ih
      · refine iff_of_false (fun h => ?_) fun h => hgood h.1
        obtain ⟨i, hi, hbare⟩ := exists_bare_of_not_repairable hc rfl hgood _
        exact hbare (h i hi)

end Integral

/-! ### The second repair -/

/-- **The repair leaves a text alone** when it has nothing to put in. -/
theorem ensureDifferential_eq_self_iff {variableName t : Text} :
    ensureDifferential variableName t = t ↔ ∀ i ∈ (Integral.scan false t).1, HoldsDifferential i.span := by
  constructor
  · intro h
    -- Each differential has a `d`.
    have hcount := countP_ensureDifferential variableName t (· == 'd')
    have hpos : 0 < (differential variableName).countP (· == 'd') := by simp [differential]
    rw [h] at hcount
    have hnil : bareIntegrals t = [] := by
      rcases Nat.mul_eq_zero.1 (Nat.add_eq_left.1 hcount.symm) with hlen | hzero
      · exact List.length_eq_zero_iff.1 hlen
      · omega
    intro i hi
    exact hasDifferential_iff.1 (bareIntegrals_eq_nil_iff.1 hnil i hi)
  · intro h
    exact ensureDifferential_eq_self fun i hi => hasDifferential_iff.2 (h i hi)

/-- **When the repair is complete**: in the repaired text every integral has a differential, and a second
repair changes nothing, exactly when no integral without a differential ends in a backslash, blanks
apart. -/
theorem ensureDifferential_twice_iff {variableName : Text} (hv : IsVariable variableName) (t : Text) :
    ((∀ i ∈ (Integral.scan false (ensureDifferential variableName t)).1, HoldsDifferential i.span) ↔
        ∀ i ∈ (Integral.scan false t).1, i.Repairable) ∧
      (ensureDifferential variableName (ensureDifferential variableName t) = ensureDifferential variableName t ↔
        ∀ i ∈ (Integral.scan false t).1, i.Repairable) := by
  have hscan := Integral.forall_holdsDifferential_repairAll_iff hv false t
  exact ⟨hscan, ensureDifferential_eq_self_iff.trans hscan⟩

/-- One repair is enough for an integral that ends in its integrand, and for one with a differential. -/
theorem ensureDifferential_twice_of_integrand :
    IsVariable ['x'] ∧
      ensureDifferential ['x'] (ensureDifferential ['x'] "$\\int x^2 $ y \\[\\oint f\\,dz\\ \\]".toList) =
        ensureDifferential ['x'] "$\\int x^2 $ y \\[\\oint f\\,dz\\ \\]".toList := by
  have hv : IsVariable ['x'] := .letter (by decide)
  refine ⟨hv, (ensureDifferential_twice_iff hv _).2.2 ?_⟩
  rewrite [String.toList_ofList]
  decide +kernel

/-- Behind a control space it is not: the differential starts with the second backslash of a line break, and the
second repair puts in another one. -/
theorem ensureDifferential_twice_ne_of_control_space :
    IsVariable ['x'] ∧
      (∃ i ∈ (Integral.scan false (ensureDifferential ['x'] "$\\int x\\ $".toList)).1, ¬ HoldsDifferential i.span) ∧
      ensureDifferential ['x'] (ensureDifferential ['x'] "$\\int x\\ $".toList) ≠
        ensureDifferential ['x'] "$\\int x\\ $".toList := by
  refine ⟨.letter (by decide), ?_⟩
  rewrite [String.toList_ofList]
  decide +kernel

end CribSheet
