/-
Isolating display mathematics shows the same blocks.

The scan for display regions and the reader of blocks are two scanners.  In a text without comments and
control words outside of its formulas they take the same steps: what the scan steps over is prose, and its
regions are the formulas on lines of their own.  Isolation changes blanks around and inside of the regions
only, and there the reader sees no difference.

Main definitions:

* `CribSheet.DisplayRegion.lead`, `CribSheet.DisplayRegion.alone` — the two parts of an isolated region;
* `CribSheet.DisplayRegion.arranged` — the isolated text, from what the scan has found.

Main results:

* `CribSheet.RegionStep.alike`, `CribSheet.Alike.region` — the reader takes the steps of the scan;
* `CribSheet.Scanned.alike` — what the scan has found is read like the text;
* `CribSheet.parseBlocks_isolateDisplayMath` — **isolation shows the same blocks**.
-/
import CribSheet.Proofs.Display.Alike
import CribSheet.Proofs.Math.RegionScan
import CribSheet.Proofs.Math.Writing

set_option relaxedAutoImplicit false
set_option autoImplicit false

namespace CribSheet

open CribSheet.Markup

/-! ### Isolated texts -/

namespace DisplayRegion

/-- What stands in front of an isolated region. -/
def lead (before : Text) : Text :=
  let before := before.dropEndWhile isGap
  before ++ if before = [] ∨ before.endsWith (· == '\n') then [] else ['\n']

/-- The region alone on its lines. -/
def alone (r : DisplayRegion) : Text :=
  r.opening ++ '\n' :: r.content.trim ++ '\n' :: r.closing ++ ['\n']

theorem isolated_eq (before : Text) (r : DisplayRegion) : r.isolated before = lead before ++ r.alone := by
  simp [isolated, lead, alone]

/-- What follows a region, when the regions in it are isolated. -/
def following (found : List DisplayRegion × Text) : Text :=
  found.1.flatMap (fun r => r.isolated (dropLineRest r.before)) ++ dropLineRest found.2

/-- **The isolated text**, from what the scan has found in the text. -/
def arranged : List DisplayRegion × Text → Text
  | ([], rest) => rest
  | (r :: regions, rest) => r.isolated r.before ++ following (regions, rest)

theorem arranged_cons (r : DisplayRegion) (regions : List DisplayRegion) (rest : Text) :
    arranged (r :: regions, rest) = lead r.before ++ (r.alone ++ following (regions, rest)) := by
  rw [arranged, isolated_eq, List.append_assoc]

theorem arranged_behind (x : Text) (r : DisplayRegion) (regions : List DisplayRegion) (rest : Text) :
    arranged (behind x (r :: regions, rest)) =
      lead (x ++ r.before) ++ (r.alone ++ following (regions, rest)) :=
  arranged_cons _ regions rest

theorem isolateDisplayMath_eq {t : Text} {found : List DisplayRegion × Text} (h : scan? t = some found) :
    isolateDisplayMath t = arranged found := by
  obtain ⟨regions, rest⟩ := found
  have htext := scan?_append t h
  cases regions with
  | nil =>
    rw [isolateDisplayMath, h]
    exact htext.symm
  | cons r regions =>
    rw [isolateDisplayMath, h]
    simp [arranged, following]

/-! ### What stands in front of a region -/

/-- Behind gaps only, nothing stands in front of a region. -/
theorem lead_of_gaps {before : Text} (h : before.dropEndWhile isGap = []) : lead before = [] := by
  rw [lead, h]
  rfl

theorem lead_append (x before : Text) :
    lead (x ++ before) = if before.dropEndWhile isGap = [] then lead x else x ++ lead before := by
  have hend : ∀ {b : Text}, b ≠ [] → Text.endsWith (· == '\n') (x ++ b) = Text.endsWith (· == '\n') b := by
    intro b hb
    rw [Text.endsWith, Text.endsWith, List.getLast?_append_of_ne_nil _ hb]
  unfold lead
  rw [Text.dropEndWhile_append]
  split
  · rfl
  · next hb =>
    simp only [hend hb, hb, List.append_eq_nil_iff, and_false, List.append_assoc]

/-- What stands in front of a region, by its last character: gaps are dropped, and a line break is put in
unless there is one. -/
theorem lead_concat (x : Text) (c : Char) :
    lead (x ++ [c]) = if isGap c then lead x else if c = '\n' then x ++ [c] else x ++ [c] ++ ['\n'] := by
  rw [lead_append]
  cases hc : isGap c with
  | true => simp [Text.dropEndWhile, hc]
  | false =>
    have hdrop : Text.dropEndWhile isGap [c] = [c] := by simp [Text.dropEndWhile, hc]
    rw [hdrop, if_neg (List.cons_ne_nil c []), if_neg Bool.false_ne_true]
    split
    · next hbreak =>
      subst hbreak
      rfl
    · next hbreak => simp [lead, hdrop, Text.endsWith, hbreak]

/-- Behind a visible character a line break is put in. -/
theorem lead_of_visible {x y : Text} {c : Char} (hx : x = y ++ [c]) (hc : isBlank c = false) :
    lead x = x ++ ['\n'] := by
  have hgap : isGap c = false := by
    cases hg : isGap c with
    | false => rfl
    | true => simp [isBlank_of_isGap hg] at hc
  have hbreak : c ≠ '\n' := by
    rintro rfl
    exact absurd hc (by decide)
  rw [hx, lead_concat, hgap, if_neg Bool.false_ne_true, if_neg hbreak]

theorem isBlankText_lead {x : Text} (hx : x.isBlankText = true) : Text.isBlankText (lead x) = true := by
  have hdrop : Text.isBlankText (x.dropEndWhile isGap) = true := by
    rw [← Text.dropEndWhile_append_takeEndWhile isGap x, Text.isBlankText_append, Bool.and_eq_true] at hx
    exact hx.1
  unfold lead
  rw [Text.isBlankText_append, hdrop, Bool.true_and]
  split
  · rfl
  · decide

/-- In front of what is isolated, blanks may stand that do not follow a region. -/
theorem exists_following (found : List DisplayRegion × Text) :
    ∃ x, Text.isBlankText x = true ∧ arranged found = x ++ following found := by
  obtain ⟨regions, rest⟩ := found
  cases regions with
  | nil => exact exists_dropLineRest rest
  | cons r regions =>
    obtain ⟨x, hx, hbefore⟩ := exists_dropLineRest r.before
    have hfollowing : following (r :: regions, rest) =
        lead (dropLineRest r.before) ++ (r.alone ++ following (regions, rest)) := by
      simp [following, isolated_eq]
    have harranged : arranged (r :: regions, rest) =
        lead (x ++ dropLineRest r.before) ++ (r.alone ++ following (regions, rest)) := by
      rw [← hbefore, arranged_cons]
    rw [harranged, hfollowing, lead_append]
    split
    · next hgaps => exact ⟨lead x, isBlankText_lead hx, by rw [lead_of_gaps hgaps, List.nil_append]⟩
    · exact ⟨x, hx, List.append_assoc _ _ _⟩

end DisplayRegion

/-! ### Reading steps -/

section Steps

variable {read : Reader} {opening closing : Text}

theorem InlineFence.closing_mem (hf : InlineFence opening closing) : closing ∈ [['$'], ['\\', ')']] := by
  rcases hf with ⟨-, rfl⟩ | ⟨-, rfl⟩ <;> simp

theorem InlineFence.escapedAfter_opening (hf : InlineFence opening closing) :
    escapedAfter false opening = false := by
  rcases hf with ⟨rfl, -⟩ | ⟨rfl, -⟩ <;> rfl

theorem InlineFence.escapedAfter_closing (hf : InlineFence opening closing) :
    escapedAfter false closing = false := by
  rcases hf with ⟨-, rfl⟩ | ⟨-, rfl⟩ <;> rfl

/-- The reader looks for the closing delimiter of a formula in a line, unless a second dollar follows. -/
theorem InlineFence.read_eq (hf : InlineFence opening closing) :
    ∃ c tail, opening = c :: tail ∧ isBlank c = false ∧
      ∀ blank v, (∀ d ∈ v.head?, opening = ['$'] → d ≠ '$') →
        Reading.read blank c (tail ++ v) = Reading.ofFormula false opening closing v := by
  rcases hf with ⟨rfl, rfl⟩ | ⟨rfl, rfl⟩
  · refine ⟨'$', [], rfl, by decide, fun blank v hv => ?_⟩
    rw [List.nil_append, Reading.read_dollar blank fun d hd => hv d hd rfl]
  · exact ⟨'\\', ['('], rfl, by decide, fun blank v _ => Reading.read_paren blank v⟩

/-- Behind a delimiter that never closes there is no second dollar. -/
theorem InlineFence.head?_of_stray (hf : InlineFence opening closing) {t : Text}
    (h : findUnescaped? closing t = none) : ∀ d ∈ t.head?, opening = ['$'] → d ≠ '$' := by
  rintro d hd ho rfl
  rcases hf with ⟨-, rfl⟩ | ⟨rfl, -⟩
  · have hprefix : [] ++ ['$'] <+: t := ⟨t.tail, (List.eq_cons_of_mem_head? hd).symm⟩
    have hescaped := (findUnescaped?_eq_none_iff (List.cons_ne_nil _ _) t).1 h [] hprefix
    simp at hescaped
  · simp at ho

/-- **The reader takes the steps of the scan.** -/
theorem RegionStep.alike {x t u : Text} (hs : RegionStep x t) (h : Alike read t u) : Alike read (x ++ t) (x ++ u) := by
  cases hs with
  | @char c _ hc =>
    by_cases hbreak : c = '\n'
    · subst hbreak
      exact h.lineBreak
    · exact h.char (by simpa [hbreak] using hc)
  | @pair d _ hletter hd =>
    exact h.prose (c := '\\') (x := [d]) (by decide) (escapedAfter_pair d []) fun v _ blank =>
      read_pair hletter hd blank v
  | @formula _ closing inner _ hf hclosed hhead =>
    obtain ⟨c, tail, rfl, hc, hread⟩ := hf.read_eq
    have hfresh : escapedAfter false (c :: tail ++ inner ++ closing) = false := by
      rw [escapedAfter_append, escapedAfter_append, hf.escapedAfter_opening, hclosed.fresh,
        hf.escapedAfter_closing]
    have hclosing : closing ≠ [] := (whole_of_mem hf.closing_mem).ne_nil
    refine h.prose hc hfresh fun v _ blank => ?_
    have hv : ∀ d ∈ (inner ++ closing ++ v).head?, c :: tail = ['$'] → d ≠ '$' := by
      rwa [List.head?_append_of_ne_nil _ (by simp [hclosing])]
    have hfind := hclosed.findUnescaped? hclosing v
    have hlook := hread blank _ hv
    rw [Reading.ofFormula, hfind] at hlook
    simpa using hlook
  | @stray _ closing _ hf hnone =>
    obtain ⟨c, tail, rfl, hc, hread⟩ := hf.read_eq
    refine h.prose hc hf.escapedAfter_opening fun v hv blank => ?_
    have hnone : findUnescaped? closing v = none := by
      rcases hv with rfl | rfl
      · exact hnone
      · exact h.finds closing hf.closing_mem hnone
    rw [hread blank v (hf.head?_of_stray hnone), Reading.ofFormula, hnone]

/-! ### In front of a region -/

/-- Delimiters of formulas in a line end with a visible character. -/
theorem InlineFence.exists_concat (hf : InlineFence opening closing) :
    (∃ y c, opening = y ++ [c] ∧ isBlank c = false) ∧ ∃ y c, closing = y ++ [c] ∧ isBlank c = false := by
  rcases hf with ⟨rfl, rfl⟩ | ⟨rfl, rfl⟩
  · exact ⟨⟨[], '$', rfl, by decide⟩, [], '$', rfl, by decide⟩
  · exact ⟨⟨['\\'], '(', rfl, by decide⟩, ['\\'], ')', rfl, by decide⟩

/-- **What stands in front of a region is read alike** when it is isolated. -/
theorem RegionStep.alike_lead {x t u : Text} (hs : RegionStep x t) (h : Alike read t u) (hu : Closes read u) :
    Alike read (x ++ t) (DisplayRegion.lead x ++ u) := by
  have hsame : Alike read (x ++ t) (x ++ u) := hs.alike h
  have hbroken : Alike read (x ++ t) (x ++ ['\n'] ++ u) := by
    rw [List.append_assoc]
    exact hs.alike (h.insertBreak hu)
  cases hs with
  | @char c _ hc =>
    have hlead := DisplayRegion.lead_concat [] c
    rw [List.nil_append] at hlead
    rw [hlead]
    split
    · next hgap => exact h.dropBlank (isBlank_of_isGap hgap) hu
    · split
      · exact hsame
      · exact hbroken
  | @pair d _ hletter hd =>
    have hlead := DisplayRegion.lead_concat ['\\'] d
    rw [List.singleton_append] at hlead
    rw [hlead]
    split
    · next hgap => exact h.escapedBlank (isBlank_of_isGap hgap) hu
    · split
      · exact hsame
      · exact hbroken
  | @formula opening _ inner _ hf hclosed hhead =>
    obtain ⟨-, y, c, rfl, hc⟩ := hf.exists_concat
    rwa [DisplayRegion.lead_of_visible (List.append_assoc _ y [c]).symm hc]
  | @stray _ _ _ hf hnone =>
    obtain ⟨⟨y, c, rfl, hc⟩, -⟩ := hf.exists_concat
    rwa [DisplayRegion.lead_of_visible rfl hc]

end Steps

/-! ### Reading regions -/

section Regions

variable {read : Reader} {r : DisplayRegion}

theorem DisplayRegion.Fenced.escapedAfter_closing (hr : r.Fenced) : escapedAfter false r.closing = false := by
  rcases hr with ⟨-, hc⟩ | ⟨-, hc⟩ <;> rw [hc] <;> rfl

theorem DisplayRegion.Fenced.closing_ne_nil (hr : r.Fenced) : r.closing ≠ [] := by
  rcases hr with ⟨-, hc⟩ | ⟨-, hc⟩ <;> rw [hc] <;> exact List.cons_ne_nil _ _

theorem DisplayRegion.Fenced.newline_not_mem_closing (hr : r.Fenced) : '\n' ∉ r.closing := by
  rcases hr with ⟨-, hc⟩ | ⟨-, hc⟩ <;> rw [hc] <;> decide

/-- Behind a region the line is not blank. -/
theorem DisplayRegion.Fenced.blankLineAfter_eq (hr : r.Fenced) (x : Text) (blank : Bool) :
    Text.blankLineAfter blank (x ++ r.closing) = false := by
  rw [Text.blankLineAfter_append]
  rcases hr with ⟨-, hc⟩ | ⟨-, hc⟩ <;> rw [hc] <;> cases Text.blankLineAfter blank x <;> rfl

/-- **The reader takes a display region as a formula on lines of its own.** -/
theorem DisplayRegion.Fenced.read_eq (hr : r.Fenced) {body : Text} (hbody : ClosedBy r.closing body) :
    ∃ c tail, r.opening = c :: tail ∧
      ∀ blank v, Reading.read blank c (tail ++ body ++ r.closing ++ v) =
        ⟨r.opening ++ body ++ r.closing, .math body, v⟩ := by
  have hlook : ∀ v, Reading.ofFormula true r.opening r.closing (body ++ r.closing ++ v) =
      ⟨r.opening ++ body ++ r.closing, .math body, v⟩ := by
    intro v
    rw [Reading.ofFormula, hbody.findUnescaped? hr.closing_ne_nil]
    rfl
  rcases hr with ⟨ho, hc⟩ | ⟨ho, hc⟩
  · refine ⟨'\\', ['['], ho, fun blank v => ?_⟩
    rw [← hlook, ho, hc, List.append_assoc, List.append_assoc, List.singleton_append, Reading.read_bracket,
      List.append_assoc]
  · refine ⟨'$', ['$'], ho, fun blank v => ?_⟩
    rw [← hlook, ho, hc, List.append_assoc, List.append_assoc, List.singleton_append, Reading.read_dollars,
      List.append_assoc]

/-- The blocks of a text with a region in front. -/
theorem blocksBehind_region (hr : r.Fenced) {body : Text} (hbody : ClosedBy r.closing body) (blank : Bool)
    (w v : Text) (seen : Nat) :
    blocksBehind read blank w (r.opening ++ body ++ r.closing ++ v) seen =
      let next := blocksBehind read false [] v seen
      ((paragraph? w).toList ++ .math body.trim :: next.1, next.2) := by
  obtain ⟨c, tail, ho, hread⟩ := hr.read_eq hbody
  have hsource : r.opening ++ body ++ r.closing ++ v = c :: (tail ++ body ++ r.closing ++ v) := by
    simp [ho]
  rw [hsource, blocksBehind_math (hread blank v), hr.blankLineAfter_eq, blocksBehind_of_blank rfl]

/-- Paragraphs end in front of a region. -/
theorem closes_region (hr : r.Fenced) {body : Text} (hbody : ClosedBy r.closing body) (v : Text) :
    Closes read (r.opening ++ body ++ r.closing ++ v) := by
  intro blank w seen
  rw [blocksBehind_region hr hbody, blocksBehind_region hr hbody, paragraph?_nil]
  rfl

/-- A delimiter of formulas in a line occurs in a region or behind it. -/
theorem findUnescaped?_region_eq_none_iff (hr : r.Fenced) {body : Text} (hbody : ClosedBy r.closing body)
    {delimiter : Text} (hd : Whole delimiter) (v : Text) :
    findUnescaped? delimiter (r.opening ++ body ++ r.closing ++ v) = none ↔
      ((findUnescaped? delimiter r.opening = none ∧ findUnescaped? delimiter body = none) ∧
        findUnescaped? delimiter r.closing = none) ∧ findUnescaped? delimiter v = none := by
  have hopening := hr.escapedAfter_opening false
  have hcontent : escapedAfter false (r.opening ++ body) = false := by
    rw [escapedAfter_append, hopening, hbody.fresh]
  have hclosing : escapedAfter false (r.opening ++ body ++ r.closing) = false := by
    rw [escapedAfter_append, hcontent, hr.escapedAfter_closing]
  rw [findUnescaped?_append_eq_none_iff hd hclosing, findUnescaped?_append_eq_none_iff hd hcontent,
    findUnescaped?_append_eq_none_iff hd hopening]

/-- The region alone on its lines is a region with other blanks in it. -/
theorem DisplayRegion.alone_append (v : Text) :
    r.alone ++ v = r.opening ++ '\n' :: (r.content.trim ++ ['\n']) ++ r.closing ++ '\n' :: v := by
  simp [DisplayRegion.alone]

/-- Behind a region, blanks make no difference. -/
theorem Alike.blocksBehind_nil {t v x : Text} (hx : x.isBlankText = true) (h : Alike read t (x ++ v))
    (seen : Nat) : blocksBehind read false [] t seen = blocksBehind read false [] ('\n' :: v) seen := by
  rw [h.reads false true, blocksBehind_nil_break, blocksBehind_of_blank rfl, blocksBehind_of_blank rfl,
    readPieces_blank_append read hx]

/-- **A display region may be isolated**, and the blanks behind it may change. -/
theorem Alike.region (hr : r.Fenced) (hbefore : r.before = []) (hclosed : ClosedBy r.closing r.content)
    {t v x : Text} (hx : x.isBlankText = true) (h : Alike read t (x ++ v)) :
    Alike read (r.source ++ t) (r.alone ++ v) ∧ Closes read (r.alone ++ v) := by
  have htrim := hclosed.trim hr.newline_not_mem_closing hr.closing_ne_nil
  have hbody : Text.trim ('\n' :: (r.content.trim ++ ['\n'])) = r.content.trim := by
    have hblank : Text.isBlankText ['\n'] = true := by decide
    rw [← List.singleton_append, trim_blank_append hblank, trim_append_blank hblank, trim_trim]
  have hcloses : Closes read (r.alone ++ v) := by
    rw [DisplayRegion.alone_append]
    exact closes_region hr htrim ('\n' :: v)
  refine ⟨⟨fun blank blank' w seen => ?_, Or.inr hcloses, fun closing hclosing hfind => ?_⟩, hcloses⟩
  · rw [DisplayRegion.source, hbefore, List.nil_append, DisplayRegion.alone_append,
      blocksBehind_region hr hclosed, blocksBehind_region hr htrim, hbody, h.blocksBehind_nil hx]
  · have hwhole := whole_of_mem hclosing
    have hbreak : '\n' ∉ closing := by
      simp only [List.mem_cons, List.not_mem_nil, or_false] at hclosing
      rcases hclosing with rfl | rfl <;> decide
    rw [DisplayRegion.source, hbefore, List.nil_append,
      findUnescaped?_region_eq_none_iff hr hclosed hwhole] at hfind
    obtain ⟨⟨⟨hopening, hcontent⟩, hend⟩, ht⟩ := hfind
    have hcontent := Alike.finds_break hclosing (findUnescaped?_trim_eq_none hbreak hwhole.ne_nil hcontent)
    have hv := (findUnescaped?_append_eq_none_iff hwhole (escapedAfter_blank hx) v).1
      (h.finds closing hclosing ht)
    rw [DisplayRegion.alone_append, findUnescaped?_region_eq_none_iff hr htrim hwhole]
    exact ⟨⟨⟨hopening, hcontent⟩, hend⟩, Alike.finds_break hclosing hv.2⟩

end Regions

/-! ### Scanned texts -/

section Texts

variable {read : Reader}

theorem Alike.nil : Alike read [] [] :=
  ⟨fun _ _ _ _ => by simp [blocksBehind, pieces], Or.inl rfl, fun _ _ h => h⟩

/-- A backslash at the end. -/
theorem Alike.slash : Alike read ['\\'] ['\\'] := by
  refine ⟨fun blank blank' w seen => ?_, Or.inl rfl, fun _ _ h => h⟩
  have hread : ∀ blank, Reading.read blank '\\' [] = ⟨['\\'], .prose ['\\'], []⟩ := fun _ => by
    rw [Reading.read.eq_def, if_pos rfl]
  rw [blocksBehind_prose (hread blank), blocksBehind_prose (hread blank')]
  exact Alike.nil.reads _ _ _ _

/-- **What the scan has found is read like the text.**  Where nothing but gaps stands in front of the first
region, paragraphs end. -/
theorem Scanned.alike {t : Text} {found : List DisplayRegion × Text} (h : Scanned t found) :
    Alike read t (DisplayRegion.arranged found) ∧
      ∀ r ∈ found.1.head?, r.before.dropEndWhile isGap = [] → Closes read (DisplayRegion.arranged found) := by
  induction h with
  | nil => exact ⟨Alike.nil, by simp⟩
  | slash => exact ⟨Alike.slash, by simp⟩
  | @step x t found hs _ ih =>
    obtain ⟨regions, rest⟩ := found
    cases regions with
    | nil => exact ⟨hs.alike ih.1, by simp [DisplayRegion.behind]⟩
    | cons r regions =>
      obtain ⟨halike, hcloses⟩ := ih
      have hcloses := hcloses r rfl
      rw [DisplayRegion.arranged_cons] at halike hcloses
      rw [DisplayRegion.arranged_behind, DisplayRegion.lead_append]
      by_cases hgaps : r.before.dropEndWhile isGap = []
      · -- the region follows what is stepped over, behind gaps
        have hcloses := hcloses hgaps
        rw [DisplayRegion.lead_of_gaps hgaps, List.nil_append] at halike hcloses
        rw [if_pos hgaps]
        refine ⟨hs.alike_lead halike hcloses, fun r' hr' hnone => ?_⟩
        obtain rfl := Option.some.inj hr'
        rw [Text.dropEndWhile_append, if_pos hgaps] at hnone
        rwa [DisplayRegion.lead_of_gaps hnone]
      · -- something else stands between them
        rw [if_neg hgaps, List.append_assoc]
        refine ⟨hs.alike halike, fun r' hr' hnone => ?_⟩
        obtain rfl := Option.some.inj hr'
        rw [Text.dropEndWhile_append, if_neg hgaps, List.append_eq_nil_iff] at hnone
        exact absurd hnone.2 hgaps
  | @region r t found hr hbefore hclosed _ ih =>
    obtain ⟨x, hx, harranged⟩ := DisplayRegion.exists_following found
    obtain ⟨halike, hcloses⟩ := (harranged ▸ ih.1).region hr hbefore hclosed hx
    have hisolated : DisplayRegion.arranged (DisplayRegion.cons r found) =
        r.alone ++ DisplayRegion.following found := by
      rw [DisplayRegion.cons, DisplayRegion.arranged_cons, hbefore]
      rfl
    rw [hisolated]
    exact ⟨halike, fun _ _ _ => hcloses⟩

end Texts

/-- **Isolating display mathematics shows the same blocks.** -/
theorem parseBlocks_isolateDisplayMath {t : Text} (hw : wordless t = true) (seen : Nat) :
    parseBlocks (isolateDisplayMath t) seen = parseBlocks t seen := by
  cases hscan : DisplayRegion.scan? t with
  | none => rw [isolateDisplayMath, hscan]
  | some found =>
    have halike : Alike parseBlocks t (DisplayRegion.arranged found) := (scanned_of_scan? t hw hscan).alike.1
    have hreads := halike.reads true true [] seen
    rw [blocksBehind_of_blank rfl, blocksBehind_of_blank rfl] at hreads
    rw [DisplayRegion.isolateDisplayMath_eq hscan, parseBlocks_eq, parseBlocks_eq]
    exact hreads.symm

theorem parseBlocks_isolateDisplayMath_of_escapes :
    let t := "The area $a \\cdot b$, 50\\,m:\\ \\[ \\int f \\] or $$ x % y $$, so $5".toList
    wordless t = true ∧ ∀ seen, parseBlocks (isolateDisplayMath t) seen = parseBlocks t seen := by
  intro t
  have hw : wordless t = true := by decide +kernel
  exact ⟨hw, parseBlocks_isolateDisplayMath hw⟩

end CribSheet
