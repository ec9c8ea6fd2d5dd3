/-
Scanning isolated display mathematics again.

Isolation writes line breaks and takes blanks away, next to backslashes and dollars that mean something
together with the character behind them.  Still a scan of the isolated text takes the steps of the first
scan: what it passed over it passes over again, shortened by the gaps in front of a region, and it finds
the same regions with line breaks around their trimmed contents.

Main definitions:

* `CribSheet.Passed` — what the scan for display regions passes over;
* `CribSheet.DisplayRegion.foundAgain` — what a scan finds in the isolated text;
* `CribSheet.DisplayRegion.shown` — the delimiters of a region and its trimmed content;
* `CribSheet.DisplayRegion.OnOwnLines` — delimiters with nothing beside them on their lines.

Main results:

* `CribSheet.DisplayRegion.scan_induction` — the induction along a scan;
* `CribSheet.DisplayRegion.scan?_arranged` — **what a scan finds in the isolated text**;
* `CribSheet.isolateDisplayMath_settles` — isolating twice is isolating once, and shows the same regions;
* `CribSheet.isolateDisplayMath_moves_blanks` — only blanks change, and each delimiter has its own line.
-/
import CribSheet.Proofs.Display.IsolatedMath

set_option relaxedAutoImplicit false
set_option autoImplicit false

namespace CribSheet

open CribSheet.Text CribSheet.Markup

/-! ### What the scan passes over -/

/-- **The scan for display regions passes over the text in front of another one**: a character, an escaped
character, a formula in a line, or a delimiter of a formula that never closes. -/
inductive Passed : Text → Text → Prop
  /-- A character that starts nothing. -/
  | char {c : Char} {t : Text} : c ∉ ['\\', '$'] → Passed [c] t
  /-- An escaped character. -/
  | pair {d : Char} {t : Text} : d ∉ ['[', '('] → Passed ['\\', d] t
  /-- A formula in a line; two dollars would start a display region. -/
  | formula {opening closing inner t : Text} : InlineFence opening closing → ClosedBy closing inner →
      (∀ c ∈ (inner ++ closing).head?, opening = ['$'] → c ≠ '$') → Passed (opening ++ inner ++ closing) t
  /-- A delimiter of a formula that never closes. -/
  | stray {opening closing t : Text} : InlineFence opening closing → findUnescaped? closing t = none →
      Passed opening t

/-- The delimiters that close formulas in a line are missing from the second text where they are missing
from the first one. -/
def KeepsStrays (t u : Text) : Prop :=
  ∀ closing ∈ [['$'], ['\\', ')']], findUnescaped? closing t = none → findUnescaped? closing u = none

namespace DisplayRegion

theorem behind_nil : behind [] = id := by
  funext ⟨regions, rest⟩
  cases regions <;> rfl

theorem behind_comp_behind (x y : Text) : behind x ∘ behind y = behind (x ++ y) := by
  funext ⟨regions, rest⟩
  cases regions <;> simp [behind]

/-- The scan of a text that begins with a region. -/
theorem scan?_region {r : DisplayRegion} (hr : r.Fenced) {body : Text} (hbody : ClosedBy r.closing body)
    (v : Text) :
    scan? (r.opening ++ body ++ r.closing ++ v) =
      (scan? v).map (cons ⟨[], r.opening, body, r.closing⟩) := by
  have hfind := hbody.findUnescaped? hr.closing_ne_nil v
  rcases hr with ⟨ho, hc⟩ | ⟨ho, hc⟩
  all_goals
    rw [hc, List.append_assoc] at hfind
    rw [ho, hc, scan?.eq_def]
    simp only [List.cons_append, List.nil_append, List.append_assoc, Char.reduceEq, if_true, if_false]
    split
    · next content rest heq =>
      obtain ⟨rfl, rfl⟩ := Prod.mk.inj (Option.some.inj (heq.symm.trans hfind))
      rfl
    · next heq => exact absurd (heq.symm.trans hfind) (by simp)

/-- The scan of a text that begins with the delimiter of a formula in a line. -/
theorem scan?_inline {opening closing : Text} (hf : InlineFence opening closing) {t : Text}
    (hhead : ∀ c ∈ t.head?, opening = ['$'] → c ≠ '$') :
    scan? (opening ++ t) =
      match findUnescaped? closing t with
      | some (inner, rest) => (scan? rest).map (behind (opening ++ inner ++ closing))
      | none => (scan? t).map (behind opening) := by
  rcases hf with ⟨rfl, rfl⟩ | ⟨rfl, rfl⟩
  · rw [List.singleton_append, scan?.eq_def]
    simp only [Char.reduceEq, if_true, if_false]
    split
    · exact absurd rfl (hhead '$' rfl rfl)
    · split <;> simp [*]
  · rw [List.cons_append, List.singleton_append, scan?.eq_def]
    simp only [Char.reduceEq, if_true, if_false]
    split <;> simp [*]

end DisplayRegion

namespace Passed

open DisplayRegion

variable {x t u : Text}

/-- What follows may change, if no delimiter comes in that a stray one was waiting for. -/
theorem of_keepsStrays (h : Passed x t) (hu : KeepsStrays t u) : Passed x u := by
  cases h with
  | char hc => exact .char hc
  | pair hd => exact .pair hd
  | formula hf hclosed hhead => exact .formula hf hclosed hhead
  | stray hf hnone => exact .stray hf (hu _ hf.closing_mem hnone)

/-- No escape is open behind what is passed over. -/
theorem fresh (h : Passed x t) : escapedAfter false x = false := by
  cases h with
  | char hc => exact escapedAfter_cons_of_ne (by simpa using fun h => hc (by simp [h])) false []
  | pair hd => exact escapedAfter_pair _ []
  | formula hf hclosed _ =>
    rw [escapedAfter_append, escapedAfter_append, hf.escapedAfter_opening, hclosed.fresh,
      hf.escapedAfter_closing]
  | stray hf _ => exact hf.escapedAfter_opening

/-- **The scan goes on behind what it passes over.** -/
theorem scan?_append (h : Passed x t) : scan? (x ++ t) = (scan? t).map (behind x) := by
  cases h with
  | @char c _ hc =>
    obtain ⟨hslash, hdollar⟩ : c ≠ '\\' ∧ c ≠ '$' := by simpa using hc
    rw [List.singleton_append, scan?.eq_def]
    simp [hslash, hdollar]
  | @pair d _ hd =>
    obtain ⟨hbracket, hparen⟩ : d ≠ '[' ∧ d ≠ '(' := by simpa using hd
    rw [List.cons_append, List.singleton_append, scan?.eq_def]
    simp [hbracket, hparen]
  | @formula opening closing inner _ hf hclosed hhead =>
    have hclosing : closing ≠ [] := (whole_of_mem hf.closing_mem).ne_nil
    have hv : ∀ c ∈ (inner ++ closing ++ t).head?, opening = ['$'] → c ≠ '$' := by
      rwa [List.head?_append_of_ne_nil _ (by simp [hclosing])]
    rw [List.append_assoc, List.append_assoc, ← List.append_assoc inner, scan?_inline hf hv,
      hclosed.findUnescaped? hclosing]
  | stray hf hnone => rw [scan?_inline hf (hf.head?_of_stray hnone), hnone]

/-- Blanks are passed over. -/
theorem scan?_blank_append (hx : isBlankText x = true) (t : Text) :
    scan? (x ++ t) = (scan? t).map (behind x) := by
  induction x with
  | nil => simp [behind_nil]
  | cons c x ih =>
    obtain ⟨hc, hx⟩ : isBlank c = true ∧ isBlankText x = true := by simpa [isBlankText] using hx
    have hchar : c ∉ ['\\', '$'] := by
      simp only [List.mem_cons, List.not_mem_nil, or_false]
      rintro (rfl | rfl) <;> exact absurd hc (by decide)
    have hstep := scan?_append (Passed.char (t := x ++ t) hchar)
    rw [List.cons_append, ← List.singleton_append, hstep, ih hx, Option.map_map, behind_comp_behind,
      List.singleton_append]

/-- **In front of a region the scan passes over the same steps**, without gaps at the end of the line and
with a line break. -/
theorem scan?_lead (h : Passed x t) (hu : KeepsStrays t u) :
    scan? (lead x ++ u) = (scan? u).map (behind (lead x)) := by
  have hbreak : ∀ {y : Text}, Passed y ('\n' :: u) →
      scan? (y ++ ['\n'] ++ u) = (scan? u).map (behind (y ++ ['\n'])) := by
    intro y hy
    have hline := scan?_blank_append (x := ['\n']) (by decide) u
    rw [List.append_assoc, List.singleton_append, hy.scan?_append, ← List.singleton_append, hline,
      Option.map_map, behind_comp_behind]
  have hbroken : Passed x ('\n' :: u) :=
    h.of_keepsStrays fun closing hclosing hnone => Alike.finds_break hclosing (hu closing hclosing hnone)
  have hsame : Passed x u := h.of_keepsStrays hu
  cases h with
  | @char c _ hc =>
    have hlead := lead_concat [] c
    rw [List.nil_append] at hlead
    rw [hlead]
    split
    · simp [lead, dropEndWhile, behind_nil]
    · split
      · exact hsame.scan?_append
      · exact hbreak hbroken
  | @pair d _ hd =>
    have hlead := lead_concat ['\\'] d
    rw [List.singleton_append] at hlead
    rw [hlead]
    split
    · exact (Passed.pair (d := '\n') (by decide)).scan?_append
    · split
      · exact hsame.scan?_append
      · exact hbreak hbroken
  | @formula _ _ inner _ hf hclosed hhead =>
    obtain ⟨-, y, c, rfl, hc⟩ := hf.exists_concat
    rw [lead_of_visible (List.append_assoc _ y [c]).symm hc]
    exact hbreak hbroken
  | stray hf hnone =>
    obtain ⟨⟨y, c, rfl, hc⟩, -⟩ := hf.exists_concat
    rw [lead_of_visible rfl hc]
    exact hbreak hbroken

end Passed

namespace DisplayRegion

/-! ### Induction along a scan -/

/-- **The induction along a scan**: it comes to the end of the text, passes over something, or finds a
region. -/
theorem scan_induction {motive : Text → List DisplayRegion × Text → Prop}
    (nil : motive [] ([], [])) (slash : motive ['\\'] ([], ['\\']))
    (step : ∀ {x t found}, Passed x t → scan? t = some found → motive t found →
      motive (x ++ t) (behind x found))
    (region : ∀ {r : DisplayRegion} {t found}, r.Fenced → r.before = [] → ClosedBy r.closing r.content →
      scan? t = some found → motive t found → motive (r.source ++ t) (cons r found))
    {t : Text} {found : List DisplayRegion × Text} (h : scan? t = some found) : motive t found := by
  have hregion : ∀ {r : DisplayRegion} {t rest : Text} {found}, r.Fenced → r.before = [] →
      findUnescaped? r.closing t = some (r.content, rest) → scan? rest = some found →
      motive rest found → motive (r.opening ++ t) (cons r found) := by
    intro r t rest found hr hbefore hfind hscan hrest
    have hfound := region hr hbefore (closedBy_of_findUnescaped? hfind) hscan hrest
    rwa [source, hbefore, List.nil_append, List.append_assoc, List.append_assoc,
      ← List.append_assoc r.content, ← findUnescaped?_eq_append _ hfind] at hfound
  have hformula : ∀ {opening closing t inner rest : Text} {found}, InlineFence opening closing →
      (∀ c ∈ t.head?, opening = ['$'] → c ≠ '$') → findUnescaped? closing t = some (inner, rest) →
      scan? rest = some found → motive rest found →
      motive (opening ++ t) (behind (opening ++ inner ++ closing) found) := by
    intro opening closing t inner rest found hf hhead hfind hscan hrest
    have ht := findUnescaped?_eq_append _ hfind
    have hne : inner ++ closing ≠ [] := by simp [(whole_of_mem hf.closing_mem).ne_nil]
    rw [ht, List.head?_append_of_ne_nil _ hne] at hhead
    have hpassed := step (.formula hf (closedBy_of_findUnescaped? hfind) hhead) hscan hrest
    rw [ht]
    simpa using hpassed
  fun_induction scan? t generalizing found with
  | case1 =>
    obtain rfl := Option.some.inj h
    exact nil
  | case2 =>
    obtain rfl := Option.some.inj h
    exact slash
  | case3 t content rest hfind _ ih =>
    obtain ⟨found, hf, rfl⟩ := Option.map_eq_some_iff.1 h
    exact hregion (r := ⟨[], ['\\', '['], content, ['\\', ']']⟩) (Or.inl ⟨rfl, rfl⟩) rfl hfind hf (ih hf)
  | case4 | case9 => simp at h
  | case5 t inner rest hfind _ _ ih =>
    obtain ⟨found, hf, rfl⟩ := Option.map_eq_some_iff.1 h
    have hfence : InlineFence ['\\', '('] ['\\', ')'] := Or.inr ⟨rfl, rfl⟩
    exact hformula hfence (by simp) hfind hf (ih hf)
  | case6 t hfind _ ih =>
    obtain ⟨found, hf, rfl⟩ := Option.map_eq_some_iff.1 h
    exact step (.stray (Or.inr ⟨rfl, rfl⟩) hfind) hf (ih hf)
  | case7 d t hbracket hparen ih =>
    obtain ⟨found, hf, rfl⟩ := Option.map_eq_some_iff.1 h
    exact step (.pair (by simp [hbracket, hparen])) hf (ih hf)
  | case8 t content rest hfind _ _ ih =>
    obtain ⟨found, hf, rfl⟩ := Option.map_eq_some_iff.1 h
    exact hregion (r := ⟨[], ['$', '$'], content, ['$', '$']⟩) (Or.inr ⟨rfl, rfl⟩) rfl hfind hf (ih hf)
  | case10 t hhead inner rest hfind _ _ ih =>
    obtain ⟨found, hf, rfl⟩ := Option.map_eq_some_iff.1 h
    have hhead : ∀ c ∈ t.head?, ['$'] = ['$'] → c ≠ '$' := fun c hc _ he =>
      hhead t.tail (he ▸ List.eq_cons_of_mem_head? hc)
    have hfence : InlineFence ['$'] ['$'] := Or.inl ⟨rfl, rfl⟩
    exact hformula hfence hhead hfind hf (ih hf)
  | case11 t hhead hfind _ ih =>
    obtain ⟨found, hf, rfl⟩ := Option.map_eq_some_iff.1 h
    exact step (.stray (Or.inl ⟨rfl, rfl⟩) hfind) hf (ih hf)
  | case12 c t hslash hdollar ih =>
    obtain ⟨found, hf, rfl⟩ := Option.map_eq_some_iff.1 h
    exact step (.char (by simp [hslash, hdollar])) hf (ih hf)

/-! ### Stray delimiters -/

/-- What stands in front of a region ends a line, unless it is empty. -/
theorem lead_eq_nil_or_concat (before : Text) : lead before = [] ∨ ∃ x, lead before = x ++ ['\n'] := by
  rw [lead]
  split
  · next h =>
    rw [List.append_nil]
    refine h.imp_right fun hbreak => ?_
    obtain ⟨c, hc, hbreak⟩ := (Option.any_eq_true _ _).1 hbreak
    exact List.getLast?_eq_some_iff.1 (hc.trans (congrArg some (eq_of_beq hbreak)))
  · exact Or.inr ⟨_, rfl⟩

theorem escapedAfter_lead (before : Text) : escapedAfter false (lead before) = false := by
  rcases lead_eq_nil_or_concat before with h | ⟨x, h⟩
  · rw [h]
    rfl
  · rw [h]
    exact escapedAfter_concat (by decide) false x

/-- The end of a line uncovers no delimiter. -/
theorem findUnescaped?_lead_eq_none {delimiter x : Text} (hn : '\n' ∉ delimiter) (hd : delimiter ≠ [])
    (h : findUnescaped? delimiter x = none) : findUnescaped? delimiter (lead x) = none := by
  rw [findUnescaped?_eq_none_iff hd] at h ⊢
  intro a ha
  refine h a (List.IsPrefix.trans ?_ (dropEndWhile_isPrefix isGap x))
  rw [lead] at ha
  split at ha
  · rwa [List.append_nil] at ha
  · refine prefix_of_prefix_append_break hn ha ?_
    have hle := ha.length_le
    have hpos := List.length_pos_iff.2 hd
    simp only [List.length_append, List.length_singleton] at hle
    omega

theorem newline_not_mem_closing {closing : Text} (h : closing ∈ [['$'], ['\\', ')']]) : '\n' ∉ closing := by
  simp only [List.mem_cons, List.not_mem_nil, or_false] at h
  rcases h with rfl | rfl <;> decide

/-- What follows a region. -/
theorem keepsStrays_alone {r : DisplayRegion} (hr : r.Fenced) (hbefore : r.before = [])
    (hclosed : ClosedBy r.closing r.content) {t u : Text} (hu : KeepsStrays t u) :
    KeepsStrays (r.source ++ t) (r.alone ++ u) := by
  intro closing hclosing hnone
  have hwhole := whole_of_mem hclosing
  have hbreak := newline_not_mem_closing hclosing
  have htrim := hclosed.trim hr.newline_not_mem_closing hr.closing_ne_nil
  rw [source, hbefore, List.nil_append, findUnescaped?_region_eq_none_iff hr hclosed hwhole] at hnone
  obtain ⟨⟨⟨hopening, hcontent⟩, hend⟩, ht⟩ := hnone
  rw [alone_append, findUnescaped?_region_eq_none_iff hr htrim hwhole]
  refine ⟨⟨⟨hopening, ?_⟩, hend⟩, Alike.finds_break hclosing (hu closing hclosing ht)⟩
  exact Alike.finds_break hclosing (findUnescaped?_trim_eq_none hbreak hwhole.ne_nil hcontent)

/-! ### The isolated text -/

/-- The region as it is found again, behind `lead`. -/
def again (lead : Text) (r : DisplayRegion) : DisplayRegion :=
  ⟨lead, r.opening, '\n' :: (r.content.trim ++ ['\n']), r.closing⟩

/-- What a scan finds in the isolated text behind a region. -/
def foundBehind (found : List DisplayRegion × Text) : List DisplayRegion × Text :=
  (found.1.map fun r => again ('\n' :: lead (dropLineRest r.before)) r, '\n' :: dropLineRest found.2)

/-- **What a scan finds in the isolated text**, from what it has found in the text. -/
def foundAgain : List DisplayRegion × Text → List DisplayRegion × Text
  | ([], rest) => ([], rest)
  | (r :: regions, rest) => cons (again (lead r.before) r) (foundBehind (regions, rest))

/-- The scan of a text that begins with an isolated region. -/
theorem scan?_alone {r : DisplayRegion} (hr : r.Fenced) (hclosed : ClosedBy r.closing r.content) (v : Text) :
    scan? (r.alone ++ v) = (scan? ('\n' :: v)).map (cons (again [] r)) := by
  rw [alone_append, scan?_region hr (hclosed.trim hr.newline_not_mem_closing hr.closing_ne_nil)]
  rfl

/-- What is found behind an isolated region, from what is found without it. -/
theorem scan?_following {found : List DisplayRegion × Text}
    (h : scan? (arranged found) = some (foundAgain found)) :
    scan? ('\n' :: following found) = some (foundBehind found) := by
  obtain ⟨x, hx, harranged⟩ := exists_following found
  rw [harranged, Passed.scan?_blank_append hx] at h
  obtain ⟨⟨more, last⟩, hscan, hbehind⟩ := Option.map_eq_some_iff.1 h
  have hline := Passed.scan?_blank_append (x := ['\n']) (by decide) (following found)
  rw [List.singleton_append, hscan] at hline
  rw [hline, Option.map_some]
  congr 1
  obtain ⟨regions, rest⟩ := found
  cases regions with
  | nil =>
    have hrest : rest = x ++ dropLineRest rest := harranged
    cases more with
    | nil =>
      have hlast : x ++ last = rest := congrArg Prod.snd hbehind
      rw [hrest] at hlast
      obtain rfl := List.append_cancel_left hlast
      rfl
    | cons q more => simp [behind, foundAgain] at hbehind
  | cons r regions =>
    cases more with
    | nil => simp [behind, foundAgain, cons] at hbehind
    | cons q more =>
      have hfollowing : following (r :: regions, rest) =
          lead (dropLineRest r.before) ++ (r.alone ++ following (regions, rest)) := by
        simp [following, isolated_eq]
      rw [arranged_cons, hfollowing, ← List.append_assoc x] at harranged
      have hlead := List.append_cancel_right harranged
      obtain ⟨hfirst, hrest⟩ := Prod.mk.inj hbehind
      obtain ⟨hq, rfl⟩ := List.cons.inj hfirst
      obtain ⟨before, opening, content, closing⟩ := q
      obtain ⟨hbefore, rfl, rfl, rfl⟩ := DisplayRegion.mk.inj hq
      rw [hlead] at hbefore
      obtain rfl := List.append_cancel_left hbefore
      exact Prod.ext rfl hrest

/-- **What a scan finds in the isolated text.** -/
theorem scan?_arranged {t : Text} {found : List DisplayRegion × Text} (h : scan? t = some found) :
    KeepsStrays t (arranged found) ∧ scan? (arranged found) = some (foundAgain found) := by
  refine scan_induction (motive := fun t found =>
    KeepsStrays t (arranged found) ∧ scan? (arranged found) = some (foundAgain found))
    ?nil ?slash ?step ?region h
  case nil => exact ⟨fun _ _ hnone => hnone, by simp [arranged, foundAgain, scan?]⟩
  case slash => exact ⟨fun _ _ hnone => hnone, by simp [arranged, foundAgain, scan?]⟩
  case step =>
    rintro x t ⟨_ | ⟨r, regions⟩, rest⟩ hx hscan ⟨hkeeps, hfound⟩
    · -- nothing is isolated behind what is passed over
      obtain rfl : rest = t := scan?_append t hscan
      refine ⟨fun _ _ hnone => hnone, ?_⟩
      exact hx.scan?_append.trans (congrArg (Option.map (behind x)) hscan)
    · rw [arranged_cons] at hkeeps hfound
      rw [arranged_behind, lead_append]
      by_cases hgaps : r.before.dropEndWhile isGap = []
      · -- only gaps stand between what is passed over and the region
        rw [lead_of_gaps hgaps, List.nil_append] at hkeeps hfound
        rw [if_pos hgaps]
        constructor
        · intro closing hclosing hnone
          have hwhole := whole_of_mem hclosing
          rw [findUnescaped?_append_eq_none_iff hwhole hx.fresh] at hnone
          rw [findUnescaped?_append_eq_none_iff hwhole (escapedAfter_lead x)]
          exact ⟨findUnescaped?_lead_eq_none (newline_not_mem_closing hclosing) hwhole.ne_nil hnone.1,
            hkeeps closing hclosing hnone.2⟩
        · rw [hx.scan?_lead hkeeps, hfound]
          simp [foundAgain, behind, cons, again, lead_append, lead_of_gaps hgaps, hgaps]
      · -- something else stands between them
        rw [if_neg hgaps, List.append_assoc]
        constructor
        · intro closing hclosing hnone
          have hwhole := whole_of_mem hclosing
          rw [findUnescaped?_append_eq_none_iff hwhole hx.fresh] at hnone ⊢
          exact ⟨hnone.1, hkeeps closing hclosing hnone.2⟩
        · rw [(hx.of_keepsStrays hkeeps).scan?_append, hfound]
          simp [foundAgain, behind, cons, again, lead_append, hgaps]
  case region =>
    rintro r t found hr hbefore hclosed - ⟨hkeeps, hfound⟩
    obtain ⟨x, hx, harranged⟩ := exists_following found
    have hisolated : arranged (cons r found) = r.alone ++ following found := by
      rw [cons, arranged_cons, hbefore]
      rfl
    rw [hisolated]
    constructor
    · refine keepsStrays_alone hr hbefore hclosed fun closing hclosing hnone => ?_
      have hnone := hkeeps closing hclosing hnone
      rw [harranged, findUnescaped?_append_eq_none_iff (whole_of_mem hclosing) (escapedAfter_blank hx)] at hnone
      exact hnone.2
    · rw [scan?_alone hr hclosed, scan?_following hfound, Option.map_some]
      simp [foundAgain, cons, hbefore, lead, dropEndWhile]

/-! ### Isolating twice -/

theorem lead_lead (before : Text) : lead (lead before) = lead before := by
  rcases lead_eq_nil_or_concat before with h | ⟨x, h⟩
  · rw [h]
    rfl
  · rw [h, lead_concat]
    rfl

theorem dropLineRest_cons_newline (t : Text) : dropLineRest ('\n' :: t) = t := by
  simp [dropLineRest, isGap]

theorem trim_again (lead : Text) (r : DisplayRegion) : (again lead r).content.trim = r.content.trim := by
  have hblank : isBlankText ['\n'] = true := by decide
  rw [again, ← List.singleton_append, trim_blank_append hblank, trim_append_blank hblank, trim_trim]

theorem isolated_again (lead' before : Text) (r : DisplayRegion) :
    (again lead' r).isolated before = r.isolated before := by
  rw [isolated_eq, isolated_eq, alone, trim_again]
  rfl

theorem isolated_lead (before : Text) (r : DisplayRegion) : r.isolated (lead before) = r.isolated before := by
  rw [isolated_eq, isolated_eq, lead_lead]

/-- **Isolating what is found in the isolated text** changes nothing. -/
theorem arranged_foundAgain (found : List DisplayRegion × Text) :
    arranged (foundAgain found) = arranged found := by
  have hbehind : ∀ found, following (foundBehind found) = following found := by
    rintro ⟨regions, rest⟩
    have hregion : ∀ r : DisplayRegion,
        (again ('\n' :: lead (dropLineRest r.before)) r).isolated
          (dropLineRest (again ('\n' :: lead (dropLineRest r.before)) r).before) =
            r.isolated (dropLineRest r.before) := fun r => by
      rw [isolated_again, again, dropLineRest_cons_newline, isolated_lead]
    simp only [following, foundBehind, List.flatMap_map, hregion, dropLineRest_cons_newline]
  obtain ⟨_ | ⟨r, regions⟩, rest⟩ := found
  · rfl
  · have hfirst : (again (lead r.before) r).isolated (again (lead r.before) r).before = r.isolated r.before := by
      rw [isolated_again, again, isolated_lead]
    change _ ++ following (foundBehind (regions, rest)) = _ ++ following (regions, rest)
    rw [hbehind, hfirst]

/-- The delimiters of a region and its trimmed content: what isolation keeps of it. -/
def shown (r : DisplayRegion) : Text × Text × Text := (r.opening, r.content.trim, r.closing)

theorem shown_again (lead : Text) (r : DisplayRegion) : (again lead r).shown = r.shown := by
  rw [shown, trim_again]
  rfl

theorem map_shown_foundAgain (found : List DisplayRegion × Text) :
    (foundAgain found).1.map shown = found.1.map shown := by
  obtain ⟨_ | ⟨r, regions⟩, rest⟩ := found
  · rfl
  · simp [foundAgain, foundBehind, cons, shown_again]

/-! ### Lines of their own -/

/-- **The delimiters of all regions have nothing beside them on their lines**: an opening delimiter stands at
the start of the text or behind a line break, a closing delimiter behind a line break, and line breaks follow
both of them. -/
def OnOwnLines (found : List DisplayRegion × Text) : Prop :=
  ∀ earlier r later, found.1 = earlier ++ r :: later →
    (earlier.flatMap source ++ r.before = [] ∨
      (earlier.flatMap source ++ r.before).getLast? = some '\n') ∧
    r.content.head? = some '\n' ∧ r.content.getLast? = some '\n' ∧
    (later.flatMap source ++ found.2).head? = some '\n'

/-- Behind a region that is found again, a line break follows. -/
theorem head?_foundBehind (regions : List DisplayRegion) (rest : Text) :
    ((foundBehind (regions, rest)).1.flatMap source ++ (foundBehind (regions, rest)).2).head? = some '\n' := by
  cases regions <;> rfl

/-- Behind the first region, a line break ends what stands in front of a region. -/
theorem getLast?_append_newline_lead (t before : Text) : (t ++ '\n' :: lead before).getLast? = some '\n' := by
  rcases lead_eq_nil_or_concat before with h | ⟨x, h⟩
  · simp [h]
  · rw [h, ← List.cons_append, ← List.append_assoc, List.getLast?_concat]

theorem getLast?_content_again (lead : Text) (r : DisplayRegion) :
    (again lead r).content.getLast? = some '\n' := by
  rw [again, ← List.cons_append, List.getLast?_concat]

/-- **What is found in the isolated text has lines of its own.** -/
theorem onOwnLines_foundAgain (found : List DisplayRegion × Text) : OnOwnLines (foundAgain found) := by
  obtain ⟨_ | ⟨r, regions⟩, rest⟩ := found
  · intro earlier r later h
    simp [foundAgain] at h
  · intro earlier q later h
    change again (lead r.before) r :: (foundBehind (regions, rest)).1 = earlier ++ q :: later at h
    cases earlier with
    | nil =>
      obtain ⟨rfl, rfl⟩ := List.cons.inj h
      refine ⟨?_, rfl, getLast?_content_again _ r, head?_foundBehind regions rest⟩
      refine (lead_eq_nil_or_concat r.before).imp_right fun ⟨x, hx⟩ => ?_
      exact (congrArg List.getLast? hx).trans List.getLast?_concat
    | cons first earlier =>
      obtain ⟨before, more, -, rfl, hmore⟩ := List.map_eq_append_iff.1 (List.cons.inj h).2
      obtain ⟨r', after, -, rfl, rfl⟩ := List.map_eq_cons_iff.1 hmore
      exact ⟨Or.inr (getLast?_append_newline_lead _ _), rfl, getLast?_content_again _ r',
        head?_foundBehind after rest⟩

end DisplayRegion

/-! ### Visible characters -/

namespace Text

/-- The characters of the text that are not blank. -/
def ink (t : Text) : Text := t.filter fun c => !isBlank c

@[simp] theorem ink_append (t u : Text) : ink (t ++ u) = ink t ++ ink u := List.filter_append ..

theorem ink_blank {x : Text} (hx : isBlankText x = true) : ink x = [] := by
  refine List.filter_eq_nil_iff.2 fun c hc => ?_
  simp [List.all_eq_true.1 hx c hc]

theorem ink_dropEndWhile {p : Char → Bool} (hp : ∀ c, p c = true → isBlank c = true) (t : Text) :
    ink (t.dropEndWhile p) = ink t := by
  conv => rhs; rw [← dropEndWhile_append_takeEndWhile p t, ink_append,
    ink_blank (isBlankText_takeEndWhile hp t), List.append_nil]

theorem ink_trim (t : Text) : ink t.trim = ink t := by
  obtain ⟨x, y, hx, hy, ht⟩ := exists_trim t
  conv => rhs; rw [ht]
  rw [ink_append, ink_append, ink_blank hx, ink_blank hy, List.nil_append, List.append_nil]

end Text

namespace DisplayRegion

theorem ink_dropLineRest (t : Text) : ink (dropLineRest t) = ink t := by
  obtain ⟨x, hx, ht⟩ := exists_dropLineRest t
  conv => rhs; rw [ht, ink_append, ink_blank hx, List.nil_append]

theorem ink_isolated (before : Text) (r : DisplayRegion) :
    ink (r.isolated before) = ink (before ++ r.opening ++ r.content ++ r.closing) := by
  obtain ⟨lineBreak, hblank, hisolated⟩ := exists_isolated before r
  have hnewline : ink ['\n'] = [] := by decide
  rw [hisolated]
  simp only [ink_append, ink_blank hblank, hnewline, ink_trim,
    ink_dropEndWhile isBlank_of_isGap_imp, List.append_nil, List.nil_append]

theorem ink_following (found : List DisplayRegion × Text) :
    ink (following found) = ink (found.1.flatMap source ++ found.2) := by
  obtain ⟨regions, rest⟩ := found
  induction regions with
  | nil => exact ink_dropLineRest rest
  | cons r regions ih =>
    rw [following, List.flatMap_cons, List.append_assoc, ink_append, ink_isolated]
    change _ ++ ink (following (regions, rest)) = _
    rw [ih]
    simp [source, ink_dropLineRest]

/-- **Arranging the regions of a text keeps its visible characters.** -/
theorem ink_arranged (found : List DisplayRegion × Text) :
    ink (arranged found) = ink (found.1.flatMap source ++ found.2) := by
  obtain ⟨_ | ⟨r, regions⟩, rest⟩ := found
  · rfl
  · rw [arranged, ink_append, ink_isolated, ink_following]
    simp [source]

end DisplayRegion

/-! ### Isolated texts -/

/-- **Isolating display mathematics a second time changes nothing**, and a scan finds the regions that it
found before, with the same delimiters and the same trimmed contents; in particular it fails for the isolated
text exactly when it fails for the text. -/
theorem isolateDisplayMath_settles (t : Text) :
    isolateDisplayMath (isolateDisplayMath t) = isolateDisplayMath t ∧
      (DisplayRegion.scan? (isolateDisplayMath t)).map (fun found => found.1.map DisplayRegion.shown) =
        (DisplayRegion.scan? t).map (fun found => found.1.map DisplayRegion.shown) := by
  cases hscan : DisplayRegion.scan? t with
  | none =>
    have hsame : isolateDisplayMath t = t := by rw [isolateDisplayMath, hscan]
    rw [hsame, hscan]
    exact ⟨hsame, rfl⟩
  | some found =>
    have hagain := (DisplayRegion.scan?_arranged hscan).2
    rw [DisplayRegion.isolateDisplayMath_eq hscan, hagain]
    refine ⟨?_, ?_⟩
    · rw [DisplayRegion.isolateDisplayMath_eq hagain, DisplayRegion.arranged_foundAgain]
    · rw [Option.map_some, Option.map_some, DisplayRegion.map_shown_foundAgain]

/-- **Isolating display mathematics only moves blanks**, and when all regions close, each of their delimiters
gets a line of its own in the isolated text. -/
theorem isolateDisplayMath_moves_blanks (t : Text) :
    Text.ink (isolateDisplayMath t) = Text.ink t ∧
      ∀ found, DisplayRegion.scan? t = some found →
        ∃ found', DisplayRegion.scan? (isolateDisplayMath t) = some found' ∧
          found'.1.map DisplayRegion.shown = found.1.map DisplayRegion.shown ∧
          DisplayRegion.OnOwnLines found' := by
  constructor
  · cases hscan : DisplayRegion.scan? t with
    | none => rw [isolateDisplayMath, hscan]
    | some found =>
      rw [DisplayRegion.isolateDisplayMath_eq hscan, DisplayRegion.ink_arranged,
        DisplayRegion.scan?_append t hscan]
  · intro found hscan
    rw [DisplayRegion.isolateDisplayMath_eq hscan]
    exact ⟨DisplayRegion.foundAgain found, (DisplayRegion.scan?_arranged hscan).2,
      DisplayRegion.map_shown_foundAgain found, DisplayRegion.onOwnLines_foundAgain found⟩

/-- Two regions next to each other, one with control spaces around and in it, and one with nothing in it. -/
theorem isolateDisplayMath_moves_blanks_of_neighbours :
    let t := "a\\ \\[ \\int f\\ \\]$$$$ so".toList
    let found : List DisplayRegion × Text :=
      ([⟨"a\\ ".toList, "\\[".toList, " \\int f\\ ".toList, "\\]".toList⟩,
        ⟨[], "$$".toList, [], "$$".toList⟩], " so".toList)
    DisplayRegion.scan? t = some found ∧
      ∃ found', DisplayRegion.scan? (isolateDisplayMath t) = some found' ∧
        found'.1.map DisplayRegion.shown = found.1.map DisplayRegion.shown ∧
        DisplayRegion.OnOwnLines found' := by
  intro t found
  have hscan : DisplayRegion.scan? t = some found := by decide +kernel
  exact ⟨hscan, (isolateDisplayMath_moves_blanks t).2 found hscan⟩

end CribSheet
