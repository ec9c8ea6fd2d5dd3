/-
The steps of the scan for display regions.

The scan for display regions steps over characters, over escaped characters, over formulas in a line and
over delimiters of formulas that never close.  Told as an inductive judgment the steps can be followed by
another scanner, which may read the same text from a different point of view.

Main definitions:

* `CribSheet.wordless` — no comment and no control word stands outside of the formulas of a text;
* `CribSheet.InlineFence` — the delimiters of formulas in a line;
* `CribSheet.RegionStep`, `CribSheet.Scanned` — the steps, and a scan in these steps.

Main results:

* `CribSheet.scanned_of_scan?` — the scan of a wordless text takes these steps.
-/
import CribSheet.Proofs.Markup.Delimiter
import CribSheet.Proofs.Math.Occurrence

set_option relaxedAutoImplicit false
set_option autoImplicit false

namespace CribSheet

open CribSheet.Markup

/-! ### Steps -/

/-- Delimiters of a formula in a line. -/
def InlineFence (opening closing : Text) : Prop :=
  (opening = ['$'] ∧ closing = ['$']) ∨ (opening = ['\\', '('] ∧ closing = ['\\', ')'])

/-- **A step over text outside of display regions**: what is stepped over, and the text behind it. -/
inductive RegionStep : Text → Text → Prop
  /-- A character that starts nothing. -/
  | char {c : Char} {t : Text} : c ∉ ['\\', '$', '%'] → RegionStep [c] t
  /-- An escaped character. -/
  | pair {d : Char} {t : Text} : Text.isLetter d = false → d ∉ ['[', '('] → RegionStep ['\\', d] t
  /-- A formula in a line; two dollars would start a display region. -/
  | formula {opening closing inner t : Text} : InlineFence opening closing → ClosedBy closing inner →
      (∀ c ∈ (inner ++ closing).head?, opening = ['$'] → c ≠ '$') → RegionStep (opening ++ inner ++ closing) t
  /-- A delimiter of a formula that never closes. -/
  | stray {opening closing t : Text} : InlineFence opening closing → findUnescaped? closing t = none →
      RegionStep opening t

/-- **A scan in these steps**, to the display regions that it finds and what follows the last one. -/
inductive Scanned : Text → List DisplayRegion × Text → Prop
  | nil : Scanned [] ([], [])
  | slash : Scanned ['\\'] ([], ['\\'])
  | step {x t : Text} {found : List DisplayRegion × Text} : RegionStep x t → Scanned t found →
      Scanned (x ++ t) (DisplayRegion.behind x found)
  | region {r : DisplayRegion} {t : Text} {found : List DisplayRegion × Text} : r.Fenced → r.before = [] →
      ClosedBy r.closing r.content → Scanned t found → Scanned (r.source ++ t) (DisplayRegion.cons r found)

/-! ### Texts without words -/

/-- **No percent sign and no control word stands outside of the formulas of the text**, as the scan for
display regions reads it: a backslash takes the character behind it along, and what stands between the
delimiters of a formula in a line or of a display region may be anything. -/
def wordless : Text → Bool
  | [] => true
  | c :: t =>
    if c = '\\' then
      match t with
      | [] => true
      | d :: t' =>
        if d = '[' then
          match _h : findUnescaped? ['\\', ']'] t' with
          | some (_, rest) =>
            have := DisplayRegion.length_lt_of_findUnescaped? _h
            wordless rest
          | none => true
        else if d = '(' then
          match _h : findUnescaped? ['\\', ')'] t' with
          | some (_, rest) =>
            have := DisplayRegion.length_lt_of_findUnescaped? _h
            wordless rest
          | none => wordless t'
        else !Text.isLetter d && wordless t'
    else if c = '$' then
      match t with
      | '$' :: t' =>
        match _h : findUnescaped? ['$', '$'] t' with
        | some (_, rest) =>
          have := DisplayRegion.length_lt_of_findUnescaped? _h
          wordless rest
        | none => true
      | t =>
        match _h : findUnescaped? ['$'] t with
        | some (_, rest) =>
          have := DisplayRegion.length_lt_of_findUnescaped? _h
          wordless rest
        | none => wordless t
    else c != '%' && wordless t
termination_by t => t.length
decreasing_by all_goals simp only [List.length_cons]; omega

/-- Behind the opening of a formula in a line, the text goes on after the formula, or after a stray delimiter. -/
theorem wordless_inline {opening closing t : Text} (hf : InlineFence opening closing)
    (hhead : ∀ c ∈ t.head?, opening = ['$'] → c ≠ '$') :
    wordless (opening ++ t) =
      match findUnescaped? closing t with
      | some (_, rest) => wordless rest
      | none => wordless t := by
  rcases hf with ⟨rfl, rfl⟩ | ⟨rfl, rfl⟩
  · rw [List.singleton_append, wordless.eq_def]
    simp only [Char.reduceEq, if_false, if_true]
    split
    · exact absurd rfl (hhead '$' rfl rfl)
    · split <;> next heq => rw [heq]
  · rw [List.cons_append, List.singleton_append, wordless.eq_def]
    simp only [Char.reduceEq, if_false, if_true]
    split <;> next heq => rw [heq]

/-- Behind the opening of a display region, the text goes on after the region. -/
theorem wordless_display {r : DisplayRegion} (hr : r.Fenced) (t : Text) :
    wordless (r.opening ++ t) =
      match findUnescaped? r.closing t with
      | some (_, rest) => wordless rest
      | none => true := by
  rcases hr with ⟨ho, hc⟩ | ⟨ho, hc⟩
  all_goals
    rw [ho, hc, List.cons_append, List.singleton_append, wordless.eq_def]
    simp only [Char.reduceEq, if_false, if_true]
    split <;> next heq => rw [heq]

/-- Behind a formula in a line a wordless text is wordless. -/
theorem wordless_of_formula {opening closing t inner rest : Text} (hf : InlineFence opening closing)
    (hhead : ∀ c ∈ t.head?, opening = ['$'] → c ≠ '$')
    (h : findUnescaped? closing t = some (inner, rest)) (hw : wordless (opening ++ t) = true) :
    wordless rest = true := by
  rwa [wordless_inline hf hhead, h] at hw

/-- Behind a display region a wordless text is wordless. -/
theorem wordless_of_region {r : DisplayRegion} (hr : r.Fenced) {t inner rest : Text}
    (h : findUnescaped? r.closing t = some (inner, rest)) (hw : wordless (r.opening ++ t) = true) :
    wordless rest = true := by
  rwa [wordless_display hr, h] at hw

/-- Behind a stray delimiter a wordless text is wordless. -/
theorem wordless_of_stray {opening closing t : Text} (hf : InlineFence opening closing)
    (hhead : ∀ c ∈ t.head?, opening = ['$'] → c ≠ '$')
    (h : findUnescaped? closing t = none) (hw : wordless (opening ++ t) = true) : wordless t = true := by
  rwa [wordless_inline hf hhead, h] at hw

/-- Behind an escaped character a wordless text is wordless. -/
theorem wordless_of_pair {d : Char} {t : Text} (hd : d ∉ ['[', '(']) (hw : wordless ('\\' :: d :: t) = true) :
    Text.isLetter d = false ∧ wordless t = true := by
  have hbracket : d ≠ '[' := fun he => hd (by simp [he])
  have hparen : d ≠ '(' := fun he => hd (by simp [he])
  rw [wordless.eq_def] at hw
  simpa [hbracket, hparen] using hw

/-- Behind another character a wordless text is wordless. -/
theorem wordless_of_char {c : Char} {t : Text} (hc : c ∉ ['\\', '$']) (hw : wordless (c :: t) = true) :
    c ≠ '%' ∧ wordless t = true := by
  have hslash : c ≠ '\\' := fun he => hc (by simp [he])
  have hdollar : c ≠ '$' := fun he => hc (by simp [he])
  rw [wordless.eq_def] at hw
  simpa [hslash, hdollar] using hw

/-! ### The scan -/

/-- A display region that is found in front of a scanned text. -/
theorem scanned_region {r : DisplayRegion} (hr : r.Fenced) (hbefore : r.before = []) {t rest : Text}
    {found : List DisplayRegion × Text} (h : findUnescaped? r.closing t = some (r.content, rest))
    (hrest : Scanned rest found) : Scanned (r.opening ++ t) (DisplayRegion.cons r found) := by
  have hscanned := hrest.region hr hbefore (closedBy_of_findUnescaped? h)
  rwa [DisplayRegion.source, hbefore, List.nil_append, List.append_assoc, List.append_assoc,
    ← List.append_assoc r.content, ← findUnescaped?_eq_append _ h] at hscanned

/-- An inline formula that is found in front of a scanned text. -/
theorem scanned_formula {opening closing t inner rest : Text} {found : List DisplayRegion × Text}
    (hf : InlineFence opening closing) (hhead : ∀ c ∈ t.head?, opening = ['$'] → c ≠ '$')
    (h : findUnescaped? closing t = some (inner, rest)) (hrest : Scanned rest found) :
    Scanned (opening ++ t) (DisplayRegion.behind (opening ++ inner ++ closing) found) := by
  have ht := findUnescaped?_eq_append _ h
  have hne : inner ++ closing ≠ [] := by
    rcases hf with ⟨-, rfl⟩ | ⟨-, rfl⟩ <;> simp
  have hhead' : ∀ c ∈ (inner ++ closing).head?, opening = ['$'] → c ≠ '$' := by
    rwa [ht, List.head?_append_of_ne_nil _ hne] at hhead
  have hscanned := hrest.step (RegionStep.formula hf (closedBy_of_findUnescaped? h) hhead')
  rw [ht]
  simpa using hscanned

/-- **A scan of a wordless text takes these steps.** -/
theorem scanned_of_scan? (t : Text) {found : List DisplayRegion × Text} (hw : wordless t = true)
    (h : DisplayRegion.scan? t = some found) : Scanned t found := by
  fun_induction DisplayRegion.scan? t generalizing found with
  | case1 =>
      obtain rfl := Option.some.inj h
      exact .nil
  | case2 =>
      obtain rfl := Option.some.inj h
      exact .slash
  | case3 t content rest hfind _ ih =>
      obtain ⟨found, hf, rfl⟩ := Option.map_eq_some_iff.1 h
      let r : DisplayRegion := ⟨[], ['\\', '['], content, ['\\', ']']⟩
      have hr : r.Fenced := Or.inl ⟨rfl, rfl⟩
      exact scanned_region hr rfl hfind (ih (wordless_of_region hr hfind hw) hf)
  | case4 | case9 => simp at h
  | case5 t inner rest hfind _ _ ih =>
      obtain ⟨found, hf, rfl⟩ := Option.map_eq_some_iff.1 h
      have hfence : InlineFence ['\\', '('] ['\\', ')'] := Or.inr ⟨rfl, rfl⟩
      have hhead : ∀ c ∈ t.head?, ['\\', '('] = ['$'] → c ≠ '$' := by simp
      exact scanned_formula hfence hhead hfind (ih (wordless_of_formula hfence hhead hfind hw) hf)
  | case6 t hfind _ ih =>
      obtain ⟨found, hf, rfl⟩ := Option.map_eq_some_iff.1 h
      have hfence : InlineFence ['\\', '('] ['\\', ')'] := Or.inr ⟨rfl, rfl⟩
      exact (ih (wordless_of_stray hfence (by simp) hfind hw) hf).step (.stray hfence hfind)
  | case7 d t hbracket hparen ih =>
      obtain ⟨found, hf, rfl⟩ := Option.map_eq_some_iff.1 h
      have hd : d ∉ ['[', '('] := by simp [hbracket, hparen]
      obtain ⟨hletter, hw⟩ := wordless_of_pair hd hw
      exact (ih hw hf).step (.pair hletter hd)
  | case8 t content rest hfind _ _ ih =>
      obtain ⟨found, hf, rfl⟩ := Option.map_eq_some_iff.1 h
      let r : DisplayRegion := ⟨[], ['$', '$'], content, ['$', '$']⟩
      have hr : r.Fenced := Or.inr ⟨rfl, rfl⟩
      exact scanned_region hr rfl hfind (ih (wordless_of_region hr hfind hw) hf)
  | case10 t hhead inner rest hfind _ _ ih =>
      obtain ⟨found, hf, rfl⟩ := Option.map_eq_some_iff.1 h
      have hfence : InlineFence ['$'] ['$'] := Or.inl ⟨rfl, rfl⟩
      have hhead : ∀ c ∈ t.head?, ['$'] = ['$'] → c ≠ '$' := fun c hc _ he =>
        hhead t.tail (he ▸ List.eq_cons_of_mem_head? hc)
      exact scanned_formula hfence hhead hfind (ih (wordless_of_formula hfence hhead hfind hw) hf)
  | case11 t hhead hfind _ ih =>
      obtain ⟨found, hf, rfl⟩ := Option.map_eq_some_iff.1 h
      have hfence : InlineFence ['$'] ['$'] := Or.inl ⟨rfl, rfl⟩
      have hhead : ∀ c ∈ t.head?, ['$'] = ['$'] → c ≠ '$' := fun c hc _ he =>
        hhead t.tail (he ▸ List.eq_cons_of_mem_head? hc)
      exact (ih (wordless_of_stray hfence hhead hfind hw) hf).step (.stray hfence hfind)
  | case12 c t hslash hdollar ih =>
      obtain ⟨found, hf, rfl⟩ := Option.map_eq_some_iff.1 h
      obtain ⟨hpercent, hw⟩ := wordless_of_char (by simp [hslash, hdollar]) hw
      exact (ih hw hf).step (.char (by simp [hslash, hdollar, hpercent]))

end CribSheet
