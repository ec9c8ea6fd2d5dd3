/-
Where a delimiter is found.

A search for a delimiter reads the text in steps of one character, or of two behind a backslash, and
stops at the first occurrence that it meets.  Here the places that it meets are told without the search:
they are the places behind a text after which no escape is open.

Main definitions:

* `CribSheet.Markup.ClosedBy` — the delimiter behind a text is the first one that a search meets.

Main results:

* `CribSheet.Markup.findUnescaped?_eq_none_iff` — where a search finds nothing;
* `CribSheet.Markup.ClosedBy.findUnescaped?` — the delimiter is found behind a text that it closes;
* `CribSheet.Markup.findUnescaped?_append_eq_none_iff` — a search through two texts;
* `CribSheet.Markup.ClosedBy.trim` — blanks at the ends of a formula make no difference.
-/
import CribSheet.Proofs.Markup.Heads

set_option relaxedAutoImplicit false
set_option autoImplicit false

namespace CribSheet.Markup

open CribSheet.Text

/-- **The delimiter behind the text is the first one that is not escaped.** -/
structure ClosedBy (delimiter inner : Text) : Prop where
  /-- No escape is open in front of the delimiter. -/
  fresh : escapedAfter false inner = false
  /-- Every earlier occurrence is escaped. -/
  first : ∀ a, a ++ delimiter <+: inner ++ delimiter → a ≠ inner → escapedAfter false a = true

variable {delimiter : Text}

/-! ### Searches -/

theorem after?_eq_none_iff {lead t : Text} : after? lead t = none ↔ ¬ lead <+: t := by
  rw [← Option.not_isSome_iff_eq_none, Option.isSome_iff_exists, not_iff_not]
  constructor
  · rintro ⟨rest, h⟩
    exact ⟨rest, (after?_eq_some_iff.1 h).symm⟩
  · rintro ⟨rest, h⟩
    exact ⟨rest, after?_eq_some_iff.2 h.symm⟩

/-- **Nothing is found** exactly when every occurrence is escaped. -/
theorem findUnescaped?_eq_none_iff (hd : delimiter ≠ []) (t : Text) :
    findUnescaped? delimiter t = none ↔ ∀ a, a ++ delimiter <+: t → escapedAfter false a = true := by
  have hnil : ∀ a, ¬ a ++ delimiter <+: [] := fun a ha =>
    hd (List.append_eq_nil_iff.1 (List.prefix_nil.1 ha)).2
  fun_induction findUnescaped? delimiter t with
  | case1 => exact iff_of_true rfl fun a ha => absurd ha (hnil a)
  | case2 c t rest h =>
      refine iff_of_false (by simp) fun hall => ?_
      have hstart : [] ++ delimiter <+: c :: t := ⟨rest, (after?_eq_some_iff.1 h).symm⟩
      exact absurd (hall [] hstart) (by simp)
  | case3 h =>
      refine iff_of_true rfl fun a ha => ?_
      cases a with
      | nil => exact absurd ha (after?_eq_none_iff.1 h)
      | cons c a => exact absurd (List.cons_prefix_cons.1 ha).2 (hnil a)
  | case4 d t h ih =>
      rw [Option.map_eq_none_iff]
      refine ih.trans ⟨?_, ?_⟩
      · intro hall a ha
        cases a with
        | nil => exact absurd ha (after?_eq_none_iff.1 h)
        | cons c a =>
            obtain ⟨rfl, hrest⟩ := List.cons_prefix_cons.1 ha
            cases a with
            | nil => rfl
            | cons e a =>
                rw [escapedAfter_pair]
                exact hall a (List.cons_prefix_cons.1 hrest).2
      · intro hall a ha
        rw [← escapedAfter_pair d]
        exact hall ('\\' :: d :: a) (List.cons_prefix_cons.2 ⟨rfl, List.cons_prefix_cons.2 ⟨rfl, ha⟩⟩)
  | case5 c t h hc ih =>
      rw [Option.map_eq_none_iff]
      refine ih.trans ⟨?_, ?_⟩
      · intro hall a ha
        cases a with
        | nil => exact absurd ha (after?_eq_none_iff.1 h)
        | cons e a =>
            obtain ⟨he, hrest⟩ := List.cons_prefix_cons.1 ha
            rw [he, escapedAfter_cons_of_ne hc]
            exact hall a hrest
      · intro hall a ha
        rw [← escapedAfter_cons_of_ne hc false]
        exact hall (c :: a) (List.cons_prefix_cons.2 ⟨rfl, ha⟩)

/-- No escape is open in front of a delimiter that is found. -/
theorem escapedAfter_findUnescaped? (t : Text) {inner rest : Text}
    (h : findUnescaped? delimiter t = some (inner, rest)) : escapedAfter false inner = false := by
  fun_induction findUnescaped? delimiter t generalizing inner with
  | case1 => simp at h
  | case2 => simp_all
  | case3 => simp at h
  | case4 d t' _ ih =>
    obtain ⟨⟨i, r⟩, hi, hir⟩ := Option.map_eq_some_iff.1 h
    obtain ⟨rfl, rfl⟩ := Prod.mk.inj hir
    rw [escapedAfter_pair, ih hi]
  | case5 c t _ hc ih =>
    obtain ⟨⟨i, r⟩, hi, hir⟩ := Option.map_eq_some_iff.1 h
    obtain ⟨rfl, rfl⟩ := Prod.mk.inj hir
    rw [escapedAfter_cons_of_ne hc, ih hi]

/-- What is found is the first occurrence that is not escaped. -/
theorem closedBy_of_findUnescaped? {t inner rest : Text}
    (h : findUnescaped? delimiter t = some (inner, rest)) : ClosedBy delimiter inner := by
  refine ⟨escapedAfter_findUnescaped? t h, ?_⟩
  fun_induction findUnescaped? delimiter t generalizing inner with
  | case1 => simp at h
  | case2 c t rest' h' =>
      obtain ⟨rfl, rfl⟩ := Prod.mk.inj (Option.some.inj h)
      intro a ha hne
      have hlen := ha.length_le
      simp only [List.length_append, List.nil_append] at hlen
      exact absurd (List.length_eq_zero_iff.1 (by omega)) hne
  | case3 => simp at h
  | case4 d t h' ih =>
      obtain ⟨⟨i, r⟩, hi, hir⟩ := Option.map_eq_some_iff.1 h
      obtain ⟨rfl, rfl⟩ := Prod.mk.inj hir
      have ht := findUnescaped?_eq_append t hi
      intro a ha hne
      cases a with
      | nil =>
          refine absurd (ha.trans ⟨r, ?_⟩) (after?_eq_none_iff.1 h')
          simp [ht]
      | cons c a =>
          obtain ⟨rfl, hrest⟩ := List.cons_prefix_cons.1 ha
          cases a with
          | nil => rfl
          | cons e a =>
              obtain ⟨rfl, hmore⟩ := List.cons_prefix_cons.1 hrest
              rw [escapedAfter_pair]
              refine ih hi a hmore fun hsame => hne ?_
              rw [hsame]
  | case5 c t h' hc ih =>
      obtain ⟨⟨i, r⟩, hi, hir⟩ := Option.map_eq_some_iff.1 h
      obtain ⟨rfl, rfl⟩ := Prod.mk.inj hir
      have ht := findUnescaped?_eq_append t hi
      intro a ha hne
      cases a with
      | nil =>
          refine absurd (ha.trans ⟨r, ?_⟩) (after?_eq_none_iff.1 h')
          simp [ht]
      | cons e a =>
          obtain ⟨he, hrest⟩ := List.cons_prefix_cons.1 ha
          rw [he, escapedAfter_cons_of_ne hc]
          refine ih hi a hrest fun hsame => hne ?_
          rw [he, hsame]

/-- **The delimiter is found behind a text that it closes**, whatever follows. -/
theorem ClosedBy.findUnescaped? (hd : delimiter ≠ []) {inner : Text} (h : ClosedBy delimiter inner)
    (rest : Text) : findUnescaped? delimiter (inner ++ delimiter ++ rest) = some (inner, rest) := by
  have hin : inner ++ delimiter <+: inner ++ delimiter ++ rest := List.prefix_append _ _
  cases hfind : Markup.findUnescaped? delimiter (inner ++ delimiter ++ rest) with
  | none =>
      have hescaped := (findUnescaped?_eq_none_iff hd _).1 hfind inner hin
      rw [h.fresh] at hescaped
      simp at hescaped
  | some found =>
      obtain ⟨i, r⟩ := found
      have hfound := closedBy_of_findUnescaped? hfind
      have htext := findUnescaped?_eq_append _ hfind
      have hin' : i ++ delimiter <+: inner ++ delimiter ++ rest := htext ▸ List.prefix_append _ _
      have hsame : i = inner := by
        by_contra hne
        rcases Nat.le_total i.length inner.length with hle | hle
        · have hstart := List.prefix_of_prefix_length_le hin' hin (by simp [hle])
          have hescaped := h.first i hstart hne
          rw [hfound.fresh] at hescaped
          simp at hescaped
        · have hstart := List.prefix_of_prefix_length_le hin hin' (by simp [hle])
          have hescaped := hfound.first inner hstart (Ne.symm hne)
          rw [h.fresh] at hescaped
          simp at hescaped
      subst hsame
      rw [List.append_cancel_left htext]

/-! ### Searches through two texts -/

/-- A delimiter that a search cannot meet halfway: a dollar, or a backslash with the character behind. -/
def Whole (delimiter : Text) : Prop := delimiter = ['$'] ∨ ∃ c, delimiter = ['\\', c]

theorem Whole.ne_nil (h : Whole delimiter) : delimiter ≠ [] := by
  rcases h with rfl | ⟨c, rfl⟩ <;> simp

/-- **A search through two texts** that meet where no escape is open. -/
theorem findUnescaped?_append_eq_none_iff (hd : Whole delimiter) {x : Text}
    (hx : escapedAfter false x = false) (t : Text) :
    findUnescaped? delimiter (x ++ t) = none ↔
      findUnescaped? delimiter x = none ∧ findUnescaped? delimiter t = none := by
  rw [findUnescaped?_eq_none_iff hd.ne_nil, findUnescaped?_eq_none_iff hd.ne_nil,
    findUnescaped?_eq_none_iff hd.ne_nil]
  constructor
  · intro h
    refine ⟨fun a ha => h a (ha.trans (List.prefix_append _ _)), fun a ha => ?_⟩
    have hescaped := h (x ++ a) (by simpa using List.prefix_append_right_inj x |>.2 ha)
    rwa [escapedAfter_append, hx] at hescaped
  · rintro ⟨hleft, hright⟩ a ⟨b, hb⟩
    rcases List.append_eq_append_iff.1 (hb.symm.trans (List.append_assoc a delimiter b)) with
      ⟨y, rfl, hy⟩ | ⟨y, rfl, hy⟩
    · -- the occurrence stands behind the first text
      rw [escapedAfter_append, hx]
      exact hright y ⟨b, by rw [hy, List.append_assoc]⟩
    · rcases List.append_eq_append_iff.1 hy with ⟨z, rfl, -⟩ | ⟨z, hz, ht⟩
      · exact hleft a ⟨z, by simp⟩
      · -- it begins in the first text and ends in the second one
        cases y with
        | nil =>
            obtain rfl : delimiter = z := hz
            have hescaped := hright [] ⟨b, ht.symm⟩
            simp at hescaped
        | cons c y =>
            rcases hd with rfl | ⟨d, rfl⟩
            · obtain ⟨rfl, hnil⟩ := List.cons.inj hz
              obtain ⟨rfl, rfl⟩ := List.append_eq_nil_iff.1 hnil.symm
              exact hleft a (List.prefix_refl _)
            · obtain ⟨rfl, hend⟩ := List.cons.inj hz
              cases y with
              | nil =>
                  rw [escapedAfter_append] at hx
                  simpa [escapes] using hx
              | cons e y =>
                  obtain ⟨rfl, hnil⟩ := List.cons.inj hend
                  obtain ⟨rfl, rfl⟩ := List.append_eq_nil_iff.1 hnil.symm
                  exact hleft a (List.prefix_refl _)

/-! ### Blanks at the ends -/

/-- An occurrence that begins in front of a line break ends there. -/
theorem prefix_of_prefix_append_break {a y rest : Text} (hn : '\n' ∉ delimiter)
    (h : a ++ delimiter <+: y ++ '\n' :: rest) (hlen : a.length ≤ y.length) : a ++ delimiter <+: y := by
  rcases Nat.le_total (a ++ delimiter).length y.length with hle | hle
  · exact List.prefix_of_prefix_length_le h (List.prefix_append _ _) hle
  · obtain ⟨z, hz⟩ := List.prefix_of_prefix_length_le (List.prefix_append y ('\n' :: rest)) h hle
    obtain ⟨w, hw⟩ := h
    rw [← hz, List.append_assoc, List.append_cancel_left_eq] at hw
    cases z with
    | nil =>
        have hy : a ++ delimiter = y := by rw [← hz, List.append_nil]
        exact hy ▸ List.prefix_refl _
    | cons c z =>
        -- the line break would stand in the delimiter
        obtain rfl : c = '\n' := (List.cons.inj hw).1
        rcases List.append_eq_append_iff.1 hz with ⟨e, rfl, hd⟩ | ⟨e, -, hd⟩
        · obtain rfl : e = [] := by
            rw [List.length_append] at hlen
            exact List.length_eq_zero_iff.1 (by omega)
          obtain rfl : '\n' :: z = delimiter := hd
          exact absurd List.mem_cons_self hn
        · exact absurd (hd ▸ List.mem_append_right e List.mem_cons_self) hn

/-- **Blanks at the ends of a formula** may be taken away and replaced by line breaks. -/
theorem ClosedBy.trim (hn : '\n' ∉ delimiter) (hd : delimiter ≠ []) {inner : Text}
    (h : ClosedBy delimiter inner) : ClosedBy delimiter ('\n' :: (inner.trim ++ ['\n'])) := by
  obtain ⟨x, y, hx, hy, hinner⟩ := exists_trim inner
  refine ⟨escapedAfter_concat (by decide) false ('\n' :: inner.trim), fun a ha hne => ?_⟩
  cases a with
  | nil =>
      obtain ⟨c, d, rfl⟩ := List.exists_cons_of_ne_nil hd
      obtain ⟨rfl, -⟩ := List.cons_prefix_cons.1 ha
      exact absurd List.mem_cons_self hn
  | cons c a =>
      obtain ⟨rfl, hrest⟩ := List.cons_prefix_cons.1 ha
      have ha : a ++ delimiter <+: inner.trim ++ '\n' :: delimiter := by simpa using hrest
      rw [escapedAfter_cons_of_ne (by decide)]
      have hlen : a.length ≤ inner.trim.length := by
        by_contra hlt
        have hle := ha.length_le
        simp only [List.length_append, List.length_cons] at hle
        have hstart : a <+: (inner.trim ++ ['\n']) ++ delimiter := by
          simpa using (List.prefix_append a delimiter).trans ha
        have hlength : a.length = (inner.trim ++ ['\n']).length := by
          simp only [List.length_append, List.length_cons, List.length_nil]
          omega
        have hsame : a = inner.trim ++ ['\n'] :=
          (List.prefix_of_prefix_length_le hstart (List.prefix_append _ _) hlength.le).eq_of_length hlength
        exact hne (by rw [hsame])
      have hmiddle := prefix_of_prefix_append_break hn ha hlen
      have hstart : x ++ a ++ delimiter <+: inner := by
        rw [hinner, List.append_assoc, List.append_assoc]
        exact (List.prefix_append_right_inj x).2 (hmiddle.trans (List.prefix_append _ _))
      have hescaped := h.first (x ++ a) (hstart.trans (List.prefix_append _ _)) fun hsame => by
        have hle := hstart.length_le
        have hpos := List.length_pos_iff.2 hd
        rw [hsame, List.length_append] at hle
        omega
      rwa [escapedAfter_append, escapedAfter_blank hx] at hescaped

/-- Trimming uncovers no delimiter. -/
theorem findUnescaped?_trim_eq_none (hn : '\n' ∉ delimiter) (hd : delimiter ≠ []) {t : Text}
    (h : findUnescaped? delimiter t = none) : findUnescaped? delimiter (t.trim ++ ['\n']) = none := by
  rw [findUnescaped?_eq_none_iff hd] at h ⊢
  intro a ha
  obtain ⟨x, y, hx, hy, ht⟩ := exists_trim t
  have hlen : a.length ≤ t.trim.length := by
    have hle := ha.length_le
    have hpos := List.length_pos_iff.2 hd
    simp only [List.length_append, List.length_cons, List.length_nil] at hle
    omega
  have hmiddle := prefix_of_prefix_append_break hn ha hlen
  have hescaped := h (x ++ a) (by
    rw [ht, List.append_assoc, List.append_assoc]
    exact (List.prefix_append_right_inj x).2 (hmiddle.trans (List.prefix_append _ _)))
  rwa [escapedAfter_append, escapedAfter_blank hx] at hescaped

end CribSheet.Markup
