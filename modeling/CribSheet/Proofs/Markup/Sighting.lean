/-
Where a control sequence stands in a text.

`CribSheet.Markup.Sighting.find?` scans for the first command with one of some names.  Here it is told
without a scan what it means that a sighting stands in a text, and the scan is shown to find the first
of them.  Since a name ends where no letter follows, a search through two texts that meet at another
character is a search through the first one and then through the second.

Main definitions:

* `CribSheet.Markup.Sighting.IsIn` — the sighting stands in the text;
* `CribSheet.Markup.Sighting.within` — the same sighting with more text around it;
* `CribSheet.Markup.EndsName` — a name that runs up to the text ends there.

Main results:

* `CribSheet.Markup.Sighting.isIn_find?`, `CribSheet.Markup.Sighting.length_before_find?_le` — what is
  found stands in the text, and nothing stands before it;
* `CribSheet.Markup.Sighting.find?_eq_none_iff` — nothing is found exactly when nothing is there;
* `CribSheet.Markup.Sighting.find?_append` — searching through two texts;
* `CribSheet.Markup.Sighting.find?_of_isIn` — what stands first is found;
* `CribSheet.Markup.Sighting.existsUnique_isIn_iff` — when a name stands in a text just once.
-/
import CribSheet.Markup.Command
import CribSheet.Proofs.Text.Cut
import Mathlib.Logic.ExistsUnique

set_option relaxedAutoImplicit false
set_option autoImplicit false

namespace CribSheet.Markup

open CribSheet.Text

/-- No letter and no star stands at the start of the text, so that a name in front of it is complete. -/
def EndsName (t : Text) : Prop := ∀ c ∈ t.head?, isLetter c = false ∧ c ≠ '*'

theorem endsName_nil : EndsName [] := by simp [EndsName]

theorem endsName_cons {c : Char} {t : Text} :
    EndsName (c :: t) ↔ isLetter c = false ∧ c ≠ '*' := by simp [EndsName]

/-- No name goes on with a backslash, a brace or a line break. -/
theorem endsName_backslash (t : Text) : EndsName ('\\' :: t) := endsName_cons.2 ⟨by decide, by decide⟩

theorem endsName_brace (t : Text) : EndsName ('{' :: t) := endsName_cons.2 ⟨by decide, by decide⟩

theorem endsName_newline (t : Text) : EndsName ('\n' :: t) := endsName_cons.2 ⟨by decide, by decide⟩

/-- It depends on the first character alone. -/
theorem endsName_append_of_ne_nil {p u v : Text} (hp : p ≠ []) (h : EndsName (p ++ u)) :
    EndsName (p ++ v) := by
  obtain ⟨c, p, rfl⟩ := List.exists_cons_of_ne_nil hp
  exact h

/-! ### Words -/

/-- A name ends where no letter follows. -/
theorem takeWhile_dropWhile_isLetter {name rest : Text} (hname : ∀ c ∈ name, isLetter c = true)
    (hrest : ∀ c ∈ rest.head?, isLetter c = false) :
    (name ++ rest).takeWhile isLetter = name ∧ (name ++ rest).dropWhile isLetter = rest := by
  rw [List.takeWhile_append_of_pos hname, List.dropWhile_append_of_pos hname]
  cases rest with
  | nil => simp
  | cons c rest => simp [hrest c rfl]

/-- A text starts with one complete word at most. -/
theorem word_eq_of_append_eq {word word' rest rest' : Text} (hword : ∀ c ∈ word, isLetter c = true)
    (hword' : ∀ c ∈ word', isLetter c = true) (hrest : ∀ c ∈ rest.head?, isLetter c = false)
    (hrest' : ∀ c ∈ rest'.head?, isLetter c = false) (h : word ++ rest = word' ++ rest') :
    word = word' ∧ rest = rest' := by
  obtain ⟨htake, hdrop⟩ := takeWhile_dropWhile_isLetter hword hrest
  obtain ⟨htake', hdrop'⟩ := takeWhile_dropWhile_isLetter hword' hrest'
  exact ⟨by rw [← htake, h, htake'], by rw [← hdrop, h, hdrop']⟩

/-! ### Standing in a text -/

namespace Sighting

/-- **The sighting stands in the text**: its backslash is not escaped, and its name ends where its
source ends.  `escaped` says whether the first character of the text is escaped. -/
structure IsIn (s : Sighting) (escaped : Bool) (t : Text) : Prop where
  /-- The sighting splits the text. -/
  text_eq : s.text = t
  /-- The backslash is not escaped. -/
  fresh : escapedAfter escaped s.before = false
  /-- A name without a star is complete. -/
  ends : s.starred = false → EndsName s.after

/-- The text is split at the backslash. -/
theorem IsIn.eq_append {s : Sighting} {escaped : Bool} {t : Text} (h : s.IsIn escaped t) :
    t = s.before ++ '\\' :: (s.source.tail ++ s.after) := by
  rw [← h.text_eq]
  simp [text, source]

theorem IsIn.length_before_lt {s : Sighting} {escaped : Bool} {t : Text} (h : s.IsIn escaped t) :
    s.before.length < t.length := by
  rw [h.eq_append, List.length_append, List.length_cons]
  omega

/-- The same sighting in a text with `a` in front and `b` behind. -/
def within (a b : Text) (s : Sighting) : Sighting :=
  { s with before := a ++ s.before, after := s.after ++ b }

@[simp] theorem before_behind (c : Char) (s : Sighting) : (s.behind c).before = c :: s.before := rfl

@[simp] theorem starred_behind (c : Char) (s : Sighting) : (s.behind c).starred = s.starred := rfl

@[simp] theorem source_behind (c : Char) (s : Sighting) : (s.behind c).source = s.source := rfl

@[simp] theorem name_within (a b : Text) (s : Sighting) : (s.within a b).name = s.name := rfl

@[simp] theorem before_within (a b : Text) (s : Sighting) :
    (s.within a b).before = a ++ s.before := rfl

@[simp] theorem source_within (a b : Text) (s : Sighting) : (s.within a b).source = s.source := rfl

@[simp] theorem after_within (a b : Text) (s : Sighting) : (s.within a b).after = s.after ++ b := rfl

theorem isIn_behind {s : Sighting} {escaped : Bool} {c : Char} {t : Text} :
    (s.behind c).IsIn escaped (c :: t) ↔ s.IsIn (escapes escaped c) t := by
  constructor
  · intro h
    exact ⟨List.cons.inj (text_behind c s ▸ h.text_eq) |>.2, h.fresh, h.ends⟩
  · intro h
    exact ⟨by rw [text_behind, h.text_eq], h.fresh, h.ends⟩

/-- A sighting stands at the start of a text or behind its first character. -/
theorem IsIn.eq_nil_or_behind {s : Sighting} {escaped : Bool} {c : Char} {t : Text}
    (h : s.IsIn escaped (c :: t)) :
    (s.before = [] ∧ escapes escaped c = true) ∨
      ∃ s' : Sighting, s = s'.behind c ∧ s'.IsIn (escapes escaped c) t := by
  obtain ⟨before, name, starred, after⟩ := s
  cases before with
  | nil =>
      have hc := (List.cons.inj h.text_eq).1
      have hf : escaped = false := h.fresh
      exact Or.inl ⟨rfl, by simp [escapes, ← hc, hf]⟩
  | cons d before =>
      obtain rfl : d = c := (List.cons.inj h.text_eq).1
      exact Or.inr ⟨⟨before, name, starred, after⟩, rfl, isIn_behind.1 h⟩

/-! ### Several sightings in one text -/

/-- Sightings of one name at one place are one sighting. -/
theorem IsIn.eq_of_length_before_eq {s s' : Sighting} {escaped : Bool} {t : Text}
    (h : s.IsIn escaped t) (h' : s'.IsIn escaped t) (hname : s.name = s'.name)
    (hlen : s.before.length = s'.before.length) : s = s' := by
  have hs := h.ends
  have hs' := h'.ends
  have htext := h.text_eq.trans h'.text_eq.symm
  obtain ⟨before, name, starred, after⟩ := s
  obtain ⟨before', name', starred', after'⟩ := s'
  obtain rfl : name = name' := hname
  simp only [text, source, List.append_assoc, List.cons_append] at htext
  obtain ⟨rfl, hrest⟩ := List.append_inj htext hlen
  have hrest := List.append_cancel_left (List.cons.inj hrest).2
  cases starred with
  | false =>
      cases starred' with
      | false => simp_all
      | true =>
          obtain rfl : after = '*' :: after' := by simpa using hrest
          exact absurd rfl (endsName_cons.1 (hs rfl)).2
  | true =>
      cases starred' with
      | false =>
          obtain rfl : '*' :: after = after' := by simpa using hrest
          exact absurd rfl (endsName_cons.1 (hs' rfl)).2
      | true => simp_all

/-- The text cut behind the name of a sighting. -/
theorem IsIn.eq_behind_name {s : Sighting} {escaped : Bool} {t : Text} (h : s.IsIn escaped t) :
    t = s.before ++ ('\\' :: s.name ++ ((if s.starred then ['*'] else []) ++ s.after)) := by
  rw [← h.text_eq, text, source, List.append_assoc, List.append_assoc]

/-- No letter follows the name of a sighting: it ends at its star or where the letters end. -/
theorem IsIn.not_isLetter_behind_name {s : Sighting} {escaped : Bool} {t : Text} (h : s.IsIn escaped t) :
    ∀ c ∈ ((if s.starred then ['*'] else []) ++ s.after).head?, isLetter c = false := by
  intro c hc
  cases hstar : s.starred with
  | true =>
      obtain rfl : '*' = c := by simpa [hstar] using hc
      decide
  | false => exact (h.ends hstar c (by simpa [hstar] using hc)).1

/-- Sightings at one place have one name, when names are words. -/
theorem IsIn.name_eq {s s' : Sighting} {escaped : Bool} {t : Text} (h : s.IsIn escaped t)
    (h' : s'.IsIn escaped t) (hname : ∀ c ∈ s.name, isLetter c = true)
    (hname' : ∀ c ∈ s'.name, isLetter c = true) (hlen : s.before.length = s'.before.length) :
    s.name = s'.name := by
  have htext := h.eq_behind_name.symm.trans h'.eq_behind_name
  have hrest := (List.cons.inj (List.append_inj htext hlen).2).2
  exact (word_eq_of_append_eq hname hname' h.not_isLetter_behind_name h'.not_isLetter_behind_name hrest).1

/-- What stands in `a ++ b` behind `a` stands in `b`. -/
theorem IsIn.exists_within {s : Sighting} {escaped : Bool} {a b : Text}
    (h : s.IsIn escaped (a ++ b)) (hlen : a.length ≤ s.before.length) :
    ∃ s' : Sighting, s = s'.within a [] ∧ s'.IsIn (escapedAfter escaped a) b := by
  obtain ⟨htext, hfresh, hends⟩ := h
  obtain ⟨before, name, starred, after⟩ := s
  have hpre : a <+: before := by
    refine List.prefix_of_prefix_length_le ⟨b, rfl⟩ ?_ hlen
    exact ⟨_, by rw [← htext, text, List.append_assoc]⟩
  obtain ⟨before, rfl⟩ := hpre
  refine ⟨⟨before, name, starred, after⟩, by simp [within], ?_, ?_, hends⟩
  · simpa [text, source] using htext
  · rw [escapedAfter_append] at hfresh
    exact hfresh

/-- What stands in `x ++ b` stands in `b` when no backslash stands in `x`. -/
theorem IsIn.exists_within_plain {s : Sighting} {escaped : Bool} {x b : Text} (hx : '\\' ∉ x)
    (h : s.IsIn escaped (x ++ b)) :
    ∃ s' : Sighting, s = s'.within x [] ∧ s'.IsIn (escapedAfter escaped x) b := by
  induction x generalizing s escaped with
  | nil => exact ⟨s, by simp [Sighting.within], h⟩
  | cons c x ih =>
      obtain ⟨hc, hx⟩ := not_or.1 (mt List.mem_cons.2 hx)
      rcases h.eq_nil_or_behind with ⟨-, hescapes⟩ | ⟨s₁, rfl, h₁⟩
      · have hslash : c = '\\' := by simp [escapes] at hescapes; exact hescapes.1
        exact absurd hslash.symm hc
      · obtain ⟨s₂, rfl, h₂⟩ := ih hx h₁
        exact ⟨s₂, rfl, h₂⟩

/-- What stands in `b` stands in `a ++ b`. -/
theorem IsIn.within {s : Sighting} {escaped : Bool} {a b : Text}
    (h : s.IsIn (escapedAfter escaped a) b) : (s.within a []).IsIn escaped (a ++ b) := by
  obtain ⟨htext, hfresh, hends⟩ := h
  refine ⟨?_, ?_, fun hs => ?_⟩
  · rw [← htext]
    simp [text, source, Sighting.within]
  · rw [before_within, escapedAfter_append]
    exact hfresh
  · rw [after_within, List.append_nil]
    exact hends hs

/-- A second sighting stands behind the whole of the first one, since a name holds no backslash. -/
theorem IsIn.length_source_le {s s' : Sighting} {escaped : Bool} {t : Text} (h : s.IsIn escaped t)
    (h' : s'.IsIn escaped t) (hname : '\\' ∉ s.name)
    (hlen : s.before.length < s'.before.length) :
    (s.before ++ s.source).length ≤ s'.before.length := by
  refine Nat.le_of_not_lt fun hlt => ?_
  have hsource : s.before ++ s.source <+: t := ⟨s.after, h.text_eq⟩
  have hbefore : s'.before <+: t :=
    ⟨s'.source ++ s'.after, by rw [← h'.text_eq, text, List.append_assoc]⟩
  have hslash : s.before ++ ['\\'] <+: t :=
    ⟨s.source.tail ++ s.after, by rw [← h.text_eq]; simp [text, source]⟩
  have hslash' : s'.before ++ ['\\'] <+: t :=
    ⟨s'.source.tail ++ s'.after, by rw [← h'.text_eq]; simp [text, source]⟩
  have hpre : s'.before ++ ['\\'] <+: s.before ++ s.source := by
    refine List.prefix_of_prefix_length_le hslash' hsource ?_
    simp only [List.length_append, List.length_singleton] at hlt ⊢
    omega
  have hpre' : s.before ++ ['\\'] <+: s'.before := by
    refine List.prefix_of_prefix_length_le hslash hbefore ?_
    rw [List.length_append, List.length_singleton]
    exact hlen
  obtain ⟨x, hx⟩ := hpre'
  obtain ⟨y, hy⟩ := hpre
  have htail : x ++ '\\' :: y = s.name ++ if s.starred then ['*'] else [] := by
    rw [← hx] at hy
    simpa [source] using hy
  have hmem : '\\' ∈ s.name ++ if s.starred then ['*'] else [] := by
    rw [← htail]
    simp
  rcases List.mem_append.1 hmem with hm | hm
  · exact hname hm
  · split at hm <;> simp at hm

/-! ### Names at the start of a text -/

theorem isIn_atName? {names : List Text} {t : Text} {s : Sighting}
    (h : atName? names t = some s) :
    s.name ∈ names ∧ s.before = [] ∧ s.IsIn false ('\\' :: t) := by
  have htext := text_atName? h
  induction names with
  | nil => simp [atName?] at h
  | cons name others ih =>
      rw [atName?] at h
      split at h
      · obtain ⟨hn, hrest⟩ := ih h
        exact ⟨List.mem_cons_of_mem _ hn, hrest⟩
      · obtain rfl := Option.some.inj h
        exact ⟨List.mem_cons_self, rfl, htext, rfl, fun _ => endsName_nil⟩
      · next c rest ht =>
          split at h
          · obtain ⟨hn, hrest⟩ := ih h
            exact ⟨List.mem_cons_of_mem _ hn, hrest⟩
          · next hletter =>
              split at h
              · obtain rfl := Option.some.inj h
                exact ⟨List.mem_cons_self, rfl, htext, rfl, fun hs => by simp at hs⟩
              · next hstar =>
                  obtain rfl := Option.some.inj h
                  refine ⟨List.mem_cons_self, rfl, htext, rfl, fun _ => ?_⟩
                  exact endsName_cons.2 ⟨by simpa using hletter, hstar⟩

theorem not_isIn_of_atName?_eq_none {names : List Text} {t : Text} {s : Sighting}
    (h : atName? names t = none) (hn : s.name ∈ names) (hb : s.before = [])
    (escaped : Bool) : ¬ s.IsIn escaped ('\\' :: t) := by
  intro hs
  have ht : s.name ++ ((if s.starred then ['*'] else []) ++ s.after) = t := by
    simpa [text, source, hb] using hs.text_eq
  induction names with
  | nil => simp at hn
  | cons name others ih =>
      rw [atName?] at h
      rcases List.mem_cons.1 hn with hn | hn
      · rw [← hn, ← ht, after?_append] at h
        cases hstar : s.starred with
        | true => simp [hstar, isLetter] at h
        | false =>
            have hends := hs.ends hstar
            simp only [hstar, Bool.false_eq_true, if_false, List.nil_append] at h
            cases hafter : s.after with
            | nil => simp [hafter] at h
            | cons c rest =>
                rw [hafter, endsName_cons] at hends
                simp [hafter, hends.1, hends.2] at h
      · split at h
        · exact ih h hn
        · simp at h
        · split at h
          · exact ih h hn
          · split at h <;> simp at h

/-! ### The search -/

/-- **What is found stands in the text.** -/
theorem isIn_find? {names : List Text} {escaped : Bool} {t : Text} {s : Sighting}
    (h : find? names escaped t = some s) : s.name ∈ names ∧ s.IsIn escaped t := by
  induction t generalizing escaped s with
  | nil => simp [find?] at h
  | cons c t ih =>
      rw [find?] at h
      split at h
      · next s' hs =>
          obtain rfl := Option.some.inj h
          split at hs
          · next hc =>
              obtain ⟨rfl, rfl⟩ : c = '\\' ∧ escaped = false := by simpa [escapes] using hc
              obtain ⟨hn, -, hin⟩ := isIn_atName? hs
              exact ⟨hn, hin⟩
          · simp at hs
      · obtain ⟨s', hs, rfl⟩ := Option.map_eq_some_iff.1 h
        obtain ⟨hn, hin⟩ := ih hs
        exact ⟨hn, isIn_behind.2 hin⟩

/-- **Nothing is found exactly when nothing is there.** -/
theorem find?_eq_none_iff {names : List Text} {escaped : Bool} {t : Text} :
    find? names escaped t = none ↔ ∀ s : Sighting, s.name ∈ names → ¬ s.IsIn escaped t := by
  constructor
  · intro h s hn hs
    induction t generalizing escaped s with
    | nil =>
        have htext := hs.text_eq
        simp [text, source] at htext
    | cons c t ih =>
        rw [find?] at h
        split at h
        · simp at h
        · next hat =>
            rcases hs.eq_nil_or_behind with ⟨hb, hc⟩ | ⟨s', rfl, hs'⟩
            · rw [if_pos hc] at hat
              obtain ⟨rfl, -⟩ : c = '\\' ∧ escaped = false := by simpa [escapes] using hc
              exact not_isIn_of_atName?_eq_none hat hn hb escaped hs
            · exact ih (Option.map_eq_none_iff.1 h) s' hn hs'
  · intro h
    cases hf : find? names escaped t with
    | none => rfl
    | some s =>
        obtain ⟨hn, hs⟩ := isIn_find? hf
        exact absurd hs (h s hn)

/-- **Nothing stands before what is found.** -/
theorem length_before_find?_le {names : List Text} {escaped : Bool} {t : Text} {s s' : Sighting}
    (h : find? names escaped t = some s) (hn : s'.name ∈ names) (hs' : s'.IsIn escaped t) :
    s.before.length ≤ s'.before.length := by
  induction t generalizing escaped s s' with
  | nil => simp [find?] at h
  | cons c t ih =>
      rw [find?] at h
      split at h
      · next s'' hat =>
          obtain rfl := Option.some.inj h
          split at hat
          · simp [(isIn_atName? hat).2.1]
          · simp at hat
      · next hat =>
          obtain ⟨s₀, hs₀, rfl⟩ := Option.map_eq_some_iff.1 h
          rcases hs'.eq_nil_or_behind with ⟨hb, hc⟩ | ⟨s₁, rfl, hs₁⟩
          · rw [if_pos hc] at hat
            obtain ⟨rfl, -⟩ : c = '\\' ∧ escaped = false := by simpa [escapes] using hc
            exact absurd hs' (not_isIn_of_atName?_eq_none hat hn hb escaped)
          · exact Nat.succ_le_succ (ih hs₀ hn hs₁)

/-! ### Two texts -/

section Append

variable {names : List Text} {a b : Text}

theorem after?_append_of_endsName {name : Text} (hname : ∀ c ∈ name, isLetter c = true)
    (hb : EndsName b) : after? name (a ++ b) = (after? name a).map (· ++ b) := by
  refine after?_append_of_head? (fun c hc hmem => ?_) a
  have hletter := hname c hmem
  rw [(hb c hc).1] at hletter
  cases hletter

theorem atName?_append (hnames : ∀ name ∈ names, ∀ c ∈ name, isLetter c = true)
    (hb : EndsName b) : atName? names (a ++ b) = (atName? names a).map (within [] b) := by
  induction names with
  | nil => rfl
  | cons name others ih =>
      have ih := ih fun n hn => hnames n (List.mem_cons_of_mem _ hn)
      rw [atName?, atName?, after?_append_of_endsName (hnames name List.mem_cons_self) hb]
      cases after? name a with
      | none => exact ih
      | some rest =>
          cases rest with
          | nil =>
              cases b with
              | nil => rfl
              | cons c b =>
                  obtain ⟨hl, hs⟩ := endsName_cons.1 hb
                  simp [hl, hs, within]
          | cons c rest =>
              simp only [Option.map_some, List.cons_append]
              split
              · exact ih
              · split <;> simp [within]

/-- What starts in `a` stands in `a`, when no name goes on with `b`. -/
theorem IsIn.exists_front {s : Sighting} {escaped : Bool}
    (h : s.IsIn escaped (a ++ b)) (hname : ∀ c ∈ s.name, isLetter c = true) (hb : EndsName b)
    (hlen : s.before.length < a.length) :
    ∃ s' : Sighting, s = s'.within [] b ∧ s'.IsIn escaped a := by
  obtain ⟨htext, hfresh, hends⟩ := h
  obtain ⟨before, name, starred, after⟩ := s
  simp only at hname hlen hfresh hends
  simp only [text, source, List.append_assoc, List.cons_append] at htext
  obtain ⟨z, rfl⟩ : before <+: a :=
    List.prefix_of_prefix_length_le ⟨_, htext⟩ (List.prefix_append a b) (Nat.le_of_lt hlen)
  obtain ⟨c, z, rfl⟩ : ∃ c z', z = c :: z' := by
    refine List.exists_cons_of_ne_nil ?_
    rintro rfl
    simp at hlen
  rw [List.append_assoc] at htext
  obtain ⟨rfl, hrest⟩ := List.cons.inj (List.append_cancel_left htext)
  have hafter : after? name (z ++ b) = some ((if starred then ['*'] else []) ++ after) :=
    after?_eq_some_iff.2 hrest.symm
  rw [after?_append_of_endsName hname hb] at hafter
  obtain ⟨r, hr, heq⟩ := Option.map_eq_some_iff.1 hafter
  obtain rfl : z = name ++ r := after?_eq_some_iff.1 hr
  cases starred with
  | true =>
      cases r with
      | nil =>
          rw [List.nil_append] at heq
          rw [heq] at hb
          exact absurd rfl (endsName_cons.1 hb).2
      | cons d r =>
          obtain ⟨rfl, rfl⟩ := List.cons.inj heq
          exact ⟨⟨before, name, true, r⟩, rfl, by simp [text, source], hfresh, fun hs => by simp at hs⟩
  | false =>
      obtain rfl : r ++ b = after := heq
      refine ⟨⟨before, name, false, r⟩, rfl, by simp [text, source], hfresh, fun _ => ?_⟩
      cases r with
      | nil => exact endsName_nil
      | cons d r => exact endsName_cons.2 (endsName_cons.1 (hends rfl))

/-- **Searching through two texts** that meet where no name can go on: what stands in the first one is
found there, and otherwise the second one is searched. -/
theorem find?_append (hnames : ∀ name ∈ names, ∀ c ∈ name, isLetter c = true)
    (hb : EndsName b) (escaped : Bool) :
    find? names escaped (a ++ b) =
      ((find? names escaped a).map (within [] b)).or
        ((find? names (escapedAfter escaped a) b).map (within a [])) := by
  induction a generalizing escaped with
  | nil => cases h : find? names escaped b <;> simp [find?, within, h]
  | cons c a ih =>
      have hbehind : ∀ s : Sighting, (s.within [] b).behind c = (s.behind c).within [] b :=
        fun s => rfl
      have hwithin : ∀ s : Sighting, (s.within a []).behind c = s.within (c :: a) [] :=
        fun s => rfl
      rw [List.cons_append, find?, find?, ih]
      cases hc : escapes escaped c with
      | true =>
          rw [if_pos rfl, if_pos rfl, atName?_append hnames hb]
          cases atName? names a with
          | some s => rfl
          | none => cases find? names true a <;> simp [Function.comp_def, hc, hbehind, hwithin]
      | false => cases find? names false a <;> simp [Function.comp_def, hc, hbehind, hwithin]

/-- A text without backslashes holds no sighting, and ends no escape that it does not start with. -/
theorem find?_plain_append {x : Text} (hx : '\\' ∉ x) (t : Text) :
    find? names false (x ++ t) = (find? names false t).map (within x []) := by
  induction x with
  | nil => cases h : find? names false t <;> simp [within, h]
  | cons c x ih =>
      have hc : escapes false c = false := by
        have hne : c ≠ '\\' := fun h => hx (h ▸ List.mem_cons_self)
        simp [escapes, hne]
      rw [List.cons_append, find?, hc, ih fun h => hx (List.mem_cons_of_mem c h)]
      cases find? names false t <;> simp [behind, within]

/-- What stands before the first sighting holds none, and leaves no escape open. -/
theorem find?_before {escaped : Bool} {t : Text} {s : Sighting}
    (h : find? names escaped t = some s) :
    find? names escaped s.before = none ∧ escapedAfter escaped s.before = false := by
  have hin := (isIn_find? h).2
  refine ⟨find?_eq_none_iff.2 fun s' hn hs' => ?_, hin.fresh⟩
  -- A name that ends with the text before the first sighting ends there in the whole text, too.
  have hwhole : (s'.within [] (s.source ++ s.after)).IsIn escaped t := by
    refine ⟨?_, hs'.fresh, fun hstar => ?_⟩
    · rw [← hin.text_eq]
      have htext := hs'.text_eq
      simp only [text, source_within, before_within, after_within, List.nil_append] at htext ⊢
      rw [← List.append_assoc, htext, List.append_assoc]
    · rw [after_within]
      cases hafter : s'.after with
      | nil => exact endsName_backslash _
      | cons c rest => exact endsName_cons.2 (endsName_cons.1 (hafter ▸ hs'.ends hstar))
  have hname : (s'.within [] (s.source ++ s.after)).name ∈ names := hn
  have hle := length_before_find?_le h hname hwhole
  have hlen := congrArg List.length hs'.text_eq
  simp only [text, source, before_within, List.nil_append, List.length_append,
    List.length_cons] at hle hlen
  omega

/-- **What stands in a text is found** when nothing stands before it. -/
theorem find?_of_isIn (hnames : ∀ name ∈ names, ∀ c ∈ name, isLetter c = true) {escaped : Bool} {t : Text}
    {s : Sighting} (hn : s.name ∈ names) (hin : s.IsIn escaped t) (hnone : find? names escaped s.before = none) :
    find? names escaped t = some s := by
  cases hf : find? names escaped t with
  | none => exact absurd hin (find?_eq_none_iff.1 hf s hn)
  | some s' =>
      obtain ⟨hn', hin'⟩ := isIn_find? hf
      rcases Nat.eq_or_lt_of_le (length_before_find?_le hf hn hin) with hlen | hlt
      · have hname := hin'.name_eq hin (hnames _ hn') (hnames _ hn) hlen
        rw [hin'.eq_of_length_before_eq hin hname hlen]
      · rw [hin.eq_append] at hin'
        obtain ⟨s'', rfl, hin''⟩ := hin'.exists_front (hnames _ hn') (endsName_backslash _) hlt
        exact absurd hin'' (find?_eq_none_iff.1 hnone s'' hn')

/-- The first sighting behind a text that holds none. -/
theorem find?_append_source {name a b : Text} {escaped : Bool}
    (hname : ∀ c ∈ name, isLetter c = true) (ha : find? [name] escaped a = none)
    (hfresh : escapedAfter escaped a = false) (hb : EndsName b) :
    find? [name] escaped (a ++ '\\' :: (name ++ b)) = some ⟨a, name, false, b⟩ :=
  find?_of_isIn (by simpa using hname) List.mem_cons_self ⟨by simp [text, source], hfresh, fun _ => hb⟩ ha

end Append

/-! ### Single sightings -/

/-- A sighting behind which no other is found is the only one. -/
theorem eq_of_find? {name : Text} (hslash : '\\' ∉ name) {escaped : Bool} {t : Text} {s s' : Sighting}
    (hf : find? [name] escaped t = some s)
    (hnone : find? [name] (escapedAfter escaped (s.before ++ s.source)) s.after = none)
    (hname' : s'.name = name) (hin' : s'.IsIn escaped t) : s' = s := by
  obtain ⟨hname, hin⟩ := isIn_find? hf
  obtain rfl : s.name = name := by simpa using hname
  have hle := length_before_find?_le hf (by simp [hname']) hin'
  rcases Nat.eq_or_lt_of_le hle with heq | hlt
  · exact hin'.eq_of_length_before_eq hin hname' heq.symm
  · have hbehind := hin.length_source_le hin' hslash hlt
    have htext : s.before ++ s.source ++ s.after = t := hin.text_eq
    rw [← htext] at hin'
    obtain ⟨s'', rfl, hin''⟩ := hin'.exists_within hbehind
    exact absurd hin'' (find?_eq_none_iff.1 hnone s'' (by simpa using hname'))

/-- **A name stands in a text once** exactly when it is found once. -/
theorem existsUnique_isIn_iff {name : Text} (hslash : '\\' ∉ name) {escaped : Bool} {t : Text} :
    (∃! s : Sighting, s.name = name ∧ s.IsIn escaped t) ↔
      ∃ s, find? [name] escaped t = some s ∧
        find? [name] (escapedAfter escaped (s.before ++ s.source)) s.after = none := by
  constructor
  · rintro ⟨s, ⟨hname, hin⟩, huniq⟩
    cases hf : find? [name] escaped t with
    | none => exact absurd hin (find?_eq_none_iff.1 hf s (by simp [hname]))
    | some s' =>
        obtain ⟨hname', hin'⟩ := isIn_find? hf
        obtain rfl := huniq s' ⟨by simpa using hname', hin'⟩
        refine ⟨s', rfl, find?_eq_none_iff.2 fun s'' hname'' hin'' => ?_⟩
        have htext : s'.before ++ s'.source ++ s'.after = t := hin'.text_eq
        have hwhole := hin''.within (a := s'.before ++ s'.source)
        rw [htext] at hwhole
        have heq := huniq _ ⟨by simpa using hname'', hwhole⟩
        have hlen := congrArg (fun x : Sighting => x.before.length) heq
        simp only [before_within, source, List.length_append, List.length_cons] at hlen
        omega
  · rintro ⟨s, hf, hnone⟩
    obtain ⟨hname, hin⟩ := isIn_find? hf
    refine ⟨s, ⟨by simpa using hname, hin⟩, ?_⟩
    rintro s' ⟨hname', hin'⟩
    exact eq_of_find? hslash hf hnone hname' hin'

end Sighting

end CribSheet.Markup
