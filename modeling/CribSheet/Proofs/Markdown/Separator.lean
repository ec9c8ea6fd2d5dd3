/-
Separators in a page.

A page is read here as a row of characters and separators.  A separator whose two line breaks follow directly
is taken out of the page; one that has something else behind its line break stays.  This reading is safe as
long as no characters begin a comment and no separator comes in while they might: then the separators of the
reading are the only ones that the text holds, before and after some are taken out.

Main definitions:

* `CribSheet.Markdown.Opening` — how much of the start of a comment stands at the end of a text;
* `CribSheet.Markdown.Glyph` — a character, or a separator with what follows it;
* `CribSheet.Markdown.Opening.reads` — reading a row of glyphs.

Main results:

* `CribSheet.Markdown.Opening.isInfix_of_after` — what begins a comment holds the start of one;
* `CribSheet.Markdown.removeSeparators_spell` — which separators are taken out;
* `CribSheet.Markdown.separator_isInfix_removeSeparators_iff` — which ones stay.
-/
import CribSheet.Proofs.Markdown.Trail
import CribSheet.Proofs.Text.Occurrence

set_option relaxedAutoImplicit false
set_option autoImplicit false

namespace CribSheet.Markdown

open CribSheet.Text

/-! ### The start of a comment -/

/-- What starts a comment. -/
def commentStart : Text := ['<', '!', '-', '-']

/-- How much of the start of a comment stands at the end of a text. -/
inductive Opening
  /-- Nothing of it. -/
  | clear
  /-- The end is `<`. -/
  | angle
  /-- The end is `<!`. -/
  | bang
  /-- The end is `<!-`. -/
  | dash
  /-- A comment has begun. -/
  | comment
deriving DecidableEq

namespace Opening

/-- The opening behind one more character. -/
def next : Opening → Char → Opening
  | comment, _ => comment
  | dash, c => if c = '-' then comment else if c = '<' then angle else clear
  | bang, c => if c = '-' then dash else if c = '<' then angle else clear
  | angle, c => if c = '!' then bang else if c = '<' then angle else clear
  | clear, c => if c = '<' then angle else clear

/-- The opening behind a text. -/
def after (s : Opening) (t : Text) : Opening := t.foldl next s

@[simp] theorem after_nil (s : Opening) : s.after [] = s := rfl

@[simp] theorem after_cons (s : Opening) (c : Char) (t : Text) : s.after (c :: t) = (s.next c).after t := rfl

theorem after_append (s : Opening) (t u : Text) : s.after (t ++ u) = (s.after t).after u := List.foldl_append

@[simp] theorem after_comment (t : Text) : comment.after t = comment := by
  induction t with
  | nil => rfl
  | cons c t ih => exact ih

theorem next_angle {s : Opening} (hs : s ≠ comment) : s.next '<' = angle := by
  cases s <;> simp_all [next]

/-- Most characters clear the end. -/
theorem next_clear {s : Opening} (hs : s ≠ comment) {c : Char} (hc : c ∉ ['<', '!', '-']) : s.next c = clear := by
  simp only [List.mem_cons, List.not_mem_nil, or_false, not_or] at hc
  cases s <;> simp_all [next]

/-- Neither a part of the start of a comment stands at the end nor a whole one, its angle bracket apart. -/
def Free (s : Opening) : Prop := s = clear ∨ s = angle

theorem Free.ne_comment {s : Opening} (hs : s.Free) : s ≠ comment := by
  rcases hs with rfl | rfl <;> simp

/-- Behind a free end nothing but an exclamation mark goes on as the start of a comment. -/
theorem Free.next {s : Opening} (hs : s.Free) {c : Char} (hc : c ≠ '!') : (s.next c).Free := by
  rcases hs with rfl | rfl <;> by_cases hangle : c = '<' <;> simp [Opening.next, Free, hc, hangle]

theorem Free.next_clear {s : Opening} (hs : s.Free) {c : Char} (hc : c ≠ '!') (hangle : c ≠ '<') :
    s.next c = clear := by
  rcases hs with rfl | rfl <;> simp [Opening.next, hc, hangle]

/-- The part of the start of a comment that stands at the end. -/
def begun : Opening → Text
  | clear => []
  | angle => ['<']
  | bang => ['<', '!']
  | dash => ['<', '!', '-']
  | comment => commentStart

/-- One more character keeps what is needed of the end. -/
theorem begun_next_isSuffix {s : Opening} (hs : s ≠ comment) (c : Char) : (s.next c).begun <:+ s.begun ++ [c] := by
  cases s with
  | comment => exact absurd rfl hs
  | clear | angle | bang | dash =>
      -- Only these three characters go on.
      by_cases hbang : c = '!'
      · subst hbang
        decide
      by_cases hdash : c = '-'
      · subst hdash
        decide
      by_cases hangle : c = '<'
      · subst hangle
        decide
      simp [next, hbang, hdash, hangle, begun]

/-- **What begins a comment holds the start of one.** -/
theorem isInfix_of_after {s : Opening} {t : Text} (h : s.after t = comment) : commentStart <:+: s.begun ++ t := by
  induction t generalizing s with
  | nil =>
      obtain rfl : s = comment := h
      exact List.infix_append_of_infix_left List.infix_rfl
  | cons c t ih =>
      by_cases hs : s = comment
      · subst hs
        exact List.infix_append_of_infix_left List.infix_rfl
      · obtain ⟨front, hfront⟩ := begun_next_isSuffix hs c
        have hsplit : s.begun ++ c :: t = front ++ ((s.next c).begun ++ t) := by
          rw [← List.append_assoc, hfront]
          simp
        rw [hsplit]
        exact List.infix_append_of_infix_right (ih h)

/-- The start of a comment begins one. -/
theorem after_of_isInfix {s : Opening} {t : Text} (h : commentStart <:+: t) : s.after t = comment := by
  obtain ⟨a, b, rfl⟩ := h
  have hstart : ∀ s : Opening, s.after commentStart = comment := by
    intro s
    cases s <;> decide
  rw [after_append, after_append, hstart, after_comment]

end Opening

/-! ### Rows of glyphs -/

/-- A piece of a page. -/
inductive Glyph
  /-- A character. -/
  | char (c : Char)
  /-- A separator with two line breaks right behind it. -/
  | lost
  /-- A separator, a line break, and the character that starts the next line. -/
  | kept (c : Char)
deriving DecidableEq

namespace Glyph

/-- The glyph as it is written. -/
def source : Glyph → Text
  | char c => [c]
  | lost => separatorLine
  | kept c => listSeparator ++ ['\n', c]

/-- The glyph is taken out of the page. -/
def isLost : Glyph → Bool
  | lost => true
  | _ => false

end Glyph

/-- The text of a row of glyphs. -/
def spell (gs : List Glyph) : Text := gs.flatMap Glyph.source

@[simp] theorem spell_nil : spell [] = [] := rfl

@[simp] theorem spell_cons (g : Glyph) (gs : List Glyph) : spell (g :: gs) = g.source ++ spell gs := rfl

theorem spell_append (gs gs' : List Glyph) : spell (gs ++ gs') = spell gs ++ spell gs' := List.flatMap_append

theorem spell_chars (t : Text) : spell (t.map .char) = t := by
  induction t with
  | nil => rfl
  | cons c t ih => rw [List.map_cons, spell_cons, ih]; rfl

namespace Opening

/-- The opening behind one more glyph: a separator comes in at a clear end only, and what follows a
separator that stays is no line break. -/
def nextGlyph (s : Opening) : Glyph → Opening
  | .char c => s.next c
  | .lost => if s = clear then clear else comment
  | .kept c => if s = clear ∧ c ≠ '\n' then clear.next c else comment

/-- The opening behind a row of glyphs. -/
def reads (s : Opening) (gs : List Glyph) : Opening := gs.foldl nextGlyph s

@[simp] theorem reads_nil (s : Opening) : s.reads [] = s := rfl

@[simp] theorem reads_cons (s : Opening) (g : Glyph) (gs : List Glyph) :
    s.reads (g :: gs) = (s.nextGlyph g).reads gs := rfl

theorem reads_append (s : Opening) (gs gs' : List Glyph) : s.reads (gs ++ gs') = (s.reads gs).reads gs' :=
  List.foldl_append

@[simp] theorem reads_comment (gs : List Glyph) : comment.reads gs = comment := by
  induction gs with
  | nil => rfl
  | cons g gs ih =>
      have hnext : comment.nextGlyph g = comment := by cases g <;> simp [nextGlyph, next]
      rw [reads_cons, hnext, ih]

theorem reads_chars (s : Opening) (t : Text) : s.reads (t.map .char) = s.after t := by
  induction t generalizing s with
  | nil => rfl
  | cons c t ih => exact ih _

/-- What does not start as a separator does is spelled by characters. -/
theorem exists_of_isPrefix_spell {x : Text} {gs : List Glyph} (hx : '<' ∉ x) (h : x <+: spell gs) :
    ∃ gs', gs = x.map .char ++ gs' := by
  induction x generalizing gs with
  | nil => exact ⟨gs, rfl⟩
  | cons c x ih =>
      obtain ⟨hc, hx⟩ := not_or.1 (mt List.mem_cons.2 hx)
      cases gs with
      | nil => exact absurd h (by simp)
      | cons g gs =>
          cases g with
          | char d =>
              obtain ⟨rfl, hrest⟩ := List.cons_prefix_cons.1 h
              obtain ⟨gs', rfl⟩ := ih hx hrest
              exact ⟨gs', rfl⟩
          | lost | kept => exact absurd (List.cons_prefix_cons.1 h).1.symm hc

variable {s : Opening} {c : Char} {gs : List Glyph}

/-- **No comment starts at a character.** -/
theorem not_isPrefix_of_reads (h : s.reads (.char c :: gs) ≠ comment) : ¬ commentStart <+: c :: spell gs := by
  intro hstart
  obtain ⟨rfl, hrest⟩ := List.cons_prefix_cons.1 hstart
  obtain ⟨gs', rfl⟩ := exists_of_isPrefix_spell (by decide) hrest
  have hbegins : s.after ['<', '!', '-', '-'] = comment := after_of_isInfix List.infix_rfl
  rw [← List.cons_append, ← List.map_cons, reads_append, reads_chars, hbegins, reads_comment] at h
  exact h rfl

end Opening

/-! ### Taking separators out -/

section Removal

open Opening

variable {s : Opening} {gs : List Glyph}

theorem commentStart_isPrefix_listSeparator : commentStart <+: listSeparator := by decide

theorem separatorLine_ne_nil : separatorLine ≠ [] := by decide

theorem listSeparator_eq_cons : listSeparator = '<' :: listSeparator.tail := by decide

theorem angle_not_mem_tail_listSeparator : '<' ∉ listSeparator.tail := by decide

/-- A character stays. -/
theorem removeSeparators_char {c : Char} (h : s.reads (.char c :: gs) ≠ comment) :
    replaceAll separatorLine [] (c :: spell gs) = c :: replaceAll separatorLine [] (spell gs) := by
  refine replaceAll_cons separatorLine_ne_nil fun hseparator => not_isPrefix_of_reads h ?_
  exact (commentStart_isPrefix_listSeparator.trans (List.prefix_append ..)).trans hseparator

/-- Text in which no separator starts stays. -/
theorem removeSeparators_append {x : Text} (hx : '<' ∉ x) (t : Text) :
    replaceAll separatorLine [] (x ++ t) = x ++ replaceAll separatorLine [] t := by
  induction x with
  | nil => rfl
  | cons c x ih =>
      obtain ⟨hc, hx⟩ := not_or.1 (mt List.mem_cons.2 hx)
      have hstart : ¬ separatorLine <+: c :: (x ++ t) := by
        rw [separatorLine, listSeparator_eq_cons]
        exact fun hseparator => hc (List.cons_prefix_cons.1 hseparator).1
      rw [List.cons_append, replaceAll_cons separatorLine_ne_nil hstart, ih hx, List.cons_append]

/-- A separator that is followed by something else than two line breaks stays. -/
theorem removeSeparators_kept {c : Char} (hc : c ≠ '\n') (h : clear.reads (.char c :: gs) ≠ comment) :
    replaceAll separatorLine [] (Glyph.source (.kept c) ++ spell gs) =
      Glyph.source (.kept c) ++ replaceAll separatorLine [] (spell gs) := by
  have hstays : ¬ separatorLine <+: Glyph.source (.kept c) ++ spell gs := by
    rw [Glyph.source, separatorLine, List.append_assoc, List.prefix_append_right_inj]
    exact fun hbreaks => hc (List.cons_prefix_cons.1 (List.cons_prefix_cons.1 hbreaks).2).1.symm
  have hsource : ∀ t, Glyph.source (.kept c) ++ t = '<' :: (listSeparator.tail ++ ['\n'] ++ c :: t) := by
    intro t
    rw [Glyph.source]
    conv => lhs; rw [listSeparator_eq_cons]
    simp
  have hplain : '<' ∉ listSeparator.tail ++ ['\n'] := by
    rw [List.mem_append, not_or]
    exact ⟨angle_not_mem_tail_listSeparator, by decide⟩
  rw [hsource] at hstays
  rw [hsource, hsource, replaceAll_cons separatorLine_ne_nil hstays, removeSeparators_append hplain,
    removeSeparators_char h]

/-- **The separators with two line breaks behind them are taken out**, and nothing else. -/
theorem removeSeparators_spell (h : s.reads gs ≠ comment) :
    replaceAll separatorLine [] (spell gs) = spell (gs.filter fun g => !g.isLost) := by
  induction gs generalizing s with
  | nil => exact replaceAll_eq_self (by decide)
  | cons g gs ih =>
      cases g with
      | char c =>
          have hrest := ih h
          rw [spell_cons, List.filter_cons_of_pos rfl, spell_cons, ← hrest]
          exact removeSeparators_char h
      | lost =>
          rw [spell_cons, Glyph.source, replaceAll_append_self separatorLine_ne_nil, List.nil_append,
            List.filter_cons_of_neg (by simp [Glyph.isLost])]
          exact ih h
      | kept c =>
          rw [reads_cons, nextGlyph] at h
          obtain ⟨rfl, hc⟩ : s = clear ∧ c ≠ '\n' := by
            by_contra hbad
            rw [if_neg hbad, reads_comment] at h
            exact h rfl
          rw [if_pos ⟨rfl, hc⟩] at h
          rw [spell_cons, List.filter_cons_of_pos rfl, spell_cons, ← ih h]
          exact removeSeparators_kept hc h

/-- Taking separators out leaves the end as it was. -/
theorem reads_filter (h : s.reads gs ≠ comment) : s.reads (gs.filter fun g => !g.isLost) = s.reads gs := by
  induction gs generalizing s with
  | nil => rfl
  | cons g gs ih =>
      cases g with
      | char c | kept c => exact ih h
      | lost =>
          rw [List.filter_cons_of_neg (by simp [Glyph.isLost])]
          rw [reads_cons, nextGlyph] at h ⊢
          by_cases hs : s = clear
          · rw [if_pos hs] at h ⊢
            rw [hs]
            exact ih h
          · rw [if_neg hs, reads_comment] at h
            exact absurd rfl h

/-- A row that loses nothing shows the separators that stay. -/
theorem separator_isInfix_spell_iff (h : s.reads gs ≠ comment) (hlost : .lost ∉ gs) :
    listSeparator <:+: spell gs ↔ ∃ c, .kept c ∈ gs := by
  constructor
  · intro hseparator
    induction gs generalizing s with
    | nil => exact absurd hseparator (by decide)
    | cons g gs ih =>
        obtain ⟨hg, hgs⟩ := not_or.1 (mt List.mem_cons.2 hlost)
        cases g with
        | lost => exact absurd rfl hg
        | kept c => exact ⟨c, List.mem_cons_self⟩
        | char c =>
            rcases List.infix_cons_iff.1 hseparator with hprefix | hrest
            · exact absurd (commentStart_isPrefix_listSeparator.trans hprefix) (not_isPrefix_of_reads h)
            · obtain ⟨d, hd⟩ := ih h hgs hrest
              exact ⟨d, List.mem_cons_of_mem _ hd⟩
  · rintro ⟨c, hc⟩
    obtain ⟨front, back, rfl⟩ := List.append_of_mem hc
    rw [spell_append, spell_cons]
    exact List.infix_append_of_infix_right
      (List.infix_append_of_infix_left (List.prefix_append listSeparator ['\n', c]).isInfix)

/-- **The separators that stay** are those that are followed by something else than two line breaks. -/
theorem separator_isInfix_removeSeparators_iff (h : s.reads gs ≠ comment) :
    listSeparator <:+: replaceAll separatorLine [] (spell gs) ↔ ∃ c, .kept c ∈ gs := by
  rw [removeSeparators_spell h, separator_isInfix_spell_iff (s := s) (by rwa [reads_filter h])]
  · simp [List.mem_filter, Glyph.isLost]
  · simp [List.mem_filter, Glyph.isLost]

end Removal

end CribSheet.Markdown
