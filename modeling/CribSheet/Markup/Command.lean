/-
Finding control sequences.

A control sequence is a backslash and a name.  The backslash must not itself be escaped: an odd run
of backslashes directly in front of it makes it the second half of a line break.  A scanner therefore
carries one bit about what lies behind it, whether the next character is escaped, and
`escapedAfter` says how reading a text changes that bit.

Main definitions:

* `CribSheet.Markup.escapedAfter` — the look-back bit after reading a text;
* `CribSheet.Markup.Sighting` — a control sequence with what stands before and after it;
* `CribSheet.Markup.Sighting.find?` — the first control sequence with one of some names;
* `CribSheet.Markup.findUnescaped?` — the first occurrence of a delimiter at which no escape is open.

Main results:

* `CribSheet.Markup.Sighting.text_find?` — a sighting is a way of splitting the text;
* `CribSheet.Markup.Sighting.length_after_find?` — what follows a sighting is shorter than the text.
-/
import CribSheet.Text.Blank

set_option relaxedAutoImplicit false
set_option autoImplicit false

namespace CribSheet.Markup

/-! ### Escapes -/

/-- Whether the character after `c` is escaped, from whether `c` is. -/
def escapes (escaped : Bool) (c : Char) : Bool := c == '\\' && !escaped

/-- Whether the character after `t` is escaped, from whether the first one is. -/
def escapedAfter (escaped : Bool) (t : Text) : Bool := t.foldl escapes escaped

@[simp] theorem escapedAfter_nil (escaped : Bool) : escapedAfter escaped [] = escaped := rfl

@[simp] theorem escapedAfter_cons (escaped : Bool) (c : Char) (t : Text) :
    escapedAfter escaped (c :: t) = escapedAfter (escapes escaped c) t := rfl

theorem escapedAfter_append (escaped : Bool) (t u : Text) :
    escapedAfter escaped (t ++ u) = escapedAfter (escapedAfter escaped t) u := by
  simp [escapedAfter, List.foldl_append]

/-! ### Sightings -/

/-- A control sequence in a text. -/
structure Sighting where
  /-- What was read before the backslash. -/
  before : Text
  /-- The name, without the backslash and the star. -/
  name : Text
  /-- A star follows the name directly; it belongs to the command. -/
  starred : Bool
  /-- What follows the name and the star. -/
  after : Text
deriving Repr, DecidableEq

namespace Sighting

/-- The command as it is written: backslash, name and star. -/
def source (s : Sighting) : Text := '\\' :: s.name ++ (if s.starred then ['*'] else [])

/-- The text that the sighting splits. -/
def text (s : Sighting) : Text := s.before ++ s.source ++ s.after

/-- The same sighting in a text with `c` in front. -/
def behind (c : Char) (s : Sighting) : Sighting := { s with before := c :: s.before }

@[simp] theorem text_behind (c : Char) (s : Sighting) : (s.behind c).text = c :: s.text := rfl

@[simp] theorem after_behind (c : Char) (s : Sighting) : (s.behind c).after = s.after := rfl

@[simp] theorem name_behind (c : Char) (s : Sighting) : (s.behind c).name = s.name := rfl

/-- The command at the start of the text behind a backslash: the first of the names that the text
begins with and that is not continued by another letter. -/
def atName? (names : List Text) (t : Text) : Option Sighting :=
  match names with
  | [] => none
  | name :: others =>
    match Text.after? name t with
    | none => atName? others t
    | some [] => some ⟨[], name, false, []⟩
    | some (c :: rest) =>
      if Text.isLetter c then atName? others t
      else if c = '*' then some ⟨[], name, true, rest⟩
      else some ⟨[], name, false, c :: rest⟩

/-- **The first command with one of the names**: the first backslash that is not escaped, has one of
the names behind it, and no further letter behind the name. -/
def find? (names : List Text) : (escaped : Bool) → Text → Option Sighting
  | _, [] => none
  | escaped, c :: t =>
    match if escapes escaped c then atName? names t else none with
    | some s => some s
    | none => (find? names (escapes escaped c) t).map (behind c)

theorem text_atName? {names : List Text} {t : Text} {s : Sighting} (h : atName? names t = some s) :
    s.text = '\\' :: t := by
  induction names with
  | nil => simp [atName?] at h
  | cons name others ih =>
    rw [atName?] at h
    split at h
    · exact ih h
    · next ht =>
      obtain rfl := Option.some.inj h
      simp [text, source, Text.after?_eq_some_iff.1 ht]
    · next c rest ht =>
      have ht := Text.after?_eq_some_iff.1 ht
      split at h
      · exact ih h
      · split at h
        · next hc =>
          obtain rfl := Option.some.inj h
          simp [text, source, ht, hc]
        · obtain rfl := Option.some.inj h
          simp [text, source, ht]

theorem text_find? {names : List Text} {escaped : Bool} {t : Text} {s : Sighting}
    (h : find? names escaped t = some s) : s.text = t := by
  induction t generalizing escaped s with
  | nil => simp [find?] at h
  | cons c t ih =>
    rw [find?] at h
    split at h
    · next s' hs =>
      obtain rfl := Option.some.inj h
      split at hs
      · next hc =>
        have hc : c = '\\' := by simp [escapes] at hc; exact hc.1
        rw [text_atName? hs, hc]
      · simp at hs
    · obtain ⟨s', hs, rfl⟩ := Option.map_eq_some_iff.1 h
      simp [ih hs]

theorem length_after_lt_text (s : Sighting) : s.after.length < s.text.length := by
  simp only [text, source, List.length_append, List.length_cons]
  omega

theorem length_after_find? {names : List Text} {escaped : Bool} {t : Text} {s : Sighting}
    (h : find? names escaped t = some s) : s.after.length < t.length :=
  text_find? h ▸ s.length_after_lt_text

end Sighting

/-! ### Delimiters -/

/-- What stands before and after the first occurrence of `delimiter` that is not escaped.  A backslash
consumes the character after it, so `\$` is no dollar and `\\]` holds no `\]`. -/
def findUnescaped? (delimiter : Text) : Text → Option (Text × Text)
  | [] => none
  | c :: t =>
    match Text.after? delimiter (c :: t) with
    | some rest => some ([], rest)
    | none =>
      if c = '\\' then
        match t with
        | [] => none
        | d :: t' => (findUnescaped? delimiter t').map fun (inner, rest) => (c :: d :: inner, rest)
      else (findUnescaped? delimiter t).map fun (inner, rest) => (c :: inner, rest)

theorem findUnescaped?_eq_append {delimiter : Text} (t : Text) {inner rest : Text}
    (h : findUnescaped? delimiter t = some (inner, rest)) : t = inner ++ delimiter ++ rest := by
  fun_induction findUnescaped? delimiter t generalizing inner with
  | case1 => simp at h
  | case2 c t rest' hr =>
    obtain ⟨rfl, rfl⟩ := Prod.mk.inj (Option.some.inj h)
    simpa using Text.after?_eq_some_iff.1 hr
  | case3 => simp at h
  | case4 d t' _ ih =>
    obtain ⟨⟨i, r⟩, hi, hir⟩ := Option.map_eq_some_iff.1 h
    obtain ⟨rfl, rfl⟩ := Prod.mk.inj hir
    simp [ih hi]
  | case5 c t _ _ ih =>
    obtain ⟨⟨i, r⟩, hi, hir⟩ := Option.map_eq_some_iff.1 h
    obtain ⟨rfl, rfl⟩ := Prod.mk.inj hir
    simp [ih hi]

end CribSheet.Markup
