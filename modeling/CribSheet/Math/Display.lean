/-
Display mathematics on lines of its own.

A display region is `\[..\]` or `$$..$$`, found by a scan that also steps over inline formulas and
escaped characters.  Isolation puts the delimiters and the trimmed content of each region on their own
lines.  It changes nothing in a text with a region that never closes.

Main definitions:

* `CribSheet.DisplayRegion` — a region with what stands before it;
* `CribSheet.DisplayRegion.scan?` — all regions of a text, in order;
* `CribSheet.isolateDisplayMath` — the isolation.

Main results:

* `CribSheet.DisplayRegion.scan?_append` — the scan splits the text.
-/
import CribSheet.Markup.Command

set_option relaxedAutoImplicit false
set_option autoImplicit false

namespace CribSheet

open CribSheet.Markup

/-- A region of display mathematics in a text. -/
structure DisplayRegion where
  /-- What stands between the last region and this one. -/
  before : Text
  /-- The opening delimiter. -/
  opening : Text
  /-- What stands between the delimiters. -/
  content : Text
  /-- The closing delimiter. -/
  closing : Text
deriving Repr, DecidableEq

namespace DisplayRegion

/-- The region as it is written, with what stands before it. -/
def source (r : DisplayRegion) : Text := r.before ++ r.opening ++ r.content ++ r.closing

/-- The regions of a text with `t` in front. -/
def behind (t : Text) : List DisplayRegion × Text → List DisplayRegion × Text
  | ([], rest) => ([], t ++ rest)
  | (r :: regions, rest) => ({ r with before := t ++ r.before } :: regions, rest)

/-- The regions of a text with the region `r` in front. -/
def cons (r : DisplayRegion) (found : List DisplayRegion × Text) : List DisplayRegion × Text :=
  (r :: found.1, found.2)

theorem behind_append (t : Text) (found : List DisplayRegion × Text) :
    (behind t found).1.flatMap source ++ (behind t found).2 =
      t ++ (found.1.flatMap source ++ found.2) := by
  obtain ⟨regions, rest⟩ := found
  cases regions <;> simp [behind, source]

theorem length_lt_of_findUnescaped? {delimiter t inner rest : Text}
    (h : findUnescaped? delimiter t = some (inner, rest)) : rest.length ≤ t.length := by
  rw [findUnescaped?_eq_append t h]
  simp only [List.length_append]
  omega

/-- **All display regions of a text**, in order, and what follows the last one; nothing when one of them
never closes. -/
def scan? : Text → Option (List DisplayRegion × Text)
  | [] => some ([], [])
  | c :: t =>
    if c = '\\' then
      match t with
      | [] => some ([], [c])
      | d :: t' =>
        if d = '[' then
          match _h : findUnescaped? ['\\', ']'] t' with
          | some (content, rest) =>
            have := length_lt_of_findUnescaped? _h
            (scan? rest).map (cons ⟨[], [c, d], content, ['\\', ']']⟩)
          | none => none
        else if d = '(' then
          match _h : findUnescaped? ['\\', ')'] t' with
          | some (inner, rest) =>
            have := length_lt_of_findUnescaped? _h
            (scan? rest).map (behind ([c, d] ++ inner ++ ['\\', ')']))
          | none => (scan? t').map (behind [c, d])
        else (scan? t').map (behind [c, d])
    else if c = '$' then
      match t with
      | '$' :: t' =>
        match _h : findUnescaped? ['$', '$'] t' with
        | some (content, rest) =>
          have := length_lt_of_findUnescaped? _h
          (scan? rest).map (cons ⟨[], ['$', '$'], content, ['$', '$']⟩)
        | none => none
      | t =>
        match _h : findUnescaped? ['$'] t with
        | some (inner, rest) =>
          have := length_lt_of_findUnescaped? _h
          (scan? rest).map (behind ([c] ++ inner ++ ['$']))
        | none => (scan? t).map (behind [c])
    else (scan? t).map (behind [c])
termination_by t => t.length
decreasing_by all_goals simp only [List.length_cons]; omega

theorem scan?_append (t : Text) {found : List DisplayRegion × Text} (h : scan? t = some found) :
    found.1.flatMap source ++ found.2 = t := by
  fun_induction scan? t generalizing found with
  | case1 | case2 =>
    obtain rfl := Option.some.inj h
    simp_all
  | case4 | case9 => simp at h
  | case3 | case8 =>
    rename_i ih
    obtain ⟨found', hf, rfl⟩ := Option.map_eq_some_iff.1 h
    simp [cons, source, ih hf, findUnescaped?_eq_append _ ‹findUnescaped? _ _ = _›, *]
  | case5 | case10 =>
    rename_i ih
    obtain ⟨found', hf, rfl⟩ := Option.map_eq_some_iff.1 h
    simp [behind_append, ih hf, findUnescaped?_eq_append _ ‹findUnescaped? _ _ = _›, *]
  | case6 | case7 | case11 | case12 =>
    rename_i ih
    obtain ⟨found', hf, rfl⟩ := Option.map_eq_some_iff.1 h
    simp [behind_append, ih hf]

/-- What follows a region, without the rest of the line when that is blank. -/
def dropLineRest (t : Text) : Text :=
  match t.dropWhile isGap with
  | '\n' :: rest => rest
  | rest => rest

/-- The region on lines of its own, with `before` in front. -/
def isolated (before : Text) (r : DisplayRegion) : Text :=
  let before := before.dropEndWhile isGap
  let lineBreak := if before = [] ∨ before.endsWith (· == '\n') then [] else ['\n']
  before ++ lineBreak ++ r.opening ++ '\n' :: r.content.trim ++ '\n' :: r.closing ++ ['\n']

end DisplayRegion

/-- **The text with its display regions on lines of their own.** -/
def isolateDisplayMath (t : Text) : Text :=
  match DisplayRegion.scan? t with
  | none => t
  | some ([], _) => t
  | some (first :: regions, rest) =>
    first.isolated first.before ++
      regions.flatMap (fun r => r.isolated (DisplayRegion.dropLineRest r.before)) ++
      DisplayRegion.dropLineRest rest

end CribSheet
