/-
Differentials of integrals.

The span of an integral runs from its operator to the end of its formula or line.  A span without
anything that looks like a differential is given `\,d` and the configured variable, behind its last
character that is not blank.  The bound variable is never guessed.

Main definitions:

* `CribSheet.Integral` — an integral in a text: operator and span;
* `CribSheet.Integral.scan` — all integrals of a text, in order;
* `CribSheet.hasDifferential` — a differential occurs in a span;
* `CribSheet.ensureDifferential` — the repair.

Main results:

* `CribSheet.Integral.scan_append` — the scan splits the text.
-/
import CribSheet.Markup.Command

set_option relaxedAutoImplicit false
set_option autoImplicit false

namespace CribSheet

open CribSheet.Markup

/-! ### Spans -/

/-- The names of the integral operators. -/
def integralNames : List Text :=
  [['i', 'n', 't'], ['i', 'i', 'n', 't'], ['i', 'i', 'i', 'n', 't'], ['o', 'i', 'n', 't']]

/-- What starts the command that closes an environment, without its backslash. -/
def endBrace : Text := ['e', 'n', 'd', '{']

/-- The text up to the end of its formula or line, and the rest: a line break, a dollar, a closing
`\]` or `\)`, a line break command, or the end of an environment. -/
def formulaSpan : Text → Text × Text
  | [] => ([], [])
  | c :: t =>
    if c = '\n' ∨ c = '$' then ([], c :: t)
    else if c = '\\' then
      match t with
      | [] => ([c], [])
      | d :: t' =>
        if d = ']' ∨ d = ')' ∨ d = '\\' ∨ Text.startsWith endBrace (d :: t') then ([], c :: d :: t')
        else (c :: d :: (formulaSpan t').1, (formulaSpan t').2)
    else (c :: (formulaSpan t).1, (formulaSpan t).2)

theorem formulaSpan_append (t : Text) : (formulaSpan t).1 ++ (formulaSpan t).2 = t := by
  fun_induction formulaSpan t <;> simp_all

theorem length_formulaSpan_le (t : Text) : (formulaSpan t).2.length ≤ t.length := by
  have h := congrArg List.length (formulaSpan_append t)
  rw [List.length_append] at h
  omega

/-- An integral in a text. -/
structure Integral where
  /-- What stands between the last span and the operator. -/
  before : Text
  /-- The operator as it is written. -/
  operator : Text
  /-- What follows the operator, to the end of its formula or line. -/
  span : Text
deriving Repr, DecidableEq

namespace Integral

/-- The integral as it is written, with what stands before it. -/
def source (i : Integral) : Text := i.before ++ i.operator ++ i.span

/-- **All integrals of a text**, in order, and what follows the last one.  `escaped` says whether the
first character is escaped.  An operator inside the span of another one starts no span of its own. -/
def scan (escaped : Bool) (t : Text) : List Integral × Text :=
  match h : Sighting.find? integralNames escaped t with
  | none => ([], t)
  | some s =>
    have : (formulaSpan s.after).2.length < t.length :=
      Nat.lt_of_le_of_lt (length_formulaSpan_le _) (Sighting.length_after_find? h)
    let integral : Integral := ⟨s.before, s.source, (formulaSpan s.after).1⟩
    let (more, rest) := scan (escapedAfter escaped integral.source) (formulaSpan s.after).2
    (integral :: more, rest)
termination_by t.length

theorem scan_append (escaped : Bool) (t : Text) :
    (scan escaped t).1.flatMap source ++ (scan escaped t).2 = t := by
  fun_induction scan escaped t with
  | case1 => simp
  | case2 escaped t s h _ _ more rest heq ih =>
    rw [heq] at ih
    simp only [List.flatMap_cons, List.append_assoc, ih]
    conv => rhs; rw [← Sighting.text_find? h, Sighting.text, ← formulaSpan_append s.after]
    simp only [source, List.append_assoc]
    rfl

end Integral

/-! ### Differentials -/

/-- The text starts with a letter or a control word. -/
def startsVariable : Text → Bool
  | '\\' :: c :: _ => Text.isLetter c
  | c :: _ => Text.isLetter c
  | [] => false

/-- The upright letter of a differential, as a command. -/
def uprightD : Text := ['\\', 'm', 'a', 't', 'h', 'r', 'm', '{', 'd', '}']

/-- A differential starts here: a `d` with a variable behind it that ends no word and no command, or an
upright `d` with a variable behind it.  `last` is the character before. -/
def startsDifferential (last : Option Char) (t : Text) : Bool :=
  (match t with
    | 'd' :: rest => !last.any (fun c => Text.isLetter c || c == '\\') && startsVariable rest
    | _ => false) ||
  (match Text.after? uprightD t with
    | some rest => startsVariable rest.trimStart
    | none => false)

/-- A differential occurs in the text. -/
def hasDifferentialAfter (last : Option Char) : Text → Bool
  | [] => false
  | c :: t => startsDifferential last (c :: t) || hasDifferentialAfter (some c) t

/-- A differential occurs in the span. -/
def hasDifferential (span : Text) : Bool := hasDifferentialAfter none span

/-! ### The repair -/

/-- The differential of a variable, with the thin space before it. -/
def differential (variableName : Text) : Text := '\\' :: ',' :: 'd' :: variableName

/-- The integral with a differential. -/
def Integral.repaired (variableName : Text) (i : Integral) : Text :=
  if hasDifferential i.span then i.source
  else
    i.before ++ i.operator ++ i.span.trimEnd ++ differential variableName ++
      i.span.takeEndWhile isBlank

/-- **The text with a differential in every integral.** -/
def ensureDifferential (variableName t : Text) : Text :=
  let (integrals, rest) := Integral.scan false t
  integrals.flatMap (Integral.repaired variableName) ++ rest

end CribSheet
