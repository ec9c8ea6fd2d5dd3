/-
Options of an environment, and the title among them.

Options stand in brackets at the start of the content and are separated by commas.  The title of a box
is the value of its option `title`; braces around the value keep its commas together and are not shown.

Main definitions:

* `CribSheet.EnvironmentContent.ofText` — the content without its options;
* `CribSheet.calloutTitle?` — the title among the options of a box.
-/
import CribSheet.Markup.Group

set_option relaxedAutoImplicit false
set_option autoImplicit false

namespace CribSheet

open CribSheet.Markup

/-! ### Options -/

/-- The content of an environment. -/
structure EnvironmentContent where
  /-- What stands in the brackets at its start, if there are any. -/
  options : Option Text
  /-- Everything else. -/
  body : Text
deriving Repr, DecidableEq

namespace EnvironmentContent

/-- The options are the balanced bracket group on the first line; without one everything is body. -/
def ofText (content : Text) : EnvironmentContent :=
  match Group.readBracket? (content.dropWhile isGap) with
  | some g => ⟨some g.inner, g.after⟩
  | none => ⟨none, content⟩

theorem length_body_ofText_le (content : Text) : (ofText content).body.length ≤ content.length := by
  unfold ofText
  split
  · next g hg =>
    have := Group.length_after_read? (Option.filter_eq_some_iff.1 hg).1
    have := (List.dropWhile_suffix (l := content) isGap).length_le
    simp only
    omega
  · exact Nat.le_refl _

end EnvironmentContent

/-! ### Titles -/

/-- The value of an option, from what follows its equals sign: it ends at the first comma outside of
braces.  `depth` braces are open; one that closes nothing does not count. -/
def optionValue (depth : Nat) : Text → Text
  | [] => []
  | c :: t =>
    if c = '{' then c :: optionValue (depth + 1) t
    else if c = '}' then c :: optionValue (depth - 1) t
    else if c = ',' ∧ depth = 0 then []
    else c :: optionValue depth t

/-- The text without a brace at both ends. -/
def dropBraces (t : Text) : Text :=
  match t with
  | '{' :: inner => if inner.getLast? = some '}' then inner.dropLast else t
  | t => t

/-- What follows the first `title=` that starts an option: nothing, a comma or a blank stands before
it.  `starts` says whether an option may start here. -/
def afterTitleKey? : (starts : Bool) → Text → Option Text
  | _, [] => none
  | starts, c :: t =>
    match if starts then Text.after? ['t', 'i', 't', 'l', 'e', '='] (c :: t) else none with
    | some rest => some rest
    | none => afterTitleKey? (c == ',' || isBlank c) t

/-- **The title** among the options of a box, unless it is empty. -/
def calloutTitle? (options : Text) : Option Text :=
  (afterTitleKey? true options).bind fun rest =>
    let title := Text.trim (dropBraces (Text.trim (optionValue 0 rest)))
    if title = [] then none else some title

end CribSheet
