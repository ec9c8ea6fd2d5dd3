/-
The identity of a sheet: one title, one `\maketitle`, one attribution.

Whatever the payload says about its title, a sheet carries the title that its topic asks for, exactly
once, and the attribution in front of the closing root marker.  Both steps leave a sheet alone that
already has what they bring.

Main definitions:

* `CribSheet.Identity` — the settings, and the texts that they make;
* `CribSheet.Identity.titleFinder` — marks the next title directive of a text;
* `CribSheet.Identity.placeTitle` — the text around the one title;
* `CribSheet.Identity.enforceTitle`, `CribSheet.Identity.injectFooter` — the two steps.
-/
import CribSheet.Markup.Removal
import CribSheet.Sheet.Document

set_option relaxedAutoImplicit false
set_option autoImplicit false

namespace CribSheet

open CribSheet.Markup

/-- What a sheet says about itself. -/
structure Identity where
  /-- What the title says before the topic. -/
  titlePrefix : Text := "Sheet Cheat".toList
  /-- The topic of a sheet whose topic is blank. -/
  defaultTopic : Text := "Tema".toList
  /-- The line in small print at the end of the sheet. -/
  attribution : Text := "Generado con Sheet Cheat".toList
deriving Repr, DecidableEq

namespace Identity

/-- The name of the command that sets the title. -/
def titleName : Text := ['t', 'i', 't', 'l', 'e']

/-- The name of the command that prints the title. -/
def maketitleName : Text := ['m', 'a', 'k', 'e', 't', 'i', 't', 'l', 'e']

/-- The command that prints the title. -/
def maketitle : Text := '\\' :: maketitleName

/-- The title: what comes before the topic, a colon, and the trimmed topic. -/
def titlePayload (identity : Identity) (topic : Text) : Text :=
  let shown := if topic.trim = [] then identity.defaultTopic.trim else topic.trim
  identity.titlePrefix ++ ':' :: ' ' :: shown

/-- The directive that sets the title. -/
def titleDirective (identity : Identity) (topic : Text) : Text :=
  '\\' :: titleName ++ '{' :: identity.titlePayload topic ++ ['}']

/-- The attribution, as it is set at the end of the sheet. -/
def footer (identity : Identity) : Text :=
  "\n\\vspace\x7b1em\x7d\n\\begin\x7bcenter\x7d\\scriptsize ".toList ++ identity.attribution ++
    "\\end\x7bcenter\x7d\n".toList

/-! ### Titles in a text -/

/-- The arguments of a title command and what follows them: an optional bracket group and a brace
group.  A brace group that never closes runs to the end of its line; without a brace the command stands
alone. -/
def titleArguments (t : Text) : Text × Text :=
  let (space, rest) := argumentSpace t
  let (lead, rest) :=
    match Group.readBracket? rest with
    | some g => (space ++ g.source ++ (argumentSpace g.after).1, (argumentSpace g.after).2)
    | none => (space, rest)
  if rest.head? = some '{' then
    match Group.read? rest with
    | some g => (lead ++ g.source, g.after)
    | none => (lead ++ rest.firstLine.1, rest.firstLine.2)
  else ([], t)

/-- Marks the next title directive with its arguments. -/
def titleFinder : Finder := fun escaped t =>
  (Sighting.find? [titleName] escaped t).map fun s =>
    ⟨s.before, s.source ++ (titleArguments s.after).1, (titleArguments s.after).2⟩

/-! ### The title -/

/-- A text with a place for the title in it. -/
structure TitlePlace where
  /-- What stands before the title. -/
  before : Text
  /-- What stands after the title. -/
  after : Text
deriving Repr, DecidableEq

/-- The command with an empty argument, on a line of its own, unless the text has that command. -/
def emptyUnlessGiven (name t : Text) : Text :=
  if (Sighting.find? [name] false t).isSome then []
  else '\\' :: name ++ ['{', '}', '\n']

/-- The place of the title in a text that has none: in front of `\maketitle`; else, with the commands
that a title needs, behind the opening root marker; else at the start. -/
def newTitlePlace (t : Text) : TitlePlace :=
  match Sighting.find? [maketitleName] false t with
  | some s => ⟨s.before, '\n' :: s.source ++ s.after⟩
  | none =>
    let block :=
      '\n' :: emptyUnlessGiven ['a', 'u', 't', 'h', 'o', 'r'] t ++
        emptyUnlessGiven ['d', 'a', 't', 'e'] t ++ maketitle ++ ['\n']
    match Text.cutAt? beginDocument t with
    | some (before, rest) => ⟨before ++ beginDocument ++ ['\n'], block ++ rest⟩
    | none => ⟨[], block ++ t⟩

/-- **The place of the title**: that of the first title directive, with all later ones removed.  The
directive that is to stand there counts as present when the text already has it there, however its
braces are balanced. -/
def placeTitle (directive t : Text) : TitlePlace :=
  match titleFinder false t with
  | some c =>
    let after := (Text.after? directive (c.span ++ c.after)).getD c.after
    let read := c.before ++ directive
    ⟨c.before,
      (removeAll titleFinder (escapedAfter false read) (Text.blankLineAfter true read) after).result⟩
  | none => newTitlePlace t

/-- The text with one `\maketitle`: the first one, or one that is put behind the opening root marker when
the title stands before it, and behind the title otherwise. -/
def oneMaketitle (directive : Text) (place : TitlePlace) : Text :=
  let t := place.before ++ directive ++ place.after
  match Sighting.find? [maketitleName] false t with
  | some first =>
    let read := first.before ++ first.source
    read ++
      (removeAll (commandFinder maketitleName) (escapedAfter false read)
        (Text.blankLineAfter true read) first.after).result
  | none =>
    let behindTitle := place.before ++ directive ++ '\n' :: maketitle ++ place.after
    match Text.cutAt? beginDocument t with
    | some (before, rest) =>
      if place.before.length + directive.length ≤ before.length then
        before ++ beginDocument ++ '\n' :: maketitle ++ rest
      else behindTitle
    | none => behindTitle

/-- **The sheet with the title of its topic**, once, and one `\maketitle`. -/
def enforceTitle (identity : Identity) (topic t : Text) : Text :=
  let directive := identity.titleDirective topic
  oneMaketitle directive (placeTitle directive t)

/-! ### The attribution -/

/-- **The sheet with its attribution** in front of the closing root marker, or at the end when there is
none; a sheet that has it already stays as it is. -/
def injectFooter (identity : Identity) (t : Text) : Text :=
  if Text.holds identity.footer t then t
  else
    match Text.cutAt? endDocument t with
    | some (before, rest) => before ++ identity.footer ++ endDocument ++ rest
    | none => t ++ identity.footer

end Identity

end CribSheet
