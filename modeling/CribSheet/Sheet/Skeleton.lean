/-
The skeleton of a sheet: the fixed preamble and root that a bare fragment is wrapped in.

A text that already holds an opening root marker is left alone, whatever else is wrong with it.

Main definitions:

* `CribSheet.Skeleton`, `CribSheet.Skeleton.preamble` — the preamble and its one setting;
* `CribSheet.Skeleton.complete` — wrapping a fragment.
-/
import CribSheet.Sheet.Document

set_option relaxedAutoImplicit false
set_option autoImplicit false

namespace CribSheet

/-- The settings of the skeleton. -/
structure Skeleton where
  /-- The language that hyphenation and fixed words follow. -/
  language : Text := "spanish".toList
deriving Repr, DecidableEq

namespace Skeleton

/-- The line that sets the language; the default language comes with its own name for tables. -/
def languageLine (s : Skeleton) : Text :=
  let option := if s.language = "spanish".toList then "spanish, es-tabla".toList else s.language
  "\\usepackage[".toList ++ option ++ "]\x7bbabel\x7d\n".toList

/-- The preamble, ending with a line break. -/
def preamble (s : Skeleton) : Text :=
  "\\documentclass[11pt]\x7barticle\x7d\n".toList ++ s.languageLine ++
    ("\\usepackage[utf8]\x7binputenc\x7d\n" ++
      "\\usepackage[T1]\x7bfontenc\x7d\n" ++
      "\\usepackage\x7blmodern\x7d\n" ++
      "\\usepackage\x7bamsmath,amssymb,amsthm,mathtools\x7d\n" ++
      "\\usepackage[a4paper,margin=2.0cm]\x7bgeometry\x7d\n" ++
      "\\usepackage\x7benumitem\x7d\n" ++
      "\\usepackage\x7bxcolor\x7d\n" ++
      "\\usepackage\x7btcolorbox\x7d\n" ++
      "\\usepackage\x7bgraphicx\x7d\n" ++
      "\\usepackage\x7bhyperref\x7d\n" ++
      "\\usepackage\x7bmicrotype\x7d\n" ++
      "\\tcbset\x7bcolback=gray!3,colframe=black!50,boxrule=0.5pt,arc=2pt\x7d\n").toList

/-- **The fragment as a document**: wrapped in the skeleton unless it has a root of its own. -/
def complete (s : Skeleton) (fragment : Text) : Text :=
  if Text.holds beginDocument fragment then fragment
  else
    s.preamble ++ '\n' :: beginDocument ++ '\n' :: fragment ++ '\n' :: endDocument ++ ['\n']

end Skeleton

end CribSheet
