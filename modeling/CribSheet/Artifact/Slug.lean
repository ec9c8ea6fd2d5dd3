/-
Slugs: topics as they appear in file names.

A slug is made of what the compatibility decomposition of a topic leaves in ASCII.  Its words are runs of
letters, made small, and digits, with one separator between each two; a topic that leaves no word has a
slug of its own.  The decomposition is a parameter: what is proved of slugs holds of every version of it.

Main definitions:

* `CribSheet.Separator` — what stands between the words of a slug;
* `CribSheet.slugifyWith` — the slug of a topic, with a decomposition;
* `CribSheet.slugify` — the slug of a topic.
-/
import CribSheet.Text.AsciiForm
import CribSheet.Text.Blank

set_option relaxedAutoImplicit false
set_option autoImplicit false

namespace CribSheet

/-- What stands between two words of a slug. -/
inductive Separator
  | underscore
  | hyphen
deriving Repr, DecidableEq

namespace Separator

/-- The character of a separator. -/
def char : Separator → Char
  | .underscore => '_'
  | .hyphen => '-'

/-- The name of a separator in settings. -/
def name : Separator → Text
  | .underscore => "underscore".toList
  | .hyphen => "hyphen".toList

end Separator

/-- The slug of a topic without a letter or a digit. -/
def defaultSlug : Text := ['t', 'e', 'm', 'a']

/-- A character of ASCII in a slug: a small letter or a digit, or a blank in place of anything else. -/
def slugChar (c : Char) : Char := if c.isAlphanum then c.toLower else ' '

/-- The words of a topic: what its decomposition leaves in ASCII, parted where anything else than a letter
or a digit stands. -/
def slugWords (decompose : Text → Text) (topic : Text) : List Text :=
  Text.words (((decompose topic).filter (·.toNat < 128)).map slugChar)

/-- **The slug of a topic**, with a compatibility decomposition. -/
def slugifyWith (decompose : Text → Text) (separator : Separator) (topic : Text) : Text :=
  match slugWords decompose topic with
  | [] => defaultSlug
  | word :: words => Text.joinWith [separator.char] (word :: words)

/-- The slug of a topic.  Of the decomposition only the ASCII form matters. -/
def slugify (separator : Separator) (topic : Text) : Text := slugifyWith asciiForms separator topic

end CribSheet
