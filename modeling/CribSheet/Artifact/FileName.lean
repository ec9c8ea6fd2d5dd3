/-
Names of files.

The artifacts of one topic share a stem, made of a prefix and the slug, and differ in their extension.
File names that hold blanks are put in title case: blanks and underscores separate words, each word is
capitalized, and what follows the last dot stays as it is.

Main definitions:

* `CribSheet.ArtifactNames` — the names of the artifacts of a topic;
* `CribSheet.titleCaseFileName` — the title case of a file name.
-/
import CribSheet.Artifact.Slug
import CribSheet.Text.Casing

set_option relaxedAutoImplicit false
set_option autoImplicit false

namespace CribSheet

open CribSheet.Text

/-! ### Artifacts -/

/-- What the names of artifacts start with. -/
def defaultArtifactPrefix : Text := "cheat_sheat".toList

/-- The names of the artifacts of a topic. -/
structure ArtifactNames where
  /-- The slug of the topic. -/
  slug : Text
  /-- The name of the LaTeX source. -/
  source : Text
  /-- The name of the compiled sheet. -/
  pdf : Text
deriving Repr, DecidableEq

/-- A text read from its end, without the extensions of a LaTeX source. -/
def dropReversedTex : Text → Text
  | 'x' :: 'e' :: 't' :: '.' :: t => dropReversedTex t
  | t => t

/-- The name without the extension of a LaTeX source, however often it stands at the end. -/
def dropTexExtension (name : Text) : Text := (dropReversedTex name.reverse).reverse

namespace ArtifactNames

/-- The names with a prefix and a slug. -/
def ofSlug (lead slug : Text) : ArtifactNames :=
  let stem := lead ++ '_' :: slug
  ⟨slug, stem ++ ".tex".toList, stem ++ ".pdf".toList⟩

/-- The names for a topic. -/
def ofTopic (lead : Text) (separator : Separator) (topic : Text) : ArtifactNames :=
  ofSlug lead (slugify separator topic)

/-- The stem that the names share. -/
def stem (names : ArtifactNames) : Text := dropTexExtension names.source

/-- The name with some other extension. -/
def withExtension (names : ArtifactNames) (extension : Text) : Text :=
  names.stem ++ '.' :: extension

end ArtifactNames

/-! ### Title case -/

/-- A file name as its stem and its extension with the dot; a dot in front starts no extension. -/
def splitExtension (name : Text) : Text × Text :=
  match name.cutAtLast? '.' with
  | some (c :: stem, extension) => (c :: stem, '.' :: extension)
  | _ => (name, [])

/-- **The title case of a file name.** -/
def titleCaseFileName (name : Text) : Text :=
  let (stem, extension) := splitExtension name
  let joined := joinWith ['_'] stem.words
  joinWith ['_'] (((joined.splitOn '_').filter (· ≠ [])).map capitalize) ++ extension

end CribSheet
