/-
Why files cannot be read or written.

Main definitions:

* `CribSheet.FileFault`, `CribSheet.FileFault.message` — the faults and their wording.
-/
import CribSheet.Text.Basic

set_option relaxedAutoImplicit false
set_option autoImplicit false

namespace CribSheet

/-- Why a file or directory cannot be read or written. -/
inductive FileFault
  /-- No such entry, or no such directory on the way to it. -/
  | notFound
  /-- An entry is in the place of a new directory. -/
  | alreadyExists
  /-- An entry on the way is no directory. -/
  | notDirectory
  /-- A file was expected. -/
  | isDirectory
  /-- A name has more than 255 bytes. -/
  | nameTooLong
  /-- A path holds a NUL character. -/
  | nulInPath
  /-- The content is not UTF-8. -/
  | notText
deriving Repr, DecidableEq

/-- The wording of a fault. -/
def FileFault.message : FileFault → Text
  | .notFound => "No such file or directory (os error 2)".toList
  | .alreadyExists => "File exists (os error 17)".toList
  | .notDirectory => "Not a directory (os error 20)".toList
  | .isDirectory => "Is a directory (os error 21)".toList
  | .nameTooLong => "File name too long (os error 36)".toList
  | .nulInPath => "file name contained an unexpected NUL byte".toList
  | .notText => "stream did not contain valid UTF-8".toList

end CribSheet
