/-
Why settings cannot be used.

Main definitions:

* `CribSheet.Found` — what stands in the place of something else;
* `CribSheet.SettingsFault`, `CribSheet.SettingsFault.message` — the faults and their wording.
-/
import CribSheet.Settings.Setting
import CribSheet.Text.Quoted

set_option relaxedAutoImplicit false
set_option autoImplicit false

namespace CribSheet

/-! ### Found values -/

/-- What stands in the place of something else. -/
inductive Found
  | nothing
  | boolean (b : Bool)
  | integer (n : Int)
  | natural (n : Nat)
  | float (x : Binary64)
  | text (t : Text)
  | list
  | table
deriving Repr, DecidableEq

namespace Found

/-- What a setting is found to be. -/
def ofSetting : Setting → Found
  | .scalar _ .nothing => .nothing
  | .scalar _ (.boolean b) => .boolean b
  | .scalar _ (.integer n) => .integer n
  | .scalar _ (.float x) => .float x
  | .scalar _ (.text t) => .text t
  | .list _ _ => .list
  | .table _ _ => .table

/-- An integer in decimal digits. -/
def digits (n : Int) : Text := (if n < 0 then ['-'] else []) ++ Text.ofNat n.natAbs

/-- A float in a message: a finite one has a point. -/
def floatText (x : Binary64) : Text :=
  let t := x.toText
  match x with
  | .finite .. => if '.' ∈ t then t else t ++ ['.', '0']
  | _ => t

/-- What is found, between the marks of code. -/
def code (t : Text) : Text := '`' :: t ++ ['`']

/-- The wording of what was found; `width` tells how integers are named. -/
def describe (width : Text) : Found → Text
  | .nothing => "unit value".toList
  | .boolean b => "boolean ".toList ++ code (if b then "true".toList else "false".toList)
  | .integer n => width ++ "integer ".toList ++ code (digits n)
  | .natural n => width ++ "unsigned integer ".toList ++ code (Text.ofNat n)
  | .float x => "floating point ".toList ++ code (floatText x)
  | .text t => "string ".toList ++ t.quote
  | .list => "sequence".toList
  | .table => "map".toList

end Found

/-! ### Faults -/

/-- Why settings cannot be used. -/
inductive SettingsFault
  /-- A value cannot be read as what its place asks for. -/
  | wrongValue (found : Found) (wanted : Text) (key : Text) (origin : Option Text)
  /-- A section has some other form. -/
  | wrongForm (found : Found) (wanted : Text)
  /-- A section is a list that is too short. -/
  | tooShort (length : Nat) (wanted : Text)
  /-- A section lacks an entry. -/
  | missingField (name : Text)
  /-- A name is none of the choices. -/
  | unknownChoice (choices : Text) (given : Text)
  /-- A choice is neither a name nor a table with one entry. -/
  | noChoice (choices : Text)
  /-- A key is no path. -/
  | badPath (fault : KeyPathFault)
  /-- A file cannot be read as settings. -/
  | badFile (path : Text)
  /-- A file is missing. -/
  | missingFile (path : Text)
deriving Repr, DecidableEq

/-- The wording of a fault. -/
def SettingsFault.message : SettingsFault → Text
  | .wrongValue found wanted key origin =>
    "invalid type: ".toList ++ found.describe "64-bit ".toList ++ ", expected ".toList ++ wanted ++
      " for key ".toList ++ Found.code key ++
      match origin with
      | some path => " in ".toList ++ path
      | none => []
  | .wrongForm found wanted =>
    "invalid type: ".toList ++ found.describe [] ++ ", expected ".toList ++ wanted
  | .tooShort length wanted =>
    "invalid length ".toList ++ Text.ofNat length ++ ", expected ".toList ++ wanted
  | .missingField name => "missing field ".toList ++ Found.code name
  | .unknownChoice choices given =>
    "enum ".toList ++ choices ++ " does not have variant constructor ".toList ++ given
  | .noChoice choices =>
    "value of enum ".toList ++ choices ++
      " should be represented by either string or table with exactly one key".toList
  | .badPath fault => fault.message
  | .badFile path => "invalid TOML in ".toList ++ path
  | .missingFile path => "configuration file ".toList ++ path.quote ++ " not found".toList

end CribSheet
