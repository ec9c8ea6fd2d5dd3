/-
Reading settings as the values that they stand for.

Scalars are read generously: a number may be written as text, and a truth value as a word or a number.
A section is a table, or a list with its fields in a fixed order.

Main definitions:

* `CribSheet.Field` — a setting with its key;
* `CribSheet.Field.text`, `CribSheet.Field.boolean`, `CribSheet.Field.count`, `CribSheet.Field.texts`,
  `CribSheet.Field.choice` — what a setting stands for;
* `CribSheet.Section`, `CribSheet.Field.toSection` — sections and their fields.
-/
import CribSheet.Number.Bounds
import CribSheet.Settings.Fault

set_option relaxedAutoImplicit false
set_option autoImplicit false

namespace CribSheet

/-! ### Fields -/

/-- A setting, with the key under which messages know it. -/
structure Field where
  /-- The key. -/
  key : Text
  /-- The setting. -/
  setting : Setting
deriving Repr

namespace Field

/-- The field under a name of a table. -/
def entry (f : Field) (name : Text) (s : Setting) : Field := ⟨f.key ++ '.' :: name, s⟩

/-- The fields of the items of a list. -/
def itemsFrom (f : Field) (i : Nat) : List Setting → List Field
  | [] => []
  | s :: its => ⟨f.key ++ '[' :: Text.ofNat i ++ [']'], s⟩ :: itemsFrom f (i + 1) its

/-- The fault that a value is found that is not wanted. -/
def unwanted {α : Type} (f : Field) (found : Found) (wanted : Text) : Except SettingsFault α :=
  .error (.wrongValue found wanted f.key f.setting.origin)

/-! ### Scalars -/

/-- The text that a setting stands for. -/
def text (f : Field) : Except SettingsFault Text :=
  match f.setting with
  | .scalar _ (.text t) => .ok t
  | .scalar _ (.boolean b) => .ok (if b then "true".toList else "false".toList)
  | .scalar _ (.integer n) => .ok (Found.digits n)
  | .scalar _ (.float x) => .ok x.toText
  | s => f.unwanted (.ofSetting s) "a string".toList

/-- The truth value of a word in small letters. -/
def truth? (word : Text) : Option Bool :=
  if ["true".toList, "on".toList, "yes".toList].contains word then some true
  else if ["false".toList, "off".toList, "no".toList].contains word then some false
  else none

/-- The truth value that a setting stands for. -/
def boolean (f : Field) : Except SettingsFault Bool :=
  let wanted := "a boolean".toList
  match f.setting with
  | .scalar _ (.boolean b) => .ok b
  | .scalar _ (.integer n) => .ok (n != 0)
  | .scalar _ (.float x) => .ok !x.isZero
  | .scalar _ (.text t) =>
    let word := t.toSmall
    if word = ['1'] then .ok true
    else if word = ['0'] then .ok false
    else
      match truth? word with
      | some b => .ok b
      | none => f.unwanted (.text word) wanted
  | s => f.unwanted (.ofSetting s) wanted

/-- The natural number that a setting stands for. -/
def natural (f : Field) : Except SettingsFault Nat :=
  let wanted := "an integer".toList
  match f.setting with
  | .scalar _ (.integer n) =>
    if n < 0 then f.unwanted (.integer n) "an unsigned 64 bit or less integer".toList else .ok n.toNat
  | .scalar _ (.float x) => .ok (x.toNatural greatestNatural)
  | .scalar _ (.boolean b) => .ok b.toNat
  | .scalar _ (.text t) =>
    match (truth? t.toSmall).map Bool.toNat <|> Text.unsigned? greatestNatural t with
    | some n => .ok n
    | none => f.unwanted (.text t) wanted
  | s => f.unwanted (.ofSetting s) wanted

/-- The count that a setting stands for. -/
def count (f : Field) : Except SettingsFault Nat := do
  let n ← f.natural
  if n ≤ greatestCount then .ok n else f.unwanted (.natural n) "an unsigned 32 bit integer".toList

/-! ### Lists and choices -/

/-- The texts that a list stands for. -/
def texts (f : Field) : Except SettingsFault (List Text) :=
  match f.setting with
  | .list _ its => (f.itemsFrom 0 its).mapM text
  | s => .error (.wrongForm (.ofSetting s) "a sequence".toList)

/-- The choice that a setting names, from a list of names in small letters. -/
def choice {α : Type} (choices : Text) (options : List (Text × α)) (f : Field) :
    Except SettingsFault α :=
  match
    match f.setting with
    | .scalar _ (.text t) => some t
    | .table _ [(name, _)] => some name
    | _ => none
  with
  | none => .error (.noChoice choices)
  | some given =>
    match options.lookup given.toSmall with
    | some a => .ok a
    | none => .error (.unknownChoice choices given)

end Field

/-! ### Sections -/

/-- The fields of a section that are there, by their names. -/
structure Section where
  /-- The section is a list. -/
  isList : Bool
  /-- The fields. -/
  fields : List (Text × Field)
deriving Repr

/-- The section that a setting stands for, of fields with names. -/
def Field.toSection (f : Field) (wanted : Text) (names : List Text) : Except SettingsFault Section :=
  match f.setting with
  | .table _ es => .ok ⟨false, es.map fun (name, s) => (name, f.entry name s)⟩
  | .list _ its => .ok ⟨true, names.zip (f.itemsFrom 0 its)⟩
  | s => .error (.wrongForm (.ofSetting s) ("struct ".toList ++ wanted))

namespace Section

/-- What a field of the section stands for, if it is there. -/
def read? {α : Type} (s : Section) (name : Text) (read : Field → Except SettingsFault α) :
    Except SettingsFault (Option α) :=
  match s.fields.lookup name with
  | some f => (read f).map some
  | none => .ok none

/-- What a field of the section stands for, or else its default. -/
def read {α : Type} (s : Section) (name : Text) (read : Field → Except SettingsFault α) (default : α) :
    Except SettingsFault α :=
  (s.read? name read).map fun a => a.getD default

end Section

end CribSheet
