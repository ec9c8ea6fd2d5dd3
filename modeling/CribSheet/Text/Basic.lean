/-
Texts and the few operations on them that every other module uses.

A text is the list of its Unicode characters, so that a scanner is a structural recursion on what is
left to read, and a position is a way of splitting the text in two.  Offsets counted in bytes exist
only at the border of the library (`CribSheet.Markup.Offset`), where `Text.size` measures a piece.

Main definitions:

* `CribSheet.Text`, `CribSheet.Text.size` — texts and their length in UTF-8 bytes;
* `CribSheet.Text.after?` — what follows a given beginning;
* `CribSheet.Text.cutAt?` — the text on both sides of the first occurrence of a piece;
* `CribSheet.Text.lines`, `CribSheet.Text.splitOn` — cutting at line breaks or another separator;
* `CribSheet.Text.dropEndWhile` — dropping characters at the end.

Main results:

* `CribSheet.Text.after?_eq_some_iff` — `after?` undoes appending;
* `CribSheet.Text.cutAt?_eq_append` — cutting loses nothing;
* `CribSheet.Text.joinWith_splitOn` — joining the pieces of a split gives the text back.
-/

set_option relaxedAutoImplicit false
set_option autoImplicit false

namespace CribSheet

/-- A text is the list of its characters. -/
abbrev Text := List Char

namespace Text

/-- What holds of the character of every code below a bound holds of every character with such a code. -/
theorem forall_of_codes {n : Nat} {P : Char → Prop} (h : ∀ code < n, P (Char.ofNat code)) {c : Char}
    (hc : c.toNat < n) : P c := by
  have hcode := h c.toNat hc
  rwa [Char.ofNat_toNat] at hcode

/-! ### Measuring -/

/-- The number of bytes that the text takes in UTF-8. -/
def size : Text → Nat
  | [] => 0
  | c :: t => c.utf8Size + size t

@[simp] theorem size_nil : size [] = 0 := rfl

@[simp] theorem size_cons (c : Char) (t : Text) : size (c :: t) = c.utf8Size + size t := rfl

@[simp] theorem size_append (t u : Text) : size (t ++ u) = size t + size u := by
  induction t with
  | nil => simp
  | cons c t ih => simp [ih, Nat.add_assoc]

/-! ### Beginnings -/

/-- What follows `lead` in a text that begins with it. -/
def after? : (lead : Text) → Text → Option Text
  | [], t => some t
  | _ :: _, [] => none
  | p :: lead, c :: t => if p = c then after? lead t else none

theorem after?_eq_some_iff {lead t rest : Text} :
    after? lead t = some rest ↔ t = lead ++ rest := by
  induction lead generalizing t with
  | nil => simp [after?, eq_comm]
  | cons p lead ih =>
    cases t with
    | nil => simp [after?]
    | cons c t =>
      by_cases h : p = c
      · subst h
        simp [after?, ih]
      · simp [after?, h, Ne.symm h]

@[simp] theorem after?_append (lead rest : Text) : after? lead (lead ++ rest) = some rest :=
  after?_eq_some_iff.2 rfl

/-- The text begins with `lead`. -/
def startsWith (lead t : Text) : Bool := (after? lead t).isSome

/-- What stands before and after the first occurrence of `piece`. -/
def cutAt? (piece : Text) : Text → Option (Text × Text)
  | [] => (after? piece []).map fun rest => ([], rest)
  | c :: t =>
    match after? piece (c :: t) with
    | some rest => some ([], rest)
    | none => (cutAt? piece t).map fun (before, rest) => (c :: before, rest)

theorem cutAt?_eq_append {piece t before rest : Text} (h : cutAt? piece t = some (before, rest)) :
    t = before ++ piece ++ rest := by
  induction t generalizing before with
  | nil =>
    simp only [cutAt?, Option.map_eq_some_iff, Prod.mk.injEq] at h
    obtain ⟨r, hr, rfl, rfl⟩ := h
    simpa using after?_eq_some_iff.1 hr
  | cons c t ih =>
    rw [cutAt?] at h
    split at h
    · next r hr =>
      obtain ⟨rfl, rfl⟩ := Prod.mk.inj (Option.some.inj h)
      simpa using after?_eq_some_iff.1 hr
    · obtain ⟨⟨b, r⟩, hb, hbr⟩ := Option.map_eq_some_iff.1 h
      obtain ⟨rfl, rfl⟩ := Prod.mk.inj hbr
      simp [ih hb]

/-- `piece` occurs in the text. -/
def holds (piece t : Text) : Bool := (cutAt? piece t).isSome

/-- The text with every occurrence of `old`, from the left, replaced by `new`. -/
def replaceAll (old new t : Text) : Text :=
  match cutAt? old t with
  | none => t
  | some (before, rest) =>
    if rest.length < t.length then before ++ new ++ replaceAll old new rest else t
termination_by t.length

/-! ### Lines -/

/-- The pieces between the separators; a text without one is its only piece. -/
def splitOn (separator : Char) : Text → List Text
  | [] => [[]]
  | c :: t =>
    if c = separator then [] :: splitOn separator t
    else
      match splitOn separator t with
      | [] => [[c]]
      | piece :: pieces => (c :: piece) :: pieces

theorem splitOn_ne_nil (separator : Char) (t : Text) : splitOn separator t ≠ [] := by
  cases t with
  | nil => simp [splitOn]
  | cons c t =>
    rw [splitOn]
    split
    · simp
    · split <;> simp

/-- The pieces with a separator between each two. -/
def joinWith (separator : Text) : List Text → Text
  | [] => []
  | [piece] => piece
  | piece :: next :: pieces => piece ++ separator ++ joinWith separator (next :: pieces)

theorem joinWith_splitOn (separator : Char) (t : Text) :
    joinWith [separator] (splitOn separator t) = t := by
  induction t with
  | nil => rfl
  | cons c t ih =>
    rw [splitOn]
    split
    · next h =>
      subst h
      match hs : splitOn c t, splitOn_ne_nil c t with
      | piece :: pieces, _ => simp [joinWith, ← hs, ih]
    · match hs : splitOn separator t, splitOn_ne_nil separator t with
      | [piece], _ => simpa [joinWith, hs] using ih
      | piece :: next :: pieces, _ => simpa [joinWith, hs] using ih

/-- The lines of the text, without their line breaks. -/
def lines (t : Text) : List Text := splitOn '\n' t

/-- The lines with a line break between each two. -/
def unlines (ls : List Text) : Text := joinWith ['\n'] ls

theorem unlines_lines (t : Text) : unlines (lines t) = t := joinWith_splitOn '\n' t

/-- The text up to its first line break, and the rest from that line break on. -/
def firstLine (t : Text) : Text × Text := (t.takeWhile (· ≠ '\n'), t.dropWhile (· ≠ '\n'))

theorem firstLine_append (t : Text) : (firstLine t).1 ++ (firstLine t).2 = t :=
  List.takeWhile_append_dropWhile

/-- The text up to and with its last line break, and the line that follows it. -/
def lastLine : Text → Text × Text
  | [] => ([], [])
  | c :: t =>
    match lastLine t with
    | ([], line) => if c = '\n' then (['\n'], line) else ([], c :: line)
    | (d :: before, line) => (c :: d :: before, line)

theorem lastLine_append (t : Text) : (lastLine t).1 ++ (lastLine t).2 = t := by
  induction t with
  | nil => rfl
  | cons c t ih =>
    rw [lastLine]
    split
    · next line h =>
      rw [h] at ih
      split <;> simp_all
    · next d before line h =>
      rw [h] at ih
      simpa using ih

/-- What stands before and after the last occurrence of a character. -/
def cutAtLast? (separator : Char) : Text → Option (Text × Text)
  | [] => none
  | c :: t =>
    match cutAtLast? separator t with
    | some (before, rest) => some (c :: before, rest)
    | none => if c = separator then some ([], t) else none

theorem cutAtLast?_eq_append {separator : Char} {t before rest : Text}
    (h : cutAtLast? separator t = some (before, rest)) : t = before ++ separator :: rest := by
  induction t generalizing before with
  | nil => simp [cutAtLast?] at h
  | cons c t ih =>
    rw [cutAtLast?] at h
    split at h
    · next b r hb =>
      obtain ⟨rfl, rfl⟩ := Prod.mk.inj (Option.some.inj h)
      rw [ih hb]
      rfl
    · split at h
      · next hc =>
        obtain ⟨rfl, rfl⟩ := Prod.mk.inj (Option.some.inj h)
        simp [hc]
      · simp at h

/-! ### Ends -/

/-- The text without the longest run of such characters at its end. -/
def dropEndWhile (p : Char → Bool) : Text → Text
  | [] => []
  | c :: t =>
    match dropEndWhile p t with
    | [] => if p c then [] else [c]
    | d :: t' => c :: d :: t'

/-- The longest run of such characters at the end of the text. -/
def takeEndWhile (p : Char → Bool) (t : Text) : Text := t.drop (dropEndWhile p t).length

/-- The text ends with a character that passes the test. -/
def endsWith (p : Char → Bool) (t : Text) : Bool := t.getLast?.any p

/-! ### Letters -/

/-- The letters that may stand in a control word: `a` to `z` and `A` to `Z`. -/
def isLetter (c : Char) : Bool := c.isAlpha

/-- The ten decimal digits. -/
def isDigit (c : Char) : Bool := c.isDigit

/-- The text with its capital letters between `A` and `Z` made small. -/
def lower (t : Text) : Text := t.map Char.toLower

/-- A property of all characters of a text is decided by looking at these characters, although there
are only finitely many others. -/
instance (priority := high) decidableForallMem (p : Char → Prop) [DecidablePred p] (t : Text) :
    Decidable (∀ c ∈ t, p c) :=
  List.decidableBAll p t

end Text

end CribSheet
