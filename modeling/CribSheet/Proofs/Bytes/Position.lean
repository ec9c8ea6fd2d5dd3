/-
Positions in the UTF-8 form of a text.

A scanner that works on bytes knows a position only as a number.  Here such a position is looked at from both
sides: as a number it can be used to read a byte or to cut the text, and each use is checked; as a place in the
text it has something behind it and something ahead.  A position that falls inside a character is harmless as long as
no cut is made there: a byte that goes on with a character equals no byte of ASCII.

Main definitions:

* `CribSheet.Checked.Fault`, `CribSheet.Checked.Run` — checked computations, and what can go wrong with them;
* `CribSheet.Checked.bytes`, `CribSheet.Checked.byte?`, `CribSheet.Checked.cut` — reading bytes and cutting texts;
* `CribSheet.Checked.loop` — a loop that must move forward in every round;
* `CribSheet.Checked.Stands` — a position between two parts of a text.

Main results:

* `CribSheet.Checked.lead_eq_code_iff` — the first byte of a character tells whether it is a given one of ASCII;
* `CribSheet.Checked.cut_eq_ok_iff` — **a cut is one between two positions** that stand between characters;
* `CribSheet.Checked.loop_inside` — **a loop that passes over such bytes leaves a character at its end**.
-/
import CribSheet.Markup.Offset
import CribSheet.Text.Bytes

set_option relaxedAutoImplicit false
set_option autoImplicit false

namespace CribSheet.Checked

open Text

/-! ### Checked computations -/

/-- What can go wrong with a position. -/
inductive Fault
  /-- A position past the end of the text is read or cut at. -/
  | outOfRange
  /-- The text is cut inside a character. -/
  | insideCharacter
  /-- The end of a cut lies before its start. -/
  | backwards
  /-- A count goes below zero. -/
  | underflow
  /-- A round of a loop does not move forward, or a recursion is not on a shorter text. -/
  | stuck
deriving Repr, DecidableEq

/-- A computation that fails at the first thing that goes wrong. -/
abbrev Run (α : Type) := Except Fault α

@[simp] theorem ok_bind {α β : Type} (a : α) (f : α → Run β) : (Except.ok a : Run α) >>= f = f a := rfl

/-- One less. -/
def pred (n : Nat) : Run Nat := if n = 0 then .error .underflow else .ok (n - 1)

@[simp] theorem pred_succ (n : Nat) : pred (n + 1) = .ok n := rfl

/-- The difference of two counts. -/
def minus (m n : Nat) : Run Nat := if m < n then .error .underflow else .ok (m - n)

theorem minus_add (m n : Nat) : minus (m + n) n = .ok m := by
  rw [minus, if_neg (by omega), Nat.add_sub_cancel]

/-! ### Bytes -/

/-- The bytes of the text. -/
def bytes (t : Text) : List UInt8 := t.flatMap String.utf8EncodeChar

/-- They are what is stored of the text. -/
theorem toList_encode (t : Text) : (encode t).data.toList = bytes t := by
  simp [encode, bytes, List.utf8Encode]

@[simp] theorem bytes_nil : bytes [] = [] := rfl

@[simp] theorem bytes_cons (c : Char) (t : Text) : bytes (c :: t) = String.utf8EncodeChar c ++ bytes t := rfl

@[simp] theorem bytes_append (t u : Text) : bytes (t ++ u) = bytes t ++ bytes u := List.flatMap_append

@[simp] theorem length_bytes (t : Text) : (bytes t).length = t.size := by
  induction t with
  | nil => rfl
  | cons c t ih => rw [bytes_cons, List.length_append, String.length_utf8EncodeChar, ih, size_cons]

/-- The byte at a position, if there is one. -/
def byte? (t : Text) (i : Nat) : Option UInt8 := (bytes t)[i]?

/-- The byte at a position. -/
def byte (t : Text) (i : Nat) : Run UInt8 :=
  match byte? t i with
  | some b => .ok b
  | none => .error .outOfRange

/-- The bytes from a position on. -/
def bytesFrom (t : Text) (i : Nat) : Run (List UInt8) :=
  if t.size < i then .error .outOfRange else .ok ((bytes t).drop i)

theorem size_pos_of_ne_nil {t : Text} (h : t ≠ []) : 0 < t.size := by
  obtain ⟨c, t, rfl⟩ := List.exists_cons_of_ne_nil h
  rw [size_cons]
  exact Nat.add_pos_left (Char.utf8Size_pos c) _

/-- What is missing of a shorter rest takes some bytes. -/
theorem size_pos_of_length_lt {t u : Text} (h : u.length < (t ++ u).length) : 0 < t.size :=
  size_pos_of_ne_nil fun hnil => by simp [hnil] at h

/-! ### ASCII -/

/-- The character is encoded by one byte. -/
def IsAscii (c : Char) : Prop := c.toNat ≤ 0x7f

instance (c : Char) : Decidable (IsAscii c) := inferInstanceAs (Decidable (_ ≤ _))

/-- The byte of an ASCII character. -/
def code (c : Char) : UInt8 := UInt8.ofNat c.toNat

/-- The byte is that of a letter. -/
def isLetterByte (b : UInt8) : Bool :=
  (code 'a' ≤ b && b ≤ code 'z') || (code 'A' ≤ b && b ≤ code 'Z')

/-- The first byte of a character. -/
def lead (c : Char) : UInt8 := (String.utf8EncodeChar c).head String.utf8EncodeChar_ne_nil

theorem utf8EncodeChar_of_isAscii {c : Char} (hc : IsAscii c) : String.utf8EncodeChar c = [code c] := by
  rw [String.utf8EncodeChar]
  exact if_pos hc

theorem utf8Size_of_isAscii {c : Char} (hc : IsAscii c) : c.utf8Size = 1 := by
  rw [← String.length_utf8EncodeChar, utf8EncodeChar_of_isAscii hc]
  rfl

theorem le_ofNat {n : Nat} (h : 0x80 ≤ n) (h' : n < 0x100) : 0x80 ≤ UInt8.ofNat n := by
  rw [UInt8.le_iff_toNat_le, UInt8.toNat_ofNat', Nat.mod_eq_of_lt h']
  exact h

/-- **The bytes of a character that is not ASCII** are none of ASCII. -/
theorem le_of_mem_utf8EncodeChar {c : Char} (hc : ¬ IsAscii c) {b : UInt8} (hb : b ∈ String.utf8EncodeChar c) :
    0x80 ≤ b := by
  have hc : ¬ c.val.toNat ≤ 0x7f := hc
  simp only [String.utf8EncodeChar, if_neg hc] at hb
  split at hb
  · simp only [List.mem_cons, List.not_mem_nil, or_false] at hb
    rcases hb with rfl | rfl <;> exact le_ofNat (by omega) (by omega)
  · split at hb
    · simp only [List.mem_cons, List.not_mem_nil, or_false] at hb
      rcases hb with rfl | rfl | rfl <;> exact le_ofNat (by omega) (by omega)
    · simp only [List.mem_cons, List.not_mem_nil, or_false] at hb
      rcases hb with rfl | rfl | rfl | rfl <;> exact le_ofNat (by omega) (by omega)

theorem toNat_code {c : Char} (hc : IsAscii c) : (code c).toNat = c.toNat := by
  have hc : c.toNat ≤ 0x7f := hc
  simp only [code, UInt8.toNat_ofNat']
  omega

/-- The byte goes on with a character that started before. -/
def GoesOn (b : UInt8) : Prop := ¬ b.IsUTF8FirstByte

/-- Such a byte is no ASCII character's. -/
theorem GoesOn.ne_code {b : UInt8} (hb : GoesOn b) {d : Char} (hd : IsAscii d) : b ≠ code d := by
  rintro rfl
  have hfirst := UInt8.isUTF8FirstByte_getElem_zero_utf8EncodeChar (c := d)
  simp only [utf8EncodeChar_of_isAscii hd, List.getElem_cons_zero] at hfirst
  exact hb hfirst

theorem lead_of_isAscii {c : Char} (hc : IsAscii c) : lead c = code c := by
  simp only [lead, utf8EncodeChar_of_isAscii hc, List.head_cons]

theorem le_lead {c : Char} (hc : ¬ IsAscii c) : 0x80 ≤ lead c :=
  le_of_mem_utf8EncodeChar hc (List.head_mem _)

theorem not_goesOn_lead (c : Char) : ¬ GoesOn (lead c) := by
  have hfirst := UInt8.isUTF8FirstByte_getElem_zero_utf8EncodeChar (c := c)
  rw [GoesOn, Classical.not_not, lead, List.head_eq_getElem]
  exact hfirst

/-- The first byte tells an ASCII character from all others. -/
theorem lead_eq_code_iff {c d : Char} (hd : IsAscii d) : lead c = code d ↔ c = d := by
  constructor
  · intro h
    by_cases hc : IsAscii c
    · rw [lead_of_isAscii hc] at h
      exact Char.toNat_inj.1 (by rw [← toNat_code hc, h, toNat_code hd])
    · have hle := le_lead hc
      rw [h, UInt8.le_iff_toNat_le, toNat_code hd] at hle
      exact absurd (Nat.le_trans hle hd) (by decide)
  · rintro rfl
    exact lead_of_isAscii hd

theorem isLetter_iff_toNat {c : Char} :
    isLetter c = true ↔ (97 ≤ c.toNat ∧ c.toNat ≤ 122) ∨ (65 ≤ c.toNat ∧ c.toNat ≤ 90) := by
  have hletter : isLetter c = (decide (65 ≤ c.val ∧ c.val ≤ 90) || (decide (97 ≤ c.val) && decide (c.val ≤ 122))) := rfl
  simp only [hletter, Bool.or_eq_true, Bool.and_eq_true, decide_eq_true_eq, UInt32.le_iff_toNat_le]
  exact or_comm

theorem isAscii_of_isLetter {c : Char} (hc : isLetter c = true) : IsAscii c := by
  have h := isLetter_iff_toNat.1 hc
  rw [IsAscii]
  omega

theorem isLetterByte_lead (c : Char) : isLetterByte (lead c) = isLetter c := by
  by_cases hc : IsAscii c
  · have ha : (code 'a').toNat = 97 := rfl
    have hz : (code 'z').toNat = 122 := rfl
    have hA : (code 'A').toNat = 65 := rfl
    have hZ : (code 'Z').toNat = 90 := rfl
    rw [lead_of_isAscii hc, Bool.eq_iff_iff, isLetter_iff_toNat]
    simp only [isLetterByte, Bool.or_eq_true, Bool.and_eq_true, decide_eq_true_eq, UInt8.le_iff_toNat_le, toNat_code hc,
      ha, hz, hA, hZ]
  · have hle := le_lead hc
    have hz : ¬ lead c ≤ code 'z' := fun h => absurd (UInt8.le_trans hle h) (by decide)
    have hZ : ¬ lead c ≤ code 'Z' := fun h => absurd (UInt8.le_trans hle h) (by decide)
    have hc : isLetter c = false := by
      rw [← Bool.not_eq_true]
      exact fun h => hc (isAscii_of_isLetter h)
    simp [isLetterByte, hz, hZ, hc]

/-! ### Cuts -/

/-- What lies ahead of a position, if it is one at which the text can be cut. -/
def from? (t : Text) (i : Nat) : Option Text := (t.splitAt? i).map Prod.snd

/-- The two parts of the text at a position. -/
def parts (t : Text) (i : Nat) : Run (Text × Text) :=
  if t.size < i then .error .outOfRange
  else
    match t.splitAt? i with
    | some parts => .ok parts
    | none => .error .insideCharacter

/-- The text from a position on. -/
def cutFrom (t : Text) (i : Nat) : Run Text := (parts t i).map Prod.snd

/-- The text up to a position. -/
def cutTo (t : Text) (i : Nat) : Run Text := (parts t i).map Prod.fst

/-- The text between two positions. -/
def cut (t : Text) (i j : Nat) : Run Text :=
  if j < i then .error .backwards
  else do
    let front ← cutTo t j
    cutFrom front i

/-! ### Positions between characters -/

/-- **The position stands between two parts of the text.** -/
structure Stands (t behind ahead : Text) (i : Nat) : Prop where
  /-- The two parts make up the text. -/
  text_eq : t = behind ++ ahead
  /-- The position counts the bytes of the first part. -/
  size_eq : behind.size = i

theorem splitAt?_append (behind ahead : Text) : (behind ++ ahead).splitAt? behind.size = some (behind, ahead) := by
  induction behind with
  | nil => cases ahead <;> rfl
  | cons c behind ih =>
      have hpos := Char.utf8Size_pos c
      rw [List.cons_append, splitAt?, if_neg (by rw [size_cons]; omega), if_neg (by rw [size_cons]; omega), size_cons,
        Nat.add_sub_cancel_left, ih]
      rfl

theorem stands_of_splitAt? {t behind ahead : Text} {i : Nat} (h : t.splitAt? i = some (behind, ahead)) :
    Stands t behind ahead i :=
  ⟨(splitAt?_eq_append h).1, (splitAt?_eq_append h).2⟩

/-- The start. -/
theorem stands_zero (t : Text) : Stands t [] t 0 := ⟨rfl, rfl⟩

namespace Stands

variable {t behind ahead : Text} {i : Nat}

theorem splitAt? (h : Stands t behind ahead i) : t.splitAt? i = some (behind, ahead) := by
  rw [h.text_eq, ← h.size_eq, splitAt?_append]

theorem size_text (h : Stands t behind ahead i) : t.size = i + ahead.size := by
  rw [h.text_eq, size_append, h.size_eq]

/-- The position behind some of what lies ahead. -/
theorem advance {u : Text} (h : Stands t behind (u ++ ahead) i) : Stands t (behind ++ u) ahead (i + u.size) :=
  ⟨by rw [h.text_eq, List.append_assoc], by rw [size_append, h.size_eq]⟩

/-- The position behind the next character. -/
theorem next {c : Char} (h : Stands t behind (c :: ahead) i) : Stands t (behind ++ [c]) ahead (i + c.utf8Size) :=
  h.advance (u := [c])

/-- The position behind an ASCII character. -/
theorem succ {c : Char} (h : Stands t behind (c :: ahead) i) (hc : IsAscii c) :
    Stands t (behind ++ [c]) ahead (i + 1) := by
  have hnext := h.next
  rwa [utf8Size_of_isAscii hc] at hnext

/-! ### Reading and cutting there -/

theorem drop_bytes (h : Stands t behind ahead i) : (bytes t).drop i = bytes ahead := by
  rw [h.text_eq, bytes_append, ← h.size_eq, ← length_bytes, List.drop_left]

theorem byte?_nil (h : Stands t behind [] i) : byte? t i = none := by
  rw [byte?, List.getElem?_eq_none_iff, length_bytes, h.size_text]
  exact Nat.le_refl _

theorem byte?_cons {c : Char} (h : Stands t behind (c :: ahead) i) : byte? t i = some (lead c) := by
  rw [byte?, ← List.head?_drop, h.drop_bytes, bytes_cons, List.head?_append,
    List.head?_eq_some_head String.utf8EncodeChar_ne_nil]
  rfl

theorem byte_cons {c : Char} (h : Stands t behind (c :: ahead) i) : byte t i = .ok (lead c) := by
  rw [byte, h.byte?_cons]

theorem byte?_eq_code_iff {d : Char} (h : Stands t behind ahead i) (hd : IsAscii d) :
    byte? t i = some (code d) ↔ ahead.head? = some d := by
  cases ahead with
  | nil => simp [h.byte?_nil]
  | cons c ahead => rw [h.byte?_cons, Option.some_inj, lead_eq_code_iff hd, List.head?_cons, Option.some_inj]

theorem parts (h : Stands t behind ahead i) : Checked.parts t i = .ok (behind, ahead) := by
  rw [Checked.parts, if_neg (by rw [h.size_text]; omega), h.splitAt?]

theorem cutFrom (h : Stands t behind ahead i) : Checked.cutFrom t i = .ok ahead := by
  rw [Checked.cutFrom, h.parts]
  rfl

theorem cutTo (h : Stands t behind ahead i) : Checked.cutTo t i = .ok behind := by
  rw [Checked.cutTo, h.parts]
  rfl

theorem from? (h : Stands t behind ahead i) : Checked.from? t i = some ahead := by
  rw [Checked.from?, h.splitAt?]
  rfl

/-- **A cut between two characters succeeds.** -/
theorem cut {u : Text} (h : Stands t behind (u ++ ahead) i) : Checked.cut t i (i + u.size) = .ok u := by
  have hfront : Stands (behind ++ u) behind u i := ⟨rfl, h.size_eq⟩
  rw [Checked.cut, if_neg (by omega), h.advance.cutTo, ok_bind, hfront.cutFrom]

/-- Two positions are as far apart as what stands between them is long. -/
theorem size_mid {front mid : Text} {j : Nat} (hj : Stands t front (mid ++ ahead) j) (h : Stands t behind ahead i) :
    j + mid.size = i := by
  have hsize := h.size_text
  have hsize' := hj.size_text
  rw [size_append] at hsize'
  omega

/-- What stands between two positions is cut out. -/
theorem cut_segment {front mid : Text} {j : Nat} (h : Stands t behind ahead i) (hj : Stands t front (mid ++ ahead) j) :
    Checked.cut t j i = .ok mid := by
  rw [← hj.size_mid h]
  exact hj.cut

end Stands

theorem stands_of_parts {t : Text} {i : Nat} {found : Text × Text} (h : parts t i = .ok found) :
    Stands t found.1 found.2 i := by
  rw [parts] at h
  split at h
  · simp at h
  · split at h
    · next hsplit =>
        obtain rfl := Except.ok.inj h
        exact stands_of_splitAt? hsplit
    · simp at h

theorem stands_of_cutTo {t u : Text} {i : Nat} (h : cutTo t i = .ok u) : ∃ ahead, Stands t u ahead i := by
  rw [cutTo] at h
  cases hparts : parts t i with
  | error fault => simp [hparts, Except.map] at h
  | ok found =>
      obtain rfl : found.1 = u := by simpa [hparts, Except.map] using h
      exact ⟨_, stands_of_parts hparts⟩

theorem stands_of_cutFrom {t u : Text} {i : Nat} (h : cutFrom t i = .ok u) : ∃ behind, Stands t behind u i := by
  rw [cutFrom] at h
  cases hparts : parts t i with
  | error fault => simp [hparts, Except.map] at h
  | ok found =>
      obtain rfl : found.2 = u := by simpa [hparts, Except.map] using h
      exact ⟨_, stands_of_parts hparts⟩

/-- **A cut is one between two positions** that stand between characters, the first not behind the second. -/
theorem cut_eq_ok_iff {t u : Text} {i j : Nat} :
    cut t i j = .ok u ↔ ∃ behind ahead, Stands t behind (u ++ ahead) i ∧ j = i + u.size := by
  constructor
  · intro h
    rw [cut] at h
    split at h
    · simp at h
    · cases hfront : cutTo t j with
      | error fault =>
          rw [hfront] at h
          nomatch h
      | ok front =>
          rw [hfront, ok_bind] at h
          obtain ⟨ahead, hj⟩ := stands_of_cutTo hfront
          obtain ⟨behind, hi⟩ := stands_of_cutFrom h
          -- The start of the cut is looked for in the text up to its end.
          refine ⟨behind, ahead, ⟨?_, hi.size_eq⟩, ?_⟩
          · rw [← List.append_assoc, ← hi.text_eq, hj.text_eq]
          · rw [← hj.size_eq, hi.size_text]
  · rintro ⟨behind, ahead, h, rfl⟩
    exact h.cut

/-- The positions of a cut are in order, in the text, and between characters. -/
theorem between_of_cut {t u : Text} {i j : Nat} (h : cut t i j = .ok u) :
    i ≤ j ∧ j ≤ t.size ∧ (t.splitAt? i).isSome ∧ (t.splitAt? j).isSome := by
  obtain ⟨behind, ahead, hi, rfl⟩ := cut_eq_ok_iff.1 h
  have hj := hi.advance
  have hsize := hj.size_text
  exact ⟨by omega, by omega, by rw [hi.splitAt?]; rfl, by rw [hj.splitAt?]; rfl⟩

/-! ### Searches for characters -/

/-- Where the first character with a property stands. -/
def position? (p : Char → Bool) (t : Text) : Option Nat :=
  match t.dropWhile fun c => !p c with
  | [] => none
  | _ :: _ => some (size (t.takeWhile fun c => !p c))

/-- It stands behind those without the property; if there is none, these are all that lie ahead. -/
theorem Stands.position? {t behind ahead : Text} {i : Nat} (h : Stands t behind ahead i) (p : Char → Bool) :
    (Checked.position? p ahead).elim t.size (i + ·) = i + size (ahead.takeWhile fun c => !p c) := by
  have happend : (ahead.takeWhile fun c => !p c) ++ (ahead.dropWhile fun c => !p c) = ahead :=
    List.takeWhile_append_dropWhile
  rw [Checked.position?]
  split
  · next hnil =>
      rw [hnil, List.append_nil] at happend
      rw [happend, Option.elim_none, h.size_text]
  · rfl

/-! ### Positions inside of characters -/

/-- **A position inside of a character** has a byte that goes on with it. -/
theorem Stands.byte?_inside {t behind ahead : Text} {c : Char} {i j : Nat} (h : Stands t behind (c :: ahead) i)
    (hlt : i < j) (hj : j < i + c.utf8Size) : ∃ b, byte? t j = some b ∧ GoesOn b := by
  have hindex : j - i < (String.utf8EncodeChar c).length := by
    rw [String.length_utf8EncodeChar]
    omega
  refine ⟨(String.utf8EncodeChar c)[j - i], ?_, ?_⟩
  · have hdrop : (bytes t)[j]? = ((bytes t).drop i)[j - i]? := by
      rw [List.getElem?_drop, Nat.add_sub_cancel' (Nat.le_of_lt hlt)]
    rw [byte?, hdrop, h.drop_bytes, bytes_cons, List.getElem?_append_left hindex, List.getElem?_eq_getElem hindex]
  · rw [GoesOn, UInt8.isUTF8FirstByte_getElem_utf8EncodeChar]
    omega

theorem byte?_of_size_le {t : Text} {i : Nat} (h : t.size ≤ i) : byte? t i = none := by
  rw [byte?, List.getElem?_eq_none_iff, length_bytes]
  exact h

/-- **A position at which the text cannot be cut** is past the end, or its byte goes on with a character. -/
theorem byte?_of_splitAt?_eq_none {t : Text} {i : Nat} (h : t.splitAt? i = none) :
    ∀ b ∈ byte? t i, GoesOn b := by
  induction t generalizing i with
  | nil =>
      intro b hb
      simp [byte?] at hb
  | cons c t ih =>
      intro b hb
      rw [splitAt?] at h
      split at h
      · simp at h
      · next hi =>
          rw [byte?, bytes_cons] at hb
          split at h
          · next hlt =>
              -- The position is inside the first character.
              have hlt : i < (String.utf8EncodeChar c).length := by rwa [String.length_utf8EncodeChar]
              rw [List.getElem?_append_left hlt, List.getElem?_eq_getElem hlt] at hb
              obtain rfl := Option.some.inj hb
              rw [GoesOn, UInt8.isUTF8FirstByte_getElem_utf8EncodeChar]
              exact hi
          · next hle =>
              have hle : (String.utf8EncodeChar c).length ≤ i := by
                rw [String.length_utf8EncodeChar]
                omega
              rw [List.getElem?_append_right hle, String.length_utf8EncodeChar] at hb
              exact ih (Option.map_eq_none_iff.1 h) b hb

/-! ### Loops -/

/-- What a round of a loop comes to. -/
inductive Round (σ α : Type)
  /-- The loop ends. -/
  | done (a : α)
  /-- The loop goes on from a position. -/
  | next (s : σ) (i : Nat)

/-- **A loop over the positions of a text with so many bytes.**  Every round must move forward, and only the last
one can be past the end. -/
def loop {σ α : Type} (size : Nat) (round : σ → Nat → Run (Round σ α)) (s : σ) (i : Nat) : Run α :=
  match round s i with
  | .error fault => .error fault
  | .ok (.done a) => .ok a
  | .ok (.next s' i') => if i < i' ∧ i < size then loop size round s' i' else .error .stuck
termination_by size - i
decreasing_by omega

section Loop

variable {σ α : Type} {total : Nat} {round : σ → Nat → Run (Round σ α)} {s s' : σ} {i i' : Nat}

theorem loop_done {a : α} (h : round s i = .ok (.done a)) : loop total round s i = .ok a := by
  rw [loop, h]

theorem loop_next (h : round s i = .ok (.next s' i')) (hi : i < i') (hsize : i < total) :
    loop total round s i = loop total round s' i' := by
  rw [loop, h]
  exact if_pos ⟨hi, hsize⟩

/-- The loop passes over a byte that goes on with a character. -/
def PassesOver (t : Text) (round : σ → Nat → Run (Round σ α)) : Prop :=
  ∀ s i b, byte? t i = some b → GoesOn b → round s i = .ok (.next s (i + 1))

/-- **A loop that passes over such bytes leaves a character at its end**, wherever inside of it the loop is. -/
theorem loop_inside {t behind ahead : Text} {c : Char} {j : Nat} (hround : PassesOver t round)
    (h : Stands t behind (c :: ahead) i) (hlt : i < j) (hle : j ≤ i + c.utf8Size) :
    loop t.size round s j = loop t.size round s (i + c.utf8Size) := by
  rcases Nat.eq_or_lt_of_le hle with rfl | hj
  · rfl
  · obtain ⟨b, hbyte, hb⟩ := h.byte?_inside hlt hj
    have hsize := h.size_text
    rw [size_cons] at hsize
    rw [loop_next (hround s j b hbyte hb) (Nat.lt_succ_self j) (by omega)]
    exact loop_inside hround h (Nat.lt_succ_of_lt hlt) hj
termination_by i + c.utf8Size - j

/-- A round that goes on one byte behind a character's start goes on behind the character. -/
theorem loop_step {t behind ahead : Text} {c : Char} (hround : PassesOver t round)
    (h : Stands t behind (c :: ahead) i) (hnext : round s i = .ok (.next s' (i + 1))) :
    loop t.size round s i = loop t.size round s' (i + c.utf8Size) := by
  have hsize := h.size_text
  have hpos := Char.utf8Size_pos c
  rw [size_cons] at hsize
  rw [loop_next hnext (Nat.lt_succ_self i) (by omega)]
  exact loop_inside hround h (Nat.lt_succ_self i) (Nat.add_le_add_left hpos i)

/-- A round that goes on two bytes behind an ASCII character's start goes on behind the character that follows. -/
theorem loop_pair {t behind ahead : Text} {c d : Char} (hround : PassesOver t round)
    (h : Stands t behind (c :: d :: ahead) i) (hc : IsAscii c) (hnext : round s i = .ok (.next s' (i + 2))) :
    loop t.size round s i = loop t.size round s' (i + 1 + d.utf8Size) := by
  have hsize := h.size_text
  have hpos := Char.utf8Size_pos d
  rw [size_cons, size_cons, utf8Size_of_isAscii hc] at hsize
  rw [loop_next hnext (by omega) (by omega)]
  exact loop_inside hround (h.succ hc) (by omega) (by omega)

/-- The position is behind the start of the last character of what lies ahead, and no further than its end. -/
def Lands (i : Nat) (source : Text) (next : Nat) : Prop :=
  ∃ front c, source = front ++ [c] ∧ i + size front < next ∧ next ≤ i + size source

theorem Lands.lt {source : Text} {next : Nat} (h : Lands i source next) : i < next := by
  obtain ⟨front, c, -, hlt, -⟩ := h
  omega

theorem lands_end {source : Text} (hne : source ≠ []) : Lands i source (i + size source) := by
  have hsource := List.dropLast_concat_getLast hne
  refine ⟨source.dropLast, source.getLast hne, hsource.symm, ?_, Nat.le_refl _⟩
  have hpos := Char.utf8Size_pos (source.getLast hne)
  rw [← hsource, size_append, List.dropLast_concat, size_cons, size_nil]
  omega

/-- A look that goes on two bytes behind a backslash leaves the character that follows. -/
theorem lands_pair (i : Nat) (c d : Char) (hc : IsAscii c) : Lands i [c, d] (i + 2) := by
  have hpos := Char.utf8Size_pos d
  refine ⟨[c], d, rfl, ?_, ?_⟩
  · rw [size_cons, size_nil, utf8Size_of_isAscii hc]
    omega
  · rw [size_cons, size_cons, size_nil, utf8Size_of_isAscii hc]
    omega

/-- **A loop goes on where it would go on behind the character.** -/
theorem loop_lands {t behind source ahead : Text} {next : Nat} (hround : PassesOver t round)
    (h : Stands t behind (source ++ ahead) i) (hnext : Lands i source next) :
    loop t.size round s next = loop t.size round s (i + size source) := by
  obtain ⟨front, c, rfl, hlt, hle⟩ := hnext
  have hc : Stands t (behind ++ front) (c :: ahead) (i + size front) := Stands.advance (by simpa using h)
  rw [size_append, size_cons, size_nil, Nat.add_zero, ← Nat.add_assoc] at hle ⊢
  exact loop_inside hround hc hlt hle

end Loop

end CribSheet.Checked
