/-
Argument groups: `{..}` and `[..]`.

Braces nest, and a backslash takes the character after it out of the count.  Inside a bracket group
brackets count only outside of braces, so `[a{]}b]` is one group.  Between a command and its arguments
stand spaces, tabs and at most one line break; a blank line ends the argument list.

Main definitions:

* `CribSheet.Markup.argumentSpace` — that space, and the rest of the text;
* `CribSheet.Markup.closeBrace?`, `CribSheet.Markup.closeBracket?` — up to the closing delimiter;
* `CribSheet.Markup.Group.read?` — the group at the start of a text;
* `CribSheet.Markup.Argument.read?` — the next mandatory argument;
* `CribSheet.Markup.groups` — all groups that follow directly.

Main results:

* `CribSheet.Markup.Group.text_read?`, `CribSheet.Markup.Argument.text_read?`,
  `CribSheet.Markup.groups_append` — reading splits the text and loses nothing.
-/
import CribSheet.Markup.Command

set_option relaxedAutoImplicit false
set_option autoImplicit false

namespace CribSheet.Markup

/-! ### Space before an argument -/

/-- The space that may stand before an argument, and the rest of the text. -/
def argumentSpace (t : Text) : Text × Text :=
  match t.dropWhile isGap with
  | '\n' :: rest => (t.takeWhile isGap ++ '\n' :: rest.takeWhile isGap, rest.dropWhile isGap)
  | rest => (t.takeWhile isGap, rest)

theorem argumentSpace_append (t : Text) : (argumentSpace t).1 ++ (argumentSpace t).2 = t := by
  have h : t.takeWhile isGap ++ t.dropWhile isGap = t := List.takeWhile_append_dropWhile
  rw [argumentSpace]
  split
  · next rest hr =>
    rw [hr] at h
    simpa using h
  · exact h

theorem length_argumentSpace_le (t : Text) : (argumentSpace t).2.length ≤ t.length := by
  have h := congrArg List.length (argumentSpace_append t)
  rw [List.length_append] at h
  omega

theorem argumentSpace_of_head {t : Text} (h : ∀ c ∈ t.head?, isGap c = false ∧ c ≠ '\n') :
    argumentSpace t = ([], t) := by
  cases t with
  | nil => rfl
  | cons c t =>
      obtain ⟨hgap, hbreak⟩ := h c rfl
      have hdrop : (c :: t).dropWhile isGap = c :: t := by simp [hgap]
      have htake : (c :: t).takeWhile isGap = [] := by simp [hgap]
      rw [argumentSpace, hdrop, htake]
      split
      · next he => exact absurd (List.cons.inj he).1 hbreak
      · rfl

/-- No gap stands behind argument space. -/
theorem isGap_head?_argumentSpace (t : Text) : ∀ c ∈ (argumentSpace t).2.head?, isGap c = false := by
  have hdrop : ∀ x : Text, ∀ c ∈ (x.dropWhile isGap).head?, isGap c = false := by
    intro x c hc
    have h := List.head?_dropWhile_not isGap x
    rwa [Option.mem_def.1 hc] at h
  rw [argumentSpace]
  split
  · next rest _ => exact hdrop rest
  · exact hdrop t

/-- Argument space that does not end at another line break is all the space there is. -/
theorem argumentSpace_argumentSpace {t : Text} (h : (argumentSpace t).2.head? ≠ some '\n') :
    argumentSpace (argumentSpace t).2 = ([], (argumentSpace t).2) :=
  argumentSpace_of_head fun c hc =>
    ⟨isGap_head?_argumentSpace t c hc, fun hbreak => h (by rw [Option.mem_def.1 hc, hbreak])⟩

/-! ### Groups -/

/-- The text up to the brace that closes the current group, and what follows that brace; `depth` inner
groups are open. -/
def closeBrace? : (depth : Nat) → Text → Option (Text × Text)
  | _, [] => none
  | depth, c :: t =>
    if c = '\\' then
      match t with
      | [] => none
      | d :: t' => (closeBrace? depth t').map fun (inner, after) => (c :: d :: inner, after)
    else if c = '{' then
      (closeBrace? (depth + 1) t).map fun (inner, after) => (c :: inner, after)
    else if c = '}' then
      match depth with
      | 0 => some ([], t)
      | depth + 1 => (closeBrace? depth t).map fun (inner, after) => (c :: inner, after)
    else (closeBrace? depth t).map fun (inner, after) => (c :: inner, after)

/-- The text up to the bracket that closes the current group, and what follows that bracket; `depth`
inner bracket groups and `braces` braces are open.  A closing brace without an opening one does not
count. -/
def closeBracket? : (depth braces : Nat) → Text → Option (Text × Text)
  | _, _, [] => none
  | depth, braces, c :: t =>
    if c = '\\' then
      match t with
      | [] => none
      | d :: t' => (closeBracket? depth braces t').map fun (inner, after) => (c :: d :: inner, after)
    else if c = '{' then
      (closeBracket? depth (braces + 1) t).map fun (inner, after) => (c :: inner, after)
    else if c = '}' then
      (closeBracket? depth (braces - 1) t).map fun (inner, after) => (c :: inner, after)
    else if c = '[' ∧ braces = 0 then
      (closeBracket? (depth + 1) braces t).map fun (inner, after) => (c :: inner, after)
    else if c = ']' ∧ braces = 0 then
      match depth with
      | 0 => some ([], t)
      | depth + 1 => (closeBracket? depth braces t).map fun (inner, after) => (c :: inner, after)
    else (closeBracket? depth braces t).map fun (inner, after) => (c :: inner, after)

theorem closeBrace?_eq_append (depth : Nat) (t : Text) {inner after : Text}
    (h : closeBrace? depth t = some (inner, after)) : t = inner ++ '}' :: after := by
  fun_induction closeBrace? depth t generalizing inner <;>
    first
    | (obtain ⟨⟨i, a⟩, hi, hia⟩ := Option.map_eq_some_iff.1 h
       obtain ⟨rfl, rfl⟩ := Prod.mk.inj hia
       simp_all)
    | simp_all

theorem closeBracket?_eq_append (depth braces : Nat) (t : Text) {inner after : Text}
    (h : closeBracket? depth braces t = some (inner, after)) : t = inner ++ ']' :: after := by
  fun_induction closeBracket? depth braces t generalizing inner <;>
    first
    | (obtain ⟨⟨i, a⟩, hi, hia⟩ := Option.map_eq_some_iff.1 h
       obtain ⟨rfl, rfl⟩ := Prod.mk.inj hia
       simp_all)
    | simp_all

/-- The delimiters of a group. -/
inductive Fence
  | brace
  | bracket
deriving Repr, DecidableEq

/-- A balanced group at the start of a text. -/
structure Group where
  /-- Its delimiters. -/
  fence : Fence
  /-- What stands between them. -/
  inner : Text
  /-- What follows the group. -/
  after : Text
deriving Repr, DecidableEq

namespace Group

/-- The group as it is written. -/
def source (g : Group) : Text :=
  match g.fence with
  | .brace => '{' :: g.inner ++ ['}']
  | .bracket => '[' :: g.inner ++ [']']

/-- The text that starts with the group. -/
def text (g : Group) : Text := g.source ++ g.after

/-- The balanced group at the start of the text. -/
def read? : Text → Option Group
  | [] => none
  | c :: t =>
    if c = '{' then (closeBrace? 0 t).map fun (inner, after) => ⟨.brace, inner, after⟩
    else if c = '[' then (closeBracket? 0 0 t).map fun (inner, after) => ⟨.bracket, inner, after⟩
    else none

/-- The bracket group at the start of the text. -/
def readBracket? (t : Text) : Option Group := (read? t).filter (·.fence = .bracket)

theorem text_read? {t : Text} {g : Group} (h : read? t = some g) : g.text = t := by
  match t with
  | [] => simp [read?] at h
  | c :: t =>
    rw [read?] at h
    split at h
    · next hc =>
      obtain ⟨⟨i, a⟩, hi, rfl⟩ := Option.map_eq_some_iff.1 h
      simp [text, source, closeBrace?_eq_append 0 t hi, hc]
    · split at h
      · next hc =>
        obtain ⟨⟨i, a⟩, hi, rfl⟩ := Option.map_eq_some_iff.1 h
        simp [text, source, closeBracket?_eq_append 0 0 t hi, hc]
      · simp at h

theorem length_after_add_two (g : Group) : g.text.length = g.inner.length + g.after.length + 2 := by
  obtain ⟨fence, inner, after⟩ := g
  cases fence <;> simp [text, source] <;> omega

theorem length_after_read? {t : Text} {g : Group} (h : read? t = some g) :
    g.after.length < t.length := by
  have := g.length_after_add_two
  rw [text_read? h] at this
  omega

end Group

/-! ### Arguments -/

/-- A mandatory argument of a command, with the space before it. -/
structure Argument where
  /-- The space before the opening brace. -/
  space : Text
  /-- What stands between the braces. -/
  inner : Text
  /-- What follows the closing brace. -/
  after : Text
deriving Repr, DecidableEq

namespace Argument

/-- The argument as it is written, with the space before it. -/
def source (a : Argument) : Text := a.space ++ '{' :: a.inner ++ ['}']

/-- The text that starts with the argument. -/
def text (a : Argument) : Text := a.source ++ a.after

/-- The brace group that follows, after argument space. -/
def read? (t : Text) : Option Argument :=
  match Group.read? (argumentSpace t).2 with
  | some ⟨.brace, inner, after⟩ => some ⟨(argumentSpace t).1, inner, after⟩
  | _ => none

theorem text_read? {t : Text} {a : Argument} (h : read? t = some a) : a.text = t := by
  rw [read?] at h
  split at h
  · next inner after hg =>
    obtain rfl := Option.some.inj h
    have hg := Group.text_read? hg
    conv => rhs; rw [← argumentSpace_append t, ← hg]
    simp [text, source, Group.text, Group.source]
  · simp at h

/-- An argument holds the same when the space in front of it is crossed before it is read. -/
theorem inner_read?_argumentSpace {t : Text} (h : (argumentSpace t).2.head? ≠ some '\n') :
    (read? (argumentSpace t).2).map inner = (read? t).map inner := by
  rw [read?, read?, argumentSpace_argumentSpace h]
  rcases Group.read? (argumentSpace t).2 with _ | ⟨_ | _, _, _⟩ <;> rfl

theorem length_inner_add_after_read? {t : Text} {a : Argument} (h : read? t = some a) :
    a.inner.length + a.after.length + 2 ≤ t.length := by
  rw [← text_read? h]
  simp only [text, source, List.length_append, List.length_cons, List.length_nil]
  omega

end Argument

/-- The groups that follow directly, with the space before each, and the rest of the text. -/
def groups (t : Text) : Text × Text :=
  match h : Group.read? (argumentSpace t).2 with
  | none => ([], t)
  | some g =>
    have : g.after.length < t.length :=
      Nat.lt_of_lt_of_le (Group.length_after_read? h) (length_argumentSpace_le t)
    ((argumentSpace t).1 ++ g.source ++ (groups g.after).1, (groups g.after).2)
termination_by t.length

theorem groups_append (t : Text) : (groups t).1 ++ (groups t).2 = t := by
  fun_induction groups t with
  | case1 => simp
  | case2 t g h _ ih =>
    conv => rhs; rw [← argumentSpace_append t, ← Group.text_read? h, Group.text, ← ih]
    simp

end CribSheet.Markup
