/-
Reading groups through a text.

Groups in braces and in brackets are read alike: a backslash is taken together with the character behind it,
and every other character closes the group or leaves it open in a state of its own.  What follows from that
alone is proved once, for every such reader: how a group goes on through two texts, that it does not depend on
what follows it, and that no escape is open behind it.

Main definitions:

* `CribSheet.Markup.GroupReader` — a reader of groups, with the step of its state;
* `CribSheet.Markup.braceReader`, `CribSheet.Markup.bracketReader` — the two kinds of group.

Main results:

* `CribSheet.Markup.token_induction` — induction that takes a backslash with what it escapes;
* `CribSheet.Markup.GroupReader.append_of_none`, `CribSheet.Markup.GroupReader.append_right` — a group that
  does not close in a text goes on behind it, and one that closes there does not depend on what follows;
* `CribSheet.Markup.escapedAfter_source_of_read?` — no escape is open behind a group.
-/
import Mathlib.Data.Nat.PSub
import CribSheet.Proofs.Markup.Heads

set_option relaxedAutoImplicit false
set_option autoImplicit false

namespace CribSheet.Markup

open CribSheet.Text

/-! ### Readers -/

/-- **Induction on a text** that takes a backslash together with the character behind it. -/
@[elab_as_elim]
theorem token_induction {motive : Text → Prop} (nil : motive []) (slash : motive ['\\'])
    (pair : ∀ d t, motive t → motive ('\\' :: d :: t))
    (char : ∀ c t, c ≠ '\\' → motive t → motive (c :: t)) : ∀ t, motive t
  | [] => nil
  | [c] => if hc : c = '\\' then hc ▸ slash else char c [] hc nil
  | c :: d :: t =>
      if hc : c = '\\' then hc ▸ pair d t (token_induction nil slash pair char t)
      else char c (d :: t) hc (token_induction nil slash pair char (d :: t))

/-- A reader of groups.  A backslash is part of the group together with the character behind it; every other
character closes the group, or leaves it open in a state of its own. -/
structure GroupReader (State : Type) where
  /-- What the group holds from here on, and what follows it. -/
  read : State → Text → Option (Text × Text)
  /-- The state behind a character, if it does not close the group. -/
  next : State → Char → Option State
  read_nil : ∀ s, read s [] = none
  read_slash : ∀ s, read s ['\\'] = none
  read_pair : ∀ s d t, read s ('\\' :: d :: t) = (read s t).map fun p => ('\\' :: d :: p.1, p.2)
  read_char : ∀ s {c} t, c ≠ '\\' → read s (c :: t) =
    match next s c with
    | some s' => (read s' t).map fun p => (c :: p.1, p.2)
    | none => some ([], t)

namespace GroupReader

variable {State : Type} (G : GroupReader State)

variable {G} {s : State} {t inner after : Text}

theorem read_of_open {s' : State} {c : Char} (t : Text) (hc : c ≠ '\\') (hnext : G.next s c = some s') :
    G.read s (c :: t) = (G.read s' t).map fun p => (c :: p.1, p.2) := by
  rw [G.read_char s t hc, hnext]

theorem read_of_close {c : Char} (t : Text) (hc : c ≠ '\\') (hnext : G.next s c = none) :
    G.read s (c :: t) = some ([], t) := by
  rw [G.read_char s t hc, hnext]

theorem exists_of_read_pair {d : Char} (h : G.read s ('\\' :: d :: t) = some (inner, after)) :
    ∃ inner', inner = '\\' :: d :: inner' ∧ G.read s t = some (inner', after) := by
  rw [G.read_pair] at h
  obtain ⟨⟨inner', after'⟩, hread, heq⟩ := Option.map_eq_some_iff.1 h
  obtain ⟨rfl, rfl⟩ := Prod.mk.inj heq
  exact ⟨inner', rfl, hread⟩

/-- A character closes the group, or is the first one that it holds. -/
theorem read_char_cases {c : Char} (hc : c ≠ '\\') (h : G.read s (c :: t) = some (inner, after)) :
    (G.next s c = none ∧ inner = [] ∧ after = t) ∨
      ∃ s' inner', G.next s c = some s' ∧ inner = c :: inner' ∧ G.read s' t = some (inner', after) := by
  cases hnext : G.next s c with
  | none =>
      rw [read_of_close t hc hnext] at h
      obtain ⟨rfl, rfl⟩ := Prod.mk.inj (Option.some.inj h)
      exact .inl ⟨rfl, rfl, rfl⟩
  | some s' =>
      rw [read_of_open t hc hnext] at h
      obtain ⟨⟨inner', after'⟩, hread, heq⟩ := Option.map_eq_some_iff.1 h
      obtain ⟨rfl, rfl⟩ := Prod.mk.inj heq
      exact .inr ⟨s', inner', rfl, rfl, hread⟩

/-- No escape is open where a group closes. -/
theorem escapedAfter_inner (h : G.read s t = some (inner, after)) : escapedAfter false inner = false := by
  induction t using token_induction generalizing s inner with
  | nil => simp [G.read_nil] at h
  | slash => simp [G.read_slash] at h
  | pair d t ih =>
      obtain ⟨inner', rfl, hread⟩ := exists_of_read_pair h
      rw [escapedAfter_pair, ih hread]
  | char c t hc ih =>
      obtain ⟨-, rfl, -⟩ | ⟨s', inner', -, rfl, hread⟩ := read_char_cases hc h
      · rfl
      · rw [escapedAfter_cons_of_ne hc, ih hread]

/-- **A group is read up to the character that closes it**, whatever follows. -/
theorem exists_close (h : G.read s t = some (inner, after)) :
    ∃ c, t = inner ++ c :: after ∧ ∀ rest, G.read s (inner ++ c :: rest) = some (inner, rest) := by
  induction t using token_induction generalizing s inner with
  | nil => simp [G.read_nil] at h
  | slash => simp [G.read_slash] at h
  | pair d t ih =>
      obtain ⟨inner', rfl, hread⟩ := exists_of_read_pair h
      obtain ⟨c, rfl, hrest⟩ := ih hread
      refine ⟨c, rfl, fun rest => ?_⟩
      rw [List.cons_append, List.cons_append, G.read_pair, hrest, Option.map_some]
  | char d t hd ih =>
      obtain ⟨hnext, rfl, rfl⟩ | ⟨s', inner', hnext, rfl, hread⟩ := read_char_cases hd h
      · exact ⟨d, rfl, fun rest => read_of_close rest hd hnext⟩
      · obtain ⟨c, rfl, hrest⟩ := ih hread
        refine ⟨c, rfl, fun rest => ?_⟩
        rw [List.cons_append, read_of_open _ hd hnext, hrest, Option.map_some]

/-- A group that closes closes in a longer text, too. -/
theorem append_right (h : G.read s t = some (inner, after)) (m : Text) :
    G.read s (t ++ m) = some (inner, after ++ m) := by
  obtain ⟨c, rfl, hrest⟩ := exists_close h
  rw [List.append_assoc, List.cons_append, hrest]

/-- **A group that does not close in a text goes on behind it.** -/
theorem append_of_none {a : Text} (h : G.read s a = none) (ha : escapedAfter false a = false) :
    ∃ s', ∀ b, G.read s (a ++ b) = (G.read s' b).map fun p => (a ++ p.1, p.2) := by
  induction a using token_induction generalizing s with
  | nil => exact ⟨s, fun b => by simp⟩
  | slash => simp [escapes] at ha
  | pair d a ih =>
      rw [escapedAfter_pair] at ha
      rw [G.read_pair] at h
      obtain ⟨s', hgo⟩ := ih (Option.map_eq_none_iff.1 h) ha
      refine ⟨s', fun b => ?_⟩
      rw [List.cons_append, List.cons_append, G.read_pair, hgo, Option.map_map]
      rfl
  | char c a hc ih =>
      rw [escapedAfter_cons_of_ne hc] at ha
      cases hnext : G.next s c with
      | none => simp [read_of_close a hc hnext] at h
      | some s₁ =>
          rw [read_of_open a hc hnext] at h
          obtain ⟨s', hgo⟩ := ih (Option.map_eq_none_iff.1 h) ha
          refine ⟨s', fun b => ?_⟩
          rw [List.cons_append, read_of_open _ hc hnext, hgo, Option.map_map]
          rfl

/-- **Reading a group through two texts**: it closes in the first one, or in the second one from a state on. -/
theorem append {a b : Text} (h : G.read s (a ++ b) = some (inner, after)) (ha : escapedAfter false a = false) :
    (∃ rest, G.read s a = some (inner, rest) ∧ after = rest ++ b) ∨
      ∃ s' inner', inner = a ++ inner' ∧ G.read s' b = some (inner', after) := by
  cases hread : G.read s a with
  | some p =>
      rw [append_right hread] at h
      obtain ⟨rfl, rfl⟩ := Prod.mk.inj (Option.some.inj h)
      exact .inl ⟨p.2, rfl, rfl⟩
  | none =>
      obtain ⟨s', hgo⟩ := append_of_none hread ha
      rw [hgo] at h
      obtain ⟨⟨inner', after'⟩, hb, heq⟩ := Option.map_eq_some_iff.1 h
      obtain ⟨rfl, rfl⟩ := Prod.mk.inj heq
      exact .inr ⟨s', inner', rfl, hb⟩

/-- A text whose characters leave the state as it is is passed over. -/
theorem passed_append {x : Text} (hx : ∀ c ∈ x, c ≠ '\\' ∧ G.next s c = some s) (b : Text) :
    G.read s (x ++ b) = (G.read s b).map fun p => (x ++ p.1, p.2) := by
  induction x with
  | nil => simp
  | cons c x ih =>
      obtain ⟨⟨hc, hnext⟩, hx⟩ := List.forall_mem_cons.1 hx
      rw [List.cons_append, read_of_open _ hc hnext, ih hx, Option.map_map]
      rfl

end GroupReader

/-! ### Braces and brackets -/

/-- Groups in braces.  The state is the number of open inner groups. -/
def braceReader : GroupReader Nat where
  read := closeBrace?
  next depth c :=
    if c = '{' then some (depth + 1)
    else if c = '}' then depth.ppred
    else some depth
  read_nil _ := rfl
  read_slash _ := rfl
  read_pair _ _ _ := rfl
  read_char depth c t hc := by
    rw [closeBrace?.eq_def]
    simp only [if_neg hc]
    split
    · rfl
    · split
      · cases depth <;> rfl
      · rfl

/-- Groups in brackets.  The state is the number of open inner groups, and of open braces. -/
def bracketReader : GroupReader (Nat × Nat) where
  read s := closeBracket? s.1 s.2
  next s c :=
    if c = '{' then some (s.1, s.2 + 1)
    else if c = '}' then some (s.1, s.2 - 1)
    else if c = '[' ∧ s.2 = 0 then some (s.1 + 1, s.2)
    else if c = ']' ∧ s.2 = 0 then s.1.ppred.map fun depth => (depth, s.2)
    else some s
  read_nil _ := rfl
  read_slash _ := rfl
  read_pair _ _ _ := rfl
  read_char s c t hc := by
    obtain ⟨depth, braces⟩ := s
    simp only
    rw [closeBracket?.eq_def]
    simp only [if_neg hc]
    split
    · rfl
    · split
      · rfl
      · split
        · rfl
        · split
          · cases depth <;> rfl
          · rfl

/-! #### Single characters -/

theorem closeBrace?_pair (depth : Nat) (d : Char) (t : Text) :
    closeBrace? depth ('\\' :: d :: t) = (closeBrace? depth t).map fun p => ('\\' :: d :: p.1, p.2) := rfl

theorem closeBracket?_pair (depth braces : Nat) (d : Char) (t : Text) :
    closeBracket? depth braces ('\\' :: d :: t) =
      (closeBracket? depth braces t).map fun p => ('\\' :: d :: p.1, p.2) := rfl

theorem closeBrace?_open (depth : Nat) (t : Text) :
    closeBrace? depth ('{' :: t) = (closeBrace? (depth + 1) t).map fun p => ('{' :: p.1, p.2) :=
  braceReader.read_of_open t (by decide) rfl

/-- The brace that opened an inner group closes it. -/
theorem closeBrace?_close (depth : Nat) (t : Text) :
    closeBrace? (depth + 1) ('}' :: t) = (closeBrace? depth t).map fun p => ('}' :: p.1, p.2) :=
  braceReader.read_of_open t (by decide) rfl

theorem closeBrace?_end (t : Text) : closeBrace? 0 ('}' :: t) = some ([], t) :=
  braceReader.read_of_close t (by decide) rfl

theorem closeBracket?_open (depth braces : Nat) (t : Text) :
    closeBracket? depth braces ('{' :: t) =
      (closeBracket? depth (braces + 1) t).map fun p => ('{' :: p.1, p.2) := by
  rw [closeBracket?.eq_def]
  simp

theorem closeBracket?_close (depth braces : Nat) (t : Text) :
    closeBracket? depth (braces + 1) ('}' :: t) =
      (closeBracket? depth braces t).map fun p => ('}' :: p.1, p.2) := by
  rw [closeBracket?.eq_def]
  simp

/-! #### Text without delimiters -/

theorem closeBrace?_plain_append {x : Text} (hx : ∀ c ∈ x, c ∉ ['\\', '{', '}']) (depth : Nat) (b : Text) :
    closeBrace? depth (x ++ b) = (closeBrace? depth b).map fun p => (x ++ p.1, p.2) := by
  refine braceReader.passed_append (fun c hc => ?_) b
  have hne := hx c hc
  simp only [List.mem_cons, List.not_mem_nil, or_false, not_or] at hne
  exact ⟨hne.1, by simp [braceReader, hne]⟩

/-- Inside of braces a bracket is text. -/
theorem closeBracket?_plain_append {x : Text} (hx : ∀ c ∈ x, c ∉ ['\\', '{', '}']) (depth braces : Nat) (b : Text) :
    closeBracket? depth (braces + 1) (x ++ b) =
      (closeBracket? depth (braces + 1) b).map fun p => (x ++ p.1, p.2) := by
  refine bracketReader.passed_append (s := (depth, braces + 1)) (fun c hc => ?_) b
  have hne := hx c hc
  simp only [List.mem_cons, List.not_mem_nil, or_false, not_or] at hne
  exact ⟨hne.1, by simp [bracketReader, hne]⟩

theorem closeBracket?_bare_append {x : Text} (hx : ∀ c ∈ x, c ∉ ['\\', '{', '}', '[', ']']) (depth braces : Nat)
    (b : Text) :
    closeBracket? depth braces (x ++ b) = (closeBracket? depth braces b).map fun p => (x ++ p.1, p.2) := by
  refine bracketReader.passed_append (s := (depth, braces)) (fun c hc => ?_) b
  have hne := hx c hc
  simp only [List.mem_cons, List.not_mem_nil, or_false, not_or] at hne
  exact ⟨hne.1, by simp [bracketReader, hne]⟩

/-! #### Two texts -/

section Closing

variable {depth braces : Nat} {a b t inner after : Text}

/-- **Reading a brace group through two texts**: it closes in the first one, or in the second one with
some groups open. -/
theorem closeBrace?_append (h : closeBrace? depth (a ++ b) = some (inner, after))
    (ha : escapedAfter false a = false) :
    (∃ rest, closeBrace? depth a = some (inner, rest) ∧ after = rest ++ b) ∨
      ∃ depth' inner', inner = a ++ inner' ∧ closeBrace? depth' b = some (inner', after) :=
  braceReader.append h ha

/-- Reading a bracket group through two texts. -/
theorem closeBracket?_append (h : closeBracket? depth braces (a ++ b) = some (inner, after))
    (ha : escapedAfter false a = false) :
    (∃ rest, closeBracket? depth braces a = some (inner, rest) ∧ after = rest ++ b) ∨
      ∃ depth' braces' inner', inner = a ++ inner' ∧
        closeBracket? depth' braces' b = some (inner', after) := by
  rcases bracketReader.append (s := (depth, braces)) h ha with hclose | ⟨s, inner', hinner, hclose⟩
  · exact .inl hclose
  · exact .inr ⟨s.1, s.2, inner', hinner, hclose⟩

/-- A bracket group that does not close in a text goes on behind it. -/
theorem closeBracket?_append_of_none (h : closeBracket? depth braces a = none)
    (ha : escapedAfter false a = false) :
    ∃ depth' braces', ∀ t, closeBracket? depth braces (a ++ t) =
      (closeBracket? depth' braces' t).map fun p => (a ++ p.1, p.2) := by
  obtain ⟨s, hgo⟩ := bracketReader.append_of_none (s := (depth, braces)) h ha
  exact ⟨s.1, s.2, hgo⟩

/-- **A brace group is read up to its closing brace**, whatever follows. -/
theorem closeBrace?_replace (h : closeBrace? depth t = some (inner, after)) (rest : Text) :
    closeBrace? depth (inner ++ '}' :: rest) = some (inner, rest) := by
  obtain ⟨c, htext, hread⟩ := braceReader.exists_close h
  rw [closeBrace?_eq_append depth t h] at htext
  obtain rfl : '}' = c := (List.cons.inj (List.append_cancel_left htext)).1
  exact hread rest

/-- **A bracket group is read up to its closing bracket**, whatever follows. -/
theorem closeBracket?_replace (h : closeBracket? depth braces t = some (inner, after)) (rest : Text) :
    closeBracket? depth braces (inner ++ ']' :: rest) = some (inner, rest) := by
  obtain ⟨c, htext, hread⟩ := bracketReader.exists_close (s := (depth, braces)) h
  rw [closeBracket?_eq_append depth braces t h] at htext
  obtain rfl : ']' = c := (List.cons.inj (List.append_cancel_left htext)).1
  exact hread rest

/-- A group that closes closes in a longer text, too. -/
theorem closeBrace?_append_right (h : closeBrace? depth t = some (inner, after)) (m : Text) :
    closeBrace? depth (t ++ m) = some (inner, after ++ m) :=
  braceReader.append_right h m

theorem closeBracket?_append_right (h : closeBracket? depth braces t = some (inner, after)) (m : Text) :
    closeBracket? depth braces (t ++ m) = some (inner, after ++ m) :=
  bracketReader.append_right (s := (depth, braces)) h m

/-- No escape is open where a brace group closes. -/
theorem escapedAfter_closeBrace? (h : closeBrace? depth t = some (inner, after)) :
    escapedAfter false inner = false :=
  braceReader.escapedAfter_inner h

/-- No escape is open where a bracket group closes. -/
theorem escapedAfter_closeBracket? (h : closeBracket? depth braces t = some (inner, after)) :
    escapedAfter false inner = false :=
  bracketReader.escapedAfter_inner (s := (depth, braces)) h

end Closing

/-! ### Groups and arguments -/

/-- The two kinds of group that can be read. -/
theorem read?_eq_some {t : Text} {g : Group} (h : Group.read? t = some g) :
    (∃ t', t = '{' :: t' ∧ closeBrace? 0 t' = some (g.inner, g.after) ∧
      g.source = '{' :: g.inner ++ ['}']) ∨
    (∃ t', t = '[' :: t' ∧ closeBracket? 0 0 t' = some (g.inner, g.after) ∧
      g.source = '[' :: g.inner ++ [']']) := by
  cases t with
  | nil => simp [Group.read?] at h
  | cons c t =>
      rw [Group.read?] at h
      split at h
      · next hc =>
          obtain ⟨⟨inner, after⟩, hi, rfl⟩ := Option.map_eq_some_iff.1 h
          exact Or.inl ⟨t, by rw [hc], hi, rfl⟩
      · split at h
        · next hc =>
            obtain ⟨⟨inner, after⟩, hi, rfl⟩ := Option.map_eq_some_iff.1 h
            exact Or.inr ⟨t, by rw [hc], hi, rfl⟩
        · simp at h

/-- **No escape is open behind a group.** -/
theorem escapedAfter_source_of_read? {t : Text} {g : Group} (h : Group.read? t = some g) :
    escapedAfter false g.source = false := by
  rcases read?_eq_some h with ⟨t', -, hclose, hsource⟩ | ⟨t', -, hclose, hsource⟩
  · rw [hsource, List.cons_append, escapedAfter_cons_of_ne (by decide), escapedAfter_append,
      escapedAfter_closeBrace? hclose]
    decide
  · rw [hsource, List.cons_append, escapedAfter_cons_of_ne (by decide), escapedAfter_append,
      escapedAfter_closeBracket? hclose]
    decide

/-- An argument is the content of a brace group behind some space. -/
theorem argument_read?_eq_some {t : Text} {a : Argument} (h : Argument.read? t = some a) :
    ∃ t', (argumentSpace t).2 = '{' :: t' ∧ closeBrace? 0 t' = some (a.inner, a.after) := by
  rw [Argument.read?] at h
  split at h
  · next inner after hg =>
      obtain rfl := Option.some.inj h
      rcases read?_eq_some hg with ⟨t', ht, hclose, -⟩ | ⟨t', -, -, hsource⟩
      · exact ⟨t', ht, hclose⟩
      · simp [Group.source] at hsource
  · simp at h

/-- An argument starts with a brace. -/
theorem argument_read?_eq_none {t : Text} (h : (argumentSpace t).2.head? ≠ some '{') : Argument.read? t = none := by
  cases ha : Argument.read? t with
  | none => rfl
  | some a =>
      obtain ⟨t', ht, -⟩ := argument_read?_eq_some ha
      rw [ht] at h
      exact absurd rfl h

/-- No escape is open behind an argument. -/
theorem escapedAfter_source_of_argument {t : Text} {a : Argument} (h : Argument.read? t = some a) :
    escapedAfter false a.source = false := by
  obtain ⟨t', -, hclose⟩ := argument_read?_eq_some h
  rw [Argument.source, List.append_assoc, escapedAfter_append,
    escapedAfter_blank (isBlankText_space_of_read? h), List.cons_append,
    escapedAfter_cons_of_ne (by decide), escapedAfter_append, escapedAfter_closeBrace? hclose]
  decide

/-- No escape is open behind the groups of a command. -/
theorem escapedAfter_groups (t : Text) : escapedAfter false (groups t).1 = false := by
  fun_induction groups t with
  | case1 => rfl
  | case2 t g h _ ih =>
      rw [escapedAfter_append, escapedAfter_append,
        escapedAfter_blank (isBlankText_argumentSpace t), escapedAfter_source_of_read? h, ih]

theorem read?_append_right {t : Text} {g : Group} (h : Group.read? t = some g) (m : Text) :
    Group.read? (t ++ m) = some ⟨g.fence, g.inner, g.after ++ m⟩ := by
  cases t with
  | nil => simp [Group.read?] at h
  | cons c t =>
      rw [Group.read?] at h
      rw [List.cons_append, Group.read?]
      split at h
      · next hc =>
          obtain ⟨⟨inner, after⟩, hi, rfl⟩ := Option.map_eq_some_iff.1 h
          rw [if_pos hc, closeBrace?_append_right hi]
          rfl
      · next hc =>
          split at h
          · next hc' =>
              obtain ⟨⟨inner, after⟩, hi, rfl⟩ := Option.map_eq_some_iff.1 h
              rw [if_neg hc, if_pos hc', closeBracket?_append_right hi]
              rfl
          · simp at h

end CribSheet.Markup
