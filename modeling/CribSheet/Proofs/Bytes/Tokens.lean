/-
The end of a group, token by token.

Read from its opening delimiter on, a group is a list of tokens: a backslash with the byte that follows, or one byte.
Its end can be told from counts of tokens alone.  A brace group ends where as many braces are closed as are open for
the first time.  A bracket group ends so too, but there only the brackets outside of braces count, and a closing brace
without an opening one does not count.

Main definitions:

* `CribSheet.Checked.tokens`, `CribSheet.Checked.tokenEnd` — the tokens of a text, and the positions behind them;
* `CribSheet.Checked.marked` — the tokens with the number of braces that are open before each;
* `CribSheet.Checked.Closes` — among the first tokens, so many more close than open;
* `CribSheet.Checked.FindsFirst` — a search finds the least number with a property.

Main results:

* `CribSheet.Checked.closeAt_first` — counting what is open stops at the least number of tokens that closes it;
* `CribSheet.Checked.loop_groupRound_brace_tokens`, `CribSheet.Checked.loop_groupRound_bracket_tokens` — the scans
  through a group count its tokens;
* `CribSheet.Markup.Offset.groupEnd?_replace` — an end is found whatever follows it;
* `CribSheet.Checked.groupEnd?_tokens` — **the end of a group is where its tokens balance first**.
-/
import CribSheet.Proofs.Bytes.Group
import CribSheet.Proofs.Payload.Argument
import Mathlib.Order.Bounds.Basic

set_option relaxedAutoImplicit false
set_option autoImplicit false

namespace CribSheet.Checked

open Text Markup

/-! ### Searches for a least number -/

/-- **A search finds the least number with a property**, if there is one; `f` is what it says about a number. -/
structure FindsFirst (P : Nat → Prop) (f : Nat → Nat) (found : Option Nat) : Prop where
  /-- What is found is said about the least number. -/
  some_iff : ∀ e, found = some e ↔ ∃ n, IsLeast {m | P m} n ∧ e = f n
  /-- Nothing is found if no number has the property. -/
  none_iff : found = none ↔ ∀ n, ¬ P n

section FindsFirst

variable {P Q : Nat → Prop} {f : Nat → Nat} {n : Nat}

theorem findsFirst_none (h : ∀ n, ¬ P n) : FindsFirst P f none :=
  ⟨fun _ => iff_of_false nofun fun ⟨n, hn, _⟩ => h n hn.1, iff_of_true rfl h⟩

theorem findsFirst_some (h : IsLeast {m | P m} n) : FindsFirst P f (some (f n)) := by
  refine ⟨fun e => ⟨?_, ?_⟩, iff_of_false nofun fun hnone => hnone n h.1⟩
  · intro he
    exact ⟨n, h, (Option.some.inj he).symm⟩
  · rintro ⟨m, hm, rfl⟩
    rw [hm.unique h]

/-- What a search says can be said otherwise. -/
theorem FindsFirst.map {found : Option Nat} (h : FindsFirst P id found) (f : Nat → Nat) :
    FindsFirst P f (found.map f) := by
  cases found with
  | none => exact findsFirst_none (h.none_iff.1 rfl)
  | some n =>
      obtain ⟨m, hm, rfl⟩ := (h.some_iff n).1 rfl
      exact findsFirst_some hm

/-- The least number may have a stronger property, if no other number has it without the weaker one. -/
theorem FindsFirst.of_imp {found : Option Nat} (h : FindsFirst P id found) (hQP : ∀ n, Q n → P n)
    (hQ : ∀ n, found = some n → P n → Q n) : FindsFirst Q id found := by
  cases found with
  | none => exact findsFirst_none fun n hn => h.none_iff.1 rfl n (hQP n hn)
  | some n =>
      obtain ⟨_, hn, rfl⟩ := (h.some_iff n).1 rfl
      exact findsFirst_some (f := id) ⟨hQ _ rfl hn.1, fun k hk => hn.2 (hQP k hk)⟩

/-- A search that starts one number later. -/
theorem FindsFirst.succ {found : Option Nat} (h : FindsFirst P id found) (hzero : ¬ Q 0)
    (hsucc : ∀ n, Q (n + 1) ↔ P n) : FindsFirst Q id (found.map (· + 1)) := by
  cases found with
  | none =>
      refine findsFirst_none fun n hn => ?_
      cases n with
      | zero => exact hzero hn
      | succ n => exact h.none_iff.1 rfl n ((hsucc n).1 hn)
  | some n =>
      obtain ⟨_, hn, rfl⟩ := (h.some_iff n).1 rfl
      refine findsFirst_some (f := id) ⟨(hsucc n).2 hn.1, fun k hk => ?_⟩
      cases k with
      | zero => exact absurd hk hzero
      | succ k => exact Nat.succ_le_succ (hn.2 ((hsucc k).1 hk))

end FindsFirst

/-! ### Counting what is open -/

section Closes

variable {α : Type} [DecidableEq α]

/-- **The first `n` elements close `depth` more than they open.** -/
def Closes (opening closing : α) (depth : Nat) (l : List α) (n : Nat) : Prop :=
  n ≤ l.length ∧ (l.take n).count closing = (l.take n).count opening + depth

/-- The number of elements up to the one that closes the last of `depth + 1` open ones. -/
def closeAt (opening closing : α) : (depth : Nat) → List α → Option Nat
  | _, [] => none
  | depth, a :: l =>
    if a = opening then (closeAt opening closing (depth + 1) l).map (· + 1)
    else if a = closing then
      match depth with
      | 0 => some 1
      | depth + 1 => (closeAt opening closing depth l).map (· + 1)
    else (closeAt opening closing depth l).map (· + 1)

variable {opening closing a : α} {depth n : Nat} {l : List α}

theorem closeAt_opening : closeAt opening closing depth (opening :: l) =
    (closeAt opening closing (depth + 1) l).map (· + 1) := by
  rw [closeAt.eq_def]
  simp

theorem closeAt_closing_zero (hne : opening ≠ closing) : closeAt opening closing 0 (closing :: l) = some 1 := by
  rw [closeAt.eq_def]
  simp [hne.symm]

theorem closeAt_closing_succ (hne : opening ≠ closing) : closeAt opening closing (depth + 1) (closing :: l) =
    (closeAt opening closing depth l).map (· + 1) := by
  rw [closeAt.eq_def]
  simp [hne.symm]

theorem closeAt_other (hopening : a ≠ opening) (hclosing : a ≠ closing) : closeAt opening closing depth (a :: l) =
    (closeAt opening closing depth l).map (· + 1) := by
  rw [closeAt.eq_def]
  simp [hopening, hclosing]

theorem not_closes_zero : ¬ Closes opening closing (depth + 1) l 0 := by
  rintro ⟨-, hcount⟩
  simp at hcount

theorem closes_cons_opening (hne : opening ≠ closing) :
    Closes opening closing depth (opening :: l) (n + 1) ↔ Closes opening closing (depth + 1) l n := by
  simp only [Closes, List.length_cons, List.take_succ_cons, List.count_cons_self, List.count_cons_of_ne hne]
  omega

theorem closes_cons_closing (hne : opening ≠ closing) :
    Closes opening closing (depth + 1) (closing :: l) (n + 1) ↔ Closes opening closing depth l n := by
  simp only [Closes, List.length_cons, List.take_succ_cons, List.count_cons_self, List.count_cons_of_ne hne.symm]
  omega

theorem closes_cons_other (hopening : a ≠ opening) (hclosing : a ≠ closing) :
    Closes opening closing depth (a :: l) (n + 1) ↔ Closes opening closing depth l n := by
  simp only [Closes, List.length_cons, List.take_succ_cons, List.count_cons_of_ne hopening,
    List.count_cons_of_ne hclosing]
  omega

/-- **Counting what is open** stops at the least number of elements that closes it. -/
theorem closeAt_first (hne : opening ≠ closing) (depth : Nat) (l : List α) :
    FindsFirst (Closes opening closing (depth + 1) l) id (closeAt opening closing depth l) := by
  fun_induction closeAt opening closing depth l with
  | case1 depth =>
      refine findsFirst_none fun n hn => ?_
      obtain rfl : n = 0 := Nat.le_zero.1 hn.1
      exact not_closes_zero hn
  | case2 depth l ih => exact ih.succ not_closes_zero fun n => closes_cons_opening hne
  | case3 l hopening =>
      refine findsFirst_some (f := id) (n := 1) ⟨(closes_cons_closing hne).2 ⟨Nat.zero_le _, by simp⟩, fun k hk => ?_⟩
      exact Nat.pos_of_ne_zero fun hzero => not_closes_zero (hzero ▸ hk)
  | case4 l hopening depth ih => exact ih.succ not_closes_zero fun n => closes_cons_closing hne
  | case5 depth a l hopening hclosing ih =>
      exact ih.succ not_closes_zero fun n => closes_cons_other hopening hclosing

/-- It stops at a closing element. -/
theorem getElem?_closeAt (h : closeAt opening closing depth l = some n) : ∃ m, n = m + 1 ∧ l[m]? = some closing := by
  fun_induction closeAt opening closing depth l generalizing n with
  | case1 => nomatch h
  | case3 l hopening =>
      obtain rfl := Option.some.inj h
      exact ⟨0, rfl, rfl⟩
  | case2 | case4 | case5 =>
      rename_i ih
      obtain ⟨m, hm, rfl⟩ := Option.map_eq_some_iff.1 h
      obtain ⟨k, rfl, hk⟩ := ih hm
      exact ⟨k + 1, rfl, by simpa using hk⟩

end Closes

/-! ### Tokens -/

/-- The bytes of a backslash and what follows it, or one byte. -/
abbrev Token := List UInt8

/-- **The tokens of some bytes.** -/
def tokens : List UInt8 → List Token
  | [] => []
  | b :: rest =>
    if b = code '\\' then
      match rest with
      | [] => [[b]]
      | c :: rest' => [b, c] :: tokens rest'
    else [b] :: tokens rest

/-- The position behind the first `n` tokens from a position on. -/
def tokenEnd (i : Nat) (ts : List Token) (n : Nat) : Nat := i + (ts.take n).flatten.length

/-- The braces that are open behind a token, if `depth` are open before it.  A closing brace without an opening one does
not count. -/
def bracesAfter (depth : Nat) (token : Token) : Nat :=
  if token = [code '{'] then depth + 1 else if token = [code '}'] then depth - 1 else depth

/-- **The tokens, each with the number of braces that are open before it**; `depth` are open before the first. -/
def marked : (depth : Nat) → List Token → List (Token × Nat)
  | _, [] => []
  | depth, token :: ts => (token, depth) :: marked (bracesAfter depth token) ts

/-- **The first `n` tokens are a brace group**, unless fewer are one. -/
def BalancesBraces (ts : List Token) (n : Nat) : Prop := 0 < n ∧ Closes [code '{'] [code '}'] 0 ts n

/-- **The first `n` tokens are a bracket group**, unless fewer are one: the last one is a bracket outside of braces,
and the brackets outside of braces are balanced. -/
def BalancesBrackets (ts : List Token) (n : Nat) : Prop :=
  ∃ m, n = m + 1 ∧ (marked 0 ts)[m]? = some ([code ']'], 0) ∧
    Closes ([code '['], 0) ([code ']'], 0) 0 (marked 0 ts) n

theorem tokenEnd_cons (i : Nat) (token : Token) (ts : List Token) (n : Nat) :
    tokenEnd i (token :: ts) (n + 1) = tokenEnd (i + token.length) ts n := by
  simp [tokenEnd, Nat.add_assoc]

theorem map_tokenEnd_cons (i : Nat) (token : Token) (ts : List Token) (found : Option Nat) :
    (found.map (· + 1)).map (tokenEnd i (token :: ts)) = found.map (tokenEnd (i + token.length) ts) := by
  cases found <;> simp [tokenEnd_cons]

/-! ### The scans -/

section Scans

variable {t : Text} {i : Nat} {b c : UInt8} {rest : List UInt8}

theorem byte?_of_drop_cons (h : (bytes t).drop i = b :: rest) : byte? t i = some b := by
  rw [byte?, ← List.head?_drop, h, List.head?_cons]

theorem drop_succ_of_drop_cons (h : (bytes t).drop i = b :: rest) : (bytes t).drop (i + 1) = rest := by
  rw [← List.drop_drop, h, List.drop_succ_cons, List.drop_zero]

theorem lt_size_of_drop_cons (h : (bytes t).drop i = b :: rest) : i < t.size := by
  have hlength := congrArg List.length h
  rw [List.length_drop, length_bytes, List.length_cons] at hlength
  omega

theorem byte?_of_drop_nil (h : (bytes t).drop i = []) : byte? t i = none := by
  rw [byte?, ← List.head?_drop, h, List.head?_nil]

variable {bracket : Bool} {d : Depths}

/-- A round that takes a token of one byte. -/
theorem loop_groupRound_byte (h : (bytes t).drop i = b :: rest) (d' : Depths)
    (hround : groupRound t bracket d i = .ok (.next d' (i + 1))) :
    loop t.size (groupRound t bracket) d i = loop t.size (groupRound t bracket) d' (i + 1) :=
  loop_next hround (Nat.lt_succ_self i) (lt_size_of_drop_cons h)

/-- A round that takes a backslash and the next byte. -/
theorem loop_groupRound_slash (h : (bytes t).drop i = code '\\' :: rest) :
    loop t.size (groupRound t bracket) d i = loop t.size (groupRound t bracket) d (i + 2) :=
  loop_next (by rw [groupRound, byte?_of_drop_cons h]; simp) (by omega) (lt_size_of_drop_cons h)

/-- A backslash at the end leads past the end. -/
theorem loop_groupRound_slash_last (h : (bytes t).drop i = [code '\\']) :
    loop t.size (groupRound t bracket) d i = .ok none := by
  have hnil : (bytes t).drop (i + 2) = [] := by
    rw [← List.drop_drop, h]
    rfl
  rw [loop_groupRound_slash h]
  exact loop_done (by rw [groupRound, byte?_of_drop_nil hnil])

/-- **The scan through braces** counts the tokens. -/
theorem loop_groupRound_brace_tokens {l : List UInt8} (h : (bytes t).drop i = l) (depth : Nat) :
    loop t.size (groupRound t false) ⟨depth + 1, 0⟩ i =
      .ok ((closeAt [code '{'] [code '}'] depth (tokens l)).map (tokenEnd i (tokens l))) := by
  have hne : [code '{'] ≠ [code '}'] := by decide
  fun_induction tokens l generalizing i depth with
  | case1 => exact loop_done (by rw [groupRound, byte?_of_drop_nil h]; rfl)
  | case2 => exact loop_groupRound_slash_last h
  | case3 c rest ih =>
      rw [loop_groupRound_slash h, ih (drop_succ_of_drop_cons (drop_succ_of_drop_cons h)),
        closeAt_other (by simp) (by simp), map_tokenEnd_cons]
      rfl
  | case4 b rest hslash ih =>
      have hbyte := byte?_of_drop_cons h
      have hrest := drop_succ_of_drop_cons h
      by_cases hopen : b = code '{'
      · subst hopen
        rw [loop_groupRound_byte h ⟨depth + 2, 0⟩ (by simp [groupRound, hbyte, hslash]), ih hrest,
          closeAt_opening, map_tokenEnd_cons]
        rfl
      · by_cases hclose : b = code '}'
        · subst hclose
          cases depth with
          | zero =>
              rw [closeAt_closing_zero hne]
              exact loop_done (by simp [groupRound, hbyte, hslash, hopen, closeRound]; rfl)
          | succ depth =>
              rw [loop_groupRound_byte h ⟨depth + 1, 0⟩
                (by simp [groupRound, hbyte, hslash, hopen, closeRound]), ih hrest, closeAt_closing_succ hne,
                map_tokenEnd_cons]
              rfl
        · rw [loop_groupRound_byte h _ (by simp [groupRound, hbyte, hslash, hopen, hclose]; rfl), ih hrest,
            closeAt_other (by simpa using hopen) (by simpa using hclose), map_tokenEnd_cons]
          rfl

/-- **The scan through brackets** counts the tokens. -/
theorem loop_groupRound_bracket_tokens {l : List UInt8} (h : (bytes t).drop i = l) (depth braces : Nat) :
    loop t.size (groupRound t true) ⟨depth + 1, braces⟩ i =
      .ok ((closeAt ([code '['], 0) ([code ']'], 0) depth (marked braces (tokens l))).map (tokenEnd i (tokens l))) := by
  have hne : ([code '['], 0) ≠ ([code ']'], 0) := by decide
  fun_induction tokens l generalizing i depth braces with
  | case1 => exact loop_done (by rw [groupRound, byte?_of_drop_nil h]; rfl)
  | case2 =>
      have hother : closeAt ([code '['], 0) ([code ']'], 0) depth [([code '\\'], braces)] = none :=
        closeAt_other (by simp +decide) (by simp +decide)
      rw [loop_groupRound_slash_last h, marked, marked, hother]
      rfl
  | case3 c rest ih =>
      rw [loop_groupRound_slash h, ih (drop_succ_of_drop_cons (drop_succ_of_drop_cons h)), marked,
        closeAt_other (by simp) (by simp), map_tokenEnd_cons, bracesAfter, if_neg (by simp), if_neg (by simp)]
      rfl
  | case4 b rest hslash ih =>
      have hbyte := byte?_of_drop_cons h
      have hrest := drop_succ_of_drop_cons h
      rw [marked]
      by_cases hopen : ([b], braces) = ([code '['], 0)
      · obtain ⟨rfl, rfl⟩ : b = code '[' ∧ braces = 0 := by simpa using hopen
        rw [loop_groupRound_byte h ⟨depth + 2, 0⟩ (by simp [groupRound, hbyte, hslash]; rfl), ih hrest,
          closeAt_opening, map_tokenEnd_cons]
        rfl
      · by_cases hclose : ([b], braces) = ([code ']'], 0)
        · obtain ⟨rfl, rfl⟩ : b = code ']' ∧ braces = 0 := by simpa using hclose
          cases depth with
          | zero =>
              rw [closeAt_closing_zero hne]
              exact loop_done (by simp [groupRound, hbyte, hslash, closeRound]; rfl)
          | succ depth =>
              rw [loop_groupRound_byte h ⟨depth + 1, 0⟩ (by simp [groupRound, hbyte, hslash, closeRound]; rfl),
                ih hrest, closeAt_closing_succ hne, map_tokenEnd_cons]
              rfl
        · have hround : groupRound t true ⟨depth + 1, braces⟩ i =
              .ok (.next ⟨depth + 1, bracesAfter braces [b]⟩ (i + 1)) := by
            simp only [Prod.mk.injEq, List.cons.injEq, and_true] at hopen hclose
            simp only [groupRound, hbyte, hslash, hopen, hclose, bracesAfter, List.cons.injEq, and_true, if_true,
              if_false]
            split_ifs <;> rfl
          rw [loop_groupRound_byte h _ hround, ih hrest, closeAt_other hopen hclose, map_tokenEnd_cons]
          rfl

end Scans

/-! ### The end of a group -/

section GroupEnd

variable {t : Text} {i : Nat} {rest : List UInt8}

theorem exists_drop_of_byte? {b : UInt8} (h : byte? t i = some b) : ∃ rest, (bytes t).drop i = b :: rest := by
  rw [byte?, ← List.head?_drop] at h
  exact List.head?_eq_some_iff.1 h

theorem tokens_cons_of_ne {b : UInt8} (hb : b ≠ code '\\') : tokens (b :: rest) = [b] :: tokens rest := by
  rw [tokens.eq_def]
  simp [hb]

theorem groupEnd?_of_drop_brace (h : (bytes t).drop i = code '{' :: rest) :
    Offset.groupEnd? t i =
      ((closeAt [code '{'] [code '}'] 0 (tokens rest)).map (· + 1)).map (tokenEnd i ([code '{'] :: tokens rest)) := by
  have hrun : groupEnd? t i = loop t.size (groupRound t false) ⟨0, 0⟩ i := by
    rw [groupEnd?, byte?_of_drop_cons h]
    exact if_pos rfl
  rw [groupEnd?_eq, loop_groupRound_byte h ⟨1, 0⟩ (by simp [groupRound, byte?_of_drop_cons h]; decide),
    loop_groupRound_brace_tokens (drop_succ_of_drop_cons h)] at hrun
  rw [map_tokenEnd_cons]
  exact Except.ok.inj hrun

theorem groupEnd?_of_drop_bracket (h : (bytes t).drop i = code '[' :: rest) :
    Offset.groupEnd? t i =
      ((closeAt ([code '['], 0) ([code ']'], 0) 0 (marked 0 (tokens rest))).map (· + 1)).map
        (tokenEnd i ([code '['] :: tokens rest)) := by
  have hrun : groupEnd? t i = loop t.size (groupRound t true) ⟨0, 0⟩ i := by
    rw [groupEnd?, byte?_of_drop_cons h]
    rfl
  rw [groupEnd?_eq, loop_groupRound_byte h ⟨1, 0⟩ (by simp [groupRound, byte?_of_drop_cons h]; rfl),
    loop_groupRound_bracket_tokens (drop_succ_of_drop_cons h)] at hrun
  rw [map_tokenEnd_cons]
  exact Except.ok.inj hrun

/-- **A brace group** ends where its tokens balance first. -/
theorem findsFirst_brace (h : byte? t i = some (code '{')) :
    FindsFirst (BalancesBraces (tokens ((bytes t).drop i))) (tokenEnd i (tokens ((bytes t).drop i)))
      (Offset.groupEnd? t i) := by
  obtain ⟨rest, hrest⟩ := exists_drop_of_byte? h
  have hne : [code '{'] ≠ [code '}'] := by decide
  rw [groupEnd?_of_drop_brace hrest, hrest, tokens_cons_of_ne (by decide)]
  refine ((closeAt_first hne 0 (tokens rest)).succ ?_ fun n => ?_).map _
  · exact fun hzero => absurd hzero.1 (Nat.lt_irrefl 0)
  · rw [BalancesBraces, closes_cons_opening hne]
    exact and_iff_right (Nat.succ_pos n)

/-- **A bracket group** ends where its tokens balance first. -/
theorem findsFirst_bracket (h : byte? t i = some (code '[')) :
    FindsFirst (BalancesBrackets (tokens ((bytes t).drop i))) (tokenEnd i (tokens ((bytes t).drop i)))
      (Offset.groupEnd? t i) := by
  obtain ⟨rest, hrest⟩ := exists_drop_of_byte? h
  have hne : ([code '['], 0) ≠ ([code ']'], 0) := by decide
  have hmarked : marked 0 ([code '['] :: tokens rest) = ([code '['], 0) :: marked 0 (tokens rest) := rfl
  rw [groupEnd?_of_drop_bracket hrest, hrest, tokens_cons_of_ne (by decide)]
  -- Where the counts are equal for the first time, the last token closes.
  have hcounts : FindsFirst
      (fun n => 0 < n ∧ Closes ([code '['], 0) ([code ']'], 0) 0 (marked 0 ([code '['] :: tokens rest)) n) id
      ((closeAt ([code '['], 0) ([code ']'], 0) 0 (marked 0 (tokens rest))).map (· + 1)) := by
    refine (closeAt_first hne 0 (marked 0 (tokens rest))).succ ?_ fun n => ?_
    · exact fun hzero => absurd hzero.1 (Nat.lt_irrefl 0)
    · rw [hmarked, closes_cons_opening hne]
      exact and_iff_right (Nat.succ_pos n)
  refine (hcounts.of_imp ?_ ?_).map _
  · rintro n ⟨m, rfl, -, hcloses⟩
    exact ⟨Nat.succ_pos m, hcloses⟩
  · rintro n hn ⟨-, hcloses⟩
    obtain ⟨k, hk, rfl⟩ := Option.map_eq_some_iff.1 hn
    obtain ⟨m, rfl, hm⟩ := getElem?_closeAt hk
    exact ⟨m + 1, rfl, hm, hcloses⟩

end GroupEnd

end CribSheet.Checked

namespace CribSheet.Markup

open Text Checked

/-- **A group is read up to its closing delimiter**, whatever follows. -/
theorem Group.read?_replace {t : Text} {g : Group} (h : Group.read? t = some g) (u : Text) :
    Group.read? (g.source ++ u) = some ⟨g.fence, g.inner, u⟩ := by
  cases t with
  | nil => simp [Group.read?] at h
  | cons c t =>
      rw [Group.read?] at h
      split at h
      · obtain ⟨⟨inner, after⟩, hclose, rfl⟩ := Option.map_eq_some_iff.1 h
        have hread := closeBrace?_replace hclose u
        simp [Group.source, Group.read?, hread]
      · split at h
        · obtain ⟨⟨inner, after⟩, hclose, rfl⟩ := Option.map_eq_some_iff.1 h
          have hread := closeBracket?_replace hclose u
          simp [Group.source, Group.read?, hread]
        · simp at h

/-- **The end of a group is found** whatever follows it. -/
theorem Offset.groupEnd?_replace {t : Text} {i e : Nat} (h : Offset.groupEnd? t i = some e) :
    ∃ front rest, Stands t front rest e ∧ ∀ u, Offset.groupEnd? (front ++ u) i = some e := by
  rw [Offset.groupEnd?] at h
  split at h
  · next behind ahead hsplit =>
      obtain ⟨g, hg, rfl⟩ := Option.map_eq_some_iff.1 h
      have hstands := stands_of_splitAt? hsplit
      have hgroup : Stands t behind (g.source ++ g.after) i := by
        rw [← Group.text, Group.text_read? hg]
        exact hstands
      refine ⟨behind ++ g.source, g.after, hgroup.advance, fun u => ?_⟩
      have hu : Stands (behind ++ g.source ++ u) behind (g.source ++ u) i := ⟨List.append_assoc _ _ _, hstands.size_eq⟩
      rw [Offset.groupEnd?, hu.splitAt?]
      simp only [Group.read?_replace hg u, Option.map_some]
      rfl
  · simp at h

end CribSheet.Markup

namespace CribSheet.Checked

open Text Markup

/-- **The end of a group is where its tokens balance first**: counting never fails, for a brace group the end is behind
the first token with which as many braces are closed as are open, for a bracket group it is behind the first bracket
outside of braces with which the brackets outside of braces balance, and it depends on nothing that follows. -/
theorem groupEnd?_tokens (t : Text) (i : Nat) :
    groupEnd? t i = .ok (Offset.groupEnd? t i) ∧
      (byte? t i = some (code '{') →
        FindsFirst (BalancesBraces (tokens ((bytes t).drop i))) (tokenEnd i (tokens ((bytes t).drop i)))
          (Offset.groupEnd? t i)) ∧
      (byte? t i = some (code '[') →
        FindsFirst (BalancesBrackets (tokens ((bytes t).drop i))) (tokenEnd i (tokens ((bytes t).drop i)))
          (Offset.groupEnd? t i)) ∧
      ∀ e, Offset.groupEnd? t i = some e →
        ∃ front rest, Stands t front rest e ∧ ∀ u, Offset.groupEnd? (front ++ u) i = some e :=
  ⟨groupEnd?_eq t i, findsFirst_brace, findsFirst_bracket, fun _ => Offset.groupEnd?_replace⟩

/-- A closing bracket inside of braces does not end `[a{]}b]`, and an escaped brace does not end `{a\}b}`. -/
theorem groupEnd?_tokens_of_hidden :
    FindsFirst (BalancesBrackets (tokens (bytes "[a\x7b]\x7db]rest".toList)))
        (tokenEnd 0 (tokens (bytes "[a\x7b]\x7db]rest".toList))) (some 7) ∧
      FindsFirst (BalancesBraces (tokens (bytes "\x7ba\\\x7db\x7d".toList)))
        (tokenEnd 0 (tokens (bytes "\x7ba\\\x7db\x7d".toList))) (some 6) := by
  have hbracket := (groupEnd?_tokens "[a\x7b]\x7db]rest".toList 0).2.2.1 rfl
  have hbrace := (groupEnd?_tokens "\x7ba\\\x7db\x7d".toList 0).2.1 rfl
  have hstop : Offset.groupEnd? "[a\x7b]\x7db]rest".toList 0 = some 7 := by decide +kernel
  have hstop' : Offset.groupEnd? "\x7ba\\\x7db\x7d".toList 0 = some 6 := by decide +kernel
  rw [hstop, List.drop_zero] at hbracket
  rw [hstop', List.drop_zero] at hbrace
  exact ⟨hbracket, hbrace⟩

end CribSheet.Checked
