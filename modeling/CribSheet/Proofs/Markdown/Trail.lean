/-
Open dollar signs, and what the end of a text does to what is written next.

A reader of Markdown takes a dollar sign for a delimiter when an even number of backslashes stands before
it.  How many there are is counted while the text is written, from left to right, so that a writer has to
know how its text ends: a backslash at the end escapes what comes next.  One more end matters.  List
separators are taken out of the finished text wherever they occur, and taking one out whose first character
is escaped would leave a backslash that escapes something else; so the end also tells how much of a
separator stands behind an escaped angle bracket.

Main definitions:

* `CribSheet.Markdown.openDollars` — the number of dollar signs that nothing escapes;
* `CribSheet.Markdown.Trail` — what the end of a text does to what comes next;
* `CribSheet.Markdown.Ends` — a text with so many open dollars and such an end.

Main results:

* `CribSheet.Markdown.openDollars_append` — the count of a longer text depends on the trail only;
* `CribSheet.Markdown.Ends.push` — one more character;
* `CribSheet.Markdown.openDollars_removeSeparators` — taking out list separators keeps the count.
-/
import CribSheet.Markdown.Render
import CribSheet.Proofs.Text.Cut

set_option relaxedAutoImplicit false
set_option autoImplicit false

namespace CribSheet.Markdown

/-! ### Open dollar signs -/

/-- **The number of open dollar signs**: those with an even number of backslashes right before them.
`run` is the number of backslashes right before the text. -/
def openDollars (run : Nat) : Text → Nat
  | [] => 0
  | c :: t =>
    (if c = '$' ∧ run % 2 = 0 then 1 else 0) + openDollars (if c = '\\' then run + 1 else 0) t

@[simp] theorem openDollars_nil (run : Nat) : openDollars run [] = 0 := rfl

/-- Two backslashes more make no difference. -/
theorem openDollars_add_two (run : Nat) (t : Text) : openDollars (run + 2) t = openDollars run t := by
  induction t generalizing run with
  | nil => rfl
  | cons c t ih =>
    rw [openDollars, openDollars, Nat.add_mod_right]
    split <;> split <;> first | rfl | rw [Nat.add_right_comm, ih]

/-! ### Trails -/

/-- What the end of a text does to what comes next. -/
inductive Trail
  /-- Nothing. -/
  | clear
  /-- It escapes the next character. -/
  | escape
  /-- It may go on as a list separator: the end is an escaped `<`. -/
  | angle
  /-- The same, with the end `<!`. -/
  | bang
  /-- The same, with the end `<!-`. -/
  | dash
  /-- The same, with the end `<!--`. -/
  | dashes
  /-- A list separator has begun behind a backslash that escapes it. -/
  | broken
deriving DecidableEq

namespace Trail

/-- The trail behind one more character. -/
def next : Trail → Char → Trail
  | broken, _ => broken
  | escape, c => if c = '<' then angle else clear
  | clear, c => if c = '\\' then escape else clear
  | angle, c => if c = '\\' then escape else if c = '!' then bang else clear
  | bang, c => if c = '\\' then escape else if c = '-' then dash else clear
  | dash, c => if c = '\\' then escape else if c = '-' then dashes else clear
  | dashes, c => if c = '\\' then escape else if c = ' ' then broken else clear

/-- The trail behind a text. -/
def after (s : Trail) (t : Text) : Trail := t.foldl next s

@[simp] theorem after_nil (s : Trail) : s.after [] = s := rfl

@[simp] theorem after_cons (s : Trail) (c : Char) (t : Text) : s.after (c :: t) = (s.next c).after t := rfl

theorem after_append (s : Trail) (t u : Text) : s.after (t ++ u) = (s.after t).after u := List.foldl_append

@[simp] theorem after_broken (t : Text) : broken.after t = broken := by
  induction t with
  | nil => rfl
  | cons c t ih => exact ih

/-- Nothing but a backslash escapes what comes next. -/
theorem eq_backslash_of_next {s : Trail} {c : Char} (h : s.next c = escape) : c = '\\' := by
  by_cases hc : c = '\\'
  · exact hc
  · cases s with
    | broken => exact absurd h (by simp [next])
    | clear => exact absurd h (by simp [next, hc])
    | escape | angle | bang | dash | dashes =>
      simp only [next, if_neg hc] at h
      split at h <;> exact absurd h (by simp)

/-- How many backslashes have the effect of the trail. -/
def run : Trail → Nat
  | escape => 1
  | _ => 0

end Trail

theorem Trail.run_of_ne {s : Trail} (h : s ≠ .escape) : s.run = 0 := by
  cases s with
  | escape => exact absurd rfl h
  | clear | angle | bang | dash | dashes | broken => rfl

/-- One more character in front, in terms of the trail. -/
theorem openDollars_cons {s : Trail} (hs : s ≠ .broken) (c : Char) (t : Text) :
    openDollars s.run (c :: t) =
      (if c = '$' ∧ s ≠ .escape then 1 else 0) + openDollars (s.next c).run t := by
  rw [openDollars]
  by_cases hc : c = '\\'
  · subst hc
    cases s with
    | escape => simpa [Trail.run, Trail.next] using openDollars_add_two 0 t
    | broken => exact absurd rfl hs
    | clear | angle | bang | dash | dashes => simp [Trail.run, Trail.next]
  · have hrun : (s.next c).run = 0 := by
      unfold Trail.run
      split
      · next h => exact absurd (Trail.eq_backslash_of_next h) hc
      · rfl
    rw [if_neg hc, hrun]
    cases s <;> simp [Trail.run]

/-- **The count of a longer text** depends on the trail of its beginning only. -/
theorem openDollars_append {s : Trail} {t : Text} (h : s.after t ≠ .broken) (u : Text) :
    openDollars s.run (t ++ u) = openDollars s.run t + openDollars (s.after t).run u := by
  induction t generalizing s with
  | nil => simp
  | cons c t ih =>
    have hs : s ≠ .broken := by
      rintro rfl
      exact h (Trail.after_broken _)
    rw [List.cons_append, openDollars_cons hs, openDollars_cons hs, ih h, Trail.after_cons, Nat.add_assoc]

/-! ### Texts with a trail -/

/-- The text has `n` open dollars, and `s` is its trail. -/
structure Ends (n : Nat) (s : Trail) (t : Text) : Prop where
  /-- The trail of the text. -/
  trail : Trail.clear.after t = s
  /-- The open dollars of the text. -/
  count : openDollars 0 t = n

namespace Ends

variable {n : Nat} {s : Trail} {t : Text}

theorem nil : Ends 0 .clear [] := ⟨rfl, rfl⟩

/-- **One more character**: a dollar sign is open unless it is escaped. -/
theorem push (h : Ends n s t) (hs : s ≠ .broken) (c : Char) :
    Ends (n + if c = '$' ∧ s ≠ .escape then 1 else 0) (s.next c) (t ++ [c]) := by
  obtain ⟨rfl, rfl⟩ := h
  constructor
  · rw [Trail.after_append, Trail.after_cons, Trail.after_nil]
  · have happend := openDollars_append hs [c]
    rw [openDollars_cons hs, openDollars_nil, Nat.add_zero] at happend
    exact happend

/-- A text with an escaping end ends with a backslash. -/
theorem getLast? (h : Ends n .escape t) : t.getLast? = some '\\' := by
  rcases List.eq_nil_or_concat t with rfl | ⟨u, c, rfl⟩
  · exact absurd h.trail (by simp)
  · have hlast := h.trail
    rw [List.concat_eq_append, Trail.after_append, Trail.after_cons, Trail.after_nil] at hlast
    rw [Trail.eq_backslash_of_next hlast, List.concat_eq_append, List.getLast?_concat]

end Ends

/-- Neither an escape nor more of a separator than its angle bracket stands at the end. -/
def Trail.Free (s : Trail) : Prop := s = .clear ∨ s = .angle

/-- Text that fills the space between two pieces: line breaks, blanks and quote marks. -/
def Filler (t : Text) : Prop := ∀ c ∈ t, c = '\n' ∨ c = ' ' ∨ c = '>'

namespace Ends

variable {n : Nat} {s : Trail} {t : Text}

/-- A character that neither escapes nor goes on as a separator. -/
theorem push_inert (h : Ends n s t) (hs : s.Free) {c : Char} (hslash : c ≠ '\\') (hbang : c ≠ '!') :
    Ends (n + if c = '$' then 1 else 0) .clear (t ++ [c]) := by
  rcases hs with rfl | rfl
  · simpa [Trail.next, hslash] using h.push (by simp) c
  · simpa [Trail.next, hslash, hbang] using h.push (by simp) c

/-- Behind a clear end nothing but a backslash matters. -/
theorem push_clear (h : Ends n .clear t) {c : Char} (hslash : c ≠ '\\') :
    Ends (n + if c = '$' then 1 else 0) .clear (t ++ [c]) := by
  simpa [Trail.next, hslash] using h.push (by simp) c

/-- An escaped character. -/
theorem push_escaped (h : Ends n s t) (hs : s ≠ .broken) (hescape : s ≠ .escape) (c : Char) :
    ∃ s' : Trail, s'.Free ∧ Ends n s' (t ++ ['\\', c]) := by
  have hnext : s.next '\\' = .escape := by cases s <;> simp_all [Trail.next]
  have hslash := h.push hs '\\'
  rw [hnext] at hslash
  have hc := hslash.push (by simp) c
  rw [List.append_assoc] at hc
  refine ⟨_, ?_, by simpa using hc⟩
  rw [Trail.next, Trail.Free]
  split <;> simp

/-- Filler clears the end. -/
theorem filler (h : Ends n s t) (hs : s.Free ∨ s = .escape) {u : Text} (hu : Filler u) (hne : u ≠ []) :
    Ends n .clear (t ++ u) := by
  induction u generalizing s t with
  | nil => exact absurd rfl hne
  | cons c u ih =>
    have hc := hu c (by simp)
    have hclear : Ends n .clear (t ++ [c]) := by
      rcases hs with hs | rfl
      · have hpush := h.push_inert hs (c := c) (by rcases hc with rfl | rfl | rfl <;> decide)
          (by rcases hc with rfl | rfl | rfl <;> decide)
        rwa [if_neg (by rcases hc with rfl | rfl | rfl <;> decide), Nat.add_zero] at hpush
      · have hpush := h.push (by simp) c
        rwa [if_neg (by simp), Nat.add_zero, Trail.next,
          if_neg (by rcases hc with rfl | rfl | rfl <;> decide)] at hpush
    cases u with
    | nil => exact hclear
    | cons d u =>
      rw [← List.singleton_append, ← List.append_assoc]
      exact ih hclear (.inl (.inl rfl)) (fun e he => hu e (by simp [he])) (by simp)

/-- Filler changes nothing behind a free end. -/
theorem filler_free (h : Ends n s t) (hs : s.Free) {u : Text} (hu : Filler u) :
    ∃ s' : Trail, s'.Free ∧ Ends n s' (t ++ u) := by
  cases u with
  | nil => exact ⟨s, hs, by rwa [List.append_nil]⟩
  | cons c u => exact ⟨.clear, .inl rfl, h.filler (.inl hs) hu (by simp)⟩

end Ends

/-! ### List separators -/

/-- What is taken out of a finished page. -/
def separatorLine : Text := listSeparator ++ ['\n', '\n']

/-- A separator that nothing escapes leaves a clear end. -/
theorem after_separatorLine {s : Trail} (hs : s ≠ .escape) (h : s.after separatorLine ≠ .broken) :
    s.after separatorLine = .clear := by
  cases s with
  | escape => exact absurd rfl hs
  | broken => exact absurd (Trail.after_broken _) h
  | clear | angle | bang | dash | dashes => decide

/-- **Taking out list separators keeps the count** when none of them is escaped. -/
theorem openDollars_removeSeparators {t : Text} (h : Trail.clear.after t ≠ .broken) :
    openDollars 0 (Text.replaceAll separatorLine [] t) = openDollars 0 t := by
  -- The induction follows the replacement, which goes on behind the separator it has taken out.
  fun_induction Text.replaceAll separatorLine [] t with
  | case1 => rfl
  | case2 t before rest hcut _ ih =>
    obtain rfl := Text.cutAt?_eq_append hcut
    rw [List.append_nil]
    rw [Trail.after_append, Trail.after_append] at h
    have hseparator : (Trail.clear.after before).after separatorLine ≠ .broken := by
      intro hbroken
      exact h (by rw [hbroken, Trail.after_broken])
    have hbefore : Trail.clear.after before ≠ .broken := by
      intro hbroken
      exact hseparator (by rw [hbroken, Trail.after_broken])
    have hescape : Trail.clear.after before ≠ .escape := by
      intro hescape
      rw [hescape] at hseparator
      exact hseparator (by decide)
    rw [after_separatorLine hescape hseparator] at h
    -- Behind a text that leaves nothing escaped the count starts afresh.
    have hafresh : ∀ u, openDollars 0 (before ++ u) = openDollars 0 before + openDollars 0 u := by
      intro u
      have happend := openDollars_append hbefore u
      rwa [Trail.run_of_ne hescape] at happend
    have hrest := openDollars_append (s := .clear) (t := separatorLine) (by decide) rest
    calc openDollars 0 (before ++ Text.replaceAll separatorLine [] rest)
        = openDollars 0 before + openDollars 0 rest := by rw [hafresh, ih h]
      _ = openDollars 0 before + openDollars 0 (separatorLine ++ rest) := by
        rw [show openDollars 0 (separatorLine ++ rest) = openDollars 0 rest from hrest.trans (Nat.zero_add _)]
      _ = openDollars 0 (before ++ separatorLine ++ rest) := by rw [List.append_assoc, hafresh]
  | case3 => rfl

end CribSheet.Markdown
