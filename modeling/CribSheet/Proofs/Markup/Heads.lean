/-
Counting the commands of a text by their first letters.

What sanitizing and the title stage take out of a text begins with one of a few letters behind a
backslash that is not escaped.  The number of such letters is additive, up to the bit that says whether
the next character is escaped, and it does not see blanks, separators and delimiters.  It is therefore a
measure of what these stages take, which nothing that is put in instead makes up for.

Main definitions:

* `CribSheet.Markup.isHead`, `CribSheet.Markup.heads` — the letters, and how often they are escaped.

Main results:

* `CribSheet.Markup.heads_append` — the count is additive;
* `CribSheet.Markup.heads_blank_append`, `CribSheet.Markup.heads_append_blank` — blanks do not count;
* `CribSheet.Markup.Sighting.heads_source` — a command counts by its first letter.
-/
import CribSheet.Markup.Group
import CribSheet.Proofs.Text.Cut
import CribSheet.Proofs.Text.Deletion

set_option relaxedAutoImplicit false
set_option autoImplicit false

namespace CribSheet.Markup

open CribSheet.Text

/-! ### The count -/

/-- The first letters of the commands that sanitizing and the title stage take out. -/
def isHead (c : Char) : Bool := c == 't' || c == 'u' || c == 'R'

/-- How many of these letters are escaped.  `escaped` says whether the first character is. -/
def heads : (escaped : Bool) → Text → Nat
  | _, [] => 0
  | escaped, c :: t => (if escaped && isHead c then 1 else 0) + heads (escapes escaped c) t

@[simp] theorem heads_nil (escaped : Bool) : heads escaped [] = 0 := rfl

theorem heads_cons (escaped : Bool) (c : Char) (t : Text) :
    heads escaped (c :: t) =
      (if escaped && isHead c then 1 else 0) + heads (escapes escaped c) t := rfl

/-- **The count is additive.** -/
theorem heads_append (escaped : Bool) (a b : Text) :
    heads escaped (a ++ b) = heads escaped a + heads (escapedAfter escaped a) b := by
  induction a generalizing escaped with
  | nil => simp
  | cons c a ih => rw [List.cons_append, heads_cons, heads_cons, ih, escapedAfter_cons, Nat.add_assoc]

theorem escapes_of_ne {c : Char} (h : c ≠ '\\') (escaped : Bool) : escapes escaped c = false := by
  simp [escapes, h]

theorem escapedAfter_cons_of_ne {c : Char} (h : c ≠ '\\') (escaped : Bool) (t : Text) :
    escapedAfter escaped (c :: t) = escapedAfter false t := by
  rw [escapedAfter_cons, escapes_of_ne h]

theorem escapedAfter_pair (d : Char) (t : Text) :
    escapedAfter false ('\\' :: d :: t) = escapedAfter false t := by
  simp [escapes]

/-- Behind a last character that is no backslash no escape is open. -/
theorem escapedAfter_concat {c : Char} (hc : c ≠ '\\') (escaped : Bool) (t : Text) :
    escapedAfter escaped (t ++ [c]) = false := by
  rw [escapedAfter_append, escapedAfter_cons, escapes_of_ne hc, escapedAfter_nil]

theorem escapedAfter_of_getLast? {t : Text} {c : Char} (h : t.getLast? = some c) (hc : c ≠ '\\')
    (escaped : Bool) : escapedAfter escaped t = false := by
  obtain ⟨x, rfl⟩ := List.getLast?_eq_some_iff.1 h
  exact escapedAfter_concat hc escaped x

/-- Behind a character that neither counts nor escapes, the count starts anew. -/
theorem heads_cons_of_ne {c : Char} (h : c ≠ '\\') (hc : isHead c = false) (escaped : Bool)
    (t : Text) : heads escaped (c :: t) = heads false t := by
  rw [heads_cons, escapes_of_ne h, hc]
  simp

theorem heads_eq_of_head? {t : Text} (h : ∀ c ∈ t.head?, c ≠ '\\' ∧ isHead c = false)
    (escaped : Bool) : heads escaped t = heads false t := by
  cases t with
  | nil => rfl
  | cons c t =>
      obtain ⟨hne, hc⟩ := h c rfl
      rw [heads_cons_of_ne hne hc, heads_cons_of_ne hne hc]

/-! ### Plain text and blanks -/

theorem escapedAfter_plain {x : Text} (hx : '\\' ∉ x) : escapedAfter false x = false := by
  induction x with
  | nil => rfl
  | cons c x ih =>
      obtain ⟨hc, hx⟩ := not_or.1 fun h => hx (List.mem_cons.2 h)
      rw [escapedAfter_cons_of_ne (Ne.symm hc), ih hx]

theorem heads_plain {x : Text} (hx : '\\' ∉ x) : heads false x = 0 := by
  induction x with
  | nil => rfl
  | cons c x ih =>
      obtain ⟨hc, hx⟩ := not_or.1 fun h => hx (List.mem_cons.2 h)
      rw [heads_cons, escapes_of_ne (Ne.symm hc), ih hx]
      simp

theorem ne_of_isBlank {c : Char} (h : isBlank c = true) : c ≠ '\\' ∧ isHead c = false := by
  refine ⟨?_, ?_⟩
  · rintro rfl
    exact absurd h (by decide)
  · cases hc : isHead c with
    | false => rfl
    | true =>
        simp only [isHead, Bool.or_eq_true, beq_iff_eq] at hc
        rcases hc with (rfl | rfl) | rfl <;> exact absurd h (by decide)

theorem isBlank_of_isLetter {c : Char} (hc : isLetter c = true) : isBlank c = false := by
  -- By definition a letter is in one of two ranges.
  have hupper : c.isUpper = decide (c.val ≥ 65 ∧ c.val ≤ 90) := rfl
  have hlower : c.isLower = (decide (c.val ≥ 97) && decide (c.val ≤ 122)) := rfl
  have hletter : (c.isUpper || c.isLower) = true := hc
  have hrange : 65 ≤ c.toNat ∧ c.toNat ≤ 90 ∨ 97 ≤ c.toNat ∧ c.toNat ≤ 122 := by
    simpa [hupper, hlower, UInt32.le_iff_toNat_le] using hletter
  simp only [isBlank, Bool.or_eq_false_iff, Bool.and_eq_false_iff, decide_eq_false_iff_not, beq_eq_false_iff_ne]
  omega

theorem slash_not_mem_of_isBlankText {x : Text} (hx : isBlankText x = true) : '\\' ∉ x :=
  fun h => absurd (List.all_eq_true.1 hx _ h) (by decide)

theorem escapedAfter_blank {x : Text} (hx : isBlankText x = true) : escapedAfter false x = false :=
  escapedAfter_plain (slash_not_mem_of_isBlankText hx)

theorem heads_blank {x : Text} (hx : isBlankText x = true) (escaped : Bool) :
    heads escaped x = 0 := by
  rw [heads_eq_of_head?, heads_plain (slash_not_mem_of_isBlankText hx)]
  exact fun c hc => ne_of_isBlank (List.all_eq_true.1 hx c (List.mem_of_mem_head? hc))

/-- **Blanks in front do not count.** -/
theorem heads_blank_append {x : Text} (hx : isBlankText x = true) (t : Text) :
    heads false (x ++ t) = heads false t := by
  rw [heads_append, heads_blank hx, escapedAfter_blank hx, Nat.zero_add]

/-- **Blanks behind do not count.** -/
theorem heads_append_blank {x : Text} (hx : isBlankText x = true) (escaped : Bool) (t : Text) :
    heads escaped (t ++ x) = heads escaped t := by
  rw [heads_append, heads_blank hx, Nat.add_zero]

theorem isBlankText_takeEndWhile {p : Char → Bool} (hp : ∀ c, p c = true → isBlank c = true)
    (t : Text) : isBlankText (takeEndWhile p t) = true :=
  List.all_eq_true.2 fun c hc => hp c (mem_takeEndWhile hc)

theorem heads_dropEndWhile {p : Char → Bool} (hp : ∀ c, p c = true → isBlank c = true)
    (escaped : Bool) (t : Text) : heads escaped (dropEndWhile p t) = heads escaped t := by
  conv => rhs; rw [← dropEndWhile_append_takeEndWhile p t]
  exact (heads_append_blank (isBlankText_takeEndWhile hp t) escaped _).symm

theorem exists_trimStart (t : Text) : ∃ x, isBlankText x = true ∧ t = x ++ t.trimStart :=
  ⟨_, List.all_takeWhile, List.takeWhile_append_dropWhile.symm⟩

theorem heads_trimStart (t : Text) : heads false t.trimStart = heads false t := by
  obtain ⟨x, hx, ht⟩ := exists_trimStart t
  conv => rhs; rw [ht, heads_blank_append hx]

theorem heads_trim (t : Text) : heads false t.trim = heads false t := by
  rw [← heads_trimStart t]
  exact heads_dropEndWhile (fun _ h => h) false t.trimStart

/-! ### What blanks do not count for -/

/-- The test passes no blank. -/
def Visible (q : Char → Bool) : Prop := ∀ c, q c = true → isBlank c = false

theorem Visible.countP_blank {q : Char → Bool} (hq : Visible q) {x : Text}
    (hx : isBlankText x = true) : x.countP q = 0 := by
  refine List.countP_eq_zero.2 fun c hc hqc => ?_
  have hblank := List.all_eq_true.1 hx c hc
  rw [hq c hqc] at hblank
  simp at hblank

theorem exists_trim (t : Text) :
    ∃ x y, isBlankText x = true ∧ isBlankText y = true ∧ t = x ++ t.trim ++ y := by
  obtain ⟨x, hx, ht⟩ := exists_trimStart t
  refine ⟨x, takeEndWhile isBlank t.trimStart, hx, isBlankText_takeEndWhile (fun _ h => h) _, ?_⟩
  rw [trim, trimEnd, List.append_assoc, dropEndWhile_append_takeEndWhile, ← ht]

theorem Visible.countP_trim {q : Char → Bool} (hq : Visible q) (t : Text) :
    t.trim.countP q = t.countP q := by
  obtain ⟨x, y, hx, hy, ht⟩ := exists_trim t
  conv => rhs; rw [ht]
  rw [List.countP_append, List.countP_append, hq.countP_blank hx, hq.countP_blank hy]
  omega

theorem Visible.countP_dropEndWhile {q p : Char → Bool} (hq : Visible q)
    (hp : ∀ c, p c = true → isBlank c = true) (t : Text) :
    (t.dropEndWhile p).countP q = t.countP q := by
  conv => rhs; rw [← dropEndWhile_append_takeEndWhile p t, List.countP_append,
    hq.countP_blank (isBlankText_takeEndWhile hp t), Nat.add_zero]

theorem Visible.countP_trimStart {q : Char → Bool} (hq : Visible q) (t : Text) :
    t.trimStart.countP q = t.countP q := by
  obtain ⟨x, hx, ht⟩ := exists_trimStart t
  conv => rhs; rw [ht, List.countP_append, hq.countP_blank hx, Nat.zero_add]

/-! ### Cuts -/

/-- Growing a cut to whole lines opens no escape in front of it. -/
theorem escapedAfter_before_wholeLines {c : Cut} (h : escapedAfter false c.before = false)
    (blank : Bool) : escapedAfter false (c.wholeLines blank).before = false := by
  rcases c.before_wholeLines blank with hbefore | hbefore
  · rw [hbefore]
    exact h
  · rw [hbefore]
    rcases lastLine_fst c.before with hline | ⟨x, hline⟩
    · rw [hline]
      rfl
    · rw [hline, escapedAfter_append, escapedAfter_cons_of_ne (by decide)]
      rfl

/-! ### Commands -/

namespace Sighting

variable {s : Sighting} {c : Char} {name : Text}

theorem slash_not_mem_tail_source (hslash : '\\' ∉ s.name) : '\\' ∉ s.source.tail := by
  rw [source, List.cons_append, List.tail_cons, List.mem_append, not_or]
  refine ⟨hslash, ?_⟩
  split <;> decide

theorem exists_source_eq (hname : s.name = c :: name) (hslash : '\\' ∉ s.name) :
    ∃ rest, s.source = '\\' :: c :: rest ∧ '\\' ∉ rest := by
  have htail := slash_not_mem_tail_source hslash
  have hsource : s.source = '\\' :: c :: (name ++ if s.starred then ['*'] else []) := by
    rw [source, hname, List.cons_append, List.cons_append]
  rw [hsource, List.tail_cons] at htail
  exact ⟨_, hsource, fun h => htail (List.mem_cons_of_mem c h)⟩

/-- **A command counts by its first letter.** -/
theorem heads_source (hname : s.name = c :: name) (hslash : '\\' ∉ s.name) :
    heads false s.source = if isHead c then 1 else 0 := by
  obtain ⟨rest, hsource, hrest⟩ := exists_source_eq hname hslash
  have hescape : escapes false '\\' = true := by decide
  have hstate : escapes true c = false := by simp [escapes]
  rw [hsource, heads_cons, hescape, heads_cons, hstate, heads_plain hrest]
  simp

theorem escapedAfter_source (hname : s.name = c :: name) (hslash : '\\' ∉ s.name) :
    escapedAfter false s.source = false := by
  obtain ⟨rest, hsource, hrest⟩ := exists_source_eq hname hslash
  rw [hsource, escapedAfter_pair, escapedAfter_plain hrest]

end Sighting

/-! ### Space in front of an argument -/

theorem isBlankText_takeWhile_isGap (t : Text) : isBlankText (t.takeWhile isGap) = true :=
  List.all_eq_true.2 fun c hc =>
    isBlank_of_isGap (List.all_eq_true.1 (List.all_takeWhile (p := isGap) (l := t)) c hc)

theorem isBlankText_argumentSpace (t : Text) : isBlankText (argumentSpace t).1 = true := by
  have hgap := isBlankText_takeWhile_isGap
  rw [argumentSpace]
  split
  · next rest _ =>
      rw [isBlankText_append, hgap, Bool.true_and]
      exact List.all_eq_true.2 fun c hc => by
        rcases List.mem_cons.1 hc with rfl | hc
        · decide
        · exact List.all_eq_true.1 (hgap rest) c hc
  · exact hgap t

theorem isBlankText_space_of_read? {t : Text} {a : Argument} (h : Argument.read? t = some a) :
    isBlankText a.space = true := by
  rw [Argument.read?] at h
  split at h
  · obtain rfl := Option.some.inj h
    exact isBlankText_argumentSpace t
  · simp at h

end CribSheet.Markup
