/-
Following a title through the sanitizing of a text.

A title with a plain argument is marked in a text, and the text is sanitized.  Either the title is still
there, with a part of its argument left, or it is lost together with something that nothing later brings
back: another command, or the character that makes a line noise.  Around the title, a step that takes
neither a command nor a noise line takes only blanks and a few letters.  This module states what is
followed and shows that it can be followed through one step after the other.

Main definitions:

* `CribSheet.Payload.Sheds` — what a step may take from a text;
* `CribSheet.Payload.Mark`, `CribSheet.Payload.Tracked` — a title in a text, and what becomes of it;
* `CribSheet.Payload.Gentle` — a step through which titles can be followed.

Main results:

* `CribSheet.Payload.Gentle.comp` — following a title through two steps.
-/
import CribSheet.Proofs.Markup.Heads
import CribSheet.Proofs.Sheet.Title

set_option relaxedAutoImplicit false
set_option autoImplicit false

namespace CribSheet.Payload

open CribSheet.Text CribSheet.Markup CribSheet.Identity

/-! ### What a step takes -/

/-- The characters that make a line noise, and one that stands in a sentinel line. -/
def isNoiseMark (c : Char) : Bool := c == '%' || c == '\x60' || c == 'Z'

/-- The test passes no character that may go without a command or a noise line: no blank, no comma, no
letter of the package that is dropped, and no part of an escaped line break. -/
def Lasting (q : Char → Bool) : Prop :=
  ∀ c, q c = true → isBlank c = false ∧
    c ∉ [',', '\\', 'n', 'r', 't', 'i', 'l', 'e', 's', 'c', 'T', 'I', 'L', 'E', 'S', 'C']

/-- Blanks do not last. -/
theorem Lasting.visible {q : Char → Bool} (hq : Lasting q) : Visible q := fun c hc => (hq c hc).1

theorem lasting_isNoiseMark : Lasting isNoiseMark := by
  intro c hc
  simp only [isNoiseMark, Bool.or_eq_true, beq_iff_eq] at hc
  rcases hc with (rfl | rfl) | rfl <;> decide

/-- **What a step may take**, from a text with `n` commands and the characters `t` to one with `n'` and
`t'`: commands and noise, and when it takes neither, nothing that lasts. -/
structure Sheds (n : Nat) (t : Text) (n' : Nat) (t' : Text) : Prop where
  /-- No command comes in. -/
  heads_le : n' ≤ n
  /-- No noise comes in. -/
  noise_le : t'.countP isNoiseMark ≤ t.countP isNoiseMark
  /-- Without commands and noise, nothing that lasts goes. -/
  lasting : n' = n → t'.countP isNoiseMark = t.countP isNoiseMark →
    ∀ q, Lasting q → t'.countP q = t.countP q

namespace Sheds

variable {n n' n'' m m' : Nat} {t t' t'' u u' : Text}

theorem refl (n : Nat) (t : Text) : Sheds n t n t :=
  ⟨Nat.le_refl n, Nat.le_refl _, fun _ _ _ _ => rfl⟩

theorem trans (h : Sheds n t n' t') (h' : Sheds n' t' n'' t'') : Sheds n t n'' t'' := by
  refine ⟨Nat.le_trans h'.heads_le h.heads_le, Nat.le_trans h'.noise_le h.noise_le, ?_⟩
  intro hn hnoise q hq
  have hle := h.heads_le
  have hle' := h'.heads_le
  have hnoise₁ := h.noise_le
  have hnoise₂ := h'.noise_le
  rw [h'.lasting (by omega) (by omega) q hq, h.lasting (by omega) (by omega) q hq]

/-- What is taken from two texts is taken from both together. -/
theorem append (h : Sheds n t n' t') (h' : Sheds m u m' u') :
    Sheds (n + m) (t ++ u) (n' + m') (t' ++ u') := by
  have hle := h.heads_le
  have hle' := h'.heads_le
  have hnoise := h.noise_le
  have hnoise' := h'.noise_le
  refine ⟨by omega, ?_, ?_⟩
  · rw [List.countP_append, List.countP_append]
    omega
  · intro hn hcount q hq
    rw [List.countP_append, List.countP_append] at hcount ⊢
    rw [h.lasting (by omega) (by omega) q hq, h'.lasting (by omega) (by omega) q hq]

/-- The same for texts, where no escape is open between the two. -/
theorem concat (h : Sheds (heads false t) t (heads false t') t')
    (h' : Sheds (heads false u) u (heads false u') u')
    (ht : escapedAfter false t = false) (ht' : escapedAfter false t' = false) :
    Sheds (heads false (t ++ u)) (t ++ u) (heads false (t' ++ u')) (t' ++ u') := by
  rw [heads_append, heads_append, ht, ht']
  exact h.append h'

/-- When commands go, anything may go. -/
theorem of_heads_lt (hn : n' < n) (h : t'.Sublist t) : Sheds n t n' t' :=
  ⟨Nat.le_of_lt hn, h.countP_le, fun he => absurd he (Nat.ne_of_lt hn)⟩

/-- When noise goes, anything may go. -/
theorem of_noise_lt (hn : n' ≤ n) (h : t'.countP isNoiseMark < t.countP isNoiseMark) :
    Sheds n t n' t' :=
  ⟨hn, Nat.le_of_lt h, fun _ he => absurd he (Nat.ne_of_lt h)⟩

/-- What does not last may go at any time. -/
theorem of_lasting (hn : n' ≤ n) (h : ∀ q, Lasting q → t'.countP q = t.countP q) :
    Sheds n t n' t' :=
  ⟨hn, Nat.le_of_eq (h _ lasting_isNoiseMark), fun _ _ => h⟩

/-- Blanks behind may go at any time. -/
theorem concat_blank (h : Sheds (heads false t) t (heads false t') t') (hu : isBlankText u = true) :
    Sheds (heads false (t ++ u)) (t ++ u) (heads false t') t' := by
  refine trans (of_lasting (Nat.le_of_eq ?_) fun q hq => ?_) h
  · rw [heads_append_blank hu]
  · rw [List.countP_append, hq.visible.countP_blank hu, Nat.add_zero]

/-- What stays behind stays. -/
theorem concat_refl (h : Sheds (heads false t) t (heads false t') t')
    (ht : escapedAfter false t = false) (ht' : escapedAfter false t' = false) (u : Text) :
    Sheds (heads false (t ++ u)) (t ++ u) (heads false (t' ++ u)) (t' ++ u) :=
  h.concat (refl _ u) ht ht'

end Sheds

/-! ### Marks -/

/-- A text with a title marked in it. -/
structure Mark where
  /-- What stands before the title. -/
  before : Text
  /-- The argument of the title. -/
  argument : Text
  /-- What stands behind the title. -/
  after : Text
deriving Repr, DecidableEq

namespace Mark

/-- The text in which the title is marked. -/
def text (m : Mark) : Text := m.before ++ plainTitle m.argument ++ m.after

/-- What stands around the title. -/
def outside (m : Mark) : Text := m.before ++ m.after

/-- The title is one: its argument is plain and stands on one line, and its backslash is not escaped.
`escaped` says whether the first character of the text is. -/
structure Fits (m : Mark) (escaped : Bool) : Prop where
  /-- The argument is plain. -/
  plain : Plain m.argument
  /-- It stands on one line. -/
  line : '\n' ∉ m.argument
  /-- The backslash is not escaped. -/
  fresh : escapedAfter escaped m.before = false

/-- No escape is open behind the title. -/
theorem Fits.escapedAfter_title {m : Mark} {escaped : Bool} (h : m.Fits escaped) :
    escapedAfter escaped (m.before ++ plainTitle m.argument) = false := by
  rw [escapedAfter_append, h.fresh, escapedAfter_plainTitle h.plain.slash_not_mem]

/-- The title counts as one command. -/
theorem heads_text {m : Mark} {escaped : Bool} (h : m.Fits escaped) :
    heads escaped m.text = heads escaped m.before + 1 + heads false m.after := by
  rw [text, heads_append, heads_append, h.escapedAfter_title, h.fresh, heads_plainTitle h.plain]

end Mark

/-- The title is lost, together with another command or with noise. -/
def Lost (escaped : Bool) (m : Mark) (t : Text) : Prop :=
  heads escaped t + 2 ≤ heads escaped m.text ∨
    (heads escaped t + 1 ≤ heads escaped m.text ∧
      t.countP isNoiseMark + 1 ≤ m.outside.countP isNoiseMark)

/-- **What becomes of a title** when a text turns into `t`: it is still there, with less around it and in
it, or it is lost. -/
def Tracked (escaped : Bool) (m : Mark) (t : Text) : Prop :=
  (∃ m' : Mark, m'.text = t ∧ m'.Fits escaped ∧
    Sheds (heads escaped m.text) m.outside (heads escaped m'.text) m'.outside) ∨
  Lost escaped m t

theorem Lost.of_sheds {escaped : Bool} {m m' : Mark} {t : Text} (h : Lost escaped m' t)
    (hsheds : Sheds (heads escaped m.text) m.outside (heads escaped m'.text) m'.outside) :
    Lost escaped m t := by
  have hheads := hsheds.heads_le
  have hnoise := hsheds.noise_le
  refine h.imp (fun h => by omega) ?_
  rintro ⟨h, h'⟩
  omega

/-- What is lost stays lost. -/
theorem Lost.sheds {escaped : Bool} {m : Mark} {t t' : Text} (h : Lost escaped m t)
    (hsheds : Sheds (heads escaped t) t (heads escaped t') t') : Lost escaped m t' := by
  have hheads := hsheds.heads_le
  have hnoise := hsheds.noise_le
  refine h.imp (fun h => by omega) ?_
  rintro ⟨h, h'⟩
  omega

theorem Tracked.of_sheds {escaped : Bool} {m m' : Mark} {t : Text} (h : Tracked escaped m' t)
    (hsheds : Sheds (heads escaped m.text) m.outside (heads escaped m'.text) m'.outside) :
    Tracked escaped m t := by
  rcases h with ⟨m'', ht, hm'', hsheds'⟩ | hlost
  · exact Or.inl ⟨m'', ht, hm'', hsheds.trans hsheds'⟩
  · exact Or.inr (hlost.of_sheds hsheds)

/-! ### Titles inside of a text -/

namespace Mark

/-- The mark, in a text with `a` in front and `z` behind. -/
def around (a z : Text) (m : Mark) : Mark := ⟨a ++ m.before, m.argument, m.after ++ z⟩

theorem text_around (a z : Text) (m : Mark) : (m.around a z).text = a ++ m.text ++ z := by
  simp [around, text]

theorem Fits.around {m : Mark} (h : m.Fits false) {a : Text} (ha : escapedAfter false a = false)
    (z : Text) : (m.around a z).Fits false := by
  refine ⟨h.plain, h.line, ?_⟩
  rw [Mark.around, escapedAfter_append, ha, h.fresh]

theorem heads_text_around (m : Mark) {a z : Text} (ha : escapedAfter false a = false)
    (hz : ∀ escaped, heads escaped z = heads false z) :
    heads false (m.around a z).text = heads false a + heads false m.text + heads false z := by
  rw [text_around, heads_append, heads_append, ha, hz]

theorem countP_outside_around (m : Mark) (a z : Text) (q : Char → Bool) :
    (m.around a z).outside.countP q = a.countP q + m.outside.countP q + z.countP q := by
  simp only [outside, around, List.countP_append]
  omega

end Mark

variable {m m' : Mark} {t a a' z z' : Text}

/-- What is taken around a title and what is taken on both sides of that. -/
theorem Sheds.around (h : Sheds (heads false m.text) m.outside (heads false m'.text) m'.outside)
    (ha : escapedAfter false a = false) (ha' : escapedAfter false a' = false)
    (hz : ∀ escaped, heads escaped z = heads false z)
    (hz' : ∀ escaped, heads escaped z' = heads false z')
    (hbefore : Sheds (heads false a) a (heads false a') a')
    (hafter : Sheds (heads false z) z (heads false z') z') :
    Sheds (heads false (m.around a z).text) (m.around a z).outside
      (heads false (m'.around a' z').text) (m'.around a' z').outside := by
  have hsum := (hbefore.append h).append hafter
  have hle := hsum.heads_le
  have hnoise := hsum.noise_le
  have hlasting := hsum.lasting
  simp only [List.countP_append] at hnoise hlasting
  rw [m.heads_text_around ha hz, m'.heads_text_around ha' hz']
  refine ⟨hle, ?_, fun hn hcount q hq => ?_⟩
  · rw [Mark.countP_outside_around, Mark.countP_outside_around]
    exact hnoise
  · rw [Mark.countP_outside_around, Mark.countP_outside_around] at hcount ⊢
    exact hlasting hn hcount q hq

/-- **A title that can be followed in a part of a text** can be followed in the text. -/
theorem Tracked.around (h : Tracked false m t) (a a' z z' : Text)
    (ha : escapedAfter false a = false) (ha' : escapedAfter false a' = false)
    (hz : ∀ escaped, heads escaped z = heads false z)
    (hz' : ∀ escaped, heads escaped z' = heads false z')
    (hbefore : Sheds (heads false a) a (heads false a') a')
    (hafter : Sheds (heads false z) z (heads false z') z') :
    Tracked false (m.around a z) (a' ++ t ++ z') := by
  rcases h with ⟨m', rfl, hm', hsheds⟩ | hlost
  · exact Or.inl ⟨m'.around a' z', m'.text_around a' z', hm'.around ha' z',
      hsheds.around ha ha' hz hz' hbefore hafter⟩
  · have hle := hbefore.heads_le
    have hle' := hafter.heads_le
    have hnoise := hbefore.noise_le
    have hnoise' := hafter.noise_le
    have hheads : heads false (a' ++ t ++ z') = heads false a' + heads false t + heads false z' := by
      rw [heads_append, heads_append, ha', hz']
    refine Or.inr ?_
    rw [Lost, hheads, m.heads_text_around ha hz, Mark.countP_outside_around, List.countP_append,
      List.countP_append]
    refine hlost.imp (fun h => by omega) ?_
    rintro ⟨h, h'⟩
    omega

/-- A title stays when only what stands behind it changes. -/
theorem Tracked.of_after (hm : m.Fits false)
    (hafter : Sheds (heads false m.after) m.after (heads false z') z') :
    Tracked false m (m.before ++ plainTitle m.argument ++ z') := by
  have hm' : (Mark.mk m.before m.argument z').Fits false := ⟨hm.plain, hm.line, hm.fresh⟩
  have hsum := (Sheds.refl (heads false m.before + 1) m.before).append hafter
  refine Or.inl ⟨⟨m.before, m.argument, z'⟩, rfl, hm', ?_⟩
  rw [Mark.heads_text hm, Mark.heads_text hm']
  exact hsum

/-! ### Steps -/

/-- **A step through which titles can be followed.** -/
structure Gentle (op : Text → Text) : Prop where
  /-- It only sheds. -/
  sheds : ∀ t, Sheds (heads false t) t (heads false (op t)) (op t)
  /-- It keeps titles or loses them. -/
  tracked : ∀ m : Mark, m.Fits false → Tracked false m (op m.text)

namespace Gentle

variable {f g : Text → Text}

theorem id : Gentle fun t => t :=
  ⟨fun t => Sheds.refl _ t, fun m hm => Or.inl ⟨m, rfl, hm, Sheds.refl _ _⟩⟩

/-- **Following a title through two steps.** -/
theorem comp (hg : Gentle g) (hf : Gentle f) : Gentle (g ∘ f) := by
  refine ⟨fun t => (hf.sheds t).trans (hg.sheds (f t)), fun m hm => ?_⟩
  rcases hf.tracked m hm with ⟨m', ht, hm', hsheds⟩ | hlost
  · rw [Function.comp_apply, ← ht]
    exact (hg.tracked m' hm').of_sheds hsheds
  · exact Or.inr (hlost.sheds (hg.sheds (f m.text)))

end Gentle

end CribSheet.Payload
