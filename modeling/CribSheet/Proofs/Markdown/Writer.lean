/-
The writer and open dollar signs.

Between two pieces of text the writer puts line breaks and margins, which clear the end of what is written.
Prose escapes whatever could leave an escape or a separator open, and so does an address; what is written
as it is must not hold a backslash.  The one backslash that is left open is that of a hard line break, and
behind it the writer owes the line break that makes it harmless.

Main definitions:

* `CribSheet.Markdown.Rests` — nothing is owed, and the end of the text is known;
* `CribSheet.Markdown.Tracks` — so many dollars are open, and whatever comes next finds a free end.

Main results:

* `CribSheet.Markdown.Tracks.settle` — paying the owed line breaks frees the end;
* `CribSheet.Markdown.Tracks.literal`, `CribSheet.Markdown.Tracks.prose` — writing text opens as many
  dollars as it holds;
* `CribSheet.Markdown.Tracks.target` — writing the target of a link opens none.
-/
import CribSheet.Proofs.Markdown.Trail

set_option relaxedAutoImplicit false
set_option autoImplicit false

namespace CribSheet.Markdown

open Writer

/-! ### States -/

/-- Nothing is owed, the margin is filler, and the text has `n` open dollars and an end that passes `P`. -/
structure Rests (P : Trail → Prop) (n : Nat) (w : Writer) : Prop where
  /-- Nothing is owed. -/
  owed : w.owed = 0
  /-- The margin opens nothing. -/
  margin : Filler w.margin
  /-- The end of the text. -/
  ends : ∃ s, P s ∧ Ends n s w.text

/-- **The text has `n` open dollars**, and its end is free, or becomes so with the line break that is
owed. -/
structure Tracks (n : Nat) (w : Writer) : Prop where
  /-- The margin opens nothing. -/
  margin : Filler w.margin
  /-- The end of the text. -/
  ends : ∃ s : Trail, (s.Free ∨ s = .escape ∧ 1 ≤ w.owed) ∧ Ends n s w.text

theorem tracks_start : Tracks 0 {} where
  margin := by simp [Filler]
  ends := ⟨.clear, .inl (.inl rfl), .nil⟩

variable {n : Nat} {w : Writer}

theorem Rests.tracks {P : Trail → Prop} (hP : ∀ s, P s → s.Free) (h : Rests P n w) : Tracks n w where
  margin := h.margin
  ends := by
    obtain ⟨s, hs, hends⟩ := h.ends
    exact ⟨s, .inl (hP s hs), hends⟩

/-- The state of a text depends on what is written, the margin and what is owed. -/
theorem Tracks.congr (h : Tracks n w) {w' : Writer} (hwritten : w'.written = w.written)
    (hmargin : w'.margin = w.margin) (howed : w.owed ≤ w'.owed) : Tracks n w' where
  margin := hmargin ▸ h.margin
  ends := by
    obtain ⟨s, hs, hends⟩ := h.ends
    refine ⟨s, ?_, by rwa [Writer.text, hwritten]⟩
    rcases hs with hs | ⟨hs, hle⟩
    · exact .inl hs
    · exact .inr ⟨hs, Nat.le_trans hle howed⟩

theorem Tracks.oweBreak (h : Tracks n w) : Tracks n w.oweBreak :=
  h.congr rfl rfl (Nat.le_max_left ..)

theorem Tracks.oweBlankLine (h : Tracks n w) : Tracks n w.oweBlankLine :=
  h.congr rfl rfl (Nat.le_max_left ..)

theorem Tracks.setOneLine (h : Tracks n w) (oneLine : Bool) : Tracks n { w with oneLine := oneLine } :=
  h.congr rfl rfl (Nat.le_refl _)

theorem Tracks.setTight (h : Tracks n w) (tight : Bool) : Tracks n { w with tight := tight } :=
  h.congr rfl rfl (Nat.le_refl _)

/-- A margin that is filler may take the place of another. -/
theorem Tracks.setMargin (h : Tracks n w) {m : Text} (hm : Filler m) : Tracks n { w with margin := m } where
  margin := hm
  ends := h.ends

theorem Tracks.indent (h : Tracks n w) {t : Text} (ht : Filler t) : Tracks n (w.indent t) :=
  h.setMargin fun c hc => (List.mem_append.1 hc).elim (h.margin c) (ht c)

theorem Tracks.outdent (h : Tracks n w) (width : Nat) : Tracks n (w.outdent width) :=
  h.setMargin fun c hc => h.margin c (List.mem_of_mem_take hc)

/-! ### Line breaks -/

/-- Paying line breaks puts filler behind the text, and some of it unless the text ends with a break. -/
theorem exists_payBreaks {margin : Text} (hm : Filler margin) (owed : Nat) (back written : Text) :
    ∃ gap, Filler gap ∧ payBreaks margin owed back written = gap ++ written ∧
      ∀ c t, back = c :: t → c ≠ '\n' → 1 ≤ owed → gap ≠ [] := by
  induction owed generalizing back written with
  | zero => exact ⟨[], by simp [Filler], by simp [payBreaks], by simp⟩
  | succ owed ih =>
    -- The first character behind the end decides whether a break counts as paid.
    cases back with
    | nil =>
      obtain ⟨gap, hgap, heq, -⟩ := ih [] written
      exact ⟨gap, hgap, by rw [payBreaks, heq], by simp⟩
    | cons c back =>
      by_cases hc : c = '\n'
      · obtain ⟨gap, hgap, heq, -⟩ := ih back written
        refine ⟨gap, hgap, by rw [payBreaks, if_pos hc, heq], ?_⟩
        intro d t hd hne
        exact absurd ((List.cons.inj hd).1.symm.trans hc) hne
      · obtain ⟨gap, hgap, heq, -⟩ :=
          ih (c :: back) ((if owed = 0 then [] else margin.reverse) ++ '\n' :: written)
        refine ⟨gap ++ ((if owed = 0 then [] else margin.reverse) ++ ['\n']), ?_, ?_, by simp⟩
        · intro d hd
          rcases List.mem_append.1 hd with hd | hd
          · exact hgap d hd
          · rcases List.mem_append.1 hd with hd | hd
            · split at hd
              · exact absurd hd List.not_mem_nil
              · exact hm d (List.mem_reverse.1 hd)
            · exact .inl (List.mem_singleton.1 hd)
        · rw [payBreaks, if_neg hc, heq]
          simp

/-- **Paying the owed line breaks frees the end.** -/
theorem Tracks.settle (h : Tracks n w) : Rests Trail.Free n w.settle where
  owed := rfl
  margin := h.margin
  ends := by
    obtain ⟨s, hs, hends⟩ := h.ends
    obtain ⟨gap, hgap, heq, hne⟩ :=
      exists_payBreaks h.margin (if w.tight then min w.owed 1 else w.owed) w.written w.written
    have htext : w.settle.text = w.text ++ gap.reverse := by
      rw [Writer.text, Writer.settle, heq, List.reverse_append, Writer.text]
    have hfill : Filler gap.reverse := fun c hc => hgap c (List.mem_reverse.1 hc)
    rw [htext]
    rcases hs with hs | ⟨rfl, howed⟩
    · exact hends.filler_free hs hfill
    · have hhead : w.written.head? = some '\\' := by
        rw [← List.getLast?_reverse]
        exact hends.getLast?
      obtain ⟨back, hback⟩ := List.head?_eq_some_iff.1 hhead
      have hpaid : 1 ≤ if w.tight then min w.owed 1 else w.owed := by split <;> omega
      have hgap' : gap.reverse ≠ [] := by
        rw [Ne, List.reverse_eq_nil_iff]
        exact hne '\\' back hback (by decide) hpaid
      exact ⟨.clear, .inl rfl, hends.filler (.inr rfl) hfill hgap'⟩

/-- With nothing owed there is nothing to pay. -/
theorem settle_eq_self (h : w.owed = 0) : w.settle = w := by
  obtain ⟨written, margin, owed, atLineStart, atContentStart, oneLine, tight⟩ := w
  obtain rfl : owed = 0 := h
  simp [Writer.settle, payBreaks]

/-! ### Characters -/

section Step

variable {P Q : Trail → Prop} {m : Nat} {w' : Writer}

/-- Putting some text behind a known end. -/
theorem Rests.append (h : Rests P n w) {u : Text} (howed : w'.owed = w.owed) (hmargin : w'.margin = w.margin)
    (htext : w'.text = w.text ++ u)
    (hu : ∀ s t, P s → Ends n s t → ∃ s', Q s' ∧ Ends m s' (t ++ u)) : Rests Q m w' where
  owed := howed.trans h.owed
  margin := hmargin ▸ h.margin
  ends := by
    obtain ⟨s, hs, hends⟩ := h.ends
    rw [htext]
    exact hu s _ hs hends

/-- Noting a character changes nothing of this. -/
theorem Rests.note (h : Rests P n w) (c : Char) : Rests P n (note c w) := ⟨h.owed, h.margin, h.ends⟩

/-- The margin at the start of a line leaves a free end free, and a clear end clear. -/
theorem Rests.startLine (h : Rests P n w) (hP : P = Trail.Free ∨ P = (· = .clear)) :
    Rests P n w.startLine := by
  unfold Writer.startLine
  split
  · refine h.append (u := w.margin) rfl rfl (by simp [Writer.text]) ?_
    intro s t hs hends
    rcases hP with rfl | rfl
    · exact hends.filler_free hs h.margin
    · obtain rfl : s = .clear := hs
      by_cases hempty : w.margin = []
      · exact ⟨.clear, rfl, by rwa [hempty, List.append_nil]⟩
      · exact ⟨.clear, rfl, hends.filler (.inl (.inl rfl)) h.margin hempty⟩
  · exact h

/-- Writing a character as it is, once the margin is written. -/
theorem Rests.literalChar (h : Rests P n w) (hP : P = Trail.Free ∨ P = (· = .clear)) {c : Char}
    (hc : ∀ s t, P s → Ends n s t → ∃ s', Q s' ∧ Ends m s' (t ++ [c])) : Rests Q m (w.literalChar c) := by
  refine (h.startLine hP).append (u := [c]) ?_ ?_ ?_ hc
  all_goals
    unfold Writer.literalChar
    simp only [Writer.text]
    split <;> simp

end Step

/-- A character that is inert behind a free end. -/
theorem Rests.literalChar_inert (h : Rests Trail.Free n w) {c : Char} (hslash : c ≠ '\\') (hbang : c ≠ '!') :
    Rests (· = .clear) (n + if c = '$' then 1 else 0) (w.literalChar c) :=
  h.literalChar (.inl rfl) fun _ _ hs hends => ⟨.clear, rfl, hends.push_inert hs hslash hbang⟩

theorem count_dollar_cons (c : Char) (t : Text) :
    (c :: t).count '$' = (if c = '$' then 1 else 0) + t.count '$' := by
  rw [List.count_cons, Nat.add_comm]
  simp only [beq_iff_eq]

/-- Characters behind a clear end. -/
theorem Rests.literalChars (h : Rests (· = .clear) n w) {t : Text} (ht : '\\' ∉ t) :
    Rests (· = .clear) (n + t.count '$') (t.foldl Writer.literalChar w) := by
  induction t generalizing n w with
  | nil => exact h
  | cons c t ih =>
    have hc : c ≠ '\\' := fun hc => ht (by simp [hc])
    have hpush : Rests (· = .clear) (n + if c = '$' then 1 else 0) (w.literalChar c) := by
      refine h.literalChar (.inr rfl) ?_
      rintro s t rfl hends
      exact ⟨.clear, rfl, hends.push_clear hc⟩
    rw [count_dollar_cons, ← Nat.add_assoc]
    exact ih hpush fun hmem => ht (by simp [hmem])

/-- Text as it is, behind a clear end. -/
theorem Rests.literal (h : Rests (· = .clear) n w) {t : Text} (ht : '\\' ∉ t) :
    Rests (· = .clear) (n + t.count '$') (w.literal t) := by
  rw [Writer.literal, settle_eq_self h.owed]
  exact h.literalChars ht

/-- **Text as it is**, when it does not start as a separator would go on. -/
theorem Tracks.literal (h : Tracks n w) {c : Char} {t : Text} (ht : '\\' ∉ c :: t) (hbang : c ≠ '!') :
    Rests (· = .clear) (n + (c :: t).count '$') (w.literal (c :: t)) := by
  have hc : c ≠ '\\' := fun hc => ht (by simp [hc])
  have hfirst := h.settle.literalChar_inert hc hbang
  have hrest := hfirst.literalChars (t := t) fun hmem => ht (by simp [hmem])
  rw [count_dollar_cons, ← Nat.add_assoc]
  exact hrest

/-- Text that opens nothing. -/
theorem Tracks.literal_inert (h : Tracks n w) {c : Char} {t : Text} (ht : '\\' ∉ c :: t)
    (hdollar : '$' ∉ c :: t) (hbang : c ≠ '!') : Rests (· = .clear) n (w.literal (c :: t)) := by
  have hliteral := h.literal ht hbang
  rwa [List.count_eq_zero.2 hdollar, Nat.add_zero] at hliteral

theorem Tracks.literal_plain (h : Tracks n w) {c : Char} {t : Text} (ht : '\\' ∉ c :: t)
    (hdollar : '$' ∉ c :: t) (hbang : c ≠ '!') : Tracks n (w.literal (c :: t)) :=
  (h.literal_inert ht hdollar hbang).tracks fun _ hs => .inl hs

/-- The backslash of a hard break, with the line break that it is owed. -/
theorem Tracks.hardBreak (h : Tracks n w) : Tracks n (w.literal ['\\']).oweBreak := by
  have hslash : Rests (· = .escape) n (w.settle.literalChar '\\') := by
    refine h.settle.literalChar (.inl rfl) ?_
    intro s t hs hends
    rcases hs with rfl | rfl <;> exact ⟨.escape, rfl, hends.push (by simp) '\\'⟩
  refine ⟨hslash.margin, ?_⟩
  obtain ⟨s, rfl, hends⟩ := hslash.ends
  exact ⟨.escape, .inr ⟨rfl, Nat.le_max_right ..⟩, hends⟩

/-! ### Prose -/

/-- The character reference of a control character is plain. -/
theorem reference_plain {c : Char} (hc : c.toNat < 32) :
    '\\' ∉ reference c ∧ (reference c).count '$' = 0 := by
  have hall : ∀ k : Fin 32, '\\' ∉ '&' :: '#' :: (toString k.val).toList ++ [';'] ∧
      ('&' :: '#' :: (toString k.val).toList ++ [';']).count '$' = 0 := by decide
  exact hall ⟨c.toNat, hc⟩

/-- What prose does not escape is neither a backslash nor an exclamation mark. -/
theorem ne_of_not_escapesProse {c next : Char} (h : w.escapesProse c next = false) : c ≠ '\\' ∧ c ≠ '!' := by
  constructor <;> rintro rfl <;> simp [escapesProse, isMarkup] at h

/-- Prose escapes no dollar sign. -/
theorem escapesProse_dollar (w : Writer) (next : Char) : w.escapesProse '$' next = false := by
  simp [escapesProse, isMarkup]

/-- **A character of prose** opens a dollar when it is one. -/
theorem Rests.proseChar (h : Rests Trail.Free n w) (c next : Char) :
    Rests Trail.Free (n + if c = '$' then 1 else 0) (w.proseChar c next) := by
  have hstart := h.startLine (.inl rfl)
  unfold Writer.proseChar
  refine Rests.note ?_ c
  cases hescapes : w.startLine.escapesProse c next with
  | false =>
    obtain ⟨hslash, hbang⟩ := ne_of_not_escapesProse hescapes
    refine hstart.append (u := [c]) rfl rfl (by simp [put, Writer.text]) ?_
    intro s t hs hends
    exact ⟨.clear, .inl rfl, hends.push_inert hs hslash hbang⟩
  | true =>
    have hdollar : c ≠ '$' := by
      rintro rfl
      simp [escapesProse_dollar] at hescapes
    rw [if_neg hdollar, Nat.add_zero, if_pos rfl]
    split
    · next hcontrol =>
      obtain ⟨hplain, hcount⟩ := reference_plain hcontrol
      have hliteral := (hstart.tracks fun _ hs => hs).literal hplain (by decide)
      rw [show ('&' :: _).count '$' = 0 from hcount, Nat.add_zero] at hliteral
      exact ⟨hliteral.owed, hliteral.margin, hliteral.ends.imp fun _ hs => ⟨.inl hs.1, hs.2⟩⟩
    · refine hstart.append (u := ['\\', c]) rfl rfl (by simp [put, Writer.text]) ?_
      intro s t hs hends
      exact hends.push_escaped (by rcases hs with rfl | rfl <;> simp) (by rcases hs with rfl | rfl <;> simp) c

theorem Rests.proseChars (h : Rests Trail.Free n w) (t : Text) :
    Rests Trail.Free (n + t.count '$') (Writer.proseChars t w) := by
  fun_induction Writer.proseChars t w generalizing n with
  | case1 => exact h
  | case2 c w => simpa [List.count_cons] using h.proseChar c '\x00'
  | case3 c d t w ih =>
    rw [count_dollar_cons, ← Nat.add_assoc]
    exact ih (h.proseChar c d)

/-- **Prose** opens as many dollars as it holds. -/
theorem Tracks.prose (h : Tracks n w) (t : Text) : Tracks (n + t.count '$') (w.prose t) :=
  (h.settle.proseChars t).tracks fun _ hs => hs

/-! ### Addresses -/

/-- The end does not escape what comes next, and no separator has begun behind a backslash. -/
def Trail.Inside (s : Trail) : Prop := s ≠ .escape ∧ s ≠ .broken

/-- A character that is neither a backslash nor a blank. -/
theorem Trail.Inside.next {s : Trail} (hs : s.Inside) {c : Char} (hslash : c ≠ '\\') (hblank : c ≠ ' ') :
    (s.next c).Inside := by
  constructor
  · intro hnext
    exact hslash (Trail.eq_backslash_of_next hnext)
  · intro hnext
    cases s with
    | broken => exact hs.2 rfl
    | escape | clear | angle | bang | dash | dashes =>
      simp only [Trail.next, if_neg hslash, if_neg hblank] at hnext
      repeat' split at hnext
      all_goals exact absurd hnext (by simp)

/-- A character that does not go on as a separator. -/
theorem Trail.Inside.next_clear {s : Trail} (hs : s.Inside) {c : Char}
    (hc : c ∉ ['\\', '!', '-', ' ']) : s.next c = .clear := by
  simp only [List.mem_cons, List.not_mem_nil, or_false, not_or] at hc
  cases s with
  | escape => exact absurd rfl hs.1
  | broken => exact absurd rfl hs.2
  | clear | angle | bang | dash | dashes => simp [Trail.next, hc]

/-- **A character of an address** opens nothing. -/
theorem Rests.addressChar (h : Rests Trail.Inside n w) (hline : w.atLineStart = false) {c : Char}
    (hslash : c ≠ '\\') (hdollar : c ≠ '$') : Rests Trail.Inside n (w.addressChar c) := by
  have hstart : w.startLine = w := by simp [Writer.startLine, hline]
  unfold Writer.addressChar
  simp only [hstart]
  refine Rests.note ?_ c
  split
  · split
    · -- A percent sign stands between the end and the blank, if there is one.
      refine h.append (u := percent c) rfl rfl (by simp [put, Writer.text]) ?_
      intro s t hs hends
      have hpercent : ∃ d e, percent c = ['%', d, e] ∧ d ∈ [' ', '2'] ∧ e ∈ ['9', 'A', 'D', '0'] := by
        unfold percent
        repeat' split
        all_goals exact ⟨_, _, rfl, by simp, by simp⟩
      obtain ⟨d, e, heq, hd, he⟩ := hpercent
      have h₁ := hends.push hs.2 '%'
      rw [hs.next_clear (by decide), if_neg (by simp), Nat.add_zero] at h₁
      have h₂ := h₁.push_clear (c := d) (by rintro rfl; simp at hd)
      rw [if_neg (by rintro rfl; simp at hd), Nat.add_zero] at h₂
      have h₃ := h₂.push_clear (c := e) (by rintro rfl; simp at he)
      rw [if_neg (by rintro rfl; simp at he), Nat.add_zero] at h₃
      refine ⟨.clear, by simp [Trail.Inside], ?_⟩
      rw [heq]
      simpa using h₃
    · refine h.append (u := ['\\', c]) rfl rfl (by simp [put, Writer.text]) ?_
      intro s t hs hends
      obtain ⟨s', hs', hends'⟩ := hends.push_escaped hs.2 hs.1 c
      exact ⟨s', by rcases hs' with rfl | rfl <;> simp [Trail.Inside], hends'⟩
  · next hescapes =>
    have hblank : c ≠ ' ' := by
      rintro rfl
      exact hescapes (by decide)
    refine h.append (u := [c]) rfl rfl (by simp [put, Writer.text]) ?_
    intro s t hs hends
    have hpush := hends.push hs.2 c
    rw [if_neg (by simp [hdollar]), Nat.add_zero] at hpush
    exact ⟨_, hs.next hslash hblank, hpush⟩

theorem Rests.addressChars (h : Rests Trail.Inside n w) (hline : w.atLineStart = false) {t : Text}
    (hslash : '\\' ∉ t) (hdollar : '$' ∉ t) :
    Rests Trail.Inside n (t.foldl Writer.addressChar w) ∧
      (t.foldl Writer.addressChar w).atLineStart = false := by
  induction t generalizing w with
  | nil => exact ⟨h, hline⟩
  | cons c t ih =>
    refine ih (h.addressChar hline ?_ ?_) rfl ?_ ?_
    · exact fun hc => hslash (by simp [hc])
    · exact fun hc => hdollar (by simp [hc])
    · exact fun hmem => hslash (by simp [hmem])
    · exact fun hmem => hdollar (by simp [hmem])

/-- The bracket behind an address. -/
theorem Rests.closeAddress (h : Rests Trail.Inside n w) (hline : w.atLineStart = false) :
    Rests (· = .clear) n (w.literal [')']) := by
  rw [Writer.literal, settle_eq_self h.owed]
  refine h.append (u := [')']) ?_ ?_ ?_ ?_
  · simp [Writer.literalChar, Writer.startLine, hline]
  · simp [Writer.literalChar, Writer.startLine, hline]
  · simp [Writer.literalChar, Writer.startLine, hline, Writer.text]
  · intro s t hs hends
    have hpush := hends.push hs.2 ')'
    rw [hs.next_clear (by decide), if_neg (by simp), Nat.add_zero] at hpush
    exact ⟨.clear, rfl, hpush⟩

/-- **The target of a link** opens nothing: an address between brackets. -/
theorem Tracks.target (h : Tracks n w) {url : Text} (hslash : '\\' ∉ url) (hdollar : '$' ∉ url) :
    Tracks n (((w.literal [']', '(']).address url).literal [')']) := by
  have hopen : Rests (· = .clear) n (w.literal [']', '(']) :=
    h.literal_inert (by decide) (by decide) (by decide)
  have hline : (w.literal [']', '(']).atLineStart = false := by
    simp [Writer.literal, Writer.literalChar]
  have hinside : Rests Trail.Inside n (w.literal [']', '(']) :=
    ⟨hopen.owed, hopen.margin, hopen.ends.imp fun s hs => ⟨by rw [hs.1]; simp [Trail.Inside], hs.2⟩⟩
  obtain ⟨haddress, hline'⟩ := hinside.addressChars hline hslash hdollar
  have hclose := haddress.closeAddress hline'
  rw [Writer.address, settle_eq_self hopen.owed]
  exact hclose.tracks fun _ hs => .inl hs

end CribSheet.Markdown
