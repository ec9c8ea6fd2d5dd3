/-
The steps of a sanitizing pass that only look at lines and blanks.

Trimming, taking sentinel lines away, dropping noise lines and decoding escaped line breaks are all
steps through which a title can be followed.  A title stands on one line and holds a backslash, so it is
no blank and no part of a sentinel, and with its line it goes only when something on that line makes the
line noise.

Main results:

* `CribSheet.Payload.gentle_trim`, `CribSheet.Payload.gentle_stripSentinel`,
  `CribSheet.Payload.gentle_dropNoiseLines`, `CribSheet.Payload.gentle_decodeBreaks` — the steps.
-/
import CribSheet.Proofs.Markup.Pieces
import CribSheet.Proofs.Payload.Mark
import CribSheet.Proofs.Payload.Pass

set_option relaxedAutoImplicit false
set_option autoImplicit false

namespace CribSheet.Payload

open CribSheet.Text CribSheet.Markup CribSheet.Identity

/-! ### Trimming -/

/-- Trimming takes blanks only. -/
theorem sheds_trim (t : Text) : Sheds (heads false t) t (heads false t.trim) t.trim :=
  Sheds.of_lasting (Nat.le_of_eq (heads_trim t)) fun _ hq => hq.visible.countP_trim t

theorem escapedAfter_trimStart {t : Text} (h : escapedAfter false t = false) :
    escapedAfter false t.trimStart = false := by
  obtain ⟨x, hx, ht⟩ := exists_trimStart t
  rw [ht, escapedAfter_append, escapedAfter_blank hx] at h
  exact h

/-- Trimming a text with a title in it trims what stands around the title. -/
theorem Mark.trim_text (m : Mark) :
    m.text.trim = (Mark.mk m.before.trimStart m.argument m.after.trimEnd).text := by
  have hslash : isBlank '\\' = false := by decide
  have hbrace : isBlank '}' = false := by decide
  have hstart : m.text = m.before ++ '\\' :: (titleName ++ '{' :: m.argument ++ '}' :: m.after) := by
    simp [Mark.text, plainTitle]
  have hend : m.before.trimStart ++ '\\' :: (titleName ++ '{' :: m.argument ++ '}' :: m.after) =
      (m.before.trimStart ++ '\\' :: (titleName ++ '{' :: m.argument)) ++ '}' :: m.after := by simp
  rw [hstart, trim, trimStart_append_cons hslash, hend, trimEnd, dropEndWhile_append_cons hbrace]
  simp [Mark.text, plainTitle, trimEnd]

/-- **A title can be followed through trimming**; it is never lost there. -/
theorem tracked_trim (m : Mark) (hm : m.Fits false) :
    ∃ m' : Mark, m'.text = m.text.trim ∧ m'.Fits false ∧
      Sheds (heads false m.text) m.outside (heads false m'.text) m'.outside := by
  have hfits : (Mark.mk m.before.trimStart m.argument m.after.trimEnd).Fits false :=
    ⟨hm.plain, hm.line, escapedAfter_trimStart hm.fresh⟩
  refine ⟨_, m.trim_text.symm, hfits, Sheds.of_lasting ?_ fun q hq => ?_⟩
  · rw [← m.trim_text, heads_trim]
  · obtain ⟨x, hx, hbefore⟩ := exists_trimStart m.before
    have hafter := dropEndWhile_append_takeEndWhile isBlank m.after
    have hy := isBlankText_takeEndWhile (fun _ h => h) (t := m.after)
    simp only [Mark.outside, List.countP_append]
    conv => rhs; rw [hbefore, ← hafter]
    rw [List.countP_append, List.countP_append, hq.visible.countP_blank hx, hq.visible.countP_blank hy, trimEnd]
    omega

theorem gentle_trim : Gentle trim :=
  ⟨sheds_trim, fun m hm => Or.inl (tracked_trim m hm)⟩

/-! ### Sentinels -/

/-- A sentinel line with blanks behind it holds noise and no backslash. -/
theorem of_trimEnd_eq_sentinel {line : Text} (h : line.trimEnd = sentinel) :
    '\\' ∉ line ∧ 0 < line.countP isNoiseMark := by
  have hline := dropEndWhile_append_takeEndWhile isBlank line
  have hblank := isBlankText_takeEndWhile (fun _ h => h) (t := line)
  rw [trimEnd] at h
  rw [h] at hline
  rw [← hline]
  refine ⟨?_, ?_⟩
  · rw [List.mem_append, not_or]
    exact ⟨by decide, slash_not_mem_of_isBlankText hblank⟩
  · rw [List.countP_append]
    exact Nat.add_pos_left (by decide) _

/-- Taking a first line without backslashes away sheds, when the line holds noise. -/
theorem sheds_belowFirstLine {t : Text} (h : (firstLine t).1.trimEnd = sentinel) :
    Sheds (heads false t) t (heads false (belowFirstLine t)) (belowFirstLine t) := by
  obtain ⟨hslash, hnoise⟩ := of_trimEnd_eq_sentinel h
  have ht := firstLine_append t
  have hrest : heads false (belowFirstLine t) = heads false (firstLine t).2 ∧
      (belowFirstLine t).countP isNoiseMark ≤ (firstLine t).2.countP isNoiseMark := by
    rw [belowFirstLine, heads_trim]
    have htrim := (deletes_trim ((firstLine t).2.drop 1)).countP_le (p := isNoiseMark)
    have hdrop := (List.drop_sublist 1 (firstLine t).2).countP_le (p := isNoiseMark)
    refine ⟨?_, Nat.le_trans htrim hdrop⟩
    cases hcons : (firstLine t).2 with
    | nil => rfl
    | cons c rest =>
        rw [newline_of_firstLine hcons, heads_cons_of_ne (by decide) (by decide)]
        rfl
  refine Sheds.of_noise_lt ?_ ?_
  · conv => rhs; rw [← ht, heads_append, heads_plain hslash, escapedAfter_plain hslash]
    omega
  · conv => rhs; rw [← ht, List.countP_append]
    omega

/-- The first line of a text with a title in it holds the title, unless it ends before it. -/
theorem Mark.firstLine_text (m : Mark) (h : '\\' ∉ (firstLine m.text).1) :
    ∃ rest, m.before = (firstLine m.text).1 ++ '\n' :: rest ∧
      (firstLine m.text).2 = '\n' :: (Mark.mk rest m.argument m.after).text := by
  have hbefore := firstLine_append m.before
  cases hcons : (firstLine m.before).2 with
  | nil =>
      -- No line break stands before the title, so the backslash stands on the first line.
      rw [hcons, List.append_nil] at hbefore
      refine absurd ?_ h
      have htake : ∀ c ∈ m.before, decide (c ≠ '\n') = true := by
        rw [← hbefore]
        exact List.all_eq_true.1 List.all_takeWhile
      rw [firstLine, Mark.text, List.append_assoc, List.takeWhile_append_of_pos htake]
      exact List.mem_append_right _ (by simp [plainTitle])
  | cons c rest =>
      rw [hcons, newline_of_firstLine hcons] at hbefore
      have htext : m.text =
          (firstLine m.before).1 ++ '\n' :: (Mark.mk rest m.argument m.after).text := by
        conv => lhs; rw [Mark.text, ← hbefore]
        simp [Mark.text]
      have htake : ∀ c ∈ (firstLine m.before).1, decide (c ≠ '\n') = true :=
        List.all_eq_true.1 List.all_takeWhile
      have hfirst : (firstLine m.text).1 = (firstLine m.before).1 := by
        rw [htext, firstLine, List.takeWhile_append_of_pos htake]
        simp
      have hsecond : (firstLine m.text).2 = '\n' :: (Mark.mk rest m.argument m.after).text := by
        rw [htext, firstLine, List.dropWhile_append_of_pos htake]
        simp
      exact ⟨rest, hfirst ▸ hbefore.symm, hsecond⟩

/-- **A title can be followed when a sentinel line goes**; it is never lost there. -/
theorem tracked_belowFirstLine (m : Mark) (hm : m.Fits false)
    (h : (firstLine m.text).1.trimEnd = sentinel) :
    ∃ m' : Mark, m'.text = belowFirstLine m.text ∧ m'.Fits false ∧
      Sheds (heads false m.text) m.outside (heads false m'.text) m'.outside := by
  obtain ⟨hslash, hnoise⟩ := of_trimEnd_eq_sentinel h
  obtain ⟨rest, hbefore, hsecond⟩ := m.firstLine_text hslash
  have hfresh : escapedAfter false rest = false := by
    have hf := hm.fresh
    rwa [hbefore, escapedAfter_append, escapedAfter_cons_of_ne (by decide)] at hf
  have hfits : (Mark.mk rest m.argument m.after).Fits false := ⟨hm.plain, hm.line, hfresh⟩
  obtain ⟨m', htext, hm', hsheds⟩ := tracked_trim _ hfits
  refine ⟨m', ?_, hm', Sheds.trans (Sheds.of_noise_lt ?_ ?_) hsheds⟩
  · rw [htext, belowFirstLine, hsecond]
    rfl
  · rw [Mark.heads_text hm, Mark.heads_text hfits, hbefore, heads_append,
      heads_cons_of_ne (by decide) (by decide)]
    simp only
    omega
  · simp only [Mark.outside, hbefore, List.countP_append, List.countP_cons]
    omega

theorem gentle_stripSentinel : Gentle stripSentinel := by
  constructor
  · intro t
    fun_induction stripSentinel t with
    | case1 t h _ ih => exact (sheds_belowFirstLine h).trans ih
    | case2 t h => exact Sheds.refl _ _
  · intro m hm
    generalize ht : m.text = t
    fun_induction stripSentinel t generalizing m with
    | case1 t h _ ih =>
        subst ht
        obtain ⟨m', htext, hm', hsheds⟩ := tracked_belowFirstLine m hm h
        exact (ih m' hm' htext).of_sheds hsheds
    | case2 t h => exact Or.inl ⟨m, ht, hm, Sheds.refl _ _⟩

/-! ### Noise lines -/

theorem head?_trimStart_of_isNoiseLine {line : Text} (h : isNoiseLine line = true) :
    ∃ c rest, line.trimStart = c :: rest ∧ isNoiseMark c = true := by
  rw [isNoiseLine] at h
  split at h
  · next rest hline => exact ⟨_, _, hline, by decide⟩
  · next start _ =>
      cases hline : line.trimStart with
      | nil =>
          rw [hline] at h
          exact absurd h (by decide)
      | cons c rest =>
          refine ⟨c, rest, rfl, ?_⟩
          rw [hline] at h
          have hc : '\x60' = c := by
            by_contra hne
            simp [startsWith, fence, after?, hne] at h
          rw [← hc]
          decide

theorem countP_pos_of_isNoiseLine {line : Text} (h : isNoiseLine line = true) :
    0 < line.countP isNoiseMark := by
  obtain ⟨c, rest, hline, hc⟩ := head?_trimStart_of_isNoiseLine h
  obtain ⟨x, -, hx⟩ := exists_trimStart line
  rw [hx, hline, List.countP_append, List.countP_cons, hc, if_pos rfl]
  omega

/-- What makes a line with a backslash noise stands before the backslash. -/
theorem countP_pos_of_isNoiseLine_append {a b : Text} (h : isNoiseLine (a ++ '\\' :: b) = true) :
    0 < a.countP isNoiseMark := by
  obtain ⟨c, rest, hline, hc⟩ := head?_trimStart_of_isNoiseLine h
  rw [trimStart_append_cons (by decide)] at hline
  obtain ⟨x, -, hx⟩ := exists_trimStart a
  cases ha : a.trimStart with
  | nil =>
      rw [ha, List.nil_append] at hline
      obtain rfl := (List.cons.inj hline).1
      exact absurd hc (by decide)
  | cons d rest' =>
      rw [ha, List.cons_append] at hline
      obtain rfl := (List.cons.inj hline).1
      rw [hx, ha, List.countP_append, List.countP_cons, hc, if_pos rfl]
      omega

theorem heads_unlines (ls : List Text) : heads false (unlines ls) = (ls.map (heads false)).sum :=
  heads_joinWith (by decide) (by decide) ls

theorem countP_unlines (ls : List Text) :
    (unlines ls).countP isNoiseMark = (ls.map (List.countP isNoiseMark)).sum :=
  countP_joinWith (by decide) ls

/-- Dropping noise lines sheds. -/
theorem sheds_dropNoiseLines (t : Text) :
    Sheds (heads false t) t (heads false (dropNoiseLines t)) (dropNoiseLines t) := by
  by_cases hnoise : ∃ line ∈ t.lines, isNoiseLine line = true
  · obtain ⟨line, hmem, hline⟩ := hnoise
    refine Sheds.of_noise_lt ?_ ?_
    · conv => rhs; rw [← unlines_lines t, heads_unlines]
      rw [dropNoiseLines, heads_unlines]
      exact sum_map_filter_le _ _ _
    · conv => rhs; rw [← unlines_lines t, countP_unlines]
      rw [dropNoiseLines, countP_unlines]
      exact sum_map_filter_lt ⟨line, hmem, by simp [hline], countP_pos_of_isNoiseLine hline⟩
  · have hall : t.lines.filter (fun line => !isNoiseLine line) = t.lines :=
      List.filter_eq_self.2 fun line hmem => by
        simpa using fun hline => hnoise ⟨line, hmem, hline⟩
    have heq : dropNoiseLines t = t := by
      rw [dropNoiseLines, hall, unlines_lines]
    rw [heq]
    exact Sheds.refl _ _

/-- The lines of a text with a title in it, around the line of the title. -/
theorem Mark.lines_text {m : Mark} (hm : m.Fits false) :
    ∃ before l f after, m.before = leadJoin '\n' before ++ l ∧ m.after = f ++ trailJoin '\n' after ∧
      m.text.lines = before ++ (l ++ plainTitle m.argument ++ f) :: after := by
  obtain ⟨before, l, hbefore, hjoin⟩ := exists_splitOn_eq_concat '\n' m.before
  obtain ⟨f, after, hafter, hjoin'⟩ := exists_splitOn_eq_cons '\n' m.after
  have htitle : splitOn '\n' (plainTitle m.argument) = [] ++ [plainTitle m.argument] := by
    refine splitOn_eq_singleton fun h => ?_
    have hline := hm.line
    simp [plainTitle, titleName, hline] at h
  exact ⟨before, l, f, after, hjoin, hjoin',
    splitOn_append (splitOn_append hbefore htitle) hafter⟩

/-- The lines that are kept of some lines. -/
def keptLines (ls : List Text) : List Text := ls.filter fun line => !isNoiseLine line

theorem keptLines_append (before after : List Text) :
    keptLines (before ++ after) = keptLines before ++ keptLines after := List.filter_append ..

/-- Around a title, dropping noise lines takes noise or nothing. -/
theorem Mark.sheds_keptLines {m : Mark} (hm : m.Fits false) {before after : List Text} {l f : Text}
    (hbefore : m.before = leadJoin '\n' before ++ l)
    (hafter : m.after = f ++ trailJoin '\n' after) :
    ∃ m' : Mark, m'.text = unlines
        (keptLines before ++ (l ++ plainTitle m.argument ++ f) :: keptLines after) ∧
      m'.Fits false ∧ Sheds (heads false m.text) m.outside (heads false m'.text) m'.outside := by
  have hfits : (Mark.mk (leadJoin '\n' (keptLines before) ++ l) m.argument
      (f ++ trailJoin '\n' (keptLines after))).Fits false := by
    refine ⟨hm.plain, hm.line, ?_⟩
    have hfresh := hm.fresh
    rw [hbefore, escapedAfter_append, escapedAfter_leadJoin (by decide)] at hfresh
    rw [escapedAfter_append, escapedAfter_leadJoin (by decide), hfresh]
  refine ⟨_, ?_, hfits, ?_⟩
  · rw [unlines, joinWith_append_cons]
    simp [Mark.text]
  by_cases hall : ∃ line ∈ before ++ after, isNoiseLine line = true
  · obtain ⟨line, hmem, hline⟩ := hall
    have hlt := sum_map_filter_lt (f := List.countP isNoiseMark) (p := fun line => !isNoiseLine line)
      ⟨line, hmem, by simp [hline], countP_pos_of_isNoiseLine hline⟩
    have hle := sum_map_filter_le (heads false) (fun line => !isNoiseLine line) before
    have hle' := sum_map_filter_le (heads false) (fun line => !isNoiseLine line) after
    refine Sheds.of_noise_lt ?_ ?_
    · rw [Mark.heads_text hfits, Mark.heads_text hm, hbefore, hafter,
        heads_leadJoin_append (by decide) (by decide), heads_append_trailJoin (by decide) (by decide),
        heads_leadJoin_append (by decide) (by decide), heads_append_trailJoin (by decide) (by decide)]
      simp only [keptLines]
      omega
    · rw [Mark.outside, Mark.outside, hbefore, hafter, countP_around (by decide),
        countP_around (by decide), ← keptLines_append]
      simp only [keptLines]
      omega
  · have hkept : ∀ line ∈ before ++ after, (!isNoiseLine line) = true := fun line hmem => by
      simpa using fun hline => hall ⟨line, hmem, hline⟩
    have hsame : keptLines before = before :=
      List.filter_eq_self.2 fun line hmem => hkept line (List.mem_append_left _ hmem)
    have hsame' : keptLines after = after :=
      List.filter_eq_self.2 fun line hmem => hkept line (List.mem_append_right _ hmem)
    rw [hsame, hsame', ← hbefore, ← hafter]
    exact Sheds.refl _ _

/-- **A title can be followed through dropping noise lines**: it is lost with its line, when something
in front of it makes the line noise. -/
theorem tracked_dropNoiseLines (m : Mark) (hm : m.Fits false) :
    Tracked false m (dropNoiseLines m.text) := by
  obtain ⟨before, l, f, after, hbefore, hafter, hlines⟩ := m.lines_text hm
  have hdrop : dropNoiseLines m.text =
      unlines (keptLines before ++ keptLines ((l ++ plainTitle m.argument ++ f) :: after)) := by
    rw [← keptLines_append, ← hlines]
    rfl
  rw [hdrop]
  cases hline : isNoiseLine (l ++ plainTitle m.argument ++ f) with
  | false =>
      have hcons : keptLines ((l ++ plainTitle m.argument ++ f) :: after) =
          (l ++ plainTitle m.argument ++ f) :: keptLines after := by
        rw [keptLines, List.filter_cons, hline]
        rfl
      obtain ⟨m', htext, hm', hsheds⟩ := m.sheds_keptLines hm hbefore hafter
      rw [hcons, ← htext]
      exact Or.inl ⟨m', rfl, hm', hsheds⟩
  | true =>
      have hcons : keptLines ((l ++ plainTitle m.argument ++ f) :: after) = keptLines after := by
        rw [keptLines, List.filter_cons, hline]
        rfl
      have hpos : 0 < l.countP isNoiseMark := by
        have hsplit : l ++ plainTitle m.argument ++ f =
            l ++ '\\' :: (titleName ++ '{' :: m.argument ++ '}' :: f) := by simp [plainTitle]
        rw [hsplit] at hline
        exact countP_pos_of_isNoiseLine_append hline
      have hheads := sum_map_filter_le (heads false) (fun line => !isNoiseLine line) (before ++ after)
      have hnoise := sum_map_filter_le (List.countP isNoiseMark) (fun line => !isNoiseLine line)
        (before ++ after)
      rw [hcons, ← keptLines_append]
      refine Or.inr (Or.inr ⟨?_, ?_⟩)
      · rw [Mark.heads_text hm, hbefore, hafter, heads_unlines,
          heads_leadJoin_append (by decide) (by decide),
          heads_append_trailJoin (by decide) (by decide)]
        simp only [keptLines, List.map_append, List.sum_append] at hheads ⊢
        omega
      · rw [Mark.outside, hbefore, hafter, countP_unlines, countP_around (by decide)]
        simp only [keptLines] at hnoise ⊢
        omega

theorem gentle_dropNoiseLines : Gentle dropNoiseLines :=
  ⟨sheds_dropNoiseLines, tracked_dropNoiseLines⟩

/-! ### Escaped line breaks -/

/-- An escaped line break is decoded to a character that ends an escape like the one before it. -/
theorem heads_decodeBreaks (escaped : Bool) (t : Text) :
    heads escaped (decodeBreaks t) = heads escaped t ∧
      escapedAfter escaped (decodeBreaks t) = escapedAfter escaped t := by
  fun_induction decodeBreaks t generalizing escaped with
  | case1 => exact ⟨rfl, rfl⟩
  | case2 t ih =>
      cases escaped <;> simp [heads_cons, escapes, isHead, ih]
  | case3 t ih =>
      cases escaped <;> simp [heads_cons, escapes, isHead, ih]
  | case4 c t _ _ ih =>
      rw [heads_cons, heads_cons, escapedAfter_cons, escapedAfter_cons, (ih _).1, (ih _).2]
      exact ⟨rfl, rfl⟩

theorem Lasting.countP_decodeBreaks {q : Char → Bool} (hq : Lasting q) (t : Text) :
    (decodeBreaks t).countP q = t.countP q := by
  have hnot : ∀ c ∈ ['\\', 'n', 'r', '\n'], q c = false := by
    intro c hc
    cases hqc : q c with
    | false => rfl
    | true =>
        have h := hq c hqc
        simp only [List.mem_cons, List.not_mem_nil, or_false] at hc
        rcases hc with rfl | rfl | rfl | rfl <;> revert h <;> decide
  fun_induction decodeBreaks t with
  | case1 => rfl
  | case2 t ih => simp [hnot, ih]
  | case3 t ih => simp [hnot, ih]
  | case4 c t _ _ ih => rw [List.countP_cons, List.countP_cons, ih]

theorem decodeBreaks_cons {c : Char} {t : Text}
    (h : c = '\\' → t.head? ≠ some 'n' ∧ ¬ ['r', '\\', 'n'] <+: t) :
    decodeBreaks (c :: t) = c :: decodeBreaks t := by
  rw [decodeBreaks.eq_def]
  split
  · next heq => simp at heq
  · next u heq =>
      obtain ⟨rfl, rfl⟩ := List.cons.inj heq
      exact absurd ⟨u, rfl⟩ (h rfl).2
  · next u _ heq =>
      obtain ⟨rfl, rfl⟩ := List.cons.inj heq
      exact absurd rfl (h rfl).1
  · next d u _ _ heq =>
      obtain ⟨rfl, rfl⟩ := List.cons.inj heq
      rfl

theorem decodeBreaks_append_title (a b : Text) :
    decodeBreaks (a ++ '\\' :: 't' :: b) = decodeBreaks a ++ decodeBreaks ('\\' :: 't' :: b) := by
  fun_induction decodeBreaks a with
  | case1 => rfl
  | case2 t ih => simp [decodeBreaks, ih]
  | case3 t ih => simp [decodeBreaks, ih]
  | case4 c t h h' ih =>
      rw [List.cons_append, List.cons_append, ← ih]
      refine decodeBreaks_cons fun hc => ⟨fun hhead => ?_, ?_⟩
      · cases t with
        | nil => simp at hhead
        | cons d t =>
          obtain rfl : d = 'n' := by simpa using hhead
          exact h' t hc rfl
      · rintro ⟨u, hu⟩
        match t with
        | [] => simp at hu
        | [d] => simp at hu
        | [d, e] => simp at hu
        | d :: e :: f :: t =>
          obtain ⟨rfl, rfl, rfl, -⟩ : 'r' = d ∧ '\\' = e ∧ 'n' = f ∧ _ := by simpa using hu
          exact h t hc rfl

theorem decodeBreaks_plain_append {x : Text} (hx : '\\' ∉ x) (t : Text) :
    decodeBreaks (x ++ t) = x ++ decodeBreaks t := by
  induction x with
  | nil => rfl
  | cons c x ih =>
      obtain ⟨hc, hx⟩ := not_or.1 fun h => hx (List.mem_cons.2 h)
      rw [List.cons_append, decodeBreaks_cons fun h => absurd h (Ne.symm hc), ih hx, List.cons_append]
/-- A title holds no escaped line break, and none runs across its start. -/
theorem Mark.decodeBreaks_text {m : Mark} (hm : m.Fits false) :
    decodeBreaks m.text = (Mark.mk (decodeBreaks m.before) m.argument (decodeBreaks m.after)).text := by
  have hplain : '\\' ∉ titleName ++ '{' :: m.argument ++ ['}'] := by
    simp [titleName, hm.plain.slash_not_mem]
  have hcons : ∀ t, decodeBreaks ('\\' :: 't' :: t) = '\\' :: decodeBreaks ('t' :: t) := fun t =>
    decodeBreaks_cons fun _ => ⟨by simp, by simp⟩
  have htext : m.text = m.before ++ '\\' :: 't' ::
      (['i', 't', 'l', 'e'] ++ '{' :: m.argument ++ '}' :: m.after) := by
    simp [Mark.text, plainTitle, titleName]
  have htail : 't' :: (['i', 't', 'l', 'e'] ++ '{' :: m.argument ++ '}' :: m.after) =
      (titleName ++ '{' :: m.argument ++ ['}']) ++ m.after := by simp [titleName]
  rw [htext, decodeBreaks_append_title, hcons, htail, decodeBreaks_plain_append hplain]
  simp [Mark.text, plainTitle]

theorem gentle_decodeBreaks : Gentle decodeBreaks := by
  constructor
  · intro t
    exact Sheds.of_lasting (Nat.le_of_eq (heads_decodeBreaks false t).1) fun q hq =>
      hq.countP_decodeBreaks t
  · intro m hm
    have hfits : (Mark.mk (decodeBreaks m.before) m.argument (decodeBreaks m.after)).Fits false :=
      ⟨hm.plain, hm.line, (heads_decodeBreaks false m.before).2.trans hm.fresh⟩
    refine Or.inl ⟨_, (m.decodeBreaks_text hm).symm, hfits, Sheds.of_lasting ?_ fun q hq => ?_⟩
    · rw [← m.decodeBreaks_text hm]
      exact Nat.le_of_eq (heads_decodeBreaks false m.text).1
    · simp only [Mark.outside, List.countP_append, hq.countP_decodeBreaks]

/-- A step that is only made under a condition. -/
theorem Gentle.ite {f : Text → Text} (hf : Gentle f) (p : Text → Bool) :
    Gentle fun t => if p t then f t else t := by
  constructor
  · intro t
    split
    · exact hf.sheds t
    · exact Sheds.refl _ _
  · intro m hm
    split
    · exact hf.tracked m hm
    · exact Or.inl ⟨m, rfl, hm, Sheds.refl _ _⟩

end CribSheet.Payload
