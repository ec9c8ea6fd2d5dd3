/-
Payloads in a wrapper.

A service may send a sanitized text with noise lines between and around its lines, with the sentinel among
those in front, with one of three ways of ending a line, and with byte-order marks anywhere.  The first
pass takes all of it away: no step before the one that drops the noise lines finds anything to edit,
because lacing shows no command and no import that the text does not show.

Main definitions:

* `CribSheet.Payload.WrapperLine`, `CribSheet.Payload.SentinelLine` — lines that the wrapper adds;
* `CribSheet.Payload.Interlined`, `CribSheet.Payload.Wrapped` — the lines of a text in a wrapper;
* `CribSheet.Payload.writeBreaks`, `CribSheet.Payload.Marked` — other line breaks, and byte-order marks.

Main results:

* `CribSheet.Payload.Wrapped.removeDirectives` — no directive is found in a wrapper;
* `CribSheet.Payload.sanitize_eq_of_wrapped` — **sanitizing gives the sanitized text back**.
-/
import CribSheet.Proofs.Payload.Laced

set_option relaxedAutoImplicit false
set_option autoImplicit false

namespace CribSheet.Payload

open CribSheet.Text CribSheet.Markup

/-! ### Wrappers -/

/-- **A line that the wrapper adds**: a fence or an editor comment, and in the whole line no character
that ends a line, no backslash, no brace or bracket, and no comma. -/
structure WrapperLine (line : Text) : Prop where
  /-- The line is noise. -/
  noise : NoiseLine line
  /-- It holds none of these characters. -/
  plain : ∀ c ∈ line, c ∉ ['\n', '\r', '\\', '{', '}', '[', ']', ',']

/-- The sentinel with blanks behind it, on one line. -/
def SentinelLine (line : Text) : Prop :=
  ∃ blanks, isBlankText blanks = true ∧ (∀ c ∈ blanks, c ∉ ['\n', '\r']) ∧ line = sentinel ++ blanks

/-- **The second list is the first one with wrapper lines between and around its lines.** -/
inductive Interlined : List Text → List Text → Prop
  | nil : Interlined [] []
  | line {ls ns : List Text} (l : Text) : Interlined ls ns → Interlined (l :: ls) (l :: ns)
  | noise {ls ns : List Text} {n : Text} : WrapperLine n → Interlined ls ns → Interlined ls (n :: ns)

/-- **The lines are those of the text in a wrapper**: with wrapper lines, and possibly with the sentinel
ahead of the first line. -/
def Wrapped (t : Text) (ns : List Text) : Prop :=
  Interlined t.lines ns ∨ ∃ line, SentinelLine line ∧ Interlined (line :: t.lines) ns

/-- The text with every line break written as `b`. -/
def writeBreaks (b t : Text) : Text := t.flatMap fun c => if c = '\n' then b else [c]

/-- The second text is the first one with byte-order marks put in. -/
inductive Marked : Text → Text → Prop
  | nil : Marked [] []
  | char {t u : Text} (c : Char) : Marked t u → Marked (c :: t) (c :: u)
  | mark {t u : Text} : Marked t u → Marked t ('\ufeff' :: u)

/-! ### Marks and line breaks -/

theorem Marked.refl (t : Text) : Marked t t := by
  induction t with
  | nil => exact .nil
  | cons c t ih => exact ih.char c

theorem Marked.dropByteOrderMarks_eq {t u : Text} (h : Marked t u) :
    dropByteOrderMarks u = dropByteOrderMarks t := by
  induction h with
  | nil => rfl
  | char c _ ih =>
      rw [dropByteOrderMarks, dropByteOrderMarks] at ih ⊢
      rw [List.filter_cons, List.filter_cons, ih]
  | mark _ ih => simpa [dropByteOrderMarks] using ih

theorem writeBreaks_break (b t : Text) : writeBreaks b ('\n' :: t) = b ++ writeBreaks b t := rfl

theorem writeBreaks_cons {c : Char} (hc : c ≠ '\n') (b t : Text) :
    writeBreaks b (c :: t) = c :: writeBreaks b t := by
  rw [writeBreaks, List.flatMap_cons, if_neg hc]
  rfl

theorem dropByteOrderMarks_writeBreaks {b : Text} (hb : '\ufeff' ∉ b) (t : Text) :
    dropByteOrderMarks (writeBreaks b t) = writeBreaks b (dropByteOrderMarks t) := by
  have hsame := (dropByteOrderMarks_eq_self_iff b).2 hb
  rw [dropByteOrderMarks] at hsame ⊢
  induction t with
  | nil => rfl
  | cons c t ih =>
      by_cases hc : c = '\n'
      · subst hc
        rw [writeBreaks_break, List.filter_append, hsame, ih]
        rfl
      · rw [writeBreaks_cons hc, List.filter_cons, dropByteOrderMarks, List.filter_cons]
        split
        · rw [writeBreaks_cons hc, ih]
          rfl
        · exact ih

theorem dropByteOrderMarks_unlines (ls : List Text) :
    dropByteOrderMarks (unlines ls) = unlines (ls.map dropByteOrderMarks) := by
  induction ls with
  | nil => rfl
  | cons l ls ih =>
      cases ls with
      | nil => rfl
      | cons l' ls =>
          rw [unlines, dropByteOrderMarks] at ih ⊢
          rw [joinWith_cons _ _ (List.cons_ne_nil l' ls), List.filter_append, List.filter_append, ih]
          rfl

theorem unifyBreaks_cons {c : Char} (hc : c ≠ '\r') (t : Text) : unifyBreaks (c :: t) = c :: unifyBreaks t := by
  rw [unifyBreaks.eq_4]
  · exact fun _ h => absurd h hc
  · exact hc

/-- **Other line breaks are undone.** -/
theorem unifyBreaks_writeBreaks {b : Text} (hb : b ∈ [['\n'], ['\r', '\n'], ['\r']]) {t : Text}
    (ht : '\r' ∉ t) : unifyBreaks (writeBreaks b t) = t := by
  induction t with
  | nil => rfl
  | cons c t ih =>
      obtain ⟨hc, hrest⟩ := not_or.1 (mt List.mem_cons.2 ht)
      have ih := ih hrest
      by_cases hbreak : c = '\n'
      · subst hbreak
        rw [writeBreaks_break]
        simp only [List.mem_cons, List.not_mem_nil, or_false] at hb
        rcases hb with rfl | rfl | rfl
        · rw [List.singleton_append, unifyBreaks_cons (by decide), ih]
        · rw [List.cons_append, List.singleton_append, unifyBreaks, ih]
        · -- no line feed is left that could belong to the carriage return
          have hfeed : '\n' ∉ writeBreaks ['\r'] t := by
            rw [writeBreaks, List.mem_flatMap]
            rintro ⟨d, -, hd⟩
            split at hd
            · simp at hd
            · next hne => exact hne (List.mem_singleton.1 hd).symm
          rw [List.singleton_append, unifyBreaks.eq_3, ih]
          intro u hu
          exact hfeed (hu ▸ List.mem_cons_self)
      · rw [writeBreaks_cons hbreak, unifyBreaks_cons (Ne.symm hc), ih]

/-! ### Lines of a wrapper -/

theorem trimStart_blank_append {x : Text} (hx : isBlankText x = true) {c : Char} (hc : isBlank c = false)
    (t : Text) : trimStart (x ++ c :: t) = c :: t := by
  rw [trimStart, List.dropWhile_append_of_pos (List.all_eq_true.1 hx), List.dropWhile_cons, hc]
  rfl

theorem mark_not_mem_of_isBlankText {x : Text} (hx : isBlankText x = true) : '\ufeff' ∉ x :=
  fun hm => absurd (List.all_eq_true.1 hx _ hm) (by decide)

/-- A noise line is noise without its byte-order marks. -/
theorem NoiseLine.dropByteOrderMarks {line : Text} (h : NoiseLine line) :
    NoiseLine (dropByteOrderMarks line) := by
  obtain ⟨x, hx, hline⟩ := exists_trimStart line
  have hlead := (dropByteOrderMarks_eq_self_iff x).2 (mark_not_mem_of_isBlankText hx)
  rw [Payload.dropByteOrderMarks] at hlead
  rw [hline, Payload.dropByteOrderMarks, List.filter_append, hlead]
  rcases h with ⟨rest, hrest⟩ | ⟨blanks, rest, hblanks, hrest⟩
  · refine Or.inl ⟨rest.filter (· ≠ '\ufeff'), ?_⟩
    rw [hrest]
    exact trimStart_blank_append hx (by decide) _
  · have hkept := (dropByteOrderMarks_eq_self_iff blanks).2 (mark_not_mem_of_isBlankText hblanks)
    rw [Payload.dropByteOrderMarks] at hkept
    refine Or.inr ⟨blanks, rest.filter (· ≠ '\ufeff'), hblanks, ?_⟩
    have hfilter : ('%' :: blanks ++ editorMark ++ rest).filter (· ≠ '\ufeff') =
        '%' :: blanks ++ editorMark ++ rest.filter (· ≠ '\ufeff') := by
      rw [List.filter_append, List.filter_append, List.cons_append, List.filter_cons, hkept]
      rfl
    rw [hrest, hfilter]
    exact trimStart_blank_append hx (by decide) _

namespace WrapperLine

variable {line : Text}

theorem isNoiseLine (h : WrapperLine line) : isNoiseLine line = true := (isNoiseLine_iff line).2 h.noise

theorem dropByteOrderMarks (h : WrapperLine line) : WrapperLine (dropByteOrderMarks line) :=
  ⟨h.noise.dropByteOrderMarks, fun c hc => h.plain c (List.mem_of_mem_filter hc)⟩

/-- A wrapper line can be laced into a text. -/
theorem lacing (h : WrapperLine line) : Lacing line := by
  have hmarked := countP_pos_of_isNoiseLine h.isNoiseLine
  refine ⟨fun c hc hm => h.plain c hc (List.mem_append_right ['\n', '\r'] hm), hmarked, ?_⟩
  cases hdrop : line.dropWhile isGap with
  | nil =>
      have hgap := List.dropWhile_eq_nil_iff.1 hdrop
      obtain ⟨c, hc, hmark⟩ := List.countP_pos_iff.1 hmarked
      have hblank := isBlank_of_isGap (hgap c hc)
      rw [(lasting_isNoiseMark c hmark).1] at hblank
      simp at hblank
  | cons c rest =>
      have hc : c ∈ line := (List.dropWhile_suffix isGap).subset (hdrop ▸ List.mem_cons_self)
      exact ⟨c, rest, rfl, fun hbreak => h.plain c hc (by simp [hbreak])⟩

end WrapperLine

namespace Interlined

variable {ls ns : List Text}

theorem sublist (h : Interlined ls ns) : ls.Sublist ns := by
  induction h with
  | nil => exact List.Sublist.refl _
  | line l _ ih => exact ih.cons_cons l
  | noise _ _ ih => exact ih.cons _

/-- The lines come back when the noise lines go. -/
theorem filter_eq (h : Interlined ls ns) (hls : ∀ l ∈ ls, isNoiseLine l = false) :
    (ns.filter fun n => !isNoiseLine n) = ls := by
  induction h with
  | nil => rfl
  | line l _ ih =>
      obtain ⟨hl, hls⟩ := List.forall_mem_cons.1 hls
      rw [List.filter_cons_of_pos (by simp [hl]), ih hls]
  | noise hn _ ih => rw [List.filter_cons_of_neg (by simp [hn.isNoiseLine]), ih hls]

theorem dropByteOrderMarks (h : Interlined ls ns) (hls : ∀ l ∈ ls, '\ufeff' ∉ l) :
    Interlined ls (ns.map dropByteOrderMarks) := by
  induction h with
  | nil => exact .nil
  | line l _ ih =>
      obtain ⟨hl, hls⟩ := List.forall_mem_cons.1 hls
      rw [List.map_cons, (dropByteOrderMarks_eq_self_iff l).2 hl]
      exact .line l (ih hls)
  | noise hn _ ih => exact .noise hn.dropByteOrderMarks (ih hls)

theorem mem_or_wrapperLine (h : Interlined ls ns) {n : Text} (hn : n ∈ ns) : n ∈ ls ∨ WrapperLine n := by
  induction h with
  | nil => exact Or.inl hn
  | line l _ ih =>
      rcases List.mem_cons.1 hn with rfl | hn
      · exact Or.inl List.mem_cons_self
      · exact (ih hn).imp_left (List.mem_cons_of_mem l)
  | noise hwrapper _ ih =>
      rcases List.mem_cons.1 hn with rfl | hn
      · exact Or.inr hwrapper
      · exact ih hn

/-- In front of the first line stand wrapper lines. -/
theorem exists_front {l : Text} (h : Interlined (l :: ls) ns) :
    ∃ front rest, ns = front ++ l :: rest ∧ (∀ n ∈ front, WrapperLine n) ∧ Interlined ls rest := by
  generalize hall : l :: ls = all at h
  induction h with
  | nil => simp at hall
  | @line _ rest l' h ih =>
      obtain ⟨rfl, rfl⟩ := List.cons.inj hall
      exact ⟨[], rest, rfl, by simp, h⟩
  | @noise _ _ n hn h ih =>
      obtain ⟨front, rest, rfl, hfront, hrest⟩ := ih hall
      exact ⟨n :: front, rest, rfl, List.forall_mem_cons.2 ⟨hn, hfront⟩, hrest⟩

/-- **Behind a line, the wrapper lines are lacing.** -/
theorem laced (h : Interlined ls ns) : Laced (trailJoin '\n' ls) (trailJoin '\n' ns) := by
  induction h with
  | nil => exact .nil
  | line l _ ih => exact (ih.append_left l).char '\n'
  | @noise ls ns n hn _ ih =>
      refine ih.lace hn.lacing fun c hc => ?_
      cases ls with
      | nil => simp at hc
      | cons l ls => exact (Option.some.inj hc).symm

end Interlined

/-! ### The sentinel -/

theorem SentinelLine.trimEnd {line : Text} (h : SentinelLine line) : line.trimEnd = sentinel := by
  obtain ⟨blanks, hblanks, -, rfl⟩ := h
  rw [trimEnd_append_blank hblanks]
  decide

theorem SentinelLine.not_mem {line : Text} (h : SentinelLine line) :
    '\n' ∉ line ∧ '\r' ∉ line ∧ '\ufeff' ∉ line ∧ '\\' ∉ line := by
  obtain ⟨blanks, hblanks, hbreaks, rfl⟩ := h
  simp only [List.mem_append, not_or]
  refine ⟨⟨by decide, fun hm => hbreaks _ hm (by simp)⟩, ⟨by decide, fun hm => hbreaks _ hm (by simp)⟩,
    ⟨by decide, mark_not_mem_of_isBlankText hblanks⟩, ⟨by decide, slash_not_mem_of_isBlankText hblanks⟩⟩

theorem SentinelLine.isNoiseLine {line : Text} (h : SentinelLine line) : isNoiseLine line = false := by
  obtain ⟨blanks, -, -, rfl⟩ := h
  rfl

/-! ### Sanitizing -/

namespace Wrapped

variable {t : Text} {ns : List Text}

theorem exists_lead (h : Wrapped t ns) :
    ∃ lead, (lead = [] ∨ ∃ line, SentinelLine line ∧ lead = [line]) ∧ Interlined (lead ++ t.lines) ns := by
  rcases h with h | ⟨line, hline, h⟩
  · exact ⟨[], Or.inl rfl, h⟩
  · exact ⟨[line], Or.inr ⟨line, hline, rfl⟩, h⟩

theorem dropByteOrderMarks (h : Wrapped t ns) (ht : Sanitized t) : Wrapped t (ns.map dropByteOrderMarks) := by
  have hlines : ∀ l ∈ t.lines, '\ufeff' ∉ l := fun l hl hm =>
    ht.noMark ((isInfix_of_mem_splitOn hl).subset hm)
  rcases h with h | ⟨line, hline, h⟩
  · exact Or.inl (h.dropByteOrderMarks hlines)
  · exact Or.inr ⟨line, hline, h.dropByteOrderMarks (List.forall_mem_cons.2 ⟨hline.not_mem.2.2.1, hlines⟩)⟩

/-- The lines are lines. -/
theorem not_mem (h : Wrapped t ns) (ht : Sanitized t) {n : Text} (hn : n ∈ ns) : '\n' ∉ n ∧ '\r' ∉ n := by
  obtain ⟨lead, hlead, h⟩ := h.exists_lead
  rcases h.mem_or_wrapperLine hn with hmem | hwrapper
  · rcases List.mem_append.1 hmem with hmem | hmem
    · rcases hlead with rfl | ⟨line, hline, rfl⟩
      · simp at hmem
      · obtain rfl := List.mem_singleton.1 hmem
        exact ⟨hline.not_mem.1, hline.not_mem.2.1⟩
    · exact ⟨not_mem_of_mem_splitOn hmem, fun hm => ht.noReturn ((isInfix_of_mem_splitOn hmem).subset hm)⟩
  · exact ⟨fun hm => hwrapper.plain _ hm (by simp), fun hm => hwrapper.plain _ hm (by simp)⟩

theorem ne_nil (h : Wrapped t ns) : ns ≠ [] := by
  obtain ⟨lead, -, h⟩ := h.exists_lead
  rintro rfl
  have hnil := List.append_eq_nil_iff.1 (List.sublist_nil.1 h.sublist)
  exact splitOn_ne_nil '\n' t hnil.2

theorem lines_unlines (h : Wrapped t ns) (ht : Sanitized t) : (unlines ns).lines = ns :=
  Text.lines_unlines h.ne_nil fun _ hn => (h.not_mem ht hn).1

theorem return_not_mem (h : Wrapped t ns) (ht : Sanitized t) : '\r' ∉ unlines ns := by
  obtain ⟨n, rest, rfl⟩ := List.exists_cons_of_ne_nil h.ne_nil
  have hlines := fun m hm => (h.not_mem ht (n := m) hm).2
  rw [unlines, joinWith_cons_eq, List.mem_append, not_or]
  refine ⟨hlines n List.mem_cons_self, fun hm => ?_⟩
  rcases mem_of_mem_trailJoin hm with hbreak | ⟨m, hmem, hm⟩
  · simp at hbreak
  · exact hlines m (List.mem_cons_of_mem n hmem) hm

/-- The line breaks of a wrapper are real ones: a wrapper of one line is the text itself. -/
theorem normalizeBreaks (h : Wrapped t ns) (ht : Sanitized t) : normalizeBreaks (unlines ns) = unlines ns := by
  rw [normalizeBreaks_of_not_mem (h.return_not_mem ht), if_neg]
  rintro ⟨hbreak, hescaped⟩
  obtain ⟨lead, -, hlines⟩ := h.exists_lead
  have hone : ns = [unlines ns] := (h.lines_unlines ht).symm.trans (splitOn_eq_singleton hbreak)
  have hsub := hlines.sublist
  rw [hone, List.sublist_singleton, List.append_eq_singleton_iff] at hsub
  have ht' : t.lines = [unlines ns] := by
    rcases hsub with hnil | ⟨-, ht'⟩ | ⟨-, hnil⟩
    · exact absurd (List.append_eq_nil_iff.1 hnil).2 (splitOn_ne_nil '\n' t)
    · exact ht'
    · exact absurd hnil (splitOn_ne_nil '\n' t)
  have hsame : t = unlines ns := by
    rw [← unlines_lines t, ht']
    rfl
  have hclean := ht.noEscapedBreak
  rw [← hasEscapedBreak_eq_false_iff, hsame] at hclean
  rcases hclean with hmem | hclean
  · exact hbreak hmem
  · rw [hescaped] at hclean
    simp at hclean

/-- In front of the first line of the text stands no backslash, and behind it the rest is laced. -/
theorem exists_laced (h : Wrapped t ns) : ∃ x u, unlines ns = x ++ u ∧ '\\' ∉ x ∧ Laced t u := by
  obtain ⟨l, ls, hl⟩ := List.exists_cons_of_ne_nil (splitOn_ne_nil '\n' t)
  have ht : t = l ++ trailJoin '\n' ls := by
    rw [← joinWith_cons_eq, ← hl, joinWith_splitOn]
  have hfront : ∃ front rest, ns = front ++ l :: rest ∧ (∀ n ∈ front, '\\' ∉ n) ∧ Interlined ls rest := by
    have hslash : ∀ {n}, WrapperLine n → '\\' ∉ n := fun hn hm => hn.plain _ hm (by simp)
    rw [Wrapped, lines, hl] at h
    rcases h with h | ⟨line, hline, h⟩
    · obtain ⟨front, rest, hns, hfront, hrest⟩ := h.exists_front
      exact ⟨front, rest, hns, fun n hn => hslash (hfront n hn), hrest⟩
    · obtain ⟨front, rest, rfl, hfront, hrest⟩ := h.exists_front
      obtain ⟨middle, rest, rfl, hmiddle, hrest⟩ := hrest.exists_front
      refine ⟨front ++ line :: middle, rest, by simp, fun n hn => ?_, hrest⟩
      rcases List.mem_append.1 hn with hn | hn
      · exact hslash (hfront n hn)
      · rcases List.mem_cons.1 hn with rfl | hn
        · exact hline.not_mem.2.2.2
        · exact hslash (hmiddle n hn)
  obtain ⟨front, rest, rfl, hfront, hrest⟩ := hfront
  refine ⟨leadJoin '\n' front, l ++ trailJoin '\n' rest, ?_, ?_, ?_⟩
  · rw [unlines, joinWith_append_cons, List.append_assoc]
  · rw [leadJoin, List.mem_flatMap]
    rintro ⟨n, hn, hm⟩
    rcases List.mem_append.1 hm with hm | hm
    · exact hfront n hn hm
    · simp at hm
  · rw [ht]
    exact hrest.laced.append_left l

/-- **No directive is found in a wrapper** that is not found in the text. -/
theorem removeDirectives (h : Wrapped t ns) (ht : Sanitized t) :
    removeDirectives Directive.forbidden (unlines ns) = unlines ns := by
  obtain ⟨x, u, hunlines, hx, hlaced⟩ := h.exists_laced
  -- what stands in the wrapper stands in the text, with the same arguments but for the lacing
  have hstands : ∀ s : Sighting, '\n' ∉ s.name → s.IsIn false (unlines ns) →
      ∃ s' : Sighting, s'.name = s.name ∧ s'.IsIn false t ∧ Laced s'.after s.after := by
    intro s hname hs
    rw [hunlines] at hs
    obtain ⟨s₁, rfl, hs₁⟩ := hs.exists_within_plain hx
    rw [escapedAfter_plain hx] at hs₁
    obtain ⟨s', hname', hin, hafter⟩ := hlaced.exists_isIn (s := s₁) hname hs₁
    exact ⟨s', hname', hin, by simpa using hafter⟩
  refine (removeDirectives_forbidden_eq_self_iff _).2 ⟨fun name hname => ?_, fun s hname hs => ?_⟩
  · refine Sighting.find?_eq_none_iff.2 fun s hs hin => ?_
    obtain rfl := List.mem_singleton.1 hs
    have hbreak : '\n' ∉ s.name := by
      simp only [List.mem_cons, List.not_mem_nil, or_false] at hname
      rcases hname with h | h <;> rw [h] <;> decide
    obtain ⟨s', hsame, hin', -⟩ := hstands s hbreak hin
    exact Sighting.find?_eq_none_iff.1 (ht.noHeadingCommand _ hname) s' (by simp [hsame]) hin'
  · have hbreak : '\n' ∉ s.name := by
      simp only [List.mem_cons, List.not_mem_nil, or_false] at hname
      rcases hname with h | h <;> rw [h] <;> decide
    obtain ⟨s', hsame, hin', hafter⟩ := hstands s hbreak hs
    exact fun hfinds => ht.not_findsPackage (hsame ▸ hname) hin'
      (hafter.findsPackage droppable_titlesec hfinds)

theorem dropNoiseLines (h : Wrapped t ns) (ht : Sanitized t) :
    ∃ lead, (lead = [] ∨ ∃ line, SentinelLine line ∧ lead = [line]) ∧
      dropNoiseLines (unlines ns) = unlines (lead ++ t.lines) := by
  obtain ⟨lead, hlead, hlines⟩ := h.exists_lead
  refine ⟨lead, hlead, ?_⟩
  rw [Payload.dropNoiseLines, h.lines_unlines ht, hlines.filter_eq]
  intro l hl
  rcases List.mem_append.1 hl with hl | hl
  · rcases hlead with rfl | ⟨line, hline, rfl⟩
    · simp at hl
    · obtain rfl := List.mem_singleton.1 hl
      exact hline.isNoiseLine
  · rw [← Bool.not_eq_true, isNoiseLine_iff]
    exact ht.noNoiseLine l hl

end Wrapped

theorem firstLine_append_break {line : Text} (hline : '\n' ∉ line) (t : Text) :
    firstLine (line ++ '\n' :: t) = (line, '\n' :: t) := by
  have hkept : ∀ c ∈ line, decide (c ≠ '\n') = true := by
    intro c hc
    exact decide_eq_true fun h => hline (h ▸ hc)
  rw [firstLine, List.takeWhile_append_of_pos hkept, List.dropWhile_append_of_pos hkept]
  simp

/-- The sentinel line in front of a sanitized text goes. -/
theorem stripSentinel_sentinelLine {line t : Text} (hline : SentinelLine line) (ht : Sanitized t) (hne : t ≠ []) :
    stripSentinel (trim (line ++ '\n' :: t)) = t := by
  have hkept : trim (line ++ '\n' :: t) = line ++ '\n' :: t := by
    refine (trim_eq_self_iff _).2 ⟨?_, ?_⟩
    · obtain ⟨blanks, -, -, rfl⟩ := hline
      intro c hc
      obtain rfl := Option.some.inj hc
      rfl
    · obtain ⟨c, s, rfl⟩ := List.exists_cons_of_ne_nil hne
      rw [List.getLast?_append_of_ne_nil _ (List.cons_ne_nil _ _), List.getLast?_cons_cons]
      exact ((trim_eq_self_iff _).1 ht.trimmed).2
  have hfirst := firstLine_append_break hline.not_mem.1 t
  have hbelow : belowFirstLine (line ++ '\n' :: t) = t := by
    rw [belowFirstLine, hfirst]
    exact ht.trimmed
  have hstrip : stripSentinel (line ++ '\n' :: t) = stripSentinel (belowFirstLine (line ++ '\n' :: t)) := by
    rw [stripSentinel, dif_pos (by rw [hfirst]; exact hline.trimEnd)]
  rw [hkept, hstrip, hbelow]
  exact (stripSentinel_eq_self_iff t).2 ht.noSentinel

/-- One pass takes the wrapper away. -/
theorem pass_eq_of_wrapped {t : Text} (ht : Sanitized t) (hne : t ≠ []) {ns : List Text} (hns : Wrapped t ns)
    {b : Text} (hb : b ∈ [['\n'], ['\r', '\n'], ['\r']]) {raw : Text}
    (hraw : Marked (writeBreaks b (unlines ns)) raw) : pass Directive.forbidden raw = t := by
  have hmark : '\ufeff' ∉ b := by
    simp only [List.mem_cons, List.not_mem_nil, or_false] at hb
    rcases hb with rfl | rfl | rfl <;> decide
  -- the marks also go from the wrapper lines, which may hold some
  have hns := hns.dropByteOrderMarks ht
  have hmarks : dropByteOrderMarks raw = writeBreaks b (unlines (ns.map dropByteOrderMarks)) := by
    rw [hraw.dropByteOrderMarks_eq, dropByteOrderMarks_writeBreaks hmark, dropByteOrderMarks_unlines]
  have hbreaks : normalizeBreaks (dropByteOrderMarks raw) = unlines (ns.map dropByteOrderMarks) := by
    have hreturn := hns.return_not_mem ht
    conv => rhs; rw [← hns.normalizeBreaks ht]
    rw [hmarks, normalizeBreaks, normalizeBreaks, unifyBreaks_writeBreaks hb hreturn,
      unifyBreaks_eq_self hreturn]
  obtain ⟨lead, hlead, hdrop⟩ := hns.dropNoiseLines ht
  have hpass : pass Directive.forbidden raw = stripSentinel (trim (unlines (lead ++ t.lines))) := by
    rw [pass, hbreaks, hns.removeDirectives ht, hdrop]
  rw [hpass]
  rcases hlead with rfl | ⟨line, hline, rfl⟩
  · rw [List.nil_append, unlines_lines, ht.trimmed]
    exact (stripSentinel_eq_self_iff t).2 ht.noSentinel
  · have hunlines : unlines ([line] ++ t.lines) = line ++ '\n' :: t := by
      rw [unlines, lines, List.singleton_append, joinWith_cons _ _ (splitOn_ne_nil '\n' t),
        joinWith_splitOn]
      simp
    rw [hunlines]
    exact stripSentinel_sentinelLine hline ht hne

/-- **Sanitizing is insensitive to a wrapper.**  A text that sanitizing leaves alone comes back from its
lines in a wrapper, written with any of the three line breaks and with byte-order marks anywhere. -/
theorem sanitize_eq_of_wrapped {t : Text} (hne : t ≠ []) (hfix : sanitize t = t) {ns : List Text}
    (hns : Wrapped t ns) {b : Text} (hb : b ∈ [['\n'], ['\r', '\n'], ['\r']]) {raw : Text}
    (hraw : Marked (writeBreaks b (unlines ns)) raw) : sanitize raw = t := by
  have hpass := (sanitizeWith_eq_self_iff Directive.forbidden t).1 hfix
  have hsanitized := (pass_eq_self_iff_sanitized t).1 hpass
  calc sanitize raw
      = settle (pass Directive.forbidden) (pass Directive.forbidden raw) := rfl
    _ = settle (pass Directive.forbidden) (pass Directive.forbidden t) := by
        rw [pass_eq_of_wrapped hsanitized hne hns hb hraw, hpass]
    _ = t := hfix

/-- A fence, the sentinel, and an editor comment inside the options of an import. -/
theorem sanitize_eq_of_wrapped_import :
    sanitize ('\ufeff' :: writeBreaks ['\r', '\n'] (unlines
        ["\x60\x60\x60latex".toList, "COOR-BO-ZY ".toList, "\\usepackage[a".toList,
          "  % !TEX root".toList, "b]\x7btitle\x7d".toList, "Hi.".toList])) =
      "\\usepackage[a\nb]\x7btitle\x7d\nHi.".toList := by
  have hwrapper : ∀ line ∈ ["\x60\x60\x60latex".toList, "  % !TEX root".toList], WrapperLine line := by
    intro line hline
    have hplain : ∀ line ∈ ["\x60\x60\x60latex".toList, "  % !TEX root".toList],
        isNoiseLine line = true ∧ ∀ c ∈ line, c ∉ ['\n', '\r', '\\', '{', '}', '[', ']', ','] := by
      decide +kernel
    exact ⟨(isNoiseLine_iff line).1 (hplain line hline).1, (hplain line hline).2⟩
  have hlines : lines "\\usepackage[a\nb]\x7btitle\x7d\nHi.".toList =
      ["\\usepackage[a".toList, "b]\x7btitle\x7d".toList, "Hi.".toList] := by decide +kernel
  have hsentinel : SentinelLine "COOR-BO-ZY ".toList := ⟨[' '], rfl, by decide, by decide +kernel⟩
  refine sanitize_eq_of_wrapped (by decide) (by decide +kernel) (Or.inr ⟨_, hsentinel, ?_⟩)
    (by decide) (.mark (.refl _))
  rw [hlines]
  exact .noise (hwrapper _ (by simp)) (.line _ (.line _ (.noise (hwrapper _ (by simp))
    (.line _ (.line _ .nil)))))

end CribSheet.Payload
