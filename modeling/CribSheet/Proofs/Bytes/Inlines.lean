/-
Running text, byte by byte.

The inlines of a text are read in one loop over its positions.  What was not read as an inline so far is kept as a
segment that is still to be cut out; a look at a position says where the loop goes on, and whether the segment ends.

Main definitions:

* `CribSheet.Checked.InlineLook`, `CribSheet.Checked.InlineLook.read` — one look at a position;
* `CribSheet.Checked.parseInlines` — the inlines of a text.

Main results:

* `CribSheet.Checked.InlineLook.agrees_read` — **a look at a character sees the token that starts there**;
* `CribSheet.Checked.parseInlines_eq` — **the inlines are read without a fault**.
-/
import CribSheet.Proofs.Bytes.Delimiter
import CribSheet.Proofs.Bytes.Group
import CribSheet.Proofs.Display.ShownTexts

set_option relaxedAutoImplicit false
set_option autoImplicit false

namespace CribSheet.Checked

open Text Markup

/-! ### Skips -/

/-- The position behind the letters that follow. -/
def nameEnd (t : Text) (i : Nat) : Run Nat := do
  let ahead ← cutFrom t i
  .ok ((position? (fun c => !isLetter c) ahead).elim t.size (i + ·))

/-- The position behind the gaps that follow. -/
def skipSpaces (t : Text) (i : Nat) : Run Nat := do
  let ahead ← cutFrom t i
  let skipped ← minus ahead.size (size (ahead.dropWhile isGap))
  .ok (i + skipped)

/-- The position behind a star, if one follows. -/
def skipStar (t : Text) (i : Nat) : Run Nat := do
  let ahead ← cutFrom t i
  .ok (if startsWith ['*'] ahead then i + 1 else i)

/-- The position behind what belongs to a line break. -/
def lineBreakEnd (t : Text) (i : Nat) : Run Nat := do
  let i ← skipStar t i
  let ahead ← cutFrom t i
  if startsWith ['['] ahead then
    let stop ← groupEnd? t i
    .ok (stop.getD i)
  else .ok i

/-- The position behind an empty group, if one follows. -/
def emptyGroupEnd (t : Text) (i : Nat) : Run Nat := do
  let ahead ← cutFrom t i
  .ok (if startsWith ['{', '}'] ahead then i + 2 else i)

section Skips

variable {t behind ahead : Text} {i : Nat}

theorem Stands.nameEnd (h : Stands t behind ahead i) :
    Checked.nameEnd t i = .ok (i + size (ahead.takeWhile isLetter)) := by
  rw [Checked.nameEnd, h.cutFrom, ok_bind, h.position?]
  simp only [Bool.not_not]

/-- **A control word**: its name is cut out, from behind its backslash. -/
theorem Stands.controlWord (h : Stands t behind ('\\' :: ahead) i) :
    Checked.nameEnd t (i + 1) = .ok (i + size ('\\' :: ahead.takeWhile isLetter)) ∧
      Checked.cut t (i + 1) (i + size ('\\' :: ahead.takeWhile isLetter)) = .ok (ahead.takeWhile isLetter) ∧
      Stands t (behind ++ '\\' :: ahead.takeWhile isLetter) (ahead.dropWhile isLetter)
        (i + size ('\\' :: ahead.takeWhile isLetter)) := by
  have hone : Char.utf8Size '\\' = 1 := rfl
  have hstop : i + size ('\\' :: ahead.takeWhile isLetter) = i + 1 + size (ahead.takeWhile isLetter) := by
    rw [size_cons, hone, Nat.add_assoc]
  have hahead : ahead.takeWhile isLetter ++ ahead.dropWhile isLetter = ahead := List.takeWhile_append_dropWhile
  have hname := h.succ (by decide)
  refine ⟨by rw [hname.nameEnd, hstop], ?_, Stands.advance ?_⟩
  · rw [← hahead] at hname
    rw [hstop]
    exact hname.cut
  · rwa [List.cons_append, hahead]

theorem Stands.skipSpaces (h : Stands t behind ahead i) :
    Checked.skipSpaces t i = .ok (i + size (ahead.takeWhile isGap)) := by
  have hsize : ahead.size = size (ahead.takeWhile isGap) + size (ahead.dropWhile isGap) := by
    rw [← size_append, List.takeWhile_append_dropWhile]
  rw [Checked.skipSpaces, h.cutFrom, ok_bind, hsize, minus_add, ok_bind]

theorem Stands.skipStar (h : Stands t behind ahead i) :
    Checked.skipStar t i = .ok (i + size (star ahead).1) := by
  rw [Checked.skipStar, h.cutFrom, ok_bind]
  cases ahead with
  | nil => rfl
  | cons c ahead =>
      by_cases hc : c = '*'
      · subst hc
        rfl
      · have hstar : star (c :: ahead) = ([], c :: ahead) := by
          rw [star]
          intro rest heq
          exact hc (List.cons.inj heq).1
        rw [hstar, if_neg]
        · rfl
        · rw [startsWith_iff, List.cons_prefix_cons]
          exact fun heq => hc heq.1.symm

theorem dropStar_eq (t : Text) : dropStar t = (star t).2 := by
  cases t with
  | nil => rfl
  | cons c t =>
      by_cases hc : c = '*'
      · subst hc
        rfl
      · have hne : ∀ rest, c :: t ≠ '*' :: rest := fun rest heq => hc (List.cons.inj heq).1
        rw [dropStar.eq_2 _ hne, star.eq_2 _ hne]

theorem Stands.emptyGroupEnd (h : Stands t behind ahead i) :
    ∃ u, ahead = u ++ dropEmptyGroup ahead ∧ Checked.emptyGroupEnd t i = .ok (i + size u) := by
  rw [Checked.emptyGroupEnd, h.cutFrom, ok_bind]
  unfold dropEmptyGroup
  split
  · next rest => exact ⟨['{', '}'], rfl, rfl⟩
  · next hnone =>
      refine ⟨[], rfl, ?_⟩
      rw [if_neg]
      · rfl
      · rw [startsWith_iff]
        rintro ⟨rest, rfl⟩
        exact hnone rest rfl

theorem Stands.lineBreakEnd (h : Stands t behind ahead i) :
    ∃ u, ahead = u ++ dropBreakArguments ahead ∧ Checked.lineBreakEnd t i = .ok (i + size u) := by
  have hstar : Stands t (behind ++ (star ahead).1) (star ahead).2 (i + size (star ahead).1) :=
    Stands.advance (by rwa [star_append])
  rw [Checked.lineBreakEnd, h.skipStar, ok_bind, hstar.cutFrom, ok_bind]
  rw [dropBreakArguments, dropStar_eq, readBracket?_eq]
  cases hbracket : startsWith ['['] (star ahead).2 with
  | false => exact ⟨(star ahead).1, (star_append ahead).symm, rfl⟩
  | true =>
      rw [if_pos rfl, if_pos rfl, hstar.groupEnd?, ok_bind]
      cases hread : Group.read? (star ahead).2 with
      | none => exact ⟨(star ahead).1, (star_append ahead).symm, rfl⟩
      | some g =>
          refine ⟨(star ahead).1 ++ g.source, ?_, ?_⟩
          · rw [List.append_assoc, ← Group.text, Group.text_read? hread, star_append]
          · rw [size_append, ← Nat.add_assoc]
            rfl

end Skips

/-! ### Looks -/

/-- What one look at a position comes to. -/
inductive InlineLook
  /-- Nothing to be read as an inline, up to a position. -/
  | skip (next : Nat)
  /-- An inline, which ends at a position. -/
  | inline (i : Inline) (next : Nat)
  /-- Something that is replaced, up to a position. -/
  | text (replacement : Text) (next : Nat)

namespace InlineLook

/-- A control word, from the position of its backslash. -/
def ofWord (parse : Text → Run (List Inline)) (t : Text) (i : Nat) : Run InlineLook := do
  let stop ← nameEnd t (i + 1)
  let name ← cut t (i + 1) stop
  match style? name with
  | some style =>
    match ← readArgument? t stop with
    | some (content, next) => do
      let children ← parse content
      .ok (.inline (style.inline children) next)
    | none => .ok (.skip stop)
  | none =>
    if name = urlName then
      match ← readArgument? t stop with
      | some (url, next) => .ok (.inline (.link url.trim) next)
      | none => .ok (.skip stop)
    else
      match replacement? name with
      | some replacement => do
        let next ← emptyGroupEnd t stop
        .ok (.text replacement next)
      | none =>
        if droppedWithArguments.contains name then
          let next ← skipStar t stop
          let next ← skipGroups t next
          .ok (.text [] next)
        else if droppedAlone.contains name then
          let next ← skipSpaces t stop
          .ok (.text [] next)
        else .ok (.skip stop)

/-- A backslash at a position, and what follows it. -/
def ofCommand (parse : Text → Run (List Inline)) (t : Text) (i : Nat) : Run InlineLook :=
  match byte? t (i + 1) with
  | none => .ok (.skip (i + 1))
  | some b =>
    if isLetterByte b then ofWord parse t i
    else if b = code '\\' then do
      let next ← lineBreakEnd t (i + 2)
      .ok (.inline .lineBreak next)
    else if b = code '(' then do
      match ← findUnescaped? t ['\\', ')'] (i + 2) with
      | some close =>
        let inner ← cut t (i + 2) close
        .ok (.inline (.math inner) (close + 2))
      | none => .ok (.skip (i + 2))
    else if b = code '%' then .ok (.text ['%'] (i + 2))
    else if b = code '&' then .ok (.text ['&'] (i + 2))
    else .ok (.skip (i + 2))

/-- A dollar at a position, and what follows it. -/
def ofDollar (t : Text) (i : Nat) : Run InlineLook := do
  let ahead ← cutFrom t i
  if startsWith ['$', '$'] ahead then .ok (.skip (i + 2))
  else
    match ← findUnescaped? t ['$'] (i + 1) with
    | some close =>
      let inner ← cut t (i + 1) close
      .ok (.inline (.math inner) (close + 1))
    | none => .ok (.skip (i + 1))

/-- **One look at a position.** -/
def read (parse : Text → Run (List Inline)) (t : Text) (i : Nat) : Run InlineLook := do
  let b ← byte t i
  if b = code '\\' then ofCommand parse t i
  else if b = code '$' then ofDollar t i
  else if b = code '~' then .ok (.text [' '] (i + 1))
  else .ok (.skip (i + 1))

/-- The look sees the token, which was read from so much text. -/
def Sees (i : Nat) (source : Text) (token : InlineToken) : InlineLook → Prop
  | .skip next => token = .text source ∧ Lands i source next
  | .inline shown next =>
    token.toInline CribSheet.parseInlines = shown ∧ (∀ u, shown ≠ .text u) ∧ source ≠ [] ∧ next = i + source.size
  | .text replacement next => token = .text replacement ∧ source ≠ [] ∧ next = i + source.size

/-- **The look at a position is one at the token that starts there.** -/
def Agrees (i : Nat) (ahead : Text) (read : InlineToken × Text) (look : Run InlineLook) : Prop :=
  ∃ seen source, look = .ok seen ∧ ahead = source ++ read.2 ∧ seen.Sees i source read.1

section Looks

variable {parse : Text → Run (List Inline)} {t behind ahead rest : Text} {i next : Nat}

theorem agrees_skip (source : Text) (hahead : ahead = source ++ rest) (hnext : Lands i source next) :
    Agrees i ahead (.text source, rest) (.ok (.skip next)) :=
  ⟨_, source, rfl, hahead, rfl, hnext⟩

theorem agrees_text (source : Text) {replacement : Text} (hahead : ahead = source ++ rest) (hne : source ≠ [])
    (hnext : next = i + source.size) : Agrees i ahead (.text replacement, rest) (.ok (.text replacement next)) :=
  ⟨_, source, rfl, hahead, rfl, hne, hnext⟩

theorem agrees_inline (source : Text) {token : InlineToken} {shown : Inline} (hahead : ahead = source ++ rest)
    (hshown : token.toInline CribSheet.parseInlines = shown) (hnot : ∀ u, shown ≠ .text u) (hne : source ≠ [])
    (hnext : next = i + source.size) : Agrees i ahead (token, rest) (.ok (.inline shown next)) :=
  ⟨_, source, rfl, hahead, hshown, hnot, hne, hnext⟩

/-- A formula, between its delimiters. -/
theorem agrees_math (opening closing : Text) {inner : Text} (hne : opening ≠ [])
    (hfind : Markup.findUnescaped? closing ahead = some (inner, rest)) :
    Agrees i (opening ++ ahead) (.inline (.math inner), rest)
      (.ok (.inline (.math inner) (i + opening.size + inner.size + closing.size))) := by
  refine agrees_inline (opening ++ (inner ++ closing)) ?_ rfl (by simp) (by simp [hne]) ?_
  · rw [Markup.findUnescaped?_eq_append ahead hfind]
    simp
  · simp only [size_append, Nat.add_assoc]

/-- Something that is replaced, behind a control word and what belongs to it. -/
theorem agrees_replaced {name x rest' replacement : Text} (hrest : rest = x ++ rest')
    (hnext : next = i + size ('\\' :: name) + x.size) :
    Agrees i ('\\' :: (name ++ rest)) (.text replacement, rest') (.ok (.text replacement next)) := by
  refine agrees_text ('\\' :: name ++ x) ?_ (by simp) (by rw [hnext, size_append, Nat.add_assoc])
  rw [List.append_assoc, ← hrest, List.cons_append]

/-- An inline of a control word and its argument. -/
theorem agrees_argument {name : Text} {a : Argument} {token : InlineToken} {shown : Inline}
    (ha : Argument.read? rest = some a) (hshown : token.toInline CribSheet.parseInlines = shown)
    (hnot : ∀ u, shown ≠ .text u) :
    Agrees i ('\\' :: (name ++ rest)) (token, a.after)
      (.ok (.inline shown (i + size ('\\' :: name) + a.source.size))) := by
  refine agrees_inline ('\\' :: name ++ a.source) ?_ hshown hnot (by simp) ?_
  · rw [← Argument.text_read? ha, Argument.text]
    simp
  · rw [size_append _ a.source, Nat.add_assoc]

theorem agrees_ofWord (h : Stands t behind ('\\' :: ahead) i)
    (hparse : ∀ u : Text, u.length < t.length → parse u = .ok (CribSheet.parseInlines u)) :
    Agrees i ('\\' :: ahead)
      (InlineToken.ofWord (ahead.takeWhile isLetter) (ahead.dropWhile isLetter)) (ofWord parse t i) := by
  obtain ⟨hnameEnd, hcut, hrest⟩ := h.controlWord
  have hahead : ahead = ahead.takeWhile isLetter ++ ahead.dropWhile isLetter := List.takeWhile_append_dropWhile.symm
  generalize ahead.takeWhile isLetter = name at hnameEnd hcut hrest hahead ⊢
  generalize ahead.dropWhile isLetter = rest at hrest hahead ⊢
  subst hahead
  -- What is read within the text is shorter.
  have hlength : rest.length < t.length := by
    rw [h.text_eq]
    simp only [List.length_append, List.length_cons]
    omega
  have hskip : Agrees i ('\\' :: (name ++ rest)) (.text ('\\' :: name), rest) (.ok (.skip (i + size ('\\' :: name)))) :=
    agrees_skip _ rfl (lands_end (List.cons_ne_nil _ _))
  rw [ofWord, hnameEnd, ok_bind, hcut, ok_bind, InlineToken.ofWord]
  cases hstyle : style? name with
  | some style =>
      simp only
      rw [hrest.readArgument?, ok_bind]
      cases ha : Argument.read? rest with
      | none => exact hskip
      | some a =>
          have hinner := Argument.length_inner_add_after_read? ha
          simp only [Option.map_some]
          rw [hparse a.inner (by omega), ok_bind]
          exact agrees_argument ha rfl (by cases style <;> simp [Style.inline])
  | none =>
      simp only
      split
      · rw [hrest.readArgument?, ok_bind]
        cases ha : Argument.read? rest with
        | none => exact hskip
        | some a => exact agrees_argument ha rfl (by simp)
      · cases hreplacement : replacement? name with
        | some replacement =>
            obtain ⟨u, hu, hend⟩ := hrest.emptyGroupEnd
            simp only
            rw [hend, ok_bind]
            exact agrees_replaced hu rfl
        | none =>
            simp only [List.contains_iff_mem]
            split
            · have hstar : Stands t (behind ++ '\\' :: name ++ (star rest).1) (star rest).2
                  (i + size ('\\' :: name) + size (star rest).1) := Stands.advance (by rwa [star_append])
              rw [hrest.skipStar, ok_bind, hstar.skipGroups, ok_bind, dropStar_eq]
              refine agrees_replaced (x := (star rest).1 ++ (groups (star rest).2).1) ?_ ?_
              · rw [List.append_assoc, groups_append, star_append]
              · rw [size_append, ← Nat.add_assoc]
            · split
              · rw [hrest.skipSpaces, ok_bind]
                exact agrees_replaced List.takeWhile_append_dropWhile.symm rfl
              · exact hskip

theorem agrees_ofCommand (h : Stands t behind ('\\' :: ahead) i)
    (hparse : ∀ u : Text, u.length < t.length → parse u = .ok (CribSheet.parseInlines u)) :
    Agrees i ('\\' :: ahead) (InlineToken.read '\\' ahead) (ofCommand parse t i) := by
  have hslash : IsAscii '\\' := by decide
  have hnext := h.succ hslash
  rw [ofCommand, InlineToken.read.eq_def, if_pos rfl]
  cases ahead with
  | nil =>
      rw [hnext.byte?_nil]
      exact agrees_skip _ rfl (lands_end (List.cons_ne_nil _ _))
  | cons d ahead =>
      rw [hnext.byte?_cons]
      simp only [isLetterByte_lead, lead_eq_code_iff (show IsAscii '\\' by decide),
        lead_eq_code_iff (show IsAscii '(' by decide), lead_eq_code_iff (show IsAscii '%' by decide),
        lead_eq_code_iff (show IsAscii '&' by decide)]
      split
      · exact agrees_ofWord h hparse
      · split
        · next hd =>
            subst hd
            obtain ⟨u, hu, hend⟩ := (hnext.succ hslash).lineBreakEnd
            rw [hend, ok_bind]
            refine agrees_inline ('\\' :: '\\' :: u) ?_ rfl (by simp) (by simp) ?_
            · rw [List.cons_append, List.cons_append, ← hu]
            · have hone : Char.utf8Size '\\' = 1 := rfl
              simp only [size_cons, hone]
              omega
        · split
          · next hd =>
              subst hd
              have hbody := hnext.succ (show IsAscii '(' by decide)
              cases hfind : Markup.findUnescaped? ['\\', ')'] ahead with
              | none =>
                  rw [hbody.findUnescaped? (by decide), hfind, Option.map_none, ok_bind]
                  exact agrees_skip _ rfl (lands_pair i _ _ hslash)
              | some found =>
                  obtain ⟨inner, rest⟩ := found
                  obtain ⟨hclose, hcut⟩ := hbody.formula (by decide) hfind
                  rw [hclose, ok_bind]
                  simp only
                  rw [hcut, ok_bind]
                  exact agrees_math ['\\', '('] ['\\', ')'] (by simp) hfind
          · split
            · next hd =>
                rcases hd with rfl | rfl
                · exact agrees_text (['\\', '%']) rfl (by simp) rfl
                · exact agrees_text (['\\', '&']) rfl (by simp) rfl
            · next hd =>
                obtain ⟨hpercent, hand⟩ := not_or.1 hd
                rw [if_neg hpercent, if_neg hand]
                exact agrees_skip _ rfl (lands_pair i _ _ hslash)

theorem agrees_ofDollar (h : Stands t behind ('$' :: ahead) i) :
    Agrees i ('$' :: ahead) (InlineToken.read '$' ahead) (ofDollar t i) := by
  have hdollar : IsAscii '$' := by decide
  have hnext := h.succ hdollar
  rw [ofDollar, h.cutFrom, ok_bind, InlineToken.read.eq_def, if_neg (by decide), if_pos rfl]
  split
  · next rest =>
      exact agrees_skip (['$', '$']) rfl (lands_pair i _ _ hdollar)
  · next hne =>
      have hnot : ¬ startsWith ['$', '$'] ('$' :: ahead) = true := by
        rw [startsWith_iff, List.prefix_cons_inj]
        rintro ⟨rest, hrest⟩
        exact hne rest hrest.symm
      rw [if_neg hnot]
      cases hfind : Markup.findUnescaped? ['$'] ahead with
      | none =>
          rw [hnext.findUnescaped? (by decide), hfind, Option.map_none, ok_bind]
          exact agrees_skip _ rfl (lands_end (List.cons_ne_nil _ _))
      | some found =>
          obtain ⟨inner, rest⟩ := found
          obtain ⟨hclose, hcut⟩ := hnext.formula (by decide) hfind
          rw [hclose, ok_bind]
          simp only
          rw [hcut, ok_bind]
          exact agrees_math ['$'] ['$'] (by simp) hfind

/-- **A look at a character sees the token that starts there.** -/
theorem agrees_read {c : Char} (h : Stands t behind (c :: ahead) i)
    (hparse : ∀ u : Text, u.length < t.length → parse u = .ok (CribSheet.parseInlines u)) :
    Agrees i (c :: ahead) (InlineToken.read c ahead) (read parse t i) := by
  rw [read, h.byte_cons, ok_bind]
  simp only [lead_eq_code_iff (show IsAscii '\\' by decide), lead_eq_code_iff (show IsAscii '$' by decide),
    lead_eq_code_iff (show IsAscii '~' by decide)]
  split
  · next hc =>
      subst hc
      exact agrees_ofCommand h hparse
  · split
    · next hc =>
        subst hc
        exact agrees_ofDollar h
    · next hslash hdollar =>
        rw [InlineToken.read.eq_def, if_neg hslash, if_neg hdollar]
        split
        · next hc =>
            subst hc
            exact agrees_text (['~']) rfl (by simp) rfl
        · have hpos := Char.utf8Size_pos c
          refine agrees_skip _ rfl ⟨[], c, rfl, Nat.lt_succ_self i, ?_⟩
          rw [size_cons]
          omega

end Looks

end InlineLook

/-! ### The loop -/

/-- What was read of some running text. -/
structure Sentence where
  /-- The inlines. -/
  inlines : List Inline := []
  /-- Characters behind them. -/
  buffer : Text := []
  /-- Where the segment starts that is still to be cut out. -/
  segment : Nat := 0

/-- The inlines with characters behind them. -/
def push (inlines : List Inline) (buffer : Text) : List Inline :=
  if buffer = [] then inlines else inlines ++ [.text buffer]

/-- Goes on from a look at a position. -/
def Sentence.goOn (s : Sentence) (t : Text) (i : Nat) : InlineLook → Run (Round Sentence (List Inline))
  | .skip next => .ok (.next s next)
  | .inline shown next => do
    let front ← cut t s.segment i
    .ok (.next ⟨push s.inlines (s.buffer ++ front) ++ [shown], [], next⟩ next)
  | .text replacement next => do
    let front ← cut t s.segment i
    .ok (.next ⟨s.inlines, s.buffer ++ front ++ replacement, next⟩ next)

/-- One round of reading running text. -/
def inlineRound (parse : Text → Run (List Inline)) (t : Text) (s : Sentence) (i : Nat) :
    Run (Round Sentence (List Inline)) :=
  if t.size ≤ i then do
    let rest ← cutFrom t (min s.segment t.size)
    .ok (.done (push s.inlines (s.buffer ++ rest)))
  else do
    let seen ← InlineLook.read parse t i
    s.goOn t i seen

/-- **The inlines of a text.**  The content of a command must be shorter. -/
def parseInlines (t : Text) : Run (List Inline) :=
  loop t.size
    (inlineRound (fun content => if content.length < t.length then parseInlines content else .error .stuck) t) {} 0
termination_by t.length

section Loop

variable {parse : Text → Run (List Inline)} {t behind ahead : Text} {i : Nat}

theorem passesOver_inlineRound : PassesOver t (inlineRound parse t) := by
  intro s i b hb hgoesOn
  have hlt : i < t.size := by
    rw [← length_bytes]
    exact (List.getElem?_eq_some_iff.1 hb).1
  rw [inlineRound, if_neg (by omega), InlineLook.read, byte, hb, ok_bind, if_neg (hgoesOn.ne_code (by decide)),
    if_neg (hgoesOn.ne_code (by decide)), if_neg (hgoesOn.ne_code (by decide)), ok_bind, Sentence.goOn]

/-- The inlines with characters behind them, and then an inline that is no text. -/
theorem push_inline (inlines : List Inline) (buffer : Text) {shown : Inline} (hshown : ∀ u, shown ≠ .text u)
    (is : List Inline) :
    push inlines buffer ++ [shown] ++ Inline.merge (.text [] :: is) =
      inlines ++ Inline.merge (.text buffer :: shown :: is) := by
  have hmerge : Inline.merge (shown :: is) = shown :: Inline.merge is := by
    cases shown with
    | text u => exact absurd rfl (hshown u)
    | strong | emphasis | math | link | lineBreak => exact Inline.merge.eq_3 _ is hshown
  have hnot : startsWithText (Inline.merge (shown :: is)) = false := by
    rw [hmerge]
    cases shown with
    | text u => exact absurd rfl (hshown u)
    | strong | emphasis | math | link | lineBreak => rfl
  rw [merge_text_nil, push]
  split
  · next hnil => rw [hnil, merge_text_nil, hmerge, List.append_assoc, List.singleton_append]
  · next hne =>
      rw [merge_text_cons_of_not_text hne hnot, hmerge]
      simp only [List.append_assoc, List.cons_append, List.nil_append]

/-- What is left at the end of the text is a text, unless it is empty. -/
theorem push_end (inlines : List Inline) (buffer : Text) :
    push inlines buffer = inlines ++ Inline.merge [.text buffer] := by
  rw [push]
  split
  · next hnil => rw [hnil, merge_text_nil, Inline.merge, List.append_nil]
  · next hne => rw [merge_text_cons_of_not_text hne rfl, Inline.merge]

/-- **The loop reads the tokens that lie ahead**, and joins them with what was read before. -/
theorem loop_inlineRound (hparse : ∀ u : Text, u.length < t.length → parse u = .ok (CribSheet.parseInlines u))
    (h : Stands t behind ahead i) {front mid : Text} {segment : Nat} (hsegment : Stands t front (mid ++ ahead) segment)
    (inlines : List Inline) (buffer : Text) :
    loop t.size (inlineRound parse t) ⟨inlines, buffer, segment⟩ i =
      .ok (inlines ++ Inline.merge (.text (buffer ++ mid) ::
        (inlineTokens ahead).map (InlineToken.toInline CribSheet.parseInlines))) := by
  -- The induction is on the tokens; `mid` is what was passed over and is still to be cut out.
  fun_induction inlineTokens ahead generalizing behind i front mid segment inlines buffer with
  | case1 =>
      have hend : t.size ≤ i := Nat.le_of_eq h.size_text
      have hmin : min segment t.size = segment := Nat.min_eq_left (by rw [hsegment.size_text]; omega)
      rw [List.append_nil] at hsegment
      refine loop_done ?_
      rw [inlineRound, if_pos hend, hmin, hsegment.cutFrom, ok_bind, push_end]
      rfl
  | case2 c ahead hle ih =>
      obtain ⟨seen, source, hlook, hahead, hsees⟩ := InlineLook.agrees_read h hparse
      have hlt : i < t.size := by
        have hpos := Char.utf8Size_pos c
        rw [h.size_text, size_cons]
        omega
      have hstands : Stands t behind (source ++ (InlineToken.read c ahead).2) i := hahead ▸ h
      have hsegment' : Stands t front ((mid ++ source) ++ (InlineToken.read c ahead).2) segment := by
        rw [List.append_assoc, ← hahead]
        exact hsegment
      have hempty : Stands t _ ([] ++ _) _ := hstands.advance
      have hcut := h.cut_segment hsegment
      have hround : ∀ s, inlineRound parse t s i = s.goOn t i seen := fun s => by
        rw [inlineRound, if_neg (Nat.not_le_of_lt hlt), hlook, ok_bind]
      generalize (InlineToken.read c ahead).1 = token at hsees ⊢
      rw [List.map_cons]
      cases seen with
      | skip next =>
          obtain ⟨rfl, hnext⟩ := hsees
          rw [loop_next (hround _) hnext.lt hlt, loop_lands passesOver_inlineRound hstands hnext,
            ih hstands.advance hsegment' _ _, InlineToken.toInline, merge_text_text,
            List.append_assoc]
      | inline shown next =>
          obtain ⟨rfl, hnot, hne, rfl⟩ := hsees
          have hround' := hround ⟨inlines, buffer, segment⟩
          simp only [Sentence.goOn, hcut, ok_bind] at hround'
          rw [loop_next hround' (lands_end hne).lt hlt, ih hstands.advance hempty _ _, List.append_nil,
            push_inline _ _ hnot]
      | text replacement next =>
          obtain ⟨rfl, hne, rfl⟩ := hsees
          have hround' := hround ⟨inlines, buffer, segment⟩
          simp only [Sentence.goOn, hcut, ok_bind] at hround'
          rw [loop_next hround' (lands_end hne).lt hlt, ih hstands.advance hempty _ _,
            List.append_nil, InlineToken.toInline, merge_text_text]

end Loop

/-- **The inlines are read without a fault.** -/
theorem parseInlines_eq (t : Text) : parseInlines t = .ok (CribSheet.parseInlines t) := by
  have hparse : ∀ u : Text, u.length < t.length →
      (if u.length < t.length then parseInlines u else .error .stuck) = .ok (CribSheet.parseInlines u) := fun u hu => by
    rw [if_pos hu]
    exact parseInlines_eq u
  have hstart : Stands t [] ([] ++ t) 0 := stands_zero t
  rw [parseInlines, loop_inlineRound hparse (stands_zero t) hstart [] [],
    CribSheet.parseInlines_eq, List.append_nil, List.nil_append, merge_text_nil]
termination_by t.length

end CribSheet.Checked
