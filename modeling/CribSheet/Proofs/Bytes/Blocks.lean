/-
Sheets, byte by byte.

The blocks of a text are read in one loop over its positions.  A look at a position says where the loop goes on, and
whether the paragraph ends there or something in it is replaced; what is still to be cut out is kept as a segment.  The
content of an environment is read in the same way, which a look leaves to a function that is handed in.

Main definitions:

* `CribSheet.Checked.BlockLook`, `CribSheet.Checked.BlockLook.read` — one look at a position;
* `CribSheet.Checked.parseBlocks` — the blocks of a text.

Main results:

* `CribSheet.Checked.BlockLook.agrees_read` — **a look at a character sees the piece that starts there**;
* `CribSheet.Checked.parseBlocks_eq` — **the blocks are read without a fault**.
-/
import CribSheet.Proofs.Bytes.Environments
import CribSheet.Proofs.Bytes.Lines
import CribSheet.Proofs.Display.Alike

set_option relaxedAutoImplicit false
set_option autoImplicit false

namespace CribSheet.Checked

open Text Markup

/-! ### Looks -/

/-- What one look at a position comes to. -/
inductive BlockLook
  /-- Characters of the current paragraph, up to a position. -/
  | skip (next : Nat)
  /-- The end of the current paragraph, and blocks up to a position; so many ordered lists were met then. -/
  | blocks (shown : List Block) (seen next : Nat)
  /-- Something in the current paragraph that is replaced, up to a position. -/
  | text (replacement : Text) (next : Nat)

namespace BlockLook

/-- A formula on lines of its own, from behind its opening delimiter. -/
def ofDisplay (t closing : Text) (start seen : Nat) : Run BlockLook := do
  match ← findUnescaped? t closing start with
  | some close => do
    let body ← cut t start close
    .ok (.blocks [.math body.trim] seen (close + closing.size))
  | none => .ok (.skip start)

/-- A formula in running text, from behind its opening delimiter. -/
def ofFormula (t closing : Text) (start : Nat) : Run BlockLook := do
  match ← findUnescaped? t closing start with
  | some close => .ok (.skip (close + closing.size))
  | none => .ok (.skip start)

/-- The argument of a section command whose name ends at a position. -/
def ofHeading (t : Text) (stop next seen : Nat) : Run BlockLook := do
  match ← readArgument? t next with
  | some (heading, next) => do
    let content ← parseInlines heading.trim
    .ok (.blocks [.heading headingLevel content] seen next)
  | none => .ok (.skip stop)

/-- A section command, from behind its name. -/
def ofSection (t : Text) (stop seen : Nat) : Run BlockLook := do
  let next ← skipStar t stop
  let short ← skipArgumentSpace t next
  let ahead ← cutFrom t short
  if startsWith ['['] ahead then
    match ← groupEnd? t short with
    | some next => ofHeading t stop next seen
    | none => .ok (.skip stop)
  else ofHeading t stop next seen

/-- An opening marker, from behind the name of its command. -/
def ofBegin (parse : Text → Nat → Run (List Block × Nat)) (t : Text) (stop seen : Nat) : Run BlockLook := do
  match ← readArgument? t stop with
  | none => .ok (.skip stop)
  | some (name, start) =>
    match ← matchingEnd? t name.trim start with
    | none => if isListName name.trim then .ok (.text ['\n'] start) else .ok (.skip start)
    | some (close, next) => do
      let content ← cut t start close
      let (shown, seen) ← environment parse name.trim content seen
      .ok (.blocks shown seen next)

/-- A closing marker, from behind the name of its command. -/
def ofEnd (t : Text) (stop : Nat) : Run BlockLook := do
  match ← readArgument? t stop with
  | some (name, next) => if isListName name.trim then .ok (.text ['\n'] next) else .ok (.skip stop)
  | none => .ok (.skip stop)

/-- An item without a list, from behind the name of its command. -/
def ofItem (t : Text) (stop : Nat) : Run BlockLook := do
  let next ← skipItemLabel t stop
  let next ← skipSpaces t next
  .ok (.text ['\n', '•', ' '] next)

/-- An address, from behind the name of its command. -/
def ofUrl (t : Text) (stop : Nat) : Run BlockLook := do
  match ← readArgument? t stop with
  | some (_, next) => .ok (.skip next)
  | none => .ok (.skip stop)

/-- A control word, from the position of its backslash. -/
def ofWord (parse : Text → Nat → Run (List Block × Nat)) (t : Text) (i seen : Nat) : Run BlockLook := do
  let stop ← nameEnd t (i + 1)
  let name ← cut t (i + 1) stop
  if name = beginName then ofBegin parse t stop seen
  else if name = endName then ofEnd t stop
  else if isSectionName name then ofSection t stop seen
  else if name = itemName then ofItem t stop
  else if name = urlName then ofUrl t stop
  else .ok (.skip stop)

/-- A backslash at a position, and what follows it. -/
def ofCommand (parse : Text → Nat → Run (List Block × Nat)) (t : Text) (i seen : Nat) : Run BlockLook :=
  match byte? t (i + 1) with
  | none => .ok (.skip (i + 1))
  | some b =>
    if isLetterByte b then ofWord parse t i seen
    else if b = code '[' then ofDisplay t ['\\', ']'] (i + 2) seen
    else if b = code '(' then ofFormula t ['\\', ')'] (i + 2)
    else .ok (.skip (i + 2))

/-- A dollar at a position, and what follows it. -/
def ofDollar (t : Text) (i seen : Nat) : Run BlockLook := do
  let ahead ← cutFrom t i
  if startsWith ['$', '$'] ahead then ofDisplay t ['$', '$'] (i + 2) seen
  else ofFormula t ['$'] (i + 1)

/-- A line break at a position. -/
def ofBreak (t : Text) (i seen : Nat) : Run BlockLook := do
  let blank ← startsBlankLine t (i + 1)
  if blank then
    let next ← skipBlankLines t (i + 1)
    .ok (.blocks [] seen next)
  else .ok (.skip (i + 1))

/-- **One look at a position.** -/
def read (parse : Text → Nat → Run (List Block × Nat)) (t : Text) (i seen : Nat) : Run BlockLook := do
  let b ← byte t i
  if b = code '\\' then ofCommand parse t i seen
  else if b = code '$' then ofDollar t i seen
  else if b = code '%' then
    let next ← commentEnd t i
    .ok (.text [] next)
  else if b = code '\n' then ofBreak t i seen
  else .ok (.skip (i + 1))

/-- The look sees the piece, which was read from so much text. -/
def Sees (i seen : Nat) (source : Text) (piece : Piece) : BlockLook → Prop
  | .skip next => piece = .prose source ∧ Lands i source next
  | .blocks shown seen' next =>
    (∀ u, piece ≠ .prose u) ∧ piece.blocks CribSheet.parseBlocks seen = (shown, seen') ∧ source ≠ [] ∧
      next = i + source.size
  | .text replacement next => piece = .prose replacement ∧ source ≠ [] ∧ next = i + source.size

/-- **The look at a position is one at the piece that starts there.** -/
def Agrees (i seen : Nat) (reading : Reading) (look : Run BlockLook) : Prop :=
  ∃ found, look = .ok found ∧ found.Sees i seen reading.source reading.piece

section Agreement

variable {parse : Text → Nat → Run (List Block × Nat)} {t behind front ahead name rest : Text} {i seen : Nat}

/-! ### Formulas -/

theorem agrees_skip {source rest : Text} {next : Nat} (hnext : Lands i source next) :
    Agrees i seen ⟨source, .prose source, rest⟩ (.ok (.skip next)) :=
  ⟨_, rfl, rfl, hnext⟩

theorem agrees_text {source replacement rest : Text} {next : Nat} (hne : source ≠ []) (hnext : next = i + source.size) :
    Agrees i seen ⟨source, .prose replacement, rest⟩ (.ok (.text replacement next)) :=
  ⟨_, rfl, rfl, hne, hnext⟩

theorem agrees_ofDisplay {opening closing : Text} (hopening : opening ≠ []) (hclosing : closing ≠ [])
    (h : Stands t front ahead (i + opening.size)) :
    Agrees i seen (Reading.ofFormula true opening closing ahead) (ofDisplay t closing (i + opening.size) seen) := by
  rw [ofDisplay, Reading.ofFormula]
  cases hfind : Markup.findUnescaped? closing ahead with
  | none =>
      rw [h.findUnescaped? hclosing, hfind, Option.map_none, ok_bind]
      exact agrees_skip (lands_end hopening)
  | some found =>
      obtain ⟨body, rest⟩ := found
      obtain ⟨hclose, hcut⟩ := h.formula hclosing hfind
      rw [hclose, ok_bind]
      simp only
      rw [hcut, ok_bind]
      refine ⟨_, rfl, by simp, rfl, by simp [hopening], ?_⟩
      simp only [size_append, Nat.add_assoc]

theorem agrees_ofFormula {opening closing : Text} (hopening : opening ≠ []) (hclosing : closing ≠ [])
    (h : Stands t front ahead (i + opening.size)) :
    Agrees i seen (Reading.ofFormula false opening closing ahead) (ofFormula t closing (i + opening.size)) := by
  rw [ofFormula, Reading.ofFormula]
  cases hfind : Markup.findUnescaped? closing ahead with
  | none =>
      rw [h.findUnescaped? hclosing, hfind, Option.map_none, ok_bind]
      exact agrees_skip (lands_end hopening)
  | some found =>
      obtain ⟨body, rest⟩ := found
      rw [h.findUnescaped? hclosing, hfind, Option.map_some, ok_bind]
      have hend : i + opening.size + body.size + closing.size = i + size (opening ++ body ++ closing) := by
        simp only [size_append, Nat.add_assoc]
      simp only [hend]
      exact agrees_skip (lands_end (by simp [hopening]))

/-! ### Control words -/

theorem agrees_ofName : Agrees i seen (Reading.ofName name rest) (.ok (.skip (i + size ('\\' :: name)))) :=
  agrees_skip (lands_end (List.cons_ne_nil _ _))

theorem agrees_ofEnd (h : Stands t front rest (i + size ('\\' :: endName))) :
    Agrees i seen (Reading.ofEnd rest) (ofEnd t (i + size ('\\' :: endName))) := by
  rw [ofEnd, Reading.ofEnd, h.readArgument?, ok_bind]
  cases Argument.read? rest with
  | none => exact agrees_ofName
  | some a =>
      simp only [Option.map_some]
      split
      · exact agrees_text (by simp) (by rw [size_append, Nat.add_assoc])
      · exact agrees_ofName

theorem agrees_ofUrl (h : Stands t front rest (i + size ('\\' :: name))) :
    Agrees i seen (Reading.ofUrl name rest) (ofUrl t (i + size ('\\' :: name))) := by
  rw [ofUrl, Reading.ofUrl, h.readArgument?, ok_bind]
  cases Argument.read? rest with
  | none => exact agrees_ofName
  | some a =>
      simp only [Option.map_some]
      rw [Nat.add_assoc, ← size_append]
      exact agrees_skip (lands_end (by simp))

theorem agrees_ofItem (h : Stands t front rest (i + size ('\\' :: itemName))) :
    Agrees i seen (Reading.ofItem rest) (ofItem t (i + size ('\\' :: itemName))) := by
  have hlabel : Stands t (front ++ (itemLabel rest).1) (itemLabel rest).2
      (i + size ('\\' :: itemName) + size (itemLabel rest).1) := Stands.advance (by rwa [itemLabel_append])
  rw [ofItem, Reading.ofItem, h.skipItemLabel, ok_bind, hlabel.skipSpaces, ok_bind]
  refine agrees_text (by simp) ?_
  simp only [size_append, Nat.add_assoc]
  rfl

theorem agrees_ofSection (h : Stands t front rest (i + size ('\\' :: name))) :
    Agrees i seen (Reading.ofSection name rest) (ofSection t (i + size ('\\' :: name)) seen) := by
  have hstar : Stands t (front ++ (star rest).1) (star rest).2 (i + size ('\\' :: name) + size (star rest).1) :=
    Stands.advance (by rwa [star_append])
  have hspace := hstar.afterSpace
  -- The argument behind the short form, if there is one.
  have hheading : ∀ short rest' reading, short ++ rest' = (star rest).2 →
      (∀ a, Argument.read? rest' = some a →
        reading = ⟨'\\' :: name ++ (star rest).1 ++ short ++ a.source, .heading a.inner, a.after⟩) →
      (Argument.read? rest' = none → reading = Reading.ofName name rest) →
      Agrees i seen reading
        (ofHeading t (i + size ('\\' :: name)) (i + size ('\\' :: name) + size (star rest).1 + short.size) seen) := by
    intro short rest' reading hshort hsome hnone
    have hnext : Stands t (front ++ (star rest).1 ++ short) rest'
        (i + size ('\\' :: name) + size (star rest).1 + short.size) := Stands.advance (by rwa [hshort])
    rw [ofHeading, hnext.readArgument?, ok_bind]
    cases ha : Argument.read? rest' with
    | none =>
        rw [hnone ha]
        exact agrees_ofName
    | some a =>
        rw [hsome a ha]
        simp only [Option.map_some]
        rw [parseInlines_eq, ok_bind]
        exact ⟨_, rfl, by simp, rfl, by simp, by simp only [size_append, Nat.add_assoc]⟩
  rw [ofSection, h.skipStar, ok_bind, hstar.skipArgumentSpace, ok_bind, hspace.cutFrom, ok_bind, Reading.ofSection,
    shortForm?]
  by_cases hbracket : (argumentSpace (star rest).2).2.head? = some '['
  · rw [if_pos (startsWith_singleton_iff.2 hbracket), if_pos hbracket, hspace.groupEnd?, ok_bind]
    cases hread : Group.read? (argumentSpace (star rest).2).2 with
    | none => exact agrees_ofName
    | some g =>
        have hshort : (argumentSpace (star rest).2).1 ++ g.source ++ g.after = (star rest).2 := by
          rw [List.append_assoc, ← Group.text, Group.text_read? hread, argumentSpace_append]
        simp only [Option.map_some]
        rw [Nat.add_assoc _ (size (argumentSpace (star rest).2).1), ← size_append]
        exact hheading _ _ _ hshort (fun a ha => by simp only [ha]) (fun ha => by simp only [ha])
  · rw [if_neg (fun h => hbracket (startsWith_singleton_iff.1 h)), if_neg hbracket]
    exact hheading [] _ _ rfl (fun a ha => by simp only [ha]) (fun ha => by simp only [ha])

theorem agrees_ofBegin (h : Stands t front rest (i + size ('\\' :: beginName)))
    (hfresh : escapedAfter false front = false)
    (hparse : ∀ u : Text, u.length < t.length → ∀ seen, parse u seen = .ok (CribSheet.parseBlocks u seen)) :
    Agrees i seen (Reading.ofBegin rest) (ofBegin parse t (i + size ('\\' :: beginName)) seen) := by
  rw [ofBegin, Reading.ofBegin, h.readArgument?, ok_bind]
  cases ha : Argument.read? rest with
  | none => exact agrees_ofName
  | some a =>
      have hbehind : Stands t (front ++ a.source) a.after (i + size ('\\' :: beginName) + a.source.size) :=
        Stands.advance (by rwa [← Argument.text, Argument.text_read? ha])
      have hfresh' : escapedAfter false (front ++ a.source) = false := by
        rw [escapedAfter_append, hfresh, escapedAfter_source_of_argument ha]
      simp only [Option.map_some]
      rw [hbehind.matchingEnd?, hfresh', ok_bind]
      cases hc : Closing.find? a.inner.trim 0 false a.after with
      | none =>
          simp only [Option.map_none]
          split
          · exact agrees_text (by simp) (by rw [size_append, Nat.add_assoc])
          · rw [Nat.add_assoc, ← size_append]
            exact agrees_skip (lands_end (by simp))
      | some c =>
          have htext := Closing.text_find? hc
          have hcontent : Stands t (front ++ a.source) (c.content ++ (c.source ++ c.after))
              (i + size ('\\' :: beginName) + a.source.size) := by
            rwa [← List.append_assoc, ← Closing.text, htext]
          have hlength : c.content.length < t.length := by
            rw [hcontent.text_eq]
            simp only [Argument.source, List.length_append, List.length_cons]
            omega
          have hread : environment parse a.inner.trim c.content seen =
              .ok (readEnvironment CribSheet.parseBlocks a.inner.trim c.content seen) :=
            environment_eq (fun u hu => hparse u (Nat.lt_of_le_of_lt hu hlength)) _ seen
          simp only [Option.map_some, closingSpan]
          rw [hcontent.cut, ok_bind, hread, ok_bind]
          exact ⟨_, rfl, by simp, rfl, by simp, by simp only [size_append, Nat.add_assoc]⟩

theorem agrees_ofWord (h : Stands t behind ('\\' :: ahead) i)
    (hparse : ∀ u : Text, u.length < t.length → ∀ seen, parse u seen = .ok (CribSheet.parseBlocks u seen)) :
    Agrees i seen (Reading.ofWord (ahead.takeWhile isLetter) (ahead.dropWhile isLetter)) (ofWord parse t i seen) := by
  obtain ⟨hnameEnd, hcut, hrest⟩ := h.controlWord
  generalize ahead.takeWhile isLetter = name at hnameEnd hcut hrest ⊢
  generalize ahead.dropWhile isLetter = rest at hrest ⊢
  rw [ofWord, hnameEnd, ok_bind, hcut, ok_bind, Reading.ofWord]
  split
  · next hname =>
      subst hname
      refine agrees_ofBegin hrest ?_ hparse
      -- The name ends in a letter, so no escape is open behind it.
      have hlast : (behind ++ '\\' :: beginName).getLast? = some 'n' := by
        rw [List.getLast?_append_of_ne_nil _ (by simp)]
        rfl
      exact escapedAfter_of_getLast? hlast (by decide) _
  · split
    · next hname =>
        subst hname
        exact agrees_ofEnd hrest
    · split
      · exact agrees_ofSection hrest
      · split
        · next hname =>
            subst hname
            exact agrees_ofItem hrest
        · split
          · next hname =>
              rw [if_pos (show name = urlName from hname)]
              exact agrees_ofUrl hrest
          · next hname =>
              rw [if_neg (show name ≠ urlName from hname)]
              exact agrees_ofName

theorem agrees_ofCommand (h : Stands t behind ('\\' :: ahead) i) (blank : Bool)
    (hparse : ∀ u : Text, u.length < t.length → ∀ seen, parse u seen = .ok (CribSheet.parseBlocks u seen)) :
    Agrees i seen (Reading.read blank '\\' ahead) (ofCommand parse t i seen) := by
  have hslash : IsAscii '\\' := by decide
  have hnext := h.succ hslash
  rw [ofCommand, Reading.read.eq_def, if_pos rfl]
  cases ahead with
  | nil =>
      rw [hnext.byte?_nil]
      exact agrees_skip (lands_end (List.cons_ne_nil _ _))
  | cons d ahead =>
      rw [hnext.byte?_cons]
      simp only [isLetterByte_lead, lead_eq_code_iff (show IsAscii '[' by decide),
        lead_eq_code_iff (show IsAscii '(' by decide)]
      split
      · exact agrees_ofWord h hparse
      · split
        · next hd =>
            subst hd
            have hopening : Stands t (behind ++ ['\\'] ++ ['[']) ahead (i + size ['\\', '[']) := hnext.succ (by decide)
            exact agrees_ofDisplay (by simp) (by simp) hopening
        · split
          · next hd =>
              subst hd
              have hopening : Stands t (behind ++ ['\\'] ++ ['(']) ahead (i + size ['\\', '(']) :=
                hnext.succ (by decide)
              exact agrees_ofFormula (by simp) (by simp) hopening
          · exact agrees_skip (lands_pair i _ _ hslash)

/-! ### Dollars and line breaks -/

theorem agrees_ofDollar (h : Stands t behind ('$' :: ahead) i) (blank : Bool) :
    Agrees i seen (Reading.read blank '$' ahead) (ofDollar t i seen) := by
  have hdollar : IsAscii '$' := by decide
  have hnext := h.succ hdollar
  rw [ofDollar, h.cutFrom, ok_bind]
  by_cases hhead : ahead.head? = some '$'
  · obtain ⟨rest, rfl⟩ : ∃ rest, ahead = '$' :: rest := by
      cases ahead with
      | nil => simp at hhead
      | cons d rest => exact ⟨rest, by rw [Option.some.inj hhead]⟩
    have hopening : Stands t (behind ++ ['$'] ++ ['$']) rest (i + size ['$', '$']) := hnext.succ hdollar
    have hstarts : startsWith ['$', '$'] ('$' :: '$' :: rest) = true := startsWith_iff.2 ⟨rest, rfl⟩
    rw [if_pos hstarts, Reading.read_dollars]
    exact agrees_ofDisplay (by simp) (by simp) hopening
  · have hopening : Stands t (behind ++ ['$']) ahead (i + size ['$']) := hnext
    have hnot : ¬ startsWith ['$', '$'] ('$' :: ahead) = true := by
      rw [startsWith_iff, List.prefix_cons_inj, ← startsWith_iff, startsWith_singleton_iff]
      exact hhead
    rw [if_neg hnot, Reading.read_dollar blank fun c hc hd => hhead (hd ▸ hc)]
    exact agrees_ofFormula (by simp) (by simp) hopening

theorem agrees_ofBreak (h : Stands t behind ('\n' :: ahead) i) :
    Agrees i seen (Reading.ofBreak ahead) (ofBreak t i seen) := by
  have hnext := h.succ (show IsAscii '\n' by decide)
  rw [ofBreak, hnext.startsBlankLine, ok_bind, Reading.ofBreak]
  split
  · rw [hnext.skipBlankLines, ok_bind]
    refine ⟨_, rfl, by simp, rfl, by simp, ?_⟩
    rw [size_cons, Nat.add_assoc]
    rfl
  · exact agrees_skip (lands_end (List.cons_ne_nil _ _))

/-- A comment vanishes. -/
theorem piece_ofComment (blank : Bool) (t : Text) : (Reading.ofComment blank t).piece = .prose [] := by
  unfold Reading.ofComment
  split
  · split <;> rfl
  · rfl

/-- **A look at a character sees the piece that starts there.** -/
theorem agrees_read {c : Char} (h : Stands t behind (c :: ahead) i)
    (hparse : ∀ u : Text, u.length < t.length → ∀ seen, parse u seen = .ok (CribSheet.parseBlocks u seen)) :
    Agrees i seen (Reading.read (blankLineAfter true behind) c ahead) (read parse t i seen) := by
  rw [read, h.byte_cons, ok_bind]
  simp only [lead_eq_code_iff (show IsAscii '\\' by decide), lead_eq_code_iff (show IsAscii '$' by decide),
    lead_eq_code_iff (show IsAscii '%' by decide), lead_eq_code_iff (show IsAscii '\n' by decide)]
  by_cases hslash : c = '\\'
  · subst hslash
    exact agrees_ofCommand h _ hparse
  · by_cases hdollar : c = '$'
    · subst hdollar
      exact agrees_ofDollar h _
    · by_cases hpercent : c = '%'
      · subst hpercent
        have hne := Reading.source_read_ne_nil (blankLineAfter true behind) '%' ahead
        rw [Reading.read_percent] at hne ⊢
        rw [if_neg hslash, if_neg hdollar, if_pos rfl, h.commentEnd, ok_bind]
        exact ⟨_, rfl, piece_ofComment _ _, hne, rfl⟩
      · by_cases hbreak : c = '\n'
        · subst hbreak
          rw [if_neg hslash, if_neg hdollar, if_neg hpercent, if_pos rfl, Reading.read_newline]
          exact agrees_ofBreak h
        · rw [if_neg hslash, if_neg hdollar, if_neg hpercent, if_neg hbreak, read_char (by simp [*])]
          refine agrees_skip ⟨[], c, rfl, Nat.lt_succ_self i, ?_⟩
          have hpos := Char.utf8Size_pos c
          rw [size_cons]
          omega

end Agreement

end BlockLook

/-! ### The loop -/

/-- What was read of a sheet. -/
structure Page where
  /-- The blocks. -/
  blocks : List Block := []
  /-- Prose behind them. -/
  paragraph : Text := []
  /-- Where the segment starts that is still to be cut out. -/
  segment : Nat := 0
  /-- So many ordered lists were met. -/
  seen : Nat

/-- The paragraph of some prose, unless nothing visible is left of it. -/
def paragraph (t : Text) : Run (List Block) :=
  if t.trim = [] then .ok []
  else do
    let inlines ← parseInlines t.trim
    .ok (if Inline.areBlank (Inline.trimEdges inlines) then [] else [.paragraph (Inline.trimEdges inlines)])

/-- Goes on from a look at a position. -/
def Page.goOn (p : Page) (t : Text) (i : Nat) : BlockLook → Run (Round Page (List Block × Nat))
  | .skip next => .ok (.next p next)
  | .blocks shown seen next => do
    let front ← cut t p.segment i
    let before ← Checked.paragraph (p.paragraph ++ front)
    .ok (.next ⟨p.blocks ++ before ++ shown, [], next, seen⟩ next)
  | .text replacement next => do
    let front ← cut t p.segment i
    .ok (.next ⟨p.blocks, p.paragraph ++ front ++ replacement, next, p.seen⟩ next)

/-- One round of reading a sheet. -/
def blockRound (parse : Text → Nat → Run (List Block × Nat)) (t : Text) (p : Page) (i : Nat) :
    Run (Round Page (List Block × Nat)) :=
  if t.size ≤ i then do
    let rest ← cutFrom t (min p.segment t.size)
    let last ← paragraph (p.paragraph ++ rest)
    .ok (.done (p.blocks ++ last, p.seen))
  else do
    let look ← BlockLook.read parse t i p.seen
    p.goOn t i look

/-- **The blocks of a text**, when so many ordered lists were met before it.  The content of an environment must be
shorter. -/
def parseBlocks (t : Text) (seen : Nat) : Run (List Block × Nat) :=
  loop t.size
    (blockRound
      (fun content seen => if content.length < t.length then parseBlocks content seen else .error .stuck) t)
    { seen } 0
termination_by t.length

section Loop

variable {parse : Text → Nat → Run (List Block × Nat)} {t behind ahead : Text} {i : Nat}

theorem passesOver_blockRound : PassesOver t (blockRound parse t) := by
  intro p i b hb hgoesOn
  have hlt : i < t.size := by
    rw [← length_bytes]
    exact (List.getElem?_eq_some_iff.1 hb).1
  rw [blockRound, if_neg (by omega), BlockLook.read, byte, hb, ok_bind, if_neg (hgoesOn.ne_code (by decide)),
    if_neg (hgoesOn.ne_code (by decide)), if_neg (hgoesOn.ne_code (by decide)),
    if_neg (hgoesOn.ne_code (by decide)), ok_bind, Page.goOn]

theorem paragraph_eq (t : Text) : paragraph t = .ok (paragraph? t).toList := by
  rw [paragraph]
  split
  · next htrim =>
      have hblank : isBlankText t = true := by rw [← isEmpty_trim, htrim]; rfl
      rw [paragraph?_of_blank hblank]
      rfl
  · rw [parseInlines_eq, ok_bind, paragraph?]
    split <;> rfl

/-- A look that ends the paragraph goes on with none pending. -/
theorem blocksBehind_blocks {read : Reader} {blank : Bool} {c : Char} {w : Text} {seen seen' : Nat} {shown : List Block}
    (hpiece : ∀ u, (Reading.read blank c ahead).piece ≠ .prose u)
    (hshown : (Reading.read blank c ahead).piece.blocks read seen = (shown, seen')) :
    blocksBehind read blank w (c :: ahead) seen =
      let next := blocksBehind read (blankLineAfter blank (Reading.read blank c ahead).source) []
        (Reading.read blank c ahead).rest seen'
      ((paragraph? w).toList ++ (shown ++ next.1), next.2) := by
  have hnext : ∀ blank t seen, blocksBehind read blank [] t seen = readPieces read (pieces blank t) seen :=
    fun blank t seen => blocksBehind_of_blank rfl blank t seen
  rw [hnext, blocksBehind, pieces_cons]
  generalize (Reading.read blank c ahead).piece = piece at hpiece hshown ⊢
  have hcons : ∀ ps, (Piece.prose w).cons (piece.cons ps) = .prose w :: piece :: ps := fun ps => by
    cases piece with
    | prose u => exact absurd rfl (hpiece u)
    | gap | heading | math | environment => rfl
  have hprose : (Piece.prose w).blocks read seen = ((paragraph? w).toList, seen) := rfl
  rw [hcons, readPieces, readPieces, hprose]
  simp only [hshown]

/-- A look that reads prose goes on with more prose pending. -/
theorem blocksBehind_text {read : Reader} {blank : Bool} {c : Char} {w u : Text} {seen : Nat}
    (hpiece : (Reading.read blank c ahead).piece = .prose u) :
    blocksBehind read blank w (c :: ahead) seen =
      blocksBehind read (blankLineAfter blank (Reading.read blank c ahead).source) (w ++ u)
        (Reading.read blank c ahead).rest seen := by
  rw [blocksBehind, pieces_cons, hpiece, prose_cons_prose_cons]
  rfl

/-- **The loop reads the pieces that lie ahead**, behind the prose that was read before. -/
theorem loop_blockRound
    (hparse : ∀ u : Text, u.length < t.length → ∀ seen, parse u seen = .ok (CribSheet.parseBlocks u seen))
    (h : Stands t behind ahead i) {front mid : Text} {segment : Nat} (hsegment : Stands t front (mid ++ ahead) segment)
    (blocks : List Block) (w : Text) (seen : Nat) :
    loop t.size (blockRound parse t) ⟨blocks, w, segment, seen⟩ i =
      .ok (blocks ++ (blocksBehind CribSheet.parseBlocks (blankLineAfter true behind) (w ++ mid) ahead seen).1,
        (blocksBehind CribSheet.parseBlocks (blankLineAfter true behind) (w ++ mid) ahead seen).2) := by
  -- The induction is on the length of what lies ahead; `mid` was passed over and is still to be cut out.
  induction hlength : ahead.length using Nat.strong_induction_on
    generalizing behind ahead i front mid segment blocks w seen with
  | _ length ih =>
  subst hlength
  cases ahead with
  | nil =>
      have hend : t.size ≤ i := Nat.le_of_eq h.size_text
      have hmin : min segment t.size = segment := Nat.min_eq_left (by rw [hsegment.size_text]; omega)
      rw [List.append_nil] at hsegment
      refine loop_done ?_
      rw [blockRound, if_pos hend, hmin, hsegment.cutFrom, ok_bind, paragraph_eq,
        ok_bind]
      simp [blocksBehind, pieces, cons_nil, readPieces, Piece.blocks]
  | cons c ahead =>
      have hagrees : BlockLook.Agrees i seen _ _ := BlockLook.agrees_read h hparse
      obtain ⟨found, hlook, hsees⟩ := hagrees
      have htext := Reading.text_read (blankLineAfter true behind) c ahead
      have hlt := Nat.lt_succ_of_le (Reading.length_rest_read_le (blankLineAfter true behind) c ahead)
      have hne := Reading.source_read_ne_nil (blankLineAfter true behind) c ahead
      have hless : i < t.size := by
        have hpos := Char.utf8Size_pos c
        rw [h.size_text, size_cons]
        omega
      have hround : blockRound parse t ⟨blocks, w, segment, seen⟩ i =
          Page.goOn ⟨blocks, w, segment, seen⟩ t i found := by
        rw [blockRound, if_neg (Nat.not_le_of_lt hless), hlook, ok_bind]
      have hcut := h.cut_segment hsegment
      have hstands : Stands t behind
          ((Reading.read (blankLineAfter true behind) c ahead).source ++
            (Reading.read (blankLineAfter true behind) c ahead).rest) i := by rwa [← Reading.text, htext]
      have hbehind := hstands.advance
      have hempty : Stands t _ ([] ++ _) _ := hbehind
      have hblank := blankLineAfter_append true behind (Reading.read (blankLineAfter true behind) c ahead).source
      cases found with
      | skip next =>
          obtain ⟨hpiece, hnext⟩ := hsees
          have hsegment : Stands t front
              ((mid ++ (Reading.read (blankLineAfter true behind) c ahead).source) ++
                (Reading.read (blankLineAfter true behind) c ahead).rest) segment := by
            rwa [List.append_assoc, ← Reading.text, htext]
          have hgo := ih _ hlt hbehind hsegment blocks w seen rfl
          rw [loop_next hround hnext.lt hless, loop_lands passesOver_blockRound hstands hnext, hgo, hblank,
            blocksBehind_text hpiece, List.append_assoc]
      | blocks shown seen' next =>
          obtain ⟨hpiece, hshown, -, rfl⟩ := hsees
          simp only [Page.goOn, hcut, paragraph_eq, ok_bind] at hround
          have hgo := ih _ hlt hbehind hempty (blocks ++ (paragraph? (w ++ mid)).toList ++ shown) [] seen' rfl
          rw [loop_next hround (lands_end hne).lt hless, hgo, hblank, blocksBehind_blocks hpiece hshown]
          simp only [List.append_assoc, List.append_nil]
      | text replacement next =>
          obtain ⟨hpiece, -, rfl⟩ := hsees
          simp only [Page.goOn, hcut, ok_bind] at hround
          have hgo := ih _ hlt hbehind hempty blocks (w ++ mid ++ replacement) seen rfl
          rw [loop_next hround (lands_end hne).lt hless, hgo, hblank, blocksBehind_text hpiece, List.append_nil]

end Loop

/-- **The blocks are read without a fault.** -/
theorem parseBlocks_eq (t : Text) (seen : Nat) : parseBlocks t seen = .ok (CribSheet.parseBlocks t seen) := by
  have hparse : ∀ u : Text, u.length < t.length → ∀ seen,
      (if u.length < t.length then parseBlocks u seen else .error .stuck) = .ok (CribSheet.parseBlocks u seen) :=
    fun u hu seen => by
      rw [if_pos hu]
      exact parseBlocks_eq u seen
  have hstart : Stands t [] ([] ++ t) 0 := stands_zero t
  have hblocks : blocksBehind CribSheet.parseBlocks true [] t seen = CribSheet.parseBlocks t seen := by
    rw [blocksBehind_of_blank rfl, ← CribSheet.parseBlocks_eq]
  rw [parseBlocks, loop_blockRound hparse (stands_zero t) hstart [] [] seen, blankLineAfter_nil, List.append_nil,
    List.nil_append, hblocks]
termination_by t.length

end CribSheet.Checked
