/-
Reading around a comment.

Reading the blocks of a text goes through list markup look by look, with the prose of the current
paragraph pending.  Behind the markup stands the comment, or does not; the comment itself adds nothing to
the paragraph.  Only the line break in front of it is seen in another way: it does not end the paragraph,
when a blank line follows the comment.  Where that makes no difference, the comment is transparent.

Main definitions:

* `CribSheet.Transparent`, `CribSheet.TransparentBehind` — the comment makes no difference to the blocks;
* `CribSheet.GapKept` — the line break in front of the comment makes none.

Main results:

* `CribSheet.CommentBetween.transparent` — the comment is transparent behind list markup;
* `CribSheet.parseBlocks_comment_line` — a comment on a line of its own is transparent;
* `CribSheet.comment_joins_paragraphs` — a comment in front of a blank line joins two paragraphs.
-/
import CribSheet.Proofs.Display.BlankLines
import CribSheet.Proofs.Display.CommentLines

set_option relaxedAutoImplicit false
set_option autoImplicit false

namespace CribSheet

open CribSheet.Markup

/-! ### The blank line behind a comment -/

/-- Without the line break in front of it, a blank line ends the pending paragraph as well, unless it is a
single one. -/
theorem readPieces_prose_blankLine (read : Reader) (w : Text) {t : Text}
    (h : t.firstLine.1.isBlankText = true) (hsingle : ¬ SingleBlankLine t) (seen : Nat) :
    readPieces read ((Piece.prose (w ++ ['\n'])).cons (pieces true t)) seen =
      ((paragraph? w).toList ++ (readPieces read (pieces true t) seen).1,
        (readPieces read (pieces true t) seen).2) := by
  obtain ⟨line, rest, ht⟩ : ∃ line rest, t.firstLine = (line, rest) := ⟨_, _, rfl⟩
  have htext : t = line ++ rest := by simpa [ht] using (Text.firstLine_append t).symm
  have hline : line.isBlankText = true := by simpa [ht] using h
  have hnewline : '\n' ∉ line := by simpa [ht] using Text.not_mem_firstLine t
  have hblank : Text.isBlankText ('\n' :: line) = true := hline
  have hparagraph : paragraph? (w ++ ['\n'] ++ line) = paragraph? w := by
    rw [List.append_assoc, List.singleton_append, paragraph?_append_blank hblank]
  rw [htext, pieces_blanks_append hline hnewline, readPieces_blank_append read hline]
  cases rest with
  | nil =>
    rw [pieces, cons_nil]
    simp only [readPieces, Piece.blocks, hparagraph]
  | cons d rest =>
    obtain rfl : d = '\n' := Text.newline_of_firstLine (congrArg Prod.snd ht)
    have hrest : (Text.firstLine rest).1.isBlankText = true := by
      by_contra hvisible
      exact hsingle ⟨h, rest, by rw [ht], by simpa using hvisible⟩
    have hbreak := readPieces_blank_append read (x := ['\n']) rfl rest seen
    rw [List.singleton_append] at hbreak
    rw [readPieces_prose_break read _ hrest, hparagraph, hbreak]

/-! ### The comment -/

/-- The comment itself adds nothing to the paragraph. -/
theorem pieces_commentLine {c : Text} (hline : '\n' ∉ c) (b : Text) :
    pieces true (commentLine c ++ b) = (Piece.prose []).cons (pieces true b) := by
  have hne : ∀ d ∈ c, (decide (d ≠ '\n')) = true := by
    intro d hd
    have hne : d ≠ '\n' := by
      rintro rfl
      exact hline hd
    simpa using hne
  have hfirst : Text.firstLine (c ++ '\n' :: b) = (c, '\n' :: b) := by
    rw [Text.firstLine, List.takeWhile_append_of_pos hne, List.dropWhile_append_of_pos hne]
    simp
  have hread : Reading.read true '%' (c ++ '\n' :: b) = ⟨commentLine c, .prose [], b⟩ := by
    rw [Reading.read_percent, Reading.ofComment, hfirst]
    rfl
  have hblank : Text.blankLineAfter true (commentLine c) = true := by
    rw [commentLine, ← List.cons_append, Text.blankLineAfter_append]
    rfl
  have hsplit : commentLine c ++ b = '%' :: (c ++ '\n' :: b) := by simp [commentLine]
  rw [hsplit, pieces_of_read_eq hread, hblank]

/-! ### Lines that are not blank -/

/-- The line is not blank behind a character that is no blank. -/
theorem blankLineAfter_solid {d : Char} (hd : isBlank d = false) {gaps : Text}
    (hgaps : ∀ e ∈ gaps, isGap e = true) (blank : Bool) (x : Text) :
    Text.blankLineAfter blank (x ++ d :: gaps) = false := by
  have hne : d ≠ '\n' := by
    rintro rfl
    exact absurd hd (by decide)
  have hstep : ∀ blank, Text.blankLineStep blank d = false := by
    intro blank
    rw [Text.blankLineStep, if_neg hne, hd, Bool.and_false]
  rw [Text.blankLineAfter_append, Text.blankLineAfter_cons, hstep]
  induction gaps with
  | nil => rfl
  | cons e gaps ih =>
    obtain ⟨he, hgaps⟩ := List.forall_mem_cons.1 hgaps
    have hne : e ≠ '\n' := by
      rintro rfl
      exact absurd he (by decide)
    rw [Text.blankLineAfter_cons, Text.blankLineStep, if_neg hne, Bool.false_and]
    exact ih hgaps

theorem blankLineAfter_brace (x : Text) (blank : Bool) : Text.blankLineAfter blank (x ++ ['}']) = false :=
  blankLineAfter_solid (by decide) (by simp) blank x

theorem blankLineAfter_command (x word name : Text) (blank : Bool) :
    Text.blankLineAfter blank (x ++ command word name) = false := by
  have hbrace : x ++ command word name = x ++ '\\' :: (word ++ '{' :: name) ++ ['}'] := by simp [command]
  rw [hbrace]
  exact blankLineAfter_brace _ blank

/-- The line is not blank behind an item, its label and gaps. -/
theorem blankLineAfter_item {label gaps : Text} (hlabel : label = [] ∨ ∃ x, label = x ++ [']'])
    (hgaps : ∀ e ∈ gaps, isGap e = true) (blank : Bool) :
    Text.blankLineAfter blank ('\\' :: itemName ++ label ++ gaps) = false := by
  rcases hlabel with rfl | ⟨x, rfl⟩
  · exact blankLineAfter_solid (d := 'm') (by decide) hgaps blank ['\\', 'i', 't', 'e']
  · have hsplit : '\\' :: itemName ++ (x ++ [']']) ++ gaps = '\\' :: itemName ++ x ++ ']' :: gaps := by simp
    rw [hsplit]
    exact blankLineAfter_solid (by decide) hgaps blank _

/-- A last line that is blank is blank because of a line break, or all of the text is. -/
theorem blankLineAfter_false_or {x : Text} (h : Text.blankLineAfter true x = true) :
    Text.blankLineAfter false x = true ∨ x.isBlankText = true := by
  induction x with
  | nil => exact .inr rfl
  | cons c x ih =>
    rw [Text.blankLineAfter_cons] at h ⊢
    by_cases hc : c = '\n'
    · subst hc
      exact .inl h
    · have hstep : ∀ blank, Text.blankLineStep blank c = (blank && isBlank c) := by
        intro blank
        rw [Text.blankLineStep, if_neg hc]
      rw [hstep, Bool.true_and] at h
      rw [hstep, Bool.false_and]
      cases hblank : isBlank c with
      | false =>
        rw [hblank] at h
        exact .inl h
      | true =>
        rw [hblank] at h
        refine (ih h).imp_right fun hx => ?_
        rw [Text.isBlankText, List.all_cons, hblank]
        exact hx

/-- The marker that closes an environment ends with a brace. -/
theorem Markup.Marker.source_next? {escaped : Bool} {t : Text} {m : Marker}
    (h : Marker.next? escaped t = some m) : ∃ x, m.source = x ++ ['}'] := by
  fun_induction Marker.next? escaped t generalizing m with
  | case1 => simp at h
  | case2 escaped t command hc argument ha =>
    obtain rfl := Option.some.inj h
    exact ⟨command.source ++ (argument.space ++ '{' :: argument.inner), by simp [Argument.source]⟩
  | case3 escaped t command hc _ _ ih =>
    obtain ⟨m', hm, rfl⟩ := Option.map_eq_some_iff.1 h
    have hsource := ih hm
    exact hsource

theorem Markup.Closing.source_find? {name : Text} {depth : Nat} {escaped : Bool} {t : Text} {c : Closing}
    (h : Closing.find? name depth escaped t = some c) : ∃ x, c.source = x ++ ['}'] := by
  fun_induction Closing.find? name depth escaped t generalizing c with
  | case1 => simp at h
  | case3 =>
    obtain rfl := Option.some.inj h
    exact Marker.source_next? ‹_›
  | case2 | case4 | case5 =>
    rename_i ih
    obtain ⟨c', hc, rfl⟩ := Option.map_eq_some_iff.1 h
    have hsource := ih hc
    exact hsource

/-! ### Lists -/

/-- A list reads in the same way with the comment and without it, when its items do. -/
theorem CommentBetween.readEnvironment_eq {a b c name : Text} {read : Reader} (hname : isListName name = true)
    (hquiet : ∀ names, Directives names → Quiet names (commentLine c)) (h : CommentBetween a c b)
    (hread : ∀ t t' : Text, Beside c t t' → t'.length ≤ (a ++ b).length → ∀ seen, read t seen = read t' seen)
    (seen : Nat) :
    readEnvironment read name (a ++ (commentLine c ++ b)) seen = readEnvironment read name (a ++ b) seen := by
  obtain ⟨hlead, hitems⟩ := h.listItems hquiet
  have hlength : ∀ {u : Text}, u = (CribSheet.listItems (a ++ b)).1 ∨ u ∈ (CribSheet.listItems (a ++ b)).2 →
      u.length ≤ (a ++ b).length := by
    intro u hu
    refine @length_le_of_mem_environmentParts name _ _ ?_
    rw [environmentParts, if_pos hname]
    rcases hu with rfl | hu
    · exact List.mem_cons_self ..
    · exact List.mem_cons_of_mem _ hu
  have hall : ∀ {us us' : List Text}, List.Forall₂ (Beside c) us us' →
      (∀ u ∈ us', u ∈ (CribSheet.listItems (a ++ b)).2) →
      ∀ seen, readAll read us seen = readAll read us' seen := by
    intro us us' hus hmem
    induction hus with
    | nil => exact fun seen => rfl
    | cons hu _ ih =>
      obtain ⟨hu', hus'⟩ := List.forall_mem_cons.1 hmem
      intro seen
      simp only [readAll, hread _ _ hu (hlength (.inr hu')), ih hus']
  have hlist : ∀ (list : List (List Block) → Block) seen,
      readList read list (a ++ (commentLine c ++ b)) seen = readList read list (a ++ b) seen := by
    intro list seen
    have hlead := hread _ _ hlead (hlength (.inl rfl)) seen
    have hitems := hall hitems (fun u hu => hu) (read (CribSheet.listItems (a ++ b)).1 seen).2
    unfold CribSheet.listItems at hlead hitems
    simp only [readList, hlead, hitems]
  simp only [isListName, Bool.or_eq_true, beq_iff_eq] at hname
  have hne : enumerateName ≠ itemizeName := by decide
  rcases hname with rfl | rfl
  · simp only [readEnvironment, if_true, hlist]
  · simp only [readEnvironment, hne, if_false, if_true, hlist]

/-! ### Looks at list markup -/

theorem read_item {w : Text} (hw : ∀ d ∈ w.head?, Text.isLetter d = false) (blank : Bool) :
    Reading.read blank '\\' (itemName ++ w) =
      ⟨'\\' :: itemName ++ (itemLabel w).1 ++ (itemLabel w).2.takeWhile isGap, .prose ['\n', '•', ' '],
        (itemLabel w).2.dropWhile isGap⟩ := by
  have hsection : isSectionName itemName = false := by decide
  rw [read_word (by decide) (by decide) hw, Reading.ofWord, if_neg (by decide), if_neg (by decide), hsection,
    if_neg Bool.false_ne_true, if_pos rfl]
  rfl

theorem read_end {name : Text} (hname : isListName name = true) (blank : Bool) (t : Text) :
    Reading.read blank '\\' (endName ++ '{' :: (name ++ '}' :: t)) =
      ⟨command endName name, .prose ['\n'], t⟩ := by
  obtain ⟨hplain, htrim⟩ := isName_of_isListName hname
  rw [read_word (by decide) (by decide) (by simp; decide), Reading.ofWord, if_neg (by decide), if_pos rfl,
    Reading.ofEnd, argument_read?_plain hplain]
  simp only [htrim, hname, if_true]
  rfl

theorem read_begin {name : Text} (hname : isListName name = true) (blank : Bool) (t : Text) :
    Reading.read blank '\\' (beginName ++ '{' :: (name ++ '}' :: t)) =
      ((Closing.find? name 0 false t).map fun closing =>
        Reading.mk (command beginName name ++ closing.content ++ closing.source)
          (.environment name closing.content) closing.after).getD ⟨command beginName name, .prose ['\n'], t⟩ := by
  obtain ⟨hplain, htrim⟩ := isName_of_isListName hname
  rw [read_word (by decide) (by decide) (by simp; decide), Reading.ofWord, if_pos rfl, Reading.ofBegin,
    argument_read?_plain hplain]
  simp only [htrim, hname, if_true]
  cases Closing.find? name 0 false t <;> rfl

/-- A stray item: the look takes the label along and the gaps behind it. -/
theorem pieces_item {w label rest : Text} (hw : ∀ d ∈ w.head?, Text.isLetter d = false)
    (hlabel : itemLabel w = (label, rest)) (hsolid : label = [] ∨ ∃ x, label = x ++ [']']) (blank : Bool) :
    pieces blank ('\\' :: (itemName ++ w)) =
      (Piece.prose ['\n', '•', ' ']).cons (pieces false (rest.dropWhile isGap)) := by
  have hgaps : ∀ e ∈ rest.takeWhile isGap, isGap e = true :=
    fun e he => List.all_eq_true.1 List.all_takeWhile e he
  rw [pieces_of_read_eq (read_item hw blank), hlabel, blankLineAfter_item hsolid hgaps]

theorem pieces_end {name : Text} (hname : isListName name = true) (blank : Bool) (t : Text) :
    pieces blank (command endName name ++ t) = (Piece.prose ['\n']).cons (pieces false t) := by
  have hline := blankLineAfter_command [] endName name blank
  rw [List.nil_append] at hline
  rw [command_append, pieces_of_read_eq (read_end hname blank t), hline]

/-- A list that is never closed. -/
theorem pieces_begin_of_none {name t : Text} (hname : isListName name = true)
    (h : Closing.find? name 0 false t = none) (blank : Bool) :
    pieces blank (command beginName name ++ t) = (Piece.prose ['\n']).cons (pieces false t) := by
  have hread := read_begin hname blank t
  rw [h] at hread
  have hline := blankLineAfter_command [] beginName name blank
  rw [List.nil_append] at hline
  rw [command_append, pieces_of_read_eq hread, hline]

/-- A list and what follows it. -/
theorem pieces_begin_of_some {name t : Text} {closing : Closing} (hname : isListName name = true)
    (h : Closing.find? name 0 false t = some closing) (blank : Bool) :
    pieces blank (command beginName name ++ t) =
      (Piece.environment name closing.content).cons (pieces false closing.after) := by
  have hread := read_begin hname blank t
  rw [h] at hread
  obtain ⟨x, hx⟩ := Closing.source_find? h
  rw [command_append, pieces_of_read_eq hread, hx, ← List.append_assoc, blankLineAfter_brace]

/-! ### Reading through list markup -/

/-- With the prose `w` pending, the comment between `a` and `b` makes no difference. -/
def Transparent (w a c b : Text) (blank : Bool) (seen : Nat) : Prop :=
  readPieces parseBlocks ((Piece.prose w).cons (pieces blank (a ++ (commentLine c ++ b)))) seen =
    readPieces parseBlocks ((Piece.prose w).cons (pieces blank (a ++ b))) seen

/-- The line break in front of the comment ends the paragraph `w`, or nothing would. -/
def GapKept (w a b : Text) : Prop :=
  Text.blankLineAfter w.isBlankText a.dropLast = true ∨ ¬ SingleBlankLine b

/-- The comment is transparent behind whatever `a` starts with. -/
def TransparentBehind (a c b : Text) : Prop :=
  ∀ x a' v blank seen, a = x ++ a' → x ≠ [] → escapedAfter false x = false → a' ≠ [] → GapKept v a' b →
    Transparent v a' c b blank seen

section Transparent

variable {w a a' b c : Text} {blank blank' : Bool} {seen : Nat}

/-- A look that adds prose to the paragraph. -/
theorem Transparent.of_prose {p : Text} (h : Transparent (w ++ p) a' c b blank' seen)
    (hpieces : ∀ t, t = commentLine c ++ b ∨ t = b →
      pieces blank (a ++ t) = (Piece.prose p).cons (pieces blank' (a' ++ t))) : Transparent w a c b blank seen := by
  unfold Transparent
  rw [hpieces _ (.inl rfl), hpieces _ (.inr rfl), prose_cons_prose_cons, prose_cons_prose_cons]
  exact h

/-- Behind a gap nothing is pending. -/
theorem Transparent.of_nil (h : Transparent [] a c b blank seen) :
    readPieces parseBlocks (pieces blank (a ++ (commentLine c ++ b))) seen =
      readPieces parseBlocks (pieces blank (a ++ b)) seen := by
  unfold Transparent at h
  rwa [readPieces_blank_cons _ rfl, readPieces_blank_cons _ rfl] at h

/-- Behind something that is no blank line of its own it does not matter what was pending. -/
theorem GapKept.of_solid {x v : Text} (h : GapKept w (x ++ a) b) (hne : a ≠ [])
    (hx : ∀ blank, Text.blankLineAfter blank x = false) : GapKept v a b := by
  refine h.imp_left fun hblank => ?_
  rw [List.dropLast_append_of_ne_nil hne, Text.blankLineAfter_append, hx] at hblank
  cases v.isBlankText with
  | true => exact blankLineAfter_mono hblank
  | false => exact hblank

theorem GapKept.of_char {d : Char} (h : GapKept w (d :: a) b) (hne : a ≠ []) (hd : d ≠ '\n') :
    GapKept (w ++ [d]) a b := by
  refine h.imp_left fun hblank => ?_
  have hstep : Text.blankLineStep w.isBlankText d = Text.isBlankText (w ++ [d]) := by
    rw [Text.blankLineStep, if_neg hd, Text.isBlankText_append]
    simp [Text.isBlankText]
  rwa [List.dropLast_cons_of_ne_nil hne, Text.blankLineAfter_cons, hstep] at hblank

theorem GapKept.of_break (h : GapKept w ('\n' :: a) b) (hlast : a.getLast? = some '\n')
    (hline : a.firstLine.1.isBlankText = false) (v : Text) : GapKept v a b := by
  refine h.imp_left fun hblank => ?_
  have hne : a ≠ [] := by
    rintro rfl
    simp at hlast
  rw [List.dropLast_cons_of_ne_nil hne, Text.blankLineAfter_cons] at hblank
  rcases blankLineAfter_false_or hblank with hfalse | hall
  · cases v.isBlankText with
    | true => exact hblank
    | false => exact hfalse
  · -- The first line of a blank text is blank.
    obtain ⟨x, rfl⟩ := List.getLast?_eq_some_iff.1 hlast
    rw [List.dropLast_concat] at hall
    have hblank : Text.isBlankText (x ++ ['\n']) = true := by
      rw [Text.isBlankText_append, hall]
      rfl
    rw [← Text.firstLine_append (x ++ ['\n']), Text.isBlankText_append, hline] at hblank
    exact absurd hblank Bool.false_ne_true

theorem gapKept_nil (h : CommentBetween a c b) : GapKept [] a b := h.gap

/-- The line break in front of the comment. -/
theorem transparent_lastBreak (hline : '\n' ∉ c) (hgap : GapKept w ['\n'] b) (blank : Bool) (seen : Nat) :
    Transparent w ['\n'] c b blank seen := by
  have hvisible : Text.isBlankText (Text.firstLine (commentLine c ++ b)).1 = false := by
    have hpercent : isBlank '%' = false := by decide
    simp [commentLine, Text.firstLine, Text.isBlankText, hpercent]
  unfold Transparent
  rw [List.singleton_append, List.singleton_append, pieces_break hvisible, pieces_commentLine hline,
    prose_cons_prose_cons, prose_cons_prose_cons, List.append_nil]
  cases hblank : b.firstLine.1.isBlankText with
  | false => rw [pieces_break hblank, prose_cons_prose_cons]
  | true =>
    rw [readPieces_prose_break parseBlocks w hblank]
    rcases hgap with hw | hsingle
    · have hw : w.isBlankText = true := hw
      have hnewline : Text.isBlankText (w ++ ['\n']) = true := by
        rw [Text.isBlankText_append, hw]
        rfl
      rw [readPieces_blank_cons _ hnewline, paragraph?_of_blank hw]
      rfl
    · rw [readPieces_prose_blankLine parseBlocks w hblank hsingle]

/-- A break, when the comment is transparent behind it. -/
theorem CommentBetween.transparent_break (h : CommentBetween ('\n' :: a) c b) (hne : a ≠ [])
    (hgap : GapKept w ('\n' :: a) b)
    (hrest : TransparentBehind ('\n' :: a) c b) :
    Transparent w ('\n' :: a) c b blank seen := by
  have hbehind : ∀ v, GapKept v a b → Transparent v a c b true seen := fun v =>
    hrest ['\n'] a v true seen rfl (by simp) rfl hne
  have hlast : a.getLast? = some '\n' := by
    have hlast := h.last
    rwa [List.getLast?_cons_of_ne_nil hne] at hlast
  have hfirst : ∀ t, Text.firstLine (a ++ t) = (a.firstLine.1, a.firstLine.2 ++ t) := by
    intro t
    cases hdrop : a.dropWhile (· ≠ '\n') with
    | nil =>
      have hmem := List.dropWhile_eq_nil_iff.1 hdrop _ (List.mem_of_getLast? hlast)
      simp at hmem
    | cons d s =>
      obtain ⟨hdrop', htake⟩ := dropWhile_append_of_cons hdrop t
      rw [Text.firstLine, Text.firstLine, hdrop', htake, hdrop]
  cases hline : a.firstLine.1.isBlankText with
  | false =>
    refine (hbehind _ (hgap.of_break hlast hline _)).of_prose (p := ['\n']) fun t _ => ?_
    rw [List.cons_append, pieces_break (by rw [hfirst, hline])]
  | true =>
    -- The paragraph ends here, with the comment and without it.
    have hnil : GapKept [] a b := by
      rw [← List.append_nil b] at h
      exact gapKept_nil (h.of_append (x := ['\n']) rfl hne)
    have hend : ∀ t, readPieces parseBlocks ((Piece.prose w).cons (pieces blank ('\n' :: a ++ t))) seen = _ :=
      fun t => readPieces_prose_break parseBlocks w (t := a ++ t) (by rw [hfirst, hline]) blank seen
    unfold Transparent
    rw [hend, hend, (hbehind [] hnil).of_nil]

/-- A stray item whose label ends in front of the comment; so do the gaps behind it. -/
theorem CommentBetween.transparent_label {label : Text} (h : CommentBetween ('\\' :: (itemName ++ (label ++ a))) c b)
    (hletter : ∀ d ∈ (label ++ a).head?, Text.isLetter d = false) (hne : a ≠ [])
    (hfresh : escapedAfter false label = false) (hsolid : label = [] ∨ ∃ x, label = x ++ [']'])
    (hlabel : ∀ t, t = commentLine c ++ b ∨ t = b → itemLabel (label ++ a ++ t) = (label, a ++ t))
    (hgap : GapKept w ('\\' :: (itemName ++ (label ++ a))) b)
    (hrest : TransparentBehind ('\\' :: (itemName ++ (label ++ a))) c b) :
    Transparent w ('\\' :: (itemName ++ (label ++ a))) c b blank seen := by
  have hlast : a.getLast? = some '\n' := by
    have hlast := h.last
    rwa [← List.append_assoc, ← List.cons_append, List.getLast?_append_of_ne_nil _ hne] at hlast
  cases hdrop : a.dropWhile isGap with
  | nil =>
    have hgap := List.dropWhile_eq_nil_iff.1 hdrop _ (List.mem_of_getLast? hlast)
    exact absurd hgap (by decide)
  | cons d s =>
    have hgaps : ∀ e ∈ a.takeWhile isGap, isGap e = true :=
      fun e he => List.all_eq_true.1 List.all_takeWhile e he
    have hsource : escapedAfter false ('\\' :: itemName ++ label ++ a.takeWhile isGap) = false := by
      have hitem : escapedAfter false ('\\' :: itemName) = false := by decide
      rw [escapedAfter_append, escapedAfter_append, hitem, hfresh,
        escapedAfter_blank (isBlankText_takeWhile_isGap a)]
    have hsplit : '\\' :: (itemName ++ (label ++ a)) = '\\' :: itemName ++ label ++ a.takeWhile isGap ++ d :: s := by
      conv => lhs; rw [← List.takeWhile_append_dropWhile (p := isGap) (l := a), hdrop]
      simp
    refine Transparent.of_prose (p := ['\n', '•', ' '])
      (hrest _ (d :: s) _ false _ hsplit (by simp) hsource (by simp) ?_) fun t ht => ?_
    · rw [hsplit] at hgap
      exact hgap.of_solid (by simp) (blankLineAfter_item hsolid hgaps)
    · have hhead : ∀ e ∈ (label ++ a ++ t).head?, Text.isLetter e = false := by
        rwa [List.head?_append_of_ne_nil _ (by simp [hne])]
      rw [List.cons_append, List.append_assoc, pieces_item hhead (hlabel t ht) hsolid,
        (dropWhile_append_of_cons hdrop t).1]

/-- A stray item, when the comment is transparent behind it. -/
theorem CommentBetween.transparent_item (h : CommentBetween ('\\' :: (itemName ++ a)) c b)
    (hletter : ∀ d ∈ a.head?, Text.isLetter d = false) (hne : a ≠ [])
    (hgap : GapKept w ('\\' :: (itemName ++ a)) b) (hrest : TransparentBehind ('\\' :: (itemName ++ a)) c b) :
    Transparent w ('\\' :: (itemName ++ a)) c b blank seen := by
  have hlast : a.getLast? = some '\n' := by
    have hlast := h.last
    rwa [← List.cons_append, List.getLast?_append_of_ne_nil _ hne] at hlast
  have hhead : ∀ t, ∀ d ∈ (a ++ t).head?, Text.isLetter d = false := by
    intro t
    rwa [List.head?_append_of_ne_nil _ hne]
  have hempty : CommentBetween ('\\' :: (itemName ++ ([] ++ a))) c b := h
  have hunlabelled : (∀ t, t = commentLine c ++ b ∨ t = b → itemLabel (a ++ t) = ([], a ++ t)) →
      Transparent w ('\\' :: (itemName ++ a)) c b blank seen := fun hlabel =>
    hempty.transparent_label hletter hne rfl (.inl rfl) hlabel hgap hrest
  cases labelRead hlast (escapedAfter_of_getLast? hlast (by decide) false) with
  | inside label a' htext hne' hfresh hsolid hlabel =>
    subst htext
    exact h.transparent_label hletter hne' hfresh hsolid (fun t _ => hlabel t) hgap hrest
  | atEnd gaps htext hgaps hlabel =>
    refine hunlabelled fun t ht => hlabel t ?_
    rcases ht with rfl | rfl
    · exact head?_dropWhile_commentLine c b
    · exact h.label [] [] gaps (by simp [htext]) (.inl rfl) hgaps
  | beyond x depth braces hbracket hlabel =>
    have hplain := h.brackets (by simp [hbracket])
    have hlong := hlabel (commentLine c ++ b)
    rw [closeBracket?_commentLine hplain] at hlong
    have hshort := hlabel b
    cases hclose : closeBracket? depth braces b with
    | none =>
      rw [hclose] at hlong hshort
      refine hunlabelled fun t ht => ?_
      rcases ht with rfl | rfl
      · exact hlong
      · exact hshort
    | some p =>
      -- The label closes behind the comment, and the rest is the same.
      rw [hclose] at hlong hshort
      have hlong := pieces_item (hhead _) hlong (.inr ⟨x ++ (commentLine c ++ p.1), by simp⟩) blank
      have hshort := pieces_item (hhead _) hshort (.inr ⟨x ++ p.1, by simp⟩) blank
      unfold Transparent
      rw [List.cons_append, List.append_assoc, hlong, List.cons_append, List.append_assoc, hshort]

/-- What stands in front of the comment does not end with a marker. -/
theorem CommentBetween.behind_command_ne_nil {x word name : Text}
    (h : CommentBetween (x ++ (command word name ++ a)) c b) : a ≠ [] := by
  have hbrace : x ++ (command word name ++ a) = x ++ '\\' :: (word ++ '{' :: name) ++ '}' :: a := by simp [command]
  rw [hbrace] at h
  exact h.behind_ne_nil (by decide)

/-- A list that is closed in front of the comment. -/
theorem CommentBetween.transparent_closed {name content : Text}
    (h : CommentBetween (command beginName name ++ content ++ (command endName name ++ a)) c b)
    (hname : isListName name = true) (hcontent : escapedAfter false content = false)
    (hfind : ∀ t, Closing.find? name 0 false (content ++ (command endName name ++ a) ++ t) =
      some ⟨content, command endName name, a ++ t⟩)
    (hgap : GapKept w (command beginName name ++ content ++ (command endName name ++ a)) b)
    (hrest : TransparentBehind (command beginName name ++ content ++ (command endName name ++ a)) c b) :
    Transparent w (command beginName name ++ content ++ (command endName name ++ a)) c b blank seen := by
  have hisname := isName_of_isListName hname
  have hfresh : ∀ {word}, word = beginName ∨ word = endName → escapedAfter false (command word name) = false :=
    fun hword => (quiet_marker hword hisname.plain).escapedAfter_eq
  have ha : a ≠ [] := h.behind_command_ne_nil
  rw [← List.append_assoc] at hgap
  have hgap' : GapKept [] a b := hgap.of_solid ha fun blank => blankLineAfter_command _ endName name blank
  have hbehind : ∀ seen, Transparent [] a c b false seen := by
    intro seen
    refine hrest (command beginName name ++ content ++ command endName name) a [] false seen
      (List.append_assoc _ _ _).symm (by simp [command]) ?_ ha hgap'
    rw [escapedAfter_append, escapedAfter_append, hfresh (.inl rfl), hcontent, hfresh (.inr rfl)]
  have hlist : ∀ t, pieces blank (command beginName name ++ content ++ (command endName name ++ a) ++ t) =
      (Piece.environment name content).cons (pieces false (a ++ t)) := by
    intro t
    rw [List.append_assoc _ content, List.append_assoc, pieces_begin_of_some hname (hfind t)]
  unfold Transparent
  simp only [hlist, readPieces_prose_environment, (hbehind _).of_nil]

/-- A list that is closed behind the comment reads alike, when shorter texts do. -/
theorem CommentBetween.transparent_around {name : Text} {closing : Closing}
    (h : CommentBetween (command beginName name ++ a) c b) (hname : isListName name = true)
    (hshorter : ∀ t t' : Text, Beside c t t' → t'.length < (command beginName name ++ a ++ b).length → ∀ seen,
      parseBlocks t seen = parseBlocks t' seen)
    (hb : closing.content ++ closing.source ++ closing.after = b)
    (hlong : Closing.find? name 0 false (a ++ (commentLine c ++ b)) =
      some ⟨a ++ (commentLine c ++ closing.content), closing.source, closing.after⟩)
    (hshort : Closing.find? name 0 false (a ++ b) = some ⟨a ++ closing.content, closing.source, closing.after⟩) :
    Transparent w (command beginName name ++ a) c b blank seen := by
  have hne : command beginName name ≠ [] := by simp [command]
  have hfresh : escapedAfter false (command beginName name) = false :=
    (quiet_marker (.inl rfl) (isName_of_isListName hname).plain).escapedAfter_eq
  have ha : a ≠ [] := CommentBetween.behind_command_ne_nil (x := []) h
  have hquiet := h.quiet (by simp [command])
  have hcontent : CommentBetween a c closing.content := by
    rw [← hb, List.append_assoc] at h
    exact h.of_append hfresh ha
  have hlt : (a ++ closing.content).length < (command beginName name ++ a ++ b).length := by
    have hpos := List.length_pos_iff.2 hne
    rw [← hb]
    simp only [List.length_append]
    omega
  have heq := hcontent.readEnvironment_eq hname hquiet fun t t' ht hle =>
    hshorter t t' ht (Nat.lt_of_le_of_lt hle hlt)
  unfold Transparent
  rw [List.append_assoc, List.append_assoc, pieces_begin_of_some hname hlong, pieces_begin_of_some hname hshort,
    readPieces_prose_environment, readPieces_prose_environment, heq]

/-- A marker of a list, when the comment is transparent behind it and in the list. -/
theorem CommentBetween.transparent_marker {word name : Text} (h : CommentBetween (command word name ++ a) c b)
    (hword : word = beginName ∨ word = endName) (hname : isListName name = true) (hmarkup : ListMarkup a)
    (hshorter : ∀ t t' : Text, Beside c t t' → t'.length < (command word name ++ a ++ b).length → ∀ seen,
      parseBlocks t seen = parseBlocks t' seen)
    (hgap : GapKept w (command word name ++ a) b) (hrest : TransparentBehind (command word name ++ a) c b) :
    Transparent w (command word name ++ a) c b blank seen := by
  have hfresh : escapedAfter false (command word name) = false :=
    (quiet_marker hword (isName_of_isListName hname).plain).escapedAfter_eq
  have ha : a ≠ [] := CommentBetween.behind_command_ne_nil (x := []) h
  have hbehind : Transparent (w ++ ['\n']) a c b false seen := by
    refine hrest _ a _ false seen rfl (by simp [command]) hfresh ha (hgap.of_solid ha fun blank => ?_)
    exact blankLineAfter_command [] word name blank
  rcases hword with rfl | rfl
  · cases hmarkup.closingSearch name 0 with
    | inside content a' htext hcontent hfind =>
      have hwhole : command beginName name ++ a =
          command beginName name ++ content ++ (command endName name ++ a') := by simp [htext]
      rw [hwhole] at h hgap hrest ⊢
      rw [htext] at hfind
      exact h.transparent_closed hname hcontent hfind hgap hrest
    | beyond depth hfind =>
      have hcomment : Closing.find? name depth false (commentLine c ++ b) = _ :=
        Closing.find?_quiet_append (h.quiet (by simp [command]) _ (.inl rfl)) name b depth
      cases hclose : Closing.find? name depth false b with
      | none =>
        -- The list is not closed at all.
        have hnone : ∀ t, t = commentLine c ++ b ∨ t = b → Closing.find? name 0 false (a ++ t) = none := by
          rintro t (rfl | rfl)
          · rw [hfind, hcomment, hclose]
            rfl
          · rw [hfind, hclose]
            rfl
        refine hbehind.of_prose fun t ht => ?_
        rw [List.append_assoc, pieces_begin_of_none hname (hnone t ht)]
      | some closing =>
        -- The comment is in the list.
        refine h.transparent_around hname hshorter (Closing.text_find? hclose) ?_ ?_
        · rw [hfind, hcomment, hclose]
          simp [Closing.behind]
        · rw [hfind, hclose]
          simp [Closing.behind]
  · refine hbehind.of_prose fun t _ => ?_
    rw [List.append_assoc, pieces_end hname]

/-- **The comment is transparent behind list markup,** whatever prose is pending, when it is in shorter
texts. -/
theorem CommentBetween.transparent (h : CommentBetween a c b)
    (hshorter : ∀ t t' : Text, Beside c t t' → t'.length < (a ++ b).length → ∀ seen,
      parseBlocks t seen = parseBlocks t' seen)
    (hgap : GapKept w a b) (blank : Bool) (seen : Nat) : Transparent w a c b blank seen := by
  induction hlen : a.length using Nat.strong_induction_on generalizing a w blank seen with
  | _ n ih =>
    subst hlen
    -- What follows something in `a` is shorter.
    have hpart : TransparentBehind a c b := by
      rintro x a' v blank seen rfl hx hfresh ha' hgap
      have hlt : a'.length < (x ++ a').length := by
        have := List.length_pos_iff.2 hx
        rw [List.length_append]
        omega
      rw [← List.append_nil b] at h
      refine ih a'.length hlt (h.of_append hfresh ha') (fun t t' ht hlt' => hshorter t t' ht ?_) hgap blank seen rfl
      rw [List.append_assoc, List.length_append]
      omega
    have hmarkup := h.markup
    cases hmarkup with
    | nil => exact absurd rfl h.ne_nil
    | @char d w' hd hw =>
      have hslash : d ≠ '\\' := fun heq => hd (heq ▸ List.mem_cons_self ..)
      have hfresh : escapedAfter false [d] = false := by
        rw [escapedAfter_cons_of_ne hslash]
        rfl
      by_cases hnewline : d = '\n'
      · subst hnewline
        by_cases hw' : w' = []
        · subst hw'
          exact transparent_lastBreak h.line hgap blank seen
        · exact h.transparent_break hw' hgap hpart
      · have hw' : w' ≠ [] := by
          rintro rfl
          exact hnewline (Option.some.inj h.last)
        have hspecial : d ∉ ['\n', '\\', '$', '%'] := by
          intro hmem
          rcases List.mem_cons.1 hmem with hmem | hmem
          · exact hnewline hmem
          · exact hd hmem
        have hrest : Transparent (w ++ [d]) w' c b (Text.blankLineAfter blank [d]) seen :=
          hpart [d] w' _ _ seen rfl (by simp) hfresh hw' (hgap.of_char hw' hnewline)
        refine hrest.of_prose (p := [d]) fun t _ => ?_
        rw [List.cons_append, pieces_of_read_eq (read_char hspecial blank _)]
    | @item d w' hd hw =>
      exact h.transparent_item (by simpa using hd) (by simp) hgap hpart
    | @marker word name w' hword hname hw =>
      exact h.transparent_marker hword hname hw hshorter hgap hpart

end Transparent

/-! ### Transparency -/

theorem CommentBetween.parseBlocks_eq {a b c : Text} (h : CommentBetween a c b) (seen : Nat) :
    parseBlocks (a ++ (commentLine c ++ b)) seen = parseBlocks (a ++ b) seen := by
  induction hlen : (a ++ b).length using Nat.strong_induction_on generalizing a b seen with
  | _ n ih =>
    subst hlen
    rw [CribSheet.parseBlocks_eq, CribSheet.parseBlocks_eq]
    refine (h.transparent (fun t t' ht hlt seen => ?_) (gapKept_nil h) true seen).of_nil
    rcases ht with rfl | ⟨a', b', h', rfl, rfl⟩
    · rfl
    · exact ih _ hlt h' seen rfl

/-- **A comment on a line of its own is transparent,** at the start of a text and wherever it may stand
behind list markup. -/
theorem parseBlocks_comment_line {a b c : Text} (hline : '\n' ∉ c) (h : a = [] ∨ CommentBetween a c b)
    (seen : Nat) : parseBlocks (a ++ (commentLine c ++ b)) seen = parseBlocks (a ++ b) seen := by
  rcases h with rfl | h
  · rw [List.nil_append, List.nil_append, parseBlocks_eq, parseBlocks_eq, pieces_commentLine hline,
      readPieces_blank_cons _ rfl]
  · exact h.parseBlocks_eq seen

/-- A comment between the items of a list. -/
theorem comment_between_items :
    let a : Text := "\\begin\x7bitemize\x7d\n\\item a\n".toList
    let b : Text := "\\item b\n\\end\x7bitemize\x7d".toList
    '\n' ∉ " nota".toList ∧ CommentBetween a " nota".toList b ∧
      parseBlocks (a ++ (commentLine " nota".toList ++ b)) 0 = parseBlocks (a ++ b) 0 := by
  intro a b
  have hitem : ListMarkup "\n\\item a\n".toList :=
    .char (by decide) (.item (c := ' ') (by decide)
      (.char (by decide) (.char (by decide) (.char (by decide) .nil))))
  have hmarkup : ListMarkup (command beginName itemizeName ++ "\n\\item a\n".toList) :=
    .marker (.inl rfl) (by decide) hitem
  have hline : '\n' ∉ " nota".toList := by decide
  have h : CommentBetween a " nota".toList b :=
    { markup := hmarkup
      last := by decide
      line := hline
      quiet := fun _ names _ => quiet_of_no_backslash (by decide)
      brackets := fun hmem => absurd hmem (by decide)
      label := fun _ _ _ _ _ _ => by decide
      gap := .inr fun hsingle => absurd hsingle.1 (by decide) }
  exact ⟨hline, h, parseBlocks_comment_line hline (.inr h) 0⟩

/-- **A comment in front of a blank line joins two paragraphs,** where that line would end the first
one. -/
theorem comment_joins_paragraphs :
    (parseBlocks ("uno\n".toList ++ (commentLine [] ++ "\ndos".toList)) 0).1.length = 1 ∧
      (parseBlocks ("uno\n".toList ++ "\ndos".toList) 0).1.length = 2 := by
  decide +kernel

end CribSheet
