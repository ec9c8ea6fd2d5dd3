/-
Running text.

Running text is what inlines are written as.  The scanners of this library go through it without finding
anything: it holds no item, no marker and no delimiter of the groups around it.  So a search through
running text and more is a search through what follows it.

Main definitions:

* `CribSheet.Running` — running text in which some groups are open at the start and none at the end;
* `CribSheet.Quiet` — a text in which no command with one of some names is found.

Main results:

* `CribSheet.running_writeInlines` — written inlines are running text;
* `CribSheet.Running.closeBrace?_append`, `CribSheet.Running.quiet`, `CribSheet.Running.pieces_append` —
  scanners go through it.
-/
import CribSheet.Proofs.Display.Writing
import CribSheet.Proofs.Payload.Argument

set_option relaxedAutoImplicit false
set_option autoImplicit false

namespace CribSheet

open CribSheet.Markup
open CribSheet.Identity (Plain)

/-! ### Running text -/

/-- A character that stands for itself. -/
def IsProse (c : Char) : Prop := c ∉ markupChars

/-- **Running text:** `depth` groups are open where it starts, and none where it ends. -/
inductive Running : (depth : Nat) → Text → Prop
  | nil : Running 0 []
  | char {depth : Nat} {c : Char} {w : Text} (hc : IsProse c) (h : Running depth w) :
    Running depth (c :: w)
  | style {depth : Nat} {w : Text} (s : Style) (h : Running (depth + 1) w) :
    Running depth ('\\' :: (s.command ++ '{' :: w))
  | close {depth : Nat} {w : Text} (h : Running depth w) : Running (depth + 1) ('}' :: w)
  | math {depth : Nat} {body w : Text} (hne : body ≠ []) (hbody : Plain body) (hdollar : '$' ∉ body)
    (h : Running depth w) : Running depth ('$' :: (body ++ '$' :: w))
  | link {depth : Nat} {url w : Text} (hurl : Plain url) (h : Running depth w) :
    Running depth ('\\' :: (urlName ++ '{' :: (url ++ '}' :: w)))
  | lineBreak {depth : Nat} {w : Text} (h : Running depth w) : Running depth ('\\' :: '\\' :: w)

theorem Running.text_append {depth : Nat} {t w : Text} (ht : ∀ c ∈ t, IsProse c) (h : Running depth w) :
    Running depth (t ++ w) := by
  induction t with
  | nil => exact h
  | cons c t ih =>
    exact .char (ht c (List.mem_cons_self ..)) (ih fun d hd => ht d (List.mem_cons_of_mem _ hd))

/-- **Written inlines are running text.** -/
theorem running_writeInlines {is : List Inline} (hn : areNormal is = true) {depth : Nat} {w : Text}
    (h : Running depth w) : Running depth (writeInlines is ++ w) := by
  cases is with
  | nil => simpa [writeInlines] using h
  | cons i rest =>
    obtain ⟨hi, -, hrest⟩ := areNormal_cons_iff.1 hn
    have hw := running_writeInlines hrest h
    simp only [writeInlines, List.append_assoc]
    cases i with
    | text t => exact hw.text_append (Inline.isNormal_text_iff.1 hi).2
    | strong children =>
      have hchildren : areNormal children = true := by simpa only [Inline.isNormal] using hi
      have hinner := running_writeInlines hchildren hw.close
      simpa [Inline.write, command] using Running.style .strong hinner
    | emphasis children =>
      have hchildren : areNormal children = true := by simpa only [Inline.isNormal] using hi
      have hinner := running_writeInlines hchildren hw.close
      simpa [Inline.write, command] using Running.style .emphasis hinner
    | math body =>
      obtain ⟨hne, hbody⟩ := Inline.isNormal_math_iff.1 hi
      have hplain : Plain body := fun c hc hspecial => hbody c hc (List.Sublist.subset (by decide) hspecial)
      have hdollar : '$' ∉ body := fun h => hbody _ h (by decide)
      simpa [Inline.write] using Running.math hne hplain hdollar hw
    | link url => simpa [Inline.write, command] using Running.link (Inline.isNormal_link_iff.1 hi).2 hw
    | lineBreak => exact .lineBreak hw
termination_by sizeOf is

theorem running_of_areNormal {is : List Inline} (hn : areNormal is = true) : Running 0 (writeInlines is) := by
  simpa using running_writeInlines hn .nil

/-! ### Groups -/

theorem ne_of_isProse {c d : Char} (hc : IsProse c) (hd : d ∈ markupChars) : c ≠ d :=
  fun h => hc (h ▸ hd)

theorem plain_command (s : Style) : Plain s.command := by
  cases s <;> (unfold Plain; decide)

theorem style_command_ne_nil (s : Style) : s.command ≠ [] := by
  cases s <;> decide

/-- A word in a group is passed over. -/
theorem closeBrace?_word {name : Text} (hne : name ≠ []) (hname : Plain name) (depth : Nat) (t : Text) :
    closeBrace? depth ('\\' :: (name ++ t)) =
      (closeBrace? depth t).map fun p => ('\\' :: (name ++ p.1), p.2) := by
  obtain ⟨c, name, rfl⟩ := List.exists_cons_of_ne_nil hne
  have htail : Plain name := fun d hd => hname d (List.mem_cons_of_mem _ hd)
  rw [List.cons_append, closeBrace?_pair, closeBrace?_plain_append htail, Option.map_map]
  rfl

/-- A command in a group opens a group in it. -/
theorem closeBrace?_command {name : Text} (hne : name ≠ []) (hname : Plain name) (depth : Nat) (t : Text) :
    closeBrace? depth ('\\' :: (name ++ '{' :: t)) =
      (closeBrace? (depth + 1) t).map fun p => ('\\' :: (name ++ '{' :: p.1), p.2) := by
  rw [closeBrace?_word hne hname, closeBrace?_open, Option.map_map]
  rfl

namespace Running

/-- Groups around running text are closed behind it. -/
theorem closeBrace?_append {depth : Nat} {w : Text} (h : Running depth w) (outer : Nat) (rest : Text) :
    closeBrace? (depth + outer) (w ++ rest) = (closeBrace? outer rest).map fun p => (w ++ p.1, p.2) := by
  induction h with
  | nil => simp
  | @char depth c w hc _ ih =>
    have hslash := ne_of_isProse hc (d := '\\') (by decide)
    have hopen := ne_of_isProse hc (d := '{') (by decide)
    have hclose := ne_of_isProse hc (d := '}') (by decide)
    rw [List.cons_append, closeBrace?.eq_def]
    simp only [hslash, hopen, hclose, if_false, ih, Option.map_map]
    rfl
  | @style depth w s _ ih =>
    rw [Nat.add_right_comm] at ih
    rw [List.cons_append, List.append_assoc, List.cons_append,
      closeBrace?_command (style_command_ne_nil s) (plain_command s), ih, Option.map_map]
    simp [Function.comp_def]
  | @close depth w _ ih =>
    rw [Nat.add_right_comm, List.cons_append, closeBrace?_close, ih, Option.map_map]
    rfl
  | @math depth body w hne hbody hdollar _ ih =>
    have hinner : Plain ('$' :: (body ++ ['$'])) := by
      intro c hc
      simp only [List.mem_cons, List.mem_append, List.not_mem_nil, or_false] at hc
      rcases hc with rfl | hc | rfl
      · decide
      · exact hbody c hc
      · decide
    have hsplit : '$' :: (body ++ '$' :: w) = '$' :: (body ++ ['$']) ++ w := by simp
    rw [hsplit, List.append_assoc, closeBrace?_plain_append hinner, ih, Option.map_map]
    simp [Function.comp_def]
  | @link depth url w hurl _ ih =>
    have hname : Plain urlName := by unfold Plain; decide
    simp only [List.cons_append, List.append_assoc]
    rw [closeBrace?_command (by decide) hname, closeBrace?_plain_append hurl, closeBrace?_close,
      ih]
    simp [Function.comp_def]
  | lineBreak _ ih =>
    rw [List.cons_append, List.cons_append, closeBrace?_pair, ih, Option.map_map]
    rfl

end Running

/-! ### Arguments -/

/-- An argument directly behind its command is read up to the brace that closes it. -/
theorem argument_read?_brace {inner rest : Text} (h : closeBrace? 0 (inner ++ '}' :: rest) = some (inner, rest)) :
    Argument.read? ('{' :: (inner ++ '}' :: rest)) = some ⟨[], inner, rest⟩ := by
  have hspace : argumentSpace ('{' :: (inner ++ '}' :: rest)) = ([], '{' :: (inner ++ '}' :: rest)) := rfl
  rw [Argument.read?, hspace, Group.read?, if_pos rfl, h]
  rfl

theorem Running.argument_read? {w : Text} (h : Running 0 w) (rest : Text) :
    Argument.read? ('{' :: (w ++ '}' :: rest)) = some ⟨[], w, rest⟩ := by
  refine argument_read?_brace ?_
  have happend := h.closeBrace?_append 0 ('}' :: rest)
  rw [Nat.add_zero, closeBrace?_end] at happend
  simpa using happend

theorem argument_read?_plain {inner : Text} (h : Plain inner) (rest : Text) :
    Argument.read? ('{' :: (inner ++ '}' :: rest)) = some ⟨[], inner, rest⟩ :=
  argument_read?_brace (Identity.closeBrace?_plain h rest)

/-! ### Pieces -/

/-- Prose in front of pieces. -/
def proseBefore (w : Text) (ps : List Piece) : List Piece :=
  if w = [] then ps else (Piece.prose w).cons ps

theorem prose_cons_prose_cons (a b : Text) (ps : List Piece) :
    (Piece.prose a).cons ((Piece.prose b).cons ps) = (Piece.prose (a ++ b)).cons ps := by
  cases ps with
  | nil => rfl
  | cons p ps =>
    cases p with
    | prose u => simp [Piece.cons]
    | gap | heading | math | environment => rfl

theorem prose_cons_proseBefore {a : Text} (ha : a ≠ []) (b : Text) (ps : List Piece) :
    (Piece.prose a).cons (proseBefore b ps) = proseBefore (a ++ b) ps := by
  unfold proseBefore
  by_cases hb : b = []
  · simp [hb, ha]
  · rw [if_neg hb, if_neg (by simp [ha]), prose_cons_prose_cons]

theorem pieces_cons (blank : Bool) (c : Char) (t : Text) :
    pieces blank (c :: t) = (Reading.read blank c t).piece.cons
      (pieces (Text.blankLineAfter blank (Reading.read blank c t).source) (Reading.read blank c t).rest) := by
  rw [pieces]

theorem pieces_of_read_eq {blank : Bool} {c : Char} {t a rest : Text} {p : Piece}
    (h : Reading.read blank c t = ⟨a, p, rest⟩) :
    pieces blank (c :: t) = p.cons (pieces (Text.blankLineAfter blank a) rest) := by
  rw [pieces_cons, h]

section Looks

variable (blank : Bool) (t : Text)

theorem Reading.read_newline : Reading.read blank '\n' t = Reading.ofBreak t := by
  rw [read.eq_def, if_neg (by decide), if_neg (by decide), if_neg (by decide), if_pos rfl]

theorem Reading.read_percent : Reading.read blank '%' t = Reading.ofComment blank t := by
  rw [read.eq_def, if_neg (by decide), if_neg (by decide), if_pos rfl]

theorem Reading.read_bracket :
    Reading.read blank '\\' ('[' :: t) = Reading.ofFormula true ['\\', '['] ['\\', ']'] t := by
  have hletter : Text.isLetter '[' = false := by decide
  rw [read.eq_def, if_pos rfl]
  simp only [hletter, Bool.false_eq_true, if_false, if_true]

theorem Reading.read_paren :
    Reading.read blank '\\' ('(' :: t) = Reading.ofFormula false ['\\', '('] ['\\', ')'] t := by
  have hletter : Text.isLetter '(' = false := by decide
  rw [read.eq_def, if_pos rfl]
  simp only [hletter, Bool.false_eq_true, Char.reduceEq, if_false, if_true]

theorem Reading.read_dollars : Reading.read blank '$' ('$' :: t) = Reading.ofFormula true ['$', '$'] ['$', '$'] t := by
  rw [read.eq_def, if_neg (by decide)]
  rfl

variable {t} in
theorem Reading.read_dollar (h : ∀ c ∈ t.head?, c ≠ '$') :
    Reading.read blank '$' t = Reading.ofFormula false ['$'] ['$'] t := by
  rw [read.eq_def, if_neg (by decide), if_pos rfl]
  split
  · exact absurd rfl (h '$' rfl)
  · rfl

end Looks

theorem read_char {c : Char} (hc : c ∉ ['\n', '\\', '$', '%']) (blank : Bool) (t : Text) :
    Reading.read blank c t = ⟨[c], .prose [c], t⟩ := by
  simp only [List.mem_cons, List.not_mem_nil, or_false, not_or] at hc
  rw [Reading.read.eq_def, if_neg hc.2.1, if_neg hc.2.2.1, if_neg hc.2.2.2, if_neg hc.1]

/-- A control word is read with its whole name. -/
theorem read_word {name rest : Text} (hne : name ≠ []) (hname : ∀ c ∈ name, Text.isLetter c = true)
    (hrest : ∀ c ∈ rest.head?, Text.isLetter c = false) (blank : Bool) :
    Reading.read blank '\\' (name ++ rest) = Reading.ofWord name rest := by
  obtain ⟨htake, hdrop⟩ := takeWhile_dropWhile_isLetter hname hrest
  obtain ⟨d, name, rfl⟩ := List.exists_cons_of_ne_nil hne
  rw [Reading.read.eq_def, if_pos rfl, List.cons_append]
  simp only [hname d (List.mem_cons_self ..), if_true]
  rw [← List.cons_append, htake, hdrop]

theorem findUnescaped?_dollar {body : Text} (hslash : '\\' ∉ body) (hdollar : '$' ∉ body) (t : Text) :
    findUnescaped? ['$'] (body ++ '$' :: t) = some (body, t) := by
  induction body with
  | nil => rfl
  | cons c body ih =>
    have hc : c ≠ '\\' := fun h => hslash (h ▸ List.mem_cons_self ..)
    have hd : '$' ≠ c := fun h => hdollar (h ▸ List.mem_cons_self ..)
    have ih := ih (fun h => hslash (List.mem_cons_of_mem _ h)) fun h => hdollar (List.mem_cons_of_mem _ h)
    rw [List.cons_append, findUnescaped?.eq_def]
    simp [Text.after?, hc, hd, ih]

theorem ofWord_style (s : Style) (rest : Text) :
    Reading.ofWord s.command rest = Reading.ofName s.command rest := by
  have hsection : isSectionName s.command = false := by cases s <;> decide
  unfold Reading.ofWord
  rw [if_neg (by cases s <;> decide), if_neg (by cases s <;> decide), hsection,
    if_neg Bool.false_ne_true, if_neg (by cases s <;> decide), if_neg (by cases s <;> decide)]

theorem read_style (s : Style) (blank : Bool) (t : Text) :
    Reading.read blank '\\' (s.command ++ '{' :: t) =
      ⟨'\\' :: s.command, .prose ('\\' :: s.command), '{' :: t⟩ := by
  have hletters : ∀ c ∈ s.command, Text.isLetter c = true := by cases s <;> decide
  rw [read_word (style_command_ne_nil s) hletters (by simp; decide), ofWord_style]
  rfl

theorem read_url {url : Text} (hurl : Plain url) (blank : Bool) (t : Text) :
    Reading.read blank '\\' (urlName ++ '{' :: (url ++ '}' :: t)) =
      ⟨'\\' :: (urlName ++ '{' :: (url ++ ['}'])), .prose ('\\' :: (urlName ++ '{' :: (url ++ ['}']))), t⟩ := by
  have hword : ∀ rest, Reading.ofWord urlName rest = Reading.ofUrl urlName rest := by
    intro rest
    have hsection : isSectionName urlName = false := by decide
    unfold Reading.ofWord
    rw [if_neg (by decide), if_neg (by decide), hsection, if_neg Bool.false_ne_true, if_neg (by decide)]
    exact if_pos rfl
  rw [read_word (by decide) (by decide) (by simp; decide), hword, Reading.ofUrl,
    argument_read?_plain hurl]
  rfl

theorem read_formula {body : Text} (hne : body ≠ []) (hslash : '\\' ∉ body) (hdollar : '$' ∉ body)
    (blank : Bool) (t : Text) :
    Reading.read blank '$' (body ++ '$' :: t) =
      ⟨'$' :: (body ++ ['$']), .prose ('$' :: (body ++ ['$'])), t⟩ := by
  obtain ⟨c, body, rfl⟩ := List.exists_cons_of_ne_nil hne
  have hc : ∀ d ∈ (c :: body ++ '$' :: t).head?, d ≠ '$' := by
    rintro d hd rfl
    exact hdollar (Option.some.inj hd ▸ List.mem_cons_self ..)
  rw [Reading.read_dollar blank hc, Reading.ofFormula, findUnescaped?_dollar hslash hdollar]
  rfl

/-- Running text is prose as it is written. -/
theorem Running.pieces_append {depth : Nat} {w : Text} (h : Running depth w) (blank : Bool) (rest : Text) :
    pieces blank (w ++ rest) = proseBefore w (pieces (Text.blankLineAfter blank w) rest) := by
  induction h generalizing blank with
  | nil => rfl
  | @char depth c w hc _ ih =>
    have hread := read_char (c := c) (fun h => hc (List.Sublist.subset (by decide) h)) blank (w ++ rest)
    rw [List.cons_append, pieces_of_read_eq hread, ih, prose_cons_proseBefore (List.cons_ne_nil _ _)]
    rfl
  | @style depth w s _ ih =>
    have hbrace := read_char (c := '{') (by decide) (Text.blankLineAfter blank ('\\' :: s.command)) (w ++ rest)
    rw [List.cons_append, List.append_assoc, List.cons_append,
      pieces_of_read_eq (read_style s blank (w ++ rest)), pieces_of_read_eq hbrace, ih,
      prose_cons_proseBefore (List.cons_ne_nil _ _), prose_cons_proseBefore (List.cons_ne_nil _ _)]
    simp [Text.blankLineAfter_append]
  | @close depth w _ ih =>
    have hread := read_char (c := '}') (by decide) blank (w ++ rest)
    rw [List.cons_append, pieces_of_read_eq hread, ih, prose_cons_proseBefore (List.cons_ne_nil _ _)]
    rfl
  | @math depth body w hne hbody hdollar _ ih =>
    have hread := read_formula hne hbody.slash_not_mem hdollar blank (w ++ rest)
    rw [List.cons_append, List.append_assoc, List.cons_append, pieces_of_read_eq hread, ih,
      prose_cons_proseBefore (List.cons_ne_nil _ _)]
    simp [Text.blankLineAfter_append]
  | @link depth url w hurl _ ih =>
    have hread := read_url hurl blank (w ++ rest)
    simp only [List.cons_append, List.append_assoc]
    rw [pieces_of_read_eq hread, ih, prose_cons_proseBefore (List.cons_ne_nil _ _)]
    simp [Text.blankLineAfter_append]
  | @lineBreak depth w _ ih =>
    have hread : Reading.read blank '\\' ('\\' :: (w ++ rest)) =
        ⟨['\\', '\\'], .prose ['\\', '\\'], w ++ rest⟩ := rfl
    rw [List.cons_append, List.cons_append, pieces_of_read_eq hread, ih,
      prose_cons_proseBefore (List.cons_ne_nil _ _)]
    rfl

/-! ### Directives -/

/-- The names that directives of a list are searched by: those of its markers, or that of its items. -/
def Directives (names : List Text) : Prop := names = [beginName, endName] ∨ names = [itemName]

/-- **A quiet text:** a search goes through it without finding a command and without an open escape. -/
def Quiet (names : List Text) (a : Text) : Prop :=
  ∀ t, Sighting.find? names false (a ++ t) = (Sighting.find? names false t).map (Sighting.within a [])

section Quiet

variable {names : List Text}

theorem quiet_nil : Quiet names [] := fun t => by
  cases h : Sighting.find? names false t <;> simp [Sighting.within, h]

theorem Quiet.append {a b : Text} (ha : Quiet names a) (hb : Quiet names b) : Quiet names (a ++ b) := by
  intro t
  rw [List.append_assoc, ha, hb, Option.map_map]
  congr 1
  funext s
  simp [Sighting.within]

theorem quiet_of_no_backslash {a : Text} (ha : '\\' ∉ a) : Quiet names a := fun t =>
  Sighting.find?_plain_append ha t

/-- A command with another name is quiet up to the character that ends its name. -/
theorem quiet_command (hnames : ∀ n ∈ names, ∀ c ∈ n, Text.isLetter c = true) {name : Text} {c : Char}
    (hends : EndsName [c]) (hslash : '\\' ≠ c)
    (hnone : Sighting.find? names false ('\\' :: name) = none)
    (hfresh : escapedAfter false ('\\' :: name) = false) : Quiet names ('\\' :: (name ++ [c])) := by
  intro t
  have hends : EndsName (c :: t) := endsName_cons.2 (endsName_cons.1 hends)
  have hchar : Sighting.find? names false (c :: t) = _ :=
    Sighting.find?_plain_append (x := [c]) (by simpa using hslash) t
  have hsplit : '\\' :: (name ++ [c]) ++ t = '\\' :: name ++ c :: t := by simp
  rw [hsplit, Sighting.find?_append hnames hends, hnone, hfresh, hchar, Option.map_none, Option.none_or,
    Option.map_map]
  congr 1
  funext s
  simp [Sighting.within]

/-- A backslash and a character that is no letter are quiet. -/
theorem quiet_escape (hnames : Directives names) {c : Char} (hc : Text.isLetter c = false) :
    Quiet names ['\\', c] := by
  intro t
  have hnone : Sighting.atName? names (c :: t) = none := by
    have hne : ∀ {d : Char}, Text.isLetter d = true → d ≠ c := by
      rintro d hd rfl
      simp [hd] at hc
    rcases hnames with rfl | rfl <;>
      simp [Sighting.atName?, Text.after?, beginName, endName, itemName, hne (d := 'b') (by decide),
        hne (d := 'e') (by decide), hne (d := 'i') (by decide)]
  have hskip : escapes true c = false := by simp [escapes]
  have hopen : escapes false '\\' = true := rfl
  rw [List.cons_append, List.cons_append, List.nil_append, Sighting.find?, hopen, if_pos rfl, hnone,
    Sighting.find?, hskip, if_neg Bool.false_ne_true]
  cases Sighting.find? names false t <;> simp [Sighting.within, Sighting.behind]

theorem letters_of_directives (hnames : Directives names) :
    ∀ n ∈ names, ∀ c ∈ n, Text.isLetter c = true := by
  rcases hnames with rfl | rfl <;> decide

/-- **Running text is quiet.** -/
theorem Running.quiet (hnames : Directives names) {depth : Nat} {w : Text} (h : Running depth w) :
    Quiet names w := by
  have hletters := letters_of_directives hnames
  induction h with
  | nil => exact quiet_nil
  | @char depth c w hc _ ih =>
    have hslash : '\\' ∉ [c] := by simpa using (ne_of_isProse hc (d := '\\') (by decide)).symm
    exact (quiet_of_no_backslash hslash).append ih
  | @style depth w s _ ih =>
    have hcommand : Quiet names ('\\' :: (s.command ++ ['{'])) := by
      refine quiet_command hletters (endsName_cons.2 (by decide)) (by decide) ?_ ?_
      · rcases hnames with rfl | rfl <;> cases s <;> decide
      · cases s <;> decide
    simpa using hcommand.append ih
  | @close depth w _ ih => exact (quiet_of_no_backslash (a := ['}']) (by decide)).append ih
  | @math depth body w hne hbody hdollar _ ih =>
    have hslash : '\\' ∉ '$' :: (body ++ ['$']) := by
      simpa using hbody.slash_not_mem
    simpa using (quiet_of_no_backslash hslash).append ih
  | @link depth url w hurl _ ih =>
    have hcommand : Quiet names ('\\' :: (urlName ++ ['{'])) := by
      refine quiet_command hletters (endsName_cons.2 (by decide)) (by decide) ?_ (by decide)
      rcases hnames with rfl | rfl <;> decide
    have hslash : '\\' ∉ url ++ ['}'] := by simpa using hurl.slash_not_mem
    simpa using (hcommand.append (quiet_of_no_backslash hslash)).append ih
  | lineBreak _ ih => exact (quiet_escape hnames (by decide)).append ih

end Quiet

end CribSheet
