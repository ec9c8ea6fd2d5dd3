/-
Prose without markup becomes its paragraphs.

A paragraph of such prose is a maximal run of lines that are not blank.  Reading looks ahead at every line
break: a blank line behind it ends the paragraph, and any other line goes on with it.  So where a line is
blank, nothing that shows is pending; that is what carries the induction on the lines.

Main definitions:

* `CribSheet.PlainProse` — text in which nothing starts markup;
* `CribSheet.paragraphRuns` — the maximal runs of lines that are not blank.

Main results:

* `CribSheet.readPieces_unlines` — plain lines are read run by run;
* `CribSheet.parseBlocks_plainProse` — each run becomes a paragraph.
-/
import CribSheet.Proofs.Display.BlankLines
import CribSheet.Proofs.Markup.Pieces

set_option relaxedAutoImplicit false
set_option autoImplicit false

namespace CribSheet

open CribSheet.Markup

/-! ### Plain prose -/

/-- **Text in which nothing starts markup**, line breaks apart. -/
def PlainProse (t : Text) : Prop := ∀ c ∈ t, c ∉ ['\\', '$', '%', '~']

/-- **The paragraphs of plain prose**: the maximal runs of consecutive lines that are not blank. -/
def paragraphRuns (t : Text) : List (List Text) :=
  (t.lines.splitOnP Text.isBlankText).filter fun run => !run.isEmpty

theorem PlainProse.of_sublist {t u : Text} (h : PlainProse t) (hsub : u.Sublist t) : PlainProse u := fun c hc =>
  h c (hsub.subset hc)

theorem trim_ne_nil {t : Text} (h : t.isBlankText = false) : t.trim ≠ [] := by
  obtain ⟨x, y, hx, hy, hsplit⟩ := exists_trim t
  intro hnil
  rw [hsplit, hnil, List.append_nil, Text.isBlankText_append, hx, hy] at h
  exact absurd h (by decide)

theorem isBlankText_trim (t : Text) : t.trim.isBlankText = t.isBlankText := by
  obtain ⟨x, y, hx, hy, hsplit⟩ := exists_trim t
  conv => rhs; rw [hsplit, Text.isBlankText_append, Text.isBlankText_append, hx, hy, Bool.true_and, Bool.and_true]

/-- **Plain prose that shows something is one paragraph**, without the blanks around it. -/
theorem paragraph?_plainProse {t : Text} (ht : PlainProse t) (hshows : t.isBlankText = false) :
    paragraph? t = some (.paragraph [.text t.trim]) := by
  have hne := trim_ne_nil hshows
  have hchars : ∀ c ∈ t.trim, c ∉ ['\\', '$', '~'] := fun c hc hspecial =>
    ht c ((Text.deletes_trim t).subset hc) (List.Sublist.subset (by decide) hspecial)
  obtain ⟨hstart, hend⟩ := (Text.trim_eq_self_iff _).1 (trim_trim t)
  have hedges : Inline.trimEdges [.text t.trim] = [.text t.trim] := by
    rw [Inline.trimEdges, Inline.trimFirst, (Text.trimStart_eq_self_iff _).2 hstart, Inline.trimLast,
      (Text.trimEnd_eq_self_iff _).2 hend]
    cases hcase : t.trim with
    | nil => exact absurd hcase hne
    | cons c u => rfl
  have hblank : Inline.areBlank [.text t.trim] = false := by
    rw [Inline.areBlank, Inline.isBlank, isBlankText_trim, hshows, Bool.false_and]
  simp only [paragraph?, parseInlines_plain hne hchars, hedges, hblank, Bool.false_eq_true, if_false]

/-! ### Lines -/

/-- A line of plain prose joins what is pending. -/
theorem pieces_line {line : Text} (hplain : PlainProse line) (hline : '\n' ∉ line) (blank : Bool) (w rest : Text) :
    ∃ blank', (Piece.prose w).cons (pieces blank (line ++ rest)) =
      (Piece.prose (w ++ line)).cons (pieces blank' rest) := by
  induction line generalizing w blank with
  | nil => exact ⟨blank, by rw [List.append_nil, List.nil_append]⟩
  | cons c line ih =>
    have hc : c ∉ ['\n', '\\', '$', '%'] := by
      have hspecial := hplain c List.mem_cons_self
      simp only [List.mem_cons, List.not_mem_nil, or_false, not_or] at hspecial hline ⊢
      exact ⟨Ne.symm hline.1, hspecial.1, hspecial.2.1, hspecial.2.2.1⟩
    obtain ⟨blank', hrest⟩ := ih (hplain.of_sublist (List.sublist_cons_self c line))
      (fun hmem => hline (List.mem_cons_of_mem c hmem)) (Text.blankLineAfter blank [c]) (w ++ [c])
    refine ⟨blank', ?_⟩
    rw [List.cons_append, pieces_of_read_eq (read_char hc blank (line ++ rest)), prose_cons_prose_cons, hrest,
      List.append_assoc, List.singleton_append]

theorem firstLine_unlines {line : Text} (hline : '\n' ∉ line) (ls : List Text) :
    (Text.firstLine (Text.unlines (line :: ls))).1 = line := by
  have hkeep : ∀ c ∈ line, (decide (c ≠ '\n')) = true := fun c hc => by
    rw [decide_eq_true_eq]
    rintro rfl
    exact hline hc
  cases ls with
  | nil => exact List.takeWhile_eq_self_iff.2 hkeep
  | cons next ls =>
    rw [Text.unlines, Text.joinWith, List.append_assoc, Text.firstLine, List.takeWhile_append_of_pos hkeep]
    simp

/-- The paragraphs of some runs of lines, of which the first one goes on with what is pending. -/
def runBlocks (pending : Text) : List (List Text) → List Block
  | [] => []
  | run :: runs => (paragraph? (pending ++ Text.unlines run)).toList ++ runBlocks [] runs

/-- What is pending and shows nothing adds nothing. -/
theorem runBlocks_blank {w : Text} (hw : w.isBlankText = true) (runs : List (List Text)) :
    runBlocks w runs = runBlocks [] runs := by
  cases runs with
  | nil => rfl
  | cons run runs => rw [runBlocks, runBlocks, paragraph?_blank_append hw, List.nil_append]

/-- A run without lines only ends what is pending. -/
theorem runBlocks_nil_cons (w : Text) (runs : List (List Text)) :
    runBlocks w ([] :: runs) = (paragraph? w).toList ++ runBlocks [] runs := by
  rw [runBlocks, Text.unlines, Text.joinWith, List.append_nil]

/-- Behind a blank line a new run begins. -/
theorem splitOnP_blank_cons {line : Text} (h : line.isBlankText = true) (ls : List Text) :
    (line :: ls).splitOnP Text.isBlankText = [] :: ls.splitOnP Text.isBlankText := by
  rw [List.splitOnP_cons_eq_if_modifyHead, if_pos h]

/-- A line that is not blank joins the run behind it. -/
theorem exists_splitOnP_cons {line : Text} (h : line.isBlankText = false) (ls : List Text) :
    ∃ run runs, ls.splitOnP Text.isBlankText = run :: runs ∧
      (line :: ls).splitOnP Text.isBlankText = (line :: run) :: runs := by
  obtain ⟨run, runs, heq⟩ := List.exists_cons_of_ne_nil (List.splitOnP_ne_nil Text.isBlankText ls)
  refine ⟨run, runs, heq, ?_⟩
  rw [List.splitOnP_cons_eq_if_modifyHead, if_neg (by simp [h]), heq, List.modifyHead_cons]

/-- A last line ends what is pending. -/
theorem runBlocks_last (w line : Text) :
    runBlocks w ([line].splitOnP Text.isBlankText) = (paragraph? (w ++ line)).toList := by
  cases hline : line.isBlankText with
  | true =>
    rw [splitOnP_blank_cons hline, List.splitOnP_nil, runBlocks_nil_cons, runBlocks_nil_cons,
      paragraph?_append_blank hline, paragraph?_nil]
    simp [runBlocks]
  | false =>
    rw [List.splitOnP_eq_singleton (by simpa using hline)]
    simp [runBlocks, Text.unlines, Text.joinWith]

/-- In front of a blank line, a line ends what is pending. -/
theorem runBlocks_end {next : Text} (hnext : next.isBlankText = true) (w line : Text) (ls : List Text) :
    runBlocks w ((line :: next :: ls).splitOnP Text.isBlankText) =
      (paragraph? (w ++ line)).toList ++ runBlocks [] ((next :: ls).splitOnP Text.isBlankText) := by
  cases hline : line.isBlankText with
  | true => rw [splitOnP_blank_cons hline, runBlocks_nil_cons, paragraph?_append_blank hline]
  | false =>
    obtain ⟨run, runs, heq, hcons⟩ := exists_splitOnP_cons hline (next :: ls)
    rw [splitOnP_blank_cons hnext] at heq
    obtain ⟨rfl, rfl⟩ := List.cons.inj heq
    rw [hcons, splitOnP_blank_cons hnext, runBlocks_nil_cons, paragraph?_nil, runBlocks]
    rfl

/-- In front of another line, a line joins what is pending, or shows no more than that. -/
theorem runBlocks_join {line next w : Text} (hnext : next.isBlankText = false)
    (hw : line.isBlankText = true → w.isBlankText = true) (ls : List Text) :
    runBlocks w ((line :: next :: ls).splitOnP Text.isBlankText) =
      runBlocks (w ++ line ++ ['\n']) ((next :: ls).splitOnP Text.isBlankText) := by
  cases hline : line.isBlankText with
  | true =>
    have hpending : Text.isBlankText (w ++ line ++ ['\n']) = true := by
      rw [Text.isBlankText_append, Text.isBlankText_append, hw hline, hline]
      decide
    rw [splitOnP_blank_cons hline, runBlocks_blank hpending, runBlocks_nil_cons, paragraph?_of_blank (hw hline)]
    rfl
  | false =>
    obtain ⟨run, runs, -, hnextCons⟩ := exists_splitOnP_cons hnext ls
    obtain ⟨run', runs', heq, hcons⟩ := exists_splitOnP_cons hline (next :: ls)
    obtain ⟨rfl, rfl⟩ := List.cons.inj (hnextCons.symm.trans heq)
    rw [hcons, hnextCons, runBlocks, runBlocks]
    simp [Text.unlines, Text.joinWith]

/-- **Plain lines are read run by run.**  What is pending in front of them goes on with the first run; when the
first line is blank, it shows nothing. -/
theorem readPieces_unlines (read : Reader) {line : Text} {ls : List Text} (hls : ∀ l ∈ line :: ls, '\n' ∉ l)
    (hplain : ∀ l ∈ line :: ls, PlainProse l) {w : Text} (hw : line.isBlankText = true → w.isBlankText = true)
    (blank : Bool) (seen : Nat) :
    readPieces read ((Piece.prose w).cons (pieces blank (Text.unlines (line :: ls)))) seen =
      (runBlocks w ((line :: ls).splitOnP Text.isBlankText), seen) := by
  induction ls generalizing line w blank with
  | nil =>
    obtain ⟨blank', hpieces⟩ :=
      pieces_line (hplain line List.mem_cons_self) (hls line List.mem_cons_self) blank w []
    rw [List.append_nil, pieces, cons_nil] at hpieces
    rw [Text.unlines, Text.joinWith, hpieces, runBlocks_last]
    simp [readPieces, Piece.blocks]
  | cons next ls ih =>
    obtain ⟨hline, hls⟩ := List.forall_mem_cons.1 hls
    obtain ⟨hplainLine, hplain⟩ := List.forall_mem_cons.1 hplain
    have hsplit : Text.unlines (line :: next :: ls) = line ++ '\n' :: Text.unlines (next :: ls) := by
      simp [Text.unlines, Text.joinWith]
    have hfirst := firstLine_unlines (hls next List.mem_cons_self) ls
    obtain ⟨blank', hpieces⟩ := pieces_line hplainLine hline blank w ('\n' :: Text.unlines (next :: ls))
    rw [hsplit, hpieces]
    cases hblank : next.isBlankText with
    | true =>
      -- The line break ends the paragraph, and the next line starts with nothing pending.
      have hrest := @ih next hls hplain [] (fun _ => rfl) true
      rw [readPieces_blank_cons read rfl] at hrest
      rw [readPieces_prose_break read (w ++ line) (by rw [hfirst, hblank]) blank' seen, hrest,
        runBlocks_end hblank]
    | false =>
      -- The line break joins the pending paragraph.
      have hrest := @ih next hls hplain (w ++ line ++ ['\n']) (by simp [hblank]) true
      rw [pieces_break (by rw [hfirst, hblank]) blank', prose_cons_prose_cons, hrest, runBlocks_join hblank hw]

/-! ### Paragraphs -/

theorem mem_unlines {c : Char} {ls : List Text} (h : c ∈ Text.unlines ls) : c = '\n' ∨ ∃ l ∈ ls, c ∈ l := by
  induction ls with
  | nil => exact absurd h List.not_mem_nil
  | cons line ls ih =>
    cases ls with
    | nil => exact .inr ⟨line, List.mem_cons_self, h⟩
    | cons next ls =>
      rw [Text.unlines, Text.joinWith, List.append_assoc, List.mem_append] at h
      rcases h with h | h
      · exact .inr ⟨line, List.mem_cons_self, h⟩
      · rcases List.mem_cons.1 h with h | h
        · exact .inl h
        · obtain hbreak | ⟨l, hl, hc⟩ := ih h
          · exact .inl hbreak
          · exact .inr ⟨l, List.mem_cons_of_mem line hl, hc⟩

/-- The runs between blank lines hold the lines that are not blank. -/
theorem mem_of_mem_splitOnP {ls run : List Text} (hrun : run ∈ ls.splitOnP Text.isBlankText) {l : Text}
    (hl : l ∈ run) : l ∈ ls ∧ l.isBlankText = false := by
  induction ls generalizing run with
  | nil =>
    rw [List.splitOnP_nil, List.mem_singleton] at hrun
    exact absurd (hrun ▸ hl) List.not_mem_nil
  | cons line ls ih =>
    cases hblank : line.isBlankText with
    | true =>
      rw [splitOnP_blank_cons hblank] at hrun
      rcases List.mem_cons.1 hrun with rfl | hrun
      · exact absurd hl List.not_mem_nil
      · exact (ih hrun hl).imp_left (List.mem_cons_of_mem line)
    | false =>
      obtain ⟨first, runs, heq, hcons⟩ := exists_splitOnP_cons hblank ls
      rw [hcons] at hrun
      rcases List.mem_cons.1 hrun with rfl | hrun
      · rcases List.mem_cons.1 hl with rfl | hl
        · exact ⟨List.mem_cons_self, hblank⟩
        · exact (ih (heq ▸ List.mem_cons_self) hl).imp_left (List.mem_cons_of_mem line)
      · exact (ih (heq ▸ List.mem_cons_of_mem first hrun) hl).imp_left (List.mem_cons_of_mem line)

/-- A run of lines that are not blank shows something. -/
theorem isBlankText_unlines_cons {line : Text} (h : line.isBlankText = false) (ls : List Text) :
    Text.isBlankText (Text.unlines (line :: ls)) = false := by
  cases ls with
  | nil => exact h
  | cons next ls => rw [Text.unlines, Text.joinWith, Text.isBlankText_append, Text.isBlankText_append, h]; rfl

/-- **Each run of lines is a paragraph**; runs without lines are none. -/
theorem runBlocks_nil {runs : List (List Text)}
    (h : ∀ run ∈ runs, ∀ l ∈ run, PlainProse l ∧ l.isBlankText = false) :
    runBlocks [] runs =
      (runs.filter fun run => !run.isEmpty).map fun run => .paragraph [.text (Text.unlines run).trim] := by
  induction runs with
  | nil => rfl
  | cons run runs ih =>
    obtain ⟨hrun, hruns⟩ := List.forall_mem_cons.1 h
    rw [runBlocks, ih hruns, List.nil_append]
    cases run with
    | nil => rw [show Text.unlines [] = [] from rfl, paragraph?_nil, List.filter_cons_of_neg (by simp)]; rfl
    | cons line ls =>
      have hplain : PlainProse (Text.unlines (line :: ls)) := by
        intro c hc
        rcases mem_unlines hc with rfl | ⟨l, hl, hc⟩
        · decide
        · exact (hrun l hl).1 c hc
      rw [paragraph?_plainProse hplain (isBlankText_unlines_cons (hrun line List.mem_cons_self).2 ls),
        List.filter_cons_of_pos (by simp), List.map_cons]
      rfl

/-- **Prose without markup becomes its paragraphs**, in order: each maximal run of lines that are not blank is one
paragraph with one text, the lines without the blanks around them, and no ordered list is counted. -/
theorem parseBlocks_plainProse {t : Text} (ht : PlainProse t) (seen : Nat) :
    parseBlocks t seen =
      ((paragraphRuns t).map fun run => .paragraph [.text (Text.unlines run).trim], seen) := by
  have hbreak : ∀ l ∈ t.lines, '\n' ∉ l := fun _ => Text.not_mem_of_mem_splitOn
  have hplain : ∀ l ∈ t.lines, PlainProse l := fun l hl => ht.of_sublist (Text.isInfix_of_mem_splitOn hl).sublist
  have hruns : ∀ run ∈ t.lines.splitOnP Text.isBlankText, ∀ l ∈ run, PlainProse l ∧ l.isBlankText = false :=
    fun run hrun l hl => (mem_of_mem_splitOnP hrun hl).imp_left (hplain l)
  obtain ⟨line, ls, hlines⟩ := List.exists_cons_of_ne_nil (Text.splitOn_ne_nil '\n' t)
  change t.lines = line :: ls at hlines
  have hread := @readPieces_unlines parseBlocks line ls (hlines ▸ hbreak) (hlines ▸ hplain) [] (fun _ => rfl) true
    seen
  rw [← hlines, Text.unlines_lines, readPieces_blank_cons parseBlocks rfl, runBlocks_nil hruns] at hread
  rw [parseBlocks_eq, hread]
  rfl

/-- Indentation, a blank line that holds a no-break space, and blank lines at both ends. -/
theorem parseBlocks_plainProse_blanks :
    let t : Text := ['\n', ' ', 'a', '\n', '\t', 'b', ' ', '\n', '\u00a0', '\n', '\n', ' ', '{', '\n', ' ']
    PlainProse t ∧
      parseBlocks t 2 = ([.paragraph [.text ['a', '\n', '\t', 'b']], .paragraph [.text ['{']]], 2) := by
  intro t
  have ht : PlainProse t := by
    unfold PlainProse
    decide
  exact ⟨ht, parseBlocks_plainProse ht 2⟩

end CribSheet
