/-
Deletions, byte by byte.

Three loops take markup out of a text: a forbidden directive, the titles behind the first one, and the `\maketitle`
commands behind the first one.  Each searches the text from where the last span ended, grows what it finds to whole
lines, copies what lies between the two spans, and goes on behind.  The growth looks back over the whole text, so it
could reach into what was deleted or kept before; the slice that is copied would then end before it starts.

It does not: what a loop finds ends at an edge, and growth leads from edge to edge.

Main definitions:

* `CribSheet.Checked.removeSpans` — the loop, which records the spans that it deletes;
* `CribSheet.Checked.removeDirective`, `CribSheet.Checked.removeTitles`, `CribSheet.Checked.removeMaketitles` — the
  three of them;
* `CribSheet.Checked.RunsForward`, `CribSheet.Checked.TitlesRunForward` — the spans are disjoint and in order, and the
  output is the text without them.

Main results:

* `CribSheet.Checked.loop_removeAll`, `CribSheet.Checked.loop_revise` — the loops run without a fault, and delete the
  spans of the revisions that the library makes;
* `CribSheet.Checked.deletions_run_forward` — **deletions never run backwards**.
-/
import CribSheet.Proofs.Bytes.Lines
import CribSheet.Proofs.Bytes.Marker
import CribSheet.Proofs.Markup.Edges
import CribSheet.Proofs.Payload.Edits
import CribSheet.Proofs.Sheet.Remains

set_option relaxedAutoImplicit false
set_option autoImplicit false

namespace CribSheet.Checked

open Text Markup Payload

/-! ### The loop -/

/-- What a search finds for a loop. -/
structure Found where
  /-- Where the command starts. -/
  start : Nat
  /-- Where the search goes on when the command stays. -/
  next : Nat
  /-- Where the span ends that goes, and what is written in its place. -/
  edit : Option (Nat × Text)

/-- The span goes as a whole. -/
def Found.whole (span : Nat × Nat) : Found := ⟨span.1, span.2, some (span.2, [])⟩

/-- What a loop comes to. -/
structure Removed where
  /-- What it has written. -/
  output : Text
  /-- The spans that it has deleted, in this order. -/
  deletions : List Deletion
deriving Repr, DecidableEq

/-- A loop that is under way. -/
structure Removing extends Removed where
  /-- The end of the span that was deleted last. -/
  cursor : Nat

/-- A loop that starts. -/
def Removing.start : Removing := ⟨⟨[], []⟩, 0⟩

/-- A span is deleted behind what is kept before it. -/
def Removing.delete (s : Removing) (kept : Text) (d : Deletion) : Removing :=
  { output := s.output ++ kept ++ d.inserted, deletions := s.deletions ++ [d], cursor := d.stop }

/-- The span that goes: it grows to whole lines unless something is written in its place. -/
def grownSpan (t : Text) (start stop : Nat) (inserted : Text) : Run (Nat × Nat) :=
  if inserted = [] then wholeLineSpan t start stop else .ok (start, stop)

/-- One round of a removal loop. -/
def removalRound (t : Text) (find? : Nat → Run (Option Found)) (s : Removing) (i : Nat) :
    Run (Round Removing Removed) := do
  match ← find? i with
  | none => do
    let rest ← cutFrom t s.cursor
    .ok (.done ⟨s.output ++ rest, s.deletions⟩)
  | some found =>
    match found.edit with
    | none => .ok (.next s found.next)
    | some (stop, inserted) => do
      let (start, stop) ← grownSpan t found.start stop inserted
      let kept ← cut t s.cursor start
      .ok (.next (s.delete kept ⟨start, stop, inserted⟩) stop)

/-- **The text without the spans that a search finds**, from a position on. -/
def removeSpans (t : Text) (find? : Nat → Run (Option Found)) (i : Nat) : Run Removed :=
  loop t.size (removalRound t find?) .start i

section Loop

variable {t behind ahead front mid : Text} {i : Nat} {find? : Nat → Run (Option Found)} {s : Removing}

/-- The position in front of the span of a cut. -/
theorem Stands.beforeSpan {c : Cut} (h : Stands t behind c.text i) :
    Stands t (behind ++ c.before) (c.span ++ c.after) (i + c.before.size) :=
  Stands.advance (by rwa [← List.append_assoc])

/-- The position behind the span of a cut. -/
theorem Stands.behindSpan {c : Cut} (h : Stands t behind c.text i) :
    Stands t (behind ++ (c.before ++ c.span)) c.after (i + c.before.size + c.span.size) := by
  rw [← List.append_assoc]
  exact h.beforeSpan.advance

/-- What the loop comes to when it goes on with the deletions of a revision. -/
def Removing.finish (s : Removing) (r : Revision) : Removed :=
  ⟨s.output ++ r.result, s.deletions ++ r.deletions s.cursor⟩

/-- Where nothing more is found, the rest is copied. -/
theorem loop_removalRound_none (hfind : find? i = .ok none) (hcursor : Stands t front ahead s.cursor) :
    loop t.size (removalRound t find?) s i = .ok (s.finish (Revision.none ahead)) := by
  refine loop_done ?_
  rw [removalRound, hfind, ok_bind]
  simp only
  rw [hcursor.cutFrom, ok_bind, Removing.finish, Revision.result_none, Revision.deletions_none, List.append_nil]

/-- A span that grows behind an edge is found behind it. -/
theorem Stands.wholeLineSpan_edge {c : Cut} (h : Stands t behind c.text i) (hedge : IsEdge behind c.text)
    (hspan : c.span.head? = some '\\') :
    Checked.wholeLineSpan t (i + c.before.size) (i + c.before.size + c.span.size) =
      .ok (i + (c.wholeLines (blankLineAfter true behind)).before.size,
        i + (c.wholeLines (blankLineAfter true behind)).before.size +
          (c.wholeLines (blankLineAfter true behind)).span.size) := by
  have hgrown := hedge.wholeLines_within hspan (by decide)
  rw [h.beforeSpan.wholeLineSpan, h.beforeSpan.offset_wholeLineSpan]
  change Except.ok (spanOf ((c.within behind).wholeLines true)) = _
  rw [hgrown, spanOf, Cut.within]
  simp only [size_append, h.size_eq]

/-- **One deletion**: what lies between the spans is copied, and the loop goes on behind. -/
theorem loop_removalRound_edit {c : Cut} {start next stop : Nat} {inserted : Text}
    (h : Stands t behind c.text i) (hcursor : Stands t front (mid ++ c.text) s.cursor) (hspan : c.span ≠ [])
    (hfind : find? i = .ok (some ⟨start, next, some (stop, inserted)⟩))
    (hgrown : grownSpan t start stop inserted = .ok (i + c.before.size, i + c.before.size + c.span.size)) :
    loop t.size (removalRound t find?) s i =
      loop t.size (removalRound t find?)
        (s.delete (mid ++ c.before) ⟨i + c.before.size, i + c.before.size + c.span.size, inserted⟩)
        (i + c.before.size + c.span.size) := by
  have hstart := h.beforeSpan
  have hcopied : Stands t front ((mid ++ c.before) ++ (c.span ++ c.after)) s.cursor := by
    simpa [Cut.text] using hcursor
  have hsize := hstart.size_text
  have hpos := size_pos_of_ne_nil hspan
  rw [size_append] at hsize
  refine loop_next ?_ (by omega) (by omega)
  rw [removalRound, hfind, ok_bind]
  simp only
  rw [hgrown, ok_bind]
  simp only
  rw [hstart.cut_segment hcopied, ok_bind]

theorem Removing.finish_cons (hcursor : s.cursor + mid.size = i) (e : Edit) (r : Revision) :
    s.finish ((Revision.cons e r).behind mid) =
      (s.delete (mid ++ e.kept) ⟨i + e.kept.size, i + e.kept.size + e.removed.size, e.inserted⟩).finish
        (r.behind []) := by
  subst hcursor
  simp [Removing.finish, Removing.delete]

theorem Removing.finish_behind (u : Text) (r : Revision) :
    s.finish ((r.behind u).behind mid) = s.finish (r.behind (mid ++ u)) := by
  simp [Removing.finish, Nat.add_assoc]

end Loop

/-! ### Everything that a finder marks -/

/-- What a finder marks in a text that starts at a position goes as a whole. -/
def foundBy (i : Nat) (c : Cut) : Found := .whole (i + c.before.size, i + c.before.size + c.span.size)

/-- **The search by position is that of the finder.** -/
def Searches (t : Text) (find? : Nat → Run (Option Found)) (find : Finder) : Prop :=
  ∀ {behind ahead : Text} {i : Nat}, Stands t behind ahead i →
    find? i = .ok ((find (escapedAfter false behind) ahead).map (foundBy i))

section Finder

variable {t : Text} {find? : Nat → Run (Option Found)} {find : Finder} (hfind : find.Edged)
  (hsearch : Searches t find? find)

include hfind hsearch

/-- **A removal loop runs without a fault** from edge to edge, and deletes the spans of the revision that removes
everything that is marked. -/
theorem loop_removeAll {behind ahead front mid : Text} {i : Nat} {s : Removing} (h : Stands t behind ahead i)
    (hedge : IsEdge behind ahead) (hcursor : Stands t front (mid ++ ahead) s.cursor) :
    loop t.size (removalRound t find?) s i =
      .ok (s.finish
        ((removeAll find (escapedAfter false behind) (blankLineAfter true behind) ahead).behind mid)) := by
  have hfound := hsearch h
  generalize hescaped : escapedAfter false behind = escaped at hfound ⊢
  generalize hblank : blankLineAfter true behind = blank
  fun_induction removeAll find escaped blank ahead generalizing behind front mid i s with
  | case1 escaped blank ahead hnone =>
      rw [hnone] at hfound
      exact loop_removalRound_none hfound hcursor
  | case2 escaped blank ahead found hsome c hlt =>
      rename_i read ih
      have htext : found.text = ahead := hfind.splits hsome
      have hctext : c.text = ahead := (Cut.text_wholeLines blank found).trans htext
      have hspan : c.span ≠ [] := hfind.wholeLines_span_ne_nil hsome blank
      have hgrown : grownSpan t (i + found.before.size) (i + found.before.size + found.span.size) [] =
          .ok (i + c.before.size, i + c.before.size + c.span.size) := by
        subst hblank
        exact Stands.wholeLineSpan_edge (htext.symm ▸ h) (htext.symm ▸ hedge) (hfind.head? hsome)
      have hnext : Stands t (behind ++ read) c.after (i + c.before.size + c.span.size) :=
        Stands.behindSpan (hctext.symm ▸ h)
      have hescaped' : escapedAfter false (behind ++ read) = escapedAfter escaped read := by
        rw [escapedAfter_append, hescaped]
      rw [hsome, Option.map_some] at hfound
      rw [loop_removalRound_edit (hctext.symm ▸ h) (hctext.symm ▸ hcursor) hspan hfound hgrown,
        Removing.finish_cons (hcursor.size_mid h)]
      refine ih hnext ?_ hnext hescaped' (hescaped' ▸ hsearch hnext) ?_
      · rw [← List.append_assoc]
        exact (IsEdge.wholeLines (hfind.isEdge hsome) blank).append_left hspan _
      · rw [blankLineAfter_append, hblank]
  | case3 escaped blank ahead found hsome c =>
      rename_i hlt
      exact absurd (length_after_wholeLines_lt hfind.splits escaped blank hsome (hfind.span_ne_nil hsome)) hlt

end Finder

/-! ### Directives -/

/-- The options of an import, and the position behind them. -/
def importOptions? (t : Text) (i : Nat) : Run (Option (Text × Nat)) :=
  if byte? t i = some (code '[') then do
    match ← groupEnd? t i with
    | none => .ok none
    | some stop => do
      let options ← cut t i stop
      .ok (some (options, stop))
  else .ok (some ([], i))

/-- The end of an import that has the package in its list, and the import without the package. -/
def dropPackage? (t : Text) (found : CommandSpan) (package : Text) : Run (Option (Nat × Text)) := do
  let next ← skipArgumentSpace t found.stop
  match ← importOptions? t next with
  | none => .ok none
  | some (options, next) =>
    match ← readArgument? t next with
    | none => .ok none
    | some (list, stop) =>
      let names := Directive.importNames list
      if names.any (Directive.sameName package) then
        let kept := names.filter fun name => !Directive.sameName package name
        if kept = [] then .ok (some (stop, []))
        else do
          let command ← cut t found.start found.stop
          .ok (some (stop, command ++ options ++ '{' :: joinWith [','] kept ++ ['}']))
      else .ok none

/-- The end of what goes with a command, and what is written in its place. -/
def replacement? (d : Directive) (t : Text) (found : CommandSpan) : Run (Option (Nat × Text)) :=
  match d.removal with
  | .package name => dropPackage? t found name
  | .command => (skipGroups t found.stop).map fun stop => some (stop, [])

/-- The next command of a directive. -/
def findDirective? (d : Directive) (t : Text) (i : Nat) : Run (Option Found) := do
  match ← findCommand? t d.name i with
  | none => .ok none
  | some found => do
    let edit ← replacement? d t found
    .ok (some ⟨found.start, found.stop, edit⟩)

/-- **The text after the edits of a directive.** -/
def removeDirective (d : Directive) (t : Text) : Run Removed := removeSpans t (findDirective? d t) 0

section Directive

variable {t behind ahead : Text} {i : Nat}

theorem Stands.importOptions? (h : Stands t behind ahead i) :
    Checked.importOptions? t i =
      .ok ((Directive.importOptions? ahead).map fun (options, _) => (options, i + options.size)) := by
  have hbracket := h.byte?_eq_code_iff (d := '[') (by decide)
  rw [Checked.importOptions?, Directive.importOptions?]
  by_cases hhead : ahead.head? = some '['
  · rw [if_pos (hbracket.2 hhead), if_pos hhead, h.groupEnd?, ok_bind]
    cases hread : Group.read? ahead with
    | none => rfl
    | some g =>
        have hgroup : Stands t behind (g.source ++ g.after) i := by
          rw [← Group.text, Group.text_read? hread]
          exact h
        simp only [Option.map_some]
        rw [hgroup.cut, ok_bind]
  · rw [if_neg fun hbyte => hhead (hbracket.1 hbyte), if_neg hhead]
    rfl

/-- The command of a sighting. -/
theorem Stands.cut_command {s : Sighting} (h : Stands t behind s.text i) :
    Checked.cut t (i + s.before.size) (i + s.before.size + s.source.size) = .ok s.source := by
  have hbefore : Stands t (behind ++ s.before) (s.source ++ s.after) (i + s.before.size) :=
    Stands.advance (by rwa [← List.append_assoc])
  exact hbefore.cut

/-- What becomes of a command, by position. -/
def editOf (d : Directive) (i : Nat) (s : Sighting) : Option (Nat × Text) :=
  (d.replacement? s).map fun r => (i + s.before.size + s.source.size + r.arguments.size, r.inserted)

theorem Stands.dropPackage? {s : Sighting} (h : Stands t behind s.text i) (package : Text) :
    Checked.dropPackage? t (Offset.commandSpan i s) package =
      .ok ((Directive.dropPackage? package s).map fun r =>
        (i + s.before.size + s.source.size + r.arguments.size, r.inserted)) := by
  have hcommand := h.behindCommand
  have hstart : (Offset.commandSpan i s).start = i + s.before.size := rfl
  have hstop : (Offset.commandSpan i s).stop = i + s.before.size + s.source.size := rfl
  rw [Checked.dropPackage?, Directive.dropPackage?, hcommand.skipArgumentSpace, ok_bind,
    hcommand.afterSpace.importOptions?, ok_bind]
  cases hoptions : Directive.importOptions? (argumentSpace s.after).2 with
  | none => simp [hoptions]
  | some read =>
      obtain ⟨options, rest⟩ := read
      have hspace := hcommand.afterSpace
      rw [← Directive.text_importOptions? hoptions] at hspace
      simp only [Option.map_some, hoptions, Option.bind_eq_bind, Option.bind_some]
      rw [hspace.advance.readArgument?, ok_bind, hstart, hstop]
      cases Argument.read? rest with
      | none => rfl
      | some list =>
          simp only [Option.map_some, Option.bind_some]
          split
          · split
            · simp [Nat.add_assoc]
            · rw [h.cut_command, ok_bind]
              simp [Nat.add_assoc]
          · rfl

theorem Stands.replacement? {s : Sighting} (h : Stands t behind s.text i) (d : Directive) :
    Checked.replacement? d t (Offset.commandSpan i s) = .ok (editOf d i s) := by
  rw [Checked.replacement?, editOf, Directive.replacement?]
  cases d.removal with
  | package name => exact h.dropPackage? name
  | command =>
      simp only
      rw [h.behindCommand.skipGroups]
      rfl

theorem Stands.findDirective? (h : Stands t behind ahead i) (d : Directive) :
    Checked.findDirective? d t i =
      .ok ((Sighting.find? [d.name] (escapedAfter false behind) ahead).map fun s =>
        ⟨i + s.before.size, i + s.before.size + s.source.size, editOf d i s⟩) := by
  rw [Checked.findDirective?, h.findCommand?, ok_bind]
  cases hs : Sighting.find? [d.name] (escapedAfter false behind) ahead with
  | none => rfl
  | some s =>
      have htext : s.text = ahead := Sighting.text_find? hs
      simp only [Option.map_some]
      rw [(htext.symm ▸ h : Stands t behind s.text i).replacement? d, ok_bind]
      rfl

/-- Where a command stays, the loop goes on behind it. -/
theorem loop_removalRound_skip {find? : Nat → Run (Option Found)} {w : Removing} {start next : Nat}
    (hfind : find? i = .ok (some ⟨start, next, none⟩)) (hlt : i < next) (hsize : i < t.size) :
    loop t.size (removalRound t find?) w i = loop t.size (removalRound t find?) w next := by
  refine loop_next ?_ hlt hsize
  rw [removalRound, hfind, ok_bind]

/-- The span of an edit, grown if it only deletes. -/
theorem Stands.grownSpan_cut {d : Directive} {s : Sighting} {r : Replacement} (h : Stands t behind s.text i)
    (hedge : IsEdge behind s.text) (hr : d.replacement? s = some r) :
    grownSpan t (i + s.before.size) (i + s.before.size + s.source.size + r.arguments.size) r.inserted =
      .ok (i + (Directive.cut (blankLineAfter true behind) s r).before.size,
        i + (Directive.cut (blankLineAfter true behind) s r).before.size +
          (Directive.cut (blankLineAfter true behind) s r).span.size) := by
  have htext : (Cut.mk s.before (s.source ++ r.arguments) r.after).text = s.text := by
    simp [Cut.text, Sighting.text, ← Directive.text_replacement? hr]
  rw [grownSpan, Directive.cut, Nat.add_assoc, ← size_append]
  split
  · exact Stands.wholeLineSpan_edge (c := ⟨s.before, s.source ++ r.arguments, r.after⟩) (htext.symm ▸ h)
      (htext.symm ▸ hedge) rfl
  · rfl

/-- **The loop of a directive runs without a fault** from edge to edge, and deletes the spans of the revision that the
directive makes. -/
theorem loop_revise {d : Directive} (hname : IsWord d.name) {front mid : Text} {w : Removing}
    (h : Stands t behind ahead i) (hedge : IsEdge behind ahead) (hcursor : Stands t front (mid ++ ahead) w.cursor) :
    loop t.size (removalRound t (findDirective? d t)) w i =
      .ok (w.finish ((d.revise (escapedAfter false behind) (blankLineAfter true behind) ahead).behind mid)) := by
  have hfound := h.findDirective? d
  generalize hescaped : escapedAfter false behind = escaped at hfound ⊢
  generalize hblank : blankLineAfter true behind = blank
  fun_induction Directive.revise d escaped blank ahead generalizing behind front mid i w with
  | case1 escaped blank ahead hnone =>
      rw [hnone] at hfound
      exact loop_removalRound_none hfound hcursor
  | case2 escaped blank ahead s hs hlt hr =>
      rename_i read ih
      have htext : read ++ s.after = ahead := Sighting.text_find? hs
      have hword : IsWord s.name := (List.mem_singleton.1 (Sighting.isIn_find? hs).1).symm ▸ hname
      have hnext : Stands t (behind ++ read) s.after (i + s.before.size + s.source.size) := h.afterCommand hs
      have hread : Stands t front ((mid ++ read) ++ s.after) w.cursor := by
        rw [List.append_assoc, htext]
        exact hcursor
      have hescaped' : escapedAfter false (behind ++ read) = escapedAfter escaped read := by
        rw [escapedAfter_append, hescaped]
      have hedge' : IsEdge (behind ++ read) s.after := by
        rw [← List.append_assoc]
        exact Or.inl ((Sighting.endsLine_source hword).append_left (by simp [Sighting.source]) _)
      have hsource : 0 < s.source.size := size_pos_of_ne_nil (by simp [Sighting.source])
      have hsize := hnext.size_text
      rw [hs, Option.map_some, editOf, hr] at hfound
      rw [loop_removalRound_skip hfound (by omega) (by omega), Removing.finish_behind]
      exact ih hnext hedge' hread hescaped' (hescaped' ▸ hnext.findDirective? d) (by rw [blankLineAfter_append, hblank])
  | case3 escaped blank ahead s hs hlt r hr c hlt' =>
      rename_i read ih
      have hstext : s.text = ahead := Sighting.text_find? hs
      have htext : c.text = ahead := (Directive.text_cut blank hr).trans hstext
      have hword : IsWord s.name := (List.mem_singleton.1 (Sighting.isIn_find? hs).1).symm ▸ hname
      have hspan : c.span ≠ [] :=
        List.ne_nil_of_length_pos (Nat.lt_of_le_of_lt (Nat.zero_le _) (Directive.length_inserted_lt blank hr))
      have hgrown : grownSpan t (i + s.before.size) (i + s.before.size + s.source.size + r.arguments.size) r.inserted =
          .ok (i + c.before.size, i + c.before.size + c.span.size) := by
        subst hblank
        exact Stands.grownSpan_cut (hstext.symm ▸ h) (hstext.symm ▸ hedge) hr
      have hnext : Stands t (behind ++ read) c.after (i + c.before.size + c.span.size) :=
        Stands.behindSpan (htext.symm ▸ h)
      have hescaped' : escapedAfter false (behind ++ read) = escapedAfter escaped read := by
        rw [escapedAfter_append, hescaped]
      have hedge' : IsEdge (behind ++ read) c.after := by
        rw [← List.append_assoc]
        exact (Directive.isEdge_cut hword hr blank).append_left hspan _
      rw [hs, Option.map_some, editOf, hr, Option.map_some] at hfound
      rw [loop_removalRound_edit (htext.symm ▸ h) (htext.symm ▸ hcursor) hspan hfound hgrown,
        Removing.finish_cons (hcursor.size_mid h)]
      exact ih hnext hedge' hnext hescaped' (hescaped' ▸ hnext.findDirective? d) (by rw [blankLineAfter_append, hblank])

end Directive

/-! ### Titles -/

/-- The position in front of the brace group of a title: behind its short form, if there is one. -/
def titleLead (t : Text) (i : Nat) : Run Nat := do
  let next ← skipArgumentSpace t i
  if byte? t next = some (code '[') then
    match ← groupEnd? t next with
    | some stop => skipArgumentSpace t stop
    | none => .ok next
  else .ok next

/-- The span of the next title directive.  A group that is not closed goes on to the end of its line. -/
def titleSpan? (t : Text) (i : Nat) : Run (Option (Nat × Nat)) := do
  match ← findCommand? t Identity.titleName i with
  | none => .ok none
  | some found => do
    let next ← titleLead t found.stop
    if byte? t next = some (code '{') then
      match ← groupEnd? t next with
      | some stop => .ok (some (found.start, stop))
      | none => do
        let ahead ← cutFrom t next
        .ok (some (found.start, (position? (fun c => decide (c = '\n')) ahead).elim t.size (next + ·)))
    else .ok (some (found.start, found.stop))

/-- The next title directive, which goes as a whole. -/
def findTitle? (t : Text) (i : Nat) : Run (Option Found) := (titleSpan? t i).map (·.map .whole)

/-- **The text without the titles** from a position on. -/
def removeTitles (t : Text) (i : Nat) : Run Removed := removeSpans t (findTitle? t) i

/-- The text with the directive in the place of its first title, and the position behind the directive.  The directive
that is there already stays, however its braces are balanced. -/
def writeTitle? (directive t : Text) : Run (Option (Text × Nat)) := do
  match ← titleSpan? t 0 with
  | none => .ok none
  | some (start, stop) => do
    let ahead ← cutFrom t start
    if startsWith directive ahead then .ok (some (t, start + directive.size))
    else do
      let before ← cutTo t start
      let _ ← cut t start stop
      let after ← cutFrom t stop
      .ok (some (before ++ directive ++ after, start + directive.size))

section Title

variable {t behind ahead : Text} {i : Nat}

theorem Stands.titleLead (h : Stands t behind ahead i) :
    Checked.titleLead t i = .ok (i + size (Identity.titleLead ahead).1) := by
  have hspace := h.afterSpace
  have hbracket := hspace.byte?_eq_code_iff (d := '[') (by decide)
  rw [Checked.titleLead, h.skipArgumentSpace, ok_bind, Identity.titleLead, readBracket?_eq]
  by_cases hhead : (argumentSpace ahead).2.head? = some '['
  · rw [if_pos (hbracket.2 hhead), if_pos (startsWith_singleton_iff.2 hhead), hspace.groupEnd?, ok_bind]
    cases hread : Group.read? (argumentSpace ahead).2 with
    | none => rfl
    | some g =>
        rw [← Group.text_read? hread] at hspace
        simp only [Option.map_some]
        rw [(hspace.advance (u := g.source)).skipArgumentSpace]
        simp only [size_append, Nat.add_assoc]
  · rw [if_neg fun hbyte => hhead (hbracket.1 hbyte), if_neg fun hstart => hhead (startsWith_singleton_iff.1 hstart)]

theorem Stands.titleSpan? (h : Stands t behind ahead i) :
    Checked.titleSpan? t i =
      .ok ((Identity.titleFinder (escapedAfter false behind) ahead).map fun c =>
        (i + c.before.size, i + c.before.size + c.span.size)) := by
  rw [Checked.titleSpan?, h.findCommand?, ok_bind, Identity.titleFinder]
  cases hs : Sighting.find? [Identity.titleName] (escapedAfter false behind) ahead with
  | none => rfl
  | some s =>
      have hcommand := h.afterCommand hs
      have hstart : (Offset.commandSpan i s).start = i + s.before.size := rfl
      have hstop : (Offset.commandSpan i s).stop = i + s.before.size + s.source.size := rfl
      have hlead := Stands.advance ((Identity.titleLead_append s.after).symm ▸ hcommand)
      have hbrace := hlead.byte?_eq_code_iff (d := '{') (by decide)
      simp only [Option.map_some]
      rw [hcommand.titleLead, ok_bind, Identity.titleArguments_eq]
      by_cases hhead : (Identity.titleLead s.after).2.head? = some '{'
      · rw [if_pos (hbrace.2 hhead), if_pos hhead, hlead.groupEnd?, ok_bind]
        cases hread : Group.read? (Identity.titleLead s.after).2 with
        | none =>
            simp only [Option.map_none, hstart, hstop] at hlead ⊢
            rw [hlead.cutFrom, ok_bind, hlead.lineEnd]
            simp only [size_append, Nat.add_assoc]
        | some g =>
            simp only [Option.map_some, hstart, hstop, size_append, Nat.add_assoc]
      · rw [if_neg fun hbyte => hhead (hbrace.1 hbyte), if_neg hhead]
        simp only [hstart, hstop, List.append_nil]

/-- The search for a title finds what the finder of titles marks. -/
theorem searches_findTitle? (t : Text) : Searches t (findTitle? t) Identity.titleFinder := by
  intro behind ahead i h
  rw [findTitle?, h.titleSpan?]
  exact congrArg Except.ok (Option.map_map _ _ _)

/-- A title ends with its argument, with its command, or with its line. -/
theorem titleFinder_edged : Identity.titleFinder.Edged where
  splits := Identity.titleFinder_splits
  head? h := by
    obtain ⟨s, -, rfl⟩ := Identity.titleFinder_eq_some h
    rfl
  isEdge h := by
    obtain ⟨s, hs, rfl⟩ := Identity.titleFinder_eq_some h
    obtain hname : s.name = Identity.titleName := List.mem_singleton.1 (Sighting.isIn_find? hs).1
    have hsource : EndsLine s.source := Sighting.endsLine_source (hname ▸ Identity.isWord_titleName)
    rcases Identity.titleArguments_cases s.after with hnone | ⟨g, -, hgroup⟩ | hline
    · rw [hnone]
      exact Or.inl (hsource.append endsLine_nil)
    · rw [hgroup]
      exact Or.inl ((g.endsLine_source.append_left g.source_ne_nil _).append_left (by simp [g.source_ne_nil]) _)
    · rw [hline]
      exact Or.inr (head?_firstLine _)

/-- **The directive is written without a fault** in the place of the first title. -/
theorem writeTitle?_eq (directive t : Text) :
    writeTitle? directive t =
      .ok ((Identity.titleFinder false t).map fun c =>
        (c.before ++ directive ++ (after? directive (c.span ++ c.after)).getD c.after,
          (c.before ++ directive).size)) := by
  rw [writeTitle?, (stands_zero t).titleSpan?, ok_bind, escapedAfter_nil]
  cases hc : Identity.titleFinder false t with
  | none => rfl
  | some c =>
      have htext : c.text = t := Identity.titleFinder_splits hc
      have hstart : Stands t c.before (c.span ++ c.after) c.before.size :=
        ⟨by rw [← List.append_assoc, ← Cut.text, htext], rfl⟩
      have hstop : Stands t (c.before ++ c.span) c.after (c.before.size + c.span.size) := hstart.advance
      simp only [Option.map_some, Nat.zero_add]
      rw [hstart.cutFrom, ok_bind, startsWith]
      cases hrest : after? directive (c.span ++ c.after) with
      | some rest =>
          have hdirective : t = c.before ++ directive ++ rest := by
            rw [List.append_assoc, ← after?_eq_some_iff.1 hrest]
            exact hstart.text_eq
          simp [← hdirective]
      | none =>
          rw [if_neg (by simp), hstart.cutTo, ok_bind, hstart.cut, ok_bind, hstop.cutFrom, ok_bind]
          simp

end Title

/-! ### Commands that print the title -/

/-- The next `\maketitle`, which goes as a whole. -/
def findMaketitle? (t : Text) (i : Nat) : Run (Option Found) :=
  (findCommand? t Identity.maketitleName i).map (·.map fun found => .whole (found.start, found.stop))

/-- **The text without the `\maketitle` commands** from a position on. -/
def removeMaketitles (t : Text) (i : Nat) : Run Removed := removeSpans t (findMaketitle? t) i

/-- The search for a `\maketitle` finds what the finder of the command marks. -/
theorem searches_findMaketitle? (t : Text) :
    Searches t (findMaketitle? t) (commandFinder Identity.maketitleName) := by
  intro behind ahead i h
  rw [findMaketitle?, h.findCommand?, commandFinder, Option.map_map]
  exact congrArg Except.ok (Option.map_map _ _ _)

/-! ### Spans that run forward -/

/-- **Deletions run forward** from a position on.  The spans lie behind it, each one ends before the next one starts,
and the output is the text with the spans replaced by what may be written in their place. -/
structure RunsForward (t : Text) (start : Nat) (Writes : Text → Text → Prop) (r : Removed) : Prop where
  /-- The spans hold something, and lie between the position and the end of the text. -/
  bounds : ∀ d ∈ r.deletions, start ≤ d.start ∧ d.start < d.stop ∧ d.stop ≤ t.size
  /-- They are disjoint and in order. -/
  pairwise : r.deletions.Pairwise fun d e => d.stop ≤ e.start
  /-- They are those of edits of the text, which lead to the output. -/
  exists_revision : ∃ revision : Revision, revision.given = t ∧ revision.result = r.output ∧
    revision.deletions 0 = r.deletions ∧ ∀ e ∈ revision.edits, Writes e.removed e.inserted

section Forward

variable {t mid ahead : Text}

/-- The deletions of a revision run forward from where it starts. -/
theorem runsForward_finish {r : Revision} {Writes : Text → Text → Prop} (htext : mid ++ r.given = t)
    (hedits : ∀ e ∈ r.edits, Writes e.removed e.inserted ∧ e.removed ≠ []) :
    RunsForward t mid.size Writes (Removing.start.finish (r.behind mid)) where
  bounds d hd := by
    have hd : d ∈ r.deletions mid.size := by simpa [Removing.finish, Removing.start] using hd
    obtain ⟨e, he, hstart, hstop, hle⟩ := Revision.exists_edit_of_mem_deletions hd
    have hpos := size_pos_of_ne_nil (hedits e he).2
    rw [← htext, size_append]
    exact ⟨hstart, by omega, hle⟩
  pairwise := Revision.pairwise_deletions 0 (r.behind mid)
  exists_revision := by
    refine ⟨r.behind mid, by rw [Revision.given_behind, htext], rfl, rfl, ?_⟩
    exact (Revision.forall_edits_behind mid).2 fun e he => (hedits e he).1

/-- **Removing all occurrences behind an edge** runs without a fault, and its deletions run forward from there. -/
theorem exists_removeSpans {find? : Nat → Run (Option Found)} {find : Finder} (hfind : find.Edged)
    (hsearch : Searches t find? find) (htext : mid ++ ahead = t) (hedge : IsEdge mid ahead) :
    ∃ r, removeSpans t find? mid.size = .ok r ∧ RunsForward t mid.size (fun _ inserted => inserted = []) r ∧
      r.output = mid ++ (removeAll find (escapedAfter false mid) (blankLineAfter true mid) ahead).result := by
  have hmid : Stands t mid ahead mid.size := ⟨htext.symm, rfl⟩
  have hcursor : Stands t [] (mid ++ ahead) Removing.start.cursor := htext ▸ stands_zero (mid ++ ahead)
  refine ⟨_, loop_removeAll hfind hsearch hmid hedge hcursor, runsForward_finish ?_ ?_, Revision.result_behind _ _⟩
  · rw [given_removeAll hfind.splits, htext]
  · exact hfind.forall_edits_removeAll _ _ ahead

/-- **The deletions of a directive run forward.** -/
theorem exists_removeDirective {d : Directive} (hname : IsWord d.name) (t : Text) :
    ∃ r, removeDirective d t = .ok r ∧ RunsForward t 0 d.Leaves r ∧ r.output = (d.revise false true t).result := by
  have hcursor : Stands t [] ([] ++ t) Removing.start.cursor := stands_zero t
  have hgiven : [] ++ (d.revise false true t).given = t := d.given_revise false true t
  refine ⟨_, loop_revise hname (stands_zero t) (isEdge_nil t) hcursor, runsForward_finish hgiven ?_,
    Revision.result_behind _ _⟩
  intro e he
  obtain ⟨hleaves, hlt⟩ := d.forall_edits_revise false true t e he
  refine ⟨hleaves, fun hnil => ?_⟩
  rw [hnil] at hlt
  exact Nat.not_lt_zero _ hlt

/-- **The first title is the directive**, and the deletions of the titles behind it run forward from its end. -/
def TitlesRunForward (directive t : Text) (place : Identity.TitlePlace) : Prop :=
  ∃ text rest start r, writeTitle? directive t = .ok (some (text, start)) ∧
    Stands text (place.before ++ directive) rest start ∧ removeTitles text start = .ok r ∧
    RunsForward text start (fun _ inserted => inserted = []) r ∧
    r.output = place.before ++ directive ++ place.after

theorem titlesRunForward_placeTitle (identity : Identity) (topic : Text) {c : Cut}
    (hc : Identity.titleFinder false t = some c) :
    TitlesRunForward (identity.titleDirective topic) t (Identity.placeTitle (identity.titleDirective topic) t) := by
  have hdirective : EndsLine (identity.titleDirective topic) := endsLine_concat _ (by decide)
  have hne : identity.titleDirective topic ≠ [] := List.cons_ne_nil _ _
  generalize identity.titleDirective topic = directive at hdirective hne ⊢
  have hends : EndsLine (c.before ++ directive) := hdirective.append_left hne c.before
  obtain ⟨r, hr, hforward, houtput⟩ := exists_removeSpans titleFinder_edged (searches_findTitle? _) rfl (Or.inl hends)
  rw [TitlesRunForward, writeTitle?_eq, Identity.placeTitle, hc, Option.map_some]
  exact ⟨_, _, _, r, rfl, ⟨rfl, rfl⟩, hr, hforward, houtput⟩

/-- **The deletions of later `\maketitle` commands run forward** from the end of the first one. -/
theorem exists_removeMaketitles {s : Sighting} (hs : Sighting.find? [Identity.maketitleName] false t = some s) :
    ∃ r, removeMaketitles t (Offset.commandSpan 0 s).stop = .ok r ∧
      RunsForward t (Offset.commandSpan 0 s).stop (fun _ inserted => inserted = []) r ∧
      ∀ directive place, place.before ++ directive ++ place.after = t →
        Identity.oneMaketitle directive place = r.output := by
  obtain hname : s.name = Identity.maketitleName := List.mem_singleton.1 (Sighting.isIn_find? hs).1
  have hstop : (Offset.commandSpan 0 s).stop = size (s.before ++ s.source) := by
    rw [size_append, Offset.commandSpan, Nat.zero_add]
  have hends : EndsLine (s.before ++ s.source) :=
    (Sighting.endsLine_source (hname ▸ Identity.isWord_maketitleName)).append_left (by simp [Sighting.source]) _
  obtain ⟨r, hr, hforward, houtput⟩ := exists_removeSpans (commandFinder_edged Identity.isWord_maketitleName)
    (searches_findMaketitle? t) (Sighting.text_find? hs) (Or.inl hends)
  rw [hstop]
  refine ⟨r, hr, hforward, fun directive place hplace => ?_⟩
  rw [Identity.oneMaketitle, hplace, hs, houtput]

/-- **Deletions never run backwards.**  In every text, the loops that take out a directive, the titles behind the one
that was written, and the `\maketitle` commands behind the first one run without a fault, so no slice that they copy
ends before it starts.  Their spans, grown to whole lines, are disjoint and in order, and reach back over nothing that
was kept. -/
theorem deletions_run_forward (t : Text) {d : Directive} (hname : IsWord d.name) (identity : Identity) (topic : Text) :
    (∃ r, removeDirective d t = .ok r ∧ RunsForward t 0 d.Leaves r ∧ r.output = (d.revise false true t).result) ∧
      ((Identity.titleFinder false t = none ∧ writeTitle? (identity.titleDirective topic) t = .ok none) ∨
        TitlesRunForward (identity.titleDirective topic) t
          (Identity.placeTitle (identity.titleDirective topic) t)) ∧
      (findCommand? t Identity.maketitleName 0 = .ok none ∨
        ∃ first r, findCommand? t Identity.maketitleName 0 = .ok (some first) ∧
          removeMaketitles t first.stop = .ok r ∧
          RunsForward t first.stop (fun _ inserted => inserted = []) r ∧
          ∀ directive place, place.before ++ directive ++ place.after = t →
            Identity.oneMaketitle directive place = r.output) := by
  refine ⟨exists_removeDirective hname t, ?_, ?_⟩
  · cases hc : Identity.titleFinder false t with
    | none => exact Or.inl ⟨rfl, by rw [writeTitle?_eq, hc, Option.map_none]⟩
    | some c => exact Or.inr (titlesRunForward_placeTitle identity topic hc)
  · have hfind := (stands_zero t).findCommand? Identity.maketitleName
    rw [escapedAfter_nil] at hfind
    cases hs : Sighting.find? [Identity.maketitleName] false t with
    | none =>
        rw [hs] at hfind
        exact Or.inl hfind
    | some s =>
        obtain ⟨r, hr, hforward, houtput⟩ := exists_removeMaketitles hs
        rw [hs] at hfind
        exact Or.inr ⟨_, r, hfind, hr, hforward, houtput⟩

/-- A sheet in which spans start on the lines where others end. -/
def crowded : Text :=
  ("\\title\x7bA\x7d\n\\usepackage\x7btitlesec\n\x7d \\usepackage\x7bx,titlesec\x7d\n" ++
    "\\title[b\n]\x7bB\x7d \\title\x7bC\n\\maketitle\n \\maketitle \nd").toList

/-- The second import starts on the line where the first one ends, and its growth does not reach back. -/
theorem deletions_run_forward_of_crowded :
    IsWord "usepackage".toList ∧
      (∃ r, removeDirective ⟨"usepackage".toList, .package "titlesec".toList⟩ crowded = .ok r ∧
        RunsForward crowded 0 (Directive.Leaves ⟨"usepackage".toList, .package "titlesec".toList⟩) r ∧
        r.deletions = [⟨10, 32, []⟩, ⟨33, 56, "\\usepackage\x7bx\x7d".toList⟩]) ∧
      TitlesRunForward (Identity.titleDirective {} ['T']) crowded
        (Identity.placeTitle (Identity.titleDirective {} ['T']) crowded) ∧
      ∃ r, removeMaketitles crowded 90 = .ok r ∧ RunsForward crowded 90 (fun _ inserted => inserted = []) r ∧
        r.deletions = [⟨91, 104, []⟩] := by
  have hname : IsWord "usepackage".toList := ⟨by decide, by decide⟩
  obtain ⟨⟨r, hr, hforward, -⟩, htitles, hmaketitles⟩ := deletions_run_forward crowded
    (d := ⟨"usepackage".toList, .package "titlesec".toList⟩) hname {} ['T']
  have himports : (removeDirective ⟨"usepackage".toList, .package "titlesec".toList⟩ crowded).map (·.deletions) =
      .ok [⟨10, 32, []⟩, ⟨33, 56, "\\usepackage\x7bx\x7d".toList⟩] := by decide +kernel
  have htitle : Identity.titleFinder false crowded ≠ none := by decide +kernel
  have hfirst : findCommand? crowded Identity.maketitleName 0 = .ok (some ⟨80, 90, false⟩) := by decide +kernel
  have hlater : (removeMaketitles crowded 90).map (·.deletions) = .ok [⟨91, 104, []⟩] := by decide +kernel
  refine ⟨hname, ⟨r, hr, hforward, ?_⟩, htitles.resolve_left fun hnone => htitle hnone.1, ?_⟩
  · rw [hr] at himports
    exact Except.ok.inj himports
  · rw [hfirst] at hmaketitles
    obtain ⟨first, r', hsome, hr', hforward', -⟩ := hmaketitles.resolve_left (by simp)
    obtain rfl : ⟨80, 90, false⟩ = first := Option.some.inj (Except.ok.inj hsome)
    rw [hr'] at hlater
    exact ⟨r', hr', hforward', Except.ok.inj hlater⟩

end Forward

end CribSheet.Checked
