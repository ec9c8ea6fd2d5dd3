/-
What dropping a package takes from an import list.

The names that are kept of an import list are the pieces between its commas, trimmed, without the empty
ones and without the package.  Nothing that lasts goes with the others.  A title in the list may be cut
by its own commas, but its first piece begins with a backslash and its last one ends with a brace, so
both are kept and what stands between them makes up a title again.

Main definitions:

* `CribSheet.Payload.Droppable` — packages whose name holds nothing that lasts;
* `CribSheet.Payload.keptList` — the names that are kept, as they are written.

Main results:

* `CribSheet.Payload.heads_keptList_le`, `CribSheet.Payload.Lasting.countP_keptList` — what an import
  list loses;
* `CribSheet.Payload.tracked_keptList` — a title in an import list.
-/
import CribSheet.Payload.Directive
import CribSheet.Proofs.Markup.Pieces
import CribSheet.Proofs.Payload.Gentle

set_option relaxedAutoImplicit false
set_option autoImplicit false

namespace CribSheet.Payload

open CribSheet.Text CribSheet.Markup CribSheet.Identity

/-! ### The names that are kept -/

/-- A name that counts as the package holds nothing but letters that need not last. -/
def Droppable (package : Text) : Prop :=
  ∀ name, Directive.sameName package name = true →
    ∀ c ∈ name, c ∈ ['t', 'i', 'l', 'e', 's', 'c', 'T', 'I', 'L', 'E', 'S', 'C']

/-- The piece of the list holds a name other than the package. -/
def keeps (package piece : Text) : Bool :=
  piece.trim ≠ [] && !Directive.sameName package piece.trim

/-- The pieces that are kept, trimmed. -/
def keptPieces (package : Text) (pieces : List Text) : List Text :=
  (pieces.filter (keeps package)).map trim

/-- The list without the package, as it is written. -/
def keptList (package list : Text) : Text :=
  joinWith [','] (keptPieces package (list.splitOn ','))

theorem filter_importNames (package list : Text) :
    ((Directive.importNames list).filter fun name => !Directive.sameName package name) =
      keptPieces package (list.splitOn ',') := by
  rw [Directive.importNames, List.filter_filter, keptPieces, List.filter_map]
  congr 1
  refine List.filter_congr fun piece _ => ?_
  simp [keeps, Bool.and_comm]

theorem keptPieces_append (package : Text) (before after : List Text) :
    keptPieces package (before ++ after) = keptPieces package before ++ keptPieces package after := by
  simp [keptPieces]

theorem keptPieces_cons_of_keeps {package piece : Text} (h : keeps package piece = true)
    (pieces : List Text) :
    keptPieces package (piece :: pieces) = piece.trim :: keptPieces package pieces := by
  simp [keptPieces, h]

/-- A piece that is dropped holds nothing that lasts. -/
theorem countP_eq_zero_of_not_keeps {package piece : Text} (hp : Droppable package)
    (h : keeps package piece = false) {q : Char → Bool} (hq : Lasting q) : piece.countP q = 0 := by
  rw [← hq.visible.countP_trim]
  by_cases hnil : piece.trim = []
  · rw [hnil]
    rfl
  · have hsame : Directive.sameName package piece.trim = true := by
      simpa [keeps, hnil] using h
    refine List.countP_eq_zero.2 fun c hc hqc => ?_
    have hletter := hp _ hsame c hc
    refine (hq c hqc).2 ?_
    exact List.mem_append_right [',', '\\', 'n', 'r'] hletter

theorem sum_countP_keptPieces {package : Text} (hp : Droppable package) {q : Char → Bool}
    (hq : Lasting q) (pieces : List Text) :
    ((keptPieces package pieces).map (List.countP q)).sum = (pieces.map (List.countP q)).sum := by
  induction pieces with
  | nil => rfl
  | cons piece pieces ih =>
      cases hkeeps : keeps package piece with
      | true =>
          rw [keptPieces_cons_of_keeps hkeeps, List.map_cons, List.map_cons, List.sum_cons,
            List.sum_cons, ih, hq.visible.countP_trim]
      | false =>
          have hzero := countP_eq_zero_of_not_keeps hp hkeeps hq
          have hdrop : keptPieces package (piece :: pieces) = keptPieces package pieces := by
            simp [keptPieces, hkeeps]
          rw [hdrop, ih, List.map_cons, List.sum_cons, hzero, Nat.zero_add]

theorem sum_heads_keptPieces (package : Text) (pieces : List Text) :
    ((keptPieces package pieces).map (heads false)).sum ≤ (pieces.map (heads false)).sum := by
  have htrim : (keptPieces package pieces).map (heads false) =
      (pieces.filter (keeps package)).map (heads false) := by
    rw [keptPieces, List.map_map]
    exact List.map_congr_left fun piece _ => heads_trim piece
  rw [htrim]
  exact sum_map_filter_le _ _ _

theorem Lasting.comma {q : Char → Bool} (hq : Lasting q) : q ',' = false := by
  cases h : q ',' with
  | false => rfl
  | true => exact absurd (by decide) (hq _ h).2

/-- **No command comes into an import list.** -/
theorem heads_keptList_le (package list : Text) :
    heads false (keptList package list) ≤ heads false list := by
  conv => rhs; rw [← joinWith_splitOn ',' list, heads_joinWith (by decide) (by decide)]
  rw [keptList, heads_joinWith (by decide) (by decide)]
  exact sum_heads_keptPieces package _

/-- **Nothing that lasts goes from an import list.** -/
theorem Lasting.countP_keptList {q : Char → Bool} (hq : Lasting q) {package : Text}
    (hp : Droppable package) (list : Text) : (keptList package list).countP q = list.countP q := by
  conv => rhs; rw [← joinWith_splitOn ',' list, countP_joinWith hq.comma]
  rw [keptList, countP_joinWith hq.comma]
  exact sum_countP_keptPieces hp hq _

/-! ### Titles in a list -/

/-- What begins a title with an argument. -/
def titleStart : Text := '\\' :: titleName ++ ['{']

theorem plainTitle_eq (y : Text) : plainTitle y = titleStart ++ y ++ ['}'] := by
  simp [plainTitle, titleStart]

/-- A piece with a character that no name of a package holds is kept. -/
theorem keeps_of_mem {package piece : Text} (hp : Droppable package) {c : Char}
    (hmem : c ∈ piece.trim)
    (hc : c ∉ ['t', 'i', 'l', 'e', 's', 'c', 'T', 'I', 'L', 'E', 'S', 'C']) :
    keeps package piece = true := by
  have hne : piece.trim ≠ [] := List.ne_nil_of_mem hmem
  have hsame : Directive.sameName package piece.trim = false := by
    cases h : Directive.sameName package piece.trim with
    | false => rfl
    | true => exact absurd (hp _ h c hmem) hc
  simp [keeps, hne, hsame]

theorem trim_append_titleStart_append (l y : Text) :
    trim (l ++ titleStart ++ y) = l.trimStart ++ titleStart ++ y.trimEnd := by
  have hslash : isBlank '\\' = false := by decide
  have hbrace : isBlank '{' = false := by decide
  have hstart : l ++ titleStart ++ y = l ++ '\\' :: (titleName ++ '{' :: y) := by simp [titleStart]
  have hend : l.trimStart ++ '\\' :: (titleName ++ '{' :: y) =
      (l.trimStart ++ '\\' :: titleName) ++ '{' :: y := by simp
  rw [hstart, trim, trimStart_append_cons hslash, hend, trimEnd, dropEndWhile_append_cons hbrace]
  simp [titleStart, trimEnd]

theorem trim_append_brace_append (y f : Text) :
    trim (y ++ ['}'] ++ f) = y.trimStart ++ ['}'] ++ f.trimEnd := by
  have hbrace : isBlank '}' = false := by decide
  have hstart : y ++ ['}'] ++ f = y ++ '}' :: f := by simp
  rw [hstart, trim, trimStart_append_cons hbrace, trimEnd, dropEndWhile_append_cons hbrace]
  simp [trimEnd]

/-- The piece with the start of a title is kept. -/
theorem keeps_titleStart {package : Text} (hp : Droppable package) (l x : Text) :
    keeps package (l ++ titleStart ++ x) = true := by
  refine keeps_of_mem hp (c := '{') ?_ (by decide)
  rw [trim_append_titleStart_append]
  simp [titleStart]

/-- The piece with the end of a title is kept. -/
theorem keeps_brace {package : Text} (hp : Droppable package) (x f : Text) :
    keeps package (x ++ ['}'] ++ f) = true := by
  refine keeps_of_mem hp (c := '}') ?_ (by decide)
  rw [trim_append_brace_append]
  simp

section Title

variable {package a b l f y : Text} {before after : List Text}

/-- A title without a comma stands in one piece of the list. -/
theorem keptList_title_of_piece (hp : Droppable package) (ha : splitOn ',' a = before ++ [l])
    (hb : splitOn ',' b = f :: after) (hy : splitOn ',' y = [y]) :
    keptList package (a ++ plainTitle y ++ b) =
      leadJoin ',' (keptPieces package before) ++ l.trimStart ++ plainTitle y ++
        (f.trimEnd ++ trailJoin ',' (keptPieces package after)) := by
  have hstart : splitOn ',' titleStart = [] ++ [titleStart] := splitOn_eq_singleton (by decide)
  have hbrace : splitOn ',' ['}'] = ['}'] :: [] := splitOn_eq_singleton (by decide)
  have hpieces := splitOn_append (splitOn_append (splitOn_append (splitOn_append ha hstart) hy) hbrace) hb
  have htext : a ++ plainTitle y ++ b = a ++ titleStart ++ y ++ ['}'] ++ b := by
    simp [plainTitle_eq]
  have hend : (y ++ ['}'] ++ f).trimEnd = y ++ ['}'] ++ f.trimEnd := by
    have h := dropEndWhile_append_cons (p := isBlank) (by decide : isBlank '}' = false) y f
    simpa [trimEnd] using h
  have htrim : (l ++ titleStart ++ y ++ ['}'] ++ f).trim = l.trimStart ++ plainTitle y ++ f.trimEnd := by
    have h := trim_append_titleStart_append l (y ++ ['}'] ++ f)
    rw [hend] at h
    simpa [plainTitle_eq] using h
  rw [keptList, htext, hpieces, keptPieces_append, keptPieces_cons_of_keeps (keeps_brace hp _ f),
    joinWith_append_cons, htrim]
  simp

/-- A title with commas is cut at the first and at the last one, and what stands between is kept or not. -/
theorem keptList_title_of_pieces {y₀ last : Text} {mid : List Text} (hp : Droppable package)
    (ha : splitOn ',' a = before ++ [l]) (hb : splitOn ',' b = f :: after)
    (hy : splitOn ',' y = y₀ :: (mid ++ [last])) :
    keptList package (a ++ plainTitle y ++ b) =
      leadJoin ',' (keptPieces package before) ++ l.trimStart ++
        plainTitle (y₀.trimEnd ++ trailJoin ',' (keptPieces package mid) ++ ',' :: last.trimStart) ++
        (f.trimEnd ++ trailJoin ',' (keptPieces package after)) := by
  have hstart : splitOn ',' titleStart = [] ++ [titleStart] := splitOn_eq_singleton (by decide)
  have hbrace : splitOn ',' ['}'] = ['}'] :: [] := splitOn_eq_singleton (by decide)
  have hopening := splitOn_append (splitOn_append ha hstart) hy
  have hsplit : before ++ (l ++ titleStart ++ y₀) :: (mid ++ [last]) =
      (before ++ (l ++ titleStart ++ y₀) :: mid) ++ [last] := by simp
  rw [hsplit] at hopening
  have hpieces := splitOn_append (splitOn_append hopening hbrace) hb
  have htext : a ++ plainTitle y ++ b = a ++ titleStart ++ y ++ ['}'] ++ b := by
    simp [plainTitle_eq]
  rw [keptList, htext, hpieces, keptPieces_append, keptPieces_append,
    keptPieces_cons_of_keeps (keeps_titleStart hp l y₀), keptPieces_cons_of_keeps (keeps_brace hp last f),
    List.append_assoc, List.cons_append, joinWith_append_cons, trailJoin_append, trailJoin_cons,
    trim_append_titleStart_append, trim_append_brace_append]
  simp [plainTitle_eq]

/-- What stands between the commas of an argument comes from the argument. -/
theorem mem_of_mem_kept_between {y₀ last : Text} {mid : List Text} {c : Char}
    (hc : c ∈ y₀.trimEnd ++ trailJoin ',' (keptPieces package mid) ++ ',' :: last.trimStart) :
    c ∈ y₀ ++ trailJoin ',' (mid ++ [last]) ∨ c = ',' := by
  rcases List.mem_append.1 hc with hc | hc
  · rcases List.mem_append.1 hc with hc | hc
    · exact Or.inl (List.mem_append_left _ (deletes_trimEnd y₀ |>.subset hc))
    · rcases mem_of_mem_trailJoin hc with rfl | ⟨piece, hpiece, hc⟩
      · exact Or.inr rfl
      · obtain ⟨piece', hmem, rfl⟩ := List.mem_map.1 hpiece
        have hmem' : piece' ∈ mid ++ [last] :=
          List.mem_append_left _ (List.mem_of_mem_filter hmem)
        have hc' := (deletes_trim piece').subset hc
        exact Or.inl (List.mem_append_right _ (mem_trailJoin_of_mem hmem' hc'))
  · rcases List.mem_cons.1 hc with rfl | hc
    · exact Or.inr rfl
    · have hmem : last ∈ mid ++ [last] := by simp
      have hc' := (deletes_trimStart last).subset hc
      exact Or.inl (List.mem_append_right _ (mem_trailJoin_of_mem hmem hc'))

/-- **A title in an import list** is a title in the list that is kept, with an argument that has no new
characters but commas. -/
theorem exists_keptList_title (hp : Droppable package) (y : Text) (ha : splitOn ',' a = before ++ [l])
    (hb : splitOn ',' b = f :: after) :
    ∃ y', (∀ c ∈ y', c ∈ y ∨ c = ',') ∧
      keptList package (a ++ plainTitle y ++ b) =
        leadJoin ',' (keptPieces package before) ++ l.trimStart ++ plainTitle y' ++
          (f.trimEnd ++ trailJoin ',' (keptPieces package after)) := by
  obtain ⟨y₀, ys, hy, hjoin⟩ := exists_splitOn_eq_cons ',' y
  rcases List.eq_nil_or_concat ys with rfl | ⟨mid, last, rfl⟩
  · obtain rfl : y = y₀ := by simpa using hjoin
    exact ⟨y, fun c hc => Or.inl hc, keptList_title_of_piece hp ha hb hy⟩
  · rw [List.concat_eq_append] at hy hjoin
    exact ⟨_, fun c hc => hjoin ▸ mem_of_mem_kept_between hc, keptList_title_of_pieces hp ha hb hy⟩

end Title

/-- **A title can be followed through an import list**; it is never lost there. -/
theorem tracked_keptList {package : Text} (hp : Droppable package) (m : Mark) (hm : m.Fits false) :
    ∃ m' : Mark, m'.text = keptList package m.text ∧ m'.Fits false ∧
      Sheds (heads false m.text) m.outside (heads false m'.text) m'.outside := by
  obtain ⟨before, l, ha, hbefore⟩ := exists_splitOn_eq_concat ',' m.before
  obtain ⟨f, after, hb, hafter⟩ := exists_splitOn_eq_cons ',' m.after
  obtain ⟨y', hy', htext⟩ := exists_keptList_title hp m.argument ha hb
  have hfresh : escapedAfter false (leadJoin ',' (keptPieces package before) ++ l.trimStart) = false := by
    have hf := hm.fresh
    rw [hbefore, escapedAfter_append, escapedAfter_leadJoin (by decide)] at hf
    rw [escapedAfter_append, escapedAfter_leadJoin (by decide), escapedAfter_trimStart hf]
  have hfits : (Mark.mk (leadJoin ',' (keptPieces package before) ++ l.trimStart) y'
      (f.trimEnd ++ trailJoin ',' (keptPieces package after))).Fits false := by
    refine ⟨fun c hc => ?_, fun hc => ?_, hfresh⟩
    · rcases hy' c hc with hc | rfl
      · exact hm.plain c hc
      · decide
    · rcases hy' _ hc with hc | hc
      · exact hm.line hc
      · exact absurd hc (by decide)
  refine ⟨⟨leadJoin ',' (keptPieces package before) ++ l.trimStart, y',
    f.trimEnd ++ trailJoin ',' (keptPieces package after)⟩, htext.symm, hfits,
    Sheds.of_lasting ?_ fun q hq => ?_⟩
  · have hle := sum_heads_keptPieces package before
    have hle' := sum_heads_keptPieces package after
    have hf : heads false f.trimEnd = heads false f := heads_dropEndWhile (fun _ h => h) false f
    rw [Mark.heads_text hfits, Mark.heads_text hm, hbefore, hafter,
      heads_leadJoin_append (by decide) (by decide), heads_append_trailJoin (by decide) (by decide),
      heads_leadJoin_append (by decide) (by decide), heads_append_trailJoin (by decide) (by decide),
      heads_trimStart, hf]
    omega
  · have hf : f.trimEnd.countP q = f.countP q := hq.visible.countP_dropEndWhile (fun _ h => h) f
    have hsum := sum_countP_keptPieces hp hq (before ++ after)
    rw [Mark.outside, Mark.outside, hbefore, hafter, countP_around hq.comma, countP_around hq.comma,
      ← keptPieces_append, hsum, hq.visible.countP_trimStart, hf]

end CribSheet.Payload
