/-
The items of a list, byte by byte.

The items of a list body are searched from position to position: an environment that ends before the next item command
is skipped, so that the items of a nested list are left to it.  What comes of the search are the positions at which the
body is cut.

Main definitions:

* `CribSheet.Checked.nextOpening?` — the next marker that opens an environment;
* `CribSheet.Checked.itemStarts` — where the items of a list body start;
* `CribSheet.Checked.parseItems` — what stands before the first item, and the blocks of each item.

Main results:

* `CribSheet.Checked.itemStarts_eq` — **the search for items runs without a fault**, and finds where the items stand;
* `CribSheet.Checked.parseItems_eq` — the body is cut into the texts of its items.
-/
import CribSheet.Proofs.Bytes.Marker
import CribSheet.Proofs.Display.WrittenItems

set_option relaxedAutoImplicit false
set_option autoImplicit false

namespace CribSheet.Checked

open Text Markup

/-! ### The next environment -/

/-- One round of the search for a marker that opens an environment. -/
def openingRound (t : Text) (_ : Unit) (i : Nat) : Run (Round Unit (Option (Nat × Text))) := do
  match ← nextMarker? t i with
  | none => .ok (.done none)
  | some marker =>
    match marker.kind with
    | .opens => .ok (.done (some (marker.stop, marker.name)))
    | .closes => .ok (.next () marker.stop)

/-- The end and the name of the next marker that opens an environment. -/
def nextOpening? (t : Text) (i : Nat) : Run (Option (Nat × Text)) := loop t.size (openingRound t) () i

/-- The position behind a marker, and the name of its environment. -/
def openingSpan (i : Nat) (m : Marker) : Nat × Text := ((Offset.markerSpan i m).stop, m.name)

section Openings

variable {t behind ahead : Text} {i : Nat}

theorem Stands.nextOpening? (h : Stands t behind ahead i) (hfresh : escapedAfter false behind = false) :
    Checked.nextOpening? t i = .ok ((CribSheet.nextOpening? ahead).map (openingSpan i)) := by
  rw [Checked.nextOpening?]
  fun_induction CribSheet.nextOpening? ahead generalizing behind i with
  | case1 ahead hm =>
      refine loop_done ?_
      rw [openingRound, h.nextMarker?, hfresh, hm]
      rfl
  | case2 ahead m hm hlt hkind =>
      refine loop_done ?_
      rw [openingRound, h.nextMarker?, hfresh, hm, Option.map_some, ok_bind]
      simp only [Offset.markerSpan, hkind]
      rfl
  | case3 ahead m hm hlt hkind ih =>
      have hround : openingRound t () i = .ok (.next () (Offset.markerSpan i m).stop) := by
        rw [openingRound, h.nextMarker?, hfresh, hm, Option.map_some, ok_bind]
        cases hcloses : m.kind with
        | opens => exact absurd hcloses hkind
        | closes => simp only [Offset.markerSpan, hcloses]
      have hbehind := h.afterMarker hm
      have hfresh' : escapedAfter false (behind ++ (m.before ++ m.source)) = false := by
        rw [escapedAfter_append, hfresh, Marker.escapedAfter_next? hm]
      have hsize := hbehind.size_text
      have hpos := size_pos_of_next? hm
      have hstop : (Offset.markerSpan i m).stop = i + size (m.before ++ m.source) := by
        rw [size_append, ← Nat.add_assoc]
        rfl
      rw [loop_next hround (by omega) (by omega), ih hbehind hfresh', Option.map_map]
      congr 2
      funext m'
      simp [openingSpan, Offset.markerSpan, Marker.behind, Nat.add_assoc]

/-- No escape is open behind an opening marker. -/
theorem escapedAfter_nextOpening? {m : Marker} (hm : CribSheet.nextOpening? ahead = some m) :
    escapedAfter false (m.before ++ m.source) = false := by
  fun_induction CribSheet.nextOpening? ahead generalizing m with
  | case1 => simp at hm
  | case2 ahead marker hmarker hlt hkind =>
      obtain rfl := Option.some.inj hm
      exact Marker.escapedAfter_next? hmarker
  | case3 ahead marker hmarker hlt hkind ih =>
      obtain ⟨m', hm', rfl⟩ := Option.map_eq_some_iff.1 hm
      rw [Marker.behind, List.append_assoc, escapedAfter_append, Marker.escapedAfter_next? hmarker, ih hm']

/-- Nor is one behind its region. -/
theorem escapedAfter_before_regionOf {m : Marker} (hm : CribSheet.nextOpening? ahead = some m) :
    escapedAfter false (m.before ++ (regionOf m).1) = false := by
  have hmarker := escapedAfter_nextOpening? hm
  unfold regionOf
  split
  · next c hc =>
      rw [List.append_assoc, ← List.append_assoc, escapedAfter_append, hmarker]
      exact Closing.escapedAfter_find? hc
  · exact hmarker

end Openings

/-! ### Labels -/

/-- The position behind the label of an item. -/
def skipItemLabel (t : Text) (i : Nat) : Run Nat := do
  let next ← skipArgumentSpace t i
  let ahead ← cutFrom t next
  if startsWith ['['] ahead then
    let stop ← groupEnd? t next
    .ok (stop.getD i)
  else .ok i

/-- No escape is open behind a label. -/
theorem escapedAfter_itemLabel (t : Text) : escapedAfter false (itemLabel t).1 = false := by
  unfold itemLabel
  split
  · next g hg =>
      rw [escapedAfter_append, escapedAfter_blank (isBlankText_argumentSpace t)]
      exact escapedAfter_source_of_read? (Option.filter_eq_some_iff.1 hg).1
  · rfl

theorem Stands.skipItemLabel {t behind ahead : Text} {i : Nat} (h : Stands t behind ahead i) :
    Checked.skipItemLabel t i = .ok (i + size (itemLabel ahead).1) := by
  have hspace := h.afterSpace
  rw [Checked.skipItemLabel, h.skipArgumentSpace, ok_bind, hspace.cutFrom, ok_bind, itemLabel, readBracket?_eq]
  cases startsWith ['['] (argumentSpace ahead).2 with
  | false => rfl
  | true =>
      rw [if_pos rfl, if_pos rfl, hspace.groupEnd?, ok_bind]
      cases Group.read? (argumentSpace ahead).2 with
      | none => rfl
      | some g =>
          simp only [Option.map_some, Option.getD_some]
          rw [size_append, ← Nat.add_assoc]

/-! ### Where the items start -/

/-- One round of the search for items: where the next one starts, and where its text does. -/
def itemRound (t : Text) (found : List (Nat × Nat)) (i : Nat) : Run (Round (List (Nat × Nat)) (List (Nat × Nat))) := do
  match ← findCommand? t itemName i with
  | none => .ok (.done found)
  | some item =>
    let opening ← nextOpening? t i
    match opening.filter fun marker => decide (marker.1 ≤ item.start) with
    | some (stop, name) => do
      let closing ← matchingEnd? t name stop
      .ok (.next found (closing.elim stop Prod.snd))
    | none => do
      let start ← skipItemLabel t item.stop
      .ok (.next (found ++ [(item.start, start)]) start)

/-- Where the items of a list body start, and where their texts do. -/
def itemStarts (t : Text) : Run (List (Nat × Nat)) := loop t.size (itemRound t) [] 0

/-- **The starts are those of the parts**, the first of which starts at a position. -/
inductive Starts (t : Text) : Nat → List (Nat × Nat) → Text × List Text → Prop
  /-- There is no other part. -/
  | last {behind ahead : Text} {i : Nat} (h : Stands t behind ahead i) : Starts t i [] (ahead, [])
  /-- The next part starts behind the command of an item. -/
  | item {behind first command rest : Text} {i : Nat} {starts : List (Nat × Nat)} {parts : Text × List Text}
      (h : Stands t behind (first ++ command ++ rest) i)
      (hparts : Starts t (i + first.size + command.size) starts parts) :
    Starts t i ((i + first.size, i + first.size + command.size) :: starts) (first, parts.1 :: parts.2)

section Starts

variable {t front ahead : Text} {i : Nat}

/-- The first part may start earlier. -/
theorem Starts.behind {u : Text} {starts : List (Nat × Nat)} {parts : Text × List Text}
    (h : Starts t (i + u.size) starts parts) (hu : Stands t front (u ++ ahead) i) :
    Starts t i starts (u ++ parts.1, parts.2) := by
  have hahead : ∀ {x w : Text}, Stands t x w (i + u.size) → Stands t front (u ++ w) i := fun hw => by
    obtain ⟨-, rfl⟩ := Prod.mk.inj (Option.some.inj (hw.splitAt?.symm.trans hu.advance.splitAt?))
    exact hu
  generalize hj : i + u.size = j at h hahead
  cases h with
  | last h => exact .last (hahead h)
  | @item x first command rest _ starts parts h hparts =>
      have hstart : i + size (u ++ first) = j + first.size := by rw [size_append, ← Nat.add_assoc, hj]
      rw [← hstart] at hparts ⊢
      exact .item (by simpa using hahead h) hparts

/-- The items of a text with something in front that the search for items passes over. -/
theorem items_behind {u rest : Text} (hahead : ahead = u ++ rest)
    (hnext : ItemMark.next? ahead = (ItemMark.next? rest).map (ItemMark.behind u)) :
    items ahead = (u ++ (items rest).1, (items rest).2) := by
  cases hrest : ItemMark.next? rest with
  | none =>
      rw [hrest, Option.map_none] at hnext
      rw [items_of_next?_eq_none hnext, items_of_next?_eq_none hrest, hahead]
  | some mark =>
      rw [hrest, Option.map_some] at hnext
      rw [items_of_next? hnext, items_of_next? hrest]
      rfl

/-- Of two beginnings of a text the one with fewer characters has fewer bytes. -/
theorem size_le_size_iff {u v w x : Text} (h : u ++ w = v ++ x) : u.size ≤ v.size ↔ u.length ≤ v.length := by
  have hlt : ∀ {u z : Text}, z ≠ [] → u.size < size (u ++ z) := fun {u z} hz => by
    obtain ⟨c, z, rfl⟩ := List.exists_cons_of_ne_nil hz
    have hpos := Char.utf8Size_pos c
    rw [size_append, size_cons]
    omega
  rcases List.append_eq_append_iff.1 h with ⟨z, rfl, -⟩ | ⟨z, rfl, -⟩
  · simp
  · cases z with
    | nil => simp
    | cons c z =>
        have hsize := hlt (u := v) (List.cons_ne_nil c z)
        rw [List.length_append, List.length_cons]
        constructor <;> intro hle <;> omega

theorem opensBefore_iff {m : Marker} {s : Sighting} (h : m.text = s.text) :
    ItemMark.opensBefore m s = true ↔ (openingSpan i m).1 ≤ (Offset.commandSpan i s).start := by
  have hle := size_le_size_iff (u := m.before ++ m.source) (v := s.before) (w := m.after) (x := s.source ++ s.after)
    (by rw [← Marker.text, h, Sighting.text, List.append_assoc])
  rw [size_append, List.length_append] at hle
  rw [ItemMark.opensBefore, decide_eq_true_iff, ← hle, openingSpan, Offset.markerSpan, Offset.commandSpan]
  simp only
  omega

/-- The position behind a region. -/
theorem Stands.afterRegion {m : Marker} (h : Stands t front ahead i) (hfresh : escapedAfter false front = false)
    (hm : CribSheet.nextOpening? ahead = some m) :
    Stands t (front ++ (m.before ++ (regionOf m).1)) (regionOf m).2 (i + size (m.before ++ (regionOf m).1)) ∧
      ∃ closing, Checked.matchingEnd? t m.name (openingSpan i m).1 = .ok closing ∧
        closing.elim (openingSpan i m).1 Prod.snd = i + size (m.before ++ (regionOf m).1) := by
  have hahead : m.before ++ m.source ++ m.after = ahead := text_nextOpening? hm
  have hmarker : Stands t (front ++ (m.before ++ m.source)) m.after (openingSpan i m).1 := by
    have hadvance : Stands t front ((m.before ++ m.source) ++ m.after) i := hahead.symm ▸ h
    have hsize : (openingSpan i m).1 = i + size (m.before ++ m.source) := by
      rw [size_append, ← Nat.add_assoc]
      rfl
    exact hsize ▸ hadvance.advance
  have hfresh' : escapedAfter false (front ++ (m.before ++ m.source)) = false := by
    rw [escapedAfter_append, hfresh, escapedAfter_nextOpening? hm]
  refine ⟨Stands.advance ?_, _, hmarker.matchingEnd? m.name, ?_⟩
  · rwa [List.append_assoc, regionOf_append, ← List.append_assoc, hahead]
  · rw [hfresh', regionOf]
    cases Closing.find? m.name 0 false m.after with
    | none => simp [openingSpan, Offset.markerSpan, Nat.add_assoc]
    | some c => simp [openingSpan, Offset.markerSpan, closingSpan, Nat.add_assoc]

/-- From a position on, the search adds where the items start that lie ahead. -/
def FindsStarts (t : Text) (i : Nat) (ahead : Text) : Prop :=
  ∀ found, ∃ starts, Starts t i starts (items ahead) ∧ loop t.size (itemRound t) found i = .ok (found ++ starts)

/-- There is no item command. -/
theorem findsStarts_of_find?_eq_none (h : Stands t front ahead i) (hfresh : escapedAfter false front = false)
    (hc : Sighting.find? [itemName] false ahead = none) : FindsStarts t i ahead := by
  intro found
  have hcommand := h.findCommand? itemName
  rw [hfresh, hc] at hcommand
  rw [items_of_next?_eq_none (ItemMark.next?_eq_none hc)]
  refine ⟨[], .last h, ?_⟩
  rw [List.append_nil]
  refine loop_done ?_
  rw [itemRound, hcommand]
  rfl

/-- The position behind an item command and its label. -/
theorem Stands.afterItem {command : Sighting} (h : Stands t front ahead i)
    (hc : Sighting.find? [itemName] false ahead = some command) :
    Stands t (front ++ (command.before ++ command.source) ++ (itemLabel command.after).1) (itemLabel command.after).2
      ((Offset.commandSpan i command).stop + size (itemLabel command.after).1) :=
  Stands.advance (by rw [itemLabel_append]; exact h.afterCommand hc)

/-- **An item of this list**: the search goes on behind its label. -/
theorem findsStarts_of_item {command : Sighting} (h : Stands t front ahead i)
    (hfresh : escapedAfter false front = false) (hc : Sighting.find? [itemName] false ahead = some command)
    (hfilter : ((CribSheet.nextOpening? ahead).map (openingSpan i)).filter
      (fun marker => decide (marker.1 ≤ (Offset.commandSpan i command).start)) = none)
    (hnext : ItemMark.next? ahead = some (.ofSighting command))
    (hbehind : FindsStarts t ((Offset.commandSpan i command).stop + size (itemLabel command.after).1)
      (itemLabel command.after).2) : FindsStarts t i ahead := by
  intro found
  have hcommand := h.findCommand? itemName
  rw [hfresh, hc] at hcommand
  have hround : itemRound t found i =
      .ok (.next (found ++ [((Offset.commandSpan i command).start,
        (Offset.commandSpan i command).stop + size (itemLabel command.after).1)])
        ((Offset.commandSpan i command).stop + size (itemLabel command.after).1)) := by
    rw [itemRound, hcommand, Option.map_some, ok_bind]
    simp only
    rw [h.nextOpening? hfresh, ok_bind, hfilter]
    simp only
    rw [(h.afterCommand hc).skipItemLabel, ok_bind]
  obtain ⟨starts, hstarts, hloop⟩ := hbehind
    (found ++ [((Offset.commandSpan i command).start,
      (Offset.commandSpan i command).stop + size (itemLabel command.after).1)])
  have hstop : (Offset.commandSpan i command).stop + size (itemLabel command.after).1 =
      i + command.before.size + size (command.source ++ (itemLabel command.after).1) := by
    rw [size_append, ← Nat.add_assoc]
    rfl
  have hpos : 0 < command.source.size := size_pos_of_ne_nil (by simp [Sighting.source])
  have hsize := h.size_text
  have hsize' := (h.afterItem hc).size_text
  refine ⟨_, ?_, (loop_next hround ?_ ?_).trans (hloop.trans (by rw [List.append_assoc]))⟩
  · have hparts : Stands t front (command.before ++ (command.source ++ (itemLabel command.after).1) ++
        (itemLabel command.after).2) i := by
      rwa [List.append_assoc, List.append_assoc, itemLabel_append, ← List.append_assoc, ← Sighting.text,
        Sighting.text_find? hc]
    rw [items_of_next? hnext]
    rw [hstop] at hstarts ⊢
    exact .item hparts hstarts
  · rw [hstop, size_append]
    omega
  · rw [hstop, size_append] at hsize'
    omega

/-- **An environment that opens before the next item**: the search goes on behind it. -/
theorem findsStarts_of_region {command : Sighting} {m : Marker} (h : Stands t front ahead i)
    (hfresh : escapedAfter false front = false) (hc : Sighting.find? [itemName] false ahead = some command)
    (hm : CribSheet.nextOpening? ahead = some m)
    (hopens : (openingSpan i m).1 ≤ (Offset.commandSpan i command).start)
    (hnext : ItemMark.next? ahead =
      (ItemMark.next? (regionOf m).2).map (ItemMark.behind (m.before ++ (regionOf m).1)))
    (hbehind : FindsStarts t (i + size (m.before ++ (regionOf m).1)) (regionOf m).2) : FindsStarts t i ahead := by
  intro found
  have hcommand := h.findCommand? itemName
  rw [hfresh, hc] at hcommand
  obtain ⟨hregion, closing, hclosing, hstop⟩ := h.afterRegion hfresh hm
  have hahead : ahead = m.before ++ (regionOf m).1 ++ (regionOf m).2 := by
    rw [List.append_assoc, regionOf_append, ← List.append_assoc]
    exact (text_nextOpening? hm).symm
  have hround : itemRound t found i = .ok (.next found (i + size (m.before ++ (regionOf m).1))) := by
    rw [itemRound, hcommand, Option.map_some, ok_bind]
    simp only
    rw [h.nextOpening? hfresh, ok_bind, hm, Option.map_some, Option.filter_some, if_pos (decide_eq_true hopens)]
    simp only [openingSpan] at hclosing hstop ⊢
    rw [hclosing, ok_bind, hstop]
  have hpos : 0 < size (m.before ++ (regionOf m).1) := by
    have hlt := Nat.lt_of_le_of_lt (length_regionOf_le m) (length_after_nextOpening? hm)
    rw [hahead] at hlt
    exact size_pos_of_length_lt hlt
  have hsize := hregion.size_text
  obtain ⟨starts, hstarts, hloop⟩ := hbehind found
  refine ⟨starts, ?_, (loop_next hround (by omega) (by omega)).trans hloop⟩
  rw [items_behind hahead hnext]
  exact hstarts.behind (hahead ▸ h)

/-- **The search for items** finds where those that lie ahead start. -/
theorem Stands.findsStarts (h : Stands t front ahead i) (hfresh : escapedAfter false front = false) :
    FindsStarts t i ahead := by
  have hnames : ∀ name ∈ [itemName], name ≠ [] ∧ '\\' ∉ name := by decide
  -- A round may pass over a whole environment, so the induction is on the length of what lies ahead.
  induction hlength : ahead.length using Nat.strong_induction_on generalizing front ahead i with
  | _ length ih =>
  subst hlength
  cases hc : Sighting.find? [itemName] false ahead with
  | none => exact findsStarts_of_find?_eq_none h hfresh hc
  | some command =>
      have hitem : ItemMark.next? ahead = some (.ofSighting command) →
          FindsStarts t ((Offset.commandSpan i command).stop + size (itemLabel command.after).1)
            (itemLabel command.after).2 := by
        intro hnext
        refine ih _ (Nat.lt_of_le_of_lt (Nat.le_add_left ..) (ItemMark.length_before_add_after_next? hnext))
          (h.afterItem hc) ?_ rfl
        rw [escapedAfter_append, escapedAfter_append, hfresh, Sighting.escapedAfter_find? hnames hc,
          escapedAfter_itemLabel]
      cases hm : CribSheet.nextOpening? ahead with
      | none =>
          have hnext := ItemMark.next?_of_no_opening hc hm
          exact findsStarts_of_item h hfresh hc (by rw [hm]; rfl) hnext (hitem hnext)
      | some m =>
          have hbefore := opensBefore_iff (i := i) (m := m) (s := command)
            ((text_nextOpening? hm).trans (Sighting.text_find? hc).symm)
          have hnext := ItemMark.next?_of_opening hc hm
          by_cases hopens : ItemMark.opensBefore m command = true
          · -- It is left to the environment.
            rw [if_pos hopens] at hnext
            refine findsStarts_of_region h hfresh hc hm (hbefore.1 hopens) hnext
              (ih _ (Nat.lt_of_le_of_lt (length_regionOf_le m) (length_after_nextOpening? hm))
                (h.afterRegion hfresh hm).1 ?_ rfl)
            rw [escapedAfter_append, hfresh, escapedAfter_before_regionOf hm]
          · rw [if_neg hopens] at hnext
            refine findsStarts_of_item h hfresh hc ?_ hnext (hitem hnext)
            rw [hm, Option.map_some, Option.filter_some, if_neg]
            rw [decide_eq_true_iff, ← hbefore]
            exact hopens

/-- **The search for items runs without a fault.** -/
theorem itemStarts_eq (t : Text) : ∃ starts, itemStarts t = .ok starts ∧ Starts t 0 starts (items t) := by
  obtain ⟨starts, hstarts, hloop⟩ := (stands_zero t).findsStarts rfl []
  exact ⟨starts, hloop, hstarts⟩

end Starts

/-! ### The texts of the items -/

/-- Where a part ends: where the next item starts, or at the end of the text. -/
def partEnd (t : Text) (starts : List (Nat × Nat)) : Nat := starts.head?.elim t.size Prod.fst

/-- The items of a list, read one after the other. -/
def parseEach (parse : Text → Nat → Run (List Block × Nat)) (t : Text) :
    List (Nat × Nat) → Nat → Run (List (List Block) × Nat)
  | [], seen => .ok ([], seen)
  | (_, start) :: starts, seen => do
    let text ← cut t start (partEnd t starts)
    let (first, seen) ← parse text seen
    let (others, seen) ← parseEach parse t starts seen
    .ok (first :: others, seen)

/-- What stands before the first item of a list, and its items. -/
def parseItems (parse : Text → Nat → Run (List Block × Nat)) (t : Text) (seen : Nat) :
    Run (List Block × List (List Block) × Nat) := do
  let starts ← itemStarts t
  let text ← cutTo t (partEnd t starts)
  let (lead, seen) ← parse text seen
  let (its, seen) ← parseEach parse t starts seen
  .ok (lead, its, seen)

section Parts

variable {t : Text} {i : Nat} {starts : List (Nat × Nat)} {parts : Text × List Text}

/-- The first part ends where the next item starts. -/
theorem Starts.first (h : Starts t i starts parts) :
    ∃ front rest, Stands t front (parts.1 ++ rest) i ∧ partEnd t starts = i + parts.1.size := by
  cases h with
  | last h => exact ⟨_, [], by simpa using h, h.size_text⟩
  | item h hparts => exact ⟨_, _, by simpa using h, rfl⟩

theorem Starts.length_le (h : Starts t i starts parts) : parts.1.length ≤ t.length := by
  obtain ⟨front, rest, hstands, -⟩ := h.first
  rw [hstands.text_eq]
  simp only [List.length_append]
  omega

variable {parse : Text → Nat → Run (List Block × Nat)} {read : Reader}

/-- Reading the items is reading the texts behind their starts. -/
theorem parseEach_eq (h : Starts t i starts parts)
    (hparse : ∀ u : Text, u.length ≤ t.length → ∀ seen, parse u seen = .ok (read u seen)) (seen : Nat) :
    parseEach parse t starts seen = .ok (readAll read parts.2 seen) := by
  induction h generalizing seen with
  | last => rfl
  | @item _ _ _ _ _ starts parts h hparts ih =>
      obtain ⟨front, rest, hstands, hend⟩ := hparts.first
      rw [parseEach, hend, hstands.cut, ok_bind, hparse _ hparts.length_le, ok_bind]
      simp only
      rw [ih, ok_bind]
      rfl

/-- **The body of a list is cut into the texts of its items.** -/
theorem parseItems_eq (hparse : ∀ u : Text, u.length ≤ t.length → ∀ seen, parse u seen = .ok (read u seen))
    (seen : Nat) :
    parseItems parse t seen =
      .ok ((read (items t).1 seen).1, readAll read (items t).2 (read (items t).1 seen).2) := by
  obtain ⟨starts, hfound, hstarts⟩ := itemStarts_eq t
  obtain ⟨front, rest, hstands, hend⟩ := hstarts.first
  have hfront : front = [] := by
    cases front with
    | nil => rfl
    | cons c front => exact absurd hstands.size_eq (Nat.ne_of_gt (size_pos_of_ne_nil (List.cons_ne_nil c front)))
  have hcut := hstands.advance.cutTo
  rw [hfront, List.nil_append, ← hend] at hcut
  rw [parseItems, hfound, ok_bind, hcut, ok_bind, hparse _ hstarts.length_le, ok_bind]
  simp only
  rw [parseEach_eq hstarts hparse, ok_bind]

end Parts

end CribSheet.Checked
