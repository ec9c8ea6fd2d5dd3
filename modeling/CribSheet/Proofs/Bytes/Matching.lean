/-
The end of an environment behind a balanced content.

The search for the marker that closes an environment starts behind the one that opens it.  Markers are recognized by
their commands and their arguments, and an argument is recognized by its braces.  So when the braces of a content
balance, no argument that begins in it goes on behind it, and the markers met in the content are the same whatever
follows.  When those of the environment's own name balance as well, the first marker behind the content closes the
environment.

Main definitions:

* `CribSheet.Markup.Balanced` — a list closes what it opens, and so much more;
* `CribSheet.Markup.unescaped`, `CribSheet.Markup.ClosesBraces` — the characters of a text that are not escaped, and
  texts that close the braces that are open before them;
* `CribSheet.Markup.kindsOf` — what the markers of a name do, in order.

Main results:

* `CribSheet.Markup.Argument.read?_append` — no argument goes on behind balanced braces;
* `CribSheet.Markup.Marker.next?_append` — searching for a marker through two texts;
* `CribSheet.Markup.Offset.markers_eq` — the markers of a text are met one after the other;
* `CribSheet.Markup.Closing.find?_of_balanced` — counting markers of a name comes out even at the end of a content;
* `CribSheet.Markup.Offset.matchingEnd?_of_balanced` — **the environment is closed by the marker behind its content**.
-/
import CribSheet.Proofs.Bytes.FirstCommand
import CribSheet.Proofs.Bytes.Marker
import CribSheet.Proofs.Payload.Argument

set_option relaxedAutoImplicit false
set_option autoImplicit false

namespace CribSheet.Markup

open Text

/-! ### Balanced lists -/

section Balanced

variable {α : Type} [DecidableEq α]

/-- **The list closes what it opens, and `depth` more**, and never closes what is not open. -/
structure Balanced (opening closing : α) (depth : Nat) (l : List α) : Prop where
  /-- No beginning closes more. -/
  count_le : ∀ n ≤ l.length, (l.take n).count closing ≤ (l.take n).count opening + depth
  /-- The whole list closes so much. -/
  count_eq : l.count closing = l.count opening + depth

theorem balanced_iff {opening closing : α} {depth : Nat} {l : List α} :
    Balanced opening closing depth l ↔
      (∀ n ≤ l.length, (l.take n).count closing ≤ (l.take n).count opening + depth) ∧
        l.count closing = l.count opening + depth :=
  ⟨fun h => ⟨h.count_le, h.count_eq⟩, fun h => ⟨h.1, h.2⟩⟩

instance {opening closing : α} {depth : Nat} {l : List α} : Decidable (Balanced opening closing depth l) :=
  decidable_of_iff _ balanced_iff.symm

variable {opening closing a : α} {depth : Nat} {l : List α}

theorem balanced_nil_iff : Balanced opening closing depth [] ↔ depth = 0 := by
  simp [balanced_iff, eq_comm]

/-- What is said about the beginnings is said about those with the first element. -/
theorem balanced_cons_iff :
    Balanced opening closing depth (a :: l) ↔
      (∀ n ≤ l.length, (a :: l.take n).count closing ≤ (a :: l.take n).count opening + depth) ∧
        (a :: l).count closing = (a :: l).count opening + depth := by
  constructor
  · intro h
    exact ⟨fun n hn => h.count_le (n + 1) (Nat.succ_le_succ hn), h.count_eq⟩
  · rintro ⟨hle, heq⟩
    refine ⟨fun n hn => ?_, heq⟩
    cases n with
    | zero => simp
    | succ n => exact hle n (Nat.le_of_succ_le_succ hn)

theorem balanced_cons_opening (hne : opening ≠ closing) :
    Balanced opening closing depth (opening :: l) ↔ Balanced opening closing (depth + 1) l := by
  rw [balanced_cons_iff, balanced_iff]
  simp only [List.count_cons_self, List.count_cons_of_ne hne, Nat.add_assoc, Nat.add_comm 1 depth]

theorem balanced_cons_closing (hne : opening ≠ closing) :
    Balanced opening closing (depth + 1) (closing :: l) ↔ Balanced opening closing depth l := by
  rw [balanced_cons_iff, balanced_iff]
  simp only [List.count_cons_self, List.count_cons_of_ne hne.symm, ← Nat.add_assoc, Nat.add_le_add_iff_right,
    Nat.add_right_cancel_iff]

theorem balanced_cons_other (hopening : a ≠ opening) (hclosing : a ≠ closing) :
    Balanced opening closing depth (a :: l) ↔ Balanced opening closing depth l := by
  rw [balanced_cons_iff, balanced_iff]
  simp only [List.count_cons_of_ne hopening, List.count_cons_of_ne hclosing]

theorem not_balanced_zero_closing (hne : opening ≠ closing) : ¬ Balanced opening closing 0 (closing :: l) := by
  intro h
  have hle := (balanced_cons_iff.1 h).1 0 (Nat.zero_le _)
  simp [hne.symm] at hle

/-- The rest of a balanced list closes what is open before it. -/
theorem Balanced.exists_append_right {l' : List α} (hne : opening ≠ closing)
    (h : Balanced opening closing depth (l ++ l')) : ∃ depth', Balanced opening closing depth' l' := by
  induction l generalizing depth with
  | nil => exact ⟨depth, h⟩
  | cons a l ih =>
      rw [List.cons_append] at h
      by_cases hopening : a = opening
      · subst hopening
        exact ih ((balanced_cons_opening hne).1 h)
      · by_cases hclosing : a = closing
        · subst hclosing
          cases depth with
          | zero => exact absurd h (not_balanced_zero_closing hne)
          | succ depth => exact ih ((balanced_cons_closing hne).1 h)
        · exact ih ((balanced_cons_other hopening hclosing).1 h)

end Balanced

/-! ### Braces -/

/-- **The characters of the text that are not escaped**; `escaped` says whether the first one is. -/
def unescaped : (escaped : Bool) → Text → Text
  | _, [] => []
  | escaped, c :: t => (if escaped then [] else [c]) ++ unescaped (escapes escaped c) t

/-- **The braces of the text close what is open before it**, those that are escaped left out. -/
def ClosesBraces (escaped : Bool) (t : Text) : Prop := ∃ depth, Balanced '{' '}' depth (unescaped escaped t)

theorem unescaped_append (escaped : Bool) (a b : Text) :
    unescaped escaped (a ++ b) = unescaped escaped a ++ unescaped (escapedAfter escaped a) b := by
  induction a generalizing escaped with
  | nil => rfl
  | cons c a ih => rw [List.cons_append, unescaped, unescaped, ih, escapedAfter_cons, List.append_assoc]

theorem unescaped_cons_of_ne {c : Char} (hc : c ≠ '\\') (t : Text) :
    unescaped false (c :: t) = c :: unescaped false t := by
  rw [unescaped, escapes_of_ne hc]
  rfl

theorem unescaped_pair (c : Char) (t : Text) : unescaped false ('\\' :: c :: t) = '\\' :: unescaped false t := by
  have hskip : escapes true c = false := by simp [escapes]
  have hslash : escapes false '\\' = true := rfl
  rw [unescaped, unescaped, hslash, hskip]
  rfl

theorem ClosesBraces.behind {escaped : Bool} {a b : Text} (h : ClosesBraces escaped (a ++ b))
    (ha : escapedAfter escaped a = false) : ClosesBraces false b := by
  obtain ⟨depth, h⟩ := h
  rw [unescaped_append, ha] at h
  exact h.exists_append_right (by decide)

/-- **A group is closed** when more is closed than what is open inside of it. -/
theorem isSome_closeBrace? {depth k : Nat} {t : Text} (h : Balanced '{' '}' depth (unescaped false t))
    (hk : k < depth) : (closeBrace? k t).isSome := by
  have hne : '{' ≠ '}' := by decide
  fun_induction closeBrace? k t generalizing depth with
  | case1 k =>
      rw [unescaped, balanced_nil_iff] at h
      omega
  | case2 k =>
      have hnil : Balanced '{' '}' depth [] := (balanced_cons_other (by decide) (by decide)).1 h
      rw [balanced_nil_iff] at hnil
      omega
  | case3 k c t ih =>
      rw [unescaped_pair, balanced_cons_other (by decide) (by decide)] at h
      rw [Option.isSome_map]
      exact ih h hk
  | case4 k t hslash ih =>
      rw [unescaped_cons_of_ne (by decide), balanced_cons_opening hne] at h
      rw [Option.isSome_map]
      exact ih h (Nat.succ_lt_succ hk)
  | case5 t => rfl
  | case6 t k hslash hopen ih =>
      obtain ⟨depth, rfl⟩ : ∃ d, depth = d + 1 := ⟨depth - 1, by omega⟩
      rw [unescaped_cons_of_ne (by decide), balanced_cons_closing hne] at h
      rw [Option.isSome_map]
      exact ih h (Nat.lt_of_succ_lt_succ hk)
  | case7 k c t hslash hopen hclose ih =>
      rw [unescaped_cons_of_ne hslash, balanced_cons_other hopen hclose] at h
      rw [Option.isSome_map]
      exact ih h hk

/-! ### Arguments -/

/-- The space before an argument ends at a backslash. -/
theorem argumentSpace_append_slash (x t : Text) :
    argumentSpace (x ++ '\\' :: t) = ((argumentSpace x).1, (argumentSpace x).2 ++ '\\' :: t) := by
  have hgap : isGap '\\' = false := by decide
  have hdrop : ∀ x : Text, (x ++ '\\' :: t).dropWhile isGap = x.dropWhile isGap ++ '\\' :: t := by
    intro x
    induction x with
    | nil => simp [hgap]
    | cons c x ih =>
        simp only [List.cons_append, List.dropWhile_cons, ih]
        split <;> rfl
  have htake : ∀ x : Text, (x ++ '\\' :: t).takeWhile isGap = x.takeWhile isGap := by
    intro x
    induction x with
    | nil => simp [hgap]
    | cons c x ih => simp only [List.cons_append, List.takeWhile_cons, ih]
  rw [argumentSpace, argumentSpace, hdrop, htake]
  cases hx : x.dropWhile isGap with
  | nil => rfl
  | cons c rest =>
      by_cases hc : c = '\n'
      · subst hc
        simp [hdrop, htake]
      · simp [hc]

/-- **No argument goes on behind braces that are closed**: it is read as if nothing followed. -/
theorem Argument.read?_append {x : Text} (hx : ClosesBraces false x) (t : Text) :
    Argument.read? (x ++ '\\' :: t) =
      (Argument.read? x).map fun a => { a with after := a.after ++ '\\' :: t } := by
  have hspace := argumentSpace_append_slash x t
  by_cases hhead : (argumentSpace x).2.head? = some '{'
  · obtain ⟨rest, hrest⟩ := List.head?_eq_some_iff.1 hhead
    have hbehind : ClosesBraces false ('{' :: rest) := by
      rw [← argumentSpace_append x, hrest] at hx
      exact hx.behind (escapedAfter_blank (isBlankText_argumentSpace x))
    obtain ⟨depth, hdepth⟩ := hbehind
    rw [unescaped_cons_of_ne (by decide), balanced_cons_opening (by decide)] at hdepth
    obtain ⟨⟨inner, after⟩, hclose⟩ := Option.isSome_iff_exists.1 (isSome_closeBrace? hdepth (Nat.succ_pos _))
    have hgroup : Group.read? ('{' :: rest) = some ⟨.brace, inner, after⟩ := by
      rw [Group.read?, if_pos rfl, hclose]
      rfl
    rw [Argument.read?, Argument.read?, hspace, hrest]
    simp only [read?_append_right hgroup, hgroup, Option.map_some]
  · have hhead' : (argumentSpace (x ++ '\\' :: t)).2.head? ≠ some '{' := by
      rw [hspace]
      cases hrest : (argumentSpace x).2 with
      | nil => simp
      | cons c rest => rwa [hrest] at hhead
    rw [argument_read?_eq_none hhead, argument_read?_eq_none hhead', Option.map_none]

/-! ### Markers -/

/-- The same marker in a text with `t` behind. -/
def Marker.followedBy (t : Text) (m : Marker) : Marker := { m with after := m.after ++ t }

/-- What follows a command closes braces if the text does. -/
theorem ClosesBraces.after {names : List Text} (hnames : ∀ name ∈ names, name ≠ [] ∧ '\\' ∉ name) {escaped : Bool}
    {x : Text} (hx : ClosesBraces escaped x) {s : Sighting} (hs : Sighting.find? names escaped x = some s) :
    ClosesBraces false s.after := by
  rw [← Sighting.text_find? hs] at hx
  exact hx.behind (Sighting.escapedAfter_find? hnames hs)

/-- **Searching for a marker through two texts** that meet at a backslash: when the braces of the first one are closed,
its markers are those met without the second one. -/
theorem Marker.next?_append {escaped : Bool} {x : Text} (hx : ClosesBraces escaped x)
    (hfresh : escapedAfter escaped x = false) (t : Text) :
    Marker.next? escaped (x ++ '\\' :: t) =
      ((Marker.next? escaped x).map (followedBy ('\\' :: t))).or
        ((Marker.next? false ('\\' :: t)).map (behind x)) := by
  have hletters : ∀ name ∈ [beginName, endName], ∀ c ∈ name, isLetter c = true := by decide
  have hnames : ∀ name ∈ [beginName, endName], name ≠ [] ∧ '\\' ∉ name := by decide
  have hwithin : ∀ {escaped : Bool} {x : Text} {command : Sighting},
      Sighting.find? [beginName, endName] escaped x = some command →
      Sighting.find? [beginName, endName] escaped (x ++ '\\' :: t) = some (command.within [] ('\\' :: t)) := by
    intro escaped x command hc
    rw [Sighting.find?_append hletters (endsName_backslash t), hc]
    rfl
  fun_induction Marker.next? escaped x with
  | case1 escaped x hc =>
      rw [Option.map_none, Option.none_or]
      refine next?_of_find?_within ?_
      rw [Sighting.find?_append hletters (endsName_backslash t), hc, hfresh, Option.map_none, Option.none_or]
  | case2 escaped x command hc argument ha =>
      have hread : Argument.read? (command.within [] ('\\' :: t)).after =
          some { argument with after := argument.after ++ '\\' :: t } := by
        rw [Sighting.after_within, Argument.read?_append (hx.after hnames hc), ha]
        rfl
      rw [next?_of_argument (hwithin hc) hread]
      rfl
  | case3 escaped x command hc ha hlt ih =>
      have hread : Argument.read? (command.within [] ('\\' :: t)).after = none := by
        rw [Sighting.after_within, Argument.read?_append (hx.after hnames hc), ha]
        rfl
      have htext : command.before ++ command.source ++ command.after = x := Sighting.text_find? hc
      have hafter : escapedAfter false command.after = false := by
        rw [← htext, escapedAfter_append, Sighting.escapedAfter_find? hnames hc] at hfresh
        exact hfresh
      rw [next?_of_no_argument (hwithin hc) hread, Sighting.after_within, ih (hx.after hnames hc) hafter,
        Option.map_or]
      have hbehind : behind (command.before ++ command.source) ∘ behind command.after = behind x := by
        funext m
        simp [behind, ← htext]
      simp only [Sighting.before_within, Sighting.source_within, List.nil_append, Option.map_map, hbehind]
      rfl

/-- What follows a marker closes braces if the text does. -/
theorem ClosesBraces.behind_marker {escaped : Bool} {x : Text} (hx : ClosesBraces escaped x) {m : Marker}
    (hm : Marker.next? escaped x = some m) : ClosesBraces false m.after := by
  rw [← Marker.text_next? hm] at hx
  exact hx.behind (Marker.escapedAfter_next? hm)

/-! ### All markers of a text -/

theorem Offset.markersIn_eq_nil {escaped : Bool} {x : Text} (h : Marker.next? escaped x = none) (offset : Nat) :
    markersIn escaped offset x = [] := by
  rw [markersIn]
  split
  · rfl
  · next h' => simp [h] at h'

theorem Offset.markersIn_cons {escaped : Bool} {x : Text} {m : Marker} (h : Marker.next? escaped x = some m)
    (offset : Nat) :
    markersIn escaped offset x = markerSpan offset m :: markersIn false (markerSpan offset m).stop m.after := by
  rw [markersIn]
  split
  · next h' => simp [h] at h'
  · next h' =>
    obtain rfl := Option.some.inj (h.symm.trans h')
    rfl

/-- **The markers of a text are met one after the other**, each behind the one before it. -/
theorem Offset.markers_eq (t : Text) (offset : Nat) :
    markers t offset = (nextMarker? t offset).elim [] fun span => span :: markers t span.stop := by
  rw [markers, nextMarker?]
  cases hsplit : t.splitAt? offset with
  | none => rfl
  | some parts =>
      obtain ⟨behind, ahead⟩ := parts
      cases hm : Marker.next? (escapedAfter false behind) ahead with
      | none =>
          simp only [hm, Option.map_none, Option.elim_none]
          exact markersIn_eq_nil hm offset
      | some m =>
          have hstands := (Checked.stands_of_splitAt? hsplit).afterMarker hm
          have hfresh : escapedAfter false (behind ++ (m.before ++ m.source)) = false := by
            rw [escapedAfter_append, Marker.escapedAfter_next? hm]
          simp only [hm, Option.map_some, Option.elim_some]
          rw [markersIn_cons hm, markers, hstands.splitAt?]
          simp only [hfresh]

/-- **What the markers of the name do**, in order. -/
def kindsOf (name : Text) (spans : List MarkerSpan) : List MarkerKind :=
  (spans.filter (·.name = name)).map (·.kind)

theorem kindsOf_cons_of_eq {name : Text} {span : MarkerSpan} (h : span.name = name) (spans : List MarkerSpan) :
    kindsOf name (span :: spans) = span.kind :: kindsOf name spans := by
  simp [kindsOf, h]

theorem kindsOf_cons_of_ne {name : Text} {span : MarkerSpan} (h : span.name ≠ name) (spans : List MarkerSpan) :
    kindsOf name (span :: spans) = kindsOf name spans := by
  simp [kindsOf, h]

/-! ### The marker that closes -/

/-- **Counting markers of a name comes out even at the end of a content**: the next one closes. -/
theorem Closing.find?_of_balanced {name x : Text} {depth offset : Nat} (hname : IsName name)
    (hbraces : ClosesBraces false x) (hfresh : escapedAfter false x = false)
    (hmarkers : Balanced .opens .closes depth (kindsOf name (Offset.markersIn false offset x))) (suffix : Text) :
    Closing.find? name depth false (x ++ (command endName name ++ suffix)) =
      some ⟨x, command endName name, suffix⟩ := by
  have hne : MarkerKind.opens ≠ .closes := by decide
  have hnext := Marker.next?_append hbraces hfresh (endName ++ '{' :: (name ++ '}' :: suffix))
  rw [← command_append, Marker.next?_end hname.plain, Option.map_some] at hnext
  cases hm : Marker.next? false x with
  | none =>
      -- No marker is left, so the one behind the content is next.
      rw [hm, Option.map_none, Option.none_or] at hnext
      rw [Offset.markersIn_eq_nil hm] at hmarkers
      obtain rfl : depth = 0 := balanced_nil_iff.1 hmarkers
      rw [find?_of_closes_zero hnext hname.trim_eq rfl]
      simp [Marker.behind]
  | some m =>
      rw [hm, Option.map_some, Option.some_or] at hnext
      rw [Offset.markersIn_cons hm] at hmarkers
      have htext : m.before ++ m.source ++ m.after = x := Marker.text_next? hm
      have hafter : escapedAfter false m.after = false := by
        rw [← htext, escapedAfter_append, Marker.escapedAfter_next? hm] at hfresh
        exact hfresh
      have hrest : ∀ d, Balanced .opens .closes d
            (kindsOf name (Offset.markersIn false (Offset.markerSpan offset m).stop m.after)) →
          (find? name d false (m.after ++ (command endName name ++ suffix))).map (behind (m.before ++ m.source)) =
            some ⟨x, command endName name, suffix⟩ := by
        intro d hd
        rw [find?_of_balanced hname (hbraces.behind_marker hm) hafter hd suffix, Option.map_some, behind, htext]
      by_cases hmname : m.name = name
      · rw [kindsOf_cons_of_eq hmname] at hmarkers
        cases hkind : m.kind with
        | opens =>
            have hspan : (Offset.markerSpan offset m).kind = .opens := hkind
            rw [hspan, balanced_cons_opening hne] at hmarkers
            rw [find?_of_opens hnext hmname hkind]
            exact hrest _ hmarkers
        | closes =>
            have hspan : (Offset.markerSpan offset m).kind = .closes := hkind
            rw [hspan] at hmarkers
            cases depth with
            | zero => exact absurd hmarkers (not_balanced_zero_closing hne)
            | succ depth =>
                rw [balanced_cons_closing hne] at hmarkers
                rw [find?_of_closes_succ hnext hmname hkind]
                exact hrest _ hmarkers
      · rw [kindsOf_cons_of_ne hmname] at hmarkers
        rw [find?_of_other hnext hmname]
        exact hrest _ hmarkers
termination_by x.length
decreasing_by exact Marker.length_after_next? hm

/-- **The environment is closed by the marker behind its content**, whatever stands in the content and behind it: when
the content does not end with an escape, its braces balance, and so do the markers of the name that are met in it. -/
theorem Offset.matchingEnd?_of_balanced {name content : Text} (hname : IsName name)
    (hslashes : Checked.slashesAtEnd content % 2 = 0) (hbraces : Balanced '{' '}' 0 (unescaped false content))
    (hmarkers : Balanced .opens .closes 0 (kindsOf name (markers content 0))) (front suffix : Text) :
    matchingEnd? (front ++ command beginName name ++ content ++ command endName name ++ suffix) name
        (front ++ command beginName name).size =
      some ((front ++ command beginName name ++ content).size,
        (front ++ command beginName name ++ content ++ command endName name).size) := by
  have hfresh : escapedAfter false content = false := Checked.escapedAfter_eq_false_iff.2 hslashes
  have hbehind : escapedAfter false (front ++ command beginName name) = false := by
    have hbrace : front ++ command beginName name = front ++ '\\' :: (beginName ++ '{' :: name) ++ ['}'] := by
      simp [command]
    rw [hbrace, escapedAfter_concat (by decide)]
  have htext : front ++ command beginName name ++ content ++ command endName name ++ suffix =
      front ++ command beginName name ++ (content ++ (command endName name ++ suffix)) := by
    simp only [List.append_assoc]
  rw [markers, (Checked.stands_zero content).splitAt?] at hmarkers
  rw [htext, matchingEnd?, Checked.splitAt?_append]
  simp only [hbehind, Closing.find?_of_balanced hname ⟨0, hbraces⟩ hfresh hmarkers suffix, Option.map_some, size_append]

/-- An inner environment of the same name, an escaped brace, commands that start no marker and the end of another
environment stand in the content. -/
theorem Offset.matchingEnd?_of_balanced_nested :
    ∃ content suffix : Text,
      content = "\\begin\x7ba\x7d\\\x7d\\begin[x]\\end\x7bb\x7d\\end\x7ba\x7d\\end".toList ∧
        suffix = "\\end\x7ba\x7d".toList ∧
        matchingEnd? (['x'] ++ command beginName ['a'] ++ content ++ command endName ['a'] ++ suffix) ['a'] 10 =
          some (48, 55) := by
  obtain ⟨content, hcontent⟩ : ∃ content : Text,
      content = "\\begin\x7ba\x7d\\\x7d\\begin[x]\\end\x7bb\x7d\\end\x7ba\x7d\\end".toList := ⟨_, rfl⟩
  have hname : IsName ['a'] := ⟨by simp [Identity.Plain], by decide⟩
  have hslashes : Checked.slashesAtEnd content % 2 = 0 := by
    rw [hcontent]
    decide
  have hbraces : Balanced '{' '}' 0 (unescaped false content) := by
    rw [hcontent]
    decide
  have hmarkers : Balanced .opens .closes 0 (kindsOf ['a'] (markers content 0)) := by
    rw [hcontent]
    decide +kernel
  have hsize : content.size = 38 := by
    rw [hcontent]
    decide
  have hend := matchingEnd?_of_balanced hname hslashes hbraces hmarkers ['x'] "\\end\x7ba\x7d".toList
  refine ⟨content, _, hcontent, rfl, hend.trans ?_⟩
  simp only [size_append, hsize]
  decide

end CribSheet.Markup
