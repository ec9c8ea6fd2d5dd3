/-
The title of a box is the value of its option.

An option list is read by its entries, which commas outside of braces separate; an entry has its key in front of its
first equals sign.  Boxes look for their title in another way: for the letters of the key with the equals sign at once
behind them and with nothing, a comma or a blank in front.  These are found wherever they stand, so the first entry
that holds them or is a title decides whether both ways come to the same place: they do when nothing but blanks stands
in front of them there.  A comma ends the search in an entry and starts the next one afresh, which is what the
induction on the entries rests on.

Main definitions:

* `CribSheet.optionEntries`, `CribSheet.titleValue?` — the entries, and the value of one that is a title;
* `CribSheet.namedTitle?` — **the title that an option list names**;
* `CribSheet.FirstTitle` — the first entry that mentions a title is one;
* `CribSheet.EndBracesMatch` — braces at both ends of a text belong together.

Main results:

* `CribSheet.optionValue_eq_of_entriesFrom` — a value ends where its entry ends;
* `CribSheet.afterTitleKey?_append_comma` — how the search passes a comma;
* `CribSheet.FirstTitle.optionValue_eq` — the value that is found is that of the first title;
* `CribSheet.callout_title_is_named_iff` — **when a box shows the title that its options name**.
-/
import CribSheet.Display.Callout
import CribSheet.Proofs.Display.BlankLines
import CribSheet.Proofs.Text.Occurrence

set_option relaxedAutoImplicit false
set_option autoImplicit false

namespace CribSheet

open CribSheet.Text

/-! ### Entries -/

/-- The number of open braces behind a character; a brace that closes nothing does not count. -/
def bracesBehind (depth : Nat) (c : Char) : Nat :=
  if c = '{' then depth + 1 else if c = '}' then depth - 1 else depth

/-- The pieces between the commas outside of braces, where `depth` braces are open in front. -/
def entriesFrom (depth : Nat) : Text → List Text
  | [] => [[]]
  | c :: t =>
    if c = ',' ∧ depth = 0 then [] :: entriesFrom 0 t
    else (entriesFrom (bracesBehind depth c) t).modifyHead (c :: ·)

/-- **The entries of an option list.** -/
def optionEntries (options : Text) : List Text := entriesFrom 0 options

/-- The key of a title. -/
def titleOption : Text := ['t', 'i', 't', 'l', 'e']

/-- The value of an entry whose key is that of a title; the first equals sign parts key and value. -/
def titleValue? (entry : Text) : Option Text :=
  (cutAt? ['='] entry).bind fun (key, value) => if key.trim = titleOption then some value else none

/-- What follows the equals sign of the first title: its value, and the later entries. -/
def titleRest? : List Text → Option Text
  | [] => none
  | entry :: entries =>
    match titleValue? entry with
    | some value => some (joinWith [','] (value :: entries))
    | none => titleRest? entries

/-- The braces of the text are balanced, when `depth` braces are open in front. -/
def closesBraces : (depth : Nat) → Text → Bool
  | depth, [] => depth == 0
  | depth, c :: t =>
    if c = '{' then closesBraces (depth + 1) t
    else if c = '}' then depth != 0 && closesBraces (depth - 1) t
    else closesBraces depth t

/-- The text without its braces when it is one brace group. -/
def ungrouped (t : Text) : Text :=
  match t with
  | '{' :: inner => if inner.getLast? = some '}' ∧ closesBraces 0 inner.dropLast then inner.dropLast else t
  | t => t

/-- The trimmed title, unless it is empty. -/
def shownTitle? (title : Text) : Option Text := if title.trim = [] then none else some title.trim

/-- **The title that an option list names**: the value of the first entry that is a title, without the braces around
it, unless it is empty. -/
def namedTitle? (options : Text) : Option Text :=
  ((optionEntries options).findSome? titleValue?).bind fun value => shownTitle? (ungrouped value.trim)

theorem calloutTitle?_eq (options : Text) :
    calloutTitle? options =
      ((afterTitleKey? true options).map (optionValue 0)).bind fun value => shownTitle? (dropBraces value.trim) := by
  rw [calloutTitle?, Option.bind_map]
  rfl

theorem entriesFrom_ne_nil (depth : Nat) (t : Text) : entriesFrom depth t ≠ [] := by
  induction t generalizing depth with
  | nil => exact List.cons_ne_nil _ _
  | cons c t ih =>
      rw [entriesFrom]
      split
      · exact List.cons_ne_nil _ _
      · obtain ⟨entry, entries, h⟩ := List.exists_cons_of_ne_nil (ih (bracesBehind depth c))
        rw [h]
        exact List.cons_ne_nil _ _

theorem entriesFrom_comma (t : Text) : entriesFrom 0 (',' :: t) = [] :: entriesFrom 0 t := by
  rw [entriesFrom, if_pos ⟨rfl, rfl⟩]

/-- Any other character stands in the first entry. -/
theorem exists_entriesFrom_cons {depth : Nat} {c : Char} (h : ¬ (c = ',' ∧ depth = 0)) (t : Text) :
    ∃ entry entries, entriesFrom (bracesBehind depth c) t = entry :: entries ∧
      entriesFrom depth (c :: t) = (c :: entry) :: entries := by
  obtain ⟨entry, entries, hrest⟩ := List.exists_cons_of_ne_nil (entriesFrom_ne_nil (bracesBehind depth c) t)
  exact ⟨entry, entries, hrest, by rw [entriesFrom, if_neg h, hrest, List.modifyHead_cons]⟩

/-- **The first entry ends the text**, or a comma behind which the entries start afresh. -/
theorem entriesFrom_cases {depth : Nat} {t entry : Text} {entries : List Text}
    (h : entriesFrom depth t = entry :: entries) :
    t = entry ∧ entries = [] ∨ ∃ u, t = entry ++ ',' :: u ∧ entriesFrom 0 u = entries := by
  induction t generalizing depth entry with
  | nil =>
      obtain ⟨rfl, rfl⟩ := List.cons.inj h
      exact .inl ⟨rfl, rfl⟩
  | cons c t ih =>
      by_cases hcomma : c = ',' ∧ depth = 0
      · obtain ⟨rfl, rfl⟩ := hcomma
        obtain ⟨rfl, rfl⟩ := List.cons.inj ((entriesFrom_comma t).symm.trans h)
        exact .inr ⟨t, rfl, rfl⟩
      · obtain ⟨first, rest, hrest, heq⟩ := exists_entriesFrom_cons hcomma t
        obtain ⟨rfl, rfl⟩ := List.cons.inj (heq.symm.trans h)
        obtain ⟨rfl, rfl⟩ | ⟨u, rfl, hu⟩ := ih hrest
        · exact .inl ⟨rfl, rfl⟩
        · exact .inr ⟨u, rfl, hu⟩

theorem joinWith_entriesFrom (depth : Nat) (t : Text) : joinWith [','] (entriesFrom depth t) = t := by
  induction t generalizing depth with
  | nil => rfl
  | cons c t ih =>
      by_cases hcomma : c = ',' ∧ depth = 0
      · obtain ⟨rfl, rfl⟩ := hcomma
        rw [entriesFrom_comma, joinWith_cons _ _ (entriesFrom_ne_nil 0 t), ih]
        rfl
      · obtain ⟨entry, entries, hrest, heq⟩ := exists_entriesFrom_cons hcomma t
        have hjoin := ih (bracesBehind depth c)
        rw [hrest] at hjoin
        rw [heq, ← hjoin]
        cases entries <;> rfl

theorem optionValue_cons_of_not {depth : Nat} {c : Char} (h : ¬ (c = ',' ∧ depth = 0)) (t : Text) :
    optionValue depth (c :: t) = c :: optionValue (bracesBehind depth c) t := by
  rw [optionValue, bracesBehind, if_neg h]
  split
  · rfl
  · split <;> rfl

/-- **A value ends where its entry ends.** -/
theorem optionValue_eq_of_entriesFrom {depth : Nat} {t entry : Text} {entries : List Text}
    (h : entriesFrom depth t = entry :: entries) : optionValue depth t = entry := by
  induction t generalizing depth entry entries with
  | nil => exact (List.cons.inj h).1
  | cons c t ih =>
      by_cases hcomma : c = ',' ∧ depth = 0
      · obtain ⟨rfl, rfl⟩ := hcomma
        exact (List.cons.inj ((entriesFrom_comma t).symm.trans h)).1
      · obtain ⟨first, rest, hrest, heq⟩ := exists_entriesFrom_cons hcomma t
        obtain ⟨rfl, -⟩ := List.cons.inj (heq.symm.trans h)
        rw [optionValue_cons_of_not hcomma, ih hrest]

/-! ### Where a title is looked for -/

/-- The key of a title with its equals sign. -/
def titleMark : Text := titleOption ++ ['=']

/-- An option may start behind the text, as the search sees it: behind a comma, behind a blank, and at the start of a
text if `starts` says so. -/
def startsBehind : (starts : Bool) → Text → Bool
  | starts, [] => starts
  | _, c :: t => startsBehind (c == ',' || isBlank c) t

/-- **The entry mentions a title**: it has the key and the equals sign where the search sees an option start. -/
def MentionsTitle (entry : Text) : Prop :=
  ∃ front rest, entry = front ++ titleMark ++ rest ∧ startsBehind true front = true

theorem afterTitleKey?_cons (starts : Bool) (c : Char) (t : Text) :
    afterTitleKey? starts (c :: t) =
      (if starts then after? titleMark (c :: t) else none).or (afterTitleKey? (c == ',' || isBlank c) t) := by
  rw [afterTitleKey?]
  change (match (if starts then after? titleMark (c :: t) else none) with
    | some rest => some rest
    | none => afterTitleKey? (c == ',' || isBlank c) t) = _
  cases (if starts then after? titleMark (c :: t) else none) <;> rfl

/-- What is found stands where an option may start. -/
theorem exists_of_afterTitleKey? {starts : Bool} {t rest : Text} (h : afterTitleKey? starts t = some rest) :
    ∃ front, t = front ++ titleMark ++ rest ∧ startsBehind starts front = true := by
  induction t generalizing starts with
  | nil => exact absurd h (Option.some_ne_none _).symm
  | cons c t ih =>
      rw [afterTitleKey?_cons, Option.or_eq_some_iff] at h
      obtain hhere | ⟨-, hlater⟩ := h
      · cases starts with
        | false => exact absurd hhere (Option.some_ne_none _).symm
        | true => exact ⟨[], after?_eq_some_iff.1 hhere, rfl⟩
      · obtain ⟨front, rfl, hfront⟩ := ih hlater
        exact ⟨c :: front, rfl, hfront⟩

theorem afterTitleKey?_of_after? {t rest : Text} (h : after? titleMark t = some rest) :
    afterTitleKey? true t = some rest := by
  cases t with
  | nil => exact absurd h (Option.some_ne_none _).symm
  | cons c t => rw [afterTitleKey?_cons, if_pos rfl, h, Option.some_or]

/-- What stands where an option may start is not passed over. -/
theorem afterTitleKey?_ne_none {starts : Bool} {front : Text} (h : startsBehind starts front = true) (rest : Text) :
    afterTitleKey? starts (front ++ titleMark ++ rest) ≠ none := by
  induction front generalizing starts with
  | nil =>
      obtain rfl : starts = true := h
      rw [List.nil_append, afterTitleKey?_of_after? (after?_append titleMark rest)]
      exact Option.some_ne_none _
  | cons c front ih =>
      rw [List.cons_append, List.cons_append, afterTitleKey?_cons, ne_eq, Option.or_eq_none_iff, not_and]
      exact fun _ => ih h

theorem afterTitleKey?_eq_none_iff (t : Text) : afterTitleKey? true t = none ↔ ¬ MentionsTitle t := by
  constructor
  · rintro h ⟨front, rest, rfl, hfront⟩
    exact afterTitleKey?_ne_none hfront rest h
  · intro h
    rw [Option.eq_none_iff_forall_ne_some]
    intro rest hrest
    obtain ⟨front, ht, hfront⟩ := exists_of_afterTitleKey? hrest
    exact h ⟨front, rest, ht, hfront⟩

/-- **A comma ends the search** in what stands in front of it and starts it afresh behind. -/
theorem afterTitleKey?_append_comma (starts : Bool) (entry u : Text) :
    afterTitleKey? starts (entry ++ ',' :: u) =
      ((afterTitleKey? starts entry).map (· ++ ',' :: u)).or (afterTitleKey? true u) := by
  induction entry generalizing starts with
  | nil =>
      rw [List.nil_append, afterTitleKey?_cons, afterTitleKey?, Option.map_none, Option.none_or]
      cases starts <;> rfl
  | cons c entry ih =>
      have hhere : after? titleMark (c :: (entry ++ ',' :: u)) =
          (after? titleMark (c :: entry)).map (· ++ ',' :: u) :=
        after?_append_of_head? (fun d hd => Option.some.inj hd ▸ (by decide : ',' ∉ titleMark)) (c :: entry)
      rw [List.cons_append, afterTitleKey?_cons, afterTitleKey?_cons, ih, hhere, Option.map_or, Option.or_assoc]
      cases starts <;> rfl

/-! ### Titles among the entries -/

/-- The key behind other text is trimmed to itself when that text is blank. -/
theorem trim_append_titleOption_iff (front : Text) :
    (front ++ titleOption).trim = titleOption ↔ isBlankText front = true := by
  have hstart : (front ++ titleOption).trimStart = front.trimStart ++ titleOption :=
    trimStart_append_cons (by decide) front _
  have hend : (front.trimStart ++ titleOption).trimEnd = front.trimStart ++ titleOption :=
    (trimEnd_eq_self_iff _).2 fun c hc => by
      rw [List.getLast?_append_of_ne_nil _ (by decide : titleOption ≠ [])] at hc
      obtain rfl := Option.some.inj hc
      decide
  rw [trim, hstart, hend, List.append_left_eq_self, trimStart, List.dropWhile_eq_nil_iff, isBlankText,
    List.all_eq_true]

theorem titleValue?_title {front : Text} (hfront : isBlankText front = true) (value : Text) :
    titleValue? (front ++ titleMark ++ value) = some value := by
  have hequals : '=' ∉ front ++ titleOption := by
    rw [List.mem_append, not_or]
    exact ⟨fun h => absurd (List.all_eq_true.1 hfront _ h) (by decide), by decide⟩
  have htext : front ++ titleMark ++ value = front ++ titleOption ++ '=' :: value := by
    rw [titleMark, ← List.append_assoc, List.append_assoc _ ['=']]
    rfl
  rw [titleValue?, htext, cutAt?_append_cons hequals, Option.bind_some]
  exact if_pos ((trim_append_titleOption_iff front).2 hfront)

theorem exists_of_titleValue? {entry value : Text} (h : titleValue? entry = some value) :
    ∃ key, entry = key ++ '=' :: value ∧ key.trim = titleOption := by
  obtain ⟨⟨key, rest⟩, hcut, hkey⟩ := Option.bind_eq_some_iff.1 h
  obtain ⟨htrim, hvalue⟩ := Option.ite_none_right_eq_some.1 hkey
  obtain rfl : rest = value := Option.some.inj hvalue
  exact ⟨key, by rw [cutAt?_eq_append hcut, List.append_assoc]; rfl, htrim⟩

/-- **The first entry that mentions a title is one**, with at most blanks in front of its key and none behind it;
the value is that of this entry.  Without a title no entry mentions one. -/
inductive FirstTitle : (entries : List Text) → (value : Option Text) → Prop where
  /-- There are no entries. -/
  | none : FirstTitle [] none
  /-- The first entry is another option and mentions no title. -/
  | other {entry : Text} {entries : List Text} {value : Option Text} (mentions : ¬ MentionsTitle entry)
      (title : titleValue? entry = Option.none) (later : FirstTitle entries value) :
      FirstTitle (entry :: entries) value
  /-- The first entry is a title. -/
  | title {front : Text} (value : Text) (entries : List Text) (blank : isBlankText front = true) :
      FirstTitle ((front ++ titleMark ++ value) :: entries) (some value)

/-- An entry whose title is found behind its first equals sign has nothing but blanks in front of its key. -/
theorem isBlankText_of_titleValue? {front rest : Text}
    (h : titleValue? (front ++ titleMark ++ rest) = some rest) : isBlankText front = true := by
  obtain ⟨key, hentry, htrim⟩ := exists_of_titleValue? h
  have hsame : front ++ titleOption ++ '=' :: rest = key ++ '=' :: rest := by
    rw [← hentry, titleMark]
    simp
  have hkey : front ++ titleOption = key := List.append_cancel_right hsame
  exact (trim_append_titleOption_iff front).1 (hkey ▸ htrim)

theorem FirstTitle.findSome? {entries : List Text} {value : Option Text} (h : FirstTitle entries value) :
    entries.findSome? titleValue? = value := by
  induction h with
  | none => rfl
  | other _ htitle _ ih => rw [List.findSome?_cons, htitle, ih]
  | title value entries hblank => rw [List.findSome?_cons, titleValue?_title hblank]

/-- Where a title starts the entries, the search ends behind its equals sign. -/
theorem afterTitleKey?_title {front : Text} (hfront : isBlankText front = true) (rest : Text) :
    afterTitleKey? true (front ++ titleMark ++ rest) = some rest := by
  induction front with
  | nil => exact afterTitleKey?_of_after? (after?_append titleMark rest)
  | cons c front ih =>
      obtain ⟨hc, hrest⟩ := List.forall_mem_cons.1 (List.all_eq_true.1 hfront)
      have hne : 't' ≠ c := by
        rintro rfl
        exact absurd hc (by decide)
      have hnone : after? titleMark (c :: (front ++ titleMark ++ rest)) = none := if_neg hne
      rw [List.cons_append, List.cons_append, afterTitleKey?_cons, if_pos rfl, hnone, Option.none_or, hc, Bool.or_true]
      exact ih (List.all_eq_true.2 hrest)

/-- Text without commas and braces belongs to the value in front of which it stands. -/
theorem optionValue_append {front : Text} (h : ∀ c ∈ front, c ∉ [',', '{', '}']) (depth : Nat) (t : Text) :
    optionValue depth (front ++ t) = front ++ optionValue depth t := by
  induction front with
  | nil => rfl
  | cons c front ih =>
      obtain ⟨hc, hfront⟩ := List.forall_mem_cons.1 h
      simp only [List.mem_cons, List.not_mem_nil, or_false, not_or] at hc
      rw [List.cons_append, optionValue_cons_of_not (fun hcomma => hc.1 hcomma.1), bracesBehind, if_neg hc.2.1,
        if_neg hc.2.2, ih hfront, List.cons_append]

theorem optionValue_title {front : Text} (hfront : isBlankText front = true) (rest : Text) :
    optionValue 0 (front ++ titleMark ++ rest) = front ++ titleMark ++ optionValue 0 rest := by
  have hplain : ∀ c ∈ front, c ∉ [',', '{', '}'] := by
    intro c hc hmem
    have hblank := List.all_eq_true.1 hfront c hc
    simp only [List.mem_cons, List.not_mem_nil, or_false] at hmem
    obtain rfl | rfl | rfl := hmem <;> exact absurd hblank (by decide)
  exact optionValue_append (List.forall_mem_append.2 ⟨hplain, by decide⟩) 0 rest

/-- **The value that is found is that of the first title.** -/
theorem FirstTitle.optionValue_eq {entries : List Text} {value : Option Text} (h : FirstTitle entries value)
    {options : Text} (hoptions : optionEntries options = entries) :
    (afterTitleKey? true options).map (optionValue 0) = value := by
  induction h generalizing options with
  | none => exact absurd hoptions (entriesFrom_ne_nil 0 options)
  | other hmentions _ later ih =>
      have hnone := (afterTitleKey?_eq_none_iff _).2 hmentions
      obtain ⟨rfl, rfl⟩ | ⟨u, rfl, hu⟩ := entriesFrom_cases hoptions
      · rw [hnone, Option.map_none]
        cases later
        rfl
      · rw [afterTitleKey?_append_comma, hnone, Option.map_none, Option.none_or]
        exact ih hu
  | @title front value entries hblank =>
      -- The value starts behind the mark and ends where the entry ends.
      have hvalue {rest : Text} (hrest : options = front ++ titleMark ++ rest) :
          (afterTitleKey? true options).map (optionValue 0) = some value := by
        have hend := optionValue_eq_of_entriesFrom hoptions
        rw [hrest, optionValue_title hblank, List.append_cancel_left_eq] at hend
        rw [hrest, afterTitleKey?_title hblank, Option.map_some, hend]
      obtain ⟨hentry, -⟩ | ⟨u, hentry, -⟩ := entriesFrom_cases hoptions
      · exact hvalue hentry
      · exact hvalue (hentry.trans (List.append_assoc _ _ _))

/-! ### Where the search ends -/

/-- **The first title comes first** when its entry is read alike both ways, and so are the later ones if it is none. -/
theorem exists_firstTitle_cons_iff (entry : Text) (entries : List Text) :
    (∃ value, FirstTitle (entry :: entries) value) ↔
      afterTitleKey? true entry = titleValue? entry ∧
        (titleValue? entry = none → ∃ value, FirstTitle entries value) := by
  constructor
  · rintro ⟨value, h⟩
    cases h with
    | other hmentions htitle later =>
        exact ⟨by rw [htitle, (afterTitleKey?_eq_none_iff entry).2 hmentions], fun _ => ⟨value, later⟩⟩
    | title value _ hblank =>
        rw [titleValue?_title hblank]
        exact ⟨afterTitleKey?_title hblank value, fun hnone => absurd hnone (Option.some_ne_none value)⟩
  · rintro ⟨hsame, hlater⟩
    cases htitle : titleValue? entry with
    | none =>
        obtain ⟨value, later⟩ := hlater htitle
        exact ⟨value, .other ((afterTitleKey?_eq_none_iff entry).1 (hsame.trans htitle)) htitle later⟩
    | some value =>
        obtain ⟨front, rfl, -⟩ := exists_of_afterTitleKey? (hsame.trans htitle)
        exact ⟨some value, .title value entries (isBlankText_of_titleValue? htitle)⟩

theorem titleRest?_sublist {entries : List Text} {rest : Text} (h : titleRest? entries = some rest) :
    rest.Sublist (joinWith [','] entries) := by
  induction entries with
  | nil => exact absurd h (Option.some_ne_none _).symm
  | cons entry entries ih =>
      rw [titleRest?] at h
      split at h
      · next value hvalue =>
          obtain rfl := Option.some.inj h
          obtain ⟨key, rfl, -⟩ := exists_of_titleValue? hvalue
          have hsub : value.Sublist (key ++ '=' :: value) :=
            (List.sublist_cons_self _ _).trans (List.sublist_append_right _ _)
          exact joinWith_sublist _ (.cons hsub (sublistForall₂_of_sublist (List.Sublist.refl entries)))
      · exact (ih h).trans (joinWith_sublist _ (sublistForall₂_of_sublist (List.sublist_cons_self entry entries)))

/-- What is found in front of a text is not what is found inside of it. -/
theorem map_append_or_eq_iff {w : Text} {x y x' y' : Option Text} (hx' : ∀ r ∈ x', r.length < w.length)
    (hy' : ∀ r ∈ y', r.length < w.length) :
    (x.map (· ++ w)).or x' = (y.map (· ++ w)).or y' ↔ x = y ∧ (y = none → x' = y') := by
  have hne {z : Text} {z' : Option Text} (hz' : ∀ r ∈ z', r.length < w.length) : some (z ++ w) ≠ z' := by
    rintro rfl
    have hlt := hz' (z ++ w) rfl
    rw [List.length_append] at hlt
    omega
  cases x with
  | none =>
      cases y with
      | none => simp
      | some y => simpa using (hne hx').symm
  | some x =>
      cases y with
      | none => simpa using hne hy'
      | some y => simp

/-- **The search ends behind the right equals sign**, or finds nothing where there is nothing, exactly when the first
entry that mentions a title is one. -/
theorem afterTitleKey?_eq_titleRest?_iff {options : Text} {entries : List Text}
    (hoptions : optionEntries options = entries) :
    afterTitleKey? true options = titleRest? entries ↔ ∃ value, FirstTitle entries value := by
  induction entries generalizing options with
  | nil => exact absurd hoptions (entriesFrom_ne_nil 0 options)
  | cons entry entries ih =>
      rw [exists_firstTitle_cons_iff]
      obtain ⟨rfl, rfl⟩ | ⟨u, rfl, hu⟩ := entriesFrom_cases hoptions
      · have hrest : titleRest? [options] = titleValue? options := by
          rw [titleRest?]
          split
          · next value hvalue => exact hvalue.symm
          · next hnone => exact hnone.symm
        rw [hrest]
        exact ⟨fun h => ⟨h, fun _ => ⟨none, .none⟩⟩, And.left⟩
      · have hjoin : joinWith [','] entries = u := hu ▸ joinWith_entriesFrom 0 u
        have hrest : titleRest? (entry :: entries) =
            ((titleValue? entry).map (· ++ ',' :: u)).or (titleRest? entries) := by
          rw [titleRest?]
          split
          · next value hvalue =>
              rw [hvalue, joinWith_cons _ _ (hu ▸ entriesFrom_ne_nil 0 u), hjoin, List.append_assoc]
              rfl
          · next hnone =>
              rw [hnone]
              rfl
        have hsearch : ∀ r ∈ afterTitleKey? true u, r.length < (',' :: u).length := by
          rintro r hr
          obtain ⟨front, rfl, -⟩ := exists_of_afterTitleKey? hr
          simp only [List.length_cons, List.length_append]
          omega
        have hentries : ∀ r ∈ titleRest? entries, r.length < (',' :: u).length := fun r hr =>
          Nat.lt_succ_of_le (hjoin ▸ titleRest?_sublist hr).length_le
        rw [afterTitleKey?_append_comma, hrest, map_append_or_eq_iff hsearch hentries, ih hu]

/-! ### Braces around a title -/

/-- When braces stand at both ends of the text, they belong together. -/
def EndBracesMatch (t : Text) : Prop := ∀ inner, t = '{' :: (inner ++ ['}']) → closesBraces 0 inner = true

theorem dropBraces_group (inner : Text) : dropBraces ('{' :: (inner ++ ['}'])) = inner := by
  rw [dropBraces, if_pos List.getLast?_concat, List.dropLast_concat]

theorem ungrouped_group (inner : Text) :
    ungrouped ('{' :: (inner ++ ['}'])) = if closesBraces 0 inner then inner else '{' :: (inner ++ ['}']) := by
  simp only [ungrouped, List.getLast?_concat, List.dropLast_concat, true_and]

theorem dropBraces_eq_ungrouped {t : Text} (h : ∀ inner, t ≠ '{' :: (inner ++ ['}'])) :
    dropBraces t = t ∧ ungrouped t = t := by
  have hopen (inner : Text) (ht : t = '{' :: inner) : inner.getLast? ≠ some '}' := fun hlast => by
    obtain ⟨front, rfl⟩ := List.getLast?_eq_some_iff.1 hlast
    exact h front ht
  constructor
  · simp only [dropBraces]
    split
    · next inner => exact if_neg (hopen inner rfl)
    · rfl
  · simp only [ungrouped]
    split
    · next inner => exact if_neg fun hboth => hopen inner rfl hboth.1
    · rfl

/-- **Taking the braces at both ends off shows the same title** exactly when they belong together. -/
theorem shownTitle?_dropBraces_eq_iff {t : Text} (ht : t.trim = t) :
    shownTitle? (dropBraces t) = shownTitle? (ungrouped t) ↔ EndBracesMatch t := by
  by_cases hgroup : ∃ inner, t = '{' :: (inner ++ ['}'])
  · obtain ⟨inner, rfl⟩ := hgroup
    rw [dropBraces_group, ungrouped_group]
    constructor
    · intro h inner' hinner
      obtain rfl : inner = inner' := by simpa using hinner
      by_contra hopen
      rw [if_neg hopen, shownTitle?, shownTitle?, ht, if_neg (List.cons_ne_nil _ _)] at h
      obtain ⟨-, htrim⟩ := Option.ite_none_left_eq_some.1 h
      -- Without its braces the title is shorter.
      have hlen := congrArg List.length (Option.some.inj htrim)
      have hle := length_trim_le inner
      rw [List.length_cons, List.length_append] at hlen
      omega
    · intro h
      rw [if_pos (h inner rfl)]
  · rw [not_exists] at hgroup
    obtain ⟨hdrop, hungrouped⟩ := dropBraces_eq_ungrouped hgroup
    rw [hdrop, hungrouped]
    exact ⟨fun _ inner h => absurd h (hgroup inner), fun _ => rfl⟩

/-! ### The title of a box -/

/-- **A box shows the title that its options name** if the first entry that mentions a title is one, with nothing but
blanks in front of its key and an equals sign at once behind, and if its value has no braces at both ends that do not
belong together.  With other entries in front, the search does not end where the value starts, and with such braces
the title that is shown is another one. -/
theorem callout_title_is_named_iff (options : Text) :
    (afterTitleKey? true options = titleRest? (optionEntries options) ↔
        ∃ value, FirstTitle (optionEntries options) value) ∧
      ∀ value, FirstTitle (optionEntries options) value →
        (calloutTitle? options = namedTitle? options ↔ ∀ v ∈ value, EndBracesMatch v.trim) := by
  refine ⟨afterTitleKey?_eq_titleRest?_iff rfl, fun value h => ?_⟩
  rw [calloutTitle?_eq, namedTitle?, h.optionValue_eq rfl, h.findSome?]
  cases value with
  | none => simp
  | some v =>
      rw [Option.bind_some, Option.bind_some, shownTitle?_dropBraces_eq_iff (trim_trim v)]
      simp

/-- A title behind another option, with a comma in its braces. -/
theorem callout_title_is_named_behind_option :
    FirstTitle (optionEntries "colback=blue!5, title={Ojo, ya}".toList) (some "{Ojo, ya}".toList) ∧
      EndBracesMatch (trim "{Ojo, ya}".toList) ∧
      calloutTitle? "colback=blue!5, title={Ojo, ya}".toList =
        namedTitle? "colback=blue!5, title={Ojo, ya}".toList := by
  have hfirst : FirstTitle (optionEntries "colback=blue!5, title={Ojo, ya}".toList) (some "{Ojo, ya}".toList) :=
    .other ((afterTitleKey?_eq_none_iff "colback=blue!5".toList).1 (by decide)) (by decide)
      (.title "{Ojo, ya}".toList [] (by decide : isBlankText [' '] = true))
  have hbraces : EndBracesMatch (trim "{Ojo, ya}".toList) := by
    intro inner hinner
    have hshown : trim "{Ojo, ya}".toList = '{' :: ("Ojo, ya".toList ++ ['}']) := by decide
    obtain rfl : inner = "Ojo, ya".toList := List.append_cancel_right (List.cons.inj (hinner.symm.trans hshown)).2
    decide
  refine ⟨hfirst, hbraces, ((callout_title_is_named_iff _).2 _ hfirst).2 fun v hv => ?_⟩
  obtain rfl := Option.some.inj hv
  exact hbraces

/-- A key that only ends in that of a title is taken for one. -/
theorem callout_title_of_longer_key :
    calloutTitle? "before title=Nota, title=Ojo".toList = some "Nota".toList ∧
      namedTitle? "before title=Nota, title=Ojo".toList = some "Ojo".toList := by
  decide

end CribSheet
