/-
Arguments, byte by byte.

Groups are scanned with counts of what is open.  After a backslash the scan moves on by two bytes, whatever follows it,
so that it can be inside of a character, or past the end.  Nothing goes wrong: it stops at ASCII bytes only, and cuts
only there.

Main definitions:

* `CribSheet.Checked.skipArgumentSpace` — the space before an argument;
* `CribSheet.Checked.groupEnd?` — the end of a group;
* `CribSheet.Checked.readArgument?`, `CribSheet.Checked.skipGroups` — an argument, and all groups that follow.

Main results:

* `CribSheet.Checked.skipArgumentSpace_eq`, `CribSheet.Checked.groupEnd?_eq`, `CribSheet.Checked.readArgument?_eq`,
  `CribSheet.Checked.skipGroups_eq` — **the scans run without a fault**, and find what the scans by offset find.
-/
import CribSheet.Proofs.Bytes.Position
import CribSheet.Proofs.Markup.Groups

set_option relaxedAutoImplicit false
set_option autoImplicit false

namespace CribSheet.Checked

open Text Markup

/-! ### Space before an argument -/

/-- One round of skipping space; `crossed` says whether a line break was skipped. -/
def spaceRound (t : Text) (crossed : Bool) (i : Nat) : Run (Round Bool Nat) :=
  match byte? t i with
  | none => .ok (.done i)
  | some b =>
    if b = code ' ' ∨ b = code '\t' then .ok (.next crossed (i + 1))
    else if b = code '\n' ∧ crossed = false then .ok (.next true (i + 1))
    else .ok (.done i)

/-- The position behind the space that may stand before an argument. -/
def skipArgumentSpace (t : Text) (i : Nat) : Run Nat := loop t.size (spaceRound t) false i

section Space

variable {t behind ahead : Text} {i : Nat}

theorem spaceRound_cons {c : Char} (h : Stands t behind (c :: ahead) i) (crossed : Bool) :
    spaceRound t crossed i =
      if isGap c then .ok (.next crossed (i + 1))
      else if c = '\n' ∧ crossed = false then .ok (.next true (i + 1))
      else .ok (.done i) := by
  have hspace : IsAscii ' ' := by decide
  have htab : IsAscii '\t' := by decide
  have hbreak : IsAscii '\n' := by decide
  simp only [spaceRound, h.byte?_cons, lead_eq_code_iff hspace, lead_eq_code_iff htab, lead_eq_code_iff hbreak, isGap,
    Bool.or_eq_true, beq_iff_eq]

theorem isAscii_of_isGap {c : Char} (hc : isGap c = true) : IsAscii c := by
  simp only [isGap, Bool.or_eq_true, beq_iff_eq] at hc
  rcases hc with rfl | rfl <;> decide

/-- The loop skips gaps. -/
theorem loop_spaceRound_gaps (h : Stands t behind ahead i) (crossed : Bool) :
    loop t.size (spaceRound t) crossed i =
      loop t.size (spaceRound t) crossed (i + size (ahead.takeWhile isGap)) := by
  induction ahead generalizing behind i with
  | nil => rfl
  | cons c ahead ih =>
      cases hc : isGap c with
      | false => simp [hc]
      | true =>
          have hsize := h.size_text
          rw [size_cons, utf8Size_of_isAscii (isAscii_of_isGap hc)] at hsize
          rw [loop_next (by rw [spaceRound_cons h, if_pos hc]) (Nat.lt_succ_self i) (by omega),
            ih (h.succ (isAscii_of_isGap hc)), List.takeWhile_cons_of_pos hc, size_cons,
            utf8Size_of_isAscii (isAscii_of_isGap hc), Nat.add_assoc]

theorem loop_spaceRound_crossed (h : Stands t behind ahead i) :
    loop t.size (spaceRound t) true i = .ok (i + size (ahead.takeWhile isGap)) := by
  have hbehind :
      Stands t (behind ++ ahead.takeWhile isGap) (ahead.dropWhile isGap) (i + size (ahead.takeWhile isGap)) :=
    Stands.advance (by rwa [List.takeWhile_append_dropWhile])
  rw [loop_spaceRound_gaps h]
  cases hrest : ahead.dropWhile isGap with
  | nil =>
      rw [hrest] at hbehind
      exact loop_done (by rw [spaceRound, hbehind.byte?_nil])
  | cons c rest =>
      have hc : isGap c = false := by
        have hhead := List.head?_dropWhile_not isGap ahead
        rw [hrest] at hhead
        exact hhead
      rw [hrest] at hbehind
      exact loop_done (by rw [spaceRound_cons hbehind, hc]; simp)

theorem Stands.skipArgumentSpace (h : Stands t behind ahead i) :
    Checked.skipArgumentSpace t i = .ok (i + size (argumentSpace ahead).1) := by
  have hbehind :
      Stands t (behind ++ ahead.takeWhile isGap) (ahead.dropWhile isGap) (i + size (ahead.takeWhile isGap)) :=
    Stands.advance (by rwa [List.takeWhile_append_dropWhile])
  rw [Checked.skipArgumentSpace, loop_spaceRound_gaps h, argumentSpace]
  split
  · next rest hrest =>
      have hbreak := hrest ▸ hbehind
      have hsize := hbreak.size_text
      have hone : Char.utf8Size '\n' = 1 := rfl
      rw [size_cons] at hsize
      rw [loop_next (by rw [spaceRound_cons hbreak]; simp [isGap]; rfl) (Nat.lt_succ_self _) (by omega),
        loop_spaceRound_crossed (hbreak.succ (by decide)), size_append, size_cons, hone]
      congr 1
      omega
  · next rest hrest =>
      cases hahead : ahead.dropWhile isGap with
      | nil =>
          rw [hahead] at hbehind
          exact loop_done (by rw [spaceRound, hbehind.byte?_nil])
      | cons c ahead' =>
          have hc : isGap c = false := by
            have hhead := List.head?_dropWhile_not isGap ahead
            rw [hahead] at hhead
            exact hhead
          have hne : c ≠ '\n' := by
            rintro rfl
            exact hrest ahead' hahead
          rw [hahead] at hbehind
          exact loop_done (by rw [spaceRound_cons hbehind, hc]; simp [hne])

/-- **Skipping space runs without a fault**, wherever it starts. -/
theorem skipArgumentSpace_eq (t : Text) (i : Nat) : skipArgumentSpace t i = .ok (Offset.skipArgumentSpace t i) := by
  rw [Offset.skipArgumentSpace]
  cases h : t.splitAt? i with
  | some parts => exact (stands_of_splitAt? h).skipArgumentSpace
  | none =>
      refine loop_done ?_
      rw [spaceRound]
      cases hb : byte? t i with
      | none => rfl
      | some b =>
          have hgoesOn := byte?_of_splitAt?_eq_none h b hb
          have hspace := hgoesOn.ne_code (show IsAscii ' ' by decide)
          have htab := hgoesOn.ne_code (show IsAscii '\t' by decide)
          have hbreak := hgoesOn.ne_code (show IsAscii '\n' by decide)
          simp [hspace, htab, hbreak]

end Space

/-! ### Groups -/

/-- What is open inside of a group: groups of its kind, and, inside of brackets, braces. -/
structure Depths where
  /-- The groups. -/
  groups : Nat := 0
  /-- The braces. -/
  braces : Nat := 0

/-- A closing delimiter at a position. -/
def closeRound (d : Depths) (i : Nat) : Run (Round Depths (Option Nat)) := do
  let groups ← pred d.groups
  if groups = 0 then .ok (.done (some (i + 1))) else .ok (.next { d with groups } (i + 1))

/-- One round of a scan through a group. -/
def groupRound (t : Text) (bracket : Bool) (d : Depths) (i : Nat) : Run (Round Depths (Option Nat)) :=
  match byte? t i with
  | none => .ok (.done none)
  | some b =>
    if b = code '\\' then .ok (.next d (i + 2))
    else if bracket then
      if b = code '{' then .ok (.next { d with braces := d.braces + 1 } (i + 1))
      else if b = code '}' then .ok (.next { d with braces := d.braces - 1 } (i + 1))
      else if b = code '[' ∧ d.braces = 0 then .ok (.next { d with groups := d.groups + 1 } (i + 1))
      else if b = code ']' ∧ d.braces = 0 then closeRound d i
      else .ok (.next d (i + 1))
    else if b = code '{' then .ok (.next { d with groups := d.groups + 1 } (i + 1))
    else if b = code '}' then closeRound d i
    else .ok (.next d (i + 1))

/-- The position behind the group that opens at a position. -/
def groupEnd? (t : Text) (i : Nat) : Run (Option Nat) :=
  match byte? t i with
  | none => .ok none
  | some b =>
    if b = code '{' then loop t.size (groupRound t false) {} i
    else if b = code '[' then loop t.size (groupRound t true) {} i
    else .ok none

section Groups

variable {t behind ahead : Text} {i : Nat}

theorem passesOver_groupRound (bracket : Bool) : PassesOver t (groupRound t bracket) := by
  intro d i b hb hgoesOn
  have hne : ∀ c ∈ ['\\', '{', '}', '[', ']'], b ≠ code c := by
    intro c hc
    refine hgoesOn.ne_code ?_
    revert c
    decide
  simp only [List.forall_mem_cons] at hne
  obtain ⟨hslash, hopen, hclose, hopen', hclose', -⟩ := hne
  simp [groupRound, hb, hslash, hopen, hclose, hopen', hclose']

theorem groupRound_cons {c : Char} (h : Stands t behind (c :: ahead) i) (bracket : Bool) (d : Depths) :
    groupRound t bracket d i =
      if c = '\\' then .ok (.next d (i + 2))
      else if bracket then
        if c = '{' then .ok (.next { d with braces := d.braces + 1 } (i + 1))
        else if c = '}' then .ok (.next { d with braces := d.braces - 1 } (i + 1))
        else if c = '[' ∧ d.braces = 0 then .ok (.next { d with groups := d.groups + 1 } (i + 1))
        else if c = ']' ∧ d.braces = 0 then closeRound d i
        else .ok (.next d (i + 1))
      else if c = '{' then .ok (.next { d with groups := d.groups + 1 } (i + 1))
      else if c = '}' then closeRound d i
      else .ok (.next d (i + 1)) := by
  have hslash : IsAscii '\\' := by decide
  have hopen : IsAscii '{' := by decide
  have hclose : IsAscii '}' := by decide
  have hopen' : IsAscii '[' := by decide
  have hclose' : IsAscii ']' := by decide
  simp only [groupRound, h.byte?_cons, lead_eq_code_iff hslash, lead_eq_code_iff hopen, lead_eq_code_iff hclose,
    lead_eq_code_iff hopen', lead_eq_code_iff hclose']

/-- The position behind what closes a group, when the scan has come to a position inside of it. -/
def behindClose (i : Nat) (found : Option (Text × Text)) : Option Nat := found.map fun p => i + p.1.size + 1

theorem behindClose_cons (i : Nat) (c : Char) (found : Option (Text × Text)) :
    behindClose i (found.map fun (inner, after) => (c :: inner, after)) = behindClose (i + c.utf8Size) found := by
  cases found <;> simp [behindClose, Nat.add_assoc]

theorem behindClose_pair (i : Nat) (d : Char) (found : Option (Text × Text)) :
    behindClose i (found.map fun (inner, after) => ('\\' :: d :: inner, after)) =
      behindClose (i + 1 + d.utf8Size) found := by
  have hone : Char.utf8Size '\\' = 1 := rfl
  cases found <;> simp [behindClose, Nat.add_assoc, hone]

/-- A backslash at the end leads past the end. -/
theorem loop_groupRound_last (h : Stands t behind ['\\'] i) (bracket : Bool) (d : Depths) :
    loop t.size (groupRound t bracket) d i = .ok none := by
  have hsize := h.size_text
  have hone : size ['\\'] = 1 := rfl
  rw [loop_next (by rw [groupRound_cons h, if_pos rfl]) (by omega) (by omega)]
  exact loop_done (by rw [groupRound, byte?_of_size_le (by omega)])

/-- **The scan through braces** finds the brace that closes them. -/
theorem loop_groupRound_brace (h : Stands t behind ahead i) (depth : Nat) :
    loop t.size (groupRound t false) ⟨depth + 1, 0⟩ i = .ok (behindClose i (closeBrace? depth ahead)) := by
  have hpasses := passesOver_groupRound (t := t) false
  -- The cases are those of `closeBrace?`; behind a backslash the scan may be inside of a character.
  fun_induction closeBrace? depth ahead generalizing behind i with
  | case1 => exact loop_done (by rw [groupRound, h.byte?_nil]; rfl)
  | case2 depth => exact loop_groupRound_last h false _
  | case3 depth d ahead ih =>
      have hslash : IsAscii '\\' := by decide
      rw [loop_pair hpasses h hslash (by rw [groupRound_cons h, if_pos rfl]), ih (h.succ hslash).next, behindClose_pair]
  | case4 depth ahead hne ih =>
      rw [loop_step hpasses h (by rw [groupRound_cons h]; simp; rfl), behindClose_cons]
      exact ih h.next
  | case5 ahead hne hne' =>
      exact loop_done (by rw [groupRound_cons h]; simp [closeRound, behindClose])
  | case6 ahead depth hne hne' ih =>
      rw [loop_step hpasses h (by rw [groupRound_cons h]; simp [closeRound]; rfl), behindClose_cons]
      exact ih h.next
  | case7 depth c ahead hslash hopen hclose ih =>
      rw [loop_step hpasses h (by rw [groupRound_cons h]; simp [hslash, hopen, hclose]; rfl), behindClose_cons]
      exact ih h.next

/-- **The scan through brackets** finds the bracket that closes them. -/
theorem loop_groupRound_bracket (h : Stands t behind ahead i) (depth braces : Nat) :
    loop t.size (groupRound t true) ⟨depth + 1, braces⟩ i = .ok (behindClose i (closeBracket? depth braces ahead)) := by
  have hpasses := passesOver_groupRound (t := t) true
  fun_induction closeBracket? depth braces ahead generalizing behind i with
  | case1 => exact loop_done (by rw [groupRound, h.byte?_nil]; rfl)
  | case2 depth braces => exact loop_groupRound_last h true _
  | case3 depth braces d ahead ih =>
      have hslash : IsAscii '\\' := by decide
      rw [loop_pair hpasses h hslash (by rw [groupRound_cons h, if_pos rfl]), ih (h.succ hslash).next, behindClose_pair]
  | case4 depth braces ahead hne ih =>
      rw [loop_step hpasses h (by rw [groupRound_cons h]; simp; rfl), behindClose_cons]
      exact ih h.next
  | case5 depth braces ahead hne hne' ih =>
      rw [loop_step hpasses h (by rw [groupRound_cons h]; simp; rfl), behindClose_cons]
      exact ih h.next
  | case6 depth braces c ahead hslash hopen hclose hstart ih =>
      obtain ⟨rfl, rfl⟩ := hstart
      rw [loop_step hpasses h (by rw [groupRound_cons h]; simp; rfl), behindClose_cons]
      exact ih h.next
  | case7 braces c ahead hslash hopen hclose hstart hstop =>
      obtain ⟨rfl, rfl⟩ := hstop
      exact loop_done (by rw [groupRound_cons h]; simp [closeRound, behindClose])
  | case8 braces c ahead hslash hopen hclose hstart hstop depth ih =>
      obtain ⟨rfl, rfl⟩ := hstop
      rw [loop_step hpasses h (by rw [groupRound_cons h]; simp [closeRound]; rfl), behindClose_cons]
      exact ih h.next
  | case9 depth braces c ahead hslash hopen hclose hstart hstop ih =>
      rw [loop_step hpasses h (by rw [groupRound_cons h]; simp [hslash, hopen, hclose, hstart, hstop]; rfl),
        behindClose_cons]
      exact ih h.next

theorem Stands.groupEnd? (h : Stands t behind ahead i) :
    Checked.groupEnd? t i = .ok ((Group.read? ahead).map fun g => i + g.source.size) := by
  rw [Checked.groupEnd?]
  cases ahead with
  | nil =>
      rw [h.byte?_nil]
      rfl
  | cons c ahead =>
      have hopen : IsAscii '{' := by decide
      have hopen' : IsAscii '[' := by decide
      have hone : Char.utf8Size '{' = 1 := rfl
      have hone' : Char.utf8Size '}' = 1 := rfl
      have hone'' : Char.utf8Size '[' = 1 := rfl
      have hone''' : Char.utf8Size ']' = 1 := rfl
      rw [h.byte?_cons, Group.read?]
      simp only [lead_eq_code_iff hopen, lead_eq_code_iff hopen']
      split
      · next hc =>
          subst hc
          rw [loop_step (passesOver_groupRound false) h (by rw [groupRound_cons h]; simp; rfl),
            loop_groupRound_brace h.next, behindClose, Option.map_map]
          congr 2
          funext p
          simp [Group.source, hone, hone']
          omega
      · split
        · next hc =>
            subst hc
            rw [loop_step (passesOver_groupRound true) h (by rw [groupRound_cons h]; simp; rfl),
              loop_groupRound_bracket h.next, behindClose, Option.map_map]
            congr 2
            funext p
            simp [Group.source, hone'', hone''']
            omega
        · rfl

/-- **The search for the end of a group runs without a fault**, wherever it starts. -/
theorem groupEnd?_eq (t : Text) (i : Nat) : groupEnd? t i = .ok (Offset.groupEnd? t i) := by
  rw [Offset.groupEnd?]
  cases h : t.splitAt? i with
  | some parts => exact (stands_of_splitAt? h).groupEnd?
  | none =>
      rw [groupEnd?]
      cases hb : byte? t i with
      | none => rfl
      | some b =>
          have hgoesOn := byte?_of_splitAt?_eq_none h b hb
          have hopen := hgoesOn.ne_code (show IsAscii '{' by decide)
          have hopen' := hgoesOn.ne_code (show IsAscii '[' by decide)
          simp [hopen, hopen']

end Groups

/-! ### Brackets -/

/-- Only a bracket starts a bracket group. -/
theorem readBracket?_eq (t : Text) :
    Group.readBracket? t = if startsWith ['['] t then Group.read? t else none := by
  rw [Group.readBracket?]
  cases hread : Group.read? t with
  | none => rw [Option.filter_none, ite_self]
  | some g =>
      rcases read?_eq_some hread with ⟨t', rfl, -, hsource⟩ | ⟨t', rfl, -, hsource⟩
      · have hfence : g.fence = .brace := by
          cases hfence : g.fence with
          | brace => rfl
          | bracket => simp [Group.source, hfence] at hsource
        rw [Option.filter_some, hfence]
        rfl
      · have hfence : g.fence = .bracket := by
          cases hfence : g.fence with
          | bracket => rfl
          | brace => simp [Group.source, hfence] at hsource
        rw [Option.filter_some, hfence]
        rfl

/-! ### Arguments -/

/-- The next mandatory argument and the position behind it. -/
def readArgument? (t : Text) (i : Nat) : Run (Option (Text × Nat)) := do
  let opening ← skipArgumentSpace t i
  match ← groupEnd? t opening with
  | none => .ok none
  | some stop =>
    if (← byte t opening) = code '{' then
      let last ← pred stop
      let inner ← cut t (opening + 1) last
      .ok (some (inner, stop))
    else .ok none

/-- One round of skipping groups. -/
def groupsRound (t : Text) (_ : Unit) (i : Nat) : Run (Round Unit Nat) := do
  let opening ← skipArgumentSpace t i
  match ← groupEnd? t opening with
  | some stop => .ok (.next () stop)
  | none => .ok (.done i)

/-- The position behind all groups that follow directly. -/
def skipGroups (t : Text) (i : Nat) : Run Nat := loop t.size (groupsRound t) () i

section Arguments

variable {t behind ahead : Text} {i : Nat}

/-- The position behind argument space. -/
theorem Stands.afterSpace (h : Stands t behind ahead i) :
    Stands t (behind ++ (argumentSpace ahead).1) (argumentSpace ahead).2 (i + size (argumentSpace ahead).1) :=
  Stands.advance (by rwa [argumentSpace_append])

/-- **What stands between the delimiters of a group** is cut out one byte behind its start and one byte before its
end. -/
theorem Stands.inner {g : Group} (h : Stands t behind g.text i) :
    ∃ last, pred (i + g.source.size) = .ok last ∧ Checked.cut t (i + 1) last = .ok g.inner ∧
      byte t i = .ok (if g.fence = .brace then code '{' else code '[') := by
  obtain ⟨fence, inner, after⟩ := g
  cases fence with
  | brace =>
      have hopening : Stands t behind ('{' :: (inner ++ '}' :: after)) i := by
        simpa [Group.text, Group.source] using h
      have hlast : i + size (Group.source ⟨.brace, inner, after⟩) = (i + 1 + size inner) + 1 := by
        have hone : Char.utf8Size '{' = 1 := rfl
        have hone' : Char.utf8Size '}' = 1 := rfl
        simp only [Group.source, List.cons_append, size_cons, size_append, size_nil, hone, hone']
        omega
      rw [hlast]
      exact ⟨_, pred_succ _, (hopening.succ (by decide)).cut, hopening.byte_cons⟩
  | bracket =>
      have hopening : Stands t behind ('[' :: (inner ++ ']' :: after)) i := by
        simpa [Group.text, Group.source] using h
      have hlast : i + size (Group.source ⟨.bracket, inner, after⟩) = (i + 1 + size inner) + 1 := by
        have hone : Char.utf8Size '[' = 1 := rfl
        have hone' : Char.utf8Size ']' = 1 := rfl
        simp only [Group.source, List.cons_append, size_cons, size_append, size_nil, hone, hone']
        omega
      rw [hlast]
      exact ⟨_, pred_succ _, (hopening.succ (by decide)).cut, hopening.byte_cons⟩

theorem Stands.readArgument? (h : Stands t behind ahead i) :
    Checked.readArgument? t i = .ok ((Argument.read? ahead).map fun a => (a.inner, i + a.source.size)) := by
  have hspace := h.afterSpace
  rw [Checked.readArgument?, h.skipArgumentSpace, ok_bind, hspace.groupEnd?, ok_bind, Argument.read?]
  cases hread : Group.read? (argumentSpace ahead).2 with
  | none => rfl
  | some g =>
      have htext := Group.text_read? hread
      obtain ⟨last, hlast, hinner, hbyte⟩ := (htext.symm ▸ hspace : Stands t _ g.text _).inner
      obtain ⟨fence, inner, after⟩ := g
      cases fence with
      | brace =>
          simp only [Option.map_some]
          rw [hbyte, ok_bind, if_pos rfl, if_pos rfl, hlast, ok_bind, hinner, ok_bind]
          simp [Argument.source, Group.source, Nat.add_assoc]
      | bracket =>
          simp only [Option.map_some]
          rw [hbyte, ok_bind, if_neg (show Fence.bracket ≠ .brace by decide),
            if_neg (show code '[' ≠ code '{' by decide)]
          rfl

/-- **Reading an argument runs without a fault**, wherever it starts. -/
theorem readArgument?_eq (t : Text) (i : Nat) : readArgument? t i = .ok (Offset.readArgument? t i) := by
  rw [Offset.readArgument?]
  cases h : t.splitAt? i with
  | some parts => exact (stands_of_splitAt? h).readArgument?
  | none =>
      have hspace : Offset.skipArgumentSpace t i = i := by rw [Offset.skipArgumentSpace, h]
      have hgroup : Offset.groupEnd? t i = none := by rw [Offset.groupEnd?, h]
      rw [readArgument?, skipArgumentSpace_eq, ok_bind, hspace, groupEnd?_eq, ok_bind, hgroup]

theorem Stands.skipGroups (h : Stands t behind ahead i) :
    Checked.skipGroups t i = .ok (i + size (groups ahead).1) := by
  rw [Checked.skipGroups]
  fun_induction groups ahead generalizing behind i with
  | case1 ahead hread =>
      refine loop_done ?_
      rw [groupsRound, h.skipArgumentSpace, ok_bind, h.afterSpace.groupEnd?, ok_bind, hread]
      rfl
  | case2 ahead g hread hlt ih =>
      have hbehind : Stands t (behind ++ ((argumentSpace ahead).1 ++ g.source)) g.after
          (i + size ((argumentSpace ahead).1 ++ g.source)) := by
        refine Stands.advance ?_
        rwa [List.append_assoc, ← Group.text, Group.text_read? hread, argumentSpace_append]
      -- A group has its delimiters, so the loop moves on.
      have hpos : 0 < g.source.size := size_pos_of_ne_nil (by
        rcases read?_eq_some hread with ⟨-, -, -, hsource⟩ | ⟨-, -, -, hsource⟩ <;> simp [hsource])
      have hsize := hbehind.size_text
      rw [size_append] at hsize
      have hround : groupsRound t () i = .ok (.next () (i + size ((argumentSpace ahead).1 ++ g.source))) := by
        rw [groupsRound, h.skipArgumentSpace, ok_bind, h.afterSpace.groupEnd?, ok_bind, hread, size_append,
          ← Nat.add_assoc]
        rfl
      rw [loop_next hround (by rw [size_append]; omega) (by omega), ih hbehind, size_append _ (groups g.after).1,
        Nat.add_assoc]

/-- **Skipping groups runs without a fault**, wherever it starts. -/
theorem skipGroups_eq (t : Text) (i : Nat) : skipGroups t i = .ok (Offset.skipGroups t i) := by
  rw [Offset.skipGroups]
  cases h : t.splitAt? i with
  | some parts => exact (stands_of_splitAt? h).skipGroups
  | none =>
      have hspace : Offset.skipArgumentSpace t i = i := by rw [Offset.skipArgumentSpace, h]
      have hgroup : Offset.groupEnd? t i = none := by rw [Offset.groupEnd?, h]
      exact loop_done (by rw [groupsRound, skipArgumentSpace_eq, ok_bind, hspace, groupEnd?_eq, ok_bind, hgroup])

end Arguments

end CribSheet.Checked
