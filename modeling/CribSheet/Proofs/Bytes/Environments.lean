/-
Environments, byte by byte.

The content of an environment is cut at its options, and the options of a box at its title.  What is read in the
parts is left to a function that is handed in.

Main definitions:

* `CribSheet.Checked.splitOptions`, `CribSheet.Checked.calloutTitle?` — the options, and the title among them;
* `CribSheet.Checked.environment` — the blocks of an environment.

Main results:

* `CribSheet.Checked.splitOptions_eq`, `CribSheet.Checked.calloutTitle?_eq` — options and title are cut out without a
  fault;
* `CribSheet.Checked.environment_eq` — **an environment is read without a fault**, if nothing longer than its content
  is one.
-/
import CribSheet.Proofs.Bytes.Inlines
import CribSheet.Proofs.Bytes.Items

set_option relaxedAutoImplicit false
set_option autoImplicit false

namespace CribSheet.Checked

open Text Markup

/-! ### Options -/

/-- The options at the start of the content of an environment, and the rest of it. -/
def splitOptions (t : Text) : Run (Option Text × Text) := do
  let start ← minus t.size (size (t.dropWhile isGap))
  let ahead ← cutFrom t start
  if startsWith ['['] ahead then
    match ← groupEnd? t start with
    | some stop => do
      let last ← pred stop
      let options ← cut t (start + 1) last
      let body ← cutFrom t stop
      .ok (some options, body)
    | none => .ok (none, t)
  else .ok (none, t)

theorem splitOptions_eq (t : Text) :
    splitOptions t = .ok ((EnvironmentContent.ofText t).options, (EnvironmentContent.ofText t).body) := by
  have hsize : t.size = size (t.takeWhile isGap) + size (t.dropWhile isGap) := by
    rw [← size_append, List.takeWhile_append_dropWhile]
  have hstart : Stands t (t.takeWhile isGap) (t.dropWhile isGap) (size (t.takeWhile isGap)) :=
    ⟨List.takeWhile_append_dropWhile.symm, rfl⟩
  rw [splitOptions, hsize, minus_add, ok_bind, hstart.cutFrom, ok_bind, EnvironmentContent.ofText, readBracket?_eq]
  cases startsWith ['['] (t.dropWhile isGap) with
  | false => rfl
  | true =>
      rw [if_pos rfl, if_pos rfl, hstart.groupEnd?, ok_bind]
      cases hread : Group.read? (t.dropWhile isGap) with
      | none => rfl
      | some g =>
          have htext := Group.text_read? hread
          rw [← htext] at hstart
          obtain ⟨last, hlast, hinner, -⟩ := hstart.inner
          simp only [Option.map_some]
          rw [hlast, ok_bind, hinner, ok_bind, hstart.advance.cutFrom, ok_bind]

/-! ### Titles -/

/-- What stands before the value of a title. -/
def titleKey : Text := ['t', 'i', 't', 'l', 'e', '=']

/-- Where the key of a title stands in a text that starts at a position, from the left and one behind the other. -/
def titleStarts (i : Nat) : Text → List Nat
  | [] => []
  | c :: t =>
    match h : after? titleKey (c :: t) with
    | some rest =>
      have : rest.length ≤ t.length := by
        have hlength := congrArg List.length (after?_eq_some_iff.1 h)
        rw [List.length_append, List.length_cons] at hlength
        have hkey : titleKey.length = 6 := rfl
        omega
      i :: titleStarts (i + titleKey.size) rest
    | none => titleStarts (i + c.utf8Size) t
termination_by t => t.length

/-- The first of some positions at which an option starts. -/
def firstOption (t : Text) : List Nat → Run (Option Nat)
  | [] => .ok none
  | i :: starts => do
    let front ← cutTo t i
    if front.getLast?.all fun c => c == ',' || isBlank c then .ok (some i) else firstOption t starts

/-- Where the value of an option ends in a text that starts at a position, while so many braces are open. -/
def valueEnd? (depth i : Nat) : Text → Option Nat
  | [] => none
  | c :: t =>
    if c = '{' then valueEnd? (depth + 1) (i + c.utf8Size) t
    else if c = '}' then valueEnd? (depth - 1) (i + c.utf8Size) t
    else if c = ',' ∧ depth = 0 then some i
    else valueEnd? depth (i + c.utf8Size) t

/-- The title among the options of a box. -/
def calloutTitle? (t : Text) : Run (Option Text) := do
  match ← firstOption t (titleStarts 0 t) with
  | none => .ok none
  | some start => do
    let rest ← cutFrom t (start + titleKey.size)
    let value ← cutTo rest ((valueEnd? 0 0 rest).getD rest.size)
    let title := trim (dropBraces (trim value))
    .ok (if title = [] then none else some title)

section Titles

variable {t behind ahead : Text} {i : Nat}

/-- The key that was found is the one behind which the value of the title stands. -/
theorem firstOption_titleStarts (h : Stands t behind ahead i) :
    ∃ found, firstOption t (titleStarts i ahead) = .ok found ∧
      match afterTitleKey? (behind.getLast?.all fun c => c == ',' || isBlank c) ahead with
      | none => found = none
      | some rest => ∃ start front, found = some start ∧ Stands t front rest (start + titleKey.size) := by
  fun_induction titleStarts i ahead generalizing behind with
  | case1 i => exact ⟨none, rfl, rfl⟩
  | case2 i c ahead rest hkey hlt ih =>
      have hahead := after?_eq_some_iff.1 hkey
      rw [hahead] at h
      have hnext : Stands t (behind ++ titleKey) rest (i + titleKey.size) := h.advance
      rw [firstOption, h.cutTo, ok_bind]
      cases hstarts : behind.getLast?.all fun c => c == ',' || isBlank c with
      | true =>
          refine ⟨some i, rfl, ?_⟩
          have hfound : afterTitleKey? true (c :: ahead) = some rest := by
            rw [afterTitleKey?, if_pos rfl]
            simp only [show after? ['t', 'i', 't', 'l', 'e', '='] (c :: ahead) = some rest from hkey]
          rw [hfound]
          exact ⟨i, _, rfl, hnext⟩
      | false =>
          -- No option starts inside of the key, nor directly behind it.
          have hskip : afterTitleKey? false (c :: ahead) = afterTitleKey? false rest := by
            rw [hahead]
            rfl
          have hlast : ((behind ++ titleKey).getLast?.all fun c => c == ',' || isBlank c) = false := by
            rw [List.getLast?_append_of_ne_nil _ (by decide)]
            rfl
          have ih := ih hnext
          rw [hlast] at ih
          rw [hskip]
          exact ih
  | case3 i c ahead hkey ih =>
      have ih := ih h.next
      have hnone : ∀ starts : Bool,
          (if starts then after? ['t', 'i', 't', 'l', 'e', '='] (c :: ahead) else none) = none := fun starts => by
        cases starts <;> first | rfl | exact hkey
      rw [afterTitleKey?]
      simp only [hnone]
      rwa [List.getLast?_concat] at ih

/-- Where a value ends is behind its characters. -/
theorem valueEnd?_eq (depth i : Nat) (t : Text) :
    ∃ rest, t = optionValue depth t ++ rest ∧
      (valueEnd? depth i t).getD (i + t.size) = i + size (optionValue depth t) := by
  induction t generalizing depth i with
  | nil => exact ⟨[], rfl, rfl⟩
  | cons c t ih =>
      have hcons : ∀ depth', valueEnd? depth i (c :: t) = valueEnd? depth' (i + c.utf8Size) t →
          optionValue depth (c :: t) = c :: optionValue depth' t →
          ∃ rest, c :: t = optionValue depth (c :: t) ++ rest ∧
            (valueEnd? depth i (c :: t)).getD (i + size (c :: t)) = i + size (optionValue depth (c :: t)) := by
        intro depth' hend hvalue
        obtain ⟨rest, hrest, hsize⟩ := ih depth' (i + c.utf8Size)
        refine ⟨rest, by rw [hvalue, List.cons_append, ← hrest], ?_⟩
        rw [hend, hvalue, size_cons, size_cons, ← Nat.add_assoc, ← Nat.add_assoc, hsize]
      by_cases hopen : c = '{'
      · exact hcons (depth + 1) (by rw [valueEnd?, if_pos hopen]) (by rw [optionValue, if_pos hopen])
      · by_cases hclose : c = '}'
        · exact hcons (depth - 1) (by rw [valueEnd?, if_neg hopen, if_pos hclose])
            (by rw [optionValue, if_neg hopen, if_pos hclose])
        · by_cases hcomma : c = ',' ∧ depth = 0
          · refine ⟨c :: t, ?_, ?_⟩
            · rw [optionValue, if_neg hopen, if_neg hclose, if_pos hcomma, List.nil_append]
            · rw [optionValue, valueEnd?, if_neg hopen, if_neg hclose, if_pos hcomma, if_neg hopen, if_neg hclose,
                if_pos hcomma]
              rfl
          · exact hcons depth (by rw [valueEnd?, if_neg hopen, if_neg hclose, if_neg hcomma])
              (by rw [optionValue, if_neg hopen, if_neg hclose, if_neg hcomma])

/-- **The title is cut out without a fault.** -/
theorem calloutTitle?_eq (t : Text) : calloutTitle? t = .ok (CribSheet.calloutTitle? t) := by
  obtain ⟨found, hfound, hkey⟩ := firstOption_titleStarts (stands_zero t)
  rw [calloutTitle?, hfound, ok_bind, CribSheet.calloutTitle?]
  cases hafter : afterTitleKey? true t with
  | none =>
      obtain rfl : found = none := by simpa [hafter] using hkey
      rfl
  | some rest =>
      obtain ⟨start, front, rfl, hrest⟩ : ∃ start front, found = some start ∧
          Stands t front rest (start + titleKey.size) := by simpa [hafter] using hkey
      obtain ⟨tail, htail, hend⟩ := valueEnd?_eq 0 0 rest
      rw [Nat.zero_add, Nat.zero_add] at hend
      have hvalue : Stands rest (optionValue 0 rest) tail ((valueEnd? 0 0 rest).getD rest.size) := ⟨htail, hend.symm⟩
      simp only [Option.bind_some]
      rw [hrest.cutFrom, ok_bind, hvalue.cutTo, ok_bind]

end Titles

/-! ### Environments -/

/-- The blocks of a list: what stands before its first item, and the list, unless it has no items. -/
def list (parse : Text → Nat → Run (List Block × Nat)) (shown : List (List Block) → Block) (content : Text)
    (seen : Nat) : Run (List Block × Nat) := do
  let (_, body) ← splitOptions content
  let (lead, its, seen) ← parseItems parse body seen
  .ok (if its.isEmpty then lead else lead ++ [shown its], seen)

/-- The blocks of a box, its title first. -/
def callout (parse : Text → Nat → Run (List Block × Nat)) (content : Text) (seen : Nat) : Run (List Block × Nat) := do
  let (options, body) ← splitOptions content
  let title ← match options with
    | some options => calloutTitle? options
    | none => .ok none
  let heading ← match title with
    | some title => do
      let inlines ← parseInlines title
      .ok [Block.paragraph [.strong inlines]]
    | none => .ok []
  let (children, seen) ← parse body seen
  .ok ([.callout (heading ++ children)], seen)

/-- The blocks of an environment. -/
def environment (parse : Text → Nat → Run (List Block × Nat)) (name content : Text) (seen : Nat) :
    Run (List Block × Nat) :=
  if name = itemizeName then list parse .steps content seen
  else if name = enumerateName then list parse (.list (.next seen)) content (nextCount seen)
  else if name = "tcolorbox".toList then callout parse content seen
  else if formulaNames.contains name then .ok ([.math content.trim], seen)
  else if alignedNames.contains name then .ok ([.math (aligned content)], seen)
  else parse content seen

section Environment

variable {parse : Text → Nat → Run (List Block × Nat)} {read : Reader} {content : Text}

theorem list_eq (hparse : ∀ u : Text, u.length ≤ content.length → ∀ seen, parse u seen = .ok (read u seen))
    (shown : List (List Block) → Block) (seen : Nat) :
    list parse shown content seen = .ok (readList read shown content seen) := by
  -- The options are cut off, so the body is no longer than the content.
  have hbody := EnvironmentContent.length_body_ofText_le content
  rw [list, splitOptions_eq, ok_bind]
  simp only
  rw [parseItems_eq (fun u hu => hparse u (Nat.le_trans hu hbody)), ok_bind]
  rfl

theorem callout_eq (hparse : ∀ u : Text, u.length ≤ content.length → ∀ seen, parse u seen = .ok (read u seen))
    (seen : Nat) : callout parse content seen = .ok (readCallout read content seen) := by
  have hbody := EnvironmentContent.length_body_ofText_le content
  rw [callout, splitOptions_eq, ok_bind, readCallout]
  simp only
  rw [hparse _ hbody]
  cases (EnvironmentContent.ofText content).options with
  | none => rfl
  | some options =>
      simp only [Option.bind_some]
      rw [calloutTitle?_eq, ok_bind]
      cases CribSheet.calloutTitle? options with
      | none => rfl
      | some title =>
          simp only
          rw [parseInlines_eq]
          rfl

/-- **An environment is read without a fault**, if nothing longer than its content is one. -/
theorem environment_eq (hparse : ∀ u : Text, u.length ≤ content.length → ∀ seen, parse u seen = .ok (read u seen))
    (name : Text) (seen : Nat) :
    environment parse name content seen = .ok (readEnvironment read name content seen) := by
  rw [environment, readEnvironment, list_eq hparse, list_eq hparse, callout_eq hparse, hparse content (Nat.le_refl _)]
  simp only [apply_ite (Except.ok (ε := Fault))]

end Environment

end CribSheet.Checked
