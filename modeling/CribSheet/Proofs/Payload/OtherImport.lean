/-
Imports that stay.

An import whose list does not hold the package that goes is left alone, whatever follows it.  So lines
that hold no import, or start with such a one, stay in front of a text that a directive edits.

Main definitions:

* `CribSheet.Payload.importsOthers` — the arguments of an import without a package;
* `CribSheet.Payload.keepsLine` — a line that stays.

Main results:

* `CribSheet.Payload.dropPackage?_append` — an import without the package is left alone;
* `CribSheet.Payload.result_revise_trailJoin` — lines that a directive keeps stay in front.
-/
import CribSheet.Proofs.Markup.Pieces
import CribSheet.Proofs.Payload.Argument
import CribSheet.Proofs.Payload.Directive

set_option relaxedAutoImplicit false
set_option autoImplicit false

namespace CribSheet.Payload

open CribSheet.Text CribSheet.Markup

/-! ### One import -/

/-- The arguments are those of an import without the package. -/
def importsOthers (package : Text) (arguments : Text) : Bool :=
  arguments.head?.any (fun c => c = '[' || c = '{') &&
    match Directive.importOptions? arguments with
    | none => false
    | some (_, rest) =>
      rest.head? = some '{' && (Group.read? rest).any fun list =>
        list.fence = .brace && !(Directive.importNames list.inner).any (Directive.sameName package)

theorem importOptions?_append {t options rest : Text}
    (h : Directive.importOptions? t = some (options, rest)) (ht : t ≠ []) (r : Text) :
    Directive.importOptions? (t ++ r) = some (options, rest ++ r) := by
  obtain ⟨c, t, rfl⟩ := List.exists_cons_of_ne_nil ht
  rw [Directive.importOptions?] at h ⊢
  split at h
  · next hc =>
      obtain ⟨g, hg, he⟩ := Option.map_eq_some_iff.1 h
      obtain ⟨rfl, rfl⟩ := Prod.mk.inj he
      rw [if_pos (by simpa using hc), read?_append_right hg]
      rfl
  · next hc =>
      obtain ⟨rfl, rfl⟩ := Prod.mk.inj (Option.some.inj h)
      rw [if_neg (by simpa using hc)]

/-- **An import without the package is left alone**, whatever follows its arguments. -/
theorem dropPackage?_append {package arguments : Text} (h : importsOthers package arguments = true)
    {s : Sighting} {r : Text} (hs : s.after = arguments ++ r) :
    Directive.dropPackage? package s = none := by
  have hdelimiter : ∀ c : Char, (c = '[' || c = '{') = true → isGap c = false ∧ c ≠ '\n' := by
    intro c hc
    simp only [Bool.or_eq_true, decide_eq_true_eq] at hc
    rcases hc with rfl | rfl <;> decide
  rw [importsOthers, Bool.and_eq_true] at h
  obtain ⟨hhead, h⟩ := h
  obtain ⟨c, arguments, rfl⟩ : ∃ c x, arguments = c :: x :=
    List.exists_cons_of_ne_nil fun hnil => by simp [hnil] at hhead
  split at h
  · simp at h
  · next options rest hoptions =>
      rw [Bool.and_eq_true, decide_eq_true_eq, Option.any_eq_true] at h
      obtain ⟨hbrace, list, hlist, h⟩ := h
      rw [Bool.and_eq_true, decide_eq_true_eq] at h
      obtain ⟨hfence, hother⟩ := h
      obtain ⟨y, rfl⟩ : ∃ y, rest = '{' :: y := by
        cases rest with
        | nil => simp at hbrace
        | cons d y => exact ⟨y, by simpa using hbrace⟩
      have hspace : argumentSpace s.after = ([], c :: arguments ++ r) := by
        rw [hs]
        exact argumentSpace_of_head fun e he => by
          obtain rfl : c = e := by simpa using he
          exact hdelimiter c (by simpa using hhead)
      have hread : Argument.read? ('{' :: y ++ r) = some ⟨[], list.inner, list.after ++ r⟩ := by
        rw [Argument.read?, argumentSpace_of_head (t := '{' :: y ++ r) (by simp; decide),
          read?_append_right hlist, hfence]
      simp only [Directive.dropPackage?, hspace, importOptions?_append hoptions (List.cons_ne_nil _ _),
        Option.bind_eq_bind, Option.bind_some, hread]
      rw [if_neg (by simpa using hother)]

/-! ### Lines -/

/-- The line holds no import, or starts with one without the package and holds no other. -/
def keepsLine (name package line : Text) : Bool :=
  match after? ('\\' :: name) line with
  | none => (Sighting.find? [name] false line).isNone && !escapedAfter false line
  | some arguments =>
    (Sighting.find? [name] false arguments).isNone && !escapedAfter false arguments &&
      importsOthers package arguments

/-- Behind a text without the command, what a directive changes starts behind the next line break. -/
theorem result_revise_append_break {d : Directive} (hname : ∀ c ∈ d.name, isLetter c = true) {a r : Text}
    (ha : Sighting.find? [d.name] false a = none) (hfresh : escapedAfter false a = false)
    (hr : ∀ c ∈ r.head?, c = '\n') (blank : Bool) :
    ∃ r', (∀ c ∈ r'.head?, c = '\n') ∧ (d.revise false blank (a ++ r)).result = a ++ r' := by
  rcases d.result_revise_cases false blank (a ++ r) with ⟨-, heq⟩ | ⟨s, z, hs, heq⟩
  · exact ⟨r, hr, heq⟩
  · have hends : EndsName r := fun c hc => by
      rw [hr c hc]
      decide
    rw [Sighting.find?_append (by simpa using hname) hends, ha, hfresh] at hs
    obtain ⟨s', hs', rfl⟩ := Option.map_eq_some_iff.1 hs
    have hin := (Sighting.isIn_find? hs').2.text_eq
    obtain ⟨x, hx⟩ : ∃ x, s'.before = '\n' :: x := by
      cases hbefore : s'.before with
      | nil =>
          rw [Sighting.text, hbefore, Sighting.source] at hin
          exact absurd (hr '\\' (by rw [← hin]; rfl)) (by decide)
      | cons c x =>
          rw [Sighting.text, hbefore] at hin
          rw [hr c (by rw [← hin]; rfl)]
          exact ⟨x, rfl⟩
    rw [Sighting.before_within, hx] at heq
    rcases heq with heq | heq
    · exact ⟨'\n' :: x ++ z, by simp, by rw [heq]; simp⟩
    · obtain ⟨y, hy⟩ := lastLine_append_cons a x
      exact ⟨'\n' :: y ++ z, by simp, by rw [heq, hy]; simp⟩

/-- Behind an import that is left alone, a directive goes on with the arguments. -/
theorem result_revise_import {d : Directive} {package : Text} (hd : d.removal = .package package)
    (hne : d.name ≠ []) (hname : ∀ c ∈ d.name, isLetter c = true) {a arguments : Text}
    (ha : Sighting.find? [d.name] false a = none) (hfresh : escapedAfter false a = false)
    (h : importsOthers package arguments = true) (blank : Bool) (r : Text) :
    ∃ blank', (d.revise false blank (a ++ '\\' :: (d.name ++ (arguments ++ r)))).result =
      a ++ '\\' :: d.name ++ (d.revise false blank' (arguments ++ r)).result := by
  have hends : EndsName (arguments ++ r) := by
    rw [importsOthers, Bool.and_eq_true] at h
    cases arguments with
    | nil => simp at h
    | cons c q =>
        have hc : c = '[' ∨ c = '{' := by simpa using h.1
        refine endsName_cons.2 ?_
        rcases hc with rfl | rfl <;> decide
  have hfound := Sighting.find?_append_source hname ha hfresh hends
  obtain ⟨c, name, hcons⟩ := List.exists_cons_of_ne_nil hne
  have hslash : '\\' ∉ d.name := fun h => absurd (hname _ h) (by decide)
  generalize hs : Sighting.mk a d.name false (arguments ++ r) = s at hfound
  have hsname : s.name = d.name := by rw [← hs]
  have hkept : d.replacement? s = none := by
    rw [Directive.replacement?, hd]
    exact dropPackage?_append h (r := r) (by rw [← hs])
  have hsource := Sighting.escapedAfter_source (hsname.trans hcons) (hsname ▸ hslash)
  have hstate : escapedAfter false (s.before ++ s.source) = false := by
    rw [escapedAfter_append, ← hs, hfresh, hs, hsource]
  have hskip := Directive.result_revise_skip hfound hkept blank
  rw [hstate] at hskip
  refine ⟨blankLineAfter blank (s.before ++ s.source), ?_⟩
  rw [hskip, ← hs]
  simp [Sighting.source]

/-- **Lines that a directive keeps stay in front.** -/
theorem result_revise_trailJoin {d : Directive} {package : Text} (hd : d.removal = .package package)
    (hne : d.name ≠ []) (hname : ∀ c ∈ d.name, isLetter c = true) {rows : List Text}
    (hrows : ∀ line ∈ rows, keepsLine d.name package line = true) {a r : Text}
    (ha : Sighting.find? [d.name] false a = none) (hfresh : escapedAfter false a = false)
    (hr : ∀ c ∈ r.head?, c = '\n') (blank : Bool) :
    ∃ r', (∀ c ∈ r'.head?, c = '\n') ∧
      (d.revise false blank (a ++ trailJoin '\n' rows ++ r)).result = a ++ trailJoin '\n' rows ++ r' := by
  induction rows generalizing a blank with
  | nil => simpa using result_revise_append_break hname ha hfresh hr blank
  | cons line rows ih =>
      obtain ⟨hline, hrows⟩ := List.forall_mem_cons.1 hrows
      have hends : ∀ x, EndsName ('\n' :: x) := endsName_newline
      have hbreak : escapes false '\n' = false := by decide
      rw [keepsLine] at hline
      split at hline
      · -- A line without the command.
        rw [Bool.and_eq_true, Option.isNone_iff_eq_none, Bool.not_eq_true'] at hline
        have hlonger : Sighting.find? [d.name] false (a ++ '\n' :: line) = none := by
          rw [Sighting.find?_append (by simpa using hname) (hends line), ha, hfresh, Sighting.find?,
            hbreak, hline.1]
          rfl
        have hstate : escapedAfter false (a ++ '\n' :: line) = false := by
          rw [escapedAfter_append, hfresh, escapedAfter_cons, hbreak, hline.2]
        obtain ⟨r', hr', heq⟩ := ih hrows hlonger hstate blank
        exact ⟨r', hr', by simpa using heq⟩
      · -- A line that starts with an import.
        next arguments harguments =>
          simp only [Bool.and_eq_true, Option.isNone_iff_eq_none, Bool.not_eq_true'] at hline
          obtain ⟨⟨hnone, hstate⟩, hothers⟩ := hline
          have hsplit : line = '\\' :: (d.name ++ arguments) := after?_eq_some_iff.1 harguments
          have hbefore : Sighting.find? [d.name] false (a ++ ['\n']) = none := by
            rw [Sighting.find?_append (by simpa using hname) (hends []), ha, hfresh]
            rfl
          have hfresh' : escapedAfter false (a ++ ['\n']) = false := by
            rw [escapedAfter_append, hfresh]
            rfl
          obtain ⟨blank', hskip⟩ := result_revise_import hd hne hname hbefore hfresh' hothers blank
            (trailJoin '\n' rows ++ r)
          obtain ⟨r', hr', heq⟩ := ih hrows hnone hstate blank'
          have htext : a ++ trailJoin '\n' (line :: rows) ++ r =
              a ++ ['\n'] ++ '\\' :: (d.name ++ (arguments ++ (trailJoin '\n' rows ++ r))) := by
            rw [trailJoin_cons, hsplit]
            simp
          refine ⟨r', hr', ?_⟩
          rw [htext, hskip, ← List.append_assoc arguments, heq, hsplit]
          simp

end CribSheet.Payload
