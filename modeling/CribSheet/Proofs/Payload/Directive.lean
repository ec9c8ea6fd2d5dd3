/-
What the removal of a directive leaves behind.

Whatever a directive says, its edits only take characters out: a command goes as a whole, and an import
list is written again with fewer names.  An edit that is made always takes something out, so a directive
leaves a text alone exactly when the text holds no command that it would edit.

Main results:

* `CribSheet.Payload.Directive.inserted_sublist`, `CribSheet.Payload.Directive.inserted_ne` — what is
  written in place of a command is less than the command;
* `CribSheet.Payload.Directive.deletes_revise` — a directive deletes;
* `CribSheet.Payload.Directive.result_revise_eq_self_iff` — the texts that a directive leaves alone;
* `CribSheet.Payload.removeDirectives_eq_self_iff` — the same for a table.
-/
import CribSheet.Payload.Directive
import CribSheet.Proofs.Markup.Sighting
import CribSheet.Proofs.Text.Cut
import CribSheet.Proofs.Text.Deletion

set_option relaxedAutoImplicit false
set_option autoImplicit false

namespace CribSheet.Payload

open CribSheet.Text CribSheet.Markup

namespace Directive

/-! ### Import lists -/

theorem importNames_sublistForall₂ (list : Text) :
    List.SublistForall₂ List.Sublist (importNames list) (list.splitOn ',') := by
  refine List.sublistForall₂_iff.2 ⟨(list.splitOn ',').filter fun p => trim p ≠ [], ?_,
    List.filter_sublist⟩
  rw [importNames, List.filter_map, List.forall₂_map_left_iff]
  exact List.forall₂_same.2 fun p _ => deletes_trim p

theorem comma_not_mem_of_mem_importNames {list name : Text} (h : name ∈ importNames list) :
    ',' ∉ name := by
  obtain ⟨piece, hp, rfl⟩ := List.mem_map.1 (List.mem_of_mem_filter h)
  exact deletes_trim.not_mem (not_mem_of_mem_splitOn hp)

/-- Joining the names of an import list deletes. -/
theorem joinWith_importNames_sublist (list : Text) :
    (joinWith [','] (importNames list)).Sublist list := by
  have h := joinWith_sublist [','] (importNames_sublistForall₂ list)
  rwa [joinWith_splitOn] at h

theorem joinWith_filter_sublist (names : List Text) (p : Text → Bool) :
    (joinWith [','] (names.filter p)).Sublist (joinWith [','] names) :=
  joinWith_sublist [','] (sublistForall₂_of_sublist List.filter_sublist)

/-- A list from which a name is dropped does not read as before. -/
theorem joinWith_filter_ne {list : Text} {p : Text → Bool}
    (hdrop : ∃ name ∈ importNames list, p name = false)
    (hkept : (importNames list).filter p ≠ []) :
    joinWith [','] ((importNames list).filter p) ≠ list := by
  intro h
  obtain ⟨name, hname, hp⟩ := hdrop
  have hall : joinWith [','] (importNames list) = list := by
    have hsub := joinWith_filter_sublist (importNames list) p
    rw [h] at hsub
    exact (joinWith_importNames_sublist list).antisymm hsub
  have hcomma : ∀ name ∈ importNames list, ',' ∉ name := fun _ =>
    comma_not_mem_of_mem_importNames
  have hsplit : (importNames list).filter p = importNames list := by
    rw [← splitOn_joinWith hkept fun n hn => hcomma n (List.mem_of_mem_filter hn), h, ← hall,
      splitOn_joinWith (List.ne_nil_of_mem hname) hcomma, hall]
  have hkeep := List.filter_eq_self.1 hsplit name hname
  simp [hp] at hkeep

/-! ### One edit -/

variable {d : Directive} {s : Sighting} {r : Replacement}

/-- The parts of an import from which a package is dropped. -/
theorem dropPackage?_eq_some {package : Text} (h : dropPackage? package s = some r) :
    ∃ options rest list,
      importOptions? (argumentSpace s.after).2 = some (options, rest) ∧
      Argument.read? rest = some list ∧
      (∃ name ∈ importNames list.inner, sameName package name = true) ∧
      r = ⟨(argumentSpace s.after).1 ++ options ++ list.source,
        if ((importNames list.inner).filter fun name => !sameName package name) = [] then []
        else s.source ++ options ++ '{' ::
          joinWith [','] ((importNames list.inner).filter fun name => !sameName package name) ++
            ['}'],
        list.after⟩ := by
  simp only [dropPackage?, Option.bind_eq_bind, Option.bind_eq_some_iff] at h
  obtain ⟨⟨options, rest⟩, ho, list, hl, h⟩ := h
  split at h
  · next hany =>
      obtain ⟨name, hn, hs⟩ := List.any_eq_true.1 hany
      exact ⟨options, rest, list, ho, hl, ⟨name, hn, hs⟩, (Option.some.inj h).symm⟩
  · simp at h

/-- **What is written in place of a command is part of the command and its arguments.** -/
theorem inserted_sublist (h : d.replacement? s = some r) :
    r.inserted.Sublist (s.source ++ r.arguments) := by
  rw [replacement?] at h
  split at h
  · next package _ =>
      obtain ⟨options, rest, list, _, _, _, rfl⟩ := dropPackage?_eq_some h
      simp only
      split
      · exact List.nil_sublist _
      · have hnames := (joinWith_filter_sublist (importNames list.inner)
          fun name => !sameName package name).trans (joinWith_importNames_sublist list.inner)
        simp only [Argument.source, List.append_assoc, List.cons_append]
        refine (List.Sublist.refl _).append ?_
        refine List.Sublist.trans ?_ (List.sublist_append_right _ _)
        refine (List.Sublist.refl _).append ?_
        refine List.Sublist.trans ?_ (List.sublist_append_right _ _)
        exact (hnames.append (List.Sublist.refl _)).cons_cons '{'
  · obtain rfl := Option.some.inj h
    exact List.nil_sublist _

/-- **Something goes in every edit.** -/
theorem inserted_ne (h : d.replacement? s = some r) : r.inserted ≠ s.source ++ r.arguments := by
  have hsource : s.source ≠ [] := by simp [Sighting.source]
  rw [replacement?] at h
  split at h
  · next package _ =>
      obtain ⟨options, rest, list, _, _, ⟨name, hname, hsame⟩, rfl⟩ := dropPackage?_eq_some h
      simp only
      split
      · simp [hsource]
      · next hkept =>
          have hne := joinWith_filter_ne ⟨name, hname, by simp [hsame]⟩ hkept
          have hsub := (joinWith_filter_sublist (importNames list.inner)
            fun name => !sameName package name).trans (joinWith_importNames_sublist list.inner)
          intro heq
          have hlen := congrArg List.length heq
          simp only [Argument.source, List.length_append, List.length_cons, List.length_nil]
            at hlen
          exact hne (hsub.eq_of_length_le (by omega))
  · obtain rfl := Option.some.inj h
    simp [hsource]

/-- What an edit leaves of its span. -/
theorem inserted_sublist_span_cut (blank : Bool) (h : d.replacement? s = some r) :
    r.inserted.Sublist (cut blank s r).span := by
  rw [cut]
  split
  · next hnil =>
      rw [hnil]
      exact List.nil_sublist _
  · exact inserted_sublist h

theorem length_inserted_lt (blank : Bool) (h : d.replacement? s = some r) :
    r.inserted.length < (cut blank s r).span.length := by
  have hlt : r.inserted.length < (s.source ++ r.arguments).length :=
    Nat.lt_of_le_of_ne (inserted_sublist h).length_le fun he =>
      inserted_ne h ((inserted_sublist h).eq_of_length he)
  rw [cut]
  split
  · exact Nat.lt_of_lt_of_le hlt (Cut.length_span_le_wholeLines blank
      ⟨s.before, s.source ++ r.arguments, r.after⟩)
  · exact hlt

/-! ### All edits -/

/-- **A directive deletes.** -/
theorem result_revise_sublist (d : Directive) (escaped blank : Bool) (t : Text) :
    (d.revise escaped blank t).result.Sublist t := by
  fun_induction revise d escaped blank t with
  | case1 => exact List.Sublist.refl _
  | case2 escaped blank t s hs _ _ read ih =>
      rw [Revision.result_behind]
      conv => rhs; rw [← Sighting.text_find? hs]
      exact (List.Sublist.refl _).append ih
  | case3 escaped blank t s hs _ r hr c _ read ih =>
      have htext : c.before ++ c.span ++ c.after = t :=
        (text_cut blank hr).trans (Sighting.text_find? hs)
      rw [Revision.result_cons]
      conv => rhs; rw [← htext]
      exact ((List.Sublist.refl _).append (inserted_sublist_span_cut blank hr)).append ih

theorem deletes_revise (d : Directive) : Deletes fun t => (d.revise false true t).result :=
  d.result_revise_sublist false true

theorem replacement?_within (d : Directive) (s : Sighting) (a : Text) :
    d.replacement? (s.within a []) = d.replacement? s := by
  simp [replacement?, dropPackage?]

/-- **A directive leaves a text alone exactly when it edits none of its commands.** -/
theorem result_revise_eq_self_iff (d : Directive) (hname : '\\' ∉ d.name)
    (escaped blank : Bool) (t : Text) :
    (d.revise escaped blank t).result = t ↔
      ∀ s : Sighting, s.name = d.name → s.IsIn escaped t → d.replacement? s = none := by
  fun_induction revise d escaped blank t with
  | case1 escaped blank t h =>
      refine iff_of_true rfl fun s hn hs => ?_
      exact absurd hs (Sighting.find?_eq_none_iff.1 h s (by simp [hn]))
  | case2 escaped blank t s h _ hr read ih =>
      obtain ⟨hsn, hs⟩ := Sighting.isIn_find? h
      have hsn : s.name = d.name := by simpa using hsn
      have ht : read ++ s.after = t := hs.text_eq
      rw [Revision.result_behind]
      conv => lhs; rhs; rw [← ht]
      rw [List.append_cancel_left_eq, ih]
      constructor
      · intro hrest s' hn' hs'
        rcases Nat.lt_or_ge s.before.length s'.before.length with hlt | hge
        · have hlen : read.length ≤ s'.before.length :=
            hs.length_source_le hs' (hsn ▸ hname) hlt
          obtain ⟨s'', rfl, hs''⟩ := (ht ▸ hs').exists_within hlen
          rw [replacement?_within]
          exact hrest s'' hn' hs''
        · have hle := Sighting.length_before_find?_le h (by simp [hn']) hs'
          obtain rfl := hs.eq_of_length_before_eq hs' (hsn.trans hn'.symm) (by omega)
          exact hr
      · intro hall s' hn' hs'
        have hin : (s'.within read []).IsIn escaped t := by
          rw [← ht]
          exact hs'.within
        rw [← replacement?_within d s' read]
        exact hall _ hn' hin
  | case3 escaped blank t s h _ r hr c _ read ih =>
      obtain ⟨hsn, hs⟩ := Sighting.isIn_find? h
      have hsn : s.name = d.name := by simpa using hsn
      have htext : c.before ++ c.span ++ c.after = t :=
        (text_cut blank hr).trans (Sighting.text_find? h)
      constructor
      · intro heq
        have hrest := (d.result_revise_sublist (escapedAfter escaped read)
          (blankLineAfter blank read) c.after).length_le
        have hlt := length_inserted_lt blank hr
        have hlen := congrArg List.length (heq.trans htext.symm)
        simp only [Revision.result_cons, List.length_append] at hlen
        have hc : c = cut blank s r := rfl
        rw [← hc] at hlt
        omega
      · intro hall
        rw [hall s hsn hs] at hr
        simp at hr

/-- What a directive leaves in front of its first command. -/
theorem result_revise_cases (d : Directive) (escaped blank : Bool) (t : Text) :
    (Sighting.find? [d.name] escaped t = none ∧ (d.revise escaped blank t).result = t) ∨
      ∃ s z, Sighting.find? [d.name] escaped t = some s ∧
        ((d.revise escaped blank t).result = s.before ++ z ∨
          (d.revise escaped blank t).result = (lastLine s.before).1 ++ z) := by
  rw [revise.eq_def]
  split
  · next h => exact Or.inl ⟨h, rfl⟩
  · next s h =>
      refine Or.inr ?_
      split
      · exact ⟨s, _, h, Or.inl (by rw [Revision.result_behind, List.append_assoc])⟩
      · next r hr =>
          simp only [Revision.result_cons, List.append_assoc]
          rw [cut]
          split
          · rcases Cut.before_wholeLines blank ⟨s.before, s.source ++ r.arguments, r.after⟩ with hb | hb
            · exact ⟨s, _, h, Or.inl (by rw [hb])⟩
            · exact ⟨s, _, h, Or.inr (by rw [hb])⟩
          · exact ⟨s, _, h, Or.inl rfl⟩

/-- Behind a command that is left alone, a directive goes on with what follows. -/
theorem result_revise_skip {escaped : Bool} {t : Text}
    (hs : Sighting.find? [d.name] escaped t = some s) (hr : d.replacement? s = none) (blank : Bool) :
    (d.revise escaped blank t).result = s.before ++ s.source ++
      (d.revise (escapedAfter escaped (s.before ++ s.source))
        (blankLineAfter blank (s.before ++ s.source)) s.after).result := by
  rw [revise.eq_def]
  split
  · next h => simp [hs] at h
  · next s' h =>
      obtain rfl : s = s' := Option.some.inj (hs.symm.trans h)
      split
      · exact Revision.result_behind _ _
      · next r h => simp [hr] at h

end Directive

/-! ### Tables -/

theorem deletes_removeDirectives (table : List Directive) : Deletes (removeDirectives table) := by
  induction table with
  | nil => exact fun t => List.Sublist.refl t
  | cons d table ih => exact ih.comp d.deletes_revise

/-- **A table leaves a text alone exactly when each of its rows does.** -/
theorem removeDirectives_eq_self_iff (table : List Directive) (t : Text) :
    removeDirectives table t = t ↔ ∀ d ∈ table, (d.revise false true t).result = t := by
  induction table with
  | nil => exact iff_of_true rfl (by simp)
  | cons d table ih =>
      rw [List.forall_mem_cons, ← ih]
      exact (deletes_removeDirectives table).comp_eq_self_iff d.deletes_revise t

end CribSheet.Payload
