/-
Following a title through the removal of a directive.

A directive takes its command out of a text, with arguments and with the blanks around it, or a package
out of a list.  No command starts inside of a title, so a title stands before the command, behind its
arguments, or in one of its arguments.  In the last case it is lost together with the command, or it is
followed through the list.

Main definitions:

* `CribSheet.Payload.Tractable` — the directives that titles can be followed through.

Main results:

* `CribSheet.Payload.gentle_revise` — the removal of a directive is a gentle step;
* `CribSheet.Payload.gentle_removeDirectives` — so is that of a table of directives.
-/
import CribSheet.Proofs.Markup.Sighting
import CribSheet.Proofs.Payload.Argument
import CribSheet.Proofs.Payload.Directive
import CribSheet.Proofs.Payload.Import

set_option relaxedAutoImplicit false
set_option autoImplicit false

namespace CribSheet.Payload

open CribSheet.Text CribSheet.Markup CribSheet.Identity

/-- The directive names a command that counts and is no title, and drops only packages whose name holds
nothing that lasts. -/
structure Tractable (d : Directive) : Prop where
  /-- The name consists of letters. -/
  letters : ∀ c ∈ d.name, isLetter c = true
  /-- Its first letter counts. -/
  head : ∃ c name, d.name = c :: name ∧ isHead c = true
  /-- It is not the name of the title. -/
  notTitle : ∀ t, after? d.name (titleName ++ '{' :: t) = none
  /-- The package can be dropped. -/
  droppable : ∀ package, d.removal = .package package → Droppable package

variable {d : Directive}

theorem Tractable.slash_not_mem (hd : Tractable d) : '\\' ∉ d.name := fun h =>
  absurd (hd.letters _ h) (by decide)

theorem Tractable.escapedAfter_source (hd : Tractable d) {s : Sighting} (hname : s.name = d.name) :
    escapedAfter false s.source = false := by
  obtain ⟨first, name, hfirst, -⟩ := hd.head
  exact Sighting.escapedAfter_source (hname.trans hfirst) (hname ▸ hd.slash_not_mem)

/-- No escape is open behind the command. -/
theorem Tractable.escapedAfter_read (hd : Tractable d) {s : Sighting} (hname : s.name = d.name)
    (h : escapedAfter false s.before = false) : escapedAfter false (s.before ++ s.source) = false := by
  rw [escapedAfter_append, h, hd.escapedAfter_source hname]

/-! ### Where the command stands -/

/-- The title, as a command in its text. -/
theorem Mark.isIn_text {m : Mark} (hm : m.Fits false) :
    (Sighting.mk m.before titleName false ('{' :: m.argument ++ '}' :: m.after)).IsIn false m.text := by
  refine ⟨?_, hm.fresh, fun _ => endsName_brace _⟩
  simp [Sighting.text, Sighting.source, Mark.text, plainTitle]

/-- **A command stands before the title or behind it.** -/
theorem Mark.before_or_behind {m : Mark} (hm : m.Fits false) (hd : Tractable d) {s : Sighting}
    (hname : s.name = d.name) (hs : s.IsIn false m.text) :
    (∃ p, m.before = s.before ++ s.source ++ p ∧ s.after = p ++ (plainTitle m.argument ++ m.after)) ∨
      ∃ z, s.before = m.before ++ plainTitle m.argument ++ z ∧ m.after = z ++ s.source ++ s.after := by
  have htext : s.before ++ (s.source ++ s.after) = m.before ++ plainTitle m.argument ++ m.after := by
    rw [← List.append_assoc]
    exact hs.text_eq
  have hhead : ∀ c ∈ (s.source ++ s.after).head?, c ∉ (plainTitle m.argument).tail := by
    intro c hc
    obtain rfl : '\\' = c := by simpa [Sighting.source] using hc
    simp [plainTitle, titleName, hm.plain.slash_not_mem]
  rcases cut_plainTitle hhead htext with ⟨z, hz⟩ | ⟨_ | ⟨e, w⟩, hw, hrest⟩
  · refine Or.inr ⟨z, hz, ?_⟩
    rw [hz, List.append_assoc _ z] at htext
    rw [List.append_assoc]
    exact (List.append_cancel_left htext).symm
  · -- At one place there is one name.
    have hname' : d.name ++ ((if s.starred then ['*'] else []) ++ s.after) =
        titleName ++ '{' :: (m.argument ++ '}' :: m.after) := by
      simpa [Sighting.source, plainTitle, hname] using hrest
    have hnone := hd.notTitle (m.argument ++ '}' :: m.after)
    rw [← hname', after?_append] at hnone
    simp at hnone
  · have hle := hs.length_source_le (m.isIn_text hm) (hname ▸ hd.slash_not_mem) (by simp [hw])
    rw [List.append_assoc] at htext
    obtain ⟨p, hp⟩ : s.before ++ s.source <+: m.before :=
      List.prefix_of_prefix_length_le ⟨s.after, by rw [List.append_assoc]; exact htext⟩
        (List.prefix_append _ _) hle
    refine Or.inl ⟨p, hp.symm, ?_⟩
    rw [← hp, List.append_assoc, List.append_assoc] at htext
    exact List.append_cancel_left (List.append_cancel_left htext)

/-! ### One edit -/

theorem escapedAfter_options {t options rest : Text}
    (h : Directive.importOptions? t = some (options, rest)) : escapedAfter false options = false := by
  rw [Directive.importOptions?] at h
  split at h
  · obtain ⟨g, hg, he⟩ := Option.map_eq_some_iff.1 h
    obtain ⟨rfl, rfl⟩ := Prod.mk.inj he
    exact escapedAfter_source_of_read? hg
  · obtain ⟨rfl, rfl⟩ := Prod.mk.inj (Option.some.inj h)
    rfl

/-- No escape is open behind the arguments that are read. -/
theorem escapedAfter_arguments {s : Sighting} {r : Replacement} (h : d.replacement? s = some r) :
    escapedAfter false r.arguments = false := by
  rw [Directive.replacement?] at h
  split at h
  · obtain ⟨options, rest, list, ho, hl, -, rfl⟩ := Directive.dropPackage?_eq_some h
    rw [escapedAfter_append, escapedAfter_append,
      escapedAfter_blank (isBlankText_argumentSpace s.after), escapedAfter_options ho,
      escapedAfter_source_of_argument hl]
  · obtain rfl := Option.some.inj h
    exact escapedAfter_groups s.after

/-- What an edit takes: the command with its arguments, and blanks on both sides. -/
structure Excised (s : Sighting) (r : Replacement) (c : Cut) (a b : Text) : Prop where
  /-- The blanks before. -/
  blank_before : isBlankText a = true
  /-- The blanks behind. -/
  blank_after : isBlankText b = true
  /-- What stands before the edit. -/
  before_eq : s.before = c.before ++ a
  /-- What the edit takes. -/
  span_eq : c.span = a ++ (s.source ++ r.arguments) ++ b
  /-- What stands behind the edit. -/
  after_eq : r.after = b ++ c.after
  /-- No escape is open in front of the edit. -/
  fresh : escapedAfter false c.before = false
  /-- An edit that puts something in takes no blanks. -/
  exact_of_inserted : r.inserted ≠ [] → a = [] ∧ b = []

theorem exists_excised {s : Sighting} (hs : escapedAfter false s.before = false) (r : Replacement)
    (blank : Bool) : ∃ a b, Excised s r (Directive.cut blank s r) a b := by
  by_cases hnil : r.inserted = []
  · obtain ⟨a, b, ha, hb, hbefore, hspan, hafter⟩ :=
      Cut.exists_wholeLines blank ⟨s.before, s.source ++ r.arguments, r.after⟩
    have hcut : Directive.cut blank s r =
        Cut.wholeLines blank ⟨s.before, s.source ++ r.arguments, r.after⟩ := by
      rw [Directive.cut, if_pos hnil]
    rw [hcut]
    exact ⟨a, b, ha, hb, hbefore, hspan, hafter, escapedAfter_before_wholeLines hs blank,
      fun h => absurd hnil h⟩
  · have hcut : Directive.cut blank s r = ⟨s.before, s.source ++ r.arguments, r.after⟩ := by
      rw [Directive.cut, if_neg hnil]
    rw [hcut]
    exact ⟨[], [], rfl, rfl, by simp, by simp, by simp, hs, fun _ => ⟨rfl, rfl⟩⟩

namespace Excised

variable {s : Sighting} {r : Replacement} {c : Cut} {a b : Text}

/-- The command and its arguments, as what is counted of the edit. -/
theorem heads_span (he : Excised s r c a b) (hd : Tractable d) (hname : s.name = d.name) :
    heads false c.span = 1 + heads false r.arguments := by
  obtain ⟨first, name, hfirst, hhead⟩ := hd.head
  have hslash : '\\' ∉ s.name := hname ▸ hd.slash_not_mem
  have hsource := Sighting.heads_source (hname.trans hfirst) hslash
  rw [he.span_eq, heads_append_blank he.blank_after, heads_blank_append he.blank_before, heads_append,
    hsource, Sighting.escapedAfter_source (hname.trans hfirst) hslash, if_pos hhead]

/-- No escape is open behind an edit. -/
theorem escapedAfter_span (he : Excised s r c a b) (hd : Tractable d) (hname : s.name = d.name)
    (hr : d.replacement? s = some r) : escapedAfter false c.span = false := by
  rw [he.span_eq, escapedAfter_append, escapedAfter_append, escapedAfter_append,
    escapedAfter_blank he.blank_before, hd.escapedAfter_source hname, escapedAfter_arguments hr,
    escapedAfter_blank he.blank_after]

end Excised

/-- What is put in for a command: the import without the package. -/
theorem exists_rewriting {s : Sighting} {r : Replacement} (h : d.replacement? s = some r)
    (hne : r.inserted ≠ []) :
    ∃ package options rest list, d.removal = .package package ∧
      Directive.importOptions? (argumentSpace s.after).2 = some (options, rest) ∧
      Argument.read? rest = some list ∧
      r = ⟨(argumentSpace s.after).1 ++ options ++ list.source,
        s.source ++ options ++ '{' :: keptList package list.inner ++ ['}'], list.after⟩ := by
  rw [Directive.replacement?] at h
  split at h
  · next package hremoval =>
      obtain ⟨options, rest, list, ho, hl, -, rfl⟩ := Directive.dropPackage?_eq_some h
      rw [filter_importNames] at hne ⊢
      refine ⟨package, options, rest, list, hremoval, ho, hl, ?_⟩
      split
      · next hnil => simp [hnil] at hne
      · rfl
  · obtain rfl := Option.some.inj h
    exact absurd rfl hne

/-- No escape is open behind what is put in. -/
theorem escapedAfter_inserted {s : Sighting} {r : Replacement} (h : d.replacement? s = some r) :
    escapedAfter false r.inserted = false := by
  by_cases hnil : r.inserted = []
  · rw [hnil]
    rfl
  · obtain ⟨package, options, rest, list, -, -, -, rfl⟩ := exists_rewriting h hnil
    rw [escapedAfter_append, escapedAfter_cons_of_ne (by decide)]
    rfl

/-- What is put in for a list of packages. -/
theorem sheds_list {package : Text} (hp : Droppable package) {list : Argument} {t : Text}
    (hl : Argument.read? t = some list) :
    Sheds (heads false list.source) list.source
      (heads false ('{' :: keptList package list.inner ++ ['}']))
      ('{' :: keptList package list.inner ++ ['}']) := by
  have hspace := isBlankText_space_of_read? hl
  have hgroup : ∀ x, heads false ('{' :: x ++ ['}']) = heads false x := fun x => by
    rw [List.cons_append, heads_cons_of_ne (by decide) (by decide), heads_append,
      heads_cons_of_ne (by decide) (by decide), heads_nil, Nat.add_zero]
  have hsource : list.source = list.space ++ ('{' :: list.inner ++ ['}']) := by
    simp [Argument.source]
  refine Sheds.of_lasting ?_ fun q hq => ?_
  · rw [hsource, heads_blank_append hspace, hgroup, hgroup]
    exact heads_keptList_le package list.inner
  · rw [hsource]
    simp only [List.countP_append, List.countP_cons, hq.countP_keptList hp, hq.visible.countP_blank hspace]
    omega

/-- **One edit sheds.** -/
theorem Excised.sheds {s : Sighting} {r : Replacement} {c : Cut} {a b : Text}
    (he : Excised s r c a b) (hd : Tractable d) (hname : s.name = d.name)
    (hr : d.replacement? s = some r) :
    Sheds (heads false c.span) c.span (heads false r.inserted) r.inserted := by
  by_cases hnil : r.inserted = []
  · have hspan := he.heads_span hd hname
    rw [hnil]
    exact Sheds.of_heads_lt (by rw [heads_nil]; omega) (List.nil_sublist _)
  · obtain ⟨rfl, rfl⟩ := he.exact_of_inserted hnil
    obtain ⟨first, name, hfirst, -⟩ := hd.head
    have hslash : '\\' ∉ s.name := hname ▸ hd.slash_not_mem
    have hstate := Sighting.escapedAfter_source (hname.trans hfirst) hslash
    obtain ⟨package, options, rest, list, hremoval, ho, hl, rfl⟩ := exists_rewriting hr hnil
    have hspace : isBlankText (argumentSpace s.after).1 = true := isBlankText_argumentSpace s.after
    have hstate' : escapedAfter false (s.source ++ (argumentSpace s.after).1) = false := by
      rw [escapedAfter_append, hstate, escapedAfter_blank hspace]
    have hoptions := escapedAfter_options ho
    have hsum := ((Sheds.refl _ s.source).concat_blank hspace |>.concat_refl hstate' hstate options).concat
      (sheds_list (hd.droppable package hremoval) hl)
      (by rw [escapedAfter_append, hstate', hoptions])
      (by rw [escapedAfter_append, hstate, hoptions])
    have hspan : c.span = s.source ++ (argumentSpace s.after).1 ++ options ++ list.source := by
      rw [he.span_eq]
      simp
    have hinserted : s.source ++ options ++ '{' :: keptList package list.inner ++ ['}'] =
        s.source ++ options ++ ('{' :: keptList package list.inner ++ ['}']) := by simp
    rw [← hspan, ← hinserted] at hsum
    exact hsum

/-! ### One edit and a title -/

namespace Excised

variable {s : Sighting} {r : Replacement} {c : Cut} {a b rest : Text} {m : Mark}

/-- A title in front of the command stays. -/
theorem tracked_before (he : Excised s r c a b) (hd : Tractable d) (hname : s.name = d.name)
    (hr : d.replacement? s = some r) (hm : m.Fits false) {z : Text}
    (hz : s.before = m.before ++ plainTitle m.argument ++ z)
    (hafter : m.after = z ++ s.source ++ s.after)
    (hrest : Sheds (heads false c.after) c.after (heads false rest) rest) :
    Tracked false m (c.before ++ r.inserted ++ rest) := by
  obtain ⟨z', hbefore, rfl⟩ := cut_plainTitle_blank he.blank_before (he.before_eq.symm.trans hz)
  have hstate : escapedAfter false z' = false := by
    have hfresh := he.fresh
    rwa [hbefore, escapedAfter_append, hm.escapedAfter_title] at hfresh
  have hsplit : m.after = z' ++ (c.span ++ c.after) := by
    rw [hafter, ← Directive.text_replacement? hr, he.after_eq, he.span_eq]
    simp
  have hsheds := (Sheds.refl (heads false z') z').concat
    ((he.sheds hd hname hr).concat hrest (he.escapedAfter_span hd hname hr)
      (escapedAfter_inserted hr)) hstate hstate
  rw [← hsplit] at hsheds
  have htracked := Tracked.of_after hm hsheds
  rw [hbefore]
  simpa using htracked

/-- A title behind the arguments is followed behind the edit. -/
theorem tracked_behind (he : Excised s r c a b) (hd : Tractable d) (hname : s.name = d.name)
    (hr : d.replacement? s = some r) (hm : m.Fits false) {p : Text}
    (hbefore : m.before = s.before ++ s.source ++ (r.arguments ++ p))
    (hafter : r.after = p ++ (plainTitle m.argument ++ m.after))
    (hrest : ∀ m' : Mark, m'.Fits false → m'.text = c.after → Tracked false m' rest) :
    Tracked false m (c.before ++ r.inserted ++ rest) := by
  have hbehind : b ++ c.after = p ++ plainTitle m.argument ++ m.after := by
    rw [← he.after_eq, hafter, List.append_assoc]
  obtain ⟨p', rfl, hp'⟩ := cut_plainTitle_plain (slash_not_mem_of_isBlankText he.blank_after) hbehind
  have hsplit : m.before = (c.before ++ c.span) ++ p' := by
    rw [hbefore, he.before_eq, he.span_eq]
    simp
  have hspan := he.escapedAfter_span hd hname hr
  have hstate : escapedAfter false (c.before ++ c.span) = false := by
    rw [escapedAfter_append, he.fresh, hspan]
  have hstate' : escapedAfter false (c.before ++ r.inserted) = false := by
    rw [escapedAfter_append, he.fresh, escapedAfter_inserted hr]
  have hfresh : escapedAfter false p' = false := by
    have hfresh := hm.fresh
    rwa [hsplit, escapedAfter_append, hstate] at hfresh
  have hfits : (Mark.mk p' m.argument m.after).Fits false := ⟨hm.plain, hm.line, hfresh⟩
  have htext : (Mark.mk p' m.argument m.after).text = c.after := by
    rw [hp']
    simp [Mark.text, plainTitle]
  have hsheds := (Sheds.refl (heads false c.before) c.before).concat (he.sheds hd hname hr)
    he.fresh he.fresh
  have htracked := (hrest _ hfits htext).around _ _ [] [] hstate hstate' (fun _ => rfl)
    (fun _ => rfl) hsheds (Sheds.refl _ _)
  have hmark : (Mark.mk p' m.argument m.after).around (c.before ++ c.span) [] = m := by
    rw [Mark.around, List.append_nil, ← hsplit]
  rw [hmark, List.append_nil] at htracked
  exact htracked

/-- A title in the arguments goes together with the command, when nothing is put in. -/
theorem lost (he : Excised s r c a b) (hd : Tractable d) (hname : s.name = d.name)
    (hr : d.replacement? s = some r) (hnil : r.inserted = []) {p x : Text}
    (hx : x ≠ []) (htext : m.text = s.text) (hp : escapedAfter false p = false)
    (harguments : r.arguments = p ++ x) (htitle : x ++ r.after = plainTitle m.argument ++ m.after)
    (hrest : Sheds (heads false c.after) c.after (heads false rest) rest) :
    Tracked false m (c.before ++ r.inserted ++ rest) := by
  -- The backslash and the first letter of the title stand in the arguments, since no escape is open
  -- behind them.
  have hstate := escapedAfter_arguments hr
  rw [harguments, escapedAfter_append, hp] at hstate
  have hone : 1 ≤ heads false x := by
    match x, hx, hstate, htitle with
    | [d], _, hstate, htitle =>
        obtain rfl : d = '\\' := by simpa [plainTitle] using congrArg List.head? htitle
        exact absurd hstate (by decide)
    | d :: e :: x, _, _, htitle =>
        obtain ⟨rfl, htail⟩ := List.cons.inj htitle
        obtain rfl : e = 't' := by simpa [titleName] using congrArg List.head? htail
        simp [heads_cons, escapes, isHead]
  have hspan := he.heads_span hd hname
  rw [harguments, heads_append, hp] at hspan
  have hsplit : m.text = c.before ++ c.span ++ c.after := by
    rw [htext, Sighting.text, he.before_eq, ← Directive.text_replacement? hr, he.after_eq, he.span_eq]
    simp
  have hheads := hrest.heads_le
  refine Or.inr (Or.inl ?_)
  rw [hsplit, hnil, List.append_nil, heads_append, heads_append, heads_append, escapedAfter_append,
    he.fresh, he.escapedAfter_span hd hname hr]
  omega

end Excised

/-- A title and the options of an import. -/
theorem importOptions?_title {a y q options rest : Text} (hy : Plain y)
    (hfresh : escapedAfter false a = false)
    (h : Directive.importOptions? (a ++ (plainTitle y ++ q)) = some (options, rest)) :
    (∃ p, a = options ++ p ∧ rest = p ++ (plainTitle y ++ q)) ∨
      ∃ z, options = a ++ plainTitle y ++ z ∧ q = z ++ rest := by
  rw [Directive.importOptions?] at h
  split at h
  · next hhead =>
      obtain ⟨g, hg, he⟩ := Option.map_eq_some_iff.1 h
      obtain ⟨rfl, rfl⟩ := Prod.mk.inj he
      have ha : a ≠ [] := by
        rintro rfl
        simp [plainTitle] at hhead
      rcases read?_title hy ha hfresh hg with ⟨p, hp, hafter⟩ | ⟨c, i₁, i₂, d, hc, hd, hinner, hsource, -⟩
      · exact Or.inl ⟨p, hp, hafter⟩
      · refine Or.inr ⟨i₂ ++ [d], ?_, by rw [hd]; simp⟩
        rw [hsource, hinner, hc]
        simp
  · obtain ⟨rfl, rfl⟩ := Prod.mk.inj (Option.some.inj h)
    exact Or.inl ⟨a, rfl, rfl⟩

/-- Behind a closing brace a text reads the same, whatever stands before it. -/
theorem heads_closing (t : Text) (escaped : Bool) : heads escaped ('}' :: t) = heads false ('}' :: t) :=
  heads_eq_of_head? (by simp [isHead]) escaped

/-- So does it behind the space before a list. -/
theorem heads_list {list : Argument} {t after : Text} (hl : Argument.read? t = some list) (escaped : Bool) :
    heads escaped (list.source ++ after) = heads false (list.source ++ after) := by
  have hspace := isBlankText_space_of_read? hl
  refine heads_eq_of_head? (fun d hd => ?_) escaped
  cases hspaced : list.space with
  | nil =>
      obtain rfl : '{' = d := by simpa [Argument.source, hspaced] using hd
      decide
  | cons e space =>
      obtain rfl : e = d := by simpa [Argument.source, hspaced] using hd
      exact ne_of_isBlank (List.all_eq_true.1 hspace _ (by simp [hspaced]))

/-- **Where a title stands in the arguments of an import** that do not end before it: among the packages, or in the
options. -/
theorem title_in_arguments {t p y q options rest : Text} {list : Argument} (hy : Plain y)
    (hp : escapedAfter false p = false) (ht : t = p ++ (plainTitle y ++ q))
    (ho : Directive.importOptions? (argumentSpace t).2 = some (options, rest))
    (hl : Argument.read? rest = some list)
    (hlong : p.length < ((argumentSpace t).1 ++ options ++ list.source).length) :
    (∃ i₁ i₂, p = (argumentSpace t).1 ++ options ++ list.space ++ '{' :: i₁ ∧
        list.inner = i₁ ++ plainTitle y ++ i₂ ∧ q = i₂ ++ '}' :: list.after ∧ escapedAfter false i₁ = false) ∨
      ∃ p₁ z, p = (argumentSpace t).1 ++ p₁ ∧ options = p₁ ++ plainTitle y ++ z ∧ q = z ++ rest ∧
        escapedAfter false p₁ = false := by
  have hspace := isBlankText_argumentSpace t
  -- The space before the options is blank, so the title stands behind it.
  have hsplit : (argumentSpace t).1 ++ (argumentSpace t).2 =
      p ++ plainTitle y ++ q := by
    rw [argumentSpace_append, ht, List.append_assoc]
  generalize argumentSpace t = lead at *
  obtain ⟨p₁, rfl, hrest₁⟩ := cut_plainTitle_plain (slash_not_mem_of_isBlankText hspace) hsplit
  rw [escapedAfter_append, escapedAfter_blank hspace] at hp
  rw [hrest₁, List.append_assoc] at ho
  have hoptions := escapedAfter_options ho
  rcases importOptions?_title hy hp ho with ⟨p₂, rfl, rfl⟩ | ⟨z, hz, hz'⟩
  · rw [escapedAfter_append, hoptions] at hp
    rcases argument_read?_title hy hp hl with ⟨p₃, rfl, -⟩ | ⟨i₁, i₂, rfl, hinner, hi₂, hi⟩
    · -- The arguments would end before the title.
      simp only [List.length_append] at hlong
      omega
    · exact Or.inl ⟨i₁, i₂, by simp, hinner, hi₂, hi⟩
  · exact Or.inr ⟨p₁, z, rfl, hz, hz', hp⟩

section Rewriting

variable {package front space options after rest t : Text} {list : Argument} {m : Mark}

/-- **A title among the packages** is followed through the list, when the space before the arguments goes. -/
theorem tracked_in_list (hp : Droppable package) (hfront : escapedAfter false front = false)
    (hspace : isBlankText space = true) (hoptions : escapedAfter false options = false)
    (hl : Argument.read? t = some list) (hm : m.Fits false) (htext : m.text = list.inner)
    (hrest : Sheds (heads false after) after (heads false rest) rest) :
    Tracked false (m.around (front ++ space ++ options ++ list.space ++ ['{']) ('}' :: after))
      (front ++ options ++ ['{'] ++ keptList package list.inner ++ '}' :: rest) := by
  have hlspace := isBlankText_space_of_read? hl
  have hlead : escapedAfter false (front ++ space) = false := by
    rw [escapedAfter_append, hfront, escapedAfter_blank hspace]
  have hbefore : escapedAfter false (front ++ space ++ options ++ list.space) = false := by
    rw [escapedAfter_append, escapedAfter_append, hlead, hoptions, escapedAfter_blank hlspace]
  have hbefore' : escapedAfter false (front ++ options) = false := by
    rw [escapedAfter_append, hfront, hoptions]
  have hsheds : Sheds (heads false (front ++ space ++ options ++ list.space)) (front ++ space ++ options ++ list.space)
      (heads false (front ++ options)) (front ++ options) :=
    (Sheds.refl _ front).concat_blank hspace |>.concat_refl hlead hfront options |>.concat_blank hlspace
  have hinside : Tracked false m (keptList package list.inner) := by
    rw [← htext]
    exact Or.inl (tracked_keptList hp m hm)
  exact hinside.around _ _ _ _ (by rw [escapedAfter_append, hbefore]; rfl)
    (by rw [escapedAfter_append, hbefore']; rfl) (heads_closing after) (heads_closing rest)
    (hsheds.concat_refl hbefore hbefore' ['{']) ((Sheds.refl _ ['}']).concat hrest rfl rfl)

/-- **A title in the options** stays, and the list of packages stands behind it. -/
theorem tracked_in_options (hp : Droppable package) (hfront : escapedAfter false front = false)
    (hspace : isBlankText space = true) (hl : Argument.read? t = some list) (hm : m.Fits false)
    (htext : m.text = options) (hrest : Sheds (heads false after) after (heads false rest) rest) :
    Tracked false (m.around (front ++ space) (list.source ++ after))
      (front ++ options ++ ('{' :: keptList package list.inner ++ ['}'] ++ rest)) := by
  have hinside : Tracked false m options := Or.inl ⟨m, htext, hm, Sheds.refl _ _⟩
  have hlead : escapedAfter false (front ++ space) = false := by
    rw [escapedAfter_append, hfront, escapedAfter_blank hspace]
  have hgroup : escapedAfter false ('{' :: keptList package list.inner ++ ['}']) = false := by
    rw [escapedAfter_append]
    rfl
  exact hinside.around _ _ _ _ hlead hfront (heads_list hl)
    (fun escaped => heads_eq_of_head? (by simp [isHead]) escaped) ((Sheds.refl _ front).concat_blank hspace)
    ((sheds_list hp hl).concat hrest (escapedAfter_source_of_argument hl) hgroup)

end Rewriting

namespace Excised

variable {s : Sighting} {r : Replacement} {c : Cut} {a b rest : Text} {m : Mark}

/-- A title in the arguments is followed through the import list or stays in the options. -/
theorem tracked_rewriting (he : Excised s r c a b) (hd : Tractable d) (hname : s.name = d.name)
    (hr : d.replacement? s = some r) (hne : r.inserted ≠ []) (hm : m.Fits false) {p x : Text}
    (hx : x ≠ []) (hbefore : m.before = s.before ++ s.source ++ p)
    (hafter : s.after = p ++ (plainTitle m.argument ++ m.after))
    (harguments : r.arguments = p ++ x)
    (hrest : Sheds (heads false c.after) c.after (heads false rest) rest) :
    Tracked false m (c.before ++ r.inserted ++ rest) := by
  obtain ⟨rfl, rfl⟩ := he.exact_of_inserted hne
  have hcbefore : s.before = c.before := by simpa using he.before_eq
  have hcafter : r.after = c.after := by simpa using he.after_eq
  have hstate := hd.escapedAfter_read hname (hcbefore ▸ he.fresh)
  have hfresh : escapedAfter false p = false := by
    have hfresh := hm.fresh
    rwa [hbefore, escapedAfter_append, hstate] at hfresh
  obtain ⟨package, options, rest', list, hremoval, ho, hl, hreq⟩ := exists_rewriting hr hne
  have hdrop := hd.droppable package hremoval
  have hspace : isBlankText (argumentSpace s.after).1 = true := isBlankText_argumentSpace s.after
  have hlong : p.length < ((argumentSpace s.after).1 ++ options ++ list.source).length := by
    have hlength : ((argumentSpace s.after).1 ++ options ++ list.source).length = (p ++ x).length :=
      congrArg List.length ((congrArg Replacement.arguments hreq).symm.trans harguments)
    have hpos := List.length_pos_of_ne_nil hx
    rw [hlength, List.length_append]
    omega
  have hlist : list.after = c.after := by rw [← hcafter, hreq]
  have hinserted : r.inserted = s.source ++ options ++ '{' :: keptList package list.inner ++ ['}'] := by
    rw [hreq]
  rw [hinserted, ← hcbefore]
  rcases title_in_arguments hm.plain hfresh hafter ho hl hlong with
    ⟨i₁, i₂, hi₁, hinner, hi₂, hi⟩ | ⟨p₁, z, hp₁, hz, hz', hfresh₁⟩
  · have htracked := tracked_in_list (m := ⟨i₁, m.argument, i₂⟩) hdrop hstate hspace
      (escapedAfter_options ho) hl ⟨hm.plain, hm.line, hi⟩ hinner.symm hrest
    have hmark : (Mark.mk i₁ m.argument i₂).around (s.before ++ s.source ++ (argumentSpace s.after).1 ++
        options ++ list.space ++ ['{']) ('}' :: c.after) = m := by
      have hb : m.before = s.before ++ s.source ++ (argumentSpace s.after).1 ++
          options ++ list.space ++ ['{'] ++ i₁ := by
        rw [hbefore, hi₁]
        simp
      have ha : m.after = i₂ ++ '}' :: c.after := by rw [hi₂, hlist]
      rw [Mark.around, ← hb, ← ha]
    rw [hmark] at htracked
    simpa using htracked
  · -- The title stands in the options, and the list is behind it.
    have htracked := tracked_in_options (m := ⟨p₁, m.argument, z⟩) hdrop hstate hspace hl
      ⟨hm.plain, hm.line, hfresh₁⟩ hz.symm hrest
    have hmark : (Mark.mk p₁ m.argument z).around
        (s.before ++ s.source ++ (argumentSpace s.after).1) (list.source ++ c.after) = m := by
      have hb : m.before = s.before ++ s.source ++ (argumentSpace s.after).1 ++ p₁ := by
        rw [hbefore, hp₁]
        simp
      have ha : m.after = z ++ (list.source ++ c.after) := by
        rw [hz', ← Argument.text_read? hl, Argument.text, hlist]
      rw [Mark.around, ← hb, ← ha]
    rw [hmark] at htracked
    simpa using htracked

end Excised

/-! ### All edits -/

/-- **A title can be followed through one edit**, when it can be followed behind the edit. -/
theorem Excised.tracked {s : Sighting} {r : Replacement} {c : Cut} {a b rest : Text} {m : Mark}
    (he : Excised s r c a b) (hd : Tractable d) (hname : s.name = d.name)
    (hr : d.replacement? s = some r) (hm : m.Fits false) (hs : s.IsIn false m.text)
    (hsheds : Sheds (heads false c.after) c.after (heads false rest) rest)
    (hrest : ∀ m' : Mark, m'.Fits false → m'.text = c.after → Tracked false m' rest) :
    Tracked false m (c.before ++ r.inserted ++ rest) := by
  rcases m.before_or_behind hm hd hname hs with ⟨p, hbefore, hafter⟩ | ⟨z, hbefore, hafter⟩
  · rcases List.append_eq_append_iff.1 ((Directive.text_replacement? hr).trans hafter) with
      ⟨p', rfl, hp'⟩ | ⟨x, hx, hx'⟩
    · exact he.tracked_behind hd hname hr hm hbefore hp' hrest
    · by_cases hnil : x = []
      · subst hnil
        rw [List.append_nil] at hx
        refine he.tracked_behind hd hname hr hm (p := []) ?_ (by simpa using hx'.symm) hrest
        rw [List.append_nil, hx, hbefore]
      · by_cases hinserted : r.inserted = []
        · have hfresh : escapedAfter false p = false := by
            have hfresh := hm.fresh
            rwa [hbefore, escapedAfter_append, hd.escapedAfter_read hname hs.fresh] at hfresh
          exact he.lost hd hname hr hinserted hnil hs.text_eq.symm hfresh hx hx'.symm hsheds
        · exact he.tracked_rewriting hd hname hr hinserted hm hnil hbefore hafter hx hsheds
  · exact he.tracked_before hd hname hr hm hbefore hafter hsheds

/-- **A directive sheds.** -/
theorem sheds_revise (hd : Tractable d) {escaped : Bool} (hescaped : escaped = false) (blank : Bool)
    (t : Text) :
    Sheds (heads false t) t (heads false (d.revise escaped blank t).result)
      (d.revise escaped blank t).result := by
  fun_induction Directive.revise d escaped blank t with
  | case1 => exact Sheds.refl _ _
  | case2 escaped blank t s h _ hr read ih =>
      subst hescaped
      obtain ⟨hname, hs⟩ := Sighting.isIn_find? h
      have hstate := hd.escapedAfter_read (by simpa using hname) hs.fresh
      have ht : read ++ s.after = t := hs.text_eq
      rw [Revision.result_behind, ← ht]
      exact (Sheds.refl _ read).concat (ih hstate) hstate hstate
  | case3 escaped blank t s h _ r hr c _ read ih =>
      subst hescaped
      obtain ⟨hname, hs⟩ := Sighting.isIn_find? h
      have hname : s.name = d.name := by simpa using hname
      obtain ⟨a, b, he⟩ := exists_excised hs.fresh r blank
      have hspan := he.escapedAfter_span hd hname hr
      have hstate : escapedAfter false read = false := by
        rw [escapedAfter_append, he.fresh, hspan]
      have htext : c.before ++ c.span ++ c.after = t :=
        (Directive.text_cut blank hr).trans (Sighting.text_find? h)
      have hedit := (Sheds.refl _ c.before).concat (he.sheds hd hname hr) he.fresh he.fresh
      rw [Revision.result_cons, ← htext]
      refine hedit.concat (ih hstate) hstate ?_
      rw [escapedAfter_append, he.fresh, escapedAfter_inserted hr]

/-- **A title can be followed through a directive.** -/
theorem tracked_revise (hd : Tractable d) {escaped : Bool} (hescaped : escaped = false)
    (blank : Bool) (t : Text) :
    ∀ m : Mark, m.Fits false → m.text = t → Tracked false m (d.revise escaped blank t).result := by
  fun_induction Directive.revise d escaped blank t with
  | case1 => exact fun m hm ht => Or.inl ⟨m, ht, hm, Sheds.refl _ _⟩
  | case2 escaped blank t s h _ hr read ih =>
      subst hescaped
      intro m hm ht
      subst ht
      obtain ⟨hname, hs⟩ := Sighting.isIn_find? h
      have hname : s.name = d.name := by simpa using hname
      have hstate := hd.escapedAfter_read hname hs.fresh
      have hfresh := hm.fresh
      rw [Revision.result_behind]
      rcases m.before_or_behind hm hd hname hs with ⟨p, hbefore, hafter⟩ | ⟨z, hbefore, hafter⟩
      · rw [hbefore, escapedAfter_append, hstate] at hfresh
        have htitle := ih hstate ⟨p, m.argument, m.after⟩ ⟨hm.plain, hm.line, hfresh⟩ (by
          rw [hafter, Mark.text, List.append_assoc])
        have htracked := htitle.around _ _ [] [] hstate hstate (fun _ => rfl)
          (fun _ => rfl) (Sheds.refl _ read) (Sheds.refl _ _)
        have hmark : (Mark.mk p m.argument m.after).around read [] = m := by
          rw [Mark.around, List.append_nil, ← hbefore]
        rwa [hmark, List.append_nil] at htracked
      · have hread : read = m.before ++ plainTitle m.argument ++ (z ++ s.source) := by
          rw [← List.append_assoc, ← hbefore]
        have hz : escapedAfter false (z ++ s.source) = false := by
          have hstate' : escapedAfter false read = false := hstate
          rwa [hread, escapedAfter_append, hm.escapedAfter_title] at hstate'
        generalize hresult : (d.revise (escapedAfter false read) (blankLineAfter blank read)
          s.after).result = rest
        have hsheds := (Sheds.refl _ (z ++ s.source)).concat (sheds_revise hd hstate
          (blankLineAfter blank read) s.after) hz hz
        rw [← hafter, hresult] at hsheds
        rw [hread, List.append_assoc]
        exact Tracked.of_after hm hsheds
  | case3 escaped blank t s h _ r hr c _ read ih =>
      subst hescaped
      intro m hm ht
      subst ht
      obtain ⟨hname, hs⟩ := Sighting.isIn_find? h
      have hname : s.name = d.name := by simpa using hname
      obtain ⟨a, b, he⟩ := exists_excised hs.fresh r blank
      have hstate : escapedAfter false read = false := by
        rw [escapedAfter_append, he.fresh, he.escapedAfter_span hd hname hr]
      rw [Revision.result_cons]
      exact he.tracked hd hname hr hm hs (sheds_revise hd hstate _ _) (ih hstate)

/-- **The removal of a directive is a gentle step.** -/
theorem gentle_revise (hd : Tractable d) : Gentle fun t => (d.revise false true t).result :=
  ⟨sheds_revise hd rfl true, fun m hm => tracked_revise hd rfl true m.text m hm rfl⟩

/-- **The removal of a table of directives is a gentle step.** -/
theorem gentle_removeDirectives {table : List Directive} (h : ∀ d ∈ table, Tractable d) :
    Gentle (removeDirectives table) := by
  induction table with
  | nil => exact Gentle.id
  | cons d table ih =>
      obtain ⟨hd, htable⟩ := List.forall_mem_cons.1 h
      exact (ih htable).comp (gentle_revise hd)

/-! ### The built-in table -/

/-- A letter that is one of some small letters, up to its case, is one of them or a capital. -/
theorem mem_of_toLower_mem {c : Char} (h : c.toLower ∈ "titlesec".toList) :
    c ∈ ['t', 'i', 'l', 'e', 's', 'c', 'T', 'I', 'L', 'E', 'S', 'C'] := by
  by_cases hc : c.toNat < 91
  · exact forall_of_codes (P := fun c => c.toLower ∈ "titlesec".toList →
      c ∈ ['t', 'i', 'l', 'e', 's', 'c', 'T', 'I', 'L', 'E', 'S', 'C']) (by decide) hc h
  · have hlower : c.toLower = c := by
      refine dif_neg fun hupper => hc ?_
      have hle : c.toNat ≤ 'Z'.toNat := hupper.2
      exact Nat.lt_succ_of_le hle
    rw [hlower] at h
    exact List.mem_append_left ['T', 'I', 'L', 'E', 'S', 'C']
      ((by decide : ∀ c ∈ "titlesec".toList, c ∈ ['t', 'i', 'l', 'e', 's', 'c']) c h)

/-- What counts as the package of headings has its letters only. -/
theorem droppable_titlesec : Droppable "titlesec".toList := by
  intro name h c hc
  have hlower : Text.lower "titlesec".toList = Text.lower name := by simpa [Directive.sameName] using h
  have hmem : c.toLower ∈ Text.lower "titlesec".toList := hlower ▸ List.mem_map_of_mem hc
  have hsmall : Text.lower "titlesec".toList = "titlesec".toList := by decide
  exact mem_of_toLower_mem (hsmall ▸ hmem)

theorem tractable_forbidden : ∀ d ∈ Directive.forbidden, Tractable d := by
  intro d hd
  simp only [Directive.forbidden, List.mem_cons, List.not_mem_nil, or_false] at hd
  rcases hd with rfl | rfl | rfl | rfl
  · exact ⟨by decide, ⟨_, _, rfl, by decide⟩, fun _ => rfl, fun _ h => by cases h; exact droppable_titlesec⟩
  · exact ⟨by decide, ⟨_, _, rfl, by decide⟩, fun _ => rfl, fun _ h => by cases h; exact droppable_titlesec⟩
  · exact ⟨by decide, ⟨_, _, rfl, by decide⟩, fun _ => rfl, fun _ h => by cases h⟩
  · exact ⟨by decide, ⟨_, _, rfl, by decide⟩, fun _ => rfl, fun _ h => by cases h⟩

end CribSheet.Payload
