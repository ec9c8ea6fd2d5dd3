/-
The integrals of a text and what the repair inserts.

The scan cuts a text into integrals.  Here they are given places: how many characters stand before the
operator, and where the operator and the span end.  The sites of a text do not overlap and stand in the
order of the scan; each operator is a command that nothing escapes, and its span runs to the end of its
formula or line.  No integral command is missed: it is an operator or lies in the span of another one.  The
repair puts a differential behind the last character that is not blank of each bare site, and changes
nothing else.

Main definitions:

* `CribSheet.IntegralSite` — an integral and its place;
* `CribSheet.integralSites` — the sites of a text, in the order of the scan;
* `CribSheet.insertAt` — a text with another one put in at some places.

Main results:

* `CribSheet.IntegralSite.standsIn_of_mem` — what stands at a site;
* `CribSheet.IntegralSite.pairwise_integralSites` — sites do not overlap;
* `CribSheet.IntegralSite.exists_mem_of_isIn` — no command is missed;
* `CribSheet.ensureDifferential_inserts` — what the repair does to a text.
-/
import Mathlib.Data.List.Pairwise
import CribSheet.Proofs.Math.Differential
import CribSheet.Proofs.Math.Writing

set_option relaxedAutoImplicit false
set_option autoImplicit false

namespace CribSheet

open CribSheet.Text CribSheet.Markup

/-! ### Insertions -/

/-- The text with `u` put in at the places, which are places of the given text: the last one comes first. -/
def insertAt (u : Text) (places : List Nat) (t : Text) : Text :=
  places.foldr (fun p t => t.take p ++ u ++ t.drop p) t

@[simp] theorem insertAt_nil (u t : Text) : insertAt u [] t = t := rfl

theorem insertAt_cons (u : Text) (p : Nat) (places : List Nat) (t : Text) :
    insertAt u (p :: places) t = (insertAt u places t).take p ++ u ++ (insertAt u places t).drop p := rfl

/-- Insertions behind a beginning of the text leave it alone. -/
theorem insertAt_append (u a x : Text) (places : List Nat) :
    insertAt u (places.map (a.length + ·)) (a ++ x) = a ++ insertAt u places x := by
  induction places with
  | nil => rfl
  | cons p places ih =>
      rw [List.map_cons, insertAt_cons, insertAt_cons, ih, List.take_length_add_append,
        List.drop_length_add_append]
      simp only [List.append_assoc]

/-! ### Sites -/

/-- An integral in a text, and its place. -/
structure IntegralSite where
  /-- How many characters stand before the operator. -/
  start : Nat
  /-- The operator as it is written. -/
  operator : Text
  /-- What follows the operator, to the end of its formula or line. -/
  span : Text
deriving Repr, DecidableEq

namespace IntegralSite

/-- Where the operator ends and the span starts. -/
def spanStart (s : IntegralSite) : Nat := s.start + s.operator.length

/-- Where the span ends. -/
def stop (s : IntegralSite) : Nat := s.spanStart + s.span.length

/-- The place behind the last character of operator and span that is not blank. -/
def seam (s : IntegralSite) : Nat := s.start + (s.operator ++ s.span).trimEnd.length

/-- The same site in a text with `n` more characters in front. -/
def behind (n : Nat) (s : IntegralSite) : IntegralSite := { s with start := n + s.start }

@[simp] theorem start_behind (n : Nat) (s : IntegralSite) : (s.behind n).start = n + s.start := rfl

@[simp] theorem span_behind (n : Nat) (s : IntegralSite) : (s.behind n).span = s.span := rfl

@[simp] theorem spanStart_behind (n : Nat) (s : IntegralSite) : (s.behind n).spanStart = n + s.spanStart :=
  Nat.add_assoc ..

@[simp] theorem stop_behind (n : Nat) (s : IntegralSite) : (s.behind n).stop = n + s.stop := by
  rw [stop, spanStart_behind, Nat.add_assoc]
  rfl

@[simp] theorem seam_behind (n : Nat) (s : IntegralSite) : (s.behind n).seam = n + s.seam := Nat.add_assoc ..

/-- The site of a command: its span runs to the end of the formula or line. -/
def ofSighting (c : Sighting) : IntegralSite := ⟨c.before.length, c.source, (formulaSpan c.after).1⟩

/-- **The site stands in the text**: its operator is an integral command that nothing escapes. -/
def StandsIn (s : IntegralSite) (escaped : Bool) (t : Text) : Prop :=
  ∃ c : Sighting, c.name ∈ integralNames ∧ c.IsIn escaped t ∧ s = ofSighting c

/-- The command is the operator of the site. -/
def HasOperator (s : IntegralSite) (c : Sighting) : Prop :=
  s.start = c.before.length ∧ s.operator = c.source

/-- The command lies in the span of the site. -/
def Covers (s : IntegralSite) (c : Sighting) : Prop :=
  s.spanStart ≤ c.before.length ∧ (c.before ++ c.source).length ≤ s.stop

/-- A site takes its command along. -/
theorem meets_within {s : IntegralSite} {c : Sighting} (h : s.HasOperator c ∨ s.Covers c) (a : Text) :
    (s.behind a.length).HasOperator (c.within a []) ∨ (s.behind a.length).Covers (c.within a []) := by
  rcases h with ⟨hstart, hoperator⟩ | ⟨hstart, hstop⟩
  · refine .inl ⟨?_, hoperator⟩
    rw [start_behind, Sighting.before_within, List.length_append, hstart]
  · right
    simp only [Covers, spanStart_behind, stop_behind, Sighting.before_within, Sighting.source_within,
      List.length_append] at hstop ⊢
    omega

end IntegralSite

/-- The sites of some integrals that follow each other. -/
def sitesOf : List Integral → List IntegralSite
  | [] => []
  | i :: rest => ⟨i.before.length, i.operator, i.span⟩ :: (sitesOf rest).map (·.behind i.source.length)

/-- **The sites of a text**, in the order of the scan. -/
def integralSites (t : Text) : List IntegralSite := sitesOf (Integral.scan false t).1

/-! ### Spans -/

theorem letters_of_mem_integralNames {name : Text} (h : name ∈ integralNames) :
    ∀ c ∈ name, isLetter c = true := by
  have hall : ∀ name ∈ integralNames, ∀ c ∈ name, isLetter c = true := by decide
  exact hall name h

theorem exists_cons_of_mem_integralNames {name : Text} (h : name ∈ integralNames) :
    ∃ c rest, name = c :: rest := by
  have hall : ∀ name ∈ integralNames, name ≠ [] := by decide
  exact List.exists_cons_of_ne_nil (hall name h)

theorem slash_not_mem_of_mem_integralNames {name : Text} (h : name ∈ integralNames) : '\\' ∉ name := by
  have hall : ∀ name ∈ integralNames, '\\' ∉ name := by decide
  exact hall name h

/-- Characters that end no formula stay in the span. -/
theorem formulaSpan_plain_append {x : Text} (hx : ∀ c ∈ x, c ∉ ['\n', '$', '\\']) (t : Text) :
    formulaSpan (x ++ t) = (x ++ (formulaSpan t).1, (formulaSpan t).2) := by
  induction x with
  | nil => rfl
  | cons c x ih =>
      have hc := hx c (by simp)
      simp only [List.mem_cons, List.not_mem_nil, or_false, not_or] at hc
      have hrest := ih fun d hd => hx d (by simp [hd])
      rw [List.cons_append, formulaSpan.eq_def]
      simp [hc, hrest]

/-- What stands behind the first letter of an operator ends no formula. -/
theorem plain_of_mem_integralNames {c : Sighting} (hname : c.name ∈ integralNames) {d : Char} {name : Text}
    (hcons : c.name = d :: name) : ∀ f ∈ name ++ (if c.starred then ['*'] else []), f ∉ ['\n', '$', '\\'] := by
  intro f hf
  rcases List.mem_append.1 hf with hf | hf
  · have hletter := letters_of_mem_integralNames hname f (by simp [hcons, hf])
    rw [List.mem_cons, List.mem_cons, List.mem_singleton]
    rintro (rfl | rfl | rfl) <;> exact absurd hletter (by decide)
  · split at hf
    · obtain rfl := List.mem_singleton.1 hf
      decide
    · exact absurd hf List.not_mem_nil

/-- **A command that starts in a span ends there**, since no name and no star ends a formula. -/
theorem length_le_formulaSpan {c : Sighting} {t : Text} (hname : c.name ∈ integralNames)
    (hin : c.IsIn false t) (hlt : c.before.length < (formulaSpan t).1.length) :
    (c.before ++ c.source).length ≤ (formulaSpan t).1.length := by
  fun_induction formulaSpan t generalizing c with
  | case1 | case2 | case4 => simp at hlt
  | case3 =>
      -- A backslash at the end of the text starts no command.
      obtain ⟨d, name, hcons⟩ := exists_cons_of_mem_integralNames hname
      have hlen := congrArg List.length hin.text_eq
      simp [Sighting.text, Sighting.source, hcons] at hlen
      omega
  | case5 d t' _ _ ih =>
      rcases hin.eq_nil_or_behind with ⟨hbefore, -⟩ | ⟨c', rfl, hin'⟩
      · -- The command starts here: the rest of its name and its star follow.
        obtain ⟨e, name, hcons⟩ := exists_cons_of_mem_integralNames hname
        have htext := hin.text_eq
        simp only [Sighting.text, Sighting.source, hbefore, hcons, List.nil_append, List.cons_append,
          List.append_assoc, List.cons.injEq, true_and] at htext
        obtain ⟨-, rfl⟩ := htext
        rw [← List.append_assoc, formulaSpan_plain_append (plain_of_mem_integralNames hname hcons)]
        simp only [Sighting.source, hbefore, hcons, List.length_append, List.length_cons, List.nil_append]
        omega
      · rcases hin'.eq_nil_or_behind with ⟨-, hescapes⟩ | ⟨c'', rfl, hin''⟩
        · exact absurd hescapes (by simp [escapes])
        · have hle := @ih c'' hname (by simpa [escapes] using hin'') (by simpa using hlt)
          simpa using hle
  | case6 d t' _ hslash ih =>
      rcases hin.eq_nil_or_behind with ⟨-, hescapes⟩ | ⟨c', rfl, hin'⟩
      · exact absurd hescapes (by simp [escapes, hslash])
      · have hle := @ih c' hname (escapes_of_ne hslash false ▸ hin') (by simpa using hlt)
        simpa using hle

/-! ### The scan -/

namespace IntegralSite

variable {escaped : Bool} {t : Text}

/-- The integral that the scan makes of a command, and what follows it. -/
theorem fresh_of_find? {c : Sighting} (hc : Sighting.find? integralNames escaped t = some c) :
    escapedAfter escaped (c.before ++ c.source) = false := by
  obtain ⟨hname, hin⟩ := Sighting.isIn_find? hc
  obtain ⟨d, rest, hcons⟩ := exists_cons_of_mem_integralNames hname
  rw [escapedAfter_append, hin.fresh,
    Sighting.escapedAfter_source hcons (slash_not_mem_of_mem_integralNames hname)]

/-- **What stands at a site.** -/
theorem standsIn_of_mem {s : IntegralSite} (hs : s ∈ sitesOf (Integral.scan escaped t).1) :
    s.StandsIn escaped t := by
  fun_induction Integral.scan escaped t generalizing s with
  | case1 => simp [sitesOf] at hs
  | case2 escaped t c hc _ integral more rest heq =>
      rename_i ih
      rw [heq] at ih
      rw [sitesOf, List.mem_cons, List.mem_map] at hs
      rcases hs with rfl | ⟨s, hs, rfl⟩
      · obtain ⟨hname, hin⟩ := Sighting.isIn_find? hc
        exact ⟨c, hname, hin, rfl⟩
      · obtain ⟨c', hname, hin, rfl⟩ := ih hs
        have hwhole := hin.within (a := integral.source)
        rw [Integral.text_of_find? hc] at hwhole
        refine ⟨c'.within integral.source [], hname, hwhole, ?_⟩
        simp [ofSighting, behind]

theorem stop_le_length {s : IntegralSite} (hs : s.StandsIn escaped t) : s.stop ≤ t.length := by
  obtain ⟨c, -, hin, rfl⟩ := hs
  have hlen := congrArg List.length hin.text_eq
  have hspan := congrArg List.length (formulaSpan_append c.after)
  simp only [Sighting.text, List.length_append] at hlen hspan
  simp only [stop, spanStart, ofSighting]
  omega

/-- **Sites do not overlap** and stand in order. -/
theorem pairwise_sitesOf (is : List Integral) : (sitesOf is).Pairwise fun s s' => s.stop ≤ s'.start := by
  induction is with
  | nil => exact .nil
  | cons i is ih =>
      rw [sitesOf, List.pairwise_cons, List.pairwise_map]
      constructor
      · intro s hs
        obtain ⟨s, -, rfl⟩ := List.mem_map.1 hs
        simp only [stop, spanStart, Integral.source, start_behind, List.length_append]
        omega
      · refine ih.imp ?_
        intro s s' hle
        rw [stop_behind, start_behind]
        exact Nat.add_le_add_left hle _

theorem pairwise_integralSites (t : Text) :
    (integralSites t).Pairwise fun s s' => s.stop ≤ s'.start := pairwise_sitesOf _

/-- **No command is missed**: it is an operator or lies in a span. -/
theorem exists_mem_of_isIn {c : Sighting} (hname : c.name ∈ integralNames) (hin : c.IsIn escaped t) :
    ∃ s ∈ sitesOf (Integral.scan escaped t).1, s.HasOperator c ∨ s.Covers c := by
  fun_induction Integral.scan escaped t generalizing c with
  | case1 escaped t hnone => exact absurd hin (Sighting.find?_eq_none_iff.1 hnone c hname)
  | case2 escaped t d hd _ integral more rest heq =>
      rename_i ih
      rw [heq] at ih
      obtain ⟨hdname, hdin⟩ := Sighting.isIn_find? hd
      have hle := Sighting.length_before_find?_le hd hname hin
      rw [sitesOf]
      rcases Nat.eq_or_lt_of_le hle with hlen | hlt
      · -- The command that is found.
        have hnames := hdin.name_eq hin (letters_of_mem_integralNames hdname)
          (letters_of_mem_integralNames hname) hlen
        obtain rfl := hdin.eq_of_length_before_eq hin hnames hlen
        exact ⟨_, List.mem_cons_self, .inl ⟨rfl, rfl⟩⟩
      · by_cases hspan : integral.source.length ≤ c.before.length
        · -- A command behind the span of the one that is found.
          rw [← Integral.text_of_find? hd] at hin
          obtain ⟨c', rfl, hin'⟩ := hin.exists_within hspan
          obtain ⟨s, hs, h⟩ := @ih c' hname hin'
          exact ⟨_, List.mem_cons_of_mem _ (List.mem_map_of_mem hs), meets_within h _⟩
        · -- A command in that span.
          have hbehind := hdin.length_source_le hin (slash_not_mem_of_mem_integralNames hdname) hlt
          have htext : d.before ++ d.source ++ d.after = t := hdin.text_eq
          rw [← htext] at hin
          obtain ⟨c', rfl, hin'⟩ := hin.exists_within hbehind
          rw [fresh_of_find? hd] at hin'
          simp only [Integral.source, integral, Sighting.before_within, List.length_append] at hspan
          have hinside := @length_le_formulaSpan c' _ hname hin' (by omega)
          refine ⟨_, List.mem_cons_self, .inr ⟨?_, ?_⟩⟩
          · simp [spanStart, integral]
          · simp only [List.length_append] at hinside
            simp only [stop, spanStart, integral, Sighting.before_within, Sighting.source_within,
              List.length_append]
            omega

/-- A command belongs to one site only. -/
theorem eq_of_meets {s s' : IntegralSite} {c : Sighting} (hs : s ∈ integralSites t) (hs' : s' ∈ integralSites t)
    (h : s.HasOperator c ∨ s.Covers c) (h' : s'.HasOperator c ∨ s'.Covers c) : s = s' := by
  -- The backslash of the command stands in the site.
  have hinside : ∀ {s : IntegralSite}, s.HasOperator c ∨ s.Covers c →
      s.start ≤ c.before.length ∧ c.before.length < s.stop := by
    rintro s (⟨hstart, hoperator⟩ | ⟨hstart, hstop⟩)
    · have hlen := congrArg List.length hoperator
      simp only [Sighting.source, List.length_append, List.length_cons] at hlen
      simp only [stop, spanStart]
      omega
    · simp only [Sighting.source, List.length_append, List.length_cons] at hstop
      simp only [spanStart] at hstart
      omega
  have hapart : (integralSites t).Pairwise fun s s' => s.stop ≤ s'.start ∨ s'.stop ≤ s.start :=
    (pairwise_integralSites t).imp fun hle => .inl hle
  by_contra hne
  have : Std.Symm fun s s' : IntegralSite => s.stop ≤ s'.start ∨ s'.stop ≤ s.start := ⟨fun _ _ => Or.symm⟩
  have hor := hapart.forall hs hs' hne
  have hfirst := hinside h
  have hsecond := hinside h'
  omega

/-! ### Seams -/

/-- An operator ends with a letter or a star. -/
theorem trimEnd_source_append {c : Sighting} (hname : c.name ∈ integralNames) (x : Text) :
    (c.source ++ x).trimEnd = c.source ++ x.trimEnd := by
  have hall : ∀ name ∈ integralNames, ∀ starred : Bool,
      trimEnd ('\\' :: name ++ if starred then ['*'] else []) = '\\' :: name ++ if starred then ['*'] else [] := by
    decide +kernel
  have hsource : c.source.trimEnd = c.source := hall c.name hname c.starred
  rw [trimEnd, trimEnd, dropEndWhile_append]
  split
  · next hnil => rw [hnil, List.append_nil, ← trimEnd, hsource]
  · rfl

theorem StandsIn.seam_eq {s : IntegralSite} (hs : s.StandsIn escaped t) :
    s.seam = s.spanStart + s.span.trimEnd.length := by
  obtain ⟨c, hname, -, rfl⟩ := hs
  rw [seam, ofSighting, trimEnd_source_append hname, List.length_append, ← Nat.add_assoc]
  rfl

/-- **The seam lies behind the operator** and not behind the span. -/
theorem StandsIn.seam_bounds {s : IntegralSite} (hs : s.StandsIn escaped t) :
    s.start < s.spanStart ∧ s.spanStart ≤ s.seam ∧ s.seam ≤ s.stop := by
  have hle := length_dropEndWhile_le isBlank s.span
  rw [hs.seam_eq]
  obtain ⟨c, -, -, rfl⟩ := hs
  simp only [spanStart, stop, trimEnd, ofSighting, Sighting.source, List.length_append, List.length_cons] at hle ⊢
  omega

end IntegralSite

/-- The seams of the sites without a differential. -/
def bareSeams (sites : List IntegralSite) : List Nat :=
  (sites.filter fun s => ¬ HoldsDifferential s.span).map IntegralSite.seam

theorem bareSeams_cons (s : IntegralSite) (sites : List IntegralSite) :
    bareSeams (s :: sites) = (if HoldsDifferential s.span then [] else [s.seam]) ++ bareSeams sites := by
  rw [bareSeams, bareSeams, List.filter_cons]
  split <;> simp_all

theorem bareSeams_behind (n : Nat) (sites : List IntegralSite) :
    bareSeams (sites.map (·.behind n)) = (bareSeams sites).map (n + ·) := by
  induction sites with
  | nil => rfl
  | cons s sites ih =>
      rw [List.map_cons, bareSeams_cons, bareSeams_cons, ih, List.map_append, IntegralSite.span_behind,
        IntegralSite.seam_behind]
      split <;> rfl

/-- **Seams increase** from site to site. -/
theorem pairwise_bareSeams (t : Text) : (bareSeams (integralSites t)).Pairwise (· < ·) := by
  rw [bareSeams, List.pairwise_map]
  refine List.Pairwise.filter _ ((IntegralSite.pairwise_integralSites t).imp_of_mem ?_)
  intro s s' hs hs' hle
  have hbounds := (IntegralSite.standsIn_of_mem hs).seam_bounds
  have hbounds' := (IntegralSite.standsIn_of_mem hs').seam_bounds
  omega

/-! ### The repair -/

/-- Behind a site the differential comes in at its seam. -/
theorem Integral.insertAt_seam {variableName : Text} {i : Integral} {c : Sighting} (hname : c.name ∈ integralNames)
    (hoperator : i.operator = c.source) (x : Text) :
    insertAt (differential variableName)
        (if HoldsDifferential i.span then [] else [(⟨i.before.length, i.operator, i.span⟩ : IntegralSite).seam])
        (i.source ++ x) =
      i.repaired variableName ++ x := by
  rw [repaired]
  by_cases hd : HoldsDifferential i.span
  · rw [if_pos hd, if_pos (hasDifferential_iff.2 hd), insertAt_nil]
  · -- The text up to the seam, and what is left of the span.
    have hsource : i.source ++ x =
        (i.before ++ (i.operator ++ i.span).trimEnd) ++ (i.span.takeEndWhile isBlank ++ x) := by
      conv => lhs; rw [source, ← dropEndWhile_append_takeEndWhile isBlank i.span]
      rw [hoperator, IntegralSite.trimEnd_source_append hname, trimEnd]
      simp only [List.append_assoc]
    rw [if_neg hd, if_neg (mt hasDifferential_iff.1 hd), insertAt_cons, insertAt_nil, IntegralSite.seam, hsource,
      ← List.length_append, List.take_left, List.drop_left, hoperator, IntegralSite.trimEnd_source_append hname]
    simp only [List.append_assoc]

/-- **The repair inserts differentials at the bare seams** of the scan. -/
theorem Integral.insertAt_bareSeams (variableName : Text) (escaped : Bool) (t : Text) :
    insertAt (differential variableName) (bareSeams (sitesOf (scan escaped t).1)) t =
      (scan escaped t).1.flatMap (repaired variableName) ++ (scan escaped t).2 := by
  fun_induction scan escaped t with
  | case1 => rfl
  | case2 escaped t c hc _ integral more rest heq ih =>
      rw [heq] at ih
      have happend : ∀ places places' : List Nat, ∀ u t : Text,
          insertAt u (places ++ places') t = insertAt u places (insertAt u places' t) := by
        intro places places' u t
        exact List.foldr_append
      rw [sitesOf, bareSeams_cons, bareSeams_behind, happend]
      conv => lhs; rw [← text_of_find? hc]
      rw [insertAt_append, ih, List.flatMap_cons, List.append_assoc]
      exact insertAt_seam (Sighting.isIn_find? hc).1 rfl _

/-- **What the repair does to a text**: it inserts differentials and nothing else, one behind the last
character that is not blank of each site without one, from left to right.  The sites are integral commands
with their spans, one behind the other, and every integral command of the text belongs to just one of
them. -/
theorem ensureDifferential_inserts (variableName t : Text) :
    ensureDifferential variableName t =
        insertAt (differential variableName) (bareSeams (integralSites t)) t ∧
      (bareSeams (integralSites t)).Pairwise (· < ·) ∧
      (∀ s ∈ integralSites t,
        s.StandsIn false t ∧ s.spanStart ≤ s.seam ∧ s.seam ≤ s.stop ∧ s.stop ≤ t.length) ∧
      (integralSites t).Pairwise (fun s s' => s.stop ≤ s'.start) ∧
      ∀ c : Sighting, c.name ∈ integralNames → c.IsIn false t →
        ∃! s, s ∈ integralSites t ∧ (s.HasOperator c ∨ s.Covers c) := by
  refine ⟨?_, pairwise_bareSeams t, ?_, IntegralSite.pairwise_integralSites t, ?_⟩
  · exact (Integral.insertAt_bareSeams variableName false t).symm
  · intro s hs
    have hstands := IntegralSite.standsIn_of_mem hs
    obtain ⟨-, hseam, hstop⟩ := hstands.seam_bounds
    exact ⟨hstands, hseam, hstop, IntegralSite.stop_le_length hstands⟩
  · intro c hname hin
    obtain ⟨s, hs, hmeets⟩ := IntegralSite.exists_mem_of_isIn hname hin
    exact ⟨s, ⟨hs, hmeets⟩, fun s' hs' => IntegralSite.eq_of_meets hs'.1 hs hs'.2 hmeets⟩

end CribSheet
