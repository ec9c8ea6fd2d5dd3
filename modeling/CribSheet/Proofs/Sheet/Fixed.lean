/-
The sheets that the full chain leaves alone.

A sheet that the chain leaves alone goes through sanitizing, loses what is noise, and is given it back.
But the stages behind sanitizing give back no command that counts except the one title, and no noise; so
sanitizing has taken none, and then the characters around the title say what the other stages have
done: nothing.  A third letter of the command that prints the title, a capital of the attribution and
the variable of a differential would show up otherwise.

Main results:

* `CribSheet.Payload.eq_mark_of_heads` — a title that is followed is the first one;
* `CribSheet.settled_of_finish_eq` — a sheet that the chain leaves alone is settled.
-/
import CribSheet.Proofs.Payload.GentlePass
import CribSheet.Proofs.Sheet.Placing
import CribSheet.Proofs.Sheet.Settled
import CribSheet.Proofs.Sheet.Writing

set_option relaxedAutoImplicit false
set_option autoImplicit false

namespace CribSheet

open CribSheet.Text CribSheet.Markup CribSheet.Identity CribSheet.PipelineOptions CribSheet.Payload

/-! ### The title that is followed -/

namespace Payload

/-- A title that stands in a text, as a mark. -/
theorem exists_mark {y t : Text} (hy : Tight y) (h : Stands y false t) :
    ∃ m : Mark, m.argument = y ∧ m.text = t ∧ m.Fits false := by
  obtain ⟨a, b, rfl, ha⟩ := h
  exact ⟨⟨a, y, b⟩, rfl, rfl, hy.plain, hy.newline_not_mem, ha⟩

theorem Mark.Fits.titleFinder_ne_none {m : Mark} (hm : m.Fits false) : titleFinder false m.text ≠ none := by
  intro h
  exact Sighting.find?_eq_none_iff.1 (titleFinder_eq_none_iff.1 h) _ (by simp) (m.isIn_text hm)

theorem Mark.countP_text (m : Mark) (q : Char → Bool) :
    m.text.countP q = m.outside.countP q + (plainTitle m.argument).countP q := by
  simp only [text, outside, List.countP_append]
  omega

/-- A title that stands behind what is read is met there, in the state that the reading leaves. -/
theorem Mark.Fits.titleFinder_behind_ne_none {m : Mark} (hm : m.Fits false) {x read after : Text}
    (hloose : Loose (escapedAfter false read) after) (hfresh : escapedAfter false (read ++ x) = false)
    (hafter : after = x ++ (plainTitle m.argument ++ m.after)) : titleFinder false after ≠ none := by
  have hsame := (hloose.before (x := x) (z := titleName ++ '{' :: m.argument ++ '}' :: m.after)
    (by rw [hafter]; simp [plainTitle])).1
  rw [← escapedAfter_append, hfresh] at hsame
  have hfits : (Mark.mk x m.argument m.after).Fits false := ⟨hm.plain, hm.line, hsame.symm⟩
  have hne := hfits.titleFinder_ne_none
  rwa [Mark.text, List.append_assoc, ← hafter] at hne

/-- What counts in a title that stands behind the command of the first one. -/
theorem heads_span_of_behind {m : Mark} {s : Sighting} {p : Text} (hm : m.Fits false)
    (hname : s.name = titleName) (hin : s.IsIn false m.text)
    (hbefore : m.before = s.before ++ s.source ++ p) :
    2 ≤ heads false (s.source ++ (titleArguments s.after).1) ∨
      titleFinder false (titleArguments s.after).2 ≠ none := by
  have hslash : '\\' ∉ s.name := by rw [hname]; decide
  have hstate := Sighting.escapedAfter_source hname hslash
  have hheads := Sighting.heads_source hname hslash
  have hp : escapedAfter false p = false := by
    have hfresh := hm.fresh
    rwa [hbefore, escapedAfter_append, escapedAfter_append, hin.fresh, hstate] at hfresh
  have hafter : (titleArguments s.after).1 ++ (titleArguments s.after).2 =
      p ++ (plainTitle m.argument ++ m.after) := by
    rw [titleArguments_append]
    have htext := hin.text_eq
    rw [Mark.text, hbefore, Sighting.text] at htext
    simpa using htext
  have hloose : Loose (escapedAfter false (titleArguments s.after).1) (titleArguments s.after).2 :=
    loose_arguments (titleArguments_end s.after)
  rw [heads_append, hstate, hheads]
  generalize titleArguments s.after = read at hafter hloose ⊢
  obtain ⟨arguments, after⟩ := read
  simp only at hafter hloose ⊢
  rcases List.append_eq_append_iff.1 hafter with ⟨x, rfl, hx⟩ | ⟨x, hx, htitle⟩
  · exact Or.inr (hm.titleFinder_behind_ne_none hloose hp hx)
  · rcases x with _ | ⟨d, _ | ⟨e, x⟩⟩
    · have hsame : arguments = p := by simpa using hx
      exact Or.inr (hm.titleFinder_behind_ne_none (x := []) hloose (by simpa [hsame] using hp)
        (by simpa using htitle.symm))
    · -- The backslash of the title would be the last character of the arguments.
      obtain ⟨rfl, htail⟩ := List.cons.inj htitle
      have hopen : escapedAfter false arguments = true := by
        rw [hx, escapedAfter_append, hp]
        rfl
      have hhead : some 't' = after.head? := congrArg List.head? htail
      exact absurd (hloose hopen 't' hhead.symm) (by decide)
    · obtain ⟨rfl, htail⟩ := List.cons.inj htitle
      obtain ⟨rfl, -⟩ := List.cons.inj htail
      refine Or.inl ?_
      rw [hx, heads_append, hp]
      have hone : 1 ≤ heads false ('\\' :: 't' :: x) := by
        simp [heads_cons, escapes, isHead]
      have hhead : (if isHead 't' = true then 1 else 0) = 1 := rfl
      omega

/-- **A title that is followed is the first one**, when it is the only one and counts alone. -/
theorem eq_mark_of_heads {m : Mark} {c : Cut} (hm : m.Fits false)
    (hc : titleFinder false m.text = some c) (hspan : heads false c.span ≤ 1)
    (hlater : titleFinder false c.after = none) :
    c = ⟨m.before, plainTitle m.argument, m.after⟩ := by
  obtain ⟨s, hs, rfl⟩ := titleFinder_eq_some hc
  obtain ⟨hname, hin⟩ := Sighting.isIn_find? hs
  have hname : s.name = titleName := by simpa using hname
  have htitle := m.isIn_text hm
  have hle := Sighting.length_before_find?_le hs (by simp) htitle
  rcases Nat.eq_or_lt_of_le hle with heq | hlt
  · obtain rfl := hin.eq_of_length_before_eq htitle hname heq
    simp only [titleArguments_plain hm.plain]
    simp [Sighting.source, plainTitle]
  · have hnoslash : '\\' ∉ s.name := by rw [hname]; decide
    have hlength := hin.length_source_le htitle hnoslash hlt
    obtain ⟨p, hp⟩ : s.before ++ s.source <+: m.before := by
      have hbefore : m.before <+: m.text := ⟨plainTitle m.argument ++ m.after, by simp [Mark.text]⟩
      exact List.prefix_of_prefix_length_le ⟨s.after, hin.text_eq⟩ hbefore hlength
    rcases heads_span_of_behind hm hname hin hp.symm with htwo | hne
    · simp only at hspan
      omega
    · exact absurd hlater hne

end Payload

/-! ### Fixed sheets -/

variable {topic t : Text}

/-- The characters that the stages behind sanitizing do not write come from the text and the title. -/
theorem countP_write_enforceTitle_le (topic t : Text) {q : Char → Bool} (hq : Visible q)
    (hfooter : ({} : Identity).footer.countP q = 0)
    (hdifferential : (differential ({} : MathOptions).variableName).countP q = 0)
    (hmarks : ∀ c ∈ settingMarks, q c = false) :
    (({} : PipelineOptions).write (({} : Identity).enforceTitle topic t)).countP q ≤
      ((placeTitle (({} : Identity).titleDirective topic) t).filled
        (({} : Identity).titlePayload topic)).countP q := by
  rw [countP_write hq, hfooter, hdifferential, Nat.mul_zero, Nat.mul_zero]
  exact countP_enforceTitle_le _ topic t hmarks

/-- In any case, they are those of the text and the title at most. -/
theorem countP_placeTitle_le (hy : Plain (({} : Identity).titlePayload topic)) {q : Char → Bool}
    (hmarks : ∀ c ∈ settingMarks, q c = false) :
    ((placeTitle (({} : Identity).titleDirective topic) t).filled
        (({} : Identity).titlePayload topic)).countP q ≤
      t.countP q + (plainTitle (({} : Identity).titlePayload topic)).countP q := by
  cases h : titleFinder false t with
  | none => exact Nat.le_of_eq (countP_placeTitle_none hmarks h)
  | some c =>
      have hfound := countP_placeTitle_found hy h q
      have htext : c.before ++ c.span ++ c.after = t := titleFinder_splits h
      have hcount := congrArg (List.countP q) htext
      simp only [List.countP_append] at hfound hcount
      rw [titleDirective_eq]
      omega

theorem visible_isNoiseMark : Visible isNoiseMark := by
  intro c hc
  simp only [isNoiseMark, Bool.or_eq_true, beq_iff_eq] at hc
  rcases hc with (rfl | rfl) | rfl <;> decide

/-- No carriage return comes into a sheet. -/
theorem return_not_mem_written (htopic : Tight topic) (hreturn : '\r' ∉ t) :
    '\r' ∉ ({} : PipelineOptions).write (({} : Identity).enforceTitle topic t) := by
  have hy := tight_titlePayload htopic
  have hzero : ∀ u : Text, '\r' ∉ u ↔ u.countP (· == '\r') = 0 := fun _ => List.count_eq_zero.symm
  have htitled := countP_enforceTitle_le ({} : Identity) topic t (q := (· == '\r')) (by decide)
  have hplaced := countP_placeTitle_le (t := t) hy.plain (q := (· == '\r')) (by decide)
  rw [(hzero t).1 hreturn, (hzero _).1 hy.return_not_mem_title] at hplaced
  refine return_not_mem_write ?_
  rw [hzero]
  omega

/-- Byte-order marks come into a sheet in its title only. -/
theorem mark_not_mem_outside {m : Mark} (htopic : Tight topic)
    (hargument : m.argument = ({} : Identity).titlePayload topic) (hmark : '\ufeff' ∉ t)
    (h : ({} : PipelineOptions).write (({} : Identity).enforceTitle topic t) = m.text) :
    '\ufeff' ∉ m.outside := by
  have hzero : ∀ u : Text, '\ufeff' ∉ u ↔ u.countP (· == '\ufeff') = 0 :=
    fun _ => List.count_eq_zero.symm
  have hwritten := countP_write_enforceTitle_le topic t (q := (· == '\ufeff'))
    (by simp [Visible]; decide) (by decide) (by decide) (by decide)
  have hplaced := countP_placeTitle_le (t := t) (tight_titlePayload htopic).plain
    (q := (· == '\ufeff')) (by decide)
  rw [h, m.countP_text, hargument] at hwritten
  rw [(hzero t).1 hmark] at hplaced
  rw [hzero]
  omega

/-- The title of a fixed sheet, and what sanitizing makes of it: the sheet has the commands of the text with the
title in its place, and not more noise. -/
theorem exists_tracked (htopic : Tight topic)
    (h : ({} : PipelineOptions).write (({} : Identity).enforceTitle topic (Payload.sanitize t)) = t) :
    ∃ m : Mark, m.argument = ({} : Identity).titlePayload topic ∧ m.text = t ∧
      Tracked false m (Payload.sanitize t) ∧
      heads false m.text = heads false ((placeTitle (plainTitle (({} : Identity).titlePayload topic))
        (Payload.sanitize t)).filled (({} : Identity).titlePayload topic)) ∧
      m.outside.countP isNoiseMark + (plainTitle (({} : Identity).titlePayload topic)).countP isNoiseMark ≤
        ((placeTitle (plainTitle (({} : Identity).titlePayload topic)) (Payload.sanitize t)).filled
          (({} : Identity).titlePayload topic)).countP isNoiseMark := by
  have hy := tight_titlePayload htopic
  have hmarks := mark_not_mem_sanitize t
  have hreturns := return_not_mem_sanitize t
  generalize hv : Payload.sanitize t = v at h hmarks hreturns ⊢
  obtain ⟨m, hargument, htext, hm⟩ := exists_mark hy (h ▸ stands_write hy (stands_enforceTitle _ hy v))
  have hmark := mark_not_mem_outside htopic hargument hmarks (h.trans htext.symm)
  have hreturn : '\r' ∉ m.text := by
    rw [htext, ← h]
    exact return_not_mem_written htopic hreturns
  have htracked := tracked_sanitize hm hmark hreturn
  rw [htext, hv] at htracked
  refine ⟨m, hargument, htext, htracked, ?_, ?_⟩
  · rw [← titleDirective_eq, ← heads_enforceTitle _ hy.plain, htext]
    exact (congrArg (heads false) h).symm.trans (heads_write _)
  · have hnoise := countP_write_enforceTitle_le topic v visible_isNoiseMark
      (by decide) (by decide) (by decide)
    rwa [h, ← htext, m.countP_text, hargument] at hnoise

/-- **The title of a fixed sheet** is followed through sanitizing to the only title that is left. -/
theorem exists_followed (htopic : Tight topic)
    (h : ({} : PipelineOptions).write (({} : Identity).enforceTitle topic (Payload.sanitize t)) = t) :
    ∃ m m' : Mark, m.argument = ({} : Identity).titlePayload topic ∧ m.text = t ∧
      m'.text = Payload.sanitize t ∧ m'.Fits false ∧
      Sheds (heads false m.text) m.outside (heads false m'.text) m'.outside ∧
      heads false m'.text = heads false m.text ∧
      titleFinder false (Payload.sanitize t) = some ⟨m'.before, plainTitle m'.argument, m'.after⟩ ∧
      titleFinder false m'.after = none := by
  have hy := tight_titlePayload htopic
  obtain ⟨m, hargument, htext, htracked, hheads, hnoise⟩ := exists_tracked htopic h
  generalize Payload.sanitize t = v at *
  cases hfound : titleFinder false v with
  | none =>
      -- The directive is the only new command, so not even the title is lost.
      exfalso
      have hplaced := heads_placeTitle_none hy.plain hfound
      have hcount := countP_placeTitle_none (y := ({} : Identity).titlePayload topic)
        (q := isNoiseMark) (by decide) hfound
      rcases htracked with ⟨m', rfl, hm', -⟩ | hlost | ⟨hlost, hlost'⟩
      · exact hm'.titleFinder_ne_none hfound
      · omega
      · omega
  | some c =>
      have hplaced := heads_placeTitle_found hy.plain hfound
      obtain ⟨command, arguments, hspan, -, -, hstate, hcommand, -⟩ := exists_titleSpan hfound
      have hone : 1 ≤ heads false c.span := by
        rw [hspan, heads_append, hcommand]
        omega
      rcases htracked with ⟨m', rfl, hm', hsheds⟩ | hlost | ⟨hlost, -⟩
      · have hle := hsheds.heads_le
        have hlater : titleFinder false c.after = none := by
          by_contra hne
          rw [if_neg hne] at hplaced
          omega
        rw [if_pos hlater] at hplaced
        have hc := eq_mark_of_heads hm' hfound (by omega) hlater
        rw [hc] at hlater
        exact ⟨m, m', hargument, htext, rfl, hm', hsheds, by omega, by rw [← hc], hlater⟩
      · omega
      · omega

theorem lasting_beq {d : Char} (h : isBlank d = false ∧
    d ∉ [',', '\\', 'n', 'r', 't', 'i', 'l', 'e', 's', 'c', 'T', 'I', 'L', 'E', 'S', 'C']) :
    Lasting (· == d) := fun c hc => by
  rwa [eq_of_beq hc]

/-- **Around the title of a fixed sheet nothing is written** that lasts, that is not there already. -/
theorem countP_write_eq {m m' : Mark} (hargument : m.argument = ({} : Identity).titlePayload topic)
    (hplace : placeTitle (({} : Identity).titleDirective topic) t = ⟨m'.before, m'.after⟩)
    (h : ({} : PipelineOptions).write (({} : Identity).enforceTitle topic t) = m.text)
    (hsheds : Sheds (heads false m.text) m.outside (heads false m'.text) m'.outside)
    (hheads : heads false m'.text = heads false m.text) {q : Char → Bool} (hq : Lasting q) :
    m.text.countP q =
      (TitlePlace.filled (({} : Identity).titlePayload topic) ⟨m'.before, m'.after⟩).countP q := by
  have hfilled : ∀ q : Char → Bool,
      (TitlePlace.filled (({} : Identity).titlePayload topic) ⟨m'.before, m'.after⟩).countP q =
        m'.outside.countP q + (plainTitle (({} : Identity).titlePayload topic)).countP q := fun q => by
    simp only [TitlePlace.filled, Mark.outside, List.countP_append]
    omega
  have hnoise := countP_write_enforceTitle_le topic t visible_isNoiseMark
    (by decide) (by decide) (by decide)
  have hle := hsheds.noise_le
  rw [h, hplace, hfilled, m.countP_text, hargument] at hnoise
  rw [m.countP_text, hargument, hfilled, hsheds.lasting hheads (by omega) q hq]

/-- **Where nothing lasting is written, nothing is missing**: the attribution is there, and every integral has
its differential. -/
theorem nothing_missing_of_countP_write {w : Text}
    (hcount : ∀ q, Lasting q → (({} : PipelineOptions).write w).countP q = w.countP q) :
    ({} : Identity).footer <:+: w ∧ ∀ i ∈ (Integral.scan false w).1, hasDifferential i.span = true := by
  -- Each attribution has a letter that no differential has, and each differential one of its own.
  have hfooter : ({} : Identity).missingFooters w = 0 := by
    have hG := hcount (· == 'G') (lasting_beq (by decide))
    rw [countP_write (lasting_beq (by decide)).visible,
      (by decide : ({} : Identity).footer.countP (· == 'G') = 1)] at hG
    omega
  have hheld := missingFooters_eq_zero_iff.1 hfooter
  refine ⟨hheld, bareIntegrals_eq_nil_iff.1 (List.length_eq_zero_iff.1 ?_)⟩
  have hx := hcount (· == 'x') (lasting_beq (by decide))
  rw [countP_write (lasting_beq (by decide)).visible, hfooter, injectFooter_eq_self hheld,
    (by decide : (differential ({} : MathOptions).variableName).countP (· == 'x') = 1)] at hx
  omega

/-- The command that prints the title is there once, where no letter of it is written. -/
theorem existsUnique_maketitle_of_countP_write {y : Text} {p : TitlePlace}
    (hcount : ∀ q, Lasting q →
      (({} : PipelineOptions).write (oneMaketitle (plainTitle y) p)).countP q = (p.filled y).countP q) :
    ∃! s : Sighting, s.name = maketitleName ∧ s.IsIn false (p.filled y) := by
  refine existsUnique_maketitle_of_countP ?_
  have hk := hcount (· == 'k') (lasting_beq (by decide))
  rw [countP_write (lasting_beq (by decide)).visible] at hk
  rw [← hk, (by decide : ({} : Identity).footer.countP (· == 'k') = 0),
    (by decide : (differential ({} : MathOptions).variableName).countP (· == 'k') = 0),
    Nat.mul_zero, Nat.mul_zero]
  rfl

/-- **A fixed sheet is settled**, when sanitizing leaves it a root. -/
theorem settled_of_finish_eq (htopic : Tight topic) (hroot : beginDocument <:+: Payload.sanitize t)
    (h : ({} : PipelineOptions).finish topic (Payload.sanitize t) = t) : ∃ c, Settled topic t c := by
  have hy := tight_titlePayload htopic
  have hwritten : ({} : PipelineOptions).write
      (({} : Identity).enforceTitle topic (Payload.sanitize t)) = t := by
    rwa [finish_eq_write, Skeleton.complete_eq_self _ hroot] at h
  obtain ⟨m, m', hargument, htext, hsanitized, hm', hsheds, hheads, hfound, hlater⟩ :=
    exists_followed htopic hwritten
  have hlater' := titleFinder_eq_none_iff.1 hlater
  have hplace : placeTitle (({} : Identity).titleDirective topic) (Payload.sanitize t) =
      ⟨m'.before, m'.after⟩ := placeTitle_eq hy.plain hfound hlater'
  have hcount : ∀ q, Lasting q → t.countP q =
      (TitlePlace.filled (({} : Identity).titlePayload topic) ⟨m'.before, m'.after⟩).countP q := fun q hq =>
    htext ▸ countP_write_eq hargument hplace (hwritten.trans htext.symm) hsheds hheads hq
  rw [enforceTitle, hplace] at hwritten
  have hmaketitle := existsUnique_maketitle_of_countP_write fun q hq =>
    (congrArg (List.countP q) hwritten).trans (hcount q hq)
  rw [titleDirective_eq, oneMaketitle_eq hmaketitle] at hwritten
  obtain ⟨hfooter, hdifferentials⟩ := nothing_missing_of_countP_write fun q hq =>
    (congrArg (List.countP q) hwritten).trans (hcount q hq)
  rw [write_eq, injectFooter_eq_self hfooter, ensureDifferential_eq_self hdifferentials] at hwritten
  obtain ⟨hbefore, hfresh⟩ := titleFinder_before hfound
  have hunique := (existsUnique_title_iff hy.plain.slash_not_mem hbefore hfresh).2 hlater'
  exact ⟨⟨m'.before, plainTitle m'.argument, m'.after⟩, hfound, hroot, hunique, hmaketitle, hfooter,
    hdifferentials, hwritten⟩

end CribSheet
