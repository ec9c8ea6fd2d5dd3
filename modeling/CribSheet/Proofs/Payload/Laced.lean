/-
Texts with noise lines laced into them.

A noise line that holds no markup can stand between two lines of a text, also inside the argument of a
command.  A scanner that reads the arguments of a command in the laced text reads the same arguments in
the text without the lacing, or it is stopped where the lacing begins.  So lacing shows no command, and no
line that imports a package, that the text does not show.

Main definitions:

* `CribSheet.Payload.Lacing` — lines of noise without markup;
* `CribSheet.Payload.Laced` — a text and the same text with lacing between its lines and behind it.

Main results:

* `CribSheet.Payload.Laced.exists_isIn` — a command in the laced text stands in the text;
* `CribSheet.Payload.Laced.findsPackage` — **a package that is found in the laced text is found in the
  text**.
-/
import CribSheet.Proofs.Payload.Clean
import CribSheet.Proofs.Payload.GentleDirective
import CribSheet.Proofs.Payload.OtherImport

set_option relaxedAutoImplicit false
set_option autoImplicit false

namespace CribSheet.Payload

open CribSheet.Text CribSheet.Markup

/-! ### Lacing -/

/-- No character stands in the text that the scanners for arguments look for. -/
def Bare (x : Text) : Prop := ∀ c ∈ x, c ∉ ['\\', '{', '}', '[', ']', ',']

theorem bare_break : Bare ['\n'] := by unfold Bare; decide

theorem Bare.append {x y : Text} (hx : Bare x) (hy : Bare y) : Bare (x ++ y) := by
  intro c hc
  exact (List.mem_append.1 hc).elim (hx c) (hy c)

theorem Bare.not_mem {x : Text} (hx : Bare x) {c : Char} (hc : c ∈ ['\\', '{', '}', '[', ']', ',']) :
    c ∉ x := fun hm => hx c hm hc

/-- **Lines of noise without markup**, from one line break to the next. -/
structure Lacing (v : Text) : Prop where
  /-- No markup stands there. -/
  bare : Bare v
  /-- A character stands there that makes a line noise. -/
  marked : 0 < v.countP isNoiseMark
  /-- The first line is more than spaces and tabs. -/
  solid : ∃ c rest, v.dropWhile isGap = c :: rest ∧ c ≠ '\n'

/-- **The second text is the first one with lacing** between its lines and behind it. -/
inductive Laced : Text → Text → Prop
  | nil : Laced [] []
  | behind {v : Text} : Lacing v → Laced [] ('\n' :: v)
  | char {t u : Text} (c : Char) : Laced t u → Laced (c :: t) (c :: u)
  | between {v t u : Text} : Lacing v → Laced t u → Laced ('\n' :: t) ('\n' :: (v ++ '\n' :: u))

theorem Lacing.dropWhile_append {v : Text} (h : Lacing v) (t : Text) :
    ∃ c rest, (v ++ t).dropWhile isGap = c :: rest ∧ isGap c = false ∧ c ∉ ['\n', '{', '['] := by
  obtain ⟨c, rest, hv, hc⟩ := h.solid
  have hmem : c ∈ v := (List.dropWhile_suffix isGap).subset (hv ▸ List.mem_cons_self)
  have hbare := h.bare c hmem
  have hgap : isGap c = false := by
    have hhead := List.head_dropWhile_not isGap (l := v) (by simp [hv])
    simpa [hv] using hhead
  refine ⟨c, rest ++ t, ?_, hgap, by simp_all⟩
  rw [List.dropWhile_append, hv]
  rfl

/-- Two pieces of lacing, line by line, are one. -/
theorem Lacing.append {v w : Text} (hv : Lacing v) (hw : Lacing w) : Lacing (v ++ '\n' :: w) := by
  refine ⟨hv.bare.append (bare_break.append hw.bare), ?_, ?_⟩
  · rw [List.countP_append]
    exact Nat.add_pos_left hv.marked _
  · obtain ⟨c, rest, hdrop, -, hc⟩ := hv.dropWhile_append ('\n' :: w)
    exact ⟨c, rest, hdrop, fun h => hc (by simp [h])⟩

namespace Laced

variable {t u v : Text}

theorem append_left (x : Text) (h : Laced t u) : Laced (x ++ t) (x ++ u) := by
  induction x with
  | nil => exact h
  | cons c x ih => exact ih.char c

/-- More lacing can be put in front of a line break or at the end. -/
theorem lace (hv : Lacing v) (h : Laced t u) (ht : ∀ c ∈ t.head?, c = '\n') :
    Laced t ('\n' :: (v ++ u)) := by
  cases h with
  | nil =>
      rw [List.append_nil]
      exact .behind hv
  | behind hw => exact .behind (hv.append hw)
  | char c h =>
      obtain rfl := ht c rfl
      exact .between hv h
  | @between w _ u hw h =>
      have hassoc : v ++ '\n' :: (w ++ '\n' :: u) = (v ++ '\n' :: w) ++ '\n' :: u := by simp
      rw [hassoc]
      exact .between (hv.append hw) h

/-- Lacing begins with a line break. -/
theorem exists_cons {c : Char} (hc : c ≠ '\n') (h : Laced t (c :: u)) :
    ∃ t', t = c :: t' ∧ Laced t' u := by
  cases h with
  | behind => exact absurd rfl hc
  | char c h => exact ⟨_, rfl, h⟩
  | between => exact absurd rfl hc

theorem exists_append {x : Text} (hx : '\n' ∉ x) (h : Laced t (x ++ u)) :
    ∃ t', t = x ++ t' ∧ Laced t' u := by
  induction x generalizing t with
  | nil => exact ⟨t, rfl, h⟩
  | cons c x ih =>
      obtain ⟨hc, hx⟩ := not_or.1 (mt List.mem_cons.2 hx)
      obtain ⟨t₁, rfl, h₁⟩ := exists_cons (Ne.symm hc) h
      obtain ⟨t₂, rfl, h₂⟩ := ih hx h₁
      exact ⟨t₂, rfl, h₂⟩

theorem head?_eq (h : Laced t u) : t = [] ∨ t.head? = u.head? := by
  cases h with
  | nil => exact Or.inl rfl
  | behind => exact Or.inl rfl
  | char => exact Or.inr rfl
  | between => exact Or.inr rfl

/-! ### Commands -/

theorem endsName (h : Laced t u) (hu : EndsName u) : EndsName t := by
  rcases h.head?_eq with rfl | hhead
  · exact endsName_nil
  · intro c hc
    exact hu c (hhead ▸ hc)

/-- **A command in the laced text stands in the text**, with the same name and the arguments that the
text has there. -/
theorem exists_isIn {s : Sighting} {escaped : Bool} (h : Laced t u) (hname : '\n' ∉ s.name)
    (hs : s.IsIn escaped u) :
    ∃ s' : Sighting, s'.name = s.name ∧ s'.IsIn escaped t ∧ Laced s'.after s.after := by
  induction h generalizing s escaped with
  | nil => exact absurd hs.text_eq (by simp [Sighting.text, Sighting.source])
  | behind hv =>
      have hplain := (bare_break.append hv.bare).not_mem (c := '\\') (by simp)
      rw [← List.append_nil ('\n' :: _)] at hs
      obtain ⟨s₁, rfl, h₁⟩ := hs.exists_within_plain hplain
      exact absurd h₁.text_eq (by simp [Sighting.text, Sighting.source])
  | @char t u c h ih =>
      rcases hs.eq_nil_or_behind with ⟨hb, hescapes⟩ | ⟨s₁, rfl, h₁⟩
      · -- the command begins here, and no line break stands in it
        obtain ⟨before, name, starred, after⟩ := s
        obtain rfl : before = [] := hb
        have hsource : '\n' ∉ name ++ (if starred then ['*'] else []) := by
          rw [List.mem_append, not_or]
          exact ⟨hname, by split <;> simp⟩
        obtain ⟨hc, hu⟩ := List.cons.inj hs.text_eq
        obtain ⟨after', rfl, h'⟩ := exists_append hsource (hu ▸ h)
        exact ⟨⟨[], name, starred, after'⟩, rfl, ⟨by rw [← hc]; rfl, hs.fresh, fun hstar =>
          h'.endsName (hs.ends hstar)⟩, h'⟩
      · obtain ⟨s', hn, hin, h'⟩ := ih (s := s₁) hname h₁
        exact ⟨s'.behind c, hn, Sighting.isIn_behind.2 hin, h'⟩
  | @between v t u hv h ih =>
      have hplain := (bare_break.append (hv.bare.append bare_break)).not_mem (c := '\\') (by simp)
      have hsplit : '\n' :: (v ++ '\n' :: u) = ('\n' :: (v ++ ['\n'])) ++ u := by simp
      rw [hsplit] at hs
      obtain ⟨s₁, rfl, h₁⟩ := hs.exists_within_plain hplain
      have hbreak : ∀ b, escapes b '\n' = false := by decide
      have hfresh : escapedAfter escaped ('\n' :: (v ++ ['\n'])) = escapes escaped '\n' := by
        rw [escapedAfter_cons, escapedAfter_append, escapedAfter_cons, escapedAfter_nil, hbreak, hbreak]
      obtain ⟨s', hn, hin, h'⟩ := ih (s := s₁) hname (hfresh ▸ h₁)
      exact ⟨s'.behind '\n', hn, Sighting.isIn_behind.2 hin, by simpa using h'⟩

/-! ### Groups -/

/-- A group that is read with lacing is read without it: what it holds and what follows are the same
but for the lacing. -/
def Follows (r r' : Option (Text × Text)) : Prop :=
  ∀ inner' after', r' = some (inner', after') →
    ∃ inner after, r = some (inner, after) ∧ Laced inner inner' ∧ Laced after after'

theorem follows_none (r : Option (Text × Text)) : Follows r none := fun _ _ h => by simp at h

theorem Follows.map {r r' : Option (Text × Text)} {f f' : Text → Text} (h : Follows r r')
    (hf : ∀ {i i'}, Laced i i' → Laced (f i) (f' i')) :
    Follows (r.map fun p => (f p.1, p.2)) (r'.map fun p => (f' p.1, p.2)) := by
  intro inner' after' hr
  obtain ⟨⟨i', a'⟩, hi, heq⟩ := Option.map_eq_some_iff.1 hr
  obtain ⟨rfl, rfl⟩ := Prod.mk.inj heq
  obtain ⟨i, a, rfl, hinner, hafter⟩ := h i' a' hi
  exact ⟨f i, a, rfl, hf hinner, hafter⟩

theorem Follows.close (h : Laced t u) : Follows (some ([], t)) (some ([], u)) := by
  intro inner' after' hr
  obtain ⟨rfl, rfl⟩ := Prod.mk.inj (Option.some.inj hr)
  exact ⟨[], t, rfl, .nil, h⟩

/-- **Lacing is read over** by a reader of groups for which a bare text is text: also behind a backslash. -/
theorem follows_read {State : Type} {G : GroupReader State}
    (hbare : ∀ s c, c ∉ ['\\', '{', '}', '[', ']', ','] → G.next s c = some s) (h : Laced t u) (s : State) :
    Follows (G.read s t) (G.read s u) ∧ Follows (G.read s ('\\' :: t)) (G.read s ('\\' :: u)) := by
  have hpass : ∀ {x}, Bare x → ∀ s b, G.read s (x ++ b) = (G.read s b).map fun p => (x ++ p.1, p.2) :=
    fun hx s b => G.passed_append (fun c hc => ⟨fun heq => hx c hc (by simp [heq]), hbare s c (hx c hc)⟩) b
  induction h generalizing s with
  | nil => exact ⟨G.read_nil s ▸ follows_none _, G.read_slash s ▸ follows_none _⟩
  | @behind v hv =>
      have hnone : ∀ {x}, Bare x → G.read s x = none := by
        intro x hx
        have h := hpass hx s []
        rwa [List.append_nil, G.read_nil] at h
      have hbehind : G.read s ('\n' :: v) = none := hnone (bare_break.append hv.bare)
      rw [G.read_pair, hnone hv.bare, hbehind]
      exact ⟨follows_none _, follows_none _⟩
  | @char t u c h ih =>
      refine ⟨?_, ?_⟩
      · by_cases hc : c = '\\'
        · rw [hc]
          exact (ih s).2
        · cases hnext : G.next s c with
          | none =>
              rw [G.read_of_close t hc hnext, G.read_of_close u hc hnext]
              exact Follows.close h
          | some s' =>
              rw [G.read_of_open t hc hnext, G.read_of_open u hc hnext]
              exact (ih s').1.map (char c)
      · rw [G.read_pair, G.read_pair]
        exact (ih s).1.map fun h => (h.char c).char '\\'
  | @between v t u hv h ih =>
      have hbreak : G.read s ('\n' :: t) = (G.read s t).map fun p => ('\n' :: p.1, p.2) :=
        hpass bare_break s t
      have hline : G.read s (v ++ '\n' :: u) = (G.read s u).map fun p => (v ++ '\n' :: p.1, p.2) := by
        simpa using hpass (hv.bare.append bare_break) s u
      have hbetween : G.read s ('\n' :: (v ++ '\n' :: u)) =
          (G.read s u).map fun p => ('\n' :: (v ++ '\n' :: p.1), p.2) := by
        simpa using hpass (bare_break.append (hv.bare.append bare_break)) s u
      rw [G.read_pair, G.read_pair, hbreak, hbetween, hline, Option.map_map]
      exact ⟨(ih s).1.map (between hv), (ih s).1.map fun h => (between hv h).char '\\'⟩

theorem follows_closeBrace? (h : Laced t u) (depth : Nat) :
    Follows (closeBrace? depth t) (closeBrace? depth u) := by
  refine (h.follows_read (G := braceReader) (fun depth c hc => ?_) depth).1
  simp only [List.mem_cons, List.not_mem_nil, or_false, not_or] at hc
  simp [braceReader, hc]

theorem follows_closeBracket? (h : Laced t u) (depth braces : Nat) :
    Follows (closeBracket? depth braces t) (closeBracket? depth braces u) := by
  refine (h.follows_read (G := bracketReader) (fun s c hc => ?_) (depth, braces)).1
  simp only [List.mem_cons, List.not_mem_nil, or_false, not_or] at hc
  simp [bracketReader, hc]

/-! ### Arguments -/

theorem dropWhile_isGap (h : Laced t u) : Laced (t.dropWhile isGap) (u.dropWhile isGap) := by
  have hbreak : isGap '\n' = false := by decide
  induction h with
  | nil => exact .nil
  | behind hv =>
      rw [List.dropWhile_cons, hbreak]
      exact .behind hv
  | char c h ih =>
      rw [List.dropWhile_cons, List.dropWhile_cons]
      split
      · exact ih
      · exact h.char c
  | between hv h _ =>
      rw [List.dropWhile_cons, List.dropWhile_cons, hbreak]
      exact .between hv h

/-- No argument starts here, also not behind space. -/
def Blocks (t : Text) : Prop := ∀ c ∈ t.head?, isGap c = false ∧ c ∉ ['\n', '{', '[']

theorem Blocks.argumentSpace {t : Text} (h : Blocks t) : argumentSpace t = ([], t) :=
  argumentSpace_of_head fun c hc => ⟨(h c hc).1, fun hn => (h c hc).2 (by simp [hn])⟩

theorem Blocks.group_read? {t : Text} (h : Blocks t) : Group.read? t = none := by
  cases t with
  | nil => rfl
  | cons c t =>
      have hc := (h c rfl).2
      simp only [List.mem_cons, List.not_mem_nil, or_false, not_or] at hc
      rw [Group.read?, if_neg hc.2.1, if_neg hc.2.2]

theorem blocks_of_lacing (hv : Lacing v) (t : Text) : Blocks ((v ++ t).dropWhile isGap) := by
  obtain ⟨c, rest, hdrop, hc⟩ := hv.dropWhile_append t
  rw [hdrop]
  intro d hd
  obtain rfl := Option.some.inj hd
  exact hc

/-- **Behind the space for an argument** the laced text goes on as the text does, or lacing has begun. -/
theorem argumentSpace (h : Laced t u) :
    Laced (argumentSpace t).2 (argumentSpace u).2 ∨ Blocks (argumentSpace u).2 := by
  have hgap := h.dropWhile_isGap
  rw [Markup.argumentSpace, Markup.argumentSpace]
  generalize t.dropWhile isGap = t' at hgap
  generalize u.dropWhile isGap = u' at hgap
  cases hgap with
  | nil => exact Or.inl .nil
  | @behind v hv =>
      have h := blocks_of_lacing hv []
      rw [List.append_nil] at h
      exact Or.inr h
  | char c h =>
      by_cases hc : c = '\n'
      · subst hc
        exact Or.inl h.dropWhile_isGap
      · refine Or.inl ?_
        split
        · next rest heq => exact absurd (List.cons.inj heq).1 hc
        · split
          · next rest heq => exact absurd (List.cons.inj heq).1 hc
          · exact h.char c
  | @between v _ u hv h => exact Or.inr (blocks_of_lacing hv _)

/-- A group in the laced text is one in the text. -/
theorem group_read? (h : Laced t u) {g' : Group} (hg : Group.read? u = some g') :
    ∃ g, Group.read? t = some g ∧ g.fence = g'.fence ∧ Laced g.inner g'.inner ∧
      Laced g.after g'.after := by
  cases u with
  | nil => simp [Group.read?] at hg
  | cons c u =>
      rw [Group.read?] at hg
      split at hg
      · next hc =>
          obtain ⟨⟨i', a'⟩, hclose, rfl⟩ := Option.map_eq_some_iff.1 hg
          subst hc
          obtain ⟨t, rfl, ht⟩ := exists_cons (by decide) h
          obtain ⟨i, a, hi, hinner, hafter⟩ := ht.follows_closeBrace? 0 i' a' hclose
          exact ⟨⟨.brace, i, a⟩, by rw [Group.read?, if_pos rfl, hi]; rfl, rfl, hinner, hafter⟩
      · split at hg
        · next hne hc =>
            obtain ⟨⟨i', a'⟩, hclose, rfl⟩ := Option.map_eq_some_iff.1 hg
            subst hc
            obtain ⟨t, rfl, ht⟩ := exists_cons (by decide) h
            obtain ⟨i, a, hi, hinner, hafter⟩ := ht.follows_closeBracket? 0 0 i' a' hclose
            exact ⟨⟨.bracket, i, a⟩, by rw [Group.read?, if_neg hne, if_pos rfl, hi]; rfl, rfl, hinner, hafter⟩
        · simp at hg

/-- An argument in the laced text is one in the text. -/
theorem argument_read? (h : Laced t u) {a' : Argument} (ha : Argument.read? u = some a') :
    ∃ a, Argument.read? t = some a ∧ Laced a.inner a'.inner := by
  rw [Argument.read?] at ha
  split at ha
  · next inner after hg =>
      obtain rfl := Option.some.inj ha
      rcases h.argumentSpace with h | h
      · obtain ⟨⟨fence, i, a⟩, hread, rfl, hinner, -⟩ := h.group_read? hg
        exact ⟨⟨_, i, a⟩, by rw [Argument.read?, hread], hinner⟩
      · rw [h.group_read?] at hg
        simp at hg
  · simp at ha

theorem afterOptions (h : Laced t u) {rest' : Text} (hr : AfterOptions u rest') :
    ∃ rest, AfterOptions t rest ∧ Laced rest rest' := by
  rcases hr with rfl | ⟨g', hg, hfence, rfl⟩
  · exact ⟨t, Or.inl rfl, h⟩
  · obtain ⟨g, hread, hf, -, hafter⟩ := h.group_read? hg
    exact ⟨g.after, Or.inr ⟨g, hread, hf.trans hfence, rfl⟩, hafter⟩

/-! ### Packages -/

theorem splitOn_append_of_not_mem {x f : Text} {after : List Text} (hx : ',' ∉ x)
    (hu : splitOn ',' u = f :: after) : splitOn ',' (x ++ u) = (x ++ f) :: after :=
  @splitOn_append ',' x u x f [] after (splitOn_eq_singleton hx) hu

/-- Lacing stands inside pieces of a list and marks them; the other pieces are the same. -/
theorem forall₂_splitOn (h : Laced t u) :
    List.Forall₂ (fun piece piece' => piece' = piece ∨ 0 < piece'.countP isNoiseMark)
      (splitOn ',' t) (splitOn ',' u) := by
  induction h with
  | nil => exact .cons (Or.inl rfl) .nil
  | @behind v hv =>
      have hcomma : ',' ∉ '\n' :: v := (bare_break.append hv.bare).not_mem (by simp)
      rw [splitOn_eq_singleton hcomma]
      refine .cons (Or.inr ?_) .nil
      rw [List.countP_cons]
      exact Nat.add_pos_left hv.marked _
  | @char t u c h ih =>
      rw [splitOn, splitOn]
      split
      · exact .cons (Or.inl rfl) ih
      · obtain ⟨f, after, ht⟩ := List.exists_cons_of_ne_nil (splitOn_ne_nil ',' t)
        obtain ⟨f', after', hu⟩ := List.exists_cons_of_ne_nil (splitOn_ne_nil ',' u)
        rw [ht, hu] at ih ⊢
        obtain ⟨hf, hafter⟩ := List.forall₂_cons.1 ih
        refine .cons ?_ hafter
        refine hf.imp (fun h => by rw [h]) fun h => ?_
        rw [List.countP_cons]
        exact Nat.add_pos_left h _
  | @between v t u hv h ih =>
      obtain ⟨f, after, ht⟩ := List.exists_cons_of_ne_nil (splitOn_ne_nil ',' t)
      obtain ⟨f', after', hu⟩ := List.exists_cons_of_ne_nil (splitOn_ne_nil ',' u)
      have hbare := bare_break.append (hv.bare.append bare_break)
      have hlaced := splitOn_append_of_not_mem (hbare.not_mem (by simp)) hu
      have hline := splitOn_append_of_not_mem (bare_break.not_mem (by simp)) ht
      rw [show '\n' :: t = ['\n'] ++ t from rfl,
        show '\n' :: (v ++ '\n' :: u) = ['\n'] ++ (v ++ ['\n']) ++ u by simp, hlaced, hline]
      rw [ht, hu] at ih
      refine .cons (Or.inr ?_) (List.forall₂_cons.1 ih).2
      have hmarked := hv.marked
      simp only [List.countP_append]
      omega

/-- A piece without noise is a piece of the text. -/
theorem mem_splitOn (h : Laced t u) {piece : Text} (hp : piece ∈ splitOn ',' u)
    (hcount : piece.countP isNoiseMark = 0) : piece ∈ splitOn ',' t := by
  have hall := h.forall₂_splitOn
  generalize splitOn ',' t = pieces at hall ⊢
  generalize splitOn ',' u = pieces' at hall hp
  induction hall with
  | nil => exact hp
  | cons hf _ ih =>
      rcases List.mem_cons.1 hp with rfl | hp
      · rcases hf with rfl | hmarked
        · exact List.mem_cons_self
        · omega
      · exact List.mem_cons_of_mem _ (ih hp)

/-- **A package that is found in the laced text is found in the text.**  A piece of the list that holds
lacing is not the name of the package. -/
theorem findsPackage {package : Text} (hp : Droppable package) (h : Laced t u)
    (hfinds : FindsPackage package u) : FindsPackage package t := by
  obtain ⟨rest', list', hoptions, hlist, piece, hpiece, hsame⟩ := hfinds
  rcases h.argumentSpace with hspace | hblocks
  · obtain ⟨rest, hrest, hlaced⟩ := hspace.afterOptions hoptions
    obtain ⟨list, hread, hinner⟩ := hlaced.argument_read? hlist
    have hkeeps : keeps package piece = false := by simp [keeps, hsame]
    have hcount := countP_eq_zero_of_not_keeps hp hkeeps lasting_isNoiseMark
    exact ⟨rest, list, hrest, hread, piece, hinner.mem_splitOn hpiece hcount, hsame⟩
  · -- nothing is read where lacing has begun
    exfalso
    rcases hoptions with rfl | ⟨g, hg, -, rfl⟩
    · simp [Argument.read?, hblocks.argumentSpace, hblocks.group_read?] at hlist
    · simp [hblocks.group_read?] at hg

end Laced

end CribSheet.Payload
