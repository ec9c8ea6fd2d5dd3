/-
What one sanitizing pass can do to a text.

Behind the line breaks, every step of a pass only takes characters out.  Before them, byte-order marks
go, carriage returns become line feeds, and escaped breaks become shorter.  A text without carriage
returns is therefore left alone by a pass or made shorter, and it is left alone exactly when every step
leaves it alone.

Main definitions:

* `CribSheet.Payload.tidy` — the steps of a pass that only delete.

Main results:

* `CribSheet.Payload.deletes_tidy` — they do;
* `CribSheet.Payload.size_decodeBreaks_lt` — decoding an escaped break shortens the text;
* `CribSheet.Payload.pass_eq_or_lt` — a pass leaves a text without carriage returns alone or shortens
  it;
* `CribSheet.Payload.pass_eq_self_iff` — the texts that a pass leaves alone.
-/
import CribSheet.Payload.Sanitize
import CribSheet.Proofs.Payload.Directive

set_option relaxedAutoImplicit false
set_option autoImplicit false

namespace CribSheet.Payload

open CribSheet.Text

/-! ### Marks and carriage returns -/

theorem deletes_dropByteOrderMarks : Deletes dropByteOrderMarks := fun _ => List.filter_sublist

theorem dropByteOrderMarks_eq_self_iff (t : Text) : dropByteOrderMarks t = t ↔ '\ufeff' ∉ t := by
  rw [dropByteOrderMarks, List.filter_eq_self]
  constructor
  · intro h hmem
    simpa using h _ hmem
  · intro h c hc
    simpa using fun he : c = '\ufeff' => h (he ▸ hc)

theorem not_mem_dropByteOrderMarks (t : Text) : '\ufeff' ∉ dropByteOrderMarks t := by
  simp [dropByteOrderMarks]

theorem not_mem_unifyBreaks (t : Text) : '\r' ∉ unifyBreaks t := by
  fun_induction unifyBreaks t with
  | case1 => exact List.not_mem_nil
  | case2 t ih => simpa using ih
  | case3 t _ ih => simpa using ih
  | case4 c t _ hc ih => simpa using ⟨fun h => hc h.symm, ih⟩

theorem unifyBreaks_eq_self {t : Text} (h : '\r' ∉ t) : unifyBreaks t = t := by
  fun_induction unifyBreaks t with
  | case1 => rfl
  | case2 => simp at h
  | case3 => simp at h
  | case4 c t _ hc ih => rw [ih fun hm => h (List.mem_cons_of_mem c hm)]

theorem mem_unifyBreaks {c : Char} {t : Text} (h : c ∈ unifyBreaks t) : c = '\n' ∨ c ∈ t := by
  fun_induction unifyBreaks t with
  | case1 => exact Or.inr h
  | case2 t ih =>
      rcases List.mem_cons.1 h with rfl | h
      · exact Or.inl rfl
      · exact (ih h).imp_right fun hm => by simp [hm]
  | case3 t _ ih =>
      rcases List.mem_cons.1 h with rfl | h
      · exact Or.inl rfl
      · exact (ih h).imp_right fun hm => by simp [hm]
  | case4 d t _ _ ih =>
      rcases List.mem_cons.1 h with rfl | h
      · exact Or.inr List.mem_cons_self
      · exact (ih h).imp_right fun hm => by simp [hm]

theorem size_unifyBreaks_le (t : Text) : (unifyBreaks t).size ≤ t.size := by
  have hr : Char.utf8Size '\r' = 1 := by decide
  have hn : Char.utf8Size '\n' = 1 := by decide
  fun_induction unifyBreaks t with
  | case1 => exact Nat.le_refl _
  | case2 t ih =>
      simp only [size_cons, hr, hn]
      omega
  | case3 t _ ih =>
      simp only [size_cons, hr, hn]
      omega
  | case4 c t _ _ ih => exact Nat.add_le_add_left ih _

/-! ### Escaped breaks -/

theorem mem_decodeBreaks {c : Char} {t : Text} (h : c ∈ decodeBreaks t) : c = '\n' ∨ c ∈ t := by
  fun_induction decodeBreaks t with
  | case1 => exact Or.inr h
  | case2 t ih =>
      rcases List.mem_cons.1 h with rfl | h
      · exact Or.inl rfl
      · exact (ih h).imp_right fun hm => by simp [hm]
  | case3 t ih =>
      rcases List.mem_cons.1 h with rfl | h
      · exact Or.inl rfl
      · exact (ih h).imp_right fun hm => by simp [hm]
  | case4 d t _ _ ih =>
      rcases List.mem_cons.1 h with rfl | h
      · exact Or.inr List.mem_cons_self
      · exact (ih h).imp_right fun hm => by simp [hm]

theorem size_decodeBreaks_le (t : Text) :
    (decodeBreaks t).size ≤ t.size ∧ (decodeBreaks t).length ≤ t.length := by
  have hn : Char.utf8Size '\n' = 1 := by decide
  have hpos := fun c : Char => c.utf8Size_pos
  fun_induction decodeBreaks t with
  | case1 => exact ⟨Nat.le_refl _, Nat.le_refl _⟩
  | case2 t ih =>
      have := hpos '\\'
      simp only [size_cons, List.length_cons, hn]
      omega
  | case3 t ih =>
      have := hpos '\\'
      simp only [size_cons, List.length_cons, hn]
      omega
  | case4 c t _ _ ih => exact ⟨Nat.add_le_add_left ih.1 _, Nat.succ_le_succ ih.2⟩

/-- **Decoding an escaped break shortens the text.** -/
theorem size_decodeBreaks_lt {t : Text} (h : hasEscapedBreak t = true) :
    (decodeBreaks t).size < t.size ∧ (decodeBreaks t).length < t.length := by
  have hn : Char.utf8Size '\n' = 1 := by decide
  have hs : Char.utf8Size '\\' = 1 := by decide
  have hletter : Char.utf8Size 'n' = 1 := by decide
  fun_induction decodeBreaks t with
  | case1 => simp [hasEscapedBreak] at h
  | case2 t ih =>
      have hle := size_decodeBreaks_le t
      simp only [size_cons, List.length_cons, hn, hs, hletter]
      omega
  | case3 t ih =>
      have hle := size_decodeBreaks_le t
      simp only [size_cons, List.length_cons, hn, hs, hletter]
      omega
  | case4 c t _ hc ih =>
      have hrest : hasEscapedBreak t = true := by
        rw [hasEscapedBreak, Bool.or_eq_true] at h
        refine h.resolve_left fun hstart => ?_
        unfold startsEscapedBreak at hstart
        split at hstart
        · next u heq =>
            obtain ⟨rfl, rfl⟩ := List.cons.inj heq
            exact hc u rfl rfl
        · simp at hstart
      have hlt := ih hrest
      exact ⟨Nat.add_lt_add_left hlt.1 _, Nat.succ_lt_succ hlt.2⟩

/-- What becomes of the breaks of a text without carriage returns. -/
theorem normalizeBreaks_of_not_mem {t : Text} (h : '\r' ∉ t) :
    normalizeBreaks t = if '\n' ∉ t ∧ hasEscapedBreak t = true then decodeBreaks t else t := by
  simp only [normalizeBreaks, unifyBreaks_eq_self h]
  split
  · next hc =>
      rw [if_pos (by simpa using hc)]
  · next hc =>
      rw [if_neg (by simpa using hc)]

theorem not_mem_normalizeBreaks (t : Text) : '\r' ∉ normalizeBreaks t := by
  have hunify := not_mem_unifyBreaks t
  simp only [normalizeBreaks]
  split
  · intro h
    rcases mem_decodeBreaks h with hn | hm
    · simp at hn
    · exact hunify hm
  · exact hunify

theorem mem_normalizeBreaks {c : Char} {t : Text} (h : c ∈ normalizeBreaks t) :
    c = '\n' ∨ c ∈ t := by
  simp only [normalizeBreaks] at h
  split at h
  · rcases mem_decodeBreaks h with hn | hm
    · exact Or.inl hn
    · exact mem_unifyBreaks hm
  · exact mem_unifyBreaks h

theorem size_normalizeBreaks_le (t : Text) : (normalizeBreaks t).size ≤ t.size := by
  have hunify := size_unifyBreaks_le t
  simp only [normalizeBreaks]
  split
  · exact Nat.le_trans (size_decodeBreaks_le _).1 hunify
  · exact hunify

/-! ### Noise lines -/

theorem deletes_dropNoiseLines : Deletes dropNoiseLines := deletes_filter_lines _

/-- **Dropping noise lines leaves a text alone exactly when none of its lines is one.** -/
theorem dropNoiseLines_eq_self_iff (t : Text) :
    dropNoiseLines t = t ↔ ∀ line ∈ t.lines, isNoiseLine line = false := by
  have hlines : ∀ line ∈ t.lines, '\n' ∉ line := fun _ => not_mem_of_mem_splitOn
  constructor
  · intro h
    have hkept : t.lines.filter (fun line => !isNoiseLine line) ≠ [] := by
      intro hnil
      have ht : t = [] := by rw [← h, dropNoiseLines, hnil]; rfl
      subst ht
      simp [lines, splitOn, isNoiseLine, trimStart, startsWith, after?, fence] at hnil
    have hsame : t.lines.filter (fun line => !isNoiseLine line) = t.lines := by
      rw [← lines_unlines hkept fun line hl => hlines line (List.mem_of_mem_filter hl)]
      exact congrArg lines h
    intro line hl
    simpa using List.filter_eq_self.1 hsame line hl
  · intro h
    rw [dropNoiseLines, List.filter_eq_self.2 fun line hl => by simp [h line hl], unlines_lines]

/-! ### The sentinel -/

theorem deletes_belowFirstLine : Deletes belowFirstLine := fun _ =>
  (deletes_trim _).trans ((List.drop_sublist _ _).trans (List.dropWhile_sublist _))

theorem deletes_stripSentinel : Deletes stripSentinel := by
  intro t
  fun_induction stripSentinel t with
  | case1 t h _ ih => exact ih.trans (deletes_belowFirstLine t)
  | case2 => exact List.Sublist.refl _

theorem stripSentinel_eq_self_iff (t : Text) :
    stripSentinel t = t ↔ (firstLine t).1.trimEnd ≠ sentinel := by
  constructor
  · intro h hs
    rw [stripSentinel, dif_pos hs] at h
    have hlt := length_belowFirstLine_lt hs
    have hle := (deletes_stripSentinel (belowFirstLine t)).length_le
    rw [h] at hle
    omega
  · intro h
    rw [stripSentinel, dif_neg h]

/-! ### The whole pass -/

/-- The steps of a pass that only take characters out. -/
def tidy (table : List Directive) : Text → Text :=
  stripSentinel ∘ trim ∘ dropNoiseLines ∘ removeDirectives table

theorem pass_eq_tidy (table : List Directive) (t : Text) :
    pass table t = tidy table (normalizeBreaks (dropByteOrderMarks t)) := rfl

theorem deletes_tidy (table : List Directive) : Deletes (tidy table) :=
  deletes_stripSentinel.comp
    (deletes_trim.comp (deletes_dropNoiseLines.comp (deletes_removeDirectives table)))

theorem tidy_eq_self_iff (table : List Directive) (t : Text) :
    tidy table t = t ↔
      removeDirectives table t = t ∧ dropNoiseLines t = t ∧ t.trim = t ∧ stripSentinel t = t := by
  have hnoise := deletes_dropNoiseLines.comp (deletes_removeDirectives table)
  have htrim := deletes_trim.comp hnoise
  calc tidy table t = t
      ↔ trim (dropNoiseLines (removeDirectives table t)) = t ∧ stripSentinel t = t :=
        deletes_stripSentinel.comp_eq_self_iff htrim t
    _ ↔ (dropNoiseLines (removeDirectives table t) = t ∧ t.trim = t) ∧ stripSentinel t = t :=
        and_congr_left' (deletes_trim.comp_eq_self_iff hnoise t)
    _ ↔ ((removeDirectives table t = t ∧ dropNoiseLines t = t) ∧ t.trim = t) ∧
          stripSentinel t = t :=
        and_congr_left' (and_congr_left' (deletes_dropNoiseLines.comp_eq_self_iff
          (deletes_removeDirectives table) t))
    _ ↔ _ := by rw [and_assoc, and_assoc]

theorem not_mem_pass (table : List Directive) (t : Text) : '\r' ∉ pass table t :=
  (deletes_tidy table).not_mem (not_mem_normalizeBreaks _)

theorem mark_not_mem_pass (table : List Directive) (t : Text) : '\ufeff' ∉ pass table t := by
  refine (deletes_tidy table).not_mem fun h => ?_
  rcases mem_normalizeBreaks h with hn | hm
  · simp at hn
  · exact not_mem_dropByteOrderMarks t hm

theorem size_pass_le (table : List Directive) (t : Text) : (pass table t).size ≤ t.size :=
  calc (pass table t).size
      ≤ (normalizeBreaks (dropByteOrderMarks t)).size := size_le_of_sublist (deletes_tidy table _)
    _ ≤ (dropByteOrderMarks t).size := size_normalizeBreaks_le _
    _ ≤ t.size := size_le_of_sublist (deletes_dropByteOrderMarks t)

/-- **A pass leaves a text without carriage returns alone, or shortens it.** -/
theorem pass_eq_or_lt (table : List Directive) {t : Text} (h : '\r' ∉ t) :
    pass table t = t ∨ (pass table t).size < t.size ∧ (pass table t).length < t.length := by
  have hmarks := deletes_dropByteOrderMarks t
  have htidy := deletes_tidy table (normalizeBreaks (dropByteOrderMarks t))
  rw [← pass_eq_tidy] at htidy
  rw [normalizeBreaks_of_not_mem (deletes_dropByteOrderMarks.not_mem h)] at htidy
  split at htidy
  · next hc =>
      have hlt := size_decodeBreaks_lt hc.2
      have hsize := size_le_of_sublist htidy
      have hsize' := size_le_of_sublist hmarks
      have hlen := htidy.length_le
      have hlen' := hmarks.length_le
      exact Or.inr ⟨by omega, by omega⟩
  · have hsub := htidy.trans hmarks
    refine (Classical.em (pass table t = t)).imp_right fun hne => ?_
    exact ⟨size_lt_of_sublist hsub hne,
      Nat.lt_of_le_of_ne hsub.length_le fun he => hne (hsub.eq_of_length he)⟩

/-- **A pass leaves a text alone exactly when each of its steps does.** -/
theorem pass_eq_self_iff (table : List Directive) (t : Text) :
    pass table t = t ↔
      '\ufeff' ∉ t ∧ '\r' ∉ t ∧ ('\n' ∈ t ∨ hasEscapedBreak t = false) ∧
        removeDirectives table t = t ∧ dropNoiseLines t = t ∧ t.trim = t ∧
          stripSentinel t = t := by
  rw [← tidy_eq_self_iff]
  constructor
  · intro h
    have hmark : '\ufeff' ∉ t := h ▸ mark_not_mem_pass table t
    have hreturn : '\r' ∉ t := h ▸ not_mem_pass table t
    rw [pass_eq_tidy, (dropByteOrderMarks_eq_self_iff t).2 hmark,
      normalizeBreaks_of_not_mem hreturn] at h
    split at h
    · next hc =>
        have hlt := (size_decodeBreaks_lt hc.2).1
        have hle := size_le_of_sublist (deletes_tidy table (decodeBreaks t))
        rw [h] at hle
        omega
    · next hc =>
        refine ⟨hmark, hreturn, ?_, h⟩
        rw [not_and, Bool.not_eq_true] at hc
        exact (Classical.em ('\n' ∈ t)).imp_right hc
  · rintro ⟨hmark, hreturn, hbreak, htidy⟩
    rw [pass_eq_tidy, (dropByteOrderMarks_eq_self_iff t).2 hmark,
      normalizeBreaks_of_not_mem hreturn, if_neg, htidy]
    rintro ⟨hn, he⟩
    rcases hbreak with hbreak | hbreak
    · exact hn hbreak
    · simp [hbreak] at he

end CribSheet.Payload
