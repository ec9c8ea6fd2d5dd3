/-
The sanitizing passes settle.

Passes are made until one of them changes nothing.  The first pass may trade one character for another,
but from the second one on the text holds no carriage return, and a pass that changes it makes it
shorter.  So the passes stop, after at most two more than the payload has bytes, and what they stop at is
a text that a pass leaves alone.

Main definitions:

* `CribSheet.Payload.StopsAfter` — how many passes are made.

Main results:

* `CribSheet.Payload.exists_stopsAfter_settle` — settling a text without carriage returns is making
  passes until one changes nothing;
* `CribSheet.Payload.passes_shrink_and_stop` — **the passes shrink the text and stop**;
* `CribSheet.Payload.pass_sanitizeWith` — a pass leaves a sanitized payload alone.
-/
import CribSheet.Proofs.Payload.Pass
import Mathlib.Logic.Function.Iterate

set_option relaxedAutoImplicit false
set_option autoImplicit false

namespace CribSheet.Payload

open CribSheet.Text

/-- **Repeating `f` on a text stops after `n` times**: the last time is the first one that changes
nothing. -/
def StopsAfter (f : Text → Text) (n : Nat) (t : Text) : Prop :=
  0 < n ∧ f^[n] t = f^[n - 1] t ∧ ∀ k, k + 1 < n → f^[k + 1] t ≠ f^[k] t

theorem stopsAfter_one {f : Text → Text} {t : Text} (h : f t = t) : StopsAfter f 1 t :=
  ⟨Nat.one_pos, h, fun k hk => by omega⟩

theorem StopsAfter.succ {f : Text → Text} {n : Nat} {t : Text} (hne : f t ≠ t)
    (h : StopsAfter f n (f t)) : StopsAfter f (n + 1) t := by
  obtain ⟨hpos, hlast, hmoving⟩ := h
  obtain ⟨m, rfl⟩ : ∃ m, n = m + 1 := ⟨n - 1, by omega⟩
  refine ⟨Nat.succ_pos _, hlast, fun k hk => ?_⟩
  cases k with
  | zero => exact hne
  | succ k => exact hmoving k (by omega)

/-- What repeating stops at is a fixed point. -/
theorem StopsAfter.apply_iterate {f : Text → Text} {n : Nat} {t : Text} (h : StopsAfter f n t) :
    f (f^[n] t) = f^[n] t := by
  obtain ⟨hpos, hlast, -⟩ := h
  obtain ⟨m, rfl⟩ : ∃ m, n = m + 1 := ⟨n - 1, by omega⟩
  have hm : f (f^[m] t) = f^[m] t := by
    rw [← Function.iterate_succ_apply' f m t]
    exact hlast
  rw [Function.iterate_succ_apply', hm, hm]

variable (table : List Directive)

/-- **Settling a text without carriage returns** is making passes until one changes nothing. -/
theorem exists_stopsAfter_settle {t : Text} (h : '\r' ∉ t) :
    ∃ n ≤ t.size + 1, StopsAfter (pass table) n t ∧ settle (pass table) t = (pass table)^[n] t := by
  induction hlen : t.length using Nat.strong_induction_on generalizing t with
  | _ length ih =>
      rw [settle]
      rcases pass_eq_or_lt table h with hsame | ⟨hsize, hshort⟩
      · refine ⟨1, by omega, stopsAfter_one hsame, ?_⟩
        rw [if_neg (by rw [hsame]; exact Nat.lt_irrefl _)]
        exact hsame.symm
      · obtain ⟨n, hn, hstops, hsettle⟩ :=
          ih _ (hlen ▸ hshort) (not_mem_pass table t) rfl
        have hne : pass table t ≠ t := fun he => by
          rw [he] at hshort
          exact Nat.lt_irrefl _ hshort
        refine ⟨n + 1, by omega, hstops.succ hne, ?_⟩
        rw [if_pos hshort, hsettle, Function.iterate_succ_apply]

theorem not_mem_iterate_pass (raw : Text) (n : Nat) : '\r' ∉ (pass table)^[n + 1] raw := by
  rw [Function.iterate_succ_apply']
  exact not_mem_pass table _

/-- The whole run of passes over a payload. -/
theorem exists_stopsAfter_sanitizeWith (raw : Text) :
    ∃ n ≤ raw.size + 2, StopsAfter (pass table) n raw ∧
      sanitizeWith table raw = (pass table)^[n] raw := by
  obtain ⟨n, hn, hstops, hsettle⟩ := exists_stopsAfter_settle table (not_mem_pass table raw)
  have hsize := size_pass_le table raw
  rcases Classical.em (pass table raw = raw) with hsame | hne
  · refine ⟨1, by omega, stopsAfter_one hsame, ?_⟩
    rw [sanitizeWith, hsettle, hsame]
    exact Function.iterate_fixed hsame n |>.trans hsame.symm
  · refine ⟨n + 1, by omega, hstops.succ hne, ?_⟩
    rw [sanitizeWith, hsettle, Function.iterate_succ_apply]

/-- **The passes shrink the text and stop.**  From the second one on, a pass leaves the text as it is or
makes it take fewer bytes; the first pass that changes nothing is the last one that is made, and it comes
after at most two more passes than the payload has bytes. -/
theorem passes_shrink_and_stop (raw : Text) :
    (∀ n, 1 ≤ n →
      (pass table)^[n + 1] raw = (pass table)^[n] raw ∨
        ((pass table)^[n + 1] raw).size < ((pass table)^[n] raw).size) ∧
    ∃ n ≤ raw.size + 2, StopsAfter (pass table) n raw ∧
      sanitizeWith table raw = (pass table)^[n] raw := by
  refine ⟨fun n hn => ?_, exists_stopsAfter_sanitizeWith table raw⟩
  obtain ⟨m, rfl⟩ : ∃ m, n = m + 1 := ⟨n - 1, by omega⟩
  rw [Function.iterate_succ_apply' (pass table) (m + 1)]
  exact (pass_eq_or_lt table (not_mem_iterate_pass table raw m)).imp_right And.left

/-- **A pass leaves a sanitized payload alone.** -/
theorem pass_sanitizeWith (raw : Text) :
    pass table (sanitizeWith table raw) = sanitizeWith table raw := by
  obtain ⟨n, -, hstops, hsettle⟩ := exists_stopsAfter_sanitizeWith table raw
  rw [hsettle]
  exact hstops.apply_iterate

/-- The sanitized texts are those that a pass leaves alone. -/
theorem sanitizeWith_eq_self_iff (t : Text) : sanitizeWith table t = t ↔ pass table t = t := by
  constructor
  · intro h
    have hpass := pass_sanitizeWith table t
    rwa [h] at hpass
  · intro h
    rw [sanitizeWith, settle, h, if_neg (by rw [h]; exact Nat.lt_irrefl _)]

theorem return_not_mem_sanitize (raw : Text) : '\r' ∉ sanitize raw := by
  rw [sanitize, ← pass_sanitizeWith]
  exact not_mem_pass _ _

theorem mark_not_mem_sanitize (raw : Text) : '\ufeff' ∉ sanitize raw := by
  rw [sanitize, ← pass_sanitizeWith]
  exact mark_not_mem_pass _ _

end CribSheet.Payload
