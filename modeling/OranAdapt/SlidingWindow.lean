import Mathlib.Algebra.Order.BigOperators.Group.List
import Mathlib.Algebra.Order.Field.Basic
import Mathlib.Algebra.Order.Monoid.Canonical.Defs
import Mathlib.Order.Monotone.Basic
import Mathlib.Tactic.Linarith

/-!
# Spending within a sliding window

A log of entries, each with a time and an amount. A window ends at a time `t`
and starts at `start t`, for a monotone `start`. An entry is written after it
was checked that the window of that moment has room for it; the clock may have
gone on in between. Entries may also be told apart by when they were written:
when each comes one of two distances after all those before it, an interval
holds no more of them than both distances go into it, and one.
-/

namespace SlidingWindow

variable {ρ τ M : Type} [LinearOrder τ] [AddCommMonoid M]
variable (time : ρ → τ) (amount : ρ → M)

def spent (a : τ) (log : List ρ) : M := ((log.filter fun r => a ≤ time r).map amount).sum

def within (a b : τ) (log : List ρ) : M := ((log.filter fun r => a ≤ time r ∧ time r ≤ b).map amount).sum

variable {time amount}

theorem within_append (a b : τ) (log : List ρ) (r : ρ) :
    within time amount a b (log ++ [r]) =
      within time amount a b log + if a ≤ time r ∧ time r ≤ b then amount r else 0 := by
  unfold within
  by_cases h : a ≤ time r ∧ time r ≤ b
  · simp [List.filter_append, h]
  · simp [List.filter_append, h]

theorem within_eq_zero {a : τ} {log : List ρ} (h : ∀ r ∈ log, time r < a)
    (b : τ) : within time amount a b log = 0 := by
  have hnil : log.filter (fun r => a ≤ time r ∧ time r ≤ b) = [] := by
    rw [List.filter_eq_nil_iff]
    intro r hr hin
    exact absurd (of_decide_eq_true hin).1 (not_le.mpr (h r hr))
  rw [within, hnil]
  rfl

theorem within_congr {b b' : τ} {log : List ρ} (h : ∀ r ∈ log, time r ≤ b ∧ time r ≤ b') (a : τ) :
    within time amount a b log = within time amount a b' log := by
  rw [within, within]
  congr 2
  apply List.filter_congr
  intro r hr
  simp only [h r hr, and_true]

variable [PartialOrder M]

/-- Every window of the log, wherever it ends, holds at most `cap`. -/
def Capped (time : ρ → τ) (amount : ρ → M) (start : τ → τ) (cap : M) (log : List ρ) : Prop :=
  ∀ t, within time amount (start t) t log ≤ cap

theorem Capped.nil [CanonicallyOrderedAdd M] (start : τ → τ) (cap : M) : Capped time amount start cap [] :=
  fun _ => zero_le

variable [IsOrderedAddMonoid M] [CanonicallyOrderedAdd M]

theorem sum_le_of_sublist {l l' : List ρ} (h : l.Sublist l') : (l.map amount).sum ≤ (l'.map amount).sum :=
  (h.map amount).sum_le_sum fun _ _ => zero_le

theorem spent_anti {a b : τ} (h : a ≤ b) (log : List ρ) : spent time amount b log ≤ spent time amount a log := by
  apply sum_le_of_sublist
  apply List.monotone_filter_right
  intro r hr
  simp only [decide_eq_true_eq] at hr ⊢
  exact h.trans hr

theorem within_le_spent (a b : τ) (log : List ρ) : within time amount a b log ≤ spent time amount a log := by
  apply sum_le_of_sublist
  apply List.monotone_filter_right
  intro r hr
  simp only [decide_eq_true_eq] at hr ⊢
  exact hr.1

/-- An entry keeps every window capped when the window that ended at some moment before it had room for it. -/
theorem Capped.append {start : τ → τ} {cap : M} {log : List ρ} {r : ρ} {checked : τ}
    (h : Capped time amount start cap log)
    (hmono : Monotone start) (hle : checked ≤ time r)
    (hroom : spent time amount (start checked) log + amount r ≤ cap) : Capped time amount start cap (log ++ [r]) := by
  intro t
  rw [within_append]
  by_cases ht : time r ≤ t
  · calc within time amount (start t) t log + (if start t ≤ time r ∧ time r ≤ t then amount r else 0)
        ≤ spent time amount (start checked) log + amount r := by
          apply add_le_add
          · exact (within_le_spent _ _ log).trans (spent_anti (hmono (hle.trans ht)) log)
          · split
            · exact le_rfl
            · exact zero_le
      _ ≤ cap := hroom
  · rw [if_neg fun hr => ht hr.2, add_zero]
    exact h t

end SlidingWindow

namespace Spacing

open SlidingWindow

variable {ρ K : Type} [Field K] [LinearOrder K]

def count (time : ρ → K) (a b : K) (log : List ρ) : Nat := within time (fun _ => 1) a b log

/-- No interval holds more entries than `d` and `e` go into it, and one. -/
def Sparse (time : ρ → K) (d e : K) (log : List ρ) : Prop :=
  ∀ a b, a ≤ b → (count time a b log : K) ≤ 1 + (b - a) / d + (b - a) / e

variable [IsStrictOrderedRing K] {time : ρ → K} {d e : K} {log : List ρ} {r : ρ}

theorem Sparse.nil (hd : 0 < d) (he : 0 < e) : Sparse time d e [] := by
  intro a b hab
  have hdiff := sub_nonneg.mpr hab
  have h₁ := div_nonneg hdiff hd.le
  have h₂ := div_nonneg hdiff he.le
  simp only [count, within, List.filter_nil, List.map_nil, List.sum_nil, Nat.cast_zero]
  linarith

/-- A further entry at a distance that both `d` and `e` go into once together. -/
theorem Sparse.append (h : Sparse time d e log) (hd : 0 < d) (he : 0 < e) {g : K} (hg : 1 ≤ g / d + g / e)
    (hafter : ∀ f ∈ log, time f + g ≤ time r) : Sparse time d e (log ++ [r]) := by
  intro a b hab
  rw [count, within_append]
  by_cases hin : a ≤ time r ∧ time r ≤ b
  · have hwide : ∀ c, 0 < c → (time r - a) / c ≤ (b - a) / c := fun c hc =>
      div_le_div_of_nonneg_right (by linarith [hin.2]) hc.le
    have hd' := hwide d hd
    have he' := hwide e he
    rw [if_pos hin, Nat.cast_add, Nat.cast_one]
    by_cases hstart : a ≤ time r - g
    · have hgap : 0 ≤ g := by
        by_contra hneg
        have h₁ := div_neg_of_neg_of_pos (not_le.mp hneg) hd
        have h₂ := div_neg_of_neg_of_pos (not_le.mp hneg) he
        linarith
      have hold := h a (time r - g) hstart
      have hsame : within time (fun _ => 1) a b log = count time a (time r - g) log :=
        within_congr (fun f hf => ⟨by linarith [hafter f hf, hin.2], by linarith [hafter f hf]⟩) a
      have hsplit : ∀ c, (time r - g - a) / c = (time r - a) / c - g / c := fun c => by
        rw [← sub_div, sub_right_comm]
      rw [hsplit d, hsplit e] at hold
      rw [hsame]
      linarith
    · have hnone : within time (fun _ => 1) a b log = 0 :=
        within_eq_zero (fun f hf => by linarith [hafter f hf, not_le.mp hstart]) b
      have h₁ := div_nonneg (sub_nonneg.mpr hin.1) hd.le
      have h₂ := div_nonneg (sub_nonneg.mpr hin.1) he.le
      rw [hnone, Nat.cast_zero]
      linarith
  · rw [if_neg hin, add_zero]
    exact h a b hab

theorem Sparse.append_left (h : Sparse time d e log) (hd : 0 < d) (he : 0 < e)
    (hafter : ∀ f ∈ log, time f + d ≤ time r) :
    Sparse time d e (log ++ [r]) := by
  refine h.append hd he ?_ hafter
  rw [div_self hd.ne']
  exact le_add_of_nonneg_right (div_pos hd he).le

theorem Sparse.append_right (h : Sparse time d e log) (hd : 0 < d) (he : 0 < e)
    (hafter : ∀ f ∈ log, time f + e ≤ time r) :
    Sparse time d e (log ++ [r]) := by
  refine h.append hd he ?_ hafter
  rw [div_self he.ne']
  exact le_add_of_nonneg_left (div_pos he hd).le

end Spacing
