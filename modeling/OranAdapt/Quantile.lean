import Mathlib.Algebra.Order.BigOperators.Group.List
import Mathlib.Algebra.Order.Floor.Semiring
import Mathlib.Data.List.GetD
import Mathlib.Data.List.Sort
import Mathlib.Tactic.Linarith
import Mathlib.Tactic.Ring

/-!
# Means and quantiles of samples

A quantile of a sample lies between two of its values, interpolated linearly.
What bounds every value of a sample bounds its quantiles.
-/

namespace Quantile

variable {F : Type} [Field F] [LinearOrder F] [IsStrictOrderedRing F]

/-! ## Means -/

def mean (xs : List F) : F := xs.sum / xs.length

theorem mean_le_mean {xs ys : List F} (h : List.Forall₂ (· ≤ ·) xs ys) : mean xs ≤ mean ys := by
  rw [mean, mean, h.length_eq]
  exact div_le_div_of_nonneg_right h.sum_le_sum (Nat.cast_nonneg _)

theorem mean_nonneg {xs : List F} (h : ∀ x ∈ xs, 0 ≤ x) : 0 ≤ mean xs :=
  div_nonneg (List.sum_nonneg h) (Nat.cast_nonneg _)

/-! ## Quantiles -/

omit [IsStrictOrderedRing F] in
theorem getD_sorted {xs : List F} {i : Nat} (h : i < xs.length) :
    (xs.mergeSort (fun x y => decide (x ≤ y))).getD i 0 ∈ xs := by
  have hi : i < (xs.mergeSort (fun x y => decide (x ≤ y))).length := by rwa [List.length_mergeSort]
  rw [List.getD_eq_getElem _ _ hi]
  exact List.mem_mergeSort.mp (List.getElem_mem hi)

section
variable [FloorSemiring F]

/-- The quantile of a sample that is not empty, interpolated linearly between its ranks. -/
def quantile (xs : List F) (q : F) : F :=
  let sorted := xs.mergeSort (fun x y => decide (x ≤ y))
  let position := q * (xs.length - 1)
  let low := ⌊position⌋₊
  sorted.getD low 0 + (position - low) * (sorted.getD (min (low + 1) (xs.length - 1)) 0 - sorted.getD low 0)

variable {xs : List F} {q c : F}

theorem quantile_mixture (hne : xs ≠ []) (h₀ : 0 ≤ q) (h₁ : q ≤ 1) :
    ∃ x ∈ xs, ∃ y ∈ xs, ∃ g, 0 ≤ g ∧ g ≤ 1 ∧ quantile xs q = x + g * (y - x) := by
  have hlen : 1 ≤ xs.length := List.length_pos_iff.mpr hne
  have hcast : ((xs.length - 1 : Nat) : F) = xs.length - 1 := by rw [Nat.cast_sub hlen, Nat.cast_one]
  have hlast : (0 : F) ≤ xs.length - 1 := by rw [← hcast]; exact Nat.cast_nonneg _
  have hpos : 0 ≤ q * (xs.length - 1) := mul_nonneg h₀ hlast
  have hlow : ⌊q * ((xs.length : F) - 1)⌋₊ ≤ xs.length - 1 := by
    rw [← Nat.floor_natCast (R := F) (xs.length - 1), hcast]
    exact Nat.floor_le_floor (mul_le_of_le_one_left hlast h₁)
  have hfirst : ⌊q * ((xs.length : F) - 1)⌋₊ < xs.length := by omega
  have hsecond : min (⌊q * ((xs.length : F) - 1)⌋₊ + 1) (xs.length - 1) < xs.length := by omega
  refine ⟨_, getD_sorted hfirst, _, getD_sorted hsecond, _, ?_, ?_, rfl⟩
  · exact sub_nonneg.mpr (Nat.floor_le hpos)
  · have := Nat.lt_floor_add_one (q * ((xs.length : F) - 1))
    linarith

theorem quantile_le (hne : xs ≠ []) (h₀ : 0 ≤ q) (h₁ : q ≤ 1)
    (h : ∀ x ∈ xs, x ≤ c) : quantile xs q ≤ c := by
  obtain ⟨x, hx, y, hy, g, hg₀, hg₁, heq⟩ := quantile_mixture hne h₀ h₁
  have hmix : x + g * (y - x) = (1 - g) * x + g * y := by ring
  have hleft : (1 - g) * x ≤ (1 - g) * c := mul_le_mul_of_nonneg_left (h x hx) (sub_nonneg.mpr hg₁)
  have hright : g * y ≤ g * c := mul_le_mul_of_nonneg_left (h y hy) hg₀
  rw [heq, hmix]
  linarith

theorem le_quantile (hne : xs ≠ []) (h₀ : 0 ≤ q) (h₁ : q ≤ 1)
    (h : ∀ x ∈ xs, c ≤ x) : c ≤ quantile xs q := by
  obtain ⟨x, hx, y, hy, g, hg₀, hg₁, heq⟩ := quantile_mixture hne h₀ h₁
  have hmix : x + g * (y - x) = (1 - g) * x + g * y := by ring
  have hleft : (1 - g) * c ≤ (1 - g) * x := mul_le_mul_of_nonneg_left (h x hx) (sub_nonneg.mpr hg₁)
  have hright : g * c ≤ g * y := mul_le_mul_of_nonneg_left (h y hy) hg₀
  rw [heq, hmix]
  linarith

end

end Quantile
