import Mathlib.Algebra.Order.BigOperators.Group.List
import Mathlib.Algebra.Order.Ring.Rat
import OranAdapt.Table

/-!
# States read cell by cell

Events that add to each cell an amount of their own, whatever the state is, move
two states by the same amounts. Entries under distinct keys that are applied one
after the other change a cell only through the entry under the cell's key.
-/

namespace Gains

variable {σ α ι : Type}

/-- Each event adds an amount of its own, never a negative one, to each cell. -/
structure Additive (step : σ → α → σ) (read : σ → ι → Rat) where
  bump : α → ι → Rat
  bump_nonneg : ∀ a c, 0 ≤ bump a c
  read_step : ∀ s a c, read (step s a) c = read s c + bump a c

namespace Additive

variable {step : σ → α → σ} {read : σ → ι → Rat} (A : Additive step read)

/-- What a run adds to a cell. -/
def gain (as : List α) (c : ι) : Rat := (as.map fun a => A.bump a c).sum

theorem gain_nonneg (as : List α) (c : ι) : 0 ≤ A.gain as c := by
  apply List.sum_nonneg
  intro amount h
  obtain ⟨a, -, rfl⟩ := List.mem_map.mp h
  exact A.bump_nonneg a c

theorem read_run (as : List α) (s : σ) (c : ι) : read (as.foldl step s) c = read s c + A.gain as c := by
  induction as generalizing s with
  | nil => exact (add_zero _).symm
  | cons a as ih =>
    rw [List.foldl_cons, ih, A.read_step, add_assoc, gain, gain, List.map_cons, List.sum_cons]

end Additive

section Slots

variable {κ β γ : Type} [DecidableEq κ] {step : σ → κ × β → σ} (read : σ → γ)
  {key : κ} (f : γ → β → γ)

/-- A cell that only the entry under `key` changes reads what that entry makes of it. -/
theorem foldl_slot {entries : List (κ × β)} (hn : (entries.map Prod.fst).Nodup)
    (hstep : ∀ p ∈ entries, ∀ s, read (step s p) = if p.1 = key then f (read s) p.2 else read s) (s : σ) :
    read (entries.foldl step s) = (entries.lookup key).elim (read s) (f (read s)) := by
  induction entries generalizing s with
  | nil => rfl
  | cons p entries ih =>
    rw [List.map_cons, List.nodup_cons] at hn
    have hhead := hstep p (List.mem_cons_self ..) s
    rw [List.foldl_cons, ih hn.2 (fun q hq => hstep q (List.mem_cons_of_mem _ hq)), Table.lookup_cons_if]
    by_cases hk : p.1 = key
    · have hnone : entries.lookup key = none := by
        rw [List.lookup_eq_none_iff]
        intro q hq
        have : key ≠ q.1 := fun e => hn.1 (hk ▸ e ▸ List.mem_map_of_mem hq)
        simpa using this
      rw [hnone, if_pos hk.symm, hhead, if_pos hk]
      rfl
    · rw [if_neg (fun e => hk e.symm), hhead, if_neg hk]

end Slots

end Gains
