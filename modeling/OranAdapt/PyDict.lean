import OranAdapt.Table

/-!
# Dicts updated key by key

A dict is a table whose keys keep the place they were first given. Of several
values set under one key the last one stays.
-/

namespace Table

variable {κ ρ : Type} [DecidableEq κ]

def update (d : Table κ ρ) (items : List (κ × ρ)) : Table κ ρ := items.foldl (fun d p => d.put p.1 p.2) d

def keys (d : Table κ ρ) : List κ := d.rows.map Prod.fst

theorem mem_keys {d : Table κ ρ} {k : κ} : k ∈ d.keys ↔ d.get? k ≠ none := by
  rw [Ne, get?_eq_none, Decidable.not_not]
  rfl

theorem update_append (d : Table κ ρ) (items more : List (κ × ρ)) :
    d.update (items ++ more) = (d.update items).update more :=
  List.foldl_append

theorem get?_update (d : Table κ ρ) (items : List (κ × ρ)) (k : κ) :
    (d.update items).get? k = (items.reverse.lookup k).or (d.get? k) := by
  induction items generalizing d with
  | nil => simp [update]
  | cons p items ih =>
    have hstep : d.update (p :: items) = (d.put p.1 p.2).update items := rfl
    rw [hstep, ih, get?_put, List.reverse_cons, List.lookup_append, lookup_cons_if, List.lookup_nil]
    by_cases hk : k = p.1
    · cases items.reverse.lookup k <;> simp [hk]
    · simp [hk]

theorem lookup_reverse {l : List (κ × ρ)} (h : (l.map Prod.fst).Nodup) (k : κ) : l.reverse.lookup k = l.lookup k := by
  cases hk : l.lookup k with
  | none =>
    rw [List.lookup_eq_none_iff] at hk ⊢
    intro p hp
    exact hk p (List.mem_reverse.mp hp)
  | some r =>
    apply lookup_of_mem
    · rw [List.map_reverse]
      exact List.nodup_reverse.mpr h
    · exact List.mem_reverse.mpr (lookup_mem hk)

theorem get?_update_rows (d other : Table κ ρ) (k : κ) : (d.update other.rows).get? k = (other.get? k).or (d.get? k) := by
  rw [get?_update, lookup_reverse other.nodup]
  rfl

/-- A value is kept where every value set under its key is the same. -/
theorem get?_update_of_mem {d : Table κ ρ} {items : List (κ × ρ)} {k : κ} {r : ρ} (h : (k, r) ∈ items)
    (hsame : ∀ r', (k, r') ∈ items → r' = r) : (d.update items).get? k = some r := by
  rw [get?_update]
  cases hk : items.reverse.lookup k with
  | none =>
    have := List.lookup_eq_none_iff.mp hk (k, r) (List.mem_reverse.mpr h)
    simp at this
  | some r' =>
    have hmem := List.mem_reverse.mp (lookup_mem hk)
    simp [hsame r' hmem]

theorem mem_keys_update {d : Table κ ρ} {items : List (κ × ρ)} {k : κ} :
    k ∈ (d.update items).keys ↔ k ∈ items.map Prod.fst ∨ k ∈ d.keys := by
  rw [mem_keys, mem_keys, get?_update, Ne, Option.or_eq_none_iff, not_and_or]
  apply or_congr_left
  rw [List.lookup_eq_none_iff]
  constructor
  · intro h
    by_contra hnone
    apply h
    intro p hp
    have : k ≠ p.1 := by
      rintro rfl
      exact hnone (List.mem_map_of_mem (List.mem_reverse.mp hp))
    simpa using this
  · intro h hnone
    obtain ⟨p, hp, rfl⟩ := List.mem_map.mp h
    have := hnone p (List.mem_reverse.mpr hp)
    simp at this

end Table
