import Mathlib.Data.List.Nodup

/-!
# Keyed tables

A relational table with a primary key, as the list of its rows in the order
they were inserted. Keys are unique by construction: an insert of a key that
is taken is refused (an integrity error), updates and deletes keep the key
column's uniqueness. `get?` reads a row by its key, and the lemmas say what it
reads after each write.
-/

/-- Rows under unique keys, oldest first. -/
structure Table (κ ρ : Type) where
  rows : List (κ × ρ)
  nodup : (rows.map Prod.fst).Nodup

namespace Table

variable {κ ρ : Type} [DecidableEq κ]

def empty : Table κ ρ := ⟨[], List.nodup_nil⟩

def get? (t : Table κ ρ) (k : κ) : Option ρ := t.rows.lookup k

/-- `INSERT`: `none` is the integrity error of a key already present. -/
def insert? (t : Table κ ρ) (k : κ) (r : ρ) : Option (Table κ ρ) :=
  if h : k ∈ t.rows.map Prod.fst then none
  else some ⟨t.rows ++ [(k, r)], by
    rw [List.map_append, List.map_singleton, List.nodup_append]
    refine ⟨t.nodup, List.nodup_singleton k, ?_⟩
    intro a ha b hb hab
    rw [List.mem_singleton] at hb
    rw [hab, hb] at ha
    exact h ha⟩

def modify (t : Table κ ρ) (k : κ) (f : ρ → ρ) : Table κ ρ :=
  ⟨t.rows.map fun p => if p.1 = k then (p.1, f p.2) else p, by
    have hkey : Prod.fst ∘ (fun p : κ × ρ => if p.1 = k then (p.1, f p.2) else p) = Prod.fst := by
      funext p
      by_cases h : p.1 = k <;> simp [h]
    rw [List.map_map, hkey]
    exact t.nodup⟩

def updateWhere? (t : Table κ ρ) (k : κ) (p : ρ → Bool) (f : ρ → ρ) : Option (Table κ ρ) :=
  match t.get? k with
  | some r => if p r then some (t.modify k f) else none
  | none => none

def keep (t : Table κ ρ) (p : κ → ρ → Bool) : Table κ ρ :=
  ⟨t.rows.filter fun x => p x.1 x.2, (List.Sublist.map Prod.fst List.filter_sublist).nodup t.nodup⟩

/-- `t[k] = r`: in place for a key that is there, at the end for a new one. -/
def put (t : Table κ ρ) (k : κ) (r : ρ) : Table κ ρ := (t.insert? k r).getD (t.modify k fun _ => r)

/-! ## Reading by key -/

omit [DecidableEq κ] in
theorem ext_rows {t t' : Table κ ρ} (h : t.rows = t'.rows) : t = t' := by
  cases t; cases t'; simp_all

@[simp] theorem get?_empty (k : κ) : (empty : Table κ ρ).get? k = none := rfl

theorem lookup_cons_if (p : κ × ρ) (l : List (κ × ρ)) (k : κ) :
    (p :: l).lookup k = if k = p.1 then some p.2 else l.lookup k := by
  obtain ⟨a, r⟩ := p
  rw [List.lookup_cons]
  by_cases h : k = a
  · simp [h]
  · rw [beq_eq_false_iff_ne.mpr h, if_neg h]

theorem lookup_mem {l : List (κ × ρ)} {k : κ} {r : ρ} (h : l.lookup k = some r) : (k, r) ∈ l := by
  obtain ⟨l₁, l₂, rfl, _⟩ := List.lookup_eq_some_iff.mp h
  exact List.mem_append_right _ (List.mem_cons_self ..)

theorem lookup_of_mem {k : κ} {r : ρ} : ∀ {l : List (κ × ρ)}, (l.map Prod.fst).Nodup → (k, r) ∈ l →
    l.lookup k = some r
  | [], _, h => by cases h
  | p :: l, hn, h => by
    rw [List.map_cons, List.nodup_cons] at hn
    rw [lookup_cons_if]
    rcases List.mem_cons.mp h with rfl | h
    · simp
    · have hne : k ≠ p.1 := fun e => hn.1 (List.mem_map.mpr ⟨_, h, e⟩)
      rw [if_neg hne]
      exact lookup_of_mem hn.2 h

/-- A row is stored exactly when it is what its key reads. -/
theorem mem_rows {t : Table κ ρ} {k : κ} {r : ρ} : (k, r) ∈ t.rows ↔ t.get? k = some r :=
  ⟨lookup_of_mem t.nodup, lookup_mem⟩

theorem get?_eq_none {t : Table κ ρ} {k : κ} : t.get? k = none ↔ k ∉ t.rows.map Prod.fst := by
  rw [get?, List.lookup_eq_none_iff]
  simp only [List.mem_map, not_exists, not_and, bne_iff_ne, ne_eq]
  exact ⟨fun h p hp e => h p hp e.symm, fun h p hp e => h p hp e.symm⟩

theorem insert?_eq_none {t : Table κ ρ} {k : κ} {r : ρ} : t.insert? k r = none ↔ t.get? k ≠ none := by
  rw [insert?, Ne, get?_eq_none, Decidable.not_not]
  split <;> simp_all

theorem rows_insert? {t t' : Table κ ρ} {k : κ} {r : ρ} (h : t.insert? k r = some t') :
    t'.rows = t.rows ++ [(k, r)] := by
  unfold insert? at h
  split at h <;> cases h
  rfl

theorem get?_insert? {t t' : Table κ ρ} {k : κ} {r : ρ} (h : t.insert? k r = some t') (k' : κ) :
    t'.get? k' = if k' = k then some r else t.get? k' := by
  unfold insert? at h
  split at h
  · cases h
  rename_i hk
  rw [Option.some.injEq] at h; subst h
  simp only [get?, List.lookup_append, lookup_cons_if, List.lookup_nil]
  by_cases hkk : k' = k
  · subst hkk
    have : t.rows.lookup k' = none := get?_eq_none.mpr hk
    simp [this]
  · simp [hkk]

theorem insert?_fresh {t t' : Table κ ρ} {k : κ} {r : ρ} (h : t.insert? k r = some t') :
    t.get? k = none := by
  cases hg : t.get? k with
  | none => rfl
  | some _ => rw [insert?_eq_none.mpr (by simp [hg])] at h; cases h

theorem lookup_modify (k k' : κ) (f : ρ → ρ) (l : List (κ × ρ)) :
    (l.map fun p => if p.1 = k then (p.1, f p.2) else p).lookup k' =
      if k' = k then (l.lookup k').map f else l.lookup k' := by
  induction l with
  | nil => simp
  | cons p l ih =>
    simp only [List.map_cons, lookup_cons_if]
    by_cases hp : p.1 = k
    · by_cases hk : k' = k
      · simp [hk, hp]
      · simp [hp, hk, ih]
    · by_cases hk : k' = p.1
      · simp [hk, hp]
      · simp [hp, hk, ih]

@[simp] theorem get?_modify (t : Table κ ρ) (k k' : κ) (f : ρ → ρ) :
    (t.modify k f).get? k' = if k' = k then (t.get? k').map f else t.get? k' :=
  lookup_modify k k' f t.rows

theorem get?_put (t : Table κ ρ) (k : κ) (r : ρ) (k' : κ) : (t.put k r).get? k' = if k' = k then some r
    else t.get? k' := by
  unfold put
  cases h : t.insert? k r with
  | some t' => exact get?_insert? h k'
  | none =>
    rw [insert?_eq_none, Option.ne_none_iff_exists'] at h
    obtain ⟨old, hold⟩ := h
    rw [Option.getD_none, get?_modify]
    by_cases hk : k' = k
    · simp [hk, hold]
    · simp [hk]

/-- A change that changes no row under the key. -/
theorem modify_same {t : Table κ ρ} {k : κ} {f : ρ → ρ}
    (h : ∀ r, t.get? k = some r → f r = r) : t.modify k f = t := by
  apply ext_rows
  have hrow : ∀ p ∈ t.rows, (if p.1 = k then (p.1, f p.2) else p) = p := by
    intro p hp
    by_cases hk : p.1 = k
    · rw [if_pos hk, h p.2 (hk ▸ mem_rows.mp hp)]
    · rw [if_neg hk]
  exact (List.map_congr_left hrow).trans (List.map_id _)

theorem put_same {t : Table κ ρ} {k : κ} {r : ρ} (h : t.get? k = some r) : t.put k r = t := by
  have hnone : t.insert? k r = none := insert?_eq_none.mpr (by simp [h])
  rw [put, hnone, Option.getD_none]
  apply modify_same
  intro old hold
  rw [h] at hold
  exact Option.some.inj hold

theorem updateWhere?_eq_some {t t' : Table κ ρ} {k : κ} {p : ρ → Bool} {f : ρ → ρ}
    (h : t.updateWhere? k p f = some t') :
    ∃ r, t.get? k = some r ∧ p r = true ∧ t' = t.modify k f := by
  unfold updateWhere? at h
  split at h
  · rename_i r hr
    split at h
    · rename_i hp
      exact ⟨r, hr, hp, (Option.some.inj h).symm⟩
    · cases h
  · cases h

theorem updateWhere?_eq_none {t : Table κ ρ} {k : κ} {p : ρ → Bool} {f : ρ → ρ} :
    t.updateWhere? k p f = none ↔ ∀ r, t.get? k = some r → p r = false := by
  unfold updateWhere?
  cases hr : t.get? k with
  | none => simp
  | some r => by_cases hp : p r = true <;> simp [hp]

theorem lookup_filter (p : κ → ρ → Bool) (k : κ) : ∀ l : List (κ × ρ), (l.map Prod.fst).Nodup →
    (l.filter fun x => p x.1 x.2).lookup k = (l.lookup k).filter (p k)
  | [], _ => rfl
  | x :: l, hn => by
    rw [List.map_cons, List.nodup_cons] at hn
    have ih := lookup_filter p k l hn.2
    by_cases hk : k = x.1
    · subst hk
      have hno : (l.filter fun x => p x.1 x.2).lookup x.1 = none := by
        rw [List.lookup_eq_none_iff]
        intro y hy
        have : y.1 ≠ x.1 := fun e => hn.1 (e ▸ List.mem_map_of_mem (f := Prod.fst) (List.mem_of_mem_filter hy))
        simpa using this.symm
      by_cases hp : p x.1 x.2 = true
      · simp [hp, lookup_cons_if, Option.filter]
      · simp [hp, lookup_cons_if, Option.filter, hno]
    · by_cases hp : p x.1 x.2 = true
      · simp [hp, lookup_cons_if, hk, ih]
      · simp [hp, lookup_cons_if, hk, ih]

@[simp] theorem get?_keep (t : Table κ ρ) (p : κ → ρ → Bool) (k : κ) :
    (t.keep p).get? k = (t.get? k).filter (p k) :=
  lookup_filter p k t.rows t.nodup

theorem get?_keep_some {t : Table κ ρ} {p : κ → ρ → Bool} {k : κ} {r : ρ} :
    (t.keep p).get? k = some r ↔ t.get? k = some r ∧ p k r = true := by
  rw [get?_keep, Option.filter_eq_some_iff]

/-! ## Selecting rows -/

/-- The rows with a property are those whose key reads a row with it. -/
theorem mem_select {t : Table κ ρ} {p : κ × ρ → Bool} {k : κ} {r : ρ} :
    (k, r) ∈ t.rows.filter p ↔ t.get? k = some r ∧ p (k, r) = true := by
  rw [List.mem_filter, mem_rows]

end Table
