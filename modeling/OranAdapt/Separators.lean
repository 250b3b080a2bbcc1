import Mathlib.Data.List.Basic

/-!
# Texts joined by a separator

Two texts with a separator between them. When the texts may hold the separator
themselves, the joined text does not say where it stands; these are the ways in
which two joined texts can be the same.
-/

namespace Separators

variable {α : Type}

def join (x : α) (as bs : List α) : List α := as ++ x :: bs

/-- The separator of the second text stands later: what lies between the two
ends the first text of one and begins the second text of the other. -/
structure Shifted (x : α) (as bs cs ds : List α) (between : List α) : Prop where
  first : cs = join x as between
  second : bs = join x between ds

theorem Shifted.join_eq {x : α} {as bs cs ds between : List α} (h : Shifted x as bs cs ds between) :
    join x as bs = join x cs ds := by
  rw [h.first, h.second]
  simp [join]

theorem join_eq_iff {x : α} {as bs cs ds : List α} :
    join x as bs = join x cs ds ↔
      as = cs ∧ bs = ds ∨ (∃ between, Shifted x as bs cs ds between) ∨
        ∃ between, Shifted x cs ds as bs between := by
  constructor
  · intro h
    rcases List.append_eq_append_iff.mp h with ⟨mid, hcs, hbs⟩ | ⟨mid, has, hds⟩
    · cases mid with
      | nil =>
        simp only [List.append_nil, List.nil_append, List.cons.injEq, true_and] at hcs hbs
        exact .inl ⟨hcs.symm, hbs⟩
      | cons y between =>
        simp only [List.cons_append, List.cons.injEq] at hbs
        exact .inr (.inl ⟨between, by rw [hcs, ← hbs.1, join], hbs.2⟩)
    · cases mid with
      | nil =>
        simp only [List.append_nil, List.nil_append, List.cons.injEq, true_and] at has hds
        exact .inl ⟨has, hds.symm⟩
      | cons y between =>
        simp only [List.cons_append, List.cons.injEq] at hds
        exact .inr (.inr ⟨between, by rw [has, ← hds.1, join], hds.2⟩)
  · rintro (⟨rfl, rfl⟩ | ⟨between, h⟩ | ⟨between, h⟩)
    · rfl
    · exact h.join_eq
    · exact h.join_eq.symm

theorem Shifted.mem {x : α} {as bs cs ds between : List α} (h : Shifted x as bs cs ds between) : x ∈ bs ∧ x ∈ cs := by
  rw [h.first, h.second]
  simp [join]

theorem Shifted.ne {x : α} {as bs cs ds between : List α} (h : Shifted x as bs cs ds between) : as ≠ cs := by
  intro heq
  have hlength := congrArg List.length h.first
  rw [heq, join, List.length_append, List.length_cons] at hlength
  omega

/-- A second text without the separator says where it begins. -/
theorem join_inj_right {x : α} {as bs cs ds : List α} (hb : x ∉ bs) (hd : x ∉ ds) (h : join x as bs = join x cs ds) :
    as = cs ∧ bs = ds := by
  rcases join_eq_iff.mp h with heq | ⟨between, hs⟩ | ⟨between, hs⟩
  · exact heq
  · exact absurd hs.mem.1 hb
  · exact absurd hs.mem.1 hd

/-- A first text without the separator says where it ends. -/
theorem join_inj_left {x : α} {as bs cs ds : List α} (ha : x ∉ as) (hc : x ∉ cs) (h : join x as bs = join x cs ds) :
    as = cs ∧ bs = ds := by
  rcases join_eq_iff.mp h with heq | ⟨between, hs⟩ | ⟨between, hs⟩
  · exact heq
  · exact absurd hs.mem.2 hc
  · exact absurd hs.mem.2 ha

/-! ## Kept or marked -/

/-- Of texts that are kept or joined to a mark of their own, two become the same only where one that is kept
reads like the other. -/
theorem kept_eq_iff {x : α} {text text' stem stem' mark mark' : List α} {kept kept' : Prop}
    [Decidable kept] [Decidable kept']
    (hne : text ≠ text') (hmark : mark ≠ mark') (hx : x ∉ mark) (hx' : x ∉ mark') :
    (if kept then text else join x stem mark) = (if kept' then text' else join x stem' mark') ↔
      kept ∧ ¬ kept' ∧ text = join x stem' mark' ∨ kept' ∧ ¬ kept ∧ text' = join x stem mark := by
  by_cases hk : kept
  · by_cases hk' : kept'
    · simp [hk, hk', hne]
    · simp [hk, hk']
  · by_cases hk' : kept'
    · simp [hk, hk', eq_comm]
    · have hdiffer : join x stem mark ≠ join x stem' mark' := fun h => hmark (join_inj_right hx hx' h).2
      simp [hk, hk', hdiffer]

/-! ## Records -/

/-- A first text without the separator, and a second text of a known length. -/
structure IsRecord (x : α) (length : Nat) (r : List α × List α) : Prop where
  first : x ∉ r.1
  second : r.2.length = length

/-- Records that follow each other say where each ends. -/
theorem records_inj {x : α} {length : Nat} {rs ts : List (List α × List α)} (hr : ∀ r ∈ rs, IsRecord x length r)
    (ht : ∀ t ∈ ts, IsRecord x length t)
    (h : (rs.flatMap fun r => join x r.1 r.2) = ts.flatMap fun t => join x t.1 t.2) : rs = ts := by
  induction rs generalizing ts with
  | nil =>
    cases ts with
    | nil => rfl
    | cons t ts => simp [join] at h
  | cons r rs ih =>
    cases ts with
    | nil => simp [join] at h
    | cons t ts =>
      have hrhead := hr r (by simp)
      have hthead := ht t (by simp)
      rw [List.flatMap_cons, List.flatMap_cons, join, join, List.append_assoc, List.append_assoc, List.cons_append,
        List.cons_append] at h
      obtain ⟨hfirst, hrest⟩ := join_inj_left hrhead.first hthead.first h
      obtain ⟨hsecond, hrest⟩ := List.append_inj hrest (by rw [hrhead.second, hthead.second])
      rw [ih (fun r h => hr r (by simp [h])) (fun t h => ht t (by simp [h])) hrest, Prod.ext hfirst hsecond]

end Separators
