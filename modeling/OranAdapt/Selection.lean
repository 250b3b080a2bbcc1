import Mathlib.Data.List.Sort
import Mathlib.Order.Basic
import Mathlib.Order.Defs.LinearOrder
import Mathlib.Order.Lattice

/-!
# Selecting one element of a list

Rows in an order, cut to a number of them, searched for the first that fits:
the search finds the first fit of all rows exactly when fewer than that number
of rows come before it.

A scan that keeps, for one key, the first element of the highest rank, and what
it found: an element of that key that no other element of the key outranks.
-/

namespace FirstFit

variable {α : Type} {le : α → α → Bool} {p : α → Bool} {l : List α} {a b : α} {k : Nat}

def ordered (le : α → α → Bool) (l : List α) : List α := l.insertionSort fun a b => le a b = true

def firstFit (le : α → α → Bool) (p : α → Bool) (k : Nat) (l : List α) : Option α :=
  ((ordered le l).take k).find? p

/-- How many rows come before a row. -/
def rank [DecidableEq α] (le : α → α → Bool) (l : List α) (a : α) : Nat := l.countP fun b => le b a && b != a

/-- The order of the rows of a list. -/
structure Orders (le : α → α → Bool) (l : List α) : Prop where
  total : ∀ a b, le a b = true ∨ le b a = true
  trans : ∀ a b c, le a b = true → le b c = true → le a c = true
  antisymm : ∀ a ∈ l, ∀ b ∈ l, le a b = true → le b a = true → a = b

theorem ordered_perm (le : α → α → Bool) (l : List α) : (ordered le l).Perm l := List.perm_insertionSort _ l

theorem mem_ordered : a ∈ ordered le l ↔ a ∈ l := (ordered_perm le l).mem_iff

theorem Orders.sorted (h : Orders le l) : (ordered le l).Pairwise fun a b => le a b = true := by
  have : IsTrans α fun a b => le a b = true := ⟨h.trans⟩
  have : Std.Total fun a b => le a b = true := ⟨h.total⟩
  exact List.pairwise_insertionSort _ l

section
variable [DecidableEq α]

/-- In a sorted list what comes before a row is what stands before it. -/
theorem Orders.rank_eq {before after : List α} (h : Orders le l) (hn : l.Nodup)
    (hs : ordered le l = before ++ a :: after) : rank le l a = before.length := by
  have hperm : (before ++ a :: after).Perm l := hs ▸ ordered_perm le l
  have hsorted := h.sorted
  rw [hs, List.pairwise_append, List.pairwise_cons] at hsorted
  obtain ⟨-, ⟨hafter, -⟩, hbefore⟩ := hsorted
  have hnodup := hperm.nodup_iff.mpr hn
  rw [List.nodup_append, List.nodup_cons] at hnodup
  obtain ⟨-, ⟨ha, -⟩, hdisj⟩ := hnodup
  have hmem : ∀ b ∈ before ++ a :: after, b ∈ l := fun b hb => hperm.mem_iff.mp hb
  unfold rank
  rw [← hperm.countP_eq, List.countP_append, List.countP_cons]
  have hleft : before.countP (fun b => le b a && b != a) = before.length := by
    rw [List.countP_eq_length]
    intro b hb
    have hne : b ≠ a := hdisj b hb a (List.mem_cons_self ..)
    simp [hbefore b hb a (List.mem_cons_self ..), hne]
  have hright : after.countP (fun b => le b a && b != a) = 0 := by
    rw [List.countP_eq_zero]
    intro b hb hba
    simp only [Bool.and_eq_true, bne_iff_ne, ne_eq] at hba
    apply hba.2
    apply h.antisymm b (hmem b (by simp [hb])) a (hmem a (by simp)) hba.1 (hafter b hb)
  simp [hleft, hright]

theorem Orders.mem_take (h : Orders le l) (hn : l.Nodup) (ha : a ∈ l) :
    a ∈ (ordered le l).take k ↔ rank le l a < k := by
  obtain ⟨before, after, hs⟩ := List.append_of_mem (mem_ordered.mpr ha)
  have hnodup : (before ++ a :: after).Nodup := by
    rw [← hs]; exact (ordered_perm le l).nodup_iff.mpr hn
  rw [h.rank_eq hn hs, hs, List.take_append, List.mem_append]
  have hnot : a ∉ before := fun hb => by
    rw [List.nodup_append] at hnodup
    exact hnodup.2.2 a hb a (List.mem_cons_self ..) rfl
  constructor
  · rintro (hm | hm)
    · exact absurd (List.mem_of_mem_take hm) hnot
    · by_contra hk
      rw [show k - before.length = 0 by omega] at hm
      cases hm
  · intro hk
    right
    rw [show k - before.length = (k - before.length - 1) + 1 by omega, List.take_succ_cons]
    exact List.mem_cons_self ..

/-- The search finds something exactly when something that fits is not cut off. -/
theorem Orders.firstFit_isSome (h : Orders le l) (hn : l.Nodup) :
    (firstFit le p k l).isSome ↔ ∃ a ∈ l, p a = true ∧ rank le l a < k := by
  unfold firstFit
  rw [List.find?_isSome]
  constructor
  · rintro ⟨a, hm, hp⟩
    have ha : a ∈ l := mem_ordered.mp (List.mem_of_mem_take hm)
    exact ⟨a, ha, hp, (h.mem_take hn ha).mp hm⟩
  · rintro ⟨a, ha, hp, hr⟩
    exact ⟨a, (h.mem_take hn ha).mpr hr, hp⟩

end

theorem Orders.first (h : Orders le l) (hf : firstFit le p k l = some a) :
    a ∈ l ∧ p a = true ∧ ∀ b ∈ l, p b = true → le a b = true := by
  obtain ⟨hp, before, after, htake, hbefore⟩ := List.find?_eq_some_iff_append.mp hf
  have hsplit : ordered le l = before ++ a :: (after ++ (ordered le l).drop k) := by
    have hcut := List.take_append_drop k (ordered le l)
    rw [htake, List.append_assoc, List.cons_append] at hcut
    exact hcut.symm
  refine ⟨mem_ordered.mp (by rw [hsplit]; simp), hp, fun b hb hpb => ?_⟩
  have hmem : b ∈ ordered le l := mem_ordered.mpr hb
  have hsorted := h.sorted
  rw [hsplit, List.pairwise_append, List.pairwise_cons] at hsorted
  rw [hsplit, List.mem_append, List.mem_cons] at hmem
  rcases hmem with hin | heq | hin
  · have hno := hbefore b hin
    rw [hpb] at hno
    cases hno
  · subst heq
    rcases h.total b b with ht | ht <;> exact ht
  · exact hsorted.2.1.1 b hin

end FirstFit

namespace Newest

variable {α κ τ : Type} [DecidableEq κ] [LinearOrder τ] (key : α → Option κ) (rank : α → τ) (k : κ)

/-- What the scan holds after one more element. -/
def next (cur : Option α) (a : α) : Option α :=
  if key a = some k then
    match cur with
    | none => some a
    | some c => if rank c < rank a then some a else some c
  else cur

/-- The first of the elements of the key that no other outranks. -/
def newest (l : List α) : Option α := l.foldl (next key rank k) none

variable {key rank k}

theorem next_ranks {cur : Option α} {a n : α} (h : next key rank k cur a = some n) :
    (n = a ∧ key a = some k ∨ cur = some n) ∧ (key a = some k → rank a ≤ rank n) ∧
      ∀ c, cur = some c → rank c ≤ rank n := by
  unfold next at h
  by_cases hk : key a = some k
  · rw [if_pos hk] at h
    cases cur with
    | none =>
      cases h
      exact ⟨.inl ⟨rfl, hk⟩, fun _ => le_refl _, fun c hc => by cases hc⟩
    | some c =>
      by_cases hlt : rank c < rank a
      · simp only [hlt, if_true, Option.some.injEq] at h
        subst h
        exact ⟨.inl ⟨rfl, hk⟩, fun _ => le_refl _, fun d hd => by cases hd; exact le_of_lt hlt⟩
      · simp only [hlt, if_false, Option.some.injEq] at h
        subst h
        exact ⟨.inr rfl, fun _ => not_lt.mp hlt, fun d hd => by cases hd; exact le_refl _⟩
  · rw [if_neg hk] at h
    exact ⟨.inr h, fun hk' => absurd hk' hk, fun c hc => by rw [hc] at h; cases h; exact le_refl _⟩

theorem next_ne_none {cur : Option α} {a : α} (h : cur ≠ none ∨ key a = some k) : next key rank k cur a ≠ none := by
  unfold next
  by_cases hk : key a = some k
  · rw [if_pos hk]
    cases cur with
    | none => simp
    | some c => by_cases hlt : rank c < rank a <;> simp [hlt]
  · rw [if_neg hk]
    exact h.resolve_right hk

theorem foldl_ranks {l : List α} : ∀ {cur : Option α} {n : α}, l.foldl (next key rank k) cur = some n →
    (n ∈ l ∧ key n = some k ∨ cur = some n) ∧ (∀ a ∈ l, key a = some k → rank a ≤ rank n) ∧
      ∀ c, cur = some c → rank c ≤ rank n := by
  induction l with
  | nil =>
    intro cur n h
    refine ⟨.inr h, ?_, ?_⟩
    · intro a ha
      cases ha
    · rintro c rfl
      cases h
      exact le_refl _
  | cons a l ih =>
    intro cur n h
    obtain ⟨hn, hall, hcur⟩ := ih h
    cases hnext : next key rank k cur a with
    | none =>
      have ha : key a ≠ some k := fun hk => next_ne_none (.inr hk) hnext
      have hnone : cur = none := by
        by_contra hne
        exact next_ne_none (.inl hne) hnext
      refine ⟨?_, ?_, fun c hc => by rw [hnone] at hc; cases hc⟩
      · rcases hn with ⟨hmem, hk⟩ | hn
        · exact .inl ⟨List.mem_cons_of_mem _ hmem, hk⟩
        · rw [hnext] at hn
          cases hn
      · intro b hb hk
        rcases List.mem_cons.mp hb with rfl | hb
        · exact absurd hk ha
        · exact hall b hb hk
    | some m =>
      obtain ⟨hm, ha, hc⟩ := next_ranks hnext
      have hmn := hcur m hnext
      refine ⟨?_, ?_, fun c hc' => le_trans (hc c hc') hmn⟩
      · rcases hn with ⟨hmem, hk⟩ | hn
        · exact .inl ⟨List.mem_cons_of_mem _ hmem, hk⟩
        · rw [hnext] at hn
          cases hn
          rcases hm with ⟨rfl, hk⟩ | hm
          · exact .inl ⟨List.mem_cons_self, hk⟩
          · exact .inr hm
      · intro b hb hk
        rcases List.mem_cons.mp hb with rfl | hb
        · exact le_trans (ha hk) hmn
        · exact hall b hb hk

/-- What is held stays where no later element of the key outranks it. -/
theorem foldl_of_le {l : List α} {c : α} (h : ∀ a ∈ l, key a = some k → rank a ≤ rank c) :
    l.foldl (next key rank k) (some c) = some c := by
  induction l with
  | nil => rfl
  | cons a l ih =>
    have hnext : next key rank k (some c) a = some c := by
      by_cases hk : key a = some k
      · simp [next, hk, h a List.mem_cons_self hk]
      · simp [next, hk]
    rw [List.foldl_cons, hnext]
    exact ih fun b hb => h b (List.mem_cons_of_mem _ hb)

theorem newest_mem {l : List α} {n : α} (h : newest key rank k l = some n) : n ∈ l ∧ key n = some k := by
  rcases (foldl_ranks h).1 with hn | hn
  · exact hn
  · cases hn

theorem le_newest {l : List α} {n a : α} (h : newest key rank k l = some n) (ha : a ∈ l) (hk : key a = some k) :
    rank a ≤ rank n :=
  (foldl_ranks h).2.1 a ha hk

theorem foldl_ne_none {l : List α} : ∀ {cur : Option α}, (cur ≠ none ∨ ∃ a ∈ l, key a = some k) →
    l.foldl (next key rank k) cur ≠ none := by
  induction l with
  | nil =>
    rintro cur (h | ⟨a, ha, -⟩)
    · exact h
    · cases ha
  | cons b l ih =>
    intro cur h
    apply ih
    by_cases hb : key b = some k
    · exact .inl (next_ne_none (.inr hb))
    · rcases h with h | ⟨a, ha, hk⟩
      · exact .inl (next_ne_none (.inl h))
      · rcases List.mem_cons.mp ha with rfl | ha
        · exact absurd hk hb
        · exact .inr ⟨a, ha, hk⟩

theorem exists_newest {l : List α} {a : α} (ha : a ∈ l) (hk : key a = some k) : ∃ n, newest key rank k l = some n :=
  Option.ne_none_iff_exists'.mp (foldl_ne_none (.inr ⟨a, ha, hk⟩))

end Newest
