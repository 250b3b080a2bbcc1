import Mathlib.Data.List.Perm.Basic
import Mathlib.Data.List.Sort
import Mathlib.Data.Prod.Lex

/-!
# Sorting

A list put in the order of a key, ties as they stood: what sorting by the key
and then by a number gives when the numbers go up along the list.

`list.sort` and `max` over values that not always compare: `none` is the
TypeError of two that do not. The sort is stable: a value is put behind all
that it is not less than.
-/

namespace StableOrder

variable {α β τ : Type} [LinearOrder τ]

/-- `out` is `l` in the order of `f`, and what ties is in the order of `l`. -/
structure StablyOrdered (f : α → τ) (l out : List α) : Prop where
  sorted : out.Pairwise fun a b => f a ≤ f b
  ties : ∀ t, (out.filter fun a => f a = t) = l.filter fun a => f a = t

namespace StablyOrdered

variable {f : α → τ} {l out out' : List α}

theorem perm (h : StablyOrdered f l out) : out.Perm l := by
  classical
  rw [List.perm_iff_count]
  intro a
  have hcount : ∀ l : List α, l.count a = (l.filter fun b => f b = f a).count a := by
    intro l
    rw [List.count_filter (by simp)]
  rw [hcount, h.ties, ← hcount]

theorem map {g : α → β} {k : β → τ} (hg : ∀ a ∈ l, k (g a) = f a) (h : StablyOrdered f l out) :
    StablyOrdered k (l.map g) (out.map g) := by
  have hout : ∀ a ∈ out, k (g a) = f a := fun a ha => hg a (h.perm.mem_iff.mp ha)
  constructor
  · rw [List.pairwise_map]
    apply h.sorted.imp_of_mem
    intro a b ha hb hab
    rw [hout a ha, hout b hb]
    exact hab
  · have hties : ∀ (t : τ) (m : List α), (∀ a ∈ m, k (g a) = f a) →
        (m.map g).filter (fun b => k b = t) = (m.filter fun a => f a = t).map g := by
      intro t m hm
      rw [List.filter_map]
      congr 1
      apply List.filter_congr
      intro a ha
      simp [hm a ha]
    intro t
    rw [hties t out hout, hties t l hg, h.ties]

theorem filter (p : α → Bool) (h : StablyOrdered f l out) : StablyOrdered f (l.filter p) (out.filter p) := by
  refine ⟨h.sorted.sublist List.filter_sublist, fun t => ?_⟩
  have hcomm : ∀ m : List α, (m.filter p).filter (fun a => f a = t) = (m.filter fun a => f a = t).filter p := by
    intro m
    rw [List.filter_filter, List.filter_filter]
    exact List.filter_congr fun a _ => Bool.and_comm _ _
  rw [hcomm, h.ties, hcomm]

/-- There is one stable order. -/
theorem unique (h : StablyOrdered f l out) (h' : StablyOrdered f l out') : out = out' := by
  have hties : ∀ t, (out.filter fun a => f a = t) = out'.filter fun a => f a = t :=
    fun t => (h.ties t).trans (h'.ties t).symm
  have hperm := h.perm.trans h'.perm.symm
  have hs := h.sorted
  have hs' := h'.sorted
  clear h h'
  induction out generalizing out' with
  | nil => exact hperm.nil_eq
  | cons a out ih =>
    cases out' with
    | nil => exact absurd hperm.length_eq (by simp)
    | cons b out' =>
      rw [List.pairwise_cons] at hs hs'
      have hkeys : f a = f b := by
        apply le_antisymm
        · rcases List.mem_cons.mp (hperm.mem_iff.mpr List.mem_cons_self) with rfl | hb
          · exact le_rfl
          · exact hs.1 b hb
        · rcases List.mem_cons.mp (hperm.mem_iff.mp List.mem_cons_self) with rfl | ha
          · exact le_rfl
          · exact hs'.1 a ha
      have hhead := hties (f b)
      rw [List.filter_cons_of_pos (by simpa using hkeys), List.filter_cons_of_pos (by simp)] at hhead
      obtain ⟨rfl, -⟩ := List.cons_eq_cons.mp hhead
      congr 1
      refine ih (fun t => ?_) ((List.perm_cons a).mp hperm) hs.2 hs'.2
      have ht := hties t
      by_cases hta : f a = t
      · rw [List.filter_cons_of_pos (by simpa using hta), List.filter_cons_of_pos (by simpa using hta)] at ht
        exact (List.cons_eq_cons.mp ht).2
      · rwa [List.filter_cons_of_neg (by simpa using hta), List.filter_cons_of_neg (by simpa using hta)] at ht

theorem mergeSort (f : α → τ) (l : List α) : StablyOrdered f l (l.mergeSort fun a b => decide (f a ≤ f b)) := by
  have htrans : ∀ a b c : α, decide (f a ≤ f b) → decide (f b ≤ f c) → decide (f a ≤ f c) := by
    intro a b c hab hbc
    simp only [decide_eq_true_eq] at hab hbc ⊢
    exact hab.trans hbc
  have htotal : ∀ a b : α, decide (f a ≤ f b) || decide (f b ≤ f a) := by
    intro a b
    simpa using le_total (f a) (f b)
  have hperm := List.mergeSort_perm l fun a b => decide (f a ≤ f b)
  refine ⟨(List.pairwise_mergeSort htrans htotal l).imp (by simp), fun t => ?_⟩
  have hsorted : (l.filter fun a => f a = t).Pairwise fun a b => decide (f a ≤ f b) := by
    rw [List.pairwise_iff_forall_sublist]
    intro a b hab
    have ha := List.of_mem_filter (hab.subset List.mem_cons_self)
    have hb := List.of_mem_filter (hab.subset (List.mem_cons_of_mem a List.mem_cons_self))
    simp only [decide_eq_true_eq] at ha hb ⊢
    rw [ha, hb]
  have hsub := (List.sublist_mergeSort htrans htotal hsorted List.filter_sublist).filter fun a => decide (f a = t)
  rw [List.filter_filter] at hsub
  simp only [Bool.and_self] at hsub
  exact (hsub.eq_of_length (hperm.filter _).length_eq.symm).symm

theorem of_lex {g : α → Int} (hperm : out.Perm l) (hsorted : out.Pairwise fun a b => toLex (f a, g a) ≤ toLex (f b, g b))
    (hnumbers : l.Pairwise fun a b => g a < g b) : StablyOrdered f l out := by
  constructor
  · apply hsorted.imp
    intro a b hab
    rcases Prod.Lex.toLex_le_toLex.mp hab with hlt | ⟨heq, -⟩
    · exact le_of_lt hlt
    · exact le_of_eq heq
  · intro t
    have hout : (out.filter fun a => f a = t).Pairwise fun a b => g a ≤ g b := by
      have hall : (out.filter fun a => f a = t).Pairwise fun a b => toLex (f a, g a) ≤ toLex (f b, g b) :=
        hsorted.sublist List.filter_sublist
      apply hall.imp_of_mem
      intro a b ha hb hab
      have hfa : f a = t := by simpa using List.of_mem_filter ha
      have hfb : f b = t := by simpa using List.of_mem_filter hb
      rcases Prod.Lex.toLex_le_toLex.mp hab with hlt | ⟨-, hle⟩
      · simp only [hfa, hfb] at hlt
        exact absurd hlt (lt_irrefl t)
      · exact hle
    have hl : (l.filter fun a => f a = t).Pairwise fun a b => g a < g b := hnumbers.sublist List.filter_sublist
    have hnodup : (l.map g).Nodup := List.pairwise_map.mpr (hnumbers.imp ne_of_lt)
    refine (hperm.filter _).eq_of_pairwise ?_ hout (hl.imp le_of_lt)
    intro a b ha hb hab hba
    exact List.inj_on_of_nodup_map hnodup (hperm.mem_iff.mp (List.mem_of_mem_filter ha)) (List.mem_of_mem_filter hb)
      (le_antisymm hab hba)

end StablyOrdered

/-- Where no two keys are the same, the order of the keys is one order only. -/
theorem eq_of_sorted_of_nodup {f : α → τ} {l l' : List α} (hperm : l.Perm l') (h : l.Pairwise fun a b => f a ≤ f b)
    (h' : l'.Pairwise fun a b => f a ≤ f b) (hnodup : (l.map f).Nodup) : l = l' := by
  refine hperm.eq_of_pairwise ?_ h h'
  intro a b ha hb hab hba
  exact List.inj_on_of_nodup_map hnodup ha (hperm.mem_iff.mpr hb) (le_antisymm hab hba)

end StableOrder

namespace PySort

variable {α τ : Type} (lt : α → α → Option Bool)

def insertBy (x : α) : List α → Option (List α)
  | [] => some [x]
  | y :: ys =>
    match lt x y with
    | none => none
    | some true => some (x :: y :: ys)
    | some false => (insertBy x ys).map (y :: ·)

def sortBy (xs : List α) : Option (List α) := xs.foldlM (fun sorted x => insertBy lt x sorted) []

/-- `max` of a value and more: the first of the greatest. -/
def maxBy (x : α) (xs : List α) : Option α :=
  xs.foldlM (fun best y => (lt best y).map fun less => if less then y else best) x

variable {lt} {x : α} {xs ys sorted : List α}

theorem insertBy_perm (h : insertBy lt x xs = some ys) : ys.Perm (x :: xs) := by
  induction xs generalizing ys with
  | nil =>
    cases h
    exact .refl _
  | cons y xs ih =>
    rw [insertBy] at h
    split at h
    · cases h
    · cases h
      exact .refl _
    · obtain ⟨zs, hzs, rfl⟩ := Option.map_eq_some_iff.mp h
      exact ((ih hzs).cons y).trans (.swap x y xs)

theorem foldlM_perm (h : xs.foldlM (fun sorted x => insertBy lt x sorted) sorted = some ys) : ys.Perm (xs ++ sorted) := by
  induction xs generalizing sorted with
  | nil =>
    cases h
    exact .refl _
  | cons x xs ih =>
    rw [List.foldlM_cons] at h
    obtain ⟨zs, hzs, h⟩ := Option.bind_eq_some_iff.mp h
    exact (ih h).trans (((insertBy_perm hzs).append_left xs).trans List.perm_middle)

theorem sortBy_perm (h : sortBy lt xs = some ys) : ys.Perm xs := by simpa using foldlM_perm h

/-! ## Values that compare by a key -/

open StableOrder

section
variable [LinearOrder τ] {key : α → τ}

/-- The values compare as their keys do. -/
def ByKey (lt : α → α → Option Bool) (key : α → τ) (xs : List α) : Prop :=
  ∀ a ∈ xs, ∀ b ∈ xs, lt a b = some (decide (key a < key b))

theorem ByKey.mono (h : ByKey lt key xs) (hsub : ys ⊆ xs) : ByKey lt key ys := fun a ha b hb => h a (hsub ha) b (hsub hb)

/-- A value is put behind those of its key. -/
theorem insertBy_stable (hkey : ByKey lt key (x :: xs)) (hsorted : xs.Pairwise fun a b => key a ≤ key b) :
    ∃ ys, insertBy lt x xs = some ys ∧ StablyOrdered key (xs ++ [x]) ys := by
  induction xs with
  | nil => exact ⟨[x], rfl, List.pairwise_singleton _ _, fun _ => rfl⟩
  | cons y xs ih =>
    have hlt := hkey x (by simp) y (by simp)
    obtain ⟨hy, hxs⟩ := List.pairwise_cons.mp hsorted
    by_cases hless : key x < key y
    · have hgreater : ∀ z ∈ y :: xs, key x < key z := by
        intro z hz
        rcases List.mem_cons.mp hz with rfl | hz
        · exact hless
        · exact hless.trans_le (hy z hz)
      refine ⟨x :: y :: xs, by simp [insertBy, hlt, hless], ?_, fun t => ?_⟩
      · exact List.pairwise_cons.mpr ⟨fun z hz => (hgreater z hz).le, hsorted⟩
      · rw [List.filter_append]
        by_cases ht : key x = t
        · have hnone : ((y :: xs).filter fun a => key a = t) = [] := by
            rw [List.filter_eq_nil_iff]
            intro z hz hzt
            exact absurd (ht.trans (of_decide_eq_true hzt).symm) (hgreater z hz).ne
          rw [hnone, List.filter_cons_of_pos (by simpa using ht), hnone]
          simp [ht]
        · rw [List.filter_cons_of_neg (by simpa using ht)]
          simp [ht]
    · obtain ⟨ys, hys, hstable⟩ := ih (hkey.mono (List.cons_subset_cons x (List.subset_cons_self y xs))) hxs
      refine ⟨y :: ys, by simp [insertBy, hlt, hless, hys], ?_, fun t => ?_⟩
      · rw [List.pairwise_cons]
        refine ⟨?_, hstable.sorted⟩
        intro z hz
        rcases List.mem_append.mp (hstable.perm.mem_iff.mp hz) with hz | hz
        · exact hy z hz
        · rw [List.mem_singleton.mp hz]
          exact not_lt.mp hless
      · rw [List.cons_append, List.filter_cons, List.filter_cons, hstable.ties]

theorem foldlM_stable (hkey : ByKey lt key (xs ++ sorted)) {l : List α} (hsorted : StablyOrdered key l sorted) :
    ∃ ys, xs.foldlM (fun sorted x => insertBy lt x sorted) sorted = some ys ∧ StablyOrdered key (l ++ xs) ys := by
  induction xs generalizing sorted l with
  | nil => exact ⟨sorted, rfl, by rwa [List.append_nil]⟩
  | cons x xs ih =>
    have hinsert : ByKey lt key (x :: sorted) := hkey.mono (List.cons_subset_cons x (List.subset_append_right xs sorted))
    obtain ⟨zs, hzs, hstable⟩ := insertBy_stable hinsert hsorted.sorted
    have hrest : xs ++ zs ⊆ x :: xs ++ sorted := fun a ha =>
      ((((insertBy_perm hzs).append_left xs).trans List.perm_middle).mem_iff).mp ha
    have hzs' : StablyOrdered key (l ++ [x]) zs := by
      refine ⟨hstable.sorted, fun t => ?_⟩
      rw [hstable.ties, List.filter_append, List.filter_append, hsorted.ties]
    obtain ⟨ys, hys, hstable⟩ := ih (hkey.mono hrest) hzs'
    refine ⟨ys, by rw [List.foldlM_cons, hzs]; exact hys, ?_⟩
    rwa [List.append_assoc, List.singleton_append] at hstable

theorem sortBy_stable (hkey : ByKey lt key xs) : ∃ ys, sortBy lt xs = some ys ∧ StablyOrdered key xs ys :=
  foldlM_stable (by simpa using hkey) ⟨.nil, fun _ => rfl⟩

theorem maxBy_total (hkey : ByKey lt key (x :: xs)) : ∃ y ∈ x :: xs, maxBy lt x xs = some y := by
  induction xs generalizing x with
  | nil => exact ⟨x, by simp, rfl⟩
  | cons y xs ih =>
    have hlt := hkey x (by simp) y (by simp)
    have hstep : maxBy lt x (y :: xs) = maxBy lt (if key x < key y then y else x) xs := by
      rw [maxBy, List.foldlM_cons, hlt]
      simp [maxBy]
    rw [hstep]
    by_cases hless : key x < key y
    · rw [if_pos hless]
      obtain ⟨z, hz, hmax⟩ := ih (hkey.mono (List.subset_cons_self x (y :: xs)))
      exact ⟨z, .tail _ hz, hmax⟩
    · rw [if_neg hless]
      have hsub := List.cons_subset_cons x (List.subset_cons_self y xs)
      obtain ⟨z, hz, hmax⟩ := ih (hkey.mono hsub)
      exact ⟨z, hsub hz, hmax⟩

end

end PySort
