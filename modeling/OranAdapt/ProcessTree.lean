import Mathlib.Data.Set.Finite.List
import OranAdapt.StackWalk

/-!
# Process trees

`descendants` and `kill_tree` of `core.processes`, on the parents that a
snapshot of the processes shows. The walk keeps no set of what it has found:
it ends unless the process that it starts from is on a cycle of two or more.
-/

namespace OranAdapt.Processes

open StackWalk

abbrev Pid := Nat

structure ParentMap where
  items : List (Pid × Pid)
  keys : (items.map Prod.fst).Nodup

section
variable (parents : ParentMap)

/-- `children.get(pid, [])`: no process is a child of its own. -/
def children (pid : Pid) : List Pid := (parents.items.filter fun p => p.1 ≠ p.2 ∧ p.2 = pid).map Prod.fst

/-- `descendants`, where `fuel` iterations of its loop are enough; the top of the queue comes first. -/
def descendants (fuel : Nat) (root : Pid) : Option (List Pid) :=
  walk (children parents) fuel (children parents root).reverse []

/-- The processes that `kill_tree` terminates, in its order. -/
def killTree (fuel : Nat) (root : Pid) : Option (List Pid) :=
  (descendants parents fuel root).map fun found => found.reverse ++ [root]

/-- By child links one comes from `a` to `b`. -/
abbrev Reaches (a b : Pid) : Prop := Below (children parents) a b

/-- Every process below is found once, and terminated after all of its own where there is no cycle. -/
def KilledCompletely (root : Pid) : Prop :=
  ∃ fuel found order, descendants parents fuel root = some found ∧ killTree parents fuel root = some order ∧
    found.Nodup ∧ root ∉ found ∧ (∀ pid, pid ≠ root → (pid ∈ found ↔ Reaches parents root pid)) ∧
      order.Nodup ∧ ((∀ pid, ¬ Reaches parents pid pid) → ∀ a ∈ order, ∀ b, Reaches parents a b →
        [b, a].Sublist order)

end

variable {parents : ParentMap} {a b root : Pid}

theorem mem_children : b ∈ children parents a ↔ (b, a) ∈ parents.items ∧ b ≠ a := by
  simp only [children, List.mem_map, List.mem_filter, decide_eq_true_eq]
  constructor
  · intro ⟨p, ⟨hmem, hne, hparent⟩, hpid⟩
    subst hparent hpid
    exact ⟨hmem, hne⟩
  · intro ⟨hmem, hne⟩
    exact ⟨(b, a), ⟨hmem, hne, rfl⟩, rfl⟩

theorem children_nodup (a : Pid) : (children parents a).Nodup := parents.keys.sublist (List.filter_sublist.map _)

theorem one_parent : Relator.RightUnique (Child (children parents)) := by
  intro b a a' h h'
  have hmem := (mem_children.mp h).1
  have hmem' := (mem_children.mp h').1
  exact congrArg Prod.snd (List.inj_on_of_nodup_map parents.keys hmem hmem' rfl)

theorem reaches_finite (root : Pid) : {b | Reaches parents root b}.Finite := by
  refine (parents.items.map Prod.fst).finite_toSet.subset ?_
  intro b hb
  obtain ⟨c, hchild, _⟩ := Relation.TransGen.head'_iff.mp hb
  show b ∈ parents.items.map Prod.fst
  exact List.mem_map_of_mem (mem_children.mp hchild).1

theorem killed_completely_iff (parents : ParentMap)
    (root : Pid) : KilledCompletely parents root ↔ ¬ Reaches parents root root := by
  constructor
  · intro ⟨fuel, found, _, hfound, _⟩ hcycle
    rw [descendants, walk_below_self hcycle fuel] at hfound
    cases hfound
  · intro hroot
    obtain ⟨fuel, found, hfound, hnodup, hmem, hbefore⟩ := walk_ends one_parent children_nodup (reaches_finite root) hroot
    have hnot : root ∉ found := fun hin => hroot ((hmem root).mp hin)
    have hdescendants : descendants parents fuel root = some found := hfound
    refine ⟨fuel, found, found.reverse ++ [root], hdescendants, ?_, hnodup, hnot, fun pid _ => hmem pid, ?_, ?_⟩
    · rw [killTree, hdescendants]
      rfl
    · rw [← List.reverse_cons, List.nodup_reverse]
      exact List.nodup_cons.mpr ⟨hnot, hnodup⟩
    · intro _ a ha b hab
      rcases List.mem_append.mp ha with ha | ha
      · have hpair := (hbefore a (List.mem_reverse.mp ha) b hab).reverse
        exact hpair.trans (List.sublist_append_left ..)
      · rw [List.mem_singleton.mp ha] at hab ⊢
        have hin := List.mem_reverse.mpr ((hmem b).mpr hab)
        exact (List.singleton_sublist.mpr hin).append (List.Sublist.refl [root])

def reusedIds : ParentMap := ⟨[(4, 8), (8, 4)], by decide⟩

theorem reused_ids_hang : ¬ ∃ fuel found, descendants reusedIds fuel 4 = some found := by
  intro ⟨fuel, found, hfound⟩
  have hcycle : Reaches reusedIds 4 4 :=
    (below_child (by decide : 8 ∈ children reusedIds 4)).trans (below_child (by decide))
  rw [descendants, walk_below_self hcycle fuel] at hfound
  cases hfound

end OranAdapt.Processes
