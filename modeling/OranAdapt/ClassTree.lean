import Mathlib.Algebra.BigOperators.Group.List.Basic
import Mathlib.Data.List.Basic

/-!
# Searching a tree

A tree with any number of children at a node, and a depth-first search with a
stack: it finds a value that only one node has.
-/

namespace ClassTree

inductive Tree (α : Type) where
  | node (value : α) (children : List (Tree α))

variable {α : Type}

namespace Tree

mutual

def values : Tree α → List α
  | node a children => a :: forest children

def forest : List (Tree α) → List α
  | [] => []
  | t :: ts => values t ++ forest ts

end

theorem forest_eq (ts : List (Tree α)) : forest ts = ts.flatMap values := by
  induction ts with
  | nil => rfl
  | cons t ts ih => simp [forest, ih]

theorem forest_append (ts us : List (Tree α)) : forest (ts ++ us) = forest ts ++ forest us := by
  simp [forest_eq]

theorem mem_forest_reverse {a : α} {ts : List (Tree α)} : a ∈ forest ts.reverse ↔ a ∈ forest ts := by
  simp [forest_eq]

theorem length_forest_reverse (ts : List (Tree α)) : (forest ts.reverse).length = (forest ts).length := by
  simp [forest_eq, List.length_flatMap, List.map_reverse, List.sum_reverse]

/-- Take a tree off the stack; unless its value will do, put its children there. -/
def search (p : α → Bool) : List (Tree α) → Option α
  | [] => none
  | node a children :: ts => if p a then some a else search p (children.reverse ++ ts)
termination_by stack => (forest stack).length
decreasing_by simp [forest, values, forest_append, length_forest_reverse]

/-- The search finds a value that no other value of the stack passes for. -/
theorem search_unique {p : α → Bool} {a : α} {stack : List (Tree α)} (ha : a ∈ forest stack) (hp : p a = true)
    (hunique : ∀ b ∈ forest stack, p b = true → b = a) : search p stack = some a := by
  induction stack using search.induct p with
  | case1 => cases ha
  | case2 b children ts hb =>
    have hsame : b = a := hunique b (by simp [forest, values]) hb
    rw [search, if_pos hb, hsame]
  | case3 b children ts hb ih =>
    rw [search, if_neg hb]
    have hattach : children.attach.reverse.unattach = children.reverse := by simp
    rw [hattach] at ih
    have hrest {c : α} : c ∈ forest (children.reverse ++ ts) ↔ c ∈ forest children ∨ c ∈ forest ts := by
      rw [forest_append, List.mem_append, mem_forest_reverse]
    apply ih
    · simp only [forest, values, List.cons_append, List.mem_cons, List.mem_append] at ha
      rcases ha with rfl | ha
      · exact absurd hp hb
      · exact hrest.mpr ha
    · intro c hc
      apply hunique
      simp only [forest, values, List.cons_append, List.mem_cons, List.mem_append]
      exact .inr (hrest.mp hc)

end Tree

end ClassTree
