import Mathlib.Data.Fintype.Card
import Mathlib.Data.List.Nodup
import Mathlib.Logic.Relation

/-!
# Walking with a stack

A depth-first walk along the children of values, which remembers nothing of
where it has been. Where no value has two parents, it ends if and only if the
value that it starts from is not below itself; it has then found each value
below once, a value before all those below it.
-/

namespace StackWalk

open Relation

section
variable {α : Type} (children : α → List α)

/-- The walk takes a value off the stack and puts its children there, as long as the fuel lasts. -/
def walk : Nat → List α → List α → Option (List α)
  | 0, _, _ => none
  | _ + 1, [], found => some found
  | fuel + 1, a :: stack, found => walk fuel ((children a).reverse ++ stack) (found ++ [a])

def Child (b a : α) : Prop := b ∈ children a

/-- From `b` one comes to `a` by one parent after another. -/
def Below (a b : α) : Prop := TransGen (Child children) b a

/-- What is found from a stack that is walked to its end. -/
inductive Visits : List α → List α → Prop where
  | nil : Visits [] []
  | cons {a : α} {below stack out : List α} (inside : Visits (children a).reverse below) (rest : Visits stack out) :
    Visits (a :: stack) (a :: (below ++ out))

end

variable {α : Type} {children : α → List α} {a b c root : α} {stack out : List α}

theorem Below.trans (hab : Below children a b) (hbc : Below children b c) : Below children a c := TransGen.trans hbc hab

theorem below_child (h : b ∈ children a) : Below children a b := .single h

theorem below_iff : Below children a b ↔ ∃ c ∈ children a, c = b ∨ Below children c b := by
  unfold Below
  rw [TransGen.tail'_iff]
  constructor
  · intro ⟨c, hbelow, hchild⟩
    refine ⟨c, hchild, ?_⟩
    rcases reflTransGen_iff_eq_or_transGen.mp hbelow with rfl | hbelow
    · exact .inl rfl
    · exact .inr hbelow
  · intro ⟨c, hchild, hbelow⟩
    refine ⟨c, ?_, hchild⟩
    rcases hbelow with rfl | hbelow
    · exact .refl
    · exact hbelow.to_reflTransGen

/-! ## A walk that ends -/

theorem Visits.walk (h : Visits children stack out) (fuel : Nat) (later found : List α) :
    walk children (out.length + fuel) (stack ++ later) found = StackWalk.walk children fuel later (found ++ out) := by
  induction h generalizing fuel later found with
  | nil => rw [List.length_nil, Nat.zero_add, List.nil_append, List.append_nil]
  | @cons a below stack out _ _ ihinside ihrest =>
    rw [List.length_cons, List.length_append, show below.length + out.length + 1 + fuel =
      below.length + (out.length + fuel) + 1 by omega,
      List.cons_append, StackWalk.walk, ihinside, ihrest]
    simp

theorem Visits.mem_iff (h : Visits children stack out) : b ∈ out ↔ ∃ a ∈ stack, a = b ∨ Below children a b := by
  induction h with
  | nil => simp
  | @cons a below stack out _ _ ihinside ihrest =>
    have hbelow : b ∈ below ↔ Below children a b := by
      rw [ihinside, below_iff]
      simp only [List.mem_reverse]
    rw [List.mem_cons, List.mem_append, hbelow, ihrest, List.exists_mem_cons_iff, ← or_assoc, eq_comm]

theorem Visits.before (h : Visits children stack out) (ha : a ∈ out) (hb : Below children a b) : [a, b].Sublist out := by
  induction h with
  | nil => cases ha
  | @cons c below stack out inside rest ihinside ihrest =>
    rcases List.mem_cons.mp ha with rfl | ha
    · have hmem : b ∈ below := by
        rw [inside.mem_iff]
        simpa only [List.mem_reverse] using below_iff.mp hb
      exact (List.singleton_sublist.mpr (List.mem_append_left _ hmem)).cons_cons a
    · apply List.Sublist.cons
      rcases List.mem_append.mp ha with ha | ha
      · exact (ihinside ha).trans (List.sublist_append_left ..)
      · exact (ihrest ha).trans (List.sublist_append_right ..)

theorem visits_of_each (h : ∀ a ∈ stack, ∃ below, Visits children (children a).reverse below) :
    ∃ out, Visits children stack out := by
  induction stack with
  | nil => exact ⟨[], .nil⟩
  | cons a stack ih =>
    obtain ⟨below, hbelow⟩ := h a List.mem_cons_self
    obtain ⟨out, hout⟩ := ih fun b hb => h b (List.mem_cons_of_mem _ hb)
    exact ⟨_, .cons hbelow hout⟩

/-! ## One parent each -/

section
variable (hone : Relator.RightUnique (Child children))

include hone

theorem comparable (hac : Below children a c) (hbc : Below children b c) : a = b ∨
    Below children a b ∨ Below children b a := by
  rcases ReflTransGen.total_of_right_unique hone hac.to_reflTransGen hbc.to_reflTransGen with h | h
  · rcases reflTransGen_iff_eq_or_transGen.mp h with h | h
    · exact .inl h.symm
    · exact .inr (.inr h)
  · rcases reflTransGen_iff_eq_or_transGen.mp h with h | h
    · exact .inl h
    · exact .inr (.inl h)

theorem parent_on_cycle (h : b ∈ children a) (hb : Below children b b) : Below children a a := by
  obtain ⟨c, hchild, hback⟩ := TransGen.head'_iff.mp hb
  rw [hone hchild h] at hback
  exact TransGen.tail' hback h

theorem on_cycle_of_below (h : Below children a b) (hb : Below children b b) : Below children a a := by
  induction h using TransGen.head_induction_on with
  | single hchild => exact parent_on_cycle hone hchild hb
  | head hchild _ ih => exact ih (parent_on_cycle hone hchild hb)

theorem siblings_apart (ha : ¬ Below children a a) : ∀ b ∈ (children a).reverse,
    ∀ c ∈ (children a).reverse, ¬ Below children b c := by
  intro b hb c hc hbc
  rw [List.mem_reverse] at hb hc
  obtain ⟨d, hchild, hback⟩ := TransGen.head'_iff.mp hbc
  rw [hone hchild hc] at hback
  exact ha (TransGen.tail' hback hb)

variable (hnodup : ∀ a, (children a).Nodup)

include hnodup

theorem Visits.nodup (h : Visits children stack out) (hstack : stack.Nodup)
    (hapart : ∀ a ∈ stack, ∀ b ∈ stack, ¬ Below children a b)
    (hcycle : ∀ a ∈ out, ¬ Below children a a) : out.Nodup := by
  induction h with
  | nil => exact List.nodup_nil
  | @cons a below stack out inside rest ihinside ihrest =>
    obtain ⟨hnew, hstack⟩ := List.nodup_cons.mp hstack
    have ha := hcycle a List.mem_cons_self
    have hinside : ∀ {b}, b ∈ below → Below children a b := by
      intro b hb
      rw [inside.mem_iff] at hb
      simp only [List.mem_reverse] at hb
      exact below_iff.mpr hb
    rw [List.nodup_cons, List.mem_append, List.nodup_append]
    refine ⟨?_, ihinside (List.nodup_reverse.mpr (hnodup a)) (siblings_apart hone ha) ?_, ihrest hstack ?_ ?_, ?_⟩
    · intro hmem
      rcases hmem with hmem | hmem
      · exact ha (hinside hmem)
      · obtain ⟨b, hb, hba⟩ := rest.mem_iff.mp hmem
        rcases hba with rfl | hba
        · exact hnew hb
        · exact hapart b (List.mem_cons_of_mem _ hb) a List.mem_cons_self hba
    · intro b hb
      exact hcycle b (List.mem_cons_of_mem _ (List.mem_append_left _ hb))
    · intro b hb c hc
      exact hapart b (List.mem_cons_of_mem _ hb) c (List.mem_cons_of_mem _ hc)
    · intro b hb
      exact hcycle b (List.mem_cons_of_mem _ (List.mem_append_right _ hb))
    · intro b hb c hc heq
      subst heq
      obtain ⟨d, hd, hdb⟩ := rest.mem_iff.mp hc
      have hdstack : d ∈ a :: stack := List.mem_cons_of_mem _ hd
      rcases hdb with rfl | hdb
      · exact hapart a List.mem_cons_self d hdstack (hinside hb)
      · rcases comparable hone (hinside hb) hdb with rfl | had | hda
        · exact hnew hd
        · exact hapart a List.mem_cons_self d hdstack had
        · exact hapart d hdstack a List.mem_cons_self hda

end

/-! ## When it ends -/

theorem exists_visits (hone : Relator.RightUnique (Child children)) (hfinite : {b | Below children root b}.Finite)
    (hroot : ¬ Below children root root) : ∃ out, Visits children (children root).reverse out := by
  have : Finite {b // Below children root b} := hfinite
  have : IsTrans {b // Below children root b} fun x y => Below children y.1 x.1 := ⟨fun x y z hxy hyz => hyz.trans hxy⟩
  have : Std.Irrefl fun x y : {b // Below children root b} => Below children y.1 x.1 :=
    ⟨fun x hx => hroot (on_cycle_of_below hone x.2 hx)⟩
  have hwf := Finite.wellFounded_of_trans_of_irrefl fun x y : {b // Below children root b} => Below children y.1 x.1
  have hbelow : ∀ x : {b // Below children root b}, ∃ out, Visits children (children x.1).reverse out := by
    intro x
    induction x using hwf.induction with
    | _ x ih =>
      apply visits_of_each
      intro c hc
      have hc := below_child (List.mem_reverse.mp hc)
      exact ih ⟨c, x.2.trans hc⟩ hc
  apply visits_of_each
  intro c hc
  exact hbelow ⟨c, below_child (List.mem_reverse.mp hc)⟩

theorem walk_ends (hone : Relator.RightUnique (Child children)) (hnodup : ∀ a, (children a).Nodup)
    (hfinite : {b | Below children root b}.Finite) (hroot : ¬ Below children root root) :
    ∃ fuel out, walk children fuel (children root).reverse [] = some out ∧ out.Nodup ∧
      (∀ b, b ∈ out ↔ Below children root b) ∧
      ∀ a ∈ out, ∀ b, Below children a b → [a, b].Sublist out := by
  obtain ⟨out, hout⟩ := exists_visits hone hfinite hroot
  have hmem : ∀ b, b ∈ out ↔ Below children root b := by
    intro b
    rw [hout.mem_iff, below_iff]
    simp only [List.mem_reverse]
  have hcycle : ∀ b, Below children root b → ¬ Below children b b :=
    fun b hb hself => hroot (on_cycle_of_below hone hb hself)
  refine ⟨out.length + 1, out, ?_, ?_, hmem, fun a ha b hab => hout.before ha hab⟩
  · have hwalk := hout.walk 1 [] []
    rw [List.append_nil, List.nil_append] at hwalk
    exact hwalk
  · apply hout.nodup hone hnodup (List.nodup_reverse.mpr (hnodup root)) (siblings_apart hone hroot)
    intro b hb
    exact hcycle b ((hmem b).mp hb)

/-- On a cycle there is always another value to take off the stack. -/
theorem walk_endless (hcycle : Below children root root) {fuel : Nat} {found : List α} :
    (∃ a ∈ stack, a = root ∨ Below children a root) → walk children fuel stack found = none := by
  induction fuel generalizing stack found with
  | zero => exact fun _ => rfl
  | succ fuel ih =>
    intro ⟨a, ha, haroot⟩
    cases stack with
    | nil => cases ha
    | cons b stack =>
      rw [walk]
      apply ih
      rcases List.mem_cons.mp ha with rfl | ha
      · have habove : Below children a root := by
          rcases haroot with rfl | habove
          · exact hcycle
          · exact habove
        obtain ⟨c, hc, hcroot⟩ := below_iff.mp habove
        exact ⟨c, List.mem_append_left _ (List.mem_reverse.mpr hc), hcroot⟩
      · exact ⟨a, List.mem_append_right _ ha, haroot⟩

theorem walk_below_self (hcycle : Below children root root)
    (fuel : Nat) : walk children fuel (children root).reverse [] = none := by
  apply walk_endless hcycle
  obtain ⟨c, hc, hcroot⟩ := below_iff.mp hcycle
  exact ⟨c, List.mem_reverse.mpr hc, hcroot⟩

end StackWalk
