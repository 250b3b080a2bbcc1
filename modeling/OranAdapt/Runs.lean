import Mathlib.Logic.Relation

/-!
# Runs of a step function

A system is a partial step function: `step s a` is the state after the action
`a`, or `none` when `a` cannot happen in `s`. `Steps C` chains any number of
steps that each meet the condition `C` on the action and the state before it,
so a theorem about `Steps C` is about every interleaving that meets `C`, and
one about `Steps Free` is about every interleaving.
-/

namespace Runs

variable {σ α : Type} (step : σ → α → Option σ)

/-- One step of the system whose action meets `C` in the state before it. -/
def Next (C : σ → α → Prop) (s s' : σ) : Prop := ∃ a, C s a ∧ step s a = some s'

def Steps (C : σ → α → Prop) : σ → σ → Prop := Relation.ReflTransGen (Next step C)

/-- The condition every step meets. -/
def Free : σ → α → Prop := fun _ _ => True

instance (s : σ) (a : α) : Decidable (Free s a) := inferInstanceAs (Decidable True)

variable {step} {C D : σ → α → Prop}

theorem Steps.refl (s : σ) : Steps step C s s := Relation.ReflTransGen.refl

theorem Steps.trans {s t u : σ} (h : Steps step C s t) (h' : Steps step C t u) : Steps step C s u :=
  Relation.ReflTransGen.trans h h'

theorem Steps.tail {s t u : σ} {a : α} (h : Steps step C s t) (ha : C t a) (hs : step t a = some u) :
    Steps step C s u :=
  Relation.ReflTransGen.tail h ⟨a, ha, hs⟩

theorem Steps.mono (hCD : ∀ s a, C s a → D s a) {s t : σ} (h : Steps step C s t) : Steps step D s t := by
  induction h with
  | refl => exact .refl s
  | tail _ hn ih =>
    obtain ⟨a, ha, hs⟩ := hn
    exact ih.tail (hCD _ a ha) hs

/-- Steps that meet `C` meet `D` too where an invariant of theirs says so. -/
theorem Steps.mono_of (I : σ → Prop) (hI : ∀ s a s', I s → C s a → step s a = some s' → I s')
    (hCD : ∀ s a, I s → C s a → D s a) {s t : σ} (h : Steps step C s t) (h0 : I s) : Steps step D s t ∧ I t := by
  induction h with
  | refl => exact ⟨.refl s, h0⟩
  | tail _ hn ih =>
    obtain ⟨a, ha, hs⟩ := hn
    exact ⟨ih.1.tail (hCD _ a ih.2 ha) hs, hI _ a _ ih.2 ha hs⟩

theorem Steps.free {s t : σ} (h : Steps step C s t) : Steps step Free s t :=
  h.mono fun _ _ _ => trivial

/-- The invariant rule: what every step that meets `C` keeps, every run of
such steps keeps. -/
theorem Steps.inv (I : σ → Prop) (hI : ∀ s a s', I s → C s a → step s a = some s' → I s')
    {s t : σ} (h : Steps step C s t) (h0 : I s) : I t := by
  induction h with
  | refl => exact h0
  | tail _ hn ih =>
    obtain ⟨a, ha, hs⟩ := hn
    exact hI _ a _ ih ha hs

/-- The invariant rule below an invariant `J` already known to be kept. -/
theorem Steps.inv_of (J I : σ → Prop) (hJ : ∀ s a s', J s → C s a → step s a = some s' → J s')
    (hI : ∀ s a s', J s → I s → C s a → step s a = some s' → I s')
    {s t : σ} (h : Steps step C s t) (hj : J s) (h0 : I s) : I t :=
  (h.inv (fun s => J s ∧ I s)
    (fun s a s' hs ha hst => ⟨hJ s a s' hs.1 ha hst, hI s a s' hs.1 hs.2 ha hst⟩) ⟨hj, h0⟩).2

/-! ## Running a list of actions -/

/-- Perform `as` in order, checking `C` before each of them. -/
def runs (step : σ → α → Option σ) (C : σ → α → Prop) [∀ s a, Decidable (C s a)] (s : σ) :
    List α → Option σ
  | [] => some s
  | a :: as => if C s a then (step s a).bind fun s' => runs step C s' as else none

theorem runs_cons [∀ s a, Decidable (C s a)] {s t : σ} {a : α} {as : List α}
    (h : runs step C s (a :: as) = some t) :
    C s a ∧ ∃ s', step s a = some s' ∧ runs step C s' as = some t := by
  rw [runs] at h
  split at h
  · rename_i ha
    exact ⟨ha, Option.bind_eq_some_iff.mp h⟩
  · cases h

theorem Steps.of_runs [∀ s a, Decidable (C s a)] :
    ∀ {as : List α} {s t : σ}, runs step C s as = some t → Steps step C s t
  | [], s, t, h => by
    rw [runs, Option.some.injEq] at h
    subst h; exact .refl s
  | a :: as, s, t, h => by
    obtain ⟨ha, s', hs, ht⟩ := runs_cons h
    exact (Steps.tail (.refl s) ha hs).trans (of_runs ht)

theorem Steps.exists_of_runs (step : σ → α → Option σ) (C : σ → α → Prop) [∀ s a, Decidable (C s a)] (s : σ)
    (as : List α) (p : σ → Bool) (h : (runs step C s as).any p = true) : ∃ t, Steps step C s t ∧ p t = true := by
  obtain ⟨t, ht, hp⟩ := (Option.any_eq_true _ _).mp h
  exact ⟨t, .of_runs ht, hp⟩

end Runs
