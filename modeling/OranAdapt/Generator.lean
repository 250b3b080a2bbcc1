import Mathlib.Data.List.Infix

/-!
# Generators

A generator yields values and then ends, or fails. What a consumer makes of it
depends on whether the consumer reads it to its end: a failure after the last
value is not seen by one that stops before.
-/

namespace OranAdapt

structure Generator (ε α : Type) where
  yielded : List α
  failure : Option ε

namespace Generator

variable {ε α σ : Type}

def ofExcept : Except ε (List α) → Generator ε α
  | .ok values => ⟨values, none⟩
  | .error e => ⟨[], some e⟩

/-- How a generator ends, once what was made of its values is known. -/
def ending (g : Generator ε α) (made : σ) : Except ε σ :=
  match g.failure with
  | none => .ok made
  | some e => .error e

def drain (g : Generator ε α) : Except ε (List α) := g.ending g.yielded

def loop (step : σ → α → ForInStep σ) : σ → List α → ForInStep σ
  | s, [] => .yield s
  | s, a :: as =>
    match step s a with
    | .done s' => .done s'
    | .yield s' => loop step s' as

/-- What a loop leaves; breaking leaves the generator as it is. -/
def consume (step : σ → α → ForInStep σ) (s : σ) (g : Generator ε α) : Except ε σ :=
  match loop step s g.yielded with
  | .done made => .ok made
  | .yield made => g.ending made

def Breaks (step : σ → α → ForInStep σ) (s : σ) (as : List α) : Prop := ∃ made, loop step s as = .done made

variable {step : σ → α → ForInStep σ} {s : σ} {g : Generator ε α} {e : ε}

@[simp] theorem drain_ofExcept (r : Except ε (List α)) : (ofExcept r).drain = r := by
  cases r <;> rfl

theorem ending_failure (h : g.failure = some e) (made : σ) : g.ending made = .error e := by
  simp [ending, h]

theorem not_breaks_nil : ¬ Breaks step s ([] : List α) := by
  rintro ⟨made, h⟩
  cases h

theorem consume_eq_error_iff (h : g.failure = some e) : g.consume step s = .error e ↔ ¬ Breaks step s g.yielded := by
  unfold consume Breaks
  cases loop step s g.yielded with
  | done made => simp
  | yield made => simp [ending_failure h]

theorem consume_error {e' : ε} (h : g.failure = some e) (herror : g.consume step s = .error e') : e' = e := by
  unfold consume at herror
  cases hloop : loop step s g.yielded with
  | done made =>
    rw [hloop] at herror
    cases herror
  | yield made =>
    rw [hloop] at herror
    have hending : g.ending made = .error e' := herror
    rw [ending_failure h] at hending
    exact (Except.error.inj hending).symm

end Generator

end OranAdapt
