import OranAdapt.Declared
import OranAdapt.SqlDatasets

/-!
# Errors of the framework

Which single steps raise an error of the framework and no other one.
-/

namespace OranAdapt

open Declared

def Framework (e : AdaptationError) : Prop := e.cls.framework = true

theorem not_framework_python (name : String) : ¬ Framework (pythonError name) := by
  simp [Framework, pythonError, ErrorClass.framework]

@[simp] theorem framework_other (code message : String)
    (context : Context) : Framework ⟨.other code, message, context⟩ := rfl

theorem framework_notAllowed (uri why : String) (context : Context) : Framework (notAllowed uri why context) := rfl

theorem framework_notFound (message : String) (context : Context) : Framework (datasetNotFound message context) := rfl

section
variable {d : AdaptationError → Prop} {α β ε : Type} {p : Prop} [Decidable p] {e : AdaptationError} {name : String}

theorem keeps_raiseIf (h : d e) : Keeps d (raiseIf p e) := by
  unfold raiseIf
  by_cases hp : p
  · rw [if_pos hp]
    exact keeps_error.mpr h
  · rw [if_neg hp]
    exact keeps_ok ()

theorem keeps_bind_raiseIf {f : Unit → Except AdaptationError α} (h : d e) :
    Keeps d (raiseIf p e >>= f) ↔ (¬ p → Keeps d (f ())) := by
  rw [keeps_bind]
  constructor
  · intro hkeeps hp
    exact hkeeps.2 () (raiseIf_ok.mpr hp)
  · intro hkeeps
    refine ⟨keeps_raiseIf h, ?_⟩
    intro _ hok
    exact hkeeps (raiseIf_ok.mp hok)

theorem keeps_orRaise {x : Option α} (h : ¬ d (pythonError name)) : Keeps d (orRaise name x) ↔ x ≠ none := by
  cases x with
  | none => simpa [orRaise] using h
  | some a => simp [orRaise]

theorem keeps_bind_orRaise {x : Option α} {f : α → Except AdaptationError β} (h : ¬ d (pythonError name)) :
    Keeps d (orRaise name x >>= f) ↔ x ≠ none ∧ ∀ a, x = some a → Keeps d (f a) := by
  rw [keeps_bind, keeps_orRaise h]
  cases x with
  | none => simp
  | some a => simp [orRaise]

theorem keeps_mapError {x : Except ε α} {handle : ε → AdaptationError}
    (h : ∀ e, d (handle e)) : Keeps d (x.mapError handle) := by
  cases x with
  | ok a => exact keeps_ok a
  | error e => exact keeps_error.mpr (h e)

end

end OranAdapt
