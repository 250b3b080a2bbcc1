import OranAdapt.DatasetAdapters
import OranAdapt.FrameworkErrors

/-!
# Errors of libraries and streams

What a call under an adapter's `except` raises, and when the spooling of a
stream raises an error of the framework and no other one.
-/

namespace OranAdapt

namespace Datasets

open Declared

theorem not_notAllowed_python (name : String) : ¬ NotAllowed (pythonError name) := by simp [NotAllowed, pythonError]

theorem notAllowed_notAllowed (uri why : String) (context : Context) : NotAllowed (notAllowed uri why context) := rfl

/-! ## Libraries -/

section
variable {α β ε : Type} {x : Answer ε α} {handle : ε → AdaptationError}

/-- The call returns, or it raises what its adapter catches or an error of the framework. -/
def Answers (x : Answer ε α) : Prop := ∀ name, x ≠ .error (.raised name)

theorem keeps_under (h : ∀ e, Framework (handle e)) : Keeps Framework (under handle x) ↔ Answers x := by
  cases x with
  | ok a => simp [under, Answers]
  | error r =>
    cases r with
    | caught e => simpa [under, Answers] using h e
    | framework e => simpa [under, Answers, Framework] using e.2
    | raised name => simpa [under, Answers] using not_framework_python name

theorem under_ok {a : α} : under handle x = .ok a ↔ x = .ok a := by
  cases x with
  | ok b => simp [under]
  | error r => cases r <;> simp [under]

theorem keeps_bind_under {f : α → Except AdaptationError β} (h : ∀ e, Framework (handle e)) :
    Keeps Framework (under handle x >>= f) ↔ Answers x ∧ ∀ a, x = .ok a → Keeps Framework (f a) := by
  rw [keeps_bind, keeps_under h]
  simp only [under_ok]

theorem stream_fails (h : ∀ e, Framework (handle e)) {b : Body ε} :
    (∀ e, (b.stream handle).fails = some e → Framework e) ↔ ∀ name, b.fails ≠ some (.raised name) := by
  obtain ⟨chunks, fails⟩ := b
  cases fails with
  | none => simp [Body.stream]
  | some r =>
    cases r with
    | caught e => simpa [Body.stream, under] using h e
    | framework e => simpa [Body.stream, under, Framework] using e.2
    | raised name => simpa [Body.stream, under] using not_framework_python name

end

/-! ## Streams -/

section
variable {disk : Nat → Option String} {maxBytes : Nat} {uri : String}

theorem framework_tooLarge (what : String) : Framework (tooLarge what uri maxBytes) := rfl

theorem keeps_consume {e : AdaptationError} {fails : Option AdaptationError} {chunks : List Bytes}
    {content : Bytes} (he : Framework e)
    (hfits : content.length ≤ maxBytes) :
    Keeps Framework (consume disk maxBytes e fails content chunks) ↔
      (∀ front back, chunks = front ++ back → front ≠ [] → (content ++ front.flatten).length ≤ maxBytes →
        disk (content ++ front.flatten).length = none) ∧
      ((content ++ chunks.flatten).length ≤ maxBytes → ∀ e, fails = some e → Framework e) := by
  induction chunks generalizing content with
  | nil =>
    have hnone : ∀ front back : List Bytes, [] = front ++ back → front ≠ [] →
      (content ++ front.flatten).length ≤ maxBytes →
        disk (content ++ front.flatten).length = none := by
      intro front back hl hne
      exact absurd (List.append_eq_nil_iff.mp hl.symm).1 hne
    cases fails with
    | none => simp [consume]
    | some e' =>
      have : (content ++ [].flatten).length ≤ maxBytes := by simpa using hfits
      simp only [consume, keeps_error, this, true_implies, Option.some.injEq, forall_eq']
      exact ⟨fun h => ⟨hnone, h⟩, fun h => h.2⟩
  | cons chunk chunks ih =>
    have hlength : content.length + chunk.length = (content ++ chunk).length := List.length_append.symm
    rw [consume]
    simp only [hlength]
    by_cases hlarge : maxBytes < (content ++ chunk).length
    · rw [if_pos hlarge]
      refine iff_of_true (keeps_error.mpr he) ⟨?_, ?_⟩
      · intro front back hl hne hle
        cases front with
        | nil => exact absurd rfl hne
        | cons first front =>
          obtain ⟨rfl, _⟩ := List.cons.inj hl
          simp only [List.length_append, List.flatten_cons] at hlarge hle
          omega
      · intro hle
        simp only [List.length_append, List.flatten_cons] at hlarge hle
        omega
    · rw [if_neg hlarge]
      have hwhole : content ++ (chunk :: chunks).flatten = content ++ chunk ++ chunks.flatten := by simp
      rw [hwhole]
      cases hdisk : disk (content ++ chunk).length with
      | some name =>
        refine iff_of_false (not_framework_python name ∘ keeps_error.mp) ?_
        intro h
        have := h.1 [chunk] chunks rfl (by simp) (by simpa using hlarge)
        simp only [List.flatten_cons, List.flatten_nil, List.append_nil] at this
        rw [hdisk] at this
        cases this
      | none =>
        rw [ih (Nat.not_lt.mp hlarge)]
        apply and_congr_left'
        constructor
        · intro h front back hl hne hle
          cases front with
          | nil => exact absurd rfl hne
          | cons first front =>
            obtain ⟨rfl, htail⟩ := List.cons.inj hl
            rw [List.flatten_cons, ← List.append_assoc] at hle ⊢
            by_cases hfront : front = []
            · subst hfront
              simpa using hdisk
            · exact h front back htail hfront hle
        · intro h front back hl hne hle
          have := h (chunk :: front) back (by rw [hl, List.cons_append]) (by simp)
          rw [List.flatten_cons, ← List.append_assoc] at this
          exact this hle

/-- The machine takes each text that is written, and the chunks are read to the end where all of them fit. -/
def Spools (disk : Nat → Option String) (maxBytes : Nat) {ε : Type} (b : Body ε) : Prop :=
  (∀ front back, b.chunks = front ++ back → front.flatten.length ≤ maxBytes → disk front.flatten.length = none) ∧
    (b.chunks.flatten.length ≤ maxBytes → ∀ name, b.fails ≠ some (.raised name))

theorem keeps_spool {ε : Type} {handle : ε → AdaptationError} (h : ∀ e, Framework (handle e)) {b : Body ε} :
    Keeps Framework (spool disk maxBytes uri (b.stream handle)) ↔ Spools disk maxBytes b := by
  unfold spool Spools
  cases hdisk : disk 0 with
  | some name =>
    refine iff_of_false (not_framework_python name ∘ keeps_error.mp) ?_
    intro hspools
    have : disk 0 = none := hspools.1 [] b.chunks rfl (Nat.zero_le _)
    rw [hdisk] at this
    cases this
  | none =>
    show Keeps Framework (consume disk maxBytes _ (b.stream handle).fails [] b.chunks) ↔ _
    rw [keeps_consume (framework_tooLarge _) (Nat.zero_le _), stream_fails h]
    apply and_congr_left'
    constructor
    · intro hall front back hl hle
      by_cases hfront : front = []
      · subst hfront
        exact hdisk
      · exact hall front back hl hfront hle
    · intro hall front back hl _ hle
      exact hall front back hl hle

end

end Datasets

end OranAdapt
