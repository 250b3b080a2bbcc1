import OranAdapt.LlmGuard

/-!
# The token budget

Where each attempt is sent while its worst case still fits, no window ever
holds more than the budget. The check of a call makes its first attempt fit,
whatever time passes until it is answered; a retry is not checked.
-/

namespace OranAdapt

open Runs SlidingWindow

namespace GuardedLlmClient

variable (g : GuardedLlmClient)

/-- The tokens an attempt is checked for: its estimated input, and the most it may answer. -/
def estimate (c : LlmCall) : Nat := c.inputTokens + g.policy.maxOutputTokens

/-- The worst case of the attempt fits in the window that ends now. -/
def Fits (s : GuardState) (c : LlmCall) : Prop :=
  (s.ledger.spent (g.since s.now)).1 + g.estimate c ≤ g.policy.tokenBudget

instance (s : GuardState) (c : LlmCall) : Decidable (g.Fits s c) := inferInstanceAs (Decidable (_ ≤ _))

/-- No window, wherever it ends, holds more tokens than the budget. -/
def WithinBudget (s : GuardState) : Prop :=
  Capped LlmUsage.createdAt (·.usage.tokens) g.since g.policy.tokenBudget s.ledger

/-- No call is on its way, and what the ledger holds is within the budget. -/
structure Starts (s : GuardState) : Prop where
  phase : s.phase = .idle
  within : g.WithinBudget s

/-- An answered attempt used at most what was checked. -/
def WithinEstimate (s : GuardState) (e : GuardEvent) : Prop :=
  match s.phase, e with
  | .sent c, .answer answer reported => (g.settled c answer reported).tokens ≤ g.estimate c
  | _, _ => True

/-- A retry is sent while the window has room for it. -/
def RoomToRetry (s : GuardState) (e : GuardEvent) : Prop :=
  match s.phase, e with
  | .ready c, .send => c.attempt ≠ 0 → g.Fits s c
  | _, _ => True

instance (s : GuardState) (e : GuardEvent) : Decidable (g.WithinEstimate s e) := by
  unfold WithinEstimate; split <;> infer_instance

instance (s : GuardState) (e : GuardEvent) : Decidable (g.RoomToRetry s e) := by
  unfold RoomToRetry; split <;> infer_instance

/-- What every step keeps. -/
structure Budgeted (s : GuardState) : Prop where
  within : g.WithinBudget s
  first : ∀ c, s.phase = .ready c → c.attempt = 0 → g.Fits s c
  sent : ∀ c, s.phase = .sent c → g.Fits s c

variable {g} {s s' : GuardState} {c : LlmCall}

theorem since_mono : Monotone g.since := fun _ _ h => Nat.sub_le_sub_right h _

theorem Fits.wait (h : g.Fits s c) (d : Time) : g.Fits { s with now := s.now + d } c := by
  have hspent : (s.ledger.spent (g.since (s.now + d))).1 ≤ (s.ledger.spent (g.since s.now)).1 :=
    spent_anti (since_mono (Nat.le_add_right s.now d)) s.ledger
  exact (Nat.add_le_add_right hspent _).trans h

theorem fits_of_checkBudget (hpos : 0 < g.policy.tokenBudget)
    (h : g.checkBudget s.now s.ledger c.inputTokens = .ok ()) : g.Fits s c := by
  unfold checkBudget at h
  unfold Fits estimate
  grind

/-- The checks of a call leave the ledger and the clock alone, and let it go on only where its first attempt fits. -/
theorem begin_cases (hpos : 0 < g.policy.tokenBudget) (system prompt : String) (s : GuardState) :
    (g.begin system prompt s).ledger = s.ledger ∧ (g.begin system prompt s).now = s.now ∧
      ((g.begin system prompt s).phase = s.phase ∨ ∃ c, (g.begin system prompt s).phase = .ready c ∧ g.Fits s c) := by
  unfold begin
  dsimp only
  split
  · exact ⟨rfl, rfl, .inl rfl⟩
  · rename_i hcheck
    split
    · exact ⟨rfl, rfl, .inl rfl⟩
    · exact ⟨rfl, rfl, .inr ⟨_, rfl, fits_of_checkBudget hpos hcheck⟩⟩

/-- An answer is one row of the ledger; what follows it is the end of the call or a retry. -/
theorem answered_cases (c : LlmCall) (answer : Except AdaptationError String) (reported : Option Usage) (s : GuardState) :
    (∃ outcome, (g.answered c answer reported s).ledger =
        s.ledger ++ [⟨s.now, g.provider, g.settled c answer reported, outcome⟩]) ∧
      ((g.answered c answer reported s).phase = .idle ∨
        ∃ c', (g.answered c answer reported s).phase = .ready c' ∧ c'.attempt ≠ 0) := by
  unfold answered
  dsimp only
  split
  · exact ⟨⟨_, rfl⟩, .inl rfl⟩
  · split
    · exact ⟨⟨_, rfl⟩, .inl rfl⟩
    · exact ⟨⟨_, rfl⟩, .inr ⟨_, rfl, Nat.succ_ne_zero _⟩⟩

theorem WithinBudget.answered {answer : Except AdaptationError String} {reported : Option Usage} (h : g.WithinBudget s)
    (hfits : g.Fits s c) (hle : (g.settled c answer reported).tokens ≤ g.estimate c) :
    g.WithinBudget (g.answered c answer reported s) := by
  obtain ⟨⟨outcome, hledger⟩, -⟩ := answered_cases (g := g) c answer reported s
  unfold WithinBudget
  rw [hledger]
  apply Capped.append h since_mono (Nat.le_refl s.now)
  exact (Nat.add_le_add_left hle _).trans hfits

theorem Starts.budgeted (h : g.Starts s) : g.Budgeted s where
  within := h.within
  first c hc := by rw [h.phase] at hc; cases hc
  sent c hc := by rw [h.phase] at hc; cases hc

theorem Budgeted.complete (hpos : 0 < g.policy.tokenBudget) (h : g.Budgeted s) (hidle : s.phase = .idle)
    (system prompt : String) : g.Budgeted (g.begin system prompt s) := by
  obtain ⟨hledger, hnow, hphase⟩ := begin_cases hpos system prompt s
  have hfits : ∀ c, g.Fits s c → g.Fits (g.begin system prompt s) c := by
    intro c hc
    unfold Fits
    rw [hledger, hnow]
    exact hc
  refine ⟨?_, ?_, ?_⟩
  · unfold WithinBudget
    rw [hledger]
    exact h.within
  · intro c hc _
    rcases hphase with hp | ⟨c', hp, hc'⟩
    · rw [hp, hidle] at hc
      cases hc
    · rw [hp] at hc
      cases hc
      exact hfits _ hc'
  · intro c hc
    rcases hphase with hp | ⟨c', hp, hc'⟩
    · rw [hp, hidle] at hc
      cases hc
    · rw [hp] at hc
      cases hc

theorem Budgeted.answered {answer : Except AdaptationError String} {reported : Option Usage} (h : g.Budgeted s)
    (hsent : s.phase = .sent c) (hle : (g.settled c answer reported).tokens ≤ g.estimate c) :
    g.Budgeted (g.answered c answer reported s) := by
  obtain ⟨-, hphase⟩ := answered_cases (g := g) c answer reported s
  refine ⟨h.within.answered (h.sent c hsent) hle, ?_, ?_⟩
  · intro c' hc' hfirst
    rcases hphase with hp | ⟨c'', hp, hretry⟩
    · rw [hp] at hc'
      cases hc'
    · rw [hp] at hc'
      cases hc'
      exact absurd hfirst hretry
  · intro c' hc'
    rcases hphase with hp | ⟨c'', hp, hretry⟩
    · rw [hp] at hc'
      cases hc'
    · rw [hp] at hc'
      cases hc'

theorem Budgeted.step (hpos : 0 < g.policy.tokenBudget) {e : GuardEvent} (h : g.Budgeted s)
    (hC : g.WithinEstimate s e ∧ g.RoomToRetry s e) (hs : g.step s e = some s') : g.Budgeted s' := by
  obtain ⟨hestimate, hroom⟩ := hC
  cases e with
  | wait d =>
    cases hs
    exact ⟨h.within, fun c hc h0 => (h.first c hc h0).wait d, fun c hc => (h.sent c hc).wait d⟩
  | complete system prompt =>
    cases hphase : s.phase with
    | idle =>
      simp only [GuardedLlmClient.step, hphase, Option.some.injEq] at hs
      subst hs
      exact h.complete hpos hphase system prompt
    | ready | sent => simp [GuardedLlmClient.step, hphase] at hs
  | send =>
    cases hphase : s.phase with
    | ready c =>
      simp only [GuardedLlmClient.step, hphase] at hs
      by_cases hdue : c.notBefore ≤ s.now
      · rw [if_pos hdue, Option.some.injEq] at hs
        subst hs
        simp only [RoomToRetry, hphase] at hroom
        have hfits : g.Fits s c := by
          by_cases h0 : c.attempt = 0
          · exact h.first c hphase h0
          · exact hroom h0
        refine ⟨h.within, fun c' hc' => (by cases hc'), fun c' hc' => ?_⟩
        cases hc'
        exact hfits
      · rw [if_neg hdue] at hs
        cases hs
    | idle | sent => simp [GuardedLlmClient.step, hphase] at hs
  | answer answer reported =>
    cases hphase : s.phase with
    | sent c =>
      simp only [GuardedLlmClient.step, hphase, Option.some.injEq] at hs
      subst hs
      simp only [WithinEstimate, hphase] at hestimate
      exact h.answered hphase hestimate
    | idle | ready => simp [GuardedLlmClient.step, hphase] at hs

/-- In every run that sends its retries while there is room for them, no window holds more than
the budget, and no attempt is sent that could take one over it. -/
theorem budget_is_a_ceiling (g : GuardedLlmClient) (hpos : 0 < g.policy.tokenBudget) {s s' : GuardState} (h0 : g.Starts s)
    (hrun : Steps g.step (fun s e => g.WithinEstimate s e ∧ g.RoomToRetry s e) s s') :
    g.WithinBudget s' ∧ ∀ c, s'.phase = .sent c → g.Fits s' c := by
  have h : g.Budgeted s' := hrun.inv g.Budgeted (fun _ _ _ hs hC hst => hs.step hpos hC hst) h0.budgeted
  exact ⟨h.within, h.sent⟩

/-! ### Two failed attempts and an answer -/

def guarded (tokenBudget : Nat) : GuardedLlmClient where
  provider := "gemini"
  policy := { maxRetries := 2, maxOutputTokens := 10, tokenBudget, charsPerToken := 1 }

def unreachable : Except AdaptationError String := .error ⟨.other "LLM_UNAVAILABLE", "the provider cannot be reached", []⟩

/-- The input counts 5 tokens, the answer 8. -/
def twoRetries : List GuardEvent :=
  [.complete "" "load", .send, .answer unreachable none, .wait 500000, .send, .answer unreachable none, .wait 1000000, .send,
    .answer (.ok "retrain") none]

def fresh : GuardState := { now := 0 }

theorem starts_fresh (g : GuardedLlmClient) : g.Starts fresh := ⟨rfl, Capped.nil _ _⟩

theorem budget_is_a_ceiling_twoRetries : ∃ s, (s.ledger.spent 0).1 = 23 ∧ (guarded 25).WithinBudget s := by
  obtain ⟨s, hrun, hspent⟩ := Steps.exists_of_runs (guarded 25).step
    (fun s e => (guarded 25).WithinEstimate s e ∧ (guarded 25).RoomToRetry s e) fresh twoRetries
    (fun s => (s.ledger.spent 0).1 = 23) (by decide +kernel)
  exact ⟨s, of_decide_eq_true hspent, (budget_is_a_ceiling (guarded 25) (by decide) (starts_fresh _) hrun).1⟩

/-- With a budget of 20 the retries are sent all the same. -/
theorem retries_outspend_budget :
    ∃ s, Steps (guarded 20).step (guarded 20).WithinEstimate fresh s ∧ ¬(guarded 20).WithinBudget s := by
  obtain ⟨s, hrun, hspent⟩ := Steps.exists_of_runs (guarded 20).step (guarded 20).WithinEstimate fresh twoRetries
    (fun s => 20 < within LlmUsage.createdAt (·.usage.tokens) ((guarded 20).since 1500000) 1500000 s.ledger)
    (by decide +kernel)
  exact ⟨s, hrun, fun h => Nat.not_lt.mpr (h 1500000) (of_decide_eq_true hspent)⟩

end GuardedLlmClient

end OranAdapt
