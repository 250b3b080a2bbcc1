import Mathlib.Logic.Function.Basic
import OranAdapt.LlmGuard

/-!
# Calls on one circuit breaker

`GuardedLlmClient.complete` of several threads that share a breaker. What a
call does under the breaker's lock is one step: it is admitted, and later its
verdict is given. Between the two it sends its attempts and settles their
usage, and any other call may take any step.
-/

namespace OranAdapt.BreakerCalls

open Runs

inductive CallPhase where
  /-- `acquire` raised, or the budget check before it -/
  | refused (e : AdaptationError)
  /-- the next attempt is to be sent -/
  | ready (attempt : Nat) (notBefore : Time)
  | sent (attempt : Nat)
  /-- an attempt failed, and its usage is to be settled -/
  | failed (attempt : Nat) (e : AdaptationError)
  /-- the last attempt is settled, and `failure` is to be called -/
  | givingUp (e : AdaptationError)
  /-- an attempt was answered, and `success` is to be called -/
  | answered (text : String)
  /-- the usage of the answer is to be settled -/
  | settling (text : String)
  | returned (result : Except AdaptationError String)

/-- The call was admitted, and neither `success` nor `failure` was called for it. -/
def CallPhase.inFlight : CallPhase → Bool
  | ready .. | sent .. | failed .. | givingUp .. | answered .. => true
  | refused .. | settling .. | returned .. => false

def CallPhase.over : CallPhase → Bool
  | refused .. | returned .. => true
  | _ => false

/-- `complete` has returned or raised after it was admitted. -/
def CallPhase.hasReturned : CallPhase → Bool
  | returned .. => true
  | _ => false

theorem CallPhase.not_inFlight {p : CallPhase} (h : p.over = true) : p.inFlight = false := by
  cases p with
  | refused | returned => rfl
  | ready | sent | failed | givingUp | answered | settling => cases h

theorem CallPhase.over_of_returned {p : CallPhase} (h : p.hasReturned = true) : p.over = true := by
  cases p with
  | returned => rfl
  | refused | ready | sent | failed | givingUp | answered | settling => cases h

/-- A call; `trial` when its `acquire` found the circuit open. -/
structure Call where
  trial : Bool
  phase : CallPhase

inductive Entry where
  | admitted (id : Nat) (time : Time)
  | success (id : Nat)
  | failure (id : Nat) (time : Time)
deriving DecidableEq, Repr

def Entry.verdictOf (id : Nat) : Entry → Bool
  | success i | failure i _ => i == id
  | admitted .. => false

theorem verdictOf_success (id : Nat) : (Entry.success id).verdictOf id = true := beq_self_eq_true id

theorem verdictOf_failure (id : Nat) (time : Time) : (Entry.failure id time).verdictOf id = true := beq_self_eq_true id

structure State where
  now : Time := 0
  breaker : CircuitBreaker := {}
  calls : Nat → Option Call := fun _ => none
  /-- the latest entry first -/
  log : List Entry := []

inductive Event where
  | wait (d : Time)
  /-- `complete` up to its loop; `checked` is what the budget check did -/
  | complete (id : Nat) (checked : Except AdaptationError Unit)
  | send (id : Nat)
  /-- what `inner.complete` returned or raised -/
  | answer (id : Nat) (answer : Except AdaptationError String)
  /-- `_settle`; `recorded` is what the ledger did -/
  | settle (id : Nat) (recorded : Except AdaptationError Unit)
  /-- `success` or `failure` -/
  | verdict (id : Nat)

variable (g : GuardedLlmClient)

def State.set (s : State) (id : Nat) (c : Call) : State := { s with calls := Function.update s.calls id (some c) }

def complete (s : State) (id : Nat) : Except AdaptationError Unit → State
  | .error e => s.set id ⟨false, .refused e⟩
  | .ok () =>
    match s.breaker.acquire g.policy.breakerReset s.now with
    | none => s.set id ⟨false, .refused (g.circuitOpen s.breaker s.now)⟩
    | some breaker =>
      { s.set id ⟨s.breaker.state == .open_, .ready 0 s.now⟩ with breaker, log := .admitted id s.now :: s.log }

def answered (attempt : Nat) (answer : Except AdaptationError String) : CallPhase :=
  match g.attempt answer with
  | .ok text => .answered text
  | .error e => .failed attempt e

/-- The loop once a failed attempt is settled. -/
def retry (now : Time) (attempt : Nat) (e : AdaptationError) : CallPhase :=
  if g.policy.maxRetries ≤ attempt then .givingUp e
  else .ready (attempt + 1) (now + g.policy.retryBackoff * 2 ^ attempt)

/-- A call's own step, outside the breaker. -/
def advance (s : State) (id : Nat) (trial : Bool) : CallPhase → Event → Option State
  | .ready attempt notBefore, .send _ => if notBefore ≤ s.now then some (s.set id ⟨trial, .sent attempt⟩) else none
  | .sent attempt, .answer _ a => some (s.set id ⟨trial, answered g attempt a⟩)
  | .failed attempt e, .settle _ recorded =>
    match recorded with
    | .ok () => some (s.set id ⟨trial, retry g s.now attempt e⟩)
    | .error raised => some (s.set id ⟨trial, .returned (.error raised)⟩)
  | .settling text, .settle _ recorded => some (s.set id ⟨trial, .returned (recorded.map fun _ => text)⟩)
  | .answered text, .verdict _ =>
    some { s.set id ⟨trial, .settling text⟩ with breaker := s.breaker.success, log := .success id :: s.log }
  | .givingUp e, .verdict _ =>
    some { s.set id ⟨trial, .returned (.error e)⟩ with
      breaker := s.breaker.failure g.policy.breakerFailureThreshold s.now
      log := .failure id s.now :: s.log }
  | _, _ => none

def Event.id? : Event → Option Nat
  | wait _ => none
  | complete id _ | send id | answer id _ | settle id _ | verdict id => some id

def step (s : State) : Event → Option State
  | .wait d => some { s with now := s.now + d }
  | .complete id checked => if (s.calls id).isNone then some (complete g s id checked) else none
  | e => do
    let id ← e.id?
    let c ← s.calls id
    advance g s id c.trial c.phase e

/-! ## What is promised of the breaker -/

/-- How many calls failed since the last one that succeeded. -/
def consecutive : List Entry → Nat
  | [] => 0
  | .admitted .. :: l => consecutive l
  | .success _ :: _ => 0
  | .failure .. :: l => consecutive l + 1

/-- After as many consecutive failures as the threshold, no call is admitted until the reset time
has passed since the last of them. An attempt of a call that was admitted before may still be sent. -/
def Rests (policy : GuardPolicy) (log : List Entry) : Prop :=
  ∀ after id t before, log = after ++ .failure id t :: before →
    policy.breakerFailureThreshold ≤ consecutive (.failure id t :: before) →
    ∀ i time, .admitted i time ∈ after → t + policy.breakerReset ≤ time

def trialInFlight : Option Call → Bool
  | some c => c.trial && c.phase.inFlight
  | none => false

structure Promise (s : State) : Prop where
  /-- While the circuit is not closed, at most one trial is in flight. -/
  oneTrial : s.breaker.state ≠ .closed → ∀ i j, trialInFlight (s.calls i) = true →
    trialInFlight (s.calls j) = true → i = j
  rests : Rests g.policy s.log
  /-- A call that was admitted and has returned was given a verdict. -/
  ends : ∀ id c, s.calls id = some c → c.phase.hasReturned = true → ∃ e ∈ s.log, e.verdictOf id = true
  /-- With every call over, one is admitted again once the reset time has passed. -/
  reopens : (∀ id c, s.calls id = some c → c.phase.over = true) →
    ∀ later, s.breaker.openedAt + g.policy.breakerReset ≤ later →
      (s.breaker.acquire g.policy.breakerReset later).isSome = true

def failing : Option Call → Bool
  | some ⟨_, .failed ..⟩ => true
  | _ => false

/-- An answer is there, and the breaker does not know yet. -/
def succeeding : Option Call → Bool
  | some ⟨_, .answered _⟩ => true
  | _ => false

/-- The steps that keep it: the ledger takes what a failed attempt used; while the circuit is half
open only the trial is given its verdict, and while it is open no call succeeds. -/
def Orderly (s : State) : Event → Prop
  | .settle id (.error _) => failing (s.calls id) = false
  | .verdict id => (s.breaker.state = .halfOpen → trialInFlight (s.calls id) = true) ∧
      (s.breaker.state = .open_ → succeeding (s.calls id) = false)
  | _ => True

instance (s : State) : (e : Event) → Decidable (Orderly s e)
  | .settle _ (.error _) => inferInstanceAs (Decidable (_ = _))
  | .verdict _ => inferInstanceAs (Decidable (_ ∧ _))
  | .settle _ (.ok _) | .wait _ | .complete .. | .send _ | .answer .. => inferInstanceAs (Decidable True)

/-! ## What a step does -/

section
variable {g}

@[simp] theorem set_now (s : State) (id : Nat) (c : Call) : (s.set id c).now = s.now := rfl

@[simp] theorem set_breaker (s : State) (id : Nat) (c : Call) : (s.set id c).breaker = s.breaker := rfl

@[simp] theorem set_log (s : State) (id : Nat) (c : Call) : (s.set id c).log = s.log := rfl

theorem set_calls (s : State) (id : Nat) (c : Call) (i : Nat) : (s.set id c).calls i = if i = id then some c else s.calls i :=
  Function.update_apply _ _ _ _

/-- A step of the breaker's calls, where it is orderly. -/
inductive Move (g : GuardedLlmClient) (s : State) : State → Prop where
  | wait (d : Time) : Move g s { s with now := s.now + d }
  | refused (id : Nat) (e : AdaptationError) (h : s.calls id = none) : Move g s (s.set id ⟨false, .refused e⟩)
  | admitted (id : Nat) (b : CircuitBreaker) (h : s.calls id = none)
      (hb : s.breaker.acquire g.policy.breakerReset s.now = some b) :
      Move g s { s.set id ⟨s.breaker.state == .open_, .ready 0 s.now⟩ with
        breaker := b, log := .admitted id s.now :: s.log }
  | own (id : Nat) (trial : Bool) (p p' : CallPhase) (h : s.calls id = some ⟨trial, p⟩) (hover : p.over = false)
      (hflight : p'.inFlight = p.inFlight) : Move g s (s.set id ⟨trial, p'⟩)
  | succeeded (id : Nat) (trial : Bool) (text : String) (h : s.calls id = some ⟨trial, .answered text⟩)
      (hhalf : s.breaker.state = .halfOpen → trial = true) (hopen : s.breaker.state ≠ .open_) :
      Move g s { s.set id ⟨trial, .settling text⟩ with breaker := s.breaker.success, log := .success id :: s.log }
  | gaveUp (id : Nat) (trial : Bool) (e : AdaptationError) (h : s.calls id = some ⟨trial, .givingUp e⟩)
      (hhalf : s.breaker.state = .halfOpen → trial = true) :
      Move g s { s.set id ⟨trial, .returned (.error e)⟩ with
        breaker := s.breaker.failure g.policy.breakerFailureThreshold s.now
        log := .failure id s.now :: s.log }

theorem answered_inFlight (attempt : Nat) (a : Except AdaptationError String) : (answered g attempt a).inFlight = true := by
  unfold answered
  split <;> rfl

theorem retry_inFlight (now : Time) (attempt : Nat) (e : AdaptationError) : (retry g now attempt e).inFlight = true := by
  unfold retry
  split <;> rfl

theorem trial_of {s : State} {id : Nat} {trial : Bool} {p : CallPhase} (h : s.calls id = some ⟨trial, p⟩)
    (ht : trialInFlight (s.calls id) = true) : trial = true := by
  rw [h] at ht
  exact (Bool.and_eq_true_iff.mp ht).1

theorem Move.of_advance {s s' : State} {id : Nat} {trial : Bool} {p : CallPhase} {e : Event} (he : e.id? = some id)
    (hc : s.calls id = some ⟨trial, p⟩) (ho : Orderly s e) (h : advance g s id trial p e = some s') : Move g s s' := by
  unfold advance at h
  split at h
  · split at h
    · cases h
      exact .own id trial _ _ hc rfl rfl
    · cases h
  · cases h
    exact .own id trial _ _ hc rfl (answered_inFlight _ _)
  · split at h
    · cases h
      exact .own id trial _ _ hc rfl (retry_inFlight _ _ _)
    · cases he
      have hfailing : failing (s.calls id) = false := ho
      rw [hc] at hfailing
      cases hfailing
  · cases h
    exact .own id trial _ _ hc rfl rfl
  · cases h
    cases he
    refine .succeeded id trial _ hc (fun hhalf => trial_of hc (ho.1 hhalf)) fun hopen => ?_
    have hsucceeding := ho.2 hopen
    rw [hc] at hsucceeding
    cases hsucceeding
  · cases h
    cases he
    exact .gaveUp id trial _ hc fun hhalf => trial_of hc (ho.1 hhalf)
  · cases h

theorem Move.of_step {s s' : State} {e : Event} (ho : Orderly s e) (h : step g s e = some s') : Move g s s' := by
  unfold step at h
  split at h
  · cases h
    exact .wait _
  · split at h
    · rename_i id checked hnone
      have hcalls : s.calls id = none := Option.isNone_iff_eq_none.mp hnone
      cases h
      unfold complete
      split
      · exact .refused id _ hcalls
      · split
        · exact .refused id _ hcalls
        · exact .admitted id _ hcalls ‹_›
    · cases h
  · obtain ⟨id, hid, h⟩ := Option.bind_eq_some_iff.mp h
    obtain ⟨c, hc, h⟩ := Option.bind_eq_some_iff.mp h
    exact .of_advance hid hc ho h

/-! ## What every orderly run keeps -/

/-- The circuit rests after the failures that opened it: the reset time has passed, or it is still open. -/
def Shut (policy : GuardPolicy) (now : Time) (b : CircuitBreaker) (log : List Entry) : Prop :=
  ∀ after id t before, log = after ++ .failure id t :: before →
    policy.breakerFailureThreshold ≤ consecutive (.failure id t :: before) →
    t + policy.breakerReset ≤ now ∨ b.state = .open_ ∧ t ≤ b.openedAt

structure Inv (g : GuardedLlmClient) (s : State) : Prop where
  past : s.breaker.openedAt ≤ s.now
  counted : s.breaker.failures = consecutive s.log
  enough : s.breaker.state ≠ .closed → g.policy.breakerFailureThreshold ≤ s.breaker.failures
  half : ∀ i, trialInFlight (s.calls i) = true → s.breaker.state = .halfOpen
  alone : ∀ i j, trialInFlight (s.calls i) = true → trialInFlight (s.calls j) = true → i = j
  trial : s.breaker.state = .halfOpen → ∃ i, trialInFlight (s.calls i) = true
  shut : Shut g.policy s.now s.breaker s.log
  rests : Rests g.policy s.log
  ended : ∀ id c, s.calls id = some c → c.phase.inFlight = false →
    (∃ e, c.phase = .refused e) ∨ ∃ e ∈ s.log, e.verdictOf id = true

variable {s : State}

theorem Inv.init : Inv g {} where
  past := Nat.zero_le _
  counted := rfl
  enough := fun h => absurd rfl h
  half := fun _ h => by cases h
  alone := fun _ _ h => by cases h
  trial := fun h => by cases h
  shut := by
    intro after id t before h
    cases after <;> cases h
  rests := by
    intro after id t before h
    cases after <;> cases h
  ended := fun _ _ h => by cases h

theorem cons_eq {e : Entry} {log after before : List Entry} {id : Nat} {t : Time}
    (h : e :: log = after ++ .failure id t :: before) :
    (after = [] ∧ e = .failure id t ∧ log = before) ∨ ∃ after', after = e :: after' ∧
      log = after' ++ .failure id t :: before := by
  cases after with
  | nil =>
    rw [List.nil_append, List.cons.injEq] at h
    exact .inl ⟨rfl, h⟩
  | cons a after' =>
    rw [List.cons_append, List.cons.injEq] at h
    exact .inr ⟨after', by rw [h.1], h.2⟩

theorem Rests.cons {policy : GuardPolicy} {e : Entry} {log : List Entry} (h : Rests policy log)
    (he : ∀ i time, e = .admitted i time → ∀ after id t before, log = after ++ .failure id t :: before →
      policy.breakerFailureThreshold ≤ consecutive (.failure id t :: before) → t + policy.breakerReset ≤ time) :
    Rests policy (e :: log) := by
  intro after id t before hlog hcount i time hmem
  rcases cons_eq hlog with ⟨rfl, -, -⟩ | ⟨after', rfl, hrest⟩
  · cases hmem
  · rcases List.mem_cons.mp hmem with heq | hmem
    · exact he i time heq.symm after' id t before hrest hcount
    · exact h after' id t before hrest hcount i time hmem

theorem Shut.cons {policy : GuardPolicy} {now : Time} {b b' : CircuitBreaker} {e : Entry} {log : List Entry}
    (h : Shut policy now b log) (he : ∀ id t, e ≠ .failure id t)
    (hopen : ∀ t, b.state = .open_ → t ≤ b.openedAt → t + policy.breakerReset ≤ now ∨
      b'.state = .open_ ∧ t ≤ b'.openedAt) :
    Shut policy now b' (e :: log) := by
  intro after id t before hlog hcount
  rcases cons_eq hlog with ⟨-, hfailure, -⟩ | ⟨after', -, hlog⟩
  · exact absurd hfailure (he id t)
  · rcases h after' id t before hlog hcount with hpassed | ⟨hstate, hle⟩
    · exact .inl hpassed
    · exact hopen t hstate hle

theorem acquire_cases {b b' : CircuitBreaker} {reset now : Time} (h : b.acquire reset now = some b') :
    (b.state = .closed ∧ b' = b) ∨ (b.state = .open_ ∧ reset ≤ now - b.openedAt ∧
      b' = { b with state := .halfOpen }) := by
  unfold CircuitBreaker.acquire at h
  split at h
  · rename_i hstate
    exact .inl ⟨hstate, (Option.some.inj h).symm⟩
  · rename_i hstate
    split at h
    · exact .inr ⟨hstate, ‹_›, (Option.some.inj h).symm⟩
    · cases h
  · cases h

theorem failure_cases {b : CircuitBreaker} {threshold : Nat}
    (henough : b.state ≠ .closed → threshold ≤ b.failures) (now : Time) :
    (threshold ≤ b.failures + 1 ∧ b.failure threshold now = ⟨.open_, b.failures + 1, now⟩) ∨
      (b.state = .closed ∧ b.failures + 1 < threshold ∧
        b.failure threshold now = { b with failures := b.failures + 1 }) := by
  unfold CircuitBreaker.failure
  by_cases hcount : threshold ≤ b.failures + 1
  · exact .inl ⟨hcount, by simp [hcount]⟩
  · have hclosed : b.state = .closed := by
      by_contra hne
      exact hcount ((henough hne).trans (Nat.le_succ _))
    exact .inr ⟨hclosed, not_le.mp hcount, by simp [hclosed, hcount]⟩

theorem trial_set {id : Nat} {c : Call} (h : trialInFlight (some c) = trialInFlight (s.calls id)) (i : Nat) :
    trialInFlight ((s.set id c).calls i) = trialInFlight (s.calls i) := by
  rw [set_calls]
  split
  · rename_i hi
    rw [hi, h]
  · rfl

theorem trial_set_over {id i : Nat} {c : Call} (hc : trialInFlight (some c) = false)
    (h : trialInFlight ((s.set id c).calls i) = true) : i ≠ id ∧ trialInFlight (s.calls i) = true := by
  rw [set_calls] at h
  split at h
  · rw [hc] at h
    cases h
  · exact ⟨‹_›, h⟩

theorem Inv.wait (h : Inv g s) (d : Time) : Inv g { s with now := s.now + d } where
  past := h.past.trans (Nat.le_add_right _ _)
  counted := h.counted
  enough := h.enough
  half := h.half
  alone := h.alone
  trial := h.trial
  shut := fun after id t before hlog hcount =>
    (h.shut after id t before hlog hcount).imp_left (·.trans (Nat.le_add_right _ _))
  rests := h.rests
  ended := h.ended

theorem Inv.set (h : Inv g s) {id : Nat} {c : Call} (hflight : trialInFlight (some c) = trialInFlight (s.calls id))
    (hended : c.phase.inFlight = false → (∃ e, c.phase = .refused e) ∨ ∃ e ∈ s.log, e.verdictOf id = true) :
    Inv g (s.set id c) where
  past := h.past
  counted := h.counted
  enough := h.enough
  half := by
    intro i hi
    rw [trial_set hflight] at hi
    exact h.half i hi
  alone := by
    intro i j hi hj
    rw [trial_set hflight] at hi hj
    exact h.alone i j hi hj
  trial := by
    intro hhalf
    obtain ⟨i, hi⟩ := h.trial hhalf
    exact ⟨i, by rwa [trial_set hflight]⟩
  shut := h.shut
  rests := h.rests
  ended := by
    intro i d hd hover
    rw [set_calls] at hd
    split at hd
    · rename_i hi
      cases hd
      rw [hi]
      exact hended hover
    · exact h.ended i d hd hover

theorem Inv.ended_cons (h : Inv g s) {id : Nat} {c : Call} {e : Entry}
    (hended : c.phase.inFlight = false → e.verdictOf id = true) {i : Nat} {d : Call} (hd : (s.set id c).calls i = some d)
    (hover : d.phase.inFlight = false) :
    (∃ e, d.phase = .refused e) ∨ ∃ f ∈ e :: s.log, f.verdictOf i = true := by
  rw [set_calls] at hd
  split at hd
  · rename_i hi
    cases hd
    exact .inr ⟨e, List.mem_cons_self, hi ▸ hended hover⟩
  · rcases h.ended i d hd hover with hrefused | ⟨f, hf, hverdict⟩
    · exact .inl hrefused
    · exact .inr ⟨f, List.mem_cons_of_mem _ hf, hverdict⟩

theorem Inv.admitted (h : Inv g s) {id : Nat} {b : CircuitBreaker} (hnone : s.calls id = none)
    (hb : s.breaker.acquire g.policy.breakerReset s.now = some b) :
    Inv g { s.set id ⟨s.breaker.state == .open_, .ready 0 s.now⟩ with
      breaker := b, log := .admitted id s.now :: s.log } := by
  have hended : ∀ i d, (s.set id ⟨s.breaker.state == .open_, .ready 0 s.now⟩).calls i = some d →
      d.phase.inFlight = false →
      (∃ e, d.phase = .refused e) ∨ ∃ f ∈ .admitted id s.now :: s.log, f.verdictOf i = true :=
    fun i d hd => h.ended_cons (fun hover => by cases hover) hd
  rcases acquire_cases hb with ⟨hclosed, rfl⟩ | ⟨hopen, hreset, rfl⟩
  · have hflight : trialInFlight (some ⟨s.breaker.state == .open_, .ready 0 s.now⟩) = trialInFlight (s.calls id) := by
      rw [hnone, hclosed]
      rfl
    have hset := h.set hflight fun hover => by cases hover
    refine ⟨hset.past, hset.counted, hset.enough, hset.half, hset.alone, hset.trial,
      h.shut.cons (fun _ _ heq => by cases heq) fun t hopen => ?_,
      h.rests.cons fun i time heq after id t before hlog hcount => ?_,
      hended⟩
    · rw [hclosed] at hopen
      cases hopen
    · cases heq
      rcases h.shut after id t before hlog hcount with hpassed | ⟨hopen, -⟩
      · exact hpassed
      · rw [hclosed] at hopen
        cases hopen
  · have hnone' : ∀ i, trialInFlight (s.calls i) ≠ true := fun i hi => by
      have hhalf := h.half i hi
      rw [hopen] at hhalf
      cases hhalf
    have honly : ∀ i, trialInFlight ((s.set id ⟨s.breaker.state == .open_, .ready 0 s.now⟩).calls i) =
        true → i = id := by
      intro i hi
      rw [set_calls] at hi
      split at hi
      · assumption
      · exact absurd hi (hnone' i)
    have hpassed : s.breaker.openedAt + g.policy.breakerReset ≤ s.now := (Nat.le_sub_iff_add_le' h.past).mp hreset
    refine ⟨h.past, h.counted, fun _ => h.enough (by rw [hopen]; exact fun heq => by cases heq), fun _ _ => rfl,
      fun i j hi hj => (honly i hi).trans (honly j hj).symm, fun _ => ⟨id, ?_⟩,
      h.shut.cons (fun _ _ heq => by cases heq) fun t _ hle => .inl ((Nat.add_le_add_right hle _).trans hpassed),
      h.rests.cons fun i time heq after id t before hlog hcount => ?_, hended⟩
    · rw [hopen]
      simp only [set_calls, if_pos, trialInFlight]
      rfl
    · cases heq
      rcases h.shut after id t before hlog hcount with hpassed | ⟨-, hle⟩
      · exact hpassed
      · exact (Nat.add_le_add_right hle _).trans hpassed

theorem Inv.no_trial (h : Inv g s) {id : Nat} {trial : Bool} {p q : CallPhase} (hc : s.calls id = some ⟨trial, p⟩)
    (hp : p.inFlight = true) (hq : q.inFlight = false) (hhalf : s.breaker.state = .halfOpen → trial = true) (i : Nat) :
    trialInFlight ((s.set id ⟨trial, q⟩).calls i) ≠ true := by
  intro hi
  have hover : trialInFlight (some ⟨trial, q⟩) = false := by
    rw [trialInFlight, hq, Bool.and_false]
  obtain ⟨hne, hi⟩ := trial_set_over hover hi
  have htrial := hhalf (h.half i hi)
  have hid : trialInFlight (s.calls id) = true := by
    rw [hc, trialInFlight, htrial, hp]
    rfl
  exact hne (h.alone i id hi hid)

theorem Inv.succeeded (h : Inv g s) {id : Nat} {trial : Bool} {text : String}
    (hc : s.calls id = some ⟨trial, .answered text⟩)
    (hhalf : s.breaker.state = .halfOpen → trial = true) (hopen : s.breaker.state ≠ .open_) :
    Inv g { s.set id ⟨trial, .settling text⟩ with breaker := s.breaker.success, log := .success id :: s.log } := by
  have hno := h.no_trial (q := .settling text) hc rfl rfl hhalf
  have hended : ∀ i d, (s.set id ⟨trial, .settling text⟩).calls i = some d → d.phase.inFlight = false →
      (∃ e, d.phase = .refused e) ∨ ∃ f ∈ .success id :: s.log, f.verdictOf i = true :=
    fun i d hd => h.ended_cons (fun _ => verdictOf_success id) hd
  refine ⟨h.past, rfl, fun hne => absurd rfl hne, fun i hi => absurd hi (hno i), fun i _ hi => absurd hi (hno i),
    fun heq => (by cases heq), h.shut.cons (fun _ _ heq => by cases heq) fun t hstate => absurd hstate hopen,
    h.rests.cons (fun _ _ heq => by cases heq), hended⟩

theorem Inv.gaveUp (h : Inv g s) {id : Nat}
    {trial : Bool} {e : AdaptationError} (hc : s.calls id = some ⟨trial, .givingUp e⟩)
    (hhalf : s.breaker.state = .halfOpen → trial = true) :
    Inv g { s.set id ⟨trial, .returned (.error e)⟩ with
      breaker := s.breaker.failure g.policy.breakerFailureThreshold s.now
      log := .failure id s.now :: s.log } := by
  have hno := h.no_trial (q := .returned (.error e)) hc rfl rfl hhalf
  have hrests : Rests g.policy (.failure id s.now :: s.log) := h.rests.cons fun _ _ heq => by cases heq
  have hended : ∀ i d, (s.set id ⟨trial, .returned (.error e)⟩).calls i = some d → d.phase.inFlight = false →
      (∃ e, d.phase = .refused e) ∨ ∃ f ∈ .failure id s.now :: s.log, f.verdictOf i = true :=
    fun i d hd => h.ended_cons (fun _ => verdictOf_failure id s.now) hd
  have hcount : consecutive (.failure id s.now :: s.log) = s.breaker.failures + 1 := by
    rw [consecutive, h.counted]
  have hpast := h.past
  rcases failure_cases h.enough s.now with ⟨hmany, hfailure⟩ | ⟨hclosed, hfew, hfailure⟩
  · rw [hfailure]
    refine ⟨le_rfl, hcount.symm, fun _ => hmany, fun i hi => absurd hi (hno i), fun i _ hi => absurd hi (hno i),
      fun heq => (by cases heq), ?_, hrests, hended⟩
    intro after i t before hlog hmany
    rcases cons_eq hlog with ⟨-, heq, -⟩ | ⟨after', -, hrest⟩
    · cases heq
      exact .inr ⟨rfl, le_rfl⟩
    · rcases h.shut after' i t before hrest hmany with hpassed | ⟨-, hle⟩
      · exact .inl hpassed
      · exact .inr ⟨rfl, hle.trans hpast⟩
  · rw [hfailure]
    refine ⟨hpast, hcount.symm, fun hne => absurd hclosed hne, fun i hi => absurd hi (hno i),
      fun i _ hi => absurd hi (hno i),
      fun heq => ?_, ?_, hrests, hended⟩
    · simp only at heq
      rw [hclosed] at heq
      cases heq
    · intro after i t before hlog hmany
      rcases cons_eq hlog with ⟨-, heq, rfl⟩ | ⟨after', -, hrest⟩
      · cases heq
        rw [hcount] at hmany
        exact absurd hmany (not_le.mpr hfew)
      · rcases h.shut after' i t before hrest hmany with hpassed | ⟨hopen, -⟩
        · exact .inl hpassed
        · rw [hclosed] at hopen
          cases hopen

theorem Inv.move {s' : State} (h : Inv g s) (hm : Move g s s') : Inv g s' := by
  cases hm with
  | wait d => exact h.wait d
  | refused id e hnone =>
    refine h.set ?_ fun _ => .inl ⟨e, rfl⟩
    rw [hnone]
    rfl
  | admitted id b hnone hb => exact h.admitted hnone hb
  | own id trial p p' hc hover hflight =>
    refine h.set ?_ fun hended => ?_
    · rw [hc, trialInFlight, trialInFlight, hflight]
    · rcases h.ended id _ hc (hflight ▸ hended) with ⟨e, hrefused⟩ | hverdict
      · simp only at hrefused
        rw [hrefused] at hover
        cases hover
      · exact .inr hverdict
  | succeeded id trial text hc hhalf hopen => exact h.succeeded hc hhalf hopen
  | gaveUp id trial e hc hhalf => exact h.gaveUp hc hhalf

theorem Inv.promise (h : Inv g s) : Promise g s where
  oneTrial := fun _ => h.alone
  rests := h.rests
  ends := by
    intro id c hc hreturned
    rcases h.ended id c hc (CallPhase.not_inFlight (CallPhase.over_of_returned hreturned)) with ⟨e, he⟩ | hverdict
    · rw [he] at hreturned
      cases hreturned
    · exact hverdict
  reopens := by
    intro hover later hlater
    have hnot : s.breaker.state ≠ .halfOpen := by
      intro hhalf
      obtain ⟨i, hi⟩ := h.trial hhalf
      cases hc : s.calls i with
      | none =>
        rw [hc] at hi
        cases hi
      | some c =>
        rw [hc, trialInFlight, CallPhase.not_inFlight (hover i c hc), Bool.and_false] at hi
        cases hi
    unfold CircuitBreaker.acquire
    split
    · rfl
    · rw [if_pos (Nat.le_sub_of_add_le' hlater)]
      rfl
    · exact absurd ‹_› hnot

/-- The breaker keeps its promise in every orderly run. -/
theorem breaker_keeps {s : State} (h : Steps (step g) Orderly {} s) : Promise g s := by
  refine (h.inv (Inv g) ?_ Inv.init).promise
  intro s e s' hs ho hstep
  exact hs.move (.of_step ho hstep)

end

def quick : GuardedLlmClient where
  provider := "p"
  policy := { breakerFailureThreshold := 1 }

def down : Except AdaptationError String := .error (pythonError "RuntimeError")

def fails (id : Nat) : List Event := [.complete id (.ok ()), .send id, .answer id down, .settle id (.ok ()), .verdict id]

/-- The trial that follows succeeds. -/
theorem breaker_keeps_quick : ∃ s : State, s.breaker.state = .closed ∧ s.log.length = 4 ∧ Promise quick s := by
  obtain ⟨s, hs, hp⟩ := Steps.exists_of_runs (step quick) Orderly {}
    (fails 0 ++ [.wait 60000000, .complete 1 (.ok ()), .send 1, .answer 1 (.ok "text"), .verdict 1])
    (fun s => s.breaker.state == .closed && s.log.length == 4) (by decide +kernel)
  rw [Bool.and_eq_true, beq_iff_eq, beq_iff_eq] at hp
  exact ⟨s, hp.1, hp.2, breaker_keeps hs⟩

/-- The ledger fails while the trial is settled: every call has returned, and none is admitted again. -/
theorem trial_lost : ∃ s, Steps (step quick) Free {} s ∧ ¬Promise quick s := by
  obtain ⟨s, hs, hp⟩ := Steps.exists_of_runs (step quick) Free {}
    (fails 0 ++ [.wait 60000000, .complete 1 (.ok ()), .send 1, .answer 1 down, .settle 1 (.error (pythonError "OSError"))])
    (fun s => s.log == [.admitted 1 60000000, .failure 0 0, .admitted 0 0] &&
      (s.calls 1).any fun c => c.phase.hasReturned) (by decide +kernel)
  rw [Bool.and_eq_true, beq_iff_eq] at hp
  refine ⟨s, hs, fun h => ?_⟩
  obtain ⟨c, hc, hreturned⟩ := (Option.any_eq_true _ _).mp hp.2
  have hends := h.ends 1 c hc hreturned
  rw [hp.1] at hends
  revert hends
  decide

/-- A call from before the circuit opened fails during the trial, and a second trial is let through. -/
theorem two_trials : ∃ s, Steps (step quick) Free {} s ∧ ¬Promise quick s := by
  obtain ⟨s, hs, hp⟩ := Steps.exists_of_runs (step quick) Free {}
    ([.complete 9 (.ok ()), .send 9, .answer 9 down, .settle 9 (.ok ())] ++ fails 0 ++
      [.wait 60000000, .complete 1 (.ok ()), .verdict 9, .wait 60000000, .complete 2 (.ok ())])
    (fun s => s.breaker.state == .halfOpen && trialInFlight (s.calls 1) && trialInFlight (s.calls 2)) (by decide +kernel)
  rw [Bool.and_eq_true, Bool.and_eq_true, beq_iff_eq] at hp
  refine ⟨s, hs, fun h => ?_⟩
  have hopen : s.breaker.state ≠ .closed := by
    rw [hp.1.1]
    exact fun heq => by cases heq
  exact absurd (h.oneTrial hopen 1 2 hp.1.2 hp.2) (by decide)

end OranAdapt.BreakerCalls
