import OranAdapt.Runs
import OranAdapt.SlidingWindow
import OranAdapt.Store
import Mathlib.Algebra.Order.Group.Nat
import Mathlib.Data.Rat.Floor

/-!
# The guard every LLM call goes through

`llm.guard`: the caps, the retries, the circuit breaker and the usage ledger of
`GuardedLlmClient`, with a ledger that can be read and written. One call is a
machine: it is checked, each of its attempts is sent and answered, and time
passes anywhere between. The budget is checked when a call starts and not when
an attempt is sent, so a retry is only as safe as what its predecessors left.
-/

namespace OranAdapt

open Runs SlidingWindow

/-- Durations and times in microseconds, prices and `LLM_CHARS_PER_TOKEN` as rationals. -/
structure GuardPolicy where
  maxRetries : Nat := 0
  retryBackoff : Time := 500000
  breakerFailureThreshold : Nat := 3
  breakerReset : Time := 60000000
  maxInputTokens : Nat := 0
  maxOutputTokens : Nat := 2048
  tokenBudget : Nat := 0
  costBudget : Rat := 0
  budgetWindow : Time := 86400000000
  costPer1kInput : Rat := 0
  costPer1kOutput : Rat := 0
  charsPerToken : Rat := 4

def GuardPolicy.tokens (p : GuardPolicy) (text : String) : Nat :=
  if text.isEmpty then 0 else ((text.length : Rat) / p.charsPerToken).floor.toNat + 1

def GuardPolicy.cost (p : GuardPolicy) (inputTokens outputTokens : Nat) : Rat :=
  (inputTokens * p.costPer1kInput + outputTokens * p.costPer1kOutput) / 1000

structure Usage where
  inputTokens : Nat
  outputTokens : Nat
  estimated : Bool := false
  cost : Rat := 0
deriving DecidableEq

def Usage.tokens (u : Usage) : Nat := u.inputTokens + u.outputTokens

def Usage.add (total usage : Usage) : Usage where
  inputTokens := total.inputTokens + usage.inputTokens
  outputTokens := total.outputTokens + usage.outputTokens
  estimated := total.estimated || usage.estimated
  cost := total.cost + usage.cost

/-- `round(q, ndigits)`: half a unit rounds to the even neighbour. -/
def roundTo (q : Rat) (ndigits : Nat) : Rat :=
  let scaled := q * (10 ^ ndigits : Nat)
  let rest := scaled - scaled.floor
  (if rest < 1 / 2 ∨ rest = 1 / 2 ∧ scaled.floor % 2 = 0 then scaled.floor
    else scaled.floor + 1 : Int) / (10 ^ ndigits : Nat)

/-! ## The usage ledger -/

structure LlmUsage where
  createdAt : Time
  provider : String
  usage : Usage
  outcome : String

abbrev UsageLedger := List LlmUsage

/-- `spent`: the tokens and the cost recorded since a time. -/
def UsageLedger.spent (ledger : UsageLedger) (since : Time) : Nat × Rat :=
  (SlidingWindow.spent LlmUsage.createdAt (·.usage.tokens) since ledger,
    SlidingWindow.spent LlmUsage.createdAt (·.usage.cost) since ledger)

/-! ## The circuit breaker -/

inductive Circuit where
  | closed | open_ | halfOpen
deriving DecidableEq, Repr

structure CircuitBreaker where
  state : Circuit := .closed
  failures : Nat := 0
  openedAt : Time := 0

namespace CircuitBreaker

def acquire (b : CircuitBreaker) (reset now : Time) : Option CircuitBreaker :=
  match b.state with
  | .closed => some b
  | .open_ => if reset ≤ now - b.openedAt then some { b with state := .halfOpen } else none
  | .halfOpen => none

def retryIn (b : CircuitBreaker) (reset now : Time) : Time := reset - (now - b.openedAt)

def success (b : CircuitBreaker) : CircuitBreaker := { b with state := .closed, failures := 0 }

def failure (b : CircuitBreaker) (threshold : Nat) (now : Time) : CircuitBreaker :=
  let failures := b.failures + 1
  if b.state = .halfOpen ∨ threshold ≤ failures then { state := .open_, failures, openedAt := now }
    else { b with failures }

end CircuitBreaker

/-! ## The guard -/

def ErrorClass.isLlmUnavailable : ErrorClass → Bool
  | other code => code ∈ ["LLM_UNAVAILABLE", "LLM_CIRCUIT_OPEN", "LLM_BUDGET_EXCEEDED"]
  | _ => false

/-- A call of `complete` on its way: its turns, how many attempts failed before this one, and
when the pause before it ends. -/
structure LlmCall where
  system : String
  prompt : String
  inputTokens : Nat
  attempt : Nat := 0
  notBefore : Time := 0
  total : Usage := ⟨0, 0, false, 0⟩

inductive GuardPhase where
  /-- no call is on its way -/
  | idle
  /-- the next attempt is to be sent -/
  | ready (call : LlmCall)
  /-- an attempt was sent, and is not answered yet -/
  | sent (call : LlmCall)

structure GuardState where
  now : Time
  ledger : UsageLedger := []
  breaker : CircuitBreaker := {}
  phase : GuardPhase := .idle
  /-- what `note_call` left for the record of the call -/
  noted : Usage := ⟨0, 0, false, 0⟩
  /-- what the last call returned or raised -/
  result : Option (Except AdaptationError String) := none

structure GuardedLlmClient where
  provider : String
  policy : GuardPolicy

inductive GuardEvent where
  | wait (d : Time)
  | complete (system prompt : String)
  | send
  /-- what `inner.complete` returned or raised, and the usage the provider reported -/
  | answer (answer : Except AdaptationError String) (reported : Option Usage)

namespace GuardedLlmClient

variable (g : GuardedLlmClient)

def refuse (reason message : String) (context : Context) : AdaptationError :=
  ⟨.other "LLM_BUDGET_EXCEEDED", message, [("provider", .str g.provider), ("cap", .str reason)] ++ context⟩

/-- `since`: where the budget window that ends at `now` starts. -/
def since (now : Time) : Time := now - g.policy.budgetWindow

def checkBudget (now : Time) (ledger : UsageLedger) (inputTokens : Nat) : Except AdaptationError Unit :=
  let policy := g.policy
  if policy.maxInputTokens ≠ 0 ∧ policy.maxInputTokens < inputTokens then
    .error (g.refuse "max_input_tokens" "the prompt is larger than LLM_MAX_INPUT_TOKENS"
      [("estimated_input_tokens", .nat inputTokens), ("limit", .nat policy.maxInputTokens)])
  else if policy.tokenBudget = 0 ∧ policy.costBudget = 0 then .ok ()
  else
    let (spentTokens, spentCost) := ledger.spent (g.since now)
    if policy.tokenBudget ≠ 0 ∧ policy.tokenBudget < spentTokens + (inputTokens + policy.maxOutputTokens) then
      .error (g.refuse "token_budget" "LLM_TOKEN_BUDGET would be exceeded"
        [("spent", .nat spentTokens), ("limit", .nat policy.tokenBudget)])
    else if policy.costBudget ≠ 0 ∧ policy.costBudget < spentCost + policy.cost inputTokens policy.maxOutputTokens then
      .error (g.refuse "cost_budget" "LLM_COST_BUDGET would be exceeded"
        [("spent", .num (roundTo spentCost 6)), ("limit", .num policy.costBudget)])
    else .ok ()

def circuitOpen (b : CircuitBreaker) (now : Time) : AdaptationError :=
  ⟨.other "LLM_CIRCUIT_OPEN", "the LLM circuit is open after repeated failures",
    [("provider", .str g.provider), ("retry_in_s", .num (roundTo (b.retryIn g.policy.breakerReset now / 1000000) 1))]⟩

/-- `complete` up to its loop. -/
def begin (system prompt : String) (s : GuardState) : GuardState :=
  let s := { s with noted := ⟨0, 0, false, 0⟩ }
  let inputTokens := g.policy.tokens system + g.policy.tokens prompt
  match g.checkBudget s.now s.ledger inputTokens with
  | .error e => { s with result := some (.error e) }
  | .ok () =>
    match s.breaker.acquire g.policy.breakerReset s.now with
    | none => { s with result := some (.error (g.circuitOpen s.breaker s.now)) }
    | some breaker => { s with breaker, phase := .ready { system, prompt, inputTokens } }

def attempt : Except AdaptationError String → Except AdaptationError String
  | .ok text => .ok text
  | .error e =>
    if e.cls.isLlmUnavailable then .error e
    else .error ⟨.other "LLM_UNAVAILABLE", "the LLM adapter failed unexpectedly",
      [("provider", .str g.provider), ("cause", .str e.cls.code)]⟩

def usage (inputTokens : Nat) (text : String) (reported : Option Usage) : Usage :=
  let usage := reported.getD ⟨inputTokens, g.policy.tokens text, true, 0⟩
  { usage with cost := g.policy.cost usage.inputTokens usage.outputTokens }

def settled (c : LlmCall) (answer : Except AdaptationError String) (reported : Option Usage) : Usage :=
  match g.attempt answer with
  | .ok text => g.usage c.inputTokens text reported
  | .error _ => g.usage c.inputTokens "" reported

def settle (c : LlmCall) (usage : Usage) (outcome : String) (s : GuardState) : GuardState × LlmCall :=
  ({ s with ledger := s.ledger ++ [⟨s.now, g.provider, usage, outcome⟩] }, { c with total := c.total.add usage })

/-- The loop of `complete` once an attempt is answered. -/
def answered (c : LlmCall) (answer : Except AdaptationError String) (reported : Option Usage) (s : GuardState) : GuardState :=
  let usage := g.settled c answer reported
  match g.attempt answer with
  | .ok text =>
    let (s, c) := g.settle c usage "ok" { s with breaker := s.breaker.success }
    { s with phase := .idle, noted := c.total, result := some (.ok text) }
  | .error e =>
    let (s, c) := g.settle c usage "failed" s
    if g.policy.maxRetries ≤ c.attempt then
      { s with
        breaker := s.breaker.failure g.policy.breakerFailureThreshold s.now
        phase := .idle
        noted := c.total
        result := some (.error e) }
    else
      { s with
        phase := .ready { c with attempt := c.attempt + 1, notBefore := s.now + g.policy.retryBackoff * 2 ^ c.attempt } }

def step (s : GuardState) : GuardEvent → Option GuardState
  | .wait d => some { s with now := s.now + d }
  | .complete system prompt =>
    match s.phase with
    | .idle => some (g.begin system prompt s)
    | _ => none
  | .send =>
    match s.phase with
    | .ready c => if c.notBefore ≤ s.now then some { s with phase := .sent c } else none
    | _ => none
  | .answer answer reported =>
    match s.phase with
    | .sent c => some (g.answered c answer reported s)
    | _ => none

end GuardedLlmClient

end OranAdapt
