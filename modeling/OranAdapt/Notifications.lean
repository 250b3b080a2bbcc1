import OranAdapt.Runs
import OranAdapt.Store
import Mathlib.Algebra.Order.Group.Nat
import Mathlib.Data.List.Sort
import Mathlib.Data.Rat.Floor
import Mathlib.Logic.Function.Basic

/-!
# The notification outbox

`notifications.dispatcher` and the redrive of `notifications.service`, for any
number of dispatchers on one table of deliveries. Each transaction of a
dispatcher is one step and so is each thing it does outside one: between any two
of its steps the others run, time passes, and it may stop for good. The clocks
of the processes agree.
-/

namespace OranAdapt

open Runs

abbrev DispatcherId := String

/-! ## The table -/

inductive DeliveryStatus where
  | pending | delivered | dead
deriving DecidableEq, Repr

structure NotificationDelivery where
  eventId : String
  sink : String
  status : DeliveryStatus := .pending
  attempts : Nat := 0
  nextAttemptAt : Time
  leaseUntil : Option Time := none
  leasedBy : Option DispatcherId := none
  lastError : Option String := none
  lastStatusCode : Option Int := none
  redriveCount : Nat := 0
  createdAt : Time
  updatedAt : Time
  deliveredAt : Option Time := none
  deadAt : Option Time := none
deriving DecidableEq

structure NotificationSettings where
  dispatchBatch : Nat := 50
  lease : Time := 60000000
  maxAttempts : Nat := 8
  backoffInitial : Time := 2000000
  backoffMax : Time := 600000000
  backoffJitter : Rat := 1 / 5
  breakerFailures : Nat := 5
  breakerReset : Time := 60000000
  lease_pos : 0 < lease := by decide

namespace NotificationDelivery

/-- The condition of a claim: the row is pending and its time has come. -/
def due (now : Time) (r : NotificationDelivery) : Bool := decide (r.status = .pending ∧ r.nextAttemptAt ≤ now)

def claimed (d : DispatcherId) (now leaseEnd : Time) (r : NotificationDelivery) : NotificationDelivery :=
  { r with
    nextAttemptAt := leaseEnd, leaseUntil := some leaseEnd, leasedBy := some d, attempts := r.attempts + 1, updatedAt := now }

/-- What `_release` writes; the row it finds was counted at its claim. -/
def released (due now : Time) (r : NotificationDelivery) : NotificationDelivery :=
  { r with nextAttemptAt := due, leaseUntil := none, leasedBy := none, attempts := r.attempts - 1, updatedAt := now }

def redriven (now : Time) (r : NotificationDelivery) : NotificationDelivery :=
  { r with
    status := .pending, attempts := 0, nextAttemptAt := now, leaseUntil := none, leasedBy := none, deadAt := none
    updatedAt := now, redriveCount := r.redriveCount + 1 }

end NotificationDelivery

/-- `detail`: what a failed send leaves in the row. -/
structure DeliveryDetail where
  lastError : String
  lastStatusCode : Option Int
deriving DecidableEq

/-- The values `_deliver` hands to `_finish`. -/
inductive DeliveryOutcome where
  | delivered (at_ : Time)
  | retry (due : Time) (detail : DeliveryDetail)
  | dead (at_ : Time) (detail : DeliveryDetail)
deriving DecidableEq

def NotificationDelivery.finished (now : Time) (r : NotificationDelivery) : DeliveryOutcome → NotificationDelivery
  | .delivered at_ =>
    { r with
      leaseUntil := none, leasedBy := none, updatedAt := now, status := .delivered, deliveredAt := some at_
      lastError := none, lastStatusCode := none }
  | .retry due detail =>
    { r with
      leaseUntil := none, leasedBy := none, updatedAt := now, nextAttemptAt := due, lastError := some detail.lastError
      lastStatusCode := detail.lastStatusCode }
  | .dead at_ detail =>
    { r with
      leaseUntil := none, leasedBy := none, updatedAt := now, status := .dead, deadAt := some at_
      lastError := some detail.lastError, lastStatusCode := detail.lastStatusCode }

abbrev Deliveries := Table Nat NotificationDelivery

/-! ## The breaker of a sink -/

structure SinkCircuit where
  failures : Nat := 0
  openedAt : Option Time := none
  trial : Bool := false

namespace SinkCircuit

variable (settings : NotificationSettings) (now : Time) (c : SinkCircuit)

def isOpen : Bool :=
  match c.openedAt with
  | none => false
  | some openedAt => c.trial || decide (now - openedAt < settings.breakerReset)

/-- `allow`: whether the call may go ahead, and the circuit after the question. -/
def allow : Bool × SinkCircuit :=
  match c.openedAt with
  | none => (true, c)
  | some _ => if c.isOpen settings now then (false, c) else (true, { c with trial := true })

def failure : SinkCircuit :=
  let failures := c.failures + 1
  if c.trial = true ∨ settings.breakerFailures ≤ failures then { failures, openedAt := some now } else { c with failures }

def wait : Time :=
  match c.openedAt with
  | none => 0
  | some openedAt => if c.trial then settings.breakerReset else openedAt + settings.breakerReset - now

end SinkCircuit

/-! ## A dispatcher -/

/-- What a sink did with a message: `send` returned, it raised a `NotificationDeliveryError`, or it
broke the port's contract. -/
inductive SendResult where
  | accepted
  | refused (message : String) (retryable : Bool) (statusCode : Option Int)
  | raised (type text : String)

/-- `OutboundMessage`, less what the sink alone reads of it. -/
structure OutboundMessage where
  eventId : String
  attempt : Nat
deriving DecidableEq

/-- A delivery a dispatcher claimed, with the lease its claim wrote and the redrive count of the
row it claimed. The code keeps the id alone. -/
structure Claimed where
  delivery : Nat
  leaseEnd : Time
  redriveCount : Nat
deriving DecidableEq

/-- Where a dispatcher is in `run_once`; the claims it has not come to are in `rest`. -/
inductive DispatcherPhase where
  | idle
  /-- in `_claim`, before the candidates are selected -/
  | polling (now : Time) (usable : List String)
  /-- in `_claim`, before the candidates are updated -/
  | claiming (now : Time) (candidates : List Nat)
  /-- before the `_deliver` of the next claim -/
  | delivering (rest : List Claimed)
  /-- `_message` has read the row -/
  | loaded (claim : Claimed) (sink : String) (message : OutboundMessage) (rest : List Claimed)
  /-- the breaker denied the call -/
  | denied (claim : Claimed) (due : Time) (rest : List Claimed)
  /-- `sink.send` was called -/
  | sending (claim : Claimed) (sink : String) (message : OutboundMessage) (rest : List Claimed)
  /-- the sink answered -/
  | answered (claim : Claimed) (outcome : DeliveryOutcome) (rest : List Claimed)

structure Dispatcher where
  sinks : List String
  circuits : String → SinkCircuit := fun _ => {}
  phase : DispatcherPhase := .idle

namespace Dispatcher

def usable (settings : NotificationSettings) (now : Time) (p : Dispatcher) : List String :=
  p.sinks.filter fun sink => !(p.circuits sink).isOpen settings now

def setCircuit (p : Dispatcher) (sink : String) (c : SinkCircuit) : Dispatcher :=
  { p with circuits := Function.update p.circuits sink c }

/-- `_backoff_s`, the random number it draws in `rng`. -/
def backoff (settings : NotificationSettings) (attempts : Nat) (rng : Rat) : Time :=
  let base := min settings.backoffMax (settings.backoffInitial * 2 ^ (attempts - 1))
  (max 0 ((base : Rat) * (1 + settings.backoffJitter * (2 * rng - 1)))).floor.toNat

/-- The error `_deliver` goes on with: its retryable flag, and what it leaves in the row. -/
def error : SendResult → Option (Bool × DeliveryDetail)
  | .accepted => none
  | .refused message retryable statusCode =>
    some (retryable, ⟨String.ofList (("NOTIFICATION_DELIVERY_FAILED: " ++ message).toList.take 2000), statusCode⟩)
  | .raised type text =>
    some (true, ⟨String.ofList (("NOTIFICATION_DELIVERY_FAILED: " ++ type ++ ": " ++ text).toList.take 2000), none⟩)

/-- What `_deliver` makes of the answer. -/
def outcome (settings : NotificationSettings) (now : Time) (message : OutboundMessage) (result : SendResult) (rng : Rat) :
    DeliveryOutcome :=
  match error result with
  | none => .delivered now
  | some (retryable, detail) =>
    if retryable = true ∧ message.attempt < settings.maxAttempts then
      .retry (now + backoff settings message.attempt rng) detail
    else .dead now detail

def circuitAfter (settings : NotificationSettings) (now : Time) (c : SinkCircuit) (result : SendResult) : SinkCircuit :=
  match error result with
  | none => {}
  | some _ => c.failure settings now

end Dispatcher

/-! ## The outbox -/

structure Outbox where
  now : Time
  lastId : Nat := 0
  deliveries : Deliveries := Table.empty
  dispatchers : DispatcherId → Dispatcher
  /-- the event ids each sink accepted a message with -/
  accepted : List (String × String) := []
  /-- how often `send` was called for a delivery since it was last redriven -/
  sends : Nat → Nat := fun _ => 0

inductive OutboxAction where
  | wait (d : Time)
  /-- `record_event` of one event for one sink -/
  | publish (eventId sink : String)
  | redrive (delivery : Nat)
  | poll (d : DispatcherId)
  | select (d : DispatcherId)
  | claim (d : DispatcherId)
  | load (d : DispatcherId)
  | allow (d : DispatcherId)
  | answer (d : DispatcherId) (result : SendResult) (rng : Rat)
  | record (d : DispatcherId)
  | release (d : DispatcherId)
  /-- the dispatcher crashes, or an exception ends its batch -/
  | abandon (d : DispatcherId)

namespace Outbox

variable (settings : NotificationSettings)

/-- The candidates of a poll: `ORDER BY next_attempt_at, id LIMIT`. -/
def candidates (now : Time) (usable : List String) (t : Deliveries) : List Nat :=
  (((t.rows.filter fun p => p.2.due now && p.2.sink ∈ usable).insertionSort fun p q =>
    p.2.nextAttemptAt < q.2.nextAttemptAt ∨ p.2.nextAttemptAt = q.2.nextAttemptAt ∧ p.1 ≤ q.1).take
      settings.dispatchBatch).map Prod.fst

def claimRows (d : DispatcherId) (now : Time) : List Nat → Deliveries → Deliveries × List Claimed
  | [], t => (t, [])
  | k :: ks, t =>
    match t.get? k with
    | some r =>
      if r.due now then
        let (t', claimed) := claimRows d now ks (t.modify k (·.claimed d now (now + settings.lease)))
        (t', ⟨k, now + settings.lease, r.redriveCount⟩ :: claimed)
      else claimRows d now ks t
    | none => claimRows d now ks t

def setDispatcher (s : Outbox) (d : DispatcherId) (p : Dispatcher) : Outbox :=
  { s with dispatchers := Function.update s.dispatchers d p }

def setPhase (s : Outbox) (d : DispatcherId) (phase : DispatcherPhase) : Outbox :=
  s.setDispatcher d { s.dispatchers d with phase }

def finishRow (d : DispatcherId) (now : Time) (k : Nat) (outcome : DeliveryOutcome) (t : Deliveries) : Deliveries :=
  (t.updateWhere? k (fun r => decide (r.leasedBy = some d ∧ r.status = .pending)) (·.finished now outcome)).getD t

def releaseRow (d : DispatcherId) (now : Time) (k : Nat) (due : Time) (t : Deliveries) : Deliveries :=
  (t.updateWhere? k (fun r => decide (r.leasedBy = some d)) (·.released due now)).getD t

def publishRow (eventId sink : String) (s : Outbox) : Option Outbox :=
  if s.deliveries.rows.any fun p => p.2.eventId = eventId ∧ p.2.sink = sink then none
  else
    (s.deliveries.insert? (s.lastId + 1)
      { eventId, sink, nextAttemptAt := s.now, createdAt := s.now, updatedAt := s.now }).map fun deliveries =>
        { s with deliveries, lastId := s.lastId + 1 }

def redriveRow (k : Nat) (s : Outbox) : Option Outbox :=
  (s.deliveries.updateWhere? k (fun r => decide (r.status = .dead)) (·.redriven s.now)).map fun deliveries =>
    { s with deliveries, sends := Function.update s.sends k 0 }

def step (s : Outbox) : OutboxAction → Option Outbox
  | .wait d => some { s with now := s.now + d }
  | .publish eventId sink => s.publishRow eventId sink
  | .redrive k => s.redriveRow k
  | .poll d =>
    match (s.dispatchers d).phase with
    | .idle => some (s.setPhase d (.polling s.now ((s.dispatchers d).usable settings s.now)))
    | _ => none
  | .select d =>
    match (s.dispatchers d).phase with
    | .polling now usable => some (s.setPhase d (.claiming now (candidates settings now usable s.deliveries)))
    | _ => none
  | .claim d =>
    match (s.dispatchers d).phase with
    | .claiming now ks =>
      let (deliveries, claimed) := claimRows settings d now ks s.deliveries
      some ({ s with deliveries }.setPhase d (.delivering claimed))
    | _ => none
  | .load d =>
    match (s.dispatchers d).phase with
    | .delivering [] => some (s.setPhase d .idle)
    | .delivering (c :: rest) =>
      (s.deliveries.get? c.delivery).map fun r => s.setPhase d (.loaded c r.sink ⟨r.eventId, r.attempts⟩ rest)
    | _ => none
  | .allow d =>
    match (s.dispatchers d).phase with
    | .loaded c sink message rest =>
      let p := s.dispatchers d
      let (allowed, circuit) := (p.circuits sink).allow settings s.now
      let p := p.setCircuit sink circuit
      if allowed then
        some ({ s with sends := Function.update s.sends c.delivery (s.sends c.delivery + 1) }.setDispatcher d
          { p with phase := .sending c sink message rest })
      else some (s.setDispatcher d { p with phase := .denied c (s.now + circuit.wait settings s.now) rest })
    | _ => none
  | .answer d result rng =>
    match (s.dispatchers d).phase with
    | .sending c sink message rest =>
      let p := s.dispatchers d
      let p := p.setCircuit sink (Dispatcher.circuitAfter settings s.now (p.circuits sink) result)
      let accepted := if Dispatcher.error result = none then (sink, message.eventId) :: s.accepted else s.accepted
      some ({ s with accepted }.setDispatcher d
        { p with phase := .answered c (Dispatcher.outcome settings s.now message result rng) rest })
    | _ => none
  | .record d =>
    match (s.dispatchers d).phase with
    | .answered c outcome rest =>
      some ({ s with deliveries := finishRow d s.now c.delivery outcome s.deliveries }.setPhase d (.delivering rest))
    | _ => none
  | .release d =>
    match (s.dispatchers d).phase with
    | .denied c due rest =>
      some ({ s with deliveries := releaseRow d s.now c.delivery due s.deliveries }.setPhase d (.delivering rest))
    | _ => none
  | .abandon d => some (s.setPhase d .idle)

end Outbox

end OranAdapt
