import OranAdapt.Runs
import OranAdapt.Outcomes

/-!
# The running system

The job store together with everything that acts on it: workers with their
attempts, pollers, reapers, submitters, operators, and the rollout ticks and
operator actions that hold a model's lock. An action is one transaction of one
of them, or a step inside a process between two transactions, so a run is any
interleaving of any number of each. A transaction is one action because what it
changes it read `FOR UPDATE` or changes by one conditional update, and PostgreSQL
holds either lock to the commit; SQLite, meant for development, has no row locks.

What a process read in an earlier transaction is kept beside the database: the
candidates a poller listed, the expired leases and overdue jobs a reaper
selected, the claim a worker holds.
-/

namespace OranAdapt

/-! ## Attempts -/

/-- How the executor call of an attempt ended. -/
inductive Outcome where
  | returned (r : JobResult)
  | raised (e : AdaptationError)
  | crashed (text : String)

/-- The stop reasons after which a thread-mode attempt may still be running. -/
def Outcome.stopped : Outcome → Bool
  | raised e => e.cls == .jobTimeout || e.cls == .jobCancelled || e.cls == .jobDrained || e.cls == .jobLeaseLost
  | _ => false

/-- Where a worker is with its claim (`Worker._run_claim`). -/
inductive Phase where
  | claimed
  | running
  /-- The supervisor or the timeout said stop; the executor is stopping the attempt. -/
  | stopping (e : AdaptationError)
  /-- The executor call is over. -/
  | ended (o : Outcome)
  /-- `abandoned` is decided; the outcome is about to be recorded. -/
  | handling (o : Outcome)
  /-- `_record_failure` has read the stage a timeout struck in. -/
  | timingOut (e : AdaptationError) (lastStage : JobStatus)
  | closed

structure Attempt where
  claim : Claim
  phase : Phase
  timeoutS : Time
  /-- The pipeline still runs, in its process or thread. -/
  alive : Bool
  renewedUntil : Time
  /-- Thread mode: `on_abandoned` is to be called when the thread finishes. -/
  registered : Bool
  /-- The `abandoned` event of `_run_claim` is set. -/
  abandoned : Bool
  /-- The thread finished and its `on_abandoned` call is still to come. -/
  finishDue : Bool

/-- The pipeline is over: with a running executor call this is its outcome,
after a stop nobody asks for it. -/
def Attempt.pipelineOver (a : Attempt) (o : Outcome) : Attempt :=
  { a with
    alive := false
    finishDue := a.registered
    phase := match a.phase with
      | .running => .ended o
      | p => p }

/-- The executor gives a stopped attempt up: a process is killed, a thread
left to finish with `on_abandoned` registered. -/
def Attempt.halt (a : Attempt) (inProcess : Bool) (e : AdaptationError) : Attempt :=
  if inProcess then { a with phase := .ended (.raised e), registered := true, finishDue := !a.alive }
  else { a with phase := .ended (.raised e), alive := false }

/-- The worker process died. An attempt's own process notices a moment later. -/
def Attempt.die (a : Attempt) (inProcess : Bool) : Attempt :=
  { a with phase := .closed, alive := a.alive && !inProcess, registered := false, finishDue := false }

/-! ## The system -/

structure System where
  now : Time
  db : Db
  /-- Every claim that was won, under its lease token. -/
  attempts : Table Token Attempt
  /-- Jobs a poller's candidate list, or an inline run that saw them available, still names. -/
  listed : List JobId
  /-- Expired leases a reaper selected and has not come to. -/
  selected : List (JobId × Token)
  /-- Overdue jobs a reaper selected and has not come to. -/
  overdue : List JobId
  /-- Rollouts: their model, and whether their state is an active one. -/
  rollouts : Table RolloutId (ModelId × Bool)
  /-- Rollout ticks, approvals, rejections and manual rollbacks between taking
  their model's lock and releasing it. -/
  deciding : List (Holder × ModelId)

def System.init (models : Table ModelId ModelMetadata) : System :=
  { now := 0, db := { Db.empty with models }, attempts := .empty, listed := [], selected := [], overdue := [],
    rollouts := .empty, deciding := [] }

local instance lawful_leases : LawfulBEq (JobId × Token) := inferInstance

local instance lawful_decisions : LawfulBEq (Holder × ModelId) := inferInstance

/-- How a claim came to name its job: from a list read earlier, or a broker message. -/
inductive Source where
  | listed | message
deriving DecidableEq

inductive Action where
  | advance (dt : Time)
  -- callers of the API
  | submit (id : JobId) (event : DriftEvent) (actor : String)
  | cancel (id : JobId) (actor : String)
  | publish (id : JobId)
  | unpublish (id : JobId)
  -- pollers and claims
  | poll (read : Time) (classes : List String)
  | checkAvailable (id : JobId)
  | drop (id : JobId)
  | claim (source : Source) (read : Time) (id : JobId) (owner : String) (token : Token)
  -- attempts
  | start (token : Token)
  | report (token : Token) (toStatus : JobStatus) (message : String)
  | finish (token : Token) (o : Outcome)
  | heartbeat (token : Token) (read : Time) (drainExpired : Bool)
  | heartbeatFailed (token : Token) (read : Time)
  | timeout (token : Token)
  | halt (token : Token)
  | handle (token : Token)
  | readStage (token : Token)
  | record (token : Token)
  | onAbandoned (token : Token)
  | die (token : Token)
  -- reapers
  | reapSelect (read : Time)
  | reapLease (id : JobId) (token : Token)
  | reapSkip (id : JobId) (token : Token)
  | overdueSelect (read : Time)
  | reapOverdue (id : JobId)
  | reapSlots (read : Time)
  -- rollouts and rollbacks
  | startRollout (token : Token) (rollout : RolloutId)
  | lock (holder : Holder) (model : ModelId)
  | endRollout (rollout : RolloutId) (model : ModelId)
  | unlock (holder : Holder) (model : ModelId)
  | deciderDies (holder : Holder) (model : ModelId)

/-! ## One step -/

def jobTimeout (timeoutS : Time) : AdaptationError :=
  ⟨.jobTimeout, "adaptation job exceeded its " ++ toString (wholeSeconds timeoutS) ++ "s timeout",
    [("timeout_s", .nat timeoutS)]⟩

def deadlinePassed (id : JobId) : AdaptationError :=
  ⟨.jobTimeout, "the job's deadline passed before it ran", [("timeout_s", .nat 0), ("job_id", .str id)]⟩

/-- `_timeout_s`: JOB_TIMEOUT_S, or less when the job's deadline comes first. -/
def Claim.timeoutS (c : Claim) (cfg : Settings) (now : Time) : Time :=
  match c.deadlineAt with
  | some d => min cfg.jobTimeoutS (d - now)
  | none => cfg.jobTimeoutS

def newAttempt (c : Claim) : Attempt := ⟨c, .claimed, 0, false, 0, false, false, false⟩

namespace System

def setAttempt (s : System) (token : Token) (a : Attempt) : System :=
  { s with attempts := s.attempts.modify token fun _ => a }

def claimStep (cfg : Settings) (s : System) (source : Source) (read : Time) (id : JobId) (owner : String)
    (token : Token) : Option System :=
  if read ≤ s.now ∧ (source = .listed → id ∈ s.listed) then
    let listed := match source with
      | .listed => s.listed.erase id
      | .message => s.listed
    match tryClaim cfg s.db read s.now id owner token with
    | .ok (some (db, c)) =>
      (s.attempts.insert? token (newAttempt c)).map fun attempts => { s with db, attempts, listed }
    | _ => some { s with listed }
  else none

def startStep (cfg : Settings) (s : System) (token : Token) (a : Attempt) : Option System :=
  match a.phase with
  | .claimed =>
    let timeoutS := a.claim.timeoutS cfg s.now
    if timeoutS = 0 then
      some (s.setAttempt token { a with phase := .ended (.raised (deadlinePassed a.claim.jobId)) })
    else
      let renewedUntil := s.now + cfg.jobLeaseTtlS
      some (s.setAttempt token { a with phase := .running, timeoutS, alive := true, renewedUntil })
  | _ => none

def reportStep (s : System) (token : Token) (a : Attempt) (toStatus : JobStatus) (message : String) : Option System :=
  if a.alive = true ∧ toStatus ∈ JobStatus.pipelineStages then
    match transition s.db a.claim.jobId toStatus { message := message } (some a.claim.leaseToken) with
    | .ok db => some { s with db }
    | .error e => some (s.setAttempt token (a.pipelineOver (.raised e)))
  else none

def heartbeatStep (cfg : Settings) (s : System) (token : Token) (a : Attempt) (read : Time) (drainExpired : Bool) :
    Option System :=
  match a.phase with
  | .running =>
    if read ≤ s.now then
      let (db, stop) := supervise cfg s.db read a.claim drainExpired
      let a := if (renewLease cfg s.db read a.claim).isSome then { a with renewedUntil := read + cfg.jobLeaseTtlS } else a
      some (({ s with db } : System).setAttempt token (match stop with
        | none => a
        | some e => { a with phase := .stopping e }))
    else none
  | _ => none

def heartbeatFailedStep (s : System) (token : Token) (a : Attempt) (read : Time) : Option System :=
  match a.phase with
  | .running =>
    if read ≤ s.now then
      let e := leaseLost "the job's lease expired while the database was unreachable" a.claim
      if a.renewedUntil ≤ read then some (s.setAttempt token { a with phase := .stopping e }) else some s
    else none
  | _ => none

/-- What is recorded of a handled outcome; `none` for an outcome recorded elsewhere or not at all. -/
def recordOutcome (cfg : Settings) (db : Db) (now : Time) (c : Claim) (o : Outcome) : Except AdaptationError Db :=
  let releaseModelLock := !(cfg.inProcess && o.stopped)
  match o with
  | .returned r =>
    record db c (if r.outcome = "ROLLED_BACK" then .rolledBack else .completed)
      { message := r.reason, result := some r, strategy := r.strategy } releaseModelLock
  | .crashed text =>
    record db c .failed { message := text, error := some ⟨"INTERNAL_ERROR", text, []⟩ } releaseModelLock
  | .raised e =>
    match e.cls with
    | .jobLeaseLost => .ok db
    | .jobCancelled => record db c .cancelled { message := e.message, error := some e.toDict } releaseModelLock
    | .jobDrained | .jobWorkerLost | .registryUnavailable | .databaseUnavailable =>
      (requeueOrEnd cfg db now c e).map Prod.fst
    | _ => record db c .failed { message := e.message, error := some e.toDict } releaseModelLock

def recordStep (cfg : Settings) (s : System) (token : Token) (a : Attempt) : Option System :=
  let done := s.setAttempt token { a with phase := .closed }
  match a.phase with
  | .handling (.raised e) =>
    if e.cls = .jobTimeout then none
    else match recordOutcome cfg s.db s.now a.claim (.raised e) with
      | .ok db => some { done with db }
      | .error _ => some done
  | .handling o =>
    match recordOutcome cfg s.db s.now a.claim o with
    | .ok db => some { done with db }
    | .error _ => some done
  | .timingOut e lastStage =>
    match record s.db a.claim .timedOut { message := e.message, error := some (timeoutError lastStage e) }
        (!(cfg.inProcess && (Outcome.raised e).stopped)) with
    | .ok db => some { done with db }
    | .error _ => some done
  | _ => none

def readStageStep (s : System) (token : Token) (a : Attempt) : Option System :=
  match a.phase with
  | .handling (.raised e) =>
    if e.cls = .jobTimeout then
      match loadJob s.db a.claim.jobId with
      | .ok job => some (s.setAttempt token { a with phase := .timingOut e job.status })
      | .error _ => some (s.setAttempt token { a with phase := .closed })
    else none
  | _ => none

def onAbandonedStep (s : System) (token : Token) (a : Attempt) : Option System :=
  if a.finishDue then
    let s := if a.abandoned then { s with db := s.db.releaseLock a.claim.modelId (.job a.claim.jobId) } else s
    some (s.setAttempt token { a with finishDue := false })
  else none

/-- A tick or an operator's action names an active rollout of the model; a
manual rollback is possible at any time. -/
def mayLock (s : System) (model : ModelId) : Holder → Bool
  | .job _ => false
  | .rollout id => s.rollouts.get? id == some (model, true)
  | .rollback _ => true

def lockStep (cfg : Settings) (s : System) (holder : Holder) (model : ModelId) : Option System :=
  if s.mayLock model holder then
    match s.db.takeOverExpiredLock model holder cfg.modelLockTtlS s.now with
    | some db => some { s with db, deciding := (holder, model) :: s.deciding }
    | none =>
      match s.db.addLock model holder cfg.modelLockTtlS s.now with
      | some db => some { s with db, deciding := (holder, model) :: s.deciding }
      | none => some s
  else none

def startRolloutStep (s : System) (a : Attempt) (rollout : RolloutId) : Option System :=
  match s.db.jobs.get? a.claim.jobId with
  | none => none
  | some job =>
    if a.alive = true ∧ job.status = .promoting ∧ job.leaseToken = some a.claim.leaseToken ∧
        (s.rollouts.rows.all fun r => !(r.2 == (a.claim.modelId, true))) = true then
      (s.rollouts.insert? rollout (a.claim.modelId, true)).map fun rollouts => { s with rollouts }
    else none

def onAttempt (s : System) (token : Token) (f : Attempt → Option System) : Option System :=
  (s.attempts.get? token).bind f

def step (P : Platform) (cfg : Settings) (s : System) : Action → Option System
  | .advance dt => some { s with now := s.now + dt }
  | .submit id event actor =>
    match submit P cfg s.db s.now id event actor with
    | .ok (db, _) => some { s with db }
    | .error _ => some s
  | .cancel id actor =>
    match requestCancel s.db s.now id actor with
    | .ok (db, _) => some { s with db }
    | .error _ => some s
  | .publish id =>
    match published s.db s.now id with
    | .ok db => some { s with db }
    | .error _ => some s
  | .unpublish id => some { s with db := unpublish s.db id }
  | .poll read classes =>
    if read ≤ s.now then some { s with listed := s.listed ++ candidates cfg s.db read classes } else none
  | .checkAvailable id =>
    match s.db.jobs.get? id with
    | some job =>
      if job.status = .queued ∧ job.available s.now = true then some { s with listed := s.listed ++ [id] } else none
    | none => none
  | .drop id => some { s with listed := s.listed.erase id }
  | .claim source read id owner token => claimStep cfg s source read id owner token
  | .start token => s.onAttempt token (startStep cfg s token)
  | .report token toStatus message => s.onAttempt token fun a => reportStep s token a toStatus message
  | .finish token o => s.onAttempt token fun a =>
    if a.alive then some (s.setAttempt token (a.pipelineOver o)) else none
  | .heartbeat token read drainExpired => s.onAttempt token fun a => heartbeatStep cfg s token a read drainExpired
  | .heartbeatFailed token read => s.onAttempt token fun a => heartbeatFailedStep s token a read
  | .timeout token => s.onAttempt token fun a => match a.phase with
    | .running => some (s.setAttempt token { a with phase := .stopping (jobTimeout a.timeoutS) })
    | _ => none
  | .halt token => s.onAttempt token fun a => match a.phase with
    | .stopping e => some (s.setAttempt token (a.halt cfg.inProcess e))
    | _ => none
  | .handle token => s.onAttempt token fun a => match a.phase with
    | .ended o =>
      let abandoned := a.abandoned || (cfg.inProcess && o.stopped)
      some (s.setAttempt token { a with phase := .handling o, abandoned := abandoned })
    | _ => none
  | .readStage token => s.onAttempt token (readStageStep s token)
  | .record token => s.onAttempt token (recordStep cfg s token)
  | .onAbandoned token => s.onAttempt token (onAbandonedStep s token)
  | .die token => s.onAttempt token fun a => some (s.setAttempt token (a.die cfg.inProcess))
  | .reapSelect read => if read ≤ s.now then some { s with selected := s.selected ++ expiredLeases s.db read } else none
  | .reapLease id token =>
    if (id, token) ∈ s.selected then
      let s := { s with selected := s.selected.erase (id, token) }
      match reapLease cfg s.db s.now id token with
      | .ok (some db) => some { s with db }
      | _ => some s
    else none
  | .reapSkip id token => some { s with selected := s.selected.erase (id, token) }
  | .overdueSelect read => if read ≤ s.now then some { s with overdue := s.overdue ++ overdueJobs s.db read } else none
  | .reapOverdue id =>
    if id ∈ s.overdue then
      let s := { s with overdue := s.overdue.erase id }
      match reapOverdue cfg s.db id with
      | .ok (some db) => some { s with db }
      | _ => some s
    else none
  | .reapSlots read => if read ≤ s.now then some { s with db := reapSlots s.db read } else none
  | .startRollout token rollout => s.onAttempt token fun a => startRolloutStep s a rollout
  | .lock holder model => lockStep cfg s holder model
  | .endRollout rollout model =>
    if (.rollout rollout, model) ∈ s.deciding then
      some { s with rollouts := s.rollouts.modify rollout fun r => (r.1, false) }
    else none
  | .unlock holder model =>
    if (holder, model) ∈ s.deciding then
      some { s with db := s.db.releaseLock model holder, deciding := s.deciding.erase (holder, model) }
    else none
  | .deciderDies holder model =>
    if (holder, model) ∈ s.deciding then some { s with deciding := s.deciding.erase (holder, model) } else none

end System

/-! ## Models and their events -/

theorem cellLoad_nodup : ([("cell-load", (⟨"cell-load", some "sklearn"⟩ : ModelMetadata))].map Prod.fst).Nodup :=
  List.nodup_singleton _

def cellLoad : Table ModelId ModelMetadata := ⟨[("cell-load", ⟨"cell-load", some "sklearn"⟩)], cellLoad_nodup⟩

def driftOf (model : ModelId) (eventId : String) : DriftEvent := ⟨model, some eventId, some "HIGH", "{}"⟩

def drift (eventId : String) : DriftEvent := driftOf "cell-load" eventId

end OranAdapt
