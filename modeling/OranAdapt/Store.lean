import OranAdapt.Status
import OranAdapt.Table

/-!
# The job store

Rows and tables of `db.models` as the orchestrator reads and writes them,
errors as it records them, and the settings it runs under. Times are
microseconds. A `session_scope` block is one function from the database to the
database: it commits all of its writes or none.
-/

namespace OranAdapt

abbrev Time := Nat

/-- `f"{seconds:.0f}"`: half a second rounds to the even neighbour. -/
def wholeSeconds (t : Time) : Nat :=
  let seconds := t / 1000000
  let rest := 2 * (t % 1000000)
  if rest < 1000000 ∨ (rest = 1000000 ∧ seconds % 2 = 0) then seconds else seconds + 1

abbrev JobId := String
abbrev Token := String
abbrev ModelId := String
abbrev Tenant := String
abbrev RolloutId := String

/-! ## Errors -/

/-- The classes of `core.errors` the code tells apart. -/
inductive ErrorClass where
  | jobTimeout | jobCancelled | jobDrained | jobLeaseLost | jobWorkerLost
  | registryUnavailable | databaseUnavailable | jobAbandoned | jobQuarantined
  | invalidTransition | jobNotFound | modelBusy | jobNotCancellable
  | modelNotFound | artifactError | artifactIntegrity | conflict | promotion
  | deployment | deploymentUnavailable
  | rolloutNotFound | rolloutState | rolloutMetricsUnavailable
  | dataError
  /-- an exception that is no `AdaptationError` -/
  | python (name : String)
  | other (code : String)
deriving DecidableEq, Repr

def ErrorClass.code : ErrorClass → String
  | jobTimeout => "JOB_TIMEOUT"
  | jobCancelled => "JOB_CANCELLED"
  | jobDrained => "JOB_DRAINED"
  | jobLeaseLost => "JOB_LEASE_LOST"
  | jobWorkerLost => "JOB_WORKER_LOST"
  | registryUnavailable => "MLFLOW_UNAVAILABLE"
  | databaseUnavailable => "DATABASE_UNAVAILABLE"
  | jobAbandoned => "JOB_ABANDONED"
  | jobQuarantined => "JOB_QUARANTINED"
  | invalidTransition => "INVALID_STATE_TRANSITION"
  | jobNotFound => "JOB_NOT_FOUND"
  | modelBusy => "MODEL_BUSY"
  | jobNotCancellable => "JOB_NOT_CANCELLABLE"
  | modelNotFound => "MODEL_NOT_FOUND"
  | artifactError => "ARTIFACT_ERROR"
  | artifactIntegrity => "ARTIFACT_INTEGRITY_FAILED"
  | conflict => "CONFLICT"
  | promotion => "PROMOTION_FAILED"
  | deployment => "DEPLOYMENT_FAILED"
  | deploymentUnavailable => "DEPLOYMENT_UNAVAILABLE"
  | rolloutNotFound => "ROLLOUT_NOT_FOUND"
  | rolloutState => "ROLLOUT_STATE_CONFLICT"
  | rolloutMetricsUnavailable => "ROLLOUT_METRICS_UNAVAILABLE"
  -- raised by the database driver, not by the framework
  | dataError => "DATA_ERROR"
  | python name => name
  | other code => code

/-- `isinstance(exc, AdaptationError)` -/
def ErrorClass.framework : ErrorClass → Bool
  | dataError | python _ => false
  | _ => true

def ErrorClass.isConflict : ErrorClass → Bool
  | conflict | modelBusy | jobNotCancellable | rolloutState => true
  | other code => code == "DATA_VERSION_CONFLICT" || code == "DATA_SOURCE_CHANGED"
  | _ => false

inductive CtxValue where
  | str (s : String)
  | strs (l : List String)
  | nat (n : Nat)
  | num (q : Rat)
  | bool (b : Bool)
  | dicts (l : List (List (String × (Nat ⊕ String))))
  | null
deriving DecidableEq, Repr

def CtxValue.ofOption : Option String → CtxValue
  | some s => .str s
  | none => .null

abbrev Context := List (String × CtxValue)

def Context.set : Context → String → CtxValue → Context
  | [], k, v => [(k, v)]
  | p :: ps, k, v => if p.1 = k then (k, v) :: ps else p :: Context.set ps k v

theorem Context.lookup_set (k : String) (v : CtxValue) : ∀ c : Context, (c.set k v).lookup k = some v
  | [] => by simp [Context.set]
  | p :: ps => by
    rw [Context.set]
    split
    · simp
    · rename_i h
      rw [Table.lookup_cons_if, if_neg (Ne.symm h)]
      exact Context.lookup_set k v ps

/-- What a job row keeps of an error: `AdaptationError.to_dict()`. -/
structure ErrorDict where
  code : String
  message : String
  context : Context
deriving DecidableEq, Repr

structure AdaptationError where
  cls : ErrorClass
  message : String
  context : Context
deriving DecidableEq, Repr

def AdaptationError.toDict (e : AdaptationError) : ErrorDict := ⟨e.cls.code, e.message, e.context⟩

def pythonError (name : String) : AdaptationError := ⟨.python name, "", []⟩

/-- Peel one step off a computation that did not raise. -/
theorem bind_ok {ε α β : Type} {x : Except ε α} {f : α → Except ε β} {b : β} (h : (x >>= f) = .ok b) :
    ∃ a, x = .ok a ∧ f a = .ok b := by
  cases x with
  | error e => cases h
  | ok a => exact ⟨a, rfl, h⟩

theorem bind_ok_eq {ε α β : Type} {x : α} {f : α → Except ε β} : ((.ok x : Except ε α) >>= f) = f x := rfl

theorem map_ok {ε α β : Type} {x : Except ε α} {f : α → β} {b : β}
    (h : x.map f = .ok b) : ∃ a, x = .ok a ∧ f a = b := by
  cases x with
  | error e => cases h
  | ok a => exact ⟨a, rfl, Except.ok.inj h⟩

theorem ok_of_toOption {ε α : Type} {x : Except ε α} {a : α} (h : x.toOption = some a) : x = .ok a := by
  cases x with
  | error e => cases h
  | ok b => cases h; rfl

def orRaise {α : Type} (name : String) (a : Option α) : Except AdaptationError α :=
  match a with
  | some a => .ok a
  | none => .error (pythonError name)

theorem orRaise_ok {α : Type} {name : String} {o : Option α} {a : α} (h : orRaise name o = .ok a) : o = some a := by
  cases o with
  | none => cases h
  | some b => cases h; rfl

/-- Over a list nothing is raised exactly where it is on no element. -/
theorem mapM_ok {ε α β : Type} {f : α → Except ε β} : ∀ {l : List α} {bs : List β}, l.mapM f = .ok bs →
    List.Forall₂ (fun a b => f a = .ok b) l bs
  | [], _, h => by cases h; exact .nil
  | a :: l, bs, h => by
    rw [List.mapM_cons] at h
    obtain ⟨b, hb, h⟩ := bind_ok h
    obtain ⟨bs', hbs, h⟩ := bind_ok h
    cases h
    exact .cons hb (mapM_ok hbs)

theorem mapM_total {ε α β : Type} {f : α → Except ε β} : ∀ {l : List α}, (∀ a ∈ l, ∃ b, f a = .ok b) →
    ∃ bs, l.mapM f = .ok bs
  | [], _ => ⟨[], rfl⟩
  | a :: l, h => by
    obtain ⟨b, hb⟩ := h a (.head _)
    obtain ⟨bs, hbs⟩ := mapM_total fun a ha => h a (.tail _ ha)
    exact ⟨b :: bs, by rw [List.mapM_cons, hb, hbs]; rfl⟩

theorem mapM_ok_map {ε α β : Type} {f : α → Except ε β} {g : α → β} {l : List α}
    (h : ∀ a ∈ l, f a = .ok (g a)) :
    l.mapM f = .ok (l.map g) := by
  induction l with
  | nil => rfl
  | cons a l ih =>
    rw [List.mapM_cons, h a List.mem_cons_self, ih fun b hb => h b (List.mem_cons_of_mem _ hb)]
    rfl

theorem exists_of_mem_left {α β : Type} {R : α → β → Prop} {l : List α} {bs : List β}
    (h : List.Forall₂ R l bs) {a : α}
    (ha : a ∈ l) : ∃ b ∈ bs, R a b := by
  induction h with
  | nil => cases ha
  | cons hab _ ih =>
    rcases List.mem_cons.mp ha with rfl | ha
    · exact ⟨_, .head _, hab⟩
    · obtain ⟨b, hb, hr⟩ := ih ha
      exact ⟨b, .tail _ hb, hr⟩

theorem exists_of_mem_right {α β : Type} {R : α → β → Prop} {l : List α} {bs : List β}
    (h : List.Forall₂ R l bs) {b : β}
    (hb : b ∈ bs) : ∃ a ∈ l, R a b := by
  obtain ⟨a, ha, hr⟩ := exists_of_mem_left h.flip hb
  exact ⟨a, ha, hr⟩

/-- The error tells an operator to check the registry. -/
def ErrorDict.needsReconciliation (e : ErrorDict) : Bool :=
  decide (e.context.lookup "needs_reconciliation" = some (.bool true))

/-! ## Rows -/

/-- `core.schemas.DriftEvent`. `body` is the canonical JSON of the event
without its empty Team 1 fields. -/
structure DriftEvent where
  modelId : ModelId
  eventId : Option String
  severity : Option String
  body : String
deriving DecidableEq, Repr

structure ModelMetadata where
  mlflowModelName : String
  framework : Option String
deriving DecidableEq, Repr

/-- The fields of `JobResult` the worker reads. -/
structure JobResult where
  outcome : String
  reason : String
  strategy : Option String
deriving DecidableEq, Repr

/-- `AdaptationJob`, under its `job_id`. `id` is the integer primary key. -/
structure Job where
  id : Nat
  idempotencyKey : String
  modelId : ModelId
  status : JobStatus
  strategy : Option String
  event : DriftEvent
  result : Option JobResult
  error : Option ErrorDict
  createdAt : Time
  tenant : Tenant
  workerClass : String
  priority : Int
  attempt : Nat
  availableAt : Option Time
  deadlineAt : Option Time
  leaseOwner : Option String
  leaseToken : Option Token
  leaseExpiresAt : Option Time
  cancelRequestedAt : Option Time
  cancelRequestedBy : Option String
  lostCount : Nat
  quarantined : Bool
  publishedAt : Option Time
deriving DecidableEq, Repr

/-- Who a model lock's `job_id` column names: a job, the tick or operator
action of a rollout (`rollout:<id>`), or a manual rollback (`rollback-<id>`).
A job id is a `uuid4().hex`, so the three spellings never collide. -/
inductive Holder where
  | job (id : JobId)
  | rollout (id : RolloutId)
  | rollback (id : String)
deriving DecidableEq, Repr

def Holder.text : Holder → String
  | job id => id
  | rollout id => "rollout:" ++ id
  | rollback id => "rollback-" ++ id

structure ModelLock where
  jobId : Holder
  acquiredAt : Time
  expiresAt : Time
deriving DecidableEq, Repr

/-- `JobSlot`, under its tenant and slot number. -/
structure JobSlot where
  jobId : JobId
  expiresAt : Time
deriving DecidableEq, Repr

structure AdaptationEvent where
  jobId : JobId
  component : String
  fromStatus : Option JobStatus
  toStatus : JobStatus
  message : String
deriving DecidableEq, Repr

structure Db where
  models : Table ModelId ModelMetadata
  jobs : Table JobId Job
  events : List AdaptationEvent
  locks : Table ModelId ModelLock
  slots : Table (Tenant × Nat) JobSlot

namespace Db

def empty : Db := ⟨.empty, .empty, [], .empty, .empty⟩

def eventsOf (db : Db) (id : JobId) : List AdaptationEvent := db.events.filter fun e => e.jobId = id

/-- Write the job's row back and append events, as one flush does. -/
def put (db : Db) (id : JobId) (job : Job) (evs : List AdaptationEvent) : Db :=
  { db with jobs := db.jobs.modify id fun _ => job, events := db.events ++ evs }

@[simp] theorem put_locks (db : Db) (id : JobId) (job : Job) (evs) : (db.put id job evs).locks = db.locks := rfl

@[simp] theorem put_slots (db : Db) (id : JobId) (job : Job) (evs) : (db.put id job evs).slots = db.slots := rfl

theorem get?_put (db : Db) {id : JobId} {old : Job} (h : db.jobs.get? id = some old) (job : Job) (evs) (id' : JobId) :
    (db.put id job evs).jobs.get? id' = if id' = id then some job else db.jobs.get? id' := by
  rw [put, Table.get?_modify]
  split
  · rename_i e; rw [e, h]; rfl
  · rfl

@[simp] theorem events_put (db : Db) (id : JobId) (job : Job) (evs) : (db.put id job evs).events = db.events ++ evs := rfl

/-- A transaction that left one job's row as `job`, appended events of it, and
wrote no other job. It says nothing of locks and slots. -/
structure Wrote (db db' : Db) (id : JobId) (job : Job) (evs : List AdaptationEvent) : Prop where
  row : ∀ id', db'.jobs.get? id' = if id' = id then some job else db.jobs.get? id'
  log : db'.events = db.events ++ evs
  own : ∀ e ∈ evs, e.jobId = id

namespace Wrote

variable {db db' : Db} {id : JobId} {job : Job} {evs : List AdaptationEvent}

theorem put {old : Job} (h : db.jobs.get? id = some old) (own : ∀ e ∈ evs, e.jobId = id) :
    Wrote db (db.put id job evs) id job evs :=
  ⟨get?_put db h job evs, rfl, own⟩

/-- What is written to locks and slots afterwards does not matter. -/
theorem frame {db'' : Db} (h : Wrote db db' id job evs) (hj : db''.jobs = db'.jobs) (he : db''.events = db'.events) :
    Wrote db db'' id job evs :=
  ⟨by rw [hj]; exact h.row, by rw [he]; exact h.log, h.own⟩

theorem get (h : Wrote db db' id job evs) : db'.jobs.get? id = some job := by
  rw [h.row, if_pos rfl]

theorem get_ne (h : Wrote db db' id job evs) {id' : JobId} (hne : id' ≠ id) :
    db'.jobs.get? id' = db.jobs.get? id' := by
  rw [h.row, if_neg hne]

theorem eventsOf (h : Wrote db db' id job evs) : db'.eventsOf id = db.eventsOf id ++ evs := by
  simp only [Db.eventsOf, h.log, List.filter_append]
  congr 1
  exact List.filter_eq_self.mpr fun e he => by simpa using h.own e he

theorem eventsOf_ne (h : Wrote db db' id job evs) {id' : JobId} (hne : id' ≠ id) :
    db'.eventsOf id' = db.eventsOf id' := by
  simp only [Db.eventsOf, h.log, List.filter_append]
  have : evs.filter (fun e => e.jobId = id') = [] := by
    rw [List.filter_eq_nil_iff]
    intro e he
    rw [h.own e he]
    simpa using hne.symm
  rw [this, List.append_nil]

end Wrote

end Db

/-! ## Settings -/

/-- The settings the orchestrator reads, within the ranges the configuration
accepts. -/
structure Settings where
  jobMaxRetries : Nat
  jobRetryBackoffS : Time
  jobTimeoutS : Time
  /-- JOB_EXECUTION_MODE is `thread`. -/
  inProcess : Bool
  jobHeartbeatS : Time
  jobLeaseTtlS : Time
  jobPoisonThreshold : Nat
  jobDeadlineS : Option Time
  jobDefaultClass : String
  jobClassByFramework : List (String × String)
  jobWorkerClasses : List String
  jobPriorityBySeverity : List (String × Int)
  jobDefaultPriority : Int
  jobClaimCandidates : Nat
  jobTenantByPrincipal : List (String × Tenant)
  jobDefaultTenant : Tenant
  jobTenantConcurrency : Int
  jobTenantLimits : List (Tenant × Int)
  jobDrainTimeoutS : Time
  modelLockTtlS : Time
  timeout_pos : 0 < jobTimeoutS
  heartbeat_pos : 0 < jobHeartbeatS
  lease_beats : 2 * jobHeartbeatS < jobLeaseTtlS
  poison_pos : 1 ≤ jobPoisonThreshold
  lock_pos : 0 < modelLockTtlS

/-- How many slots `tenant` has (JOB_TENANT_LIMITS, else JOB_TENANT_CONCURRENCY). -/
def Settings.limit (cfg : Settings) (tenant : Tenant) : Int :=
  (cfg.jobTenantLimits.lookup tenant).getD cfg.jobTenantConcurrency

theorem hour_pos : (0 : Time) < 3600000000 := by decide

def Settings.defaults : Settings where
  jobMaxRetries := 2
  jobRetryBackoffS := 1000000
  jobTimeoutS := 600000000
  inProcess := false
  jobHeartbeatS := 5000000
  jobLeaseTtlS := 30000000
  jobPoisonThreshold := 3
  jobDeadlineS := none
  jobDefaultClass := "default"
  jobClassByFramework := []
  jobWorkerClasses := ["default"]
  jobPriorityBySeverity := [("CRITICAL", 30), ("HIGH", 20), ("MEDIUM", 10), ("LOW", 0)]
  jobDefaultPriority := 0
  jobClaimCandidates := 10
  jobTenantByPrincipal := []
  jobDefaultTenant := "default"
  jobTenantConcurrency := 0
  jobTenantLimits := []
  jobDrainTimeoutS := 30000000
  modelLockTtlS := 3600000000
  timeout_pos := by decide
  heartbeat_pos := by decide
  lease_beats := by decide
  poison_pos := by decide
  lock_pos := hour_pos

/-- What the code relies on outside the repository. `readPk` is how the
database reads a text bound against an integer primary key: `none` refuses the
statement (PostgreSQL: invalid input syntax for type integer), `some none`
matches no row (SQLite, text that is no number), `some (some n)` matches the
row `n`. `sha256` is the hex digest. -/
structure Platform where
  readPk : String → Option (Option Nat)
  sha256 : String → String

/-- A text that is a decimal number, as SQLite's integer affinity reads it. -/
def decimal? (s : String) : Option Nat :=
  if s.toList = [] then none
  else s.toList.foldl
    (fun n c => n.bind fun n => if c.isDigit then some (10 * n + (c.toNat - '0'.toNat)) else none) (some 0)

/-- The default database. The digest is only taken of events without an `event_id`. -/
def Platform.sqlite (sha256 : String → String) : Platform := ⟨fun s => some (decimal? s), sha256⟩

/-- The database of production, which refuses to read any other text as an integer. -/
def Platform.postgres (sha256 : String → String) : Platform := ⟨fun s => (decimal? s).map some, sha256⟩

end OranAdapt
