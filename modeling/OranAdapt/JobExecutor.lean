import Mathlib.Algebra.Ring.Nat
import OranAdapt.CdcEvents
import OranAdapt.ClassTree

/-!
# An attempt in a process of its own

`adapters.job_executors`: a worker process runs the attempt and writes one
message into a pipe, and `execute` reads it. A message is written part by part;
the worker may die after any byte of it.
-/

namespace OranAdapt

/-! ## Errors as classes -/

/-- A class of `core.errors`. `needs` are keyword arguments it cannot do without. -/
structure PyClass where
  name : String
  code : String
  needs : List String
deriving DecidableEq, Repr

/-- A dict's key: a string, something `json` writes as one, or something else. -/
inductive PyKey where
  | text (s : String)
  | written (s : String)
  | other

/-- What an error's context may hold. A tuple is a list to `json`; `object` is
anything else with what `str` makes of it, or the exception that `str` raises;
`enclosing` is a container that the value is itself in. -/
inductive PyValue where
  | null
  | bool (b : Bool)
  | int (n : Int)
  | float (repr : String)
  | str (s : String)
  | list (items : List PyValue)
  | dict (items : List (PyKey × PyValue))
  | object (text : Except String String)
  | enclosing

/-- What `run(payload)` does: it returns, raises an AdaptationError, or raises
another exception. -/
inductive Attempted where
  | returns (result : JsonDict)
  | raises (cls : PyClass) (message : String) (context : List (String × PyValue))
  | fails (type : String) (text : Except String String)

namespace JobExecutor

open ClassTree

def errorClass (name code : String) : ClassTree.Tree PyClass := .node ⟨name, code, []⟩ []

def adaptationError : PyClass := ⟨"AdaptationError", "ADAPTATION_ERROR", []⟩

/-- `core.errors`, each class with its subclasses in the order of their definition. -/
def errorTree : ClassTree.Tree PyClass := .node adaptationError [
  errorClass "ConfigurationError" "CONFIGURATION_ERROR",
  errorClass "RegistryUnavailableError" "MLFLOW_UNAVAILABLE",
  errorClass "DatabaseUnavailableError" "DATABASE_UNAVAILABLE",
  errorClass "ModelNotFoundError" "MODEL_NOT_FOUND",
  .node ⟨"ConflictError", "CONFLICT", []⟩ [errorClass "DataVersionConflictError" "DATA_VERSION_CONFLICT",
    errorClass "DataSourceChangedError" "DATA_SOURCE_CHANGED", errorClass "ModelBusyError" "MODEL_BUSY",
    errorClass "JobNotCancellableError" "JOB_NOT_CANCELLABLE", errorClass "RolloutStateError" "ROLLOUT_STATE_CONFLICT"],
  errorClass "InvalidReferenceError" "INVALID_REFERENCE",
  errorClass "DatasetNotFoundError" "DATASET_NOT_FOUND",
  .node ⟨"ArtifactError", "ARTIFACT_ERROR", []⟩ [errorClass "DataFormatError" "DATA_FORMAT_INVALID",
    errorClass "ArtifactIntegrityError" "ARTIFACT_INTEGRITY_FAILED"],
  errorClass "DataSourceNotAllowedError" "DATA_SOURCE_NOT_ALLOWED",
  errorClass "DataSourceUnavailableError" "DATA_SOURCE_UNAVAILABLE",
  errorClass "DataTooLargeError" "DATA_TOO_LARGE",
  .node ⟨"UnsupportedAdaptationError", "ADAPTATION_UNSUPPORTED", []⟩
    [errorClass "UnsupportedModelTypeError" "UNSUPPORTED_MODEL_TYPE"],
  errorClass "ValidationFailedError" "VALIDATION_FAILED",
  .node ⟨"LlmUnavailableError", "LLM_UNAVAILABLE", []⟩
    [errorClass "LlmCircuitOpenError" "LLM_CIRCUIT_OPEN", errorClass "LlmBudgetExceededError" "LLM_BUDGET_EXCEEDED"],
  errorClass "UnsafeCodeError" "UNSAFE_CODE_REJECTED",
  errorClass "SandboxExecutionError" "SANDBOX_EXECUTION_FAILED",
  errorClass "InvalidTransitionError" "INVALID_STATE_TRANSITION",
  errorClass "PromotionError" "PROMOTION_FAILED",
  errorClass "DeploymentError" "DEPLOYMENT_FAILED",
  errorClass "DeploymentUnavailableError" "DEPLOYMENT_UNAVAILABLE",
  errorClass "CdcUnavailableError" "CDC_UNAVAILABLE",
  errorClass "CdcProcessingError" "CDC_PROCESSING_FAILED",
  errorClass "DataLeakageError" "DATA_LEAKAGE",
  errorClass "JobTimeoutError" "JOB_TIMEOUT",
  errorClass "JobAbandonedError" "JOB_ABANDONED",
  errorClass "JobNotFoundError" "JOB_NOT_FOUND",
  errorClass "JobCancelledError" "JOB_CANCELLED",
  errorClass "JobLeaseLostError" "JOB_LEASE_LOST",
  errorClass "JobDrainedError" "JOB_DRAINED",
  errorClass "JobQuarantinedError" "JOB_QUARANTINED",
  errorClass "JobQueueUnavailableError" "JOB_QUEUE_UNAVAILABLE",
  errorClass "AuthenticationError" "UNAUTHENTICATED",
  errorClass "PermissionDeniedError" "FORBIDDEN",
  errorClass "RateLimitedError" "RATE_LIMITED",
  errorClass "OutboundBlockedError" "OUTBOUND_BLOCKED",
  .node ⟨"NotificationDeliveryError", "NOTIFICATION_DELIVERY_FAILED", ["retryable"]⟩ [],
  errorClass "DeliveryNotFoundError" "DELIVERY_NOT_FOUND",
  errorClass "SignatureVerificationError" "INVALID_SIGNATURE",
  .node ⟨"JobWorkerError", "INTERNAL_ERROR", []⟩ [errorClass "JobWorkerLostError" "JOB_WORKER_LOST"],
  errorClass "WorkerUnhealthyError" "WORKER_UNHEALTHY",
  errorClass "SchemaNotReadyError" "SCHEMA_NOT_READY",
  errorClass "RolloutNotFoundError" "ROLLOUT_NOT_FOUND",
  errorClass "RolloutMetricsUnavailableError" "ROLLOUT_METRICS_UNAVAILABLE",
  errorClass "EventMapperNotFoundError" "EVENT_MAPPER_NOT_FOUND",
  errorClass "EventMappingError" "EVENT_MAPPING_FAILED"]

def jobWorkerError : PyClass := ⟨"JobWorkerError", "INTERNAL_ERROR", []⟩

def jobWorkerLostError : PyClass := ⟨"JobWorkerLostError", "JOB_WORKER_LOST", []⟩

/-! ## The worker's side -/

def setField : JsonDict → String → Json → JsonDict
  | [], k, v => [(k, v)]
  | p :: ps, k, v => if p.1 = k then (k, v) :: ps else p :: setField ps k v

/-- A value through `json.dumps(..., default=str)` and back, or the exception
that the encoder raises; it may nest `depth` containers. -/
def encoded : Nat → PyValue → Except String Json
  | _, .null => .ok .null
  | _, .bool b => .ok (.bool b)
  | _, .int n => if n.natAbs < 10 ^ 4300 then .ok (.int n) else .error "ValueError"
  | _, .float repr => .ok (.float repr)
  | _, .str s => .ok (.str s)
  | _, .object text => text.map .str
  | _, .enclosing => .error "ValueError"
  | 0, .list _ | 0, .dict _ => .error "RecursionError"
  | depth + 1, .list items => (items.mapM (encoded depth)).map .arr
  | depth + 1, .dict items => do
    let fields ← items.mapM fun p =>
      match p.1 with
      | .text k | .written k => (encoded depth p.2).map fun v => (k, v)
      | .other => .error "TypeError"
    .ok (.obj (fields.foldl (fun d p => setField d p.1 p.2) []))

def plain (depth : Nat) (context : List (String × PyValue)) : Except String JsonDict :=
  context.mapM fun p => (encoded depth p.2).map fun v => (p.1, v)

inductive Message (δ : Type) where
  | ok (deltas : δ) (result : JsonDict)
  | error (deltas : δ) (code message : String) (context : JsonDict)
  | crash (deltas : δ) (text : String)

section
variable {δ : Type} (depth : Nat) (dumps : Message δ → Except (String × String) Nat) (exitcode : Int) (deltas : δ)

/-- The message that tells of an outcome, or the exception that its handler
raises before there is one. -/
def report : Attempted → Except String (Message δ)
  | .returns result => .ok (.ok deltas result)
  | .raises cls message context => (plain depth context).map (.error deltas cls.code message)
  | .fails type text => text.map fun s => .crash deltas (type ++ ": " ++ s)

/-- `conn.send` in a handler. `dumps` is pickling, which `send` does before it
writes: the number of bytes, or the class and text of what it raises. -/
def send (message : Message δ) : Except String (Message δ × Nat) :=
  match dumps message with
  | .ok n => .ok (message, n)
  | .error (type, _) => .error type

/-- The message that is sent with its size, or the exception the worker ends with. -/
def workerMain (attempted : Attempted) : Except String (Message δ × Nat) :=
  match attempted with
  | .returns result =>
    match dumps (.ok deltas result) with
    | .ok n => .ok (.ok deltas result, n)
    -- the result is sent inside the `try`: `except Exception` reports what pickling raises
    | .error (type, text) => send dumps (.crash deltas (type ++ ": " ++ text))
  | .raises .. | .fails .. => do send dumps (← report depth deltas attempted)

/-! ## The pipe -/

/-- The parts a message of `n` bytes is written in. -/
def parts (n : Nat) : List Nat := if 0x7fffffff < n then [4, 8, n] else [4, n]

inductive Received where
  | message | eof | inside
deriving DecidableEq

/-- `recv` when the pipe ends after `written` bytes. -/
def recv : List Nat → Nat → Received
  | [], _ => .message
  | part :: rest, written =>
    if part ≤ written then recv rest (written - part) else if written = 0 then .eof else .inside

/-! ## The parent's side -/

/-- An error object: `code` is the instance's. -/
structure RaisedError where
  cls : PyClass
  code : String
  message : String
  context : JsonDict

inductive Executed where
  | returned (result : JsonDict)
  | raised (e : RaisedError)
  | python (name : String)

/-- `cls(message, **context)` does not raise TypeError. -/
def PyClass.takes (cls : PyClass) (keys : List String) : Bool :=
  keys.all (fun k => k != "self" && k != "message") && cls.needs.all (· ∈ keys)

def rebuildError (code message : String) (context : JsonDict) : Executed :=
  let base := if PyClass.takes adaptationError (context.map Prod.fst) then
    .raised ⟨adaptationError, code, message, context⟩
    else .python "TypeError"
  match Tree.search (fun cls => cls.code == code) [errorTree] with
  | some cls => if PyClass.takes cls (context.map Prod.fst) then .raised ⟨cls, cls.code, message, context⟩ else base
  | none => base

def lost : Executed :=
  .raised ⟨jobWorkerLostError, jobWorkerLostError.code,
    "job worker process exited with code " ++ toString exitcode ++ " and no result",
    [("exitcode", .int exitcode)]⟩

/-- What a complete message comes to, and how far it moves the metrics. -/
def opened : Message δ → Executed × δ
  | .ok deltas result => (.returned result, deltas)
  | .error deltas code message context => (rebuildError code message context, deltas)
  | .crash deltas text => (.raised ⟨jobWorkerError, jobWorkerError.code, text, []⟩, deltas)

/-- `execute` of an attempt that nobody stops; the worker dies after `died` bytes
of its message, or not before it has written it. -/
def execute (attempted : Attempted) (died : Option Nat) : Executed × Option δ :=
  match workerMain depth dumps deltas attempted with
  | .error _ => (lost exitcode, none)
  | .ok (message, size) =>
    let all := parts size
    match recv all (died.getD all.sum) with
    | .message => ((opened message).1, some (opened message).2)
    | .eof => (lost exitcode, none)
    | .inside => (.python "OSError", none)

/-! ## What crosses the boundary -/

def Dies (attempted : Attempted) (died : Option Nat) : Prop :=
  ∃ written, died = some written ∧
    ∀ message size, workerMain depth dumps deltas attempted = .ok (message, size) → written < (parts size).sum

/-- The parent sees what the worker's attempt came to, and its metrics. -/
def Delivered (attempted : Attempted) (executed : Executed × Option δ) : Prop :=
  match attempted with
  | .returns result => executed = (.returned result, some deltas)
  | .raises cls message _ => ∃ context, executed = (.raised ⟨cls, cls.code, message, context⟩, some deltas)
  | .fails _ _ => ∃ text, executed = (.raised ⟨jobWorkerError, jobWorkerError.code, text, []⟩, some deltas)

/-- The outcome crosses unchanged, and a lost worker is seen to be lost. -/
def Crosses (attempted : Attempted) (died : Option Nat) : Prop :=
  let executed := execute depth dumps exitcode deltas attempted died
  (Dies depth dumps deltas attempted died → executed = (lost exitcode, none)) ∧
    (¬ Dies depth dumps deltas attempted died → Delivered deltas attempted executed)

/-- The outcome can be written down: an error's context goes through `json`,
another exception has a text, and the message that tells of it can be pickled. -/
def Writable (attempted : Attempted) : Prop :=
  ∃ message, report depth deltas attempted = .ok message ∧ (dumps message).isOk = true

def Rebuilt : Attempted → Prop
  | .raises cls _ context => PyClass.takes cls (context.map Prod.fst) = true
  | _ => True

/-- The pipe ends before a part, not inside one. -/
def Between (parts : List Nat) (written : Nat) : Prop := ∃ i, written = (parts.take i).sum

/-- A worker that dies leaves whole parts of its message in the pipe; one that
lives has an outcome that it can write down and the parent can rebuild. -/
def Arrives (attempted : Attempted) (died : Option Nat) : Prop :=
  (Dies depth dumps deltas attempted died → ∀ written message size, died = some written →
    workerMain depth dumps deltas attempted = .ok (message, size) → Between (parts size) written) ∧
  (¬ Dies depth dumps deltas attempted died → Writable depth dumps deltas attempted ∧ Rebuilt attempted)

end

/-! ### The pipe -/

theorem recv_message {ps : List Nat} : ∀ {written : Nat}, recv ps written = .message ↔ ps.sum ≤ written := by
  induction ps with
  | nil => simp [recv]
  | cons p ps ih =>
    intro written
    rw [recv, List.sum_cons]
    by_cases hp : p ≤ written
    · rw [if_pos hp, ih]
      omega
    · rw [if_neg hp]
      by_cases h0 : written = 0
      · simp [h0] at hp ⊢
        omega
      · simp [h0]
        omega

theorem recv_eof {ps : List Nat} : ∀ {written : Nat}, written < ps.sum →
    (recv ps written = .eof ↔ Between ps written) := by
  induction ps with
  | nil => simp
  | cons p ps ih =>
    intro written hlt
    rw [List.sum_cons] at hlt
    rw [recv]
    by_cases hp : p ≤ written
    · rw [if_pos hp, ih (by omega)]
      constructor
      · rintro ⟨i, hi⟩
        refine ⟨i + 1, ?_⟩
        simp
        omega
      · rintro ⟨i, hi⟩
        cases i with
        | zero => exact ⟨0, by simp at hi ⊢; omega⟩
        | succ i => exact ⟨i, by simp at hi; omega⟩
    · rw [if_neg hp]
      have h0 : Between (p :: ps) written ↔ written = 0 := by
        constructor
        · rintro ⟨i, hi⟩
          cases i with
          | zero => simpa using hi
          | succ i =>
            simp at hi
            omega
        · exact fun h => ⟨0, by simpa using h⟩
      rw [h0]
      by_cases h : written = 0 <;> simp [h]

/-! ### Rebuilding an error -/

/-- No two classes of `core.errors` have one code. -/
theorem codes_nodup : ((Tree.forest [errorTree]).map PyClass.code).Nodup := by decide +kernel

theorem search_core {cls : PyClass} (h : cls ∈ Tree.forest [errorTree]) :
    Tree.search (fun c => c.code == cls.code) [errorTree] = some cls := by
  apply Tree.search_unique h
  · simp
  · intro b hb hcode
    exact List.inj_on_of_nodup_map codes_nodup hb h (by simpa using hcode)

theorem rebuildError_core {cls : PyClass} (h : cls ∈ Tree.forest [errorTree]) (message : String) (context : JsonDict) :
    (∃ context', rebuildError cls.code message context = .raised ⟨cls, cls.code, message, context'⟩) ↔
      PyClass.takes cls (context.map Prod.fst) = true := by
  unfold rebuildError
  simp only [search_core h]
  by_cases ht : PyClass.takes cls (context.map Prod.fst) = true
  · simp [ht]
  · rw [if_neg ht]
    constructor
    · rintro ⟨context', h⟩
      split at h
      · rename_i hbase
        cases h
        exact hbase
      · cases h
    · exact fun h => absurd h ht

theorem plain_keys {depth : Nat} : ∀ {context : List (String × PyValue)} {plained : JsonDict},
    plain depth context = .ok plained → plained.map Prod.fst = context.map Prod.fst := by
  intro context
  induction context with
  | nil =>
    intro plained h
    cases h
    rfl
  | cons p context ih =>
    intro plained h
    unfold plain at h
    rw [List.mapM_cons] at h
    obtain ⟨field, hfield, h⟩ := bind_ok h
    obtain ⟨rest, hrest, h⟩ := bind_ok h
    cases h
    obtain ⟨v, -, rfl⟩ := map_ok hfield
    simp [ih hrest]

/-! ### The outcome of an attempt -/

section
variable {δ : Type} {depth : Nat} {dumps : Message δ → Except (String × String) Nat} {exitcode : Int} {deltas : δ}
  {attempted : Attempted} {died : Option Nat} {message : Message δ} {size : Nat}

theorem execute_unwritten {name : String} (h : workerMain depth dumps deltas attempted = .error name) :
    execute depth dumps exitcode deltas attempted died = (lost exitcode, none) := by
  unfold execute
  rw [h]

theorem execute_written (h : workerMain depth dumps deltas attempted = .ok (message, size)) :
    execute depth dumps exitcode deltas attempted died =
      match recv (parts size) (died.getD (parts size).sum) with
      | .message => ((opened message).1, some (opened message).2)
      | .eof => (lost exitcode, none)
      | .inside => (.python "OSError", none) := by
  unfold execute
  rw [h]

theorem execute_complete (h : workerMain depth dumps deltas attempted = .ok (message, size))
    (hall : (parts size).sum ≤ died.getD (parts size).sum) :
    execute depth dumps exitcode deltas attempted died = ((opened message).1, some (opened message).2) := by
  rw [execute_written h, recv_message.mpr hall]

theorem execute_cut {written : Nat} (h : workerMain depth dumps deltas attempted = .ok (message, size))
    (hlt : written < (parts size).sum) :
    execute depth dumps exitcode deltas attempted (some written) = (lost exitcode, none) ↔
      Between (parts size) written := by
  rw [execute_written h, Option.getD_some, ← recv_eof hlt]
  cases hr : recv (parts size) written with
  | message =>
    have := recv_message.mp hr
    omega
  | eof => simp
  | inside => simp [lost]

theorem send_ok (h : send dumps message = .ok (message, size)) : (dumps message).isOk = true := by
  unfold send at h
  split at h
  · rename_i n hn
    rw [hn]
    rfl
  · cases h

theorem send_sends {sent : Message δ} (h : send dumps message = .ok (sent, size)) : sent = message := by
  unfold send at h
  split at h
  · cases h
    rfl
  · cases h

/-- What can be written down is sent as it is. -/
theorem workerMain_writable (h : Writable depth dumps deltas attempted) :
    ∃ message size, report depth deltas attempted = .ok message ∧
      workerMain depth dumps deltas attempted = .ok (message, size) := by
  obtain ⟨message, hreport, hdumps⟩ := h
  cases hn : dumps message with
  | error e =>
    rw [hn] at hdumps
    cases hdumps
  | ok n =>
    refine ⟨message, n, hreport, ?_⟩
    cases attempted with
    | returns result =>
      cases hreport
      simp only [workerMain, hn]
    | raises cls text context => simp only [workerMain, hreport, bind_ok_eq, send, hn]
    | fails type text => simp only [workerMain, hreport, bind_ok_eq, send, hn]

/-- A message that is sent although the outcome cannot be written down is the
crash of sending the result. -/
theorem crash_of_not_writable (h : workerMain depth dumps deltas attempted = .ok (message, size))
    (hnot : ¬ Writable depth dumps deltas attempted) :
    ∃ result text, attempted = .returns result ∧ message = .crash deltas text := by
  have reported : ∀ told, report depth deltas attempted = .ok told → send dumps told = .ok (message, size) → False := by
    intro told htold hsend
    cases send_sends hsend
    exact hnot ⟨message, htold, send_ok hsend⟩
  cases attempted with
  | returns result =>
    simp only [workerMain] at h
    split at h
    · rename_i n hn
      exact absurd ⟨_, rfl, by rw [hn]; rfl⟩ hnot
    · exact ⟨result, _, rfl, send_sends h⟩
  | raises cls text context =>
    obtain ⟨told, htold, hsend⟩ := bind_ok h
    exact (reported told htold hsend).elim
  | fails type text =>
    obtain ⟨told, htold, hsend⟩ := bind_ok h
    exact (reported told htold hsend).elim

/-- The parent opens the message that tells of an outcome as that outcome. -/
theorem delivered_iff (hcore : ∀ cls text context, attempted = .raises cls text context → cls ∈ Tree.forest [errorTree])
    (h : report depth deltas attempted = .ok message) :
    Delivered deltas attempted ((opened message).1, some (opened message).2) ↔ Rebuilt attempted := by
  cases attempted with
  | returns result =>
    cases h
    simp [Delivered, Rebuilt, opened]
  | raises cls text context =>
    obtain ⟨plained, hplain, rfl⟩ := map_ok h
    have hrebuilt := rebuildError_core (hcore cls text context rfl) text plained
    rw [plain_keys hplain] at hrebuilt
    simp only [Delivered, Rebuilt, opened, Prod.mk.injEq, and_true]
    exact hrebuilt
  | fails type text =>
    obtain ⟨s, -, rfl⟩ := map_ok h
    simp [Delivered, Rebuilt, opened]

/-- A complete message delivers the outcome exactly when that was written down
and can be rebuilt. -/
theorem sent_delivered_iff
    (hcore : ∀ cls text context, attempted = .raises cls text context → cls ∈ Tree.forest [errorTree])
    (h : workerMain depth dumps deltas attempted = .ok (message, size)) :
    Delivered deltas attempted ((opened message).1, some (opened message).2) ↔
      Writable depth dumps deltas attempted ∧ Rebuilt attempted := by
  by_cases hwritable : Writable depth dumps deltas attempted
  · obtain ⟨told, n, hreport, hsent⟩ := workerMain_writable hwritable
    rw [h] at hsent
    cases hsent
    rw [delivered_iff hcore hreport]
    simp [hwritable]
  · obtain ⟨result, text, rfl, rfl⟩ := crash_of_not_writable h hwritable
    simp [hwritable, Delivered, opened]

theorem not_writable_of_error {name : String} (h : workerMain depth dumps deltas attempted = .error name) :
    ¬ Writable depth dumps deltas attempted := by
  intro hwritable
  obtain ⟨told, n, -, hsent⟩ := workerMain_writable hwritable
  rw [h] at hsent
  cases hsent

/-- An attempt's outcome crosses the process boundary unchanged exactly when it
arrives. -/
theorem crosses_iff (hcore : ∀ cls text context, attempted = .raises cls text context → cls ∈ Tree.forest [errorTree]) :
    Crosses depth dumps exitcode deltas attempted died ↔ Arrives depth dumps deltas attempted died := by
  unfold Crosses Arrives
  cases hw : workerMain depth dumps deltas attempted with
  | error name =>
    simp only [execute_unwritten hw]
    have hnot : ¬ Delivered deltas attempted (lost exitcode, none) := by
      cases attempted <;> simp [Delivered]
    have hunwritable := not_writable_of_error hw
    simp [hnot, hunwritable]
  | ok sent =>
    obtain ⟨message, size⟩ := sent
    by_cases hd : Dies depth dumps deltas attempted died
    · obtain ⟨written, rfl, hshort⟩ := id hd
      have hcut : execute depth dumps exitcode deltas attempted (some written) = (lost exitcode, none) ↔ _ :=
        execute_cut hw (hshort message size hw)
      simp only [hd, true_implies, not_true_eq_false, false_implies, and_true, hcut]
      constructor
      · intro hbetween written' message' size' hwritten hmessage
        cases hwritten
        cases hmessage
        exact hbetween
      · exact fun h => h written message size rfl rfl
    · have hall : (parts size).sum ≤ died.getD (parts size).sum := by
        cases died with
        | none => exact Nat.le_refl _
        | some written =>
          by_contra hlt
          apply hd
          refine ⟨written, rfl, fun message' size' hmessage => ?_⟩
          rw [hw] at hmessage; cases hmessage
          simpa using hlt
      simp only [hd, false_implies, true_and, not_false_eq_true, true_implies, execute_complete hw hall,
        sent_delivered_iff hcore hw]

end

/-! ### Outcomes that do not cross -/

def modelBusy : Attempted :=
  .raises ⟨"ModelBusyError", "MODEL_BUSY", []⟩ "the model has a running job" [("model_id", .str "nwdaf")]

def circular : Attempted :=
  .raises ⟨"ModelBusyError", "MODEL_BUSY", []⟩ "the model has a running job" [("holders", .list [.enclosing])]

/-- The containers nest at most so deep. -/
def shallow : Nat → Json → Bool
  | depth + 1, .arr items => items.all (shallow depth)
  | depth + 1, .obj fields => fields.all fun p => shallow depth p.2
  | 0, .arr _ | 0, .obj _ => false
  | _, _ => true

/-- A pickler of messages of 40 bytes, whose recursion ends at `limit` containers. -/
def pickler (limit : Nat) (message : Message Unit) : Except (String × String) Nat :=
  let value := match message with
    | .ok _ result => result
    | .error _ _ _ context => context
    | .crash .. => []
  if shallow limit (.obj value) then .ok 40 else .error ("RecursionError", "maximum recursion depth exceeded")

def nested : Nat → Json
  | 0 => .null
  | n + 1 => .arr [nested n]

theorem shallow_nested : ∀ n depth : Nat, depth < n → shallow depth (nested n) = false := by
  intro n
  induction n with
  | zero =>
    intro depth h
    omega
  | succ n ih =>
    intro depth h
    cases depth with
    | zero => rfl
    | succ depth => simp [nested, shallow, ih depth (by omega)]

theorem crosses_modelBusy : Crosses 1000 (pickler 498) 0 () modelBusy none := by
  refine (crosses_iff ?_).mpr ⟨?_, fun _ => ⟨⟨_, rfl, rfl⟩, rfl⟩⟩
  · intro cls text context h
    cases h
    decide +kernel
  · rintro ⟨written, h, -⟩
    cases h

theorem not_dies_unkilled {dumps : Message Unit → Except (String × String) Nat} {attempted : Attempted} :
    ¬ Dies 1000 dumps () attempted none := by
  rintro ⟨written, h, -⟩
  cases h

/-- A result of which 30 bytes were written, an error that the handler cannot
write down, and a result that nests too deep for the pickler. -/
theorem not_crossed : ¬ Crosses 1000 (pickler 498) (-9) () (.returns []) (some 30) ∧
    ¬ Crosses 1000 (pickler 498) 1 () circular none ∧
    ¬ Crosses 1000 (pickler 498) 0 () (.returns [("report", nested 498)]) none := by
  refine ⟨fun h => ?_, fun h => ?_, fun h => ?_⟩
  · have hdies : Dies 1000 (pickler 498) () (.returns []) (some 30) := by
      refine ⟨30, rfl, fun message size hsent => ?_⟩
      cases hsent
      decide
    cases h.1 hdies
  · obtain ⟨context, h⟩ := h.2 not_dies_unkilled
    have hmetrics := congrArg Prod.snd h
    cases hmetrics
  · have hdeep : pickler 498 (.ok () [("report", nested 498)]) =
        .error ("RecursionError", "maximum recursion depth exceeded") := by
      have hshallow : shallow 498 (.obj [("report", nested 498)]) = false := by
        simp [shallow, shallow_nested 498 497 (by omega)]
      simp [pickler, hshallow]
    have hcrash : workerMain 1000 (pickler 498) () (.returns [("report", nested 498)]) =
        .ok (.crash () "RecursionError: maximum recursion depth exceeded", 40) := by
      simp only [workerMain, hdeep]
      rfl
    have hreturned := congrArg Prod.fst (h.2 not_dies_unkilled)
    rw [execute_complete hcrash (Nat.le_refl _)] at hreturned
    cases hreturned

end JobExecutor

end OranAdapt
