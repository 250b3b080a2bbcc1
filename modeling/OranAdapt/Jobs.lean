import OranAdapt.Locks

/-!
# Submission, transitions and cancellation

`orchestrator.jobs`. Each function is one transaction: `.ok` is the database
it commits, `.error` the exception it raises after rolling back. `now` is the
clock the transaction reads.
-/

namespace OranAdapt

/-! ## Transitions -/

/-- The optional arguments of `apply_transition`. -/
structure Change where
  message : String
  error : Option ErrorDict := none
  result : Option JobResult := none
  strategy : Option String := none

/-- The row after `apply_transition`. -/
def Job.moved (job : Job) (toStatus : JobStatus) (c : Change) : Job :=
  { job with
    status := toStatus
    error := c.error.or job.error
    result := c.result.or job.result
    strategy := c.strategy.or job.strategy }

/-- The event `apply_transition` records. -/
def Job.moveEvent (job : Job) (id : JobId) (toStatus : JobStatus) (c : Change) : AdaptationEvent :=
  ⟨id, "orchestrator", some job.status, toStatus, c.message⟩

def invalidTransition (cur tgt : JobStatus) : AdaptationError :=
  ⟨.invalidTransition, "job cannot move from " ++ cur.value ++ " to " ++ tgt.value,
    [("from_status", .str cur.value), ("to_status", .str tgt.value)]⟩

/-- `apply_transition`: the row as the session holds it, and its new event. -/
def applyTransition (id : JobId) (job : Job) (toStatus : JobStatus) (c : Change) :
    Except AdaptationError (Job × List AdaptationEvent) :=
  if job.status.mayMove toStatus then .ok (job.moved toStatus c, [job.moveEvent id toStatus c])
  else .error (invalidTransition job.status toStatus)

theorem applyTransition_ok {id : JobId} {job : Job} {toStatus : JobStatus} {c : Change} {r : Job × List AdaptationEvent} :
    applyTransition id job toStatus c = .ok r ↔
      job.status.mayMove toStatus = true ∧ r = (job.moved toStatus c, [job.moveEvent id toStatus c]) := by
  unfold applyTransition
  split
  · rename_i h; simp [h, eq_comm]
  · rename_i h; simp [h]

theorem applyTransition_of {id : JobId} {job : Job} {toStatus : JobStatus} (c : Change)
    (h : job.status.mayMove toStatus = true) :
    applyTransition id job toStatus c = .ok (job.moved toStatus c, [job.moveEvent id toStatus c]) :=
  applyTransition_ok.mpr ⟨h, rfl⟩

def loadJob (db : Db) (id : JobId) : Except AdaptationError Job :=
  match db.jobs.get? id with
  | some job => .ok job
  | none => .error ⟨.jobNotFound, "job '" ++ id ++ "' not found", [("job_id", .str id)]⟩

theorem loadJob_ok {db : Db} {id : JobId} {job : Job} : loadJob db id = .ok job ↔ db.jobs.get? id = some job := by
  unfold loadJob
  cases db.jobs.get? id <;> simp

/-- Refuse a worker's write once it no longer holds the job's lease, and a
stage report after a cancel request (outside the registry stages). -/
def checkFence (id : JobId) (job : Job) (fence : Option Token) (toStatus : JobStatus) : Except AdaptationError Unit :=
  match fence with
  | none => .ok ()
  | some token =>
    if job.leaseToken ≠ some token then
      .error ⟨.jobLeaseLost, "this worker no longer holds the job's lease",
        [("job_id", .str id), ("lease_owner", .ofOption job.leaseOwner)]⟩
    else if job.cancelRequestedAt ≠ none ∧ toStatus.terminal = false ∧ toStatus ≠ .queued ∧
        job.status.inRegistryStage = false then
      .error ⟨.jobCancelled, "the job was cancelled on request",
        [("job_id", .str id), ("requested_by", .ofOption job.cancelRequestedBy),
          ("stage", .str job.status.value)]⟩
    else .ok ()

theorem checkFence_ok {id : JobId} {job : Job} {token : Token} {toStatus : JobStatus} :
    checkFence id job (some token) toStatus = .ok () ↔
      job.leaseToken = some token ∧
        (job.cancelRequestedAt = none ∨ toStatus.terminal = true ∨ toStatus = .queued ∨
          job.status.inRegistryStage = true) := by
  unfold checkFence
  by_cases h : job.leaseToken = some token
  · by_cases hc : job.cancelRequestedAt ≠ none ∧ toStatus.terminal = false ∧ toStatus ≠ .queued ∧
        job.status.inRegistryStage = false
    · simp [h, hc]
    · simp only [h, hc, ne_eq, not_true_eq_false, ite_false, true_and, true_iff]
      by_contra hn
      simp only [not_or, Bool.not_eq_true] at hn
      exact hc ⟨hn.1, hn.2.1, hn.2.2.1, hn.2.2.2⟩
  · simp [h]

/-- `_transition`: a stage report, in its own transaction. -/
def transition (db : Db) (id : JobId) (toStatus : JobStatus) (c : Change) (fence : Option Token) :
    Except AdaptationError Db := do
  let job ← loadJob db id
  checkFence id job fence toStatus
  let (job', evs) ← applyTransition id job toStatus c
  return db.put id job' evs

theorem transition_ok {db db' : Db} {id : JobId} {toStatus : JobStatus} {c : Change} {token : Token}
    (h : transition db id toStatus c (some token) = .ok db') :
    ∃ job, db.jobs.get? id = some job ∧ checkFence id job (some token) toStatus = .ok () ∧
      job.status.mayMove toStatus = true ∧ db' = db.put id (job.moved toStatus c) [job.moveEvent id toStatus c] := by
  unfold transition at h
  obtain ⟨job, hj, h⟩ := bind_ok h
  obtain ⟨_, hf, h⟩ := bind_ok h
  obtain ⟨r, ht, h⟩ := bind_ok h
  obtain ⟨hm, rfl⟩ := applyTransition_ok.mp ht
  exact ⟨job, loadJob_ok.mp hj, hf, hm, (Except.ok.inj h).symm⟩

/-! ## Submission -/

def idempotencyKey (P : Platform) (e : DriftEvent) : String :=
  let hashed := e.modelId ++ ":" ++ String.ofList ((P.sha256 e.body).toList.take 32)
  match e.eventId with
  | some eventId => if eventId ≠ "" then e.modelId ++ ":" ++ eventId else hashed
  | none => hashed

/-- The job stored under an idempotency key (a unique column). -/
def Db.byKey (db : Db) (key : String) : Option (JobId × Job) :=
  db.jobs.rows.find? fun p => p.2.idempotencyKey = key

def jobAbandoned (message : String) (context : Context) : AdaptationError := ⟨.jobAbandoned, message, context⟩

def abandonedError (lastStage : JobStatus) (takenOverBy : JobId) : ErrorDict :=
  let error := (jobAbandoned ("the job's process stopped before the job finished; its model lock expired and was " ++
    "taken over by a newer job") [("last_stage", .str lastStage.value), ("taken_over_by", .str takenOverBy)]).toDict
  if lastStage.inRegistryStage then
    { error with context := error.context.set "needs_reconciliation" (.bool true) }
  else error

def abandonedChange (lastStage : JobStatus) (takenOverBy : JobId) : Change :=
  { message := (abandonedError lastStage takenOverBy).message, error := some (abandonedError lastStage takenOverBy) }

def Job.unleased (job : Job) : Job := { job with leaseToken := none, leaseExpiresAt := none }

def Db.dropSlots (db : Db) (id : JobId) : Db := { db with slots := db.slots.keep fun _ slot => slot.jobId != id }

/-- `_fail_abandoned_job`: record the job an expired lock named as FAILED, in
the takeover's transaction. -/
def failAbandonedJob (db : Db) (old : Holder) (takenOverBy : JobId) : Except AdaptationError Db :=
  match old with
  | .job oldId =>
    match db.jobs.get? oldId with
    | none => .ok db
    | some job =>
      if job.status.terminal then .ok db
      else do
        let (job', evs) ← applyTransition oldId job .failed (abandonedChange job.status takenOverBy)
        return (db.put oldId job'.unleased evs).dropSlots oldId
  -- no job carries a rollout's or a rollback's holder name
  | _ => .ok db

/-- `session.get(AdaptationJob, text)`: a lookup by the integer primary key. -/
def sessionGet (P : Platform) (db : Db) (text : String) : Except AdaptationError (Option (JobId × Job)) :=
  match P.readPk text with
  | none => .error ⟨.dataError, "invalid input syntax for type integer", []⟩
  | some none => .ok none
  | some (some n) => .ok (db.jobs.rows.find? fun p => p.2.id = n)

/-- What `_holder_is_active` asks of the row it finds. -/
def Job.waitsOrRuns (job : Job) (now : Time) : Bool :=
  if job.status.terminal then false
  else if job.status = .queued then true
  else job.leaseToken.isSome && match job.leaseExpiresAt with
    | some expires => decide (now < expires)
    | none => false

def holderIsActive (P : Platform) (db : Db) (holder : Option Holder) (now : Time) : Except AdaptationError Bool :=
  match holder with
  | none => .ok false
  | some h => do
    match ← sessionGet P db h.text with
    | none => return false
    | some (_, job) => return job.waitsOrRuns now

def modelBusy (model : ModelId) (running : Option Holder) : AdaptationError :=
  ⟨.modelBusy, "model '" ++ model ++ "' already has an adaptation job queued or running",
    [("model_id", .str model), ("running_job_id", .ofOption (running.map Holder.text))]⟩

def newJob (P : Platform) (cfg : Settings) (db : Db) (now : Time) (event : DriftEvent) (actor : String) : Job :=
  { id := db.jobs.rows.length + 1
    idempotencyKey := idempotencyKey P event
    modelId := event.modelId
    status := .received
    strategy := none
    event := event
    result := none
    error := none
    createdAt := now
    tenant := (cfg.jobTenantByPrincipal.lookup actor).getD cfg.jobDefaultTenant
    workerClass := (cfg.jobClassByFramework.lookup
      (((db.models.get? event.modelId).bind ModelMetadata.framework).getD "")).getD cfg.jobDefaultClass
    priority := (cfg.jobPriorityBySeverity.lookup (event.severity.getD "")).getD cfg.jobDefaultPriority
    attempt := 0
    availableAt := some now
    deadlineAt := cfg.jobDeadlineS.map fun d => now + d
    leaseOwner := none
    leaseToken := none
    leaseExpiresAt := none
    cancelRequestedAt := none
    cancelRequestedBy := none
    lostCount := 0
    quarantined := false
    publishedAt := none }

/-- What a submission answers: an earlier job of the same key, or its own. -/
inductive Submitted where
  | duplicate (id : JobId) (job : Job)
  | queued (id : JobId) (job : Job)

/-- The rest of `_submit` once the lock is held: RECEIVED is recorded, then QUEUED. -/
def enqueue (db : Db) (id : JobId) (job : Job) : Except AdaptationError (Db × Submitted) := do
  let received : AdaptationEvent := ⟨id, "orchestrator", none, .received, "job received"⟩
  let (job', evs) ← applyTransition id job .queued
    { message := "job queued for worker class '" ++ job.workerClass ++ "'" }
  return (db.put id job' (received :: evs), .queued id job')

/-- The job's lock, taken over from an abandoned holder or new. An existing
live lock is the IntegrityError `_submit` answers with ModelBusyError. -/
def lockForJob (cfg : Settings) (db : Db) (model : ModelId) (id : JobId) (now : Time) : Except AdaptationError Db :=
  let previous := (db.locks.get? model).map ModelLock.jobId
  match db.takeOverExpiredLock model (.job id) cfg.modelLockTtlS now with
  | some db' =>
    match previous with
    | some holder => if holder ≠ .job id then failAbandonedJob db' holder id else .ok db'
    | none => .ok db'
  | none =>
    match db.addLock model (.job id) cfg.modelLockTtlS now with
    | some db' => .ok db'
    | none => .error (modelBusy model previous)

def submit (P : Platform) (cfg : Settings) (db : Db) (now : Time) (id : JobId) (event : DriftEvent) (actor : String) :
    Except AdaptationError (Db × Submitted) :=
  match db.byKey (idempotencyKey P event) with
  | some (id₀, job₀) => .ok (db, .duplicate id₀ job₀)
  | none =>
    let job := newJob P cfg db now event actor
    let previous := (db.locks.get? event.modelId).map ModelLock.jobId
    match db.jobs.insert? id job with
    | none => .error (modelBusy event.modelId previous)
    | some jobs => do
      let db := { db with jobs }
      if ← holderIsActive P db previous now then throw (modelBusy event.modelId previous)
      let db ← lockForJob cfg db event.modelId id now
      enqueue db id job

/-- The row and event of a job whose lock was taken over. -/
def Job.abandoned (job : Job) (takenOverBy : JobId) : Job :=
  (job.moved .failed (abandonedChange job.status takenOverBy)).unleased

def Job.abandonedEvent (job : Job) (id takenOverBy : JobId) : AdaptationEvent :=
  job.moveEvent id .failed (abandonedChange job.status takenOverBy)

/-- The job an expired lock named, when it names one that has not ended, is recorded FAILED. -/
theorem failAbandonedJob_ok {db db' : Db} {old : Holder} {by_ : JobId} (h : failAbandonedJob db old by_ = .ok db') :
    (db' = db ∧ ∀ id job, old = .job id → db.jobs.get? id = some job → job.status.terminal = true) ∨
    ∃ id job, old = .job id ∧ db.jobs.get? id = some job ∧ job.status.terminal = false ∧
      db' = (db.put id (job.abandoned by_) [job.abandonedEvent id by_]).dropSlots id := by
  unfold failAbandonedJob at h
  cases old with
  | job id =>
    simp only at h
    cases hj : db.jobs.get? id with
    | none =>
      rw [hj] at h
      refine .inl ⟨(Except.ok.inj h).symm, ?_⟩
      intro id' job' he; cases he; simp [hj]
    | some job =>
      rw [hj] at h
      simp only at h
      split at h
      · rename_i ht
        refine .inl ⟨(Except.ok.inj h).symm, ?_⟩
        intro id' job' he hg; cases he
        rw [hj] at hg; cases hg; exact ht
      · rename_i ht
        obtain ⟨r, ha, h⟩ := bind_ok h
        obtain ⟨-, rfl⟩ := applyTransition_ok.mp ha
        exact .inr ⟨id, job, rfl, hj, by simpa using ht, (Except.ok.inj h).symm⟩
  | rollout id => exact .inl ⟨(Except.ok.inj h).symm, fun _ _ he => (by cases he)⟩
  | rollback id => exact .inl ⟨(Except.ok.inj h).symm, fun _ _ he => (by cases he)⟩

/-- `holder` got the model's lock, which was free or had expired. -/
structure TookLock (ttl : Time) (db db' : Db) (model : ModelId) (holder : Holder) (now : Time) : Prop where
  free : ∀ l, db.locks.get? model = some l → l.expiresAt < now
  locks : ∀ m, db'.locks.get? m = if m = model then some ⟨holder, now, now + ttl⟩ else db.locks.get? m

theorem Db.takeOver_tookLock {db db' : Db} {model : ModelId} {holder : Holder} {ttl now : Time}
    (h : db.takeOverExpiredLock model holder ttl now = some db') : TookLock ttl db db' model holder now := by
  obtain ⟨l, hl, he, rfl⟩ := Db.takeOverExpiredLock_some h
  refine ⟨fun l' hl' => ?_, fun m => ?_⟩
  · rw [hl] at hl'; cases hl'; exact he
  · simp only [Table.get?_modify]
    split
    · rename_i e; rw [e, hl]; rfl
    · rfl

theorem Db.add_tookLock {db db' : Db} {model : ModelId} {holder : Holder} {ttl now : Time}
    (h : db.addLock model holder ttl now = some db') : TookLock ttl db db' model holder now := by
  obtain ⟨hn, locks, hi, rfl⟩ := Db.addLock_some h
  exact ⟨fun l hl => (by rw [hn] at hl; cases hl), Table.get?_insert? hi⟩

/-- How a submission got its model's lock: the job the lock named before is
recorded FAILED unless it had ended (or there was none). -/
theorem lockForJob_ok {cfg : Settings} {db db' : Db} {model : ModelId} {id : JobId} {now : Time}
    (h : lockForJob cfg db model id now = .ok db') :
    TookLock cfg.modelLockTtlS db db' model (.job id) now ∧
    ((db'.jobs = db.jobs ∧ db'.events = db.events ∧ db'.slots = db.slots ∧
        ∀ l old job, db.locks.get? model = some l → l.jobId = .job old → old ≠ id → db.jobs.get? old = some job →
          job.status.terminal = true) ∨
      ∃ l old job, db.locks.get? model = some l ∧ l.jobId = .job old ∧ old ≠ id ∧ db.jobs.get? old = some job ∧
        job.status.terminal = false ∧ db'.jobs = db.jobs.modify old (fun _ => job.abandoned id) ∧
        db'.events = db.events ++ [job.abandonedEvent old id] ∧ db'.slots = (db.dropSlots old).slots) := by
  unfold lockForJob at h
  simp only at h
  cases ht : db.takeOverExpiredLock model (.job id) cfg.modelLockTtlS now with
  | some taken =>
    have htook := Db.takeOver_tookLock ht
    obtain ⟨l, hl, he, rfl⟩ := Db.takeOverExpiredLock_some ht
    simp only [ht, hl, Option.map_some] at h
    split at h
    · rcases failAbandonedJob_ok h with ⟨rfl, hended⟩ | ⟨old, job, hold, hj, hterm, rfl⟩
      · refine ⟨htook, .inl ⟨rfl, rfl, rfl, fun l' old job hl' hold _ hj => ?_⟩⟩
        rw [hl] at hl'; cases hl'
        exact hended old job hold hj
      · rename_i hne
        exact ⟨⟨htook.free, htook.locks⟩, .inr ⟨l, old, job, hl, hold, fun e => hne (by rw [hold, e]),
          hj, hterm, rfl, rfl, rfl⟩⟩
    · rename_i hsame
      cases h
      refine ⟨htook, .inl ⟨rfl, rfl, rfl, fun l' old job hl' hold hne _ => ?_⟩⟩
      rw [hl] at hl'; cases hl'
      rw [hold] at hsame
      exact absurd (Holder.job.inj (Decidable.not_not.mp hsame)) hne
  | none =>
    simp only [ht] at h
    cases ha : db.addLock model (.job id) cfg.modelLockTtlS now with
    | none => rw [ha] at h; cases h
    | some added =>
      have htook := Db.add_tookLock ha
      obtain ⟨hn, locks, hi, rfl⟩ := Db.addLock_some ha
      rw [ha] at h; cases h
      exact ⟨htook, .inl ⟨rfl, rfl, rfl, fun l old job hl => (by rw [hn] at hl; cases hl)⟩⟩

/-- The row `_submit` stores. -/
def queuedJob (job : Job) : Job :=
  job.moved .queued { message := "job queued for worker class '" ++ job.workerClass ++ "'" }

/-- The two events a submission records. -/
def submitEvents (id : JobId) (job : Job) : List AdaptationEvent :=
  [⟨id, "orchestrator", none, .received, "job received"⟩,
    job.moveEvent id .queued { message := "job queued for worker class '" ++ job.workerClass ++ "'" }]

theorem enqueue_ok {db db' : Db} {id : JobId} {job : Job} {r : Submitted} (h : enqueue db id job = .ok (db', r)) :
    db' = db.put id (queuedJob job) (submitEvents id job) ∧ r = .queued id (queuedJob job) := by
  unfold enqueue at h
  obtain ⟨p, ha, h⟩ := bind_ok h
  obtain ⟨-, rfl⟩ := applyTransition_ok.mp ha
  simp only [pure, Except.pure, Except.ok.injEq, Prod.mk.injEq] at h
  exact ⟨h.1.symm, h.2.symm⟩

/-- What a submission that is not refused did: nothing for an event stored
before; else the job is stored queued and holds its model's lock, and at most
one other job is written. -/
theorem submit_ok {P : Platform} {cfg : Settings} {db db' : Db} {now : Time} {id : JobId} {event : DriftEvent}
    {actor : String} {r : Submitted} (h : submit P cfg db now id event actor = .ok (db', r)) :
    (db' = db ∧ ∃ id₀ job₀, db.byKey (idempotencyKey P event) = some (id₀, job₀) ∧
      r = .duplicate id₀ job₀) ∨
    (db.byKey (idempotencyKey P event) = none ∧ db.jobs.get? id = none ∧
      r = .queued id (queuedJob (newJob P cfg db now event actor)) ∧
      TookLock cfg.modelLockTtlS db db' event.modelId (.job id) now ∧
      let new := newJob P cfg db now event actor
      (∃ jobs, db.jobs.insert? id new = some jobs ∧
        holderIsActive P { db with jobs } ((db.locks.get? event.modelId).map ModelLock.jobId) now = .ok false) ∧
      ((db.Wrote db' id (queuedJob new) (submitEvents id new) ∧ db'.slots = db.slots ∧
          ∀ l old job, db.locks.get? event.modelId = some l → l.jobId = .job old → db.jobs.get? old = some job →
            job.status.terminal = true) ∨
        ∃ l old job, db.locks.get? event.modelId = some l ∧ l.jobId = .job old ∧ old ≠ id ∧
          db.jobs.get? old = some job ∧ job.status.terminal = false ∧
          (db.put old (job.abandoned id) [job.abandonedEvent old id]).Wrote db' id (queuedJob new) (submitEvents id new) ∧
          db'.slots = (db.dropSlots old).slots)) := by
  unfold submit at h
  cases hk : db.byKey (idempotencyKey P event) with
  | some p =>
    obtain ⟨id₀, job₀⟩ := p
    simp only [hk, Except.ok.injEq, Prod.mk.injEq] at h
    exact .inl ⟨h.1.symm, id₀, job₀, rfl, h.2.symm⟩
  | none =>
    simp only [hk] at h
    cases hi : db.jobs.insert? id (newJob P cfg db now event actor) with
    | none => rw [hi] at h; cases h
    | some jobs =>
      simp only [hi] at h
      obtain ⟨live, hl, h⟩ := bind_ok h
      cases live with
      | true => cases h
      | false =>
        obtain ⟨db₁, hlock, h⟩ := bind_ok h
        obtain ⟨rfl, hr⟩ := enqueue_ok h
        obtain ⟨htook, hwrote⟩ := lockForJob_ok hlock
        have hfresh := Table.insert?_fresh hi
        have hget := Table.get?_insert? hi
        have hown : ∀ e ∈ submitEvents id (newJob P cfg db now event actor), e.jobId = id := by
          simp [submitEvents, Job.moveEvent]
        refine .inr ⟨rfl, hfresh, hr, ⟨htook.free, htook.locks⟩, ⟨jobs, hi, hl⟩, ?_⟩
        rcases hwrote with ⟨hj, he, hs, hended⟩ | ⟨l, old, job, hlk, hold, hne, hjob, hterm, hj, he, hs⟩
        · refine .inl ⟨⟨fun id' => ?_, ?_, hown⟩, hs, fun l old job hlk hold hjob => ?_⟩
          · have hnew : db₁.jobs.get? id = some (newJob P cfg db now event actor) := by rw [hj, hget, if_pos rfl]
            rw [Db.get?_put db₁ hnew, hj]
            split
            · rfl
            · rename_i hne; rw [hget, if_neg hne]
          · rw [Db.events_put, he]
          · have hne : old ≠ id := fun e => by rw [e, hfresh] at hjob; cases hjob
            exact hended l old job hlk hold hne (by rw [hget, if_neg hne]; exact hjob)
        · rw [hget, if_neg hne] at hjob
          refine .inr ⟨l, old, job, hlk, hold, hne, hjob, hterm, ⟨fun id' => ?_, ?_, hown⟩, hs⟩
          · have hnew : db₁.jobs.get? id = some (newJob P cfg db now event actor) := by
              rw [hj, Table.get?_modify, if_neg (Ne.symm hne), hget, if_pos rfl]
            rw [Db.get?_put db₁ hnew, Db.get?_put db hjob, hj, Table.get?_modify]
            by_cases e : id' = id
            · simp [e]
            · by_cases e' : id' = old
              · subst e'; simp [hne, hget, hjob]
              · simp [e, e', hget]
          · rw [Db.events_put, he, Db.events_put]

/-! ## Cancellation -/

def Job.asked (job : Job) (now : Time) (actor : String) : Job :=
  if job.cancelRequestedAt = none then { job with cancelRequestedAt := some now, cancelRequestedBy := some actor }
  else job

/-- `request_cancel`: the new database, and whether the job ended at once. -/
def requestCancel (db : Db) (now : Time) (id : JobId) (actor : String) : Except AdaptationError (Db × Bool) := do
  let job ← loadJob db id
  if job.status.terminal ∨ job.status.inRegistryStage then
    throw ⟨.jobNotCancellable, "job '" ++ id ++ "' is " ++ job.status.value ++ " and cannot be cancelled",
      [("job_id", .str id), ("status", .str job.status.value)]⟩
  let asked := job.asked now actor
  if job.status = .queued ∧ job.leaseToken = none then
    let error : ErrorDict := (⟨.jobCancelled, "the job was cancelled on request before it ran",
      [("job_id", .str id), ("requested_by", .str actor)]⟩ : AdaptationError).toDict
    let (job', evs) ← applyTransition id asked .cancelled { message := error.message, error := some error }
    return (((db.put id job' evs).releaseLock job.modelId (.job id)).dropSlots id, true)
  return (db.put id asked [], false)

theorem requestCancel_ok {db db' : Db} {now : Time} {id : JobId} {actor : String} {immediate : Bool}
    (h : requestCancel db now id actor = .ok (db', immediate)) :
    ∃ job, db.jobs.get? id = some job ∧ job.status.terminal = false ∧ job.status.inRegistryStage = false ∧
      ((immediate = true ∧ job.status = .queued ∧ job.leaseToken = none ∧ ∃ c : Change,
          db' = (((db.put id ((job.asked now actor).moved .cancelled c)
            [(job.asked now actor).moveEvent id .cancelled c]).releaseLock job.modelId (.job id)).dropSlots id)) ∨
        (immediate = false ∧ ¬ (job.status = .queued ∧ job.leaseToken = none) ∧
          db' = db.put id (job.asked now actor) [])) := by
  unfold requestCancel at h
  obtain ⟨job, hj, h⟩ := bind_ok h
  refine ⟨job, loadJob_ok.mp hj, ?_⟩
  by_cases hr : job.status.terminal = true ∨ job.status.inRegistryStage = true
  · rw [if_pos hr] at h; cases h
  · rw [if_neg hr] at h
    simp only [not_or, Bool.not_eq_true] at hr
    refine ⟨hr.1, hr.2, ?_⟩
    by_cases hq : job.status = .queued ∧ job.leaseToken = none
    · rw [if_pos hq] at h
      obtain ⟨r, ha, h⟩ := bind_ok h
      obtain ⟨-, rfl⟩ := applyTransition_ok.mp ha
      simp only [pure, Except.pure, Except.ok.injEq, Prod.mk.injEq] at h
      exact .inl ⟨h.2.symm, hq.1, hq.2, _, h.1.symm⟩
    · rw [if_neg hq] at h
      simp only [pure, Except.pure, Except.ok.injEq, Prod.mk.injEq] at h
      exact .inr ⟨h.2.symm, hq, h.1.symm⟩

end OranAdapt
