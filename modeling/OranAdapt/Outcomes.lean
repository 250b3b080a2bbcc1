import Mathlib.Algebra.Ring.Nat
import OranAdapt.Claims

/-!
# Outcomes and the reaper

The second half of `orchestrator.worker`: how an attempt ends, and how a job
whose worker is gone is taken from it.
-/

namespace OranAdapt

/-! ## Outcomes -/

def Db.freeSlot (db : Db) (c : Claim) : Db :=
  match c.slot with
  | none => db
  | some n => { db with slots := db.slots.keep fun k slot => !(k == (c.tenant, n) && slot.jobId == c.jobId) }

/-- `_end_attempt` and the flush of the job's row: the lease is cleared, the
slot freed, and the model lock released when the job ended. -/
def endAttempt (db : Db) (c : Claim) (job : Job) (evs : List AdaptationEvent) (releaseModelLock : Bool) : Db :=
  let db := (db.put c.jobId job.unleased evs).freeSlot c
  if releaseModelLock then db.releaseLock job.modelId (.job c.jobId) else db

/-- `Worker._record`: a terminal outcome, fenced by the claim's token. -/
def record (db : Db) (c : Claim) (toStatus : JobStatus) (ch : Change) (releaseModelLock : Bool) :
    Except AdaptationError Db := do
  let job ← loadJob db c.jobId
  checkFence c.jobId job (some c.leaseToken) toStatus
  let (job', evs) ← applyTransition c.jobId job toStatus ch
  return endAttempt db c job' evs releaseModelLock

/-- What `requeue` writes beside the transition. -/
def Job.requeued (job : Job) (availableAt : Time) (charge lost : Bool) : Job :=
  { job with
    availableAt := some availableAt
    publishedAt := none
    attempt := if charge then job.attempt else job.attempt - 1
    lostCount := if lost then job.lostCount + 1 else job.lostCount }

/-- `requeue`: back in the queue, available after `delay`. -/
def requeue (now : Time) (id : JobId) (job : Job) (message : String) (delay : Time) (charge lost : Bool) :
    Except AdaptationError (Job × List AdaptationEvent) := do
  let (job', evs) ← applyTransition id job .queued { message := message }
  return (job'.requeued (now + delay) charge lost, evs)

/-- One more lost attempt, and no further one. -/
def Job.quarantine (job : Job) : Job := { job with lostCount := job.lostCount + 1, quarantined := true }

def lose (cfg : Settings) (now : Time) (id : JobId) (job : Job) (why : String) :
    Except AdaptationError (Job × List AdaptationEvent × Bool) :=
  let lastStage := job.status
  if lastStage.inRegistryStage then do
    let error := (jobAbandoned (why ++ " while " ++ lastStage.value)
      [("last_stage", .str lastStage.value), ("needs_reconciliation", .bool true)]).toDict
    let (job', evs) ← applyTransition id job .failed { message := error.message, error := some error }
    return (job', evs, true)
  else if job.lostCount + 1 ≥ cfg.jobPoisonThreshold then do
    let job := job.quarantine
    let error : ErrorDict := (⟨.jobQuarantined, why ++ "; " ++ toString job.lostCount ++
        " attempts ended without an outcome, so the job is quarantined and not run again",
      [("last_stage", .str lastStage.value), ("lost_attempts", .nat job.lostCount),
        ("threshold", .nat cfg.jobPoisonThreshold)]⟩ : AdaptationError).toDict
    let (job', evs) ← applyTransition id job .failed { message := error.message, error := some error }
    return (job', evs, true)
  else do
    let (job', evs) ← requeue now id job ("requeued after " ++ why ++ " in " ++ lastStage.value)
      (cfg.jobRetryBackoffS * 2 ^ job.lostCount) true true
    return (job', evs, false)

def retryBackoff (cfg : Settings) (tries : Int) : Time :=
  if 1 ≤ tries then cfg.jobRetryBackoffS * 2 ^ (tries - 1).toNat
  else cfg.jobRetryBackoffS / 2 ^ (1 - tries).toNat

/-- A transient failure: another try while retries remain, else FAILED. -/
def retry (cfg : Settings) (now : Time) (id : JobId) (job : Job) (exc : AdaptationError) :
    Except AdaptationError (Job × List AdaptationEvent × Bool) :=
  let tries : Int := job.attempt - job.lostCount
  if tries ≤ cfg.jobMaxRetries then do
    let (job', evs) ← requeue now id job ("retry " ++ toString tries ++ "/" ++ toString cfg.jobMaxRetries ++
      " after " ++ exc.cls.code ++ ": " ++ exc.message) (retryBackoff cfg tries) true false
    return (job', evs, false)
  else do
    let (job', evs) ← applyTransition id job .failed { message := exc.message, error := some exc.toDict }
    return (job', evs, true)

/-- The branches of `_requeue_or_end`; true when the job ended. -/
def settle (cfg : Settings) (now : Time) (id : JobId) (job : Job) (exc : AdaptationError) :
    Except AdaptationError (Job × List AdaptationEvent × Bool) :=
  match exc.cls with
  | .jobDrained => do
    let (job', evs) ← requeue now id job ("requeued: " ++ exc.message) 0 false false
    return (job', evs, false)
  | .jobWorkerLost => lose cfg now id job "the job's worker process died"
  | _ => retry cfg now id job exc

/-- `Worker._requeue_or_end`: a drained, lost or transiently failed attempt. -/
def requeueOrEnd (cfg : Settings) (db : Db) (now : Time) (c : Claim) (exc : AdaptationError) :
    Except AdaptationError (Db × Bool) := do
  let job ← loadJob db c.jobId
  checkFence c.jobId job (some c.leaseToken) .queued
  let (job', evs, ended) ← settle cfg now c.jobId job exc
  return (endAttempt db c job' evs ended, ended)

def timeoutError (lastStage : JobStatus) (exc : AdaptationError) : ErrorDict :=
  let error := exc.toDict
  let context := error.context.set "last_stage" (.str lastStage.value)
  { error with context := if lastStage.inRegistryStage then context.set "needs_reconciliation" (.bool true) else context }

def unpublish (db : Db) (id : JobId) : Db :=
  { db with jobs := (db.jobs.updateWhere? id (fun j => j.status == .queued && j.leaseToken == none)
      fun j => { j with publishedAt := none }).getD db.jobs }

/-- The second transaction of `jobs.publish`, after the broker took the message. -/
def published (db : Db) (now : Time) (id : JobId) : Except AdaptationError Db := do
  let job ← loadJob db id
  return db.put id { job with publishedAt := some now } []

/-! ## The reaper -/

/-- The reaper's first query: active jobs whose lease expired before `read`. -/
def expiredLeases (db : Db) (read : Time) : List (JobId × Token) :=
  db.jobs.rows.filterMap fun (id, job) =>
    match job.leaseToken, job.leaseExpiresAt with
    | some token, some expires =>
      if expires < read ∧ job.status.active = true then some (id, token) else none
    | _, _ => none

def reapLease (cfg : Settings) (db : Db) (now : Time) (id : JobId) (token : Token) : Except AdaptationError (Option Db) :=
  match db.jobs.updateWhere? id (fun j => j.leaseToken == some token) Job.unleased with
  | none => .ok none
  | some jobs => do
    let db := { db with jobs }
    let job ← loadJob db id
    let (job', evs, ended) ← lose cfg now id job ("the lease of worker " ++ job.leaseOwner.getD "None" ++ " expired")
    let db := (db.put id job' evs).dropSlots id
    return some (if ended then db.releaseLock job.modelId (.job id) else db)

/-- The reaper's second query: queued jobs past their deadline. -/
def overdueJobs (db : Db) (read : Time) : List JobId :=
  (db.jobs.rows.filter fun (_, job) => job.status == .queued && job.leaseToken == none &&
    match job.deadlineAt with
    | some d => decide (d < read)
    | none => false).map Prod.fst

/-- The reaper's transaction for one of them: `.ok none` when it is no longer queued. -/
def reapOverdue (cfg : Settings) (db : Db) (id : JobId) : Except AdaptationError (Option Db) := do
  let job ← loadJob db id
  if job.status ≠ .queued ∨ job.leaseToken ≠ none then return none
  let exc : AdaptationError := ⟨.jobTimeout, "the job's deadline passed while it was queued",
    [("timeout_s", match cfg.jobDeadlineS with | some d => .nat d | none => .null), ("job_id", .str id)]⟩
  let (job', evs) ← applyTransition id job .timedOut
    { message := exc.message, error := some (timeoutError .queued exc) }
  return some ((db.put id job' evs).releaseLock job.modelId (.job id))

/-- The reaper's last transaction: free the expired slots. -/
def reapSlots (db : Db) (read : Time) : Db :=
  { db with slots := db.slots.keep fun _ slot => !decide (slot.expiresAt < read) }

/-! ## How an attempt ends -/

section
variable (db : Db) (c : Claim)

@[simp] theorem freeSlot_jobs : (db.freeSlot c).jobs = db.jobs := by unfold Db.freeSlot; split <;> rfl
@[simp] theorem freeSlot_events : (db.freeSlot c).events = db.events := by unfold Db.freeSlot; split <;> rfl
@[simp] theorem freeSlot_locks : (db.freeSlot c).locks = db.locks := by unfold Db.freeSlot; split <;> rfl

end

section
variable {db : Db} {c : Claim} {old job : Job} {evs : List AdaptationEvent} {release : Bool}

theorem endAttempt_wrote (h : db.jobs.get? c.jobId = some old) (own : ∀ e ∈ evs, e.jobId = c.jobId) :
    db.Wrote (endAttempt db c job evs release) c.jobId job.unleased evs := by
  refine (Db.Wrote.put h own).frame ?_ ?_ <;> unfold endAttempt <;> cases release <;> simp

theorem endAttempt_slots : (endAttempt db c job evs release).slots = (db.freeSlot c).slots := by
  unfold endAttempt Db.freeSlot
  cases release <;> cases c.slot <;> rfl

theorem endAttempt_locks : (endAttempt db c job evs release).locks =
    if release then (db.releaseLock job.modelId (.job c.jobId)).locks else db.locks := by
  unfold endAttempt Db.freeSlot
  cases release <;> cases c.slot <;> rfl

end

theorem record_ok {db db' : Db} {c : Claim} {toStatus : JobStatus} {ch : Change} {release : Bool}
    (h : record db c toStatus ch release = .ok db') :
    ∃ job, db.jobs.get? c.jobId = some job ∧ job.leaseToken = some c.leaseToken ∧
      job.status.mayMove toStatus = true ∧
      db' = endAttempt db c (job.moved toStatus ch) [job.moveEvent c.jobId toStatus ch] release := by
  unfold record at h
  obtain ⟨job, hj, h⟩ := bind_ok h
  obtain ⟨_, hf, h⟩ := bind_ok h
  obtain ⟨r, ha, h⟩ := bind_ok h
  obtain ⟨hm, rfl⟩ := applyTransition_ok.mp ha
  exact ⟨job, loadJob_ok.mp hj, (checkFence_ok.mp hf).1, hm, (Except.ok.inj h).symm⟩

/-- An attempt without an outcome leaves its job queued again or FAILED. -/
inductive Settled (now : Time) (id : JobId) (job : Job) : Job → List AdaptationEvent → Bool → Prop
  | requeued (message : String) (delay : Time) (charge lost : Bool) (hm : job.status.mayMove .queued = true) :
      Settled now id job ((job.moved .queued { message := message }).requeued (now + delay) charge lost)
        [job.moveEvent id .queued { message := message }] false
  | failed (c : Change) (hm : job.status.mayMove .failed = true) :
      Settled now id job (job.moved .failed c) [job.moveEvent id .failed c] true
  | quarantined (c : Change) (hm : job.status.mayMove .failed = true) :
      Settled now id job (job.quarantine.moved .failed c) [job.moveEvent id .failed c] true

theorem requeue_ok {now : Time} {id : JobId} {job : Job} {message : String} {delay : Time} {charge lost : Bool}
    {r : Job × List AdaptationEvent} (h : requeue now id job message delay charge lost = .ok r) :
    Settled now id job r.1 r.2 false := by
  unfold requeue at h
  obtain ⟨p, ha, h⟩ := bind_ok h
  obtain ⟨hm, rfl⟩ := applyTransition_ok.mp ha
  cases h
  exact .requeued message delay charge lost hm

/-- A row that says FAILED and asks an operator to check the registry. -/
def Job.forReconciliation (job : Job) : Prop :=
  job.status = .failed ∧ ∃ error, job.error = some error ∧ error.needsReconciliation = true

theorem lose_ok {cfg : Settings} {now : Time} {id : JobId} {job job' : Job} {why : String}
    {evs : List AdaptationEvent} {ended : Bool} (h : lose cfg now id job why = .ok (job', evs, ended)) :
    Settled now id job job' evs ended ∧ (job.status.inRegistryStage = true → job'.forReconciliation) := by
  unfold lose at h
  simp only at h
  split at h
  · obtain ⟨r, ha, h⟩ := bind_ok h
    obtain ⟨hm, rfl⟩ := applyTransition_ok.mp ha
    simp only [pure, Except.pure, Except.ok.injEq, Prod.mk.injEq] at h
    obtain ⟨rfl, rfl, rfl⟩ := h
    exact ⟨.failed _ hm, fun _ => ⟨rfl, _, rfl, by simp [ErrorDict.needsReconciliation, jobAbandoned,
      AdaptationError.toDict, List.lookup_cons]⟩⟩
  · rename_i hr
    refine ⟨?_, fun hr' => absurd hr' hr⟩
    split at h
    · obtain ⟨r, ha, h⟩ := bind_ok h
      obtain ⟨hm, rfl⟩ := applyTransition_ok.mp ha
      simp only [pure, Except.pure, Except.ok.injEq, Prod.mk.injEq] at h
      obtain ⟨rfl, rfl, rfl⟩ := h
      exact .quarantined _ hm
    · obtain ⟨r, ha, h⟩ := bind_ok h
      have hs := requeue_ok ha
      simp only [pure, Except.pure, Except.ok.injEq, Prod.mk.injEq] at h
      obtain ⟨rfl, rfl, rfl⟩ := h
      exact hs

theorem retry_ok {cfg : Settings} {now : Time} {id : JobId} {job job' : Job} {exc : AdaptationError}
    {evs : List AdaptationEvent} {ended : Bool} (h : retry cfg now id job exc = .ok (job', evs, ended)) :
    Settled now id job job' evs ended := by
  unfold retry at h
  simp only at h
  split at h
  · obtain ⟨r, ha, h⟩ := bind_ok h
    have hs := requeue_ok ha
    simp only [pure, Except.pure, Except.ok.injEq, Prod.mk.injEq] at h
    obtain ⟨rfl, rfl, rfl⟩ := h
    exact hs
  · obtain ⟨r, ha, h⟩ := bind_ok h
    obtain ⟨hm, rfl⟩ := applyTransition_ok.mp ha
    simp only [pure, Except.pure, Except.ok.injEq, Prod.mk.injEq] at h
    obtain ⟨rfl, rfl, rfl⟩ := h
    exact .failed _ hm

theorem settle_ok {cfg : Settings} {now : Time} {id : JobId} {job job' : Job} {exc : AdaptationError}
    {evs : List AdaptationEvent} {ended : Bool} (h : settle cfg now id job exc = .ok (job', evs, ended)) :
    Settled now id job job' evs ended ∧
      (exc.cls = .jobWorkerLost → job.status.inRegistryStage = true → job'.forReconciliation) := by
  unfold settle at h
  split at h
  · rename_i hc
    refine ⟨?_, fun hw => absurd (hc.symm.trans hw) (by simp)⟩
    obtain ⟨r, hr, h⟩ := bind_ok h
    have hq := requeue_ok hr
    simp only [pure, Except.pure, Except.ok.injEq, Prod.mk.injEq] at h
    obtain ⟨rfl, rfl, rfl⟩ := h
    exact hq
  · exact ⟨(lose_ok h).1, fun _ => (lose_ok h).2⟩
  · rename_i hw
    exact ⟨retry_ok h, fun hw' => absurd hw' hw⟩

/-- A drained, lost or transiently failed attempt found its claim's token on
the row, and left the job settled. -/
theorem requeueOrEnd_ok {cfg : Settings} {db db' : Db} {now : Time} {c : Claim} {exc : AdaptationError} {ended : Bool}
    (h : requeueOrEnd cfg db now c exc = .ok (db', ended)) :
    ∃ job job' evs, db.jobs.get? c.jobId = some job ∧ job.leaseToken = some c.leaseToken ∧
      settle cfg now c.jobId job exc = .ok (job', evs, ended) ∧ db' = endAttempt db c job' evs ended := by
  unfold requeueOrEnd at h
  obtain ⟨job, hj, h⟩ := bind_ok h
  obtain ⟨_, hf, h⟩ := bind_ok h
  obtain ⟨⟨job', evs, ended'⟩, hs, h⟩ := bind_ok h
  simp only [pure, Except.pure, Except.ok.injEq, Prod.mk.injEq] at h
  obtain ⟨rfl, rfl⟩ := h
  exact ⟨job, job', evs, loadJob_ok.mp hj, (checkFence_ok.mp hf).1, hs, rfl⟩

theorem published_ok {db db' : Db} {now : Time} {id : JobId} (h : published db now id = .ok db') :
    ∃ job, db.jobs.get? id = some job ∧ db' = db.put id { job with publishedAt := some now } [] := by
  unfold published at h
  obtain ⟨job, hj, h⟩ := bind_ok h
  exact ⟨job, loadJob_ok.mp hj, (Except.ok.inj h).symm⟩

/-! ## What the reaper does -/

theorem mem_expiredLeases {db : Db} {read : Time} {id : JobId} {token : Token} :
    (id, token) ∈ expiredLeases db read ↔ ∃ job expires, db.jobs.get? id = some job ∧ job.leaseToken = some token ∧
      job.leaseExpiresAt = some expires ∧ expires < read ∧ job.status.active = true := by
  unfold expiredLeases
  simp only [List.mem_filterMap, Prod.exists, Table.mem_rows]
  constructor
  · rintro ⟨id', job, hj, h⟩
    split at h
    · rename_i token' expires ht he
      split at h
      · rename_i hc
        simp only [Option.some.injEq, Prod.mk.injEq] at h
        obtain ⟨rfl, rfl⟩ := h
        exact ⟨job, expires, hj, ht, he, hc.1, hc.2⟩
      · cases h
    · cases h
  · rintro ⟨job, expires, hj, ht, he, hlt, ha⟩
    exact ⟨id, job, hj, by simp [ht, he, hlt, ha]⟩

/-- A reap that is not lost to another found its token on the row, whatever
the lease's expiry is by then. -/
theorem reapLease_ok {cfg : Settings} {db db' : Db} {now : Time} {id : JobId} {token : Token}
    (h : reapLease cfg db now id token = .ok (some db')) :
    ∃ job job' evs ended, db.jobs.get? id = some job ∧ job.leaseToken = some token ∧
      Settled now id job.unleased job' evs ended ∧
      (job.status.inRegistryStage = true → job'.forReconciliation) ∧
      db.Wrote db' id job' evs ∧ db'.slots = (db.dropSlots id).slots ∧
      db'.locks = if ended then (db.releaseLock job.modelId (.job id)).locks else db.locks := by
  unfold reapLease at h
  cases hu : db.jobs.updateWhere? id (fun j => j.leaseToken == some token) Job.unleased with
  | none => rw [hu] at h; cases h
  | some jobs =>
    simp only [hu] at h
    obtain ⟨job, hg, ht, rfl⟩ := Table.updateWhere?_eq_some hu
    obtain ⟨j, hj, h⟩ := bind_ok h
    rw [loadJob_ok] at hj
    simp only [Table.get?_modify, if_true, hg, Option.map_some, Option.some.injEq] at hj
    subst hj
    obtain ⟨⟨job', evs, ended⟩, hl, h⟩ := bind_ok h
    simp only [pure, Except.pure, Except.ok.injEq, Option.some.injEq] at h
    obtain ⟨hs, hr⟩ := lose_ok hl
    refine ⟨job, job', evs, ended, hg, by simpa using ht, hs, hr, ⟨fun id' => ?_, ?_, ?_⟩, ?_, ?_⟩
    · rw [← h]
      cases ended <;> simp only [Bool.false_eq_true, if_true, if_false, Db.releaseLock_jobs, Db.dropSlots, Db.put,
        Table.get?_modify] <;> by_cases e : id' = id <;> simp [e, hg]
    · rw [← h]; cases ended <;> rfl
    · intro e he
      cases hs <;> simp_all [Job.moveEvent]
    · rw [← h]; cases ended <;> rfl
    · rw [← h]; cases ended <;> rfl

theorem reapOverdue_ok {cfg : Settings} {db db' : Db} {id : JobId} (h : reapOverdue cfg db id = .ok (some db')) :
    ∃ job c, db.jobs.get? id = some job ∧ job.status = .queued ∧ job.leaseToken = none ∧
      db' = (db.put id (job.moved .timedOut c) [job.moveEvent id .timedOut c]).releaseLock job.modelId (.job id) := by
  unfold reapOverdue at h
  obtain ⟨job, hj, h⟩ := bind_ok h
  by_cases hq : job.status ≠ .queued ∨ job.leaseToken ≠ none
  · rw [if_pos hq] at h; cases h
  · rw [if_neg hq] at h
    simp only [ne_eq, not_or, Decidable.not_not] at hq
    obtain ⟨r, ha, h⟩ := bind_ok h
    obtain ⟨-, rfl⟩ := applyTransition_ok.mp ha
    simp only [pure, Except.pure, Except.ok.injEq, Option.some.injEq] at h
    exact ⟨job, _, loadJob_ok.mp hj, hq.1, hq.2, h.symm⟩

end OranAdapt
