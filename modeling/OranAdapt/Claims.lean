import Mathlib.Data.List.Sort
import OranAdapt.Jobs

/-!
# Claims and leases

The first half of `orchestrator.worker`: how a worker gets a job's lease and
keeps it. A function that is one transaction takes the database to the one it
commits. `now` is the clock inside the transaction; a worker that reads its
clock before the transaction begins passes that reading as `read`, which may
be any earlier time.
-/

namespace OranAdapt

/-! ## Claims -/

/-- A job a worker holds the lease of, for one attempt. -/
structure Claim where
  jobId : JobId
  leaseToken : Token
  attempt : Nat
  tenant : Tenant
  slot : Option Nat
  modelId : ModelId
  event : DriftEvent
  deadlineAt : Option Time
deriving DecidableEq, Repr

abbrev Slots := Table (Tenant × Nat) JobSlot

def Slots.purge (slots : Slots) (tenant : Tenant) (now : Time) : Slots :=
  slots.keep fun k slot => !(k.1 == tenant && decide (slot.expiresAt < now))

def takeSlot (cfg : Settings) (db : Db) (now : Time) (tenant : Tenant) (id : JobId) (expiresAt : Time) :
    Option (Db × Option Nat) :=
  let limit := cfg.limit tenant
  if limit ≤ 0 then some (db, none)
  else
    let slots := Slots.purge db.slots tenant now
    match (List.range limit.toNat).find? fun n => (slots.get? (tenant, n)).isNone with
    | none => none
    | some free => (slots.insert? (tenant, free) ⟨id, expiresAt⟩).map fun slots => ({ db with slots }, some free)

/-- The row the conditional update of a claim writes. -/
def Job.claimed (job : Job) (owner : String) (token : Token) (expires : Time) : Job :=
  { job with leaseToken := some token, leaseOwner := some owner, leaseExpiresAt := some expires,
             attempt := job.attempt + 1 }

/-- What the conditional update of a claim asks of the row. -/
def Job.claimable (job : Job) : Bool := job.status == .queued && job.leaseToken == none && !job.quarantined

def tryClaim (cfg : Settings) (db : Db) (read now : Time) (id : JobId) (owner : String) (token : Token) :
    Except AdaptationError (Option (Db × Claim)) :=
  let expires := read + cfg.jobLeaseTtlS
  match db.jobs.updateWhere? id Job.claimable fun j => j.claimed owner token expires with
  | none => .ok none
  | some jobs => do
    let db := { db with jobs }
    let job ← loadJob db id
    match takeSlot cfg db now job.tenant id expires with
    | none => return none
    | some (db, slot) =>
      let (job₁, evs₁) ← applyTransition id job .validating
        { message := "event accepted, attempt " ++ toString job.attempt }
      let (job₂, evs₂) ← applyTransition id job₁ .dataPreparing { message := "pipeline started" }
      let db := (db.put id job₂ (evs₁ ++ evs₂)).renewLock job.modelId (.job id) (read + cfg.modelLockTtlS)
      return some (db, ⟨id, token, job.attempt, job.tenant, slot, job.modelId, job.event, job.deadlineAt⟩)

def Job.available (job : Job) (now : Time) : Bool :=
  match job.availableAt with
  | none => true
  | some t => decide (t ≤ now)

/-- The order of the candidate query: highest priority first, then oldest, then by id. -/
def candidateLe (p q : JobId × Job) : Bool :=
  if p.2.priority ≠ q.2.priority then decide (q.2.priority < p.2.priority)
  else if p.2.createdAt ≠ q.2.createdAt then decide (p.2.createdAt < q.2.createdAt)
  else decide (p.1 ≤ q.1)

def candidates (cfg : Settings) (db : Db) (read : Time) (classes : List String) : List JobId :=
  (((db.jobs.rows.filter fun p => p.2.claimable && decide (p.2.workerClass ∈ classes) && p.2.available read).insertionSort
    fun p q => candidateLe p q = true).take cfg.jobClaimCandidates).map Prod.fst

/-! ## The supervisor -/

/-- Whether the row still carries the claim's token: the supervisor's conditional update. -/
def Job.heldBy (job : Job) (c : Claim) : Bool := job.leaseToken == some c.leaseToken

def Job.renewed (job : Job) (expires : Time) : Job := { job with leaseExpiresAt := some expires }

def Db.renewSlot (db : Db) (c : Claim) (until_ : Time) : Db :=
  match c.slot with
  | none => db
  | some n => { db with slots := (db.slots.updateWhere? (c.tenant, n) (fun slot => slot.jobId == c.jobId)
      fun slot => { slot with expiresAt := until_ }).getD db.slots }

/-- The transaction of a supervisor tick: the lease, the model lock and the
slot renewed, with the status and cancel request it then reads; `none` when
the token no longer matches. -/
def renewLease (cfg : Settings) (db : Db) (read : Time) (c : Claim) : Option (Db × JobStatus × Option Time) :=
  match db.jobs.get? c.jobId with
  | none => none
  | some job =>
    if job.heldBy c then
      let lease := read + cfg.jobLeaseTtlS
      let db := db.put c.jobId (job.renewed lease) []
      let db := db.renewLock c.modelId (.job c.jobId) (read + cfg.modelLockTtlS)
      some (db.renewSlot c lease, job.status, job.cancelRequestedAt)
    else none

def leaseLost (message : String) (c : Claim) : AdaptationError := ⟨.jobLeaseLost, message, [("job_id", .str c.jobId)]⟩

/-- `_Supervisor.__call__` with the database reachable: the database it leaves
and why it stops the attempt, if it does. -/
def supervise (cfg : Settings) (db : Db) (read : Time) (c : Claim) (drainExpired : Bool) : Db × Option AdaptationError :=
  match renewLease cfg db read c with
  | none => (db, some (leaseLost "the job's lease passed to another worker" c))
  | some (db, status, cancelAt) =>
    if cancelAt ≠ none ∧ status.inRegistryStage = false then
      (db, some ⟨.jobCancelled, "the job was cancelled on request",
        [("job_id", .str c.jobId), ("stage", .str status.value)]⟩)
    else if drainExpired then
      (db, some ⟨.jobDrained, "the worker is shutting down and the job did not finish within JOB_DRAIN_TIMEOUT_S",
        [("job_id", .str c.jobId), ("drain_timeout_s", .nat cfg.jobDrainTimeoutS)]⟩)
    else (db, none)

/-! ## What a claim does -/

theorem claimable_iff {job : Job} :
    job.claimable = true ↔ job.status = .queued ∧ job.leaseToken = none ∧ job.quarantined = false := by
  simp [Job.claimable, and_assoc]

/-- The row a won claim leaves: the lease taken, the job moved to DATA_PREPARING. -/
def Job.started (job : Job) : Job :=
  (job.moved .validating { message := "event accepted, attempt " ++ toString job.attempt }).moved .dataPreparing
    { message := "pipeline started" }

def Job.startEvents (job : Job) (id : JobId) : List AdaptationEvent :=
  let accepted : Change := { message := "event accepted, attempt " ++ toString job.attempt }
  [job.moveEvent id .validating accepted,
    (job.moved .validating accepted).moveEvent id .dataPreparing { message := "pipeline started" }]

/-- How a claim of `tenant` at `now` got its slot. -/
inductive TookSlot (cfg : Settings) (slots : Slots) (now : Time) (tenant : Tenant) (id : JobId) (expires : Time) :
    Option Nat → Slots → Prop
  | unlimited (h : cfg.limit tenant ≤ 0) : TookSlot cfg slots now tenant id expires none slots
  | took (n : Nat) (slots' : Slots) (hn : (n : Int) < cfg.limit tenant)
      (hi : (slots.purge tenant now).insert? (tenant, n) ⟨id, expires⟩ = some slots') :
      TookSlot cfg slots now tenant id expires (some n) slots'

theorem takeSlot_ok {cfg : Settings} {db db' : Db} {now expires : Time} {tenant : Tenant} {id : JobId}
    {slot : Option Nat} (h : takeSlot cfg db now tenant id expires = some (db', slot)) :
    ∃ slots, db' = { db with slots } ∧ TookSlot cfg db.slots now tenant id expires slot slots := by
  unfold takeSlot at h
  simp only at h
  split at h
  · rename_i hl
    simp only [Option.some.injEq, Prod.mk.injEq] at h
    obtain ⟨rfl, rfl⟩ := h
    exact ⟨db.slots, rfl, .unlimited hl⟩
  · split at h
    · cases h
    rename_i n hf
    obtain ⟨slots, hi, h⟩ := Option.map_eq_some_iff.mp h
    simp only [Prod.mk.injEq] at h
    obtain ⟨rfl, rfl⟩ := h
    have hn : n < (cfg.limit tenant).toNat := List.mem_range.mp (List.mem_of_find?_eq_some hf)
    exact ⟨slots, rfl, .took n slots (by omega) hi⟩

theorem tryClaim_ok {cfg : Settings} {db db' : Db} {read now : Time} {id : JobId} {owner : String} {token : Token}
    {c : Claim} (h : tryClaim cfg db read now id owner token = .ok (some (db', c))) :
    ∃ job, db.jobs.get? id = some job ∧ job.claimable = true ∧
      (let j := job.claimed owner token (read + cfg.jobLeaseTtlS)
       db.Wrote db' id j.started (j.startEvents id)) ∧
      c = ⟨id, token, job.attempt + 1, job.tenant, c.slot, job.modelId, job.event, job.deadlineAt⟩ ∧
      TookSlot cfg db.slots now job.tenant id (read + cfg.jobLeaseTtlS) c.slot db'.slots ∧
      db'.locks = (db.renewLock job.modelId (.job id) (read + cfg.modelLockTtlS)).locks := by
  unfold tryClaim at h
  simp only at h
  cases hu : db.jobs.updateWhere? id Job.claimable fun j => j.claimed owner token (read + cfg.jobLeaseTtlS) with
  | none => rw [hu] at h; cases h
  | some jobs =>
    simp only [hu] at h
    obtain ⟨job, hg, hc, rfl⟩ := Table.updateWhere?_eq_some hu
    obtain ⟨j, hj, h⟩ := bind_ok h
    rw [loadJob_ok] at hj
    simp only [Table.get?_modify, if_true, hg, Option.map_some, Option.some.injEq] at hj
    subst hj
    split at h
    · cases h
    · rename_i db₁ slot hs
      obtain ⟨r₁, h₁, h⟩ := bind_ok h
      obtain ⟨-, rfl⟩ := applyTransition_ok.mp h₁
      obtain ⟨r₂, h₂, h⟩ := bind_ok h
      obtain ⟨-, rfl⟩ := applyTransition_ok.mp h₂
      simp only [pure, Except.pure, Except.ok.injEq, Option.some.injEq, Prod.mk.injEq] at h
      obtain ⟨rfl, rfl⟩ := h
      obtain ⟨slots, rfl, hslots⟩ := takeSlot_ok hs
      refine ⟨job, hg, hc, ⟨fun id' => ?_, rfl, ?_⟩, rfl, hslots, rfl⟩
      · simp only [Db.renewLock_jobs, Db.put, Table.get?_modify]
        by_cases e : id' = id
        · subst e; simp [hg, Job.started]
        · simp [e]
      · simp [Job.startEvents, Job.moveEvent]

/-! ## What a renewal does -/

theorem heldBy_iff {job : Job} {c : Claim} : job.heldBy c = true ↔ job.leaseToken = some c.leaseToken := by
  simp [Job.heldBy]

@[simp] theorem renewSlot_jobs (db : Db) (c : Claim) (until_ : Time) : (db.renewSlot c until_).jobs = db.jobs := by
  unfold Db.renewSlot; split <;> rfl

@[simp] theorem renewSlot_events (db : Db) (c : Claim) (until_ : Time) : (db.renewSlot c until_).events = db.events := by
  unfold Db.renewSlot; split <;> rfl

@[simp] theorem renewSlot_locks (db : Db) (c : Claim) (until_ : Time) : (db.renewSlot c until_).locks = db.locks := by
  unfold Db.renewSlot; split <;> rfl

theorem renewLease_some {cfg : Settings} {db db' : Db} {read : Time} {c : Claim} {status : JobStatus}
    {cancelAt : Option Time} (h : renewLease cfg db read c = some (db', status, cancelAt)) :
    ∃ job, db.jobs.get? c.jobId = some job ∧ job.leaseToken = some c.leaseToken ∧ status = job.status ∧
      cancelAt = job.cancelRequestedAt ∧ db.Wrote db' c.jobId (job.renewed (read + cfg.jobLeaseTtlS)) [] ∧
      db'.locks = (db.renewLock c.modelId (.job c.jobId) (read + cfg.modelLockTtlS)).locks ∧
      db'.slots = (db.renewSlot c (read + cfg.jobLeaseTtlS)).slots := by
  unfold renewLease at h
  cases hj : db.jobs.get? c.jobId with
  | none => rw [hj] at h; cases h
  | some job =>
    simp only [hj] at h
    split at h
    · rename_i hh
      simp only [Option.some.injEq, Prod.mk.injEq] at h
      obtain ⟨rfl, rfl, rfl⟩ := h
      refine ⟨job, rfl, heldBy_iff.mp hh, rfl, rfl, (Db.Wrote.put hj (by simp)).frame (by simp) (by simp), ?_, ?_⟩
      · simp only [renewSlot_locks]; rfl
      · unfold Db.renewSlot; split <;> rfl
    · cases h

/-- A renewal fails exactly when the row no longer carries the claim's token. -/
theorem renewLease_none {cfg : Settings} {db : Db} {read : Time} {c : Claim} :
    renewLease cfg db read c = none ↔ ∀ job, db.jobs.get? c.jobId = some job →
      job.leaseToken ≠ some c.leaseToken := by
  unfold renewLease
  cases hj : db.jobs.get? c.jobId with
  | none => simp
  | some job =>
    by_cases hh : job.heldBy c = true
    · simp [hh, heldBy_iff.mp hh]
    · simp [hh, mt heldBy_iff.mpr hh]

/-- A supervisor tick writes what its renewal writes, whatever it answers. -/
theorem supervise_fst (cfg : Settings) (db : Db) (read : Time) (c : Claim) (drainExpired : Bool) :
    (supervise cfg db read c drainExpired).1 = ((renewLease cfg db read c).map Prod.fst).getD db := by
  unfold supervise
  cases renewLease cfg db read c with
  | none => rfl
  | some r =>
    obtain ⟨db', status, cancelAt⟩ := r
    simp only [Option.map_some, Option.getD_some]
    split
    · rfl
    · split <;> rfl

end OranAdapt
