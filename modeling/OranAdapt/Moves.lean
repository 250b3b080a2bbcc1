import OranAdapt.System

/-!
# What a step does to a job

`Move` lists everything an action of the system can do to one job: the row it
leaves, the events it appends, and what it found before it did so. Every
invariant about jobs follows from this list: `step_effect` says that it is
complete.
-/

namespace OranAdapt

/-- The terminal status `record` is given in a phase, if it is called. -/
def Phase.records : Phase → Option JobStatus
  | .handling (.returned r) => some (if r.outcome = "ROLLED_BACK" then .rolledBack else .completed)
  | .handling (.crashed _) => some .failed
  | .handling (.raised e) =>
    match e.cls with
    | .jobLeaseLost | .jobTimeout => none
    | .jobDrained | .jobWorkerLost | .registryUnavailable | .databaseUnavailable => none
    | .jobCancelled => some .cancelled
    | _ => some .failed
  | .timingOut _ _ => some .timedOut
  | _ => none

/-- The error `_requeue_or_end` is given in a phase, if it is called. -/
def Phase.settles : Phase → Option AdaptationError
  | .handling (.raised e) =>
    match e.cls with
    | .jobDrained | .jobWorkerLost | .registryUnavailable | .databaseUnavailable => some e
    | _ => none
  | _ => none

theorem Phase.records_terminal {p : Phase} {t : JobStatus} (h : p.records = some t) : t.terminal = true := by
  unfold records at h
  split at h
  · cases h; split <;> rfl
  · cases h; rfl
  · split at h <;> cases h <;> rfl
  · cases h; rfl
  · cases h

theorem Phase.settles_eq {p : Phase} {e : AdaptationError} (h : p.settles = some e) : p = .handling (.raised e) := by
  unfold settles at h
  split at h
  · split at h <;> cases h <;> rfl
  · cases h

/-- What an action does to the job `id`: the row it leaves and the events it appends. -/
inductive Move (cfg : Settings) (s : System) (id : JobId) (job : Job) : Action → Job → List AdaptationEvent → Prop
  | kept (a : Action) : Move cfg s id job a job []
  | asked (actor : String) (ht : job.status.terminal = false) (hr : job.status.inRegistryStage = false) :
      Move cfg s id job (.cancel id actor) (job.asked s.now actor) []
  | withdrawn (actor : String) (c : Change) (hq : job.status = .queued) (hl : job.leaseToken = none) :
      Move cfg s id job (.cancel id actor) ((job.asked s.now actor).moved .cancelled c)
        [(job.asked s.now actor).moveEvent id .cancelled c]
  | published : Move cfg s id job (.publish id) { job with publishedAt := some s.now } []
  | unpublished : Move cfg s id job (.unpublish id) { job with publishedAt := none } []
  | claimed (source : Source) (read : Time) (owner : String) (token : Token) (hc : job.claimable = true)
      (hfresh : s.attempts.get? token = none) (hread : read ≤ s.now) (hsrc : source = .listed → id ∈ s.listed) :
      Move cfg s id job (.claim source read id owner token) (job.claimed owner token (read + cfg.jobLeaseTtlS)).started
        ((job.claimed owner token (read + cfg.jobLeaseTtlS)).startEvents id)
  | reported (token : Token) (toStatus : JobStatus) (message : String) (a : Attempt)
      (ha : s.attempts.get? token = some a) (hid : a.claim.jobId = id) (hp : toStatus ∈ JobStatus.pipelineStages)
      (hf : checkFence id job (some a.claim.leaseToken) toStatus = .ok ()) (hm : job.status.mayMove toStatus = true) :
      Move cfg s id job (.report token toStatus message) (job.moved toStatus { message := message })
        [job.moveEvent id toStatus { message := message }]
  | renewed (token : Token) (read : Time) (drainExpired : Bool) (a : Attempt) (ha : s.attempts.get? token = some a)
      (hid : a.claim.jobId = id) (ht : job.leaseToken = some a.claim.leaseToken) (hread : read ≤ s.now) :
      Move cfg s id job (.heartbeat token read drainExpired) (job.renewed (read + cfg.jobLeaseTtlS)) []
  | recorded (token : Token) (a : Attempt) (toStatus : JobStatus) (c : Change) (ha : s.attempts.get? token = some a)
      (hid : a.claim.jobId = id) (ht : job.leaseToken = some a.claim.leaseToken) (hp : a.phase.records = some toStatus)
      (hm : job.status.mayMove toStatus = true) :
      Move cfg s id job (.record token) (job.moved toStatus c).unleased [job.moveEvent id toStatus c]
  | settled (token : Token) (a : Attempt) (e : AdaptationError) (job' : Job) (evs : List AdaptationEvent) (ended : Bool)
      (ha : s.attempts.get? token = some a) (hid : a.claim.jobId = id) (ht : job.leaseToken = some a.claim.leaseToken)
      (hp : a.phase.settles = some e) (hs : settle cfg s.now id job e = .ok (job', evs, ended)) :
      Move cfg s id job (.record token) job'.unleased evs
  | reaped (token : Token) (job' : Job) (evs : List AdaptationEvent) (ended : Bool) (hsel : (id, token) ∈ s.selected)
      (ht : job.leaseToken = some token) (hs : Settled s.now id job.unleased job' evs ended)
      (hr : job.status.inRegistryStage = true → job'.forReconciliation) :
      Move cfg s id job (.reapLease id token) job' evs
  | overdue (c : Change) (hq : job.status = .queued) (hl : job.leaseToken = none) :
      Move cfg s id job (.reapOverdue id) (job.moved .timedOut c) [job.moveEvent id .timedOut c]
  | takenOver (newId : JobId) (event : DriftEvent) (actor : String) (lock : ModelLock)
      (hlock : s.db.locks.get? event.modelId = some lock) (hexp : lock.expiresAt < s.now) (hid : lock.jobId = .job id)
      (ht : job.status.terminal = false) :
      Move cfg s id job (.submit newId event actor) (job.abandoned newId) [job.abandonedEvent id newId]

structure Effect (P : Platform) (cfg : Settings) (s : System) (a : Action) (s' : System) : Prop where
  old : ∀ id job, s.db.jobs.get? id = some job → ∃ job' evs, s'.db.jobs.get? id = some job' ∧
    s'.db.eventsOf id = s.db.eventsOf id ++ evs ∧ Move cfg s id job a job' evs
  new : ∀ id, s.db.jobs.get? id = none →
    (s'.db.jobs.get? id = none ∧ s'.db.eventsOf id = s.db.eventsOf id) ∨
    ∃ event actor, a = .submit id event actor ∧
      s'.db.jobs.get? id = some (queuedJob (newJob P cfg s.db s.now event actor)) ∧
      s'.db.eventsOf id = s.db.eventsOf id ++ submitEvents id (newJob P cfg s.db s.now event actor)

namespace Effect

variable {P : Platform} {cfg : Settings} {s s' : System} {a : Action}

theorem none (hj : s'.db.jobs = s.db.jobs) (he : s'.db.events = s.db.events) : Effect P cfg s a s' := by
  have hev : ∀ id, s'.db.eventsOf id = s.db.eventsOf id := fun id => by simp only [Db.eventsOf, he]
  refine ⟨fun id job h => ⟨job, [], by rw [hj]; exact h, by rw [hev, List.append_nil], .kept a⟩, fun id h => .inl ?_⟩
  exact ⟨by rw [hj]; exact h, hev id⟩

theorem wrote {id : JobId} {job job' : Job} {evs : List AdaptationEvent} (hw : s.db.Wrote s'.db id job' evs)
    (hg : s.db.jobs.get? id = some job) (hm : Move cfg s id job a job' evs) : Effect P cfg s a s' := by
  refine ⟨fun id' j hj => ?_, fun id' hn => .inl ?_⟩
  · by_cases e : id' = id
    · subst e
      rw [hg] at hj; cases hj
      exact ⟨job', evs, hw.get, hw.eventsOf, hm⟩
    · exact ⟨j, [], by rw [hw.get_ne e]; exact hj, by rw [hw.eventsOf_ne e, List.append_nil], .kept a⟩
  · have e : id' ≠ id := fun e => by rw [e, hg] at hn; cases hn
    exact ⟨by rw [hw.get_ne e]; exact hn, hw.eventsOf_ne e⟩

end Effect

/-! ## What each action does -/

namespace System

section
variable {P : Platform} {cfg : Settings} {s s' : System} {token : Token} {a : Attempt}

theorem onAttempt_some {f : Attempt → Option System} (h : s.onAttempt token f = some s') :
    ∃ a, s.attempts.get? token = some a ∧ f a = some s' :=
  Option.bind_eq_some_iff.mp h

/-- What the record step of an attempt commits in phase `p`: nothing, a
terminal outcome, or the job settled. -/
inductive Recorded (cfg : Settings) (s : System) (c : Claim) (p : Phase) : Db → Prop
  | nothing : Recorded cfg s c p s.db
  | outcome (toStatus : JobStatus) (ch : Change) (release : Bool) (db : Db) (hp : p.records = some toStatus)
      (h : record s.db c toStatus ch release = .ok db) : Recorded cfg s c p db
  | settled (e : AdaptationError) (ended : Bool) (db : Db) (hp : p.settles = some e)
      (h : requeueOrEnd cfg s.db s.now c e = .ok (db, ended)) : Recorded cfg s c p db

theorem recordOutcome_ok {c : Claim} {o : Outcome} {db : Db} (h : recordOutcome cfg s.db s.now c o = .ok db)
    (ht : ∀ e, o = .raised e → e.cls ≠ .jobTimeout) : Recorded cfg s c (.handling o) db := by
  unfold recordOutcome at h
  cases o with
  | returned r => exact .outcome _ _ _ _ rfl h
  | crashed text => exact .outcome _ _ _ _ rfl h
  | raised e =>
    have ht := ht e rfl
    have settled (hs : (Phase.handling (.raised e)).settles = some e)
        (h : (requeueOrEnd cfg s.db s.now c e).map Prod.fst = .ok db) : Recorded cfg s c (.handling (.raised e)) db := by
      cases hr : requeueOrEnd cfg s.db s.now c e with
      | error _ => rw [hr] at h; cases h
      | ok r => rw [hr] at h; cases h; exact .settled e r.2 _ hs hr
    simp only at h
    cases hc : e.cls with
    | jobLeaseLost => simp only [hc] at h; cases h; exact .nothing
    | jobTimeout => exact absurd hc ht
    | jobDrained => simp only [hc] at h; exact settled (by simp [Phase.settles, hc]) h
    | jobWorkerLost => simp only [hc] at h; exact settled (by simp [Phase.settles, hc]) h
    | registryUnavailable => simp only [hc] at h; exact settled (by simp [Phase.settles, hc]) h
    | databaseUnavailable => simp only [hc] at h; exact settled (by simp [Phase.settles, hc]) h
    | jobCancelled => simp only [hc] at h; exact .outcome _ _ _ _ (by simp [Phase.records, hc]) h
    | _ => simp only [hc] at h; exact .outcome _ _ _ _ (by simp [Phase.records, hc]) h

theorem recordStep_some (h : s.recordStep cfg token a = some s') :
    Recorded cfg s a.claim a.phase s'.db ∧ s' = { s.setAttempt token { a with phase := .closed } with db := s'.db } := by
  have written {o : Outcome} {db : Db} (hp : a.phase = .handling o) (ht : ∀ e, o = .raised e → e.cls ≠ .jobTimeout)
      (ho : recordOutcome cfg s.db s.now a.claim o = .ok db) : Recorded cfg s a.claim a.phase db := by
    rw [hp]
    exact recordOutcome_ok ho ht
  unfold recordStep at h
  simp only at h
  split at h
  · rename_i e hp
    split at h
    · cases h
    · rename_i ht
      split at h
      · rename_i db ho
        cases h
        exact ⟨written hp (fun e' he' => by cases he'; exact ht) ho, rfl⟩
      · cases h
        exact ⟨.nothing, rfl⟩
  · rename_i o hne hp
    split at h
    · rename_i db ho
      cases h
      exact ⟨written hp (fun e he => absurd he (hne e)) ho, rfl⟩
    · cases h
      exact ⟨.nothing, rfl⟩
  · rename_i e lastStage hp
    rw [hp]
    split at h
    · rename_i db hr
      cases h
      exact ⟨.outcome .timedOut _ _ _ rfl hr, rfl⟩
    · cases h; exact ⟨.nothing, rfl⟩
  · cases h

theorem submit_effect {id : JobId} {event : DriftEvent} {actor : String} {r : Submitted}
    (h : submit P cfg s.db s.now id event actor = .ok (s'.db, r)) :
    Effect P cfg s (.submit id event actor) s' := by
  rcases submit_ok h with ⟨hdb, -⟩ | ⟨-, hfresh, -, htook, -, ⟨hw, -⟩ |
    ⟨l, old, job, hl, hold, hne, hjob, hterm, hw, -⟩⟩
  · exact .none (by rw [hdb]) (by rw [hdb])
  · refine ⟨fun id' j hg => ?_, fun id' hn => ?_⟩
    · have e : id' ≠ id := fun e => by rw [e, hfresh] at hg; cases hg
      exact ⟨j, [], by rw [hw.get_ne e]; exact hg, by rw [hw.eventsOf_ne e, List.append_nil], .kept _⟩
    · by_cases e : id' = id
      · subst e; exact .inr ⟨event, actor, rfl, hw.get, hw.eventsOf⟩
      · exact .inl ⟨by rw [hw.get_ne e]; exact hn, hw.eventsOf_ne e⟩
  · -- the job the lock named before is recorded FAILED first
    have hfail : s.db.Wrote _ old (job.abandoned id) [job.abandonedEvent old id] :=
      .put hjob (by simp [Job.abandonedEvent, Job.moveEvent])
    refine ⟨fun id' j hg => ?_, fun id' hn => ?_⟩
    · have e : id' ≠ id := fun e => by rw [e, hfresh] at hg; cases hg
      by_cases e' : id' = old
      · subst e'
        rw [hjob] at hg; cases hg
        exact ⟨_, _, by rw [hw.get_ne e, hfail.get], by rw [hw.eventsOf_ne e, hfail.eventsOf],
          .takenOver id event actor l hl (htook.free l hl) hold hterm⟩
      · exact ⟨j, [], by rw [hw.get_ne e, hfail.get_ne e']; exact hg,
          by rw [hw.eventsOf_ne e, hfail.eventsOf_ne e', List.append_nil], .kept _⟩
    · have e' : id' ≠ old := fun e => by rw [e, hjob] at hn; cases hn
      by_cases e : id' = id
      · subst e
        exact .inr ⟨event, actor, rfl, hw.get, by rw [hw.eventsOf, hfail.eventsOf_ne e']⟩
      · exact .inl ⟨by rw [hw.get_ne e, hfail.get_ne e']; exact hn, by rw [hw.eventsOf_ne e, hfail.eventsOf_ne e']⟩

theorem cancel_effect {id : JobId} {actor : String} {immediate : Bool}
    (h : requestCancel s.db s.now id actor = .ok (s'.db, immediate)) : Effect P cfg s (.cancel id actor) s' := by
  obtain ⟨job, hj, hterm, hreg, ⟨-, hq, hl, c, hdb⟩ | ⟨-, -, hdb⟩⟩ := requestCancel_ok h
  · refine .wrote ?_ hj (.withdrawn actor c hq hl)
    rw [hdb]
    exact (Db.Wrote.put hj (by simp [Job.moveEvent])).frame rfl rfl
  · refine .wrote ?_ hj (.asked actor hterm hreg)
    rw [hdb]
    exact .put hj (by simp)

theorem published_effect {id : JobId} (h : published s.db s.now id = .ok s'.db) :
    Effect P cfg s (.publish id) s' := by
  obtain ⟨job, hj, hdb⟩ := published_ok h
  refine .wrote ?_ hj .published
  rw [hdb]
  exact .put hj (by simp)

theorem unpublish_effect {id : JobId} (h : s'.db = unpublish s.db id) : Effect P cfg s (.unpublish id) s' := by
  unfold unpublish at h
  cases hu : s.db.jobs.updateWhere? id (fun j => j.status == .queued && j.leaseToken == none)
      fun j => { j with publishedAt := none } with
  | none => rw [hu] at h; exact .none (by rw [h]; rfl) (by rw [h])
  | some jobs =>
    obtain ⟨job, hj, -, rfl⟩ := Table.updateWhere?_eq_some hu
    rw [hu, Option.getD_some] at h
    refine .wrote ⟨fun id' => ?_, by rw [h, List.append_nil], by simp⟩ hj .unpublished
    rw [h, Table.get?_modify]
    split
    · rename_i e; rw [e, hj]; rfl
    · rfl

theorem claim_effect {source : Source} {read : Time} {id : JobId} {owner : String}
    (h : s.claimStep cfg source read id owner token = some s') :
    Effect P cfg s (.claim source read id owner token) s' := by
  unfold claimStep at h
  split at h
  · rename_i hr
    simp only at h
    split at h
    · rename_i db c hc
      obtain ⟨attempts, hi, rfl⟩ := Option.map_eq_some_iff.mp h
      obtain ⟨job, hj, hcl, hw, -⟩ := tryClaim_ok hc
      exact .wrote hw hj (.claimed source read owner token hcl (Table.insert?_fresh hi) hr.1 hr.2)
    · cases h; exact .none rfl rfl
  · cases h

theorem report_effect {toStatus : JobStatus} {message : String} (ha : s.attempts.get? token = some a)
    (h : s.reportStep token a toStatus message = some s') : Effect P cfg s (.report token toStatus message) s' := by
  unfold reportStep at h
  split at h
  · rename_i hp
    split at h
    · rename_i db ht
      cases h
      obtain ⟨job, hj, hf, hm, rfl⟩ := transition_ok ht
      exact .wrote (.put hj (by simp [Job.moveEvent])) hj (.reported token toStatus message a ha rfl hp.2 hf hm)
    · cases h; exact .none rfl rfl
  · cases h

theorem heartbeat_effect {read : Time} {drainExpired : Bool} (ha : s.attempts.get? token = some a)
    (h : s.heartbeatStep cfg token a read drainExpired = some s') :
    Effect P cfg s (.heartbeat token read drainExpired) s' := by
  unfold heartbeatStep at h
  split at h
  · split at h
    · rename_i hread
      simp only [Option.some.injEq] at h
      have hdb : s'.db = (supervise cfg s.db read a.claim drainExpired).1 := by rw [← h]; rfl
      rw [supervise_fst] at hdb
      cases hr : renewLease cfg s.db read a.claim with
      | none => rw [hr] at hdb; exact .none (by rw [hdb]; rfl) (by rw [hdb]; rfl)
      | some r =>
        obtain ⟨db, status, cancelAt⟩ := r
        rw [hr, Option.map_some, Option.getD_some] at hdb
        obtain ⟨job, hj, ht, -, -, hw, -⟩ := renewLease_some hr
        exact .wrote (hdb ▸ hw) hj (.renewed token read drainExpired a ha rfl ht hread)
    · cases h
  · cases h

theorem settled_own {now : Time} {id : JobId} {job job' : Job} {e : AdaptationError}
    {evs : List AdaptationEvent} {ended : Bool}
    (h : settle cfg now id job e = .ok (job', evs, ended)) : ∀ ev ∈ evs, ev.jobId = id := by
  cases (settle_ok h).1 <;> simp [Job.moveEvent]

theorem record_effect (ha : s.attempts.get? token = some a) (h : s.recordStep cfg token a = some s') :
    Effect P cfg s (.record token) s' := by
  obtain ⟨hr, -⟩ := recordStep_some h
  generalize hdb : s'.db = db at hr
  cases hr with
  | nothing => exact .none (by rw [hdb]) (by rw [hdb])
  | outcome toStatus ch release _ hp hrec =>
    obtain ⟨job, hj, ht, hm, rfl⟩ := record_ok hrec
    refine .wrote ?_ hj (.recorded token a toStatus ch ha rfl ht hp hm)
    rw [hdb]
    exact endAttempt_wrote hj (by simp [Job.moveEvent])
  | settled e ended _ hp hset =>
    obtain ⟨job, job', evs, hj, ht, hs, rfl⟩ := requeueOrEnd_ok hset
    refine .wrote ?_ hj (.settled token a e job' evs ended ha rfl ht hp hs)
    rw [hdb]
    exact endAttempt_wrote hj (settled_own hs)

theorem reap_effect {id : JobId} (hsel : (id, token) ∈ s.selected)
    (h : reapLease cfg s.db s.now id token = .ok (some s'.db)) : Effect P cfg s (.reapLease id token) s' := by
  obtain ⟨job, job', evs, ended, hj, ht, hs, hr, hw, -⟩ := reapLease_ok h
  exact .wrote hw hj (.reaped token job' evs ended hsel ht hs hr)

theorem overdue_effect {id : JobId} (h : reapOverdue cfg s.db id = .ok (some s'.db)) :
    Effect P cfg s (.reapOverdue id) s' := by
  obtain ⟨job, c, hj, hq, hl, hdb⟩ := reapOverdue_ok h
  refine .wrote ?_ hj (.overdue c hq hl)
  rw [hdb]
  exact (Db.Wrote.put hj (by simp [Job.moveEvent])).frame rfl rfl

/-- The steps that write nothing to the database: clocks, reads, and what
happens inside a process. -/
def idle : Action → Bool
  | .advance _ | .poll _ _ | .checkAvailable _ | .drop _ | .start _ | .finish _ _ | .heartbeatFailed _ _ | .timeout _
  | .halt _ | .handle _ | .readStage _ | .die _ | .reapSelect _ | .reapSkip _ _ | .overdueSelect _ | .startRollout _ _
  | .endRollout _ _ | .deciderDies _ _ => true
  | _ => false

theorem step_idle {act : Action} (h : step P cfg s act = some s') (hi : idle act = true) : s'.db = s.db := by
  unfold step at h
  cases act with
  | advance dt => cases h; rfl
  | poll read classes | reapSelect read | overdueSelect read | endRollout rollout model | deciderDies holder model =>
    simp only at h
    split at h
    · cases h; rfl
    · cases h
  | checkAvailable id =>
    simp only at h
    split at h
    · split at h
      · cases h; rfl
      · cases h
    · cases h
  | drop id | reapSkip id token => cases h; rfl
  | finish token o =>
    obtain ⟨a, -, h⟩ := onAttempt_some h
    split at h
    · cases h; rfl
    · cases h
  | timeout token | halt token | handle token =>
    obtain ⟨a, -, h⟩ := onAttempt_some h
    split at h
    · cases h; rfl
    · cases h
  | die token =>
    obtain ⟨a, -, h⟩ := onAttempt_some h
    cases h; rfl
  | start token =>
    obtain ⟨a, -, h⟩ := onAttempt_some h
    unfold startStep at h
    split at h
    · simp only at h
      split at h <;> cases h <;> rfl
    · cases h
  | heartbeatFailed token read =>
    obtain ⟨a, -, h⟩ := onAttempt_some h
    unfold heartbeatFailedStep at h
    split at h
    · split at h
      · simp only at h
        split at h <;> cases h <;> rfl
      · cases h
    · cases h
  | readStage token =>
    obtain ⟨a, -, h⟩ := onAttempt_some h
    unfold readStageStep at h
    split at h
    · split at h
      · split at h <;> cases h <;> rfl
      · cases h
    · cases h
  | startRollout token rollout =>
    obtain ⟨a, -, h⟩ := onAttempt_some h
    unfold startRolloutStep at h
    split at h
    · cases h
    · split at h
      · obtain ⟨_, -, rfl⟩ := Option.map_eq_some_iff.mp h
        rfl
      · cases h
  | submit | cancel | publish | unpublish | claim | report | heartbeat | record | onAbandoned | reapLease | reapOverdue
  | reapSlots | lock | unlock => cases hi

theorem onAbandonedStep_some (h : s.onAbandonedStep token a = some s') :
    s'.db = s.db ∨ (a.abandoned = true ∧ s'.db = s.db.releaseLock a.claim.modelId (.job a.claim.jobId)) := by
  unfold onAbandonedStep at h
  split at h
  · simp only [Option.some.injEq] at h
    rw [← h]
    cases hab : a.abandoned with
    | false => exact .inl rfl
    | true => exact .inr ⟨rfl, rfl⟩
  · cases h

theorem lockStep_some {holder : Holder} {model : ModelId} (h : s.lockStep cfg holder model = some s') :
    s' = s ∨ (TookLock cfg.modelLockTtlS s.db s'.db model holder s.now ∧ s'.db.jobs = s.db.jobs ∧
      s'.db.events = s.db.events ∧ s'.db.slots = s.db.slots ∧ s'.deciding = (holder, model) :: s.deciding ∧
      s'.attempts = s.attempts ∧ ∀ id, holder ≠ .job id) := by
  unfold lockStep at h
  split at h
  · rename_i hk
    have hno : ∀ id, holder ≠ .job id := by
      rintro id rfl
      cases hk
    split at h
    · rename_i db ht
      cases h
      have htook := Db.takeOver_tookLock ht
      obtain ⟨-, -, -, rfl⟩ := Db.takeOverExpiredLock_some ht
      exact .inr ⟨htook, rfl, rfl, rfl, rfl, rfl, hno⟩
    · split at h
      · rename_i db ha
        cases h
        have htook := Db.add_tookLock ha
        obtain ⟨-, locks, -, rfl⟩ := Db.addLock_some ha
        exact .inr ⟨htook, rfl, rfl, rfl, rfl, rfl, hno⟩
      · cases h; exact .inl rfl
  · cases h

theorem step_effect {act : Action} (h : step P cfg s act = some s') : Effect P cfg s act s' := by
  cases hi : idle act with
  | true =>
    have hdb := step_idle h hi
    exact .none (by rw [hdb]) (by rw [hdb])
  | false =>
  unfold step at h
  cases act with
  | submit id event actor =>
    simp only at h
    split at h
    · rename_i hs; cases h; exact submit_effect hs
    · cases h; exact .none rfl rfl
  | cancel id actor =>
    simp only at h
    split at h
    · rename_i hs; cases h; exact cancel_effect hs
    · cases h; exact .none rfl rfl
  | publish id =>
    simp only at h
    split at h
    · rename_i hs; cases h; exact published_effect hs
    · cases h; exact .none rfl rfl
  | unpublish id => cases h; exact unpublish_effect rfl
  | claim source read id owner token => exact claim_effect h
  | report token toStatus message =>
    obtain ⟨a, ha, h⟩ := onAttempt_some h
    exact report_effect ha h
  | heartbeat token read drainExpired =>
    obtain ⟨a, ha, h⟩ := onAttempt_some h
    exact heartbeat_effect ha h
  | record token =>
    obtain ⟨a, ha, h⟩ := onAttempt_some h
    exact record_effect ha h
  | reapLease id token =>
    simp only at h
    split at h
    · rename_i hsel
      split at h
      · rename_i hr; cases h; exact reap_effect hsel hr
      · cases h; exact .none rfl rfl
    · cases h
  | reapOverdue id =>
    simp only at h
    split at h
    · split at h
      · rename_i hr; cases h; exact overdue_effect hr
      · cases h; exact .none rfl rfl
    · cases h
  | onAbandoned token =>
    obtain ⟨a, -, h⟩ := onAttempt_some h
    rcases onAbandonedStep_some h with hdb | ⟨-, hdb⟩ <;> exact .none (by simp [hdb]) (by simp [hdb])
  | lock holder model =>
    rcases lockStep_some h with rfl | ⟨-, hj, he, -⟩
    · exact .none rfl rfl
    · exact .none hj he
  | reapSlots read | unlock holder model =>
    simp only at h
    split at h
    · cases h; exact .none rfl rfl
    · cases h
  | _ => cases hi

end

end System

end OranAdapt
