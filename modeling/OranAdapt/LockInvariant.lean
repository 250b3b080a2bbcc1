import OranAdapt.Leases

/-!
# Who holds a model's lock

A job that has not ended should hold its model's lock, and so should a tick or
an operator's action while it decides. Submissions fail the job they take an
expired lock from. Ticks do not: they take the lock of a queued or running job
as of nobody. A thread that finishes late releases the lock of its job
wherever the job is by then. While no lock is taken or released so, every job
that has not ended holds its model's lock.
-/

namespace OranAdapt

open Runs

def Db.holder (db : Db) (model : ModelId) : Option Holder := (db.locks.get? model).map ModelLock.jobId

section
variable {db db' : Db} {model m : ModelId} {h holder : Holder}

theorem holder_eq_some : db.holder m = some h ↔ ∃ l, db.locks.get? m = some l ∧ l.jobId = h :=
  Option.map_eq_some_iff

theorem holder_congr (hl : db'.locks = db.locks) : db'.holder m = db.holder m := by
  rw [Db.holder, hl, Db.holder]

theorem holder_renewLock (until_ : Time) : (db.renewLock model holder until_).holder m = db.holder m :=
  Db.get?_renewLock db model m holder until_

theorem holder_releaseLock : (db.releaseLock model holder).holder m = some h ↔
    db.holder m = some h ∧ ¬ (m = model ∧ h = holder) := by
  simp only [holder_eq_some, Db.get?_releaseLock]
  constructor
  · rintro ⟨l, ⟨hl, hn⟩, rfl⟩; exact ⟨⟨l, hl, rfl⟩, hn⟩
  · rintro ⟨⟨l, hl, rfl⟩, hn⟩; exact ⟨l, ⟨hl, hn⟩, rfl⟩

theorem holder_tookLock {ttl now : Time} (ht : TookLock ttl db db' model holder now) :
    db'.holder m = if m = model then some holder else db.holder m := by
  rw [Db.holder, ht.locks, Db.holder]
  split <;> rfl

end

theorem Move.terminal {cfg : Settings} {s : System} {id : JobId} {job job' : Job} {act : Action}
    {evs : List AdaptationEvent} (hm : Move cfg s id job act job' evs) (h : job.status.terminal = true) :
    job'.status.terminal = true := by
  have stuck {st : JobStatus} (hmv : job.status.mayMove st = true) : False := by
    rw [JobStatus.mayMove_terminal h] at hmv; cases hmv
  cases hm with
  | kept | published | unpublished | renewed => exact h
  | asked actor => rw [asked_status]; exact h
  | withdrawn | overdue => rfl
  | claimed source read owner token hc => rw [(claimable_iff.mp hc).1] at h; cases h
  | reported token toStatus message a ha hid hp hf hmv => exact (stuck hmv).elim
  | recorded token a toStatus c ha hid ht hp hmv => exact (stuck hmv).elim
  | settled token a e j evs ended ha hid ht hp hs => cases (settle_ok hs).1 <;> exact (stuck (by assumption)).elim
  | reaped token _ _ ended hsel ht hs => cases hs <;> exact (stuck (by assumption)).elim
  | takenOver => rfl

namespace System

/-- A tick or an operator's action under this name is deciding. -/
def decides (s : System) (model : ModelId) (h : Holder) : Bool := decide ((h, model) ∈ s.deciding)

/-- The holder is one that may still rely on the lock: a job that has not
ended, or a tick or operator's action that is deciding. -/
def entitled (s : System) (model : ModelId) : Holder → Bool
  | .job id => (s.db.jobs.get? id).any fun job => !job.status.terminal
  | h => s.decides model h

/-- The step takes or releases a lock somebody may still rely on: a tick or an
operator's action takes it from a job that has not ended or from one that is
deciding, a submission from one that is deciding, or a stopped thread releases
it although its job has not ended. -/
def disownsLock (s : System) : Action → Bool
  | .lock _ model => (s.db.locks.get? model).any fun l => decide (l.expiresAt < s.now) && s.entitled model l.jobId
  | .submit _ event _ => (s.db.locks.get? event.modelId).any fun l => decide (l.expiresAt < s.now) &&
      s.decides event.modelId l.jobId
  | .onAbandoned token => (s.attempts.get? token).any fun a => a.finishDue && a.abandoned &&
      (s.db.jobs.get? a.claim.jobId).any fun job => !job.status.terminal
  | _ => false

section
variable {P : Platform} {cfg : Settings} {s s' : System}

inductive LockStep (cfg : Settings) (s s' : System) (act : Action) : Prop
  | kept (hh : ∀ m, s'.db.holder m = s.db.holder m)
      (hn : ∀ id, s.db.jobs.get? id = none → s'.db.jobs.get? id = none) (hd : s'.deciding.Sublist s.deciding)
  | submitted (id : JobId) (event : DriftEvent) (actor : String) (hact : act = .submit id event actor)
      (hfree : ∀ l, s.db.locks.get? event.modelId = some l → l.expiresAt < s.now)
      (hh : ∀ m, s'.db.holder m = if m = event.modelId then some (.job id) else s.db.holder m)
      (hn : ∀ id' job', s.db.jobs.get? id' = none → s'.db.jobs.get? id' = some job' →
        id' = id ∧ job'.modelId = event.modelId)
      (hfresh : s.db.jobs.get? id = none)
      (hold : ∀ old job', s.db.holder event.modelId = some (.job old) → s'.db.jobs.get? old = some job' → old ≠ id →
        job'.status.terminal = true) (hd : s'.deciding.Sublist s.deciding)
  | released (id : JobId) (model : ModelId)
      (hh : ∀ m h, s'.db.holder m = some h ↔ s.db.holder m = some h ∧ ¬ (m = model ∧ h = .job id))
      (hn : ∀ id, s.db.jobs.get? id = none → s'.db.jobs.get? id = none)
      (hend : ∀ job', s'.db.jobs.get? id = some job' → job'.status.terminal = true)
      (hd : s'.deciding.Sublist s.deciding)
  | abandoned (token : Token) (a : Attempt) (hact : act = .onAbandoned token) (ha : s.attempts.get? token = some a)
      (hdue : a.finishDue = true) (hab : a.abandoned = true)
      (hdb : s'.db = s.db.releaseLock a.claim.modelId (.job a.claim.jobId)) (hd : s'.deciding.Sublist s.deciding)
  | locked (holder : Holder) (model : ModelId) (hact : act = .lock holder model)
      (htook : TookLock cfg.modelLockTtlS s.db s'.db model holder s.now)
      (hj : s'.db.jobs = s.db.jobs) (hd : s'.deciding = (holder, model) :: s.deciding) (hno : ∀ id, holder ≠ .job id)
  | unlocked (holder : Holder) (model : ModelId) (hact : act = .unlock holder model)
      (hdb : s'.db = s.db.releaseLock model holder) (hmem : (holder, model) ∈ s.deciding)
      (hd : s'.deciding = s.deciding.erase (holder, model))

/-- Only taking a lock makes somebody decide. -/
theorem deciding_same {act : Action} (h : step P cfg s act = some s')
    (hl : ∀ holder model, act ≠ .lock holder model ∧ act ≠ .unlock holder model) :
    s'.deciding.Sublist s.deciding := by
  rcases (step_frame h).deciding with hd | ⟨holder, model, ⟨hact, -⟩ | ⟨-, hd⟩⟩
  · rw [hd]
  · exact absurd hact (hl holder model).1
  · rw [hd]; exact List.erase_sublist

theorem absent_step {act : Action} (h : step P cfg s act = some s')
    (hs : ∀ id event actor, act ≠ .submit id event actor) :
    ∀ id, s.db.jobs.get? id = none → s'.db.jobs.get? id = none := by
  intro id hn
  rcases (step_effect h).new id hn with ⟨hn', -⟩ | ⟨event, actor, rfl, -⟩
  · exact hn'
  · exact absurd rfl (hs id event actor)

theorem lockStep_submit {id : JobId} {event : DriftEvent} {actor : String} {db : Db} {r : Submitted}
    (h : submit P cfg s.db s.now id event actor = .ok (db, r)) :
    LockStep cfg s { s with db } (.submit id event actor) := by
  rcases submit_ok h with ⟨rfl, -⟩ | ⟨-, hfresh, -, htook, -, ⟨hw, -, hended⟩ |
    ⟨l, old, job, hl, hold, hne, hj, hterm, hw, -⟩⟩
  · exact .kept (fun _ => rfl) (fun _ hn => hn) (.refl _)
  · refine .submitted id event actor rfl htook.free (fun _ => holder_tookLock htook) ?_ hfresh ?_ (.refl _)
    · intro id' job' hn hj'
      by_cases e : id' = id
      · subst e
        cases (hw.get).symm.trans hj'
        exact ⟨rfl, rfl⟩
      · have := (hw.get_ne e).symm.trans hj'
        rw [hn] at this; cases this
    · intro old job' hh hj' hne
      obtain ⟨l, hl, hold⟩ := holder_eq_some.mp hh
      exact hended l old job' hl hold ((hw.get_ne hne).symm.trans hj')
  · have hfail := Db.get?_put s.db hj (job.abandoned id) [job.abandonedEvent old id]
    refine .submitted id event actor rfl htook.free (fun _ => holder_tookLock htook) ?_ hfresh ?_ (.refl _)
    · intro id' job' hn hj'
      by_cases e : id' = id
      · subst e
        cases (hw.get).symm.trans hj'
        exact ⟨rfl, rfl⟩
      · have e' : id' ≠ old := fun e' => by rw [e', hj] at hn; cases hn
        have := (hw.get_ne e).symm.trans hj'
        rw [hfail, if_neg e', hn] at this; cases this
    · intro old' job' hh hj' hne'
      obtain ⟨l', hl', hold'⟩ := holder_eq_some.mp hh
      rw [hl] at hl'; cases hl'
      rw [hold] at hold'
      cases Holder.job.inj hold'
      have := (hw.get_ne hne').symm.trans hj'
      rw [hfail, if_pos rfl, Option.some.injEq] at this
      rw [← this]; rfl

theorem lockStep_ended {act : Action} {c : Claim} {old job : Job} {evs : List AdaptationEvent} {release : Bool}
    (hdb : s'.db = endAttempt s.db c job evs release) (hj : s.db.jobs.get? c.jobId = some old)
    (hown : ∀ e ∈ evs, e.jobId = c.jobId) (hend : release = true → job.status.terminal = true)
    (hn : ∀ id, s.db.jobs.get? id = none → s'.db.jobs.get? id = none) (hd : s'.deciding.Sublist s.deciding) :
    LockStep cfg s s' act := by
  have hlocks := congrArg Db.locks hdb
  rw [endAttempt_locks] at hlocks
  cases release with
  | false => exact .kept (fun m => holder_congr hlocks) hn hd
  | true =>
    refine .released c.jobId job.modelId (fun m h => ?_) hn (fun job' hj' => ?_) hd
    · rw [show s'.db.holder m = (s.db.releaseLock job.modelId (.job c.jobId)).holder m from holder_congr hlocks,
        holder_releaseLock]
    · rw [hdb, (endAttempt_wrote hj hown).get, Option.some.injEq] at hj'
      rw [← hj']; exact hend rfl

theorem step_locks {act : Action} (h : step P cfg s act = some s') : LockStep cfg s s' act := by
  have same (hdb : s'.db = s.db) (hd : s'.deciding.Sublist s.deciding) : LockStep cfg s s' act :=
    .kept (fun m => by rw [hdb]) (fun id hn => by rw [hdb]; exact hn) hd
  have hsub := deciding_same h
  cases hi : idle act with
  | true => exact same (step_idle h hi) (hsub fun _ _ => ⟨(by rintro rfl; cases hi), (by rintro rfl; cases hi)⟩)
  | false =>
  have habsent := absent_step h
  unfold step at h
  cases act with
  | submit id event actor =>
    have hd := hsub (by simp)
    simp only at h
    split at h
    · rename_i hs; cases h; exact lockStep_submit hs
    · cases h; exact same rfl hd
  | cancel id actor =>
    have hn := habsent (by simp)
    have hd := hsub (by simp)
    simp only at h
    split at h
    · rename_i db imm hs
      cases h
      obtain ⟨job, hj, -, -, ⟨-, -, -, c, rfl⟩ | ⟨-, -, rfl⟩⟩ := requestCancel_ok hs
      · refine .released id job.modelId (fun m h => holder_releaseLock) hn (fun job' hj' => ?_) hd
        have hget := Db.get?_put s.db hj ((job.asked s.now actor).moved .cancelled c) [] id
        rw [if_pos rfl] at hget
        have : job' = (job.asked s.now actor).moved .cancelled c := Option.some.inj (hj'.symm.trans hget)
        rw [this]; rfl
      · exact .kept (fun _ => rfl) hn hd
    · cases h; exact same rfl hd
  | publish id =>
    have hn := habsent (by simp)
    have hd := hsub (by simp)
    simp only at h
    split at h
    · rename_i db hs
      cases h
      obtain ⟨job, hj, rfl⟩ := published_ok hs
      exact .kept (fun _ => rfl) hn hd
    · cases h; exact same rfl hd
  | unpublish id =>
    have hn := habsent (by simp)
    have hd := hsub (by simp)
    cases h; exact .kept (fun _ => rfl) hn hd
  | claim source read id owner token =>
    have hn := habsent (by simp)
    have hd := hsub (by simp)
    rcases claim_won h with hdb | ⟨c, hc, -⟩
    · exact same hdb hd
    · obtain ⟨job, -, -, -, -, -, hlocks⟩ := tryClaim_ok hc
      exact .kept (fun m => (holder_congr hlocks).trans (holder_renewLock _)) hn hd
  | report token toStatus message =>
    have hn := habsent (by simp)
    have hd := hsub (by simp)
    obtain ⟨a, ha, h⟩ := onAttempt_some h
    unfold reportStep at h
    split at h
    · split at h
      · rename_i db ht
        cases h
        obtain ⟨job, hj, -, -, rfl⟩ := transition_ok ht
        exact .kept (fun _ => rfl) hn hd
      · cases h; exact same rfl hd
    · cases h
  | heartbeat token read drain =>
    have hn := habsent (by simp)
    have hd := hsub (by simp)
    obtain ⟨a, ha, h⟩ := onAttempt_some h
    unfold heartbeatStep at h
    split at h
    · split at h
      · simp only [Option.some.injEq] at h
        have hdb : s'.db = (supervise cfg s.db read a.claim drain).1 := by rw [← h]; rfl
        rw [supervise_fst] at hdb
        cases hr : renewLease cfg s.db read a.claim with
        | none => rw [hr] at hdb; exact same hdb hd
        | some r =>
          rw [hr, Option.map_some, Option.getD_some] at hdb
          obtain ⟨db', status, cancelAt⟩ := r
          change s'.db = db' at hdb
          obtain ⟨job, -, -, -, -, -, hlocks, -⟩ := renewLease_some hr
          rw [← hdb] at hlocks
          exact .kept (fun m => (holder_congr hlocks).trans (holder_renewLock _)) hn hd
      · cases h
    · cases h
  | record token =>
    have hn := habsent (by simp)
    have hd := hsub (by simp)
    obtain ⟨a, ha, h⟩ := onAttempt_some h
    obtain ⟨hr, -⟩ := recordStep_some h
    generalize hdb : s'.db = db at hr
    cases hr with
    | nothing => exact same hdb hd
    | outcome toStatus ch release _ hp hrec =>
      obtain ⟨job, hj, -, -, rfl⟩ := record_ok hrec
      exact lockStep_ended hdb hj (by simp [Job.moveEvent]) (fun _ => Phase.records_terminal hp) hn hd
    | settled e ended _ hp hset =>
      obtain ⟨job, j, evs, hj, -, hs, rfl⟩ := requeueOrEnd_ok hset
      have hs := (settle_ok hs).1
      refine lockStep_ended hdb hj (by cases hs <;> simp [Job.moveEvent]) (fun he => ?_) hn hd
      rcases hs.status with ⟨hf, -⟩ | ⟨-, hst⟩
      · rw [he] at hf; cases hf
      · rw [hst]; rfl
  | reapLease id token =>
    have hn := habsent (by simp)
    have hd := hsub (by simp)
    simp only at h
    split at h
    · split at h
      · rename_i db hr
        cases h
        obtain ⟨job, j, evs, ended, hj, -, hs, -, hw, -, hlocks⟩ := reapLease_ok hr
        rcases hs.status with ⟨rfl, -⟩ | ⟨rfl, hst⟩
        · exact .kept (fun m => holder_congr hlocks) hn hd
        · refine .released id job.modelId (fun m h => ?_) hn (fun job' hj' => ?_) hd
          · rw [show db.holder m = (s.db.releaseLock job.modelId (.job id)).holder m from holder_congr hlocks,
              holder_releaseLock]
          · have : job' = j := Option.some.inj (hj'.symm.trans hw.get)
            rw [this, hst]; rfl
      · cases h; exact same rfl hd
    · cases h
  | reapOverdue id =>
    have hn := habsent (by simp)
    have hd := hsub (by simp)
    simp only at h
    split at h
    · split at h
      · rename_i db hr
        cases h
        obtain ⟨job, c, hj, -, -, rfl⟩ := reapOverdue_ok hr
        refine .released id job.modelId (fun m h => holder_releaseLock) hn (fun job' hj' => ?_) hd
        have hget := Db.get?_put s.db hj (job.moved .timedOut c) [] id
        rw [if_pos rfl] at hget
        have : job' = job.moved .timedOut c := Option.some.inj (hj'.symm.trans hget)
        rw [this]; rfl
      · cases h; exact same rfl hd
    · cases h
  | onAbandoned token =>
    have hd := hsub (by simp)
    obtain ⟨a, ha, h⟩ := onAttempt_some h
    rcases onAbandonedStep_some h with hdb | ⟨hab, hdb⟩
    · exact same hdb hd
    · have hdue : a.finishDue = true := by
        unfold onAbandonedStep at h
        split at h
        · assumption
        · cases h
      exact .abandoned token a rfl ha hdue hab hdb hd
  | lock holder model =>
    rcases lockStep_some h with rfl | ⟨htook, hj, -, -, hd, -, hno⟩
    · exact same rfl (.refl _)
    · exact .locked holder model rfl htook hj hd hno
  | reapSlots read =>
    have hn := habsent (by simp)
    have hd := hsub (by simp)
    simp only at h
    split at h
    · cases h; exact .kept (fun _ => rfl) hn hd
    · cases h
  | unlock holder model =>
    simp only at h
    split at h
    · rename_i hmem
      cases h; exact .unlocked holder model rfl rfl hmem rfl
    · cases h
  | _ => cases hi

/-- The jobs and the deciders that may rely on a lock hold it. -/
structure Locked (s : System) : Prop where
  jobs : ∀ id job, s.db.jobs.get? id = some job → job.status.terminal = false → s.db.holder job.modelId = some (.job id)
  deciding : ∀ h m, (h, m) ∈ s.deciding → s.db.holder m = some h
  noJob : ∀ id m, (Holder.job id, m) ∉ s.deciding
  nodup : s.deciding.Nodup

theorem locked_init (models : Table ModelId ModelMetadata) : (init models).Locked where
  jobs _ _ h := nomatch h
  deciding _ _ h := nomatch h
  noJob _ _ h := nomatch h
  nodup := List.nodup_nil

/-- A lock that is taken without disowning its holder names nobody who may rely on it. -/
theorem not_entitled_of_free {model : ModelId} {h : Holder}
    (hc : ∀ l, s.db.locks.get? model = some l → l.expiresAt < s.now → s.entitled model l.jobId = false)
    (hfree : ∀ l, s.db.locks.get? model = some l → l.expiresAt < s.now) (hh : s.db.holder model = some h) :
    s.entitled model h = false := by
  obtain ⟨l, hl, rfl⟩ := holder_eq_some.mp hh
  exact hc l hl (hfree l hl)

theorem unended_before {act : Action} (h : step P cfg s act = some s') {id : JobId} {job job' : Job}
    (hj : s.db.jobs.get? id = some job) (hj' : s'.db.jobs.get? id = some job') (ht : job'.status.terminal = false) :
    job.status.terminal = false ∧ job'.modelId = job.modelId := by
  obtain ⟨j, evs, hg, -, hm⟩ := (step_effect h).old id job hj
  rw [hg] at hj'; cases hj'
  refine ⟨?_, hm.fixed.1⟩
  cases hterm : job.status.terminal with
  | false => rfl
  | true => rw [hm.terminal hterm] at ht; cases ht

theorem locked_jobs_step {act : Action} (hL : s.Locked) (hc : disownsLock s act = false)
    (h : step P cfg s act = some s') (id : JobId) (job' : Job) (hj' : s'.db.jobs.get? id = some job')
    (ht : job'.status.terminal = false) : s'.db.holder job'.modelId = some (.job id) := by
  -- what held before the step, for a job that was there
  have before : ∀ job, s.db.jobs.get? id = some job → job'.modelId = job.modelId ∧
      job.status.terminal = false ∧ s.db.holder job'.modelId = some (.job id) := by
    intro job hj
    obtain ⟨hterm, hmodel⟩ := unended_before h hj hj' ht
    exact ⟨hmodel, hterm, by rw [hmodel]; exact hL.jobs id job hj hterm⟩
  have there (hn : ∀ id, s.db.jobs.get? id = none → s'.db.jobs.get? id = none) : ∃ job,
      s.db.jobs.get? id = some job := by
    cases hj : s.db.jobs.get? id with
    | some job => exact ⟨job, rfl⟩
    | none => rw [hn id hj] at hj'; cases hj'
  cases step_locks h with
  | kept hh hn =>
    obtain ⟨job, hj⟩ := there hn
    rw [hh]; exact (before job hj).2.2
  | submitted nid event actor hact hfree hh hn hfresh hold =>
    rw [hh]
    cases hj : s.db.jobs.get? id with
    | none =>
      obtain ⟨rfl, hmodel⟩ := hn id job' hj hj'
      rw [if_pos hmodel]
    | some job =>
      obtain ⟨hmodel, hterm, hheld⟩ := before job hj
      split
      · rename_i hm
        have hne : id ≠ nid := fun e => by rw [e, hfresh] at hj; cases hj
        rw [hm] at hheld
        rw [hold id job' hheld hj' hne] at ht; cases ht
      · exact hheld
  | released rid model hh hn hend =>
    obtain ⟨job, hj⟩ := there hn
    refine (hh _ _).mpr ⟨(before job hj).2.2, ?_⟩
    rintro ⟨-, hid⟩
    cases Holder.job.inj hid
    rw [hend job' hj'] at ht; cases ht
  | abandoned token a hact ha hdue hab hdb =>
    obtain ⟨job, hj⟩ : ∃ job, s.db.jobs.get? id = some job := ⟨job', by rw [hdb] at hj'; exact hj'⟩
    rw [hdb, holder_releaseLock]
    refine ⟨(before job hj).2.2, ?_⟩
    rintro ⟨-, hid⟩
    cases Holder.job.inj hid
    -- the late thread of a job that has not ended, which the condition excludes
    simp [disownsLock, hact, ha, hdue, hab, hj, (before job hj).2.1] at hc
  | locked holder model hact htook hjobs hd hno =>
    rw [hjobs] at hj'
    obtain ⟨-, hterm, hheld⟩ := before job' hj'
    rw [holder_tookLock htook]
    split
    · rename_i hm
      rw [hm] at hheld
      have hent : s.entitled model (.job id) = false := by
        refine not_entitled_of_free (fun l hl he => ?_) htook.free hheld
        simpa [disownsLock, hact, hl, he] using hc
      simp [entitled, hj', hterm] at hent
    · exact hheld
  | unlocked holder model hact hdb hmem =>
    rw [hdb] at hj' ⊢
    rw [holder_releaseLock]
    refine ⟨(before job' hj').2.2, ?_⟩
    rintro ⟨-, hid⟩
    rw [← hid] at hmem
    exact hL.noJob id model hmem

theorem locked_step {act : Action} (hL : s.Locked) (hc : disownsLock s act = false)
    (h : step P cfg s act = some s') : s'.Locked := by
  have hjobs := locked_jobs_step hL hc h
  -- a step that neither takes nor returns a decider's lock
  have plain (hsub : s'.deciding.Sublist s.deciding)
      (hd : ∀ h m, (h, m) ∈ s.deciding → s.db.holder m = some h → s'.db.holder m = some h) : s'.Locked :=
    ⟨hjobs, fun h m hm => hd h m (hsub.subset hm) (hL.deciding h m (hsub.subset hm)),
      fun id m hm => hL.noJob id m (hsub.subset hm), hL.nodup.sublist hsub⟩
  have notJob {h : Holder} {m : ModelId} {id : JobId} (hm : (h, m) ∈ s.deciding) : h ≠ .job id := by
    rintro rfl; exact hL.noJob id m hm
  cases step_locks h with
  | kept hh hn hd => exact plain hd fun h m hm hheld => by rw [hh]; exact hheld
  | submitted nid event actor hact hfree hh hn hfresh hold hd =>
    refine plain hd fun h m hm hheld => ?_
    rw [hh]
    split
    · rename_i he; subst he
      obtain ⟨l, hl, rfl⟩ := holder_eq_some.mp hheld
      simp [disownsLock, hact, hl, hfree l hl, decides, hm] at hc
    · exact hheld
  | released rid model hh hn hend hd =>
    exact plain hd fun h m hm hheld => (hh m h).mpr ⟨hheld, fun he => notJob hm he.2⟩
  | abandoned token a hact ha hdue hab hdb hd =>
    refine plain hd fun h m hm hheld => ?_
    rw [hdb, holder_releaseLock]
    exact ⟨hheld, fun he => notJob hm he.2⟩
  | locked holder model hact htook hjobs' hd hno =>
    have hout : ∀ h, (h, model) ∉ s.deciding := by
      intro h hm
      have hent : s.entitled model h = false := by
        refine not_entitled_of_free (fun l hl he => ?_) htook.free (hL.deciding h model hm)
        simpa [disownsLock, hact, hl, he] using hc
      cases h with
      | job id => exact notJob hm rfl
      | rollout id => simp [entitled, decides, hm] at hent
      | rollback id => simp [entitled, decides, hm] at hent
    refine ⟨hjobs, fun h m hm => ?_, fun id m hm => ?_, ?_⟩
    · rw [holder_tookLock htook]
      rw [hd, List.mem_cons, Prod.mk.injEq] at hm
      rcases hm with ⟨rfl, rfl⟩ | hm
      · rw [if_pos rfl]
      · have hne : m ≠ model := by rintro rfl; exact hout h hm
        rw [if_neg hne]; exact hL.deciding h m hm
    · rw [hd, List.mem_cons, Prod.mk.injEq] at hm
      rcases hm with ⟨he, -⟩ | hm
      · exact hno id he.symm
      · exact hL.noJob id m hm
    · rw [hd, List.nodup_cons]
      exact ⟨hout holder, hL.nodup⟩
  | unlocked holder model hact hdb hmem hd =>
    have hsub : s'.deciding.Sublist s.deciding := by rw [hd]; exact List.erase_sublist
    refine ⟨hjobs, fun h m hm => ?_, fun id m hm => hL.noJob id m (hsub.subset hm), hL.nodup.sublist hsub⟩
    rw [hd, hL.nodup.mem_erase_iff] at hm
    rw [hdb, holder_releaseLock]
    refine ⟨hL.deciding h m hm.2, ?_⟩
    rintro ⟨rfl, rfl⟩
    exact hm.1 rfl

/-- Every job that has not ended holds its model's lock, so a model has at
most one of them, and nobody decides about a model whose job is running. -/
structure LockInvariant (s : System) : Prop where
  held : ∀ id job, s.db.jobs.get? id = some job → job.status = .queued ∨ job.status.active = true →
    ∃ l, s.db.locks.get? job.modelId = some l ∧ l.jobId = .job id
  one : ∀ id₁ id₂ job₁ job₂, s.db.jobs.get? id₁ = some job₁ → s.db.jobs.get? id₂ = some job₂ →
    job₁.status.terminal = false → job₂.status.terminal = false → job₁.modelId = job₂.modelId → id₁ = id₂
  exclusive : ∀ h m id job, (h, m) ∈ s.deciding → s.db.jobs.get? id = some job → job.modelId = m →
    job.status.active = false

theorem lockInvariant_of_locked (hL : s.Locked) : s.LockInvariant := by
  refine ⟨fun id job hj ha => ?_, fun id₁ id₂ job₁ job₂ h₁ h₂ ht₁ ht₂ hm => ?_,
    fun h m id job hd hj hm => ?_⟩
  · exact holder_eq_some.mp (hL.jobs id job hj (JobStatus.not_terminal_iff.mpr ha))
  · have e₁ := hL.jobs id₁ job₁ h₁ ht₁
    rw [hm, hL.jobs id₂ job₂ h₂ ht₂, Option.some.injEq] at e₁
    exact (Holder.job.inj e₁).symm
  · cases ha : job.status.active with
    | false => rfl
    | true =>
      have e := hL.jobs id job hj (JobStatus.not_terminal_of_active ha)
      rw [hm, hL.deciding h m hd, Option.some.injEq] at e
      subst e
      exact absurd hd (hL.noJob id m)

/-- In every run in which no step takes or releases a lock that a job which
has not ended or somebody deciding relies on, the lock invariant holds. -/
theorem lock_invariant {models : Table ModelId ModelMetadata}
    (h : Steps (step P cfg) (fun s act => disownsLock s act = false) (init models) s) : s.LockInvariant :=
  lockInvariant_of_locked
    (h.inv Locked (fun _ _ _ hL hc hst => locked_step hL hc hst) (locked_init models))

end

/-- A job that starts a rollout and completes, and a second one submitted after it. -/
def rolloutThenQueued : List Action :=
  [.submit "a1" (drift "e1") "oncall", .claim .message 0 "a1" "w1" "t1", .start "t1",
    .report "t1" .evaluatingVersions "", .report "t1" .reuseDecision "", .report "t1" .promoting "",
    .startRollout "t1" "r1", .finish "t1" (.returned ⟨"PROMOTED", "rollout started", none⟩), .handle "t1", .record "t1",
    .submit "a2" (drift "e2") "oncall"]

theorem lock_invariant_decided : ∃ s, Steps (step (.sqlite id) .defaults) (fun s act => disownsLock s act = false)
      (init cellLoad) s ∧ (s.db.jobs.get? "a2").map Job.status = some .queued ∧ s.LockInvariant := by
  obtain ⟨s, hs, hp⟩ := Steps.exists_of_runs (step (.sqlite id) .defaults) (fun s act => disownsLock s act = false)
    (init cellLoad) (rolloutThenQueued ++ [.lock (.rollout "r1") "cell-load"])
    (fun s => (s.db.jobs.get? "a2").map Job.status == some .queued) (by decide)
  exact ⟨s, hs, by simpa using hp, lock_invariant hs⟩

/-- A rollout's tick takes the expired lock of a job that waits in the queue. -/
theorem lock_taken_from_queued : ∃ s, Steps (step (.sqlite id) .defaults) Free (init cellLoad) s ∧
    ¬ s.LockInvariant ∧ (s.db.jobs.get? "a2").map Job.status = some .queued ∧
    (s.db.locks.get? "cell-load").map ModelLock.jobId = some (.rollout "r1") := by
  obtain ⟨s, hs, hp⟩ := Steps.exists_of_runs (step (.sqlite id) .defaults) Free (init cellLoad)
    (rolloutThenQueued ++ [.advance 3600000001, .lock (.rollout "r1") "cell-load"])
    (fun s => (s.db.jobs.get? "a2").map (fun job => (job.status, job.modelId)) == some (.queued, "cell-load") &&
      (s.db.locks.get? "cell-load").map ModelLock.jobId == some (.rollout "r1")) (by decide)
  simp only [Bool.and_eq_true, beq_iff_eq] at hp
  obtain ⟨hjob, hlock⟩ := hp
  obtain ⟨job, hj, he⟩ := Option.map_eq_some_iff.mp hjob
  simp only [Prod.mk.injEq] at he
  refine ⟨s, hs, fun hI => ?_, by rw [hj, Option.map_some, he.1], hlock⟩
  obtain ⟨l, hl, hid⟩ := hI.held "a2" job hj (.inl he.1)
  rw [he.2] at hl
  rw [hl, Option.map_some, hid] at hlock
  cases hlock

end System

end OranAdapt
