import OranAdapt.ExactlyOnce

/-!
# A cancel request is final

The request is one column of the row. No move clears it, and while it is set a
job outside the registry stages cannot enter them: the fence refuses the
report, and the claim of a later attempt stops before them.
-/

namespace OranAdapt

open Runs

/-- A cancel was asked for and the job is not registering or promoting. -/
def Job.cancelling (job : Job) : Prop := job.cancelRequestedAt ≠ none ∧ job.status.inRegistryStage = false

theorem asked_cancelRequestedAt (job : Job) (now : Time) (actor : String) :
    (job.asked now actor).cancelRequestedAt ≠ none := by
  unfold Job.asked
  split
  · simp
  · assumption

theorem Settled.cancelling {now : Time} {id : JobId} {job job' : Job} {evs : List AdaptationEvent} {ended : Bool}
    (hs : Settled now id job job' evs ended) (h : job.cancelRequestedAt ≠ none) :
    job'.cancelling ∧ ∀ e ∈ evs, e.toStatus.inRegistryStage = false := by
  refine ⟨⟨by rw [hs.same.2.2.2.2]; exact h, ?_⟩, ?_⟩
  · rcases hs.status with ⟨-, hst⟩ | ⟨-, hst⟩ <;> rw [hst] <;> rfl
  · cases hs <;> simp [Job.moveEvent, JobStatus.inRegistryStage]

theorem Move.cancelling {cfg : Settings} {s : System} {id : JobId} {job job' : Job} {act : Action}
    {evs : List AdaptationEvent} (hm : Move cfg s id job act job' evs) (h : job.cancelling) :
    job'.cancelling ∧ ∀ e ∈ evs, e.toStatus.inRegistryStage = false := by
  have one {e : AdaptationEvent} (he : e.toStatus.inRegistryStage = false) :
      ∀ e' ∈ [e], e'.toStatus.inRegistryStage = false := by
    intro e' he'; rw [List.mem_singleton.mp he']; exact he
  have registry_of_terminal {t : JobStatus} (ht : t.terminal = true) : t.inRegistryStage = false := by
    cases t <;> first | rfl | cases ht
  cases hm with
  | kept | published | unpublished | renewed => exact ⟨h, fun e he => nomatch he⟩
  | asked actor =>
    exact ⟨⟨asked_cancelRequestedAt job s.now actor, by rw [asked_status]; exact h.2⟩, fun e he => nomatch he⟩
  | withdrawn actor => exact ⟨⟨asked_cancelRequestedAt job s.now actor, rfl⟩, one rfl⟩
  | claimed source read owner token =>
    refine ⟨⟨h.1, rfl⟩, fun e he => ?_⟩
    simp only [Job.startEvents, List.mem_cons, List.not_mem_nil, or_false] at he
    rcases he with rfl | rfl <;> rfl
  | reported token toStatus message a ha hid hp hf hm =>
    -- the fence: a report after the request is refused outside the registry stages
    rcases (checkFence_ok.mp hf).2 with hn | ht | hq | hr
    · exact absurd hn h.1
    · rw [JobStatus.not_terminal_of_active (JobStatus.active_of_pipeline hp)] at ht; cases ht
    · subst hq; exact absurd hp (by decide)
    · rw [h.2] at hr; cases hr
  | recorded token a toStatus c ha hid ht hp =>
    have hr := registry_of_terminal (Phase.records_terminal hp)
    exact ⟨⟨h.1, hr⟩, one hr⟩
  | settled token a e j evs ended ha hid ht hp hs => exact (settle_ok hs).1.cancelling h.1
  | reaped token _ _ ended hsel ht hs => exact hs.cancelling h.1
  | overdue c => exact ⟨⟨h.1, rfl⟩, one rfl⟩
  | takenOver newId => exact ⟨⟨h.1, rfl⟩, one rfl⟩

/-- The answer to a cancel request: accepted exactly outside the terminal and
registry statuses, and refused as not cancellable in them. -/
theorem requestCancel_accepted {db : Db} (now : Time) {id : JobId} (actor : String) {job : Job}
    (hj : db.jobs.get? id = some job) :
    (job.status.terminal = false ∧ job.status.inRegistryStage = false ∧
      ∃ db' immediate, requestCancel db now id actor = .ok (db', immediate)) ∨
    ((job.status.terminal = true ∨ job.status.inRegistryStage = true) ∧
      ∃ e, requestCancel db now id actor = .error e ∧ e.cls = .jobNotCancellable) := by
  by_cases hr : job.status.terminal = true ∨ job.status.inRegistryStage = true
  · refine .inr ⟨hr, ⟨.jobNotCancellable, "job '" ++ id ++ "' is " ++ job.status.value ++ " and cannot be cancelled",
      [("job_id", .str id), ("status", .str job.status.value)]⟩, ?_, rfl⟩
    unfold requestCancel
    rw [loadJob_ok.mpr hj]
    simp only [bind, Except.bind]
    rw [if_pos hr]
    rfl
  · have hn : job.status.terminal = false ∧ job.status.inRegistryStage = false := by simpa using hr
    refine .inl ⟨hn.1, hn.2, ?_⟩
    unfold requestCancel
    rw [loadJob_ok.mpr hj]
    simp only [bind, Except.bind]
    rw [if_neg hr]
    by_cases hq : job.status = .queued ∧ job.leaseToken = none
    · rw [if_pos hq, applyTransition_of _ (by rw [asked_status, hq.1]; rfl)]
      exact ⟨_, _, rfl⟩
    · rw [if_neg hq]
      exact ⟨_, _, rfl⟩

namespace System

section
variable {P : Platform} {cfg : Settings} {s t : System} {id : JobId}

/-- From a state in which the job is being cancelled, its log grows by no entry of a registry stage. -/
theorem cancelling_run (h : Steps (step P cfg) Free s t) {job : Job} (hj : s.db.jobs.get? id = some job)
    (hc : job.cancelling) :
    ∃ later, t.db.eventsOf id = s.db.eventsOf id ++ later ∧ ∀ e ∈ later, e.toStatus.inRegistryStage = false := by
  have hI := h.inv (fun u => (∃ job, u.db.jobs.get? id = some job ∧ job.cancelling) ∧
    ∃ later, u.db.eventsOf id = s.db.eventsOf id ++ later ∧ ∀ e ∈ later, e.toStatus.inRegistryStage = false) ?_
    ⟨⟨job, hj, hc⟩, [], by rw [List.append_nil], fun e he => nomatch he⟩
  · exact hI.2
  · rintro u act u' ⟨⟨job, hj, hc⟩, later, hl, hlater⟩ - hst
    obtain ⟨job', evs, hj', he, hm⟩ := (step_effect hst).old id job hj
    obtain ⟨hc', hevs⟩ := hm.cancelling hc
    refine ⟨⟨job', hj', hc'⟩, later ++ evs, by rw [he, hl, List.append_assoc], ?_⟩
    intro e he
    rcases List.mem_append.mp he with he | he
    · exact hlater e he
    · exact hevs e he

theorem cancelling_of_requestCancel {actor : String} {db : Db} {immediate : Bool}
    (h : requestCancel s.db s.now id actor = .ok (db, immediate)) :
    ∃ job, db.jobs.get? id = some job ∧ job.cancelling := by
  obtain ⟨job, hj, hterm, hreg, ⟨-, -, -, c, rfl⟩ | ⟨-, -, rfl⟩⟩ := requestCancel_ok h
  · refine ⟨(job.asked s.now actor).moved .cancelled c, ?_, asked_cancelRequestedAt job s.now actor, rfl⟩
    exact (Db.get?_put s.db hj _ [] id).trans (if_pos rfl)
  · refine ⟨job.asked s.now actor, ?_, asked_cancelRequestedAt job s.now actor, by rw [asked_status]; exact hreg⟩
    exact (Db.get?_put s.db hj _ [] id).trans (if_pos rfl)

/-- A request is refused exactly in the terminal and registry statuses, and
after one that returned no later entry of the job's log enters REGISTERING or
PROMOTING, in this attempt or a later one. -/
theorem cancel_is_final (P : Platform) (cfg : Settings) (s : System) (id : JobId) (actor : String) :
    (∀ job, s.db.jobs.get? id = some job →
      ((∃ e, requestCancel s.db s.now id actor = .error e ∧ e.cls = .jobNotCancellable) ↔
        job.status.terminal = true ∨ job.status = .registering ∨ job.status = .promoting) ∧
      ((∃ r, requestCancel s.db s.now id actor = .ok r) ↔
        ¬ (job.status.terminal = true ∨ job.status = .registering ∨ job.status = .promoting))) ∧
    ∀ db immediate, requestCancel s.db s.now id actor = .ok (db, immediate) →
      ∀ t, Steps (step P cfg) Free { s with db } t →
        ∃ later, t.db.eventsOf id = db.eventsOf id ++ later ∧
          ∀ e ∈ later, e.toStatus ≠ .registering ∧ e.toStatus ≠ .promoting := by
  have hreg : ∀ st : JobStatus, st.inRegistryStage = true ↔ st = .registering ∨ st = .promoting := by
    intro st; cases st <;> simp [JobStatus.inRegistryStage]
  refine ⟨fun job hj => ?_, fun db immediate h t ht => ?_⟩
  · rw [← hreg]
    rcases requestCancel_accepted s.now actor hj with ⟨hterm, hr, db, imm, hok⟩ | ⟨hr, e, herr, hcls⟩
    · rw [hok]; simp [hterm, hr]
    · rw [herr]; simp [hr, hcls]
  · obtain ⟨job, hj, hc⟩ := cancelling_of_requestCancel h
    obtain ⟨later, hl, hlater⟩ := cancelling_run ht (s := { s with db }) hj hc
    refine ⟨later, hl, fun e he => ?_⟩
    have := hlater e he
    constructor <;> intro h' <;> rw [h'] at this <;> cases this

end

/-- A job that a cancellation was requested for fails transiently and is claimed again. -/
def requeuesCancelled (s : System) : Bool :=
  match requestCancel s.db s.now "a1" "oncall" with
  | .ok (db, false) => ((runs (step (.postgres id) .defaults) Free { s with db }
      [.finish "t1" (.raised ⟨.registryUnavailable, "timed out", []⟩), .handle "t1", .record "t1", .advance 1000000,
        .claim .message 1000000 "a1" "w2" "t2"]).bind fun t =>
      (t.db.jobs.get? "a1").map fun job => (job.status, job.attempt)) == some (.dataPreparing, 2)
  | _ => false

/-- A job whose attempt is requeued and claimed again after the request. -/
theorem cancel_is_final_requeued : ∃ (s : System) (db : Db) (t : System),
    requestCancel s.db s.now "a1" "oncall" = .ok (db, false) ∧
    Steps (step (.postgres id) .defaults) Free { s with db } t ∧
    (t.db.jobs.get? "a1").map (fun job => (job.status, job.attempt)) = some (.dataPreparing, 2) ∧
    ∃ later, t.db.eventsOf "a1" = db.eventsOf "a1" ++ later ∧
      ∀ e ∈ later, e.toStatus ≠ .registering ∧ e.toStatus ≠ .promoting := by
  obtain ⟨s, -, hs⟩ := Steps.exists_of_runs (step (.postgres id) .defaults) Free (init cellLoad)
    [.submit "a1" (drift "e1") "oncall", .claim .message 0 "a1" "w1" "t1", .start "t1"]
    requeuesCancelled (by decide)
  unfold requeuesCancelled at hs
  split at hs
  · rename_i db hc
    rw [beq_iff_eq] at hs
    obtain ⟨t, ht, hjob⟩ := Option.bind_eq_some_iff.mp hs
    have hrun := Steps.of_runs ht
    exact ⟨s, db, t, hc, hrun, hjob, (cancel_is_final (.postgres id) .defaults s "a1" "oncall").2 db false hc t hrun⟩
  · cases hs

end System

end OranAdapt
