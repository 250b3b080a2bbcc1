import OranAdapt.Frame

/-!
# Leases and the event log

What holds of every job in every reachable state: its lease agrees with its
status, its events are a path of the state machine, and the worker whose token
it carries once claimed it. A token that has left a job never comes back, so
every write fenced by it is refused from then on.
-/

namespace OranAdapt

/-! ## Rows -/

/-- The lease columns agree with the status: a token exactly while the job is
active, an expiry exactly with a token. -/
structure Job.WellLeased (job : Job) : Prop where
  token : job.leaseToken.isSome = job.status.active
  expiry : job.leaseExpiresAt.isSome = job.leaseToken.isSome

@[simp] theorem asked_status (job : Job) (now : Time) (actor : String) : (job.asked now actor).status = job.status := by
  unfold Job.asked; split <;> rfl

@[simp] theorem asked_leaseToken (job : Job) (now : Time) (actor : String) :
    (job.asked now actor).leaseToken = job.leaseToken := by
  unfold Job.asked; split <;> rfl

@[simp] theorem asked_leaseExpiresAt (job : Job) (now : Time) (actor : String) :
    (job.asked now actor).leaseExpiresAt = job.leaseExpiresAt := by
  unfold Job.asked; split <;> rfl

@[simp] theorem asked_modelId (job : Job) (now : Time) (actor : String) : (job.asked now actor).modelId = job.modelId := by
  unfold Job.asked; split <;> rfl

@[simp] theorem asked_tenant (job : Job) (now : Time) (actor : String) : (job.asked now actor).tenant = job.tenant := by
  unfold Job.asked; split <;> rfl

section
variable {now : Time} {id : JobId} {job job' : Job} {evs : List AdaptationEvent} {ended : Bool}

theorem Settled.status (h : Settled now id job job' evs ended) :
    (ended = false ∧ job'.status = .queued) ∨ (ended = true ∧ job'.status = .failed) := by
  cases h
  · exact .inl ⟨rfl, rfl⟩
  · exact .inr ⟨rfl, rfl⟩
  · exact .inr ⟨rfl, rfl⟩

theorem Settled.same (h : Settled now id job job' evs ended) :
    job'.leaseToken = job.leaseToken ∧ job'.leaseExpiresAt = job.leaseExpiresAt ∧ job'.modelId = job.modelId ∧
      job'.tenant = job.tenant ∧ job'.cancelRequestedAt = job.cancelRequestedAt := by
  cases h <;> exact ⟨rfl, rfl, rfl, rfl, rfl⟩

end

theorem wellLeased_of_ended {job : Job} (ht : job.leaseToken = none) (he : job.leaseExpiresAt = none)
    (hs : job.status.active = false) : job.WellLeased :=
  ⟨by rw [ht, hs]; rfl, by rw [ht, he]; rfl⟩

theorem Job.WellLeased.expiry_none {job : Job} (h : job.WellLeased) (ht : job.leaseToken = none) :
    job.leaseExpiresAt = none := by
  have := h.expiry
  rw [ht] at this
  exact Option.isNone_iff_eq_none.mp (by simpa using this)

theorem JobStatus.active_of_terminal {s : JobStatus} (h : s.terminal = true) : s.active = false := by
  simp [JobStatus.active, h]

section
variable {cfg : Settings} {s : System} {id : JobId} {job job' : Job} {act : Action} {evs : List AdaptationEvent}

theorem Move.wellLeased (hm : Move cfg s id job act job' evs) (h : job.WellLeased) : job'.WellLeased := by
  cases hm with
  | kept | published | unpublished => exact ⟨h.token, h.expiry⟩
  | asked actor ht hr => exact ⟨by simpa using h.token, by simpa using h.expiry⟩
  | withdrawn actor c hq hl =>
    refine wellLeased_of_ended ?_ ?_ rfl
    · simpa [Job.moved] using hl
    · simpa [Job.moved] using h.expiry_none hl
  | claimed => exact ⟨rfl, rfl⟩
  | reported token toStatus message a ha hid hp hf hm =>
    have ht := (checkFence_ok.mp hf).1
    refine ⟨?_, h.expiry⟩
    simp only [Job.moved, ht, Option.isSome_some, JobStatus.active_of_pipeline hp]
  | renewed token read drain a ha hid ht =>
    refine ⟨h.token, ?_⟩
    simp only [Job.renewed, ht, Option.isSome_some]
  | recorded token a toStatus c ha hid ht hp =>
    exact wellLeased_of_ended rfl rfl (JobStatus.active_of_terminal (Phase.records_terminal hp))
  | settled token a e j evs ended ha hid ht hp hs =>
    refine wellLeased_of_ended rfl rfl ?_
    rcases (settle_ok hs).1.status with ⟨-, hst⟩ | ⟨-, hst⟩ <;> simp only [Job.unleased, hst] <;> rfl
  | reaped token _ _ ended hsel ht hs =>
    refine wellLeased_of_ended hs.same.1 hs.same.2.1 ?_
    rcases hs.status with ⟨-, hst⟩ | ⟨-, hst⟩ <;> rw [hst] <;> rfl
  | overdue c hq hl => exact wellLeased_of_ended hl (h.expiry_none hl) rfl
  | takenOver newId event actor lock => exact wellLeased_of_ended rfl rfl rfl

/-- A move keeps the job's token, clears it, or is a claim with a token no
attempt ever had. -/
theorem Move.token (hm : Move cfg s id job act job' evs) :
    job'.leaseToken = job.leaseToken ∨ job'.leaseToken = none ∨
    ∃ source read owner token, act = .claim source read id owner token ∧ s.attempts.get? token = none ∧
      job'.leaseToken = some token := by
  cases hm with
  | kept | published | unpublished | reported | renewed | overdue => exact .inl rfl
  | asked | withdrawn => exact .inl (by simp [Job.moved])
  | claimed source read owner token hc hfresh => exact .inr (.inr ⟨source, read, owner, token, rfl, hfresh, rfl⟩)
  | recorded | settled | takenOver => exact .inr (.inl rfl)
  | reaped token _ _ ended hsel ht hs => exact .inr (.inl hs.same.1)

theorem Move.fixed (hm : Move cfg s id job act job' evs) : job'.modelId = job.modelId ∧ job'.tenant = job.tenant := by
  cases hm with
  | asked | withdrawn => simp [Job.moved]
  | settled token a e j evs ended ha hid ht hp hs => exact ⟨(settle_ok hs).1.same.2.2.1, (settle_ok hs).1.same.2.2.2.1⟩
  | reaped token _ _ ended hsel ht hs => exact ⟨hs.same.2.2.1, hs.same.2.2.2.1⟩
  | _ => exact ⟨rfl, rfl⟩

end

/-! ## The log -/

/-- A log that leads from RECEIVED to a status by transitions the state machine allows. -/
inductive Path : List AdaptationEvent → JobStatus → Prop
  | received (e : AdaptationEvent) (hf : e.fromStatus = none) (ht : e.toStatus = .received) : Path [e] .received
  | move {log : List AdaptationEvent} {cur : JobStatus} (h : Path log cur) (e : AdaptationEvent)
      (hf : e.fromStatus = some cur) (hm : cur.mayMove e.toStatus = true) : Path (log ++ [e]) e.toStatus

theorem Path.open {log : List AdaptationEvent} {cur : JobStatus} (h : Path log cur) (hc : cur.terminal = false) :
    ∀ e ∈ log, e.toStatus.terminal = false := by
  induction h with
  | received e hf ht =>
    intro e' he'
    rw [List.mem_singleton.mp he', ht]; rfl
  | move h e hf hm ih =>
    intro e' he'
    rcases List.mem_append.mp he' with he' | he'
    · exact ih (JobStatus.not_terminal_of_mayMove hm) e' he'
    · rw [List.mem_singleton.mp he']; exact hc

theorem Path.terminal_last {log before after : List AdaptationEvent} {cur : JobStatus} {e : AdaptationEvent}
    (h : Path log cur) (hl : log = before ++ e :: after) (ht : e.toStatus.terminal = true) : after = [] := by
  cases h with
  | received e' =>
    cases before with
    | nil => cases hl; rfl
    | cons b bs => simp at hl
  | move h e' hf hm =>
    rcases List.eq_nil_or_concat after with rfl | ⟨init, x, rfl⟩
    · rfl
    have hin : before ++ e :: (init ++ [x]) = (before ++ e :: init) ++ [x] := by simp
    rw [List.concat_eq_append, hin] at hl
    obtain ⟨hlog, -⟩ := List.append_inj' hl rfl
    have hopen := h.open (JobStatus.not_terminal_of_mayMove hm) e (by rw [hlog]; simp)
    rw [ht] at hopen; cases hopen

section
variable {cfg : Settings} {s : System} {id : JobId} {job job' : Job} {act : Action} {evs : List AdaptationEvent}
  {log : List AdaptationEvent}

theorem Path.moved (h : Path log job.status) {toStatus : JobStatus} {c : Change} (hm : job.status.mayMove toStatus = true) :
    Path (log ++ [job.moveEvent id toStatus c]) toStatus :=
  h.move (job.moveEvent id toStatus c) rfl hm

theorem Settled.path {now : Time} {ended : Bool} (hs : Settled now id job job' evs ended) (h : Path log job.status) :
    Path (log ++ evs) job'.status := by
  cases hs with
  | requeued message delay charge lost hm => exact h.moved hm
  | failed c hm => exact h.moved hm
  | quarantined c hm => exact h.moved hm

theorem Move.path (hm : Move cfg s id job act job' evs) (h : Path log job.status) : Path (log ++ evs) job'.status := by
  cases hm with
  | kept | published | unpublished | renewed => rw [List.append_nil]; exact h
  | asked => rw [List.append_nil, asked_status]; exact h
  | withdrawn actor c hq hl =>
    rw [← asked_status job s.now actor] at h
    exact h.moved (by rw [asked_status, hq]; rfl)
  | claimed source read owner token hc =>
    have hq := (claimable_iff.mp hc).1
    have h₁ := h.move ((job.claimed owner token (read + cfg.jobLeaseTtlS)).moveEvent id .validating
      { message := "event accepted, attempt " ++ toString (job.attempt + 1) }) rfl (by rw [hq]; rfl)
    have h₂ := h₁.move (((job.claimed owner token (read + cfg.jobLeaseTtlS)).moved .validating
      { message := "event accepted, attempt " ++ toString (job.attempt + 1) }).moveEvent id .dataPreparing
      { message := "pipeline started" }) rfl rfl
    rw [List.append_assoc] at h₂
    exact h₂
  | reported token toStatus message a ha hid hp hf hm => exact h.moved hm
  | recorded token a toStatus c ha hid ht hp hm => exact h.moved hm
  | settled token a e j evs ended ha hid ht hp hs => exact (settle_ok hs).1.path h
  | reaped token _ _ ended hsel ht hs => exact hs.path h
  | overdue c hq hl => exact h.moved (by rw [hq]; rfl)
  | takenOver newId event actor lock hlock hexp hid ht => exact h.moved (JobStatus.mayMove_failed ht)

theorem submitEvents_path (id : JobId) (job : Job) (hr : job.status = .received) :
    Path (submitEvents id job) .queued :=
  (Path.received _ rfl rfl).move (job.moveEvent id .queued _) (by rw [Job.moveEvent, hr]) rfl

end

/-! ## Every reachable state -/

namespace System

section
variable {P : Platform} {cfg : Settings} {s s' : System}

theorem claim_won {source : Source} {read : Time} {id : JobId} {owner : String} {token : Token}
    (h : s.claimStep cfg source read id owner token = some s') :
    s'.db = s.db ∨ ∃ c, tryClaim cfg s.db read s.now id owner token = .ok (some (s'.db, c)) ∧
      s.attempts.insert? token (newAttempt c) = some s'.attempts := by
  unfold claimStep at h
  split at h
  · simp only at h
    split at h
    · rename_i db c hc
      obtain ⟨attempts, hi, rfl⟩ := Option.map_eq_some_iff.mp h
      exact .inr ⟨c, hc, hi⟩
    · cases h; exact .inl rfl
  · cases h

/-- What every reachable state satisfies. -/
structure Sound (s : System) : Prop where
  leased : ∀ id job, s.db.jobs.get? id = some job → job.WellLeased
  logged : ∀ id job, s.db.jobs.get? id = some job → Path (s.db.eventsOf id) job.status
  unlogged : ∀ id, s.db.jobs.get? id = none → s.db.eventsOf id = []
  keyed : ∀ token a, s.attempts.get? token = some a → a.claim.leaseToken = token
  /-- The worker whose token a job carries claimed that job. -/
  owned : ∀ id job token, s.db.jobs.get? id = some job → job.leaseToken = some token →
    ∃ a, s.attempts.get? token = some a ∧ a.claim.jobId = id ∧ a.claim.tenant = job.tenant ∧
      a.claim.modelId = job.modelId

theorem sound_init (models : Table ModelId ModelMetadata) : (init models).Sound where
  leased _ _ h := nomatch h
  logged _ _ h := nomatch h
  unlogged _ _ := rfl
  keyed _ _ h := nomatch h
  owned _ _ _ h := nomatch h

theorem owned_step {act : Action} (hs : s.Sound) (h : step P cfg s act = some s') {id : JobId} {job job' : Job}
    {token : Token} {evs : List AdaptationEvent} (hj : s.db.jobs.get? id = some job)
    (hj' : s'.db.jobs.get? id = some job') (hm : Move cfg s id job act job' evs) (ht : job'.leaseToken = some token) :
    ∃ a, s'.attempts.get? token = some a ∧ a.claim.jobId = id ∧ a.claim.tenant = job'.tenant ∧
      a.claim.modelId = job'.modelId := by
  obtain ⟨hmodel, htenant⟩ := hm.fixed
  rcases hm.token with he | he | ⟨source, read, owner, token', rfl, hfresh, he⟩
  · rw [he] at ht
    obtain ⟨a, ha, hid, hten, hmod⟩ := hs.owned id job token hj ht
    obtain ⟨a', ha', hf⟩ := attempt_kept h ha
    exact ⟨a', ha', by rw [hf.1, hid], by rw [hf.1, htenant, hten], by rw [hf.1, hmodel, hmod]⟩
  · rw [ht] at he; cases he
  · rw [ht] at he; cases he
    rcases claim_won h with hdb | ⟨c, hc, hi⟩
    · -- a claim that wrote nothing: the token was on the row before
      rw [hdb, hj] at hj'; cases hj'
      obtain ⟨a, ha, -⟩ := hs.owned id job token hj ht
      rw [hfresh] at ha; cases ha
    · obtain ⟨job₀, hj₀, -, -, hceq, -⟩ := tryClaim_ok hc
      rw [hj] at hj₀; cases hj₀
      refine ⟨newAttempt c, by rw [Table.get?_insert? hi, if_pos rfl], ?_, ?_, ?_⟩
      · rw [hceq]; rfl
      · rw [hceq, htenant]; rfl
      · rw [hceq, hmodel]; rfl

theorem sound_step {act : Action} (hs : s.Sound) (h : step P cfg s act = some s') : s'.Sound := by
  have heff := step_effect h
  have hnew : ∀ id job', s.db.jobs.get? id = none → s'.db.jobs.get? id = some job' →
      ∃ event actor, job' = queuedJob (newJob P cfg s.db s.now event actor) ∧
        s'.db.eventsOf id = s.db.eventsOf id ++ submitEvents id (newJob P cfg s.db s.now event actor) := by
    intro id job' hn hj'
    rcases heff.new id hn with ⟨hn', -⟩ | ⟨event, actor, -, hg, he⟩
    · rw [hn'] at hj'; cases hj'
    · rw [hg] at hj'; cases hj'; exact ⟨event, actor, rfl, he⟩
  have hold : ∀ id job job', s.db.jobs.get? id = some job → s'.db.jobs.get? id = some job' →
      ∃ evs, s'.db.eventsOf id = s.db.eventsOf id ++ evs ∧ Move cfg s id job act job' evs := by
    intro id job job' hj hj'
    obtain ⟨j, evs, hg, he, hm⟩ := heff.old id job hj
    rw [hg] at hj'; cases hj'
    exact ⟨evs, he, hm⟩
  refine ⟨fun id job' hj' => ?_, fun id job' hj' => ?_, fun id hn' => ?_, fun token a' ha' => ?_,
    fun id job' token hj' ht => ?_⟩
  · cases hj : s.db.jobs.get? id with
    | none => obtain ⟨event, actor, rfl, -⟩ := hnew id job' hj hj'; exact ⟨rfl, rfl⟩
    | some job =>
      obtain ⟨evs, -, hm⟩ := hold id job job' hj hj'
      exact hm.wellLeased (hs.leased id job hj)
  · cases hj : s.db.jobs.get? id with
    | none =>
      obtain ⟨event, actor, rfl, he⟩ := hnew id job' hj hj'
      rw [he, hs.unlogged id hj, List.nil_append]
      exact submitEvents_path id _ rfl
    | some job =>
      obtain ⟨evs, he, hm⟩ := hold id job job' hj hj'
      rw [he]
      exact hm.path (hs.logged id job hj)
  · cases hj : s.db.jobs.get? id with
    | none =>
      rcases heff.new id hj with ⟨-, he⟩ | ⟨event, actor, -, hg, -⟩
      · rw [he, hs.unlogged id hj]
      · rw [hg] at hn'; cases hn'
    | some job =>
      obtain ⟨j, evs, hg, -⟩ := heff.old id job hj
      rw [hg] at hn'; cases hn'
  · rcases attempt_origin h ha' with ⟨a, ha, hf⟩ | ⟨-, source, read, id, owner, c, rfl, -, hc, rfl⟩
    · rw [hf.1]; exact hs.keyed token a ha
    · obtain ⟨job, -, -, -, hceq, -⟩ := tryClaim_ok hc
      rw [hceq]; rfl
  · cases hj : s.db.jobs.get? id with
    | none => obtain ⟨event, actor, rfl, -⟩ := hnew id job' hj hj'; cases ht
    | some job =>
      obtain ⟨evs, -, hm⟩ := hold id job job' hj hj'
      exact owned_step hs h hj hj' hm ht

theorem sound_of_run {C : System → Action → Prop} {models : Table ModelId ModelMetadata}
    (h : Runs.Steps (step P cfg) C (init models) s) : s.Sound :=
  h.inv Sound (fun _ _ _ hs _ hst => sound_step hs hst) (sound_init models)

end

end System

end OranAdapt
