import OranAdapt.Leases

/-!
# Stops in the registry stages

A job whose attempt is stopped from outside while it is registering or
promoting may have changed the registry, so it must not run again. Losing the
process, the lease or the lock ends it FAILED for reconciliation; a drain
requeues it whatever its stage. While no drained attempt is recorded in a
registry stage, no such job is ever queued again.
-/

namespace OranAdapt

open Runs

/-- The errors an attempt is stopped with from outside. -/
def ErrorClass.outside : ErrorClass → Bool
  | .jobDrained | .jobWorkerLost | .jobLeaseLost => true
  | _ => false

/-- The attempt was stopped from outside: its process or its worker is gone,
its lease is lost, or the worker is draining. -/
def Phase.stoppedOutside : Phase → Bool
  | .closed => true
  | .stopping e | .ended (.raised e) | .handling (.raised e) => e.cls.outside
  | _ => false

theorem PhaseStep.stoppedOutside {p p' : Phase} (h : PhaseStep p p') (hp : p.stoppedOutside = true) :
    p'.stoppedOutside = true := by
  cases h with
  | same => exact hp
  | started => cases hp
  | left => cases hp
  | halted e => exact hp
  | handled o =>
    cases o with
    | raised e => exact hp
    | returned | crashed => cases hp
  | staged e lastStage he => simp [Phase.stoppedOutside, he, ErrorClass.outside] at hp
  | closed => rfl

theorem Phase.records_of_stopped {p : Phase} (hp : p.stoppedOutside = true) : p.records = none := by
  cases hr : p.records with
  | none => rfl
  | some t =>
    unfold records at hr
    split at hr
    · cases hp
    · cases hp
    · rename_i e
      simp only [stoppedOutside] at hp
      cases hc : e.cls <;> simp_all [ErrorClass.outside]
    · cases hp
    · cases hr

theorem Phase.settles_of_stopped {p : Phase} (hp : p.stoppedOutside = true) {e : AdaptationError}
    (hs : p.settles = some e) : e.cls = .jobDrained ∨ e.cls = .jobWorkerLost := by
  rw [Phase.settles_eq hs] at hp
  simp only [stoppedOutside] at hp
  rw [Phase.settles_eq hs] at hs
  simp only [settles] at hs
  cases hc : e.cls <;> simp_all [ErrorClass.outside]

theorem forReconciliation_abandoned {job : Job} {by_ : JobId} (h : job.status.inRegistryStage = true) :
    (job.abandoned by_).forReconciliation := by
  refine ⟨rfl, abandonedError job.status by_, rfl, ?_⟩
  simp only [abandonedError, h, if_true, ErrorDict.needsReconciliation, Context.lookup_set, decide_true]

theorem JobStatus.not_queued_of_registry {s : JobStatus} (h : s.inRegistryStage = true) : s ≠ .queued := by
  rintro rfl; cases h

theorem JobStatus.not_terminal_of_registry {s : JobStatus} (h : s.inRegistryStage = true) : s.terminal = false :=
  not_terminal_of_active (active_of_registry h)

section
variable {cfg : Settings} {s : System} {id : JobId} {job job' : Job} {act : Action} {evs : List AdaptationEvent}

theorem Move.forReconciliation (hm : Move cfg s id job act job' evs) (h : job.forReconciliation) :
    job'.forReconciliation := by
  have hterm : job.status.terminal = true := by rw [h.1]; rfl
  have stuck {st : JobStatus} (hmv : job.status.mayMove st = true) : False := by
    rw [JobStatus.mayMove_terminal hterm] at hmv; cases hmv
  have settledStuck {now : Time} {j : Job} {evs : List AdaptationEvent} {ended : Bool} {old : Job}
      (hs : Settled now id old j evs ended) (hold : old.status = job.status) : False := by
    cases hs <;> (rename_i hmv; rw [hold] at hmv; exact stuck hmv)
  cases hm with
  | kept | published | unpublished | renewed => exact h
  | asked actor ht => rw [ht] at hterm; cases hterm
  | withdrawn actor c hq => rw [hq] at hterm; cases hterm
  | claimed source read owner token hc => rw [(claimable_iff.mp hc).1] at hterm; cases hterm
  | reported token toStatus message a ha hid hp hf hmv => exact (stuck hmv).elim
  | recorded token a toStatus c ha hid ht hp hmv => exact (stuck hmv).elim
  | settled token a e j evs ended ha hid ht hp hs => exact (settledStuck (settle_ok hs).1 rfl).elim
  | reaped token _ _ ended hsel ht hs => exact (settledStuck hs rfl).elim
  | overdue c hq => rw [hq] at hterm; cases hterm
  | takenOver newId event actor lock hlock hexp hid ht => rw [ht] at hterm; cases hterm

end

namespace System

/-- A drained attempt is about to be recorded while its job is registering or promoting. -/
def recordsDrained (s : System) : Action → Bool
  | .record token =>
    match s.attempts.get? token with
    | some a => a.phase.settles.any (fun e => e.cls == .jobDrained) &&
        (s.db.jobs.get? a.claim.jobId).any fun job => job.heldBy a.claim && job.status.inRegistryStage
    | none => false
  | _ => false

def Stranded (s : System) (job : Job) : Prop :=
  job.status.inRegistryStage = true ∧ ∃ token a, job.leaseToken = some token ∧ s.attempts.get? token = some a ∧
    a.phase.stoppedOutside = true

/-- The step stopped the job's attempt from outside: the attempt's process or
worker is gone, its lease is lost or the worker is draining, or the reaper or
a submission took the job's lease away. -/
def StopsOutside (id : JobId) (s : System) (act : Action) (s' : System) : Prop :=
  (∃ job', s'.db.jobs.get? id = some job' ∧ Stranded s' job') ∨
  (((∃ token, act = .reapLease id token) ∨ ∃ newId event actor, act = .submit newId event actor) ∧
    ∃ job job', s.db.jobs.get? id = some job ∧ s'.db.jobs.get? id = some job' ∧
      job.leaseToken ≠ none ∧ job'.leaseToken = none)

section
variable {P : Platform} {cfg : Settings} {s s' t : System} {id : JobId} {job job' : Job} {act : Action}
  {evs : List AdaptationEvent}

theorem stranded_step (hs : s.Sound) (hj : s.db.jobs.get? id = some job) (h : Stranded s job)
    (hc : recordsDrained s act = false) (hst : step P cfg s act = some s') (hm : Move cfg s id job act job' evs) :
    Stranded s' job' ∨ job'.forReconciliation := by
  obtain ⟨hreg, token, a, ht, ha, hstop⟩ := h
  obtain ⟨a', ha', hf⟩ := attempt_kept hst ha
  have hstop' := hf.2.stoppedOutside hstop
  -- the acting attempt, when it is the one whose lease the job carries
  have acting {token' : Token} {b : Attempt} (hb : s.attempts.get? token' = some b)
      (htb : job.leaseToken = some b.claim.leaseToken) : b = a := by
    rw [hs.keyed token' b hb, ht, Option.some.injEq] at htb
    rw [← htb, ha] at hb
    exact (Option.some.inj hb).symm
  cases hm with
  | kept | published | unpublished | renewed => exact .inl ⟨hreg, token, a', ht, ha', hstop'⟩
  | asked actor ht' hr => rw [hreg] at hr; cases hr
  | withdrawn actor c hq => exact absurd hq (JobStatus.not_queued_of_registry hreg)
  | claimed source read owner token' hcl =>
    exact absurd (claimable_iff.mp hcl).1 (JobStatus.not_queued_of_registry hreg)
  | reported token' toStatus message b hb hid hp hf' hmv =>
    exact .inl ⟨JobStatus.registry_stays hmv hreg hp, token, a', ht, ha', hstop'⟩
  | recorded token' b toStatus c hb hid htb hp =>
    rw [acting hb htb, Phase.records_of_stopped hstop] at hp; cases hp
  | settled token' b e j evs ended hb hid htb hp hset =>
    right
    have hba := acting hb htb
    subst hba
    rcases Phase.settles_of_stopped hstop hp with hd | hw
    · subst hid
      have hheld : job.heldBy b.claim = true := heldBy_iff.mpr htb
      simp [recordsDrained, hb, hp, hd, hj, hheld, hreg] at hc
    · obtain ⟨hst', e', he', hn⟩ := (settle_ok hset).2 hw hreg
      exact ⟨hst', e', he', hn⟩
  | reaped token' _ _ ended hsel htb hset hr => exact .inr (hr hreg)
  | overdue c hq => exact absurd hq (JobStatus.not_queued_of_registry hreg)
  | takenOver newId => exact .inr (forReconciliation_abandoned hreg)

theorem taken_forReconciliation (hreg : job.status.inRegistryStage = true) (hm : Move cfg s id job act job' evs)
    (hact : (∃ token, act = .reapLease id token) ∨ ∃ newId event actor, act = .submit newId event actor)
    (hl : job.leaseToken ≠ none) (hl' : job'.leaseToken = none) : job'.forReconciliation := by
  cases hm with
  | kept => exact absurd hl' hl
  | reaped token' _ _ ended hsel htb hset hr => exact hr hreg
  | takenOver newId => exact forReconciliation_abandoned hreg
  | _ => rcases hact with ⟨_, h⟩ | ⟨_, _, _, h⟩ <;> cases h

/-- What is left of a job whose attempt was stopped in a registry stage. -/
def Spent (s : System) (id : JobId) : Prop :=
  ∃ job, s.db.jobs.get? id = some job ∧ (Stranded s job ∨ job.forReconciliation)

theorem spent_run (hs : s.Sound) (h : Spent s id)
    (hrun : Steps (step P cfg) (fun s act => recordsDrained s act = false) s t) : t.Sound ∧ Spent t id := by
  refine hrun.inv (fun u => u.Sound ∧ Spent u id) ?_ ⟨hs, h⟩
  rintro u act u' ⟨hu, job, hj, hsp⟩ hc hst
  obtain ⟨job', evs, hj', -, hm⟩ := (step_effect hst).old id job hj
  refine ⟨sound_step hu hst, job', hj', ?_⟩
  rcases hsp with hstr | hrec
  · exact stranded_step hu hj hstr hc hst hm
  · exact .inr (hm.forReconciliation hrec)

/-- Whoever reaps a stranded job ends it for reconciliation, and somebody can:
its lease expires, is selected and taken. -/
theorem stranded_can_end (hs : s.Sound) (hj : s.db.jobs.get? id = some job) (h : Stranded s job) :
    ∃ u job', Steps (step P cfg) (fun s act => recordsDrained s act = false) s u ∧
      u.db.jobs.get? id = some job' ∧ job'.forReconciliation := by
  obtain ⟨hreg, token, a, ht, ha, -⟩ := h
  have hl := hs.leased id job hj
  obtain ⟨expires, he⟩ := Option.isSome_iff_exists.mp (hl.expiry.trans (by rw [ht]; rfl))
  -- let the lease expire, select it, and take it
  let s₁ : System := { s with now := s.now + (expires + 1) }
  have h₁ : step P cfg s (.advance (expires + 1)) = some s₁ := rfl
  let s₂ : System := { s₁ with selected := s₁.selected ++ expiredLeases s₁.db s₁.now }
  have h₂ : step P cfg s₁ (.reapSelect s₁.now) = some s₂ := by simp [step, s₂]
  have hsel : (id, token) ∈ s₂.selected := by
    refine List.mem_append_right _ (mem_expiredLeases.mpr ⟨job, expires, hj, ht, he, ?_, ?_⟩)
    · exact Nat.lt_of_lt_of_le (Nat.lt_succ_self _) (Nat.le_add_left _ _)
    · exact JobStatus.active_of_registry hreg
  have hreap : ∃ db, reapLease cfg s₂.db s₂.now id token = .ok (some db) := by
    have hu : s.db.jobs.updateWhere? id (fun j => j.leaseToken == some token) Job.unleased =
        some (s.db.jobs.modify id Job.unleased) := by
      simp [Table.updateWhere?, hj, ht]
    have hload : loadJob { s.db with jobs := s.db.jobs.modify id Job.unleased } id = .ok job.unleased :=
      loadJob_ok.mpr (by simp [hj])
    have hmv : job.unleased.status.mayMove .failed = true :=
      JobStatus.mayMove_failed (JobStatus.not_terminal_of_registry hreg)
    have hregu : job.unleased.status.inRegistryStage = true := hreg
    unfold reapLease
    simp only [s₂, s₁, hu, hload, bind, Except.bind, lose, hregu, if_true, applyTransition_of _ hmv]
    exact ⟨_, rfl⟩
  obtain ⟨db, hdb⟩ := hreap
  let s₃ : System := { s₂ with selected := s₂.selected.erase (id, token), db }
  have h₃ : step P cfg s₂ (.reapLease id token) = some s₃ := by
    simp only [step, hsel, if_true, hdb, s₃]
  obtain ⟨j, job', evs, ended, hj', -, -, hr, hw, -⟩ := reapLease_ok hdb
  rw [show s₂.db = s.db from rfl, hj] at hj'; cases hj'
  have hrun : Steps (step P cfg) (fun s act => recordsDrained s act = false) s s₃ :=
    Steps.tail (Steps.tail (Steps.tail (.refl s) rfl h₁) rfl h₂) rfl h₃
  exact ⟨s₃, job', hrun, hw.get, hr hreg⟩

/-- In every run in which no drained attempt is recorded in a registry stage,
a job whose attempt was stopped from outside while registering or promoting is
never queued again: it keeps its stage until it is recorded FAILED for
reconciliation, it ends no other way, and it can always end so. -/
theorem no_rerun_after_stop {models : Table ModelId ModelMetadata}
    (h : Steps (step P cfg) (fun s act => recordsDrained s act = false) (init models) s)
    (hj : s.db.jobs.get? id = some job) (hreg : job.status.inRegistryStage = true)
    (hst : step P cfg s act = some s') (hstop : StopsOutside id s act s')
    (hrun : Steps (step P cfg) (fun s act => recordsDrained s act = false) s' t) :
    ∃ job', t.db.jobs.get? id = some job' ∧ job'.status ≠ .queued ∧
      (job'.status.terminal = true → job'.forReconciliation) ∧
      ∃ u job'', Steps (step P cfg) (fun s act => recordsDrained s act = false) t u ∧
        u.db.jobs.get? id = some job'' ∧ job''.forReconciliation := by
  have hs := sound_of_run h
  have hspent : Spent s' id := by
    rcases hstop with ⟨job', hj', hstr⟩ | ⟨hact, job₀, job', hj₀, hj', hl, hl'⟩
    · exact ⟨job', hj', .inl hstr⟩
    · rw [hj] at hj₀; cases hj₀
      obtain ⟨j, evs, hg, -, hm⟩ := (step_effect hst).old id job hj
      rw [hg] at hj'; cases hj'
      exact ⟨_, hg, .inr (taken_forReconciliation hreg hm hact hl hl')⟩
  obtain ⟨ht, job', hj', hsp⟩ := spent_run (sound_step hs hst) hspent hrun
  refine ⟨job', hj', ?_⟩
  rcases hsp with hstr | hrec
  · refine ⟨JobStatus.not_queued_of_registry hstr.1, fun hterm => ?_, stranded_can_end ht hj' hstr⟩
    rw [JobStatus.not_terminal_of_registry hstr.1] at hterm; cases hterm
  · refine ⟨by rw [hrec.1]; decide, fun _ => hrec, t, job', .refl t, hj', hrec⟩

end

def promoting : List Action :=
  [.submit "a1" (drift "e1") "oncall", .claim .message 0 "a1" "w1" "t1", .start "t1",
    .report "t1" .evaluatingVersions "", .report "t1" .reuseDecision "", .report "t1" .promoting ""]

def strandedAt (s : System) (id : JobId) (token : Token) : Bool :=
  (s.db.jobs.get? id).any (fun job => job.status.inRegistryStage && job.leaseToken == some token) &&
    (s.attempts.get? token).any fun a => a.phase.stoppedOutside

theorem stranded_of_strandedAt {s : System} {id : JobId} {token : Token} (h : strandedAt s id token = true) :
    ∃ job, s.db.jobs.get? id = some job ∧ Stranded s job := by
  simp only [strandedAt, Bool.and_eq_true, Option.any_eq_true] at h
  obtain ⟨⟨job, hj, hreg, ht⟩, a, ha, hstop⟩ := h
  exact ⟨job, hj, hreg, token, a, by simpa using ht, ha, hstop⟩

theorem no_rerun_after_stop_died : ∃ (s t : System) (job' : Job),
    Steps (step (.sqlite id) .defaults) (fun s act => recordsDrained s act = false) (init cellLoad) s ∧
    (s.db.jobs.get? "a1").map Job.status = some .promoting ∧
    t.db.jobs.get? "a1" = some job' ∧ job'.status = .failed ∧
    (job'.status.terminal = true → job'.forReconciliation) := by
  obtain ⟨s, hs, hp⟩ := Steps.exists_of_runs (step (.sqlite id) .defaults) (fun s act => recordsDrained s act = false)
    (init cellLoad) promoting
    (fun s => (s.db.jobs.get? "a1").map Job.status == some .promoting &&
      (step (.sqlite id) .defaults s (.die "t1")).any fun s' => strandedAt s' "a1" "t1" &&
        (runs (step (.sqlite id) .defaults) (fun s act => recordsDrained s act = false) s'
          [.advance 31000000, .reapSelect 31000000, .reapLease "a1" "t1"]).any fun t =>
          (t.db.jobs.get? "a1").map Job.status == some .failed) (by decide)
  simp only [Bool.and_eq_true, beq_iff_eq, Option.any_eq_true] at hp
  obtain ⟨hstatus, s', hst, hstr, t, ht, hfailed⟩ := hp
  obtain ⟨job, hj, hreg⟩ := Option.map_eq_some_iff.mp hstatus
  obtain ⟨job', hj', hne, hterm, -⟩ := no_rerun_after_stop hs hj (by rw [hreg]; rfl) hst
    (.inl (stranded_of_strandedAt hstr)) (Steps.of_runs ht)
  rw [hj', Option.map_some, Option.some.injEq] at hfailed
  exact ⟨s, t, job', hs, hstatus, hj', hfailed, hterm⟩

/-- A worker drained while its job is promoting puts the job back in the queue. -/
theorem rerun_after_drain : ∃ (s s' t : System),
    Steps (step (.sqlite id) .defaults) Free (init cellLoad) s ∧
    (s.db.jobs.get? "a1").map Job.status = some .promoting ∧
    step (.sqlite id) .defaults s (.heartbeat "t1" 0 true) = some s' ∧
    StopsOutside "a1" s (.heartbeat "t1" 0 true) s' ∧ Steps (step (.sqlite id) .defaults) Free s' t ∧
    (t.db.jobs.get? "a1").map Job.status = some .queued := by
  obtain ⟨s, hs, hp⟩ := Steps.exists_of_runs (step (.sqlite id) .defaults) Free (init cellLoad) promoting
    (fun s => (s.db.jobs.get? "a1").map Job.status == some .promoting &&
      (step (.sqlite id) .defaults s (.heartbeat "t1" 0 true)).any fun s' => strandedAt s' "a1" "t1" &&
        (runs (step (.sqlite id) .defaults) Free s' [.halt "t1", .handle "t1", .record "t1"]).any fun t =>
          (t.db.jobs.get? "a1").map Job.status == some .queued) (by decide)
  simp only [Bool.and_eq_true, beq_iff_eq, Option.any_eq_true] at hp
  obtain ⟨hstatus, s', hst, hstr, t, ht, hqueued⟩ := hp
  exact ⟨s, s', t, hs, hstatus, hst, .inl (stranded_of_strandedAt hstr), Steps.of_runs ht, hqueued⟩

end System

end OranAdapt
