import OranAdapt.Leases

/-!
# Exactly one outcome

Over any interleaving: the lease agrees with the status, the log of a job is a
path of the state machine with at most one terminal entry, its last, and a
token that was cleared or replaced is refused in every write from then on.
-/

namespace OranAdapt

open Runs

/-- Every write fenced by the claim's token is refused: stage reports,
renewals, outcomes, requeues, and the reaper's update. -/
structure Refused (cfg : Settings) (now : Time) (db : Db) (c : Claim) : Prop where
  report : ∀ toStatus ch db', transition db c.jobId toStatus ch (some c.leaseToken) ≠ .ok db'
  renew : ∀ read, renewLease cfg db read c = none
  record : ∀ toStatus ch release db', record db c toStatus ch release ≠ .ok db'
  settle : ∀ e r, requeueOrEnd cfg db now c e ≠ .ok r
  reap : reapLease cfg db now c.jobId c.leaseToken = .ok none

def Lacks (db : Db) (id : JobId) (token : Token) : Prop :=
  ∀ job, db.jobs.get? id = some job → job.leaseToken ≠ some token

theorem refused_of_lacks {cfg : Settings} {now : Time} {db : Db} {c : Claim} (h : Lacks db c.jobId c.leaseToken) :
    Refused cfg now db c where
  report toStatus ch db' ht := by
    obtain ⟨job, hj, hf, -⟩ := transition_ok ht
    exact h job hj (checkFence_ok.mp hf).1
  renew read := renewLease_none.mpr h
  record toStatus ch release db' hr := by
    obtain ⟨job, hj, ht, -⟩ := record_ok hr
    exact h job hj ht
  settle e := by
    rintro ⟨db', ended⟩ hr
    obtain ⟨job, job', evs, hj, ht, -⟩ := requeueOrEnd_ok hr
    exact h job hj ht
  reap := by
    have hu : db.jobs.updateWhere? c.jobId (fun j => j.leaseToken == some c.leaseToken) Job.unleased = none := by
      rw [Table.updateWhere?_eq_none]
      intro job hj
      simpa using h job hj
    unfold reapLease
    rw [hu]

namespace System

section
variable {P : Platform} {cfg : Settings} {s s' t : System} {id : JobId} {token : Token}

theorem lacks_step {act : Action} (h : step P cfg s act = some s') {a : Attempt} (ha : s.attempts.get? token = some a)
    (hl : Lacks s.db id token) : Lacks s'.db id token := by
  have heff := step_effect h
  intro job' hj' ht
  cases hj : s.db.jobs.get? id with
  | none =>
    rcases heff.new id hj with ⟨hn, -⟩ | ⟨event, actor, -, hg, -⟩
    · rw [hn] at hj'; cases hj'
    · rw [hg] at hj'; cases hj'; cases ht
  | some job =>
    obtain ⟨j, evs, hg, -, hm⟩ := heff.old id job hj
    rw [hg] at hj'; cases hj'
    rcases hm.token with he | he | ⟨source, read, owner, token', -, hfresh, he⟩
    · exact hl job hj (he ▸ ht)
    · rw [ht] at he; cases he
    · rw [ht] at he; cases he
      rw [ha] at hfresh; cases hfresh

theorem lacks_run (h : Steps (step P cfg) Free s t) {a : Attempt} (ha : s.attempts.get? token = some a)
    (hl : Lacks s.db id token) : Lacks t.db id token := by
  have hI := h.inv (fun s => (∃ a, s.attempts.get? token = some a) ∧ Lacks s.db id token) ?_ ⟨⟨a, ha⟩, hl⟩
  · exact hI.2
  · rintro s act s' ⟨⟨a, ha⟩, hl⟩ - hst
    obtain ⟨a', ha', -⟩ := attempt_kept hst ha
    exact ⟨⟨a', ha'⟩, lacks_step hst ha hl⟩

theorem attempt_run {C : System → Action → Prop} (h : Steps (step P cfg) C s t) {a : Attempt}
    (ha : s.attempts.get? token = some a) : ∃ a', t.attempts.get? token = some a' ∧ a'.claim = a.claim := by
  refine h.inv (fun s => ∃ a', s.attempts.get? token = some a' ∧ a'.claim = a.claim) ?_ ⟨a, ha, rfl⟩
  rintro s act s' ⟨b, hb, hc⟩ - hst
  obtain ⟨b', hb', hf⟩ := attempt_kept hst hb
  exact ⟨b', hb', by rw [hf.1, hc]⟩

theorem eventsOf_step {act : Action} (h : step P cfg s act = some s') (id : JobId) :
    ∃ evs, s'.db.eventsOf id = s.db.eventsOf id ++ evs := by
  have heff := step_effect h
  cases hj : s.db.jobs.get? id with
  | none =>
    rcases heff.new id hj with ⟨-, he⟩ | ⟨event, actor, -, -, he⟩
    · exact ⟨[], by rw [he, List.append_nil]⟩
    · exact ⟨_, he⟩
  | some job =>
    obtain ⟨j, evs, -, he, -⟩ := heff.old id job hj
    exact ⟨evs, he⟩

theorem eventsOf_run {C : System → Action → Prop} (h : Steps (step P cfg) C s t) (id : JobId) :
    ∃ evs, t.db.eventsOf id = s.db.eventsOf id ++ evs := by
  refine h.inv (fun u => ∃ evs, u.db.eventsOf id = s.db.eventsOf id ++ evs) ?_ ⟨[], by rw [List.append_nil]⟩
  rintro u act u' ⟨evs, he⟩ - hst
  obtain ⟨evs', he'⟩ := eventsOf_step hst id
  exact ⟨evs ++ evs', by rw [he', he, List.append_assoc]⟩

end

/-- The step recorded an outcome of the job: a terminal entry was appended. -/
def Ends (id : JobId) (s s' : System) : Prop :=
  ∃ e, s'.db.eventsOf id = s.db.eventsOf id ++ [e] ∧ e.toStatus.terminal = true

/-- What "exactly one outcome" means of a state and of what can follow it. -/
structure ExactlyOnce (P : Platform) (cfg : Settings) (s : System) : Prop where
  /-- The token is set exactly in the active statuses. -/
  leased : ∀ id job, s.db.jobs.get? id = some job → (job.leaseToken ≠ none ↔ job.status.active = true)
  ended : ∀ id job, s.db.jobs.get? id = some job → job.status.terminal = true →
    job.leaseToken = none ∧ job.leaseExpiresAt = none
  /-- An active job is in the reaper's selection as soon as its lease has expired. -/
  reapable : ∀ id job, s.db.jobs.get? id = some job → job.status.active = true →
    ∃ token expires, job.leaseToken = some token ∧ job.leaseExpiresAt = some expires ∧
      ∀ read, expires < read → (id, token) ∈ expiredLeases s.db read
  logged : ∀ id job, s.db.jobs.get? id = some job → Path (s.db.eventsOf id) job.status
  /-- A terminal entry is the last one of its job. -/
  terminal : ∀ id before e after, s.db.eventsOf id = before ++ e :: after → e.toStatus.terminal = true → after = []
  /-- A token that left its job is refused from then on. -/
  fenced : ∀ id job token s₁ s₂ c, s.db.jobs.get? id = some job → job.leaseToken = some token →
    Steps (step P cfg) Free s s₁ → Lacks s₁.db id token → Steps (step P cfg) Free s₁ s₂ →
    c.jobId = id → c.leaseToken = token → Refused cfg s₂.now s₂.db c
  /-- No two attempts both record an outcome. -/
  once : ∀ id token₁ token₂ s₁ s₂ s₃, step P cfg s (.record token₁) = some s₁ → Ends id s s₁ →
    Steps (step P cfg) Free s₁ s₂ → step P cfg s₂ (.record token₂) = some s₃ → ¬ Ends id s₂ s₃

theorem Sound.terminal_last {s : System} (hs : s.Sound) {id : JobId} {before after : List AdaptationEvent}
    {e : AdaptationEvent} (hl : s.db.eventsOf id = before ++ e :: after) (ht : e.toStatus.terminal = true) :
    after = [] := by
  cases hj : s.db.jobs.get? id with
  | none => rw [hs.unlogged id hj] at hl; simp at hl
  | some job => exact (hs.logged id job hj).terminal_last hl ht

theorem exactly_once_outcome {P : Platform} {cfg : Settings} {models : Table ModelId ModelMetadata} {s : System}
    (h : Steps (step P cfg) Free (init models) s) : ExactlyOnce P cfg s := by
  have hs := sound_of_run h
  refine ⟨?_, ?_, ?_, hs.logged, fun id before e after => hs.terminal_last, ?_, ?_⟩
  · intro id job hj
    rw [← (hs.leased id job hj).token, Option.isSome_iff_ne_none]
  · intro id job hj ht
    have hl := hs.leased id job hj
    have htoken : job.leaseToken = none := by
      have := hl.token
      rw [JobStatus.active_of_terminal ht] at this
      exact Option.isNone_iff_eq_none.mp (by simpa using this)
    exact ⟨htoken, hl.expiry_none htoken⟩
  · intro id job hj ha
    have hl := hs.leased id job hj
    obtain ⟨token, ht⟩ := Option.isSome_iff_exists.mp (hl.token.trans ha)
    obtain ⟨expires, he⟩ := Option.isSome_iff_exists.mp (hl.expiry.trans (hl.token.trans ha))
    exact ⟨token, expires, ht, he, fun read hlt => mem_expiredLeases.mpr ⟨job, expires, hj, ht, he, hlt, ha⟩⟩
  · rintro id job token s₁ s₂ c hj ht h₁ hl h₂ rfl rfl
    obtain ⟨a, ha, -⟩ := hs.owned c.jobId job c.leaseToken hj ht
    obtain ⟨a₁, ha₁, -⟩ := attempt_run h₁ ha
    exact refused_of_lacks (lacks_run h₂ ha₁ hl)
  · rintro id token₁ token₂ s₁ s₂ s₃ hst₁ ⟨e, he, hterm⟩ h₁₂ hst₃ ⟨e', he', -⟩
    have h₃ : s₃.Sound := sound_step (sound_of_run (((h.tail trivial hst₁).trans h₁₂))) hst₃
    obtain ⟨evs, hevs⟩ := eventsOf_run h₁₂ id
    have hlog : s₃.db.eventsOf id = s.db.eventsOf id ++ e :: (evs ++ [e']) := by
      rw [he', hevs, he]; simp
    have := h₃.terminal_last hlog hterm
    simp at this

/-- A first worker that dies is reaped, a second one completes the job. -/
def lostThenCompleted : List Action :=
  [.submit "a1" (drift "e1") "oncall", .claim .message 0 "a1" "w1" "t1", .start "t1", .die "t1", .advance 31000000,
    .reapSelect 31000000, .reapLease "a1" "t1", .advance 1000000, .claim .message 32000000 "a1" "w2" "t2", .start "t2",
    .finish "t2" (.returned ⟨"KEEP_CURRENT", "no change needed", none⟩), .handle "t2", .record "t2"]

theorem exactly_once_outcome_lost : ∃ s, Steps (step (.postgres id) .defaults) Free (init cellLoad) s ∧
    (s.db.jobs.get? "a1").map Job.status = some .completed ∧ ExactlyOnce (.postgres id) .defaults s := by
  obtain ⟨s, hs, hp⟩ := Steps.exists_of_runs (step (.postgres id) .defaults) Free (init cellLoad) lostThenCompleted
    (fun s => (s.db.jobs.get? "a1").map Job.status == some .completed) (by decide)
  exact ⟨s, hs, by simpa using hp, exactly_once_outcome hs⟩

end System

end OranAdapt
