import Mathlib.Logic.Function.Basic
import OranAdapt.Leases

/-!
# Retry accounting

A claim adds one to a job's `attempt`, a drain takes it back, a loss adds one
to `lost_count`. A ledger beside the running system counts the attempts
themselves by how they ended: what the two columns say is compared with it in
every run.
-/

namespace OranAdapt

open Runs

/-- How the attempts of a job went so far. -/
structure AttemptLedger where
  claims : Nat := 0
  transient : Nat := 0
  drained : Nat := 0
  lost : Nat := 0
deriving DecidableEq, Repr

/-- What is entered in a job's ledger: a claim, or an attempt without an outcome. -/
inductive LedgerEntry where
  | claimed | transient | drained | lost
deriving DecidableEq, Repr

def AttemptLedger.enter (l : AttemptLedger) : LedgerEntry → AttemptLedger
  | .claimed => { l with claims := l.claims + 1 }
  | .transient => { l with transient := l.transient + 1 }
  | .drained => { l with drained := l.drained + 1 }
  | .lost => { l with lost := l.lost + 1 }

/-- The failures `_requeue_or_end` tells apart. -/
def AdaptationError.entry (e : AdaptationError) : LedgerEntry :=
  match e.cls with
  | .jobDrained => .drained
  | .jobWorkerLost => .lost
  | _ => .transient

/-- The attempt is running: the row carries a lease. -/
def Job.leased (job : Job) : Nat := if job.leaseToken.isSome then 1 else 0

namespace System

/-- The job an action makes an entry for: a claim that wins, a failure that is
recorded without an outcome, a lease that is reaped. -/
def entry (cfg : Settings) (s : System) : Action → Option (JobId × LedgerEntry)
  | .claim _ read id owner token =>
    match tryClaim cfg s.db read s.now id owner token with
    | .ok (some _) => some (id, .claimed)
    | _ => none
  | .record token =>
    (s.attempts.get? token).bind fun a => a.phase.settles.bind fun e =>
      match requeueOrEnd cfg s.db s.now a.claim e with
      | .ok _ => some (a.claim.jobId, e.entry)
      | .error _ => none
  | .reapLease id token =>
    match reapLease cfg s.db s.now id token with
    | .ok (some _) => some (id, .lost)
    | _ => none
  | _ => none

abbrev Ledgered := System × (JobId → AttemptLedger)

def enter (ledgers : JobId → AttemptLedger) : Option (JobId × LedgerEntry) → JobId → AttemptLedger
  | none => ledgers
  | some (id, e) => Function.update ledgers id ((ledgers id).enter e)

def ledgeredStep (P : Platform) (cfg : Settings) (s : Ledgered) (act : Action) : Option Ledgered :=
  (step P cfg s.1 act).map fun s' => (s', enter s.2 (s.1.entry cfg act))

structure Accounts (cfg : Settings) (s : System) (ledgers : JobId → AttemptLedger) : Prop where
  balance : ∀ id job, s.db.jobs.get? id = some job → job.status.terminal = false →
    (job.attempt : Int) - job.lostCount = (ledgers id).transient + job.leased
  /-- Every claim is accounted for, once. -/
  complete : ∀ id job, s.db.jobs.get? id = some job → job.status.terminal = false →
    (ledgers id).claims = (ledgers id).transient + (ledgers id).drained + (ledgers id).lost + job.leased
  nonneg : ∀ id job, s.db.jobs.get? id = some job → (0 : Int) ≤ job.attempt - job.lostCount
  /-- The tries of the backoff: a transient failure is handled with one try at least. -/
  tries : ∀ token a e job, s.attempts.get? token = some a → a.phase.settles = some e → e.entry = .transient →
    s.db.jobs.get? a.claim.jobId = some job → job.leaseToken = some a.claim.leaseToken →
    (1 : Int) ≤ job.attempt - job.lostCount
  transient : ∀ id, (ledgers id).transient ≤ cfg.jobMaxRetries + 1
  lost : ∀ id, (ledgers id).lost ≤ max 1 cfg.jobPoisonThreshold

end System

/-! ## What a step does to the columns -/

/-- The row a step leaves that makes no entry for the job. -/
structure Job.Unbilled (job job' : Job) : Prop where
  attempt : job'.attempt = job.attempt
  lostCount : job'.lostCount = job.lostCount
  leased : job'.status.terminal = false → job.status.terminal = false ∧ job'.leased = job.leased

/-- The row a step leaves that makes an entry for the job. -/
def Job.Billed (cfg : Settings) (job job' : Job) : LedgerEntry → Prop
  | .claimed => job.status = .queued ∧ job.leased = 0 ∧ job'.leased = 1 ∧
    job'.attempt = job.attempt + 1 ∧ job'.lostCount = job.lostCount
  | .transient => job.leased = 1 ∧ job'.leased = 0 ∧ job'.attempt = job.attempt ∧ job'.lostCount = job.lostCount ∧
      (job'.status.terminal = false → (job.attempt : Int) - job.lostCount ≤ cfg.jobMaxRetries)
  | .drained => job.leased = 1 ∧ job'.leased = 0 ∧ job'.attempt = job.attempt - 1 ∧ job'.lostCount = job.lostCount
  | .lost => job.leased = 1 ∧ job'.leased = 0 ∧ job'.attempt = job.attempt ∧
      (job'.lostCount = job.lostCount + 1 ∨ job'.lostCount = job.lostCount ∧ job'.status.terminal = true) ∧
      (job'.status.terminal = false → job.lostCount + 1 < cfg.jobPoisonThreshold)

section
variable {cfg : Settings} {now : Time} {id : JobId} {job job' : Job} {evs : List AdaptationEvent} {ended : Bool}

theorem leased_of_token {token : Token} (h : job.leaseToken = some token) : job.leased = 1 := by
  simp [Job.leased, h]

theorem leased_of_none (h : job.leaseToken = none) : job.leased = 0 := by
  simp [Job.leased, h]

theorem requeue_row {message : String} {delay : Time} {charge lost : Bool}
    (h : requeue now id job message delay charge lost = .ok (job', evs)) :
    job' = (job.moved .queued { message := message }).requeued (now + delay) charge lost := by
  unfold requeue at h
  obtain ⟨r, ha, h⟩ := bind_ok h
  obtain ⟨-, rfl⟩ := applyTransition_ok.mp ha
  cases h
  rfl

/-- A lost attempt: counted and requeued, counted and quarantined, or, in the
registry stages, the job's end without being counted. -/
theorem lose_row {why : String} (h : lose cfg now id job why = .ok (job', evs, ended)) :
    job'.attempt = job.attempt ∧
    (job'.lostCount = job.lostCount + 1 ∨ job'.lostCount = job.lostCount ∧ job'.status.terminal = true) ∧
    (job'.status.terminal = false → job.lostCount + 1 < cfg.jobPoisonThreshold) := by
  unfold lose at h
  simp only at h
  split at h
  · obtain ⟨r, ha, h⟩ := bind_ok h
    obtain ⟨-, rfl⟩ := applyTransition_ok.mp ha
    cases h
    exact ⟨rfl, .inr ⟨rfl, rfl⟩, fun hn => nomatch hn⟩
  · split at h
    · obtain ⟨r, ha, h⟩ := bind_ok h
      obtain ⟨-, rfl⟩ := applyTransition_ok.mp ha
      cases h
      exact ⟨rfl, .inl rfl, fun hn => nomatch hn⟩
    · rename_i hp
      obtain ⟨⟨job₁, evs₁⟩, hr, h⟩ := bind_ok h
      cases h
      rw [requeue_row hr]
      exact ⟨rfl, .inl rfl, fun _ => by omega⟩

theorem entry_transient {e : AdaptationError} (hd : e.cls ≠ .jobDrained) (hw : e.cls ≠ .jobWorkerLost) :
    e.entry = .transient := by
  unfold AdaptationError.entry
  split
  · rename_i hc; exact absurd hc hd
  · rename_i hc; exact absurd hc hw
  · rfl

/-- What `_requeue_or_end` writes to the columns, by the failure. -/
theorem settle_billed {e : AdaptationError} {token : Token} (ht : job.leaseToken = some token)
    (h : settle cfg now id job e = .ok (job', evs, ended)) : job.Billed cfg job'.unleased e.entry := by
  have hl := leased_of_token ht
  unfold settle at h
  split at h
  · rename_i hc
    have hentry : e.entry = .drained := by simp [AdaptationError.entry, hc]
    obtain ⟨⟨job₁, evs₁⟩, hr, h⟩ := bind_ok h
    cases h
    rw [requeue_row hr, hentry]
    exact ⟨hl, rfl, rfl, rfl⟩
  · rename_i hc
    have hentry : e.entry = .lost := by simp [AdaptationError.entry, hc]
    have hrow := lose_row h
    rw [hentry]
    exact ⟨hl, rfl, hrow⟩
  · rename_i hd hw
    rw [entry_transient hd hw]
    unfold retry at h
    simp only at h
    split at h
    · rename_i htries
      obtain ⟨⟨job₁, evs₁⟩, hr, h⟩ := bind_ok h
      cases h
      rw [requeue_row hr]
      exact ⟨hl, rfl, rfl, rfl, fun _ => htries⟩
    · obtain ⟨r, ha, h⟩ := bind_ok h
      obtain ⟨-, rfl⟩ := applyTransition_ok.mp ha
      cases h
      exact ⟨hl, rfl, rfl, rfl, fun hn => nomatch hn⟩

end

namespace System

section
variable {P : Platform} {cfg : Settings} {s s' : System} {act : Action} {id : JobId}

theorem reapLease_row {db db' : Db} {now : Time} {token : Token} (h : reapLease cfg db now id token = .ok (some db')) :
    ∃ job job', db.jobs.get? id = some job ∧ db'.jobs.get? id = some job' ∧ job.Billed cfg job' .lost := by
  obtain ⟨job, job', evs, ended, hj, ht, hs, -, hw, -⟩ := reapLease_ok h
  refine ⟨job, job', hj, hw.get, leased_of_token ht, leased_of_none hs.same.1, ?_⟩
  -- the same row again, as `lose` leaves it
  unfold reapLease at h
  cases hu : db.jobs.updateWhere? id (fun j => j.leaseToken == some token) Job.unleased with
  | none => rw [hu] at h; cases h
  | some jobs =>
    simp only [hu] at h
    obtain ⟨j, hg, -, rfl⟩ := Table.updateWhere?_eq_some hu
    rw [hj] at hg; cases hg
    obtain ⟨j, hl, h⟩ := bind_ok h
    rw [loadJob_ok] at hl
    simp only [Table.get?_modify, if_true, hj, Option.map_some, Option.some.injEq] at hl
    subst hl
    obtain ⟨⟨job₁, evs₁, ended₁⟩, hlose, h⟩ := bind_ok h
    simp only [pure, Except.pure, Except.ok.injEq, Option.some.injEq] at h
    have hrow : db'.jobs.get? id = some job₁ := by
      rw [← h]
      cases ended₁ <;> simp [Db.releaseLock_jobs, Db.dropSlots, Db.put, hj]
    rw [hw.get, Option.some.injEq] at hrow
    subst hrow
    have hbill := lose_row hlose
    exact hbill

/-- A failure without an outcome is recorded by `_requeue_or_end` alone. -/
theorem recordStep_settles {token : Token} {a : Attempt} {e : AdaptationError} (hp : a.phase.settles = some e)
    (h : s.recordStep cfg token a = some s') :
    s'.db = ((requeueOrEnd cfg s.db s.now a.claim e).map Prod.fst).toOption.getD s.db := by
  have hphase := Phase.settles_eq hp
  have hout : recordOutcome cfg s.db s.now a.claim (.raised e) =
      (requeueOrEnd cfg s.db s.now a.claim e).map Prod.fst := by
    rw [hphase] at hp
    unfold Phase.settles at hp
    unfold recordOutcome
    simp only at hp ⊢
    split at hp
    · rename_i hc; simp [hc]
    · rename_i hc; simp [hc]
    · rename_i hc; simp [hc]
    · rename_i hc; simp [hc]
    · cases hp
  unfold recordStep at h
  rw [hphase] at h
  simp only [hout] at h
  split at h
  · cases h
  · split at h
    · rename_i db hr
      cases h
      rw [hr]; rfl
    · rename_i err hr
      cases h
      rw [hr]; rfl

theorem step_billed {e : LedgerEntry} (hst : step P cfg s act = some s') (he : s.entry cfg act = some (id, e)) :
    ∃ job job', s.db.jobs.get? id = some job ∧ s'.db.jobs.get? id = some job' ∧ job.Billed cfg job' e := by
  unfold entry at he
  cases act with
  | claim source read id' owner token =>
    simp only at he
    split at he
    · rename_i r hc
      obtain ⟨db, c⟩ := r
      cases he
      obtain ⟨job, hj, hcl, hw, -⟩ := tryClaim_ok hc
      refine ⟨job, (job.claimed owner token (read + cfg.jobLeaseTtlS)).started, hj, ?_,
        (claimable_iff.mp hcl).1, leased_of_none (claimable_iff.mp hcl).2.1, rfl, rfl, rfl⟩
      replace hst : s.claimStep cfg source read id owner token = some s' := hst
      unfold claimStep at hst
      split at hst
      · rw [hc] at hst
        obtain ⟨attempts, -, rfl⟩ := Option.map_eq_some_iff.mp hst
        exact hw.get
      · cases hst
    · cases he
  | record token =>
    obtain ⟨a, ha, he⟩ := Option.bind_eq_some_iff.mp he
    obtain ⟨err, hp, he⟩ := Option.bind_eq_some_iff.mp he
    split at he
    · rename_i r hr
      cases he
      obtain ⟨db, ended⟩ := r
      obtain ⟨a', ha', hst⟩ := onAttempt_some hst
      rw [ha] at ha'; cases ha'
      have hdb := recordStep_settles hp hst
      rw [hr] at hdb
      obtain ⟨job, job', evs, hj, ht, hs, rfl⟩ := requeueOrEnd_ok hr
      have hw : s.db.Wrote (endAttempt s.db a.claim job' evs ended) a.claim.jobId job'.unleased evs :=
        endAttempt_wrote hj (settled_own hs)
      refine ⟨job, job'.unleased, hj, ?_, settle_billed ht hs⟩
      rw [hdb]
      exact hw.get
    · cases he
  | reapLease id' token =>
    simp only at he
    split at he
    · rename_i db hr
      cases he
      obtain ⟨job, job', hj, hj', hb⟩ := reapLease_row hr
      refine ⟨job, job', hj, ?_, hb⟩
      unfold step at hst
      simp only at hst
      split at hst
      · rw [hr] at hst
        cases hst
        exact hj'
      · cases hst
    · cases he
  | _ => cases he

theorem unbilled_refl (job : Job) : job.Unbilled job := ⟨rfl, rfl, fun h => ⟨h, rfl⟩⟩

theorem unbilled_ended {job job' : Job} (ha : job'.attempt = job.attempt) (hl : job'.lostCount = job.lostCount)
    (ht : job'.status.terminal = true) : job.Unbilled job' :=
  ⟨ha, hl, fun hn => absurd hn (by simp [ht])⟩

theorem step_unbilled {job : Job} (hst : step P cfg s act = some s') (hj : s.db.jobs.get? id = some job)
    (he : ∀ e, s.entry cfg act ≠ some (id, e)) : ∃ job', s'.db.jobs.get? id = some job' ∧ job.Unbilled job' := by
  obtain ⟨job', evs, hj', -, hm⟩ := (step_effect hst).old id job hj
  -- an update that was not committed leaves the row itself
  have same (hdb : s'.db = s.db) : ∃ job', s'.db.jobs.get? id = some job' ∧ job.Unbilled job' :=
    ⟨job, by rw [hdb]; exact hj, unbilled_refl job⟩
  cases hm with
  | kept => exact ⟨job, hj', unbilled_refl job⟩
  | published | unpublished => exact ⟨_, hj', rfl, rfl, fun h => ⟨h, rfl⟩⟩
  | asked actor ht hr =>
    refine ⟨_, hj', ?_, ?_, fun _ => ⟨ht, ?_⟩⟩
    · unfold Job.asked; split <;> rfl
    · unfold Job.asked; split <;> rfl
    · simp [Job.leased]
  | withdrawn actor c hq hl =>
    refine ⟨_, hj', unbilled_ended ?_ ?_ rfl⟩
    · unfold Job.asked; split <;> rfl
    · unfold Job.asked; split <;> rfl
  | reported token toStatus message a ha hid hp hf hmv =>
    exact ⟨_, hj', rfl, rfl, fun _ => ⟨JobStatus.not_terminal_of_mayMove hmv, rfl⟩⟩
  | renewed => exact ⟨_, hj', rfl, rfl, fun h => ⟨h, rfl⟩⟩
  | recorded token a toStatus c ha hid ht hp =>
    exact ⟨_, hj', unbilled_ended rfl rfl (Phase.records_terminal hp)⟩
  | overdue => exact ⟨_, hj', unbilled_ended rfl rfl rfl⟩
  | takenOver => exact ⟨_, hj', unbilled_ended rfl rfl rfl⟩
  | claimed source read owner token =>
    apply same
    replace hst : s.claimStep cfg source read id owner token = some s' := hst
    unfold claimStep at hst
    split at hst
    · simp only at hst
      split at hst
      · rename_i hc
        exact absurd (by simp [entry, hc]) (he .claimed)
      · cases hst; rfl
    · cases hst
  | settled token a e job' evs ended ha hid ht hp hs =>
    apply same
    obtain ⟨a', ha', hst⟩ := onAttempt_some hst
    rw [ha] at ha'; cases ha'
    rw [recordStep_settles hp hst]
    cases hr : requeueOrEnd cfg s.db s.now a.claim e with
    | error err => rfl
    | ok r => exact absurd (by simp [entry, ha, hp, hr, hid]) (he e.entry)
  | reaped token job' evs ended hsel =>
    apply same
    unfold step at hst
    simp only [hsel, if_true] at hst
    split at hst
    · rename_i hr
      exact absurd (by simp [entry, hr]) (he .lost)
    · cases hst; rfl

end

/-! ## The books of a run -/

structure Booked (cfg : Settings) (job : Job) (l : AttemptLedger) : Prop where
  balance : job.status.terminal = false → job.attempt = job.lostCount + l.transient + job.leased
  complete : job.status.terminal = false → l.claims = l.transient + l.drained + l.lost + job.leased
  lostCount : job.status.terminal = false → job.lostCount = l.lost
  transientOpen : job.status.terminal = false → l.transient ≤ cfg.jobMaxRetries
  lostOpen : job.status.terminal = false → l.lost < cfg.jobPoisonThreshold
  nonneg : job.lostCount ≤ job.attempt
  transient : l.transient ≤ cfg.jobMaxRetries + 1
  lost : l.lost ≤ cfg.jobPoisonThreshold

section
variable {P : Platform} {cfg : Settings} {s s' : System} {job job' : Job} {l : AttemptLedger}

theorem booked_new {job : Job} (ha : job.attempt = 0) (hl : job.lostCount = 0) (ht : job.leaseToken = none) :
    Booked cfg job {} := by
  have hpos := cfg.poison_pos
  constructor <;> simp [ha, hl, leased_of_none ht]
  omega

theorem Booked.unbilled (h : Booked cfg job l) (hu : job.Unbilled job') : Booked cfg job' l where
  balance ht := by
    obtain ⟨ho, hl⟩ := hu.leased ht
    have := h.balance ho
    rw [hu.attempt, hu.lostCount, hl]; exact this
  complete ht := by
    obtain ⟨ho, hl⟩ := hu.leased ht
    rw [hl]; exact h.complete ho
  lostCount ht := by rw [hu.lostCount]; exact h.lostCount (hu.leased ht).1
  transientOpen ht := h.transientOpen (hu.leased ht).1
  lostOpen ht := h.lostOpen (hu.leased ht).1
  nonneg := by rw [hu.attempt, hu.lostCount]; exact h.nonneg
  transient := h.transient
  lost := h.lost

theorem Booked.billed {e : LedgerEntry} (h : Booked cfg job l) (ho : job.status.terminal = false)
    (hb : job.Billed cfg job' e) : Booked cfg job' (l.enter e) := by
  have hbal := h.balance ho
  have hcom := h.complete ho
  have hlost := h.lostCount ho
  have htra := h.transientOpen ho
  have hopen := h.lostOpen ho
  cases e with
  | claimed =>
    obtain ⟨-, hl, hl', ha, hc⟩ := hb
    constructor
    case nonneg => omega
    all_goals simp only [AttemptLedger.enter]; intros; omega
  | transient =>
    obtain ⟨hl, hl', ha, hc, htries⟩ := hb
    constructor
    case nonneg => omega
    case transientOpen => simp only [AttemptLedger.enter]; intro ht; have := htries ht; omega
    all_goals simp only [AttemptLedger.enter]; intros; omega
  | drained =>
    obtain ⟨hl, hl', ha, hc⟩ := hb
    constructor
    case nonneg => omega
    all_goals simp only [AttemptLedger.enter]; intros; omega
  | lost =>
    obtain ⟨hl, hl', ha, hc, hthr⟩ := hb
    have hcounted (ht : job'.status.terminal = false) : job'.lostCount = job.lostCount + 1 := by
      rcases hc with hc | ⟨-, he⟩
      · exact hc
      · rw [ht] at he; cases he
    constructor
    case nonneg => omega
    case balance => simp only [AttemptLedger.enter]; intro ht; have := hcounted ht; omega
    case lostCount => simp only [AttemptLedger.enter]; intro ht; have := hcounted ht; omega
    case lostOpen => simp only [AttemptLedger.enter]; intro ht; have := hthr ht; have := hcounted ht; omega
    all_goals simp only [AttemptLedger.enter]; intros; omega

theorem billed_open {e : LedgerEntry} (hw : job.WellLeased) (hb : job.Billed cfg job' e) :
    job.status.terminal = false := by
  have leased (hl : job.leased = 1) : job.status.terminal = false := by
    apply JobStatus.not_terminal_of_active
    rw [← hw.token]
    by_contra hn
    simp [Job.leased, hn] at hl
  cases e with
  | claimed => rw [hb.1]; rfl
  | transient | drained | lost => exact leased hb.1

structure Books (cfg : Settings) (t : Ledgered) : Prop where
  sound : t.1.Sound
  booked : ∀ id job, t.1.db.jobs.get? id = some job → Booked cfg job (t.2 id)
  unknown : ∀ id, t.1.db.jobs.get? id = none → t.2 id = {}

theorem books_init (models : Table ModelId ModelMetadata) : Books cfg (init models, fun _ => {}) where
  sound := sound_init models
  booked _ _ h := nomatch h
  unknown _ _ := rfl

theorem enter_of_ne {ledgers : JobId → AttemptLedger} {entry : Option (JobId × LedgerEntry)} {id : JobId}
    (h : ∀ e, entry ≠ some (id, e)) : enter ledgers entry id = ledgers id := by
  unfold enter
  split
  · rfl
  · rename_i id' e
    apply Function.update_of_ne
    intro he
    exact h e (by rw [he])

theorem books_step {ledgers : JobId → AttemptLedger} {act : Action} (h : Books cfg (s, ledgers))
    (hrun : step P cfg s act = some s') : Books cfg (s', enter ledgers (s.entry cfg act)) := by
  have heff := step_effect hrun
  refine ⟨sound_step h.sound hrun, fun id job' hj' => ?_, fun id hn => ?_⟩
  · cases hj : s.db.jobs.get? id with
    | none =>
      have hne : ∀ e, s.entry cfg act ≠ some (id, e) := fun e he => by
        obtain ⟨job, -, hg, -⟩ := step_billed hrun he
        rw [hj] at hg; cases hg
      have hempty : ledgers id = {} := h.unknown id hj
      simp only [enter_of_ne hne, hempty]
      rcases heff.new id hj with ⟨hn, -⟩ | ⟨event, actor, -, hg, -⟩
      · rw [hn] at hj'; cases hj'
      · rw [hg] at hj'; cases hj'
        have hnew : Booked cfg (queuedJob (newJob P cfg s.db s.now event actor)) {} := booked_new rfl rfl rfl
        exact hnew
    | some job =>
      by_cases hne : ∀ e, s.entry cfg act ≠ some (id, e)
      · obtain ⟨row, hrow, hu⟩ := step_unbilled hrun hj hne
        rw [hrow] at hj'; cases hj'
        simp only [enter_of_ne hne]
        exact (h.booked id job hj).unbilled hu
      · obtain ⟨e, he⟩ : ∃ e, s.entry cfg act = some (id, e) := by simpa using hne
        obtain ⟨job₀, row, hg, hrow, hb⟩ := step_billed hrun he
        rw [hj] at hg; cases hg
        rw [hrow] at hj'; cases hj'
        have hkeep : enter ledgers (s.entry cfg act) id = (ledgers id).enter e := by
          rw [he]; exact Function.update_self ..
        simp only [hkeep]
        exact (h.booked id job hj).billed (billed_open (h.sound.leased id job hj) hb) hb
  · cases hj : s.db.jobs.get? id with
    | some job =>
      obtain ⟨row, -, hrow, -⟩ := heff.old id job hj
      rw [hrow] at hn; cases hn
    | none =>
      have hne : ∀ e, s.entry cfg act ≠ some (id, e) := fun e he => by
        obtain ⟨job, -, hg, -⟩ := step_billed hrun he
        rw [hj] at hg; cases hg
      simp only [enter_of_ne hne]
      exact h.unknown id hj

theorem Books.accounts {t : Ledgered} (h : Books cfg t) : t.1.Accounts cfg t.2 where
  balance id job hj ht := by
    have := (h.booked id job hj).balance ht
    omega
  complete id job hj ht := (h.booked id job hj).complete ht
  nonneg id job hj := by
    have := (h.booked id job hj).nonneg
    omega
  tries token a e job ha hp he hj ht := by
    have hactive : job.status.terminal = false := by
      apply JobStatus.not_terminal_of_active
      rw [← (h.sound.leased _ job hj).token, ht]; rfl
    have := (h.booked _ job hj).balance hactive
    have := leased_of_token ht
    omega
  transient id := by
    cases hj : t.1.db.jobs.get? id with
    | none => simp [h.unknown id hj]
    | some job => exact (h.booked id job hj).transient
  lost id := by
    cases hj : t.1.db.jobs.get? id with
    | none => simp [h.unknown id hj]
    | some job =>
      have := (h.booked id job hj).lost
      omega

/-- In every run the columns of every job agree with its ledger, however
drains, losses and transient failures alternate. -/
theorem retry_accounts {models : Table ModelId ModelMetadata} {t : Ledgered}
    (h : Steps (ledgeredStep P cfg) Free (init models, fun _ => {}) t) : t.1.Accounts cfg t.2 := by
  have hbooks : Books cfg t := h.inv (Books cfg) (fun t act t' hb _ hst => by
    obtain ⟨s', hrun, rfl⟩ := Option.map_eq_some_iff.mp hst
    exact books_step hb hrun) (books_init models)
  exact hbooks.accounts

end

/-- A job whose attempts fail transiently, are drained and are lost in turn. -/
def alternating : List Action :=
  [.submit "a1" (drift "e1") "oncall", .claim .message 0 "a1" "w1" "t1", .start "t1",
    .finish "t1" (.raised ⟨.registryUnavailable, "timed out", []⟩), .handle "t1", .record "t1",
    .claim .message 0 "a1" "w1" "t2", .start "t2",
    .finish "t2" (.raised ⟨.jobDrained, "the worker is shutting down", []⟩),
    .handle "t2", .record "t2", .claim .message 0 "a1" "w2" "t3", .start "t3", .die "t3", .advance 40000000,
    .reapSelect 40000000, .reapLease "a1" "t3", .claim .message 40000000 "a1" "w2" "t4"]

theorem retry_accounts_alternating : ∃ t : Ledgered,
    Steps (ledgeredStep (.sqlite id) .defaults) Free (init cellLoad, fun _ => {}) t ∧
    t.2 "a1" = ⟨4, 1, 1, 1⟩ ∧ (t.1.db.jobs.get? "a1").map (fun job => (job.attempt, job.lostCount)) = some (3, 1) ∧
    t.1.Accounts .defaults t.2 := by
  obtain ⟨t, ht, hp⟩ := Steps.exists_of_runs (ledgeredStep (.sqlite id) .defaults) Free (init cellLoad, fun _ => {})
    alternating (fun t => decide (t.2 "a1" = ⟨4, 1, 1, 1⟩) &&
      (t.1.db.jobs.get? "a1").map (fun job => (job.attempt, job.lostCount)) == some (3, 1)) (by decide +kernel)
  simp only [Bool.and_eq_true, decide_eq_true_eq, beq_iff_eq] at hp
  exact ⟨t, ht, hp.1, hp.2, retry_accounts ht⟩

end System

end OranAdapt
