import Mathlib.Data.String.Basic
import OranAdapt.Selection
import OranAdapt.Backoff

/-!
# The order of claims

`claim` without a job id lists the waiting jobs in order, cuts the list at
JOB_CLAIM_CANDIDATES and tries them one after another. Whether the tenant of a
job has a free slot is seen when the job is tried, after the cut.
-/

namespace OranAdapt

open FirstFit

/-! ## Claiming the next job -/

/-- The clocks and the fresh token of one try. -/
structure ClaimTry where
  read : Time
  now : Time
  token : Token

def claimFirst (cfg : Settings) (db : Db) (tries : JobId → ClaimTry) (owner : String) :
    List JobId → Except AdaptationError (Option (Db × Claim))
  | [] => .ok none
  | id :: ids => do
    match ← tryClaim cfg db (tries id).read (tries id).now id owner (tries id).token with
    | some won => return some won
    | none => claimFirst cfg db tries owner ids

def claimClasses (cfg : Settings) (classes : Option (List String)) : List String :=
  let given := classes.getD []
  if given = [] then cfg.jobWorkerClasses else given

/-- `claim`: the job `jobId` when given, else the next claimable job of `classes`. -/
def claim (cfg : Settings) (db : Db) (read : Time) (tries : JobId → ClaimTry) (owner : String)
    (classes : Option (List String)) (jobId : Option JobId) : Except AdaptationError (Option (Db × Claim)) :=
  match jobId with
  | some id => tryClaim cfg db (tries id).read (tries id).now id owner (tries id).token
  | none => claimFirst cfg db tries owner (candidates cfg db read (claimClasses cfg classes))

/-! ## The jobs a worker may claim -/

/-- A QUEUED, unleased, not quarantined and available job of the classes. -/
def Job.waits (job : Job) (classes : List String) (read : Time) : Bool :=
  job.claimable && decide (job.workerClass ∈ classes) && job.available read

/-- The tenant has a free concurrency slot: it is unlimited, or one of its
slots is not held, or held past its expiry. -/
def slotFree (cfg : Settings) (db : Db) (now : Time) (tenant : Tenant) : Bool :=
  decide (cfg.limit tenant ≤ 0) || (List.range (cfg.limit tenant).toNat).any fun n =>
    (db.slots.get? (tenant, n)).all fun slot => decide (slot.expiresAt < now)

def waitingJobs (db : Db) (classes : List String) (read : Time) : List (JobId × Job) :=
  db.jobs.rows.filter fun p => p.2.waits classes read

def hasSlot (cfg : Settings) (db : Db) (tries : JobId → ClaimTry) (p : JobId × Job) : Bool :=
  slotFree cfg db (tries p.1).now p.2.tenant

/-- The answer is the first of the waiting jobs that has a slot, won by its
own try, or none when there is no such job. -/
inductive ClaimsFirst (cfg : Settings) (db : Db) (tries : JobId → ClaimTry) (owner : String)
    (waiting : List (JobId × Job)) :
    Except AdaptationError (Option (Db × Claim)) → Prop
  | won (p : JobId × Job) (db' : Db) (c : Claim) (hw : p ∈ waiting) (hs : hasSlot cfg db tries p = true)
      (hfirst : ∀ q ∈ waiting, hasSlot cfg db tries q = true → candidateLe p q = true)
      (htry : tryClaim cfg db (tries p.1).read (tries p.1).now p.1 owner (tries p.1).token = .ok (some (db', c)))
      (hc : c.jobId = p.1) : ClaimsFirst cfg db tries owner waiting (.ok (some (db', c)))
  | nothing (h : ∀ p ∈ waiting, hasSlot cfg db tries p = false) : ClaimsFirst cfg db tries owner waiting (.ok none)

section
variable {cfg : Settings} {db : Db} {tries : JobId → ClaimTry} {owner : String}

theorem purge_isNone {slots : Slots} {tenant : Tenant} {now : Time} {n : Nat} :
    ((slots.purge tenant now).get? (tenant, n)).isNone = (slots.get? (tenant, n)).all fun slot =>
      decide (slot.expiresAt < now) := by
  unfold Slots.purge
  rw [Table.get?_keep]
  cases slots.get? (tenant, n) with
  | none => rfl
  | some slot => by_cases h : slot.expiresAt < now <;> simp [h, Option.filter]

theorem takeSlot_none {now expires : Time} {tenant : Tenant} {id : JobId} :
    takeSlot cfg db now tenant id expires = none ↔ slotFree cfg db now tenant = false := by
  unfold takeSlot slotFree
  simp only
  by_cases hl : cfg.limit tenant ≤ 0
  · simp [hl]
  · simp only [hl, if_false, decide_false, Bool.false_or]
    cases hf : (List.range (cfg.limit tenant).toNat).find? fun n =>
      ((Slots.purge db.slots tenant now).get? (tenant, n)).isNone with
    | none =>
      simp only [true_iff]
      rw [List.find?_eq_none] at hf
      rw [List.any_eq_false]
      intro n hn
      rw [← purge_isNone]
      exact hf n hn
    | some n =>
      have hnone := List.find?_some hf
      have hmem := List.mem_of_find?_eq_some hf
      have hfree : (List.range (cfg.limit tenant).toNat).any (fun n =>
          (db.slots.get? (tenant, n)).all fun slot => decide (slot.expiresAt < now)) = true :=
        List.any_eq_true.mpr ⟨n, hmem, purge_isNone ▸ hnone⟩
      simp only [Option.map_eq_none_iff, Table.insert?_eq_none, hfree, Bool.true_eq_false, iff_false, not_not]
      exact Option.isNone_iff_eq_none.mp hnone

theorem tryClaim_claimable (cfg : Settings) (read now : Time) (owner : String) (token : Token)
    {id : JobId} {job : Job} (hj : db.jobs.get? id = some job)
    (hc : job.claimable = true) :
    if slotFree cfg db now job.tenant then
      ∃ db' c, tryClaim cfg db read now id owner token = .ok (some (db', c)) ∧ c.jobId = id
    else tryClaim cfg db read now id owner token = .ok none := by
  have hup : db.jobs.updateWhere? id Job.claimable (fun j => j.claimed owner token (read + cfg.jobLeaseTtlS)) =
      some (db.jobs.modify id fun j => j.claimed owner token (read + cfg.jobLeaseTtlS)) := by
    simp [Table.updateWhere?, hj, hc]
  have hload (jobs : Table JobId Job) (h : jobs = db.jobs.modify id fun j =>
    j.claimed owner token (read + cfg.jobLeaseTtlS)) :
      loadJob { db with jobs } id = .ok (job.claimed owner token (read + cfg.jobLeaseTtlS)) := by
    rw [loadJob_ok, h]
    simp [hj]
  have hslot : takeSlot cfg { db with jobs := db.jobs.modify id fun j => j.claimed owner token (read + cfg.jobLeaseTtlS) } now
      (job.claimed owner token (read + cfg.jobLeaseTtlS)).tenant id (read + cfg.jobLeaseTtlS) = none ↔
      slotFree cfg db now job.tenant = false := takeSlot_none
  have hqueued : (job.claimed owner token (read + cfg.jobLeaseTtlS)).status.mayMove .validating = true := by
    have : (job.claimed owner token (read + cfg.jobLeaseTtlS)).status = .queued := (claimable_iff.mp hc).1
    rw [this]; rfl
  unfold tryClaim
  simp only [hup, hload, bind, Except.bind]
  by_cases hf : slotFree cfg db now job.tenant = true
  · rw [if_pos hf]
    split
    · rename_i hnone
      rw [hslot.mp hnone] at hf
      cases hf
    · simp only [applyTransition_of _ hqueued]
      rw [applyTransition_of _ rfl]
      exact ⟨_, _, rfl, rfl⟩
  · rw [if_neg hf]
    have hnone := hslot.mpr (by simpa using hf)
    simp only [hnone]
    rfl

def WonBy (cfg : Settings) (db : Db) (tries : JobId → ClaimTry) (owner : String) (p : JobId × Job)
    (answer : Except AdaptationError (Option (Db × Claim))) : Prop :=
  ∃ db' c, answer = .ok (some (db', c)) ∧ c.jobId = p.1 ∧
    tryClaim cfg db (tries p.1).read (tries p.1).now p.1 owner (tries p.1).token = .ok (some (db', c))

/-- The loop takes the first of its candidates whose tenant has a free slot. -/
theorem claimFirst_claimable (cfg : Settings) (tries : JobId → ClaimTry) (owner : String) (rows : List (JobId × Job))
    (hall : ∀ p ∈ rows, db.jobs.get? p.1 = some p.2 ∧ p.2.claimable = true) :
    (∀ p, rows.find? (hasSlot cfg db tries) = some p →
      WonBy cfg db tries owner p (claimFirst cfg db tries owner (rows.map Prod.fst))) ∧
    (rows.find? (hasSlot cfg db tries) = none → claimFirst cfg db tries owner (rows.map Prod.fst) = .ok none) := by
  induction rows with
  | nil => exact ⟨fun p hp => (nomatch hp), fun _ => rfl⟩
  | cons p rows ih =>
    obtain ⟨hj, hc⟩ := hall p (List.mem_cons_self ..)
    have htry := tryClaim_claimable cfg (tries p.1).read (tries p.1).now owner (tries p.1).token hj hc
    have hrest := ih fun q hq => hall q (List.mem_cons_of_mem _ hq)
    rw [List.find?_cons, List.map_cons]
    unfold claimFirst
    by_cases hf : slotFree cfg db (tries p.1).now p.2.tenant = true
    · rw [if_pos hf] at htry
      obtain ⟨db', c, ht, hid⟩ := htry
      have hs : hasSlot cfg db tries p = true := hf
      simp only [hs]
      refine ⟨fun q hq => ?_, fun hn => nomatch hn⟩
      cases hq
      exact ⟨db', c, by rw [ht]; rfl, hid, ht⟩
    · rw [if_neg hf] at htry
      have hs : hasSlot cfg db tries p = false := Bool.eq_false_iff.mpr hf
      simp only [hs, htry]
      exact hrest

theorem candidateLe_iff {p q : JobId × Job} : candidateLe p q = true ↔
    q.2.priority < p.2.priority ∨ q.2.priority = p.2.priority ∧
      (p.2.createdAt < q.2.createdAt ∨ p.2.createdAt = q.2.createdAt ∧ p.1 ≤ q.1) := by
  unfold candidateLe
  by_cases hp : p.2.priority = q.2.priority
  · by_cases hc : p.2.createdAt = q.2.createdAt <;> simp [hp, hc]
  · simp [hp, Ne.symm hp]

theorem candidateLe_orders (db : Db) (classes : List String) (read : Time) :
    Orders candidateLe (waitingJobs db classes read) where
  total p q := by
    simp only [candidateLe_iff]
    rcases lt_trichotomy p.2.priority q.2.priority with h | h | h
    · exact .inr (.inl h)
    · rcases lt_trichotomy p.2.createdAt q.2.createdAt with h' | h' | h'
      · exact .inl (.inr ⟨h.symm, .inl h'⟩)
      · rcases le_total p.1 q.1 with hid | hid
        · exact .inl (.inr ⟨h.symm, .inr ⟨h', hid⟩⟩)
        · exact .inr (.inr ⟨h, .inr ⟨h'.symm, hid⟩⟩)
      · exact .inr (.inr ⟨h, .inl h'⟩)
    · exact .inl (.inl h)
  trans p q r := by
    simp only [candidateLe_iff]
    rintro (h | ⟨h, h'⟩) (k | ⟨k, k'⟩)
    · exact .inl (lt_trans k h)
    · exact .inl (k ▸ h)
    · exact .inl (h ▸ k)
    · refine .inr ⟨k.trans h, ?_⟩
      rcases h' with h' | ⟨h', hid⟩ <;> rcases k' with k' | ⟨k', kid⟩
      · exact .inl (lt_trans h' k')
      · exact .inl (k' ▸ h')
      · exact .inl (h' ▸ k')
      · exact .inr ⟨h'.trans k', le_trans hid kid⟩
  antisymm p hp q hq hpq hqp := by
    have hp := (Table.mem_select.mp hp).1
    have hq := (Table.mem_select.mp hq).1
    rw [candidateLe_iff] at hpq hqp
    have hprio : p.2.priority = q.2.priority := by
      rcases hpq with h | ⟨h, -⟩
      · rcases hqp with k | ⟨k, -⟩
        · exact absurd (lt_trans h k) (lt_irrefl _)
        · exact k
      · exact h.symm
    simp only [hprio, lt_irrefl, false_or, true_and] at hpq hqp
    have hcreated : p.2.createdAt = q.2.createdAt := by
      rcases hpq with h | ⟨h, -⟩
      · rcases hqp with k | ⟨k, -⟩
        · exact absurd (lt_trans h k) (lt_irrefl _)
        · exact k.symm
      · exact h
    simp only [hcreated, lt_irrefl, false_or, true_and] at hpq hqp
    have hid : p.1 = q.1 := le_antisymm hpq hqp
    rw [hid, hq, Option.some.injEq] at hp
    exact Prod.ext hid hp.symm

theorem waitingJobs_nodup (db : Db) (classes : List String) (read : Time) : (waitingJobs db classes read).Nodup :=
  (List.Nodup.of_map Prod.fst db.jobs.nodup).filter _

theorem mem_waitingJobs {classes : List String} {read : Time} {p : JobId × Job} :
    p ∈ waitingJobs db classes read ↔ db.jobs.get? p.1 = some p.2 ∧ p.2.waits classes read = true :=
  Table.mem_select

/-- `claim` is the search for the first waiting job with a slot among JOB_CLAIM_CANDIDATES of them. -/
theorem claim_firstFit (cfg : Settings) (db : Db) (read : Time) (tries : JobId → ClaimTry) (owner : String)
    (classes : Option (List String)) :
    let found := firstFit candidateLe (hasSlot cfg db tries) cfg.jobClaimCandidates
      (waitingJobs db (claimClasses cfg classes) read)
    (∀ p, found = some p → WonBy cfg db tries owner p (claim cfg db read tries owner classes none)) ∧
    (found = none → claim cfg db read tries owner classes none = .ok none) := by
  apply claimFirst_claimable
  intro p hp
  have hw := mem_waitingJobs.mp (mem_ordered.mp (List.mem_of_mem_take hp))
  unfold Job.waits at hw
  simp only [Bool.and_eq_true] at hw
  exact ⟨hw.1, hw.2.1.1⟩

/-- The answer of `claim` is the first job that may be claimed, or none when
there is none, exactly when fewer than JOB_CLAIM_CANDIDATES waiting jobs come
before one that may be claimed. -/
theorem claim_complete (cfg : Settings) (db : Db) (read : Time) (tries : JobId → ClaimTry) (owner : String)
    (classes : Option (List String)) :
    let waiting := waitingJobs db (claimClasses cfg classes) read
    ClaimsFirst cfg db tries owner waiting (claim cfg db read tries owner classes none) ↔
      ((∃ p ∈ waiting, hasSlot cfg db tries p = true) →
        ∃ p ∈ waiting, hasSlot cfg db tries p = true ∧ rank candidateLe waiting p < cfg.jobClaimCandidates) := by
  intro waiting
  have hord : Orders candidateLe waiting := candidateLe_orders db (claimClasses cfg classes) read
  have hnodup : waiting.Nodup := waitingJobs_nodup db (claimClasses cfg classes) read
  rw [← hord.firstFit_isSome hnodup]
  obtain ⟨hwon, hnone⟩ := claim_firstFit cfg db read tries owner classes
  constructor
  · rintro h ⟨p, hp, hs⟩
    by_contra hf
    rw [hnone (by simpa using hf)] at h
    cases h with
    | nothing h => rw [h p hp] at hs; cases hs
  · intro h
    cases hf : firstFit candidateLe (hasSlot cfg db tries) cfg.jobClaimCandidates waiting with
    | some p =>
      obtain ⟨db', c, hc, hid, ht⟩ := hwon p hf
      obtain ⟨hp, hs, hfirst⟩ := hord.first hf
      rw [hc]
      exact .won p db' c hp hs hfirst ht hid
    | none =>
      rw [hnone hf]
      refine .nothing fun p hp => ?_
      by_contra hs
      have hsome := h ⟨p, hp, by simpa using hs⟩
      rw [hf] at hsome
      cases hsome

end

/-! ## A tenant at its limit -/

def oneAtATime : Settings := { Settings.defaults with
  jobTenantByPrincipal := [("north", "ran-north")], jobTenantLimits := [("ran-north", 1)] }

/-- The limited tenant runs one job and queues ten more, each of a model of its
own; then another tenant queues one. -/
def northFirst : List Action :=
  ((List.range 11).map fun n => .submit ("n" ++ toString n) (driftOf ("cell-" ++ toString n) "e") "north") ++
    [.claim .message 0 "n0" "w1" "t1", .advance 1, .submit "s" (driftOf "cell-south" "e") "south"]

def tryAt (now : Time) (id : JobId) : ClaimTry := ⟨now, now, "try-" ++ id⟩

/-- Ten queued jobs of a tenant at its limit hide the job of another tenant. -/
theorem claim_hidden : ∃ s, Runs.Steps (System.step (.sqlite id) oneAtATime) Runs.Free (System.init .empty) s ∧
    claim oneAtATime s.db s.now (tryAt s.now) "w2" none none = .ok none ∧
    ¬ ClaimsFirst oneAtATime s.db (tryAt s.now) "w2" (waitingJobs s.db (claimClasses oneAtATime none) s.now)
      (claim oneAtATime s.db s.now (tryAt s.now) "w2" none none) := by
  obtain ⟨s, hs, hp⟩ := Runs.Steps.exists_of_runs (System.step (.sqlite id) oneAtATime) Runs.Free (System.init .empty)
    northFirst (fun s => (claim oneAtATime s.db s.now (tryAt s.now) "w2" none none).toOption.any Option.isNone &&
      (waitingJobs s.db (claimClasses oneAtATime none) s.now).any fun p => hasSlot oneAtATime s.db (tryAt s.now) p)
    (by decide +kernel)
  simp only [Bool.and_eq_true, List.any_eq_true] at hp
  obtain ⟨hnone, p, hw, hslot⟩ := hp
  have hanswer : claim oneAtATime s.db s.now (tryAt s.now) "w2" none none = .ok none := by
    obtain ⟨r, hr, hn⟩ := (Option.any_eq_true _ _).mp hnone
    rw [ok_of_toOption hr, Option.isNone_iff_eq_none.mp hn]
  refine ⟨s, hs, hanswer, fun h => ?_⟩
  rw [hanswer] at h
  cases h with
  | nothing h => rw [h p hw] at hslot; cases hslot

end OranAdapt
