import OranAdapt.Leases

/-!
# Backoff

`available_at` is asked about when candidates are listed, not when a job is
claimed. A broker message, and a list read before the job was requeued, claim
the job whatever its backoff. While neither happens, every claim that wins
finds the job available.
-/

namespace OranAdapt

open Runs

theorem available_mono {job : Job} {t t' : Time} (h : t ≤ t') (ha : job.available t = true) :
    job.available t' = true := by
  unfold Job.available at *
  split
  · rfl
  · rename_i at_ he
    rw [he] at ha
    simp only [decide_eq_true_eq] at *
    exact Nat.le_trans ha h

theorem mem_candidates {cfg : Settings} {db : Db} {read : Time} {classes : List String} {id : JobId}
    (h : id ∈ candidates cfg db read classes) :
    ∃ job, db.jobs.get? id = some job ∧ job.claimable = true ∧ job.available read = true := by
  unfold candidates at h
  obtain ⟨⟨id', job⟩, hmem, rfl⟩ := List.mem_map.mp h
  have hsel := List.mem_of_mem_take hmem
  rw [List.mem_insertionSort, Table.mem_select] at hsel
  obtain ⟨hj, hp⟩ := hsel
  simp only [Bool.and_eq_true] at hp
  exact ⟨job, hj, hp.1.1, hp.2⟩

namespace System

def earlyMessage (s : System) : Action → Bool
  | .claim .message _ id _ _ => (s.db.jobs.get? id).any fun job => !job.available s.now
  | _ => false

/-- A job is requeued after a transient failure or a lost attempt while a
list that was read before still names it. -/
def requeuesListed (s : System) : Action → Bool
  | .record token =>
    match s.attempts.get? token with
    | some a => (s.db.jobs.get? a.claim.jobId).any (fun job => job.heldBy a.claim) &&
        decide (a.claim.jobId ∈ s.listed) && a.phase.settles.any fun e => e.cls != .jobDrained
    | none => false
  | .reapLease id token =>
    (s.db.jobs.get? id).any (fun job => job.leaseToken == some token) && decide (id ∈ s.listed)
  | _ => false

def outruns (s : System) (act : Action) : Bool := earlyMessage s act || requeuesListed s act

def ClaimsAvailable (cfg : Settings) (s : System) (act : Action) : Prop :=
  ∀ source read id owner token job db c, act = .claim source read id owner token → s.db.jobs.get? id = some job →
    tryClaim cfg s.db read s.now id owner token = .ok (some (db, c)) → job.available s.now = true

def ListedAvailable (s : System) : Prop :=
  ∀ id ∈ s.listed, ∃ job, s.db.jobs.get? id = some job ∧ job.available s.now = true

end System

theorem Move.available {cfg : Settings} {s : System} {id : JobId} {job job' : Job} {act : Action} {evs : List AdaptationEvent}
    (hm : Move cfg s id job act job' evs) (hid : id ∈ s.listed) (hc : s.requeuesListed act = false)
    (hg : s.db.jobs.get? id = some job) (ha : job.available s.now = true) : job'.available s.now = true := by
  cases hm with
  | kept | published | unpublished | claimed | reported | renewed | recorded | overdue | takenOver => exact ha
  | asked actor | withdrawn actor =>
    have : (job.asked s.now actor).availableAt = job.availableAt := by unfold Job.asked; split <;> rfl
    simpa [Job.available, Job.moved, this] using ha
  | settled token a e j evs ended hat hjid ht hp hs =>
    subst hjid
    -- only a drained attempt can be requeued here, and without a delay
    have hd : e.cls = .jobDrained := by
      have hheld : job.heldBy a.claim = true := heldBy_iff.mpr ht
      simpa [System.requeuesListed, hat, hg, hheld, hid, hp] using hc
    unfold settle at hs
    simp only [hd] at hs
    obtain ⟨r, hr, hs⟩ := bind_ok hs
    unfold requeue at hr
    obtain ⟨r', ht', hr⟩ := bind_ok hr
    obtain ⟨-, rfl⟩ := applyTransition_ok.mp ht'
    simp only [pure, Except.pure, Except.ok.injEq, Prod.mk.injEq] at hr hs
    obtain ⟨rfl, -, -⟩ := hs
    rw [← hr]
    simp [Job.available, Job.unleased, Job.requeued]
  | reaped token _ _ ended hsel ht hs => simp [System.requeuesListed, hg, ht, hid] at hc

namespace System

section
variable {P : Platform} {cfg : Settings} {s s' : System}

theorem listedAvailable_step {act : Action} (h : ListedAvailable s) (hc : outruns s act = false)
    (hst : step P cfg s act = some s') : ListedAvailable s' := by
  have hframe := step_frame hst
  simp only [outruns, Bool.or_eq_false_iff] at hc
  intro id hid
  have kept (hin : id ∈ s.listed) (job : Job) (hj : s.db.jobs.get? id = some job) (ha : job.available s.now = true) :
      ∃ job', s'.db.jobs.get? id = some job' ∧ job'.available s'.now = true := by
    obtain ⟨job', evs, hj', -, hm⟩ := (step_effect hst).old id job hj
    exact ⟨job', hj', available_mono hframe.now (hm.available hin hc.2 hj ha)⟩
  rcases hframe.listed id hid with hin | ⟨read, classes, rfl, hread, hcand⟩ | ⟨rfl, job, hj, -, ha⟩
  · obtain ⟨job, hj, ha⟩ := h id hin
    exact kept hin job hj ha
  · obtain ⟨job, hj, -, ha⟩ := mem_candidates hcand
    have hdb : s'.db = s.db := step_idle hst rfl
    exact ⟨job, by rw [hdb]; exact hj, available_mono (Nat.le_trans hread hframe.now) ha⟩
  · have hdb : s'.db = s.db := step_idle hst rfl
    exact ⟨job, by rw [hdb]; exact hj, available_mono hframe.now ha⟩

/-- In every run without an early message and without a requeue of a listed
job, every claim that wins finds the job available. -/
theorem backoff_respected {models : Table ModelId ModelMetadata}
    (h : Steps (step P cfg) (fun s act => outruns s act = false) (init models) s) {act : Action}
    (hc : outruns s act = false) (hst : step P cfg s act = some s') : ClaimsAvailable cfg s act := by
  have hlisted : ListedAvailable s :=
    h.inv ListedAvailable (fun _ _ _ hI hc hst => listedAvailable_step hI hc hst) (fun _ hid => nomatch hid)
  rintro source read id owner token job db c rfl hj hwin
  cases source with
  | message => simpa [outruns, earlyMessage, requeuesListed, hj] using hc
  | listed =>
    replace hst : s.claimStep cfg .listed read id owner token = some s' := hst
    unfold claimStep at hst
    split at hst
    · rename_i hr
      obtain ⟨job', hj', ha⟩ := hlisted id (hr.2 rfl)
      rw [hj] at hj'; cases hj'
      exact ha
    · cases hst

end

def retried : List Action :=
  [.submit "a1" (drift "e1") "oncall", .claim .message 0 "a1" "w1" "t1", .start "t1",
    .finish "t1" (.raised ⟨.registryUnavailable, "timed out", []⟩), .handle "t1", .record "t1", .advance 1000000,
    .poll 1000000 ["default"]]

theorem backoff_respected_retried : ∃ s s', Steps (step (.sqlite id) .defaults) (fun s act => outruns s act = false)
      (init cellLoad) s ∧ step (.sqlite id) .defaults s (.claim .listed 1000000 "a1" "w2" "t2") = some s' ∧
    (s'.db.jobs.get? "a1").map Job.leaseToken = some (some "t2") ∧
    ClaimsAvailable .defaults s (.claim .listed 1000000 "a1" "w2" "t2") := by
  obtain ⟨s, hs, hp⟩ := Steps.exists_of_runs (step (.sqlite id) .defaults) (fun s act => outruns s act = false)
    (init cellLoad) retried
    (fun s => outruns s (.claim .listed 1000000 "a1" "w2" "t2") == false &&
      (step (.sqlite id) .defaults s (.claim .listed 1000000 "a1" "w2" "t2")).any fun s' =>
        (s'.db.jobs.get? "a1").map Job.leaseToken == some (some "t2")) (by decide)
  simp only [Bool.and_eq_true, beq_iff_eq] at hp
  obtain ⟨s', hst, hs'⟩ := (Option.any_eq_true _ _).mp hp.2
  exact ⟨s, s', hs, hst, by simpa using hs', backoff_respected hs hp.1 hst⟩

def claimsAgain (s : System) : Bool :=
  match tryClaim .defaults s.db 0 s.now "a1" "w2" "t2" with
  | .ok (some _) => true
  | _ => false

/-- A second broker message claims a job in the middle of its backoff. -/
theorem backoff_outrun : ∃ s, Steps (step (.sqlite id) .defaults) Free (init cellLoad) s ∧
    (step (.sqlite id) .defaults s (.claim .message 0 "a1" "w2" "t2")).isSome ∧
    ¬ ClaimsAvailable .defaults s (.claim .message 0 "a1" "w2" "t2") := by
  obtain ⟨s, hs, hp⟩ := Steps.exists_of_runs (step (.sqlite id) .defaults) Free (init cellLoad)
    [.submit "a1" (drift "e1") "oncall", .claim .message 0 "a1" "w1" "t1", .start "t1",
      .finish "t1" (.raised ⟨.registryUnavailable, "timed out", []⟩), .handle "t1", .record "t1"]
    (fun s => (step (.sqlite id) .defaults s (.claim .message 0 "a1" "w2" "t2")).isSome &&
      (s.db.jobs.get? "a1").any (fun job => !job.available s.now) &&
      s.claimsAgain) (by decide)
  simp only [Bool.and_eq_true] at hp
  obtain ⟨⟨hst, hjob⟩, hwin⟩ := hp
  obtain ⟨job, hj, hna⟩ := (Option.any_eq_true _ _).mp hjob
  refine ⟨s, hs, hst, fun hav => ?_⟩
  unfold claimsAgain at hwin
  split at hwin
  · rename_i r hr
    have := hav .message 0 "a1" "w2" "t2" job r.1 r.2 rfl hj hr
    rw [this] at hna; cases hna
  · cases hwin

end System

end OranAdapt
