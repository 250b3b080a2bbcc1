import OranAdapt.Leases

/-!
# Reaped leases

The reaper selects expired leases in one transaction and takes each of them in
another, whose update compares the token alone. A renewal keeps the token, so
one that comes between the two is reaped although its lease is good. While no
renewal meets a selected lease, every lease that is reaped has expired.
-/

namespace OranAdapt

open Runs

theorem Move.expiry {cfg : Settings} {s : System} {id : JobId} {job job' : Job} {act : Action} {evs : List AdaptationEvent}
    (hm : Move cfg s id job act job' evs) {token : Token} (ht : job.leaseToken = some token)
    (ht' : job'.leaseToken = some token) :
    job'.leaseExpiresAt = job.leaseExpiresAt ∨ ∃ t read drain a, act = .heartbeat t read drain ∧
      s.attempts.get? t = some a ∧ a.claim.jobId = id ∧ a.claim.leaseToken = token := by
  cases hm with
  | kept | published | unpublished | reported | overdue => exact .inl rfl
  | asked | withdrawn => exact .inl (by simp [Job.moved])
  | claimed source read owner token' hc => rw [(claimable_iff.mp hc).2.1] at ht; cases ht
  | renewed t read drain a ha hid hta =>
    rw [ht, Option.some.injEq] at hta
    exact .inr ⟨t, read, drain, a, rfl, ha, hid, hta.symm⟩
  | recorded | settled | takenOver => cases ht'
  | reaped token' _ _ ended hsel hta hs => rw [hs.same.1] at ht'; cases ht'

namespace System

def renewsSelected (s : System) : Action → Bool
  | .heartbeat token _ _ =>
    match s.attempts.get? token with
    | some a => (s.db.jobs.get? a.claim.jobId).any (fun job => job.heldBy a.claim) &&
        decide ((a.claim.jobId, a.claim.leaseToken) ∈ s.selected)
    | none => false
  | _ => false

def ReapsExpired (P : Platform) (cfg : Settings) (s : System) : Prop :=
  ∀ id token job s', step P cfg s (.reapLease id token) = some s' → s.db.jobs.get? id = some job →
    job.leaseToken = some token → ∃ expires, job.leaseExpiresAt = some expires ∧ expires < s.now

def SelectedExpired (s : System) : Prop :=
  ∀ id token, (id, token) ∈ s.selected → (∃ a, s.attempts.get? token = some a) ∧
    ∀ job, s.db.jobs.get? id = some job → job.leaseToken = some token →
      ∃ expires, job.leaseExpiresAt = some expires ∧ expires < s.now

section
variable {P : Platform} {cfg : Settings} {s s' : System}

theorem selectedExpired_step {act : Action} (hs : s.Sound) (h : SelectedExpired s)
    (hc : renewsSelected s act = false) (hst : step P cfg s act = some s') : SelectedExpired s' := by
  have hframe := step_frame hst
  have heff := step_effect hst
  intro id token hsel
  -- the lease was selected before, or is selected by this step
  have hbefore : (∃ a, s.attempts.get? token = some a) ∧ ∀ job, s.db.jobs.get? id = some job →
      job.leaseToken = some token → ∃ expires, job.leaseExpiresAt = some expires ∧ expires < s.now := by
    rcases hframe.selected (id, token) hsel with hold | ⟨read, -, hread, hexp⟩
    · exact h id token hold
    · obtain ⟨job, expires, hj, ht, he, hlt, -⟩ := mem_expiredLeases.mp hexp
      obtain ⟨a, ha, -⟩ := hs.owned id job token hj ht
      refine ⟨⟨a, ha⟩, fun job' hj' _ => ?_⟩
      rw [hj] at hj'; cases hj'
      exact ⟨expires, he, Nat.lt_of_lt_of_le hlt hread⟩
  obtain ⟨⟨a, ha⟩, hexp⟩ := hbefore
  obtain ⟨a', ha', -⟩ := attempt_kept hst ha
  refine ⟨⟨a', ha'⟩, fun job' hj' ht' => ?_⟩
  cases hj : s.db.jobs.get? id with
  | none =>
    rcases heff.new id hj with ⟨hn, -⟩ | ⟨event, actor, -, hg, -⟩
    · rw [hn] at hj'; cases hj'
    · rw [hg] at hj'; cases hj'; cases ht'
  | some job =>
    obtain ⟨j, evs, hg, -, hm⟩ := heff.old id job hj
    rw [hg] at hj'; cases hj'
    have ht : job.leaseToken = some token := by
      rcases hm.token with he | he | ⟨source, read, owner, token', -, hfresh, he⟩
      · rw [← he]; exact ht'
      · rw [ht'] at he; cases he
      · rw [ht', Option.some.injEq] at he; subst he
        rw [ha] at hfresh; cases hfresh
    obtain ⟨expires, he, hlt⟩ := hexp job hj ht
    rcases hm.expiry ht ht' with hsame | ⟨t, read, drain, b, rfl, hb, rfl, rfl⟩
    · exact ⟨expires, hsame.trans he, Nat.lt_of_lt_of_le hlt hframe.now⟩
    · -- the renewal of a selected lease, which the condition excludes
      have hheld : job.heldBy b.claim = true := heldBy_iff.mpr ht
      have hmem : (b.claim.jobId, b.claim.leaseToken) ∈ s.selected := by
        rcases hframe.selected _ hsel with hold | ⟨read, hact, -⟩
        · exact hold
        · cases hact
      simp [renewsSelected, hb, hj, hheld, hmem] at hc

/-- In every run without a renewal of a selected lease, a lease that is reaped has expired. -/
theorem reaps_only_expired {models : Table ModelId ModelMetadata}
    (h : Steps (step P cfg) (fun s act => renewsSelected s act = false) (init models) s) : ReapsExpired P cfg s := by
  have hsel : SelectedExpired s :=
    h.inv_of Sound SelectedExpired (fun _ _ _ hs _ hst => sound_step hs hst)
      (fun _ _ _ hs hI hc hst => selectedExpired_step hs hI hc hst) (sound_init models)
      (fun _ _ hx => nomatch hx)
  intro id token job s' hst hj ht
  have hin : (id, token) ∈ s.selected := by
    unfold step at hst
    by_contra hn
    simp only [hn, if_false, reduceCtorEq] at hst
  exact (hsel id token hin).2 job hj ht

end

def deadThenSelected : List Action :=
  [.submit "a1" (drift "e1") "oncall", .claim .message 0 "a1" "w1" "t1", .start "t1", .die "t1", .advance 31000000,
    .reapSelect 31000000]

theorem reaps_only_expired_dead : ∃ s, Steps (step (.sqlite id) .defaults) (fun s act => renewsSelected s act = false)
      (init cellLoad) s ∧ s.selected = [("a1", "t1")] ∧ ReapsExpired (.sqlite id) .defaults s := by
  obtain ⟨s, hs, hp⟩ := Steps.exists_of_runs (step (.sqlite id) .defaults) (fun s act => renewsSelected s act = false)
    (init cellLoad) deadThenSelected (fun s => s.selected == [("a1", "t1")]) (by decide)
  exact ⟨s, hs, by simpa using hp, reaps_only_expired hs⟩

/-- A supervisor that wakes late renews a lease the reaper has just selected:
the job of the running attempt is requeued and counted as lost. -/
theorem reaps_renewed_lease : ∃ s, Steps (step (.sqlite id) .defaults) Free (init cellLoad) s ∧
    ¬ ReapsExpired (.sqlite id) .defaults s ∧
    ∃ s', step (.sqlite id) .defaults s (.reapLease "a1" "t1") = some s' ∧
      (s'.db.jobs.get? "a1").map (fun job => (job.status, job.lostCount)) = some (.queued, 1) := by
  obtain ⟨s, hs, hp⟩ := Steps.exists_of_runs (step (.sqlite id) .defaults) Free (init cellLoad)
    [.submit "a1" (drift "e1") "oncall", .claim .message 0 "a1" "w1" "t1", .start "t1", .advance 31000000,
      .reapSelect 31000000, .heartbeat "t1" 31000000 false]
    (fun s => (s.now, (s.db.jobs.get? "a1").map fun job => (job.leaseToken, job.leaseExpiresAt)) ==
        (31000000, some (some "t1", some 61000000)) &&
      (step (.sqlite id) .defaults s (.reapLease "a1" "t1")).any fun s' =>
        (s'.db.jobs.get? "a1").map (fun job => (job.status, job.lostCount)) == some (.queued, 1)) (by decide)
  simp only [Bool.and_eq_true, beq_iff_eq, Prod.mk.injEq] at hp
  obtain ⟨⟨hnow, hjob⟩, hreap⟩ := hp
  obtain ⟨s', hst, hs'⟩ := (Option.any_eq_true _ _).mp hreap
  obtain ⟨job, hj, hlease⟩ := Option.map_eq_some_iff.mp hjob
  simp only [Prod.mk.injEq] at hlease
  refine ⟨s, hs, fun hr => ?_, s', hst, by simpa using hs'⟩
  obtain ⟨expires, he, hlt⟩ := hr "a1" "t1" job s' hst hj hlease.1
  rw [hlease.2, Option.some.injEq] at he
  rw [← he, hnow] at hlt
  exact absurd hlt (by decide)

end System

end OranAdapt
