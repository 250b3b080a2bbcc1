import OranAdapt.Leases

/-!
# Tenant slots

A claim of a limited tenant takes a free slot, which expires with its lease. A
supervisor that renews late may find its slot deleted and taken: it renews its
lease all the same. While every renewal finds its slot, an unexpired lease has
its slot row, so a tenant never has more unexpired leases than slots and no
two of them share one.
-/

namespace OranAdapt

open Runs

def Job.leasedTo (job : Job) (token : Token) (expires : Time) : Prop :=
  job.leaseToken = some token ∧ job.leaseExpiresAt = some expires

def LeasesKept (s s' : System) (but : JobId → Prop) : Prop :=
  ∀ id job' token expires, ¬ but id → s'.db.jobs.get? id = some job' → job'.leasedTo token expires →
    ∃ job, s.db.jobs.get? id = some job ∧ job.leasedTo token expires ∧ job.tenant = job'.tenant

theorem renewSlot_own {db : Db} {c : Claim} {n : Nat} {slot : JobSlot} (hc : c.slot = some n)
    (h : db.slots.get? (c.tenant, n) = some slot) (hid : slot.jobId = c.jobId) (until_ : Time) :
    (db.renewSlot c until_).slots.get? (c.tenant, n) = some ⟨c.jobId, until_⟩ := by
  unfold Db.renewSlot
  simp [hc, Table.updateWhere?, h, hid]

theorem renewSlot_other {db : Db} {c : Claim} {k : Tenant × Nat} {slot : JobSlot}
    (h : db.slots.get? k = some slot) (hid : slot.jobId ≠ c.jobId) (until_ : Time) :
    (db.renewSlot c until_).slots.get? k = some slot := by
  unfold Db.renewSlot
  cases c.slot with
  | none => exact h
  | some n =>
    simp only
    cases hu : db.slots.updateWhere? (c.tenant, n) (fun slot => slot.jobId == c.jobId)
        fun slot => { slot with expiresAt := until_ } with
    | none => exact h
    | some slots =>
      obtain ⟨slot', hg, hid', rfl⟩ := Table.updateWhere?_eq_some hu
      have hk : k ≠ (c.tenant, n) := by
        rintro rfl
        rw [h] at hg; cases hg
        exact hid (by simpa using hid')
      rw [Option.getD_some, Table.get?_modify, if_neg hk, h]

theorem get?_freeSlot_some {db : Db} {c : Claim} {k : Tenant × Nat} {slot : JobSlot}
    (h : db.slots.get? k = some slot) (hid : slot.jobId ≠ c.jobId) : (db.freeSlot c).slots.get? k = some slot := by
  unfold Db.freeSlot
  cases c.slot with
  | none => exact h
  | some n => exact Table.get?_keep_some.mpr ⟨h, by simp [hid]⟩

theorem get?_dropSlots_some {db : Db} {id : JobId} {k : Tenant × Nat} {slot : JobSlot}
    (h : db.slots.get? k = some slot) (hid : slot.jobId ≠ id) : (db.dropSlots id).slots.get? k = some slot :=
  Table.get?_keep_some.mpr ⟨h, by simp [hid]⟩

namespace System

section
variable {P : Platform} {cfg : Settings} {s s' : System}

/-- What a step does to the slots, and which leases it leaves alone. -/
inductive SlotStep (cfg : Settings) (s s' : System) (act : Action) : Prop
  | kept (hs : s'.db.slots = s.db.slots) (hk : LeasesKept s s' fun _ => False)
  | swept (read : Time) (hread : read ≤ s.now) (hs : s'.db.slots = (reapSlots s.db read).slots)
      (hk : LeasesKept s s' fun _ => False)
  | freed (a : Attempt) (hs : s'.db.slots = (s.db.freeSlot a.claim).slots) (hk : LeasesKept s s' fun _ => False)
      (hgone : ∀ job', s'.db.jobs.get? a.claim.jobId = some job' → job'.leaseToken = none)
  | dropped (id : JobId) (hs : s'.db.slots = (s.db.dropSlots id).slots) (hk : LeasesKept s s' fun _ => False)
      (hgone : ∀ job', s'.db.jobs.get? id = some job' → job'.leaseToken = none)
  | renewed (token : Token) (read : Time) (drain : Bool) (a : Attempt) (job : Job)
      (hact : act = .heartbeat token read drain) (ha : s.attempts.get? token = some a)
      (hj : s.db.jobs.get? a.claim.jobId = some job) (ht : job.leaseToken = some a.claim.leaseToken)
      (hj' : s'.db.jobs.get? a.claim.jobId = some (job.renewed (read + cfg.jobLeaseTtlS)))
      (hs : s'.db.slots = (s.db.renewSlot a.claim (read + cfg.jobLeaseTtlS)).slots)
      (hk : LeasesKept s s' fun id => id = a.claim.jobId)
  | claimed (source : Source) (read : Time) (id : JobId) (owner : String) (token : Token) (c : Claim) (job : Job)
      (hact : act = .claim source read id owner token) (hi : s.attempts.insert? token (newAttempt c) = some s'.attempts)
      (hj : s.db.jobs.get? id = some job)
      (hj' : s'.db.jobs.get? id = some (job.claimed owner token (read + cfg.jobLeaseTtlS)).started)
      (hs : TookSlot cfg s.db.slots s.now job.tenant id (read + cfg.jobLeaseTtlS) c.slot s'.db.slots)
      (hk : LeasesKept s s' fun id' => id' = id)

/-- A step that neither renews nor claims leaves every lease alone that it does not clear. -/
theorem leasesKept_of_effect {act : Action} (heff : Effect P cfg s act s')
    (hr : ∀ token read drain, act ≠ .heartbeat token read drain)
    (hc : ∀ source read id owner token, act ≠ .claim source read id owner token) :
    LeasesKept s s' fun _ => False := by
  intro id job' token expires _ hj' hl
  cases hj : s.db.jobs.get? id with
  | none =>
    rcases heff.new id hj with ⟨hn, -⟩ | ⟨event, actor, -, hg, -⟩
    · rw [hn] at hj'; cases hj'
    · rw [hg] at hj'; cases hj'; cases hl.1
  | some job =>
    obtain ⟨j, evs, hg, -, hm⟩ := heff.old id job hj
    rw [hg] at hj'; cases hj'
    have htoken : job'.leaseToken ≠ none := by rw [hl.1]; simp
    refine ⟨job, rfl, ?_, hm.fixed.2.symm⟩
    cases hm with
    | kept | published | unpublished | reported | overdue => exact hl
    | asked | withdrawn => simpa [Job.leasedTo, Job.moved] using hl
    | claimed source read owner token' => exact absurd rfl (hc source read id owner token')
    | renewed token' read drain => exact absurd rfl (hr token' read drain)
    | recorded | settled | takenOver => exact absurd rfl htoken
    | reaped token' _ _ ended hsel ht hs => exact absurd hs.same.1 htoken

theorem leasesKept_of_wrote {id : JobId} {job' : Job} {evs : List AdaptationEvent}
    (hw : s.db.Wrote s'.db id job' evs) : LeasesKept s s' fun id' => id' = id :=
  fun id' job token expires hne hj hl => ⟨job, by rw [← hw.get_ne hne]; exact hj, hl, rfl⟩

theorem leasesKept_same (h : s'.db.jobs = s.db.jobs) : LeasesKept s s' fun _ => False :=
  fun id job token expires _ hj hl => ⟨job, by rw [← h]; exact hj, hl, rfl⟩

theorem step_slots {act : Action} (h : step P cfg s act = some s') : SlotStep cfg s s' act := by
  have heff := step_effect h
  cases hi : idle act with
  | true =>
    have hdb := step_idle h hi
    exact .kept (by rw [hdb]) (leasesKept_same (by rw [hdb]))
  | false =>
  have keep (hs : s'.db.slots = s.db.slots) (hr : ∀ token read drain, act ≠ .heartbeat token read drain)
      (hc : ∀ source read id owner token, act ≠ .claim source read id owner token) : SlotStep cfg s s' act :=
    .kept hs (leasesKept_of_effect heff hr hc)
  have refused (hdb : s'.db = s.db) : SlotStep cfg s s' act :=
    .kept (by rw [hdb]) (leasesKept_same (by rw [hdb]))
  unfold step at h
  cases act with
  | submit id event actor =>
    have hk := leasesKept_of_effect heff (by simp) (by simp)
    simp only at h
    split at h
    · rename_i db r hs
      cases h
      rcases submit_ok hs with ⟨hdb, -⟩ | ⟨-, -, -, -, -, ⟨-, hslots, -⟩ |
        ⟨l, old, job, -, -, hne, hj, -, hw, hslots⟩⟩
      · exact refused hdb
      · exact .kept hslots hk
      · refine .dropped old hslots hk fun job' hj' => ?_
        rw [hw.get_ne hne, Db.get?_put s.db hj, if_pos rfl] at hj'
        cases hj'; rfl
    · cases h; exact refused rfl
  | cancel id actor =>
    have hk := leasesKept_of_effect heff (by simp) (by simp)
    simp only at h
    split at h
    · rename_i db imm hs
      cases h
      obtain ⟨job, hj, -, -, ⟨-, hq, hl, c, rfl⟩ | ⟨-, -, rfl⟩⟩ := requestCancel_ok hs
      · refine .dropped id rfl hk fun job' hj' => ?_
        have hget := Db.get?_put s.db hj ((job.asked s.now actor).moved .cancelled c) [] id
        rw [if_pos rfl] at hget
        have : job' = (job.asked s.now actor).moved .cancelled c := Option.some.inj (hj'.symm.trans hget)
        rw [this]
        simpa [Job.moved] using hl
      · exact .kept rfl hk
    · cases h; exact refused rfl
  | publish id =>
    simp only at h
    split at h
    · rename_i db hs
      cases h
      obtain ⟨job, hj, rfl⟩ := published_ok hs
      exact keep rfl (by simp) (by simp)
    · cases h; exact refused rfl
  | unpublish id => cases h; exact keep rfl (by simp) (by simp)
  | claim source read id owner token =>
    rcases claim_won h with hdb | ⟨c, hc, hi⟩
    · exact refused hdb
    · obtain ⟨job, hj, -, hw, hceq, hslot, -⟩ := tryClaim_ok hc
      exact .claimed source read id owner token c job rfl hi hj hw.get hslot (leasesKept_of_wrote hw)
  | report token toStatus message =>
    obtain ⟨a, ha, h⟩ := onAttempt_some h
    unfold reportStep at h
    split at h
    · split at h
      · rename_i db ht
        cases h
        obtain ⟨job, hj, -, -, rfl⟩ := transition_ok ht
        exact keep rfl (by simp) (by simp)
      · cases h; exact refused rfl
    · cases h
  | heartbeat token read drain =>
    obtain ⟨a, ha, h⟩ := onAttempt_some h
    unfold heartbeatStep at h
    split at h
    · split at h
      · simp only [Option.some.injEq] at h
        have hdb : s'.db = (supervise cfg s.db read a.claim drain).1 := by rw [← h]; rfl
        rw [supervise_fst] at hdb
        cases hr : renewLease cfg s.db read a.claim with
        | none => rw [hr] at hdb; exact refused hdb
        | some r =>
          rw [hr, Option.map_some, Option.getD_some] at hdb
          obtain ⟨db', status, cancelAt⟩ := r
          change s'.db = db' at hdb
          obtain ⟨job, hj, ht, -, -, hw, -, hslots⟩ := renewLease_some hr
          rw [← hdb] at hw hslots
          exact .renewed token read drain a job rfl ha hj ht hw.get hslots (leasesKept_of_wrote hw)
      · cases h
    · cases h
  | record token =>
    have hk := leasesKept_of_effect heff (by simp) (by simp)
    obtain ⟨a, ha, h⟩ := onAttempt_some h
    obtain ⟨hr, -⟩ := recordStep_some h
    generalize hdb : s'.db = db at hr
    cases hr with
    | nothing => exact refused hdb
    | outcome toStatus ch release _ hp hrec =>
      obtain ⟨job, hj, ht, hm, rfl⟩ := record_ok hrec
      refine .freed a (by rw [hdb, endAttempt_slots]) hk fun job' hj' => ?_
      rw [hdb, (endAttempt_wrote hj (by simp [Job.moveEvent])).get] at hj'
      cases hj'; rfl
    | settled e ended _ hp hset =>
      obtain ⟨job, j, evs, hj, ht, hs, rfl⟩ := requeueOrEnd_ok hset
      refine .freed a (by rw [hdb, endAttempt_slots]) hk fun job' hj' => ?_
      have hown : ∀ e ∈ evs, e.jobId = a.claim.jobId := by cases (settle_ok hs).1 <;> simp [Job.moveEvent]
      rw [hdb, (endAttempt_wrote hj hown).get] at hj'
      cases hj'; rfl
  | reapLease id token =>
    have hk := leasesKept_of_effect heff (by simp) (by simp)
    simp only at h
    split at h
    · split at h
      · rename_i db hr
        cases h
        obtain ⟨job, j, evs, ended, hj, ht, hs, -, hw, hslots, -⟩ := reapLease_ok hr
        refine .dropped id hslots hk fun job' hj' => ?_
        rw [hw.get] at hj'
        cases hj'
        exact hs.same.1
      · cases h; exact refused rfl
    · cases h
  | reapOverdue id =>
    simp only at h
    split at h
    · split at h
      · rename_i db hr
        cases h
        obtain ⟨job, c, hj, -, -, rfl⟩ := reapOverdue_ok hr
        exact keep rfl (by simp) (by simp)
      · cases h; exact refused rfl
    · cases h
  | onAbandoned token =>
    obtain ⟨a, -, h⟩ := onAttempt_some h
    refine keep ?_ (by simp) (by simp)
    rcases onAbandonedStep_some h with hdb | ⟨-, hdb⟩ <;> simp [hdb]
  | lock holder model =>
    rcases lockStep_some h with rfl | ⟨-, -, -, hs, -⟩
    · exact refused rfl
    · exact keep hs (by simp) (by simp)
  | reapSlots read =>
    have hk := leasesKept_of_effect heff (by simp) (by simp)
    simp only at h
    split at h
    · rename_i hread
      cases h; exact .swept read hread rfl hk
    · cases h
  | unlock holder model =>
    simp only at h
    split at h
    · cases h; exact keep rfl (by simp) (by simp)
    · cases h
  | _ => cases hi

/-- A supervisor renews a lease whose slot row is gone or another job's. -/
def renewsWithoutSlot (s : System) : Action → Bool
  | .heartbeat token _ _ =>
    match s.attempts.get? token with
    | some a => (s.db.jobs.get? a.claim.jobId).any (fun job => job.heldBy a.claim) &&
        a.claim.slot.any fun n => !(s.db.slots.get? (a.claim.tenant, n)).any fun slot => slot.jobId == a.claim.jobId
    | none => false
  | _ => false

/-- The attempt that holds a lease has a slot below the limit, and the slot's
row is the job's until the lease expires. -/
def Slotted (cfg : Settings) (s : System) (id : JobId) (tenant : Tenant) (token : Token) (expires : Time) : Prop :=
  ∃ a n, s.attempts.get? token = some a ∧ a.claim.slot = some n ∧ (n : Int) < cfg.limit tenant ∧
    (expires < s.now ∨ s.db.slots.get? (tenant, n) = some ⟨id, expires⟩)

def AllSlotted (cfg : Settings) (s : System) : Prop :=
  ∀ id job token expires, s.db.jobs.get? id = some job → job.leasedTo token expires → 0 < cfg.limit job.tenant →
    Slotted cfg s id job.tenant token expires

/-- A slotted lease the step leaves alone stays slotted when its row does. -/
theorem slotted_step {act : Action} (hst : step P cfg s act = some s') {id : JobId} {tenant : Tenant} {token : Token}
    {expires : Time} (h : Slotted cfg s id tenant token expires)
    (hrow : ∀ n, s.db.slots.get? (tenant, n) = some ⟨id, expires⟩ → s.now ≤ expires →
      s'.db.slots.get? (tenant, n) = some ⟨id, expires⟩) : Slotted cfg s' id tenant token expires := by
  obtain ⟨a, n, ha, hn, hlt, hexp⟩ := h
  obtain ⟨a', ha', hf⟩ := attempt_kept hst ha
  refine ⟨a', n, ha', by rw [hf.1, hn], hlt, ?_⟩
  by_cases he : expires < s.now
  · exact .inl (Nat.lt_of_lt_of_le he (step_frame hst).now)
  · exact .inr (hrow n (hexp.resolve_left he) (Nat.not_lt.mp he))

theorem renewed_slotted {token : Token} {read : Time} {drain : Bool} {a : Attempt} {job : Job} (hs : s.Sound)
    (hI : AllSlotted cfg s) (hc : renewsWithoutSlot s (.heartbeat token read drain) = false)
    (hst : step P cfg s (.heartbeat token read drain) = some s') (ha : s.attempts.get? token = some a)
    (hj : s.db.jobs.get? a.claim.jobId = some job) (ht : job.leaseToken = some a.claim.leaseToken)
    (hslots : s'.db.slots = (s.db.renewSlot a.claim (read + cfg.jobLeaseTtlS)).slots) (hl : 0 < cfg.limit job.tenant) :
    Slotted cfg s' a.claim.jobId job.tenant a.claim.leaseToken (read + cfg.jobLeaseTtlS) := by
  obtain ⟨expires, he⟩ := Option.isSome_iff_exists.mp
    ((hs.leased _ job hj).expiry.trans (by rw [ht]; rfl))
  obtain ⟨b, n, hb, hn, hlt, -⟩ := hI _ job _ expires hj ⟨ht, he⟩ hl
  rw [hs.keyed token a ha, ha] at hb; cases hb
  obtain ⟨b', hb', hf⟩ := attempt_kept hst ha
  obtain ⟨o, ho, -, htenant, -⟩ := hs.owned _ job _ hj ht
  rw [hs.keyed token a ha, ha] at ho; cases ho
  -- the condition: the claim's slot row is still the job's
  have hrow : ∃ slot, s.db.slots.get? (a.claim.tenant, n) = some slot ∧ slot.jobId = a.claim.jobId := by
    have hheld : job.heldBy a.claim = true := heldBy_iff.mpr ht
    simpa [renewsWithoutSlot, ha, hj, hheld, hn, Option.any_eq_true] using hc
  obtain ⟨slot, hslot, hid⟩ := hrow
  refine ⟨b', n, by rw [hs.keyed token a ha]; exact hb', by rw [hf.1, hn], hlt, .inr ?_⟩
  rw [hslots, ← htenant]
  exact renewSlot_own hn hslot hid _

theorem claimed_slotted {id : JobId} {token : Token} {expires : Time} {c : Claim} {job : Job}
    (hi : s.attempts.insert? token (newAttempt c) = some s'.attempts)
    (hslots : TookSlot cfg s.db.slots s.now job.tenant id expires c.slot s'.db.slots) (hl : 0 < cfg.limit job.tenant) :
    Slotted cfg s' id job.tenant token expires := by
  refine ⟨newAttempt c, ?_⟩
  have hget : s'.attempts.get? token = some (newAttempt c) := by rw [Table.get?_insert? hi, if_pos rfl]
  generalize hsl : c.slot = slot at hslots
  generalize hs' : s'.db.slots = slots at hslots
  cases hslots with
  | unlimited h => omega
  | took n slots' hn hins =>
    exact ⟨n, hget, hsl, hn, .inr (by rw [Table.get?_insert? hins, if_pos rfl])⟩

/-- A claim leaves the unexpired slot rows of others alone. -/
theorem tookSlot_row {tenant tenant' : Tenant} {id id' : JobId} {expires expires' : Time} {slot : Option Nat}
    {slots slots' : Slots} {now : Time} {n : Nat} (h : TookSlot cfg slots now tenant id expires slot slots')
    (hrow : slots.get? (tenant', n) = some ⟨id', expires'⟩) (hle : now ≤ expires') :
    slots'.get? (tenant', n) = some ⟨id', expires'⟩ := by
  cases h with
  | unlimited => exact hrow
  | took m slots' hn hins =>
    have hkept : (Slots.purge slots tenant now).get? (tenant', n) = some ⟨id', expires'⟩ :=
      Table.get?_keep_some.mpr ⟨hrow, by simp [hle]⟩
    have hne : (tenant', n) ≠ (tenant, m) := by
      intro e
      rw [e, Table.insert?_fresh hins] at hkept; cases hkept
    rw [Table.get?_insert? hins, if_neg hne, hkept]

theorem allSlotted_step {act : Action} (hs : s.Sound) (hI : AllSlotted cfg s) (hc : renewsWithoutSlot s act = false)
    (hst : step P cfg s act = some s') : AllSlotted cfg s' := by
  intro id job' token expires hj' hlease hl
  -- a lease the step leaves alone, given that its row stays
  have carry {but : JobId → Prop} (hk : LeasesKept s s' but) (hbut : ¬ but id)
      (hrow : ∀ n, s.db.slots.get? (job'.tenant, n) = some ⟨id, expires⟩ → s.now ≤ expires →
        s'.db.slots.get? (job'.tenant, n) = some ⟨id, expires⟩) : Slotted cfg s' id job'.tenant token expires := by
    obtain ⟨job, hj, hlease', htenant⟩ := hk id job' token expires hbut hj' hlease
    rw [← htenant] at hl hrow ⊢
    exact slotted_step hst (hI id job token expires hj hlease' hl) hrow
  have leased : job'.leaseToken ≠ none := by rw [hlease.1]; simp
  cases step_slots hst with
  | kept hslots hk => exact carry hk not_false fun n hn _ => by rw [hslots]; exact hn
  | swept read hread hslots hk =>
    refine carry hk not_false fun n hn hle => ?_
    rw [hslots]
    exact Table.get?_keep_some.mpr ⟨hn, by simp [Nat.le_trans hread hle]⟩
  | freed a hslots hk hgone =>
    refine carry hk not_false fun n hn _ => ?_
    rw [hslots]
    exact get?_freeSlot_some hn fun e => leased (hgone job' (by rw [← e]; exact hj'))
  | dropped id' hslots hk hgone =>
    refine carry hk not_false fun n hn _ => ?_
    rw [hslots]
    exact get?_dropSlots_some hn fun e => leased (hgone job' (by rw [← e]; exact hj'))
  | renewed t read drain a job hact ha hj ht hj'' hslots hk =>
    by_cases hid : id = a.claim.jobId
    · subst hid hact
      rw [hj''] at hj'; cases hj'
      obtain ⟨htok, hexp⟩ := hlease
      rw [show (job.renewed (read + cfg.jobLeaseTtlS)).leaseToken = job.leaseToken from rfl, ht] at htok
      cases htok; cases hexp
      have h := renewed_slotted hs hI hc hst ha hj ht hslots hl
      exact h
    · refine carry hk hid fun n hn _ => ?_
      rw [hslots]
      exact renewSlot_other hn hid _
  | claimed source read id' owner t c job hact hi hj hj'' hslots hk =>
    by_cases hid : id = id'
    · subst hid
      rw [hj''] at hj'; cases hj'
      obtain ⟨htok, hexp⟩ := hlease
      cases htok; cases hexp
      exact claimed_slotted hi hslots hl
    · exact carry hk hid fun n hn hle => tookSlot_row hslots hn hle

end

def unexpired (s : System) (job : Job) : Bool :=
  job.leaseToken.isSome && job.leaseExpiresAt.any fun expires => decide (s.now ≤ expires)

def slotOf (s : System) (job : Job) : Option Nat :=
  (job.leaseToken.bind s.attempts.get?).bind fun a => a.claim.slot

/-- At most as many unexpired leases as the tenant's limit, no two in one slot. -/
structure SlotsRespected (cfg : Settings) (s : System) (tenant : Tenant) : Prop where
  count : ((s.db.jobs.rows.filter fun p => decide (p.2.tenant = tenant) && s.unexpired p.2).length : Int) ≤ cfg.limit tenant
  distinct : ∀ id₁ id₂ job₁ job₂, s.db.jobs.get? id₁ = some job₁ →
    s.db.jobs.get? id₂ = some job₂ → id₁ ≠ id₂ →
    job₁.tenant = tenant → job₂.tenant = tenant → s.unexpired job₁ = true → s.unexpired job₂ = true →
    s.slotOf job₁ ≠ s.slotOf job₂

section
variable {P : Platform} {cfg : Settings} {s : System}

theorem row_of_unexpired (hI : AllSlotted cfg s) {id : JobId} {job : Job} (hj : s.db.jobs.get? id = some job)
    (hl : 0 < cfg.limit job.tenant) (hu : s.unexpired job = true) :
    ∃ n expires, s.slotOf job = some n ∧ (n : Int) < cfg.limit job.tenant ∧
      s.db.slots.get? (job.tenant, n) = some ⟨id, expires⟩ := by
  simp only [unexpired, Bool.and_eq_true, Option.isSome_iff_exists, Option.any_eq_true, decide_eq_true_eq] at hu
  obtain ⟨⟨token, ht⟩, expires, he, hle⟩ := hu
  obtain ⟨a, n, ha, hn, hlt, hexp⟩ := hI id job token expires hj ⟨ht, he⟩ hl
  exact ⟨n, expires, by simp [slotOf, ht, ha, hn], hlt, hexp.resolve_left (Nat.not_lt.mpr hle)⟩

theorem slot_injective (hI : AllSlotted cfg s) {id₁ id₂ : JobId} {job₁ job₂ : Job}
    (h₁ : s.db.jobs.get? id₁ = some job₁) (h₂ : s.db.jobs.get? id₂ = some job₂)
    (ht : job₁.tenant = job₂.tenant)
    (hl : 0 < cfg.limit job₁.tenant) (hu₁ : s.unexpired job₁ = true) (hu₂ : s.unexpired job₂ = true)
    (he : s.slotOf job₁ = s.slotOf job₂) : id₁ = id₂ := by
  obtain ⟨n, e₁, hn₁, -, hr₁⟩ := row_of_unexpired hI h₁ hl hu₁
  obtain ⟨m, e₂, hn₂, -, hr₂⟩ := row_of_unexpired hI h₂ (ht ▸ hl) hu₂
  rw [hn₁, hn₂, Option.some.injEq] at he
  subst he
  rw [ht, hr₂, Option.some.injEq, JobSlot.mk.injEq] at hr₁
  exact hr₁.1.symm

/-- In every run in which each renewal finds its slot, a limited tenant's
unexpired leases are at most its limit and in different slots. -/
theorem slots_respected {models : Table ModelId ModelMetadata}
    (h : Steps (step P cfg) (fun s act => renewsWithoutSlot s act = false) (init models) s) {tenant : Tenant}
    (hl : 0 < cfg.limit tenant) : SlotsRespected cfg s tenant := by
  have hI : AllSlotted cfg s :=
    h.inv_of Sound (AllSlotted cfg) (fun _ _ _ hs _ hst => sound_step hs hst)
      (fun _ _ _ hs hI hc hst => allSlotted_step hs hI hc hst) (sound_init models) (fun _ _ _ _ hj => nomatch hj)
  refine ⟨?_, fun id₁ id₂ job₁ job₂ h₁ h₂ hne ht₁ ht₂ hu₁ hu₂ he => ?_⟩
  · -- the slots of the unexpired leases are different numbers below the limit
    let held := s.db.jobs.rows.filter fun p => decide (p.2.tenant = tenant) && s.unexpired p.2
    have hheld : ∀ p ∈ held, s.db.jobs.get? p.1 = some p.2 ∧ p.2.tenant = tenant ∧ s.unexpired p.2 = true := by
      rintro ⟨id, job⟩ hp
      obtain ⟨hj, hp⟩ := Table.mem_select.mp hp
      simpa [hj] using hp
    have hnodup : (held.map fun p => (s.slotOf p.2).getD 0).Nodup := by
      have hd : held.Nodup := (List.Nodup.of_map _ s.db.jobs.nodup).filter _
      refine (List.nodup_map_iff_inj_on hd).mpr fun p hp q hq he => ?_
      obtain ⟨hjp, htp, hup⟩ := hheld p hp
      obtain ⟨hjq, htq, huq⟩ := hheld q hq
      obtain ⟨n, _, hn, -⟩ := row_of_unexpired hI hjp (htp ▸ hl) hup
      obtain ⟨m, _, hm, -⟩ := row_of_unexpired hI hjq (htq ▸ hl) huq
      simp only [hn, hm, Option.getD_some] at he
      have hid := slot_injective hI hjp hjq (htp.trans htq.symm) (htp ▸ hl) hup huq (by rw [hn, hm, he])
      obtain ⟨p₁, p₂⟩ := p; obtain ⟨q₁, q₂⟩ := q
      simp only at hid hjp hjq
      subst hid
      rw [hjp, Option.some.injEq] at hjq
      rw [hjq]
    have hsub : (held.map fun p => (s.slotOf p.2).getD 0) ⊆ List.range (cfg.limit tenant).toNat := by
      intro n hn
      obtain ⟨p, hp, rfl⟩ := List.mem_map.mp hn
      obtain ⟨hj, ht, hu⟩ := hheld p hp
      obtain ⟨n, _, hn, hlt, -⟩ := row_of_unexpired hI hj (ht ▸ hl) hu
      rw [List.mem_range, hn, Option.getD_some]
      rw [ht] at hlt; omega
    have hle := (List.subperm_of_subset hnodup hsub).length_le
    rw [List.length_map, List.length_range] at hle
    show (held.length : Int) ≤ _
    omega
  · exact hne (slot_injective hI h₁ h₂ (ht₁.trans ht₂.symm) (ht₁ ▸ hl) hu₁ hu₂ he)

end

def oneSlot : Settings := { Settings.defaults with jobTenantConcurrency := 1 }

def twoModels : Table ModelId ModelMetadata :=
  ⟨[("cell-load", ⟨"cell-load", some "sklearn"⟩), ("handover", ⟨"handover", some "sklearn"⟩)], by decide⟩

def oneRuns : List Action :=
  [.submit "a1" (driftOf "cell-load" "e1") "oncall", .submit "b1" (driftOf "handover" "e2") "oncall",
    .claim .message 0 "a1" "w1" "t1", .start "t1"]

theorem slots_respected_one : ∃ s, Steps (step (.sqlite id) oneSlot) (fun s act => renewsWithoutSlot s act = false)
      (init twoModels) s ∧ (s.db.jobs.get? "a1").map s.unexpired = some true ∧
    tryClaim oneSlot s.db 0 s.now "b1" "w2" "t2" matches .ok none ∧ SlotsRespected oneSlot s "default" := by
  obtain ⟨s, hs, hp⟩ := Steps.exists_of_runs (step (.sqlite id) oneSlot) (fun s act => renewsWithoutSlot s act = false)
    (init twoModels) oneRuns
    (fun s => (s.db.jobs.get? "a1").map s.unexpired == some true &&
      tryClaim oneSlot s.db 0 s.now "b1" "w2" "t2" matches .ok none) (by decide)
  simp only [Bool.and_eq_true, beq_iff_eq] at hp
  exact ⟨s, hs, hp.1, hp.2, slots_respected hs (by decide)⟩

/-- A supervisor that wakes after its slot was taken renews its lease: two
unexpired leases of a tenant with one slot. -/
theorem slots_outrun : ∃ s, Steps (step (.sqlite id) oneSlot) Free (init twoModels) s ∧
    ¬ SlotsRespected oneSlot s "default" ∧
    (s.db.jobs.rows.filter fun p => decide (p.2.tenant = "default") && s.unexpired p.2).length = 2 ∧
    (s.db.jobs.get? "a1").bind s.slotOf = some 0 ∧ (s.db.jobs.get? "b1").bind s.slotOf = some 0 := by
  obtain ⟨s, hs, hp⟩ := Steps.exists_of_runs (step (.sqlite id) oneSlot) Free (init twoModels)
    (oneRuns ++ [.advance 31000000, .claim .message 31000000 "b1" "w2" "t2", .heartbeat "t1" 31000000 false])
    (fun s => (s.db.jobs.rows.filter fun p => decide (p.2.tenant = "default") && s.unexpired p.2).length == 2 &&
      ((s.db.jobs.get? "a1").bind s.slotOf == some 0 && (s.db.jobs.get? "b1").bind s.slotOf == some 0)) (by decide)
  simp only [Bool.and_eq_true, beq_iff_eq] at hp
  obtain ⟨hcount, ha, hb⟩ := hp
  refine ⟨s, hs, fun hr => ?_, hcount, ha, hb⟩
  have := hr.count
  rw [hcount] at this
  exact absurd this (by decide)

end System

end OranAdapt
