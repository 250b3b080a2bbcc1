import OranAdapt.Dispatch

/-!
# One owner, and nothing lost

A dispatcher that claimed a row knows of it what the claim wrote. While the
lease lasts nobody else can write the row, and later a write of its own finds
it only as long as nobody took it over: that is what each step keeps of every
claim in hand.
-/

namespace OranAdapt

open Runs

/-- The claims of a batch whose outcome is not recorded yet. -/
def DispatcherPhase.inHand : DispatcherPhase → List Claimed
  | .idle | .polling _ _ | .claiming _ _ => []
  | .delivering rest => rest
  | .loaded c _ _ rest | .denied c _ rest | .sending c _ _ rest | .answered c _ rest => c :: rest

namespace Outbox

variable {settings : NotificationSettings} {s s' : Outbox} {a : OutboxAction} {d e : DispatcherId} {k : Nat}
variable {r r' : NotificationDelivery} {c : Claimed} {phase : DispatcherPhase}

/-- What a dispatcher knows of a row it claimed. -/
structure ClaimSound (now : Time) (d : DispatcherId) (c : Claimed) (r : NotificationDelivery) : Prop where
  redrives : c.redriveCount ≤ r.redriveCount
  current : r.leasedBy = some d → c.redriveCount = r.redriveCount
  live : now < c.leaseEnd → r.status = .pending ∧ r.leasedBy = some d ∧ r.nextAttemptAt = c.leaseEnd

def Reads (s : Outbox) : DispatcherPhase → Prop
  | .polling now _ | .claiming now _ => now ≤ s.now
  | .loaded c sink message _ | .sending c sink message _ =>
    ∃ r, s.deliveries.get? c.delivery = some r ∧ r.sink = sink ∧ r.eventId = message.eventId
  | .answered c (.delivered _) _ => ∃ r, s.deliveries.get? c.delivery = some r ∧ (r.sink, r.eventId) ∈ s.accepted
  | _ => True

structure Held (s : Outbox) (d : DispatcherId) (phase : DispatcherPhase) : Prop where
  nodup : (phase.inHand.map Claimed.delivery).Nodup
  claims : ∀ c ∈ phase.inHand, ∃ r, s.deliveries.get? c.delivery = some r ∧ ClaimSound s.now d c r
  reads : s.Reads phase

/-- What every step keeps. -/
structure Sound (s : Outbox) : Prop where
  held : ∀ d, s.Held d (s.dispatchers d).phase
  delivered : ∀ k r, s.deliveries.get? k = some r → r.status = .delivered → (r.sink, r.eventId) ∈ s.accepted

/-! ## What the others keep -/

theorem RowStep.identity (h : RowStep settings s k a r r') : r'.sink = r.sink ∧ r'.eventId = r.eventId := by
  cases h with
  | same | claimed | released | redriven => exact ⟨rfl, rfl⟩
  | @recorded _ _ outcome => cases outcome <;> exact ⟨rfl, rfl⟩

theorem RowStep.redriveCount_le (h : RowStep settings s k a r r') : r.redriveCount ≤ r'.redriveCount := by
  cases h with
  | same | claimed | released => exact Nat.le_refl _
  | redriven => exact Nat.le_succ _
  | @recorded _ _ outcome => cases outcome <;> exact Nat.le_refl _

theorem finished_leasedBy (now : Time) (r : NotificationDelivery) (outcome : DeliveryOutcome) :
    (r.finished now outcome).leasedBy = none := by
  cases outcome <;> rfl

/-- A write of another dispatcher takes a live claim from nobody. -/
theorem ClaimSound.row (h : ClaimSound s.now d c r) (hread : ∀ e, s.Reads (s.dispatchers e).phase) (ha : a.actor ≠ some d)
    (hr : RowStep settings s k a r r') : ClaimSound s.now d c r' := by
  refine ⟨h.redrives.trans hr.redriveCount_le, ?_, ?_⟩
  · intro howner
    cases hr with
    | same => exact h.current howner
    | claimed => exact absurd howner ha
    | recorded =>
      rw [finished_leasedBy] at howner
      cases howner
    | released | redriven => cases howner
  · intro hlive
    obtain ⟨hpending, howner, hnext⟩ := h.live hlive
    cases hr with
    | same => exact ⟨hpending, howner, hnext⟩
    | @claimed e now ks _ hphase _ hdue =>
      -- the claim would have to find the row due before the lease ends
      have hnow := hread e
      rw [hphase] at hnow
      have hle : c.leaseEnd ≤ s.now := hnext ▸ (due_iff.mp hdue).2.trans hnow
      exact absurd hlive (Nat.not_lt.mpr hle)
    | recorded _ _ howner' | released _ _ howner' =>
      rw [howner] at howner'
      exact absurd howner'.symm ha
    | redriven hdead =>
      rw [hpending] at hdead
      cases hdead

theorem ClaimSound.later {now now' : Time} (h : ClaimSound now d c r) (hle : now ≤ now') : ClaimSound now' d c r :=
  ⟨h.redrives, h.current, fun hlive => h.live (Nat.lt_of_le_of_lt hle hlive)⟩

theorem Turn.dispatchers (ht : Turn settings s d a s') (hne : e ≠ d) : s'.dispatchers e = s.dispatchers e := by
  cases ht <;> simp [setPhase, setDispatcher, Function.update_of_ne hne]

theorem step_dispatchers (hs : step settings s a = some s')
    (ha : a.actor ≠ some d) : s'.dispatchers d = s.dispatchers d := by
  cases hactor : a.actor with
  | none =>
    cases a with
    | wait => cases hs; rfl
    | publish =>
      obtain ⟨t, -, rfl⟩ := publishRow_ok hs
      rfl
    | redrive =>
      obtain ⟨r, -, -, rfl⟩ := redriveRow_ok hs
      rfl
    | _ => cases hactor
  | some e =>
    have hne : d ≠ e := by
      rintro rfl
      exact ha hactor
    exact (step_turn hs hactor).dispatchers hne

theorem step_clock (hs : step settings s a = some s') : s.now ≤ s'.now ∧ ∀ x ∈ s.accepted, x ∈ s'.accepted := by
  cases hactor : a.actor with
  | none =>
    cases a with
    | wait => cases hs; exact ⟨Nat.le_add_right _ _, fun _ h => h⟩
    | publish =>
      obtain ⟨t, -, rfl⟩ := publishRow_ok hs
      exact ⟨Nat.le_refl _, fun _ h => h⟩
    | redrive =>
      obtain ⟨r, -, -, rfl⟩ := redriveRow_ok hs
      exact ⟨Nat.le_refl _, fun _ h => h⟩
    | _ => cases hactor
  | some e =>
    cases step_turn hs hactor with
    | answer =>
      refine ⟨Nat.le_refl _, fun x hx => ?_⟩
      simp only [setDispatcher]
      split
      · exact List.mem_cons_of_mem _ hx
      · exact hx
    | _ => exact ⟨Nat.le_refl _, fun _ h => h⟩

theorem Reads.frame (h : s.Reads phase) (hs : step settings s a = some s') : s'.Reads phase := by
  obtain ⟨hnow, hacc⟩ := step_clock hs
  cases phase with
  | idle | delivering | denied => trivial
  | polling now | claiming now => exact Nat.le_trans h hnow
  | loaded c sink message | sending c sink message =>
    obtain ⟨r, hr, hsink, hevent⟩ := h
    obtain ⟨r', hr', hrow⟩ := step_row hs hr
    exact ⟨r', hr', hrow.identity.1.trans hsink, hrow.identity.2.trans hevent⟩
  | answered c outcome =>
    cases outcome with
    | retry | dead => trivial
    | delivered =>
      obtain ⟨r, hr, hin⟩ := h
      obtain ⟨r', hr', hrow⟩ := step_row hs hr
      refine ⟨r', hr', ?_⟩
      rw [hrow.identity.1, hrow.identity.2]
      exact hacc _ hin

/-- A step of another dispatcher leaves what is in hand as it was. -/
theorem Held.frame (h : s.Held d phase) (hread : ∀ e, s.Reads (s.dispatchers e).phase) (hs : step settings s a = some s')
    (ha : a.actor ≠ some d) : s'.Held d phase where
  nodup := h.nodup
  claims c hc := by
    obtain ⟨r, hr, hsound⟩ := h.claims c hc
    obtain ⟨r', hr', hrow⟩ := step_row hs hr
    exact ⟨r', hr', (hsound.row hread ha hrow).later (step_clock hs).1⟩
  reads := h.reads.frame hs

/-- A dispatcher goes on to a phase with fewer claims in hand, whose rows are as they were. -/
theorem Held.goOn {phase' : DispatcherPhase} (h : s.Held d phase) (hnow : s'.now = s.now)
    (hsub : phase'.inHand.Sublist phase.inHand)
    (hrows : ∀ c ∈ phase'.inHand, s'.deliveries.get? c.delivery = s.deliveries.get? c.delivery)
    (hreads : s'.Reads phase') :
    s'.Held d phase' where
  nodup := h.nodup.sublist (hsub.map _)
  claims c hc := by
    obtain ⟨r, hr, hsound⟩ := h.claims c (hsub.subset hc)
    exact ⟨r, (hrows c hc).trans hr, hnow ▸ hsound⟩
  reads := hreads

theorem Held.rest_ne {rest : List Claimed} (h : s.Held d phase) (hphase : phase.inHand = c :: rest) {c' : Claimed}
    (hc' : c' ∈ rest) : c'.delivery ≠ c.delivery := by
  have hnodup := h.nodup
  rw [hphase, List.map_cons, List.nodup_cons] at hnodup
  intro heq
  exact hnodup.1 (heq ▸ List.mem_map_of_mem hc')

theorem Held.empty (hnil : phase.inHand = []) (hreads : s.Reads phase) : s.Held d phase where
  nodup := by
    rw [hnil]
    exact List.nodup_nil
  claims c hc := by
    rw [hnil] at hc
    cases hc
  reads := hreads

theorem Held.claimed (now : Time) (ks : List Nat) :
    Held { s with deliveries := (claimRows settings d now ks s.deliveries).1 } d
      (.delivering (claimRows settings d now ks s.deliveries).2) where
  nodup := claimRows_nodup
  claims c hc := by
    obtain ⟨r, hr, hdue, hmem, hlease, hcount⟩ := claimRows_mem hc
    refine ⟨r.claimed d now (now + settings.lease), ?_, ?_⟩
    · simp [get?_claimRows, hr, hmem, hdue]
    · exact ⟨Nat.le_of_eq hcount, fun _ => hcount, fun _ => ⟨(due_iff.mp hdue).1, rfl, hlease.symm⟩⟩
  reads := trivial

theorem outcome_delivered {now t : Time} {message : OutboundMessage} {result : SendResult} {rng : Rat}
    (h : Dispatcher.outcome settings now message result rng = .delivered t) : Dispatcher.error result = none := by
  unfold Dispatcher.outcome at h
  split at h
  · assumption
  · split at h <;> cases h

theorem setDispatcher_self (s : Outbox) (d : DispatcherId) (p : Dispatcher) : (s.setDispatcher d p).dispatchers d = p :=
  Function.update_self ..

theorem Held.turn (h : s.Held d (s.dispatchers d).phase) (ht : Turn settings s d a s') :
    s'.Held d (s'.dispatchers d).phase := by
  cases ht with
  | poll hphase =>
    rw [setPhase, setDispatcher_self]
    exact .empty rfl (Nat.le_refl _)
  | select hphase =>
    rw [setPhase, setDispatcher_self]
    have hnow := h.reads
    rw [hphase] at hnow
    exact .empty rfl hnow
  | @claim now ks hphase =>
    rw [setPhase, setDispatcher_self]
    have hheld : Held { s with deliveries := (claimRows settings d now ks s.deliveries).1 } d _ := .claimed now ks
    exact ⟨hheld.nodup, hheld.claims, hheld.reads⟩
  | finish hphase | abandon =>
    rw [setPhase, setDispatcher_self]
    exact .empty rfl trivial
  | load hphase hrow =>
    rw [setPhase, setDispatcher_self]
    rw [hphase] at h
    exact h.goOn rfl (List.Sublist.refl _) (fun _ _ => rfl) ⟨_, hrow, rfl, rfl⟩
  | send circuits hphase =>
    rw [setDispatcher_self]
    rw [hphase] at h
    exact h.goOn rfl (List.Sublist.refl _) (fun _ _ => rfl) h.reads
  | deny circuits due hphase =>
    rw [setDispatcher_self]
    rw [hphase] at h
    exact h.goOn rfl (List.Sublist.refl _) (fun _ _ => rfl) trivial
  | @answer c sink message rest circuits result rng hphase =>
    rw [setDispatcher_self]
    rw [hphase] at h
    refine h.goOn rfl (List.Sublist.refl _) (fun _ _ => rfl) ?_
    cases houtcome : Dispatcher.outcome settings s.now message result rng with
    | retry | dead => trivial
    | delivered =>
      obtain ⟨r, hr, rfl, hevent⟩ := h.reads
      refine ⟨r, hr, ?_⟩
      simp [setDispatcher, outcome_delivered houtcome, hevent]
  | @record c outcome rest hphase =>
    rw [setPhase, setDispatcher_self]
    rw [hphase] at h
    refine h.goOn rfl (List.sublist_cons_self _ _) (fun c' hc' => ?_) trivial
    have hne := h.rest_ne rfl hc'
    simp [setDispatcher, finishRow, get?_getD_updateWhere, hne]
  | @release c due rest hphase =>
    rw [setPhase, setDispatcher_self]
    rw [hphase] at h
    refine h.goOn rfl (List.sublist_cons_self _ _) (fun c' hc' => ?_) trivial
    have hne := h.rest_ne rfl hc'
    simp [setDispatcher, releaseRow, get?_getD_updateWhere, hne]

theorem step_row_inv (hs : step settings s a = some s') (hr' : s'.deliveries.get? k = some r') :
    (∃ r, s.deliveries.get? k = some r ∧ RowStep settings s k a r r') ∨
      (s.deliveries.get? k = none ∧ r'.status = .pending) := by
  cases hr : s.deliveries.get? k with
  | some r =>
    obtain ⟨r'', hr'', hrow⟩ := step_row hs hr
    rw [hr'] at hr''
    cases hr''
    exact .inl ⟨r, rfl, hrow⟩
  | none =>
    refine .inr ⟨rfl, ?_⟩
    cases hactor : a.actor with
    | none =>
      cases a with
      | wait =>
        cases hs
        rw [hr] at hr'
        cases hr'
      | publish =>
        obtain ⟨t, ht, rfl⟩ := publishRow_ok hs
        rw [Table.get?_insert? ht] at hr'
        by_cases hk : k = s.lastId + 1
        · rw [if_pos hk] at hr'
          cases hr'
          rfl
        · rw [if_neg hk, hr] at hr'
          cases hr'
      | redrive =>
        obtain ⟨r, -, -, rfl⟩ := redriveRow_ok hs
        simp [hr] at hr'
      | _ => cases hactor
    | some d =>
      cases step_turn hs hactor <;>
        simp [setPhase, setDispatcher, get?_claimRows, finishRow, releaseRow, get?_getD_updateWhere, hr] at hr'

theorem Sound.delivered_step (h : s.Sound) (hs : step settings s a = some s') (hr' : s'.deliveries.get? k = some r')
    (hdelivered : r'.status = .delivered) : (r'.sink, r'.eventId) ∈ s'.accepted := by
  rcases step_row_inv hs hr' with ⟨r, hr, hrow⟩ | ⟨-, hnew⟩
  · apply (step_clock hs).2
    rw [hrow.identity.1, hrow.identity.2]
    cases hrow with
    | same | released => exact h.delivered k _ hr hdelivered
    | claimed _ _ hdue =>
      have hpending : r.status = .delivered := hdelivered
      rw [(due_iff.mp hdue).1] at hpending
      cases hpending
    | @recorded d c outcome rest _ hphase hk _ hpending =>
      cases outcome with
      | delivered =>
        obtain ⟨rc, hrc, hin⟩ := hphase ▸ (h.held d).reads
        rw [← hk, hr] at hrc
        cases hrc
        exact hin
      | retry =>
        have hstatus : r.status = .delivered := hdelivered
        rw [hpending] at hstatus
        cases hstatus
      | dead => cases hdelivered
    | redriven => cases hdelivered
  · rw [hnew] at hdelivered
    cases hdelivered

theorem Sound.step (h : s.Sound) (hs : step settings s a = some s') : s'.Sound where
  held d := by
    by_cases ha : a.actor = some d
    · exact (h.held d).turn (step_turn hs ha)
    · rw [step_dispatchers hs ha]
      exact (h.held d).frame (fun e => (h.held e).reads) hs ha
  delivered _ _ hr' hdelivered := h.delivered_step hs hr' hdelivered

/-! ## The outbox loses nothing -/

/-- The dispatcher claimed the row, and its lease has not run out. -/
def HoldsLease (s : Outbox) (d : DispatcherId) (k : Nat) : Prop :=
  ∃ c ∈ (s.dispatchers d).phase.inHand, c.delivery = k ∧ s.now < c.leaseEnd

/-- The actions of a dispatcher that may write the row. -/
def Writes (s : Outbox) (k : Nat) : OutboxAction → Prop
  | .claim d => ∃ now ks, (s.dispatchers d).phase = .claiming now ks ∧ k ∈ ks
  | .record d => ∃ c outcome rest, (s.dispatchers d).phase = .answered c outcome rest ∧ k = c.delivery
  | .release d => ∃ c due rest, (s.dispatchers d).phase = .denied c due rest ∧ k = c.delivery
  | _ => False

/-- What a step may make of a row. -/
structure RowSafe (a : OutboxAction) (k : Nat) (r r' : NotificationDelivery) : Prop where
  delivered : r.status = .delivered → r'.status = .delivered
  dead : r.status = .dead → a ≠ .redrive k → r'.status = .dead
  owner : ∀ d, a = .record d ∨ a = .release d → r' ≠ r → r.leasedBy = some d
  crash : ∀ d, a = .abandon d → r' = r

/-- What holds of the outbox whenever it is looked at, and of whatever happens next. -/
structure Safe (settings : NotificationSettings) (s : Outbox) : Prop where
  /-- every delivered row was accepted -/
  accepted : ∀ k r, s.deliveries.get? k = some r → r.status = .delivered → (r.sink, r.eventId) ∈ s.accepted
  /-- the holder of an unexpired lease is the one the row names -/
  holder : ∀ d k, s.HoldsLease d k → ∃ r, s.deliveries.get? k = some r ∧ r.leasedBy = some d
  oneHolder : ∀ d e k, s.HoldsLease d k → s.HoldsLease e k → d = e
  next : ∀ a s', Outbox.step settings s a = some s' → ∀ k r, s.deliveries.get? k = some r →
    ∃ r', s'.deliveries.get? k = some r' ∧ RowSafe a k r r'
  /-- a pending row is due at the time it names, whoever crashes -/
  waits : ∀ k r, s.deliveries.get? k = some r → r.status = .pending →
    ∀ s', Steps (Outbox.step settings) (fun s a => ¬s.Writes k a) s s' →
      s'.deliveries.get? k = some r ∧ (r.nextAttemptAt ≤ s'.now → r.due s'.now = true)
  /-- a poll then selects it, unless too many others are due -/
  selected : ∀ now usable k r, s.deliveries.get? k = some r → r.due now = true → r.sink ∈ usable →
    (s.deliveries.rows.filter fun p => p.2.due now).length ≤ settings.dispatchBatch →
    k ∈ candidates settings now usable s.deliveries
  /-- and claims it, unless another one did -/
  claimed : ∀ d now ks k r, (s.dispatchers d).phase = .claiming now ks → k ∈ ks → s.deliveries.get? k = some r →
    r.due now = true → ∃ s', Outbox.step settings s (.claim d) = some s' ∧
      ∃ c ∈ (s'.dispatchers d).phase.inHand, c.delivery = k ∧ c.leaseEnd = now + settings.lease

theorem RowStep.safe (h : RowStep settings s k a r r') : RowSafe a k r r' where
  delivered hr := by
    cases h with
    | same | released => exact hr
    | claimed _ _ hdue =>
      rw [(due_iff.mp hdue).1] at hr
      cases hr
    | recorded _ _ _ hpending =>
      rw [hpending] at hr
      cases hr
    | redriven hdead =>
      rw [hdead] at hr
      cases hr
  dead hr ha := by
    cases h with
    | same | released => exact hr
    | claimed _ _ hdue =>
      rw [(due_iff.mp hdue).1] at hr
      cases hr
    | recorded _ _ _ hpending =>
      rw [hpending] at hr
      cases hr
    | redriven => exact absurd rfl ha
  owner d ha hne := by
    cases h with
    | same => exact absurd rfl hne
    | claimed | redriven => simp at ha
    | recorded _ _ howner | released _ _ howner =>
      simp at ha
      rw [howner, ha]
  crash d ha := by
    subst ha
    cases h
    rfl

theorem RowStep.eq_of_not_writes (h : RowStep settings s k a r r') (ha : ¬s.Writes k a)
    (hr : r.status = .pending) : r' = r := by
  cases h with
  | same => rfl
  | claimed hphase hk => exact absurd ⟨_, _, hphase, hk⟩ ha
  | recorded hphase hk | released hphase hk => exact absurd ⟨_, _, _, hphase, hk⟩ ha
  | redriven hdead =>
    rw [hr] at hdead
    cases hdead

theorem Sound.holder (h : s.Sound) (hd : s.HoldsLease d k) : ∃ r, s.deliveries.get? k = some r ∧ r.leasedBy = some d := by
  obtain ⟨c, hc, rfl, hlive⟩ := hd
  obtain ⟨r, hr, hsound⟩ := (h.held d).claims c hc
  exact ⟨r, hr, (hsound.live hlive).2.1⟩

theorem Sound.oneHolder (h : s.Sound) (hd : s.HoldsLease d k) (he : s.HoldsLease e k) : d = e := by
  obtain ⟨r, hr, hdr⟩ := h.holder hd
  obtain ⟨r', hr', her⟩ := h.holder he
  rw [hr] at hr'
  cases hr'
  rw [hdr] at her
  exact Option.some.inj her

theorem waits_run (hr : s.deliveries.get? k = some r) (hpending : r.status = .pending)
    (hrun : Steps (Outbox.step settings) (fun s a => ¬s.Writes k a) s s') : s'.deliveries.get? k = some r := by
  refine hrun.inv (fun s => s.deliveries.get? k = some r) ?_ hr
  intro s a s' hr ha hs
  obtain ⟨r', hr', hrow⟩ := step_row hs hr
  rw [hr', hrow.eq_of_not_writes ha hpending]

theorem claim_takes {now : Time} {ks : List Nat} (hphase : (s.dispatchers d).phase = .claiming now ks) (hk : k ∈ ks)
    (hr : s.deliveries.get? k = some r) (hdue : r.due now = true) :
    ∃ s', Outbox.step settings s (.claim d) = some s' ∧
      ∃ c ∈ (s'.dispatchers d).phase.inHand, c.delivery = k ∧ c.leaseEnd = now + settings.lease := by
  obtain ⟨c, hc, hck⟩ : ∃ c ∈ (claimRows settings d now ks s.deliveries).2, c.delivery = k :=
    claimRows_takes hk hr hdue
  obtain ⟨-, -, -, -, hlease, -⟩ := claimRows_mem hc
  refine ⟨_, by simp only [Outbox.step, hphase]; rfl, c, ?_, hck, hlease⟩
  rw [setPhase, setDispatcher_self]
  exact hc

theorem mem_candidates {now : Time} {usable : List String} (hr : s.deliveries.get? k = some r) (hdue : r.due now = true)
    (hsink : r.sink ∈ usable)
    (hfew : (s.deliveries.rows.filter fun p => p.2.due now).length ≤ settings.dispatchBatch) :
    k ∈ candidates settings now usable s.deliveries := by
  unfold candidates
  rw [List.take_of_length_le]
  · apply List.mem_map.mpr
    refine ⟨(k, r), ?_, rfl⟩
    rw [List.mem_insertionSort, List.mem_filter]
    exact ⟨Table.mem_rows.mpr hr, by simp [hdue, hsink]⟩
  · have hsub : (s.deliveries.rows.filter fun p => p.2.due now && p.2.sink ∈ usable).Sublist
        (s.deliveries.rows.filter fun p => p.2.due now) := by
      apply List.monotone_filter_right
      intro p hp
      simp only [Bool.and_eq_true] at hp
      exact hp.1
    rw [List.length_insertionSort]
    exact hsub.length_le.trans hfew

theorem Sound.safe (h : s.Sound) : s.Safe settings where
  accepted := h.delivered
  holder _ _ := h.holder
  oneHolder _ _ _ := h.oneHolder
  next a s' hs k r hr := by
    obtain ⟨r', hr', hrow⟩ := step_row hs hr
    exact ⟨r', hr', hrow.safe⟩
  waits k r hr hpending s' hrun :=
    ⟨waits_run hr hpending hrun, fun hle => due_iff.mpr ⟨hpending, hle⟩⟩
  selected _ _ _ _ hr hdue hsink hfew := mem_candidates hr hdue hsink hfew
  claimed _ _ _ _ _ hphase hk hr hdue := claim_takes hphase hk hr hdue

/-- No delivery yet, and every dispatcher about to poll, with any sinks and any circuits. -/
structure Initial (s : Outbox) : Prop where
  deliveries : s.deliveries = Table.empty
  idle : ∀ d, (s.dispatchers d).phase = .idle
  sends : ∀ k, s.sends k = 0

theorem Initial.sound (h : s.Initial) : s.Sound where
  held d := by
    rw [h.idle d]
    exact .empty rfl trivial
  delivered k r hr := by
    rw [h.deliveries] at hr
    cases hr

theorem sound_run (h0 : s.Initial) (hrun : Steps (Outbox.step settings) Free s s') : s'.Sound :=
  hrun.inv Sound (fun _ _ _ h _ hs => h.step hs) h0.sound

/-- Every interleaving of claims, sends, outcomes, releases, crashes and redrives leaves the outbox safe. -/
theorem outbox_safe (h0 : s.Initial) (hrun : Steps (Outbox.step settings) Free s s') : s'.Safe settings :=
  (sound_run h0 hrun).safe

/-! ### Two dispatchers and a late answer -/

def twoDispatchers : Outbox where
  now := 0
  dispatchers _ := { sinks := ["log"] }

/-- The first dispatcher's lease runs out while it sends; the second delivers, and then the first one's answer comes. -/
def lateAnswer : List OutboxAction :=
  [.publish "event" "log", .poll "a", .select "a", .claim "a", .load "a", .allow "a", .wait 60000000,
    .poll "b", .select "b", .claim "b", .load "b", .allow "b", .answer "b" .accepted 0, .record "b",
    .answer "a" (.refused "timeout" true none) 0, .record "a", .abandon "a"]

theorem outbox_safe_lateAnswer :
    ∃ s : Outbox, (∃ r, s.deliveries.get? 1 = some r ∧ r.status = .delivered ∧ r.attempts = 2) ∧ s.Safe {} := by
  have hinitial : twoDispatchers.Initial := ⟨rfl, fun _ => rfl, fun _ => rfl⟩
  obtain ⟨s, hrun, hrow⟩ := Steps.exists_of_runs (Outbox.step {}) Free twoDispatchers lateAnswer
    (fun s => (s.deliveries.get? 1).any fun r => r.status = .delivered ∧ r.attempts = 2) (by decide +kernel)
  obtain ⟨r, hr, hstatus⟩ := (Option.any_eq_true _ _).mp hrow
  exact ⟨s, ⟨r, hr, of_decide_eq_true hstatus⟩, outbox_safe hinitial hrun⟩

end Outbox

end OranAdapt
