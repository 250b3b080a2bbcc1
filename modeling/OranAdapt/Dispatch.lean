import OranAdapt.Notifications

/-!
# What a step does to a delivery

Every write of the outbox, with the row it finds: a claim takes a due row, an
outcome and a release are those of the dispatcher the row names, a redrive
starts from a dead row. From these alone follows what every interleaving keeps.
-/

namespace OranAdapt

def OutboxAction.actor : OutboxAction → Option DispatcherId
  | .wait _ | .publish _ _ | .redrive _ => none
  | .poll d | .select d | .claim d | .load d | .allow d | .answer d _ _ | .record d | .release d | .abandon d => some d

namespace Outbox

variable {settings : NotificationSettings} {s s' : Outbox} {a : OutboxAction} {d e : DispatcherId} {k : Nat}
variable {r r' : NotificationDelivery} {t : Deliveries} {now : Time} {ks : List Nat}

/-! ## The conditional updates -/

theorem due_iff : r.due now = true ↔ r.status = .pending ∧ r.nextAttemptAt ≤ now := by
  simp [NotificationDelivery.due]

theorem not_due_claimed (d : DispatcherId) (r : NotificationDelivery) :
    (r.claimed d now (now + settings.lease)).due now = false := by
  have hlate : ¬now + settings.lease ≤ now := Nat.not_le.mpr (Nat.lt_add_of_pos_right settings.lease_pos)
  exact decide_eq_false fun h => hlate h.2

theorem claimRows_cons_due (h : t.get? k = some r) (hdue : r.due now = true) :
    claimRows settings d now (k :: ks) t =
      ((claimRows settings d now ks (t.modify k (·.claimed d now (now + settings.lease)))).1,
        ⟨k, now + settings.lease, r.redriveCount⟩ ::
          (claimRows settings d now ks (t.modify k (·.claimed d now (now + settings.lease)))).2) := by
  simp [claimRows, h, hdue]

theorem claimRows_cons_of_not (h : ∀ r, t.get? k = some r → r.due now = false) :
    claimRows settings d now (k :: ks) t = claimRows settings d now ks t := by
  cases hk : t.get? k with
  | none => simp [claimRows, hk]
  | some r => simp [claimRows, hk, h r hk]

theorem get?_claimRows (d : DispatcherId) (now : Time) (ks : List Nat) (t : Deliveries) (k : Nat) :
    (claimRows settings d now ks t).1.get? k =
      (t.get? k).map fun r => if k ∈ ks ∧ r.due now = true then r.claimed d now (now + settings.lease) else r := by
  induction ks generalizing t with
  | nil => simp [claimRows]
  | cons j ks ih =>
    by_cases hj : ∃ r, t.get? j = some r ∧ r.due now = true
    · obtain ⟨r, hr, hdue⟩ := hj
      rw [claimRows_cons_due hr hdue, ih, Table.get?_modify]
      by_cases hkj : k = j
      · subst hkj
        simp [hr, hdue, not_due_claimed]
      · simp [hkj]
    · have hno : ∀ r, t.get? j = some r → r.due now = false := by simpa using hj
      rw [claimRows_cons_of_not hno, ih]
      cases hk : t.get? k with
      | none => rfl
      | some r =>
        by_cases hkj : k = j
        · subst hkj
          simp [hno r hk]
        · simp [hkj]

theorem claimRows_mem {c : Claimed} (h : c ∈ (claimRows settings d now ks t).2) :
    ∃ r, t.get? c.delivery = some r ∧ r.due now = true ∧ c.delivery ∈ ks ∧ c.leaseEnd = now + settings.lease ∧
      c.redriveCount = r.redriveCount := by
  induction ks generalizing t with
  | nil => simp [claimRows] at h
  | cons j ks ih =>
    by_cases hj : ∃ r, t.get? j = some r ∧ r.due now = true
    · obtain ⟨r, hr, hdue⟩ := hj
      rw [claimRows_cons_due hr hdue] at h
      rcases List.mem_cons.mp h with rfl | h
      · exact ⟨r, hr, hdue, List.mem_cons_self, rfl, rfl⟩
      · obtain ⟨r', hr', hdue', hmem, hlease, hcount⟩ := ih h
        rw [Table.get?_modify] at hr'
        by_cases hcj : c.delivery = j
        · rw [if_pos hcj, hcj, hr] at hr'
          cases hr'
          rw [not_due_claimed] at hdue'
          cases hdue'
        · rw [if_neg hcj] at hr'
          exact ⟨r', hr', hdue', List.mem_cons_of_mem _ hmem, hlease, hcount⟩
    · have hno : ∀ r, t.get? j = some r → r.due now = false := by simpa using hj
      rw [claimRows_cons_of_not hno] at h
      obtain ⟨r', hr', hdue', hmem, hrest⟩ := ih h
      exact ⟨r', hr', hdue', List.mem_cons_of_mem _ hmem, hrest⟩

theorem claimRows_nodup : ((claimRows settings d now ks t).2.map Claimed.delivery).Nodup := by
  induction ks generalizing t with
  | nil => simp [claimRows]
  | cons j ks ih =>
    by_cases hj : ∃ r, t.get? j = some r ∧ r.due now = true
    · obtain ⟨r, hr, hdue⟩ := hj
      rw [claimRows_cons_due hr hdue, List.map_cons, List.nodup_cons]
      refine ⟨?_, ih⟩
      intro hmem
      obtain ⟨c, hc, hcj⟩ := List.mem_map.mp hmem
      obtain ⟨r', hr', hdue', -⟩ := claimRows_mem hc
      dsimp only at hcj
      rw [hcj, Table.get?_modify, if_pos rfl, hr] at hr'
      cases hr'
      rw [not_due_claimed] at hdue'
      cases hdue'
    · have hno : ∀ r, t.get? j = some r → r.due now = false := by simpa using hj
      rw [claimRows_cons_of_not hno]
      exact ih

theorem claimRows_takes (hk : k ∈ ks) (hr : t.get? k = some r) (hdue : r.due now = true) :
    ∃ c ∈ (claimRows settings d now ks t).2, c.delivery = k := by
  induction ks generalizing t with
  | nil => cases hk
  | cons j ks ih =>
    by_cases hkj : k = j
    · subst hkj
      rw [claimRows_cons_due hr hdue]
      exact ⟨_, List.mem_cons_self, rfl⟩
    · have hk : k ∈ ks := (List.mem_cons.mp hk).resolve_left hkj
      by_cases hj : ∃ r, t.get? j = some r ∧ r.due now = true
      · obtain ⟨rj, hrj, hduej⟩ := hj
        rw [claimRows_cons_due hrj hduej]
        have hr' : (t.modify j (·.claimed d now (now + settings.lease))).get? k = some r := by
          rw [Table.get?_modify, if_neg hkj, hr]
        obtain ⟨c, hc, hck⟩ := ih hk hr'
        exact ⟨c, List.mem_cons_of_mem _ hc, hck⟩
      · have hno : ∀ r, t.get? j = some r → r.due now = false := by simpa using hj
        rw [claimRows_cons_of_not hno]
        exact ih hk hr

theorem get?_getD_updateWhere (t : Deliveries) (k k' : Nat) (p : NotificationDelivery → Bool)
    (f : NotificationDelivery → NotificationDelivery) :
    ((t.updateWhere? k p f).getD t).get? k' = (t.get? k').map fun r => if k' = k ∧ p r = true then f r else r := by
  cases hu : t.updateWhere? k p f with
  | none =>
    have hno := Table.updateWhere?_eq_none.mp hu
    cases hk : t.get? k' with
    | none => simp [hk]
    | some r =>
      by_cases hkk : k' = k
      · subst hkk
        simp [hk, hno r hk]
      · simp [hk, hkk]
  | some t' =>
    obtain ⟨r, hr, hp, rfl⟩ := Table.updateWhere?_eq_some hu
    by_cases hkk : k' = k
    · subst hkk
      simp [hr, hp]
    · simp [hkk]

/-! ## The turns of a dispatcher -/

/-- A step of the dispatcher `d`: where it stands, and the outbox after it. -/
inductive Turn (settings : NotificationSettings) (s : Outbox) (d : DispatcherId) : OutboxAction → Outbox → Prop where
  | poll (phase : (s.dispatchers d).phase = .idle) :
    Turn settings s d (.poll d) (s.setPhase d (.polling s.now ((s.dispatchers d).usable settings s.now)))
  | select {now : Time} {usable : List String} (phase : (s.dispatchers d).phase = .polling now usable) :
    Turn settings s d (.select d) (s.setPhase d (.claiming now (candidates settings now usable s.deliveries)))
  | claim {now : Time} {ks : List Nat} (phase : (s.dispatchers d).phase = .claiming now ks) :
    Turn settings s d (.claim d) ({ s with deliveries := (claimRows settings d now ks s.deliveries).1 }.setPhase d
      (.delivering (claimRows settings d now ks s.deliveries).2))
  | finish (phase : (s.dispatchers d).phase = .delivering []) : Turn settings s d (.load d) (s.setPhase d .idle)
  | load {c : Claimed} {rest : List Claimed} {r : NotificationDelivery}
      (phase : (s.dispatchers d).phase = .delivering (c :: rest)) (row : s.deliveries.get? c.delivery = some r) :
    Turn settings s d (.load d) (s.setPhase d (.loaded c r.sink ⟨r.eventId, r.attempts⟩ rest))
  | send {c : Claimed} {sink : String} {message : OutboundMessage} {rest : List Claimed} (circuits : String → SinkCircuit)
      (phase : (s.dispatchers d).phase = .loaded c sink message rest)
      (allowed : (((s.dispatchers d).circuits sink).allow settings s.now).1 = true) :
    Turn settings s d (.allow d)
      ({ s with sends := Function.update s.sends c.delivery (s.sends c.delivery + 1) }.setDispatcher
      d { s.dispatchers d with circuits, phase := .sending c sink message rest })
  | deny {c : Claimed} {sink : String} {message : OutboundMessage} {rest : List Claimed} (circuits : String → SinkCircuit)
      (due : Time) (phase : (s.dispatchers d).phase = .loaded c sink message rest) :
    Turn settings s d (.allow d) (s.setDispatcher d { s.dispatchers d with circuits, phase := .denied c due rest })
  | answer {c : Claimed} {sink : String} {message : OutboundMessage} {rest : List Claimed} (circuits : String → SinkCircuit)
      (result : SendResult) (rng : Rat) (phase : (s.dispatchers d).phase = .sending c sink message rest) :
    Turn settings s d (.answer d result rng)
      ({ s with accepted := if Dispatcher.error result = none then (sink, message.eventId) :: s.accepted else s.accepted
        }.setDispatcher d { s.dispatchers d with
          circuits, phase := .answered c (Dispatcher.outcome settings s.now message result rng) rest })
  | record {c : Claimed} {outcome : DeliveryOutcome} {rest : List Claimed}
      (phase : (s.dispatchers d).phase = .answered c outcome rest) :
    Turn settings s d (.record d) ({ s with deliveries := finishRow d s.now c.delivery outcome s.deliveries }.setPhase d
      (.delivering rest))
  | release {c : Claimed} {due : Time} {rest : List Claimed} (phase : (s.dispatchers d).phase = .denied c due rest) :
    Turn settings s d (.release d) ({ s with deliveries := releaseRow d s.now c.delivery due s.deliveries }.setPhase d
      (.delivering rest))
  | abandon : Turn settings s d (.abandon d) (s.setPhase d .idle)

theorem step_turn (hs : step settings s a = some s') (ha : a.actor = some d) : Turn settings s d a s' := by
  cases a with
  | wait | publish | redrive => cases ha
  | poll =>
    cases ha
    simp only [step] at hs
    split at hs
    · cases hs
      exact .poll ‹_›
    · cases hs
  | select =>
    cases ha
    simp only [step] at hs
    split at hs
    · cases hs
      exact .select ‹_›
    · cases hs
  | claim =>
    cases ha
    simp only [step] at hs
    split at hs
    · cases hs
      exact .claim ‹_›
    · cases hs
  | load =>
    cases ha
    simp only [step] at hs
    split at hs
    · cases hs
      exact .finish ‹_›
    · obtain ⟨r, hr, rfl⟩ := Option.map_eq_some_iff.mp hs
      exact .load ‹_› hr
    · cases hs
  | allow =>
    cases ha
    simp only [step] at hs
    split at hs
    · split at hs
      · cases hs
        exact .send _ ‹_› ‹_›
      · cases hs
        exact .deny _ _ ‹_›
    · cases hs
  | answer =>
    cases ha
    simp only [step] at hs
    split at hs
    · cases hs
      exact .answer _ _ _ ‹_›
    · cases hs
  | record =>
    cases ha
    simp only [step] at hs
    split at hs
    · cases hs
      exact .record ‹_›
    · cases hs
  | release =>
    cases ha
    simp only [step] at hs
    split at hs
    · cases hs
      exact .release ‹_›
    · cases hs
  | abandon =>
    cases ha
    cases hs
    exact .abandon

/-! ## The writes -/

theorem publishRow_ok {eventId sink : String} (h : s.publishRow eventId sink = some s') :
    ∃ t, s.deliveries.insert? (s.lastId + 1)
        { eventId, sink, nextAttemptAt := s.now, createdAt := s.now, updatedAt := s.now } = some t ∧
      s' = { s with deliveries := t, lastId := s.lastId + 1 } := by
  unfold publishRow at h
  split at h
  · cases h
  · obtain ⟨t, ht, rfl⟩ := Option.map_eq_some_iff.mp h
    exact ⟨t, ht, rfl⟩

theorem redriveRow_ok (h : s.redriveRow k = some s') :
    ∃ r, s.deliveries.get? k = some r ∧ r.status = .dead ∧
      s' = { s with
        deliveries := s.deliveries.modify k (·.redriven s.now), sends := Function.update s.sends k 0 } := by
  unfold redriveRow at h
  obtain ⟨t, ht, rfl⟩ := Option.map_eq_some_iff.mp h
  obtain ⟨r, hr, hdead, rfl⟩ := Table.updateWhere?_eq_some ht
  exact ⟨r, hr, of_decide_eq_true hdead, rfl⟩

inductive RowStep (settings : NotificationSettings) (s : Outbox) (k : Nat) :
    OutboxAction → NotificationDelivery → NotificationDelivery → Prop where
  | same {a : OutboxAction} {r : NotificationDelivery} : RowStep settings s k a r r
  | claimed {d : DispatcherId} {now : Time} {ks : List Nat} {r : NotificationDelivery}
      (phase : (s.dispatchers d).phase = .claiming now ks) (hk : k ∈ ks) (due : r.due now = true) :
      RowStep settings s k (.claim d) r (r.claimed d now (now + settings.lease))
  | recorded {d : DispatcherId} {c : Claimed} {outcome : DeliveryOutcome} {rest : List Claimed} {r : NotificationDelivery}
      (phase : (s.dispatchers d).phase = .answered c outcome rest) (hk : k = c.delivery) (owner : r.leasedBy = some d)
      (pending : r.status = .pending) : RowStep settings s k (.record d) r (r.finished s.now outcome)
  | released {d : DispatcherId} {c : Claimed} {due : Time} {rest : List Claimed} {r : NotificationDelivery}
      (phase : (s.dispatchers d).phase = .denied c due rest) (hk : k = c.delivery) (owner : r.leasedBy = some d) :
      RowStep settings s k (.release d) r (r.released due s.now)
  | redriven {r : NotificationDelivery} (dead : r.status = .dead) : RowStep settings s k (.redrive k) r (r.redriven s.now)

@[simp] theorem setPhase_deliveries (s : Outbox) (d : DispatcherId) (phase : DispatcherPhase) :
    (s.setPhase d phase).deliveries = s.deliveries := rfl

@[simp] theorem setDispatcher_deliveries (s : Outbox) (d : DispatcherId) (p : Dispatcher) :
    (s.setDispatcher d p).deliveries = s.deliveries := rfl

/-- The table after a step: a new row, or each row as the action left it. -/
theorem step_row (hs : step settings s a = some s') (hr : s.deliveries.get? k = some r) :
    ∃ r', s'.deliveries.get? k = some r' ∧ RowStep settings s k a r r' := by
  cases hactor : a.actor with
  | none =>
    cases a with
    | wait d' =>
      cases hs
      exact ⟨r, hr, .same⟩
    | publish eventId sink =>
      obtain ⟨t, ht, rfl⟩ := publishRow_ok hs
      have hne : k ≠ s.lastId + 1 := by
        rintro rfl
        rw [Table.insert?_fresh ht] at hr
        cases hr
      exact ⟨r, by rw [Table.get?_insert? ht, if_neg hne, hr], .same⟩
    | redrive j =>
      obtain ⟨rj, hrj, hdead, rfl⟩ := redriveRow_ok hs
      by_cases hkj : k = j
      · subst hkj
        rw [hr] at hrj
        cases hrj
        exact ⟨_, by simp [hr], .redriven hdead⟩
      · exact ⟨r, by simp [hkj, hr], .same⟩
    | _ => cases hactor
  | some d =>
    cases step_turn hs hactor with
    | poll | select | finish | load | send | deny | answer | abandon => exact ⟨r, hr, .same⟩
    | @claim now ks hphase =>
      refine ⟨_, by simp only [setPhase_deliveries, get?_claimRows, hr, Option.map_some]; rfl, ?_⟩
      by_cases hk : k ∈ ks ∧ r.due now = true
      · rw [if_pos hk]
        exact .claimed hphase hk.1 hk.2
      · rw [if_neg hk]
        exact .same
    | @record c outcome rest hphase =>
      refine ⟨_, by simp only [setPhase_deliveries, finishRow, get?_getD_updateWhere, hr, Option.map_some]; rfl, ?_⟩
      by_cases hk : k = c.delivery ∧ decide (r.leasedBy = some d ∧ r.status = .pending) = true
      · rw [if_pos hk]
        have hours := of_decide_eq_true hk.2
        exact .recorded hphase hk.1 hours.1 hours.2
      · rw [if_neg hk]
        exact .same
    | @release c due rest hphase =>
      refine ⟨_, by simp only [setPhase_deliveries, releaseRow, get?_getD_updateWhere, hr, Option.map_some]; rfl, ?_⟩
      by_cases hk : k = c.delivery ∧ decide (r.leasedBy = some d) = true
      · rw [if_pos hk]
        exact .released hphase hk.1 (of_decide_eq_true hk.2)
      · rw [if_neg hk]
        exact .same

end Outbox

end OranAdapt
