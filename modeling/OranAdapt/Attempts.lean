import OranAdapt.Credits
import OranAdapt.Delivering

/-!
# How often a delivery is sent

A claim counts an attempt, and each call of `send` was claimed before it: so the
calls since a redrive never outnumber the attempts counted since, whatever was
released or refused in between. The limit on the attempts is looked at when an
outcome is recorded, and not when a message is sent; a dispatcher that dies
before it records one sends as often as it is started.
-/

namespace OranAdapt

open Runs Credits

/-- The claims of a batch whose message is not sent yet. -/
def DispatcherPhase.unsent : DispatcherPhase → List Claimed
  | .idle | .polling _ _ | .claiming _ _ => []
  | .delivering rest | .sending _ _ _ rest | .answered _ _ rest => rest
  | .loaded c _ _ rest | .denied c _ rest => c :: rest

/-- A claim of delivery `k`, made since its `n`th redrive, whose message is not sent yet. -/
def DispatcherPhase.MaySend (k n : Nat) (phase : DispatcherPhase) : Prop :=
  ∃ c ∈ phase.unsent, c.delivery = k ∧ c.redriveCount = n

/-- The message of such a claim is read, and numbered within the limit. -/
def DispatcherPhase.AboutToSend (maxAttempts k n : Nat) : DispatcherPhase → Prop
  | .loaded c _ message _ => c.delivery = k ∧ c.redriveCount = n ∧ message.attempt ≤ maxAttempts
  | _ => False

namespace Outbox

variable (settings : NotificationSettings)

/-- A message is sent while its number is within the limit, for a claim made since the last redrive. -/
def SendsInTime (s : Outbox) : OutboxAction → Prop
  | .allow d =>
    match (s.dispatchers d).phase with
    | .loaded c sink message _ =>
      (((s.dispatchers d).circuits sink).allow settings s.now).1 = true →
        message.attempt ≤ settings.maxAttempts ∧
          (s.deliveries.get? c.delivery).map (·.redriveCount) = some c.redriveCount
    | _ => True
  | _ => True

instance (s : Outbox) (a : OutboxAction) : Decidable (s.SendsInTime settings a) := by
  unfold SendsInTime
  split
  · split <;> infer_instance
  · infer_instance

/-- What every such step keeps. -/
structure Counted (s : Outbox) : Prop where
  attempts : ∀ k r, s.deliveries.get? k = some r →
    Covers (fun d => (s.dispatchers d).phase.MaySend k r.redriveCount) (s.sends k) r.attempts
  limit : ∀ k r, s.deliveries.get? k = some r →
    Covers (fun d => (s.dispatchers d).phase.AboutToSend settings.maxAttempts k r.redriveCount) (s.sends k)
      settings.maxAttempts
  unknown : ∀ k, s.deliveries.get? k = none → s.sends k = 0

variable {settings} {s s' : Outbox} {a : OutboxAction} {d e : DispatcherId} {k n : Nat}
variable {r r' : NotificationDelivery} {c : Claimed} {phase phase' : DispatcherPhase} {rest : List Claimed}

theorem unsent_subset_inHand (phase : DispatcherPhase) : ∀ c ∈ phase.unsent, c ∈ phase.inHand := by
  cases phase with
  | sending | answered => exact fun _ h => List.mem_cons_of_mem _ h
  | _ => exact fun _ h => h

theorem maySend_of_aboutToSend {maxAttempts : Nat} (h : phase.AboutToSend maxAttempts k n) : phase.MaySend k n := by
  cases phase with
  | loaded c => exact ⟨c, List.mem_cons_self, h.1, h.2.1⟩
  | _ => cases h

theorem maySend_mono (h : phase.MaySend k n) (hsub : ∀ c ∈ phase.unsent, c ∈ phase'.unsent) : phase'.MaySend k n := by
  obtain ⟨c, hc, hk⟩ := h
  exact ⟨c, hsub c hc, hk⟩

theorem Sound.not_maySend_later (h : s.Sound) (hr : s.deliveries.get? k = some r) (d : DispatcherId) :
    ¬(s.dispatchers d).phase.MaySend k (r.redriveCount + 1) := by
  rintro ⟨c, hc, rfl, hn⟩
  obtain ⟨r', hr', hsound⟩ := (h.held d).claims c (unsent_subset_inHand _ c hc)
  rw [hr] at hr'
  cases hr'
  have := hsound.redrives
  omega

theorem Sound.not_maySend_unknown (h : s.Sound) (hr : s.deliveries.get? k = none) (d : DispatcherId) :
    ¬(s.dispatchers d).phase.MaySend k n := by
  rintro ⟨c, hc, rfl, -⟩
  obtain ⟨r', hr', -⟩ := (h.held d).claims c (unsent_subset_inHand _ c hc)
  rw [hr] at hr'
  cases hr'

/-- The claims in hand after the first are of other deliveries. -/
theorem Held.not_maySend_rest (h : s.Held d phase) (hphase : phase.inHand = c :: rest) (hrest : phase'.unsent = rest) :
    ¬phase'.MaySend c.delivery n := by
  rintro ⟨c', hc', hk, -⟩
  rw [hrest] at hc'
  exact h.rest_ne hphase hc' hk

theorem Turn.maySend (ht : Turn settings s d a s')
    (hsub : ∀ c ∈ (s'.dispatchers d).phase.unsent, c ∈ (s.dispatchers d).phase.unsent)
    (h : (s'.dispatchers e).phase.MaySend k n) : (s.dispatchers e).phase.MaySend k n := by
  by_cases he : e = d
  · subst he
    exact maySend_mono h hsub
  · rw [← ht.dispatchers he]
    exact h

theorem Turn.aboutToSend {m : Nat} (ht : Turn settings s d a s')
    (hnot : ¬(s'.dispatchers d).phase.AboutToSend m k n) (h : (s'.dispatchers e).phase.AboutToSend m k n) :
    e ≠ d ∧ (s.dispatchers e).phase.AboutToSend m k n := by
  have hne : e ≠ d := by
    rintro rfl
    exact hnot h
  exact ⟨hne, ht.dispatchers hne ▸ h⟩

def counts (r : NotificationDelivery) : Nat × Nat := (r.attempts, r.redriveCount)

/-- A turn that sends nothing, claims nothing and hands nothing back. -/
theorem Counted.quiet (h : s.Counted settings) (ht : Turn settings s d a s')
    (hrows : ∀ k, (s'.deliveries.get? k).map counts = (s.deliveries.get? k).map counts) (hsends : s'.sends = s.sends)
    (hsub : ∀ c ∈ (s'.dispatchers d).phase.unsent, c ∈ (s.dispatchers d).phase.unsent)
    (hnot : ∀ k n, ¬(s'.dispatchers d).phase.AboutToSend settings.maxAttempts k n) : s'.Counted settings where
  attempts k r' hr' := by
    have hmap := hrows k
    rw [hr', Option.map_some, eq_comm, Option.map_eq_some_iff] at hmap
    obtain ⟨r, hr, hcounts⟩ := hmap
    obtain ⟨hattempts, hredrives⟩ := Prod.mk.inj hcounts
    rw [hsends, ← hredrives]
    exact (h.attempts k r hr).mono (fun e he => ht.maySend hsub he) (Nat.le_of_eq hattempts)
  limit k r' hr' := by
    have hmap := hrows k
    rw [hr', Option.map_some, eq_comm, Option.map_eq_some_iff] at hmap
    obtain ⟨r, hr, hcounts⟩ := hmap
    rw [hsends, ← (Prod.mk.inj hcounts).2]
    exact (h.limit k r hr).mono (fun e he => (ht.aboutToSend (hnot _ _) he).2) (Nat.le_refl _)
  unknown k hk := by
    have hmap := hrows k
    rw [hk, Option.map_none, eq_comm, Option.map_eq_none_iff] at hmap
    rw [hsends]
    exact h.unknown k hmap

theorem counts_finished (now : Time) (r : NotificationDelivery) (outcome : DeliveryOutcome) :
    counts (r.finished now outcome) = counts r := by
  cases outcome <;> rfl

theorem Counted.claim {now : Time} {ks : List Nat} (h : s.Counted settings)
    (hphase : (s.dispatchers d).phase = .claiming now ks) (ht : Turn settings s d (.claim d) s')
    (hs' : s' = { s with deliveries := (claimRows settings d now ks s.deliveries).1 }.setPhase d
      (.delivering (claimRows settings d now ks s.deliveries).2)) : s'.Counted settings := by
  have hphase' : (s'.dispatchers d).phase = .delivering (claimRows settings d now ks s.deliveries).2 := by
    rw [hs', setPhase, setDispatcher_self]
  have hsends : s'.sends = s.sends := by rw [hs']; rfl
  have hrows : ∀ k, s'.deliveries.get? k = (s.deliveries.get? k).map fun r =>
      if k ∈ ks ∧ r.due now = true then r.claimed d now (now + settings.lease) else r := by
    intro k
    rw [hs', ← get?_claimRows]
    rfl
  refine ⟨fun k r' hr' => ?_, fun k r' hr' => ?_, fun k hk => ?_⟩
  · rw [hrows] at hr'
    obtain ⟨r, hr, rfl⟩ := Option.map_eq_some_iff.mp hr'
    rw [hsends]
    by_cases hk : k ∈ ks ∧ r.due now = true
    · simp only [if_pos hk]
      apply (h.attempts k r hr).grant d
      intro e he hmay
      rw [← ht.dispatchers he]
      exact hmay
    · simp only [if_neg hk]
      apply (h.attempts k r hr).mono _ (Nat.le_refl _)
      intro e hmay
      by_cases he : e = d
      · -- what was claimed was due
        subst he
        rw [hphase'] at hmay
        obtain ⟨c, hc, rfl, -⟩ := hmay
        obtain ⟨rc, hrc, hdue, hmem, -⟩ := claimRows_mem hc
        rw [hr] at hrc
        cases hrc
        exact absurd ⟨hmem, hdue⟩ hk
      · rw [← ht.dispatchers he]
        exact hmay
  · rw [hrows] at hr'
    obtain ⟨r, hr, rfl⟩ := Option.map_eq_some_iff.mp hr'
    have hcount : (if k ∈ ks ∧ r.due now = true then r.claimed d now (now + settings.lease) else r).redriveCount =
        r.redriveCount := by
      split <;> rfl
    rw [hsends, hcount]
    exact (h.limit k r hr).mono (fun e he => (ht.aboutToSend (by rw [hphase']; exact id) he).2) (Nat.le_refl _)
  · rw [hrows, Option.map_eq_none_iff] at hk
    rw [hsends]
    exact h.unknown k hk

/-- A dispatcher that reads a row numbered within the limit may send: so may, at most, all that the attempts count. -/
theorem Counted.load (h : s.Counted settings) (hphase : (s.dispatchers d).phase = .delivering (c :: rest))
    (hrow : s.deliveries.get? c.delivery = some r) :
    (s.setPhase d (.loaded c r.sink ⟨r.eventId, r.attempts⟩ rest)).Counted settings := by
  have ht : Turn settings s d (.load d) (s.setPhase d (.loaded c r.sink ⟨r.eventId, r.attempts⟩ rest)) :=
    .load hphase hrow
  have hphase' : ((s.setPhase d (.loaded c r.sink ⟨r.eventId, r.attempts⟩ rest)).dispatchers d).phase =
      .loaded c r.sink ⟨r.eventId, r.attempts⟩ rest := by
    rw [setPhase, setDispatcher_self]
  have hsub : ∀ c' ∈ ((s.setPhase d (.loaded c r.sink ⟨r.eventId, r.attempts⟩ rest)).dispatchers d).phase.unsent,
      c' ∈ (s.dispatchers d).phase.unsent := by
    rw [hphase', hphase]
    exact fun _ h => h
  refine ⟨fun k r' hr' => ?_, fun k r' hr' => ?_, fun k hk => h.unknown k hk⟩
  · exact (h.attempts k r' hr').mono (fun e he => ht.maySend hsub he) (Nat.le_refl _)
  · by_cases hjoins : c.delivery = k ∧ r'.attempts ≤ settings.maxAttempts
    · apply (h.attempts k r' hr').mono _ hjoins.2
      intro e he
      exact ht.maySend hsub (maySend_of_aboutToSend he)
    · apply (h.limit k r' hr').mono _ (Nat.le_refl _)
      intro e he
      refine (ht.aboutToSend ?_ he).2
      rw [hphase']
      rintro ⟨rfl, -, hle⟩
      have heq : some r = some r' := hrow.symm.trans hr'
      cases heq
      exact hjoins ⟨rfl, hle⟩

theorem Counted.send {sink : String} {message : OutboundMessage} (h : s.Counted settings) (hsound : s.Sound)
    (circuits : String → SinkCircuit) (hphase : (s.dispatchers d).phase = .loaded c sink message rest)
    (hlimit : message.attempt ≤ settings.maxAttempts)
    (hcurrent : (s.deliveries.get? c.delivery).map (·.redriveCount) = some c.redriveCount)
    (ht : Turn settings s d (.allow d) s')
    (hs' : s' = { s with sends := Function.update s.sends c.delivery (s.sends c.delivery + 1) }.setDispatcher d
      { s.dispatchers d with circuits, phase := .sending c sink message rest }) : s'.Counted settings := by
  have hphase' : (s'.dispatchers d).phase = .sending c sink message rest := by rw [hs', setDispatcher_self]
  have hheld := hsound.held d
  rw [hphase] at hheld
  have hsub : ∀ c' ∈ (s'.dispatchers d).phase.unsent, c' ∈ (s.dispatchers d).phase.unsent := by
    rw [hphase', hphase]
    exact fun _ h => List.mem_cons_of_mem _ h
  have hno : ∀ k n, ¬(s'.dispatchers d).phase.AboutToSend settings.maxAttempts k n := by
    intro k n
    rw [hphase']
    exact id
  have hsends : ∀ k, s'.sends k = if k = c.delivery then s.sends k + 1 else s.sends k := by
    intro k
    rw [hs']
    simp only [setDispatcher, Function.update_apply]
    split
    · rename_i hk
      rw [hk]
    · rfl
  obtain ⟨rc, hrc, hredrives⟩ := Option.map_eq_some_iff.mp hcurrent
  refine ⟨fun k r' hr' => ?_, fun k r' hr' => ?_, fun k hk => ?_⟩
  · have hr : s.deliveries.get? k = some r' := by rw [← hr', hs']; rfl
    rw [hsends]
    by_cases hk : k = c.delivery
    · subst hk
      rw [hrc] at hr
      cases hr
      rw [if_pos rfl]
      apply (h.attempts _ _ hrc).spend (i := d)
      · rw [hphase]
        exact ⟨c, List.mem_cons_self, rfl, hredrives.symm⟩
      · intro e he
        refine ⟨?_, ht.maySend hsub he⟩
        rintro rfl
        rw [hphase'] at he
        exact hheld.not_maySend_rest rfl rfl he
    · rw [if_neg hk]
      exact (h.attempts k r' hr).mono (fun e he => ht.maySend hsub he) (Nat.le_refl _)
  · have hr : s.deliveries.get? k = some r' := by rw [← hr', hs']; rfl
    rw [hsends]
    by_cases hk : k = c.delivery
    · subst hk
      rw [hrc] at hr
      cases hr
      rw [if_pos rfl]
      apply (h.limit _ _ hrc).spend (i := d)
      · rw [hphase]
        exact ⟨rfl, hredrives.symm, hlimit⟩
      · intro e he
        exact ht.aboutToSend (hno _ _) he
    · rw [if_neg hk]
      exact (h.limit k r' hr).mono (fun e he => (ht.aboutToSend (hno _ _) he).2) (Nat.le_refl _)
  · have hnone : s.deliveries.get? k = none := by rw [← hk, hs']; rfl
    have hne : k ≠ c.delivery := by
      rintro rfl
      rw [hrc] at hnone
      cases hnone
    rw [hsends, if_neg hne]
    exact h.unknown k hnone

/-- What is handed back was a claim of this redrive: the row still names the dispatcher. -/
theorem Counted.release {due : Time} (h : s.Counted settings) (hsound : s.Sound)
    (hphase : (s.dispatchers d).phase = .denied c due rest) (ht : Turn settings s d (.release d) s')
    (hs' : s' = { s with deliveries := releaseRow d s.now c.delivery due s.deliveries }.setPhase d (.delivering rest)) :
    s'.Counted settings := by
  have hphase' : (s'.dispatchers d).phase = .delivering rest := by rw [hs', setPhase, setDispatcher_self]
  have hheld := hsound.held d
  rw [hphase] at hheld
  have hsub : ∀ c' ∈ (s'.dispatchers d).phase.unsent, c' ∈ (s.dispatchers d).phase.unsent := by
    rw [hphase', hphase]
    exact fun _ h => List.mem_cons_of_mem _ h
  have hno : ∀ k n, ¬(s'.dispatchers d).phase.AboutToSend settings.maxAttempts k n := by
    intro k n
    rw [hphase']
    exact id
  have hsends : s'.sends = s.sends := by rw [hs']; rfl
  have hrows : ∀ k, s'.deliveries.get? k = (s.deliveries.get? k).map fun r =>
      if k = c.delivery ∧ decide (r.leasedBy = some d) = true then r.released due s.now else r := by
    intro k
    rw [hs', ← get?_getD_updateWhere]
    rfl
  refine ⟨fun k r' hr' => ?_, fun k r' hr' => ?_, fun k hk => ?_⟩
  · rw [hrows] at hr'
    obtain ⟨r, hr, rfl⟩ := Option.map_eq_some_iff.mp hr'
    rw [hsends]
    by_cases hk : k = c.delivery ∧ decide (r.leasedBy = some d) = true
    · simp only [if_pos hk]
      obtain ⟨rfl, howner⟩ := hk
      obtain ⟨rc, hrc, hsoundc⟩ := hheld.claims c List.mem_cons_self
      rw [hr] at hrc
      cases hrc
      apply (h.attempts _ _ hr).refund (i := d)
      · rw [hphase]
        exact ⟨c, List.mem_cons_self, rfl, hsoundc.current (of_decide_eq_true howner)⟩
      · intro e he
        refine ⟨?_, ht.maySend hsub he⟩
        rintro rfl
        rw [hphase'] at he
        exact hheld.not_maySend_rest rfl rfl he
    · simp only [if_neg hk]
      exact (h.attempts k r hr).mono (fun e he => ht.maySend hsub he) (Nat.le_refl _)
  · rw [hrows] at hr'
    obtain ⟨r, hr, rfl⟩ := Option.map_eq_some_iff.mp hr'
    have hcount : (if k = c.delivery ∧ decide (r.leasedBy = some d) = true then r.released due s.now else r).redriveCount =
        r.redriveCount := by
      split <;> rfl
    rw [hsends, hcount]
    exact (h.limit k r hr).mono (fun e he => (ht.aboutToSend (hno _ _) he).2) (Nat.le_refl _)
  · rw [hrows, Option.map_eq_none_iff] at hk
    rw [hsends]
    exact h.unknown k hk

theorem Counted.publish {eventId sink : String} (h : s.Counted settings) (hsound : s.Sound)
    (hs : s.publishRow eventId sink = some s') : s'.Counted settings := by
  obtain ⟨t, ht, rfl⟩ := publishRow_ok hs
  have hrows := Table.get?_insert? ht
  have hfresh := Table.insert?_fresh ht
  refine ⟨fun k r hr => ?_, fun k r hr => ?_, fun k hk => ?_⟩
  · dsimp only at hr ⊢
    rw [hrows] at hr
    by_cases hk : k = s.lastId + 1
    · subst hk
      rw [h.unknown _ hfresh]
      exact .of_none (fun d hd => hsound.not_maySend_unknown hfresh d hd) (Nat.zero_le _)
    · rw [if_neg hk] at hr
      exact h.attempts k r hr
  · dsimp only at hr ⊢
    rw [hrows] at hr
    by_cases hk : k = s.lastId + 1
    · subst hk
      rw [h.unknown _ hfresh]
      exact .of_none (fun d hd => hsound.not_maySend_unknown hfresh d (maySend_of_aboutToSend hd)) (Nat.zero_le _)
    · rw [if_neg hk] at hr
      exact h.limit k r hr
  · dsimp only at hk ⊢
    rw [hrows] at hk
    by_cases hkk : k = s.lastId + 1
    · rw [if_pos hkk] at hk
      cases hk
    · rw [if_neg hkk] at hk
      exact h.unknown k hk

/-- A redrive starts counting anew; the claims made before it count no more. -/
theorem Counted.redrive {j : Nat} (h : s.Counted settings) (hsound : s.Sound) (hs : s.redriveRow j = some s') :
    s'.Counted settings := by
  obtain ⟨rj, hrj, -, rfl⟩ := redriveRow_ok hs
  refine ⟨fun k r hr => ?_, fun k r hr => ?_, fun k hk => ?_⟩
  · dsimp only at hr ⊢
    by_cases hk : k = j
    · subst hk
      simp only [Table.get?_modify, if_true, hrj, Option.map_some, Option.some.injEq] at hr
      subst hr
      rw [Function.update_self]
      exact .of_none (fun d hd => hsound.not_maySend_later hrj d hd) (Nat.zero_le _)
    · rw [Function.update_of_ne hk]
      simp only [Table.get?_modify, if_neg hk] at hr
      exact h.attempts k r hr
  · dsimp only at hr ⊢
    by_cases hk : k = j
    · subst hk
      simp only [Table.get?_modify, if_true, hrj, Option.map_some, Option.some.injEq] at hr
      subst hr
      rw [Function.update_self]
      exact .of_none (fun d hd => hsound.not_maySend_later hrj d (maySend_of_aboutToSend hd)) (Nat.zero_le _)
    · rw [Function.update_of_ne hk]
      simp only [Table.get?_modify, if_neg hk] at hr
      exact h.limit k r hr
  · dsimp only at hk ⊢
    by_cases hkj : k = j
    · rw [hkj, Function.update_self]
    · rw [Function.update_of_ne hkj]
      simp only [Table.get?_modify, if_neg hkj] at hk
      exact h.unknown k hk

theorem Counted.turn (h : s.Counted settings) (hsound : s.Sound) (hC : s.SendsInTime settings a)
    (hs : Outbox.step settings s a = some s') (ha : a.actor = some d) : s'.Counted settings := by
  have hturn := step_turn hs ha
  have ht := hturn
  cases hturn with
  | poll hphase | select hphase | finish hphase | abandon =>
    apply h.quiet ht (fun _ => rfl) rfl
    · rw [setPhase, setDispatcher_self]
      exact fun c hc => by cases hc
    · intro k n
      rw [setPhase, setDispatcher_self]
      exact id
  | claim hphase => exact h.claim hphase ht rfl
  | load hphase hrow => exact h.load hphase hrow
  | send circuits hphase hallowed =>
    simp only [SendsInTime, hphase] at hC
    obtain ⟨hlimit, hcurrent⟩ := hC hallowed
    exact h.send hsound circuits hphase hlimit hcurrent ht rfl
  | deny circuits due hphase =>
    apply h.quiet ht (fun _ => rfl) rfl
    · rw [setDispatcher_self, hphase]
      exact fun c hc => hc
    · intro k n
      rw [setDispatcher_self]
      exact id
  | answer circuits result rng hphase =>
    apply h.quiet ht (fun _ => rfl) rfl
    · rw [setDispatcher_self, hphase]
      exact fun c hc => hc
    · intro k n
      rw [setDispatcher_self]
      exact id
  | record hphase =>
    apply h.quiet ht _ rfl
    · rw [setPhase, setDispatcher_self, hphase]
      exact fun c hc => hc
    · intro k n
      rw [setPhase, setDispatcher_self]
      exact id
    · intro k
      simp only [setPhase_deliveries, finishRow, get?_getD_updateWhere, Option.map_map]
      congr 1
      funext r
      simp only [Function.comp_apply]
      split
      · exact counts_finished _ _ _
      · rfl
  | release hphase => exact h.release hsound hphase ht rfl

theorem Counted.step (h : s.Counted settings) (hsound : s.Sound) (hC : s.SendsInTime settings a)
    (hs : Outbox.step settings s a = some s') : s'.Counted settings := by
  cases hactor : a.actor with
  | some d => exact h.turn hsound hC hs hactor
  | none =>
    cases a with
    | wait =>
      cases hs
      exact ⟨h.attempts, h.limit, h.unknown⟩
    | publish => exact h.publish hsound hs
    | redrive => exact h.redrive hsound hs
    | _ => cases hactor

theorem Initial.counted (h : s.Initial) : s.Counted settings where
  attempts k r hr := by
    rw [h.deliveries] at hr
    cases hr
  limit k r hr := by
    rw [h.deliveries] at hr
    cases hr
  unknown k _ := h.sends k

/-- In every run that sends its messages in time, `send` is called for a delivery at most as often
as the limit says between two redrives. -/
theorem attempts_bounded (h0 : s.Initial) (hrun : Steps (Outbox.step settings) (·.SendsInTime settings) s s') (k : Nat) :
    s'.sends k ≤ settings.maxAttempts := by
  have h : s'.Counted settings :=
    hrun.inv_of Sound (Counted settings) (fun _ _ _ h _ hs => h.step hs) (fun _ _ _ hsound h hC hs => h.step hsound hC hs)
      h0.sound h0.counted
  cases hk : s'.deliveries.get? k with
  | none =>
    rw [h.unknown k hk]
    exact Nat.zero_le _
  | some r => exact (h.limit k r hk).spent_le

theorem attempts_bounded_lateAnswer : ∃ s : Outbox, s.sends 1 = 2 ∧ s.sends 1 ≤ 8 := by
  have hinitial : twoDispatchers.Initial := ⟨rfl, fun _ => rfl, fun _ => rfl⟩
  obtain ⟨s, hrun, hsends⟩ := Steps.exists_of_runs (Outbox.step {}) (·.SendsInTime {}) twoDispatchers lateAnswer
    (fun s => s.sends 1 = 2) (by decide +kernel)
  have hbound : s.sends 1 ≤ ({} : NotificationSettings).maxAttempts := attempts_bounded hinitial hrun 1
  exact ⟨s, of_decide_eq_true hsends, hbound⟩

def crashingMessage : List OutboxAction :=
  .publish "event" "log" ::
    (List.replicate 9
      [.poll "a", .select "a", .claim "a", .load "a", .allow "a", .abandon "a", .wait 60000000]).flatten

/-- The message is sent once more than the limit says, and is still pending. -/
theorem crashing_message_resent : ∃ s, Steps (Outbox.step {}) Free twoDispatchers s ∧
    ∃ r, s.deliveries.get? 1 = some r ∧ r.status = .pending ∧ r.redriveCount = 0 ∧ 8 < s.sends 1 := by
  obtain ⟨s, hrun, hrow⟩ := Steps.exists_of_runs (Outbox.step {}) Free twoDispatchers crashingMessage
    (fun s => (s.deliveries.get? 1).any fun r => r.status = .pending ∧ r.redriveCount = 0 ∧ 8 < s.sends 1)
    (by decide +kernel)
  obtain ⟨r, hr, hpending⟩ := (Option.any_eq_true _ _).mp hrow
  exact ⟨s, hrun, r, hr, of_decide_eq_true hpending⟩

end Outbox

end OranAdapt
