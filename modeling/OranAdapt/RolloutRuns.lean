import OranAdapt.RolloutEnd
import OranAdapt.Runs

/-!
# Runs of one rollout

Ticks, approvals and rejections of one rollout, one after the other, each with
any answers from the outside. A call that meets none of the defects keeps the
rollout's record in agreement with LIVE and with what serves, whatever fails
and wherever the process stops.
-/

namespace OranAdapt

open Effects World Outside Delivery

/-! ## Acting on a decision -/

def Decision.promotes (r : Rollout) : Decision → Bool
  | .promote => true
  | .enterCanary => decide (∀ first ∈ r.policy.canarySteps[0]?, 100 ≤ first)
  | _ => false

/-- The decision neither ends the rollout without a promotion nor changes its traffic. -/
def Decision.keeps (r : Rollout) : Decision → Bool
  | .waiting | .awaitApproval | .outOfSteps | .promote => true
  | .enterCanary => Decision.promotes r .enterCanary
  | .endAs _ | .advance _ _ => false

theorem Rollout.decideApproval_endAs {r : Rollout} {now : Time} {state : RolloutState}
    (h : r.decideApproval now = .endAs state) : state.withdrawn = true := by
  unfold Rollout.decideApproval at h
  split at h <;> cases h
  rfl

theorem Rollout.decide_endAs {r : Rollout} {ttest : List Rat → List Rat → Option Rat} {now : Time}
    {stable candidate : ArmStats} {state : RolloutState} (h : r.decide ttest now stable candidate = .endAs state) :
    state.withdrawn = true := by
  unfold Rollout.decide at h
  dsimp only at h
  split at h
  · cases h; rfl
  · split at h
    · unfold Rollout.decideShadow at h
      split at h
      · split at h <;> cases h
      · split at h <;> cases h
        rfl
    · unfold Rollout.decideCanary at h
      split at h
      · cases h
      · split at h
        · cases h
        · split at h <;> cases h
    · unfold Rollout.decideAb at h
      split at h
      · cases h
      · split at h <;> cases h <;> rfl

namespace Subject

section
variable {σ : Type} {d : Delivery σ} {x : Subject} {w : World σ} {r : Rollout}
  (hP : d.port.Lawful d.settings.liveAlias)

/-- What acting on a decision needs. -/
inductive Actable (d : Delivery σ) (x : Subject) (f : ControllerAnswers) (r : Rollout) (dec : Decision) (w : World σ) :
    Prop where
  | moved (h : BothMoved d x w) (hr : x.Moved d w.session w.outside r) (keeps : dec.keeps r = true)
  | opened (h₀ : x.Pending d w.stored w.outside) (h : x.Open d w.session w.outside r)
      (works : dec.promotes r = true →
        MoveWorks f.promote ∧ (r.percent = 0 → d.port.served w.outside x.name = some x.stable))

theorem Actable.fine {f : ControllerAnswers} {dec : Decision} (h : Actable d x f r dec w) : x.Fine d w := by
  cases h with
  | moved h => exact h.fine
  | opened h₀ h => exact ⟨h₀.sound, .opened _ h⟩

theorem Actable.promotable {f : ControllerAnswers} {dec : Decision} (h : Actable d x f r dec w)
    (hp : dec.promotes r = true) : Promotable d x f w := by
  cases h with
  | moved h => exact .moved h
  | opened h₀ h works => exact .opened r h₀ h (works hp).1 (works hp).2

theorem Actable.get {f : ControllerAnswers} {dec : Decision} (h : Actable d x f r dec w) :
    w.session.rollouts.get? x.id = some r := by
  cases h with
  | moved _ hr => exact hr.get
  | opened _ h => exact h.get

/-- A change of traffic or an end needs an open rollout. -/
theorem Actable.open_of_not_keeps {f : ControllerAnswers} {dec : Decision} (h : Actable d x f r dec w)
    (hk : dec.keeps r = false) : x.Pending d w.stored w.outside ∧ x.Open d w.session w.outside r := by
  cases h with
  | moved _ _ hk' => rw [hk] at hk'; cases hk'
  | opened h₀ h => exact ⟨h₀, h⟩

include hP in
theorem moveTraffic_ends {f : ControllerAnswers} {percent step : Nat} {now : Time} {actor : String}
    (h₀ : x.Pending d w.stored w.outside) (h : x.Open d w.session w.outside r) :
    Ensures (d.moveTraffic f x.id percent step now actor) w (fun _ => x.Fine d) (fun _ => x.Fine d) (x.Safe d) := by
  refine .bind ((splitTraffic_ends hP h).mono ?_ (fun _ _ h' => h'.fine h₀ h) (fun _ h' => h'.safe h₀))
  rintro _ _ ⟨⟨o', rfl, hk⟩, hs, hv⟩
  refine .bind (.modify (commit_both ⟨(h₀.kept hk).sound, .opened _ ((hk _ _ h).edited _ rfl rfl rfl rfl ?_)⟩))
  refine ⟨fun _ => hs, ?_⟩
  rcases Nat.eq_zero_or_pos percent with hp | hp
  · exact .inl (hv hp)
  · exact .inr (.inl hp)

include hP in
theorem enterCanary_ends {f : ControllerAnswers} {now : Time} {actor : String}
    (h : Actable d x f r .enterCanary w) :
    Ensures (d.enterCanary f x.id now actor) w (fun _ => x.Fine d) (fun _ => x.Fine d) (x.Safe d) := by
  refine .bind (getRollout_ends h.get ?_)
  cases hc : r.policy.canarySteps[0]? with
  | none => exact .raise h.fine
  | some first =>
    dsimp only
    split
    · rename_i hf
      exact promote_ends hP (h.promotable (by simpa [Decision.promotes, hc] using hf))
    · rename_i hf
      obtain ⟨h₀, h⟩ := h.open_of_not_keeps (by simpa [Decision.keeps, Decision.promotes, hc] using hf)
      exact moveTraffic_ends hP h₀ h

theorem awaitApproval_ends {f : ControllerAnswers} {now : Time} {dec : Decision} (h : Actable d x f r dec w) :
    Ensures (awaitApproval f x.id now) w (fun _ => x.Fine d) (fun _ => x.Fine d) (x.Safe d) := by
  refine .bind (.modify (commit_both ⟨h.fine.1, ?_⟩))
  cases h with
  | moved _ hr => exact .moved _ (hr.edited _ rfl rfl rfl rfl)
  | opened _ h => exact .opened _ (h.edited _ rfl rfl rfl rfl ⟨h.accounted.splits, h.accounted.served⟩)

include hP in
/-- Whatever the controller does leaves records that agree with LIVE. -/
theorem act_ends {f : ControllerAnswers} {now : Time} {actor : String} {dec : Decision} (h : Actable d x f r dec w)
    (hend : ∀ state, dec = .endAs state → state.withdrawn = true) :
    Ensures (d.act f x.id now actor dec) w (fun _ => x.Fine d) (fun _ => x.Fine d) (x.Safe d) := by
  cases dec with
  | waiting => exact .ret h.fine
  | endAs state =>
    obtain ⟨h₀, h⟩ := h.open_of_not_keeps rfl
    exact endWithoutPromotion_ends hP (hend state rfl) h₀ h
  | promote => exact promote_ends hP (h.promotable rfl)
  | enterCanary => exact enterCanary_ends hP h
  | awaitApproval => exact awaitApproval_ends h
  | advance percent step =>
    obtain ⟨h₀, h⟩ := h.open_of_not_keeps rfl
    exact moveTraffic_ends hP h₀ h
  | outOfSteps => exact .raise h.fine

theorem Sound.sameBut {s s' : Records} {o : Outside σ} (h : x.Sound d s o) (hs : SameBut s s') : x.Sound d s' o :=
  h.of_same hs.rollouts hs.promotions hs.models

/-- A note changes nothing that matters. -/
theorem Sound.noted {s : Records} {o : Outside σ} (h : x.Sound d s o) (now : Time) (what : String) :
    x.Sound d { s with rollouts := s.rollouts.modify x.id fun r => r.note now what } o := by
  cases h with
  | absent h => exact .absent (by simp [h])
  | opened r h => exact .opened _ (h.edited _ rfl rfl rfl h.active ⟨h.accounted.splits, h.accounted.served⟩)
  | moved r h => exact .moved _ (h.edited _ rfl rfl rfl h.active)
  | withdrawn r row hs h hv => exact .withdrawn _ (row.edited _ rfl rfl rfl) hs (h.of_promotions rfl) hv
  | promoted r row hs h => exact .promoted _ (row.edited _ rfl rfl rfl) hs (h.of_promotions rfl)

theorem blind : Blind (x.Sound d) x.id := ⟨fun hs h => h.sameBut hs, fun now what h => h.noted now what⟩

theorem Sound.inv {s : Records} {o : Outside σ} (h : x.Sound d s o) (hr : s.rollouts.get? x.id = some r) :
    x.Open d s o r ∨ x.Moved d s o r ∨
      (x.Row s o r ∧ r.state.withdrawn = true ∧ x.OnStable d s o ∧ d.port.served o x.name = some x.stable) ∨
      x.Row s o r ∧ r.state = .promoted ∧ x.OnCandidate d s o := by
  cases h with
  | absent h => rw [hr] at h; cases h
  | opened r' h =>
    obtain rfl := Option.some.inj (hr.symm.trans h.get)
    exact .inl h
  | moved r' h =>
    obtain rfl := Option.some.inj (hr.symm.trans h.get)
    exact .inr (.inl h)
  | withdrawn r' row hs h hv =>
    obtain rfl := Option.some.inj (hr.symm.trans row.get)
    exact .inr (.inr (.inl ⟨row, hs, h, hv⟩))
  | promoted r' row hs h =>
    obtain rfl := Option.some.inj (hr.symm.trans row.get)
    exact .inr (.inr (.inr ⟨row, hs, h⟩))

theorem Sound.of_active {s : Records} {o : Outside σ} (h : x.Sound d s o) (hr : s.rollouts.get? x.id = some r)
    (ha : r.state.active = true) : x.Open d s o r ∨ x.Moved d s o r := by
  rcases h.inv hr with h | h | ⟨-, hs, -⟩ | ⟨-, hs, -⟩
  · exact .inl h
  · exact .inr h
  · rw [RolloutState.not_active_of_withdrawn hs] at ha; cases ha
  · rw [hs] at ha; cases ha

theorem Actable.decided {f : ControllerAnswers} {dec : Decision} (h : Actable d x f r dec w) (actor : String) :
    Actable d x f { r with decidedBy := some actor } dec
      { w with session := { w.session with rollouts := w.session.rollouts.modify x.id fun r =>
        { r with decidedBy := some actor } } } := by
  have hdec : ∀ dec : Decision, dec.promotes { r with decidedBy := some actor } = dec.promotes r := by
    intro dec
    cases dec <;> rfl
  have hkeep : dec.keeps { r with decidedBy := some actor } = dec.keeps r := by
    cases dec <;> rfl
  cases h with
  | moved h hr keeps =>
    have hm := hr.edited (fun r => { r with decidedBy := some actor }) rfl rfl rfl hr.active
    exact .moved ⟨h.1, _, hm⟩ hm (hkeep.trans keeps)
  | opened h₀ h works =>
    refine .opened h₀ (h.edited (fun r => { r with decidedBy := some actor }) rfl rfl rfl h.active ?_) ?_
    · exact ⟨h.accounted.splits, h.accounted.served⟩
    · rw [hdec]; exact works

end

end Subject

/-! ## Clean calls -/

namespace RolloutCall

section
variable {σ : Type} {d : Delivery σ} {x : Subject} {w w' : World σ} {r : Rollout} {c : RolloutCall} {dec : Decision}
  (hP : d.port.Lawful d.settings.liveAlias)

/-- A call that gets to decide finds no defect on its way. If the rollout's
promotion is already recorded, it does not end the rollout without it or
change its traffic. If it is not, a promotion that fails is undone, and there
is no split in place that the rollout's record does not know of. -/
def Clean (d : Delivery σ) (x : Subject) (w : World σ) (c : RolloutCall) : Prop :=
  ∀ r dec, w.stored.rollouts.get? x.id = some r → r.state.active = true →
    lockFree d w.stored r.modelId (.rollout x.id) c.clock = true → c.decision d r = some dec →
    ((x.recorded w.stored).isSome → dec.keeps r = true) ∧
    (x.recorded w.stored = none → dec.promotes r = true → MoveWorks c.answers.promote ∧
      (r.percent = 0 → d.port.served w.outside x.name = some x.stable))

theorem Clean.actable (h : Clean d x w c) (hs : x.Safe d w) (hr : w.stored.rollouts.get? x.id = some r)
    (ha : r.state.active = true) (hfree : lockFree d w.stored r.modelId (.rollout x.id) c.clock = true)
    (hd : c.decision d r = some dec) (ho : w'.outside = w.outside) (hsame : SameBut w.stored w'.stored)
    (hse : w'.session = w'.stored) : Subject.Actable d x c.answers r dec w' := by
  obtain ⟨hmoved, hopened⟩ := h r dec hr ha hfree hd
  have hsound : x.Sound d w'.stored w'.outside := Subject.blind.stored hs ho hsame
  have hrec : x.recorded w'.stored = x.recorded w.stored := by
    unfold Subject.recorded
    rw [hsame.promotions]
  have hget : w'.stored.rollouts.get? x.id = some r := by rw [hsame.rollouts]; exact hr
  rcases hsound.of_active hget ha with hop | hm
  · refine .opened (.inr ⟨r, hop⟩) (hse.symm ▸ hop) fun hp => ?_
    rw [ho]
    exact hopened (hrec.symm.trans hop.onStable.row) hp
  · obtain ⟨row, hrow, -⟩ := hm.onCandidate.row
    refine .moved ⟨⟨r, hm⟩, r, hse.symm ▸ hm⟩ (hse.symm ▸ hm) (hmoved ?_)
    rw [← hrec, hrow]
    rfl

theorem decision_endAs {state : RolloutState} (hd : c.decision d r = some (.endAs state)) : state.withdrawn = true := by
  unfold decision at hd
  split at hd
  · split at hd
    · exact r.decideApproval_endAs (Option.some.inj hd)
    · split at hd
      · exact r.decide_endAs (Option.some.inj hd)
      · cases hd
  · split at hd
    · cases hd
    · split at hd
      · cases hd; rfl
      · split at hd <;> cases hd
  · cases hd; rfl

include hP in
/-- A clean call keeps the record in agreement with LIVE. -/
theorem run_safe (hs : x.Safe d w) (h : Clean d x w c) : x.Safe d (c.run d x.id w) := by
  refine run_keeps Subject.blind hs fun r dec hr he hd w' ho hsame hse => ?_
  have hact := h.actable hs hr he.active he.free hd ho hsame hse
  have hend : ∀ state, dec = .endAs state → state.withdrawn = true := fun state he => decision_endAs (he ▸ hd)
  cases c with
  | tick f now clock stable candidate => exact Subject.act_ends hP hact hend
  | approve f now clock actor =>
    cases dec with
    | endAs state => exact Subject.act_ends hP hact hend
    | _ => exact .bind (.modify (Subject.act_ends hP (hact.decided actor) hend))
  | reject f now clock actor => exact .bind (.modify (Subject.act_ends hP (hact.decided actor) hend))

theorem not_active_of_ended {dec : Decision} {state : RolloutState} (hd : c.decision d r = some dec)
    (hstate : dec = .endAs state ∨ dec.promotes r = true ∧ (state = .promoted ∨ state = .rolledBack)) :
    state.active = false := by
  rcases hstate with rfl | ⟨-, rfl | rfl⟩
  · exact RolloutState.not_active_of_withdrawn (decision_endAs hd)
  · rfl
  · rfl

end

end RolloutCall

/-! ## From its start -/

namespace Subject

/-- Before the rollout starts, its stable version is LIVE and serves. -/
structure Fresh {σ : Type} (d : Delivery σ) (x : Subject) (s : Records) (o : Outside σ) : Prop where
  absent : s.rollouts.get? x.id = none
  named : ∀ m, s.db.models.get? x.model = some m → m.mlflowModelName = x.name
  onStable : x.OnStable d s o
  served : d.port.served o x.name = some x.stable

def start {σ : Type} (d : Delivery σ) (x : Subject) (f : ControllerAnswers) (strategy : Strategy)
    (job : Option JobId) (now : Time) : WorldAct σ Unit :=
  d.startRollout f x.id x.model strategy x.stable x.candidate job now

def step {σ : Type} (d : Delivery σ) (x : Subject) (w : World σ) (c : RolloutCall) : Option (World σ) :=
  some (c.run d x.id w)

/-- What the record of the rollout's end promises. -/
structure Agrees {σ : Type} (d : Delivery σ) (x : Subject) (w : World σ) : Prop where
  withdrawn : ∀ r, w.stored.rollouts.get? x.id = some r → r.state.withdrawn = true →
    (∀ row ∈ w.stored.promotions, row.idempotencyKey = some (promoteKey x.id) → row.status ≠ .applied) ∧
    w.outside.live x.name d.settings.liveAlias = some x.stable ∧ d.port.served w.outside x.name = some x.stable
  promoted : ∀ r, w.stored.rollouts.get? x.id = some r → r.state = .promoted →
    (∃ row ∈ w.stored.promotions, row.idempotencyKey = some (promoteKey x.id) ∧ row.status = .applied ∧
      row.toVersion = x.candidate) ∧
    w.outside.live x.name d.settings.liveAlias = some x.candidate ∧ d.port.served w.outside x.name = some x.candidate

section
variable {σ : Type} {d : Delivery σ} {x : Subject} {w : World σ} {r : Rollout}
  (hP : d.port.Lawful d.settings.liveAlias)

theorem Safe.agrees (h : x.Safe d w) : x.Agrees d w := by
  refine ⟨fun r hr hs => ?_, fun r hr hs => ?_⟩
  · rcases Sound.inv h hr with h | h | ⟨-, -, h, hv⟩ | ⟨-, hs', -⟩
    · exact absurd h.active (by simp [RolloutState.not_active_of_withdrawn hs])
    · exact absurd h.active (by simp [RolloutState.not_active_of_withdrawn hs])
    · refine ⟨fun row hrow hk => ?_, h.live, hv⟩
      have := List.find?_eq_none.mp h.row row hrow
      simp [hk] at this
    · rw [hs'] at hs; cases hs
  · rcases Sound.inv h hr with h | h | ⟨-, hs', -⟩ | ⟨-, -, h⟩
    · exact absurd h.active (by simp [hs, RolloutState.active])
    · exact absurd h.active (by simp [hs, RolloutState.active])
    · rw [hs] at hs'; cases hs'
    · obtain ⟨row, hrow, hst, hv⟩ := h.row
      have hk := List.find?_some hrow
      exact ⟨⟨row, List.mem_of_find?_eq_some hrow, by simpa using hk, hst, hv⟩, h.live, h.served⟩

theorem Fresh.open {s s' : Records} {o : Outside σ} (h : x.Fresh d s o) (hr : s'.rollouts.get? x.id = some r)
    (hs : s' = { s with rollouts := s'.rollouts }) (hm : r.modelId = x.model) (hst : r.stableVersion = some x.stable)
    (hc : r.candidateVersion = x.candidate) (ha : r.state.active = true) (hp : r.percent = 0) : x.Open d s' o r := by
  have hreg := o.registry.registered _ _ _ h.onStable.live
  refine ⟨⟨hr, hm, hst, hc, ?_, hreg⟩, ha, h.onStable.of_promotions ?_, ?_, .inl h.served⟩
  · rw [hs]; exact h.named
  · rw [hs]
  · rw [hp]; exact fun h => absurd h (Nat.lt_irrefl 0)

theorem initialState_active (strategy : Strategy) : (initialState strategy).active = true := by
  cases strategy <;> rfl

include hP in
theorem firstSplitFailed_ends {f : ControllerAnswers} {now : Time} {e : AdaptationError}
    (h₀ : x.Pending d w.stored w.outside) (h : x.Open d w.session w.outside r) :
    Ensures (d.firstSplitFailed f x.id now e) w (fun _ => x.Fine d) (fun _ => x.Fine d) (x.Safe d) := by
  unfold firstSplitFailed
  split
  · refine .handle ((endWithoutPromotion_ends hP rfl h₀ h).mono (fun _ _ h => h) ?_ fun _ h => h)
    intro undo w' hf
    split
    · exact .bind (.modify (commit_both ⟨hf.1, hf.2.noted now _⟩))
    · exact .raise hf
  · exact .raise ⟨h₀.sound, .opened _ h⟩

theorem begin_ends {f : ControllerAnswers} {strategy : Strategy} {now : Time} {percent : Nat} {deadline : Option Time}
    (h₀ : x.Pending d w.stored w.outside) (h : x.Open d w.session w.outside r)
    (hsplit : 0 < percent → d.port.splitsTraffic = true)
    (hserved : percent = 0 → d.port.served w.outside x.name = some x.stable) :
    Ensures (editRollout x.id (fun r => r.record (initialState strategy) now "system" (some percent) none deadline) >>=
      fun _ => commit f.record) w (fun _ => x.Fine d) (fun _ => x.Fine d) (x.Safe d) := by
  refine .bind (.modify (commit_both ⟨h₀.sound, .opened _ (h.edited _ rfl rfl rfl (initialState_active strategy)
    ⟨hsplit, ?_⟩)⟩))
  rcases Nat.eq_zero_or_pos percent with hp | hp
  · exact .inl (hserved hp)
  · exact .inr (.inl hp)

include hP in
theorem start_ends {f : ControllerAnswers} {strategy : Strategy} {job : Option JobId} {now : Time}
    (hw : x.Fresh d w.stored w.outside) (hs : x.Fresh d w.session w.outside)
    (hf : 100 ≤ firstPercent d.policy strategy → MoveWorks f.promote) :
    Ensures (start d x f strategy job now) w (fun _ => x.Safe d) (fun _ => x.Safe d) (x.Safe d) := by
  have hsafe : x.Safe d w := .absent hw.absent
  have fine : ∀ {m : WorldAct σ Unit} {w' : World σ},
      Ensures m w' (fun _ => x.Fine d) (fun _ => x.Fine d) (x.Safe d) →
      Ensures m w' (fun _ => x.Safe d) (fun _ => x.Safe d) (x.Safe d) :=
    fun h => h.mono (fun _ _ h => h.1) (fun _ _ h => h.1) fun _ h => h
  refine .bind (.get ?_)
  split
  · exact .raise hsafe
  split
  · exact .raise hsafe
  rename_i rollouts hins
  have hget := Table.get?_insert? hins x.id
  rw [if_pos rfl] at hget
  have hopen : x.Open d { w.session with rollouts := rollouts } w.outside
      (d.newRollout x.model strategy x.stable x.candidate job now) :=
    hs.open hget rfl rfl rfl rfl (initialState_active strategy) rfl
  refine .bind (.modify ?_)
  have h₀ : x.Pending d w.stored w.outside := .inl hw.absent
  dsimp only
  split
  · rename_i hp
    refine fine (.bind (.modify (promote_ends hP (.opened _ h₀ (hopen.edited _ rfl rfl rfl
      (initialState_active strategy) ⟨hopen.accounted.splits, hopen.accounted.served⟩) (hf hp) fun _ => hs.served))))
  · split
    · rename_i hp
      refine fine (begin_ends h₀ hopen (fun h => ?_) fun _ => hs.served)
      rw [hp] at h
      exact absurd h (Nat.lt_irrefl 0)
    · rename_i hp
      refine fine (.bind (.handle (.bind ((splitTraffic_ends hP hopen).mono ?_ ?_ fun _ h => h.safe h₀))))
      · rintro _ _ ⟨⟨o', rfl, hk⟩, hsp, -⟩
        refine .ret (.skipIf (fun h => by cases h) fun _ => ?_)
        exact begin_ends (h₀.kept hk) (hk _ _ hopen) (fun _ => hsp) fun h => absurd h hp
      · rintro e _ ⟨o', rfl, hk⟩
        have h₁ : x.Pending d w.stored o' := h₀.kept hk
        refine .bind ((firstSplitFailed_ends hP h₁ (hk _ _ hopen)).mono ?_ (fun _ _ h => h) fun _ h => h)
        exact fun _ _ h => .ret (.skipIf (fun _ => h) fun h => absurd rfl h)

include hP in
/-- In every run of a rollout from its start whose calls are all clean, the
record of its end agrees with LIVE and with what serves. -/
theorem end_agrees {w₀ : World σ} (hw : x.Fresh d w₀.stored w₀.outside) (hs : x.Fresh d w₀.session w₀.outside)
    {f : ControllerAnswers} {strategy : Strategy} {job : Option JobId} {now : Time}
    (hf : 100 ≤ firstPercent d.policy strategy → MoveWorks f.promote)
    (hrun : Runs.Steps (step d x) (RolloutCall.Clean d x) ((start d x f strategy job now).after w₀) w) :
    x.Agrees d w := by
  have hstart : x.Safe d ((start d x f strategy job now).after w₀) := Ensures.after (start_ends hP hw hs hf)
  have hstep : ∀ w c w', x.Safe d w → RolloutCall.Clean d x w c → step d x w c = some w' → x.Safe d w' := by
    intro w c w' hw hc he
    rw [step, Option.some.injEq] at he
    rw [← he]
    exact RolloutCall.run_safe hP hw hc
  exact (hrun.inv (x.Safe d) hstep hstart).agrees

end

end Subject

/-! ## One that stops between two commits -/

def threeVersions : Registry where
  versions name v := if name = "cell-load" ∧ v ∈ ["1", "2", "3"] then
      some ⟨some "models", [("artifact.sha256", v)], 1, v⟩
    else none
  aliases name a := if name = "cell-load" ∧ a = "live" then some "1" else none
  registered := by
    intro name a v h
    split at h
    · rename_i hn
      cases h
      simp [hn.1]
    · cases h

def liveDeployment : RegistryAliasDeployment :=
  ⟨"live", "canary", "oran.traffic_percent", DeliverySettings.defaults.canary_live⟩

example : RegistryAliasDeployment.fromSettings .defaults = some liveDeployment := rfl

def aliasDelivery : Delivery Unit where
  settings := .defaults
  port := liveDeployment.port
  policy := .defaults
  ttest := fun _ _ => none

theorem aliasDelivery_lawful : aliasDelivery.port.Lawful aliasDelivery.settings.liveAlias :=
  liveDeployment.lawful (by decide)

theorem servedModels_nodup : ([("cell-load", (⟨"cell-load", some "sklearn"⟩ : ModelMetadata))].map Prod.fst).Nodup :=
  List.nodup_singleton _

def cellLoadRecords : Records where
  db := { Db.empty with models := ⟨[("cell-load", ⟨"cell-load", some "sklearn"⟩)], servedModels_nodup⟩ }
  rollouts := .empty
  promotions := []

def cellLoadWorld : World Unit := ⟨⟨threeVersions, ()⟩, cellLoadRecords, cellLoadRecords⟩

namespace Subject

def deliver2 : Subject := ⟨"r1", "cell-load", "cell-load", "1", "2", by decide⟩

theorem cellLoad_fresh : deliver2.Fresh aliasDelivery cellLoadRecords cellLoadWorld.outside := by
  refine ⟨rfl, fun m hm => ?_, ⟨rfl, rfl⟩, rfl⟩
  cases hm
  rfl

def awaiting : World Unit := (start aliasDelivery deliver2 {} .manual (some "a1") 0).after cellLoadWorld

/-- Approved, it is promoted. -/
theorem end_agrees_approved : ∃ w, Runs.Steps (step aliasDelivery deliver2) (RolloutCall.Clean aliasDelivery deliver2)
    awaiting w ∧ (w.stored.rollouts.get? "r1").map Rollout.state = some .promoted ∧ deliver2.Agrees aliasDelivery w := by
  have hclean : RolloutCall.Clean aliasDelivery deliver2 awaiting (.approve {} 1 1 "oncall") := by
    intro r dec _ _ _ _
    exact ⟨fun h => absurd h (by decide), fun _ _ => ⟨.ok, fun _ => by decide⟩⟩
  have hrun : Runs.Steps (step aliasDelivery deliver2) (RolloutCall.Clean aliasDelivery deliver2) awaiting
      ((RolloutCall.approve {} 1 1 "oncall").run aliasDelivery "r1" awaiting) :=
    Runs.Steps.tail (.refl awaiting) hclean rfl
  exact ⟨_, hrun, by decide, end_agrees aliasDelivery_lawful cellLoad_fresh cellLoad_fresh
    (fun h => absurd h (by decide)) hrun⟩

/-- The process stops after promote_version's commit; once the lock has
expired the rollout is rejected although version 2 is LIVE. -/
theorem rejects_promoted : aliasDelivery.port.Lawful aliasDelivery.settings.liveAlias ∧
    deliver2.Fresh aliasDelivery cellLoadRecords cellLoadWorld.outside ∧
    ∃ w, Runs.Steps (step aliasDelivery deliver2) Runs.Free awaiting w ∧ ¬ deliver2.Agrees aliasDelivery w := by
  obtain ⟨w, hrun, hw⟩ := Runs.Steps.exists_of_runs (step aliasDelivery deliver2) Runs.Free awaiting
    [.approve { record := .stop } 1 1 "oncall", .reject {} 3600000002 3600000002 "oncall"]
    (fun w => (w.stored.rollouts.get? "r1").any (fun r => r.state = .rejected) &&
      w.outside.live "cell-load" "live" == some "2") (by decide)
  refine ⟨aliasDelivery_lawful, cellLoad_fresh, w, hrun, fun h => ?_⟩
  simp only [Bool.and_eq_true, Option.any_eq_true, beq_iff_eq, decide_eq_true_eq] at hw
  obtain ⟨⟨r, hr, hs⟩, hlive⟩ := hw
  obtain ⟨-, hl, -⟩ := h.withdrawn r hr (by rw [hs]; rfl)
  exact absurd (hlive.symm.trans hl) (by decide)

end Subject

end OranAdapt
