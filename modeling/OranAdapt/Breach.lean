import OranAdapt.RolloutMoves

/-!
# A breach rolls back

A tick that sees a health breach undoes the split and records ROLLED_BACK,
whatever route the rollout took, unless the rollout awaits an approval: then
the tick does not look at its health.
-/

namespace OranAdapt

open Effects World Outside Delivery

namespace Delivery

variable {σ : Type} {d : Delivery σ}

theorem ReadBack.of_returned {g : SplitAnswers} {gt gc : Answer} {name : String} {sv cv : Version} {percent : Nat}
    {o : Outside σ} (h : (d.route g gt gc name sv cv percent o).1.returned = true) :
    d.ReadBack g gt gc name sv cv percent o := by
  unfold Ended.returned at h
  split at h
  · rename_i he
    exact ⟨_, Prod.ext he rfl⟩
  · cases h

theorem ReadBack.splits {g : SplitAnswers} {gt gc : Answer} {name : String} {sv cv : Version} {percent : Nat}
    {o : Outside σ} (h : d.ReadBack g gt gc name sv cv percent o) : d.port.splitsTraffic = true := by
  obtain ⟨o', h⟩ := h
  refine Ensures.elim_done (R := fun _ _ => True) (S := fun _ => True) (D := fun _ _ => d.port.splitsTraffic = true) ?_ h
  refine .bind (target_ends.mono ?_ (fun _ _ _ => trivial) fun _ _ => trivial)
  intro stable o₁ _
  refine .bind (candidateTarget_ends.mono ?_ (fun _ _ _ => trivial) fun _ _ => trivial)
  intro candidate o₂ _
  unfold Deployer.split
  split
  · exact .raise trivial
  · rename_i hs
    rw [Bool.not_eq_false] at hs
    exact (Ensures.self _ _).mono (fun _ _ _ => hs) (fun _ _ _ => trivial) fun _ _ => trivial

theorem ReadBack.removed (hP : d.port.Lawful d.settings.liveAlias) {g : SplitAnswers} {gt gc : Answer} {name : String}
    {sv cv : Version} {o o' : Outside σ} (h : d.route g gt gc name sv cv 0 o = (.done (), o')) :
    d.port.served o' name = some sv ∧ d.port.splitTo o' name = none := by
  refine Ensures.elim_done (R := fun _ _ => True) (S := fun _ => True)
    (D := fun _ o' => d.port.served o' name = some sv ∧ d.port.splitTo o' name = none) ?_ h
  refine .bind (target_ends.mono ?_ (fun _ _ _ => trivial) fun _ _ => trivial)
  rintro stable o₁ ⟨-, ht⟩
  refine .bind (candidateTarget_ends.mono ?_ (fun _ _ _ => trivial) fun _ _ => trivial)
  rintro candidate o₂ ⟨-, hc⟩
  rw [ht]
  exact (Deployer.split_ends hP).mono (fun _ _ h => h.2.2.2 (hc rfl)) (fun _ _ _ => trivial) fun _ _ => trivial

end Delivery

namespace Subject

variable {σ : Type} (d : Delivery σ) (x : Subject)

def RolledBack (s : Records) (o : Outside σ) : Prop :=
  (∃ r, s.rollouts.get? x.id = some r ∧ r.state = .rolledBack) ∧ d.port.served o x.name = some x.stable ∧
    d.port.splitTo o x.name = none

/-- The answers of a tick that takes the lock and whose calls succeed: the two
arms are observed, the split is removed and read back, the record commits. -/
structure TickWorks (f : ControllerAnswers) (o : Outside σ) : Prop where
  lock : f.lock = .ok
  observed : f.observeStable = .ok ∧ f.observeCandidate = .ok
  removed : d.ReadBack f.undo f.undoTarget .ok x.name x.stable x.candidate 0 o
  record : f.record = .ok

/-- What every history leaves of the rollout and its model. -/
structure Rolling (s : Records) : Prop where
  named : ∃ m, s.db.models.get? x.model = some m ∧ m.mlflowModelName = x.name
  row : ∀ r, s.rollouts.get? x.id = some r → r.modelId = x.model ∧ r.stableVersion = some x.stable ∧
    r.candidateVersion = x.candidate ∧ (r.state.active = true → 0 < r.percent → d.port.splitsTraffic = true)

section
variable {d x} {w w' : World σ} {r : Rollout} {f : ControllerAnswers} {now clock : Time} {stable candidate : ArmStats}

theorem Rolling.run {c : RolloutCall} (h : x.Rolling d w.stored) : x.Rolling d (c.run d x.id w).stored := by
  obtain ⟨hnamed, hrow⟩ := h
  refine ⟨by rw [RolloutCall.run_models]; exact hnamed, fun r' hr' => ?_⟩
  have hsome : (w.stored.rollouts.get? x.id).isSome := by
    rw [← RolloutCall.run_isSome (c := c) (d := d), hr']; rfl
  obtain ⟨r, hr⟩ := Option.isSome_iff_exists.mp hsome
  obtain ⟨hm, hst, hc, hp⟩ := hrow r hr
  have hfixed : r.Fixed r' → (r'.state.active = true → 0 < r'.percent → d.port.splitsTraffic = true) →
      r'.modelId = x.model ∧ r'.stableVersion = some x.stable ∧ r'.candidateVersion = x.candidate ∧
        (r'.state.active = true → 0 < r'.percent → d.port.splitsTraffic = true) :=
    fun h h' => ⟨h.modelId.trans hm, h.stable.trans hst, h.candidate.trans hc, h'⟩
  cases RolloutCall.run_moves hr hr' with
  | kept h => exact hfixed h.toFixed (by rw [h.state, h.percent]; exact hp)
  | ended h enters dec decided state =>
    refine hfixed h fun ha => ?_
    have hended := RolloutCall.not_active_of_ended decided state
    rw [hended] at ha
    cases ha
  | split h enters dec decided percent step splits readBack =>
    obtain ⟨m, sv, -, -, hback⟩ := readBack
    exact hfixed h fun _ _ => hback.splits
  | awaits h enters decided state at_ => exact hfixed h fun _ => by rw [at_]; exact hp enters.active

theorem Rolling.start {strategy : Strategy} {job : Option JobId} {m : ModelMetadata}
    (h₀ : w.stored.rollouts.get? x.id = none) (hmodels : w.session.db.models = w.stored.db.models)
    (hm : w.stored.db.models.get? x.model = some m) (hname : m.mlflowModelName = x.name) :
    x.Rolling d ((start d x f strategy job now).after w).stored := by
  refine ⟨⟨m, by rw [start_models rfl hmodels]; exact hm, hname⟩, fun r hr => ?_⟩
  have hfixed : (x.inserted d strategy job now).Fixed r → (r.state.active = true → 0 < r.percent →
      d.port.splitsTraffic = true) → r.modelId = x.model ∧ r.stableVersion = some x.stable ∧
        r.candidateVersion = x.candidate ∧ (r.state.active = true → 0 < r.percent → d.port.splitsTraffic = true) :=
    fun h h' => ⟨h.modelId, h.stable, h.candidate, h'⟩
  cases start_moves h₀ hr with
  | begun h state at_ started deadline below readBack =>
    refine hfixed h fun _ hp => ?_
    obtain ⟨m, -, hback⟩ := readBack (by rw [← at_.1]; exact hp)
    exact hback.splits
  | promoting h state at_ => exact hfixed h fun _ hp => absurd hp (by rw [at_]; exact Nat.lt_irrefl 0)
  | ended h state =>
    refine hfixed h fun ha => ?_
    rcases state with hs | ⟨hs, -⟩ <;> rw [hs] at ha <;> cases ha
  | lost h => exact hfixed h.toFixed fun _ hp => absurd hp (by rw [h.percent]; exact Nat.lt_irrefl 0)

/-! ## The tick that sees the breach -/

theorem lock_taken {model : ModelId} {holder : Holder} (hw : w.session = w.stored) (hf : f.lock = .ok)
    (hfree : lockFree d w.stored model holder clock = true) : Ensures (d.lock f model holder clock) w
      (fun locked w' => locked = true ∧ w'.outside = w.outside ∧ SameBut w.stored w'.stored ∧ w'.session = w'.stored)
      (fun _ _ => False) fun _ => False := by
  refine .bind (.get ?_)
  rw [hf, hw]
  cases ht : w.stored.db.takeOverExpiredLock model holder d.settings.modelLockTtlS clock with
  | some db =>
    obtain ⟨l, -, -, rfl⟩ := Db.takeOverExpiredLock_some ht
    exact .bind (.modify (.bind (commit_ok (.ret ⟨rfl, rfl, ⟨by rw [hw], by rw [hw], rfl⟩, rfl⟩))))
  | none =>
    cases ha : w.stored.db.addLock model holder d.settings.modelLockTtlS clock with
    | none => simp [lockFree, ht, ha] at hfree
    | some db =>
      obtain ⟨-, locks, -, rfl⟩ := Db.addLock_some ha
      exact .bind (.modify (.bind (commit_ok (.ret ⟨rfl, rfl, ⟨by rw [hw], by rw [hw], rfl⟩, rfl⟩))))

theorem rolledBack_blind : Blind (x.RolledBack d) x.id where
  sameBut hs h := ⟨by rw [hs.rollouts]; exact h.1, h.2⟩
  noted now what h := by
    obtain ⟨⟨r, hr, hs⟩, h⟩ := h
    exact ⟨⟨r.note now what, by simp [hr], hs⟩, h⟩

theorem decide_breach {ttest : List Rat → List Rat → Option Rat}
    (hb : (evaluateHealth r.policy stable candidate).status = .breach) :
    r.decide ttest now stable candidate = .endAs .rolledBack := by
  unfold Rollout.decide
  dsimp only
  rw [if_pos hb]

theorem nameOf_found {model : ModelId} {m : ModelMetadata} (hm : w.session.db.models.get? model = some m)
    {D : String → World σ → Prop} {R : AdaptationError → World σ → Prop} {S : World σ → Prop}
    (hD : D m.mlflowModelName w) : Ensures (Delivery.nameOf model) w D R S := by
  refine .bind (.get ?_)
  rw [hm]
  exact .ret hD

theorem rollsBack_ends (hP : d.port.Lawful d.settings.liveAlias) (hf : x.TickWorks d f w.outside)
    (h : x.Rolling d w.session) (hr : w.session.rollouts.get? x.id = some r) (ha : r.state.active = true)
    (hp : 0 < r.percent) : Ensures (d.endWithoutPromotion f x.id .rolledBack now "system") w
      (fun _ => Stored (x.RolledBack d)) (fun _ _ => False) fun _ => False := by
  obtain ⟨o', hroute⟩ := hf.removed
  obtain ⟨m, hm, hname⟩ := h.named
  obtain ⟨hmodel, hst, hc, hsplits⟩ := h.row r hr
  have hremoved := ReadBack.removed hP hroute
  have hsplit : Ensures (d.splitTraffic f.undo f.undoTarget .ok x.id 0) w (fun _ w' => w' = { w with outside := o' })
      (fun _ _ => False) fun _ => False := by
    refine .bind (getRollout_ends hr (.bind ?_))
    rw [hmodel]
    refine nameOf_found hm ?_
    rw [hname, hst, hc]
    have hdone : Ensures (reach (d.route f.undo f.undoTarget .ok x.name x.stable x.candidate 0)) w
        (fun _ w' => w' = { w with outside := o' }) (fun _ _ => False) fun _ => False :=
      reach_ends (.of_done hroute rfl)
    unfold route at hdone
    simp only [reach_bind] at hdone
    exact hdone
  refine .bind (Ensures.mono (D := fun _ w' => w' = { w with outside := o' }) (R := fun _ _ => False)
    (S := fun _ => False) ?_ ?_ (fun _ _ h => h) fun _ h => h)
  · refine .bind (getRollout_ends hr ?_)
    rw [if_neg (by rw [hsplits ha hp, hst]; simp), if_pos hp]
    exact hsplit
  · rintro _ _ rfl
    refine .bind (.modify ?_)
    rw [hf.record]
    refine commit_ok ⟨⟨r.record .rolledBack now "system" (some 0) none none, ?_, rfl⟩, hremoved⟩
    simp [hr]

theorem breach_ends (hP : d.port.Lawful d.settings.liveAlias) (hf : x.TickWorks d f w.outside)
    (h : x.Rolling d w.stored) (hr : w.stored.rollouts.get? x.id = some r) (ha : r.state.active = true)
    (hp : 0 < r.percent) (hb : (evaluateHealth r.policy stable candidate).status = .breach)
    (hfree : lockFree d w.stored r.modelId (.rollout x.id) clock = true) (hs : r.state ≠ .awaitingApproval) :
    Stored (x.RolledBack d) ((RolloutCall.tick f now clock stable candidate).run d x.id w) := by
  refine Ensures.after (m := d.tick f x.id now clock stable candidate) ?_
  refine .bind (getRollout_ends (w := w.reopened) hr ?_)
  rw [if_neg (by rw [ha]; simp)]
  refine .bind ((lock_taken (w := w.reopened) rfl hf.lock hfree).mono ?_ (fun _ _ h => h.elim) fun _ h => h.elim)
  rintro _ w₁ ⟨rfl, ho, hsame, hse⟩
  rw [if_neg (by simp)]
  have hr₁ : w₁.session.rollouts.get? x.id = some r := by rw [hse, hsame.rollouts]; exact hr
  have h₁ : x.Rolling d w₁.session := by
    rw [hse]
    exact ⟨by rw [hsame.models]; exact h.named, by rw [hsame.rollouts]; exact h.row⟩
  have hf₁ : x.TickWorks d f w₁.outside := by rw [ho]; exact hf
  obtain ⟨m, hm, hname⟩ := h₁.named
  refine .andFinally (Ensures.mono (D := fun _ => Stored (x.RolledBack d)) (R := fun _ _ => False) (S := fun _ => False)
    ?_ (fun _ _ h => unlock_ends rolledBack_blind h) (fun _ _ h => h.elim) fun _ h => h.elim)
  refine .bind (getRollout_ends hr₁ ?_)
  rw [if_neg (by rw [ha]; simp)]
  refine .handle (.bind (getRollout_ends hr₁ ?_))
  rw [if_neg hs]
  rw [(h₁.row r hr₁).1]
  refine .bind (nameOf_found hm ?_)
  rw [if_neg (by rw [(h₁.row r hr₁).2.1]; exact Option.some_ne_none _)]
  refine .bind (reach_ends ?_)
  rw [hf.observed.1]
  refine @Ensures.of_done _ _ _ _ _ w₁.outside _ _ _ _ rfl (.bind (reach_ends ?_))
  rw [hf.observed.2]
  refine @Ensures.of_done _ _ _ _ _ w₁.outside _ _ _ _ rfl ?_
  rw [decide_breach hb]
  refine .bind ((rollsBack_ends hP hf₁ h₁ hr₁ ha hp).mono ?_ (fun _ _ h => h.elim) fun _ h => h)
  exact fun _ _ h => .ret h

theorem awaiting_not_rolledBack (hr : w.stored.rollouts.get? x.id = some r) (hs : r.state = .awaitingApproval) :
    ¬ Stored (x.RolledBack d) ((RolloutCall.tick f now clock stable candidate).run d x.id w) := by
  rintro ⟨⟨r', hr', hback⟩, -⟩
  have hdec : RolloutCall.decision d r (.tick f now clock stable candidate) = some (r.decideApproval now) := by
    simp only [RolloutCall.decision, if_pos hs]
  have happroval : r.decideApproval now = .waiting ∨ r.decideApproval now = .endAs .expired := by
    unfold Rollout.decideApproval
    split
    · exact .inr rfl
    · exact .inl rfl
  cases RolloutCall.run_moves hr hr' with
  | kept h => rw [h.state, hs] at hback; cases hback
  | ended h enters dec decided state =>
    obtain rfl := Option.some.inj (hdec.symm.trans decided)
    rcases happroval with ha | ha <;> rw [ha] at state
    · rcases state with h | ⟨h, -⟩ <;> cases h
    · rcases state with h | ⟨h, -⟩
      · rw [hback] at h; cases h
      · cases h
  | split h enters dec decided percent step splits readBack state => rw [state] at hback; cases hback
  | awaits h enters decided state => rw [state] at hback; cases hback

/-- After every history of a rollout, a tick that sees a breach while the
candidate may receive traffic, takes the lock and succeeds, rolls it back with
all traffic on the stable version exactly when no approval is awaited. -/
theorem breach_rolls_back (hP : d.port.Lawful d.settings.liveAlias) {w₀ : World σ} {m : ModelMetadata}
    (h₀ : w₀.stored.rollouts.get? x.id = none) (hmodels : w₀.session.db.models = w₀.stored.db.models)
    (hm : w₀.stored.db.models.get? x.model = some m) (hname : m.mlflowModelName = x.name)
    {f₀ : ControllerAnswers} {strategy : Strategy} {job : Option JobId} {now₀ : Time}
    (hrun : Runs.Steps (step d x) Runs.Free ((start d x f₀ strategy job now₀).after w₀) w)
    (hr : w.stored.rollouts.get? x.id = some r) (ha : r.state.active = true) (hp : 0 < r.percent)
    (hb : (evaluateHealth r.policy stable candidate).status = .breach)
    (hfree : lockFree d w.stored r.modelId (.rollout x.id) clock = true) (hf : x.TickWorks d f w.outside) :
    Stored (x.RolledBack d) ((RolloutCall.tick f now clock stable candidate).run d x.id w) ↔
      r.state ≠ .awaitingApproval := by
  have hrolling : x.Rolling d w.stored := by
    refine hrun.inv (fun w => x.Rolling d w.stored) ?_ (.start h₀ hmodels hm hname)
    intro w c w' hw _ he
    rw [step, Option.some.injEq] at he
    rw [← he]
    exact hw.run
  constructor
  · intro h hs
    exact awaiting_not_rolledBack hr hs h
  · exact breach_ends hP hf hrolling hr ha hp hb hfree

end

/-! ## An inconclusive A/B test -/

def manualDelivery : Delivery Unit :=
  { aliasDelivery with policy := { DeliveryPolicy.defaults with abInconclusive := .manual } }

def failing : ArmStats := ⟨100, [("error_rate", [1])]⟩

def serving : ArmStats := ⟨100, [("error_rate", [0])]⟩

def testing : World Unit := (start manualDelivery deliver2 {} .ab (some "a1") 0).after cellLoadWorld

/-- Nothing was observed until its end, so an approver has to decide. -/
def undecided : World Unit :=
  (RolloutCall.tick {} 3600000000 3600000000 ⟨0, []⟩ ⟨0, []⟩).run manualDelivery "r1" testing

/-- While the test is on, the breach rolls back. -/
theorem breach_rolls_back_testing : Stored (deliver2.RolledBack manualDelivery)
    ((RolloutCall.tick {} 1 1 serving failing).run manualDelivery "r1" testing) := by
  obtain ⟨r, hr, hp⟩ := (Option.any_eq_true _ _).mp (show (testing.stored.rollouts.get? "r1").any (fun r =>
    r.state = .ab && decide (0 < r.percent) && decide (r.modelId = "cell-load") &&
      decide ((evaluateHealth r.policy serving failing).status = .breach)) = true by decide +kernel)
  simp only [Bool.and_eq_true, decide_eq_true_eq] at hp
  obtain ⟨⟨⟨hs, hp⟩, hm⟩, hb⟩ := hp
  have hrun : Runs.Steps (step manualDelivery deliver2) Runs.Free
      ((start manualDelivery deliver2 {} .ab (some "a1") 0).after cellLoadWorld) testing := .refl _
  refine (breach_rolls_back (d := manualDelivery) (m := ⟨"cell-load", some "sklearn"⟩)
    aliasDelivery_lawful ?_ ?_ ?_ rfl hrun hr
    (by rw [hs]; rfl) hp hb ?_ ⟨rfl, ⟨rfl, rfl⟩, .of_returned ?_, rfl⟩).mpr (by rw [hs]; decide)
  · rfl
  · rfl
  · rfl
  · rw [hm]
    decide +kernel
  · decide +kernel

/-- Once it waits for an approval, half of the traffic stays on a candidate in breach. -/
theorem breach_waits : ∃ w r, Runs.Steps (step manualDelivery deliver2) Runs.Free
      ((start manualDelivery deliver2 {} .ab (some "a1") 0).after cellLoadWorld) w ∧
    w.stored.rollouts.get? "r1" = some r ∧ r.state.active = true ∧ r.percent = 50 ∧
    (evaluateHealth r.policy serving failing).status = .breach ∧
    lockFree manualDelivery w.stored r.modelId (.rollout "r1") 3600000001 = true ∧
    deliver2.TickWorks manualDelivery {} w.outside ∧
    ¬ Stored (deliver2.RolledBack manualDelivery)
      ((RolloutCall.tick {} 3600000001 3600000001 serving failing).run manualDelivery "r1" w) := by
  obtain ⟨r, hr, hp⟩ := (Option.any_eq_true _ _).mp (show (undecided.stored.rollouts.get? "r1").any (fun r =>
    r.state = .awaitingApproval && decide (r.percent = 50) && decide (r.modelId = "cell-load") &&
      decide ((evaluateHealth r.policy serving failing).status = .breach)) = true by decide +kernel)
  simp only [Bool.and_eq_true, decide_eq_true_eq] at hp
  obtain ⟨⟨⟨hs, hp⟩, hm⟩, hb⟩ := hp
  refine ⟨undecided, r, .tail (.refl _) trivial rfl, hr, by rw [hs]; rfl, hp, hb, ?_,
    ⟨rfl, ⟨rfl, rfl⟩, .of_returned ?_, rfl⟩, awaiting_not_rolledBack hr hs⟩
  · rw [hm]
    decide +kernel
  · decide +kernel

end Subject

end OranAdapt
