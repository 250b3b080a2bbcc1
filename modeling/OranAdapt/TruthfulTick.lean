import OranAdapt.Evidence
import OranAdapt.TickEnds
import OranAdapt.Untracked

/-!
# What a tick says

A tick that returns a state, `waiting`, `busy` or `unavailable` says something
of the stored rollout. It is true, and the tick returns, unless an error that
the tick does not catch leaves the action, a promotion is refused, or the
first canary step is at 100 percent: each decision returns its own literal,
whatever the action recorded.
-/

namespace OranAdapt

open Effects World Outside Delivery

namespace Delivery

variable {σ : Type} (d : Delivery σ) (f : ControllerAnswers) (id : RolloutId) (now : Time) (r : Rollout)

/-- What the answer of a tick says, of the active rollout `r` it found in `w`. -/
def Tells (w : World σ) (res : TickResult) (w' : World σ) : Prop :=
  match res with
  | .moved state => ∃ r', w'.stored.rollouts.get? id = some r' ∧ r'.state = state
  | .busy | .waiting => (∃ r', w'.stored.rollouts.get? id = some r' ∧ r'.position = r.position) ∧ w'.outside = w.outside
  | .unavailable =>
    ∃ r', w'.stored.rollouts.get? id = some r' ∧ r'.position = r.position ∧ r'.deadlineAt = r.deadlineAt
  | .ended => False

/-- The tick returns, and what it says is true. -/
def TellsTruth (clock : Time) (stable candidate : ArmStats) (w : World σ) : Prop :=
  Ensures (d.tick f id now clock stable candidate) w.reopened (Tells id r w) (fun _ _ => False) fun _ => False

/-- It returns, or raises what a tick catches. -/
def Manages {α : Type} (m : WorldAct σ α) (w : World σ) : Prop :=
  Ensures m w (fun _ _ => True) (fun e _ => e.caughtByTick = true) fun _ => False

def Withheld {α : Type} (m : WorldAct σ α) (w : World σ) : Prop :=
  Ensures m w (fun _ _ => False) (fun e _ => e.caughtByTick = true) fun _ => False

/-- The promotion is applied and `cleared` holds then, or it raises what a tick
catches, if it is refused only from the undo. -/
def PromotesTo (cleared : World σ → Prop) (w : World σ) : Prop :=
  Ensures (d.promoteVersion f.promote (promotionRequest id r "system")) w (fun _ => cleared)
    (fun e w' => if e.cls = .promotion ∨ e.cls.isConflict then
        Withheld (d.undoTraffic f id) { w' with session := w'.stored }
      else e.caughtByTick = true) fun _ => False

/-- What the calls of an action have to come to for its tick's answer. -/
def Truthful (w : World σ) : Decision → Prop
  | .waiting | .awaitApproval => True
  | .outOfSteps => False
  | .endAs _ => Manages (d.undoTraffic f id) w
  | .advance percent _ => Manages (d.splitTraffic f.split f.stableTarget f.candidateTarget id percent) w
  | .promote => d.PromotesTo f id r (Manages (d.clearSplit f id now)) w
  | .enterCanary =>
    match r.policy.canarySteps[0]? with
    | none => False
    | some first =>
      if 100 ≤ first then d.PromotesTo f id r (Withheld (d.clearSplit f id now)) w
      else Manages (d.splitTraffic f.split f.stableTarget f.candidateTarget id first) w

/-- The observation that the tick did not get fails as a tick catches it. -/
def MissedTruthfully : Prop :=
  ∃ e : PortError, (missed f = .before e ∨ missed f = .after e) ∧ e.1.caughtByTick = true

/-- Of the tick: the lock is held by someone else, or its calls come to what
its answer says. -/
def TickTruthful (clock : Time) (stable candidate : ArmStats) (w : World σ) : Prop :=
  lockFree d w.stored r.modelId (.rollout id) clock = true →
    match RolloutCall.decision d r (.tick f now clock stable candidate) with
    | some dec => d.Truthful f id now r (d.lockedAt f id r clock w) dec
    | none => r.stableVersion ≠ none ∧ MissedTruthfully f

end Delivery

/-- The rollout is recorded as it was found, in the session too. -/
structure Found {σ : Type} (id : RolloutId) (r : Rollout) (w : World σ) : Prop where
  stored : ∃ r', w.stored.rollouts.get? id = some r' ∧ r.Same r'
  session : ∃ r', w.session.rollouts.get? id = some r' ∧ r.Same r'

section
variable {σ : Type} {d : Delivery σ} {w w₁ : World σ} {f : ControllerAnswers} {id : RolloutId}
  {r : Rollout} {now clock : Time}
  {stable candidate : ArmStats} {m : ModelMetadata} {dec : Decision}

theorem found_across (id : RolloutId) (r : Rollout) : AcrossCommits (Found (σ := σ) id r) id where
  same h h' hs := ⟨by rw [h.rollouts]; exact hs.stored, by rw [h'.rollouts]; exact hs.session⟩
  edited g hg hs := by
    obtain ⟨r', hr', hsame⟩ := hs.session
    exact ⟨hs.stored, g r', by simp [hr'], hsame.trans (hg r')⟩
  commits hs := ⟨hs.session, hs.session⟩
  rollsBack hs := ⟨hs.stored, hs.stored⟩

theorem Locked.found (h : Locked d f id r clock w w₁) (hr : w.stored.rollouts.get? id = some r) : Found id r w₁ := by
  refine ⟨⟨r, ?_, .refl r⟩, r, h.get hr, .refl r⟩
  rw [h.same.rollouts]
  exact hr

theorem Rollout.Same.tells {r' : Rollout} (h : r.Same r') : r'.position = r.position ∧ r'.deadlineAt = r.deadlineAt :=
  ⟨h.position, h.deadlineAt⟩

/-- Nothing happened to a rollout whose tick could not complete. -/
theorem Found.tells_iff (h : Found id r w₁) {model : ModelId} {holder : Holder} (e : AdaptationError) :
    (if e.caughtByTick then Tells id r w .unavailable ((w₁.notedFailure id now).unlocked model holder) else False) ↔
      e.caughtByTick = true := by
  obtain ⟨r', hr', hsame⟩ := h.stored
  split
  · rename_i he
    refine iff_of_true ⟨r'.note now "tick could not complete", ?_, (hsame.trans (r'.same_note now _)).tells⟩ he
    simp [World.unlocked, World.notedFailure, World.recorded, hr']
  · rename_i he
    exact iff_of_false not_false he

theorem Found.recorded (h : Found id r w₁) (g : Rollout → Rollout) (model : ModelId) (holder : Holder) :
    ∃ r', ((w₁.recorded id g).unlocked model holder).stored.rollouts.get? id = some (g r') := by
  obtain ⟨r', hr', -⟩ := h.session
  exact ⟨r', by simp [World.unlocked, World.recorded, hr']⟩

theorem recording_iff {m : WorldAct σ Unit} (hm : Keeps (Found id r) m) (h : Found id r w₁)
    {model : ModelId} {holder : Holder}
    {g : Rollout → Rollout} {state : RolloutState} (hg : ∀ r, (g r).state = state) :
    Ensures m w₁ (fun _ w' => Tells id r w (.moved state) ((w'.recorded id g).unlocked model holder))
      (fun e w' => if e.caughtByTick then Tells id r w .unavailable ((w'.notedFailure id now).unlocked model holder)
        else False)
      (fun _ => False) ↔ Manages m w₁ := by
  refine Ensures.iff_of (hm w₁ h) (fun _ w' h' => iff_of_true ?_ trivial) (fun e w' h' => h'.tells_iff e) fun _ _ => .rfl
  obtain ⟨r', hr'⟩ := h'.recorded g model holder
  exact ⟨_, hr', hg r'⟩

theorem misrecording_iff {m : WorldAct σ Unit} (hm : Keeps (Found id r) m) (h : Found id r w₁) {model : ModelId}
    {holder : Holder} {g : Rollout → Rollout} {state : RolloutState} (hg : ∀ r, (g r).state ≠ state) :
    Ensures m w₁ (fun _ w' => Tells id r w (.moved state) ((w'.recorded id g).unlocked model holder))
      (fun e w' => if e.caughtByTick then Tells id r w .unavailable ((w'.notedFailure id now).unlocked model holder)
        else False)
      (fun _ => False) ↔ Withheld m w₁ := by
  refine Ensures.iff_of (hm w₁ h) (fun _ w' h' => iff_of_false ?_ not_false) (fun e w' h' => h'.tells_iff e) fun _ _ => .rfl
  rintro ⟨r₁, hr₁, hs⟩
  obtain ⟨r', hr'⟩ := h'.recorded g model holder
  obtain rfl := Option.some.inj (hr₁.symm.trans hr')
  exact hg r' hs

theorem promoting_iff (hf : DbAnswers f) (hw : w₁.session = w₁.stored) (hr : w₁.session.rollouts.get? id = some r)
    (h : Found id r w₁) {model : ModelId} {holder : Holder} {state : RolloutState} (hne : state ≠ .rolledBack)
    {cleared : World σ → Prop} (hcleared : ∀ w', Found id r w' →
      (Ensures (d.clearSplit f id now) w' (fun _ w'' => Tells id r w (.moved state)
          ((w''.recorded id fun r => r.record .promoted now "system" (some 100) none none).unlocked model holder))
        (fun e w' => if e.caughtByTick then Tells id r w .unavailable ((w'.notedFailure id now).unlocked model holder)
          else False)
        (fun _ => False) ↔ cleared w')) :
    Ensures (d.promote f id now "system") w₁
      (fun _ w' => Tells id r w (.moved state) (w'.unlocked model holder))
      (fun e w' => if e.caughtByTick then Tells id r w .unavailable ((w'.notedFailure id now).unlocked model holder)
        else False)
      (fun _ => False) ↔ d.PromotesTo f id r cleared w₁ := by
  have hJ := found_across (σ := σ) id r
  rw [promote_iff hf hw hr]
  refine Ensures.iff_of (hJ.promoteVersion _ _ w₁ h) (fun _ w' h' => hcleared w' h') (fun e w' h' => ?_) fun _ _ => .rfl
  split
  · exact misrecording_iff (hJ.undoTraffic f) (hJ.rollsBack h') fun _ => hne.symm
  · exact h'.tells_iff e

theorem acting_iff (hf : DbAnswers f) (hl : Locked d f id r clock w w₁) (hr : w.stored.rollouts.get? id = some r) :
    Ensures (d.act f id now "system" dec) w₁
      (fun _ w' => Tells id r w dec.reported (w'.unlocked r.modelId (.rollout id)))
      (fun e w' => if e.caughtByTick then
          Tells id r w .unavailable ((w'.notedFailure id now).unlocked r.modelId (.rollout id))
        else False)
      (fun _ => False) ↔ d.Truthful f id now r w₁ dec := by
  have hJ := found_across (σ := σ) id r
  have hget := hl.get hr
  have hfound := hl.found hr
  cases dec with
  | waiting =>
    refine iff_of_true ⟨⟨r, ?_, rfl⟩, hl.outside⟩ trivial
    change w₁.stored.rollouts.get? id = some r
    rw [← hl.session]
    exact hget
  | endAs state =>
    change Ensures (d.endWithoutPromotion f id state now "system") w₁ _ _ _ ↔ _
    rw [endWithoutPromotion_iff hf.record]
    exact recording_iff (hJ.undoTraffic f) hfound fun _ => rfl
  | promote =>
    exact promoting_iff hf hl.session hget hfound (by decide) fun w' h' =>
      recording_iff (hJ.clearSplit f now) h' fun _ => rfl
  | enterCanary =>
    change Ensures (d.enterCanary f id now "system") w₁ _ _ _ ↔ _
    unfold enterCanary
    rw [Ensures.bind_iff, getRollout_iff hget, Truthful]
    cases r.policy.canarySteps[0]? with
    | none => exact iff_of_false (fun h => h) not_false
    | some first =>
      dsimp only
      split
      · exact promoting_iff hf hl.session hget hfound (by decide) fun w' h' =>
          misrecording_iff (hJ.clearSplit f now) h' fun _ => show RolloutState.promoted ≠ .canary by decide
      · rw [moveTraffic_iff hf.record]
        exact recording_iff (hJ.splitTraffic _ _ _ _) hfound fun _ => rfl
  | awaitApproval =>
    change Ensures (awaitApproval f id now) w₁ _ _ _ ↔ _
    unfold awaitApproval
    rw [record_iff hf.record]
    obtain ⟨r', hr'⟩ := hfound.recorded (fun r => r.record .awaitingApproval now "system" none none
      (some (now + r.policy.approvalTtlS))) r.modelId (.rollout id)
    exact iff_of_true ⟨_, hr', rfl⟩ trivial
  | advance percent step =>
    change Ensures (d.moveTraffic f id percent step now "system") w₁ _ _ _ ↔ _
    rw [moveTraffic_iff hf.record]
    exact recording_iff (hJ.splitTraffic _ _ _ _) hfound fun _ => rfl
  | outOfSteps => exact iff_of_false (fun h => h) not_false

theorem missing_iff (h : Found id r w₁) {model : ModelId} {holder : Holder} :
    Ensures (reach (observe (missed f) stable)) w₁ (fun _ _ => False)
      (fun e w' => if e.caughtByTick then Tells id r w .unavailable ((w'.notedFailure id now).unlocked model holder)
        else False)
      (fun _ => False) ↔ MissedTruthfully f := by
  unfold MissedTruthfully
  cases missed f with
  | ok => simp [Ensures, reach, observe, ask, perform, Fate.map, Act.within]
  | before e =>
    refine Iff.trans (h.tells_iff e.1) ⟨fun he => ⟨e, .inl rfl, he⟩, ?_⟩
    rintro ⟨e', he' | he', he⟩
    · cases he'
      exact he
    · cases he'
  | after e =>
    refine Iff.trans (h.tells_iff e.1) ⟨fun he => ⟨e, .inr rfl, he⟩, ?_⟩
    rintro ⟨e', he' | he', he⟩
    · cases he'
    · cases he'
      exact he
  | stop => simp [Ensures, reach, observe, ask, perform, Fate.map, Act.within]

/-- A tick of an active rollout tells the truth exactly when its calls come to
what it answers. -/
theorem tells_truth_iff (hr : w.stored.rollouts.get? id = some r) (ha : r.state.active = true)
    (hm : w.stored.db.models.get? r.modelId = some m) (hf : DbAnswers f) :
    d.TellsTruth f id now r clock stable candidate w ↔ d.TickTruthful f id now r clock stable candidate w := by
  unfold TellsTruth TickTruthful
  cases hfree : lockFree d w.stored r.modelId (.rollout id) clock with
  | false =>
    rw [tick_busy_iff hr ha hfree]
    exact iff_of_true ⟨⟨r, hr, rfl⟩, rfl⟩ fun h => by cases h
  | true =>
    have hl := lockedAt_locked hf.lock hfree
    refine Iff.trans ?_ ⟨fun h _ => h, fun h => h rfl⟩
    cases hd : RolloutCall.decision d r (.tick f now clock stable candidate) with
    | some dec => rw [tick_iff hr ha hm hfree hf hd, acting_iff hf hl hr]
    | none =>
      have hs : r.state ≠ .awaitingApproval := by
        intro hs
        simp [RolloutCall.decision, hs] at hd
      by_cases hst : r.stableVersion = none
      · rw [tick_unset_iff hr ha hm hfree hf hs hst]
        exact iff_of_false not_false fun h => h.1 hst
      · have hobs : ¬ (f.observeStable = .ok ∧ f.observeCandidate = .ok) := by
          intro hobs
          simp only [RolloutCall.decision, if_neg hs, if_pos (And.intro hst hobs)] at hd
          cases hd
        rw [tick_missed_iff hr ha hm hfree hf hs hst hobs, missing_iff (hl.found hr)]
        exact (and_iff_right hst).symm

end

/-! ## Ticks that do not -/

namespace Delivery

variable {σ : Type} {d : Delivery σ} {f : ControllerAnswers} {id : RolloutId} {now clock : Time} {r : Rollout}
  {stable candidate : ArmStats} {w : World σ}

/-- The tick does not return, or it returns a state that is not recorded. -/
def misleads (d : Delivery σ) (f : ControllerAnswers) (id : RolloutId) (now clock : Time) (stable candidate : ArmStats)
    (w : World σ) : Bool :=
  match d.tick f id now clock stable candidate w.reopened with
  | (.done (.moved state), w') => (w'.stored.rollouts.get? id).all fun r => r.state ≠ state
  | (.done _, _) => false
  | _ => true

theorem not_tellsTruth_of_misleads (h : misleads d f id now clock stable candidate w = true) :
    ¬ d.TellsTruth f id now r clock stable candidate w := by
  intro htruth
  unfold TellsTruth Ensures at htruth
  unfold misleads at h
  split at h
  · rename_i state w' he
    rw [he] at htruth
    obtain ⟨r', hr', hs⟩ := htruth
    rw [hr'] at h
    simp [hs] at h
  · cases h
  · rename_i ended hmoved hdone
    split at htruth
    · rename_i res w' he
      exact hdone res w' he
    · exact htruth
    · exact htruth

theorem Manages.of_returned {α : Type} {m : WorldAct σ α} (h : (m w).1.returned = true) : Manages m w := by
  unfold Manages Ensures
  unfold Ended.returned at h
  cases hm : m w with
  | mk o w' =>
    rw [hm] at h
    cases o with
    | done => trivial
    | raised | stopped => cases h

end Delivery

namespace Subject

def refusedDeploy : ControllerAnswers := { promote := { rollout := { deploy := fun _ => .before conflicted } } }

def unreachableSplit : ControllerAnswers := { split := { set := fun _ => .before unreachable } }

def climbing : World InferenceServices := (start kserveDelivery deliver2 {} .canary (some "a1") 0).after kserveWorld

def topping : World InferenceServices :=
  (healthyTick 2).run kserveDelivery "r1" ((healthyTick 1).run kserveDelivery "r1" climbing)

theorem tick_answers : DbAnswers {} := ⟨rfl, rfl, rfl, rfl, rfl⟩

/-- While nothing fails, the tick that climbs tells the truth. -/
theorem tells_truth_climbing : ∃ r, climbing.stored.rollouts.get? "r1" = some r ∧
    kserveDelivery.TellsTruth {} "r1" 600000000 r 600000000 serving serving climbing := by
  obtain ⟨r, hr, hp⟩ := (Option.any_eq_true _ _).mp (show (climbing.stored.rollouts.get? "r1").any (fun r =>
    r.state.active && decide (r.modelId = "cell-load") &&
      decide ((RolloutCall.tick {} 600000000 600000000 serving serving).decision kserveDelivery r = some (.advance 25 1)) &&
      (kserveDelivery.splitTraffic {} .ok .ok "r1" 25
        (kserveDelivery.lockedAt {} "r1" r 600000000 climbing)).1.returned) = true by decide +kernel)
  simp only [Bool.and_eq_true, decide_eq_true_eq] at hp
  obtain ⟨⟨⟨ha, hm⟩, hd⟩, hreturned⟩ := hp
  refine ⟨r, hr, (tells_truth_iff (m := ⟨"cell-load", some "sklearn"⟩) hr ha ?_ tick_answers).mpr fun _ => ?_⟩
  · rw [hm]
    rfl
  · rw [hd]
    exact .of_returned hreturned

/-- A refused promotion is told as PROMOTED, and an unreachable serving system
makes the tick raise. -/
theorem ticks_mislead :
    (∃ r, topping.stored.rollouts.get? "r1" = some r ∧ r.state = .canary ∧
      ¬ kserveDelivery.TellsTruth refusedDeploy "r1" 1800000000 r 1800000000 serving serving topping) ∧
    ∃ r, climbing.stored.rollouts.get? "r1" = some r ∧ r.state = .canary ∧
      ¬ kserveDelivery.TellsTruth unreachableSplit "r1" 600000000 r 600000000 serving serving climbing := by
  have hrow : ∀ {w : World InferenceServices}, (w.stored.rollouts.get? "r1").any (fun r => r.state = .canary) = true →
      ∃ r, w.stored.rollouts.get? "r1" = some r ∧ r.state = .canary := by
    intro w hw
    obtain ⟨r, hr, hs⟩ := (Option.any_eq_true _ _).mp hw
    exact ⟨r, hr, of_decide_eq_true hs⟩
  obtain ⟨r, hr, hs⟩ := hrow (w := topping) (by decide +kernel)
  obtain ⟨r', hr', hs'⟩ := hrow (w := climbing) (by decide +kernel)
  refine ⟨⟨r, hr, hs, not_tellsTruth_of_misleads ?_⟩, r', hr', hs', not_tellsTruth_of_misleads ?_⟩
  · decide +kernel
  · decide +kernel

end Subject

end OranAdapt
