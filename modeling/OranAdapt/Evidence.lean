import OranAdapt.Breach
import OranAdapt.Untracked

/-!
# No promotion without the evidence

What the controller has seen of a rollout: splits read back from the serving
system, and the health of the two arms over a window. A canary climbs one step
at a time on such evidence, and an A/B test ends on it, provided that the start
did not lose its first split.
-/

namespace OranAdapt

open Effects World Outside Delivery

/-- A split that was read back, or a judgement of both arms over the window
from `since` to `at_`. -/
inductive Evidence where
  | readBack (percent : Nat) (at_ : Time)
  | judged (health : HealthStatus) (since at_ : Time)
deriving DecidableEq, Repr

namespace RolloutCall

variable {σ : Type} (d : Delivery σ) (id : RolloutId) (w : World σ) (r : Rollout)

/-- The arms of a tick that gets both observations. -/
def judgement : RolloutCall → List Evidence
  | .tick f now _ stable candidate =>
    if r.state ≠ .awaitingApproval ∧ r.stableVersion ≠ none ∧ f.observeStable = .ok ∧ f.observeCandidate = .ok then
      [.judged (evaluateHealth r.policy stable candidate).status r.stepStartedAt now]
    else []
  | _ => []

def routed (c : RolloutCall) (m : ModelMetadata) : List Evidence :=
  match (c.decision d r).bind (Decision.splits r), r.stableVersion with
  | some (percent, _), some sv =>
    if (d.route c.answers.split c.answers.stableTarget c.answers.candidateTarget m.mlflowModelName sv
        r.candidateVersion percent w.outside).1.returned then [.readBack percent c.now]
    else []
  | _, _ => []

def evidence (c : RolloutCall) : List Evidence :=
  match w.stored.rollouts.get? id with
  | none => []
  | some r =>
    match w.stored.db.models.get? r.modelId with
    | none => []
    | some m =>
      if r.state.active ∧ lockFree d w.stored r.modelId (.rollout id) c.clock ∧ c.answers.lock = .ok then
        c.judgement r ++ c.routed d w r m
      else []

end RolloutCall

/-- A canary step's way up to step `step`, entered at `at_`: every step before
was read back, then held and found healthy over its own window. -/
inductive Climbed (policy : DeliveryPolicy) : List Evidence → Nat → Time → Prop where
  | entered {log : List Evidence} {percent : Nat} {at_ : Time} (first : policy.canarySteps[0]? = some percent) :
      Climbed policy (log ++ [.readBack percent at_]) 0 at_
  | next {log : List Evidence} {step percent : Nat} {since at_ : Time} (h : Climbed policy log step since)
      (held : since + policy.canaryStepHoldS ≤ at_) (next : policy.canarySteps[step + 1]? = some percent) :
      Climbed policy (log ++ [.judged .healthy since at_, .readBack percent at_]) (step + 1) at_
  | later {log more : List Evidence} {step : Nat} {at_ : Time} (h : Climbed policy log step at_) :
      Climbed policy (log ++ more) step at_

/-- An A/B split at `ab_percent` was read back at `since`, and both arms were
judged once `ab_duration_s` had passed since. -/
def Tested (policy : DeliveryPolicy) (log : List Evidence) (since : Time) : Prop :=
  .readBack policy.abPercent since ∈ log ∧
    ∃ health start at_, .judged health start at_ ∈ log ∧ since + policy.abDurationS ≤ at_

/-- Every canary step below 100 was read back, held and found healthy, the
last of them too. -/
def Earned (policy : DeliveryPolicy) (log : List Evidence) : Prop :=
  ∃ before after step since at_, log = before ++ .judged .healthy since at_ :: after ∧
    Climbed policy before step since ∧ since + policy.canaryStepHoldS ≤ at_ ∧
    ∀ i percent, policy.canarySteps[i]? = some percent → percent < 100 → i ≤ step

theorem Climbed.first {policy : DeliveryPolicy} {log : List Evidence} {step : Nat} {at_ : Time}
    (h : Climbed policy log step at_) :
    ∃ percent since, policy.canarySteps[0]? = some percent ∧ .readBack percent since ∈ log := by
  induction h with
  | entered first => exact ⟨_, _, first, List.mem_append_right _ (List.mem_singleton_self _)⟩
  | next _ _ _ ih | later _ ih =>
    obtain ⟨percent, since, hp, hmem⟩ := ih
    exact ⟨percent, since, hp, List.mem_append_left _ hmem⟩

theorem Earned.first {policy : DeliveryPolicy} {log : List Evidence} (h : Earned policy log) :
    ∃ percent since, policy.canarySteps[0]? = some percent ∧ .readBack percent since ∈ log := by
  obtain ⟨before, after, step, since, at_, rfl, hc, -, -⟩ := h
  obtain ⟨percent, since, hp, hmem⟩ := hc.first
  exact ⟨percent, since, hp, List.mem_append_left _ hmem⟩

/-! ## Why a decision is made -/

section
variable {r : Rollout} {ttest : List Rat → List Rat → Option Rat} {now : Time} {stable candidate : ArmStats}

inductive Grounds (r : Rollout) (now : Time) (health : HealthStatus) : Decision → Prop where
  | shadow {dec : Decision} (state : r.state = .shadow) (stays : ∀ percent step, dec ≠ .advance percent step) :
      Grounds r now health dec
  | climbs {percent : Nat} (state : r.state = .canary) (healthy : health = .healthy)
      (held : r.stepStartedAt + r.policy.canaryStepHoldS ≤ now)
      (next : r.policy.canarySteps[r.step + 1]? = some percent) (below : percent < 100) :
      Grounds r now health (.advance percent (r.step + 1))
  | tops {percent : Nat} (state : r.state = .canary) (healthy : health = .healthy)
      (held : r.stepStartedAt + r.policy.canaryStepHoldS ≤ now)
      (next : r.policy.canarySteps[r.step + 1]? = some percent) (full : 100 ≤ percent) : Grounds r now health .promote
  | tested {dec : Decision} (state : r.state ≠ .shadow ∧ r.state ≠ .canary)
      (due : r.deadlineAt = none ∨ r.overdue now = true) (ends : dec = .promote ∨ dec = .awaitApproval) :
      Grounds r now health dec
  | ends {dec : Decision} (h : dec = .waiting ∨ dec = .outOfSteps ∨
      ∃ state, dec = .endAs state) : Grounds r now health dec

theorem Rollout.decideShadow_stays {health : HealthStatus} {percent step : Nat} :
    r.decideShadow health now ≠ .advance percent step := by
  unfold Rollout.decideShadow
  split
  · split <;> exact Decision.noConfusion
  · split <;> exact Decision.noConfusion

theorem Rollout.decideCanary_grounds {health : HealthStatus} (hs : r.state = .canary) :
    Grounds r now health (r.decideCanary health now) := by
  unfold Rollout.decideCanary
  split
  · exact .ends (.inl rfl)
  · rename_i hh
    rw [not_or, Decidable.not_not, Nat.not_lt] at hh
    split
    · exact .ends (.inr (.inl rfl))
    · rename_i percent hp
      split
      · rename_i hf
        exact .tops hs hh.1 hh.2 hp hf
      · rename_i hf
        exact .climbs hs hh.1 hh.2 hp (Nat.lt_of_not_le hf)

theorem Rollout.decideAb_grounds {health : HealthStatus} {verdict : AbVerdict}
    (hs : r.state ≠ .shadow ∧ r.state ≠ .canary) : Grounds r now health (r.decideAb verdict now) := by
  unfold Rollout.decideAb
  split
  · exact .ends (.inl rfl)
  · rename_i hd
    rw [not_and_or, Decidable.not_not, Decidable.not_not] at hd
    split
    · exact .tested hs hd (.inl rfl)
    · exact .tested hs hd (.inl rfl)
    · exact .tested hs hd (.inr rfl)
    · exact .ends (.inr (.inr ⟨_, rfl⟩))
    · exact .ends (.inr (.inr ⟨_, rfl⟩))

theorem Rollout.decide_grounds (r : Rollout) (ttest : List Rat → List Rat → Option Rat) (now : Time)
    (stable candidate : ArmStats) : Grounds r now (evaluateHealth r.policy stable candidate).status
      (r.decide ttest now stable candidate) := by
  unfold Rollout.decide
  dsimp only
  split
  · exact .ends (.inr (.inr ⟨_, rfl⟩))
  · split
    · rename_i hs
      exact .shadow hs fun _ _ => decideShadow_stays
    · rename_i hs
      exact decideCanary_grounds hs
    · rename_i hshadow hcanary
      exact decideAb_grounds ⟨hshadow, hcanary⟩

end

namespace RolloutCall

variable {σ : Type} (d : Delivery σ) (id : RolloutId) (w : World σ) (r : Rollout)

/-- The call gets to decide on a promotion. -/
def Promotes (c : RolloutCall) : Prop :=
  c.Enters d id w r ∧ ∃ dec, c.decision d r = some dec ∧ dec.promotes r = true

inductive Decided (r : Rollout) (c : RolloutCall) (dec : Decision) : Prop where
  | ends (h : ∃ state, dec = .endAs state)
  | approved (state : r.state = .awaitingApproval) (h : dec = .waiting ∨ dec = .enterCanary ∨ dec = .promote)
  | ticked (health : HealthStatus) (judged : c.judgement r = [.judged health r.stepStartedAt c.now])
      (grounds : Grounds r c.now health dec)

variable {d id w r} {c : RolloutCall} {dec : Decision}

theorem decision_decided (hd : c.decision d r = some dec) : Decided r c dec := by
  cases c with
  | tick f now clock stable candidate =>
    simp only [decision] at hd
    split at hd
    · rename_i hs
      rw [Option.some.injEq, Rollout.decideApproval] at hd
      split at hd
      · exact .ends ⟨_, hd.symm⟩
      · exact .approved hs (.inl hd.symm)
    · rename_i hs
      split at hd
      · rename_i hobs
        rw [Option.some.injEq] at hd
        refine .ticked (evaluateHealth r.policy stable candidate).status ?_ (hd ▸ r.decide_grounds ..)
        exact if_pos ⟨hs, hobs⟩
      · cases hd
  | approve f now clock actor =>
    simp only [decision] at hd
    split at hd
    · cases hd
    · rename_i hs
      rw [Decidable.not_not] at hs
      split at hd
      · exact .ends ⟨_, (Option.some.inj hd).symm⟩
      · split at hd
        · exact .approved hs (.inr (.inl (Option.some.inj hd).symm))
        · exact .approved hs (.inr (.inr (Option.some.inj hd).symm))
  | reject f now clock actor => exact .ends ⟨_, (Option.some.inj hd).symm⟩

theorem evidence_of_enters {m : ModelMetadata} (hr : w.stored.rollouts.get? id = some r)
    (hm : w.stored.db.models.get? r.modelId = some m) (he : c.Enters d id w r) :
    c.evidence d id w = c.judgement r ++ c.routed d w r m := by
  unfold evidence
  simp only [hr, hm]
  exact if_pos ⟨he.active, he.free, he.locked⟩

theorem routed_of_readBack {m : ModelMetadata} (hm : w.stored.db.models.get? r.modelId = some m)
    (hd : c.decision d r = some dec) {percent step : Nat} (hs : dec.splits r = some (percent, step))
    (h : c.SplitReadBack d w r percent) : c.routed d w r m = [.readBack percent c.now] := by
  obtain ⟨m', sv, hm', hsv, o', hback⟩ := h
  obtain rfl := Option.some.inj (hm.symm.trans hm')
  unfold routed
  simp only [hd, Option.bind_some, hs, hsv]
  rw [hback]
  rfl

theorem promotes_of_promoted {r' : Rollout} (hr : w.stored.rollouts.get? id = some r) (hn : r.state ≠ .promoted)
    (hr' : (c.run d id w).stored.rollouts.get? id = some r') (h : r'.state = .promoted) : c.Promotes d id w r := by
  cases run_moves hr hr' with
  | kept hs => exact absurd (hs.state.symm.trans h) hn
  | ended _ enters dec decided state =>
    rcases state with he | ⟨hp, -⟩
    · subst he
      have := decision_endAs decided
      rw [h] at this
      cases this
    · exact ⟨enters, dec, decided, hp⟩
  | split _ _ _ _ _ _ _ _ state => rw [state] at h; cases h
  | awaits _ _ _ state => rw [state] at h; cases h

end RolloutCall

/-! ## What every history leaves -/

theorem CanarySteps.below_next {steps : List Nat} (h : CanarySteps steps) {i percent : Nat}
    (hn : steps[i + 1]? = some percent) : ∃ first, steps[0]? = some first ∧ first < 100 := by
  obtain ⟨hi, rfl⟩ := List.getElem?_eq_some_iff.mp hn
  have hlt := List.pairwise_iff_getElem.mp h.increasing 0 (i + 1) (by omega) hi (by omega)
  have hle := (h.range _ (List.getElem_mem hi)).2
  exact ⟨steps[0], List.getElem?_eq_getElem _, by omega⟩

theorem CanarySteps.reached {steps : List Nat} (h : CanarySteps steps) {step percent : Nat}
    (hn : steps[step + 1]? = some percent) (hf : 100 ≤ percent) {i p : Nat} (hi : steps[i]? = some p) (hp : p < 100) :
    i ≤ step := by
  obtain ⟨hs, rfl⟩ := List.getElem?_eq_some_iff.mp hn
  obtain ⟨hi', rfl⟩ := List.getElem?_eq_some_iff.mp hi
  by_contra hlt
  have hle : step + 1 ≤ i := by omega
  rcases Nat.lt_or_eq_of_le hle with hlt | heq
  · have := List.pairwise_iff_getElem.mp h.increasing (step + 1) i hs hi' hlt
    omega
  · subst heq
    omega

/-- What the evidence says of an active rollout. -/
structure Supported (r : Rollout) (log : List Evidence) : Prop where
  canary : r.state = .canary →
    Climbed r.policy log r.step r.stepStartedAt ∨ ∀ percent, r.policy.canarySteps[0]? = some percent → 100 ≤ percent
  climbs : r.strategy = .canary → r.state = .canary
  ab : r.strategy = .ab → ∃ since,
    r.state = .ab ∧ .readBack r.policy.abPercent since ∈ log ∧ r.deadlineAt = some (since + r.policy.abDurationS) ∨
      r.state ≠ .ab ∧ Tested r.policy log since

section
variable {r r' : Rollout} {log : List Evidence}

theorem Tested.later {policy : DeliveryPolicy} {since : Time} (h : Tested policy log since) (more : List Evidence) :
    Tested policy (log ++ more) since := by
  obtain ⟨hback, health, start, at_, hj, hle⟩ := h
  exact ⟨List.mem_append_left _ hback, health, start, at_, List.mem_append_left _ hj, hle⟩

theorem Supported.later (h : Supported r log) (more : List Evidence) : Supported r (log ++ more) := by
  refine ⟨fun hs => (h.canary hs).imp_left .later, h.climbs, fun hs => ?_⟩
  obtain ⟨since, ⟨hab, hback, hdl⟩ | ⟨hab, ht⟩⟩ := h.ab hs
  · exact ⟨since, .inl ⟨hab, List.mem_append_left _ hback, hdl⟩⟩
  · exact ⟨since, .inr ⟨hab, ht.later more⟩⟩

theorem Supported.same (h : Supported r log) (hs : r.Same r') : Supported r' log := by
  obtain ⟨hcanary, hclimbs, hab⟩ := h
  constructor
  · rw [hs.state, hs.policy, hs.step, hs.stepStartedAt]; exact hcanary
  · rw [hs.strategy, hs.state]; exact hclimbs
  · rw [hs.strategy, hs.state, hs.policy, hs.deadlineAt]; exact hab

end

section
variable {σ : Type} {d : Delivery σ} {id : RolloutId} {w : World σ} {r r' : Rollout}
  {log : List Evidence} {c : RolloutCall}
  {m : ModelMetadata}

/-- The A/B test's window is over when a tick goes on from it. -/
theorem Supported.tested {dec : Decision} (h : Supported r log) (hd : RolloutCall.Decided r c dec)
    (hgoes : (∃ percent step, dec.splits r = some (percent, step)) ∨ dec = .awaitApproval ∨ dec.promotes r = true)
    (hs : r.strategy = .ab) (more : List Evidence) : ∃ since, Tested r.policy (log ++ (c.judgement r ++ more)) since := by
  obtain ⟨since, ⟨hab, hback, hdl⟩ | ⟨hab, ht⟩⟩ := h.ab hs
  · refine ⟨since, List.mem_append_left _ hback, ?_⟩
    cases hd with
    | ends he =>
      obtain ⟨state, rfl⟩ := he
      rcases hgoes with ⟨_, _, h⟩ | h | h <;> cases h
    | approved state => rw [hab] at state; cases state
    | ticked health judged grounds =>
      have hdue : r.deadlineAt = none ∨ r.overdue c.now = true := by
        cases grounds with
        | shadow state => rw [hab] at state; cases state
        | climbs state => rw [hab] at state; cases state
        | tops state => rw [hab] at state; cases state
        | tested state due => exact due
        | ends h =>
          rcases h with rfl | rfl | ⟨state, rfl⟩ <;> rcases hgoes with ⟨_, _, h⟩ | h | h <;> cases h
      refine ⟨health, r.stepStartedAt, c.now, ?_, ?_⟩
      · rw [judged]
        simp
      · simpa [Rollout.overdue, hdl] using hdue
  · exact ⟨since, ht.later _⟩

theorem Supported.run (hr : w.stored.rollouts.get? id = some r) (hm : w.stored.db.models.get? r.modelId = some m)
    (h : r.state.active = true → Supported r log) (hr' : (c.run d id w).stored.rollouts.get? id = some r')
    (ha : r'.state.active = true) : Supported r' (log ++ c.evidence d id w) := by
  cases RolloutCall.run_moves hr hr' with
  | kept hs => exact ((h (hs.state ▸ ha)).same hs).later _
  | ended hf enters dec decided state =>
    have hended := RolloutCall.not_active_of_ended decided state
    rw [hended] at ha
    cases ha
  | split hf enters dec decided percent step splits readBack state at_ started =>
    have h := h enters.active
    have hd := RolloutCall.decision_decided decided
    rw [RolloutCall.evidence_of_enters hr hm enters, RolloutCall.routed_of_readBack hm decided splits readBack]
    refine ⟨fun _ => ?_, fun _ => state, fun hs => ?_⟩
    · rw [hf.policy, at_.2, started]
      cases dec with
      | advance p s =>
        obtain ⟨rfl, rfl⟩ := Prod.mk.inj (Option.some.inj splits)
        cases hd with
        | ends he => obtain ⟨_, he⟩ := he; cases he
        | approved _ he => rcases he with he | he | he <;> cases he
        | ticked health judged grounds =>
          rw [judged]
          cases grounds with
          | shadow _ stays => exact absurd rfl (stays p s)
          | climbs hs healthy held next below =>
            subst healthy
            rcases h.canary hs with hc | hc
            · exact .inl (.next hc held next)
            · obtain ⟨first, hf, hlt⟩ := r.policy.steps.below_next next
              exact absurd (hc first hf) (by omega)
          | tested _ _ he => rcases he with he | he <;> cases he
          | ends he => rcases he with he | he | ⟨_, he⟩ <;> cases he
      | enterCanary =>
        simp only [Decision.splits] at splits
        split at splits
        · rename_i first hfirst
          split at splits
          · cases splits
          · obtain ⟨rfl, rfl⟩ := Prod.mk.inj (Option.some.inj splits)
            rw [← List.append_assoc]
            exact .inl (.entered hfirst)
        · cases splits
      | _ => cases splits
    · rw [hf.strategy] at hs
      rw [hf.policy, state]
      obtain ⟨since, ht⟩ := h.tested hd (.inl ⟨percent, step, splits⟩) hs [.readBack percent c.now]
      exact ⟨since, .inr ⟨by decide, ht⟩⟩
  | awaits hf enters decided state at_ =>
    have h := h enters.active
    have hd := RolloutCall.decision_decided decided
    rw [RolloutCall.evidence_of_enters hr hm enters]
    refine ⟨fun hs => ?_, fun hs => ?_, fun hs => ?_⟩
    · rw [state] at hs
      cases hs
    · -- a canary never waits for an approval
      have hcanary := h.climbs (hf.strategy ▸ hs)
      cases hd with
      | ends he => obtain ⟨_, he⟩ := he; cases he
      | approved _ he => rcases he with he | he | he <;> cases he
      | ticked health judged grounds =>
        cases grounds with
        | shadow state => rw [hcanary] at state; cases state
        | tested state => exact absurd hcanary state.2
        | ends he => rcases he with he | he | ⟨_, he⟩ <;> cases he
    · rw [hf.strategy] at hs
      rw [hf.policy, state]
      obtain ⟨since, ht⟩ := h.tested hd (.inr (.inl rfl)) hs (c.routed d w r m)
      exact ⟨since, .inr ⟨by decide, ht⟩⟩

end

/-! ## Every history -/

namespace Subject

variable {σ : Type} (d : Delivery σ) (x : Subject)

def witnessed (s : World σ × List Evidence) (c : RolloutCall) : Option (World σ × List Evidence) :=
  some (c.run d x.id s.1, s.2 ++ c.evidence d x.id s.1)

def startEvidence (f : ControllerAnswers) (strategy : Strategy) (now : Time) (w : World σ) : List Evidence :=
  match w.session.db.models.get? x.model with
  | none => []
  | some m =>
    if (d.route f.split f.stableTarget f.candidateTarget m.mlflowModelName x.stable x.candidate
        (firstPercent d.policy strategy) w.outside).1.returned then [.readBack (firstPercent d.policy strategy) now]
    else []

def Justified (strategy : Strategy) (r : Rollout) (log : List Evidence) : Prop :=
  (strategy = .canary ∨ r.state = .canary → Earned d.policy log) ∧
    (strategy = .ab → ∃ since, Tested d.policy log since)

section
variable {d x} {f : ControllerAnswers} {strategy : Strategy} {job : Option JobId} {now : Time} {w₀ w : World σ}
  {r : Rollout} {log : List Evidence} {c : RolloutCall} {m : ModelMetadata}

theorem startEvidence_of_readBack (hm : w₀.session.db.models.get? x.model = some m)
    (h : d.ReadBack f.split f.stableTarget f.candidateTarget m.mlflowModelName x.stable x.candidate
      (firstPercent d.policy strategy) w₀.outside) :
    x.startEvidence d f strategy now w₀ = [.readBack (firstPercent d.policy strategy) now] := by
  obtain ⟨o', h⟩ := h
  unfold startEvidence
  rw [hm]
  simp only [h]
  rfl

theorem firstPercent_canary (policy : DeliveryPolicy) :
    policy.canarySteps[0]? = some (firstPercent policy .canary) ∧ 0 < firstPercent policy .canary := by
  have h := policy.steps
  unfold firstPercent
  cases hs : policy.canarySteps with
  | nil =>
    have := h.last
    rw [hs] at this
    cases this
  | cons first rest => exact ⟨rfl, (h.range first (by simp [hs])).1⟩

theorem full_canary {policy : DeliveryPolicy} (h : 100 ≤ firstPercent policy strategy) : strategy = .canary := by
  have := policy.percent_range
  cases strategy with
  | canary => rfl
  | ab => simp only [firstPercent] at h; omega
  | shadow | manual => simp [firstPercent] at h

theorem start_supported (h₀ : w₀.stored.rollouts.get? x.id = none) (hl : ¬ x.SplitLost d f strategy job now w₀)
    (hr : ((start d x f strategy job now).after w₀).stored.rollouts.get? x.id = some r) (ha : r.state.active = true) :
    Supported r (x.startEvidence d f strategy now w₀) := by
  cases start_moves h₀ hr with
  | begun h state at_ started deadline below readBack =>
    refine ⟨fun hs => ?_, fun hs => ?_, fun hs => ?_⟩
    · rw [state] at hs
      have hcanary : strategy = .canary := by cases strategy <;> first | rfl | cases hs
      subst hcanary
      obtain ⟨hfirst, hpos⟩ := firstPercent_canary d.policy
      obtain ⟨m, hm, hback⟩ := readBack hpos
      rw [startEvidence_of_readBack hm hback, h.policy, at_.2, started]
      exact .inl (@Climbed.entered _ [] _ _ hfirst)
    · rw [state, show strategy = .canary from h.strategy.symm.trans hs]
      rfl
    · obtain rfl : strategy = .ab := h.strategy.symm.trans hs
      obtain ⟨m, hm, hback⟩ := readBack d.policy.percent_range.1
      rw [startEvidence_of_readBack hm hback, h.policy]
      exact ⟨now, .inl ⟨state, List.mem_singleton_self _, deadline⟩⟩
  | promoting h state at_ full =>
    obtain rfl := full_canary full
    refine ⟨fun _ => .inr fun percent hp => ?_, fun _ => state, fun hs => ?_⟩
    · rw [h.policy] at hp
      exact Option.some.inj ((firstPercent_canary d.policy).1.symm.trans hp) ▸ full
    · cases h.strategy.symm.trans hs
  | ended h state => rcases state with hs | ⟨hs, -⟩ <;> rw [hs] at ha <;> cases ha
  | lost h hlost => exact absurd hlost hl

theorem Justified.of_promotes (hr : w.stored.rollouts.get? x.id = some r)
    (hm : w.stored.db.models.get? r.modelId = some m) (hpolicy : r.policy = d.policy) (hstrategy : r.strategy = strategy)
    (h : Supported r log) (hp : c.Promotes d x.id w r) : Justified d strategy r (log ++ c.evidence d x.id w) := by
  obtain ⟨enters, dec, decided, hpromotes⟩ := hp
  have hd := RolloutCall.decision_decided decided
  rw [RolloutCall.evidence_of_enters hr hm enters]
  constructor
  · intro hs
    have hcanary : r.state = .canary := hs.elim (fun h' => h.climbs (hstrategy.trans h')) fun h' => h'
    cases hd with
    | ends he => obtain ⟨_, rfl⟩ := he; cases hpromotes
    | approved state => rw [hcanary] at state; cases state
    | ticked health judged grounds =>
      cases grounds with
      | shadow state => rw [hcanary] at state; cases state
      | climbs => cases hpromotes
      | tops _ healthy held next full =>
        subst healthy
        rw [judged, ← hpolicy]
        rcases h.canary hcanary with hc | hc
        · exact ⟨log, _, r.step, r.stepStartedAt, c.now, rfl, hc, held,
            fun i p hi hlt => r.policy.steps.reached next full hi hlt⟩
        · obtain ⟨first, hf, hlt⟩ := r.policy.steps.below_next next
          exact absurd (hc first hf) (by omega)
      | tested state => exact absurd hcanary state.2
      | ends he => rcases he with rfl | rfl | ⟨_, rfl⟩ <;> cases hpromotes
  · intro hs
    rw [← hpolicy]
    exact h.tested hd (.inr (.inr hpromotes)) (hstrategy.trans hs) (c.routed d w r m)

/-- What every history leaves of the rollout and its model, and its evidence. -/
structure Documented (d : Delivery σ) (x : Subject) (strategy : Strategy) (s : World σ × List Evidence) : Prop where
  rolling : x.Rolling d s.1.stored
  row : ∀ r, s.1.stored.rollouts.get? x.id = some r → r.policy = d.policy ∧ r.strategy = strategy ∧
    (r.state.active = true → Supported r s.2)

theorem Documented.start (h₀ : w₀.stored.rollouts.get? x.id = none)
    (hmodels : w₀.session.db.models = w₀.stored.db.models)
    (hm : w₀.stored.db.models.get? x.model = some m) (hname : m.mlflowModelName = x.name)
    (hl : ¬ x.SplitLost d f strategy job now w₀) :
    Documented d x strategy ((start d x f strategy job now).after w₀, x.startEvidence d f strategy now w₀) := by
  refine ⟨.start h₀ hmodels hm hname, fun r hr => ?_⟩
  have hfixed := (start_moves h₀ hr).fixed
  exact ⟨hfixed.policy, hfixed.strategy, start_supported h₀ hl hr⟩

theorem Documented.run (h : Documented d x strategy (w, log)) :
    Documented d x strategy (c.run d x.id w, log ++ c.evidence d x.id w) := by
  refine ⟨h.rolling.run, fun r' hr' => ?_⟩
  have hsome : (w.stored.rollouts.get? x.id).isSome := by
    rw [← RolloutCall.run_isSome (c := c) (d := d), hr']; rfl
  obtain ⟨r, hr⟩ := Option.isSome_iff_exists.mp hsome
  obtain ⟨hpolicy, hstrategy, hsupported⟩ := h.row r hr
  obtain ⟨m, hm, -⟩ := h.rolling.named
  rw [← (h.rolling.row r hr).1] at hm
  have hfixed : r.Fixed r' := (RolloutCall.run_moves hr hr').fixed
  exact ⟨hfixed.policy.trans hpolicy, hfixed.strategy.trans hstrategy, Supported.run hr hm hsupported hr'⟩

/-- In every history whose start does not lose its first split, what records
PROMOTED is a promotion, and a promotion rests on its evidence: a canary on
every step below 100, an A/B test on its split and its window. The start itself
promotes only what has no such step. -/
theorem promotes_on_evidence (h₀ : w₀.stored.rollouts.get? x.id = none)
    (hmodels : w₀.session.db.models = w₀.stored.db.models) (hm : w₀.stored.db.models.get? x.model = some m)
    (hname : m.mlflowModelName = x.name) (hl : ¬ x.SplitLost d f strategy job now w₀)
    (hrun : Runs.Steps (witnessed d x) Runs.Free
      ((start d x f strategy job now).after w₀, x.startEvidence d f strategy now w₀) (w, log)) :
    (∀ (c : RolloutCall) r, w.stored.rollouts.get? x.id = some r → c.Promotes d x.id w r →
      Justified d strategy r (log ++ c.evidence d x.id w)) ∧
    (∀ (c : RolloutCall) r r', w.stored.rollouts.get? x.id = some r → r.state ≠ .promoted →
      (c.run d x.id w).stored.rollouts.get? x.id = some r' → r'.state = .promoted → c.Promotes d x.id w r) ∧
    ∀ r, ((start d x f strategy job now).after w₀).stored.rollouts.get? x.id = some r → r.state = .promoted →
      strategy = .canary ∧ ∀ percent ∈ d.policy.canarySteps, 100 ≤ percent := by
  have hdoc : Documented d x strategy (w, log) := by
    refine hrun.inv (Documented d x strategy) ?_ (.start h₀ hmodels hm hname hl)
    rintro ⟨w, log⟩ c s hw - he
    rw [witnessed, Option.some.injEq] at he
    rw [← he]
    exact hw.run
  refine ⟨fun c r hr hp => ?_, fun c r r' hr hn hr' hs => RolloutCall.promotes_of_promoted hr hn hr' hs,
    fun r hr hs => ?_⟩
  · obtain ⟨hpolicy, hstrategy, hsupported⟩ := hdoc.row r hr
    obtain ⟨m, hm, -⟩ := hdoc.rolling.named
    rw [← (hdoc.rolling.row r hr).1] at hm
    exact .of_promotes hr hm hpolicy hstrategy (hsupported hp.1.active) hp
  · have hfull : 100 ≤ firstPercent d.policy strategy := by
      cases start_moves h₀ hr with
      | begun _ state => rw [state] at hs; cases strategy <;> cases hs
      | promoting _ _ _ full => exact full
      | ended _ state => exact state.elim (fun h => by rw [h] at hs; cases hs) And.right
      | lost h => rw [h.state] at hs; cases strategy <;> cases hs
    obtain rfl := full_canary hfull
    refine ⟨rfl, fun percent hp => ?_⟩
    obtain ⟨i, hi, rfl⟩ := List.getElem_of_mem hp
    have hfirst := (firstPercent_canary d.policy).1
    cases i with
    | zero => exact Option.some.inj (hfirst.symm.trans (List.getElem?_eq_getElem hi)) ▸ hfull
    | succ i =>
      obtain ⟨first, hf, hlt⟩ := d.policy.steps.below_next (List.getElem?_eq_getElem hi)
      exact absurd (Option.some.inj (hfirst.symm.trans hf) ▸ hfull) (by omega)

end

/-! ## A start that loses its first split -/

def healthyTick (i : Nat) : RolloutCall := .tick {} (i * 600000000) (i * 600000000) serving serving

/-- The first split takes effect and is not ready in time, and neither is its undo. -/
def unready : ControllerAnswers := { split := { polls := [{ ready := false }] }, undo := { polls := [{ ready := false }] } }

/-- A canary whose splits read back is promoted on all of them. -/
theorem promotes_on_evidence_clean : ∃ w log r,
    Runs.Steps (witnessed aliasDelivery deliver2) Runs.Free
      ((start aliasDelivery deliver2 {} .canary (some "a1") 0).after cellLoadWorld,
        deliver2.startEvidence aliasDelivery {} .canary 0 cellLoadWorld) (w, log) ∧
    w.stored.rollouts.get? "r1" = some r ∧ (healthyTick 3).Promotes aliasDelivery "r1" w r ∧
    Justified aliasDelivery .canary r (log ++ (healthyTick 3).evidence aliasDelivery "r1" w) := by
  obtain ⟨⟨w, log⟩, hrun, hp⟩ := Runs.Steps.exists_of_runs (witnessed aliasDelivery deliver2) Runs.Free
    ((start aliasDelivery deliver2 {} .canary (some "a1") 0).after cellLoadWorld,
      deliver2.startEvidence aliasDelivery {} .canary 0 cellLoadWorld) [healthyTick 1, healthyTick 2]
    (fun s => (s.1.stored.rollouts.get? "r1").any fun r => r.state.active &&
      lockFree aliasDelivery s.1.stored r.modelId (.rollout "r1") (healthyTick 3).clock &&
      decide ((healthyTick 3).decision aliasDelivery r = some .promote)) (by decide +kernel)
  obtain ⟨r, hr, hp⟩ := (Option.any_eq_true _ _).mp hp
  simp only [Bool.and_eq_true, decide_eq_true_eq] at hp
  obtain ⟨⟨hactive, hfree⟩, hdec⟩ := hp
  have hpromotes : (healthyTick 3).Promotes aliasDelivery "r1" w r := ⟨⟨hactive, hfree, rfl⟩, .promote, hdec, rfl⟩
  have hkept : ¬ deliver2.SplitLost aliasDelivery {} .canary (some "a1") 0 cellLoadWorld := by
    rintro ⟨e, w₁, e', w₂, hs, -⟩
    have : (aliasDelivery.splitTraffic {} .ok .ok "r1" 5
        (deliver2.opened aliasDelivery .canary (some "a1") 0 cellLoadWorld)).1.returned = true := by decide +kernel
    have hs' : aliasDelivery.splitTraffic {} .ok .ok "r1" 5
        (deliver2.opened aliasDelivery .canary (some "a1") 0 cellLoadWorld) = (.raised e, w₁) := hs
    rw [hs'] at this
    cases this
  refine ⟨w, log, r, hrun, hr, hpromotes, ?_⟩
  exact (promotes_on_evidence (d := aliasDelivery) (x := deliver2)
    (m := ⟨"cell-load", some "sklearn"⟩) rfl rfl rfl rfl hkept
    hrun).1 _ r hr hpromotes

/-- The record of the lost split keeps step 0, from which the canary climbs. -/
theorem promotes_without_first_split : ∃ w log r,
    Runs.Steps (witnessed kserveDelivery deliver2) Runs.Free
      ((start kserveDelivery deliver2 unready .canary (some "a1") 0).after kserveWorld,
        deliver2.startEvidence kserveDelivery unready .canary 0 kserveWorld) (w, log) ∧
    w.stored.rollouts.get? "r1" = some r ∧ (healthyTick 3).Promotes kserveDelivery "r1" w r ∧
    (((healthyTick 3).run kserveDelivery "r1" w).stored.rollouts.get? "r1").any (·.state = .promoted) = true ∧
    ¬ Justified kserveDelivery .canary r (log ++ (healthyTick 3).evidence kserveDelivery "r1" w) := by
  obtain ⟨⟨w, log⟩, hrun, hp⟩ := Runs.Steps.exists_of_runs (witnessed kserveDelivery deliver2) Runs.Free
    ((start kserveDelivery deliver2 unready .canary (some "a1") 0).after kserveWorld,
      deliver2.startEvidence kserveDelivery unready .canary 0 kserveWorld) [healthyTick 1, healthyTick 2]
    (fun s => (s.1.stored.rollouts.get? "r1").any (fun r => r.state.active &&
      lockFree kserveDelivery s.1.stored r.modelId (.rollout "r1") (healthyTick 3).clock &&
      decide ((healthyTick 3).decision kserveDelivery r = some .promote)) &&
      (((healthyTick 3).run kserveDelivery "r1" s.1).stored.rollouts.get? "r1").any (·.state = .promoted) &&
      (s.2 ++ (healthyTick 3).evidence kserveDelivery "r1" s.1).all fun e => match e with
        | .readBack percent _ => percent ≠ 5
        | .judged .. => true) (by decide +kernel)
  simp only [Bool.and_eq_true] at hp
  obtain ⟨⟨hp, hpromoted⟩, hunread⟩ := hp
  obtain ⟨r, hr, hp⟩ := (Option.any_eq_true _ _).mp hp
  simp only [Bool.and_eq_true, decide_eq_true_eq] at hp
  obtain ⟨⟨hactive, hfree⟩, hdec⟩ := hp
  refine ⟨w, log, r, hrun, hr, ⟨⟨hactive, hfree, rfl⟩, .promote, hdec, rfl⟩, hpromoted, fun h => ?_⟩
  obtain ⟨percent, since, hfirst, hmem⟩ := (h.1 (.inl rfl)).first
  obtain rfl : 5 = percent := Option.some.inj hfirst
  simpa using List.all_eq_true.mp hunread _ hmem

end Subject

end OranAdapt
