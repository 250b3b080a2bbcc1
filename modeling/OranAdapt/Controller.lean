import OranAdapt.Locks
import OranAdapt.Promotion

/-!
# The delivery controller

`delivery.controller`: a rollout is moved by ticks, approvals and rejections,
each under its model's lock. What a tick does is decided from the rollout, the
clock and the observations of the two arms; what it then calls may fail or the
process may stop anywhere between two commits.
-/

namespace OranAdapt

/-- How the outside answers the calls of one operation. -/
structure ControllerAnswers where
  lock : DbAnswer := .ok
  observeStable : Answer := .ok
  observeCandidate : Answer := .ok
  stableTarget : Answer := .ok
  candidateTarget : Answer := .ok
  split : SplitAnswers := {}
  traffic : Nat → Answer := fun _ => .ok
  undoTarget : Answer := .ok
  undo : SplitAnswers := {}
  plan : DbAnswer := .ok
  promote : PromoteAnswers := {}
  liveTarget : Answer := .ok
  clear : SplitAnswers := {}
  record : DbAnswer := .ok
  note : DbAnswer := .ok
  unlock : DbAnswer := .ok

inductive TickResult where
  | busy | unavailable | ended | waiting
  | moved (state : RolloutState)
deriving DecidableEq, Repr

/-- What the controller decides for an active rollout. `outOfSteps` is the
IndexError of a canary step the policy does not have. -/
inductive Decision where
  | waiting
  | endAs (state : RolloutState)
  | promote
  | enterCanary
  | awaitApproval
  | advance (percent step : Nat)
  | outOfSteps
deriving DecidableEq, Repr

def Decision.reported : Decision → TickResult
  | .waiting | .outOfSteps => .waiting
  | .endAs state => .moved state
  | .promote => .moved .promoted
  | .enterCanary | .advance _ _ => .moved .canary
  | .awaitApproval => .moved .awaitingApproval

def promoteKey (id : RolloutId) : String := s!"rollout:{id}:promote"

theorem promoteKey_ne (id : RolloutId) : promoteKey id ≠ "" := by
  simp [promoteKey, toString]

namespace Rollout

variable (r : Rollout)

def record (to_ : RolloutState) (now : Time) (actor : String) (percent step : Option Nat) (deadline : Option Time) :
    Rollout :=
  let percent := percent.getD r.percent
  let step := step.getD r.step
  { r with
    state := to_, percent := percent, step := step, stepStartedAt := now, deadlineAt := deadline
    history := r.history ++ [.moved now r.state to_ step percent actor]
    finishedAt := if to_.active then r.finishedAt else some now }

def note (now : Time) (what : String) : Rollout := { r with history := r.history ++ [.note now what] }

def overdue (now : Time) : Bool :=
  match r.deadlineAt with
  | some deadline => deadline ≤ now
  | none => false

def decideApproval (now : Time) : Decision := if r.overdue now then .endAs .expired else .waiting

def decideShadow (health : HealthStatus) (now : Time) : Decision :=
  if health = .healthy then
    match r.policy.shadowThen with
    | .promote => .promote
    | .canary => .enterCanary
    | .manual => .awaitApproval
  else if r.overdue now then .endAs .expired
  else .waiting

def decideCanary (health : HealthStatus) (now : Time) : Decision :=
  if health ≠ .healthy ∨ now < r.stepStartedAt + r.policy.canaryStepHoldS then .waiting
  else match r.policy.canarySteps[r.step + 1]? with
    | none => .outOfSteps
    | some percent => if 100 ≤ percent then .promote else .advance percent (r.step + 1)

def decideAb (verdict : AbVerdict) (now : Time) : Decision :=
  if r.deadlineAt ≠ none ∧ ¬ r.overdue now then .waiting
  else match verdict, r.policy.abInconclusive with
    | .better, _ | .inconclusive, .promote => .promote
    | .inconclusive, .manual => .awaitApproval
    | .worse, _ | .inconclusive, .rollback => .endAs .rolledBack

def decide (ttest : List Rat → List Rat → Option Rat) (now : Time) (stable candidate : ArmStats) : Decision :=
  let health := (evaluateHealth r.policy stable candidate).status
  if health = .breach then .endAs .rolledBack
  else match r.state with
    | .shadow => r.decideShadow health now
    | .canary => r.decideCanary health now
    | _ => r.decideAb (abTest ttest r.policy stable candidate) now

end Rollout

namespace Delivery

open Effects World Outside

variable {σ : Type} (d : Delivery σ)

def getRollout (id : RolloutId) : WorldAct σ Rollout := do
  let w ← .get
  match w.session.rollouts.get? id with
  | some r => pure r
  | none => .raise ⟨.rolloutNotFound, s!"rollout '{id}' not found", [("rollout_id", .str id)]⟩

def nameOf (model : ModelId) : WorldAct σ String := do
  let w ← .get
  match w.session.db.models.get? model with
  | some m => pure m.mlflowModelName
  | none => .raise ⟨.modelNotFound, s!"model '{model}' not found", [("model_id", .str model)]⟩

def editRollout (id : RolloutId) (g : Rollout → Rollout) : WorldAct σ Unit :=
  edit fun s => { s with rollouts := s.rollouts.modify id g }

def target (f : Answer) (name : String) (version : Version) : OutsideAct σ DeploymentTarget := do
  let source ← ofRegistry (Registry.source? f name version)
  pure ⟨name, version, source⟩

def candidateTarget (f : Answer) (name : String) (version : Version) (percent : Nat) :
    OutsideAct σ (Option DeploymentTarget) :=
  if percent = 0 then pure none else target f name version >>= fun t => pure (some t)

/-- `_split`: route `percent` of traffic to the candidate and read it back. -/
def splitTraffic (f : SplitAnswers) (stableTarget candidateTarget_ : Answer) (id : RolloutId) (percent : Nat) :
    WorldAct σ Unit := do
  let r ← getRollout id
  let name ← nameOf r.modelId
  match r.stableVersion with
  | none => .raise ⟨.python "AssertionError", "", []⟩
  | some sv => do
    let stable ← reach (target stableTarget name sv)
    let candidate ← reach (candidateTarget candidateTarget_ name r.candidateVersion percent)
    reach (Deployer.split d.port f name stable candidate percent)

/-- `_undo_traffic`: the serving system is asked too. -/
def undoTraffic (f : ControllerAnswers) (id : RolloutId) : WorldAct σ Unit := do
  let r ← getRollout id
  if d.port.splitsTraffic = false ∨ r.stableVersion = none then pure ()
  else if 0 < r.percent then d.splitTraffic f.undo f.undoTarget .ok id 0
  else do
    let name ← nameOf r.modelId
    let split ← reach (d.port.traffic f.traffic name)
    .skipIf (split.candidate = none) (d.splitTraffic f.undo f.undoTarget .ok id 0)

def endWithoutPromotion (f : ControllerAnswers) (id : RolloutId) (to_ : RolloutState) (now : Time) (actor : String) :
    WorldAct σ Unit := do
  d.undoTraffic f id
  editRollout id fun r => r.record to_ now actor (some 0) none none
  commit f.record

def promotionRequest (id : RolloutId) (r : Rollout) (actor : String) : PromotionRequest where
  modelId := r.modelId
  version := r.candidateVersion
  kind := .promoteCandidate
  reason := ""
  actor := actor
  jobId := r.jobId
  expectedLive := r.stableVersion
  idempotencyKey := some (promoteKey id)

theorem promotionRequest_earlier (id : RolloutId) (r : Rollout) (actor : String) (s : Records) :
    (promotionRequest id r actor).earlier s =
      s.promotions.find? fun row => row.idempotencyKey = some (promoteKey id) := by
  unfold PromotionRequest.earlier promotionRequest
  dsimp only
  rw [if_neg (promoteKey_ne id)]

def clearSplit (f : ControllerAnswers) (id : RolloutId) (now : Time) : WorldAct σ Unit := do
  let r ← getRollout id
  .skipIf (¬ (d.port.splitsTraffic = true ∧ 0 < r.percent)) do
    let name ← nameOf r.modelId
    let live ← reach (target f.liveTarget name r.candidateVersion)
    (reach (Deployer.split d.port f.clear name live none 0)).handle fun e =>
      if e.cls = .deployment then editRollout id fun r => r.note now "split not cleared after promotion"
      else .raise e

/-- The rest of `_promote` once LIVE is the candidate. -/
def finishPromotion (f : ControllerAnswers) (id : RolloutId) (now : Time) (actor : String) : WorldAct σ Unit := do
  d.clearSplit f id now
  editRollout id fun r => r.record .promoted now actor (some 100) none none
  commit f.record

def promote (f : ControllerAnswers) (id : RolloutId) (now : Time) (actor : String) : WorldAct σ Unit := do
  commit f.plan
  let r ← getRollout id
  let promoted ← (d.promoteVersion f.promote (promotionRequest id r actor) >>= fun _ => pure true).handle fun e =>
    if e.cls = .promotion ∨ e.cls.isConflict then do
      rollback
      d.endWithoutPromotion f id .rolledBack now actor
      pure false
    else .raise e
  .skipIf (promoted = false) (d.finishPromotion f id now actor)

def moveTraffic (f : ControllerAnswers) (id : RolloutId) (percent step : Nat) (now : Time) (actor : String) :
    WorldAct σ Unit := do
  d.splitTraffic f.split f.stableTarget f.candidateTarget id percent
  editRollout id fun r => r.record .canary now actor (some percent) (some step) none
  commit f.record

def enterCanary (f : ControllerAnswers) (id : RolloutId) (now : Time) (actor : String) : WorldAct σ Unit := do
  let r ← getRollout id
  match r.policy.canarySteps[0]? with
  | none => .raise ⟨.python "IndexError", "", []⟩
  | some first =>
    if 100 ≤ first then d.promote f id now actor
    else d.moveTraffic f id first 0 now actor

def awaitApproval (f : ControllerAnswers) (id : RolloutId) (now : Time) : WorldAct σ Unit := do
  editRollout id fun r => r.record .awaitingApproval now "system" none none (some (now + r.policy.approvalTtlS))
  commit f.record

def act (f : ControllerAnswers) (id : RolloutId) (now : Time) (actor : String) : Decision → WorldAct σ Unit
  | .waiting => pure ()
  | .endAs state => d.endWithoutPromotion f id state now actor
  | .promote => d.promote f id now actor
  | .enterCanary => d.enterCanary f id now actor
  | .awaitApproval => awaitApproval f id now
  | .advance percent step => d.moveTraffic f id percent step now actor
  | .outOfSteps => .raise ⟨.python "IndexError", "", []⟩

def observe (f : Answer) (stats : ArmStats) : OutsideAct σ ArmStats := ask f fun o => .ok (stats, o)

/-- Act, and report what was decided: a promotion that failed too. -/
def tickAct (f : ControllerAnswers) (id : RolloutId) (now : Time) (dec : Decision) : WorldAct σ TickResult :=
  d.act f id now "system" dec >>= fun _ => pure dec.reported

def advance (f : ControllerAnswers) (id : RolloutId) (now : Time) (stable candidate : ArmStats) :
    WorldAct σ TickResult := do
  let r ← getRollout id
  if r.state = .awaitingApproval then d.tickAct f id now (r.decideApproval now)
  else do
    let _ ← nameOf r.modelId
    -- `_stats` asserts that the row has a stable version
    if r.stableVersion = none then .raise ⟨.python "AssertionError", "", []⟩
    else do
      let stable ← reach (observe f.observeStable stable)
      let candidate ← reach (observe f.observeCandidate candidate)
      d.tickAct f id now (r.decide d.ttest now stable candidate)

def lock (f : ControllerAnswers) (model : ModelId) (holder : Holder) (clock : Time) : WorldAct σ Bool := do
  let w ← .get
  match w.session.db.takeOverExpiredLock model holder d.settings.modelLockTtlS clock with
  | some db => do
    edit fun s => { s with db := db }
    commit f.lock
    pure true
  | none =>
    match w.session.db.addLock model holder d.settings.modelLockTtlS clock with
    | none => rollback >>= fun _ => pure false
    | some db => do
      edit fun s => { s with db := db }
      commit f.lock
      pure true

/-- The `finally` block of every locked operation. -/
def unlock (f : ControllerAnswers) (model : ModelId) (holder : Holder) : WorldAct σ Unit := do
  rollback
  edit fun s => { s with db := s.db.releaseLock model holder }
  commit f.unlock

def tickFailed (f : ControllerAnswers) (id : RolloutId) (now : Time) (e : AdaptationError) : WorldAct σ TickResult :=
  if e.cls = .rolloutMetricsUnavailable ∨ e.cls = .deployment then do
    rollback
    editRollout id fun r => r.note now "tick could not complete"
    commit f.note
    pure .unavailable
  else .raise e

def tickLocked (f : ControllerAnswers) (id : RolloutId) (now : Time) (stable candidate : ArmStats) :
    WorldAct σ TickResult := do
  let r ← getRollout id
  if r.state.active = false then pure .ended
  else (d.advance f id now stable candidate).handle (tickFailed f id now)

def tick (f : ControllerAnswers) (id : RolloutId) (now clock : Time) (stable candidate : ArmStats) :
    WorldAct σ TickResult := do
  let r ← getRollout id
  if r.state.active = false then pure .ended
  else do
    let locked ← d.lock f r.modelId (.rollout id) clock
    if locked = false then pure .busy
    else (d.tickLocked f id now stable candidate).andFinally (unlock f r.modelId (.rollout id))

def approveLocked (f : ControllerAnswers) (id : RolloutId) (now : Time) (actor : String) : WorldAct σ Unit := do
  let r ← getRollout id
  if r.state ≠ .awaitingApproval then
    .raise ⟨.rolloutState, s!"rollout '{id}' is not AWAITING_APPROVAL", [("rollout_id", .str id)]⟩
  else if r.overdue now then do
    d.endWithoutPromotion f id .expired now "system"
    .raise ⟨.rolloutState, s!"rollout '{id}' expired before it was approved", [("rollout_id", .str id)]⟩
  else do
    editRollout id fun r => { r with decidedBy := some actor }
    match r.policy.approvalThen with
    | .canary => d.enterCanary f id now actor
    | .promote => d.promote f id now actor

def rejectLocked (f : ControllerAnswers) (id : RolloutId) (now : Time) (actor : String) : WorldAct σ Unit := do
  editRollout id fun r => { r with decidedBy := some actor }
  d.endWithoutPromotion f id .rejected now actor

def lockedAction (f : ControllerAnswers) (id : RolloutId) (clock : Time) (m : WorldAct σ Unit) : WorldAct σ Unit := do
  let r ← getRollout id
  if r.state.active = false then
    .raise ⟨.rolloutState, s!"rollout '{id}' already ended", [("rollout_id", .str id)]⟩
  else do
    let locked ← d.lock f r.modelId (.rollout id) clock
    if locked = false then
      .raise ⟨.rolloutState, "the model is busy (a job or a rollout tick holds its lock); try again",
        [("rollout_id", .str id), ("model_id", .str r.modelId)]⟩
    else m.andFinally (unlock f r.modelId (.rollout id))

def approve (f : ControllerAnswers) (id : RolloutId) (now clock : Time) (actor : String) : WorldAct σ Unit :=
  d.lockedAction f id clock (d.approveLocked f id now actor)

def reject (f : ControllerAnswers) (id : RolloutId) (now clock : Time) (actor : String) : WorldAct σ Unit :=
  d.lockedAction f id clock (d.rejectLocked f id now actor)

/-! ## Starting a rollout -/

def initialState : Strategy → RolloutState
  | .shadow => .shadow
  | .canary => .canary
  | .ab => .ab
  | .manual => .awaitingApproval

/-- The share of the first traffic split; 0 when the strategy makes none. -/
def firstPercent (policy : DeliveryPolicy) : Strategy → Nat
  | .canary => policy.canarySteps[0]?.getD 0
  | .ab => policy.abPercent
  | .shadow | .manual => 0

def firstDeadline (policy : DeliveryPolicy) (now : Time) : Strategy → Option Time
  | .shadow => some (now + policy.shadowMaxS)
  | .ab => some (now + policy.abDurationS)
  | .manual => some (now + policy.approvalTtlS)
  | .canary => none

def hasActiveRollout (s : Records) (model : ModelId) : Bool :=
  s.rollouts.rows.any fun p => p.2.modelId = model && p.2.state.active

/-- The first split failed: make sure no candidate traffic is left, then end. -/
def firstSplitFailed (f : ControllerAnswers) (id : RolloutId) (now : Time) (e : AdaptationError) : WorldAct σ Unit :=
  if e.cls = .deployment then
    (d.endWithoutPromotion f id .rolledBack now "system").handle fun undo =>
      if undo.cls = .deployment then do
        editRollout id fun r => r.note now "split undo failed"
        commit f.note
      else .raise undo
  else .raise e

def newRollout (model : ModelId) (strategy : Strategy) (stable candidate : Version) (job : Option JobId) (now : Time) :
    Rollout where
  modelId := model
  jobId := job
  strategy := strategy
  state := initialState strategy
  stableVersion := some stable
  candidateVersion := candidate
  step := 0
  percent := 0
  policy := d.policy
  stepStartedAt := now
  deadlineAt := none
  decidedBy := none
  history := []
  finishedAt := none

def startRollout (f : ControllerAnswers) (id : RolloutId) (model : ModelId) (strategy : Strategy)
    (stable candidate : Version) (job : Option JobId) (now : Time) : WorldAct σ Unit := do
  let w ← .get
  if hasActiveRollout w.session model then
    .raise ⟨.rolloutState, s!"model '{model}' already has a rollout in progress", [("model_id", .str model)]⟩
  else
    match w.session.rollouts.insert? id (d.newRollout model strategy stable candidate job now) with
    | none => .raise ⟨.python "IntegrityError", "", []⟩
    | some rollouts => do
      edit fun s => { s with rollouts := rollouts }
      let percent := firstPercent d.policy strategy
      let begin_ : WorldAct σ Unit := do
        editRollout id fun r => r.record (initialState strategy) now "system" (some percent) none
          (firstDeadline d.policy now strategy)
        commit f.record
      if 100 ≤ percent then do
        editRollout id fun r => r.record (initialState strategy) now "system" none none none
        d.promote f id now "system"
      else if percent = 0 then begin_
      else
        (d.splitTraffic f.split f.stableTarget f.candidateTarget id percent >>= fun _ => pure true).handle
            (fun e => d.firstSplitFailed f id now e >>= fun _ => pure false) >>= fun split =>
          .skipIf (split = false) begin_

end Delivery

end OranAdapt
