import OranAdapt.RolloutCalls

/-!
# The stages of an action

An action on a rollout is a chain of stages: a traffic change, a promotion, or
a transaction that records the rollout. Between two stages the database and
the serving system are free for others, so these are the steps at which
several processes interleave.
-/

namespace OranAdapt

open Effects World Outside Delivery

inductive Stage where
  | enter
  | plan
  | promote
  | clear
  | split (percent step : Nat)
  | undo (to_ : RolloutState)
  | write (to_ : RolloutState) (percent : Nat) (step : Option Nat)
  | await
  | outOfSteps
deriving DecidableEq, Repr

def RolloutCall.now : RolloutCall → Time
  | .tick _ now .. | .approve _ now .. | .reject _ now .. => now

def Decision.stage : Decision → Option Stage
  | .waiting => none
  | .endAs state => some (.undo state)
  | .promote => some .plan
  | .enterCanary => some .enter
  | .awaitApproval => some .await
  | .advance percent step => some (.split percent step)
  | .outOfSteps => some .outOfSteps

namespace Stage

variable {σ : Type} (d : Delivery σ) (f : ControllerAnswers) (id : RolloutId) (now : Time) (actor : String)

/-- The stage makes traffic or promotion calls. -/
def calls : Stage → Bool
  | promote | clear | split .. | undo _ => true
  | enter | plan | write .. | await | outOfSteps => false

def writes : Stage → Bool
  | write .. | await => true
  | _ => false

/-- The stage ends a transaction whenever it returns. -/
def settles : Stage → Bool
  | plan | promote | write .. | await => true
  | _ => false

def part : Stage → WorldAct σ (Option Stage)
  | enter => do
    let r ← getRollout id
    match r.policy.canarySteps[0]? with
    | none => .raise ⟨.python "IndexError", "", []⟩
    | some first => pure (some (if 100 ≤ first then .plan else .split first 0))
  | plan => commit f.plan >>= fun _ => pure (some .promote)
  | promote => do
    let r ← getRollout id
    (d.promoteVersion f.promote (promotionRequest id r actor) >>= fun _ => pure (some .clear)).handle fun e =>
      if e.cls = .promotion ∨ e.cls.isConflict then rollback >>= fun _ => pure (some (.undo .rolledBack))
      else .raise e
  | clear => d.clearSplit f id now >>= fun _ => pure (some (.write .promoted 100 none))
  | split percent step =>
    d.splitTraffic f.split f.stableTarget f.candidateTarget id percent >>= fun _ =>
      pure (some (.write .canary percent (some step)))
  | undo to_ => d.undoTraffic f id >>= fun _ => pure (some (.write to_ 0 none))
  | write to_ percent step => do
    editRollout id fun r => r.record to_ now actor (some percent) step none
    commit f.record
    pure none
  | await => awaitApproval f id now >>= fun _ => pure none
  | outOfSteps => .raise ⟨.python "IndexError", "", []⟩

/-- At most so many stages, one after the other. -/
def carryOut : Nat → Option Stage → WorldAct σ Unit
  | 0, _ | _ + 1, none => pure ()
  | n + 1, some st => st.part d f id now actor >>= carryOut n

/-! ## A lone process -/

section
variable {d f id now actor}

@[simp] theorem carryOut_none (n : Nat) : carryOut d f id now actor n none = pure () := by
  cases n <;> rfl

theorem carryOut_write (n : Nat) (to_ : RolloutState) (percent : Nat) (step : Option Nat) :
    carryOut d f id now actor (n + 1) (some (.write to_ percent step)) =
      (editRollout id (fun r => r.record to_ now actor (some percent) step none) >>= fun _ => commit f.record) := by
  rw [carryOut, part]
  simp only [bind_assoc, pure_bind, carryOut_none]
  exact bind_congr fun _ => bind_pure _

theorem carryOut_undo (n : Nat) (to_ : RolloutState) :
    carryOut d f id now actor (n + 2) (some (.undo to_)) = d.endWithoutPromotion f id to_ now actor := by
  rw [carryOut, part, bind_assoc]
  simp only [pure_bind, carryOut_write]
  rfl

theorem carryOut_split (n : Nat) (percent step : Nat) :
    carryOut d f id now actor (n + 2) (some (.split percent step)) = d.moveTraffic f id percent step now actor := by
  rw [carryOut, part, bind_assoc]
  simp only [pure_bind, carryOut_write]
  rfl

theorem carryOut_promote (n : Nat) : carryOut d f id now actor (n + 4) (some .plan) = d.promote f id now actor := by
  rw [carryOut, part, bind_assoc]
  simp only [pure_bind]
  unfold Delivery.promote
  refine bind_congr fun _ => ?_
  rw [carryOut, part, bind_assoc]
  refine bind_congr fun r => ?_
  refine Act.handle_bind_congr ?_ fun e => ?_
  · rw [carryOut, part, bind_assoc]
    simp only [pure_bind, carryOut_write]
    rfl
  · split
    · simp only [bind_assoc, pure_bind, carryOut_undo]
      exact bind_congr fun _ => (bind_pure _).symm
    · rfl

theorem act_eq_carryOut (dec : Decision) : d.act f id now actor dec = carryOut d f id now actor 5 dec.stage := by
  cases dec with
  | waiting => rfl
  | endAs state => exact (carryOut_undo 3 state).symm
  | promote => exact (carryOut_promote 1).symm
  | enterCanary =>
    rw [Decision.stage, carryOut, part, bind_assoc]
    refine bind_congr fun r => ?_
    cases r.policy.canarySteps[0]? with
    | none => rfl
    | some first =>
      dsimp only
      rw [pure_bind]
      split
      · exact (carryOut_promote 0).symm
      · exact (carryOut_split 2 first 0).symm
  | awaitApproval =>
    rw [Decision.stage, carryOut, part, bind_assoc]
    simp only [pure_bind, carryOut_none]
    exact (bind_pure _).symm
  | advance percent step => exact (carryOut_split 3 percent step).symm
  | outOfSteps => rfl

end

end Stage

/-! ## What stages leave alone -/

/-- What a rollout is started with and keeps. -/
structure Rollout.Fixed (r r' : Rollout) : Prop where
  modelId : r'.modelId = r.modelId
  strategy : r'.strategy = r.strategy
  stable : r'.stableVersion = r.stableVersion
  candidate : r'.candidateVersion = r.candidateVersion
  policy : r'.policy = r.policy

/-- Nothing the controller decides on differs. -/
structure Rollout.Same (r r' : Rollout) : Prop extends r.Fixed r' where
  state : r'.state = r.state
  step : r'.step = r.step
  percent : r'.percent = r.percent
  stepStartedAt : r'.stepStartedAt = r.stepStartedAt
  deadlineAt : r'.deadlineAt = r.deadlineAt

theorem Rollout.same_note (r : Rollout) (now : Time) (what : String) : r.Same (r.note now what) :=
  ⟨⟨rfl, rfl, rfl, rfl, rfl⟩, rfl, rfl, rfl, rfl, rfl⟩

theorem Rollout.same_decided (r : Rollout) (actor : String) : r.Same { r with decidedBy := some actor } :=
  ⟨⟨rfl, rfl, rfl, rfl, rfl⟩, rfl, rfl, rfl, rfl, rfl⟩

structure Records.Alike (s s' : Records) : Prop where
  rollouts : s'.rollouts = s.rollouts
  models : s'.db.models = s.db.models

theorem Records.Alike.refl (s : Records) : s.Alike s := ⟨rfl, rfl⟩

/-- `J` is about the rollouts and the models only, and of this rollout about
what is decided on. -/
structure OfRollouts {σ : Type} (J : World σ → Prop) (id : RolloutId) : Prop where
  same : ∀ {w w'}, w.stored.Alike w'.stored → w.session.Alike w'.session → J w → J w'
  edited : ∀ {w} (g : Rollout → Rollout), (∀ r : Rollout, r.Same (g r)) → J w →
    J { w with session := { w.session with rollouts := w.session.rollouts.modify id g } }

/-- Nor do the ends of transactions. -/
structure AcrossCommits {σ : Type} (J : World σ → Prop) (id : RolloutId) : Prop extends OfRollouts J id where
  commits : ∀ {w}, J w → J { w with stored := w.session }
  rollsBack : ∀ {w}, J w → J { w with session := w.stored }

theorem getRollout_keeps {σ : Type} {J : World σ → Prop} (id : RolloutId) : Keeps J (getRollout id) := by
  refine .get fun w => ?_
  split
  · exact .ret _
  · exact .raise _

theorem nameOf_keeps {σ : Type} {J : World σ → Prop} (model : ModelId) : Keeps J (nameOf model) := by
  refine .get fun w => ?_
  split
  · exact .ret _
  · exact .raise _

def Inward {σ : Type} (J : World σ → Prop) : Prop := ∀ w o, J w → J { w with outside := o }

namespace Inward

section
variable {σ : Type} {d : Delivery σ} {J : World σ → Prop} {id : RolloutId} (hJ : Inward J)

include hJ in
theorem reach {α : Type} (m : OutsideAct σ α) : Keeps J (World.reach m) := by
  intro w h
  refine reach_ends ?_
  unfold Ensures
  cases m w.outside with
  | mk a o => cases a <;> exact hJ w o h

include hJ in
theorem splitTraffic (g : SplitAnswers) (gt gc : Answer) (percent : Nat) :
    Keeps J (d.splitTraffic g gt gc id percent) := by
  refine .bind (getRollout_keeps id) fun r => .bind (nameOf_keeps _) fun name => ?_
  split
  · exact .raise _
  · exact .bind (hJ.reach _) fun _ => .bind (hJ.reach _) fun _ => hJ.reach _

include hJ in
theorem undoTraffic (f : ControllerAnswers) : Keeps J (d.undoTraffic f id) := by
  refine .bind (getRollout_keeps id) fun r => ?_
  split
  · exact .ret _
  · split
    · exact hJ.splitTraffic _ _ _ _
    · exact .bind (nameOf_keeps _) fun _ => .bind (hJ.reach _) fun _ => .skipIf fun _ => hJ.splitTraffic _ _ _ _

end

end Inward

namespace OfRollouts

section
variable {σ : Type} {d : Delivery σ} {J : World σ → Prop} {id : RolloutId} (hJ : OfRollouts J id)

include hJ in
theorem inward : Inward J := fun w _ h => hJ.same (w := w) (.refl _) (.refl _) h

include hJ in
theorem reach {α : Type} (m : OutsideAct σ α) : Keeps J (World.reach m) := hJ.inward.reach m

include hJ in
theorem edit {g : Records → Records} (hg : ∀ s : Records, s.Alike (g s)) : Keeps J (World.edit g) :=
  .modify fun w h => hJ.same (w := w) (.refl _) (hg w.session) h

include hJ in
theorem splitTraffic (g : SplitAnswers) (gt gc : Answer) (percent : Nat) :
    Keeps J (d.splitTraffic g gt gc id percent) := hJ.inward.splitTraffic g gt gc percent

include hJ in
theorem undoTraffic (f : ControllerAnswers) : Keeps J (d.undoTraffic f id) := hJ.inward.undoTraffic f

include hJ in
theorem clearSplit (f : ControllerAnswers) (now : Time) : Keeps J (d.clearSplit f id now) := by
  refine .bind (getRollout_keeps id) fun r => .skipIf fun _ => ?_
  refine .bind (nameOf_keeps _) fun _ => .bind (hJ.reach _) fun _ => .handle (hJ.reach _) fun e => ?_
  split
  · exact .modify fun w h => hJ.edited _ (fun r => r.same_note now _) h
  · exact .raise _

include hJ in
/-- A stage without a transaction of its own leaves the rollout as it is. -/
theorem unsettled {st : Stage} (hst : st.settles = false) (f : ControllerAnswers) (now : Time) (actor : String) :
    Keeps J (st.part d f id now actor) := by
  cases st with
  | enter =>
    refine .bind (getRollout_keeps id) fun r => ?_
    split
    · exact .raise _
    · exact .ret _
  | clear => exact .bind (hJ.clearSplit _ _) fun _ => .ret _
  | split percent step => exact .bind (hJ.splitTraffic _ _ _ _) fun _ => .ret _
  | undo to_ => exact .bind (hJ.undoTraffic _) fun _ => .ret _
  | outOfSteps => exact .raise _
  | _ => cases hst

end

end OfRollouts

namespace AcrossCommits

section
variable {σ : Type} {d : Delivery σ} {J : World σ → Prop} {id : RolloutId} (hJ : AcrossCommits J id)

include hJ in
theorem commit (g : DbAnswer) : Keeps J (World.commit g) :=
  .perform fun _ _ _ h ha => by cases ha; exact hJ.commits h

theorem flush (g : DbAnswer) : Keeps J (World.flush g) :=
  .perform fun _ _ _ h ha => by cases ha; exact h

include hJ in
theorem rollback : Keeps J World.rollback := .modify fun _ h => hJ.rollsBack h

/-! ## A promotion -/

include hJ in
theorem failMove {α : Type} (g : PromoteAnswers) (version : Version) (previous : Option Version)
    (exc : AdaptationError) : Keeps J (Delivery.failMove (α := α) g version previous exc) := by
  refine .bind (.handle (hJ.commit _) fun _ => hJ.rollback) fun _ => ?_
  split
  · exact .raise _
  · exact .raise _

include hJ in
theorem moveFailed {α : Type} (g : PromoteAnswers) (name : String) (version : Version) (previous : Option Version)
    (before : Option DeploymentTarget) (flags : MoveFlags) (exc : AdaptationError) :
    Keeps J (d.moveFailed (α := α) g name version previous before flags exc) := by
  refine .bind hJ.rollback fun _ => .bind (.skipIf fun _ => ?_) fun _ => .bind (.skipIf fun _ => hJ.reach _) fun _ => ?_
  · exact .bind (hJ.reach _) fun _ => .ret _
  · exact hJ.failMove _ _ _ _

include hJ in
theorem movedTo (g : PromoteAnswers) (name : String) (target : DeploymentTarget) (previous : Option Version)
    (before : Option DeploymentTarget) (row : ModelPromotion) :
    Keeps J (d.movedTo g name target previous before row) := by
  have hconfirm : Keeps J (d.confirmLive g name target.version) := by
    refine .bind (hJ.reach _) fun _ => ?_
    split
    · exact .ret _
    · exact .raise _
  have hsettle : Keeps J (d.settleTags g name target.version previous) :=
    .bind (hJ.reach _) fun _ => .bind (hJ.reach _) fun _ => hJ.commit _
  refine .bind (.handle hconfirm fun _ => hJ.moveFailed _ _ _ _ _ _ _) fun _ => ?_
  refine .bind (.handle (hJ.reach _) fun _ => hJ.moveFailed _ _ _ _ _ _ _) fun _ => ?_
  exact .bind (.handle hsettle fun _ => hJ.moveFailed _ _ _ _ _ _ _) fun _ => .ret _

include hJ in
theorem moveTo (g : PromoteAnswers) (q : PromotionRequest) (name : String) (previous : Option Version) :
    Keeps J (d.moveTo g q name previous) := by
  refine .bind (hJ.reach _) fun digest => .bind (hJ.reach _) fun info => ?_
  have hstage : ∀ row, Keeps J (d.stageRow g name row) := fun row =>
    .bind (hJ.edit fun _ => ⟨rfl, rfl⟩) fun _ => .bind (flush _) fun _ => hJ.reach _
  refine .bind (.handle (hstage _) fun _ => hJ.moveFailed _ _ _ _ _ _ _) fun _ => ?_
  exact .bind (.handle (hJ.reach _) fun _ => hJ.moveFailed _ _ _ _ _ _ _) fun _ => hJ.movedTo _ _ _ _ _ _

include hJ in
theorem promoteVersion (g : PromoteAnswers) (q : PromotionRequest) : Keeps J (d.promoteVersion g q) := by
  refine .get fun w => ?_
  split
  · exact .ret _
  · have hmeta : Keeps J (Delivery.modelMeta q.modelId) := by
      refine .get fun w => ?_
      split
      · exact .ret _
      · exact .raise _
    refine .bind hmeta fun model => .bind (hJ.reach _) fun previous => ?_
    split
    · exact .raise _
    · split
      · exact .bind (hJ.edit fun _ => ⟨rfl, rfl⟩) fun _ => .bind (hJ.commit _) fun _ => .ret _
      · exact hJ.moveTo _ _ _ _

include hJ in
theorem part {st : Stage} (hst : st.writes = false) (f : ControllerAnswers) (now : Time) (actor : String) :
    Keeps J (st.part d f id now actor) := by
  by_cases hs : st.settles = true
  · cases st with
    | plan => exact .bind (hJ.commit _) fun _ => .ret _
    | promote =>
      refine .bind (getRollout_keeps id) fun r => .handle (.bind (hJ.promoteVersion _ _) fun _ => .ret _) fun e => ?_
      split
      · exact .bind hJ.rollback fun _ => .ret _
      · exact .raise _
    | write => cases hst
    | await => cases hst
    | _ => cases hs
  · exact hJ.toOfRollouts.unsettled (by simpa using hs) f now actor

include hJ in
theorem lock (f : ControllerAnswers) (model : ModelId) (holder : Holder) (clock : Time) :
    Keeps J (d.lock f model holder clock) := by
  -- both ways of taking the lock change the locks only
  have htake : ∀ (w : World σ) (db : Db), db.models = w.session.db.models → J w →
      Ensures (World.edit (σ := σ) (fun s => { s with db := db }) >>= fun _ => World.commit f.lock >>= fun _ => pure true)
        w (fun _ => J) (fun _ => J) J := by
    intro w db hdb h
    have h' : J { w with session := { w.session with db := db } } := hJ.same (w := w) (.refl _) ⟨rfl, hdb⟩ h
    exact .bind (.modify (Keeps.bind (hJ.commit f.lock) (fun _ => .ret true) _ h'))
  intro w h
  refine .bind (.get ?_)
  split
  · rename_i db ht
    obtain ⟨l, -, -, rfl⟩ := Db.takeOverExpiredLock_some ht
    exact htake w _ rfl h
  · split
    · exact Keeps.bind hJ.rollback (fun _ => .ret _) w h
    · rename_i db ha
      obtain ⟨-, locks, -, rfl⟩ := Db.addLock_some ha
      exact htake w _ rfl h

include hJ in
theorem unlock (f : ControllerAnswers) (model : ModelId) (holder : Holder) : Keeps J (Delivery.unlock f model holder) :=
  .bind hJ.rollback fun _ => .bind (hJ.edit fun _ => ⟨rfl, rfl⟩) fun _ => hJ.commit _

include hJ in
theorem tickFailed (f : ControllerAnswers) (now : Time) (e : AdaptationError) :
    Keeps J (Delivery.tickFailed f id now e) := by
  unfold Delivery.tickFailed
  split
  · refine .bind hJ.rollback fun _ => .bind (.modify fun w h => hJ.edited _ (fun r => r.same_note now _) h) fun _ => ?_
    exact .bind (hJ.commit _) fun _ => .ret _
  · exact .raise _

include hJ in
theorem act (hrec : ∀ (w : World σ) (g : Rollout → Rollout), J w →
      J { w with session := { w.session with rollouts := w.session.rollouts.modify id g } })
    (f : ControllerAnswers) (now : Time) (actor : String) (dec : Decision) : Keeps J (d.act f id now actor dec) := by
  have hedit : ∀ g, Keeps J (editRollout (σ := σ) id g) := fun g => .modify fun w h => hrec w g h
  have hpart : ∀ st : Stage, Keeps J (st.part d f id now actor) := by
    intro st
    by_cases hst : st.writes = true
    · cases st with
      | write => exact .bind (hedit _) fun _ => .bind (hJ.commit _) fun _ => .ret _
      | await => exact .bind (.bind (hedit _) fun _ => hJ.commit _) fun _ => .ret _
      | _ => cases hst
    · exact hJ.part (by simpa using hst) f now actor
  rw [Stage.act_eq_carryOut]
  generalize dec.stage = st
  generalize 5 = n
  induction n generalizing st with
  | zero => exact .ret ()
  | succ n ih =>
    cases st with
    | none => exact .ret ()
    | some st => exact .bind (hpart st) ih

end

end AcrossCommits

end OranAdapt
