import OranAdapt.Breach

/-!
# What a tick comes to

A tick that gets its model's lock ends as acting on its decision ends. What
the action raises is noted as `unavailable` if it is one of the two errors that
the tick catches; everything else leaves the tick.
-/

namespace OranAdapt

open Effects World Outside Delivery

/-- The errors a tick takes for a source or a serving system that failed. -/
def AdaptationError.caughtByTick (e : AdaptationError) : Bool :=
  decide (e.cls = .rolloutMetricsUnavailable ∨ e.cls = .deployment)

namespace World

variable {σ : Type}

def unlocked (model : ModelId) (holder : Holder) (w : World σ) : World σ :=
  let s := { w.stored with db := w.stored.db.releaseLock model holder }
  ⟨w.outside, s, s⟩

def recorded (id : RolloutId) (g : Rollout → Rollout) (w : World σ) : World σ :=
  let s := { w.session with rollouts := w.session.rollouts.modify id g }
  ⟨w.outside, s, s⟩

def notedFailure (id : RolloutId) (now : Time) (w : World σ) : World σ :=
  ({ w with session := w.stored } : World σ).recorded id fun r => r.note now "tick could not complete"

end World

namespace Delivery

variable {σ : Type} (d : Delivery σ)

/-- The world in which a call that found the rollout in `w` holds the lock. -/
def lockedAt (f : ControllerAnswers) (id : RolloutId) (r : Rollout) (clock : Time) (w : World σ) : World σ :=
  (d.lock f r.modelId (.rollout id) clock w.reopened).2

structure DbAnswers (f : ControllerAnswers) : Prop where
  lock : f.lock = .ok
  plan : f.plan = .ok
  record : f.record = .ok
  note : f.note = .ok
  unlock : f.unlock = .ok

/-- The answer of the source that the tick did not get. -/
def missed (f : ControllerAnswers) : Answer := if f.observeStable = .ok then f.observeCandidate else f.observeStable

end Delivery

section
variable {σ : Type} {d : Delivery σ} {w w₁ : World σ} {f : ControllerAnswers} {id : RolloutId}
  {r : Rollout} {now clock : Time}
  {stable candidate : ArmStats} {m : ModelMetadata} {dec : Decision}

theorem getRollout_iff (h : w.session.rollouts.get? id = some r) {D : Rollout → World σ → Prop}
    {R : AdaptationError → World σ → Prop} {S : World σ → Prop} : Ensures (getRollout id) w D R S ↔ D r w := by
  unfold getRollout
  rw [Ensures.bind_iff, Ensures.iff_done (m := Act.get) (s := w) rfl, h]
  rfl

theorem nameOf_iff (h : w.session.db.models.get? r.modelId = some m) {D : String → World σ → Prop}
    {R : AdaptationError → World σ → Prop} {S : World σ → Prop} :
    Ensures (nameOf r.modelId) w D R S ↔ D m.mlflowModelName w := by
  unfold nameOf
  rw [Ensures.bind_iff, Ensures.iff_done (m := Act.get) (s := w) rfl, h]
  rfl

theorem commit_iff {D : Unit → World σ → Prop} {R : AdaptationError → World σ → Prop}
    {S : World σ → Prop} {g : DbAnswer}
    (hg : g = .ok) : Ensures (commit g) w D R S ↔ D () { w with stored := w.session } := by
  rw [hg]
  rfl

theorem record_iff {D : Unit → World σ → Prop} {R : AdaptationError → World σ → Prop}
    {S : World σ → Prop} {g : DbAnswer}
    (hg : g = .ok) {e : Rollout → Rollout} :
    Ensures (editRollout id e >>= fun _ => commit g) w D R S ↔ D () (w.recorded id e) := by
  rw [hg]
  rfl

theorem unlock_iff {D : Unit → World σ → Prop} {R : AdaptationError → World σ → Prop}
    {S : World σ → Prop} {model : ModelId}
    {holder : Holder} (hf : f.unlock = .ok) :
    Ensures (unlock f model holder) w D R S ↔ D () (w.unlocked model holder) := by
  unfold unlock
  rw [hf]
  rfl

theorem tickFailed_iff {D : TickResult → World σ → Prop} {R : AdaptationError → World σ → Prop}
    {S : World σ → Prop}
    (hf : f.note = .ok) {e : AdaptationError} : Ensures (tickFailed f id now e) w D R S ↔
      if e.caughtByTick then D .unavailable (w.notedFailure id now) else R e w := by
  unfold tickFailed AdaptationError.caughtByTick
  by_cases he : e.cls = .rolloutMetricsUnavailable ∨ e.cls = .deployment
  · rw [if_pos he, if_pos (decide_eq_true he), hf]
    rfl
  · rw [if_neg he, if_neg (by simpa using he)]
    rfl

/-! ## Under the lock -/

/-- What the tick finds once it holds the lock. -/
structure Locked (d : Delivery σ) (f : ControllerAnswers) (id : RolloutId) (r : Rollout) (clock : Time) (w w₁ : World σ) :
    Prop where
  locks : d.lock f r.modelId (.rollout id) clock w.reopened = (.done true, w₁)
  outside : w₁.outside = w.outside
  same : SameBut w.stored w₁.stored
  session : w₁.session = w₁.stored

theorem lockedAt_locked (hf : f.lock = .ok) (hfree : lockFree d w.stored r.modelId (.rollout id) clock = true) :
    Locked d f id r clock w (d.lockedAt f id r clock w) := by
  have hends := (Subject.lock_taken (w := w.reopened) (d := d) rfl hf hfree).and (Ensures.self _ _)
  unfold Ensures at hends
  split at hends
  · rename_i locked w₁ hlock
    obtain ⟨⟨rfl, ho, hsame, hse⟩, -⟩ := hends
    have hw₁ : d.lockedAt f id r clock w = w₁ := by
      unfold lockedAt
      rw [hlock]
    rw [hw₁]
    exact ⟨hlock, ho, hsame, hse⟩
  · exact hends.1.elim
  · exact hends.1.elim

theorem Locked.get (h : Locked d f id r clock w w₁) (hr : w.stored.rollouts.get? id = some r) :
    w₁.session.rollouts.get? id = some r := by
  rw [h.session, h.same.rollouts]
  exact hr

theorem Locked.model (h : Locked d f id r clock w w₁) (hm : w.stored.db.models.get? r.modelId = some m) :
    w₁.session.db.models.get? r.modelId = some m := by
  rw [h.session, h.same.models]
  exact hm

theorem observe_ok_iff {α : Type} {a : Answer} (ha : a = .ok) {stats : ArmStats}
    {k : ArmStats → WorldAct σ α} {D : α → World σ → Prop}
    {R : AdaptationError → World σ → Prop} {S : World σ → Prop} :
    Ensures (reach (observe a stats) >>= k) w D R S ↔ Ensures (k stats) w D R S := by
  rw [Ensures.bind_iff, ha]
  rfl

theorem decision_tick (hs : r.state ≠ .awaitingApproval)
    (hd : RolloutCall.decision d r (.tick f now clock stable candidate) = some dec) :
    r.stableVersion ≠ none ∧ f.observeStable = .ok ∧ f.observeCandidate = .ok ∧
      r.decide d.ttest now stable candidate = dec := by
  simp only [RolloutCall.decision, if_neg hs] at hd
  split at hd
  · rename_i hobs
    exact ⟨hobs.1, hobs.2.1, hobs.2.2, Option.some.inj hd⟩
  · cases hd

/-- A tick that gets the lock ends as its `_advance` does, and gives the lock back. -/
theorem tick_advance_iff (hr : w.stored.rollouts.get? id = some r) (ha : r.state.active = true)
    (hfree : lockFree d w.stored r.modelId (.rollout id) clock = true) (hf : DbAnswers f)
    {D : TickResult → World σ → Prop} {R : AdaptationError → World σ → Prop} {S : World σ → Prop} :
    Ensures (d.tick f id now clock stable candidate) w.reopened D R S ↔
      Ensures (d.advance f id now stable candidate) (d.lockedAt f id r clock w)
        (fun a w' => D a (w'.unlocked r.modelId (.rollout id)))
        (fun e w' => if e.caughtByTick then D .unavailable ((w'.notedFailure id now).unlocked r.modelId (.rollout id))
          else R e (w'.unlocked r.modelId (.rollout id))) S := by
  have hl := lockedAt_locked hf.lock hfree
  have hactive : ¬ r.state.active = false := by rw [ha]; decide
  unfold tick
  rw [Ensures.bind_iff, getRollout_iff (w := w.reopened) hr, if_neg hactive, Ensures.bind_iff, Ensures.iff_done hl.locks,
    if_neg (by decide), Ensures.andFinally_iff]
  unfold tickLocked
  rw [Ensures.bind_iff, getRollout_iff (hl.get hr), if_neg hactive, Ensures.handle_iff]
  refine Ensures.iff_of (Ensures.self _ _) (fun _ w' _ => unlock_iff hf.unlock) (fun e w' _ => ?_) fun _ _ => .rfl
  rw [tickFailed_iff hf.note]
  split <;> exact unlock_iff hf.unlock

theorem tick_iff (hr : w.stored.rollouts.get? id = some r) (ha : r.state.active = true)
    (hm : w.stored.db.models.get? r.modelId = some m) (hfree : lockFree d w.stored r.modelId (.rollout id) clock = true)
    (hf : DbAnswers f) (hd : RolloutCall.decision d r (.tick f now clock stable candidate) = some dec)
    {D : TickResult → World σ → Prop} {R : AdaptationError → World σ → Prop} {S : World σ → Prop} :
    Ensures (d.tick f id now clock stable candidate) w.reopened D R S ↔
      Ensures (d.act f id now "system" dec) (d.lockedAt f id r clock w)
        (fun _ w' => D dec.reported (w'.unlocked r.modelId (.rollout id)))
        (fun e w' => if e.caughtByTick then D .unavailable ((w'.notedFailure id now).unlocked r.modelId (.rollout id))
          else R e (w'.unlocked r.modelId (.rollout id))) S := by
  have hl := lockedAt_locked hf.lock hfree
  rw [tick_advance_iff hr ha hfree hf]
  unfold advance
  rw [Ensures.bind_iff, getRollout_iff (hl.get hr)]
  by_cases hs : r.state = .awaitingApproval
  · rw [if_pos hs]
    have hdec : r.decideApproval now = dec := by
      simp only [RolloutCall.decision, if_pos hs, Option.some.injEq] at hd
      exact hd
    rw [hdec, tickAct, Ensures.bind_iff]
    rfl
  · obtain ⟨hst, hstable, hcandidate, hdec⟩ := decision_tick hs hd
    rw [if_neg hs, Ensures.bind_iff, nameOf_iff (hl.model hm), if_neg hst, observe_ok_iff hstable,
      observe_ok_iff hcandidate, hdec, tickAct, Ensures.bind_iff]
    rfl

/-- A row without a stable version fails the assertion of `_stats`. -/
theorem tick_unset_iff (hr : w.stored.rollouts.get? id = some r) (ha : r.state.active = true)
    (hm : w.stored.db.models.get? r.modelId = some m) (hfree : lockFree d w.stored r.modelId (.rollout id) clock = true)
    (hf : DbAnswers f) (hs : r.state ≠ .awaitingApproval) (hst : r.stableVersion = none)
    {D : TickResult → World σ → Prop} {R : AdaptationError → World σ → Prop} {S : World σ → Prop} :
    Ensures (d.tick f id now clock stable candidate) w.reopened D R S ↔
      R ⟨.python "AssertionError", "", []⟩ ((d.lockedAt f id r clock w).unlocked r.modelId (.rollout id)) := by
  have hl := lockedAt_locked hf.lock hfree
  rw [tick_advance_iff hr ha hfree hf]
  unfold advance
  rw [Ensures.bind_iff, getRollout_iff (hl.get hr), if_neg hs, Ensures.bind_iff, nameOf_iff (hl.model hm), if_pos hst]
  rfl

theorem tick_missed_iff (hr : w.stored.rollouts.get? id = some r) (ha : r.state.active = true)
    (hm : w.stored.db.models.get? r.modelId = some m) (hfree : lockFree d w.stored r.modelId (.rollout id) clock = true)
    (hf : DbAnswers f) (hs : r.state ≠ .awaitingApproval) (hst : r.stableVersion ≠ none)
    (hobs : ¬ (f.observeStable = .ok ∧ f.observeCandidate = .ok))
    {D : TickResult → World σ → Prop} {R : AdaptationError → World σ → Prop} {S : World σ → Prop} :
    Ensures (d.tick f id now clock stable candidate) w.reopened D R S ↔
      Ensures (reach (observe (missed f) stable)) (d.lockedAt f id r clock w) (fun _ _ => False)
        (fun e w' => if e.caughtByTick then D .unavailable ((w'.notedFailure id now).unlocked r.modelId (.rollout id))
          else R e (w'.unlocked r.modelId (.rollout id))) S := by
  have hl := lockedAt_locked hf.lock hfree
  rw [tick_advance_iff hr ha hfree hf]
  unfold advance
  rw [Ensures.bind_iff, getRollout_iff (hl.get hr), if_neg hs, Ensures.bind_iff, nameOf_iff (hl.model hm), if_neg hst]
  by_cases hstable : f.observeStable = .ok
  · rw [observe_ok_iff hstable, Ensures.bind_iff, missed, if_pos hstable]
    cases hc : f.observeCandidate with
    | ok => exact absurd ⟨hstable, hc⟩ hobs
    | before e => exact .rfl
    | after e => exact .rfl
    | stop => exact .rfl
  · rw [Ensures.bind_iff, missed, if_neg hstable]
    cases hs' : f.observeStable with
    | ok => exact absurd hs' hstable
    | before e => exact .rfl
    | after e => exact .rfl
    | stop => exact .rfl

theorem tick_busy_iff (hr : w.stored.rollouts.get? id = some r) (ha : r.state.active = true)
    (hfree : lockFree d w.stored r.modelId (.rollout id) clock = false) {D : TickResult → World σ → Prop}
    {R : AdaptationError → World σ → Prop} {S : World σ → Prop} :
    Ensures (d.tick f id now clock stable candidate) w.reopened D R S ↔ D .busy w.reopened := by
  simp only [lockFree, Bool.or_eq_false_iff, Option.isSome_eq_false_iff, Option.isNone_iff_eq_none] at hfree
  have hsession : (World.reopened w).session.db = w.stored.db := rfl
  unfold tick
  rw [Ensures.bind_iff, getRollout_iff (w := w.reopened) hr, if_neg (by rw [ha]; decide), Ensures.bind_iff]
  unfold lock
  rw [Ensures.bind_iff, Ensures.iff_done (m := Act.get) (s := w.reopened) rfl, hsession, hfree.1, hfree.2, Ensures.bind_iff,
    Ensures.iff_done (m := rollback) (s := w.reopened) rfl]
  rfl

/-! ## The actions -/

variable {D : Unit → World σ → Prop} {R : AdaptationError → World σ → Prop} {S : World σ → Prop} {actor : String}

theorem endWithoutPromotion_iff (hf : f.record = .ok) {to_ : RolloutState} :
    Ensures (d.endWithoutPromotion f id to_ now actor) w D R S ↔ Ensures (d.undoTraffic f id) w
      (fun _ w' => D () (w'.recorded id fun r => r.record to_ now actor (some 0) none none)) R S := by
  unfold endWithoutPromotion
  rw [Ensures.bind_iff]
  exact Ensures.iff_of (Ensures.self _ _) (fun _ _ _ => record_iff hf) (fun _ _ _ => .rfl) fun _ _ => .rfl

theorem moveTraffic_iff (hf : f.record = .ok) {percent step : Nat} :
    Ensures (d.moveTraffic f id percent step now actor) w D R S ↔
      Ensures (d.splitTraffic f.split f.stableTarget f.candidateTarget id percent) w
        (fun _ w' => D () (w'.recorded id fun r => r.record .canary now actor (some percent) (some step) none)) R S := by
  unfold moveTraffic
  rw [Ensures.bind_iff]
  exact Ensures.iff_of (Ensures.self _ _) (fun _ _ _ => record_iff hf) (fun _ _ _ => .rfl) fun _ _ => .rfl

/-- A promotion that is refused ends the rollout; whatever else it raises is
not caught here. -/
theorem promote_iff (hf : DbAnswers f) (hw : w.session = w.stored) (hr : w.session.rollouts.get? id = some r) :
    Ensures (d.promote f id now actor) w D R S ↔ Ensures (d.promoteVersion f.promote (promotionRequest id r actor)) w
      (fun _ w' => Ensures (d.clearSplit f id now) w'
        (fun _ w'' => D () (w''.recorded id fun r => r.record .promoted now actor (some 100) none none)) R S)
      (fun e w' => if e.cls = .promotion ∨ e.cls.isConflict then
          Ensures (d.undoTraffic f id) { w' with session := w'.stored }
            (fun _ w'' => D () (w''.recorded id fun r => r.record .rolledBack now actor (some 0) none none)) R S
        else R e w') S := by
  have hplanned : ({ w with stored := w.session } : World σ) = w := by
    cases w
    cases hw
    rfl
  unfold promote
  rw [Ensures.bind_iff, commit_iff hf.plan, hplanned, Ensures.bind_iff, getRollout_iff hr,
    Ensures.bind_iff, Ensures.handle_iff,
    Ensures.bind_iff]
  refine Ensures.iff_of (Ensures.self _ _) (fun _ w' _ => ?_) (fun e w' _ => ?_) fun _ _ => .rfl
  · change Ensures (d.finishPromotion f id now actor) w' _ _ _ ↔ _
    unfold finishPromotion
    rw [Ensures.bind_iff]
    exact Ensures.iff_of (Ensures.self _ _) (fun _ _ _ => record_iff hf.record) (fun _ _ _ => .rfl) fun _ _ => .rfl
  · split
    · rw [Ensures.bind_iff]
      change Ensures (d.endWithoutPromotion f id .rolledBack now actor >>= fun _ => pure false)
        { w' with session := w'.stored }
        _ _ _ ↔ _
      rw [Ensures.bind_iff, endWithoutPromotion_iff hf.record]
      rfl
    · rfl

end

end OranAdapt
