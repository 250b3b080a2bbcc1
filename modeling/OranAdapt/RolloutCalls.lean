import OranAdapt.Controller

/-!
# One call on a rollout

A tick, an approval or a rejection takes the model's lock, decides, acts on
the decision and gives the lock back, whatever happens. Around the action only
locks and the rollout's notes change, so what the action keeps, the call keeps.
-/

namespace OranAdapt

open Effects World Outside Delivery

/-- One call of an operation on a rollout, with the clock it reads and the
answers it gets. -/
inductive RolloutCall where
  | tick (f : ControllerAnswers) (now clock : Time) (stable candidate : ArmStats)
  | approve (f : ControllerAnswers) (now clock : Time) (actor : String)
  | reject (f : ControllerAnswers) (now clock : Time) (actor : String)

namespace RolloutCall

variable {σ : Type} (d : Delivery σ) (id : RolloutId)

def answers : RolloutCall → ControllerAnswers
  | .tick f .. | .approve f .. | .reject f .. => f

def clock : RolloutCall → Time
  | .tick _ _ clock .. | .approve _ _ clock _ | .reject _ _ clock _ => clock

/-- What the call decides for the rollout `r` once it holds the lock. -/
def decision (r : Rollout) : RolloutCall → Option Decision
  | .tick f now _ stable candidate =>
    if r.state = .awaitingApproval then some (r.decideApproval now)
    else if r.stableVersion ≠ none ∧ f.observeStable = .ok ∧
      f.observeCandidate = .ok then some (r.decide d.ttest now stable candidate)
    else none
  | .approve _ now _ _ =>
    if r.state ≠ .awaitingApproval then none
    else if r.overdue now then some (.endAs .expired)
    else match r.policy.approvalThen with
      | .canary => some .enterCanary
      | .promote => some .promote
  | .reject .. => some (.endAs .rejected)

/-- What it then does. An approval that comes too late is nobody's decision. -/
def effect : RolloutCall → Decision → WorldAct σ Unit
  | .tick f now .., dec => d.act f id now "system" dec
  | .approve f now _ actor, dec =>
    match dec with
    | .endAs state => d.act f id now "system" (.endAs state)
    | dec => editRollout id (fun r => { r with decidedBy := some actor }) >>= fun _ => d.act f id now actor dec
  | .reject f now _ actor, dec =>
    editRollout id (fun r => { r with decidedBy := some actor }) >>= fun _ => d.act f id now actor dec

/-- The call in a session of its own, however it ends. -/
def run (w : World σ) : RolloutCall → World σ
  | .tick f now clock stable candidate => (d.tick f id now clock stable candidate).after w.reopened
  | .approve f now clock actor => (d.approve f id now clock actor).after w.reopened
  | .reject f now clock actor => (d.reject f id now clock actor).after w.reopened

end RolloutCall

/-! ## The lock -/

/-- The records differ in locks only. -/
structure SameBut (s s' : Records) : Prop where
  rollouts : s'.rollouts = s.rollouts
  promotions : s'.promotions = s.promotions
  models : s'.db.models = s.db.models

/-- Locks and notes do not matter to `I`. -/
structure Blind {σ : Type} (I : Records → Outside σ → Prop) (id : RolloutId) : Prop where
  sameBut : ∀ {s s' o}, SameBut s s' → I s o → I s' o
  noted : ∀ {s o} (now : Time) (what : String), I s o →
    I { s with rollouts := s.rollouts.modify id fun r => r.note now what } o

def lockFree {σ : Type} (d : Delivery σ) (s : Records) (model : ModelId) (holder : Holder) (clock : Time) : Bool :=
  (s.db.takeOverExpiredLock model holder d.settings.modelLockTtlS clock).isSome ||
    (s.db.addLock model holder d.settings.modelLockTtlS clock).isSome

section
variable {σ : Type} {d : Delivery σ} {w w' : World σ} {f : ControllerAnswers} {model : ModelId} {holder : Holder}
  {I : Records → Outside σ → Prop} {id : RolloutId}

theorem lock_ends {clock : Time} (hw : w.session = w.stored) : Ensures (d.lock f model holder clock) w
      (fun locked w' => w'.outside = w.outside ∧ SameBut w.stored w'.stored ∧ w'.session = w'.stored ∧
        (locked = true → lockFree d w.stored model holder clock = true ∧ f.lock = .ok))
      (fun _ w' => w'.outside = w.outside ∧ SameBut w.stored w'.stored)
      (fun w' => w'.outside = w.outside ∧ SameBut w.stored w'.stored) := by
  have hsame : SameBut w.stored w.stored := ⟨rfl, rfl, rfl⟩
  -- both ways of taking the lock commit the same kind of change
  have htake : ∀ db : Db, db.models = w.stored.db.models → lockFree d w.stored model holder clock = true →
      Ensures (edit (σ := σ) (fun s => { s with db := db }) >>= fun _ => commit f.lock >>= fun _ => pure true) w
        (fun locked w' => w'.outside = w.outside ∧ SameBut w.stored w'.stored ∧ w'.session = w'.stored ∧
          (locked = true → lockFree d w.stored model holder clock = true ∧ f.lock = .ok))
        (fun _ w' => w'.outside = w.outside ∧ SameBut w.stored w'.stored)
        (fun w' => w'.outside = w.outside ∧ SameBut w.stored w'.stored) := by
    intro db hdb hfree
    have hnew : SameBut w.stored { w.session with db := db } := ⟨by rw [hw], by rw [hw], hdb⟩
    refine .bind (.modify (.bind (commit_ends (fun hok => .ret ?_) (fun _ _ => ?_) (fun _ => ⟨rfl, hsame⟩)
      fun _ => ⟨rfl, hsame⟩)))
    · exact ⟨rfl, hnew, rfl, fun _ => ⟨hfree, hok⟩⟩
    · exact ⟨rfl, hnew⟩
  refine .bind (.get ?_)
  rw [hw]
  cases ht : w.stored.db.takeOverExpiredLock model holder d.settings.modelLockTtlS clock with
  | some db =>
    obtain ⟨l, -, -, rfl⟩ := Db.takeOverExpiredLock_some ht
    exact htake _ rfl (by simp [lockFree, ht])
  | none =>
    cases ha : w.stored.db.addLock model holder d.settings.modelLockTtlS clock with
    | none => exact .bind (.modify (.ret ⟨rfl, hsame, rfl, fun h => by cases h⟩))
    | some db =>
      obtain ⟨-, locks, -, rfl⟩ := Db.addLock_some ha
      exact htake _ rfl (by simp [lockFree, ha])

theorem Blind.stored (hI : Blind I id) (h : Stored I w) (ho : w'.outside = w.outside) (hs : SameBut w.stored w'.stored) :
    Stored I w' := by
  unfold Stored
  rw [ho]
  exact hI.sameBut hs h

theorem unlock_ends (hI : Blind I id) (h : Stored I w) :
    Ensures (unlock f model holder) w (fun _ => Stored I) (fun _ => Stored I) (Stored I) := by
  have h' : I { w.stored with db := w.stored.db.releaseLock model holder } w.outside :=
    hI.sameBut (s := w.stored) ⟨rfl, rfl, rfl⟩ h
  exact .bind (.modify (.bind (.modify (commit_ends (fun _ => h') (fun _ _ => h') (fun _ => h) fun _ => h))))

/-! ## What the session holds -/

theorem getRollout_ends {r : Rollout} (h : w.session.rollouts.get? id = some r) {D : Rollout → World σ → Prop}
    {R : AdaptationError → World σ → Prop} {S : World σ → Prop} (hD : D r w) : Ensures (getRollout id) w D R S := by
  refine .bind (.get ?_)
  rw [h]
  exact .ret hD

theorem nameOf_ends {D : String → World σ → Prop} {R : AdaptationError → World σ → Prop} {S : World σ → Prop}
    (hD : ∀ m, w.session.db.models.get? model = some m → D m.mlflowModelName w) (hR : ∀ e, R e w) :
    Ensures (nameOf model) w D R S := by
  refine .bind (.get ?_)
  cases hm : w.session.db.models.get? model with
  | none => exact .raise (hR _)
  | some m => exact .ret (hD m hm)

/-! ## Traffic -/

theorem target_ends {g : Answer} {name : String} {v : Version} {o : Outside σ} : Ensures (target g name v) o
    (fun t o' => o' = o ∧ t = ⟨name, v, t.source⟩) (fun _ o' => o' = o) (fun o' => o' = o) := by
  refine .bind (.within (Registry.source?_ends.mono ?_ ?_ ?_))
  · rintro source _ rfl
    exact .ret ⟨rfl, rfl⟩
  · rintro _ _ rfl
    rfl
  · rintro _ ⟨rfl, -⟩
    rfl

theorem candidateTarget_ends {g : Answer} {name : String} {v : Version} {percent : Nat} {o : Outside σ} :
    Ensures (candidateTarget g name v percent) o (fun t o' => o' = o ∧ (percent = 0 → t = none))
      (fun _ o' => o' = o) (fun o' => o' = o) := by
  unfold candidateTarget
  split
  · exact .ret ⟨rfl, fun _ => rfl⟩
  · rename_i h
    refine .bind (target_ends.mono ?_ (fun _ _ h => h) (fun _ h => h))
    rintro t _ ⟨rfl, -⟩
    exact .ret ⟨rfl, fun h' => absurd h' h⟩

/-- How far a traffic change of the rollout `r` got: nothing changed, or the
outside moved towards its stable version. -/
inductive TrafficMoved (d : Delivery σ) (name : String) (r : Rollout) (w : World σ) : World σ → Prop where
  | same : TrafficMoved d name r w w
  | moved (sv : Version) (c : Option DeploymentTarget) (o' : Outside σ) (stable : r.stableVersion = some sv)
      (splits : d.port.splitsTraffic = true) (hm : w.outside.Moved o' name d.settings.liveAlias (some sv))
      (hl : d.port.SplitLeft name sv c w.outside o') : TrafficMoved d name r w { w with outside := o' }

theorem splitTraffic_ends (hP : d.port.Lawful d.settings.liveAlias) {g : SplitAnswers} {gt gc : Answer} {percent : Nat}
    {name : String} {r : Rollout} (hr : w.session.rollouts.get? id = some r)
    (hname : ∀ m, w.session.db.models.get? r.modelId = some m → m.mlflowModelName = name) :
    Ensures (d.splitTraffic g gt gc id percent) w
      (fun _ w' => TrafficMoved d name r w w' ∧ d.port.splitsTraffic = true ∧
        (percent = 0 → d.port.served w'.outside name = r.stableVersion ∧ d.port.splitTo w'.outside name = none))
      (fun _ w' => TrafficMoved d name r w w') (fun w' => TrafficMoved d name r w w') := by
  refine .bind (getRollout_ends hr (.bind (nameOf_ends (fun m hm => ?_) fun _ => .same)))
  rw [hname m hm]
  cases hst : r.stableVersion with
  | none => exact .raise .same
  | some sv =>
    refine .bind (reach_ends (target_ends.mono ?_ ?_ ?_))
    · rintro st _ ⟨rfl, ht⟩
      refine .bind (reach_ends (candidateTarget_ends.mono ?_ ?_ ?_))
      · rintro c _ ⟨rfl, hc⟩
        rw [ht]
        refine reach_ends ((Deployer.split_ends hP).mono ?_ ?_ ?_)
        · intro _ o' ⟨hs, hm, hl, hv⟩
          exact ⟨.moved sv c o' hst hs hm hl, hs, fun hp => hv (hc hp)⟩
        · intro _ o' ⟨hm, hl, hn⟩
          cases hs : d.port.splitsTraffic with
          | false => rw [hn hs]; exact .same
          | true => exact .moved sv c o' hst hs hm hl
        · intro o' ⟨hm, hl, hs⟩
          exact .moved sv c o' hst hs hm hl
      · rintro _ _ rfl
        exact .same
      · rintro _ rfl
        exact .same
    · rintro _ _ rfl
      exact .same
    · rintro _ rfl
      exact .same

/-! ## Under the lock -/

theorem observe_ends {f : Answer} {stats : ArmStats} {o : Outside σ} : Ensures (observe f stats) o
    (fun a o' => o' = o ∧ a = stats ∧ f = .ok) (fun _ o' => o' = o) (fun o' => o' = o) := by
  refine ask_ends (fun a o' h => ?_) (fun _ _ => rfl) (fun _ _ => rfl) (fun _ => rfl)
  cases h
  exact ⟨fun h => ⟨rfl, rfl, h⟩, fun _ _ => rfl⟩

theorem tickFailed_ends (hI : Blind I id) {now : Time} {e : AdaptationError} (h : Both I w) :
    Ensures (tickFailed f id now e) w (fun _ => Both I) (fun _ => Both I) (Stored I) := by
  unfold tickFailed
  split
  · refine .bind (.modify (.bind (.modify (.bind ((commit_both ?_).mono ?_ (fun _ _ h => h) (fun _ h => h))))))
    · exact ⟨h.1, hI.noted now _ h.1⟩
    · exact fun _ _ h => .ret h
  · exact .raise h

/-- What the call finds under the lock it got: the rollout as it was, and a
decision that leaves `I`. -/
structure UnderLock (d : Delivery σ) (I : Records → Outside σ → Prop) (id : RolloutId) (c : RolloutCall)
    (r : Rollout) (w : World σ) : Prop where
  session : w.session = w.stored
  kept : Stored I w
  get : w.stored.rollouts.get? id = some r
  effect : ∀ dec, c.decision d r = some dec →
    Ensures (c.effect d id dec) w (fun _ => Both I) (fun _ => Both I) (Stored I)

variable {r : Rollout} {now clock : Time}

theorem UnderLock.both {c : RolloutCall} (h : UnderLock d I id c r w) : Both I w := ⟨h.kept, h.session ▸ h.kept⟩

theorem tickAct_ends {dec : Decision}
    (h : Ensures (d.act f id now "system" dec) w (fun _ => Both I) (fun _ => Both I) (Stored I)) :
    Ensures (d.tickAct f id now dec) w (fun _ => Both I) (fun _ => Both I) (Stored I) :=
  .bind (h.mono (fun _ _ h => .ret h) (fun _ _ h => h) fun _ h => h)

theorem tickLocked_ends (hI : Blind I id) {stable candidate : ArmStats}
    (h : UnderLock d I id (.tick f now clock stable candidate) r w) :
    Ensures (d.tickLocked f id now stable candidate) w (fun _ => Both I) (fun _ => Both I) (Stored I) := by
  have hget : w.session.rollouts.get? id = some r := h.session ▸ h.get
  refine .bind (getRollout_ends hget ?_)
  split
  · exact .ret h.both
  refine .handle (Ensures.mono (D := fun _ => Both I) (R := fun _ => Both I) (S := Stored I) ?_ (fun _ _ h => h)
    (fun _ _ h => tickFailed_ends hI h) fun _ h => h)
  refine .bind (getRollout_ends hget ?_)
  split
  · rename_i hst
    exact tickAct_ends (h.effect _ (by simp only [RolloutCall.decision, if_pos hst]))
  · rename_i hst
    refine .bind (nameOf_ends (fun _ _ => ?_) fun _ => h.both)
    split
    · exact .raise h.both
    rename_i hstable
    refine .bind (reach_ends (observe_ends.mono ?_ ?_ ?_))
    · rintro _ _ ⟨rfl, rfl, hobs⟩
      refine .bind (reach_ends (observe_ends.mono ?_ ?_ ?_))
      · rintro _ _ ⟨rfl, rfl, hobc⟩
        have hall := And.intro hstable (And.intro hobs hobc)
        exact tickAct_ends (h.effect _ (by simp only [RolloutCall.decision, if_neg hst, if_pos hall]))
      · rintro _ _ rfl
        exact h.both
      · rintro _ rfl
        exact h.kept
    · rintro _ _ rfl
      exact h.both
    · rintro _ rfl
      exact h.kept

theorem approveLocked_ends {actor : String} (h : UnderLock d I id (.approve f now clock actor) r w) :
    Ensures (d.approveLocked f id now actor) w (fun _ => Both I) (fun _ => Both I) (Stored I) := by
  have heff := h.effect
  simp only [RolloutCall.decision] at heff
  refine .bind (getRollout_ends (h.session ▸ h.get) ?_)
  split
  · exact .raise h.both
  · rename_i hst
    simp only [if_neg hst] at heff
    split
    · rename_i hover
      simp only [if_pos hover] at heff
      exact .bind ((heff _ rfl).mono (fun _ _ h => .raise h) (fun _ _ h => h) fun _ h => h)
    · rename_i hover
      simp only [if_neg hover] at heff
      cases ht : r.policy.approvalThen with
      | canary =>
        rw [ht] at heff
        exact heff _ rfl
      | promote =>
        rw [ht] at heff
        exact heff _ rfl

/-- A call that finds the rollout active and gets its lock goes on from the
outside and the records it found. -/
theorem lockedCall_ends (hI : Blind I id) {α : Type} {ended busy : Rollout → WorldAct σ α} {m : WorldAct σ α}
    (hw : w.session = w.stored) (hs : Stored I w)
    (hended : ∀ r w', Stored I w' → Ensures (ended r) w' (fun _ => Stored I) (fun _ => Stored I) (Stored I))
    (hbusy : ∀ r w', Stored I w' → Ensures (busy r) w' (fun _ => Stored I) (fun _ => Stored I) (Stored I))
    (hm : ∀ r, w.stored.rollouts.get? id = some r → r.state.active = true →
      lockFree d w.stored r.modelId (.rollout id) clock = true → f.lock = .ok →
      ∀ w', w'.outside = w.outside → SameBut w.stored w'.stored → w'.session = w'.stored →
      Ensures m w' (fun _ => Both I) (fun _ => Both I) (Stored I)) :
    Ensures (getRollout id >>= fun r => if r.state.active = false then ended r else
        d.lock f r.modelId (.rollout id) clock >>= fun locked =>
          if locked = false then busy r else m.andFinally (unlock f r.modelId (.rollout id)))
      w (fun _ => Stored I) (fun _ => Stored I) (Stored I) := by
  cases hr : w.stored.rollouts.get? id with
  | none =>
    refine .bind (.bind (.get ?_))
    rw [hw, hr]
    exact .raise hs
  | some r =>
    refine .bind (getRollout_ends (r := r) (by rw [hw]; exact hr) ?_)
    split
    · exact hended r w hs
    · rename_i ha
      refine .bind ((lock_ends hw).mono ?_ (fun _ _ h => hI.stored hs h.1 h.2) fun _ h => hI.stored hs h.1 h.2)
      intro locked w' ⟨ho, hsame, hse, hfree⟩
      split
      · exact hbusy r w' (hI.stored hs ho hsame)
      · rename_i hl
        obtain ⟨hfree, hok⟩ := hfree (by simpa using hl)
        refine .andFinally ((hm r hr (by simpa using ha) hfree hok w' ho hsame hse).mono ?_ ?_
          fun _ h => h)
        · exact fun _ _ h => unlock_ends hI h.1
        · exact fun _ _ h => unlock_ends hI h.1

/-- The call finds the rollout active and takes its model's lock. -/
structure RolloutCall.Enters (d : Delivery σ) (id : RolloutId) (w : World σ) (r : Rollout) (c : RolloutCall) : Prop where
  active : r.state.active = true
  free : lockFree d w.stored r.modelId (.rollout id) c.clock = true
  locked : c.answers.lock = .ok

theorem RolloutCall.run_keeps {c : RolloutCall} (hI : Blind I id) (hs : Stored I w)
    (heff : ∀ r dec, w.stored.rollouts.get? id = some r → c.Enters d id w r → c.decision d r = some dec →
      ∀ w', w'.outside = w.outside → SameBut w.stored w'.stored → w'.session = w'.stored →
      Ensures (c.effect d id dec) w' (fun _ => Both I) (fun _ => Both I) (Stored I)) :
    Stored I (c.run d id w) := by
  have hs' : Stored I w.reopened := hs
  have hlock : ∀ r, w.stored.rollouts.get? id = some r → c.Enters d id w r →
      ∀ w', w'.outside = w.outside → SameBut w.stored w'.stored → w'.session = w'.stored → UnderLock d I id c r w' :=
    fun r hr he w' ho hsame hse => ⟨hse, hI.stored hs ho hsame, by rw [hsame.rollouts]; exact hr,
      fun dec hd => heff r dec hr he hd w' ho hsame hse⟩
  cases c with
  | tick f now clock stable candidate =>
    refine Ensures.after (lockedCall_ends hI rfl hs' (fun _ _ h => .ret h) (fun _ _ h => .ret h) ?_)
    exact fun r hr ha hfree hok w' ho hsame hse => tickLocked_ends hI (hlock r hr ⟨ha, hfree, hok⟩ w' ho hsame hse)
  | approve f now clock actor =>
    refine Ensures.after (lockedCall_ends hI rfl hs' (fun _ _ h => .raise h) (fun _ _ h => .raise h) ?_)
    exact fun r hr ha hfree hok w' ho hsame hse => approveLocked_ends (hlock r hr ⟨ha, hfree, hok⟩ w' ho hsame hse)
  | reject f now clock actor =>
    refine Ensures.after (lockedCall_ends hI rfl hs' (fun _ _ h => .raise h) (fun _ _ h => .raise h) ?_)
    exact fun r hr ha hfree hok w' ho hsame hse => (hlock r hr ⟨ha, hfree, hok⟩ w' ho hsame hse).effect _ rfl

end

end OranAdapt
