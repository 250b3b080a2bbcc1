import OranAdapt.RolloutRuns
import OranAdapt.RolloutStages

/-!
# Several processes on one rollout

Every process reads the rollout, takes the model's lock, decides and acts, one
stage at a time, while the others do the same. Its session keeps the object it
read: a commit does not expire it and a query does not refresh it, so after
the lock the process still sees the rollout as it was before. An end that is
recorded is final when nobody decides to act on a rollout that has ended
meanwhile or that another process is still acting on.
-/

namespace OranAdapt

open Effects World Outside Delivery

/-- The rollout object of a session: the values it was loaded with, and the
values it has. -/
structure Held where
  loaded : Rollout
  current : Rollout

/-- The row after an UPDATE of the columns that changed since `loaded`. -/
def Rollout.writtenOver (current loaded row : Rollout) : Rollout :=
  { row with
    state := if current.state = loaded.state then row.state else current.state
    step := if current.step = loaded.step then row.step else current.step
    percent := if current.percent = loaded.percent then row.percent else current.percent
    stepStartedAt := if current.stepStartedAt = loaded.stepStartedAt then row.stepStartedAt else current.stepStartedAt
    deadlineAt := if current.deadlineAt = loaded.deadlineAt then row.deadlineAt else current.deadlineAt
    decidedBy := if current.decidedBy = loaded.decidedBy then row.decidedBy else current.decidedBy
    history := if current.history = loaded.history then row.history else current.history
    finishedAt := if current.finishedAt = loaded.finishedAt then row.finishedAt else current.finishedAt }

inductive CallPhase where
  | idle
  | opened (c : RolloutCall) (h : Held)
  | locked (c : RolloutCall) (h : Held)
  | acting (c : RolloutCall) (h : Held) (actor : String) (st : Stage)
  | failed (c : RolloutCall) (model : ModelId) (e : AdaptationError)
  | leaving (c : RolloutCall) (model : ModelId)

def CallPhase.acts : CallPhase → Bool
  | acting .. => true
  | _ => false

def CallPhase.held : CallPhase → Option Held
  | opened _ h | locked _ h | acting _ h _ _ => some h
  | _ => none

abbrev ProcessId := Nat

/-- What else happens: it leaves this rollout's row alone. -/
structure Elsewhere (σ : Type) (id : RolloutId) where
  outside : Outside σ → Outside σ
  records : Records → Records
  row : ∀ s, (records s).rollouts.get? id = s.rollouts.get? id

inductive ProcessAction (σ : Type) (id : RolloutId) where
  | begin_ (p : ProcessId) (c : RolloutCall)
  | lock (p : ProcessId)
  | decide (p : ProcessId)
  | act (p : ProcessId)
  | note (p : ProcessId)
  | leave (p : ProcessId)
  | die (p : ProcessId)
  | elsewhere (x : Elsewhere σ id)

def ProcessAction.process {σ : Type} {id : RolloutId} : ProcessAction σ id → Option ProcessId
  | .begin_ p _ | .lock p | .decide p | .act p | .note p | .leave p | .die p => some p
  | .elsewhere _ => none

structure Processes (σ : Type) where
  outside : Outside σ
  stored : Records
  phase : ProcessId → CallPhase

/-- What the call decides under the lock: who acts, and the first stage. -/
def RolloutCall.decided {σ : Type} (d : Delivery σ) (id : RolloutId) :
    RolloutCall → WorldAct σ (Option (String × Stage))
  | .tick f now _ stable candidate => do
    let r ← getRollout id
    if r.state.active = false then pure none
    else if r.state = .awaitingApproval then pure ((r.decideApproval now).stage.map fun st => ("system", st))
    else do
      let _ ← nameOf r.modelId
      let stable ← reach (observe f.observeStable stable)
      let candidate ← reach (observe f.observeCandidate candidate)
      pure ((r.decide d.ttest now stable candidate).stage.map fun st => ("system", st))
  | .approve _ now _ actor => do
    let r ← getRollout id
    if r.state ≠ .awaitingApproval then
      .raise ⟨.rolloutState, s!"rollout '{id}' is not AWAITING_APPROVAL", [("rollout_id", .str id)]⟩
    else if r.overdue now then pure (some ("system", .undo .expired))
    else do
      editRollout id fun r => { r with decidedBy := some actor }
      match r.policy.approvalThen with
      | .canary => pure (some (actor, .enter))
      | .promote => pure (some (actor, .plan))
  | .reject _ _ _ actor => do
    editRollout id fun r => { r with decidedBy := some actor }
    pure (some (actor, .undo .rejected))

namespace Processes

variable {σ : Type} (s : Processes σ) (id : RolloutId)

def fresh : World σ := ⟨s.outside, s.stored, s.stored⟩

def view (h : Held) : World σ :=
  ⟨s.outside, s.stored, { s.stored with rollouts := s.stored.rollouts.modify id fun _ => h.current }⟩

/-- What the database holds once a session that holds `h` has gone on to `w`. -/
def written (h : Held) (w : World σ) : Records :=
  { w.stored with
    rollouts := match s.stored.rollouts.get? id with
      | some row => w.stored.rollouts.modify id fun r => r.writtenOver h.loaded row
      | none => s.stored.rollouts }

/-- The object such a session holds then. -/
def heldAfter (h : Held) (settled : Bool) (w : World σ) : Held :=
  match w.session.rollouts.get? id with
  | some r => ⟨if settled then r else h.loaded, r⟩
  | none => h

/-- Process `p` has left the database and the outside so and goes on. -/
def go (p : ProcessId) (outside : Outside σ) (stored : Records) (ph : CallPhase) : Processes σ :=
  ⟨outside, stored, Function.update s.phase p ph⟩

variable (d : Delivery σ)

def afterStage (c : RolloutCall) (h : Held) (actor : String) (settled : Bool) (w : World σ) :
    Ended AdaptationError (Option Stage) → CallPhase
  | .done (some st) => .acting c (heldAfter id h settled w) actor st
  | .done none => .leaving c h.current.modelId
  | .raised e => .failed c h.current.modelId e
  | .stopped => .idle

def afterDecision (c : RolloutCall) (h : Held) (w : World σ) :
    Ended AdaptationError (Option (String × Stage)) → CallPhase
  | .done (some (actor, st)) => .acting c (heldAfter id h false w) actor st
  | .done none => .leaving c h.current.modelId
  | .raised e => .failed c h.current.modelId e
  | .stopped => .idle

def step : ProcessAction σ id → Option (Processes σ)
  | .begin_ p c =>
    match s.phase p, s.stored.rollouts.get? id with
    | .idle, some r => some (s.go p s.outside s.stored (if r.state.active then .opened c ⟨r, r⟩ else .idle))
    | _, _ => none
  | .lock p =>
    match s.phase p with
    | .opened c h =>
      let run := d.lock c.answers h.current.modelId (.rollout id) c.clock s.fresh
      some (s.go p run.2.outside run.2.stored (match run.1 with
        | .done true => .locked c h
        | _ => .idle))
    | _ => none
  | .decide p =>
    match s.phase p with
    | .locked c h =>
      let run := c.decided d id (s.view id h)
      some (s.go p run.2.outside (s.written id h run.2) (afterDecision id c h run.2 run.1))
    | _ => none
  | .act p =>
    match s.phase p with
    | .acting c h actor st =>
      let run := st.part d c.answers id c.now actor (s.view id h)
      some (s.go p run.2.outside (s.written id h run.2) (afterStage id c h actor st.settles run.2 run.1))
    | _ => none
  | .note p =>
    match s.phase p with
    | .failed c model e =>
      match c with
      | .tick f now .. =>
        let run := tickFailed f id now e s.fresh
        some (s.go p run.2.outside run.2.stored (match run.1 with
          | .stopped => .idle
          | _ => .leaving c model))
      | _ => some (s.go p s.outside s.stored (.leaving c model))
    | _ => none
  | .leave p =>
    match s.phase p with
    | .leaving c model =>
      let run := unlock c.answers model (.rollout id) s.fresh
      some (s.go p run.2.outside run.2.stored .idle)
    | _ => none
  | .die p => some (s.go p s.outside s.stored .idle)
  | .elsewhere x => some { s with outside := x.outside s.outside, stored := x.records s.stored }

/-- The step is a traffic or promotion call for the rollout. -/
def Calls : ProcessAction σ id → Prop
  | .act p => ∃ c h actor st, s.phase p = .acting c h actor st ∧ st.calls = true
  | _ => False

def state : Option RolloutState := (s.stored.rollouts.get? id).map Rollout.state

/-- Whoever decides to act does so on a rollout that is still active, and
nobody else is acting on it. -/
def Alone : ProcessAction σ id → Prop
  | .decide p => ∀ c h actor st, s.phase p = .locked c h →
      (c.decided d id (s.view id h)).1 = .done (some (actor, st)) →
      (∃ state, s.state id = some state ∧ state.active = true) ∧ ∀ q, (s.phase q).acts = false
  | _ => True

/-! ## What a step does to the recorded state -/

/-- At most one process acts, on an active rollout, and no session has changed
the state of the object it holds. -/
structure Sole : Prop where
  one : ∀ p q, (s.phase p).acts = true → (s.phase q).acts = true → p = q
  active : ∀ p, (s.phase p).acts = true → ∃ state, s.state id = some state ∧ state.active = true
  same : ∀ p h, (s.phase p).held = some h → h.current.state = h.loaded.state

section
variable {s id d} {p : ProcessId} {o : Outside σ} {stored : Records} {ph : CallPhase} {h : Held} {c : RolloutCall}
  {w : World σ}

theorem phase_go (q : ProcessId) : (s.go p o stored ph).phase q = if q = p then ph else s.phase q := by
  unfold go
  by_cases hq : q = p
  · rw [if_pos hq, hq]; exact Function.update_self ..
  · rw [if_neg hq]; exact Function.update_of_ne hq ..

/-- A step that leaves the recorded state, and after which the process acts
only if it was acting or may do so. -/
theorem Sole.quiet (hs : s.Sole id) (hstate : (s.go p o stored ph).state id = s.state id)
    (hheld : ∀ h, ph.held = some h → h.current.state = h.loaded.state)
    (hacts : ph.acts = true → (s.phase p).acts = true ∨
      (∃ state, s.state id = some state ∧ state.active = true) ∧ ∀ q, (s.phase q).acts = false) :
    (s.go p o stored ph).Sole id := by
  -- whoever acts now, acted before or is `p`
  have hbefore : ∀ q, ((s.go p o stored ph).phase q).acts = true →
      (s.phase q).acts = true ∨ q = p ∧ ∀ q, (s.phase q).acts = false := by
    intro q hq
    rw [phase_go] at hq
    split at hq
    · rename_i he
      subst he
      exact (hacts hq).imp (fun h => h) fun h => ⟨rfl, h.2⟩
    · exact .inl hq
  refine ⟨fun q q' hq hq' => ?_, fun q hq => ?_, fun q h hh => ?_⟩
  · rcases hbefore q hq with h | ⟨rfl, h⟩
    · rcases hbefore q' hq' with h' | ⟨-, h'⟩
      · exact hs.one q q' h h'
      · rw [h' q] at h; cases h
    · rcases hbefore q' hq' with h' | ⟨rfl, -⟩
      · rw [h q'] at h'; cases h'
      · rfl
  · rw [hstate]
    rw [phase_go] at hq
    split at hq
    · rcases hacts hq with h | ⟨h, -⟩
      · exact hs.active p h
      · exact h
    · exact hs.active q hq
  · rw [phase_go] at hh
    split at hh
    · exact hheld h hh
    · exact hs.same q h hh

theorem Sole.done (hs : s.Sole id) (hp : (s.phase p).acts = true) (hacts : ph.acts = false)
    (hheld : ph.held = none) : (s.go p o stored ph).Sole id := by
  have hnone : ∀ q, ((s.go p o stored ph).phase q).acts ≠ true := by
    intro q hq
    rw [phase_go] at hq
    split at hq
    · rw [hacts] at hq; cases hq
    · rename_i hne
      exact hne (hs.one q p hq hp)
  refine ⟨fun q _ hq => absurd hq (hnone q), fun q hq => absurd hq (hnone q), fun q h hh => ?_⟩
  rw [phase_go] at hh
  split at hh
  · rw [hheld] at hh; cases hh
  · exact hs.same q h hh

def stateIn (id : RolloutId) (s : Records) : Option RolloutState := (s.rollouts.get? id).map Rollout.state

theorem stateIn_edited {g : Rollout → Rollout} (hg : ∀ r, (g r).state = r.state) (s : Records) :
    stateIn id { s with rollouts := s.rollouts.modify id g } = stateIn id s := by
  unfold stateIn
  rw [Table.get?_modify, if_pos rfl, Option.map_map]
  exact congrArg (fun f => (s.rollouts.get? id).map f) (funext hg)

theorem stateIn_of_rollouts {s s' : Records} (h : s'.rollouts = s.rollouts) : stateIn id s' = stateIn id s := by
  unfold stateIn; rw [h]

def SessionIn (id : RolloutId) (a : Option RolloutState) (w : World σ) : Prop := stateIn id w.session = a

def BothIn (id : RolloutId) (a b : Option RolloutState) (w : World σ) : Prop :=
  (stateIn id w.stored = a ∨ stateIn id w.stored = b) ∧ (stateIn id w.session = a ∨ stateIn id w.session = b)

theorem sessionIn (a : Option RolloutState) : OfRollouts (SessionIn (σ := σ) id a) id where
  same _ h hs := (stateIn_of_rollouts h.rollouts).trans hs
  edited _ hg hs := (stateIn_edited (fun r => (hg r).state) _).trans hs

theorem bothIn (a b : Option RolloutState) : AcrossCommits (BothIn (σ := σ) id a b) id where
  same h h' hs := by
    unfold BothIn
    rw [stateIn_of_rollouts h.rollouts, stateIn_of_rollouts h'.rollouts]
    exact hs
  edited g hg hs := by
    refine ⟨hs.1, ?_⟩
    rw [stateIn_edited fun r => (hg r).state]
    exact hs.2
  commits hs := ⟨hs.2, hs.2⟩
  rollsBack hs := ⟨hs.1, hs.1⟩

/-- What leaves the object's state alone leaves the recorded state alone. -/
theorem state_written (hw : BothIn id (s.state id) (some h.loaded.state) w) :
    stateIn id (s.written id h w) = s.state id := by
  replace hw := hw.1
  unfold state stateIn written at *
  dsimp only
  cases hr : s.stored.rollouts.get? id with
  | none => rw [hr]
  | some row =>
    rw [hr] at hw
    cases hr' : w.stored.rollouts.get? id with
    | none =>
      rw [hr'] at hw
      rcases hw with hw | hw <;> cases hw
    | some r =>
      have hwrite : (r.writtenOver h.loaded row).state = row.state := by
        unfold Rollout.writtenOver
        dsimp only
        split
        · rfl
        · rename_i hne
          rw [hr'] at hw
          rcases hw with hw | hw
          · exact Option.some.inj hw
          · exact absurd (Option.some.inj hw) hne
      simp [hr', hwrite]

/-- A session that holds the object sees the object's state. -/
theorem view_session : stateIn id (s.view id h).session = none ∨
    stateIn id (s.view id h).session = some h.current.state := by
  unfold stateIn view
  rw [Table.get?_modify, if_pos rfl]
  cases s.stored.rollouts.get? id with
  | none => exact .inl rfl
  | some row => exact .inr rfl

theorem view_both (hh : h.current.state = h.loaded.state) :
    BothIn id (s.state id) (some h.loaded.state) (s.view id h) := by
  refine ⟨.inl rfl, ?_⟩
  unfold state stateIn view
  rw [Table.get?_modify, if_pos rfl]
  cases s.stored.rollouts.get? id with
  | none => exact .inl rfl
  | some row =>
    right
    rw [← hh]
    rfl

theorem fresh_both : BothIn id (s.state id) (s.state id) s.fresh := ⟨.inl rfl, .inl rfl⟩

theorem decided_keeps {J : World σ → Prop} (hJ : OfRollouts J id) (c : RolloutCall) : Keeps J (c.decided d id) := by
  have hdecided : ∀ actor, Keeps J (editRollout id fun r => { r with decidedBy := some actor }) :=
    fun actor => .modify fun w h => hJ.edited _ (fun r => r.same_decided actor) h
  cases c with
  | tick f now clock stable candidate =>
    refine .bind (getRollout_keeps id) fun r => ?_
    split
    · exact .ret _
    · split
      · exact .ret _
      · exact .bind (nameOf_keeps _) fun _ => .bind (hJ.reach _) fun _ => .bind (hJ.reach _) fun _ => .ret _
  | approve f now clock actor =>
    refine .bind (getRollout_keeps id) fun r => ?_
    split
    · exact .raise _
    · split
      · exact .ret _
      · refine .bind (hdecided actor) fun _ => ?_
        split
        · exact .ret _
        · exact .ret _
  | reject f now clock actor => exact .bind (hdecided actor) fun _ => .ret _

theorem heldAfter_same {settled : Bool} (hh : h.current.state = h.loaded.state)
    (hw : settled = false → SessionIn id (stateIn id (s.view id h).session) w) :
    (heldAfter id h settled w).current.state = (heldAfter id h settled w).loaded.state := by
  unfold heldAfter
  split
  · rename_i r hr
    cases settled with
    | true => rfl
    | false =>
      have hr' : some r.state = stateIn id (s.view id h).session := by
        rw [← hw rfl]
        unfold stateIn
        rw [hr]
        rfl
      rcases view_session (s := s) (h := h) with hv | hv
      · rw [hv] at hr'; cases hr'
      · exact (Option.some.inj (hr'.trans hv)).trans hh
  · exact hh

theorem part_writes {st : Stage} (hst : st.writes = true) {f : ControllerAnswers} {now : Time} {actor : String}
    (w : World σ) (st' : Stage) : (st.part d f id now actor w).1 ≠ .done (some st') := by
  have hend : Ensures (st.part d f id now actor) w (fun next _ => next = none) (fun _ _ => True) fun _ => True := by
    cases st with
    | write => exact .bind (.modify (.bind (commit_ends (fun _ => .ret rfl) (fun _ _ => trivial) (fun _ => trivial)
        fun _ => trivial)))
    | await => exact .bind (.bind (.modify (commit_ends (fun _ => .ret rfl) (fun _ _ => trivial) (fun _ => trivial)
        fun _ => trivial)))
    | _ => cases hst
  intro he
  unfold Ensures at hend
  rw [show st.part d f id now actor w = (.done (some st'), (st.part d f id now actor w).2) from Prod.ext he rfl] at hend
  cases hend

/-- A step in a session that holds no rollout object of its own. -/
theorem Sole.aside (hs : s.Sole id) (p : ProcessId) (ph : CallPhase) {α : Type} {m : WorldAct σ α}
    (hm : ∀ a, Keeps (BothIn id a a) m) (hheld : ∀ h, ph.held = some h → h.current.state = h.loaded.state)
    (hacts : ph.acts = false) :
    (s.go p (m s.fresh).2.outside (m s.fresh).2.stored ph).Sole id ∧
      (s.go p (m s.fresh).2.outside (m s.fresh).2.stored ph).state id = s.state id := by
  have hstate : (s.go p (m s.fresh).2.outside (m s.fresh).2.stored ph).state id = s.state id :=
    ((hm (s.state id)).after fresh_both).1.elim (fun h => h) fun h => h
  exact ⟨hs.quiet hstate hheld fun h => absurd h (by rw [hacts]; exact Bool.false_ne_true), hstate⟩

theorem Sole.step {a : ProcessAction σ id} {s' : Processes σ} (hs : s.Sole id) (hc : s.Alone id d a)
    (h : s.step id d a = some s') :
    s'.Sole id ∧ (s'.state id = s.state id ∨ ∃ p, (s.phase p).acts = true) := by
  cases a with
  | begin_ p c =>
    simp only [Processes.step] at h
    split at h
    · rename_i r hp hr
      cases h
      refine ⟨hs.quiet rfl (fun h hh => ?_) fun hacts => ?_, .inl rfl⟩
      · split at hh <;> cases hh
        rfl
      · split at hacts <;> cases hacts
    · cases h
  | lock p =>
    simp only [Processes.step] at h
    split at h
    · rename_i c held hp
      cases h
      have hheld := hs.same p held (by rw [hp]; rfl)
      have haside := hs.aside p (match (d.lock c.answers held.current.modelId (.rollout id) c.clock s.fresh).1 with
          | .done true => .locked c held
          | _ => .idle) (fun a => (bothIn a a).lock (d := d) c.answers held.current.modelId (.rollout id) c.clock)
      refine (haside (fun h hh => ?_) ?_).imp (fun h => h) .inl
      · split at hh <;> cases hh
        exact hheld
      · split <;> rfl
    · cases h
  | decide p =>
    simp only [Processes.step] at h
    split at h
    · rename_i c held hp
      cases h
      have hheld := hs.same p held (by rw [hp]; rfl)
      have hstate := state_written (w := (c.decided d id (s.view id held)).2)
        ((decided_keeps (bothIn ..).toOfRollouts c).after (view_both hheld))
      have hsession : SessionIn id (stateIn id (s.view id held).session) (c.decided d id (s.view id held)).2 :=
        (decided_keeps (sessionIn _) c).after rfl
      refine ⟨hs.quiet hstate (fun h hh => ?_) fun hacts => ?_, .inl hstate⟩
      · unfold afterDecision at hh
        split at hh <;> cases hh
        exact heldAfter_same hheld fun _ => hsession
      · unfold afterDecision at hacts
        split at hacts
        · rename_i actor st he
          exact .inr (hc c held actor st hp he)
        all_goals cases hacts
    · cases h
  | act p =>
    simp only [Processes.step] at h
    split at h
    · rename_i c held actor st hp
      cases h
      have hheld := hs.same p held (by rw [hp]; rfl)
      have hacts : (s.phase p).acts = true := by rw [hp]; rfl
      refine ⟨?_, .inr ⟨p, hacts⟩⟩
      by_cases hw : st.writes = true
      · -- the stage that records the rollout is the last one
        have hlast : ∀ st', (st.part d c.answers id c.now actor (s.view id held)).1 ≠ .done (some st') :=
          part_writes hw _
        refine hs.done hacts ?_ ?_
        all_goals
          unfold afterStage
          split
          · rename_i st' he
            exact absurd he (hlast st')
          all_goals rfl
      · rw [Bool.not_eq_true] at hw
        have hstate := state_written (w := (st.part d c.answers id c.now actor (s.view id held)).2)
          (Keeps.after ((bothIn _ _).part hw c.answers c.now actor) (view_both hheld))
        refine hs.quiet hstate (fun h hh => ?_) fun _ => .inl hacts
        unfold afterStage at hh
        split at hh <;> cases hh
        exact heldAfter_same hheld fun hset => Keeps.after ((sessionIn _).unsettled hset c.answers c.now actor) rfl
    · cases h
  | note p =>
    simp only [Processes.step] at h
    split at h
    · rename_i c model e hp
      cases c with
      | tick f now clock stable candidate =>
        cases h
        have haside := hs.aside p (match (tickFailed f id now e s.fresh).1 with
            | .stopped => .idle
            | _ => .leaving (.tick f now clock stable candidate) model) fun a => (bothIn a a).tickFailed f now e
        refine (haside (fun h hh => ?_) ?_).imp (fun h => h) .inl
        · split at hh <;> cases hh
        · split <;> rfl
      | approve f now clock actor =>
        cases h
        exact ⟨hs.quiet rfl (fun _ hh => by cases hh) (fun h => by cases h), .inl rfl⟩
      | reject f now clock actor =>
        cases h
        exact ⟨hs.quiet rfl (fun _ hh => by cases hh) (fun h => by cases h), .inl rfl⟩
    · cases h
  | leave p =>
    simp only [Processes.step] at h
    split at h
    · rename_i c model hp
      cases h
      have haside := hs.aside p .idle fun a => (bothIn a a).unlock c.answers model (.rollout id)
      exact (haside (fun _ hh => by cases hh) rfl).imp (fun h => h) .inl
    · cases h
  | die p =>
    cases h
    exact ⟨hs.quiet rfl (fun _ hh => by cases hh) (fun h => by cases h), .inl rfl⟩
  | elsewhere x =>
    cases h
    have hstate : ({ s with outside := x.outside s.outside, stored := x.records s.stored } : Processes σ).state id =
        s.state id := by
      unfold state
      dsimp only
      rw [x.row]
    exact ⟨⟨hs.one, fun p hp => by rw [hstate]; exact hs.active p hp, hs.same⟩, .inl hstate⟩

/-! ## Runs -/

/-- In every run in which whoever decides to act is alone on an active
rollout, a recorded end stays as it is, and no process makes a traffic or
promotion call for the rollout any more. -/
theorem final_stays {s₀ t : Processes σ} (h₀ : ∀ p, s₀.phase p = .idle)
    (hbefore : Runs.Steps (fun s a => s.step id d a) (fun s a => s.Alone id d a) s₀ s) {state : RolloutState}
    (hstate : s.state id = some state) (hended : state.active = false)
    (hafter : Runs.Steps (fun s a => s.step id d a) (fun s a => s.Alone id d a) s t) :
    t.state id = some state ∧ ∀ a, ¬ t.Calls id a := by
  have hinit : s₀.Sole id := by
    refine ⟨fun p _ hp => ?_, fun p hp => ?_, fun p h hh => ?_⟩
    · rw [h₀ p] at hp; cases hp
    · rw [h₀ p] at hp; cases hp
    · rw [h₀ p] at hh; cases hh
  have hsole : s.Sole id := hbefore.inv (fun u => u.Sole id) (fun _ _ _ hs hc h => (hs.step hc h).1) hinit
  -- nobody acts on a rollout that has ended
  have hnone : ∀ {u : Processes σ}, u.Sole id → u.state id = some state → ∀ p, (u.phase p).acts ≠ true := by
    intro u hu hus p hp
    obtain ⟨state', hs', ha⟩ := hu.active p hp
    rw [hus, Option.some.injEq] at hs'
    rw [← hs', hended] at ha
    cases ha
  have hend : t.Sole id ∧ t.state id = some state := by
    refine hafter.inv (fun u => u.Sole id ∧ u.state id = some state) ?_ ⟨hsole, hstate⟩
    intro u a u' ⟨hu, hus⟩ hc h
    obtain ⟨hu', hsame | ⟨p, hp⟩⟩ := hu.step hc h
    · exact ⟨hu', hsame.trans hus⟩
    · exact absurd hp (hnone hu hus p)
  refine ⟨hend.2, fun a ha => ?_⟩
  cases a with
  | act p =>
    obtain ⟨c, h, actor, st, hp, -⟩ := ha
    exact hnone hend.1 hend.2 p (by rw [hp]; rfl)
  | _ => exact ha

theorem step_other {a : ProcessAction σ id} {s' : Processes σ} (h : s.step id d a = some s') {q : ProcessId}
    (hq : a.process ≠ some q) : s'.phase q = s.phase q := by
  have hgo : ∀ {p : ProcessId} {o : Outside σ} {stored : Records} {ph : CallPhase}, some p ≠ some q →
      (s.go p o stored ph).phase q = s.phase q := by
    intro p o stored ph hne
    rw [phase_go, if_neg fun e => hne (by rw [e])]
  cases a with
  | elsewhere x => cases h; rfl
  | die p => cases h; exact hgo hq
  | note p =>
    simp only [Processes.step] at h
    split at h
    · split at h
      · cases h; exact hgo hq
      · cases h; exact hgo hq
    · cases h
  | _ =>
    simp only [Processes.step] at h
    split at h
    · cases h; exact hgo hq
    · cases h

end

/-! ## One that reads before the end and locks after it -/

/-- Nobody has a call running on the rollout that awaits its approval. -/
def awaiting : Processes Unit := ⟨Subject.awaiting.outside, Subject.awaiting.stored, fun _ => .idle⟩

/-- Process 2 rejects it before process 1 asks; process 1 finds that it has ended. -/
theorem final_stays_rejected : ∃ s t : Processes Unit,
    s.step "r1" aliasDelivery (.begin_ 1 (.approve {} 2 2 "oncall")) = some t ∧
      s.state "r1" = some .rejected ∧ t.state "r1" = some .rejected ∧ ∀ a, ¬ t.Calls "r1" a := by
  let byTwo := fun (s : Processes Unit) (a : ProcessAction Unit "r1") =>
    a.process = some 2 ∧ s.state "r1" = some .awaitingApproval
  obtain ⟨s, hs, hp⟩ := Runs.Steps.exists_of_runs (fun (s : Processes Unit) a => s.step "r1" aliasDelivery a) byTwo
    awaiting [.begin_ 2 (.reject {} 1 1 "lead"), .lock 2, .decide 2, .act 2, .act 2]
    (fun s => s.state "r1" = some .rejected &&
      (s.step "r1" aliasDelivery (.begin_ 1 (.approve {} 2 2 "oncall"))).isSome) (by decide +kernel)
  rw [Bool.and_eq_true, decide_eq_true_eq] at hp
  obtain ⟨hrejected, hsome⟩ := hp
  obtain ⟨t, ht⟩ := Option.isSome_iff_exists.mp hsome
  -- the others have not made a step
  have hidle : ∀ (s : Processes Unit) a s', (∀ q, q ≠ 2 → s.phase q = .idle) → byTwo s a →
      s.step "r1" aliasDelivery a = some s' → ∀ q, q ≠ 2 → s'.phase q = .idle := by
    intro s a s' hs ha h q hq
    rw [step_other h (by rw [ha.1]; exact fun e => hq (Option.some.inj e).symm)]
    exact hs q hq
  have halone : ∀ (s : Processes Unit) a, (∀ q, q ≠ 2 → s.phase q = .idle) → byTwo s a →
      s.Alone "r1" aliasDelivery a := by
    intro s a hs ha
    cases a with
    | decide p =>
      intro c h actor st hp _
      refine ⟨⟨_, ha.2, rfl⟩, fun q => ?_⟩
      obtain rfl := Option.some.inj ha.1
      by_cases hq : q = 2
      · rw [hq, hp]; rfl
      · rw [hs q hq]; rfl
    | _ => trivial
  have hbefore := (hs.mono_of (fun s => ∀ q, q ≠ 2 → s.phase q = .idle) hidle halone fun _ _ => rfl).1
  have hafter : Runs.Steps (fun s a => s.step "r1" aliasDelivery a) (fun s a => s.Alone "r1" aliasDelivery a) s t :=
    Runs.Steps.tail (a := .begin_ 1 (.approve {} 2 2 "oncall")) (.refl s) trivial ht
  exact ⟨s, t, ht, hrejected, final_stays (fun _ => rfl) hbefore hrejected rfl hafter⟩

/-- Process 1 reads the rollout to approve it, process 2 rejects it; then
process 1 takes the lock and goes on with what it read. -/
theorem approves_rejected : ∃ s t : Processes Unit,
    Runs.Steps (fun s a => s.step "r1" aliasDelivery a) Runs.Free awaiting s ∧
      s.state "r1" = some .rejected ∧ Runs.Steps (fun s a => s.step "r1" aliasDelivery a) Runs.Free s t ∧
    t.state "r1" = some .promoted ∧ t.outside.live "cell-load" "live" = some "2" := by
  let step := fun (s : Processes Unit) (a : ProcessAction Unit "r1") => s.step "r1" aliasDelivery a
  have h : (Runs.runs step Runs.Free awaiting
      [.begin_ 1 (.approve {} 2 2 "oncall"), .begin_ 2 (.reject {} 1 1 "lead"), .lock 2, .decide 2, .act 2, .act 2,
        .leave 2]).any (fun s => s.state "r1" = some .rejected &&
        (Runs.runs step Runs.Free s [.lock 1, .decide 1, .act 1, .act 1, .act 1, .act 1]).any fun t =>
          t.state "r1" = some .promoted && t.outside.live "cell-load" "live" = some "2") = true := by
    decide +kernel
  obtain ⟨s, hs, hp⟩ := (Option.any_eq_true _ _).mp h
  rw [Bool.and_eq_true, decide_eq_true_eq] at hp
  obtain ⟨t, ht, hq⟩ := (Option.any_eq_true _ _).mp hp.2
  rw [Bool.and_eq_true, decide_eq_true_eq, decide_eq_true_eq] at hq
  exact ⟨s, t, .of_runs hs, hp.1, .of_runs ht, hq.1, hq.2⟩

end Processes

end OranAdapt
