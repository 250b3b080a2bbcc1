import OranAdapt.RolloutRuns
import OranAdapt.RolloutStages

/-!
# What one call does to a rollout

Whatever fails, a call leaves the rollout as the controller sees it, ends it,
puts it on a canary step whose split was read back, or lets it wait for an
approval.
-/

namespace OranAdapt

open Effects World Outside Delivery

def Rollout.position (r : Rollout) : RolloutState × Nat × Nat := (r.state, r.step, r.percent)

/-- The split that acting on the decision makes: its percentage and its step. -/
def Decision.splits (r : Rollout) : Decision → Option (Nat × Nat)
  | .advance percent step => some (percent, step)
  | .enterCanary =>
    match r.policy.canarySteps[0]? with
    | some first => if 100 ≤ first then none else some (first, 0)
    | none => none
  | _ => none

namespace Delivery

variable {σ : Type} (d : Delivery σ)

/-- The calls of a traffic change: look up the two versions, then split. -/
def route (g : SplitAnswers) (gt gc : Answer) (name : String) (sv cv : Version) (percent : Nat) : OutsideAct σ Unit := do
  let stable ← target gt name sv
  let candidate ← candidateTarget gc name cv percent
  Deployer.split d.port g name stable candidate percent

/-- A traffic change to `percent` from `o` returns, so it has been read back. -/
def ReadBack (g : SplitAnswers) (gt gc : Answer) (name : String) (sv cv : Version) (percent : Nat) (o : Outside σ) : Prop :=
  ∃ o', d.route g gt gc name sv cv percent o = (.done (), o')

end Delivery

section
variable {σ : Type} {d : Delivery σ} {w : World σ} {id : RolloutId} {r r' r'' : Rollout} {c : RolloutCall}

theorem Rollout.Fixed.trans (h : r.Fixed r') (h' : r'.Fixed r'') : r.Fixed r'' :=
  ⟨h'.modelId.trans h.modelId, h'.strategy.trans h.strategy, h'.stable.trans h.stable, h'.candidate.trans h.candidate,
    h'.policy.trans h.policy⟩

theorem Rollout.Same.refl (r : Rollout) : r.Same r := ⟨⟨rfl, rfl, rfl, rfl, rfl⟩, rfl, rfl, rfl, rfl, rfl⟩

theorem Rollout.Same.trans (h : r.Same r') (h' : r'.Same r'') : r.Same r'' :=
  ⟨h.toFixed.trans h'.toFixed, h'.state.trans h.state, h'.step.trans h.step, h'.percent.trans h.percent,
    h'.stepStartedAt.trans h.stepStartedAt, h'.deadlineAt.trans h.deadlineAt⟩

theorem Rollout.Same.position (h : r.Same r') : r'.position = r.position := by
  simp [Rollout.position, h.state, h.step, h.percent]

theorem Rollout.fixed_record (r : Rollout) (to_ : RolloutState) (now : Time) (actor : String) (p s : Option Nat)
    (deadline : Option Time) : r.Fixed (r.record to_ now actor p s deadline) := ⟨rfl, rfl, rfl, rfl, rfl⟩

end

def RolloutCall.SplitReadBack {σ : Type} (d : Delivery σ) (c : RolloutCall) (w : World σ) (r : Rollout) (percent : Nat) :
    Prop :=
  ∃ m sv, w.stored.db.models.get? r.modelId = some m ∧ r.stableVersion = some sv ∧
    d.ReadBack c.answers.split c.answers.stableTarget c.answers.candidateTarget m.mlflowModelName sv r.candidateVersion
      percent w.outside

inductive RowMove {σ : Type} (d : Delivery σ) (id : RolloutId) (w : World σ) (c : RolloutCall) (r r' : Rollout) :
    Prop where
  | kept (h : r.Same r')
  | ended (h : r.Fixed r') (enters : c.Enters d id w r) (dec : Decision) (decided : c.decision d r = some dec)
      (state : dec = .endAs r'.state ∨ dec.promotes r = true ∧ (r'.state = .promoted ∨ r'.state = .rolledBack))
  | split (h : r.Fixed r') (enters : c.Enters d id w r) (dec : Decision) (decided : c.decision d r = some dec)
      (percent step : Nat)
      (splits : dec.splits r = some (percent, step)) (readBack : c.SplitReadBack d w r percent)
      (state : r'.state = .canary) (at_ : r'.percent = percent ∧ r'.step = step) (started : r'.stepStartedAt = c.now)
  | awaits (h : r.Fixed r') (enters : c.Enters d id w r) (decided : c.decision d r = some .awaitApproval)
      (state : r'.state = .awaitingApproval)
      (at_ : r'.percent = r.percent)

section
variable {σ : Type} {d : Delivery σ} {w w' : World σ} {id : RolloutId} {r r' r'' : Rollout} {c : RolloutCall}

theorem RowMove.same (h : RowMove d id w c r r') (hs : r'.Same r'') : RowMove d id w c r r'' := by
  cases h with
  | kept h => exact .kept (h.trans hs)
  | ended h enters dec decided state =>
    exact .ended (h.trans hs.toFixed) enters dec decided (by rw [hs.state]; exact state)
  | split h enters dec decided percent step splits readBack state at_ started =>
    exact .split (h.trans hs.toFixed) enters dec decided percent step splits readBack (hs.state.trans state)
      (by rw [hs.percent, hs.step]; exact at_) (hs.stepStartedAt.trans started)
  | awaits h enters decided state at_ =>
    exact .awaits (h.trans hs.toFixed) enters decided (hs.state.trans state) (hs.percent.trans at_)

theorem RowMove.fixed (h : RowMove d id w c r r') : r.Fixed r' := by
  cases h with
  | kept h => exact h.toFixed
  | ended h | split h | awaits h => exact h

def Only (id : RolloutId) (P : Rollout → Prop) (s : Records) (_ : Outside σ) : Prop :=
  ∀ r, s.rollouts.get? id = some r → P r

theorem only_edited {P Q : Rollout → Prop} {g : Rollout → Rollout} (hg : ∀ r, P r → Q (g r)) {s : Records}
    {o : Outside σ} (h : Only id P s o) : Only id Q { s with rollouts := s.rollouts.modify id g } o := by
  intro r hr
  rw [Table.get?_modify, if_pos rfl, Option.map_eq_some_iff] at hr
  obtain ⟨r₀, hr₀, rfl⟩ := hr
  exact hg r₀ (h r₀ hr₀)

theorem only_alike {P : Rollout → Prop} {s s' : Records} {o o' : Outside σ} (hs : s'.rollouts = s.rollouts)
    (h : Only id P s o) : Only id P s' o' := fun r hr => h r (by rw [← hs]; exact hr)

theorem splitTraffic_readBack {g : SplitAnswers} {gt gc : Answer} {percent : Nat} :
    Ensures (d.splitTraffic g gt gc id percent) w
      (fun _ _ => ∃ r m sv, w.session.rollouts.get? id = some r ∧ w.session.db.models.get? r.modelId = some m ∧
        r.stableVersion = some sv ∧
        d.ReadBack g gt gc m.mlflowModelName sv r.candidateVersion percent w.outside)
      (fun _ _ => True) fun _ => True := by
  refine .bind (.bind (.get ?_))
  cases hr : w.session.rollouts.get? id with
  | none => exact .raise trivial
  | some r =>
    refine .ret (.bind (nameOf_ends (fun m hm => ?_) fun _ => trivial))
    cases hst : r.stableVersion with
    | none => exact .raise trivial
    | some sv =>
      dsimp only
      have hroute : (reach (target gt m.mlflowModelName sv) >>= fun stable =>
          reach (candidateTarget gc m.mlflowModelName r.candidateVersion percent) >>= fun candidate =>
            reach (Deployer.split d.port g m.mlflowModelName stable candidate percent)) =
          reach (d.route g gt gc m.mlflowModelName sv r.candidateVersion percent) := by
        unfold route
        simp only [reach_bind]
      rw [hroute]
      refine reach_ends ((Ensures.self _ _).mono ?_ (fun _ _ _ => trivial) fun _ _ => trivial)
      intro _ o' h
      exact ⟨r, m, sv, rfl, hm, hst, o', h⟩

/-! ## Acting -/

/-- Wherever the rollout is recorded, it is as it was found. -/
def Untouched (id : RolloutId) (r : Rollout) : World σ → Prop := Both (Only id r.Same)

/-- It ends in `Q` wherever it is recorded. -/
def Leaves (m : WorldAct σ Unit) (w : World σ) (id : RolloutId) (Q : Rollout → Prop) : Prop :=
  Ensures m w (fun _ => Both (Only id Q)) (fun _ => Both (Only id Q)) (Stored (Only id Q))

theorem untouched_across (id : RolloutId) (r : Rollout) : AcrossCommits (Untouched (σ := σ) id r) id where
  same h h' hs := ⟨only_alike h.rollouts hs.1, only_alike h'.rollouts hs.2⟩
  edited _ hg hs := ⟨hs.1, only_edited (fun r₁ hr₁ => hr₁.trans (hg r₁)) hs.2⟩
  commits hs := ⟨hs.2, hs.2⟩
  rollsBack hs := ⟨hs.1, hs.1⟩

section
variable {Q : Rollout → Prop} (hQ : ∀ r', r.Same r' → Q r')

include hQ in
theorem Untouched.both (h : Untouched id r w') : Both (Only id Q) w' :=
  ⟨fun r₁ hr₁ => hQ r₁ (h.1 r₁ hr₁), fun r₁ hr₁ => hQ r₁ (h.2 r₁ hr₁)⟩

include hQ in
theorem then_records {α : Type} {m : WorldAct σ α} {f : α → WorldAct σ Unit} (hm : Keeps (Untouched id r) m)
    (h : Untouched id r w') (hf : ∀ a w'', m w' = (.done a, w'') → Untouched id r w'' → Leaves (f a) w'' id Q) :
    Leaves (m >>= f) w' id Q := by
  refine .bind (((hm w' h).and (.self m w')).mono (fun a w'' ha => hf a w'' ha.2 ha.1) ?_ ?_)
  · exact fun _ _ he => he.1.both hQ
  · exact fun _ hs => (hs.1.both hQ).1

include hQ in
theorem records {g : DbAnswer} {e : Rollout → Rollout} (h : Untouched id r w') (he : ∀ r₁, r.Same r₁ → Q (e r₁)) :
    Leaves (editRollout id e >>= fun _ => commit g) w' id Q :=
  .bind (.modify (commit_both ⟨(h.both hQ).1, only_edited he h.2⟩))

include hQ in
theorem ends_leaves {f : ControllerAnswers} {to_ : RolloutState} {now : Time} {actor : String} (h : Untouched id r w')
    (hto : ∀ r', r.Fixed r' → r'.state = to_ → Q r') : Leaves (d.endWithoutPromotion f id to_ now actor) w' id Q :=
  then_records hQ ((untouched_across id r).undoTraffic f) h fun _ _ _ h' => records hQ h' fun r₁ hr₁ =>
    hto _ (hr₁.toFixed.trans (r₁.fixed_record ..)) rfl

include hQ in
theorem promote_leaves {f : ControllerAnswers} {now : Time} {actor : String} (h : Untouched id r w')
    (hprom : ∀ r', r.Fixed r' → r'.state = .promoted ∨ r'.state = .rolledBack → Q r') :
    Leaves (d.promote f id now actor) w' id Q := by
  have hJ := untouched_across (σ := σ) id r
  refine then_records hQ (hJ.commit _) h fun _ w₁ _ h₁ =>
    then_records hQ (getRollout_keeps id) h₁ fun r₁ w₂ _ h₂ => ?_
  refine .bind (.handle ((Keeps.bind (hJ.promoteVersion _ _) (fun _ => .ret true) w₂ h₂).mono ?_ ?_ ?_))
  · intro promoted w₃ h₃
    refine .skipIf (fun _ => h₃.both hQ) fun _ => ?_
    refine then_records hQ (hJ.clearSplit f now) h₃ fun _ _ _ h₄ => records hQ h₄ fun r₁ hr₁ => ?_
    exact hprom _ (hr₁.toFixed.trans (r₁.fixed_record ..)) (.inl rfl)
  · intro e w₃ h₃
    split
    · have hend : Leaves (d.endWithoutPromotion f id .rolledBack now actor) { w₃ with session := w₃.stored } id Q :=
        ends_leaves hQ (hJ.rollsBack h₃) fun r' hr' hs => hprom r' hr' (.inr hs)
      refine .bind (.modify (.bind (Ensures.mono hend ?_ ?_ ?_)))
      · exact fun _ _ h₅ => .ret (.skipIf (fun _ => h₅) fun hn => absurd rfl hn)
      · exact fun _ _ h₅ => h₅
      · exact fun _ h₅ => h₅
    · exact .raise (h₃.both hQ)
  · exact fun _ h₃ => (h₃.both hQ).1

end

/-! ## One call -/

/-- What acting on the decision finds: the rollout, the model's name and the
outside as the call found them. -/
structure Acts (id : RolloutId) (w w' : World σ) (r : Rollout) : Prop where
  untouched : Untouched id r w'
  models : w'.session.db.models = w.stored.db.models
  outside : w'.outside = w.outside

theorem Acts.decided (h : Acts id w w' r) (actor : String) : Acts id w { w' with session := { w'.session with
    rollouts := w'.session.rollouts.modify id fun r => { r with decidedBy := some actor } } } r := by
  refine ⟨⟨h.untouched.1, ?_⟩, h.models, h.outside⟩
  exact only_edited (fun r₁ hr₁ => hr₁.trans (r₁.same_decided actor)) h.untouched.2

theorem splits_leaves {percent step : Nat} {actor : String} {dec : Decision} (h : Acts id w w' r)
    (ha : c.Enters d id w r) (hd : c.decision d r = some dec) (hp : dec.splits r = some (percent, step)) :
    Leaves (d.moveTraffic c.answers id percent step c.now actor) w' id (RowMove d id w c r) := by
  refine then_records (fun _ => .kept) ((untouched_across id r).splitTraffic _ _ _ _) h.untouched fun _ w₁ hdone h₁ =>
    records (fun _ => .kept) h₁ fun r₂ hr₂ => ?_
  have hback := @splitTraffic_readBack σ d w' id c.answers.split c.answers.stableTarget c.answers.candidateTarget percent
  obtain ⟨r₁, m, sv, hr₁, hm, hsv, hback⟩ := hback.elim_done hdone
  have hsame := h.untouched.2 r₁ hr₁
  refine .split (hr₂.toFixed.trans (r₂.fixed_record ..)) ha dec hd percent step hp ⟨m, sv,
    ?_, ?_, ?_⟩ rfl ⟨rfl, rfl⟩ rfl
  · rw [← h.models, ← hsame.modelId]; exact hm
  · rw [← hsame.stable]; exact hsv
  · rw [← h.outside, ← hsame.candidate]; exact hback

theorem act_leaves {actor : String} {dec : Decision} (h : Acts id w w' r) (ha : c.Enters d id w r)
    (hd : c.decision d r = some dec) :
    Leaves (d.act c.answers id c.now actor dec) w' id (RowMove d id w c r) := by
  have hkept : Both (Only id (RowMove d id w c r)) w' := h.untouched.both fun _ => .kept
  have hpromote : dec.promotes r = true → Leaves (d.promote c.answers id c.now actor) w' id (RowMove d id w c r) :=
    fun hp => promote_leaves (fun _ => .kept) h.untouched fun r' hr' hs => .ended hr' ha dec hd (.inr ⟨hp, hs⟩)
  cases dec with
  | waiting => exact .ret hkept
  | endAs state =>
    exact ends_leaves (fun _ => .kept) h.untouched fun r' hr' hs => .ended hr' ha _ hd (.inl (by rw [hs]))
  | promote => exact hpromote rfl
  | enterCanary =>
    refine .bind (.bind (.get ?_))
    cases hr₁ : w'.session.rollouts.get? id with
    | none => exact .raise hkept
    | some r₁ =>
      refine .ret ?_
      rw [(h.untouched.2 r₁ hr₁).policy]
      cases hc : r.policy.canarySteps[0]? with
      | none => exact .raise hkept
      | some first =>
        dsimp only
        split
        · rename_i hf
          exact hpromote (by simpa [Decision.promotes, hc] using hf)
        · rename_i hf
          exact splits_leaves h ha hd (by simp [Decision.splits, hc, hf])
  | awaitApproval =>
    refine records (fun _ => .kept) h.untouched fun r₁ hr₁ =>
      .awaits (hr₁.toFixed.trans (r₁.fixed_record ..)) ha hd rfl ?_
    exact hr₁.percent
  | advance percent step => exact splits_leaves h ha hd rfl
  | outOfSteps => exact .raise hkept

theorem only_blind {Q : Rollout → Prop} (hQ : ∀ r r', r.Same r' → Q r → Q r') : Blind (Only (σ := σ) id Q) id :=
  ⟨fun hs h => only_alike hs.rollouts h,
    fun now what h => only_edited (fun r' h' => hQ r' _ (r'.same_note now what) h') h⟩

theorem RolloutCall.run_moves (hr : w.stored.rollouts.get? id = some r)
    (hr' : (c.run d id w).stored.rollouts.get? id = some r') : RowMove d id w c r r' := by
  refine run_keeps (I := Only id (RowMove d id w c r)) (only_blind fun _ _ hs h => h.same hs) ?_ ?_ r' hr'
  · intro r₁ hr₁
    obtain rfl := Option.some.inj (hr.symm.trans hr₁)
    exact .kept (.refl r)
  · intro r₁ dec hr₁ ha hd w' ho hsame hse
    obtain rfl := Option.some.inj (hr.symm.trans hr₁)
    have hstored : Only id r.Same w'.stored w'.outside := by
      intro r₁ hr₁
      rw [hsame.rollouts, hr] at hr₁
      exact Option.some.inj hr₁ ▸ .refl r
    have hacts : Acts id w w' r := ⟨⟨hstored, hse ▸ hstored⟩, by rw [hse]; exact hsame.models, ho⟩
    have hact : ∀ actor w'', Acts id w w'' r → Leaves (d.act c.answers id c.now actor dec) w'' id (RowMove d id w c r) :=
      fun actor w'' h => act_leaves h ha hd
    cases c with
    | tick f now clock stable candidate => exact hact "system" w' hacts
    | approve f now clock actor =>
      cases dec with
      | endAs state => exact hact "system" w' hacts
      | _ => exact .bind (.modify (hact actor _ (hacts.decided actor)))
    | reject f now clock actor => exact .bind (.modify (hact actor _ (hacts.decided actor)))

theorem RolloutCall.run_across {I : Records → Outside σ → Prop} (hJ : AcrossCommits (Both I) id)
    (hrec : ∀ s o (g : Rollout → Rollout), I s o → I { s with rollouts := s.rollouts.modify id g } o) (h : Stored I w) :
    Stored I (c.run d id w) := by
  have hboth : ∀ {s s' : Records} {o : Outside σ}, s.Alike s' → I s o → I s' o := by
    intro s s' o hs h
    have hs' : Both I (⟨o, s', s'⟩ : World σ) := @OfRollouts.same _ _ _ hJ.toOfRollouts ⟨o, s, s⟩ _ hs hs ⟨h, h⟩
    exact hs'.1
  refine run_keeps ⟨fun hs h => hboth ⟨hs.rollouts, hs.models⟩ h, fun now what h => hrec _ _ _ h⟩ h ?_
  intro r dec _ _ _ w' ho hsame hse
  have hw' : I w'.stored w'.outside := by
    have := hboth ⟨hsame.rollouts, hsame.models⟩ h
    rw [ho]; exact this
  have hact : ∀ actor w'', Both I w'' → Ensures (d.act c.answers id c.now actor dec) w'' (fun _ => Both I)
      (fun _ => Both I) (Stored I) := fun actor w'' h'' =>
    (hJ.act (fun w g h => ⟨h.1, hrec _ _ g h.2⟩) _ _ _ _ w'' h'').mono (fun _ _ h => h) (fun _ _ h => h) fun _ h => h.1
  have hdecided : ∀ actor, Both I { w' with session := { w'.session with
      rollouts := w'.session.rollouts.modify id fun r => { r with decidedBy := some actor } } } :=
    fun actor => ⟨hw', hrec _ _ _ (hse ▸ hw')⟩
  cases c with
  | tick f now clock stable candidate => exact hact "system" w' ⟨hw', hse ▸ hw'⟩
  | approve f now clock actor =>
    cases dec with
    | endAs state => exact hact "system" w' ⟨hw', hse ▸ hw'⟩
    | _ => exact .bind (.modify (hact actor _ (hdecided actor)))
  | reject f now clock actor => exact .bind (.modify (hact actor _ (hdecided actor)))

theorem RolloutCall.run_models : (c.run d id w).stored.db.models = w.stored.db.models := by
  refine run_across (I := fun s _ => s.db.models = w.stored.db.models) ?_ (fun _ _ _ h => h) rfl
  exact ⟨⟨fun h h' hs => ⟨h.models.trans hs.1, h'.models.trans hs.2⟩, fun _ _ hs => hs⟩, fun hs => ⟨hs.2, hs.2⟩,
    fun hs => ⟨hs.1, hs.1⟩⟩

/-- A call never removes the rollout, nor records one that is not there. -/
theorem RolloutCall.run_isSome :
    ((c.run d id w).stored.rollouts.get? id).isSome = (w.stored.rollouts.get? id).isSome := by
  refine run_across (I := fun s _ => (s.rollouts.get? id).isSome = (w.stored.rollouts.get? id).isSome) ?_ ?_ rfl
  · refine ⟨⟨fun h h' hs => ?_, fun g _ hs => ⟨hs.1, ?_⟩⟩, fun hs => ⟨hs.2, hs.2⟩,
      fun hs => ⟨hs.1, hs.1⟩⟩
    · exact ⟨(congrArg (fun t => (t.get? id).isSome) h.rollouts).trans hs.1,
        (congrArg (fun t => (t.get? id).isSome) h'.rollouts).trans hs.2⟩
    · simpa using hs.2
  · intro s o g h
    simpa using h

end

/-! ## A start -/

namespace Subject

variable {σ : Type} (d : Delivery σ) (x : Subject) (f : ControllerAnswers) (strategy : Strategy) (job : Option JobId)
  (now : Time)

def inserted : Rollout := d.newRollout x.model strategy x.stable x.candidate job now

def opened (w : World σ) : World σ :=
  { w with session := { w.session with
      rollouts := (w.session.rollouts.insert? x.id (x.inserted d strategy job now)).getD w.session.rollouts } }

/-- The first split fails with a DeploymentError, and so does its undo. -/
def SplitLost (w : World σ) : Prop :=
  ∃ e w₁ e' w₂, d.splitTraffic f.split f.stableTarget f.candidateTarget x.id (firstPercent d.policy strategy)
      (x.opened d strategy job now w) = (.raised e, w₁) ∧ e.cls = .deployment ∧
    d.endWithoutPromotion f x.id .rolledBack now "system" w₁ = (.raised e', w₂) ∧ e'.cls = .deployment

inductive StartMove (w : World σ) (r : Rollout) : Prop where
  | begun (h : (x.inserted d strategy job now).Fixed r) (state : r.state = initialState strategy)
      (at_ : r.percent = firstPercent d.policy strategy ∧ r.step = 0) (started : r.stepStartedAt = now)
      (deadline : r.deadlineAt = firstDeadline d.policy now strategy) (below : firstPercent d.policy strategy < 100)
      (readBack : 0 < firstPercent d.policy strategy → ∃ m, w.session.db.models.get? x.model = some m ∧
        d.ReadBack f.split f.stableTarget f.candidateTarget m.mlflowModelName x.stable x.candidate
          (firstPercent d.policy strategy) w.outside)
  | promoting (h : (x.inserted d strategy job now).Fixed r) (state : r.state = initialState strategy)
      (at_ : r.percent = 0) (full : 100 ≤ firstPercent d.policy strategy)
  | ended (h : (x.inserted d strategy job now).Fixed r)
      (state : r.state = .rolledBack ∨ r.state = .promoted ∧ 100 ≤ firstPercent d.policy strategy)
  | lost (h : (x.inserted d strategy job now).Same r) (hl : x.SplitLost d f strategy job now w)

section
variable {d x f strategy job now} {w w' : World σ} {r : Rollout}

/-- The rollout is not committed yet; the session has it as it was inserted. -/
def Unrecorded (id : RolloutId) (r : Rollout) (w : World σ) : Prop :=
  w.stored.rollouts.get? id = none ∧ Only id r.Same w.session w.outside

theorem unrecorded (id : RolloutId) (r : Rollout) : OfRollouts (Unrecorded (σ := σ) id r) id where
  same h h' hs := ⟨by rw [h.rollouts]; exact hs.1, only_alike h'.rollouts hs.2⟩
  edited _ hg hs := ⟨hs.1, only_edited (fun r₁ hr₁ => hr₁.trans (hg r₁)) hs.2⟩

theorem only_none {P : Rollout → Prop} {s : Records} {o : Outside σ} {id : RolloutId} (h : s.rollouts.get? id = none) :
    Only id P s o := fun r hr => by rw [h] at hr; cases hr

theorem StartMove.fixed (h : x.StartMove d f strategy job now w r) : (x.inserted d strategy job now).Fixed r := by
  cases h with
  | begun h | promoting h | ended h => exact h
  | lost h => exact h.toFixed

theorem StartMove.same {r' : Rollout} (h : x.StartMove d f strategy job now w r) (hs : r.Same r') :
    x.StartMove d f strategy job now w r' := by
  cases h with
  | begun h state at_ started deadline below readBack =>
    exact .begun (h.trans hs.toFixed) (hs.state.trans state) (by rw [hs.percent, hs.step]; exact at_)
      (hs.stepStartedAt.trans started) (hs.deadlineAt.trans deadline) below readBack
  | promoting h state at_ full =>
    exact .promoting (h.trans hs.toFixed) (hs.state.trans state) (hs.percent.trans at_) full
  | ended h state => exact .ended (h.trans hs.toFixed) (by rw [hs.state]; exact state)
  | lost h hl => exact .lost (h.trans hs) hl

theorem first_record {Q : Rollout → Prop} {g : DbAnswer} {e : Rollout → Rollout} (h : Unrecorded x.id r w')
    (he : ∀ r₁, r.Same r₁ → Q (e r₁)) : Ensures (editRollout x.id e >>= fun _ => commit g) w'
      (fun _ => Stored (Only x.id Q)) (fun _ w'' => Stored (Only x.id Q) w'' ∧ Only x.id Q w''.session w''.outside)
      (Stored (Only x.id Q)) := by
  have hs : Only x.id Q { w'.session with rollouts := w'.session.rollouts.modify x.id e } w'.outside := only_edited he h.2
  exact .bind (.modify (commit_ends (fun _ => hs) (fun _ _ => ⟨hs, hs⟩) (fun _ => ⟨only_none h.1, hs⟩) fun _ =>
    only_none h.1))

theorem firstSplitFailed_leaves {e : AdaptationError} (h : Unrecorded x.id (x.inserted d strategy job now) w')
    (hsplit : d.splitTraffic f.split f.stableTarget f.candidateTarget x.id (firstPercent d.policy strategy)
      (x.opened d strategy job now w) = (.raised e, w')) :
    Ensures (d.firstSplitFailed f x.id now e) w' (fun _ => Stored (Only x.id (x.StartMove d f strategy job now w)))
      (fun _ => Stored (Only x.id (x.StartMove d f strategy job now w)))
      (Stored (Only x.id (x.StartMove d f strategy job now w))) := by
  unfold firstSplitFailed
  split
  · rename_i he
    -- what the end may leave in the session: nothing yet, or its record
    let ended : Rollout → Prop := fun r => (x.inserted d strategy job now).Fixed r ∧ r.state = .rolledBack
    have hended : ∀ r, ended r → x.StartMove d f strategy job now w r := fun r hr => .ended hr.1 (.inl hr.2)
    have hend : Ensures (d.endWithoutPromotion f x.id .rolledBack now "system") w' (fun _ => Stored (Only x.id ended))
        (fun _ w'' => Stored (Only x.id ended) w'' ∧
          Only x.id (fun r => (x.inserted d strategy job now).Same r ∨ ended r) w''.session w''.outside)
        (Stored (Only x.id ended)) := by
      refine .bind (((unrecorded _ _).undoTraffic f w' h).mono ?_ ?_ ?_)
      · intro _ w₁ h₁
        refine (first_record h₁ fun r₁ hr₁ =>
          ⟨hr₁.toFixed.trans (r₁.fixed_record ..), rfl⟩).mono (fun _ _ h => h) ?_
          fun _ h => h
        exact fun _ _ h => ⟨h.1, fun r hr => .inr (h.2 r hr)⟩
      · exact fun _ w₁ h₁ => ⟨only_none h₁.1, fun r hr => .inl (h₁.2 r hr)⟩
      · exact fun w₁ h₁ => only_none h₁.1
    refine .handle ((hend.and (.self _ _)).mono ?_ ?_ ?_)
    · exact fun _ _ h r hr => hended r (h.1 r hr)
    · rintro e' w₂ ⟨⟨hs, hss⟩, hrun⟩
      have hstored : Stored (Only x.id (x.StartMove d f strategy job now w)) w₂ := fun r hr => hended r (hs r hr)
      split
      · rename_i he'
        have hnoted : Only x.id (x.StartMove d f strategy job now w) { w₂.session with
            rollouts := w₂.session.rollouts.modify x.id fun r => r.note now "split undo failed" } w₂.outside := by
          refine only_edited (fun r hr => ?_) hss
          refine StartMove.same ?_ (r.same_note now _)
          rcases hr with hr | hr
          · exact .lost hr ⟨e, w', e', w₂, hsplit, he, hrun, he'⟩
          · exact hended r hr
        exact .bind (.modify (commit_ends (fun _ => hnoted) (fun _ _ => hnoted) (fun _ => hstored) fun _ => hstored))
      · exact .raise hstored
    · exact fun _ h r hr => hended r (h.1 r hr)
  · exact .raise (only_none h.1)

theorem start_moves (h₀ : w.stored.rollouts.get? x.id = none) {r : Rollout}
    (hr : ((start d x f strategy job now).after w).stored.rollouts.get? x.id = some r) :
    x.StartMove d f strategy job now w r := by
  suffices hall : Ensures (start d x f strategy job now) w
      (fun _ => Stored (Only x.id (x.StartMove d f strategy job now w)))
      (fun _ => Stored (Only x.id (x.StartMove d f strategy job now w)))
      (Stored (Only x.id (x.StartMove d f strategy job now w))) from (Ensures.after hall) r hr
  refine .bind (.get ?_)
  split
  · exact .raise (only_none h₀)
  split
  · exact .raise (only_none h₀)
  rename_i rollouts hins
  have hget := Table.get?_insert? hins x.id
  rw [if_pos rfl] at hget
  have hopened : x.opened d strategy job now w = { w with session := { w.session with rollouts := rollouts } } := by
    unfold opened
    rw [show w.session.rollouts.insert? x.id (x.inserted d strategy job now) = some rollouts from hins]
    rfl
  have hun : Unrecorded x.id (x.inserted d strategy job now) (x.opened d strategy job now w) := by
    rw [hopened]
    refine ⟨h₀, fun r hr => ?_⟩
    rw [hget] at hr
    cases hr
    exact .refl _
  refine .bind (.modify ?_)
  change Ensures _ { w with session := { w.session with rollouts := rollouts } } _ _ _
  rw [← hopened]
  have hstored : ∀ {w' : World σ}, w'.stored.rollouts.get? x.id = none →
      Stored (Only x.id (x.StartMove d f strategy job now w)) w' := fun h => only_none h
  have hbegin : ∀ w' : World σ, Unrecorded x.id (x.inserted d strategy job now) w' →
    firstPercent d.policy strategy < 100 →
      (0 < firstPercent d.policy strategy → ∃ m, w.session.db.models.get? x.model = some m ∧
        d.ReadBack f.split f.stableTarget f.candidateTarget m.mlflowModelName x.stable x.candidate
          (firstPercent d.policy strategy) w.outside) →
      Ensures (editRollout x.id (fun r => r.record (initialState strategy) now "system"
          (some (firstPercent d.policy strategy)) none (firstDeadline d.policy now strategy)) >>= fun _ => commit f.record) w'
        (fun _ => Stored (Only x.id (x.StartMove d f strategy job now w)))
        (fun _ => Stored (Only x.id (x.StartMove d f strategy job now w)))
        (Stored (Only x.id (x.StartMove d f strategy job now w))) := by
    intro w' h hp hback
    refine (first_record h fun r₁ hr₁ => ?_).mono (fun _ _ h => h) (fun _ _ h => h.1) fun _ h => h
    exact .begun (hr₁.toFixed.trans (r₁.fixed_record ..)) rfl ⟨rfl, hr₁.step⟩ rfl rfl hp hback
  dsimp only
  split
  · rename_i hp
    -- a single canary step: there is nothing to hold
    have hsame : Both (Only x.id ((x.inserted d strategy job now).record (initialState strategy) now "system" none none
        none).Same) { x.opened d strategy job now w with session := { (x.opened d strategy job now w).session with
          rollouts := (x.opened d strategy job now w).session.rollouts.modify x.id fun r =>
            r.record (initialState strategy) now "system" none none none } } := by
      refine ⟨only_none hun.1, only_edited (P := (x.inserted d strategy job now).Same) (fun r hr => ?_) hun.2⟩
      exact ⟨⟨hr.modelId, hr.strategy, hr.stable, hr.candidate, hr.policy⟩, rfl, hr.step, hr.percent, rfl, rfl⟩
    refine .bind (.modify (Ensures.mono (promote_leaves (Q := x.StartMove d f strategy job now w) (fun r' hr' => ?_) hsame
      fun r' hr' hs => ?_) (fun _ _ h => h.1) (fun _ _ h => h.1) fun _ h => h))
    · exact .promoting (((x.inserted d strategy job now).fixed_record ..).trans hr'.toFixed) hr'.state hr'.percent hp
    · exact .ended (((x.inserted d strategy job now).fixed_record ..).trans hr') (hs.symm.imp_right fun h => ⟨h, hp⟩)
  · rename_i hp
    split
    · rename_i hz
      exact hbegin _ hun (Nat.lt_of_not_le hp) fun h => absurd h (by omega)
    · rename_i hz
      refine .bind (.handle (.bind ((((unrecorded _ _).splitTraffic _ _ _ _ _ hun).and (splitTraffic_readBack.and
        (.self _ _))).mono ?_ ?_ ?_)))
      · rintro _ w₁ ⟨h₁, ⟨r₁, m, sv, hr₁, hm, hsv, hback⟩, _⟩
        have hsame := hun.2 r₁ hr₁
        refine .ret (.skipIf (fun h => by cases h) fun _ => hbegin w₁ h₁ (Nat.lt_of_not_le hp) fun _ => ⟨m, ?_, ?_⟩)
        · rw [hsame.modelId, hopened] at hm
          exact hm
        · rw [hsame.candidate, hopened] at hback
          obtain rfl := Option.some.inj (hsv.symm.trans hsame.stable)
          exact hback
      · rintro e w₁ ⟨h₁, _, hrun⟩
        refine .bind ((firstSplitFailed_leaves h₁ hrun).mono ?_ (fun _ _ h => h) fun _ h => h)
        exact fun _ _ h => .ret (.skipIf (fun _ => h) fun h => absurd rfl h)
      · exact fun w₁ h => hstored h.1.1

theorem start_models {models : Table ModelId ModelMetadata} (h : w.stored.db.models = models)
    (h' : w.session.db.models = models) : ((start d x f strategy job now).after w).stored.db.models = models := by
  let J : World σ → Prop := fun w => w.stored.db.models = models ∧ w.session.db.models = models
  have hJ : AcrossCommits J x.id := ⟨⟨fun h h' hs => ⟨h.models.trans hs.1, h'.models.trans hs.2⟩, fun _ _ hs => hs⟩,
    fun hs => ⟨hs.2, hs.2⟩, fun hs => ⟨hs.1, hs.1⟩⟩
  have hedit : ∀ g, Keeps J (editRollout (σ := σ) x.id g) := fun g => .modify fun _ h => h
  have hact : ∀ dec, Keeps J (d.act f x.id now "system" dec) := fun dec => hJ.act (fun _ _ h => h) _ _ _ _
  have hfailed : ∀ e, Keeps J (d.firstSplitFailed f x.id now e) := by
    intro e
    unfold firstSplitFailed
    split
    · refine .handle (hact (.endAs .rolledBack)) fun undo => ?_
      split
      · exact .bind (hedit _) fun _ => hJ.commit _
      · exact .raise _
    · exact .raise _
  have hstart : Keeps J (start d x f strategy job now) := by
    refine .get fun w => ?_
    split
    · exact .raise _
    split
    · exact .raise _
    refine .bind (.modify fun _ h => h) fun _ => ?_
    dsimp only
    split
    · exact .bind (hedit _) fun _ => hact .promote
    · split
      · exact .bind (hedit _) fun _ => hJ.commit _
      · refine .bind (.handle (.bind (hJ.splitTraffic _ _ _ _) fun _ => .ret _) fun e => ?_) fun _ => ?_
        · exact .bind (hfailed e) fun _ => .ret _
        · exact .skipIf fun _ => .bind (hedit _) fun _ => hJ.commit _
  exact (hstart.after ⟨h, h'⟩).1

end

end Subject

end OranAdapt
