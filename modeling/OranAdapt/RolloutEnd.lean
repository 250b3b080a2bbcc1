import OranAdapt.RolloutCalls

/-!
# A rollout's end and LIVE

A promotion and the rollout's record are separate transactions over the
database, the registry and the serving system. Before its promotion is
recorded a rollout is on its stable version; once it is recorded the model is
on the candidate. A run keeps the record of a rollout's end in agreement with
LIVE and with what serves, as long as a promotion that fails is undone, and a
rollout whose promotion stands is not ended or split again.
-/

namespace OranAdapt

open Effects World Outside Delivery

/-- The rollout a run is about: its model, the model's name in the registry,
and its two versions. A candidate is a newly registered version. -/
structure Subject where
  id : RolloutId
  model : ModelId
  name : String
  stable : Version
  candidate : Version
  differ : stable ≠ candidate

namespace Subject

variable {σ : Type} (d : Delivery σ) (x : Subject)

def recorded (s : Records) : Option ModelPromotion :=
  s.promotions.find? fun row => row.idempotencyKey = some (promoteKey x.id)

structure OnStable (s : Records) (o : Outside σ) : Prop where
  row : x.recorded s = none
  live : o.live x.name d.settings.liveAlias = some x.stable

structure OnCandidate (s : Records) (o : Outside σ) : Prop where
  row : ∃ row, x.recorded s = some row ∧ row.status = .applied ∧ row.toVersion = x.candidate
  live : o.live x.name d.settings.liveAlias = some x.candidate
  served : d.port.served o x.name = some x.candidate

/-- The stable version serves, or there is a split that an undo will find:
recorded on the rollout, or visible in the serving system. -/
structure Accounted (r : Rollout) (o : Outside σ) : Prop where
  splits : 0 < r.percent → d.port.splitsTraffic = true
  served : d.port.served o x.name = some x.stable ∨ 0 < r.percent ∨
    d.port.splitsTraffic = true ∧ (d.port.splitTo o x.name).isSome

structure Row (s : Records) (o : Outside σ) (r : Rollout) : Prop where
  get : s.rollouts.get? x.id = some r
  model : r.modelId = x.model
  stable : r.stableVersion = some x.stable
  candidate : r.candidateVersion = x.candidate
  named : ∀ m, s.db.models.get? x.model = some m → m.mlflowModelName = x.name
  registered : (o.registry.versions x.name x.stable).isSome

structure Open (s : Records) (o : Outside σ) (r : Rollout) : Prop extends x.Row s o r where
  active : r.state.active = true
  onStable : x.OnStable d s o
  accounted : x.Accounted d r o

/-- Active, and promoted: only the record of the end is missing. -/
structure Moved (s : Records) (o : Outside σ) (r : Rollout) : Prop extends x.Row s o r where
  active : r.state.active = true
  onCandidate : x.OnCandidate d s o

def Pending (s : Records) (o : Outside σ) : Prop := s.rollouts.get? x.id = none ∨ ∃ r, x.Open d s o r

/-- The rollout's record, if there is one, agrees with LIVE and with what serves. -/
inductive Sound (s : Records) (o : Outside σ) : Prop where
  | absent (h : s.rollouts.get? x.id = none)
  | opened (r : Rollout) (h : x.Open d s o r)
  | moved (r : Rollout) (h : x.Moved d s o r)
  | withdrawn (r : Rollout) (row : x.Row s o r) (hs : r.state.withdrawn = true) (h : x.OnStable d s o)
      (served : d.port.served o x.name = some x.stable)
  | promoted (r : Rollout) (row : x.Row s o r) (hs : r.state = .promoted) (h : x.OnCandidate d s o)

/-- So do the committed records and the session's. -/
def Fine : World σ → Prop := Both (x.Sound d)

/-- What is left when the process stops. -/
def Safe : World σ → Prop := Stored (x.Sound d)

/-- Whatever is recorded, an open rollout stays open. -/
def KeepsOpen (o o' : Outside σ) : Prop := ∀ s r, x.Open d s o r → x.Open d s o' r

/-- And a promoted one stays promoted. -/
def KeepsMoved (o o' : Outside σ) : Prop := ∀ s r, x.Moved d s o r → x.Moved d s o' r

/-! ## Records that say the same -/

section
variable {d x} {s s' : Records} {o : Outside σ} {r r' : Rollout}

theorem Row.of_row (h : x.Row s o r) (hg : s'.rollouts.get? x.id = some r') (hm : r'.modelId = r.modelId)
    (hst : r'.stableVersion = r.stableVersion) (hc : r'.candidateVersion = r.candidateVersion)
    (hd : s'.db.models = s.db.models) : x.Row s' o r' :=
  ⟨hg, hm.trans h.model, hst.trans h.stable, hc.trans h.candidate, fun m => by rw [hd]; exact h.named m, h.registered⟩

theorem OnStable.of_promotions (h : x.OnStable d s o) (hp : s'.promotions = s.promotions) : x.OnStable d s' o :=
  ⟨by unfold recorded; rw [hp]; exact h.row, h.live⟩

theorem OnCandidate.of_promotions (h : x.OnCandidate d s o) (hp : s'.promotions = s.promotions) :
    x.OnCandidate d s' o :=
  ⟨by unfold recorded; rw [hp]; exact h.row, h.live, h.served⟩

theorem Sound.of_same (h : x.Sound d s o) (hr : s'.rollouts = s.rollouts) (hp : s'.promotions = s.promotions)
    (hd : s'.db.models = s.db.models) : x.Sound d s' o := by
  have hrow : ∀ {r}, x.Row s o r → x.Row s' o r := fun h => h.of_row (by rw [hr]; exact h.get) rfl rfl rfl hd
  cases h with
  | absent h => exact .absent (by rw [hr]; exact h)
  | opened r h => exact .opened r ⟨hrow h.toRow, h.active, h.onStable.of_promotions hp, h.accounted⟩
  | moved r h => exact .moved r ⟨hrow h.toRow, h.active, h.onCandidate.of_promotions hp⟩
  | withdrawn r row hs h hv => exact .withdrawn r (hrow row) hs (h.of_promotions hp) hv
  | promoted r row hs h => exact .promoted r (hrow row) hs (h.of_promotions hp)

theorem get?_edited (hg : s.rollouts.get? x.id = some r) (g : Rollout → Rollout) :
    ({ s with rollouts := s.rollouts.modify x.id g } : Records).rollouts.get? x.id = some (g r) := by
  simp [hg]

theorem Row.edited (h : x.Row s o r) (g : Rollout → Rollout) (hm : (g r).modelId = r.modelId)
    (hst : (g r).stableVersion = r.stableVersion) (hc : (g r).candidateVersion = r.candidateVersion) :
    x.Row { s with rollouts := s.rollouts.modify x.id g } o (g r) :=
  h.of_row (get?_edited h.get g) hm hst hc rfl

theorem Open.edited (h : x.Open d s o r) (g : Rollout → Rollout) (hm : (g r).modelId = r.modelId)
    (hst : (g r).stableVersion = r.stableVersion) (hc : (g r).candidateVersion = r.candidateVersion)
    (ha : (g r).state.active = true) (hacc : x.Accounted d (g r) o) :
    x.Open d { s with rollouts := s.rollouts.modify x.id g } o (g r) :=
  ⟨h.toRow.edited g hm hst hc, ha, h.onStable.of_promotions rfl, hacc⟩

theorem Moved.edited (h : x.Moved d s o r) (g : Rollout → Rollout) (hm : (g r).modelId = r.modelId)
    (hst : (g r).stableVersion = r.stableVersion) (hc : (g r).candidateVersion = r.candidateVersion)
    (ha : (g r).state.active = true) : x.Moved d { s with rollouts := s.rollouts.modify x.id g } o (g r) :=
  ⟨h.toRow.edited g hm hst hc, ha, h.onCandidate.of_promotions rfl⟩

end

/-! ## Traffic -/

section
variable {d x} {o o' : Outside σ} {w : World σ} {r : Rollout}

theorem Row.kept {s : Records} (h : x.Row s o r)
    (kept : ∀ n v, (o.registry.versions n v).isSome → (o'.registry.versions n v).isSome) : x.Row s o' r :=
  ⟨h.get, h.model, h.stable, h.candidate, h.named, kept _ _ h.registered⟩

theorem keepsOpen_of_split {c : Option DeploymentTarget} (hs : d.port.splitsTraffic = true)
    (hm : o.Moved o' x.name d.settings.liveAlias (some x.stable)) (hl : d.port.SplitLeft x.name x.stable c o o') :
    x.KeepsOpen d o o' := by
  intro s r h
  have hlive : o'.live x.name d.settings.liveAlias = some x.stable := by
    rcases hm.live with hl | hl
    · rw [hl, h.onStable.live]
    · exact hl
  refine ⟨h.toRow.kept hm.kept, h.active, ⟨h.onStable.row, hlive⟩, h.accounted.splits, ?_⟩
  rcases hl with hl | ⟨-, hl⟩ | ⟨hl, hl'⟩
  · exact .inl hl
  · exact .inr (.inr ⟨hs, hl⟩)
  · rw [hl, hl']; exact h.accounted.served

theorem keepsMoved_of_split (hm : o.Moved o' x.name d.settings.liveAlias (some x.candidate))
    (hl : d.port.SplitLeft x.name x.candidate none o o') : x.KeepsMoved d o o' := by
  intro s r h
  refine ⟨h.toRow.kept hm.kept, h.active, h.onCandidate.row, ?_, ?_⟩
  · rcases hm.live with hl | hl
    · rw [hl, h.onCandidate.live]
    · exact hl
  · rcases hl with hl | ⟨hc, -⟩ | ⟨hl, -⟩
    · exact hl
    · cases hc
    · rw [hl, h.onCandidate.served]

theorem Row.nameOf {s : Records} (h : x.Row s o r) (m : ModelMetadata) (hm : s.db.models.get? r.modelId = some m) :
    m.mlflowModelName = x.name := by
  rw [h.model] at hm
  exact h.named m hm

theorem Row.nameOf_ends (h : x.Row w.session o r) {D : String → World σ → Prop}
    {R : AdaptationError → World σ → Prop} {S : World σ → Prop} (hD : D x.name w) (hR : ∀ e, R e w) :
    Ensures (Delivery.nameOf r.modelId) w D R S := by
  refine OranAdapt.nameOf_ends (fun m hm => ?_) hR
  rw [h.nameOf m hm]
  exact hD

def SplitDone (d : Delivery σ) (x : Subject) (w w' : World σ) : Prop :=
  ∃ o', w' = { w with outside := o' } ∧ x.KeepsOpen d w.outside o'

theorem SplitDone.refl (w : World σ) : SplitDone d x w w := ⟨w.outside, rfl, fun _ _ h => h⟩

variable (hP : d.port.Lawful d.settings.liveAlias)

theorem SplitDone.of_moved {w' : World σ} (h : TrafficMoved d x.name r w w') (hst : r.stableVersion = some x.stable) :
    SplitDone d x w w' := by
  cases h with
  | same => exact .refl w
  | moved sv c o' stable splits hm hl =>
    obtain rfl := Option.some.inj (hst.symm.trans stable)
    exact ⟨o', rfl, keepsOpen_of_split splits hm hl⟩

include hP in
theorem splitTraffic_ends {f : SplitAnswers} {ft fc : Answer} {percent : Nat} (h : x.Open d w.session w.outside r) :
    Ensures (d.splitTraffic f ft fc x.id percent) w
      (fun _ w' => SplitDone d x w w' ∧ d.port.splitsTraffic = true ∧
        (percent = 0 → d.port.served w'.outside x.name = some x.stable))
      (fun _ w' => SplitDone d x w w') (fun w' => SplitDone d x w w') := by
  refine (OranAdapt.splitTraffic_ends hP h.get h.toRow.nameOf).mono ?_ ?_ ?_
  · exact fun _ w' ⟨hm, hs, hv⟩ => ⟨.of_moved hm h.stable, hs, fun hp => (hv hp).1.trans h.stable⟩
  · exact fun _ w' hm => .of_moved hm h.stable
  · exact fun w' hm => .of_moved hm h.stable

include hP in
theorem undoTraffic_ends {f : ControllerAnswers} (h : x.Open d w.session w.outside r) :
    Ensures (d.undoTraffic f x.id) w
      (fun _ w' => SplitDone d x w w' ∧ d.port.served w'.outside x.name = some x.stable)
      (fun _ w' => SplitDone d x w w') (fun w' => SplitDone d x w w') := by
  have hsplit : Ensures (d.splitTraffic f.undo f.undoTarget .ok x.id 0) w
      (fun _ w' => SplitDone d x w w' ∧ d.port.served w'.outside x.name = some x.stable)
      (fun _ w' => SplitDone d x w w') (fun w' => SplitDone d x w w') :=
    (splitTraffic_ends hP h).mono (fun _ _ h => ⟨h.1, h.2.2 rfl⟩) (fun _ _ h => h) (fun _ h => h)
  refine .bind (getRollout_ends h.get ?_)
  split
  · rename_i hno
    refine .ret ⟨.refl w, ?_⟩
    rcases hno with hno | hno
    · rcases h.accounted.served with hv | hv | hv
      · exact hv
      · rw [h.accounted.splits hv] at hno; cases hno
      · rw [hv.1] at hno; cases hno
    · rw [h.stable] at hno; cases hno
  · split
    · exact hsplit
    · rename_i hp
      refine .bind (h.toRow.nameOf_ends ?_ fun _ => .refl w)
      refine .bind (reach_ends ((hP.traffic f.traffic x.name w.outside).mono ?_ ?_ ?_))
      · rintro t _ ⟨rfl, ht⟩
        refine .skipIf (fun hn => ⟨.refl w, ?_⟩) fun _ => hsplit
        rcases h.accounted.served with hv | hv | hv
        · exact hv
        · exact absurd hv hp
        · rw [← ht, hn] at hv; cases hv.2
      · rintro _ _ rfl
        exact .refl w
      · rintro _ rfl
        exact .refl w

/-! ## Ending and promoting -/

theorem Pending.sound {s : Records} (h : x.Pending d s o) : x.Sound d s o := by
  rcases h with h | ⟨r, h⟩
  · exact .absent h
  · exact .opened r h

theorem Pending.kept {s : Records} (h : x.Pending d s o) (hk : x.KeepsOpen d o o') : x.Pending d s o' :=
  h.imp (fun h => h) fun ⟨r, h⟩ => ⟨r, hk _ _ h⟩

theorem SplitDone.safe {w' : World σ} (h : SplitDone d x w w') (h₀ : x.Pending d w.stored w.outside) :
    x.Safe d w' := by
  obtain ⟨o', rfl, hk⟩ := h
  exact (h₀.kept hk).sound

theorem SplitDone.fine {w' : World σ} (h : SplitDone d x w w') (h₀ : x.Pending d w.stored w.outside)
    (h₁ : x.Open d w.session w.outside r) : x.Fine d w' := by
  obtain ⟨o', rfl, hk⟩ := h
  exact ⟨(h₀.kept hk).sound, .opened r (hk _ _ h₁)⟩

include hP in
theorem endWithoutPromotion_ends {f : ControllerAnswers} {to_ : RolloutState} (hto : to_.withdrawn = true) {now : Time}
    {actor : String} (h₀ : x.Pending d w.stored w.outside) (h : x.Open d w.session w.outside r) :
    Ensures (d.endWithoutPromotion f x.id to_ now actor) w (fun _ => x.Fine d) (fun _ => x.Fine d) (x.Safe d) := by
  refine .bind ((undoTraffic_ends hP h).mono ?_ (fun _ _ h' => h'.fine h₀ h) (fun _ h' => h'.safe h₀))
  rintro _ _ ⟨⟨o', rfl, hk⟩, hv⟩
  have h₁ := hk _ _ h
  refine .bind (.modify (commit_both ⟨(h₀.kept hk).sound, ?_⟩))
  exact .withdrawn _ (h₁.toRow.edited _ rfl rfl rfl) hto (h₁.onStable.of_promotions rfl) hv

/-- The rollout is promoted in the committed records and in the session's. -/
def BothMoved (d : Delivery σ) (x : Subject) (w : World σ) : Prop :=
  (∃ r, x.Moved d w.stored w.outside r) ∧ ∃ r, x.Moved d w.session w.outside r

theorem BothMoved.fine (h : BothMoved d x w) : x.Fine d w :=
  ⟨.moved _ h.1.choose_spec, .moved _ h.2.choose_spec⟩

theorem BothMoved.within {o' : Outside σ} (h : BothMoved d x w) (hk : x.KeepsMoved d w.outside o') :
    BothMoved d x { w with outside := o' } :=
  ⟨h.1.imp fun _ h => hk _ _ h, h.2.imp fun _ h => hk _ _ h⟩

include hP in
theorem clearSplit_ends {f : ControllerAnswers} {now : Time} (h : BothMoved d x w) :
    Ensures (d.clearSplit f x.id now) w (fun _ => BothMoved d x) (fun _ => x.Fine d) (x.Safe d) := by
  obtain ⟨r, hr⟩ := h.2
  refine .bind (getRollout_ends hr.get (.skipIf (fun _ => h) fun _ => ?_))
  refine .bind (hr.toRow.nameOf_ends ?_ fun _ => h.fine)
  rw [hr.candidate]
  refine .bind (reach_ends (target_ends.mono ?_ ?_ ?_))
  · rintro live _ ⟨rfl, hlive⟩
    rw [hlive]
    refine .handle (reach_ends ((Deployer.split_ends hP).mono ?_ ?_ ?_))
    · intro _ o' ⟨_, hm, hl, _⟩
      exact h.within (keepsMoved_of_split hm hl)
    · intro e o' ⟨hm, hl, _⟩
      have h' := h.within (keepsMoved_of_split hm hl)
      split
      · refine .modify ⟨h'.1, ?_⟩
        obtain ⟨r', hr'⟩ := h'.2
        exact ⟨_, hr'.edited _ rfl rfl rfl hr'.active⟩
      · exact .raise h'.fine
    · intro o' ⟨hm, hl, _⟩
      exact (h.within (keepsMoved_of_split hm hl)).fine.1
  · rintro _ _ rfl
    exact h.fine
  · rintro _ rfl
    exact h.fine.1

include hP in
theorem finishPromotion_ends {f : ControllerAnswers} {now : Time} {actor : String} (h : BothMoved d x w) :
    Ensures (d.finishPromotion f x.id now actor) w (fun _ => x.Fine d) (fun _ => x.Fine d) (x.Safe d) := by
  refine .bind ((clearSplit_ends hP h).mono ?_ (fun _ _ h => h) (fun _ h => h))
  intro _ w' h'
  obtain ⟨r, hr⟩ := h'.2
  refine .bind (.modify (commit_both ⟨h'.fine.1, ?_⟩))
  exact .promoted _ (hr.toRow.edited _ rfl rfl rfl) rfl (hr.onCandidate.of_promotions rfl)

theorem moved_of_applied {s : Records} {o : Outside σ} {row : ModelPromotion} (h : x.Open d s o r)
    (hs : row.status = .applied) (hv : row.toVersion = x.candidate) (hk : row.idempotencyKey = some (promoteKey x.id))
    (ha : d.Applied x.name x.candidate row o s w) : BothMoved d x w := by
  have hm : x.Moved d { s with promotions := s.promotions ++ [row] } w.outside r := by
    refine ⟨(h.toRow.kept ha.kept).of_row h.get rfl rfl rfl rfl, h.active, ⟨row, ?_, hs, hv⟩, ha.live, ha.served⟩
    have hnone := h.onStable.row
    unfold recorded at hnone ⊢
    rw [List.find?_append, hnone]
    simp [hk]
  exact ⟨⟨r, ha.stored ▸ hm⟩, ⟨r, ha.session ▸ hm⟩⟩

theorem open_of_restored {s : Records} {o o' : Outside σ} (h : x.Open d s o r)
    (hserved : r.percent = 0 → d.port.served o x.name = some x.stable) (hr : d.Restored x.name x.stable o o') :
    x.Open d s o' r := by
  refine ⟨h.toRow.kept hr.kept, h.active, ⟨h.onStable.row, hr.live⟩, h.accounted.splits, ?_⟩
  rcases Nat.eq_zero_or_pos r.percent with hp | hp
  · left
    have hv := hserved hp
    rcases hr.served fun v hv' => by rw [hv] at hv'; cases hv'; exact h.registered with h' | h'
    · rw [h', hv]
    · exact h'
  · exact .inr (.inl hp)

/-- What a promotion needs: the rollout's promotion stands already, or a
failed one will be undone. -/
inductive Promotable (d : Delivery σ) (x : Subject) (f : ControllerAnswers) (w : World σ) : Prop where
  | moved (h : BothMoved d x w)
  | opened (r : Rollout) (h₀ : x.Pending d w.stored w.outside) (h : x.Open d w.session w.outside r)
      (works : MoveWorks f.promote) (served : r.percent = 0 → d.port.served w.outside x.name = some x.stable)

theorem Promotable.fine {f : ControllerAnswers} (h : Promotable d x f w) : x.Fine d w := by
  cases h with
  | moved h => exact h.fine
  | opened r h₀ h => exact ⟨h₀.sound, .opened _ h⟩

include hP in
theorem promote_ends {f : ControllerAnswers} {now : Time} {actor : String} (h : Promotable d x f w) :
    Ensures (d.promote f x.id now actor) w (fun _ => x.Fine d) (fun _ => x.Fine d) (x.Safe d) := by
  refine .bind (commit_ends (fun _ => ?_) (fun _ _ => ⟨h.fine.2, h.fine.2⟩) (fun _ => h.fine) (fun _ => h.fine.1))
  cases h with
  | moved h =>
    obtain ⟨r, hr⟩ := h.2
    obtain ⟨row, hrow, -⟩ := hr.onCandidate.row
    refine .bind (getRollout_ends (w := { w with stored := w.session }) hr.get ?_)
    refine .bind (.handle (.bind (promoteVersion_earlier (q := promotionRequest x.id r actor)
      (w := { w with stored := w.session }) ((promotionRequest_earlier ..).trans hrow) ?_)))
    exact .ret (.skipIf (fun h => by cases h) fun _ => finishPromotion_ends hP ⟨h.2, h.2⟩)
  | opened r h₀ h works served =>
    have hversion : (promotionRequest x.id r actor).version = x.candidate := h.candidate
    have hname : ∀ m, w.session.db.models.get? (promotionRequest x.id r actor).modelId = some m →
        m.mlflowModelName = x.name := by
      intro m hm
      rw [show (promotionRequest x.id r actor).modelId = x.model from h.model] at hm
      exact h.named m hm
    refine .bind (getRollout_ends (w := { w with stored := w.session }) h.get ?_)
    refine .bind (.handle (.bind ((promoteVersion_ends hP works (w := { w with stored := w.session }) rfl hname
      ((promotionRequest_earlier ..).trans h.onStable.row) h.onStable.live h.stable
        (by rw [hversion]; exact x.differ)).mono ?_ ?_ ?_)))
    · rintro row w' ⟨⟨-, hs, hv, hk⟩, ha⟩
      rw [hversion] at ha hv
      exact .ret (.skipIf (fun h => by cases h) fun _ =>
        finishPromotion_ends hP (moved_of_applied h hs hv hk ha))
    · intro e w' hu
      have ho := open_of_restored h served hu.outside
      split
      · refine .bind (.modify (.bind ((endWithoutPromotion_ends hP rfl (r := r) (.inr ⟨r, ?_⟩) ?_).mono ?_
          (fun _ _ h => h) (fun _ h => h))))
        · exact hu.stored ▸ ho
        · exact hu.stored ▸ ho
        · intro _ w'' hf
          exact .ret (.skipIf (fun _ => hf) fun h => absurd rfl h)
      · exact .raise ⟨.opened r (hu.stored ▸ ho), .opened r (hu.session ▸ ho)⟩
    · intro w' hh
      exact .opened r (hh.1 ▸ open_of_restored h served hh.2)

end

end Subject

end OranAdapt
