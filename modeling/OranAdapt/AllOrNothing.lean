import OranAdapt.Promotion
import OranAdapt.Restoring
import OranAdapt.RolloutRuns

/-!
# A promotion is all or nothing

A promotion that raises puts back LIVE, what serves, the split, the versions'
status and the history, unless the alias write or the commit took effect and
raised, a status tag was already written, or a split was dropped on the way.
-/

namespace OranAdapt

open Effects World Outside

structure PromotionRequest.IsRow (q : PromotionRequest) (row : ModelPromotion) : Prop where
  modelId : row.modelId = q.modelId
  kind : row.kind = q.kind
  toVersion : row.toVersion = q.version
  actor : row.actor = q.actor
  jobId : row.jobId = q.jobId
  idempotencyKey : row.idempotencyKey = q.idempotencyKey

/-- Neither the write of LIVE nor a commit takes effect and raises. -/
structure PromoteAnswers.Sharp (f : PromoteAnswers) : Prop where
  setLive : ∀ e, f.setLive ≠ .after e
  commit : ∀ e, f.commit ≠ .after e
  commitNoChange : ∀ e, f.commitNoChange ≠ .after e

namespace Delivery

variable {σ : Type} (d : Delivery σ)

/-- A move that is about to set LIVE: its row is flushed and `before` is what
serves. -/
structure Move where
  name : String
  target : DeploymentTarget
  previous : Option Version
  before : Option DeploymentTarget
  row : ModelPromotion

def approach (f : PromoteAnswers) (q : PromotionRequest) : WorldAct σ (ModelPromotion ⊕ Move) := do
  let w ← .get
  match q.earlier w.session with
  | some earlier => pure (.inl earlier)
  | none => do
    let model ← modelMeta q.modelId
    let name := model.mlflowModelName
    let previous ← reach (ofRegistry (Registry.alias? f.live name d.settings.liveAlias))
    if q.expectedLive ≠ none ∧ previous ≠ q.expectedLive then
      .raise ⟨.conflict, "LIVE moved since this promotion was planned", [("model_id", .str q.modelId),
        ("expected_live", .ofOption q.expectedLive), ("actual_live", .ofOption previous)]⟩
    else if previous = some q.version then do
      let row : ModelPromotion := ⟨q.modelId, q.kind, previous, q.version, .noChange,
        if q.reason = "" then s!"version {q.version} is already live" else q.reason, q.actor, q.jobId,
        q.idempotencyKey, none⟩
      edit fun s => { s with promotions := s.promotions ++ [row] }
      commit f.commitNoChange
      pure (.inl row)
    else do
      let digest ← reach (ofRegistry (d.verifyVersionArtifact f.verify name q.version))
      let info ← reach (ofRegistry (Registry.getVersion f.source name q.version))
      let row : ModelPromotion := ⟨q.modelId, q.kind, previous, q.version, .applied, q.reason, q.actor, q.jobId,
        q.idempotencyKey, some digest⟩
      let before ← (d.stageRow f name row).handle (d.moveFailed f name q.version previous none {})
      pure (.inr ⟨name, ⟨name, q.version, info.source⟩, previous, before, row⟩)

def carryOn (f : PromoteAnswers) (m : Move) : WorldAct σ ModelPromotion := do
  (reach (ofRegistry (Registry.setAlias f.setLive m.name d.settings.liveAlias m.target.version))).handle
    (d.moveFailed f m.name m.target.version m.previous m.before {})
  d.movedTo f m.name m.target m.previous m.before m.row

theorem promoteVersion_eq (f : PromoteAnswers) (q : PromotionRequest) : d.promoteVersion f q =
    d.approach f q >>= fun
      | .inl row => pure row
      | .inr m => d.carryOn f m := by
  unfold promoteVersion approach moveTo applyMove carryOn
  rw [bind_assoc]
  refine bind_congr fun w => ?_
  cases q.earlier w.session with
  | some earlier => rfl
  | none =>
    dsimp only
    rw [bind_assoc]
    refine bind_congr fun model => ?_
    simp only [bind_assoc]
    refine bind_congr fun previous => ?_
    by_cases hc : q.expectedLive ≠ none ∧ previous ≠ q.expectedLive
    · rw [if_pos hc, if_pos hc]
      rfl
    · rw [if_neg hc, if_neg hc]
      by_cases hp : previous = some q.version
      · rw [if_pos hp, if_pos hp]
        simp only [bind_assoc, pure_bind]
      · rw [if_neg hp, if_neg hp]
        simp only [bind_assoc, pure_bind]

/-! ## What is left -/

/-- What a promotion that raises has to leave as it was. -/
structure Intact (split : Outside σ → String → TrafficSplit) (name : String) (o o' : Outside σ) : Prop where
  live : o'.live name d.settings.liveAlias = o.live name d.settings.liveAlias
  status : ∀ n v, o'.tag d.settings.registryTagsStatus n v = o.tag d.settings.registryTagsStatus n v
  served : d.port.served o' name = d.port.served o name
  split : split o' name = split o name

structure SameHistory (name : String) (w w' : World σ) : Prop where
  history : w'.stored.promotions = w.stored.promotions
  live : w'.outside.live name d.settings.liveAlias = w.outside.live name d.settings.liveAlias

structure Unchanged (split : Outside σ → String → TrafficSplit) (q : PromotionRequest) (w w' : World σ) : Prop where
  history : w'.stored.promotions = w.stored.promotions
  intact : ∀ m, w.session.db.models.get? q.modelId = some m → d.Intact split m.mlflowModelName w.outside w'.outside

def TargetReadBack (d : Delivery σ) (polls : List Poll) (name : String) (version : Version) (o : Outside σ) : Prop :=
  ∃ p ∈ polls, ∃ st, d.port.status p name o = (.done st, o) ∧ st.ready = true ∧ st.version = some version

/-- The promotion is applied: its row is the last, the version is LIVE, was read
back ready, and is tagged so. -/
structure Settled (f : PromoteAnswers) (q : PromotionRequest) (name : String) (row : ModelPromotion) (w w' : World σ) :
    Prop where
  recorded : q.IsRow row
  applied : row.status = .applied ∧ row.fromVersion = w.outside.live name d.settings.liveAlias
  expected : q.expectedLive = none ∨ w.outside.live name d.settings.liveAlias = q.expectedLive
  latest : w'.stored.promotions = w.session.promotions ++ [row]
  live : w'.outside.live name d.settings.liveAlias = some q.version
  served : d.port.served w'.outside name = some q.version
  readBack : ∃ o, Outside.Retagged o w'.outside ∧ TargetReadBack d f.rollout.polls name q.version o
  tagged : w'.outside.tag d.settings.registryTagsStatus name q.version = some "LIVE"
  archived : ∀ p, w.outside.live name d.settings.liveAlias = some p →
    w'.outside.tag d.settings.registryTagsStatus name p = some "ARCHIVED"

def RolledOut (f : PromoteAnswers) (m : Move) (o₁ o₃ : Outside σ) : Prop :=
  ∃ o₂, ofRegistry (Registry.setAlias f.setLive m.name d.settings.liveAlias m.target.version) o₁ = (.done (), o₂) ∧
    f.liveReadBack = .ok ∧ Deployer.rollout d.port f.rollout m.target m.before o₂ = (.done (), o₃)

def takesEffect : Answer → Bool
  | .ok | .after _ => true
  | .before _ | .stop => false

/-- What a move that raises cannot put back. `o` is the outside before the
promotion, `o₁` the one in which it sets LIVE. -/
inductive SpoilsMove {κ : Type} (canary : Outside σ → String → Option κ) (drops : Bool) (f : PromoteAnswers) (m : Move)
    (o o₁ : Outside σ) : Prop where
  /-- the alias write took effect and raised -/
  | aliased (e : PortError) (set : f.setLive = .after e)
  /-- there was a split, and rolling out or reverting drops it -/
  | split (set : f.setLive = .ok) (readBack : f.liveReadBack = .ok) (drops : drops = true)
      (placed : (canary o m.name).isSome)
  /-- the version was tagged LIVE, and was not before -/
  | tagged (o₃ : Outside σ) (out : d.RolledOut f m o₁ o₃) (tag : takesEffect f.tagLive = true)
      (was : o.tag d.settings.registryTagsStatus m.name m.target.version ≠ some "LIVE")
  /-- the previous one was tagged ARCHIVED, and was not before -/
  | archived (o₃ : Outside σ) (out : d.RolledOut f m o₁ o₃) (p : Version) (previous : m.previous = some p)
      (tagLive : f.tagLive = .ok) (tag : takesEffect f.tagArchived = true)
      (was : o.tag d.settings.registryTagsStatus m.name p ≠ some "ARCHIVED")
  /-- the commit took effect and raised -/
  | committed (o₃ : Outside σ) (out : d.RolledOut f m o₁ o₃) (tagLive : f.tagLive = .ok)
      (tagArchived : m.previous = none ∨ f.tagArchived = .ok) (e : AdaptationError) (commit : f.commit = .after e)

/-- The version is live already, and the commit of that row takes effect and raises. -/
structure IdleCommitted (f : PromoteAnswers) (q : PromotionRequest) (w : World σ) (m : ModelMetadata) (e : AdaptationError) :
    Prop where
  earlier : q.earlier w.session = none
  model : w.session.db.models.get? q.modelId = some m
  live : ofRegistry (Registry.alias? f.live m.mlflowModelName d.settings.liveAlias) w.outside =
    (.done (some q.version), w.outside)
  expected : q.expectedLive = none ∨ q.expectedLive = some q.version
  commit : f.commitNoChange = .after e

/-- What a promotion that raises cannot put back. -/
inductive Spoils {κ : Type} (canary : Outside σ → String → Option κ) (drops : Bool) (f : PromoteAnswers)
    (q : PromotionRequest) (w : World σ) : Prop where
  | idle (m : ModelMetadata) (e : AdaptationError) (h : d.IdleCommitted f q w m e)
  | move (m : Move) (w₁ : World σ) (reached : d.approach f q w = (.done (.inr m), w₁))
      (spoils : d.SpoilsMove canary drops f m w.outside w₁.outside)

/-- The calls that restore succeed. -/
structure RestoringWorks (f : PromoteAnswers) : Prop where
  rollout : ∀ i, f.rollout.revert.restore i = .ok
  revert : ∀ i, f.revert.restore i = .ok
  live : f.restoreLive = .ok

/-! ## Before LIVE is set -/

section
variable {d} {κ : Type} {split : Outside σ → String → TrafficSplit}
  {canary : Outside σ → String → Option κ} {drops : Bool}
  (hP : d.port.Restores d.settings split canary drops) (ht : TagsApart d.settings) {f : PromoteAnswers}
  {q : PromotionRequest} {name : String} {version : Version} {o o' o'' : Outside σ} {w w' : World σ} {m : Move}

/-- Nothing that counts is different yet. -/
structure Calm (d : Delivery σ) (canary : Outside σ → String → Option κ) (name : String)
    (o o' : Outside σ) : Prop where
  registered : Registered o o'
  live : o'.live name d.settings.liveAlias = o.live name d.settings.liveAlias
  status : ∀ n v, o'.tag d.settings.registryTagsStatus n v = o.tag d.settings.registryTagsStatus n v
  served : d.port.served o' name = d.port.served o name
  canary : canary o' name = canary o name

theorem Calm.refl (o : Outside σ) : Calm d canary name o o := ⟨fun _ _ h => h, rfl, fun _ _ => rfl, rfl, rfl⟩

include hP in
theorem Calm.intact (h : Calm d canary name o o') : d.Intact split name o o' :=
  ⟨h.live, h.status, h.served, hP.split_congr h.served h.canary⟩

include hP ht in
theorem calm_checksum (value : String) : Calm d canary name o
    { o with registry := o.registry.withTag name version d.settings.registryTagsChecksum value } := by
  have hr : Outside.Retagged o { o with registry := o.registry.withTag name version d.settings.registryTagsChecksum value } :=
    ⟨Registry.retagged_withTag name version o.registry d.settings.registryTagsChecksum value, rfl⟩
  refine ⟨hr.registry.kept, rfl, fun n v => ?_, hP.served_retagged hr name, hP.canary_tagged _ _ _ _ _ _ (.inr rfl)⟩
  exact tag_withTag_ne ht.checksum.symm version n v

include hP ht in
theorem verify_calm {g : VerifyAnswers} : Ensures (ofRegistry (d.verifyVersionArtifact g name version)) o
    (fun _ o' => Calm d canary name o o') (fun _ o' => Calm d canary name o o') (fun _ => True) := by
  have hsame : Calm d canary name o { o with registry := o.registry } := .refl o
  refine .within (.bind (Registry.getVersion_ends.mono ?_ ?_ fun _ _ => trivial))
  · rintro i _ ⟨rfl, hi⟩
    refine .bind (Registry.downloadArtifacts_ends.mono ?_ ?_ fun _ _ => trivial)
    · rintro ⟨size, digest⟩ _ rfl
      dsimp only
      split
      · exact .raise hsame
      · split
        · split
          · exact .ret hsame
          · exact .raise hsame
        · refine .bind (ask_ends (fun _ r h => ?_) (fun _ _ => hsame) (fun _ _ => hsame) fun _ => trivial)
          split at h
          · cases h
            have hcalm : Calm d canary name o
                { o with registry := o.registry.withTag name version d.settings.registryTagsChecksum digest } :=
              calm_checksum hP ht digest
            exact ⟨fun _ => .ret hcalm, fun _ _ => hcalm⟩
          · cases h
    · rintro _ _ rfl
      exact hsame
  · rintro _ _ rfl
    exact hsame

theorem failMove_leaves {α : Type} {previous : Option Version} {exc : AdaptationError} (hw : w.session = w.stored)
    {D : α → World σ → Prop} : Ensures (failMove f version previous exc) w D
      (fun _ w' => w'.stored = w.stored ∧ w'.outside = w.outside) (fun _ => True) := by
  have haudit : Ensures ((commit f.audit).handle fun _ => rollback) w
      (fun _ w' => w'.stored = w.stored ∧ w'.outside = w.outside) (fun _ _ => False) (fun _ => True) := by
    refine .handle (commit_ends (fun _ => ⟨hw, rfl⟩) (fun _ _ => ?_) (fun _ => .modify ⟨rfl, rfl⟩) fun _ => trivial)
    exact .modify ⟨hw, rfl⟩
  refine .bind (haudit.mono ?_ (fun _ _ h => h.elim) fun _ h => h)
  intro _ w' hw'
  split
  · exact .raise hw'
  · exact .raise hw'

/-- Before LIVE is set nothing has to be put back. -/
theorem moveFailed_unset {α : Type} {previous : Option Version} {before : Option DeploymentTarget} {exc : AdaptationError}
    {D : α → World σ → Prop} : Ensures (d.moveFailed f name version previous before {} exc) w D
      (fun _ w' => w'.stored = w.stored ∧ w'.outside = w.outside) (fun _ => True) := by
  refine .bind (.modify (.bind (.skipIf (fun _ => .bind (.skipIf (fun _ => ?_) fun h => absurd ?_ h)) fun h => absurd ?_ h)))
  · exact failMove_leaves rfl
  · simp
  · simp

/-- What a move finds when it is about to set LIVE. -/
structure Ready (d : Delivery σ) (canary : Outside σ → String → Option κ) (q : PromotionRequest)
    (m : Move) (w w₁ : World σ) :
    Prop where
  named : ∃ i, w.session.db.models.get? q.modelId = some i ∧ m.name = i.mlflowModelName
  target : m.target.model = m.name ∧ m.target.version = q.version
  previous : m.previous = w.outside.live m.name d.settings.liveAlias
  moves : m.previous ≠ some q.version
  expected : q.expectedLive = none ∨ m.previous = q.expectedLive
  before : m.before.map (·.version) = d.port.served w.outside m.name
  stored : w₁.stored = w.stored
  session : w₁.session.promotions = w.session.promotions ++ [m.row]
  recorded : q.IsRow m.row
  applied : m.row.status = .applied ∧ m.row.fromVersion = m.previous
  calm : Calm d canary m.name w.outside w₁.outside
  registered : (w₁.outside.registry.versions m.name q.version).isSome

structure Idle (d : Delivery σ) (q : PromotionRequest) (row : ModelPromotion) (w w' : World σ) : Prop where
  recorded : q.IsRow row
  idle : row.status = .noChange ∧ row.fromVersion = some q.version
  live : ∀ m, w.session.db.models.get? q.modelId = some m →
    w.outside.live m.mlflowModelName d.settings.liveAlias = some q.version
  latest : w'.stored.promotions = w.session.promotions ++ [row]
  outside : w'.outside = w.outside

theorem Unchanged.of_same (hs : w'.stored = w.stored) (ho : w'.outside = w.outside) : d.Unchanged split q w w' := by
  refine ⟨by rw [hs], fun m _ => ?_⟩
  rw [ho]
  exact ⟨rfl, fun _ _ => rfl, rfl, rfl⟩

include hP in
theorem Unchanged.of_calm {i : ModelMetadata} (hi : w.session.db.models.get? q.modelId = some i) (hs : w'.stored = w.stored)
    (h : Calm d canary i.mlflowModelName w.outside w'.outside) : d.Unchanged split q w w' := by
  refine ⟨by rw [hs], fun m hm => ?_⟩
  obtain rfl := Option.some.inj (hi.symm.trans hm)
  exact h.intact hP

theorem alias?_reads {a : String} {x : Answer} : Ensures (ofRegistry (Registry.alias? x name a)) o
    (fun v o' => o' = o ∧ v = o.live name a) (fun _ o' => o' = o) (fun _ => True) := by
  refine .within (Registry.alias?_ends.mono ?_ ?_ fun _ _ => trivial)
  · rintro v _ ⟨rfl, hv⟩
    exact ⟨rfl, hv⟩
  · rintro e _ ⟨rfl, -⟩
    rfl

include hP ht in
theorem approach_ends (hq : w.session.promotions = w.stored.promotions) : Ensures (d.approach f q) w
    (fun res w' => match res with
      | .inl row => q.earlier w.session = some row ∧ w' = w ∨ Idle d q row w w'
      | .inr m => Ready d canary q m w w')
    (fun _ w' => d.Unchanged split q w w' ↔ ¬ ∃ m e, d.IdleCommitted f q w m e) (fun _ => True) := by
  refine .bind (.get ?_)
  cases hearlier : q.earlier w.session with
  | some row => exact .ret (.inl ⟨rfl, rfl⟩)
  | none =>
    dsimp only
    refine .bind (.bind (.get ?_))
    cases hm : w.session.db.models.get? q.modelId with
    | none =>
      refine .raise ⟨fun _ ⟨m, e, h⟩ => ?_, fun _ => .of_same rfl rfl⟩
      cases hm.symm.trans h.model
    | some i =>
      refine .ret (.bind (reach_ends ?_))
      refine ((alias?_reads.and (.self _ _)).mono ?_ ?_ fun _ _ => trivial)
      · rintro previous _ ⟨⟨rfl, hprev⟩, hrun⟩
        -- what is live, as the answer of the call and as the registry has it
        have hlive : ∀ m e, d.IdleCommitted f q w m e → m = i ∧ previous = some q.version := by
          intro m e h
          obtain rfl := Option.some.inj (hm.symm.trans h.model)
          exact ⟨rfl, Ended.done.inj (Prod.mk.inj (hrun.symm.trans h.live)).1⟩
        split
        · rename_i hc
          refine .raise ⟨fun _ ⟨m, e, h⟩ => ?_, fun _ => .of_same rfl rfl⟩
          obtain ⟨-, hp⟩ := hlive m e h
          rcases h.expected with he | he
          · exact hc.1 he
          · exact hc.2 (hp.trans he.symm)
        · rename_i hc
          split
          · rename_i hp
            refine .bind (.modify (.bind (commit_cases ?_ ?_ ?_ fun _ => trivial)))
            · refine fun _ => .ret (.inr ⟨⟨rfl, rfl, rfl, rfl, rfl, rfl⟩, ⟨rfl, hp⟩, fun m hm' => ?_, rfl, rfl⟩)
              obtain rfl := Option.some.inj (hm.symm.trans hm')
              exact hprev.symm.trans hp
            · intro e he
              refine ⟨fun hu => ?_, fun hn => absurd ⟨i, e, hearlier, hm, hp ▸ hrun, ?_, he⟩ hn⟩
              · have := hu.history
                rw [← hq] at this
                simp at this
              · rw [not_and_or, not_not, not_not] at hc
                exact hc.imp_right fun h => h.symm.trans hp
            · intro e he
              refine ⟨fun _ ⟨m, e', h⟩ => ?_, fun _ => .of_same rfl rfl⟩
              rw [h.commit] at he
              cases he
          · rename_i hp
            -- nothing is committed on the way to setting LIVE
            have hcalm : ∀ w', w'.stored = w.stored → Calm d canary i.mlflowModelName w.outside w'.outside →
                (d.Unchanged split q w w' ↔ ¬ ∃ m e, d.IdleCommitted f q w m e) :=
              fun w' hs h => ⟨fun _ ⟨m, e, h⟩ => hp (hlive m e h).2, fun _ => .of_calm hP hm hs h⟩
            refine .bind (reach_ends ((verify_calm hP ht).mono ?_ (fun _ _ h => hcalm _ rfl h) fun _ _ => trivial))
            intro digest o₁ h₁
            refine .bind (reach_ends (.within (Registry.getVersion_ends.mono ?_ ?_ fun _ _ => trivial)))
            · rintro info _ ⟨rfl, hinfo⟩
              refine .bind (.handle ((stageRow_ends hP.toLawful).mono ?_ ?_ fun _ _ => trivial))
              · rintro before _ ⟨rfl, hbefore⟩
                rw [not_and_or, not_not, not_not] at hc
                refine .ret ⟨⟨i, hm, rfl⟩, ⟨rfl, rfl⟩, hprev, hp, hc, hbefore.trans h₁.served, rfl, rfl,
                  ⟨rfl, rfl, rfl, rfl, rfl, rfl⟩, ⟨rfl, rfl⟩, h₁, ?_⟩
                rw [hinfo]
                rfl
              · rintro e w₂ ⟨hs, ho⟩
                refine moveFailed_unset.mono (fun _ _ h => h) (fun _ w₃ h => hcalm w₃ (h.1.trans hs) ?_)
                  fun _ _ => trivial
                rw [h.2, ho]
                exact h₁
            · rintro _ _ rfl
              exact hcalm _ rfl h₁
      · rintro e _ ⟨rfl, hrun⟩
        refine ⟨fun _ ⟨m, e', h⟩ => ?_, fun _ => .of_same rfl rfl⟩
        obtain rfl := Option.some.inj (hm.symm.trans h.model)
        cases (Prod.mk.inj (hrun.symm.trans h.live)).1

/-! ## From setting LIVE -/

theorem setAlias_cases {a : String} {v : Version} {x : Answer} (h : (o.registry.versions name v).isSome) :
    Ensures (ofRegistry (Registry.setAlias x name a v)) o (fun _ o' => x = .ok ∧ o' = o.withAlias name a v h)
      (fun _ o' => (∃ e, x = .before e) ∧ o' = o ∨ (∃ e, x = .after e) ∧ o' = o.withAlias name a v h)
      (fun _ => True) := by
  refine .within ?_
  cases x with
  | ok => simp [Ensures, Registry.setAlias, ask, perform, Fate.map, h, withAlias]
  | before e => simp [Ensures, Registry.setAlias, ask, perform, Fate.map]
  | after e => simp [Ensures, Registry.setAlias, ask, perform, Fate.map, h, withAlias]
  | stop => simp [Ensures, Registry.setAlias, ask, perform, Fate.map]

theorem setVersionTag_cases {v : Version} {key value : String} {x : Answer} (h : (o.registry.versions name v).isSome) :
    Ensures (ofRegistry (Registry.setVersionTag x name v key value)) o
      (fun _ o' => x = .ok ∧ o' = { o with registry := o.registry.withTag name v key value })
      (fun _ o' => (∃ e, x = .before e) ∧ o' = o ∨
        (∃ e, x = .after e) ∧ o' = { o with registry := o.registry.withTag name v key value })
      (fun _ => True) := by
  refine .within ?_
  cases x with
  | ok => simp [Ensures, Registry.setVersionTag, ask, perform, Fate.map, h]
  | before e => simp [Ensures, Registry.setVersionTag, ask, perform, Fate.map]
  | after e => simp [Ensures, Registry.setVersionTag, ask, perform, Fate.map, h]
  | stop => simp [Ensures, Registry.setVersionTag, ask, perform, Fate.map]

theorem confirmLive_cases (h : w.outside.live name d.settings.liveAlias = some version) :
    Ensures (d.confirmLive f name version) w (fun _ w' => f.liveReadBack = .ok ∧ w' = w)
      (fun _ w' => f.liveReadBack ≠ .ok ∧ w' = w) (fun _ => True) := by
  have hread : Ensures (ofRegistry (Registry.getVersionByAlias f.liveReadBack name d.settings.liveAlias)) w.outside
      (fun v o => f.liveReadBack = .ok ∧ v = version ∧ o = w.outside)
        (fun _ o => f.liveReadBack ≠ .ok ∧ o = w.outside)
      (fun _ => True) := by
    refine .within ?_
    have h : w.outside.registry.aliases name d.settings.liveAlias = some version := h
    cases f.liveReadBack with
    | ok => simp [Ensures, Registry.getVersionByAlias, ask, perform, Fate.map, h]
    | before e => simp [Ensures, Registry.getVersionByAlias, ask, perform, Fate.map]
    | after e => simp [Ensures, Registry.getVersionByAlias, ask, perform, Fate.map, h]
    | stop => simp [Ensures, Registry.getVersionByAlias, ask, perform, Fate.map]
  refine .bind (reach_ends (hread.mono ?_ ?_ fun _ _ => trivial))
  · rintro v _ ⟨hok, rfl, rfl⟩
    rw [if_pos rfl]
    exact .ret ⟨hok, rfl⟩
  · rintro e _ ⟨hne, rfl⟩
    exact ⟨hne, rfl⟩

include hP in
theorem revert_lands {g : RevertAnswers} (hg : ∀ i, g.restore i = .ok) {previous : Option DeploymentTarget}
    (hp : previous.map (·.version) = d.port.served o name) (hreg : Registered o o') :
    Ensures (Deployer.revert d.port g name previous) o'
      (fun _ o'' => o''.registry.versions = o'.registry.versions ∧ d.port.served o'' name = d.port.served o name ∧
        canary o'' name = if drops then none else canary o' name) (fun _ _ => False) (fun _ => True) := by
  refine .handle (.bind ((hP.restore_lands g.restore name previous o o' hg hp hreg).mono ?_ (fun _ _ h => h.elim)
    fun _ h => h.elim))
  rintro _ o'' ⟨hv, hs, hc⟩
  refine .bind ((Deployer.poll_ends hP.toLawful g.polls).mono ?_ ?_ fun _ _ => trivial)
  · rintro _ _ ⟨rfl, -⟩
    exact .ret ⟨hv, hs.trans hp, hc⟩
  · rintro e _ ⟨rfl, he⟩
    rw [if_pos he]
    exact .ret ⟨hv, hs.trans hp, hc⟩

include hP in
theorem poll_readBack {failOnOther : Bool} (polls : List Poll) :
    Ensures (Deployer.poll d.port name (some version) failOnOther polls) o
      (fun _ o' => o' = o ∧ TargetReadBack d polls name version o) (fun e o' => o' = o ∧ e.cls.framework = true)
      (fun _ => True) := by
  induction polls with
  | nil => exact .raise ⟨rfl, rfl⟩
  | cons p rest ih =>
    refine .bind (((hP.status p name o).and (.self _ _)).mono ?_ (fun _ _ h => h.1) fun _ _ => trivial)
    rintro st _ ⟨⟨rfl, -⟩, hrun⟩
    split
    · rename_i h
      exact .ret ⟨rfl, p, List.mem_cons_self .., st, hrun, h⟩
    · split
      · exact .raise ⟨rfl, rfl⟩
      · split
        · exact .raise ⟨rfl, rfl⟩
        · refine ih.mono ?_ (fun _ _ h => h) fun _ h => h
          rintro _ _ ⟨rfl, p', hp', hst⟩
          exact ⟨rfl, p', List.mem_cons_of_mem _ hp', hst⟩

/-- What a rollout that held leaves of the outside `o`. -/
structure Deployed (d : Delivery σ) (canary : Outside σ → String → Option κ) (drops : Bool) (polls : List Poll)
    (name : String) (version : Version) (o o' : Outside σ) : Prop where
  versions : o'.registry.versions = o.registry.versions
  live : o'.live name d.settings.liveAlias = some version
  served : d.port.served o' name = some version
  canary : drops = false → canary o' name = canary o name
  readBack : TargetReadBack d polls name version o'

include hP in
/-- A rollout holds and is read back, or what served before serves again. -/
theorem rollout_lands {g : RolloutAnswers} (hg : ∀ i, g.revert.restore i = .ok) {target : DeploymentTarget}
    {before : Option DeploymentTarget} (hb : before.map (·.version) = d.port.served o target.model)
    (hreg : Registered o o') (hlive : o'.live target.model d.settings.liveAlias = some target.version) :
    Ensures (Deployer.rollout d.port g target before) o'
      (fun _ o'' => Deployed d canary drops g.polls target.model target.version o' o'')
      (fun e o'' => e.cls = .deployment ∧ o''.registry.versions = o'.registry.versions ∧
        d.port.served o'' target.model = d.port.served o target.model ∧
        canary o'' target.model = if drops then none else canary o' target.model) (fun _ => True) := by
  -- the handler starts wherever the deploy got to
  have hfailed : ∀ e om, e.cls.framework = true → om.registry.versions = o'.registry.versions →
      (drops = false → canary om target.model = canary o' target.model) →
      Ensures (Deployer.rolloutFailed d.port g target before e) om
        (fun _ o'' => Deployed d canary drops g.polls target.model target.version o' o'')
        (fun e o'' => e.cls = .deployment ∧ o''.registry.versions = o'.registry.versions ∧
          d.port.served o'' target.model = d.port.served o target.model ∧
          canary o'' target.model = if drops then none else canary o' target.model) (fun _ => True) := by
    intro e om he hv hc
    unfold Deployer.rolloutFailed
    rw [if_pos he]
    have hom : Registered o om := fun n v h => by rw [hv]; exact hreg n v h
    refine .bind ((revert_lands hP hg hb hom).mono ?_ (fun _ _ h => h.elim) fun _ h => h)
    rintro restored o'' ⟨hv', hs', hc'⟩
    refine .raise ⟨rfl, hv'.trans hv, hs', hc'.trans ?_⟩
    cases drops with
    | true => rfl
    | false => exact hc rfl
  refine .handle (.bind ((((hP.deploy g.deploy target o').and (hP.deploy_frame g.deploy target o'))).mono ?_ ?_
    fun _ _ => trivial))
  · rintro _ om ⟨hm, hv, hc⟩
    have hl : om.live target.model d.settings.liveAlias = some target.version := by
      rcases hm.live with h | h
      · exact h.trans hlive
      · exact h
    refine (((poll_readBack hP g.polls).and (Deployer.poll_ends hP.toLawful g.polls)).mono ?_ ?_ fun _ _ => trivial)
    · rintro _ _ ⟨⟨rfl, hr⟩, -, hs⟩
      exact ⟨hv, hl, hs, hc, hr⟩
    · rintro e _ ⟨⟨rfl, he⟩, -⟩
      exact hfailed e _ he hv hc
  · rintro e om ⟨⟨he, -⟩, hv, hc⟩
    exact hfailed e om he hv hc

theorem restoreAlias_lands (hreg : Registered o o') :
    Ensures (d.restoreAlias .ok name (o.live name d.settings.liveAlias)) o'
      (fun _ o'' => Realiased o' o'' d.settings.liveAlias ∧
        o''.live name d.settings.liveAlias = o.live name d.settings.liveAlias) (fun _ _ => False) (fun _ => False) := by
  refine .handle ?_
  cases hl : o.live name d.settings.liveAlias with
  | none =>
    refine .within (Registry.deleteAlias_ends.mono ?_ (fun _ _ h => absurd rfl h.2.1) fun _ h => by cases h.2)
    rintro _ _ rfl
    refine ⟨realiased_withoutAlias o' name d.settings.liveAlias, ?_⟩
    simp [Outside.live, Registry.withoutAlias]
  | some v =>
    have hv : (o'.registry.versions name v).isSome := hreg _ _ (o.registry.registered _ _ _ hl)
    refine .within (Registry.setAlias_ends.mono ?_ ?_ fun _ h => by cases h.2)
    · rintro _ _ ⟨h, rfl⟩
      exact ⟨realiased_withAlias o' name d.settings.liveAlias v h, live_withAlias _ _ _ _ h⟩
    · rintro _ _ ⟨-, ⟨-, hn⟩ | ⟨⟨x, hx⟩, -⟩⟩
      · exact absurd hv (hn rfl)
      · cases hx

/-- What a failed move leaves of `w` when the promotion started in `o`; `kept`
holds when the split is kept. -/
structure PutBack (d : Delivery σ) (canary : Outside σ → String → Option κ) (name : String)
    (o : Outside σ) (dropped : Prop)
    [Decidable dropped] (w w' : World σ) : Prop where
  stored : w'.stored = w.stored
  versions : w'.outside.registry.versions = w.outside.registry.versions
  live : w'.outside.live name d.settings.liveAlias = o.live name d.settings.liveAlias
  served : d.port.served w'.outside name = d.port.served o name
  canary : canary w'.outside name = if dropped then none else canary w.outside name

include hP in
/-- LIVE was moved: the serving system is reverted unless the rollout did so,
and the alias is put back. -/
theorem moveFailed_putBack {α : Type} (hf : RestoringWorks f) {before : Option DeploymentTarget} {flags : MoveFlags}
    {exc : AdaptationError} (hmoved : flags.aliasMoved = true) (hb : before.map (·.version) = d.port.served o name)
    (hreg : Registered o w.outside)
    (hserved : ¬ (flags.deployed ∨ flags.rolloutStarted ∧ exc.cls ≠ .deployment) →
      (∀ o n, d.port.served o n = o.live n d.settings.liveAlias) ∨ d.port.served w.outside name = d.port.served o name)
    {D : α → World σ → Prop} :
    Ensures (d.moveFailed f name version (o.live name d.settings.liveAlias) before flags exc) w D
      (fun _ w' => PutBack d canary name o
        ((flags.deployed ∨ flags.rolloutStarted ∧ exc.cls ≠ .deployment) ∧ drops = true) w w') (fun _ => True) := by
  -- from any outside the serving system is reverted in
  have halias : ∀ o', o'.registry.versions = w.outside.registry.versions →
      ((∀ o n, d.port.served o n = o.live n d.settings.liveAlias) ∨ d.port.served o' name = d.port.served o name) →
      canary o' name = (if (flags.deployed ∨ flags.rolloutStarted ∧ exc.cls ≠ .deployment) ∧ drops = true then none
        else canary w.outside name) →
      Ensures (Act.skipIf (¬ flags.aliasMoved)
        (reach (d.restoreAlias f.restoreLive name (o.live name d.settings.liveAlias))) >>= fun _ =>
          failMove f version (o.live name d.settings.liveAlias) exc) { w with session := w.stored, outside := o' } D
        (fun _ w' => PutBack d canary name o
          ((flags.deployed ∨ flags.rolloutStarted ∧ exc.cls ≠ .deployment) ∧ drops = true) w w') (fun _ => True) := by
    intro o' hv hs hc
    have hreg' : Registered o o' := fun n v h => by rw [hv]; exact hreg n v h
    rw [hf.live]
    refine .bind (.skipIf (fun h => absurd hmoved h) fun _ => reach_ends ((restoreAlias_lands hreg').mono ?_
      (fun _ _ h => h.elim) (fun _ h => h.elim)))
    rintro _ o'' ⟨hr, hl⟩
    refine (failMove_leaves rfl).mono (fun _ _ h => h) ?_ fun _ h => h
    rintro _ w' ⟨hst, ho⟩
    refine ⟨hst, ?_, ?_, ?_, ?_⟩
    · rw [ho]
      exact hr.versions.trans hv
    · rw [ho]
      exact hl
    · rw [ho]
      rcases hP.served_realiased with ha | ha
      · rw [ha, ha]
        exact hl
      · rcases hs with hs | hs
        · rw [hs, hs]
          exact hl
        · exact (ha name hr).trans hs
    · rw [ho]
      exact (hP.canary_realiased name hr).trans hc
  refine .bind (.modify (.bind (.skipIf (fun h => ?_) fun h => ?_)))
  · refine halias w.outside rfl (hserved h) ?_
    rw [if_neg fun hd => h hd.1]
  · rw [not_not] at h
    refine .bind (reach_ends ((revert_lands hP hf.revert hb hreg).mono ?_ (fun _ _ h => h.elim) fun _ h => h))
    rintro _ o' ⟨hv, hs, hc⟩
    refine .ret (halias o' hv (.inr hs) (hc.trans ?_))
    cases drops with
    | true => rw [if_pos rfl, if_pos ⟨h, rfl⟩]
    | false => rw [if_neg (by simp), if_neg (by simp)]

/-! ## The tags and the commit -/

/-- Only the status tags of the two versions may differ, by what the calls did. -/
structure StatusSet (d : Delivery σ) (canary : Outside σ → String → Option κ) (f : PromoteAnswers) (name : String)
    (version : Version) (previous : Option Version) (o o' : Outside σ) : Prop where
  retagged : o.Retagged o'
  canary : canary o' name = canary o name
  live : o'.tag d.settings.registryTagsStatus name version =
    if takesEffect f.tagLive = true then some "LIVE" else o.tag d.settings.registryTagsStatus name version
  archived : ∀ p, previous = some p → o'.tag d.settings.registryTagsStatus name p =
    if f.tagLive = .ok ∧ takesEffect f.tagArchived = true then some "ARCHIVED"
      else o.tag d.settings.registryTagsStatus name p
  others : ∀ n v, ¬ (n = name ∧ (v = version ∨ previous = some v)) →
    o'.tag d.settings.registryTagsStatus n v = o.tag d.settings.registryTagsStatus n v

def TagsSet (f : PromoteAnswers) (previous : Option Version) : Prop :=
  f.tagLive = .ok ∧ (previous = none ∨ f.tagArchived = .ok)

theorem retagged_withTag (o : Outside σ) (name : String) (v : Version) (key value : String) :
    o.Retagged { o with registry := o.registry.withTag name v key value } :=
  ⟨Registry.retagged_withTag name v o.registry key value, rfl⟩

theorem StatusSet.unset (h : takesEffect f.tagLive = false) (previous : Option Version) :
    StatusSet d canary f name version previous o o := by
  refine ⟨⟨.refl _, rfl⟩, rfl, by rw [h]; rfl, fun p _ => ?_, fun _ _ _ => rfl⟩
  rw [if_neg]
  rintro ⟨hl, -⟩
  rw [hl] at h
  cases h

include hP in
theorem StatusSet.liveOnly (h : takesEffect f.tagLive = true) (hv : (o.registry.versions name version).isSome)
    {previous : Option Version} (hne : previous ≠ some version)
    (ha : previous = none ∨ ¬ (f.tagLive = .ok ∧ takesEffect f.tagArchived = true)) :
    StatusSet d canary f name version previous o
      { o with registry := o.registry.withTag name version d.settings.registryTagsStatus "LIVE" } := by
  refine ⟨retagged_withTag .., hP.canary_tagged _ _ _ _ _ _ (.inl rfl), ?_, fun p hp => ?_, fun n v hn => ?_⟩
  · rw [tag_withTag_eq hv, if_pos ⟨rfl, rfl⟩, if_pos h]
  · rw [tag_withTag_eq hv, if_neg fun hc => hne (hp.trans (by rw [hc.2])), if_neg]
    rcases ha with ha | ha
    · rw [hp] at ha
      cases ha
    · exact ha
  · rw [tag_withTag_eq hv, if_neg fun hc => hn ⟨hc.1, .inl hc.2⟩]

include hP in
theorem StatusSet.both (h : f.tagLive = .ok) (ha : takesEffect f.tagArchived = true)
    (hv : (o.registry.versions name version).isSome) {p : Version} (hp : (o.registry.versions name p).isSome)
    (hne : p ≠ version) :
    StatusSet d canary f name version (some p) o
      { o with
        registry := (o.registry.withTag name version d.settings.registryTagsStatus "LIVE").withTag name p
          d.settings.registryTagsStatus "ARCHIVED" } := by
  let o₁ : Outside σ := { o with registry := o.registry.withTag name version d.settings.registryTagsStatus "LIVE" }
  have h₁ : o.Retagged o₁ := retagged_withTag ..
  have hp₁ : (o₁.registry.versions name p).isSome := h₁.registry.kept _ _ hp
  have htag := @tag_withTag_eq σ o₁ name d.settings.registryTagsStatus "ARCHIVED" p hp₁
  have htag₁ := @tag_withTag_eq σ o name d.settings.registryTagsStatus "LIVE" version hv
  refine ⟨h₁.trans (retagged_withTag o₁ ..), ?_, ?_, fun p' hp' => ?_, fun n v hn => ?_⟩
  · exact (hP.canary_tagged o₁ _ _ _ _ _ (.inl rfl)).trans (hP.canary_tagged o _ _ _ _ _ (.inl rfl))
  · rw [htag, if_neg fun hc => hne hc.2.symm, htag₁, if_pos ⟨rfl, rfl⟩, if_pos (by rw [h]; rfl)]
  · obtain rfl := Option.some.inj hp'
    rw [htag, if_pos ⟨rfl, rfl⟩, if_pos ⟨h, ha⟩]
  · rw [htag, if_neg fun hc => hn ⟨hc.1, .inr (by rw [hc.2])⟩, htag₁, if_neg fun hc => hn ⟨hc.1, .inl hc.2⟩]

include hP in
theorem settleTags_cases {previous : Option Version} (hv : (w.outside.registry.versions name version).isSome)
    (hp : ∀ p, previous = some p → (w.outside.registry.versions name p).isSome) (hne : previous ≠ some version) :
    Ensures (d.settleTags f name version previous) w
      (fun _ w' => TagsSet f previous ∧ w'.stored = w.session ∧
        StatusSet d canary f name version previous w.outside w'.outside)
      (fun _ w' => StatusSet d canary f name version previous w.outside w'.outside ∧
        ((TagsSet f previous ∧ ∃ e, f.commit = .after e) ∧ w'.stored = w.session ∨
          ¬ (TagsSet f previous ∧ ∃ e, f.commit = .after e) ∧ w'.stored = w.stored)) (fun _ => True) := by
  refine .bind (reach_ends ((setVersionTag_cases hv).mono ?_ ?_ fun _ _ => trivial))
  · rintro _ _ ⟨hlive, rfl⟩
    -- the commit, once the tags are set
    have hcommit : ∀ o', StatusSet d canary f name version previous w.outside o' → TagsSet f previous →
        Ensures (commit f.commit) { w with outside := o' }
          (fun _ w' => TagsSet f previous ∧ w'.stored = w.session ∧
            StatusSet d canary f name version previous w.outside w'.outside)
          (fun _ w' => StatusSet d canary f name version previous w.outside w'.outside ∧
            ((TagsSet f previous ∧ ∃ e, f.commit = .after e) ∧ w'.stored = w.session ∨
              ¬ (TagsSet f previous ∧ ∃ e, f.commit = .after e) ∧ w'.stored = w.stored)) (fun _ => True) := by
      intro o' hs ht
      refine commit_cases (fun _ => ⟨ht, rfl, hs⟩) (fun e he => ⟨hs, .inl ⟨⟨ht, e, he⟩, rfl⟩⟩)
        (fun e he => ?_)
        fun _ => trivial
      refine ⟨hs, .inr ⟨?_, rfl⟩⟩
      rintro ⟨-, e', he'⟩
      rw [he] at he'
      cases he'
    have heffect : takesEffect f.tagLive = true := by rw [hlive]; rfl
    cases previous with
    | none => exact .bind (.ret (hcommit _ (.liveOnly hP heffect hv hne (.inl rfl)) ⟨hlive, .inl rfl⟩))
    | some p =>
      have hpv : (w.outside.registry.versions name p).isSome := hp p rfl
      have hpne : p ≠ version := fun h => hne (by rw [h])
      refine .bind (reach_ends ((setVersionTag_cases
        ((retagged_withTag w.outside name version _ _).registry.kept _ _ hpv)).mono ?_ ?_ fun _ _ => trivial))
      · rintro _ _ ⟨harch, rfl⟩
        exact hcommit _ (.both hP hlive (by rw [harch]; rfl) hv hpv hpne) ⟨hlive, .inr harch⟩
      · have hunset : ∀ e, f.tagArchived = .before e ∨ f.tagArchived = .after e →
            ¬ (TagsSet f (some p) ∧ ∃ e, f.commit = .after e) := by
          rintro e he ⟨⟨-, h | h⟩, -⟩
          · cases h
          · rw [h] at he
            rcases he with he | he <;> cases he
        rintro _ _ (⟨⟨e, he⟩, rfl⟩ | ⟨⟨e, he⟩, rfl⟩)
        · refine ⟨.liveOnly hP heffect hv hne (.inr ?_), .inr ⟨hunset e (.inl he), rfl⟩⟩
          rw [he]
          exact fun h => by cases h.2
        · exact ⟨.both hP hlive (by rw [he]; rfl) hv hpv hpne, .inr ⟨hunset e (.inr he), rfl⟩⟩
  · have hunset : ∀ e, f.tagLive = .before e ∨ f.tagLive = .after e →
        ¬ (TagsSet f previous ∧ ∃ e, f.commit = .after e) := by
      rintro e he ⟨⟨h, -⟩, -⟩
      rw [h] at he
      rcases he with he | he <;> cases he
    rintro _ _ (⟨⟨e, he⟩, rfl⟩ | ⟨⟨e, he⟩, rfl⟩)
    · exact ⟨.unset (by rw [he]; rfl) previous, .inr ⟨hunset e (.inl he), rfl⟩⟩
    · refine ⟨.liveOnly hP (by rw [he]; rfl) hv hne (.inr ?_), .inr ⟨hunset e (.inr he), rfl⟩⟩
      rw [he]
      exact fun h => by cases h.1

/-! ## The move as a whole -/

include hP in
/-- A split that may have been dropped reads back as before unless there was one. -/
theorem split_same_iff {dropped : Prop} [Decidable dropped] (hs : d.port.served o' name = d.port.served o name)
    (hc : canary o' name = if dropped then none else canary o name) :
    split o' name = split o name ↔ ¬ (dropped ∧ (canary o name).isSome) := by
  constructor
  · rintro h ⟨hd, hsome⟩
    rw [if_pos hd] at hc
    rw [← hP.canary_isSome, ← h, hP.canary_isSome, hc] at hsome
    cases hsome
  · intro h
    refine hP.split_congr hs (hc.trans ?_)
    by_cases hd : dropped
    · rw [if_pos hd]
      exact (Option.not_isSome_iff_eq_none.mp fun hsome => h ⟨hd, hsome⟩).symm
    · rw [if_neg hd]

theorem Ready.unchanged_iff {w₁ : World σ} (hr : Ready d canary q m w w₁) : d.Unchanged split q w w' ↔
    w'.stored.promotions = w.stored.promotions ∧ d.Intact split m.name w.outside w'.outside := by
  obtain ⟨i, hi, hname⟩ := hr.named
  constructor
  · intro h
    exact ⟨h.history, hname ▸ h.intact i hi⟩
  · rintro ⟨hh, hin⟩
    refine ⟨hh, fun i' hi' => ?_⟩
    obtain rfl := Option.some.inj (hi.symm.trans hi')
    exact hname ▸ hin

include hP in
/-- A move that failed before a tag was written. -/
theorem Ready.untagged_iff {w₁ : World σ} (hr : Ready d canary q m w w₁) {dropped : Prop} [Decidable dropped]
    {o₂ : Outside σ} (hstored : w'.stored = w₁.stored)
    (hv : w'.outside.registry.versions = w₁.outside.registry.versions)
    (hl : w'.outside.live m.name d.settings.liveAlias = w.outside.live m.name d.settings.liveAlias)
    (hs : d.port.served w'.outside m.name = d.port.served w.outside m.name)
    (h₂ : canary o₂ m.name = canary w₁.outside m.name)
    (hc : canary w'.outside m.name = if dropped then none else canary o₂ m.name) :
    d.Unchanged split q w w' ↔ ¬ (dropped ∧ (canary w.outside m.name).isSome) := by
  rw [hr.unchanged_iff, ← split_same_iff hP hs (hc.trans (by rw [h₂, hr.calm.canary]))]
  constructor
  · exact fun h => h.2.split
  · refine fun h => ⟨by rw [hstored, hr.stored], hl, fun n v => ?_, hs, h⟩
    rw [← hr.calm.status n v]
    unfold Outside.tag
    rw [hv]

include hP in
theorem setAlias_failed {w₁ : World σ} (hr : Ready d canary q m w w₁) {e : AdaptationError} {o₂ : Outside σ}
    (h : (∃ e, f.setLive = .before e) ∧ o₂ = w₁.outside ∨
      (∃ e, f.setLive = .after e) ∧ o₂ = w₁.outside.withAlias m.name d.settings.liveAlias m.target.version
        (hr.target.2 ▸ hr.registered))
    {D : Unit → World σ → Prop} :
    Ensures (d.moveFailed f m.name m.target.version m.previous m.before {} e) { w₁ with outside := o₂ } D
      (fun _ w' => (d.Unchanged split q w w' ↔ ¬ d.SpoilsMove canary drops f m w.outside w₁.outside) ∧
        (f.Sharp → d.SameHistory m.name w w')) (fun _ => True) := by
  have hout : ∀ o₃, f.setLive ≠ .ok → ¬ d.RolledOut f m w₁.outside o₃ := by
    rintro o₃ hne ⟨o', hset, -⟩
    have := (setAlias_cases (x := f.setLive) (hr.target.2 ▸ hr.registered)).elim_done hset
    exact hne this.1
  refine moveFailed_unset.mono (fun _ _ h => h) ?_ fun _ h => h
  rintro _ w' ⟨hst, ho⟩
  rcases h with ⟨⟨x, hx⟩, rfl⟩ | ⟨⟨x, hx⟩, rfl⟩
  · refine ⟨⟨fun _ hspoils => ?_, fun _ => ?_⟩, fun _ => ⟨by rw [hst, ← hr.stored],
      by rw [ho]; exact hr.calm.live⟩⟩
    · have hne : f.setLive ≠ .ok := by rw [hx]; simp
      cases hspoils with
      | aliased e h => rw [hx] at h; cases h
      | split set => exact hne set
      | tagged o₃ out => exact hout o₃ hne out
      | archived o₃ out => exact hout o₃ hne out
      | committed o₃ out => exact hout o₃ hne out
    · rw [hr.unchanged_iff]
      refine ⟨by rw [hst, ← hr.stored], ?_⟩
      rw [ho]
      exact hr.calm.intact hP
  · refine ⟨⟨fun hu _ => ?_, fun hn => absurd (.aliased x hx) hn⟩, fun hf => absurd hx (hf.setLive x)⟩
    have hl := ((hr.unchanged_iff).mp hu).2.live
    rw [ho, live_withAlias, ← hr.previous, hr.target.2] at hl
    exact hr.moves hl.symm

include hP in
theorem settled_of {w₁ w₄ : World σ} {o₂ o₃ : Outside σ} (hr : Ready d canary q m w w₁)
    (hdep : Deployed d canary drops f.rollout.polls m.name m.target.version o₂ o₃) (hset : TagsSet f m.previous)
    (hstored : w₄.stored = w₁.session)
    (htags : StatusSet d canary f m.name m.target.version m.previous o₃ w₄.outside) :
    d.Settled f q m.name m.row w w₄ := by
  rw [hr.target.2] at hdep htags
  refine ⟨hr.recorded, ⟨hr.applied.1, hr.applied.2.trans hr.previous⟩, hr.previous ▸ hr.expected,
    ?_, ?_, ?_, ⟨o₃, htags.retagged, hdep.readBack⟩, ?_, ?_⟩
  · rw [hstored, hr.session]
  · rw [htags.retagged.live, hdep.live]
  · rw [hP.served_retagged htags.retagged, hdep.served]
  · rw [htags.live, hset.1]
    rfl
  · intro p hp
    rw [← hr.previous] at hp
    rw [htags.archived p hp, if_pos]
    refine ⟨hset.1, ?_⟩
    rcases hset.2 with h | h
    · rw [hp] at h
      cases h
    · rw [h]
      rfl

include hP in
/-- A move that failed once it was rolled out is as before, but for the tags
that were written, a commit that took effect and a split that was dropped. -/
theorem settle_failed {w₁ w₄ : World σ} {o₃ : Outside σ} (hr : Ready d canary q m w w₁)
    (hq : w.session.promotions = w.stored.promotions) (hout : d.RolledOut f m w₁.outside o₃)
    (hcan : drops = false → canary o₃ m.name = canary w₁.outside m.name)
    (htag : ∀ n v, o₃.tag d.settings.registryTagsStatus n v = w.outside.tag d.settings.registryTagsStatus n v)
    (htags : StatusSet d canary f m.name m.target.version m.previous o₃ w₄.outside)
    (hstored : (TagsSet f m.previous ∧ ∃ e, f.commit = .after e) ∧ w₄.stored = w₁.session ∨
      ¬ (TagsSet f m.previous ∧ ∃ e, f.commit = .after e) ∧ w₄.stored = w₁.stored)
    (hback : PutBack d canary m.name w.outside (drops = true) w₄ w') :
    d.Unchanged split q w w' ↔ ¬ d.SpoilsMove canary drops f m w.outside w₁.outside := by
  have hset : f.setLive = .ok := by
    obtain ⟨o₂, hrun, -⟩ := hout
    exact ((setAlias_cases (x := f.setLive) (hr.target.2 ▸ hr.registered)).elim_done hrun).1
  have hread : f.liveReadBack = .ok := hout.choose_spec.2.1
  have htag' : ∀ n v, w'.outside.tag d.settings.registryTagsStatus n v =
      w₄.outside.tag d.settings.registryTagsStatus n v := by
    intro n v
    unfold Outside.tag
    rw [hback.versions]
  have hc : canary w'.outside m.name = if drops = true then none else canary w.outside m.name := by
    rw [hback.canary, htags.canary]
    by_cases hd : drops = true
    · rw [if_pos hd, if_pos hd]
    · rw [if_neg hd, if_neg hd, hcan (by simpa using hd), hr.calm.canary]
  have hsplit := split_same_iff hP hback.served hc
  rw [hr.unchanged_iff]
  constructor
  · rintro ⟨hh, hin⟩ hspoils
    cases hspoils with
    | aliased e h => rw [hset] at h; cases h
    | split _ _ drops placed => exact hsplit.mp hin.split ⟨drops, placed⟩
    | tagged o' out tag was =>
      refine was ((hin.status _ _).symm.trans ?_)
      rw [htag', htags.live, if_pos tag]
    | archived o' out p previous tagLive tag was =>
      refine was ((hin.status _ _).symm.trans ?_)
      rw [htag', htags.archived p previous, if_pos ⟨tagLive, tag⟩]
    | committed o' out tagLive tagArchived e commit =>
      rcases hstored with ⟨-, hs⟩ | ⟨hn, -⟩
      · rw [hback.stored, hs, hr.session, hq] at hh
        simp at hh
      · exact hn ⟨⟨tagLive, tagArchived⟩, e, commit⟩
  · intro hn
    refine ⟨?_, hback.live, fun n v => ?_, hback.served, hsplit.mpr fun h => hn (.split hset hread h.1 h.2)⟩
    · rcases hstored with ⟨⟨⟨htl, hta⟩, e, he⟩, -⟩ | ⟨-, hs⟩
      · exact absurd (.committed o₃ hout htl hta e he) hn
      · rw [hback.stored, hs, hr.stored]
    · rw [htag']
      by_cases hv : n = m.name ∧ (v = m.target.version ∨ m.previous = some v)
      · obtain ⟨rfl, rfl | hp⟩ := hv
        · rw [htags.live]
          split
          · rename_i ht
            by_contra hne
            exact hn (.tagged o₃ hout ht fun h => hne h.symm)
          · exact htag _ _
        · rw [htags.archived v hp]
          split
          · rename_i ht
            by_contra hne
            exact hn (.archived o₃ hout v hp ht.1 ht.2 fun h => hne h.symm)
          · exact htag _ _
      · rw [htags.others n v hv]
        exact htag n v

include hP in
/-- From setting LIVE on: the move is applied, or is undone unless something
spoils it. -/
theorem carryOn_ends {w₁ : World σ} (hr : Ready d canary q m w w₁) (hf : RestoringWorks f)
    (hq : w.session.promotions = w.stored.promotions) : Ensures (d.carryOn f m) w₁
      (fun row w' => row = m.row ∧ d.Settled f q m.name row w w')
      (fun _ w' => (d.Unchanged split q w w' ↔ ¬ d.SpoilsMove canary drops f m w.outside w₁.outside) ∧
        (f.Sharp → d.SameHistory m.name w w')) (fun _ => True) := by
  have hreg : (w₁.outside.registry.versions m.name m.target.version).isSome := by
    rw [hr.target.2]
    exact hr.registered
  refine .bind (.handle (reach_ends (((setAlias_cases hreg).and (.self _ _)).mono ?_ ?_ fun _ _ => trivial)))
  · rintro _ o₂ ⟨⟨hset, ho₂⟩, hrun⟩
    have hlive₂ : o₂.live m.name d.settings.liveAlias = some m.target.version := by rw [ho₂]; exact live_withAlias ..
    have hreal : Realiased w₁.outside o₂ d.settings.liveAlias := by rw [ho₂]; exact realiased_withAlias ..
    have hcan₂ : canary o₂ m.name = canary w₁.outside m.name := hP.canary_realiased m.name hreal
    have hkept₂ : Registered w.outside o₂ := fun n v h => by rw [hreal.versions]; exact hr.calm.registered n v h
    have hserved₂ : (∀ o n, d.port.served o n = o.live n d.settings.liveAlias) ∨
        d.port.served o₂ m.name = d.port.served w.outside m.name :=
      hP.served_realiased.imp_right fun h => (h m.name hreal).trans hr.calm.served
    refine .bind (.handle ((confirmLive_cases hlive₂).mono ?_ ?_ fun _ _ => trivial))
    · rintro _ _ ⟨hback, rfl⟩
      have hb : m.before.map (·.version) = d.port.served w.outside m.target.model := by
        rw [hr.target.1]
        exact hr.before
      refine .bind (.handle (reach_ends (((rollout_lands hP hf.rollout hb hkept₂ (hr.target.1 ▸ hlive₂)).and
        (.self _ _)).mono ?_ ?_ fun _ _ => trivial)))
      · rintro _ o₃ ⟨hdep, hroll⟩
        have hout : d.RolledOut f m w₁.outside o₃ := ⟨o₂, hrun, hback, hroll⟩
        rw [hr.target.1] at hdep
        have hv₃ : o₃.registry.versions = w₁.outside.registry.versions := hdep.versions.trans hreal.versions
        have hkept₃ : Registered w.outside o₃ := fun n v h => by rw [hv₃]; exact hr.calm.registered n v h
        have hprev : ∀ p, m.previous = some p → (o₃.registry.versions m.name p).isSome := fun p hp =>
          hkept₃ _ _ (w.outside.registry.registered _ _ _ (hr.previous.symm.trans hp))
        have hne : m.previous ≠ some m.target.version := by
          rw [hr.target.2]
          exact hr.moves
        have htag : ∀ n v, o₃.tag d.settings.registryTagsStatus n v =
            w.outside.tag d.settings.registryTagsStatus n v := by
          intro n v
          rw [← hr.calm.status n v]
          unfold Outside.tag
          rw [hv₃]
        refine .bind (.handle ((settleTags_cases hP (w := { w₁ with outside := o₃ }) (by rw [hv₃]; exact hreg) hprev
          hne).mono ?_ ?_ fun _ _ => trivial))
        · rintro _ w₄ ⟨hset, hstored, htags⟩
          exact .ret ⟨rfl, settled_of hP hr hdep hset hstored htags⟩
        · rintro e w₄ ⟨htags, hstored⟩
          have hkept₄ : Registered w.outside w₄.outside := fun n v h => htags.retagged.registry.kept _ _ (hkept₃ n v h)
          rw [hr.previous]
          refine (moveFailed_putBack hP hf rfl hr.before hkept₄ fun h => absurd (.inl rfl) h).mono (fun _ _ h => h) ?_
            fun _ h => h
          intro _ w' hback'
          refine ⟨settle_failed hP hr hq hout (hdep.canary · |>.trans hcan₂) htag htags hstored ⟨hback'.stored,
            hback'.versions, hback'.live, hback'.served, hback'.canary.trans ?_⟩, fun hf => ⟨?_, hback'.live⟩⟩
          · simp only [true_or, true_and]
          · rcases hstored with ⟨⟨-, e, he⟩, -⟩ | ⟨-, hs⟩
            · exact absurd he (hf.commit e)
            · rw [hback'.stored, hs, ← hr.stored]
      · rintro e o₃ ⟨⟨hcls, hv, hs, hc⟩, hroll⟩
        rw [hr.target.1] at hs hc
        have hv₃ : o₃.registry.versions = w₁.outside.registry.versions := hv.trans hreal.versions
        have hkept₃ : Registered w.outside o₃ := fun n v h => by rw [hv₃]; exact hr.calm.registered n v h
        have hnot : ¬ ((false = true) ∨ true = true ∧ e.cls ≠ .deployment) := by simp [hcls]
        have hout : ∀ o', ¬ d.RolledOut f m w₁.outside o' := by
          rintro o' ⟨o₂', hrun', -, hroll'⟩
          obtain ⟨-, rfl⟩ := Prod.mk.inj (hrun.symm.trans hrun')
          cases (Prod.mk.inj (hroll.symm.trans hroll')).1
        rw [hr.previous]
        refine (moveFailed_putBack hP hf rfl hr.before hkept₃ fun _ => .inr hs).mono (fun _ _ h => h) ?_ fun _ h => h
        intro _ w' hback'
        refine ⟨?_, fun _ => ⟨by rw [hback'.stored, ← hr.stored], hback'.live⟩⟩
        rw [hr.untagged_iff hP hback'.stored (hback'.versions.trans hv₃) hback'.live hback'.served hcan₂
          (hback'.canary.trans ((if_neg fun h => hnot h.1).trans hc))]
        refine not_congr ⟨fun h => .split hset hback h.1 h.2, fun hspoils => ?_⟩
        cases hspoils with
        | aliased e' h => rw [hset] at h; cases h
        | split _ _ drops placed => exact ⟨drops, placed⟩
        | tagged o' out => exact absurd out (hout o')
        | archived o' out => exact absurd out (hout o')
        | committed o' out => exact absurd out (hout o')
    · rintro e _ ⟨hback, rfl⟩
      have hnot : ¬ ((false = true) ∨ false = true ∧ e.cls ≠ .deployment) := by simp
      rw [hr.previous]
      refine (moveFailed_putBack hP hf rfl hr.before hkept₂ fun _ => hserved₂).mono (fun _ _ h => h) ?_ fun _ h => h
      intro _ w' hback'
      refine ⟨?_, fun _ => ⟨by rw [hback'.stored, ← hr.stored], hback'.live⟩⟩
      have hc : canary w'.outside m.name = if False then none else canary o₂ m.name :=
        hback'.canary.trans ((if_neg fun h => hnot h.1).trans (if_neg id).symm)
      rw [hr.untagged_iff hP hback'.stored (hback'.versions.trans hreal.versions) hback'.live hback'.served hcan₂ hc]
      refine not_congr ⟨fun h => h.1.elim, fun hspoils => ?_⟩
      cases hspoils with
      | aliased e' h => rw [hset] at h; cases h
      | split _ readBack => exact absurd readBack hback
      | tagged o' out => exact absurd out.choose_spec.2.1 hback
      | archived o' out => exact absurd out.choose_spec.2.1 hback
      | committed o' out => exact absurd out.choose_spec.2.1 hback
  · rintro e o₂ ⟨h, -⟩
    exact setAlias_failed hP hr h

include hP ht in
theorem promoteVersion_cases (hf : RestoringWorks f) (hq : w.session.promotions = w.stored.promotions) :
    Ensures (d.promoteVersion f q) w
      (fun row w' => (q.earlier w.session = some row ∧ w' = w ∨ Idle d q row w w') ∨
        ∃ i, w.session.db.models.get? q.modelId = some i ∧ d.Settled f q i.mlflowModelName row w w')
      (fun _ w' => (d.Unchanged split q w w' ↔ ¬ d.Spoils canary drops f q w) ∧
        (f.Sharp → ∀ i, w.session.db.models.get? q.modelId = some i → d.SameHistory i.mlflowModelName w w'))
      (fun _ => True) := by
  rw [d.promoteVersion_eq f q]
  refine .bind ((((approach_ends hP ht hq).and (.self _ _))).mono ?_ ?_ fun _ _ => trivial)
  · rintro (row | m) w₁ ⟨h, hreached⟩
    · exact .ret (.inl h)
    · refine (carryOn_ends hP h hf hq).mono ?_ ?_ fun _ h => h
      · rintro _ w' ⟨rfl, hs⟩
        obtain ⟨i, hi, hname⟩ := h.named
        exact .inr ⟨i, hi, hname ▸ hs⟩
      · rintro _ w' ⟨hiff, hsame⟩
        refine ⟨?_, fun hsharp i hi => ?_⟩
        swap
        · obtain ⟨i', hi', hname⟩ := h.named
          obtain rfl := Option.some.inj (hi.symm.trans hi')
          exact hname ▸ hsame hsharp
        rw [hiff]
        refine not_congr ⟨fun hs => .move m w₁ hreached hs, fun hs => ?_⟩
        cases hs with
        | idle i e hidle =>
          obtain ⟨i', hi', hname⟩ := h.named
          obtain rfl := Option.some.inj (hi'.symm.trans hidle.model)
          have hlive : some q.version = w.outside.live i'.mlflowModelName d.settings.liveAlias :=
            (alias?_reads.elim_done hidle.live).2
          exact absurd (h.previous.trans (by rw [hname, ← hlive])) h.moves
        | move m' w₂ reached spoils =>
          obtain ⟨hm, rfl⟩ := Prod.mk.inj (hreached.symm.trans reached)
          obtain rfl := Sum.inr.inj (Ended.done.inj hm)
          exact spoils
  · rintro e w' ⟨hiff, hraised⟩
    refine ⟨?_, fun hsharp i hi => ?_⟩
    swap
    · have hu : d.Unchanged split q w w' := hiff.mpr fun ⟨_, e, h⟩ => hsharp.commitNoChange e h.commit
      exact ⟨hu.history, (hu.intact i hi).live⟩
    rw [hiff]
    refine not_congr ⟨fun ⟨m, e, h⟩ => .idle m e h, fun hs => ?_⟩
    cases hs with
    | idle m e h => exact ⟨m, e, h⟩
    | move m w₁ reached spoils => cases (Prod.mk.inj (hraised.symm.trans reached)).1

/-- When it raises, all is as it was exactly when nothing spoils it; when it
applies the move, all of it is in place. -/
theorem promoteVersion_all_or_nothing (hP : d.port.Restores d.settings split canary drops) (ht : TagsApart d.settings)
    (hf : RestoringWorks f) (hq : w.session.promotions = w.stored.promotions)
    {ended : Ended AdaptationError ModelPromotion} (hrun : d.promoteVersion f q w = (ended, w')) :
    (∀ e, ended = .raised e → (d.Unchanged split q w w' ↔ ¬ d.Spoils canary drops f q w)) ∧
    ∀ row, ended = .done row → (q.earlier w.session = some row ∧ w' = w ∨ Idle d q row w w') ∨
      ∃ i, w.session.db.models.get? q.modelId = some i ∧ d.Settled f q i.mlflowModelName row w w' := by
  have h := promoteVersion_cases hP ht hf hq (q := q) (w := w)
  unfold Ensures at h
  rw [hrun] at h
  cases ended with
  | done row => exact ⟨fun e he => by (cases he), fun _ he => by cases he; exact h⟩
  | raised e => exact ⟨fun _ _ => h.1, fun row he => by cases he⟩
  | stopped => exact ⟨fun e he => by (cases he), fun row he => by cases he⟩

end

/-! ## A tag that stays -/

/-- An MLflow request that gets no answer. -/
def registryDown : PortError := ⟨⟨.registryUnavailable, "the registry is not reachable", []⟩, by decide⟩

def toSecond : PromotionRequest := ⟨"cell-load", "2", .promoteCandidate, "validated", "pipeline", some "a1", none, none⟩

theorem aliasDelivery_restores : aliasDelivery.port.Restores aliasDelivery.settings liveDeployment.split
    liveDeployment.canary false :=
  liveDeployment.restores (by decide) ⟨by decide, by decide⟩

theorem restoringWorks_of_reads {f : PromoteAnswers} (hr : f.rollout = {}) (hv : f.revert = {}) (hl : f.restoreLive = .ok) :
    RestoringWorks f :=
  ⟨fun _ => by rw [hr], fun _ => by rw [hv], hl⟩

/-- LIVE does not read back: all is as it was. -/
theorem promoteVersion_all_or_nothing_unread : ∃ e w', aliasDelivery.promoteVersion
    { liveReadBack := .before registryDown } toSecond cellLoadWorld = (.raised e, w') ∧
    aliasDelivery.Unchanged liveDeployment.split toSecond cellLoadWorld w' := by
  let f : PromoteAnswers := { liveReadBack := .before registryDown }
  have hrun : ∃ e w', aliasDelivery.promoteVersion f toSecond cellLoadWorld = (.raised e, w') := ⟨_, _, rfl⟩
  obtain ⟨e, w', hrun⟩ := hrun
  refine ⟨e, w', hrun, ((promoteVersion_all_or_nothing aliasDelivery_restores
    .defaults (restoringWorks_of_reads rfl rfl rfl)
    rfl hrun).1 e rfl).mpr fun hs => ?_⟩
  have hout : ∀ m o₁ o₃, ¬ aliasDelivery.RolledOut f m o₁ o₃ := by
    rintro m o₁ o₃ ⟨o₂, -, hread, -⟩
    cases hread
  cases hs with
  | idle m e h => cases h.commit
  | move m w₁ reached spoils =>
    cases spoils with
    | aliased e set => cases set
    | split set readBack => cases readBack
    | tagged o₃ out => exact hout m _ o₃ out
    | archived o₃ out => exact hout m _ o₃ out
    | committed o₃ out => exact hout m _ o₃ out

/-- The previous version cannot be tagged: LIVE and the serving system go back
to version 1, but 2 stays tagged LIVE. -/
theorem promoteVersion_leaves_tag : ∃ e w', aliasDelivery.promoteVersion
    { tagArchived := .before registryDown } toSecond cellLoadWorld = (.raised e, w') ∧
    w'.outside.live "cell-load" "live" = some "1" ∧
    cellLoadWorld.outside.tag "oran.status" "cell-load" "2" = none ∧
    w'.outside.tag "oran.status" "cell-load" "2" = some "LIVE" ∧
    ¬ aliasDelivery.Unchanged liveDeployment.split toSecond cellLoadWorld w' := by
  have htag : (aliasDelivery.promoteVersion { tagArchived := .before registryDown } toSecond
      cellLoadWorld).2.outside.tag "oran.status" "cell-load" "2" = some "LIVE" := by rfl
  refine ⟨_, _, rfl, by rfl, by rfl, htag, fun h => ?_⟩
  have hstatus := (h.intact _ rfl).status "cell-load" "2"
  cases htag.symm.trans hstatus

end Delivery

end OranAdapt
