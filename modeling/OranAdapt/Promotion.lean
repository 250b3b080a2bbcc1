import OranAdapt.DeliveryStore

/-!
# Moving LIVE

`registry.promotion`: a move flushes its row, sets the alias and reads it back,
rolls the version out and reads that back, tags the versions and commits. What
fails on the way puts the serving system and the alias back.
-/

namespace OranAdapt

/-- What a delivery acts through. `ttest` is the p-value of Welch's test. -/
structure Delivery (σ : Type) where
  settings : DeliverySettings
  port : DeploymentPort σ
  policy : DeliveryPolicy
  ttest : List Rat → List Rat → Option Rat

structure PromotionRequest where
  modelId : ModelId
  version : Version
  kind : PromotionKind
  reason : String
  actor : String
  jobId : Option JobId
  expectedLive : Option Version
  idempotencyKey : Option String

def PromotionRequest.earlier (q : PromotionRequest) (s : Records) : Option ModelPromotion :=
  match q.idempotencyKey with
  | some key => if key = "" then none else s.promotions.find? fun row => row.idempotencyKey = some key
  | none => none

structure VerifyAnswers where
  info : Answer := .ok
  download : Answer := .ok
  tag : Answer := .ok

/-- How the outside answers the calls of one promotion, in their order. -/
structure PromoteAnswers where
  live : Answer := .ok
  commitNoChange : DbAnswer := .ok
  verify : VerifyAnswers := {}
  source : Answer := .ok
  flush : DbAnswer := .ok
  serving : Poll := {}
  servedSource : Answer := .ok
  setLive : Answer := .ok
  liveReadBack : Answer := .ok
  rollout : RolloutAnswers := {}
  tagLive : Answer := .ok
  tagArchived : Answer := .ok
  commit : DbAnswer := .ok
  revert : RevertAnswers := {}
  restoreLive : Answer := .ok
  audit : DbAnswer := .ok

structure MoveFlags where
  aliasMoved : Bool := false
  rolloutStarted : Bool := false
  deployed : Bool := false

namespace Delivery

open Effects World Outside

variable {σ : Type} (d : Delivery σ)

def modelMeta (id : ModelId) : WorldAct σ ModelMetadata := do
  let w ← .get
  match w.session.db.models.get? id with
  | some m => pure m
  | none => .raise ⟨.modelNotFound, s!"model '{id}' is not onboarded", [("model_id", .str id)]⟩

/-- Download, check the size and the checksum. A version without a checksum
gets the one it has now. -/
def verifyVersionArtifact (f : VerifyAnswers) (name : String) (version : Version) : RegistryAct String := do
  let info ← Registry.getVersion f.info name version
  let (size, digest) ← Registry.downloadArtifacts f.download name version
  if d.settings.artifactMaxBytes < size then
    .raise ⟨.artifactError, "model artifact exceeds the size limit; refusing to load it",
      [("size_bytes", .nat size), ("max_bytes", .nat d.settings.artifactMaxBytes), ("model", .str name),
       ("version", .str version)]⟩
  else
    let expected := (info.tags.lookup d.settings.registryTagsChecksum).getD ""
    if expected ≠ "" then
      if digest = expected then pure expected
      else .raise ⟨.artifactIntegrity, "artifact checksum mismatch; refusing to load it",
        [("expected", .str expected), ("actual", .str digest), ("model", .str name), ("version", .str version)]⟩
    else do
      Registry.setVersionTag f.tag name version d.settings.registryTagsChecksum digest
      pure digest

/-- What serves now, as a target a failed rollout can restore. -/
def servingTarget (p : Poll) (f : Answer) (name : String) : OutsideAct σ (Option DeploymentTarget) := do
  let serving ← Deployer.serving d.port p name
  match serving with
  | none => pure none
  | some v => do
    let source ← ofRegistry (Registry.source? f name v)
    pure (some ⟨name, v, source⟩)

/-- `_restore_alias`: a failure is logged, not raised. -/
def restoreAlias (f : Answer) (name : String) (previous : Option Version) : OutsideAct σ Unit :=
  (ofRegistry (match previous with
    | none => Registry.deleteAlias f name d.settings.liveAlias
    | some v => Registry.setAlias f name d.settings.liveAlias v)).handle fun e =>
      if e.cls.framework then pure () else .raise e

def failMove {α : Type} (f : PromoteAnswers) (version : Version) (previous : Option Version) (exc : AdaptationError) :
    WorldAct σ α := do
  (commit f.audit).handle fun _ => rollback
  if exc.cls = .promotion then .raise exc
  else
    let was := previous.getD "None"
    .raise ⟨.promotion, s!"promoting version {version} failed; LIVE restored to {was}",
      [("version", .str version), ("previous", .ofOption previous), ("cause", .str exc.message)]⟩

/-- The `except` branch of `promote_version`, under the flags as they stand. -/
def moveFailed {α : Type} (f : PromoteAnswers) (name : String) (version : Version) (previous : Option Version)
    (before : Option DeploymentTarget) (flags : MoveFlags) (exc : AdaptationError) : WorldAct σ α := do
  rollback
  -- a DeploymentError from the rollout has already restored the serving system
  .skipIf (¬ (flags.deployed ∨ flags.rolloutStarted ∧ exc.cls ≠ .deployment))
    (reach (Deployer.revert d.port f.revert name before) >>= fun _ => pure ())
  .skipIf (¬ flags.aliasMoved) (reach (d.restoreAlias f.restoreLive name previous))
  failMove f version previous exc

def stageRow (f : PromoteAnswers) (name : String) (row : ModelPromotion) : WorldAct σ (Option DeploymentTarget) := do
  edit fun s => { s with promotions := s.promotions ++ [row] }
  flush f.flush
  reach (d.servingTarget f.serving f.servedSource name)

def confirmLive (f : PromoteAnswers) (name : String) (version : Version) : WorldAct σ Unit := do
  let now ← reach (ofRegistry (Registry.getVersionByAlias f.liveReadBack name d.settings.liveAlias))
  if now = version then pure ()
  else .raise ⟨.promotion, "live alias did not read back as the promoted version",
    [("expected", .str version), ("actual", .str now)]⟩

def archive (f : PromoteAnswers) (name : String) (previous : Option Version) : OutsideAct σ Unit :=
  match previous with
  | some p => ofRegistry (Registry.setVersionTag f.tagArchived name p d.settings.registryTagsStatus "ARCHIVED")
  | none => pure ()

def settleTags (f : PromoteAnswers) (name : String) (version : Version) (previous : Option Version) :
    WorldAct σ Unit := do
  reach (ofRegistry (Registry.setVersionTag f.tagLive name version d.settings.registryTagsStatus "LIVE"))
  reach (d.archive f name previous)
  commit f.commit

/-- The protected block from where LIVE is the version. Each part raises into
`moveFailed` with the flags it runs under. -/
def movedTo (f : PromoteAnswers) (name : String) (target : DeploymentTarget) (previous : Option Version)
    (before : Option DeploymentTarget) (row : ModelPromotion) : WorldAct σ ModelPromotion := do
  (d.confirmLive f name target.version).handle
    (d.moveFailed f name target.version previous before { aliasMoved := true })
  (reach (Deployer.rollout d.port f.rollout target before)).handle
    (d.moveFailed f name target.version previous before { aliasMoved := true, rolloutStarted := true })
  (d.settleTags f name target.version previous).handle
    (d.moveFailed f name target.version previous before
      { aliasMoved := true, rolloutStarted := true, deployed := true })
  pure row

def applyMove (f : PromoteAnswers) (name : String) (target : DeploymentTarget) (previous : Option Version)
    (row : ModelPromotion) : WorldAct σ ModelPromotion := do
  let before ← (d.stageRow f name row).handle (d.moveFailed f name target.version previous none {})
  (reach (ofRegistry (Registry.setAlias f.setLive name d.settings.liveAlias target.version))).handle
    (d.moveFailed f name target.version previous before {})
  d.movedTo f name target previous before row

/-- The move itself, once LIVE is known and is not the version. -/
def moveTo (f : PromoteAnswers) (q : PromotionRequest) (name : String) (previous : Option Version) :
    WorldAct σ ModelPromotion := do
  let digest ← reach (ofRegistry (d.verifyVersionArtifact f.verify name q.version))
  let info ← reach (ofRegistry (Registry.getVersion f.source name q.version))
  d.applyMove f name ⟨name, q.version, info.source⟩ previous
    ⟨q.modelId, q.kind, previous, q.version, .applied, q.reason, q.actor, q.jobId, q.idempotencyKey, some digest⟩

def promoteVersion (f : PromoteAnswers) (q : PromotionRequest) : WorldAct σ ModelPromotion := do
  let w ← .get
  match q.earlier w.session with
  | some earlier => pure earlier
  | none => do
    let model ← modelMeta q.modelId
    let name := model.mlflowModelName
    let previous ← reach (ofRegistry (Registry.alias? f.live name d.settings.liveAlias))
    if q.expectedLive ≠ none ∧ previous ≠ q.expectedLive then
      .raise ⟨.conflict, "LIVE moved since this promotion was planned", [("model_id", .str q.modelId),
        ("expected_live", .ofOption q.expectedLive), ("actual_live", .ofOption previous)]⟩
    else if previous = some q.version then do
      let row : ModelPromotion := ⟨q.modelId, q.kind, previous, q.version, .noChange,
        if q.reason = "" then s!"version {q.version} is already live" else q.reason, q.actor, q.jobId,
        q.idempotencyKey, none⟩
      edit fun s => { s with promotions := s.promotions ++ [row] }
      commit f.commitNoChange
      pure row
    else d.moveTo f q name previous

/-! ## A failed move -/

/-- LIVE is back at `sv`, and so is what served if the registry knows it. -/
structure Restored (name : String) (sv : Version) (o o' : Outside σ) : Prop where
  kept : ∀ n v, (o.registry.versions n v).isSome → (o'.registry.versions n v).isSome
  live : o'.live name d.settings.liveAlias = some sv
  served : (∀ v, d.port.served o name = some v → (o.registry.versions name v).isSome) →
    d.port.served o' name = d.port.served o name ∨ d.port.served o' name = some sv

/-- Once LIVE is put back, what served in `o` serves. -/
def ServesBefore (name : String) (o o' : Outside σ) : Prop :=
  (∀ o n, d.port.served o n = o.live n d.settings.liveAlias) ∨
    ((∀ v, d.port.served o name = some v → (o.registry.versions name v).isSome) →
      d.port.served o' name = d.port.served o name)

structure Undone (name : String) (sv : Version) (o : Outside σ) (s : Records) (w : World σ) : Prop where
  stored : w.stored = s
  session : w.session = s
  outside : d.Restored name sv o w.outside

/-- What may be left when the process stops: the records are as they were. -/
def Halted (name : String) (sv : Version) (o : Outside σ) (s : Records) (w : World σ) : Prop :=
  w.stored = s ∧ d.Restored name sv o w.outside

/-- No alias write takes effect and raises, nothing stops between it and the
commit, and the restoring calls work. -/
structure MoveWorks (f : PromoteAnswers) : Prop where
  setLive : ∀ e, f.setLive ≠ .after e
  liveReadBack : f.liveReadBack ≠ .stop
  rollout : Deployer.RolloutWorks f.rollout
  tagLive : f.tagLive ≠ .stop
  tagArchived : f.tagArchived ≠ .stop
  commit : f.commit ≠ .stop ∧ ∀ e, f.commit ≠ .after e
  revert : Deployer.RevertWorks f.revert
  restoreLive : f.restoreLive = .ok ∨ ∃ e, f.restoreLive = .after e

theorem MoveWorks.ok : MoveWorks {} where
  setLive e := by simp
  liveReadBack := by simp
  rollout := ⟨fun _ => by simp, by simp, fun _ => rfl, by simp⟩
  tagLive := by simp
  tagArchived := by simp
  commit := ⟨by simp, fun e => by simp⟩
  revert := ⟨fun _ => rfl, by simp⟩
  restoreLive := .inl rfl

section
variable {d} (hP : d.port.Lawful d.settings.liveAlias) {f : PromoteAnswers} {name : String} {sv version : Version}
  {o : Outside σ} {s : Records} {w : World σ} {α : Type} {D : α → World σ → Prop}

include hP in
theorem restored_withAlias {o' : Outside σ}
    (kept : ∀ n v, (o.registry.versions n v).isSome → (o'.registry.versions n v).isSome)
    (hs : d.ServesBefore name o o') (h : (o'.registry.versions name sv).isSome) :
    d.Restored name sv o (o'.withAlias name d.settings.liveAlias sv h) := by
  refine ⟨kept, live_withAlias .., fun hreg => ?_⟩
  rcases hP.served_alias with ha | ha
  · right; rw [ha, live_withAlias]
  · rcases hs with hs | hs
    · right; rw [hs, live_withAlias]
    · left; rw [ha, hs hreg]

theorem restoreAlias_ends (hf : f.restoreLive = .ok ∨ ∃ e, f.restoreLive = .after e)
    (h : (o.registry.versions name sv).isSome) : Ensures (d.restoreAlias f.restoreLive name (some sv)) o
      (fun _ o' => o' = o.withAlias name d.settings.liveAlias sv h) (fun _ _ => False) (fun _ => False) := by
  refine .handle (.within ((Registry.setAlias_lands hf h).mono ?_ ?_ fun _ h => h))
  · rintro _ _ rfl
    rfl
  · rintro e _ ⟨he, rfl⟩
    rw [if_pos he]
    exact .ret rfl

theorem failMove_ends {exc : AdaptationError} (hw : d.Undone name sv o s w) :
    Ensures (failMove f version (some sv) exc) w D
      (fun e w' => e.cls = .promotion ∧ d.Undone name sv o s w') (d.Halted name sv o s) := by
  have hsame : d.Undone name sv o s { w with stored := w.session } := ⟨hw.session, hw.session, hw.outside⟩
  have hback : d.Undone name sv o s { w with session := w.stored } := ⟨hw.stored, hw.stored, hw.outside⟩
  have haudit : Ensures ((commit f.audit).handle fun _ => rollback) w (fun _ => d.Undone name sv o s)
      (fun _ _ => False) (d.Halted name sv o s) := by
    refine .handle (commit_ends (fun _ => hsame) (fun _ _ => ?_) (fun _ => .modify hback) fun _ =>
      ⟨hw.stored, hw.outside⟩)
    exact .modify ⟨hw.session, hw.session, hw.outside⟩
  refine .bind (haudit.mono ?_ (fun _ _ h => h.elim) (fun _ h => h))
  intro _ w' hw'
  split
  · rename_i he
    exact .raise ⟨he, hw'⟩
  · exact .raise ⟨rfl, hw'⟩

theorem moveFailed_unmoved {before : Option DeploymentTarget} {exc : AdaptationError}
    (hs : w.stored = s) (ho : d.Restored name sv o w.outside) :
    Ensures (d.moveFailed f name version (some sv) before {} exc) w D
      (fun e w' => e.cls = .promotion ∧ d.Undone name sv o s w') (d.Halted name sv o s) := by
  refine .bind (.modify (.bind (.skipIf (fun _ => .bind (.skipIf (fun _ => ?_) fun h => absurd ?_ h)) fun h => absurd ?_ h)))
  · exact failMove_ends ⟨hs, hs, ho⟩
  · simp
  · simp

include hP in
/-- LIVE was moved: the serving system is reverted unless the rollout did so,
and the alias is put back. -/
theorem moveFailed_moved (hf : MoveWorks f) {before : Option DeploymentTarget} {flags : MoveFlags}
    {exc : AdaptationError} (hmoved : flags.aliasMoved = true) (hs : w.stored = s)
    (kept : ∀ n v, (o.registry.versions n v).isSome → (w.outside.registry.versions n v).isSome)
    (hsv : (o.registry.versions name sv).isSome) (hb : before.map (·.version) = d.port.served o name)
    (hserv : flags.deployed ∨ flags.rolloutStarted ∧ exc.cls ≠ .deployment ∨ d.ServesBefore name o w.outside) :
    Ensures (d.moveFailed f name version (some sv) before flags exc) w D
      (fun e w' => e.cls = .promotion ∧ d.Undone name sv o s w') (d.Halted name sv o s) := by
  -- from any outside that serves what served before
  have hrest : ∀ o', (∀ n v, (o.registry.versions n v).isSome → (o'.registry.versions n v).isSome) →
      d.ServesBefore name o o' →
      Ensures (Act.skipIf (¬ flags.aliasMoved) (reach (d.restoreAlias f.restoreLive name (some sv))) >>= fun _ =>
        failMove f version (some sv) exc) { w with session := w.stored, outside := o' } D
      (fun e w' => e.cls = .promotion ∧ d.Undone name sv o s w') (d.Halted name sv o s) := by
    intro o' hk hb'
    have h' := hk _ _ hsv
    refine .bind (.skipIf (fun h => absurd hmoved h) fun _ => reach_ends ((restoreAlias_ends hf.restoreLive h').mono ?_
      (fun _ _ h => h.elim) (fun _ h => h.elim)))
    rintro _ _ rfl
    exact failMove_ends ⟨hs, hs, restored_withAlias hP hk hb' h'⟩
  refine .bind (.modify (.bind (.skipIf (fun h => ?_) fun h => ?_)))
  · refine hrest w.outside kept ?_
    rcases hserv with h' | h' | h'
    · exact absurd (.inl h') h
    · exact absurd (.inr h') h
    · exact h'
  · refine .bind (reach_ends ((Deployer.revert_ends hP hf.revert).mono ?_ (fun _ _ h => h.elim) (fun _ h => h.elim)))
    intro _ o' hr
    refine hrest o' (fun n v hv => hr.moved.kept n v (kept n v hv)) (.inr fun hreg => ?_)
    rw [hr.served, hb]
    intro t ht
    refine kept _ _ (hreg _ ?_)
    rw [← hb, ht]; rfl

/-! ## A move -/

include hP in
theorem servingTarget_ends {p : Poll} {g : Answer} : Ensures (d.servingTarget p g name) o
    (fun before o' => o' = o ∧ before.map (·.version) = d.port.served o name) (fun _ o' => o' = o) (fun o' => o' = o) := by
  refine .bind ((Deployer.serving_ends hP).mono ?_ (fun _ _ h => h) (fun _ h => h.1))
  rintro v o ⟨rfl, hv⟩
  cases v with
  | none => exact .ret ⟨rfl, hv⟩
  | some v =>
    refine .bind (.within (Registry.source?_ends.mono ?_ ?_ ?_))
    · rintro _ _ rfl
      exact .ret ⟨rfl, hv⟩
    · rintro _ _ rfl
      rfl
    · rintro _ ⟨rfl, -⟩
      rfl

include hP in
theorem stageRow_ends {row : ModelPromotion} : Ensures (d.stageRow f name row) w
    (fun before w' => w' = { w with session := { w.session with promotions := w.session.promotions ++ [row] } } ∧
      before.map (·.version) = d.port.served w.outside name)
    (fun _ w' => w'.stored = w.stored ∧ w'.outside = w.outside)
    (fun w' => w'.stored = w.stored ∧ w'.outside = w.outside) := by
  refine .bind (.modify (.bind (flush_ends (reach_ends ((servingTarget_ends hP).mono ?_ ?_ ?_)) ?_ ?_)))
  · rintro before o ⟨rfl, hb⟩
    exact ⟨rfl, hb⟩
  · rintro _ _ rfl
    exact ⟨rfl, rfl⟩
  · rintro _ rfl
    exact ⟨rfl, rfl⟩
  · exact fun _ => ⟨rfl, rfl⟩
  · exact fun _ => ⟨rfl, rfl⟩

theorem confirmLive_ends (hf : f.liveReadBack ≠ .stop) : Ensures (d.confirmLive f name version) w
    (fun _ w' => w' = w) (fun _ w' => w' = w) (fun _ => False) := by
  refine .bind (reach_ends (.within (Registry.getVersionByAlias_ends.mono ?_ ?_ fun _ h => hf h.2)))
  · rintro v _ ⟨rfl, -⟩
    split
    · exact .ret rfl
    · exact .raise rfl
  · rintro e _ ⟨rfl, -⟩
    rfl

theorem tag_ends {x : Answer} {key value : String} (hx : x ≠ .stop) :
    Ensures (ofRegistry (Registry.setVersionTag x name version key value)) o (fun _ o' => o.Retagged o')
      (fun _ o' => o.Retagged o') (fun _ => False) :=
  .within (Registry.setVersionTag_ends.mono (fun _ _ h => ⟨h, rfl⟩) (fun _ _ h => ⟨h, rfl⟩) fun _ h => hx h.2)

theorem archive_ends (hf : f.tagArchived ≠ .stop) {previous : Option Version} :
    Ensures (d.archive f name previous) o (fun _ o' => o.Retagged o') (fun _ o' => o.Retagged o') (fun _ => False) := by
  unfold archive
  cases previous with
  | some p => exact tag_ends hf
  | none => exact .ret ⟨.refl _, rfl⟩

theorem settleTags_ends (hf : MoveWorks f) {previous : Option Version} :
    Ensures (d.settleTags f name version previous) w
      (fun _ w' => w.outside.Retagged w'.outside ∧ w'.stored = w.session ∧ w'.session = w.session)
      (fun _ w' => w.outside.Retagged w'.outside ∧ w'.stored = w.stored) (fun _ => False) := by
  refine .bind (reach_ends ((tag_ends hf.tagLive).mono ?_ (fun _ _ h => ⟨h, rfl⟩) (fun _ h => h)))
  intro _ o₁ h₁
  refine .bind (reach_ends ((archive_ends hf.tagArchived).mono ?_ ?_ (fun _ h => h)))
  · intro _ o₂ h₂
    have h : w.outside.Retagged o₂ := h₁.trans h₂
    refine commit_ends (fun _ => ⟨h, rfl, rfl⟩) (fun e he => absurd he (hf.commit.2 e)) (fun _ => ⟨h, rfl⟩)
      fun he => absurd he hf.commit.1
  · intro _ o₂ h₂
    exact ⟨h₁.trans h₂, rfl⟩

/-- What an applied move leaves: its row is the last, LIVE and what serves are
the version. -/
structure Applied (name : String) (version : Version) (row : ModelPromotion) (o : Outside σ) (s : Records)
    (w : World σ) : Prop where
  stored : w.stored = { s with promotions := s.promotions ++ [row] }
  session : w.session = { s with promotions := s.promotions ++ [row] }
  kept : ∀ n v, (o.registry.versions n v).isSome → (w.outside.registry.versions n v).isSome
  live : w.outside.live name d.settings.liveAlias = some version
  served : d.port.served w.outside name = some version

include hP in
/-- The move once LIVE is the version: it is applied, or LIVE and what serves
are put back. -/
theorem movedTo_ends (hf : MoveWorks f) {target : DeploymentTarget} {row : ModelPromotion} (hw : w.stored = s)
    {o : Outside σ} (hsv : (o.registry.versions target.model sv).isSome) {before : Option DeploymentTarget}
    (hb : before.map (·.version) = d.port.served o target.model) (hv) :
    Ensures (d.movedTo f target.model target (some sv) before row)
      { w with
        outside := o.withAlias target.model d.settings.liveAlias target.version hv
        session := { s with promotions := s.promotions ++ [row] } }
      (fun r w' => r = row ∧ d.Applied target.model target.version row o s w')
      (fun e w' => e.cls = .promotion ∧ d.Undone target.model sv o s w') (d.Halted target.model sv o s) := by
  have hbefore : d.ServesBefore target.model o (o.withAlias target.model d.settings.liveAlias target.version hv) := by
    rcases hP.served_alias with h | h
    · exact .inl h
    · exact .inr fun _ => h ..
  refine .bind (.handle ((confirmLive_ends hf.liveReadBack).mono ?_ ?_ (fun _ h => h.elim)))
  · rintro _ _ rfl
    refine .bind (.handle (reach_ends ((Deployer.rollout_ends hP hf.rollout).mono ?_ ?_ (fun _ h => h.elim))))
    · intro _ o₁ ⟨hm, hserved⟩
      have hl : o₁.live target.model d.settings.liveAlias = some target.version := by
        rcases hm.live with h | h
        · rw [h, live_withAlias]
        · exact h
      refine .bind (.handle ((settleTags_ends hf).mono ?_ ?_ (fun _ h => h.elim)))
      · intro _ w₂ ⟨hr, hs, hss⟩
        refine .ret ⟨rfl, hs, hss, fun n v h => hr.registry.kept n v (hm.kept n v h), ?_, ?_⟩
        · rw [hr.live, hl]
        · rw [hP.served_retagged hr, hserved]
      · intro e w₂ ⟨hr, hs⟩
        exact moveFailed_moved hP hf rfl (hs.trans hw) (fun n v h => hr.registry.kept n v (hm.kept n v h)) hsv hb (.inl rfl)
    · intro e o₁ ⟨he, om, hm, hr⟩
      refine moveFailed_moved hP hf rfl hw (fun n v h => hr.moved.kept n v (hm.kept n v h)) hsv hb
        (.inr (.inr (.inr fun hreg => ?_)))
      rw [hr.served, hb]
      intro t ht
      refine hm.kept _ _ (hreg _ ?_)
      rw [← hb, ht]; rfl
  · rintro e _ rfl
    exact moveFailed_moved hP hf rfl hw (fun _ _ h => h) hsv hb (.inr (.inr hbefore))

include hP in
theorem applyMove_ends (hf : MoveWorks f) (target : DeploymentTarget) (row : ModelPromotion)
    (hws : w.session = w.stored) (hlive : w.outside.live target.model d.settings.liveAlias = some sv) :
    Ensures (d.applyMove f target.model target (some sv) row) w
      (fun r w' => r = row ∧ d.Applied target.model target.version row w.outside w.stored w')
      (fun e w' => e.cls = .promotion ∧ d.Undone target.model sv w.outside w.stored w')
      (d.Halted target.model sv w.outside w.stored) := by
  have hsv : (w.outside.registry.versions target.model sv).isSome := w.outside.registry.registered _ _ _ hlive
  have hsame : d.Restored target.model sv w.outside w.outside := ⟨fun _ _ h => h, hlive, fun _ => .inl rfl⟩
  refine .bind (.handle ((stageRow_ends hP).mono ?_ ?_ ?_))
  · rintro before _ ⟨rfl, hb⟩
    refine .bind (.handle (reach_ends (.within (Registry.setAlias_ends.mono ?_ ?_ ?_))))
    · rintro _ _ ⟨hv, rfl⟩
      rw [hws]
      exact movedTo_ends hP hf rfl hsv hb hv
    · rintro e _ ⟨-, ⟨rfl, -⟩ | ⟨⟨x, hx⟩, -⟩⟩
      · exact moveFailed_unmoved rfl hsame
      · exact absurd hx (hf.setLive x)
    · rintro _ ⟨rfl, -⟩
      exact ⟨rfl, hsame⟩
  · intro e w' ⟨hs, ho⟩
    exact moveFailed_unmoved hs (ho ▸ hsame)
  · intro w' ⟨hs, ho⟩
    exact ⟨hs, ho ▸ hsame⟩

theorem verify_ends {g : VerifyAnswers} {r : Registry} : Ensures (d.verifyVersionArtifact g name version) r
    (fun _ => r.Retagged) (fun _ => r.Retagged) r.Retagged := by
  refine .bind (Registry.getVersion_ends.mono ?_ ?_ ?_)
  · rintro info r ⟨rfl, -⟩
    refine .bind (Registry.downloadArtifacts_ends.mono ?_ ?_ ?_)
    · rintro ⟨size, digest⟩ r rfl
      dsimp only
      split
      · exact .raise (.refl _)
      · split
        · split
          · exact .ret (.refl _)
          · exact .raise (.refl _)
        · refine .bind (Registry.setVersionTag_ends.mono ?_ (fun _ _ h => h) ?_)
          · intro _ r' hr
            exact .ret hr
          · rintro _ ⟨rfl, -⟩
            exact .refl _
    · rintro _ _ rfl
      exact .refl _
    · rintro _ ⟨rfl, -⟩
      exact .refl _
  · rintro _ _ rfl
    exact .refl _
  · rintro _ ⟨rfl, -⟩
    exact .refl _

include hP in
theorem Restored.of_retagged {o₁ o' : Outside σ} (hr : o.Retagged o₁) (h : d.Restored name sv o₁ o') :
    d.Restored name sv o o' := by
  refine ⟨fun n v hv => h.kept n v (hr.registry.kept n v hv), h.live, fun hreg => ?_⟩
  rw [← hP.served_retagged hr]
  refine h.served fun v hv => hr.registry.kept _ _ (hreg v ?_)
  rw [← hP.served_retagged hr, hv]

/-- A promotion whose key is already recorded returns that row. -/
theorem promoteVersion_earlier {q : PromotionRequest} {r : ModelPromotion}
    (hq : q.earlier w.session = some r)
    {D : ModelPromotion → World σ → Prop} {R : AdaptationError → World σ → Prop}
    {S : World σ → Prop} (hD : D r w) :
    Ensures (d.promoteVersion f q) w D R S := by
  refine .bind (.get ?_)
  rw [hq]
  exact .ret hD

include hP in
theorem moveTo_ends (hf : MoveWorks f) {q : PromotionRequest} (hws : w.session = w.stored)
    (hlive : w.outside.live name d.settings.liveAlias = some sv) :
    Ensures (d.moveTo f q name (some sv)) w
      (fun r w' => (r.modelId = q.modelId ∧ r.status = .applied ∧ r.toVersion = q.version ∧
          r.idempotencyKey = q.idempotencyKey) ∧ d.Applied name q.version r w.outside w.stored w')
      (fun _ w' => d.Undone name sv w.outside w.stored w') (d.Halted name sv w.outside w.stored) := by
  have hretag : ∀ o', w.outside.Retagged o' → d.Restored name sv w.outside o' :=
    fun o' h => ⟨h.registry.kept, (h.live ..).trans hlive, fun _ => .inl (hP.served_retagged h _)⟩
  have hout : ∀ r : Registry, w.outside.registry.Retagged r → w.outside.Retagged { w.outside with registry := r } :=
    fun r h => ⟨h, rfl⟩
  refine .bind (reach_ends (.within (verify_ends.mono ?_ ?_ ?_)))
  · intro digest r hr
    have ho := hout _ hr
    refine .bind (reach_ends (.within (Registry.getVersion_ends.mono ?_ ?_ ?_)))
    · rintro info r ⟨rfl, -⟩
      refine (applyMove_ends hP hf (w := { w with outside := { w.outside with registry := r } })
        ⟨name, q.version, info.source⟩ _ hws ((ho.live ..).trans hlive)).mono ?_ ?_ ?_
      · rintro row w' ⟨rfl, ha⟩
        exact ⟨⟨rfl, rfl, rfl, rfl⟩, ha.stored, ha.session, fun n v h => ha.kept n v (hr.kept n v h),
          ha.live, ha.served⟩
      · intro e w' ⟨_, hu⟩
        exact ⟨hu.stored, hu.session, .of_retagged hP ho hu.outside⟩
      · intro w' hh
        exact ⟨hh.1, .of_retagged hP ho hh.2⟩
    · rintro e _ rfl
      exact ⟨rfl, hws, hretag _ ho⟩
    · rintro _ ⟨rfl, -⟩
      exact ⟨rfl, hretag _ ho⟩
  · intro e r hr
    exact ⟨rfl, hws, hretag _ (hout _ hr)⟩
  · intro r hr
    exact ⟨rfl, hretag _ (hout _ hr)⟩

include hP in
/-- A first promotion away from LIVE, conditional on LIVE: it is applied, or
nothing is recorded and LIVE and what serves are put back. -/
theorem promoteVersion_ends (hf : MoveWorks f) {q : PromotionRequest} (hws : w.session = w.stored)
    (hname : ∀ m, w.stored.db.models.get? q.modelId = some m → m.mlflowModelName = name)
    (hq : q.earlier w.stored = none)
    (hlive : w.outside.live name d.settings.liveAlias = some sv) (hexp : q.expectedLive = some sv)
    (hne : sv ≠ q.version) : Ensures (d.promoteVersion f q) w
      (fun r w' => (r.modelId = q.modelId ∧ r.status = .applied ∧ r.toVersion = q.version ∧
          r.idempotencyKey = q.idempotencyKey) ∧ d.Applied name q.version r w.outside w.stored w')
      (fun _ w' => d.Undone name sv w.outside w.stored w') (d.Halted name sv w.outside w.stored) := by
  have hsame : d.Restored name sv w.outside w.outside := ⟨fun _ _ h => h, hlive, fun _ => .inl rfl⟩
  refine .bind (.get ?_)
  rw [hws, hq]
  refine .bind ?_
  unfold modelMeta
  refine .bind (.get ?_)
  rw [hws]
  cases hm : w.stored.db.models.get? q.modelId with
  | none => exact .raise ⟨rfl, hws, hsame⟩
  | some m =>
    refine .ret ?_
    rw [hname m hm]
    refine .bind (reach_ends (.within (Registry.alias?_ends.mono ?_ ?_ ?_)))
    · rintro previous _ ⟨rfl, hp⟩
      have hp : previous = some sv := hp.trans hlive
      subst hp
      rw [if_neg (by rw [hexp]; exact fun h => h.2 rfl), if_neg fun h => hne (Option.some.inj h)]
      exact moveTo_ends hP hf hws hlive
    · rintro e _ ⟨rfl, -⟩
      exact ⟨rfl, hws, hsame⟩
    · rintro _ ⟨rfl, -⟩
      exact ⟨rfl, hsame⟩

end

end Delivery

end OranAdapt
