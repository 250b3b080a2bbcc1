import OranAdapt.TruthfulTick

/-!
# Promotions that cannot succeed

A promotion that is refused rolls the rollout back. It is refused when LIVE is
no longer the stable version, or when the move itself fails; a candidate whose
artifact is missing or does not verify is found before the move, with an error
that nothing above the promotion takes for a refusal, and the rollout keeps its
share at every tick.
-/

namespace OranAdapt

open Effects World Outside Delivery

namespace Delivery

variable {σ : Type} (d : Delivery σ)

/-- The registry has the version, and its artifact passes the check that every
promotion makes first. -/
def verifies (o : Outside σ) (name : String) (version : Version) : Bool :=
  match o.registry.versions name version with
  | none => false
  | some info =>
    let expected := (info.tags.lookup d.settings.registryTagsChecksum).getD ""
    decide (info.size ≤ d.settings.artifactMaxBytes) && (decide (expected = "") || decide (info.sha256 = expected))

/-- What `verify_version_artifact` raises for a version it refuses. -/
def Unverified (e : AdaptationError) : Prop :=
  e.cls = .modelNotFound ∨ e.cls = .artifactError ∨ e.cls = .artifactIntegrity

/-- The promotion raises, and the undo that follows a refusal returns. -/
def PromotionFails (f : ControllerAnswers) (id : RolloutId) (r : Rollout) (w : World σ) : Prop :=
  Ensures (d.promoteVersion f.promote (promotionRequest id r "system")) w (fun _ _ => False)
    (fun _ w' => (d.undoTraffic f id { w' with session := w'.stored }).1.returned = true) fun _ => False

/-- A tick that decides to promote the active rollout `r`, whose promotion fails
for a reason that stays: everything answers but the deployment, and what is to
be undone can be undone. -/
structure FailingTick (f : ControllerAnswers) (now clock : Time) (stable candidate : ArmStats) (id : RolloutId) (w : World σ)
    (r : Rollout) (sv : Version) (m : ModelMetadata) : Prop where
  row : w.stored.rollouts.get? id = some r
  active : r.state.active = true
  model : w.stored.db.models.get? r.modelId = some m
  stableVersion : r.stableVersion = some sv
  free : lockFree d w.stored r.modelId (.rollout id) clock = true
  db : DbAnswers f
  decided : ∃ dec, RolloutCall.decision d r (.tick f now clock stable candidate) = some dec ∧ dec.promotes r = true
  answers : ∃ g, f.promote = { rollout := g } ∧ Deployer.RolloutWorks g
  fails : d.PromotionFails f id r (d.lockedAt f id r clock w)

/-- The version gets traffic: through a split, where the adapter makes splits,
or as the one that serves. -/
def Carries (name : String) (version : Version) (o : Outside σ) : Prop :=
  (d.port.splitsTraffic = true ∧ d.port.splitTo o name = some version) ∨ d.port.served o name = some version

/-- The rollout is ROLLED_BACK and the candidate gets no traffic; no split is
left, and the stable version still serves if it did. -/
structure TakenBack (id : RolloutId) (name : String) (sv candidate : Version) (w w' : World σ) : Prop where
  row : ∃ r, w'.stored.rollouts.get? id = some r ∧ r.state = .rolledBack
  idle : ¬ d.Carries name candidate w'.outside
  split : d.port.splitsTraffic = true → d.port.splitTo w'.outside name = none
  served : d.port.served w.outside name = some sv → d.port.served w'.outside name = some sv

/-- The undo has a split to remove: one that is recorded, or one that it sees. -/
def Undoes (r : Rollout) (name : String) (o : Outside σ) : Prop :=
  d.port.splitsTraffic = true ∧ (0 < r.percent ∨ (d.port.splitTo o name).isSome = true)

/-- The undo leaves nothing on the candidate: it puts another version in its
place, or has nothing to do and the candidate does not serve. -/
def Clears (r : Rollout) (sv : Version) (name : String) (o : Outside σ) : Prop :=
  (d.Undoes r name o → sv ≠ r.candidateVersion) ∧
    (¬ d.Undoes r name o → d.port.served o name ≠ some r.candidateVersion)

/-- LIVE is what serves, but for a share that is recorded. -/
def Agrees (r : Rollout) (sv : Version) (name : String) (o : Outside σ) : Prop :=
  (d.port.splitsTraffic = true ∧ 0 < r.percent) ∨ d.port.served o name = some sv

section
variable {d} {o : Outside σ} {w w₁ : World σ} {name : String} {version sv : Version} {q : PromotionRequest}
  {m : ModelMetadata} {g : RolloutAnswers} {reg : Registry} {info : VersionInfo}

/-! ## The check before the move -/

theorem getVersion_ok (h : reg.versions name version = some info) :
    Registry.getVersion .ok name version reg = (.done info, reg) := by
  simp [Registry.getVersion, ask, perform, Fate.map, h]

theorem getVersion_missing (h : reg.versions name version = none) :
    Registry.getVersion .ok name version reg = (.raised (Registry.notFound name version), reg) := by
  simp [Registry.getVersion, ask, perform, Fate.map, h]

theorem downloadArtifacts_ok (h : reg.versions name version = some info) :
    Registry.downloadArtifacts .ok name version reg = (.done (info.size, info.sha256), reg) := by
  simp [Registry.downloadArtifacts, ask, perform, Fate.map, h]

theorem setVersionTag_ok {key value : String} (h : reg.versions name version = some info) :
    Registry.setVersionTag .ok name version key value reg = (.done (), reg.withTag name version key value) := by
  simp [Registry.setVersionTag, ask, perform, Fate.map, h]

theorem alias?_ok_iff {a : String} {D : Option Version → Registry → Prop} {R : AdaptationError → Registry → Prop}
    {S : Registry → Prop} : Ensures (Registry.alias? .ok name a) reg D R S ↔ D (reg.aliases name a) reg := by
  unfold Registry.alias?
  rw [Ensures.handle_iff, Ensures.bind_iff]
  cases h : reg.aliases name a with
  | some v =>
    have hdone : Registry.getVersionByAlias .ok name a reg = (.done v, reg) := by
      simp [Registry.getVersionByAlias, ask, perform, Fate.map, h]
    rw [Ensures.iff_done hdone]
    rfl
  | none =>
    have hraised : Registry.getVersionByAlias .ok name a reg = (.raised (Registry.noAlias name a), reg) := by
      simp [Registry.getVersionByAlias, ask, perform, Fate.map, h]
    rw [Ensures.iff_raised hraised, if_pos (show (Registry.noAlias name a).cls = .modelNotFound from rfl)]
    rfl

/-- A registry that answers either verifies the version, or refuses it and is
left as it was. -/
theorem verify_ok_ends : Ensures (d.verifyVersionArtifact {} name version) o.registry
    (fun _ reg => d.verifies o name version = true ∧ o.registry.Retagged reg)
    (fun e reg => d.verifies o name version = false ∧ Unverified e ∧ reg = o.registry) fun _ => False := by
  unfold verifyVersionArtifact
  rw [Ensures.bind_iff]
  cases hv : o.registry.versions name version with
  | none =>
    rw [Ensures.iff_raised (getVersion_missing hv)]
    exact ⟨by simp [verifies, hv], .inl rfl, rfl⟩
  | some info =>
    rw [Ensures.iff_done (getVersion_ok hv), Ensures.bind_iff, Ensures.iff_done (downloadArtifacts_ok hv)]
    dsimp only
    split
    · rename_i hsize
      exact .raise ⟨by simp [verifies, hv, Nat.not_le.mpr hsize], .inr (.inl rfl), rfl⟩
    · rename_i hsize
      have hle : info.size ≤ d.settings.artifactMaxBytes := Nat.le_of_not_lt hsize
      split
      · rename_i hexpected
        split
        · rename_i hdigest
          exact .ret ⟨by simp [verifies, hv, hle, hdigest], .refl _⟩
        · rename_i hdigest
          exact .raise ⟨by simp [verifies, hv, hdigest, hexpected], .inr (.inr rfl), rfl⟩
      · rename_i hexpected
        rw [Ensures.bind_iff, Ensures.iff_done (setVersionTag_ok hv)]
        rw [Decidable.not_not] at hexpected
        exact .ret ⟨by simp [verifies, hv, hle, hexpected], Registry.retagged_withTag ..⟩

theorem registered_of_verifies (h : d.verifies o name version = true) : (o.registry.versions name version).isSome := by
  unfold verifies at h
  split at h
  · cases h
  · rename_i hv
    rw [hv]
    rfl

theorem MoveWorks.of_rollout (hg : Deployer.RolloutWorks g) : MoveWorks { rollout := g } where
  setLive e := by simp
  liveReadBack := by simp
  rollout := hg
  tagLive := by simp
  tagArchived := by simp
  commit := ⟨by simp, fun e => by simp⟩
  revert := ⟨fun _ => rfl, by simp⟩
  restoreLive := .inl rfl

/-- Why a promotion raises whose calls are answered but for the deployment's:
LIVE moved, the version is not verified, or the move was refused. -/
inductive Raised (d : Delivery σ) (name : String) (sv version : Version) (w : World σ) (e : AdaptationError) :
    World σ → Prop where
  | moved (live : w.outside.live name d.settings.liveAlias ≠ some sv)
      (h : e.cls = .conflict) : Raised d name sv version w e w
  | unverified (live : w.outside.live name d.settings.liveAlias = some sv)
      (fails : d.verifies w.outside name version = false) (h : Unverified e) : Raised d name sv version w e w
  | refused (live : w.outside.live name d.settings.liveAlias = some sv) (passes : d.verifies w.outside name version = true)
      (differ : sv ≠ version) (h : e.cls = .promotion) (w' : World σ)
      (undone : d.Undone name sv w.outside w.stored w') : Raised d name sv version w e w'

theorem promoteVersion_raises (hP : d.port.Lawful d.settings.liveAlias) (hg : Deployer.RolloutWorks g)
    (hw : w.session = w.stored) (hm : w.session.db.models.get? q.modelId = some m) (hexp : q.expectedLive = some sv) :
    Ensures (d.promoteVersion { rollout := g } q) w (fun _ _ => True)
      (fun e w' => Raised d m.mlflowModelName sv q.version w e w') fun _ => True := by
  refine .bind (.get ?_)
  cases q.earlier w.session with
  | some earlier => exact .ret trivial
  | none =>
    dsimp only
    refine .bind (.bind (.get ?_))
    rw [hm]
    refine .ret (.bind (reach_ends (.within ?_)))
    rw [alias?_ok_iff]
    split
    · rename_i hmoved
      rw [hexp] at hmoved
      exact .raise (.moved hmoved.2 rfl)
    · rename_i hlive
      rw [hexp, not_and_not_right] at hlive
      have hlive : w.outside.live m.mlflowModelName d.settings.liveAlias = some sv := hlive (by simp)
      split
      · exact .bind (.modify (.bind (commit_ok (.ret trivial))))
      · rename_i hother
        have hdiffer : sv ≠ q.version := fun h => hother (h ▸ hlive)
        refine .bind (reach_ends (.within (verify_ok_ends.mono ?_ ?_ fun _ h => h.elim)))
        · rintro digest reg ⟨hpasses, hretag⟩
          have ho : w.outside.Retagged { w.outside with registry := reg } := ⟨hretag, rfl⟩
          obtain ⟨info, hinfo⟩ := Option.isSome_iff_exists.mp (hretag.kept _ _ (registered_of_verifies hpasses))
          refine .bind (reach_ends (.within ?_))
          rw [Ensures.iff_done (getVersion_ok hinfo),
            show w.outside.registry.aliases m.mlflowModelName d.settings.liveAlias = some sv from hlive]
          refine (applyMove_ends hP (.of_rollout hg) (w := { w with outside := { w.outside with registry := reg } })
            ⟨m.mlflowModelName, q.version, info.source⟩ _ hw ((ho.live ..).trans hlive)).mono ?_ ?_ fun _ _ => trivial
          · exact fun _ _ _ => trivial
          · exact fun e w' ⟨he, hu⟩ => .refused hlive hpasses hdiffer he w'
              ⟨hu.stored, hu.session, .of_retagged hP ho hu.outside⟩
        · rintro e reg ⟨hfails, he, rfl⟩
          exact .unverified hlive hfails he

/-! ## Taking the candidate back -/

variable {id : RolloutId} {r : Rollout} {f : ControllerAnswers} {dec : Decision} {now clock : Time}
  {stable candidate : ArmStats}

/-- What an undo that returns leaves of the outside `o`. -/
structure Cleared (d : Delivery σ) (r : Rollout) (sv : Version) (name : String) (o o' : Outside σ) : Prop where
  split : d.port.splitsTraffic = true → d.port.splitTo o' name = none
  undone : d.Undoes r name o → d.port.served o' name = some sv
  same : ¬ d.Undoes r name o → o' = o

theorem Cleared.served {o' : Outside σ} (h : d.Cleared r sv name o o') (hs : d.port.served o name = some sv) :
    d.port.served o' name = some sv := by
  by_cases hundoes : d.Undoes r name o
  · exact h.undone hundoes
  · rw [h.same hundoes]
    exact hs

theorem Cleared.idle_iff {o' : Outside σ} (h : d.Cleared r sv name o o') :
    ¬ d.Carries name r.candidateVersion o' ↔ d.Clears r sv name o := by
  have hsplit : ¬ (d.port.splitsTraffic = true ∧ d.port.splitTo o' name = some r.candidateVersion) := by
    rintro ⟨hs, hc⟩
    rw [h.split hs] at hc
    cases hc
  rw [Carries, Clears, or_iff_right hsplit]
  by_cases hundoes : d.Undoes r name o
  · simp [hundoes, h.undone hundoes]
  · simp [hundoes, h.same hundoes]

theorem undoTraffic_leaves (hP : d.port.Lawful d.settings.liveAlias) (hr : w.session.rollouts.get? id = some r)
    (hm : w.session.db.models.get? r.modelId = some m) (hst : r.stableVersion = some sv) :
    Ensures (d.undoTraffic f id) w
      (fun _ w' => w'.session = w.session ∧ d.Cleared r sv m.mlflowModelName w.outside w'.outside)
      (fun _ _ => True) fun _ => True := by
  have hsplit : d.Undoes r m.mlflowModelName w.outside → Ensures (d.splitTraffic f.undo f.undoTarget .ok id 0) w
      (fun _ w' => w'.session = w.session ∧ d.Cleared r sv m.mlflowModelName w.outside w'.outside)
      (fun _ _ => True) fun _ => True := by
    intro hundoes
    have hname : ∀ m', w.session.db.models.get? r.modelId = some m' → m'.mlflowModelName = m.mlflowModelName := by
      intro m' hm'
      rw [Option.some.inj (hm.symm.trans hm')]
    refine (splitTraffic_ends hP hr hname).mono ?_ (fun _ _ _ => trivial) fun _ _ => trivial
    rintro _ w' ⟨hmoved, -, hserved⟩
    obtain ⟨hserved, hnone⟩ := hserved rfl
    refine ⟨?_, fun _ => hnone, fun _ => hserved.trans hst, fun hno => absurd hundoes hno⟩
    cases hmoved <;> rfl
  refine .bind (getRollout_ends hr ?_)
  split
  · rename_i hno
    have hsplits : ¬ d.port.splitsTraffic = true := by
      rcases hno with hno | hno
      · simp [hno]
      · rw [hst] at hno; cases hno
    exact .ret ⟨rfl, fun h => absurd h hsplits, fun h => absurd h.1 hsplits, fun _ => rfl⟩
  · rename_i hsplits
    rw [not_or, Bool.not_eq_false] at hsplits
    split
    · rename_i hpercent
      exact hsplit ⟨hsplits.1, .inl hpercent⟩
    · rename_i hpercent
      refine .bind (Subject.nameOf_found hm (.bind
        (reach_ends ((hP.traffic f.traffic _ w.outside).mono ?_ (fun _ _ _ => trivial)
        fun _ _ => trivial))))
      rintro t _ ⟨rfl, ht⟩
      refine .skipIf (fun hn => ⟨rfl, fun _ => ht.symm.trans hn, fun h => ?_, fun _ => rfl⟩) fun hsome => ?_
      · rcases h.2 with h | h
        · exact absurd h hpercent
        · rw [← ht, hn] at h
          cases h
      · exact hsplit ⟨hsplits.1, .inr (ht ▸ Option.isSome_iff_ne_none.mpr hsome)⟩

theorem takenBack_ends (hP : d.port.Lawful d.settings.liveAlias) (hr : w₁.stored.rollouts.get? id = some r)
    (hm : w₁.stored.db.models.get? r.modelId = some m) (hst : r.stableVersion = some sv)
    (hserved : d.port.served w.outside m.mlflowModelName = some sv → d.port.served w₁.outside m.mlflowModelName = some sv)
    (hundone : (d.undoTraffic f id { w₁ with session := w₁.stored }).1.returned = true) (now : Time) (model : ModelId)
    (holder : Holder) :
    Ensures (d.undoTraffic f id) { w₁ with session := w₁.stored }
      (fun _ w' => d.TakenBack id m.mlflowModelName sv r.candidateVersion w
          ((w'.recorded id fun r => r.record .rolledBack now "system" (some 0) none none).unlocked model holder) ↔
        d.Clears r sv m.mlflowModelName w₁.outside)
      (fun _ _ => False) fun _ => False := by
  have hleaves := (undoTraffic_leaves (f := f) (w := { w₁ with session := w₁.stored }) hP hr hm hst).and (.self _ _)
  refine hleaves.mono ?_ ?_ ?_
  · rintro _ w' ⟨⟨hse, hcleared⟩, -⟩
    refine ⟨fun h => hcleared.idle_iff.mp h.idle, fun h => ?_⟩
    refine ⟨⟨r.record .rolledBack now "system" (some 0) none none, ?_, rfl⟩, hcleared.idle_iff.mpr h, hcleared.split,
      fun hs => hcleared.served (hserved hs)⟩
    simp [World.unlocked, World.recorded, hse, hr]
  · rintro e w' ⟨-, he⟩
    rw [he] at hundone
    cases hundone
  · rintro w' ⟨-, he⟩
    rw [he] at hundone
    cases hundone

theorem act_promotes (hr : w.session.rollouts.get? id = some r) (hp : dec.promotes r = true) {actor : String}
    {D : Unit → World σ → Prop} {R : AdaptationError → World σ → Prop} {S : World σ → Prop} :
    Ensures (d.act f id now actor dec) w D R S ↔ Ensures (d.promote f id now actor) w D R S := by
  cases dec with
  | promote => rfl
  | enterCanary =>
    change Ensures (d.enterCanary f id now actor) w D R S ↔ _
    unfold enterCanary
    rw [Ensures.bind_iff, getRollout_iff hr]
    have hfirst := (Subject.firstPercent_canary r.policy).1
    rw [hfirst]
    dsimp only
    rw [if_pos (of_decide_eq_true hp _ hfirst)]
  | _ => cases hp

/-- What a failing tick leaves: an ended rollout if LIVE moved or the candidate
verifies, and otherwise everything as it was. -/
inductive FailureLeaves (d : Delivery σ) (id : RolloutId) (r : Rollout) (sv : Version)
    (m : ModelMetadata) (w w' : World σ) :
    Prop where
  | moved (live : w.outside.live m.mlflowModelName d.settings.liveAlias ≠ some sv)
      (back : d.TakenBack id m.mlflowModelName sv r.candidateVersion w w' ↔ d.Clears r sv m.mlflowModelName w.outside) :
      FailureLeaves d id r sv m w w'
  | refused (live : w.outside.live m.mlflowModelName d.settings.liveAlias = some sv)
      (passes : d.verifies w.outside m.mlflowModelName r.candidateVersion = true)
      (back : d.Agrees r sv m.mlflowModelName w.outside → d.TakenBack id m.mlflowModelName sv r.candidateVersion w w') :
      FailureLeaves d id r sv m w w'
  | kept (live : w.outside.live m.mlflowModelName d.settings.liveAlias = some sv)
      (fails : d.verifies w.outside m.mlflowModelName r.candidateVersion = false)
      (rollouts : w'.stored.rollouts = w.stored.rollouts) (outside : w'.outside = w.outside) : FailureLeaves d id r sv m w w'

theorem FailingTick.leaves (hP : d.port.Lawful d.settings.liveAlias)
    (h : d.FailingTick f now clock stable candidate id w r sv m) :
    FailureLeaves d id r sv m w ((RolloutCall.tick f now clock stable candidate).run d id w) := by
  obtain ⟨hr, ha, hm, hst, hfree, hf, ⟨dec, hd, hp⟩, ⟨g, hg, hworks⟩, hfails⟩ := h
  have hl := lockedAt_locked hf.lock hfree
  have hget := hl.get hr
  have hmodel := hl.model hm
  have hstored : (d.lockedAt f id r clock w).stored.rollouts.get? id = some r := hl.session ▸ hget
  have hmstored : (d.lockedAt f id r clock w).stored.db.models.get? r.modelId = some m := hl.session ▸ hmodel
  refine Ensures.after (m := d.tick f id now clock stable candidate) ?_
  rw [tick_iff hr ha hm hfree hf hd, act_promotes hget hp, promote_iff hf hl.session hget, hg]
  unfold PromotionFails at hfails
  rw [hg] at hfails
  refine ((promoteVersion_raises hP hworks hl.session hmodel hst).and hfails).mono (fun _ _ h => h.2.elim) ?_
    fun _ h => h.2.elim
  rintro e w' ⟨hraised, hundone⟩
  cases hraised with
  | moved live h =>
    rw [hl.outside] at live
    rw [if_pos (.inr (by rw [h]; rfl))]
    refine (takenBack_ends hP hstored hmstored hst (fun h => hl.outside ▸ h) hundone now r.modelId (.rollout id)).mono ?_
      (fun _ _ h => h.elim) fun _ h => h.elim
    rw [hl.outside]
    exact fun _ _ h => .moved live h
  | unverified live fails h =>
    rw [hl.outside] at live fails
    have hcls : ¬ (e.cls = .promotion ∨ e.cls.isConflict = true) := by
      rcases h with h | h | h <;> rw [h] <;> decide
    have hcaught : ¬ e.caughtByTick = true := by
      rcases h with h | h | h <;> simp [AdaptationError.caughtByTick, h]
    rw [if_neg hcls, if_neg hcaught]
    exact .kept live fails hl.same.rollouts hl.outside
  | refused live passes differ h _ undone =>
    rw [hl.outside] at live passes
    rw [if_pos (.inl h)]
    have hserved : d.port.served w.outside m.mlflowModelName = some sv →
        d.port.served w'.outside m.mlflowModelName = some sv := by
      intro hs
      have hregistered : ∀ v, d.port.served w.outside m.mlflowModelName = some v →
          (w.outside.registry.versions m.mlflowModelName v).isSome := by
        intro v hv
        obtain rfl := Option.some.inj (hs.symm.trans hv)
        exact w.outside.registry.registered _ _ _ live
      rw [← hl.outside] at hs hregistered
      rcases undone.outside.served hregistered with hs' | hs'
      · exact hs'.trans hs
      · exact hs'
    refine (takenBack_ends hP ?_ ?_ hst hserved hundone now r.modelId (.rollout id)).mono ?_ (fun _ _ h => h.elim)
      fun _ h => h.elim
    · rw [undone.stored]
      exact hstored
    · rw [undone.stored]
      exact hmstored
    · refine fun _ _ h => .refused live passes fun hagrees => h.mpr ⟨fun _ => differ, fun hno => ?_⟩
      rcases hagrees with ⟨hsplits, hpercent⟩ | hagrees
      · exact absurd ⟨hsplits, .inl hpercent⟩ hno
      · rw [hserved hagrees]
        exact fun h => differ (Option.some.inj h)

theorem share_stays (hP : d.port.Lawful d.settings.liveAlias) {w₀ : World σ}
    (hlive : w₀.outside.live m.mlflowModelName d.settings.liveAlias = some sv)
    (hverifies : d.verifies w₀.outside m.mlflowModelName r.candidateVersion = false)
    (hrun : Runs.Steps (fun w (c : RolloutCall) => some (c.run d id w)) (fun w c => ∃ f now clock stable candidate,
      c = .tick f now clock stable candidate ∧ d.FailingTick f now clock stable candidate id w r sv m) w₀ w) :
    w.stored.rollouts = w₀.stored.rollouts ∧ w.outside = w₀.outside := by
  refine hrun.inv (fun w => w.stored.rollouts = w₀.stored.rollouts ∧ w.outside = w₀.outside) ?_ ⟨rfl, rfl⟩
  rintro w₁ c w₂ ⟨hrollouts, houtside⟩ ⟨f, now, clock, stable, candidate, rfl, htick⟩ hs
  rw [Option.some.injEq] at hs
  rw [← hs]
  cases htick.leaves hP with
  | moved live =>
    rw [houtside] at live
    exact absurd hlive live
  | refused live passes =>
    rw [houtside, hverifies] at passes
    cases passes
  | kept live fails rollouts outside => exact ⟨rollouts.trans hrollouts, outside.trans houtside⟩

end

end Delivery

namespace Subject

end Subject

end OranAdapt
