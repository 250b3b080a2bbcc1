import Mathlib.Data.List.Chain
import OranAdapt.AllOrNothing
import OranAdapt.Rollback
import OranAdapt.RolloutStages

/-!
# The history of a model's promotions is a chain

Each applied promotion starts where the one before it ended, and LIVE is where
the last one ended. A rollback asks for its target's checks before it looks its
key up, so a repeated one can be refused.
-/

namespace OranAdapt

open Effects World Outside Delivery

/-- The promotions of a model that moved LIVE, in the order of their ids. -/
def applied (model : ModelId) (s : Records) : List ModelPromotion :=
  s.promotions.filter fun row => row.modelId = model ∧ row.status = .applied

def firstUnder (key : Option String) (s : Records) : Option ModelPromotion :=
  match key with
  | some key => if key = "" then none else s.promotions.find? fun row => row.idempotencyKey = some key
  | none => none

theorem PromotionRequest.earlier_eq (q : PromotionRequest) (s : Records) : q.earlier s = firstUnder q.idempotencyKey s := rfl

theorem lastAppliedPromotion_eq (s : Records) (model : ModelId) :
    lastAppliedPromotion s model = (applied model s).getLast? := by
  unfold lastAppliedPromotion applied
  rw [← List.head?_filter, List.filter_reverse, List.head?_reverse]

inductive MoveCall where
  | promote (f : PromoteAnswers) (q : PromotionRequest)
  | rollback (f : RollbackAnswers) (q : RollbackRequest) (actor : String) (key : Option String)

namespace MoveCall

variable {σ : Type}

def run (d : Delivery σ) (model : ModelId) : MoveCall → WorldAct σ ModelPromotion
  | promote f q => d.promoteVersion f { q with modelId := model }
  | rollback f q actor key => d.rollbackModel f model q actor key

def answers : MoveCall → PromoteAnswers
  | promote f _ => f
  | rollback f _ _ _ => f.promote

def key : MoveCall → Option String
  | promote _ q => q.idempotencyKey
  | rollback _ _ _ key => key

def version (model : ModelId) (s : Records) : MoveCall → Option Version
  | promote _ q => some q.version
  | rollback _ q _ _ => q.targetVersion.or ((lastAppliedPromotion s model).bind ModelPromotion.fromVersion)

/-- What fails of it had no effect on LIVE or the history, and what restores
works. -/
structure Undoable (c : MoveCall) : Prop where
  sharp : c.answers.Sharp
  restoring : RestoringWorks c.answers

/-- A call in a session of its own; one whose process stops is none. -/
def step (d : Delivery σ) (model : ModelId) (w : World σ) (c : MoveCall) : Option (World σ) :=
  match c.run d model w.reopened with
  | (.stopped, _) => none
  | (_, w') => some w'

end MoveCall

namespace Delivery

variable {σ : Type} (d : Delivery σ)

def rollbackTarget (f : RollbackAnswers) (model : ModelId) (q : RollbackRequest) : WorldAct σ Version := do
  let info ← modelMeta model
  let w ← .get
  match q.targetVersion.or ((lastAppliedPromotion w.session model).bind ModelPromotion.fromVersion) with
  | none => .raise ⟨.conflict, "no earlier live version on record to roll back to", [("model_id", .str model)]⟩
  | some version => do
    let _ ← reach (ofRegistry (Registry.getVersion f.version info.mlflowModelName version))
    let _ ← reach (ofRegistry (d.verifyVersionArtifact f.verify info.mlflowModelName version))
    if info.framework = none then
      .raise ⟨.artifactError, s!"model '{model}' has no framework on record; cannot check the rollback target",
        [("model_id", .str model), ("version", .str version)]⟩
    else do
      loadTarget f.load model version
      pure version

def rollbackRequest (model : ModelId) (q : RollbackRequest) (actor : String) (key : Option String) (version : Version) :
    PromotionRequest :=
  ⟨model, version, .rollback, if q.reason = "" then s!"rollback to version {version}"
    else q.reason, actor, none, none, key⟩

theorem rollbackModel_eq (f : RollbackAnswers) (model : ModelId) (q : RollbackRequest) (actor : String)
    (key : Option String) : d.rollbackModel f model q actor key =
      d.rollbackTarget f model q >>= fun version =>
        d.promoteVersion f.promote (rollbackRequest model q actor key version) := by
  unfold rollbackModel rollbackTarget
  rw [bind_assoc]
  refine bind_congr fun info => ?_
  rw [bind_assoc]
  refine bind_congr fun w => ?_
  cases q.targetVersion.or ((lastAppliedPromotion w.session model).bind ModelPromotion.fromVersion) with
  | none => rfl
  | some version =>
    dsimp only
    simp only [bind_assoc]
    refine bind_congr fun _ => bind_congr fun _ => ?_
    split
    · rfl
    · rw [bind_assoc]
      exact bind_congr fun _ => rfl

/-- The version is registered, its artifact is not too large and its checksum is
on record and matches (or recording it changes nothing). -/
structure Verified (g : VerifyAnswers) (name : String) (version : Version) (o : Outside σ) (i : VersionInfo) : Prop where
  calls : g.info = .ok ∧ g.download = .ok
  known : o.registry.versions name version = some i
  size : i.size ≤ d.settings.artifactMaxBytes
  checksum : (i.tags.lookup d.settings.registryTagsChecksum).getD "" ≠ "" ∧
      i.sha256 = (i.tags.lookup d.settings.registryTagsChecksum).getD "" ∨
    (i.tags.lookup d.settings.registryTagsChecksum).getD "" = "" ∧ g.tag = .ok ∧
      o.registry.withTag name version d.settings.registryTagsChecksum i.sha256 = o.registry

/-- A rollback's target passes its checks, and they leave nothing behind. -/
structure Passes (f : RollbackAnswers) (model : ModelId) (q : RollbackRequest) (w : World σ) : Prop where
  calls : f.version = .ok ∧ f.load = .ok
  checked : ∃ info version i, w.session.db.models.get? model = some info ∧ info.framework ≠ none ∧
    q.targetVersion.or ((lastAppliedPromotion w.session model).bind ModelPromotion.fromVersion) = some version ∧
    d.Verified f.verify info.mlflowModelName version w.outside i

section
variable {d} {o : Outside σ} {name : String} {version : Version}

theorem getVersion_cases {x : Answer} : Ensures (ofRegistry (Registry.getVersion x name version)) o
    (fun i o' => o' = o ∧ x = .ok ∧ o.registry.versions name version = some i)
    (fun _ o' => o' = o ∧ ¬ (x = .ok ∧ (o.registry.versions name version).isSome)) (fun o' => o' = o) := by
  refine .within ?_
  cases hv : o.registry.versions name version <;> cases x <;>
    simp [Ensures, Registry.getVersion, ask, perform, Fate.map, hv]

theorem downloadArtifacts_cases {x : Answer} {i : VersionInfo} {r : Registry} (h : r.versions name version = some i) :
    Ensures (Registry.downloadArtifacts x name version) r (fun a r' => r' = r ∧ x = .ok ∧ a = (i.size, i.sha256))
      (fun _ r' => r' = r ∧ x ≠ .ok) (fun r' => r' = r) := by
  cases x <;> simp [Ensures, Registry.downloadArtifacts, ask, perform, Fate.map, h]

theorem verify_cases {g : VerifyAnswers} : Ensures (ofRegistry (d.verifyVersionArtifact g name version)) o
    (fun _ o' => o.Retagged o' ∧ (o' = o ↔ ∃ i, d.Verified g name version o i))
    (fun _ o' => o.Retagged o' ∧ ¬ ∃ i, d.Verified g name version o i) o.Retagged := by
  have hsame : o.Retagged o := ⟨.refl _, rfl⟩
  refine .within (.bind ?_)
  have hget : Ensures (Registry.getVersion g.info name version) o.registry
      (fun i r' => r' = o.registry ∧ g.info = .ok ∧ o.registry.versions name version = some i)
      (fun _ r' => r' = o.registry ∧ ¬ (g.info = .ok ∧ (o.registry.versions name version).isSome))
      (fun r' => r' = o.registry) := by
    cases hv : o.registry.versions name version <;> cases g.info <;>
      simp [Ensures, Registry.getVersion, ask, perform, Fate.map, hv]
  have hstop : ∀ r', r' = o.registry → o.Retagged { o with registry := r' } := by
    rintro _ rfl
    exact hsame
  refine hget.mono ?_ ?_ hstop
  · rintro i _ ⟨rfl, hinfo, hi⟩
    refine .bind ((downloadArtifacts_cases hi).mono ?_ ?_ hstop)
    · rintro _ _ ⟨rfl, hdown, rfl⟩
      dsimp only
      have honly : ∀ {i'}, d.Verified g name version o i' → i' = i := fun h => Option.some.inj (h.known.symm.trans hi)
      split
      · rename_i hlarge
        refine .raise ⟨hsame, ?_⟩
        rintro ⟨i', h⟩
        obtain rfl := honly h
        exact absurd h.size (by omega)
      · rename_i hsize
        have hsize : i.size ≤ d.settings.artifactMaxBytes := by omega
        split
        · rename_i hexp
          split
          · rename_i hdig
            exact .ret ⟨hsame, fun _ => ⟨i, ⟨hinfo, hdown⟩, hi, hsize, .inl ⟨hexp, hdig⟩⟩, fun _ => rfl⟩
          · rename_i hdig
            refine .raise ⟨hsame, ?_⟩
            rintro ⟨i', h⟩
            obtain rfl := honly h
            rcases h.checksum with ⟨-, he⟩ | ⟨he, -⟩
            · exact hdig he
            · exact hexp he
        · rename_i hexp
          rw [not_not] at hexp
          -- the checksum is recorded now
          have hv : (o.registry.versions name version).isSome := by rw [hi]; rfl
          have htag : o.Retagged _ := retagged_withTag o name version d.settings.registryTagsChecksum i.sha256
          have hnot : g.tag ≠ .ok → ¬ ∃ i, d.Verified g name version o i := by
            rintro hne ⟨i', h⟩
            obtain rfl := honly h
            rcases h.checksum with ⟨he, -⟩ | ⟨-, ht, -⟩
            · exact he hexp
            · exact hne ht
          have hset : Ensures (Registry.setVersionTag g.tag name version d.settings.registryTagsChecksum i.sha256) o.registry
              (fun _ r' => g.tag = .ok ∧ r' = o.registry.withTag name version d.settings.registryTagsChecksum i.sha256)
              (fun _ r' => g.tag ≠ .ok ∧ (r' = o.registry ∨
                r' = o.registry.withTag name version d.settings.registryTagsChecksum i.sha256))
              (fun r' => r' = o.registry) := by
            cases g.tag <;> simp [Ensures, Registry.setVersionTag, ask, perform, Fate.map, hv]
          refine .bind (hset.mono ?_ ?_ hstop)
          · rintro _ _ ⟨hok, rfl⟩
            refine .ret ⟨htag, fun he => ⟨i, ⟨hinfo, hdown⟩, hi, hsize, .inr ⟨hexp, hok, ?_⟩⟩, ?_⟩
            · exact congrArg Outside.registry he
            · rintro ⟨i', h⟩
              obtain rfl := honly h
              rcases h.checksum with ⟨he, -⟩ | ⟨-, -, he⟩
              · exact absurd hexp he
              · rw [he]
          · rintro _ _ ⟨hne, rfl | rfl⟩
            · exact ⟨hsame, hnot hne⟩
            · exact ⟨htag, hnot hne⟩
    · rintro _ _ ⟨rfl, hdown⟩
      exact ⟨hsame, fun hv => hv.elim fun _ h => hdown h.calls.2⟩
  · rintro _ _ ⟨rfl, hinfo⟩
    refine ⟨hsame, ?_⟩
    rintro ⟨_, h⟩
    refine hinfo ⟨h.calls.1, ?_⟩
    rw [h.known]
    rfl

/-- Looking at a rollback's target records at most a checksum. -/
structure Looked (w w' : World σ) : Prop where
  stored : w'.stored = w.stored
  session : w'.session = w.session
  outside : w.outside.Retagged w'.outside

theorem rollbackTarget_cases {f : RollbackAnswers} {model : ModelId} {q : RollbackRequest} {w : World σ} :
    Ensures (d.rollbackTarget f model q) w
      (fun v w' => Looked w w' ∧ (w' = w ↔ d.Passes f model q w) ∧
        q.targetVersion.or ((lastAppliedPromotion w.session model).bind ModelPromotion.fromVersion) = some v)
      (fun _ w' => Looked w w' ∧ ¬ d.Passes f model q w) (Looked w) := by
  have hsame : Looked w w := ⟨rfl, rfl, ⟨.refl _, rfl⟩⟩
  refine .bind (.bind (.get ?_))
  cases hinfo : w.session.db.models.get? model with
  | none =>
    refine .raise ⟨hsame, fun h => ?_⟩
    obtain ⟨info, -, -, hi, -⟩ := h.checked
    cases hinfo.symm.trans hi
  | some info =>
    refine .ret (.bind (.get ?_))
    cases hversion : q.targetVersion.or ((lastAppliedPromotion w.session model).bind ModelPromotion.fromVersion) with
    | none =>
      refine .raise ⟨hsame, fun h => ?_⟩
      obtain ⟨-, v, -, -, -, hv, -⟩ := h.checked
      cases hversion.symm.trans hv
    | some version =>
      -- the checks are of this model and of this version
      have honly : d.Passes f model q w → info.framework ≠ none ∧
          ∃ i, d.Verified f.verify info.mlflowModelName version w.outside i := by
        intro h
        obtain ⟨info', v, i, hi, hfw, hv, hver⟩ := h.checked
        obtain rfl := Option.some.inj (hinfo.symm.trans hi)
        obtain rfl := Option.some.inj (hversion.symm.trans hv)
        exact ⟨hfw, i, hver⟩
      refine .bind (reach_ends (getVersion_cases.mono ?_ ?_ ?_))
      · rintro i _ ⟨rfl, hget, hi⟩
        refine .bind (reach_ends (verify_cases.mono ?_ ?_ fun o' hr => ⟨rfl, rfl, hr⟩))
        · rintro _ o' ⟨hr, hiff⟩
          have hlook : Looked w { w with outside := o' } := ⟨rfl, rfl, hr⟩
          split
          · rename_i hfw
            exact .raise ⟨hlook, fun h => (honly h).1 hfw⟩
          · rename_i hfw
            have hload : Ensures (loadTarget f.load model version) { w with outside := o' }
                (fun _ w' => w' = { w with outside := o' } ∧ f.load = .ok)
                (fun _ w' => w' = { w with outside := o' } ∧ f.load ≠ .ok) (fun w' => w' = { w with outside := o' }) := by
              unfold loadTarget
              cases f.load <;> simp [Ensures, Act.handle, perform, Act.raise]
            refine .bind (hload.mono ?_ ?_ ?_)
            · rintro _ _ ⟨rfl, hok⟩
              refine .ret ⟨hlook, ⟨fun he => ?_, fun h => ?_⟩, rfl⟩
              · obtain ⟨i', hver⟩ := hiff.mp (congrArg World.outside he)
                exact ⟨⟨hget, hok⟩, info, version, i', hinfo, hfw, hversion, hver⟩
              · obtain ⟨-, hver⟩ := honly h
                rw [hiff.mpr hver]
            · rintro _ _ ⟨rfl, hno⟩
              exact ⟨hlook, fun h => hno h.calls.2⟩
            · rintro _ rfl
              exact hlook
        · rintro _ o' ⟨hr, hno⟩
          exact ⟨⟨rfl, rfl, hr⟩, fun h => hno (honly h).2⟩
      · rintro _ _ ⟨rfl, hno⟩
        refine ⟨hsame, fun h => ?_⟩
        obtain ⟨-, i, hver⟩ := honly h
        refine hno ⟨h.calls.1, ?_⟩
        rw [hver.known]
        rfl
      · rintro _ rfl
        exact hsame

end

end Delivery

/-! ## With a serving system that answers -/

/-- It takes every registered version and is ready with it. -/
structure DeploymentPort.Prompt {σ : Type} (P : DeploymentPort σ) : Prop where
  status : ∀ name o, Ensures (P.status {} name) o (fun st _ => st.ready = true) (fun _ _ => False) (fun _ => True)
  deploy : ∀ t o, (o.registry.versions t.model t.version).isSome → Ensures (P.deploy (fun _ => .ok) t) o
    (fun _ o' => P.served o' t.model = some t.version) (fun _ _ => False) (fun _ => True)

theorem alias?_works (o : Outside σ) (name a : String) : Ensures (ofRegistry (Registry.alias? .ok name a)) o
    (fun _ o' => o' = o) (fun _ _ => False) (fun _ => True) := by
  refine .within (.handle (.bind ?_))
  cases ha : o.registry.aliases name a <;>
    simp [Ensures, Registry.getVersionByAlias, ask, perform, Fate.map, ha, Registry.noAlias, pure]

theorem RegistryAliasDeployment.prompt (d : RegistryAliasDeployment) : d.port.Prompt where
  status name o := .bind ((alias?_works o name d.aliasName).mono (fun _ _ _ => .ret rfl) (fun _ _ h => h) fun _ h => h)
  deploy t o h := by
    refine (setAlias_cases h).mono ?_ ?_ fun _ h => h
    · rintro _ _ ⟨-, rfl⟩
      exact live_withAlias o t.model d.aliasName t.version h
    · rintro _ _ (⟨⟨e, he⟩, -⟩ | ⟨⟨e, he⟩, -⟩) <;> cases he

theorem KServeDeployment.prompt (d : KServeDeployment) : d.port.Prompt where
  status name o := by
    have hget : Ensures (KServeDeployment.get .ok name) o (fun _ o' => o' = o) (fun _ _ => False) (fun _ => True) := rfl
    refine .bind (hget.mono (fun obj _ _ => ?_) (fun _ _ h => h) fun _ h => h)
    cases obj with
    | none => exact .ret rfl
    | some obj => exact .ret rfl
  deploy t o _ := by
    show Ensures (d.deploy (fun _ => .ok) t) o _ _ _
    refine KServeDeployment.deploy_ends.mono ?_ ?_ fun _ _ => trivial
    · intro _ o' h
      show KServeDeployment.versionOf (o'.serving t.model) = _
      rw [KServeDeployment.Written.serving h]
      rfl
    · rintro _ _ ⟨-, ⟨i, hi⟩, -⟩
      exact hi rfl

namespace Delivery

section
variable {σ κ : Type} {d : Delivery σ} {split : Outside σ → String → TrafficSplit}
  {canary : Outside σ → String → Option κ}
  {drops : Bool} (hP : d.port.Restores d.settings split canary drops) (hprompt : d.port.Prompt) (ht : TagsApart d.settings)
  {name : String} {q : PromotionRequest} {w : World σ} {m : Move}

include hprompt in
theorem servingTarget_works (o : Outside σ) : Ensures (d.servingTarget {} .ok name) o (fun _ _ => True)
    (fun _ _ => False) (fun _ => True) := by
  refine .bind (.bind ((hprompt.status name o).mono (fun st o' _ => .ret ?_) (fun _ _ h => h) fun _ h => h))
  cases st.version with
  | none => exact .ret trivial
  | some v =>
    have hget : Ensures (Registry.getVersion .ok name v) o'.registry (fun _ _ => True)
        (fun e _ => e.cls = .modelNotFound) (fun _ => True) := by
      cases hv : o'.registry.versions name v <;>
        simp [Ensures, Registry.getVersion, ask, perform, Fate.map, hv, Registry.notFound]
    refine .bind (.within (.handle (.bind (hget.mono (fun _ _ _ => .ret (.ret trivial)) (fun e _ he => ?_) fun _ h => h))))
    rw [if_pos he]
    exact .ret (.ret trivial)

include hprompt in
theorem approach_works (hname : ∃ i j, w.session.db.models.get? q.modelId = some i ∧
    d.Verified {} i.mlflowModelName q.version w.outside j) (hexp : q.expectedLive = none) :
    Ensures (d.approach {} q) w (fun _ _ => True) (fun _ _ => False) (fun _ => True) := by
  obtain ⟨i, j, hi, hver⟩ := hname
  refine .bind (.get ?_)
  cases q.earlier w.session with
  | some earlier => exact .ret trivial
  | none =>
    refine .bind (.bind (.get ?_))
    rw [hi]
    refine .ret (.bind (reach_ends ?_))
    refine (alias?_works w.outside i.mlflowModelName d.settings.liveAlias).mono ?_ (fun _ _ h => h) fun _ h => h
    rintro previous _ rfl
    rw [if_neg fun h => h.1 hexp]
    split
    · exact .bind (.modify (.bind (commit_ok (.ret trivial))))
    · refine .bind (reach_ends (verify_cases.mono ?_ (fun _ _ h => h.2 ⟨j, hver⟩) fun _ _ => trivial))
      rintro digest _ ⟨-, hiff⟩
      rw [hiff.mpr ⟨j, hver⟩]
      refine .bind (reach_ends (getVersion_cases.mono ?_ ?_ fun _ _ => trivial))
      · rintro info _ ⟨rfl, -⟩
        refine .bind (.handle (.bind (.modify (.bind ?_))))
        exact flush_ok (reach_ends ((servingTarget_works hprompt _).mono (fun _ _ _ => .ret trivial)
          (fun _ _ h => h.elim) fun _ h => h))
      · rintro _ _ ⟨-, hno⟩
        refine hno ⟨rfl, ?_⟩
        rw [hver.known]
        rfl

include hP hprompt in
theorem carryOn_works {w₁ : World σ} (hr : Ready d canary q m w w₁) : Ensures (d.carryOn {} m) w₁ (fun _ _ => True)
    (fun _ _ => False) (fun _ => True) := by
  have hreg : (w₁.outside.registry.versions m.name m.target.version).isSome := by
    rw [hr.target.2]
    exact hr.registered
  refine .bind (.handle (reach_ends ((setAlias_cases hreg).mono ?_ ?_ fun _ h => h)))
  · rintro _ o₂ ⟨-, ho₂⟩
    have hlive₂ : o₂.live m.name d.settings.liveAlias = some m.target.version := by rw [ho₂]; exact live_withAlias ..
    have hv₂ : o₂.registry.versions = w₁.outside.registry.versions := by rw [ho₂]; rfl
    refine .bind (.handle ((confirmLive_cases hlive₂).mono ?_ (fun _ _ h => absurd rfl h.1) fun _ h => h))
    rintro _ _ ⟨-, rfl⟩
    -- the first poll finds the version ready
    have hroll : Ensures (Deployer.rollout d.port {} m.target m.before) o₂
        (fun _ o₃ => o₃.registry.versions = o₂.registry.versions) (fun _ _ => False) (fun _ => True) := by
      refine .handle (.bind (((hprompt.deploy m.target o₂ ?_).and (hP.deploy_frame _ m.target o₂)).mono ?_
        (fun _ _ h => h.1.elim) fun _ _ => trivial))
      · rw [hr.target.1, hv₂]
        exact hreg
      · rintro _ o₃ ⟨hs, hv, -⟩
        refine .bind (((hprompt.status _ o₃).and (hP.status {} _ o₃)).mono ?_ (fun _ _ h => h.1.elim) fun _ _ => trivial)
        rintro st _ ⟨hready, rfl, hver⟩
        rw [if_pos ⟨hready, hver.trans hs⟩]
        exact .ret hv
    refine .bind (.handle (reach_ends (hroll.mono ?_ (fun _ _ h => h.elim) fun _ h => h)))
    intro _ o₃ hv₃
    have hv : (o₃.registry.versions m.name m.target.version).isSome := by rw [hv₃, hv₂]; exact hreg
    have hp : ∀ p, m.previous = some p → (o₃.registry.versions m.name p).isSome := by
      intro p hp
      rw [hv₃, hv₂]
      exact hr.calm.registered _ _ (w.outside.registry.registered _ _ _ (hr.previous.symm.trans hp))
    have hsettle : Ensures (d.settleTags {} m.name m.target.version m.previous) { w₁ with outside := o₃ }
      (fun _ _ => True)
        (fun _ _ => False) (fun _ => True) := by
      refine .bind (reach_ends ((setVersionTag_cases hv).mono ?_ ?_ fun _ h => h))
      · rintro _ _ ⟨-, rfl⟩
        cases hprev : m.previous with
        | none => exact .bind (.ret (commit_ok trivial))
        | some p =>
          have hp₃ := (retagged_withTag o₃ m.name m.target.version d.settings.registryTagsStatus "LIVE").registry.kept _ _
            (hp p hprev)
          refine .bind (reach_ends ((setVersionTag_cases hp₃).mono (fun _ _ _ => commit_ok trivial) ?_ fun _ h => h))
          rintro _ _ (⟨⟨e, he⟩, -⟩ | ⟨⟨e, he⟩, -⟩) <;> cases he
      · rintro _ _ (⟨⟨e, he⟩, -⟩ | ⟨⟨e, he⟩, -⟩) <;> cases he
    exact .bind (.handle (hsettle.mono (fun _ _ _ => .ret trivial) (fun _ _ h => h.elim) fun _ h => h))
  · rintro _ _ (⟨⟨e, he⟩, -⟩ | ⟨⟨e, he⟩, -⟩) <;> cases he

include hP hprompt ht in
theorem promoteVersion_works (hws : w.session.promotions = w.stored.promotions)
    (hname : ∃ i j, w.session.db.models.get? q.modelId = some i ∧ d.Verified {} i.mlflowModelName q.version w.outside j)
    (hexp : q.expectedLive = none) : Ensures (d.promoteVersion {} q) w (fun _ _ => True) (fun _ _ => False)
      (fun _ => True) := by
  rw [d.promoteVersion_eq]
  refine .bind (((approach_works hprompt hname hexp).and (approach_ends hP ht hws)).mono ?_ (fun _ _ h => h.1) fun _ h => h.1)
  rintro (row | m) w₁ ⟨-, h⟩
  · exact .ret trivial
  · exact carryOn_works hP hprompt h

include hP hprompt ht in
theorem rollbackModel_works {model : ModelId} {r : RollbackRequest} {actor : String} {key : Option String}
    (hws : w.session.promotions = w.stored.promotions) (hpass : d.Passes {} model r w) :
    Ensures (d.rollbackModel {} model r actor key) w (fun _ _ => True) (fun _ _ => False) (fun _ => True) := by
  rw [rollbackModel_eq]
  refine .bind (rollbackTarget_cases.mono ?_ (fun _ _ h => h.2 hpass) fun _ _ => trivial)
  rintro v _ ⟨-, hiff, hv⟩
  rw [hiff.mpr hpass]
  obtain ⟨info, v', i, hi, -, hv', hver⟩ := hpass.checked
  obtain rfl := Option.some.inj (hv.symm.trans hv')
  exact promoteVersion_works hP hprompt ht hws ⟨info, i, hi, hver⟩ rfl

end

end Delivery

/-! ## What one call leaves -/

section
variable {σ κ : Type} {d : Delivery σ} {split : Outside σ → String → TrafficSplit}
  {canary : Outside σ → String → Option κ}
  {drops : Bool} (hP : d.port.Restores d.settings split canary drops) (ht : TagsApart d.settings) {model : ModelId}
  {name : String} {key : Option String} {asked expected : Option Version} {w w' : World σ}

inductive CallLeft (d : Delivery σ) (model : ModelId) (name : String) (key : Option String)
    (asked expected : Option Version) (w w' : World σ) : Ended AdaptationError ModelPromotion → Prop
  | replayed (row : ModelPromotion) (first : firstUnder key w.stored = some row) (same : d.SameHistory name w w') :
      CallLeft d model name key asked expected w w' (.done row)
  | idle (row : ModelPromotion) (status : row.status = .noChange) (version : asked = some row.toVersion)
      (history : w'.stored.promotions = w.stored.promotions ++ [row])
      (live : w'.outside.live name d.settings.liveAlias = w.outside.live name d.settings.liveAlias)
      (there : w'.outside.live name d.settings.liveAlias = some row.toVersion) :
      CallLeft d model name key asked expected w w' (.done row)
  | moved (row : ModelPromotion) (status : row.modelId = model ∧ row.status = .applied)
      (version : asked = some row.toVersion) (source : row.fromVersion = w.outside.live name d.settings.liveAlias)
      (wanted : expected = none ∨ w.outside.live name d.settings.liveAlias = expected)
      (history : w'.stored.promotions = w.stored.promotions ++ [row])
      (live : w'.outside.live name d.settings.liveAlias = some row.toVersion) :
      CallLeft d model name key asked expected w w' (.done row)
  | failed (e : AdaptationError) (same : d.SameHistory name w w') :
      CallLeft d model name key asked expected w w' (.raised e)

def Named (model : ModelId) (name : String) (w : World σ) : Prop :=
  ∃ i, w.session.db.models.get? model = some i ∧ i.mlflowModelName = name

include hP ht in
theorem promoteVersion_left {f : PromoteAnswers} {q : PromotionRequest} (hsharp : f.Sharp) (hf : RestoringWorks f)
    (hws : w.session = w.stored) (hname : Named q.modelId name w) : Ensures (d.promoteVersion f q) w
      (fun row w' => CallLeft d q.modelId name q.idempotencyKey (some q.version) q.expectedLive w w' (.done row))
      (fun e w' => CallLeft d q.modelId name q.idempotencyKey (some q.version) q.expectedLive w w' (.raised e))
      (fun _ => True) := by
  obtain ⟨i, hi, rfl⟩ := hname
  refine (promoteVersion_cases hP ht hf (by rw [hws])).mono ?_ ?_ fun _ h => h
  · rintro row w' ((⟨hearlier, rfl⟩ | h) | ⟨i', hi', h⟩)
    · rw [q.earlier_eq, hws] at hearlier
      exact .replayed row hearlier ⟨rfl, rfl⟩
    · refine .idle row h.idle.1 (by rw [h.recorded.toVersion]) ?_ (by rw [h.outside]) ?_
      · rw [h.latest, hws]
      · rw [h.outside, h.live i hi, h.recorded.toVersion]
    · obtain rfl := Option.some.inj (hi.symm.trans hi')
      refine .moved row ⟨h.recorded.modelId, h.applied.1⟩ (by rw [h.recorded.toVersion]) h.applied.2 h.expected ?_ ?_
      · rw [h.latest, hws]
      · rw [h.live, h.recorded.toVersion]
  · rintro e w' ⟨-, hsame⟩
    exact .failed e (hsame hsharp i hi)

theorem CallLeft.of_looked {w₁ : World σ} {ended : Ended AdaptationError ModelPromotion} (hl : Looked w w₁)
    (h : CallLeft d model name key asked expected w₁ w' ended) : CallLeft d model name key asked expected w w' ended := by
  have hlive : w₁.outside.live name d.settings.liveAlias = w.outside.live name d.settings.liveAlias := hl.outside.live ..
  have hsame : d.SameHistory name w₁ w' → d.SameHistory name w w' :=
    fun h => ⟨by rw [h.history, hl.stored], h.live.trans hlive⟩
  cases h with
  | replayed row first same => exact .replayed row (hl.stored ▸ first) (hsame same)
  | idle row status version history live there =>
    exact .idle row status version (by rw [history, hl.stored]) (live.trans hlive) there
  | moved row status version source wanted history live =>
    exact .moved row status version (source.trans hlive) (hlive ▸ wanted) (by rw [history, hl.stored]) live
  | failed e same => exact .failed e (hsame same)

namespace MoveCall

def expectedLive : MoveCall → Option Version
  | promote _ q => q.expectedLive
  | rollback .. => none

include hP ht in
theorem run_left {c : MoveCall} (hc : c.Undoable) (hws : w.session = w.stored) (hname : Named model name w) :
    Ensures (c.run d model) w
      (fun row w' => CallLeft d model name c.key (c.version model w.stored) c.expectedLive w w' (.done row))
      (fun e w' => CallLeft d model name c.key (c.version model w.stored) c.expectedLive w w' (.raised e))
      (fun _ => True) := by
  cases c with
  | promote f q => exact promoteVersion_left hP ht (q := { q with modelId := model }) hc.sharp hc.restoring hws hname
  | rollback f q actor key =>
    show Ensures (d.rollbackModel f model q actor key) _ _ _ _
    rw [rollbackModel_eq]
    refine .bind (rollbackTarget_cases.mono ?_ ?_ fun _ _ => trivial)
    · rintro v w₁ ⟨hl, -, hv⟩
      have hname₁ : Named model name w₁ := by
        unfold Named
        rw [hl.session]
        exact hname
      rw [hws] at hv
      refine (promoteVersion_left hP ht (q := rollbackRequest model q actor key v) hc.sharp hc.restoring
        (by rw [hl.session, hl.stored, hws]) hname₁).mono ?_ ?_ fun _ h => h
      · intro row w' h
        rw [show version model w.stored (.rollback f q actor key) = some v from hv]
        exact h.of_looked hl
      · intro e w' h
        rw [show version model w.stored (.rollback f q actor key) = some v from hv]
        exact h.of_looked hl
    · rintro e w' ⟨hl, -⟩
      exact .failed e ⟨by rw [hl.stored], hl.outside.live ..⟩

end MoveCall

/-! ## The chain -/

theorem applied_congr {s s' : Records} (h : s'.promotions = s.promotions) : applied model s' = applied model s := by
  unfold applied
  rw [h]

theorem applied_append {s s' : Records} {row : ModelPromotion} (h : s'.promotions = s.promotions ++ [row]) :
    applied model s' = if row.modelId = model ∧ row.status = .applied then applied model s ++ [row]
      else applied model s := by
  unfold applied
  rw [h, List.filter_append]
  by_cases hr : row.modelId = model ∧ row.status = .applied
  · rw [if_pos hr, List.filter_cons_of_pos (by simpa using hr), List.filter_nil]
  · rw [if_neg hr, List.filter_cons_of_neg (by simpa using hr), List.filter_nil, List.append_nil]

/-- Each applied promotion starts where the one before it ended, and LIVE is
where the last one ended. -/
structure Chained (d : Delivery σ) (model : ModelId) (name : String) (w : World σ) : Prop where
  links : (applied model w.stored).IsChain fun a b => b.fromVersion = some a.toVersion
  live : ∀ row ∈ (applied model w.stored).getLast?, w.outside.live name d.settings.liveAlias = some row.toVersion

theorem CallLeft.chained {ended : Ended AdaptationError ModelPromotion}
    (h : CallLeft d model name key asked expected w w' ended) (hw : Chained d model name w) : Chained d model name w' := by
  have hsame : d.SameHistory name w w' → Chained d model name w' := by
    intro h
    have happ : applied model w'.stored = applied model w.stored := applied_congr h.history
    exact ⟨happ ▸ hw.links, by rw [happ, h.live]; exact hw.live⟩
  cases h with
  | replayed row first same => exact hsame same
  | failed e same => exact hsame same
  | idle row status version history live there =>
    have happ : applied model w'.stored = applied model w.stored := by
      rw [applied_append history, if_neg fun h => by rw [status] at h; cases h.2]
    exact ⟨happ ▸ hw.links, by rw [happ, live]; exact hw.live⟩
  | moved row status version source wanted history live =>
    have happ : applied model w'.stored = applied model w.stored ++ [row] := by
      rw [applied_append history, if_pos status]
    refine ⟨?_, fun r hr => ?_⟩
    · rw [happ, List.isChain_append]
      refine ⟨hw.links, List.isChain_singleton _, fun last hlast r hr => ?_⟩
      cases hr
      rw [source, hw.live last hlast]
    · rw [happ, List.getLast?_append, List.getLast?_singleton] at hr
      cases hr
      exact live

/-! ## Runs of calls -/

theorem modelsAre_across (models : Table ModelId ModelMetadata) (id : RolloutId) :
    AcrossCommits (fun w : World σ => w.stored.db.models = models ∧ w.session.db.models = models) id where
  same hst hse h := ⟨hst.models ▸ h.1, hse.models ▸ h.2⟩
  edited _ _ h := h
  commits h := ⟨h.2, h.2⟩
  rollsBack h := ⟨h.1, h.1⟩

theorem MoveCall.run_models (c : MoveCall) (models : Table ModelId ModelMetadata) :
    Keeps (fun w : World σ => w.stored.db.models = models ∧ w.session.db.models = models) (c.run d model) := by
  have hJ := modelsAre_across (σ := σ) models ""
  cases c with
  | promote f q => exact hJ.promoteVersion _ _
  | rollback f q actor key =>
    show Keeps _ (d.rollbackModel f model q actor key)
    rw [rollbackModel_eq]
    refine .bind (fun w h => ?_) fun v => hJ.promoteVersion _ _
    have hl : ∀ w', Looked w w' → w'.stored.db.models = models ∧ w'.session.db.models = models :=
      fun w' hl => by rw [hl.stored, hl.session]; exact h
    exact rollbackTarget_cases.mono (fun _ w' h => hl w' h.1) (fun _ w' h => hl w' h.1) hl

/-- The checks of a rollback's target pass. A promotion looks its key up before
it checks anything. -/
def MoveCall.Passes (d : Delivery σ) (model : ModelId) (w : World σ) : MoveCall → Prop
  | .promote .. => True
  | .rollback f q _ _ => d.Passes f model q w

/-- What the history promises of one call. -/
structure MoveCall.Kept (d : Delivery σ) (model : ModelId) (name : String) (c : MoveCall) (w w' : World σ)
    (ended : Ended AdaptationError ModelPromotion) : Prop where
  /-- a failed call and one that moves nothing -/
  unmoved : (∀ row, ended = .done row → row.status = .noChange) →
    applied model w'.stored = applied model w.stored ∧
      w'.outside.live name d.settings.liveAlias = w.outside.live name d.settings.liveAlias
  /-- a repeated key -/
  repeated : ∀ row, firstUnder c.key w.stored = some row → ((ended = .done row ∧ w' = w) ↔ c.Passes d model w)
  /-- the default rollback of an applied move from `u` -/
  back : ∀ last u, (applied model w.stored).getLast? = some last → last.fromVersion = some u →
    ∀ f q actor key, c = .rollback f q actor key → q.targetVersion = none → firstUnder key w.stored = none →
      (∀ row, ended = .done row → w'.outside.live name d.settings.liveAlias = some u) ∧
        (f = {} → d.Passes f model q w → ended.returned = true)
  /-- a move under the wrong expectation -/
  expected : c.expectedLive ≠ none → w.outside.live name d.settings.liveAlias ≠ c.expectedLive →
    applied model w'.stored = applied model w.stored ∧
      w'.outside.live name d.settings.liveAlias = w.outside.live name d.settings.liveAlias

theorem CallLeft.kept {ended : Ended AdaptationError ModelPromotion} (h : CallLeft d model name key asked expected w w' ended)
    (hno : (∀ row, ended = .done row → row.status = .noChange) ∨
      expected ≠ none ∧ w.outside.live name d.settings.liveAlias ≠ expected) :
    applied model w'.stored = applied model w.stored ∧
      w'.outside.live name d.settings.liveAlias = w.outside.live name d.settings.liveAlias := by
  cases h with
  | replayed row first same => exact ⟨applied_congr same.history, same.live⟩
  | failed e same => exact ⟨applied_congr same.history, same.live⟩
  | idle row status version history live there =>
    rw [applied_append history, if_neg fun h => by rw [status] at h; cases h.2]
    exact ⟨rfl, live⟩
  | moved row status version source wanted history live =>
    rcases hno with hno | ⟨hne, hlive⟩
    · cases status.2.symm.trans (hno row rfl)
    · rcases wanted with h | h
      · exact absurd h hne
      · exact absurd h hlive

theorem MoveCall.run_repeated {c : MoveCall} (hws : w.session = w.stored) {row : ModelPromotion}
    (hrow : firstUnder c.key w.stored = some row) : Ensures (c.run d model) w
      (fun r w' => (r = row ∧ w' = w) ↔ c.Passes d model w) (fun _ _ => ¬ c.Passes d model w) (fun _ => True) := by
  have hpromote : ∀ (f : PromoteAnswers) (q : PromotionRequest) (w₁ : World σ), q.idempotencyKey = c.key →
      w₁.session = w.session → d.promoteVersion f q w₁ = (.done row, w₁) := by
    intro f q w₁ hq hs
    have hearlier : q.earlier w₁.session = some row := by rw [q.earlier_eq, hq, hs, hws, hrow]
    have := Ensures.self (d.promoteVersion f q) w₁
    unfold Delivery.promoteVersion
    show Act.bind Act.get _ w₁ = _
    simp only [Act.bind, Act.get, hearlier]
    rfl
  cases c with
  | promote f q => exact .of_done (hpromote f { q with modelId := model } w rfl rfl) ⟨fun _ => trivial,
      fun _ => ⟨rfl, rfl⟩⟩
  | rollback f q actor key =>
    show Ensures (d.rollbackModel f model q actor key) _ _ _ _
    rw [rollbackModel_eq]
    refine .bind (rollbackTarget_cases.mono ?_ (fun _ _ h => h.2) fun _ _ => trivial)
    rintro v w₁ ⟨hl, hiff, -⟩
    refine .of_done (hpromote f.promote (rollbackRequest model q actor key v) w₁ rfl hl.session) ?_
    rw [← show w₁ = w ↔ (MoveCall.rollback f q actor key).Passes d model w from hiff]
    exact ⟨fun h => h.2, fun h => ⟨rfl, h⟩⟩

include hP ht in
theorem MoveCall.kept (hprompt : d.port.Prompt) {c : MoveCall} (hc : c.Undoable) (hws : w.session = w.stored)
    (hname : Named model name w) {ended : Ended AdaptationError ModelPromotion} (hrun : c.run d model w = (ended, w'))
    (hends : ended ≠ .stopped) : c.Kept d model name w w' ended := by
  have hleft : CallLeft d model name c.key (c.version model w.stored) c.expectedLive w w' ended := by
    have h := run_left hP ht hc hws hname
    unfold Ensures at h
    rw [hrun] at h
    cases ended with
    | done | raised => exact h
    | stopped => exact absurd rfl hends
  refine ⟨fun h => hleft.kept (.inl h), fun row hrow => ?_, ?_, fun hne hlive => hleft.kept (.inr ⟨hne, hlive⟩)⟩
  · have h := @run_repeated σ d model _ _ hws row hrow
    unfold Ensures at h
    rw [hrun] at h
    cases ended with
    | done r => exact ⟨fun ⟨hr, hw⟩ => h.mp ⟨Ended.done.inj hr, hw⟩, fun hp => (h.mpr hp).imp_left (congrArg _)⟩
    | raised e => exact ⟨fun ⟨hr, _⟩ => by (cases hr), fun hp => absurd hp h⟩
    | stopped => exact absurd rfl hends
  · rintro last u hlast hu f q actor key rfl hq hkey
    have hasked : (MoveCall.rollback f q actor key).version model w.stored = some u := by
      show q.targetVersion.or ((lastAppliedPromotion w.stored model).bind ModelPromotion.fromVersion) = some u
      rw [hq, lastAppliedPromotion_eq, hlast]
      exact hu
    refine ⟨fun row hrow => ?_, fun hf hpass => ?_⟩
    · subst hrow
      rw [hasked] at hleft
      cases hleft with
      | replayed _ first => cases hkey.symm.trans first
      | idle _ status version history live there => rw [there, version]
      | moved _ status version source wanted history live => rw [live, version]
    · subst hf
      have h : Ensures (d.rollbackModel {} model q actor key) w (fun _ _ => True) (fun _ _ => False) fun _ => True :=
        rollbackModel_works hP hprompt ht (by rw [hws]) hpass
      unfold Ensures at h
      rw [show d.rollbackModel {} model q actor key w = (ended, w') from hrun] at h
      cases ended with
      | done => rfl
      | raised => exact h.elim
      | stopped => exact absurd rfl hends

include hP ht in
theorem Chained.step {c : MoveCall} (hc : c.Undoable) (hstep : c.step d model w = some w')
    (h : Chained d model name w ∧ Named model name w.reopened) : Chained d model name w' ∧
      Named model name w'.reopened := by
  unfold MoveCall.step at hstep
  have hws : w.reopened.session = w.reopened.stored := rfl
  have hchained : Chained d model name w.reopened := ⟨h.1.links, h.1.live⟩
  have hmodels := @MoveCall.run_models σ d model c w.stored.db.models w.reopened ⟨rfl, rfl⟩
  have hleft := (MoveCall.run_left hP ht hc hws h.2).and hmodels
  have hnamed : ∀ w' : World σ, w'.stored.db.models = w.stored.db.models ∧ w'.session.db.models = w.stored.db.models →
      Named model name w'.reopened := by
    intro w' hm
    unfold Named
    rw [show w'.reopened.session.db.models = w.stored.db.models from hm.1]
    exact h.2
  unfold Ensures at hleft
  split at hleft
  · rename_i row w₁ hrun
    rw [hrun] at hstep
    cases hstep
    exact ⟨hleft.1.chained hchained, hnamed _ hleft.2⟩
  · rename_i e w₁ hrun
    rw [hrun] at hstep
    cases hstep
    exact ⟨hleft.1.chained hchained, hnamed _ hleft.2⟩
  · rename_i w₁ hrun
    rw [hrun] at hstep
    cases hstep

/-- In every run of calls on a model without promotions the history is a chain
that ends at LIVE, and the next call keeps its promises; one that repeats a key
gets the first row exactly when the checks that come first pass. -/
theorem history_chained (hP : d.port.Restores d.settings split canary drops) (ht : TagsApart d.settings)
    (hprompt : d.port.Prompt) {w₀ : World σ} (hname : Named model name w₀.reopened)
    (hfresh : ∀ row ∈ w₀.stored.promotions, row.modelId ≠ model)
    (hrun : Runs.Steps (fun w c => MoveCall.step d model w c) (fun _ c => c.Undoable) w₀ w) :
    Chained d model name w ∧ ∀ c : MoveCall, c.Undoable → ∀ ended w', c.run d model w.reopened = (ended, w') →
      ended ≠ .stopped → c.Kept d model name w.reopened w' ended := by
  have hempty : applied model w₀.stored = [] := by
    unfold applied
    rw [List.filter_eq_nil_iff]
    intro row hrow
    simp [hfresh row hrow]
  have h₀ : Chained d model name w₀ := ⟨hempty ▸ List.isChain_nil, by simp [hempty]⟩
  have h := hrun.inv (fun w => Chained d model name w ∧ Named model name w.reopened)
    (fun _ _ _ hI hc hs => Chained.step hP ht hc hs hI) ⟨h₀, hname⟩
  exact ⟨h.1, fun c hc _ _ hcall hends => c.kept hP ht hprompt hc rfl h.2 hcall hends⟩

end

/-! ## A rollback that is sent twice -/

/-- The operator's rollback, under the key of the request. -/
def backOnce (load : DbAnswer) : MoveCall := .rollback { load := load } {} "oncall" (some "rollback:cell-load:k1")

def rolledBackOnce : World Unit :=
  ((backOnce .ok).run aliasDelivery "cell-load" (((MoveCall.promote {} toSecond).run aliasDelivery "cell-load").after
    cellLoadWorld).reopened).2

theorem MoveCall.Undoable.of_ok {c : MoveCall} (h : c.answers = {}) : c.Undoable := by
  refine ⟨⟨fun e => ?_, fun e => ?_, fun e => ?_⟩, ⟨fun i => ?_, fun i => ?_, ?_⟩⟩ <;> rw [h]
  · simp
  · simp
  · simp

theorem MoveCall.step_of_returned {σ : Type} {d : Delivery σ} {model : ModelId} {w : World σ} {c : MoveCall}
    (h : (c.run d model w.reopened).1.returned = true) : c.step d model w = some (c.run d model w.reopened).2 := by
  unfold MoveCall.step
  split
  · rename_i hrun
    rw [hrun] at h
    cases h
  · rename_i hrun
    rw [hrun]

theorem rolledBackOnce_run : Runs.Steps (fun w c => MoveCall.step aliasDelivery "cell-load" w c)
    (fun _ c => c.Undoable) cellLoadWorld rolledBackOnce :=
  ((Runs.Steps.refl cellLoadWorld).tail (.of_ok (c := .promote {} toSecond) rfl)
    (MoveCall.step_of_returned (by decide +kernel))).tail
    (.of_ok (c := backOnce .ok) rfl) (MoveCall.step_of_returned (by decide +kernel))

/-- Sent again, it gets the first row: version 2, where it would go now, loads. -/
theorem history_chained_sent_twice : ∃ row, firstUnder (backOnce .ok).key rolledBackOnce.stored = some row ∧
    row.fromVersion = some "2" ∧ row.toVersion = "1" ∧
    (backOnce .ok).run aliasDelivery "cell-load" rolledBackOnce.reopened = (.done row, rolledBackOnce.reopened) := by
  have hrow : ∃ row, firstUnder (backOnce .ok).key rolledBackOnce.stored = some row ∧ row.fromVersion = some "2" ∧
      row.toVersion = "1" := ⟨_, rfl, rfl, rfl⟩
  obtain ⟨row, hrow, hfrom, hto⟩ := hrow
  have hrun : ∃ ended w', (backOnce .ok).run aliasDelivery "cell-load" rolledBackOnce.reopened = (ended, w') ∧
      ended ≠ .stopped := ⟨_, _, rfl, by simp⟩
  obtain ⟨ended, w', hrun, hends⟩ := hrun
  have hkept := (@history_chained _ _ _ _ _ _ "cell-load" "cell-load" _ aliasDelivery_restores .defaults
    liveDeployment.prompt _ ⟨_, rfl, rfl⟩ (fun _ h => by cases h) rolledBackOnce_run).2 (backOnce .ok) (.of_ok rfl)
    ended w' hrun hends
  obtain ⟨rfl, rfl⟩ := (hkept.repeated row hrow).mpr
    ⟨⟨rfl, rfl⟩, _, "2", _, rfl, by simp, rfl, ⟨rfl, rfl⟩, rfl, by decide, .inl ⟨by decide, rfl⟩⟩
  exact ⟨row, hrow, hfrom, hto, hrun⟩

/-- Version 2 does not load, which is why it was rolled back: sent again, the
rollback is refused. So is one under the same key for a version that is not there. -/
theorem repeated_rollback_refused : Runs.Steps (fun w c => MoveCall.step aliasDelivery "cell-load" w c)
      (fun _ c => c.Undoable) cellLoadWorld rolledBackOnce ∧
    (firstUnder (backOnce .ok).key rolledBackOnce.stored).isSome = true ∧
    (∃ e w', (backOnce (.before ⟨.python "ValueError", "no model", []⟩)).run aliasDelivery "cell-load"
      rolledBackOnce.reopened = (.raised e, w') ∧ e.cls = .artifactError) ∧
    ∃ e w', (MoveCall.rollback {} { targetVersion := some "99" } "oncall" (backOnce .ok).key).run aliasDelivery "cell-load"
      rolledBackOnce.reopened = (.raised e, w') ∧ e.cls = .modelNotFound :=
  ⟨rolledBackOnce_run, rfl, ⟨_, _, rfl, rfl⟩, ⟨_, _, rfl, rfl⟩⟩

end OranAdapt
