import OranAdapt.Controller

/-!
# Rolling LIVE back

`registry.promotion.rollback_model` and the endpoint that calls it under the
model's lock.
-/

namespace OranAdapt

def lastAppliedPromotion (s : Records) (model : ModelId) : Option ModelPromotion :=
  s.promotions.reverse.find? fun row => row.modelId = model ∧ row.status = .applied

theorem lastAppliedPromotion_append {s : Records} {model : ModelId} {row : ModelPromotion} :
    lastAppliedPromotion { s with promotions := s.promotions ++ [row] } model =
      if row.modelId = model ∧ row.status = .applied then some row else lastAppliedPromotion s model := by
  unfold lastAppliedPromotion
  rw [List.reverse_append, List.reverse_singleton, List.singleton_append, List.find?_cons]
  split
  · rename_i h
    rw [if_pos (by simpa using h)]
  · rename_i h
    rw [if_neg (by simpa using h)]

structure RollbackRequest where
  targetVersion : Option Version := none
  reason : String := ""
  idempotencyKey : Option String := none

/-- How the outside answers the calls of one rollback. `load` is the model
handler's: any exception of it refuses the target. -/
structure RollbackAnswers where
  lock : DbAnswer := .ok
  version : Answer := .ok
  verify : VerifyAnswers := {}
  load : DbAnswer := .ok
  promote : PromoteAnswers := {}
  commit : DbAnswer := .ok
  unlock : DbAnswer := .ok

namespace Delivery

open Effects World Outside

variable {σ : Type} (d : Delivery σ)

def loadTarget (f : DbAnswer) (model : ModelId) (version : Version) : WorldAct σ Unit :=
  (perform f fun w => .ok ((), w)).handle fun e =>
    .raise ⟨.artifactError, s!"rollback target version {version} does not load",
      [("model_id", .str model), ("version", .str version), ("cause", .str e.message)]⟩

def rollbackModel (f : RollbackAnswers) (model : ModelId) (q : RollbackRequest) (actor : String) (key : Option String) :
    WorldAct σ ModelPromotion := do
  let info ← modelMeta model
  let w ← .get
  match q.targetVersion.or ((lastAppliedPromotion w.session model).bind ModelPromotion.fromVersion) with
  | none => .raise ⟨.conflict, "no earlier live version on record to roll back to", [("model_id", .str model)]⟩
  | some version => do
    let _ ← reach (ofRegistry (Registry.getVersion f.version info.mlflowModelName version))
    let _ ← reach (ofRegistry (d.verifyVersionArtifact f.verify info.mlflowModelName version))
    if info.framework = none then
      .raise ⟨.artifactError, s!"model '{model}' has no framework on record; cannot check the rollback target",
        [("model_id", .str model), ("version", .str version)]⟩
    else do
      loadTarget f.load model version
      d.promoteVersion f.promote ⟨model, version, .rollback,
        if q.reason = "" then s!"rollback to version {version}" else q.reason, actor, none, none, key⟩

def rollbackEndpoint (f : RollbackAnswers) (model : ModelId) (q : RollbackRequest) (holder : String) (clock : Time)
    (actor : String) : WorldAct σ ModelPromotion := do
  let _ ← modelMeta model
  let locked ← d.lock { lock := f.lock } model (.rollback holder) clock
  if locked = false then do
    let w ← .get
    .raise ⟨.modelBusy, s!"model '{model}' has an adaptation job running; retry the rollback later",
      [("model_id", .str model),
       ("running_job_id", .ofOption ((w.session.db.locks.get? model).map fun l => l.jobId.text))]⟩
  else
    let key := match q.idempotencyKey with
      | some key => if key = "" then none else some s!"rollback:{model}:{key}"
      | none => none
    (d.rollbackModel f model q actor key >>= fun row => commit f.commit >>= fun _ => pure row).andFinally
      (unlock { unlock := f.unlock } model (.rollback holder))

end Delivery

end OranAdapt
