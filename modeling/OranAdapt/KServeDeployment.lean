import OranAdapt.Deployment

/-!
# Serving from a KServe InferenceService

`adapters.deployment.kubernetes`: an object per model carries the version in an
annotation. Under a split the candidate is the object's version, the stable one
stands in a second annotation, and any plain deploy drops the split.
-/

namespace OranAdapt

/-- What the adapter writes of a model's `InferenceService`. Only a split
records the stable version. -/
structure InferenceService where
  modelVersion : Option Version := none
  stableVersion : Option Version := none
  canaryTrafficPercent : Option Nat := none
  storageUri : String := ""
  modelFormat : String := ""
  versioned : stableVersion.isSome = true → modelVersion.isSome = true := by simp

/-- The API server's objects, under the models' names; one that is being
deleted is gone. -/
abbrev InferenceServices := String → Option InferenceService

structure KServeDeployment where
  /-- KSERVE_STORAGE_URI_TEMPLATE, rendered. -/
  storageUri : DeploymentTarget → String
  modelFormat : String

namespace KServeDeployment

open Effects

variable (d : KServeDeployment)

def get (f : Answer) (model : String) : OutsideAct InferenceServices (Option InferenceService) :=
  ask f fun o => .ok (o.serving model, o)

/-- Create, update or delete the object. -/
def write (f : Answer) (model : String) (obj : Option InferenceService) : OutsideAct InferenceServices Unit :=
  ask f fun o => .ok ((), { o with serving := fun m => if m = model then obj else o.serving m })

/-- The object that serves `target`, alone or under a split with the stable
version: `_spec` drops any canary left over. -/
def object (target : DeploymentTarget) (split : Option (Version × Nat)) : InferenceService where
  modelVersion := some target.version
  stableVersion := split.map Prod.fst
  canaryTrafficPercent := split.map Prod.snd
  storageUri := d.storageUri target
  modelFormat := d.modelFormat

/-- `_upsert` reads the object, then creates or updates it. -/
def upsert (f : Nat → Answer) (target : DeploymentTarget) (split : Option (Version × Nat)) :
    OutsideAct InferenceServices Unit := do
  let _ ← get (f 0) target.model
  write (f 1) target.model (some (d.object target split))

def deploy (f : Nat → Answer) (target : DeploymentTarget) : OutsideAct InferenceServices Unit := d.upsert f target none

-- the targets a caller passes are the model's own
def restore (f : Nat → Answer) (model : String) : Option DeploymentTarget → OutsideAct InferenceServices Unit
  | some previous => d.deploy f { previous with model := model }
  | none => write (f 0) model none

def setTraffic (f : Nat → Answer) (model : String) (stable : DeploymentTarget) (candidate : Option DeploymentTarget)
    (percent : Nat) : OutsideAct InferenceServices Unit :=
  match if percent = 0 then none else candidate with
  | none => d.upsert f { stable with model := model } none
  | some c => d.upsert f { c with model := model } (some (stable.version, percent))

def splitOf : Option InferenceService → TrafficSplit
  | none => ⟨none, none, 0⟩
  | some obj =>
    match obj.canaryTrafficPercent, obj.stableVersion with
    | some percent, some stable => ⟨some stable, obj.modelVersion, percent⟩
    | _, _ => ⟨obj.modelVersion, none, 0⟩

def traffic (f : Nat → Answer) (model : String) : OutsideAct InferenceServices TrafficSplit := do
  let obj ← get (f 0) model
  pure (splitOf obj)

def versionOf (obj : Option InferenceService) : Option Version := obj.bind (·.modelVersion)

def status (p : Poll) (model : String) : OutsideAct InferenceServices DeploymentState := do
  let obj ← get (p.status 0) model
  match obj with
  | none => pure ⟨none, p.ready, false⟩
  | some obj => pure ⟨obj.modelVersion, p.ready, p.failed⟩

def port : DeploymentPort InferenceServices where
  splitsTraffic := true
  served o model := versionOf (o.serving model)
  splitTo o model := (splitOf (o.serving model)).candidate
  status := status
  deploy := d.deploy
  restore := d.restore
  setTraffic := d.setTraffic
  traffic := traffic

/-! ## It keeps the adapters' contract -/

section
variable {d} {a : String} {f : Nat → Answer} {name : String} {o o' : Outside InferenceServices}

theorem get_ends {x : Answer} : Ensures (get x name) o (fun obj o' => o' = o ∧ obj = o.serving name)
    (fun e o' => o' = o ∧ e.cls.framework = true) (fun o' => o' = o ∧ x = .stop) := by
  refine ask_ends (fun obj o' h => ?_) (fun e h => by cases h) (fun e _ => ⟨rfl, e.2.1⟩) fun h => ⟨rfl, h⟩
  cases h
  exact ⟨fun _ => ⟨rfl, rfl⟩, fun e _ => ⟨rfl, e.2.1⟩⟩

def Written (name : String) (obj : Option InferenceService) (o o' : Outside InferenceServices) : Prop :=
  o' = { o with serving := fun m => if m = name then obj else o.serving m }

theorem Written.serving {obj : Option InferenceService} (h : Written name obj o o') : o'.serving name = obj := by
  rw [h]
  exact if_pos rfl

theorem Written.moved {obj : Option InferenceService} {target : Option Version} (h : Written name obj o o') :
    o.Moved o' name a target := by
  rw [h]
  exact ⟨fun _ _ h => h, .inl rfl⟩

theorem write_ends {x : Answer} {obj : Option InferenceService} : Ensures (write x name obj) o
    (fun _ o' => Written name obj o o')
    (fun e o' => e.cls.framework = true ∧ x ≠ .ok ∧ (o' = o ∨ Written name obj o o'))
    (fun o' => o' = o ∧ x = .stop) := by
  refine ask_ends (fun _ o' h => ?_) (fun e h => by cases h) (fun e hx => ⟨e.2.1, ?_, .inl rfl⟩) fun h => ⟨rfl, h⟩
  · cases h
    refine ⟨fun _ => rfl, fun e hx => ⟨e.2.1, ?_, .inr rfl⟩⟩
    rw [hx]
    simp
  · rw [hx]
    simp

theorem upsert_ends {target : DeploymentTarget} {split : Option (Version × Nat)} :
    Ensures (d.upsert f target split) o
      (fun _ o' => Written target.model (some (d.object target split)) o o')
      (fun e o' => e.cls.framework = true ∧ (∃ i, f i ≠ .ok) ∧
        (o' = o ∨ Written target.model (some (d.object target split)) o o'))
      (fun o' => o' = o ∧ ∃ i, f i = .stop) := by
  have hget : Ensures (get (f 0) target.model) o (fun obj o' => o' = o ∧ obj = o.serving target.model)
      (fun e o' => e.cls.framework = true ∧ (∃ i, f i ≠ .ok) ∧ o' = o) (fun o' => o' = o ∧ f 0 = .stop) := by
    refine ask_ends (fun obj o' h => ?_) (fun e h => by cases h)
      (fun e hx => ⟨e.2.1, ⟨0, ?_⟩, rfl⟩) fun h => ⟨rfl, h⟩
    · cases h
      refine ⟨fun _ => ⟨rfl, rfl⟩, fun e hx => ⟨e.2.1, ⟨0, ?_⟩, rfl⟩⟩
      rw [hx]
      simp
    · rw [hx]
      simp
  refine .bind (hget.mono ?_ (fun _ _ h => ⟨h.1, h.2.1, .inl h.2.2⟩) fun _ h => ⟨h.1, 0, h.2⟩)
  rintro obj o ⟨rfl, rfl⟩
  exact write_ends.mono (fun _ _ h => h) (fun _ _ h => ⟨h.1, ⟨1, h.2.1⟩, h.2.2⟩) fun _ h => ⟨h.1, 1, h.2⟩

theorem traffic_ends : Ensures (traffic f name) o
    (fun t o' => o' = o ∧ t = splitOf (o.serving name)) (fun _ o' => o' = o) (fun o' => o' = o) := by
  refine .bind (get_ends.mono ?_ (fun _ _ h => h.1) fun _ h => h.1)
  rintro obj o ⟨rfl, rfl⟩
  exact .ret ⟨rfl, rfl⟩

theorem status_ends {p : Poll} : Ensures (status p name) o
    (fun st o' => o' = o ∧ st.version = versionOf (o.serving name)) (fun e o' => o' = o ∧ e.cls.framework = true)
    (fun o' => o' = o ∧ ∃ i, p.status i = .stop) := by
  refine .bind (get_ends.mono ?_ (fun _ _ h => h) fun _ h => ⟨h.1, 0, h.2⟩)
  rintro obj o ⟨rfl, rfl⟩
  cases h : o.serving name with
  | none => exact .ret ⟨rfl, rfl⟩
  | some obj => exact .ret ⟨rfl, rfl⟩

theorem deploy_ends {target : DeploymentTarget} : Ensures (d.deploy f target) o
    (fun _ o' => Written target.model (some (d.object target none)) o o')
    (fun e o' => e.cls.framework = true ∧ (∃ i, f i ≠ .ok) ∧
      (o' = o ∨ Written target.model (some (d.object target none)) o o'))
    (fun o' => o' = o ∧ ∃ i, f i = .stop) := upsert_ends

theorem restore_ends {previous : Option DeploymentTarget} : Ensures (d.restore f name previous) o
    (fun _ o' => o.Moved o' name a (previous.map (·.version)) ∧
      d.port.served o' name = previous.map (·.version) ∧ d.port.splitTo o' name = none)
    (fun e o' => e.cls.framework = true ∧ (∃ i, f i ≠ .ok) ∧ o.Moved o' name a (previous.map (·.version)))
    (fun o' => o' = o ∧ ∃ i, f i = .stop) := by
  cases previous with
  | none =>
    refine write_ends.mono ?_ ?_ fun _ h => ⟨h.1, 0, h.2⟩
    · intro _ o' h
      refine ⟨h.moved, ?_, ?_⟩
      · show versionOf (o'.serving name) = none
        rw [h.serving]
        rfl
      · show (splitOf (o'.serving name)).candidate = none
        rw [h.serving]
        rfl
    · rintro e o' ⟨he, hx, rfl | h⟩
      · exact ⟨he, ⟨0, hx⟩, .refl ..⟩
      · exact ⟨he, ⟨0, hx⟩, h.moved⟩
  | some t =>
    refine deploy_ends.mono ?_ ?_ fun _ h => h
    · intro _ o' h
      refine ⟨h.moved, ?_, ?_⟩
      · show versionOf (o'.serving name) = some t.version
        rw [h.serving]
        rfl
      · show (splitOf (o'.serving name)).candidate = none
        rw [h.serving]
        rfl
    · rintro e o' ⟨he, hx, rfl | h⟩
      · exact ⟨he, hx, .refl ..⟩
      · exact ⟨he, hx, h.moved⟩

/-- A split that is written is in place; without one the stable version serves. -/
theorem setTraffic_ends {stable : DeploymentTarget} {candidate : Option DeploymentTarget} {percent : Nat} :
    Ensures (d.setTraffic f name stable candidate percent) o
      (fun _ o' => o.Moved o' name a (some stable.version) ∧ d.port.SplitLeft name stable.version candidate o o')
      (fun _ o' => o.Moved o' name a (some stable.version) ∧ d.port.SplitLeft name stable.version candidate o o')
      (fun o' => o.Moved o' name a (some stable.version) ∧ d.port.SplitLeft name stable.version candidate o o') := by
  have hsame : o.Moved o name a (some stable.version) ∧ d.port.SplitLeft name stable.version candidate o o :=
    ⟨.refl .., .inr (.inr ⟨rfl, rfl⟩)⟩
  unfold setTraffic
  split
  · have hserved : ∀ o', Written name (some (d.object { stable with model := name } none)) o o' →
        o.Moved o' name a (some stable.version) ∧ d.port.SplitLeft name stable.version candidate o o' := by
      intro o' h
      refine ⟨h.moved, .inl ?_⟩
      show versionOf (o'.serving name) = some stable.version
      rw [h.serving]
      rfl
    refine upsert_ends.mono (fun _ _ h => hserved _ h) ?_ fun _ h => by rw [h.1]; exact hsame
    rintro e o' ⟨-, -, rfl | h⟩
    · exact hsame
    · exact hserved _ h
  · rename_i c hc
    have hsome : candidate.isSome := by
      split at hc
      · cases hc
      · rw [hc]; rfl
    have hplaced : ∀ o', Written name (some (d.object { c with model := name } (some (stable.version, percent)))) o o' →
        o.Moved o' name a (some stable.version) ∧ d.port.SplitLeft name stable.version candidate o o' := by
      intro o' h
      refine ⟨h.moved, .inr (.inl ⟨hsome, ?_⟩)⟩
      show (splitOf (o'.serving name)).candidate.isSome
      rw [h.serving]
      rfl
    refine upsert_ends.mono (fun _ _ h => hplaced _ h) ?_ fun _ h => by rw [h.1]; exact hsame
    rintro e o' ⟨-, -, rfl | h⟩
    · exact hsame
    · exact hplaced _ h

end

/-- The adapter keeps the contract towards every alias: it moves none. -/
theorem lawful (d : KServeDeployment) (a : String) : d.port.Lawful a where
  served_retagged h name := by
    show versionOf _ = versionOf _
    rw [h.serving]
  splitTo_retagged h name := by
    show (splitOf _).candidate = (splitOf _).candidate
    rw [h.serving]
  served_alias := .inr fun _ _ _ _ => rfl
  splitTo_alias _ _ _ _ := rfl
  status _ _ _ := status_ends
  traffic f name o := traffic_ends.mono (fun _ _ h => ⟨h.1, congrArg TrafficSplit.candidate h.2⟩)
    (fun _ _ h => h) fun _ h => h
  deploy f t o := by
    refine deploy_ends.mono (fun _ _ h => h.moved) ?_ fun _ h => ⟨h.1 ▸ .refl .., h.2⟩
    rintro e o' ⟨he, -, rfl | h⟩
    · exact ⟨he, .refl ..⟩
    · exact ⟨he, h.moved⟩
  restore f name previous o := by
    refine restore_ends.mono (fun _ _ h => ⟨h.1, h.2.1⟩) (fun e o' h => ⟨h.1, h.2.2, fun hok => ?_⟩) fun _ h => h.2
    obtain ⟨i, hi⟩ := h.2.1
    exact absurd (hok i) hi
  setTraffic _ _ _ _ _ _ := setTraffic_ends

end KServeDeployment

end OranAdapt
