import OranAdapt.DataVersions
import OranAdapt.LlmAdapter

/-!
# Model types

`adaptation.capability` and `adaptation.model_types`: what a loaded model is,
what it can be adapted to do, and the plugin that adapts it. A plugin is code of
its own and may raise anything.
-/

namespace OranAdapt

open Effects

def unsupportedAdaptation (message : String) (context : Context) : AdaptationError :=
  ⟨.other "ADAPTATION_UNSUPPORTED", message, context⟩

def unsupportedModelType (message : String) (context : Context) : AdaptationError :=
  ⟨.other "UNSUPPORTED_MODEL_TYPE", message, context⟩

def ErrorClass.isUnsupported (cls : ErrorClass) : Bool :=
  cls == .other "ADAPTATION_UNSUPPORTED" || cls == .other "UNSUPPORTED_MODEL_TYPE"

namespace Adaptation

/-- Of the inspection, what the adaptation reads. -/
structure ModelInspection where
  framework : String
  modelClass : String
  estimatorType : String := "unknown"
  featureNamesIn : Option (List String) := none
  supportsPartialFit : Bool := false
  supportsWarmStart : Bool := false
  inputDim : Option Int := none
  modelType : Option String := none
deriving DecidableEq, Repr

structure UnsupportedModelType where
  framework : String
  modelClass : String
  reason : String
  installed : List (String × List String)
deriving DecidableEq, Repr

/-! ## Capability -/

structure SchemaCompatibility where
  compatible : Bool
  missingFeatures : List String := []
  extraFeatures : List String := []
  reason : String
deriving DecidableEq, Repr

structure CapabilityAssessment where
  supportsFineTuning : Bool
  supportsFullRetraining : Bool
  schemaCheck : SchemaCompatibility
  reason : String
deriving DecidableEq, Repr

def sortedDifference (a b : List String) : List String := sortedFrameworks (a.filter (· ∉ b))

def assessSchemaCompatibility (text : PyText) (inspection : ModelInspection) (featureNames : List String) :
    SchemaCompatibility :=
  match inspection.featureNamesIn.getD [], inspection.inputDim with
  | [], some width =>
    if width ≠ featureNames.length then
      { compatible := false
        reason := "model expects " ++ toString width ++ " input features, the data has " ++ toString featureNames.length }
    else
      { compatible := true
        reason := "input width " ++ toString width ++ " matches the " ++ toString featureNames.length ++ " features" }
  | [], none => { compatible := true, reason := "model does not expose feature names; schema check skipped" }
  | expected, _ =>
    let missing := sortedDifference expected featureNames
    let extra := sortedDifference featureNames expected
    if missing ≠ [] then
      { compatible := false, missingFeatures := missing, extraFeatures := extra
        reason := "drifted data is missing feature(s) the model requires: " ++ text.list missing }
    else
      { compatible := true, extraFeatures := extra
        reason := "all required features are present in the drifted data" ++
          if extra = [] then "" else "; " ++ toString extra.length ++ " extra feature(s) will be ignored" }

def assessCapability (text : PyText) (inspection : ModelInspection) (featureNames : List String) : CapabilityAssessment :=
  let schemaCheck := assessSchemaCompatibility text inspection featureNames
  let canFineTune := inspection.supportsPartialFit || inspection.supportsWarmStart
  { supportsFineTuning := canFineTune && schemaCheck.compatible
    supportsFullRetraining := schemaCheck.compatible
    schemaCheck
    reason :=
      if schemaCheck.compatible = false then "schema incompatible: " ++ schemaCheck.reason
      else if canFineTune then inspection.modelClass ++ " supports incremental updates"
      else inspection.modelClass ++ " has no incremental-update mechanism; only full retraining is possible" }

/-! ## Plugins -/

/-- The rows and the columns of `X`, the target and where the engine writes. -/
structure TrainingSet where
  rows : List Row
  featureNames : List String
  targetColumn : String
  artifactDir : String

/-- A plugin; `M` are loaded models. -/
structure ModelTypePort (ω M : Type) where
  frameworks : List String
  engines : List (AdaptationStrategy × String)
  accepts : M → String → Act ω AdaptationError Bool
  inspect : M → String → Act ω AdaptationError ModelInspection
  adapt : M → AdaptationStrategy → ModelInspection → TrainingSet → Act ω AdaptationError CandidateModel

/-- The installed plugins in the order in which they are tried. -/
structure ModelTypes (ω M : Type) where
  text : PyText
  className : M → String
  types : List (String × ModelTypePort ω M)

namespace ModelTypes

variable {ω M : Type} (types : ModelTypes ω M)

def installed : List (String × List String) := types.types.map fun t => (t.1, sortedFrameworks t.2.frameworks)

def unsupported (model : M) (framework reason : String) : UnsupportedModelType :=
  ⟨framework, types.className model, reason, types.installed⟩

def serving (framework : String) : List (String × ModelTypePort ω M) :=
  types.types.filter fun t => t.2.frameworks.any fun f => types.text.lower f = types.text.lower framework

/-- The first plugin that accepts the model; one that fails to tell does not. -/
def firstAccepting (model : M) (framework : String) :
    List (String × ModelTypePort ω M) → Act ω AdaptationError (Option (String × ModelTypePort ω M))
  | [] => pure none
  | t :: rest => do
    let accepted ← (t.2.accepts model framework).handle fun _ => pure false
    if accepted then pure (some t) else firstAccepting model framework rest

def resolve (model : M) (framework : String) :
    Act ω AdaptationError (Except UnsupportedModelType (String × ModelTypePort ω M)) := do
  let serving := types.serving framework
  if serving = [] then
    pure (.error (types.unsupported model framework
      ("no installed model type plugin serves framework " ++ types.text.quoted framework)))
  else do
    let found ← firstAccepting model (types.text.lower framework) serving
    match found with
    | some t => pure (.ok t)
    | none =>
      pure (.error (types.unsupported model framework (types.className model ++ " is not a kind of " ++ framework ++
        " model the installed plugins handle (tried: " ++ ", ".intercalate (serving.map Prod.fst) ++ ")")))

def inspect (model : M) (framework : String) : Act ω AdaptationError (Except UnsupportedModelType ModelInspection) := do
  let found ← types.resolve model framework
  match found with
  | .error unsupported => pure (.error unsupported)
  | .ok t =>
    (t.2.inspect model (types.text.lower framework) >>= fun inspection =>
      pure (.ok { inspection with modelType := some t.1 })).handle fun e =>
        pure (.error (types.unsupported model framework
          ("model type " ++ types.text.quoted t.1 ++ " could not describe the model: " ++ e.message)))

def require (model : M) (framework : String) : Act ω AdaptationError ModelInspection := do
  let result ← types.inspect model framework
  match result with
  | .ok inspection => pure inspection
  | .error u => .raise (unsupportedModelType u.reason [("framework", .str u.framework), ("model_class", .str u.modelClass)])

def port (inspection : ModelInspection) : Except AdaptationError (ModelTypePort ω M) :=
  match inspection.modelType.bind fun name => types.types.lookup name with
  | some port => .ok port
  | none => .error (unsupportedModelType ("model type " ++ types.text.option inspection.modelType ++ " is not installed") [])

/-- What `adapt` refuses before a plugin is called. -/
def checkAdapt (strategy : AdaptationStrategy) (inspection : ModelInspection) (capability : CapabilityAssessment) :
    Except AdaptationError (ModelTypePort ω M) := do
  let port ← types.port inspection
  if strategy ∉ port.engines.map Prod.fst then
    .error (unsupportedAdaptation ("model type " ++ types.text.option inspection.modelType ++
      " has no " ++ strategy.value ++ " engine")
      [("engines", .strs (sortedFrameworks (port.engines.map (·.1.value))))])
  else if strategy = .fineTuning ∧ capability.supportsFineTuning = false then
    .error (unsupportedAdaptation (inspection.framework ++ " artifact has no fine-tuning capability: " ++
      capability.reason) [])
  else if capability.supportsFullRetraining = false then
    .error (unsupportedAdaptation (inspection.framework ++ " artifact cannot be retrained: " ++ capability.reason) [])
  else pure port

variable {types} {strategy : AdaptationStrategy} {inspection : ModelInspection} {capability : CapabilityAssessment}

theorem checkAdapt_ok {port : ModelTypePort ω M} (h : types.checkAdapt strategy inspection capability = .ok port) :
    (∃ name, inspection.modelType = some name ∧ types.types.lookup name = some port) ∧
      strategy ∈ port.engines.map Prod.fst ∧
      (strategy = .fineTuning → capability.supportsFineTuning = true) ∧ capability.supportsFullRetraining = true := by
  unfold checkAdapt at h
  obtain ⟨p, hp, h⟩ := bind_ok h
  split at h
  · cases h
  split at h
  · cases h
  split at h
  · cases h
  · rename_i hengine hfine hfull
    cases h
    refine ⟨?_, not_not.mp hengine, fun hs => ?_, (Bool.not_eq_false _).mp hfull⟩
    · unfold ModelTypes.port at hp
      split at hp
      · rename_i found
        cases hp
        exact Option.bind_eq_some_iff.mp found
      · cases hp
    · by_contra hc
      exact hfine ⟨hs, Bool.eq_false_iff.mpr hc⟩

end ModelTypes

end Adaptation

end OranAdapt
