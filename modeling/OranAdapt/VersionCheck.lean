import OranAdapt.DecisionPackage
import OranAdapt.Integrity
import OranAdapt.Scoring
import OranAdapt.SqlDatasets

/-!
# The version check

`analysis.version_eval`: the registered versions of a model are downloaded,
verified, loaded and scored on the current data, one after another. What the
registry, the artifact and the model of a version do is given for each.
-/

namespace OranAdapt.VersionCheck

open Scoring

/-! ## Versions -/

structure ModelVersion where
  version : String
  status : String
  createdAtMs : Option Int
deriving DecidableEq, Repr

/-- What `list_versions` returns: versions are numbered in the order they are created in, and the oldest is listed first. -/
structure Listing where
  versions : List ModelVersion
  numbers : List Nat
  numbered : versions.map (·.version) = numbers.map fun n : Nat => toString (n : Int)
  ascending : numbers.Pairwise (· < ·)
  /-- no number that Python would not write -/
  written : ∀ n ∈ numbers, PyInt.width n ≤ PyInt.maxStrDigits

/-- What the registry answers about one version: `get_version_metrics`, the tags of `get_version`,
the path and the contents of `download_artifacts`, and `set_version_tags`. -/
structure StoredVersion where
  metrics : Except AdaptationError Scores
  tags : Except AdaptationError (List (String × String))
  download : Except AdaptationError (String × Integrity.Entry)
  setTags : Except AdaptationError Unit

structure ModelHandler (μ : Type) where
  frameworks : List String
  detect : Integrity.Entry → Except AdaptationError Bool
  load : Integrity.Entry → String → Except AdaptationError μ

structure ArtifactPolicy where
  maxBytes : Nat
  hashChunkBytes : Nat
  checksumTag : String

structure Setting (α ε μ : Type) where
  lib : Libraries α ε
  types : ModelTypes α ε μ
  handlers : List (String × ModelHandler μ)
  sha : Integrity.Hasher
  policy : ArtifactPolicy
  sub : PyFloat → PyFloat → PyFloat
  /-- `round((time.time() * 1000 - created_ms) / 86_400_000, 4)` -/
  ageDays : Int → PyFloat
  name : String
  framework : String
  targetColumn : String
  liveVersion : String
  taskType : Option String
  data : Columns α
  nRows : Nat
  reuseMaxVersions : Nat
  scores_some : 1 ≤ reuseMaxVersions

section
variable {α ε μ : Type} (s : Setting α ε μ)

def byNumber {β : Type} (version : β → String) (items : List β) : Except AdaptationError (List β) := do
  let keys ← items.mapM fun item => orRaise "ValueError" (PyInt.int? (version item))
  .ok (((keys.zip items).mergeSort fun a b => decide (a.1 ≤ b.1)).map Prod.snd)

def candidates (versions : List ModelVersion) : Except AdaptationError (List ModelVersion) :=
  let ready := versions.filter (·.status = "READY")
  let newest := ready.drop (ready.length - s.reuseMaxVersions)
  byNumber (·.version)
    (if ∀ v ∈ newest, v.version ≠ s.liveVersion then newest ++ ready.filter (·.version = s.liveVersion) else newest)

/-! ## One version -/

def pathSize (artifact : Integrity.Entry) : Nat := ((Integrity.filesOf artifact).map fun f => f.2.length).sum

def verifyVersionArtifact (stored : StoredVersion)
    (version : String) : Except AdaptationError (String × Integrity.Entry × String) := do
  let tags ← stored.tags
  let (path, artifact) ← stored.download
  let named := [("model", CtxValue.str s.name), ("version", .str version)]
  raiseIf (s.policy.maxBytes < pathSize artifact)
    ⟨.artifactError, "model artifact exceeds the size limit; refusing to load it",
      [("path", .str path), ("size_bytes", .nat (pathSize artifact)), ("max_bytes", .nat s.policy.maxBytes)] ++ named⟩
  let expected := (tags.lookup s.policy.checksumTag).getD ""
  let digest ← Integrity.sha256Path s.sha s.policy.hashChunkBytes artifact
  if expected ≠ "" then do
    raiseIf (digest ≠ expected)
      ⟨.artifactIntegrity, "artifact checksum mismatch; refusing to load it",
        [("path", .str path), ("expected", .str expected), ("actual", .str digest)] ++ named⟩
    .ok (path, artifact, expected)
  else do
    stored.setTags
    .ok (path, artifact, digest)

def load (path : String) (artifact : Integrity.Entry) : Except AdaptationError μ := do
  let detected ← s.handlers.mapM fun h => h.2.detect artifact
  let recognised := ((s.handlers.zip detected).filter Prod.snd).map Prod.fst
  raiseIf (recognised = [])
    ⟨.artifactError, "no installed model handler recognises the artifact",
      [("path", .str path), ("handlers", .strs (SqlDataset.sorted (s.handlers.map Prod.fst)))]⟩
  match recognised.find? fun h => s.types.lower s.framework ∈ h.2.frameworks with
  | some h => h.2.load artifact s.framework
  | none =>
    .error ⟨.other "ADAPTATION_UNSUPPORTED", "no model handler loads " ++ s.types.repr s.framework ++ " from this artifact",
      [("path", .str path), ("recognised_by", .strs (recognised.map Prod.fst))]⟩

def reason (e : AdaptationError) : String := e.cls.code ++ ": " ++ e.message

def incompatible (ev : VersionEvaluation) (why : String) : VersionEvaluation := { ev with incompatibilityReason := some why }

/-- `except RegistryUnavailableError: raise` and `except AdaptationError`, where opening a version fails. -/
def refusedFor (ev : VersionEvaluation) (e : AdaptationError) : Except AdaptationError VersionEvaluation :=
  if e.cls.framework = true ∧ e.cls ≠ .registryUnavailable then .ok (incompatible ev (reason e)) else .error e

def degradation (metric : String) (now : PyFloat) (baseline : Scores) : Except AdaptationError (Option PyFloat) :=
  match baseline.lookup metric with
  | none => .ok none
  | some before => (Metrics.higherIsBetter metric).map fun higher =>
    some (if higher then s.sub before now else s.sub now before)

def featuresOf (inspection : ModelInspection) : List String :=
  match inspection.featureNamesIn with
  | some (f :: fs) => f :: fs
  | _ => (s.data.map Prod.fst).filter (· ≠ s.targetColumn)

def selected (features : List String) : Columns α :=
  features.filterMap fun f => (s.data.lookup f).map fun column => (f, column)

def evaluated (ev : VersionEvaluation) (scores : Scores) : Except AdaptationError VersionEvaluation :=
  match scores with
  | [] => .error (pythonError "StopIteration")
  | (metric, value) :: _ =>
    (degradation s metric value ev.baselineMetrics).map fun lost =>
      { ev with metricName := some metric, metricValue := some value, metrics :=
        scores, degradation := lost, compatible := true }

variable [DecidableEq ε]

/-- `_evaluate_one` once the model is loaded and described. -/
def scored (model : μ) (inspection : ModelInspection) (expected : Option String) (ev : VersionEvaluation) :
    Except AdaptationError VersionEvaluation :=
  let missing := (featuresOf s inspection).filter fun f => f ∉ s.data.map Prod.fst
  if expected.getD "" ≠ "" ∧ inspection.estimatorType ≠ expected.getD "" then
    .ok (incompatible ev ("estimator type " ++ inspection.estimatorType ++ " differs from LIVE's " ++ expected.getD ""))
  else if missing ≠ [] then
    .ok (incompatible ev ("features missing from current data: [" ++ ", ".intercalate (missing.map s.types.repr) ++ "]"))
  else do
    let y ← orRaise "KeyError" (s.data.lookup s.targetColumn)
    match evaluateModel s.lib s.types model (selected s (featuresOf s inspection)) s.nRows (some y)
      s.framework inspection.estimatorType
        s.taskType none with
    | .ok scores => evaluated s ev scores
    | .error e => if e.cls.framework = true then .ok (incompatible ev (reason e)) else .error e

def evaluateOne (stored : StoredVersion) (info : ModelVersion)
    (expected : Option String) : Except AdaptationError VersionEvaluation := do
  let baseline ← stored.metrics
  let ev : VersionEvaluation :=
    { version := info.version, isLive := info.version == s.liveVersion, nRows := s.nRows, baselineMetrics := baseline,
      ageDays := (info.createdAtMs.filter (· ≠ 0)).map s.ageDays }
  match verifyVersionArtifact s stored info.version with
  | .error e => refusedFor ev e
  | .ok (path, artifact, digest) =>
    let ev := { ev with artifactSha256 := some digest }
    match load s path artifact with
    | .error e => refusedFor ev e
    | .ok model =>
      match s.types.require model s.framework with
      | .error e => refusedFor ev e
      | .ok inspection => scored s model inspection expected { ev with estimatorType := some inspection.estimatorType }

/-! ## All versions -/

def evaluateEach (stored : String → StoredVersion) :
    Option String → List ModelVersion → Except AdaptationError (List VersionEvaluation)
  | _, [] => .ok []
  | expected, info :: rest => do
    let ev ← evaluateOne s (stored info.version) info expected
    let results ← evaluateEach stored (if ev.isLive then ev.estimatorType else expected) rest
    .ok (ev :: results)

def evaluateVersions (listing : Listing) (stored : String → StoredVersion) :
    Except AdaptationError (List VersionEvaluation) := do
  let infos ← candidates s listing.versions
  let liveInfo := infos.filter (·.version = s.liveVersion)
  let others := infos.filter (·.version ≠ s.liveVersion)
  let results ← evaluateEach s stored none (liveInfo ++ others)
  byNumber (·.version) results

end

end OranAdapt.VersionCheck
