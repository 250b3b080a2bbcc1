import OranAdapt.DataHistory
import OranAdapt.Registry
import OranAdapt.Verifying

/-!
# Onboarding

`registry.onboarding`: the two calls that make a model manageable. Each reads
and writes the database inside its caller's transaction, and between these
calls the registry, which no rollback reaches.
-/

namespace OranAdapt

namespace Registry

theorem ext {r r' : Registry} (hversions : r.versions = r'.versions) (haliases : r.aliases = r'.aliases) : r = r' := by
  cases r
  cases r'
  simp only at hversions haliases
  subst hversions haliases
  rfl

theorem registered_withVersion (r : Registry) (name : String) (v : Version) (i : VersionInfo) (n a : String) (w : Version)
    (h : r.aliases n a = some w) : (if n = name ∧ w = v then some i else r.versions n w).isSome := by
  split
  · rfl
  · exact r.registered n a w h

def withVersion (r : Registry) (name : String) (v : Version) (i : VersionInfo) : Registry where
  versions := fun n w => if n = name ∧ w = v then some i else r.versions n w
  aliases := r.aliases
  registered := registered_withVersion r name v i

def withTags (r : Registry) (name : String) (v : Version) (tags : List (String × String)) : Registry :=
  tags.foldl (fun r tag => r.withTag name v tag.1 tag.2) r

def createVersion (f : Answer) (name : String) (v : Version) (i : VersionInfo) : RegistryAct Version :=
  ask f fun r => .ok (v, r.withVersion name v i)

/-- `list_versions`, called for the ModelNotFoundError of a model that is absent. -/
def listVersions (f : Effects.Fate AdaptationError) : RegistryAct Unit := Effects.perform f fun r => .ok ((), r)

def setVersionTags (f : Answer) (name : String) (v : Version) (tags : List (String × String)) : RegistryAct Unit :=
  ask f fun r => if (r.versions name v).isSome then .ok ((), r.withTags name v tags) else .error (notFound name v)

end Registry

namespace Onboarding

open Effects

/-- What the calls run with. -/
structure Host where
  sha256 : String → String
  /-- Python's `repr` of a string -/
  repr : String → String
  /-- the database holds a string to the length of its column -/
  lengths : Bool
  /-- `registry.artifact_policy.max_bytes` -/
  maxBytes : Nat

def Host.fits (host : Host) (n : Nat) (s : String) : Bool := !host.lengths || decide (s.length ≤ n)

/-! ## The state -/

structure ModelRow where
  modelId : ModelId
  mlflowModelName : String
  modelType : String
  framework : String
  taskType : String
  targetColumn : String

/-- The tables a call writes. -/
structure Catalog where
  models : List ModelRow
  data : Datastore
  ids : data.onboarded = models.map ModelRow.modelId

theorem ids_add (cat : Catalog) (row : ModelRow) :
    cat.data.onboarded ++ [row.modelId] = (cat.models ++ [row]).map ModelRow.modelId := by
  rw [cat.ids, List.map_append, List.map_singleton]

def Catalog.add (cat : Catalog) (row : ModelRow) : Catalog where
  models := cat.models ++ [row]
  data := { cat.data with onboarded := cat.data.onboarded ++ [row.modelId] }
  ids := ids_add cat row

def Catalog.withData (cat : Catalog) (db : Datastore) : Catalog where
  models := cat.models
  data := { db with onboarded := cat.data.onboarded }
  ids := cat.ids

structure World where
  catalog : Catalog
  registry : Registry

/-- Who decided that a call fails: the request and the database, or the registry. -/
inductive Cause where
  | request | registry
deriving DecidableEq

structure Failure where
  cause : Cause
  error : AdaptationError

abbrev OnboardAct (α : Type) := Act World Failure α

/-- A check, or reads and writes of the database. -/
def onCatalog {α : Type} (act : Catalog → Except AdaptationError (α × Catalog)) : OnboardAct α := fun w =>
  match act w.catalog with
  | .ok (a, cat) => (.done a, { w with catalog := cat })
  | .error e => (.raised ⟨.request, e⟩, w)

def check {α : Type} (x : Except AdaptationError α) : OnboardAct α := onCatalog fun cat => x.map fun a => (a, cat)

def onRegistry {α : Type} (act : RegistryAct α) : OnboardAct α := fun w =>
  match act w.registry with
  | (.done a, r) => (.done a, { w with registry := r })
  | (.raised e, r) => (.raised ⟨.registry, e⟩, { w with registry := r })
  | (.stopped, r) => (.stopped, { w with registry := r })

/-- `session_scope`: what does not return is rolled back. -/
def sessionScope {α : Type} (act : OnboardAct α) : OnboardAct α := fun w =>
  match act w with
  | (.done a, w') => (.done a, w')
  | (.raised e, w') => (.raised e, { w' with catalog := w.catalog })
  | (.stopped, w') => (.stopped, { w' with catalog := w.catalog })

/-! ## Steps of both calls -/

variable (host : Host)

def ensureNewModel (modelId : ModelId) (cat : Catalog) : Except AdaptationError (Unit × Catalog) :=
  if modelId ∈ cat.models.map ModelRow.modelId then
    .error ⟨.conflict, "model '" ++ modelId ++ "' is already onboarded", [("model_id", .str modelId)]⟩
  else .ok ((), cat)

def checkTarget (frame : Frame) (targetColumn : String) : Except AdaptationError Unit :=
  let columns := frame.columns.map Prod.fst
  if targetColumn ∈ columns then .ok ()
  else
    .error (artifactError ("training data has no target column " ++ host.repr targetColumn)
      [("available_columns", .strs columns)])

/-- What the driver raises for a value too long for its column. -/
def tooLong (n : Nat) : AdaptationError :=
  ⟨.dataError, "value too long for type character varying(" ++ toString n ++ ")", []⟩

def column (n : Nat) (value : String) : Except AdaptationError Unit :=
  if host.fits n value then .ok () else .error (tooLong n)

def columnIf (added : Prop) [Decidable added] (n : Nat) (value : String) : Except AdaptationError Unit :=
  if added then column host n value else .ok ()

/-- `session.add(ModelMetadata(..))` and the flush -/
def addModel (row : ModelRow) (cat : Catalog) : Except AdaptationError (Unit × Catalog) := do
  column host 200 row.modelId
  column host 200 row.mlflowModelName
  column host 100 row.modelType
  column host 50 row.framework
  column host 50 row.taskType
  column host 200 row.targetColumn
  pure ((), cat.add row)

/-- `link_model_data` of a model added in this transaction: no link of it is stored yet. -/
def addLink (link : ModelLink) (versionId : Nat) (cat : Catalog) : Except AdaptationError (Unit × Catalog) := do
  let db ← linkModelData link versionId cat.data
  column host 50 link.modelVersion
  pure ((), cat.withData db)

def ingest (call : IngestCall) (cat : Catalog) : Except AdaptationError (DataVersionInfo × Catalog) := do
  let (info, db) ← call.run host.sha256 cat.data
  columnIf host (call.dataset ∉ cat.data.datasets) 200 call.dataset
  columnIf host (info.created = true) 50 call.version
  columnIf host (call.link.isSome = true) 50 (call.link.elim "" ModelLink.modelVersion)
  pure (info, cat.withData db)

def lineageTags (modelId : ModelId) (dataset version contentHash : String) : List (String × String) :=
  [("oran.model_id", modelId), ("data.dataset_id", dataset), ("data.training_version", version),
    ("data.training_hash", contentHash)]

structure Result where
  modelId : ModelId
  mlflowModelName : String
  modelVersion : Version
  liveAlias : String
  trainingData : Option DataVersionInfo
  driftedData : Option DataVersionInfo

/-! ## `publish_model` -/

def alnum (c : Char) : Bool :=
  ('A' ≤ c && c ≤ 'Z') || ('a' ≤ c && c ≤ 'z') || ('0' ≤ c && c ≤ '9')

/-- `_NAME_RE`; its `$` also stands before a final newline. -/
def validModelName (name : String) : Bool :=
  let chars := if name.toList.getLast? = some '\n' then name.toList.dropLast else name.toList
  match chars with
  | [] => false
  | c :: cs => alnum c && cs.length ≤ 127 && cs.all fun c => alnum c || c == '_' || c == '.' || c == '-'

def checkModelName (name : String) : Except AdaptationError Unit :=
  if validModelName name then .ok ()
  else
    .error ⟨.other "INVALID_REFERENCE", "invalid model name " ++ host.repr name,
      [("name", .str name), ("pattern", .str "[A-Za-z0-9][A-Za-z0-9_.\\-]\x7b0,127\x7d")]⟩

/-- A serialized model. -/
structure Artifact where
  path : String
  size : Nat
  /-- where the registry stores it, and the digest it stores -/
  source : Option String
  sha256 : String

def checkSize (artifact : Artifact) (name : String) : Except AdaptationError Unit :=
  if host.maxBytes < artifact.size then
    .error (artifactError "model artifact exceeds the size limit; refusing to load it"
      [("path", .str artifact.path), ("size_bytes", .nat artifact.size), ("max_bytes", .nat host.maxBytes),
        ("model", .str name)])
  else .ok ()

/-- How the registry answers an onboarding, and the number it gives the version. -/
structure PublishAnswers where
  create : Answer
  version : Version
  setAlias : Answer

def publishModel (answers : PublishAnswers) (name : String) (saved : Except AdaptationError Artifact)
    (tags : List (String × String)) : OnboardAct Version := do
  check (checkModelName host name)
  let artifact ← check saved
  check (checkSize host artifact name)
  onRegistry (Registry.createVersion answers.create name answers.version ⟨artifact.source, tags,
    artifact.size, artifact.sha256⟩)

/-! ## `onboard_model` -/

/-- The drifted data of an onboarding. The timestamps are those of its column,
or they follow the end of the training data. -/
structure Slice where
  frame : Frame
  version : Option String
  timestamps : DataVersionInfo → Except AdaptationError (Frame × List DateTime)
  rowsKept : ∀ training features observedAt, timestamps training = .ok (features, observedAt) →
    features.records.length = frame.records.length

structure OnboardCall where
  modelId : ModelId
  framework : String
  taskType : String
  targetColumn : String
  dataset : String
  trainingFrame : Frame
  trainingVersion : String
  timestamps : Except AdaptationError (Frame × List DateTime)
  rowsKept : ∀ features observedAt, timestamps = .ok (features, observedAt) →
    features.records.length = trainingFrame.records.length
  mlflowModelName : Option String
  liveAlias : String
  drifted : Option Slice
  /-- what `handler.save` makes of the model -/
  saved : Except AdaptationError Artifact

def orDefault (value : Option String) (default : String) : String :=
  match value with
  | some s => if s = "" then default else s
  | none => default

namespace OnboardCall

variable (call : OnboardCall)

def name : String := orDefault call.mlflowModelName (call.modelId.map fun c => if c = '-' then '_' else c)

def row : ModelRow := ⟨call.modelId, call.name, call.taskType, call.framework, call.taskType, call.targetColumn⟩

def training : IngestCall where
  dataset := call.dataset
  version := call.trainingVersion
  frame := call.trainingFrame
  kind := .historical
  timestamps := call.timestamps
  rowsKept := call.rowsKept

def driftedVersion (slice : Slice) : String := orDefault slice.version (call.trainingVersion ++ "-drift")

/-- The link an ingest is asked to make; it makes none for an empty id or version. -/
def driftLink (version : Version) : Option ModelLink :=
  if call.modelId = "" ∨ version = "" then none else some ⟨call.modelId, version, "DRIFT_OBSERVED"⟩

def driftedIngest (slice : Slice) (training : DataVersionInfo) (version : Version) : IngestCall where
  dataset := call.dataset
  version := call.driftedVersion slice
  frame := slice.frame
  kind := .drifted
  timestamps := slice.timestamps training
  rowsKept := slice.rowsKept training
  parentVersion := if call.trainingVersion = "" then none else some call.trainingVersion
  link := call.driftLink version

def ingestDrifted (training : DataVersionInfo) (version : Version) (cat : Catalog) :
    Except AdaptationError (Option DataVersionInfo × Catalog) :=
  match call.drifted with
  | none => .ok (none, cat)
  | some slice => (ingest host (call.driftedIngest slice training version) cat).map fun p => (some p.1, p.2)

def run (answers : PublishAnswers) : OnboardAct Result := do
  onCatalog (ensureNewModel call.modelId)
  check (checkTarget host call.trainingFrame call.targetColumn)
  onCatalog (addModel host call.row)
  let training ← onCatalog (ingest host call.training)
  let version ← publishModel host answers call.name call.saved
    (lineageTags call.modelId call.dataset call.trainingVersion training.contentHash)
  onRegistry (Registry.setAlias answers.setAlias call.name call.liveAlias version)
  onCatalog (addLink host ⟨call.modelId, version, "TRAINING"⟩ training.dataVersionId)
  let drifted ← onCatalog (call.ingestDrifted host training version)
  pure ⟨call.modelId, call.name, version, call.liveAlias, some training, drifted⟩

end OnboardCall

/-! ## `attach_existing_model` -/

structure AttachCall where
  modelId : ModelId
  mlflowModelName : String
  framework : String
  taskType : String
  targetColumn : String
  liveAlias : String
  version : Option Version
  dataset : Option String
  trainingVersion : Option String

/-- How the registry answers an attachment. -/
structure AttachAnswers where
  byAlias : Answer
  listVersions : Fate AdaptationError
  setAlias : Answer
  setTags : Answer

def versionRow (dataset version : String) (db : Datastore) : Except AdaptationError DataVersion :=
  if dataset ∉ db.datasets then
    .error (datasetNotFoundError ("dataset '" ++ dataset ++ "' not found") [("dataset_id", .str dataset)])
  else
    match db.findVersion dataset version with
    | some v => .ok v
    | none =>
      .error (datasetNotFoundError ("dataset '" ++ dataset ++ "' has no version '" ++ version ++ "'")
        [("dataset_id", .str dataset), ("version", .str version)])

def getVersion (dataset version : String) (cat : Catalog) : Except AdaptationError (DataVersionInfo × Catalog) :=
  (versionRow dataset version cat.data).map fun v => (.of v false, cat)

namespace AttachCall

variable (call : AttachCall)

def row : ModelRow :=
  ⟨call.modelId, call.mlflowModelName, call.taskType, call.framework, call.taskType, call.targetColumn⟩

def trainingData : Option (String × String) :=
  match call.dataset, call.trainingVersion with
  | some dataset, some version => if dataset = "" ∨ version = "" then none else some (dataset, version)
  | _, _ => none

def adopted (answers : AttachAnswers) : OnboardAct Version :=
  match call.version with
  | none => onRegistry (Registry.getVersionByAlias answers.byAlias call.mlflowModelName call.liveAlias)
  | some version => do
    onRegistry (Registry.listVersions answers.listVersions)
    onRegistry (Registry.setAlias answers.setAlias call.mlflowModelName call.liveAlias version)
    pure version

def linkTraining (answers : AttachAnswers) (version : Version) : OnboardAct (Option DataVersionInfo) :=
  match call.trainingData with
  | none => pure none
  | some (dataset, trainingVersion) => do
    let training ← onCatalog (getVersion dataset trainingVersion)
    onCatalog (addLink host ⟨call.modelId, version, "TRAINING"⟩ training.dataVersionId)
    onRegistry (Registry.setVersionTags answers.setTags call.mlflowModelName version
      (lineageTags call.modelId dataset trainingVersion training.contentHash))
    pure (some training)

def run (answers : AttachAnswers) : OnboardAct Result := do
  onCatalog (ensureNewModel call.modelId)
  let version ← call.adopted answers
  onCatalog (addModel host call.row)
  let training ← call.linkTraining host answers version
  pure ⟨call.modelId, call.mlflowModelName, version, call.liveAlias, training, none⟩

end AttachCall

/-! ## What the calls may do to the registry -/

inductive Call where
  | onboard (call : OnboardCall) (answers : PublishAnswers)
  | attach (call : AttachCall) (answers : AttachAnswers)

namespace Call

def modelId : Call → ModelId
  | onboard call _ => call.modelId
  | attach call _ => call.modelId

def liveAlias : Call → String
  | onboard call _ => call.liveAlias
  | attach call _ => call.liveAlias

def run : Call → OnboardAct Result
  | onboard call answers => sessionScope (call.run host answers)
  | attach call answers => sessionScope (call.run host answers)

end Call

def Managed (cat : Catalog) (modelId : ModelId) (name : String) : Prop :=
  ∃ row ∈ cat.models, row.modelId ≠ modelId ∧ row.mlflowModelName = name

/-- A call that fails for a reason of the request or the database leaves the
registry as it was, and no call moves the LIVE alias of another's model. -/
structure Undisturbed (call : Call) (w : World) : Prop where
  refused : ∀ failure w', call.run host w = (.raised failure, w') → failure.cause = .request → w'.registry = w.registry
  live : ∀ name, Managed w.catalog call.modelId name →
    ((call.run host).after w).registry.aliases name call.liveAlias = w.registry.aliases name call.liveAlias

end Onboarding

end OranAdapt
