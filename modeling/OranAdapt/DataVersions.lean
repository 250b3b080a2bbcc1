import OranAdapt.DataRows

/-!
# Data versions

`datastore.versioning` and `datastore.access`: the tables of data versions and
their rows, the three ways a version's rows are stored, and the calls that
create, read and verify versions. Frames are what `to_json` writes of them; an
object outside the database is what its adapter reads, split and conformed.
-/

namespace OranAdapt

inductive DataKind where
  | historical | drifted | cdc | current
deriving DecidableEq, Repr

/-- A data frame: the names and types of its columns, and its `to_json` records. -/
structure Frame where
  columns : List (String × String)
  records : List Payload

def Frame.empty (f : Frame) : Bool := f.columns.isEmpty || f.records.isEmpty

/-- What registering an object recorded about it. -/
structure Reference where
  uri : String
  pinnedUri : String
  fingerprint : Option String
  format : String
  timestampColumn : String
deriving DecidableEq

/-- `extra["storage"]`, with what the storage needs. -/
inductive Storage where
  | rows
  | reference (ref : Reference)
  | derived (sources : List Nat) (excludedRowIds : List Int)
deriving DecidableEq

structure DataVersion where
  id : Nat
  dataset : String
  version : String
  kind : DataKind
  parentVersionId : Option Nat
  rowCount : Nat
  contentHash : String
  columns : List (String × String)
  /-- `extra.get("deleted_keys", [])` -/
  deletedKeys : List String
  storage : Storage

structure DataRecord where
  id : Nat
  dataVersionId : Nat
  observedAt : DateTime
  payload : Payload
  recordKey : Option String

/-- `access.Row`: one data row, whatever stores it. -/
structure Row where
  id : Int
  dataVersionId : Nat
  observedAt : DateTime
  payload : Payload
  recordKey : Option String := none

structure Datastore where
  datasets : List String := []
  versions : List DataVersion := []
  records : List DataRecord := []
  /-- model id, model version, version id and role of each link -/
  links : List (String × String × Nat × String) := []
  onboarded : List String := []

namespace Datastore

def version? (db : Datastore) (id : Nat) : Option DataVersion := db.versions.find? fun v => v.id = id

def findVersion (db : Datastore) (dataset version : String) : Option DataVersion :=
  db.versions.find? fun v => v.dataset = dataset ∧ v.version = version

def getOrCreateDataset (db : Datastore) (dataset : String) : Datastore :=
  if dataset ∈ db.datasets then db else { db with datasets := db.datasets ++ [dataset] }

/-- The rows of a version in the order of their ids, which is the order they were sent in. -/
def recordsOf (db : Datastore) (versionId : Nat) : List DataRecord := db.records.filter fun r => r.dataVersionId = versionId

end Datastore

/-! ## Errors -/

def artifactError (message : String) (context : Context) : AdaptationError := ⟨.artifactError, message, context⟩

def datasetNotFoundError (message : String) (context : Context) : AdaptationError :=
  ⟨.other "DATASET_NOT_FOUND", message, context⟩

def dataVersionConflictError (message : String) (context : Context) : AdaptationError :=
  ⟨.other "DATA_VERSION_CONFLICT", message, context⟩

def dataTooLargeError (message : String) (context : Context) : AdaptationError :=
  ⟨.other "DATA_TOO_LARGE", message, context⟩

def dataSourceChangedError (message : String) (context : Context) : AdaptationError :=
  ⟨.other "DATA_SOURCE_CHANGED", message, context⟩

/-! ## Creating versions -/

structure DataVersionInfo where
  dataVersionId : Nat
  version : String
  rowCount : Nat
  contentHash : String
  columns : List (String × String)
  /-- `False` when the call was an idempotent replay -/
  created : Bool
deriving DecidableEq

def DataVersionInfo.of (v : DataVersion) (created : Bool) : DataVersionInfo :=
  ⟨v.id, v.version, v.rowCount, v.contentHash, v.columns, created⟩

structure ModelLink where
  modelId : String
  modelVersion : String
  role : String

def linkModelData (link : ModelLink) (versionId : Nat) (db : Datastore) : Except AdaptationError Datastore :=
  if link.modelId ∉ db.onboarded then
    .error ⟨.modelNotFound, "model '" ++ link.modelId ++ "' is not onboarded", [("model_id", .str link.modelId)]⟩
  else
    let row := (link.modelId, link.modelVersion, versionId, link.role)
    .ok (if row ∈ db.links then db else { db with links := db.links ++ [row] })

def linkIfGiven (link : Option ModelLink) (versionId : Nat) (db : Datastore) : Except AdaptationError Datastore :=
  match link with
  | some link => linkModelData link versionId db
  | none => .ok db

def conflict (v : DataVersion) (digest : String) : AdaptationError :=
  dataVersionConflictError ("dataset '" ++ v.dataset ++ "' already has a different version '" ++ v.version ++ "'")
    [("dataset_id", .str v.dataset), ("version", .str v.version), ("existing_hash", .str v.contentHash),
      ("new_hash", .str digest)]

/-- `_existing`: the stored version of that name when its content matches, `none` when the name is free. -/
def existing (dataset version digest : String) (link : Option ModelLink) (db : Datastore) :
    Except AdaptationError (Option (DataVersionInfo × Datastore)) :=
  match db.findVersion dataset version with
  | none => .ok none
  | some v =>
    if v.contentHash ≠ digest then .error (conflict v digest)
    else (linkIfGiven link v.id db).map fun db => some (.of v false, db)

def parentId (dataset : String) (parentVersion : Option String) (db : Datastore) : Except AdaptationError (Option Nat) :=
  match parentVersion with
  | none => .ok none
  | some name =>
    match db.findVersion dataset name with
    | some parent => .ok (some parent.id)
    | none =>
      .error (datasetNotFoundError ("parent version '" ++ name ++ "' not found in dataset '" ++ dataset ++ "'")
        [("dataset_id", .str dataset)])

structure NewVersion where
  dataset : String
  version : String
  kind : DataKind
  digest : String
  columns : List (String × String)
  deletedKeys : List String := []
  storage : Storage
  rowCount : Nat
  /-- the rows to copy into `data_record` -/
  rows : List (DateTime × Payload × Option String) := []
  parentVersion : Option String := none
  link : Option ModelLink := none

/-- The rows of a new version, numbered after those stored. -/
def numberRows (versionId : Nat) : Nat → List (DateTime × Payload × Option String) → List DataRecord
  | _, [] => []
  | n, (ts, payload, key) :: rows => ⟨n, versionId, ts, payload, key⟩ :: numberRows versionId (n + 1) rows

namespace Datastore

def nextVersionId (db : Datastore) : Nat := db.versions.length + 1

def newVersion (db : Datastore) (new : NewVersion) (parent : Option Nat) : DataVersion where
  id := db.nextVersionId
  dataset := new.dataset
  version := new.version
  kind := new.kind
  parentVersionId := parent
  rowCount := new.rowCount
  contentHash := new.digest
  columns := new.columns
  deletedKeys := new.deletedKeys
  storage := new.storage

def add (db : Datastore) (new : NewVersion) (parent : Option Nat) : Datastore :=
  { db with
    versions := db.versions ++ [db.newVersion new parent]
    records := db.records ++ numberRows db.nextVersionId (db.records.length + 1) new.rows }

/-- From `get_or_create_dataset` on: what `ingest_version` and `create_stored_version` share. -/
def create (db : Datastore) (new : NewVersion) : Except AdaptationError (DataVersionInfo × Datastore) := do
  let db := db.getOrCreateDataset new.dataset
  match ← existing new.dataset new.version new.digest new.link db with
  | some found => pure found
  | none =>
    let parent ← parentId new.dataset new.parentVersion db
    let id := db.nextVersionId
    let db ← linkIfGiven new.link id (db.add new parent)
    pure (⟨id, new.version, new.rowCount, new.digest, new.columns, true⟩, db)

end Datastore

/-- The arguments of `ingest_version`, and what `_timestamps` makes of the frame. -/
structure IngestCall where
  dataset : String
  version : String
  frame : Frame
  kind : DataKind
  timestamps : Except AdaptationError (Frame × List DateTime)
  /-- a column is taken out of the frame, no row -/
  rowsKept : ∀ features observedAt, timestamps = .ok (features, observedAt) →
    features.records.length = frame.records.length
  parentVersion : Option String := none
  link : Option ModelLink := none
  recordKeys : Option (List (Option String)) := none
  deletedKeys : List String := []

namespace IngestCall

variable (sha256 : String → String) (call : IngestCall)

def zipStrict {α β : Type} (as : List α) (bs : List β) : Except AdaptationError (List (α × β)) :=
  if as.length = bs.length then .ok (as.zip bs) else .error (pythonError "ValueError")

def keys (features : Frame) : List (Option String) := call.recordKeys.getD (List.replicate features.records.length none)

/-- The rows to store, with their timestamps and keys. -/
def rows (features : Frame) (observedAt : List DateTime) : List (DateTime × Payload × Option String) :=
  observedAt.zip (features.records.zip (call.keys features))

def digest (features : Frame) (observedAt : List DateTime) : String :=
  keyedHash sha256 (rowsDigest sha256 (observedAt.zip features.records)) call.recordKeys call.deletedKeys

def new (features : Frame) (observedAt : List DateTime) : NewVersion where
  dataset := call.dataset
  version := call.version
  kind := call.kind
  digest := call.digest sha256 features observedAt
  columns := features.columns
  deletedKeys := call.deletedKeys.insertionSort (· ≤ ·)
  storage := .rows
  rowCount := features.records.length
  rows := call.rows features observedAt
  parentVersion := call.parentVersion
  link := call.link

def split : Except AdaptationError (Frame × List DateTime) :=
  if call.frame.empty = true ∧ call.deletedKeys = [] then
    .error (artifactError "refusing to ingest an empty data version" [("version", .str call.version)])
  else if (call.recordKeys.map List.length).any (· ≠ call.frame.records.length) then
    .error (artifactError "record_keys must have one key per row" [("version", .str call.version)])
  else do
    let (features, observedAt) ← call.timestamps
    let _ ← zipStrict observedAt features.records
    pure (features, observedAt)

def run (db : Datastore) : Except AdaptationError (DataVersionInfo × Datastore) := do
  let (features, observedAt) ← call.split
  db.create (call.new sha256 features observedAt)

end IngestCall

end OranAdapt
