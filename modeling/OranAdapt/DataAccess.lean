import Mathlib.Algebra.Ring.Nat
import OranAdapt.DataVersions
import Mathlib.Data.Prod.Lex

/-!
# Reading data versions

`datastore.access`: `DataAccess` over its three storages, and the training
snapshot of `datastore.versioning`, which reads through it. A derived version
is read through the versions it was derived from, all older than itself.
-/

namespace OranAdapt

def rowIdStride : Nat := 2 ^ 40

def externalRowId (dataVersionId index : Nat) : Int := -((dataVersionId * rowIdStride + index + 1 : Nat) : Int)

theorem Payload.filter_wellFormed (p : Payload) (k : String) : (Json.obj (p.fields.filter (·.1 ≠ k))).WellFormed := by
  cases p.wellFormed with
  | obj hsorted hvalues =>
    exact .obj (hsorted.sublist (List.filter_sublist.map _)) fun f hf => hvalues f (List.mem_of_mem_filter hf)

def Payload.without (p : Payload) (k : String) : Payload := ⟨p.fields.filter (·.1 ≠ k), p.filter_wellFormed k⟩

structure SourceStat where
  pinnedUri : String
  fingerprint : Option String

/-- The enabled dataset adapters: whether a uri may be read and what is there now, the format of an
object, the column types of its payload, and its rows split from their timestamps and cast to
given types. -/
structure DatasetPort where
  stat : String → Except AdaptationError SourceStat
  inferFormat : (uri : String) → (declared : Option String) → Except AdaptationError String
  columns : (pinnedUri format timestampColumn : String) → Except AdaptationError (List (String × String))
  rows : (pinnedUri format timestampColumn : String) → List (String × String) →
    Except AdaptationError (List (DateTime × Payload))

inductive VerifyOnRead where
  | off | fingerprint | hash
deriving DecidableEq, Repr

structure DataAccess where
  port : DatasetPort
  maxRows : Nat := 1000000
  timeColumn : String := "observed_at"
  verifyOnRead : VerifyOnRead := .fingerprint

/-! ## The order of rows -/

def Row.key (r : Row) : Lex (DateTime × Int) := toLex (r.observedAt, r.id)

def Row.le (a b : Row) : Prop := a.key ≤ b.key

instance (a b : Row) : Decidable (a.le b) := inferInstanceAs (Decidable (_ ≤ _))

def sortRows (rows : List Row) : List Row := rows.insertionSort Row.le

def DataRecord.row (r : DataRecord) : Row := ⟨r.id, r.dataVersionId, r.observedAt, r.payload, r.recordKey⟩

namespace DataAccess

variable (sha256 : String → String) (access : DataAccess)

/-! ## Registering -/

structure RegisterCall where
  dataset : String
  version : String
  uri : String
  kind : DataKind
  fmt : Option String := none
  timestampColumn : Option String := none
  parentVersion : Option String := none
  link : Option ModelLink := none

structure ReferenceScan where
  reference : Reference
  columns : List (String × String)
  rowCount : Nat
  contentHash : String

def scan (uri : String) (fmt timestampColumn : Option String) : Except AdaptationError ReferenceScan := do
  let stat ← access.port.stat uri
  let format ← access.port.inferFormat uri fmt
  let column := timestampColumn.getD access.timeColumn
  let columns ← access.port.columns stat.pinnedUri format column
  let rows ← access.port.rows stat.pinnedUri format column columns
  if rows = [] then .error (artifactError "refusing to register an empty data object" [("uri", .str uri)])
  else pure ⟨⟨uri, stat.pinnedUri, stat.fingerprint, format, column⟩, columns, rows.length, rowsDigest sha256 rows⟩

variable {sha256 access} in
theorem scan_ok {uri : String} {fmt timestampColumn : Option String} {scan : ReferenceScan}
    (h : access.scan sha256 uri fmt timestampColumn = .ok scan) : ∃ stat format columns rows,
      access.port.stat uri = .ok stat ∧
      access.port.rows stat.pinnedUri format (timestampColumn.getD access.timeColumn) columns = .ok rows ∧ rows ≠ [] ∧
      scan = ⟨⟨uri, stat.pinnedUri, stat.fingerprint, format, timestampColumn.getD access.timeColumn⟩,
        columns, rows.length,
        rowsDigest sha256 rows⟩ := by
  obtain ⟨stat, hstat, h⟩ := bind_ok h
  obtain ⟨format, -, h⟩ := bind_ok h
  obtain ⟨columns, -, h⟩ := bind_ok h
  obtain ⟨rows, hrows, h⟩ := bind_ok h
  by_cases hne : rows = []
  · rw [if_pos hne] at h
    cases h
  · rw [if_neg hne] at h
    cases h
    exact ⟨stat, format, columns, rows, hstat, hrows, hne, rfl⟩

def RegisterCall.new (call : RegisterCall) (scan : ReferenceScan) : NewVersion where
  dataset := call.dataset
  version := call.version
  kind := call.kind
  digest := scan.contentHash
  columns := scan.columns
  storage := .reference scan.reference
  rowCount := scan.rowCount
  parentVersion := call.parentVersion
  link := call.link

def register (call : RegisterCall) (db : Datastore) : Except AdaptationError (DataVersionInfo × Datastore) := do
  let scan ← access.scan sha256 call.uri call.fmt call.timestampColumn
  db.create (call.new scan)

/-! ## Reading -/

def changed (message : String) (dv : DataVersion) (ref : Reference) (registered found : String) : AdaptationError :=
  dataSourceChangedError message
    [("data_version_id", .nat dv.id), ("uri", .str ref.uri), ("registered", .str registered), ("found", .str found)]

def checkUnchanged (dv : DataVersion) (ref : Reference) : Except AdaptationError Bool :=
  match access.verifyOnRead, ref.fingerprint with
  | .off, _ => .ok false
  | _, none => .ok true
  | mode, some registered => do
    let stat ← access.port.stat ref.pinnedUri
    if stat.fingerprint ≠ some registered then
      .error (changed "the object behind this data version changed since it was registered" dv ref registered
        (stat.fingerprint.getD "None"))
    else pure (decide (mode = .hash))

/-- The rows of an object as they are read: a payload column `observed_at` is dropped. -/
def referenceRows (versionId : Nat) (rows : List (DateTime × Payload)) : List Row :=
  rows.mapIdx fun i r =>
    { id := externalRowId versionId i, dataVersionId := versionId, observedAt := r.1,
      payload := r.2.without "observed_at" }

theorem referenceRows_pairs (id : Nat) (rows : List (DateTime × Payload)) :
    (referenceRows id rows).map (fun r => (r.observedAt, r.payload)) =
      rows.map fun r => (r.1, r.2.without "observed_at") := by
  apply List.ext_getElem
  · simp [referenceRows]
  · intro i h h'
    simp [referenceRows]

def iterReference (dv : DataVersion) (ref : Reference) (rehash : Option Bool) : Except AdaptationError (List Row) := do
  let _ ← access.port.stat ref.uri
  let mustHash ← match rehash with
    | some rehash => pure rehash
    | none => access.checkUnchanged dv ref
  let rows ← access.port.rows ref.pinnedUri ref.format ref.timestampColumn dv.columns
  if mustHash = true ∧ rowsDigest sha256 rows ≠ dv.contentHash then
    .error (changed "the rows behind this data version changed since it was registered" dv ref dv.contentHash
      (rowsDigest sha256 rows))
  else pure (referenceRows dv.id rows)

def versions (db : Datastore) (ids : List Nat) : Except AdaptationError (List DataVersion) :=
  match ids.mapM db.version? with
  | some versions => .ok versions
  | none => .error (datasetNotFoundError "unknown data version" [])

def checkCeiling (rows : Nat) : Except AdaptationError Unit :=
  if access.maxRows < rows then
    .error (dataTooLargeError (toString rows ++ " rows would have to be held in memory")
      [("key", .str "DATASET_MAX_ROWS"), ("limit", .nat access.maxRows), ("rows", .nat rows)])
  else .ok ()

def loadWith (read : DataVersion → Except AdaptationError (List Row)) (db : Datastore) (ids : List Nat) (require : Bool) :
    Except AdaptationError (List Row) := do
  let versions ← versions db ids
  access.checkCeiling (versions.map (·.rowCount)).sum
  let parts ← versions.mapM read
  if require = true ∧ parts.flatten = [] then
    .error (artifactError "no data records found for data versions" [])
  else pure (sortRows parts.flatten)

/-- `_derived_rows`, once the sources are loaded. -/
def derivedRows (versionId : Nat) (excluded : List Int) (rows : List Row) : List Row :=
  (rows.filter fun r => r.id ∉ excluded).mapIdx fun i r =>
    ⟨externalRowId versionId i, versionId, r.observedAt, r.payload, r.recordKey⟩

def iterRowsTo (db : Datastore) : Nat → DataVersion → Except AdaptationError (List Row)
  | 0, _ => .error (pythonError "RecursionError")
  | depth + 1, dv =>
    match dv.storage with
    | .rows => .ok (sortRows ((db.recordsOf dv.id).map DataRecord.row))
    | .reference ref => access.iterReference sha256 dv ref none
    | .derived sources excluded => do
      let rows ← access.loadWith (iterRowsTo db depth) db sources false
      pure (derivedRows dv.id excluded rows)

def iterRows (db : Datastore) (dv : DataVersion) : Except AdaptationError (List Row) :=
  access.iterRowsTo sha256 db (dv.id + 1) dv

def loadRecords (db : Datastore) (ids : List Nat) (require : Bool := true) : Except AdaptationError (List Row) :=
  access.loadWith (access.iterRows sha256 db) db ids require

/-! ## Verifying -/

structure Verification where
  rows : Nat
  contentHash : String
  recomputedHash : String
  fingerprintMatches : Bool
  matches_ : Bool
deriving DecidableEq

/-- The rows `verify` hashes, and whether the object's fingerprint is the registered one. -/
def verifiedRows (db : Datastore) (dv : DataVersion) : Except AdaptationError (List Row × Bool) :=
  match dv.storage with
  | .reference ref => do
    let _ ← access.port.stat ref.uri
    let stat ← access.port.stat ref.pinnedUri
    let rows ← access.iterReference sha256 dv ref (some false)
    pure (rows, decide (ref.fingerprint = none ∨ stat.fingerprint = ref.fingerprint))
  | .rows => .ok ((db.recordsOf dv.id).map DataRecord.row, true)
  | .derived _ _ => (access.iterRows sha256 db dv).map (·, true)

def recompute (dv : DataVersion) (rows : List Row) : String :=
  let digest := rowsDigest sha256 (rows.map fun r => (r.observedAt, r.payload))
  match dv.storage with
  | .rows =>
    let keys := rows.map (·.recordKey)
    keyedHash sha256 digest (if keys.any Option.isSome then some keys else none) dv.deletedKeys
  | _ => digest

def verify (db : Datastore) (dv : DataVersion) : Except AdaptationError Verification := do
  let (rows, fingerprintOk) ← access.verifiedRows sha256 db dv
  let digest := recompute sha256 dv rows
  pure ⟨rows.length, dv.contentHash, digest, fingerprintOk, decide (digest = dv.contentHash) && fingerprintOk⟩

end DataAccess

/-! ## Training snapshots -/

structure SnapshotCall where
  modelId : String
  modelVersion : String
  sourceVersionIds : List Nat
  parentVersionId : Option Nat
  excludeRecordIds : List Int := []

namespace SnapshotCall

variable (sha256 : String → String) (access : DataAccess) (reframe : List Payload → Frame) (call : SnapshotCall)

def name : String := "train-" ++ call.modelId ++ "-v" ++ call.modelVersion

def link : ModelLink := ⟨call.modelId, call.modelVersion, "TRAINING"⟩

/-- `pd.DataFrame(payloads)` with the timestamps beside it. -/
def frame (rows : List Row) : Frame :=
  let frame := reframe (rows.map (·.payload))
  ⟨("__observed_at", "datetime64[us, UTC]") :: frame.columns.filter (·.1 ≠ "__observed_at"), frame.records⟩

def features (rows : List Row) : Frame :=
  let frame := reframe (rows.map (·.payload))
  ⟨frame.columns.filter (·.1 ≠ "__observed_at"), frame.records.map (·.without "__observed_at")⟩

theorem features_length {rows : List Row} : ∀ features observedAt,
    (.ok (SnapshotCall.features reframe rows, rows.map (·.observedAt)) : Except AdaptationError (Frame × List DateTime)) =
      .ok (features, observedAt) →
    features.records.length = (SnapshotCall.frame reframe rows).records.length := by
  intro features observedAt h
  rw [← (Prod.mk.inj (Except.ok.inj h)).1]
  exact List.length_map _

def ingest (anchor : DataVersion) (rows : List Row) : IngestCall where
  dataset := anchor.dataset
  version := call.name
  frame := frame reframe rows
  kind := .historical
  timestamps := .ok (features reframe rows, rows.map (·.observedAt))
  rowsKept := features_length reframe
  parentVersion := call.parentVersionId.map fun _ => anchor.version
  link := some call.link

def derived (anchor : DataVersion) (sources : List DataVersion) (kept : List Row) : NewVersion where
  dataset := anchor.dataset
  version := call.name
  kind := .historical
  digest := rowsDigest sha256 (kept.map fun r => (r.observedAt, r.payload))
  columns := sources.foldl (fun columns s => s.columns.foldl (fun cs c => cs.filter (·.1 ≠ c.1) ++ [c]) columns) []
  storage := .derived call.sourceVersionIds (call.excludeRecordIds.insertionSort (· ≤ ·))
  rowCount := kept.length
  parentVersion := call.parentVersionId.map fun _ => anchor.version
  link := some call.link

def anchor (db : Datastore) (sources : List DataVersion) : Except AdaptationError DataVersion :=
  match call.parentVersionId with
  | some id => orRaise "NoResultFound" (db.version? id)
  | none => orRaise "IndexError" sources.head?

/-- The rows of the sources as one query reads them. -/
def storedRows (db : Datastore) : List Row :=
  sortRows ((db.records.filter fun r => r.dataVersionId ∈ call.sourceVersionIds).map DataRecord.row)

def run (db : Datastore) : Except AdaptationError (DataVersionInfo × Datastore) :=
  match call.sourceVersionIds.mapM db.version? with
  | none | some [] => .error (artifactError "cannot snapshot training data: unknown source data version" [])
  | some sources => do
    let anchor ← call.anchor db sources
    if sources.any (fun s => s.storage ≠ .rows) then do
      let rows ← access.loadRecords sha256 db call.sourceVersionIds
      db.create (call.derived sha256 anchor sources (rows.filter fun r => r.id ∉ call.excludeRecordIds))
    else
      (call.ingest reframe anchor ((call.storedRows db).filter fun r => r.id ∉ call.excludeRecordIds)).run sha256 db

end SnapshotCall

end OranAdapt
