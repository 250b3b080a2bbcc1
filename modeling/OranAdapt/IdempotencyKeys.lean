import Mathlib.Data.Set.Basic
import OranAdapt.DataRows
import OranAdapt.Separators

/-!
# Idempotency keys

`DriftEvent.idempotency_key`, the keys promotions are stored under, and the
requests that are answered from what a key recorded.
-/

namespace OranAdapt

namespace IdempotencyKeys

open Separators

/-! ## Drift events -/

inductive DriftType where
  | feature | prediction | concept | dataQuality
deriving DecidableEq

def DriftType.value : DriftType → String
  | feature => "feature"
  | prediction => "prediction"
  | concept => "concept"
  | dataQuality => "data_quality"

inductive Severity where
  | low | medium | high | critical
deriving DecidableEq

def Severity.value : Severity → String
  | low => "LOW"
  | medium => "MEDIUM"
  | high => "HIGH"
  | critical => "CRITICAL"

abbrev FloatText := { r : String // Json.IsFloatText r.toList }

/-- `core.schemas.DriftEvent`. Times are as `model_dump(mode="json")` writes them. -/
structure DriftEvent where
  modelId : String
  modelType : Option String
  driftDetected : Bool
  driftScore : Option FloatText
  evidence : Payload
  eventId : Option String
  datasetId : Option String
  driftedDataVersion : Option String
  detectedAt : Option String
  modelVersion : Option String
  timestamp : Option String
  driftType : Option DriftType
  severity : Option Severity
  driftMetrics : Payload
  affectedFeatures : List String
  sourceDatasetVersion : Option String
  dataStartTime : Option String
  dataEndTime : Option String
  modelId_length : 1 ≤ modelId.length ∧ modelId.length ≤ 200
  eventId_length : ∀ id, eventId = some id → id.length ≤ 128
  modelVersion_length : ∀ v, modelVersion = some v → v.length ≤ 50

def orNull {α : Type} (dump : α → Json) : Option α → Json
  | some a => dump a
  | none => .null

def team1Fields : List String :=
  ["model_version", "timestamp", "drift_type", "severity", "drift_metrics", "affected_features",
    "source_dataset_version", "data_start_time", "data_end_time"]

def unset : Json → Bool
  | .null | .arr [] | .obj [] => true
  | _ => false

namespace DriftEvent

variable (e : DriftEvent)

/-- `model_dump(mode="json")`, in the order `sort_keys` writes it. -/
def modelDump : JsonDict :=
  [("affected_features", .arr (e.affectedFeatures.map .str)),
    ("data_end_time", orNull .str e.dataEndTime),
    ("data_start_time", orNull .str e.dataStartTime),
    ("dataset_id", orNull .str e.datasetId),
    ("detected_at", orNull .str e.detectedAt),
    ("drift_detected", .bool e.driftDetected),
    ("drift_metrics", .obj e.driftMetrics.fields),
    ("drift_score", orNull (fun r => .float r.1) e.driftScore),
    ("drift_type", orNull (fun t => .str t.value) e.driftType),
    ("drifted_data_version", orNull .str e.driftedDataVersion),
    ("event_id", orNull .str e.eventId),
    ("evidence", .obj e.evidence.fields),
    ("model_id", .str e.modelId),
    ("model_type", orNull .str e.modelType),
    ("model_version", orNull .str e.modelVersion),
    ("severity", orNull (fun s => .str s.value) e.severity),
    ("source_dataset_version", orNull .str e.sourceDatasetVersion),
    ("timestamp", orNull .str e.timestamp)]

def body : JsonDict := e.modelDump.filter fun f => !(decide (f.1 ∈ team1Fields) && unset f.2)

def canonical : String := (Json.obj e.body).dumps

def carried : Option String :=
  match e.eventId with
  | some id => if id = "" then none else some id
  | none => none

end DriftEvent

def hexdigest (digest : BitVec 256) : List Char :=
  (List.range 64).map fun i => Json.hexDigit (digest.toNat / 16 ^ (63 - i))

section
variable (sha256 : String → BitVec 256)

namespace DriftEvent

variable (e : DriftEvent)

def digest : String := String.ofList ((hexdigest (sha256 e.canonical)).take 32)

def idempotencyKey : String :=
  match e.carried with
  | some id => e.modelId ++ ":" ++ id
  | none => e.modelId ++ ":" ++ e.digest sha256

end DriftEvent

/-! ## Requests -/

structure UuidHex where
  hex : String
  length : hex.length = 32
  chars : ∀ c ∈ hex.toList, c ∈ "0123456789abcdef".toList
deriving DecidableEq

/-- The parts of `POST /models/{model_id}/rollback` that make its key. -/
structure RollbackRequest where
  modelId : String
  idempotencyKey : Option String
  length : ∀ key, idempotencyKey = some key → key.length ≤ 128

inductive Request where
  | drift (event : DriftEvent)
  | rollback (request : RollbackRequest)
  /-- a job that puts a candidate, or an older version, live -/
  | jobPromotion (jobId : UuidHex) (reuse : Bool)
  | rolloutPromotion (rolloutId : UuidHex)

inductive Table where
  | adaptationJob | modelPromotion
deriving DecidableEq

def Table.keyLength : Table → Nat
  | adaptationJob => 128
  | modelPromotion => 200

def rollbackKey (modelId key : String) : String := "rollback:" ++ modelId ++ ":" ++ key

namespace Request

def key : Request → Option (Table × String)
  | drift event => some (.adaptationJob, event.idempotencyKey sha256)
  | rollback request =>
    match request.idempotencyKey with
    | some key => if key = "" then none else some (.modelPromotion, rollbackKey request.modelId key)
    | none => none
  | jobPromotion jobId reuse => some (.modelPromotion, jobId.hex ++ ":" ++ (if reuse then "reuse" else "promote"))
  | rolloutPromotion rolloutId => some (.modelPromotion, "rollout:" ++ rolloutId.hex ++ ":promote")

end Request

/-! ## Answers -/

/-- What else decides a request: it fails before its key is looked up, or after,
or nothing stops it. -/
inductive Course where
  | early | late | through
deriving DecidableEq

inductive Reply where
  /-- the recorded result of an earlier request -/
  | recorded (first : Request)
  | served
  /-- the key does not fit its column -/
  | tooLong
  | failed

abbrev Records := List ((Table × String) × Request)

def serve (records : Records) (request : Request) (course : Course) : Reply × Records :=
  if course = .early then (.failed, records)
  else
    match request.key sha256 with
    | none => (if course = .late then .failed else .served, records)
    | some key =>
      match records.lookup key with
      | some first => (.recorded first, records)
      | none =>
        if key.1.keyLength < key.2.length then (.tooLong, records)
        else if course = .late then (.failed, records)
        else (.served, (key, request) :: records)

def replies (records : Records) : List (Request × Course) → List (Request × Reply)
  | [] => []
  | (request, course) :: rest =>
    let p := serve sha256 records request course
    (request, p.1) :: replies p.2 rest

end

/-! ## The same request -/

/-- Both carry an event id and agree on it and on the model, or neither does and
they agree on every field. -/
def SameEvent (e e' : DriftEvent) : Prop :=
  (∃ id, e.carried = some id ∧ e'.carried = some id ∧ e.modelId = e'.modelId) ∨
    (e.carried = none ∧ e'.carried = none ∧ e = e')

namespace Request

def Same : Request → Request → Prop
  | drift e, drift e' => SameEvent e e'
  | rollback r, rollback r' => r.modelId = r'.modelId ∧ r.idempotencyKey = r'.idempotencyKey
  | jobPromotion id reuse, jobPromotion id' reuse' => id = id' ∧ reuse = reuse'
  | rolloutPromotion id, rolloutPromotion id' => id = id'
  | _, _ => False

end Request

/-- No key of these requests is shared, none is too long, and no request of any
run is answered with the result of another. -/
structure Distinct (sha256 : String → BitVec 256) (requests : Set Request) : Prop where
  events : ∀ e e', .drift e ∈ requests → .drift e' ∈ requests →
    e.idempotencyKey sha256 = e'.idempotencyKey sha256 →
    SameEvent e e'
  rollbacks : ∀ r r' key, .rollback r ∈ requests → .rollback r' ∈ requests →
    (Request.rollback r).key sha256 = some key →
    (Request.rollback r').key sha256 = some key → r.modelId = r'.modelId ∧ r.idempotencyKey = r'.idempotencyKey
  columns : ∀ e, .drift e ∈ requests → (e.idempotencyKey sha256).length ≤ 128
  answers : ∀ run : List (Request × Course), (∀ p ∈ run, p.1 ∈ requests) → ∀ x ∈ replies sha256 [] run,
    x.2 ≠ .tooLong ∧ ∀ first, x.2 = .recorded first → x.1.Same first

end IdempotencyKeys

end OranAdapt
