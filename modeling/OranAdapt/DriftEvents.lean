import OranAdapt.IdempotencyKeys
import OranAdapt.PyDict
import OranAdapt.PyNumbers

/-!
# Drift events

`core.schemas.DriftEvent`, the contract of an inbound drift notification. What
pydantic makes of a value of each type is a parameter; the bounds of the
fields, their defaults and the order of the two times are the contract's own.
An event carries its bounds.
-/

namespace OranAdapt

namespace EventMapping

open IdempotencyKeys (DriftType Severity)

mutual

/-- Every integer in it is written with few enough digits: `json.loads` reads no longer one, and `str` writes none. -/
def prints : Json → Bool
  | .int n => PyInt.width n ≤ PyInt.maxStrDigits
  | .arr items => printsItems items
  | .obj fields => printsFields fields
  | _ => true

def printsItems : List Json → Bool
  | [] => true
  | v :: vs => prints v && printsItems vs

def printsFields : List (String × Json) → Bool
  | [] => true
  | (_, v) :: fs => prints v && printsFields fs

end

/-- A JSON text that was read. -/
structure Document where
  json : Json
  prints : prints json = true

/-- A value of a mapping or an override: a JSON value, or another one, as a date. -/
inductive Val (α : Type) where
  | json (v : Json)
  | other (x : α)

def Val.isNone {α : Type} : Val α → Bool
  | .json .null => true
  | _ => false

/-- A `datetime`: its microseconds, in UTC where it has an offset. -/
structure Moment where
  micros : Int
  aware : Bool
deriving DecidableEq, Repr

/-- `a < b`: `none` where the one has an offset and the other has not, a TypeError. -/
def Moment.less? (a b : Moment) : Option Bool := if a.aware = b.aware then some (decide (a.micros < b.micros)) else none

def driftTypeOf? (value : String) : Option DriftType :=
  [.feature, .prediction, .concept, .dataQuality].find? fun t : DriftType => t.value = value

def severityOf? (value : String) : Option Severity :=
  [.low, .medium, .high, .critical].find? fun s : Severity => s.value = value

/-- The keys it does not name stay as they were sent. -/
structure DriftEvidence (α : Type) where
  feature : Option String := none
  statistic : Option PyFloat := none
  pValue : Option PyFloat := none
  extra : List (String × Val α) := []

/-- A text of so many characters. -/
abbrev Sized (lo hi : Nat) := { s : String // lo ≤ s.length ∧ s.length ≤ hi }

/-- A score from 0 to 1. A `nan` passes the check. -/
abbrev DriftScore := { x : PyFloat // x.InUnit }

structure DriftFields (α : Type) where
  modelId : Sized 1 200
  modelType : Option String
  driftDetected : Bool
  driftScore : Option DriftScore
  evidence : DriftEvidence α
  eventId : Option (Sized 0 128)
  datasetId : Option String
  driftedDataVersion : Option String
  detectedAt : Option Moment
  modelVersion : Option (Sized 0 50)
  timestamp : Option Moment
  driftType : Option DriftType
  severity : Option Severity
  driftMetrics : List (String × PyFloat)
  affectedFeatures : List String
  sourceDatasetVersion : Option String
  dataStartTime : Option Moment
  dataEndTime : Option Moment

namespace DriftFields

def names : List String :=
  ["model_id", "model_type", "drift_detected", "drift_score", "evidence", "event_id", "dataset_id", "drifted_data_version",
    "detected_at", "model_version", "timestamp", "drift_type", "severity", "drift_metrics", "affected_features",
    "source_dataset_version", "data_start_time", "data_end_time"]

/-- `_time_range_ordered`: `none` where the times cannot be compared. -/
def timeRangeOrdered? {α : Type} (f : DriftFields α) : Option Bool :=
  match f.dataStartTime, f.dataEndTime with
  | some start, some stop => (stop.less? start).map (!·)
  | _, _ => some true

end DriftFields

structure DriftEvent (α : Type) where
  fields : DriftFields α
  ordered : fields.timeRangeOrdered? = some true

/-- An entry of `exc.errors()`: where it is, and what it says. -/
structure Problem where
  field : String
  error : String
deriving DecidableEq, Repr

/-- What pydantic makes of a value: what it is read as, or what is wrong with it. -/
structure Coercions (α : Type) where
  str : Val α → Except String String
  bool : Val α → Except String Bool
  float : Val α → Except String PyFloat
  datetime : Val α → Except String Moment
  evidence : Val α → Except (List Problem) (DriftEvidence α)
  floats : Val α → Except (List Problem) (List (String × PyFloat))
  strs : Val α → Except (List Problem) (List String)

/-! ## The contract -/

namespace Coercions

variable {α β γ : Type}

/-- The problems of two fields are told together. -/
def both : Except (List Problem) (β → γ) → Except (List Problem) β → Except (List Problem) γ
  | .ok f, .ok b => .ok (f b)
  | .ok _, .error q => .error q
  | .error p, .ok _ => .error p
  | .error p, .error q => .error (p ++ q)

def given (values : Table String (Val α)) (name : String) (default : β) (read : Val α → Except (List Problem) β) :
    Except (List Problem) β :=
  match values.get? name with
  | none => .ok default
  | some v => read v

def required (values : Table String (Val α)) (name : String) (read : Val α → Except (List Problem) β) :
    Except (List Problem) β :=
  match values.get? name with
  | none => .error [⟨name, "Field required"⟩]
  | some v => read v

/-- What is wrong is told under the field's name. -/
def named (name : String) (read : Val α → Except String β) (v : Val α) : Except (List Problem) β :=
  match read v with
  | .ok b => .ok b
  | .error message => .error [⟨name, message⟩]

def optional (read : Val α → Except String β) (v : Val α) : Except String (Option β) :=
  if v.isNone then .ok none else (read v).map some

def characters (n : Nat) : String := toString n ++ if n = 1 then " character" else " characters"

/-- `Field(min_length=lo, max_length=hi)` -/
def sized (c : Coercions α) (lo hi : Nat) (v : Val α) : Except String (Sized lo hi) := do
  let s ← c.str v
  if h : lo ≤ s.length ∧ s.length ≤ hi then .ok ⟨s, h⟩
  else if s.length < lo then .error ("String should have at least " ++ characters lo)
  else .error ("String should have at most " ++ characters hi)

/-- `Field(ge=0.0, le=1.0)` -/
def score (c : Coercions α) (v : Val α) : Except String DriftScore := do
  let x ← c.float v
  if h : x.InUnit then .ok ⟨x, h⟩
  else if (PyFloat.fin 1).lt x then .error "Input should be less than or equal to 1"
  else .error "Input should be greater than or equal to 0"

/-- A `Literal` reads its own texts alone. -/
def literal (ofValue? : String → Option β) (expected : String) : Val α → Except String β
  | .json (.str s) => (ofValue? s).elim (.error s!"Input should be {expected}") .ok
  | _ => .error s!"Input should be {expected}"

def driftType (v : Val α) : Except String DriftType :=
  literal driftTypeOf? "'feature', 'prediction', 'concept' or 'data_quality'" v

def severity (v : Val α) : Except String Severity :=
  literal severityOf? "'LOW', 'MEDIUM', 'HIGH' or 'CRITICAL'" v

/-- The fields of the contract, each with its type, its bounds and its default. -/
def fields (c : Coercions α) (values : Table String (Val α)) : Except (List Problem) (DriftFields α) :=
  let field {β : Type} (name : String) (read : Val α → Except String β) : Except (List Problem) (Option β) :=
    given values name none (named name (optional read))
  let e := .ok DriftFields.mk
  let e := both e (required values "model_id" (named "model_id" (c.sized 1 200)))
  let e := both e (field "model_type" c.str)
  let e := both e (given values "drift_detected" true (named "drift_detected" c.bool))
  let e := both e (field "drift_score" c.score)
  let e := both e (given values "evidence" {} c.evidence)
  let e := both e (field "event_id" (c.sized 0 128))
  let e := both e (field "dataset_id" c.str)
  let e := both e (field "drifted_data_version" c.str)
  let e := both e (field "detected_at" c.datetime)
  let e := both e (field "model_version" (c.sized 0 50))
  let e := both e (field "timestamp" c.datetime)
  let e := both e (field "drift_type" driftType)
  let e := both e (field "severity" severity)
  let e := both e (given values "drift_metrics" [] c.floats)
  let e := both e (given values "affected_features" [] c.strs)
  let e := both e (field "source_dataset_version" c.str)
  let e := both e (field "data_start_time" c.datetime)
  both e (field "data_end_time" c.datetime)

end Coercions

end EventMapping

end OranAdapt
