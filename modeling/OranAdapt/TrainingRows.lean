import OranAdapt.CurrentData
import OranAdapt.LoadedRows

/-!
# The rows a candidate trains on

`orchestrator.pipeline` from the load of the sources to the training snapshot:
the sources are cleaned, the newest rows held out (`adaptation.data`), and what
leaks is removed (`adaptation.leakage`). The snapshot is made later, of the
sources without the rows listed as excluded.
-/

namespace OranAdapt

/-- `holdout_size`. The source multiplies floats; the product here is exact, so the two differ by
a row where rounding carries a float product over an integer. -/
def holdoutSize (nRows : Nat) (fraction : Rat) (minRows : Nat) : Nat :=
  (max 0 (min (max (nRows * fraction).ceil minRows) ((nRows : Int) - 1))).toNat

/-! ## Leakage checks -/

structure LeakageSettings where
  checksEnabled : Bool := true
  allowFutureRows : Bool := false

structure LeakageReport where
  checked : Bool := true
  split : String := "temporal"
  trainRowsIn : Nat := 0
  trainRowsOut : Nat := 0
  holdoutRows : Nat := 0
  holdoutOverlapRemoved : Nat := 0
  holdoutDuplicatesRemoved : Nat := 0
  futureRowsRemoved : Nat := 0
  trainDuplicateRows : Nat := 0
  holdoutStart : Option String := none
  trainEnd : Option String := none
  trainHoldoutDisjoint : Bool := true
  targetLeakage : List String := []

def dataLeakageError (message : String) : AdaptationError := ⟨.other "DATA_LEAKAGE", message, []⟩

namespace Leakage

def rowKey (columns : List String) (r : Row) : String :=
  (Json.obj (columns.map fun c => (c, (r.payload.get c).getD .null))).dumps

variable (settings : LeakageSettings) (columns : List String) (holdout : List Row)

/-- The oldest held-out timestamp, and what is older than it. -/
def notNewer (rows : List Row) : List Row :=
  match (holdout.map (·.observedAt)).min? with
  | none => rows
  | some cutoff => if settings.allowFutureRows then rows else rows.filter fun r => r.observedAt ≤ cutoff

def overlap (train : List Row) : List Row := train.filter fun r => r.id ∉ holdout.map Row.id

def copies (train : List Row) : List Row :=
  (overlap holdout train).filter fun r => rowKey columns r ∉ holdout.map (rowKey columns)

def kept (train : List Row) : List Row := notNewer settings holdout (copies columns holdout train)

def report (train : List Row) : LeakageReport where
  split := if holdout ≠ [] ∧ settings.allowFutureRows then "unordered (future rows allowed by configuration)"
    else "temporal"
  trainRowsIn := train.length
  trainRowsOut := (kept settings columns holdout train).length
  holdoutRows := holdout.length
  holdoutOverlapRemoved := train.length - (overlap holdout train).length
  holdoutDuplicatesRemoved := (overlap holdout train).length - (copies columns holdout train).length
  futureRowsRemoved := (copies columns holdout train).length - (kept settings columns holdout train).length
  trainDuplicateRows := (kept settings columns holdout train).length -
    ((kept settings columns holdout train).map (rowKey columns)).dedup.length
  holdoutStart := (holdout.map (·.observedAt)).min?.map DateTime.isoformat
  trainEnd := ((kept settings columns holdout train).map (·.observedAt)).max?.map DateTime.isoformat
  trainHoldoutDisjoint := (kept settings columns holdout train).all fun r => r.id ∉ holdout.map Row.id

end Leakage

/-- `check_leakage`; `targetLeaks` finds the target among the features of a frame. -/
def checkLeakage (targetLeaks : List Payload → List String) (train holdout : List Row) (target : String)
    (featureNames : List String) (settings : LeakageSettings) : Except AdaptationError (List Row × LeakageReport) :=
  if settings.checksEnabled = false then
    .ok (train,
      { checked := false, trainRowsIn := train.length, trainRowsOut := train.length,
        holdoutRows := holdout.length })
  else
    let columns := (target :: featureNames).dedup.insertionSort (· ≤ ·)
    let kept := Leakage.kept settings columns holdout train
    let leaks := targetLeaks (kept.map (·.payload))
    if leaks ≠ [] then .error (dataLeakageError ("target leakage: " ++ ", ".intercalate leaks))
    else if kept = [] then .error (dataLeakageError "no training rows left after the leakage checks")
    else .ok (kept, { Leakage.report settings columns holdout train with targetLeakage := leaks })

/-! ## The job -/

/-- What a job takes its training rows from. -/
structure TrainingInputs where
  historical : Option Nat
  drifted : Option Nat
  target : String
  /-- the model's own feature names, or the columns of the frame -/
  featureNames : List Row → List String
  targetLeaks : List Payload → List String
  holdoutFraction : Rat
  minRows : Nat
  leakage : LeakageSettings := {}

structure TrainingRows where
  quality : Quality
  holdout : List Row
  /-- the rows the adaptation engine gets -/
  trained : List Row
  excluded : List Int
  report : LeakageReport

namespace TrainingInputs

variable (sha256 : String → String) (access : DataAccess) (job : TrainingInputs)

def trainIds : List Nat := job.historical.toList ++ job.drifted.toList

def pool (records : List Row) : List Row := records.filter fun r => job.drifted.all fun id => id = r.dataVersionId

def holdout (records : List Row) : List Row :=
  (job.pool records).drop ((job.pool records).length - holdoutSize (job.pool records).length job.holdoutFraction job.minRows)

def run (db : Datastore) : Except AdaptationError TrainingRows := do
  let loaded ← access.loadRecords sha256 db job.trainIds
  let cleaned := cleanRecords db loaded [job.target]
  if cleaned.records = [] then .error (artifactError "no usable rows left after cleaning the source data" [])
  else
    let records := cleaned.records
    let holdout := job.holdout records
    let train := records.filter fun r => r.id ∉ holdout.map Row.id
    let (trained, report) ← checkLeakage job.targetLeaks train holdout job.target (job.featureNames train) job.leakage
    pure ⟨cleaned.quality, holdout, trained, ((records.map Row.id).filter (· ∉ trained.map Row.id)).dedup, report⟩

def snapshot (rows : TrainingRows) (modelId modelVersion : String) : SnapshotCall where
  modelId
  modelVersion
  sourceVersionIds := job.trainIds
  parentVersionId := job.historical
  excludeRecordIds := rows.excluded

end TrainingInputs

end OranAdapt
