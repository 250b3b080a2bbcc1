import Mathlib.Data.Char
import Mathlib.Data.List.Dedup
import Mathlib.Data.List.Lex
import OranAdapt.PyDict
import OranAdapt.PyNumbers
import OranAdapt.Sorting
import OranAdapt.Store

/-!
# Two segments compared

`_load_slice`, `timestamp_merge` and `compare_segments` of `analysis`. The time
and the segment of a row stand in one dict with the columns of its payload, and
a feature is one that some row of each segment has a number for.
-/

namespace OranAdapt.SegmentComparison

/-! ## Rows -/

/-- A value of a payload. A list, or a dict, is known by its text only. -/
inductive Value where
  | null
  | bool (b : Bool)
  | int (n : Int)
  | float (x : PyFloat)
  | str (s : String)
  | nested (isDict : Bool) (text : String)
deriving DecidableEq, Repr

/-- `isinstance(v, int | float) and not isinstance(v, bool)` -/
def Value.isNumber : Value → Bool
  | int _ | float _ => true
  | _ => false

structure DataRow where
  observedAt : Time
  payload : Table String Value

/-- What a record holds under a key. -/
inductive Cell where
  | time (t : Time)
  | value (v : Value)
deriving DecidableEq, Repr

abbrev Record := Table String Cell

structure VersionInfo where
  id : Nat
  version : String
  kind : String
  rowCount : Option Nat
  dataStart : Option Time
  dataEnd : Option Time

structure DataSlice where
  info : VersionInfo
  rowCount : Nat
  records : List Record
  totalRows : Nat
  sampled : Bool

structure MergedSeries where
  rows : List Record
  historicalCount : Nat
  driftedCount : Nat
  boundaryAt : Option Cell
  overlapCount : Nat

/-- What Evidently says of a column. -/
structure Drift where
  ks : PyFloat
  psi : PyFloat

/-- What the analysis calls: `none` is a TypeError of `<` and of `<=`, and a ValueError of `float`. -/
structure Analysis where
  less : Value → Value → Option Bool
  lessEq : Value → Value → Option Bool
  float? : String → Option PyFloat
  /-- `ndarray.mean`, which takes a NaN or an infinity among the values over -/
  mean : List PyFloat → PyFloat
  mean_finite : ∀ xs q, mean xs = .fin q → ∀ x ∈ xs, ∃ q', x = .fin q'
  /-- `ndarray.std` -/
  std : List PyFloat → PyFloat
  /-- `stats.ks_2samp(h, d).statistic` -/
  ks2samp : List PyFloat → List PyFloat → Except AdaptationError PyFloat
  /-- `_evidently_drift` -/
  evidentlyDrift : List (String × List PyFloat × List PyFloat) → Except AdaptationError (String → Drift)

structure FeatureComparison where
  feature : String
  historicalMean : PyFloat
  driftedMean : PyFloat
  historicalStd : PyFloat
  driftedStd : PyFloat
  ksStatistic : PyFloat
  ksPvalue : PyFloat
  psi : PyFloat
  nHistorical : Nat
  nDrifted : Nat

structure ComparisonResult where
  features : List FeatureComparison
  historicalCount : Nat
  driftedCount : Nat
  maxPsi : PyFloat
  minKsPvalue : PyFloat

/-! ## Loading and merging -/

def observedAt : String := "observed_at"

def segmentKey : String := "segment"

def historicalName : String := "historical"

def driftedName : String := "drifted"

def cells (payload : Table String Value) : Table String Cell :=
  ⟨payload.rows.map fun p => (p.1, .value p.2), by simpa [Function.comp_def] using payload.nodup⟩

def record (r : DataRow) : Record := (Table.empty.put observedAt (.time r.observedAt)).update (cells r.payload).rows

/-- `_load_slice` on the rows that `access.sample` returns -/
def loadSlice (info : VersionInfo) (rows : List DataRow) : DataSlice where
  info := info
  rowCount := rows.length
  records := rows.map record
  totalRows := info.rowCount.getD rows.length
  sampled := rows.length < info.rowCount.getD rows.length

def tagged (segment : String) (r : Record) : Record := (Table.empty.put segmentKey (.value (.str segment))).update r.rows

section
variable (an : Analysis)

def Cell.less : Cell → Cell → Option Bool
  | .time s, .time t => some (decide (s < t))
  | .value v, .value w => an.less v w
  | _, _ => none

def Cell.lessEq : Cell → Cell → Option Bool
  | .time s, .time t => some (decide (s ≤ t))
  | .value v, .value w => an.lessEq v w
  | _, _ => none

def observed (r : Record) : Cell := (r.get? observedAt).getD (.value .null)

def lessObserved (a b : Record) : Option Bool := Cell.less an (observed a) (observed b)

def boundary : List Record → Except AdaptationError (Option Cell)
  | [] => .ok none
  | r :: rs => orRaise "TypeError" ((PySort.maxBy (Cell.less an) (observed r) (rs.map observed)).map some)

def overlap (boundary : Option Cell) (records : List Record) : Except AdaptationError Nat :=
  match boundary with
  | none => .ok 0
  | some last =>
    (records.mapM fun r => orRaise "TypeError" (Cell.lessEq an (observed r) last)).map fun early => early.count true

def timestampMerge (historical drifted : Option DataSlice) : Except AdaptationError MergedSeries := do
  let h := (historical.map (·.records)).getD []
  let d := (drifted.map (·.records)).getD []
  let last ← boundary an h
  let overlapping ← overlap an last d
  let rows ← orRaise "TypeError" (PySort.sortBy (lessObserved an)
    (h.map (tagged historicalName) ++ d.map (tagged driftedName)))
  .ok ⟨rows, (historical.map (·.rowCount)).getD 0, (drifted.map (·.rowCount)).getD 0, last, overlapping⟩

/-! ## Comparing -/

/-- An entry of `np.array(..., dtype=float)` -/
def asFloat : Cell → Except AdaptationError PyFloat
  | .time _ => .error (pythonError "TypeError")
  | .value .null => .ok .nan
  | .value (.bool b) => .ok (.fin (if b then 1 else 0))
  | .value (.int n) => if n.natAbs < PyInt.floatLimit then .ok (.fin n) else .error (pythonError "OverflowError")
  | .value (.float x) => .ok x
  | .value (.str s) => orRaise "ValueError" (an.float? s)
  | .value (.nested isDict _) => .error (pythonError (if isDict then "TypeError" else "ValueError"))

def reserved : List String := [observedAt, segmentKey]

def Cell.isNumber : Cell → Bool
  | .time _ => false
  | .value v => v.isNumber

def numericFeatureNames (rows : List Record) : List String :=
  rows.flatMap fun r => (r.rows.filter fun p => p.1 ∉ reserved ∧ p.2.isNumber).map Prod.fst

def column (rows : List Record) (feature : String) : List Cell := rows.filterMap (·.get? feature)

abbrev Column := String × List PyFloat × List PyFloat

def readColumn (historical drifted : List Record) (feature : String) : Except AdaptationError Column := do
  let h ← (column historical feature).mapM (asFloat an)
  let d ← (column drifted feature).mapM (asFloat an)
  .ok (feature, h, d)

def longEnough (c : Column) : Bool := 2 ≤ c.2.1.length && 2 ≤ c.2.2.length

def compareFeature (drift : String → Drift) (c : Column) : Except AdaptationError FeatureComparison := do
  let statistic ← an.ks2samp c.2.1 c.2.2
  .ok ⟨c.1, an.mean c.2.1, an.mean c.2.2, an.std c.2.1, an.std c.2.2, statistic, (drift c.1).ks,
    (drift c.1).psi, c.2.1.length,
    c.2.2.length⟩

def summary (features : List FeatureComparison) (historicalCount driftedCount : Nat) : ComparisonResult :=
  match features with
  | [] => ⟨[], historicalCount, driftedCount, .fin 0, .fin 1⟩
  | f :: fs =>
    ⟨f :: fs, historicalCount, driftedCount, (fs.map (·.psi)).foldl PyFloat.pyMax f.psi,
      (fs.map (·.ksPvalue)).foldl PyFloat.pyMin f.ksPvalue⟩

def inSegment (segment : String) (r : Record) : Bool := r.get? segmentKey == some (.value (.str segment))

def sortedNames (names : List String) : List String := names.dedup.mergeSort fun a b => decide (a.toList ≤ b.toList)

def sharedNames (historical drifted : List Record) : List String :=
  sortedNames ((numericFeatureNames historical).filter (· ∈ numericFeatureNames drifted))

def compareSegments (merged : MergedSeries) : Except AdaptationError ComparisonResult :=
  let historical := merged.rows.filter (inSegment historicalName)
  let drifted := merged.rows.filter (inSegment driftedName)
  if historical = [] ∨ drifted = [] then .ok (summary [] historical.length drifted.length)
  else do
    let read ← (sharedNames historical drifted).mapM (readColumn an historical drifted)
    let columns := read.filter longEnough
    if columns = [] then .ok (summary [] historical.length drifted.length)
    else do
      let drift ← an.evidentlyDrift columns
      let features ← columns.mapM (compareFeature an drift)
      .ok (summary features historical.length drifted.length)

def analyze (historical drifted : VersionInfo × List DataRow) :
    Except AdaptationError (MergedSeries × ComparisonResult) := do
  let merged ← timestampMerge an (some (loadSlice historical.1 historical.2)) (some (loadSlice drifted.1 drifted.2))
  let result ← compareSegments an merged
  .ok (merged, result)

end

end OranAdapt.SegmentComparison
