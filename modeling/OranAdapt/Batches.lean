import OranAdapt.DataAccess
import OranAdapt.PyNumbers

/-!
# Reading in batches

`datastore.formats`: a CSV or JSON Lines object is read some rows at a time.
pandas infers the type of a column for each batch on its own, the types are
merged into one for each column, and every batch is cast to those.
-/

namespace OranAdapt

def dataFormatError (message : String) (context : Context) : AdaptationError :=
  ⟨.other "DATA_FORMAT_INVALID", message, context⟩

namespace Batches

/-! ## Columns of a batch -/

def container : Json → Bool
  | .arr _ | .obj _ => true
  | _ => false

/-- What pandas reads in a field, and what a frame holds. -/
inductive Value where
  | int (n : Int)
  | float (x : PyFloat)
  | bool (b : Bool)
  | text (s : String)
  | nested (v : { v : Json // v.WellFormed ∧ container v = true })
  | missing

namespace Value

def isInt : Value → Bool
  | int _ => true
  | _ => false

def isBool : Value → Bool
  | bool _ => true
  | _ => false

def isText : Value → Bool
  | text _ => true
  | _ => false

def isMissing : Value → Bool
  | missing => true
  | _ => false

def isNumber : Value → Bool
  | int _ | float _ => true
  | _ => false

end Value

/-- The types that pandas infers for the columns of a text object. -/
inductive Dtype where
  | int64 | bool | float64 | object
deriving DecidableEq, Repr

def Dtype.name : Dtype → String
  | int64 => "int64"
  | bool => "bool"
  | float64 => "float64"
  | object => "object"

/-- A field as it reads by itself, and what a column of other values holds of it: the text of a CSV
field, the value of a JSON one. -/
structure Field where
  value : Value
  raw : Value

def Field.missing : Field := ⟨.missing, .missing⟩

/-- Integers, booleans, or numbers with missing values have a type of their own. -/
def infer (column : List Field) : Dtype :=
  if column.isEmpty then .object
  else if column.all (·.value.isInt) then .int64
  else if column.all (·.value.isBool) then .bool
  else if column.all (fun f => f.value.isNumber || f.value.isMissing) then .float64
  else .object

/-- What `read_csv` takes a field for that is not text. -/
inductive Literal where
  | int (n : Int)
  | float (x : PyFloat)
  | bool (b : Bool)
  | missing

def Literal.value : Literal → Value
  | int n => .int n
  | float x => .float x
  | bool b => .bool b
  | missing => .missing

/-- pandas: the literals of CSV, an integer as a float, the text `to_json` writes for a float
(`none` for null), `astype` and `to_datetime`, where `none` is a `NaT` in a column, and for
a column a value that is no time. -/
structure Pandas where
  literal : String → Option Literal
  ofInt : Int → PyFloat
  write : PyFloat → Option { r : String // Json.IsFloatText r.toList }
  astype : String → Value → Option Value
  toDatetime : List Value → Option (List (Option DateTime))
  write_nan : write .nan = none
  astype_object (v : Value) : astype "object" v = some v
  astype_float64 (n : Int) : astype "float64" (.int n) = some (.float (ofInt n))
  length_toDatetime {column : List Value} {stamps : List (Option DateTime)} :
    toDatetime column = some stamps → stamps.length = column.length

abbrev FieldRow := List (String × Field)

def field (row : FieldRow) (c : String) : Field := (row.lookup c).getD .missing

def column (rows : List FieldRow) (c : String) : List Field := rows.map (field · c)

structure DataFrame where
  columns : List (String × Dtype)
  rows : List (List (String × Value))

namespace DataFrame

variable (frame : DataFrame)

def names : List String := frame.columns.map Prod.fst

def dtype (c : String) : Option String := (frame.columns.lookup c).map Dtype.name

def values (c : String) : List Value := frame.rows.map fun row => (row.lookup c).getD .missing

def drop (c : String) : DataFrame := ⟨frame.columns.filter (·.1 ≠ c), frame.rows.map (·.filter (·.1 ≠ c))⟩

end DataFrame

namespace Pandas

variable (pd : Pandas)

def toFloat : Value → Value
  | .int n => .float (pd.ofInt n)
  | .missing => .float .nan
  | v => v

def load (column : List Field) (f : Field) : Value :=
  match infer column with
  | .float64 => pd.toFloat f.value
  | .object => if column.all (fun f => f.value.isBool || f.value.isMissing) then f.value else f.raw
  | _ => f.value

def frame (names : List String) (rows : List FieldRow) : DataFrame where
  columns := names.map fun c => (c, infer (column rows c))
  rows := rows.map fun row => names.map fun c => (c, pd.load (column rows c) (field row c))

/-! ## Objects -/

def csvField (s : String) : Field :=
  match pd.literal s with
  | none => ⟨.text s, .text s⟩
  | some .missing => .missing
  | some l => ⟨l.value, .text s⟩

/-- A row with fewer fields than the header has missing ones. -/
def csvRow : List String → List String → FieldRow
  | [], _ => []
  | c :: cs, [] => (c, .missing) :: csvRow cs []
  | c :: cs, s :: ss => (c, pd.csvField s) :: csvRow cs ss

end Pandas

/-- An object that pandas can read. -/
inductive TextObject where
  | csv (header : List String) (rows : List (List String)) (nodup : header.Nodup)
      (fits : ∀ row ∈ rows, row.length ≤ header.length)
  | jsonl (rows : List (List (String × Value))) (nodup : ∀ row ∈ rows, (row.map Prod.fst).Nodup)

/-- The rows, `k` at a time: `fuel` bounds the number of batches. -/
def chunksTo {α : Type} (k : Nat) : (fuel : Nat) → List α → List (List α)
  | 0, _ => []
  | _ + 1, [] => []
  | fuel + 1, row :: rows => (row :: rows).take k :: chunksTo k fuel ((row :: rows).drop k)

def chunks {α : Type} (k : Nat) (rows : List α) : List (List α) := chunksTo k rows.length rows

namespace TextObject

variable (pd : Pandas)

def format : TextObject → String
  | csv .. => "csv"
  | jsonl .. => "jsonl"

def rows : TextObject → List FieldRow
  | csv header rows _ _ => rows.map (pd.csvRow header)
  | jsonl rows _ => rows.map (·.map fun f => (f.1, ⟨f.2, f.2⟩))

/-- The columns of a batch: the header, or the keys of the batch in the order they come up. -/
def names : TextObject → List FieldRow → List String
  | csv header .. , _ => header
  | jsonl .., batch => (batch.flatMap (·.map Prod.fst)).eraseDups

def batches (k : Nat) : TextObject → List (List FieldRow)
  | csv _ [] _ _ => [[]]
  | o => chunks k (o.rows pd)

def iterFrames (k : Nat) (o : TextObject) : List DataFrame :=
  (o.batches pd k).map fun batch => pd.frame (o.names batch) batch

end TextObject

/-! ## One type for each column -/

def merge (a b : String) : String :=
  if a = b then a
  else
    let numeric := ["int64", "float64", "int32", "float32"]
    if a ∈ numeric ∧ b ∈ numeric then "float64" else "object"

def sortedNames (names : List String) : List String := names.insertionSort (· ≤ ·)

def unifyDtypes (seen : List (String × String)) (frame : DataFrame) : Except AdaptationError (List (String × String)) :=
  let current := frame.columns.map fun c => (c.1, c.2.name)
  let old := seen.map Prod.fst
  if seen ≠ [] ∧ ¬((∀ c ∈ old, c ∈ frame.names) ∧ ∀ c ∈ frame.names, c ∈ old) then
    .error (dataFormatError "columns differ between parts of the data"
      [("expected", .strs (sortedNames old)), ("found", .strs (sortedNames frame.names))])
  else .ok (current.map fun c => (c.1, ((seen.lookup c.1).map (merge · c.2)).getD c.2))

namespace Pandas

variable (pd : Pandas)

def cast (frame : DataFrame) (row : List (String × Value)) (c : String × String) :
    Except AdaptationError (String × Value) :=
  let v := (row.lookup c.1).getD .missing
  if frame.dtype c.1 = some c.2 then .ok (c.1, v)
  else
    match pd.astype c.2 v with
    | some v => .ok (c.1, v)
    | none => .error (dataFormatError "a column no longer holds its recorded type" [])

def conform (frame : DataFrame) (columns : List (String × String)) :
    Except AdaptationError (List (List (String × Value))) :=
  if (∃ c ∈ columns, c.1 ∉ frame.names) ∨ columns.length ≠ frame.columns.length then
    .error (dataFormatError "columns differ from the ones recorded for this data version"
      [("expected", .strs (columns.map Prod.fst)), ("found", .strs frame.names)])
  else frame.rows.mapM fun row => columns.mapM (pd.cast frame row)

def splitTimestamps (frame : DataFrame) (column : String) : Except AdaptationError (DataFrame × List DateTime) :=
  if column ∉ frame.names then
    .error (dataFormatError ("timestamp column '" ++ column ++ "' not in data") [("available_columns", .strs frame.names)])
  else
    match pd.toDatetime (frame.values column) with
    | none =>
      .error (dataFormatError ("timestamp column '" ++ column ++ "' holds values that are not timestamps") [])
    | some stamps =>
      match stamps.mapM id with
      | none => .error (dataFormatError ("timestamp column '" ++ column ++ "' has empty values") [])
      | some stamps => .ok (frame.drop column, stamps)

/-! ## Rows -/

def floatJson (x : PyFloat) : Json := ((pd.write x).map fun r => Json.float r.1).getD .null

/-- A value as `to_json` writes it and `json.loads` reads it. -/
def json : Value → Json
  | .int n => .int n
  | .float x => pd.floatJson x
  | .bool b => .bool b
  | .text s => .str s
  | .nested v => v.1
  | .missing => .null

theorem json_wellFormed (v : Value) : (pd.json v).WellFormed := by
  cases v with
  | int n => exact .int n
  | float x =>
    change (pd.floatJson x).WellFormed
    unfold floatJson
    cases pd.write x with
    | none => exact .null
    | some r => exact .float r.2
  | bool b => exact .bool b
  | text s => exact .str s
  | nested v => exact v.2.1
  | missing => exact .null

theorem emptyRow_wellFormed : (Json.obj []).WellFormed := .obj .nil (by simp)

def payload : List (String × Value) → Payload
  | [] => ⟨[], emptyRow_wellFormed⟩
  | (c, v) :: row => ⟨(payload row).withDefault c (pd.json v),
      (payload row).withDefault_wellFormed (pd.json_wellFormed v)⟩

/-- A batch of `canonical_rows`, before `observed_at` is put in. -/
def batchRows (column : String) (columns : List (String × String)) (frame : DataFrame) :
    Except AdaptationError (List (DateTime × Payload)) := do
  let (payload, stamps) ← pd.splitTimestamps frame column
  let rows ← pd.conform payload columns
  IngestCall.zipStrict stamps (rows.map pd.payload)

end Pandas

end Batches

end OranAdapt
