import OranAdapt.DriftEvents
import OranAdapt.PyStr

/-!
# Monitoring payloads turned into drift events

`core.event_mapping`: a mapping says where the records of a payload are, which
of them count, and from where each field of an event comes. How Python writes
the values it is given is a parameter.
-/

namespace OranAdapt

namespace EventMapping

open PyStr (strip partitionAt)

/-! ## Mappings -/

/-- A step of a path: the key of an object, then the first element of a list whose key has the value. -/
structure Segment where
  name : List Char
  selector : Option (List Char × List Char)
deriving DecidableEq, Repr

def plain (c : Char) : Bool := c ∉ ['[', ']', '=']

def unbracketed (c : Char) : Bool := c ∉ ['[', ']']

/-- What follows a key: its value, and the bracket at the end or in front of a newline there. -/
def selectorValue? : List Char → Option (List Char)
  | '=' :: rest => if rest.dropWhile unbracketed ∈ [[']'], [']', '\n']] then some (rest.takeWhile unbracketed) else none
  | _ => none

/-- What follows a name: nothing, or a key and its value in brackets. -/
def selector? : List Char → Option (Option (List Char × List Char))
  | [] => some none
  | '[' :: rest =>
    if rest.takeWhile plain = [] then none
    else (selectorValue? (rest.dropWhile plain)).map fun value => some (rest.takeWhile plain, value)
  | _ => none

def segment? (text : List Char) : Option Segment :=
  (selector? (text.dropWhile plain)).map fun selector => ⟨text.takeWhile plain, selector⟩

def body : List Char → List Char
  | '/' :: path => path
  | path => path

def CheckPath (path : String) : Prop :=
  ∀ s ∈ (body path.toList).splitOn '.', ∃ seg, segment? s = some seg ∧ (seg.name ≠ [] ∨ seg.selector ≠ none)

structure FeatureTable where
  path : String
  detected : String
  score : Option String
  detected_length : 1 ≤ detected.length

structure EventIdRule where
  parts : List String
  separator : String
  parts_length : 1 ≤ parts.length

def fieldRef? (part : String) : Option String :=
  if "field:".toList.isPrefixOf part.toList then some (String.ofList (part.toList.drop 6)) else none

/-- A mapping file that was accepted; its version and its description are not read again. -/
structure DriftMapping (α : Type) where
  records : String
  «where» : Table String String
  fields : Table String String
  constants : Table String (Val α)
  split : Table String String
  valueMaps : Table String (Table String String)
  eventId : Option EventIdRule
  featureTable : Option FeatureTable
  knownFields : ∀ f ∈ fields.keys, f ∈ DriftFields.names
  knownConstants : ∀ f ∈ constants.keys, f ∈ DriftFields.names
  knownMaps : ∀ f ∈ valueMaps.keys, f ∈ DriftFields.names
  knownParts : ∀ rule ∈ eventId, ∀ part ∈ rule.parts, ∀ f ∈ fieldRef? part, f ∈ DriftFields.names
  checkWhere : ∀ p ∈ «where».rows, CheckPath p.1
  checkFields : ∀ p ∈ fields.rows, CheckPath p.2
  checkRecords : records ≠ "" → CheckPath records
  checkTable : ∀ table ∈ featureTable, CheckPath table.path
  checkParts : ∀ rule ∈ eventId, ∀ part ∈ rule.parts, fieldRef? part = none → CheckPath part
  splitFields : ∀ f ∈ split.keys, f ∈ fields.keys

/-- How Python writes a value. -/
structure Texts (α : Type) where
  /-- `repr(value)`, of a list or a dict also `str(value)` -/
  repr : Json → String
  /-- `str(value)` of a value that is not of JSON: `none` is a ValueError -/
  other : α → Option String
  /-- `repr(float(n))` -/
  float : Int → String
  /-- `text.lower()` -/
  lower : String → String

def eventMappingError (message : String) (context : Context) : AdaptationError :=
  ⟨.other "EVENT_MAPPING_FAILED", message, context⟩

section
variable {α : Type} (c : Texts α)

/-- `str(value)` where the digits of its integers are few enough. -/
def Texts.str : Json → String
  | .null => "None"
  | .bool b => if b then "true" else "false"
  | .int n => toString n
  | .float r => r
  | .str s => s
  | v => c.repr v

def text (v : Json) : Except AdaptationError String :=
  if prints v then .ok (c.str v) else .error (pythonError "ValueError")

def Val.text? : Val α → Option String
  | .json v => if prints v then some (c.str v) else none
  | .other x => c.other x

/-! ## Paths -/

def firstMatch (key value : String) : List Json → Except AdaptationError (Option Json)
  | [] => .ok none
  | .obj item :: items => do
    let found ← text c (JsonDict.read item key)
    if found = value then .ok (some (.obj item)) else firstMatch key value items
  | _ :: items => firstMatch key value items

def Segment.child (seg : Segment) (node : Json) : Option Json :=
  if seg.name = [] then some node
  else match node with
    | .obj fields => fields.lookup (String.ofList seg.name)
    | _ => none

/-- A step of a path: `none` is `_MISSING`. -/
def Segment.follow (seg : Segment) (node : Json) : Except AdaptationError (Option Json) :=
  match seg.child node, seg.selector with
  | some (.arr items), some (key, value) => firstMatch c (String.ofList key) (String.ofList value) items
  | some _, some _ => .ok none
  | found, _ => .ok found

def follow (path : List Char) : List (List Char) → Json → Except AdaptationError (Option Json)
  | [], node => .ok (some node)
  | s :: rest, node =>
    match segment? s with
    | none =>
      let path := String.ofList path
      .error (eventMappingError ("invalid path " ++ c.repr (.str path)) [("path", .str path)])
    | some seg => do
      match ← seg.follow c node with
      | none => .ok none
      | some node => follow path rest node

def resolve (document : Json) (path : List Char) : Except AdaptationError (Option Json) :=
  follow c path (path.splitOn '.') document

def get (payload record : Json) (path : String) : Except AdaptationError (Option Json) :=
  match path.toList with
  | '/' :: rest => resolve c payload rest
  | path => resolve c record path

/-! ## Records -/

/-- Every path of `where` has its value. What is missing is written like no value of a mapping. -/
def passes (payload record : Json) : List (String × String) → Except AdaptationError Bool
  | [] => .ok true
  | (path, value) :: rest => do
    match ← get c payload record path with
    | none => .ok false
    | some v => do
      let found ← text c v
      if found = value then passes payload record rest else .ok false

def select (mapping : DriftMapping α) (payload : Json) : List Json → Except AdaptationError (List Json)
  | [] => .ok []
  | .obj record :: records => do
    let selected ← passes c payload (.obj record) mapping.where.rows
    let rest ← select mapping payload records
    .ok (if selected then .obj record :: rest else rest)
  | _ :: records => select mapping payload records

/-! ## The fields of a record -/

def splitItems (separator value : String) : List String :=
  ((PyStr.split separator.toList value.toList).map strip |>.filter (· ≠ [])).map String.ofList

/-- A text is split where the mapping says so; an empty separator is a ValueError. -/
def splitValue (separator : Option String) (v : Json) : Except AdaptationError Json :=
  match separator, v with
  | some separator, .str s =>
    if separator = "" then .error (pythonError "ValueError") else .ok (.arr ((splitItems separator s).map .str))
  | _, v => .ok v

/-- `{k.lower(): v for k, v in table.items()}` -/
def lowered (table : Table String String) : Table String String :=
  Table.empty.update (table.rows.map fun p => (c.lower p.1, p.2))

def mapValue (field : String) (valueMap : Option (Table String String)) (v : Json) : Except AdaptationError Json :=
  match valueMap with
  | none => .ok v
  | some valueMap => do
    let table := lowered c valueMap
    let found ← text c v
    match table.get? (c.lower found) with
    | some mapped => .ok (.str mapped)
    | none => .error (eventMappingError (field ++ ": " ++ c.repr v ++ " has no entry in the mapping's value_maps." ++ field)
        [("field", .str field), ("value", .str found), ("known", .strs (table.keys.mergeSort (· ≤ ·)))])

def fieldValue (mapping : DriftMapping α) (payload record : Json)
    (p : String × String) : Except AdaptationError (Option Json) := do
  match ← get c payload record p.2 with
  | none | some .null => .ok none
  | some v => do
    let v ← splitValue (mapping.split.get? p.1) v
    let v ← mapValue c p.1 (mapping.valueMaps.get? p.1) v
    .ok (some v)

/-- `values[field] = value` for a value that is there. -/
def store (values : Table String (Val α)) (p : String × String) (v : Option Json) : Table String (Val α) :=
  match v with
  | none => values
  | some v => values.put p.1 (.json v)

/-! ## The feature table -/

def setDefault (values : Table String (Val α)) (key : String) (v : Json) : Table String (Val α) :=
  if (values.get? key).isSome then values else values.put key (.json v)

def drifted (rule : FeatureTable) (table : JsonDict) : List (String × JsonDict) :=
  let columns := table.filterMap fun p =>
    match p.2 with
    | .obj column => if (column.lookup rule.detected matches some (.bool true)) then some (p.1, column) else none
    | _ => none
  columns.mergeSort fun a b => a.1 ≤ b.1

def asFloat : Json → Except AdaptationError Json
  | .int n => if n.natAbs < PyInt.floatLimit then .ok (.float (c.float n)) else .error (pythonError "OverflowError")
  | v => .ok v

/-- The scores that are numbers, under the names of their columns. -/
def listedScores (key : String) (columns : List (String × JsonDict)) : List (String × Json) :=
  columns.filterMap fun p =>
    match p.2.lookup key with
    | some (.int n) => some (p.1, .int n)
    | some (.float r) => some (p.1, .float r)
    | _ => none

def addFeatureTable (rule : FeatureTable) (payload record : Json) (values : Table String (Val α)) :
    Except AdaptationError (Table String (Val α)) := do
  match ← get c payload record rule.path with
  | some (.obj table) =>
    let columns := drifted rule table
    let values := setDefault values "affected_features" (.arr (columns.map fun p => .str p.1))
    match rule.score with
    | none => .ok values
    | some key => do
      let scores ← (listedScores key columns).mapM fun p => (asFloat c p.2).map fun x => (p.1, x)
      .ok (setDefault values "drift_metrics" (.obj scores))
  | _ => .ok values

def withFeatureTable (mapping : DriftMapping α) (payload record : Json) (values : Table String (Val α)) :
    Except AdaptationError (Table String (Val α)) :=
  match mapping.featureTable with
  | none => .ok values
  | some rule => addFeatureTable c rule payload record values

/-! ## Events -/

def collect (mapping : DriftMapping α) (payload record : Json) (overrides : Table String (Val α)) :
    Except AdaptationError (Table String (Val α)) := do
  let values ← mapping.fields.rows.foldlM (fun values p => (fieldValue c mapping payload record p).map (store values p))
    mapping.constants
  let values ← withFeatureTable c mapping payload record values
  .ok (values.update (overrides.rows.filter fun p => !p.2.isNone))

def idPart (payload record : Json) (values : Table String (Val α)) (part : String) :
    Except AdaptationError (Option (Val α)) :=
  match fieldRef? part with
  | some name => .ok ((values.get? name).filter fun v => !v.isNone)
  | none => (get c payload record part).map fun v => (v.map .json).filter fun v => !v.isNone

def withEventId (mapping : DriftMapping α) (payload record : Json) (values : Table String (Val α)) :
    Except AdaptationError (Table String (Val α)) :=
  match mapping.eventId with
  | none => .ok values
  | some rule =>
    if (values.get? "event_id").isSome then .ok values
    else do
      let parts ← rule.parts.mapM (idPart c payload record values)
      match parts.mapM id with
      | none => .ok values
      | some parts => do
        let texts ← parts.mapM fun v => orRaise "ValueError" (v.text? c)
        .ok (values.put "event_id" (.json (.str (rule.separator.intercalate texts))))

/-- Each problem stands in the context as its field and what is wrong. -/
def contractError (index : Nat) (problems : List Problem) : AdaptationError :=
  let first := problems.headD ⟨"event", ""⟩
  eventMappingError ("record " ++ toString index ++ ": the mapped values do not fit the DriftEvent contract (" ++
    first.field ++ ": " ++ first.error ++ ")")
    [("record", .nat index), ("problems", .strs (problems.flatMap fun p => [p.field, p.error]))]

/-- `DriftEvent.model_validate`: the fields, then the order of the times. A TypeError is no ValidationError. -/
def modelValidate (coercions : Coercions α) (index : Nat) (values : Table String (Val α)) :
    Except AdaptationError (DriftEvent α) :=
  match coercions.fields values with
  | .error problems => .error (contractError index problems)
  | .ok fields =>
    match h : fields.timeRangeOrdered? with
    | none => .error (pythonError "TypeError")
    | some false =>
      .error (contractError index [⟨"event", "Value error, data_end_time must not be before data_start_time"⟩])
    | some true => .ok ⟨fields, h⟩

def event (coercions : Coercions α) (mapping : DriftMapping α) (payload : Json) (overrides : Table String (Val α))
    (p : Json × Nat) : Except AdaptationError (DriftEvent α) := do
  let values ← collect c mapping payload p.1 overrides
  let values ← withEventId c mapping payload p.1 values
  modelValidate coercions p.2 values

def recordsOf (mapping : DriftMapping α) (payload : Json) : Except AdaptationError (List Json) :=
  if mapping.records = "" then .ok [payload]
  else do
    match ← resolve c payload mapping.records.toList with
    | some (.arr records) => .ok records
    | _ => .error (eventMappingError ("the payload has no list at " ++ c.repr (.str mapping.records))
        [("path", .str mapping.records)])

def mapPayload (coercions : Coercions α) (mapping : DriftMapping α) (payload : Document) (maxEvents : Nat)
    (overrides : Table String (Val α)) : Except AdaptationError (List (DriftEvent α)) :=
  match payload.json with
  | .obj _ => do
    let records ← recordsOf c mapping payload.json
    let selected ← select c mapping payload.json records
    if maxEvents < selected.length then
      .error (eventMappingError ("the payload holds " ++ toString selected.length ++
        " events, more than DRIFT_MAPPER_MAX_EVENTS") [("events", .nat selected.length), ("limit", .nat maxEvents)])
    else selected.zipIdx.mapM (event c coercions mapping payload.json overrides)
  | _ => .error (eventMappingError "the payload is not a JSON object" [])

end

end EventMapping

end OranAdapt
