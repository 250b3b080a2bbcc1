import Mathlib.Data.List.Infix
import OranAdapt.Store

/-!
# Change events

`cdc.events`: the shape both sources of change data are parsed into, and the
two parsers. A text column that holds JSON is the value `json.loads` reads
from it, a datetime its microseconds in UTC. What the standard library and
pandas compute is a parameter, `CdcCodec`.
-/

namespace OranAdapt

/-- What `json.loads` returns. A float is its `repr`. -/
inductive Json where
  | null
  | bool (b : Bool)
  | int (n : Int)
  | float (repr : String)
  | str (s : String)
  | arr (items : List Json)
  | obj (fields : List (String × Json))

abbrev JsonDict := List (String × Json)

def JsonDict.read (d : JsonDict) (k : String) : Json := (d.lookup k).getD .null

def Json.truthy : Json → Bool
  | null => false
  | bool b => b
  | int n => n != 0
  | float r => r != "0.0" && r != "-0.0"
  | str s => s != ""
  | arr l => !l.isEmpty
  | obj d => !d.isEmpty

def Json.or (a b : Json) : Json := if a.truthy then a else b

structure CdcCodec (δ : Type) where
  /-- the hex digest of the JSON text of a list of strings -/
  sha256 : List String → δ
  loads : String → Option Json
  /-- `_utc` -/
  timestamp : Json → Option Int
  /-- `datetime.fromtimestamp(n / 1_000_000, UTC)` -/
  fromMicros : Int → Option Int
  /-- `datetime.fromtimestamp(n / 1000, UTC)` -/
  fromMillis : Json → Option Int
  /-- `repr` of a list or a dict -/
  repr : Json → String

variable {δ : Type}

def CdcCodec.str (c : CdcCodec δ) : Json → String
  | .null => "None"
  | .bool true => "True"
  | .bool false => "False"
  | .int n => toString n
  | .float r => r
  | .str s => s
  | v => c.repr v

def cdcProcessingError (message : String) (context : Context) : AdaptationError :=
  ⟨.other "CDC_PROCESSING_FAILED", message, context⟩

def cdcUnavailableError (message : String) (context : Context) : AdaptationError :=
  ⟨.other "CDC_UNAVAILABLE", message, context⟩

inductive CdcOperation where
  | insert | update | delete
deriving DecidableEq, Repr

def CdcOperation.value : CdcOperation → String
  | insert => "INSERT"
  | update => "UPDATE"
  | delete => "DELETE"

def CdcOperation.ofValue? (s : String) : Option CdcOperation :=
  if s = "INSERT" then some insert else if s = "UPDATE" then some update else if s = "DELETE" then some delete else none

structure RowImage where
  id : Json
  datasetId : Option String
  observedAt : Option Int
  payload : Json

structure CdcEvent (δ : Type) where
  eventId : δ
  source : String
  sourceTable : String
  operation : CdcOperation
  primaryKey : String
  oldValue : Option RowImage
  newValue : Option RowImage
  timestamp : Int
  transactionId : Option String
  sourceOffset : String
  schemaVersion : String

def CdcEvent.datasetId (e : CdcEvent δ) : Option String := (e.newValue.or e.oldValue).bind (·.datasetId)

def makeEventId (c : CdcCodec δ) (source table primaryKey op position : String) : δ :=
  c.sha256 [source, table, primaryKey, op, position]

structure CdcRowMapping where
  keyColumn : String := "id"
  datasetColumn : String := "dataset_id"
  datasetId : Option String := none
  timeColumn : String := "observed_at"
  payloadColumn : String := "payload"

def CdcRowMapping.payload (m : CdcRowMapping) (c : CdcCodec δ) (row : JsonDict) : Except AdaptationError Json :=
  if m.payloadColumn = "" then
    .ok (.obj (row.filter fun p => p.1 ∉ [m.keyColumn, m.datasetColumn, m.timeColumn]))
  else
    match row.read m.payloadColumn with
    | .str s => (orRaise "JSONDecodeError" (c.loads s)).map (·.or (.obj []))
    | v => .ok (v.or (.obj []))

def CdcRowMapping.observed (m : CdcRowMapping) (c : CdcCodec δ) (row : JsonDict) : Except AdaptationError (Option Int) :=
  match row.read m.timeColumn with
  | .null => .ok none
  | .int n => (orRaise "ValueError" (c.fromMicros n)).map some
  -- a bool is an int
  | .bool b => (orRaise "ValueError" (c.fromMicros b.toInt)).map some
  | v => (orRaise "ValueError" (c.timestamp v)).map some

/-- The dataset of a row; a value of another type is stored as its text. -/
def CdcRowMapping.dataset (m : CdcRowMapping) (c : CdcCodec δ) (row : JsonDict) : Option String :=
  match if m.datasetColumn = "" then .null else row.read m.datasetColumn with
  | .null => m.datasetId
  | v => some (c.str v)

def normalizeRow (c : CdcCodec δ) (m : CdcRowMapping) : Json → Except AdaptationError (Option RowImage)
  | .null => .ok none
  | .obj row => do
    let observedAt ← m.observed c row
    let payload ← m.payload c row
    pure (some ⟨JsonDict.read row m.keyColumn, m.dataset c row, observedAt, payload⟩)
  | _ => .error (pythonError "AttributeError")

/-! ## The changelog -/

structure ChangelogRow where
  seq : Nat
  tableName : String
  operation : String
  pk : String
  oldRow : Option Json
  newRow : Option Json
  txId : Option String
  changedAt : String

def fromChangelogRow (c : CdcCodec δ) (schemaRef : String) (m : CdcRowMapping) (r : ChangelogRow) :
    Except AdaptationError (CdcEvent δ) := do
  let op ← orRaise "ValueError" (CdcOperation.ofValue? r.operation)
  let oldValue ← normalizeRow c m (r.oldRow.getD .null)
  let newValue ← normalizeRow c m (r.newRow.getD .null)
  let timestamp ← orRaise "ValueError" (c.timestamp (.str r.changedAt))
  pure {
    eventId := makeEventId c "polling" r.tableName r.pk op.value (toString r.seq)
    source := "polling"
    sourceTable := r.tableName
    operation := op
    primaryKey := r.pk
    oldValue
    newValue
    timestamp
    transactionId := r.txId
    sourceOffset := toString r.seq
    schemaVersion := schemaRef }

theorem CdcOperation.ofValue?_eq {s : String} {op : CdcOperation} (h : ofValue? s = some op) : op.value = s := by
  unfold ofValue? at h
  split at h
  · rename_i hs; cases h; exact hs.symm
  · split at h
    · rename_i hs; cases h; exact hs.symm
    · split at h
      · rename_i hs; cases h; exact hs.symm
      · cases h

theorem fromChangelogRow_ok {c : CdcCodec δ} {schemaRef : String} {m : CdcRowMapping} {r : ChangelogRow} {e : CdcEvent δ}
    (h : fromChangelogRow c schemaRef m r = .ok e) :
    e.eventId = makeEventId c "polling" r.tableName r.pk r.operation (toString r.seq) ∧ e.operation.value = r.operation ∧
      e.primaryKey = r.pk ∧ normalizeRow c m (r.oldRow.getD .null) = .ok e.oldValue ∧
      normalizeRow c m (r.newRow.getD .null) = .ok e.newValue := by
  obtain ⟨op, hop, h⟩ := bind_ok h
  obtain ⟨old, hold, h⟩ := bind_ok h
  obtain ⟨new, hnew, h⟩ := bind_ok h
  obtain ⟨at_, -, h⟩ := bind_ok h
  have hval := CdcOperation.ofValue?_eq (orRaise_ok hop)
  cases h
  exact ⟨by rw [hval], hval, rfl, hold, hnew⟩

theorem repr_injective {m n : Nat} (h : toString m = toString n) : m = n := by
  have hd : Nat.toDigits 10 m = Nat.toDigits 10 n := by
    have := congrArg String.toList h
    simpa [Nat.toString_eq_ofList_toDigits] using this
  rw [← Nat.ofDigitChars_ten_toDigits (n := m), ← Nat.ofDigitChars_ten_toDigits (n := n), hd]

/-- The position in the source's log tells two events apart. -/
theorem eventId_seq {c : CdcCodec δ} {schemaRef : String} {m : CdcRowMapping} {r r' : ChangelogRow} {e e' : CdcEvent δ}
    (hsha : Function.Injective c.sha256) (h : fromChangelogRow c schemaRef m r = .ok e)
    (h' : fromChangelogRow c schemaRef m r' = .ok e') (hid : e.eventId = e'.eventId) : r.seq = r'.seq := by
  rw [(fromChangelogRow_ok h).1, (fromChangelogRow_ok h').1] at hid
  have := hsha hid
  simp only [List.cons.injEq] at this
  exact repr_injective this.2.2.2.2.1

/-! ## Debezium messages -/

def debeziumOp : Json → Except AdaptationError (Option CdcOperation)
  | .str "c" | .str "r" => .ok (some .insert)
  | .str "u" => .ok (some .update)
  | .str "d" => .ok (some .delete)
  -- a dict cannot be looked up under a key that has no hash
  | .arr _ | .obj _ => .error (pythonError "TypeError")
  | _ => .ok none

/-- A message of a partition. `value` is `none` for the null value, and holds
`none` when its text is not JSON. -/
structure Message where
  topic : String
  partition : Nat
  offset : Nat
  value : Option (Option Json)

def Message.coordinates (m : Message) : String := s!"{m.topic}:{m.partition}:{m.offset}"

def Message.context (m : Message) : Context :=
  [("topic", .str m.topic), ("partition", .nat m.partition), ("offset", .nat m.offset)]

def topicTail (topic : String) : String := String.ofList (topic.toList.reverse.takeWhile (· != '.')).reverse

/-- `value.get("payload", value)` of a dict. -/
def envelopeOf : Json → Option Json
  | .obj d => some ((d.lookup "payload").getD (.obj d))
  | _ => none

def openEnvelope (m : Message) (value : Json) : Except AdaptationError (Option JsonDict) :=
  match envelopeOf value with
  | some (.obj d) =>
    if (d.lookup "op").isSome then .ok (some d)
    else if (d.lookup "ts_ms").isSome ∧ (d.lookup "source").isNone then .ok none
    else .error (cdcProcessingError "CDC message is not a Debezium change envelope" m.context)
  | _ => .error (cdcProcessingError "CDC message is not a Debezium change envelope" m.context)

def Json.isStr (s : String) : Json → Bool
  | .str t => s == t
  | _ => false

def keyMissing (m : Message) (keyField : String) : AdaptationError :=
  cdcProcessingError s!"CDC row has no primary key field '{keyField}'" [("topic", .str m.topic), ("offset", .nat m.offset)]

def keyOf (m : Message) (keyField : String) : Json → Except AdaptationError Json
  | .obj row =>
    match row.lookup keyField with
    | some v => .ok v
    | none => .error (keyMissing m keyField)
  -- `in` also answers for a list and for a string, which take no string index
  | .arr l => .error (if l.any (Json.isStr keyField) then pythonError "TypeError" else keyMissing m keyField)
  | .str s => .error (if keyField.toList <:+: s.toList then pythonError "TypeError" else keyMissing m keyField)
  | _ => .error (pythonError "TypeError")

def sourceOf (envelope : JsonDict) : Except AdaptationError JsonDict :=
  match (envelope.read "source").or (.obj []) with
  | .obj d => .ok d
  | _ => .error (pythonError "AttributeError")

def tableOf (m : Message) (source : JsonDict) : Except AdaptationError String :=
  match (source.read "table").or (.str (topicTail m.topic)) with
  | .str s => .ok s
  | _ => .error (pythonError "ValidationError")

/-- The position of a change in its source's own log; the message's place in the topic when the source gives none. -/
def positionOf (c : CdcCodec δ) (m : Message) (source : JsonDict) : String :=
  match source.read "lsn" with
  | .null => m.coordinates
  | lsn => c.str lsn

/-- When the source row changed; `now` for a change without a time. -/
def changedAt (c : CdcCodec δ) (now : Int) (source envelope : JsonDict) : Except AdaptationError Int :=
  let tsMs := (source.read "ts_ms").or (envelope.read "ts_ms")
  if tsMs.truthy then orRaise "ValueError" (c.fromMillis tsMs) else .ok now

def fromDebezium (c : CdcCodec δ) (schemaRef : String) (mapping : CdcRowMapping) (now : Int) (m : Message) :
    Except AdaptationError (Option (CdcEvent δ)) :=
  match m.value with
  | none => .ok none
  | some none => .error (cdcProcessingError "CDC message is not JSON" m.context)
  | some (some value) => do
    let some envelope ← openEnvelope m value | return none
    let some op ← debeziumOp (envelope.read "op") | return none
    let source ← sourceOf envelope
    let key ← keyOf m mapping.keyColumn (((envelope.read "after").or (envelope.read "before")).or (.obj []))
    let table ← tableOf m source
    let oldValue ← normalizeRow c mapping (envelope.read "before")
    let newValue ← normalizeRow c mapping (envelope.read "after")
    let timestamp ← changedAt c now source envelope
    return some {
      eventId := makeEventId c "debezium" table (c.str key) op.value (positionOf c m source)
      source := "debezium"
      sourceTable := table
      operation := op
      primaryKey := c.str key
      oldValue
      newValue
      timestamp
      transactionId := match source.read "txId" with
        | .null => none
        | tx => some (c.str tx)
      sourceOffset := m.coordinates
      schemaVersion := schemaRef ++ ";debezium/" ++ c.str ((source.lookup "version").getD (.str "?")) }

def Message.logPosition (c : CdcCodec δ) (m : Message) : String :=
  match m.value with
  | some (some value) =>
    match openEnvelope m value with
    | .ok (some envelope) =>
      match sourceOf envelope with
      | .ok source => positionOf c m source
      | .error _ => m.coordinates
    | _ => m.coordinates
  | _ => m.coordinates

/-- What a message that holds a change was read as; the clock plays no part in it. -/
theorem fromDebezium_parts {c : CdcCodec δ} {schemaRef : String} {mapping : CdcRowMapping} {now : Int} {m : Message}
    {e : CdcEvent δ} (h : fromDebezium c schemaRef mapping now m = .ok (some e)) :
    ∃ value envelope op source key, m.value = some (some value) ∧ openEnvelope m value = .ok (some envelope) ∧
      debeziumOp (envelope.read "op") = .ok (some op) ∧ sourceOf envelope = .ok source ∧
      keyOf m mapping.keyColumn (((envelope.read "after").or (envelope.read "before")).or (.obj [])) = .ok key ∧
      tableOf m source = .ok e.sourceTable ∧ e.primaryKey = c.str key ∧ e.operation = op ∧
      e.eventId = makeEventId c "debezium" e.sourceTable e.primaryKey op.value (positionOf c m source) := by
  unfold fromDebezium at h
  split at h
  · cases h
  · cases h
  · rename_i value hv
    obtain ⟨envelope, henv, h⟩ := bind_ok h
    split at h
    · rename_i envelope
      obtain ⟨op, hop, h⟩ := bind_ok h
      split at h
      · rename_i op
        obtain ⟨source, hsource, h⟩ := bind_ok h
        obtain ⟨key, hkey, h⟩ := bind_ok h
        obtain ⟨table, htable, h⟩ := bind_ok h
        obtain ⟨old, -, h⟩ := bind_ok h
        obtain ⟨new, -, h⟩ := bind_ok h
        obtain ⟨time, -, h⟩ := bind_ok h
        cases h
        exact ⟨value, envelope, op, source, key, hv, henv, hop, hsource, hkey, htable, rfl, rfl, rfl⟩
      · cases h
    · cases h

theorem fromDebezium_eventId {c : CdcCodec δ} {schemaRef : String} {mapping : CdcRowMapping} {now : Int} {m : Message}
    {e : CdcEvent δ} (h : fromDebezium c schemaRef mapping now m = .ok (some e)) :
    e.eventId = makeEventId c "debezium" e.sourceTable e.primaryKey e.operation.value (m.logPosition c) := by
  obtain ⟨value, envelope, op, source, key, hv, henv, -, hsource, -, -, -, rfl, hid⟩ := fromDebezium_parts h
  rw [hid]
  unfold Message.logPosition
  simp only [hv, henv, hsource]

theorem fromDebezium_same {c : CdcCodec δ} {schemaRef : String} {mapping : CdcRowMapping} {now now' : Int} {m : Message}
    {e e' : CdcEvent δ} (h : fromDebezium c schemaRef mapping now m = .ok (some e))
    (h' : fromDebezium c schemaRef mapping now' m = .ok (some e')) : e.eventId = e'.eventId := by
  obtain ⟨value, envelope, op, source, key, hv, henv, hop, hsource, hkey, htable, hpk, -, hid⟩ := fromDebezium_parts h
  obtain ⟨value', envelope', op', source', key', hv', henv', hop', hsource', hkey', htable', hpk', -, hid'⟩ :=
    fromDebezium_parts h'
  cases hv.symm.trans hv'
  cases henv.symm.trans henv'
  cases hop.symm.trans hop'
  cases hsource.symm.trans hsource'
  cases hkey.symm.trans hkey'
  have ht : e.sourceTable = e'.sourceTable := by
    injection htable.symm.trans htable'
  rw [hid, hid', ht, hpk, hpk']

/-- A message that holds a change holds one at any time it is read. -/
theorem fromDebezium_ne_none {c : CdcCodec δ} {schemaRef : String} {mapping : CdcRowMapping} {now now' : Int} {m : Message}
    {e : CdcEvent δ} (h : fromDebezium c schemaRef mapping now m = .ok (some e)) :
    fromDebezium c schemaRef mapping now' m ≠ .ok none := by
  obtain ⟨value, envelope, op, source, key, hv, henv, hop, hsource, hkey, htable, -⟩ := fromDebezium_parts h
  unfold fromDebezium
  rw [hv]
  dsimp only
  rw [henv]
  intro hnone
  obtain ⟨o, ho, hnone⟩ := bind_ok hnone
  cases ho
  dsimp only at hnone
  rw [hop] at hnone
  obtain ⟨o, ho, hnone⟩ := bind_ok hnone
  cases ho
  obtain ⟨source', -, hnone⟩ := bind_ok hnone
  obtain ⟨key', -, hnone⟩ := bind_ok hnone
  obtain ⟨table', -, hnone⟩ := bind_ok hnone
  obtain ⟨old, -, hnone⟩ := bind_ok hnone
  obtain ⟨new, -, hnone⟩ := bind_ok hnone
  obtain ⟨time, -, hnone⟩ := bind_ok hnone
  cases hnone

theorem CdcOperation.value_injective {op op' : CdcOperation} (h : op.value = op'.value) : op = op' := by
  cases op <;> cases op' <;> first | rfl | exact absurd h (by decide)

end OranAdapt
