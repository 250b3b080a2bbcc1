import Mathlib.Data.Char
import Mathlib.Data.List.Lex
import OranAdapt.PyDict
import OranAdapt.Store
import OranAdapt.UrlSplit

/-!
# Rows read by a database query

`SqlDataset` of `adapters.datasets_sql` up to the statement that it executes:
the reference taken apart, the checks of its run, and the `SELECT` of it.
-/

namespace OranAdapt

def notAllowed (uri why : String) (context : Context) : AdaptationError :=
  ⟨.other "DATA_SOURCE_NOT_ALLOWED", "data source not allowed: " ++ why, ("uri", .str uri) :: context⟩

def datasetNotFound (message : String) (context : Context) : AdaptationError :=
  ⟨.other "DATASET_NOT_FOUND", message, context⟩

def dataSourceUnavailable (message : String) (context : Context) : AdaptationError :=
  ⟨.other "DATA_SOURCE_UNAVAILABLE", message, context⟩

def raiseIf (p : Prop) [Decidable p] (e : AdaptationError) : Except AdaptationError Unit := if p then .error e else .ok ()

theorem raiseIf_ok {p : Prop} [Decidable p] {e : AdaptationError} {u : Unit} : raiseIf p e = .ok u ↔ ¬ p := by
  by_cases h : p <;> simp [raiseIf, h]

theorem bind_raiseIf {α : Type} {p : Prop} [Decidable p] {e : AdaptationError}
    {f : Unit → Except AdaptationError α} (h : ¬ p) :
    (raiseIf p e >>= f) = f () := by
  rw [raiseIf, if_neg h]
  rfl

theorem bind_orRaise {α β : Type} {name : String} {x : α}
    {f : α → Except AdaptationError β} : (orRaise name (some x) >>= f) = f x := rfl

structure Query where
  source : String
  relation : String
  /-- empty: every column of the relation -/
  columns : List String
  filters : List (String × List String)
  timeColumn : String
  start : Option String
  stop : Option String
deriving DecidableEq, Repr

structure RunGuard where
  requireClosed : Bool
  maxDropped : Option Int

structure SqlDataset where
  scheme : String
  sources : Table String String
  relations : List String
  timeColumn : String
  maxBytes : Nat
  requireBound : Option (List String) := none
  refusedColumns : List String := []
  runGuard : Option RunGuard := none

/-- Functions on texts that the standard library brings. -/
structure TextRules where
  /-- `unicodedata.normalize("NFKC", text)` -/
  nfkc : List Char → List Char
  fnmatchcase : String → String → Bool
  repr : String → String

/-! ## A reference taken apart -/

namespace SqlDataset

def identStart (c : Char) : Bool := c.isAlpha || c == '_'

/-- `^[A-Za-z_][A-Za-z0-9_]*$` matches; the end may be in front of a newline. -/
def isIdent (name : String) : Bool :=
  let text := if name.toList.getLast? = some '\n' then name.toList.dropLast else name.toList
  text.head?.any identStart && text.all fun c => identStart c || c.isDigit

def sorted (names : List String) : List String := names.mergeSort fun a b => decide (a.toList ≤ b.toList)

/-- The parameters of a query as they are read one by one. -/
structure Params where
  columns : List String := []
  filters : Table String (List String) := Table.empty
  reserved : Table String String := Table.empty

def listedColumns (value : List Char) : List String :=
  ((value.splitOn ',').map PyStr.strip).filterMap fun c => if c = [] then none else some (String.ofList c)

def Params.read (params : Params) (pair : List Char × List Char) : Params :=
  let name := String.ofList pair.1
  if name = "columns" then { params with columns := listedColumns pair.2 }
  else if name ∈ ["from", "to", "time_column"] then
    { params with reserved := params.reserved.put name (String.ofList pair.2) }
  else
    { params with filters := params.filters.put name ((params.filters.get? name).getD [] ++ [String.ofList pair.2]) }

def orElse (a : Option String) (b : String) : String := if a.getD "" = "" then b else a.getD ""

def relationOf (path : List Char) : List Char :=
  let relation := path.dropWhile (· = '/')
  -- only these four letters lower to ".csv"
  if ".csv".toList.isSuffixOf (relation.map Char.toLower) then relation.take (relation.length - 4) else relation

section
variable (rules : TextRules) (a : SqlDataset) (uri : String)

def refused (names : List String) : AdaptationError :=
  notAllowed uri ("cumulative counters or dead fields are refused as columns (drift tests flag " ++
    "a counter that grows all run); read a rate view instead") [("columns", .strs names)]

def refusedOf (columns : List String) : List String := sorted (a.refusedColumns.filter (· ∈ columns))

def queryOf (source relation : String) (params : Params) : Query where
  source := source
  relation := relation
  columns := params.columns
  filters := params.filters.rows.mergeSort fun f g => decide (f.1.toList ≤ g.1.toList)
  timeColumn := orElse (params.reserved.get? "time_column") a.timeColumn
  start := params.reserved.get? "from"
  stop := params.reserved.get? "to"

def unbounded (q : Query) : Bool :=
  match a.requireBound with
  | some names => q.stop == none && !q.filters.any fun f => f.1 ∈ names
  | none => false

def parseTarget (parts : UrlSplit.Reference) : Except AdaptationError (String × String) := do
  raiseIf (String.ofList parts.scheme ≠ a.scheme) (notAllowed uri ("not a " ++ a.scheme ++ " URI") [])
  let credentials := notAllowed uri "credentials and ports are configured, not put in the URI" []
  raiseIf (parts.username.getD [] ≠ [] ∨ parts.password.getD [] ≠ []) credentials
  let port ← orRaise "ValueError" parts.port?
  raiseIf (port.getD 0 ≠ 0) credentials
  raiseIf (parts.fragment ≠ []) (notAllowed uri "database references take no fragment" [])
  let source := String.ofList parts.netloc
  raiseIf (source ∉ a.sources.keys)
    (notAllowed uri "unknown database source" [("source", .str source), ("known", .strs (sorted a.sources.keys))])
  let relation := String.ofList (relationOf parts.path)
  raiseIf (¬ isIdent relation) (notAllowed uri "the path must name one relation (letters, digits, _)" [])
  let key := if source = "" then relation else source ++ "." ++ relation
  raiseIf (¬ a.relations.any (rules.fnmatchcase key))
    (notAllowed uri "relation is outside the adapter's relation allow-list" [("relation", .str key)])
  .ok (source, relation)

def parseQuery (source relation : String) (pairs : List (List Char × List Char)) : Except AdaptationError Query := do
  let params := pairs.foldl Params.read {}
  let q := a.queryOf source relation params
  match (params.columns ++ params.filters.keys ++ [q.timeColumn]).find? fun ident => !isIdent ident with
  | some ident => .error (notAllowed uri (rules.repr ident ++ " is not a column name") [])
  | none =>
    raiseIf (a.refusedOf params.columns ≠ []) (refused uri (a.refusedOf params.columns))
    raiseIf (a.unbounded q)
      (notAllowed uri ("the query is unbounded: filter on " ++ orElse (some (" or ".intercalate (a.requireBound.getD [])))
        "a column" ++ " or give 'to', so the rows behind a data version stop changing") [])
    .ok q

def parse : Except AdaptationError Query := do
  let parts ← orRaise "ValueError" (UrlSplit.reference? rules.nfkc uri.toList)
  let (source, relation) ← parseTarget rules a uri parts
  match QueryString.parse? parts.query with
  | some pairs => parseQuery rules a uri source relation pairs
  | none => .error (notAllowed uri "the query string is malformed" [])

def check : Except AdaptationError Unit := (parse rules a uri).map fun _ => ()

end

/-! ## The database -/

inductive PyType where
  | bool | int | float | decimal | datetime | date
  | other (name : String)
deriving DecidableEq, Repr

def PyType.name : PyType → String
  | bool => "bool"
  | int => "int"
  | float => "float"
  | decimal => "Decimal"
  | datetime => "datetime"
  | date => "date"
  | other name => name

/-- The type of a column: `none` where it has no `python_type`. -/
abbrev SqlType := Option PyType

/-- A bound parameter. The values of the library's own types are left open. -/
inductive Param (ν : Type) where
  | bool (b : Bool)
  | int (n : Int)
  | text (s : String)
  | converted (v : ν)
deriving DecidableEq, Repr

/-- Values read from text: `none` where `float` and the two `fromisoformat` raise a ValueError,
and where `Decimal` raises an InvalidOperation. -/
structure Conversions (ν : Type) where
  float? : String → Option ν
  decimal? : String → Option ν
  datetime? : String → Option ν
  date? : String → Option ν
  lower : String → String

inductive Condition (ν : Type) where
  | eq (column : String) (value : Param ν)
  | isIn (column : String) (values : List (Param ν))
  | ge (column : String) (value : Param ν)
  | le (column : String) (value : Param ν)
deriving DecidableEq, Repr

structure Select (ν : Type) where
  relation : String
  columns : List String
  conditions : List (Condition ν)
  orderBy : List String
deriving DecidableEq, Repr

inductive DriverError where
  | dbapi (orig : String)
  | raised (name : String)
deriving DecidableEq, Repr

/-- A connection that is open: what it answers to each statement. -/
structure Connection (ν ρ : Type) where
  /-- `inspect(conn).get_columns(relation)`, none where there is no such relation -/
  getColumns : String → Except DriverError (List (String × SqlType))
  /-- `run_id` and `ended_at` of these runs -/
  endedAt : List Int → Except DriverError (List (Int × Option String))
  /-- `run_id` and `dropped` of these runs -/
  dropped : List Int → Except DriverError (List (Int × Option Int))
  execute : Select ν → Except DriverError (List ρ)

def driver {α : Type} (uri : String) (answer : Except DriverError α) : Except AdaptationError α :=
  match answer with
  | .ok a => .ok a
  | .error (.dbapi orig) => .error (dataSourceUnavailable ("database query failed: " ++ orig) [("uri", .str uri)])
  | .error (.raised name) => .error (pythonError name)

theorem bind_driver {α β : Type} {uri : String} {x : α}
    {f : α → Except AdaptationError β} : (driver uri (.ok x) >>= f) = f x := rfl

theorem driver_ok {α : Type} {uri : String} {answer : Except DriverError α} {x : α} (h : driver uri answer = .ok x) :
    answer = .ok x := by
  cases answer with
  | ok y => simpa [driver] using h
  | error e => cases e <;> cases h

/-! ## Values of filters -/

section
variable {ν : Type} (rules : TextRules) (conv : Conversions ν)

/-- Two digits, and two more behind an optional colon. -/
def isOffset (text : List Char) : Bool :=
  match text with
  | [a, b, ':', c, d] | [a, b, c, d] => [a, b, c, d].all fun x => (PyInt.digit? x).isSome
  | _ => false

/-- `re.sub(r" (\d{2}:?\d{2})$", r"+\1", text)` -/
def plusOffset (text : List Char) : List Char :=
  let newline := if text.getLast? = some '\n' then ['\n'] else []
  let body := text.take (text.length - newline.length)
  match PyStr.rpartition ' ' body with
  | some (before, offset) => if isOffset offset then before ++ '+' :: (offset ++ newline) else text
  | none => text

def isoText (value : String) : String :=
  String.ofList (plusOffset (value.toList.flatMap fun c => if c = 'Z' then "+00:00".toList else [c]))

def coerce (value : String) (type : SqlType) : Except AdaptationError (Param ν) :=
  let orRefuse (t : PyType) (read : Option (Param ν)) : Except AdaptationError (Param ν) :=
    match read with
    | some v => .ok v
    | none => .error ⟨.other "DATA_SOURCE_NOT_ALLOWED", "filter value " ++ rules.repr value ++ " is not a valid " ++ t.name,
        [("value", .str value)]⟩
  match type with
  | some .bool => .ok (.bool (conv.lower (String.ofList (PyStr.strip value.toList)) ∈ ["1", "true", "t", "yes"]))
  | some .int => orRefuse .int ((PyInt.int? value).map .int)
  | some .float => orRefuse .float ((conv.float? value).map .converted)
  | some .decimal => (orRaise "InvalidOperation" (conv.decimal? value)).map .converted
  | some .datetime => orRefuse .datetime ((conv.datetime? (isoText value)).map .converted)
  | some .date => orRefuse .date ((conv.date? value).map .converted)
  | some (.other _) | none => .ok (.text value)

def filterCondition (types : Table String SqlType) (f : String × List String) : Except AdaptationError (Condition ν) := do
  let coerced ← f.2.mapM fun v => coerce rules conv v ((types.get? f.1).getD none)
  match coerced with
  | [value] => .ok (.eq f.1 value)
  | values => .ok (.isIn f.1 values)

def timeCondition (types : Table String SqlType) (q : Query) (bound : Option String)
    (toCondition : Param ν → Condition ν) :
    Except AdaptationError (List (Condition ν)) :=
  if q.timeColumn ∈ types.keys ∧ bound.getD "" ≠ "" then
    (coerce rules conv (bound.getD "") ((types.get? q.timeColumn).getD none)).map fun v => [toCondition v]
  else .ok []

def select (types : Table String SqlType) (q : Query) (selected : List String) : Except AdaptationError (Select ν) := do
  let filters ← q.filters.mapM (filterCondition rules conv types)
  let start ← timeCondition rules conv types q q.start (.ge q.timeColumn)
  let stop ← timeCondition rules conv types q q.stop (.le q.timeColumn)
  let order := (if q.timeColumn ∈ selected then [q.timeColumn] else []) ++ selected.filter (· ≠ q.timeColumn)
  .ok ⟨q.relation, selected, filters ++ start ++ stop, order⟩

/-! ## Runs that are checked -/

variable {ρ : Type} (uri : String) (conn : Connection ν ρ)

def runName (id : Int) : String := "run " ++ toString id

def checkClosed (ended : Table Int (Option String)) (id : Int) : Except AdaptationError Unit :=
  match ended.get? id with
  | none => .error (datasetNotFound (runName id ++ " does not exist") [("uri", .str uri)])
  | some none =>
    .error (notAllowed uri (runName id ++ " is still open (run.ended_at is NULL); register it once the run has ended")
      [("run_id", .num id)])
  | some (some _) => .ok ()

def checkDropped (limit : Int) (dropped : Table Int (Option Int)) (id : Int) : Except AdaptationError Unit :=
  match dropped.get? id with
  | none =>
    .error (notAllowed uri (runName id ++ " has no v_run_summary row, so its collector data loss cannot be checked")
      [("run_id", .num id)])
  | some none => .ok ()
  | some (some lost) =>
    raiseIf (limit < lost)
      (notAllowed uri ("the collector dropped " ++ toString lost ++ " rows in " ++ runName id ++
        " (v_run_summary.dropped); its data is incomplete") [("run_id", .num id), ("dropped", .num lost),
        ("limit", .num limit)])

/-- A ValueError while runs are checked is a `run_id` that is no integer to `_chunks`. -/
def notInteger : AdaptationError := notAllowed uri "run_id must be an integer" []

def asked {α : Type} (answer : Except DriverError α) : Except AdaptationError α :=
  match answer with
  | .error (.raised "ValueError") => .error (notInteger uri)
  | _ => driver uri answer

def guardClosed (guard : RunGuard) (ids : List Int) : Except AdaptationError Unit :=
  if guard.requireClosed then do
    let ended ← asked uri (conn.endedAt ids)
    ids.forM (checkClosed uri (Table.empty.update ended))
  else .ok ()

def guardDropped (guard : RunGuard) (ids : List Int) : Except AdaptationError Unit :=
  match guard.maxDropped with
  | some limit => do
    let dropped ← asked uri (conn.dropped ids)
    ids.forM (checkDropped uri limit (Table.empty.update dropped))
  | none => .ok ()

def guardRuns (guard : RunGuard) (runs : List String) : Except AdaptationError Unit :=
  match runs.mapM PyInt.int? with
  | none => .error (notInteger uri)
  | some ids => do
    guardClosed uri conn guard ids
    guardDropped uri conn guard ids

end

/-! ## The statement of a reference -/

section
variable {ν ρ : Type} (rules : TextRules) (conv : Conversions ν) (a : SqlDataset) (conn : Connection ν ρ) (uri : String)

def columnTypes (relation : String) : Except AdaptationError (Table String SqlType) := do
  let reflected ← driver uri (conn.getColumns relation)
  raiseIf (reflected = [])
    (datasetNotFound "the referenced relation does not exist" [("uri", .str uri), ("relation", .str relation)])
  .ok (Table.empty.update reflected)

def selectedColumns (q : Query) (types : Table String SqlType) : List String :=
  if q.columns = [] then types.keys else q.columns

def guardListed (q : Query) (types : Table String SqlType) : Except AdaptationError Unit :=
  match a.runGuard with
  | some guard =>
    let runs := (q.filters.lookup "run_id").getD []
    if runs ≠ [] ∧ "run_id" ∈ types.keys then guardRuns uri conn guard runs else .ok ()
  | none => .ok ()

/-- `_chunks` up to the statement that it executes. -/
def statement (q : Query) : Except AdaptationError (Select ν) := do
  let types ← columnTypes conn uri q.relation
  guardListed a conn uri q types
  let selected := selectedColumns q types
  match (selected ++ q.filters.map Prod.fst).find? fun name => name ∉ types.keys with
  | some name =>
    .error (notAllowed uri ("the relation has no column " ++ rules.repr name) [("relation", .str q.relation)])
  | none =>
    raiseIf (a.refusedOf selected ≠ []) (refused uri (a.refusedOf selected))
    raiseIf ((q.start.getD "" ≠ "" ∨ q.stop.getD "" ≠ "") ∧ q.timeColumn ∉ types.keys)
      (notAllowed uri ("from/to need the time column " ++ rules.repr q.timeColumn ++
        ", which the relation lacks (set time_column=)") [])
    select rules conv types q selected

def executed : Except AdaptationError (Query × Select ν) := do
  let q ← parse rules a uri
  let stmt ← statement rules conv a conn uri q
  .ok (q, stmt)

end

end SqlDataset

end OranAdapt
