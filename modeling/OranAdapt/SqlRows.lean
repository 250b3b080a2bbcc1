import OranAdapt.CsvText
import OranAdapt.Encodings
import OranAdapt.JsonText
import OranAdapt.SqlDatasets
import OranAdapt.Store

/-!
# The rows of a query as CSV

What a dataset adapter says of an object, and the object's bytes as they are
read chunk by chunk and spooled. `SqlDataset._chunks` from the statement on:
each value of the result as the text of a cell, the rows as CSV in chunks, and
what `stat` and `open` make of them.
-/

namespace OranAdapt

namespace Datasets

abbrev Bytes := List UInt8

structure SourceStat where
  uri : String
  pinnedUri : String
  fingerprint : Option String
  sizeBytes : Option Int
deriving DecidableEq, Repr

/-- The chunks that are read, and what is raised behind the last one. -/
structure Stream where
  chunks : List Bytes
  fails : Option AdaptationError

namespace Stream

def raise (e : AdaptationError) : Stream := ⟨[], some e⟩

def ofExcept : Except AdaptationError Stream → Stream
  | .ok s => s
  | .error e => raise e

def cons (chunk : Bytes) (s : Stream) : Stream := ⟨chunk :: s.chunks, s.fails⟩

def bytes (s : Stream) : Except AdaptationError Bytes :=
  match s.fails with
  | some e => .error e
  | none => .ok s.chunks.flatten

end Stream

/-- Chunks added to what was read so far, up to a number of bytes. What is raised when so many bytes are written is given. -/
def consume (disk : Nat → Option String) (maxBytes : Nat) (tooLarge : AdaptationError)
    (fails : Option AdaptationError) (content : Bytes) :
    List Bytes → Except AdaptationError Bytes
  | [] =>
    match fails with
    | some e => .error e
    | none => .ok content
  | chunk :: rest =>
    let written := content.length + chunk.length
    if maxBytes < written then .error tooLarge
    else match disk written with
      | some name => .error (pythonError name)
      | none => consume disk maxBytes tooLarge fails (content ++ chunk) rest

def tooLarge (what uri : String) (maxBytes : Nat) : AdaptationError :=
  ⟨.other "DATA_TOO_LARGE", "the " ++ what ++ " is larger than DATASET_MAX_SOURCE_BYTES",
    [("key", .str "DATASET_MAX_SOURCE_BYTES"), ("limit", .nat maxBytes), ("uri", .str uri)]⟩

/-- `spool`: what the temporary file holds. Making the file is writing no bytes to it. -/
def spool (disk : Nat → Option String) (maxBytes : Nat) (uri : String) (s : Stream) : Except AdaptationError Bytes :=
  match disk 0 with
  | some name => .error (pythonError name)
  | none => consume disk maxBytes (tooLarge "referenced object" uri maxBytes) s.fails [] s.chunks

theorem consume_ok {disk : Nat → Option String} {maxBytes : Nat} {e : AdaptationError} {s : Stream} {content bytes : Bytes}
    (h : consume disk maxBytes e s.fails content s.chunks = .ok bytes) : ∃ rest, s.bytes = .ok rest ∧
      bytes = content ++ rest := by
  obtain ⟨chunks, fails⟩ := s
  simp only at h
  induction chunks generalizing content with
  | nil =>
    cases fails with
    | some e' => cases h
    | none =>
      cases h
      exact ⟨[], rfl, by simp⟩
  | cons chunk chunks ih =>
    rw [consume] at h
    split at h
    · cases h
    · split at h
      · cases h
      · obtain ⟨rest, hrest, rfl⟩ := ih h
        cases fails with
        | some e' => cases hrest
        | none =>
          cases hrest
          exact ⟨chunk ++ chunks.flatten, rfl, by simp⟩

end Datasets

namespace SqlDataset

open Datasets (Stream Bytes)

/-! ## Cells -/

inductive PyDecimal where
  | finite (negative : Bool) (coefficient : Nat) (exponent : Int)
  | special (text : String)
deriving DecidableEq, Repr

/-- A value of a result. Of a date or a time its `isoformat()` is kept, of a value of another type its `str`. -/
inductive DbValue where
  | null
  | bool (b : Bool)
  | int (n : Int)
  | float (repr : String)
  | str (s : String)
  | decimal (d : PyDecimal)
  | moment (iso : String)
  | bytes (b : List UInt8)
  | list (items : List DbValue)
  | dict (fields : List (String × DbValue))
  | other (text : String)

def pointed (places : Nat) (digits : List Char) : List Char :=
  let padded := List.replicate (places + 1 - digits.length) '0' ++ digits
  if places = 0 then padded else padded.take (padded.length - places) ++ '.' :: padded.drop (padded.length - places)

/-- `format(value, "f")` -/
def PyDecimal.fixed : PyDecimal → List Char
  | special text => text.toList
  | finite negative coefficient exponent =>
    let digits := Nat.toDigits 10 coefficient
    let plain := if exponent < 0 then pointed exponent.natAbs digits
      else if coefficient = 0 then digits else digits ++ List.replicate exponent.natAbs '0'
    if negative then '-' :: plain else plain

def strInt (n : Int) : Except AdaptationError (List Char) :=
  if PyInt.width n ≤ PyInt.maxStrDigits then .ok (toString n).toList else .error (pythonError "ValueError")

/-- How `json.dumps` writes a float. -/
def jsonFloat (repr : String) : List Char :=
  if repr = "nan" then "NaN".toList
  else if repr = "inf" then "Infinity".toList
  else if repr = "-inf" then "-Infinity".toList
  else repr.toList

mutual

def dumps : DbValue → Except AdaptationError (List Char)
  | .null => .ok "null".toList
  | .bool b => .ok (if b then "true".toList else "false".toList)
  | .int n => strInt n
  | .float r => .ok (jsonFloat r)
  | .str s => .ok (Json.strText s)
  | .list items => do
    let texts ← (dumpsItems items).mapM id
    .ok ('[' :: ([','].intercalate texts ++ [']']))
  | .dict fields => do
    let sorted := (dumpsFields fields).mergeSort fun a b => decide (a.1.toList ≤ b.1.toList)
    let texts ← sorted.mapM fun p => p.2.map fun text => Json.strText p.1 ++ ':' :: text
    .ok ('\x7b' :: ([','].intercalate texts ++ ['\x7d']))
  | _ => .error (pythonError "TypeError")

def dumpsItems : List DbValue → List (Except AdaptationError (List Char))
  | [] => []
  | v :: vs => dumps v :: dumpsItems vs

def dumpsFields : List (String × DbValue) → List (String × Except AdaptationError (List Char))
  | [] => []
  | (k, v) :: fs => (k, dumps v) :: dumpsFields fs

end

def cell : DbValue → Except AdaptationError (List Char)
  | .null => .ok []
  | .moment iso => .ok iso.toList
  | .decimal d => .ok d.fixed
  | .dict fields => dumps (.dict fields)
  | .list items => dumps (.list items)
  | .bytes b => .ok (b.flatMap fun x => [Nat.digitChar (x.toNat / 16), Nat.digitChar (x.toNat % 16)])
  | .bool b => .ok (if b then "True".toList else "False".toList)
  | .int n => strInt n
  | .float r => .ok r.toList
  | .str s => .ok s.toList
  | .other text => .ok text.toList

example : (PyDecimal.finite true 105 (-2)).fixed = "-1.05".toList := by decide

/-! ## Chunks -/

def rowsPerChunk : Nat := 1000

def encode (text : List Char) : Bytes := Utf8.encode (String.ofList text)

abbrev ResultRow := Except DriverError (List DbValue)

section
variable {ν : Type} (rules : TextRules) (conv : Conversions ν) (a : SqlDataset)
  (connect : String → Except DriverError (Connection ν ResultRow)) (uri : String)

/-- The rows from the `i`-th on, behind what the buffer holds. -/
def rowChunks (buffer : List Char) (i : Nat) : List ResultRow → Stream
  | [] => ⟨[encode buffer], none⟩
  | row :: rows =>
    match driver uri row >>= fun values => values.mapM cell with
    | .error e => .raise e
    | .ok cells =>
      let buffer := buffer ++ CsvText.line cells
      if i % rowsPerChunk = 0 then .cons (encode buffer) (rowChunks [] (i + 1) rows) else rowChunks buffer (i + 1) rows

def chunks : Stream :=
  .ofExcept do
    let q ← parse rules a uri
    let conn ← driver uri (connect q.source)
    let stmt ← statement rules conv a conn uri q
    let rows ← driver uri (conn.execute stmt)
    .ok (rowChunks uri (CsvText.line (stmt.columns.map String.toList)) 1 rows)

def stat (sha256 : Bytes → String) : Except AdaptationError Datasets.SourceStat := do
  let s := chunks rules conv a connect uri
  let bytes ← Datasets.consume (fun _ => none) a.maxBytes (Datasets.tooLarge "query result" uri a.maxBytes)
    s.fails [] s.chunks
  .ok ⟨uri, uri, some ("sha256:" ++ sha256 bytes), some bytes.length⟩

def «open» (disk : Nat → Option String) : Except AdaptationError Bytes :=
  Datasets.spool disk a.maxBytes uri (chunks rules conv a connect uri)

end

end SqlDataset

end OranAdapt
