import OranAdapt.Generator
import OranAdapt.DataReading

/-!
# Reading in streams

`DataAccess.iter_rows` as the generator it is, and its consumers: `load_records`
and `frame` hold every row, `sample` and `page` stop at the last row they want.
A reference version without a fingerprint is compared with what was registered
after its last row, so a consumer that stops before is handed the rows of an
object that changed.
-/

namespace OranAdapt

/-- Data access with the rows of an object as they stream, until the last or a failure. -/
structure StreamAccess extends DataAccess where
  stream : (pinnedUri format timestampColumn : String) → List (String × String) →
    Generator AdaptationError (DateTime × Payload)
  rows_eq : ∀ pinnedUri format timestampColumn columns,
    port.rows pinnedUri format timestampColumn columns = (stream pinnedUri format timestampColumn columns).drain
  analysisMaxRows : Nat
  analysisMaxRows_pos : 0 < analysisMaxRows

namespace StreamAccess

open DataAccess Generator

variable (sha256 : String → String) (access : StreamAccess)

def objectRows (dv : DataVersion) (ref : Reference) : Generator AdaptationError (DateTime × Payload) :=
  access.stream ref.pinnedUri ref.format ref.timestampColumn dv.columns

def referenceEnd (dv : DataVersion) (ref : Reference) (mustHash : Bool) : Option AdaptationError :=
  match (access.objectRows dv ref).failure with
  | some e => some e
  | none =>
    let found := rowsDigest sha256 (access.objectRows dv ref).yielded
    if mustHash = true ∧ found ≠ dv.contentHash then
      some (changed "the rows behind this data version changed since it was registered" dv ref dv.contentHash found)
    else none

def iterReference (dv : DataVersion) (ref : Reference) : Generator AdaptationError Row :=
  match access.port.stat ref.uri >>= fun _ => access.checkUnchanged dv ref with
  | .error e => ⟨[], some e⟩
  | .ok mustHash => ⟨referenceRows dv.id (access.objectRows dv ref).yielded, access.referenceEnd sha256 dv ref mustHash⟩

/-- `iter_rows`: the rows of a derived version are put together before the first is yielded. -/
def iterRows (db : Datastore) (dv : DataVersion) : Generator AdaptationError Row :=
  match dv.storage with
  | .reference ref => access.iterReference sha256 dv ref
  | _ => ofExcept (access.toDataAccess.iterRows sha256 db dv)

def frame (reframe : List Payload → Frame) (db : Datastore) (dataVersionId : Nat) : Except AdaptationError Frame := do
  let rows ← access.loadRecords sha256 db [dataVersionId] false
  if rows = [] then
    .error (artifactError "no data records found for data version" [("data_version_id", .nat dataVersionId)])
  else pure (reframe (rows.map (·.payload)))

structure Sampling where
  index : Nat
  target : Nat
  wanted : List Nat
  picked : List Row

/-- One row of `sample`'s loop, which breaks at the last row wanted. -/
def sampleStep (s : Sampling) (row : Row) : ForInStep Sampling :=
  if s.index = s.target then
    match s.wanted with
    | [] => .done { s with picked := s.picked ++ [row] }
    | target :: wanted => .yield ⟨s.index + 1, target, wanted, s.picked ++ [row]⟩
  else .yield { s with index := s.index + 1 }

def wanted (total : Nat) : List Nat := (List.range access.analysisMaxRows).map fun k => k * total / access.analysisMaxRows

def sample (db : Datastore) (dv : DataVersion) : Except AdaptationError (List Row) :=
  if dv.rowCount ≤ access.analysisMaxRows then (access.iterRows sha256 db dv).drain
  else
    match access.wanted dv.rowCount with
    | [] => .error (pythonError "StopIteration")
    | target :: wanted => ((access.iterRows sha256 db dv).consume sampleStep ⟨0, target, wanted, []⟩).map (·.picked)

structure Paging where
  index : Nat
  out : List Row

def pageStep (offset limit : Nat) (s : Paging) (row : Row) : ForInStep Paging :=
  if offset + limit ≤ s.index then .done s
  else .yield ⟨s.index + 1, if offset ≤ s.index then s.out ++ [row] else s.out⟩

def page (db : Datastore) (dv : DataVersion) (offset limit : Nat) : Except AdaptationError (List Row) :=
  match dv.storage with
  | .rows => .ok (((sortRows ((db.recordsOf dv.id).map DataRecord.row)).drop offset).take limit)
  | _ => ((access.iterRows sha256 db dv).consume (pageStep offset limit) ⟨0, []⟩).map (·.out)

/-! ## The generator read to its end -/

variable {sha256 access} {db : Datastore} {dv : DataVersion} {ref : Reference} {e : AdaptationError}

theorem iterReference_start (h : (access.port.stat ref.uri >>= fun _ => access.checkUnchanged dv ref) = .error e) :
    access.iterReference sha256 dv ref = ⟨[], some e⟩ := by
  rw [iterReference, h]

theorem iterReference_checked (mustHash : Bool)
    (h : (access.port.stat ref.uri >>= fun _ => access.checkUnchanged dv ref) = .ok mustHash) :
    access.iterReference sha256 dv ref =
      ⟨referenceRows dv.id (access.objectRows dv ref).yielded, access.referenceEnd sha256 dv ref mustHash⟩ := by
  rw [iterReference, h]

theorem drain_iterReference (dv : DataVersion) (ref : Reference) :
    (access.iterReference sha256 dv ref).drain = access.toDataAccess.iterReference sha256 dv ref none := by
  have hrows : access.port.rows ref.pinnedUri ref.format ref.timestampColumn dv.columns = (access.objectRows dv ref).drain :=
    access.rows_eq ..
  unfold DataAccess.iterReference
  cases hstat : access.port.stat ref.uri with
  | error e => rw [iterReference_start (by rw [hstat]; rfl)]; rfl
  | ok stat =>
    cases hmust : access.checkUnchanged dv ref with
    | error e => rw [iterReference_start (by rw [hstat]; exact hmust)]; rfl
    | ok mustHash =>
      rw [iterReference_checked mustHash (by rw [hstat]; exact hmust), hrows]
      unfold drain ending referenceEnd
      cases (access.objectRows dv ref).failure with
      | some e => rfl
      | none =>
        by_cases hchanged : mustHash = true ∧ rowsDigest sha256 (access.objectRows dv ref).yielded ≠ dv.contentHash
        · simp [hchanged, bind, Except.bind]
        · simp [hchanged, bind, Except.bind, pure, Except.pure]

/-- Read to its end, the generator gives the rows of the version, or the error. -/
theorem drain_iterRows (db : Datastore) (dv : DataVersion) :
    (access.iterRows sha256 db dv).drain = access.toDataAccess.iterRows sha256 db dv := by
  unfold iterRows
  split
  · rename_i ref hs
    rw [drain_iterReference, DataAccess.iterRows, iterRowsTo, hs]
  · exact drain_ofExcept _

end StreamAccess

end OranAdapt
