import OranAdapt.CurrentData
import OranAdapt.LoadedRows
import OranAdapt.Materialize

/-!
# Chains of adaptation jobs

The jobs of a model over a source table's CDC versions. A job cleans the rows
of its baseline and of one later version, and trains on some of them; the
snapshot of what it trained on is the next job's baseline. Events are stored
and materialized, and versions created, while a job runs. Of each baseline the
chain remembers the CDC versions given to the jobs it comes from.
-/

namespace OranAdapt

open Runs

variable {δ : Type} [DecidableEq δ]

structure Baseline where
  versionId : Option Nat := none
  /-- the CDC versions given to the jobs it comes from -/
  given : List Nat := []
  /-- the timestamps of the keyless rows the chain began with -/
  plain : List DateTime := []

namespace Baseline

def sources (b : Baseline) (later : Option Nat) : List Nat := b.versionId.toList ++ later.toList

def givenTo (b : Baseline) (later : Option Nat) : List Nat := b.given ++ later.toList

end Baseline

structure TrainingJob where
  baseline : Baseline
  later : Option Nat
  /-- what `clean_records` returned -/
  records : List Row

namespace TrainingJob

def sources (job : TrainingJob) : List Nat := job.baseline.sources job.later

def excluded (job : TrainingJob) (trained : List Int) : List Int := (job.records.map Row.id).filter fun id => id ∉ trained

end TrainingJob

structure TrainingChain (δ : Type) where
  db : Datastore := {}
  events : CdcDb δ := {}
  /-- the CDC versions of the dataset -/
  cdcVersions : List Nat := []
  baseline : Baseline := {}
  job : Option TrainingJob := none

inductive ChainAction (δ : Type) where
  | call (c : DatastoreCall)
  | store (batch : List (CdcEvent δ)) (consumer : String) (position : Option Position)
  | materialize (dataset : String) (reader : ImageReader)
  /-- the model is onboarded on a version without keys, or on a CDC version -/
  | adopt (versionId : Nat)
  | start (later : Option Nat) (required : List String)
  | finish (reframe : List Payload → Frame) (modelVersion : String) (trained : List Int)
  | abandon

namespace TrainingChain

variable (sha256 : String → String) (access : DataAccess) (dataset modelId : String)

def snapshotCall (job : TrainingJob) (modelVersion : String) (trained : List Int) : SnapshotCall where
  modelId
  modelVersion
  sourceVersionIds := job.sources
  parentVersionId := job.baseline.versionId
  excludeRecordIds := job.excluded trained

def materialize (s : TrainingChain δ) (name : String) (reader : ImageReader) : Option (TrainingChain δ) :=
  match materializeCdc name sha256 reader s.events s.db with
  | .error _ => none
  | .ok (result, events, db) =>
    let created := (result.filter fun info => info.created ∧ name = dataset).map (·.dataVersionId)
    some { s with events, db, cdcVersions := s.cdcVersions ++ created.toList }

def adopt (s : TrainingChain δ) (id : Nat) : Option (TrainingChain δ) :=
  if s.db.version? id |>.isNone then none
  else if id ∈ s.cdcVersions then some { s with baseline := ⟨some id, [id], []⟩ }
  else if (access.rowsOf sha256 s.db id).all (·.recordKey = none) then
    some { s with baseline := ⟨some id, [], (access.rowsOf sha256 s.db id).map (·.observedAt)⟩ }
  else none

def start (s : TrainingChain δ) (later : Option Nat) (required : List String) : Option (TrainingChain δ) :=
  if s.job.isNone ∧ ∀ id ∈ later, id ∈ s.cdcVersions then
    match access.loadRecords sha256 s.db (s.baseline.sources later) with
    | .error _ => none
    | .ok rows =>
      let cleaned := cleanRecords s.db rows required
      if cleaned.records.isEmpty then none else some { s with job := some ⟨s.baseline, later, cleaned.records⟩ }
  else none

def finish (s : TrainingChain δ) (job : TrainingJob) (reframe : List Payload → Frame) (modelVersion : String)
    (trained : List Int) : Option (TrainingChain δ) :=
  match (snapshotCall modelId job modelVersion trained).run sha256 access reframe s.db with
  | .error _ => none
  | .ok (info, db) =>
    let baseline := ⟨some info.dataVersionId, job.baseline.givenTo job.later, job.baseline.plain⟩
    some { s with db, baseline, job := none }

def step (s : TrainingChain δ) : ChainAction δ → Option (TrainingChain δ)
  | .call c => (s.db.step sha256 c).map fun db => { s with db }
  | .store batch consumer position => some { s with events := (storeEvents s.events batch consumer position).2 }
  | .materialize name reader => s.materialize sha256 dataset name reader
  | .adopt id => s.adopt sha256 access id
  | .start later required => s.start sha256 access later required
  | .finish reframe modelVersion trained => s.job.bind fun job =>
    s.finish sha256 access modelId job reframe modelVersion trained
  | .abandon => s.job.map fun _ => { s with job := none }

end TrainingChain

/-! ## What the CDC versions say of a key -/

namespace Datastore

variable (db : Datastore)

def HasImage (id : Nat) (key : String) (image : DateTime × Payload) : Prop :=
  ∃ r ∈ db.recordsOf id, r.recordKey = some key ∧ r.row.pair = image

def Deletes (id : Nat) (key : String) : Prop := ∃ v, db.version? id = some v ∧ key ∈ v.deletedKeys

def Mentions (id : Nat) (key : String) : Prop := (∃ image, db.HasImage id key image) ∨ db.Deletes id key

/-- The newest image of the key among the versions, which none of them deleted afterwards. -/
def Current (given : List Nat) (key : String) (image : DateTime × Payload) : Prop :=
  ∃ id ∈ given, db.HasImage id key image ∧ ∀ other ∈ given, db.Mentions other key → other ≤ id

end Datastore

/-- At most one row of each source row is there: of each key the newest image, if the key was not deleted
since, and of the rows without a key none that the chain did not begin with. -/
structure Resolved (db : Datastore) (given : List Nat) (plain : List DateTime) (records : List Row) : Prop where
  one : ∀ key, (records.filter fun r => r.recordKey = some key).length ≤ 1
  current : ∀ r ∈ records, ∀ key, r.recordKey = some key → db.Current given key r.pair
  plain : ((records.filter fun r => r.recordKey = none).map (·.observedAt)).Subperm plain

/-! ## When conflict resolution survives -/

/-- A version given to a job that starts: where it has the last word on a key of the baseline, it is newer
than the baseline and has rows; where it has not, the baseline has the key. -/
structure InOrder (db : Datastore) (b : Baseline) (rows : List Row) (id : Nat) : Prop where
  newer : ∀ key, db.Mentions id key → (∀ other ∈ b.given, db.Mentions other key → other ≤ id) →
    (∃ r ∈ rows, r.recordKey = some key) → (∀ base ∈ b.versionId, base ≤ id) ∧ db.recordsOf id ≠ []
  older : ∀ key image, db.HasImage id key image → (∃ other ∈ b.given, db.Mentions other key ∧ id < other) →
    ∃ r ∈ rows, r.recordKey = some key

/-- The rows a snapshot keeps: of each of their keys the newest row is kept, it is not a deleted
one, and what else is kept of the key is older by timestamp or the same. -/
def KeepsNewest (db : Datastore) (sources : List Nat) (rows kept : List Row) : Prop :=
  ∀ r ∈ kept, ∀ key, r.recordKey = some key → ∃ t ∈ kept, t.recordKey = some key ∧
    (∀ other ∈ rows, other.recordKey = some key → other.rank ≤ t.rank) ∧
    (∀ id ∈ sources, t.dataVersionId < id → ¬db.Deletes id key) ∧ (r.pair = t.pair ∨ r.observedAt < t.observedAt)

namespace TrainingChain

variable (sha256 : String → String) (access : DataAccess) (modelId : String)

def Careful (s : TrainingChain δ) : ChainAction δ → Prop
  | .start later _ => ∀ id ∈ later,
    InOrder s.db s.baseline (s.baseline.versionId.toList.flatMap (access.rowsOf sha256 s.db)) id
  | .finish _ modelVersion trained => ∀ job ∈ s.job,
    let kept := access.keptRows sha256 s.db job.sources (job.excluded trained)
    (∀ v ∈ s.db.versions, v.version ≠ (snapshotCall modelId job modelVersion trained).name) ∧
    ((∀ id ∈ job.sources, ∃ v, s.db.version? id = some v ∧ v.storage = .rows) →
      ∀ r ∈ kept, r.recordKey = none) ∧
    KeepsNewest s.db job.sources (job.sources.flatMap (access.rowsOf sha256 s.db)) kept
  | _ => True

end TrainingChain

end OranAdapt
