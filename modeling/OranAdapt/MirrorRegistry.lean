import OranAdapt.FilesystemRegistry
import OranAdapt.Table

/-!
# The mirror registry

`adapters.registry.mirror` over two registries that keep a model the way
`adapters.registry.filesystem` does. Writes go to the primary and then to the
replica, whose versions say in a tag which primary version they copy; `sync`
brings the replica level.
-/

namespace OranAdapt

namespace MirrorRegistry

open FilesystemRegistry (Tags Status versionName)

/-! ## One registry -/

structure NewVersion where
  tags : Tags
  metrics : List (String × String)
  /-- the contents of the artifact directory -/
  artifact : String

structure StoredVersion extends NewVersion where
  status : Status

/-- One registered model, its versions under their numbers. -/
@[ext]
structure Model where
  versions : Table Nat StoredVersion
  aliases : Table String Nat
  next : Nat
  below : ∀ n v, versions.get? n = some v → n < next
  aliased : ∀ a n, aliases.get? a = some n → (versions.get? n).isSome = true

def merge (old new : Tags) : Tags := fun k => (new k).or (old k)

/-- How far a `create_version` gets: before anything is written, up to the
number in `model.json`, or up to a version of this status. -/
inductive Created where
  | nothing | numbered | recorded (status : Status)

/-- How a call on a registry ends: it returns, or it raises after that much of a
`create_version`, or before or after another call took effect. -/
inductive Ending where
  | returns
  | raises (created : Created) (effect : Bool)

def Ending.created : Ending → Created
  | returns => .recorded .ready
  | raises created _ => created

def Ending.effect : Ending → Bool
  | returns => true
  | raises _ effect => effect

namespace Model

theorem below_empty (n : Nat) (v : StoredVersion) (h : (Table.empty : Table Nat StoredVersion).get? n = some v) : n < 1 := by
  cases h

theorem aliased_empty (a : String) (n : Nat) (h : (Table.empty : Table String Nat).get? a = some n) :
    ((Table.empty : Table Nat StoredVersion).get? n).isSome = true := by
  cases h

/-- `{"name": name, "aliases": {}, "next": 1}` -/
def empty : Model := ⟨.empty, .empty, 1, below_empty, aliased_empty⟩

variable (m : Model)

theorem below_skip (n : Nat) (v : StoredVersion) (h : m.versions.get? n = some v) : n < m.next + 1 :=
  Nat.lt_succ_of_lt (m.below n v h)

/-- The number is taken, no version is written. -/
def skip : Model := ⟨m.versions, m.aliases, m.next + 1, m.below_skip, m.aliased⟩

theorem get?_recorded (v : StoredVersion) (n : Nat) :
    (m.versions.put m.next v).get? n = if n = m.next then some v else m.versions.get? n := Table.get?_put ..

theorem below_record (v : StoredVersion) (n : Nat) (w : StoredVersion) (h : (m.versions.put m.next v).get? n = some w) :
    n < m.next + 1 := by
  rw [get?_recorded] at h
  split at h
  · omega
  · exact m.below_skip n w h

theorem aliased_record (v : StoredVersion) (a : String) (n : Nat) (h : m.aliases.get? a = some n) :
    ((m.versions.put m.next v).get? n).isSome = true := by
  rw [get?_recorded]
  split
  · rfl
  · exact m.aliased a n h

def record (v : StoredVersion) : Model :=
  ⟨m.versions.put m.next v, m.aliases, m.next + 1, m.below_record v, m.aliased_record v⟩

theorem aliased_put {version : Nat} (h : (m.versions.get? version).isSome = true) (a : String) (b : String) (n : Nat)
    (hb : (m.aliases.put a version).get? b = some n) : (m.versions.get? n).isSome = true := by
  rw [Table.get?_put] at hb
  split at hb
  · cases hb
    exact h
  · exact m.aliased b n hb

def putAlias (a : String) (version : Nat) (h : (m.versions.get? version).isSome = true) : Model :=
  ⟨m.versions, m.aliases.put a version, m.next, m.below, m.aliased_put h a⟩

theorem aliased_keep (p : String → Nat → Bool) (b : String) (n : Nat) (hb : (m.aliases.keep p).get? b = some n) :
    (m.versions.get? n).isSome = true :=
  m.aliased b n (Table.get?_keep_some.mp hb).1

def dropAlias (a : String) : Model :=
  ⟨m.versions, m.aliases.keep fun b _ => b != a, m.next, m.below, m.aliased_keep _⟩

def retag (version : Nat) (tags : Tags) : Table Nat StoredVersion :=
  m.versions.modify version fun v => { v with tags := merge v.tags tags }

theorem get?_retag (version : Nat) (tags : Tags) (n : Nat) : (m.retag version tags).get? n =
    if n = version then (m.versions.get? n).map fun v => { v with tags := merge v.tags tags } else m.versions.get? n :=
  Table.get?_modify ..

theorem isSome_retag (version : Nat) (tags : Tags) (n : Nat) :
    ((m.retag version tags).get? n).isSome = (m.versions.get? n).isSome := by
  rw [get?_retag]
  split
  · rw [Option.isSome_map]
  · rfl

theorem below_retag (version : Nat) (tags : Tags) (n : Nat) (v : StoredVersion) (h : (m.retag version tags).get? n = some v) :
    n < m.next := by
  have hsome : ((m.retag version tags).get? n).isSome = true := by rw [h]; rfl
  rw [isSome_retag] at hsome
  obtain ⟨w, hw⟩ := Option.isSome_iff_exists.mp hsome
  exact m.below n w hw

theorem aliased_retag (version : Nat) (tags : Tags) (a : String) (n : Nat) (h : m.aliases.get? a = some n) :
    ((m.retag version tags).get? n).isSome = true := by
  rw [isSome_retag]
  exact m.aliased a n h

def setTags (version : Nat) (tags : Tags) : Model :=
  ⟨m.retag version tags, m.aliases, m.next, m.below_retag version tags, m.aliased_retag version tags⟩

end Model

/-! ## Calls on one registry -/

inductive Op where
  | createVersion (new : NewVersion)
  | setAlias (a : String) (version : Nat)
  | deleteAlias (a : String)
  | setVersionTags (version : Nat) (tags : Tags)

abbrev Files := Option Model

def Files.version? (f : Files) (n : Nat) : Option StoredVersion := f.bind fun m => m.versions.get? n

def Files.alias? (f : Files) (a : String) : Option Nat := f.bind fun m => m.aliases.get? a

def Files.next (f : Files) : Nat := (f.getD .empty).next

def Files.create (f : Files) (new : NewVersion) : Created → Files
  | .nothing => f
  | .numbered => some (f.getD .empty).skip
  | .recorded status => some ((f.getD .empty).record ⟨new, status⟩)

def Files.setAlias (f : Files) (a : String) (version : Nat) : Files :=
  f.map fun m => if h : (m.versions.get? version).isSome = true then m.putAlias a version h else m

namespace Op

/-- Whether the model, and the version, that a call names are there. -/
def known (f : Files) : Op → Bool
  | createVersion _ => true
  | setAlias _ version => (f.version? version).isSome
  | deleteAlias _ => f.isSome
  | setVersionTags version _ => (f.version? version).isSome

def apply (f : Files) (ending : Ending) : Op → Files
  | createVersion new => f.create new ending.created
  | setAlias a version => if ending.effect then f.setAlias a version else f
  | deleteAlias a => if ending.effect then f.map fun m => m.dropAlias a else f
  | setVersionTags version tags => if ending.effect then f.map fun m => m.setTags version tags else f

end Op

/-! ## The mirror -/

def sourceTag : String := "oran.mirror.source_version"

def sourceTags (version : Nat) : Tags := fun k => if k = sourceTag then some (versionName version) else none

/-- What the replica stores for this version of the primary. -/
def NewVersion.copyOf (new : NewVersion) (version : Nat) : NewVersion :=
  { new with tags := merge new.tags (sourceTags version) }

def replicaVersion (replica : Files) (version : Nat) : Option Nat :=
  match replica with
  | none => none
  | some m => (m.versions.rows.find? fun row => decide (row.2.tags sourceTag = some (versionName version))).map Prod.fst

structure Mirror where
  primary : Files
  replica : Files

/-- What the replica is asked for; `_mapped` raises where this is `none`. -/
def mirrored (s : Mirror) : Op → Option Op
  | .createVersion new => some (.createVersion (new.copyOf s.primary.next))
  | .setAlias a version => (replicaVersion s.replica version).map fun n => .setAlias a n
  | .deleteAlias a => some (.deleteAlias a)
  | .setVersionTags version tags => (replicaVersion s.replica version).map fun n => .setVersionTags n tags

/-- The replica's half of a write. It may raise, which `_replicate` reports or logs. -/
def replicate (s : Mirror) (op : Op) (ending : Ending) : Files :=
  match mirrored s op with
  | some op => if op.known s.replica then op.apply s.replica ending else s.replica
  | none => s.replica

def write (s : Mirror) (op : Op) (first second : Ending) : Mirror :=
  if op.known s.primary = false then s
  else
    match first with
    | .returns => ⟨op.apply s.primary .returns, replicate s op second⟩
    | .raises created effect => ⟨op.apply s.primary (.raises created effect), s.replica⟩

/-- Writes one after the other, with how the calls on the two registries end. -/
def writes (s : Mirror) (run : List (Op × Ending × Ending)) : Mirror :=
  run.foldl (fun s w => write s w.1 w.2.1 w.2.2) s

/-! ## `sync` -/

inductive SyncError where
  | modelNotFound
  | noStoredArtifact (version : Nat)
  | notCopied (version : Nat)

def mapped (replica : Files) (version : Nat) : Except SyncError Nat :=
  match replicaVersion replica version with
  | some n => .ok n
  | none => .error (.notCopied version)

/-- The first loop: what has no copy is downloaded and registered. -/
def copyMissing : List (Nat × StoredVersion) → Files → Except SyncError (List Nat × Files)
  | [], replica => .ok ([], replica)
  | (n, v) :: rest, replica =>
    if (replicaVersion replica n).isSome then copyMissing rest replica
    else if v.status ≠ .ready then .error (.noStoredArtifact n)
    else do
      let (copied, replica) ← copyMissing rest (replica.create (v.toNewVersion.copyOf n) (.recorded .ready))
      pure (n :: copied, replica)

def overwriteTags : List (Nat × StoredVersion) → Files → Except SyncError Files
  | [], replica => .ok replica
  | (n, v) :: rest, replica => do
    let copy ← mapped replica n
    overwriteTags rest (replica.map fun m => m.setTags copy v.tags)

def copyAliases : List (String × Nat) → Files → Except SyncError Files
  | [], replica => .ok replica
  | (a, n) :: rest, replica => do
    let copy ← mapped replica n
    copyAliases rest (replica.setAlias a copy)

/-- What `sync` says it changed. -/
structure Report where
  copied : List Nat
  aliases : List (String × Nat)
  removed : List String

def sync (s : Mirror) : Except SyncError (Report × Files) :=
  match s.primary with
  | none => .error .modelNotFound
  | some primary => do
    let (copied, replica) ← copyMissing primary.versions.rows s.replica
    let replica ← overwriteTags primary.versions.rows replica
    let replica ← copyAliases primary.aliases.rows replica
    match replica with
    | none => .error .modelNotFound
    | some m =>
      let removed := (m.aliases.rows.map Prod.fst).filter fun a => (primary.aliases.get? a).isNone
      pure (⟨copied, primary.aliases.rows, removed⟩, some (removed.foldl (fun m a => m.dropAlias a) m))

/-! ## What a sync is to leave -/

/-- The replica holds each primary version that has an artifact exactly once,
with its tags, and each alias on the copy of its version. -/
structure Level (primary : Model) (replica : Files) : Prop where
  copies : ∀ n v, primary.versions.get? n = some v → v.status = .ready → ∃ m w, replicaVersion replica n = some m ∧
    replica.version? m = some w ∧ w.status = .ready ∧ w.artifact = v.artifact ∧ w.tags = merge v.tags (sourceTags n) ∧
    ∀ m' w', replica.version? m' = some w' → w'.status = .ready → w'.tags sourceTag = some (versionName n) → m' = m
  aliases : ∀ a, replica.alias? a = (primary.aliases.get? a).bind (replicaVersion replica)

/-- A sync returns with the replica level, and a second one changes nothing. -/
def Repairs (s : Mirror) : Prop :=
  ∃ primary report replica, s.primary = some primary ∧ sync s = .ok (report, replica) ∧ Level primary replica ∧
    sync ⟨some primary, replica⟩ = .ok (⟨[], primary.aliases.rows, []⟩, replica)

end MirrorRegistry

end OranAdapt
