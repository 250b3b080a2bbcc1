import Mathlib.Logic.Function.Basic
import OranAdapt.Histories
import OranAdapt.JsonText
import OranAdapt.Registry
import OranAdapt.Runs

/-!
# The filesystem registry

`adapters.registry.filesystem`: one model's metadata in JSON files. A call reads
a file whole and replaces it whole; between two file operations any other call
may act. The artifact is uploaded outside the lock.
-/

namespace OranAdapt

namespace FilesystemRegistry

open Histories Runs

abbrev Tags := String → Option String

inductive Status where
  | pending | ready | failed
deriving DecidableEq

structure ModelFile where
  aliases : String → Option Version
  next : Nat

structure VersionFile where
  tags : Tags
  status : Status
  artifactUri : Option String

/-- The files of one model; `lock` is the call whose lock file is there. -/
structure Files where
  model : Option ModelFile
  versions : Version → Option VersionFile
  lock : Option Nat

inductive Op where
  | createVersion (tags : List (String × String))
  | setAlias (a : String) (version : Version)
  | deleteAlias (a : String)
  | setVersionTags (version : Version) (tags : List (String × String))

inductive Result where
  | version (version : Version)
  | done
  | notFound
  | unavailable
  | uploadFailed
deriving DecidableEq

/-- What the lock is taken for: the call's own section, or `_finish`. -/
inductive Section where
  | own
  | finish (version : Version) (uri : Option String)

inductive After where
  | returns (result : Result)
  | uploads (version : Version)

/-- The file operation a call does next, with what it has read. -/
inductive Phase where
  | checkModel
  | checkVersion (version : Version)
  | lock (s : Section)
  | readModel (s : Section)
  | readVersion (s : Section) (version : Version)
  | writeModel (read : ModelFile)
  | writeVersion (s : Section) (version : Version) (read : VersionFile)
  | unlock (after : After)
  | upload (version : Version)
  | finished

/-- A file operation works, or it fails: the lock is not had in time, a file
cannot be written, the upload raises. -/
inductive Choice where
  | works | fails
deriving DecidableEq

/-! ## What a call does -/

def Tags.update (tags : Tags) (new : List (String × String)) : Tags := fun k => (new.lookup k).or (tags k)

inductive Change where
  | created (version : Version) (tags : List (String × String))
  | aliased (a : String) (version : Version)
  | unaliased (a : String)
  | tagged (version : Version) (tags : List (String × String))
  /-- The call has found no such version. -/
  | missing (version : Version)
  | nothing

/-- What one file operation of a call leads to. -/
structure Turn where
  phase : Phase
  files : Files
  change : Option Change := none
  number : Option Nat := none
  stored : Option Version := none
  result : Option Result := none

def versionName (n : Nat) : Version := toString n

def isDigits (version : Version) : Bool := version != "" && version.toList.all Char.isDigit

def Files.version? (f : Files) (version : Version) : Option VersionFile :=
  if isDigits version then f.versions version else none

def Op.start : Op → Phase
  | .createVersion _ => .lock .own
  | _ => .checkModel

def leaves (f : Files) (r : Result) (change : Option Change) : Turn := ⟨.unlock (.returns r), f, change, none, none, none⟩

/-- Return without ever having had the lock. -/
def returns (f : Files) (r : Result) (change : Option Change) : Turn := ⟨.finished, f, change, none, none, some r⟩

def goes (f : Files) (phase : Phase) : Turn := ⟨phase, f, none, none, none, none⟩

def checkModel (f : Files) (op : Op) : Turn :=
  match op, f.model with
  | .setAlias _ version, none | .setVersionTags version _, none => returns f .notFound (some (.missing version))
  | .setAlias _ version, some _ | .setVersionTags version _, some _ => goes f (.checkVersion version)
  | .deleteAlias _, none => returns f .notFound (some .nothing)
  | .deleteAlias a, some m => if m.aliases a = none then returns f .done (some (.unaliased a)) else goes f (.lock .own)
  | .createVersion _, _ => goes f (.lock .own)

def readModel (f : Files) (op : Op) : Section → Turn
  | .finish version uri =>
    match f.model with
    | none => leaves f .notFound none
    | some _ => goes f (.readVersion (.finish version uri) version)
  | .own =>
    match op, f.model with
    | .createVersion _, m => goes f (.writeModel (m.getD ⟨fun _ => none, 1⟩))
    | .setAlias _ version, none | .setVersionTags version _, none => leaves f .notFound (some (.missing version))
    | .deleteAlias _, none => leaves f .notFound (some .nothing)
    | .setAlias _ _, some m => goes f (.writeModel m)
    | .deleteAlias a, some m =>
      if m.aliases a = none then leaves f .done (some (.unaliased a)) else goes f (.writeModel m)
    | .setVersionTags version _, some _ => goes f (.readVersion .own version)

def writeModel (f : Files) (op : Op) (m : ModelFile) : Turn :=
  match op with
  | .setAlias a version =>
    leaves { f with model := some { m with aliases := Function.update m.aliases a (some version) } } .done
      (some (.aliased a version))
  | .deleteAlias a =>
    leaves { f with model := some { m with aliases := Function.update m.aliases a none } } .done (some (.unaliased a))
  | .createVersion tags =>
    ⟨.writeVersion .own (versionName m.next) ⟨Tags.update (fun _ => none) tags, .pending, none⟩,
      { f with model := some { m with next := m.next + 1 } }, none, some m.next, none, none⟩
  | .setVersionTags _ _ => goes f .finished

/-- The record as it is written, and what follows. -/
def writeVersion (f : Files) (op : Op) (version : Version) (r : VersionFile) : Section → Turn
  | .finish _ uri =>
    let status := if uri.isSome then Status.ready else .failed
    leaves { f with versions := Function.update f.versions version (some { r with status, artifactUri := uri }) }
      (if uri.isSome then .version version else .uploadFailed) none
  | .own =>
    match op with
    | .setVersionTags _ tags =>
      leaves { f with versions := Function.update f.versions version (some { r with tags := r.tags.update tags }) } .done
        (some (.tagged version tags))
    | .createVersion tags =>
      ⟨.unlock (.uploads version), { f with versions := Function.update f.versions version (some r) },
        some (.created version tags), none, none, none⟩
    | _ => goes f .finished

def advance (f : Files) (id : Nat) (op : Op) : Phase → Choice → Option Turn
  | .checkModel, .works => some (checkModel f op)
  | .checkVersion version, .works =>
    if (f.version? version).isSome then some (goes f (.lock .own)) else some (returns f .notFound (some (.missing version)))
  | .lock s, .works => if f.lock = none then some (goes { f with lock := some id } (.readModel s))
      else some (goes f (.lock s))
  | .lock .own, .fails => some (returns f .unavailable (some .nothing))
  | .lock (.finish _ _), .fails => some (returns f .unavailable none)
  | .readModel s, .works => some (readModel f op s)
  | .readVersion s version, .works =>
    match f.version? version, s with
    | some r, s => some (goes f (.writeVersion s version r))
    | none, .own => some (leaves f .notFound (some (.missing version)))
    | none, .finish _ _ => some (leaves f .notFound none)
  | .writeModel m, .works => some (writeModel f op m)
  | .writeModel _, .fails => some (leaves f .unavailable (some .nothing))
  | .writeVersion s version r, .works => some (writeVersion f op version r s)
  | .writeVersion .own _ _, .fails => some (leaves f .unavailable (some .nothing))
  | .writeVersion (.finish _ _) _ _, .fails => some (leaves f .unavailable none)
  | .unlock (.returns r), .works => some ⟨.finished, { f with lock := none }, none, none, none, some r⟩
  | .unlock (.uploads version), .works => some (goes { f with lock := none } (.upload version))
  | .upload version, .works =>
    some ⟨.lock (.finish version (some ("models/" ++ version))), f, none, none, some version, none⟩
  | .upload version, .fails => some (goes f (.lock (.finish version none)))
  | _, _ => none

/-! ## Calls in any interleaving -/

/-- The files, the artifacts stored, and every call made so far with its phase
and the number it has taken. `order` lists, in the order of the file operations
that did it, what the calls have done to aliases and tags. -/
structure RegistryRun where
  files : Files
  stored : List Version
  calls : List (CallRecord Op Result)
  phases : Nat → Phase
  stopped : Nat → Bool
  numbers : Nat → Option Nat
  time : Nat
  order : List (Nat × Change)

inductive Action where
  | invoke (op : Op)
  | advance (id : Nat) (choice : Choice)
  /-- The process of a call stops. -/
  | stop (id : Nat)

/-- The state after one file operation of a call. -/
def RegistryRun.turned (s : RegistryRun) (id : Nat) (x : CallRecord Op Result) (t : Turn) : RegistryRun where
  files := t.files
  stored := s.stored ++ t.stored.toList
  calls :=
    match t.result with
    | some r => s.calls.set id { x with returned := some (s.time, r) }
    | none => s.calls
  phases := Function.update s.phases id t.phase
  stopped := s.stopped
  numbers := Function.update s.numbers id (t.number.or (s.numbers id))
  time := s.time + 1
  order := s.order ++ (t.change.map fun e => (id, e)).toList

def step (s : RegistryRun) : Action → Option RegistryRun
  | .invoke op => some { s with
      calls := s.calls ++ [⟨op, s.time, none⟩]
      phases := Function.update s.phases s.calls.length op.start
      time := s.time + 1 }
  | .advance id choice =>
    match s.calls[id]? with
    | some x => if s.stopped id then none else (advance s.files id x.op (s.phases id) choice).map (s.turned id x)
    | none => none
  | .stop id => some { s with stopped := Function.update s.stopped id true }

def empty : RegistryRun where
  files := ⟨none, fun _ => none, none⟩
  stored := []
  calls := []
  phases := fun _ => .finished
  stopped := fun _ => false
  numbers := fun _ => none
  time := 0
  order := []

/-! ## Calls one after the other -/

/-- What the calls are about: the aliases, and the tags of the versions there are. -/
@[ext] structure Contents where
  aliases : String → Option Version
  tags : Version → Option Tags

def Files.contents (f : Files) : Contents :=
  ⟨fun a => f.model.bind fun m => m.aliases a, fun v => (f.versions v).map (·.tags)⟩

/-- What a call with its result has done, if nothing else happens meanwhile. -/
def Allows : Op → Result → Change → Prop
  | .createVersion tags, .version v, e => e = .created v tags
  | .createVersion tags, .uploadFailed, e => ∃ v, e = .created v tags
  | .createVersion tags, .unavailable, e => e = .nothing ∨ ∃ v, e = .created v tags
  | .setAlias a v, .done, e => e = .aliased a v
  | .deleteAlias a, .done, e => e = .unaliased a
  | .setVersionTags v tags, .done, e => e = .tagged v tags
  | .setAlias _ v, .notFound, e | .setVersionTags v _, .notFound, e => e = .missing v
  | .deleteAlias _, .notFound, e => e = .nothing
  | .setAlias _ _, .unavailable, e | .deleteAlias _, .unavailable, e | .setVersionTags _ _, .unavailable, e => e = .nothing
  | _, _, _ => False

def registry : Object Contents Op Result Change where
  apply
    | c, .created v tags => { c with tags := Function.update c.tags v (some (Tags.update (fun _ => none) tags)) }
    | c, .aliased a v => { c with aliases := Function.update c.aliases a (some v) }
    | c, .unaliased a => { c with aliases := Function.update c.aliases a none }
    | c, .tagged v tags => { c with tags := Function.update c.tags v ((c.tags v).map fun old => old.update tags) }
    | c, .missing _ | c, .nothing => c
  legal
    | c, .created v _ | c, .missing v => c.tags v = none
    | c, .aliased _ v | c, .tagged v _ => (c.tags v).isSome = true
    | _, _ => True
  allows := Allows

/-! ## What a call knows -/

def Phase.holds : Phase → Bool
  | .readModel _ | .readVersion _ _ | .writeModel _ | .writeVersion _ _ _ | .unlock _ => true
  | _ => false

/-- The call has done what it does to aliases and tags. -/
def Phase.placed : Phase → Bool
  | .lock (.finish _ _) | .readModel (.finish _ _) | .readVersion (.finish _ _) _ | .writeVersion (.finish _ _) _ _ => true
  | .unlock _ | .upload _ | .finished => true
  | _ => false

/-- What the call's own section relies on. -/
def Op.Needs (f : Files) : Op → Prop
  | .setAlias _ v | .setVersionTags v _ => (f.version? v).isSome = true
  | _ => True

def Reserved (f : Files) (stored : List Version) (op : Op) (v : Version) (uri : Option String) : Prop :=
  (∃ tags, op = .createVersion tags) ∧ (f.version? v).isSome = true ∧ (uri.isSome = true → v ∈ stored)

/-- What holds of the files while a call is in a phase. -/
def Fact (f : Files) (stored : List Version) (number : Option Nat) (op : Op) : Phase → Prop
  | .checkModel | .finished => True
  | .checkVersion v => (∃ a, op = .setAlias a v) ∨ ∃ tags, op = .setVersionTags v tags
  | .lock .own | .readModel .own => op.Needs f
  | .lock (.finish v uri) | .readModel (.finish v uri) => Reserved f stored op v uri
  | .readVersion .own v => ∃ tags, op = .setVersionTags v tags
  | .readVersion (.finish v uri) w => w = v ∧ Reserved f stored op v uri
  | .writeModel m =>
    match op with
    | .createVersion _ => m = f.model.getD ⟨fun _ => none, 1⟩
    | .setAlias _ v => f.model = some m ∧ (f.version? v).isSome = true
    | .deleteAlias _ => f.model = some m
    | .setVersionTags _ _ => False
  | .writeVersion .own v r =>
    match op with
    | .setVersionTags w _ => w = v ∧ f.versions v = some r
    | .createVersion tags => r = ⟨Tags.update (fun _ => none) tags, .pending, none⟩ ∧ f.versions v = none ∧
        ∃ m n, f.model = some m ∧ number = some n ∧ v = versionName n ∧ n < m.next
    | _ => False
  | .writeVersion (.finish v uri) w r => w = v ∧ Reserved f stored op v uri ∧ f.versions v = some r
  | .unlock (.uploads v) | .upload v => Reserved f stored op v none
  | .unlock (.returns _) => True

/-- What the call has done fits the rest of its way. -/
def Fits (op : Op) (e : Change) : Phase → Prop
  | .unlock (.returns r) => Allows op r e
  | .unlock (.uploads v) | .upload v | .lock (.finish v _) | .readModel (.finish v _) | .readVersion (.finish v _) _
  | .writeVersion (.finish v _) _ _ => ∃ tags, op = .createVersion tags ∧ e = .created v tags
  | _ => True

/-- The files of one model belong together. -/
structure Consistent (f : Files) (stored : List Version) : Prop where
  records : ∀ v r, f.versions v = some r → ∃ m n, f.model = some m ∧ v = versionName n ∧ n < m.next
  aliases : ∀ m a v, f.model = some m → m.aliases a = some v → (f.versions v).isSome = true
  ready : ∀ v r, f.versions v = some r → r.status = .ready → v ∈ stored

/-! ### One file operation -/

section
variable {f f' : Files} {stored : List Version} {number : Option Nat} {id : Nat} {op : Op} {ph : Phase} {t : Turn}

/-- What a file operation does to aliases and tags: the call's own change at its
place, or nothing. -/
def Acts (f : Files) (op : Op) (ph : Phase) (t : Turn) : Prop :=
  match t.change with
  | some e => ph.placed = false ∧ t.phase.placed = true ∧ registry.legal f.contents e ∧
      t.files.contents = registry.apply f.contents e ∧ (∃ r, Allows op r e) ∧ Fits op e t.phase ∧
      ∀ r, t.result = some r → Allows op r e
  | none => t.files.contents = f.contents ∧ t.phase.placed = ph.placed ∧
      ∀ e, Fits op e ph → Fits op e t.phase ∧ ∀ r, t.result = some r → ph.placed = true ∧ Allows op r e

/-- What a file operation of a call leaves to it and to the others. -/
structure TurnOk (f : Files) (stored : List Version) (number : Option Nat) (id : Nat) (op : Op) (ph : Phase) (t : Turn) :
    Prop where
  consistent : Consistent t.files (stored ++ t.stored.toList)
  grown : ∀ v, (f.versions v).isSome = true → (t.files.versions v).isSome = true
  touched : ph.holds = true ∨ (t.files.model = f.model ∧ t.files.versions = f.versions)
  others : ∀ j ≠ id, f.lock = some j → t.files.lock = some j
  holds : t.phase.holds = true → t.files.lock = some id
  next : ∀ m, f.model = some m → ∃ m', t.files.model = some m' ∧ m.next ≤ m'.next
  numbered : ∀ n, t.number = some n → ph.placed = false ∧ (∃ m, t.files.model = some m ∧ n < m.next) ∧
    ∀ m, f.model = some m → m.next ≤ n
  fact : Fact t.files (stored ++ t.stored.toList) (t.number.or number) op t.phase
  result : t.result = none ↔ t.phase ≠ .finished
  acts : Acts f op ph t

theorem Consistent.congr (h : Consistent f stored) (hm : f'.model = f.model) (hv : f'.versions = f.versions) :
    Consistent f' stored := by
  constructor
  · rw [hm, hv]
    exact h.records
  · rw [hm, hv]
    exact h.aliases
  · rw [hv]
    exact h.ready

theorem TurnOk.still (hc : Consistent f stored) (hm : t.files.model = f.model) (hv : t.files.versions = f.versions)
    (hnumber : t.number = none) (hstored : t.stored = none) (others : ∀ j ≠ id, f.lock = some j → t.files.lock = some j)
    (holds : t.phase.holds = true → t.files.lock = some id) (fact : Fact t.files stored number op t.phase)
    (result : t.result = none ↔ t.phase ≠ .finished) (acts : Acts f op ph t) : TurnOk f stored number id op ph t where
  consistent := by
    rw [hstored, Option.toList_none, List.append_nil]
    exact hc.congr hm hv
  grown := by
    rw [hv]
    exact fun v h => h
  touched := .inr ⟨hm, hv⟩
  others := others
  holds := holds
  next := fun m h => ⟨m, by rw [hm, h], Nat.le_refl _⟩
  numbered := by
    intro n h
    rw [hnumber] at h
    cases h
  fact := by
    rw [hstored, hnumber, Option.toList_none, List.append_nil]
    exact fact
  result := result
  acts := acts

theorem versionName_inj {m n : Nat} (h : versionName m = versionName n) : m = n :=
  Json.digits_inj (String.ofList_injective h)

theorem isDigits_versionName (n : Nat) : isDigits (versionName n) = true := by
  have hlist : (versionName n).toList = Nat.toDigits 10 n := String.toList_ofList
  have hne : versionName n ≠ "" := by
    intro h
    have := congrArg String.toList h
    rw [hlist] at this
    exact Nat.toDigits_ne_nil this
  simp only [isDigits, hlist, Bool.and_eq_true, bne_iff_ne, ne_eq, hne, not_false_eq_true, true_and, List.all_eq_true]
  exact fun c hc => Json.isDigit_of_mem_digits hc

theorem version?_eq (hc : Consistent f stored) (v : Version) : f.version? v = f.versions v := by
  unfold Files.version?
  split
  · rfl
  · rename_i hdigits
    cases h : f.versions v with
    | none => rfl
    | some r =>
      obtain ⟨m, n, -, rfl, -⟩ := hc.records v r h
      exact absurd (isDigits_versionName n) hdigits

theorem contents_missing {v : Version} (h : f.versions v = none) : registry.legal f.contents (.missing v) := by
  simp [registry, Files.contents, h]

theorem versions_none (hc : Consistent f stored) (hm : f.model = none) (v : Version) : f.versions v = none := by
  cases h : f.versions v with
  | none => rfl
  | some r =>
    obtain ⟨m, n, hm', -⟩ := hc.records v r h
    rw [hm] at hm'
    cases hm'

theorem unaliased_absent {m : ModelFile} {a : String} (hm : f.model = some m) (ha : m.aliases a = none) :
    registry.apply f.contents (.unaliased a) = f.contents := by
  have hsame : f.contents.aliases a = none := by simp [Files.contents, hm, ha]
  simp only [registry]
  rw [← hsame, Function.update_eq_self]

theorem returns_ok {r : Result} {e : Change} (hc : Consistent f stored) (hplaced : ph.placed = false)
    (hlegal : registry.legal f.contents e) (happly : registry.apply f.contents e = f.contents) (hallows : Allows op r e) :
    TurnOk f stored number id op ph (returns f r (some e)) := by
  apply TurnOk.still hc rfl rfl rfl rfl
  · exact fun _ _ h => h
  · intro h
    cases h
  · trivial
  · simp [returns]
  · refine ⟨hplaced, rfl, hlegal, happly.symm, ⟨r, hallows⟩, trivial, ?_⟩
    intro r' hr'
    cases hr'
    exact hallows

theorem leaves_ok {r : Result} {e : Change} (hc : Consistent f stored) (hlock : f.lock = some id)
    (hplaced : ph.placed = false)
    (hlegal : registry.legal f.contents e) (happly : registry.apply f.contents e = f.contents) (hallows : Allows op r e) :
    TurnOk f stored number id op ph (leaves f r (some e)) := by
  apply TurnOk.still hc rfl rfl rfl rfl
  · exact fun _ _ h => h
  · exact fun _ => hlock
  · trivial
  · simp [leaves]
  · refine ⟨hplaced, rfl, hlegal, happly.symm, ⟨r, hallows⟩, hallows, ?_⟩
    intro r' hr'
    cases hr'

theorem goes_ok {next : Phase} (hc : Consistent f stored) (holds : next.holds = true → f.lock = some id)
    (fact : Fact f stored number op next) (hfinished : next ≠ .finished) (hplaced : next.placed = ph.placed)
    (hfits : ∀ e, Fits op e ph → Fits op e next) : TurnOk f stored number id op ph (goes f next) := by
  apply TurnOk.still hc rfl rfl rfl rfl
  · exact fun _ _ h => h
  · exact holds
  · exact fact
  · simp [goes, hfinished]
  · refine ⟨rfl, hplaced, fun e he => ⟨hfits e he, ?_⟩⟩
    intro r hr
    cases hr

theorem checkModel_ok (hc : Consistent f stored) : TurnOk f stored number id op .checkModel (checkModel f op) := by
  cases op with
  | createVersion tags => exact goes_ok hc (fun h => nomatch h) trivial (fun h => nomatch h) rfl fun _ _ => trivial
  | setAlias a v =>
    cases hm : f.model with
    | none =>
      simp only [checkModel, hm]
      exact returns_ok hc rfl (contents_missing (versions_none hc hm v)) rfl rfl
    | some m =>
      simp only [checkModel, hm]
      exact goes_ok hc (fun h => nomatch h) (.inl ⟨a, rfl⟩) (fun h => nomatch h) rfl fun _ _ => trivial
  | setVersionTags v tags =>
    cases hm : f.model with
    | none =>
      simp only [checkModel, hm]
      exact returns_ok hc rfl (contents_missing (versions_none hc hm v)) rfl rfl
    | some m =>
      simp only [checkModel, hm]
      exact goes_ok hc (fun h => nomatch h) (.inr ⟨tags, rfl⟩) (fun h => nomatch h) rfl fun _ _ => trivial
  | deleteAlias a =>
    cases hm : f.model with
    | none =>
      simp only [checkModel, hm]
      exact returns_ok hc rfl trivial rfl rfl
    | some m =>
      simp only [checkModel, hm]
      split
      · rename_i ha
        exact returns_ok hc rfl trivial (unaliased_absent hm ha) rfl
      · exact goes_ok hc (fun h => nomatch h) trivial (fun h => nomatch h) rfl fun _ _ => trivial

theorem checkVersion_ok {v : Version} (hc : Consistent f stored)
    (hop : (∃ a, op = .setAlias a v) ∨ ∃ tags, op = .setVersionTags v tags)
    (h : advance f id op (.checkVersion v) .works = some t) :
    TurnOk f stored number id op (.checkVersion v) t := by
  simp only [advance] at h
  have hneeds : op.Needs f ↔
    (f.version? v).isSome = true := by rcases hop with ⟨a, rfl⟩ | ⟨tags, rfl⟩ <;> exact Iff.rfl
  have hallows : Allows op .notFound (.missing v) := by rcases hop with ⟨a, rfl⟩ | ⟨tags, rfl⟩ <;> exact rfl
  split at h
  · rename_i hv
    cases h
    exact goes_ok hc (fun h => nomatch h) (hneeds.mpr hv) (fun h => nomatch h) rfl fun _ _ => trivial
  · cases h
    rename_i hv
    rw [version?_eq hc] at hv
    exact returns_ok hc rfl (contents_missing (by simpa using hv)) rfl hallows

/-- The lock is waited for without a change; who has had it, knows the same. -/
theorem lock_ok {s : Section} {choice : Choice} (hc : Consistent f stored) (hf : Fact f stored number op (.lock s))
    (h : advance f id op (.lock s) choice = some t) : TurnOk f stored number id op (.lock s) t := by
  have hplaced (s : Section) : (Phase.readModel s).placed = (Phase.lock s).placed := by cases s <;> rfl
  have hfits (s : Section) (e : Change) (he : Fits op e (.lock s)) : Fits op e (.readModel s) := by cases s <;> exact he
  have hfact (s : Section) (f' : Files) (hv : f'.versions = f.versions) (hf : Fact f stored number op (.lock s)) :
      Fact f' stored number op (.readModel s) := by
    have hversion (v : Version) : f'.version? v = f.version? v := by
      unfold Files.version?
      rw [hv]
    cases s with
    | own =>
      cases op <;> first | trivial | (change (f'.version? _).isSome = true; rw [hversion]; exact hf)
    | finish v uri =>
      obtain ⟨htags, hv, hs⟩ := hf
      exact ⟨htags, by rw [hversion]; exact hv, hs⟩
  cases choice with
  | works =>
    simp only [advance] at h
    split at h
    · rename_i hfree
      cases h
      apply TurnOk.still hc rfl rfl rfl rfl
      · intro j _ hj
        rw [hfree] at hj
        cases hj
      · exact fun _ => rfl
      · exact hfact s _ rfl hf
      · simp [goes]
      · refine ⟨rfl, hplaced s, fun e he => ⟨hfits s e he, ?_⟩⟩
        intro r hr
        cases hr
    · cases h
      exact goes_ok hc (fun h => nomatch h) hf (fun h => nomatch h) rfl fun _ he => he
  | fails =>
    cases s with
    | own =>
      cases h
      refine returns_ok hc rfl trivial rfl ?_
      cases op <;> first | rfl | exact .inl rfl
    | finish v uri =>
      cases h
      obtain ⟨⟨tags, rfl⟩, -⟩ := hf
      apply TurnOk.still hc rfl rfl rfl rfl
      · exact fun _ _ h => h
      · exact fun h => nomatch h
      · trivial
      · simp [returns]
      · refine ⟨rfl, rfl, fun e he => ⟨trivial, ?_⟩⟩
        intro r hr
        cases hr
        obtain ⟨tags', hop, he⟩ := he
        exact ⟨rfl, .inr ⟨v, he.trans (by cases hop; rfl)⟩⟩

theorem readModel_ok {s : Section} (hc : Consistent f stored) (hlock : f.lock = some id)
    (hf : Fact f stored number op (.readModel s)) : TurnOk f stored number id op (.readModel s) (readModel f op s) := by
  cases s with
  | finish v uri =>
    cases hm : f.model with
    | none =>
      have hv := hf.2.1
      rw [version?_eq hc, versions_none hc hm] at hv
      cases hv
    | some m =>
      simp only [readModel, hm]
      exact goes_ok hc (fun _ => hlock) ⟨rfl, hf⟩ (fun h => nomatch h) rfl fun _ he => he
  | own =>
    cases op with
    | createVersion tags =>
      exact goes_ok hc (fun _ => hlock) rfl (fun h => nomatch h) rfl fun _ _ => trivial
    | setAlias a v =>
      cases hm : f.model with
      | none =>
        simp only [readModel, hm]
        exact leaves_ok hc hlock rfl (contents_missing (versions_none hc hm v)) rfl rfl
      | some m =>
        simp only [readModel, hm]
        exact goes_ok hc (fun _ => hlock) ⟨hm, hf⟩ (fun h => nomatch h) rfl fun _ _ => trivial
    | setVersionTags v tags =>
      cases hm : f.model with
      | none =>
        simp only [readModel, hm]
        exact leaves_ok hc hlock rfl (contents_missing (versions_none hc hm v)) rfl rfl
      | some m =>
        simp only [readModel, hm]
        exact goes_ok hc (fun _ => hlock) ⟨tags, rfl⟩ (fun h => nomatch h) rfl fun _ _ => trivial
    | deleteAlias a =>
      cases hm : f.model with
      | none =>
        simp only [readModel, hm]
        exact leaves_ok hc hlock rfl trivial rfl rfl
      | some m =>
        simp only [readModel, hm]
        split
        · rename_i ha
          exact leaves_ok hc hlock rfl trivial (unaliased_absent hm ha) rfl
        · exact goes_ok hc (fun _ => hlock) hm (fun h => nomatch h) rfl fun _ _ => trivial

theorem readVersion_ok {s : Section} {v : Version} (hc : Consistent f stored) (hlock : f.lock = some id)
    (hf : Fact f stored number op (.readVersion s v)) (h : advance f id op (.readVersion s v) .works = some t) :
    TurnOk f stored number id op (.readVersion s v) t := by
  simp only [advance] at h
  cases hv : f.version? v with
  | none =>
    rw [hv] at h
    cases s with
    | own =>
      cases h
      obtain ⟨tags, rfl⟩ := hf
      rw [version?_eq hc] at hv
      exact leaves_ok hc hlock rfl (contents_missing hv) rfl rfl
    | finish w uri =>
      obtain ⟨rfl, -, hsome, -⟩ := hf
      rw [hv] at hsome
      cases hsome
  | some r =>
    rw [hv] at h
    cases h
    rw [version?_eq hc] at hv
    cases s with
    | own =>
      obtain ⟨tags, rfl⟩ := hf
      exact goes_ok hc (fun _ => hlock) ⟨rfl, hv⟩ (fun h => nomatch h) rfl fun _ _ => trivial
    | finish w uri =>
      obtain ⟨rfl, hres⟩ := hf
      exact goes_ok hc (fun _ => hlock) ⟨rfl, hres, hv⟩ (fun h => nomatch h) rfl fun _ he => he

theorem write_fails (hc : Consistent f stored) (hlock : f.lock = some id) (hplaced : ph.placed = false) :
    TurnOk f stored number id op ph (leaves f .unavailable (some .nothing)) := by
  refine leaves_ok hc hlock hplaced trivial rfl ?_
  cases op <;> first | rfl | exact .inl rfl

/-- `model.json` replaced with the same counter. -/
theorem aliases_ok {m : ModelFile} {aliases : String → Option Version} {r : Result} {e : Change} (hc : Consistent f stored)
    (hlock : f.lock = some id) (hm : f.model = some m) (hnamed : ∀ a v, aliases a = some v → (f.versions v).isSome = true)
    (hlegal : registry.legal f.contents e)
    (happly : registry.apply f.contents e = { f.contents with aliases := aliases }) (hallows : Allows op r e) :
    TurnOk f stored number id op (.writeModel m) (leaves { f with model := some { m with aliases } } r (some e)) where
  consistent := by
    refine ⟨?_, ?_, ?_⟩
    · intro v rec hv
      obtain ⟨m', n, hm', hname, hn⟩ := hc.records v rec hv
      rw [hm] at hm'; cases hm'
      exact ⟨_, n, rfl, hname, hn⟩
    · intro m' a v hm' ha
      cases hm'
      exact hnamed a v ha
    · simpa [leaves] using hc.ready
  grown := fun _ h => h
  touched := .inl rfl
  others := fun _ _ h => h
  holds := fun _ => hlock
  next := by
    intro m' hm'
    rw [hm] at hm'; cases hm'
    exact ⟨_, rfl, Nat.le_refl _⟩
  numbered := fun _ h => nomatch h
  fact := trivial
  result := by simp [leaves]
  acts := by
    refine ⟨rfl, rfl, hlegal, ?_, ⟨r, hallows⟩, hallows, fun _ h => nomatch h⟩
    rw [happly]
    rfl

theorem writeModel_ok {m : ModelFile} (hc : Consistent f stored) (hlock : f.lock = some id)
    (hf : Fact f stored number op (.writeModel m)) : TurnOk f stored number id op (.writeModel m) (writeModel f op m) := by
  cases op with
  | setVersionTags v tags => exact hf.elim
  | setAlias a v =>
    obtain ⟨hm, hv⟩ := hf
    rw [version?_eq hc] at hv
    have hlegal : registry.legal f.contents (.aliased a v) := by
      change ((f.versions v).map _).isSome = true
      simpa using hv
    have haliases : f.contents.aliases = m.aliases := by simp [Files.contents, hm]
    refine aliases_ok hc hlock hm ?_ hlegal (by simp [registry, haliases]) rfl
    intro b w hw
    by_cases hb : b = a
    · subst hb
      rw [Function.update_self] at hw
      cases hw
      exact hv
    · rw [Function.update_of_ne hb] at hw
      exact hc.aliases m b w hm hw
  | deleteAlias a =>
    have hm : f.model = some m := hf
    have haliases : f.contents.aliases = m.aliases := by simp [Files.contents, hm]
    refine aliases_ok hc hlock hm ?_ trivial (by simp [registry, haliases]) rfl
    intro b w hw
    by_cases hb : b = a
    · subst hb
      rw [Function.update_self] at hw
      cases hw
    · rw [Function.update_of_ne hb] at hw
      exact hc.aliases m b w hm hw
  | createVersion tags =>
    have hread : m = f.model.getD ⟨fun _ => none, 1⟩ := hf
    have hsame {m' : ModelFile} (hm : f.model = some m') : m' = m := by rw [hread, hm, Option.getD_some]
    have hfresh : f.versions (versionName m.next) = none := by
      cases hv : f.versions (versionName m.next) with
      | none => rfl
      | some r =>
        obtain ⟨m', n, hm, hname, hn⟩ := hc.records _ r hv
        rw [hsame hm, ← versionName_inj hname] at hn
        omega
    constructor
    · refine ⟨?_, ?_, ?_⟩
      · intro v r hv
        obtain ⟨m', n, hm, hname, hn⟩ := hc.records v r hv
        rw [hsame hm] at hn
        exact ⟨_, n, rfl, hname, by simp; omega⟩
      · intro m' a v hm' ha
        cases hm'
        cases hm : f.model with
        | none =>
          rw [hread, hm] at ha
          cases ha
        | some m' =>
          have hm' := hsame hm
          subst hm'
          exact hc.aliases m' a v hm ha
      · simpa [writeModel] using hc.ready
    · exact fun _ h => h
    · exact .inl rfl
    · exact fun _ _ h => h
    · exact fun _ => hlock
    · intro m' hm
      exact ⟨_, rfl, by simp [hsame hm]⟩
    · intro n hn
      cases hn
      exact ⟨rfl, ⟨_, rfl, Nat.lt_succ_self _⟩, fun m' hm => by simp [hsame hm]⟩
    · exact ⟨rfl, hfresh, _, m.next, rfl, rfl, rfl, Nat.lt_succ_self _⟩
    · simp [writeModel]
    · refine ⟨?_, rfl, fun e _ => ⟨trivial, fun _ h => nomatch h⟩⟩
      have haliases : (fun a => f.model.bind fun m => m.aliases a) = m.aliases := by
        rw [hread]
        cases f.model <;> rfl
      unfold Files.contents
      rw [haliases]
      rfl

/-- `version.json` replaced: the files still belong together. -/
theorem Consistent.write {v : Version} {r : VersionFile} {m : ModelFile} {n : Nat} (hc : Consistent f stored)
    (hm : f.model = some m) (hname : v = versionName n) (hn : n < m.next) (hready : r.status = .ready → v ∈ stored) :
    Consistent { f with versions := Function.update f.versions v (some r) } stored := by
  refine ⟨?_, ?_, ?_⟩
  · intro w r' hw
    by_cases hwv : w = v
    · exact ⟨m, n, hm, hwv.trans hname, hn⟩
    · simp only [Function.update_of_ne hwv] at hw
      exact hc.records w r' hw
  · intro m' a w hm' ha
    by_cases hwv : w = v
    · simp [hwv]
    · simp only [Function.update_of_ne hwv]
      exact hc.aliases m' a w hm' ha
  · intro w r' hw hstatus
    by_cases hwv : w = v
    · subst hwv
      simp only [Function.update_self] at hw
      cases hw
      exact hready hstatus
    · simp only [Function.update_of_ne hwv] at hw
      exact hc.ready w r' hw hstatus

theorem contents_write (v : Version) (r : VersionFile) :
    Files.contents { f with versions := Function.update f.versions v (some r) } =
      { f.contents with tags := Function.update f.contents.tags v (some r.tags) } := by
  ext w
  · rfl
  · by_cases hw : w = v
    · subst hw
      simp [Files.contents]
    · simp [Files.contents, Function.update_of_ne hw]

theorem grown_write (v : Version) (r : VersionFile) (w : Version) (hw : (f.versions w).isSome = true) :
    (Function.update f.versions v (some r) w).isSome = true := by
  by_cases hwv : w = v
  · simp [hwv]
  · rw [Function.update_of_ne hwv]
    exact hw

theorem writeVersion_ok {s : Section} {v : Version} {r : VersionFile} (hc : Consistent f stored) (hlock : f.lock = some id)
    (hf : Fact f stored number op (.writeVersion s v r)) :
    TurnOk f stored number id op (.writeVersion s v r) (writeVersion f op v r s) := by
  cases s with
  | own =>
    cases op with
    | setAlias a w => exact hf.elim
    | deleteAlias a => exact hf.elim
    | setVersionTags w tags =>
      obtain ⟨rfl, hv⟩ := hf
      obtain ⟨m, n, hm, hname, hn⟩ := hc.records w r hv
      have htags : f.contents.tags w = some r.tags := by simp [Files.contents, hv]
      constructor
      · have hwritten : Consistent
            { f with versions := Function.update f.versions w (some { r with tags := r.tags.update tags }) } stored :=
          hc.write hm hname hn fun h => hc.ready w r hv h
        simpa [writeVersion, leaves] using hwritten
      · exact grown_write w _
      · exact .inl rfl
      · exact fun _ _ h => h
      · exact fun _ => hlock
      · exact fun m h => ⟨m, h, Nat.le_refl _⟩
      · exact fun _ h => nomatch h
      · trivial
      · simp [writeVersion, leaves]
      · refine ⟨rfl, rfl, ?_, ?_, ⟨.done, rfl⟩, rfl, fun _ h => nomatch h⟩
        · simp [registry, htags]
        · refine (contents_write w _).trans ?_
          simp [registry, htags]
    | createVersion tags =>
      obtain ⟨rfl, hnone, m, n, hm, hnumber, rfl, hn⟩ := hf
      have hdigits := isDigits_versionName n
      constructor
      · have hpending : Status.pending = .ready → versionName n ∈ stored := by
          intro h
          cases h
        have hwritten := hc.write (r := ⟨Tags.update (fun _ => none) tags, .pending, none⟩) hm rfl hn hpending
        simpa [writeVersion] using hwritten
      · exact grown_write _ _
      · exact .inl rfl
      · exact fun _ _ h => h
      · exact fun _ => hlock
      · exact fun m h => ⟨m, h, Nat.le_refl _⟩
      · exact fun _ h => nomatch h
      · refine ⟨⟨tags, rfl⟩, ?_, fun h => nomatch h⟩
        simp [writeVersion, Files.version?, hdigits]
      · simp [writeVersion]
      · refine ⟨rfl, rfl, ?_, contents_write _ _, ⟨.version (versionName n), rfl⟩,
          ⟨tags, rfl, rfl⟩, fun _ h => nomatch h⟩
        simp [registry, Files.contents, hnone]
  | finish w uri =>
    obtain ⟨rfl, ⟨⟨tags, rfl⟩, -, hstored⟩, hv⟩ := hf
    obtain ⟨m, n, hm, hname, hn⟩ := hc.records v r hv
    have htags : f.contents.tags v = some r.tags := by simp [Files.contents, hv]
    constructor
    · have hready : (if uri.isSome then Status.ready else .failed) = .ready → v ∈ stored := by
        split
        · rename_i huri
          exact fun _ => hstored huri
        · exact fun h => nomatch h
      simpa [writeVersion, leaves] using hc.write hm hname hn hready
    · exact grown_write v _
    · exact .inl rfl
    · exact fun _ _ h => h
    · exact fun _ => hlock
    · exact fun m h => ⟨m, h, Nat.le_refl _⟩
    · exact fun _ h => nomatch h
    · trivial
    · simp [writeVersion, leaves]
    · refine ⟨?_, rfl, ?_⟩
      · refine (contents_write v _).trans ?_
        rw [← htags, Function.update_eq_self]
      · rintro e ⟨tags', hop, rfl⟩
        cases hop
        refine ⟨?_, fun _ h => nomatch h⟩
        cases uri with
        | none => exact ⟨v, rfl⟩
        | some uri => exact rfl

theorem finish_fails {v w : Version} {uri : Option String} {r : VersionFile} (hc : Consistent f stored)
    (hlock : f.lock = some id) (hf : Fact f stored number op (.writeVersion (.finish w uri) v r)) :
    TurnOk f stored number id op (.writeVersion (.finish w uri) v r) (leaves f .unavailable none) := by
  obtain ⟨rfl, ⟨⟨tags, rfl⟩, -⟩, -⟩ := hf
  apply TurnOk.still hc rfl rfl rfl rfl
  · exact fun _ _ h => h
  · exact fun _ => hlock
  · trivial
  · simp [leaves]
  · refine ⟨rfl, rfl, ?_⟩
    rintro e ⟨tags', hop, rfl⟩
    cases hop
    exact ⟨.inr ⟨v, rfl⟩, fun _ h => nomatch h⟩

theorem unlock_ok {after : After} (hc : Consistent f stored) (hlock : f.lock = some id)
    (hf : Fact f stored number op (.unlock after)) (h : advance f id op (.unlock after) .works = some t) :
    TurnOk f stored number id op (.unlock after) t := by
  have hothers : ∀ j ≠ id, f.lock = some j → (none : Option Nat) = some j := by
    intro j hj hl
    rw [hlock] at hl
    exact absurd (Option.some.inj hl).symm hj
  cases after with
  | returns r =>
    cases h
    apply TurnOk.still hc rfl rfl rfl rfl hothers
    · exact fun h => nomatch h
    · trivial
    · simp
    · refine ⟨rfl, rfl, fun e he => ⟨trivial, ?_⟩⟩
      intro r' hr'
      cases hr'
      exact ⟨rfl, he⟩
  | uploads v =>
    cases h
    apply TurnOk.still hc rfl rfl rfl rfl hothers
    · exact fun h => nomatch h
    · exact hf
    · simp [goes]
    · exact ⟨rfl, rfl, fun e he => ⟨he, fun _ h => nomatch h⟩⟩

theorem upload_ok {v : Version} {choice : Choice} (hc : Consistent f stored) (hf : Fact f stored number op (.upload v))
    (h : advance f id op (.upload v) choice = some t) : TurnOk f stored number id op (.upload v) t := by
  obtain ⟨htags, hv, -⟩ := hf
  cases choice with
  | fails =>
    cases h
    exact goes_ok hc (fun h => nomatch h) ⟨htags, hv, fun h => nomatch h⟩ (fun h => nomatch h) rfl fun _ he => he
  | works =>
    cases h
    constructor
    · exact ⟨hc.records, hc.aliases, fun w r hw hr => List.mem_append_left _ (hc.ready w r hw hr)⟩
    · exact fun _ h => h
    · exact .inr ⟨rfl, rfl⟩
    · exact fun _ _ h => h
    · exact fun h => nomatch h
    · exact fun m h => ⟨m, h, Nat.le_refl _⟩
    · exact fun _ h => nomatch h
    · exact ⟨htags, hv, fun _ => by simp⟩
    · simp
    · exact ⟨rfl, rfl, fun e he => ⟨he, fun _ h => nomatch h⟩⟩

/-- Every file operation of a call, whatever it meets. -/
theorem advance_ok {choice : Choice} (hc : Consistent f stored) (hlock : ph.holds = true → f.lock = some id)
    (hf : Fact f stored number op ph) (h : advance f id op ph choice = some t) : TurnOk f stored number id op ph t := by
  cases ph with
  | checkModel =>
    cases choice with
    | works =>
      cases h
      exact checkModel_ok hc
    | fails => cases h
  | checkVersion v =>
    cases choice with
    | works => exact checkVersion_ok hc hf h
    | fails => cases h
  | lock s => exact lock_ok hc hf h
  | readModel s =>
    cases choice with
    | works =>
      cases h
      exact readModel_ok hc (hlock rfl) hf
    | fails => cases h
  | readVersion s v =>
    cases choice with
    | works => exact readVersion_ok hc (hlock rfl) hf h
    | fails => cases h
  | writeModel m =>
    cases choice with
    | works =>
      cases h
      exact writeModel_ok hc (hlock rfl) hf
    | fails =>
      cases h
      exact write_fails hc (hlock rfl) rfl
  | writeVersion s v r =>
    cases choice with
    | works =>
      cases h
      exact writeVersion_ok hc (hlock rfl) hf
    | fails =>
      cases s with
      | own =>
        cases h
        exact write_fails hc (hlock rfl) rfl
      | finish w uri =>
        cases h
        exact finish_fails hc (hlock rfl) hf
  | unlock after =>
    cases choice with
    | works => exact unlock_ok hc (hlock rfl) hf h
    | fails => cases after <;> cases h
  | upload v => exact upload_ok hc hf h
  | finished => cases h

end

/-! ### Every interleaving -/

section
variable {f f' : Files} {stored stored' : List Version} {number : Option Nat} {op : Op} {ph : Phase} {t : Turn}
  {s s' : RegistryRun} {id : Nat} {x : CallRecord Op Result} {choice : Choice}

theorem Reserved.grow {v : Version} {uri : Option String} (h : Reserved f stored op v uri)
    (hg : ∀ v, (f.version? v).isSome = true → (f'.version? v).isSome = true) (hsub : ∀ v ∈ stored, v ∈ stored') :
    Reserved f' stored' op v uri :=
  ⟨h.1, hg v h.2.1, fun hu => hsub v (h.2.2 hu)⟩

/-- What a call without the lock knows stays true. -/
theorem Fact.grow (h : Fact f stored number op ph) (hh : ph.holds = false)
    (hg : ∀ v, (f.version? v).isSome = true → (f'.version? v).isSome = true) (hsub : ∀ v ∈ stored, v ∈ stored') :
    Fact f' stored' number op ph := by
  cases ph with
  | checkModel => trivial
  | checkVersion v => exact h
  | finished => trivial
  | upload v => exact Reserved.grow h hg hsub
  | lock s =>
    cases s with
    | own => cases op <;> first | trivial | exact hg _ h
    | finish v uri => exact Reserved.grow h hg hsub
  | readModel s => cases hh
  | readVersion s v => cases hh
  | writeModel m => cases hh
  | writeVersion s v r => cases hh
  | unlock after => cases hh

/-- While nobody else can write, so does everything it has read. -/
theorem Fact.congr (h : Fact f stored number op ph) (hm : f'.model = f.model) (hv : f'.versions = f.versions)
    (hsub : ∀ v ∈ stored, v ∈ stored') : Fact f' stored' number op ph := by
  have hversion (v : Version) : f'.version? v = f.version? v := by
    unfold Files.version?
    rw [hv]
  have hg (v : Version) (hsome : (f.version? v).isSome = true) : (f'.version? v).isSome = true := by rwa [hversion]
  cases ph with
  | checkModel => trivial
  | checkVersion v => exact h
  | finished => trivial
  | upload v => exact Reserved.grow h hg hsub
  | lock s =>
    cases s with
    | own => cases op <;> first | trivial | exact hg _ h
    | finish v uri => exact Reserved.grow h hg hsub
  | readModel s =>
    cases s with
    | own => cases op <;> first | trivial | exact hg _ h
    | finish v uri => exact Reserved.grow h hg hsub
  | readVersion s v =>
    cases s with
    | own => exact h
    | finish w uri => exact ⟨h.1, Reserved.grow h.2 hg hsub⟩
  | writeModel m =>
    cases op with
    | createVersion tags =>
      change m = f'.model.getD _
      rw [hm]
      exact h
    | setAlias a v => exact ⟨hm.trans h.1, hg v h.2⟩
    | deleteAlias a => exact hm.trans h
    | setVersionTags v tags => exact h
  | writeVersion s v r =>
    cases s with
    | own =>
      cases op with
      | createVersion tags =>
        obtain ⟨hr, hnone, m, n, hmodel, hrest⟩ := h
        exact ⟨hr, by rw [hv]; exact hnone, m, n, hm.trans hmodel, hrest⟩
      | setVersionTags w tags => exact ⟨h.1, by rw [hv]; exact h.2⟩
      | setAlias a w => exact h
      | deleteAlias a => exact h
    | finish w uri => exact ⟨h.1, Reserved.grow h.2.1 hg hsub, by rw [hv]; exact h.2.2⟩
  | unlock after =>
    cases after with
    | returns r => trivial
    | uploads v => exact Reserved.grow h hg hsub

theorem advance_created {v : Version} {tags : List (String × String)} (hf : Fact f stored number op ph)
    (h : advance f id op ph choice = some t) (hchange : t.change = some (.created v tags)) :
    ∃ n, number = some n ∧ t.number = none ∧ v = versionName n := by
  cases ph with
  | writeVersion s w r =>
    cases s with
    | finish w uri => cases choice <;> cases h <;> cases hchange
    | own =>
      cases choice with
      | fails =>
        cases h
        cases hchange
      | works =>
        cases op with
        | createVersion tags =>
          cases h
          cases hchange
          obtain ⟨-, -, m, n, -, hnumber, hname, -⟩ := hf
          exact ⟨n, hnumber, rfl, hname⟩
        | setVersionTags w tags =>
          cases h
          cases hchange
        | setAlias a w => exact hf.elim
        | deleteAlias a => exact hf.elim
  | checkModel =>
    cases choice with
    | fails => cases h
    | works =>
      cases h
      unfold checkModel at hchange
      split at hchange <;> try split at hchange
      all_goals cases hchange
  | checkVersion w =>
    cases choice with
    | fails => cases h
    | works =>
      simp only [advance] at h
      split at h <;> cases h <;> cases hchange
  | lock s =>
    cases choice with
    | fails => cases s <;> cases h <;> cases hchange
    | works =>
      simp only [advance] at h
      split at h <;> cases h <;> cases hchange
  | readModel s =>
    cases choice with
    | fails => cases h
    | works =>
      cases h
      unfold readModel at hchange
      split at hchange <;> split at hchange <;> try split at hchange
      all_goals cases hchange
  | readVersion s w =>
    cases choice with
    | fails => cases h
    | works =>
      simp only [advance] at h
      split at h <;> cases h <;> cases hchange
  | writeModel m => cases choice <;> cases op <;> cases h <;> cases hchange
  | unlock after => cases choice <;> cases after <;> cases h <;> cases hchange
  | upload w => cases choice <;> cases h <;> cases hchange
  | finished => cases h

/-- The state of the files, what each call knows and has done, and the numbers. -/
structure Inv (s : RegistryRun) : Prop where
  consistent : Consistent s.files s.stored
  linear : registry.Linearizes ⟨fun _ => none, fun _ => none⟩ s.calls s.order s.files.contents
  holds : ∀ i, i < s.calls.length → (s.phases i).holds = true → s.files.lock = some i
  fact : ∀ i x, s.calls[i]? = some x → Fact s.files s.stored (s.numbers i) x.op (s.phases i)
  placed : ∀ i x, s.calls[i]? = some x → (s.phases i).placed = true → ∃ e, (i, e) ∈ s.order ∧
    Fits x.op e (s.phases i)
  unplaced : ∀ i x, s.calls[i]? = some x → (s.phases i).placed = false → i ∉ s.order.map Prod.fst
  returned : ∀ i x, s.calls[i]? = some x → (x.returned = none ↔ s.phases i ≠ .finished)
  invoked : ∀ x ∈ s.calls, x.invoked < s.time
  numbered : ∀ i n, s.numbers i = some n → i < s.calls.length ∧ ∃ m, s.files.model = some m ∧ n < m.next
  named : ∀ i v tags, (i, Change.created v tags) ∈ s.order → ∃ n, s.numbers i = some n ∧ v = versionName n
  distinct : ∀ i j n, s.numbers i = some n → s.numbers j = some n → i = j
  increasing : ∀ i j m n, s.numbers i = some m → s.numbers j = some n → Before s.calls i j → m < n

theorem inv_empty : Inv empty where
  consistent := ⟨fun _ _ h => (nomatch h), fun _ _ _ h => (nomatch h), fun _ _ h => (nomatch h)⟩
  linear := Object.Linearizes.empty _
  holds := fun _ h => nomatch h
  fact := fun _ _ h => nomatch h
  placed := fun _ _ h => nomatch h
  unplaced := fun _ _ h => nomatch h
  returned := fun _ _ h => nomatch h
  invoked := fun _ h => nomatch h
  numbered := fun _ _ h => nomatch h
  named := fun _ _ _ h => nomatch h
  distinct := fun _ _ _ h => nomatch h
  increasing := fun _ _ _ _ h => nomatch h

theorem before_append {calls : List (CallRecord Op Result)} {new : CallRecord Op Result} {i j : Nat}
    (hi : i < calls.length) (hj : j < calls.length) (h : Before (calls ++ [new]) i j) : Before calls i j := by
  obtain ⟨x, y, r, hx, hy, hr, hlt⟩ := h
  rw [List.getElem?_append_left hi] at hx
  rw [List.getElem?_append_left hj] at hy
  exact ⟨x, y, r, hx, hy, hr, hlt⟩

theorem start_fact (op : Op) : Fact f stored number op op.start := by
  cases op <;> trivial

theorem Inv.invoke (h : Inv s) (op : Op) (hs : step s (.invoke op) = some s') : Inv s' := by
  cases hs
  have hold {i : Nat} {x : CallRecord Op Result} (hx : (s.calls ++ [⟨op, s.time, none⟩])[i]? = some x) :
      (i ≠ s.calls.length ∧ s.calls[i]? = some x) ∨ (i = s.calls.length ∧ x = ⟨op, s.time, none⟩) := by
    have hlt := (List.getElem?_eq_some_iff.mp hx).1
    rw [List.length_append, List.length_singleton] at hlt
    by_cases hi : i = s.calls.length
    · subst hi
      rw [List.getElem?_append_right (Nat.le_refl _), Nat.sub_self] at hx
      cases hx
      exact .inr ⟨rfl, rfl⟩
    · rw [List.getElem?_append_left (by omega)] at hx
      exact .inl ⟨hi, hx⟩
  have hholds : op.start.holds = false := by cases op <;> rfl
  have hplaced : op.start.placed = false := by cases op <;> rfl
  constructor
  · exact h.consistent
  · exact h.linear.invoke op s.time
  · intro i hi hphase
    simp only [List.length_append, List.length_singleton] at hi
    by_cases hi' : i = s.calls.length
    · subst hi'
      simp only [Function.update_self, hholds] at hphase
      cases hphase
    · simp only [Function.update_of_ne hi'] at hphase
      exact h.holds i (by omega) hphase
  · intro i x hx
    rcases hold hx with ⟨hi, hx⟩ | ⟨rfl, rfl⟩
    · simp only [Function.update_of_ne hi]
      exact h.fact i x hx
    · simp only [Function.update_self]
      exact start_fact op
  · intro i x hx hphase
    rcases hold hx with ⟨hi, hx⟩ | ⟨rfl, rfl⟩
    · simp only [Function.update_of_ne hi] at hphase ⊢
      exact h.placed i x hx hphase
    · simp only [Function.update_self, hplaced] at hphase
      cases hphase
  · intro i x hx hphase
    rcases hold hx with ⟨hi, hx⟩ | ⟨rfl, rfl⟩
    · simp only [Function.update_of_ne hi] at hphase
      exact h.unplaced i x hx hphase
    · intro hmem
      obtain ⟨p, hp, hlen⟩ := List.mem_map.mp hmem
      have hlt := h.linear.lt_length hp
      omega
  · intro i x hx
    rcases hold hx with ⟨hi, hx⟩ | ⟨rfl, rfl⟩
    · simp only [Function.update_of_ne hi]
      exact h.returned i x hx
    · simp only [Function.update_self]
      cases op <;> simp [Op.start]
  · intro x hx
    rcases List.mem_append.mp hx with hx | hx
    · have hlt := h.invoked x hx
      simp only
      omega
    · rw [List.mem_singleton.mp hx]
      exact Nat.lt_succ_self _
  · intro i n hn
    obtain ⟨hi, hm⟩ := h.numbered i n hn
    refine ⟨?_, hm⟩
    simp only [List.length_append]
    omega
  · exact h.named
  · exact h.distinct
  · intro i j m n hm hn hb
    exact h.increasing i j m n hm hn (before_append (h.numbered i m hm).1 (h.numbered j n hn).1 hb)

theorem turned_length (t : Turn) : (s.turned id x t).calls.length = s.calls.length := by
  unfold RegistryRun.turned
  cases t.result <;> simp

theorem turned_lookup (hx : s.calls[id]? = some x) {i : Nat} {y : CallRecord Op Result}
    (hy : (s.turned id x t).calls[i]? = some y) :
    (i ≠ id ∧ s.calls[i]? = some y) ∨
      (i = id ∧ y = { x with returned := (t.result.map fun r => (s.time, r)).or x.returned }) := by
  unfold RegistryRun.turned at hy
  have hid := (List.getElem?_eq_some_iff.mp hx).1
  by_cases hi : i = id
  · subst hi
    refine .inr ⟨rfl, ?_⟩
    cases hr : t.result with
    | none =>
      simp only [hr, hx] at hy
      cases hy
      rfl
    | some r =>
      simp only [hr, List.getElem?_set_self hid] at hy
      cases hy
      rfl
  · refine .inl ⟨hi, ?_⟩
    cases hr : t.result with
    | none =>
      simp only [hr] at hy
      exact hy
    | some r =>
      simp only [hr, List.getElem?_set_ne (Ne.symm hi)] at hy
      exact hy

theorem fits_unplaced {e : Change} (h : ph.placed = false) : Fits op e ph := by
  cases ph with
  | lock s | readModel s | readVersion s v | writeVersion s v r =>
    cases s with
    | own => trivial
    | finish w uri => cases h
  | unlock after => cases h
  | upload v => cases h
  | finished => cases h
  | _ => trivial

theorem Inv.linear_turned (h : Inv s) (hx : s.calls[id]? = some x) (hopen : x.returned = none)
    (hacts : Acts s.files x.op (s.phases id) t) :
    registry.Linearizes ⟨fun _ => none, fun _ => none⟩
      (s.turned id x t).calls (s.turned id x t).order t.files.contents := by
  have htime (y : CallRecord Op Result) (hy : y ∈ s.calls) : y.invoked ≤ s.time := Nat.le_of_lt (h.invoked y hy)
  unfold Acts at hacts
  unfold RegistryRun.turned
  cases hc : t.change with
  | some e =>
    rw [hc] at hacts
    obtain ⟨hplaced, -, hlegal, happly, hallows, -, hresult⟩ := hacts
    have hact := h.linear.act hx hopen (h.unplaced id x hx hplaced) hlegal hallows
    rw [← happly] at hact
    cases hr : t.result with
    | none => exact hact
    | some r => exact hact.ret hx (List.mem_append_right _ (List.mem_singleton_self _)) (hresult r hr) htime
  | none =>
    rw [hc] at hacts
    obtain ⟨hsame, -, hfits⟩ := hacts
    rw [hsame]
    simp only [Option.map_none, Option.toList_none, List.append_nil]
    cases hr : t.result with
    | none => exact h.linear
    | some r =>
      have hplaced : (s.phases id).placed = true := by
        by_contra hno
        have hfit := hfits .nothing (fits_unplaced (by simpa using hno))
        exact hno (hfit.2 r hr).1
      obtain ⟨e, he, hfit⟩ := h.placed id x hx hplaced
      exact h.linear.ret hx he ((hfits e hfit).2 r hr).2 htime

theorem turned_number {i n : Nat} (h : (s.turned id x t).numbers i = some n) :
    s.numbers i = some n ∨ (i = id ∧ t.number = some n) := by
  by_cases hi : i = id
  · subst hi
    simp only [RegistryRun.turned, Function.update_self] at h
    cases htn : t.number with
    | none =>
      rw [htn] at h
      exact .inl h
    | some k =>
      rw [htn] at h
      exact .inr ⟨rfl, h⟩
  · simp only [RegistryRun.turned, Function.update_of_ne hi] at h
    exact .inl h

theorem Inv.before_turned (h : Inv s) (hx : s.calls[id]? = some x) (hopen : x.returned = none) {i j : Nat}
    (hb : Before (s.turned id x t).calls i j) : i ≠ id ∧ Before s.calls i j := by
  obtain ⟨y, z, r, hy, hz, hr, hlt⟩ := hb
  have hz' : ∃ z', s.calls[j]? = some z' ∧ z'.invoked = z.invoked := by
    rcases turned_lookup hx hz with ⟨-, hz⟩ | ⟨rfl, rfl⟩
    · exact ⟨z, hz, rfl⟩
    · exact ⟨x, hx, rfl⟩
  obtain ⟨z', hz', hinvoked⟩ := hz'
  rcases turned_lookup hx hy with ⟨hi, hy⟩ | ⟨rfl, rfl⟩
  · exact ⟨hi, y, z', r, hy, hz', hr, by rw [hinvoked]; exact hlt⟩
  · exfalso
    simp only [hopen, Option.or_none] at hr
    cases htr : t.result with
    | none =>
      rw [htr] at hr
      cases hr
    | some res =>
      rw [htr] at hr
      cases hr
      have hearly := h.invoked z' (List.mem_of_getElem? hz')
      simp only at hlt
      omega

theorem Inv.advance (h : Inv s) (hx : s.calls[id]? = some x) (ht : advance s.files id x.op (s.phases id) choice = some t) :
    Inv (s.turned id x t) := by
  have hid := (List.getElem?_eq_some_iff.mp hx).1
  have hok := advance_ok h.consistent (h.holds id hid) (h.fact id x hx) ht
  have hopen : x.returned = none := by
    apply (h.returned id x hx).mpr
    intro hf
    rw [hf] at ht
    cases ht
  have hsub (v : Version) (hv : v ∈ s.stored) : v ∈ s.stored ++ t.stored.toList := List.mem_append_left _ hv
  constructor
  · exact hok.consistent
  · exact h.linear_turned hx hopen hok.acts
  · intro i hi hphase
    rw [turned_length] at hi
    by_cases hi' : i = id
    · subst hi'
      simp only [RegistryRun.turned, Function.update_self] at hphase
      exact hok.holds hphase
    · simp only [RegistryRun.turned, Function.update_of_ne hi'] at hphase
      exact hok.others i hi' (h.holds i hi hphase)
  · intro i y hy
    rcases turned_lookup hx hy with ⟨hi, hy⟩ | ⟨rfl, rfl⟩
    · have hfact := h.fact i y hy
      simp only [RegistryRun.turned, Function.update_of_ne hi]
      by_cases hphase : (s.phases i).holds = true
      · have hlock := h.holds i (List.getElem?_eq_some_iff.mp hy).1 hphase
        have hother : (s.phases id).holds ≠ true := by
          intro hmine
          rw [h.holds id hid hmine] at hlock
          exact hi (Option.some.inj hlock).symm
        obtain ⟨hm, hv⟩ := hok.touched.resolve_left hother
        exact hfact.congr hm hv hsub
      · refine hfact.grow (by simpa using hphase) ?_ hsub
        intro v
        rw [version?_eq h.consistent, version?_eq hok.consistent]
        exact hok.grown v
    · simp only [RegistryRun.turned, Function.update_self]
      exact hok.fact
  · intro i y hy hphase
    rcases turned_lookup hx hy with ⟨hi, hy⟩ | ⟨rfl, rfl⟩
    · simp only [RegistryRun.turned, Function.update_of_ne hi] at hphase ⊢
      obtain ⟨e, he, hfit⟩ := h.placed i y hy hphase
      exact ⟨e, List.mem_append_left _ he, hfit⟩
    · simp only [RegistryRun.turned, Function.update_self] at hphase ⊢
      have hacts := hok.acts
      unfold Acts at hacts
      cases hc : t.change with
      | some e =>
        rw [hc] at hacts
        exact ⟨e, List.mem_append_right _ (List.mem_singleton_self _), hacts.2.2.2.2.2.1⟩
      | none =>
        rw [hc] at hacts
        obtain ⟨e, he, hfit⟩ := h.placed i x hx (hacts.2.1 ▸ hphase)
        exact ⟨e, List.mem_append_left _ he, (hacts.2.2 e hfit).1⟩
  · intro i y hy hphase
    have hacts := hok.acts
    unfold Acts at hacts
    rcases turned_lookup hx hy with ⟨hi, hy⟩ | ⟨rfl, rfl⟩
    · simp only [RegistryRun.turned, Function.update_of_ne hi] at hphase ⊢
      have hold := h.unplaced i y hy hphase
      cases t.change with
      | none => simpa using hold
      | some e => simpa [hi] using hold
    · simp only [RegistryRun.turned, Function.update_self] at hphase ⊢
      cases hc : t.change with
      | some e =>
        rw [hc] at hacts
        rw [hacts.2.1] at hphase
        cases hphase
      | none =>
        rw [hc] at hacts
        have hold := h.unplaced i x hx (hacts.2.1 ▸ hphase)
        simpa using hold
  · intro i y hy
    rcases turned_lookup hx hy with ⟨hi, hy⟩ | ⟨rfl, rfl⟩
    · simp only [RegistryRun.turned, Function.update_of_ne hi]
      exact h.returned i y hy
    · simp only [RegistryRun.turned, Function.update_self, hopen, Option.or_none, Option.map_eq_none_iff]
      exact hok.result
  · intro y hy
    obtain ⟨i, hi⟩ := List.mem_iff_getElem?.mp hy
    rcases turned_lookup hx hi with ⟨-, hi⟩ | ⟨-, rfl⟩
    · exact Nat.lt_succ_of_lt (h.invoked y (List.mem_of_getElem? hi))
    · exact Nat.lt_succ_of_lt (h.invoked x (List.mem_of_getElem? hx))
  · intro i n hn
    rw [turned_length]
    have hold (hn : s.numbers i = some n) : i < s.calls.length ∧ ∃ m, t.files.model = some m ∧ n < m.next := by
      obtain ⟨hi, m, hm, hlt⟩ := h.numbered i n hn
      obtain ⟨m', hm', hle⟩ := hok.next m hm
      exact ⟨hi, m', hm', Nat.lt_of_lt_of_le hlt hle⟩
    rcases turned_number hn with hkept | ⟨rfl, hnew⟩
    · exact hold hkept
    · exact ⟨hid, (hok.numbered n hnew).2.1⟩
  · intro i v tags hmem
    rcases List.mem_append.mp hmem with hkept | hnew
    · obtain ⟨n, hn, hname⟩ := h.named i v tags hkept
      refine ⟨n, ?_, hname⟩
      by_cases hi : i = id
      · subst hi
        have hplaced : (s.phases i).placed ≠ false := fun hno =>
          h.unplaced i x hx hno (List.mem_map_of_mem (f := Prod.fst) hkept)
        have hnone : t.number = none := by
          cases htn : t.number with
          | none => rfl
          | some k => exact absurd (hok.numbered k htn).1 hplaced
        simp only [RegistryRun.turned, Function.update_self, hnone]
        exact hn
      · simp only [RegistryRun.turned, Function.update_of_ne hi]
        exact hn
    · obtain ⟨e, he, hpair⟩ : ∃ e, t.change = some e ∧ (i, Change.created v tags) = (id, e) := by
        cases hc : t.change with
        | none =>
          rw [hc] at hnew
          cases hnew
        | some e =>
          rw [hc] at hnew
          exact ⟨e, rfl, List.mem_singleton.mp hnew⟩
      obtain ⟨rfl, rfl⟩ := Prod.mk.inj hpair
      obtain ⟨n, hn, hnone, hname⟩ := advance_created (h.fact i x hx) ht he
      refine ⟨n, ?_, hname⟩
      simp only [RegistryRun.turned, Function.update_self, hnone]
      exact hn
  · intro i j n hi hj
    have hfresh (k : Nat) (hnew : t.number = some n) (hk : s.numbers k = some n) : False := by
      obtain ⟨-, m, hm, hlt⟩ := h.numbered k n hk
      have := (hok.numbered n hnew).2.2 m hm
      omega
    rcases turned_number hi with hi' | ⟨hi', hnew⟩
    · rcases turned_number hj with hj' | ⟨-, hnew⟩
      · exact h.distinct i j n hi' hj'
      · exact (hfresh i hnew hi').elim
    · rcases turned_number hj with hj' | ⟨hj', -⟩
      · exact (hfresh j hnew hj').elim
      · exact hi'.trans hj'.symm
  · intro i j m n hi hj hb
    obtain ⟨hne, hb⟩ := h.before_turned hx hopen hb
    rcases turned_number hi with hi' | ⟨hi', -⟩
    · rcases turned_number hj with hj' | ⟨-, hnew⟩
      · exact h.increasing i j m n hi' hj' hb
      · obtain ⟨-, m', hm', hlt⟩ := h.numbered i m hi'
        have := (hok.numbered n hnew).2.2 m' hm'
        omega
    · exact absurd hi' hne

theorem inv_step {a : Action} (h : Inv s) (hs : step s a = some s') : Inv s' := by
  cases a with
  | invoke op => exact h.invoke op hs
  | stop id =>
    cases hs
    exact ⟨h.consistent, h.linear, h.holds, h.fact, h.placed, h.unplaced, h.returned, h.invoked, h.numbered, h.named,
      h.distinct, h.increasing⟩
  | advance id choice =>
    simp only [step] at hs
    cases hx : s.calls[id]? with
    | none =>
      rw [hx] at hs
      cases hs
    | some x =>
      rw [hx] at hs
      simp only at hs
      split at hs
      · cases hs
      · obtain ⟨t, ht, rfl⟩ := Option.map_eq_some_iff.mp hs
        exact h.advance hx ht

theorem reachable_inv (h : Steps step Free empty s) : Inv s :=
  h.inv Inv (fun _ _ _ hi _ hs => inv_step hi hs) inv_empty

theorem created_of_tags {c : Contents} {v : Version} : ∀ {es : List Change}, (c.tags v).isSome = false →
    ((es.foldl registry.apply c).tags v).isSome = true → ∃ tags, Change.created v tags ∈ es := by
  intro es
  induction es generalizing c with
  | nil =>
    intro hc h
    rw [List.foldl_nil, hc] at h
    cases h
  | cons e es ih =>
    intro hc h
    by_cases he : ((registry.apply c e).tags v).isSome = true
    · cases e with
      | created w tags =>
        by_cases hw : v = w
        · subst hw
          exact ⟨tags, List.mem_cons_self⟩
        · simp [registry, Function.update_of_ne hw, hc] at he
      | tagged w tags =>
        by_cases hw : v = w
        · subst hw
          simp [registry, hc] at he
        · simp [registry, Function.update_of_ne hw, hc] at he
      | aliased a w => simp [registry, hc] at he
      | unaliased a => simp [registry, hc] at he
      | missing w => simp [registry, hc] at he
      | nothing => simp [registry, hc] at he
    · obtain ⟨tags, hmem⟩ := ih (by simpa using he) h
      exact ⟨tags, List.mem_cons_of_mem _ hmem⟩

/-- The registry loses no update in any interleaving: its aliases and tags are
those of one order of the calls that returned, and of those that have written
their file and not returned; numbers are taken once and rise; aliases name
versions; a version that is ready has its artifact. -/
theorem no_update_lost (h : Steps step Free empty s) :
    (∃ order, registry.Linearizes ⟨fun _ => none, fun _ => none⟩ s.calls order s.files.contents) ∧
    (∀ i j n, s.numbers i = some n → s.numbers j = some n → i = j) ∧
    (∀ i j m n, s.numbers i = some m → s.numbers j = some n → Before s.calls i j → m < n) ∧
    (∀ i x t v, s.calls[i]? = some x → x.returned = some (t, .version v) →
      ∃ n, s.numbers i = some n ∧ v = versionName n) ∧
    (∀ v r, s.files.versions v = some r → ∃ i n, s.numbers i = some n ∧ v = versionName n) ∧
    (∀ m a v, s.files.model = some m → m.aliases a = some v → (s.files.versions v).isSome = true) ∧
    ∀ v r, s.files.versions v = some r → r.status = .ready → v ∈ s.stored := by
  have hinv := reachable_inv h
  refine ⟨⟨s.order, hinv.linear⟩, hinv.distinct, hinv.increasing, ?_, ?_, hinv.consistent.aliases,
    hinv.consistent.ready⟩
  · intro i x t v hx hr
    obtain ⟨e, he, hallows⟩ := hinv.linear.completed i x _ hx hr
    cases hop : x.op with
    | createVersion tags =>
      rw [hop] at hallows
      have hcreated : e = .created v tags := hallows
      subst hcreated
      exact hinv.named i v tags he
    | setAlias a w =>
      rw [hop] at hallows
      exact hallows.elim
    | deleteAlias a =>
      rw [hop] at hallows
      exact hallows.elim
    | setVersionTags w tags =>
      rw [hop] at hallows
      exact hallows.elim
  · intro v r hv
    have hsome : (s.files.contents.tags v).isSome = true := by simp [Files.contents, hv]
    rw [← hinv.linear.outcome] at hsome
    obtain ⟨tags, hmem⟩ := created_of_tags rfl hsome
    obtain ⟨p, hp, heq⟩ := List.mem_map.mp hmem
    have hpair : (p.1, Change.created v tags) ∈ s.order := by
      rw [← heq]
      exact hp
    obtain ⟨n, hn, hname⟩ := hinv.named p.1 v tags hpair
    exact ⟨p.1, n, hn, hname⟩

end

/-! ### A process that stops after its write -/

def works (id n : Nat) : List Action := List.replicate n (.advance id .works)

/-- A version is created; the process of `set_alias` stops before it removes the
lock file. -/
def stops : List Action :=
  .invoke (.createVersion []) :: works 0 11 ++ .invoke (.setAlias "LIVE" "1") :: works 1 5 ++ [.stop 1]

def stoppedRun : RegistryRun := (runs step Free empty stops).getD empty

theorem stoppedRun_reachable : Steps step Free empty stoppedRun := by
  have hsome : (runs step Free empty stops).isSome = true := by decide +kernel
  obtain ⟨t, ht⟩ := Option.isSome_iff_exists.mp hsome
  have hrun : runs step Free empty stops = some stoppedRun := by
    unfold stoppedRun
    rw [ht, Option.getD_some]
  exact .of_runs hrun

theorem no_update_lost_stopped :
    (∃ order, registry.Linearizes ⟨fun _ => none, fun _ => none⟩ stoppedRun.calls order stoppedRun.files.contents) ∧
    (∀ i j n, stoppedRun.numbers i = some n → stoppedRun.numbers j = some n → i = j) ∧
    (∀ i j m n, stoppedRun.numbers i = some m → stoppedRun.numbers j = some n →
      Before stoppedRun.calls i j → m < n) ∧
    (∀ i x t v, stoppedRun.calls[i]? = some x → x.returned = some (t, .version v) →
      ∃ n, stoppedRun.numbers i = some n ∧ v = versionName n) ∧
    (∀ v r, stoppedRun.files.versions v = some r → ∃ i n, stoppedRun.numbers i = some n ∧ v = versionName n) ∧
    (∀ m a v, stoppedRun.files.model = some m → m.aliases a = some v → (stoppedRun.files.versions v).isSome = true) ∧
    ∀ v r, stoppedRun.files.versions v = some r → r.status = .ready → v ∈ stoppedRun.stored :=
  no_update_lost stoppedRun_reachable

theorem created_keeps_aliases {c : Contents} : ∀ {es : List Change},
    (∀ e ∈ es, (∃ v tags, e = .created v tags) ∨ e = .nothing) →
      (es.foldl registry.apply c).aliases = c.aliases := by
  intro es
  induction es generalizing c with
  | nil => exact fun _ => rfl
  | cons e es ih =>
    intro h
    rw [List.foldl_cons, ih fun e' he' => h e' (List.mem_cons_of_mem _ he')]
    rcases h e List.mem_cons_self with ⟨v, tags, rfl⟩ | rfl <;> rfl

/-- The alias that the stopped call has set is due to no call that completed. -/
theorem stopped_call_counts : ∃ s, Steps step Free empty s ∧
    ¬ ∃ order, registry.Linearizes ⟨fun _ => none, fun _ => none⟩ s.calls order s.files.contents ∧
      ∀ p ∈ order, ∃ x, s.calls[p.1]? = some x ∧ x.returned.isSome = true := by
  refine ⟨stoppedRun, stoppedRun_reachable, ?_⟩
  rintro ⟨order, hlinear, hcompleted⟩
  have hlength : stoppedRun.calls.length = 2 := by decide +kernel
  have hopen : (stoppedRun.calls[1]?.any fun x => x.returned.isSome) = false := by decide +kernel
  have hcreates : ∃ x, stoppedRun.calls[0]? = some x ∧ x.op = .createVersion [] := ⟨_, rfl, rfl⟩
  have hlive : stoppedRun.files.contents.aliases "LIVE" = some "1" := by decide +kernel
  obtain ⟨x₀, hx₀, hop⟩ := hcreates
  have hchanges : ∀ e ∈ order.map Prod.snd, (∃ v tags, e = Change.created v tags) ∨ e = .nothing := by
    intro e he
    obtain ⟨p, hp, rfl⟩ := List.mem_map.mp he
    have hlt := hlinear.lt_length hp
    obtain ⟨x, hx, hreturned⟩ := hcompleted p hp
    have hzero : p.1 = 0 := by
      by_contra hne
      have hone : p.1 = 1 := by omega
      rw [hone] at hx
      rw [hx, Option.any_some, hreturned] at hopen
      cases hopen
    obtain ⟨y, hy, r, hallows⟩ := hlinear.called p hp
    rw [hzero, hx₀] at hy; cases hy
    rw [hop] at hallows
    cases r with
    | version v => exact .inl ⟨v, [], hallows⟩
    | uploadFailed =>
      obtain ⟨v, hv⟩ := hallows
      exact .inl ⟨v, [], hv⟩
    | unavailable =>
      rcases hallows with hn | ⟨v, hv⟩
      · exact .inr hn
      · exact .inl ⟨v, [], hv⟩
    | done => exact hallows.elim
    | notFound => exact hallows.elim
  have haliases := created_keeps_aliases (c := ⟨fun _ => none, fun _ => none⟩) hchanges
  rw [hlinear.outcome] at haliases
  rw [haliases] at hlive
  cases hlive

end FilesystemRegistry

end OranAdapt
