import OranAdapt.VersionNames

/-!
# Names are immutable by content

Two calls that give a version the same name: what the first one stored stays
stored, and the second one is refused unless it says the same. It is let
through with other rows exactly when they hide their timestamps from the hash.
-/

namespace OranAdapt

open Runs

/-- What a call that names a version sends. -/
structure Sent where
  observedAt : List DateTime
  payloads : List Payload
  recordKeys : Option (List (Option String)) := none
  deletedKeys : List String := []

/-- What is stored of it: timestamp, payload and record key of each row in order, and the deleted keys. -/
structure Contents where
  rows : List (DateTime × Payload × Option String)
  deletedKeys : List String

namespace Sent

def rows (s : Sent) : List (DateTime × Payload) := s.observedAt.zip s.payloads

def contents (s : Sent) : Contents where
  rows := s.observedAt.zip (s.payloads.zip (s.recordKeys.getD (List.replicate s.payloads.length none)))
  deletedKeys := s.deletedKeys.insertionSort (· ≤ ·)

def digest (sha256 : String → String) (s : Sent) : String :=
  keyedHash sha256 (rowsDigest sha256 s.rows) s.recordKeys s.deletedKeys

/-- Other contents, though the keys are the same and no row differs in more than a timestamp
that a payload column `observed_at` stands for. -/
def HidesTime (s t : Sent) : Prop :=
  s.recordKeys = t.recordKeys ∧ s.contents.deletedKeys = t.contents.deletedKeys ∧
    List.Forall₂ SameButTime s.rows t.rows ∧ t.contents ≠ s.contents

end Sent

inductive VersionCall where
  | ingest (call : IngestCall)
  | register (access : DataAccess) (call : DataAccess.RegisterCall)

namespace VersionCall

variable (sha256 : String → String)

def dataset : VersionCall → String
  | .ingest c => c.dataset
  | .register _ c => c.dataset

def version : VersionCall → String
  | .ingest c => c.version
  | .register _ c => c.version

def run (c : VersionCall) (db : Datastore) : Except AdaptationError (DataVersionInfo × Datastore) :=
  match c with
  | .ingest c => c.run sha256 db
  | .register access c => access.register sha256 c db

/-- What the call sends once its arguments, or its object, have been read. -/
def sent : VersionCall → Except AdaptationError Sent
  | .ingest c => do
    let (features, observedAt) ← c.split
    pure ⟨observedAt, features.records, c.recordKeys, c.deletedKeys⟩
  | .register access c => do
    let scan ← access.scan sha256 c.uri c.fmt c.timestampColumn
    let rows ← access.port.rows scan.reference.pinnedUri scan.reference.format scan.reference.timestampColumn scan.columns
    pure ⟨rows.map Prod.fst, rows.map Prod.snd, none, []⟩

def Holds (db : Datastore) (v : DataVersion) (contents : Contents) : Prop :=
  v.deletedKeys = contents.deletedKeys ∧
    (v.storage = .rows →
      (db.recordsOf v.id).map (fun r => (r.observedAt, r.payload, r.recordKey)) = contents.rows)

def Guarded (db : Datastore) (stored : Contents) (second : VersionCall) (sent : Sent) : Prop :=
  (∀ info db', second.run sha256 db = .ok (info, db') →
    info.created = false ∧ db.SameData db' ∧ sent.contents = stored) ∧
  (sent.contents ≠ stored →
    ∃ e, second.run sha256 db = .error e ∧ e.cls = .other "DATA_VERSION_CONFLICT")

variable {sha256} {db db' db'' : Datastore} {c : VersionCall} {s : Sent}

theorem zip_fst_snd {α β : Type} (l : List (α × β)) : (l.map Prod.fst).zip (l.map Prod.snd) = l := by
  induction l with
  | nil => rfl
  | cons a l ih => simp [ih]

/-- Both calls end in `create`, with the hash of what they send. -/
theorem run_of_sent (h : c.sent sha256 = .ok s) :
    ∃ new : NewVersion, (∀ db, c.run sha256 db = db.create new) ∧ new.dataset = c.dataset ∧
      new.version = c.version ∧
      new.digest = s.digest sha256 ∧ new.deletedKeys = s.contents.deletedKeys ∧
      (new.storage = .rows → new.rows = s.contents.rows) := by
  cases c with
  | ingest c =>
    obtain ⟨⟨features, observedAt⟩, hsplit, h⟩ := bind_ok h
    cases h
    refine ⟨c.new sha256 features observedAt, ?_, rfl, rfl, rfl, rfl, fun _ => rfl⟩
    intro db
    rw [run, IngestCall.run, hsplit]
    rfl
  | register access c =>
    obtain ⟨scan, hscan, h⟩ := bind_ok h
    obtain ⟨rows, hrows, h⟩ := bind_ok h
    cases h
    have hdigest : scan.contentHash = rowsDigest sha256 rows := by
      obtain ⟨stat, format, columns, rows', -, hrows', -, rfl⟩ := DataAccess.scan_ok hscan
      rw [hrows'] at hrows
      rw [Except.ok.inj hrows]
    refine ⟨c.new scan, fun db => ?_, rfl, rfl, ?_, ?_, ?_⟩
    · rw [run, DataAccess.register, hscan]
      rfl
    · rw [Sent.digest, Sent.rows, zip_fst_snd]
      exact hdigest
    · rw [Sent.contents, List.insertionSort_nil]
      rfl
    · intro hstorage
      cases hstorage

theorem first_holds (hn : db.Numbered) {info : DataVersionInfo} (hsent : c.sent sha256 = .ok s)
    (h : c.run sha256 db = .ok (info, db')) (hcreated : info.created = true) (he : db'.Extends db'') :
    ∃ v, db''.findVersion c.dataset c.version = some v ∧ v.contentHash = s.digest sha256 ∧ Holds db'' v s.contents := by
  obtain ⟨new, hrun, hdataset, hversion, hdigest, hdeleted, hrows⟩ := run_of_sent hsent
  rw [hrun] at h
  obtain ⟨parent, hid, hfound, -, hstored⟩ := (Datastore.create_ok h).later hcreated hn he
  rw [hdataset, hversion] at hfound
  refine ⟨_, hfound, hdigest, hdeleted, ?_⟩
  intro hstorage
  rw [hid] at hstored
  show (db''.recordsOf db.nextVersionId).map _ = _
  rw [hstored, Datastore.numberRows_rows, hrows hstorage]

theorem run_taken {v : DataVersion} (hsent : c.sent sha256 = .ok s)
    (hv : db.findVersion c.dataset c.version = some v) :
    (v.contentHash ≠ s.digest sha256 →
      ∃ e, c.run sha256 db = .error e ∧ e.cls = .other "DATA_VERSION_CONFLICT") ∧
    (v.contentHash = s.digest sha256 → ∀ e, c.run sha256 db = .error e → e.cls ≠ .other "DATA_VERSION_CONFLICT") ∧
    (∀ info db', c.run sha256 db = .ok (info, db') →
      info.created = false ∧ db.SameData db' ∧ v.contentHash = s.digest sha256) := by
  obtain ⟨new, hrun, hdataset, hversion, hdigest, -, -⟩ := run_of_sent hsent
  have hdata := Datastore.getOrCreateDataset_sameData db new.dataset
  have hfound : (db.getOrCreateDataset new.dataset).findVersion new.dataset new.version = some v := by
    rw [hdata.findVersion, hdataset, hversion]
    exact hv
  refine ⟨?_, ?_, ?_⟩
  · intro hne
    refine ⟨conflict v new.digest, ?_, rfl⟩
    rw [hrun, Datastore.create, existing, hfound]
    simp only [hdigest, if_pos hne]
    rfl
  · intro heq e he hcls
    rw [hrun, Datastore.create, existing, hfound] at he
    simp only [hdigest, heq, ne_eq, not_true_eq_false, if_false] at he
    cases hlink : linkIfGiven new.link v.id (db.getOrCreateDataset new.dataset) with
    | ok db' =>
      rw [hlink] at he
      cases he
    | error e' =>
      rw [hlink] at he
      cases he
      unfold linkIfGiven at hlink
      split at hlink
      · rw [linkModelData] at hlink
        split at hlink
        · cases hlink
          cases hcls
        · cases hlink
      · cases hlink
  · intro info db' h
    rw [hrun] at h
    cases Datastore.create_ok h with
    | replay hfound' hhash hsame =>
      rw [hdataset, hversion, hv] at hfound'
      cases hfound'
      exact ⟨rfl, hsame, by rw [hhash, hdigest]⟩
    | fresh hfree =>
      rw [hdataset, hversion, hv] at hfree
      cases hfree

/-- Assuming the hash has no collisions: in every history of the datastore, what a call stored
under a name stays stored, and a second call under that name is guarded exactly when it does
not hide other timestamps from the hash. -/
theorem names_immutable (hsha : sha256.Injective) {db₀ db₁ : Datastore} {first second : VersionCall} {s t : Sent}
    {info : DataVersionInfo} (hpast : Steps (Datastore.step sha256) Free {} db₀) (hsent : first.sent sha256 = .ok s)
    (hfirst : first.run sha256 db₀ = .ok (info, db₁)) (hcreated : info.created = true)
    (hrun : Steps (Datastore.step sha256) Free db₁ db)
    (hname : second.dataset = first.dataset ∧ second.version = first.version) (hsent' : second.sent sha256 = .ok t) :
    (∃ v, db.findVersion first.dataset first.version = some v ∧ Holds db v s.contents) ∧
    (Guarded sha256 db s.contents second t ↔ ¬Sent.HidesTime s t) := by
  have hn₀ := Datastore.steps_numbered hpast Datastore.numbered_empty
  obtain ⟨v, hv, hhash, hholds⟩ := first_holds hn₀ hsent hfirst hcreated (Datastore.steps_extends hrun)
  refine ⟨⟨v, hv, hholds⟩, ?_⟩
  have hv' := hv
  rw [← hname.1, ← hname.2] at hv'
  obtain ⟨hrefused, hnot, haccepted⟩ := run_taken hsent' hv'
  rw [hhash] at hrefused hnot haccepted
  by_cases hsame : t.contents = s.contents
  · have hhides : ¬Sent.HidesTime s t := fun h => h.2.2.2 hsame
    refine ⟨fun _ => hhides, fun _ => ⟨?_, fun hne => absurd hsame hne⟩⟩
    intro info' db' hok
    obtain ⟨hc, hdata, -⟩ := haccepted info' db' hok
    exact ⟨hc, hdata, hsame⟩
  · by_cases hdigest : s.digest sha256 = t.digest sha256
    · obtain ⟨hrows, hkeys, hdeleted⟩ := keyedHash_inj hsha hdigest
      have hhides : Sent.HidesTime s t := ⟨hkeys, hdeleted, hrows, hsame⟩
      refine ⟨?_, fun h => absurd hhides h⟩
      intro hguarded
      obtain ⟨e, herror, hcls⟩ := hguarded.2 hsame
      exact absurd hcls (hnot hdigest e herror)
    · have hhides : ¬Sent.HidesTime s t := by
        rintro ⟨hkeys, hdeleted, hrows, -⟩
        apply hdigest
        simp only [Sent.contents] at hdeleted
        have hlength := congrArg List.length hdeleted
        rw [List.length_insertionSort, List.length_insertionSort] at hlength
        have hnil : s.deletedKeys = [] ↔ t.deletedKeys = [] := by
          rw [← List.length_eq_zero_iff, hlength, List.length_eq_zero_iff]
        rw [Sent.digest, Sent.digest, rowsDigest_congr hrows, keyedHash, keyedHash, hkeys, hdeleted]
        simp only [hnil]
      refine ⟨fun _ => hhides, fun _ => ⟨?_, fun _ => hrefused hdigest⟩⟩
      intro info' db' hok
      exact absurd (haccepted info' db' hok).2.2 hdigest

/-! ## The same payload at two times -/

/-- A row whose payload has a column of its own named `observed_at`. -/
def stamped : Payload := ⟨[("observed_at", .str "shift 1")], .obj (List.pairwise_singleton _ _) fun f hf => by
  rw [List.mem_singleton.mp hf]
  exact .str _⟩

instance hours_neZero : NeZero 24 := ⟨by decide⟩

def atHour (hour : Fin 24) : DateTime where
  year := 2024
  month := 5
  day := 1
  hour := hour
  minute := 0
  second := 0
  microsecond := 0
  hour_lt := hour.isLt

/-- The row, ingested with a timestamp column of another name. -/
def stampedAt (hour : Fin 24) : IngestCall where
  dataset := "kpi"
  version := "v1"
  frame := ⟨[("ts", "object"), ("observed_at", "object")], [stamped]⟩
  kind := .historical
  timestamps := .ok (⟨[("observed_at", "object")], [stamped]⟩, [atHour hour])
  rowsKept := by
    rintro features observedAt h
    cases h
    rfl

def stampedSent (hour : Fin 24) : Sent := ⟨[atHour hour], [stamped], none, []⟩

def stampedNew (hour : Fin 24) : NewVersion :=
  (stampedAt hour).new id ⟨[("observed_at", "object")], [stamped]⟩ [atHour hour]

theorem run_stamped (hour : Fin 24) (db : Datastore) :
    (ingest (stampedAt hour)).run id db = db.create (stampedNew hour) := rfl

theorem stamped_digest (hour hour' : Fin 24) : (stampedSent hour).digest id = (stampedSent hour').digest id := by
  have hrows : List.Forall₂ SameButTime (stampedSent hour).rows (stampedSent hour').rows :=
    .cons (.inr (.inl ⟨rfl, List.mem_singleton_self _⟩)) .nil
  rw [Sent.digest, Sent.digest, rowsDigest_congr hrows]
  rfl

def stampedStore : Datastore := (({} : Datastore).getOrCreateDataset "kpi").add (stampedNew 12) none

theorem stamped_first : ∃ info, (ingest (stampedAt 12)).run id {} = .ok (info, stampedStore) ∧ info.created = true := by
  have hrun : ({} : Datastore).create (stampedNew 12) = _ := Datastore.create_free rfl rfl rfl
  rw [← run_stamped] at hrun
  exact ⟨_, hrun, rfl⟩

theorem stamped_second : ∃ info, (ingest (stampedAt 13)).run id stampedStore =
    .ok (info, stampedStore.getOrCreateDataset "kpi") ∧ info.created = false := by
  have hdata := Datastore.getOrCreateDataset_sameData {} "kpi"
  have hfree : (({} : Datastore).getOrCreateDataset "kpi").findVersion (stampedNew 12).dataset (stampedNew 12).version =
      none := rfl
  have hfound := Datastore.add_found (hdata.numbered Datastore.numbered_empty) hfree none
  have hrun : stampedStore.create (stampedNew 13) = _ :=
    Datastore.create_taken hfound.1 (stamped_digest 12 13) rfl
  rw [← run_stamped] at hrun
  exact ⟨_, hrun, rfl⟩

/-- The same payload is sent for noon and then for one o'clock: the second call is taken for a
replay of the first. -/
theorem other_time_replayed : ∃ info db info' db', (ingest (stampedAt 12)).run id {} = .ok (info, db) ∧
    info.created = true ∧ (ingest (stampedAt 13)).run id db = .ok (info', db') ∧ info'.created = false ∧
    (ingest (stampedAt 12)).sent id = .ok (stampedSent 12) ∧ (ingest (stampedAt 13)).sent id = .ok (stampedSent 13) ∧
    (stampedSent 13).contents ≠ (stampedSent 12).contents := by
  obtain ⟨info, hfirst, hcreated⟩ := stamped_first
  obtain ⟨info', hsecond, hreplayed⟩ := stamped_second
  refine ⟨info, _, info', _, hfirst, hcreated, hsecond, hreplayed, rfl, rfl, ?_⟩
  intro h
  have hrows := congrArg (fun c => c.rows.map Prod.fst) h
  have hhour := congrArg DateTime.hour (List.cons.inj hrows).1
  cases hhour

/-- In that history the second call is not guarded. -/
theorem names_immutable_stamped : ∃ info db, (ingest (stampedAt 12)).run id {} = .ok (info, db) ∧
    ((∃ v, db.findVersion "kpi" "v1" = some v ∧ Holds db v (stampedSent 12).contents) ∧
    (Guarded id db (stampedSent 12).contents (ingest (stampedAt 13)) (stampedSent 13) ↔
      ¬Sent.HidesTime (stampedSent 12) (stampedSent 13))) := by
  obtain ⟨info, hfirst, hcreated⟩ := stamped_first
  exact ⟨info, _, hfirst, names_immutable Function.injective_id (.refl _) rfl hfirst hcreated (.refl _)
    ⟨rfl, rfl⟩ rfl⟩

end VersionCall

end OranAdapt
