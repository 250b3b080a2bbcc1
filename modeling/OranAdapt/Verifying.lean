import OranAdapt.DataReading
import OranAdapt.VersionContents

/-!
# Verifying an unaltered version

`verify` hashes a version's rows again, from where they are stored. For a
version of stored rows it tells that there were keys from the keys it finds;
for a referenced one it hashes the rows as they are read, without a payload
column `observed_at`.
-/

namespace OranAdapt

open Runs

/-- A call that creates a version. -/
inductive Creation where
  | ingest (call : IngestCall)
  | register (call : DataAccess.RegisterCall)
  | snapshot (reframe : List Payload → Frame) (call : SnapshotCall)

/-- An object that did not change: its pinned uri is answered with the fingerprint it was pinned with. -/
def DatasetPort.Unchanged (port : DatasetPort) : Prop :=
  ∀ uri stat, port.stat uri = .ok stat →
    ∃ pinned, port.stat stat.pinnedUri = .ok pinned ∧ pinned.fingerprint = stat.fingerprint

namespace Creation

variable (sha256 : String → String) (access : DataAccess)

def run (c : Creation) (db : Datastore) : Except AdaptationError (DataVersionInfo × Datastore) :=
  match c with
  | .ingest c => c.run sha256 db
  | .register c => access.register sha256 c db
  | .snapshot reframe c => c.run sha256 access reframe db

/-- Keys that are given are not all `None`, and no row of an object has a payload column
`observed_at` with anything but the row's own timestamp. -/
def Verifiable : Creation → Prop
  | .ingest c => ∀ keys, c.recordKeys = some keys → ∃ k ∈ keys, k ≠ none
  | .register c => ∀ s, (VersionCall.register access c).sent sha256 = .ok s →
    ∀ r ∈ s.rows, "observed_at" ∈ r.2.keys → r.2.get "observed_at" = some (.str r.1.isoformat)
  | .snapshot _ _ => True

end Creation

namespace DataAccess

variable {sha256 : String → String} {access : DataAccess} {db db₀ db₁ : Datastore} {info : DataVersionInfo}
variable {v : DataVersion}

/-! ## Stored rows -/

theorem insertionSort_insertionSort (l : List String) :
    (l.insertionSort (· ≤ ·)).insertionSort (· ≤ ·) = l.insertionSort (· ≤ ·) := by
  apply List.Pairwise.insertionSort_eq
  exact List.pairwise_insertionSort _ l

theorem keyedHash_sort (digest : String) (keys : Option (List (Option String))) (deleted : List String) :
    keyedHash sha256 digest keys (deleted.insertionSort (· ≤ ·)) = keyedHash sha256 digest keys deleted := by
  have hlength : (deleted.insertionSort (· ≤ ·)).length = deleted.length := List.length_insertionSort _ _
  have hnil : deleted.insertionSort (· ≤ ·) = [] ↔ deleted = [] := by
    rw [← List.length_eq_zero_iff, hlength, List.length_eq_zero_iff]
  simp only [keyedHash, hnil, insertionSort_insertionSort]

theorem keyedHash_stored (hsha : sha256.Injective) (rows : List (DateTime × Payload))
    (keys : Option (List (Option String))) (stored : List (Option String)) (deleted : List String)
    (hnone : keys = none → ∀ k ∈ stored, k = none) (hsome : ∀ ks, keys = some ks → stored = ks) :
    keyedHash sha256 (rowsDigest sha256 rows) (if stored.any Option.isSome then some stored else none) deleted =
      keyedHash sha256 (rowsDigest sha256 rows) keys deleted ↔ ∀ ks, keys = some ks → ∃ k ∈ ks, k ≠ none := by
  cases keys with
  | none =>
    have hany : stored.any Option.isSome = false := by
      rw [List.any_eq_false]
      intro k hk
      rw [hnone rfl k hk]
      decide
    simp [hany]
  | some ks =>
    have hstored := hsome ks rfl
    subst hstored
    by_cases hany : stored.any Option.isSome = true
    · obtain ⟨k, hk, hsome⟩ := List.any_eq_true.mp hany
      have hne : k ≠ none := by
        rintro rfl
        cases hsome
      simp only [hany, if_true, Option.some.injEq, forall_eq', true_iff]
      exact ⟨k, hk, hne⟩
    · rw [if_neg hany]
      constructor
      · intro h
        have hkeys := (keyedHash_inj hsha h).2.1
        cases hkeys
      · intro h
        obtain ⟨k, hk, hne⟩ := h stored rfl
        exact absurd (List.any_eq_true.mpr ⟨k, hk, Option.isSome_iff_ne_none.mpr hne⟩) hany

theorem split_ok {call : IngestCall} {features : Frame} {observedAt : List DateTime}
    (h : call.split = .ok (features, observedAt)) :
    call.timestamps = .ok (features, observedAt) ∧ observedAt.length = features.records.length ∧
      (call.keys features).length = features.records.length := by
  unfold IngestCall.split at h
  split at h
  · cases h
  split at h
  · cases h
  rename_i hkeys
  obtain ⟨⟨f, ts⟩, htimestamps, h⟩ := bind_ok h
  obtain ⟨zipped, hzip, h⟩ := bind_ok h
  cases h
  unfold IngestCall.zipStrict at hzip
  split at hzip
  · rename_i hlength
    refine ⟨htimestamps, hlength, ?_⟩
    have hkept := call.rowsKept _ _ htimestamps
    cases hrecord : call.recordKeys with
    | none => simp [IngestCall.keys, hrecord]
    | some keys =>
      rw [hrecord] at hkeys
      simp only [Option.map_some, Option.any_some, decide_eq_true_eq, ne_eq, Decidable.not_not] at hkeys
      simp only [IngestCall.keys, hrecord, Option.getD_some]
      rw [hkeys, hkept]
  · cases hzip

theorem zip_rows {α β γ : Type} {as : List α} {bs : List β} {cs : List γ} (h : cs.length = bs.length) :
    (as.zip (bs.zip cs)).map (fun r => (r.1, r.2.1)) = as.zip bs := by
  have hfst : (bs.zip cs).map Prod.fst = bs := List.map_fst_zip (by omega)
  have hzip : as.zip ((bs.zip cs).map Prod.fst) = _ := List.zip_map_right
  rw [hfst] at hzip
  rw [hzip]
  rfl

theorem zip_keys {α β γ : Type} {as : List α} {bs : List β} {cs : List γ} (h : cs.length = bs.length)
    (h' : as.length = bs.length) : (as.zip (bs.zip cs)).map (fun r => r.2.2) = cs := by
  have hsnd : (as.zip (bs.zip cs)).map Prod.snd = bs.zip cs := by
    apply List.map_snd_zip
    rw [List.length_zip]
    omega
  have hmap : (as.zip (bs.zip cs)).map (fun r => r.2.2) = ((as.zip (bs.zip cs)).map Prod.snd).map Prod.snd := by
    rw [List.map_map]
    rfl
  rw [hmap, hsnd, List.map_snd_zip (by omega)]

theorem verify_of_rows {rows : List Row} {fingerprintOk : Bool}
    (h : access.verifiedRows sha256 db v = .ok (rows, fingerprintOk)) : ∃ r, access.verify sha256 db v = .ok r ∧
      (r.matches_ = true ↔ recompute sha256 v rows = v.contentHash ∧ fingerprintOk = true) := by
  refine ⟨⟨rows.length, v.contentHash, recompute sha256 v rows, fingerprintOk,
    decide (recompute sha256 v rows = v.contentHash) && fingerprintOk⟩, ?_, ?_⟩
  · rw [verify, h]
    rfl
  · simp

/-- A version of stored rows verifies unless its rows were given keys that are all `None`. -/
theorem verify_ingested (hsha : sha256.Injective) {call : IngestCall} (hn : db₀.Numbered)
    (h : call.run sha256 db₀ = .ok (info, db₁)) (hcreated : info.created = true) (he : db₁.Extends db) :
    ∃ v, db.version? info.dataVersionId = some v ∧ ∃ r, access.verify sha256 db v = .ok r ∧
      (r.matches_ = true ↔ ∀ keys, call.recordKeys = some keys → ∃ k ∈ keys, k ≠ none) := by
  obtain ⟨⟨features, observedAt⟩, hsplit, h⟩ := bind_ok h
  obtain ⟨-, htimes, hkeys⟩ := split_ok hsplit
  obtain ⟨parent, hid, -, hfound, hstored⟩ := (Datastore.create_ok h).later hcreated hn he
  have hrows := congrArg (List.map fun r => (r.observedAt, r.payload, r.recordKey)) hstored
  rw [hid, Datastore.numberRows_rows] at hrows
  have hpairs := congrArg (List.map fun r => (r.1, r.2.1)) hrows
  have hrecordKeys := congrArg (List.map fun r => r.2.2) hrows
  simp only [IngestCall.new, IngestCall.rows] at hpairs hrecordKeys
  rw [List.map_map, zip_rows hkeys] at hpairs
  rw [List.map_map, zip_keys hkeys htimes] at hrecordKeys
  have hread : access.verifiedRows sha256 db (db₀.newVersion (call.new sha256 features observedAt) parent) =
      .ok ((db.recordsOf db₀.nextVersionId).map DataRecord.row, true) := rfl
  obtain ⟨r, hverify, hmatches⟩ := verify_of_rows hread
  refine ⟨_, hfound, r, hverify, hmatches.trans ?_⟩
  have hrecompute : recompute sha256 (db₀.newVersion (call.new sha256 features observedAt) parent)
      ((db.recordsOf db₀.nextVersionId).map DataRecord.row) =
      keyedHash sha256 (rowsDigest sha256 (observedAt.zip features.records))
        (if (call.keys features).any Option.isSome then some (call.keys features) else none)
        (call.deletedKeys.insertionSort (· ≤ ·)) := by
    rw [← hpairs, ← hrecordKeys]
    simp only [recompute, List.map_map]
    rfl
  rw [hrecompute, keyedHash_sort]
  have hstored := keyedHash_stored hsha (observedAt.zip features.records) call.recordKeys (call.keys features)
    call.deletedKeys ?none ?some
  case none =>
    intro hnone k hk
    rw [IngestCall.keys, hnone, Option.getD_none] at hk
    exact List.eq_of_mem_replicate hk
  case some =>
    intro ks hks
    rw [IngestCall.keys, hks, Option.getD_some]
  exact ⟨fun h => hstored.mp h.1, fun h => ⟨hstored.mpr h, rfl⟩⟩

/-! ## Referenced rows -/

theorem carries_own_time (r : DateTime × Payload) : SameButTime (r.1, r.2.without "observed_at") r ↔
    ("observed_at" ∈ r.2.keys → r.2.get "observed_at" = some (.str r.1.isoformat)) := by
  have hnot := r.2.not_mem_keys_without "observed_at"
  by_cases hmem : "observed_at" ∈ r.2.keys
  · have hne : r.2.without "observed_at" ≠ r.2 := by
      intro heq
      rw [heq] at hnot
      exact hnot hmem
    constructor
    · rintro (heq | ⟨hpayload, hmem'⟩ | hcarries | hcarries) _
      · exact absurd (congrArg Prod.snd heq) hne
      · exact absurd hmem' hnot
      · exact absurd (List.mem_map_of_mem (Payload.mem_keys_of_get hcarries.1)) hnot
      · exact hcarries.1
    · intro h
      exact .inr (.inr (.inr ⟨h hmem, rfl⟩))
  · have heq := Payload.without_of_not_mem hmem
    refine ⟨fun _ h => absurd h hmem, fun _ => .inl ?_⟩
    rw [heq]

theorem forall₂_map_left {α : Type} {R : α → α → Prop} {f : α → α} {l : List α} :
    List.Forall₂ R (l.map f) l ↔ ∀ a ∈ l, R (f a) a := by
  induction l with
  | nil => simp
  | cons a l ih => simp [ih]

/-- An unchanged object verifies when a payload column `observed_at` says what the timestamp says. -/
theorem verify_registered (hsha : sha256.Injective) (hport : access.port.Unchanged) {call : RegisterCall}
    (hn : db₀.Numbered) (h : access.register sha256 call db₀ = .ok (info, db₁)) (hcreated : info.created = true)
    (he : db₁.Extends db) :
    ∃ v, db.version? info.dataVersionId = some v ∧ ∃ r, access.verify sha256 db v = .ok r ∧
      (r.matches_ = true ↔ (Creation.register call).Verifiable sha256 access) := by
  obtain ⟨scan, hscan, h⟩ := bind_ok h
  obtain ⟨parent, -, -, hfound, -⟩ := (Datastore.create_ok h).later hcreated hn he
  obtain ⟨stat, format, columns, rows, hstat, hrows, -, rfl⟩ := scan_ok hscan
  obtain ⟨pinned, hpinned, hfingerprint⟩ := hport _ _ hstat
  let ref : Reference := ⟨call.uri, stat.pinnedUri, stat.fingerprint, format, call.timestampColumn.getD access.timeColumn⟩
  let v := db₀.newVersion (call.new ⟨ref, columns, rows.length, rowsDigest sha256 rows⟩) parent
  have hread : access.verifiedRows sha256 db v = .ok (referenceRows v.id rows, true) := by
    have hiter : access.iterReference sha256 v ref (some false) = .ok (referenceRows v.id rows) := by
      rw [iterReference, hstat]
      show (access.port.rows stat.pinnedUri format _ columns >>= _) = _
      rw [hrows]
      rfl
    show (access.port.stat call.uri >>= _) = _
    rw [hstat]
    show (access.port.stat stat.pinnedUri >>= _) = _
    rw [hpinned]
    show (access.iterReference sha256 v ref (some false) >>= _) = _
    rw [hiter]
    show Except.ok (_, decide (stat.fingerprint = none ∨ pinned.fingerprint = stat.fingerprint)) = _
    rw [hfingerprint, decide_eq_true (Or.inr rfl)]
  obtain ⟨r, hverify, hmatches⟩ := verify_of_rows hread
  refine ⟨_, hfound, r, hverify, hmatches.trans ?_⟩
  have hrecompute : recompute sha256 v (referenceRows v.id rows) =
      rowsDigest sha256 (rows.map fun r => (r.1, r.2.without "observed_at")) := by
    rw [← referenceRows_pairs v.id]
    rfl
  have hsent : ∃ s, (VersionCall.register access call).sent sha256 = .ok s ∧ s.rows = rows := by
    refine ⟨⟨rows.map Prod.fst, rows.map Prod.snd, none, []⟩, ?_, VersionCall.zip_fst_snd rows⟩
    rw [VersionCall.sent, hscan]
    show (access.port.rows stat.pinnedUri format _ columns >>= _) = _
    rw [hrows]
    rfl
  obtain ⟨s, hs, hrowsSent⟩ := hsent
  have hown : (Creation.register call).Verifiable sha256 access ↔
      ∀ r ∈ rows, SameButTime (r.1, r.2.without "observed_at") r := by
    constructor
    · intro hverifiable r hr
      rw [← hrowsSent] at hr
      exact (carries_own_time r).mpr (hverifiable s hs r hr)
    · intro hall s' hs' r hr
      rw [hs] at hs'
      cases hs'
      rw [hrowsSent] at hr
      exact (carries_own_time r).mp (hall r hr)
  rw [hown, ← forall₂_map_left, hrecompute]
  exact ⟨fun h => rowsDigest_inj hsha h.1, fun h => ⟨rowsDigest_congr h, rfl⟩⟩

/-! ## Derived rows -/

theorem derivedRows_pairs (id : Nat) (excluded : List Int) (rows : List Row) :
    (derivedRows id excluded rows).map (fun r => (r.observedAt, r.payload)) =
      (rows.filter fun r => r.id ∉ excluded).map fun r => (r.observedAt, r.payload) := by
  apply List.ext_getElem
  · simp [derivedRows]
  · intro i h h'
    simp [derivedRows]

theorem verify_derived (hn : db₀.Numbered) (hl : db₀.Layered) {call : SnapshotCall} {anchor : DataVersion}
    {sources : List DataVersion} {rows : List Row}
    (hrows : access.loadRecords sha256 db₀ call.sourceVersionIds = .ok rows)
    (h : db₀.create (call.derived sha256 anchor sources (rows.filter fun r => r.id ∉ call.excludeRecordIds)) =
      .ok (info, db₁)) (hcreated : info.created = true) (he : db₁.Extends db) (hn' : db.Numbered) (hl' : db.Layered) :
    ∃ v, db.version? info.dataVersionId = some v ∧ ∃ r, access.verify sha256 db v = .ok r ∧ r.matches_ = true := by
  obtain ⟨parent, v, hv, hfound, -, hiter⟩ := derived_created hn hl hrows h hcreated he hn' hl'
  have hread : access.verifiedRows sha256 db v =
      .ok (derivedRows v.id (call.excludeRecordIds.insertionSort (· ≤ ·)) rows, true) := by
    subst hv
    show (access.iterRows sha256 db _).map _ = _
    rw [hiter]
    rfl
  obtain ⟨r, hverify, hmatches⟩ := verify_of_rows hread
  refine ⟨v, hfound, r, hverify, hmatches.mpr ⟨?_, rfl⟩⟩
  subst hv
  show rowsDigest sha256 _ = rowsDigest sha256 _
  rw [derivedRows_pairs]
  simp only [List.mem_insertionSort]

end DataAccess

namespace Creation

open DataAccess

variable {sha256 : String → String} {access : DataAccess} {db db₀ db₁ : Datastore} {info : DataVersionInfo}

/-- In every history, a version that nothing was changed of verifies exactly when its keys are not
all `None` and no payload column `observed_at` of a referenced object says another time. -/
theorem verify_unaltered (hsha : sha256.Injective) (hport : access.port.Unchanged) {c : Creation}
    (hpast : Steps (Datastore.step sha256) Free {} db₀) (hrun : c.run sha256 access db₀ = .ok (info, db₁))
    (hcreated : info.created = true) (hlater : Steps (Datastore.step sha256) Free db₁ db) :
    ∃ v, db.version? info.dataVersionId = some v ∧ ∃ r, access.verify sha256 db v = .ok r ∧
      (r.matches_ = true ↔ c.Verifiable sha256 access) := by
  have hn₀ := Datastore.steps_numbered hpast Datastore.numbered_empty
  have hl₀ := Datastore.steps_layered hpast Datastore.numbered_empty Datastore.layered_empty
  have he := Datastore.steps_extends hlater
  cases c with
  | ingest c => exact verify_ingested hsha hn₀ hrun hcreated he
  | register c => exact verify_registered hsha hport hn₀ hrun hcreated he
  | snapshot reframe c =>
    have hstep := Datastore.step_snapshot hrun
    have hn := Datastore.steps_numbered hlater (Datastore.step_numbered hn₀ hstep)
    have hpast' : Steps (Datastore.step sha256) Free {} db := (hpast.tail trivial hstep).trans hlater
    have hl := Datastore.steps_layered hpast' Datastore.numbered_empty Datastore.layered_empty
    have hverified : ∃ v, db.version? info.dataVersionId = some v ∧
        ∃ r, access.verify sha256 db v = .ok r ∧ r.matches_ = true := by
      change c.run sha256 access reframe db₀ = _ at hrun
      unfold SnapshotCall.run at hrun
      split at hrun
      · cases hrun
      · cases hrun
      obtain ⟨anchor, -, hrun⟩ := bind_ok hrun
      split at hrun
      · obtain ⟨rows, hrows, hrun⟩ := bind_ok hrun
        exact verify_derived hn₀ hl₀ hrows hrun hcreated he hn hl
      · obtain ⟨v, hv, r, hr, hmatches⟩ := verify_ingested hsha hn₀ hrun hcreated he
        exact ⟨v, hv, r, hr, hmatches.mpr fun keys hkeys => by cases hkeys⟩
    obtain ⟨v, hv, r, hr, hmatches⟩ := hverified
    exact ⟨v, hv, r, hr, fun _ => trivial, fun _ => hmatches⟩

/-! ## A version that only deletes -/

/-- What a materialization of one delete sends: no rows, no keys, and the deleted key. -/
def deletion : IngestCall where
  dataset := "kpi"
  version := "cdc-000001-000001"
  frame := ⟨[("__observed_at", "object")], []⟩
  kind := .cdc
  timestamps := .ok (⟨[], []⟩, [])
  rowsKept := by
    rintro features observedAt h
    cases h
    rfl
  recordKeys := some []
  deletedKeys := ["7"]

def noObjects : DataAccess where
  port := ⟨fun uri => .error (datasetNotFoundError "the referenced data file does not exist" [("uri", .str uri)]),
    fun _ _ => .ok "csv", fun _ _ _ => .ok [], fun _ _ _ _ => .ok []⟩

theorem noObjects_unchanged : noObjects.port.Unchanged := by
  intro uri stat h
  cases h

theorem deletion_created : ∃ info db, deletion.run id {} = .ok (info, db) ∧ info.created = true := by
  have hcreate : ({} : Datastore).create (deletion.new id ⟨[], []⟩ []) = _ := Datastore.create_free rfl rfl rfl
  exact ⟨_, _, hcreate, rfl⟩

/-- The deletion, materialized and never touched again, does not verify. -/
theorem deletion_not_verified : ∃ info db v r, (ingest deletion).run id noObjects {} = .ok (info, db) ∧
    info.created = true ∧ db.version? info.dataVersionId = some v ∧ noObjects.verify id db v = .ok r ∧
    r.matches_ = false := by
  obtain ⟨info, db, hrun, hcreated⟩ := deletion_created
  obtain ⟨v, hv, r, hr, hmatches⟩ :=
    verify_ingested Function.injective_id Datastore.numbered_empty hrun hcreated (.refl db)
  refine ⟨info, db, v, r, hrun, hcreated, hv, hr, ?_⟩
  rw [← Bool.not_eq_true, hmatches]
  intro h
  obtain ⟨k, hk, -⟩ := h [] rfl
  cases hk

end Creation

/-! ## An object between two other versions -/

def reading (x : Int) : Payload := ⟨[("x", .int x)], .obj (List.pairwise_singleton _ _) fun f hf => by
  rw [List.mem_singleton.mp hf]
  exact .int x⟩

def turned : List (DateTime × Payload) := [(VersionCall.atHour 13, reading 1), (VersionCall.atHour 12, reading 2)]

def turnedInline : IngestCall where
  dataset := "kpi"
  version := "inline"
  frame := ⟨[("ts", "object"), ("x", "int64")], turned.map Prod.snd⟩
  kind := .historical
  timestamps := .ok (⟨[("x", "int64")], turned.map Prod.snd⟩, turned.map Prod.fst)
  rowsKept := by
    rintro features observedAt h
    cases h
    rfl

def turnedObject : DataAccess.RegisterCall where
  dataset := "kpi"
  version := "by-reference"
  uri := "file:///data/kpi.csv"
  kind := .historical

def turnedAccess : DataAccess where
  port := ⟨fun uri => .ok ⟨uri, some "87-1714521600"⟩, fun _ _ => .ok "csv", fun _ _ _ => .ok [("x", "int64")],
    fun _ _ _ _ => .ok turned⟩

theorem turned_unchanged : turnedAccess.port.Unchanged := by
  intro uri stat h
  cases h
  exact ⟨_, rfl, rfl⟩

def turnedSent : Sent := ⟨turned.map Prod.fst, turned.map Prod.snd, none, []⟩

def turnedNew : NewVersion := turnedInline.new id ⟨[("x", "int64")], turned.map Prod.snd⟩ (turned.map Prod.fst)

def turnedScan : DataAccess.ReferenceScan :=
  ⟨⟨"file:///data/kpi.csv", "file:///data/kpi.csv", some "87-1714521600", "csv", "observed_at"⟩, [("x", "int64")], 2,
    rowsDigest id turned⟩

def turnedStore : Datastore := (({} : Datastore).getOrCreateDataset "kpi").add turnedNew none

theorem turned_sent : (VersionCall.ingest turnedInline).sent id = .ok turnedSent := rfl

theorem turned_scanned :
    (VersionCall.register turnedAccess turnedObject).sent id = .ok turnedSent := by
  have hscan : turnedAccess.scan id turnedObject.uri turnedObject.fmt turnedObject.timestampColumn = .ok turnedScan := rfl
  rw [VersionCall.sent, hscan]
  rfl

theorem turned_plain : ∀ r ∈ turnedSent.rows, "observed_at" ∉ r.2.keys := by
  intro r hr
  simp only [turnedSent, Sent.rows, turned, List.map_cons, List.map_nil, List.zip_cons_cons, List.zip_nil_right,
    List.mem_cons, List.not_mem_nil, or_false] at hr
  rcases hr with rfl | rfl <;> decide

/-- An object registered after an inline version and before a deletion of the same dataset still verifies. -/
theorem Creation.verify_unaltered_object : ∃ info db₀ db₁ db v r, Steps (Datastore.step id) Free {} db₀ ∧
    db₀.versions.length = 1 ∧ (register turnedObject).run id turnedAccess db₀ = .ok (info, db₁) ∧
    Steps (Datastore.step id) Free db₁ db ∧ db.versions.length = 3 ∧ db.version? info.dataVersionId = some v ∧
    turnedAccess.verify id db v = .ok r ∧ r.matches_ = true := by
  have hcreate : ({} : Datastore).create turnedNew = .ok (_, turnedStore) := Datastore.create_free rfl rfl rfl
  have hfirst : turnedInline.run id {} = .ok (_, turnedStore) := hcreate
  have hpast := Steps.tail (C := Free) (.refl _) trivial (Datastore.step_ingest hfirst)
  have hcreate' : turnedStore.create (turnedObject.new turnedScan) = _ := Datastore.create_free rfl rfl rfl
  have hobject : (register turnedObject).run id turnedAccess turnedStore = _ := hcreate'
  have hcreate'' : ((turnedStore.getOrCreateDataset "kpi").add (turnedObject.new turnedScan) none).create
      (deletion.new id ⟨[], []⟩ []) = _ := Datastore.create_free rfl rfl rfl
  have hlast : deletion.run id ((turnedStore.getOrCreateDataset "kpi").add (turnedObject.new turnedScan) none) =
    _ := hcreate''
  have hlater := Steps.tail (C := Free) (.refl _) trivial (Datastore.step_ingest hlast)
  obtain ⟨v, hv, r, hr, hmatches⟩ :=
    verify_unaltered (c := register turnedObject) Function.injective_id turned_unchanged hpast hobject rfl hlater
  refine ⟨_, _, _, _, v, r, hpast, rfl, hobject, hlater, rfl, hv, hr, hmatches.mpr fun s hs => ?_⟩
  have hsent := turned_scanned.symm.trans hs
  cases hsent
  exact fun row hrow hkeys => absurd hkeys (turned_plain row hrow)

end OranAdapt
