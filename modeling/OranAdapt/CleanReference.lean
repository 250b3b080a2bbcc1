import OranAdapt.TrainedSnapshot

/-!
# What cleaning means

The rows cleaning should return, said without its loop: of each key the newest
row, unless a later one of the job's versions deletes the key, rows without a
key, no two that look the same, none without a required value, in the order of
time. The code looks for deletions among the versions of the rows it is given,
so a version that only deletes has no say.
-/

namespace OranAdapt

open Newest Runs

namespace Cleaning

/-- The row should stay: it has no key, or is the newest of its key and no later source version deletes the key. -/
structure Alive (versions : List DataVersion) (sources : List Nat) (records : List Row) (r : Row) : Prop where
  newest : ∀ key, r.recordKey = some key → ∀ t ∈ records, t.recordKey = some key → t.rank ≤ r.rank
  undeleted : ∀ key, r.recordKey = some key → ∀ v ∈ versions, v.id ∈ sources →
    key ∈ v.deletedKeys → v.id ≤ r.dataVersionId

/-- The rows that should be returned. -/
structure Meaning (versions : List DataVersion) (sources : List Nat) (required : List String) (records out : List Row) :
    Prop where
  rows : ∀ r ∈ out, r ∈ records ∧ Alive versions sources records r ∧ required.any r.lacks = false
  once : (out.map Row.pair).Nodup
  complete : ∀ r ∈ records, Alive versions sources records r → required.any r.lacks = false →
    r.pair ∈ out.map Row.pair
  sorted : out.Pairwise Row.le

structure Cleans (db : Datastore) (sources : List Nat) (required : List String) (records : List Row) : Prop where
  meaning : ∀ records', records'.Perm records →
    Meaning db.versions sources required records' (cleanRecords db records' required).records
  order : ∀ records', records'.Perm records → ∀ pair,
    pair ∈ (cleanRecords db records' required).records.map Row.pair ↔
    pair ∈ (cleanRecords db records required).records.map Row.pair
  again : (cleanRecords db (cleanRecords db records required).records required).records =
    (cleanRecords db records required).records
  counts : ∀ quality, quality = (cleanRecords db records required).quality → quality.conflictsResolved +
    quality.deletedRemoved + quality.duplicatesRemoved + quality.schemaRejected + quality.outputRows = quality.inputRows

/-- Where the newest row of a key is deleted by a later source version, and has every required
value, one that deletes it has rows among those given. -/
def DeletionsSeen (versions : List DataVersion) (sources : List Nat) (required : List String) (records : List Row) : Prop :=
  ∀ r ∈ records, ∀ key, r.recordKey = some key → (∀ t ∈ records, t.recordKey = some key → t.rank ≤ r.rank) →
    required.any r.lacks = false → (∃ v ∈ versions, v.id ∈ sources ∧ key ∈ v.deletedKeys ∧
      r.dataVersionId < v.id) →
    ∃ w ∈ versions, w.id ∈ records.map Row.dataVersionId ∧ key ∈ w.deletedKeys ∧ r.dataVersionId < w.id

/-! ## What the code keeps -/

/-- The row stays, as the code sees it. -/
structure Stays (versions : List DataVersion) (records : List Row) (r : Row) : Prop where
  newest : ∀ key, r.recordKey = some key → ∀ t ∈ records, t.recordKey = some key → t.rank ≤ r.rank
  undeleted : ∀ key, r.recordKey = some key → deletedIn versions records key ≤ r.dataVersionId

/-- The rows of one version are told apart by their ids. -/
def Identified (records : List Row) : Prop :=
  ∀ r ∈ records, ∀ t ∈ records, r.dataVersionId = t.dataVersionId → r.id = t.id → r = t

variable {db : Datastore} {versions : List DataVersion} {records records' : List Row} {required : List String}
  {sources : List Nat} {r t : Row}

theorem pair_of_signature (h : r.signature = t.signature) : r.pair = t.pair := by
  obtain ⟨htime, htext⟩ := Prod.mk.inj h
  have hfields := Json.dumps_inj r.payload.wellFormed t.payload.wellFormed htext
  exact Prod.ext (DateTime.isoformat_inj htime) (Payload.ext (Json.obj.inj hfields))

theorem lacks_of_pair (h : r.pair = t.pair) : required.any r.lacks = required.any t.lacks := by
  have hpayload : r.payload = t.payload := (Prod.mk.inj h).2
  congr 1
  funext column
  rw [Row.lacks, Row.lacks, hpayload]

theorem deletedIn_le {key : String} {n : Nat} (h : ∀ v ∈ versions, v.id ∈ records.map Row.dataVersionId →
    key ∈ v.deletedKeys → v.id ≤ n) : deletedIn versions records key ≤ n := by
  have hmax : ∀ (l : List Nat) (m : Nat), m ≤ n → (∀ a ∈ l, a ≤ n) → l.foldl max m ≤ n := by
    intro l
    induction l with
    | nil => exact fun m hm _ => hm
    | cons a l ih =>
      intro m hm hall
      exact ih _ (Nat.max_le.mpr ⟨hm, hall a List.mem_cons_self⟩) fun b hb => hall b (List.mem_cons_of_mem _ hb)
  apply hmax _ 0 (Nat.zero_le n)
  intro a ha
  obtain ⟨v, hv, rfl⟩ := List.mem_map.mp ha
  obtain ⟨hv, hdeletes⟩ := List.mem_filter.mp hv
  have hboth := of_decide_eq_true hdeletes
  exact h v hv hboth.1 hboth.2

theorem deletedIn_perm (h : records'.Perm records) (key : String) :
    deletedIn versions records' key = deletedIn versions records key := by
  unfold deletedIn
  simp only [(h.map Row.dataVersionId).mem_iff]

theorem Stays.perm (h : Stays versions records r) (hperm : records'.Perm records) : Stays versions records' r where
  newest key hkey t ht := h.newest key hkey t (hperm.mem_iff.mp ht)
  undeleted key hkey := by
    rw [deletedIn_perm hperm]
    exact h.undeleted key hkey

theorem stays_of_kept {p : PlacedRow} (hp : p ∈ (run versions records required).kept) : Stays versions records p.1 := by
  have hkept := kept_run versions records required
  have hmem := hkept.sublist.subset hp
  constructor
  · intro key hkey t ht htkey
    have hnewest := newestOf_of_kept hmem hkey (hkept.fine p hp).1
    obtain ⟨i, hi⟩ := placed_of_mem ht
    exact rank_le_newest hnewest hi htkey
  · intro key hkey
    have halive := (hkept.fine p hp).2.1
    rw [deleted, hkey] at halive
    exact Nat.le_of_not_lt (of_decide_eq_false halive)

theorem Stays.placed (hid : Identified records) (h : Stays versions records r) (hr : r ∈ records) :
    ∃ i, (r, i) ∈ records.zipIdx ∧ superseded records (r, i) = false ∧ deleted versions records (r, i) = false := by
  obtain ⟨i, hi⟩ := placed_of_mem hr
  cases hkey : r.recordKey with
  | none => exact ⟨i, hi, by simp [superseded, hkey], by simp [deleted, hkey]⟩
  | some key =>
    obtain ⟨n, hn⟩ := @exists_newest PlacedRow String _ _ _ (fun p => p.1.recordKey)
      (fun p => p.1.rank) key _ (r, i) hi hkey
    obtain ⟨hmem, hnkey⟩ := newest_mem hn
    have hof : newestOf records key = some n := hn
    have hrank : n.1.rank = r.rank :=
      le_antisymm (h.newest key hkey n.1 (mem_of_placed hmem) hnkey) (rank_le_newest hof hi hkey)
    have hparts := Prod.mk.inj (toLex.injective hrank)
    have hsame : n.1 = r := hid n.1 (mem_of_placed hmem) r hr hparts.1 (Prod.mk.inj (toLex.injective hparts.2)).2
    refine ⟨n.2, by rwa [← hsame], ?_, ?_⟩
    · simp [superseded, hkey, hof]
    · simp [deleted, hkey, h.undeleted key hkey]

theorem mem_cleaned : r ∈ (cleanRecords db records required).records ↔
    ∃ i, (r, i) ∈ (run db.versions records required).kept := by
  rw [(records_perm db records required).mem_iff, List.mem_map]
  constructor
  · rintro ⟨⟨r', i⟩, hp, rfl⟩
    exact ⟨i, hp⟩
  · rintro ⟨i, hp⟩
    exact ⟨(r, i), hp, rfl⟩

theorem mem_pairs (hid : Identified records) {pair : DateTime × Payload} :
    pair ∈ (cleanRecords db records required).records.map Row.pair ↔
      ∃ r ∈ records, r.pair = pair ∧ Stays db.versions records r ∧ required.any r.lacks = false := by
  have hkept := kept_run db.versions records required
  have hthrough := through_run db.versions records required
  rw [List.mem_map]
  constructor
  · rintro ⟨r, hr, rfl⟩
    obtain ⟨i, hp⟩ := mem_cleaned.mp hr
    exact ⟨r, mem_of_placed (hkept.sublist.subset hp), rfl, stays_of_kept hp, (hkept.fine _ hp).2.2⟩
  · rintro ⟨r, hr, rfl, hstays, hlacks⟩
    obtain ⟨i, hi, hsuperseded, hdeleted⟩ := hstays.placed hid hr
    have hseen : r.signature ∈ (run db.versions records required).seen := by
      rcases hthrough.through _ hi with habsurd | habsurd | hseen
      · rw [hsuperseded] at habsurd
        cases habsurd
      · rw [hdeleted] at habsurd
        cases habsurd
      · exact hseen
    rcases hthrough.seen _ hseen with ⟨q, hq, hsig⟩ | ⟨q, hq, hsig, hnull⟩
    · exact ⟨q.1, mem_cleaned.mpr ⟨q.2, hq⟩, pair_of_signature hsig⟩
    · rw [lacks_of_pair (pair_of_signature hsig), hlacks] at hnull
      cases hnull

/-! ## Cleaning again -/

theorem zipIdx_signatures (records : List Row) :
    records.zipIdx.map (fun p : PlacedRow => p.1.signature) = records.map Row.signature := by
  conv_rhs => rw [← zipIdx_map_fst records, List.map_map]
  rfl

theorem run_all (hstay : ∀ p ∈ records.zipIdx, superseded records p = false ∧ deleted versions records p = false)
    (hpresent : ∀ r ∈ records, required.any r.lacks = false) (hsigs : (records.map Row.signature).Nodup) :
    (run versions records required).kept = records.zipIdx := by
  have hkept := kept_run versions records required
  have hthrough := through_run versions records required
  rw [← zipIdx_signatures] at hsigs
  have hall : records.zipIdx ⊆ (run versions records required).kept := by
    intro p hp
    have hseen : p.1.signature ∈ (run versions records required).seen := by
      rcases hthrough.through p hp with habsurd | habsurd | hseen
      · simp [(hstay p hp).1] at habsurd
      · simp [(hstay p hp).2] at habsurd
      · exact hseen
    rcases hthrough.seen _ hseen with ⟨q, hq, hsig⟩ | ⟨q, hq, -, hlacks⟩
    · have hsame : q = p := List.inj_on_of_nodup_map hsigs (hkept.sublist.subset hq) hp hsig
      rwa [← hsame]
    · rw [hpresent q.1 (mem_of_placed hq)] at hlacks
      cases hlacks
  have hlength := (List.subperm_of_subset (List.Nodup.of_map _ (zipIdx_nodup records)) hall).length_le
  exact hkept.sublist.eq_of_length_le hlength

theorem cleaned_once {key : String} (hr : r ∈ (cleanRecords db records required).records)
    (ht : t ∈ (cleanRecords db records required).records) (hrkey : r.recordKey = some key)
    (htkey : t.recordKey = some key) :
    r = t := by
  obtain ⟨i, hi⟩ := mem_cleaned.mp hr
  obtain ⟨j, hj⟩ := mem_cleaned.mp ht
  exact congrArg Prod.fst (kept_unique hi hj hrkey htkey)

theorem cleaned_alive (hr : r ∈ (cleanRecords db records required).records) :
    Stays db.versions records r ∧ required.any r.lacks = false := by
  obtain ⟨i, hi⟩ := mem_cleaned.mp hr
  exact ⟨stays_of_kept hi, ((kept_run db.versions records required).fine _ hi).2.2⟩

theorem cleanRecords_again (db : Datastore) (records : List Row) (required : List String) :
    (cleanRecords db (cleanRecords db records required).records required).records =
      (cleanRecords db records required).records := by
  have hsigs : ((cleanRecords db records required).records.map Row.signature).Nodup := records_signatures
  have hstay : ∀ p ∈ (cleanRecords db records required).records.zipIdx,
      superseded (cleanRecords db records required).records p = false ∧
        deleted db.versions (cleanRecords db records required).records p = false := by
    intro p hp
    have hmem := mem_of_placed hp
    cases hkey : p.1.recordKey with
    | none => exact ⟨by simp [superseded, hkey], by simp [deleted, hkey]⟩
    | some key =>
      constructor
      · obtain ⟨n, hn⟩ := @exists_newest PlacedRow String _ _ _ (fun p => p.1.recordKey)
          (fun p => p.1.rank) key _ p hp hkey
        obtain ⟨hnmem, hnkey⟩ := newest_mem hn
        have hsame : n.1 = p.1 := cleaned_once (mem_of_placed hnmem) hmem hnkey hkey
        rw [← zipIdx_signatures] at hsigs
        have hplace : n = p := List.inj_on_of_nodup_map hsigs hnmem hp (congrArg Row.signature hsame)
        have hof : newestOf (cleanRecords db records required).records key = some n := hn
        simp [superseded, hkey, hof, hplace]
      · have hold := (cleaned_alive hmem).1.undeleted key hkey
        have hless : deletedIn db.versions (cleanRecords db records required).records key ≤ p.1.dataVersionId := by
          apply deletedIn_le
          intro v hv hrow hdeletes
          obtain ⟨q, hq, hid⟩ := List.mem_map.mp hrow
          have hread : v.id ∈ records.map Row.dataVersionId := List.mem_map.mpr ⟨q, records_loaded hq, hid⟩
          exact (le_deletedIn hv hread hdeletes).trans hold
        simp [deleted, hkey, hless]
  have hrun := run_all hstay (fun r hr => (cleaned_alive hr).2) hsigs
  have hrecords : (cleanRecords db (cleanRecords db records required).records required).records =
      sortRows ((run db.versions (cleanRecords db records required).records required).kept.map Prod.fst) := rfl
  rw [hrecords, hrun, zipIdx_map_fst]
  exact sortRows_sortRows _

theorem cleaned_counts (db : Datastore) (records : List Row) (required : List String) :
    ∀ quality, quality = (cleanRecords db records required).quality → quality.conflictsResolved + quality.deletedRemoved +
      quality.duplicatesRemoved + quality.schemaRejected + quality.outputRows = quality.inputRows := by
  rintro _ rfl
  have hcounted := (kept_run db.versions records required).counted
  rw [List.length_zipIdx] at hcounted
  simp only [cleanRecords]
  omega

theorem cleaned_order (hid : Identified records) (hperm : records'.Perm records) (pair : DateTime × Payload) :
    pair ∈ (cleanRecords db records' required).records.map Row.pair ↔
      pair ∈ (cleanRecords db records required).records.map Row.pair := by
  have hid' : Identified records' := fun r hr t ht => hid r (hperm.mem_iff.mp hr) t (hperm.mem_iff.mp ht)
  rw [mem_pairs hid', mem_pairs hid]
  constructor
  · rintro ⟨r, hr, hpair, hstays, hlacks⟩
    exact ⟨r, hperm.mem_iff.mp hr, hpair, hstays.perm hperm.symm, hlacks⟩
  · rintro ⟨r, hr, hpair, hstays, hlacks⟩
    exact ⟨r, hperm.mem_iff.mpr hr, hpair, hstays.perm hperm, hlacks⟩

/-! ## Deletions without rows -/

theorem DeletionsSeen.perm (h : DeletionsSeen versions sources required records) (hperm : records'.Perm records) :
    DeletionsSeen versions sources required records' := by
  intro r hr key hkey hnewest hlacks hdeleted
  obtain ⟨w, hw, hrow, hdeletes, hlater⟩ := h r (hperm.mem_iff.mp hr) key hkey
    (fun t ht => hnewest t (hperm.mem_iff.mpr ht)) hlacks hdeleted
  exact ⟨w, hw, (hperm.map Row.dataVersionId).mem_iff.mpr hrow, hdeletes, hlater⟩

theorem meaning_of_seen (hsource : ∀ r ∈ records, r.dataVersionId ∈ sources) (hid : Identified records)
    (h : DeletionsSeen db.versions sources required records) :
    Meaning db.versions sources required records (cleanRecords db records required).records where
  rows r hr := by
    have hmem := records_loaded hr
    obtain ⟨hstays, hlacks⟩ := cleaned_alive hr
    refine ⟨hmem, ⟨hstays.newest, ?_⟩, hlacks⟩
    intro key hkey v hv hin hdeletes
    by_contra hlater
    obtain ⟨w, hw, hrow, hwdeletes, hwlater⟩ := h r hmem key hkey (hstays.newest key hkey) hlacks
      ⟨v, hv, hin, hdeletes, Nat.lt_of_not_le hlater⟩
    have hold := (le_deletedIn hw hrow hwdeletes).trans (hstays.undeleted key hkey)
    omega
  once := by
    apply List.Nodup.of_map (fun pair : DateTime × Payload => (pair.1.isoformat, (Json.obj pair.2.fields).dumps))
    rw [List.map_map]
    exact records_signatures
  complete r hr halive hlacks := by
    refine (mem_pairs hid).mpr ⟨r, hr, rfl, ⟨halive.newest, ?_⟩, hlacks⟩
    intro key hkey
    apply deletedIn_le
    intro v hv hrow hdeletes
    obtain ⟨q, hq, heq⟩ := List.mem_map.mp hrow
    exact halive.undeleted key hkey v hv (by rw [← heq]; exact hsource q hq) hdeletes
  sorted := sortRows_pairwise _

theorem kept_grows (p : PlacedRow) (rest : List PlacedRow) : ∀ s : Loop, p ∈ s.kept →
    p ∈ (rest.foldl (Loop.step versions records required) s).kept := by
  induction rest with
  | nil => exact fun s hp => hp
  | cons q rest ih =>
    intro s hp
    apply ih
    unfold Loop.step
    split
    · exact hp
    split
    · exact hp
    split
    · exact hp
    split
    · exact hp
    · exact List.mem_append_left _ hp

theorem first_kept (hstays : Stays db.versions (r :: records) r) (hlacks : required.any r.lacks = false) :
    r ∈ (cleanRecords db (r :: records) required).records := by
  rw [mem_cleaned]
  refine ⟨0, ?_⟩
  have hsuperseded : superseded (r :: records) (r, 0) = false := by
    cases hkey : r.recordKey with
    | none => simp [superseded, hkey]
    | some key =>
      have hnewest : newestOf (r :: records) key = some (r, 0) := by
        unfold newestOf newest
        rw [List.zipIdx_cons, List.foldl_cons]
        have hnext : next (fun p : PlacedRow => p.1.recordKey) (fun p => p.1.rank) key none (r, 0) = some (r, 0) := by
          simp [next, hkey]
        rw [hnext]
        apply foldl_of_le
        intro q hq hqkey
        have hmem : q.1 ∈ records := by
          have hfst := List.mem_map_of_mem (f := Prod.fst) hq
          rwa [List.zipIdx_map_fst] at hfst
        exact hstays.newest key hkey q.1 (List.mem_cons_of_mem _ hmem) hqkey
      simp [superseded, hkey, hnewest]
  have hdeleted : deleted db.versions (r :: records) (r, 0) = false := by
    cases hkey : r.recordKey with
    | none => simp [deleted, hkey]
    | some key => simp [deleted, hkey, hstays.undeleted key hkey]
  unfold run
  rw [List.zipIdx_cons, List.foldl_cons]
  apply kept_grows
  simp [Loop.step, hsuperseded, hdeleted, hlacks]

theorem seen_of_meaning (h : ∀ records', records'.Perm records →
    Meaning db.versions sources required records' (cleanRecords db records' required).records) :
    DeletionsSeen db.versions sources required records := by
  intro r hr key hkey hnewest hlacks hdeleted
  obtain ⟨v, hv, hin, hdeletes, hlater⟩ := hdeleted
  by_contra hunseen
  have hstays : Stays db.versions records r := by
    constructor
    · intro key' hkey' t ht htkey
      rw [hkey, Option.some.injEq] at hkey'
      subst hkey'
      exact hnewest t ht htkey
    · intro key' hkey'
      rw [hkey, Option.some.injEq] at hkey'
      subst hkey'
      apply deletedIn_le
      intro w hw hrow hwdeletes
      by_contra hwlater
      exact hunseen ⟨w, hw, hrow, hwdeletes, Nat.lt_of_not_le hwlater⟩
  -- the row is put in front, where nothing can look the same before it
  obtain ⟨before, after, rfl⟩ := List.append_of_mem hr
  have hperm : (r :: (before ++ after)).Perm (before ++ r :: after) := List.perm_middle.symm
  have hout := first_kept (hstays.perm hperm) hlacks
  have hkept := ((h _ hperm).rows r hout).2.1.undeleted key hkey v hv hin hdeletes
  omega

/-- The rows of a job's versions are cleaned as they should be exactly where the deletions that
matter are made by versions with rows. -/
theorem cleans_iff {sha256 : String → String} {access : DataAccess} (hpast : Steps (Datastore.step sha256) Free {} db)
    (hrows : ∀ r ∈ records, r.dataVersionId ∈ sources ∧ r ∈ access.rowsOf sha256 db r.dataVersionId) :
    Cleans db sources required records ↔ DeletionsSeen db.versions sources required records := by
  have hnumbered : db.RecordsNumbered := Datastore.steps_recordsNumbered hpast rfl
  have hid : Identified records := by
    intro r hr t ht hversion hrow
    have htow := (hrows t ht).2
    rw [← hversion] at htow
    exact List.inj_on_of_nodup_map (DataAccess.rowsOf_nodup hnumbered) (hrows r hr).2 htow hrow
  constructor
  · intro h
    exact seen_of_meaning h.meaning
  · intro h
    refine ⟨?_, fun records' hperm pair => cleaned_order hid hperm pair, cleanRecords_again db records required,
      cleaned_counts db records required⟩
    intro records' hperm
    refine meaning_of_seen (fun r hr => (hrows r (hperm.mem_iff.mp hr)).1) ?_ (h.perm hperm)
    intro r hr t ht
    exact hid r (hperm.mem_iff.mp hr) t (hperm.mem_iff.mp ht)

/-- Deletions are seen where each version that makes one has rows among those given. -/
theorem seen_of_rows {versions : List DataVersion}
    (h : ∀ v ∈ versions, v.deletedKeys = [] ∨ v.id ∈ records.map Row.dataVersionId) :
    DeletionsSeen versions sources required records := by
  rintro r - key - - - ⟨v, hv, -, hdeletes, hlater⟩
  rcases h v hv with hnone | hrow
  · rw [hnone] at hdeletes
    cases hdeletes
  · exact ⟨v, hv, hrow, hdeletes, hlater⟩

open TrainingInputs

/-- A second version corrects the row of key 8 and deletes key 7, a third repeats the row of key 9. -/
def correctedLater : List DatastoreCall :=
  [.ingest { sampled "v1" .cdc [(VersionCall.atHour 0, sample 1 4), (VersionCall.atHour 1, sample 2 5)] with
      recordKeys := some [some "7", some "8"] },
    .ingest { sampled "v2" .cdc [(VersionCall.atHour 2, sample 3 6), (VersionCall.atHour 3, sample 4 7)] with
      recordKeys := some [some "8", some "9"], deletedKeys := ["7"] },
    .ingest (sampled "v3" .drifted [(VersionCall.atHour 3, sample 4 7)])]

def sourceRows (db : Datastore) : List Row := [1, 2, 3].flatMap (Creation.noObjects.rowsOf id db)

def sourcesCleaned (db : Datastore) : Bool :=
  decide ((cleanRecords db (sourceRows db) []).quality = ⟨5, 1, 1, 1, 0, 2⟩) &&
    ([1, 2, 3].all fun n => (Creation.noObjects.rowsOf id db n).all fun r => decide (r.dataVersionId = n)) &&
    db.versions.all fun v => decide (v.deletedKeys = [] ∨ v.id ∈ (sourceRows db).map Row.dataVersionId)

/-- Of five rows a superseded one, a deleted one and a repeated one go, as they should. -/
theorem cleans_undeleted : ∃ db, Steps (Datastore.step id) Free {} db ∧
    (cleanRecords db (sourceRows db) []).quality = ⟨5, 1, 1, 1, 0, 2⟩ ∧ Cleans db [1, 2, 3] [] (sourceRows db) := by
  obtain ⟨db, hsteps, hp⟩ :=
    Steps.exists_of_runs (Datastore.step id) Free {} correctedLater sourcesCleaned (by decide +kernel)
  simp only [sourcesCleaned, Bool.and_eq_true, decide_eq_true_eq, List.all_eq_true] at hp
  obtain ⟨⟨hquality, hversions⟩, hseen⟩ := hp
  have hrows : ∀ r ∈ sourceRows db, r.dataVersionId ∈ [1, 2, 3] ∧
      r ∈ Creation.noObjects.rowsOf id db r.dataVersionId := by
    intro r hr
    obtain ⟨n, hn, hrow⟩ := List.mem_flatMap.mp hr
    rw [hversions n hn r hrow]
    exact ⟨hn, hrow⟩
  exact ⟨db, hsteps, hquality, (cleans_iff hsteps hrows).mpr (seen_of_rows hseen)⟩

/-! ## A version that only deletes -/

/-- The row of key 7, and its deletion in a version without rows. -/
def deletedLater : List DatastoreCall :=
  [.ingest { sampled "v1" .cdc [(VersionCall.atHour 0, sample 1 4)] with recordKeys := some [some "7"] },
    .ingest { sampled "v2" .cdc [] with recordKeys := some [], deletedKeys := ["7"] }]

def keyedRows (db : Datastore) : List Row := Creation.noObjects.rowsOf id db 1

def deletedUnseen (db : Datastore) : Bool :=
  decide ((keyedRows db).length = 1) && (keyedRows db).all fun r => decide (r.recordKey = some "7" ∧ r.dataVersionId = 1) &&
    (db.versions.any fun v => decide (v.id = 2 ∧ "7" ∈ v.deletedKeys)) &&
    db.versions.all fun v => decide ("7" ∈ v.deletedKeys → v.id = 2)

theorem deletedLater_runs : ∃ db r, Steps (Datastore.step id) Free {} db ∧ keyedRows db = [r] ∧
    r.recordKey = some "7" ∧
    r.dataVersionId = 1 ∧ (∃ v ∈ db.versions, v.id = 2 ∧ "7" ∈ v.deletedKeys) ∧
    ∀ v ∈ db.versions, "7" ∈ v.deletedKeys → v.id = 2 := by
  obtain ⟨db, hsteps, hp⟩ :=
    Steps.exists_of_runs (Datastore.step id) Free {} deletedLater deletedUnseen (by decide +kernel)
  obtain ⟨hlength, hall⟩ := Bool.and_eq_true_iff.mp hp
  obtain ⟨r, hr⟩ := List.length_eq_one_iff.mp (of_decide_eq_true hlength)
  rw [hr] at hall
  simp only [List.all_cons, List.all_nil, Bool.and_true, Bool.and_eq_true, List.any_eq_true, List.all_eq_true,
    decide_eq_true_eq] at hall
  obtain ⟨⟨⟨hkey, hversion⟩, v, hv, hid, hdeletes⟩, honly⟩ := hall
  exact ⟨db, r, hsteps, hr, hkey, hversion, ⟨v, hv, hid, hdeletes⟩, honly⟩

theorem keyedRows_of {db : Datastore} {r : Row} {sources : List Nat} (hrows : keyedRows db = [r])
    (hversion : r.dataVersionId = 1)
    (h : 1 ∈ sources) : ∀ t ∈ keyedRows db, t.dataVersionId ∈ sources ∧
      t ∈ Creation.noObjects.rowsOf id db t.dataVersionId := by
  intro t ht
  have hrow := ht
  rw [hrows, List.mem_singleton] at ht
  rw [ht, hversion]
  rw [ht] at hrow
  exact ⟨h, hrow⟩

/-- Of both versions, the row stays although the second deletes its key. -/
theorem deletion_unseen : ∃ db, Steps (Datastore.step id) Free {} db ∧
    (∀ t ∈ keyedRows db, t.dataVersionId ∈ [1, 2] ∧ t ∈ Creation.noObjects.rowsOf id db t.dataVersionId) ∧
    ¬ Cleans db [1, 2] [] (keyedRows db) := by
  obtain ⟨db, r, hsteps, hrows, hkey, hversion, ⟨v, hv, hid, hdeletes⟩, honly⟩ := deletedLater_runs
  refine ⟨db, hsteps, keyedRows_of hrows hversion (by decide), fun h => ?_⟩
  have hseen := seen_of_meaning h.meaning
  rw [hrows] at hseen
  have hnewest : ∀ t ∈ [r], t.recordKey = some "7" → t.rank ≤ r.rank := by
    intro t ht _
    rw [List.mem_singleton.mp ht]
  have hlater : r.dataVersionId < v.id := by omega
  obtain ⟨w, hw, hrow, hwdeletes, -⟩ := hseen r (by simp) "7" hkey hnewest rfl
    ⟨v, hv, by rw [hid]; decide, hdeletes, hlater⟩
  have htwo := honly w hw hwdeletes
  simp only [List.map_cons, List.map_nil, List.mem_singleton] at hrow
  omega

end Cleaning

end OranAdapt
