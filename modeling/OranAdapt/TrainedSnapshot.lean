import OranAdapt.TrainingRows
import Mathlib.Data.List.Dedup

/-!
# The training snapshot

The snapshot is made of the sources again, without the rows that cleaning kept
and the job did not train on. So it is what the job trained on exactly when
cleaning had nothing to remove, each row of the sources was loaded once, and,
where the snapshot is stored as rows, a frame gives their payloads back.
-/

namespace OranAdapt

open Runs DataAccess

/-! ## Row ids -/

namespace Datastore

/-- Rows are numbered from 1 in the order they are stored. -/
def RecordsNumbered (db : Datastore) : Prop := db.records.map (·.id) = List.range' 1 db.records.length

variable {sha256 : String → String} {db db' : Datastore} {new : NewVersion} {info : DataVersionInfo}

theorem numberRows_map_id (versionId n : Nat) (rows : List (DateTime × Payload × Option String)) :
    (numberRows versionId n rows).map (·.id) = List.range' n rows.length := by
  induction rows generalizing n with
  | nil => rfl
  | cons row rows ih => rw [numberRows, List.map_cons, ih, List.length_cons, List.range'_succ]

theorem SameData.recordsNumbered (h : db.SameData db') (hr : db.RecordsNumbered) : db'.RecordsNumbered := by
  rw [RecordsNumbered, h.records]
  exact hr

theorem add_recordsNumbered (hr : db.RecordsNumbered) (parent : Option Nat) : (db.add new parent).RecordsNumbered := by
  have hlength : (numberRows db.nextVersionId (db.records.length + 1) new.rows).length = new.rows.length := by
    have hids := congrArg List.length (numberRows_map_id db.nextVersionId (db.records.length + 1) new.rows)
    rwa [List.length_map, List.length_range'] at hids
  rw [RecordsNumbered, add, List.map_append, hr, numberRows_map_id, List.length_append, hlength,
    Nat.add_comm db.records.length 1]
  exact List.range'_append_1

theorem step_recordsNumbered {c : DatastoreCall} (hr : db.RecordsNumbered) (h : db.step sha256 c = some db') :
    db'.RecordsNumbered := by
  rcases call_created (ok_of_toOption h) with hsame | ⟨new, info, hcreated, -⟩
  · exact hsame.recordsNumbered hr
  · cases hcreated with
    | replay _ _ hsame => exact hsame.recordsNumbered hr
    | fresh _ hsame => exact hsame.recordsNumbered (add_recordsNumbered hr _)

theorem steps_recordsNumbered (h : Steps (step sha256) Free db db') (hr : db.RecordsNumbered) : db'.RecordsNumbered :=
  h.inv RecordsNumbered (fun _ _ _ hr _ hs => step_recordsNumbered hr hs) hr

theorem RecordsNumbered.nodup (hr : db.RecordsNumbered) : (db.records.map (·.id)).Nodup := by
  rw [hr]
  exact List.nodup_range'

theorem RecordsNumbered.pos (hr : db.RecordsNumbered) {d : DataRecord} (hd : d ∈ db.records) : 0 < d.id := by
  have hmem : d.id ∈ db.records.map (·.id) := List.mem_map_of_mem hd
  rw [hr, List.mem_range'_1] at hmem
  exact hmem.1

end Datastore

namespace DataAccess

variable {sha256 : String → String} {access : DataAccess} {db : Datastore} {id : Nat} {ids : List Nat}

theorem mapIdx_ids {rows : List Row} {versionId : Nat}
    (h : ∀ i (hi : i < rows.length), rows[i].id = externalRowId versionId i) :
    rows.map Row.id = (List.range rows.length).map (externalRowId versionId) := by
  apply List.ext_getElem
  · simp
  · intro i hi _
    rw [List.length_map] at hi
    simp [h i hi]

/-- The rows of a version are rows of the database, or numbered from its id down. -/
theorem rowsOf_ids (sha256 : String → String) (access : DataAccess) (db : Datastore) (id : Nat) :
    (access.rowsOf sha256 db id).Perm ((db.recordsOf id).map DataRecord.row) ∨
    (access.rowsOf sha256 db id).map Row.id = (List.range (access.rowsOf sha256 db id).length).map (externalRowId id) := by
  unfold rowsOf
  cases hv : db.version? id with
  | none => exact .inr rfl
  | some v =>
    dsimp only
    have hid := (Datastore.version?_mem hv).2
    cases hiter : access.iterRows sha256 db v with
    | error e => exact .inr rfl
    | ok rows =>
      rw [show (Except.ok rows : Except AdaptationError (List Row)).toOption.getD [] = rows from rfl]
      unfold iterRows iterRowsTo at hiter
      split at hiter
      · cases hiter
        rw [← hid]
        exact .inl (sortRows_perm _)
      · obtain ⟨_, -, hiter⟩ := bind_ok hiter
        obtain ⟨rehash, -, hiter⟩ := bind_ok hiter
        obtain ⟨read, -, hiter⟩ := bind_ok hiter
        split at hiter
        · cases hiter
        · cases hiter
          right
          rw [← hid]
          apply mapIdx_ids
          intro i hi
          simp [referenceRows]
      · obtain ⟨read, -, hiter⟩ := bind_ok hiter
        cases hiter
        right
        rw [← hid]
        apply mapIdx_ids
        intro i hi
        simp [derivedRows]

theorem externalRowId_inj {versionId i j : Nat} (h : externalRowId versionId i = externalRowId versionId j) : i = j := by
  unfold externalRowId at h
  omega

theorem externalRowId_version {v w i j : Nat} (hi : i < rowIdStride) (hj : j < rowIdStride)
    (h : externalRowId v i = externalRowId w j) : v = w := by
  unfold externalRowId at h
  rw [show rowIdStride = 1099511627776 from rfl] at *
  omega

theorem records_inj (hr : db.RecordsNumbered) {d e : DataRecord} (hd : d ∈ db.records)
    (he : e ∈ db.records) (h : d.id = e.id) :
    d = e :=
  List.inj_on_of_nodup_map hr.nodup hd he h

theorem rowsOf_nodup (hr : db.RecordsNumbered) : ((access.rowsOf sha256 db id).map Row.id).Nodup := by
  rcases rowsOf_ids sha256 access db id with hperm | hids
  · have hnodup : (((db.recordsOf id).map DataRecord.row).map Row.id).Nodup := by
      rw [List.map_map]
      have hsub : (db.recordsOf id).Sublist db.records := List.filter_sublist
      have hids : ((db.recordsOf id).map (·.id)).Nodup := (hsub.map _).nodup hr.nodup
      have hcast := hids.map (f := fun n : Nat => (n : Int)) fun a b h => Int.ofNat.inj h
      rw [List.map_map] at hcast
      exact hcast
    exact (hperm.map Row.id).nodup_iff.mpr hnodup
  · rw [hids]
    exact List.nodup_range.map fun i j h => externalRowId_inj h

/-- Where no version has more rows than its ids can number, no two rows share an id. -/
theorem ids_inj (hr : db.RecordsNumbered)
    (hcap : ∀ id ∈ ids, (access.rowsOf sha256 db id).length ≤ rowIdStride) {r t : Row}
    (hrow : r ∈ ids.flatMap (access.rowsOf sha256 db)) (htow : t ∈ ids.flatMap (access.rowsOf sha256 db))
    (h : r.id = t.id) :
    r = t := by
  obtain ⟨v, hv, hrow⟩ := List.mem_flatMap.mp hrow
  obtain ⟨w, hw, htow⟩ := List.mem_flatMap.mp htow
  have hsame : v = w → r = t := by
    rintro rfl
    exact List.inj_on_of_nodup_map (rowsOf_nodup hr) hrow htow h
  have hexternal : ∀ id, id ∈ ids → ∀ {a : Row}, a ∈ access.rowsOf sha256 db id →
      (∃ d ∈ db.records, a = d.row) ∨ ∃ i < rowIdStride, a.id = externalRowId id i := by
    intro id hid a ha
    rcases rowsOf_ids sha256 access db id with hperm | hids
    · obtain ⟨d, hd, rfl⟩ := List.mem_map.mp (hperm.mem_iff.mp ha)
      exact .inl ⟨d, List.mem_of_mem_filter hd, rfl⟩
    · have hmem : a.id ∈ (access.rowsOf sha256 db id).map Row.id := List.mem_map_of_mem ha
      rw [hids] at hmem
      obtain ⟨i, hi, heq⟩ := List.mem_map.mp hmem
      exact .inr ⟨i, Nat.lt_of_lt_of_le (List.mem_range.mp hi) (hcap id hid), heq.symm⟩
  rcases hexternal v hv hrow with ⟨d, hd, rfl⟩ | ⟨i, hi, hri⟩ <;>
    rcases hexternal w hw htow with ⟨e, he, rfl⟩ | ⟨j, hj, htj⟩
  · have hid : d.id = e.id := Int.ofNat.inj h
    rw [records_inj hr hd he hid]
  · have hpos := hr.pos hd
    have hneg : (d.id : Int) = externalRowId w j := h.trans htj
    unfold externalRowId at hneg
    omega
  · have hpos := hr.pos he
    have hneg : (e.id : Int) = externalRowId v i := h.symm.trans hri
    unfold externalRowId at hneg
    omega
  · exact hsame (externalRowId_version hi hj (hri.symm.trans (h.trans htj)))

/-- Rows of different versions, each version once. -/
theorem flatMap_nodup (hr : db.RecordsNumbered) (hids : ids.Nodup) : (ids.flatMap (access.rowsOf sha256 db)).Nodup := by
  rw [List.nodup_flatMap]
  refine ⟨fun id _ => List.Nodup.of_map _ (rowsOf_nodup hr), ?_⟩
  apply hids.imp
  intro v w hne r hv hw
  exact hne ((rowsOf_id hv).symm.trans (rowsOf_id hw))

end DataAccess

/-! ## What the job trains on -/

theorem holdoutSize_lt {n : Nat} (h : 0 < n) (fraction : Rat) (minRows : Nat) : holdoutSize n fraction minRows < n := by
  unfold holdoutSize
  generalize (n * fraction).ceil = share
  omega

namespace Cleaning

variable {db : Datastore} {loaded : List Row} {required : List String}

theorem records_perm (db : Datastore) (loaded : List Row) (required : List String) :
    (cleanRecords db loaded required).records.Perm ((run db.versions loaded required).kept.map Prod.fst) :=
  sortRows_perm _

theorem records_signatures : ((cleanRecords db loaded required).records.map Row.signature).Nodup := by
  have hperm := (records_perm db loaded required).map Row.signature
  rw [hperm.nodup_iff, List.map_map]
  exact (kept_run db.versions loaded required).signatures

theorem records_loaded {r : Row} (h : r ∈ (cleanRecords db loaded required).records) : r ∈ loaded := by
  obtain ⟨p, hp, rfl⟩ := List.mem_map.mp ((records_perm db loaded required).mem_iff.mp h)
  exact mem_of_placed ((kept_run db.versions loaded required).sublist.subset hp)

theorem Spotless.congr {versions : List DataVersion} {rows rows' : List Row} (hmem : ∀ r, r ∈ rows' ↔ r ∈ rows)
    (h : Spotless versions rows required) : Spotless versions rows' required := by
  have hread : ∀ id, id ∈ rows'.map Row.dataVersionId ↔ id ∈ rows.map Row.dataVersionId := by
    intro id
    simp only [List.mem_map, hmem]
  have hdeleted : ∀ key, deletedIn versions rows' key = deletedIn versions rows key := by
    intro key
    simp only [deletedIn, hread]
  constructor
  · intro r hr t ht key hrkey htkey
    exact h.once r ((hmem r).mp hr) t ((hmem t).mp ht) key hrkey htkey
  · intro r hr key hkey
    rw [hdeleted]
    exact h.alive r ((hmem r).mp hr) key hkey
  · intro r hr t ht hsig
    exact h.distinct r ((hmem r).mp hr) t ((hmem t).mp ht) hsig
  · intro r hr
    exact h.present r ((hmem r).mp hr)

theorem spotless_iff {rows : List Row} (hperm : loaded.Perm rows) :
    Spotless db.versions rows required ↔ ∀ r ∈ rows, r ∈ (cleanRecords db loaded required).records := by
  have hclean : (∀ r ∈ loaded, r ∈ (cleanRecords db loaded required).records) ↔
      Spotless db.versions loaded required :=
    mem_cleanRecords_iff
  constructor
  · intro h r hr
    exact hclean.mpr (h.congr fun r => hperm.mem_iff) r (hperm.mem_iff.mpr hr)
  · intro h
    exact (hclean.mp fun r hr => h r (hperm.mem_iff.mp hr)).congr fun r => hperm.mem_iff.symm

end Cleaning

theorem Leakage.kept_sublist (settings : LeakageSettings) (columns : List String) (holdout train : List Row) :
    (Leakage.kept settings columns holdout train).Sublist train := by
  have hcopies : (Leakage.copies columns holdout train).Sublist train := List.filter_sublist.trans List.filter_sublist
  unfold Leakage.kept Leakage.notNewer
  split
  · exact hcopies
  · split
    · exact hcopies
    · exact List.filter_sublist.trans hcopies

theorem checkLeakage_ok {targetLeaks : List Payload → List String} {train holdout trained : List Row} {target : String}
    {featureNames : List String} {settings : LeakageSettings} {report : LeakageReport}
    (h : checkLeakage targetLeaks train holdout target featureNames settings = .ok (trained, report)) :
    trained.Sublist train ∧ (trained = train ∨ trained ≠ []) := by
  unfold checkLeakage at h
  split at h
  · cases h
    exact ⟨List.Sublist.refl _, .inl rfl⟩
  dsimp only at h
  split at h
  · cases h
  split at h
  · cases h
  · rename_i hnonempty
    cases h
    exact ⟨Leakage.kept_sublist _ _ _ _, .inr hnonempty⟩

/-- What a job did with the rows that cleaning kept. -/
structure TrainingRows.From (rows : TrainingRows) (records : List Row) : Prop where
  sublist : rows.trained.Sublist records
  unseen : ∀ r ∈ rows.trained, r.id ∉ rows.holdout.map Row.id
  heldOut : ∀ r ∈ rows.holdout, r ∈ records
  excluded : ∀ id, id ∈ rows.excluded ↔ id ∈ records.map Row.id ∧ id ∉ rows.trained.map Row.id
  nonempty : (records.map Row.id).Nodup → rows.trained ≠ []

namespace TrainingInputs

variable {sha256 : String → String} {access : DataAccess} {job : TrainingInputs} {db : Datastore} {rows : TrainingRows}

theorem left_over (job : TrainingInputs) {records : List Row} (hne : records ≠ []) (hids : (records.map Row.id).Nodup) :
    ∃ r ∈ records, r.id ∉ (job.holdout records).map Row.id := by
  by_cases hpool : job.pool records = []
  · obtain ⟨r, hr⟩ := List.exists_mem_of_ne_nil _ hne
    refine ⟨r, hr, ?_⟩
    simp [holdout, hpool]
  · obtain ⟨r, rest, hcons⟩ := List.exists_cons_of_ne_nil hpool
    have hpos : 0 < (job.pool records).length := List.length_pos_of_ne_nil hpool
    have hlt := holdoutSize_lt hpos job.holdoutFraction job.minRows
    have hsub : (job.pool records).Sublist records := List.filter_sublist
    have hnodup : ((job.pool records).map Row.id).Nodup := (hsub.map Row.id).nodup hids
    refine ⟨r, hsub.subset (by simp [hcons]), ?_⟩
    -- the pool's first row is before the rows held out
    have hdrop : (job.holdout records).Sublist rest := by
      obtain ⟨k, hk⟩ : ∃ k, (job.pool records).length -
        holdoutSize (job.pool records).length job.holdoutFraction job.minRows =
          k + 1 := ⟨_, (Nat.succ_pred_eq_of_pos (by omega)).symm⟩
      rw [holdout, hk, hcons, List.drop_succ_cons]
      exact List.drop_sublist k rest
    rw [hcons, List.map_cons, List.nodup_cons] at hnodup
    intro hmem
    exact hnodup.1 ((hdrop.map Row.id).subset hmem)

theorem run_ok (h : job.run sha256 access db = .ok rows) :
    ∃ loaded, access.loadRecords sha256 db job.trainIds = .ok loaded ∧
    rows.From (cleanRecords db loaded [job.target]).records := by
  obtain ⟨loaded, hload, h⟩ := bind_ok h
  refine ⟨loaded, hload, ?_⟩
  dsimp only at h
  generalize (cleanRecords db loaded [job.target]).records = records at h ⊢
  split at h
  · cases h
  rename_i hne
  obtain ⟨⟨trained, report⟩, hcheck, h⟩ := bind_ok h
  cases h
  obtain ⟨hsub, hall⟩ := checkLeakage_ok hcheck
  have htrain : ∀ r ∈ trained, r.id ∉ (job.holdout records).map Row.id := by
    intro r hr
    exact of_decide_eq_true (List.mem_filter.mp (hsub.subset hr)).2
  constructor
  · exact hsub.trans List.filter_sublist
  · exact htrain
  · intro r hr
    exact List.mem_of_mem_filter (List.mem_of_mem_drop hr)
  · intro id
    rw [List.mem_dedup, List.mem_filter, decide_eq_true_eq]
  · intro hids
    rcases hall with hall | hne'
    · obtain ⟨r, hr, hid⟩ := left_over job hne hids
      rw [hall]
      exact List.ne_nil_of_mem (List.mem_filter.mpr ⟨hr, decide_eq_true hid⟩)
    · exact hne'

theorem run_quality (h : job.run sha256 access db = .ok rows) :
    ∃ loaded, access.loadRecords sha256 db job.trainIds = .ok loaded ∧
    rows.quality = (cleanRecords db loaded [job.target]).quality := by
  obtain ⟨loaded, hload, h⟩ := bind_ok h
  refine ⟨loaded, hload, ?_⟩
  dsimp only at h
  split at h
  · cases h
  · obtain ⟨⟨trained, report⟩, -, h⟩ := bind_ok h
    cases h
    rfl

end TrainingInputs

/-! ## The snapshot's rows -/

/-- What the snapshot holds is what was trained on, and nothing held out. -/
structure TrainedOn (snapshot : List Row) (rows : TrainingRows) : Prop where
  exact : (snapshot.map Row.pair).Perm (rows.trained.map Row.pair)
  unseen : ∀ r ∈ snapshot, r.pair ∉ rows.holdout.map Row.pair

def FrameGives (reframe : List Payload → Frame) (rows : List Row) : Prop := (framed reframe rows).Perm (rows.map Row.pair)

theorem signature_of_pair {r t : Row} (h : r.pair = t.pair) : r.signature = t.signature := by
  obtain ⟨htime, hpayload⟩ := Prod.mk.inj h
  rw [Row.signature, htime, hpayload, Row.signature]

section
variable {rows : TrainingRows} {records all kept : List Row}

theorem TrainingRows.From.trained_nodup (h : rows.From records) (hsigs : (records.map Row.signature).Nodup) :
    rows.trained.Nodup :=
  h.sublist.nodup (List.Nodup.of_map _ hsigs)

/-- The rows left in are those that cleaning removed and those trained on. -/
theorem TrainingRows.From.mem_excluded (h : rows.From records) (hrecords : ∀ r ∈ records, r ∈ all)
    (hids : ∀ r ∈ all, ∀ t ∈ all, r.id = t.id → r = t) {r : Row} (hr : r ∈ all) :
    r.id ∈ rows.excluded ↔ r ∈ records ∧ r ∉ rows.trained := by
  rw [h.excluded]
  constructor
  · rintro ⟨hin, hout⟩
    obtain ⟨t, ht, hid⟩ := List.mem_map.mp hin
    rw [hids t (hrecords t ht) r hr hid] at ht
    exact ⟨ht, fun htrained => hout (List.mem_map_of_mem htrained)⟩
  · rintro ⟨hin, hout⟩
    refine ⟨List.mem_map_of_mem hin, ?_⟩
    intro hmem
    obtain ⟨t, ht, hid⟩ := List.mem_map.mp hmem
    rw [hids t (hrecords t (h.sublist.subset ht)) r hr hid] at ht
    exact hout ht

/-- Rows that hold all of those trained on, and as many, are those. -/
theorem TrainingRows.From.perm_of_length (h : rows.From records) (hsigs : (records.map Row.signature).Nodup)
    (hsub : ∀ r ∈ rows.trained, r ∈ kept) (hlength : kept.length = rows.trained.length) : kept.Perm rows.trained := by
  have hsubperm : rows.trained.Subperm kept := List.subperm_of_subset (h.trained_nodup hsigs) hsub
  exact (hsubperm.perm_of_length_le (Nat.le_of_eq hlength)).symm

/-- Nothing more is left in exactly when cleaning removed nothing. -/
theorem TrainingRows.From.cleaned_nothing (h : rows.From records) (hrecords : ∀ r ∈ records, r ∈ all)
    (hids : ∀ r ∈ all, ∀ t ∈ all, r.id = t.id → r = t)
    (hperm : (all.filter fun r => r.id ∉ rows.excluded).Perm rows.trained) : ∀ r ∈ all, r ∈ records := by
  intro r hr
  by_contra hout
  have hkept : r ∈ all.filter fun r => r.id ∉ rows.excluded := by
    rw [List.mem_filter, decide_eq_true_eq, h.mem_excluded hrecords hids hr]
    exact ⟨hr, fun hin => hout hin.1⟩
  exact hout (h.sublist.subset (hperm.mem_iff.mp hkept))

theorem TrainingRows.From.kept_perm (h : rows.From records) (hsigs : (records.map Row.signature).Nodup)
    (hrecords : ∀ r ∈ records, r ∈ all) (hids : ∀ r ∈ all, ∀ t ∈ all, r.id = t.id → r = t)
    (hnodup : all.Nodup)
    (hall : ∀ r ∈ all, r ∈ records) : (all.filter fun r => r.id ∉ rows.excluded).Perm rows.trained := by
  rw [List.perm_ext_iff_of_nodup (hnodup.filter _) (h.trained_nodup hsigs)]
  intro r
  rw [List.mem_filter, decide_eq_true_eq]
  constructor
  · rintro ⟨hr, hleft⟩
    rw [h.mem_excluded hrecords hids hr, not_and_not_right] at hleft
    exact hleft (hall r hr)
  · intro hr
    have hin := hrecords r (h.sublist.subset hr)
    refine ⟨hin, ?_⟩
    rw [h.mem_excluded hrecords hids hin]
    exact fun hout => hout.2 hr

theorem TrainingRows.From.apart (h : rows.From records) (hsigs : (records.map Row.signature).Nodup) {r : Row}
    (hr : r ∈ rows.trained) : r.pair ∉ rows.holdout.map Row.pair := by
  intro hmem
  obtain ⟨t, ht, hpair⟩ := List.mem_map.mp hmem
  have hsame : t = r :=
    List.inj_on_of_nodup_map hsigs (h.heldOut t ht) (h.sublist.subset hr) (signature_of_pair hpair)
  rw [hsame] at ht
  exact h.unseen r hr (List.mem_map_of_mem ht)

theorem TrainingRows.From.trainedOn_iff (h : rows.From records) (hsigs : (records.map Row.signature).Nodup)
    {snapshot : List Row} :
    TrainedOn snapshot rows ↔ (snapshot.map Row.pair).Perm (rows.trained.map Row.pair) := by
  refine ⟨TrainedOn.exact, fun hperm => ⟨hperm, ?_⟩⟩
  intro r hr
  obtain ⟨t, ht, hpair⟩ := List.mem_map.mp (hperm.mem_iff.mp (List.mem_map_of_mem hr))
  rw [← hpair]
  exact h.apart hsigs ht

end

namespace TrainingInputs

variable {sha256 : String → String} {access : DataAccess} {reframe : List Payload → Frame} {job : TrainingInputs}
  {db₀ db₁ db₂ : Datastore} {rows : TrainingRows} {info : DataVersionInfo} {modelId modelVersion : String}

def sourceRows (job : TrainingInputs) (sha256 : String → String) (access : DataAccess) (db : Datastore) : List Row :=
  job.trainIds.flatMap (access.rowsOf sha256 db)

theorem known_of_load {loaded : List Row} {ids : List Nat} (h : access.loadRecords sha256 db₀ ids = .ok loaded) :
    ∀ id ∈ ids, ∃ v, db₀.version? id = some v := by
  intro id hid
  obtain ⟨vs, parts, hvs, -⟩ := loadWith_ok h
  rw [← versions_ids hvs] at hid
  obtain ⟨v, hv, rfl⟩ := List.mem_map.mp hid
  exact ⟨v, (versions_mem hvs v hv).2⟩

theorem sourceRows_extends (hl : db₀.Layered) (hn : db₀.Numbered) (he : db₀.Extends db₁)
    (h : ∀ id ∈ job.trainIds, ∃ v, db₀.version? id = some v) :
    job.sourceRows sha256 access db₁ = job.sourceRows sha256 access db₀ := by
  apply List.flatMap_congr
  intro id hid
  exact rowsOf_extends hl hn he (h id hid)

/-- Twice the same version is twice each of its rows. -/
theorem nodup_of_kept {kept : Row → Bool} {trained : List Row}
    (hperm : ((job.sourceRows sha256 access db₀).filter kept).Perm trained)
    (hnodup : trained.Nodup) (hne : trained ≠ []) : job.trainIds.Nodup := by
  by_contra hids
  obtain ⟨id, hh, hd⟩ : ∃ id, job.historical = some id ∧ job.drifted = some id := by
    cases hh : job.historical with
    | none => cases hd : job.drifted <;> simp [trainIds, hh, hd] at hids
    | some h =>
      cases hd : job.drifted with
      | none => simp [trainIds, hh, hd] at hids
      | some d =>
        simp [trainIds, hh, hd] at hids
        exact ⟨h, rfl, by rw [hids]⟩
  have hrows : job.sourceRows sha256 access db₀ = access.rowsOf sha256 db₀ id ++ access.rowsOf sha256 db₀ id := by
    simp [sourceRows, trainIds, hh, hd]
  rw [hrows, List.filter_append] at hperm
  have htwice := hperm.nodup_iff.mpr hnodup
  rw [List.nodup_append] at htwice
  obtain ⟨r, hr⟩ := List.exists_mem_of_ne_nil _ hne
  have hin : r ∈ (access.rowsOf sha256 db₀ id).filter kept := by
    rcases List.mem_append.mp (hperm.mem_iff.mpr hr) with h | h <;> exact h
  exact htwice.2.2 r hin r hin rfl

theorem eq_of_sorted_ids {l l' : List Row} (hperm : l.Perm l') (h : l.Pairwise Row.le) (h' : l'.Pairwise Row.le)
    (hids : ∀ r ∈ l, ∀ t ∈ l, r.id = t.id → r = t) : l = l' := by
  refine hperm.eq_of_pairwise ?_ h h'
  intro a b ha hb hab hba
  have hkey : a.key = b.key := le_antisymm hab hba
  have hid : a.id = b.id := congrArg (fun k => (ofLex k).2) hkey
  exact hids a ha b (hperm.mem_iff.mpr hb) hid

theorem storedRows_nodup (hr : db₁.RecordsNumbered) (call : SnapshotCall) : (call.storedRows db₁).Nodup := by
  rw [SnapshotCall.storedRows, (sortRows_perm _).nodup_iff]
  have hsub : (db₁.records.filter fun r => r.dataVersionId ∈ call.sourceVersionIds).Sublist db₁.records :=
    List.filter_sublist
  have hids : ((db₁.records.filter fun r => r.dataVersionId ∈ call.sourceVersionIds).map (·.id)).Nodup :=
    (hsub.map _).nodup hr.nodup
  have hcast := hids.map (f := fun n : Nat => (n : Int)) fun a b h => Int.ofNat.inj h
  rw [List.map_map] at hcast
  apply List.Nodup.of_map Row.id
  rw [List.map_map]
  exact hcast

structure Sources (job : TrainingInputs) (rows : TrainingRows) (all records : List Row) : Prop where
  ran : rows.From records
  signatures : (records.map Row.signature).Nodup
  loaded : ∀ r ∈ records, r ∈ all
  ids : ∀ r ∈ all, ∀ t ∈ all, r.id = t.id → r = t

theorem Sources.derived_iff {all records loaded : List Row} (h : job.Sources rows all records) (hr : db₀.RecordsNumbered)
    (hloaded : loaded.Perm all) (hall : all = job.sourceRows sha256 access db₀) {snapshot : List Row}
    (hsnapshot : snapshot.map Row.pair = (loaded.filter fun r => r.id ∉ rows.excluded).map Row.pair) :
    (snapshot.map Row.pair).Perm (rows.trained.map Row.pair) ↔ (∀ r ∈ all, r ∈ records) ∧ job.trainIds.Nodup := by
  have hkept : (loaded.filter fun r => r.id ∉ rows.excluded).Perm (all.filter fun r => r.id ∉ rows.excluded) :=
    hloaded.filter _
  rw [hsnapshot]
  constructor
  · intro hpairs
    have hlength := hpairs.length_eq
    rw [List.length_map, List.length_map, hkept.length_eq] at hlength
    have hin : ∀ r ∈ rows.trained, r ∈ all.filter fun r => r.id ∉ rows.excluded := by
      intro r hr
      have hmem := h.loaded r (h.ran.sublist.subset hr)
      rw [List.mem_filter, decide_eq_true_eq, h.ran.mem_excluded h.loaded h.ids hmem]
      exact ⟨hmem, fun hout => hout.2 hr⟩
    have hperm := h.ran.perm_of_length h.signatures hin hlength
    refine ⟨h.ran.cleaned_nothing h.loaded h.ids hperm, ?_⟩
    rw [hall] at hperm
    apply nodup_of_kept hperm (h.ran.trained_nodup h.signatures)
    apply h.ran.nonempty
    rw [List.nodup_map_iff_inj_on (List.Nodup.of_map _ h.signatures)]
    intro r hr t ht hid
    exact h.ids r (h.loaded r hr) t (h.loaded t ht) hid
  · rintro ⟨hclean, hids⟩
    have hnodup : all.Nodup := by
      rw [hall]
      exact flatMap_nodup hr hids
    exact (hkept.trans (h.ran.kept_perm h.signatures h.loaded h.ids hnodup hclean)).map Row.pair

theorem Sources.stored_iff {all records stored : List Row} (h : job.Sources rows all records)
    (hsorted : records.Pairwise Row.le) (hstored : stored.Pairwise Row.le) (hnodup : stored.Nodup)
    (hmem : ∀ r, r ∈ stored ↔ r ∈ all) {snapshot : List Row}
    (htimes : (snapshot.map (·.observedAt)).Perm ((stored.filter fun r => r.id ∉ rows.excluded).map (·.observedAt)))
    (hframed : (snapshot.map Row.pair).Perm (framed reframe (stored.filter fun r => r.id ∉ rows.excluded))) :
    (snapshot.map Row.pair).Perm (rows.trained.map Row.pair) ↔ (∀ r ∈ all, r ∈ records) ∧
      FrameGives reframe rows.trained := by
  have hloaded : ∀ r ∈ records, r ∈ stored := fun r hr => (hmem r).mpr (h.loaded r hr)
  have hids : ∀ r ∈ stored, ∀ t ∈ stored, r.id = t.id → r = t :=
    fun r hr t ht => h.ids r ((hmem r).mp hr) t ((hmem t).mp ht)
  -- both are in the order of time, so what is left in is what was trained on, row by row
  have hsame : (stored.filter fun r => r.id ∉ rows.excluded).Perm rows.trained →
      (stored.filter fun r => r.id ∉ rows.excluded) = rows.trained := by
    intro hperm
    apply eq_of_sorted_ids hperm (hstored.sublist List.filter_sublist) (hsorted.sublist h.ran.sublist)
    intro r hr t ht
    exact hids r (List.mem_of_mem_filter hr) t (List.mem_of_mem_filter ht)
  constructor
  · intro hpairs
    have hlength := hpairs.length_eq
    have hcount := htimes.length_eq
    rw [List.length_map, List.length_map] at hlength hcount
    have hin : ∀ r ∈ rows.trained, r ∈ stored.filter fun r => r.id ∉ rows.excluded := by
      intro r hr
      have hthere := hloaded r (h.ran.sublist.subset hr)
      rw [List.mem_filter, decide_eq_true_eq, h.ran.mem_excluded hloaded hids hthere]
      exact ⟨hthere, fun hout => hout.2 hr⟩
    have hperm := h.ran.perm_of_length h.signatures hin (hcount.symm.trans hlength)
    refine ⟨fun r hr => h.ran.cleaned_nothing hloaded hids hperm r ((hmem r).mpr hr), ?_⟩
    rw [hsame hperm] at hframed
    exact hframed.symm.trans hpairs
  · rintro ⟨hclean, hframe⟩
    have hperm := h.ran.kept_perm h.signatures hloaded hids hnodup fun r hr => hclean r ((hmem r).mp hr)
    rw [hsame hperm] at hframed
    exact hframed.trans hframe

/-- The snapshot of a job is what the job trained on exactly when the rows of its sources were
spotless, no version was loaded twice where one is not stored as rows, and a frame of the rows
gives them back where all are. -/
theorem snapshot_exact_iff (hpast : Steps (Datastore.step sha256) Free {} db₀)
    (hrun : job.run sha256 access db₀ = .ok rows)
    (hcap : ∀ id ∈ job.trainIds, (access.rowsOf sha256 db₀ id).length ≤ rowIdStride)
    (hbetween : Steps (Datastore.step sha256) Free db₀ db₁)
    (hsnapshot : (job.snapshot rows modelId modelVersion).run sha256 access reframe db₁ = .ok (info, db₂))
    (hcreated : info.created = true) :
    TrainedOn (access.rowsOf sha256 db₂ info.dataVersionId) rows ↔
      Cleaning.Spotless db₀.versions (job.sourceRows sha256 access db₀) [job.target] ∧
      ((∃ id ∈ job.trainIds, ∃ v, db₀.version? id = some v ∧ v.storage ≠ .rows) → job.trainIds.Nodup) ∧
      ((∀ id ∈ job.trainIds, ∃ v, db₀.version? id = some v ∧ v.storage = .rows) →
        FrameGives reframe rows.trained) := by
  obtain ⟨loaded, hload, hran⟩ := run_ok hrun
  have hpast₁ := hpast.trans hbetween
  have hpast₂ := hpast₁.tail trivial (Datastore.step_snapshot hsnapshot)
  have hn₀ := Datastore.steps_numbered hpast Datastore.numbered_empty
  have hl₀ := Datastore.steps_layered hpast Datastore.numbered_empty Datastore.layered_empty
  have hn₁ := Datastore.steps_numbered hpast₁ Datastore.numbered_empty
  have hl₁ := Datastore.steps_layered hpast₁ Datastore.numbered_empty Datastore.layered_empty
  have hn₂ := Datastore.steps_numbered hpast₂ Datastore.numbered_empty
  have hl₂ := Datastore.steps_layered hpast₂ Datastore.numbered_empty Datastore.layered_empty
  have hr₀ := Datastore.steps_recordsNumbered hpast rfl
  have hr₁ := Datastore.steps_recordsNumbered hpast₁ rfl
  have he := Datastore.steps_extends hbetween
  have hknown := known_of_load hload
  have hperm : loaded.Perm (job.sourceRows sha256 access db₀) := loadRecords_perm hload
  have hlater : job.sourceRows sha256 access db₁ = job.sourceRows sha256 access db₀ :=
    sourceRows_extends hl₀ hn₀ he hknown
  have hsources : job.Sources rows (job.sourceRows sha256 access db₀) (cleanRecords db₀ loaded [job.target]).records :=
    ⟨hran, Cleaning.records_signatures, fun r hr => hperm.mem_iff.mp (Cleaning.records_loaded hr),
      fun r hr t ht hid => ids_inj hr₀ hcap hr ht hid⟩
  rw [hran.trainedOn_iff Cleaning.records_signatures, Cleaning.spotless_iff hperm]
  obtain ⟨-, -, hform⟩ := snapshot_rows hn₁ hl₁ hsnapshot hcreated hn₂ hl₂
  rcases hform with ⟨⟨id, hid, v, hv, hstorage⟩, loaded₁, hload₁, hsaid⟩ | ⟨hstored, -, htimes, hframed⟩
  · -- a source is not stored as rows
    have hpairs := congrArg (List.map fun r => (r.1, r.2.1)) hsaid
    rw [List.map_map, List.map_map] at hpairs
    have hperm₁ : loaded₁.Perm (job.sourceRows sha256 access db₁) := loadRecords_perm hload₁
    rw [hlater] at hperm₁
    rw [hsources.derived_iff hr₀ hperm₁ rfl hpairs]
    obtain ⟨v₀, hv₀⟩ := hknown id hid
    have hv₁ := he.version? hv₀
    rw [hv, Option.some.injEq] at hv₁
    constructor
    · rintro ⟨hclean, hids⟩
      refine ⟨hclean, fun _ => hids, ?_⟩
      intro hrows
      obtain ⟨w, hw, hplain⟩ := hrows id hid
      rw [hv₀, Option.some.injEq] at hw
      rw [hv₁, hw] at hstorage
      exact absurd hplain hstorage
    · rintro ⟨hclean, hids, _⟩
      exact ⟨hclean, hids ⟨id, hid, v₀, hv₀, hv₁ ▸ hstorage⟩⟩
  · -- all sources are stored as rows
    have hmem : ∀ r, r ∈ (job.snapshot rows modelId modelVersion).storedRows db₁ ↔
        r ∈ job.sourceRows sha256 access db₀ := by
      intro r
      rw [← hlater]
      exact mem_storedRows hstored
    have hplain : ∀ id ∈ job.trainIds, ∃ v, db₀.version? id = some v ∧ v.storage = .rows := by
      intro id hid
      obtain ⟨v₀, hv₀⟩ := hknown id hid
      obtain ⟨v, hv, hrows⟩ := hstored id hid
      rw [he.version? hv₀, Option.some.injEq] at hv
      exact ⟨v₀, hv₀, hv ▸ hrows⟩
    rw [hsources.stored_iff (sortRows_pairwise _) (sortRows_pairwise _) (storedRows_nodup hr₁ _) hmem htimes hframed]
    constructor
    · rintro ⟨hclean, hframe⟩
      refine ⟨hclean, ?_, fun _ => hframe⟩
      rintro ⟨id, hid, v, hv, hstorage⟩
      obtain ⟨w, hw, hrows⟩ := hplain id hid
      rw [hv, Option.some.injEq] at hw
      exact absurd (hw ▸ hrows) hstorage
    · rintro ⟨hclean, _, hframe⟩
      exact ⟨hclean, hframe hplain⟩

end TrainingInputs

/-! ## Two jobs -/

theorem Cleaning.spotless_of_count {db : Datastore} {loaded : List Row} {required : List String}
    (h : (cleanRecords db loaded required).records.length = loaded.length) : Spotless db.versions loaded required := by
  have hkept := kept_run db.versions loaded required
  rw [(records_perm db loaded required).length_eq, List.length_map, ← List.length_zipIdx (l := loaded) (i := 0)] at h
  have hall := hkept.sublist.eq_of_length h
  have hclean : (∀ r ∈ loaded, r ∈ (cleanRecords db loaded required).records) ↔
      Spotless db.versions loaded required :=
    mem_cleanRecords_iff
  apply hclean.mp
  intro r hr
  rw [(records_perm db loaded required).mem_iff, hall, zipIdx_map_fst]
  exact hr

namespace TrainingInputs

theorem sample_wellFormed (x y : Int) : (Json.obj [("x", .int x), ("y", .int y)]).WellFormed := by
  have hsorted : ["x", "y"].Pairwise (· < ·) := by decide +kernel
  refine .obj hsorted ?_
  intro f hf
  rcases List.mem_cons.mp hf with rfl | hf
  · exact .int x
  · rw [List.mem_singleton.mp hf]
    exact .int y

def sample (x y : Int) : Payload := ⟨[("x", .int x), ("y", .int y)], sample_wellFormed x y⟩

theorem sampled_kept {frame : Frame} {stamps : List DateTime} : ∀ features observedAt,
    (.ok (frame, stamps) : Except AdaptationError (Frame × List DateTime)) = .ok (features, observedAt) →
    features.records.length = frame.records.length := by
  intro features observedAt h
  cases h
  rfl

def sampled (version : String) (kind : DataKind) (rows : List (DateTime × Payload)) : IngestCall where
  dataset := "kpi"
  version := version
  frame := ⟨[("ts", "object"), ("x", "int64"), ("y", "int64")], rows.map Prod.snd⟩
  kind := kind
  timestamps := .ok (⟨[("x", "int64"), ("y", "int64")], rows.map Prod.snd⟩, rows.map Prod.fst)
  rowsKept := sampled_kept

def sampleFrame (payloads : List Payload) : Frame := ⟨[("x", "int64"), ("y", "int64")], payloads⟩

def sampleJob : TrainingInputs where
  historical := some 1
  drifted := some 2
  target := "y"
  featureNames := fun _ => ["x"]
  targetLeaks := fun _ => []
  holdoutFraction := 1 / 4
  minRows := 1

def sampleRun (db : Datastore) : Option (TrainingRows × DataVersionInfo × Datastore) := do
  let rows ← (sampleJob.run id Creation.noObjects db).toOption
  let made ← ((sampleJob.snapshot rows "model" "2").run id Creation.noObjects sampleFrame db).toOption
  pure (rows, made.1, made.2)

def sampleCalls (historical : List (DateTime × Payload)) : List DatastoreCall :=
  [.onboard "model", .ingest (sampled "v1" .historical historical),
    .ingest (sampled "v2" .drifted [(VersionCall.atHour 2, sample 2 5), (VersionCall.atHour 3, sample 3 7)])]

/-- What a run of the job leaves has this property. -/
def sampleRun.has (p : Datastore → TrainingRows → List Row → Bool) (db : Datastore) : Bool :=
  (sampleRun db).any fun r => r.2.1.created && p db r.1 (Creation.noObjects.rowsOf id r.2.2 r.2.1.dataVersionId)

theorem sample_runs {calls : List DatastoreCall} {p : Datastore → TrainingRows → List Row → Bool}
    (h : (runs (Datastore.step id) Free {} calls).any (sampleRun.has p) = true) : ∃ db rows info db',
      Steps (Datastore.step id) Free {} db ∧ sampleJob.run id Creation.noObjects db = .ok rows ∧
      (sampleJob.snapshot rows "model" "2").run id Creation.noObjects sampleFrame db = .ok (info, db') ∧
      info.created = true ∧ p db rows (Creation.noObjects.rowsOf id db' info.dataVersionId) = true := by
  obtain ⟨db, hsteps, hdb⟩ := Steps.exists_of_runs (Datastore.step id) Free {} calls _ h
  obtain ⟨⟨rows, info, db'⟩, hrun, hp⟩ := (Option.any_eq_true _ _).mp hdb
  obtain ⟨rows', hrows, hmade⟩ := Option.bind_eq_some_iff.mp hrun
  obtain ⟨⟨info', db''⟩, hsnapshot, hout⟩ := Option.bind_eq_some_iff.mp hmade
  cases hout
  obtain ⟨hcreated, hp⟩ := Bool.and_eq_true_iff.mp hp
  exact ⟨db, _, _, _, hsteps, ok_of_toOption hrows, ok_of_toOption hsnapshot, hcreated, hp⟩

/-- Every row of the sources was kept, and they are few. -/
def clean (db : Datastore) (rows : TrainingRows) : Bool :=
  decide (rows.quality.outputRows = rows.quality.inputRows) &&
    (rows.trained.all fun r => decide ("__observed_at" ∉ r.payload.keys)) &&
    sampleJob.trainIds.all fun i => decide ((Creation.noObjects.rowsOf id db i).length ≤ 2)

theorem snapshot_exact_sample : ∃ db rows info db', Steps (Datastore.step id) Free {} db ∧
    sampleJob.run id Creation.noObjects db = .ok rows ∧
    (sampleJob.snapshot rows "model" "2").run id Creation.noObjects sampleFrame db = .ok (info, db') ∧
    rows.trained.length = 3 ∧ TrainedOn (Creation.noObjects.rowsOf id db' info.dataVersionId) rows := by
  have hruns : (runs (Datastore.step id) Free {}
    (sampleCalls [(VersionCall.atHour 0, sample 1 4), (VersionCall.atHour 1, sample 1 6)])).any
      (sampleRun.has fun db rows _ => decide (rows.trained.length = 3) && clean db rows) = true := by decide +kernel
  obtain ⟨db, rows, info, db', hsteps, hrun, hsnapshot, hcreated, hp⟩ := sample_runs hruns
  obtain ⟨htrained, hclean⟩ := Bool.and_eq_true_iff.mp hp
  simp only [clean, Bool.and_eq_true, List.all_eq_true, decide_eq_true_eq] at hclean
  obtain ⟨⟨hquality, hkeys⟩, hfew⟩ := hclean
  refine ⟨db, rows, info, db', hsteps, hrun, hsnapshot, of_decide_eq_true htrained, ?_⟩
  have hcap : ∀ i ∈ sampleJob.trainIds, (Creation.noObjects.rowsOf id db i).length ≤ rowIdStride :=
    fun i hi => Nat.le_trans (hfew i hi) (by decide)
  apply (snapshot_exact_iff hsteps hrun hcap (.refl db) hsnapshot hcreated).mpr
  obtain ⟨loaded, hload, hcounts⟩ := run_quality hrun
  have hspotless : Cleaning.Spotless db.versions loaded ["y"] := by
    apply Cleaning.spotless_of_count
    rw [hcounts] at hquality
    rw [(Cleaning.records_perm db loaded ["y"]).length_eq, List.length_map]
    exact hquality
  refine ⟨hspotless.congr fun r => (loadRecords_perm hload).symm.mem_iff, fun _ => (by decide), ?_⟩
  intro _
  apply List.Perm.of_eq
  apply framed_of_keeps
  refine ⟨rfl, ?_⟩
  intro p hpayload
  obtain ⟨r, hr, rfl⟩ := List.mem_map.mp hpayload
  exact hkeys r hr

/-- The historical version holds one row twice: the candidate trains on it once, the snapshot holds it twice. -/
theorem duplicate_in_snapshot : ∃ db rows info db', Steps (Datastore.step id) Free {} db ∧
    sampleJob.run id Creation.noObjects db = .ok rows ∧
    (sampleJob.snapshot rows "model" "2").run id Creation.noObjects sampleFrame db = .ok (info, db') ∧
      info.created = true ∧
    rows.trained.length = 2 ∧ ¬TrainedOn (Creation.noObjects.rowsOf id db' info.dataVersionId) rows := by
  have hruns : (runs (Datastore.step id) Free {}
    (sampleCalls [(VersionCall.atHour 0, sample 1 4), (VersionCall.atHour 0, sample 1 4)])).any
      (sampleRun.has fun _ rows snapshot => decide (rows.trained.length = 2 ∧ snapshot.length = 3)) = true := by
        decide +kernel
  obtain ⟨db, rows, info, db', hsteps, hrun, hsnapshot, hcreated, hp⟩ := sample_runs hruns
  obtain ⟨htrained, hlength⟩ := of_decide_eq_true hp
  refine ⟨db, rows, info, db', hsteps, hrun, hsnapshot, hcreated, htrained, ?_⟩
  intro h
  have hcount := h.exact.length_eq
  rw [List.length_map, List.length_map] at hcount
  omega

end TrainingInputs

end OranAdapt
