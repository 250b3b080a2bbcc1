import OranAdapt.StorageForms

/-!
# Loaded rows

The rows a version is read as, what loading several versions returns of them,
and what a training snapshot of them is read as.
-/

namespace OranAdapt

namespace DataAccess

variable (sha256 : String → String) (access : DataAccess)

/-- The rows a version is read as; none where it cannot be read. -/
def rowsOf (db : Datastore) (id : Nat) : List Row :=
  match db.version? id with
  | none => []
  | some v => (access.iterRows sha256 db v).toOption.getD []

variable {sha256 access} {db db' db₀ db₁ : Datastore} {id : Nat} {v : DataVersion} {rows : List Row}

theorem rowsOf_eq (hv : db.version? id = some v) (h : access.iterRows sha256 db v = .ok rows) :
    access.rowsOf sha256 db id = rows := by
  simp [rowsOf, hv, h, Except.toOption]

theorem referenceRows_id {versionId : Nat} {read : List (DateTime × Payload)} {r : Row}
    (h : r ∈ referenceRows versionId read) : r.dataVersionId = versionId := by
  obtain ⟨i, hi, rfl⟩ := List.mem_mapIdx.mp h
  rfl

theorem derivedRows_id {versionId : Nat} {excluded : List Int} {r : Row} (h : r ∈ derivedRows versionId excluded rows) :
    r.dataVersionId = versionId := by
  obtain ⟨i, hi, rfl⟩ := List.mem_mapIdx.mp h
  rfl

theorem iterRows_id (h : access.iterRows sha256 db v = .ok rows) : ∀ r ∈ rows, r.dataVersionId = v.id := by
  intro r hr
  unfold iterRows iterRowsTo at h
  split at h
  · cases h
    obtain ⟨d, hd, rfl⟩ := List.mem_map.mp ((sortRows_perm _).mem_iff.mp hr)
    have hid := (List.mem_filter.mp hd).2
    exact of_decide_eq_true hid
  · rename_i ref _
    obtain ⟨_, -, h⟩ := bind_ok h
    obtain ⟨rehash, -, h⟩ := bind_ok h
    obtain ⟨read, -, h⟩ := bind_ok h
    split at h
    · cases h
    · cases h
      exact referenceRows_id hr
  · obtain ⟨read, -, h⟩ := bind_ok h
    cases h
    exact derivedRows_id hr

theorem rowsOf_id {r : Row} (h : r ∈ access.rowsOf sha256 db id) : r.dataVersionId = id := by
  unfold rowsOf at h
  cases hv : db.version? id with
  | none =>
    rw [hv] at h
    cases h
  | some v =>
    rw [hv] at h
    simp only at h
    cases hiter : access.iterRows sha256 db v with
    | error e =>
      rw [hiter] at h
      cases h
    | ok rows =>
      rw [hiter] at h
      rw [iterRows_id hiter r h, (Datastore.version?_mem hv).2]

theorem rowsOf_extends (hl : db.Layered) (hn : db.Numbered) (he : db.Extends db') (h : ∃ v, db.version? id = some v) :
    access.rowsOf sha256 db' id = access.rowsOf sha256 db id := by
  obtain ⟨v, hv⟩ := h
  rw [rowsOf, he.version? hv, rowsOf, hv]
  simp only [iterRows_extends hl hn he (Datastore.version?_mem hv).1]

theorem rowsOf_stored (hv : db.version? id = some v) (hs : v.storage = .rows) :
    (access.rowsOf sha256 db id).Perm ((db.recordsOf id).map DataRecord.row) := by
  have hrows : access.rowsOf sha256 db id = sortRows ((db.recordsOf v.id).map DataRecord.row) :=
    rowsOf_eq hv (iterRows_rows hs)
  rw [hrows, (Datastore.version?_mem hv).2]
  exact sortRows_perm _

theorem mapM_iterRows {vs : List DataVersion} {parts : List (List Row)}
    (hvs : ∀ v ∈ vs, db.version? v.id = some v) (h : vs.mapM (access.iterRows sha256 db) = .ok parts) :
    parts = vs.map fun v => access.rowsOf sha256 db v.id := by
  have hall := mapM_ok h
  clear h
  induction hall with
  | nil => rfl
  | @cons v rows vs parts hhead _ ih =>
    rw [List.map_cons, ih fun w hw => hvs w (List.mem_cons_of_mem _ hw), rowsOf_eq (hvs v List.mem_cons_self) hhead]

/-- Loading versions gives the rows each of them is read as, put in order. -/
theorem loadRecords_perm {ids : List Nat} {require : Bool} (h : access.loadRecords sha256 db ids require = .ok rows) :
    rows.Perm (ids.flatMap (access.rowsOf sha256 db)) := by
  obtain ⟨vs, parts, hvs, -, hparts, rfl⟩ := loadWith_ok h
  have hids := versions_ids hvs
  rw [mapM_iterRows (fun v hv => (versions_mem hvs v hv).2) hparts, ← hids, List.flatMap_map, ← List.flatMap_def]
  exact sortRows_perm _

/-! ## Training snapshots -/

def keptRows (access : DataAccess) (sha256 : String → String) (db : Datastore) (ids : List Nat) (excluded : List Int) :
    List Row :=
  (ids.flatMap (access.rowsOf sha256 db)).filter fun r => r.id ∉ excluded

theorem mem_storedRows {call : SnapshotCall} {r : Row} (hstored : ∀ id ∈ call.sourceVersionIds, ∃ v,
    db.version? id = some v ∧ v.storage = .rows) :
    r ∈ call.storedRows db ↔ r ∈ call.sourceVersionIds.flatMap (access.rowsOf sha256 db) := by
  rw [SnapshotCall.storedRows, (sortRows_perm _).mem_iff, List.mem_flatMap]
  constructor
  · intro hr
    obtain ⟨d, hd, rfl⟩ := List.mem_map.mp hr
    obtain ⟨hd, hid⟩ := List.mem_filter.mp hd
    obtain ⟨v, hv, hs⟩ := hstored _ (of_decide_eq_true hid)
    refine ⟨d.dataVersionId, of_decide_eq_true hid, (rowsOf_stored hv hs).mem_iff.mpr ?_⟩
    exact List.mem_map_of_mem (List.mem_filter.mpr ⟨hd, decide_eq_true rfl⟩)
  · rintro ⟨id, hid, hr⟩
    obtain ⟨v, hv, hs⟩ := hstored id hid
    obtain ⟨d, hd, rfl⟩ := List.mem_map.mp ((rowsOf_stored hv hs).mem_iff.mp hr)
    obtain ⟨hd, heq⟩ := List.mem_filter.mp hd
    have hid' : d.dataVersionId = id := of_decide_eq_true heq
    refine List.mem_map_of_mem (List.mem_filter.mpr ⟨hd, decide_eq_true ?_⟩)
    rw [hid']
    exact hid

/-- What a training snapshot is read as: where a source is not stored as rows, the rows kept, with
their keys; else rows without keys, with the timestamps of the rows kept and, as far as a frame
gives them back, their payloads. -/
theorem snapshot_rows {reframe : List Payload → Frame} {call : SnapshotCall} {info : DataVersionInfo} (hn : db₀.Numbered)
    (hl : db₀.Layered) (h : call.run sha256 access reframe db₀ = .ok (info, db₁)) (hcreated : info.created = true)
    (hn₁ : db₁.Numbered) (hl₁ : db₁.Layered) :
    (∃ v, db₁.version? info.dataVersionId = some v) ∧ info.dataVersionId = db₀.nextVersionId ∧
    (((∃ id ∈ call.sourceVersionIds, ∃ s, db₀.version? id = some s ∧ s.storage ≠ .rows) ∧
      ∃ rows, access.loadRecords sha256 db₀ call.sourceVersionIds = .ok rows ∧
        (access.rowsOf sha256 db₁ info.dataVersionId).map Row.said =
          (rows.filter fun r => r.id ∉ call.excludeRecordIds).map Row.said) ∨
    (∀ id ∈ call.sourceVersionIds, ∃ s, db₀.version? id = some s ∧ s.storage = .rows) ∧
      (∀ r ∈ access.rowsOf sha256 db₁ info.dataVersionId, r.recordKey = none) ∧
      let kept := (call.storedRows db₀).filter fun r => r.id ∉ call.excludeRecordIds
      ((access.rowsOf sha256 db₁ info.dataVersionId).map (·.observedAt)).Perm (kept.map (·.observedAt)) ∧
        ((access.rowsOf sha256 db₁ info.dataVersionId).map Row.pair).Perm (framed reframe kept)) := by
  unfold SnapshotCall.run at h
  split at h
  · cases h
  · cases h
  rename_i sources _ hsources
  obtain ⟨anchor, -, h⟩ := bind_ok h
  have hversions : versions db₀ call.sourceVersionIds = .ok sources := by rw [versions, hsources]
  have hids := versions_ids hversions
  split at h
  · rename_i hany
    obtain ⟨rows, hrows, h⟩ := bind_ok h
    obtain ⟨parent, hid, -, hv, -⟩ := (Datastore.create_ok h).later hcreated hn (.refl db₁)
    obtain ⟨v, out, hfound, -, hout, -, hsaid⟩ := snapshot_derived hn hl hrows h hcreated (.refl db₁) hn₁ hl₁
    obtain ⟨s, hs, hstorage⟩ := List.any_eq_true.mp hany
    obtain ⟨hmem, hfound'⟩ := versions_mem hversions s hs
    refine ⟨⟨_, hv⟩, hid, .inl ⟨⟨s.id, hmem, s, hfound', of_decide_eq_true hstorage⟩, rows, hrows, ?_⟩⟩
    rw [rowsOf_eq hfound hout]
    exact hsaid
  · rename_i hany
    obtain ⟨⟨features, observedAt⟩, hsplit, hrun⟩ := bind_ok h
    obtain ⟨htimestamps, htimes, hkeys⟩ := split_ok hsplit
    obtain ⟨parent, hid, -, hv, hstored⟩ := (Datastore.create_ok hrun).later hcreated hn (.refl db₁)
    obtain ⟨v, out, hfound, hstorage, hout, hpairs⟩ := snapshot_ingested hn h hcreated (.refl db₁)
    rw [rowsOf_eq hfound hout]
    have hout' : out = access.rowsOf sha256 db₁ info.dataVersionId := (rowsOf_eq hfound hout).symm
    have hperm : (access.rowsOf sha256 db₁ info.dataVersionId).Perm _ := rowsOf_stored hfound hstorage
    rw [← hout'] at hperm
    have hrows := congrArg (List.map fun r => (r.observedAt, r.payload, r.recordKey)) hstored
    rw [Datastore.numberRows_rows] at hrows
    refine ⟨⟨v, hfound⟩, hid, .inr ⟨?_, ?_, ?_, hpairs⟩⟩
    · intro id hid
      rw [← hids] at hid
      obtain ⟨s, hs, rfl⟩ := List.mem_map.mp hid
      refine ⟨s, (versions_mem hversions s hs).2, ?_⟩
      by_contra hne
      exact hany (List.any_eq_true.mpr ⟨s, hs, decide_eq_true hne⟩)
    · intro r hr
      obtain ⟨d, hd, rfl⟩ := List.mem_map.mp (hperm.mem_iff.mp hr)
      have hkeysOf := congrArg (List.map fun r => r.2.2) hrows
      simp only [IngestCall.new, IngestCall.rows] at hkeysOf
      rw [List.map_map, zip_keys hkeys htimes] at hkeysOf
      have hmem : d.recordKey ∈ IngestCall.keys _ features := hkeysOf ▸ List.mem_map_of_mem hd
      exact List.eq_of_mem_replicate hmem
    · have htimesOf := congrArg (List.map fun r => r.1) hrows
      simp only [IngestCall.new, IngestCall.rows] at htimesOf
      rw [List.map_map, List.map_fst_zip (by rw [List.length_zip]; omega)] at htimesOf
      have hobserved := (Prod.mk.inj (Except.ok.inj htimestamps)).2
      rw [← hobserved] at htimesOf
      have hmap := hperm.map (fun r : Row => r.observedAt)
      rw [List.map_map] at hmap
      have hsame : (db₁.recordsOf info.dataVersionId).map ((fun r : Row => r.observedAt) ∘ DataRecord.row) = _ := htimesOf
      rw [hsame] at hmap
      exact hmap

end DataAccess

end OranAdapt
