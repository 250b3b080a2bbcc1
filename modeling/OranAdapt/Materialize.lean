import OranAdapt.CdcStore
import OranAdapt.StorageForms
import Mathlib.Data.List.AList
import Mathlib.Data.List.Induction

/-!
# Materializing change events

`cdc.materialize`: the events of a dataset that no version holds yet, folded
into the net change of each source row, become one data version, and are
marked with it. What pandas makes of a row image is a parameter.
-/

namespace OranAdapt

variable {δ : Type}

/-- What a frame holds of a row image (reading it raises where there is none), the frame of the
payloads, and what is raised where the times of a batch do not parse together. -/
structure ImageReader where
  image : RowImage → Option (DateTime × Payload)
  reframe : List Payload → Frame
  refuses : List RowImage → Option AdaptationError := fun _ => none

/-- The last image of a source row that still exists. -/
structure Upsert where
  key : String
  observedAt : DateTime
  payload : Payload

def Upsert.row (u : Upsert) : Row := ⟨0, 0, u.observedAt, u.payload, some u.key⟩

def Upsert.le (a b : Upsert) : Prop := toLex (a.observedAt.isoformat, a.key) ≤ toLex (b.observedAt.isoformat, b.key)

instance (a b : Upsert) : Decidable (a.le b) := inferInstanceAs (Decidable (_ ≤ _))

def CdcEvent.change (e : CdcEvent δ) : Option RowImage := if e.operation = .delete then none else e.newValue

abbrev NetChange := AList fun _ : String => Option RowImage

def netChange (events : List (CdcEvent δ)) : NetChange :=
  events.foldl (fun net e => net.insert e.primaryKey e.change) ∅

namespace NetChange

def images (net : NetChange) : List (String × RowImage) := net.entries.filterMap fun e => e.2.map (e.1, ·)

def upserts (net : NetChange) (reader : ImageReader) : Except AdaptationError (List Upsert) :=
  (net.images.mapM fun i => (orRaise "TypeError" (reader.image i.2)).map fun p => ⟨i.1, p.1, p.2⟩).map
    (·.insertionSort Upsert.le)

def deleted (net : NetChange) : List String := ((net.entries.filter (·.2.isNone)).map (·.1)).insertionSort (· ≤ ·)

end NetChange

section
variable (dataset : String)

/-- The dataset's events that no version holds yet, in the order they were consumed. -/
def pendingEvents (events : CdcDb δ) : List (CdcEventRecord δ) :=
  events.events.filter fun e => e.event.datasetId = some dataset ∧ e.dataVersionId = none

/-- The pending events get the version they were folded into. -/
def markEvents (versionId : Nat) (events : CdcDb δ) : CdcDb δ :=
  { events with events := events.events.map fun e =>
      if e.event.datasetId = some dataset ∧ e.dataVersionId = none then { e with dataVersionId := some versionId } else e }

def previousCdcVersion (db : Datastore) : Option DataVersion :=
  (db.versions.filter fun v => v.dataset = dataset ∧ v.kind = .cdc).getLast?

def sixDigits (n : Nat) : String := String.ofList (List.replicate (6 - (toString n).length) '0') ++ toString n

/-- `_timestamps` of the frame, which parses the times of all its rows at once. -/
def batchTimes (reader : ImageReader) (refusal : Option AdaptationError) (rows : List Row) :
    Except AdaptationError (Frame × List DateTime) :=
  match refusal with
  | some e => .error e
  | none => .ok (SnapshotCall.features reader.reframe rows, rows.map (·.observedAt))

theorem batchTimes_ok {reader : ImageReader} {refusal : Option AdaptationError} {rows : List Row} {features : Frame}
    {observedAt : List DateTime} (h : batchTimes reader refusal rows = .ok (features, observedAt)) :
    features = SnapshotCall.features reader.reframe rows ∧ observedAt = rows.map (·.observedAt) := by
  cases refusal with
  | some e => cases h
  | none =>
    cases h
    exact ⟨rfl, rfl⟩

theorem batchTimes_length {reader : ImageReader} {refusal : Option AdaptationError} {rows : List Row} :
    ∀ features observedAt,
    batchTimes reader refusal rows = .ok (features, observedAt) →
    features.records.length = (SnapshotCall.frame reader.reframe rows).records.length := by
  intro features observedAt h
  rw [(batchTimes_ok h).1]
  exact List.length_map _

def materializeCall (reader : ImageReader) (refusal : Option AdaptationError) (first last : Nat) (parent : Option DataVersion)
    (upserts : List Upsert) (deleted : List String) : IngestCall where
  dataset
  version := "cdc-" ++ sixDigits first ++ "-" ++ sixDigits last
  frame := SnapshotCall.frame reader.reframe (upserts.map Upsert.row)
  kind := .cdc
  timestamps := batchTimes reader refusal (upserts.map Upsert.row)
  rowsKept := batchTimes_length
  parentVersion := parent.map (·.version)
  recordKeys := some (upserts.map fun u => some u.key)
  deletedKeys := deleted

def materializeCdc (sha256 : String → String) (reader : ImageReader) (events : CdcDb δ) (db : Datastore) :
    Except AdaptationError (Option DataVersionInfo × CdcDb δ × Datastore) :=
  match pendingEvents dataset events with
  | [] => .ok (none, events, db)
  | first :: rest => do
    let net := netChange ((first :: rest).map (·.event))
    let upserts ← net.upserts reader
    let call := materializeCall dataset reader (reader.refuses (net.images.map Prod.snd)) first.id
      ((first :: rest).getLastD first).id (previousCdcVersion dataset db) upserts net.deleted
    let (info, db) ← call.run sha256 db
    pure (some info, markEvents dataset info.dataVersionId events, db)

end

/-! ## The net change -/

theorem netChange_snoc (events : List (CdcEvent δ)) (e : CdcEvent δ) :
    netChange (events ++ [e]) = (netChange events).insert e.primaryKey e.change := by
  simp [netChange]

theorem lookup_netChange (events : List (CdcEvent δ)) (key : String) :
    (netChange events).lookup key = ((events.filter (·.primaryKey = key)).getLast?).map CdcEvent.change := by
  induction events using List.reverseRecOn with
  | nil => rfl
  | append_singleton events e ih =>
    rw [netChange_snoc]
    by_cases hkey : e.primaryKey = key
    · subst hkey
      rw [AList.lookup_insert]
      simp
    · rw [AList.lookup_insert_ne (Ne.symm hkey), ih]
      simp [hkey]

namespace NetChange

variable {net : NetChange} {reader : ImageReader} {upserts : List Upsert}

theorem mem_images {key : String} {image : RowImage} : (key, image) ∈ net.images ↔
    net.lookup key = some (some image) := by
  rw [images, List.mem_filterMap]
  constructor
  · rintro ⟨⟨k, change⟩, hmem, heq⟩
    obtain ⟨i, rfl, h⟩ := Option.map_eq_some_iff.mp heq
    cases h
    exact AList.mem_lookup_iff.mpr hmem
  · intro h
    exact ⟨⟨key, some image⟩, AList.mem_lookup_iff.mp h, rfl⟩

theorem mem_deleted {key : String} : key ∈ net.deleted ↔ net.lookup key = some none := by
  rw [deleted, List.mem_insertionSort, List.mem_map]
  constructor
  · rintro ⟨⟨k, change⟩, hmem, rfl⟩
    obtain ⟨hmem, hnone⟩ := List.mem_filter.mp hmem
    have hchange : change = none := Option.isNone_iff_eq_none.mp hnone
    subst hchange
    exact AList.mem_lookup_iff.mpr hmem
  · intro h
    exact ⟨⟨key, none⟩, List.mem_filter.mpr ⟨AList.mem_lookup_iff.mp h, rfl⟩, rfl⟩

theorem images_nodup (net : NetChange) : (net.images.map Prod.fst).Nodup := by
  have hsub : (net.images.map Prod.fst).Sublist net.keys := by
    unfold images AList.keys List.keys
    induction net.entries with
    | nil => exact .slnil
    | cons e entries ih =>
      obtain ⟨key, change⟩ := e
      cases change with
      | none => exact ih.cons key
      | some image => exact ih.cons_cons key
  exact hsub.nodup net.keys_nodup

theorem upserts_ok (h : net.upserts reader = .ok upserts) : ∃ ups : List Upsert, upserts.Perm ups ∧
    List.Forall₂ (fun i u => i.1 = u.key ∧ reader.image i.2 = some (u.observedAt, u.payload)) net.images ups := by
  unfold NetChange.upserts at h
  obtain ⟨ups, hups, rfl⟩ := map_ok h
  refine ⟨ups, List.perm_insertionSort _ _, (mapM_ok hups).imp ?_⟩
  intro i u hu
  obtain ⟨p, hp, rfl⟩ := map_ok hu
  exact ⟨rfl, orRaise_ok hp⟩

theorem upserts_keys (h : net.upserts reader = .ok upserts) : (upserts.map Upsert.key).Perm (net.images.map Prod.fst) := by
  obtain ⟨ups, hperm, hall⟩ := upserts_ok h
  have hkeys : net.images.map Prod.fst = ups.map Upsert.key := by
    clear h hperm
    generalize net.images = images at hall
    induction hall with
    | nil => rfl
    | cons hhead _ ih => rw [List.map_cons, List.map_cons, hhead.1, ih]
  rw [hkeys]
  exact hperm.map _

theorem upserts_nodup (h : net.upserts reader = .ok upserts) : (upserts.map Upsert.key).Nodup :=
  (upserts_keys h).nodup_iff.mpr net.images_nodup

theorem mem_upserts (h : net.upserts reader = .ok upserts) {u : Upsert} (hu : u ∈ upserts) :
    ∃ image, net.lookup u.key = some (some image) ∧ reader.image image = some (u.observedAt, u.payload) := by
  obtain ⟨ups, hperm, hall⟩ := upserts_ok h
  obtain ⟨i, hi, hkey, himage⟩ := exists_of_mem_right hall (hperm.mem_iff.mp hu)
  refine ⟨i.2, ?_, himage⟩
  rw [← hkey]
  exact mem_images.mp hi

theorem not_deleted (h : net.upserts reader = .ok upserts) {u : Upsert} (hu : u ∈ upserts) : u.key ∉ net.deleted := by
  intro hdeleted
  obtain ⟨image, hlookup, -⟩ := mem_upserts h hu
  rw [mem_deleted.mp hdeleted] at hlookup
  cases hlookup

end NetChange

/-! ## The version it becomes -/

variable {sha256 : String → String} {dataset : String} {reader : ImageReader} {events events' : CdcDb δ}
  {db db' : Datastore}

theorem materializeCdc_ok {result : Option DataVersionInfo}
    (h : materializeCdc dataset sha256 reader events db = .ok (result, events', db')) :
    (pendingEvents dataset events = [] ∧ result = none ∧ events' = events ∧ db' = db) ∨
    ∃ info upserts refusal first last parent, result = some info ∧ pendingEvents dataset events ≠ [] ∧
      (netChange ((pendingEvents dataset events).map (·.event))).upserts reader = .ok upserts ∧
      (materializeCall dataset reader refusal first last parent upserts
        (netChange ((pendingEvents dataset events).map (·.event))).deleted).run sha256 db = .ok (info, db') ∧
      events' = markEvents dataset info.dataVersionId events ∧ ∃ e ∈ pendingEvents dataset events, e.id = first := by
  unfold materializeCdc at h
  split at h
  · rename_i hnone
    cases h
    exact .inl ⟨hnone, rfl, rfl, rfl⟩
  · rename_i first rest hpending
    obtain ⟨upserts, hupserts, h⟩ := bind_ok h
    obtain ⟨⟨info, db₁⟩, hrun, h⟩ := bind_ok h
    cases h
    rw [hpending]
    exact .inr ⟨info, upserts, _, first.id, ((first :: rest).getLastD first).id, previousCdcVersion dataset db, rfl,
      List.cons_ne_nil _ _, hupserts, hrun, rfl, first, List.mem_cons_self, rfl⟩

/-- What a version holds, whatever is stored later: rows with keys, each key once and none of them deleted. -/
structure CdcShaped (db : Datastore) (id : Nat) : Prop where
  stored : ∃ v, db.version? id = some v ∧ v.storage = .rows ∧
    ∀ r ∈ db.recordsOf id, ∀ key ∈ v.deletedKeys, r.recordKey ≠ some key
  keyed : ∀ r ∈ db.recordsOf id, r.recordKey ≠ none
  unique : ((db.recordsOf id).map (·.recordKey)).Nodup

theorem materialized_shape {refusal : Option AdaptationError} {first last : Nat} {parent : Option DataVersion}
    {upserts : List Upsert} {net : NetChange}
    {info : DataVersionInfo} (hn : db.Numbered) (hups : net.upserts reader = .ok upserts)
    (h : (materializeCall dataset reader refusal first last parent upserts net.deleted).run sha256 db = .ok (info, db'))
    (hcreated : info.created = true) : CdcShaped db' info.dataVersionId := by
  obtain ⟨⟨features, observedAt⟩, hsplit, h⟩ := bind_ok h
  obtain ⟨-, htimes, hkeys⟩ := DataAccess.split_ok hsplit
  obtain ⟨parent, hid, -, hfound, hstored⟩ := (Datastore.create_ok h).later hcreated hn (.refl db')
  have hrows := congrArg (List.map fun r => (r.observedAt, r.payload, r.recordKey)) hstored
  rw [Datastore.numberRows_rows] at hrows
  have hkeysOf := congrArg (List.map fun r => r.2.2) hrows
  simp only [IngestCall.new, IngestCall.rows] at hkeysOf
  rw [List.map_map, DataAccess.zip_keys hkeys htimes] at hkeysOf
  have hrecordKeys : (db'.recordsOf info.dataVersionId).map (·.recordKey) = upserts.map fun u => some u.key := hkeysOf
  have hmem : ∀ r ∈ db'.recordsOf info.dataVersionId, ∃ u ∈ upserts, r.recordKey = some u.key := by
    intro r hr
    have hr' := List.mem_map_of_mem (f := fun r : DataRecord => r.recordKey) hr
    rw [hrecordKeys] at hr'
    obtain ⟨u, hu, heq⟩ := List.mem_map.mp hr'
    exact ⟨u, hu, heq.symm⟩
  refine ⟨⟨_, hfound, rfl, ?_⟩, ?_, ?_⟩
  · intro r hr key hkey heq
    obtain ⟨u, hu, hukey⟩ := hmem r hr
    rw [hukey, Option.some.injEq] at heq
    have hdeleted : key ∈ net.deleted := (List.mem_insertionSort _).mp hkey
    rw [← heq] at hdeleted
    exact NetChange.not_deleted hups hu hdeleted
  · intro r hr hnone
    obtain ⟨u, -, hukey⟩ := hmem r hr
    rw [hukey] at hnone
    cases hnone
  · rw [hrecordKeys]
    have hmap : upserts.map (fun u => some u.key) = (upserts.map Upsert.key).map some := by
      rw [List.map_map]
      rfl
    rw [hmap]
    exact (NetChange.upserts_nodup hups).map (Option.some_injective _)

theorem CdcShaped.extends {id : Nat} (hn : db.Numbered) (he : db.Extends db') (h : CdcShaped db id) : CdcShaped db' id := by
  obtain ⟨v, hv, hstorage, hdeleted⟩ := h.stored
  have hle : id ≤ db.versions.length := by
    rw [← (Datastore.version?_mem hv).2]
    exact hn.id_le (Datastore.version?_mem hv).1
  have hrecords := he.recordsOf hle
  refine ⟨⟨v, he.version? hv, hstorage, ?_⟩, ?_, ?_⟩
  · rw [hrecords]
    exact hdeleted
  · rw [hrecords]
    exact h.keyed
  · rw [hrecords]
    exact h.unique

end OranAdapt
