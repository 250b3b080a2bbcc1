import OranAdapt.Materialize

/-!
# Folding the CDC versions

The CDC versions of a dataset in the order of their ids: the keyed rows of one
replace those before it, and its deleted keys take theirs away. What
`materialize_cdc` adds to the fold is the net change of the events it took.
-/

namespace OranAdapt

variable {δ : Type}

abbrev KeyedRows := AList fun _ : String => DateTime × Payload

namespace Datastore

def putRecord (rows : KeyedRows) (r : DataRecord) : KeyedRows :=
  match r.recordKey with
  | some key => rows.insert key (r.observedAt, r.payload)
  | none => rows

variable (db : Datastore)

def overlay (rows : KeyedRows) (v : DataVersion) : KeyedRows :=
  v.deletedKeys.foldl (fun rows key => rows.erase key) ((db.recordsOf v.id).foldl putRecord rows)

def cdcFold (dataset : String) : KeyedRows :=
  (db.versions.filter fun v => v.dataset = dataset ∧ v.kind = .cdc).foldl db.overlay ∅

variable {db}

theorem lookup_putRecords (records : List DataRecord) (rows : KeyedRows) (key : String) :
    (records.foldl putRecord rows).lookup key =
      (((records.filter fun r => r.recordKey = some key).getLast?).map fun r =>
        (r.observedAt, r.payload)).or (rows.lookup key) := by
  induction records using List.reverseRecOn with
  | nil => rfl
  | append_singleton records r ih =>
    rw [List.foldl_append, List.foldl_cons, List.foldl_nil, List.filter_append]
    cases hkey : r.recordKey with
    | none =>
      rw [putRecord, hkey, ih]
      simp [hkey]
    | some other =>
      rw [putRecord, hkey]
      by_cases heq : other = key
      · subst heq
        rw [AList.lookup_insert]
        simp [hkey]
      · rw [AList.lookup_insert_ne (Ne.symm heq), ih]
        simp [hkey, heq]

theorem lookup_erases (keys : List String) (rows : KeyedRows) (key : String) :
    (keys.foldl (fun rows key => rows.erase key) rows).lookup key = if key ∈ keys then none else rows.lookup key := by
  induction keys generalizing rows with
  | nil => simp
  | cons gone keys ih =>
    rw [List.foldl_cons, ih]
    by_cases heq : key = gone
    · subst heq
      simp [AList.lookup_erase]
    · rw [AList.lookup_erase_ne heq]
      simp [heq]

theorem lookup_overlay (v : DataVersion) (rows : KeyedRows) (key : String) :
    (db.overlay rows v).lookup key = if key ∈ v.deletedKeys then none
      else ((((db.recordsOf v.id).filter fun r => r.recordKey = some key).getLast?).map fun r =>
        (r.observedAt, r.payload)).or (rows.lookup key) := by
  rw [overlay, lookup_erases, lookup_putRecords]

variable {db' : Datastore} {new : NewVersion} {parent : Option Nat}

theorem cdcFold_add (hn : db.Numbered) (hsame : (db.add new parent).SameData db') (dataset : String) :
    db'.cdcFold dataset = if new.dataset = dataset ∧ new.kind = .cdc
      then db'.overlay (db.cdcFold dataset) (db.newVersion new parent) else db.cdcFold dataset := by
  have he : db.Extends db' := (add_extends db new parent).trans hsame.extends
  have hold : ∀ vs : List DataVersion, (∀ v ∈ vs, v ∈ db.versions) →
      ∀ rows : KeyedRows, vs.foldl db'.overlay rows = vs.foldl db.overlay rows := by
    intro vs
    induction vs with
    | nil => exact fun _ _ => rfl
    | cons v vs ih =>
      intro hvs rows
      have hrecords := he.recordsOf (hn.id_le (hvs v List.mem_cons_self))
      rw [List.foldl_cons, List.foldl_cons, ih fun u hu => hvs u (List.mem_cons_of_mem _ hu), overlay, overlay, hrecords]
  have hversions : db'.versions = db.versions ++ [db.newVersion new parent] := hsame.versions
  rw [cdcFold, hversions, List.filter_append, List.foldl_append, hold _ (fun v hv => (List.mem_filter.mp hv).1), ← cdcFold]
  have hkind : (db.newVersion new parent).dataset = dataset ∧ (db.newVersion new parent).kind = .cdc ↔
      new.dataset = dataset ∧ new.kind = .cdc := Iff.rfl
  simp only [List.filter_cons, List.filter_nil, decide_eq_true_eq, hkind]
  by_cases hnew : new.dataset = dataset ∧ new.kind = .cdc
  · rw [if_pos hnew, if_pos hnew]
    rfl
  · rw [if_neg hnew, if_neg hnew]
    rfl

end Datastore

/-! ## The version of a net change -/

namespace NetChange

variable {net : NetChange} {reader : ImageReader} {upserts : List Upsert}

theorem read_of_upserts (h : net.upserts reader = .ok upserts) {key : String} {image : RowImage}
    (himage : net.lookup key = some (some image)) : ∃ u ∈ upserts, u.key = key ∧
      reader.image image = some (u.observedAt, u.payload) := by
  obtain ⟨ups, hperm, hall⟩ := upserts_ok h
  obtain ⟨u, hu, hkey, hread⟩ := exists_of_mem_left hall (mem_images.mpr himage)
  exact ⟨u, hperm.mem_iff.mpr hu, hkey.symm, hread⟩

theorem last_upsert (h : net.upserts reader = .ok upserts) (key : String) :
    ((upserts.filter fun u => u.key = key).getLast?).map (fun u => (u.observedAt, u.payload)) =
      (net.lookup key).join.bind reader.image := by
  cases hlast : (upserts.filter fun u => u.key = key).getLast? with
  | some u =>
    have hu := List.mem_filter.mp (List.mem_of_getLast? hlast)
    obtain ⟨image, hlookup, hread⟩ := mem_upserts h hu.1
    rw [of_decide_eq_true hu.2] at hlookup
    rw [hlookup]
    exact hread.symm
  | none =>
    rw [List.getLast?_eq_none_iff, List.filter_eq_nil_iff] at hlast
    cases hjoin : (net.lookup key).join with
    | none => rfl
    | some image =>
      obtain ⟨u, hu, hkey, -⟩ := read_of_upserts h (Option.join_eq_some_iff.mp hjoin)
      exact absurd (decide_eq_true hkey) (hlast u hu)

end NetChange

variable {sha256 : String → String} {dataset : String} {reader : ImageReader} {db db' : Datastore} {net : NetChange}
  {upserts : List Upsert} {refusal : Option AdaptationError} {first last : Nat} {parent : Option DataVersion}
  {info : DataVersionInfo}

theorem materialized_records (hn : db.Numbered) (hkeeps : FrameKeeps reader.reframe (upserts.map (·.payload)))
    (h : (materializeCall dataset reader refusal first last parent upserts net.deleted).run sha256 db = .ok (info, db'))
    (hcreated : info.created = true) :
    (db'.recordsOf info.dataVersionId).map (fun r => (r.observedAt, r.payload, r.recordKey)) =
      upserts.map fun u => (u.observedAt, u.payload, some u.key) := by
  obtain ⟨⟨features, observedAt⟩, hsplit, h⟩ := bind_ok h
  have htimes := (DataAccess.split_ok hsplit).1
  obtain ⟨parent, hid, -, -, hstored⟩ := (Datastore.create_ok h).later hcreated hn (.refl db')
  have hrows := congrArg (List.map fun r => (r.observedAt, r.payload, r.recordKey)) hstored
  rw [Datastore.numberRows_rows] at hrows
  obtain ⟨rfl, rfl⟩ := batchTimes_ok htimes
  rw [hrows]
  have hpayloads : (SnapshotCall.features reader.reframe (upserts.map Upsert.row)).records = upserts.map (·.payload) := by
    have hsame : (upserts.map Upsert.row).map (·.payload) = upserts.map (·.payload) := List.map_map
    have hmap : ∀ p ∈ upserts.map (·.payload), p.without "__observed_at" = p := fun p hp =>
      Payload.without_of_not_mem (hkeeps.2 p hp)
    rw [SnapshotCall.features, hsame, hkeeps.1]
    exact (List.map_congr_left hmap).trans (List.map_id _)
  change List.zip _ (List.zip _ (upserts.map fun u => some u.key)) = _
  rw [hpayloads, List.map_map, List.zip_map', List.zip_map']
  rfl

theorem last_record {records : List DataRecord} {upserts : List Upsert}
    (h : records.map (fun r => (r.observedAt, r.payload, r.recordKey)) =
      upserts.map fun u => (u.observedAt, u.payload, some u.key))
    (key : String) : ((records.filter fun r => r.recordKey = some key).getLast?).map (fun r => (r.observedAt, r.payload)) =
      ((upserts.filter fun u => u.key = key).getLast?).map fun u => (u.observedAt, u.payload) := by
  have hfilter := congrArg (List.filter fun r => decide (r.2.2 = some key)) h
  rw [List.filter_map, List.filter_map] at hfilter
  have hlast := congrArg (fun l => (l.getLast?).map fun r => (r.1, r.2.1)) hfilter
  simp only [List.getLast?_map, Option.map_map, Function.comp_def, Option.some.injEq] at hlast
  exact hlast

theorem lookup_materialized (hn : db.Numbered) (hups : net.upserts reader = .ok upserts)
    (hkeeps : FrameKeeps reader.reframe (upserts.map (·.payload)))
    (h : (materializeCall dataset reader refusal first last parent upserts net.deleted).run sha256 db = .ok (info, db'))
    (hcreated : info.created = true) (other key : String) :
    (db'.cdcFold other).lookup key = if dataset = other
      then ((net.lookup key).map (·.bind reader.image)).getD ((db.cdcFold other).lookup key)
      else (db.cdcFold other).lookup key := by
  have hlast := last_record (materialized_records hn hkeeps h hcreated) key
  rw [NetChange.last_upsert hups key] at hlast
  obtain ⟨⟨features, observedAt⟩, hsplit, h⟩ := bind_ok h
  cases Datastore.create_ok h with
  | replay => cases hcreated
  | @fresh parentId _ hfree hsame =>
    rw [Datastore.cdcFold_add hn hsame]
    by_cases hother : dataset = other
    · subst hother
      have hdeleted : key ∈ net.deleted.insertionSort (· ≤ ·) ↔ net.lookup key = some none :=
        (List.mem_insertionSort _).trans NetChange.mem_deleted
      rw [if_pos rfl, if_pos ⟨rfl, rfl⟩, Datastore.lookup_overlay]
      change (if key ∈ net.deleted.insertionSort (· ≤ ·) then none else Option.or (Option.map _
        ((db'.recordsOf db.nextVersionId).filter _).getLast?) _) = _
      rw [hlast]
      cases hnet : net.lookup key with
      | none => exact if_neg fun hk => by simp [hdeleted.mp hk] at hnet
      | some change =>
        cases change with
        | none => exact if_pos (hdeleted.mpr hnet)
        | some image =>
          obtain ⟨u, -, -, hread⟩ := NetChange.read_of_upserts hups hnet
          refine (if_neg fun hk => by simp [hdeleted.mp hk] at hnet).trans ?_
          simp [hread]
    · rw [if_neg hother, if_neg fun h => hother h.1]

/-! ## Names -/

theorem sixDigits_digits (n : Nat) :
    (∀ c ∈ (sixDigits n).toList, c ≠ '-') ∧ Nat.ofDigitChars 10 (sixDigits n).toList 0 = n := by
  have hlist : (sixDigits n).toList = List.replicate (6 - (toString n).length) '0' ++ Nat.toDigits 10 n := by
    rw [sixDigits, String.toList_append, String.toList_ofList, Nat.toString_eq_ofList_toDigits, String.toList_ofList]
  rw [hlist]
  constructor
  · rintro c hc rfl
    rcases List.mem_append.mp hc with hc | hc
    · exact absurd (List.eq_of_mem_replicate hc) (by decide)
    · exact absurd (Nat.isDigit_of_mem_toDigits (by decide) (by decide) hc) (by decide)
  · rw [Nat.ofDigitChars_append, Nat.ofDigitChars_replicate_zero, Nat.mul_zero, Nat.ofDigitChars_ten_toDigits]

/-- A version's name tells the first event it covers. -/
theorem cdcName_first {a b c d : Nat}
    (h : "cdc-" ++ sixDigits a ++ "-" ++ sixDigits b = "cdc-" ++ sixDigits c ++ "-" ++ sixDigits d) :
    a = c := by
  have hlist := congrArg String.toList h
  simp only [String.toList_append, List.append_assoc] at hlist
  have hcut := congrArg (List.takeWhile (· != '-')) (List.append_cancel_left hlist)
  have htake : ∀ m n, ((sixDigits m).toList ++ ("-".toList ++ (sixDigits n).toList)).takeWhile (· != '-') =
      (sixDigits m).toList := by
    intro m n
    rw [List.takeWhile_append_of_pos fun x hx => by simpa using (sixDigits_digits m).1 x hx]
    exact List.append_nil _
  rw [htake, htake] at hcut
  rw [← (sixDigits_digits a).2, hcut, (sixDigits_digits c).2]

/-! ## The events folded -/

theorem lookup_netChange_append (done events : List (CdcEvent δ)) (key : String) :
    (netChange (done ++ events)).lookup key = ((netChange events).lookup key).or ((netChange done).lookup key) := by
  rw [lookup_netChange, lookup_netChange, lookup_netChange, List.filter_append, List.getLast?_append]
  cases (events.filter fun e => e.primaryKey = key).getLast? <;> rfl

section
variable (dataset : String) (events : CdcDb δ)

def eventsOf : List (CdcEventRecord δ) := events.events.filter fun e => e.event.datasetId = some dataset

def foldedEvents : List (CdcEventRecord δ) :=
  events.events.filter fun e => e.event.datasetId = some dataset ∧ e.dataVersionId ≠ none

/-- What the versions say of a key, by the events they hold. -/
def foldedChange (key : String) : Option (Option RowImage) :=
  (netChange ((foldedEvents dataset events).map (·.event))).lookup key

end

/-- The CDC versions are the events they hold: of each dataset the first ones, folded. -/
structure Folded (reader : ImageReader) (events : CdcDb δ) (db : Datastore) : Prop where
  numbered : db.Numbered
  ids : events.events.map (·.id) = List.range' 1 events.events.length
  parted : ∀ dataset, foldedEvents dataset events ++ pendingEvents dataset events = eventsOf dataset events
  named : ∀ v ∈ db.versions, v.kind = .cdc ∧ ∃ e ∈ foldedEvents v.dataset events, ∃ last,
    v.version = "cdc-" ++ sixDigits e.id ++ "-" ++ sixDigits last
  marked : ∀ e ∈ events.events, ∀ id, e.dataVersionId = some id → ∃ v ∈ db.versions, v.id = id ∧
    e.event.datasetId = some v.dataset
  folded : ∀ dataset key, (db.cdcFold dataset).lookup key = (foldedChange dataset events key).join.bind reader.image
  readable : ∀ dataset key image, foldedChange dataset events key = some (some image) →
    ∃ row, reader.image image = some row

variable {events events' : CdcDb δ}

theorem mem_foldedEvents {e : CdcEventRecord δ} : e ∈ foldedEvents dataset events ↔
    e ∈ events.events ∧ e.event.datasetId = some dataset ∧ e.dataVersionId ≠ none := by
  rw [foldedEvents, List.mem_filter, decide_eq_true_eq]

theorem mem_pendingEvents {e : CdcEventRecord δ} : e ∈ pendingEvents dataset events ↔
    e ∈ events.events ∧ e.event.datasetId = some dataset ∧ e.dataVersionId = none := by
  rw [pendingEvents, List.mem_filter, decide_eq_true_eq]

theorem folded_empty (reader : ImageReader) : Folded reader ({} : CdcDb δ) {} := by
  refine ⟨Datastore.numbered_empty, rfl, fun _ => rfl, ?_, ?_, fun _ _ => rfl, ?_⟩
  · intro v hv
    cases hv
  · intro e he
    cases he
  · intro dataset key image h
    cases h

theorem Folded.event_unique (h : Folded reader events db) {e e' : CdcEventRecord δ} (he : e ∈ events.events)
    (he' : e' ∈ events.events) (hid : e.id = e'.id) : e = e' := by
  refine List.inj_on_of_nodup_map ?_ he he' hid
  rw [h.ids]
  exact List.nodup_range'

/-! ### Storing -/

theorem Folded.append (h : Folded reader events db) {new : List (CdcEventRecord δ)}
    (hevents : events'.events = events.events ++ new)
    (hnone : ∀ e ∈ new, e.dataVersionId = none)
    (hids : new.map (·.id) = List.range' (events.events.length + 1) new.length) :
    Folded reader events' db := by
  have hfolded : ∀ dataset, foldedEvents dataset events' = foldedEvents dataset events := by
    intro dataset
    have hnew : new.filter (fun e => decide (e.event.datasetId = some dataset ∧ e.dataVersionId ≠ none)) = [] := by
      rw [List.filter_eq_nil_iff]
      intro e he hmarked
      exact (of_decide_eq_true hmarked).2 (hnone e he)
    rw [foldedEvents, hevents, List.filter_append, hnew, List.append_nil, foldedEvents]
  have hchange : ∀ dataset key, foldedChange dataset events' key = foldedChange dataset events key := by
    intro dataset key
    rw [foldedChange, hfolded, foldedChange]
  refine ⟨h.numbered, ?_, ?_, ?_, ?_, ?_, ?_⟩
  · rw [hevents, List.map_append, h.ids, hids, List.length_append, Nat.add_comm events.events.length 1]
    exact List.range'_append_1
  · intro dataset
    have hnew : new.filter (fun e => decide (e.event.datasetId = some dataset ∧ e.dataVersionId = none)) =
        new.filter fun e => decide (e.event.datasetId = some dataset) := by
      refine List.filter_congr fun e he => ?_
      rw [hnone e he]
      simp
    rw [hfolded, pendingEvents, eventsOf, hevents, List.filter_append, List.filter_append, hnew, ← List.append_assoc]
    exact congrArg (· ++ _) (h.parted dataset)
  · intro v hv
    rw [hfolded]
    exact h.named v hv
  · intro e he id hid
    rw [hevents] at he
    rcases List.mem_append.mp he with he | he
    · exact h.marked e he id hid
    · rw [hnone e he] at hid
      cases hid
  · intro dataset key
    rw [hchange]
    exact h.folded dataset key
  · intro dataset key image
    rw [hchange]
    exact h.readable dataset key image

/-! ### Materializing -/

theorem mem_markEvents {id : Nat} {e' : CdcEventRecord δ} : e' ∈ (markEvents dataset id events).events ↔
    ∃ e ∈ events.events, (if e.event.datasetId = some dataset ∧ e.dataVersionId = none
      then { e with dataVersionId := some id } else e) = e' := by
  rw [markEvents, List.mem_map]

/-- The events of another dataset, and those held by a version, stay as they are. -/
theorem mem_markEvents_of_not_pending {id : Nat} {e : CdcEventRecord δ} (he : e ∈ events.events)
    (h : e ∉ pendingEvents dataset events) : e ∈ (markEvents dataset id events).events :=
  mem_markEvents.mpr ⟨e, he, if_neg fun hp => h (mem_pendingEvents.mpr ⟨he, hp⟩)⟩

theorem filter_markEvents {id : Nat} {other : String} (hother : dataset ≠ other) {P : CdcEventRecord δ → Bool}
    (hP : ∀ e, P e = true → e.event.datasetId = some other) :
    (markEvents dataset id events).events.filter P = events.events.filter P := by
  unfold markEvents
  dsimp only
  induction events.events with
  | nil => rfl
  | cons e rest ih =>
    rw [List.map_cons]
    by_cases hpending : e.event.datasetId = some dataset ∧ e.dataVersionId = none
    · have hnot : ∀ x : CdcEventRecord δ, x.event = e.event → ¬P x = true := by
        intro x hx hPx
        have hd := hP x hPx
        rw [hx, hpending.1, Option.some.injEq] at hd
        exact hother hd
      rw [if_pos hpending, List.filter_cons_of_neg (hnot { e with dataVersionId := some id } rfl),
        List.filter_cons_of_neg (hnot e rfl)]
      exact ih
    · rw [if_neg hpending, List.filter_cons, List.filter_cons, ih]

theorem eventsOf_markEvents (dataset other : String) (id : Nat) (events : CdcDb δ) :
    (eventsOf other (markEvents dataset id events)).map (·.event) = (eventsOf other events).map (·.event) := by
  unfold eventsOf markEvents
  induction events.events with
  | nil => rfl
  | cons e rest ih =>
    have hevent : (if e.event.datasetId = some dataset ∧ e.dataVersionId = none then { e with dataVersionId := some id }
        else e).event = e.event := by
      split <;> rfl
    rw [List.map_cons, List.filter_cons, List.filter_cons, hevent]
    split
    · rw [List.map_cons, List.map_cons, ih, hevent]
    · exact ih

theorem marked_all (dataset : String) (id : Nat) (events : CdcDb δ) :
    pendingEvents dataset (markEvents dataset id events) = [] ∧
    foldedEvents dataset (markEvents dataset id events) = eventsOf dataset (markEvents dataset id events) := by
  have hmarked : ∀ e ∈ (markEvents dataset id events).events, e.event.datasetId = some dataset →
      e.dataVersionId ≠ none := by
    intro e he hd
    obtain ⟨x, -, rfl⟩ := mem_markEvents.mp he
    split at hd
    · rename_i hpending
      rw [if_pos hpending]
      exact Option.some_ne_none id
    · rename_i hpending
      rw [if_neg hpending]
      exact fun hnone => hpending ⟨hd, hnone⟩
  constructor
  · rw [pendingEvents, List.filter_eq_nil_iff]
    intro e he hp
    exact hmarked e he (of_decide_eq_true hp).1 (of_decide_eq_true hp).2
  · refine List.filter_congr fun e he => decide_eq_decide.mpr ⟨And.left, fun hd => ⟨hd, hmarked e he hd⟩⟩

/-- The name of a new version is free: it tells an event that no version holds. -/
theorem Folded.free (h : Folded reader events db) {e : CdcEventRecord δ} (he : e ∈ pendingEvents dataset events)
    (last : Nat) :
    db.findVersion dataset ("cdc-" ++ sixDigits e.id ++ "-" ++ sixDigits last) = none := by
  rw [Datastore.findVersion, List.find?_eq_none]
  intro v hv hfound
  obtain ⟨-, hname⟩ := of_decide_eq_true hfound
  obtain ⟨-, x, hx, last', hx'⟩ := h.named v hv
  obtain ⟨hmem, -, hpending⟩ := mem_pendingEvents.mp he
  obtain ⟨hmem', -, hmarked⟩ := mem_foldedEvents.mp hx
  rw [hx'] at hname
  rw [h.event_unique hmem' hmem (cdcName_first hname)] at hmarked
  exact hmarked hpending

/-- The payloads of the version to be made come back from its frame. -/
def FrameKept (reader : ImageReader) (dataset : String) (events : CdcDb δ) : Prop :=
  ∀ upserts, (netChange ((pendingEvents dataset events).map (·.event))).upserts reader = .ok upserts →
    FrameKeeps reader.reframe (upserts.map (·.payload))

theorem foldedEvents_other {id : Nat} {other : String} (hother : dataset ≠ other) :
    foldedEvents other (markEvents dataset id events) = foldedEvents other events :=
  filter_markEvents hother fun _ he => (of_decide_eq_true he).1

theorem foldedChange_other {id : Nat} {other : String} (hother : dataset ≠ other) (key : String) :
    foldedChange other (markEvents dataset id events) key = foldedChange other events key := by
  rw [foldedChange, foldedEvents_other hother, foldedChange]

theorem Folded.change_self (h : Folded reader events db) (dataset : String) (id : Nat) (key : String) :
    foldedChange dataset (markEvents dataset id events) key =
      ((netChange ((pendingEvents dataset events).map (·.event))).lookup key).or (foldedChange dataset events key) := by
  rw [foldedChange, (marked_all dataset id events).2, eventsOf_markEvents, ← h.parted, List.map_append,
    lookup_netChange_append, foldedChange]

theorem Folded.materialize (h : Folded reader events db) (hkept : FrameKept reader dataset events)
    {result : Option DataVersionInfo} (hrun : materializeCdc dataset sha256 reader events db = .ok (result, events', db')) :
    Folded reader events' db' := by
  rcases materializeCdc_ok hrun with ⟨-, -, rfl, rfl⟩ |
    ⟨info, upserts, refusal, first, last, parent, -, -, hups, hcall, rfl, x, hx, rfl⟩
  · exact h
  have hnet := lookup_materialized h.numbered hups (hkept upserts hups) hcall
  obtain ⟨⟨features, observedAt⟩, hsplit, hcreate⟩ := bind_ok hcall
  cases Datastore.create_ok hcreate with
  | replay hfound =>
    have hfree := h.free hx last
    change db.findVersion dataset ("cdc-" ++ sixDigits x.id ++ "-" ++ sixDigits last) = _ at hfound
    rw [hfree] at hfound
    cases hfound
  | @fresh parentId _ hfree hsame =>
    have hversions : db'.versions = db.versions ++ [db.newVersion _ parentId] := hsame.versions
    have hx' := mem_pendingEvents.mp hx
    refine ⟨hsame.numbered (Datastore.add_numbered h.numbered hfree parentId), ?_, ?_, ?_, ?_, ?_, ?_⟩
    · have hids : (markEvents dataset db.nextVersionId events).events.map (·.id) = events.events.map (·.id) := by
        rw [markEvents, List.map_map]
        refine List.map_congr_left fun e _ => ?_
        simp only [Function.comp_apply]
        split <;> rfl
      refine hids.trans (h.ids.trans ?_)
      rw [markEvents, List.length_map]
    · intro other
      by_cases hother : dataset = other
      · subst hother
        rw [(marked_all dataset _ events).1, List.append_nil]
        exact (marked_all dataset _ events).2
      · rw [foldedEvents_other hother, pendingEvents, eventsOf, filter_markEvents hother fun _ he =>
          (of_decide_eq_true he).1,
          filter_markEvents hother fun _ he => of_decide_eq_true he]
        exact h.parted other
    · intro v hv
      rw [hversions] at hv
      rcases List.mem_append.mp hv with hv | hv
      · obtain ⟨hkind, e, he, hname⟩ := h.named v hv
        obtain ⟨hmem, hd, hmarked⟩ := mem_foldedEvents.mp he
        refine ⟨hkind, e, mem_foldedEvents.mpr ⟨mem_markEvents_of_not_pending hmem fun hp => ?_, hd, hmarked⟩, hname⟩
        exact hmarked (mem_pendingEvents.mp hp).2.2
      · rw [List.mem_singleton.mp hv]
        have hnew : { x with dataVersionId := some db.nextVersionId } ∈
            (markEvents dataset db.nextVersionId events).events :=
          mem_markEvents.mpr ⟨x, hx'.1, if_pos hx'.2⟩
        exact ⟨rfl, _, mem_foldedEvents.mpr ⟨hnew, hx'.2.1, Option.some_ne_none _⟩, last, rfl⟩
    · intro e' he' id hid
      obtain ⟨e, he, rfl⟩ := mem_markEvents.mp he'
      rw [hversions]
      by_cases hpending : e.event.datasetId = some dataset ∧ e.dataVersionId = none
      · rw [if_pos hpending] at hid ⊢
        cases hid
        exact ⟨_, List.mem_append_right _ (List.mem_singleton.mpr rfl), rfl, hpending.1⟩
      · rw [if_neg hpending] at hid ⊢
        obtain ⟨v, hv, hvid, hd⟩ := h.marked e he id hid
        exact ⟨v, List.mem_append_left _ hv, hvid, hd⟩
    · intro other key
      rw [hnet rfl]
      by_cases hother : dataset = other
      · subst hother
        rw [if_pos rfl, h.change_self, h.folded]
        cases (netChange ((pendingEvents dataset events).map (·.event))).lookup key <;> rfl
      · rw [if_neg hother, foldedChange_other hother]
        exact h.folded other key
    · intro other key image himage
      by_cases hother : dataset = other
      · subst hother
        rw [h.change_self] at himage
        rcases Option.or_eq_some_iff.mp himage with hnew | ⟨-, hold⟩
        · obtain ⟨u, -, -, hread⟩ := NetChange.read_of_upserts hups hnew
          exact ⟨_, hread⟩
        · exact h.readable dataset key image hold
      · rw [foldedChange_other hother] at himage
        exact h.readable other key image himage

end OranAdapt
