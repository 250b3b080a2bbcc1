import OranAdapt.TrainingChain

/-!
# Conflict resolution over several jobs

While every job is given its versions in order and every snapshot keeps the
keys and the newest rows, the rows each job is cleaned to hold of each source
row at most the newest image. Newness is by version id: a snapshot has a
higher id than every version given before it, so what decides between a
snapshot's row and a version's is where the version stands to the snapshot.
-/

namespace OranAdapt

open Runs DataAccess

variable {sha256 : String → String} {access : DataAccess} {db db' : Datastore}

/-! ## What stays said -/

namespace Datastore

variable {id : Nat} {key : String} {image : DateTime × Payload} {given : List Nat}

theorem known_le (hn : db.Numbered) (h : ∃ v, db.version? id = some v) : id ≤ db.versions.length := by
  obtain ⟨v, hv⟩ := h
  rw [← (version?_mem hv).2]
  exact hn.id_le (version?_mem hv).1

theorem hasImage_extends (hn : db.Numbered) (he : db.Extends db') (h : ∃ v, db.version? id = some v) :
    db'.HasImage id key image ↔ db.HasImage id key image := by
  rw [HasImage, he.recordsOf (known_le hn h), HasImage]

theorem deletes_extends (he : db.Extends db') (h : ∃ v, db.version? id = some v) :
    db'.Deletes id key ↔ db.Deletes id key := by
  obtain ⟨v, hv⟩ := h
  have hv' := he.version? hv
  simp [Deletes, hv, hv']

theorem mentions_extends (hn : db.Numbered) (he : db.Extends db') (h : ∃ v, db.version? id = some v) :
    db'.Mentions id key ↔ db.Mentions id key := by
  simp only [Mentions, hasImage_extends hn he h, deletes_extends he h]

theorem Current.extends (hn : db.Numbered) (he : db.Extends db') (hgiven : ∀ id ∈ given, ∃ v, db.version? id = some v)
    (h : db.Current given key image) : db'.Current given key image := by
  obtain ⟨id, hid, himage, hnewest⟩ := h
  refine ⟨id, hid, (hasImage_extends hn he (hgiven id hid)).mpr himage, ?_⟩
  intro other hother hmention
  exact hnewest other hother ((mentions_extends hn he (hgiven other hother)).mp hmention)

end Datastore

theorem CdcShaped.known {id : Nat} (h : CdcShaped db id) : ∃ v, db.version? id = some v := by
  obtain ⟨v, hv, -⟩ := h.stored
  exact ⟨v, hv⟩

theorem CdcShaped.rows {id : Nat} (h : CdcShaped db id) :
    (access.rowsOf sha256 db id).Perm ((db.recordsOf id).map DataRecord.row) := by
  obtain ⟨v, hv, hstorage, -⟩ := h.stored
  exact rowsOf_stored hv hstorage

theorem CdcShaped.image {id : Nat} (h : CdcShaped db id) {r : Row} {key : String} (hr : r ∈ access.rowsOf sha256 db id)
    (hkey : r.recordKey = some key) : db.HasImage id key r.pair := by
  obtain ⟨d, hd, rfl⟩ := List.mem_map.mp (h.rows.mem_iff.mp hr)
  exact ⟨d, hd, hkey, rfl⟩

theorem CdcShaped.row {id : Nat} (h : CdcShaped db id) {key : String} {image : DateTime × Payload}
    (himage : db.HasImage id key image) : ∃ r ∈ access.rowsOf sha256 db id, r.recordKey = some key := by
  obtain ⟨d, hd, hkey, -⟩ := himage
  exact ⟨d.row, h.rows.mem_iff.mpr (List.mem_map_of_mem hd), hkey⟩

theorem CdcShaped.keyed_rows {id : Nat} (h : CdcShaped db id) {r : Row} (hr : r ∈ access.rowsOf sha256 db id) :
    r.recordKey ≠ none := by
  obtain ⟨d, hd, rfl⟩ := List.mem_map.mp (h.rows.mem_iff.mp hr)
  exact h.keyed d hd

/-! ## Baselines -/

def Baseline.rows (b : Baseline) (sha256 : String → String) (access : DataAccess) (db : Datastore) : List Row :=
  b.versionId.toList.flatMap (access.rowsOf sha256 db)

/-- A baseline: of each key the latest row by timestamp is the newest image of the versions given, and it is
newer than all of these versions. -/
structure SettledBaseline (sha256 : String → String) (access : DataAccess) (db : Datastore)
    (cdc : List Nat) (b : Baseline) : Prop where
  given : ∀ id ∈ b.given, id ∈ cdc
  start : b.versionId = none → b.given = []
  known : ∀ base ∈ b.versionId, (∃ v, db.version? base = some v) ∧ ∀ id ∈ b.given, id ≤ base
  newest : ∀ r ∈ b.rows sha256 access db, ∀ key, r.recordKey = some key → ∃ t ∈ b.rows sha256 access db,
    t.recordKey = some key ∧ db.Current b.given key t.pair ∧ (r.pair = t.pair ∨ r.observedAt < t.observedAt)
  plain : (((b.rows sha256 access db).filter fun r => r.recordKey = none).map (·.observedAt)).Subperm b.plain

/-- What is known of the datastore and the CDC versions. -/
structure Stored (db : Datastore) (cdc : List Nat) : Prop where
  numbered : db.Numbered
  layered : db.Layered
  shaped : ∀ id ∈ cdc, CdcShaped db id

variable {cdc cdc' : List Nat} {b : Baseline} {later : Option Nat} {id : Nat} {key : String}

theorem Baseline.rows_extends (hs : Stored db cdc) (hb : SettledBaseline sha256 access db cdc b) (he : db.Extends db') :
    b.rows sha256 access db' = b.rows sha256 access db := by
  unfold Baseline.rows
  cases hbase : b.versionId with
  | none => rfl
  | some base => simp [rowsOf_extends hs.layered hs.numbered he (hb.known base hbase).1]

theorem SettledBaseline.extends (hs : Stored db cdc) (he : db.Extends db') (hcdc : ∀ id ∈ cdc, id ∈ cdc')
    (hb : SettledBaseline sha256 access db cdc b) : SettledBaseline sha256 access db' cdc' b := by
  have hrows := Baseline.rows_extends hs hb he
  refine ⟨fun id hid => hcdc id (hb.given id hid), hb.start, ?_, ?_, ?_⟩
  · intro base hbase
    obtain ⟨⟨v, hv⟩, hle⟩ := hb.known base hbase
    exact ⟨⟨v, he.version? hv⟩, hle⟩
  · rw [hrows]
    intro r hr key hkey
    obtain ⟨t, ht, htkey, hcurrent, hold⟩ := hb.newest r hr key hkey
    have hgiven : ∀ id ∈ b.given, ∃ v, db.version? id = some v := fun id hid => (hs.shaped id (hb.given id hid)).known
    exact ⟨t, ht, htkey, hcurrent.extends hs.numbered he hgiven, hold⟩
  · rw [hrows]
    exact hb.plain

theorem InOrder.extends (hs : Stored db cdc) (hb : SettledBaseline sha256 access db cdc b)
    (hid : id ∈ cdc) (he : db.Extends db')
    {rows : List Row} (h : InOrder db b rows id) : InOrder db' b rows id := by
  have hknown := (hs.shaped id hid).known
  have hgiven : ∀ other ∈ b.given, ∃ v, db.version? other = some v :=
    fun other hother => (hs.shaped other (hb.given other hother)).known
  constructor
  · intro key hmention hlast hkey
    rw [Datastore.mentions_extends hs.numbered he hknown] at hmention
    rw [he.recordsOf (Datastore.known_le hs.numbered hknown)]
    apply h.newer key hmention _ hkey
    intro other hother hmention'
    exact hlast other hother ((Datastore.mentions_extends hs.numbered he (hgiven other hother)).mpr hmention')
  · intro key image himage hnewer
    rw [Datastore.hasImage_extends hs.numbered he hknown] at himage
    obtain ⟨other, hother, hmention, hlt⟩ := hnewer
    rw [Datastore.mentions_extends hs.numbered he (hgiven other hother)] at hmention
    exact h.older key image himage ⟨other, hother, hmention, hlt⟩

/-! ## The newest row of a key -/

theorem observedAt_le_of_rank {r t : Row} (hid : r.dataVersionId = t.dataVersionId) (h : r.rank ≤ t.rank) :
    r.observedAt ≤ t.observedAt := by
  rcases Prod.Lex.toLex_le_toLex.mp h with hlt | ⟨-, hle⟩
  · rw [hid] at hlt
    exact absurd hlt (lt_irrefl _)
  · rcases Prod.Lex.toLex_le_toLex.mp hle with hlt | ⟨heq, -⟩
    · exact le_of_lt hlt
    · exact le_of_eq heq

theorem version_le_of_rank {r t : Row} (h : r.rank ≤ t.rank) : r.dataVersionId ≤ t.dataVersionId := by
  rcases Prod.Lex.toLex_le_toLex.mp h with hlt | ⟨heq, -⟩
  · exact le_of_lt hlt
  · exact le_of_eq heq

/-- The row of the highest rank of a key, where no newer source that has rows deletes the key, is the newest
image of the versions given, the later one among them. -/
theorem current_of_newest (hs : Stored db cdc) (hb : SettledBaseline sha256 access db cdc b)
    (hlater : ∀ id ∈ later, id ∈ cdc)
    (horder : ∀ id ∈ later, InOrder db b (b.rows sha256 access db) id) {t : Row}
    (ht : t ∈ (b.sources later).flatMap (access.rowsOf sha256 db)) (hkey : t.recordKey = some key)
    (hmax : ∀ r ∈ (b.sources later).flatMap (access.rowsOf sha256 db), r.recordKey = some key → r.rank ≤ t.rank)
    (hdeleted : ∀ id ∈ later, db.recordsOf id ≠ [] → t.dataVersionId < id → ¬db.Deletes id key) :
    db.Current (b.givenTo later) key t.pair := by
  have hbase : ∀ r ∈ b.rows sha256 access db, r ∈ (b.sources later).flatMap (access.rowsOf sha256 db) := by
    intro r hr
    rw [Baseline.sources, List.flatMap_append]
    exact List.mem_append_left _ hr
  have hlast : ∀ id ∈ later, ∀ r ∈ access.rowsOf sha256 db id,
      r ∈ (b.sources later).flatMap (access.rowsOf sha256 db) := by
    intro id hid r hr
    exact List.mem_flatMap.mpr ⟨id, List.mem_append_right _ (Option.mem_toList.mpr hid), hr⟩
  have hgiven : ∀ other, other ∈ b.givenTo later ↔ other ∈ b.given ∨ other ∈ later := by
    intro other
    rw [Baseline.givenTo, List.mem_append, Option.mem_toList]
    exact Iff.rfl
  obtain ⟨source, hsource, hrow⟩ := List.mem_flatMap.mp ht
  have htid : t.dataVersionId = source := rowsOf_id hrow
  subst htid
  by_cases hfrom : t.dataVersionId ∈ later
  · -- a row of the later version
    have himage : db.HasImage t.dataVersionId key t.pair := (hs.shaped _ (hlater _ hfrom)).image hrow hkey
    refine ⟨t.dataVersionId, (hgiven _).mpr (.inr hfrom), himage, ?_⟩
    intro other hother hmention
    rcases (hgiven other).mp hother with hother | hother
    · by_contra hnewer
      obtain ⟨r, hr, hrkey⟩ := (horder _ hfrom).older key _ himage ⟨other, hother, hmention, Nat.lt_of_not_le hnewer⟩
      have hle := version_le_of_rank (hmax r (hbase r hr) hrkey)
      obtain ⟨base, hbase, hrbase⟩ := List.mem_flatMap.mp hr
      have hother' := (hb.known base (Option.mem_toList.mp hbase)).2 other hother
      rw [rowsOf_id hrbase] at hle
      omega
    · rw [Option.mem_unique hother hfrom]
  · -- a row of the baseline
    have hsource' : t.dataVersionId ∈ b.versionId := by
      rcases List.mem_append.mp hsource with hsource | hsource
      · exact Option.mem_toList.mp hsource
      · exact absurd (Option.mem_toList.mp hsource) hfrom
    have hrows : t ∈ b.rows sha256 access db := List.mem_flatMap.mpr ⟨_, Option.mem_toList.mpr hsource', hrow⟩
    obtain ⟨n, hn, hnkey, ⟨id, hid, himage, hnewest⟩, hold⟩ := hb.newest t hrows key hkey
    have hnid : n.dataVersionId = t.dataVersionId := by
      obtain ⟨base, hbase', hnrow⟩ := List.mem_flatMap.mp hn
      rw [rowsOf_id hnrow]
      exact Option.mem_unique (Option.mem_toList.mp hbase') hsource'
    have hle := observedAt_le_of_rank hnid (hmax n (hbase n hn) hnkey)
    have hpair : t.pair = n.pair := hold.resolve_right (not_lt_of_ge hle)
    rw [← hpair] at himage
    refine ⟨id, (hgiven id).mpr (.inl hid), himage, ?_⟩
    intro other hother hmention
    rcases (hgiven other).mp hother with hother | hother
    · exact hnewest other hother hmention
    · by_contra hnewer
      have hlt := Nat.lt_of_not_le hnewer
      have hfresh : ∀ o ∈ b.given, db.Mentions o key → o ≤ other :=
        fun o ho hm => Nat.le_of_lt (Nat.lt_of_le_of_lt (hnewest o ho hm) hlt)
      obtain ⟨hafter, hstored⟩ := (horder other hother).newer key hmention hfresh ⟨t, hrows, hkey⟩
      have hne : t.dataVersionId ≠ other := fun heq => hfrom (heq ▸ hother)
      have hbefore : t.dataVersionId < other := Nat.lt_of_le_of_ne (hafter _ hsource') hne
      rcases hmention with ⟨image, hother_image⟩ | hdelete
      · obtain ⟨r, hr, hrkey⟩ := (hs.shaped other (hlater other hother)).row hother_image
        have hge := version_le_of_rank (hmax r (hlast other hother r hr) hrkey)
        rw [rowsOf_id hr] at hge
        omega
      · exact hdeleted other hother hstored hbefore hdelete

/-! ## What cleaning leaves -/

theorem sources_rows (b : Baseline) (later : Option Nat) : (b.sources later).flatMap (access.rowsOf sha256 db) =
    b.rows sha256 access db ++ later.toList.flatMap (access.rowsOf sha256 db) := by
  rw [Baseline.sources, List.flatMap_append, Baseline.rows]

theorem keyless_rows (hs : Stored db cdc) (hlater : ∀ id ∈ later, id ∈ cdc) {rows : List Row}
    (hrows : rows.Perm ((b.sources later).flatMap (access.rowsOf sha256 db))) :
    (rows.filter fun r => r.recordKey = none).Perm ((b.rows sha256 access db).filter fun r => r.recordKey = none) := by
  have hkeyed : (later.toList.flatMap (access.rowsOf sha256 db)).filter (fun r => decide (r.recordKey = none)) = [] := by
    rw [List.filter_eq_nil_iff]
    intro r hr hnone
    obtain ⟨id, hid, hr⟩ := List.mem_flatMap.mp hr
    exact (hs.shaped id (hlater id (Option.mem_toList.mp hid))).keyed_rows hr (of_decide_eq_true hnone)
  have hperm := hrows.filter fun r => decide (r.recordKey = none)
  rw [sources_rows, List.filter_append, hkeyed, List.append_nil] at hperm
  exact hperm

theorem length_le_one {α : Type} {l : List α} (hnodup : l.Nodup)
    (h : ∀ a ∈ l, ∀ a' ∈ l, a = a') : l.length ≤ 1 := by
  match l with
  | [] => simp
  | [_] => simp
  | a :: a' :: l =>
    have heq : a = a' := h a List.mem_cons_self a' (List.mem_cons_of_mem _ List.mem_cons_self)
    rw [heq] at hnodup
    simp at hnodup

theorem subperm_map {α β : Type} {f : α → β} {l l' : List α} (h : l.Subperm l') : (l.map f).Subperm (l'.map f) := by
  obtain ⟨m, hperm, hsub⟩ := h
  exact ⟨m.map f, hperm.map f, hsub.map f⟩

theorem resolved_of_clean (hs : Stored db cdc) (hb : SettledBaseline sha256 access db cdc b)
    (hlater : ∀ id ∈ later, id ∈ cdc)
    (horder : ∀ id ∈ later, InOrder db b (b.rows sha256 access db) id) {rows : List Row} {required : List String}
    (hload : access.loadRecords sha256 db (b.sources later) = .ok rows) :
    Resolved db (b.givenTo later) b.plain (cleanRecords db rows required).records := by
  have hrows := loadRecords_perm hload
  have hkept := Cleaning.kept_run db.versions rows required
  have hperm : (cleanRecords db rows required).records.Perm ((Cleaning.run db.versions rows required).kept.map Prod.fst) :=
    sortRows_perm _
  constructor
  · intro key
    rw [(hperm.filter _).length_eq, List.filter_map, List.length_map]
    apply length_le_one
    · exact (hkept.sublist.nodup (List.Nodup.of_map _ (Cleaning.zipIdx_nodup rows))).filter _
    · intro p hp q hq
      obtain ⟨hp, hpkey⟩ := List.mem_filter.mp hp
      obtain ⟨hq, hqkey⟩ := List.mem_filter.mp hq
      exact Cleaning.kept_unique hp hq (of_decide_eq_true hpkey) (of_decide_eq_true hqkey)
  · intro r hr key hkey
    obtain ⟨⟨r', i⟩, hp, rfl⟩ := List.mem_map.mp (hperm.mem_iff.mp hr)
    have hplaced := hkept.sublist.subset hp
    have hmem : r' ∈ rows := by
      rw [← Cleaning.zipIdx_map_fst rows]
      exact List.mem_map_of_mem hplaced
    obtain ⟨hsuperseded, hdeleted, -⟩ := hkept.fine _ hp
    have hnewest := Cleaning.newestOf_of_kept hplaced hkey hsuperseded
    apply current_of_newest hs hb hlater horder (hrows.mem_iff.mp hmem) hkey
    · intro other hother hother_key
      have hin := hrows.mem_iff.mpr hother
      rw [← Cleaning.zipIdx_map_fst rows] at hin
      obtain ⟨q, hq, rfl⟩ := List.mem_map.mp hin
      exact Cleaning.rank_le_newest hnewest hq hother_key
    · rintro id hid hstored hlt ⟨v, hv, hdelete⟩
      obtain ⟨hvmem, hvid⟩ := Datastore.version?_mem hv
      have hread : v.id ∈ rows.map Row.dataVersionId := by
        obtain ⟨d, hd⟩ := List.exists_mem_of_ne_nil _ hstored
        have hrow : d.row ∈ access.rowsOf sha256 db id :=
          (hs.shaped id (hlater id hid)).rows.mem_iff.mpr (List.mem_map_of_mem hd)
        rw [hvid, ← rowsOf_id hrow]
        apply List.mem_map_of_mem
        apply hrows.mem_iff.mpr
        exact List.mem_flatMap.mpr ⟨id, List.mem_append_right _ (Option.mem_toList.mpr hid), hrow⟩
      have hle := Cleaning.le_deletedIn hvmem hread hdelete
      rw [hvid] at hle
      rw [Cleaning.deleted, hkey] at hdeleted
      exact absurd (Nat.lt_of_lt_of_le hlt hle) (of_decide_eq_false hdeleted)
  · have hsub : ((cleanRecords db rows required).records.filter fun r => r.recordKey = none).Subperm
        ((b.rows sha256 access db).filter fun r => r.recordKey = none) := by
      have hsublist := (hkept.sublist.map Prod.fst).filter fun r => decide (r.recordKey = none)
      rw [Cleaning.zipIdx_map_fst] at hsublist
      exact (hperm.filter _).subperm.trans (hsublist.subperm.trans (keyless_rows hs hlater hrows).subperm)
    exact (subperm_map hsub).trans hb.plain

/-! ## What a snapshot leaves -/

theorem filter_keyless_said (rows : List Row) : ((rows.filter fun r => r.recordKey = none).map (·.observedAt)) =
    ((rows.map Row.said).filter fun r => r.2.2 = none).map Prod.fst := by
  rw [List.filter_map, List.map_map]
  rfl

theorem stored_keyless (hs : Stored db cdc) (hlater : ∀ id ∈ later, id ∈ cdc) {call : SnapshotCall}
    (hsources : call.sourceVersionIds = b.sources later)
    (hstored : ∀ id ∈ b.sources later, ∃ v, db.version? id = some v ∧ v.storage = .rows) :
    ((call.storedRows db).filter fun r => r.recordKey = none).Perm
      ((b.rows sha256 access db).filter fun r => r.recordKey = none) := by
  have hbase : (db.records.filter fun d => d.dataVersionId ∈ b.sources later ∧ d.recordKey = none) =
      b.versionId.toList.flatMap fun base => (db.recordsOf base).filter fun d => d.recordKey = none := by
    have hmem : ∀ d ∈ db.records, d.recordKey = none → d.dataVersionId ∈ b.sources later →
        d.dataVersionId ∈ b.versionId := by
      intro d hd hnone hid
      rcases List.mem_append.mp hid with hid | hid
      · exact Option.mem_toList.mp hid
      · have hin : d ∈ db.recordsOf d.dataVersionId := List.mem_filter.mpr ⟨hd, decide_eq_true rfl⟩
        exact absurd hnone ((hs.shaped _ (hlater _ (Option.mem_toList.mp hid))).keyed d hin)
    cases hversion : b.versionId with
    | none =>
      rw [List.filter_eq_nil_iff.mpr]
      · rfl
      intro d hd h
      obtain ⟨hid, hnone⟩ := of_decide_eq_true h
      have habsurd := hmem d hd hnone hid
      rw [hversion] at habsurd
      cases habsurd
    | some base =>
      rw [Option.toList_some, List.flatMap_singleton, Datastore.recordsOf, List.filter_filter]
      apply List.filter_congr
      intro d hd
      rw [decide_eq_decide.mpr]
      · rw [Bool.and_comm, ← Bool.decide_and]
      constructor
      · rintro ⟨hid, hnone⟩
        have h := hmem d hd hnone hid
        rw [hversion] at h
        exact ⟨(Option.some.inj h).symm, hnone⟩
      · rintro ⟨rfl, hnone⟩
        refine ⟨?_, hnone⟩
        rw [Baseline.sources, hversion]
        exact List.mem_append_left _ (List.mem_singleton.mpr rfl)
  have hperm := (sortRows_perm ((db.records.filter fun d => d.dataVersionId ∈ b.sources later).map DataRecord.row)).filter
    fun r => decide (r.recordKey = none)
  rw [SnapshotCall.storedRows, hsources]
  refine hperm.trans ?_
  rw [List.filter_map, List.filter_filter]
  have hboth : (db.records.filter fun d => ((fun r : Row => decide (r.recordKey = none)) ∘ DataRecord.row) d &&
      decide (d.dataVersionId ∈ b.sources later)) =
      db.records.filter fun d => d.dataVersionId ∈ b.sources later ∧ d.recordKey = none := by
    apply List.filter_congr
    intro d hd
    rw [Bool.and_comm, Bool.decide_and]
    rfl
  rw [hboth, hbase, List.map_flatMap, Baseline.rows, List.filter_flatMap]
  apply List.Perm.flatMap_left
  intro base hmem
  obtain ⟨v, hv, hstorage⟩ := hstored base (List.mem_append_left _ hmem)
  have hrows : (access.rowsOf sha256 db base).Perm _ := rowsOf_stored hv hstorage
  have hkeyless := hrows.filter fun r => decide (r.recordKey = none)
  rw [List.filter_map] at hkeyless
  exact hkeyless.symm

/-- The snapshot of a job whose rows keep their keys and their newest is a baseline again. -/
theorem settled_of_snapshot (hs : Stored db cdc) (hb : SettledBaseline sha256 access db cdc b)
    (hlater : ∀ id ∈ later, id ∈ cdc)
    (horder : ∀ id ∈ later, InOrder db b (b.rows sha256 access db) id) {call : SnapshotCall}
    {reframe : List Payload → Frame}
    {info : DataVersionInfo} (hsources : call.sourceVersionIds = b.sources later)
    (hrun : call.run sha256 access reframe db = .ok (info, db')) (hcreated : info.created = true) (hs' : Stored db' cdc)
    (he : db.Extends db')
    (hkeyless : (∀ id ∈ b.sources later, ∃ v, db.version? id = some v ∧ v.storage = .rows) →
      ∀ r ∈ access.keptRows sha256 db (b.sources later) call.excludeRecordIds, r.recordKey = none)
    (hkeeps : KeepsNewest db (b.sources later) ((b.sources later).flatMap (access.rowsOf sha256 db))
      (access.keptRows sha256 db (b.sources later) call.excludeRecordIds)) :
    SettledBaseline sha256 access db' cdc ⟨some info.dataVersionId, b.givenTo later, b.plain⟩ := by
  have hgiven : ∀ id ∈ b.givenTo later, id ∈ cdc := by
    intro id hid
    rcases List.mem_append.mp hid with hid | hid
    · exact hb.given id hid
    · exact hlater id (Option.mem_toList.mp hid)
  have hknown : ∀ id ∈ b.givenTo later, ∃ v, db.version? id = some v :=
    fun id hid => (hs.shaped id (hgiven id hid)).known
  obtain ⟨hfound, hid, hform⟩ := snapshot_rows hs.numbered hs.layered hrun hcreated hs'.numbered hs'.layered
  have hrows : Baseline.rows ⟨some info.dataVersionId, b.givenTo later, b.plain⟩ sha256 access db' =
      access.rowsOf sha256 db' info.dataVersionId := by
    rw [Baseline.rows, Option.toList_some, List.flatMap_singleton]
  refine ⟨hgiven, fun h => (by cases h), ?_, ?_, ?_⟩
  · rintro base hbase
    cases hbase
    refine ⟨hfound, fun id hid' => ?_⟩
    have hle := Datastore.known_le hs.numbered (hknown id hid')
    rw [hid, Datastore.nextVersionId]
    omega
  · rw [hrows]
    intro r hr key hkey
    rcases hform with ⟨-, rows, hload, hsaid⟩ | ⟨-, hnone, -⟩
    · have hperm := loadRecords_perm hload
      rw [hsources] at hperm
      have hmem := List.mem_map_of_mem (f := Row.said) hr
      rw [hsaid] at hmem
      obtain ⟨r₀, hr₀, hsame⟩ := List.mem_map.mp hmem
      obtain ⟨hpair, hkey₀⟩ : r₀.pair = r.pair ∧ r₀.recordKey = r.recordKey := by
        simp only [Row.said, Prod.mk.injEq] at hsame
        simp [Row.pair, hsame]
      have hkept : r₀ ∈ access.keptRows sha256 db (b.sources later) call.excludeRecordIds :=
        (hperm.filter _).mem_iff.mp hr₀
      obtain ⟨t₀, ht₀, htkey, hmax, hdeleted, hold⟩ := hkeeps r₀ hkept key (hkey₀.trans hkey)
      have ht₀' := List.mem_map_of_mem (f := Row.said) ((hperm.filter _).mem_iff.mpr ht₀)
      rw [← hsaid] at ht₀'
      obtain ⟨t, ht, hsame'⟩ := List.mem_map.mp ht₀'
      obtain ⟨hpair', hkey'⟩ : t.pair = t₀.pair ∧ t.recordKey = t₀.recordKey := by
        simp only [Row.said, Prod.mk.injEq] at hsame'
        simp [Row.pair, hsame']
      have hcurrent := current_of_newest hs hb hlater horder (List.mem_of_mem_filter ht₀) htkey hmax fun id hid _ hlt =>
        hdeleted id (List.mem_append_right _ (Option.mem_toList.mpr hid)) hlt
      refine ⟨t, ht, hkey'.trans htkey, ?_, ?_⟩
      · rw [hpair']
        exact hcurrent.extends hs.numbered he hknown
      · rw [← hpair, hpair']
        have htime := congrArg Prod.fst hpair
        have htime' := congrArg Prod.fst hpair'
        simp only [Row.pair] at htime htime'
        rw [← htime, htime']
        exact hold
    · rw [hnone r hr] at hkey
      cases hkey
  · rw [hrows]
    rcases hform with ⟨-, rows, hload, hsaid⟩ | ⟨hstored, hnone, htimes, -⟩
    · have hperm := loadRecords_perm hload
      rw [hsources] at hperm
      rw [filter_keyless_said, hsaid, ← filter_keyless_said]
      have hsub : ((rows.filter fun r => r.id ∉ call.excludeRecordIds).filter fun r => r.recordKey = none).Subperm
          ((b.rows sha256 access db).filter fun r => r.recordKey = none) :=
        (List.filter_sublist.filter _).subperm.trans (keyless_rows hs hlater hperm).subperm
      exact (subperm_map hsub).trans hb.plain
    · rw [hsources] at hstored
      have hall : ((access.rowsOf sha256 db' info.dataVersionId).filter fun r => r.recordKey = none) =
          access.rowsOf sha256 db' info.dataVersionId :=
        List.filter_eq_self.mpr fun r hr => decide_eq_true (hnone r hr)
      rw [hall]
      refine htimes.subperm.trans ?_
      have hkept : ((call.storedRows db).filter fun r => r.id ∉ call.excludeRecordIds) =
          (((call.storedRows db).filter fun r => r.id ∉ call.excludeRecordIds).filter fun r => r.recordKey = none) := by
        symm
        apply List.filter_eq_self.mpr
        intro r hr
        apply decide_eq_true
        apply hkeyless hstored
        obtain ⟨hr, hnot⟩ := List.mem_filter.mp hr
        refine List.mem_filter.mpr ⟨?_, hnot⟩
        rw [← hsources] at hstored ⊢
        exact (mem_storedRows hstored).mp hr
      rw [hkept]
      have hsub : (((call.storedRows db).filter fun r => r.id ∉ call.excludeRecordIds).filter fun r =>
        r.recordKey = none).Subperm
          ((b.rows sha256 access db).filter fun r => r.recordKey = none) :=
        (List.filter_sublist.filter _).subperm.trans (stored_keyless hs hlater hsources hstored).subperm
      exact (subperm_map hsub).trans hb.plain

/-! ## Runs of a chain -/

theorem created_of_free {new : NewVersion} {info : DataVersionInfo} (hfree : ∀ v ∈ db.versions, v.version ≠ new.version)
    (h : db.create new = .ok (info, db')) : info.created = true := by
  cases Datastore.create_ok h with
  | replay hfound =>
    have hname := List.find?_some hfound
    simp only [decide_eq_true_eq] at hname
    exact absurd hname.2 (hfree _ (List.mem_of_find?_eq_some hfound))
  | fresh => rfl

theorem snapshot_created {call : SnapshotCall} {reframe : List Payload → Frame} {info : DataVersionInfo}
    (hfree : ∀ v ∈ db.versions, v.version ≠ call.name) (h : call.run sha256 access reframe db = .ok (info, db')) :
    info.created = true := by
  unfold SnapshotCall.run at h
  split at h
  · cases h
  · cases h
  obtain ⟨anchor, -, h⟩ := bind_ok h
  split at h
  · obtain ⟨rows, -, h⟩ := bind_ok h
    exact created_of_free hfree h
  · obtain ⟨⟨features, observedAt⟩, -, h⟩ := bind_ok h
    exact created_of_free hfree h

theorem Stored.step {c : DatastoreCall} (hs : Stored db cdc) (h : db.step sha256 c = some db') : Stored db' cdc := by
  have hsteps : Steps (Datastore.step sha256) Free db db' := (Steps.refl db).tail trivial h
  refine ⟨Datastore.steps_numbered hsteps hs.numbered, Datastore.steps_layered hsteps hs.numbered hs.layered, ?_⟩
  intro id hid
  exact (hs.shaped id hid).extends hs.numbered (Datastore.step_extends h)

theorem Resolved.extends {given : List Nat} {plain : List DateTime} {records : List Row} (hn : db.Numbered)
    (he : db.Extends db') (hgiven : ∀ id ∈ given, ∃ v, db.version? id = some v) (h : Resolved db given plain records) :
    Resolved db' given plain records :=
  ⟨h.one, fun r hr key hkey => (h.current r hr key hkey).extends hn he hgiven, h.plain⟩

structure Running (sha256 : String → String) (access : DataAccess) (db : Datastore) (cdc : List Nat) (job : TrainingJob) :
    Prop where
  settled : SettledBaseline sha256 access db cdc job.baseline
  later : ∀ id ∈ job.later, id ∈ cdc
  order : ∀ id ∈ job.later, InOrder db job.baseline (job.baseline.rows sha256 access db) id
  resolved : Resolved db (job.baseline.givenTo job.later) job.baseline.plain job.records

theorem Running.extends {job : TrainingJob} (hs : Stored db cdc) (he : db.Extends db') (hcdc : ∀ id ∈ cdc, id ∈ cdc')
    (h : Running sha256 access db cdc job) : Running sha256 access db' cdc' job := by
  refine ⟨h.settled.extends hs he hcdc, fun id hid => hcdc id (h.later id hid), ?_, ?_⟩
  · intro id hid
    rw [Baseline.rows_extends hs h.settled he]
    exact (h.order id hid).extends hs h.settled (h.later id hid) he
  · apply h.resolved.extends hs.numbered he
    intro id hid
    rcases List.mem_append.mp hid with hid | hid
    · exact (hs.shaped id (h.settled.given id hid)).known
    · exact (hs.shaped id (h.later id (Option.mem_toList.mp hid))).known

/-- What holds all along a chain of careful steps. -/
structure ChainSound (sha256 : String → String) (access : DataAccess) (s : TrainingChain δ) : Prop where
  stored : Stored s.db s.cdcVersions
  baseline : SettledBaseline sha256 access s.db s.cdcVersions s.baseline
  job : ∀ job ∈ s.job, Running sha256 access s.db s.cdcVersions job

variable {δ : Type} {s s' : TrainingChain δ} {dataset modelId : String}

theorem ChainSound.grow (h : ChainSound sha256 access s) (hstored : Stored s'.db s'.cdcVersions) (he : s.db.Extends s'.db)
    (hcdc : ∀ id ∈ s.cdcVersions, id ∈ s'.cdcVersions) (hbaseline : s'.baseline = s.baseline) (hjob : s'.job = s.job) :
    ChainSound sha256 access s' := by
  refine ⟨hstored, ?_, ?_⟩
  · rw [hbaseline]
    exact h.baseline.extends h.stored he hcdc
  · rw [hjob]
    intro job hmem
    exact (h.job job hmem).extends h.stored he hcdc

theorem ChainSound.materialize {name : String} {reader : ImageReader} (h : ChainSound sha256 access s)
    (hstep : s.materialize sha256 dataset name reader = some s') : ChainSound sha256 access s' := by
  unfold TrainingChain.materialize at hstep
  split at hstep
  · cases hstep
  rename_i result events db hrun
  cases hstep
  rcases materializeCdc_ok hrun with ⟨-, rfl, rfl, rfl⟩ |
    ⟨info, upserts, refusal, first, last, parent, rfl, -, hups, hrun, -⟩
  · apply h.grow
    · rw [Option.filter_none, Option.map_none, Option.toList_none, List.append_nil]
      exact h.stored
    · exact .refl _
    · intro id hid
      exact List.mem_append_left _ hid
    · rfl
    · rfl
  · have hcall := Datastore.step_ingest hrun
    have hstored := h.stored.step hcall
    apply h.grow
    · refine ⟨hstored.numbered, hstored.layered, ?_⟩
      intro id hid
      rcases List.mem_append.mp hid with hid | hid
      · exact hstored.shaped id hid
      · obtain ⟨info', hinfo, rfl⟩ := Option.map_eq_some_iff.mp (Option.mem_toList.mp hid)
        obtain ⟨heq, hcreated⟩ := Option.filter_eq_some_iff.mp hinfo
        cases heq
        exact materialized_shape h.stored.numbered hups hrun (of_decide_eq_true hcreated).1
    · exact Datastore.step_extends hcall
    · intro id hid
      exact List.mem_append_left _ hid
    · rfl
    · rfl

theorem ChainSound.adopt {id : Nat} (h : ChainSound sha256 access s) (hstep : s.adopt sha256 access id = some s') :
    ChainSound sha256 access s' := by
  unfold TrainingChain.adopt at hstep
  split at hstep
  · cases hstep
  rename_i hknown
  rw [Option.isNone_iff_eq_none] at hknown
  have hfound := Option.ne_none_iff_exists'.mp hknown
  have hrows : ∀ given plain, Baseline.rows ⟨some id, given, plain⟩ sha256 access s.db =
      access.rowsOf sha256 s.db id := by
    intro given plain
    rw [Baseline.rows, Option.toList_some, List.flatMap_singleton]
  split at hstep
  · rename_i hcdc
    cases hstep
    have hshaped := h.stored.shaped id hcdc
    refine ⟨h.stored, ⟨?_, fun hnone => (by cases hnone), ?_, ?_, ?_⟩, h.job⟩
    · intro other hother
      rw [List.mem_singleton.mp hother]
      exact hcdc
    · rintro base hbase
      cases hbase
      refine ⟨hfound, fun other hother => ?_⟩
      rw [List.mem_singleton.mp hother]
    · rw [hrows]
      intro r hr key hkey
      refine ⟨r, hr, hkey, ⟨id, List.mem_singleton.mpr rfl, hshaped.image hr hkey, ?_⟩, .inl rfl⟩
      intro other hother _
      rw [List.mem_singleton.mp hother]
    · have hnone : (access.rowsOf sha256 s.db id).filter (fun r => decide (r.recordKey = none)) = [] :=
        List.filter_eq_nil_iff.mpr fun r hr hkey => hshaped.keyed_rows hr (of_decide_eq_true hkey)
      rw [hrows, hnone]
      exact .refl _
  · split at hstep
    · rename_i hkeyless
      cases hstep
      refine ⟨h.stored, ⟨fun other hother => (by cases hother), fun hnone => (by cases hnone), ?_, ?_, ?_⟩, h.job⟩
      · rintro base hbase
        cases hbase
        exact ⟨hfound, fun other hother => by cases hother⟩
      · rw [hrows]
        intro r hr key hkey
        have hnone := of_decide_eq_true (List.all_eq_true.mp hkeyless r hr)
        rw [hnone] at hkey
        cases hkey
      · rw [hrows]
        exact subperm_map List.filter_sublist.subperm
    · cases hstep

theorem ChainSound.start {later : Option Nat} {required : List String} (h : ChainSound sha256 access s)
    (hcareful : s.Careful sha256 access modelId (.start later required))
    (hstep : s.start sha256 access later required = some s') : ChainSound sha256 access s' := by
  unfold TrainingChain.start at hstep
  split at hstep
  · rename_i hguard
    split at hstep
    · cases hstep
    rename_i rows hload
    simp only [] at hstep
    split at hstep
    · cases hstep
    cases hstep
    refine ⟨h.stored, h.baseline, ?_⟩
    intro job hjob
    cases hjob
    exact ⟨h.baseline, hguard.2, hcareful, resolved_of_clean h.stored h.baseline hguard.2 hcareful hload⟩
  · cases hstep

theorem ChainSound.finish {job : TrainingJob} {reframe : List Payload → Frame} {modelVersion : String} {trained : List Int}
    (h : ChainSound sha256 access s) (hjob : s.job = some job)
    (hcareful : s.Careful sha256 access modelId (.finish reframe modelVersion trained))
    (hstep : s.finish sha256 access modelId job reframe modelVersion trained = some s') : ChainSound sha256 access s' := by
  unfold TrainingChain.finish at hstep
  split at hstep
  · cases hstep
  rename_i info db hrun
  cases hstep
  obtain ⟨hfree, hkeyless, hkeeps⟩ := hcareful job hjob
  have hcall := Datastore.step_snapshot hrun
  have hstored := h.stored.step hcall
  have hrunning := h.job job hjob
  refine ⟨hstored, ?_, fun job hjob => (by cases hjob)⟩
  exact settled_of_snapshot h.stored hrunning.settled hrunning.later hrunning.order rfl hrun (snapshot_created hfree hrun)
    hstored (Datastore.step_extends hcall) hkeyless hkeeps

theorem chainSound_empty : ChainSound sha256 access ({} : TrainingChain δ) := by
  refine ⟨⟨Datastore.numbered_empty, Datastore.layered_empty, fun id hid => (by cases hid)⟩,
    ?_, fun job hjob => (by cases hjob)⟩
  exact ⟨fun id hid => (by cases hid), fun _ => rfl, fun base hbase => (by cases hbase),
    fun r hr => (by cases hr), .refl _⟩

section
variable [DecidableEq δ]

theorem ChainSound.step {a : ChainAction δ} (h : ChainSound sha256 access s) (hcareful : s.Careful sha256 access modelId a)
    (hstep : s.step sha256 access dataset modelId a = some s') : ChainSound sha256 access s' := by
  cases a with
  | call c =>
    obtain ⟨db, hcall, rfl⟩ := Option.map_eq_some_iff.mp hstep
    exact h.grow (h.stored.step hcall) (Datastore.step_extends hcall) (fun id hid => hid) rfl rfl
  | store batch consumer position =>
    cases hstep
    exact ⟨h.stored, h.baseline, h.job⟩
  | materialize name reader => exact h.materialize hstep
  | adopt id => exact h.adopt hstep
  | start later required => exact h.start hcareful hstep
  | finish reframe modelVersion trained =>
    obtain ⟨job, hjob, hstep⟩ := Option.bind_eq_some_iff.mp hstep
    exact h.finish hjob hcareful hstep
  | abandon =>
    obtain ⟨job, -, rfl⟩ := Option.map_eq_some_iff.mp hstep
    exact ⟨h.stored, h.baseline, fun job hjob => (by cases hjob)⟩

/-- The rows a job is cleaned to, its baseline and the later version together: of each source row
at most the newest image of the CDC versions given to the job and to those its baseline comes
from. -/
theorem TrainingChain.resolution_survives
    (h : Steps (step sha256 access dataset modelId) (Careful sha256 access modelId) {} s)
    {job : TrainingJob} (hjob : s.job = some job) :
    Resolved s.db (job.baseline.givenTo job.later) job.baseline.plain job.records :=
  ((h.inv (ChainSound sha256 access) (fun _ _ _ hs hcareful hstep => hs.step hcareful hstep) chainSound_empty).job
    job hjob).resolved

end

/-! ## Versions given one after the other -/

section
variable (sha256 access modelId) (s)

/-- The version given has rows and is newer than the baseline and all given before it; a snapshot
is a derived one with a new name, and its sources hold each key once and delete none. -/
def TrainingChain.orderly : ChainAction δ → Bool
  | .start later _ => later.all fun id =>
      (s.baseline.versionId.all (· ≤ id)) && (s.baseline.given.all (· ≤ id)) && !(s.db.recordsOf id).isEmpty
  | .finish _ modelVersion trained => s.job.all fun job =>
      (s.db.versions.all fun v => v.version ≠ (snapshotCall modelId job modelVersion trained).name) &&
      (job.sources.any fun id => (s.db.version? id).any fun v => v.storage ≠ .rows) &&
      (job.sources.all fun id => (s.db.version? id).all fun v => v.deletedKeys.isEmpty) &&
      decide ((job.sources.flatMap (access.rowsOf sha256 s.db)).Pairwise fun r t => r.recordKey = none ∨
        r.recordKey ≠ t.recordKey)
  | _ => true

end

theorem keepsNewest_of_once {sources : List Nat} {rows : List Row} {excluded : List Int}
    (hdeletes : ∀ id ∈ sources, ∀ key, ¬db.Deletes id key)
    (honce : rows.Pairwise fun r t => r.recordKey = none ∨ r.recordKey ≠ t.recordKey) :
    KeepsNewest db sources rows (rows.filter fun r => r.id ∉ excluded) := by
  intro r hr key hkey
  refine ⟨r, hr, hkey, ?_, fun id hid _ => hdeletes id hid key, .inl rfl⟩
  intro other hother hother_key
  by_cases heq : other = r
  · rw [heq]
  · have hsymm : Std.Symm fun r t : Row => r.recordKey = none ∨ r.recordKey ≠ t.recordKey := by
      constructor
      intro a b h
      by_cases hb : b.recordKey = none
      · exact .inl hb
      · right
        rcases h with h | h
        · rw [h]
          exact hb
        · exact h.symm
    rcases honce.forall hother (List.mem_of_mem_filter hr) heq with hnone | hne
    · rw [hnone] at hother_key
      cases hother_key
    · rw [hother_key, hkey] at hne
      exact absurd rfl hne

theorem TrainingChain.careful_of_orderly {a : ChainAction δ} (h : s.orderly sha256 access modelId a = true) :
    s.Careful sha256 access modelId a := by
  cases a with
  | start later required =>
    intro id hid
    cases hid
    simp only [orderly, Option.all_some, Bool.and_eq_true, Bool.not_eq_true', List.isEmpty_eq_false_iff, Option.all_eq_true,
      List.all_eq_true, decide_eq_true_eq] at h
    obtain ⟨⟨hbase, hgiven⟩, hrows⟩ := h
    constructor
    · intro key _ _ _
      exact ⟨hbase, hrows⟩
    · rintro key image _ ⟨other, hother, -, hlt⟩
      exact absurd (hgiven other hother) (Nat.not_le_of_lt hlt)
  | finish reframe modelVersion trained =>
    intro job hjob
    rw [orderly, hjob] at h
    simp only [Option.all_some, Bool.and_eq_true, List.all_eq_true, List.any_eq_true, Option.any_eq_true, Option.all_eq_true,
      decide_eq_true_eq, List.isEmpty_iff] at h
    obtain ⟨⟨⟨hname, id, hid, v, hv, hstorage⟩, hdeletes⟩, honce⟩ := h
    refine ⟨hname, ?_, ?_⟩
    · intro hrows
      obtain ⟨w, hw, hplain⟩ := hrows id hid
      rw [hv, Option.some.injEq] at hw
      rw [hw] at hstorage
      exact absurd hplain hstorage
    · apply keepsNewest_of_once _ honce
      rintro id hid key ⟨v, hv, hkey⟩
      rw [hdeletes id hid v hv] at hkey
      cases hkey
  | _ => trivial

/-! ## A snapshot of stored rows -/

/-- A frame of images of one column. -/
def hourly : ImageReader where
  image i :=
    match i.observedAt, i.payload with
    | some micros, .obj [("x", .int x)] => some (VersionCall.atHour (Fin.ofNat 24 (micros.toNat / 3600000000)), reading x)
    | _, _ => none
  reframe payloads := ⟨[("x", "int64")], payloads⟩

def measured (cell : String) (hour : Nat) (x : Int) : CdcEvent Nat where
  eventId := hour
  source := "polling"
  sourceTable := "kpi_sample"
  operation := if hour = 1 then .insert else .update
  primaryKey := cell
  oldValue := none
  newValue := some ⟨.str cell, some "kpi", some (hour * 3600000000), .obj [("x", .int x)]⟩
  timestamp := hour * 3600000000
  transactionId := none
  sourceOffset := toString hour
  schemaVersion := "1"

def midnight : DataAccess where
  port := ⟨fun uri => .ok ⟨uri, none⟩, fun _ _ => .ok "csv", fun _ _ _ => .ok [("x", "int64")],
    fun _ _ _ _ => .ok [(VersionCall.atHour 0, reading 0)]⟩

/-- A model onboarded on the object, and two jobs, each given the next version of one source row. -/
def twoJobs : List (ChainAction Nat) :=
  [.call (.onboard "model"),
    .call (.register midnight ⟨"kpi", "v1", "file:///data/kpi.csv", .historical, none, none, none, none⟩),
    .adopt 1, .store [measured "7" 1 10] "polling:kpi_sample" none, .materialize "kpi" hourly, .start (some 2) [],
    .finish hourly.reframe "2" [-1099511627777, 1], .store [measured "7" 2 20] "polling:kpi_sample" none,
    .materialize "kpi" hourly, .start (some 4) []]

def TrainingChain.secondImage (s : TrainingChain Nat) : Bool :=
  s.job.any fun job => decide (job.records.map (fun r => (r.recordKey, r.observedAt)) =
    [(none, VersionCall.atHour 0), (some "7", VersionCall.atHour 2)]) && decide (job.baseline.given = [2])

theorem TrainingChain.resolution_survives_twice : ∃ s : TrainingChain Nat, ∃ job : TrainingJob,
    s.job = some job ∧ job.baseline.given = [2] ∧
      job.records.map (fun r => (r.recordKey, r.observedAt)) =
        [(none, VersionCall.atHour 0), (some "7", VersionCall.atHour 2)] ∧
      Resolved s.db (job.baseline.givenTo job.later) job.baseline.plain job.records := by
  obtain ⟨s, hsteps, hp⟩ := Steps.exists_of_runs (step (fun text => text) midnight "kpi" "model")
    (fun s a => s.orderly (fun text => text) midnight "model" a = true) {} twoJobs secondImage (by decide +kernel)
  obtain ⟨job, hjob, hp⟩ := (Option.any_eq_true _ _).mp hp
  obtain ⟨hrecords, hgiven⟩ := Bool.and_eq_true_iff.mp hp
  exact ⟨s, job, hjob, of_decide_eq_true hgiven, of_decide_eq_true hrecords,
    resolution_survives (hsteps.mono fun _ _ h => careful_of_orderly h) hjob⟩

def threeWrites : List (ChainAction Nat) :=
  [.call (.onboard "model"), .store [measured "7" 1 10] "polling:kpi_sample" none, .materialize "kpi" hourly, .adopt 1,
    .store [measured "7" 2 20] "polling:kpi_sample" none, .materialize "kpi" hourly, .start (some 2) [],
    .finish hourly.reframe "2" [2], .store [measured "7" 3 30] "polling:kpi_sample" none, .materialize "kpi" hourly,
    .start (some 4) []]

/-- A job has rows without a key that the chain did not begin with. -/
def TrainingChain.losesKeys (s : TrainingChain Nat) : Bool :=
  s.job.any fun job => decide (job.records.map (·.recordKey) = [none, none, some "7"]) && job.baseline.plain.isEmpty

/-- The snapshot of the first job holds the first two images of the row without its key, and the
second job is cleaned to all three. -/
theorem TrainingChain.keys_lost : ∃ s : TrainingChain Nat,
    Steps (step (fun text => text) Creation.noObjects "kpi" "model") Free {} s ∧
    ∃ job, s.job = some job ∧ job.records.map (·.recordKey) = [none, none, some "7"] ∧
      ¬Resolved s.db (job.baseline.givenTo job.later) job.baseline.plain job.records := by
  obtain ⟨s, hsteps, hp⟩ :=
    Steps.exists_of_runs (step (fun text => text) Creation.noObjects "kpi" "model") Free {} threeWrites losesKeys
    (by decide +kernel)
  obtain ⟨job, hjob, hp⟩ := (Option.any_eq_true _ _).mp hp
  obtain ⟨hkeys, hplain⟩ := Bool.and_eq_true_iff.mp hp
  have hkeys := of_decide_eq_true hkeys
  refine ⟨s, hsteps, job, hjob, hkeys, ?_⟩
  intro h
  have hnone := h.plain
  rw [List.isEmpty_iff.mp hplain, List.subperm_nil, List.map_eq_nil_iff, List.filter_eq_nil_iff] at hnone
  have hmem : none ∈ job.records.map (·.recordKey) := by
    rw [hkeys]
    exact List.mem_cons_self
  obtain ⟨r, hr, hkey⟩ := List.mem_map.mp hmem
  exact hnone r hr (decide_eq_true hkey)

end OranAdapt
