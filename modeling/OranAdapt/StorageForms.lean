import OranAdapt.Sorting
import OranAdapt.Verifying

/-!
# Storage forms

What is read back of a version's rows, whatever stores them: rows of the
database by timestamp and in the order they were sent, an object in its own
order, and a training snapshot the rows of its sources that were not held out.
-/

namespace OranAdapt

open Runs StableOrder

def Row.pair (r : Row) : DateTime × Payload := (r.observedAt, r.payload)

def Row.said (r : Row) : DateTime × Payload × Option String := (r.observedAt, r.payload, r.recordKey)

/-- A call that created the version `id` some time before `db`. -/
def CreatedIn (sha256 : String → String) (access : DataAccess) (c : Creation) (id : Nat) (db : Datastore) : Prop :=
  ∃ db₀ info db₁, Steps (Datastore.step sha256) Free {} db₀ ∧ c.run sha256 access db₀ = .ok (info, db₁) ∧
    info.created = true ∧ info.dataVersionId = id ∧ Steps (Datastore.step sha256) Free db₁ db

/-- A frame built of the payloads gives them back: one that mixes `None` and numbers in a column
turns them into floats. -/
def FrameKeeps (reframe : List Payload → Frame) (payloads : List Payload) : Prop :=
  (reframe payloads).records = payloads ∧ ∀ p ∈ payloads, "__observed_at" ∉ p.keys

theorem sortRows_perm (rows : List Row) : (sortRows rows).Perm rows := List.perm_insertionSort _ rows

theorem sortRows_pairwise (rows : List Row) :
    (sortRows rows).Pairwise fun a b => toLex (a.observedAt, a.id) ≤ toLex (b.observedAt, b.id) := by
  have : Std.Total Row.le := ⟨fun a b => le_total a.key b.key⟩
  have : IsTrans Row Row.le := ⟨fun a b c => le_trans⟩
  exact List.pairwise_insertionSort Row.le rows

theorem sortRows_sortRows (rows : List Row) : sortRows (sortRows rows) = sortRows rows :=
  List.Pairwise.insertionSort_eq (sortRows_pairwise rows)

theorem sortRows_sorted (rows : List Row) : (sortRows rows).Pairwise fun a b => a.observedAt ≤ b.observedAt := by
  apply (sortRows_pairwise rows).imp
  intro a b hab
  rcases Prod.Lex.toLex_le_toLex.mp hab with hlt | ⟨heq, -⟩
  · exact le_of_lt hlt
  · exact le_of_eq heq

/-- Rows numbered as they were sent are read by timestamp, and in the order they were sent. -/
theorem sortRows_stable {rows : List Row} (h : rows.Pairwise fun a b => a.id < b.id) :
    StablyOrdered Row.observedAt rows (sortRows rows) :=
  .of_lex (sortRows_perm rows) (sortRows_pairwise rows) h

theorem numberRows_ids (versionId n : Nat) (rows : List (DateTime × Payload × Option String)) :
    ((numberRows versionId n rows).map DataRecord.row).Pairwise (fun a b => a.id < b.id) ∧
    ∀ r ∈ (numberRows versionId n rows).map DataRecord.row, (n : Int) ≤ r.id := by
  induction rows generalizing n with
  | nil => exact ⟨.nil, fun r hr => by cases hr⟩
  | cons row rows ih =>
    obtain ⟨hpairwise, hle⟩ := ih (n + 1)
    rw [numberRows, List.map_cons, List.pairwise_cons]
    refine ⟨⟨?_, hpairwise⟩, ?_⟩
    · intro r hr
      have hr' := hle r hr
      show (n : Int) < r.id
      omega
    · intro r hr
      rcases List.mem_cons.mp hr with rfl | hr
      · exact Int.le_refl _
      · have hr' := hle r hr
        omega

theorem numberRows_said (versionId n : Nat) (rows : List (DateTime × Payload × Option String)) :
    ((numberRows versionId n rows).map DataRecord.row).map Row.said = rows := by
  rw [List.map_map]
  exact Datastore.numberRows_rows versionId n rows

namespace DataAccess

variable {sha256 : String → String} {access : DataAccess} {db db₀ db₁ : Datastore} {info : DataVersionInfo} {id : Nat}

/-! ## A version of stored rows -/

theorem ingested_rows {call : IngestCall} (hn : db₀.Numbered) (h : call.run sha256 db₀ = .ok (info, db₁))
    (hcreated : info.created = true) (he : db₁.Extends db) :
    ∃ s v n, (VersionCall.ingest call).sent sha256 = .ok s ∧ db.version? info.dataVersionId = some v ∧
      v.storage = .rows ∧
      v.rowCount = s.rows.length ∧ db.recordsOf v.id = numberRows v.id n s.contents.rows ∧
      s.contents.rows.map (fun r => (r.1, r.2.1)) = s.rows := by
  obtain ⟨⟨features, observedAt⟩, hsplit, h⟩ := bind_ok h
  obtain ⟨-, htimes, hkeys⟩ := split_ok hsplit
  obtain ⟨parent, hid, -, hfound, hstored⟩ := (Datastore.create_ok h).later hcreated hn he
  refine ⟨⟨observedAt, features.records, call.recordKeys, call.deletedKeys⟩, _,
    db₀.records.length + 1, ?_, hfound, rfl,
    ?_, ?_, ?_⟩
  · rw [VersionCall.sent, hsplit]
    rfl
  · rw [Sent.rows, List.length_zip, htimes, Nat.min_self]
    rfl
  · rw [hid] at hstored
    exact hstored
  · exact zip_rows hkeys

theorem iterRows_rows {v : DataVersion} (hs : v.storage = .rows) :
    access.iterRows sha256 db v = .ok (sortRows ((db.recordsOf v.id).map DataRecord.row)) := by
  rw [iterRows, iterRowsTo, hs]

/-- Inline rows come back by timestamp, and in the order they were sent. -/
theorem iterRows_inline {v : DataVersion} {n : Nat} {s : Sent} (hs : v.storage = .rows)
    (hrows : db.recordsOf v.id = numberRows v.id n s.contents.rows)
    (hpairs : s.contents.rows.map (fun r => (r.1, r.2.1)) = s.rows) :
    ∃ out, access.iterRows sha256 db v = .ok out ∧ sortRows out = out ∧
      StablyOrdered Prod.fst s.rows (out.map Row.pair) := by
  refine ⟨_, iterRows_rows hs, sortRows_sortRows _, ?_⟩
  have hstable := sortRows_stable (numberRows_ids v.id n s.contents.rows).1
  have hmap := hstable.map (g := Row.pair) (k := Prod.fst) fun _ _ => rfl
  have hsent : ((numberRows v.id n s.contents.rows).map DataRecord.row).map Row.pair = s.rows := by
    have hsaid := congrArg (List.map fun r => (r.1, r.2.1)) (numberRows_said v.id n s.contents.rows)
    rw [List.map_map, hpairs] at hsaid
    exact hsaid
  rw [hsent] at hmap
  rw [hrows]
  exact hmap

/-! ## A referenced object -/

theorem checkUnchanged_ok (hport : access.port.Unchanged) {uri : String} {stat : SourceStat}
    (hstat : access.port.stat uri = .ok stat) (dv : DataVersion) {ref : Reference} (hpin : ref.pinnedUri = stat.pinnedUri)
    (hfingerprint : ref.fingerprint = stat.fingerprint) : ∃ rehash, access.checkUnchanged dv ref = .ok rehash := by
  obtain ⟨pinned, hpinned, heq⟩ := hport uri stat hstat
  rw [← hpin] at hpinned
  cases hmode : access.verifyOnRead with
  | off => exact ⟨false, by rw [checkUnchanged, hmode]⟩
  | fingerprint | hash =>
    cases hregistered : ref.fingerprint with
    | none => exact ⟨true, by rw [checkUnchanged, hmode, hregistered]⟩
    | some registered =>
      have hsame : ¬pinned.fingerprint ≠ some registered := by
        rw [Decidable.not_not, heq, ← hfingerprint, hregistered]
      rw [checkUnchanged, hmode, hregistered]
      show ∃ rehash, (access.port.stat ref.pinnedUri >>= _) = Except.ok rehash
      rw [hpinned]
      exact ⟨_, if_neg hsame⟩

/-- The rows of an unchanged object come back in the object's order. -/
theorem registered_rows (hport : access.port.Unchanged) {call : RegisterCall} (hn : db₀.Numbered)
    (h : access.register sha256 call db₀ = .ok (info, db₁)) (hcreated : info.created = true) (he : db₁.Extends db) :
    ∃ s v out, (VersionCall.register access call).sent sha256 = .ok s ∧ db.version? info.dataVersionId = some v ∧
      v.rowCount = s.rows.length ∧ s.rows ≠ [] ∧ access.iterRows sha256 db v = .ok out ∧
      out.map Row.pair = s.rows.map fun r => (r.1, r.2.without "observed_at") := by
  obtain ⟨scan, hscan, h⟩ := bind_ok h
  obtain ⟨parent, -, -, hfound, -⟩ := (Datastore.create_ok h).later hcreated hn he
  obtain ⟨stat, format, columns, rows, hstat, hrows, hne, rfl⟩ := scan_ok hscan
  let ref : Reference := ⟨call.uri, stat.pinnedUri, stat.fingerprint, format, call.timestampColumn.getD access.timeColumn⟩
  let v := db₀.newVersion (call.new ⟨ref, columns, rows.length, rowsDigest sha256 rows⟩) parent
  have hcheck : ∃ rehash, access.checkUnchanged v ref = .ok rehash := checkUnchanged_ok hport hstat v rfl rfl
  obtain ⟨rehash, hcheck⟩ := hcheck
  have hiter : access.iterRows sha256 db v = .ok (referenceRows v.id rows) := by
    show access.iterReference sha256 v ref none = _
    rw [iterReference, hstat]
    show (access.checkUnchanged v ref >>= _) = _
    rw [hcheck]
    show (access.port.rows stat.pinnedUri format _ columns >>= _) = _
    rw [hrows]
    exact if_neg fun h => h.2 rfl
  have hsent : (VersionCall.register access call).sent sha256 =
      .ok ⟨rows.map Prod.fst, rows.map Prod.snd, none, []⟩ := by
    rw [VersionCall.sent, hscan]
    show (access.port.rows stat.pinnedUri format _ columns >>= _) = _
    rw [hrows]
    rfl
  have hsentRows : Sent.rows ⟨rows.map Prod.fst, rows.map Prod.snd, none, []⟩ = rows := VersionCall.zip_fst_snd rows
  refine ⟨_, v, _, hsent, hfound, ?_, ?_, hiter, ?_⟩
  · rw [hsentRows]
    rfl
  · rw [hsentRows]
    exact hne
  · rw [hsentRows]
    exact referenceRows_pairs v.id rows

/-! ## Loading one version -/

theorem versions_single {v : DataVersion} (h : db.version? id = some v) : versions db [id] = .ok [v] := by
  rw [versions, List.mapM_cons, h]
  rfl

theorem load_one {v : DataVersion} {out : List Row} (hv : db.version? id = some v)
    (hiter : access.iterRows sha256 db v = .ok out) (hne : out ≠ []) :
    access.loadRecords sha256 db [id] =
      if access.maxRows < v.rowCount then (access.checkCeiling v.rowCount).map fun _ => [] else .ok (sortRows out) := by
  have hread : [v].mapM (access.iterRows sha256 db) = .ok [out] := by
    rw [List.mapM_cons, hiter]
    rfl
  rw [loadRecords, loadWith, versions_single hv]
  show (access.checkCeiling (v.rowCount + 0) >>= _) = _
  rw [Nat.add_zero]
  unfold checkCeiling
  by_cases hlarge : access.maxRows < v.rowCount
  · rw [if_pos hlarge, if_pos hlarge]
    rfl
  · rw [if_neg hlarge, if_neg hlarge]
    show ([v].mapM (access.iterRows sha256 db) >>= _) = _
    rw [hread]
    show (if _ then _ else _) = _
    rw [if_neg (by simpa using hne)]
    simp [pure, Except.pure]

/-! ## Training snapshots -/

theorem filter_mem_perm {α : Type} {l : List α} {f : α → Nat} {ids : List Nat} (hnodup : ids.Nodup) :
    (ids.flatMap fun id => l.filter fun a => f a = id).Perm (l.filter fun a => f a ∈ ids) := by
  classical
  rw [List.perm_iff_count]
  intro a
  induction ids with
  | nil => simp
  | cons id ids ih =>
    rw [List.nodup_cons] at hnodup
    rw [List.flatMap_cons, List.count_append, ih hnodup.2]
    by_cases heq : f a = id
    · have hnot : f a ∉ ids := by
        rw [heq]
        exact hnodup.1
      rw [List.count_filter (by simpa using heq), List.count_filter (p := fun a => decide (f a ∈ id :: ids))
        (by simp [heq]),
        List.count_eq_zero_of_not_mem (l := l.filter fun a => f a ∈ ids) (by simp [hnot])]
      rfl
    · rw [List.count_eq_zero_of_not_mem (l := l.filter fun a => f a = id) (by simp [heq]), Nat.zero_add]
      by_cases hmem : f a ∈ ids
      · rw [List.count_filter (by simpa using hmem), List.count_filter (by simp [hmem])]
      · rw [List.count_eq_zero_of_not_mem (by simp [hmem]), List.count_eq_zero_of_not_mem (by simp [hmem, heq])]

theorem versions_ids {ids : List Nat} {vs : List DataVersion} (h : versions db ids = .ok vs) :
    vs.map DataVersion.id = ids := by
  have hvs := versions_ok h
  clear h
  induction ids generalizing vs with
  | nil =>
    cases hvs
    rfl
  | cons id ids ih =>
    rw [List.mapM_cons] at hvs
    obtain ⟨w, hw, hvs⟩ := Option.bind_eq_some_iff.mp hvs
    obtain ⟨ws, hws, hvs⟩ := Option.bind_eq_some_iff.mp hvs
    cases hvs
    rw [List.map_cons, ih hws, (Datastore.version?_mem hw).2]

theorem storedRows_perm {ids : List Nat} {vs : List DataVersion} (hnodup : ids.Nodup) (hvs : versions db ids = .ok vs)
    (hstorage : ∀ v ∈ vs, v.storage = .rows) : ∃ parts, vs.mapM (access.iterRows sha256 db) = .ok parts ∧
      parts.flatten.Perm (sortRows ((db.records.filter fun r => r.dataVersionId ∈ ids).map DataRecord.row)) := by
  refine ⟨_, mapM_ok_map fun v hv => iterRows_rows (hstorage v hv), ?_⟩
  have hflat : (vs.map fun v => sortRows ((db.recordsOf v.id).map DataRecord.row)).flatten.Perm
      (vs.flatMap fun v => (db.recordsOf v.id).map DataRecord.row) := by
    rw [← List.flatMap_def]
    exact List.Perm.flatMap_left vs fun v _ => sortRows_perm _
  have hids : (vs.flatMap fun v => (db.recordsOf v.id).map DataRecord.row) =
      (ids.flatMap db.recordsOf).map DataRecord.row := by
    rw [← versions_ids hvs, List.flatMap_map, List.map_flatMap]
  rw [hids] at hflat
  exact hflat.trans (((filter_mem_perm hnodup).map _).trans (sortRows_perm _).symm)

def framed (reframe : List Payload → Frame) (rows : List Row) : List (DateTime × Payload) :=
  (rows.map (·.observedAt)).zip (SnapshotCall.features reframe rows).records

theorem framed_of_keeps {reframe : List Payload → Frame} {rows : List Row}
    (h : FrameKeeps reframe (rows.map (·.payload))) :
    framed reframe rows = rows.map Row.pair := by
  have hpayloads : (SnapshotCall.features reframe rows).records = rows.map (·.payload) := by
    rw [SnapshotCall.features, h.1, List.map_congr_left (g := id), List.map_id]
    intro p hp
    exact Payload.without_of_not_mem (h.2 p hp)
  rw [framed, hpayloads, List.zip_map']
  rfl

/-- What a snapshot of stored rows holds: the rows of its sources that are not excluded, as a frame
of their payloads gives them back, and no keys. -/
theorem snapshot_ingested {reframe : List Payload → Frame} {call : SnapshotCall} {anchor : DataVersion} {kept : List Row}
    (hn : db₀.Numbered) (h : (call.ingest reframe anchor kept).run sha256 db₀ = .ok (info, db₁))
    (hcreated : info.created = true) (he : db₁.Extends db) :
    ∃ v out, db.version? info.dataVersionId = some v ∧ v.storage = .rows ∧ access.iterRows sha256 db v = .ok out ∧
      (out.map Row.pair).Perm (framed reframe kept) := by
  obtain ⟨s, v, n, hsent, hv, hstorage, -, hrows, hpairs⟩ := ingested_rows hn h hcreated he
  have hread : ∃ out, access.iterRows sha256 db v = .ok out ∧ _ := iterRows_inline hstorage hrows hpairs
  obtain ⟨out, hout, -, hstable⟩ := hread
  refine ⟨v, out, hv, hstorage, hout, hstable.perm.trans ?_⟩
  obtain ⟨⟨features, observedAt⟩, hsplit, hs⟩ := bind_ok hsent
  cases hs
  have hsplit' := Except.ok.inj (split_ok hsplit).1
  have hframed : observedAt.zip features.records = framed reframe kept := by
    rw [framed, ← (Prod.mk.inj hsplit').2, ← (Prod.mk.inj hsplit').1]
  exact .of_eq hframed

theorem derivedRows_said (id : Nat) (excluded : List Int) (rows : List Row) :
    (derivedRows id excluded rows).map Row.said = (rows.filter fun r => r.id ∉ excluded).map Row.said := by
  apply List.ext_getElem
  · simp [derivedRows]
  · intro i h h'
    simp [derivedRows, Row.said]

/-- What a derived snapshot holds: the rows of its sources that are not excluded, with their keys. -/
theorem snapshot_derived (hn : db₀.Numbered) (hl : db₀.Layered) {call : SnapshotCall} {anchor : DataVersion}
    {sources : List DataVersion} {rows : List Row}
    (hrows : access.loadRecords sha256 db₀ call.sourceVersionIds = .ok rows)
    (h : db₀.create (call.derived sha256 anchor sources (rows.filter fun r => r.id ∉ call.excludeRecordIds)) =
      .ok (info, db₁)) (hcreated : info.created = true) (he : db₁.Extends db) (hn' : db.Numbered) (hl' : db.Layered) :
    ∃ v out, db.version? info.dataVersionId = some v ∧ v.storage ≠ .rows ∧ access.iterRows sha256 db v = .ok out ∧
      access.loadRecords sha256 db call.sourceVersionIds = .ok rows ∧
      out.map Row.said = (rows.filter fun r => r.id ∉ call.excludeRecordIds).map Row.said := by
  obtain ⟨parent, v, hv, hfound, hload, hiter⟩ := derived_created hn hl hrows h hcreated he hn' hl'
  refine ⟨v, _, hfound, ?_, hiter, hload, ?_⟩
  · subst hv
    intro hs
    cases hs
  · rw [derivedRows_said]
    simp only [List.mem_insertionSort]

end DataAccess

/-! ## Transparency -/

open DataAccess

variable {sha256 : String → String} {access : DataAccess} {db : Datastore}

/-- The inline rows and the object with the same rows, iterated: by timestamp and as sent, and as they
stand in the object. -/
theorem iterated_alike (hport : access.port.Unchanged) {call : IngestCall} {call' : RegisterCall} {i j : Nat} {s s' : Sent}
    (hin : CreatedIn sha256 access (.ingest call) i db) (href : CreatedIn sha256 access (.register call') j db)
    (hs : (VersionCall.ingest call).sent sha256 = .ok s) (hs' : (VersionCall.register access call').sent sha256 = .ok s')
    (hrows : s'.rows = s.rows) (hplain : ∀ r ∈ s.rows, "observed_at" ∉ r.2.keys) :
    ∃ v w out out', db.version? i = some v ∧ db.version? j = some w ∧ v.rowCount = s.rows.length ∧
      w.rowCount = s.rows.length ∧ s.rows ≠ [] ∧
      access.iterRows sha256 db v = .ok out ∧ access.iterRows sha256 db w = .ok out' ∧ sortRows out = out ∧
      StablyOrdered Prod.fst s.rows (out.map Row.pair) ∧ out'.map Row.pair = s.rows := by
  obtain ⟨db₀, info, db₁, hpast, hrun, hcreated, rfl, hlater⟩ := hin
  obtain ⟨db₀', info', db₁', hpast', hrun', hcreated', rfl, hlater'⟩ := href
  obtain ⟨t, v, n, ht, hv, hstorage, hcount, hstored, hpairs⟩ :=
    ingested_rows (Datastore.steps_numbered hpast Datastore.numbered_empty) hrun hcreated (Datastore.steps_extends hlater)
  obtain ⟨t', w, out', ht', hw, hcount', hne, hout', hobject⟩ :=
    registered_rows hport (Datastore.steps_numbered hpast' Datastore.numbered_empty) hrun' hcreated'
      (Datastore.steps_extends hlater')
  rw [hs, Except.ok.injEq] at ht
  rw [hs', Except.ok.injEq] at ht'
  subst ht
  subst ht'
  rw [hrows] at hcount' hne hobject
  have hread : ∃ out, access.iterRows sha256 db v = .ok out ∧ _ := iterRows_inline hstorage hstored hpairs
  obtain ⟨out, hout, hsorted, hstable⟩ := hread
  refine ⟨v, w, out, out', hv, hw, hcount, hcount', hne, hout, hout', hsorted, hstable, ?_⟩
  rw [hobject]
  conv_rhs => rw [← List.map_id s.rows]
  apply List.map_congr_left
  intro r hr
  rw [Payload.without_of_not_mem (hplain r hr)]
  rfl

/-- What is read of the snapshot `k` are the rows of its sources that are not excluded, each as often;
a derived one keeps their record keys. -/
def SnapshotKeeps (sha256 : String → String) (access : DataAccess) (db : Datastore) (reframe : List Payload → Frame)
    (call : SnapshotCall) (k : Nat) : Prop :=
  ∃ vs parts v out, versions db call.sourceVersionIds = .ok vs ∧ vs.mapM (access.iterRows sha256 db) = .ok parts ∧
    db.version? k = some v ∧ access.iterRows sha256 db v = .ok out ∧
    (v.storage = .rows →
      FrameKeeps reframe (((call.storedRows db).filter fun r => r.id ∉ call.excludeRecordIds).map (·.payload)) →
      (out.map Row.pair).Perm ((parts.flatten.filter fun r => r.id ∉ call.excludeRecordIds).map Row.pair)) ∧
    (v.storage ≠ .rows →
      (out.map Row.said).Perm ((parts.flatten.filter fun r => r.id ∉ call.excludeRecordIds).map Row.said))

theorem storedRows_extends {db' : Datastore} (he : db.Extends db') {call : SnapshotCall}
    (hids : ∀ id ∈ call.sourceVersionIds, id ≤ db.versions.length) : call.storedRows db' = call.storedRows db := by
  obtain ⟨added, hadded, hnew⟩ := he.records
  have hnone : added.filter (fun r => decide (r.dataVersionId ∈ call.sourceVersionIds)) = [] := by
    rw [List.filter_eq_nil_iff]
    intro r hr hmem
    have hle := hids _ (of_decide_eq_true hmem)
    have hlt := hnew r hr
    omega
  rw [SnapshotCall.storedRows, hadded, List.filter_append, hnone, List.append_nil, SnapshotCall.storedRows]

theorem snapshot_keeps {reframe : List Payload → Frame} {call : SnapshotCall} {k : Nat}
    (h : CreatedIn sha256 access (.snapshot reframe call) k db) (hnodup : call.sourceVersionIds.Nodup) :
    SnapshotKeeps sha256 access db reframe call k := by
  obtain ⟨db₀, info, db₁, hpast, hrun, hcreated, rfl, hlater⟩ := h
  have hn₀ := Datastore.steps_numbered hpast Datastore.numbered_empty
  have hl₀ := Datastore.steps_layered hpast Datastore.numbered_empty Datastore.layered_empty
  have hstep := Datastore.step_snapshot hrun
  have hall := (hpast.tail trivial hstep).trans hlater
  have hn := Datastore.steps_numbered hall Datastore.numbered_empty
  have hl := Datastore.steps_layered hall Datastore.numbered_empty Datastore.layered_empty
  have he := Datastore.steps_extends hlater
  have he₀ := (Datastore.step_extends hstep).trans he
  change call.run sha256 access reframe db₀ = _ at hrun
  unfold SnapshotCall.run at hrun
  split at hrun
  · cases hrun
  · cases hrun
  rename_i sources _ hsources
  obtain ⟨anchor, -, hrun⟩ := bind_ok hrun
  have hfound : ∀ id ∈ call.sourceVersionIds, ∃ v, db₀.version? id = some v :=
    fun id hid => Datastore.mapM_some_mem hsources hid
  have hversions₀ : versions db₀ call.sourceVersionIds = .ok sources := by rw [versions, hsources]
  have hversions : versions db call.sourceVersionIds = .ok sources := by
    rw [versions_extends he₀ hfound, hversions₀]
  split at hrun
  · obtain ⟨rows, hrows, hrun⟩ := bind_ok hrun
    obtain ⟨v, out, hv, hstorage, hout, hload, hsaid⟩ := snapshot_derived hn₀ hl₀ hrows hrun hcreated he hn hl
    obtain ⟨vs, parts, hvs, -, hparts, rfl⟩ := loadWith_ok hload
    refine ⟨vs, parts, v, out, hvs, hparts, hv, hout, fun hs => absurd hs hstorage, fun _ => ?_⟩
    rw [hsaid]
    exact ((sortRows_perm _).filter _).map _
  · rename_i hrowsOnly
    have hread : ∃ v out, db.version? info.dataVersionId = some v ∧ v.storage = .rows ∧
        access.iterRows sha256 db v = .ok out ∧ _ := snapshot_ingested hn₀ hrun hcreated he
    obtain ⟨v, out, hv, hstorage, hout, hpairs⟩ := hread
    have hplain : ∀ s ∈ sources, s.storage = .rows := by
      intro s hs
      by_contra hne
      exact hrowsOnly (List.any_eq_true.mpr ⟨s, hs, by simpa using hne⟩)
    have hstored : ∃ parts, sources.mapM (access.iterRows sha256 db) = .ok parts ∧ _ :=
      storedRows_perm hnodup hversions hplain
    obtain ⟨parts, hparts, hperm⟩ := hstored
    refine ⟨sources, parts, v, out, hversions, hparts, hv, hout, fun _ hframe => ?_, fun hs => absurd hstorage hs⟩
    have hsame : call.storedRows db = call.storedRows db₀ := by
      apply storedRows_extends he₀
      intro id hid
      obtain ⟨v, hv⟩ := hfound id hid
      rw [← (Datastore.version?_mem hv).2]
      exact hn₀.id_le (Datastore.version?_mem hv).1
    rw [hsame] at hframe
    rw [framed_of_keeps hframe] at hpairs
    refine hpairs.trans ((List.Perm.filter _ ?_).map _)
    rw [← hsame]
    exact hperm.symm

/-- The same rows, sent inline and registered by reference, in one history: iterated, the inline
rows come by timestamp and then as sent, the object's as they stand there; loaded, both come by
timestamp, the same rows, in one order where no two share a timestamp; and a snapshot of any
versions, in either form, holds the rows of its sources that are not excluded. -/
theorem storage_transparency (hport : access.port.Unchanged) {call : IngestCall} {call' : RegisterCall} {i j : Nat}
    {s s' : Sent} (hin : CreatedIn sha256 access (.ingest call) i db)
    (href : CreatedIn sha256 access (.register call') j db) (hs : (VersionCall.ingest call).sent sha256 = .ok s)
    (hs' : (VersionCall.register access call').sent sha256 = .ok s') (hrows : s'.rows = s.rows)
    (hplain : ∀ r ∈ s.rows, "observed_at" ∉ r.2.keys) :
    (∃ v w out out', db.version? i = some v ∧ db.version? j = some w ∧ access.iterRows sha256 db v = .ok out ∧
      access.iterRows sha256 db w = .ok out' ∧ StablyOrdered Prod.fst s.rows (out.map Row.pair) ∧
      out'.map Row.pair = s.rows) ∧
    ((∃ e, e.cls = .other "DATA_TOO_LARGE" ∧ access.loadRecords sha256 db [i] = .error e ∧
        access.loadRecords sha256 db [j] = .error e) ∨
      ∃ out out', access.loadRecords sha256 db [i] = .ok out ∧ access.loadRecords sha256 db [j] = .ok out' ∧
        StablyOrdered Prod.fst s.rows (out.map Row.pair) ∧ (out'.map Row.pair).Perm s.rows ∧
        ((out'.map Row.pair).Pairwise fun a b => a.1 ≤ b.1) ∧
        ((s.rows.map Prod.fst).Nodup → out'.map Row.pair = out.map Row.pair)) ∧
    ∀ reframe snapshot k, CreatedIn sha256 access (.snapshot reframe snapshot) k db → snapshot.sourceVersionIds.Nodup →
      SnapshotKeeps sha256 access db reframe snapshot k := by
  obtain ⟨v, w, out, out', hv, hw, hcount, hcount', hne, hout, hout', hinline, hstable, hobject⟩ :=
    iterated_alike hport hin href hs hs' hrows hplain
  refine ⟨⟨v, w, out, out', hv, hw, hout, hout', hstable, hobject⟩, ?_, fun _ _ _ h hnodup => snapshot_keeps h hnodup⟩
  have hnil : out ≠ [] := by
    rintro rfl
    exact hne hstable.perm.symm.eq_nil
  have hnil' : out' ≠ [] := by
    rintro rfl
    exact hne hobject.symm
  rw [load_one hv hout hnil, load_one hw hout' hnil', hcount, hcount']
  by_cases hlarge : access.maxRows < s.rows.length
  · left
    simp only [checkCeiling, if_pos hlarge]
    exact ⟨_, rfl, rfl, rfl⟩
  · right
    simp only [if_neg hlarge]
    have hperm : ((sortRows out).map Row.pair).Perm s.rows := ((sortRows_perm out).map _).trans hstable.perm
    have hperm' : ((sortRows out').map Row.pair).Perm s.rows := by
      rw [← hobject]
      exact (sortRows_perm out').map _
    have hsorted : ∀ rows, ((sortRows rows).map Row.pair).Pairwise fun a b => a.1 ≤ b.1 := by
      intro rows
      rw [List.pairwise_map]
      exact sortRows_sorted rows
    refine ⟨_, _, rfl, rfl, ?_, hperm', hsorted out', ?_⟩
    · rw [hinline]
      exact hstable
    · intro hnodup
      exact eq_of_sorted_of_nodup (hperm'.trans hperm.symm) (hsorted out') (hsorted out)
        ((hperm'.map Prod.fst).nodup_iff.mpr hnodup)

/-! ## An object whose rows are not in the order of time -/

theorem turned_history : ∃ i j db, CreatedIn id turnedAccess (.ingest turnedInline) i db ∧
    CreatedIn id turnedAccess (.register turnedObject) j db := by
  have hcreate : ({} : Datastore).create turnedNew = .ok (_, turnedStore) := Datastore.create_free rfl rfl rfl
  have hfirst : turnedInline.run id {} = .ok (_, turnedStore) := hcreate
  have hcreate' : turnedStore.create (turnedObject.new turnedScan) = _ := Datastore.create_free rfl rfl rfl
  have hsecond : turnedAccess.register id turnedObject turnedStore = _ := hcreate'
  have hpast := Steps.tail (C := Free) (.refl _) trivial (Datastore.step_ingest hfirst)
  have hlater := Steps.tail (C := Free) (.refl _) trivial (Datastore.step_register hsecond)
  exact ⟨_, _, _, ⟨_, _, _, .refl _, hfirst, rfl, rfl, hlater⟩, ⟨_, _, _, hpast, hsecond, rfl, rfl, .refl _⟩⟩

theorem turned_unsorted : ¬turnedSent.rows.Pairwise fun a b => a.1 ≤ b.1 := by
  intro h
  have hle : (VersionCall.atHour 13).ticks ≤ (VersionCall.atHour 12).ticks :=
    (List.pairwise_cons.mp h).1 (VersionCall.atHour 12, reading 2) List.mem_cons_self
  revert hle
  decide

/-- Iterated, the inline rows come at noon and at one, and the object's at one and at noon. -/
theorem object_order_kept : ∃ db v w out out', CreatedIn id turnedAccess (.ingest turnedInline) v.id db ∧
    CreatedIn id turnedAccess (.register turnedObject) w.id db ∧
    (VersionCall.ingest turnedInline).sent id = .ok turnedSent ∧
    (VersionCall.register turnedAccess turnedObject).sent id = .ok turnedSent ∧
    db.version? v.id = some v ∧ db.version? w.id = some w ∧ turnedAccess.iterRows id db v = .ok out ∧
    turnedAccess.iterRows id db w = .ok out' ∧ out.map Row.pair ≠ out'.map Row.pair := by
  obtain ⟨i, j, db, hin, href⟩ := turned_history
  obtain ⟨v, w, out, out', hv, hw, -, -, -, hout, hout', -, hstable, hobject⟩ :=
    iterated_alike turned_unchanged hin href turned_sent turned_scanned rfl turned_plain
  have hvid := (Datastore.version?_mem hv).2
  have hwid := (Datastore.version?_mem hw).2
  subst hvid
  subst hwid
  refine ⟨db, v, w, out, out', hin, href, turned_sent, turned_scanned, hv, hw, hout, hout', ?_⟩
  intro heq
  have hsorted := hstable.sorted
  rw [heq, hobject] at hsorted
  exact turned_unsorted hsorted

theorem storage_transparency_turned : ∃ i j db, (∃ v w out out', db.version? i = some v ∧ db.version? j = some w ∧
    turnedAccess.iterRows id db v = .ok out ∧ turnedAccess.iterRows id db w = .ok out' ∧
    StablyOrdered Prod.fst turnedSent.rows (out.map Row.pair) ∧ out'.map Row.pair = turnedSent.rows) := by
  obtain ⟨i, j, db, hin, href⟩ := turned_history
  exact ⟨i, j, db, (storage_transparency turned_unchanged hin href turned_sent turned_scanned rfl turned_plain).1⟩

end OranAdapt
