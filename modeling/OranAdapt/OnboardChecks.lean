import OranAdapt.Onboarding

/-!
# The checks of an onboarding

Which requests the database accepts, before the registry is reached and after
it: the training data, its link, and the drifted data beside it.
-/

namespace OranAdapt

/-! ## Versions under a name -/

namespace Datastore

variable {sha256 : String → String} {db db' : Datastore} {new : NewVersion} {info : DataVersionInfo}

theorem findVersion_add (db : Datastore) (new : NewVersion) (parent : Option Nat) (dataset name : String) :
    (db.add new parent).findVersion dataset name = (db.findVersion dataset name).or
      (if new.dataset = dataset ∧ new.version = name then some (db.newVersion new parent) else none) := by
  rw [findVersion, add, List.find?_append, findVersion, List.find?_singleton]
  simp only [decide_eq_true_eq]
  rfl

theorem Created.created_iff (h : Created db new info db') :
    info.created = true ↔ db.findVersion new.dataset new.version = none := by
  cases h with
  | replay hfound _ _ => simp [DataVersionInfo.of, hfound]
  | fresh hfree _ => simp [hfree]

/-- After the call the name holds what was sent. -/
theorem Created.named (h : Created db new info db') :
    ∃ v, db'.findVersion new.dataset new.version = some v ∧ v.contentHash = new.digest ∧
      info.contentHash = new.digest := by
  cases h with
  | replay hfound hhash hsame => exact ⟨_, by rw [hsame.findVersion, hfound], hhash, hhash⟩
  | @fresh parent _ hfree hsame =>
    refine ⟨db.newVersion new parent, ?_, rfl, rfl⟩
    rw [hsame.findVersion, findVersion_add, hfree, if_pos ⟨rfl, rfl⟩, Option.none_or]

theorem Created.other (h : Created db new info db') {dataset name : String} (hname : name ≠ new.version) :
    db'.findVersion dataset name = db.findVersion dataset name := by
  cases h with
  | replay _ _ hsame => exact hsame.findVersion _ _
  | fresh _ hsame =>
    rw [hsame.findVersion, findVersion_add, if_neg fun h => hname h.2.symm, Option.or_none]

theorem SameData.trans {db'' : Datastore} (h : db.SameData db') (h' : db'.SameData db'') : db.SameData db'' :=
  ⟨h'.versions.trans h.versions, h'.records.trans h.records⟩

theorem Created.same {db'' : Datastore} (h : Created db new info db') (hsame : db'.SameData db'') :
    Created db new info db'' := by
  cases h with
  | replay hfound hhash hs => exact .replay hfound hhash (hs.trans hsame)
  | fresh hfree hs => exact .fresh hfree (hs.trans hsame)

theorem linkIfGiven_datasets {link : Option ModelLink} {id : Nat} (h : linkIfGiven link id db = .ok db') :
    db'.datasets = db.datasets := by
  cases link with
  | none => cases h; rfl
  | some link =>
    rw [linkIfGiven, linkModelData] at h
    split at h
    · cases h
    · cases h
      split <;> rfl

theorem mem_getOrCreateDataset (db : Datastore) (dataset : String) :
    dataset ∈ (db.getOrCreateDataset dataset).datasets := by
  unfold getOrCreateDataset
  by_cases h : dataset ∈ db.datasets <;> simp [h]

theorem create_dataset (h : db.create new = .ok (info, db')) : new.dataset ∈ db'.datasets := by
  have hmem := mem_getOrCreateDataset db new.dataset
  obtain ⟨found, hfound, h⟩ := bind_ok h
  rcases found with _ | found
  · obtain ⟨parent, -, h⟩ := bind_ok h
    obtain ⟨db₁, hlink, h⟩ := bind_ok h
    cases h
    rw [linkIfGiven_datasets hlink]
    exact hmem
  · cases h
    unfold existing at hfound
    split at hfound
    · cases hfound
    · split at hfound
      · cases hfound
      · obtain ⟨db₁, hlink, heq⟩ := map_ok hfound
        cases heq
        rw [linkIfGiven_datasets hlink]
        exact hmem

theorem linkIfGiven_ok {link : Option ModelLink} (h : ∀ l, link = some l → l.modelId ∈ db.onboarded) (id : Nat) :
    ∃ db', linkIfGiven link id db = .ok db' := by
  cases link with
  | none => exact ⟨_, rfl⟩
  | some l =>
    rw [linkIfGiven, linkModelData, if_neg (not_not.mpr (h l rfl))]
    exact ⟨_, rfl⟩

theorem onboarded_getOrCreateDataset (db : Datastore) (dataset : String) :
    (db.getOrCreateDataset dataset).onboarded = db.onboarded := by
  unfold getOrCreateDataset
  split <;> rfl

/-- A call with a known parent for a known model fails only on a taken name. -/
theorem create_returns_iff (hlink : ∀ l, new.link = some l → l.modelId ∈ db.onboarded)
    (hparent : ∀ p, new.parentVersion = some p → (db.findVersion new.dataset p).isSome) :
    (∃ p, db.create new = .ok p) ↔ ∀ v, db.findVersion new.dataset new.version = some v →
      v.contentHash = new.digest := by
  have hdata := getOrCreateDataset_sameData db new.dataset
  rw [← onboarded_getOrCreateDataset db new.dataset] at hlink
  rw [create, existing, hdata.findVersion]
  cases hfound : db.findVersion new.dataset new.version with
  | some v =>
    by_cases hhash : v.contentHash = new.digest
    · obtain ⟨db', hdb'⟩ := linkIfGiven_ok hlink v.id
      simp only [hhash, ne_eq, not_true_eq_false, if_false, hdb']
      constructor
      · intro _ w hw
        rw [← Option.some.inj hw]
        exact hhash
      · intro _
        exact ⟨_, rfl⟩
    · simp only [ne_eq, hhash, not_false_eq_true, if_true]
      constructor
      · rintro ⟨p, hp⟩
        cases hp
      · intro h
        exact absurd (h v rfl) hhash
  | none =>
    obtain ⟨parent, hp⟩ : ∃ parent, parentId new.dataset new.parentVersion (db.getOrCreateDataset new.dataset) =
        .ok parent := by
      unfold parentId
      cases hname : new.parentVersion with
      | none => exact ⟨_, rfl⟩
      | some p =>
        obtain ⟨v, hv⟩ := Option.isSome_iff_exists.mp (hparent p hname)
        rw [← hdata.findVersion] at hv
        simp only [hv]
        exact ⟨_, rfl⟩
    have hadded : ∀ l, new.link = some l → l.modelId ∈
      ((db.getOrCreateDataset new.dataset).add new parent).onboarded := hlink
    obtain ⟨db', hdb'⟩ := linkIfGiven_ok hadded (db.getOrCreateDataset new.dataset).nextVersionId
    simp only [bind, Except.bind, pure, Except.pure, hp, hdb']
    exact ⟨fun _ w hw => (by cases hw), fun _ => ⟨_, rfl⟩⟩

end Datastore

namespace Onboarding

open Effects

/-! ## Running the steps -/

section
variable {α β : Type} {w : World} {cat : Catalog} {r r' : Registry} {k : α → OnboardAct β}

theorem onCatalog_ok {act : Catalog → Except AdaptationError (α × Catalog)} {a : α}
    (h : act w.catalog = .ok (a, cat)) : (onCatalog act >>= k) w = k a ⟨cat, w.registry⟩ := by
  change Act.bind (onCatalog act) k w = _
  unfold Act.bind onCatalog
  rw [h]

theorem onCatalog_error {act : Catalog → Except AdaptationError (α × Catalog)} {e : AdaptationError}
    (h : act w.catalog = .error e) : (onCatalog act >>= k) w = (.raised ⟨.request, e⟩, w) := by
  change Act.bind (onCatalog act) k w = _
  unfold Act.bind onCatalog
  rw [h]

theorem check_ok {x : Except AdaptationError α} {a : α} (h : x = .ok a) : (check x >>= k) w = k a w :=
  onCatalog_ok (by rw [h]; rfl)

theorem check_error {x : Except AdaptationError α} {e : AdaptationError} (h : x = .error e) :
    (check x >>= k) w = (.raised ⟨.request, e⟩, w) :=
  onCatalog_error (by rw [h]; rfl)

theorem onRegistry_done {act : RegistryAct α} {a : α} (h : act r = (.done a, r')) :
    (onRegistry act >>= k) ⟨cat, r⟩ = k a ⟨cat, r'⟩ := by
  change Act.bind (onRegistry act) k ⟨cat, r⟩ = _
  unfold Act.bind onRegistry
  rw [h]

theorem onRegistry_raised {act : RegistryAct α} {e : AdaptationError} (h : act r = (.raised e, r')) :
    (onRegistry act >>= k) ⟨cat, r⟩ = (.raised ⟨.registry, e⟩, ⟨cat, r'⟩) := by
  change Act.bind (onRegistry act) k ⟨cat, r⟩ = _
  unfold Act.bind onRegistry
  rw [h]

theorem onRegistry_stopped {act : RegistryAct α} (h : act r = (.stopped, r')) :
    (onRegistry act >>= k) ⟨cat, r⟩ = (.stopped, ⟨cat, r'⟩) := by
  change Act.bind (onRegistry act) k ⟨cat, r⟩ = _
  unfold Act.bind onRegistry
  rw [h]

end

variable {host : Host}

/-! ## What the checks let through -/

theorem column_ok_iff {n : Nat} {value : String} : column host n value = .ok () ↔ host.fits n value = true := by
  unfold column
  by_cases h : host.fits n value <;> simp [h]

theorem columnIf_ok_iff {added : Prop} [Decidable added] {n : Nat} {value : String} :
    columnIf host added n value = .ok () ↔ (added → host.fits n value = true) := by
  unfold columnIf
  by_cases h : added <;> simp [h, column_ok_iff]

theorem ensureNewModel_ok {modelId : ModelId} {cat : Catalog} (h : modelId ∉ cat.models.map ModelRow.modelId) :
    ensureNewModel modelId cat = .ok ((), cat) := by
  rw [ensureNewModel, if_neg h]

theorem ensureNewModel_error {modelId : ModelId} {cat : Catalog} (h : modelId ∈ cat.models.map ModelRow.modelId) :
    ∃ e, ensureNewModel modelId cat = .error e := by
  rw [ensureNewModel, if_pos h]
  exact ⟨_, rfl⟩

structure ModelRow.Fits (host : Host) (row : ModelRow) : Prop where
  modelId : host.fits 200 row.modelId = true
  mlflowModelName : host.fits 200 row.mlflowModelName = true
  modelType : host.fits 100 row.modelType = true
  framework : host.fits 50 row.framework = true
  taskType : host.fits 50 row.taskType = true
  targetColumn : host.fits 200 row.targetColumn = true

theorem addModel_ok {row : ModelRow} (h : row.Fits host) (cat : Catalog) :
    addModel host row cat = .ok ((), cat.add row) := by
  unfold addModel
  rw [column_ok_iff.mpr h.modelId, column_ok_iff.mpr h.mlflowModelName, column_ok_iff.mpr h.modelType,
    column_ok_iff.mpr h.framework, column_ok_iff.mpr h.taskType, column_ok_iff.mpr h.targetColumn]
  rfl

theorem addModel_fits {row : ModelRow} {cat : Catalog} {p : Unit × Catalog} (h : addModel host row cat = .ok p) :
    row.Fits host := by
  obtain ⟨_, h₁, h⟩ := bind_ok h
  obtain ⟨_, h₂, h⟩ := bind_ok h
  obtain ⟨_, h₃, h⟩ := bind_ok h
  obtain ⟨_, h₄, h⟩ := bind_ok h
  obtain ⟨_, h₅, h⟩ := bind_ok h
  obtain ⟨_, h₆, -⟩ := bind_ok h
  exact ⟨column_ok_iff.mp h₁, column_ok_iff.mp h₂, column_ok_iff.mp h₃, column_ok_iff.mp h₄, column_ok_iff.mp h₅,
    column_ok_iff.mp h₆⟩

theorem addModel_error {row : ModelRow} (h : ¬ row.Fits host) (cat : Catalog) : ∃ e, addModel host row cat = .error e := by
  cases hadd : addModel host row cat with
  | ok p => exact absurd (addModel_fits hadd) h
  | error e => exact ⟨e, rfl⟩

theorem mem_onboarded_add (cat : Catalog) (row : ModelRow) : row.modelId ∈ (cat.add row).data.onboarded := by
  simp [Catalog.add]

theorem addLink_ok_iff {link : ModelLink} {versionId : Nat} {cat : Catalog} (hknown : link.modelId ∈ cat.data.onboarded) :
    (∃ p, addLink host link versionId cat = .ok p) ↔ host.fits 50 link.modelVersion = true := by
  unfold addLink linkModelData
  rw [if_neg (not_not.mpr hknown)]
  by_cases h : host.fits 50 link.modelVersion <;> simp [column, h, bind, Except.bind, pure, Except.pure]

theorem addLink_keeps {link : ModelLink} {versionId : Nat} {cat cat' : Catalog} {u : Unit}
    (h : addLink host link versionId cat = .ok (u, cat')) :
    cat.data.SameData cat'.data ∧ cat'.data.onboarded = cat.data.onboarded ∧ cat'.data.datasets = cat.data.datasets := by
  obtain ⟨db, hlink, h⟩ := bind_ok h
  obtain ⟨_, -, h⟩ := bind_ok h
  cases h
  rw [linkModelData] at hlink
  split at hlink
  · cases hlink
  · cases hlink
    split <;> exact ⟨⟨rfl, rfl⟩, rfl, rfl⟩

/-- `ingest_version` returns when its parts do and the rows it adds fit. -/
theorem ingest_ok_iff {call : IngestCall} {cat cat' : Catalog} {info : DataVersionInfo} :
    ingest host call cat = .ok (info, cat') ↔
      (∃ db, call.run host.sha256 cat.data = .ok (info, db) ∧ cat' = cat.withData db) ∧
      (call.dataset ∉ cat.data.datasets → host.fits 200 call.dataset = true) ∧
      (info.created = true → host.fits 50 call.version = true) ∧
      (call.link.isSome = true → host.fits 50 (call.link.elim "" ModelLink.modelVersion) = true) := by
  constructor
  · intro h
    obtain ⟨⟨info₁, db⟩, hrun, h⟩ := bind_ok h
    obtain ⟨_, hdataset, h⟩ := bind_ok h
    obtain ⟨_, hname, h⟩ := bind_ok h
    obtain ⟨_, hlink, h⟩ := bind_ok h
    cases h
    exact ⟨⟨db, hrun, rfl⟩, columnIf_ok_iff.mp hdataset, columnIf_ok_iff.mp hname, columnIf_ok_iff.mp hlink⟩
  · intro ⟨⟨db, hrun, hcat⟩, hdataset, hname, hlink⟩
    unfold ingest
    rw [hrun, hcat]
    change (columnIf host _ _ _ >>= fun _ => columnIf host _ _ _ >>= fun _ => columnIf host _ _ _ >>= fun _ => _) = _
    rw [columnIf_ok_iff.mpr hdataset, columnIf_ok_iff.mpr hname, columnIf_ok_iff.mpr hlink]
    rfl

/-! ## The drifted data -/

theorem split_ok_iff {call : IngestCall} {features : Frame} {observedAt : List DateTime} (hkeys : call.recordKeys = none)
    (hdeleted : call.deletedKeys = []) :
    call.split = .ok (features, observedAt) ↔
      call.frame.empty = false ∧ call.timestamps = .ok (features, observedAt) ∧
        observedAt.length = features.records.length := by
  unfold IngestCall.split
  rw [hkeys, hdeleted]
  by_cases hempty : call.frame.empty = true
  · rw [if_pos ⟨hempty, rfl⟩, hempty]
    simp
  · rw [if_neg fun h => hempty h.1, if_neg (by simp)]
    rw [Bool.not_eq_true] at hempty
    cases hstamps : call.timestamps with
    | error e => simp [bind, Except.bind]
    | ok p =>
      obtain ⟨f, o⟩ := p
      by_cases hlength : o.length = f.records.length
      · simp only [bind, Except.bind, IngestCall.zipStrict, hlength, if_true, pure, Except.pure, Except.ok.injEq,
          Prod.mk.injEq, hempty, true_and]
        constructor
        · intro ⟨hf, ho⟩
          exact ⟨⟨hf, ho⟩, by rw [← hf, ← ho, hlength]⟩
        · exact And.left
      · simp only [bind, Except.bind, IngestCall.zipStrict, hlength, if_false, Except.ok.injEq, Prod.mk.injEq]
        constructor
        · intro h
          cases h
        · intro ⟨_, ⟨hf, ho⟩, h⟩
          rw [← hf, ← ho] at h
          exact absurd h hlength

namespace OnboardCall

variable (host) (call : OnboardCall)

/-- The checks of an onboarding that come before it reaches the registry. -/
structure Accepted (cat : Catalog) (training : DataVersionInfo) : Prop where
  new : call.modelId ∉ cat.models.map ModelRow.modelId
  target : call.targetColumn ∈ call.trainingFrame.columns.map Prod.fst
  row : call.row.Fits host
  ingested : ∃ cat', ingest host call.training (cat.add call.row) = .ok (training, cat')
  name : validModelName call.name = true
  saved : ∃ artifact, call.saved = .ok artifact ∧ artifact.size ≤ host.maxBytes

/-- The drifted data can be stored beside the training data: it has rows and
times for them, and its name fits, and is free or holds the same content. -/
structure Storable (cat : Catalog) (training : DataVersionInfo) (version : Version) (slice : Slice) : Prop where
  nonempty : slice.frame.empty = false
  named : cat.data.findVersion call.dataset (call.driftedVersion slice) = none →
    call.driftedVersion slice ≠ call.trainingVersion → host.fits 50 (call.driftedVersion slice) = true
  rows : ∃ features observedAt, slice.timestamps training = .ok (features, observedAt) ∧
    observedAt.length = features.records.length ∧
    ∀ digest, digest = (call.driftedIngest slice training version).digest host.sha256 features observedAt →
      (call.driftedVersion slice = call.trainingVersion → training.contentHash = digest) ∧
      ∀ v, cat.data.findVersion call.dataset (call.driftedVersion slice) = some v → v.contentHash = digest

variable {host call} {cat cat₁ cat₂ : Catalog} {training : DataVersionInfo} {version : Version}

theorem training_created (h : ingest host call.training (cat.add call.row) = .ok (training, cat₁)) :
    (∃ new : NewVersion, new.version = call.trainingVersion ∧ new.dataset = call.dataset ∧
      Datastore.Created (cat.add call.row).data new training cat₁.data) ∧
    call.dataset ∈ cat₁.data.datasets ∧ call.modelId ∈ cat₁.data.onboarded := by
  obtain ⟨⟨db, hrun, rfl⟩, -⟩ := ingest_ok_iff.mp h
  have hknown : call.modelId ∈ (cat.add call.row).data.onboarded := mem_onboarded_add cat call.row
  obtain ⟨⟨features, observedAt⟩, -, hcreate⟩ := bind_ok hrun
  refine ⟨⟨call.training.new host.sha256 features observedAt, rfl, rfl,
    (Datastore.create_ok hcreate).same ⟨rfl, rfl⟩⟩, ?_,
    hknown⟩
  exact Datastore.create_dataset hcreate

theorem named_after (h : ingest host call.training (cat.add call.row) = .ok (training, cat₁))
    (hsame : cat₁.data.SameData cat₂.data)
    (name digest : String) :
    (∀ v, cat₂.data.findVersion call.dataset name = some v → v.contentHash = digest) ↔
      (name = call.trainingVersion → training.contentHash = digest) ∧
      ∀ v, cat.data.findVersion call.dataset name = some v → v.contentHash = digest := by
  obtain ⟨⟨new, hname, hdataset, hcreated⟩, -⟩ := training_created h
  have hbefore : (cat.add call.row).data.findVersion call.dataset name = cat.data.findVersion call.dataset name := rfl
  rw [hsame.findVersion, ← hbefore]
  obtain ⟨stored, hstored, hhash, hinfo⟩ := hcreated.named
  rw [hname, hdataset] at hstored
  constructor
  · intro hafter
    constructor
    · rintro rfl
      rw [← hafter stored hstored, hhash, hinfo]
    · intro v hv
      exact hafter v (hcreated.extends.findVersion hv)
  · intro ⟨hown, hothers⟩ v hv
    by_cases heq : name = call.trainingVersion
    · rw [heq, hstored] at hv
      rw [← hown heq, hinfo, ← hhash, Option.some.inj hv]
    · rw [hcreated.other (by rw [hname]; exact heq)] at hv
      exact hothers v hv

theorem driftLink_modelId {l : ModelLink} (h : call.driftLink version = some l) : l.modelId = call.modelId := by
  unfold driftLink at h
  split at h
  · cases h
  · cases h
    rfl

theorem driftLink_version (hversion : host.fits 50 version = true) (h : (call.driftLink version).isSome = true) :
    host.fits 50 ((call.driftLink version).elim "" ModelLink.modelVersion) = true := by
  unfold driftLink at *
  split
  · rename_i hempty
    rw [if_pos hempty] at h
    cases h
  · exact hversion

theorem parent_stored (h : ingest host call.training (cat.add call.row) = .ok (training, cat₁))
    (hsame : cat₁.data.SameData cat₂.data) : ∃ v,
      cat₂.data.findVersion call.dataset call.trainingVersion = some v := by
  obtain ⟨⟨new, hname, hdataset, hcreated⟩, -⟩ := training_created h
  obtain ⟨stored, hstored, -⟩ := hcreated.named
  rw [hname, hdataset] at hstored
  exact ⟨stored, by rw [hsame.findVersion, hstored]⟩

theorem free_after_iff (h : ingest host call.training (cat.add call.row) = .ok (training, cat₁))
    (hsame : cat₁.data.SameData cat₂.data) (name : String) :
    cat₂.data.findVersion call.dataset name = none ↔
      cat.data.findVersion call.dataset name = none ∧ name ≠ call.trainingVersion := by
  obtain ⟨⟨new, hname, hdataset, hcreated⟩, -⟩ := training_created h
  obtain ⟨stored, hstored⟩ := parent_stored h hsame
  have hbefore : (cat.add call.row).data.findVersion call.dataset name = cat.data.findVersion call.dataset name := rfl
  by_cases heq : name = call.trainingVersion
  · rw [heq, hstored]
    simp
  · rw [hsame.findVersion, hcreated.other (by rw [hname]; exact heq), hbefore]
    simp [heq]

/-- Its parent and its model are known, so only the name can be in the way. -/
theorem create_slice_iff {slice : Slice} (h : ingest host call.training (cat.add call.row) = .ok (training, cat₁))
    (hsame : cat₁.data.SameData cat₂.data) (honboarded : cat₂.data.onboarded = cat₁.data.onboarded) (features : Frame)
    (observedAt : List DateTime) :
    (∃ p, cat₂.data.create ((call.driftedIngest slice training version).new host.sha256 features observedAt) = .ok p) ↔
      ∀ v, cat₂.data.findVersion call.dataset (call.driftedVersion slice) = some v →
        v.contentHash = (call.driftedIngest slice training version).digest host.sha256 features observedAt := by
  obtain ⟨-, -, hknown⟩ := training_created h
  obtain ⟨parent, hparent⟩ := parent_stored h hsame
  refine Datastore.create_returns_iff ?_ ?_
  · intro l hl
    rw [driftLink_modelId hl, honboarded]
    exact hknown
  · intro p hp
    change (if call.trainingVersion = "" then none else some call.trainingVersion) = some p at hp
    split at hp
    · cases hp
    · cases hp
      change (cat₂.data.findVersion call.dataset call.trainingVersion).isSome = true
      rw [hparent]
      rfl

theorem ingest_slice_iff {slice : Slice} (h : ingest host call.training (cat.add call.row) = .ok (training, cat₁))
    (hsame : cat₁.data.SameData cat₂.data) (hdatasets : cat₂.data.datasets = cat₁.data.datasets)
    (honboarded : cat₂.data.onboarded = cat₁.data.onboarded) (hversion : host.fits 50 version = true) :
    (∃ p, ingest host (call.driftedIngest slice training version) cat₂ = .ok p) ↔
      call.Storable host cat training version slice := by
  obtain ⟨-, hdataset, -⟩ := training_created h
  rw [← hdatasets] at hdataset
  have hreturns : ∀ features observedAt, (∃ p, cat₂.data.create
      ((call.driftedIngest slice training version).new host.sha256 features observedAt) = .ok p) ↔ _ :=
    create_slice_iff h hsame honboarded
  constructor
  · intro ⟨⟨info, cat'⟩, hok⟩
    obtain ⟨⟨db, hrun, -⟩, -, hname, -⟩ := ingest_ok_iff.mp hok
    obtain ⟨⟨features, observedAt⟩, hsplit, hcreate⟩ := bind_ok hrun
    obtain ⟨hempty, hstamps, hlength⟩ := (split_ok_iff rfl rfl).mp hsplit
    refine ⟨hempty, ?_, features, observedAt, hstamps, hlength, ?_⟩
    · intro hfree hne
      exact hname ((Datastore.create_ok hcreate).created_iff.mpr ((free_after_iff h hsame _).mpr ⟨hfree, hne⟩))
    · rintro digest rfl
      exact (named_after h hsame _ _).mp ((hreturns features observedAt).mp ⟨_, hcreate⟩)
  · intro ⟨hempty, hname, features, observedAt, hstamps, hlength, hdigest⟩
    have hsplit : (call.driftedIngest slice training version).split = .ok (features, observedAt) :=
      (split_ok_iff rfl rfl).mpr ⟨hempty, hstamps, hlength⟩
    obtain ⟨⟨info, db⟩, hcreate⟩ := (hreturns features observedAt).mpr ((named_after h hsame _ _).mpr (hdigest _ rfl))
    have hrun : (call.driftedIngest slice training version).run host.sha256 cat₂.data = .ok (info, db) := by
      unfold IngestCall.run
      rw [hsplit]
      exact hcreate
    refine ⟨(info, cat₂.withData db), ingest_ok_iff.mpr ⟨⟨db, hrun, rfl⟩, fun hd => absurd hdataset hd, ?_,
      driftLink_version hversion⟩⟩
    intro hcreated
    have hfree := (free_after_iff h hsame _).mp ((Datastore.create_ok hcreate).created_iff.mp hcreated)
    exact hname hfree.1 hfree.2

theorem ingestDrifted_ok_iff (h : ingest host call.training (cat.add call.row) = .ok (training, cat₁))
    (hsame : cat₁.data.SameData cat₂.data) (hdatasets : cat₂.data.datasets = cat₁.data.datasets)
    (honboarded : cat₂.data.onboarded = cat₁.data.onboarded) (hversion : host.fits 50 version = true) :
    (∃ p, call.ingestDrifted host training version cat₂ = .ok p) ↔
      ∀ slice, call.drifted = some slice → call.Storable host cat training version slice := by
  unfold ingestDrifted
  cases call.drifted with
  | none => simp
  | some slice =>
    simp only [Option.some.injEq, forall_eq']
    rw [← ingest_slice_iff h hsame hdatasets honboarded hversion]
    cases ingest host (call.driftedIngest slice training version) cat₂ with
    | ok p => simp [Except.map]
    | error e => simp [Except.map]

/-! ## Up to the registry -/

variable {w : World} {answers : PublishAnswers}

variable (host call) in
def register (answers : PublishAnswers) (artifact : Artifact) (training : DataVersionInfo) : OnboardAct Result := do
  let tags := lineageTags call.modelId call.dataset call.trainingVersion training.contentHash
  let version ← onRegistry (Registry.createVersion answers.create call.name answers.version
    ⟨artifact.source, tags, artifact.size, artifact.sha256⟩)
  onRegistry (Registry.setAlias answers.setAlias call.name call.liveAlias version)
  onCatalog (addLink host ⟨call.modelId, version, "TRAINING"⟩ training.dataVersionId)
  let drifted ← onCatalog (call.ingestDrifted host training version)
  pure ⟨call.modelId, call.name, version, call.liveAlias, some training, drifted⟩

theorem checkTarget_ok (h : call.targetColumn ∈ call.trainingFrame.columns.map Prod.fst) :
    checkTarget host call.trainingFrame call.targetColumn = .ok () := by
  rw [checkTarget, if_pos h]

theorem checkModelName_ok (h : validModelName call.name = true) : checkModelName host call.name = .ok () := by
  rw [checkModelName, if_pos h]

theorem checkSize_ok {artifact : Artifact} {name : String} (h : artifact.size ≤ host.maxBytes) :
    checkSize host artifact name = .ok () := by
  rw [checkSize, if_neg (by omega)]

theorem run_accepted (h : call.Accepted host w.catalog training) :
    ∃ cat artifact, ingest host call.training (w.catalog.add call.row) = .ok (training, cat) ∧
      call.run host answers w = call.register host answers artifact training ⟨cat, w.registry⟩ := by
  obtain ⟨cat, hingest⟩ := h.ingested
  obtain ⟨artifact, hsaved, hsize⟩ := h.saved
  refine ⟨cat, artifact, hingest, ?_⟩
  unfold run publishModel
  simp only [bind_assoc]
  rw [onCatalog_ok (ensureNewModel_ok h.new), check_ok (checkTarget_ok h.target), onCatalog_ok (addModel_ok h.row _),
    onCatalog_ok hingest, check_ok (checkModelName_ok h.name), check_ok hsaved, check_ok (checkSize_ok hsize)]
  rfl

theorem run_refused (h : ∀ training, ¬ call.Accepted host w.catalog training) :
    ∃ e w', call.run host answers w = (.raised ⟨.request, e⟩, w') ∧ w'.registry = w.registry := by
  unfold run publishModel
  simp only [bind_assoc]
  by_cases hnew : call.modelId ∈ w.catalog.models.map ModelRow.modelId
  · obtain ⟨e, he⟩ := ensureNewModel_error hnew
    exact ⟨e, w, onCatalog_error he, rfl⟩
  rw [onCatalog_ok (ensureNewModel_ok hnew)]
  by_cases htarget : call.targetColumn ∈ call.trainingFrame.columns.map Prod.fst
  swap
  · exact ⟨_, _, check_error (by rw [checkTarget, if_neg htarget]), rfl⟩
  rw [check_ok (checkTarget_ok htarget)]
  by_cases hrow : call.row.Fits host
  swap
  · obtain ⟨e, he⟩ := addModel_error hrow w.catalog
    exact ⟨e, _, onCatalog_error he, rfl⟩
  rw [onCatalog_ok (addModel_ok hrow _)]
  cases hingest : ingest host call.training (w.catalog.add call.row) with
  | error e => exact ⟨e, _, onCatalog_error hingest, rfl⟩
  | ok p =>
    obtain ⟨training, cat⟩ := p
    rw [onCatalog_ok hingest]
    by_cases hname : validModelName call.name = true
    swap
    · exact ⟨_, _, check_error (by rw [checkModelName, if_neg hname]), rfl⟩
    rw [check_ok (checkModelName_ok hname)]
    cases hsaved : call.saved with
    | error e => exact ⟨e, _, check_error rfl, rfl⟩
    | ok artifact =>
      rw [check_ok rfl]
      by_cases hsize : artifact.size ≤ host.maxBytes
      · exact absurd ⟨hnew, htarget, hrow, ⟨cat, hingest⟩, hname, artifact, hsaved, hsize⟩ (h training)
      · exact ⟨_, _, check_error (by rw [checkSize, if_pos (by omega)]), rfl⟩

end OnboardCall

end Onboarding

end OranAdapt
