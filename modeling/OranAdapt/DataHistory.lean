import OranAdapt.Runs
import OranAdapt.DataAccess

/-!
# Histories of a datastore

Every call that creates a version ends in `create`, which adds one version and
its rows or nothing at all. So a datastore only grows: what was found in it
under a name or an id is found there ever after.
-/

namespace OranAdapt

open Runs

inductive DatastoreCall where
  | onboard (modelId : String)
  | ingest (call : IngestCall)
  | register (access : DataAccess) (call : DataAccess.RegisterCall)
  | snapshot (access : DataAccess) (reframe : List Payload → Frame) (call : SnapshotCall)

namespace Datastore

variable (sha256 : String → String)

def call (db : Datastore) : DatastoreCall → Except AdaptationError Datastore
  | .onboard modelId => .ok { db with onboarded := db.onboarded ++ [modelId] }
  | .ingest c => (c.run sha256 db).map Prod.snd
  | .register access c => (access.register sha256 c db).map Prod.snd
  | .snapshot access reframe c => (c.run sha256 access reframe db).map Prod.snd

/-- A call that raises is rolled back. -/
def step (db : Datastore) (c : DatastoreCall) : Option Datastore := (db.call sha256 c).toOption

/-! ## What a call adds -/

structure SameData (db db' : Datastore) : Prop where
  versions : db'.versions = db.versions
  records : db'.records = db.records

/-- What was there stays in front, and the rows added belong to versions added. -/
structure Extends (db db' : Datastore) : Prop where
  versions : ∃ added, db'.versions = db.versions ++ added
  records : ∃ added, db'.records = db.records ++ added ∧ ∀ r ∈ added, db.versions.length < r.dataVersionId

/-- Versions are numbered from 1 in the order they were made, and each has its own name. -/
structure Numbered (db : Datastore) : Prop where
  ids : ∀ i (h : i < db.versions.length), db.versions[i].id = i + 1
  records : ∀ r ∈ db.records, r.dataVersionId ≤ db.versions.length
  names : (db.versions.map fun v => (v.dataset, v.version)).Nodup

variable {sha256} {db db' db'' : Datastore} {new : NewVersion} {info : DataVersionInfo}

theorem SameData.extends (h : db.SameData db') : db.Extends db' :=
  ⟨⟨[], by simp [h.versions]⟩, ⟨[], by simp [h.records]⟩⟩

theorem Extends.refl (db : Datastore) : db.Extends db := SameData.extends ⟨rfl, rfl⟩

theorem Extends.trans (h : db.Extends db') (h' : db'.Extends db'') : db.Extends db'' := by
  obtain ⟨vs, hvs⟩ := h.versions
  obtain ⟨vs', hvs'⟩ := h'.versions
  obtain ⟨rs, hrs, hnew⟩ := h.records
  obtain ⟨rs', hrs', hnew'⟩ := h'.records
  refine ⟨⟨vs ++ vs', by rw [hvs', hvs, List.append_assoc]⟩, rs ++ rs', by rw [hrs', hrs, List.append_assoc], ?_⟩
  intro r hr
  rcases List.mem_append.mp hr with hr | hr
  · exact hnew r hr
  · have hlt := hnew' r hr
    rw [hvs, List.length_append] at hlt
    omega

theorem linkIfGiven_sameData {link : Option ModelLink} {id : Nat} (h : linkIfGiven link id db = .ok db') :
    db.SameData db' := by
  cases link with
  | none => cases h; exact ⟨rfl, rfl⟩
  | some link =>
    rw [linkIfGiven, linkModelData] at h
    split at h
    · cases h
    · cases h
      split <;> exact ⟨rfl, rfl⟩

theorem mem_numberRows {versionId : Nat} {rows : List (DateTime × Payload × Option String)} {n : Nat} {r : DataRecord}
    (h : r ∈ numberRows versionId n rows) : r.dataVersionId = versionId := by
  induction rows generalizing n with
  | nil => cases h
  | cons row rows ih =>
    rcases List.mem_cons.mp h with rfl | h
    · rfl
    · exact ih h

theorem numberRows_rows (versionId n : Nat) (rows : List (DateTime × Payload × Option String)) :
    (numberRows versionId n rows).map (fun r => (r.observedAt, r.payload, r.recordKey)) = rows := by
  induction rows generalizing n with
  | nil => rfl
  | cons row rows ih => rw [numberRows, List.map_cons, ih]

theorem getOrCreateDataset_sameData (db : Datastore) (dataset : String) : db.SameData (db.getOrCreateDataset dataset) := by
  unfold getOrCreateDataset
  split <;> exact ⟨rfl, rfl⟩

theorem SameData.findVersion (h : db.SameData db') (dataset version : String) :
    db'.findVersion dataset version = db.findVersion dataset version := by
  rw [Datastore.findVersion, h.versions, Datastore.findVersion]

theorem SameData.add (h : db.SameData db') (new : NewVersion) (parent : Option Nat) :
    (db.add new parent).SameData (db'.add new parent) := by
  constructor
  · simp [Datastore.add, newVersion, nextVersionId, h.versions]
  · simp [Datastore.add, nextVersionId, h.versions, h.records]

/-- What `create` did when it returned. -/
inductive Created (db : Datastore) (new : NewVersion) : DataVersionInfo → Datastore → Prop where
  | replay {v : DataVersion} {db' : Datastore} (hfound : db.findVersion new.dataset new.version = some v)
      (hhash : v.contentHash = new.digest) (hsame : db.SameData db') : Created db new (.of v false) db'
  | fresh {parent : Option Nat} {db' : Datastore} (hfree : db.findVersion new.dataset new.version = none)
      (hsame : (db.add new parent).SameData db') :
      Created db new ⟨db.nextVersionId, new.version, new.rowCount, new.digest, new.columns, true⟩ db'

theorem existing_ok {dataset version digest : String} {link : Option ModelLink} {o : Option (DataVersionInfo × Datastore)}
    (h : existing dataset version digest link db = .ok o) :
    (o = none ∧ db.findVersion dataset version = none) ∨
    ∃ v db', o = some (.of v false, db') ∧ db.findVersion dataset version = some v ∧ v.contentHash = digest ∧
      db.SameData db' := by
  unfold existing at h
  split at h
  · rename_i hfree
    cases h
    exact .inl ⟨rfl, hfree⟩
  · rename_i v hfound
    by_cases hhash : v.contentHash = digest
    · rw [if_neg (by simp [hhash])] at h
      cases hl : linkIfGiven link v.id db with
      | error e => rw [hl] at h; cases h
      | ok db' =>
        rw [hl] at h
        cases h
        exact .inr ⟨v, db', rfl, hfound, hhash, linkIfGiven_sameData hl⟩
    · rw [if_pos hhash] at h
      cases h

theorem create_ok (h : db.create new = .ok (info, db')) : Created db new info db' := by
  have hdata := getOrCreateDataset_sameData db new.dataset
  obtain ⟨found, hfound, h⟩ := bind_ok h
  rcases existing_ok hfound with ⟨rfl, hfree⟩ | ⟨v, db₁, rfl, hv, hhash, hsame⟩
  · obtain ⟨parent, -, h⟩ := bind_ok h
    obtain ⟨db₂, hlink, h⟩ := bind_ok h
    cases h
    have hadd := hdata.add new parent
    have hsame := linkIfGiven_sameData hlink
    have hid : (db.getOrCreateDataset new.dataset).nextVersionId = db.nextVersionId := by
      simp [nextVersionId, hdata.versions]
    rw [hid]
    have hdone : (db.add new parent).SameData db' := by
      constructor
      · rw [hsame.versions, hadd.versions]
      · rw [hsame.records, hadd.records]
    exact .fresh (by rw [← hdata.findVersion]; exact hfree) hdone
  · cases h
    refine .replay (by rw [← hdata.findVersion]; exact hv) hhash ⟨?_, ?_⟩
    · rw [hsame.versions, hdata.versions]
    · rw [hsame.records, hdata.records]

theorem add_extends (db : Datastore) (new : NewVersion) (parent : Option Nat) : db.Extends (db.add new parent) := by
  refine ⟨⟨_, rfl⟩, _, rfl, ?_⟩
  intro r hr
  rw [mem_numberRows hr]
  exact Nat.lt_succ_self _

theorem Created.extends (h : Created db new info db') : db.Extends db' := by
  cases h with
  | replay _ _ hsame => exact hsame.extends
  | fresh _ hsame => exact (add_extends _ _ _).trans hsame.extends

theorem SameData.numbered (h : db.SameData db') (hn : db.Numbered) : db'.Numbered := by
  cases db
  cases db'
  obtain ⟨rfl, rfl⟩ := h
  exact ⟨hn.ids, hn.records, hn.names⟩

theorem add_numbered (hn : db.Numbered) (hfree : db.findVersion new.dataset new.version = none) (parent : Option Nat) :
    (db.add new parent).Numbered := by
  refine ⟨?_, ?_, ?_⟩
  · intro i hi
    simp only [add, List.length_append, List.length_singleton] at hi
    by_cases hlt : i < db.versions.length
    · simp only [add, List.getElem_append_left hlt]
      exact hn.ids i hlt
    · have heq : i = db.versions.length := by omega
      subst heq
      simp [add, newVersion, nextVersionId]
  · intro r hr
    simp only [add, List.mem_append] at hr
    simp only [add, List.length_append, List.length_singleton]
    rcases hr with hr | hr
    · exact Nat.le_succ_of_le (hn.records r hr)
    · rw [mem_numberRows hr, nextVersionId]
  · simp only [add, List.map_append, List.map_cons, List.map_nil]
    rw [List.nodup_append]
    refine ⟨hn.names, List.nodup_singleton _, ?_⟩
    rintro _ hold _ hnew rfl
    obtain ⟨v, hv, heq⟩ := List.mem_map.mp hold
    rw [List.mem_singleton, ← heq, Prod.mk.injEq] at hnew
    rw [findVersion, List.find?_eq_none] at hfree
    exact hfree v hv (by simpa [newVersion] using hnew)

theorem Created.numbered (h : Created db new info db') (hn : db.Numbered) : db'.Numbered := by
  cases h with
  | replay _ _ hsame => exact hsame.numbered hn
  | fresh hfree hsame => exact hsame.numbered (add_numbered hn hfree _)

/-! ## What it returns -/

theorem create_free (hfree : db.findVersion new.dataset new.version = none) (hparent : new.parentVersion = none)
    (hlink : new.link = none) :
    db.create new = .ok (⟨db.nextVersionId, new.version, new.rowCount, new.digest, new.columns, true⟩,
      (db.getOrCreateDataset new.dataset).add new none) := by
  have hdata := getOrCreateDataset_sameData db new.dataset
  have hid : (db.getOrCreateDataset new.dataset).nextVersionId = db.nextVersionId := by
    simp [nextVersionId, hdata.versions]
  rw [← hdata.findVersion] at hfree
  rw [create, existing, hfree, hparent, hlink, ← hid]
  rfl

theorem create_taken {v : DataVersion} (hv : db.findVersion new.dataset new.version = some v)
    (hhash : v.contentHash = new.digest) (hlink : new.link = none) :
    db.create new = .ok (.of v false, db.getOrCreateDataset new.dataset) := by
  have hdata := getOrCreateDataset_sameData db new.dataset
  rw [← hdata.findVersion] at hv
  rw [create, existing, hv, hlink]
  simp only [hhash, ne_eq, not_true_eq_false, if_false]
  rfl

/-! ## What a run keeps -/

theorem mapM_some_mem {α β : Type} {f : α → Option β} {l : List α} {bs : List β} (h : l.mapM f = some bs) {a : α}
    (ha : a ∈ l) : ∃ b, f a = some b := by
  induction l generalizing bs with
  | nil => cases ha
  | cons c l ih =>
    rw [List.mapM_cons] at h
    obtain ⟨b, hb, h⟩ := Option.bind_eq_some_iff.mp h
    obtain ⟨bs', hbs, -⟩ := Option.bind_eq_some_iff.mp h
    rcases List.mem_cons.mp ha with rfl | ha
    · exact ⟨b, hb⟩
    · exact ih hbs ha

def SourcesFound (db : Datastore) (storage : Storage) : Prop :=
  ∀ sources excluded, storage = .derived sources excluded → ∀ id ∈ sources, ∃ v, db.version? id = some v

theorem call_created {c : DatastoreCall} (h : db.call sha256 c = .ok db') :
    db.SameData db' ∨ ∃ new info, Created db new info db' ∧ db.SourcesFound new.storage := by
  cases c with
  | onboard modelId =>
    cases h
    exact .inl ⟨rfl, rfl⟩
  | ingest c =>
    rw [call] at h
    obtain ⟨⟨info, db₁⟩, hrun, rfl⟩ := map_ok h
    obtain ⟨⟨features, observedAt⟩, -, hrun⟩ := bind_ok hrun
    exact .inr ⟨_, _, create_ok hrun, fun _ _ hs => by cases hs⟩
  | register access c =>
    rw [call] at h
    obtain ⟨⟨info, db₁⟩, hrun, rfl⟩ := map_ok h
    obtain ⟨scan, -, hrun⟩ := bind_ok hrun
    exact .inr ⟨_, _, create_ok hrun, fun _ _ hs => by cases hs⟩
  | snapshot access reframe c =>
    rw [call] at h
    obtain ⟨⟨info, db₁⟩, hrun, rfl⟩ := map_ok h
    unfold SnapshotCall.run at hrun
    split at hrun
    · cases hrun
    · cases hrun
    · rename_i sources _ hsources
      obtain ⟨anchor, -, hrun⟩ := bind_ok hrun
      split at hrun
      · obtain ⟨rows, -, hrun⟩ := bind_ok hrun
        refine .inr ⟨_, _, create_ok hrun, ?_⟩
        rintro _ _ hs id hid
        cases hs
        exact mapM_some_mem hsources hid
      · obtain ⟨⟨features, observedAt⟩, -, hrun⟩ := bind_ok hrun
        exact .inr ⟨_, _, create_ok hrun, fun _ _ hs => by cases hs⟩

theorem step_ingest {c : IngestCall} (h : c.run sha256 db = .ok (info, db')) : db.step sha256 (.ingest c) = some db' := by
  rw [step, call, h]
  rfl

theorem step_register {access : DataAccess} {c : DataAccess.RegisterCall}
    (h : access.register sha256 c db = .ok (info, db')) : db.step sha256 (.register access c) = some db' := by
  rw [step, call, h]
  rfl

theorem step_snapshot {access : DataAccess} {reframe : List Payload → Frame} {c : SnapshotCall}
    (h : c.run sha256 access reframe db = .ok (info, db')) : db.step sha256 (.snapshot access reframe c) = some db' := by
  rw [step, call, h]
  rfl

theorem step_extends {c : DatastoreCall} (h : db.step sha256 c = some db') : db.Extends db' := by
  rcases call_created (ok_of_toOption h) with hsame | ⟨new, info, hcreated, -⟩
  · exact hsame.extends
  · exact hcreated.extends

theorem step_numbered {c : DatastoreCall} (hn : db.Numbered) (h : db.step sha256 c = some db') : db'.Numbered := by
  rcases call_created (ok_of_toOption h) with hsame | ⟨new, info, hcreated, -⟩
  · exact hsame.numbered hn
  · exact hcreated.numbered hn

theorem steps_numbered (h : Steps (step sha256) Free db db') (hn : db.Numbered) : db'.Numbered :=
  h.inv Numbered (fun _ _ _ hn _ hs => step_numbered hn hs) hn

theorem steps_extends (h : Steps (step sha256) Free db db') : db.Extends db' :=
  h.inv db.Extends (fun _ _ _ he _ hs => he.trans (step_extends hs)) (.refl db)

theorem numbered_empty : ({} : Datastore).Numbered := by
  refine ⟨?_, ?_, List.nodup_nil⟩
  · intro i hi
    cases hi
  · intro r hr
    cases hr

theorem Extends.findVersion {dataset version : String} {v : DataVersion} (h : db.Extends db')
    (hv : db.findVersion dataset version = some v) : db'.findVersion dataset version = some v := by
  obtain ⟨added, hadded⟩ := h.versions
  rw [Datastore.findVersion] at hv ⊢
  rw [hadded, List.find?_append, hv, Option.some_or]

theorem Extends.version? {id : Nat} {v : DataVersion} (h : db.Extends db') (hv : db.version? id = some v) :
    db'.version? id = some v := by
  obtain ⟨added, hadded⟩ := h.versions
  rw [Datastore.version?] at hv ⊢
  rw [hadded, List.find?_append, hv, Option.some_or]

theorem Numbered.id_le {v : DataVersion} (hn : db.Numbered) (hv : v ∈ db.versions) : v.id ≤ db.versions.length := by
  obtain ⟨i, hi, rfl⟩ := List.getElem_of_mem hv
  rw [hn.ids i hi]
  exact hi

theorem Extends.recordsOf {id : Nat} (h : db.Extends db') (hid : id ≤ db.versions.length) :
    db'.recordsOf id = db.recordsOf id := by
  obtain ⟨added, hadded, hnew⟩ := h.records
  have hnone : added.filter (fun r => decide (r.dataVersionId = id)) = [] := by
    rw [List.filter_eq_nil_iff]
    intro r hr heq
    have hlt := hnew r hr
    rw [of_decide_eq_true heq] at hlt
    omega
  rw [Datastore.recordsOf, hadded, List.filter_append, hnone, List.append_nil, Datastore.recordsOf]

theorem add_found (hn : db.Numbered) (hfree : db.findVersion new.dataset new.version = none) (parent : Option Nat) :
    (db.add new parent).findVersion new.dataset new.version = some (db.newVersion new parent) ∧
    (db.add new parent).version? db.nextVersionId = some (db.newVersion new parent) ∧
    (db.add new parent).recordsOf db.nextVersionId = numberRows db.nextVersionId (db.records.length + 1) new.rows := by
  have hnone : db.version? db.nextVersionId = none := by
    rw [version?, List.find?_eq_none]
    intro v hv hid
    have hle := hn.id_le hv
    rw [of_decide_eq_true hid, nextVersionId] at hle
    omega
  have hold : db.records.filter (fun r => decide (r.dataVersionId = db.nextVersionId)) = [] := by
    rw [List.filter_eq_nil_iff]
    intro r hr hid
    have hle := hn.records r hr
    rw [of_decide_eq_true hid, nextVersionId] at hle
    omega
  have hall : ∀ n, (numberRows db.nextVersionId n new.rows).filter (fun r => decide (r.dataVersionId = db.nextVersionId)) =
      numberRows db.nextVersionId n new.rows := by
    intro n
    rw [List.filter_eq_self]
    intro r hr
    exact decide_eq_true (mem_numberRows hr)
  refine ⟨?_, ?_, ?_⟩
  · rw [findVersion] at hfree ⊢
    rw [add, List.find?_append, hfree, Option.none_or, List.find?_cons_of_pos (by simp [newVersion])]
  · rw [version?] at hnone ⊢
    rw [add, List.find?_append, hnone, Option.none_or, List.find?_cons_of_pos (by simp [newVersion])]
  · rw [recordsOf, add, List.filter_append, hold, List.nil_append, hall]

theorem SameData.recordsOf (h : db.SameData db') (id : Nat) : db'.recordsOf id = db.recordsOf id := by
  rw [Datastore.recordsOf, h.records, Datastore.recordsOf]

theorem Created.later (h : Created db new info db') (hcreated : info.created = true) (hn : db.Numbered)
    (he : db'.Extends db'') : ∃ parent, info.dataVersionId = db.nextVersionId ∧
      db''.findVersion new.dataset new.version = some (db.newVersion new parent) ∧
      db''.version? info.dataVersionId = some (db.newVersion new parent) ∧
      db''.recordsOf info.dataVersionId = numberRows info.dataVersionId (db.records.length + 1) new.rows := by
  have hn' := h.numbered hn
  cases h with
  | replay => cases hcreated
  | @fresh parent _ hfree hsame =>
    obtain ⟨hname, hid, hrows⟩ := add_found hn hfree parent
    rw [← hsame.findVersion] at hname
    have hid' : db'.version? db.nextVersionId = some (db.newVersion new parent) := by
      rw [version?, hsame.versions]
      exact hid
    have hle : db.nextVersionId ≤ db'.versions.length := hn'.id_le (List.mem_of_find?_eq_some hid')
    refine ⟨parent, rfl, he.findVersion hname, he.version? hid', ?_⟩
    rw [he.recordsOf hle, hsame.recordsOf, hrows]

end Datastore

end OranAdapt
