import OranAdapt.DataHistory

/-!
# Reading a version later

The versions a derived version is read through are all older than it, so a
read ends, and what it returns does not change while the datastore grows.
-/

namespace OranAdapt

open Runs

namespace Datastore

variable {sha256 : String → String} {db db' : Datastore} {new : NewVersion} {info : DataVersionInfo}

def Layered (db : Datastore) : Prop :=
  ∀ v ∈ db.versions, ∀ sources excluded, v.storage = .derived sources excluded →
    ∀ id ∈ sources, ∃ s, db.version? id = some s ∧ s.id < v.id

theorem version?_mem {id : Nat} {v : DataVersion} (h : db.version? id = some v) : v ∈ db.versions ∧ v.id = id :=
  ⟨List.mem_of_find?_eq_some h, by simpa using List.find?_some h⟩

theorem layered_empty : ({} : Datastore).Layered := by
  intro v hv
  cases hv

theorem SameData.layered (h : db.SameData db') (hl : db.Layered) : db'.Layered := by
  intro v hv
  rw [h.versions] at hv
  intro sources excluded hs id hid
  rw [version?, h.versions]
  exact hl v hv sources excluded hs id hid

theorem add_layered (hn : db.Numbered) (hl : db.Layered) (hs : db.SourcesFound new.storage) (parent : Option Nat) :
    (db.add new parent).Layered := by
  intro v hv sources excluded hstorage id hid
  have hstays := (add_extends db new parent)
  rcases List.mem_append.mp hv with hv | hv
  · obtain ⟨s, hfound, hlt⟩ := hl v hv sources excluded hstorage id hid
    exact ⟨s, hstays.version? hfound, hlt⟩
  · rw [List.mem_singleton] at hv
    subst hv
    obtain ⟨s, hfound⟩ := hs sources excluded hstorage id hid
    exact ⟨s, hstays.version? hfound, Nat.lt_succ_of_le (hn.id_le (version?_mem hfound).1)⟩

theorem Created.layered (h : Created db new info db') (hn : db.Numbered) (hl : db.Layered)
    (hs : db.SourcesFound new.storage) : db'.Layered := by
  cases h with
  | replay _ _ hsame => exact hsame.layered hl
  | fresh _ hsame => exact hsame.layered (add_layered hn hl hs _)

theorem steps_layered (h : Steps (step sha256) Free db db') (hn : db.Numbered) (hl : db.Layered) : db'.Layered := by
  refine h.inv_of Numbered Layered (fun _ _ _ hn _ hs => step_numbered hn hs) ?_ hn hl
  intro s c s' hn hl _ hs
  rcases call_created (ok_of_toOption hs) with hsame | ⟨new, info, hcreated, hsources⟩
  · exact hsame.layered hl
  · exact hcreated.layered hn hl hsources

end Datastore

namespace DataAccess

open Datastore

variable {sha256 : String → String} {access : DataAccess} {db db' : Datastore}

theorem mapM_congr {ε α β : Type} {f g : α → Except ε β} {l : List α}
    (h : ∀ a ∈ l, f a = g a) : l.mapM f = l.mapM g := by
  induction l with
  | nil => rfl
  | cons a l ih => rw [List.mapM_cons, List.mapM_cons, h a List.mem_cons_self, ih fun b hb => h b (List.mem_cons_of_mem _ hb)]

theorem mapM_option_congr {α β : Type} {f g : α → Option β} {l : List α} (h : ∀ a ∈ l, f a = g a) :
    l.mapM f = l.mapM g := by
  induction l with
  | nil => rfl
  | cons a l ih => rw [List.mapM_cons, List.mapM_cons, h a List.mem_cons_self, ih fun b hb => h b (List.mem_cons_of_mem _ hb)]

theorem versions_ok {ids : List Nat} {vs : List DataVersion} (h : versions db ids = .ok vs) :
    ids.mapM db.version? = some vs := by
  unfold versions at h
  split at h
  · rename_i hvs
    rw [hvs, Except.ok.inj h]
  · cases h

theorem versions_mem {ids : List Nat} {vs : List DataVersion} (h : versions db ids = .ok vs) :
    ∀ v ∈ vs, v.id ∈ ids ∧ db.version? v.id = some v := by
  have hvs := versions_ok h
  clear h
  induction ids generalizing vs with
  | nil =>
    cases hvs
    intro v hv
    cases hv
  | cons id ids ih =>
    rw [List.mapM_cons] at hvs
    obtain ⟨w, hw, hvs⟩ := Option.bind_eq_some_iff.mp hvs
    obtain ⟨ws, hws, hvs⟩ := Option.bind_eq_some_iff.mp hvs
    cases hvs
    have hid := (version?_mem hw).2
    intro v hv
    rcases List.mem_cons.mp hv with rfl | hv
    · exact ⟨by rw [hid]; exact List.mem_cons_self, by rw [hid]; exact hw⟩
    · obtain ⟨hmem, hfound⟩ := ih hws v hv
      exact ⟨List.mem_cons_of_mem _ hmem, hfound⟩

/-- The versions found under ids that are all taken are the same later. -/
theorem versions_extends {ids : List Nat} (he : db.Extends db') (h : ∀ id ∈ ids, ∃ v, db.version? id = some v) :
    versions db' ids = versions db ids := by
  have hall : ids.mapM db'.version? = ids.mapM db.version? := by
    apply mapM_option_congr
    intro id hid
    obtain ⟨v, hv⟩ := h id hid
    rw [hv, he.version? hv]
  rw [versions, hall, versions]

theorem loadWith_congr {read read' : DataVersion → Except AdaptationError (List Row)} {ids : List Nat} {require : Bool}
    (hversions : versions db' ids = versions db ids)
    (h : ∀ vs, versions db ids = .ok vs → ∀ v ∈ vs, read v = read' v) :
    access.loadWith read db ids require = access.loadWith read' db' ids require := by
  unfold loadWith
  rw [hversions]
  cases hvs : versions db ids with
  | error e => rfl
  | ok vs =>
    have hread : vs.mapM read = vs.mapM read' := mapM_congr (h vs hvs)
    show (access.checkCeiling (vs.map (·.rowCount)).sum >>= _) = (access.checkCeiling (vs.map (·.rowCount)).sum >>= _)
    rw [hread]

theorem loadWith_ok {read : DataVersion → Except AdaptationError (List Row)} {ids : List Nat} {require : Bool}
    {rows : List Row} (h : access.loadWith read db ids require = .ok rows) :
    ∃ vs parts, versions db ids = .ok vs ∧ access.checkCeiling (vs.map (·.rowCount)).sum = .ok () ∧
      vs.mapM read = .ok parts ∧ rows = sortRows parts.flatten := by
  obtain ⟨vs, hvs, h⟩ := bind_ok h
  obtain ⟨_, hceiling, h⟩ := bind_ok h
  obtain ⟨parts, hparts, h⟩ := bind_ok h
  split at h
  · cases h
  · cases h
    exact ⟨vs, parts, hvs, hceiling, hparts, rfl⟩

/-- What was read where rows had to be found is read where none need be. -/
theorem loadWith_require {read : DataVersion → Except AdaptationError (List Row)} {ids : List Nat} {require : Bool}
    {rows : List Row} (h : access.loadWith read db ids require = .ok rows) :
    access.loadWith read db ids false = .ok rows := by
  obtain ⟨vs, parts, hvs, hceiling, hparts, rfl⟩ := loadWith_ok h
  rw [loadWith, hvs]
  show (access.checkCeiling (vs.map (·.rowCount)).sum >>= _) = _
  rw [hceiling]
  show (vs.mapM read >>= _) = _
  rw [hparts]
  rfl

/-- Enough depth is enough, then and later: the versions read through are ever older. -/
theorem iterRowsTo_extends (hl : db.Layered) (hn : db.Numbered) (he : db.Extends db') {v : DataVersion}
    (hv : v ∈ db.versions) : ∀ {m n : Nat}, v.id < m → v.id < n →
      access.iterRowsTo sha256 db m v = access.iterRowsTo sha256 db' n v := by
  induction hid : v.id using Nat.strong_induction_on generalizing v with
  | _ i ih =>
    intro m n hm hn'
    cases m with
    | zero => cases hm
    | succ m =>
      cases n with
      | zero => cases hn'
      | succ n =>
        unfold iterRowsTo
        cases hs : v.storage with
        | rows => simp only [he.recordsOf (hn.id_le hv)]
        | reference ref => rfl
        | derived sources excluded =>
          have hfound := hl v hv sources excluded hs
          have hload : access.loadWith (access.iterRowsTo sha256 db m) db sources false =
              access.loadWith (access.iterRowsTo sha256 db' n) db' sources false := by
            apply loadWith_congr
            · apply versions_extends he
              intro id hmem
              obtain ⟨s, hs', -⟩ := hfound id hmem
              exact ⟨s, hs'⟩
            · intro vs hvs s hsmem
              obtain ⟨hmem, hs'⟩ := versions_mem hvs s hsmem
              obtain ⟨s', hs'', hlt⟩ := hfound s.id hmem
              rw [hs', Option.some.injEq] at hs''
              subst hs''
              rw [hid] at hlt
              exact ih s.id hlt (version?_mem hs').1 rfl (by omega) (by omega)
          simp only [hload]

theorem iterRows_extends (hl : db.Layered) (hn : db.Numbered) (he : db.Extends db') {v : DataVersion}
    (hv : v ∈ db.versions) : access.iterRows sha256 db' v = access.iterRows sha256 db v :=
  (iterRowsTo_extends hl hn he hv (Nat.lt_succ_self _) (Nat.lt_succ_self _)).symm

theorem iterRows_derived (hl : db.Layered) (hn : db.Numbered) {v : DataVersion} (hv : v ∈ db.versions)
    {sources : List Nat} {excluded : List Int} (hs : v.storage = .derived sources excluded) :
    access.iterRows sha256 db v = (access.loadRecords sha256 db sources false).map (derivedRows v.id excluded) := by
  have hload : access.loadWith (access.iterRowsTo sha256 db v.id) db sources false =
      access.loadWith (access.iterRows sha256 db) db sources false := by
    apply loadWith_congr rfl
    intro vs hvs s hsmem
    obtain ⟨hmem, hs'⟩ := versions_mem hvs s hsmem
    obtain ⟨s', hs'', hlt⟩ := hl v hv sources excluded hs s.id hmem
    rw [hs', Option.some.injEq] at hs''
    subst hs''
    exact iterRowsTo_extends hl hn (.refl db) (version?_mem hs').1 hlt (Nat.lt_succ_self _)
  rw [iterRows, iterRowsTo, hs]
  simp only [hload]
  rw [← loadRecords]
  cases access.loadRecords sha256 db sources false <;> rfl

theorem loadRecords_extends (hl : db.Layered) (hn : db.Numbered) (he : db.Extends db') {ids : List Nat} {require : Bool}
    (h : ∀ id ∈ ids, ∃ v, db.version? id = some v) :
    access.loadRecords sha256 db' ids require = access.loadRecords sha256 db ids require := by
  refine (loadWith_congr (versions_extends he h) ?_).symm
  intro vs hvs v hv
  exact (iterRows_extends hl hn he (version?_mem (versions_mem hvs v hv).2).1).symm

theorem derived_created {call : SnapshotCall} {anchor : DataVersion} {sources : List DataVersion} {rows : List Row}
    {db₀ db₁ : Datastore} {info : DataVersionInfo} (hn : db₀.Numbered) (hl : db₀.Layered)
    (hrows : access.loadRecords sha256 db₀ call.sourceVersionIds = .ok rows)
    (h : db₀.create (call.derived sha256 anchor sources (rows.filter fun r => r.id ∉ call.excludeRecordIds)) =
      .ok (info, db₁)) (hcreated : info.created = true) (he : db₁.Extends db) (hn' : db.Numbered) (hl' : db.Layered) :
    ∃ parent v, v = db₀.newVersion (call.derived sha256 anchor sources
        (rows.filter fun r => r.id ∉ call.excludeRecordIds)) parent ∧ db.version? info.dataVersionId = some v ∧
      access.loadRecords sha256 db call.sourceVersionIds = .ok rows ∧
      access.iterRows sha256 db v = .ok (derivedRows v.id (call.excludeRecordIds.insertionSort (· ≤ ·)) rows) := by
  have hdone := Datastore.create_ok h
  obtain ⟨parent, -, -, hfound, -⟩ := hdone.later hcreated hn he
  obtain ⟨versions, -, hversions, -⟩ := loadWith_ok hrows
  have hsources : ∀ id ∈ call.sourceVersionIds, ∃ v, db₀.version? id = some v :=
    fun id hid => Datastore.mapM_some_mem (versions_ok hversions) hid
  have hload : access.loadRecords sha256 db call.sourceVersionIds = .ok rows := by
    rw [loadRecords_extends hl hn (hdone.extends.trans he) hsources]
    exact hrows
  have hload' : access.loadRecords sha256 db call.sourceVersionIds false = .ok rows := loadWith_require hload
  refine ⟨parent, _, rfl, hfound, hload, ?_⟩
  rw [iterRows_derived hl' hn' (Datastore.version?_mem hfound).1 rfl, hload']
  rfl

end DataAccess

end OranAdapt
