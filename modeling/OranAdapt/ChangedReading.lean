import OranAdapt.StreamedReading
import OranAdapt.StorageForms

/-!
# Reading an object that changed

What the reading operations make of a reference version whose object is no
longer the one registered. Told by its fingerprint, every operation refuses it;
told by the hash of its rows, those that read to the end do.
-/

namespace OranAdapt

namespace StreamAccess

open DataAccess Generator

/-! ## Where the loops break -/

theorem page_breaks_iff (offset limit : Nat) (rows : List Row) (s : Paging) (h : s.index ≤ offset + limit) :
    Breaks (pageStep offset limit) s rows ↔ offset + limit < s.index + rows.length := by
  induction rows generalizing s with
  | nil =>
    constructor
    · intro hbreaks
      exact absurd hbreaks not_breaks_nil
    · intro hlt
      simp at hlt
      omega
  | cons row rows ih =>
    by_cases hlast : offset + limit ≤ s.index
    · constructor
      · intro _
        simp
        omega
      · intro _
        exact ⟨s, by simp [loop, pageStep, hlast]⟩
    · have hnext := ih ⟨s.index + 1, if offset ≤ s.index then s.out ++ [row] else s.out⟩ (by simp; omega)
      unfold Breaks at hnext ⊢
      simp only [loop, pageStep, hlast, ↓reduceIte]
      rw [hnext]
      simp
      omega

theorem sample_breaks_iff {last : Nat} (rows : List Row) (s : Sampling) (hsorted : (s.target :: s.wanted).Pairwise (· < ·))
    (h : s.index ≤ s.target) (hlast : (s.target :: s.wanted).getLast? = some last) :
    Breaks sampleStep s rows ↔ last < s.index + rows.length := by
  have hle : s.target ≤ last := by
    rcases List.mem_cons.mp (List.mem_of_getLast? hlast) with heq | hmem
    · omega
    · exact le_of_lt (List.rel_of_pairwise_cons hsorted hmem)
  induction rows generalizing s with
  | nil =>
    constructor
    · intro hbreaks
      exact absurd hbreaks not_breaks_nil
    · intro hlt
      simp at hlt
      omega
  | cons row rows ih =>
    by_cases hindex : s.index = s.target
    · cases hwanted : s.wanted with
      | nil =>
        rw [hwanted] at hlast
        simp at hlast
        constructor
        · intro _
          simp
          omega
        · intro _
          exact ⟨{ s with picked := s.picked ++ [row] }, by simp [loop, sampleStep, hindex, hwanted]⟩
      | cons target wanted =>
        rw [hwanted] at hsorted hlast
        have hlt : s.target < target := List.rel_of_pairwise_cons hsorted List.mem_cons_self
        have hsorted' := (List.pairwise_cons.mp hsorted).2
        rw [List.getLast?_cons_cons] at hlast
        have hnext := ih ⟨s.index + 1, target, wanted, s.picked ++ [row]⟩ hsorted' (by simp; omega) hlast (by
          rcases List.mem_cons.mp (List.mem_of_getLast? hlast) with heq | hmem
          · exact le_of_eq heq.symm
          · exact le_of_lt (List.rel_of_pairwise_cons hsorted' hmem))
        unfold Breaks at hnext ⊢
        simp only [loop, sampleStep, hindex, hwanted, ↓reduceIte]
        rw [← hindex]
        refine hnext.trans ?_
        simp
        omega
    · have hnext := ih { s with index := s.index + 1 } hsorted (by simp; omega) hlast hle
      unfold Breaks at hnext ⊢
      simp only [loop, sampleStep, hindex, ↓reduceIte]
      refine hnext.trans ?_
      simp
      omega

variable {sha256 : String → String} {access : StreamAccess}

def lastWanted (access : StreamAccess) (total : Nat) : Nat := (access.analysisMaxRows - 1) * total / access.analysisMaxRows

theorem wanted_getLast? (access : StreamAccess) (total : Nat) :
    (access.wanted total).getLast? = some (access.lastWanted total) := by
  have hpos := access.analysisMaxRows_pos
  rw [wanted, List.getLast?_map, List.getLast?_range, if_neg (by omega)]
  rfl

theorem wanted_sorted (access : StreamAccess) {total : Nat}
    (h : access.analysisMaxRows < total) : (access.wanted total).Pairwise (· < ·) := by
  have hpos := access.analysisMaxRows_pos
  rw [wanted, List.pairwise_map]
  refine List.pairwise_lt_range.imp ?_
  intro j k hjk
  calc j * total / access.analysisMaxRows
      < j * total / access.analysisMaxRows + 1 := Nat.lt_succ_self _
    _ = (j * total + access.analysisMaxRows) / access.analysisMaxRows := (Nat.add_div_right _ hpos).symm
    _ ≤ k * total / access.analysisMaxRows := by
      apply Nat.div_le_div_right
      have hstep : (j + 1) * total ≤ k * total := Nat.mul_le_mul_right _ hjk
      rw [Nat.add_mul, Nat.one_mul] at hstep
      omega

/-! ## An object that changed -/

variable (sha256 access) (db : Datastore)

def ToldByFingerprint (ref : Reference) : Prop :=
  ∃ registered stat, ref.fingerprint = some registered ∧ access.port.stat ref.pinnedUri = .ok stat ∧
    stat.fingerprint ≠ some registered

def ToldByHash (dv : DataVersion) (ref : Reference) : Prop :=
  (ref.fingerprint = none ∨ access.verifyOnRead = .hash ∧
    ∃ stat, access.port.stat ref.pinnedUri = .ok stat ∧ stat.fingerprint = ref.fingerprint) ∧
  (access.objectRows dv ref).failure = none ∧ rowsDigest sha256 (access.objectRows dv ref).yielded ≠ dv.contentHash

/-- A reference version whose object changed in a way the verification on reading detects. -/
structure Changed (dv : DataVersion) (ref : Reference) : Prop where
  storage : dv.storage = .reference ref
  verified : access.verifyOnRead ≠ .off
  allowed : ∃ stat, access.port.stat ref.uri = .ok stat
  told : ToldByFingerprint access ref ∨ ToldByHash sha256 access dv ref

/-- A version read through another, if only itself. -/
inductive Over (obj : DataVersion) : DataVersion → Prop where
  | self : Over obj obj
  | derived {v s : DataVersion} {sources : List Nat} {excluded : List Int} (hv : v ∈ db.versions)
      (hs : v.storage = .derived sources excluded) (hmem : s.id ∈ sources) (hfound : db.version? s.id = some s)
      (h : Over obj s) : Over obj v

/-- Loading versions gets as far as reading one of them: all are found, within the ceiling, and
those before it are read. -/
def LoadReaches (ids : List Nat) (dv : DataVersion) : Prop :=
  ∃ before after, versions db ids = .ok (before ++ dv :: after) ∧
    access.checkCeiling ((before ++ dv :: after).map (·.rowCount)).sum = .ok () ∧
    ∀ b ∈ before, ∃ rows, access.toDataAccess.iterRows sha256 db b = .ok rows

/-- Reading a version gets as far as the object. -/
inductive Reaches (obj : DataVersion) : DataVersion → Prop where
  | self : Reaches obj obj
  | derived {v s : DataVersion} {sources : List Nat} {excluded : List Int} (hv : v ∈ db.versions)
      (hs : v.storage = .derived sources excluded) (hload : LoadReaches sha256 access db sources s)
      (h : Reaches obj s) : Reaches obj v

inductive ReadOp where
  | iterRows
  | loadRecords (ids : List Nat) (require : Bool)
  | frame
  | sample
  | page (offset limit : Nat)

inductive ReadResult where
  | rows (rows : List Row)
  | frame (frame : Frame)

namespace ReadOp

variable (reframe : List Payload → Frame) (dv : DataVersion)

def run : ReadOp → Except AdaptationError ReadResult
  | .iterRows => (access.iterRows sha256 db dv).drain.map .rows
  | .loadRecords ids require => (access.loadRecords sha256 db ids require).map .rows
  | .frame => (access.frame sha256 reframe db dv.id).map .frame
  | .sample => (access.sample sha256 db dv).map .rows
  | .page offset limit => (access.page sha256 db dv offset limit).map .rows

def Reads : ReadOp → Prop
  | .loadRecords ids _ => dv.id ∈ ids
  | _ => True

/-- The operation gets as far as reading the version. -/
def ReachesVersion : ReadOp → Prop
  | .loadRecords ids _ => LoadReaches sha256 access db ids dv
  | .frame => LoadReaches sha256 access db [dv.id] dv
  | _ => True

/-- The operation reads the rows the object now has to their end. -/
def ReadsToEnd (ref : Reference) : ReadOp → Prop
  | .sample => dv.rowCount ≤ access.analysisMaxRows ∨
    (access.objectRows dv ref).yielded.length ≤ access.lastWanted dv.rowCount
  | .page offset limit => (access.objectRows dv ref).yielded.length ≤ offset + limit
  | _ => True

/-- No rows are returned, and where reading gets as far as the object the change is named. -/
def Refused (obj : DataVersion) (op : ReadOp) : Prop :=
  ∃ e, op.run sha256 access db reframe dv = .error e ∧
    (op.ReachesVersion sha256 access db dv → Reaches sha256 access db obj dv → e.cls = (dataSourceChangedError "" []).cls)

end ReadOp

variable {sha256 access db} {obj v : DataVersion} {ref : Reference} {e : AdaptationError}

theorem told_start (hverified : access.verifyOnRead ≠ .off) (h : ToldByFingerprint access ref) :
    ∃ e, access.checkUnchanged v ref = .error e ∧ e.cls = (dataSourceChangedError "" []).cls := by
  obtain ⟨registered, stat, hregistered, hstat, hne⟩ := h
  unfold checkUnchanged
  rw [hregistered]
  split
  · rename_i hoff
    exact absurd hoff hverified
  · rename_i hnone _
    cases hnone
  · rename_i hsome _
    cases hsome
    rw [hstat]
    exact ⟨_, if_pos hne, rfl⟩

theorem told_hashes (hverified : access.verifyOnRead ≠ .off) (h : ToldByHash sha256 access v ref) :
    access.checkUnchanged v ref = .ok true := by
  unfold checkUnchanged
  split
  · rename_i hoff
    exact absurd hoff hverified
  · rfl
  · rename_i registered hregistered _
    rcases h.1 with hf | ⟨hhash, stat, hstat, hf⟩
    · rw [hregistered] at hf
      cases hf
    · rw [hstat]
      change (if stat.fingerprint ≠ some registered then _ else _) = _
      rw [if_neg (by rw [hf, hregistered]; exact not_not_intro rfl), hhash]
      rfl

/-- How the generator of a changed object ends, and what it yields until then. -/
theorem Changed.stream (h : Changed sha256 access obj ref) (db : Datastore) :
    ∃ e, (access.iterRows sha256 db obj).failure = some e ∧
    e.cls = (dataSourceChangedError "" []).cls ∧
    (ToldByFingerprint access ref → (access.iterRows sha256 db obj).yielded = []) ∧
    (¬ ToldByFingerprint access ref →
      (access.iterRows sha256 db obj).yielded.length = (access.objectRows obj ref).yielded.length) := by
  obtain ⟨stat, hstat⟩ := h.allowed
  have hiter : access.iterRows sha256 db obj = access.iterReference sha256 obj ref := by
    rw [iterRows, h.storage]
  rw [hiter]
  by_cases htold : ToldByFingerprint access ref
  · obtain ⟨e, he, hcls⟩ := told_start (v := obj) h.verified htold
    rw [iterReference_start (e := e) (by rw [hstat]; exact he)]
    exact ⟨e, rfl, hcls, fun _ => rfl, fun hnot => absurd htold hnot⟩
  · have hhash := h.told.resolve_left htold
    rw [iterReference_checked true (by rw [hstat]; exact told_hashes h.verified hhash)]
    have hend : access.referenceEnd sha256 obj ref true = some (changed
        "the rows behind this data version changed since it was registered" obj ref obj.contentHash
        (rowsDigest sha256 (access.objectRows obj ref).yielded)) := by
      simp [referenceEnd, hhash.2.1, hhash.2.2]
    exact ⟨_, hend, rfl, fun hyes => absurd hyes htold, fun _ => List.length_mapIdx⟩

/-! ## Through the versions derived from it -/

theorem loads_found {ids : List Nat} {vs : List DataVersion} (hvs : versions db ids = .ok vs) (hmem : v.id ∈ ids)
    (hfound : db.version? v.id = some v) : v ∈ vs := by
  have hids := versions_ids hvs
  rw [← hids] at hmem
  obtain ⟨w, hw, hid⟩ := List.mem_map.mp hmem
  have hsame := (versions_mem hvs w hw).2
  rw [hid, hfound, Option.some.injEq] at hsame
  rw [hsame]
  exact hw

theorem loadRecords_error {ids : List Nat} (require : Bool) (hmem : v.id ∈ ids) (hfound : db.version? v.id = some v)
    (h : access.toDataAccess.iterRows sha256 db v = .error e) :
    ∃ e', access.loadRecords sha256 db ids require = .error e' := by
  cases hload : access.loadRecords sha256 db ids require with
  | error e' => exact ⟨e', rfl⟩
  | ok rows =>
    obtain ⟨vs, parts, hvs, -, hparts, -⟩ := loadWith_ok hload
    have hv := loads_found hvs hmem hfound
    obtain ⟨i, hi, rfl⟩ := List.mem_iff_getElem.mp hv
    have hread := (mapM_ok hparts).get hi (by rw [← (mapM_ok hparts).length_eq]; exact hi)
    change access.toDataAccess.iterRows sha256 db vs[i] = .ok _ at hread
    rw [h] at hread
    cases hread

theorem mapM_error {ε α β : Type} {f : α → Except ε β} {before after : List α} {a : α} {e : ε}
    (hbefore : ∀ b ∈ before, ∃ r, f b = .ok r) (h : f a = .error e) : (before ++ a :: after).mapM f = .error e := by
  induction before with
  | nil =>
    rw [List.nil_append, List.mapM_cons, h]
    rfl
  | cons b before ih =>
    obtain ⟨r, hr⟩ := hbefore b List.mem_cons_self
    rw [List.cons_append, List.mapM_cons, hr, ih fun c hc => hbefore c (List.mem_cons_of_mem _ hc)]
    rfl

theorem LoadReaches.error {ids : List Nat} {require : Bool} (hload : LoadReaches sha256 access db ids v)
    (h : access.toDataAccess.iterRows sha256 db v = .error e) : access.loadRecords sha256 db ids require = .error e := by
  obtain ⟨before, after, hvs, hceiling, hbefore⟩ := hload
  rw [loadRecords, loadWith, hvs]
  change (access.checkCeiling ((before ++ v :: after).map (·.rowCount)).sum >>= _) = _
  rw [hceiling]
  change ((before ++ v :: after).mapM (access.toDataAccess.iterRows sha256 db) >>= _) = _
  rw [mapM_error hbefore h]
  rfl

theorem iterRows_derived_error (hl : db.Layered) (hn : db.Numbered) (hv : v ∈ db.versions) {sources : List Nat}
    {excluded : List Int} (hs : v.storage = .derived sources excluded)
    (h : access.loadRecords sha256 db sources false = .error e) : access.toDataAccess.iterRows sha256 db v = .error e := by
  rw [iterRows_derived hl hn hv hs, h]
  rfl

theorem Changed.error (h : Changed sha256 access obj ref) (db : Datastore) : ∃ e,
    access.toDataAccess.iterRows sha256 db obj = .error e ∧ e.cls = (dataSourceChangedError "" []).cls := by
  obtain ⟨e, hfailure, hcls, -⟩ := h.stream db
  rw [← drain_iterRows]
  exact ⟨e, ending_failure hfailure _, hcls⟩

theorem Over.error (hl : db.Layered) (hn : db.Numbered) (hc : Changed sha256 access obj ref) (h : Over db obj v) :
    ∃ e, access.toDataAccess.iterRows sha256 db v = .error e := by
  induction h with
  | self =>
    obtain ⟨e, he, -⟩ := hc.error db
    exact ⟨e, he⟩
  | derived hv hs hmem hfound _ ih =>
    obtain ⟨e, he⟩ := ih
    obtain ⟨e', he'⟩ := loadRecords_error false hmem hfound he
    exact ⟨e', iterRows_derived_error hl hn hv hs he'⟩

/-- Where reading gets as far as the object, the change is what it raises. -/
theorem Reaches.error (hl : db.Layered) (hn : db.Numbered) (hc : Changed sha256 access obj ref)
    (h : Reaches sha256 access db obj v) :
    ∃ e, access.toDataAccess.iterRows sha256 db v = .error e ∧ e.cls = (dataSourceChangedError "" []).cls := by
  induction h with
  | self => exact hc.error db
  | derived hv hs hload _ ih =>
    obtain ⟨e, he, hcls⟩ := ih
    exact ⟨e, iterRows_derived_error hl hn hv hs (hload.error he), hcls⟩

/-- The generator of a version over a changed object fails, at once unless the version is the
object's own and its fingerprint does not tell. -/
theorem Over.stream (hl : db.Layered) (hn : db.Numbered) (hc : Changed sha256 access obj ref) (h : Over db obj v) :
    ∃ e, (access.iterRows sha256 db v).failure = some e ∧
      (Reaches sha256 access db obj v → e.cls = (dataSourceChangedError "" []).cls) ∧
      (¬ (v.storage = .reference ref ∧ ¬ ToldByFingerprint access ref) → (access.iterRows sha256 db v).yielded = []) ∧
      (v.storage = .reference ref ∧ ¬ ToldByFingerprint access ref →
        (access.iterRows sha256 db v).yielded.length = (access.objectRows v ref).yielded.length) := by
  cases h with
  | self =>
    obtain ⟨e, hfailure, hcls, htold, hnot⟩ := hc.stream db
    refine ⟨e, hfailure, fun _ => hcls, fun hsaid => ?_, fun hself => hnot hself.2⟩
    by_cases h : ToldByFingerprint access ref
    · exact htold h
    · exact absurd ⟨hc.storage, h⟩ hsaid
  | derived hv hs hmem hfound hover =>
    obtain ⟨e, he⟩ := Over.error hl hn hc (.derived hv hs hmem hfound hover)
    have hiter : access.iterRows sha256 db v = ⟨[], some e⟩ := by
      unfold iterRows
      rw [hs, he]
      rfl
    rw [hiter]
    refine ⟨e, rfl, fun hreaches => ?_, fun _ => rfl, fun hself => ?_⟩
    · obtain ⟨e', he', hcls⟩ := hreaches.error hl hn hc
      rw [he] at he'
      cases he'
      exact hcls
    · rw [hs] at hself
      cases hself.1

/-! ## Every reading operation -/

theorem map_error {ε α β : Type} {x : Except ε α} {f : α → β} {e : ε} : x.map f = .error e ↔ x = .error e := by
  cases x with
  | error e' =>
    constructor
    · intro h
      exact congrArg _ (Except.error.inj h)
    · intro h
      rw [h]
      rfl
  | ok a =>
    constructor
    · intro h
      cases h
    · intro h
      cases h

theorem map_map {ε α β γ : Type} (x : Except ε α) (f : α → β)
    (g : β → γ) : (x.map f).map g = x.map fun a => g (f a) := by
  cases x <;> rfl

theorem consume_refused_iff {σ : Type} {step : σ → Row → ForInStep σ} {s : σ} {g : Generator AdaptationError Row}
    {f : σ → ReadResult} {P : AdaptationError → Prop} (hfailure : g.failure = some e) (hP : P e) :
    (∃ e', (g.consume step s).map f = .error e' ∧ P e') ↔ ¬ Breaks step s g.yielded := by
  constructor
  · rintro ⟨e', he', -⟩
    have herror := map_error.mp he'
    rw [consume_error hfailure herror] at herror
    exact (consume_eq_error_iff hfailure).mp herror
  · intro h
    exact ⟨e, map_error.mpr ((consume_eq_error_iff hfailure).mpr h), hP⟩

/-- A loop whose break depends on how many rows it is handed, over a version over a changed object. -/
theorem Over.consume_iff {σ : Type} {step : σ → Row → ForInStep σ} {s : σ} {f : σ → ReadResult}
    {last : Nat} {P : Prop}
    (hl : db.Layered) (hn : db.Numbered) (hc : Changed sha256 access obj ref) (h : Over db obj v)
    (hP : P → Reaches sha256 access db obj v)
    (hbreaks : ∀ rows, Breaks step s rows ↔ last < rows.length) :
    (∃ e, ((access.iterRows sha256 db v).consume step s).map f = .error e ∧
      (P → e.cls = (dataSourceChangedError "" []).cls)) ↔
      ¬ (v.storage = .reference ref ∧ ¬ ToldByFingerprint access ref) ∨
        (access.objectRows v ref).yielded.length ≤ last := by
  obtain ⟨e, hfailure, hcls, hat, hrows⟩ := h.stream hl hn hc
  rw [consume_refused_iff (P := fun e => P → e.cls = (dataSourceChangedError "" []).cls) hfailure fun hp => hcls (hP hp),
    hbreaks]
  by_cases hself : v.storage = .reference ref ∧ ¬ ToldByFingerprint access ref
  · simp [hrows hself, hself]
  · simp [hat hself, hself]

theorem drain_refused (reframe : List Payload → Frame) (hl : db.Layered) (hn : db.Numbered)
    (hc : Changed sha256 access obj ref) (h : Over db obj v) : ReadOp.iterRows.Refused sha256 access db reframe v obj := by
  obtain ⟨e, hfailure, hcls, -⟩ := h.stream hl hn hc
  exact ⟨e, map_error.mpr (ending_failure hfailure _), fun _ => hcls⟩

theorem load_refused {ids : List Nat} (require : Bool) (hl : db.Layered) (hn : db.Numbered)
    (hc : Changed sha256 access obj ref) (h : Over db obj v) (hfound : db.version? v.id = some v) (hmem : v.id ∈ ids) :
    ∃ e, access.loadRecords sha256 db ids require = .error e ∧
      (LoadReaches sha256 access db ids v → Reaches sha256 access db obj v →
        e.cls = (dataSourceChangedError "" []).cls) := by
  obtain ⟨e, he⟩ := h.error hl hn hc
  obtain ⟨e', he'⟩ := loadRecords_error require hmem hfound he
  refine ⟨e', he', fun hload hreaches => ?_⟩
  obtain ⟨e₁, he₁, hcls⟩ := hreaches.error hl hn hc
  rw [hload.error he₁] at he'
  cases he'
  exact hcls

theorem frame_refused {reframe : List Payload → Frame} (hl : db.Layered) (hn : db.Numbered)
    (hc : Changed sha256 access obj ref) (h : Over db obj v) (hfound : db.version? v.id = some v) :
    ReadOp.frame.Refused sha256 access db reframe v obj := by
  obtain ⟨e, he, hcls⟩ := load_refused false hl hn hc h hfound (List.mem_singleton_self v.id)
  refine ⟨e, map_error.mpr ?_, hcls⟩
  rw [frame, he]
  rfl

theorem sample_refused_iff {reframe : List Payload → Frame} (hl : db.Layered) (hn : db.Numbered)
    (hc : Changed sha256 access obj ref) (h : Over db obj v) : ReadOp.sample.Refused sha256 access db reframe v obj ↔
      ¬ (v.storage = .reference ref ∧ ¬ ToldByFingerprint access ref) ∨ ReadOp.sample.ReadsToEnd access v ref := by
  by_cases hall : v.rowCount ≤ access.analysisMaxRows
  · obtain ⟨e, he, hcls⟩ := drain_refused reframe hl hn hc h
    have hrefused : ReadOp.sample.Refused sha256 access db reframe v obj := by
      refine ⟨e, map_error.mpr ?_, hcls⟩
      rw [sample, if_pos hall]
      exact map_error.mp he
    exact iff_of_true hrefused (.inr (.inl hall))
  · have hlast := wanted_getLast? access v.rowCount
    have hsorted := wanted_sorted access (Nat.lt_of_not_le hall)
    cases hwanted : access.wanted v.rowCount with
    | nil =>
      rw [hwanted] at hlast
      cases hlast
    | cons target wanted =>
      rw [hwanted] at hlast hsorted
      have hsample : access.sample sha256 db v =
          ((access.iterRows sha256 db v).consume sampleStep ⟨0, target, wanted, []⟩).map (·.picked) := by
        rw [sample, if_neg hall, hwanted]
      have hbreaks : ∀ rows, Breaks sampleStep ⟨0, target, wanted, []⟩ rows ↔
          access.lastWanted v.rowCount < rows.length := by
        intro rows
        have hiff := sample_breaks_iff rows ⟨0, target, wanted, []⟩ hsorted (Nat.zero_le _) hlast
        rw [Nat.zero_add] at hiff
        exact hiff
      have hiff := Over.consume_iff (f := fun s : Sampling => ReadResult.rows s.picked)
        (P := Reaches sha256 access db obj v) hl hn hc h id hbreaks
      unfold ReadOp.Refused ReadOp.ReadsToEnd
      simp only [ReadOp.run, ReadOp.ReachesVersion, hsample, map_map, hall, false_or, true_implies]
      exact hiff

theorem page_refused_iff {reframe : List Payload → Frame} {offset limit : Nat} (hl : db.Layered) (hn : db.Numbered)
    (hc : Changed sha256 access obj ref) (h : Over db obj v) :
    (ReadOp.page offset limit).Refused sha256 access db reframe v obj ↔
      ¬ (v.storage = .reference ref ∧ ¬ ToldByFingerprint access ref) ∨
        (ReadOp.page offset limit).ReadsToEnd access v ref := by
  have hpage : access.page sha256 db v offset limit =
      ((access.iterRows sha256 db v).consume (pageStep offset limit) ⟨0, []⟩).map (·.out) := by
    unfold page
    split
    · rename_i hs
      cases h with
      | self =>
        rw [hc.storage] at hs
        cases hs
      | derived _ hs' =>
        rw [hs'] at hs
        cases hs
    · rfl
  have hbreaks : ∀ rows, Breaks (pageStep offset limit) ⟨0, []⟩ rows ↔ offset + limit < rows.length := by
    intro rows
    have hiff := page_breaks_iff offset limit rows ⟨0, []⟩ (Nat.zero_le _)
    rw [Nat.zero_add] at hiff
    exact hiff
  have hiff := Over.consume_iff (f := fun s : Paging => ReadResult.rows s.out)
    (P := Reaches sha256 access db obj v) hl hn hc h id hbreaks
  unfold ReadOp.Refused ReadOp.ReadsToEnd
  simp only [ReadOp.run, ReadOp.ReachesVersion, hpage, map_map, true_implies]
  exact hiff

/-- A changed object is refused by an operation exactly where the version is derived from it, its
fingerprint tells, or the operation reads to the end. -/
theorem refused_iff {reframe : List Payload → Frame} {op : ReadOp} (hl : db.Layered) (hn : db.Numbered)
    (hc : Changed sha256 access obj ref) (h : Over db obj v) (hfound : db.version? v.id = some v) (hreads : op.Reads v) :
    op.Refused sha256 access db reframe v obj ↔
      v.storage ≠ .reference ref ∨ ToldByFingerprint access ref ∨ op.ReadsToEnd access v ref := by
  have hor : ¬ (v.storage = .reference ref ∧ ¬ ToldByFingerprint access ref) ∨ op.ReadsToEnd access v ref ↔
      v.storage ≠ .reference ref ∨ ToldByFingerprint access ref ∨ op.ReadsToEnd access v ref := by
    tauto
  rw [← hor]
  cases op with
  | iterRows => exact iff_of_true (drain_refused reframe hl hn hc h) (.inr trivial)
  | loadRecords ids require =>
    obtain ⟨e, he, hcls⟩ := load_refused require hl hn hc h hfound hreads
    exact iff_of_true ⟨e, map_error.mpr he, hcls⟩ (.inr trivial)
  | frame => exact iff_of_true (frame_refused hl hn hc h hfound) (.inr trivial)
  | sample => exact sample_refused_iff hl hn hc h
  | page offset limit => exact page_refused_iff hl hn hc h

/-! ## Two rows rewritten -/

theorem measure_wellFormed (x : Int) : (Json.obj [("x", .int x)]).WellFormed := by
  refine .obj (List.pairwise_singleton _ _) ?_
  intro f hf
  rw [List.mem_singleton.mp hf]
  exact .int x

def measured (x y : Int) : List (DateTime × Payload) :=
  [(VersionCall.atHour 0, ⟨[("x", .int x)], measure_wellFormed x⟩),
    (VersionCall.atHour 1, ⟨[("x", .int y)], measure_wellFormed y⟩)]

/-- One object, of a server that sends neither `ETag` nor `Last-Modified`. -/
def holding (rows : List (DateTime × Payload)) : StreamAccess where
  port := ⟨fun uri => .ok ⟨uri, none⟩, fun _ _ => .ok "jsonl", fun _ _ _ => .ok [("x", "int64")],
    fun _ _ _ _ => .ok rows⟩
  stream := fun _ _ _ _ => ⟨rows, none⟩
  rows_eq := fun _ _ _ _ => rfl
  analysisMaxRows := 1
  analysisMaxRows_pos := Nat.one_pos

def kpiObject : RegisterCall where
  dataset := "kpi"
  version := "v1"
  uri := "https://data.example/kpi.jsonl"
  kind := .historical

def kpiReference : Reference :=
  ⟨"https://data.example/kpi.jsonl", "https://data.example/kpi.jsonl", none, "jsonl", "observed_at"⟩

def kpiScan : ReferenceScan := ⟨kpiReference, [("x", "int64")], 2, rowsDigest id (measured 1 2)⟩

theorem kpi_registered : ∃ info db v, (holding (measured 1 2)).register id kpiObject {} = .ok (info, db) ∧ db.Numbered ∧
    db.Layered ∧ db.version? v.id = some v ∧ v.storage = .reference kpiReference ∧
    v.contentHash = rowsDigest id (measured 1 2) := by
  have hcreate : ({} : Datastore).create (kpiObject.new kpiScan) = _ := Datastore.create_free rfl rfl rfl
  have hrun : (holding (measured 1 2)).register id kpiObject {} = _ := hcreate
  have hcreated := Datastore.create_ok hcreate
  obtain ⟨parent, -, -, hv, -⟩ := hcreated.later rfl Datastore.numbered_empty (.refl _)
  refine ⟨_, _, ({} : Datastore).newVersion (kpiObject.new kpiScan) parent, hrun,
    hcreated.numbered Datastore.numbered_empty, ?_, hv, rfl, rfl⟩
  exact hcreated.layered Datastore.numbered_empty Datastore.layered_empty fun _ _ hs => by cases hs

theorem rewritten_changed {v : DataVersion} (hs : v.storage = .reference kpiReference)
    (hhash : v.contentHash = rowsDigest id (measured 1 2)) : Changed id (holding (measured 3 4)) v kpiReference := by
  refine ⟨hs, by decide, ⟨_, rfl⟩, .inr ⟨.inl rfl, rfl, ?_⟩⟩
  rw [hhash]
  change rowsDigest id (measured 3 4) ≠ rowsDigest id (measured 1 2)
  decide +kernel

/-- Reading every row of the rewritten object is refused. -/
theorem refused_iterRows : ∃ info db v, (holding (measured 1 2)).register id kpiObject {} = .ok (info, db) ∧
    db.version? v.id = some v ∧
    ReadOp.iterRows.Refused id (holding (measured 3 4)) db (fun payloads => ⟨[], payloads⟩) v v := by
  obtain ⟨info, db, v, hrun, hn, hl, hv, hs, hhash⟩ := kpi_registered
  have hreads : ReadOp.iterRows.Reads v := trivial
  exact ⟨info, db, v, hrun, hv,
    (refused_iff hl hn (rewritten_changed hs hhash) .self hv hreads).mpr (.inr (.inr trivial))⟩

/-- The first row of the rewritten object is handed out as a page. -/
theorem page_not_refused : ∃ info db v, (holding (measured 1 2)).register id kpiObject {} = .ok (info, db) ∧
    db.version? v.id = some v ∧ Changed id (holding (measured 3 4)) v kpiReference ∧
    ¬ (ReadOp.page 0 1).Refused id (holding (measured 3 4)) db (fun payloads => ⟨[], payloads⟩) v v := by
  obtain ⟨info, db, v, hrun, hn, hl, hv, hs, hhash⟩ := kpi_registered
  refine ⟨info, db, v, hrun, hv, rewritten_changed hs hhash, ?_⟩
  rintro ⟨e, he, -⟩
  have hpage : (ReadOp.page 0 1).run id (holding (measured 3 4)) db (fun payloads => ⟨[], payloads⟩) v =
      .ok (.rows (referenceRows v.id (measured 3 4)).head?.toList) := by
    simp only [ReadOp.run, page, iterRows, hs]
    rfl
  rw [hpage] at he
  cases he

end StreamAccess

end OranAdapt
