import OranAdapt.SegmentComparison

/-!
# Which values are compared

What a merge of two versions and the comparison of their features are meant to
be, and for which payloads they are that: a payload may hold neither a time nor
another segment of its own, and a feature that both segments have a number for
may hold nothing else.
-/

namespace OranAdapt.SegmentComparison

open StableOrder

/-! ## The right values -/

def taggedRows (h d : List DataRow) : List (String × DataRow) := h.map (historicalName, ·) ++ d.map (driftedName, ·)

structure IsRowOf (p : String × DataRow) (rec : Record) : Prop where
  time : rec.get? observedAt = some (.time p.2.observedAt)
  segment : rec.get? segmentKey = some (.value (.str p.1))
  columns : ∀ k v, p.2.payload.get? k = some v → rec.get? k = some (.value v)
  only : ∀ k, rec.get? k ≠ none → k ∈ reserved ∨ p.2.payload.get? k ≠ none

def ObservedBefore (a b : Record) : Prop :=
  ∃ s t, a.get? observedAt = some (.time s) ∧ b.get? observedAt = some (.time t) ∧ s ≤ t

/-- The rows of both slices, each as a record of its own segment, in the order of their times. -/
structure MergesRows (h d : List DataRow) (rows : List Record) : Prop where
  all : ∃ arranged, rows.Perm arranged ∧ List.Forall₂ IsRowOf (taggedRows h d) arranged
  order : rows.Pairwise ObservedBefore

def number? : Value → Option PyFloat
  | .int n => some (.fin n)
  | .float x => some x
  | _ => none

def valuesOf (rows : List DataRow) (feature : String) : List Value := rows.filterMap (·.payload.get? feature)

def numbersOf (rows : List DataRow) (feature : String) : List PyFloat := (valuesOf rows feature).filterMap number?

def IsFinite (x : PyFloat) : Prop := ∃ q, x = .fin q

section
variable (an : Analysis)

/-- The features with two numbers in each segment are compared, over exactly their numbers. -/
structure ComparesNumbers (h d : List DataRow) (features : List FeatureComparison) : Prop where
  once : (features.map (·.feature)).Nodup
  compared : ∀ f, f ∈ features.map (·.feature) ↔ 2 ≤ (numbersOf h f).length ∧ 2 ≤ (numbersOf d f).length
  numbers : ∃ columns drift, (columns ≠ [] → an.evidentlyDrift columns = .ok drift) ∧
    columns.mapM (compareFeature an drift) = .ok features ∧
      ∀ c ∈ columns, c.2.1.Perm (numbersOf h c.1) ∧ c.2.2.Perm (numbersOf d c.1)
  counted : ∀ f ∈ features, f.nHistorical = (numbersOf h f.feature).length ∧ f.nDrifted = (numbersOf d f.feature).length
  finite : ∀ f ∈ features, IsFinite f.historicalMean ∧ IsFinite f.driftedMean

def RightValues (historical drifted : VersionInfo × List DataRow) : Prop :=
  ∃ merged result, analyze an historical drifted = .ok (merged, result) ∧
    MergesRows historical.2 drifted.2 merged.rows ∧
    ComparesNumbers an historical.2 drifted.2 result.features

/-! ## The payloads that they come out for -/

/-- No payload holds a time, and none another segment than its own. -/
def OwnKeys (h d : List DataRow) : Prop :=
  ∀ p ∈ taggedRows h d, p.2.payload.get? observedAt = none ∧ ∀ v ∈ p.2.payload.get? segmentKey, v = .str p.1

def Value.Reads : Value → Prop
  | .null | .bool _ | .float _ => True
  | .int n => n.natAbs < PyInt.floatLimit
  | .str s => an.float? s ≠ none
  | .nested _ _ => False

def byTime (rows : List DataRow) : List DataRow := rows.mergeSort fun a b => decide (a.observedAt ≤ b.observedAt)

/-- Numbers alone, with a finite mean when they are taken in the order of their times. -/
def MeanFits (rows : List DataRow) (f : String) : Prop :=
  (∀ v ∈ valuesOf rows f, v.isNumber = true) ∧ IsFinite (an.mean (numbersOf (byTime rows) f))

structure FeatureFits (h d : List DataRow) (f : String) : Prop where
  reads : ∀ v ∈ valuesOf h f ++ valuesOf d f, v.Reads an
  numbers : 2 ≤ (valuesOf h f).length → 2 ≤ (valuesOf d f).length → MeanFits an h f ∧ MeanFits an d f

def NumbersOnly (h d : List DataRow) : Prop :=
  ∀ f, (∃ v ∈ valuesOf h f, v.isNumber) → (∃ v ∈ valuesOf d f, v.isNumber) → FeatureFits an h d f

/-- What can be compared by its statistics. -/
structure Comparable (xs : List PyFloat) : Prop where
  two : 2 ≤ xs.length
  finite : ∀ x ∈ xs, IsFinite x

/-- Evidently and SciPy return on numbers that can be compared. -/
structure Total : Prop where
  evidently : ∀ columns : List Column, columns ≠ [] → (∀ c ∈ columns, Comparable c.2.1 ∧ Comparable c.2.2) →
    ∃ drift, an.evidentlyDrift columns = .ok drift
  ks2samp : ∀ xs ys, Comparable xs → Comparable ys → ∃ x, an.ks2samp xs ys = .ok x

end

/-! ## Records -/

section
variable {an : Analysis} {h d : List DataRow} {p : String × DataRow} {r : DataRow} {rec : Record}

theorem get?_cells (payload : Table String Value) (k : String) : (cells payload).get? k = (payload.get? k).map .value := by
  obtain ⟨rows, hnodup⟩ := payload
  show (rows.map fun p => (p.1, Cell.value p.2)).lookup k = (rows.lookup k).map .value
  clear hnodup
  induction rows with
  | nil => rfl
  | cons q rows ih =>
    rw [List.map_cons, Table.lookup_cons_if, Table.lookup_cons_if, ih]
    by_cases hk : k = q.1 <;> simp [hk]

theorem get?_record (r : DataRow) (k : String) :
    (record r).get? k = ((r.payload.get? k).map .value).or (if k = observedAt then some (.time r.observedAt) else none) := by
  rw [record, Table.get?_update_rows, get?_cells, Table.get?_put, Table.get?_empty]

theorem get?_tagged (segment : String) (rec : Record) (k : String) :
    (tagged segment rec).get? k = (rec.get? k).or (if k = segmentKey then some (.value (.str segment)) else none) := by
  rw [tagged, Table.get?_update_rows, Table.get?_put, Table.get?_empty]

def mergedRecord (p : String × DataRow) : Record := tagged p.1 (record p.2)

theorem get?_merged (p : String × DataRow) (k : String) :
    (mergedRecord p).get? k =
      (((p.2.payload.get? k).map .value).or (if k = observedAt then some (.time p.2.observedAt) else none)).or
      (if k = segmentKey then some (.value (.str p.1)) else none) := by
  rw [mergedRecord, get?_tagged, get?_record]

def OwnKeysOf (p : String × DataRow) : Prop :=
  p.2.payload.get? observedAt = none ∧ ∀ v ∈ p.2.payload.get? segmentKey, v = .str p.1

theorem isRowOf_merged (hown : OwnKeysOf p) : IsRowOf p (mergedRecord p) := by
  refine ⟨?_, ?_, ?_, ?_⟩
  · simp [get?_merged, hown.1]
  · rw [get?_merged]
    cases hsegment : p.2.payload.get? segmentKey with
    | none => simp [segmentKey, observedAt]
    | some v => simp [hown.2 v hsegment]
  · intro k v hv
    simp [get?_merged, hv]
  · intro k hk
    by_cases hr : k ∈ reserved
    · exact .inl hr
    · right
      simp only [reserved, List.mem_cons, List.not_mem_nil, or_false, not_or] at hr
      intro hnone
      exact hk (by simp [get?_merged, hnone, hr.1, hr.2])

theorem IsRowOf.ownKeys (hrow : IsRowOf p rec) : OwnKeysOf p := by
  constructor
  · cases htime : p.2.payload.get? observedAt with
    | none => rfl
    | some v =>
      have := hrow.columns _ v htime
      rw [hrow.time] at this
      cases this
  · intro v hv
    have := hrow.columns _ v hv
    rw [hrow.segment] at this
    simpa using this.symm

theorem MergesRows.ownKeys {rows : List Record} (hm : MergesRows h d rows) : OwnKeys h d := by
  obtain ⟨arranged, _, hall⟩ := hm.all
  intro p hp
  obtain ⟨rec, _, hrow⟩ := exists_of_mem_left hall hp
  exact hrow.ownKeys

theorem mergedRecords (h d : List DataRow) :
    (h.map record).map (tagged historicalName) ++ (d.map record).map (tagged driftedName) =
      (taggedRows h d).map mergedRecord := by
  simp [taggedRows, mergedRecord, Function.comp_def]

theorem observed_merged (hown : OwnKeysOf p) : observed (mergedRecord p) = .time p.2.observedAt := by
  rw [observed, (isRowOf_merged hown).time]
  rfl

theorem observed_record (hown : OwnKeysOf p) : observed (record p.2) = .time p.2.observedAt := by
  rw [observed, get?_record, hown.1]
  rfl

/-! ## Merging -/

theorem timestampMerge_ok {merged : MergedSeries} {info info' : VersionInfo}
    (hm : timestampMerge an (some (loadSlice info h)) (some (loadSlice info' d)) = .ok merged) :
    PySort.sortBy (lessObserved an) ((taggedRows h d).map mergedRecord) = some merged.rows := by
  obtain ⟨_, _, hm⟩ := bind_ok hm
  obtain ⟨_, _, hm⟩ := bind_ok hm
  obtain ⟨rows, hrows, hm⟩ := bind_ok hm
  cases hm
  rw [← mergedRecords]
  exact orRaise_ok hrows

def timeOf : Cell → Time
  | .time t => t
  | .value _ => 0

variable (an) in
theorem byKey_merged (hown : OwnKeys h d) :
    PySort.ByKey (lessObserved an) (fun rec => timeOf (observed rec)) ((taggedRows h d).map mergedRecord) := by
  intro a ha b hb
  obtain ⟨p, hp, rfl⟩ := List.mem_map.mp ha
  obtain ⟨q, hq, rfl⟩ := List.mem_map.mp hb
  simp only [lessObserved, observed_merged (hown p hp), observed_merged (hown q hq)]
  rfl

theorem stable_merged {rows : List Record} (hown : OwnKeys h d)
    (hsort : PySort.sortBy (lessObserved an) ((taggedRows h d).map mergedRecord) = some rows) :
    StablyOrdered (fun rec => timeOf (observed rec)) ((taggedRows h d).map mergedRecord) rows := by
  obtain ⟨rows', hrows, hstable⟩ := PySort.sortBy_stable (byKey_merged an hown)
  cases hsort.symm.trans hrows
  exact hstable

theorem mem_taggedRows_left (hr : r ∈ h) : (historicalName, r) ∈ taggedRows h d :=
  List.mem_append_left _ (List.mem_map_of_mem hr)

theorem mem_taggedRows_right (hr : r ∈ d) : (driftedName, r) ∈ taggedRows h d :=
  List.mem_append_right _ (List.mem_map_of_mem hr)

variable (an) in
theorem boundary_total (hown : OwnKeys h d) : ∃ last, boundary an (h.map record) = .ok last ∧
    ∀ c ∈ last, ∃ t, c = .time t := by
  cases h with
  | nil => exact ⟨none, rfl, by simp⟩
  | cons r rs =>
    have hobserved : ∀ q ∈ r :: rs, observed (record q) = .time q.observedAt := fun q hq =>
      observed_record (p := (historicalName, q)) (hown _ (mem_taggedRows_left hq))
    have hkey : PySort.ByKey (Cell.less an) timeOf (observed (record r) :: (rs.map record).map observed) := by
      have hcells : observed (record r) :: (rs.map record).map observed = (r :: rs).map fun q =>
        observed (record q) := by simp
      rw [hcells]
      intro a ha b hb
      obtain ⟨q, hq, rfl⟩ := List.mem_map.mp ha
      obtain ⟨q', hq', rfl⟩ := List.mem_map.mp hb
      simp only [hobserved q hq, hobserved q' hq']
      rfl
    obtain ⟨c, hc, hmax⟩ := PySort.maxBy_total hkey
    refine ⟨some c, ?_, ?_⟩
    · rw [List.map_cons, boundary, hmax]
      rfl
    · intro c' hc'
      cases hc'
      have hc : c ∈ (r :: rs).map fun q => observed (record q) := by simpa using hc
      obtain ⟨q, hq, rfl⟩ := List.mem_map.mp hc
      exact ⟨_, hobserved q hq⟩

variable (an) in
theorem overlap_total {last : Option Cell} (hown : OwnKeys h d) (hlast : ∀ c ∈ last, ∃ t, c = .time t) :
    ∃ n, overlap an last (d.map record) = .ok n := by
  cases last with
  | none => exact ⟨0, rfl⟩
  | some c =>
    obtain ⟨t, rfl⟩ := hlast c rfl
    have hall : ∀ rec ∈ d.map record, ∃ b, orRaise "TypeError" (Cell.lessEq an (observed rec) (.time t)) = .ok b := by
      intro rec hrec
      obtain ⟨q, hq, rfl⟩ := List.mem_map.mp hrec
      rw [observed_record (p := (driftedName, q)) (hown _ (mem_taggedRows_right hq))]
      exact ⟨_, rfl⟩
    obtain ⟨bs, hbs⟩ := mapM_total hall
    exact ⟨bs.count true, by rw [overlap, hbs]; rfl⟩

variable (an) in
theorem timestampMerge_total (hown : OwnKeys h d) (info info' : VersionInfo) :
    ∃ merged, timestampMerge an (some (loadSlice info h)) (some (loadSlice info' d)) = .ok merged := by
  obtain ⟨last, hlast, htime⟩ := boundary_total an hown
  obtain ⟨n, hn⟩ := overlap_total an hown htime
  obtain ⟨rows, hrows, _⟩ := PySort.sortBy_stable (byKey_merged an hown)
  have hsorted : orRaise "TypeError" (PySort.sortBy (lessObserved an)
      ((h.map record).map (tagged historicalName) ++ (d.map record).map (tagged driftedName))) = .ok rows := by
    rw [mergedRecords, hrows]
    rfl
  refine ⟨⟨rows, h.length, d.length, last, n⟩, ?_⟩
  simp only [timestampMerge, loadSlice, Option.map_some, Option.getD_some, hlast, hsorted]
  show (overlap an last (d.map record) >>= _) = _
  rw [hn]
  rfl

theorem mergesRows {merged : MergedSeries} {info info' : VersionInfo} (hown : OwnKeys h d)
    (hm : timestampMerge an (some (loadSlice info h)) (some (loadSlice info' d)) = .ok merged) :
    MergesRows h d merged.rows := by
  have hsort := timestampMerge_ok hm
  have hperm := PySort.sortBy_perm hsort
  constructor
  · refine ⟨_, hperm, ?_⟩
    rw [List.forall₂_map_right_iff, List.forall₂_same]
    exact fun p hp => isRowOf_merged (hown p hp)
  · apply (stable_merged hown hsort).sorted.imp_of_mem
    intro a b ha hb hle
    obtain ⟨p, hp, rfl⟩ := List.mem_map.mp (hperm.mem_iff.mp ha)
    obtain ⟨q, hq, rfl⟩ := List.mem_map.mp (hperm.mem_iff.mp hb)
    rw [observed_merged (hown p hp), observed_merged (hown q hq)] at hle
    exact ⟨_, _, (isRowOf_merged (hown p hp)).time, (isRowOf_merged (hown q hq)).time, hle⟩

/-! ## Segments -/

theorem inSegment_merged (hown : OwnKeysOf p) (segment : String) : inSegment segment (mergedRecord p) = (p.1 == segment) := by
  rw [inSegment, (isRowOf_merged hown).segment]
  simp [Bool.beq_eq_decide_eq]

theorem filter_segments (hown : OwnKeys h d) :
    ((taggedRows h d).map mergedRecord).filter (inSegment historicalName) =
      h.map (fun r => mergedRecord (historicalName, r)) ∧
      ((taggedRows h d).map mergedRecord).filter (inSegment driftedName) =
        d.map (fun r => mergedRecord (driftedName, r)) := by
  have hh : ∀ segment, ∀ r ∈ h, inSegment segment (mergedRecord (historicalName, r)) =
      (historicalName == segment) := fun segment r hr =>
    inSegment_merged (hown _ (mem_taggedRows_left hr)) segment
  have hd : ∀ segment, ∀ r ∈ d, inSegment segment (mergedRecord (driftedName, r)) = (driftedName == segment) :=
    fun segment r hr =>
    inSegment_merged (hown _ (mem_taggedRows_right hr)) segment
  have hne : historicalName ≠ driftedName := by decide
  simp only [taggedRows, List.map_append, List.map_map, List.filter_append, Function.comp_def]
  constructor
  · rw [List.filter_eq_self.mpr, List.filter_eq_nil_iff.mpr, List.append_nil]
    · simpa using fun r hr => by simp [hd _ r hr, hne.symm]
    · simpa using fun r hr => by simp [hh _ r hr]
  · rw [List.filter_eq_nil_iff.mpr, List.filter_eq_self.mpr, List.nil_append]
    · simpa using fun r hr => by simp [hd _ r hr]
    · simpa using fun r hr => by simp [hh _ r hr, hne]

theorem byTime_stable (rows : List DataRow) : StablyOrdered DataRow.observedAt rows (byTime rows) := .mergeSort _ rows

theorem valuesOf_byTime (rows : List DataRow) (f : String) : (valuesOf (byTime rows) f).Perm (valuesOf rows f) :=
  (byTime_stable rows).perm.filterMap _

theorem numbersOf_byTime (rows : List DataRow) (f : String) : (numbersOf (byTime rows) f).Perm (numbersOf rows f) :=
  (valuesOf_byTime rows f).filterMap _

/-- A segment of merged rows: what is in it of a feature is what the rows of the version hold of it, by time. -/
structure IsSegment (rows : List DataRow) (recs : List Record) : Prop where
  values : ∀ f, f ∉ reserved → column recs f = (valuesOf (byTime rows) f).map .value
  names : ∀ f, f ∈ numericFeatureNames recs ↔ f ∉ reserved ∧ ∃ v ∈ valuesOf rows f, v.isNumber
  nonempty : rows ≠ [] → recs ≠ []

theorem mem_numericFeatureNames {recs : List Record} {f : String} :
    f ∈ numericFeatureNames recs ↔ f ∉ reserved ∧ ∃ c ∈ column recs f, c.isNumber := by
  simp only [numericFeatureNames, column, List.mem_flatMap, List.mem_map, List.mem_filter, List.mem_filterMap]
  constructor
  · rintro ⟨rec, hrec, ⟨k, c⟩, ⟨hmem, hc⟩, rfl⟩
    simp only [decide_eq_true_eq] at hc
    exact ⟨hc.1, c, ⟨rec, hrec, Table.lookup_of_mem rec.nodup hmem⟩, hc.2⟩
  · rintro ⟨hf, c, ⟨rec, hrec, hget⟩, hc⟩
    exact ⟨rec, hrec, (f, c), ⟨Table.lookup_mem hget, by simp [hf, hc]⟩, rfl⟩

theorem column_merged {segment : String} {f : String} (hf : f ∉ reserved) (rows : List DataRow) :
    column (rows.map fun r => mergedRecord (segment, r)) f = (valuesOf rows f).map .value := by
  simp only [reserved, List.mem_cons, List.not_mem_nil, or_false, not_or] at hf
  rw [column, valuesOf, List.filterMap_map, List.map_filterMap]
  apply List.filterMap_congr
  intro r _
  simp [get?_merged, hf.1, hf.2]

theorem isSegment_byTime (segment : String) (rows : List DataRow) :
    IsSegment rows ((byTime rows).map fun r => mergedRecord (segment, r)) := by
  have hperm : ((byTime rows).map fun r => mergedRecord (segment, r)).Perm (rows.map fun r => mergedRecord (segment, r)) :=
    (byTime_stable rows).perm.map _
  have hcolumn : ∀ f, f ∉ reserved → (column ((byTime rows).map fun r => mergedRecord (segment, r)) f).Perm
      ((valuesOf rows f).map .value) := by
    intro f hf
    rw [← column_merged hf]
    exact hperm.filterMap _
  refine ⟨fun f hf => column_merged hf (byTime rows), ?_, ?_⟩
  · intro f
    rw [mem_numericFeatureNames]
    apply and_congr_right
    intro hf
    constructor
    · rintro ⟨c, hc, hnumber⟩
      obtain ⟨v, hv, rfl⟩ := List.mem_map.mp ((hcolumn f hf).mem_iff.mp hc)
      exact ⟨v, hv, hnumber⟩
    · rintro ⟨v, hv, hnumber⟩
      exact ⟨.value v, (hcolumn f hf).mem_iff.mpr (List.mem_map_of_mem hv), hnumber⟩
  · intro hne hnil
    rw [hnil] at hperm
    exact hne (List.map_eq_nil_iff.mp hperm.nil_eq.symm)

theorem segments {rows : List Record} (hown : OwnKeys h d)
    (hstable : StablyOrdered (fun rec => timeOf (observed rec)) ((taggedRows h d).map mergedRecord) rows) :
    IsSegment h (rows.filter (inSegment historicalName)) ∧ IsSegment d (rows.filter (inSegment driftedName)) := by
  have hsegment : ∀ (segment : String) (own : List DataRow), (∀ r ∈ own, (segment, r) ∈ taggedRows h d) →
      ((taggedRows h d).map mergedRecord).filter (inSegment segment) = own.map (fun r => mergedRecord (segment, r)) →
      IsSegment own (rows.filter (inSegment segment)) := by
    intro segment own hmem hfilter
    have htimes : ∀ r ∈ own, timeOf (observed (mergedRecord (segment, r))) = r.observedAt := by
      intro r hr
      rw [observed_merged (hown _ (hmem r hr))]
      rfl
    have hfiltered := hstable.filter (inSegment segment)
    rw [hfilter] at hfiltered
    rw [hfiltered.unique ((byTime_stable own).map htimes)]
    exact isSegment_byTime segment own
  obtain ⟨hh, hd⟩ := filter_segments hown
  constructor
  · exact hsegment historicalName h (fun _ => mem_taggedRows_left) hh
  · exact hsegment driftedName d (fun _ => mem_taggedRows_right) hd

end

/-! ## Values read as floats -/

section
variable {an : Analysis} {v : Value} {xs ys : List PyFloat}

theorem asFloat_iff : (∃ x, asFloat an (.value v) = .ok x) ↔ v.Reads an := by
  cases v with
  | int n => by_cases hn : n.natAbs < PyInt.floatLimit <;> simp [asFloat, Value.Reads, hn]
  | str s => cases hs : an.float? s <;> simp [asFloat, Value.Reads, orRaise, hs, pythonError]
  | _ => simp [asFloat, Value.Reads]

def floatOf (an : Analysis) (c : Cell) : PyFloat := (asFloat an c).toOption.getD .nan

theorem asFloat_eq {c : Cell} {x : PyFloat} (hc : asFloat an c = .ok x) : floatOf an c = x := by
  rw [floatOf, hc]
  rfl

theorem floatOf_number {x : PyFloat} (hv : v.Reads an) (hx : number? v = some x) : floatOf an (.value v) = x := by
  cases v with
  | int n =>
    cases hx
    simp only [Value.Reads] at hv
    simp [floatOf, asFloat, hv, Except.toOption]
  | float y =>
    cases hx
    rfl
  | _ => cases hx

theorem isNumber_iff : v.isNumber = true ↔ ∃ x, number? v = some x := by
  cases v <;> simp [Value.isNumber, number?]

end

/-! ## Comparing -/

section
variable {an : Analysis} {h d : List DataRow} {H D : List Record} {f : String}

theorem numbers_of_length {rows : List DataRow} (hlength : (numbersOf rows f).length = (valuesOf rows f).length) :
    ∀ v ∈ valuesOf rows f, v.isNumber = true := by
  rw [numbersOf, List.length_filterMap_eq_countP, List.countP_eq_length] at hlength
  intro v hv
  exact isNumber_iff.mpr (Option.isSome_iff_exists.mp (hlength v hv))

theorem length_numbersOf_le (rows : List DataRow) (f : String) : (numbersOf rows f).length ≤ (valuesOf rows f).length :=
  List.length_filterMap_le _ _

theorem exists_number {rows : List DataRow} (htwo : 2 ≤ (numbersOf rows f).length) :
    ∃ v ∈ valuesOf rows f, v.isNumber = true := by
  obtain ⟨x, hx⟩ := List.exists_mem_of_length_pos (Nat.lt_of_lt_of_le Nat.zero_lt_two htwo)
  obtain ⟨v, hv, hnumber⟩ := List.mem_filterMap.mp hx
  exact ⟨v, hv, isNumber_iff.mpr ⟨x, hnumber⟩⟩

def readOf (an : Analysis) (recs : List Record) (f : String) : List PyFloat := (column recs f).map (floatOf an)

theorem IsSegment.read (hH : IsSegment h H) (hf : f ∉ reserved) :
    (∃ xs, (column H f).mapM (asFloat an) = .ok xs) ↔ ∀ v ∈ valuesOf h f, v.Reads an := by
  constructor
  · rintro ⟨xs, hxs⟩ v hv
    rw [hH.values f hf] at hxs
    obtain ⟨x, _, hx⟩ := exists_of_mem_left (mapM_ok hxs) (List.mem_map_of_mem ((valuesOf_byTime h f).mem_iff.mpr hv))
    exact asFloat_iff.mp ⟨x, hx⟩
  · intro hall
    apply mapM_total
    intro c hc
    rw [hH.values f hf] at hc
    obtain ⟨v, hv, rfl⟩ := List.mem_map.mp hc
    exact asFloat_iff.mpr (hall v ((valuesOf_byTime h f).mem_iff.mp hv))

theorem mapM_readOf {recs : List Record} {xs : List PyFloat} (hxs : (column recs f).mapM (asFloat an) = .ok xs) :
    xs = readOf an recs f := by
  have hall := mapM_ok hxs
  clear hxs
  rw [readOf]
  generalize column recs f = cs at hall
  induction hall with
  | nil => rfl
  | cons hc _ ih => rw [List.map_cons, asFloat_eq hc, ← ih]

variable (an) in
theorem IsSegment.length_readOf (hH : IsSegment h H) (hf : f ∉ reserved) :
    (readOf an H f).length = (valuesOf h f).length := by
  rw [readOf, List.length_map, hH.values f hf, List.length_map, (valuesOf_byTime h f).length_eq]

theorem IsSegment.readOf_numbers (hH : IsSegment h H) (hf : f ∉ reserved) (hreads : ∀ v ∈ valuesOf h f, v.Reads an)
    (hall : ∀ v ∈ valuesOf h f, v.isNumber = true) : readOf an H f = numbersOf (byTime h) f := by
  have hboth : ∀ v ∈ valuesOf (byTime h) f, v.Reads an ∧ v.isNumber = true := by
    intro v hv
    have hmem := (valuesOf_byTime h f).mem_iff.mp hv
    exact ⟨hreads v hmem, hall v hmem⟩
  rw [readOf, hH.values f hf, numbersOf, List.map_map]
  generalize valuesOf (byTime h) f = vs at hboth
  induction vs with
  | nil => rfl
  | cons v vs ih =>
    obtain ⟨hread, hnumber⟩ := hboth v (by simp)
    obtain ⟨x, hx⟩ := isNumber_iff.mp hnumber
    rw [List.map_cons, List.filterMap_cons_some hx, ih fun w hw => hboth w (by simp [hw])]
    rw [Function.comp_apply, floatOf_number hread hx]

def columnOf (an : Analysis) (H D : List Record) (f : String) : Column := (f, readOf an H f, readOf an D f)

theorem longEnough_columnOf :
    longEnough (columnOf an H D f) = true ↔ 2 ≤ (readOf an H f).length ∧ 2 ≤ (readOf an D f).length := by
  rw [longEnough, Bool.and_eq_true, decide_eq_true_eq, decide_eq_true_eq]
  rfl

theorem readColumn_ok {c : Column} (hc : readColumn an H D f = .ok c) :
    c = columnOf an H D f ∧ (∃ xs, (column H f).mapM (asFloat an) = .ok xs) ∧
      ∃ xs, (column D f).mapM (asFloat an) = .ok xs := by
  obtain ⟨xs, hxs, hc⟩ := bind_ok hc
  obtain ⟨ys, hys, hc⟩ := bind_ok hc
  cases hc
  exact ⟨by rw [columnOf, mapM_readOf hxs, mapM_readOf hys], ⟨xs, hxs⟩, ⟨ys, hys⟩⟩

theorem readColumn_total (hxs : ∃ xs, (column H f).mapM (asFloat an) = .ok xs)
    (hys : ∃ xs, (column D f).mapM (asFloat an) = .ok xs) :
    readColumn an H D f = .ok (columnOf an H D f) := by
  obtain ⟨xs, hxs⟩ := hxs
  obtain ⟨ys, hys⟩ := hys
  have hread : readColumn an H D f = .ok (f, xs, ys) := by
    rw [readColumn, hxs]
    show ((column D f).mapM (asFloat an) >>= _) = _
    rw [hys]
    rfl
  rw [hread, mapM_readOf hxs, mapM_readOf hys, columnOf]

theorem compareFeature_ok {drift : String → Drift} {c : Column} {out : FeatureComparison}
    (hc : compareFeature an drift c = .ok out) :
    out.feature = c.1 ∧ out.historicalMean = an.mean c.2.1 ∧ out.driftedMean = an.mean c.2.2 ∧
      out.nHistorical = c.2.1.length ∧
      out.nDrifted = c.2.2.length := by
  obtain ⟨_, _, hc⟩ := bind_ok hc
  cases hc
  simp

theorem map_feature {drift : String → Drift} {columns : List Column} {features : List FeatureComparison}
    (hfeatures : columns.mapM (compareFeature an drift) = .ok features) :
    features.map (·.feature) = columns.map Prod.fst := by
  have hall := mapM_ok hfeatures
  clear hfeatures
  induction hall with
  | nil => rfl
  | cons hc _ ih => rw [List.map_cons, List.map_cons, ih, (compareFeature_ok hc).1]

theorem mem_sharedNames : f ∈ sharedNames H D ↔ f ∈ numericFeatureNames H ∧ f ∈ numericFeatureNames D := by
  simp [sharedNames, sortedNames]

theorem nodup_sharedNames : (sharedNames H D).Nodup := (List.mergeSort_perm _ _).nodup_iff.mpr (List.nodup_dedup _)

theorem features_summary (features : List FeatureComparison) (m n : Nat) : (summary features m n).features = features := by
  cases features <;> rfl

/-- What is done with the rows of two segments that are not empty. -/
def compareRecords (an : Analysis) (H D : List Record) : Except AdaptationError (List FeatureComparison) := do
  let read ← (sharedNames H D).mapM (readColumn an H D)
  let columns := read.filter longEnough
  if columns = [] then .ok []
  else do
    let drift ← an.evidentlyDrift columns
    columns.mapM (compareFeature an drift)

theorem compareSegments_eq {merged : MergedSeries} (hH : merged.rows.filter (inSegment historicalName) = H)
    (hD : merged.rows.filter (inSegment driftedName) = D) (hneH : H ≠ []) (hneD : D ≠ []) :
    compareSegments an merged = (compareRecords an H D).map fun features => summary features H.length D.length := by
  simp only [compareSegments, hH, hD, hneH, hneD, or_self, if_false, compareRecords]
  cases (sharedNames H D).mapM (readColumn an H D) with
  | error e => rfl
  | ok read =>
    show (if read.filter longEnough = [] then _ else _) = Except.map _ (if read.filter longEnough = [] then _ else _)
    by_cases hnone : read.filter longEnough = []
    · rw [if_pos hnone, if_pos hnone]
      rfl
    · rw [if_neg hnone, if_neg hnone]
      cases hdrift : an.evidentlyDrift (read.filter longEnough) with
      | error e => rfl
      | ok drift =>
        show ((read.filter longEnough).mapM (compareFeature an drift) >>= _) =
          Except.map _ ((read.filter longEnough).mapM (compareFeature an drift))
        cases (read.filter longEnough).mapM (compareFeature an drift) <;> rfl

theorem compareRecords_ok {features : List FeatureComparison} (hc : compareRecords an H D = .ok features) :
    ∃ read drift, (sharedNames H D).mapM (readColumn an H D) = .ok read ∧
      (read.filter longEnough ≠ [] → an.evidentlyDrift (read.filter longEnough) = .ok drift) ∧
      (read.filter longEnough).mapM (compareFeature an drift) = .ok features := by
  obtain ⟨read, hread, hc⟩ := bind_ok hc
  simp only at hc
  by_cases hnone : read.filter longEnough = []
  · rw [if_pos hnone] at hc
    cases hc
    exact ⟨read, fun _ => ⟨.nan, .nan⟩, hread, fun hne => absurd hnone hne, by rw [hnone]; rfl⟩
  · rw [if_neg hnone] at hc
    obtain ⟨drift, hdrift, hc⟩ := bind_ok hc
    exact ⟨read, drift, hread, fun _ => hdrift, hc⟩

def NoReserved (rows : List DataRow) : Prop := ∀ f ∈ reserved, ∀ v ∈ valuesOf rows f, v.isNumber = false

theorem mem_sharedNames_iff (hH : IsSegment h H) (hD : IsSegment d D) (hres : NoReserved h) :
    f ∈ sharedNames H D ↔ (∃ v ∈ valuesOf h f, v.isNumber = true) ∧ ∃ v ∈ valuesOf d f, v.isNumber = true := by
  rw [mem_sharedNames, hH.names, hD.names]
  constructor
  · rintro ⟨⟨_, hh⟩, _, hd⟩
    exact ⟨hh, hd⟩
  · rintro ⟨hh, hd⟩
    have hf : f ∉ reserved := by
      intro hf
      obtain ⟨v, hv, hnumber⟩ := hh
      rw [hres f hf v hv] at hnumber
      cases hnumber
    exact ⟨⟨hf, hh⟩, hf, hd⟩

theorem not_reserved (hH : IsSegment h H) (hf : f ∈ sharedNames H D) :
    f ∉ reserved := ((hH.names f).mp (mem_sharedNames.mp hf).1).1

theorem numbersOnly_of_compared (hH : IsSegment h H) (hD : IsSegment d D) (hres : NoReserved h)
    {features : List FeatureComparison}
    (hc : compareRecords an H D = .ok features) (hright : ComparesNumbers an h d features) : NumbersOnly an h d := by
  obtain ⟨read, drift, hread, _, hfeatures⟩ := compareRecords_ok hc
  intro f hh hd
  have hshared := (mem_sharedNames_iff hH hD hres).mpr ⟨hh, hd⟩
  have hf := not_reserved hH hshared
  obtain ⟨c, hmem, hcolumn⟩ := exists_of_mem_left (mapM_ok hread) hshared
  obtain ⟨rfl, hxs, hys⟩ := readColumn_ok hcolumn
  have hreadsH := (hH.read hf).mp hxs
  have hreadsD := (hD.read hf).mp hys
  constructor
  · intro v hv
    rcases List.mem_append.mp hv with hv | hv
    · exact hreadsH v hv
    · exact hreadsD v hv
  · intro htwoH htwoD
    have hlong : longEnough (columnOf an H D f) = true := by
      rw [longEnough_columnOf, hH.length_readOf an hf, hD.length_readOf an hf]
      exact ⟨htwoH, htwoD⟩
    obtain ⟨out, hout, hcompared⟩ := exists_of_mem_left (mapM_ok hfeatures) (List.mem_filter.mpr ⟨hmem, hlong⟩)
    obtain ⟨hname, hmeanH, hmeanD, hnH, hnD⟩ := compareFeature_ok hcompared
    have hcounted := hright.counted out hout
    have hfinite := hright.finite out hout
    rw [hname] at hcounted
    have hnumbersH := numbers_of_length (hcounted.1.symm.trans (hnH.trans (hH.length_readOf an hf)))
    have hnumbersD := numbers_of_length (hcounted.2.symm.trans (hnD.trans (hD.length_readOf an hf)))
    rw [hmeanH, hmeanD] at hfinite
    constructor
    · exact ⟨hnumbersH, hH.readOf_numbers hf hreadsH hnumbersH ▸ hfinite.1⟩
    · exact ⟨hnumbersD, hD.readOf_numbers hf hreadsD hnumbersD ▸ hfinite.2⟩

/-- The columns that are read where each feature is one that can be compared. -/
structure ColumnRight (an : Analysis) (h d : List DataRow) (H D : List Record) (f : String) : Prop where
  read : readColumn an H D f = .ok (columnOf an H D f)
  numbers : longEnough (columnOf an H D f) = true →
    (readOf an H f).Perm (numbersOf h f) ∧ (readOf an D f).Perm (numbersOf d f) ∧
      IsFinite (an.mean (readOf an H f)) ∧ IsFinite (an.mean (readOf an D f))

theorem columnRight (hH : IsSegment h H) (hD : IsSegment d D) (hf : f ∉ reserved) (hfits : FeatureFits an h d f) :
    ColumnRight an h d H D f := by
  have hreadsH : ∀ v ∈ valuesOf h f, v.Reads an := fun v hv => hfits.reads v (List.mem_append_left _ hv)
  have hreadsD : ∀ v ∈ valuesOf d f, v.Reads an := fun v hv => hfits.reads v (List.mem_append_right _ hv)
  constructor
  · exact readColumn_total ((hH.read hf).mpr hreadsH) ((hD.read hf).mpr hreadsD)
  · intro hlong
    rw [longEnough_columnOf, hH.length_readOf an hf, hD.length_readOf an hf] at hlong
    obtain ⟨⟨hallH, hmeanH⟩, hallD, hmeanD⟩ := hfits.numbers hlong.1 hlong.2
    rw [hH.readOf_numbers hf hreadsH hallH, hD.readOf_numbers hf hreadsD hallD]
    exact ⟨numbersOf_byTime h f, numbersOf_byTime d f, hmeanH, hmeanD⟩

/-- A feature is compared exactly where both segments have two numbers of it. -/
theorem longEnough_iff (hH : IsSegment h H) (hD : IsSegment d D) (hres : NoReserved h)
    (hright : ∀ f ∈ sharedNames H D, ColumnRight an h d H D f) :
    f ∈ sharedNames H D ∧ longEnough (columnOf an H D f) = true ↔ 2 ≤ (numbersOf h f).length ∧
      2 ≤ (numbersOf d f).length := by
  constructor
  · rintro ⟨hf, hlong⟩
    obtain ⟨hpermH, hpermD, _⟩ := (hright f hf).numbers hlong
    rw [longEnough_columnOf] at hlong
    rwa [hpermH.length_eq, hpermD.length_eq] at hlong
  · rintro ⟨htwoH, htwoD⟩
    have hf := (mem_sharedNames_iff hH hD hres).mpr ⟨exists_number htwoH, exists_number htwoD⟩
    refine ⟨hf, ?_⟩
    have hres := not_reserved hH hf
    rw [longEnough_columnOf, hH.length_readOf an hres, hD.length_readOf an hres]
    exact ⟨htwoH.trans (length_numbersOf_le h f), htwoD.trans (length_numbersOf_le d f)⟩

/-- The columns that are compared: those of two values and more in each segment. -/
def comparedColumns (an : Analysis) (H D : List Record) : List Column :=
  ((sharedNames H D).map (columnOf an H D)).filter longEnough

theorem mem_comparedColumns {c : Column} : c ∈ comparedColumns an H D ↔
    ∃ f, f ∈ sharedNames H D ∧ longEnough (columnOf an H D f) = true ∧ c = columnOf an H D f := by
  rw [comparedColumns, List.mem_filter, List.mem_map]
  constructor
  · rintro ⟨⟨f, hf, rfl⟩, hlong⟩
    exact ⟨f, hf, hlong, rfl⟩
  · rintro ⟨f, hf, hlong, rfl⟩
    exact ⟨⟨f, hf, rfl⟩, hlong⟩

theorem mem_comparedNames : f ∈ (comparedColumns an H D).map Prod.fst ↔
    f ∈ sharedNames H D ∧ longEnough (columnOf an H D f) = true := by
  rw [List.mem_map]
  constructor
  · rintro ⟨c, hc, rfl⟩
    obtain ⟨g, hg, hlong, rfl⟩ := mem_comparedColumns.mp hc
    exact ⟨hg, hlong⟩
  · rintro ⟨hf, hlong⟩
    exact ⟨columnOf an H D f, mem_comparedColumns.mpr ⟨f, hf, hlong, rfl⟩, rfl⟩

theorem nodup_comparedNames : ((comparedColumns an H D).map Prod.fst).Nodup := by
  have hsub : ((comparedColumns an H D).map Prod.fst).Sublist (((sharedNames H D).map (columnOf an H D)).map Prod.fst) :=
    List.filter_sublist.map _
  apply hsub.nodup
  simpa [Function.comp_def, columnOf] using nodup_sharedNames

theorem comparable_of_right (hright : ∀ f ∈ sharedNames H D, ColumnRight an h d H D f) :
    ∀ c ∈ comparedColumns an H D, Comparable c.2.1 ∧ Comparable c.2.2 := by
  intro c hc
  obtain ⟨f, hf, hlong, rfl⟩ := mem_comparedColumns.mp hc
  obtain ⟨_, _, ⟨_, hmeanH⟩, _, hmeanD⟩ := (hright f hf).numbers hlong
  rw [longEnough_columnOf] at hlong
  exact ⟨⟨hlong.1, an.mean_finite _ _ hmeanH⟩, ⟨hlong.2, an.mean_finite _ _ hmeanD⟩⟩

/-- Evidently and SciPy return on columns that can be compared. -/
theorem Total.compares (htotal : Total an) {columns : List Column}
    (hcomparable : ∀ c ∈ columns, Comparable c.2.1 ∧ Comparable c.2.2) :
    ∃ drift features, (columns ≠ [] → an.evidentlyDrift columns = .ok drift) ∧
      columns.mapM (compareFeature an drift) = .ok features := by
  have hdrift : ∃ drift, columns ≠ [] → an.evidentlyDrift columns = .ok drift := by
    by_cases hnone : columns = []
    · exact ⟨fun _ => ⟨.nan, .nan⟩, fun hne => absurd hnone hne⟩
    · obtain ⟨drift, hdrift⟩ := htotal.evidently columns hnone hcomparable
      exact ⟨drift, fun _ => hdrift⟩
  obtain ⟨drift, hdrift⟩ := hdrift
  have hfeatures : ∃ features, columns.mapM (compareFeature an drift) = .ok features := by
    apply mapM_total
    intro c hc
    obtain ⟨x, hx⟩ := htotal.ks2samp _ _ (hcomparable c hc).1 (hcomparable c hc).2
    exact ⟨_, by rw [compareFeature, hx]; rfl⟩
  obtain ⟨features, hfeatures⟩ := hfeatures
  exact ⟨drift, features, hdrift, hfeatures⟩

theorem compareRecords_columns (hright : ∀ f ∈ sharedNames H D, ColumnRight an h d H D f) {drift : String → Drift}
    {features : List FeatureComparison}
    (hdrift : comparedColumns an H D ≠ [] → an.evidentlyDrift (comparedColumns an H D) = .ok drift)
    (hfeatures : (comparedColumns an H D).mapM (compareFeature an drift) = .ok features) :
    compareRecords an H D = .ok features := by
  have hread : (sharedNames H D).mapM (readColumn an H D) = .ok ((sharedNames H D).map (columnOf an H D)) :=
    mapM_ok_map fun f hf => (hright f hf).read
  rw [compareRecords, hread]
  show (if comparedColumns an H D = [] then .ok [] else do
    let drift ← an.evidentlyDrift (comparedColumns an H D)
    (comparedColumns an H D).mapM (compareFeature an drift)) = _
  by_cases hnone : comparedColumns an H D = []
  · rw [if_pos hnone]
    rw [hnone] at hfeatures
    exact hfeatures
  · rw [if_neg hnone, hdrift hnone]
    exact hfeatures

theorem compared_of_numbersOnly (htotal : Total an) (hH : IsSegment h H) (hD : IsSegment d D) (hres : NoReserved h)
    (honly : NumbersOnly an h d) : ∃ features, compareRecords an H D = .ok features ∧
      ComparesNumbers an h d features := by
  have hright : ∀ f ∈ sharedNames H D, ColumnRight an h d H D f := by
    intro f hf
    obtain ⟨hh, hd⟩ := (mem_sharedNames_iff hH hD hres).mp hf
    exact columnRight hH hD (not_reserved hH hf) (honly f hh hd)
  obtain ⟨drift, features, hdrift, hfeatures⟩ := htotal.compares (comparable_of_right hright)
  have hnames : features.map (·.feature) = (comparedColumns an H D).map Prod.fst := map_feature hfeatures
  have hof : ∀ out ∈ features, ∃ f, f ∈ sharedNames H D ∧ longEnough (columnOf an H D f) = true ∧
      compareFeature an drift (columnOf an H D f) = .ok out := by
    intro out hout
    obtain ⟨c, hc, hcompared⟩ := exists_of_mem_right (mapM_ok hfeatures) hout
    obtain ⟨f, hf, hlong, rfl⟩ := mem_comparedColumns.mp hc
    exact ⟨f, hf, hlong, hcompared⟩
  refine ⟨features, compareRecords_columns hright hdrift hfeatures, hnames ▸ nodup_comparedNames, ?_,
    ⟨comparedColumns an H D, drift, hdrift, hfeatures, ?_⟩, ?_, ?_⟩
  · intro f
    rw [hnames, mem_comparedNames, longEnough_iff hH hD hres hright]
  · intro c hc
    obtain ⟨f, hf, hlong, rfl⟩ := mem_comparedColumns.mp hc
    obtain ⟨hpermH, hpermD, _⟩ := (hright f hf).numbers hlong
    exact ⟨hpermH, hpermD⟩
  · intro out hout
    obtain ⟨f, hf, hlong, hcompared⟩ := hof out hout
    obtain ⟨hname, _, _, hnH, hnD⟩ := compareFeature_ok hcompared
    obtain ⟨hpermH, hpermD, _⟩ := (hright f hf).numbers hlong
    rw [hnH, hnD, hname]
    exact ⟨hpermH.length_eq, hpermD.length_eq⟩
  · intro out hout
    obtain ⟨f, hf, hlong, hcompared⟩ := hof out hout
    obtain ⟨_, hmeanH, hmeanD, _⟩ := compareFeature_ok hcompared
    rw [hmeanH, hmeanD]
    exact ((hright f hf).numbers hlong).2.2

theorem noReserved (hown : OwnKeys h d) : NoReserved h := by
  intro f hf v hv
  obtain ⟨r, hr, hget⟩ := List.mem_filterMap.mp hv
  obtain ⟨htime, hsegment⟩ := hown _ (mem_taggedRows_left hr)
  simp only [reserved, List.mem_cons, List.not_mem_nil, or_false] at hf
  rcases hf with rfl | rfl
  · rw [htime] at hget
    cases hget
  · rw [hsegment v hget]
    rfl

end

/-! ## When the right values are compared -/

section
variable {an : Analysis} {historical drifted : VersionInfo × List DataRow}

theorem analyze_ok {merged : MergedSeries} {result : ComparisonResult}
    (ha : analyze an historical drifted = .ok (merged, result)) :
    timestampMerge an (some (loadSlice historical.1 historical.2)) (some (loadSlice drifted.1 drifted.2)) = .ok merged ∧
      compareSegments an merged = .ok result := by
  obtain ⟨_, hmerged, ha⟩ := bind_ok ha
  obtain ⟨_, hresult, ha⟩ := bind_ok ha
  cases ha
  exact ⟨hmerged, hresult⟩

theorem keys_and_numbers (hh : historical.2 ≠ []) (hd : drifted.2 ≠ []) (hright : RightValues an historical drifted) :
    OwnKeys historical.2 drifted.2 ∧ NumbersOnly an historical.2 drifted.2 := by
  obtain ⟨merged, result, ha, hrows, hright⟩ := hright
  have hown := hrows.ownKeys
  obtain ⟨hmerged, hresult⟩ := analyze_ok ha
  obtain ⟨hH, hD⟩ := segments hown (stable_merged hown (timestampMerge_ok hmerged))
  rw [compareSegments_eq rfl rfl (hH.nonempty hh) (hD.nonempty hd)] at hresult
  obtain ⟨features, hfeatures, rfl⟩ := map_ok hresult
  rw [features_summary] at hright
  exact ⟨hown, numbersOnly_of_compared hH hD (noReserved hown) hfeatures hright⟩

theorem rightValues_iff (htotal : Total an) (hh : historical.2 ≠ []) (hd : drifted.2 ≠ []) :
    RightValues an historical drifted ↔ OwnKeys historical.2 drifted.2 ∧ NumbersOnly an historical.2 drifted.2 := by
  constructor
  · exact keys_and_numbers hh hd
  · rintro ⟨hown, honly⟩
    obtain ⟨merged, hmerged⟩ := timestampMerge_total an hown historical.1 drifted.1
    obtain ⟨hH, hD⟩ := segments hown (stable_merged hown (timestampMerge_ok hmerged))
    obtain ⟨features, hfeatures, hright⟩ := compared_of_numbersOnly htotal hH hD (noReserved hown) honly
    have hresult := @compareSegments_eq an _ _ merged rfl rfl (hH.nonempty hh) (hD.nonempty hd)
    rw [hfeatures] at hresult
    have ha : analyze an historical drifted = .ok (merged,
      summary features (merged.rows.filter (inSegment historicalName)).length
        (merged.rows.filter (inSegment driftedName)).length) := by
      rw [analyze, hmerged]
      show (compareSegments an merged >>= _) = _
      rw [hresult]
      rfl
    refine ⟨merged, _, ha, mergesRows hown hmerged, ?_⟩
    rw [features_summary]
    exact hright

end

/-! ## A constant load -/

def finite? : PyFloat → Option Rat
  | .fin q => some q
  | _ => none

def exactMean (xs : List PyFloat) : PyFloat :=
  if ∀ x ∈ xs, (finite? x).isSome then .fin ((xs.filterMap finite?).sum / xs.length) else .nan

theorem exactMean_finite (xs : List PyFloat) (q : Rat) (hmean : exactMean xs = .fin q) :
    ∀ x ∈ xs, ∃ q', x = .fin q' := by
  rw [exactMean] at hmean
  split at hmean
  · rename_i hall
    intro x hx
    have hsome := hall x hx
    cases x with
    | fin q' => exact ⟨q', rfl⟩
    | _ => cases hsome
  · cases hmean

/-- What NumPy, SciPy and Evidently say of two segments of one constant. -/
def constantAnalysis : Analysis where
  less _ _ := none
  lessEq _ _ := none
  float? _ := none
  mean := exactMean
  mean_finite := exactMean_finite
  std _ := .fin 0
  ks2samp _ _ := .ok (.fin 0)
  evidentlyDrift _ := .ok fun _ => ⟨.fin 1, .fin 0⟩

theorem total_constantAnalysis : Total constantAnalysis :=
  ⟨fun _ _ _ => ⟨_, rfl⟩, fun _ _ _ _ => ⟨_, rfl⟩⟩

def cellVersion : VersionInfo := ⟨1, "v1", "historical", none, none, none⟩

def loadRow (t : Time) (v : Value) : DataRow := ⟨t, Table.empty.put "load" v⟩

theorem ownKeys_load {h d : List DataRow} (hall : ∀ r ∈ h ++ d, ∃ t v, r = loadRow t v) : OwnKeys h d := by
  intro p hp
  have hmem : p.2 ∈ h ++ d := by
    rcases List.mem_append.mp hp with hp | hp
    · obtain ⟨r, hr, rfl⟩ := List.mem_map.mp hp
      exact List.mem_append_left _ hr
    · obtain ⟨r, hr, rfl⟩ := List.mem_map.mp hp
      exact List.mem_append_right _ hr
  obtain ⟨t, v, hr⟩ := hall _ hmem
  simp [hr, loadRow, Table.get?_put, observedAt, segmentKey]

def steady : List DataRow := [loadRow 10 (.int 1), loadRow 20 (.int 1)]

theorem valuesOf_steady (f : String) : valuesOf steady f = if f = "load" then [.int 1, .int 1] else [] := by
  by_cases hf : f = "load" <;> simp [valuesOf, steady, loadRow, Table.get?_put, hf]

theorem two_lt_floatLimit : 2 < PyInt.floatLimit :=
  calc 2 < PyInt.power 2 := by decide
    _ ≤ PyInt.power 970 := PyInt.power_mono (by decide)
    _ ≤ PyInt.floatLimit := PyInt.le_floatLimit

theorem byTime_steady : byTime steady = steady := by
  apply List.mergeSort_of_pairwise
  simp [steady, loadRow]

theorem meanFits_steady : MeanFits constantAnalysis steady "load" := by
  constructor
  · intro v hv
    have hv : v = .int 1 := by simpa [valuesOf_steady] using hv
    rw [hv]
    rfl
  · rw [byTime_steady]
    exact ⟨_, rfl⟩

theorem rightValues_steady : RightValues constantAnalysis (cellVersion, steady) (cellVersion, steady) := by
  refine (rightValues_iff total_constantAnalysis (by simp [steady]) (by simp [steady])).mpr ⟨?_, ?_⟩
  · apply ownKeys_load
    simp [steady]
  · intro f hh _
    have hf : f = "load" := by
      by_contra hf
      simp [valuesOf_steady, hf] at hh
    subst hf
    refine ⟨?_, fun _ _ => ⟨meanFits_steady, meanFits_steady⟩⟩
    intro v hv
    have hv : v = .int 1 := by simpa [valuesOf_steady] using hv
    rw [hv]
    exact Nat.lt_of_le_of_lt (by decide) two_lt_floatLimit

/-- A null counts as a value of the feature. -/
theorem null_compared : ¬ ∀ (an : Analysis) (historical drifted : VersionInfo × List DataRow), Total an →
    historical.2 ≠ [] →
    drifted.2 ≠ [] → RightValues an historical drifted := by
  intro hall
  have hright := hall constantAnalysis (cellVersion, loadRow 30 .null :: steady) (cellVersion,
    steady) total_constantAnalysis (by simp)
    (by simp [steady])
  obtain ⟨_, honly⟩ := keys_and_numbers (by simp) (by simp [steady]) hright
  have hfits := honly "load" ⟨.int 1, by decide, rfl⟩ ⟨.int 1, by decide, rfl⟩
  obtain ⟨hmean, _⟩ := hfits.numbers (by decide) (by decide)
  have hnull := hmean.1 .null (by decide)
  cases hnull

end OranAdapt.SegmentComparison
