import OranAdapt.BatchTypes
import OranAdapt.VersionNames

/-!
# Scanning in batches

`DataAccess.scan` and `_iter_reference` over a text object read `k` rows at a
time, and what they come to: the timestamps and the payloads of the batches,
one after the other. A batch gives its timestamps, and the payloads of its rows
with every value in the type of the whole column. A payload is told by its
columns and what JSON holds of them, not by their order.
-/

namespace OranAdapt

namespace Payload

theorem ext_mem {p q : Payload} (h : ∀ f, f ∈ p.fields ↔ f ∈ q.fields) : p = q := by
  have hp : p.fields.Pairwise fun f g => f.1 < g.1 := List.pairwise_map.mp p.sorted
  have hq : q.fields.Pairwise fun f g => f.1 < g.1 := List.pairwise_map.mp q.sorted
  have hirrefl : ∀ f g : String × Json, f.1 < g.1 → f ≠ g := fun f g hlt heq => by simp [heq] at hlt
  apply ext
  have hperm : p.fields.Perm q.fields :=
    (List.perm_ext_iff_of_nodup (hp.imp (hirrefl _ _)) (hq.imp (hirrefl _ _))).mpr h
  refine hperm.eq_of_pairwise ?_ hp hq
  intro f g _ _ hfg hgf
  exact absurd (lt_trans hfg hgf) (lt_irrefl _)

end Payload

namespace Batches

def earliest : Option DateTime → DateTime → Option DateTime
  | none, t => some t
  | some s, t => some (min s t)

def latest : Option DateTime → DateTime → Option DateTime
  | none, t => some t
  | some s, t => some (max s t)

structure ScanState where
  hasher : RowHasher := {}
  start : Option DateTime := none
  stop : Option DateTime := none

def ScanState.add (s : ScanState) (rows : List (DateTime × Payload)) : ScanState where
  hasher := (rows.map fun r => canonicalRow r.1 r.2).foldl RowHasher.add s.hasher
  start := (rows.map Prod.fst).foldl earliest s.start
  stop := (rows.map Prod.fst).foldl latest s.stop

/-- `ReferenceScan`: what the scan found. -/
structure Scan where
  columns : List (String × String)
  rowCount : Nat
  dataStart : DateTime
  dataEnd : DateTime
  contentHash : String

def emptyObject (uri : String) : AdaptationError :=
  artifactError "refusing to register an empty data object" [("uri", .str uri)]

def ScanState.finish (sha256 : String → String) (uri : String) (columns : List (String × String)) (s : ScanState) :
    Except AdaptationError Scan :=
  match s.start, s.stop with
  | some start, some stop =>
    if s.hasher.rows = 0 then .error (emptyObject uri)
    else .ok ⟨columns, s.hasher.rows, start, stop, sha256 s.hasher.final⟩
  | _, _ => .error (emptyObject uri)

def Pandas.widen (pd : Pandas) (tc : String) (columns : List (String × String)) (frame : DataFrame) :
    Except AdaptationError (List (String × String)) := do
  let (payload, _) ← pd.splitTimestamps frame tc
  unifyDtypes columns payload

namespace TextObject

variable (sha256 : String → String) (pd : Pandas) (k : Nat) (tc : String) (o : TextObject)

/-- The first pass: the types of the columns. -/
def columnsOf : Except AdaptationError (List (String × String)) := (o.iterFrames pd k).foldlM (pd.widen tc) []

def rowsOf (columns : List (String × String)) : Except AdaptationError (List (DateTime × Payload)) := do
  let parts ← (o.iterFrames pd k).mapM (pd.batchRows tc columns)
  pure parts.flatten

def scan (uri : String) : Except AdaptationError Scan := do
  let columns ← o.columnsOf pd k tc
  let s ← (o.iterFrames pd k).foldlM (fun (s : ScanState) frame => do
    let rows ← pd.batchRows tc columns frame
    pure (s.add rows)) {}
  s.finish sha256 uri columns

/-- The adapter of a store that holds the object. -/
def port (stat : SourceStat) : DatasetPort where
  stat _ := .ok stat
  inferFormat _ _ := .ok o.format
  columns _ _ column := o.columnsOf pd k column
  rows _ _ column columns := o.rowsOf pd k column columns

/-- Access to it with `DATASET_CHUNK_ROWS = k`, and every read hashed. -/
def access (stat : SourceStat) : DataAccess where
  port := o.port pd k stat
  timeColumn := tc
  verifyOnRead := .hash

end TextObject

def Pandas.written (pd : Pandas) (frame : DataFrame) : Frame :=
  ⟨frame.columns.map fun c => (c.1, c.2.name), frame.rows.map pd.payload⟩

/-- `_timestamps` with a timestamp column. A `NaT` is kept there, and no row of it can be stored. -/
def Pandas.timestamps (pd : Pandas) (frame : DataFrame) (column : String) :
    Except AdaptationError (Frame × List DateTime) :=
  if column ∉ frame.names then
    .error (artifactError ("timestamp column '" ++ column ++ "' not in data") [("available_columns", .strs frame.names)])
  else
    match (pd.toDatetime (frame.values column)).bind (·.mapM id) with
    | none => .error (pythonError "ValueError")
    | some stamps => .ok (pd.written (frame.drop column), stamps)

theorem Pandas.timestamps_length (pd : Pandas) (frame : DataFrame) (column : String) : ∀ features observedAt,
    pd.timestamps frame column = .ok (features, observedAt) →
      features.records.length = (pd.written frame).records.length := by
  intro features observedAt h
  unfold timestamps at h
  split at h
  · cases h
  · split at h
    · cases h
    · cases h
      simp [written, DataFrame.drop]

namespace TextObject

variable (sha256 : String → String) (pd : Pandas) (tc : String) (o : TextObject)

/-- `pd.read_csv` or `pd.read_json` without a chunk size. -/
def whole : DataFrame := pd.frame (o.names (o.rows pd)) (o.rows pd)

def inline (dataset version : String) (kind : DataKind) : IngestCall where
  dataset := dataset
  version := version
  frame := pd.written (o.whole pd)
  kind := kind
  timestamps := pd.timestamps (o.whole pd) tc
  rowsKept := pd.timestamps_length (o.whole pd) tc

def inlineHash (dataset version : String) (kind : DataKind) : Except AdaptationError String := do
  let call := o.inline pd tc dataset version kind
  let (features, observedAt) ← call.split
  pure (call.digest sha256 features observedAt)

end TextObject

/-! ## Payloads -/

namespace Pandas

variable (pd : Pandas)

def payloadOf (ns : List String) (g : String → Value) : Payload := pd.payload (ns.map fun c => (c, g c))

variable {pd} {ns ns' : List String} {g g' : String → Value}

theorem mem_payloadOf (hn : ns.Nodup) {f : String × Json} :
    f ∈ (pd.payloadOf ns g).fields ↔ f.1 ∈ ns ∧ f.2 = pd.json (g f.1) := by
  induction ns generalizing f with
  | nil => simp [payloadOf, payload]
  | cons c ns ih =>
    rw [List.nodup_cons] at hn
    have hnot : c ∉ (pd.payloadOf ns g).keys := by
      intro hmem
      obtain ⟨f, hf, hfc⟩ := List.mem_map.mp hmem
      exact hn.1 (hfc ▸ ((ih hn.2).mp hf).1)
    have hfields : (pd.payloadOf (c :: ns) g).fields =
        Payload.insertField c (pd.json (g c)) (pd.payloadOf ns g).fields := by
      change (pd.payloadOf ns g).withDefault c (pd.json (g c)) = _
      rw [Payload.withDefault, if_neg hnot]
    rw [hfields, Payload.mem_insertField, ih hn.2, List.mem_cons]
    constructor
    · rintro (rfl | ⟨hmem, hval⟩)
      · exact ⟨.inl rfl, rfl⟩
      · exact ⟨.inr hmem, hval⟩
    · rintro ⟨rfl | hmem, hval⟩
      · exact .inl (Prod.ext rfl hval)
      · exact .inr ⟨hmem, hval⟩

theorem mem_keys_payloadOf (hn : ns.Nodup) {c : String} : c ∈ (pd.payloadOf ns g).keys ↔ c ∈ ns := by
  constructor
  · intro h
    obtain ⟨f, hf, rfl⟩ := List.mem_map.mp h
    exact ((mem_payloadOf hn).mp hf).1
  · intro h
    have hmem : (c, pd.json (g c)) ∈ (pd.payloadOf ns g).fields := (mem_payloadOf hn).mpr ⟨h, rfl⟩
    exact List.mem_map_of_mem (f := Prod.fst) hmem

theorem payloadOf_eq_iff (hn : ns.Nodup) (hn' : ns'.Nodup) (hns : ∀ c, c ∈ ns ↔ c ∈ ns') :
    pd.payloadOf ns g = pd.payloadOf ns' g' ↔ ∀ c ∈ ns, pd.json (g c) = pd.json (g' c) := by
  constructor
  · intro h c hc
    have hmem : (c, pd.json (g c)) ∈ (pd.payloadOf ns g).fields := (mem_payloadOf hn).mpr ⟨hc, rfl⟩
    rw [h] at hmem
    exact ((mem_payloadOf hn').mp hmem).2
  · intro h
    apply Payload.ext_mem
    intro f
    rw [mem_payloadOf hn, mem_payloadOf hn', hns]
    constructor
    · intro hf
      exact ⟨hf.1, hf.2.trans (h _ ((hns _).mpr hf.1))⟩
    · intro hf
      exact ⟨hf.1, hf.2.trans (h _ ((hns _).mpr hf.1)).symm⟩

end Pandas

/-! ## Frames -/

section
variable (pd : Pandas) {ns : List String} {batch whole : List FieldRow} {tc c : String}

theorem lookup_map_self {α : Type} (ns : List String) (g : String → α) (c : String) :
    (ns.map fun c => (c, g c)).lookup c = if c ∈ ns then some (g c) else none := by
  induction ns with
  | nil => simp
  | cons n ns ih =>
    rw [List.map_cons, List.lookup_cons, ih]
    by_cases h : c = n
    · simp [h]
    · simp [h, beq_false_of_ne h]

@[simp] theorem frame_names : (pd.frame ns batch).names = ns := by
  simp [DataFrame.names, Pandas.frame, Function.comp_def]

theorem frame_dtype (h : c ∈ ns) : (pd.frame ns batch).dtype c = some (infer (column batch c)).name := by
  change ((ns.map fun c => (c, infer (column batch c))).lookup c).map Dtype.name = _
  rw [lookup_map_self, if_pos h]
  rfl

theorem frame_values (h : c ∈ ns) :
    (pd.frame ns batch).values c = batch.map fun row => pd.load (column batch c) (field row c) := by
  unfold DataFrame.values Pandas.frame
  rw [List.map_map]
  apply List.map_congr_left
  intro row _
  simp only [Function.comp_apply]
  rw [lookup_map_self ns (fun c => pd.load (column batch c) (field row c)), if_pos h]
  rfl

theorem frame_drop : (pd.frame ns batch).drop tc = pd.frame (ns.filter (· ≠ tc)) batch := by
  simp [DataFrame.drop, Pandas.frame, List.filter_map, Function.comp_def]

/-! ## Timestamps -/

def Pandas.stampsOf (ns : List String) (tc : String) (batch : List FieldRow) : Option (List DateTime) :=
  if tc ∈ ns then
    (pd.toDatetime (batch.map fun row => pd.load (column batch tc) (field row tc))).bind (·.mapM id)
  else none

variable {pd} {stamps : List DateTime}

theorem length_mapM {α β : Type} {f : α → Option β} : ∀ {l : List α} {bs : List β}, l.mapM f = some bs →
    bs.length = l.length := by
  intro l
  induction l with
  | nil =>
    intro bs h
    cases h
    rfl
  | cons a l ih =>
    intro bs h
    rw [List.mapM_cons] at h
    obtain ⟨b, -, h⟩ := Option.bind_eq_some_iff.mp h
    obtain ⟨bs', hbs', h⟩ := Option.bind_eq_some_iff.mp h
    cases h
    simp [ih hbs']

theorem length_stampsOf (h : pd.stampsOf ns tc batch = some stamps) : stamps.length = batch.length := by
  unfold Pandas.stampsOf at h
  by_cases htc : tc ∈ ns
  · rw [if_pos htc] at h
    obtain ⟨read, hread, hall⟩ := Option.bind_eq_some_iff.mp h
    rw [length_mapM hall, pd.length_toDatetime hread, List.length_map]
  · rw [if_neg htc] at h
    cases h

theorem mem_of_stampsOf (h : pd.stampsOf ns tc batch = some stamps) : tc ∈ ns := by
  unfold Pandas.stampsOf at h
  by_cases htc : tc ∈ ns
  · exact htc
  · rw [if_neg htc] at h
    cases h

theorem split_some (h : pd.stampsOf ns tc batch = some stamps) :
    pd.splitTimestamps (pd.frame ns batch) tc = .ok (pd.frame (ns.filter (· ≠ tc)) batch, stamps) := by
  have htc := mem_of_stampsOf h
  unfold Pandas.stampsOf at h
  rw [if_pos htc] at h
  obtain ⟨read, hread, hall⟩ := Option.bind_eq_some_iff.mp h
  unfold Pandas.splitTimestamps
  rw [if_neg (by simpa using htc), frame_values pd htc, hread]
  simp only [hall, frame_drop]

theorem split_ok {split : DataFrame × List DateTime} (h : pd.splitTimestamps (pd.frame ns batch) tc = .ok split) :
    ∃ stamps, pd.stampsOf ns tc batch = some stamps ∧ split = (pd.frame (ns.filter (· ≠ tc)) batch, stamps) := by
  unfold Pandas.splitTimestamps at h
  unfold Pandas.stampsOf
  by_cases htc : tc ∈ ns
  · rw [if_neg (by simpa using htc), frame_values pd htc] at h
    rw [if_pos htc]
    cases hread : pd.toDatetime (batch.map fun row => pd.load (column batch tc) (field row tc)) with
    | none =>
      rw [hread] at h
      cases h
    | some read =>
      simp only [hread] at h
      rw [Option.bind_some]
      cases hall : read.mapM id with
      | none =>
        rw [hall] at h
        cases h
      | some stamps =>
        rw [hall] at h
        cases h
        exact ⟨stamps, rfl, by rw [frame_drop]⟩
  · rw [if_pos (by simpa using htc)] at h
    cases h

/-! ## Rows -/

structure Types (whole : List FieldRow) (ns : List String) (columns : List (String × String)) : Prop where
  nodup : (columns.map Prod.fst).Nodup
  names : ∀ c, c ∈ columns.map Prod.fst ↔ c ∈ ns
  types : ∀ c ∈ columns, c.2 = (infer (column whole c.1)).name

def Pandas.settledRow (pd : Pandas) (ns : List String) (whole batch : List FieldRow) (row : FieldRow) : Payload :=
  pd.payloadOf ns fun c => pd.settled (column whole c) (column batch c) (field row c)

theorem cast_eq (pd : Pandas) {row : FieldRow} (hsub : ∀ row ∈ batch, row ∈ whole)
    (hrow : row ∈ batch) (hc : c ∈ ns) :
    pd.cast (pd.frame ns batch) (ns.map fun c => (c, pd.load (column batch c) (field row c)))
      (c, (infer (column whole c)).name) = .ok (c, pd.settled (column whole c) (column batch c) (field row c)) := by
  have hfields : ∀ f ∈ column batch c, f ∈ column whole c := by
    intro f hf
    obtain ⟨r, hr, rfl⟩ := List.mem_map.mp hf
    exact List.mem_map_of_mem (hsub r hr)
  have hsettled := pd.cast_settled hfields (List.mem_map_of_mem (f := (field · c)) hrow)
  unfold Pandas.cast
  simp only [frame_dtype pd hc, lookup_map_self ns (fun c => pd.load (column batch c) (field row c)), if_pos hc,
    Option.getD_some, Option.some.injEq]
  by_cases heq : infer (column batch c) = infer (column whole c)
  · rw [if_pos heq, Option.some.injEq] at hsettled
    rw [if_pos (by rw [heq]), hsettled]
  · rw [if_neg heq] at hsettled
    rw [if_neg (fun h => heq (Dtype.name_inj h)), hsettled]

theorem conform_eq {columns : List (String × String)} (htypes : Types whole ns columns) (hn : ns.Nodup)
    (hsub : ∀ row ∈ batch, row ∈ whole) : pd.conform (pd.frame ns batch) columns =
      .ok (batch.map fun row => (columns.map Prod.fst).map fun c =>
        (c, pd.settled (column whole c) (column batch c) (field row c))) := by
  have hperm : (columns.map Prod.fst).Perm ns := (List.perm_ext_iff_of_nodup htypes.nodup hn).mpr htypes.names
  have hlength : columns.length = (pd.frame ns batch).columns.length := by
    have := hperm.length_eq
    simpa [Pandas.frame] using this
  have hknown : ¬∃ c ∈ columns, c.1 ∉ (pd.frame ns batch).names := by
    rintro ⟨c, hc, hnot⟩
    rw [frame_names] at hnot
    exact hnot ((htypes.names _).mp (List.mem_map_of_mem hc))
  unfold Pandas.conform
  rw [if_neg (by simp only [hlength, ne_eq, not_true_eq_false, or_false]; exact hknown)]
  change (batch.map _).mapM _ = _
  rw [List.mapM_map]
  apply mapM_ok_map
  intro row hrow
  rw [List.map_map]
  apply mapM_ok_map
  intro c hc
  have hname : c.1 ∈ ns := (htypes.names _).mp (List.mem_map_of_mem hc)
  have hcast := cast_eq pd hsub hrow hname
  rw [← htypes.types c hc] at hcast
  exact hcast

end

end Batches

end OranAdapt
