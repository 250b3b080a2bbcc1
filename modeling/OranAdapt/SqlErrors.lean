import OranAdapt.SqlFingerprints
import OranAdapt.StreamErrors

/-!
# Errors of database references

When a database reference is read or refused by an error of the framework:
what the URI, the values of its filters, the database and the rows of the
answer have to be.
-/

namespace OranAdapt

namespace SqlDataset

open Datasets Declared

/-! ## The URI -/

section
variable {rules : TextRules} {a : SqlDataset} {uri : String} {parts : UrlSplit.Reference}

/-- A URI of the adapter that has no credentials has a port that is a number, or none. -/
def PortReads (a : SqlDataset) (parts : UrlSplit.Reference) : Prop :=
  String.ofList parts.scheme = a.scheme → parts.username.getD [] = [] → parts.password.getD [] = [] →
    parts.port? ≠ none

theorem keeps_parseTarget : Keeps NotAllowed (parseTarget rules a uri parts) ↔ PortReads a parts := by
  simp only [parseTarget]
  rw [keeps_bind_raiseIf (notAllowed_notAllowed ..), keeps_bind_raiseIf (notAllowed_notAllowed ..),
    keeps_bind_orRaise (not_notAllowed_python _)]
  simp only [not_not, not_or, and_imp, PortReads]
  constructor
  · intro h hscheme husername hpassword
    exact (h hscheme husername hpassword).1
  · intro h hscheme husername hpassword
    refine ⟨h hscheme husername hpassword, ?_⟩
    intro port _
    iterate 5 rw [keeps_bind_raiseIf (notAllowed_notAllowed ..)]
    simp

theorem keeps_parseQuery {source relation : String} {pairs : List (List Char × List Char)} :
    Keeps NotAllowed (parseQuery rules a uri source relation pairs) := by
  simp only [parseQuery]
  split
  · exact keeps_error.mpr (notAllowed_notAllowed ..)
  · rw [keeps_bind_raiseIf (by exact notAllowed_notAllowed ..), keeps_bind_raiseIf (notAllowed_notAllowed ..)]
    simp

theorem keeps_check (hparts : UrlSplit.reference? rules.nfkc uri.toList = some parts) :
    Keeps NotAllowed (check rules a uri) ↔ PortReads a parts := by
  rw [check, keeps_map, parse, keeps_bind_orRaise (not_notAllowed_python _), hparts]
  simp only [ne_eq, reduceCtorEq, not_false_eq_true, true_and, Option.some.injEq, forall_eq']
  rw [keeps_bind, keeps_parseTarget, and_iff_left]
  intro target _
  split
  · exact keeps_parseQuery
  · exact keeps_error.mpr (notAllowed_notAllowed ..)

end

/-! ## Values of filters -/

section
variable {ν : Type} {rules : TextRules} {conv : Conversions ν}

def Unreadable (conv : Conversions ν) (v : String × SqlType) : Prop := v.2 = some .decimal ∧ conv.decimal? v.1 = none

def RefusedValue (conv : Conversions ν) (v : String × SqlType) : Prop :=
  match v.2 with
  | some .int => PyInt.int? v.1 = none
  | some .float => conv.float? v.1 = none
  | some .datetime => conv.datetime? (isoText v.1) = none
  | some .date => conv.date? v.1 = none
  | _ => False

theorem keeps_coerce (v : String × SqlType) : Keeps Framework (coerce rules conv v.1 v.2) ↔ ¬ Unreadable conv v := by
  obtain ⟨value, type⟩ := v
  cases type with
  | none => simp [coerce, Unreadable]
  | some t =>
    cases t with
    | decimal =>
      simp only [coerce, Unreadable, true_and]
      rw [keeps_map, keeps_orRaise (not_framework_python _)]
    | int => cases h : PyInt.int? value <;> simp [coerce, Unreadable, h]
    | float => cases h : conv.float? value <;> simp [coerce, Unreadable, h]
    | datetime => cases h : conv.datetime? (isoText value) <;> simp [coerce, Unreadable, h]
    | date => cases h : conv.date? value <;> simp [coerce, Unreadable, h]
    | bool => simp [coerce, Unreadable]
    | other name => simp [coerce, Unreadable]

theorem refuses_coerce {v : String × SqlType} (h : ¬ Unreadable conv v) :
    Refuses Framework (coerce rules conv v.1 v.2) ↔ RefusedValue conv v := by
  obtain ⟨value, type⟩ := v
  cases type with
  | none => simp [coerce, RefusedValue]
  | some t =>
    cases t with
    | decimal =>
      have hread : conv.decimal? value ≠ none := fun hnone => h ⟨rfl, hnone⟩
      obtain ⟨x, hx⟩ := Option.ne_none_iff_exists'.mp hread
      simp [coerce, RefusedValue, refuses_map, orRaise, hx]
    | int => cases h : PyInt.int? value <;> simp [coerce, RefusedValue, h]
    | float => cases h : conv.float? value <;> simp [coerce, RefusedValue, h]
    | datetime => cases h : conv.datetime? (isoText value) <;> simp [coerce, RefusedValue, h]
    | date => cases h : conv.date? value <;> simp [coerce, RefusedValue, h]
    | bool => simp [coerce, RefusedValue]
    | other name => simp [coerce, RefusedValue]

def boundOn (types : Table String SqlType) (q : Query) (bound : Option String) : List (String × SqlType) :=
  if q.timeColumn ∈ types.keys ∧ bound.getD "" ≠ "" then [(bound.getD "", (types.get? q.timeColumn).getD none)] else []

/-- The values that are compared, each with the type of its column, in the order they are read in. -/
def compared (types : Table String SqlType) (q : Query) : List (String × SqlType) :=
  (q.filters.flatMap fun f => f.2.map fun v => (v, (types.get? f.1).getD none)) ++
    boundOn types q q.start ++ boundOn types q q.stop

/-- No value that raises stands in front of the first one that is refused. -/
def ValuesRead (conv : Conversions ν) (values : List (String × SqlType)) : Prop :=
  ∀ front v back, values = front ++ v :: back → (∀ w ∈ front, ¬ RefusedValue conv w) → ¬ Unreadable conv v

variable (rules conv) in
def readAll (values : List (String × SqlType)) : Except AdaptationError Unit :=
  values.forM fun v => raised (coerce rules conv v.1 v.2)

theorem keeps_readAll {values : List (String × SqlType)} : Keeps Framework (readAll rules conv values) ↔
    ValuesRead conv values := by
  rw [readAll, ← raised_mapM, keeps_raised]
  have h := keeps_mapM_map (d := Framework) (l := values) (f := fun v => coerce rules conv v.1 v.2) (g := id)
    (P := fun v => ¬ Unreadable conv v) (R := RefusedValue conv) (fun v _ => keeps_coerce v) fun v _ hv => refuses_coerce hv
  rwa [List.map_id] at h

theorem readAll_append {values more : List (String × SqlType)} :
    readAll rules conv (values ++ more) = readAll rules conv values >>= fun _ => readAll rules conv more := List.forM_append

theorem raised_filterCondition {types : Table String SqlType} {f : String × List String} :
    raised (filterCondition rules conv types f) = readAll rules conv (f.2.map fun v => (v, (types.get? f.1).getD none)) := by
  have hmap : readAll rules conv (f.2.map fun v => (v, (types.get? f.1).getD none)) =
      f.2.forM fun v => raised (coerce rules conv v ((types.get? f.1).getD none)) := List.forM_map
  rw [hmap, ← raised_mapM, filterCondition, raised_bind_const (y := pure ())]
  · cases f.2.mapM fun v => coerce rules conv v ((types.get? f.1).getD none) <;> rfl
  · intro coerced
    split <;> rfl

theorem raised_timeCondition {types : Table String SqlType} {q : Query} {bound : Option String}
    (toCondition : Param ν → Condition ν) :
    raised (timeCondition rules conv types q bound toCondition) = readAll rules conv (boundOn types q bound) := by
  unfold timeCondition boundOn
  split
  · show _ = raised (coerce rules conv _ _) >>= fun _ => pure ()
    cases coerce rules conv (bound.getD "") ((types.get? q.timeColumn).getD none) <;> rfl
  · rfl

theorem keeps_select {types : Table String SqlType} {q : Query} {selected : List String} :
    Keeps Framework (select rules conv types q selected) ↔ ValuesRead conv (compared types q) := by
  have hfilters : raised (q.filters.mapM (filterCondition rules conv types)) =
      readAll rules conv (q.filters.flatMap fun f => f.2.map fun v => (v, (types.get? f.1).getD none)) := by
    rw [raised_mapM]
    simp only [raised_filterCondition]
    exact forM_flatMap.symm
  have hselect : raised (select rules conv types q selected) = readAll rules conv (compared types q) := by
    rw [compared, readAll_append, readAll_append, ← hfilters, ← raised_timeCondition (.ge q.timeColumn),
      ← raised_timeCondition (.le q.timeColumn)]
    unfold select
    cases q.filters.mapM (filterCondition rules conv types) with
    | error e => rfl
    | ok filters =>
      cases timeCondition rules conv types q q.start (.ge q.timeColumn) with
      | error e => rfl
      | ok start =>
        cases timeCondition rules conv types q q.stop (.le q.timeColumn) with
        | error e => rfl
        | ok stop => rfl
  rw [← keeps_raised, hselect, keeps_readAll]

end

/-! ## Rows -/

mutual

theorem not_refuses_dumps : ∀ v : DbValue, ¬ Refuses Framework (dumps v)
  | .null => by simp [dumps]
  | .bool b => by simp [dumps]
  | .int n => by
    rw [dumps, strInt]
    split
    · exact not_refuses_ok _
    · exact not_framework_python _ ∘ refuses_error.mp
  | .float r => by simp [dumps]
  | .str s => by simp [dumps]
  | .list items => by
    rw [dumps, refuses_bind]
    intro h
    rcases h with h | ⟨_, _, h⟩
    · exact not_refuses_mapM (f := id) (not_refuses_dumpsItems items) h
    · exact not_refuses_ok _ h
  | .dict fields => by
    rw [dumps, refuses_bind]
    intro h
    rcases h with h | ⟨_, _, h⟩
    · apply not_refuses_mapM _ h
      intro p hp
      rw [refuses_map]
      exact not_refuses_dumpsFields fields p (List.mem_mergeSort.mp hp)
    · exact not_refuses_ok _ h
  | .decimal _ | .moment _ | .bytes _ | .other _ => by
    rw [dumps]
    exact not_framework_python _ ∘ refuses_error.mp
    all_goals simp

theorem not_refuses_dumpsItems : ∀ items : List DbValue, ∀ x ∈ dumpsItems items, ¬ Refuses Framework x
  | [] => by simp [dumpsItems]
  | v :: vs => by
    rw [dumpsItems]
    intro x hx
    rcases List.mem_cons.mp hx with rfl | hx
    · exact not_refuses_dumps v
    · exact not_refuses_dumpsItems vs x hx

theorem not_refuses_dumpsFields : ∀ fields : List (String × DbValue), ∀ p ∈ dumpsFields fields,
    ¬ Refuses Framework p.2
  | [] => by simp [dumpsFields]
  | (k, v) :: fs => by
    rw [dumpsFields]
    intro p hp
    rcases List.mem_cons.mp hp with rfl | hp
    · exact not_refuses_dumps v
    · exact not_refuses_dumpsFields fs p hp

end

theorem not_refuses_cell (v : DbValue) : ¬ Refuses Framework (cell v) := by
  unfold cell
  split
  case h_4 => exact not_refuses_dumps _
  case h_5 => exact not_refuses_dumps _
  case h_8 n =>
    rw [strInt]
    split
    · exact not_refuses_ok _
    · exact not_framework_python _ ∘ refuses_error.mp
  all_goals exact not_refuses_ok _

theorem keeps_cell {v : DbValue} : Keeps Framework (cell v) ↔ Prints v := by
  constructor
  · intro h
    exact ok_of_keeps h (not_refuses_cell v)
  · intro h
    rw [cell_of_prints h]
    exact keeps_ok _

section
variable {uri : String}

def Driven {α : Type} (answer : Except DriverError α) : Prop := ∀ name, answer ≠ .error (.raised name)

theorem keeps_driver {α : Type} {answer : Except DriverError α} : Keeps Framework (driver uri answer) ↔
    Driven answer := by
  cases answer with
  | ok a => simp [driver, Driven]
  | error e =>
    cases e with
    | dbapi orig => simp [driver, Driven, dataSourceUnavailable]
    | raised name => simpa [driver, Driven] using not_framework_python name

theorem driver_eq_ok {α : Type} {answer : Except DriverError α}
    {x : α} : driver uri answer = .ok x ↔ answer = .ok x := by
  constructor
  · exact driver_ok
  · intro h
    rw [h]
    rfl

theorem keeps_bind_driver {α β : Type} {answer : Except DriverError α} {f : α → Except AdaptationError β} :
    Keeps Framework (driver uri answer >>= f) ↔ Driven answer ∧ ∀ x, answer = .ok x → Keeps Framework (f x) := by
  rw [keeps_bind, keeps_driver]
  simp only [driver_eq_ok]

/-- The row is read and its values are written, unless the driver raises an error of its own. -/
def RowReads (row : ResultRow) : Prop := Driven row ∧ ∀ values, row = .ok values → ∀ v ∈ values, Prints v

theorem keeps_row {row : ResultRow} : Keeps Framework (driver uri row >>= fun values => values.mapM cell) ↔
    RowReads row := by
  rw [keeps_bind_driver, RowReads]
  simp only [keeps_mapM_of_not_refuses fun v _ => not_refuses_cell v, keeps_cell]

/-- So many rows behind the `j` rows before them fill their last chunk. -/
def ChunkEnds (j : Nat) (front : List (List DbValue)) : Prop := front ≠ [] ∧ (j + front.length) % rowsPerChunk = 0

/-- The rows are read as long as the chunks before them fit, and the machine takes each chunk that
fits. The rows come behind `j` others, and `size` says how many bytes are written behind so many
of them. -/
structure RowsRead (disk : Nat → Option String) (maxBytes : Nat) (size : List (List DbValue) → Nat)
    (j : Nat) (rows : List ResultRow) : Prop where
  reads : ∀ front row back, rows = front.map .ok ++ row :: back → (∀ r ∈ front, ∀ v ∈ r, Prints v) →
    (∀ early late, front = early ++ late → ChunkEnds j early → size early ≤ maxBytes) → RowReads row
  writes : ∀ front back, rows = front.map .ok ++ back → (∀ r ∈ front, ∀ v ∈ r, Prints v) →
    ChunkEnds j front ∨ back = [] →
    size front ≤ maxBytes → disk (size front) = none

variable {disk : Nat → Option String} {maxBytes j : Nat} {size : List (List DbValue) → Nat}
  {rows : List ResultRow} {values : List DbValue}

theorem chunkEnds_cons {front : List (List DbValue)} :
    ChunkEnds j (values :: front) ↔ front = [] ∧ (j + 1) % rowsPerChunk = 0 ∨ ChunkEnds (j + 1) front := by
  have hlength : j + 1 + front.length = j + (values :: front).length := by
    rw [List.length_cons]
    omega
  unfold ChunkEnds
  rw [hlength]
  cases front with
  | nil => simp
  | cons first front => simp

theorem rowsRead_cons (hvalues : ∀ v ∈ values, Prints v) (hmono : ∀ front, size [values] ≤ size (values :: front)) :
    RowsRead disk maxBytes size j (.ok values :: rows) ↔
      ((j + 1) % rowsPerChunk = 0 → size [values] ≤ maxBytes → disk (size [values]) = none) ∧
      (((j + 1) % rowsPerChunk = 0 → size [values] ≤ maxBytes) →
        RowsRead disk maxBytes (fun front => size (values :: front)) (j + 1) rows) := by
  have hprints : ∀ {front : List (List DbValue)}, (∀ r ∈ front, ∀ v ∈ r, Prints v) →
      ∀ r ∈ values :: front, ∀ v ∈ r, Prints v := by
    intro front hfront r hr
    rcases List.mem_cons.mp hr with rfl | hr
    · exact hvalues
    · exact hfront r hr
  constructor
  · intro h
    refine ⟨?_, ?_⟩
    · intro hend
      exact h.writes [values] rows rfl (hprints (by simp)) (.inl (chunkEnds_cons.mpr (.inl ⟨rfl, hend⟩)))
    · intro hfits
      refine ⟨?_, ?_⟩
      · intro front row back hl hfront hearly
        apply h.reads (values :: front) row back (by rw [hl, List.map_cons, List.cons_append]) (hprints hfront)
        intro early late hsplit hend
        cases early with
        | nil => exact absurd rfl hend.1
        | cons first early =>
          obtain ⟨rfl, htail⟩ := List.cons.inj hsplit
          rcases chunkEnds_cons.mp hend with ⟨rfl, hone⟩ | hend
          · exact hfits hone
          · exact hearly early late htail hend
      · intro front back hl hfront hend
        apply h.writes (values :: front) back (by rw [hl, List.map_cons, List.cons_append]) (hprints hfront)
        exact hend.imp_left fun hend => chunkEnds_cons.mpr (.inr hend)
  · intro h
    obtain ⟨hfirst, hrest⟩ := h
    refine ⟨?_, ?_⟩
    · intro front row back hl hfront hearly
      cases front with
      | nil =>
        obtain ⟨rfl, _⟩ := List.cons.inj hl
        refine ⟨?_, ?_⟩
        · intro name hraised
          cases hraised
        · intro values' hok
          cases hok
          exact hvalues
      | cons first front =>
        obtain ⟨hok, htail⟩ := List.cons.inj hl
        cases hok
        have hfits : (j + 1) % rowsPerChunk = 0 → size [values] ≤ maxBytes := by
          intro hend
          exact hearly [values] front rfl (chunkEnds_cons.mpr (.inl ⟨rfl, hend⟩))
        apply (hrest hfits).reads front row back htail fun r hr => hfront r (.tail _ hr)
        intro early late hsplit hend
        exact hearly (values :: early) late (by rw [hsplit, List.cons_append]) (chunkEnds_cons.mpr (.inr hend))
    · intro front back hl hfront hend hle
      cases front with
      | nil =>
        rcases hend with hend | hend
        · exact absurd rfl hend.1
        · rw [hend] at hl
          cases hl
      | cons first front =>
        obtain ⟨hok, htail⟩ := List.cons.inj hl
        cases hok
        have hfits := (hmono front).trans hle
        by_cases hone : front = [] ∧ (j + 1) % rowsPerChunk = 0
        · obtain ⟨rfl, hone⟩ := hone
          exact hfirst hone hle
        · apply (hrest fun _ => hfits).writes front back htail fun r hr => hfront r (.tail _ hr)
          · rcases hend with hend | hend
            · exact .inl ((chunkEnds_cons.mp hend).resolve_left hone)
            · exact .inr hend
          · exact hle

/-- The bytes behind these rows, where so much was written and so much is held back. -/
def sizeBehind (content : Bytes) (buffer : List Char) (front : List (List DbValue)) : Nat :=
  (content ++ encode (buffer ++ CsvText.lines (front.map fun r => r.map textOf))).length

theorem sizeBehind_cons (content : Bytes) (buffer : List Char) (front : List (List DbValue)) :
    sizeBehind content buffer (values :: front) = sizeBehind content (buffer ++ CsvText.line (values.map textOf)) front := by
  have hlines : CsvText.lines ((values :: front).map fun r => r.map textOf) =
      CsvText.line (values.map textOf) ++ CsvText.lines (front.map fun r => r.map textOf) := List.flatMap_cons
  rw [sizeBehind, sizeBehind, hlines, List.append_assoc]

theorem sizeBehind_flushed (content : Bytes) (buffer : List Char) (front : List (List DbValue)) :
    sizeBehind (content ++ encode buffer) [] front = sizeBehind content buffer front := by
  rw [sizeBehind, sizeBehind, List.nil_append, encode_append, List.append_assoc]

theorem sizeBehind_nil (content : Bytes) (buffer : List Char) :
    sizeBehind content buffer [] = (content ++ encode buffer).length := by
  simp [sizeBehind, CsvText.lines]

theorem sizeBehind_mono (content : Bytes) (buffer : List Char) (front : List (List DbValue)) :
    sizeBehind content buffer [values] ≤ sizeBehind content buffer (values :: front) := by
  rw [sizeBehind_cons, sizeBehind_cons, sizeBehind_nil, sizeBehind, encode_append _ (CsvText.lines _)]
  simp only [List.length_append]
  omega

theorem rowsRead_of_error {row : ResultRow} {e : AdaptationError}
    (h : (driver uri row >>= fun values => values.mapM cell) = .error e) :
    RowsRead disk maxBytes size j (row :: rows) ↔ RowReads row := by
  have hprinted : ∀ values, row = .ok values → ¬ ∀ v ∈ values, Prints v := by
    intro values hrow hvalues
    have : (driver uri row >>= fun values => values.mapM cell) = .ok (values.map textOf) := by
      rw [hrow]
      exact mapM_ok_map fun v hv => cell_of_prints (hvalues v hv)
    rw [h] at this
    cases this
  constructor
  · intro hrows
    refine hrows.reads [] row rows rfl (by simp) ?_
    intro early late hsplit hend
    exact absurd (List.append_eq_nil_iff.mp hsplit.symm).1 hend.1
  · intro hrow
    refine ⟨?_, ?_⟩
    · intro front row' back hl hfront _
      cases front with
      | nil =>
        obtain ⟨rfl, _⟩ := List.cons.inj hl
        exact hrow
      | cons first front => exact absurd (hfront first (.head _)) (hprinted first (List.cons.inj hl).1)
    · intro front back hl hfront hend
      cases front with
      | nil =>
        rcases hend with hend | hend
        · exact absurd rfl hend.1
        · rw [hend] at hl
          cases hl
      | cons first front => exact absurd (hfront first (.head _)) (hprinted first (List.cons.inj hl).1)

theorem rowsRead_nil : RowsRead disk maxBytes size j [] ↔ (size [] ≤ maxBytes → disk (size []) = none) := by
  constructor
  · intro h
    exact h.writes [] [] rfl (by simp) (.inr rfl)
  · intro h
    refine ⟨?_, ?_⟩
    · intro front row back hl
      simp at hl
    · intro front back hl _ _
      obtain ⟨hfront, _⟩ := List.append_eq_nil_iff.mp hl.symm
      rw [List.map_eq_nil_iff.mp hfront]
      exact h

theorem keeps_rowChunks {e : AdaptationError} (he : Framework e) {content : Bytes}
    (hfits : content.length ≤ maxBytes) {buffer : List Char} :
    Keeps Framework (Datasets.consume disk maxBytes e (rowChunks uri buffer (j + 1) rows).fails
      content (rowChunks uri buffer (j + 1) rows).chunks) ↔
      RowsRead disk maxBytes (sizeBehind content buffer) j rows := by
  induction rows generalizing content buffer j with
  | nil =>
    rw [rowsRead_nil, sizeBehind_nil, rowChunks, keeps_consume he hfits]
    constructor
    · intro h hle
      simpa using h.1 [encode buffer] [] rfl (by simp) (by simpa using hle)
    · intro h
      refine ⟨?_, by simp⟩
      intro front back hl hne hle
      cases front with
      | nil => exact absurd rfl hne
      | cons first front =>
        obtain ⟨rfl, htail⟩ := List.cons.inj hl
        obtain ⟨rfl, _⟩ := List.append_eq_nil_iff.mp htail.symm
        simp only [List.flatten_cons, List.flatten_nil, List.append_nil] at hle ⊢
        exact h hle
  | cons row rows ih =>
    rw [rowChunks]
    cases hrow : driver uri row >>= fun values => values.mapM cell with
    | error e' =>
      rw [rowsRead_of_error hrow, ← @keeps_row uri, hrow, keeps_error]
      exact keeps_error
    | ok cells =>
      obtain ⟨values, hvalues, hcells⟩ := bind_ok hrow
      have hprints : ∀ v ∈ values, Prints v := by
        have hkeeps := keeps_row.mp (hrow ▸ keeps_ok cells)
        exact hkeeps.2 values (driver_ok hvalues)
      have htexts : cells = values.map textOf := by
        have : values.mapM cell = .ok (values.map textOf) := mapM_ok_map fun v hv => cell_of_prints (hprints v hv)
        rw [hcells] at this
        exact Except.ok.inj this
      rw [driver_ok hvalues, rowsRead_cons hprints (sizeBehind_mono content buffer), htexts]
      simp only [sizeBehind_cons, sizeBehind_nil]
      by_cases hend : (j + 1) % rowsPerChunk = 0
      · simp only [hend, if_true, true_implies]
        show Keeps Framework (Datasets.consume disk maxBytes e _ content (_ :: _)) ↔ _
        rw [Datasets.consume, ← List.length_append]
        simp only [← sizeBehind_flushed content (buffer ++ CsvText.line (values.map textOf))]
        generalize content ++ encode (buffer ++ CsvText.line (values.map textOf)) = written at *
        by_cases hlarge : maxBytes < written.length
        · rw [if_pos hlarge]
          refine iff_of_true (keeps_error.mpr he) ⟨?_, ?_⟩
          · intro hle
            exact absurd hle (Nat.not_le.mpr hlarge)
          · intro hle
            exact absurd hle (Nat.not_le.mpr hlarge)
        · rw [if_neg hlarge]
          have hle := Nat.not_lt.mp hlarge
          cases hdisk : disk written.length with
          | some name =>
            refine iff_of_false (not_framework_python name ∘ keeps_error.mp) ?_
            intro h
            cases h.1 hle
          | none =>
            simp only [hle, true_implies, true_and]
            exact ih hle
      · simp only [hend, if_false, false_implies, true_and, true_implies]
        exact ih hfits

end

/-! ## The database -/

section
variable {ν : Type} {rules : TextRules} {conv : Conversions ν} {a : SqlDataset}
  {conn : Connection ν ResultRow} {uri : String} {q : Query}
  {types : Table String SqlType}

/-- As `Driven`, where a ValueError counts as a `run_id` that is no integer. -/
def DrivenRuns {α : Type} (answer : Except DriverError α) : Prop :=
  ∀ name, answer = .error (.raised name) → name = "ValueError"

theorem keeps_asked {α : Type} {answer : Except DriverError α} : Keeps Framework (asked uri answer) ↔
    DrivenRuns answer := by
  unfold asked DrivenRuns
  split
  · simp [notInteger, notAllowed]
  · rename_i hnot
    rw [keeps_driver]
    constructor
    · intro h name hraised
      exact absurd hraised (h name)
    · intro h name hraised
      rw [h name hraised] at hraised
      exact hnot hraised

theorem framework_refused (names : List String) : Framework (refused uri names) := rfl

theorem keeps_checkClosed {ended : Table Int (Option String)} {id : Int} : Keeps Framework (checkClosed uri ended id) := by
  unfold checkClosed
  split
  · exact keeps_error.mpr rfl
  · exact keeps_error.mpr rfl
  · exact keeps_ok ()

theorem keeps_checkDropped {limit : Int} {dropped : Table Int (Option Int)}
    {id : Int} : Keeps Framework (checkDropped uri limit dropped id) := by
  unfold checkDropped
  split
  · exact keeps_error.mpr rfl
  · exact keeps_ok ()
  · exact keeps_raiseIf rfl

theorem keeps_guardClosed {guard : RunGuard} {ids : List Int} :
    Keeps Framework (guardClosed uri conn guard ids) ↔ (guard.requireClosed = true → DrivenRuns (conn.endedAt ids)) := by
  unfold guardClosed
  by_cases hclosed : guard.requireClosed = true
  · rw [if_pos hclosed, keeps_bind, keeps_asked]
    simp only [hclosed, true_implies]
    exact and_iff_left fun _ _ => keeps_forM fun _ _ => keeps_checkClosed
  · rw [if_neg hclosed]
    exact iff_of_true (keeps_ok ()) fun h => absurd h hclosed

theorem keeps_guardDropped {guard : RunGuard} {ids : List Int} :
    Keeps Framework (guardDropped uri conn guard ids) ↔ (guard.maxDropped ≠ none → DrivenRuns (conn.dropped ids)) := by
  unfold guardDropped
  cases guard.maxDropped with
  | none => exact iff_of_true (keeps_ok ()) fun h => absurd rfl h
  | some limit =>
    simp only [ne_eq, reduceCtorEq, not_false_eq_true, true_implies]
    rw [keeps_bind, keeps_asked]
    exact and_iff_left fun _ _ => keeps_forM fun _ _ => keeps_checkDropped

def listedRuns (q : Query) : List String := (q.filters.lookup "run_id").getD []

/-- What is asked about the runs of a guarded query is answered. -/
def GuardDriven (a : SqlDataset) (uri : String) (conn : Connection ν ResultRow)
    (types : Table String SqlType) (q : Query) : Prop :=
  ∀ guard ids, a.runGuard = some guard → listedRuns q ≠ [] → "run_id" ∈ types.keys →
    (listedRuns q).mapM PyInt.int? = some ids →
    (guard.requireClosed = true → DrivenRuns (conn.endedAt ids)) ∧
      (guardClosed uri conn guard ids = .ok () → guard.maxDropped ≠ none → DrivenRuns (conn.dropped ids))

theorem keeps_guardListed : Keeps Framework (guardListed a conn uri q types) ↔ GuardDriven a uri conn types q := by
  simp only [guardListed, GuardDriven]
  cases a.runGuard with
  | none => simp
  | some guard =>
    simp only [Option.some.injEq]
    by_cases hlisted : (q.filters.lookup "run_id").getD [] ≠ [] ∧ "run_id" ∈ types.keys
    · rw [if_pos hlisted, guardRuns]
      simp only [listedRuns]
      cases hids : ((q.filters.lookup "run_id").getD []).mapM PyInt.int? with
      | none =>
        refine iff_of_true (keeps_error.mpr rfl) ?_
        intro _ _ _ _ _ hsome
        cases hsome
      | some ids =>
        simp only
        rw [keeps_bind, keeps_guardClosed]
        simp only [keeps_guardDropped]
        constructor
        · rintro ⟨hclosed, hdropped⟩ _ _ rfl _ _ hsome
          cases hsome
          exact ⟨hclosed, hdropped ()⟩
        · intro h
          obtain ⟨hclosed, hdropped⟩ := h guard ids rfl hlisted.1 hlisted.2 rfl
          exact ⟨hclosed, fun _ => hdropped⟩
    · rw [if_neg hlisted]
      refine iff_of_true (keeps_ok ()) ?_
      intro _ _ _ hruns hcolumn
      exact absurd ⟨hruns, hcolumn⟩ hlisted

/-- Nothing refuses the query before its values are read. -/
structure Selects (a : SqlDataset) (uri : String) (conn : Connection ν ResultRow)
    (types : Table String SqlType) (q : Query) : Prop where
  runs : guardListed a conn uri q types = .ok ()
  known : ∀ name ∈ selectedColumns q types ++ q.filters.map Prod.fst, name ∈ types.keys
  allowed : a.refusedOf (selectedColumns q types) = []
  timed : q.start.getD "" ≠ "" ∨ q.stop.getD "" ≠ "" → q.timeColumn ∈ types.keys

/-- The database is asked without an error of its own, and each value that comes to be read is read. -/
def Stated (conv : Conversions ν) (a : SqlDataset) (uri : String) (conn : Connection ν ResultRow) (q : Query) : Prop :=
  Driven (conn.getColumns q.relation) ∧
    ∀ reflected, conn.getColumns q.relation = .ok reflected → reflected ≠ [] →
      GuardDriven a uri conn (Table.empty.update reflected) q ∧
        (Selects a uri conn (Table.empty.update reflected) q → ValuesRead conv (compared (Table.empty.update reflected) q))

theorem columnTypes_ok : columnTypes conn uri q.relation = .ok types ↔
    ∃ reflected, conn.getColumns q.relation = .ok reflected ∧ reflected ≠ [] ∧
      types = Table.empty.update reflected := by
  constructor
  · intro h
    obtain ⟨reflected, hreflected, h⟩ := bind_ok h
    obtain ⟨_, hne, h⟩ := bind_ok h
    cases h
    exact ⟨reflected, driver_ok hreflected, raiseIf_ok.mp hne, rfl⟩
  · intro h
    obtain ⟨reflected, hreflected, hne, rfl⟩ := h
    rw [columnTypes, hreflected, bind_driver, bind_raiseIf hne]

theorem keeps_columnTypes : Keeps Framework (columnTypes conn uri q.relation) ↔ Driven (conn.getColumns q.relation) := by
  rw [columnTypes, keeps_bind_driver, and_iff_left]
  intro reflected _
  rw [keeps_bind_raiseIf (framework_notFound ..)]
  exact fun _ => keeps_ok _

theorem keeps_statement : Keeps Framework (statement rules conv a conn uri q) ↔ Stated conv a uri conn q := by
  rw [statement, keeps_bind, keeps_columnTypes]
  apply and_congr_right'
  constructor
  · intro h reflected hreflected hne
    have hrest := h _ (columnTypes_ok.mpr ⟨reflected, hreflected, hne, rfl⟩)
    rw [keeps_bind, keeps_guardListed] at hrest
    refine ⟨hrest.1, ?_⟩
    intro hselects
    have hselect := hrest.2 () hselects.runs
    have hfind : ((selectedColumns q (Table.empty.update reflected) ++ q.filters.map Prod.fst).find? fun name =>
        decide (name ∉ (Table.empty.update reflected).keys)) = none := by
      rw [List.find?_eq_none]
      intro name hname
      simpa using hselects.known name hname
    simp only [hfind] at hselect
    rw [keeps_bind_raiseIf (framework_refused _), keeps_bind_raiseIf (framework_notAllowed ..), keeps_select] at hselect
    apply hselect (not_not.mpr hselects.allowed)
    intro htime
    exact htime.2 (hselects.timed htime.1)
  · intro h types htypes
    obtain ⟨reflected, hreflected, hne, rfl⟩ := columnTypes_ok.mp htypes
    obtain ⟨hguard, hvalues⟩ := h reflected hreflected hne
    rw [keeps_bind, keeps_guardListed]
    refine ⟨hguard, ?_⟩
    intro _ hruns
    simp only
    split
    · exact keeps_error.mpr rfl
    · rename_i hfind
      rw [keeps_bind_raiseIf (framework_refused _), keeps_bind_raiseIf (framework_notAllowed ..), keeps_select]
      intro hallowed htime
      apply hvalues
      refine ⟨hruns, ?_, not_not.mp hallowed, ?_⟩
      · intro name hname
        simpa using List.find?_eq_none.mp hfind name hname
      · intro hbound
        by_contra hcolumn
        exact htime ⟨hbound, hcolumn⟩

/-! ## The reference -/

variable (rules conv a uri) in
/-- The source is connected to, the statement is made and executed, and the rows are read and written. -/
def ReferenceReads (connect : String → Except DriverError (Connection ν ResultRow))
    (disk : Nat → Option String) : Prop :=
  ∀ q, parse rules a uri = .ok q → Driven (connect q.source) ∧
    ∀ conn, connect q.source = .ok conn → Stated conv a uri conn q ∧
      ∀ stmt, statement rules conv a conn uri q = .ok stmt → Driven (conn.execute stmt) ∧
        ∀ rows, conn.execute stmt = .ok rows →
          RowsRead disk a.maxBytes (sizeBehind [] (CsvText.line (stmt.columns.map String.toList))) 0 rows

section
variable {disk : Nat → Option String} {maxBytes : Nat} {e : AdaptationError}

theorem keeps_ofExcept_bind {β : Type} {x : Except AdaptationError β} {f : β → Except AdaptationError Stream} :
    Keeps Framework (Datasets.consume disk maxBytes e (Stream.ofExcept (x >>= f)).fails []
      (Stream.ofExcept (x >>= f)).chunks) ↔
      Keeps Framework x ∧
        ∀ b, x = .ok b → Keeps Framework (Datasets.consume disk maxBytes e (Stream.ofExcept (f b)).fails []
          (Stream.ofExcept (f b)).chunks) := by
  cases x with
  | ok b =>
    show Keeps Framework (Datasets.consume disk maxBytes e (Stream.ofExcept (f b)).fails []
      (Stream.ofExcept (f b)).chunks) ↔ _
    simp
  | error e' =>
    show Keeps Framework (.error e' : Except AdaptationError Bytes) ↔ _
    simp

theorem keeps_chunks {connect : String → Except DriverError (Connection ν ResultRow)} (he : Framework e)
    (haccepted : check rules a uri = .ok ()) :
    Keeps Framework (Datasets.consume disk a.maxBytes e (chunks rules conv a connect uri).fails []
      (chunks rules conv a connect uri).chunks) ↔
      ReferenceReads rules conv a uri connect disk := by
  obtain ⟨q, hq, _⟩ := map_ok haccepted
  rw [chunks, keeps_ofExcept_bind, hq, ReferenceReads]
  simp only [keeps_ok, true_and, hq, Except.ok.injEq, forall_eq']
  rw [keeps_ofExcept_bind, keeps_driver]
  simp only [driver_eq_ok]
  apply and_congr_right'
  apply forall₂_congr
  intro conn _
  rw [keeps_ofExcept_bind, keeps_statement]
  apply and_congr_right'
  apply forall₂_congr
  intro stmt _
  rw [keeps_ofExcept_bind, keeps_driver]
  simp only [driver_eq_ok]
  apply and_congr_right'
  apply forall₂_congr
  intro rows _
  exact keeps_rowChunks he (Nat.zero_le _)

theorem keeps_stat {connect : String → Except DriverError (Connection ν ResultRow)} {sha256 : Bytes → String}
    (haccepted : check rules a uri = .ok ()) :
    Keeps Framework (stat rules conv a connect uri sha256) ↔ ReferenceReads rules conv a uri connect fun _ => none := by
  simp only [stat]
  rw [keeps_bind, keeps_chunks (framework_tooLarge _) haccepted]
  exact and_iff_left fun _ _ => keeps_ok _

theorem keeps_open {connect : String → Except DriverError (Connection ν ResultRow)}
    (haccepted : check rules a uri = .ok ()) :
    Keeps Framework («open» rules conv a connect uri disk) ↔ disk 0 = none ∧
      ReferenceReads rules conv a uri connect disk := by
  rw [«open», spool]
  cases hdisk : disk 0 with
  | some name =>
    refine iff_of_false (not_framework_python name ∘ keeps_error.mp) ?_
    intro h
    cases h.1
  | none =>
    simp only [true_and]
    exact keeps_chunks (framework_tooLarge _) haccepted

end

end

end SqlDataset

end OranAdapt
