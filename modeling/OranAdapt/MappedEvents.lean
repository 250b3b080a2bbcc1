import OranAdapt.Declared
import OranAdapt.EventMapping

/-!
# How a payload is mapped to events

Reading a path raises nothing: its texts were checked with the mapping, and a
payload that was read can be written. What is left are the constructs that
the two checks leave out between them, and each record is judged by whether
one of these comes before the mapping or the contract refuses it.
-/

namespace OranAdapt

namespace EventMapping

open Declared

/-! ## Values that are written -/

section
variable {v : Json} {items : List Json} {fields : List (String × Json)} {k : String}

theorem prints_items (h : printsItems items = true) (hv : v ∈ items) : prints v = true := by
  induction items with
  | nil => cases hv
  | cons w items ih =>
    rw [printsItems, Bool.and_eq_true] at h
    rcases List.mem_cons.mp hv with rfl | hv
    · exact h.1
    · exact ih h.2 hv

theorem prints_fields (h : printsFields fields = true) (hv : (k, v) ∈ fields) : prints v = true := by
  induction fields with
  | nil => cases hv
  | cons p fields ih =>
    obtain ⟨k', w⟩ := p
    rw [printsFields, Bool.and_eq_true] at h
    rcases List.mem_cons.mp hv with heq | hv
    · cases heq
      exact h.1
    · exact ih h.2 hv

theorem prints_lookup (h : prints (.obj fields) = true) (hv : fields.lookup k = some v) : prints v = true := by
  rw [prints] at h
  exact prints_fields h (Table.lookup_mem hv)

theorem prints_read (h : prints (.obj fields) = true) : prints (JsonDict.read fields k) = true := by
  rw [JsonDict.read]
  cases hv : fields.lookup k with
  | none => rfl
  | some v => exact prints_lookup h hv

theorem printsItems_of_forall (h : ∀ w ∈ items, prints w = true) : printsItems items = true := by
  induction items with
  | nil => rfl
  | cons w items ih =>
    rw [printsItems, h w (.head _), ih fun u hu => h u (.tail _ hu)]
    rfl

end

section
variable {α : Type} {c : Texts α} {coercions : Coercions α} {mapping : DriftMapping α}
  {payload record v : Json} {path : String}

theorem text_ok (hv : prints v = true) : text c v = .ok (c.str v) := if_pos hv

/-! ## Paths -/

/-- What is read raises nothing and can be written. -/
def Reads (x : Except AdaptationError (Option Json)) : Prop := ∃ r, x = .ok r ∧ ∀ v ∈ r, prints v = true

theorem reads_none : Reads (.ok none) := ⟨none, rfl, by simp⟩

theorem reads_some (hv : prints v = true) : Reads (.ok (some v)) := ⟨some v, rfl, by simpa using hv⟩

theorem firstMatch_reads {key value : String} {items : List Json} (h : printsItems items = true) :
    Reads (firstMatch c key value items) := by
  induction items with
  | nil => exact reads_none
  | cons v items ih =>
    rw [printsItems, Bool.and_eq_true] at h
    cases v with
    | obj item =>
      rw [firstMatch, text_ok (prints_read h.1)]
      show Reads (if _ then _ else _)
      split
      · exact reads_some h.1
      · exact ih h.2
    | _ => exact ih h.2

theorem Segment.child_prints {seg : Segment} {w : Json} (hv : prints v = true)
    (hw : seg.child v = some w) : prints w = true := by
  unfold Segment.child at hw
  split at hw
  · cases hw
    exact hv
  · cases v with
    | obj fields => exact prints_lookup hv hw
    | _ => cases hw

theorem Segment.follow_reads (seg : Segment) (hv : prints v = true) : Reads (seg.follow c v) := by
  rw [Segment.follow]
  cases hchild : seg.child v with
  | none =>
    cases seg.selector with
    | none => exact reads_none
    | some selector => exact reads_none
  | some w =>
    have hw := Segment.child_prints hv hchild
    cases seg.selector with
    | none => cases w <;> exact reads_some hw
    | some selector =>
      cases w with
      | arr items => exact firstMatch_reads (by rwa [prints] at hw)
      | _ => exact reads_none

theorem follow_reads {text : List Char} {segments : List (List Char)}
    (hall : ∀ s ∈ segments, ∃ seg, segment? s = some seg)
    (hv : prints v = true) : Reads (follow c text segments v) := by
  induction segments generalizing v with
  | nil => exact reads_some hv
  | cons s segments ih =>
    obtain ⟨seg, hseg⟩ := hall s (.head _)
    rw [follow, hseg]
    obtain ⟨r, hr, hprints⟩ := seg.follow_reads (c := c) hv
    show Reads (seg.follow c v >>= _)
    rw [hr]
    cases r with
    | none => exact reads_none
    | some w => exact ih (fun s hs => hall s (.tail _ hs)) (hprints w rfl)

theorem resolve_reads {text : List Char} (hall : ∀ s ∈ text.splitOn '.', ∃ seg, segment? s = some seg)
    (hv : prints v = true) :
    Reads (resolve c v text) := follow_reads hall hv

theorem body_of_not_slash {text : List Char} (h : ∀ rest, text ≠ '/' :: rest) : body text = text := by
  unfold body
  split
  · exact absurd rfl (h _)
  · rfl

theorem body_reads (hpath : CheckPath path) (hv : prints v = true) : Reads (resolve c v (body path.toList)) := by
  apply resolve_reads _ hv
  intro s hs
  obtain ⟨seg, hseg, _⟩ := hpath s hs
  exact ⟨seg, hseg⟩

theorem get_reads (hpath : CheckPath path) (hp : prints payload = true) (hr : prints record = true) :
    Reads (get c payload record path) := by
  have hbody := body_reads (c := c) hpath hp
  have hbody' := body_reads (c := c) hpath hr
  rw [get]
  split
  · rename_i rest htext
    rwa [htext] at hbody
  · rename_i hslash
    rwa [body_of_not_slash hslash] at hbody'

theorem segment?_slash (text : List Char) :
    segment? ('/' :: text) = (segment? text).map fun seg => ⟨'/' :: seg.name, seg.selector⟩ := by
  have hplain : plain '/' = true := by decide
  rw [segment?, segment?, List.dropWhile_cons, if_pos hplain, List.takeWhile_cons, if_pos hplain, Option.map_map]
  rfl

theorem path_reads (hpath : CheckPath path) (hv : prints v = true) : Reads (resolve c v path.toList) := by
  apply resolve_reads _ hv
  intro s hs
  cases htext : path.toList with
  | nil =>
    rw [CheckPath, htext] at hpath
    rw [htext] at hs
    obtain ⟨seg, hseg, _⟩ := hpath s hs
    exact ⟨seg, hseg⟩
  | cons first rest =>
    by_cases hslash : first = '/'
    · rw [CheckPath, htext, hslash, body] at hpath
      rw [htext, hslash, List.splitOn_cons_eq_if_modifyHead, if_neg (by decide)] at hs
      cases hsplit : rest.splitOn '.' with
      | nil => exact absurd hsplit (List.splitOn_ne_nil _ _)
      | cons t more =>
        rw [hsplit] at hs hpath
        rcases List.mem_cons.mp hs with heq | hs
        · obtain ⟨seg, hseg, _⟩ := hpath t (.head _)
          exact ⟨_, by rw [heq, segment?_slash, hseg]; rfl⟩
        · obtain ⟨seg, hseg, _⟩ := hpath s (.tail _ hs)
          exact ⟨seg, hseg⟩
    · rw [CheckPath, body_of_not_slash (by rw [htext]; rintro _ ⟨⟩; exact hslash rfl)] at hpath
      obtain ⟨seg, hseg, _⟩ := hpath s hs
      exact ⟨seg, hseg⟩

/-! ## Records -/

theorem passes_ok {conditions : List (String × String)} (hpaths : ∀ p ∈ conditions, CheckPath p.1)
    (hp : prints payload = true)
    (hr : prints record = true) : ∃ b, passes c payload record conditions = .ok b := by
  induction conditions with
  | nil => exact ⟨true, rfl⟩
  | cons p conditions ih =>
    obtain ⟨path, value⟩ := p
    obtain ⟨r, hget, hprints⟩ := get_reads (c := c) (hpaths _ (.head _)) hp hr
    rw [passes, hget]
    cases r with
    | none => exact ⟨false, rfl⟩
    | some v =>
      show ∃ b, (text c v >>= _) = .ok b
      rw [text_ok (hprints v rfl)]
      show ∃ b, (if c.str v = value then passes c payload record conditions else .ok false) = .ok b
      split
      · exact ih fun p hp => hpaths p (.tail _ hp)
      · exact ⟨false, rfl⟩

variable (mapping) in
theorem select_ok {records : List Json} (hp : prints payload = true) (hr : ∀ r ∈ records, prints r = true) :
    ∃ selected, select c mapping payload records = .ok selected ∧ ∀ r ∈ selected, prints r = true := by
  induction records with
  | nil => exact ⟨[], rfl, by simp⟩
  | cons r records ih =>
    obtain ⟨selected, hselected, hprints⟩ := ih fun q hq => hr q (.tail _ hq)
    have hr := hr r (.head _)
    cases r with
    | obj fields =>
      obtain ⟨b, hb⟩ := passes_ok (c := c) mapping.checkWhere hp hr
      rw [select, hb]
      show ∃ s, (select c mapping payload records >>= _) = .ok s ∧ _
      rw [hselected]
      refine ⟨_, rfl, ?_⟩
      cases b with
      | false => exact hprints
      | true =>
        intro q hq
        rcases List.mem_cons.mp hq with rfl | hq
        · exact hr
        · exact hprints q hq
    | _ => exact ⟨selected, hselected, hprints⟩

def Refusal (e : AdaptationError) : Prop := e.cls = .other "EVENT_MAPPING_FAILED"

variable (mapping) in
theorem recordsOf_keeps (hp : prints payload = true) :
    Keeps Refusal (recordsOf c mapping payload) ∧ ∀ records, recordsOf c mapping payload = .ok records →
      ∀ r ∈ records, prints r = true := by
  rw [recordsOf]
  split
  · refine ⟨keeps_ok _, ?_⟩
    intro records hrecords r hr
    cases hrecords
    rw [List.mem_singleton.mp hr]
    exact hp
  · rename_i hpath
    obtain ⟨r, hr, hprints⟩ := path_reads (c := c) (mapping.checkRecords hpath) hp
    rw [hr]
    cases r with
    | none => exact ⟨keeps_error.mpr rfl, fun _ h => by cases h⟩
    | some v =>
      have hv := hprints v rfl
      cases v with
      | arr items =>
        rw [prints] at hv
        refine ⟨keeps_ok _, ?_⟩
        intro records hrecords q hq
        cases hrecords
        exact prints_items hv hq
      | _ => exact ⟨keeps_error.mpr rfl, fun _ h => by cases h⟩

/-! ## The fields of a record -/

variable (c mapping payload record) in
/-- The mapping splits the text at the path by an empty separator. -/
def SplitByNothing (p : String × String) : Prop :=
  mapping.split.get? p.1 = some "" ∧ ∃ s, get c payload record p.2 = .ok (some (.str s))

variable (c mapping payload record) in
def Unmapped (p : String × String) : Prop :=
  ∃ v w valueMap, get c payload record p.2 = .ok (some v) ∧ v ≠ .null ∧
    splitValue (mapping.split.get? p.1) v = .ok w ∧
    mapping.valueMaps.get? p.1 = some valueMap ∧ (lowered c valueMap).get? (c.lower (c.str w)) = none

theorem splitValue_cases (separator : Option String) (hv : prints v = true) :
    (separator = some "" ∧ (∃ s, v = .str s) ∧ splitValue separator v = .error (pythonError "ValueError")) ∨
      (¬ (separator = some "" ∧ ∃ s, v = .str s) ∧ ∃ w, splitValue separator v = .ok w ∧ prints w = true) := by
  cases separator with
  | none => exact .inr ⟨by simp, v, rfl, hv⟩
  | some separator =>
    by_cases hstr : ∃ s, v = .str s
    · obtain ⟨s, rfl⟩ := hstr
      by_cases hempty : separator = ""
      · exact .inl ⟨by rw [hempty], ⟨s, rfl⟩, if_pos hempty⟩
      · refine .inr ⟨by simpa using hempty, _, if_neg hempty, ?_⟩
        rw [prints]
        apply printsItems_of_forall
        intro w hw
        obtain ⟨t, _, rfl⟩ := List.mem_map.mp hw
        rfl
    · refine .inr ⟨fun h => hstr h.2, v, ?_, hv⟩
      cases v with
      | str s => exact absurd ⟨s, rfl⟩ hstr
      | _ => rfl

theorem mapValue_keeps {field : String} {valueMap : Option (Table String String)} (hv : prints v = true) :
    Keeps Refusal (mapValue c field valueMap v) := by
  cases valueMap with
  | none => exact keeps_ok _
  | some valueMap =>
    rw [mapValue, text_ok hv, bind_ok_eq]
    cases (lowered c valueMap).get? (c.lower (c.str v)) with
    | none => exact keeps_error.mpr rfl
    | some mapped => exact keeps_ok _

theorem mapValue_refuses {field : String} {valueMap : Option (Table String String)} (hv : prints v = true) :
    Refuses Refusal (mapValue c field valueMap v) ↔
      ∃ table, valueMap = some table ∧ (lowered c table).get? (c.lower (c.str v)) = none := by
  cases valueMap with
  | none => simp [mapValue]
  | some valueMap =>
    rw [mapValue, text_ok hv, bind_ok_eq]
    cases h : (lowered c valueMap).get? (c.lower (c.str v)) with
    | none => simp [h, Refusal, eventMappingError]
    | some mapped => simp [h]

theorem fieldValue_missing {p : String × String} {r : Option Json} (hget : get c payload record p.2 = .ok r)
    (hr : ∀ v ∈ r, v = .null) :
    fieldValue c mapping payload record p = .ok none := by
  rw [fieldValue, hget]
  cases r with
  | none => rfl
  | some v =>
    rw [hr v rfl]
    rfl

theorem fieldValue_found {p : String × String} (hget : get c payload record p.2 = .ok (some v)) (hnull : v ≠ .null) :
    fieldValue c mapping payload record p =
      splitValue (mapping.split.get? p.1) v >>= fun w => (mapValue c p.1 (mapping.valueMaps.get? p.1) w).map some := by
  rw [fieldValue, hget]
  cases v with
  | null => exact absurd rfl hnull
  | _ => rfl

theorem not_null_of_mem {r : Option Json} (hr : ¬ ∀ v ∈ r, v = .null) : ∃ v, r = some v ∧ v ≠ .null := by
  cases r with
  | none => simp at hr
  | some v => exact ⟨v, rfl, by simpa using hr⟩

theorem fieldValue_keeps {p : String × String} (hpath : CheckPath p.2) (hp : prints payload = true)
    (hr : prints record = true) :
    Keeps Refusal (fieldValue c mapping payload record p) ↔ ¬ SplitByNothing c mapping payload record p := by
  obtain ⟨r, hget, hprints⟩ := get_reads (c := c) hpath hp hr
  rw [SplitByNothing, hget]
  by_cases hnull : ∀ v ∈ r, v = .null
  · rw [fieldValue_missing hget hnull]
    simp only [keeps_ok, true_iff]
    rintro ⟨_, s, hs⟩
    cases hs
    cases hnull _ rfl
  · obtain ⟨v, rfl, hne⟩ := not_null_of_mem hnull
    rw [fieldValue_found hget hne, keeps_bind]
    rcases splitValue_cases (mapping.split.get? p.1) (hprints v rfl) with ⟨hempty, ⟨t, rfl⟩, hsplit⟩ |
      ⟨hnot, w, hsplit, hw⟩
    · rw [hsplit]
      simp [hempty, Refusal, pythonError]
    · rw [hsplit]
      simp only [keeps_ok, true_and, Except.ok.injEq, forall_eq', keeps_map, mapValue_keeps hw, true_iff]
      rintro ⟨hempty, t, ht⟩
      cases ht
      exact hnot ⟨hempty, t, rfl⟩

theorem fieldValue_refuses {p : String × String} (hpath : CheckPath p.2) (hp : prints payload = true)
    (hr : prints record = true) :
    Refuses Refusal (fieldValue c mapping payload record p) ↔ Unmapped c mapping payload record p := by
  obtain ⟨r, hget, hprints⟩ := get_reads (c := c) hpath hp hr
  rw [Unmapped, hget]
  by_cases hnull : ∀ v ∈ r, v = .null
  · rw [fieldValue_missing hget hnull]
    apply iff_of_false (not_refuses_ok _)
    rintro ⟨v, _, _, hv, hne, _⟩
    cases hv
    exact hne (hnull v rfl)
  · obtain ⟨v, rfl, hne⟩ := not_null_of_mem hnull
    rw [fieldValue_found hget hne, refuses_bind]
    rcases splitValue_cases (mapping.split.get? p.1) (hprints v rfl) with ⟨_, _, hsplit⟩ | ⟨_, w, hsplit, hw⟩
    · rw [hsplit]
      simp [hsplit, Refusal, pythonError]
    · simp [hsplit, refuses_map, mapValue_refuses hw, hne]

/-! ## The values of a record -/

variable (c mapping payload record) in
def SplitsRefused : Prop :=
  ∀ front p back, mapping.fields.rows = front ++ p :: back → SplitByNothing c mapping payload record p →
    ∃ q ∈ front, Unmapped c mapping payload record q

variable (c payload record) in
def ScoresFit (rule : FeatureTable) : Prop :=
  ∀ table key, get c payload record rule.path = .ok (some (.obj table)) → rule.score = some key →
    ∀ p ∈ listedScores key (drifted rule table), ∀ n, p.2 = .int n → n.natAbs < PyInt.floatLimit

theorem fields_keep (hp : prints payload = true) (hr : prints record = true) :
    Keeps Refusal (mapping.fields.rows.mapM (fieldValue c mapping payload record)) ↔
      SplitsRefused c mapping payload record := by
  rw [keeps_mapM_map (f := fieldValue c mapping payload record) (g := id)
    (P := fun p => ¬ SplitByNothing c mapping payload record p)
    (fun p hmem => fieldValue_keeps (mapping.checkFields p hmem) hp hr)
    fun p hmem _ => fieldValue_refuses (mapping.checkFields p hmem) hp hr, List.map_id, SplitsRefused]
  constructor
  · intro h front p back heq hempty
    by_contra hnone
    push Not at hnone
    exact h front p back heq hnone hempty
  · intro h front p back heq hfront hempty
    obtain ⟨q, hq, hunmapped⟩ := h front p back heq hempty
    exact hfront q hq hunmapped

theorem asFloat_keeps : Keeps Refusal (asFloat c v) ↔ ∀ n, v = .int n → n.natAbs < PyInt.floatLimit := by
  cases v with
  | int n =>
    rw [asFloat]
    split
    · rename_i h
      simp [h]
    · rename_i h
      simp [h, Refusal, pythonError]
  | _ => simp [asFloat]

theorem asFloat_refuses : ¬ Refuses Refusal (asFloat c v) := by
  cases v with
  | int n =>
    rw [asFloat]
    split
    · exact not_refuses_ok _
    · simp [Refusal, pythonError]
  | _ => exact not_refuses_ok _

theorem addFeatureTable_scores {rule : FeatureTable} {table : JsonDict} {key : String} {values : Table String (Val α)}
    (hget : get c payload record rule.path = .ok (some (.obj table))) (hkey : rule.score = some key) :
    addFeatureTable c rule payload record values =
      ((listedScores key (drifted rule table)).mapM fun p => (asFloat c p.2).map fun x => (p.1, x)).map fun scores =>
        setDefault (setDefault values "affected_features" (.arr ((drifted rule table).map fun p => .str p.1)))
          "drift_metrics" (.obj scores) := by
  rw [addFeatureTable, hget]
  simp only [bind, Except.bind, hkey]
  cases (listedScores key (drifted rule table)).mapM fun p => (asFloat c p.2).map fun x => (p.1, x) <;> rfl

theorem addFeatureTable_keeps {rule : FeatureTable} (values : Table String (Val α)) (hpath : CheckPath rule.path)
    (hp : prints payload = true) (hr : prints record = true) :
    (Keeps Refusal (addFeatureTable c rule payload record values) ↔ ScoresFit c payload record rule) ∧
      ¬ Refuses Refusal (addFeatureTable c rule payload record values) := by
  obtain ⟨r, hget, -⟩ := get_reads (c := c) hpath hp hr
  have hplain : (∀ table, r ≠ some (.obj table)) → addFeatureTable c rule payload record values = .ok values := by
    intro hnot
    rw [addFeatureTable, hget]
    cases r with
    | none => rfl
    | some v =>
      cases v with
      | obj table => exact absurd rfl (hnot table)
      | _ => rfl
  rw [ScoresFit, hget]
  by_cases htable : ∃ table, r = some (.obj table)
  · obtain ⟨table, rfl⟩ := htable
    cases hscore : rule.score with
    | none =>
      rw [addFeatureTable, hget]
      simp [bind, Except.bind, hscore]
    | some key =>
      have hrefuses : ∀ p ∈ listedScores key (drifted rule table),
          ¬ Refuses Refusal ((asFloat c p.2).map fun x => (p.1, x)) :=
        fun p _ => refuses_map.not.mpr asFloat_refuses
      rw [addFeatureTable_scores hget hscore, keeps_map, refuses_map, keeps_mapM_of_not_refuses hrefuses]
      exact ⟨by simp [keeps_map, asFloat_keeps], not_refuses_mapM hrefuses⟩
  · rw [hplain fun table heq => htable ⟨table, heq⟩]
    refine ⟨?_, not_refuses_ok _⟩
    simp only [keeps_ok, true_iff]
    intro table _ heq
    cases heq
    exact absurd ⟨table, rfl⟩ htable

theorem withFeatureTable_keeps {values : Table String (Val α)} (hp : prints payload = true) (hr : prints record = true) :
    (Keeps Refusal (withFeatureTable c mapping payload record values) ↔
      ∀ rule ∈ mapping.featureTable, ScoresFit c payload record rule) ∧
      ¬ Refuses Refusal (withFeatureTable c mapping payload record values) := by
  rw [withFeatureTable]
  cases htable : mapping.featureTable with
  | none => simp
  | some rule =>
    have h := addFeatureTable_keeps (c := c) values (mapping.checkTable rule htable) hp hr
    simpa using h

variable (c mapping payload record) in
def ValuesDeclared : Prop :=
  SplitsRefused c mapping payload record ∧ ((∀ p ∈ mapping.fields.rows, ¬ Unmapped c mapping payload record p) →
    ∀ rule ∈ mapping.featureTable, ScoresFit c payload record rule)

def stored (mapping : DriftMapping α) (read : List (Option Json)) : Table String (Val α) :=
  (mapping.fields.rows.zip read).foldl (fun values p => store values p.1 p.2) mapping.constants

theorem collect_eq (overrides : Table String (Val α)) :
    collect c mapping payload record overrides =
      mapping.fields.rows.mapM (fieldValue c mapping payload record) >>= fun read =>
      (withFeatureTable c mapping payload record (stored mapping read)).map fun values =>
        values.update (overrides.rows.filter fun p => !p.2.isNone) := by
  rw [collect, foldlM_eq_mapM]
  cases mapping.fields.rows.mapM (fieldValue c mapping payload record) with
  | error e => rfl
  | ok read =>
    show (withFeatureTable c mapping payload record (stored mapping read) >>= _) = Except.map _ _
    cases withFeatureTable c mapping payload record (stored mapping read) <;> rfl

theorem fields_refuse (hp : prints payload = true) (hr : prints record = true) (h : SplitsRefused c mapping payload record) :
    Refuses Refusal (mapping.fields.rows.mapM (fieldValue c mapping payload record)) ↔
      ∃ p ∈ mapping.fields.rows, Unmapped c mapping payload record p := by
  rw [refuses_mapM ((fields_keep hp hr).mpr h)]
  constructor
  · rintro ⟨p, hmem, hrefuses⟩
    exact ⟨p, hmem, (fieldValue_refuses (mapping.checkFields p hmem) hp hr).mp hrefuses⟩
  · rintro ⟨p, hmem, hunmapped⟩
    exact ⟨p, hmem, (fieldValue_refuses (mapping.checkFields p hmem) hp hr).mpr hunmapped⟩

theorem collect_keeps {overrides : Table String (Val α)} (hp : prints payload = true) (hr : prints record = true) :
    Keeps Refusal (collect c mapping payload record overrides) ↔ ValuesDeclared c mapping payload record := by
  rw [collect_eq, keeps_bind, ValuesDeclared, fields_keep hp hr]
  apply and_congr_right
  intro hsplits
  constructor
  · intro h hmapped
    have hnot : ¬ ∃ p ∈ mapping.fields.rows, Unmapped c mapping payload record p := by
      rintro ⟨p, hmem, hunmapped⟩
      exact hmapped p hmem hunmapped
    obtain ⟨read, hread⟩ := ok_of_keeps ((fields_keep hp hr).mpr hsplits) ((fields_refuse hp hr hsplits).not.mpr hnot)
    exact (withFeatureTable_keeps hp hr).1.mp (keeps_map.mp (h read hread))
  · intro h read hread
    rw [keeps_map, (withFeatureTable_keeps hp hr).1]
    apply h
    intro p hmem hunmapped
    have hrefuses := (fields_refuse hp hr hsplits).mpr ⟨p, hmem, hunmapped⟩
    rw [hread] at hrefuses
    exact not_refuses_ok _ hrefuses

theorem collect_refuses {overrides : Table String (Val α)} (hp : prints payload = true) (hr : prints record = true)
    (h : ValuesDeclared c mapping payload record) :
    Refuses Refusal (collect c mapping payload record overrides) ↔
      ∃ p ∈ mapping.fields.rows, Unmapped c mapping payload record p := by
  rw [collect_eq, refuses_bind, fields_refuse hp hr h.1, or_iff_left]
  rintro ⟨read, _, hrefuses⟩
  exact (withFeatureTable_keeps hp hr).2 (refuses_map.mp hrefuses)

/-! ## The id of an event -/

variable (c mapping payload record) in
def IdWritten (values : Table String (Val α)) : Prop :=
  values.get? "event_id" = none → ∀ rule ∈ mapping.eventId, ∀ parts : List (Val α),
    rule.parts.mapM (idPart c payload record values) = .ok (parts.map some) → ∀ v ∈ parts, v.text? c ≠ none

theorem idPart_ok {rule : EventIdRule} (hrule : rule ∈ mapping.eventId) {part : String} (hmem : part ∈ rule.parts)
    (values : Table String (Val α)) (hp : prints payload = true) (hr : prints record = true) :
    ∃ r, idPart c payload record values part = .ok r := by
  unfold idPart
  cases href : fieldRef? part with
  | some name => exact ⟨_, rfl⟩
  | none =>
    obtain ⟨r, hget, -⟩ := get_reads (c := c) (mapping.checkParts rule hrule part hmem href) hp hr
    rw [hget]
    exact ⟨_, rfl⟩

theorem mapM_some {β : Type} (parts : List β) : (parts.map some).mapM id = some parts := by
  induction parts with
  | nil => rfl
  | cons b parts ih =>
    rw [List.map_cons, List.mapM_cons, ih]
    rfl

theorem some_of_mapM {β : Type} {found : List (Option β)} {parts : List β}
    (h : found.mapM id = some parts) : found = parts.map some := by
  induction found generalizing parts with
  | nil =>
    cases h
    rfl
  | cons o found ih =>
    rw [List.mapM_cons] at h
    cases o with
    | none => cases h
    | some b =>
      cases hrest : found.mapM id with
      | none =>
        rw [hrest] at h
        cases h
      | some rest =>
        rw [hrest] at h
        cases h
        rw [ih hrest]
        rfl

theorem texts_keep {parts : List (Val α)} :
    (Keeps Refusal (parts.mapM fun v => orRaise "ValueError" (v.text? c)) ↔ ∀ v ∈ parts, v.text? c ≠ none) ∧
      ¬ Refuses Refusal (parts.mapM fun v => orRaise "ValueError" (v.text? c)) := by
  have hrefuses : ∀ v ∈ parts, ¬ Refuses Refusal (orRaise "ValueError" (v.text? c)) := by
    intro v _
    cases v.text? c with
    | none => simp [orRaise, Refusal, pythonError]
    | some t => exact not_refuses_ok _
  refine ⟨?_, not_refuses_mapM hrefuses⟩
  rw [keeps_mapM_of_not_refuses hrefuses]
  apply forall₂_congr
  intro v _
  cases v.text? c with
  | none => simp [orRaise, Refusal, pythonError]
  | some t => simp [orRaise]

theorem withEventId_keeps {values : Table String (Val α)} (hp : prints payload = true) (hr : prints record = true) :
    (Keeps Refusal (withEventId c mapping payload record values) ↔ IdWritten c mapping payload record values) ∧
      ¬ Refuses Refusal (withEventId c mapping payload record values) := by
  rw [withEventId, IdWritten]
  cases hrule : mapping.eventId with
  | none => simp
  | some rule =>
    cases hid : values.get? "event_id" with
    | some v => simp
    | none =>
      obtain ⟨found, hfound⟩ := mapM_total fun part hmem =>
        idPart_ok (c := c) (Option.mem_def.mpr hrule) hmem values hp hr
      simp only [Option.isSome_none, Bool.false_eq_true, if_false, hfound, Option.mem_def,
        Option.some.injEq, forall_eq', true_imp_iff,
        Except.ok.injEq]
      rw [bind_ok_eq]
      cases hparts : found.mapM id with
      | none =>
        refine ⟨?_, not_refuses_ok _⟩
        simp only [keeps_ok, true_iff]
        intro parts heq
        rw [heq, mapM_some] at hparts
        cases hparts
      | some parts =>
        rw [some_of_mapM hparts]
        constructor
        · rw [keeps_bind, texts_keep.1]
          simp [List.map_inj_right]
        · rw [refuses_bind]
          rintro (h | ⟨_, _, h⟩)
          · exact texts_keep.2 h
          · exact not_refuses_ok _ h

/-! ## Events -/

theorem timeRangeOrdered?_eq_none {f : DriftFields α} :
    f.timeRangeOrdered? = none ↔ ∃ start ∈ f.dataStartTime, ∃ stop ∈ f.dataEndTime, start.aware ≠ stop.aware := by
  unfold DriftFields.timeRangeOrdered?
  cases f.dataStartTime with
  | none => simp
  | some start =>
    cases f.dataEndTime with
    | none => simp
    | some stop =>
      by_cases h : stop.aware = start.aware
      · simp [Moment.less?, h]
      · simp [Moment.less?, h, Ne.symm h]

variable (coercions) in
/-- The values are not what the contract says: a field, or the order of the times. -/
def Unfit (values : Table String (Val α)) : Prop :=
  (∃ problems, coercions.fields values = .error problems) ∨
    ∃ f, coercions.fields values = .ok f ∧ f.timeRangeOrdered? = some false

variable (coercions) in
/-- Where the fields are what the contract says, the times of the range both have an offset or none has. -/
def TimesComparable (values : Table String (Val α)) : Prop :=
  ∀ f, coercions.fields values = .ok f → ∀ start ∈ f.dataStartTime, ∀ stop ∈ f.dataEndTime,
    start.aware = stop.aware

variable (coercions) in
theorem modelValidate_cases (index : Nat) (values : Table String (Val α)) :
    (∃ e, modelValidate coercions index values = .ok e ∧ coercions.fields values = .ok e.fields ∧
      ¬ Unfit coercions values) ∨
      (Refuses Refusal (modelValidate coercions index values) ∧ Unfit coercions values ∧
        TimesComparable coercions values) ∨
      (modelValidate coercions index values = .error (pythonError "TypeError") ∧ ¬ TimesComparable coercions values) := by
  unfold modelValidate Unfit TimesComparable
  cases hfields : coercions.fields values with
  | error problems => exact .inr (.inl ⟨refuses_error.mpr rfl, .inl ⟨problems, rfl⟩, by simp⟩)
  | ok f =>
    simp only [Except.ok.injEq, forall_eq', exists_eq_left', reduceCtorEq, exists_false, false_or]
    have hnone := timeRangeOrdered?_eq_none (f := f)
    split
    · rename_i h
      obtain ⟨start, hstart, stop, hstop, hne⟩ := hnone.mp h
      exact .inr (.inr ⟨rfl, fun hall => hne (hall start hstart stop hstop)⟩)
    · rename_i h
      refine .inr (.inl ⟨refuses_error.mpr rfl, h, ?_⟩)
      intro start hstart stop hstop
      by_contra hne
      rw [hnone.mpr ⟨start, hstart, stop, hstop, hne⟩] at h
      cases h
    · rename_i h
      exact .inl ⟨_, rfl, rfl, by simp [h]⟩

variable (c coercions mapping payload) in
/-- Nothing in the record raises what is not declared. -/
structure RecordDeclared (overrides : Table String (Val α)) (record : Json) : Prop where
  values : ValuesDeclared c mapping payload record
  id : ∀ values, collect c mapping payload record overrides = .ok values → IdWritten c mapping payload record values
  times : ∀ values values', collect c mapping payload record overrides = .ok values →
    withEventId c mapping payload record values = .ok values' → TimesComparable coercions values'

variable (c coercions mapping payload) in
/-- A value of the record is not mapped, or what it says is not what the contract says. -/
def RecordRefused (overrides : Table String (Val α)) (record : Json) : Prop :=
  (∃ p ∈ mapping.fields.rows, Unmapped c mapping payload record p) ∨
    ∃ values values', collect c mapping payload record overrides = .ok values ∧
      withEventId c mapping payload record values = .ok values' ∧ Unfit coercions values'

variable {overrides : Table String (Val α)} {index : Nat}

theorem modelValidate_keeps {values : Table String (Val α)} :
    Keeps Refusal (modelValidate coercions index values) ↔ TimesComparable coercions values := by
  rcases modelValidate_cases coercions index values with ⟨e, he, hfields, _⟩ |
    ⟨hrefuses, _, htimes⟩ | ⟨herror, htimes⟩
  · rw [he]
    apply iff_of_true (keeps_ok _)
    intro f hf
    cases hfields.symm.trans hf
    intro start hstart stop hstop
    by_contra hne
    have hnone := timeRangeOrdered?_eq_none.mpr ⟨start, hstart, stop, hstop, hne⟩
    rw [e.ordered] at hnone
    cases hnone
  · obtain ⟨e, he, hdeclared⟩ := hrefuses
    rw [he, keeps_error]
    exact iff_of_true hdeclared htimes
  · rw [herror, keeps_error]
    exact iff_of_false (by simp [Refusal, pythonError]) htimes

theorem modelValidate_refuses {values : Table String (Val α)} (h : TimesComparable coercions values) :
    Refuses Refusal (modelValidate coercions index values) ↔ Unfit coercions values := by
  rcases modelValidate_cases coercions index values with ⟨e, he, _, hfit⟩ | ⟨hrefuses, hunfit, _⟩ | ⟨_, htimes⟩
  · rw [he]
    exact iff_of_false (not_refuses_ok _) hfit
  · exact iff_of_true hrefuses hunfit
  · exact absurd h htimes

theorem event_keeps (hp : prints payload = true) (hr : prints record = true) :
    Keeps Refusal (event c coercions mapping payload overrides (record, index)) ↔
      RecordDeclared c coercions mapping payload overrides record := by
  rw [event, keeps_bind, collect_keeps hp hr]
  simp only [keeps_bind, (withEventId_keeps hp hr).1, modelValidate_keeps]
  constructor
  · intro h
    exact ⟨h.1, fun values hvalues => (h.2 values hvalues).1, fun values values' hvalues =>
      (h.2 values hvalues).2 values'⟩
  · intro h
    exact ⟨h.values, fun values hvalues => ⟨h.id values hvalues, fun values' => h.times values values' hvalues⟩⟩

theorem event_refuses (hp : prints payload = true) (hr : prints record = true)
    (h : RecordDeclared c coercions mapping payload overrides record) :
    Refuses Refusal (event c coercions mapping payload overrides (record, index)) ↔
      RecordRefused c coercions mapping payload overrides record := by
  rw [event, refuses_bind, collect_refuses hp hr h.values, RecordRefused]
  apply or_congr_right
  constructor
  · rintro ⟨values, hvalues, hrefuses⟩
    rcases refuses_bind.mp hrefuses with hid | ⟨values', hvalues', hvalidate⟩
    · exact absurd hid (withEventId_keeps hp hr).2
    · exact ⟨values, values', hvalues, hvalues',
        (modelValidate_refuses (h.times values values' hvalues hvalues')).mp hvalidate⟩
  · rintro ⟨values, values', hvalues, hvalues', hunfit⟩
    refine ⟨values, hvalues, refuses_bind.mpr (.inr ⟨values', hvalues', ?_⟩)⟩
    exact (modelValidate_refuses (h.times values values' hvalues hvalues')).mpr hunfit

theorem event_ok {e : DriftEvent α} (h : event c coercions mapping payload overrides (record, index) = .ok e) :
    ∃ values values', collect c mapping payload record overrides = .ok values ∧
      withEventId c mapping payload record values = .ok values' ∧ coercions.fields values' = .ok e.fields := by
  obtain ⟨values, hvalues, h⟩ := bind_ok h
  obtain ⟨values', hvalues', h⟩ := bind_ok h
  refine ⟨values, values', hvalues, hvalues', ?_⟩
  rcases modelValidate_cases coercions index values' with ⟨e', he, hfields, _⟩ | ⟨⟨e', he, _⟩, _⟩ | ⟨he, _⟩
  · rw [he] at h
    cases h
    exact hfields
  · rw [he] at h
    cases h
  · rw [he] at h
    cases h

/-! ## The whole payload -/

variable (c coercions mapping payload) in
/-- The events are those of the records, one for each and in their order. -/
def EventsOf (overrides : Table String (Val α)) : List Json → List (DriftEvent α) → Prop :=
  List.Forall₂ fun record e => ∃ values values', collect c mapping payload record overrides = .ok values ∧
    withEventId c mapping payload record values = .ok values' ∧ coercions.fields values' = .ok e.fields

variable (c coercions mapping) in
def AsDeclared (document : Document) (maxEvents : Nat) (overrides : Table String (Val α)) : Prop :=
  match mapPayload c coercions mapping document maxEvents overrides with
  | .ok events => ∃ records selected, recordsOf c mapping document.json = .ok records ∧
      select c mapping document.json records = .ok selected ∧ selected.length ≤ maxEvents ∧
      EventsOf c coercions mapping document.json overrides selected events
  | .error e => Refusal e

theorem events_ok {selected : List Json} {n : Nat} {events : List (DriftEvent α)}
    (h : (selected.zipIdx n).mapM (event c coercions mapping payload overrides) = .ok events) :
    EventsOf c coercions mapping payload overrides selected events := by
  induction selected generalizing n events with
  | nil =>
    cases h
    exact .nil
  | cons record selected ih =>
    rw [List.zipIdx_cons, List.mapM_cons] at h
    obtain ⟨e, he, h⟩ := bind_ok h
    obtain ⟨rest, hrest, h⟩ := bind_ok h
    cases h
    exact .cons (event_ok he) (ih hrest)

theorem events_keep {selected : List Json} (hp : prints payload = true) (hr : ∀ r ∈ selected, prints r = true) :
    Keeps Refusal (selected.zipIdx.mapM (event c coercions mapping payload overrides)) ↔
      ∀ front record back, selected = front ++ record :: back →
        (∀ q ∈ front, ¬ RecordRefused c coercions mapping payload overrides q) →
        RecordDeclared c coercions mapping payload overrides record := by
  have hmem : ∀ p ∈ selected.zipIdx, prints p.1 = true := by
    intro p hp
    apply hr
    rw [← List.zipIdx_map_fst 0 selected]
    exact List.mem_map_of_mem hp
  rw [keeps_mapM_map (g := Prod.fst) (fun p hmem' => event_keeps hp (hmem p hmem')) fun p hmem' h =>
    event_refuses hp (hmem p hmem') h, List.zipIdx_map_fst]

/-- A mapping keeps to its one error where each selected record that no refused one stands in front of does. -/
theorem asDeclared_iff (document : Document) (maxEvents : Nat) (overrides : Table String (Val α)) :
    AsDeclared c coercions mapping document maxEvents overrides ↔
      (∃ fields, document.json = .obj fields) → ∀ records, recordsOf c mapping document.json = .ok records →
        ∀ selected, select c mapping document.json records = .ok selected → selected.length ≤ maxEvents →
        ∀ front record back, selected = front ++ record :: back →
          (∀ q ∈ front, ¬ RecordRefused c coercions mapping document.json overrides q) →
          RecordDeclared c coercions mapping document.json overrides record := by
  obtain ⟨payload, hp⟩ := document
  unfold AsDeclared mapPayload
  cases payload with
  | obj fields =>
    obtain ⟨hkeeps, hprints⟩ := recordsOf_keeps (c := c) mapping hp
    rw [forall_prop_of_true ⟨fields, rfl⟩]
    cases hrecords : recordsOf c mapping (.obj fields) with
    | error e =>
      rw [hrecords] at hkeeps
      simpa [bind, Except.bind] using hkeeps
    | ok records =>
      obtain ⟨selected, hselected, hall⟩ := select_ok (c := c) mapping hp (hprints records hrecords)
      simp only [bind, Except.bind, hselected, Except.ok.injEq, forall_eq']
      by_cases hmany : maxEvents < selected.length
      · rw [if_pos hmany]
        simp [Nat.not_le.mpr hmany, Refusal, eventMappingError]
      · rw [if_neg hmany, ← events_keep hp hall]
        have hlength := Nat.not_lt.mp hmany
        cases hevents : selected.zipIdx.mapM (event c coercions mapping (.obj fields) overrides) with
        | error e => simp [hlength]
        | ok events =>
          exact iff_of_true ⟨records, selected, rfl, hselected, hlength, events_ok hevents⟩ fun _ => keeps_ok _
  | _ => simp [Refusal, eventMappingError]

/-! ## A score that is no float -/

def columnsTable : FeatureTable := ⟨"columns", "drift_detected", some "drift_score", by decide⟩

/-- A mapping that reads the drifted columns at `columns`, with their scores. -/
def columnsMapping : DriftMapping Unit where
  records := ""
  «where» := .empty
  fields := .empty
  constants := .empty
  split := .empty
  valueMaps := .empty
  eventId := none
  featureTable := some columnsTable
  knownFields := by simp [Table.keys, Table.empty]
  knownConstants := by simp [Table.keys, Table.empty]
  knownMaps := by simp [Table.keys, Table.empty]
  knownParts := by simp
  checkWhere := by simp [Table.empty]
  checkFields := by simp [Table.empty]
  checkRecords := by simp
  checkTable := by
    intro table htable
    cases htable
    intro s hs
    have hsplit : (body columnsTable.path.toList).splitOn '.' = ["columns".toList] := by decide
    rw [hsplit, List.mem_singleton] at hs
    exact ⟨⟨"columns".toList, none⟩, by rw [hs]; decide, .inl (by decide)⟩
  checkParts := by simp
  splitFields := by simp [Table.keys, Table.empty]

def report (score : Int) : Json :=
  .obj [("columns", .obj [("rate", .obj [("drift_detected", .bool true), ("drift_score", .int score)])])]

theorem prints_report : prints (report PyInt.floatLimit) = true := by
  have hwidth : PyInt.width PyInt.floatLimit ≤ PyInt.maxStrDigits := PyInt.width_floatLimit
  simp only [report, prints, printsFields, hwidth, decide_true, Bool.and_true]

/-- How it is written and read does not matter here. -/
def plainTexts : Texts Unit := ⟨fun _ => "", fun _ => none, fun _ => "", id⟩

def noCoercions : Coercions Unit :=
  ⟨fun _ => .error "", fun _ => .error "", fun _ => .error "", fun _ => .error "", fun _ => .error [],
    fun _ => .error [], fun _ => .error []⟩

theorem mapPayload_report {score : Int} (hp : prints (report score) = true) (hscore : ¬ score.natAbs < PyInt.floatLimit) :
    mapPayload plainTexts noCoercions columnsMapping ⟨report score, hp⟩ 1 .empty =
      .error (pythonError "OverflowError") := by
  have hfloat : asFloat plainTexts (.int score) = .error (pythonError "OverflowError") := by rw [asFloat, if_neg hscore]
  have hdrifted : drifted columnsTable
      [("rate", .obj [("drift_detected", .bool true), ("drift_score", .int score)])] =
      [("rate", [("drift_detected", .bool true), ("drift_score", .int score)])] := List.mergeSort_singleton _
  have hget : get plainTexts (report score) (report score) "columns" =
      .ok (some (.obj [("rate", .obj [("drift_detected", .bool true), ("drift_score", .int score)])])) := rfl
  have htable : ∀ values, withFeatureTable plainTexts columnsMapping (report score) (report score) values =
      .error (pythonError "OverflowError") := by
    intro values
    show addFeatureTable plainTexts columnsTable (report score) (report score) values = _
    have hpath : columnsTable.path = "columns" := rfl
    have hlisted : listedScores "drift_score" (drifted columnsTable
        [("rate", .obj [("drift_detected", .bool true), ("drift_score", .int score)])]) = [("rate", .int score)] := by
      rw [hdrifted]
      rfl
    rw [addFeatureTable_scores (hpath ▸ hget) rfl, hlisted, List.mapM_cons, hfloat]
    rfl
  show ([(report score, 0)].mapM (event plainTexts noCoercions columnsMapping (report score) .empty)) = _
  rw [List.mapM_cons, event, collect_eq]
  show ((withFeatureTable plainTexts columnsMapping (report score) (report score) (stored columnsMapping [])).map
    _ >>= _) >>= _ = _
  rw [htable]
  rfl

/-- A report whose one score is too large for a float. -/
theorem hugeScore_escapes :
    ¬ ∀ (α : Type) (c : Texts α) (coercions : Coercions α) (mapping : DriftMapping α) (document : Document)
    (maxEvents : Nat) (overrides : Table String (Val α)), AsDeclared c coercions mapping document maxEvents overrides := by
  intro h
  have hdeclared := h Unit plainTexts noCoercions columnsMapping ⟨report PyInt.floatLimit, prints_report⟩ 1 .empty
  rw [AsDeclared, mapPayload_report prints_report (Nat.lt_irrefl _)] at hdeclared
  cases hdeclared

end

end EventMapping

end OranAdapt
