import OranAdapt.BatchReads

/-!
# Columns that any cut leaves alone

A CSV column is stored the same however its rows are cut when it holds one kind
of values: a batch of numbers from a column that is otherwise text gives numbers
where one piece gives text. A JSON Lines column is when no batch mixes integers
with floats or gaps while the column holds something else further on.
-/

namespace OranAdapt

namespace Batches

/-- Apart from missing values, only numbers, only booleans or only text. -/
def OneKind (column : List Field) : Prop :=
  (∀ f ∈ column, f.value.isNumber = true ∨ f.value.isMissing = true) ∨
    (∀ f ∈ column, f.value.isBool = true ∨ f.value.isMissing = true) ∨
    ∀ f ∈ column, f.value.isText = true ∨ f.value.isMissing = true

/-- Integers beside floats or missing values, and nothing else. -/
structure MixesNumbers (column : List Field) : Prop where
  numbers : ∀ f ∈ column, f.value.isNumber = true ∨ f.value.isMissing = true
  int : ∃ f ∈ column, f.value.isInt = true
  other : ∃ f ∈ column, f.value.isInt = false

/-- What keeps a column the same at every chunk size. -/
def TextObject.SteadyColumn (pd : Pandas) (c : String) : TextObject → Prop
  | o@(.csv ..) => OneKind (column (o.rows pd) c)
  | o@(.jsonl ..) => ∀ k ≥ 1, ∀ batch ∈ o.batches pd k, MixesNumbers (column batch c) →
      ∀ f ∈ column (o.rows pd) c, f.value.isNumber = true ∨ f.value.isMissing = true

/-- No chunk size changes what JSON holds of the column. -/
def TextObject.Kept (pd : Pandas) (c : String) (o : TextObject) : Prop :=
  ∀ k ≥ 1, ∀ batch ∈ o.batches pd k, ∀ f ∈ column batch c,
    pd.json (pd.settled (column (o.rows pd) c) (column batch c) f) = pd.json (pd.load (column (o.rows pd) c) f)

section
variable {column : List Field} {f : Field}

theorem allNumbers_iff : allNumbers column = true ↔ ∀ f ∈ column, f.value.isNumber = true ∨
    f.value.isMissing = true := by
  simp [allNumbers]

theorem object_of_not_numbers {g : Field} (hint : ∃ f ∈ column, f.value.isInt = true) (hg : g ∈ column)
    (hnot : ¬(g.value.isNumber = true ∨ g.value.isMissing = true)) : infer column = .object := by
  obtain ⟨f, hf, hfi⟩ := hint
  have hints : allInts column = false := by
    apply List.all_eq_false.mpr
    refine ⟨g, hg, fun h => hnot (.inl (Value.isNumber_of_isInt h))⟩
  have hbools : allBools column = false := by
    apply List.all_eq_false.mpr
    exact ⟨f, hf, by simp [Value.not_isBool_of_isInt hfi]⟩
  have hnumbers : allNumbers column = false := by
    apply List.all_eq_false.mpr
    exact ⟨g, hg, by simpa using hnot⟩
  rw [infer_eq (List.ne_nil_of_mem hf), hints, hbools, hnumbers]
  rfl

theorem MixesNumbers.infer (h : MixesNumbers column) : infer column = .float64 := by
  obtain ⟨f, hf, hfi⟩ := h.other
  apply infer_float64_iff.mpr
  refine ⟨List.ne_nil_of_mem hf, allNumbers_iff.mpr h.numbers, ?_⟩
  apply List.all_eq_false.mpr
  exact ⟨f, hf, by simp [hfi]⟩

theorem mixesNumbers_of_infer (h : infer column = .float64) (hint : ∃ f ∈ column, f.value.isInt = true) :
    MixesNumbers column := by
  obtain ⟨-, hnumbers, hints⟩ := infer_float64_iff.mp h
  obtain ⟨f, hf, hfi⟩ := List.all_eq_false.mp hints
  exact ⟨allNumbers_iff.mp hnumbers, hint, f, hf, by simpa using hfi⟩

theorem not_object_of_numbers (hne : column ≠ [])
    (h : ∀ f ∈ column, f.value.isNumber = true ∨ f.value.isMissing = true) :
    infer column ≠ .object := by
  have hnumbers := allNumbers_iff.mpr h
  rw [infer_eq hne, hnumbers]
  cases allInts column <;> cases allBools column <;> simp [inferOf]

theorem oneKind_of_infer (h : infer column ≠ .object) : OneKind column := by
  cases ht : infer column with
  | int64 =>
    refine .inl fun f hf => .inl (Value.isNumber_of_isInt ?_)
    exact List.all_eq_true.mp (infer_int64_iff.mp ht).2 f hf
  | bool =>
    refine .inr (.inl fun f hf => .inl ?_)
    exact List.all_eq_true.mp (infer_bool_iff.mp ht).2 f hf
  | float64 => exact .inl (allNumbers_iff.mp (infer_float64_iff.mp ht).2.1)
  | object => exact absurd ht h

end

/-! ## JSON Lines -/

section
variable {pd : Pandas} {c : String}

theorem jsonl_raw {rows : List (List (String × Value))} {nodup : ∀ row ∈ rows, (row.map Prod.fst).Nodup} {f : Field}
    (h : f ∈ column ((TextObject.jsonl rows nodup).rows pd) c) : f.raw = f.value := by
  obtain ⟨row, hrow, rfl⟩ := List.mem_map.mp h
  obtain ⟨items, -, rfl⟩ := List.mem_map.mp hrow
  have hlookup : ∀ items : List (String × Value),
    (((items.map fun f => (f.1, Field.mk f.2 f.2)).lookup c).getD .missing).raw =
      (((items.map fun f => (f.1, Field.mk f.2 f.2)).lookup c).getD .missing).value := by
    intro items
    induction items with
    | nil => rfl
    | cons item items ih =>
      rw [List.map_cons, List.lookup_cons]
      split
      · rfl
      · exact ih
  exact hlookup items

theorem mem_column_of_mem_batch {o : TextObject} {k : Nat} {batch : List FieldRow} (hk : 1 ≤ k)
    (hb : batch ∈ o.batches pd k)
    {f : Field} (hf : f ∈ column batch c) : f ∈ column (o.rows pd) c := by
  obtain ⟨row, hrow, rfl⟩ := List.mem_map.mp hf
  exact List.mem_map_of_mem (TextObject.mem_rows_of_mem_batch hk hb row hrow)

theorem jsonl_steady_iff {rows : List (List (String × Value))} {nodup : ∀ row ∈ rows, (row.map Prod.fst).Nodup} :
    (TextObject.jsonl rows nodup).SteadyColumn pd c ↔ (TextObject.jsonl rows nodup).Kept pd c := by
  constructor
  · intro hsteady k hk batch hb f hf
    have hwhole := mem_column_of_mem_batch hk hb hf
    have hraw := jsonl_raw hwhole
    by_cases hobject : infer (column ((TextObject.jsonl rows nodup).rows pd) c) = .object
    · rw [pd.settled_object hobject, pd.json_load hraw, pd.json_load hraw (fun h => by simp [hobject] at h)]
      intro hfloat
      by_contra hint
      have hmixes := mixesNumbers_of_infer hfloat ⟨f, hf, by simpa using hint⟩
      exact not_object_of_numbers (List.ne_nil_of_mem hwhole) (hsteady k hk batch hb hmixes) hobject
    · rw [pd.settled_of_ne_object hobject]
  · intro hkept k hk batch hb hmixes
    by_contra hnot
    simp only [not_forall] at hnot
    obtain ⟨g, hg, hnot⟩ := hnot
    obtain ⟨f, hf, hint⟩ := hmixes.int
    have hwhole := mem_column_of_mem_batch hk hb hf
    have hobject := object_of_not_numbers ⟨f, hwhole, hint⟩ hg hnot
    have hsame := hkept k hk batch hb f hf
    rw [pd.settled_object hobject, pd.load_float64 hmixes.infer, pd.json_load (jsonl_raw hwhole)
      (fun h => by simp [hobject] at h)] at hsame
    cases hv : f.value with
    | int n => exact pd.json_toFloat_int hv hsame
    | _ => simp [hv, Value.isInt] at hint

/-! ## CSV -/

/-- A field of a CSV object is missing, or a literal or text that keeps its text. -/
def CsvField (f : Field) : Prop :=
  f = .missing ∨ ∃ s, f.raw = .text s ∧ (f.value = .text s ∨ f.value.isNumber = true ∨ f.value.isBool = true)

theorem csvField_csvField (pd : Pandas) (s : String) : CsvField (pd.csvField s) := by
  unfold Pandas.csvField
  cases pd.literal s with
  | none => exact .inr ⟨s, rfl, .inl rfl⟩
  | some l =>
    cases l with
    | int n => exact .inr ⟨s, rfl, .inr (.inl rfl)⟩
    | float x => exact .inr ⟨s, rfl, .inr (.inl rfl)⟩
    | bool b => exact .inr ⟨s, rfl, .inr (.inr rfl)⟩
    | missing => exact .inl rfl

theorem csvField_csvRow (pd : Pandas) (c : String) : ∀ header line, CsvField (field (pd.csvRow header line) c) := by
  intro header
  induction header with
  | nil => exact fun line => .inl rfl
  | cons h header ih =>
    intro line
    have hcons : ∀ (f : Field) (row : FieldRow), CsvField f → CsvField (field row c) →
        CsvField (field ((h, f) :: row) c) := by
      intro f row hf hrow
      unfold field
      rw [List.lookup_cons]
      split
      · exact hf
      · exact hrow
    cases line with
    | nil => exact hcons _ _ (.inl rfl) (ih [])
    | cons s line => exact hcons _ _ (csvField_csvField pd s) (ih line)

theorem csv_field {header : List String} {lines : List (List String)} {nodup : header.Nodup}
    {fits : ∀ line ∈ lines, line.length ≤ header.length} {f : Field}
    (h : f ∈ column ((TextObject.csv header lines nodup fits).rows pd) c) : CsvField f := by
  obtain ⟨row, hrow, rfl⟩ := List.mem_map.mp h
  obtain ⟨line, -, rfl⟩ := List.mem_map.mp hrow
  exact csvField_csvRow pd c header line

variable {part whole : List Field} {f : Field}

theorem json_alone (h : f.value.isNumber = true ∨ f.value.isBool = true) (s : String) :
    pd.json (pd.load [f] f) ≠ .str s := by
  cases hv : f.value with
  | int n =>
    have ht : infer [f] = .int64 := by simp [infer, hv, Value.isInt]
    rw [pd.load_int64 ht, hv]
    simp [Pandas.json]
  | float x =>
    have ht : infer [f] = .float64 := by simp [infer, hv, Value.isInt, Value.isBool, Value.isNumber]
    rw [pd.load_float64 ht, hv]
    change pd.floatJson x ≠ _
    unfold Pandas.floatJson
    cases pd.write x <;> simp
  | bool b =>
    have ht : infer [f] = .bool := by simp [infer, hv, Value.isInt, Value.isBool]
    rw [pd.load_bool ht, hv]
    simp [Pandas.json]
  | _ => simp [hv, Value.isNumber, Value.isBool] at h

theorem load_object_bools (ht : infer part = .object)
    (h : ∀ f ∈ part, f.value.isBool = true ∨ f.value.isMissing = true) :
    pd.load part f = f.value := by
  unfold Pandas.load
  simp only [ht]
  rw [if_pos (by simpa using h)]

theorem load_object_raw (ht : infer part = .object)
    (h : ¬∀ f ∈ part, f.value.isBool = true ∨ f.value.isMissing = true) :
    pd.load part f = f.raw := by
  unfold Pandas.load
  simp only [ht]
  rw [if_neg (by simpa using h)]

/-- Among booleans and missing values a field keeps its value. -/
theorem json_load_bools (h : ∀ f ∈ part, f.value.isBool = true ∨ f.value.isMissing = true) (hf : f ∈ part) :
    pd.json (pd.load part f) = pd.json f.value := by
  cases ht : infer part with
  | int64 => rw [pd.load_int64 ht]
  | bool => rw [pd.load_bool ht]
  | float64 =>
    rw [pd.load_float64 ht]
    apply pd.json_toFloat
    rcases h f hf with hb | hm
    · cases hv : f.value <;> simp [hv, Value.isBool, Value.isInt] at hb ⊢
    · cases hv : f.value <;> simp [hv, Value.isMissing, Value.isInt] at hm ⊢
  | object => rw [load_object_bools ht h]

theorem raw_of_text (hcsv : CsvField f) (h : f.value.isText = true ∨ f.value.isMissing = true) : f.raw = f.value := by
  rcases hcsv with rfl | ⟨s, hraw, hvalue | hnumber | hbool⟩
  · rfl
  · rw [hraw, hvalue]
  · cases hv : f.value <;> simp [hv, Value.isText, Value.isMissing, Value.isNumber] at h hnumber
  · cases hv : f.value <;> simp [hv, Value.isText, Value.isMissing, Value.isBool] at h hbool

theorem settled_oneKind (hsub : ∀ f ∈ part, f ∈ whole) (hf : f ∈ part)
    (hcsv : ∀ f ∈ whole, CsvField f) (h : OneKind whole) :
    pd.json (pd.settled whole part f) = pd.json (pd.load whole f) := by
  by_cases hobject : infer whole = .object
  · rw [pd.settled_object hobject]
    rcases h with hnumbers | hbools | htexts
    · exact absurd hobject (not_object_of_numbers (List.ne_nil_of_mem (hsub f hf)) hnumbers)
    · rw [json_load_bools (fun g hg => hbools g (hsub g hg)) hf, json_load_bools hbools (hsub f hf)]
    · have hraw := raw_of_text (hcsv f (hsub f hf)) (htexts f (hsub f hf))
      have hint : f.value.isInt = false := by
        rcases htexts f (hsub f hf) with ht | hm
        · cases hv : f.value <;> simp [hv, Value.isText, Value.isInt] at ht ⊢
        · cases hv : f.value <;> simp [hv, Value.isMissing, Value.isInt] at hm ⊢
      rw [pd.json_load hraw (fun _ => hint), pd.json_load hraw (fun _ => hint)]
  · rw [pd.settled_of_ne_object hobject]

theorem csv_steady_iff {header : List String} {lines : List (List String)} {nodup : header.Nodup}
    {fits : ∀ line ∈ lines, line.length ≤ header.length} :
    (TextObject.csv header lines nodup fits).SteadyColumn pd c ↔ (TextObject.csv header lines nodup fits).Kept pd c := by
  constructor
  · intro hone k hk batch hb f hf
    exact settled_oneKind (fun g hg => mem_column_of_mem_batch hk hb hg) hf (fun g hg => csv_field hg) hone
  · intro hkept
    change OneKind _
    by_cases hobject : infer (column ((TextObject.csv header lines nodup fits).rows pd) c) = .object
    · by_cases hbools : ∀ f ∈ column ((TextObject.csv header lines nodup fits).rows pd) c,
          f.value.isBool = true ∨ f.value.isMissing = true
      · exact .inr (.inl hbools)
      · refine .inr (.inr fun f hf => ?_)
        obtain ⟨row, hrow, rfl⟩ := List.mem_map.mp hf
        -- one row to a batch, the field is read by itself
        have hbatch : [row] ∈ (TextObject.csv header lines nodup fits).batches pd 1 := by
          rw [TextObject.batches_eq (List.ne_nil_of_mem hrow)]
          exact mem_chunks_one hrow
        have hsame := hkept 1 le_rfl [row] hbatch (field row c) (by simp [column])
        rw [pd.settled_object hobject, load_object_raw hobject hbools] at hsame
        rcases csv_field hf with hmissing | ⟨s, hraw, htext | hliteral⟩
        · rw [hmissing]
          exact .inr rfl
        · rw [htext]
          exact .inl rfl
        · rw [hraw] at hsame
          exact absurd hsame (json_alone hliteral s)
    · exact oneKind_of_infer hobject

end

theorem TextObject.steady_iff {pd : Pandas} {c : String} (o : TextObject) : o.SteadyColumn pd c ↔ o.Kept pd c := by
  cases o with
  | csv header lines nodup fits => exact csv_steady_iff
  | jsonl rows nodup => exact jsonl_steady_iff

end Batches

end OranAdapt
