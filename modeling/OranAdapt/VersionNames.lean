import OranAdapt.DataHistory
import OranAdapt.Table

/-!
# What a version name says

A name that is taken is given out again only for the same content hash. The
hash tells the keys, the deleted keys and the hashed rows apart; a hashed row
tells its timestamp and its payload apart except where the payload has a column
`observed_at`, which is then hashed in the timestamp's place.
-/

namespace OranAdapt

open Runs

/-! ## What a hashed row tells -/

namespace Payload

theorem mem_keys_of_get {p : Payload} {k : String} {v : Json} (h : p.get k = some v) : (k, v) ∈ p.fields :=
  Table.lookup_mem h

theorem not_mem_keys_without (p : Payload) (k : String) : k ∉ (p.without k).keys := by
  intro hk
  obtain ⟨f, hf, rfl⟩ := List.mem_map.mp hk
  have hne := List.of_mem_filter hf
  simp at hne

theorem without_of_not_mem {p : Payload} {k : String} (h : k ∉ p.keys) : p.without k = p := by
  apply ext
  show p.fields.filter (fun f => decide (f.1 ≠ k)) = p.fields
  rw [List.filter_eq_self]
  intro f hf
  have hne : f.1 ≠ k := fun heq => h (heq ▸ List.mem_map_of_mem hf)
  simpa using hne

/-- A dict is what is left without a key, and the key put back. -/
theorem insertField_filter {k : String} {v : Json} {fs : JsonDict} (hs : (fs.map Prod.fst).Pairwise (· < ·))
    (h : (k, v) ∈ fs) : insertField k v (fs.filter (·.1 ≠ k)) = fs := by
  induction fs with
  | nil => cases h
  | cons f fs ih =>
    rw [List.map_cons, List.pairwise_cons] at hs
    by_cases hf : f.1 = k
    · have hrest : fs.filter (·.1 ≠ k) = fs := by
        rw [List.filter_eq_self]
        intro g hg
        have hlt := hs.1 _ (List.mem_map_of_mem hg)
        rw [hf] at hlt
        simpa using (ne_of_lt hlt).symm
      have hhead : f = (k, v) := by
        rcases List.mem_cons.mp h with heq | hmem
        · exact heq.symm
        · have hlt := hs.1 _ (List.mem_map_of_mem hmem)
          exact absurd hlt (by rw [hf]; exact lt_irrefl k)
      rw [List.filter_cons_of_neg (by simp [hf]), hrest, hhead]
      cases fs with
      | nil => rfl
      | cons g fs =>
        have hlt := hs.1 _ (List.mem_map_of_mem (List.mem_cons_self (a := g)))
        rw [hf] at hlt
        rw [insertField, if_pos hlt]
    · have hmem : (k, v) ∈ fs := by
        rcases List.mem_cons.mp h with heq | hmem
        · exact absurd (congrArg Prod.fst heq.symm) hf
        · exact hmem
      have hlt := hs.1 _ (List.mem_map_of_mem hmem)
      rw [List.filter_cons_of_pos (by simp [hf]), insertField, if_neg (not_lt.mpr (le_of_lt hlt)), ih hs.2 hmem]

theorem sorted (p : Payload) : (p.fields.map Prod.fst).Pairwise (· < ·) := by
  cases p.wellFormed with
  | obj hsorted _ => exact hsorted

theorem insertField_without {p : Payload} {k : String} {v : Json} (h : p.get k = some v) :
    insertField k v (p.without k).fields = p.fields :=
  insertField_filter p.sorted (mem_keys_of_get h)

theorem get_of_mem {p : Payload} {k : String} {v : Json} (h : (k, v) ∈ p.fields) : p.get k = some v :=
  Table.lookup_of_mem (p.sorted.imp ne_of_lt) h

end Payload

/-- The row's payload has the text of the other row's timestamp under `observed_at`, and is
otherwise the other's payload. -/
def Carries (r s : DateTime × Payload) : Prop :=
  r.2.get "observed_at" = some (.str s.1.isoformat) ∧ r.2.without "observed_at" = s.2

/-- The rows are the same, or differ in no more than a timestamp that a payload column
`observed_at` stands for. -/
def SameButTime (r s : DateTime × Payload) : Prop :=
  r = s ∨ r.2 = s.2 ∧ "observed_at" ∈ r.2.keys ∨ Carries r s ∨ Carries s r

theorem Carries.canonicalRow_eq {r s : DateTime × Payload} (h : Carries r s) :
    canonicalRow r.1 r.2 = canonicalRow s.1 s.2 := by
  obtain ⟨hget, hrest⟩ := h
  have hmem : "observed_at" ∈ r.2.keys := List.mem_map_of_mem (Payload.mem_keys_of_get hget)
  have hnot : "observed_at" ∉ s.2.keys := hrest ▸ r.2.not_mem_keys_without _
  rw [canonicalRow, canonicalRow, Payload.withDefault, Payload.withDefault, if_pos hmem, if_neg hnot, ← hrest]
  exact (Payload.insertField_without hget).symm

/-- With a column `observed_at` on one side only, that side carries the other's timestamp. -/
theorem Carries.of_canonicalRow {r s : DateTime × Payload} (hr : "observed_at" ∈ r.2.keys)
    (hs : "observed_at" ∉ s.2.keys) (h : canonicalRow r.1 r.2 = canonicalRow s.1 s.2) : Carries r s := by
  rw [canonicalRow, canonicalRow, Payload.withDefault, Payload.withDefault, if_pos hr, if_neg hs] at h
  constructor
  · apply Payload.get_of_mem
    rw [h]
    exact Payload.mem_insertField.mpr (.inl rfl)
  · apply Payload.ext
    have hrest := Payload.filter_insertField (v := .str s.1.isoformat) hs
    rw [← h] at hrest
    exact hrest

theorem canonicalRow_eq_iff {r s : DateTime × Payload} :
    canonicalRow r.1 r.2 = canonicalRow s.1 s.2 ↔ SameButTime r s := by
  constructor
  · intro h
    by_cases hr : "observed_at" ∈ r.2.keys
    · by_cases hs : "observed_at" ∈ s.2.keys
      · rw [canonicalRow, canonicalRow, Payload.withDefault, Payload.withDefault, if_pos hr, if_pos hs] at h
        exact .inr (.inl ⟨Payload.ext h, hr⟩)
      · exact .inr (.inr (.inl (.of_canonicalRow hr hs h)))
    · by_cases hs : "observed_at" ∈ s.2.keys
      · exact .inr (.inr (.inr (.of_canonicalRow hs hr h.symm)))
      · obtain ⟨htime, hpayload⟩ := Payload.withDefault_inj hr hs h
        exact .inl (Prod.ext (DateTime.isoformat_inj (Json.str.inj htime)) hpayload)
  · rintro (rfl | ⟨hpayload, hmem⟩ | h | h)
    · rfl
    · rw [canonicalRow, canonicalRow, Payload.withDefault, Payload.withDefault, ← hpayload, if_pos hmem, if_pos hmem]
    · exact h.canonicalRow_eq
    · exact h.canonicalRow_eq.symm

/-! ## What the hash of a version tells -/

section
variable {sha256 : String → String}

theorem rowsDigest_eq (sha256 : String → String) (rows : List (DateTime × Payload)) :
    rowsDigest sha256 rows = sha256 (Json.arr ((rows.map fun r => canonicalRow r.1 r.2).map .obj)).dumps := by
  rw [rowsDigest, RowHasher.final_foldl]

theorem rowsJson_wellFormed (rows : List (DateTime × Payload)) :
    (Json.arr ((rows.map fun r => canonicalRow r.1 r.2).map .obj)).WellFormed := by
  constructor
  simp only [List.map_map, List.mem_map]
  rintro _ ⟨r, -, rfl⟩
  exact canonicalRow_wellFormed r.1 r.2

theorem rows_sameButTime {rows rows' : List (DateTime × Payload)}
    (h : Json.arr ((rows.map fun r => canonicalRow r.1 r.2).map .obj) =
      .arr ((rows'.map fun r => canonicalRow r.1 r.2).map .obj)) : List.Forall₂ SameButTime rows rows' := by
  have hrows : rows.map (fun r => canonicalRow r.1 r.2) = rows'.map (fun r => canonicalRow r.1 r.2) :=
    List.map_injective_iff.mpr (fun _ _ => Json.obj.inj) (Json.arr.inj h)
  clear h
  induction rows generalizing rows' with
  | nil =>
    cases rows' with
    | nil => exact .nil
    | cons r' rows' => cases hrows
  | cons r rows ih =>
    cases rows' with
    | nil => cases hrows
    | cons r' rows' =>
      rw [List.map_cons, List.map_cons, List.cons.injEq] at hrows
      exact .cons (canonicalRow_eq_iff.mp hrows.1) (ih hrows.2)

theorem rowsDigest_inj (hsha : sha256.Injective) {rows rows' : List (DateTime × Payload)}
    (h : rowsDigest sha256 rows = rowsDigest sha256 rows') : List.Forall₂ SameButTime rows rows' := by
  rw [rowsDigest_eq, rowsDigest_eq] at h
  exact rows_sameButTime (Json.dumps_inj (rowsJson_wellFormed rows) (rowsJson_wellFormed rows') (hsha h))

theorem rowsDigest_congr {rows rows' : List (DateTime × Payload)} (h : List.Forall₂ SameButTime rows rows') :
    rowsDigest sha256 rows = rowsDigest sha256 rows' := by
  have hrows : rows.map (fun r => canonicalRow r.1 r.2) = rows'.map (fun r => canonicalRow r.1 r.2) := by
    induction h with
    | nil => rfl
    | cons hr _ ih => rw [List.map_cons, List.map_cons, canonicalRow_eq_iff.mpr hr, ih]
  rw [rowsDigest, rowsDigest, hrows]

theorem keyJson_inj {k l : Option String} (h : keyJson k = keyJson l) : k = l := by
  cases k with
  | none =>
    cases l with
    | none => rfl
    | some l => cases h
  | some k =>
    cases l with
    | none => cases h
    | some l => rw [Json.str.inj h]

def keyedJson (digest : String) (recordKeys : Option (List (Option String))) (deletedKeys : List String) : Json :=
  .arr [.str digest, (recordKeys.map fun keys => Json.arr (keys.map keyJson)).getD .null,
    .arr ((deletedKeys.insertionSort (· ≤ ·)).map .str)]

theorem keyedJson_wellFormed (digest : String) (recordKeys : Option (List (Option String))) (deletedKeys : List String) :
    (keyedJson digest recordKeys deletedKeys).WellFormed := by
  have hkeys : ∀ keys : List (Option String), (Json.arr (keys.map keyJson)).WellFormed := by
    intro keys
    constructor
    intro v hv
    obtain ⟨k, -, rfl⟩ := List.mem_map.mp hv
    cases k with
    | none => exact .null
    | some k => exact .str k
  have hdeleted : (Json.arr ((deletedKeys.insertionSort (· ≤ ·)).map .str)).WellFormed := by
    constructor
    intro v hv
    obtain ⟨k, -, rfl⟩ := List.mem_map.mp hv
    exact .str k
  constructor
  simp only [List.mem_cons, List.not_mem_nil, or_false]
  rintro v (rfl | rfl | rfl)
  · exact .str digest
  · cases recordKeys with
    | none => exact .null
    | some keys => exact hkeys keys
  · exact hdeleted

theorem keyedJson_inj {digest digest' : String} {recordKeys recordKeys' : Option (List (Option String))}
    {deletedKeys deletedKeys' : List String}
    (h : keyedJson digest recordKeys deletedKeys = keyedJson digest' recordKeys' deletedKeys') :
    digest = digest' ∧ recordKeys = recordKeys' ∧
      deletedKeys.insertionSort (· ≤ ·) = deletedKeys'.insertionSort (· ≤ ·) := by
  simp only [keyedJson, Json.arr.injEq, List.cons.injEq, and_true, Json.str.injEq] at h
  obtain ⟨hdigest, hkeys, hdeleted⟩ := h
  refine ⟨hdigest, ?_, List.map_injective_iff.mpr (fun _ _ => Json.str.inj) hdeleted⟩
  cases recordKeys with
  | none =>
    cases recordKeys' with
    | none => rfl
    | some keys' => cases hkeys
  | some keys =>
    cases recordKeys' with
    | none => cases hkeys
    | some keys' => rw [List.map_injective_iff.mpr (fun _ _ => keyJson_inj) (Json.arr.inj hkeys)]

/-- A hash over rows is none over keys: the one is of a list of dicts, the other of a list that starts with a text. -/
theorem rowsJson_ne_keyedJson (rows : List (DateTime × Payload)) (digest : String)
    (recordKeys : Option (List (Option String))) (deletedKeys : List String) :
    Json.arr ((rows.map fun r => canonicalRow r.1 r.2).map .obj) ≠ keyedJson digest recordKeys deletedKeys := by
  intro h
  cases rows with
  | nil => cases h
  | cons r rows => simp [keyedJson] at h

theorem keyedHash_inj (hsha : sha256.Injective) {rows rows' : List (DateTime × Payload)}
    {recordKeys recordKeys' : Option (List (Option String))} {deletedKeys deletedKeys' : List String}
    (h : keyedHash sha256 (rowsDigest sha256 rows) recordKeys deletedKeys =
      keyedHash sha256 (rowsDigest sha256 rows') recordKeys' deletedKeys') :
    List.Forall₂ SameButTime rows rows' ∧ recordKeys = recordKeys' ∧
      deletedKeys.insertionSort (· ≤ ·) = deletedKeys'.insertionSort (· ≤ ·) := by
  unfold keyedHash at h
  by_cases hplain : recordKeys = none ∧ deletedKeys = []
  · by_cases hplain' : recordKeys' = none ∧ deletedKeys' = []
    · rw [if_pos hplain, if_pos hplain'] at h
      obtain ⟨rfl, rfl⟩ := hplain
      obtain ⟨rfl, rfl⟩ := hplain'
      exact ⟨rowsDigest_inj hsha h, rfl, rfl⟩
    · rw [if_pos hplain, if_neg hplain', rowsDigest_eq] at h
      exact absurd (Json.dumps_inj (rowsJson_wellFormed rows) (keyedJson_wellFormed _ _ _) (hsha h))
        (rowsJson_ne_keyedJson _ _ _ _)
  · by_cases hplain' : recordKeys' = none ∧ deletedKeys' = []
    · rw [if_neg hplain, if_pos hplain', rowsDigest_eq sha256 rows'] at h
      exact absurd (Json.dumps_inj (rowsJson_wellFormed rows') (keyedJson_wellFormed _ _ _) (hsha h.symm))
        (rowsJson_ne_keyedJson _ _ _ _)
    · rw [if_neg hplain, if_neg hplain'] at h
      obtain ⟨hdigest, hkeys, hdeleted⟩ :=
        keyedJson_inj (Json.dumps_inj (keyedJson_wellFormed _ _ _) (keyedJson_wellFormed _ _ _) (hsha h))
      exact ⟨rowsDigest_inj hsha hdigest, hkeys, hdeleted⟩

end

end OranAdapt
