import OranAdapt.Batches

/-!
# Types of batches

The type of a column is the merge of the types of its parts, however it is cut:
what differs between the parts is only what a column of type `object` holds. A
part that reads as numbers or booleans holds those, not the text of its fields,
and a part of numbers with a float or a gap holds every integer as a float.
-/

namespace OranAdapt

namespace Batches

/-! ## Cutting a list -/

section
variable {α : Type} {k : Nat} {rows : List α}

theorem chunksTo_flatten (hk : 1 ≤ k) : ∀ (fuel : Nat) (rows : List α), rows.length ≤ fuel →
    (chunksTo k fuel rows).flatten = rows := by
  intro fuel
  induction fuel with
  | zero =>
    intro rows h
    cases rows with
    | nil => rfl
    | cons row rows => simp at h
  | succ fuel ih =>
    intro rows h
    cases rows with
    | nil => rfl
    | cons row rows =>
      have hrest : ((row :: rows).drop k).length ≤ fuel := by
        rw [List.length_drop]
        omega
      rw [chunksTo, List.flatten_cons, ih _ hrest, List.take_append_drop]

theorem chunks_flatten (hk : 1 ≤ k) (rows : List α) : (chunks k rows).flatten = rows :=
  chunksTo_flatten hk _ _ le_rfl

theorem ne_nil_of_mem_chunksTo (hk : 1 ≤ k) : ∀ (fuel : Nat) (rows : List α),
    ∀ part ∈ chunksTo k fuel rows, part ≠ [] := by
  intro fuel
  induction fuel with
  | zero =>
    intro rows part h
    simp [chunksTo] at h
  | succ fuel ih =>
    intro rows part h
    cases rows with
    | nil => simp [chunksTo] at h
    | cons row rows =>
      rw [chunksTo, List.mem_cons] at h
      rcases h with rfl | h
      · intro hnil
        rw [List.take_eq_nil_iff] at hnil
        rcases hnil with hnil | hnil
        · omega
        · cases hnil
      · exact ih _ part h

theorem ne_nil_of_mem_chunks (hk : 1 ≤ k) {part : List α} (h : part ∈ chunks k rows) : part ≠ [] :=
  ne_nil_of_mem_chunksTo hk _ _ part h

theorem chunks_whole (hne : rows ≠ []) (hk : rows.length ≤ k) : chunks k rows = [rows] := by
  cases rows with
  | nil => exact absurd rfl hne
  | cons row rows =>
    rw [chunks, List.length_cons, chunksTo, List.take_of_length_le hk, List.drop_of_length_le hk]
    cases rows.length <;> rfl

theorem mem_chunks_one {row : α} (h : row ∈ rows) : [row] ∈ chunks 1 rows := by
  have hgo : ∀ (fuel : Nat) (rows : List α), rows.length ≤ fuel → row ∈ rows → [row] ∈ chunksTo 1 fuel rows := by
    intro fuel
    induction fuel with
    | zero =>
      intro rows hlen hrow
      cases rows with
      | nil => cases hrow
      | cons r rows => simp at hlen
    | succ fuel ih =>
      intro rows hlen hrow
      cases rows with
      | nil => cases hrow
      | cons r rows =>
        rw [chunksTo, List.mem_cons]
        rcases List.mem_cons.mp hrow with rfl | hrow
        · exact .inl rfl
        · right
          apply ih
          · simpa using hlen
          · exact hrow
  exact hgo _ _ le_rfl h

end

/-! ## What pandas infers -/

namespace Value

variable {v : Value}

theorem isNumber_of_isInt (h : v.isInt = true) : v.isNumber = true := by
  cases v <;> simp [isInt, isNumber] at h ⊢

theorem not_isBool_of_isInt (h : v.isInt = true) : v.isBool = false := by
  cases v <;> simp [isInt, isBool] at h ⊢

theorem not_number_of_isBool (h : v.isBool = true) : (v.isNumber || v.isMissing) = false := by
  cases v <;> simp [isBool, isNumber, isMissing] at h ⊢

end Value

def inferOf (ints bools numbers : Bool) : Dtype :=
  if ints then .int64 else if bools then .bool else if numbers then .float64 else .object

def allInts (column : List Field) : Bool := column.all (·.value.isInt)

def allBools (column : List Field) : Bool := column.all (·.value.isBool)

def allNumbers (column : List Field) : Bool := column.all fun f => f.value.isNumber || f.value.isMissing

section
variable {xs ys column : List Field} {f : Field}

theorem infer_eq (h : column ≠ []) : infer column = inferOf (allInts column) (allBools column) (allNumbers column) := by
  unfold infer
  rw [if_neg (by simpa using h)]
  rfl

/-- No value is an integer and a boolean, and an integer is a number. -/
structure Kinds (ints bools numbers : Bool) : Prop where
  number : ints = true → numbers = true
  int : ints = true → bools = false
  bool : bools = true → numbers = false

theorem kinds (h : column ≠ []) : Kinds (allInts column) (allBools column) (allNumbers column) := by
  obtain ⟨f, hf⟩ := List.exists_mem_of_ne_nil _ h
  constructor
  · intro hints
    apply List.all_eq_true.mpr
    intro g hg
    simp [Value.isNumber_of_isInt (List.all_eq_true.mp hints g hg)]
  · intro hints
    apply List.all_eq_false.mpr
    exact ⟨f, hf, by simp [Value.not_isBool_of_isInt (List.all_eq_true.mp hints f hf)]⟩
  · intro hbools
    apply List.all_eq_false.mpr
    exact ⟨f, hf, by simp [Value.not_number_of_isBool (List.all_eq_true.mp hbools f hf)]⟩

/-- The type that holds the values of both. -/
def join (a b : Dtype) : Dtype :=
  match a, b with
  | .int64, .int64 => .int64
  | .bool, .bool => .bool
  | .int64, .float64 | .float64, .int64 | .float64, .float64 => .float64
  | _, _ => .object

theorem merge_name (a b : Dtype) : merge a.name b.name = (join a b).name := by
  cases a <;> cases b <;> decide

theorem inferOf_and : ∀ i b n i' b' n' : Bool, Kinds i b n → Kinds i' b' n' →
    inferOf (i && i') (b && b') (n && n') = join (inferOf i b n) (inferOf i' b' n') := by
  intro i b n i' b' n' h h'
  have h₁ := h.number
  have h₂ := h.int
  have h₃ := h.bool
  have h₁' := h'.number
  have h₂' := h'.int
  have h₃' := h'.bool
  cases i <;> cases b <;> cases n <;> cases i' <;> cases b' <;> cases n' <;>
    simp [inferOf, join] at h₁ h₂ h₃ h₁' h₂' h₃' ⊢

/-- The merge of the types of two parts is the type of both together. -/
theorem merge_infer (hx : xs ≠ []) (hy : ys ≠ []) : merge (infer xs).name (infer ys).name = (infer (xs ++ ys)).name := by
  have happend : xs ++ ys ≠ [] := by simp [hx]
  rw [merge_name, infer_eq hx, infer_eq hy, infer_eq happend, ← inferOf_and _ _ _ _ _ _ (kinds hx) (kinds hy)]
  unfold allInts allBools allNumbers
  rw [List.all_append, List.all_append, List.all_append]

theorem ne_nil_of_infer {t : Dtype} (h : infer column = t) (ht : t ≠ .object) : column ≠ [] := by
  intro hnil
  rw [hnil] at h
  exact ht h.symm

theorem infer_int64_iff : infer column = .int64 ↔ column ≠ [] ∧ allInts column = true := by
  constructor
  · intro h
    have hne := ne_nil_of_infer h (by decide)
    rw [infer_eq hne] at h
    refine ⟨hne, ?_⟩
    cases hi : allInts column with
    | true => rfl
    | false => cases hb : allBools column <;> cases hn : allNumbers column <;> simp [hi, hb, hn, inferOf] at h
  · intro h
    rw [infer_eq h.1, h.2]
    rfl

theorem infer_bool_iff : infer column = .bool ↔ column ≠ [] ∧ allBools column = true := by
  constructor
  · intro h
    have hne := ne_nil_of_infer h (by decide)
    rw [infer_eq hne] at h
    refine ⟨hne, ?_⟩
    cases hb : allBools column with
    | true => rfl
    | false => cases hi : allInts column <;> cases hn : allNumbers column <;> simp [hi, hb, hn, inferOf] at h
  · intro h
    have hi : allInts column = false := by
      cases hi : allInts column with
      | false => rfl
      | true => exact absurd h.2 (by simp [(kinds h.1).int hi])
    rw [infer_eq h.1, h.2, hi]
    rfl

theorem infer_float64_iff : infer column = .float64 ↔ column ≠ [] ∧ allNumbers column = true ∧
    allInts column = false := by
  constructor
  · intro h
    have hne := ne_nil_of_infer h (by decide)
    rw [infer_eq hne] at h
    refine ⟨hne, ?_⟩
    cases hi : allInts column <;> cases hb : allBools column <;> cases hn : allNumbers column <;>
      simp [hi, hb, hn, inferOf] at h ⊢
  · rintro ⟨hne, hn, hi⟩
    have hb : allBools column = false := by
      cases hb : allBools column with
      | false => rfl
      | true => exact absurd hn (by simp [(kinds hne).bool hb])
    rw [infer_eq hne, hn, hi, hb]
    rfl

end

/-! ## What a part holds -/

theorem Dtype.name_inj {a b : Dtype} (h : a.name = b.name) : a = b := by
  cases a <;> cases b <;> simp [name] at h ⊢

namespace Pandas

variable (pd : Pandas) {whole part : List Field} {f : Field}

theorem load_int64 (h : infer part = .int64) : pd.load part f = f.value := by simp [load, h]

theorem load_bool (h : infer part = .bool) : pd.load part f = f.value := by simp [load, h]

theorem load_float64 (h : infer part = .float64) : pd.load part f = pd.toFloat f.value := by simp [load, h]

/-- A part's value of a field once it has the type of the whole column. -/
def settled (whole part : List Field) (f : Field) : Value :=
  match infer whole with
  | .object => pd.load part f
  | _ => pd.load whole f

theorem settled_object (h : infer whole = .object) : pd.settled whole part f = pd.load part f := by simp [settled, h]

theorem settled_of_ne_object (h : infer whole ≠ .object) : pd.settled whole part f = pd.load whole f := by
  unfold settled
  cases hw : infer whole with
  | object => exact absurd hw h
  | _ => rfl

theorem settled_self : pd.settled whole whole f = pd.load whole f := by
  by_cases h : infer whole = .object
  · exact pd.settled_object h
  · exact pd.settled_of_ne_object h

theorem part_of_float64 (hne : part ≠ []) (hsub : ∀ f ∈ part, f ∈ whole) (h : infer whole = .float64) :
    infer part = .int64 ∨ infer part = .float64 := by
  have hwhole := (infer_float64_iff.mp h).2.1
  have hnumbers : allNumbers part = true :=
    List.all_eq_true.mpr fun f hf => List.all_eq_true.mp hwhole f (hsub f hf)
  cases hi : allInts part with
  | true => exact .inl (infer_int64_iff.mpr ⟨hne, hi⟩)
  | false => exact .inr (infer_float64_iff.mpr ⟨hne, hnumbers, hi⟩)

theorem cast_settled (hsub : ∀ f ∈ part, f ∈ whole) (hf : f ∈ part) :
    (if infer part = infer whole then some (pd.load part f) else pd.astype (infer whole).name (pd.load part f)) =
      some (pd.settled whole part f) := by
  have hne : part ≠ [] := List.ne_nil_of_mem hf
  cases h : infer whole with
  | int64 =>
    have hwhole := (infer_int64_iff.mp h).2
    have hpart : infer part = .int64 :=
      infer_int64_iff.mpr ⟨hne, List.all_eq_true.mpr fun f hf => List.all_eq_true.mp hwhole f (hsub f hf)⟩
    rw [if_pos hpart, pd.settled_of_ne_object (by simp [h]), pd.load_int64 hpart, pd.load_int64 h]
  | bool =>
    have hwhole := (infer_bool_iff.mp h).2
    have hpart : infer part = .bool :=
      infer_bool_iff.mpr ⟨hne, List.all_eq_true.mpr fun f hf => List.all_eq_true.mp hwhole f (hsub f hf)⟩
    rw [if_pos hpart, pd.settled_of_ne_object (by simp [h]), pd.load_bool hpart, pd.load_bool h]
  | float64 =>
    rw [pd.settled_of_ne_object (by simp [h]), pd.load_float64 h]
    rcases part_of_float64 hne hsub h with hpart | hpart
    · rw [if_neg (by simp [hpart]), pd.load_int64 hpart]
      have hint := List.all_eq_true.mp (infer_int64_iff.mp hpart).2 f hf
      cases hv : f.value with
      | int n => exact pd.astype_float64 n
      | _ => simp [hv, Value.isInt] at hint
    · rw [if_pos hpart, pd.load_float64 hpart]
  | object =>
    rw [pd.settled_object h]
    by_cases hpart : infer part = .object
    · rw [if_pos hpart]
    · rw [if_neg hpart]
      exact pd.astype_object _

/-! ## Where the cut does not matter -/

theorem json_toFloat (h : f.value.isInt = false) : pd.json (pd.toFloat f.value) = pd.json f.value := by
  cases hv : f.value with
  | int n => simp [hv, Value.isInt] at h
  | missing => simp [toFloat, json, floatJson, pd.write_nan]
  | _ => rfl

theorem json_toFloat_int {n : Int} (h : f.value = .int n) : pd.json (pd.toFloat f.value) ≠ pd.json f.value := by
  rw [h]
  change pd.floatJson _ ≠ Json.int n
  unfold floatJson
  cases pd.write (pd.ofInt n) <;> simp

/-- A field that is its own text, in a part without an integer among floats. -/
theorem json_load (hraw : f.raw = f.value) (h : infer part = .float64 → f.value.isInt = false) :
    pd.json (pd.load part f) = pd.json f.value := by
  cases ht : infer part with
  | int64 => rw [pd.load_int64 ht]
  | bool => rw [pd.load_bool ht]
  | float64 => rw [pd.load_float64 ht, pd.json_toFloat (h ht)]
  | object =>
    simp only [load, ht]
    split
    · rfl
    · rw [hraw]

end Pandas

end Batches

end OranAdapt
