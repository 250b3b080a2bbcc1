import OranAdapt.JsonText
import Mathlib.Data.String.Basic
import Mathlib.Data.List.Sort

/-!
# Rows and their hash

`datastore.formats`, and the hashes of `datastore.versioning`. A row is hashed
as one JSON object: its payload, and its timestamp under `observed_at`. A
payload column of that name takes the timestamp's place.
-/

namespace OranAdapt

/-! ## Timestamps -/

/-- A `datetime` in UTC. -/
structure DateTime where
  year : Nat
  month : Nat
  day : Nat
  hour : Nat
  minute : Nat
  second : Nat
  microsecond : Nat
  year_le : year ≤ 9999 := by decide
  month_le : month ≤ 12 := by decide
  day_le : day ≤ 31 := by decide
  hour_lt : hour < 24 := by decide
  minute_lt : minute < 60 := by decide
  second_lt : second < 60 := by decide
  microsecond_lt : microsecond < 1000000 := by decide
deriving DecidableEq

namespace DateTime

def padded : Nat → Nat → List Char
  | 0, _ => []
  | k + 1, n => padded k (n / 10) ++ [Nat.digitChar (n % 10)]

def fraction (microsecond : Nat) : List Char := if microsecond = 0 then [] else '.' :: padded 6 microsecond

def isoText (d : DateTime) : List Char :=
  padded 4 d.year ++ ['-'] ++ padded 2 d.month ++ ['-'] ++ padded 2 d.day ++ ['T'] ++ padded 2 d.hour ++ [':'] ++
    padded 2 d.minute ++ [':'] ++ padded 2 d.second ++ fraction d.microsecond ++ "+00:00".toList

def isoformat (d : DateTime) : String := String.ofList d.isoText

def ticks (d : DateTime) : Nat :=
  (((((d.year * 13 + d.month) * 32 + d.day) * 24 + d.hour) * 60 + d.minute) * 60 + d.second) * 1000000 + d.microsecond

theorem digitChar_inj {m n : Nat} (hm : m < 10) (hn : n < 10) (h : Nat.digitChar m = Nat.digitChar n) : m = n := by
  have hall : ∀ a < 10, ∀ b < 10, Nat.digitChar a = Nat.digitChar b → a = b := by decide
  exact hall m hm n hn h

theorem length_padded (k n : Nat) : (padded k n).length = k := by
  induction k generalizing n with
  | zero => rfl
  | succ k ih => simp [padded, ih]

theorem padded_inj {k m n : Nat} (h : padded k m = padded k n) : m % 10 ^ k = n % 10 ^ k := by
  induction k generalizing m n with
  | zero => simp [Nat.mod_one]
  | succ k ih =>
    rw [padded, padded] at h
    obtain ⟨hhigh, hlow⟩ := List.append_inj' h rfl
    have hdigit : m % 10 = n % 10 :=
      digitChar_inj (Nat.mod_lt _ (by decide)) (Nat.mod_lt _ (by decide)) (List.cons.inj hlow).1
    rw [Nat.pow_succ, Nat.mul_comm, Nat.mod_mul, Nat.mod_mul, hdigit, ih hhigh]

theorem padded_append_inj {k m n : Nat} {s t : List Char} (hm : m < 10 ^ k) (hn : n < 10 ^ k)
    (h : padded k m ++ s = padded k n ++ t) : m = n ∧ s = t := by
  obtain ⟨hpad, hrest⟩ := List.append_inj h (by rw [length_padded, length_padded])
  have hmod := padded_inj hpad
  rw [Nat.mod_eq_of_lt hm, Nat.mod_eq_of_lt hn] at hmod
  exact ⟨hmod, hrest⟩

theorem fraction_inj {m n : Nat} (hm : m < 1000000) (hn : n < 1000000)
    (h : fraction m ++ "+00:00".toList = fraction n ++ "+00:00".toList) : m = n := by
  have hfraction := List.append_cancel_right h
  unfold fraction at hfraction
  by_cases hm0 : m = 0
  · by_cases hn0 : n = 0
    · rw [hm0, hn0]
    · simp [hm0, hn0] at hfraction
  · by_cases hn0 : n = 0
    · simp [hm0, hn0] at hfraction
    · rw [if_neg hm0, if_neg hn0, List.cons.injEq] at hfraction
      have hpad : padded 6 m ++ [] = padded 6 n ++ [] := by rw [hfraction.2]
      exact (padded_append_inj hm hn hpad).1

theorem isoformat_inj {d e : DateTime} (h : d.isoformat = e.isoformat) : d = e := by
  have htext : d.isoText = e.isoText := String.ofList_injective h
  simp only [isoText, List.append_assoc] at htext
  have hd := d.year_le
  have hd' := d.month_le
  have hd'' := d.day_le
  have he := e.year_le
  have he' := e.month_le
  have he'' := e.day_le
  have hdh := d.hour_lt
  have hdm := d.minute_lt
  have hds := d.second_lt
  have heh := e.hour_lt
  have hem := e.minute_lt
  have hes := e.second_lt
  obtain ⟨hyear, h⟩ := padded_append_inj (by omega) (by omega) htext
  obtain ⟨hmonth, h⟩ := padded_append_inj (by omega) (by omega) (List.append_cancel_left h)
  obtain ⟨hday, h⟩ := padded_append_inj (by omega) (by omega) (List.append_cancel_left h)
  obtain ⟨hhour, h⟩ := padded_append_inj (by omega) (by omega) (List.append_cancel_left h)
  obtain ⟨hminute, h⟩ := padded_append_inj (by omega) (by omega) (List.append_cancel_left h)
  obtain ⟨hsecond, h⟩ := padded_append_inj (by omega) (by omega) (List.append_cancel_left h)
  have hmicrosecond := fraction_inj d.microsecond_lt e.microsecond_lt h
  cases d
  cases e
  simp_all

theorem ticks_inj {d e : DateTime} (h : d.ticks = e.ticks) : d = e := by
  have hd := d.month_le
  have hd' := d.day_le
  have hdh := d.hour_lt
  have hdm := d.minute_lt
  have hds := d.second_lt
  have hdu := d.microsecond_lt
  have he := e.month_le
  have he' := e.day_le
  have heh := e.hour_lt
  have hem := e.minute_lt
  have hes := e.second_lt
  have heu := e.microsecond_lt
  unfold ticks at h
  have hmicrosecond : d.microsecond = e.microsecond := by omega
  have hsecond : d.second = e.second := by omega
  have hminute : d.minute = e.minute := by omega
  have hhour : d.hour = e.hour := by omega
  have hday : d.day = e.day := by omega
  have hmonth : d.month = e.month := by omega
  have hyear : d.year = e.year := by omega
  cases d
  cases e
  simp_all

instance : LinearOrder DateTime := LinearOrder.lift' ticks fun _ _ => ticks_inj

end DateTime

/-! ## Payloads -/

/-- A dict of JSON values, as its items in the order of their keys: `==` does not look at the
order they were put in. -/
structure Payload where
  fields : JsonDict
  wellFormed : (Json.obj fields).WellFormed

namespace Payload

theorem ext {p q : Payload} (h : p.fields = q.fields) : p = q := by
  cases p
  cases q
  simp_all

def keys (p : Payload) : List String := p.fields.map Prod.fst

def get (p : Payload) (k : String) : Option Json := p.fields.lookup k

def insertField (k : String) (v : Json) : JsonDict → JsonDict
  | [] => [(k, v)]
  | f :: fs => if k < f.1 then (k, v) :: f :: fs else f :: insertField k v fs

theorem mem_insertField {k : String} {v : Json} {f : String × Json} : ∀ {fs : JsonDict},
    f ∈ insertField k v fs ↔ f = (k, v) ∨ f ∈ fs
  | [] => by simp [insertField]
  | g :: fs => by
    rw [insertField]
    split
    · rw [List.mem_cons]
    · rw [List.mem_cons, mem_insertField, List.mem_cons]
      exact or_left_comm

theorem insertField_sorted {k : String} {v : Json} {fs : JsonDict} (hs : (fs.map Prod.fst).Pairwise (· < ·))
    (hk : k ∉ fs.map Prod.fst) : ((insertField k v fs).map Prod.fst).Pairwise (· < ·) := by
  induction fs with
  | nil => simp [insertField]
  | cons f fs ih =>
    rw [List.map_cons, List.pairwise_cons] at hs
    rw [List.map_cons, List.mem_cons, not_or] at hk
    rw [insertField]
    split
    · rename_i hlt
      rw [List.map_cons, List.pairwise_cons]
      refine ⟨?_, by rw [List.map_cons, List.pairwise_cons]; exact hs⟩
      intro l hl
      rw [List.map_cons, List.mem_cons] at hl
      rcases hl with rfl | hl
      · exact hlt
      · exact lt_trans hlt (hs.1 l hl)
    · rename_i hlt
      rw [List.map_cons, List.pairwise_cons]
      refine ⟨?_, ih hs.2 hk.2⟩
      intro l hl
      obtain ⟨g, hg, rfl⟩ := List.mem_map.mp hl
      rcases mem_insertField.mp hg with rfl | hg
      · exact lt_of_le_of_ne (not_lt.mp hlt) (Ne.symm hk.1)
      · exact hs.1 _ (List.mem_map_of_mem hg)

theorem filter_insertField {k : String} {v : Json} {fs : JsonDict} (hk : k ∉ fs.map Prod.fst) :
    (insertField k v fs).filter (·.1 ≠ k) = fs := by
  induction fs with
  | nil => simp [insertField]
  | cons f fs ih =>
    rw [List.map_cons, List.mem_cons, not_or] at hk
    have hf : f.1 ≠ k := Ne.symm hk.1
    have hfs : fs.filter (·.1 ≠ k) = fs := by
      rw [List.filter_eq_self]
      intro g hg
      have hne : g.1 ≠ k := fun heq => hk.2 (heq ▸ List.mem_map_of_mem hg)
      simpa using hne
    rw [insertField]
    split
    · rw [List.filter_cons_of_neg (by simp), List.filter_cons_of_pos (by simpa using hf), hfs]
    · rw [List.filter_cons_of_pos (by simpa using hf), ih hk.2]

/-- `{k: v, **p}`: the payload's own value of `k` stays. -/
def withDefault (k : String) (v : Json) (p : Payload) : JsonDict :=
  if k ∈ p.keys then p.fields else insertField k v p.fields

theorem withDefault_wellFormed {k : String} {v : Json} (hv : v.WellFormed) (p : Payload) :
    (Json.obj (p.withDefault k v)).WellFormed := by
  unfold withDefault
  split
  · exact p.wellFormed
  · rename_i hk
    cases p.wellFormed with
    | obj hsorted hvalues =>
      refine .obj (insertField_sorted hsorted hk) ?_
      intro f hf
      rcases mem_insertField.mp hf with rfl | hf
      · exact hv
      · exact hvalues f hf

/-- Where neither dict has the key, the default and the rest can both be told. -/
theorem withDefault_inj {k : String} {v w : Json} {p q : Payload} (hp : k ∉ p.keys) (hq : k ∉ q.keys)
    (h : p.withDefault k v = q.withDefault k w) : v = w ∧ p = q := by
  rw [withDefault, withDefault, if_neg hp, if_neg hq] at h
  have hpq : p.fields = q.fields := by
    rw [← filter_insertField (v := v) hp, h, filter_insertField hq]
  refine ⟨?_, ext hpq⟩
  have hmem : (k, v) ∈ insertField k w q.fields := h ▸ mem_insertField.mpr (.inl rfl)
  rcases mem_insertField.mp hmem with heq | hmem
  · exact (Prod.mk.inj heq).2
  · exact absurd (List.mem_map_of_mem (f := Prod.fst) hmem) hq

end Payload

/-! ## Hashes -/

def canonicalRow (ts : DateTime) (payload : Payload) : JsonDict :=
  payload.withDefault "observed_at" (.str ts.isoformat)

theorem canonicalRow_wellFormed (ts : DateTime) (payload : Payload) : (Json.obj (canonicalRow ts payload)).WellFormed :=
  Payload.withDefault_wellFormed (.str _) payload

/-- `RowHasher`: what was fed to the digest so far. -/
structure RowHasher where
  buffer : List Char := ['[']
  rows : Nat := 0

namespace RowHasher

def add (h : RowHasher) (row : JsonDict) : RowHasher where
  buffer := h.buffer ++ (if h.rows = 0 then [] else ", ".toList) ++ Json.text (.obj row)
  rows := h.rows + 1

def final (h : RowHasher) : String := String.ofList (h.buffer ++ [']'])

theorem foldl_add (h : RowHasher) (rows : List JsonDict) (hpos : h.rows ≠ 0) :
    (rows.foldl add h).buffer = h.buffer ++ Json.itemsText (rows.map .obj) := by
  induction rows generalizing h with
  | nil => simp [Json.itemsText]
  | cons row rows ih =>
    rw [List.foldl_cons, ih _ (Nat.succ_ne_zero _)]
    simp [add, hpos, Json.itemsText]

theorem final_foldl (rows : List JsonDict) : (rows.foldl add {}).final = (Json.arr (rows.map .obj)).dumps := by
  cases rows with
  | nil => rfl
  | cons row rows =>
    rw [List.foldl_cons, final, foldl_add _ _ (by simp [add])]
    simp [add, Json.dumps, Json.text]

end RowHasher

section
variable (sha256 : String → String)

def rowsDigest (rows : List (DateTime × Payload)) : String :=
  sha256 ((rows.map fun r => canonicalRow r.1 r.2).foldl RowHasher.add {}).final

def keyJson : Option String → Json
  | some k => .str k
  | none => .null

def keyedHash (digest : String) (recordKeys : Option (List (Option String))) (deletedKeys : List String) : String :=
  if recordKeys = none ∧ deletedKeys = [] then digest
  else
    sha256 (Json.arr [.str digest, (recordKeys.map fun keys => Json.arr (keys.map keyJson)).getD .null,
      .arr ((deletedKeys.insertionSort (· ≤ ·)).map .str)]).dumps

end

end OranAdapt
