import Mathlib.Algebra.BigOperators.Intervals
import OranAdapt.ForwardedMetrics
import OranAdapt.PyDict

/-!
# Metrics sent from a worker to its parent

A worker reports how far each sample moved since its snapshot, and the parent
takes the counts of the single buckets back out of the cumulative ones. A sample
that did not move is left out of the report, so a bucket without an entry is one
that nothing reached yet, and the sum it stands for is still 0.
-/

namespace OranAdapt.ProcessMetrics

open Gains

/-! ## Samples -/

/-- The sample's name without its family's, with the label `le` of a bucket. -/
inductive Suffix where
  | total
  | bucket (le : String)
  | count
  | sum
deriving DecidableEq

/-- `s.name.endswith(("_total", "_bucket", "_sum"))` -/
def Suffix.kept : Suffix → Bool
  | .count => false
  | _ => true

structure Key where
  family : String
  suffix : Suffix
  labels : Labels
deriving DecidableEq

/-- The texts of the declared bounds, as the client writes them. -/
def boundTexts : List (PyFloat × String) := [
  (.fin (1/200), "0.005"), (.fin (1/100), "0.01"), (.fin (1/40), "0.025"), (.fin (1/20), "0.05"), (.fin (1/10), "0.1"),
  (.fin (1/4), "0.25"), (.fin (1/2), "0.5"), (.fin 1, "1.0"), (.fin (5/2), "2.5"), (.fin 5, "5.0"), (.fin 10, "10.0"),
  (.fin 15, "15.0"), (.fin 30, "30.0"), (.fin 60, "60.0"), (.fin 120, "120.0"), (.fin 300, "300.0"), (.fin 600, "600.0"),
  (.fin 1200, "1200.0"), (.fin 1800, "1800.0"), (.fin 3600, "3600.0"), (.inf, "+Inf")]

def client : Client where
  text bound := (boundTexts.lookup bound).getD ""
  float text := ((boundTexts.find? fun p => p.2 = text).map Prod.fst).getD .nan
  float_text := by decide +kernel
  observe bounds value child :=
    ⟨fun i => if bucketOf bounds value = some i then child.buckets i + 1 else child.buckets i, child.sum + value⟩
  buckets_observe _ _ _ _ := rfl
  sum_observe _ _ _ := rfl

def below (counts : Nat → Rat) (n : Nat) : Rat := ∑ i ∈ Finset.range n, counts i

def Child.count (bounds : List PyFloat) (child : Child) : Rat := below child.buckets bounds.length

def cumulate (counts : Nat → Rat) : List PyFloat → Nat → Rat → List (PyFloat × Rat)
  | [], _, _ => []
  | bound :: bounds, i, acc => (bound, acc + counts i) :: cumulate counts bounds (i + 1) (acc + counts i)

section Samples

variable (T : Client)

def childSamples (family : String) (bounds : List PyFloat) (labels : Labels) (child : Child) : List (Key × Rat) :=
  (cumulate child.buckets bounds 0 0).map (fun p => (⟨family, .bucket (T.text p.1), labels⟩, p.2)) ++
    [(⟨family, .count, labels⟩, child.count bounds), (⟨family, .sum, labels⟩, child.sum)]

def Metrics.collect (m : Metrics) : String × MetricKind → List (Key × Rat)
  | (family, .counter) => (m.counters family).rows.map fun row => (⟨family, .total, row.1⟩, row.2)
  | (family, .histogram bounds) => (m.histograms family).rows.flatMap fun row => childSamples T family bounds row.1 row.2

def Metrics.values (m : Metrics) : Table Key Rat :=
  Table.empty.update ((forwarded.flatMap (m.collect T)).filter fun s => s.1.suffix.kept)

def Metrics.deltaSince (m : Metrics) (before : Table Key Rat) : List (Key × Rat) :=
  ((m.values T).rows.filter fun s => s.2 ≠ (before.get? s.1).getD 0).map fun s => (s.1, s.2 - (before.get? s.1).getD 0)

end Samples

/-! ## Applying a report -/

/-- What a report says of one histogram's series. -/
structure Entry where
  buckets : Table PyFloat Rat
  sum : Rat

abbrev Entries := Table (String × Labels) Entry

/-- `histograms.setdefault((family, plain), {"buckets": {}, "sum": 0.0})` -/
def Entries.entry (entries : Entries) (family : String) (labels : Labels) : Entry :=
  (entries.get? (family, labels)).getD ⟨.empty, 0⟩

/-- The first loop of `apply_delta`: counters move at once, histograms are gathered. -/
def readSample (T : Client) (st : Metrics × Entries) (s : Key × Rat) : Metrics × Entries :=
  match byName s.1.family with
  | none => st
  | some kind =>
    if s.2 ≤ 0 then st
    else
      let entry := st.2.entry s.1.family s.1.labels
      match s.1.suffix with
      | .total => if kind = .counter then (st.1.inc s.1.family s.1.labels s.2, st.2) else st
      | .bucket le =>
        (st.1, st.2.put (s.1.family, s.1.labels) { entry with buckets := entry.buckets.put (T.float le) s.2 })
      | _ => (st.1, st.2.put (s.1.family, s.1.labels) { entry with sum := s.2 })

/-- The loop over `child._upper_bounds`: `counts` are the reported ones, `i` the bucket it is at. -/
def addBuckets (counts : Table PyFloat Rat) : List PyFloat → Nat → Rat → (Nat → Rat) → (Nat → Rat)
  | [], _, _, kept => kept
  | bound :: bounds, i, cumulative, kept =>
    let count := (counts.get? bound).getD cumulative
    addBuckets counts bounds (i + 1) (max cumulative count)
      (if cumulative < count then Function.update kept i (kept i + (count - cumulative)) else kept)

def Entry.addTo (entry : Entry) (bounds : List PyFloat) (child : Child) : Child where
  buckets := addBuckets entry.buckets bounds 0 0 child.buckets
  sum := child.sum + entry.sum

def applyEntry (m : Metrics) (row : (String × Labels) × Entry) : Metrics :=
  match byName row.1.1 with
  | some (.histogram bounds) => m.setChild row.1.1 row.1.2 (row.2.addTo bounds (m.child row.1.1 row.1.2))
  | _ => m

def Metrics.applyDelta (T : Client) (m : Metrics) (delta : List (Key × Rat)) : Metrics :=
  let st := delta.foldl (readSample T) (m, .empty)
  st.2.rows.foldl applyEntry st.1

/-! ## What a sample says -/

theorem below_succ (counts : Nat → Rat) (n : Nat) : below counts (n + 1) = below counts n + counts n :=
  Finset.sum_range_succ counts n

theorem mem_cumulate {counts : Nat → Rat} {bound : PyFloat} {v : Rat} : ∀ {bounds : List PyFloat} {i : Nat},
    (bound, v) ∈ cumulate counts bounds i (below counts i) ↔ ∃ j, bounds[j]? = some bound ∧
      v = below counts (i + j + 1)
  | [], i => by simp [cumulate]
  | b :: bounds, i => by
    rw [cumulate, List.mem_cons, ← below_succ, mem_cumulate]
    constructor
    · intro h
      rcases h with h | ⟨j, hj, hv⟩
      · cases h
        exact ⟨0, rfl, rfl⟩
      · refine ⟨j + 1, hj, ?_⟩
        rw [hv]
        congr 1
        omega
    · intro ⟨j, hj, hv⟩
      cases j with
      | zero =>
        cases hj
        exact .inl (by rw [hv])
      | succ j =>
        refine .inr ⟨j, hj, ?_⟩
        rw [hv]
        congr 1
        omega

theorem bounds_nodup {family : String} {bounds : List PyFloat}
    (h : byName family = some (.histogram bounds)) : bounds.Nodup := by
  have hall : ∀ p ∈ forwarded, p.2.bounds.Nodup := by decide +kernel
  exact hall _ (mem_forwarded.mpr h)

theorem Client.float_text' (T : Client) {family : String} {bounds : List PyFloat}
    (h : byName family = some (.histogram bounds)) {bound : PyFloat} (hb : bound ∈ bounds) :
    T.float (T.text bound) = bound :=
  T.float_text _ (mem_forwarded.mpr h) bound hb

/-- The samples that a forwarded metric can have in a report. -/
inductive Proper (T : Client) : Key → Prop where
  | total {family : String} (labels : Labels) (h : byName family = some .counter) : Proper T ⟨family, .total, labels⟩
  | bucket {family : String} {bounds : List PyFloat} {bound : PyFloat} (labels : Labels)
      (h : byName family = some (.histogram bounds))
        (hb : bound ∈ bounds) : Proper T ⟨family, .bucket (T.text bound), labels⟩
  | sum {family : String} {bounds : List PyFloat} (labels : Labels) (h : byName family = some (.histogram bounds)) :
      Proper T ⟨family, .sum, labels⟩

def Metrics.reading (T : Client) (m : Metrics) (k : Key) : Rat :=
  match k.suffix with
  | .total => m.total k.family k.labels
  | .bucket le =>
    match byName k.family with
    | some (.histogram bounds) => below (m.child k.family k.labels).buckets (bounds.idxOf (T.float le) + 1)
    | _ => 0
  | .count => 0
  | .sum => (m.child k.family k.labels).sum

/-- The series of a sample was touched. -/
def Metrics.Has (m : Metrics) (k : Key) : Prop :=
  match k.suffix with
  | .total => (m.counters k.family).get? k.labels ≠ none
  | _ => (m.histograms k.family).get? k.labels ≠ none

section Reading

variable {T : Client} {m : Metrics} {k : Key} {v : Rat}

theorem mem_childSamples {family : String} {bounds : List PyFloat} {labels : Labels} {child : Child} :
    (k, v) ∈ childSamples T family bounds labels child ∧ k.suffix.kept ↔
      (∃ j bound, bounds[j]? = some bound ∧ k = ⟨family, .bucket (T.text bound), labels⟩ ∧
        v = below child.buckets (j + 1)) ∨
        k = ⟨family, .sum, labels⟩ ∧ v = child.sum := by
  rw [childSamples, List.mem_append, List.mem_map]
  constructor
  · intro ⟨h, hkept⟩
    rcases h with ⟨p, hp, h⟩ | h
    · cases h
      obtain ⟨j, hj, hv⟩ := mem_cumulate.mp hp
      refine .inl ⟨j, p.1, hj, rfl, ?_⟩
      rw [hv, Nat.zero_add]
    · rcases List.mem_cons.mp h with h | h
      · cases h
        cases hkept
      · cases List.mem_singleton.mp h
        exact .inr ⟨rfl, rfl⟩
  · intro h
    rcases h with ⟨j, bound, hj, rfl, rfl⟩ | ⟨rfl, rfl⟩
    · refine ⟨.inl ⟨(bound, below child.buckets (j + 1)), ?_, rfl⟩, rfl⟩
      refine mem_cumulate.mpr ⟨j, hj, ?_⟩
      rw [Nat.zero_add]
    · exact ⟨.inr (List.mem_cons_of_mem _ (List.mem_singleton_self _)), rfl⟩

theorem mem_collected : (k, v) ∈ (forwarded.flatMap (m.collect T)).filter (fun s => s.1.suffix.kept) ↔
    ∃ family kind, byName family = some kind ∧ (k, v) ∈ m.collect T (family, kind) ∧ k.suffix.kept := by
  rw [List.mem_filter, List.mem_flatMap]
  constructor
  · intro ⟨⟨p, hp, h⟩, hkept⟩
    exact ⟨p.1, p.2, mem_forwarded.mp hp, h, hkept⟩
  · intro ⟨family, kind, hp, h, hkept⟩
    exact ⟨⟨(family, kind), mem_forwarded.mpr hp, h⟩, hkept⟩

theorem total_of_get {family : String} {labels : Labels} (h : (m.counters family).get? labels = some v) :
    m.total family labels = v := by
  rw [Metrics.total, h, Option.getD_some]

theorem child_of_get {family : String} {labels : Labels} {child : Child}
    (h : (m.histograms family).get? labels = some child) :
    m.child family labels = child := by
  rw [Metrics.child, h, Option.getD_some]

/-- A collected sample is one a report can have, and its value is read from its series. -/
theorem collected_reads (h : (k, v) ∈ (forwarded.flatMap (m.collect T)).filter fun s => s.1.suffix.kept) :
    Proper T k ∧ v = m.reading T k := by
  obtain ⟨family, kind, hkind, h, hkept⟩ := mem_collected.mp h
  cases kind with
  | counter =>
    obtain ⟨row, hrow, hs⟩ := List.mem_map.mp h
    cases hs
    exact ⟨.total row.1 hkind, (total_of_get (Table.mem_rows.mp hrow)).symm⟩
  | histogram bounds =>
    obtain ⟨row, hrow, hs⟩ := List.mem_flatMap.mp h
    have hchild := child_of_get (Table.mem_rows.mp hrow)
    rcases mem_childSamples.mp ⟨hs, hkept⟩ with ⟨j, bound, hj, rfl, rfl⟩ | ⟨rfl, rfl⟩
    · have hmem : bound ∈ bounds := List.mem_of_getElem? hj
      refine ⟨.bucket row.1 hkind hmem, ?_⟩
      obtain ⟨hlt, rfl⟩ := List.getElem?_eq_some_iff.mp hj
      simp only [Metrics.reading, hkind, hchild, T.float_text' hkind hmem, (bounds_nodup hkind).idxOf_getElem]
    · exact ⟨.sum row.1 hkind, by simp only [Metrics.reading, hchild]⟩

theorem collected_of_has (hk : Proper T k) (h : m.Has k) :
    ∃ v, (k, v) ∈ (forwarded.flatMap (m.collect T)).filter fun s => s.1.suffix.kept := by
  cases hk with
  | @total family labels hkind =>
    obtain ⟨v, hv⟩ := Option.ne_none_iff_exists'.mp h
    exact ⟨v, mem_collected.mpr ⟨family, _, hkind,
      List.mem_map.mpr ⟨(labels, v), Table.mem_rows.mpr hv, rfl⟩, rfl⟩⟩
  | @bucket family bounds bound labels hkind hb =>
    obtain ⟨child, hchild⟩ := Option.ne_none_iff_exists'.mp h
    obtain ⟨j, hj⟩ := List.getElem?_of_mem hb
    obtain ⟨hs, hkept⟩ := mem_childSamples.mpr (.inl ⟨j, bound, hj, rfl, rfl⟩)
    exact ⟨below child.buckets (j + 1), mem_collected.mpr
      ⟨family, _, hkind, List.mem_flatMap.mpr ⟨(labels, child), Table.mem_rows.mpr hchild, hs⟩, hkept⟩⟩
  | @sum family bounds labels hkind =>
    obtain ⟨child, hchild⟩ := Option.ne_none_iff_exists'.mp h
    obtain ⟨hs, hkept⟩ := mem_childSamples.mpr (.inr ⟨rfl, rfl⟩)
    exact ⟨child.sum, mem_collected.mpr
      ⟨family, _, hkind, List.mem_flatMap.mpr ⟨(labels, child), Table.mem_rows.mpr hchild, hs⟩, hkept⟩⟩

theorem reading_of_not_has (h : ¬ m.Has k) : m.reading T k = 0 := by
  obtain ⟨family, suffix, labels⟩ := k
  cases suffix with
  | total =>
    have hnone := Decidable.not_not.mp h
    simp only [Metrics.reading, Metrics.total, hnone, Option.getD_none]
  | bucket le =>
    have hnone := Decidable.not_not.mp h
    simp only [Metrics.reading, Metrics.child, hnone, Option.getD_none, Child.fresh, below, Finset.sum_const_zero]
    split <;> rfl
  | count => rfl
  | sum =>
    have hnone := Decidable.not_not.mp h
    simp only [Metrics.reading, Metrics.child, hnone, Option.getD_none, Child.fresh]

theorem values_of_mem (h : (k, v) ∈ (forwarded.flatMap (m.collect T)).filter fun s => s.1.suffix.kept) :
    (m.values T).get? k = some (m.reading T k) := by
  rw [(collected_reads h).2] at h
  apply Table.get?_update_of_mem h
  intro v' h'
  exact (collected_reads h').2

theorem values_of_get (h : (m.values T).get? k = some v) : Proper T k ∧ v = m.reading T k := by
  rw [Metrics.values, Table.get?_update, Table.get?_empty, Option.or_none] at h
  exact collected_reads (List.mem_reverse.mp (Table.lookup_mem h))

theorem values_of_has (hk : Proper T k) (h : m.Has k) : (m.values T).get? k = some (m.reading T k) := by
  obtain ⟨v, hv⟩ := collected_of_has hk h
  exact values_of_mem hv

theorem values_reads (hk : Proper T k) : ((m.values T).get? k).getD 0 = m.reading T k := by
  by_cases h : m.Has k
  · rw [values_of_has hk h, Option.getD_some]
  · cases hv : (m.values T).get? k with
    | none => rw [Option.getD_none, reading_of_not_has h]
    | some v => rw [Option.getD_some, (values_of_get hv).2]

end Reading

end OranAdapt.ProcessMetrics
