import Mathlib.Algebra.Order.BigOperators.Group.Finset
import OranAdapt.MetricDeltas

/-!
# Forwarding is exact

The report of a worker changes the parent as the worker's own increments and
observations would have: each entry of the report is read back from one key, and
the loop over the bounds restores the single counts, since a cumulative count
that is left out is 0 together with all the counts below it.
-/

namespace OranAdapt.ProcessMetrics

open Gains

/-! ## The report -/

section Report

variable {T : Client} {m m' : Metrics} {k : Key} {v : Rat}

def moved (T : Client) (m m' : Metrics) (k : Key) : Rat := m'.reading T k - m.reading T k

theorem lookup_map_snd {κ β γ : Type} [DecidableEq κ] (f : κ → β → γ) (k : κ) (l : List (κ × β)) :
    (l.map fun p => (p.1, f p.1 p.2)).lookup k = (l.lookup k).map (f k) := by
  induction l with
  | nil => rfl
  | cons p l ih =>
    rw [List.map_cons, Table.lookup_cons_if, Table.lookup_cons_if, ih]
    by_cases hk : k = p.1
    · rw [if_pos hk, if_pos hk, hk]
      rfl
    · rw [if_neg hk, if_neg hk]

theorem deltaSince_nodup (before : Table Key Rat) : ((m'.deltaSince T before).map Prod.fst).Nodup := by
  rw [Metrics.deltaSince, List.map_map]
  exact (List.Sublist.map Prod.fst List.filter_sublist).nodup (m'.values T).nodup

theorem deltaSince_proper {before : Table Key Rat} (h : (k, v) ∈ m'.deltaSince T before) : Proper T k := by
  obtain ⟨s, hs, he⟩ := List.mem_map.mp h
  cases he
  exact (values_of_get (Table.mem_rows.mp (List.mem_of_mem_filter hs))).1

theorem deltaSince_lookup (hk : Proper T k) (hkept : m.Has k → m'.Has k) :
    (m'.deltaSince T (m.values T)).lookup k = if moved T m m' k = 0 then none else some (moved T m m' k) := by
  have hfilter := Table.lookup_filter (fun k v => decide (v ≠ ((m.values T).get? k).getD 0)) k
    (m'.values T).rows (m'.values T).nodup
  rw [Metrics.deltaSince, lookup_map_snd (fun k v => v - ((m.values T).get? k).getD 0), hfilter, values_reads hk]
  by_cases hhas : m'.Has k
  · have hrow : (m'.values T).rows.lookup k = some (m'.reading T k) := values_of_has hk hhas
    rw [hrow, Option.filter_some]
    by_cases hmoved : moved T m m' k = 0
    · rw [if_pos hmoved, if_neg]
      · rfl
      · simpa using sub_eq_zero.mp hmoved
    · rw [if_neg hmoved, if_pos]
      · rfl
      · simpa using fun e => hmoved (sub_eq_zero.mpr e)
  · have hbefore : m.reading T k = 0 := reading_of_not_has fun h => hhas (hkept h)
    have hafter : m'.reading T k = 0 := reading_of_not_has hhas
    have hmoved : moved T m m' k = 0 := by rw [moved, hbefore, hafter, sub_zero]
    rw [if_pos hmoved, hbefore]
    cases hrow : (m'.values T).rows.lookup k with
    | none => rfl
    | some v =>
      have hv := (values_of_get hrow).2
      rw [hv, hafter]
      rfl

end Report

/-! ## Gathering the entries -/

section Gathering

variable {T : Client} {family : String} {labels : Labels} {bounds : List PyFloat}

theorem child_readSample (st : Metrics × Entries) (s : Key × Rat) :
    (readSample T st s).1.child family labels = st.1.child family labels := by
  unfold readSample
  split
  · rfl
  · split
    · rfl
    · dsimp only
      split
      · split <;> rfl
      · rfl
      · rfl

theorem child_readSamples (delta : List (Key × Rat)) (st : Metrics × Entries) :
    (delta.foldl (readSample T) st).1.child family labels = st.1.child family labels := by
  induction delta generalizing st with
  | nil => rfl
  | cons s delta ih => rw [List.foldl_cons, ih, child_readSample]

theorem Entries.entry_put (entries : Entries) (e : Entry) (name : String) (at_ : Labels) :
    Entries.entry (entries.put (name, at_) e) family labels = if (name, at_) = (family, labels) then e
      else entries.entry family labels := by
  rw [Entries.entry, Table.get?_put]
  by_cases h : (name, at_) = (family, labels)
  · rw [if_pos h, if_pos h.symm]
    rfl
  · rw [if_neg h, if_neg (fun e => h e.symm)]
    rfl

variable {name : String} {at_ : Labels} {v : Rat} {kind : MetricKind} {st : Metrics × Entries}

theorem readSample_total (h : byName name = some .counter) (hv : 0 < v) :
    readSample T st (⟨name, .total, at_⟩, v) = (st.1.inc name at_ v, st.2) := by
  simp only [readSample, h, if_neg (not_le.mpr hv), if_true]

theorem readSample_bucket (h : byName name = some kind) (hv : 0 < v) (le : String) :
    readSample T st (⟨name, .bucket le, at_⟩, v) = (st.1, st.2.put (name, at_)
      { st.2.entry name at_ with buckets := (st.2.entry name at_).buckets.put (T.float le) v }) := by
  simp only [readSample, h, if_neg (not_le.mpr hv)]

theorem readSample_sum (h : byName name = some kind) (hv : 0 < v) :
    readSample T st (⟨name, .sum, at_⟩, v) = (st.1, st.2.put (name, at_) { st.2.entry name at_ with sum := v }) := by
  simp only [readSample, h, if_neg (not_le.mpr hv)]

/-- A counter moves by the entry under its own key. -/
theorem total_step (s : Key × Rat) (hs : Proper T s.1) (hv : 0 < s.2) (st : Metrics × Entries) :
    (readSample T st s).1.total family labels =
      if s.1 = ⟨family, .total, labels⟩ then st.1.total family labels + s.2 else st.1.total family labels := by
  obtain ⟨k, v⟩ := s
  cases hs with
  | total at_ h =>
    rw [readSample_total h hv, Metrics.total_inc]
    apply if_congr _ rfl rfl
    simp only [Key.mk.injEq, true_and, eq_comm (a := family), eq_comm (a := labels)]
  | bucket at_ h hb =>
    rw [readSample_bucket h hv, if_neg (by simp)]
  | sum at_ h =>
    rw [readSample_sum h hv, if_neg (by simp)]

theorem text_inj {family name : String} {bounds bounds' : List PyFloat} {bound bound' : PyFloat}
    (h : byName family = some (.histogram bounds)) (hb : bound ∈ bounds) (h' : byName name = some (.histogram bounds'))
    (hb' : bound' ∈ bounds') : T.text bound' = T.text bound ↔ bound = bound' := by
  constructor
  · intro e
    rw [← T.float_text' h hb, ← e, T.float_text' h' hb']
  · intro e
    rw [e]

theorem bucket_step (hkind : byName family = some (.histogram bounds)) {bound : PyFloat} (hbound : bound ∈ bounds)
    (s : Key × Rat) (hs : Proper T s.1) (hv : 0 < s.2) (st : Metrics × Entries) :
    ((readSample T st s).2.entry family labels).buckets.get? bound =
      if s.1 = ⟨family, .bucket (T.text bound), labels⟩ then some s.2
        else (st.2.entry family labels).buckets.get? bound := by
  obtain ⟨k, v⟩ := s
  cases hs with
  | total at_ h =>
    rw [readSample_total h hv, if_neg (by simp)]
  | @bucket name bounds' bound' at_ h hb =>
    rw [readSample_bucket h hv, T.float_text' h hb, Entries.entry_put]
    by_cases hat : (name, at_) = (family, labels)
    · cases hat
      rw [if_pos rfl, Table.get?_put]
      apply if_congr _ rfl rfl
      simp only [Key.mk.injEq, Suffix.bucket.injEq, true_and, and_true, text_inj hkind hbound h hb]
    · rw [if_neg hat, if_neg]
      intro e
      rw [Key.mk.injEq] at e
      exact hat (Prod.ext e.1 e.2.2)
  | @sum name bounds' at_ h =>
    rw [readSample_sum h hv, if_neg (by simp), Entries.entry_put]
    by_cases hat : (name, at_) = (family, labels)
    · cases hat
      rw [if_pos rfl]
    · rw [if_neg hat]

theorem sum_step (s : Key × Rat) (hs : Proper T s.1) (hv : 0 < s.2) (st : Metrics × Entries) :
    ((readSample T st s).2.entry family labels).sum =
      if s.1 = ⟨family, .sum, labels⟩ then s.2 else (st.2.entry family labels).sum := by
  obtain ⟨k, v⟩ := s
  cases hs with
  | total at_ h =>
    rw [readSample_total h hv, if_neg (by simp)]
  | @bucket name bounds' bound' at_ h hb =>
    rw [readSample_bucket h hv, if_neg (by simp), Entries.entry_put]
    by_cases hat : (name, at_) = (family, labels)
    · cases hat
      rw [if_pos rfl]
    · rw [if_neg hat]
  | @sum name bounds' at_ h =>
    rw [readSample_sum h hv, Entries.entry_put]
    by_cases hat : (name, at_) = (family, labels)
    · cases hat
      rw [if_pos rfl, if_pos rfl]
    · rw [if_neg hat, if_neg]
      intro e
      rw [Key.mk.injEq] at e
      exact hat (Prod.ext e.1 e.2.2)

end Gathering

/-! ## Restoring the buckets -/

section Restoring

variable {counts : Table PyFloat Rat} {g : Nat → Rat}

theorem below_nonneg (hg : ∀ i, 0 ≤ g i) (n : Nat) : 0 ≤ below g n := Finset.sum_nonneg fun i _ => hg i

/-- A report of cumulative counts without those that are 0 gives each bucket its own count. -/
theorem addBuckets_restores (hg : ∀ i, 0 ≤ g i) (bounds : List PyFloat) (i : Nat) (kept : Nat → Rat)
    (hcounts : ∀ j bound, bounds[j]? = some bound →
      counts.get? bound = if below g (i + j + 1) = 0 then none else some (below g (i + j + 1))) (n : Nat) :
    addBuckets counts bounds i (below g i) kept n = if i ≤ n ∧ n < i + bounds.length then kept n + g n else kept n := by
  induction bounds generalizing i kept with
  | nil =>
    rw [if_neg (by simp)]
    rfl
  | cons bound bounds ih =>
    have hnext : below g i + g i = below g (i + 1) := (below_succ g i).symm
    have hcount : (counts.get? bound).getD (below g i) = below g (i + 1) := by
      rw [hcounts 0 bound rfl]
      by_cases hzero : below g (i + 1) = 0
      · rw [if_pos hzero, Option.getD_none, hzero]
        have := below_nonneg hg i
        have := hg i
        linarith
      · rw [if_neg hzero, Option.getD_some]
    have hmax : max (below g i) (below g (i + 1)) = below g (i + 1) := max_eq_right (by have := hg i; linarith)
    have hkept : (if below g i < below g (i + 1) then
      Function.update kept i (kept i + (below g (i + 1) - below g i)) else kept) =
        Function.update kept i (kept i + g i) := by
      split
      · congr 1
        linarith
      · have hzero : g i = 0 := by
          have := hg i
          linarith
        rw [hzero, add_zero, Function.update_eq_self]
    rw [addBuckets]
    simp only [hcount, hmax, hkept]
    rw [ih]
    · by_cases hn : n = i
      · subst hn
        rw [if_neg (by omega), if_pos (by simp), Function.update_self]
      · rw [Function.update_of_ne hn]
        apply if_congr _ rfl rfl
        rw [List.length_cons]
        omega
    · intro j b hj
      have := hcounts (j + 1) b hj
      rw [this]
      have : i + (j + 1) + 1 = i + 1 + j + 1 := by omega
      rw [this]

theorem addBuckets_empty (bounds : List PyFloat) (i : Nat) (cumulative : Rat) (kept : Nat → Rat) :
    addBuckets .empty bounds i cumulative kept = kept := by
  induction bounds generalizing i cumulative with
  | nil => rfl
  | cons bound bounds ih =>
    rw [addBuckets]
    simp only [Table.get?_empty, Option.getD_none, lt_irrefl, if_false, max_self]
    exact ih (i + 1) cumulative

end Restoring

/-! ## A worker's run, applied to its parent -/

theorem has_perform (T : Client) {m : Metrics} {k : Key} (a : Act) (h : m.Has k) : (m.perform T a).Has k := by
  have hput : ∀ {ρ : Type} (t : String → Table Labels ρ) (family : String) (labels : Labels)
    (r : ρ) (name : String) (at_ : Labels),
      (t name).get? at_ ≠ none → (Function.update t family ((t family).put labels r) name).get? at_ ≠ none := by
    intro ρ t family labels r name at_ h
    by_cases hname : name = family
    · subst hname
      rw [Function.update_self, Table.get?_put]
      split
      · exact Option.some_ne_none r
      · exact h
    · rw [Function.update_of_ne hname]
      exact h
  obtain ⟨name, suffix, at_⟩ := k
  cases a with
  | inc family labels amount =>
    unfold Metrics.perform
    dsimp only
    split
    · cases suffix with
      | total => exact hput _ _ _ _ _ _ h
      | bucket le => exact h
      | count => exact h
      | sum => exact h
    · exact h
  | observe family labels value =>
    unfold Metrics.perform
    dsimp only
    split
    · cases suffix with
      | total => exact h
      | bucket le => exact hput _ _ _ _ _ _ h
      | count => exact hput _ _ _ _ _ _ h
      | sum => exact hput _ _ _ _ _ _ h
    · exact h

theorem has_run (T : Client) {m : Metrics} {k : Key} (as : List Act) (h : m.Has k) : (m.run T as).Has k := by
  induction as generalizing m with
  | nil => exact h
  | cons a as ih => exact ih (has_perform T a h)

section Exact

variable {T : Client} {worker : Metrics} {as : List Act} {family : String} {labels : Labels} {bounds : List PyFloat}

theorem read_run (T : Client) (as : List Act) (m : Metrics) (c : Cell) :
    (m.run T as).read c = m.read c + (acts T).gain as c :=
  (acts T).read_run as m c

theorem below_add (f g : Nat → Rat) (n : Nat) : below (fun i => f i + g i) n = below f n + below g n :=
  Finset.sum_add_distrib

theorem moved_total : moved T worker (worker.run T as) ⟨family, .total, labels⟩ =
    (acts T).gain as (.total family labels) := by
  have h := read_run T as worker (.total family labels)
  exact sub_eq_of_eq_add' h

theorem moved_sum : moved T worker (worker.run T as) ⟨family, .sum, labels⟩ = (acts T).gain as (.sum family labels) := by
  have h := read_run T as worker (.sum family labels)
  exact sub_eq_of_eq_add' h

theorem moved_bucket (hkind : byName family = some (.histogram bounds)) {j : Nat} {bound : PyFloat}
    (hj : bounds[j]? = some bound) :
    moved T worker (worker.run T as) ⟨family, .bucket (T.text bound), labels⟩ =
      below (fun i => (acts T).gain as (.bucket family labels i)) (j + 1) := by
  have hrun : ((worker.run T as).child family labels).buckets =
      fun i => (worker.child family labels).buckets i + (acts T).gain as (.bucket family labels i) := by
    funext i
    exact read_run T as worker (.bucket family labels i)
  obtain ⟨hlt, rfl⟩ := List.getElem?_eq_some_iff.mp hj
  simp only [moved, Metrics.reading, hkind, T.float_text' hkind (List.getElem_mem hlt),
    (bounds_nodup hkind).idxOf_getElem, hrun]
  rw [below_add]
  exact add_sub_cancel_left _ _

theorem moved_nonneg {k : Key} (hk : Proper T k) : 0 ≤ moved T worker (worker.run T as) k := by
  cases hk with
  | total labels h =>
    rw [moved_total]
    exact (acts T).gain_nonneg as _
  | bucket labels h hb =>
    obtain ⟨j, hj⟩ := List.getElem?_of_mem hb
    rw [moved_bucket h hj]
    exact below_nonneg (fun i => (acts T).gain_nonneg as _) _
  | sum labels h =>
    rw [moved_sum]
    exact (acts T).gain_nonneg as _

def report (T : Client) (worker : Metrics) (as : List Act) : List (Key × Rat) :=
  (worker.run T as).deltaSince T (worker.values T)

theorem report_lookup (worker : Metrics) (as : List Act) {k : Key} (hk : Proper T k) : (report T worker as).lookup k =
    if moved T worker (worker.run T as) k = 0 then none else some (moved T worker (worker.run T as) k) :=
  deltaSince_lookup hk (has_run T as)

theorem report_pos {k : Key} {v : Rat} (h : (k, v) ∈ report T worker as) : 0 < v := by
  have hk : Proper T k := deltaSince_proper h
  have hlookup := Table.lookup_of_mem (deltaSince_nodup _) h
  have hmoved := report_lookup worker as hk
  rw [report, hlookup] at hmoved
  by_cases hzero : moved T worker (worker.run T as) k = 0
  · rw [if_pos hzero] at hmoved
    cases hmoved
  · rw [if_neg hzero, Option.some.injEq] at hmoved
    rw [hmoved]
    exact lt_of_le_of_ne (moved_nonneg hk) (Ne.symm hzero)

/-- The state after the first loop of `apply_delta` on the worker's report. -/
def gathered (T : Client) (parent worker : Metrics) (as : List Act) : Metrics × Entries :=
  (report T worker as).foldl (readSample T) (parent, .empty)

/-- What the first loop leaves under a key is what the key's own entry says. -/
theorem gathered_slot (parent worker : Metrics) (as : List Act) {γ : Type} (read : Metrics × Entries → γ)
    (f : γ → Rat → γ)
    {key : Key} (hkey : Proper T key)
    (hstep : ∀ s : Key × Rat, Proper T s.1 → 0 < s.2 →
      ∀ st, read (readSample T st s) = if s.1 = key then f (read st) s.2 else read st) :
    read (gathered T parent worker as) = if moved T worker (worker.run T as) key = 0 then read (parent, .empty)
      else f (read (parent, .empty)) (moved T worker (worker.run T as) key) := by
  have hnodup : ((report T worker as).map Prod.fst).Nodup := deltaSince_nodup _
  rw [gathered, foldl_slot read f hnodup fun s hs => hstep s (deltaSince_proper hs) (report_pos hs),
    report_lookup worker as hkey]
  split <;> rfl

theorem gathered_total (T : Client) (parent worker : Metrics) (as : List Act) (hkind : byName family = some .counter) :
    (gathered T parent worker as).1.total family labels =
      parent.total family labels + (acts T).gain as (.total family labels) := by
  have h := gathered_slot parent worker as (fun st => st.1.total family labels) (fun x v => x + v) (.total labels hkind)
    (T := T) total_step
  rw [moved_total] at h
  by_cases hzero : (acts T).gain as (.total family labels) = 0
  · rw [if_pos hzero] at h
    rw [h, hzero, add_zero]
  · rw [if_neg hzero] at h
    exact h

theorem gathered_bucket (T : Client) (parent worker : Metrics) (as : List Act) (labels : Labels)
    (hkind : byName family = some (.histogram bounds)) {j : Nat} {bound : PyFloat} (hj : bounds[j]? = some bound) :
    ((gathered T parent worker as).2.entry family labels).buckets.get? bound =
      if below (fun i => (acts T).gain as (.bucket family labels i)) (j + 1) = 0 then none
      else some (below (fun i => (acts T).gain as (.bucket family labels i)) (j + 1)) := by
  have hb : bound ∈ bounds := List.mem_of_getElem? hj
  have h := gathered_slot parent worker as (fun st => (st.2.entry family labels).buckets.get? bound) (fun _ v => some v)
    (.bucket labels hkind hb) (T := T) (bucket_step hkind hb)
  rw [moved_bucket hkind hj] at h
  exact h

theorem gathered_sum (T : Client) (parent worker : Metrics) (as : List Act) (labels : Labels)
    (hkind : byName family = some (.histogram bounds)) :
    ((gathered T parent worker as).2.entry family labels).sum = (acts T).gain as (.sum family labels) := by
  have h := gathered_slot parent worker as (fun st => (st.2.entry family labels).sum) (fun _ v => v) (.sum labels hkind)
    (T := T) sum_step
  rw [moved_sum] at h
  by_cases hzero : (acts T).gain as (.sum family labels) = 0
  · rw [if_pos hzero] at h
    rw [h, hzero]
    rfl
  · rw [if_neg hzero] at h
    exact h

theorem total_applyEntry (m : Metrics) (row : (String × Labels) × Entry) :
    (applyEntry m row).total family labels = m.total family labels := by
  unfold applyEntry
  split <;> rfl

theorem total_applyEntries (rows : List ((String × Labels) × Entry)) (m : Metrics) :
    (rows.foldl applyEntry m).total family labels = m.total family labels := by
  induction rows generalizing m with
  | nil => rfl
  | cons row rows ih => rw [List.foldl_cons, ih, total_applyEntry]

theorem child_applyEntry (hkind : byName family = some (.histogram bounds)) (m : Metrics)
    (row : (String × Labels) × Entry) :
    (applyEntry m row).child family labels =
      if row.1 = (family, labels) then row.2.addTo bounds (m.child family labels) else m.child family labels := by
  obtain ⟨⟨name, at_⟩, entry⟩ := row
  by_cases hat : (name, at_) = (family, labels)
  · cases hat
    rw [if_pos rfl]
    simp only [applyEntry, hkind, Metrics.child_setChild, true_and, if_true]
  · rw [if_neg hat]
    unfold applyEntry
    split
    · rw [Metrics.child_setChild, if_neg]
      intro e
      exact hat (Prod.ext e.1.symm e.2.symm)
    · rfl

theorem addTo_nothing (child : Child) : (⟨.empty, 0⟩ : Entry).addTo bounds child = child := by
  rw [Entry.addTo, addBuckets_empty, add_zero]

theorem child_applyEntries (hkind : byName family = some (.histogram bounds)) (entries : Entries) (m : Metrics) :
    (entries.rows.foldl applyEntry m).child family labels =
      (entries.entry family labels).addTo bounds (m.child family labels) := by
  rw [foldl_slot (fun m : Metrics => m.child family labels) (fun child entry => entry.addTo bounds child) entries.nodup
    fun row _ m => child_applyEntry hkind m row]
  show (entries.get? (family, labels)).elim _ _ = _
  rw [Entries.entry]
  cases entries.get? (family, labels) with
  | none => exact (addTo_nothing _).symm
  | some entry => rfl

end Exact

/-- Two processes show the same values of every forwarded metric. -/
structure SameForwarded (m m' : Metrics) : Prop where
  total {family : String} (labels : Labels) (h : byName family = some .counter) : m.total family labels =
    m'.total family labels
  bucket {family : String} {bounds : List PyFloat} (labels : Labels) (h : byName family = some (.histogram bounds)) {i : Nat}
    (hi : i < bounds.length) : (m.child family labels).buckets i = (m'.child family labels).buckets i
  sum {family : String} {bounds : List PyFloat} (labels : Labels) (h : byName family = some (.histogram bounds)) :
    (m.child family labels).sum = (m'.child family labels).sum
  count {family : String} {bounds : List PyFloat} (labels : Labels) (h : byName family = some (.histogram bounds)) :
    (m.child family labels).count bounds = (m'.child family labels).count bounds

section Applied

variable (T : Client) (parent worker : Metrics) (as : List Act) {family : String} (labels : Labels) {bounds : List PyFloat}

theorem applied_total (hkind : byName family = some .counter) :
    (parent.applyDelta T (report T worker as)).total family labels = (parent.run T as).total family labels := by
  rw [Metrics.applyDelta, total_applyEntries]
  exact (gathered_total T parent worker as hkind).trans (read_run T as parent (.total family labels)).symm

theorem applied_child (hkind : byName family = some (.histogram bounds)) :
    (parent.applyDelta T (report T worker as)).child family labels =
      ((gathered T parent worker as).2.entry family labels).addTo bounds (parent.child family labels) := by
  rw [Metrics.applyDelta, child_applyEntries hkind, child_readSamples]
  rfl

theorem applied_bucket (hkind : byName family = some (.histogram bounds)) {i : Nat} (hi : i < bounds.length) :
    ((parent.applyDelta T (report T worker as)).child family labels).buckets i =
      ((parent.run T as).child family labels).buckets i := by
  have hrun := read_run T as parent (.bucket family labels i)
  have hadd := addBuckets_restores (fun i => (acts T).gain_nonneg as (.bucket family labels i)) bounds 0
    (parent.child family labels).buckets
    (fun j bound hj => by rw [Nat.zero_add]; exact gathered_bucket T parent worker as labels hkind hj) i
  rw [if_pos ⟨Nat.zero_le i, by omega⟩] at hadd
  rw [applied_child T parent worker as labels hkind]
  exact hadd.trans hrun.symm

theorem applied_sum (hkind : byName family = some (.histogram bounds)) :
    ((parent.applyDelta T (report T worker as)).child family labels).sum = ((parent.run T as).child family labels).sum := by
  have hrun := read_run T as parent (.sum family labels)
  rw [applied_child T parent worker as labels hkind, Entry.addTo, gathered_sum T parent worker as labels hkind]
  exact hrun.symm

end Applied

/-- The report of a worker that ran `as` changes its parent's metrics as `as` would have. -/
theorem forwarded_exactly (T : Client) (parent worker : Metrics) (as : List Act) :
    SameForwarded (parent.applyDelta T ((worker.run T as).deltaSince T (worker.values T))) (parent.run T as) where
  total labels h := applied_total T parent worker as labels h
  bucket labels h _ hi := applied_bucket T parent worker as labels h hi
  sum labels h := applied_sum T parent worker as labels h
  count labels h := Finset.sum_congr rfl fun _ hi => applied_bucket T parent worker as labels h (Finset.mem_range.mp hi)

example : (let as := [Act.observe "model_evaluation_duration_seconds" [] 120,
    .observe "model_evaluation_duration_seconds" [] 500]
    let parent := Metrics.empty.applyDelta client (report client .empty as)
    let child := parent.child "model_evaluation_duration_seconds" []
    (child.buckets 9, child.buckets 10, child.buckets 11, child.sum)) = (0, 1, 1, 620) := by
  decide +kernel

end OranAdapt.ProcessMetrics
