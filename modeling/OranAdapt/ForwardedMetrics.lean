import Mathlib.Algebra.Order.Ring.Rat
import Mathlib.Logic.Function.Basic
import OranAdapt.Gains
import OranAdapt.PyNumbers

/-!
# Metrics of a process

The counters and histograms that a job's worker process can move, with the
series of each under its labels. A series that was never touched reads 0. Every
increment and every observation adds to the cells of one series an amount that
does not depend on what is there.
-/

namespace OranAdapt.ProcessMetrics

open Gains

inductive MetricKind where
  | counter
  | histogram (bounds : List PyFloat)
deriving DecidableEq

def MetricKind.bounds : MetricKind → List PyFloat
  | .counter => []
  | .histogram bounds => bounds

def buckets (declared : List Rat) : MetricKind := .histogram (declared.map .fin ++ [.inf])

def jobBuckets : MetricKind := buckets [1, 5, 15, 30, 60, 120, 300, 600, 1200, 1800, 3600]

def evalBuckets : MetricKind := buckets [1/20, 1/10, 1/4, 1/2, 1, 5/2, 5, 10, 30, 60, 120]

def adapterBuckets : MetricKind :=
  buckets [1/200, 1/100, 1/40, 1/20, 1/10, 1/4, 1/2, 1, 5/2, 5, 10, 30, 60, 300]

/-- `_FORWARDED`, each metric under its family's name: the client drops a counter's `_total` from it. -/
def forwarded : List (String × MetricKind) := [
  ("drift_events", .counter),
  ("strategy_selected", .counter),
  ("model_registrations", .counter),
  ("model_promotions", .counter),
  ("model_deployments", .counter),
  ("traffic_splits", .counter),
  ("gate_decisions", .counter),
  ("rollouts_started", .counter),
  ("rollouts_finished", .counter),
  ("model_reuse", .counter),
  ("fine_tune", .counter),
  ("retrain", .counter),
  ("rollback", .counter),
  ("validation_failure", .counter),
  ("model_evaluation_duration_seconds", evalBuckets),
  ("cdc_events", .counter),
  ("llm_requests", .counter),
  ("llm_failures", .counter),
  ("llm_fallbacks", .counter),
  ("llm_tokens", .counter),
  ("llm_cost", .counter),
  ("llm_calls_refused", .counter),
  ("sandbox_failures", .counter),
  ("dataset_rows_read", .counter),
  ("dataset_bytes_read", .counter),
  ("dataset_read_duration_seconds", evalBuckets),
  ("dataset_read_refused", .counter),
  ("adaptation_stage_duration_seconds", jobBuckets),
  ("adapter_call_duration_seconds", adapterBuckets),
  ("adapter_errors", .counter),
  ("rollout_steps", .counter),
  ("delivery_failures", .counter)]

def byName (family : String) : Option MetricKind := forwarded.lookup family

theorem mem_forwarded {family : String} {kind : MetricKind} : (family, kind) ∈ forwarded ↔ byName family = some kind :=
  ⟨Table.lookup_of_mem (by decide +kernel), Table.lookup_mem⟩

/-- The labels of a series, in the order of their names. -/
abbrev Labels := List (String × String)

/-- A histogram's child: `_buckets`, which are not cumulative, and `_sum`. -/
structure Child where
  buckets : Nat → Rat
  sum : Rat

def Child.fresh : Child := ⟨fun _ => 0, 0⟩

/-- The bucket that counts `value`: the first whose bound is not below it. -/
def bucketOf (bounds : List PyFloat) (value : Rat) : Option Nat := bounds.findIdx? fun bound => (PyFloat.fin value).le bound

/-- The metrics client: how it writes a bound in the label `le`, as `float` reads it back, and that an
observation counts in its bucket, if there is one, and adds to the sum. -/
structure Client where
  text : PyFloat → String
  float : String → PyFloat
  float_text : ∀ p ∈ forwarded, ∀ bound ∈ p.2.bounds, float (text bound) = bound
  observe : List PyFloat → Rat → Child → Child
  buckets_observe (bounds : List PyFloat) (value : Rat) (child : Child) (i : Nat) :
    (observe bounds value child).buckets i = if bucketOf bounds value = some i then child.buckets i + 1 else child.buckets i
  sum_observe (bounds : List PyFloat) (value : Rat) (child : Child) : (observe bounds value child).sum = child.sum + value

/-- The series of every counter and histogram, by family. -/
structure Metrics where
  counters : String → Table Labels Rat
  histograms : String → Table Labels Child

namespace Metrics

def empty : Metrics := ⟨fun _ => .empty, fun _ => .empty⟩

def total (m : Metrics) (family : String) (labels : Labels) : Rat := ((m.counters family).get? labels).getD 0

def child (m : Metrics) (family : String) (labels : Labels) : Child := ((m.histograms family).get? labels).getD .fresh

def inc (m : Metrics) (family : String) (labels : Labels) (amount : Rat) : Metrics :=
  { m with counters := Function.update m.counters family ((m.counters family).put labels (m.total family labels + amount)) }

def setChild (m : Metrics) (family : String) (labels : Labels) (child : Child) : Metrics :=
  { m with histograms := Function.update m.histograms family ((m.histograms family).put labels child) }

variable {m : Metrics} {family name : String} {labels at_ : Labels} {amount : Rat} {child : Child}

@[simp] theorem child_inc : (m.inc family labels amount).child name at_ = m.child name at_ := rfl

@[simp] theorem total_setChild : (m.setChild family labels child).total name at_ = m.total name at_ := rfl

theorem total_inc : (m.inc family labels amount).total name at_ =
    if name = family ∧ at_ = labels then m.total name at_ + amount else m.total name at_ := by
  by_cases hname : name = family
  · subst hname
    simp only [total, inc, Function.update_self, Table.get?_put, true_and]
    by_cases hlabels : at_ = labels
    · rw [if_pos hlabels, if_pos hlabels, hlabels]
      rfl
    · rw [if_neg hlabels, if_neg hlabels]
  · rw [if_neg (fun h => hname h.1)]
    simp only [total, inc, Function.update_of_ne hname]

theorem child_setChild : (m.setChild family labels child).child name at_ =
    if name = family ∧ at_ = labels then child else m.child name at_ := by
  by_cases hname : name = family
  · subst hname
    simp only [Metrics.child, setChild, Function.update_self, Table.get?_put, true_and]
    by_cases hlabels : at_ = labels
    · rw [if_pos hlabels, if_pos hlabels]
      rfl
    · rw [if_neg hlabels, if_neg hlabels]
  · rw [if_neg (fun h => hname h.1)]
    simp only [Metrics.child, setChild, Function.update_of_ne hname]

end Metrics

/-! ## Increments and observations -/

inductive Act where
  | inc (family : String) (labels : Labels) (amount : ℚ≥0)
  | observe (family : String) (labels : Labels) (value : ℚ≥0)

variable (T : Client)

def Metrics.perform (m : Metrics) : Act → Metrics
  | .inc family labels amount =>
    match byName family with
    | some .counter => m.inc family labels amount
    | _ => m
  | .observe family labels value =>
    match byName family with
    | some (.histogram bounds) => m.setChild family labels (T.observe bounds value (m.child family labels))
    | _ => m

def Metrics.run (m : Metrics) (acts : List Act) : Metrics := acts.foldl (Metrics.perform T) m

/-- One number that a process keeps. -/
inductive Cell where
  | total (family : String) (labels : Labels)
  | bucket (family : String) (labels : Labels) (i : Nat)
  | sum (family : String) (labels : Labels)

def Metrics.read (m : Metrics) : Cell → Rat
  | .total family labels => m.total family labels
  | .bucket family labels i => (m.child family labels).buckets i
  | .sum family labels => (m.child family labels).sum

def Act.bump : Act → Cell → Rat
  | .inc family labels amount, .total name at_ =>
    if byName family = some .counter ∧ name = family ∧ at_ = labels then amount else 0
  | .observe family labels value, .bucket name at_ i =>
    match byName family with
    | some (.histogram bounds) => if (name = family ∧ at_ = labels) ∧ bucketOf bounds value = some i then 1 else 0
    | _ => 0
  | .observe family labels value, .sum name at_ =>
    match byName family with
    | some (.histogram _) => if name = family ∧ at_ = labels then value else 0
    | _ => 0
  | _, _ => 0

theorem Act.bump_nonneg (a : Act) (c : Cell) : 0 ≤ a.bump c := by
  unfold Act.bump
  split
  · split
    · exact NNRat.coe_nonneg _
    · exact le_refl 0
  · split
    · split
      · exact zero_le_one
      · exact le_refl 0
    · exact le_refl 0
  · split
    · split
      · exact NNRat.coe_nonneg _
      · exact le_refl 0
    · exact le_refl 0
  · exact le_refl 0

theorem read_inc {m : Metrics} {family : String} {labels : Labels} {amount : ℚ≥0} (hkind : byName family = some .counter)
    (c : Cell) : (m.inc family labels amount).read c = m.read c + (Act.inc family labels amount).bump c := by
  cases c with
  | total name at_ =>
    simp only [Metrics.read, Act.bump, Metrics.total_inc, hkind, true_and]
    split
    · rfl
    · exact (add_zero _).symm
  | bucket name at_ i => exact (add_zero _).symm
  | sum name at_ => exact (add_zero _).symm

theorem read_observe {m : Metrics} {family : String} {labels : Labels} {value : ℚ≥0} {bounds : List PyFloat}
    (hkind : byName family = some (.histogram bounds)) (c : Cell) :
    (m.setChild family labels (T.observe bounds value (m.child family labels))).read c =
      m.read c + (Act.observe family labels value).bump c := by
  cases c with
  | total name at_ => exact (add_zero _).symm
  | bucket name at_ i =>
    simp only [Metrics.read, Act.bump, hkind, Metrics.child_setChild]
    by_cases hat : name = family ∧ at_ = labels
    · obtain ⟨rfl, rfl⟩ := hat
      rw [if_pos ⟨rfl, rfl⟩]
      simp only [T.buckets_observe, true_and]
      split
      · rfl
      · exact (add_zero _).symm
    · rw [if_neg hat, if_neg (fun h => hat h.1), add_zero]
  | sum name at_ =>
    simp only [Metrics.read, Act.bump, hkind, Metrics.child_setChild]
    by_cases hat : name = family ∧ at_ = labels
    · obtain ⟨rfl, rfl⟩ := hat
      rw [if_pos ⟨rfl, rfl⟩, if_pos ⟨rfl, rfl⟩, T.sum_observe]
    · rw [if_neg hat, if_neg hat, add_zero]

theorem read_perform (m : Metrics) (a : Act) (c : Cell) : (m.perform T a).read c = m.read c + a.bump c := by
  cases a with
  | inc family labels amount =>
    cases hkind : byName family with
    | none => cases c <;> simp [Metrics.perform, Act.bump, hkind]
    | some kind =>
      cases kind with
      | histogram bounds => cases c <;> simp [Metrics.perform, Act.bump, hkind]
      | counter =>
        simp only [Metrics.perform, hkind]
        exact read_inc hkind c
  | observe family labels value =>
    cases hkind : byName family with
    | none => cases c <;> simp [Metrics.perform, Act.bump, hkind]
    | some kind =>
      cases kind with
      | counter => cases c <;> simp [Metrics.perform, Act.bump, hkind]
      | histogram bounds =>
        simp only [Metrics.perform, hkind]
        exact read_observe T hkind c

/-- Acts only add, and add the same to any state. -/
def acts : Additive (Metrics.perform T) Metrics.read := ⟨Act.bump, Act.bump_nonneg, read_perform T⟩

end OranAdapt.ProcessMetrics
