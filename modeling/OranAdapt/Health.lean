import Mathlib.Algebra.Ring.Rat
import OranAdapt.Store
import Mathlib.Data.Rat.Defs

/-!
# Online health of a rollout

The candidate arm against the stable arm: the health rules of the delivery
policy and the A/B test. Means are exact; the p-value of Welch's test comes
from outside.
-/

namespace OranAdapt

inductive Direction where
  | lower | higher
deriving DecidableEq, Repr

structure HealthRule where
  metric : String
  direction : Direction := .lower
  limit : Option Rat := none
  maxDegradation : Option Rat := none
  maxRatio : Option Rat := none
  required : Bool := true
  degradation_nonneg : ∀ x ∈ maxDegradation, 0 ≤ x := by decide +kernel
  ratio_pos : ∀ x ∈ maxRatio, 0 < x := by decide +kernel

inductive ShadowThen where
  | promote | canary | manual
deriving DecidableEq, Repr

inductive AbInconclusive where
  | rollback | promote | manual
deriving DecidableEq, Repr

inductive ApprovalThen where
  | promote | canary
deriving DecidableEq, Repr

/-- `canary_steps` as the policy accepts them. -/
structure CanarySteps (steps : List Nat) : Prop where
  last : steps.getLast? = some 100
  range : ∀ s ∈ steps, 1 ≤ s ∧ s ≤ 100
  increasing : steps.Pairwise (· < ·)

/-- How a validated candidate reaches traffic, within the ranges the policy
accepts. -/
structure DeliveryPolicy where
  minSamples : Nat := 100
  health : List HealthRule
  shadowMaxS : Time := 86400000000
  shadowThen : ShadowThen := .manual
  canarySteps : List Nat := [5, 25, 50, 100]
  canaryStepHoldS : Time := 600000000
  abPercent : Nat := 50
  abDurationS : Time := 3600000000
  abMetric : String := "error_rate"
  abDirection : Direction := .lower
  abConfidence : Rat := 95 / 100
  abInconclusive : AbInconclusive := .rollback
  approvalTtlS : Time := 86400000000
  approvalThen : ApprovalThen := .promote
  samples_pos : 1 ≤ minSamples := by decide
  shadow_pos : 0 < shadowMaxS := by decide
  steps : CanarySteps canarySteps := by exact ⟨by decide, by decide, by decide⟩
  percent_range : 1 ≤ abPercent ∧ abPercent ≤ 99 := by decide
  duration_pos : 0 < abDurationS := by decide
  ttl_pos : 0 < approvalTtlS := by decide

def defaultHealth : List HealthRule :=
  [{ metric := "error_rate", maxDegradation := some (1 / 100) },
   { metric := "latency_p95_ms", maxRatio := some (3 / 2), required := false }]

def DeliveryPolicy.defaults : DeliveryPolicy := { health := defaultHealth, duration_pos := hour_pos }

structure ArmStats where
  count : Nat
  samples : List (String × List Rat)
deriving DecidableEq, Repr

inductive HealthStatus where
  | healthy | breach | insufficient
deriving DecidableEq, Repr

inductive Arm where
  | stable | candidate
deriving DecidableEq, Repr

inductive HealthReason where
  | tooFew (observed minSamples : Nat)
  | limit (metric : String) (candidate limit : Rat)
  | degradation (metric : String) (candidate worse stable allowed : Rat)
  | ratio (metric : String) (candidate stable ratio : Rat)
  | missing (metric : String) (arm : Arm)
deriving DecidableEq, Repr

structure HealthVerdict where
  status : HealthStatus
  reasons : List HealthReason
deriving DecidableEq, Repr

def fmean (values : List Rat) : Rat := values.sum / values.length

def ArmStats.mean (arm : ArmStats) (metric : String) : Option Rat :=
  match (arm.samples.lookup metric).getD [] with
  | [] => none
  | values => some (fmean values)

/-- How much worse the candidate is (negative: better). -/
def worseBy (rule : HealthRule) (candidate stable : Rat) : Rat :=
  match rule.direction with
  | .lower => candidate - stable
  | .higher => stable - candidate

def ratioBreached (rule : HealthRule) (maxRatio candidate stable : Rat) : Bool :=
  match rule.direction with
  | .lower => 0 < stable && maxRatio * stable < candidate
  | .higher => 0 < candidate && maxRatio * candidate < stable

def beyondLimit (rule : HealthRule) (limit candidate : Rat) : Bool :=
  match rule.direction with
  | .lower => limit < candidate
  | .higher => candidate < limit

/-- What one rule finds: broken limits, and required metrics without samples. -/
def checkRule (stable candidate : ArmStats) (rule : HealthRule) : List HealthReason × List HealthReason :=
  match candidate.mean rule.metric with
  | none => ([], if rule.required then [.missing rule.metric .candidate] else [])
  | some c =>
    let limits := rule.limit.toList.filterMap fun limit =>
      if beyondLimit rule limit c then some (.limit rule.metric c limit) else none
    if rule.maxDegradation = none ∧ rule.maxRatio = none then (limits, [])
    else
      match stable.mean rule.metric with
      | none => (limits, if rule.required then [.missing rule.metric .stable] else [])
      | some s =>
        let worse := worseBy rule c s
        let degraded := rule.maxDegradation.toList.filterMap fun allowed =>
          if allowed < worse then some (.degradation rule.metric c worse s allowed) else none
        let ratios := rule.maxRatio.toList.filterMap fun ratio =>
          if ratioBreached rule ratio c s then some (.ratio rule.metric c s ratio) else none
        (limits ++ degraded ++ ratios, [])

/-- Nothing is judged before both arms have `min_samples` requests; then every
rule is checked and any broken one is a breach. -/
def evaluateHealth (policy : DeliveryPolicy) (stable candidate : ArmStats) : HealthVerdict :=
  if candidate.count < policy.minSamples ∨ stable.count < policy.minSamples then
    ⟨.insufficient, [.tooFew (min candidate.count stable.count) policy.minSamples]⟩
  else
    let found := policy.health.map (checkRule stable candidate)
    let reasons := found.flatMap Prod.fst
    let missing := found.flatMap Prod.snd
    if reasons ≠ [] then ⟨.breach, reasons⟩
    else if missing ≠ [] then ⟨.insufficient, missing⟩
    else ⟨.healthy, []⟩

inductive AbVerdict where
  | better | worse | inconclusive
deriving DecidableEq, Repr

/-- Welch's t-test on the samples of `ab_metric`. `ttest` is its p-value, none
for a NaN. -/
def abTest (ttest : List Rat → List Rat → Option Rat) (policy : DeliveryPolicy) (stable candidate : ArmStats) :
    AbVerdict :=
  let cValues := (candidate.samples.lookup policy.abMetric).getD []
  let sValues := (stable.samples.lookup policy.abMetric).getD []
  if min candidate.count stable.count < policy.minSamples ∨ cValues.length < 2 ∨ sValues.length < 2 then
    .inconclusive
  else
    let cMean := fmean cValues
    let sMean := fmean sValues
    let pValue := (ttest cValues sValues).getD (if cMean = sMean then 1 else 0)
    let alpha := 1 - policy.abConfidence
    let improvement := match policy.abDirection with
      | .lower => sMean - cMean
      | .higher => cMean - sMean
    if pValue < alpha ∧ 0 < improvement then .better
    else if pValue < alpha ∧ improvement < 0 then .worse
    else .inconclusive

end OranAdapt
