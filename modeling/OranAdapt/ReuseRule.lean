import Mathlib.Data.List.MinMax
import Mathlib.Data.Prod.Lex
import Mathlib.Order.WithBot
import OranAdapt.DecisionPackage
import OranAdapt.Metrics
import OranAdapt.PyNumbers

/-!
# Which version is reused

`decide_reuse` over the evaluations of a model's versions. A version is put
live only for a gain over LIVE, and once it is LIVE nothing that scores no
better replaces it, as long as no tie reaches the required gain.
-/

namespace OranAdapt.ReuseRule

open Metrics

/-- Float arithmetic where the rule does it, and the text of a float to four decimals. A
difference rounds to zero or below exactly where the first operand is not the greater one. -/
structure FloatArith where
  sub : PyFloat → PyFloat → PyFloat
  mul : PyFloat → PyFloat → PyFloat
  /-- the quotient of two integers -/
  ratio : Int → Nat → PyFloat
  fixed4 : PyFloat → String
  sub_pos (a b : PyFloat) : (PyFloat.fin 0).lt (sub a b) = b.lt a

/-- The settings of the rule, within the bounds the configuration checks. -/
structure ReuseSettings where
  reuseMinAccuracyGain : Rat
  reuseMinRmseReductionRatio : Rat
  reuseMaxModelAgeDays : Option PyFloat := none
  reuseConfidenceRows : Nat := 100
  decisionFullRetrainPsiThreshold : PyFloat := .fin (1 / 2)
  gain_bounds : 0 ≤ reuseMinAccuracyGain ∧ reuseMinAccuracyGain ≤ 1
  ratio_bounds : 0 ≤ reuseMinRmseReductionRatio ∧ reuseMinRmseReductionRatio < 1
  age_pos : ∀ d ∈ reuseMaxModelAgeDays, (PyFloat.fin 0).lt d = true
  rows_pos : 1 ≤ reuseConfidenceRows
  psi_nonneg : (PyFloat.fin 0).le decisionFullRetrainPsiThreshold = true

/-! ## The decision -/

structure ReuseThresholds where
  minGainHigherIsBetter : PyFloat
  minErrorReductionRatio : PyFloat
  maxModelAgeDays : Option PyFloat
  confidenceRows : Nat
  fullRetrainPsi : PyFloat
  metric : Option String := none
  higherIsBetter : Option Bool := none
  requiredGain : Option PyFloat := none
deriving DecidableEq, Repr

structure ReuseEvidence where
  maxPsi : PyFloat
  versionsScored : Nat
  versionsCompatible : Nat
  incompatible : List (String × Option String)
  liveDegradation : Option PyFloat
  liveBaselineMetrics : List (String × PyFloat)
deriving DecidableEq, Repr

/-- The whole `ReuseDecision`. Of its evidence, `gains` is a field of its own; it is empty, as it
is there when the key is missing, where LIVE could not be scored. A dict is the list of its items. -/
structure Reuse extends ReuseDecision where
  liveVersion : Option String
  selectedVersion : Option String := none
  metricName : Option String := none
  liveValue : Option PyFloat := none
  selectedValue : Option PyFloat := none
  improvement : Option PyFloat := none
  confidence : PyFloat := .fin 0
  evidence : ReuseEvidence
  thresholds : ReuseThresholds
  metrics : List (String × PyFloat)
deriving DecidableEq, Repr

def hint (s : ReuseSettings) (maxPsi : PyFloat) : String :=
  if s.decisionFullRetrainPsiThreshold.le maxPsi then "RETRAIN_MODEL" else "ADAPT_MODEL"

/-- LIVE as it was scored. -/
structure Standing where
  value : PyFloat
  metric : String
  higherBetter : Bool
deriving DecidableEq, Repr

/-- What LIVE is measured by; `none` where it could not be scored. -/
def standing : Option VersionEvaluation → Except AdaptationError (Option Standing)
  | none => .ok none
  | some live =>
    match live.compatible, live.metricValue with
    | true, some value =>
      match live.metricName with
      | none => .error (pythonError "AssertionError")
      | some metric => (higherIsBetter metric).map fun higherBetter => some ⟨value, metric, higherBetter⟩
    | _, _ => .ok none

variable (a : FloatArith) (s : ReuseSettings)

def Standing.gainOf (st : Standing) (value : PyFloat) : PyFloat :=
  if st.higherBetter then a.sub value st.value else a.sub st.value value

def Standing.required (st : Standing) : PyFloat :=
  if st.higherBetter then .fin s.reuseMinAccuracyGain else a.mul st.value (.fin s.reuseMinRmseReductionRatio)

def Standing.comparable (st : Standing) (e : VersionEvaluation) : Bool :=
  !e.isLive && e.compatible && e.metricName == some st.metric && e.metricValue.isSome

def young (e : VersionEvaluation) : Bool :=
  match s.reuseMaxModelAgeDays, e.ageDays with
  | some maxAge, some age => age.le maxAge
  | _, _ => true

def Standing.gain (st : Standing) (e : VersionEvaluation) : PyFloat := st.gainOf a (e.metricValue.getD .nan)

def Standing.reaches (st : Standing) (e : VersionEvaluation) : Bool := (st.required a s).le (st.gain a e)

def Standing.eligible (st : Standing) (evaluations : List VersionEvaluation) : List VersionEvaluation :=
  evaluations.filter fun e => st.comparable e && young s e && st.reaches a s e

/-- Floats in their order; a `nan` is in none of the places where it would matter. -/
def rank : PyFloat → WithBot (WithTop ℚ)
  | .fin q => ((q : WithTop ℚ) : WithBot (WithTop ℚ))
  | .inf => ((⊤ : WithTop ℚ) : WithBot (WithTop ℚ))
  | .negInf | .nan => ⊥

def number (e : VersionEvaluation) : Int := (PyInt.int? e.version).getD 0

def Standing.key (st : Standing) (e : VersionEvaluation) : WithBot (WithTop ℚ) ×ₗ Int :=
  toLex (rank (st.gain a e), number e)

/-- The order of the integers that is computed. -/
local instance intPreorder : Preorder Int := Int.instLinearOrder.toPreorder

/-- `max(eligible, key=...)`: `none` of no version. -/
def Standing.best (st : Standing) (eligible : List VersionEvaluation) :
    Except AdaptationError (Option VersionEvaluation) :=
  if eligible.any fun e => (PyInt.int? e.version).isNone then .error (pythonError "ValueError")
  else .ok (eligible.argmax (st.key a))

def thresholds : ReuseThresholds where
  minGainHigherIsBetter := .fin s.reuseMinAccuracyGain
  minErrorReductionRatio := .fin s.reuseMinRmseReductionRatio
  maxModelAgeDays := s.reuseMaxModelAgeDays
  confidenceRows := s.reuseConfidenceRows
  fullRetrainPsi := s.decisionFullRetrainPsiThreshold

def scored (evaluations : List VersionEvaluation) : List (String × PyFloat) :=
  evaluations.filterMap fun e => e.metricValue.map fun v => (e.version, v)

def evidence (evaluations : List VersionEvaluation) (live : Option VersionEvaluation) (maxPsi : PyFloat) :
    ReuseEvidence where
  maxPsi := maxPsi
  versionsScored := evaluations.length
  versionsCompatible := evaluations.countP (·.compatible)
  incompatible := (evaluations.filter (!·.compatible)).map fun e => (e.version, e.incompatibilityReason)
  liveDegradation := live.bind (·.degradation)
  liveBaselineMetrics := (live.map (·.baselineMetrics)).getD []

def unscoredReason (live : Option VersionEvaluation) : String :=
  "LIVE could not be scored on the current data" ++
    match live.bind (·.incompatibilityReason) with
    | none => ""
    | some why => if why = "" then "" else " (" ++ why ++ ")"

def Standing.gains (st : Standing) (evaluations : List VersionEvaluation) : List (String × PyFloat) :=
  (evaluations.filter st.comparable).map fun e => (e.version, st.gain a e)

def Standing.noneReason (st : Standing) (evaluations : List VersionEvaluation) (liveVersion : String) : String :=
  "no registered version beats LIVE v" ++ liveVersion ++ " (" ++ st.metric ++ "=" ++ a.fixed4 st.value ++
    ") by the required " ++ a.fixed4 (st.required a s) ++ "; " ++
    toString (evaluations.countP fun e => e.compatible && !e.isLive) ++ " other compatible version(s) scored"

def Standing.bestReason (st : Standing) (best : VersionEvaluation) (liveVersion : String) : String :=
  "version " ++ best.version ++ " scores " ++ st.metric ++ "=" ++ a.fixed4 (best.metricValue.getD .nan) ++
    " on the current data vs LIVE v" ++ liveVersion ++ " " ++ a.fixed4 st.value ++ " (gain " ++
    a.fixed4 (st.gain a best) ++ " >= " ++ a.fixed4 (st.required a s) ++ "); reusing it, no training needed"

def confidence (live : Option VersionEvaluation) : PyFloat :=
  .pyMin (.fin 1) (a.ratio ((live.map (·.nRows)).getD 0) s.reuseConfidenceRows)

def decideReuse (evaluations : List VersionEvaluation) (liveVersion : Option String) (maxPsi : PyFloat) :
    Except AdaptationError Reuse := do
  let live := evaluations.find? (·.isLive)
  match ← standing live with
  | none =>
    .ok { verdict := hint s maxPsi, reason := unscoredReason live, liveVersion
          evidence := evidence evaluations live maxPsi, thresholds := thresholds s, metrics := scored evaluations }
  | some st =>
    let decision : Reuse :=
      { verdict := hint s maxPsi, reason := st.noneReason a s evaluations (liveVersion.getD "None")
        gains := st.gains a evaluations, liveVersion, metricName := some st.metric, liveValue := some st.value
        confidence := confidence a s live, evidence := evidence evaluations live maxPsi
        thresholds := { thresholds s with
          metric := some st.metric, higherIsBetter := some st.higherBetter, requiredGain := some (st.required a s) }
        metrics := scored evaluations }
    match ← st.best a (st.eligible a s evaluations) with
    | none => .ok decision
    | some best =>
      .ok { decision with
        verdict := "REUSE_EXISTING_VERSION", reason := st.bestReason a s best (liveVersion.getD "None")
        selectedVersion := some best.version, selectedValue := best.metricValue, improvement := some (st.gain a best) }

/-! ## What is promised of it -/

/-- The evaluations of a model's versions in any order: their numbers are distinct, and LIVE is
the version the alias names. -/
structure Listing where
  evaluations : List VersionEvaluation
  liveVersion : String
  numbered : ∀ e ∈ evaluations, (PyInt.int? e.version).isSome = true
  distinct : (evaluations.map number).Nodup
  live : ∀ e ∈ evaluations, e.isLive = (e.version == liveVersion)

def Listing.decide (l : Listing) (maxPsi : PyFloat) : Except AdaptationError Reuse :=
  decideReuse a s l.evaluations (some l.liveVersion) maxPsi

def liveOf (evaluations : List VersionEvaluation) : Except AdaptationError (Option Standing) :=
  standing (evaluations.find? (·.isLive))

/-- `e` scores strictly better than LIVE. -/
def Standing.better (st : Standing) (e : VersionEvaluation) : Bool :=
  match e.metricValue with
  | some value => if st.higherBetter then st.value.lt value else value.lt st.value
  | none => false

structure Standing.MayReplace (st : Standing) (e : VersionEvaluation) : Prop where
  compatible : e.compatible = true
  notLive : e.isLive = false
  young : young s e = true
  metric : e.metricName = some st.metric
  better : st.better e = true
  required : (st.required a s).le (st.gain a e) = true

structure Standing.Picked (st : Standing) (evaluations : List VersionEvaluation) (e : VersionEvaluation) : Prop
    extends Standing.MayReplace a s st e where
  mem : e ∈ evaluations
  maximal : ∀ e' ∈ evaluations, st.MayReplace a s e' → (st.gain a e).lt (st.gain a e') = false
  newest : ∀ e' ∈ evaluations, st.MayReplace a s e' → st.gain a e' = st.gain a e → number e' ≤ number e

/-- Both decisions are the same, their dicts compared as dicts. -/
structure Reuse.Same (r r' : Reuse) : Prop where
  verdict : r.verdict = r'.verdict
  reason : r.reason = r'.reason
  liveVersion : r.liveVersion = r'.liveVersion
  selectedVersion : r.selectedVersion = r'.selectedVersion
  metricName : r.metricName = r'.metricName
  liveValue : r.liveValue = r'.liveValue
  selectedValue : r.selectedValue = r'.selectedValue
  improvement : r.improvement = r'.improvement
  confidence : r.confidence = r'.confidence
  thresholds : r.thresholds = r'.thresholds
  evidence : { r.evidence with incompatible := [] } = { r'.evidence with incompatible := [] }
  incompatible : r.evidence.incompatible.Perm r'.evidence.incompatible
  gains : r.gains.Perm r'.gains
  metrics : r.metrics.Perm r'.metrics

def SameOutcome : Except AdaptationError Reuse → Except AdaptationError Reuse → Prop
  | .ok r, .ok r' => r.Same r'
  | .error e, .error e' => e = e'
  | _, _ => False

def moved (version : String) (e : VersionEvaluation) : VersionEvaluation := { e with isLive := e.version == version }

/-- The same scores once LIVE is moved to `version`. -/
def moveLive (version : String) (evaluations : List VersionEvaluation) : List VersionEvaluation :=
  evaluations.map (moved version)

def ScoresBetter (e' e : VersionEvaluation) : Prop :=
  ∃ metric higherBetter value, higherIsBetter metric = .ok higherBetter ∧ e.metricName = some metric ∧
    e.metricValue = some value ∧ e'.metricName = some metric ∧
    (Standing.mk value metric higherBetter).better e' = true

structure Promise (l : Listing) : Prop where
  picks : ∀ maxPsi r version, l.decide a s maxPsi = .ok r → r.selectedVersion = some version →
    ∃ st e, liveOf l.evaluations = .ok (some st) ∧ e.version = version ∧ st.Picked a s l.evaluations e
  orderFree : ∀ evaluations, evaluations.Perm l.evaluations → ∀ maxPsi,
    SameOutcome (decideReuse a s evaluations (some l.liveVersion) maxPsi) (l.decide a s maxPsi)
  settles : ∀ maxPsi r version, l.decide a s maxPsi = .ok r → r.selectedVersion = some version →
    ∀ maxPsi' r' version',
      decideReuse a s (moveLive version l.evaluations) (some version) maxPsi' = .ok r' →
      r'.selectedVersion = some version' →
      ∃ e ∈ l.evaluations, ∃ e' ∈ l.evaluations, e.version = version ∧ e'.version = version' ∧ ScoresBetter e' e

/-- Versions reach the required gain over LIVE, and none of them scores better than LIVE. -/
def Tied (evaluations : List VersionEvaluation) : Prop :=
  ∃ st, liveOf evaluations = .ok (some st) ∧ st.eligible a s evaluations ≠ [] ∧
    ∀ e ∈ st.eligible a s evaluations, st.better e = false

/-- `e` gains most of those that reach the required gain, and is the newest of equals. -/
def Leads (evaluations : List VersionEvaluation) (e : VersionEvaluation) : Prop :=
  ∃ st, liveOf evaluations = .ok (some st) ∧ e ∈ st.eligible a s evaluations ∧
    ∀ e' ∈ st.eligible a s evaluations, st.key a e' ≤ st.key a e

/-! ## One decision -/

variable {a s}

theorem rank_lt {x y : PyFloat} (hx : x ≠ .nan) (hy : y ≠ .nan) : x.lt y = true ↔ rank x < rank y := by
  cases x with
  | nan => exact absurd rfl hx
  | fin p =>
    cases y with
    | nan => exact absurd rfl hy
    | fin q => simp [PyFloat.lt, rank]
    | inf => exact iff_of_true rfl (WithBot.coe_lt_coe.mpr (WithTop.coe_lt_top p))
    | negInf => simp [PyFloat.lt, rank]
  | inf =>
    cases y with
    | nan => exact absurd rfl hy
    | fin q => simp [PyFloat.lt, rank]
    | inf => simp [PyFloat.lt, rank]
    | negInf => simp [PyFloat.lt, rank]
  | negInf =>
    cases y with
    | nan => exact absurd rfl hy
    | fin q => simp [PyFloat.lt, rank]
    | inf => simp [PyFloat.lt, rank]
    | negInf => simp [PyFloat.lt, rank]

theorem not_nan_of_le {x y : PyFloat} (h : x.le y = true) : y ≠ .nan := by
  rintro rfl
  cases x <;> simp [PyFloat.le, PyFloat.lt] at h

/-- A gain is positive exactly where the version scores strictly better. -/
theorem Standing.gain_pos (st : Standing) (e : VersionEvaluation) (h : e.metricValue.isSome = true) :
    (PyFloat.fin 0).lt (st.gain a e) = st.better e := by
  obtain ⟨value, hvalue⟩ := Option.isSome_iff_exists.mp h
  simp only [Standing.gain, Standing.gainOf, Standing.better, hvalue, Option.getD_some]
  split
  · exact a.sub_pos _ _
  · exact a.sub_pos _ _

theorem Standing.mem_eligible {st : Standing} {l : List VersionEvaluation} {e : VersionEvaluation} :
    e ∈ st.eligible a s l ↔
      e ∈ l ∧ st.comparable e = true ∧ young s e = true ∧ st.reaches a s e = true := by
  simp [Standing.eligible, and_assoc]

theorem Standing.comparable_iff {st : Standing} {e : VersionEvaluation} :
    st.comparable e = true ↔
      e.isLive = false ∧ e.compatible = true ∧ e.metricName = some st.metric ∧ e.metricValue.isSome = true := by
  simp [Standing.comparable, and_assoc]

theorem Standing.MayReplace.eligible {st : Standing} {l : List VersionEvaluation} {e : VersionEvaluation}
    (h : st.MayReplace a s e) (he : e ∈ l) : e ∈ st.eligible a s l := by
  have hvalue : e.metricValue.isSome = true := by
    have hbetter := h.better
    cases hv : e.metricValue with
    | none =>
      rw [Standing.better, hv] at hbetter
      cases hbetter
    | some value => rfl
  exact mem_eligible.mpr ⟨he, comparable_iff.mpr ⟨h.notLive, h.compatible, h.metric, hvalue⟩, h.young, h.required⟩

theorem Standing.mayReplace {st : Standing} {l : List VersionEvaluation} {e : VersionEvaluation}
    (he : e ∈ st.eligible a s l) (hbetter : st.better e = true) : st.MayReplace a s e := by
  obtain ⟨-, hcomparable, hyoung, hreaches⟩ := mem_eligible.mp he
  obtain ⟨hlive, hcompatible, hmetric, -⟩ := comparable_iff.mp hcomparable
  exact ⟨hcompatible, hlive, hyoung, hmetric, hbetter, hreaches⟩

theorem liveOf_some {l : List VersionEvaluation} {st : Standing} (h : liveOf l = .ok (some st)) :
    ∃ live ∈ l, live.isLive = true ∧ live.metricName = some st.metric ∧ live.metricValue = some st.value ∧
      higherIsBetter st.metric = .ok st.higherBetter := by
  unfold liveOf at h
  cases hlive : l.find? (·.isLive) with
  | none =>
    rw [hlive] at h
    cases h
  | some live =>
    refine ⟨live, List.mem_of_find?_eq_some hlive, by simpa using List.find?_some hlive, ?_⟩
    rw [hlive, standing] at h
    cases hcompatible : live.compatible with
    | false =>
      rw [hcompatible] at h
      cases h
    | true =>
      cases hvalue : live.metricValue with
      | none =>
        rw [hcompatible, hvalue] at h
        cases h
      | some value =>
        cases hmetric : live.metricName with
        | none =>
          rw [hcompatible, hvalue, hmetric] at h
          cases h
        | some metric =>
          rw [hcompatible, hvalue, hmetric] at h
          cases hhigher : higherIsBetter metric with
          | error e =>
            simp only [hhigher] at h
            cases h
          | ok higherBetter =>
            simp only [hhigher] at h
            cases h
            exact ⟨rfl, rfl, hhigher⟩

theorem decide_selected {l : List VersionEvaluation} {liveVersion : Option String} {maxPsi : PyFloat} {r : Reuse}
    {version : String} (h : decideReuse a s l liveVersion maxPsi = .ok r) (hr : r.selectedVersion = some version) :
    ∃ st e, liveOf l = .ok (some st) ∧ (st.eligible a s l).argmax (st.key a) = some e ∧ e.version = version := by
  obtain ⟨live, hlive, h⟩ := bind_ok h
  cases live with
  | none =>
    cases h
    cases hr
  | some st =>
    obtain ⟨best, hbest, h⟩ := bind_ok h
    cases best with
    | none =>
      cases h
      cases hr
    | some e =>
      cases h
      cases hr
      rw [Standing.best] at hbest
      split at hbest
      · cases hbest
      · exact ⟨st, e, hlive, Except.ok.inj hbest, rfl⟩

theorem decide_numbered {l : List VersionEvaluation} (hl : ∀ e ∈ l, (PyInt.int? e.version).isSome = true)
    {st : Standing} (hst : liveOf l = .ok (some st)) {e : VersionEvaluation}
    (he : (st.eligible a s l).argmax (st.key a) = some e) (liveVersion : Option String) (maxPsi : PyFloat) :
    ∃ r, decideReuse a s l liveVersion maxPsi = .ok r ∧ r.selectedVersion = some e.version := by
  have hnumbered : ((st.eligible a s l).any fun e => (PyInt.int? e.version).isNone) = false := by
    rw [List.any_eq_false]
    intro e' he'
    simp [Option.isSome_iff_ne_none.mp (hl e' (Standing.mem_eligible.mp he').1)]
  have hbest : st.best a (st.eligible a s l) = .ok (some e) := by
    rw [Standing.best, hnumbered, he]
    rfl
  rw [liveOf] at hst
  simp only [decideReuse, hst, bind, Except.bind, hbest]
  exact ⟨_, rfl, rfl⟩

/-! ## The best version -/

theorem Standing.not_nan {st : Standing} {l : List VersionEvaluation} {e : VersionEvaluation}
    (he : e ∈ st.eligible a s l) : st.gain a e ≠ .nan := by
  obtain ⟨-, -, -, hreaches⟩ := mem_eligible.mp he
  exact not_nan_of_le hreaches

theorem Standing.key_le {st : Standing} {l : List VersionEvaluation} {e e' : VersionEvaluation}
    (he : e ∈ st.eligible a s l) (he' : e' ∈ st.eligible a s l) (h : st.key a e' ≤ st.key a e) :
    (st.gain a e).lt (st.gain a e') = false ∧ (st.gain a e' = st.gain a e → number e' ≤ number e) := by
  rw [Standing.key, Standing.key, Prod.Lex.toLex_le_toLex] at h
  refine ⟨?_, fun heq => ?_⟩
  · rw [Bool.eq_false_iff, ne_eq, rank_lt (not_nan he) (not_nan he'), not_lt]
    rcases h with h | ⟨h, -⟩
    · exact h.le
    · exact h.le
  · rcases h with h | ⟨-, h⟩
    · exact absurd (congrArg rank heq) h.ne
    · exact h

/-- The leader scores better than LIVE where some version that reaches the gain does. -/
theorem Standing.leader_better {st : Standing} {l : List VersionEvaluation} {e e' : VersionEvaluation}
    (he : e ∈ st.eligible a s l) (hmax : ∀ e' ∈ st.eligible a s l, st.key a e' ≤ st.key a e)
    (he' : e' ∈ st.eligible a s l) (hbetter : st.better e' = true) : st.better e = true := by
  have hvalue : ∀ x ∈ st.eligible a s l, x.metricValue.isSome = true := fun x hx =>
    (comparable_iff.mp (mem_eligible.mp hx).2.1).2.2.2
  rw [← gain_pos st e (hvalue e he)]
  rw [← gain_pos st e' (hvalue e' he')] at hbetter
  have hle := (key_le he he' (hmax e' he')).1
  rw [Bool.eq_false_iff, ne_eq, rank_lt (not_nan he) (not_nan he'), not_lt] at hle
  rw [rank_lt (by simp) (not_nan he)]
  rw [rank_lt (by simp) (not_nan he')] at hbetter
  exact hbetter.trans_le hle

theorem leads_of_argmax {l : List VersionEvaluation} {st : Standing} (hst : liveOf l = .ok (some st))
    {e : VersionEvaluation} (he : (st.eligible a s l).argmax (st.key a) = some e) : Leads a s l e :=
  ⟨st, hst, List.argmax_mem he, fun _ he' => List.le_of_mem_argmax he' he⟩

theorem Leads.standing {l : List VersionEvaluation} {e : VersionEvaluation} (h : Leads a s l e) {st : Standing}
    (hst : liveOf l = .ok (some st)) :
    e ∈ st.eligible a s l ∧ ∀ e' ∈ st.eligible a s l, st.key a e' ≤ st.key a e := by
  obtain ⟨st', hst', he⟩ := h
  rw [hst] at hst'
  cases hst'
  exact he

theorem Listing.eq_of_number (l : Listing) {e e' : VersionEvaluation} (he : e ∈ l.evaluations)
    (he' : e' ∈ l.evaluations) (h : number e = number e') : e = e' :=
  List.inj_on_of_nodup_map l.distinct he he' h

theorem Listing.eq_of_version (l : Listing) {e e' : VersionEvaluation} (he : e ∈ l.evaluations)
    (he' : e' ∈ l.evaluations) (h : e.version = e'.version) : e = e' :=
  l.eq_of_number he he' (by rw [number, number, h])

/-- Two leaders are one version: their numbers differ otherwise. -/
theorem Listing.leads_unique (l : Listing) {es : List VersionEvaluation} (hes : ∀ e ∈ es, e ∈ l.evaluations)
    {st : Standing} {e e' : VersionEvaluation} (he : e ∈ es) (he' : e' ∈ es)
    (hle : st.key a e ≤ st.key a e') (hge : st.key a e' ≤ st.key a e) : e = e' := by
  have hkey : st.key a e = st.key a e' := le_antisymm hle hge
  rw [Standing.key, Standing.key, EmbeddingLike.apply_eq_iff_eq, Prod.mk.injEq] at hkey
  exact l.eq_of_number (hes e he) (hes e' he') hkey.2

theorem Listing.argmax_of_leads (l : Listing) {st : Standing} (hst : liveOf l.evaluations = .ok (some st))
    {e : VersionEvaluation} (h : Leads a s l.evaluations e) :
    (st.eligible a s l.evaluations).argmax (st.key a) = some e := by
  obtain ⟨he, hmax⟩ := h.standing hst
  cases hbest : (st.eligible a s l.evaluations).argmax (st.key a) with
  | none =>
    rw [List.argmax_eq_none] at hbest
    rw [hbest] at he
    cases he
  | some e' =>
    have he' := List.argmax_mem hbest
    rw [l.leads_unique (fun _ hx => (Standing.mem_eligible.mp hx).1) he he' (List.le_of_mem_argmax he hbest) (hmax e' he')]

/-! ## LIVE moved -/

def Listing.moveLive (l : Listing) (version : String) : Listing where
  evaluations := ReuseRule.moveLive version l.evaluations
  liveVersion := version
  numbered := by
    intro e he
    obtain ⟨e', he', rfl⟩ := List.mem_map.mp he
    exact l.numbered e' he'
  distinct := by
    rw [ReuseRule.moveLive, List.map_map]
    exact l.distinct
  live := by
    intro e he
    obtain ⟨e', -, rfl⟩ := List.mem_map.mp he
    rfl

theorem Listing.find?_live (l : Listing) {e : VersionEvaluation} (he : e ∈ l.evaluations) (hlive : e.isLive = true) :
    l.evaluations.find? (·.isLive) = some e := by
  cases hfind : l.evaluations.find? (·.isLive) with
  | none => exact absurd hlive (by simpa using List.find?_eq_none.mp hfind e he)
  | some e' =>
    have he' := List.mem_of_find?_eq_some hfind
    have hlive' : e'.isLive = true := by simpa using List.find?_some hfind
    rw [l.live e he, beq_iff_eq] at hlive
    rw [l.live e' he', beq_iff_eq] at hlive'
    rw [l.eq_of_version he' he (hlive'.trans hlive.symm)]

/-- Once a version that reached the gain is LIVE, the others are measured by its score. -/
theorem Listing.liveOf_moveLive (l : Listing) {st : Standing} (hst : liveOf l.evaluations = .ok (some st))
    {e : VersionEvaluation} (he : e ∈ st.eligible a s l.evaluations) :
    ∃ value, e.metricValue = some value ∧
      liveOf (l.moveLive e.version).evaluations = .ok (some ⟨value, st.metric, st.higherBetter⟩) := by
  obtain ⟨hmem, hcomparable, -, -⟩ := Standing.mem_eligible.mp he
  obtain ⟨-, hcompatible, hmetric, hvalue⟩ := Standing.comparable_iff.mp hcomparable
  obtain ⟨value, hvalue⟩ := Option.isSome_iff_exists.mp hvalue
  obtain ⟨-, -, -, -, -, hhigher⟩ := liveOf_some hst
  have hmoved : moved e.version e ∈ (l.moveLive e.version).evaluations := List.mem_map_of_mem hmem
  refine ⟨value, hvalue, ?_⟩
  rw [liveOf, (l.moveLive e.version).find?_live hmoved (beq_self_eq_true _), standing]
  simp only [moved, hcompatible, hvalue, hmetric, hhigher]
  rfl

/-! ## The order of the list -/

theorem Listing.find?_perm (l : Listing) {es : List VersionEvaluation} (hes : es.Perm l.evaluations) :
    es.find? (·.isLive) = l.evaluations.find? (·.isLive) := by
  cases hfind : es.find? (·.isLive) with
  | none =>
    rw [eq_comm, List.find?_eq_none]
    intro e he
    exact List.find?_eq_none.mp hfind e (hes.mem_iff.mpr he)
  | some e =>
    have he := hes.mem_iff.mp (List.mem_of_find?_eq_some hfind)
    exact (l.find?_live he (by simpa using List.find?_some hfind)).symm

theorem Listing.argmax_perm (l : Listing) {es : List VersionEvaluation} (hes : es.Perm l.evaluations) (st : Standing) :
    (st.eligible a s es).argmax (st.key a) = (st.eligible a s l.evaluations).argmax (st.key a) := by
  have hperm : (st.eligible a s es).Perm (st.eligible a s l.evaluations) := hes.filter _
  cases hbest : (st.eligible a s es).argmax (st.key a) with
  | none =>
    rw [List.argmax_eq_none] at hbest
    rw [hbest] at hperm
    rw [List.nil_perm.mp hperm]
    rfl
  | some e =>
    cases hbest' : (st.eligible a s l.evaluations).argmax (st.key a) with
    | none =>
      rw [List.argmax_eq_none] at hbest'
      rw [hbest'] at hperm
      rw [hperm.eq_nil] at hbest
      cases hbest
    | some e' =>
      have he := List.argmax_mem hbest
      have he' := List.argmax_mem hbest'
      have hle := List.le_of_mem_argmax (hperm.mem_iff.mpr he') hbest
      have hge := List.le_of_mem_argmax (hperm.mem_iff.mp he) hbest'
      exact congrArg some (l.leads_unique (fun _ hx => (Standing.mem_eligible.mp hx).1) (hperm.mem_iff.mp he) he' hge hle)

theorem Listing.best_perm (l : Listing) {es : List VersionEvaluation} (hes : es.Perm l.evaluations) (st : Standing) :
    st.best a (st.eligible a s es) = st.best a (st.eligible a s l.evaluations) := by
  have hperm : (st.eligible a s es).Perm (st.eligible a s l.evaluations) := hes.filter _
  rw [Standing.best, Standing.best, l.argmax_perm hes, hperm.any_eq]

theorem Standing.noneReason_perm (st : Standing) {es l : List VersionEvaluation} (h : es.Perm l) (liveVersion : String) :
    st.noneReason a s es liveVersion = st.noneReason a s l liveVersion := by
  have hcount := h.countP_eq fun e => e.compatible && !e.isLive
  unfold Standing.noneReason
  rw [hcount]

theorem Listing.orderFree (l : Listing) {es : List VersionEvaluation} (hes : es.Perm l.evaluations) (maxPsi : PyFloat) :
    SameOutcome (decideReuse a s es (some l.liveVersion) maxPsi) (l.decide a s maxPsi) := by
  have hincompatible : (evidence es (l.evaluations.find? (·.isLive)) maxPsi).incompatible.Perm
      (evidence l.evaluations (l.evaluations.find? (·.isLive)) maxPsi).incompatible := (hes.filter _).map _
  have hevidence : { evidence es (l.evaluations.find? (·.isLive)) maxPsi with incompatible := [] } =
      { evidence l.evaluations (l.evaluations.find? (·.isLive)) maxPsi with incompatible := [] } := by
    simp only [evidence, hes.length_eq, hes.countP_eq]
  have hscored : (scored es).Perm (scored l.evaluations) := hes.filterMap _
  rw [Listing.decide, decideReuse, decideReuse, l.find?_perm hes]
  cases hst : standing (l.evaluations.find? (·.isLive)) with
  | error e => rfl
  | ok st =>
    cases st with
    | none => exact ⟨rfl, rfl, rfl, rfl, rfl, rfl, rfl, rfl, rfl, rfl, hevidence, hincompatible, .refl _, hscored⟩
    | some st =>
      have hgains : (st.gains a es).Perm (st.gains a l.evaluations) := (hes.filter _).map _
      have hreason := st.noneReason_perm (a := a) (s := s) hes l.liveVersion
      simp only [bind, Except.bind, l.best_perm hes]
      cases st.best a (st.eligible a s l.evaluations) with
      | error e => rfl
      | ok best =>
        cases best with
        | none => exact ⟨rfl, hreason, rfl, rfl, rfl, rfl, rfl, rfl, rfl, rfl, hevidence, hincompatible, hgains, hscored⟩
        | some e => exact ⟨rfl, rfl, rfl, rfl, rfl, rfl, rfl, rfl, rfl, rfl, hevidence, hincompatible, hgains, hscored⟩

/-! ## When it settles -/

theorem picked {l : List VersionEvaluation} {st : Standing} (hst : liveOf l = .ok (some st)) (h : ¬ Tied a s l)
    {e : VersionEvaluation} (he : (st.eligible a s l).argmax (st.key a) = some e) : st.Picked a s l e := by
  have hmem := List.argmax_mem he
  have hmax : ∀ e' ∈ st.eligible a s l, st.key a e' ≤ st.key a e := fun _ he' => List.le_of_mem_argmax he' he
  have hbetter : ∃ e' ∈ st.eligible a s l, st.better e' = true := by
    by_contra hnone
    exact h ⟨st, hst, List.ne_nil_of_mem hmem, fun e' he' => by
      rw [Bool.eq_false_iff]
      exact fun hb => hnone ⟨e', he', hb⟩⟩
  obtain ⟨e', he', hbetter⟩ := hbetter
  have hreplace := Standing.mayReplace hmem (Standing.leader_better hmem hmax he' hbetter)
  refine ⟨hreplace, (Standing.mem_eligible.mp hmem).1, fun e' he' hmay => ?_, fun e' he' hmay => ?_⟩
  · exact (Standing.key_le hmem (hmay.eligible he') (hmax e' (hmay.eligible he'))).1
  · exact (Standing.key_le hmem (hmay.eligible he') (hmax e' (hmay.eligible he'))).2

theorem Listing.promise (l : Listing) (hlive : ¬ Tied a s l.evaluations)
    (hleader : ∀ e ∈ l.evaluations, Leads a s l.evaluations e →
      ¬ Tied a s (ReuseRule.moveLive e.version l.evaluations)) :
    Promise a s l where
  picks maxPsi r version h hr := by
    obtain ⟨st, e, hst, he, hversion⟩ := decide_selected h hr
    exact ⟨st, e, hst, hversion, picked hst hlive he⟩
  orderFree es hes maxPsi := l.orderFree hes maxPsi
  settles maxPsi r version h hr maxPsi' r' version' h' hr' := by
    obtain ⟨st, e, hst, he, rfl⟩ := decide_selected h hr
    obtain ⟨st', e', hst', he', rfl⟩ := decide_selected h' hr'
    obtain ⟨hmem, hcomparable, -, -⟩ := Standing.mem_eligible.mp (List.argmax_mem he)
    obtain ⟨value, hvalue, hmoved⟩ := l.liveOf_moveLive hst (List.argmax_mem he)
    have hst'' := hst'.symm.trans hmoved
    cases hst''
    have hpicked := picked hst' (hleader e hmem (leads_of_argmax hst he)) he'
    obtain ⟨x, hx, rfl⟩ := List.mem_map.mp hpicked.mem
    obtain ⟨-, -, -, -, -, hhigher⟩ := liveOf_some hst
    exact ⟨e, hmem, x, hx, rfl, rfl, st.metric, st.higherBetter, value, hhigher,
      (Standing.comparable_iff.mp hcomparable).2.2.1, hvalue, hpicked.metric, hpicked.better⟩

theorem exists_argmax {l : List VersionEvaluation} {st : Standing} (h : st.eligible a s l ≠ []) :
    ∃ e, (st.eligible a s l).argmax (st.key a) = some e :=
  Option.ne_none_iff_exists'.mp fun hnone => h (List.argmax_eq_none.mp hnone)

/-- A tie at LIVE makes the rule select a version that scores no better. -/
theorem Listing.not_picks (l : Listing) (h : Tied a s l.evaluations) : ¬ Promise a s l := by
  intro hp
  obtain ⟨st, hst, hne, hnone⟩ := h
  obtain ⟨e, he⟩ := exists_argmax hne
  obtain ⟨r, hr, hselected⟩ := decide_numbered l.numbered hst he (some l.liveVersion) (.fin 0)
  obtain ⟨st', e', hst', hversion, hpicked⟩ := hp.picks _ r e.version hr hselected
  cases hst.symm.trans hst'
  have hmem := List.argmax_mem he
  have heq := l.eq_of_version hpicked.mem (Standing.mem_eligible.mp hmem).1 hversion
  subst heq
  have hbetter := hpicked.better
  rw [hnone _ hmem] at hbetter
  cases hbetter

/-- A tie once the leader is LIVE makes the next decision move LIVE for nothing. -/
theorem Listing.not_settles (l : Listing) {e : VersionEvaluation} (he : Leads a s l.evaluations e)
    (h : Tied a s (ReuseRule.moveLive e.version l.evaluations)) : ¬ Promise a s l := by
  intro hp
  obtain ⟨st, hst, hmem, -⟩ := id he
  obtain ⟨r, hr, hselected⟩ := decide_numbered l.numbered hst (l.argmax_of_leads hst he) (some l.liveVersion) (.fin 0)
  obtain ⟨st', hst', hne, hnone⟩ := h
  obtain ⟨e', he'⟩ := exists_argmax hne
  obtain ⟨r', hr', hselected'⟩ :=
    decide_numbered (l.moveLive e.version).numbered hst' he' (some e.version) (.fin 0)
  obtain ⟨x, hx, y, hy, hxe, hye, hscores⟩ := hp.settles _ r e.version hr hselected _ r' e'.version hr' hselected'
  have heq := l.eq_of_version hx (Standing.mem_eligible.mp hmem).1 hxe
  subst heq
  obtain ⟨value, hvalue, hmoved⟩ := l.liveOf_moveLive hst hmem
  have hst'' := hst'.symm.trans hmoved
  cases hst''
  obtain ⟨z, hz, hzy⟩ := List.mem_map.mp (Standing.mem_eligible.mp (List.argmax_mem he')).1
  have hzversion : z.version = e'.version := congrArg (·.version) hzy
  have heq := l.eq_of_version hy hz (hye.trans hzversion.symm)
  subst heq
  obtain ⟨metric, higherBetter, value', hhigher, hmetric, hvalue', -, hbetter⟩ := hscores
  obtain ⟨-, -, hname, -⟩ := Standing.comparable_iff.mp (Standing.mem_eligible.mp hmem).2.1
  obtain ⟨-, -, -, -, -, hhigher'⟩ := liveOf_some hst
  cases hmetric.symm.trans hname
  cases hvalue.symm.trans hvalue'
  cases hhigher.symm.trans hhigher'
  have hno := hnone _ (List.argmax_mem he')
  rw [← hzy] at hno
  exact absurd (hno.symm.trans hbetter) (by simp)

/-- The rule keeps its promise exactly where no version reaches the required gain by a tie alone,
over LIVE or over the leader once it is LIVE. -/
theorem reuse_settles_iff (a : FloatArith) (s : ReuseSettings) (l : Listing) :
    Promise a s l ↔ ¬ Tied a s l.evaluations ∧
      ∀ e ∈ l.evaluations, Leads a s l.evaluations e → ¬ Tied a s (moveLive e.version l.evaluations) := by
  constructor
  · intro h
    refine ⟨fun htied => l.not_picks htied h, fun e _ hleads htied => l.not_settles hleads htied h⟩
  · rintro ⟨hlive, hleader⟩
    exact l.promise hlive hleader

/-! ## A tie -/

def exactSub : PyFloat → PyFloat → PyFloat
  | .fin p, .fin q => .fin (p - q)
  | .nan, _ | _, .nan | .inf, .inf | .negInf, .negInf => .nan
  | .inf, _ | _, .negInf => .inf
  | .negInf, _ | _, .inf => .negInf

def exactMul : PyFloat → PyFloat → PyFloat
  | .fin p, .fin q => .fin (p * q)
  | _, _ => .nan

theorem exactSub_pos (x y : PyFloat) : (PyFloat.fin 0).lt (exactSub x y) = y.lt x := by
  cases x with
  | fin p =>
    cases y with
    | fin q => simp [exactSub]
    | inf | negInf | nan => rfl
  | inf | negInf | nan => cases y <;> rfl

def exactArith : FloatArith where
  sub := exactSub
  mul := exactMul
  ratio m n := .fin (m / n)
  fixed4 x := reprStr x
  sub_pos := exactSub_pos

theorem zeroGain_bounds : (0 : Rat) ≤ 0 ∧ (0 : Rat) ≤ 1 := by norm_num

theorem zeroGain_ratio : (0 : Rat) ≤ 1 / 20 ∧ (1 / 20 : Rat) < 1 := by norm_num

theorem zeroGain_age : ∀ d ∈ (none : Option PyFloat), (PyFloat.fin 0).lt d = true := by simp

theorem zeroGain_rows : 1 ≤ 100 := by decide

theorem zeroGain_psi : (PyFloat.fin 0).le (.fin (1 / 2)) = true := by decide +kernel

def zeroGain : ReuseSettings where
  reuseMinAccuracyGain := 0
  reuseMinRmseReductionRatio := 1 / 20
  gain_bounds := zeroGain_bounds
  ratio_bounds := zeroGain_ratio
  age_pos := zeroGain_age
  rows_pos := zeroGain_rows
  psi_nonneg := zeroGain_psi

def nineOfTen (version : String) (isLive : Bool) : VersionEvaluation :=
  { version, isLive, compatible := true, metricName := some "accuracy", metricValue := some (.fin (9 / 10)) }

def twoEquals : List VersionEvaluation := [nineOfTen "1" true, nineOfTen "2" false]

theorem twoEquals_numbered : ∀ e ∈ twoEquals, (PyInt.int? e.version).isSome = true := by decide

theorem twoEquals_distinct : (twoEquals.map number).Nodup := by decide

theorem twoEquals_live : ∀ e ∈ twoEquals, e.isLive = (e.version == "1") := by decide

/-- LIVE and a version that scores the same. -/
def equals : Listing := ⟨twoEquals, "1", twoEquals_numbered, twoEquals_distinct, twoEquals_live⟩

theorem equal_version_selected : ¬ Promise exactArith zeroGain equals := by
  apply equals.not_picks
  refine ⟨⟨.fin (9 / 10), "accuracy", true⟩, ?_, ?_, ?_⟩
  · decide +kernel
  · decide +kernel
  · decide +kernel

end OranAdapt.ReuseRule
