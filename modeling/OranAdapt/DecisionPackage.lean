import OranAdapt.LlmGuard
import OranAdapt.PyNumbers
import Mathlib.Tactic.Linarith
import Mathlib.Tactic.Positivity
import Mathlib.Tactic.NormNum

/-!
# What a decision is made from

The package the analysis hands over, and what the rules make of it before any
LLM is asked: the hard constraints, the fallback and how far the evidence
supports acting. Floats that are only compared keep their infinities and `nan`;
the evidence confidence is computed on exact values.
-/

namespace OranAdapt

/-- `core.enums.Strategy` -/
inductive AdaptationStrategy where
  | fineTuning | fullRetraining | rollback | noAction | insufficientInformation | noCompatibleStrategy
deriving DecidableEq, Repr

namespace AdaptationStrategy

def value : AdaptationStrategy → String
  | fineTuning => "FINE_TUNING"
  | fullRetraining => "FULL_RETRAINING"
  | rollback => "ROLLBACK"
  | noAction => "NO_ACTION"
  | insufficientInformation => "INSUFFICIENT_INFORMATION"
  | noCompatibleStrategy => "NO_COMPATIBLE_STRATEGY"

def all : List AdaptationStrategy :=
  [fineTuning, fullRetraining, rollback, noAction, insufficientInformation, noCompatibleStrategy]

/-- `Strategy(text)`: `none` where it raises a ValueError. -/
def ofValue? (text : String) : Option AdaptationStrategy := all.find? (·.value == text)

@[simp] theorem ofValue?_value (s : AdaptationStrategy) : ofValue? s.value = some s := by cases s <;> rfl

end AdaptationStrategy

/-! ## The package -/

structure FeatureShift where
  feature : String
  historicalMean : PyFloat
  driftedMean : PyFloat
  historicalStd : PyFloat
  driftedStd : PyFloat
  ksStatistic : PyFloat
  ksPvalue : PyFloat
  psi : PyFloat
  nHistorical : Int
  nDrifted : Int
deriving DecidableEq, Repr

structure DriftSummary where
  featuresCompared : Int := 0
  affectedFeatures : List String := []
  nAffected : Int := 0
  affectedShare : PyFloat := .fin 0
  maxPsi : PyFloat := .fin 0
  meanPsi : PyFloat := .fin 0
  minKsPvalue : PyFloat := .fin 1
  bonferroniAlpha : PyFloat := .fin 0
  significantFeatures : List String := []
  historicalRows : Int := 0
  driftedRows : Int := 0
  lateRows : Int := 0
  sampleSufficient : Bool := false
  sampleNote : String := ""
  previousVersion : Option String := none
  recentPerformance : List (String × PyFloat) := []
  capabilities : List (String × Bool) := []
deriving DecidableEq, Repr

structure DataVersionRef where
  version : String
  rowCount : Int
deriving DecidableEq, Repr

structure VersionEvaluation where
  version : String
  isLive : Bool := false
  compatible : Bool := false
  incompatibilityReason : Option String := none
  estimatorType : Option String := none
  metricName : Option String := none
  metricValue : Option PyFloat := none
  metrics : List (String × PyFloat) := []
  baselineMetrics : List (String × PyFloat) := []
  degradation : Option PyFloat := none
  ageDays : Option PyFloat := none
  nRows : Int := 0
  artifactSha256 : Option String := none
deriving DecidableEq, Repr

/-- `gains` is the entry of its evidence, the measured gain of each version. -/
structure ReuseDecision where
  verdict : String
  reason : String
  gains : List (String × PyFloat) := []
deriving DecidableEq, Repr

structure DecisionPackage where
  modelId : ModelId
  modelType : Option String := none
  framework : Option String := none
  taskType : Option String := none
  driftScore : Option PyFloat := none
  severity : Option String := none
  reuseReason : String
  historicalData : Option DataVersionRef := none
  driftedData : Option DataVersionRef := none
  featureShifts : List FeatureShift := []
  maxPsi : PyFloat := .fin 0
  minKsPvalue : PyFloat := .fin 1
  recentPerformance : List (String × PyFloat) := []
  driftSummary : Option DriftSummary := none
  versionEvaluations : List VersionEvaluation := []
  reuseDecision : Option ReuseDecision := none
deriving DecidableEq, Repr

/-! ## The settings -/

structure Prompt where
  id : String
  version : String
  system : String
deriving DecidableEq, Repr

structure GatePolicy where
  version : String
  mode : String
  margin : PyFloat
  confidence : PyFloat
deriving DecidableEq, Repr

/-- `pluginFrameworks` is what `build_model_types` makes of `MODEL_TYPES`: the frameworks the
plugins it names can adapt, or an error for one that is not installed. `promptDir` is what is
read from `LLM_PROMPT_DIR`. -/
structure DecisionSettings where
  decisionSupportedFrameworks : List String := []
  pluginFrameworks : Except AdaptationError (List String)
  decisionMinDriftedRows : Int := 10
  decisionFullRetrainPsiThreshold : PyFloat := .fin (1 / 2)
  reuseConfidenceRows : Nat := 100
  analysisPsiReuseThreshold : PyFloat := .fin (1 / 10)
  analysisKsPvalueReuseThreshold : PyFloat := .fin (1 / 20)
  analysisMinPsiRows : Int := 30
  validationMinRows : Int := 5
  gatePolicy : GatePolicy
  decisionMemoryCopies : Int := 3
  decisionDefaultConfidence : PyFloat := .fin (1 / 2)
  decisionAgentEnabled : Bool := false
  decisionAgentMaxSteps : Nat := 6
  promptDir : Except AdaptationError (List Prompt) := .ok []
  llmPromptVersions : List (String × String) := []
  confidenceRows_pos : 0 < reuseConfidenceRows := by decide
  default_unit : decisionDefaultConfidence.InUnit := by decide

/-- How Python writes a float, one with three digits, and the `repr` of a string; and `str.lower`. -/
structure PyText where
  float : PyFloat → String
  fixed3 : PyFloat → String
  quoted : String → String
  lower : String → String

def PyText.list (text : PyText) (xs : List String) : String := "[" ++ ", ".intercalate (xs.map text.quoted) ++ "]"

def PyText.option (text : PyText) : Option String → String
  | some s => text.quoted s
  | none => "None"

def supportedFrameworks (text : PyText) (settings : DecisionSettings) : Except AdaptationError (List String) :=
  match settings.decisionSupportedFrameworks with
  | [] => settings.pluginFrameworks
  | configured => .ok (configured.map text.lower)

def sortedFrameworks (supported : List String) : List String := supported.dedup.mergeSort (fun a b => decide (a ≤ b))

/-! ## Hard constraints -/

structure ConstraintResult where
  compatibleStrategies : List AdaptationStrategy := []
  reason : String := ""
  forcedStrategy : Option AdaptationStrategy := none
  rejected : List (AdaptationStrategy × String) := []
deriving DecidableEq, Repr

def candidateStrategies : List AdaptationStrategy := [.fullRetraining, .fineTuning, .rollback, .noAction]

def forced (strategy : AdaptationStrategy) (reason : String) : ConstraintResult where
  forcedStrategy := some strategy
  reason := reason
  rejected := candidateStrategies.map fun s => (s, reason)

/-- What the narrowing has come to: the strategies that are left, and the notes and the reasons. -/
structure Narrowing where
  compatible : List AdaptationStrategy := candidateStrategies
  notes : List String := []
  rejected : List (AdaptationStrategy × String) := []

def Narrowing.ruleOut (n : Narrowing) (condition : Bool) (strategy : AdaptationStrategy) (why : String) : Narrowing :=
  if condition = true ∧ strategy ∈ n.compatible then
    { compatible := n.compatible.erase strategy, notes := n.notes ++ [why], rejected := n.rejected ++ [(strategy, why)] }
  else n

def DataVersionRef.rows : Option DataVersionRef → Int
  | some ref => ref.rowCount
  | none => 0

def DriftSummary.capability (caps : List (String × Bool)) (name : String) : Bool := (caps.lookup name).getD false

/-- The strategies the evidence leaves, each of the others with the reason it was ruled out for. -/
def narrow (text : PyText) (package : DecisionPackage) (settings : DecisionSettings) : Narrowing :=
  let caps := (package.driftSummary.map (·.capabilities)).getD []
  let llmAdapter := DriftSummary.capability caps "llm_adapter"
  let framework := package.framework.getD "None"
  let threshold := settings.decisionFullRetrainPsiThreshold
  let n : Narrowing := {}
  let n := n.ruleOut (threshold.le package.maxPsi) .fineTuning
    ("max_psi " ++ text.fixed3 package.maxPsi ++ " >= " ++ text.float threshold ++ " rules out fine-tuning")
  let n := n.ruleOut (!caps.isEmpty && !DriftSummary.capability caps "fine_tuning" && !llmAdapter) .fineTuning
    (framework ++ " has no fine-tuning engine and no LLM adapter is configured")
  let n := n.ruleOut (!caps.isEmpty && !DriftSummary.capability caps "full_retraining" && !llmAdapter) .fullRetraining
    (framework ++ " has no retraining engine and no LLM adapter is configured")
  if package.recentPerformance.isEmpty then n.ruleOut true .rollback "no recent performance data to justify a rollback"
  else n.ruleOut (!package.versionEvaluations.isEmpty && !package.versionEvaluations.any fun e => e.compatible && !e.isLive)
    .rollback "no compatible earlier version to roll back to"

def evaluateConstraints (text : PyText) (package : DecisionPackage) (settings : DecisionSettings) :
    Except AdaptationError ConstraintResult := do
  let supported ← supportedFrameworks text settings
  let driftedRows := DataVersionRef.rows package.driftedData
  if (package.framework.map text.lower).any (· ∈ supported) = false then
    return forced .noCompatibleStrategy ("framework " ++ text.option package.framework ++
      " has no adaptation engine (supported: " ++ text.list (sortedFrameworks supported) ++ ")")
  if driftedRows < settings.decisionMinDriftedRows then
    return forced .insufficientInformation ("only " ++ toString driftedRows ++ " drifted rows available, need >= " ++
      toString settings.decisionMinDriftedRows)
  if package.featureShifts.isEmpty then
    return forced .insufficientInformation "no comparable feature statistics to decide a strategy from"
  match package.driftSummary.filter (fun summary => !summary.sampleSufficient) with
  | some summary => return forced .insufficientInformation summary.sampleNote
  | none =>
    let n := narrow text package settings
    return { compatibleStrategies := n.compatible
             reason := if n.notes.isEmpty then "no additional hard constraints triggered" else "; ".intercalate n.notes
             rejected := n.rejected }

namespace Narrowing

variable {n : Narrowing} {condition : Bool} {strategy s : AdaptationStrategy} {why : String}

theorem keeps (h : s ∈ n.compatible) (hs : s ≠ strategy) : s ∈ (n.ruleOut condition strategy why).compatible := by
  unfold ruleOut
  split
  · exact (List.mem_erase_of_ne hs).mpr h
  · exact h

theorem only (h : s ∈ (n.ruleOut condition strategy why).compatible) : s ∈ n.compatible := by
  unfold ruleOut at h
  split at h
  · exact List.mem_of_mem_erase h
  · exact h

end Narrowing

/-- Keeping LIVE as it is is never ruled out. -/
theorem noAction_mem_narrow (text : PyText) (package : DecisionPackage) (settings : DecisionSettings) :
    .noAction ∈ (narrow text package settings).compatible := by
  have h : AdaptationStrategy.noAction ∈ ({} : Narrowing).compatible := by decide
  unfold narrow
  dsimp only
  split
  all_goals
    apply Narrowing.keeps _ (by decide)
    apply Narrowing.keeps _ (by decide)
    apply Narrowing.keeps _ (by decide)
    apply Narrowing.keeps h (by decide)

theorem narrow_candidates {text : PyText} {package : DecisionPackage} {settings : DecisionSettings} {s : AdaptationStrategy}
    (h : s ∈ (narrow text package settings).compatible) : s ∈ candidateStrategies := by
  unfold narrow at h
  dsimp only at h
  split at h
  all_goals exact Narrowing.only (Narrowing.only (Narrowing.only (Narrowing.only h)))

/-- The constraints force a strategy, with no other one left, or leave candidates, NO_ACTION among them. -/
theorem evaluateConstraints_cases {text : PyText} {package : DecisionPackage} {settings : DecisionSettings}
    {constraints : ConstraintResult} (h : evaluateConstraints text package settings = .ok constraints) :
    (∃ strategy, constraints.forcedStrategy = some strategy ∧ strategy ∉ candidateStrategies) ∨
      constraints.forcedStrategy = none ∧ .noAction ∈ constraints.compatibleStrategies ∧
        ∀ s ∈ constraints.compatibleStrategies, s ∈ candidateStrategies := by
  unfold evaluateConstraints at h
  obtain ⟨supported, -, h⟩ := bind_ok h
  simp only at h
  split at h
  · cases h
    exact .inl ⟨.noCompatibleStrategy, rfl, by decide⟩
  split at h
  · cases h
    exact .inl ⟨.insufficientInformation, rfl, by decide⟩
  split at h
  · cases h
    exact .inl ⟨.insufficientInformation, rfl, by decide⟩
  split at h
  · cases h
    exact .inl ⟨.insufficientInformation, rfl, by decide⟩
  · cases h
    exact .inr ⟨rfl, noAction_mem_narrow text package settings, fun s hs => narrow_candidates hs⟩

/-- They fail only where the plugins `MODEL_TYPES` names are not installed. -/
theorem evaluateConstraints_total (text : PyText) (package : DecisionPackage) {settings : DecisionSettings}
    {supported : List String} (h : supportedFrameworks text settings = .ok supported) :
    ∃ constraints, evaluateConstraints text package settings = .ok constraints := by
  unfold evaluateConstraints
  simp only [h, bind, Except.bind]
  split
  · exact ⟨_, rfl⟩
  split
  · exact ⟨_, rfl⟩
  split
  · exact ⟨_, rfl⟩
  split
  all_goals exact ⟨_, rfl⟩

/-! ## The rules that decide without an LLM -/

def selectStrategyFallback (compatible : List AdaptationStrategy) : AdaptationStrategy × String :=
  if .fineTuning ∈ compatible then (.fineTuning, "fallback rule: fine-tuning is compatible and least costly")
  else if .fullRetraining ∈ compatible then
    (.fullRetraining, "fallback rule: fine-tuning ruled out, full retraining is compatible")
  else if .rollback ∈ compatible then (.rollback, "fallback rule: only rollback is compatible")
  else (.noAction, "fallback rule: no adaptation strategy is compatible")

/-- The fallback stays inside the set it is given, unless that lacks even NO_ACTION. -/
theorem fallback_mem {compatible : List AdaptationStrategy} (h : .noAction ∈ compatible) :
    (selectStrategyFallback compatible).1 ∈ compatible := by
  unfold selectStrategyFallback
  split
  · assumption
  split
  · assumption
  split
  · assumption
  · exact h

def evidenceConfidence (package : DecisionPackage) (settings : DecisionSettings) : Option Rat :=
  package.driftSummary.map fun summary =>
    let sample : Rat := min 1 (summary.driftedRows / settings.reuseConfidenceRows)
    let significance : Rat :=
      if summary.significantFeatures ≠ [] then 1 else if summary.affectedFeatures ≠ [] then 7 / 10 else 4 / 10
    max (1 / 100) (roundTo (sample * significance) 4)

theorem roundTo_le_one {q : Rat} (h : q ≤ 1) (ndigits : Nat) : roundTo q ndigits ≤ 1 := by
  have hpos : (0 : Rat) < (10 ^ ndigits : Nat) := by positivity
  have hscaled : q * (10 ^ ndigits : Nat) ≤ ((10 ^ ndigits : Nat) : Int) := by
    calc q * (10 ^ ndigits : Nat) ≤ 1 * (10 ^ ndigits : Nat) := by gcongr
      _ = ((10 ^ ndigits : Nat) : Int) := by simp
  have hfloor : ((q * (10 ^ ndigits : Nat)).floor : Rat) ≤ q * (10 ^ ndigits : Nat) := Rat.floor_le _
  unfold roundTo
  dsimp only
  rw [div_le_one hpos]
  split
  · exact_mod_cast hfloor.trans hscaled
  · rename_i hrest
    -- something is left above the floor, so the next integer is still within the scale
    have hlt : ((q * (10 ^ ndigits : Nat)).floor : Rat) < q * (10 ^ ndigits : Nat) := by
      push Not at hrest
      have := hrest.1
      linarith
    have hnext : (q * (10 ^ ndigits : Nat)).floor + 1 ≤ ((10 ^ ndigits : Nat) : Int) := by
      have := hlt.trans_le hscaled
      exact_mod_cast this
    exact_mod_cast hnext

theorem evidenceConfidence_le_one {package : DecisionPackage} {settings : DecisionSettings} {e : Rat}
    (h : evidenceConfidence package settings = some e) : 0 ≤ e ∧ e ≤ 1 := by
  obtain ⟨summary, -, rfl⟩ := Option.map_eq_some_iff.mp h
  dsimp only
  refine ⟨le_max_of_le_left (by norm_num), max_le (by norm_num) (roundTo_le_one ?_ 4)⟩
  have hsample : min (1 : Rat) (summary.driftedRows / settings.reuseConfidenceRows) ≤ 1 := min_le_left _ _
  split
  · linarith
  split
  · linarith
  · linarith

end OranAdapt
