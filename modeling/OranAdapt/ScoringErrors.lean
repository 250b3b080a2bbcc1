import OranAdapt.FrameworkErrors
import OranAdapt.Scoring

/-!
# What scoring raises

A model that does not predict fails its validation. Behind its predictions
nothing is caught: scoring returns, or it fails the validation, where each
library call that the metrics of the task make returns.
-/

namespace OranAdapt.Scoring

open Declared

section
variable {α ε : Type} {lib : Libraries α ε}

theorem returns_definedIf {p : Prop} [Decidable p] (name : String) {value : Except String PyFloat} :
    Returns (definedIf p name value) ↔ (p → Returns value) := by
  rw [definedIf, returns_if, returns_map]

/-! ## The calls of each task -/

variable (lib) in
/-- The ranking metrics of two classes are computed, where there are scores. -/
def RankingTaken (truth : α) (score : Option α) (pos : Option ε) : Prop :=
  ∀ yScore, score = some yScore → ∀ label, pos = some label → ∃ classes, lib.unique truth = .ok classes ∧
    (classes.length = 2 →
    ∃ positives, lib.equalTo truth label = .ok positives ∧ Returns (lib.rocAucScore positives yScore) ∧
      Returns (lib.averagePrecisionScore positives yScore))

variable (lib) in
/-- The labels are found, and each metric of classes is computed. -/
def ClassificationTaken (truth pred : α) (score : Option α) : Prop :=
  ∃ both, lib.concatenate truth pred = .ok both ∧ ∃ labels, lib.unique both = .ok labels ∧
    Returns (lib.accuracyScore truth pred) ∧
    ∃ pos, positive labels = .ok pos ∧ Returns (lib.precisionScore (averageOn pos) truth pred) ∧
      Returns (lib.recallScore (averageOn pos) truth pred) ∧ Returns (lib.f1Score (averageOn pos) truth pred) ∧
        RankingTaken lib truth score pos

variable (lib) in
def RegressionTaken (truth pred : α) : Prop :=
  ∃ mse, lib.meanSquaredError truth pred = .ok mse ∧ Returns (lib.meanAbsoluteError truth pred) ∧
    Returns (lib.sqrt mse) ∧
    ∃ n, lib.len truth = .ok n ∧ (2 ≤ n ∧ (PyFloat.fin 0).lt (lib.var truth) = true →
      Returns (lib.r2Score truth pred)) ∧
      (lib.anyZero truth = false → Returns (lib.meanAbsolutePercentageError truth pred))

variable (lib) in
/-- The clusters are counted, and scored where there are two or more of them and fewer than rows. -/
def ClusteringTaken (X : Columns α) (pred : α) : Prop :=
  ∃ clusters, lib.unique pred = .ok clusters ∧
    (¬ clusters.length < 2 → ∃ n, lib.len pred = .ok n ∧
      (¬ n ≤ clusters.length → ∃ data, lib.matrix X = .ok data ∧ Returns (lib.silhouetteScore data pred) ∧
        Returns (lib.daviesBouldinScore data pred)))

variable (lib) in
/-- The flags are found, and each metric of flags is computed. -/
def AnomalyTaken [DecidableEq ε] (truth pred : α) (score : Option α) : Prop :=
  ∃ actual, anomalyFlags lib truth = .ok actual ∧ ∃ flags, anomalyFlags lib pred = .ok flags ∧
    Returns (lib.precisionScore .standard actual flags) ∧ Returns (lib.recallScore .standard actual flags) ∧
      Returns (lib.f1Score .standard actual flags) ∧ ∀ yScore, score = some yScore → ∃ n, lib.len actual = .ok n ∧
        (0 < lib.count actual ∧ lib.count actual < n → Returns (lib.averagePrecisionScore actual yScore))

theorem returns_ranking {truth : α} {score : Option α} {pos : Option ε} :
    Returns (ranking lib truth score pos) ↔ RankingTaken lib truth score pos := by
  unfold ranking RankingTaken
  cases score with
  | none => simp
  | some yScore =>
    cases pos with
    | none => simp
    | some label =>
      simp only [Option.some.injEq, forall_eq']
      rw [returns_bind]
      apply exists_congr
      intro classes
      apply and_congr_right'
      rw [returns_if, returns_bind]
      apply imp_congr_right
      intro _
      apply exists_congr
      intro positives
      apply and_congr_right'
      apply returns_bind_const
      intro rocAuc
      rw [returns_bind]
      exact exists_congr fun prAuc => and_iff_left (returns_ok _)

theorem returns_classification {truth pred : α} {score : Option α} :
    Returns (classification lib truth pred score) ↔ ClassificationTaken lib truth pred score := by
  unfold classification ClassificationTaken
  rw [returns_bind]
  apply exists_congr
  intro both
  apply and_congr_right'
  rw [returns_bind]
  apply exists_congr
  intro labels
  apply and_congr_right'
  apply returns_bind_const
  intro accuracy
  rw [returns_bind]
  apply exists_congr
  intro pos
  apply and_congr_right'
  apply returns_bind_const
  intro precision
  apply returns_bind_const
  intro recallScore
  apply returns_bind_const
  intro f1
  rw [← returns_ranking, returns_bind]
  exact exists_congr fun ranked => and_iff_left (returns_ok _)

theorem returns_regression {truth pred : α} : Returns (regression lib truth pred) ↔ RegressionTaken lib truth pred := by
  unfold regression RegressionTaken
  rw [returns_bind]
  apply exists_congr
  intro mse
  apply and_congr_right'
  apply returns_bind_const
  intro mae
  apply returns_bind_const
  intro rmse
  rw [returns_bind]
  apply exists_congr
  intro n
  apply and_congr_right'
  rw [← returns_definedIf "r2", ← returns_definedIf "mape"]
  apply returns_bind_const
  intro r2
  rw [returns_bind]
  exact exists_congr fun mape => and_iff_left (returns_ok _)

theorem returns_forecasting {truth pred : α} (season : Nat) :
    Returns (forecasting lib truth pred none season) ↔ RegressionTaken lib truth pred ∧
      Returns (lib.symmetricError truth pred) := by
  rw [← returns_regression]
  apply returns_bind_const
  intro scores
  rw [returns_bind]
  exact exists_congr fun smape => and_iff_left (returns_ok _)

theorem returns_clustering {X : Columns α} {pred : α} : Returns (clustering lib (some X) pred) ↔
    ClusteringTaken lib X pred := by
  unfold clustering ClusteringTaken
  rw [returns_bind]
  apply exists_congr
  intro clusters
  apply and_congr_right'
  by_cases hfew : clusters.length < 2
  · simp [hfew]
  · rw [if_neg hfew, returns_bind, forall_prop_of_true hfew]
    apply exists_congr
    intro n
    apply and_congr_right'
    by_cases hmany : n ≤ clusters.length
    · simp [hmany]
    · rw [if_neg hmany, returns_bind, forall_prop_of_true hmany]
      apply exists_congr
      intro data
      apply and_congr_right'
      apply returns_bind_const
      intro silhouette
      rw [returns_bind]
      exact exists_congr fun daviesBouldin => and_iff_left (returns_ok _)

theorem returns_anomaly [DecidableEq ε] {truth pred : α} {score : Option α} :
    Returns (anomaly lib truth pred score) ↔ AnomalyTaken lib truth pred score := by
  unfold anomaly AnomalyTaken
  rw [returns_bind]
  apply exists_congr
  intro actual
  apply and_congr_right'
  rw [returns_bind]
  apply exists_congr
  intro flags
  apply and_congr_right'
  apply returns_bind_const
  intro precision
  apply returns_bind_const
  intro recallScore
  apply returns_bind_const
  intro f1
  cases score with
  | none => simp
  | some yScore =>
    simp only [Option.some.injEq, forall_eq']
    rw [returns_bind]
    apply exists_congr
    intro n
    apply and_congr_right'
    rw [← returns_definedIf "pr_auc", returns_bind]
    exact exists_congr fun prAuc => and_iff_left (returns_ok _)

/-! ## Predictions that are scored -/

variable (lib) in
/-- Evidently takes the predictions and computes its metric. -/
def ReportTaken (truth pred : α) (estimatorType : String) : Prop :=
  ∃ frame, lib.pair truth pred = .ok frame ∧
    if estimatorType = "classifier" then
      ∃ labels, lib.pdUnique frame = .ok labels ∧ ∃ pos, positive labels = .ok pos ∧
        Returns (lib.report (reportTask pos) frame)
    else Returns (lib.report .regression frame)

variable (lib) in
/-- Each library call that the metrics of the task make returns. -/
def MetricsTaken [DecidableEq ε] (task : TaskType) (X : Columns α) (truth pred : α) (score : Option α) : Prop :=
  match task with
  | .classification => ClassificationTaken lib truth pred score
  | .regression => ∃ actual, lib.asFloat truth = .ok actual ∧ ∃ values, lib.asFloat pred = .ok values ∧
      RegressionTaken lib actual values
  | .forecasting =>
    ∃ actual, lib.asFloat truth = .ok actual ∧ ∃ values, lib.asFloat pred = .ok values ∧
      RegressionTaken lib actual values ∧ Returns (lib.symmetricError actual values)
  | .clustering => ClusteringTaken lib X pred
  | .anomalyDetection => AnomalyTaken lib truth pred score

variable (lib) in
/-- The libraries take the predictions for the task. -/
def Taken [DecidableEq ε] (task : TaskType) (X : Columns α) (truth pred : α) (score : Option α)
    (estimatorType : String) : Prop :=
  MetricsTaken lib task X truth pred score ∧
    (task ∈ [TaskType.classification, .regression, .forecasting] → ReportTaken lib truth pred estimatorType)

theorem returns_evidentlyScore {truth pred : α} {estimatorType : String} :
    Returns (evidentlyScore lib truth pred estimatorType) ↔ ReportTaken lib truth pred estimatorType := by
  unfold evidentlyScore ReportTaken
  rw [returns_bind]
  apply exists_congr
  intro frame
  apply and_congr_right'
  by_cases hclassifier : estimatorType = "classifier"
  · rw [if_pos hclassifier, if_pos hclassifier, returns_bind]
    apply exists_congr
    intro labels
    apply and_congr_right'
    rw [returns_bind]
    apply exists_congr
    intro pos
    apply and_congr_right'
    exact returns_map
  · rw [if_neg hclassifier, if_neg hclassifier]
    exact returns_map

theorem keeps_python {β : Type} {x : Except String β} : Keeps Framework (x.mapError pythonError) ↔ Returns x := by
  cases x with
  | ok b => simp [Except.mapError]
  | error name => simpa [Except.mapError] using not_framework_python name

theorem mapError_ok {β δ : Type} {x : Except String β} {f : String → δ}
    {b : β} : x.mapError f = .ok b ↔ x = .ok b := by
  cases x <;> simp [Except.mapError]

theorem keeps_primaryFirst {task : TaskType} {nRows : Nat}
    {scores : Scores} : Keeps Framework (primaryFirst task nRows scores) := by
  unfold primaryFirst
  split
  · exact keeps_error.mpr (framework_other ..)
  · exact keeps_ok _

theorem returns_asFloats {truth pred : α} {metrics : α → α → Except String Scores} :
    Returns (do
      let actual ← lib.asFloat truth
      let values ← lib.asFloat pred
      metrics actual values) ↔
      ∃ actual, lib.asFloat truth = .ok actual ∧ ∃ values, lib.asFloat pred = .ok values ∧
        Returns (metrics actual values) := by
  rw [returns_bind]
  apply exists_congr
  intro actual
  apply and_congr_right'
  exact returns_bind

theorem returns_evidently {task : TaskType} {truth pred : α} {estimatorType : String} {scores : Scores} :
    Returns (evidently lib task (some truth) pred estimatorType scores) ↔
      (task ∈ [TaskType.classification, .regression, .forecasting] → ReportTaken lib truth pred estimatorType) := by
  rw [← returns_evidentlyScore]
  cases task with
  | classification => simp [evidently, returns_map]
  | regression => simp [evidently, returns_map]
  | forecasting => simp [evidently, returns_map]
  | clustering => simp [evidently]
  | anomalyDetection => simp [evidently]

variable [DecidableEq ε]

theorem returns_computeMetrics {task : TaskType} {X : Columns α} {truth pred : α} {score : Option α} :
    Returns (computeMetrics lib task (some truth) pred score (some X) none 1) ↔
      MetricsTaken lib task X truth pred score := by
  unfold computeMetrics
  rw [returns_map]
  cases task with
  | classification => exact returns_classification
  | regression =>
    simp only [MetricsTaken, ← returns_regression]
    exact returns_asFloats
  | forecasting =>
    simp only [MetricsTaken, ← returns_forecasting 1]
    exact returns_asFloats
  | clustering => exact returns_clustering
  | anomalyDetection => exact returns_anomaly

theorem keeps_scorePredictions {task : TaskType} {X : Columns α} {nRows : Nat} {truth pred : α}
    {score : Option α} {estimatorType : String} :
    Keeps Framework (scorePredictions lib task X nRows (some truth) pred score estimatorType none) ↔
      Taken lib task X truth pred score estimatorType := by
  rw [scorePredictions, keeps_bind, keeps_python, Taken, ← returns_computeMetrics]
  simp only [mapError_ok]
  apply and_congr_right
  intro hreturns
  obtain ⟨scores, hscores⟩ := hreturns
  rw [hscores]
  simp only [Except.ok.injEq, forall_eq']
  rw [keeps_bind, keeps_python, returns_evidently]
  exact and_iff_left fun _ _ => keeps_primaryFirst

end

/-! ## Models that are evaluated -/

section
variable {α ε μ : Type} [DecidableEq ε] {lib : Libraries α ε} {t : ModelTypes α ε μ}
  {model : μ} {X : Columns α} {truth : α}
  {framework estimatorType : String} {taskType : Option String} {nRows : Nat}

omit [DecidableEq ε] in
theorem keeps_require : Keeps Framework (t.require model framework) := keeps_mapError fun _ => framework_other ..

omit [DecidableEq ε] in
theorem keeps_taskOf : Keeps Framework (taskOf lib.repr taskType estimatorType) := keeps_mapError fun _ => framework_other ..

theorem keeps_predict {task : TaskType} :
    Keeps Framework (predict lib t model X (some truth) framework estimatorType task) := by
  rw [predict, keeps_bind]
  refine ⟨keeps_require, ?_⟩
  intro inspection _
  exact keeps_mapError fun _ => framework_other ..

variable (lib t model X truth framework estimatorType taskType) in
def PredictionsTaken : Prop :=
  ∀ task, resolveTask lib.repr taskType estimatorType = .ok task →
    ∀ predictions score, predict lib t model X (some truth) framework estimatorType task = .ok (predictions, score) →
      Taken lib task X truth predictions score estimatorType

theorem keeps_evaluateModel (nRows : Nat) :
    Keeps Framework (evaluateModel lib t model X nRows (some truth) framework estimatorType taskType none) ↔
      PredictionsTaken lib t model X truth framework estimatorType taskType := by
  rw [evaluateModel, keeps_bind, and_iff_right keeps_taskOf, taskOf]
  simp only [mapError_ok]
  apply forall₂_congr
  intro task _
  rw [keeps_bind, and_iff_right keeps_predict]
  simp only [Prod.forall, keeps_scorePredictions]

theorem keyFirst_of_lookup {key : String} {scores : Scores} {v : PyFloat} (h : scores.lookup key = some v) :
    keyFirst key scores = (key, v) :: scores.filter (·.1 ≠ key) := by
  rw [keyFirst, h]

theorem evaluateModel_ok {scores : Scores}
    (h : evaluateModel lib t model X nRows (some truth) framework estimatorType taskType none = .ok scores) :
    ∃ task value rest, scores = (primaryMetric task, value) :: rest := by
  obtain ⟨task, _, h⟩ := bind_ok h
  obtain ⟨predicted, _, h⟩ := bind_ok h
  obtain ⟨metrics, _, h⟩ := bind_ok h
  obtain ⟨all, _, h⟩ := bind_ok h
  unfold primaryFirst at h
  split at h
  · cases h
  · rename_i value hvalue
    cases h
    exact ⟨task, value, _, keyFirst_of_lookup hvalue⟩

end

end OranAdapt.Scoring
