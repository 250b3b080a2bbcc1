import OranAdapt.Metrics
import OranAdapt.PyNumbers
import OranAdapt.PyStr

/-!
# How a model is scored

`adaptation.model_types`, `validation.evaluate` and `validation.metrics`: a model
is described and predicts through its plugin, and its predictions are scored by
the metrics of its task. Arrays, labels and models are left open. What numpy,
pandas, scikit-learn and Evidently make of them is given, with the name of what
each call raises.
-/

namespace OranAdapt.Scoring

/-! ## Tasks -/

inductive TaskType where
  | classification | regression | forecasting | clustering | anomalyDetection
deriving DecidableEq, Repr

def TaskType.lowered : TaskType → String
  | classification => "classification"
  | regression => "regression"
  | forecasting => "forecasting"
  | clustering => "clustering"
  | anomalyDetection => "anomaly_detection"

def primaryMetric : TaskType → String
  | .classification => "accuracy"
  | .regression | .forecasting => "rmse"
  | .clustering => "silhouette"
  | .anomalyDetection => "f1"

def aliases : List (String × TaskType) :=
  [("classification", .classification), ("classifier", .classification), ("regression", .regression),
    ("regressor", .regression),
    ("forecasting", .forecasting), ("forecast", .forecasting), ("time_series", .forecasting), ("timeseries", .forecasting),
    ("clustering", .clustering), ("clusterer", .clustering), ("anomaly_detection", .anomalyDetection),
    ("anomaly", .anomalyDetection),
    ("outlier_detector", .anomalyDetection), ("outlier_detection", .anomalyDetection)]

def estimatorForTask : TaskType → String
  | .classification => "classifier"
  | .regression | .forecasting => "regressor"
  | .clustering => "clusterer"
  | .anomalyDetection => "outlier_detector"

/-- `text.strip().lower()` with underscores. The one letter beyond ASCII that lowers to a single
one of ASCII is the sign for kelvin, and no alias has a `k`. -/
def spelled (text : String) : String :=
  String.ofList ((PyStr.strip text.toList).map fun c => if c = '-' ∨ c = ' ' then '_' else c.toLower)

/-- `resolve_task`: the text of the ValueError, where it raises one. -/
def resolveTask (repr : String → String) (taskType : Option String) (estimatorType : String) : Except String TaskType :=
  let inferred : Except String TaskType :=
    match aliases.lookup estimatorType with
    | some task => .ok task
    | none => .error ("cannot score an estimator_type of " ++ repr estimatorType)
  match aliases.lookup (spelled (taskType.getD "")) with
  | some declared => if estimatorForTask declared = estimatorType then .ok declared else inferred
  | none => inferred

def validationFailed (message : String) (context : Context) : AdaptationError :=
  ⟨.other "VALIDATION_FAILED", message, context⟩

def taskOf (repr : String → String) (taskType : Option String) (estimatorType : String) : Except AdaptationError TaskType :=
  (resolveTask repr taskType estimatorType).mapError fun text => validationFailed text []

/-! ## Metrics -/

abbrev Columns (α : Type) := List (String × α)

/-- The metrics of a task by name, in their order. -/
abbrev Scores := List (String × PyFloat)

inductive Average (ε : Type) where
  /-- with the label 1 as the positive one -/
  | standard
  | binary (pos : ε)
  | weighted

/-- What Evidently is told of two columns. -/
inductive ReportTask (ε : Type) where
  | binary (pos : ε)
  | multiclass
  | regression

/-- The libraries, over arrays and their labels. `.error` has the name of the exception. -/
structure Libraries (α ε : Type) where
  /-- `repr` of a text -/
  repr : String → String
  concatenate : α → α → Except String α
  /-- `np.unique(a)` -/
  unique : α → Except String (List ε)
  /-- `pd.unique(values)` of all the values -/
  pdUnique : α → Except String (List ε)
  len : α → Except String Nat
  asFloat : α → Except String α
  /-- `a == label` -/
  equalTo : α → ε → Except String α
  isBool : α → Bool
  /-- the labels 1 and -1 -/
  one : ε
  minusOne : ε
  /-- `flags.sum()` -/
  count : α → Nat
  var : α → PyFloat
  anyZero : α → Bool
  sqrt : PyFloat → Except String PyFloat
  div : PyFloat → PyFloat → PyFloat
  /-- the mean of `2 |p - t| / (|t| + |p|)` where that is defined for a row -/
  symmetricError : α → α → Except String (Option PyFloat)
  /-- the mean of the differences a season apart, of a series that is longer than one -/
  naiveError : α → Nat → Except String (Option PyFloat)
  /-- `np.asarray(X, dtype=float)` -/
  matrix : Columns α → Except String α
  accuracyScore : α → α → Except String PyFloat
  precisionScore : Average ε → α → α → Except String PyFloat
  recallScore : Average ε → α → α → Except String PyFloat
  f1Score : Average ε → α → α → Except String PyFloat
  rocAucScore : α → α → Except String PyFloat
  averagePrecisionScore : α → α → Except String PyFloat
  meanSquaredError : α → α → Except String PyFloat
  meanAbsoluteError : α → α → Except String PyFloat
  r2Score : α → α → Except String PyFloat
  meanAbsolutePercentageError : α → α → Except String PyFloat
  silhouetteScore : α → α → Except String PyFloat
  daviesBouldinScore : α → α → Except String PyFloat
  /-- `pd.DataFrame({"target": y, "prediction": predictions})` -/
  pair : α → α → Except String α
  /-- the value of the one metric of an Evidently report -/
  report : ReportTask ε → α → Except String PyFloat

section
variable {α ε : Type} [DecidableEq ε] (lib : Libraries α ε)

def lastLabel (labels : List ε) : Except String ε :=
  match labels.getLast? with
  | some label => .ok label
  | none => .error "IndexError"

def positive (labels : List ε) : Except String (Option ε) :=
  if labels.length ≤ 2 then (lastLabel labels).map some else .ok none

def averageOn (pos : Option ε) : Average ε :=
  match pos with
  | some pos => .binary pos
  | none => .weighted

def ranking (yTrue : α) (yScore : Option α) (pos : Option ε) : Except String Scores :=
  match yScore, pos with
  | some yScore, some pos => do
    let classes ← lib.unique yTrue
    if classes.length = 2 then do
      let positives ← lib.equalTo yTrue pos
      let rocAuc ← lib.rocAucScore positives yScore
      let prAuc ← lib.averagePrecisionScore positives yScore
      .ok [("roc_auc", rocAuc), ("pr_auc", prAuc)]
    else .ok []
  | _, _ => .ok []

def classification (yTrue yPred : α) (yScore : Option α) : Except String Scores := do
  let both ← lib.concatenate yTrue yPred
  let labels ← lib.unique both
  let accuracy ← lib.accuracyScore yTrue yPred
  let pos ← positive labels
  let precision ← lib.precisionScore (averageOn pos) yTrue yPred
  let recallScore ← lib.recallScore (averageOn pos) yTrue yPred
  let f1 ← lib.f1Score (averageOn pos) yTrue yPred
  let ranked ← ranking lib yTrue yScore pos
  .ok ([("accuracy", accuracy), ("precision", precision), ("recall", recallScore), ("f1", f1)] ++ ranked)

def definedIf (p : Prop) [Decidable p] (name : String) (value : Except String PyFloat) : Except String Scores :=
  if p then value.map fun v => [(name, v)] else .ok []

def regression (yTrue yPred : α) : Except String Scores := do
  let mse ← lib.meanSquaredError yTrue yPred
  let mae ← lib.meanAbsoluteError yTrue yPred
  let rmse ← lib.sqrt mse
  let n ← lib.len yTrue
  let r2 ← definedIf (2 ≤ n ∧ (PyFloat.fin 0).lt (lib.var yTrue) = true) "r2" (lib.r2Score yTrue yPred)
  let mape ← definedIf (lib.anyZero yTrue = false) "mape" (lib.meanAbsolutePercentageError yTrue yPred)
  .ok ([("mae", mae), ("mse", mse), ("rmse", rmse)] ++ r2 ++ mape)

def forecasting (yTrue yPred : α) (yTrain : Option α) (season : Nat) : Except String Scores := do
  let scores ← regression lib yTrue yPred
  let out := scores.filter fun p => p.1 ∈ ["mae", "rmse", "mape"]
  let smape ← lib.symmetricError yTrue yPred
  let out := out ++ (smape.map fun v => ("smape", v)).toList
  match yTrain with
  | none => .ok out
  | some yTrain => do
    let naive ← lib.naiveError yTrain season
    let mase := (naive.filter fun naive => (PyFloat.fin 0).lt naive).bind fun naive =>
      (out.lookup "mae").map fun mae => ("mase", lib.div mae naive)
    .ok (out ++ mase.toList)

def clustering (X : Option (Columns α)) (labels : α) : Except String Scores :=
  match X with
  | none => .ok []
  | some X => do
    let clusters ← lib.unique labels
    -- with fewer than two the length is not asked for
    if clusters.length < 2 then .ok []
    else do
      let n ← lib.len labels
      if n ≤ clusters.length then .ok []
      else do
        let data ← lib.matrix X
        let silhouette ← lib.silhouetteScore data labels
        let daviesBouldin ← lib.daviesBouldinScore data labels
        .ok [("silhouette", silhouette), ("davies_bouldin", daviesBouldin)]

def anomalyFlags (arr : α) : Except String α :=
  if lib.isBool arr then .ok arr
  else do
    let uniq ← lib.unique arr
    lib.equalTo arr (if ∀ v ∈ uniq, v = lib.minusOne ∨ v = lib.one then lib.minusOne else lib.one)

def anomaly (yTrue yPred : α) (yScore : Option α) : Except String Scores := do
  let truth ← anomalyFlags lib yTrue
  let pred ← anomalyFlags lib yPred
  let precision ← lib.precisionScore .standard truth pred
  let recallScore ← lib.recallScore .standard truth pred
  let f1 ← lib.f1Score .standard truth pred
  let out := [("precision", precision), ("recall", recallScore), ("f1", f1)]
  match yScore with
  | none => .ok out
  | some yScore => do
    let n ← lib.len truth
    let prAuc ← definedIf (0 < lib.count truth ∧ lib.count truth < n) "pr_auc" (lib.averagePrecisionScore truth yScore)
    .ok (out ++ prAuc)

def finite (values : Scores) : Scores :=
  values.filter fun p => match p.2 with
    | .fin _ => true
    | _ => false

def keyFirst (key : String) (scores : Scores) : Scores :=
  match scores.lookup key with
  | some v => (key, v) :: scores.filter (·.1 ≠ key)
  | none => scores

def computeMetrics (task : TaskType) (yTrue : Option α) (yPred : α) (yScore : Option α)
    (X : Option (Columns α)) (yTrain : Option α)
    (season : Nat) : Except String Scores :=
  (match task, yTrue with
    | .clustering, _ => clustering lib X yPred
    | _, none => .ok []
    | .classification, some truth => classification lib truth yPred yScore
    | .regression, some truth => do
      let truth ← lib.asFloat truth
      let pred ← lib.asFloat yPred
      regression lib truth pred
    | .forecasting, some truth => do
      let truth ← lib.asFloat truth
      let pred ← lib.asFloat yPred
      forecasting lib truth pred yTrain season
    | .anomalyDetection, some truth => anomaly lib truth yPred yScore).map fun out =>
      keyFirst (primaryMetric task) (finite out)

/-- Two classes are binary to Evidently, with a positive label that exists. -/
def reportTask (pos : Option ε) : ReportTask ε :=
  match pos with
  | some pos => .binary pos
  | none => .multiclass

/-- `_evidently_score`: the name of the metric and its value. -/
def evidentlyScore (y predictions : α) (estimatorType : String) : Except String (String × PyFloat) := do
  let frame ← lib.pair y predictions
  if estimatorType = "classifier" then do
    let labels ← lib.pdUnique frame
    let pos ← positive labels
    (lib.report (reportTask pos) frame).map fun v => ("accuracy", v)
  else (lib.report .regression frame).map fun v => ("rmse", v)

/-- The items of a dict with one more, or with another value for its key. -/
def withScore (scores : Scores) (score : String × PyFloat) : Scores :=
  if (scores.lookup score.1).isSome then scores.map fun p => if p.1 = score.1 then score else p else scores ++ [score]

/-- Evidently's value wins for the metric it computes. -/
def evidently (task : TaskType) (y : Option α) (predictions : α) (estimatorType : String) (scores : Scores) :
    Except String Scores :=
  match task, y with
  | .classification, some y | .regression, some y | .forecasting, some y =>
    (evidentlyScore lib y predictions estimatorType).map (withScore scores)
  -- no column is made of `np.asarray(None)`
  | .classification, none | .regression, none | .forecasting, none => .error "ValueError"
  | _, _ => .ok scores

def primaryFirst (task : TaskType) (nRows : Nat) (scores : Scores) : Except AdaptationError Scores :=
  match scores.lookup (primaryMetric task) with
  | none =>
    .error (validationFailed (primaryMetric task ++ " is undefined for this " ++ task.lowered ++ " model on the given data")
      [("n_rows", .nat nRows)])
  | some _ => .ok (keyFirst (primaryMetric task) scores)

def scorePredictions (task : TaskType) (X : Columns α) (nRows : Nat) (y : Option α) (predictions : α) (score : Option α)
    (estimatorType : String) (yTrain : Option α) : Except AdaptationError Scores := do
  let scores ← (computeMetrics lib task y predictions score (some X) yTrain 1).mapError pythonError
  let scores ← (evidently lib task y predictions estimatorType scores).mapError pythonError
  primaryFirst task nRows scores

end

/-! ## Models -/

structure ModelInspection where
  estimatorType : String
  featureNamesIn : Option (List String)
  modelType : Option String
deriving DecidableEq, Repr

/-- A model type plugin. `.error` has the text of the exception. -/
structure ModelTypePort (α μ : Type) where
  frameworks : List String
  accepts : μ → String → Except String Bool
  inspect : μ → String → Except String ModelInspection
  predict : μ → Columns α → ModelInspection → Except String α

/-- The plugins in the order they are tried, and what a model itself is asked for. -/
structure ModelTypes (α ε μ : Type) where
  types : List (String × ModelTypePort α μ)
  lower : String → String
  repr : String → String
  /-- `type(model).__name__` -/
  className : μ → String
  hasPredictProba : μ → Bool
  classes : μ → List ε
  /-- `model.predict_proba(X)[:, 1]` -/
  predictProba : μ → Columns α → Except String α
  hasDecisionFunction : μ → Bool
  /-- `-np.asarray(model.decision_function(X))` -/
  decisionFunction : μ → Columns α → Except String α

namespace ModelTypes

variable {α ε μ : Type} (t : ModelTypes α ε μ) (model : μ) (framework : String)

def accepted (port : ModelTypePort α μ) : Bool :=
  match port.accepts model (t.lower framework) with
  | .ok answer => answer
  | .error _ => false

def resolve : Except String (String × ModelTypePort α μ) :=
  let serving := t.types.filter fun p => t.lower framework ∈ p.2.frameworks.map t.lower
  if serving = [] then .error ("no installed model type plugin serves framework " ++ t.repr framework)
  else match serving.find? fun p => t.accepted model framework p.2 with
    | some p => .ok p
    | none =>
      .error (t.className model ++ " is not a kind of " ++ framework ++ " model the installed plugins handle (tried: " ++
        ", ".intercalate (serving.map Prod.fst) ++ ")")

/-- `inspect`: what a model is, or the reason why no plugin can say. -/
def inspect : Except String ModelInspection :=
  match t.resolve model framework with
  | .error reason => .error reason
  | .ok (name, port) =>
    match port.inspect model (t.lower framework) with
    | .ok inspection => .ok { inspection with modelType := some name }
    | .error text => .error ("model type " ++ t.repr name ++ " could not describe the model: " ++ text)

/-- `require`. Of the plugins in its context the names are kept. -/
def require : Except AdaptationError ModelInspection :=
  (t.inspect model framework).mapError fun reason =>
    ⟨.other "UNSUPPORTED_MODEL_TYPE", reason, [("kind", .str "unsupported_model_type"), ("framework", .str framework),
      ("model_class", .str (t.className model)), ("installed", .strs (t.types.map Prod.fst))]⟩

def predict (X : Columns α) (inspection : ModelInspection) : Except String α :=
  match inspection.modelType with
  | none => .error "model type None is not installed"
  | some name =>
    match t.types.lookup name with
    | none => .error ("model type " ++ t.repr name ++ " is not installed")
    | some port => port.predict model X inspection

end ModelTypes

section
variable {α ε μ : Type} [DecidableEq ε] (lib : Libraries α ε) (t : ModelTypes α ε μ) (model : μ) (X : Columns α)

def scoresOf (y : α) (task : TaskType) : Except String (Option α) :=
  if task = .classification ∧ t.hasPredictProba model = true ∧ (t.classes model).length = 2 then do
    let labels ← lib.pdUnique y
    if ∀ v ∈ labels, v ∈ t.classes model then (t.predictProba model X).map some else .ok none
  else if task = .anomalyDetection ∧ t.hasDecisionFunction model = true then (t.decisionFunction model X).map some
  else .ok none

def predicted (y : Option α) (task : TaskType) (inspection : ModelInspection) : Except String (α × Option α) := do
  let predictions ← t.predict model X inspection
  let score ← match y with
    | some y => scoresOf lib t model X y task
    | none => .ok none
  .ok (predictions, score)

def predict (y : Option α) (framework estimatorType : String)
    (task : TaskType) : Except AdaptationError (α × Option α) := do
  let inspection ← t.require model framework
  (predicted lib t model X y task { inspection with estimatorType }).mapError fun text =>
    validationFailed ("model failed to produce predictions on the validation set: " ++ t.className model)
      [("cause", .str text)]

def evaluateModel (nRows : Nat) (y : Option α) (framework estimatorType : String)
    (taskType : Option String) (yTrain : Option α) :
    Except AdaptationError Scores := do
  let task ← taskOf lib.repr taskType estimatorType
  let (predictions, score) ← predict lib t model X y framework estimatorType task
  scorePredictions lib task X nRows y predictions score estimatorType yTrain

end

end OranAdapt.Scoring
