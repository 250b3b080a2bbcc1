import OranAdapt.Store

/-!
# The metrics versions are compared on
-/

namespace OranAdapt.Metrics

def higherIsBetterMetrics : List String :=
  ["accuracy", "precision", "recall", "f1", "roc_auc", "pr_auc", "r2", "silhouette"]

def lowerIsBetterMetrics : List String := ["mae", "mse", "rmse", "mape", "smape", "mase", "davies_bouldin"]

def higherIsBetter (metric : String) : Except AdaptationError Bool :=
  if metric ∈ higherIsBetterMetrics then .ok true
  else if metric ∈ lowerIsBetterMetrics then .ok false
  else .error (pythonError "ValueError")

end OranAdapt.Metrics
