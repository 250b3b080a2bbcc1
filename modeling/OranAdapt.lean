import OranAdapt.Cancel
import OranAdapt.Reaper
import OranAdapt.Reconcile
import OranAdapt.Takeover
import OranAdapt.Slots
import OranAdapt.LockInvariant
import OranAdapt.LiveHistory
import OranAdapt.FinalStates
import OranAdapt.PromotionChain
import OranAdapt.KafkaOnce
import OranAdapt.LlmBudget
import OranAdapt.Attempts
import OranAdapt.Resolution
import OranAdapt.ClaimOrder
import OranAdapt.VertexAliases
import OranAdapt.VertexDeployment
import OranAdapt.GitOps
import OranAdapt.JobExecutor
import OranAdapt.Undisturbed
import OranAdapt.KeyClashes
import OranAdapt.MirrorRepairs
import OranAdapt.CleanReference
import OranAdapt.HealthMonotone
import OranAdapt.LeakageSound
import OranAdapt.ReaperPass
import OranAdapt.KubernetesWakeUps
import OranAdapt.CanaryOrder
import OranAdapt.PromotionEnds
import OranAdapt.BatchBoundaries
import OranAdapt.CdcRefinement
import OranAdapt.BreakerCalls
import OranAdapt.TokenBuckets
import OranAdapt.GateSlices
import OranAdapt.JwtRules
import OranAdapt.Outbound
import OranAdapt.AnomalyScores
import OranAdapt.RedactedUrls
import OranAdapt.ConfigFile
import OranAdapt.SegmentValues
import OranAdapt.MappedEvents
import OranAdapt.ReferenceErrors
import OranAdapt.NeverBroken
import OranAdapt.ProcessTree
import OranAdapt.SampledRows
import OranAdapt.SequenceWindows
import OranAdapt.CloudNames
import OranAdapt.ExactForwarding
import OranAdapt.EventDelivery
import OranAdapt.PipelineRuns
import OranAdapt.BodySizeLimit
