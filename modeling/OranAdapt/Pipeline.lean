import OranAdapt.Candidates
import OranAdapt.Promotion
import OranAdapt.RecordedEvents
import OranAdapt.ReuseRule
import OranAdapt.Status
import OranAdapt.TrainingRows

/-!
# The pipeline of a job

`orchestrator.pipeline`: one drift event from the analysis to the delivery of a
candidate. What the pipeline calls is a port and may do anything; what the
pipeline itself computes, and each call it makes, is as the source has it.
-/

namespace OranAdapt

open Effects Adaptation

namespace Pipeline

/-! ## What goes in and out -/

/-- Of the drift event, what the pipeline reads itself. -/
structure DriftRef where
  modelId : ModelId
  modelVersion : Option Version := none
  eventId : Option String := none

structure ModelRow where
  mlflowModelName : String
  framework : Option String
  targetColumn : Option String
  taskType : Option String

/-- The package with the ids of the data versions it refers to. -/
structure Packaged where
  package : DecisionPackage
  historicalId : Option Nat
  driftedId : Option Nat
  historical_some : historicalId.isSome = package.historicalData.isSome
  drifted_some : driftedId.isSome = package.driftedData.isSome

/-- `AnalysisResult` -/
inductive Analyzed where
  | reuse (reason : String)
  | insufficientData (reason : String)
  | packaged (reason : String) (p : Packaged)

structure GateVerdict where
  verdict : String
  metric : String
  reasons : List String
  policyVersion : String
  policyHash : String

/-- `ValidationReport` with what the pipeline reads of the gate's decision. -/
structure ValidationReport where
  metricName : String
  currentValue : PyFloat
  candidateValue : PyFloat
  passed : Bool
  reason : String
  gate : Option GateVerdict

structure AdaptationDecision where
  strategy : AdaptationStrategy
  rationale : String

/-- `core.enums.AuditAction`, as far as the pipeline writes it. -/
inductive AuditAction where
  | currentDataCreated | modelVersionEvaluated | modelReuseSelected | adaptationDecisionCreated
  | fineTuneStarted | retrainStarted | adapterGenerated | sandboxExecuted
  | validationStarted | gateDecided | validationPassed | validationFailed | modelRegistered
deriving DecidableEq, Repr

structure AuditRow where
  action : AuditAction
  jobId : Option JobId
  modelId : ModelId
  modelVersion : Option Version
  decision : Option String := none
  reason : Option String := none
  status : String := "OK"
deriving DecidableEq, Repr

inductive DeliveryChoice where
  | blueGreen
  | progressive (strategy : Strategy)

inductive JobOutcome where
  | noAction | reused | registered | rejected | rolledBack | delivering | rolloutInProgress
deriving DecidableEq, Repr

def JobOutcome.value : JobOutcome → String
  | noAction => "NO_ACTION"
  | reused => "REUSED"
  | registered => "REGISTERED"
  | rejected => "REJECTED"
  | rolledBack => "ROLLED_BACK"
  | delivering => "DELIVERING"
  | rolloutInProgress => "ROLLOUT_IN_PROGRESS"

structure RolloutRow where
  id : RolloutId
  rollout : Rollout
  reason : String

/-- `orchestrator.schemas.JobResult` -/
structure Result where
  modelId : ModelId
  outcome : JobOutcome
  reason : String
  strategy : Option AdaptationStrategy := none
  decision : Option AdaptationDecision := none
  candidate : Option CandidateModel := none
  validation : Option ValidationReport := none
  registeredVersion : Option Version := none
  trainingDataVersion : Option String := none
  reusedVersion : Option Version := none
  previousLiveVersion : Option Version := none
  liveVersion : Option Version := none
  currentDataId : Option String := none
  versionEvaluations : List VersionEvaluation := []
  reuseDecision : Option ReuseRule.Reuse := none
  leakage : Option LeakageReport := none
  promotion : Option ModelPromotion := none
  rollout : Option RolloutRow := none

def Result.toJobResult (r : Result) : JobResult := ⟨r.outcome.value, r.reason, r.strategy.map (·.value)⟩

structure PipelineSettings where
  decision : DecisionSettings
  reuse : ReuseRule.ReuseSettings
  reuseEnabled : Bool := true
  validationHoldoutFraction : Rat
  leakage : LeakageSettings := {}
  deliveryStrategy : DeliveryChoice
  liveAlias : String := "live"
  candidateAlias : String := "candidate"
  statusTag : String
  minRows_pos : 1 ≤ decision.validationMinRows

/-! ## What it calls -/

structure EvaluationCall where
  mlflowName : String
  framework : String
  targetColumn : String
  liveVersion : Version
  data : List Row
  workdir : String
  taskType : Option String

structure CurrentDataCall where
  modelId : ModelId
  jobId : Option JobId
  records : List Row
  sourceVersionIds : List Nat
  quality : Quality
  poolRows : Nat

structure ValidationCall (M : Type) where
  candidate : CandidateModel
  currentModel : M
  modelId : ModelId
  rows : List Row
  featureNames : List String
  target : String
  currentFramework : String
  estimatorType : String
  taskType : Option String

structure RegisterCall where
  name : String
  artifactPath : String
  framework : String
  workdir : String
  metrics : List (String × PyFloat)
  tags : List (String × String)

structure RolloutCallArgs where
  modelId : ModelId
  strategy : Strategy
  stableVersion : Version
  candidateVersion : Version
  jobId : Option JobId
  gateDecisionId : Option Nat
  workdir : String

/-- Everything the pipeline calls; `ω` is what these calls read and write, `M` are loaded models. -/
structure Ports (ω M : Type) where
  text : PyText
  fixed6 : PyFloat → String
  arith : ReuseRule.FloatArith
  jobId : Option JobId
  correlationId : Option String
  -- the session and the job
  commit : Act ω AdaptationError Unit
  flush : Act ω AdaptationError Unit
  reportStage : JobStatus → String → Act ω AdaptationError Unit
  addAudit : AuditRow → Act ω AdaptationError Unit
  addEvaluation : VersionEvaluation → (reusable : Bool) → Act ω AdaptationError Unit
  addGate : GateVerdict → Act ω AdaptationError Nat
  linkGate : Nat → Version → Act ω AdaptationError Unit
  -- what the job reads
  modelRow : ModelId → Act ω AdaptationError (Option ModelRow)
  currentLive : (name aliasName : String) → Act ω AdaptationError (Option Version)
  versionByAlias : (name aliasName : String) → Act ω AdaptationError Version
  activeRollout : ModelId → Act ω AdaptationError (Option RolloutRow)
  analyze : DriftRef → Option Version → Act ω AdaptationError Analyzed
  loadRecords : List Nat → Act ω AdaptationError (List Row)
  datastore : Act ω AdaptationError Datastore
  persistCurrent : CurrentDataCall → Act ω AdaptationError (Option String)
  evaluateVersions : EvaluationCall → Act ω AdaptationError (List VersionEvaluation)
  /-- `decide`, with the calls of the LLM that it makes -/
  decide : DecisionPackage → Act (Logged ω Asked) AdaptationError AdaptationDecision
  -- the candidate
  verifyVersion : (name version workdir : String) → Act ω AdaptationError String
  load : (path framework : String) → Act ω AdaptationError M
  modelTypes : Except AdaptationError (ModelTypes ω M)
  targetLeaks : (target : String) → (featureNames : List String) → List Payload → List String
  llm : Option (LlmAdapter.Parts ω M)
  checkSize : String → Act ω AdaptationError Unit
  sha256File : String → Act ω AdaptationError String
  sha256Path : String → Act ω AdaptationError String
  validate : ValidationCall M → Act ω AdaptationError ValidationReport
  -- the registry and the delivery
  register : RegisterCall → Act ω AdaptationError Version
  recordChecksum : (name version workdir : String) → Act ω AdaptationError String
  setAlias : (name aliasName version : String) → Act ω AdaptationError Unit
  setVersionTags : (name version : String) → List (String × String) → Act ω AdaptationError Unit
  /-- `snapshot_training_data`: the version's name and its content hash -/
  snapshot : SnapshotCall → Act ω AdaptationError (String × Option String)
  promote : PromotionRequest → (workdir : String) → Act ω AdaptationError ModelPromotion
  startRollout : RolloutCallArgs → Act ω AdaptationError RolloutRow

/-- What the candidate trains on, and what the snapshot of it leaves out. -/
structure Training where
  featureNames : List String
  rows : List Row
  excluded : List Int
  report : LeakageReport

/-- What was cleaned, and with it the rows that `clean_records` left. -/
structure Cleaned where
  db : Datastore
  loaded : List Row
  required : List String

def Cleaned.records (source : Cleaned) : List Row := (cleanRecords source.db source.loaded source.required).records

/-- What the pipeline did; a call that failed is noted with no value. -/
inductive Event (M : Type) where
  | liveRead (version : Option Version)
  | inFlight (found : Bool)
  | analyzed
  /-- what was cleaned, and what of the cleaned rows is held out -/
  | frozen (source : Cleaned) (holdout : List Row)
  | committed (worked : Bool)
  | reported (status : JobStatus) (message : String)
  | audited (row : AuditRow)
  | evaluationAdded (version : Version) (reusable : Bool)
  | scored (rows : List Row) (evaluations : Option (List VersionEvaluation))
  | asked (call : Asked)
  | trainingSet (training : Option Training)
  | candidate (event : CandidateEvent M)
  | hashed (path : String) (sum : Option String)
  | validated (artifact : String) (rows : List Row) (report : Option ValidationReport)
  | gateAdded (verdict : GateVerdict)
  | gateLinked (version : Version)
  | registered (call : RegisterCall) (version : Option Version)
  | checksumRecorded (version : Version)
  | aliasSet (aliasName : String) (version : Version)
  | snapshotted (call : SnapshotCall)
  | tagged (version : Version)
  | promoted (request : PromotionRequest) (end_ : Ended AdaptationError Unit)
  | rolloutStarted (call : RolloutCallArgs) (rollout : Option RolloutRow)

/-- What came of a call, without the value it returned. -/
def unvalued {ε α : Type} : Ended ε α → Ended ε Unit
  | .done _ => .done ()
  | .raised e => .raised e
  | .stopped => .stopped

/-- What a call returned, if it did. -/
def valueOf {ε α : Type} : Ended ε α → Option α
  | .done a => some a
  | _ => none

abbrev Run (ω M α : Type) := Act (Logged ω (Event M)) AdaptationError α

/-- A part of the pipeline ends the job, or hands on to the next part. -/
inductive Step (α : Type) where
  | ends (result : Result)
  | goes (a : α)

section
variable {ω M : Type} (ports : Ports ω M) (settings : PipelineSettings) (event : DriftRef)

/-! ## The session -/

def commit : Run ω M Unit := ports.commit.noted fun o => .committed (valueOf o).isSome

def stage (status : JobStatus) (message : String) : Run ω M Unit := do
  commit ports
  (ports.reportStage status message).noted fun _ => .reported status message

def auditRow (action : AuditAction) (version : Option Version) (decision : Option String := none)
    (reason : Option String := none) : AuditRow :=
  { action, jobId := ports.jobId, modelId := event.modelId, modelVersion := version, decision, reason }

def audit (row : AuditRow) : Run ω M Unit := (ports.addAudit row).noted fun _ => .audited row

/-- A string that is neither `None` nor empty. -/
def truthy (s : Option String) : Option String := s.filter (· ≠ "")

/-! ## Before the analysis -/

def readLive (row : Option ModelRow) : Run ω M (Option Version) :=
  match row with
  | some row => (ports.currentLive row.mlflowModelName settings.liveAlias).noted fun o => .liveRead (valueOf o).join
  | none => pure none

def findRollout (row : Option ModelRow) : Run ω M (Option RolloutRow) :=
  match row with
  | some _ => (ports.activeRollout event.modelId).noted fun o => .inFlight (valueOf o).join.isSome
  | none => pure none

def screen : Run ω M (Step (Option ModelRow × Option Version)) := do
  let row ← (ports.modelRow event.modelId).quietly
  let live ← readLive ports settings row
  if event.modelVersion.any fun version => live.any (· ≠ version) then
    pure (.ends { modelId := event.modelId, outcome := .noAction, liveVersion := live
                  reason := "stale event: drift was reported on version " ++ event.modelVersion.getD "" ++
                    " but LIVE is now version " ++ live.getD "" })
  else do
    let found ← findRollout ports event row
    match found with
    | some r =>
      pure (.ends { modelId := event.modelId, outcome := .rolloutInProgress, liveVersion := live, rollout := some r
                    reason := "rollout " ++ r.id ++ " of version " ++ r.rollout.candidateVersion ++ " is " ++
                      Sinks.rolloutState r.rollout.state ++ "; the model takes no new adaptation until it ends" })
    | none => pure (.goes (row, live))

/-- A model, its LIVE version if it has one, and the package its event made. -/
structure Case where
  row : ModelRow
  live : Option Version
  packaged : Packaged

def analyse (row : Option ModelRow) (live : Option Version) : Run ω M (Step Case) := do
  let analyzed ← (ports.analyze event live).noted fun _ => .analyzed
  match row, analyzed with
  | none, _ => .raise (pythonError "AssertionError")
  | some _, .reuse reason | some _, .insufficientData reason =>
    pure (.ends { modelId := event.modelId, outcome := .noAction, liveVersion := live, reason })
  | some row, .packaged _ p => pure (.goes ⟨row, live, p⟩)

/-! ## The data -/

/-- The cleaned rows, and those of them that are held out. -/
structure Prepared where
  records : List Row
  holdout : List Row
  currentDataId : Option String

def inputs (c : Case) : TrainingInputs where
  historical := c.packaged.historicalId
  drifted := c.packaged.driftedId
  target := c.row.targetColumn.getD ""
  featureNames _ := []
  targetLeaks := ports.targetLeaks (c.row.targetColumn.getD "") []
  holdoutFraction := settings.validationHoldoutFraction
  minRows := settings.decision.validationMinRows.toNat
  leakage := settings.leakage

/-- The columns of `records_frame`, in the order in which they first appear. -/
def frameColumns (rows : List Row) : List String := (rows.flatMap fun r => r.payload.keys).eraseDups

def prepare (c : Case) : Run ω M Prepared := do
  let job := inputs ports settings c
  let loaded ← (ports.loadRecords job.trainIds).quietly
  let db ← ports.datastore.quietly
  let source : Cleaned := ⟨db, loaded, (truthy c.row.targetColumn).toList⟩
  let cleaned := cleanRecords source.db source.loaded source.required
  if cleaned.records = [] then .raise (artifactError "no usable rows left after cleaning the source data" [])
  else do
    let pool := job.pool cleaned.records
    let holdout := job.holdout cleaned.records
    let currentDataId ← (ports.persistCurrent { modelId := event.modelId, jobId := ports.jobId, records := holdout
                                                sourceVersionIds := job.trainIds, quality := cleaned.quality
                                                poolRows := pool.length }).noted fun _ => .frozen source holdout
    audit ports (auditRow ports event .currentDataCreated c.live none
      (some "newest drifted rows held out for version scoring and validation"))
    pure ⟨cleaned.records, holdout, currentDataId⟩

/-! ## Reusing a version -/

/-- The versions' scores and what is decided of them; no scores where none were taken. -/
structure Scored where
  evaluations : List VersionEvaluation := []
  reuse : Option ReuseRule.Reuse := none

def evaluation (workdir : String) (c : Case) (p : Prepared) : Option EvaluationCall :=
  match c.row.targetColumn, c.live, c.row.framework with
  | some target, some live, some framework =>
    if settings.reuseEnabled ∧ settings.decision.validationMinRows ≤ p.holdout.length ∧
      target ∈ frameColumns p.holdout then
      some { mlflowName := c.row.mlflowModelName, framework, targetColumn := target, liveVersion := live
             data := p.holdout, workdir, taskType := c.row.taskType }
    else none
  | _, _, _ => none

def recordEvaluations (reuse : ReuseRule.Reuse) : List VersionEvaluation → Run ω M Unit
  | [] => ports.flush.quietly
  | ev :: rest => do
    let chosen := decide (some ev.version = reuse.selectedVersion)
    (ports.addEvaluation ev chosen).noted fun _ => .evaluationAdded ev.version chosen
    audit ports (auditRow ports event .modelVersionEvaluated (some ev.version) (if chosen then some "SELECTED" else none))
    recordEvaluations reuse rest

def promotionKey (suffix : String) : Option String := (truthy ports.jobId).map fun id => id ++ ":" ++ suffix

def promote (request : PromotionRequest) (workdir : String) : Run ω M ModelPromotion :=
  (ports.promote request workdir).noted fun o => .promoted request (unvalued o)

def reuseRequest (live version : Version) (reason : String) : PromotionRequest where
  modelId := event.modelId
  version
  kind := .reuse
  reason
  actor := "system"
  jobId := ports.jobId
  expectedLive := some live
  idempotencyKey := promotionKey ports "reuse"

/-- A version that beats LIVE is promoted, and nothing is trained. -/
def reuseVersion (workdir : String) (live version : Version) (p : Prepared) (evaluations : List VersionEvaluation)
    (reuse : ReuseRule.Reuse) : Run ω M Result := do
  audit ports (auditRow ports event .modelReuseSelected (some version) (some reuse.verdict) (some reuse.reason))
  stage ports .promoting ("reusing version " ++ version)
  let promotion ← promote ports (reuseRequest ports event live version reuse.reason) (joinPath workdir "promote")
  pure { modelId := event.modelId, outcome := .reused, reusedVersion := some version, previousLiveVersion := some live
         liveVersion := some version, versionEvaluations := evaluations, currentDataId := p.currentDataId
         reuseDecision := some reuse, promotion := some promotion, reason := reuse.reason }

def scoreVersions (workdir : String) (c : Case) (p : Prepared) (call : EvaluationCall) : Run ω M (Step Scored) := do
  stage ports .evaluatingVersions "scoring registered versions"
  let evaluations ← (ports.evaluateVersions call).noted fun o => .scored call.data (valueOf o)
  let reuse ← .ofExcept (ReuseRule.decideReuse ports.arith settings.reuse evaluations (some call.liveVersion)
    c.packaged.package.maxPsi)
  recordEvaluations ports event reuse evaluations
  stage ports .reuseDecision reuse.reason
  if reuse.verdict = "REUSE_EXISTING_VERSION" then
    match reuse.selectedVersion with
    | none => .raise (pythonError "AssertionError")
    | some version => do
      let result ← reuseVersion ports event workdir call.liveVersion version p evaluations reuse
      pure (.ends result)
  else pure (.goes ⟨evaluations, some reuse⟩)

def score (workdir : String) (c : Case) (p : Prepared) : Run ω M (Step Scored) :=
  match evaluation settings workdir c p with
  | some call => scoreVersions ports settings event workdir c p call
  | none => pure (.goes {})

/-! ## The decision -/

/-- A strategy that trains, the target it trains for and the version it starts from. -/
structure Chosen where
  decision : AdaptationDecision
  target : String
  live : Version

def adapting (strategy : AdaptationStrategy) : Bool := strategy == .fineTuning || strategy == .fullRetraining

def withScores (package : DecisionPackage) (s : Scored) : DecisionPackage :=
  { package with versionEvaluations := s.evaluations, reuseDecision := s.reuse.map (·.toReuseDecision) }

def startFrom (c : Case) : Run ω M Version :=
  match c.live with
  | some live => pure live
  | none => (ports.versionByAlias c.row.mlflowModelName settings.liveAlias).noted fun o => .liveRead (valueOf o)

def choose (c : Case) (p : Prepared) (s : Scored) : Run ω M (Step Chosen) := do
  stage ports .decisionPending "handing the package to the decision engine"
  let decision ← (ports.decide (withScores c.packaged.package s)).relog .asked
  audit ports (auditRow ports event .adaptationDecisionCreated c.live (some decision.strategy.value)
    (some decision.rationale))
  if adapting decision.strategy = false then
    pure (.ends { modelId := event.modelId, outcome := .noAction, strategy := some decision.strategy
                  decision := some decision, liveVersion := c.live, versionEvaluations := s.evaluations
                  currentDataId := p.currentDataId, reuseDecision := s.reuse, reason := decision.rationale })
  else
    match truthy c.row.targetColumn with
    | none =>
      .raise (artifactError ("model '" ++ event.modelId ++ "' has no target_column on record; cannot train or validate")
        [("model_id", .str event.modelId)])
    | some target => do
      let live ← startFrom ports settings c
      pure (.goes ⟨decision, target, live⟩)

end

/-! ## The candidate -/

section
variable {ω M : Type} (ports : Ports ω M) (settings : PipelineSettings) (event : DriftRef) (workdir : String)

structure Loaded (ω M : Type) where
  framework : String
  model : M
  types : ModelTypes ω M
  inspection : ModelInspection

def splitFeaturesTarget (columns featureNames : List String) (target : String) : Except AdaptationError Unit :=
  let missing := (featureNames ++ [target]).filter (· ∉ columns)
  if missing = [] then .ok ()
  else .error (artifactError ("training frame is missing required column(s): " ++ ports.text.list missing)
    [("available_columns", .strs columns)])

def featureNames (inspection : ModelInspection) (target : String) (train : List Row) : List String :=
  match inspection.featureNamesIn.getD [] with
  | [] => (frameColumns train).filter (· ≠ target)
  | names => names

/-- The rows left for training once those held out and those that leak are gone. -/
def trainingOf (inspection : ModelInspection) (target : String) (p : Prepared) : Except AdaptationError Training := do
  let train := p.records.filter fun r => r.id ∉ p.holdout.map Row.id
  let names := featureNames inspection target train
  let (rows, report) ← checkLeakage (ports.targetLeaks target names) train p.holdout target names settings.leakage
  splitFeaturesTarget ports (frameColumns rows) names target
  pure ⟨names, rows, ((p.records.map Row.id).filter (· ∉ rows.map Row.id)).dedup, report⟩

def loadLive (c : Case) (x : Chosen) : Run ω M (Loaded ω M) := do
  audit ports (auditRow ports event (if x.decision.strategy = .fineTuning then .fineTuneStarted else .retrainStarted)
    (some x.live) (some x.decision.strategy.value) (some x.decision.rationale))
  stage ports .adapting (x.decision.strategy.value ++ " from version " ++ x.live)
  let path ← (ports.verifyVersion c.row.mlflowModelName x.live (joinPath workdir "current")).quietly
  match c.row.framework with
  | none =>
    .raise (artifactError ("model '" ++ event.modelId ++ "' has no framework on record; cannot load it to adapt")
      [("model_id", .str event.modelId)])
  | some framework => do
    let model ← (ports.load path framework).quietly
    let types ← .ofExcept ports.modelTypes
    let inspection ← (types.require model framework).quietly
    pure ⟨framework, model, types, inspection⟩

/-- `_llm_failed`: what the LLM's failure leaves behind is committed at once. -/
def llmFailed (live : Version) (e : AdaptationError) (_reason : String) : Act ω AdaptationError Unit := do
  let generated := { auditRow ports event .adapterGenerated (some live) with
    status := if e.cls.isSandboxExecution then "OK" else "FAILED"
    reason := some (if e.cls.isSandboxExecution then "adapter code passed the safety scan" else e.message) }
  ports.addAudit generated
  if e.cls.isSandboxExecution then
    ports.addAudit { auditRow ports event .sandboxExecuted (some live) with status := "FAILED", reason := some e.message }
  ports.commit

def request (x : Chosen) (loaded : Loaded ω M) (t : Training) : CandidateRequest M where
  strategy := x.decision.strategy
  model := loaded.model
  inspection := loaded.inspection
  framework := loaded.framework
  rows := t.rows
  featureNames := t.featureNames
  targetColumn := x.target
  workdir

def hash (path : String) (sum : Act ω AdaptationError String) : Run ω M String :=
  sum.noted fun o => .hashed path (valueOf o)

/-- A candidate, with the checksum of its file. -/
structure Produced where
  candidate : CandidateModel
  sha : String

def produce (x : Chosen) (loaded : Loaded ω M) (t : Training) : Run ω M Produced := do
  let candidate ← (CandidateRequest.produce ports.text loaded.types (request workdir x loaded t) ports.llm
    (llmFailed ports event x.live)).relog .candidate
  (ports.checkSize candidate.artifactPath).quietly
  let sha ← hash candidate.artifactPath (ports.sha256File candidate.artifactPath)
  if candidate.engine = llmGenerated then do
    audit ports (auditRow ports event .adapterGenerated (some x.live) none (some "adapter code passed the safety scan"))
    audit ports (auditRow ports event .sandboxExecuted (some x.live) none (some "adapter ran in the sandbox"))
    pure ⟨candidate, sha⟩
  else pure ⟨candidate, sha⟩

/-! ## The validation -/

def verifyChecksum (path expected stageName : String) : Run ω M Unit := do
  let actual ← hash path (ports.sha256Path path)
  if actual ≠ expected then
    .raise ⟨.artifactIntegrity, "artifact checksum mismatch; refusing to load it",
      [("path", .str path), ("expected", .str expected), ("actual", .str actual), ("stage", .str stageName)]⟩
  else pure ()

def recordGate (live : Version) (report : ValidationReport) : Run ω M (Option Nat) :=
  match report.gate with
  | none => pure none
  | some verdict => do
    let id ← (ports.addGate verdict).noted fun _ => .gateAdded verdict
    audit ports (auditRow ports event .gateDecided (some live) (some verdict.verdict)
      (some (" | ".intercalate verdict.reasons)))
    pure (some id)

def validationColumns (p : Prepared) (t : Training) (target : String) : List String :=
  if p.holdout = [] ∨ frameColumns p.holdout = [] then t.featureNames ++ [target] else frameColumns p.holdout

structure Validated where
  report : ValidationReport
  gateRow : Option Nat

/-- A candidate that can be registered, and what is known of it. -/
structure Made (ω M : Type) where
  loaded : Loaded ω M
  training : Training
  produced : Produced

def validate (c : Case) (p : Prepared) (x : Chosen) (m : Made ω M) : Run ω M Validated := do
  stage ports .validatingCandidate "scoring the candidate on held-out data"
  verifyChecksum ports m.produced.candidate.artifactPath m.produced.sha "validation"
  .ofExcept (splitFeaturesTarget ports (validationColumns p m.training x.target) m.training.featureNames x.target)
  audit ports (auditRow ports event .validationStarted (some x.live))
  let report ← (ports.validate
    { candidate := m.produced.candidate, currentModel := m.loaded.model, modelId := event.modelId, rows := p.holdout
      featureNames := m.training.featureNames, target := x.target, currentFramework := m.loaded.framework
      estimatorType := m.loaded.inspection.estimatorType, taskType := c.row.taskType }).noted
    fun o => .validated m.produced.candidate.artifactPath p.holdout (valueOf o)
  let gateRow ← recordGate ports event x.live report
  audit ports (auditRow ports event (if report.passed then .validationPassed else .validationFailed) (some x.live)
    (some (if report.passed then "PASS" else "FAIL")) (some report.reason))
  pure ⟨report, gateRow⟩

/-! ## The registry -/

/-- The version a candidate was registered as, and the data version that is its training set. -/
structure Registered where
  version : Version
  trainingData : String

def tags (c : Case) (p : Prepared) (x : Chosen) (m : Made ω M) (v : Validated) : List (String × String) :=
  let candidate := m.produced.candidate
  [("oran.model_id", event.modelId), ("oran.parent_version", x.live), ("oran.event_id", event.eventId.getD ""),
    ("oran.job_id", ports.jobId.getD ""), (settings.statusTag, "VALIDATED"),
    ("oran.correlation_id", ports.correlationId.getD ""),
    ("adaptation.strategy", x.decision.strategy.value),
    ("adaptation.applied_strategy", (candidate.appliedStrategy.getD x.decision.strategy).value),
    ("adaptation.note", String.ofList (candidate.adaptationNote.toList.take 250)), ("adaptation.engine", candidate.engine),
    ("candidate.sha256", m.produced.sha), ("validation.metric", v.report.metricName),
    ("validation.candidate_value", ports.fixed6 v.report.candidateValue),
    ("validation.current_value", ports.fixed6 v.report.currentValue), ("validation.holdout_rows", toString p.holdout.length),
    ("validation.current_data_id", p.currentDataId.getD ""),
    ("data.source_versions", ",".intercalate
      ((c.packaged.package.historicalData.toList ++ c.packaged.package.driftedData.toList).map (·.version)))]

def registerCall (c : Case) (p : Prepared) (x : Chosen) (m : Made ω M) (v : Validated) : RegisterCall where
  name := c.row.mlflowModelName
  artifactPath := m.produced.candidate.artifactPath
  framework := m.produced.candidate.framework
  workdir := joinPath workdir "publish"
  metrics := m.produced.candidate.metrics
  tags := tags ports settings event c p x m v

def snapshotCall (c : Case) (t : Training) (version : Version) : SnapshotCall where
  modelId := event.modelId
  modelVersion := version
  sourceVersionIds := (inputs ports settings c).trainIds
  parentVersionId := c.packaged.historicalId
  excludeRecordIds := t.excluded

def linkGate (gateRow : Option Nat) (version : Version) : Run ω M Unit :=
  match gateRow with
  | none => pure ()
  | some id => (ports.linkGate id version).noted fun _ => .gateLinked version

def register (c : Case) (p : Prepared) (x : Chosen) (m : Made ω M) (v : Validated) : Run ω M Registered := do
  let name := c.row.mlflowModelName
  stage ports .registering "registering the validated candidate"
  verifyChecksum ports m.produced.candidate.artifactPath m.produced.sha "registration"
  let call := registerCall ports settings event workdir c p x m v
  let version ← (ports.register call).noted fun o => .registered call (valueOf o)
  let _ ← (ports.recordChecksum name version (joinPath workdir "registered")).noted fun _ => .checksumRecorded version
  audit ports (auditRow ports event .modelRegistered (some version) (some x.decision.strategy.value)
    (some ("validated candidate registered (parent version " ++ x.live ++ ")")))
  (ports.setAlias name settings.candidateAlias version).noted fun _ => .aliasSet settings.candidateAlias version
  linkGate ports v.gateRow version
  let call := snapshotCall ports settings event c m.training version
  let (data, hash) ← (ports.snapshot call).noted fun _ => .snapshotted call
  (ports.setVersionTags name version [("data.training_version", data), ("data.training_hash", hash.getD "")]).noted
    fun _ => .tagged version
  pure ⟨version, data⟩

/-! ## The delivery -/

def deliveryName : Strategy → String
  | .shadow => "shadow"
  | .canary => "canary"
  | .ab => "ab"
  | .manual => "manual"

def deliver (strategy : Strategy) (live version : Version) (gateRow : Option Nat) (result : Result) : Run ω M Result := do
  stage ports .promoting ("starting a " ++ deliveryName strategy ++ " rollout of " ++ version)
  let args : RolloutCallArgs :=
    { modelId := event.modelId, strategy, stableVersion := live, candidateVersion := version, jobId := ports.jobId
      gateDecisionId := gateRow, workdir := joinPath workdir "rollout" }
  let started ← (ports.startRollout args).noted fun o => .rolloutStarted args (valueOf o)
  if started.rollout.state = .promoted then
    pure { result with
      outcome := .registered, rollout := some started, liveVersion := some version, previousLiveVersion := some live
      reason := "version " ++ version ++ " registered and promoted: " ++ started.reason }
  else if started.rollout.state = .rolledBack then
    pure { result with
      outcome := .rolledBack, rollout := some started
      reason := "version " ++ version ++ " registered but its rollout failed: " ++ started.reason }
  else
    pure { result with
      rollout := some started
      reason := "version " ++ version ++ " registered; " ++ deliveryName strategy ++ " rollout " ++ started.id ++ " is " ++
        Sinks.rolloutState started.rollout.state ++ " (" ++ started.reason ++ ")" }

def candidateRequest (live version : Version) (reason : String) : PromotionRequest where
  modelId := event.modelId
  version
  kind := .promoteCandidate
  reason
  actor := "system"
  jobId := ports.jobId
  expectedLive := some live
  idempotencyKey := promotionKey ports "promote"

/-- LIVE moves at once; a failed promotion is the job's outcome. -/
def promoteCandidate (live version : Version) (result : Result) : Run ω M Result := do
  stage ports .promoting ("moving LIVE from " ++ live ++ " to " ++ version)
  let answer ← (promote ports (candidateRequest ports event live version result.reason)
    (joinPath workdir "promote")).catching
    (·.cls = .promotion)
  match answer with
  | .ok promotion => pure { result with promotion := some promotion }
  | .error e =>
    pure { result with
      outcome := .rolledBack, liveVersion := some live, previousLiveVersion := none
      reason := "version " ++ version ++ " registered but not promoted: " ++ e.message }

/-! ## The whole job -/

/-- What the result of a job that made a candidate tells in any case. -/
def candidateResult (p : Prepared) (s : Scored) (x : Chosen) (m : Made ω M) (v : Validated) : Result where
  modelId := event.modelId
  outcome := .rejected
  reason := v.report.reason
  strategy := some x.decision.strategy
  decision := some x.decision
  candidate := some m.produced.candidate
  validation := some v.report
  liveVersion := some x.live
  versionEvaluations := s.evaluations
  currentDataId := p.currentDataId
  reuseDecision := s.reuse
  leakage := some m.training.report

def publish (c : Case) (p : Prepared) (s : Scored) (x : Chosen) (m : Made ω M) (v : Validated) : Run ω M Result := do
  let r ← register ports settings event workdir c p x m v
  let result := { candidateResult event p s x m v with
    registeredVersion := some r.version, trainingDataVersion := some r.trainingData }
  match settings.deliveryStrategy with
  | .progressive strategy =>
    deliver ports event workdir strategy x.live r.version v.gateRow { result with outcome := .delivering, reason := "" }
  | .blueGreen =>
    promoteCandidate ports event workdir x.live r.version { result with
      outcome := .registered, previousLiveVersion := some x.live, liveVersion := some r.version
      reason := "candidate validated (" ++ v.report.reason ++ ") and registered as version " ++ r.version }

def adapt (c : Case) (p : Prepared) (s : Scored) (x : Chosen) : Run ω M Result := do
  let loaded ← loadLive ports event workdir c x
  let training ← (Act.ofExcept (trainingOf ports settings loaded.inspection x.target p)).noted fun o =>
    .trainingSet (valueOf o)
  let produced ← produce ports event workdir x loaded training
  let made : Made ω M := ⟨loaded, training, produced⟩
  let validated ← validate ports event c p x made
  if validated.report.passed then publish ports settings event workdir c p s x made validated
  else pure (candidateResult event p s x made validated)

def runJob : Run ω M Result := do
  match ← screen ports settings event with
  | .ends result => pure result
  | .goes (row, live) =>
  match ← analyse ports event row live with
  | .ends result => pure result
  | .goes c => do
  let p ← prepare ports settings event c
  match ← score ports settings event workdir c p with
  | .ends result => pure result
  | .goes s =>
  match ← choose ports settings event c p s with
  | .ends result => pure result
  | .goes x => adapt ports settings event workdir c p s x

end

end Pipeline

end OranAdapt
