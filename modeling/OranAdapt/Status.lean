import Mathlib.Data.List.Nodup

/-!
# The adaptation job state machine

`core.enums.JobStatus` and `core.state_machine`: which status may follow
which. Every persisted transition goes through `checkTransition`.
-/

namespace OranAdapt

inductive JobStatus where
  | received | queued | validating | dataPreparing | evaluatingVersions | reuseDecision
  | decisionPending | adapting | validatingCandidate | registering | promoting
  | completed | failed | rolledBack | timedOut | cancelled
  -- written by older releases only
  | analyzing | modelComparison | decisionMade
deriving DecidableEq, Repr

namespace JobStatus

def value : JobStatus → String
  | received => "RECEIVED"
  | queued => "QUEUED"
  | validating => "VALIDATING"
  | dataPreparing => "DATA_PREPARING"
  | evaluatingVersions => "EVALUATING_VERSIONS"
  | reuseDecision => "REUSE_DECISION"
  | decisionPending => "DECISION_PENDING"
  | adapting => "ADAPTING"
  | validatingCandidate => "VALIDATING_CANDIDATE"
  | registering => "REGISTERING"
  | promoting => "PROMOTING"
  | completed => "COMPLETED"
  | failed => "FAILED"
  | rolledBack => "ROLLED_BACK"
  | timedOut => "TIMED_OUT"
  | cancelled => "CANCELLED"
  | analyzing => "ANALYZING"
  | modelComparison => "MODEL_COMPARISON"
  | decisionMade => "DECISION_MADE"

def terminal : JobStatus → Bool
  | completed | failed | rolledBack | timedOut | cancelled => true
  | _ => false

/-- `_ACTIVE` of the worker: neither ended nor waiting in the queue. -/
def active (s : JobStatus) : Bool := !s.terminal && s != queued

def inRegistryStage : JobStatus → Bool
  | registering | promoting => true
  | _ => false

def allowed : JobStatus → Option (List JobStatus)
  | received => some [queued, validating, failed]
  | queued => some [validating, failed]
  | validating => some [dataPreparing, failed]
  | dataPreparing => some [evaluatingVersions, decisionPending, completed, failed]
  | evaluatingVersions => some [reuseDecision, failed]
  | reuseDecision => some [promoting, decisionPending, failed]
  | decisionPending => some [adapting, completed, failed]
  | adapting => some [validatingCandidate, failed]
  | validatingCandidate => some [registering, completed, failed]
  | registering => some [promoting, failed]
  | promoting => some [completed, rolledBack, failed]
  | _ => none

def allowedNext (s : JobStatus) : List JobStatus :=
  if s.terminal then []
  else
    -- a deadline and a cancel request can strike at any stage that has not ended
    (allowed s).getD [failed] ++ [timedOut, cancelled] ++
      if s = received ∨ s = queued then [] else [queued]

/-- `check_transition` raises nothing. -/
def mayMove (s t : JobStatus) : Bool := decide (t ∈ s.allowedNext)

/-- The stages `orchestrator.pipeline` reports through `report_stage`. -/
def pipelineStages : List JobStatus :=
  [evaluatingVersions, reuseDecision, decisionPending, adapting, validatingCandidate, registering, promoting]

/-! ## What the table allows -/

@[simp] theorem active_queued : active queued = false := rfl

theorem active_iff {s : JobStatus} : s.active = true ↔ s.terminal = false ∧ s ≠ queued := by
  simp [active]

theorem not_terminal_iff {s : JobStatus} : s.terminal = false ↔ s = queued ∨ s.active = true := by
  cases s <;> simp [terminal, active]

theorem active_of_registry {s : JobStatus} (h : s.inRegistryStage = true) : s.active = true := by
  cases s <;> simp_all [inRegistryStage, active, terminal]

theorem not_terminal_of_active {s : JobStatus} (h : s.active = true) : s.terminal = false :=
  (active_iff.mp h).1

theorem mayMove_terminal {s t : JobStatus} (h : s.terminal = true) : mayMove s t = false := by
  simp [mayMove, allowedNext, h]

theorem not_terminal_of_mayMove {s t : JobStatus} (h : mayMove s t = true) : s.terminal = false := by
  cases hs : s.terminal with
  | false => rfl
  | true => rw [mayMove_terminal hs] at h; cases h

theorem mayMove_failed {s : JobStatus} (h : s.terminal = false) : mayMove s failed = true := by
  cases s <;> simp_all [terminal, mayMove, allowedNext, allowed]

theorem registry_stays {s t : JobStatus} (h : mayMove s t = true) (hs : s.inRegistryStage = true)
    (ht : t ∈ pipelineStages) : t.inRegistryStage = true := by
  cases s <;> cases t <;> simp_all [inRegistryStage, mayMove, allowedNext, allowed, terminal, pipelineStages]

theorem active_of_pipeline {t : JobStatus} (ht : t ∈ pipelineStages) : t.active = true := by
  simp only [pipelineStages, List.mem_cons, List.not_mem_nil, or_false] at ht
  rcases ht with rfl | rfl | rfl | rfl | rfl | rfl | rfl <;> rfl

end JobStatus

end OranAdapt
