import OranAdapt.DataVersions
import OranAdapt.DecisionPackage
import OranAdapt.LoggedCalls
import OranAdapt.PyStr
import OranAdapt.SandboxScan

/-!
# Code written by an LLM

`adaptation.llm_adapter`: the LLM writes adaptation code, the code is scanned
and run in the sandbox, and what fails goes back to the LLM to be fixed, until
an attempt works or the attempts run out.
-/

namespace OranAdapt

open Effects

/-! ## Calls of the LLM -/

structure PromptStamp where
  promptId : String
  promptVersion : String
  promptSha256 : String
deriving DecidableEq, Repr

def Prompt.stamp (sha256 : String → String) (p : Prompt) : PromptStamp := ⟨p.id, p.version, sha256 p.system⟩

structure LlmClient (ω : Type) where
  complete : (system user : String) → Act ω AdaptationError String

def ErrorClass.llmReason : ErrorClass → String
  | other code => if code = "LLM_CIRCUIT_OPEN" then "circuit_open" else if code = "LLM_BUDGET_EXCEEDED" then "budget_exceeded"
    else "unavailable"
  | _ => "unavailable"

/-- `calls.LlmCall` without its tokens and its duration, and what was sent. -/
structure Asked where
  prompt : PromptStamp
  outcome : String := "ok"
  errorCode : Option String := none
  purpose : String
  step : Option Nat := none
  system : String
  user : String
deriving DecidableEq, Repr

/-- What `calls.ask` records of a call. A call in whose middle the process stops is never recorded. -/
def Asked.note (asked : Asked) : Ended AdaptationError String → Asked
  | .done _ => asked
  | .raised e => if e.cls.isLlmUnavailable then { asked with outcome := e.cls.llmReason, errorCode := some e.cls.code }
    else { asked with outcome := "error" }
  | .stopped => { asked with outcome := "stopped" }

/-! ## Candidates -/

/-- An attempt at generating code: its failure, or none where it worked. -/
structure CodeFailure where
  stage : String
  error : String
  detail : String
deriving DecidableEq, Repr

structure GenerationAttempt where
  attempt : Nat
  failure : Option CodeFailure := none
deriving DecidableEq, Repr

/-- An entry of `trace`. -/
def GenerationAttempt.dict (a : GenerationAttempt) : List (String × (Nat ⊕ String)) :=
  match a.failure with
  | some f =>
    [("attempt", .inl a.attempt), ("outcome", .inr "failed"), ("stage", .inr f.stage), ("error", .inr f.error),
      ("detail", .inr f.detail)]
  | none => [("attempt", .inl a.attempt), ("outcome", .inr "ok")]

structure CandidateModel where
  engine : String
  framework : String
  modelClass : String
  artifactPath : String
  metrics : List (String × PyFloat) := []
  nTrainRows : Nat
  featureNames : List String
  targetColumn : String
  appliedStrategy : Option AdaptationStrategy := none
  adaptationNote : String := ""
  generationAttempts : List GenerationAttempt := []
deriving DecidableEq, Repr

def llmGenerated : String := "LLM_GENERATED"

def ErrorClass.isUnsafeCode (cls : ErrorClass) : Bool := cls == .other "UNSAFE_CODE_REJECTED"

def ErrorClass.isSandboxExecution (cls : ErrorClass) : Bool := cls == .other "SANDBOX_EXECUTION_FAILED"

def joinPath (directory name : String) : String :=
  if directory = "" ∨ directory.toList.getLast? = some '/' then directory ++ name else directory ++ "/" ++ name

/-! ## The code of a reply -/

def lineBreak (c : Char) : Bool :=
  (10 ≤ c.toNat && c.toNat ≤ 13) || (0x1c ≤ c.toNat && c.toNat ≤ 0x1e) || c.toNat ==
    0x85 || c.toNat == 0x2028 || c.toNat == 0x2029

/-- `text.splitlines()`, from the line read so far on. -/
def textLines : List Char → List Char → List (List Char)
  | line, [] => if line = [] then [] else [line.reverse]
  | line, '\r' :: '\n' :: cs => line.reverse :: textLines [] cs
  | line, c :: cs => if lineBreak c then line.reverse :: textLines [] cs else textLines (c :: line) cs

def extractCode (text : String) : String :=
  let stripped := PyStr.strip text.toList
  let fence := "```".toList
  if fence.isPrefixOf stripped then
    let lines := (textLines [] stripped).drop 1
    let lines := match lines.getLast? with
      | some last => if PyStr.strip last = fence then lines.dropLast else lines
      | none => lines
    String.ofList (['\n'].intercalate lines)
  else String.ofList stripped

/-! ## The adapter -/

namespace LlmAdapter

def buildUserPrompt (text : PyText) (framework modelClass : String) (featureNames : List String)
    (targetColumn : String) : String :=
  "framework: " ++ framework ++ "\nmodel_class: " ++ modelClass ++ "\nfeature_names: " ++ text.list featureNames ++
    "\ntarget_column: " ++ targetColumn ++ "\nn_features: " ++ toString featureNames.length ++ "\n"

def feedbackKeys : List String :=
  ["violations", "cause", "stderr", "returncode", "timeout_s", "memory_mb", "rss_mb", "format", "types", "cls"]

def failureOf (showDict : Context → String) (e : AdaptationError) : CodeFailure :=
  let detail := showDict (feedbackKeys.filterMap fun k => (e.context.lookup k).map fun v => (k, v))
  { stage := if e.cls.isUnsafeCode then "security_scan" else "sandbox"
    error := e.message
    detail := if 2000 < detail.length then "..." ++ String.ofList (detail.toList.drop (detail.length - 2000)) else detail }

def fixPrompt (base : String) (failed : List (String × CodeFailure)) (left : Nat) : String :=
  let shown := failed.zipIdx.map fun f =>
    "\nATTEMPT " ++ toString (f.2 + 1) ++ " FAILED at the " ++ f.1.2.stage ++ ": " ++ f.1.2.error ++
      "\ndetail: " ++ f.1.2.detail ++
      "\ncode of attempt " ++ toString (f.2 + 1) ++ ":\n" ++ String.ofList (f.1.1.toList.take 6000) ++ "\n"
  base ++ String.join shown ++ "\nFix the cause of the failure above and write the complete corrected code. " ++
    "Attempts left including this one: " ++ toString left ++ "."

/-- What the adapter is given; `X` and `y` are the columns of the rows. `M` are models in memory. -/
structure Call (M : Type) where
  current : M
  framework : String
  modelClass : String
  rows : List Row
  featureNames : List String
  targetColumn : String
  workdir : String

/-- What `run_sandboxed` is given, the limits of the sandbox apart. -/
structure SandboxRun (M : Type) where
  code : String
  current : M
  rows : List Row
  featureNames : List String
  targetColumn : String
  workdir : String

/-- What the adapter works with: the LLM, the scan, the sandbox and the dump of a model. -/
structure Parts (ω M : Type) where
  text : PyText
  showDict : Context → String
  sha256 : String → String
  /-- `get_prompt("adaptation-code", settings)` -/
  getPrompt : Except AdaptationError Prompt
  maxAttempts : Nat
  attempts_pos : 1 ≤ maxAttempts
  llm : LlmClient ω
  python : Interpreter
  runSandboxed : SandboxRun M → Act ω AdaptationError M
  /-- `os.makedirs` and `joblib.dump` -/
  dump : (path : String) → M → Act ω AdaptationError Unit
  className : M → String

inductive Event (M : Type) where
  | asked (call : Asked) (reply : Option String)
  | scanned (code : String) (failure : Option AdaptationError)
  | ran (run : SandboxRun M) (end_ : Ended AdaptationError M)
  | dumped (path : String) (model : M) (end_ : Ended AdaptationError Unit)

section
variable {ω M : Type} (parts : Parts ω M) (call : Call M)

def base : String := buildUserPrompt parts.text call.framework call.modelClass call.featureNames call.targetColumn

/-- What is sent after some failures. -/
def userPrompt (failed : List (String × CodeFailure)) : String :=
  if failed = [] then base parts call else fixPrompt (base parts call) failed (parts.maxAttempts - failed.length)

/-- The directory of an attempt: no output of a failed one is read. -/
def attemptDir (attempt : Nat) : String :=
  if attempt = 1 then call.workdir else joinPath call.workdir ("attempt-" ++ toString attempt)

def sent (prompt : Prompt) (user : String) (attempt : Nat) : Asked where
  prompt := prompt.stamp parts.sha256
  purpose := "adaptation"
  step := some attempt
  system := prompt.system
  user := user

def replyOf : Ended AdaptationError String → Option String
  | .done raw => some raw
  | _ => none

def failureIn : Ended AdaptationError Unit → Option AdaptationError
  | .raised e => some e
  | _ => none

def ask (prompt : Prompt) (user : String) (attempt : Nat) : Act (Logged ω (Event M)) AdaptationError String :=
  (parts.llm.complete prompt.system user).noted fun o => .asked ((sent parts prompt user attempt).note o) (replyOf o)

def scan (code : String) : Act (Logged ω (Event M)) AdaptationError Unit :=
  (Act.ofExcept (checkCodeSafety parts.python code)).noted fun o => .scanned code (failureIn o)

def sandboxRun (code workdir : String) : SandboxRun M :=
  ⟨code, call.current, call.rows, call.featureNames, call.targetColumn, workdir⟩

def runSandboxed (code workdir : String) : Act (Logged ω (Event M)) AdaptationError M :=
  (parts.runSandboxed (sandboxRun call code workdir)).noted (.ran (sandboxRun call code workdir))

def caught (e : AdaptationError) : Bool := e.cls.isUnsafeCode || e.cls.isSandboxExecution

def traceOf (failed : List (String × CodeFailure)) : List GenerationAttempt :=
  failed.zipIdx.map fun f => ⟨f.2 + 1, some f.1.2⟩

def lastFailure (e : AdaptationError) (failed : List (String × CodeFailure)) : AdaptationError :=
  if 1 < parts.maxAttempts then
    { e with context := e.context.set "attempts" (.dicts ((traceOf failed).map GenerationAttempt.dict)) }
  else e

def attempts (prompt : Prompt) : Nat → List (String × CodeFailure) →
    Act (Logged ω (Event M)) AdaptationError (M × List GenerationAttempt)
  | 0, _ => .raise (pythonError "UnboundLocalError")
  | left + 1, failed => do
    let attempt := failed.length + 1
    let raw ← ask parts prompt (userPrompt parts call failed) attempt
    let code := extractCode raw
    let result ← (scan parts code >>= fun _ => runSandboxed parts call code (attemptDir call attempt)).catching caught
    match result with
    | .ok model => pure (model, traceOf failed ++ [⟨attempt, none⟩])
    | .error e =>
      let failed := failed ++ [(code, failureOf parts.showDict e)]
      if left = 0 then .raise (lastFailure parts e failed)
      else attempts prompt left failed

def adaptViaLlm : Act (Logged ω (Event M)) AdaptationError CandidateModel := do
  let prompt ← .ofExcept parts.getPrompt
  let (model, trace) ← attempts parts call prompt parts.maxAttempts []
  let path := joinPath call.workdir "model.joblib"
  let _ ← (parts.dump path model).noted (.dumped path model)
  pure { engine := llmGenerated, framework := call.framework, modelClass := parts.className model, artifactPath := path,
         nTrainRows := call.rows.length, featureNames := call.featureNames, targetColumn := call.targetColumn,
         generationAttempts := trace }

end

end LlmAdapter

end OranAdapt
