import OranAdapt.CodeAttempts
import OranAdapt.ModelTypes
import OranAdapt.VersionContents

/-!
# How a candidate is produced

`orchestrator.pipeline._produce_candidate`: the model's own plugin first, the
LLM where the plugin has nothing for the strategy, and a full retrain where the
LLM fails too and the model supports one.

Whatever the plugins, the LLM and the sandbox do: an engine is called only for
what the artifact supports, the LLM is asked only where the plugin has nothing,
a candidate says truly how it was made, and an LLM that fails leaves the job
where it would be without one.
-/

namespace OranAdapt

open Effects Adaptation

/-- What `_produce_candidate` is given. -/
structure CandidateRequest (M : Type) where
  strategy : AdaptationStrategy
  model : M
  inspection : ModelInspection
  framework : String
  rows : List Row
  featureNames : List String
  targetColumn : String
  workdir : String

inductive CandidateEvent (M : Type) where
  /-- what the plugin refused the strategy with, if it did -/
  | checked (strategy : AdaptationStrategy) (refusal : Option AdaptationError)
  | engine (strategy : AdaptationStrategy) (data : TrainingSet) (end_ : Ended AdaptationError CandidateModel)
  | adapter (event : LlmAdapter.Event M)
  | llmFailed (reason : String)

def llmFailureReason (e : AdaptationError) : String :=
  if e.cls.isLlmUnavailable then e.cls.llmReason
  else if e.cls.isUnsafeCode then "unsafe_code"
  else "sandbox_failed"

def isLlmFailure (e : AdaptationError) : Bool :=
  e.cls.isLlmUnavailable || e.cls.isUnsafeCode || e.cls.isSandboxExecution

namespace CandidateRequest

section
variable {ω M : Type} (text : PyText) (types : ModelTypes ω M) (req : CandidateRequest M)

def capability : CapabilityAssessment := assessCapability text req.inspection req.featureNames

def data : TrainingSet := ⟨req.rows, req.featureNames, req.targetColumn, joinPath req.workdir "engine"⟩

def effective : AdaptationStrategy × String :=
  if req.strategy = .fineTuning ∧ (req.capability text).supportsFineTuning = false ∧
      (req.capability text).supportsFullRetraining = true then
    (.fullRetraining, "fine-tuning is not supported (" ++ (req.capability text).reason ++ "); fully retrained instead")
  else (req.strategy, "")

def retrainInstead : Bool := (req.effective text).1 == .fineTuning && (req.capability text).supportsFullRetraining

def refusalIn {α : Type} : Ended AdaptationError α → Option AdaptationError
  | .raised e => some e
  | _ => none

def native (chosen : AdaptationStrategy) : Act (Logged ω (CandidateEvent M)) AdaptationError CandidateModel := do
  let port ← (Act.ofExcept (types.checkAdapt chosen req.inspection (req.capability text))).noted fun o =>
    .checked chosen (refusalIn o)
  (port.adapt req.model chosen req.inspection req.data).noted (.engine chosen req.data)

def applied (candidate : CandidateModel) (chosen : AdaptationStrategy) (why : String) : CandidateModel :=
  { candidate with appliedStrategy := some chosen, adaptationNote := why }

def retrained (why : String) : Act (Logged ω (CandidateEvent M)) AdaptationError CandidateModel := do
  let candidate ← req.native text types .fullRetraining
  pure (applied candidate .fullRetraining why)

def call : LlmAdapter.Call M where
  current := req.model
  framework := req.framework
  modelClass := req.inspection.modelClass
  rows := req.rows
  featureNames := req.featureNames
  targetColumn := req.targetColumn
  workdir := joinPath req.workdir "llm"

def noLlmNote : String :=
  req.inspection.modelClass ++ " can only be fine-tuned through the LLM adapter " ++
    "(no native fine-tuning engine) and no LLM is configured; fully retrained"

def llmNote (reason : String) : String :=
  "the LLM adapter could not fine-tune " ++ req.inspection.modelClass ++ " (" ++ reason ++ "); fully retrained instead"

/-- The deterministic rule where neither the plugin nor the LLM has a candidate. -/
def fallBack (unsupported : AdaptationError) (why : String) :
    Act (Logged ω (CandidateEvent M)) AdaptationError CandidateModel :=
  if req.retrainInstead text then req.retrained text types why else .raise unsupported

def viaLlm (parts : LlmAdapter.Parts ω M) (onFailure : AdaptationError → String → Act ω AdaptationError Unit)
    (unsupported : AdaptationError) : Act (Logged ω (CandidateEvent M)) AdaptationError CandidateModel := do
  let answer ← ((LlmAdapter.adaptViaLlm parts req.call).relog CandidateEvent.adapter).catching isLlmFailure
  match answer with
  | .ok candidate => pure (applied candidate (req.effective text).1 (req.effective text).2)
  | .error e => do
    let reason := llmFailureReason e
    (onFailure e reason).noted fun _ => .llmFailed reason
    req.fallBack text types unsupported (req.llmNote reason)

def withoutEngine (llm : Option (LlmAdapter.Parts ω M))
    (onFailure : AdaptationError → String → Act ω AdaptationError Unit) (unsupported : AdaptationError) :
    Act (Logged ω (CandidateEvent M)) AdaptationError CandidateModel :=
  match llm with
  | none => req.fallBack text types unsupported req.noLlmNote
  | some parts => req.viaLlm text types parts onFailure unsupported

def produce (llm : Option (LlmAdapter.Parts ω M)) (onFailure : AdaptationError → String → Act ω AdaptationError Unit) :
    Act (Logged ω (CandidateEvent M)) AdaptationError CandidateModel := do
  let first ← (req.native text types (req.effective text).1).catching (·.cls.isUnsupported)
  match first with
  | .ok candidate => pure (applied candidate (req.effective text).1 (req.effective text).2)
  | .error unsupported => req.withoutEngine text types llm onFailure unsupported

end

section
variable {ω M : Type} (text : PyText) (types : ModelTypes ω M) (req : CandidateRequest M)
  (llm : Option (LlmAdapter.Parts ω M))

/-! ## What a log shows -/

/-- What the artifact, its columns and its plugin allow. -/
structure Supported (chosen : AdaptationStrategy) : Prop where
  engine : ∃ name port, req.inspection.modelType = some name ∧ types.types.lookup name = some port ∧
    chosen ∈ port.engines.map Prod.fst
  fineTuning : chosen = .fineTuning → (req.capability text).supportsFineTuning = true
  schema : (req.capability text).supportsFullRetraining = true

/-- The plugin has nothing for the strategy: it refuses it, or its engine does. -/
def Unsupported (log : List (CandidateEvent M)) : Prop := ∃ e, e.cls.isUnsupported = true ∧
  (log = [.checked (req.effective text).1 (some e)] ∨
    log = [.checked (req.effective text).1 none, .engine (req.effective text).1 req.data (.raised e)])

/-- Neither the plugin nor the LLM has a candidate. -/
def Exhausted (log : List (CandidateEvent M)) : Prop := ∃ tried, req.Unsupported text tried ∧
  match llm with
  | none => log = tried
  | some _ => ∃ events reason, log = tried ++ List.map .adapter events ++ [.llmFailed reason]

/-- The LLM is at work where the plugin has nothing. -/
def Writing (before : List (CandidateEvent M)) (parts : LlmAdapter.Parts ω M) (events : List (LlmAdapter.Event M)) : Prop :=
  llm = some parts ∧ ∃ tried, req.Unsupported text tried ∧ before = tried ++ events.map .adapter

def Proper (before : List (CandidateEvent M)) : CandidateEvent M → Prop
  | .checked chosen _ => before = [] ∧ chosen = (req.effective text).1 ∨
      req.Exhausted text llm before ∧ chosen = .fullRetraining ∧ req.retrainInstead text = true
  | .engine chosen data _ => data = req.data ∧ req.Supported text types chosen ∧
      ∃ earlier, before = earlier ++ [.checked chosen none]
  | .adapter event => ∃ parts events, req.Writing text llm before parts events ∧
      LlmAdapter.Proper parts req.call events event
  | .llmFailed _ => ∃ parts events, req.Writing text llm before parts events

inductive Made (log : List (CandidateEvent M)) (chosen : AdaptationStrategy) (made : CandidateModel) : Prop where
  | engine (earlier : List (CandidateEvent M)) (hlog : log = earlier ++ [.engine chosen req.data (.done made)])
  | llm (earlier : List (CandidateEvent M)) (run : LlmAdapter.SandboxRun M) (model : M)
      (hlog : log = earlier ++ [.adapter (.ran run (.done model)), .adapter (.dumped made.artifactPath model (.done ()))])
      (hengine : made.engine = llmGenerated)

/-- A candidate tells the strategy that was applied, and in a note why it is not the one decided. -/
def Truthful (log : List (CandidateEvent M)) (c : CandidateModel) : Prop :=
  ∃ made chosen note, req.Made log chosen made ∧ c = applied made chosen note ∧
    (chosen = req.strategy ∧ note = "" ∨ req.strategy = .fineTuning ∧ chosen = .fullRetraining ∧ note ≠ "")

end

section
variable {ω M : Type} {text : PyText} {types : ModelTypes ω M} {req : CandidateRequest M}
  {llm : Option (LlmAdapter.Parts ω M)}
  {before : List (CandidateEvent M)} {chosen : AdaptationStrategy} {parts : LlmAdapter.Parts ω M}

theorem supported_of_checked {port : ModelTypePort ω M}
    (h : types.checkAdapt chosen req.inspection (req.capability text) = .ok port) : req.Supported text types chosen := by
  obtain ⟨⟨name, hname, hport⟩, hengine, hfine, hfull⟩ := ModelTypes.checkAdapt_ok h
  exact ⟨⟨name, port, hname, hport, hengine⟩, hfine, hfull⟩

variable (text req) in
theorem effective_note : (req.effective text).1 = req.strategy ∧ (req.effective text).2 = "" ∨
    req.strategy = .fineTuning ∧ (req.effective text).1 = .fullRetraining ∧ (req.effective text).2 ≠ "" := by
  unfold effective
  split
  · rename_i h
    refine .inr ⟨h.1, rfl, fun hempty => ?_⟩
    have hlen := congrArg String.length hempty
    simp only [String.length_append] at hlen
    have hprefix : "fine-tuning is not supported (".length = 30 := by decide
    have hnone : "".length = 0 := rfl
    omega
  · exact .inl ⟨rfl, rfl⟩

theorem strategy_of_retrain (h : req.retrainInstead text = true) : req.strategy = .fineTuning := by
  unfold retrainInstead at h
  rw [Bool.and_eq_true, beq_iff_eq] at h
  rcases effective_note text req with ⟨heq, -⟩ | ⟨hfine, -, -⟩
  · rw [← heq]
    exact h.1
  · exact hfine

/-! ## Each step -/

variable (types before chosen) in
theorem native_watches (hchecked : ∀ refusal, req.Proper text types llm before (.checked chosen refusal)) :
    Watches (Monitor.history (req.Proper text types llm)) (req.native text types chosen) before
      (fun c log => log = before ++ [.checked chosen none, .engine chosen req.data (.done c)])
      (fun e log => e.cls.isUnsupported = true → log = before ++ [.checked chosen (some e)] ∨
        log = before ++ [.checked chosen none, .engine chosen req.data (.raised e)])
      fun _ => True := by
  unfold native
  apply Watches.bind (D := fun port log => log = before ++ [.checked chosen none] ∧
    types.checkAdapt chosen req.inspection (req.capability text) = .ok port)
  · apply Watches.noted
    · intro w port h
      refine ⟨_, Monitor.history_some (hchecked none), rfl, ?_⟩
      cases hc : types.checkAdapt chosen req.inspection (req.capability text) with
      | ok port' =>
        rw [hc] at h
        cases h
        rfl
      | error e =>
        rw [hc] at h
        cases h
    · intro w e h
      exact ⟨_, Monitor.history_some (hchecked (some e)), fun _ => .inl rfl⟩
    · intro w h
      exact ⟨_, Monitor.history_some (hchecked none), trivial⟩
  · rintro port log ⟨rfl, hport⟩
    have hengine : ∀ o, req.Proper text types llm (before ++ [.checked chosen none]) (.engine chosen req.data o) :=
      fun o => ⟨rfl, supported_of_checked hport, before, rfl⟩
    apply Watches.noted
    · intro w c _
      exact ⟨_, Monitor.history_some (hengine _), List.append_assoc _ _ _⟩
    · intro w e _
      exact ⟨_, Monitor.history_some (hengine _), fun _ => .inr (List.append_assoc _ _ _)⟩
    · intro w _
      exact ⟨_, Monitor.history_some (hengine _), trivial⟩

theorem retrained_watches {why : String} (hexhausted : req.Exhausted text llm before)
    (hretrain : req.retrainInstead text = true)
    (hwhy : why ≠ "") : Watches (Monitor.history (req.Proper text types llm)) (req.retrained text types why) before
      (fun c log => req.Truthful log c) (fun _ _ => True) fun _ => True := by
  unfold retrained
  have hnative := native_watches types before .fullRetraining fun _ =>
    Or.inr ⟨hexhausted, rfl, hretrain⟩
  apply Watches.bind (hnative.mono (fun _ _ h => h) (fun _ _ _ => trivial) fun _ h => h)
  rintro made log rfl
  apply Watches.ret
  have hmade : req.Made (before ++ [.checked .fullRetraining none, .engine .fullRetraining req.data (.done made)])
      .fullRetraining made := .engine (before ++ [.checked .fullRetraining none]) (by rw [List.append_assoc]; rfl)
  exact ⟨made, .fullRetraining, why, hmade, rfl, .inr ⟨strategy_of_retrain hretrain, rfl, hwhy⟩⟩

theorem fallBack_watches {unsupported : AdaptationError} {why : String} (hexhausted : req.Exhausted text llm before)
    (hwhy : why ≠ "") : Watches (Monitor.history (req.Proper text types llm))
      (req.fallBack text types unsupported why) before
      (fun c log => req.Truthful log c) (fun _ _ => True) fun _ => True := by
  unfold fallBack
  split
  · rename_i hretrain
    exact retrained_watches hexhausted hretrain hwhy
  · exact .raise trivial

theorem adapter_watches {tried : List (CandidateEvent M)} (htried : req.Unsupported text tried) :
    Watches (Monitor.history (req.Proper text types (some parts)))
      ((LlmAdapter.adaptViaLlm parts req.call).relog CandidateEvent.adapter) tried
      (fun c log => (∃ earlier run model, log = earlier ++
        [.adapter (.ran run (.done model)), .adapter (.dumped c.artifactPath model (.done ()))]) ∧ c.engine = llmGenerated)
      (fun _ log => ∃ events, log = tried ++ List.map .adapter events) fun _ => True := by
  apply Watches.relog
  have hattempts := LlmAdapter.adaptViaLlm_watches parts req.call
  have hstart : LlmAdapter.Knows parts req.call [] (.asking []) :=
    ⟨rfl, rfl, Nat.zero_le _, fun _ _ hmem => by cases hmem⟩
  refine (hattempts.simulate (fun q log => ∃ events, log = tried ++ List.map .adapter events ∧
    LlmAdapter.Knows parts req.call events q) ⟨[], (List.append_nil _).symm, hstart⟩ ?_).mono ?_ ?_ ?_
  · rintro q log i q' ⟨events, rfl, hknows⟩ hq
    obtain ⟨hproper, hknows'⟩ := LlmAdapter.knows_step hknows hq
    refine ⟨_, Monitor.history_some ⟨parts, events, ⟨rfl, tried, htried, rfl⟩, hproper⟩,
      events ++ [i], ?_, hknows'⟩
    rw [List.map_append, List.append_assoc]
    rfl
  · rintro c log ⟨q, ⟨events, rfl, hknows⟩, failed, model, rfl, -, hengine, -, hpath⟩
    obtain ⟨-, -, -, earlier, run, rfl⟩ := hknows
    refine ⟨⟨tried ++ List.map .adapter earlier, run, model, ?_⟩, hengine⟩
    rw [hpath, List.map_append, List.append_assoc]
    rfl
  · rintro e log ⟨q, ⟨events, rfl, -⟩, -⟩
    exact ⟨events, rfl⟩
  · exact fun _ _ => trivial

theorem llmNote_ne (reason : String) : req.llmNote reason ≠ "" := by
  intro hempty
  have hlen := congrArg String.length hempty
  unfold llmNote at hlen
  simp only [String.length_append] at hlen
  have hprefix : "the LLM adapter could not fine-tune ".length = 36 := by decide
  have hnone : "".length = 0 := rfl
  omega

theorem noLlmNote_ne : req.noLlmNote ≠ "" := by
  intro hempty
  have hlen := congrArg String.length hempty
  unfold noLlmNote at hlen
  simp only [String.length_append] at hlen
  have hsuffix : "(no native fine-tuning engine) and no LLM is configured; fully retrained".length = 72 := by decide
  have hnone : "".length = 0 := rfl
  omega

theorem viaLlm_watches {onFailure : AdaptationError → String → Act ω AdaptationError Unit}
    {unsupported : AdaptationError}
    {tried : List (CandidateEvent M)} (htried : req.Unsupported text tried) :
    Watches (Monitor.history (req.Proper text types (some parts))) (req.viaLlm text types parts onFailure unsupported) tried
      (fun c log => req.Truthful log c) (fun _ _ => True) fun _ => True := by
  unfold viaLlm
  apply Watches.bind_catching (adapter_watches htried)
  · rintro c log ⟨⟨earlier, run, model, hlog⟩, hengine⟩
    exact .ret ⟨c, _, _, .llm earlier run model hlog hengine, rfl, effective_note text req⟩
  · rintro e _ _ ⟨events, rfl⟩
    have hfailed : req.Proper text types (some parts) (tried ++ List.map .adapter events) (.llmFailed (llmFailureReason e)) :=
      ⟨parts, events, rfl, tried, htried, rfl⟩
    apply Watches.bind (D := fun _ log => log = tried ++ List.map .adapter events ++ [.llmFailed (llmFailureReason e)])
    · apply Watches.noted
      · exact fun _ _ _ => ⟨_, Monitor.history_some hfailed, rfl⟩
      · exact fun _ _ _ => ⟨_, Monitor.history_some hfailed, trivial⟩
      · exact fun _ _ => ⟨_, Monitor.history_some hfailed, trivial⟩
    · rintro u log rfl
      exact fallBack_watches ⟨tried, htried, events, _, rfl⟩ (llmNote_ne _)
  · exact fun _ _ _ _ => trivial

variable (text types req llm) in
theorem produce_watches (onFailure : AdaptationError → String → Act ω AdaptationError Unit) :
    Watches (Monitor.history (req.Proper text types llm)) (req.produce text types llm onFailure) []
      (fun c log => req.Truthful log c) (fun _ _ => True) fun _ => True := by
  unfold produce
  apply Watches.bind_catching (native_watches types [] _ fun _ => .inl ⟨rfl, rfl⟩)
  · intro c log h
    apply Watches.ret
    exact ⟨c, _, _, .engine [.checked (req.effective text).1 none] h, rfl, effective_note text req⟩
  · intro unsupported log hc h
    have htried : req.Unsupported text log := ⟨unsupported, hc, h hc⟩
    dsimp only
    unfold withoutEngine
    cases llm with
    | none => exact fallBack_watches ⟨log, htried, rfl⟩ noLlmNote_ne
    | some parts => exact viaLlm_watches htried
  · exact fun _ _ _ _ => trivial

end

/-- An engine is called only for what the artifact and its plugin support and only with the job's
data, the LLM is asked only where the plugin has nothing, full retraining steps in only where both
have nothing, and a candidate tells how it was made. -/
theorem produce_proper {ω M : Type} (text : PyText) (types : ModelTypes ω M) (req : CandidateRequest M)
    (llm : Option (LlmAdapter.Parts ω M)) (onFailure : AdaptationError → String → Act ω AdaptationError Unit) (w : ω) :
    Each (req.Proper text types llm) (req.produce text types llm onFailure ⟨w, []⟩).2.log ∧
      ∀ c, (req.produce text types llm onFailure ⟨w, []⟩).1 = .done c →
        req.Truthful (req.produce text types llm onFailure ⟨w, []⟩).2.log c := by
  obtain ⟨log, hread, hend⟩ := (produce_watches text types req llm onFailure).run w
  obtain ⟨rfl, heach⟩ := Monitor.read_history hread
  refine ⟨heach, fun c hc => ?_⟩
  rw [hc] at hend
  exact hend

/-! ## With an LLM and without -/

section
variable {ω M υ : Type}

/-- What the engines see is not what the LLM path writes. `view` is what they see. -/
structure Apart (view : ω → υ) (types : ModelTypes ω M) (parts : LlmAdapter.Parts ω M)
    (onFailure : AdaptationError → String → Act ω AdaptationError Unit) : Prop where
  engine : ∀ t ∈ types.types, ∀ model chosen inspection data w w', view w = view w' →
    (t.2.adapt model chosen inspection data w).1 = (t.2.adapt model chosen inspection data w').1 ∧
      view (t.2.adapt model chosen inspection data w).2 = view (t.2.adapt model chosen inspection data w').2
  complete : ∀ system user v, Keeps (fun w => view w = v) (parts.llm.complete system user)
  sandbox : ∀ run v, Keeps (fun w => view w = v) (parts.runSandboxed run)
  dump : ∀ path model v, Keeps (fun w => view w = v) (parts.dump path model)
  told : ∀ e reason v, Keeps (fun w => view w = v) (onFailure e reason)

/-- Two ends that differ in the candidate's note at most. -/
def SameButNote : Ended AdaptationError CandidateModel → Ended AdaptationError CandidateModel → Prop
  | .done c, .done c' => { c with adaptationNote := c'.adaptationNote } = c'
  | .raised e, .raised e' => e = e'
  | .stopped, .stopped => True
  | _, _ => False

/-- What the LLM path comes to from the world it starts in, where it does not fall back. -/
inductive OfLlm (text : PyText) (req : CandidateRequest M) (parts : LlmAdapter.Parts ω M)
    (onFailure : AdaptationError → String → Act ω AdaptationError Unit) (w : ω) :
    Ended AdaptationError CandidateModel → Prop where
  | candidate (c : CandidateModel) (h : (LlmAdapter.adaptViaLlm parts req.call ⟨w, []⟩).1 = .done c) :
      OfLlm text req parts onFailure w (.done (applied c (req.effective text).1 (req.effective text).2))
  | escaped (e : AdaptationError) (h : (LlmAdapter.adaptViaLlm parts req.call ⟨w, []⟩).1 = .raised e)
      (huncaught : isLlmFailure e = false) : OfLlm text req parts onFailure w (.raised e)
  | stopped (h : (LlmAdapter.adaptViaLlm parts req.call ⟨w, []⟩).1 = .stopped) : OfLlm text req parts onFailure w .stopped
  -- the failure was caught, and telling it failed or stopped in turn
  | untold (failure e : AdaptationError) (s : Logged ω (LlmAdapter.Event M))
      (h : LlmAdapter.adaptViaLlm parts req.call ⟨w, []⟩ = (.raised failure, s)) (hcaught : isLlmFailure failure = true)
      (htold : (onFailure failure (llmFailureReason failure) s.world).1 =
        .raised e) : OfLlm text req parts onFailure w (.raised e)
  | untoldStopped (failure : AdaptationError) (s : Logged ω (LlmAdapter.Event M))
      (h : LlmAdapter.adaptViaLlm parts req.call ⟨w, []⟩ = (.raised failure, s)) (hcaught : isLlmFailure failure = true)
      (htold : (onFailure failure (llmFailureReason failure) s.world).1 =
        .stopped) : OfLlm text req parts onFailure w .stopped

/-- The world that the LLM path starts in: what the plugin's try leaves. -/
def llmStart (text : PyText) (types : ModelTypes ω M) (req : CandidateRequest M) (w : ω) : ω :=
  (req.native text types (req.effective text).1 ⟨w, []⟩).2.world

variable {view : ω → υ} {text : PyText} {types : ModelTypes ω M} {req : CandidateRequest M}
  {parts : LlmAdapter.Parts ω M}
  {onFailure : AdaptationError → String → Act ω AdaptationError Unit}

theorem attempts_keep (h : Apart view types parts onFailure) (v : υ) {prompt : Prompt} : ∀ (left : Nat)
    (failed : List (String × CodeFailure)),
    Keeps (fun s => view s.world = v) (LlmAdapter.attempts parts req.call prompt left failed) := by
  intro left
  induction left with
  | zero => exact fun failed => .raise _
  | succ left ih =>
    intro failed
    unfold LlmAdapter.attempts
    apply Keeps.bind (h.complete _ _ v).noted
    intro raw
    apply Keeps.bind
    · apply Keeps.catching
      exact Keeps.bind (Keeps.noted (I := fun w => view w = v) (.ofExcept _)) fun _ => (h.sandbox _ v).noted
    · intro result
      cases result with
      | ok model => exact .ret _
      | error e =>
        dsimp only
        split
        · exact .raise _
        · exact ih _

theorem adaptViaLlm_keeps (h : Apart view types parts onFailure) (v : υ) :
    Keeps (fun s => view s.world = v) (LlmAdapter.adaptViaLlm parts req.call) := by
  unfold LlmAdapter.adaptViaLlm
  apply Keeps.bind (.ofExcept _)
  intro prompt
  apply Keeps.bind (attempts_keep h v _ _)
  intro answer
  exact (h.dump _ _ v).noted.bind fun _ => .ret _

variable (text req) in
/-- An engine does the same in worlds that look the same to it. -/
theorem native_alike (h : Apart view types parts onFailure) (chosen : AdaptationStrategy)
    {s s' : Logged ω (CandidateEvent M)}
    (hview : view s.world = view s'.world) :
    (req.native text types chosen s).1 = (req.native text types chosen s').1 ∧
      view (req.native text types chosen s).2.world = view (req.native text types chosen s').2.world := by
  unfold native
  cases hc : types.checkAdapt chosen req.inspection (req.capability text) with
  | error e =>
    have hnoted : ∀ s : Logged ω (CandidateEvent M),
      (Act.ofExcept (.error e : Except AdaptationError (ModelTypePort ω M))).noted
        (fun o => CandidateEvent.checked chosen (refusalIn o)) s =
            (.raised e, ⟨s.world, s.log ++ [.checked chosen (some e)]⟩) :=
      fun _ => rfl
    rw [Act.bind_raised (hnoted s), Act.bind_raised (hnoted s')]
    exact ⟨rfl, hview⟩
  | ok port =>
    have hnoted : ∀ s : Logged ω (CandidateEvent M),
      (Act.ofExcept (.ok port : Except AdaptationError (ModelTypePort ω M))).noted
        (fun o => CandidateEvent.checked chosen (refusalIn o)) s =
            (.done port, ⟨s.world, s.log ++ [.checked chosen none]⟩) :=
      fun _ => rfl
    rw [Act.bind_done (hnoted s), Act.bind_done (hnoted s')]
    obtain ⟨⟨name, -, hport⟩, -⟩ := ModelTypes.checkAdapt_ok hc
    exact h.engine _ (Table.lookup_mem hport) req.model chosen req.inspection req.data _ _ hview

theorem fallBack_alike (h : Apart view types parts onFailure) (unsupported : AdaptationError) (why why' : String)
    {s s' : Logged ω (CandidateEvent M)} (hview : view s.world = view s'.world) :
    SameButNote (req.fallBack text types unsupported why s).1 (req.fallBack text types unsupported why' s').1 ∧
      view (req.fallBack text types unsupported why s).2.world =
        view (req.fallBack text types unsupported why' s').2.world := by
  unfold fallBack
  split
  · obtain ⟨hend, hafter⟩ := native_alike text req h .fullRetraining hview
    unfold retrained
    cases hrun : req.native text types .fullRetraining s with
    | mk o s₁ =>
      cases hrun' : req.native text types .fullRetraining s' with
      | mk o' s₁' =>
        rw [hrun, hrun'] at hend hafter
        dsimp only at hend hafter
        subst hend
        cases o with
        | done c =>
          rw [Act.bind_done hrun, Act.bind_done hrun']
          exact ⟨rfl, hafter⟩
        | raised e =>
          rw [Act.bind_raised hrun, Act.bind_raised hrun']
          exact ⟨rfl, hafter⟩
        | stopped =>
          rw [Act.bind_stopped hrun, Act.bind_stopped hrun']
          exact ⟨trivial, hafter⟩
  · exact ⟨rfl, hview⟩

/-- With an LLM at hand the job comes to what the LLM path comes to, or to what it comes to without one but for a note. -/
theorem viaLlm_alike (h : Apart view types parts onFailure) (unsupported : AdaptationError)
    {s s' : Logged ω (CandidateEvent M)} (hview : view s.world = view s'.world) :
    OfLlm text req parts onFailure s.world (req.viaLlm text types parts onFailure unsupported s).1 ∨
      SameButNote (req.viaLlm text types parts onFailure unsupported s).1
        (req.fallBack text types unsupported req.noLlmNote s').1 ∧
      view (req.viaLlm text types parts onFailure unsupported s).2.world =
        view (req.fallBack text types unsupported req.noLlmNote s').2.world := by
  have hkept : view (LlmAdapter.adaptViaLlm parts req.call ⟨s.world, []⟩).2.world = view s.world :=
    (adaptViaLlm_keeps h (view s.world)).after rfl
  unfold viaLlm
  cases hrun : LlmAdapter.adaptViaLlm parts req.call ⟨s.world, []⟩ with
  | mk o s₁ =>
    rw [hrun] at hkept
    dsimp only at hkept
    have hend : (LlmAdapter.adaptViaLlm parts req.call ⟨s.world, []⟩).1 = o := by rw [hrun]
    have hadapter := Act.relog_eq CandidateEvent.adapter s.log hrun
    cases o with
    | done c =>
      rw [Act.bind_done (Act.catching_done hadapter)]
      exact .inl (.candidate c hend)
    | stopped =>
      rw [Act.bind_stopped (Act.catching_stopped hadapter)]
      exact .inl (.stopped hend)
    | raised e =>
      have hcatching := Act.catching_raised isLlmFailure hadapter
      cases hcaught : isLlmFailure e with
      | false =>
        rw [hcaught] at hcatching
        rw [Act.bind_raised hcatching]
        exact .inl (.escaped e hend hcaught)
      | true =>
        rw [hcaught] at hcatching
        rw [Act.bind_done hcatching]
        dsimp only
        have hkept' := (h.told e (llmFailureReason e) (view s.world)).after hkept
        cases htold : onFailure e (llmFailureReason e) s₁.world with
        | mk o w₂ =>
          rw [htold] at hkept'
          have hend' : (onFailure e (llmFailureReason e) s₁.world).1 = o := by rw [htold]
          have hnoted := Act.noted_eq (fun _ => CandidateEvent.llmFailed (llmFailureReason e))
            (s.log ++ s₁.log.map CandidateEvent.adapter) htold
          cases o with
          | done u =>
            rw [Act.bind_done hnoted]
            exact .inr (fallBack_alike h unsupported _ _ (hkept'.trans hview))
          | raised e' =>
            rw [Act.bind_raised hnoted]
            exact .inl (.untold e e' s₁ hrun hcaught hend')
          | stopped =>
            rw [Act.bind_stopped hnoted]
            exact .inl (.untoldStopped e s₁ hrun hcaught hend')

/-- An LLM never makes it worse: the job ends with the LLM's candidate, or with an exception that
the three handlers do not catch, or as it does without an LLM, the candidate's note apart. -/
theorem produce_llm (h : Apart view types parts onFailure) {w w' : ω} (hview : view w = view w') :
    OfLlm text req parts onFailure (llmStart text types req w)
      (req.produce text types (some parts) onFailure ⟨w, []⟩).1 ∨
      SameButNote (req.produce text types (some parts) onFailure ⟨w, []⟩).1
        (req.produce text types none onFailure ⟨w', []⟩).1 ∧
      view (req.produce text types (some parts) onFailure ⟨w, []⟩).2.world =
        view (req.produce text types none onFailure ⟨w', []⟩).2.world := by
  have hstart : view (⟨w, []⟩ : Logged ω (CandidateEvent M)).world =
    view (⟨w', []⟩ : Logged ω (CandidateEvent M)).world := hview
  obtain ⟨hend, hafter⟩ := native_alike text req h (req.effective text).1 hstart
  unfold produce llmStart
  cases hrun : req.native text types (req.effective text).1 ⟨w, []⟩ with
  | mk o s =>
    cases hrun' : req.native text types (req.effective text).1 ⟨w', []⟩ with
    | mk o' s' =>
      rw [hrun, hrun'] at hend hafter
      dsimp only at hend hafter
      subst hend
      cases o with
      | done c =>
        rw [Act.bind_done (Act.catching_done hrun), Act.bind_done (Act.catching_done hrun')]
        exact .inr ⟨rfl, hafter⟩
      | stopped =>
        rw [Act.bind_stopped (Act.catching_stopped hrun), Act.bind_stopped (Act.catching_stopped hrun')]
        exact .inr ⟨trivial, hafter⟩
      | raised e =>
        have hcatching := Act.catching_raised (fun e : AdaptationError => e.cls.isUnsupported) hrun
        have hcatching' := Act.catching_raised (fun e : AdaptationError => e.cls.isUnsupported) hrun'
        cases hcaught : e.cls.isUnsupported with
        | false =>
          rw [hcaught] at hcatching hcatching'
          rw [Act.bind_raised hcatching, Act.bind_raised hcatching']
          exact .inr ⟨rfl, hafter⟩
        | true =>
          rw [hcaught] at hcatching hcatching'
          rw [Act.bind_done hcatching, Act.bind_done hcatching']
          exact viaLlm_alike h e hafter

end

/-! ### A model that only the LLM could fine-tune, with the LLM away -/

/-- What was written under the engine's directory and under the LLM's. -/
abbrev Workdir := List String × List String

def asciiText : PyText where
  float _ := "nan"
  fixed3 _ := "nan"
  quoted s := "'" ++ s ++ "'"
  lower := String.toLower

def retrainOnly : ModelTypePort Workdir Unit where
  frameworks := ["sklearn"]
  engines := [(.fullRetraining, "SKLEARN_FULL_RETRAIN")]
  accepts _ _ := pure true
  inspect _ framework := pure { framework, modelClass := "SGDRegressor", supportsPartialFit := true }
  adapt _ _ inspection data := fun w =>
    (.done { engine := "SKLEARN_FULL_RETRAIN", framework := inspection.framework, modelClass := inspection.modelClass
             artifactPath := data.artifactDir ++ "/model.joblib", nTrainRows := data.rows.length
             featureNames := data.featureNames, targetColumn := data.targetColumn },
      (w.1 ++ [data.artifactDir ++ "/model.joblib"], w.2))

def sklearnOnly : ModelTypes Workdir Unit where
  text := asciiText
  className _ := "SGDRegressor"
  types := [("sklearn", retrainOnly)]

def awayParts : LlmAdapter.Parts Workdir Unit where
  text := asciiText
  showDict _ := "\x7b\x7d"
  sha256 s := s
  getPrompt := .ok ⟨"adaptation-code", "1", "Define exactly one top-level function adapt(current_model, X, y)."⟩
  maxAttempts := 2
  attempts_pos := Nat.two_pos
  llm := ⟨fun _ _ => .raise ⟨.other "LLM_UNAVAILABLE", "connection refused", []⟩⟩
  python := ⟨fun _ => .error (pythonError "SyntaxError"), fun _ => false⟩
  runSandboxed run := fun w => (.done run.current, (w.1, w.2 ++ [run.workdir]))
  dump path _ := fun w => (.done (), (w.1, w.2 ++ [path]))
  className _ := "SGDRegressor"

theorem load_wellFormed (load throughput : Int) :
    (Json.obj [("load", .int load), ("throughput", .int throughput)]).WellFormed := by
  have hsorted : ["load", "throughput"].Pairwise (· < ·) := by decide +kernel
  refine .obj hsorted ?_
  intro f hf
  rcases List.mem_cons.mp hf with rfl | hf
  · exact .int load
  · rw [List.mem_singleton.mp hf]
    exact .int throughput

def noon : DateTime := VersionCall.atHour 12

def loadRow (id : Int) (load throughput : Int) : Row :=
  ⟨id, 1, noon, ⟨[("load", .int load), ("throughput", .int throughput)], load_wellFormed load throughput⟩, none⟩

def fineTuned : CandidateRequest Unit where
  strategy := .fineTuning
  model := ()
  inspection := { framework := "sklearn", modelClass :=
    "SGDRegressor", supportsPartialFit := true, modelType := some "sklearn" }
  framework := "sklearn"
  rows := [loadRow 1 3 40, loadRow 2 5 60]
  featureNames := ["load"]
  targetColumn := "throughput"
  workdir := "/tmp/job"

theorem away_apart : Apart (fun w : Workdir => w.1) sklearnOnly awayParts fun _ _ => pure () where
  engine := by
    intro t ht model chosen inspection data w w' hview
    rw [List.mem_singleton.mp ht]
    exact ⟨rfl, congrArg (· ++ [data.artifactDir ++ "/model.joblib"]) hview⟩
  complete _ _ _ := by
    intro w h
    exact h
  sandbox _ _ := by
    intro w h
    exact h
  dump _ _ _ := by
    intro w h
    exact h
  told _ _ _ := .ret _

theorem fineTuned_without_llm :
    OfLlm asciiText fineTuned awayParts (fun _ _ => pure ()) (llmStart asciiText sklearnOnly fineTuned ([], ["notes"]))
        (fineTuned.produce asciiText sklearnOnly (some awayParts) (fun _ _ => pure ()) ⟨([], ["notes"]), []⟩).1 ∨
      SameButNote (fineTuned.produce asciiText sklearnOnly (some awayParts) (fun _ _ => pure ()) ⟨([], ["notes"]), []⟩).1
        (fineTuned.produce asciiText sklearnOnly none (fun _ _ => pure ()) ⟨([], []), []⟩).1 ∧
      (fineTuned.produce asciiText sklearnOnly (some awayParts) (fun _ _ => pure ()) ⟨([], ["notes"]), []⟩).2.world.1 =
        (fineTuned.produce asciiText sklearnOnly none (fun _ _ => pure ()) ⟨([], []), []⟩).2.world.1 :=
  produce_llm away_apart rfl

end CandidateRequest

end OranAdapt
