import OranAdapt.Candidates
import OranAdapt.Pipeline
import OranAdapt.TrainedSnapshot

/-!
# What a job may do and when

A job as its log tells it, whatever the calls it makes come to: what is known
after each event, and what must be known before the job may go on. The registry
is written and LIVE is moved only past the gates before them, and the result
tells what was done.
-/

namespace OranAdapt

open Effects Adaptation

namespace Pipeline

/-! ## What a log makes known -/

inductive Move where
  | promotion (request : PromotionRequest) (end_ : Ended AdaptationError Unit)
  | rollout (args : RolloutCallArgs) (row : Option RolloutRow)

structure Known where
  stage : JobStatus := .dataPreparing
  /-- the session holds what no commit has made durable -/
  dirty : Bool := false
  live : Option Version := none
  running : Bool := false
  /-- the cleaned rows, and those of them held out -/
  frozen : Option (List Row × List Row) := none
  scores : Option (List VersionEvaluation) := none
  training : Option Training := none
  hashes : List (String × Option String) := []
  report : Option (String × ValidationReport) := none
  registered : Option Version := none
  move : Option Move := none

namespace Known

def next {M : Type} (k : Known) : Event M → Known
  | .liveRead version => { k with live := version }
  | .inFlight found => { k with running := found }
  | .analyzed | .committed false | .asked _ | .checksumRecorded _ | .aliasSet _ _ | .tagged _ => k
  | .frozen source holdout => { k with frozen := some (source.records, holdout), dirty := true }
  | .committed true => { k with dirty := false }
  | .reported status _ => { k with stage := status }
  | .audited _ | .evaluationAdded _ _ | .gateAdded _ | .gateLinked _ | .snapshotted _ => { k with dirty := true }
  | .scored _ evaluations => { k with scores := evaluations }
  | .trainingSet training => { k with training }
  | .candidate _ => k
  | .hashed path sum => { k with hashes := k.hashes ++ [(path, sum)] }
  | .validated artifact _ report => { k with report := report.map fun r => (artifact, r) }
  | .registered _ version => { k with registered := version }
  | .promoted request end_ => { k with move := some (.promotion request end_) }
  | .rolloutStarted args row => { k with move := some (.rollout args row) }

/-- Neither the registry was written nor LIVE moved. -/
def Untouched (k : Known) : Prop := k.registered = none ∧ k.move = none

/-- No call that moves LIVE has returned. -/
def Unmoved (k : Known) : Prop :=
  match k.move with
  | some (.promotion _ (.done _)) | some (.rollout _ (some _)) => False
  | _ => True

theorem unmoved {k : Known} (h : k.move = none) : k.Unmoved := by
  unfold Unmoved
  rw [h]
  trivial

/-- The file was hashed some times, and always to the same. -/
def Hashed (k : Known) (path sha : String) (times : Nat) : Prop := k.hashes = List.replicate times (path, some sha)

/-- A training set of cleaned rows that are not held out, and what of the cleaned rows it leaves out. -/
structure Trains (k : Known) (t : Training) : Prop where
  frozen : ∃ records holdout, k.frozen = some (records, holdout) ∧
    (∀ r ∈ t.rows, r ∈ records ∧ ∀ h ∈ holdout, r.id ≠ h.id) ∧
    ∀ id, id ∈ t.excluded ↔ id ∈ records.map Row.id ∧ id ∉ t.rows.map Row.id

end Known

def known {M : Type} (log : List (Event M)) : Known := log.foldl Known.next {}

/-! ## What must be known before -/

section
variable {ω M : Type} (ports : Ports ω M) (settings : PipelineSettings) (event : DriftRef)

def Reusable (k : Known) (version : Version) : Prop := ∃ evaluations maxPsi reuse, k.scores = some evaluations ∧
  ReuseRule.decideReuse ports.arith settings.reuse evaluations k.live maxPsi = .ok reuse ∧
    reuse.verdict = "REUSE_EXISTING_VERSION" ∧ reuse.selectedVersion = some version

/-- LIVE may be moved: nothing else moved it, and what the session holds is durable. -/
def MayMove (k : Known) : Prop := k.stage = .promoting ∧ k.dirty = false ∧ k.move = none

def Allows (k : Known) : Event M → Prop
  | .committed _ => True
  | .liveRead _ | .inFlight _ => k.Untouched
  | .analyzed => k.running = false
  | .frozen source holdout => k.frozen = none ∧ ∀ r ∈ holdout, r ∈ source.records
  | .reported status _ => k.stage.mayMove status = true ∧ k.dirty = false
  | .audited row => row.jobId = ports.jobId ∧ row.modelId = event.modelId
  | .evaluationAdded version _ => ∃ evaluations, k.scores = some evaluations ∧ version ∈ evaluations.map (·.version)
  | .scored rows _ => k.stage = .evaluatingVersions ∧ ∃ records, k.frozen = some (records, rows)
  | .asked _ => k.stage = .decisionPending
  | .trainingSet training => k.training = none ∧ ∀ t, training = some t → k.Trains t
  | .candidate (.engine _ data _) => k.stage = .adapting ∧ ∃ t, k.training = some t ∧ data.rows = t.rows
  | .candidate (.adapter (.asked _ _)) => k.stage = .adapting ∧ ports.llm.isSome = true
  | .candidate (.adapter (.ran run _)) => k.stage = .adapting ∧ ∃ t, k.training = some t ∧ run.rows = t.rows
  | .candidate _ => k.stage = .adapting
  | .hashed path _ => k.Untouched ∧ ∀ h ∈ k.hashes, h.1 = path
  -- the file that is scored is the one that was made, and it is scored on the held-out rows
  | .validated artifact rows _ => k.stage = .validatingCandidate ∧ (∃ records, k.frozen = some (records, rows)) ∧
    ∃ sha, k.Hashed artifact sha 2
  | .gateAdded verdict => ∃ artifact report, k.report = some (artifact, report) ∧ report.gate = some verdict
  -- the file that is registered is the one that was made and passed
  | .registered call _ => k.stage = .registering ∧ k.dirty = false ∧ k.Untouched ∧
    (∃ report, k.report = some (call.artifactPath, report) ∧ report.passed = true) ∧
      ∃ sha, k.Hashed call.artifactPath sha 3 ∧ ("candidate.sha256", sha) ∈ call.tags
  | .checksumRecorded version | .aliasSet _ version | .gateLinked version | .tagged version =>
    k.registered = some version ∧ k.move = none
  | .snapshotted call => k.registered = some call.modelVersion ∧ k.move = none ∧
    ∃ t, k.training = some t ∧ call.excludeRecordIds = t.excluded
  | .promoted request _ => MayMove k ∧ k.live.isSome = true ∧ request.expectedLive = k.live ∧
      request.modelId = event.modelId ∧
    (request.kind = .reuse ∧ k.registered = none ∧ Reusable ports settings k request.version ∨
      request.kind = .promoteCandidate ∧ settings.deliveryStrategy = .blueGreen ∧ k.registered = some request.version)
  | .rolloutStarted args _ => MayMove k ∧ k.live = some args.stableVersion ∧ args.modelId = event.modelId ∧
    settings.deliveryStrategy = .progressive args.strategy ∧ k.registered = some args.candidateVersion

/-! ## What the result tells -/

def Promoted (k : Known) : Prop := (∃ request, k.move = some (.promotion request (.done ()))) ∨
  ∃ args row, k.move = some (.rollout args (some row)) ∧ row.rollout.state = .promoted

def NotPromoted (k : Known) : Prop :=
  (∃ request e, k.move = some (.promotion request (.raised e)) ∧ e.cls = .promotion) ∨
    ∃ args row, k.move = some (.rollout args (some row)) ∧ row.rollout.state = .rolledBack

def Published (r : Result) (k : Known) (live : Option Version) : Prop := ∃ version, k.registered = some version ∧
  r.registeredVersion = some version ∧ r.liveVersion = live

def Tells (r : Result) (k : Known) : Prop :=
  match r.outcome with
  | .noAction => k.Untouched ∧ r.liveVersion = k.live
  | .rolloutInProgress => k.Untouched ∧ k.running = true ∧ r.liveVersion = k.live
  | .rejected => k.Untouched ∧ r.liveVersion = k.live ∧
    ∃ artifact report, k.report = some (artifact, report) ∧ report.passed = false ∧ r.validation = some report
  | .reused => k.registered = none ∧ ∃ request, k.move = some (.promotion request (.done ())) ∧
      request.kind = .reuse ∧
    r.reusedVersion = some request.version ∧ r.liveVersion = some request.version ∧ r.previousLiveVersion = k.live
  | .registered => Published r k k.registered ∧ r.previousLiveVersion = k.live ∧ Promoted k
  | .rolledBack => Published r k k.live ∧ r.previousLiveVersion = none ∧ NotPromoted k
  | .delivering => Published r k k.live ∧ ∃ args row, k.move = some (.rollout args (some row)) ∧
      r.rollout = some row ∧
    row.rollout.state ≠ .promoted ∧ row.rollout.state ≠ .rolledBack

def Result.terminal (r : Result) : JobStatus := if r.toJobResult.outcome = "ROLLED_BACK" then .rolledBack else .completed

def Final (r : Result) (k : Known) : Prop := Tells r k ∧ k.stage.mayMove r.terminal = true

/-- How a part of a job goes on from what is known; where it does not return, LIVE was not moved. -/
abbrev Goes {α : Type} (m : Run ω M α) (k : Known) (D : α → Known → Prop) : Prop :=
  Watches (Monitor.guarded (Allows ports settings event) Known.next) m k D (fun _ k' => k'.Unmoved) fun k' => k'.Unmoved

end

/-! ## Each part of a job -/

section
variable {ω M : Type} {ports : Ports ω M} {settings : PipelineSettings} {event : DriftRef} {workdir : String} {k : Known}
  {α β : Type}

theorem goes_noted {note : Ended AdaptationError α → Event M} {call : Act ω AdaptationError α}
    {D : α → Known → Prop}
    (hmove : k.move = none) (hquiet : ∀ o, (k.next (note o)).move = k.move)
    (hallow : ∀ o, Allows ports settings event k (note o)) (hD : ∀ a, D a (k.next (note (.done a)))) :
    Goes ports settings event (call.noted note) k D := by
  have hunmoved : ∀ o, (k.next (note o)).Unmoved := fun o => Known.unmoved ((hquiet o).trans hmove)
  apply Watches.noted
  · exact fun _ a _ => ⟨_, Monitor.guarded_some (hallow _), hD a⟩
  · exact fun _ e _ => ⟨_, Monitor.guarded_some (hallow _), hunmoved _⟩
  · exact fun _ _ => ⟨_, Monitor.guarded_some (hallow _), hunmoved _⟩

/-- A call that is noted the same whatever becomes of it. -/
theorem goes_told {i : Event M} {call : Act ω AdaptationError α} (hmove : k.move = none) (hquiet : (k.next i).move = k.move)
    (hallow : Allows ports settings event k i) : Goes ports settings event (call.noted fun _ => i) k fun _ k' =>
      k' = k.next i :=
  goes_noted hmove (fun _ => hquiet) (fun _ => hallow) fun _ => rfl

theorem goes_quietly {call : Act ω AdaptationError α} (hmove : k.move = none) :
    Goes ports settings event (call.quietly : Run ω M α) k fun _ k' => k' = k :=
  Watches.quietly (fun _ => rfl) (fun _ => Known.unmoved hmove) (Known.unmoved hmove)

theorem goes_bind {m : Run ω M α} {f : α → Run ω M β} {D : α → Known → Prop} {E : β → Known → Prop}
    (h : Goes ports settings event m k D) (hf : ∀ a k', D a k' → Goes ports settings event (f a) k' E) :
    Goes ports settings event (m >>= f) k E := Watches.bind h hf

theorem goes_ofExcept {x : Except AdaptationError α} (hmove : k.move = none) :
    Goes ports settings event (Act.ofExcept x : Run ω M α) k fun a k' => k' = k ∧ x = .ok a :=
  Watches.ofExcept (fun _ h => ⟨rfl, h⟩) fun _ _ => Known.unmoved hmove

theorem goes_raise {e : AdaptationError} {D : α → Known → Prop} (hmove : k.move = none) :
    Goes ports settings event (.raise e : Run ω M α) k D := Watches.raise (Known.unmoved hmove)

theorem stage_goes {status : JobStatus} {message : String} (hmove : k.move = none) (h : k.stage.mayMove status = true) :
    Goes ports settings event (stage ports status message) k fun _ k' => k' = { k with dirty := false, stage := status } := by
  unfold stage
  apply goes_bind (D := fun _ k' => k' = { k with dirty := false })
  · unfold commit
    apply goes_noted hmove
    · intro o
      cases o <;> rfl
    · exact fun _ => trivial
    · exact fun _ => rfl
  · rintro u k' rfl
    exact goes_told hmove rfl ⟨h, rfl⟩

theorem audit_goes {row : AuditRow} (hmove : k.move = none) (hjob : row.jobId = ports.jobId)
    (hmodel : row.modelId = event.modelId) :
    Goes ports settings event (audit ports row) k fun _ k' => k' = { k with dirty := true } := by
  unfold audit
  exact goes_told hmove rfl ⟨hjob, hmodel⟩

/-- What ends a job before anything was written. -/
theorem final_untouched {r : Result} (h : k.Untouched) (houtcome : r.outcome = .noAction) (hlive : r.liveVersion = k.live)
    (hstage : k.stage.mayMove .completed = true) : Final r k := by
  unfold Final Tells Result.terminal Result.toJobResult
  rw [houtcome]
  exact ⟨⟨h, hlive⟩, hstage⟩

theorem screen_goes : Goes ports settings event (screen ports settings event) {} fun step k =>
    match step with
    | .ends r => Final r k
    | .goes (_, live) => k = { live } := by
  unfold screen
  apply goes_bind (goes_quietly rfl)
  rintro row k rfl
  apply goes_bind (D := fun live k => k = { live })
  · unfold readLive
    cases row with
    | none => exact .ret rfl
    | some row =>
      apply goes_noted
      · exact rfl
      · exact fun _ => rfl
      · exact fun _ => ⟨rfl, rfl⟩
      · exact fun _ => rfl
  · rintro live k rfl
    split
    · exact .ret (final_untouched ⟨rfl, rfl⟩ rfl rfl rfl)
    · apply goes_bind (D := fun found k => k = { live, running := found.isSome })
      · unfold findRollout
        cases row with
        | none => exact .ret rfl
        | some row =>
          apply goes_noted
          · exact rfl
          · exact fun _ => rfl
          · exact fun _ => ⟨rfl, rfl⟩
          · exact fun _ => rfl
      · rintro found k rfl
        cases found with
        | none => exact .ret rfl
        | some r => exact .ret ⟨⟨⟨rfl, rfl⟩, rfl, rfl⟩, rfl⟩

theorem analyse_goes {row : Option ModelRow} {live : Option Version} :
    Goes ports settings event (analyse ports event row live) { live } fun step k =>
      match step with
      | .ends r => Final r k
      | .goes c => k = { live := c.live } := by
  unfold analyse
  apply goes_bind (goes_told rfl rfl (by exact rfl))
  rintro analyzed k rfl
  cases row with
  | none => exact goes_raise rfl
  | some row =>
    cases analyzed with
    | reuse reason => exact .ret (final_untouched ⟨rfl, rfl⟩ rfl rfl rfl)
    | insufficientData reason => exact .ret (final_untouched ⟨rfl, rfl⟩ rfl rfl rfl)
    | packaged reason p => exact .ret rfl

/-- What is known of the data and of LIVE, once the data is prepared. -/
def prepared (live : Option Version) (p : Prepared) : Known where
  live
  frozen := some (p.records, p.holdout)

theorem prepare_goes {c : Case} : Goes ports settings event (prepare ports settings event c) { live := c.live } fun p k =>
    k = { prepared c.live p with dirty := true } := by
  unfold prepare
  apply goes_bind (goes_quietly rfl)
  rintro loaded k rfl
  apply goes_bind (goes_quietly rfl)
  rintro db k rfl
  dsimp only
  split
  · exact goes_raise rfl
  · apply goes_bind
    · apply goes_noted (D := fun _ k => k = { live := c.live, frozen := some (_, _), dirty := true })
      · exact rfl
      · exact fun _ => rfl
      · exact fun _ => ⟨rfl, fun r hr => List.mem_of_mem_filter (List.mem_of_mem_drop hr)⟩
      · exact fun _ => rfl
    · rintro currentDataId k rfl
      apply goes_bind (audit_goes rfl rfl rfl)
      rintro u k rfl
      exact .ret rfl

/-! ### Scores and the decision -/

theorem recordEvaluations_goes {reuse : ReuseRule.Reuse} : ∀ (evaluations : List VersionEvaluation) {k : Known}
    {scores : List VersionEvaluation}, k.move = none → k.scores = some scores →
      (∀ ev ∈ evaluations, ev.version ∈ scores.map (·.version)) →
    Goes ports settings event (recordEvaluations ports event reuse evaluations) k fun _ k' => ∃ dirty,
      k' = { k with dirty } := by
  intro evaluations
  induction evaluations with
  | nil =>
    intro k scores hmove _ _
    exact (goes_quietly hmove).mono (fun _ k' h => ⟨k.dirty, h⟩) (fun _ _ h => h) fun _ h => h
  | cons ev rest ih =>
    intro k scores hmove hscores hmem
    unfold recordEvaluations
    apply goes_bind (goes_told hmove rfl (by exact ⟨scores, hscores, hmem ev List.mem_cons_self⟩))
    rintro u k' rfl
    apply goes_bind (audit_goes (by exact hmove) rfl rfl)
    rintro u k' rfl
    exact ih hmove hscores fun ev' hev' => hmem ev' (List.mem_cons_of_mem ev hev')

theorem promote_watches {request : PromotionRequest} (hmove : MayMove k) (hlive : k.live.isSome = true)
    (hexpected : request.expectedLive = k.live) (hmodel : request.modelId = event.modelId)
    (hversion : request.kind = .reuse ∧ k.registered = none ∧ Reusable ports settings k request.version ∨
      request.kind = .promoteCandidate ∧ settings.deliveryStrategy = .blueGreen ∧ k.registered = some request.version) :
    Watches (Monitor.guarded (Allows ports settings event) Known.next) (promote ports request workdir) k
      (fun _ k' => k' = { k with move := some (.promotion request (.done ())) })
      (fun e k' => k' = { k with move := some (.promotion request (.raised e)) }) fun k' => k'.Unmoved := by
  have hallow : ∀ o, Allows ports settings event k (.promoted request o) :=
    fun _ => ⟨hmove, hlive, hexpected, hmodel, hversion⟩
  unfold promote
  apply Watches.noted
  · exact fun _ _ _ => ⟨_, Monitor.guarded_some (hallow _), rfl⟩
  · exact fun _ _ _ => ⟨_, Monitor.guarded_some (hallow _), rfl⟩
  · exact fun _ _ => ⟨_, Monitor.guarded_some (hallow _), trivial⟩

theorem reuseVersion_goes {live version : Version} {p : Prepared} {evaluations : List VersionEvaluation}
    {reuse : ReuseRule.Reuse}
    (hstage : k.stage = .reuseDecision) (huntouched : k.Untouched) (hlive : k.live = some live)
    (hreusable : Reusable ports settings k version) :
    Goes ports settings event (reuseVersion ports event workdir live version p evaluations reuse) k fun r k' =>
      Final r k' := by
  unfold reuseVersion
  apply goes_bind (audit_goes (by exact huntouched.2) rfl rfl)
  rintro u k' rfl
  apply goes_bind (stage_goes (by exact huntouched.2) (by rw [hstage]; rfl))
  rintro u k' rfl
  apply goes_bind
  · refine (promote_watches ?_ ?_ ?_ ?_ ?_).mono (fun _ _ h => h) (fun _ _ h => by rw [h]; trivial) fun _ h => h
    · exact ⟨rfl, rfl, huntouched.2⟩
    · dsimp only
      rw [hlive]
      rfl
    · exact hlive.symm
    · rfl
    · exact .inl ⟨rfl, huntouched.1, hreusable⟩
  · rintro promotion k' rfl
    exact .ret ⟨⟨huntouched.1, _, rfl, rfl, rfl, rfl, hlive.symm⟩, rfl⟩

theorem evaluation_some {c : Case} {p : Prepared} {call : EvaluationCall} (h : evaluation settings workdir c p = some call) :
    call.data = p.holdout ∧ c.live = some call.liveVersion := by
  unfold evaluation at h
  split at h
  · rename_i hlive _
    split at h
    · cases h
      exact ⟨rfl, hlive⟩
    · cases h
  · cases h

theorem score_goes {c : Case} {p : Prepared} : Goes ports settings event (score ports settings event workdir c p)
    { prepared c.live p with dirty := true } fun step k =>
      match step with
      | .ends r => Final r k
      | .goes _ => ∃ scores stage dirty, k = { prepared c.live p with scores, stage, dirty } ∧
        stage.mayMove .decisionPending = true := by
  unfold score
  cases hcall : evaluation settings workdir c p with
  | none => exact .ret ⟨none, .dataPreparing, true, rfl, rfl⟩
  | some call =>
    obtain ⟨hdata, hlive⟩ := evaluation_some hcall
    unfold scoreVersions
    apply goes_bind (stage_goes rfl rfl)
    rintro u k rfl
    apply goes_bind (D := fun evaluations k => k =
      { prepared c.live p with scores := some evaluations, stage := .evaluatingVersions })
    · apply goes_noted
      · exact rfl
      · exact fun _ => rfl
      · exact fun _ => ⟨rfl, p.records, by rw [hdata]; rfl⟩
      · exact fun _ => rfl
    · rintro evaluations k rfl
      apply goes_bind (goes_ofExcept rfl)
      rintro reuse k ⟨rfl, hreuse⟩
      apply goes_bind (recordEvaluations_goes evaluations rfl rfl fun ev hev => List.mem_map_of_mem hev)
      rintro u k ⟨dirty, rfl⟩
      apply goes_bind (stage_goes rfl rfl)
      rintro u k rfl
      split
      · rename_i hverdict
        cases hselected : reuse.selectedVersion with
        | none => exact goes_raise rfl
        | some version =>
          apply goes_bind
          · apply reuseVersion_goes rfl ⟨rfl, rfl⟩ hlive
            exact ⟨evaluations, _, reuse, rfl, by rw [hlive]; exact hreuse, hverdict, hselected⟩
          · exact fun result k h => .ret h
      · exact .ret ⟨some evaluations, .reuseDecision, false, rfl, rfl⟩

theorem decide_goes {package : DecisionPackage} (hmove : k.move = none) (hstage : k.stage = .decisionPending) :
    Goes ports settings event ((ports.decide package).relog .asked) k fun _ k' => k' = k := by
  apply Watches.heard
  · exact fun i => Monitor.guarded_some hstage
  · exact fun _ => rfl
  · exact fun _ => Known.unmoved hmove
  · exact Known.unmoved hmove

theorem choose_goes {c : Case} {p : Prepared} {s : Scored} {scores : Option (List VersionEvaluation)}
    {reached : JobStatus} {dirty : Bool}
    (hstage : reached.mayMove .decisionPending = true) : Goes ports settings event (choose ports settings event c p s)
      { prepared c.live p with scores, stage := reached, dirty } fun step k =>
      match step with
      | .ends r => Final r k
      | .goes x => k = { prepared (some x.live) p with scores, stage := .decisionPending, dirty := true } := by
  unfold choose
  apply goes_bind (stage_goes rfl hstage)
  rintro u k rfl
  apply goes_bind (decide_goes rfl rfl)
  rintro decision k rfl
  apply goes_bind (audit_goes rfl rfl rfl)
  rintro u k rfl
  split
  · exact .ret (final_untouched ⟨rfl, rfl⟩ rfl rfl rfl)
  · cases truthy c.row.targetColumn with
    | none => exact goes_raise rfl
    | some target =>
      apply goes_bind (D := fun live k =>
        k = { prepared (some live) p with scores, stage := .decisionPending, dirty := true })
      · unfold startFrom
        cases hlive : c.live with
        | some live => exact .ret rfl
        | none =>
          apply goes_noted
          · exact rfl
          · exact fun _ => rfl
          · exact fun _ => ⟨rfl, rfl⟩
          · exact fun _ => rfl
      · rintro live k rfl
        exact .ret rfl

/-! ### The candidate -/

theorem trainingOf_trains {inspection : ModelInspection} {target : String} {p : Prepared}
    {t : Training} (live : Option Version)
    (h : trainingOf ports settings inspection target p = .ok t) : (prepared live p).Trains t := by
  unfold trainingOf at h
  obtain ⟨⟨rows, report⟩, hchecked, h⟩ := bind_ok h
  obtain ⟨u, -, h⟩ := bind_ok h
  cases h
  have hrows : ∀ r ∈ rows, r ∈ p.records ∧ r.id ∉ p.holdout.map Row.id := by
    intro r hr
    obtain ⟨hmem, hout⟩ := List.mem_filter.mp ((checkLeakage_ok hchecked).1.subset hr)
    exact ⟨hmem, of_decide_eq_true hout⟩
  refine ⟨p.records, p.holdout, rfl, fun r hr => ⟨(hrows r hr).1, fun h hh heq => (hrows r hr).2 ?_⟩, fun id => ?_⟩
  · rw [heq]
    exact List.mem_map_of_mem hh
  · rw [List.mem_dedup, List.mem_filter, decide_eq_true_iff]

theorem loadLive_goes {c : Case} {x : Chosen} (hmove : k.move = none) (hstage : k.stage = .decisionPending) :
    Goes ports settings event (loadLive ports event workdir c x) k fun _ k' =>
      k' = { k with stage := .adapting, dirty := false } := by
  unfold loadLive
  apply goes_bind (audit_goes (by exact hmove) rfl rfl)
  rintro u k' rfl
  apply goes_bind (stage_goes (by exact hmove) (by rw [hstage]; rfl))
  rintro u k' rfl
  apply goes_bind (goes_quietly (by exact hmove))
  rintro path k' rfl
  cases c.row.framework with
  | none => exact goes_raise hmove
  | some framework =>
    apply goes_bind (goes_quietly (by exact hmove))
    rintro model k' rfl
    apply goes_bind (goes_ofExcept (by exact hmove))
    rintro types k' ⟨rfl, -⟩
    apply goes_bind (goes_quietly (by exact hmove))
    rintro inspection k' rfl
    exact .ret rfl

/-- A candidate's own events change nothing that is known. -/
theorem candidate_goes {types : ModelTypes ω M} {req : CandidateRequest M} {t : Training}
    {onFailure : AdaptationError → String → Act ω AdaptationError Unit} (hmove : k.move = none)
    (hstage : k.stage = .adapting)
    (htraining : k.training = some t) (hrows : req.rows = t.rows) :
    Goes ports settings event ((req.produce ports.text types ports.llm onFailure).relog .candidate) k fun _ k' => k' = k := by
  apply Watches.relog
  have hproduce := CandidateRequest.produce_watches ports.text types req ports.llm onFailure
  refine (hproduce.simulate (fun _ k' => k' = k) rfl ?_).mono ?_ ?_ ?_
  · rintro log k' i log' rfl hi
    obtain ⟨hproper, -⟩ := Monitor.guarded_of_some hi
    cases i with
    | checked chosen refusal => exact ⟨_, Monitor.guarded_some hstage, rfl⟩
    | llmFailed reason => exact ⟨_, Monitor.guarded_some hstage, rfl⟩
    | engine chosen data end_ =>
      obtain ⟨rfl, -⟩ := hproper
      exact ⟨_, Monitor.guarded_some ⟨hstage, t, htraining, hrows⟩, rfl⟩
    | adapter event =>
      cases event with
      | asked call reply =>
        obtain ⟨parts, events, ⟨hllm, -⟩, -⟩ := hproper
        exact ⟨_, Monitor.guarded_some ⟨hstage, by rw [hllm]; rfl⟩, rfl⟩
      | scanned code failure => exact ⟨_, Monitor.guarded_some hstage, rfl⟩
      | ran run end_ =>
        obtain ⟨parts, events, -, hrun, -⟩ := hproper
        exact ⟨_, Monitor.guarded_some ⟨hstage, t, htraining, by rw [hrun]; exact hrows⟩, rfl⟩
      | dumped path model end_ => exact ⟨_, Monitor.guarded_some hstage, rfl⟩
  · rintro c k' ⟨log, rfl, -⟩
    rfl
  · rintro e k' ⟨log, rfl, -⟩
    exact Known.unmoved hmove
  · rintro k' ⟨log, rfl, -⟩
    exact Known.unmoved hmove

theorem hash_goes {path : String} {sum : Act ω AdaptationError String} (huntouched : k.Untouched)
    (hpath : ∀ h ∈ k.hashes, h.1 = path) : Goes ports settings event (hash path sum) k fun sha k' =>
      k' = { k with hashes := k.hashes ++ [(path, some sha)] } := by
  unfold hash
  apply goes_noted
  · exact huntouched.2
  · exact fun _ => rfl
  · exact fun _ => ⟨huntouched, hpath⟩
  · exact fun _ => rfl

theorem produce_goes {x : Chosen} {loaded : Loaded ω M} {t : Training} (hstage : k.stage = .adapting)
    (htraining : k.training = some t) (huntouched : k.Untouched) (hhashes : k.hashes = []) :
    Goes ports settings event (produce ports event workdir x loaded t) k fun p k' =>
      ∃ dirty, k' = { k with dirty, hashes := [(p.candidate.artifactPath, some p.sha)] } := by
  unfold produce
  apply goes_bind (candidate_goes (by exact huntouched.2) hstage htraining rfl)
  rintro candidate k' rfl
  apply goes_bind (goes_quietly (by exact huntouched.2))
  rintro u k' rfl
  apply goes_bind
  · apply hash_goes huntouched
    intro h hmem
    rw [hhashes] at hmem
    cases hmem
  · rintro sha k' rfl
    rw [hhashes]
    split
    · apply goes_bind (audit_goes (by exact huntouched.2) rfl rfl)
      rintro u k' rfl
      apply goes_bind (audit_goes (by exact huntouched.2) rfl rfl)
      rintro u k' rfl
      exact .ret ⟨true, rfl⟩
    · exact .ret ⟨_, rfl⟩

/-! ### The validation -/

theorem verifyChecksum_goes {path sha stageName : String} {times : Nat} (huntouched : k.Untouched)
    (hhashed : k.Hashed path sha times) :
    Goes ports settings event (verifyChecksum ports path sha stageName) k fun _ k' =>
      k' = { k with hashes := List.replicate (times + 1) (path, some sha) } := by
  unfold verifyChecksum
  unfold Known.Hashed at hhashed
  apply goes_bind
  · apply hash_goes huntouched
    intro h hmem
    rw [hhashed] at hmem
    rw [List.eq_of_mem_replicate hmem]
  · rintro actual k' rfl
    split
    · exact goes_raise huntouched.2
    · rename_i heq
      rw [not_not.mp heq, hhashed, ← List.replicate_succ']
      exact .ret rfl

theorem recordGate_goes {live : Version} {report : ValidationReport} {artifact : String} (hmove : k.move = none)
    (hreport : k.report = some (artifact, report)) :
    Goes ports settings event (recordGate ports event live report) k fun _ k' => ∃ dirty, k' = { k with dirty } := by
  unfold recordGate
  cases hgate : report.gate with
  | none => exact .ret ⟨k.dirty, rfl⟩
  | some verdict =>
    apply goes_bind (goes_told hmove rfl (by exact ⟨artifact, report, hreport, hgate⟩))
    rintro id k' rfl
    apply goes_bind (audit_goes (by exact hmove) rfl rfl)
    rintro u k' rfl
    exact .ret ⟨true, rfl⟩

theorem validate_goes {c : Case} {p : Prepared} {x : Chosen} {m : Made ω M} (hstage : k.stage = .adapting)
    (huntouched : k.Untouched)
    (hfrozen : k.frozen = some (p.records, p.holdout))
    (hhashes : k.Hashed m.produced.candidate.artifactPath m.produced.sha 1) :
    Goes ports settings event (validate ports event c p x m) k fun v k' =>
      k' = { k with
        stage := .validatingCandidate, dirty := true, report := some (m.produced.candidate.artifactPath, v.report)
        hashes := List.replicate 2 (m.produced.candidate.artifactPath, some m.produced.sha) } := by
  unfold validate
  apply goes_bind (stage_goes (by exact huntouched.2) (by rw [hstage]; rfl))
  rintro u k' rfl
  apply goes_bind (verifyChecksum_goes (k := { k with dirty := false, stage := .validatingCandidate }) huntouched hhashes)
  rintro u k' rfl
  apply goes_bind (goes_ofExcept (by exact huntouched.2))
  rintro u k' ⟨rfl, -⟩
  apply goes_bind (audit_goes (by exact huntouched.2) rfl rfl)
  rintro u k' rfl
  apply goes_bind
  · apply goes_noted (D := fun report k' => k' = { k with
        stage := .validatingCandidate, dirty := true, report := some (m.produced.candidate.artifactPath, report)
        hashes := List.replicate 2 (m.produced.candidate.artifactPath, some m.produced.sha) })
    · exact huntouched.2
    · exact fun _ => rfl
    · exact fun _ => ⟨rfl, ⟨p.records, hfrozen⟩, m.produced.sha, rfl⟩
    · exact fun _ => rfl
  · rintro report k' rfl
    apply goes_bind (recordGate_goes (by exact huntouched.2) rfl)
    rintro gateRow k' ⟨dirty, rfl⟩
    apply goes_bind (audit_goes (by exact huntouched.2) rfl rfl)
    rintro u k' rfl
    exact .ret rfl

/-! ### The registry and the delivery -/

theorem linkGate_goes {gateRow : Option Nat} {version : Version} (hmove : k.move = none)
    (hregistered : k.registered = some version)
    (hdirty : k.dirty = true) : Goes ports settings event (linkGate ports gateRow version) k fun _ k' => k' = k := by
  unfold linkGate
  cases gateRow with
  | none => exact .ret rfl
  | some id =>
    apply goes_noted hmove
    · exact fun _ => rfl
    · exact fun _ => ⟨hregistered, hmove⟩
    · intro u
      unfold Known.next
      rw [← hdirty]

theorem register_goes {c : Case} {p : Prepared} {x : Chosen} {m : Made ω M} {v : Validated}
    (hstage : k.stage = .validatingCandidate)
    (huntouched : k.Untouched) (hhashes : k.Hashed m.produced.candidate.artifactPath m.produced.sha 2)
    (hreport : k.report = some (m.produced.candidate.artifactPath, v.report)) (hpassed : v.report.passed = true)
    (htraining : k.training = some m.training) : Goes ports settings event (register ports settings event workdir c p x m v) k
      fun r k' => k' = { k with
        stage := .registering, dirty := true, registered := some r.version
        hashes := List.replicate 3 (m.produced.candidate.artifactPath, some m.produced.sha) } := by
  unfold register
  apply goes_bind (stage_goes (by exact huntouched.2) (by rw [hstage]; rfl))
  rintro u k' rfl
  apply goes_bind (verifyChecksum_goes (k := { k with dirty := false, stage := .registering }) huntouched hhashes)
  rintro u k' rfl
  have hsha : ("candidate.sha256", m.produced.sha) ∈ (registerCall ports settings event workdir c p x m v).tags := by
    simp [registerCall, tags]
  apply goes_bind
  · apply goes_noted (D := fun version k' => k' = { k with
        stage := .registering, dirty := false, registered := some version
        hashes := List.replicate 3 (m.produced.candidate.artifactPath, some m.produced.sha) })
    · exact huntouched.2
    · exact fun _ => rfl
    · exact fun _ => ⟨rfl, rfl, huntouched, ⟨v.report, hreport, hpassed⟩, m.produced.sha, rfl, hsha⟩
    · exact fun _ => rfl
  · rintro version k' rfl
    apply goes_bind (goes_told (by exact huntouched.2) rfl (by exact ⟨rfl, huntouched.2⟩))
    rintro digest k' rfl
    apply goes_bind (audit_goes (by exact huntouched.2) rfl rfl)
    rintro u k' rfl
    apply goes_bind (goes_told (by exact huntouched.2) rfl (by exact ⟨rfl, huntouched.2⟩))
    rintro u k' rfl
    apply goes_bind (linkGate_goes (by exact huntouched.2) rfl rfl)
    rintro u k' rfl
    apply goes_bind (goes_told (by exact huntouched.2) rfl (by exact ⟨rfl, huntouched.2, m.training, htraining, rfl⟩))
    rintro data k' rfl
    apply goes_bind (goes_told (by exact huntouched.2) rfl (by exact ⟨rfl, huntouched.2⟩))
    rintro u k' rfl
    exact .ret rfl

/-- A result that is not yet told how the delivery went. -/
structure Pending (r : Result) (k : Known) (live version : Version) : Prop where
  stage : k.stage = .registering
  move : k.move = none
  live : k.live = some live
  registered : k.registered = some version
  version : r.registeredVersion = some version

theorem rollout_goes {args : RolloutCallArgs} (hallow : Allows ports settings event k (.rolloutStarted args none)) :
    Goes ports settings event ((ports.startRollout args).noted fun o => .rolloutStarted args (valueOf o)) k fun row k' =>
      k' = { k with move := some (.rollout args (some row)) } := by
  have hallow : ∀ row, Allows ports settings event k (.rolloutStarted args row) := fun _ => hallow
  apply Watches.noted
  · exact fun _ _ _ => ⟨_, Monitor.guarded_some (hallow _), rfl⟩
  · exact fun _ _ _ => ⟨_, Monitor.guarded_some (hallow _), trivial⟩
  · exact fun _ _ => ⟨_, Monitor.guarded_some (hallow _), trivial⟩

theorem deliver_goes {strategy : Strategy} {live version : Version} {gateRow : Option Nat}
    {r : Result} (h : Pending r k live version)
    (hstrategy : settings.deliveryStrategy = .progressive strategy) (houtcome : r.outcome = .delivering)
    (hlive : r.liveVersion = some live) (hprevious : r.previousLiveVersion = none) :
    Goes ports settings event (deliver ports event workdir strategy live version gateRow r) k fun r' k' => Final r' k' := by
  unfold deliver
  apply goes_bind (stage_goes (by exact h.move) (by rw [h.stage]; rfl))
  rintro u k' rfl
  apply goes_bind
  · apply rollout_goes (k := { k with dirty := false, stage := .promoting })
    exact ⟨⟨rfl, rfl, h.move⟩, h.live, rfl, hstrategy, h.registered⟩
  · rintro row k' rfl
    split
    · rename_i hpromoted
      exact .ret ⟨⟨⟨version, h.registered, h.version, h.registered.symm⟩, h.live.symm,
        .inr ⟨_, row, rfl, hpromoted⟩⟩, rfl⟩
    split
    · rename_i hrolledBack
      exact .ret ⟨⟨⟨version, h.registered, h.version, hlive.trans h.live.symm⟩, hprevious,
        .inr ⟨_, row, rfl, hrolledBack⟩⟩, rfl⟩
    · rename_i hpromoted hrolledBack
      refine .ret ⟨?_, ?_⟩
      · unfold Tells
        dsimp only
        rw [houtcome]
        exact ⟨⟨version, h.registered, h.version, hlive.trans h.live.symm⟩, _, row, rfl, rfl, hpromoted, hrolledBack⟩
      · unfold Result.terminal Result.toJobResult
        dsimp only
        rw [houtcome]
        rfl

theorem promoteCandidate_goes {live version : Version} {r : Result} (h : Pending r k live version)
    (hstrategy : settings.deliveryStrategy = .blueGreen) (houtcome : r.outcome = .registered)
    (hlive : r.liveVersion = some version) (hprevious : r.previousLiveVersion = some live) :
    Goes ports settings event (promoteCandidate ports event workdir live version r) k fun r' k' => Final r' k' := by
  unfold promoteCandidate
  apply goes_bind (stage_goes (by exact h.move) (by rw [h.stage]; rfl))
  rintro u k' rfl
  apply Watches.bind_catching
  · apply promote_watches
    · exact ⟨rfl, rfl, h.move⟩
    · dsimp only
      rw [h.live]
      rfl
    · exact h.live.symm
    · rfl
    · exact .inr ⟨rfl, hstrategy, h.registered⟩
  · rintro promotion k' rfl
    refine .ret ⟨?_, ?_⟩
    · unfold Tells
      dsimp only
      rw [houtcome]
      exact ⟨⟨version, h.registered, h.version, hlive.trans h.registered.symm⟩,
        hprevious.trans h.live.symm, .inl ⟨_, rfl⟩⟩
    · unfold Result.terminal Result.toJobResult
      dsimp only
      rw [houtcome]
      rfl
  · rintro e k' hcaught rfl
    exact .ret ⟨⟨⟨version, h.registered, h.version, h.live.symm⟩, rfl,
      .inl ⟨_, e, rfl, of_decide_eq_true hcaught⟩⟩, rfl⟩
  · rintro e k' _ rfl
    trivial

/-! ### The whole job -/

theorem publish_goes {c : Case} {p : Prepared} {s : Scored} {x : Chosen} {m : Made ω M} {v : Validated}
    (hstage : k.stage = .validatingCandidate) (huntouched : k.Untouched) (hlive : k.live = some x.live)
    (hhashes : k.Hashed m.produced.candidate.artifactPath m.produced.sha 2)
    (hreport : k.report = some (m.produced.candidate.artifactPath, v.report)) (hpassed : v.report.passed = true)
    (htraining : k.training = some m.training) :
    Goes ports settings event (publish ports settings event workdir c p s x m v) k fun r k' => Final r k' := by
  unfold publish
  apply goes_bind (register_goes hstage huntouched hhashes hreport hpassed htraining)
  rintro r k' rfl
  dsimp only
  cases hstrategy : settings.deliveryStrategy with
  | progressive strategy => exact deliver_goes ⟨rfl, huntouched.2, hlive, rfl, rfl⟩ hstrategy rfl rfl rfl
  | blueGreen => exact promoteCandidate_goes ⟨rfl, huntouched.2, hlive, rfl, rfl⟩ hstrategy rfl rfl rfl

theorem adapt_goes {c : Case} {p : Prepared} {s : Scored} {x : Chosen} {scores : Option (List VersionEvaluation)} :
    Goes ports settings event (adapt ports settings event workdir c p s x)
      { prepared (some x.live) p with scores, stage := .decisionPending, dirty := true } fun r k => Final r k := by
  unfold adapt
  apply goes_bind (loadLive_goes rfl rfl)
  rintro loaded k rfl
  apply goes_bind (D := fun t k => k = { prepared (some x.live) p with
      scores, stage := .adapting, training := some t })
  · apply Watches.noted
    · intro w t hdone
      refine ⟨_, Monitor.guarded_some ⟨rfl, ?_⟩, rfl⟩
      intro t' ht'
      cases ht'
      cases htraining : trainingOf ports settings loaded.inspection x.target p with
      | error e =>
        rw [htraining] at hdone
        cases hdone
      | ok t' =>
        rw [htraining] at hdone
        cases hdone
        exact ⟨(trainingOf_trains none htraining).frozen⟩
    · intro w e _
      exact ⟨_, Monitor.guarded_some ⟨rfl, fun t ht => by cases ht⟩, trivial⟩
    · intro w _
      exact ⟨_, Monitor.guarded_some ⟨rfl, fun t ht => by cases ht⟩, trivial⟩
  · rintro t k rfl
    apply goes_bind (produce_goes rfl rfl ⟨rfl, rfl⟩ rfl)
    rintro produced k ⟨dirty, rfl⟩
    refine goes_bind (validate_goes ?_ ⟨?_, ?_⟩ ?_ ?_) ?_
    any_goals rfl
    rintro v k rfl
    split
    · rename_i hpassed
      exact publish_goes rfl ⟨rfl, rfl⟩ rfl rfl rfl hpassed rfl
    · rename_i hpassed
      exact .ret ⟨⟨⟨rfl, rfl⟩, rfl, _, v.report, rfl, Bool.eq_false_iff.mpr hpassed, rfl⟩, rfl⟩

variable (ports settings event workdir) in
theorem runJob_goes : Goes ports settings event (runJob ports settings event workdir) {} fun r k => Final r k := by
  unfold runJob
  apply goes_bind screen_goes
  intro step k h
  cases step with
  | ends result => exact .ret h
  | goes answer =>
    obtain ⟨row, live⟩ := answer
    dsimp only at h
    subst h
    apply goes_bind analyse_goes
    intro step k h
    cases step with
    | ends result => exact .ret h
    | goes c =>
      dsimp only at h
      subst h
      apply goes_bind prepare_goes
      rintro p k rfl
      apply goes_bind score_goes
      intro step k h
      cases step with
      | ends result => exact .ret h
      | goes s =>
        obtain ⟨scores, reached, dirty, rfl, hreached⟩ := h
        apply goes_bind (choose_goes hreached)
        intro step k h
        cases step with
        | ends result => exact .ret h
        | goes x =>
          dsimp only at h
          subst h
          exact adapt_goes

end

end Pipeline

end OranAdapt
