import Mathlib.Data.List.Sort
import OranAdapt.Deployment
import OranAdapt.Runs

/-!
# Serving from a Vertex AI endpoint

`adapters.deployment.vertex`: an endpoint per model with the versions deployed
to it and a traffic split. A `:deployModel` is an operation that applies its
split when it completes, at any moment, whether or not anybody still waits for
it.
-/

namespace OranAdapt

/-! ## Vertex -/

/-- A version deployed to an endpoint, of whatever registered model. -/
structure DeployedModel where
  id : Nat
  model : String
  version : Version
deriving DecidableEq, Repr

structure VertexEndpoint where
  deployedModels : List DeployedModel
  trafficSplit : Nat → Nat

inductive VertexWork where
  | createEndpoint
  | deployModel (version : Version)
  | undeployModel (id : Nat)
deriving DecidableEq, Repr

inductive Progress where
  | running | done | failed
deriving DecidableEq, Repr

/-- A long-running operation on a model's endpoint. -/
structure VertexOperation where
  model : String
  work : VertexWork
  progress : Progress
deriving DecidableEq, Repr

/-- What surrounds one REST call: the operations that complete before it, and
whether each worked; how the call is answered; and how many polls there is time
for in a wait for what it starts. -/
structure Turn where
  completes : List (Nat × Bool) := []
  answer : Answer := .ok
  polls : Nat := 0

/-- Vertex, with the operations this instance of the adapter waits for and the
REST calls still to come. An operation's name is its place in the list. -/
structure VertexServing where
  endpoints : String → Option VertexEndpoint
  operations : List VertexOperation
  pending : String → Option (Nat × Version)
  turns : List Turn

namespace VertexServing

def setEndpoint (s : VertexServing) (model : String) (e : VertexEndpoint) : VertexServing :=
  { s with endpoints := fun m => if m = model then some e else s.endpoints m }

def undeployed (op : VertexOperation) : Option Nat :=
  match op.work with
  | .undeployModel id => some id
  | _ => none

def freshId (s : VertexServing) (e : VertexEndpoint) : Nat :=
  (e.deployedModels.map DeployedModel.id ++ s.operations.filterMap undeployed).foldr max 0 + 1

/-- The endpoint with one more deployed model, which carries all traffic. -/
def deployedTo (e : VertexEndpoint) (d : DeployedModel) : VertexEndpoint :=
  ⟨e.deployedModels ++ [d], fun id => if id = d.id then 100 else 0⟩

def undeployedFrom (e : VertexEndpoint) (id : Nat) : VertexEndpoint :=
  ⟨e.deployedModels.filter fun d => d.id ≠ id, fun i => if i = id then 0 else e.trafficSplit i⟩

def applied (s : VertexServing) (op : VertexOperation) : VertexServing :=
  let e := (s.endpoints op.model).getD ⟨[], fun _ => 0⟩
  match op.work with
  | .createEndpoint => s.setEndpoint op.model e
  | .deployModel version => s.setEndpoint op.model (deployedTo e ⟨s.freshId e, op.model, version⟩)
  | .undeployModel id => s.setEndpoint op.model (undeployedFrom e id)

def complete (s : VertexServing) (c : Nat × Bool) : VertexServing :=
  match s.operations[c.1]? with
  | some op =>
    if op.progress = .running then
      let s' := if c.2 then s.applied op else s
      { s' with operations := s.operations.set c.1 { op with progress := if c.2 then .done else .failed } }
    else s
  | none => s

/-- Vertex takes the request on. It refuses to undeploy a model that carries
traffic while another one is still deployed. -/
def accepts (s : VertexServing) (model : String) (work : VertexWork) : Bool :=
  match work, s.endpoints model with
  | .createEndpoint, e => e.isNone
  | .deployModel _, e => e.isSome
  | .undeployModel id, some e => e.deployedModels.any (fun d => d.id == id) &&
      (e.trafficSplit id == 0 || e.deployedModels.all fun d => d.id == id)
  | .undeployModel _, none => false

end VertexServing

/-! ## The adapter -/

namespace VertexDeployment

open Effects VertexServing Runs

abbrev VertexAct (α : Type) := OutsideAct VertexServing α

def rest {α : Type} (act : VertexServing → Except AdaptationError (α × VertexServing)) :
    VertexAct (Nat × α) := fun o =>
  match o.serving.turns with
  | [] => (.stopped, o)
  | t :: turns =>
    let now := t.completes.foldl complete { o.serving with turns }
    ask t.answer (fun o => (act o.serving).map fun r => ((t.polls, r.1), { o with serving := r.2 })) { o with serving := now }

def refusedBy (model what : String) : AdaptationError := deploymentError ("Vertex AI refused " ++ what) model []

def getEndpoint (model : String) : VertexAct (Option VertexEndpoint) := do
  let r ← rest fun s => .ok (s.endpoints model, s)
  pure r.2

def getOperation (model : String) (name : Nat) : VertexAct Progress := do
  let r ← rest fun s =>
    match s.operations[name]? with
    | some op => .ok (op.progress, s)
    | none => .error (refusedBy model "GET")
  pure r.2

/-- Start an operation: its name, and the polls there is time for. -/
def startOperation (model : String) (work : VertexWork) : VertexAct (Nat × Nat) :=
  rest fun s =>
    if s.accepts model work then
      .ok (s.operations.length, { s with operations := s.operations ++ [⟨model, work, .running⟩] })
    else .error (refusedBy model "POST")

def patchTraffic (model : String) (split : Nat → Nat) : VertexAct Unit := do
  let _ ← rest fun s =>
    match s.endpoints model with
    | some e => .ok ((), s.setEndpoint model { e with trafficSplit := split })
    | none => .error (refusedBy model "PATCH")
  pure ()

def wait (model : String) (name : Nat) : Nat → Progress → VertexAct Unit
  | _, .done => pure ()
  | _, .failed => .raise (deploymentError "a Vertex AI operation failed" model [])
  | 0, .running => .raise (deploymentError
      "a Vertex AI operation did not finish within VERTEX_OPERATION_TIMEOUT_S" model [])
  | polls + 1, .running => do
    let progress ← getOperation model name
    wait model name polls progress

def undeploy (model : String) (id : Nat) : VertexAct Unit := do
  let (polls, name) ← startOperation model (.undeployModel id)
  wait model name polls .running

def undeployAll (model : String) : List Nat → VertexAct Unit
  | [] => pure ()
  | id :: ids => do
    undeploy model id
    undeployAll model ids

def pendingOf (model : String) : VertexAct (Option (Nat × Version)) := fun o => (.done (o.serving.pending model), o)

def setPending (model : String) (p : Option (Nat × Version)) : VertexAct Unit :=
  .modify fun o => { o with serving :=
    { o.serving with pending := fun m => if m = model then p else o.serving.pending m } }

def stateOf (model : String) : Option VertexEndpoint → DeploymentState
  | none => ⟨none, true, false⟩
  | some e =>
    let deployed := e.deployedModels.filter fun d => d.model = model
    match deployed.filter fun d => e.trafficSplit d.id = 100 with
    | [d] => ⟨some d.version, true, false⟩
    | _ =>
      match deployed with
      | [] => ⟨none, true, false⟩
      | d :: ds =>
        let top := ds.foldl (fun best d => if e.trafficSplit best.id < e.trafficSplit d.id then d else best) d
        ⟨some top.version, false, false⟩

def readEndpoint (model : String) : VertexAct DeploymentState := do
  let e ← getEndpoint model
  pure (stateOf model e)

def status (model : String) : VertexAct DeploymentState := do
  match ← pendingOf model with
  | none => readEndpoint model
  | some (name, version) =>
    match ← getOperation model name with
    | .running => pure ⟨some version, false, false⟩
    | .done => do
      setPending model none
      readEndpoint model
    | .failed => do
      setPending model none
      pure ⟨some version, false, true⟩

def deploy (target : DeploymentTarget) : VertexAct Unit := do
  let stale ← match ← getEndpoint target.model with
    | some e => pure ((e.deployedModels.filter fun d => e.trafficSplit d.id = 0).map DeployedModel.id)
    | none => do
      let (polls, name) ← startOperation target.model .createEndpoint
      wait target.model name polls .running
      pure []
  undeployAll target.model stale
  let (_, name) ← startOperation target.model (.deployModel target.version)
  setPending target.model (some (name, target.version))

def restore (model : String) (previous : Option DeploymentTarget) : VertexAct Unit := do
  setPending model none
  match ← getEndpoint model, previous with
  | none, none => pure ()
  | none, some previous => deploy previous
  | some e, none =>
    -- zero-traffic models first
    let mine := e.deployedModels.filter fun d => d.model = model
    undeployAll model ((mine.insertionSort fun a b => e.trafficSplit a.id ≤ e.trafficSplit b.id).map DeployedModel.id)
  | some e, some previous =>
    match e.deployedModels.find? fun d => d.model = model ∧ d.version = previous.version with
    | none => deploy previous
    | some d => patchTraffic model fun id => if id = d.id then 100 else 0

def port : DeploymentPort VertexServing where
  splitsTraffic := false
  served o model := (stateOf model (o.serving.endpoints model)).version
  splitTo _ _ := none
  status _ model := status model
  deploy _ target := deploy target
  restore _ model previous := restore model previous
  setTraffic _ model _ _ _ := .raise (deploymentError "the deployment backend cannot split traffic" model [])
  traffic _ model := .raise (deploymentError "the deployment backend cannot split traffic" model [])

/-! ## A rolled-back deployment -/

def allTraffic (model : String) (e : VertexEndpoint) : List DeployedModel :=
  (e.deployedModels.filter fun d => d.model = model).filter fun d => e.trafficSplit d.id = 100

def ServesAll (s : VertexServing) (model : String) : Option Version → Prop
  | some version => ∃ e d, s.endpoints model = some e ∧ allTraffic model e = [d] ∧ d.version = version
  | none => ∀ e, s.endpoints model = some e → e.deployedModels.filter (fun d => d.model = model) = []

/-- A running operation that would take the traffic off the version: it deploys
another one, or undeploys the one with the traffic. -/
def takesTraffic (s : VertexServing) (model : String) (version : Option Version) (op : VertexOperation) : Bool :=
  op.model == model && op.progress == .running &&
    match op.work with
    | .createEndpoint => false
    | .deployModel other => some other != version
    | .undeployModel id => version.isSome && (s.endpoints model).any fun e => (allTraffic model e).any fun d => d.id == id

/-- `revert` returned True: called for itself, or by a rollout that failed. -/
inductive RolledBack (model : String) (previous : Option DeploymentTarget) (o o' : Outside VertexServing) : Prop
  | revert (f : RevertAnswers) (h : Deployer.revert port f model previous o = (.done true, o'))
  | rollout (f : RolloutAnswers) (target : DeploymentTarget) (e : AdaptationError) (hm : target.model = model)
      (h : Deployer.rollout port f target previous o = (.raised e, o')) (he : e.cls = .deployment)
      (hr : e.context.lookup "restored" = some (.bool true))

/-- What may happen until the model is deployed, restored or reverted again. -/
inductive Later where
  | completes (name : Nat) (works : Bool)
  | status (model : String) (turns : List Turn)
  | deploy (target : DeploymentTarget) (turns : List Turn)
  | restore (model : String) (previous : Option DeploymentTarget) (turns : List Turn)

def Later.step (o : Outside VertexServing) (l : Later) : Option (Outside VertexServing) :=
  let given (turns : List Turn) : Outside VertexServing := { o with serving := { o.serving with turns } }
  match l with
  | .completes name works => some { o with serving := o.serving.complete (name, works) }
  | .status model turns => some ((VertexDeployment.status model).after (given turns))
  | .deploy target turns => some ((VertexDeployment.deploy target).after (given turns))
  | .restore model previous turns => some ((VertexDeployment.restore model previous).after (given turns))

def Later.spares (model : String) : Later → Bool
  | .completes _ _ | .status _ _ => true
  | .deploy target _ => target.model != model
  | .restore m previous _ => m != model && previous.all fun p => p.model != model

/-! ### What a revert has read back -/

section
variable {s s' : VertexServing} {model : String} {version : Option Version} {o o' : Outside VertexServing}

theorem servesAll_of_stateOf (h : (stateOf model (s.endpoints model)).ready = true) :
    ServesAll s model (stateOf model (s.endpoints model)).version := by
  cases he : s.endpoints model with
  | none =>
    intro e' he'
    rw [he] at he'
    cases he'
  | some e =>
    rw [he] at h
    have hserves (d : DeployedModel) (hall : allTraffic model e = [d]) : ServesAll s model (some d.version) :=
      ⟨e, d, he, hall, rfl⟩
    unfold allTraffic at hserves
    have hnone (hdep : e.deployedModels.filter (fun d => d.model = model) = []) : ServesAll s model none := by
      intro e' he'
      rw [he] at he'; cases he'
      exact hdep
    unfold stateOf at h ⊢
    simp only at h ⊢
    generalize e.deployedModels.filter (fun d => d.model = model) = deployed at h hserves hnone ⊢
    generalize deployed.filter (fun d => e.trafficSplit d.id = 100) = full at h hserves ⊢
    cases full with
    | nil =>
      cases deployed with
      | nil => exact hnone rfl
      | cons d ds => cases h
    | cons d ds =>
      cases ds with
      | nil => exact hserves d rfl
      | cons d' ds =>
        cases deployed with
        | nil => exact hnone rfl
        | cons d ds => cases h

/-- The rule of a REST call: operations complete, then the call is answered. -/
theorem rest_ends {α : Type} {act : VertexServing → Except AdaptationError (α × VertexServing)}
    {D : Nat × α → Outside VertexServing → Prop} {R : AdaptationError → Outside VertexServing → Prop}
    {S : Outside VertexServing → Prop}
    (hnow : ∀ t turns, o.serving.turns = t :: turns →
      let now := t.completes.foldl complete { o.serving with turns }
      (∀ a s', act now = .ok (a, s') →
        D (t.polls, a) { o with serving := s' } ∧ ∀ e : PortError, R e.1 { o with serving := s' }) ∧
      (∀ e, R e { o with serving := now }) ∧ S { o with serving := now })
    (hstop : S o) : Ensures (rest act) o D R S := by
  cases ht : o.serving.turns with
  | nil =>
    have hrest : rest act o = (.stopped, o) := by unfold rest; rw [ht]
    unfold Ensures
    rw [hrest]
    exact hstop
  | cons t turns =>
    obtain ⟨hok, herr, hst⟩ := hnow t turns ht
    have hrest : rest act o = ask t.answer
        (fun o => (act o.serving).map fun r => ((t.polls, r.1), { o with serving := r.2 }))
        { o with serving := t.completes.foldl complete { o.serving with turns } } := by unfold rest; rw [ht]
    unfold Ensures
    rw [hrest]
    apply ask_ends
    · intro r o' hr
      simp only at hr
      cases ha : act (t.completes.foldl complete { o.serving with turns }) with
      | error e => rw [ha] at hr; cases hr
      | ok a =>
        rw [ha] at hr
        cases hr
        exact ⟨fun _ => (hok a.1 a.2 ha).1, fun e _ => (hok a.1 a.2 ha).2 e⟩
    · exact fun e _ => herr e
    · exact fun e _ => herr e.1
    · exact fun _ => hst

/-- A REST call that returns leaves the state it has read. -/
theorem rest_reads {α : Type} {act : VertexServing → Except AdaptationError (α × VertexServing)}
    {D : Nat × α → Outside VertexServing → Prop}
    (h : ∀ now a s', act now = .ok (a, s') → ∀ n, D (n, a) { o with serving := s' }) :
    Ensures (rest act) o D (fun _ _ => True) (fun _ => True) :=
  rest_ends (fun t _ _ => ⟨fun a s' ha => ⟨h _ a s' ha t.polls, fun _ => trivial⟩, fun _ => trivial, trivial⟩) trivial

theorem readEndpoint_serves : Ensures (readEndpoint model) o
    (fun st o' => st.ready = true → ServesAll o'.serving model st.version) (fun _ _ => True) (fun _ => True) := by
  unfold readEndpoint getEndpoint
  refine .bind (.bind (rest_reads ?_))
  intro now e s' ha n
  cases ha
  exact .ret (.ret servesAll_of_stateOf)

theorem status_serves : Ensures (status model) o
    (fun st o' => st.ready = true → ServesAll o'.serving model st.version) (fun _ _ => True) (fun _ => True) := by
  unfold status
  refine .bind (.of_done rfl ?_)
  split
  · exact readEndpoint_serves
  · rename_i name version hp
    unfold getOperation
    refine .bind (.bind (rest_reads fun now r s' _ n => .ret ?_))
    split
    · exact .ret fun h => nomatch h
    · exact .bind (.modify readEndpoint_serves)
    · refine .bind (.modify (.ret fun h => ?_))
      cases h

theorem poll_serves (polls : List Poll) (o : Outside VertexServing) :
    Ensures (Deployer.poll port model version false polls) o
      (fun _ o' => ServesAll o'.serving model version) (fun _ _ => True) (fun _ => True) := by
  induction polls generalizing o with
  | nil => exact .raise trivial
  | cons p polls ih =>
    refine .bind (status_serves.mono ?_ (fun _ _ h => h) (fun _ h => h))
    intro st o' hst
    split
    · rename_i h
      rw [← h.2]
      exact .ret (hst h.1)
    · split
      · exact .raise trivial
      · split
        · exact .raise trivial
        · exact ih o'

theorem revert_serves (f : RevertAnswers) (previous : Option DeploymentTarget) (o : Outside VertexServing) :
    Ensures (Deployer.revert port f model previous) o
      (fun held o' => held = true → ServesAll o'.serving model (previous.map (·.version)))
      (fun e _ => e.cls.framework = false) (fun _ => True) := by
  have caught (e : AdaptationError) (o' : Outside VertexServing) :
      Ensures (if e.cls.framework then pure false else .raise e : VertexAct Bool) o'
        (fun held o' => held = true → ServesAll o'.serving model (previous.map (·.version)))
        (fun e _ => e.cls.framework = false) (fun _ => True) := by
    split
    · exact .ret fun h => nomatch h
    · rename_i hf
      exact .raise (by simpa using hf)
  refine .handle (.bind ((Effects.Ensures.self _ _).mono ?_ (fun e o₁ _ => caught e o₁) fun _ _ => trivial))
  intro _ o₁ _
  refine .bind ((poll_serves f.polls o₁).mono ?_ (fun e o₂ _ => caught e o₂) fun _ _ => trivial)
  intro _ o₂ h
  exact .ret fun _ => h

theorem rolloutFailed_serves (f : RolloutAnswers) (target : DeploymentTarget) (previous : Option DeploymentTarget)
    (e : AdaptationError) (o : Outside VertexServing) :
    Ensures (Deployer.rolloutFailed port f target previous e) o (fun _ _ => True)
      (fun e o' => e.cls = .deployment → e.context.lookup "restored" = some (.bool true) →
        ServesAll o'.serving target.model (previous.map (·.version))) (fun _ => True) := by
  unfold Deployer.rolloutFailed
  split
  · refine .bind ((revert_serves f.revert previous o).mono ?_ ?_ fun _ _ => trivial)
    · intro restored o' h
      refine .raise fun _ hr => h ?_
      simpa [deploymentError, List.lookup_cons] using hr
    · intro e o' hf hc
      rw [hc] at hf
      cases hf
  · rename_i hf
    refine .raise fun hc => ?_
    rw [hc] at hf
    exact absurd rfl hf

theorem RolledBack.serves {previous : Option DeploymentTarget} (h : RolledBack model previous o o') :
    ServesAll o'.serving model (previous.map (·.version)) := by
  cases h with
  | revert f h => exact (revert_serves f previous o).elim_done h rfl
  | rollout f target e hm h he hr =>
    subst hm
    have hend : Ensures (Deployer.rollout port f target previous) o (fun _ _ => True)
        (fun e o' => e.cls = .deployment → e.context.lookup "restored" = some (.bool true) →
          ServesAll o'.serving target.model (previous.map (·.version))) (fun _ => True) := by
      refine .handle ((Effects.Ensures.self _ _).mono (fun _ _ _ => trivial) ?_ fun _ _ => trivial)
      intro e o' _
      exact rolloutFailed_serves f target previous e o'
    unfold Ensures at hend
    rw [h] at hend
    exact hend he hr

end

/-! ### What later completions do -/

section
variable {s s' : VertexServing} {model : String} {version : Option Version} {op : VertexOperation} {e : VertexEndpoint}
  {d : DeployedModel}

theorem le_foldr_max {n : Nat} : ∀ {l : List Nat}, n ∈ l → n ≤ l.foldr max 0
  | m :: l, h => by
    rcases List.mem_cons.mp h with rfl | h
    · exact Nat.le_max_left ..
    · exact Nat.le_trans (le_foldr_max h) (Nat.le_max_right ..)

theorem freshId_deployed (hd : d ∈ e.deployedModels) : d.id ≠ s.freshId e := by
  have hle : d.id ≤ _ := le_foldr_max (List.mem_append_left (s.operations.filterMap undeployed)
    (List.mem_map_of_mem (f := DeployedModel.id) hd))
  unfold freshId
  omega

theorem freshId_undeployed {id : Nat} (hop : op ∈ s.operations)
    (hw : op.work = .undeployModel id) : id ≠ s.freshId e := by
  have hund : undeployed op = some id := by
    unfold undeployed
    rw [hw]
  have hle : id ≤ _ := le_foldr_max (List.mem_append_right (e.deployedModels.map DeployedModel.id)
    (List.mem_filterMap.mpr ⟨op, hop, hund⟩))
  unfold freshId
  omega

theorem allTraffic_deployed (hm : d.model = model) (hfresh : ∀ c ∈ e.deployedModels, c.id ≠ d.id) :
    allTraffic model (deployedTo e d) = [d] := by
  unfold allTraffic deployedTo
  simp only [List.filter_append, List.filter_cons, hm, decide_true, if_true, List.filter_nil]
  have hold : (e.deployedModels.filter fun c => c.model = model).filter (fun c =>
      (if c.id = d.id then 100 else 0) = 100) = [] := by
    rw [List.filter_eq_nil_iff]
    intro c hc
    simp [hfresh c (List.mem_of_mem_filter hc)]
  rw [hold]
  rfl

theorem allTraffic_undeployed (id : Nat) :
    allTraffic model (undeployedFrom e id) = (allTraffic model e).filter fun d => d.id ≠ id := by
  unfold allTraffic undeployedFrom
  simp only [List.filter_filter]
  apply List.filter_congr
  intro c _
  by_cases hc : c.id = id <;> simp [hc]

/-- The version serves and no running operation takes the traffic off it. -/
inductive Quiet (s : VertexServing) (model : String) : Option Version → Prop
  | serving (version : Version) (e : VertexEndpoint) (d : DeployedModel) (he : s.endpoints model = some e)
      (hd : allTraffic model e = [d]) (hv : d.version = version)
      (hops : ∀ op ∈ s.operations, op.model = model → op.progress = .running →
        op.work ≠ .undeployModel d.id ∧ ∀ other, op.work = .deployModel other →
        other = version) : Quiet s model (some version)
  | nothing (he : ∀ e, s.endpoints model = some e → e.deployedModels.filter (fun d => d.model = model) = [])
      (hops : ∀ op ∈ s.operations, op.model = model → op.progress = .running →
        ∀ other, op.work ≠ .deployModel other) :
      Quiet s model none

theorem Quiet.serves (h : Quiet s model version) : ServesAll s model version := by
  cases h with
  | serving version e d he hd hv => exact ⟨e, d, he, hd, hv⟩
  | nothing he => exact he

theorem takesTraffic_deploy {other : Version} (hm : op.model = model) (hp : op.progress = .running)
    (hw : op.work = .deployModel other) : takesTraffic s model version op = (some other != version) := by
  simp [takesTraffic, hm, hp, hw]

theorem takesTraffic_undeploy {id : Nat} (hm : op.model = model) (hp : op.progress = .running)
    (hw : op.work = .undeployModel id) (he : s.endpoints model = some e) (hd : allTraffic model e = [d]) :
    takesTraffic s model version op = (version.isSome && d.id == id) := by
  simp [takesTraffic, hm, hp, hw, he, hd]

theorem Quiet.of_none (h : ServesAll s model version)
    (hops : ∀ op ∈ s.operations, takesTraffic s model version op = false) : Quiet s model version := by
  cases version with
  | none =>
    apply Quiet.nothing h
    intro op hop hm hp other hw
    have hno := hops op hop
    rw [takesTraffic_deploy hm hp hw] at hno
    cases hno
  | some version =>
    obtain ⟨e, d, he, hd, hv⟩ := h
    apply Quiet.serving version e d he hd hv
    intro op hop hm hp
    have hno := hops op hop
    constructor
    · intro hw
      rw [takesTraffic_undeploy hm hp hw he hd] at hno
      simp at hno
    · intro other hw
      rw [takesTraffic_deploy hm hp hw] at hno
      simpa using hno

@[simp] theorem setEndpoint_same : (s.setEndpoint model e).endpoints model = some e := by simp [setEndpoint]

@[simp] theorem setEndpoint_other {m : String} (hm : model ≠ m) :
    (s.setEndpoint m e).endpoints model = s.endpoints model := by simp [setEndpoint, hm]

@[simp] theorem setEndpoint_operations : (s.setEndpoint model e).operations = s.operations := rfl

@[simp] theorem applied_operations : (s.applied op).operations = s.operations := by
  unfold VertexServing.applied
  split <;> rfl

theorem applied_other (hm : model ≠ op.model) : (s.applied op).endpoints model = s.endpoints model := by
  unfold VertexServing.applied
  split <;> simp [hm]

theorem Quiet.keep (h : Quiet s model version) (he : s'.endpoints model = s.endpoints model)
    (hops : ∀ op ∈ s'.operations, op.model = model → op.progress = .running → op ∈ s.operations) :
    Quiet s' model version := by
  cases h with
  | serving version e d hs hd hv hq =>
    exact .serving version e d (he.trans hs) hd hv fun op hop hm hp => hq op (hops op hop hm hp) hm hp
  | nothing hs hq =>
    apply Quiet.nothing
    · rw [he]
      exact hs
    · exact fun op hop hm hp => hq op (hops op hop hm hp) hm hp

theorem Quiet.applied (h : Quiet s model version) (hop : op ∈ s.operations) (hp : op.progress = .running) :
    Quiet (s.applied op) model version := by
  by_cases hm : op.model = model
  · subst hm
    cases h with
    | serving version e d he hd hv hops =>
      obtain ⟨hund, hdep⟩ := hops op hop rfl hp
      unfold VertexServing.applied
      rw [he, Option.getD_some]
      split
      · exact .serving version e d setEndpoint_same hd hv hops
      · rename_i other hw
        have hother : other = version := hdep other hw
        refine .serving version _ _ setEndpoint_same (allTraffic_deployed rfl fun c hc => freshId_deployed hc) hother ?_
        intro op' hop' hm' hp'
        constructor
        · exact fun hw' => freshId_undeployed hop' hw' rfl
        · exact (hops op' hop' hm' hp').2
      · rename_i id hw
        have hid : d.id ≠ id := by
          intro hid
          exact hund (hid ▸ hw)
        refine .serving version _ d setEndpoint_same ?_ hv hops
        rw [allTraffic_undeployed, hd]
        simp [hid]
    | nothing he hops =>
      unfold VertexServing.applied
      have hempty : ((s.endpoints op.model).getD ⟨[], fun _ => 0⟩).deployedModels.filter (fun d =>
          d.model = op.model) = [] := by
        cases hs : s.endpoints op.model with
        | none => rfl
        | some e => exact he e hs
      split
      · refine .nothing ?_ hops
        intro e' he'
        rw [setEndpoint_same] at he'
        cases he'
        exact hempty
      · rename_i other hw
        exact absurd hw (hops op hop rfl hp other)
      · refine .nothing ?_ hops
        intro e' he'
        rw [setEndpoint_same] at he'
        cases he'
        unfold undeployedFrom
        rw [List.filter_filter, List.filter_eq_nil_iff]
        rw [List.filter_eq_nil_iff] at hempty
        intro d hd
        simpa using fun hd' => absurd hd' (by simpa using hempty d hd)
  · apply h.keep (applied_other fun hm' => hm hm'.symm)
    intro op' hop' _ _
    rwa [applied_operations] at hop'

theorem Quiet.complete (h : Quiet s model version) (c : Nat × Bool) : Quiet (s.complete c) model version := by
  unfold VertexServing.complete
  split
  · rename_i op hop
    split
    · rename_i hp
      have hstill (s' : VertexServing) (hs' : Quiet s' model version) (hsame : s'.operations = s.operations)
          (p : Progress) (hdone : p ≠ .running) :
          Quiet { s' with operations := s.operations.set c.1 { op with progress := p } } model version := by
        refine Quiet.keep hs' rfl ?_
        intro op' hop' _ hp'
        rcases List.mem_or_eq_of_mem_set hop' with hin | rfl
        · rwa [hsame]
        · exact absurd hp' hdone
      by_cases hw : c.2 = true
      · simp only [hw, if_true]
        exact hstill _ (h.applied (List.mem_of_getElem? hop) hp) applied_operations .done (by decide)
      · simp only [hw]
        exact hstill s h rfl .failed (by decide)
    · exact h
  · exact h

theorem Quiet.completes (h : Quiet s model version) (cs : List (Nat × Bool)) :
    Quiet (cs.foldl VertexServing.complete s) model version := by
  induction cs generalizing s with
  | nil => exact h
  | cons c cs ih => exact ih (h.complete c)

end

/-! ### What the other calls do -/

section
variable {model other : String} {version : Option Version} {α : Type}

/-- The invariant of everything that spares the model. -/
abbrev Kept (model : String) (version : Option Version) (o : Outside VertexServing) : Prop := Quiet o.serving model version

theorem rest_keeps {act : VertexServing → Except AdaptationError (α × VertexServing)}
    (hact : ∀ s a s', Quiet s model version → act s = .ok (a, s') → Quiet s' model version) :
    Keeps (Kept model version) (rest act) := by
  intro o h
  apply rest_ends
  · intro t turns _
    have hthen : Quiet { o.serving with turns } model version := Quiet.keep h rfl fun _ hop _ _ => hop
    have hnow := hthen.completes t.completes
    refine ⟨?_, fun _ => hnow, hnow⟩
    intro a s' ha
    have hs' := hact _ a s' hnow ha
    exact ⟨hs', fun _ => hs'⟩
  · exact h

theorem getEndpoint_keeps : Keeps (Kept model version) (getEndpoint other) := by
  apply Keeps.bind
  · apply rest_keeps
    intro s a s' h ha
    cases ha
    exact h
  · exact fun _ => Keeps.ret _

theorem getOperation_keeps (name : Nat) : Keeps (Kept model version) (getOperation other name) := by
  apply Keeps.bind
  · apply rest_keeps
    intro s a s' h ha
    split at ha
    · cases ha
      exact h
    · cases ha
  · exact fun _ => Keeps.ret _

theorem startOperation_keeps (hm : other ≠ model) (work : VertexWork) :
    Keeps (Kept model version) (startOperation other work) := by
  apply rest_keeps
  intro s a s' h ha
  split at ha
  · cases ha
    refine Quiet.keep h rfl ?_
    intro op hop hop' _
    rcases List.mem_append.mp hop with hin | hin
    · exact hin
    · rw [List.mem_singleton.mp hin] at hop'
      exact absurd hop' hm
  · cases ha

theorem patchTraffic_keeps (hm : other ≠ model) (split : Nat → Nat) :
    Keeps (Kept model version) (patchTraffic other split) := by
  apply Keeps.bind
  · apply rest_keeps
    intro s a s' h ha
    split at ha
    · cases ha
      exact Quiet.keep h (setEndpoint_other hm.symm) fun _ hop _ _ => hop
    · cases ha
  · exact fun _ => Keeps.ret _

theorem setPending_keeps (p : Option (Nat × Version)) : Keeps (Kept model version) (setPending other p) :=
  .modify fun _ h => Quiet.keep h rfl fun _ hop _ _ => hop

theorem pendingOf_keeps : Keeps (Kept model version) (pendingOf other) := fun _ h => .of_done rfl h

theorem wait_keeps (name polls : Nat) (p : Progress) : Keeps (Kept model version) (wait other name polls p) := by
  induction polls generalizing p with
  | zero =>
    cases p with
    | done => exact .ret ()
    | failed => exact .raise _
    | running => exact .raise _
  | succ polls ih =>
    cases p with
    | done => exact .ret ()
    | failed => exact .raise _
    | running => exact .bind (getOperation_keeps name) ih

theorem undeployAll_keeps (hm : other ≠ model) (ids : List Nat) : Keeps (Kept model version) (undeployAll other ids) := by
  induction ids with
  | nil => exact .ret ()
  | cons id ids ih =>
    have hone : Keeps (Kept model version) (undeploy other id) :=
      .bind (startOperation_keeps hm _) fun r => wait_keeps r.2 r.1 .running
    exact .bind hone fun _ => ih

theorem readEndpoint_keeps : Keeps (Kept model version) (readEndpoint other) :=
  .bind getEndpoint_keeps fun _ => .ret _

theorem status_keeps : Keeps (Kept model version) (status other) := by
  apply Keeps.bind pendingOf_keeps
  intro p
  cases p with
  | none => exact readEndpoint_keeps
  | some p =>
    apply Keeps.bind (getOperation_keeps p.1)
    intro progress
    cases progress with
    | running => exact .ret _
    | done => exact .bind (setPending_keeps none) fun _ => readEndpoint_keeps
    | failed => exact .bind (setPending_keeps none) fun _ => .ret _

theorem deploy_keeps {target : DeploymentTarget} (hm : target.model ≠ model) :
    Keeps (Kept model version) (deploy target) := by
  have hrest (stale : List Nat) : Keeps (Kept model version) (do
      undeployAll target.model stale
      let (_, name) ← startOperation target.model (.deployModel target.version)
      setPending target.model (some (name, target.version))) := by
    apply Keeps.bind (undeployAll_keeps hm stale)
    intro _
    exact .bind (startOperation_keeps hm _) fun r => setPending_keeps _
  apply Keeps.bind getEndpoint_keeps
  intro e
  cases e with
  | some e => exact .bind (.ret _) hrest
  | none =>
    apply Keeps.bind (startOperation_keeps hm .createEndpoint)
    intro r
    apply Keeps.bind (wait_keeps r.2 r.1 .running)
    exact fun _ => .bind (.ret _) hrest

theorem restore_keeps {previous : Option DeploymentTarget} (hm : other ≠ model)
    (hp : ∀ p ∈ previous, p.model ≠ model) :
    Keeps (Kept model version) (restore other previous) := by
  apply Keeps.bind (setPending_keeps none)
  intro _
  apply Keeps.bind getEndpoint_keeps
  intro e
  cases e with
  | none =>
    cases previous with
    | none => exact .ret ()
    | some previous => exact deploy_keeps (hp previous rfl)
  | some e =>
    cases previous with
    | none => exact undeployAll_keeps hm _
    | some previous =>
      simp only
      split
      · exact deploy_keeps (hp previous rfl)
      · exact patchTraffic_keeps hm _

theorem step_keeps {o o' : Outside VertexServing} {l : Later} (h : Kept model version o) (hl : l.spares model = true)
    (hs : l.step o = some o') : Kept model version o' := by
  have given (turns : List Turn) : Kept model version { o with serving := { o.serving with turns } } :=
    Quiet.keep h rfl fun _ hop _ _ => hop
  cases l with
  | completes name works =>
    cases hs
    exact h.complete (name, works)
  | status m turns =>
    cases hs
    exact status_keeps.after (given turns)
  | deploy target turns =>
    cases hs
    exact (deploy_keeps (by simpa [Later.spares] using hl)).after (given turns)
  | restore m previous turns =>
    cases hs
    have hsp : m ≠ model ∧ ∀ p ∈ previous, p.model ≠ model := by
      cases previous <;> simpa [Later.spares] using hl
    exact (restore_keeps hsp.1 hsp.2).after (given turns)

end

/-! ### Until the next deploy, restore or revert -/

section
variable {model : String} {version : Option Version} {s : VertexServing} {op : VertexOperation}

theorem ServesAll.unique {e : VertexEndpoint} {d : DeployedModel} (h : ServesAll s model version)
    (he : s.endpoints model = some e) (hd : allTraffic model e = [d]) : version = some d.version := by
  cases version with
  | none =>
    have hnone := h e he
    unfold allTraffic at hd
    rw [hnone] at hd
    cases hd
  | some version =>
    obtain ⟨e', d', he', hd', hv⟩ := h
    rw [he] at he'; cases he'
    rw [hd] at hd'; cases hd'
    rw [hv]

theorem applied_takes (hserves : ServesAll s model version) (hm : op.model = model)
    (ht : takesTraffic s model version op = true) : ¬ ServesAll (s.applied op) model version := by
  subst hm
  intro hafter
  have hp : op.progress = .running := by
    simp only [takesTraffic, Bool.and_eq_true, beq_iff_eq] at ht
    exact ht.1.2
  cases hw : op.work with
  | createEndpoint => simp [takesTraffic, hw] at ht
  | deployModel other =>
    rw [takesTraffic_deploy rfl hp hw] at ht
    unfold VertexServing.applied at hafter
    simp only [hw] at hafter
    have hnew := hafter.unique setEndpoint_same (allTraffic_deployed rfl fun c hc => freshId_deployed hc)
    simp [hnew] at ht
  | undeployModel id =>
    cases version with
    | none => simp [takesTraffic, hw] at ht
    | some version =>
      obtain ⟨e, d, he, hd, hv⟩ := hserves
      rw [takesTraffic_undeploy rfl hp hw he hd] at ht
      have hid : d.id = id := by simpa using ht
      unfold VertexServing.applied at hafter
      simp only [hw, he, Option.getD_some] at hafter
      obtain ⟨e', d', he', hd', -⟩ := hafter
      rw [setEndpoint_same] at he'; cases he'
      rw [allTraffic_undeployed, hd] at hd'
      simp [hid] at hd'

/-- A rolled-back endpoint keeps its traffic, whatever completes and whatever is
done to other models, exactly when the revert returned with no operation under
way that takes it. -/
theorem rolled_back_stays {previous : Option DeploymentTarget} {o o' : Outside VertexServing}
    (h : RolledBack model previous o o') :
    (∀ o'', Steps Later.step (fun _ l => l.spares model = true) o' o'' →
      ServesAll o''.serving model (previous.map (·.version))) ↔
    ∀ op ∈ o'.serving.operations, takesTraffic o'.serving model (previous.map (·.version)) op = false := by
  constructor
  · intro hstays op hop
    by_contra ht
    have ht : takesTraffic o'.serving model (previous.map (·.version)) op = true := by simpa using ht
    obtain ⟨i, hi, hget⟩ := List.getElem_of_mem hop
    have hop' : o'.serving.operations[i]? = some op := by rw [List.getElem?_eq_getElem hi, hget]
    have hparts : op.model = model ∧ op.progress = .running := by
      simp only [takesTraffic, Bool.and_eq_true, beq_iff_eq] at ht
      exact ht.1
    have hdone := hstays _ ((Steps.refl o').tail (a := .completes i true) rfl rfl)
    apply applied_takes h.serves hparts.1 ht
    simp only [VertexServing.complete, hop', hparts.2, if_true] at hdone
    exact hdone
  · intro hno o'' hsteps
    have hquiet : Kept model (previous.map (·.version)) o' := Quiet.of_none h.serves hno
    exact Quiet.serves (hsteps.inv (Kept model (previous.map (·.version)))
      (fun _ _ _ hk hl hs => step_keeps hk hl hs) hquiet)

end

/-! ### A rollout that times out -/

def stable : DeploymentTarget := ⟨"nwdaf", "1", none⟩

def candidate : DeploymentTarget := ⟨"nwdaf", "2", none⟩

/-- Version 1 has all traffic, and there is time for these REST calls. -/
def stableServing (turns : List Turn) : Outside VertexServing where
  registry := ⟨fun _ _ => none, fun _ _ => none, fun _ _ _ h => nomatch h⟩
  serving := ⟨fun m => if m = "nwdaf" then some ⟨[⟨1, "nwdaf", "1"⟩], fun id => if id = 1 then 100 else 0⟩
    else none, [],
    fun _ => none, turns⟩

/-- The rollout of version 2 gives up while its operation runs, or just after. -/
def timedOut (turns : List Turn) : Outside VertexServing :=
  (Deployer.rollout port {} candidate (some stable)).after (stableServing turns)

def outsideSight : List Turn := [{}, {}, {}, {}, {}, {}]

def beforeRestore : List Turn := [{}, {}, {}, { completes := [(0, true)] }, {}, {}]

theorem timedOut_rolledBack (turns : List Turn) (e : AdaptationError)
    (h : (Deployer.rollout port {} candidate (some stable) (stableServing turns)).1 = .raised e) (he : e.cls = .deployment)
    (hr : e.context.lookup "restored" = some (.bool true)) :
    RolledBack "nwdaf" (some stable) (stableServing turns) (timedOut turns) :=
  .rollout {} candidate e rfl (Prod.ext h rfl) he hr

theorem rolled_back_stays_restored : (∃ o, RolledBack "nwdaf" (some stable) o (timedOut beforeRestore)) ∧
    ∀ o'', Steps Later.step (fun _ l => l.spares "nwdaf" = true) (timedOut beforeRestore) o'' →
      ServesAll o''.serving "nwdaf" (some "1") := by
  have hback := timedOut_rolledBack beforeRestore _ rfl rfl rfl
  refine ⟨⟨_, hback⟩, (rolled_back_stays hback).mpr ?_⟩
  decide +kernel

/-- The operation that nobody waits for any more completes after the read-back. -/
theorem rolled_back_then_replaced : ∃ o o' o'', RolledBack "nwdaf" (some stable) o o' ∧
    Steps Later.step (fun _ l => l.spares "nwdaf" = true) o' o'' ∧ ¬ ServesAll o''.serving "nwdaf" (some "1") := by
  refine ⟨_, _, _, timedOut_rolledBack outsideSight _ rfl rfl rfl,
    (Steps.refl _).tail (a := .completes 0 true) rfl rfl, ?_⟩
  rintro ⟨e, d, he, hd, hv⟩
  cases he
  cases hd
  revert hv
  decide +kernel

end VertexDeployment

end OranAdapt
