import Mathlib.Logic.Function.Basic
import OranAdapt.Deployment
import OranAdapt.JsonText
import OranAdapt.Runs

/-!
# Deploying through git

`adapters.deployment.gitops`: a manifest per model in a checkout, committed and
pushed; a controller applies the remote branch and a status URL tells what is
served. The last command of a call is the only one the controller can see, so
what it and the serving system do stands between the calls.
-/

namespace OranAdapt

/-! ## The checkout -/

abbrev Snapshot := String → Option String

/-- The checkout and the remote branch. The newest commit stands first. -/
structure Checkout where
  tree : Snapshot
  index : Snapshot
  head : List Snapshot
  remote : List Snapshot

namespace Checkout

def top (commits : List Snapshot) : Snapshot := commits.headD fun _ => none

variable (c : Checkout) (path : String)

/-- `git status --porcelain` has nothing to say about the path. -/
def clean : Bool := c.tree path = c.index path ∧ c.index path = top c.head path

def write (content : String) : Checkout := { c with tree := Function.update c.tree path (some content) }

def add : Checkout := { c with index := Function.update c.index path (c.tree path) }

def gitError (command : String) : AdaptationError := ⟨.deployment, "git " ++ command ++ " failed", []⟩

/-- `git rm` refuses a file that differs from the index or from HEAD, and takes
one that is gone from the tree. -/
def rm : Except AdaptationError (Unit × Checkout) :=
  if c.index path = none then .error (gitError "rm")
  else if c.tree path ≠ none ∧ ¬ c.clean path then .error (gitError "rm")
  else .ok ((), { c with
    tree := Function.update c.tree path none, index := Function.update c.index path none })

/-- `git commit -- path` takes the path from the tree, whatever else is staged. -/
def commit : Except AdaptationError (Unit × Checkout) :=
  if c.tree path = top c.head path then .error (gitError "commit")
  else .ok ((), { c with
    index := Function.update c.index path (c.tree path),
    head := Function.update (top c.head) path (c.tree path) :: c.head })

def push : Checkout := { c with remote := c.head }

end Checkout

/-! ## The adapter -/

inductive PathPart where
  | text (s : String)
  | model
  | name

/-- The settings, with what the code takes from elsewhere: `dnsName`, and
`resolve`, the path inside the checkout that a path resolves to. -/
structure GitOpsSettings where
  manifestPath : List PathPart
  template : Option (List (String × String) → Except AdaptationError String)
  branch : Option String
  dnsName : String → Except AdaptationError String
  resolve : String → Option String

/-- An answer of the status endpoint; `body` is the document when it has a
`version` and a `ready`. -/
structure StatusAnswer where
  code : Nat
  body : Option DeploymentState

namespace GitOpsDeployment

open Effects Checkout Runs

abbrev GitAct (α : Type) := Act Checkout AdaptationError α

variable (G : GitOpsSettings)

def PathPart.format (model name : String) : PathPart → String
  | .text s => s
  | .model => model
  | .name => name

def relative (model : String) : Except AdaptationError String := do
  let name ← G.dnsName model
  match G.resolve (String.join (G.manifestPath.map (PathPart.format model name))) with
  | some path => .ok path
  | none => .error ⟨.other "CONFIGURATION_ERROR", "GITOPS_MANIFEST_PATH points outside GITOPS_REPO_DIR",
      [("key", .str "gitops_manifest_path")]⟩

/-- `json.dumps` with an indent and sorted keys. -/
def indented (fields : List (String × String)) : String :=
  "\x7b\n" ++ String.intercalate ",\n" (fields.map fun f =>
    "  " ++ String.ofList (Json.strText f.1) ++ ": " ++ String.ofList (Json.strText f.2)) ++ "\n\x7d\n"

def manifest (target : DeploymentTarget) : Except AdaptationError String := do
  let name ← G.dnsName target.model
  let source := target.source.getD ""
  match G.template with
  | none => .ok (indented [("model", target.model), ("name", name), ("source", source), ("version", target.version)])
  | some substitute =>
    substitute [("model", target.model), ("name", name), ("version", target.version), ("source", source)]

def git {α : Type} (f : Answer) (act : Checkout → Except AdaptationError (α × Checkout)) : GitAct α := ask f act

/-- The branch is read off the checkout when GITOPS_BRANCH is not set. -/
def pushBranch (f : Nat → Answer) : GitAct Unit := do
  Act.skipIf G.branch.isSome (git (f 2) fun c => .ok ((), c))
  git (f 3) fun c => .ok ((), c.push)

def commitPath (f : Nat → Answer) (path : String) : GitAct Unit := do
  let clean ← git (f 0) fun c => .ok (c.clean path, c)
  if clean then pure ()
  else do
    git (f 1) fun c => c.commit path
    pushBranch G f

def deploy (f : Nat → Answer) (target : DeploymentTarget) : GitAct Unit :=
  match relative G target.model, manifest G target with
  | .ok path, .ok content => do
    git (f 4) fun c => .ok ((), c.write path content)
    git (f 5) fun c => .ok ((), c.add path)
    commitPath G f path
  | .error e, _ | _, .error e => .raise e

def undeploy (f : Nat → Answer) (model : String) : GitAct Unit :=
  match relative G model with
  | .ok path => do
    let listed ← git (f 6) fun c => .ok ((c.index path).isSome, c)
    if listed then do
      git (f 7) fun c => c.rm path
      commitPath G f path
    else pure ()
  | .error e => .raise e

def restore (f : Nat → Answer) (model : String) : Option DeploymentTarget → GitAct Unit
  | some previous => deploy G f previous
  | none => undeploy G f model

def status : StatusAnswer → Except AdaptationError DeploymentState
  | ⟨404, _⟩ => .ok ⟨none, true, false⟩
  | ⟨code, body⟩ =>
    if 400 ≤ code then .error ⟨.deployment, "the GitOps status endpoint answered an error", []⟩
    else match body with
      | some state => .ok state
      | none => .error ⟨.deploymentUnavailable,
          "the GitOps status endpoint returned a status document without 'version' and 'ready'", []⟩

/-! ## Calls, controller and serving system -/

inductive Call where
  | deploy (target : DeploymentTarget)
  | restore (model : String) (previous : Option DeploymentTarget)

/-- The model whose manifest the call is about. -/
def Call.model : Call → String
  | .deploy target => target.model
  | .restore model previous => (previous.map (·.model)).getD model

def Call.wanted : Call → Option DeploymentTarget
  | .deploy target => some target
  | .restore _ previous => previous

def Call.version (call : Call) : Option Version := call.wanted.map (·.version)

def Call.run (call : Call) (f : Nat → Answer) : GitAct Unit :=
  match call with
  | .deploy target => GitOpsDeployment.deploy G f target
  | .restore model previous => GitOpsDeployment.restore G f model previous

/-- The checkout and what is served. `asked` holds the versions asked for since
a call for the model last returned normally, that call's own among them; `left`
says that the system has moved away from one of them by itself. -/
structure Served where
  checkout : Checkout
  serving : String → DeploymentState
  asked : String → Option (List (Option Version))
  left : String → Bool

inductive Event where
  | call (call : Call) (f : Nat → Answer)
  /-- The controller applies the remote branch to a model. -/
  | applies (model : String) (ready failed : Bool)
  /-- The system moves away from a version that was asked for. -/
  | leaves (model : String) (state : DeploymentState)

/-- `read` is the version the controller reads off a manifest. -/
def Event.step (read : String → Option Version) (s : Served) : Event → Option Served
  | .call c f =>
    let returned := (c.run G f s.checkout).1.returned
    let asked := if returned then some [c.version] else (s.asked c.model).map (c.version :: ·)
    some { s with
      checkout := (c.run G f).after s.checkout
      asked := Function.update s.asked c.model asked
      left := if returned then Function.update s.left c.model false else s.left }
  | .applies model ready failed =>
    match relative G model with
    | .ok path =>
      let state : DeploymentState := ⟨(top s.checkout.remote path).bind read, ready, failed⟩
      some { s with serving := Function.update s.serving model state }
    | .error _ => none
  | .leaves model state =>
    if (s.serving model).version ∈ (s.asked model).getD [] then some { s with
      serving := Function.update s.serving model state
      left := Function.update s.left model true }
    else none

/-! ### The contract -/

def Tells (answer : StatusAnswer) (state : DeploymentState) : Prop :=
  (answer.code = 404 → state.version = none ∧ state.ready = true) ∧
    (answer.code ≠ 404 → ∀ told ∈ answer.body, told = state)

def asks (call : Call) : Option (Except AdaptationError String) := call.wanted.map (manifest G)

def Holds (call : Call) (c : Checkout) : Prop :=
  ∃ path, relative G call.model = .ok path ∧ ∃ content : Option String, asks G call = content.map .ok ∧
    top c.head path = content ∧ top c.remote path = content

def OnlyCommits (call : Call) (c c' : Checkout) : Prop :=
  c'.head = c.head ∨ ∃ path content, relative G call.model = .ok path ∧
    c'.head = Function.update (top c.head) path content :: c.head

/-- What a call may do to the branches: nothing, or one commit that gives the
path its content, pushed or not. -/
structure Within (path : String) (content : Option String) (c c' : Checkout) : Prop where
  head : c'.head = c.head ∨ c'.head = Function.update (top c.head) path content :: c.head
  remote : c'.remote = c.remote ∨ c'.remote = c'.head

/-- What a call leaves in the checkout, however it ends. -/
def Committed (call : Call) (c c' : Checkout) : Prop :=
  c' = c ∨ ∃ path content, relative G call.model = .ok path ∧ asks G call = Option.map .ok content ∧
    Within path content c c'

/-- No answer of the endpoint makes `status` report the model ready at a version
that was not asked for, unless the system moved away. -/
def Settled (s : Served) (model : String) : Prop :=
  ∀ versions, s.asked model = some versions → ∀ answer state, Tells answer (s.serving model) →
    status answer = .ok state → state.ready = true → state.version ∈ versions ∨ s.left model = true

/-- Where the call finds nothing to do, both branches hold what it asks for. -/
def UpToDate (call : Call) (c : Checkout) : Prop :=
  ∀ path, relative G call.model = .ok path →
    match call.wanted with
    | some target => ∀ content, manifest G target = .ok content → top c.head path = some content →
        top c.remote path = some content
    | none => c.index path = none ∨ (c.tree path = none ∧ top c.head path = none) →
        top c.head path = none ∧ top c.remote path = none

/-- The step's condition: a call is up to date, the system is not settled at
another version, and no other model's manifest is in its place. -/
def Sound (s : Served) : Event → Prop
  | .call call _ => UpToDate G call s.checkout ∧
    ((s.serving call.model).ready = true → (s.serving call.model).version = call.version) ∧
      ∀ model ≠ call.model, s.asked model ≠ none → ∀ path, relative G model = .ok path →
      relative G call.model ≠ .ok path
  | _ => True

section
variable {G} {c c' : Checkout} {f : Nat → Answer} {path : String} {content : Option String}

theorem Within.refl : Within path content c c := ⟨.inl rfl, .inl rfl⟩

/-- A command that leaves both branches alone. -/
theorem Within.of_eq {c₁ : Checkout} {content' : Option String} (h : Within path content' c₁ c') (hc : content' = content)
    (hh : c₁.head = c.head) (hr : c₁.remote = c.remote) : Within path content c c' := by
  subst hc
  obtain ⟨head, remote⟩ := h
  rw [hh] at head
  rw [hr] at remote
  exact ⟨head, remote⟩

theorem git_ends {α : Type} {act : Checkout → Except AdaptationError (α × Checkout)} {a : Answer}
    {D : α → Checkout → Prop} {P : Checkout → Prop}
    (hact : ∀ x c', act c = .ok (x, c') → D x c' ∧ P c') (hp : P c) :
    Ensures (git a act) c D (fun _ => P) P :=
  ask_ends (fun x c' h => ⟨fun _ => (hact x c' h).1, fun _ _ => (hact x c' h).2⟩) (fun _ _ => hp)
    (fun _ _ => hp) fun _ => hp

theorem pushBranch_ends : Ensures (pushBranch G f) c (fun _ c' => c' = c.push) (fun _ c' => c' = c ∨ c' = c.push)
    (fun c' => c' = c ∨ c' = c.push) := by
  refine .bind (.skipIf ?_ fun _ => ?_)
  · intro _
    refine git_ends ?_ (.inl rfl)
    intro _ c' h
    cases h
    exact ⟨rfl, .inr rfl⟩
  · refine git_ends ?_ (.inl rfl)
    intro _ c' h
    cases h
    refine ⟨?_, .inl rfl⟩
    refine git_ends ?_ (.inl rfl)
    intro _ c' h
    cases h
    exact ⟨rfl, .inr rfl⟩

/-- `_commit` returns with nothing done, or with the path committed and pushed. -/
theorem commitPath_ends : Ensures (commitPath G f path) c
    (fun _ c' => Within path (c.tree path) c c' ∧
      (c.clean path = true ∧ c' = c ∨ c.clean path = false ∧ top c'.head path = c.tree path ∧ c'.remote = c'.head))
    (fun _ => Within path (c.tree path) c) (Within path (c.tree path) c) := by
  refine .bind (git_ends ?_ Within.refl)
  intro clean c₁ h
  cases h
  refine ⟨?_, Within.refl⟩
  cases hc : c.clean path with
  | true => exact .ret ⟨Within.refl, .inl ⟨rfl, rfl⟩⟩
  | false =>
    refine .bind (git_ends ?_ Within.refl)
    intro _ c₁ h
    unfold Checkout.commit at h
    split at h
    · cases h
    · cases h
      have hdone : Within path (c.tree path) c { c with
          index := Function.update c.index path (c.tree path)
          head := Function.update (top c.head) path (c.tree path) :: c.head } := ⟨.inr rfl, .inl rfl⟩
      refine ⟨?_, hdone⟩
      have hpushed : Within path (c.tree path) c (push { c with
          index := Function.update c.index path (c.tree path)
          head := Function.update (top c.head) path (c.tree path) :: c.head }) := ⟨.inr rfl, .inr rfl⟩
      refine pushBranch_ends.mono ?_ ?_ ?_
      · intro _ c' hc'
        rw [hc']
        exact ⟨hpushed, .inr ⟨rfl, by simp [push, top], rfl⟩⟩
      · intro _ c' hc'
        rcases hc' with rfl | rfl
        · exact hdone
        · exact hpushed
      · intro c' hc'
        rcases hc' with rfl | rfl
        · exact hdone
        · exact hpushed

theorem deploy_ends {target : DeploymentTarget} {content : String} (hr : relative G target.model = .ok path)
    (hm : manifest G target = .ok content) : Ensures (GitOpsDeployment.deploy G f target) c
    (fun _ c' => Within path (some content) c c' ∧ top c'.head path = some content ∧
      (top c'.remote path = some content ↔ (top c.head path = some content → top c.remote path = some content)))
    (fun _ => Within path (some content) c) (Within path (some content) c) := by
  unfold GitOpsDeployment.deploy
  rw [hr, hm]
  refine .bind (git_ends ?_ Within.refl)
  intro _ c₁ h
  cases h
  refine ⟨?_, .inl rfl, .inl rfl⟩
  refine .bind (git_ends ?_ ⟨.inl rfl, .inl rfl⟩)
  intro _ c₂ h
  cases h
  refine ⟨?_, .inl rfl, .inl rfl⟩
  have htree : ((c.write path content).add path).tree path = some content := by simp [add, write]
  have hclean : ((c.write path content).add path).clean path = true ↔ top c.head path = some content := by
    simp [clean, add, write, eq_comm]
  refine commitPath_ends.mono ?_ (fun _ _ h => h.of_eq htree rfl rfl) fun _ h => h.of_eq htree rfl rfl
  intro _ c' ⟨h, hdone⟩
  refine ⟨h.of_eq htree rfl rfl, ?_⟩
  rcases hdone with ⟨hc, rfl⟩ | ⟨hc, hhead, hremote⟩
  · have hhead := hclean.mp hc
    exact ⟨hhead, fun hr _ => hr, fun hr => hr hhead⟩
  · have hnot : top c.head path ≠ some content := fun h => by simp [hclean.mpr h] at hc
    rw [hremote, hhead, htree]
    exact ⟨rfl, fun _ h => absurd h hnot, fun _ => rfl⟩

theorem undeploy_ends {model : String} (hr : relative G model = .ok path) : Ensures (undeploy G f model) c
    (fun _ c' => Within path none c c' ∧ (top c'.head path = none ∧ top c'.remote path = none ↔
      (c.index path = none ∨ c.tree path = none ∧ top c.head path = none → top c.head path = none ∧
        top c.remote path = none)))
    (fun _ => Within path none c) (Within path none c) := by
  unfold undeploy
  rw [hr]
  refine .bind (git_ends ?_ Within.refl)
  intro listed c₁ h
  cases h
  refine ⟨?_, Within.refl⟩
  cases hi : c.index path with
  | none => exact .ret ⟨Within.refl, fun h _ => h, fun h => h (.inl rfl)⟩
  | some old =>
    refine .bind (git_ends ?_ Within.refl)
    intro _ c₁ h
    unfold rm at h
    rw [if_neg (by simp [hi])] at h
    split at h
    · cases h
    · rename_i hrm
      cases h
      refine ⟨?_, .inl rfl, .inl rfl⟩
      -- a file that is in HEAD neither before nor after was gone from the tree
      have hgone : top c.head path = none → c.tree path = none := by
        intro hh
        by_contra ht
        have hc : c.clean path = true := by
          by_contra hc
          exact hrm ⟨ht, hc⟩
        simp [clean, hh, hi] at hc
      have htree : Function.update c.tree path none path = none := by simp
      refine commitPath_ends.mono ?_ (fun _ _ h => h.of_eq htree rfl rfl) fun _ h => h.of_eq htree rfl rfl
      intro _ c' ⟨h, hdone⟩
      refine ⟨h.of_eq htree rfl rfl, ?_⟩
      rcases hdone with ⟨hc, rfl⟩ | ⟨hc, hhead, hremote⟩
      · have hh : top c.head path = none := by simpa [clean, eq_comm] using hc
        exact ⟨fun h _ => h, fun h => h (.inr ⟨hgone hh, hh⟩)⟩
      · have hh : top c.head path ≠ none := by
          intro hh
          simp [clean, hh] at hc
        rw [hremote, hhead]
        constructor
        · intro _ hor
          rcases hor with hn | hn
          · cases hn
          · exact absurd hn.2 hh
        · exact fun _ => ⟨htree, htree⟩

theorem holds_iff {call : Call} (hr : relative G call.model = .ok path) (hw : asks G call = Option.map .ok content) :
    Holds G call c ↔ top c.head path = content ∧ top c.remote path = content := by
  constructor
  · rintro ⟨path', hr', content', hw', h⟩
    rw [hr] at hr'; cases hr'
    have hsame : content' = content := by
      rw [hw] at hw'
      cases content <;> cases content' <;> simp_all
    rw [← hsame]
    exact h
  · exact fun h => ⟨path, hr, content, hw, h⟩

theorem target_ends {call : Call} {target : DeploymentTarget} (hmodel : call.model = target.model)
    (hw : call.wanted = some target) : Ensures (GitOpsDeployment.deploy G f target) c
    (fun _ c' => Committed G call c c' ∧ (Holds G call c' ↔ UpToDate G call c)) (fun _ => Committed G call c)
    (Committed G call c) := by
  cases hr : relative G target.model with
  | error e =>
    unfold GitOpsDeployment.deploy
    rw [hr]
    exact .raise (.inl rfl)
  | ok path =>
    cases hm : manifest G target with
    | error e =>
      unfold GitOpsDeployment.deploy
      rw [hr, hm]
      exact .raise (.inl rfl)
    | ok content =>
      have hrel : relative G call.model = .ok path := by rw [hmodel, hr]
      have hasks : asks G call = Option.map .ok (some content) := by simp [asks, hw, hm]
      have hdone {c' : Checkout} (h : Within path (some content) c c') : Committed G call c c' :=
        .inr ⟨path, some content, hrel, hasks, h⟩
      refine (deploy_ends hr hm).mono ?_ (fun _ _ h => hdone h) fun _ h => hdone h
      intro _ c' ⟨h, hhead, hremote⟩
      refine ⟨hdone h, ?_⟩
      rw [holds_iff hrel hasks, hremote]
      unfold UpToDate
      simp [hrel, hw, hm, hhead]

/-- The rule of a call: one commit at most, and on a normal return both branches
hold what was asked for exactly when the call was up to date. -/
theorem run_ends (call : Call) (c : Checkout) : Ensures (call.run G f) c
    (fun _ c' => Committed G call c c' ∧ (Holds G call c' ↔ UpToDate G call c)) (fun _ => Committed G call c)
    (Committed G call c) := by
  cases call with
  | deploy target => exact target_ends rfl rfl
  | restore model previous =>
    cases previous with
    | some previous => exact target_ends rfl rfl
    | none =>
      change Ensures (undeploy G f model) c _ _ _
      cases hr : relative G model with
      | error e =>
        unfold undeploy
        rw [hr]
        exact .raise (.inl rfl)
      | ok path =>
        have hrel : relative G (Call.restore model none).model = .ok path := hr
        have hdone {c' : Checkout} (h : Within path none c c') : Committed G (.restore model none) c c' :=
          .inr ⟨path, none, hrel, rfl, h⟩
        refine (undeploy_ends hr).mono ?_ (fun _ _ h => hdone h) fun _ h => hdone h
        intro _ c' ⟨h, hboth⟩
        refine ⟨hdone h, ?_⟩
        have hasks : asks G (.restore model none) = Option.map .ok none := rfl
        rw [holds_iff hrel hasks, hboth]
        unfold UpToDate
        simp [hrel, Call.wanted]

theorem Committed.onlyCommits {call : Call} (h : Committed G call c c') : OnlyCommits G call c c' := by
  rcases h with rfl | ⟨path, content, hr, -, h⟩
  · exact .inl rfl
  · rcases h.head with hh | hh
    · exact .inl hh
    · exact .inr ⟨path, content, hr, hh⟩

theorem Within.top_head (h : Within path content c c') (q : String) :
    top c'.head q = top c.head q ∨ q = path ∧ top c'.head q = content := by
  rcases h.head with hh | hh
  · rw [hh]
    exact .inl rfl
  · rw [hh]
    by_cases hq : q = path
    · exact .inr ⟨hq, by simp [top, hq]⟩
    · exact .inl (by simp [top, hq])

theorem Within.top_remote (h : Within path content c c') (q : String) :
    top c'.remote q = top c.remote q ∨ top c'.remote q = top c'.head q := by
  rcases h.remote with hr | hr
  · rw [hr]
    exact .inl rfl
  · rw [hr]
    exact .inr rfl

end

/-! ### Every run -/

section
variable {G} {read : String → Option Version} {s s' : Served}

theorem told {answer : StatusAnswer} {state st : DeploymentState} (ht : Tells answer state) (h : status answer = .ok st)
    (hready : st.ready = true) : state.ready = true ∧ st.version = state.version := by
  unfold status at h
  split at h
  · cases h
    obtain ⟨hv, hr⟩ := ht.1 rfl
    exact ⟨hr, hv.symm⟩
  · rename_i code body hne
    split at h
    · cases h
    · cases body with
      | none => cases h
      | some told =>
        cases h
        have hsame : st = state := ht.2 (fun hc => hne hc) st rfl
        exact ⟨hsame ▸ hready, congrArg DeploymentState.version hsame⟩

/-- Both branches hold a version that was asked for, and so does the system while
it has not moved away. -/
def Inv (G : GitOpsSettings) (read : String → Option Version) (s : Served) : Prop :=
  ∀ model versions, s.asked model = some versions → ∃ path, relative G model = .ok path ∧
    (top s.checkout.head path).bind read ∈ versions ∧ (top s.checkout.remote path).bind read ∈ versions ∧
    ((s.serving model).ready = true → (s.serving model).version ∈ versions ∨ s.left model = true)

theorem Inv.settled (h : Inv G read s) (model : String) : Settled s model := by
  intro versions ha answer state ht hs hready
  obtain ⟨path, -, -, -, hserving⟩ := h model versions ha
  obtain ⟨hr, hv⟩ := told ht hs hready
  rw [hv]
  exact hserving hr

theorem asks_read (hread : ∀ target content, manifest G target = .ok content → read content = some target.version)
    {call : Call} {content : Option String} (h : asks G call = Option.map .ok content) :
    content.bind read = call.version := by
  unfold asks at h
  unfold Call.version
  cases hw : call.wanted with
  | none =>
    rw [hw] at h
    cases content with
    | none => rfl
    | some content => cases h
  | some target =>
    rw [hw] at h
    cases content with
    | none => cases h
    | some content => exact hread target content (Option.some.inj h)

theorem Committed.reads (hread : ∀ target content, manifest G target = .ok content → read content = some target.version)
    {call : Call} {c c' : Checkout} (h : Committed G call c c') {versions : List (Option Version)} {path : String}
    (hv : relative G call.model = .ok path → call.version ∈ versions) (hh : (top c.head path).bind read ∈ versions)
    (hr : (top c.remote path).bind read ∈ versions) :
    (top c'.head path).bind read ∈ versions ∧ (top c'.remote path).bind read ∈ versions := by
  rcases h with rfl | ⟨path', content, hrel, hasks, h⟩
  · exact ⟨hh, hr⟩
  · have hhead : (top c'.head path).bind read ∈ versions := by
      rcases h.top_head path with hsame | ⟨rfl, hnew⟩
      · rw [hsame]
        exact hh
      · rw [hnew, asks_read hread hasks]
        exact hv hrel
    refine ⟨hhead, ?_⟩
    rcases h.top_remote path with hsame | hpushed
    · rw [hsame]
      exact hr
    · rw [hpushed]
      exact hhead

theorem run_returned {call : Call} {f : Nat → Answer} {c : Checkout} (hret : (call.run G f c).1.returned = true) :
    Holds G call ((call.run G f).after c) ↔ UpToDate G call c := by
  have hends := run_ends (G := G) (f := f) call c
  unfold Ensures at hends
  unfold Act.after
  cases hr : call.run G f c with
  | mk ended c' =>
    rw [hr] at hends hret
    cases ended with
    | done u => exact hends.2
    | raised e => cases hret
    | stopped => cases hret

theorem run_committed (call : Call) (f : Nat → Answer) (c : Checkout) : Committed G call c ((call.run G f).after c) :=
  ((run_ends (G := G) (f := f) call c).mono (fun _ _ h => h.1) (fun _ _ h => h) fun _ h => h).after

theorem step_inv (hread : ∀ target content, manifest G target = .ok content → read content = some target.version)
    {e : Event} (h : Inv G read s) (he : Sound G s e) (hs : Event.step G read s e = some s') : Inv G read s' := by
  cases e with
  | call call f =>
    obtain ⟨hup, hready, hpaths⟩ := he
    cases hs
    intro model versions ha
    have hcommitted := run_committed (G := G) call f s.checkout
    by_cases hm : model = call.model
    · subst hm
      simp only [Function.update_self] at ha
      by_cases hret : (call.run G f s.checkout).1.returned = true
      · -- a normal return: both branches hold what was asked for
        rw [if_pos hret] at ha
        cases ha
        obtain ⟨path, hrel, content, hasks, hhead, hremote⟩ := (run_returned hret).mpr hup
        have hversion := asks_read hread hasks
        refine ⟨path, hrel, ?_, ?_, ?_⟩
        · rw [hhead, hversion]
          exact List.mem_singleton_self _
        · rw [hremote, hversion]
          exact List.mem_singleton_self _
        · intro hr
          rw [hready hr]
          exact .inl (List.mem_singleton_self _)
      · rw [if_neg hret] at ha
        obtain ⟨old, hold, rfl⟩ := Option.map_eq_some_iff.mp ha
        obtain ⟨path, hrel, hhead, hremote, hserving⟩ := h call.model old hold
        have hasked : relative G call.model = .ok path → call.version ∈ call.version :: old := fun _ => List.mem_cons_self
        obtain ⟨hhead, hremote⟩ :=
          hcommitted.reads hread hasked (List.mem_cons_of_mem _ hhead) (List.mem_cons_of_mem _ hremote)
        refine ⟨path, hrel, hhead, hremote, ?_⟩
        intro hr
        simp only [if_neg hret]
        exact (hserving hr).imp (List.mem_cons_of_mem _) id
    · simp only [Function.update_of_ne hm] at ha
      obtain ⟨path, hrel, hhead, hremote, hserving⟩ := h model versions ha
      have hother : relative G call.model ≠ .ok path := hpaths model hm (by rw [ha]; simp) path hrel
      obtain ⟨hhead, hremote⟩ := hcommitted.reads hread (fun hsame => absurd hsame hother) hhead hremote
      refine ⟨path, hrel, hhead, hremote, ?_⟩
      intro hr
      refine (hserving hr).imp id fun hl => ?_
      simp only
      split
      · rw [Function.update_of_ne hm]
        exact hl
      · exact hl
  | applies model ready failed =>
    simp only [Event.step] at hs
    split at hs
    · rename_i path hrel
      cases hs
      intro m versions ha
      obtain ⟨path', hrel', hhead, hremote, hserving⟩ := h m versions ha
      refine ⟨path', hrel', hhead, hremote, ?_⟩
      by_cases hm : m = model
      · subst hm
        rw [hrel] at hrel'; cases hrel'
        simp only [Function.update_self]
        exact fun _ => .inl hremote
      · simp only [Function.update_of_ne hm]
        exact hserving
    · cases hs
  | leaves model state =>
    simp only [Event.step] at hs
    split at hs
    · cases hs
      intro m versions ha
      obtain ⟨path, hrel, hhead, hremote, hserving⟩ := h m versions ha
      refine ⟨path, hrel, hhead, hremote, ?_⟩
      by_cases hm : m = model
      · subst hm
        simp
      · simp only [Function.update_of_ne hm]
        exact hserving
    · cases hs

/-- Right after a normal return the model is settled exactly when the system was
not ready at another version. -/
theorem settled_after {call : Call} {f : Nat → Answer} (hs : Event.step G read s (.call call f) = some s')
    (hret : (call.run G f s.checkout).1.returned = true) :
    Settled s' call.model ↔ ((s.serving call.model).ready = true → (s.serving call.model).version = call.version) := by
  simp only [Event.step, if_pos hret] at hs
  cases hs
  unfold Settled
  simp only [Function.update_self, Option.some.injEq]
  constructor
  · intro h hready
    have htells : Tells ⟨200, some (s.serving call.model)⟩ (s.serving call.model) := by
      constructor
      · intro hc
        cases hc
      · intro _ told ht
        cases ht
        rfl
    have hstatus : status ⟨200, some (s.serving call.model)⟩ = .ok (s.serving call.model) := by simp [status]
    simpa using h [call.version] rfl _ _ htells hstatus hready
  · intro h versions hv answer state ht hstatus hready
    obtain ⟨hr, hsame⟩ := told ht hstatus hready
    subst hv
    rw [hsame, h hr]
    exact .inl (List.mem_singleton_self _)

/-- The deployment port's contract in every run of calls that are up to date,
with the system not settled elsewhere when a call is made; a call of which
either is not true breaks it. -/
theorem contract_kept (hread : ∀ target content, manifest G target = .ok content → read content = some target.version)
    (h0 : ∀ model, s.asked model = none) (h : Steps (Event.step G read) (Sound G) s s') :
    (∀ model, Settled s' model) ∧
    ∀ call f s'', Event.step G read s' (.call call f) = some s'' → OnlyCommits G call s'.checkout s''.checkout ∧
      ((call.run G f s'.checkout).1.returned = true → (Holds G call s''.checkout ∧ Settled s'' call.model ↔
        UpToDate G call s'.checkout ∧
          ((s'.serving call.model).ready = true → (s'.serving call.model).version = call.version))) := by
  have hinv : Inv G read s' := h.inv (Inv G read) (fun _ _ _ hi he hs => step_inv hread hi he hs) fun model versions ha => by
    rw [h0 model] at ha
    cases ha
  refine ⟨hinv.settled, fun call f s'' hs => ?_⟩
  have hsettled := settled_after hs
  cases hs
  refine ⟨(run_committed call f s'.checkout).onlyCommits, fun hret => ?_⟩
  exact and_congr (run_returned hret) (hsettled hret)

end

/-! ### A push that fails -/

def plain : GitOpsSettings where
  manifestPath := [.model]
  template := some fun fields => .ok ((fields.lookup "version").getD "")
  branch := some "main"
  dnsName := .ok
  resolve := some

def nothingServed : Served where
  checkout := ⟨fun _ => none, fun _ => none, [], []⟩
  serving := fun _ => ⟨none, false, false⟩
  asked := fun _ => none
  left := fun _ => false

def deployVersion (version : Version) : Call := .deploy ⟨"nwdaf", version, none⟩

def works : Nat → Answer := fun _ => .ok

def pushFails : Nat → Answer := fun n =>
  if n = 3 then .before ⟨⟨.deploymentUnavailable, "git push could not run", []⟩, rfl, by simp⟩ else .ok

theorem plain_read : ∀ target content, manifest plain target = .ok content → some content = some target.version := by
  intro target content h
  cases h
  rfl

def afterFirst : Served :=
  ((Event.step plain some nothingServed (.call (deployVersion "1") works)).bind fun s =>
    Event.step plain some s (.applies "nwdaf" true false)).getD nothingServed

theorem contract_kept_first : (∀ model, Settled afterFirst model) ∧
    ∀ call f s'', Event.step plain some afterFirst (.call call f) = some s'' →
      OnlyCommits plain call afterFirst.checkout s''.checkout ∧
      ((call.run plain f afterFirst.checkout).1.returned = true →
        (Holds plain call s''.checkout ∧ Settled s'' call.model ↔
        UpToDate plain call afterFirst.checkout ∧
          ((afterFirst.serving call.model).ready = true → (afterFirst.serving call.model).version = call.version))) := by
  refine contract_kept (s := nothingServed) plain_read (fun _ => rfl)
    (((Steps.refl nothingServed).tail (a := .call (deployVersion "1") works) ?_ rfl).tail
      (a := .applies "nwdaf" true false) trivial rfl)
  refine ⟨?_, ?_, fun _ _ h => absurd rfl h⟩
  · intro path _ content _ h
    cases h
  · intro h
    cases h

/-- After the failed push git already holds the manifest, so the next call
returns without pushing it; and the status still tells the old version. -/
theorem push_lost :
    (∃ s, Steps (Event.step plain some) Free nothingServed s ∧
      ((deployVersion "2").run plain works s.checkout).1.returned = true ∧
      ¬ Holds plain (deployVersion "2") (((deployVersion "2").run plain works).after s.checkout)) ∧
    ∃ s, Steps (Event.step plain some) Free nothingServed s ∧ ¬ Settled s "nwdaf" := by
  have hfirst : Steps (Event.step plain some) Free nothingServed afterFirst :=
    ((Steps.refl nothingServed).tail (a := .call (deployVersion "1") works) trivial rfl).tail
      (a := .applies "nwdaf" true false) trivial rfl
  constructor
  · refine ⟨_, hfirst.tail (a := .call (deployVersion "2") pushFails) trivial rfl, by decide +kernel, ?_⟩
    rintro ⟨path, hr, content, ha, -, hremote⟩
    cases hr
    have hcontent : content = some "2" := by
      cases content with
      | none => cases ha
      | some content =>
        cases ha
        rfl
    rw [hcontent] at hremote
    revert hremote
    decide +kernel
  · refine ⟨_, hfirst.tail (a := .call (deployVersion "2") works) trivial rfl, ?_⟩
    have hafter := @settled_after plain some afterFirst _ (deployVersion "2") works rfl (by decide +kernel)
    exact fun h => absurd (hafter.mp h) (by decide +kernel)

end GitOpsDeployment

end OranAdapt
