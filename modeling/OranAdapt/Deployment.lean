import OranAdapt.Registry

/-!
# Deployment

`registry.deployment`: the deployer asks a serving system for a version or a
traffic split and reads the system back until it has settled. The serving
system is behind `DeploymentPort`; `Lawful` is what its adapters promise.
-/

namespace OranAdapt

structure DeploymentTarget where
  model : String
  version : Version
  source : Option String
deriving DecidableEq, Repr

/-- `version` is what the system serves or is moving to. -/
structure DeploymentState where
  version : Option Version
  ready : Bool
  failed : Bool
deriving DecidableEq, Repr

structure TrafficSplit where
  stable : Option Version
  candidate : Option Version
  percent : Nat
deriving DecidableEq, Repr

/-- What lies outside the database: the registry and the serving system. -/
structure Outside (σ : Type) where
  registry : Registry
  serving : σ

abbrev OutsideAct (σ α : Type) := Effects.Act (Outside σ) AdaptationError α

/-- One poll of the serving system: how far it has got, and how its calls are
answered. -/
structure Poll where
  ready : Bool := true
  failed : Bool := false
  status : Nat → Answer := fun _ => .ok
  traffic : Nat → Answer := fun _ => .ok

/-- `DeploymentPort`, and `TrafficSplitPort` when `splitsTraffic` holds: the
adapter implements it and declares the feature. `served` and `splitTo` are what
`status` and `traffic` read back. -/
structure DeploymentPort (σ : Type) where
  splitsTraffic : Bool
  served : Outside σ → String → Option Version
  splitTo : Outside σ → String → Option Version
  status : Poll → String → OutsideAct σ DeploymentState
  deploy : (Nat → Answer) → DeploymentTarget → OutsideAct σ Unit
  restore : (Nat → Answer) → String → Option DeploymentTarget → OutsideAct σ Unit
  setTraffic : (Nat → Answer) → String → DeploymentTarget → Option DeploymentTarget → Nat → OutsideAct σ Unit
  traffic : (Nat → Answer) → String → OutsideAct σ TrafficSplit

namespace Outside

variable {σ : Type}

def ofRegistry {α : Type} (m : RegistryAct α) : OutsideAct σ α :=
  m.within registry fun o r => { o with registry := r }

def withAlias (o : Outside σ) (name a : String) (v : Version) (h : (o.registry.versions name v).isSome) : Outside σ :=
  { o with registry := o.registry.withAlias name a v h }

def live (o : Outside σ) (name a : String) : Option Version := o.registry.aliases name a

@[simp] theorem live_withAlias (o : Outside σ) (name a : String) (v : Version) (h) :
    (o.withAlias name a v h).live name a = some v := by
  simp [live, withAlias, Registry.withAlias]

theorem live_withAlias_ne (o : Outside σ) (name : String) {a b : String} (hne : a ≠ b) (v : Version) (h)
    (n : String) : (o.withAlias name b v h).live n a = o.live n a := by
  simp [live, withAlias, Registry.withAlias, hne]

/-- `o'` has the same aliases and the same serving system; only tags differ. -/
structure Retagged (o o' : Outside σ) : Prop where
  registry : o.registry.Retagged o'.registry
  serving : o'.serving = o.serving

theorem Retagged.trans {o o' o'' : Outside σ} (h : Retagged o o') (h' : Retagged o' o'') : Retagged o o'' :=
  ⟨h.registry.trans h'.registry, h'.serving.trans h.serving⟩

/-- `o'` keeps every version, and the alias is where it was or at `target`. -/
structure Moved (o o' : Outside σ) (name a : String) (target : Option Version) : Prop where
  kept : ∀ n v, (o.registry.versions n v).isSome → (o'.registry.versions n v).isSome
  live : o'.live name a = o.live name a ∨ o'.live name a = target

theorem Moved.refl (o : Outside σ) (name a : String) (target : Option Version) : Moved o o name a target :=
  ⟨fun _ _ h => h, .inl rfl⟩

theorem Retagged.live {o o' : Outside σ} (h : Retagged o o') (name a : String) : o'.live name a = o.live name a := by
  unfold Outside.live; rw [h.registry.aliases]

end Outside

/-! ## What adapters promise -/

namespace DeploymentPort

variable {σ : Type}

/-- What a traffic change leaves, whether or not it got through: the stable
version serves, or the split to the candidate is in place, or nothing changed. -/
def SplitLeft (P : DeploymentPort σ) (name : String) (stable : Version) (candidate : Option DeploymentTarget)
    (o o' : Outside σ) : Prop :=
  P.served o' name = some stable ∨ (candidate.isSome ∧ (P.splitTo o' name).isSome) ∨
    (P.served o' name = P.served o name ∧ P.splitTo o' name = P.splitTo o name)

/-- The contract of `DeploymentPort` and `TrafficSplitPort` towards the alias
`a`: reads change nothing and report what serves; a write moves the alias only
to the version it is given; a restore that works is what then serves. The
adapter serves `a` itself, or what it serves does not depend on `a`. -/
structure Lawful (P : DeploymentPort σ) (a : String) : Prop where
  served_retagged : ∀ {o o'}, Outside.Retagged o o' → ∀ name, P.served o' name = P.served o name
  splitTo_retagged : ∀ {o o'}, Outside.Retagged o o' → ∀ name, P.splitTo o' name = P.splitTo o name
  served_alias : (∀ o name, P.served o name = o.live name a) ∨
    ∀ o name v h, P.served (o.withAlias name a v h) name = P.served o name
  splitTo_alias : ∀ o name v h, P.splitTo (o.withAlias name a v h) name = P.splitTo o name
  status : ∀ p name o, Effects.Ensures (P.status p name) o
    (fun st o' => o' = o ∧ st.version = P.served o name)
    (fun e o' => o' = o ∧ e.cls.framework = true) (fun o' => o' = o ∧ ∃ i, p.status i = .stop)
  traffic : ∀ f name o, Effects.Ensures (P.traffic f name) o
    (fun t o' => o' = o ∧ t.candidate = P.splitTo o name) (fun _ o' => o' = o) (fun o' => o' = o)
  deploy : ∀ f t o, Effects.Ensures (P.deploy f t) o (fun _ o' => o.Moved o' t.model a (some t.version))
    (fun e o' => e.cls.framework = true ∧ o.Moved o' t.model a (some t.version))
    (fun o' => o.Moved o' t.model a (some t.version) ∧ ∃ i, f i = .stop)
  restore : ∀ f name (previous : Option DeploymentTarget) o, Effects.Ensures (P.restore f name previous) o
    (fun _ o' => o.Moved o' name a (previous.map (·.version)) ∧ P.served o' name = previous.map (·.version))
    (fun e o' => e.cls.framework = true ∧ o.Moved o' name a (previous.map (·.version)) ∧
      ((∀ i, f i = .ok) → ∃ t, previous = some t ∧ ¬ (o.registry.versions name t.version).isSome))
    (fun _ => ∃ i, f i = .stop)
  setTraffic : ∀ f name stable candidate percent o,
    Effects.Ensures (P.setTraffic f name stable candidate percent) o
      (fun _ o' => o.Moved o' name a (some stable.version) ∧ P.SplitLeft name stable.version candidate o o')
      (fun _ o' => o.Moved o' name a (some stable.version) ∧ P.SplitLeft name stable.version candidate o o')
      (fun o' => o.Moved o' name a (some stable.version) ∧ P.SplitLeft name stable.version candidate o o')

end DeploymentPort

/-! ## The deployer -/

structure SplitAnswers where
  set : Nat → Answer := fun _ => .ok
  polls : List Poll := [{}]

structure RevertAnswers where
  restore : Nat → Answer := fun _ => .ok
  polls : List Poll := [{}]

structure RolloutAnswers where
  deploy : Nat → Answer := fun _ => .ok
  polls : List Poll := [{}]
  revert : RevertAnswers := {}

def deploymentError (message model : String) (rest : Context) : AdaptationError :=
  ⟨.deployment, message, ("model", .str model) :: rest⟩

namespace Deployer

open Effects

variable {σ : Type} (P : DeploymentPort σ)

def poll (model : String) (version : Option Version) (failOnOther : Bool) : List Poll → OutsideAct σ Unit
  | [] => .raise (deploymentError "the version did not read back as serving within DEPLOYMENT_TIMEOUT_S" model
      [("version", .ofOption version)])
  | p :: rest => do
    let state ← P.status p model
    if state.ready ∧ state.version = version then pure ()
    else if state.failed then
      .raise (deploymentError "the serving system reported a failed rollout" model
        [("version", .ofOption version), ("serving", .ofOption state.version)])
    else if failOnOther ∧ state.ready ∧ state.version ≠ version then
      .raise (deploymentError "the serving system settled at another version" model
        [("version", .ofOption version), ("serving", .ofOption state.version)])
    else poll model version failOnOther rest

def revert (f : RevertAnswers) (model : String) (previous : Option DeploymentTarget) : OutsideAct σ Bool :=
  (do P.restore f.restore model previous
      poll P model (previous.map (·.version)) false f.polls
      pure true : OutsideAct σ Bool).handle fun e =>
    if e.cls.framework then pure false else .raise e

def rolloutFailed (f : RolloutAnswers) (target : DeploymentTarget) (previous : Option DeploymentTarget)
    (e : AdaptationError) : OutsideAct σ Unit :=
  if e.cls.framework then do
    let restored ← revert P f.revert target.model previous
    .raise (deploymentError "deploying the version failed" target.model
      [("version", .str target.version), ("previous", .ofOption (previous.map (·.version))),
       ("restored", .bool restored), ("cause", .str e.message)])
  else .raise e

/-- Serve `target` and read it back, or put `previous` back. -/
def rollout (f : RolloutAnswers) (target : DeploymentTarget) (previous : Option DeploymentTarget) :
    OutsideAct σ Unit :=
  (do P.deploy f.deploy target
      poll P target.model (some target.version) true f.polls : OutsideAct σ Unit).handle
    (rolloutFailed P f target previous)

def readBackSplit (model : String) (stable : Version) (want : Option Version) (percent : Nat) :
    List Poll → OutsideAct σ Unit
  | [] => .raise (deploymentError "the traffic split did not read back within DEPLOYMENT_TIMEOUT_S" model
      [("stable", .str stable), ("candidate", .ofOption want), ("percent", .nat percent)])
  | p :: rest => do
    let state ← P.status p model
    if state.failed then
      .raise (deploymentError "the serving system reported a failed traffic split" model
        [("candidate", .ofOption want), ("percent", .nat percent)])
    else do
      let split ← P.traffic p.traffic model
      if state.ready ∧ split.stable = some stable ∧ split.candidate = want ∧ split.percent = percent ∧
          (want ≠ none ∨ state.version = some stable) then pure ()
      else readBackSplit model stable want percent rest

def split (f : SplitAnswers) (model : String) (stable : DeploymentTarget) (candidate : Option DeploymentTarget)
    (percent : Nat) : OutsideAct σ Unit :=
  if P.splitsTraffic = false then
    .raise (deploymentError "the deployment backend cannot split traffic" model [])
  else
    let candidate := if percent = 0 then none else candidate
    let percent := if candidate.isNone then 0 else percent
    do
      P.setTraffic f.set model stable candidate percent
      readBackSplit P model stable.version (candidate.map (·.version)) percent f.polls

def serving (p : Poll) (model : String) : OutsideAct σ (Option Version) := do
  let state ← P.status p model
  pure state.version

/-! ## What it ends with -/

section
variable {P} {a : String} (hP : P.Lawful a)

include hP in
/-- A read-back that returns has seen the version served. -/
theorem poll_ends {model : String} {version : Option Version} {failOnOther : Bool} {o : Outside σ} :
    ∀ polls : List Poll, Ensures (poll P model version failOnOther polls) o
      (fun _ o' => o' = o ∧ P.served o model = version) (fun e o' => o' = o ∧ e.cls.framework = true)
      (fun o' => o' = o ∧ ∃ p ∈ polls, ∃ i, p.status i = .stop)
  | [] => .raise ⟨rfl, rfl⟩
  | p :: rest => by
    refine .bind ((hP.status p model o).mono ?_ (fun _ _ h => h) ?_)
    · intro st o' ⟨ho, hv⟩
      subst ho
      split
      · rename_i h
        exact .ret ⟨rfl, hv.symm.trans h.2⟩
      · split
        · exact .raise ⟨rfl, rfl⟩
        · split
          · exact .raise ⟨rfl, rfl⟩
          · refine (poll_ends rest).mono (fun _ _ h => h) (fun _ _ h => h) ?_
            intro o' ⟨ho, q, hq, hi⟩
            exact ⟨ho, q, List.mem_cons_of_mem _ hq, hi⟩
    · intro o' ⟨ho, hi⟩
      exact ⟨ho, p, List.mem_cons_self .., hi⟩

include hP in
theorem readBackSplit_ends {model : String} {stable : Version} {want : Option Version} {percent : Nat}
    {o : Outside σ} : ∀ polls : List Poll, Ensures (readBackSplit P model stable want percent polls) o
      (fun _ o' => o' = o ∧ (want = none → P.served o model = some stable ∧ P.splitTo o model = none))
      (fun _ o' => o' = o) (fun o' => o' = o)
  | [] => .raise rfl
  | p :: rest => by
    refine .bind ((hP.status p model o).mono ?_ (fun _ _ h => h.1) (fun _ h => h.1))
    intro st o' ⟨ho, hv⟩
    subst ho
    split
    · exact .raise rfl
    · refine .bind ((hP.traffic p.traffic model o').mono ?_ (fun _ _ h => h) (fun _ h => h))
      intro t o'' ⟨ho, ht⟩
      subst ho
      split
      · rename_i h
        refine .ret ⟨rfl, fun hw => ⟨?_, ?_⟩⟩
        · rcases h.2.2.2.2 with h | h
          · exact absurd hw h
          · rw [← hv, h]
        · rw [← ht, h.2.2.1, hw]
      · exact readBackSplit_ends rest

include hP in
theorem split_ends {f : SplitAnswers} {model : String} {stable : DeploymentTarget}
    {candidate : Option DeploymentTarget} {percent : Nat} {o : Outside σ} :
    Ensures (split P f model stable candidate percent) o
      (fun _ o' => P.splitsTraffic = true ∧ o.Moved o' model a (some stable.version) ∧
        P.SplitLeft model stable.version candidate o o' ∧
        (candidate = none → P.served o' model = some stable.version ∧ P.splitTo o' model = none))
      (fun _ o' => o.Moved o' model a (some stable.version) ∧ P.SplitLeft model stable.version candidate o o' ∧
        (P.splitsTraffic = false → o' = o))
      (fun o' => o.Moved o' model a (some stable.version) ∧ P.SplitLeft model stable.version candidate o o' ∧
        P.splitsTraffic = true) := by
  unfold split
  split
  · rename_i h
    exact .raise ⟨.refl .., .inr (.inr ⟨rfl, rfl⟩), fun _ => rfl⟩
  · rename_i hs
    rw [Bool.not_eq_false] at hs
    -- a split of zero percent is none
    have hleft : ∀ o', P.SplitLeft model stable.version (if percent = 0 then none else candidate) o o' →
        P.SplitLeft model stable.version candidate o o' := by
      intro o' h
      rcases h with h | ⟨hc, h⟩ | h
      · exact .inl h
      · split at hc
        · cases hc
        · exact .inr (.inl ⟨hc, h⟩)
      · exact .inr (.inr h)
    refine .bind ((hP.setTraffic f.set model stable _ _ o).mono ?_ ?_ ?_)
    · intro _ o' ⟨hm, hl⟩
      refine (readBackSplit_ends hP f.polls).mono ?_ ?_ ?_
      · rintro _ _ ⟨rfl, hw⟩
        refine ⟨hs, hm, hleft _ hl, fun hc => hw ?_⟩
        subst hc
        simp
      · rintro _ _ rfl
        exact ⟨hm, hleft _ hl, fun h => absurd (hs.symm.trans h) (by simp)⟩
      · rintro _ rfl
        exact ⟨hm, hleft _ hl, hs⟩
    · intro _ o' ⟨hm, hl⟩
      exact ⟨hm, hleft _ hl, fun h => absurd (hs.symm.trans h) (by simp)⟩
    · intro o' ⟨hm, hl⟩
      exact ⟨hm, hleft _ hl, hs⟩

/-- The restoring call works and nothing stops on the way. The read-back may
still find the system slow or failing. -/
def RevertWorks (f : RevertAnswers) : Prop :=
  (∀ i, f.restore i = .ok) ∧ ∀ p ∈ f.polls, ∀ i, p.status i ≠ .stop

/-- What a revert leaves: `previous` serves, unless it names a version the
registry does not know. -/
structure Reverted (P : DeploymentPort σ) (a model : String) (previous : Option DeploymentTarget)
    (o o' : Outside σ) : Prop where
  moved : o.Moved o' model a (previous.map (·.version))
  served : (∀ t, previous = some t → (o.registry.versions model t.version).isSome) →
    P.served o' model = previous.map (·.version)

include hP in
theorem revert_ends {f : RevertAnswers} (hf : RevertWorks f) {model : String} {previous : Option DeploymentTarget}
    {o : Outside σ} : Ensures (revert P f model previous) o (fun _ o' => Reverted P a model previous o o')
      (fun _ _ => False) (fun _ => False) := by
  refine .handle (.bind ((hP.restore f.restore model previous o).mono ?_ ?_ ?_))
  · intro _ o' ⟨hm, hs⟩
    have ho : Reverted P a model previous o o' := ⟨hm, fun _ => hs⟩
    refine .bind ((poll_ends hP f.polls).mono ?_ ?_ ?_)
    · rintro _ _ ⟨rfl, -⟩
      exact .ret ho
    · rintro e _ ⟨rfl, he⟩
      rw [if_pos he]
      exact .ret ho
    · rintro _ ⟨-, p, hp, i, hi⟩
      exact hf.2 p hp i hi
  · intro e o' ⟨he, hm, hreg⟩
    obtain ⟨t, ht, hn⟩ := hreg hf.1
    rw [if_pos he]
    exact .ret ⟨hm, fun h => absurd (h t ht) hn⟩
  · intro _ ⟨i, hi⟩
    rw [hf.1 i] at hi
    cases hi

/-- Nothing stops on the way and the restore works. -/
structure RolloutWorks (f : RolloutAnswers) : Prop where
  deploy : ∀ i, f.deploy i ≠ .stop
  polls : ∀ p ∈ f.polls, ∀ i, p.status i ≠ .stop
  revert : RevertWorks f.revert

/-- What a failed rollout leaves: whatever the deploy got to is reverted. -/
def RolledBack (P : DeploymentPort σ) (a : String) (target : DeploymentTarget) (previous : Option DeploymentTarget)
    (o o' : Outside σ) : Prop :=
  ∃ om, o.Moved om target.model a (some target.version) ∧ Reverted P a target.model previous om o'

include hP in
/-- The handler starts wherever the deploy got to. -/
theorem rolloutFailed_ends {f : RolloutAnswers} (hf : RolloutWorks f) {target : DeploymentTarget}
    {previous : Option DeploymentTarget} {o om : Outside σ} {e : AdaptationError} (he : e.cls.framework = true)
    (hm : o.Moved om target.model a (some target.version)) {D : Unit → Outside σ → Prop} :
    Ensures (rolloutFailed P f target previous e) om D
      (fun e o' => e.cls = .deployment ∧ RolledBack P a target previous o o') (fun _ => False) := by
  unfold rolloutFailed
  rw [if_pos he]
  refine .bind ((revert_ends hP hf.revert).mono ?_ (fun _ _ h => h.elim) (fun _ h => h))
  intro restored o' hr
  exact .raise ⟨rfl, om, hm, hr⟩

include hP in
theorem rollout_ends {f : RolloutAnswers} (hf : RolloutWorks f) {target : DeploymentTarget}
    {previous : Option DeploymentTarget} {o : Outside σ} : Ensures (rollout P f target previous) o
      (fun _ o' => o.Moved o' target.model a (some target.version) ∧
        P.served o' target.model = some target.version)
      (fun e o' => e.cls = .deployment ∧ RolledBack P a target previous o o') (fun _ => False) := by
  refine .handle (.bind ((hP.deploy f.deploy target o).mono ?_ ?_ ?_))
  · intro _ om hm
    refine (poll_ends hP f.polls).mono ?_ ?_ ?_
    · rintro _ _ ⟨rfl, hv⟩
      exact ⟨hm, hv⟩
    · rintro e _ ⟨rfl, he⟩
      exact rolloutFailed_ends hP hf he hm
    · rintro _ ⟨-, p, hp, i, hi⟩
      exact hf.polls p hp i hi
  · intro e om ⟨he, hm⟩
    exact rolloutFailed_ends hP hf he hm
  · intro o' ⟨_, i, hi⟩
    exact hf.deploy i hi

include hP in
theorem serving_ends {p : Poll} {model : String} {o : Outside σ} : Ensures (serving P p model) o
    (fun v o' => o' = o ∧ v = P.served o model) (fun _ o' => o' = o)
    (fun o' => o' = o ∧ ∃ i, p.status i = .stop) := by
  refine .bind ((hP.status p model o).mono ?_ (fun _ _ h => h.1) fun _ h => h)
  rintro st _ ⟨rfl, hv⟩
  exact .ret ⟨rfl, hv⟩

end

end Deployer

end OranAdapt
