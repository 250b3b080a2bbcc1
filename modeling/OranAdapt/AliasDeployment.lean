import OranAdapt.Deployment

/-!
# Serving from a registry alias

The default deployment adapter: the served version is the one under an alias,
LIVE itself unless DEPLOYMENT_ALIAS is set. A split puts the candidate under a
second alias and its share of traffic in a version tag.
-/

namespace OranAdapt

/-- The delivery settings, with what `core.config` checks about their aliases. -/
structure DeliverySettings where
  liveAlias : String
  candidateAlias : String
  deploymentAlias : Option String
  deploymentCanaryAlias : String
  deploymentTrafficTag : String
  registryTagsChecksum : String
  registryTagsStatus : String
  artifactMaxBytes : Nat
  modelLockTtlS : Time
  canary_live : deploymentCanaryAlias ≠ liveAlias
  canary_candidate : deploymentCanaryAlias ≠ candidateAlias
  canary_deployment : deploymentAlias ≠ some deploymentCanaryAlias
  lock_pos : 0 < modelLockTtlS

def DeliverySettings.defaults : DeliverySettings where
  liveAlias := "live"
  candidateAlias := "candidate"
  deploymentAlias := none
  deploymentCanaryAlias := "canary"
  deploymentTrafficTag := "oran.traffic_percent"
  registryTagsChecksum := "artifact.sha256"
  registryTagsStatus := "oran.status"
  artifactMaxBytes := 2147483648
  modelLockTtlS := 3600000000
  canary_live := by decide
  canary_candidate := by decide
  canary_deployment := by decide
  lock_pos := hour_pos

structure RegistryAliasDeployment where
  aliasName : String
  canaryAlias : String
  trafficTag : String
  canary_apart : canaryAlias ≠ aliasName

namespace RegistryAliasDeployment

def aliasOf (s : DeliverySettings) : String :=
  match s.deploymentAlias with
  | some a => if a = "" then s.liveAlias else a
  | none => s.liveAlias

theorem canary_ne_aliasOf (s : DeliverySettings) : s.deploymentCanaryAlias ≠ aliasOf s := by
  unfold aliasOf
  cases h : s.deploymentAlias with
  | none => exact s.canary_live
  | some a =>
    dsimp only
    split
    · exact s.canary_live
    · intro e
      exact s.canary_deployment (h.trans (by rw [e]))

def fromSettings (s : DeliverySettings) : Option RegistryAliasDeployment :=
  if aliasOf s = s.candidateAlias then none
  else some ⟨aliasOf s, s.deploymentCanaryAlias, s.deploymentTrafficTag, canary_ne_aliasOf s⟩

open Effects Outside

variable (d : RegistryAliasDeployment)

def setTraffic (f : Nat → Answer) (model : String) (stable : DeploymentTarget) (candidate : Option DeploymentTarget)
    (percent : Nat) : OutsideAct Unit Unit := do
  let now ← ofRegistry (Registry.alias? (f 0) model d.aliasName)
  .skipIf (now = some stable.version) (ofRegistry (Registry.setAlias (f 1) model d.aliasName stable.version))
  match if percent = 0 then none else candidate with
  | none => do
    let split ← ofRegistry (Registry.alias? (f 2) model d.canaryAlias)
    .skipIf (split = none) (ofRegistry (Registry.deleteAlias (f 3) model d.canaryAlias))
  | some c => do
    ofRegistry (Registry.setVersionTag (f 2) model c.version d.trafficTag (toString percent))
    ofRegistry (Registry.setAlias (f 3) model d.canaryAlias c.version)

def traffic (f : Nat → Answer) (model : String) : OutsideAct Unit TrafficSplit := do
  let stable ← ofRegistry (Registry.alias? (f 0) model d.aliasName)
  let candidate ← ofRegistry (Registry.alias? (f 1) model d.canaryAlias)
  match candidate with
  | none => pure ⟨stable, none, 0⟩
  | some c => do
    let info ← ofRegistry (Registry.getVersion (f 2) model c)
    pure ⟨stable, some c, (decimal? ((info.tags.lookup d.trafficTag).getD "0")).getD 0⟩

/-- An alias move is immediate, so `status` is always settled. -/
def port : DeploymentPort Unit where
  splitsTraffic := true
  served o model := o.live model d.aliasName
  splitTo o model := o.live model d.canaryAlias
  status p model := do
    let version ← ofRegistry (Registry.alias? (p.status 0) model d.aliasName)
    pure ⟨version, true, false⟩
  deploy f target := ofRegistry (Registry.setAlias (f 0) target.model d.aliasName target.version)
  restore f model previous := ofRegistry <| match previous with
    | none => Registry.deleteAlias (f 0) model d.aliasName
    | some t => Registry.setAlias (f 0) model d.aliasName t.version
  setTraffic := d.setTraffic
  traffic := d.traffic

/-! ## It keeps the adapters' contract -/

theorem moved_withAlias (o : Outside Unit) (name a b : String) (v : Version) (h) :
    o.Moved (o.withAlias name b v h) name a (some v) := by
  refine ⟨fun _ _ h => h, ?_⟩
  by_cases hb : a = b
  · subst hb; exact .inr (live_withAlias o name a v h)
  · exact .inl (live_withAlias_ne o name hb v h name)

section
variable {d} {a : String} {f : Nat → Answer} {name : String} {o : Outside Unit}

theorem setAlias_moved {b : String} {v : Version} {x : Answer} :
    Ensures (ofRegistry (Registry.setAlias x name b v)) o (fun _ o' => o.Moved o' name a (some v))
      (fun e o' => e.cls.framework = true ∧ o.Moved o' name a (some v)) (fun o' => o' = o ∧ x = .stop) := by
  refine .within (Registry.setAlias_ends.mono ?_ ?_ ?_)
  · rintro _ _ ⟨h, rfl⟩
    exact moved_withAlias o name a b v h
  · rintro e _ ⟨he, ⟨rfl, -⟩ | ⟨-, h, rfl⟩⟩
    · exact ⟨he, .refl ..⟩
    · exact ⟨he, moved_withAlias o name a b v h⟩
  · rintro _ ⟨rfl, hx⟩
    exact ⟨rfl, hx⟩

/-- `o'` differs from `o` only in tags and under the alias `b`. -/
structure OnlyAlias (o o' : Outside Unit) (b : String) : Prop where
  kept : ∀ n v, (o.registry.versions n v).isSome → (o'.registry.versions n v).isSome
  live : ∀ n c, c ≠ b → o'.live n c = o.live n c

theorem setAlias_only {b : String} {v : Version} {x : Answer} :
    Ensures (ofRegistry (Registry.setAlias x name b v)) o (fun _ o' => OnlyAlias o o' b)
      (fun _ o' => OnlyAlias o o' b) (fun o' => OnlyAlias o o' b) := by
  have hw : ∀ h, OnlyAlias o (o.withAlias name b v h) b :=
    fun h => ⟨fun _ _ h => h, fun n c hc => live_withAlias_ne o name hc v h n⟩
  have hr : OnlyAlias o o b := ⟨fun _ _ h => h, fun _ _ _ => rfl⟩
  refine .within (Registry.setAlias_ends.mono ?_ ?_ ?_)
  · rintro _ _ ⟨h, rfl⟩
    exact hw h
  · rintro e _ ⟨-, ⟨rfl, -⟩ | ⟨-, h, rfl⟩⟩
    · exact hr
    · exact hw h
  · rintro _ ⟨rfl, -⟩
    exact hr

theorem deleteAlias_only {b : String} {x : Answer} :
    Ensures (ofRegistry (Registry.deleteAlias x name b)) o (fun _ o' => OnlyAlias o o' b)
      (fun _ o' => OnlyAlias o o' b) (fun o' => OnlyAlias o o' b) := by
  have hw : OnlyAlias o { o with registry := o.registry.withoutAlias name b } b := by
    refine ⟨fun _ _ h => h, fun n c hc => ?_⟩
    simp [Outside.live, Registry.withoutAlias, hc]
  have hr : OnlyAlias o o b := ⟨fun _ _ h => h, fun _ _ _ => rfl⟩
  refine .within (Registry.deleteAlias_ends.mono ?_ ?_ ?_)
  · rintro _ _ rfl
    exact hw
  · rintro e _ ⟨-, -, rfl | rfl⟩
    · exact hr
    · exact hw
  · rintro _ ⟨rfl, -⟩
    exact hr

theorem setVersionTag_only {b key value : String} {v : Version} {x : Answer} :
    Ensures (ofRegistry (Registry.setVersionTag x name v key value)) o (fun _ o' => OnlyAlias o o' b)
      (fun _ o' => OnlyAlias o o' b) (fun o' => OnlyAlias o o' b) := by
  have hw : ∀ r, o.registry.Retagged r → OnlyAlias o { o with registry := r } b :=
    fun r h => ⟨h.kept, fun n c _ => by unfold Outside.live; rw [h.aliases]⟩
  refine .within (Registry.setVersionTag_ends.mono (fun _ r h => hw r h) (fun _ r h => hw r h) ?_)
  rintro _ ⟨rfl, -⟩
  exact hw _ (.refl _)

def Put (d : RegistryAliasDeployment) (a name : String) (stable : Version) (o o' : Outside Unit) : Prop :=
  o.Moved o' name a (some stable) ∧ o'.live name d.aliasName = some stable

theorem Put.only {stable : Version} {o o' o'' : Outside Unit} (h : Put d a name stable o o')
    (hc : d.canaryAlias ≠ a) (h' : OnlyAlias o' o'' d.canaryAlias) : Put d a name stable o o'' := by
  refine ⟨⟨fun n v hv => h'.kept n v (h.1.kept n v hv), ?_⟩, ?_⟩
  · rw [h'.live name a hc.symm]; exact h.1.live
  · rw [h'.live name _ d.canary_apart.symm]; exact h.2

theorem alias?_ends {b : String} {x : Answer} : Ensures (ofRegistry (Registry.alias? x name b)) o
    (fun v o' => o' = o ∧ v = o.live name b) (fun e o' => o' = o ∧ e.cls.framework = true)
    (fun o' => o' = o ∧ x = .stop) := by
  refine .within (Registry.alias?_ends.mono ?_ ?_ ?_)
  · rintro v _ ⟨rfl, hv⟩
    exact ⟨rfl, hv⟩
  · rintro e _ ⟨rfl, he⟩
    exact ⟨rfl, he⟩
  · rintro _ ⟨rfl, hx⟩
    exact ⟨rfl, hx⟩

/-- A traffic change that gets past the stable alias leaves it there. -/
theorem setTraffic_ends (hc : d.canaryAlias ≠ a) {stable : DeploymentTarget} {candidate : Option DeploymentTarget}
    {percent : Nat} : Ensures (d.setTraffic f name stable candidate percent) o
      (fun _ o' => Put d a name stable.version o o') (fun _ o' => o' = o ∨ Put d a name stable.version o o')
      (fun o' => o' = o ∨ Put d a name stable.version o o') := by
  unfold setTraffic
  refine .bind (alias?_ends.mono ?_ (fun _ _ h => .inl h.1) (fun _ h => .inl h.1))
  rintro now o ⟨rfl, hnow⟩
  -- the stable alias comes first
  have hput : Ensures (.skipIf (now = some stable.version)
        (ofRegistry (Registry.setAlias (f 1) name d.aliasName stable.version))) o
      (fun _ o' => Put d a name stable.version o o') (fun _ o' => o' = o ∨ Put d a name stable.version o o')
      (fun o' => o' = o ∨ Put d a name stable.version o o') := by
    refine .skipIf (fun h => ⟨.refl .., by rw [← hnow, h]⟩) fun _ => ?_
    have hw : ∀ h, Put d a name stable.version o (o.withAlias name d.aliasName stable.version h) :=
      fun h => ⟨moved_withAlias o name a d.aliasName stable.version h, live_withAlias ..⟩
    refine .within (Registry.setAlias_ends.mono ?_ ?_ ?_)
    · rintro _ _ ⟨h, rfl⟩
      exact hw h
    · rintro e _ ⟨-, ⟨rfl, -⟩ | ⟨-, h, rfl⟩⟩
      · exact .inl rfl
      · exact .inr (hw h)
    · rintro _ ⟨rfl, -⟩
      exact .inl rfl
  refine .bind (hput.mono ?_ (fun _ _ h => h) (fun _ h => h))
  intro _ o' ho
  have keep : ∀ {o''}, OnlyAlias o' o'' d.canaryAlias → Put d a name stable.version o o'' := ho.only hc
  split
  · refine .bind (alias?_ends.mono ?_ ?_ ?_)
    · rintro split o' ⟨rfl, -⟩
      refine .skipIf (fun _ => ho) fun _ => ?_
      exact deleteAlias_only.mono (fun _ _ h => keep h) (fun _ _ h => .inr (keep h)) (fun _ h => .inr (keep h))
    · rintro e o' ⟨rfl, -⟩
      exact .inr ho
    · rintro o' ⟨rfl, -⟩
      exact .inr ho
  · refine .bind (setVersionTag_only.mono ?_ (fun _ _ h => .inr (keep h)) (fun _ h => .inr (keep h)))
    intro _ o₁ h₁
    have keep : ∀ {o₂}, OnlyAlias o₁ o₂ d.canaryAlias → Put d a name stable.version o o₂ := (keep h₁).only hc
    exact setAlias_only.mono (fun _ _ h => keep h) (fun _ _ h => .inr (keep h)) (fun _ h => .inr (keep h))

theorem traffic_ends : Ensures (d.traffic f name) o
    (fun t o' => o' = o ∧ t.candidate = o.live name d.canaryAlias) (fun _ o' => o' = o) (fun o' => o' = o) := by
  unfold traffic
  refine .bind (alias?_ends.mono ?_ (fun _ _ h => h.1) (fun _ h => h.1))
  rintro stable o ⟨rfl, -⟩
  refine .bind (alias?_ends.mono ?_ (fun _ _ h => h.1) (fun _ h => h.1))
  rintro candidate o ⟨rfl, hc⟩
  split
  · exact .ret ⟨rfl, hc⟩
  · refine .bind (.within (Registry.getVersion_ends.mono ?_ ?_ ?_))
    · rintro i _ ⟨rfl, -⟩
      exact .ret ⟨rfl, hc⟩
    · rintro _ _ rfl
      rfl
    · rintro _ ⟨rfl, -⟩
      rfl

theorem restore_ends {previous : Option DeploymentTarget} : Ensures (d.port.restore f name previous) o
    (fun _ o' => o.Moved o' name a (previous.map (·.version)) ∧ o'.live name d.aliasName = previous.map (·.version))
    (fun e o' => e.cls.framework = true ∧ o.Moved o' name a (previous.map (·.version)) ∧
      ((∀ i, f i = .ok) → ∃ t, previous = some t ∧ ¬ (o.registry.versions name t.version).isSome))
    (fun _ => ∃ i, f i = .stop) := by
  cases previous with
  | none =>
    show Ensures (ofRegistry (Registry.deleteAlias (f 0) name d.aliasName)) _ _ _ _
    have hm : o.Moved { o with registry := o.registry.withoutAlias name d.aliasName } name a none := by
      refine ⟨fun _ _ h => h, ?_⟩
      by_cases ha : a = d.aliasName
      · right; simp [Outside.live, Registry.withoutAlias, ha]
      · left; simp [Outside.live, Registry.withoutAlias, ha]
    refine .within (Registry.deleteAlias_ends.mono ?_ ?_ ?_)
    · rintro _ _ rfl
      exact ⟨hm, by simp [Outside.live, Registry.withoutAlias]⟩
    · rintro e _ ⟨he, hf, rfl | rfl⟩
      · exact ⟨he, .refl .., fun h => absurd (h 0) hf⟩
      · exact ⟨he, hm, fun h => absurd (h 0) hf⟩
    · rintro _ ⟨-, hf⟩
      exact ⟨0, hf⟩
  | some t =>
    show Ensures (ofRegistry (Registry.setAlias (f 0) name d.aliasName t.version)) _ _ _ _
    refine .within (Registry.setAlias_ends.mono ?_ ?_ ?_)
    · rintro _ _ ⟨h, rfl⟩
      exact ⟨moved_withAlias o name a d.aliasName t.version h, live_withAlias ..⟩
    · rintro e _ ⟨he, ⟨rfl, hn⟩ | ⟨⟨x, hx⟩, h, rfl⟩⟩
      · exact ⟨he, .refl .., fun hf => ⟨t, rfl, hn (hf 0)⟩⟩
      · refine ⟨he, moved_withAlias o name a d.aliasName t.version h, fun hf => ?_⟩
        rw [hf 0] at hx
        cases hx
    · rintro _ ⟨-, hf⟩
      exact ⟨0, hf⟩

end

/-- The adapter keeps the contract towards every alias but its canary's. -/
theorem lawful (d : RegistryAliasDeployment) {a : String} (hc : d.canaryAlias ≠ a) : d.port.Lawful a where
  served_retagged h name := h.live name d.aliasName
  splitTo_retagged h name := h.live name d.canaryAlias
  served_alias := by
    by_cases ha : d.aliasName = a
    · left
      intro o name
      rw [← ha]; rfl
    · right
      intro o name v h
      exact live_withAlias_ne o name ha v h name
  splitTo_alias o name v h := live_withAlias_ne o name hc v h name
  status p name o := by
    refine .bind (alias?_ends.mono ?_ (fun _ _ h => h) (fun o' h => ⟨h.1, 0, h.2⟩))
    rintro v o ⟨rfl, hv⟩
    exact .ret ⟨rfl, hv⟩
  traffic _ _ _ := traffic_ends
  deploy f t o := setAlias_moved.mono (fun _ _ h => h) (fun _ _ h => h) (fun _ h => ⟨h.1 ▸ .refl .., 0, h.2⟩)
  restore _ _ _ _ := restore_ends
  setTraffic f name stable candidate percent o := by
    have hput : ∀ o', Put d a name stable.version o o' → o.Moved o' name a (some stable.version) ∧
        d.port.SplitLeft name stable.version candidate o o' := fun o' h => ⟨h.1, .inl h.2⟩
    have hor : ∀ o', o' = o ∨ Put d a name stable.version o o' → o.Moved o' name a (some stable.version) ∧
        d.port.SplitLeft name stable.version candidate o o' := by
      rintro o' (rfl | h)
      · exact ⟨.refl .., .inr (.inr ⟨rfl, rfl⟩)⟩
      · exact hput o' h
    exact (setTraffic_ends hc).mono (fun _ o' h => hput o' h) (fun _ o' h => hor o' h) (fun o' h => hor o' h)

end RegistryAliasDeployment

end OranAdapt
