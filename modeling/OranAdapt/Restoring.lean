import OranAdapt.AliasDeployment
import OranAdapt.KServeDeployment

/-!
# What a restore puts back

A deploy and a restore leave the registry's versions alone, and a restore of
what served before works. A traffic split survives them where it is kept apart
from the served version, and is dropped where it is part of the served object.
-/

namespace OranAdapt

open Effects Outside

/-- The settings' tags have different names. -/
structure TagsApart (s : DeliverySettings) : Prop where
  checksum : s.registryTagsChecksum ≠ s.registryTagsStatus
  trafficStatus : s.deploymentTrafficTag ≠ s.registryTagsStatus
  trafficChecksum : s.deploymentTrafficTag ≠ s.registryTagsChecksum

theorem TagsApart.defaults : TagsApart .defaults := ⟨by decide, by decide, by decide⟩

namespace Outside

variable {σ : Type}

/-- Only the alias `a` may differ. -/
structure Realiased (o o' : Outside σ) (a : String) : Prop where
  serving : o'.serving = o.serving
  versions : o'.registry.versions = o.registry.versions
  live : ∀ n b, b ≠ a → o'.live n b = o.live n b

theorem realiased_withAlias (o : Outside σ) (name a : String) (v : Version) (h) : Realiased o (o.withAlias name a v h) a :=
  ⟨rfl, rfl, fun n _ hb => live_withAlias_ne o name hb v h n⟩

theorem realiased_withoutAlias (o : Outside σ) (name a : String) :
    Realiased o { o with registry := o.registry.withoutAlias name a } a :=
  ⟨rfl, rfl, fun n b hb => by simp [Outside.live, Registry.withoutAlias, hb]⟩

def tag (o : Outside σ) (key name : String) (v : Version) : Option String :=
  (o.registry.versions name v).bind fun i => i.tags.lookup key

theorem lookup_filter_ne {key k : String} (h : k ≠ key) (tags : List (String × String)) :
    (tags.filter fun t => t.1 != key).lookup k = tags.lookup k := by
  induction tags with
  | nil => rfl
  | cons t tags ih =>
    obtain ⟨k', v⟩ := t
    by_cases hk : k' = key
    · subst hk
      rw [List.filter_cons_of_neg (by simp), ih, List.lookup_cons, beq_false_of_ne h]
    · rw [List.filter_cons_of_pos (by simpa using hk), List.lookup_cons, List.lookup_cons, ih]

theorem tag_withTag_ne {o : Outside σ} {name key k value : String} (h : k ≠ key) (v : Version) (n : String) (u : Version) :
    tag { o with registry := o.registry.withTag name v key value } k n u = o.tag k n u := by
  unfold tag Registry.withTag
  dsimp only
  split
  · cases o.registry.versions n u with
    | none => rfl
    | some i =>
      simp only [Option.map_some, Option.bind_some, List.lookup_cons, beq_false_of_ne h]
      exact lookup_filter_ne h i.tags
  · rfl

theorem tag_withTag_eq {o : Outside σ} {name key value : String} {v : Version} (h : (o.registry.versions name v).isSome)
    (n : String) (u : Version) : tag { o with registry := o.registry.withTag name v key value } key n u =
      if n = name ∧ u = v then some value else o.tag key n u := by
  unfold tag Registry.withTag
  dsimp only
  by_cases hn : n = name ∧ u = v
  · rw [if_pos hn, if_pos hn, hn.1, hn.2]
    obtain ⟨i, hi⟩ := Option.isSome_iff_exists.mp h
    rw [hi]
    simp
  · rw [if_neg hn, if_neg hn]

def Registered (o o' : Outside σ) : Prop := ∀ n v, (o.registry.versions n v).isSome → (o'.registry.versions n v).isSome

end Outside

/-- What `status` and `traffic` report, and how far a deploy and a restore
reach: `split` is what `traffic` reads back, `canary` the part of it that is not
the served version, and `drops` holds when serving a version drops the split. -/
structure DeploymentPort.Restores {σ κ : Type} (P : DeploymentPort σ) (s : DeliverySettings)
    (split : Outside σ → String → TrafficSplit) (canary : Outside σ → String → Option κ) (drops : Bool) : Prop
    extends P.Lawful s.liveAlias where
  reads : ∀ f name o, Ensures (P.traffic f name) o (fun t o' => o' = o ∧ t = split o name) (fun _ o' => o' = o)
    (fun o' => o' = o)
  canary_isSome : ∀ o name, (split o name).candidate.isSome = (canary o name).isSome
  split_congr : ∀ {o o' : Outside σ} {name}, P.served o' name = P.served o name → canary o' name = canary o name →
    split o' name = split o name
  served_realiased : (∀ o name, P.served o name = o.live name s.liveAlias) ∨
    ∀ {o o' : Outside σ} name, Realiased o o' s.liveAlias → P.served o' name = P.served o name
  canary_realiased : ∀ {o o' : Outside σ} name, Realiased o o' s.liveAlias → canary o' name = canary o name
  canary_tagged : ∀ (o : Outside σ) (name : String) (v : Version) (key value : String) (n : String),
    key = s.registryTagsStatus ∨ key = s.registryTagsChecksum →
    canary { o with registry := o.registry.withTag name v key value } n = canary o n
  deploy_frame : ∀ f t o, Ensures (P.deploy f t) o
    (fun _ o' => o'.registry.versions = o.registry.versions ∧ (drops = false → canary o' t.model = canary o t.model))
    (fun _ o' => o'.registry.versions = o.registry.versions ∧ (drops = false → canary o' t.model = canary o t.model))
    (fun _ => True)
  /-- a restore of what served in `o₀` works as long as its versions are registered -/
  restore_lands : ∀ f name (previous : Option DeploymentTarget) o₀ o, (∀ i, f i = .ok) →
    previous.map (·.version) = P.served o₀ name → Registered o₀ o → Ensures (P.restore f name previous) o
      (fun _ o' => o'.registry.versions = o.registry.versions ∧ P.served o' name = previous.map (·.version) ∧
        canary o' name = if drops then none else canary o name)
      (fun _ _ => False) (fun _ => False)

/-! ## The registry alias -/

namespace RegistryAliasDeployment

variable (d : RegistryAliasDeployment)

def share (o : Outside Unit) (model : String) (c : Version) : Nat :=
  (((o.tag d.trafficTag model c).getD "0") |> decimal?).getD 0

def canary (o : Outside Unit) (model : String) : Option (Version × Nat) :=
  (o.live model d.canaryAlias).map fun c => (c, d.share o model c)

def split (o : Outside Unit) (model : String) : TrafficSplit where
  stable := o.live model d.aliasName
  candidate := (d.canary o model).map Prod.fst
  percent := ((d.canary o model).map Prod.snd).getD 0

section
variable {d} {s : DeliverySettings} {o o' : Outside Unit} {name : String} {f : Nat → Answer}

theorem canary_of_realiased {b : String} (hb : d.canaryAlias ≠ b) (h : Realiased o o' b) :
    d.canary o' name = d.canary o name := by
  unfold canary share Outside.tag
  rw [h.live name _ hb, h.versions]

theorem setAlias_realiased {b : String} {v : Version} {x : Answer} : Ensures (ofRegistry (Registry.setAlias x name b v)) o
    (fun _ o' => Realiased o o' b) (fun _ o' => Realiased o o' b) (fun _ => True) := by
  refine .within (Registry.setAlias_ends.mono ?_ ?_ fun _ _ => trivial)
  · rintro _ _ ⟨h, rfl⟩
    exact realiased_withAlias o name b v h
  · rintro _ _ ⟨-, ⟨rfl, -⟩ | ⟨-, h, rfl⟩⟩
    · exact ⟨rfl, rfl, fun _ _ _ => rfl⟩
    · exact realiased_withAlias o name b v h

theorem reads_split : Ensures (d.traffic f name) o (fun t o' => o' = o ∧ t = d.split o name) (fun _ o' => o' = o)
    (fun o' => o' = o) := by
  unfold traffic
  refine .bind (alias?_ends.mono ?_ (fun _ _ h => h.1) (fun _ h => h.1))
  rintro stable o ⟨rfl, hs⟩
  refine .bind (alias?_ends.mono ?_ (fun _ _ h => h.1) (fun _ h => h.1))
  rintro candidate o ⟨rfl, hc⟩
  unfold split canary share Outside.tag
  cases candidate with
  | none => exact .ret ⟨rfl, by rw [← hc, ← hs]; rfl⟩
  | some c =>
    refine .bind (.within (Registry.getVersion_ends.mono ?_ ?_ ?_))
    · rintro i _ ⟨rfl, hi⟩
      refine .ret ⟨rfl, ?_⟩
      rw [← hc, ← hs]
      simp [hi]
    · rintro _ _ rfl
      rfl
    · rintro _ ⟨rfl, -⟩
      rfl

theorem restore_lands {previous : Option DeploymentTarget} {o₀ : Outside Unit} (hf : ∀ i, f i = .ok)
    (hp : previous.map (·.version) = d.port.served o₀ name) (hreg : Registered o₀ o) :
    Ensures (d.port.restore f name previous) o
      (fun _ o' => o'.registry.versions = o.registry.versions ∧ d.port.served o' name = previous.map (·.version) ∧
        d.canary o' name = d.canary o name) (fun _ _ => False) (fun _ => False) := by
  cases previous with
  | none =>
    show Ensures (ofRegistry (Registry.deleteAlias (f 0) name d.aliasName)) _ _ _ _
    refine .within (Registry.deleteAlias_ends.mono ?_ (fun _ _ h => h.2.1 (hf 0)) fun _ h => ?_)
    · rintro _ _ rfl
      refine ⟨rfl, ?_, canary_of_realiased d.canary_apart (realiased_withoutAlias o name d.aliasName)⟩
      show Outside.live { o with registry := o.registry.withoutAlias name d.aliasName } name d.aliasName = none
      simp [Outside.live, Registry.withoutAlias]
    · rw [hf 0] at h
      cases h.2
  | some t =>
    have hserved : o₀.registry.aliases name d.aliasName = some t.version := hp.symm
    have ht : (o.registry.versions name t.version).isSome := hreg _ _ (o₀.registry.registered _ _ _ hserved)
    show Ensures (ofRegistry (Registry.setAlias (f 0) name d.aliasName t.version)) _ _ _ _
    refine .within (Registry.setAlias_ends.mono ?_ ?_ fun _ h => ?_)
    · rintro _ _ ⟨h, rfl⟩
      exact ⟨rfl, live_withAlias _ _ _ _ h,
        canary_of_realiased d.canary_apart (realiased_withAlias o name d.aliasName _ h)⟩
    · rintro _ _ ⟨-, ⟨-, hn⟩ | ⟨⟨x, hx⟩, -⟩⟩
      · exact hn (hf 0) ht
      · rw [hf 0] at hx
        cases hx
    · rw [hf 0] at h
      cases h.2

end

/-- A split is a second alias, so serving a version keeps it. -/
theorem restores (d : RegistryAliasDeployment) {s : DeliverySettings} (hc : d.canaryAlias ≠ s.liveAlias)
    (ht : d.trafficTag ≠ s.registryTagsStatus ∧ d.trafficTag ≠ s.registryTagsChecksum) :
    d.port.Restores s d.split d.canary false where
  toLawful := d.lawful hc
  reads _ _ _ := reads_split
  canary_isSome o name := by
    unfold split
    cases d.canary o name <;> rfl
  split_congr hs hcan := by
    have hs : Outside.live _ _ d.aliasName = Outside.live _ _ d.aliasName := hs
    unfold split
    rw [hs, hcan]
  served_realiased := by
    by_cases ha : d.aliasName = s.liveAlias
    · exact .inl fun o name => by rw [← ha]; rfl
    · exact .inr fun name h => h.live name _ ha
  canary_realiased name h := canary_of_realiased hc h
  canary_tagged o name v key value n hk := by
    have hne : d.trafficTag ≠ key := by
      rcases hk with rfl | rfl
      · exact ht.1
      · exact ht.2
    unfold canary share
    simp only [tag_withTag_ne hne]
    rfl
  deploy_frame f t o := setAlias_realiased.mono
    (fun _ _ h => ⟨h.versions, fun _ => canary_of_realiased d.canary_apart h⟩)
    (fun _ _ h => ⟨h.versions, fun _ => canary_of_realiased d.canary_apart h⟩) fun _ _ => trivial
  restore_lands _ _ _ _ _ hf hp hreg := restore_lands hf hp hreg

end RegistryAliasDeployment

/-! ## KServe -/

namespace KServeDeployment

/-- The split an object holds, if it holds one. -/
def canaryOf (obj : Option InferenceService) : Option TrafficSplit :=
  if (splitOf obj).candidate.isSome then some (splitOf obj) else none

theorem splitOf_cases (obj : Option InferenceService) : canaryOf obj = some (splitOf obj) ∧
    (splitOf obj).candidate.isSome ∨ canaryOf obj = none ∧ splitOf obj = ⟨versionOf obj, none, 0⟩ := by
  cases obj with
  | none => exact .inr ⟨rfl, rfl⟩
  | some obj =>
    cases hp : obj.canaryTrafficPercent with
    | none => exact .inr (by simp [canaryOf, splitOf, versionOf, hp])
    | some p =>
      cases hs : obj.stableVersion with
      | none => exact .inr (by simp [canaryOf, splitOf, versionOf, hp, hs])
      | some v =>
        have := obj.versioned (by rw [hs]; rfl)
        exact .inl (by simp [canaryOf, splitOf, hp, hs, this])

section
variable {d : KServeDeployment} {o o' : Outside InferenceServices} {name : String} {f : Nat → Answer}

theorem restore_lands {previous : Option DeploymentTarget} (hf : ∀ i, f i = .ok) :
    Ensures (d.restore f name previous) o
      (fun _ o' => o'.registry.versions = o.registry.versions ∧
        versionOf (o'.serving name) = previous.map (·.version) ∧ canaryOf (o'.serving name) = none)
      (fun _ _ => False) (fun _ => False) := by
  cases previous with
  | none =>
    refine write_ends.mono ?_ (fun _ _ h => h.2.1 (hf 0)) fun _ h => ?_
    · intro _ o' h
      rw [h.serving, show o'.registry = o.registry by rw [h]]
      exact ⟨rfl, rfl, rfl⟩
    · rw [hf 0] at h
      cases h.2
  | some t =>
    refine deploy_ends.mono ?_ ?_ ?_
    · intro _ o' h
      rw [@Written.serving name _ _ _ h, show o'.registry = o.registry by rw [h]]
      exact ⟨rfl, rfl, rfl⟩
    · rintro _ _ ⟨-, ⟨i, hi⟩, -⟩
      exact hi (hf i)
    · rintro _ ⟨-, i, hi⟩
      rw [hf i] at hi
      cases hi

end

/-- A split is part of the object that serves, so serving a version drops it. -/
theorem restores (d : KServeDeployment) (s : DeliverySettings) :
    d.port.Restores s (fun o name => splitOf (o.serving name)) (fun o name => canaryOf (o.serving name)) true where
  toLawful := d.lawful s.liveAlias
  reads _ _ _ := traffic_ends
  canary_isSome o name := by
    rcases splitOf_cases (o.serving name) with ⟨h, hs⟩ | ⟨h, hs⟩
    · rw [h, hs]; rfl
    · rw [h, hs]; rfl
  split_congr := by
    intro o o' name hs hc
    rcases splitOf_cases (o.serving name) with ⟨h, h'⟩ | ⟨h, h'⟩ <;>
      rcases splitOf_cases (o'.serving name) with ⟨k, k'⟩ | ⟨k, k'⟩
    · rw [h, k] at hc
      exact Option.some.inj hc
    · rw [h, k] at hc
      cases hc
    · rw [h, k] at hc
      cases hc
    · have hs : versionOf _ = versionOf _ := hs
      rw [h', k', hs]
  served_realiased := .inr fun name h => by
    show versionOf _ = versionOf _
    rw [h.serving]
  canary_realiased name h := by rw [h.serving]
  canary_tagged _ _ _ _ _ _ _ := rfl
  deploy_frame f t o := by
    refine deploy_ends.mono (fun _ o' h => ⟨by rw [h], fun h => by cases h⟩) ?_ fun _ _ => trivial
    rintro _ o' ⟨-, -, rfl | h⟩
    · exact ⟨rfl, fun h => by cases h⟩
    · exact ⟨by rw [h], fun h => by cases h⟩
  restore_lands _ _ _ _ _ hf _ _ := restore_lands hf

end KServeDeployment

end OranAdapt
