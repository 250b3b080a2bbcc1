import OranAdapt.Effects
import OranAdapt.Store

/-!
# The model registry

The registry port as promotion and delivery use it: versions with their tags
and artifact, and aliases that each point at a registered version. Every call
is answered by the outside: it works, it raises before or after it took
effect, or the process stops before it.
-/

namespace OranAdapt

abbrev Version := String

/-- How a port call fails: with any error of the framework, but with
ModelNotFoundError only when the registry really has no such version or alias. -/
abbrev PortError := { e : AdaptationError // e.cls.framework = true ∧ e.cls ≠ .modelNotFound }

/-- How the outside answers one port call. -/
abbrev Answer := Effects.Fate PortError

def ask {σ α : Type} (f : Answer) (act : σ → Except AdaptationError (α × σ)) : Effects.Act σ AdaptationError α :=
  Effects.perform (f.map Subtype.val) act

structure VersionInfo where
  source : Option String
  tags : List (String × String)
  size : Nat
  /-- The digest of the artifact as it is stored now. -/
  sha256 : String
deriving DecidableEq, Repr

structure Registry where
  versions : String → Version → Option VersionInfo
  aliases : String → String → Option Version
  registered : ∀ name a v, aliases name a = some v → (versions name v).isSome

abbrev RegistryAct (α : Type) := Effects.Act Registry AdaptationError α

namespace Registry

def withAlias (r : Registry) (name a : String) (v : Version) (h : (r.versions name v).isSome) : Registry where
  versions := r.versions
  aliases := fun n b => if n = name ∧ b = a then some v else r.aliases n b
  registered := by
    intro n b w hw
    split at hw
    · rename_i e
      cases hw
      rw [e.1]; exact h
    · exact r.registered n b w hw

def withoutAlias (r : Registry) (name a : String) : Registry where
  versions := r.versions
  aliases := fun n b => if n = name ∧ b = a then none else r.aliases n b
  registered := by
    intro n b w hw
    split at hw
    · cases hw
    · exact r.registered n b w hw

def withTag (r : Registry) (name : String) (v : Version) (key value : String) : Registry where
  versions := fun n w => if n = name ∧ w = v then
      (r.versions n w).map fun i => { i with tags := (key, value) :: i.tags.filter fun t => t.1 != key }
    else r.versions n w
  aliases := r.aliases
  registered := by
    intro n b w hw
    have := r.registered n b w hw
    split
    · rw [Option.isSome_map]; exact this
    · exact this

def notFound (name : String) (v : Version) : AdaptationError :=
  ⟨.modelNotFound, s!"Model '{name}' version '{v}' not found", [("model", .str name), ("version", .str v)]⟩

def noAlias (name a : String) : AdaptationError :=
  ⟨.modelNotFound, s!"model '{name}' has no version aliased '{a}'", [("model", .str name), ("alias", .str a)]⟩

variable (f : Answer) (name : String) (a : String) (v : Version)

def getVersion : RegistryAct VersionInfo :=
  ask f fun r => match r.versions name v with
    | some i => .ok (i, r)
    | none => .error (notFound name v)

def downloadArtifacts : RegistryAct (Nat × String) :=
  ask f fun r => match r.versions name v with
    | some i => .ok ((i.size, i.sha256), r)
    | none => .error (notFound name v)

def getVersionByAlias : RegistryAct Version :=
  ask f fun r => match r.aliases name a with
    | some v => .ok (v, r)
    | none => .error (noAlias name a)

def setAlias : RegistryAct Unit :=
  ask f fun r => if h : (r.versions name v).isSome then .ok ((), r.withAlias name a v h) else .error (notFound name v)

def deleteAlias : RegistryAct Unit :=
  ask f fun r => .ok ((), r.withoutAlias name a)

def setVersionTag (key value : String) : RegistryAct Unit :=
  ask f fun r => if (r.versions name v).isSome then .ok ((), r.withTag name v key value) else .error (notFound name v)

def alias? : RegistryAct (Option Version) :=
  (getVersionByAlias f name a >>= fun v => pure (some v)).handle fun e =>
    if e.cls = .modelNotFound then pure none else .raise e

def source? : RegistryAct (Option String) :=
  (getVersion f name v >>= fun i => pure i.source).handle fun e =>
    if e.cls = .modelNotFound then pure none else .raise e

/-! ## What they do -/

/-- The same aliases over the same registered versions. -/
structure Retagged (r r' : Registry) : Prop where
  aliases : r'.aliases = r.aliases
  kept : ∀ n w, (r.versions n w).isSome → (r'.versions n w).isSome

theorem Retagged.refl (r : Registry) : Retagged r r := ⟨rfl, fun _ _ h => h⟩

theorem Retagged.trans {r r' r'' : Registry} (h : Retagged r r') (h' : Retagged r' r'') : Retagged r r'' :=
  ⟨h'.aliases.trans h.aliases, fun n w hw => h'.kept n w (h.kept n w hw)⟩

theorem retagged_withTag (r : Registry) (key value : String) : Retagged r (r.withTag name v key value) := by
  refine ⟨rfl, fun n w h => ?_⟩
  unfold withTag
  dsimp only
  split
  · rw [Option.isSome_map]; exact h
  · exact h

end Registry

theorem ask_ends {σ α : Type} {f : Answer} {act : σ → Except AdaptationError (α × σ)}
    {s : σ} {D : α → σ → Prop}
    {R : AdaptationError → σ → Prop} {S : σ → Prop}
    (hok : ∀ a s', act s = .ok (a, s') → (f = .ok → D a s') ∧ ∀ e : PortError, f = .after e → R e.1 s')
    (herr : ∀ e, act s = .error e → R e s) (hport : ∀ e : PortError, f = .before e → R e.1 s)
    (hstop : f = .stop → S s) :
    Effects.Ensures (ask f act) s D R S := by
  unfold Effects.Ensures ask Effects.perform
  cases hf : f with
  | stop => exact hstop hf
  | before e => exact hport e hf
  | ok =>
    simp only [Effects.Fate.map]
    cases ha : act s with
    | ok p => exact (hok p.1 p.2 ha).1 hf
    | error e => exact herr e ha
  | after e =>
    simp only [Effects.Fate.map]
    cases ha : act s with
    | ok p => exact (hok p.1 p.2 ha).2 e hf
    | error e => exact herr e ha

namespace Registry

open Effects
variable {f : Answer} {name a key value : String} {v : Version} {r : Registry}

theorem getVersion_ends : Ensures (getVersion f name v) r
    (fun i r' => r' = r ∧ r.versions name v = some i) (fun _ r' => r' = r) (fun r' => r' = r ∧ f = .stop) := by
  refine ask_ends (fun i r' h => ?_) (fun _ _ => rfl) (fun _ _ => rfl) (fun hf => ⟨rfl, hf⟩)
  split at h
  · rename_i hv
    cases h
    exact ⟨fun _ => ⟨rfl, hv⟩, fun _ _ => rfl⟩
  · cases h

theorem downloadArtifacts_ends : Ensures (downloadArtifacts f name v) r
    (fun _ r' => r' = r) (fun _ r' => r' = r) (fun r' => r' = r ∧ f = .stop) := by
  refine ask_ends (fun i r' h => ?_) (fun _ _ => rfl) (fun _ _ => rfl) (fun hf => ⟨rfl, hf⟩)
  split at h <;> cases h
  exact ⟨fun _ => rfl, fun _ _ => rfl⟩

theorem getVersionByAlias_ends : Ensures (getVersionByAlias f name a) r
    (fun v r' => r' = r ∧ r.aliases name a = some v)
    (fun e r' => r' = r ∧ e.cls.framework = true ∧ (e.cls = .modelNotFound → r.aliases name a = none))
    (fun r' => r' = r ∧ f = .stop) := by
  have hport : ∀ e : PortError, e.1.cls.framework = true ∧
      (e.1.cls = .modelNotFound → r.aliases name a = none) :=
    fun e => ⟨e.2.1, fun h => absurd h e.2.2⟩
  refine ask_ends (fun i r' h => ?_) (fun e h => ?_) (fun e _ => ⟨rfl, hport e⟩) (fun hf => ⟨rfl, hf⟩)
  · split at h
    · rename_i hv
      cases h
      exact ⟨fun _ => ⟨rfl, hv⟩, fun e _ => ⟨rfl, hport e⟩⟩
    · cases h
  · split at h
    · cases h
    · rename_i hv
      cases h
      exact ⟨rfl, rfl, fun _ => hv⟩

theorem alias?_ends : Ensures (alias? f name a) r
    (fun v r' => r' = r ∧ v = r.aliases name a) (fun e r' => r' = r ∧ e.cls.framework = true)
    (fun r' => r' = r ∧ f = .stop) := by
  refine .handle (.bind (getVersionByAlias_ends.mono ?_ ?_ fun _ h => h))
  · intro v r' ⟨hr, hv⟩
    exact .ret ⟨hr, hv.symm⟩
  · intro e r' ⟨hr, he, hn⟩
    split
    · rename_i hc
      exact .ret ⟨hr, (hn hc).symm⟩
    · exact .raise ⟨hr, he⟩

theorem source?_ends : Ensures (source? f name v) r
    (fun _ r' => r' = r) (fun _ r' => r' = r) (fun r' => r' = r ∧ f = .stop) := by
  refine .handle (.bind (getVersion_ends.mono ?_ ?_ fun _ h => h))
  · rintro i r' ⟨rfl, -⟩
    exact .ret rfl
  · rintro e r' rfl
    split
    · exact .ret rfl
    · exact .raise rfl

/-- A write that raises without taking effect was not answered, or the
version is not registered. -/
theorem setAlias_ends : Ensures (setAlias f name a v) r
    (fun _ r' => ∃ h, r' = r.withAlias name a v h)
    (fun e r' => e.cls.framework = true ∧ (r' = r ∧ (f = .ok → ¬ (r.versions name v).isSome) ∨
      (∃ e, f = .after e) ∧ ∃ h, r' = r.withAlias name a v h))
    (fun r' => r' = r ∧ f = .stop) := by
  refine ask_ends (fun i r' h => ?_) (fun e h => ?_) (fun e hf => ?_) (fun hf => ⟨rfl, hf⟩)
  · split at h
    · rename_i hv
      cases h
      exact ⟨fun _ => ⟨hv, rfl⟩, fun e hf => ⟨e.2.1, .inr ⟨⟨e, hf⟩, hv, rfl⟩⟩⟩
    · cases h
  · split at h
    · cases h
    · rename_i hv
      cases h
      exact ⟨rfl, .inl ⟨rfl, fun _ => hv⟩⟩
  · refine ⟨e.2.1, .inl ⟨rfl, fun hok => ?_⟩⟩
    rw [hf] at hok; cases hok

theorem deleteAlias_ends : Ensures (deleteAlias f name a) r
    (fun _ r' => r' = r.withoutAlias name a)
    (fun e r' => e.cls.framework = true ∧ f ≠ .ok ∧ (r' = r ∨ r' = r.withoutAlias name a))
    (fun r' => r' = r ∧ f = .stop) := by
  refine ask_ends (fun i r' h => ?_) (fun e h => ?_) (fun e hf => ?_) (fun hf => ⟨rfl, hf⟩)
  · cases h
    refine ⟨fun _ => rfl, fun e hf => ⟨e.2.1, ?_, .inr rfl⟩⟩
    rw [hf]; exact fun h => by cases h
  · cases h
  · refine ⟨e.2.1, ?_, .inl rfl⟩
    rw [hf]; exact fun h => by cases h

theorem setVersionTag_ends : Ensures (setVersionTag f name v key value) r
    (fun _ => Retagged r) (fun _ => Retagged r) (fun r' => r' = r ∧ f = .stop) := by
  refine ask_ends (fun i r' h => ?_) (fun _ _ => .refl r) (fun _ _ => .refl r) (fun hf => ⟨rfl, hf⟩)
  split at h
  · cases h
    exact ⟨fun _ => retagged_withTag name v r key value, fun _ _ => retagged_withTag name v r key value⟩
  · cases h

theorem setAlias_lands (hf : f = .ok ∨ ∃ e, f = .after e) (h : (r.versions name v).isSome) :
    Ensures (setAlias f name a v) r (fun _ r' => r' = r.withAlias name a v h)
      (fun e r' => e.cls.framework = true ∧ r' = r.withAlias name a v h) (fun _ => False) := by
  unfold Ensures setAlias ask perform
  rcases hf with rfl | ⟨e, rfl⟩ <;> simp only [Fate.map, dif_pos h]
  exact ⟨e.2.1, trivial⟩

end Registry

end OranAdapt
