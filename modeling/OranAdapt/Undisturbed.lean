import OranAdapt.OnboardChecks

/-!
# What onboarding does to the registry

Both calls move LIVE before the last checks on the request and the database,
and neither asks who else manages the registered model. This says for which
calls that shows.
-/

namespace OranAdapt

namespace Onboarding

open Effects

/-! ## How a run leaves the registry -/

structure Clean {α : Type} (w : World) (modelId : ModelId) (live : String) (p : Ended Failure α × World) : Prop where
  refused : ∀ failure, p.1 = .raised failure → failure.cause = .request → p.2.registry = w.registry
  live : ∀ name, Managed w.catalog modelId name → p.2.registry.aliases name live = w.registry.aliases name live

section
variable {α β : Type} {w : World} {modelId : ModelId} {live name : String} {version : Version} {cat : Catalog}
  {f : Answer} {k : α → OnboardAct β} {r r' : Registry}

theorem clean_congr {p q : Ended Failure α × World} (h : p = q) : Clean w modelId live p ↔ Clean w modelId live q := by
  rw [h]

theorem clean_same {p : Ended Failure α × World} (h : p.2.registry = w.registry) : Clean w modelId live p :=
  ⟨fun _ _ _ => h, fun _ _ => by rw [h]⟩

theorem clean_aliases {p : Ended Failure α × World} (hp : ∀ failure, p.1 = .raised failure → failure.cause = .registry)
    (h : p.2.registry.aliases = w.registry.aliases) : Clean w modelId live p := by
  refine ⟨?_, fun _ _ => by rw [h]⟩
  intro failure hf hcause
  rw [hp failure hf] at hcause
  cases hcause

theorem clean_raised {e : AdaptationError} {w' : World} (h : w'.registry.aliases = w.registry.aliases) :
    Clean (α := α) w modelId live (.raised ⟨.registry, e⟩, w') := by
  refine clean_aliases ?_ h
  intro failure hf
  cases hf
  rfl

theorem clean_sessionScope {act : OnboardAct α} : Clean w modelId live (sessionScope act w) ↔
    Clean w modelId live (act w) := by
  unfold sessionScope
  cases act w with
  | mk o w' =>
    cases o with
    | done a => rfl
    | raised e => exact ⟨fun h => ⟨h.refused, h.live⟩, fun h => ⟨h.refused, h.live⟩⟩
    | stopped => exact ⟨fun h => ⟨h.refused, h.live⟩, fun h => ⟨h.refused, h.live⟩⟩

theorem live_moved_iff (h : r'.aliases = fun n b => if n = name ∧ b = live then some version else r.aliases n b)
    (hmoved : r.aliases name live ≠ some version) :
    (∀ n, Managed cat modelId n → r'.aliases n live = r.aliases n live) ↔ ¬ Managed cat modelId name := by
  constructor
  · intro hlive hmanaged
    have heq := hlive name hmanaged
    rw [h] at heq
    simp only [true_and, if_true] at heq
    exact hmoved heq.symm
  · intro hfree n hmanaged
    have hne : n ≠ name := by
      rintro rfl
      exact hfree hmanaged
    rw [h]
    simp [hne]

theorem clean_moved_iff {p : Ended Failure α × World}
    (hp : ∀ failure, p.1 = .raised failure → failure.cause = .registry)
    (h : p.2.registry.aliases = fun n b => if n = name ∧ b = live then some version else w.registry.aliases n b)
    (hmoved : w.registry.aliases name live ≠ some version) : Clean w modelId live p ↔
      ¬ Managed w.catalog modelId name := by
  rw [← live_moved_iff h hmoved]
  constructor
  · exact Clean.live
  · intro hlive
    refine ⟨?_, hlive⟩
    intro failure hf hcause
    rw [hp failure hf] at hcause
    cases hcause

theorem not_clean {e : AdaptationError} {w' : World} (hmoved : w.registry.aliases name live ≠ some version)
    (h : w'.registry.aliases name live = some version) :
    ¬ Clean (α := α) w modelId live (.raised ⟨.request, e⟩, w') := by
  intro hclean
  have hsame := hclean.refused _ rfl rfl
  rw [show w'.registry = w.registry from hsame] at h
  exact hmoved h

theorem isSome_withVersion (r : Registry) (name : String) (version : Version) (i : VersionInfo) :
    ((r.withVersion name version i).versions name version).isSome := by
  simp [Registry.withVersion]

theorem createVersion_done (name : String) (version : Version) (i : VersionInfo) (r : Registry) :
    Registry.createVersion .ok name version i r = (.done version, r.withVersion name version i) := rfl

/-- A call that changes nothing and then goes on well. -/
theorem clean_reading {P : α → Prop} {act : RegistryAct α} (hact : Ensures act w.registry
      (fun a r' => P a ∧ r' = w.registry) (fun _ r' => r' = w.registry) (fun r' => r' = w.registry))
    (hk : ∀ a, P a → Clean w modelId live (k a ⟨cat, w.registry⟩)) :
    Clean w modelId live ((onRegistry act >>= k) ⟨cat, w.registry⟩) := by
  unfold Ensures at hact
  split at hact
  · rename_i a r' hrun
    rw [onRegistry_done hrun, hact.2]
    exact hk a hact.1
  · rename_i e r' hrun
    rw [onRegistry_raised hrun]
    exact clean_same hact
  · rename_i r' hrun
    rw [onRegistry_stopped hrun]
    exact clean_same hact

theorem listVersions_fails {k : Unit → OnboardAct β} {g : Fate AdaptationError} (hg : g ≠ .ok) :
    Clean w modelId live ((onRegistry (Registry.listVersions g) >>= k) ⟨cat, w.registry⟩) := by
  refine clean_reading (P := fun _ => False) (.perform (fun _ r' h => ?_) (fun _ => rfl) (fun _ => rfl)) fun _ h => h.elim
  cases h
  exact ⟨fun h => absurd h hg, fun _ _ => rfl⟩

theorem setAlias_unknown {k : Unit → OnboardAct β} (hversion : ¬ (w.registry.versions name version).isSome) :
    Clean w modelId live ((onRegistry (Registry.setAlias f name live version) >>= k) ⟨cat, w.registry⟩) := by
  refine clean_reading (P := fun _ => False)
    (Registry.setAlias_ends.mono (fun _ _ h => absurd h.1 hversion) ?_ fun _ h => h.1) fun _ h => h.elim
  rintro e r' ⟨-, ⟨hsame, -⟩ | ⟨-, h, -⟩⟩
  · exact hsame
  · exact absurd h hversion

theorem createVersion_fails {k : Version → OnboardAct β} {i : VersionInfo} (hf : f ≠ .ok) :
    Clean w modelId live ((onRegistry (Registry.createVersion f name version i) >>= k) ⟨cat, w.registry⟩) := by
  cases f with
  | ok => exact absurd rfl hf
  | stop =>
    have hcreate : Registry.createVersion .stop name version i w.registry = (.stopped, w.registry) := rfl
    rw [clean_congr (onRegistry_stopped hcreate)]
    exact clean_same rfl
  | before e =>
    have hcreate : Registry.createVersion (.before e) name version i w.registry = (.raised e.1, w.registry) := rfl
    rw [clean_congr (onRegistry_raised hcreate)]
    exact clean_same rfl
  | after e =>
    have hcreate : Registry.createVersion (.after e) name version i w.registry =
      (.raised e.1, w.registry.withVersion name version i) := rfl
    rw [clean_congr (onRegistry_raised hcreate)]
    exact clean_raised rfl

/-- The answer to `set_alias` decides whether the rest runs and whether LIVE moves. -/
theorem clean_setAlias_iff {k : Unit → OnboardAct β} {P : Prop} (hversion : (r.versions name version).isSome)
    (haliases : r.aliases = w.registry.aliases) (hmoved : w.registry.aliases name live ≠ some version)
    (hk : Clean w modelId live (k () ⟨cat, r.withAlias name live version hversion⟩) ↔ P ∧
      ¬ Managed w.catalog modelId name) :
    Clean w modelId live ((onRegistry (Registry.setAlias f name live version) >>= k) ⟨cat, r⟩) ↔
      (f = .ok → P) ∧ (f.takesEffect = true → ¬ Managed w.catalog modelId name) := by
  cases f with
  | ok =>
    have hset : Registry.setAlias .ok name live version r = (.done (), r.withAlias name live version hversion) := by
      unfold Registry.setAlias ask perform
      simp only [Fate.map, dif_pos hversion]
    rw [clean_congr (onRegistry_done hset), hk]
    simp [Fate.takesEffect]
  | after e =>
    have hset : Registry.setAlias (.after e) name live version r = (.raised e.1, r.withAlias name live version hversion) := by
      unfold Registry.setAlias ask perform
      simp only [Fate.map, dif_pos hversion]
    rw [clean_congr (onRegistry_raised hset), clean_moved_iff ?_ ?_ hmoved]
    · simp [Fate.takesEffect]
    · intro failure hf
      cases hf
      rfl
    · rw [← haliases]
      rfl
  | before e =>
    have hset : Registry.setAlias (.before e) name live version r = (.raised e.1, r) := rfl
    rw [clean_congr (onRegistry_raised hset)]
    exact iff_of_true (clean_raised haliases) (by simp [Fate.takesEffect])
  | stop =>
    have hset : Registry.setAlias .stop name live version r = (.stopped, r) := rfl
    rw [clean_congr (onRegistry_stopped hset)]
    refine iff_of_true (clean_aliases ?_ haliases) (by simp [Fate.takesEffect])
    intro failure hf
    cases hf

end

theorem error_of_not_ok {ε α : Type} {x : Except ε α} (h : ¬ ∃ a, x = .ok a) : ∃ e, x = .error e := by
  cases x with
  | ok a => exact absurd ⟨a, rfl⟩ h
  | error e => exact ⟨e, rfl⟩

namespace OnboardCall

variable {host : Host} {call : OnboardCall} {answers : PublishAnswers} {w : World}

theorem Accepted.unique {training training' : DataVersionInfo} (h : call.Accepted host w.catalog training)
    (h' : call.Accepted host w.catalog training') : training' = training := by
  obtain ⟨cat, hingest⟩ := h.ingested
  obtain ⟨cat', hingest'⟩ := h'.ingested
  rw [hingest] at hingest'
  cases hingest'
  rfl

variable (host call answers w) in
/-- An onboarding that reaches the registry and is answered there has a version
name and drifted data that can be stored, and its registered model is nobody
else's. -/
def Harmless : Prop :=
  ∀ training, call.Accepted host w.catalog training → answers.create = .ok →
    (answers.setAlias = .ok → host.fits 50 answers.version = true ∧
      ∀ slice, call.drifted = some slice → call.Storable host w.catalog training answers.version slice) ∧
    (answers.setAlias.takesEffect = true → ¬ Managed w.catalog call.modelId call.name)

/-- The database's part of the end of an onboarding. -/
theorem link_run {training : DataVersionInfo} {cat : Catalog} {r : Registry}
    (hingest : ingest host call.training (w.catalog.add call.row) = .ok (training, cat))
    (haliases : r.aliases = fun n b => if n = call.name ∧ b = call.liveAlias then some answers.version
      else w.registry.aliases n b)
    (hmoved : w.registry.aliases call.name call.liveAlias ≠ some answers.version) :
    Clean w call.modelId call.liveAlias
        ((onCatalog (addLink host ⟨call.modelId, answers.version, "TRAINING"⟩ training.dataVersionId) >>= fun _ =>
          onCatalog (call.ingestDrifted host training answers.version) >>= fun drifted =>
            pure (⟨call.modelId, call.name, answers.version, call.liveAlias, some training, drifted⟩ : Result))
              ⟨cat, r⟩) ↔
      (host.fits 50 answers.version = true ∧
        ∀ slice, call.drifted = some slice → call.Storable host w.catalog training answers.version slice) ∧
      ¬ Managed w.catalog call.modelId call.name := by
  have hlive : r.aliases call.name call.liveAlias = some answers.version := by
    rw [haliases]
    simp
  obtain ⟨-, -, hknown⟩ := training_created hingest
  have hlink : (∃ p, addLink host ⟨call.modelId, answers.version, "TRAINING"⟩ training.dataVersionId cat =
      .ok p) ↔ _ :=
    addLink_ok_iff hknown
  by_cases hfits : host.fits 50 answers.version = true
  · obtain ⟨⟨u, cat'⟩, hadded⟩ := hlink.mpr hfits
    obtain ⟨hsame, honboarded, hdatasets⟩ := addLink_keeps hadded
    have hdrifted := ingestDrifted_ok_iff hingest hsame hdatasets honboarded hfits
    rw [onCatalog_ok hadded, and_iff_right hfits, ← hdrifted]
    by_cases hok : ∃ p, call.ingestDrifted host training answers.version cat' = .ok p
    · rw [and_iff_right hok]
      obtain ⟨⟨drifted, cat''⟩, hok⟩ := hok
      rw [onCatalog_ok hok]
      refine clean_moved_iff ?_ haliases hmoved
      intro failure hf
      cases hf
    · obtain ⟨e, he⟩ := error_of_not_ok hok
      rw [onCatalog_error he]
      exact iff_of_false (not_clean hmoved hlive) fun h => hok h.1
  · obtain ⟨e, he⟩ := error_of_not_ok fun h => hfits (hlink.mp h)
    rw [onCatalog_error he]
    exact iff_of_false (not_clean hmoved hlive) fun h => hfits h.1.1

theorem clean_iff (hnew : w.registry.versions call.name answers.version = none) :
    Clean w call.modelId call.liveAlias (call.run host answers w) ↔ call.Harmless host answers w := by
  by_cases hacc : ∃ training, call.Accepted host w.catalog training
  swap
  · have hrefused : ∃ e w', call.run host answers w = (.raised ⟨.request, e⟩, w') ∧ w'.registry = w.registry :=
      run_refused fun training h => hacc ⟨training, h⟩
    obtain ⟨e, w', hrun, hsame⟩ := hrefused
    rw [hrun]
    exact iff_of_true (clean_same hsame) fun training h => absurd ⟨training, h⟩ hacc
  obtain ⟨training, hacc⟩ := hacc
  have haccepted : ∃ cat artifact, ingest host call.training (w.catalog.add call.row) = .ok (training, cat) ∧
      call.run host answers w = call.register host answers artifact training ⟨cat, w.registry⟩ := run_accepted hacc
  obtain ⟨cat, artifact, hingest, hrun⟩ := haccepted
  rw [hrun]
  unfold register
  by_cases hcreate : answers.create = .ok
  swap
  · exact iff_of_true (createVersion_fails hcreate) fun _ _ h => absurd h hcreate
  have hmoved : w.registry.aliases call.name call.liveAlias ≠ some answers.version := by
    intro halias
    have := w.registry.registered _ _ _ halias
    rw [hnew] at this
    cases this
  rw [hcreate, clean_congr (onRegistry_done (createVersion_done _ _ _ _))]
  refine (clean_setAlias_iff (isSome_withVersion _ _ _ _) rfl hmoved (link_run hingest rfl hmoved)).trans ?_
  constructor
  · intro h training' hacc' _
    rw [hacc.unique hacc']
    exact h
  · intro h
    exact h training hacc hcreate

end OnboardCall

namespace AttachCall

variable {host : Host} {call : AttachCall} {answers : AttachAnswers} {w : World}

variable (host call) in
/-- What an attachment asks of the database is there. -/
structure Linkable (cat : Catalog) (version : Version) : Prop where
  row : call.row.Fits host
  training : ∀ dataset trainingVersion, call.trainingData = some (dataset, trainingVersion) →
    dataset ∈ cat.data.datasets ∧ (cat.data.findVersion dataset trainingVersion).isSome = true ∧
      host.fits 50 version = true

variable (host call answers w) in
/-- An attachment that moves LIVE is one the database accepts, of a registered
model that is nobody else's. -/
def Harmless : Prop :=
  ∀ version, call.version = some version → call.modelId ∉ w.catalog.models.map ModelRow.modelId →
    answers.listVersions = .ok → (w.registry.versions call.mlflowModelName version).isSome = true →
    w.registry.aliases call.mlflowModelName call.liveAlias ≠ some version →
    (answers.setAlias = .ok → call.Linkable host w.catalog version) ∧
    (answers.setAlias.takesEffect = true → ¬ Managed w.catalog call.modelId call.mlflowModelName)

variable (host call) in
/-- What is left of `attach_existing_model` when the version is known. -/
def settle (answers : AttachAnswers) (version : Version) : OnboardAct Result := do
  onCatalog (addModel host call.row)
  let training ← call.linkTraining host answers version
  pure ⟨call.modelId, call.mlflowModelName, version, call.liveAlias, training, none⟩

theorem aliases_withTags (r : Registry) (name : String) (v : Version) (tags : List (String × String)) :
    (r.withTags name v tags).aliases = r.aliases := by
  unfold Registry.withTags
  induction tags generalizing r with
  | nil => rfl
  | cons tag tags ih => rw [List.foldl_cons, ih]; rfl

theorem setVersionTags_run {α : Type} {f : Answer} {name : String} {v : Version}
    {tags : List (String × String)} {cat : Catalog}
    {r : Registry} {k : Unit → OnboardAct α} (hk : ∀ w, ∃ a, k () w = (.done a, w)) :
    ∃ o w', (onRegistry (Registry.setVersionTags f name v tags) >>= k) ⟨cat, r⟩ = (o, w') ∧
      (∀ failure, o = .raised failure → failure.cause = .registry) ∧ w'.registry.aliases = r.aliases := by
  have hends : Ensures (Registry.setVersionTags f name v tags) r (fun _ r' => r'.aliases = r.aliases)
      (fun _ r' => r'.aliases = r.aliases) (fun r' => r'.aliases = r.aliases) := by
    refine ask_ends (fun _ r' h => ?_) (fun _ _ => rfl) (fun _ _ => rfl) (fun _ => rfl)
    split at h
    · cases h
      exact ⟨fun _ => aliases_withTags r name v tags, fun _ _ => aliases_withTags r name v tags⟩
    · cases h
  unfold Ensures at hends
  split at hends
  · rename_i u r' hact
    obtain ⟨a, ha⟩ := hk ⟨cat, r'⟩
    exact ⟨_, _, (onRegistry_done hact).trans ha, fun _ h => (by cases h), hends⟩
  · rename_i e r' hact
    exact ⟨_, _, onRegistry_raised hact, fun _ h => (by cases h; rfl), hends⟩
  · rename_i r' hact
    exact ⟨_, _, onRegistry_stopped hact, fun _ h => (by cases h), hends⟩

theorem getVersion_ok_iff {dataset version : String} {cat : Catalog} :
    (∃ info, Onboarding.getVersion dataset version cat = .ok (info, cat)) ↔
      dataset ∈ cat.data.datasets ∧ (cat.data.findVersion dataset version).isSome = true := by
  unfold Onboarding.getVersion versionRow
  by_cases h : dataset ∈ cat.data.datasets
  · cases hfound : cat.data.findVersion dataset version <;> simp [h, Except.map]
  · simp [h, Except.map]

theorem getVersion_keeps {dataset version : String} {cat cat' : Catalog} {info : DataVersionInfo}
    (h : Onboarding.getVersion dataset version cat = .ok (info, cat')) : cat' = cat := by
  obtain ⟨v, -, heq⟩ := map_ok h
  cases heq
  rfl

/-- The database refuses it and the registry stays as it is, or it accepts it
and the aliases do. -/
theorem settle_run (cat : Catalog) (r : Registry) (version : Version) :
    (call.Linkable host cat version ∧ ∃ o w', call.settle host answers version ⟨cat, r⟩ = (o, w') ∧
      (∀ failure, o = .raised failure → failure.cause = .registry) ∧ w'.registry.aliases = r.aliases) ∨
    (¬ call.Linkable host cat version ∧
      ∃ e w', call.settle host answers version ⟨cat, r⟩ = (.raised ⟨.request, e⟩, w') ∧ w'.registry = r) := by
  unfold settle
  by_cases hrow : call.row.Fits host
  swap
  · obtain ⟨e, he⟩ := addModel_error hrow cat
    exact .inr ⟨fun h => hrow h.row, e, _, onCatalog_error he, rfl⟩
  rw [onCatalog_ok (addModel_ok hrow cat)]
  unfold linkTraining
  cases hdata : call.trainingData with
  | none =>
    refine .inl ⟨⟨hrow, fun _ _ h => ?_⟩, _, _, rfl, fun _ h => (by cases h), rfl⟩
    rw [hdata] at h
    cases h
  | some names =>
    obtain ⟨dataset, trainingVersion⟩ := names
    simp only [bind_assoc, pure_bind]
    have hgot : (∃ info, Onboarding.getVersion dataset trainingVersion (cat.add call.row) =
        .ok (info, cat.add call.row)) ↔ _ :=
      getVersion_ok_iff
    by_cases hfound : dataset ∈ cat.data.datasets ∧ (cat.data.findVersion dataset trainingVersion).isSome = true
    swap
    · obtain ⟨e, he⟩ : ∃ e, Onboarding.getVersion dataset trainingVersion (cat.add call.row) = .error e := by
        refine error_of_not_ok fun ⟨⟨info, cat'⟩, h⟩ => hfound (hgot.mp ⟨info, ?_⟩)
        rw [h, getVersion_keeps h]
      exact .inr ⟨fun h => hfound ⟨(h.training _ _ hdata).1, (h.training _ _ hdata).2.1⟩,
        e, _, onCatalog_error he, rfl⟩
    obtain ⟨training, htraining⟩ := hgot.mpr hfound
    rw [onCatalog_ok htraining]
    have hlink : (∃ p, addLink host ⟨call.modelId, version, "TRAINING"⟩ training.dataVersionId
        (cat.add call.row) = .ok p) ↔ _ :=
      addLink_ok_iff (mem_onboarded_add cat call.row)
    by_cases hfits : host.fits 50 version = true
    · obtain ⟨⟨u, cat'⟩, hadded⟩ := hlink.mpr hfits
      rw [onCatalog_ok hadded]
      refine .inl ⟨⟨hrow, fun d v h => ?_⟩, setVersionTags_run fun w => ⟨_, rfl⟩⟩
      rw [hdata] at h
      cases h
      exact ⟨hfound.1, hfound.2, hfits⟩
    · obtain ⟨e, he⟩ := error_of_not_ok fun h => hfits (hlink.mp h)
      exact .inr ⟨fun h => hfits (h.training _ _ hdata).2.2, e, _, onCatalog_error he, rfl⟩

theorem withAlias_same {r : Registry} {name live : String} {version : Version} (h : (r.versions name version).isSome)
    (halias : r.aliases name live = some version) : r.withAlias name live version h = r := by
  apply Registry.ext
  · rfl
  · funext n b
    change (if n = name ∧ b = live then some version else r.aliases n b) = r.aliases n b
    split
    · rename_i heq
      rw [heq.1, heq.2, halias]
    · rfl

/-- With the registry as it was, an attachment ends well either way. -/
theorem settle_clean (cat : Catalog) (version : Version) :
    Clean w call.modelId call.liveAlias (call.settle host answers version ⟨cat, w.registry⟩) := by
  rcases settle_run cat w.registry version with ⟨-, o, w', hrun, hraised, haliases⟩ | ⟨-, e, w', hrun, hsame⟩
  · rw [hrun]
    exact clean_aliases hraised haliases
  · rw [hrun]
    exact clean_same hsame

theorem settle_moved_iff {r : Registry} {version : Version} (cat : Catalog)
    (haliases : r.aliases = fun n b => if n = call.mlflowModelName ∧ b = call.liveAlias then some version
      else w.registry.aliases n b)
    (hmoved : w.registry.aliases call.mlflowModelName call.liveAlias ≠ some version) :
    Clean w call.modelId call.liveAlias (call.settle host answers version ⟨cat, r⟩) ↔
      call.Linkable host cat version ∧ ¬ Managed w.catalog call.modelId call.mlflowModelName := by
  rcases settle_run cat r version with ⟨hlinkable, o, w', hrun, hraised, hsame⟩ | ⟨hrefused, e, w', hrun, hsame⟩
  · rw [hrun, and_iff_right hlinkable]
    exact clean_moved_iff hraised (hsame.trans haliases) hmoved
  · rw [hrun]
    refine iff_of_false (not_clean hmoved ?_) fun h => hrefused h.1
    rw [hsame, haliases]
    simp

theorem clean_iff : Clean w call.modelId call.liveAlias (call.run host answers w) ↔ call.Harmless host answers w := by
  have hrun : call.run host answers =
      (onCatalog (ensureNewModel call.modelId) >>= fun _ => call.adopted answers >>= call.settle host answers) := rfl
  rw [hrun]
  by_cases hnew : call.modelId ∈ w.catalog.models.map ModelRow.modelId
  · obtain ⟨e, he⟩ := ensureNewModel_error hnew
    rw [onCatalog_error he]
    exact iff_of_true (clean_same rfl) fun _ _ h => absurd hnew h
  rw [onCatalog_ok (ensureNewModel_ok hnew)]
  unfold adopted
  cases hversion : call.version with
  | none =>
    refine iff_of_true (clean_reading (P := fun _ => True) ?_ fun v _ => settle_clean _ v) fun version h => ?_
    · exact Registry.getVersionByAlias_ends.mono (fun _ _ h => ⟨trivial, h.1⟩) (fun _ _ h => h.1) (fun _ h => h.1)
    · rw [hversion] at h
      cases h
  | some version =>
    simp only [bind_assoc, pure_bind]
    by_cases hlist : answers.listVersions = .ok
    swap
    · exact iff_of_true (listVersions_fails hlist) fun _ _ _ h => absurd h hlist
    have hlisted : Registry.listVersions .ok w.registry = (.done (), w.registry) := rfl
    rw [hlist, clean_congr (onRegistry_done hlisted)]
    by_cases hregistered : (w.registry.versions call.mlflowModelName version).isSome = true
    swap
    · refine iff_of_true (setAlias_unknown hregistered) fun version' h _ _ h' => ?_
      rw [hversion] at h
      cases h
      exact absurd h' hregistered
    by_cases hmoved : w.registry.aliases call.mlflowModelName call.liveAlias = some version
    · refine iff_of_true ?_ fun version' h _ _ _ h' => ?_
      · refine clean_reading (P := fun _ => True) (Registry.setAlias_ends.mono ?_ ?_ fun _ h => h.1) fun _ _ =>
          settle_clean _ _
        · intro _ r' ⟨h, hr⟩
          rw [hr, withAlias_same h hmoved]
          exact ⟨trivial, rfl⟩
        · rintro e r' ⟨-, ⟨hsame, -⟩ | ⟨-, h, hr⟩⟩
          · exact hsame
          · rw [hr, withAlias_same h hmoved]
      · rw [hversion] at h
        cases h
        exact absurd hmoved h'
    · refine (clean_setAlias_iff hregistered rfl hmoved (settle_moved_iff _ rfl hmoved)).trans ⟨?_, ?_⟩
      · intro h version' hv _ _ _ _
        rw [hversion] at hv
        cases hv
        exact h
      · intro h
        exact h version hversion hnew hlist hregistered hmoved

end AttachCall

namespace Call

variable (host : Host)

def Numbers : Call → World → Prop
  | onboard call answers, w => w.registry.versions call.name answers.version = none
  | attach _ _, _ => True

def Harmless : Call → World → Prop
  | onboard call answers, w => call.Harmless host answers w
  | attach call answers, w => call.Harmless host answers w

end Call

variable {host : Host} {call : Call} {w : World}

theorem undisturbed_iff_clean : Undisturbed host call w ↔ Clean w call.modelId call.liveAlias (call.run host w) := by
  constructor
  · intro h
    refine ⟨?_, h.live⟩
    intro failure hf
    exact h.refused failure _ (Prod.ext hf rfl)
  · intro h
    refine ⟨?_, h.live⟩
    intro failure w' hrun hcause
    have hsame := h.refused failure (by rw [hrun]) hcause
    rw [hrun] at hsame
    exact hsame

/-- An onboarding or an attachment leaves the registry of others alone, and
leaves nothing behind when it is refused, exactly when it is harmless. -/
theorem registry_undisturbed_iff (hnew : call.Numbers w) : Undisturbed host call w ↔ call.Harmless host w := by
  rw [undisturbed_iff_clean]
  cases call with
  | onboard call answers => exact clean_sessionScope.trans (OnboardCall.clean_iff hnew)
  | attach call answers => exact clean_sessionScope.trans AttachCall.clean_iff

/-! ## Three calls that do harm -/

def plainHost : Host := ⟨id, id, true, 1000⟩

def noSource : VersionInfo := ⟨none, [], 0, ""⟩

theorem twoVersions_registered : ∀ name a v, (if name = "m" ∧ a = "live" then some "1" else none) = some v →
    (if name = "m" ∧ (v = "1" ∨ v = "2") then some noSource else none).isSome := by
  intro name a v h
  split at h
  · rename_i hname
    cases h
    rw [if_pos ⟨hname.1, .inl rfl⟩]
    rfl
  · cases h

def twoVersions : Registry where
  versions := fun name v => if name = "m" ∧ (v = "1" ∨ v = "2") then some noSource else none
  aliases := fun name a => if name = "m" ∧ a = "live" then some "1" else none
  registered := twoVersions_registered

def unmanaged : World := ⟨⟨[], {}, rfl⟩, twoVersions⟩

def managed : World := ⟨⟨[⟨"a", "m", "r", "sklearn", "r", "y"⟩], { onboarded := ["a"] }, rfl⟩, twoVersions⟩

def allWorks : AttachAnswers := ⟨.ok, .ok, .ok, .ok⟩

def unknownTraining : AttachCall := ⟨"b", "m", "sklearn", "r", "y", "live", some "2", some "kpi", some "v1"⟩

def anothersModel : AttachCall := ⟨"b", "m", "sklearn", "r", "y", "live", some "2", none, none⟩

def plainRow : Payload := ⟨[], .obj .nil fun _ h => (by cases h)⟩

def noon : DateTime := VersionCall.atHour 12

theorem kept_row (features : Frame) (observedAt : List DateTime)
    (h : (.ok (⟨[("y", "float64")], [plainRow]⟩, [noon]) : Except AdaptationError (Frame × List DateTime)) =
      .ok (features, observedAt)) : features.records.length = 1 := by
  cases h
  rfl

theorem kept_none (_ : DataVersionInfo) (features : Frame) (observedAt : List DateTime)
    (h : (.ok (⟨[("y", "float64")], []⟩, []) : Except AdaptationError (Frame × List DateTime)) =
      .ok (features, observedAt)) : features.records.length = 0 := by
  cases h
  rfl

def emptyDrift : OnboardCall where
  modelId := "b"
  framework := "sklearn"
  taskType := "r"
  targetColumn := "y"
  dataset := "kpi"
  trainingFrame := ⟨[("y", "float64")], [plainRow]⟩
  trainingVersion := "v1"
  timestamps := .ok (⟨[("y", "float64")], [plainRow]⟩, [noon])
  rowsKept := kept_row
  mlflowModelName := some "n"
  liveAlias := "live"
  drifted := some ⟨⟨[("y", "float64")], []⟩, none, fun _ => .ok (⟨[("y", "float64")], []⟩, []), kept_none⟩
  saved := .ok ⟨"/tmp/model", 10, none, ""⟩

/-- An onboarding without drifted data into a registry that nobody shares. -/
theorem plain_onboarding_undisturbed :
    Undisturbed plainHost (.onboard { emptyDrift with drifted := none } ⟨.ok, "1", .ok⟩) unmanaged := by
  have hnew : (Call.onboard { emptyDrift with drifted := none } ⟨.ok, "1", .ok⟩).Numbers unmanaged := rfl
  refine (registry_undisturbed_iff hnew).mpr fun training hacc hcreate => ⟨fun _ => ⟨by decide, ?_⟩, fun _ => ?_⟩
  · intro slice h
    cases h
  · intro ⟨row, hrow, _⟩
    cases hrow

/-- A refused onboarding leaves a version in the registry, a refused attachment
leaves LIVE moved, and an accepted one moves LIVE of another's model. -/
theorem registry_disturbed : ¬ Undisturbed plainHost (.onboard emptyDrift ⟨.ok, "1", .ok⟩) unmanaged ∧
    ¬ Undisturbed plainHost (.attach unknownTraining allWorks) unmanaged ∧
    ¬ Undisturbed plainHost (.attach anothersModel allWorks) managed := by
  refine ⟨?_, ?_, ?_⟩
  · intro h
    have hsame := congrArg (fun r => (r.aliases "n" "live")) (h.refused _ _ rfl rfl)
    cases hsame
  · intro h
    have hsame := congrArg (fun r => (r.aliases "m" "live")) (h.refused _ _ rfl rfl)
    exact absurd (Option.some.inj hsame) (by decide)
  · intro h
    have hsame := h.live "m" ⟨_, List.mem_singleton_self _, by decide, rfl⟩
    exact absurd (Option.some.inj hsame) (by decide)

end Onboarding

end OranAdapt
