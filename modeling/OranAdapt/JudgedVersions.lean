import OranAdapt.ScoringErrors
import OranAdapt.VersionCheck
import Mathlib.Data.List.Forall2
import Mathlib.Data.List.Nodup
import Mathlib.Logic.Function.Basic

/-!
# The versions a check judges

Each version that is checked is judged where opening it raises no other error
than those that become a reason, and where the libraries take what its model
predicts. What a check returns is put together from the versions one by one.
-/

namespace OranAdapt.VersionCheck

open Scoring Declared

/-- What becomes the reason of a version that cannot be opened. -/
def Reported (e : AdaptationError) : Prop := e.cls.framework = true ∧ e.cls ≠ .registryUnavailable

theorem reported_other (code message : String) (context : Context) : Reported ⟨.other code, message, context⟩ :=
  ⟨rfl, nofun⟩

def IsJudged (ev : VersionEvaluation) : Prop :=
  ev.compatible = true ∧ ev.incompatibilityReason = none ∨ ev.compatible = false ∧ ev.incompatibilityReason ≠ none

section
variable {α ε μ : Type} {s : Setting α ε μ}

/-! ## Opening a version -/

variable (s) in
/-- The registry raises errors of the framework, but not that it is unavailable, and the files of
the artifact have names that can be encoded. -/
structure Verifies (stored : StoredVersion) : Prop where
  tags : Keeps Reported stored.tags
  download : ∀ tags, stored.tags = .ok tags → Keeps Reported stored.download
  names : ∀ tags path artifact, stored.tags = .ok tags → stored.download = .ok (path, artifact) →
    pathSize artifact ≤ s.policy.maxBytes →
    Integrity.hashedText s.sha s.policy.hashChunkBytes artifact ≠ none
  setTags : ∀ tags path artifact, stored.tags = .ok tags → stored.download = .ok (path, artifact) →
    pathSize artifact ≤ s.policy.maxBytes →
    (tags.lookup s.policy.checksumTag).getD "" = "" → Keeps Reported stored.setTags

theorem not_reported_python (name : String) : ¬ Reported (pythonError name) := by
  intro h
  cases h.1

theorem keeps_sha256Path {artifact : Integrity.Entry} :
    Keeps Reported (Integrity.sha256Path s.sha s.policy.hashChunkBytes artifact) ↔
    Integrity.hashedText s.sha s.policy.hashChunkBytes artifact ≠ none := by
  rw [Integrity.sha256Path, keeps_map, keeps_orRaise (not_reported_python _)]

theorem returns_sha256Path {artifact : Integrity.Entry}
    (h : Integrity.hashedText s.sha s.policy.hashChunkBytes artifact ≠ none) :
    Returns (Integrity.sha256Path s.sha s.policy.hashChunkBytes artifact) := by
  obtain ⟨text, htext⟩ := Option.ne_none_iff_exists'.mp h
  rw [Integrity.sha256Path, htext]
  exact returns_ok _

theorem keeps_verify {stored : StoredVersion} {version : String} :
    Keeps Reported (verifyVersionArtifact s stored version) ↔ Verifies s stored := by
  have hlarge : ∀ message context, Reported ⟨.artifactError, message, context⟩ := fun _ _ => ⟨rfl, nofun⟩
  have hchanged : ∀ message context, Reported ⟨.artifactIntegrity, message, context⟩ := fun _ _ => ⟨rfl, nofun⟩
  constructor
  · intro h
    rw [verifyVersionArtifact, keeps_bind] at h
    have hdownload := fun tags htags => keeps_bind.mp (h.2 tags htags)
    have hhash : ∀ tags path artifact, stored.tags = .ok tags → stored.download = .ok (path, artifact) →
        pathSize artifact ≤ s.policy.maxBytes → _ := fun tags path artifact htags hartifact hfits =>
      keeps_bind.mp ((keeps_bind_raiseIf (hlarge ..)).mp ((hdownload tags htags).2 (path, artifact) hartifact)
        (Nat.not_lt.mpr hfits))
    refine ⟨h.1, fun tags htags => (hdownload tags htags).1, ?_, ?_⟩
    · intro tags path artifact htags hartifact hfits
      exact keeps_sha256Path.mp (hhash tags path artifact htags hartifact hfits).1
    · intro tags path artifact htags hartifact hfits hnone
      obtain ⟨hnames, hrest⟩ := hhash tags path artifact htags hartifact hfits
      obtain ⟨digest, hdigest⟩ := returns_sha256Path (keeps_sha256Path.mp hnames)
      have := hrest digest hdigest
      rw [if_neg (not_not.mpr hnone), keeps_bind] at this
      exact this.1
  · intro h
    rw [verifyVersionArtifact, keeps_bind]
    refine ⟨h.tags, ?_⟩
    intro tags htags
    rw [keeps_bind]
    refine ⟨h.download tags htags, ?_⟩
    rintro ⟨path, artifact⟩ hartifact
    simp only
    rw [keeps_bind_raiseIf (hlarge ..)]
    intro hfits
    rw [keeps_bind, keeps_sha256Path]
    refine ⟨h.names tags path artifact htags hartifact (Nat.not_lt.mp hfits), ?_⟩
    intro digest _
    by_cases hnone : (tags.lookup s.policy.checksumTag).getD "" = ""
    · rw [if_neg (not_not.mpr hnone), keeps_bind]
      exact ⟨h.setTags tags path artifact htags hartifact (Nat.not_lt.mp hfits) hnone, fun _ _ => keeps_ok _⟩
    · rw [if_pos hnone, keeps_bind_raiseIf (hchanged ..)]
      exact fun _ => keeps_ok _

/-! ## One version -/

theorem returns_refusedFor {ev : VersionEvaluation} {e : AdaptationError} : Returns (refusedFor ev e) ↔ Reported e := by
  unfold refusedFor
  by_cases h : e.cls.framework = true ∧ e.cls ≠ .registryUnavailable
  · rw [if_pos h]
    exact iff_of_true (returns_ok _) h
  · rw [if_neg h]
    exact iff_of_false (not_returns_error _) h

theorem refusedFor_ok {ev ev' : VersionEvaluation} {e : AdaptationError}
    (h : refusedFor ev e = .ok ev') : ev' = incompatible ev (reason e) := by
  unfold refusedFor at h
  split at h
  · cases h
    rfl
  · cases h

theorem degradation_returns (task : TaskType) (value : PyFloat) (baseline : Scores) :
    Returns (degradation s (primaryMetric task) value baseline) := by
  unfold degradation
  split
  · exact returns_ok _
  · rw [returns_map]
    cases task <;> simp [Metrics.higherIsBetter, primaryMetric, Metrics.higherIsBetterMetrics, Metrics.lowerIsBetterMetrics]

theorem evaluated_returns {ev : VersionEvaluation} {task : TaskType} {value : PyFloat} {rest : Scores} :
    Returns (evaluated s ev ((primaryMetric task, value) :: rest)) := by
  rw [evaluated, returns_map]
  exact degradation_returns task value ev.baselineMetrics

variable [DecidableEq ε]

variable (s) in
/-- A model of the kind of LIVE whose features are in the data has a target to be scored on, and
the libraries take its predictions. -/
def ScoringSettles (model : μ) (inspection : ModelInspection) (expected : Option String) : Prop :=
  (expected.getD "" ≠ "" → inspection.estimatorType = expected.getD "") →
    (∀ f ∈ featuresOf s inspection, f ∈ s.data.map Prod.fst) →
    ∃ truth, s.data.lookup s.targetColumn = some truth ∧
      PredictionsTaken s.lib s.types model (selected s (featuresOf s inspection)) truth s.framework
        inspection.estimatorType s.taskType

theorem returns_scored {model : μ} {inspection : ModelInspection} {expected : Option String} {ev : VersionEvaluation} :
    Returns (scored s model inspection expected ev) ↔ ScoringSettles s model inspection expected := by
  simp only [scored, ScoringSettles]
  by_cases hkind : expected.getD "" ≠ "" ∧ inspection.estimatorType ≠ expected.getD ""
  · rw [if_pos hkind]
    refine iff_of_true (returns_ok _) ?_
    intro hsame
    exact absurd (hsame hkind.1) hkind.2
  · have hsame : expected.getD "" ≠ "" → inspection.estimatorType = expected.getD "" := by
      intro hne
      by_contra hother
      exact hkind ⟨hne, hother⟩
    rw [if_neg hkind, forall_prop_of_true hsame]
    by_cases hmissing : ((featuresOf s inspection).filter fun f => f ∉ s.data.map Prod.fst) ≠ []
    · rw [if_pos hmissing]
      refine iff_of_true (returns_ok _) ?_
      intro hall
      refine absurd (List.filter_eq_nil_iff.mpr ?_) hmissing
      intro f hf
      simpa using hall f hf
    · rw [if_neg hmissing]
      have hall : ∀ f ∈ featuresOf s inspection, f ∈ s.data.map Prod.fst := by
        intro f hf
        have := List.filter_eq_nil_iff.mp (not_not.mp hmissing) f hf
        simpa using this
      rw [forall_prop_of_true hall]
      cases htarget : s.data.lookup s.targetColumn with
      | none =>
        refine iff_of_false (not_returns_error _) ?_
        simp
      | some truth =>
        rw [bind_orRaise]
        simp only [Option.some.injEq, exists_eq_left']
        rw [← keeps_evaluateModel s.nRows]
        cases hscores : evaluateModel s.lib s.types model (selected s (featuresOf s inspection))
          s.nRows (some truth) s.framework
            inspection.estimatorType s.taskType none with
        | ok scores =>
          obtain ⟨task, value, rest, rfl⟩ := evaluateModel_ok hscores
          exact iff_of_true evaluated_returns (keeps_ok _)
        | error e =>
          rw [keeps_error]
          simp only
          by_cases hframework : e.cls.framework = true
          · rw [if_pos hframework]
            exact iff_of_true (returns_ok _) hframework
          · rw [if_neg hframework]
            exact iff_of_false (not_returns_error _) hframework

variable (s) in
/-- The version is judged: its metrics are read, opening it raises nothing but a reason, and its model is scored. -/
structure Settles (stored : StoredVersion) (version : String) (expected : Option String) : Prop where
  metrics : Returns stored.metrics
  verify : Verifies s stored
  load : ∀ path artifact digest, verifyVersionArtifact s stored version = .ok (path, artifact, digest) →
    Keeps Reported (load s path artifact)
  scored : ∀ path artifact digest model inspection, verifyVersionArtifact s stored version =
    .ok (path, artifact, digest) →
    VersionCheck.load s path artifact = .ok model → s.types.require model s.framework = .ok inspection →
      ScoringSettles s model inspection expected

variable (s) in
def estimatorOf (stored : StoredVersion) (version : String) : Option String :=
  match verifyVersionArtifact s stored version with
  | .error _ => none
  | .ok (path, artifact, _) =>
    match load s path artifact with
    | .error _ => none
    | .ok model =>
      match s.types.require model s.framework with
      | .error _ => none
      | .ok inspection => some inspection.estimatorType

omit [DecidableEq ε] in
theorem keeps_require {model : μ} : Keeps Reported (s.types.require model s.framework) :=
  keeps_mapError fun _ => reported_other ..

theorem returns_evaluateOne {stored : StoredVersion} {info : ModelVersion} {expected : Option String} :
    Returns (evaluateOne s stored info expected) ↔ Settles s stored info.version expected := by
  have hopen : Settles s stored info.version expected ↔ Returns stored.metrics ∧
    Keeps Reported (verifyVersionArtifact s stored info.version) ∧
      ∀ opened, verifyVersionArtifact s stored info.version = .ok opened → Keeps Reported (load s opened.1 opened.2.1) ∧
        ∀ model, load s opened.1 opened.2.1 = .ok model →
        ∀ inspection, s.types.require model s.framework = .ok inspection →
          ScoringSettles s model inspection expected := by
    rw [keeps_verify]
    constructor
    · intro h
      refine ⟨h.metrics, h.verify, ?_⟩
      rintro ⟨path, artifact, digest⟩ hopened
      refine ⟨h.load path artifact digest hopened, ?_⟩
      intro model hmodel inspection hinspection
      exact h.scored path artifact digest model inspection hopened hmodel hinspection
    · intro h
      obtain ⟨hmetrics, hverify, hrest⟩ := h
      refine ⟨hmetrics, hverify, ?_, ?_⟩
      · intro path artifact digest hopened
        exact (hrest _ hopened).1
      · intro path artifact digest model inspection hopened hmodel hinspection
        exact (hrest _ hopened).2 model hmodel inspection hinspection
  rw [hopen, evaluateOne]
  apply returns_bind_const
  intro baseline
  simp only
  cases hverify : verifyVersionArtifact s stored info.version with
  | error e => simp [returns_refusedFor]
  | ok opened =>
    obtain ⟨path, artifact, digest⟩ := opened
    simp only [keeps_ok, true_and, Except.ok.injEq, forall_eq']
    cases hload : load s path artifact with
    | error e => simp [returns_refusedFor]
    | ok model =>
      simp only [keeps_ok, true_and, Except.ok.injEq, forall_eq']
      cases hrequire : s.types.require model s.framework with
      | error e =>
        refine iff_of_true (returns_refusedFor.mpr (keeps_require e hrequire)) ?_
        simp
      | ok inspection =>
        simp only [Except.ok.injEq, forall_eq']
        exact returns_scored

/-- The evaluation of the same version, with a verdict. -/
structure Settled (ev ev' : VersionEvaluation) : Prop where
  version : ev'.version = ev.version
  isLive : ev'.isLive = ev.isLive
  estimatorType : ev'.estimatorType = ev.estimatorType
  judged : IsJudged ev'

theorem settled_incompatible {ev : VersionEvaluation} {why : String} (h : ev.compatible = false) :
    Settled ev (incompatible ev why) :=
  ⟨rfl, rfl, rfl, .inr ⟨h, nofun⟩⟩

omit [DecidableEq ε] in
theorem settled_evaluated {ev ev' : VersionEvaluation} {scores : Scores} (hreason : ev.incompatibilityReason = none)
    (h : evaluated s ev scores = .ok ev') : Settled ev ev' := by
  cases scores with
  | nil => cases h
  | cons score rest =>
    obtain ⟨lost, _, rfl⟩ := map_ok h
    exact ⟨rfl, rfl, rfl, .inl ⟨rfl, hreason⟩⟩

theorem settled_scored {model : μ} {inspection : ModelInspection} {expected : Option String} {ev ev' : VersionEvaluation}
    (hcompatible : ev.compatible = false) (hreason : ev.incompatibilityReason = none)
    (h : scored s model inspection expected ev = .ok ev') : Settled ev ev' := by
  simp only [scored] at h
  split at h
  · cases h
    exact settled_incompatible hcompatible
  · split at h
    · cases h
      exact settled_incompatible hcompatible
    · obtain ⟨truth, _, h⟩ := bind_ok h
      split at h
      · exact settled_evaluated hreason h
      · split at h
        · cases h
          exact settled_incompatible hcompatible
        · cases h

theorem evaluateOne_ok {stored : StoredVersion} {info : ModelVersion} {expected : Option String} {ev : VersionEvaluation}
    (h : evaluateOne s stored info expected = .ok ev) :
    ev.version = info.version ∧ ev.isLive = (info.version == s.liveVersion) ∧
      ev.estimatorType = estimatorOf s stored info.version ∧
      IsJudged ev := by
  obtain ⟨baseline, _, h⟩ := bind_ok h
  have hrefused : ∀ {ev₀ : VersionEvaluation} {e : AdaptationError}, ev₀.compatible = false →
      refusedFor ev₀ e = .ok ev → Settled ev₀ ev := by
    intro ev₀ e hcompatible hrefused
    rw [refusedFor_ok hrefused]
    exact settled_incompatible hcompatible
  unfold estimatorOf
  simp only at h
  cases hverify : verifyVersionArtifact s stored info.version with
  | error e =>
    rw [hverify] at h
    have hsettled := hrefused rfl h
    exact ⟨hsettled.version, hsettled.isLive, hsettled.estimatorType, hsettled.judged⟩
  | ok opened =>
    obtain ⟨path, artifact, digest⟩ := opened
    rw [hverify] at h
    simp only at h ⊢
    cases hload : load s path artifact with
    | error e =>
      rw [hload] at h
      have hsettled := hrefused rfl h
      exact ⟨hsettled.version, hsettled.isLive, hsettled.estimatorType, hsettled.judged⟩
    | ok model =>
      rw [hload] at h
      simp only at h ⊢
      cases hrequire : s.types.require model s.framework with
      | error e =>
        rw [hrequire] at h
        have hsettled := hrefused rfl h
        exact ⟨hsettled.version, hsettled.isLive, hsettled.estimatorType, hsettled.judged⟩
      | ok inspection =>
        rw [hrequire] at h
        have hsettled := settled_scored rfl rfl h
        exact ⟨hsettled.version, hsettled.isLive, hsettled.estimatorType, hsettled.judged⟩

end

end OranAdapt.VersionCheck
