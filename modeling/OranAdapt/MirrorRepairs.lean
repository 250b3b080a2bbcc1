import OranAdapt.MirrorLevel

/-!
# What a sync repairs

A sync returns when the primary has versions and all are complete. It repairs
the replica when the copies that failed writes left are complete too.
-/

namespace OranAdapt

namespace MirrorRegistry

open FilesystemRegistry (Tags Status versionName versionName_inj)

def Complete (f : Files) : Prop := ∀ n v, f.version? n = some v → v.status = .ready

/-- A sync that finds no version ends without a model in the replica. -/
theorem copyAliases_absent {l : List (String × Nat)} {r : Files} (h : copyAliases l none = .ok r) : r = none := by
  cases l with
  | nil =>
    cases h
    rfl
  | cons x l => cases h

namespace Sound

variable {P : Model} {r : Files}

theorem sync_nonempty (h : Sound ⟨some P, r⟩) {out : Report × Files} (hout : sync ⟨some P, r⟩ = .ok out) :
    ∃ n v, P.versions.get? n = some v := by
  by_contra hempty
  have hrows : P.versions.rows = [] := by
    rw [List.eq_nil_iff_forall_not_mem]
    intro x hx
    exact hempty ⟨x.1, x.2, Table.mem_rows.mp hx⟩
  have habsent : r = none := by
    rw [← Option.not_isSome_iff_eq_none]
    exact fun hr => hempty (h.copied.nonempty hr)
  rw [habsent] at hout
  unfold sync at hout
  dsimp only at hout
  rw [hrows] at hout
  change (copyAliases P.aliases.rows none >>= _) = _ at hout
  obtain ⟨replica, haliases, hrest⟩ := bind_ok hout
  rw [copyAliases_absent haliases] at hrest
  cases hrest

theorem sync_complete (h : Sound ⟨some P, r⟩) {out : Report × Files} (hout : sync ⟨some P, r⟩ = .ok out) :
    Complete (some P) := by
  unfold sync at hout
  dsimp only at hout
  obtain ⟨copies, hcopy, _⟩ := bind_ok hout
  have hready := copyMissing_ready h.copied (fun x hx => Table.mem_rows.mp hx) hcopy
  intro n v hv
  exact hready (n, v) (Table.mem_rows.mpr hv)

theorem sync_returns_iff {s : Mirror} (h : Sound s) :
    (∃ out, sync s = .ok out) ↔ (∃ n v, s.primary.version? n = some v) ∧ Complete s.primary := by
  obtain ⟨primary, r⟩ := s
  cases primary with
  | none =>
    constructor
    · rintro ⟨out, hout⟩
      cases hout
    · rintro ⟨⟨n, v, hv⟩, _⟩
      cases hv
  | some P =>
    constructor
    · rintro ⟨out, hout⟩
      exact ⟨h.sync_nonempty hout, h.sync_complete hout⟩
    · rintro ⟨hsome, hready⟩
      obtain ⟨report, r', hsync, _⟩ := sync_ok h hready hsome
      exact ⟨(report, r'), hsync⟩

end Sound

theorem Synced.level {P : Model} {r r' : Files} (h : Synced P r r') (hcopies : Complete r) : Level P r' := by
  constructor
  · intro n v hv hready
    obtain ⟨m, hm⟩ := Option.isSome_iff_exists.mp (h.mapped n v hv)
    obtain ⟨w, hw, hsource⟩ := replicaVersion_some hm
    obtain ⟨v', hv', _, hartifact, _⟩ := h.copied.of_source hw hsource
    have hsame : v = v' := Option.some.inj (hv.symm.trans hv')
    refine ⟨m, w, hm, hw, ?_, hsame ▸ hartifact, h.tagged n v hv m w hw hsource, ?_⟩
    · rcases h.kept.new m w hw with hnew | ⟨old, hold, hstatus, _⟩
      · exact hnew
      · exact hstatus.trans (hcopies m old hold)
    · intro m' w' hw' _ hsource'
      exact Option.some.inj ((h.copied.replicaVersion_eq hw' hsource').symm.trans hm)
  · exact h.aliases

/-- A copy that is not complete stays in the way of its version. -/
theorem Synced.complete {P : Model} {r r' : Files} (h : Synced P r r') (hlevel : Level P r') : Complete r := by
  intro m w hw
  obtain ⟨w', hw', hstatus, _⟩ := h.kept.old m w hw
  obtain ⟨n, v, hv, hready, hsource, _⟩ := h.copied.source m w' hw'
  obtain ⟨m', w'', hm', hw'', hready', _⟩ := hlevel.copies n v hv hready
  have hsame : m = m' := Option.some.inj ((h.copied.replicaVersion_eq hw' hsource).symm.trans hm')
  rw [← hsame, hw', Option.some.injEq] at hw''
  rw [← hstatus, hw'']
  exact hready'

theorem Sound.repairs_iff {s : Mirror} (h : Sound s) :
    Repairs s ↔ (∃ n v, s.primary.version? n = some v) ∧ Complete s.primary ∧ Complete s.replica := by
  constructor
  · rintro ⟨P, report, r', hP, hsync, hlevel, _⟩
    obtain ⟨hsome, hready⟩ := h.sync_returns_iff.mp ⟨_, hsync⟩
    refine ⟨hsome, hready, ?_⟩
    obtain ⟨primary, r⟩ := s
    subst hP
    obtain ⟨report', r'', hsync', hsynced⟩ := sync_ok h hready hsome
    rw [hsync] at hsync'
    cases hsync'
    exact hsynced.complete hlevel
  · rintro ⟨hsome, hready, hcopies⟩
    obtain ⟨primary, r⟩ := s
    cases primary with
    | none =>
      obtain ⟨n, v, hv⟩ := hsome
      cases hv
    | some P =>
      obtain ⟨report, r', hsync, hsynced⟩ := sync_ok h hready hsome
      exact ⟨P, report, r', rfl, hsync, hsynced.level hcopies, hsynced.still h.own⟩

theorem sound_fresh {primary : Files} (hown : ∀ n v, primary.version? n = some v → Own n v.tags) :
    Sound ⟨primary, none⟩ :=
  ⟨hown, Copied.absent primary⟩

/-- After any writes, of which any calls failed, whose tags name no other version:
a sync returns exactly when the primary has versions and all are complete, and
repairs the replica exactly when the copies in it are complete too. -/
theorem sync_repairs_iff {primary : Files} (hown : ∀ n v, primary.version? n = some v → Own n v.tags)
    {run : List (Op × Ending × Ending)} (hrun : OwnTags ⟨primary, none⟩ run) :
    ((∃ out, sync (writes ⟨primary, none⟩ run) = .ok out) ↔
      (∃ n v, (writes ⟨primary, none⟩ run).primary.version? n = some v) ∧
        Complete (writes ⟨primary, none⟩ run).primary) ∧
    (Repairs (writes ⟨primary, none⟩ run) ↔
      (∃ n v, (writes ⟨primary, none⟩ run).primary.version? n = some v) ∧
      Complete (writes ⟨primary, none⟩ run).primary ∧ Complete (writes ⟨primary, none⟩ run).replica) := by
  have hsound := (sound_fresh hown).writes hrun
  exact ⟨hsound.sync_returns_iff, hsound.repairs_iff⟩

/-! ## Runs that do and do not leave a sync enough -/

def plain : NewVersion := ⟨fun _ => none, [], "model"⟩

def missed : List (Op × Ending × Ending) :=
  [(.createVersion plain, .returns, .raises .nothing false), (.setAlias "champion" 1, .returns, .returns)]

theorem missed_own : OwnTags ⟨none, none⟩ missed :=
  ⟨fun _ h => (by cases h), trivial, trivial⟩

theorem missed_primary (n : Nat) (v : StoredVersion) (h : (writes ⟨none, none⟩ missed).primary.version? n = some v) :
    n = 1 ∧ v.status = .ready := by
  change ((Files.create none plain (.recorded .ready)).setAlias "champion" 1).version? n = some v at h
  rw [version?_setAlias, version?_create] at h
  split at h
  · rename_i hn
    cases h
    exact ⟨hn, rfl⟩
  · cases h

theorem sync_repairs_missed : Repairs (writes ⟨none, none⟩ missed) := by
  have hown : ∀ n v, Files.version? none n = some v → Own n v.tags := fun n v h => (by cases h)
  apply (sync_repairs_iff hown missed_own).2.mpr
  exact ⟨⟨1, ⟨plain, .ready⟩, rfl⟩, fun n v h => (missed_primary n v h).2, fun _ _ h => (by cases h)⟩

/-- The replica's upload dies: its version says what it copies, and has no artifact. -/
def halfFailed : List (Op × Ending × Ending) :=
  [(.createVersion plain, .returns, .raises (.recorded .pending) false)]

def failedVersion : List (Op × Ending × Ending) :=
  [(.createVersion plain, .returns, .returns), (.createVersion plain, .raises (.recorded .failed) false, .returns)]

def borrowedTag : List (Op × Ending × Ending) :=
  [(.createVersion plain, .returns, .returns),
   (.createVersion { plain with tags := sourceTags 1 }, .returns, .returns)]

theorem sync_leaves_damage : ¬ Repairs (writes ⟨none, none⟩ halfFailed) ∧
    ¬ Repairs (writes ⟨none, none⟩ failedVersion) ∧
    ¬ Repairs (writes ⟨none, none⟩ borrowedTag) := by
  refine ⟨?_, ?_, ?_⟩
  · rintro ⟨P, report, r, hP, hsync, hlevel, _⟩
    cases hP
    cases hsync
    -- version 1 maps to the version that was left pending
    obtain ⟨m, w, hm, hw, hready, _⟩ := hlevel.copies 1 _ rfl rfl
    cases hm
    cases hw
    cases hready
  · rintro ⟨P, report, r, hP, hsync, hlevel, _⟩
    cases hsync
  · rintro ⟨P, report, r, hP, hsync, hlevel, _⟩
    cases hP
    cases hsync
    -- the copied tag takes the copy of version 2 away
    obtain ⟨m, w, hm, _⟩ := hlevel.copies 2 _ rfl rfl
    cases hm

end MirrorRegistry

end OranAdapt
