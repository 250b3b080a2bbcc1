import OranAdapt.MirrorRegistry

/-!
# What a sync repairs

As long as no tag names the source of another version, each version of the
replica copies one version of the primary, whatever calls have failed. Then a
sync repairs the replica exactly when every version is complete.
-/

namespace OranAdapt

namespace MirrorRegistry

open FilesystemRegistry (Tags Status versionName versionName_inj)

/-! ## Tags -/

def Own (n : Nat) (tags : Tags) : Prop := ∀ x, tags sourceTag = some x → x = versionName n

theorem merge_none {old new : Tags} {k : String} (h : merge old new k = none) : old k = none ∧ new k = none := by
  unfold merge at h
  rw [Option.or_eq_none_iff] at h
  exact ⟨h.2, h.1⟩

theorem Own.merge {n : Nat} {old new : Tags} (hold : Own n old) (hnew : Own n new) : Own n (merge old new) := by
  intro x hx
  unfold MirrorRegistry.merge at hx
  cases h : new sourceTag with
  | none =>
    rw [h] at hx
    exact hold x hx
  | some y =>
    rw [h] at hx
    cases hx
    exact hnew _ h

theorem merge_source (tags : Tags) (n : Nat) : merge tags (sourceTags n) sourceTag = some (versionName n) := by
  simp [merge, sourceTags]

theorem merge_sourceTags_other {tags : Tags} {n : Nat} {k : String} (h : k ≠ sourceTag) :
    merge tags (sourceTags n) k = tags k := by
  simp [merge, sourceTags, h]

/-- Overwritten with its version's own tags, a copy still says what it copies. -/
theorem source_merge {n : Nat} {old new : Tags} (hold : old sourceTag = some (versionName n)) (hnew : Own n new) :
    merge old new sourceTag = some (versionName n) := by
  unfold merge
  cases h : new sourceTag with
  | none => exact hold
  | some x => rw [hnew x h]; rfl

/-- What a copy's tags become: those of its version and the one that names it. -/
theorem merge_exact {n : Nat} {old new : Tags} (hold : old sourceTag = some (versionName n)) (hnew : Own n new)
    (hkeys : ∀ k, k ≠ sourceTag → new k = none → old k = none) : merge old new = merge new (sourceTags n) := by
  funext k
  by_cases hk : k = sourceTag
  · rw [hk, source_merge hold hnew, merge_source]
  · rw [merge_sourceTags_other hk]
    unfold merge
    cases h : new k with
    | none => exact hkeys k hk h
    | some x => rfl

/-! ## Versions of a registry -/

variable {p p' r r' : Files}

def SameVersions (r r' : Files) : Prop := ∀ m, r'.version? m = r.version? m

theorem version?_create (f : Files) (new : NewVersion) (status : Status) (n : Nat) :
    (f.create new (.recorded status)).version? n = if n = f.next then some ⟨new, status⟩ else f.version? n := by
  cases f with
  | none =>
    change (Model.empty.record ⟨new, status⟩).versions.get? n = _
    rw [Model.record, Model.get?_recorded]
    rfl
  | some m => exact Model.get?_recorded m ⟨new, status⟩ n

theorem version?_numbered (f : Files) (new : NewVersion) : SameVersions f (f.create new .numbered) := by
  intro n
  cases f with
  | none => rfl
  | some m => rfl

theorem version?_setTags (f : Files) (version : Nat) (tags : Tags) (n : Nat) :
    Files.version? (f.map fun m => m.setTags version tags) n =
      if n = version then (f.version? n).map fun v => { v with tags := merge v.tags tags } else f.version? n := by
  cases f with
  | none => simp [Files.version?]
  | some m => exact Model.get?_retag m version tags n

theorem version?_setAlias (f : Files) (a : String) (version : Nat) : SameVersions f (f.setAlias a version) := by
  intro n
  cases f with
  | none => rfl
  | some m =>
    change Option.bind (some (dite _ _ _)) _ = _
    split <;> rfl

theorem version?_dropAlias (f : Files) (a : String) : SameVersions f (f.map fun m => m.dropAlias a) := by
  intro n
  cases f with
  | none => rfl
  | some m => rfl

theorem isSome_of_version? {f : Files} {n : Nat} (h : (f.version? n).isSome = true) : f.isSome = true := by
  cases f with
  | none => cases h
  | some _ => rfl

theorem lt_next {f : Files} {n : Nat} {v : StoredVersion} (h : f.version? n = some v) : n < f.next := by
  cases f with
  | none => cases h
  | some m => exact m.below n v h

/-! ## The copy of a version -/

theorem replicaVersion_some {n m : Nat} (h : replicaVersion r n = some m) :
    ∃ w, r.version? m = some w ∧ w.tags sourceTag = some (versionName n) := by
  cases r with
  | none => cases h
  | some model =>
    obtain ⟨row, hrow, rfl⟩ := Option.map_eq_some_iff.mp h
    exact ⟨row.2, Table.mem_rows.mp (List.mem_of_find?_eq_some hrow), by simpa using List.find?_some hrow⟩

theorem replicaVersion_none {n : Nat} (h : replicaVersion r n = none) {m : Nat} {w : StoredVersion}
    (hw : r.version? m = some w) :
    w.tags sourceTag ≠ some (versionName n) := by
  cases r with
  | none => cases hw
  | some model =>
    have hall := List.find?_eq_none.mp (Option.map_eq_none_iff.mp h) (m, w) (Table.mem_rows.mpr hw)
    simpa using hall

/-- Each copy names its own source, which is complete and has every tag the copy has. -/
structure Copied (p r : Files) : Prop where
  source : ∀ m w, r.version? m = some w → ∃ n v, p.version? n = some v ∧ v.status = .ready ∧
    w.tags sourceTag = some (versionName n) ∧ w.artifact = v.artifact ∧ ∀ k, k ≠ sourceTag →
    v.tags k = none → w.tags k = none
  once : ∀ m m' w w', r.version? m = some w → r.version? m' = some w' → w.tags sourceTag = w'.tags sourceTag → m = m'
  nonempty : r.isSome = true → ∃ n v, p.version? n = some v

/-- Versions stay, and so do their tags' keys. -/
def Grows (p p' : Files) : Prop := ∀ n v, p.version? n = some v → ∃ v', p'.version? n = some v' ∧
  v'.status = v.status ∧
  v'.artifact = v.artifact ∧ ∀ k, v'.tags k = none → v.tags k = none

theorem SameVersions.grows (h : SameVersions p p') : Grows p p' :=
  fun n v hv => ⟨v, (h n).trans hv, rfl, rfl, fun _ hk => hk⟩

theorem grows_create (p : Files) (new : NewVersion) (created : Created) : Grows p (p.create new created) := by
  cases created with
  | nothing => exact SameVersions.grows fun _ => rfl
  | numbered => exact (version?_numbered p new).grows
  | recorded status =>
    intro n v hv
    have hlt := lt_next hv
    refine ⟨v, ?_, rfl, rfl, fun _ hk => hk⟩
    rw [version?_create, if_neg (by omega), hv]

theorem grows_setTags (p : Files) (version : Nat) (tags : Tags) : Grows p (p.map fun m => m.setTags version tags) := by
  intro n v hv
  rw [version?_setTags]
  by_cases hn : n = version
  · rw [if_pos hn, hv]
    exact ⟨_, rfl, rfl, rfl, fun k hk => (merge_none hk).1⟩
  · rw [if_neg hn]
    exact ⟨v, hv, rfl, rfl, fun _ hk => hk⟩

theorem grows_apply (p : Files) (op : Op) (ending : Ending) : Grows p (op.apply p ending) := by
  have hsame : Grows p p := SameVersions.grows fun _ => rfl
  cases op with
  | createVersion new => exact grows_create p new _
  | setAlias a version =>
    rw [Op.apply]
    split
    · exact (version?_setAlias p a version).grows
    · exact hsame
  | deleteAlias a =>
    rw [Op.apply]
    split
    · exact (version?_dropAlias p a).grows
    · exact hsame
  | setVersionTags version tags =>
    rw [Op.apply]
    split
    · exact grows_setTags p version tags
    · exact hsame

namespace Copied

theorem absent (p : Files) : Copied p none :=
  ⟨fun _ _ h => (by cases h), fun _ _ _ _ h => (by cases h), fun h => (by cases h)⟩

theorem replicaVersion_eq (h : Copied p r) {n m : Nat} {w : StoredVersion} (hw : r.version? m = some w)
    (hsource : w.tags sourceTag = some (versionName n)) : replicaVersion r n = some m := by
  cases hmapped : replicaVersion r n with
  | none => exact absurd hsource (replicaVersion_none hmapped hw)
  | some m' =>
    obtain ⟨w', hw', hsource'⟩ := replicaVersion_some hmapped
    rw [h.once m m' w w' hw hw' (hsource.trans hsource'.symm)]

theorem of_source (h : Copied p r) {n m : Nat} {w : StoredVersion} (hw : r.version? m = some w)
    (hsource : w.tags sourceTag = some (versionName n)) :
    ∃ v, p.version? n = some v ∧ v.status = .ready ∧ w.artifact = v.artifact ∧
      ∀ k, k ≠ sourceTag → v.tags k = none → w.tags k = none := by
  obtain ⟨n', v, hv, hready, hsource', hartifact, hkeys⟩ := h.source m w hw
  rw [hsource, Option.some.injEq] at hsource'
  rw [versionName_inj hsource']
  exact ⟨v, hv, hready, hartifact, hkeys⟩

theorem grows (h : Copied p r) (hp : Grows p p') : Copied p' r where
  source := by
    intro m w hw
    obtain ⟨n, v, hv, hready, hsource, hartifact, hkeys⟩ := h.source m w hw
    obtain ⟨v', hv', hstatus, hartifact', hkeys'⟩ := hp n v hv
    exact ⟨n, v', hv', hstatus.trans hready, hsource, hartifact.trans hartifact'.symm,
      fun k hk hnone => hkeys k hk (hkeys' k hnone)⟩
  once := h.once
  nonempty := by
    intro hr
    obtain ⟨n, v, hv⟩ := h.nonempty hr
    obtain ⟨v', hv', _⟩ := hp n v hv
    exact ⟨n, v', hv'⟩

theorem same (h : Copied p r) (hr : SameVersions r r') (hsome : r'.isSome = true → ∃ n v, p.version? n = some v) :
    Copied p r' where
  source := by
    intro m w hw
    rw [hr m] at hw
    exact h.source m w hw
  once := by
    intro m m' w w' hw hw'
    rw [hr m] at hw
    rw [hr m'] at hw'
    exact h.once m m' w w' hw hw'
  nonempty := hsome

theorem create (h : Copied p r) {n : Nat} {v : StoredVersion} (hv : p.version? n = some v) (hready : v.status = .ready)
    (hfresh : ∀ m w, r.version? m = some w → w.tags sourceTag ≠ some (versionName n)) (status : Status) :
    Copied p (r.create (v.toNewVersion.copyOf n) (.recorded status)) where
  source := by
    intro m w hw
    rw [version?_create] at hw
    split at hw
    · cases hw
      refine ⟨n, v, hv, hready, merge_source v.tags n, rfl, ?_⟩
      intro k hk hnone
      exact (merge_sourceTags_other hk).trans hnone
    · exact h.source m w hw
  once := by
    intro m m' w w' hw hw' hsame
    rw [version?_create] at hw hw'
    split at hw <;> split at hw'
    · omega
    · cases hw
      exact absurd (hsame.symm.trans (merge_source v.tags n)) (hfresh m' w' hw')
    · cases hw'
      exact absurd (hsame.trans (merge_source v.tags n)) (hfresh m w hw)
    · exact h.once m m' w w' hw hw' hsame
  nonempty := fun _ => ⟨n, v, hv⟩

/-- The tags of a copy grow as those of its version did. -/
theorem setTags (h : Copied p r) {n m : Nat} {v : StoredVersion} {tags : Tags} (hmapped : replicaVersion r n = some m)
    (hv : p.version? n = some v) (hown : Own n tags) (hkeys : ∀ k, v.tags k = none → tags k = none) :
    Copied p (r.map fun f => f.setTags m tags) := by
  obtain ⟨copy, hcopy, hnames⟩ := replicaVersion_some hmapped
  have hread : ∀ i w, Files.version? (r.map fun f => f.setTags m tags) i = some w → ∃ old, r.version? i = some old ∧
      w.tags sourceTag = old.tags sourceTag ∧ w.artifact = old.artifact ∧
      ((i = m ∧ w.tags = merge old.tags tags) ∨ w.tags = old.tags) := by
    intro i w hw
    rw [version?_setTags] at hw
    by_cases hi : i = m
    · rw [if_pos hi, hi, hcopy, Option.map_some, Option.some.injEq] at hw
      rw [← hw, hi]
      exact ⟨copy, hcopy, (source_merge hnames hown).trans hnames.symm, rfl, .inl ⟨rfl, rfl⟩⟩
    · rw [if_neg hi] at hw
      exact ⟨w, hw, rfl, rfl, .inr rfl⟩
  constructor
  · intro i w hw
    obtain ⟨old, hold, hsource, hartifact, htags⟩ := hread i w hw
    obtain ⟨n', v', hv', hready, hnames', hartifact', hkeys'⟩ := h.source i old hold
    refine ⟨n', v', hv', hready, hsource.trans hnames', hartifact.trans hartifact', ?_⟩
    intro k hk hnone
    rcases htags with ⟨hi, htags⟩ | htags
    · rw [hi, hcopy, Option.some.injEq] at hold
      rw [← hold, hnames, Option.some.injEq] at hnames'
      rw [← versionName_inj hnames', hv, Option.some.injEq] at hv'
      rw [← hv'] at hnone hkeys'
      rw [htags, merge, hkeys k hnone, hkeys' k hk hnone]
      rfl
    · rw [htags]
      exact hkeys' k hk hnone
  · intro i i' w w' hw hw' hsame
    obtain ⟨old, hold, hsource, _⟩ := hread i w hw
    obtain ⟨old', hold', hsource', _⟩ := hread i' w' hw'
    exact h.once i i' old old' hold hold' (hsource.symm.trans (hsame.trans hsource'))
  · exact fun _ => ⟨n, v, hv⟩

end Copied

/-! ## Writes -/

/-- The tags a call puts on a version name no other version. -/
def Op.Own (s : Mirror) : Op → Prop
  | createVersion new => MirrorRegistry.Own s.primary.next new.tags
  | setVersionTags version tags => MirrorRegistry.Own version tags
  | setAlias _ _ => True
  | deleteAlias _ => True

/-- No call of the run puts the source of another version on a version. -/
def OwnTags : Mirror → List (Op × Ending × Ending) → Prop
  | _, [] => True
  | s, w :: run => w.1.Own s ∧ OwnTags (write s w.1 w.2.1 w.2.2) run

/-- The replica is left alone, or the call it is asked for takes effect. -/
theorem replicate_cases (s : Mirror) (op : Op) (ending : Ending) : replicate s op ending = s.replica ∨
    ∃ asked, mirrored s op = some asked ∧ asked.known s.replica = true ∧
      replicate s op ending = asked.apply s.replica ending := by
  unfold replicate
  cases mirrored s op with
  | none => exact .inl rfl
  | some asked =>
    by_cases h : asked.known s.replica = true
    · exact .inr ⟨asked, rfl, h, if_pos h⟩
    · exact .inl (if_neg h)

/-- What the writes keep. -/
structure Sound (s : Mirror) : Prop where
  own : ∀ n v, s.primary.version? n = some v → Own n v.tags
  copied : Copied s.primary s.replica

namespace Sound

variable {s : Mirror}

theorem own_create (h : Sound s) {new : NewVersion} (hnew : Own s.primary.next new.tags) (created : Created) :
    ∀ n v, (s.primary.create new created).version? n = some v → Own n v.tags := by
  intro n v hv
  cases created with
  | nothing => exact h.own n v hv
  | numbered =>
    rw [version?_numbered] at hv
    exact h.own n v hv
  | recorded status =>
    rw [version?_create] at hv
    split at hv
    · rename_i hn
      cases hv
      rw [hn]
      exact hnew
    · exact h.own n v hv

theorem own_apply (h : Sound s) {op : Op} (hop : op.Own s) (ending : Ending) :
    ∀ n v, (op.apply s.primary ending).version? n = some v → Own n v.tags := by
  intro n v hv
  cases op with
  | createVersion new => exact h.own_create hop _ n v hv
  | setAlias a version =>
    rw [Op.apply] at hv
    split at hv
    · rw [version?_setAlias] at hv
      exact h.own n v hv
    · exact h.own n v hv
  | deleteAlias a =>
    rw [Op.apply] at hv
    split at hv
    · rw [version?_dropAlias] at hv
      exact h.own n v hv
    · exact h.own n v hv
  | setVersionTags version tags =>
    rw [Op.apply] at hv
    split at hv
    · rw [version?_setTags] at hv
      split at hv
      · rename_i hn
        obtain ⟨old, hold, rfl⟩ := Option.map_eq_some_iff.mp hv
        exact (h.own n old hold).merge (hn ▸ hop)
      · exact h.own n v hv
    · exact h.own n v hv

/-- The replica's part of a `create_version`, however far it gets. -/
theorem copied_create (h : Sound s) (new : NewVersion) (created : Created) :
    Copied (s.primary.create new (.recorded .ready))
      (s.replica.create (new.copyOf s.primary.next) created) := by
  have hold : Copied (s.primary.create new (.recorded .ready)) s.replica := h.copied.grows (grows_create s.primary new _)
  have hv : (s.primary.create new (.recorded .ready)).version? s.primary.next = some ⟨new, .ready⟩ := by
    rw [version?_create, if_pos rfl]
  cases created with
  | nothing => exact hold
  | numbered => exact hold.same (version?_numbered s.replica _) fun _ => ⟨_, _, hv⟩
  | recorded status =>
    apply hold.create hv rfl
    intro m w hw hsource
    -- a copy names a version that was there before
    obtain ⟨v, hold, _⟩ := h.copied.of_source hw hsource
    exact Nat.lt_irrefl _ (lt_next hold)

theorem copied_replicate (h : Sound s) {op : Op} (hop : op.Own s) (hknown : op.known s.primary = true) (second : Ending) :
    Copied (op.apply s.primary .returns) (replicate s op second) := by
  have hold : Copied (op.apply s.primary .returns) s.replica := h.copied.grows (grows_apply s.primary op _)
  rcases replicate_cases s op second with hskip | ⟨asked, hasked, hthere, heffect⟩
  · rw [hskip]
    exact hold
  rw [heffect]
  generalize hp : op.apply s.primary .returns = p' at hold ⊢
  cases op with
  | createVersion new =>
    cases hasked
    rw [← hp]
    exact h.copied_create new _
  | setAlias a version =>
    obtain ⟨m, _, rfl⟩ := Option.map_eq_some_iff.mp hasked
    rw [Op.apply]
    split
    · apply hold.same (version?_setAlias s.replica a m)
      intro _
      exact hold.nonempty (isSome_of_version? hthere)
    · exact hold
  | deleteAlias a =>
    cases hasked
    rw [Op.apply]
    split
    · apply hold.same (version?_dropAlias s.replica a)
      intro _
      exact hold.nonempty hthere
    · exact hold
  | setVersionTags version tags =>
    obtain ⟨m, hmapped, rfl⟩ := Option.map_eq_some_iff.mp hasked
    obtain ⟨v, hv⟩ := Option.isSome_iff_exists.mp hknown
    have hv' : p'.version? version = some { v with tags := merge v.tags tags } := by
      rw [← hp]
      change Files.version? (s.primary.map _) version = _
      rw [version?_setTags, if_pos rfl, hv, Option.map_some]
    rw [Op.apply]
    split
    · exact hold.setTags hmapped hv' hop fun k hk => (merge_none hk).2
    · exact hold

/-- However the two calls of a write end, copies stay copies. -/
theorem write (h : Sound s) {op : Op} (hop : op.Own s) (first second : Ending) : Sound (write s op first second) := by
  unfold MirrorRegistry.write
  by_cases hknown : op.known s.primary = false
  · rw [if_pos hknown]
    exact h
  rw [if_neg hknown]
  rw [Bool.not_eq_false] at hknown
  cases first with
  | returns => exact ⟨h.own_apply hop .returns, h.copied_replicate hop hknown second⟩
  | raises created effect => exact ⟨h.own_apply hop _, h.copied.grows (grows_apply s.primary op _)⟩

theorem writes (h : Sound s) {run : List (Op × Ending × Ending)} (hrun : OwnTags s run) : Sound (writes s run) := by
  induction run generalizing s with
  | nil => exact h
  | cons w run ih => exact ih (h.write hrun.1 w.2.1 w.2.2) hrun.2

end Sound

end MirrorRegistry

end OranAdapt
