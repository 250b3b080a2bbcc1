import OranAdapt.MirrorSync

/-!
# The sync itself

Each loop of `sync` keeps the copies copies and does its part: every version
gets a copy, every copy its tags, every alias its copy. A second sync finds all
of it done.
-/

namespace OranAdapt

namespace MirrorRegistry

open FilesystemRegistry (Tags Status versionName versionName_inj)

variable {p r r' r'' : Files} {P : Model}

/-! ## What a step of a sync leaves alone -/

/-- Copies stay, with their status and their source; new ones are complete. -/
structure Kept (r r' : Files) : Prop where
  old : ∀ m w, r.version? m = some w → ∃ w', r'.version? m = some w' ∧ w'.status = w.status ∧
    w'.tags sourceTag = w.tags sourceTag
  new : ∀ m w', r'.version? m = some w' → w'.status = .ready ∨ ∃ w, r.version? m = some w ∧ w'.status = w.status ∧
    w'.tags sourceTag = w.tags sourceTag

theorem Kept.refl (r : Files) : Kept r r := ⟨fun _ w h => ⟨w, h, rfl, rfl⟩, fun _ w h => .inr ⟨w, h, rfl, rfl⟩⟩

theorem Kept.trans (h : Kept r r') (h' : Kept r' r'') : Kept r r'' where
  old := by
    intro m w hw
    obtain ⟨w', hw', hstatus, hsource⟩ := h.old m w hw
    obtain ⟨w'', hw'', hstatus', hsource'⟩ := h'.old m w' hw'
    exact ⟨w'', hw'', hstatus'.trans hstatus, hsource'.trans hsource⟩
  new := by
    intro m w'' hw''
    rcases h'.new m w'' hw'' with hready | ⟨w', hw', hstatus', hsource'⟩
    · exact .inl hready
    rcases h.new m w' hw' with hready | ⟨w, hw, hstatus, hsource⟩
    · exact .inl (hstatus'.trans hready)
    · exact .inr ⟨w, hw, hstatus'.trans hstatus, hsource'.trans hsource⟩

theorem SameVersions.kept (h : SameVersions r r') : Kept r r' := by
  constructor
  · intro m w hw
    exact ⟨w, (h m).trans hw, rfl, rfl⟩
  · intro m w hw
    exact .inr ⟨w, (h m).symm.trans hw, rfl, rfl⟩

theorem kept_create (r : Files) (new : NewVersion) : Kept r (r.create new (.recorded .ready)) := by
  constructor
  · intro m w hw
    have hlt := lt_next hw
    refine ⟨w, ?_, rfl, rfl⟩
    rw [version?_create, if_neg (by omega), hw]
  · intro m w hw
    rw [version?_create] at hw
    split at hw
    · cases hw
      exact .inl rfl
    · exact .inr ⟨w, hw, rfl, rfl⟩

theorem kept_setTags {n m : Nat} {tags : Tags} (hmapped : replicaVersion r n = some m) (hown : Own n tags) :
    Kept r (r.map fun f => f.setTags m tags) := by
  obtain ⟨copy, hcopy, hnames⟩ := replicaVersion_some hmapped
  have hsource : merge copy.tags tags sourceTag = copy.tags sourceTag := (source_merge hnames hown).trans hnames.symm
  constructor
  · intro i w hw
    rw [version?_setTags]
    by_cases hi : i = m
    · rw [hi, hcopy, Option.some.injEq] at hw
      rw [if_pos hi, hi, hcopy, ← hw]
      exact ⟨_, rfl, rfl, hsource⟩
    · rw [if_neg hi]
      exact ⟨w, hw, rfl, rfl⟩
  · intro i w hw
    rw [version?_setTags] at hw
    by_cases hi : i = m
    · rw [if_pos hi, hi, hcopy, Option.map_some, Option.some.injEq] at hw
      rw [← hw, hi]
      exact .inr ⟨copy, hcopy, rfl, hsource⟩
    · rw [if_neg hi] at hw
      exact .inr ⟨w, hw, rfl, rfl⟩

namespace Copied

theorem replicaVersion_kept (h' : Copied p r') (hkept : Kept r r') {n m : Nat} (hmapped : replicaVersion r n = some m) :
    replicaVersion r' n = some m := by
  obtain ⟨w, hw, hsource⟩ := replicaVersion_some hmapped
  obtain ⟨w', hw', _, hsource'⟩ := hkept.old m w hw
  exact h'.replicaVersion_eq hw' (hsource'.trans hsource)

end Copied

theorem mapped_ok {n m : Nat} (h : replicaVersion r n = some m) : mapped r n = .ok m := by
  unfold mapped
  rw [h]

/-! ## Missing copies -/

theorem copyMissing_nothing {l : List (Nat × StoredVersion)} (h : ∀ x ∈ l, (replicaVersion r x.1).isSome = true) :
    copyMissing l r = .ok ([], r) := by
  induction l with
  | nil => rfl
  | cons x l ih =>
    rw [copyMissing, if_pos (h x (by simp))]
    exact ih fun y hy => h y (by simp [hy])

theorem copyMissing_ok {l : List (Nat × StoredVersion)} (h : Copied p r)
    (hl : ∀ x ∈ l, p.version? x.1 = some x.2 ∧ x.2.status = .ready) :
    ∃ copied r', copyMissing l r = .ok (copied, r') ∧
      Copied p r' ∧ Kept r r' ∧ ∀ x ∈ l, (replicaVersion r' x.1).isSome = true := by
  induction l generalizing r with
  | nil => exact ⟨[], r, rfl, h, .refl r, by simp⟩
  | cons x l ih =>
    have hrest : ∀ y ∈ l, p.version? y.1 = some y.2 ∧ y.2.status = .ready := fun y hy => hl y (by simp [hy])
    obtain ⟨hv, hready⟩ := hl x (by simp)
    rw [copyMissing]
    by_cases hmapped : (replicaVersion r x.1).isSome = true
    · obtain ⟨copied, r', hcopy, hcopied, hkept, hall⟩ := ih h hrest
      rw [if_pos hmapped, hcopy]
      refine ⟨copied, r', rfl, hcopied, hkept, ?_⟩
      simp only [List.forall_mem_cons]
      obtain ⟨m, hm⟩ := Option.isSome_iff_exists.mp hmapped
      exact ⟨by rw [hcopied.replicaVersion_kept hkept hm]; rfl, hall⟩
    · rw [if_neg hmapped, if_neg (not_not.mpr hready)]
      have hfresh : ∀ m w, r.version? m = some w → w.tags sourceTag ≠ some (versionName x.1) := by
        intro m w hw
        exact replicaVersion_none (by simpa using hmapped) hw
      obtain ⟨copied, r', hcopy, hcopied, hkept, hall⟩ := ih (h.create hv hready hfresh .ready) hrest
      have hnew := (version?_create r (x.2.toNewVersion.copyOf x.1) .ready r.next).trans
        (if_pos rfl)
      have hfirst := (h.create hv hready hfresh .ready).replicaVersion_eq hnew (merge_source x.2.tags x.1)
      refine ⟨x.1 :: copied, r', by rw [hcopy]; rfl, hcopied, (kept_create r _).trans hkept, ?_⟩
      simp only [List.forall_mem_cons]
      exact ⟨by rw [hcopied.replicaVersion_kept hkept hfirst]; rfl, hall⟩

/-- A version that is not complete is never copied, and stops the sync. -/
theorem copyMissing_ready {l : List (Nat × StoredVersion)} {out : List Nat × Files} (h : Copied p r)
    (hl : ∀ x ∈ l, p.version? x.1 = some x.2) (hout : copyMissing l r = .ok out) : ∀ x ∈ l, x.2.status = .ready := by
  induction l generalizing r out with
  | nil => simp
  | cons x l ih =>
    have hrest : ∀ y ∈ l, p.version? y.1 = some y.2 := fun y hy => hl y (by simp [hy])
    have hv := hl x (by simp)
    rw [copyMissing] at hout
    rw [List.forall_mem_cons]
    by_cases hmapped : (replicaVersion r x.1).isSome = true
    · rw [if_pos hmapped] at hout
      obtain ⟨m, hm⟩ := Option.isSome_iff_exists.mp hmapped
      obtain ⟨w, hw, hsource⟩ := replicaVersion_some hm
      obtain ⟨v, hv', hready, _⟩ := h.of_source hw hsource
      rw [hv, Option.some.injEq] at hv'
      exact ⟨hv' ▸ hready, ih h hrest hout⟩
    · rw [if_neg hmapped] at hout
      by_cases hready : x.2.status = .ready
      · rw [if_neg (not_not.mpr hready)] at hout
        have hfresh : ∀ m w, r.version? m = some w → w.tags sourceTag ≠ some (versionName x.1) := by
          intro m w hw
          exact replicaVersion_none (by simpa using hmapped) hw
        obtain ⟨rest, hcopy, _⟩ := bind_ok hout
        exact ⟨hready, ih (h.create hv hready hfresh .ready) hrest hcopy⟩
      · rw [if_pos hready] at hout
        cases hout

/-! ## Tags -/

def Tagged (r : Files) (n : Nat) (v : StoredVersion) : Prop :=
  ∀ m w, r.version? m = some w → w.tags sourceTag = some (versionName n) → w.tags = merge v.tags (sourceTags n)

theorem tagged_setTags (h : Copied p r) {n m : Nat} {v : StoredVersion} (hv : p.version? n = some v) (hown : Own n v.tags)
    (hmapped : replicaVersion r n = some m) : Tagged (r.map fun f => f.setTags m v.tags) n v := by
  obtain ⟨copy, hcopy, hnames⟩ := replicaVersion_some hmapped
  intro i w hw hsource
  rw [version?_setTags] at hw
  by_cases hi : i = m
  · rw [if_pos hi, hi, hcopy, Option.map_some, Option.some.injEq] at hw
    obtain ⟨v', hv', _, _, hkeys⟩ := h.of_source hcopy hnames
    rw [hv, Option.some.injEq] at hv'
    rw [← hw]
    exact merge_exact hnames hown (hv' ▸ hkeys)
  · rw [if_neg hi] at hw
    exact absurd (Option.some.inj ((h.replicaVersion_eq hw hsource).symm.trans hmapped)) hi

theorem Tagged.setTags {n n' m : Nat} {v : StoredVersion} {tags : Tags} (ht : Tagged r n v) (hne : n ≠ n')
    (hmapped : replicaVersion r n' = some m) (hown : Own n' tags) : Tagged (r.map fun f => f.setTags m tags) n v := by
  obtain ⟨copy, hcopy, hnames⟩ := replicaVersion_some hmapped
  intro i w hw hsource
  rw [version?_setTags] at hw
  by_cases hi : i = m
  · rw [if_pos hi, hi, hcopy, Option.map_some, Option.some.injEq] at hw
    rw [← hw] at hsource
    exact absurd (versionName_inj (Option.some.inj (hsource.symm.trans (source_merge hnames hown)))) hne
  · rw [if_neg hi] at hw
    exact ht i w hw hsource

theorem overwriteTags_ok {l : List (Nat × StoredVersion)} (h : Copied p r) (hkeys : (l.map Prod.fst).Nodup)
    (hl : ∀ x ∈ l, p.version? x.1 = some x.2 ∧ Own x.1 x.2.tags ∧ (replicaVersion r x.1).isSome = true) :
    ∃ r', overwriteTags l r = .ok r' ∧ Copied p r' ∧ Kept r r' ∧ (∀ x ∈ l, Tagged r' x.1 x.2) ∧
      ∀ n v, n ∉ l.map Prod.fst → Tagged r n v → Tagged r' n v := by
  induction l generalizing r with
  | nil => exact ⟨r, rfl, h, .refl r, by simp, fun _ _ _ ht => ht⟩
  | cons x l ih =>
    rw [List.map_cons, List.nodup_cons] at hkeys
    obtain ⟨hv, hown, hsome⟩ := hl x (by simp)
    obtain ⟨m, hmapped⟩ := Option.isSome_iff_exists.mp hsome
    have hcopied : Copied p (r.map fun f => f.setTags m x.2.tags) := h.setTags hmapped hv hown fun _ hk => hk
    have hkept := kept_setTags hmapped hown
    have hrest : ∀ y ∈ l, p.version? y.1 = some y.2 ∧ Own y.1 y.2.tags ∧
        (replicaVersion (r.map fun f => f.setTags m x.2.tags) y.1).isSome = true := by
      intro y hy
      obtain ⟨hv', hown', hsome'⟩ := hl y (by simp [hy])
      obtain ⟨m', hmapped'⟩ := Option.isSome_iff_exists.mp hsome'
      exact ⟨hv', hown', by rw [hcopied.replicaVersion_kept hkept hmapped']; rfl⟩
    obtain ⟨r', hrun, hcopied', hkept', htagged, hothers⟩ := ih hcopied hkeys.2 hrest
    refine ⟨r', ?_, hcopied', hkept.trans hkept', ?_, ?_⟩
    · rw [overwriteTags, mapped_ok hmapped]
      exact hrun
    · rw [List.forall_mem_cons]
      exact ⟨hothers x.1 x.2 hkeys.1 (tagged_setTags h hv hown hmapped), htagged⟩
    · intro n v hn ht
      rw [List.map_cons, List.mem_cons, not_or] at hn
      exact hothers n v hn.2 (ht.setTags hn.1 hmapped hown)

theorem setTags_same {m : Nat} {tags : Tags} (h : ∀ w, r.version? m = some w → merge w.tags tags = w.tags) :
    (r.map fun f => f.setTags m tags) = r := by
  cases r with
  | none => rfl
  | some f =>
    rw [Option.map_some, Option.some.injEq]
    apply Model.ext
    · have hversions : f.retag m tags = f.versions := by
        apply Table.modify_same
        intro w hw
        rw [h w hw]
      exact hversions
    · rfl
    · rfl

theorem overwriteTags_same {l : List (Nat × StoredVersion)} (h : ∀ x ∈ l, Own x.1 x.2.tags ∧ Tagged r x.1 x.2 ∧
    (replicaVersion r x.1).isSome = true) : overwriteTags l r = .ok r := by
  induction l with
  | nil => rfl
  | cons x l ih =>
    obtain ⟨hown, htagged, hsome⟩ := h x (by simp)
    obtain ⟨m, hmapped⟩ := Option.isSome_iff_exists.mp hsome
    have hsame : (r.map fun f => f.setTags m x.2.tags) = r := by
      apply setTags_same
      intro w hw
      obtain ⟨w', hw', hsource⟩ := replicaVersion_some hmapped
      rw [hw, Option.some.injEq] at hw'
      rw [← hw'] at hsource
      rw [htagged m w hw hsource]
      apply merge_exact (merge_source x.2.tags x.1) hown
      intro k hk hnone
      exact (merge_sourceTags_other hk).trans hnone
    rw [overwriteTags, mapped_ok hmapped]
    change overwriteTags l (r.map _) = _
    rw [hsame]
    exact ih fun y hy => h y (by simp [hy])

/-! ## Aliases -/

theorem alias?_setAlias {f : Files} {m : Nat} (h : (f.version? m).isSome = true) (a b : String) :
    (f.setAlias a m).alias? b = if b = a then some m else f.alias? b := by
  cases f with
  | none => cases h
  | some f =>
    have hthere : (f.versions.get? m).isSome = true := h
    change Files.alias? (some (dite _ _ _)) b = _
    rw [dif_pos hthere]
    exact Table.get?_put f.aliases a m b

theorem setAlias_same {f : Files} {a : String} {m : Nat} (h : f.alias? a = some m) : f.setAlias a m = f := by
  cases f with
  | none => rfl
  | some f =>
    change some (dite _ _ _) = _
    rw [Option.some.injEq]
    split
    · apply Model.ext
      · rfl
      · exact Table.put_same h
      · rfl
    · rfl

theorem copyAliases_ok {l : List (String × Nat)} (h : Copied p r) (hkeys : (l.map Prod.fst).Nodup)
    (hl : ∀ x ∈ l, (replicaVersion r x.2).isSome = true) : ∃ r', copyAliases l r = .ok r' ∧ SameVersions r r' ∧
      (r'.isSome = true → r.isSome = true) ∧ (∀ x ∈ l, r'.alias? x.1 = replicaVersion r x.2) ∧
      ∀ a, a ∉ l.map Prod.fst → r'.alias? a = r.alias? a := by
  induction l generalizing r with
  | nil => exact ⟨r, rfl, fun _ => rfl, id, by simp, fun _ _ => rfl⟩
  | cons x l ih =>
    rw [List.map_cons, List.nodup_cons] at hkeys
    obtain ⟨m, hmapped⟩ := Option.isSome_iff_exists.mp (hl x (by simp))
    obtain ⟨copy, hcopy, _⟩ := replicaVersion_some hmapped
    have hthere : (r.version? m).isSome = true := by rw [hcopy]; rfl
    have hsome : r.isSome = true := isSome_of_version? hthere
    have hsame := version?_setAlias r x.1 m
    have hcopied : Copied p (r.setAlias x.1 m) := h.same hsame fun _ => h.nonempty hsome
    -- no copy moves, so no version gets another copy
    have hmaps : ∀ y ∈ l, replicaVersion (r.setAlias x.1 m) y.2 = replicaVersion r y.2 := by
      intro y hy
      obtain ⟨m', hmapped'⟩ := Option.isSome_iff_exists.mp (hl y (by simp [hy]))
      rw [hmapped', hcopied.replicaVersion_kept hsame.kept hmapped']
    have hrest : ∀ y ∈ l, (replicaVersion (r.setAlias x.1 m) y.2).isSome = true := by
      intro y hy
      rw [hmaps y hy]
      exact hl y (by simp [hy])
    obtain ⟨r', hrun, hsame', _, haliases, hothers⟩ := ih hcopied hkeys.2 hrest
    refine ⟨r', ?_, fun i => (hsame' i).trans (hsame i), fun _ => hsome, ?_, ?_⟩
    · rw [copyAliases, mapped_ok hmapped]
      exact hrun
    · rw [List.forall_mem_cons]
      constructor
      · rw [hothers x.1 hkeys.1, alias?_setAlias hthere, if_pos rfl, hmapped]
      · intro y hy
        rw [haliases y hy, hmaps y hy]
    · intro a ha
      rw [List.map_cons, List.mem_cons, not_or] at ha
      rw [hothers a ha.2, alias?_setAlias hthere, if_neg ha.1]

theorem copyAliases_same {l : List (String × Nat)} (h : ∀ x ∈ l, r.alias? x.1 = replicaVersion r x.2 ∧
    (replicaVersion r x.2).isSome = true) : copyAliases l r = .ok r := by
  induction l with
  | nil => rfl
  | cons x l ih =>
    obtain ⟨halias, hsome⟩ := h x (by simp)
    obtain ⟨m, hmapped⟩ := Option.isSome_iff_exists.mp hsome
    rw [copyAliases, mapped_ok hmapped]
    change copyAliases l (r.setAlias x.1 m) = _
    rw [setAlias_same (halias.trans hmapped)]
    exact ih fun y hy => h y (by simp [hy])

theorem dropAliases_versions (l : List String) (f : Model) :
    (l.foldl (fun m a => m.dropAlias a) f).versions = f.versions := by
  induction l generalizing f with
  | nil => rfl
  | cons a l ih => exact (ih (f.dropAlias a)).trans rfl

theorem dropAliases_get? (l : List String) (f : Model) (a : String) :
    (l.foldl (fun m a => m.dropAlias a) f).aliases.get? a = if a ∈ l then none else f.aliases.get? a := by
  induction l generalizing f with
  | nil => simp
  | cons b l ih =>
    rw [List.foldl_cons, ih]
    have hdrop : (f.dropAlias b).aliases.get? a = if a = b then none else f.aliases.get? a := by
      change (f.aliases.keep _).get? a = _
      rw [Table.get?_keep]
      by_cases ha : a = b
      · cases f.aliases.get? a <;> simp [ha]
      · cases f.aliases.get? a <;> simp [ha]
    rw [hdrop]
    by_cases ha : a = b
    · simp [ha]
    · simp [ha]

/-! ## The sync -/

/-- What a sync that returns has made of the replica. -/
structure Synced (P : Model) (r r' : Files) : Prop where
  copied : Copied (some P) r'
  kept : Kept r r'
  present : r'.isSome = true
  mapped : ∀ n v, P.versions.get? n = some v → (replicaVersion r' n).isSome = true
  tagged : ∀ n v, P.versions.get? n = some v → Tagged r' n v
  aliases : ∀ a, r'.alias? a = (P.aliases.get? a).bind (replicaVersion r')

def strays (P m : Model) : List String := (m.aliases.rows.map Prod.fst).filter fun a => (P.aliases.get? a).isNone

theorem mem_strays {m : Model} {a : String} : a ∈ strays P m ↔ (m.aliases.get? a).isSome = true ∧
    P.aliases.get? a = none := by
  have hkey : a ∈ m.aliases.rows.map Prod.fst ↔ m.aliases.get? a ≠ none := by
    rw [Ne, Table.get?_eq_none, not_not]
  rw [strays, List.mem_filter, Option.isNone_iff_eq_none, Option.isSome_iff_ne_none, hkey]

theorem sync_eq {copied : List Nat} {r₁ r₂ : Files} {m : Model}
    (hcopy : copyMissing P.versions.rows r = .ok (copied, r₁))
    (htags : overwriteTags P.versions.rows r₁ = .ok r₂) (haliases : copyAliases P.aliases.rows r₂ = .ok (some m)) :
    sync ⟨some P, r⟩ = .ok (⟨copied, P.aliases.rows, strays P m⟩,
      some ((strays P m).foldl (fun m a => m.dropAlias a) m)) := by
  unfold sync
  dsimp only
  rw [hcopy]
  change (overwriteTags P.versions.rows r₁ >>= _) = _
  rw [htags]
  change (copyAliases P.aliases.rows r₂ >>= _) = _
  rw [haliases]
  rfl

/-- Where nothing is incomplete and there is something to copy, a sync returns. -/
theorem sync_ok (h : Sound ⟨some P, r⟩) (hready : ∀ n v, P.versions.get? n = some v → v.status = .ready)
    (hsome : ∃ n v, P.versions.get? n = some v) : ∃ report r', sync ⟨some P, r⟩ = .ok (report, r') ∧
      Synced P r r' := by
  obtain ⟨copied, r₁, hcopy, hcopied₁, hkept₁, hmapped₁⟩ := copyMissing_ok (l := P.versions.rows) h.copied
    fun x hx => ⟨Table.mem_rows.mp hx, hready x.1 x.2 (Table.mem_rows.mp hx)⟩
  obtain ⟨r₂, htags, hcopied₂, hkept₂, htagged₂, _⟩ := overwriteTags_ok hcopied₁ P.versions.nodup
    fun x hx => ⟨Table.mem_rows.mp hx, h.own x.1 x.2 (Table.mem_rows.mp hx), hmapped₁ x hx⟩
  have hmapped₂ : ∀ n v, P.versions.get? n = some v → (replicaVersion r₂ n).isSome = true := by
    intro n v hv
    obtain ⟨m, hm⟩ := Option.isSome_iff_exists.mp (hmapped₁ (n, v) (Table.mem_rows.mpr hv))
    rw [hcopied₂.replicaVersion_kept hkept₂ hm]
    rfl
  have halias : ∀ a n, P.aliases.get? a = some n → (replicaVersion r₂ n).isSome = true := by
    intro a n ha
    obtain ⟨v, hv⟩ := Option.isSome_iff_exists.mp (P.aliased a n ha)
    exact hmapped₂ n v hv
  obtain ⟨r₃, haliases, hsame, _, hput, hothers⟩ := copyAliases_ok hcopied₂ P.aliases.nodup
    fun x hx => halias x.1 x.2 (Table.mem_rows.mp hx)
  -- some version was copied, so the replica knows the model
  obtain ⟨n, v, hv⟩ := hsome
  obtain ⟨m, hm⟩ := Option.isSome_iff_exists.mp (hmapped₂ n v hv)
  obtain ⟨w, hw, _⟩ := replicaVersion_some hm
  have hpresent : r₃.isSome = true := isSome_of_version? (n := m) (by rw [hsame m, hw]; rfl)
  obtain ⟨f, rfl⟩ := Option.isSome_iff_exists.mp hpresent
  refine ⟨_, _, sync_eq hcopy htags haliases, ?_⟩
  have hsame' : SameVersions r₂ (some ((strays P f).foldl (fun m a => m.dropAlias a) f)) := by
    intro i
    change ((strays P f).foldl (fun m a => m.dropAlias a) f).versions.get? i = _
    rw [dropAliases_versions]
    exact hsame i
  have hcopied₃ := hcopied₂.same hsame' fun _ => ⟨n, v, hv⟩
  have hmaps : ∀ i, (replicaVersion r₂ i).isSome = true →
      replicaVersion (some ((strays P f).foldl (fun m a => m.dropAlias a) f)) i = replicaVersion r₂ i := by
    intro i hi
    obtain ⟨j, hj⟩ := Option.isSome_iff_exists.mp hi
    rw [hj, hcopied₃.replicaVersion_kept hsame'.kept hj]
  constructor
  · exact hcopied₃
  · exact (hkept₁.trans hkept₂).trans hsame'.kept
  · rfl
  · intro i v' hv'
    rw [hmaps i (hmapped₂ i v' hv')]
    exact hmapped₂ i v' hv'
  · intro i v' hv' j w' hw'
    rw [hsame' j] at hw'
    exact htagged₂ (i, v') (Table.mem_rows.mpr hv') j w' hw'
  · intro a
    change ((strays P f).foldl (fun m a => m.dropAlias a) f).aliases.get? a = _
    rw [dropAliases_get?]
    cases ha : P.aliases.get? a with
    | none =>
      by_cases hstray : a ∈ strays P f
      · rw [if_pos hstray]
        rfl
      · rw [if_neg hstray]
        rw [mem_strays, not_and_or] at hstray
        simpa [ha] using hstray
    | some i =>
      have hnot : a ∉ strays P f := by simp [mem_strays, ha]
      rw [if_neg hnot, Option.bind_some, hmaps i (halias a i ha)]
      exact hput (a, i) (Table.mem_rows.mpr ha)

/-- A second sync finds everything done. -/
theorem Synced.still (h : Synced P r r') (hown : ∀ n v, P.versions.get? n = some v → Own n v.tags) :
    sync ⟨some P, r'⟩ = .ok (⟨[], P.aliases.rows, []⟩, r') := by
  obtain ⟨m, rfl⟩ := Option.isSome_iff_exists.mp h.present
  have hstrays : strays P m = [] := by
    rw [List.eq_nil_iff_forall_not_mem]
    intro a ha
    obtain ⟨hsome, hnone⟩ := mem_strays.mp ha
    have halias := h.aliases a
    rw [hnone, Option.bind_none] at halias
    change m.aliases.get? a = none at halias
    rw [halias] at hsome
    cases hsome
  have hcopy : copyMissing P.versions.rows (some m) = .ok ([], some m) :=
    copyMissing_nothing fun x hx => h.mapped x.1 x.2 (Table.mem_rows.mp hx)
  have htags : overwriteTags P.versions.rows (some m) = .ok (some m) := by
    apply overwriteTags_same
    intro x hx
    have hv := Table.mem_rows.mp hx
    exact ⟨hown x.1 x.2 hv, h.tagged x.1 x.2 hv, h.mapped x.1 x.2 hv⟩
  have haliases : copyAliases P.aliases.rows (some m) = .ok (some m) := by
    apply copyAliases_same
    intro x hx
    have ha := Table.mem_rows.mp hx
    obtain ⟨v, hv⟩ := Option.isSome_iff_exists.mp (P.aliased x.1 x.2 ha)
    have halias := h.aliases x.1
    rw [ha] at halias
    exact ⟨halias, h.mapped x.2 v hv⟩
  have hsync := sync_eq hcopy htags haliases
  rw [hstrays] at hsync
  exact hsync

end MirrorRegistry

end OranAdapt
