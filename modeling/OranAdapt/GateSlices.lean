import OranAdapt.GateDominance

/-!
# What the slice guard covers

The guard lists the values of a column and compares each with the column. A
`nan` and a `NaT` equal nothing, so the rows that miss a value that way are in
no slice; a list or a dict has no hash, and a `pd.NA` gives no bool, so neither
column gets as far as its slices.
-/

namespace OranAdapt.Gate

open Metrics

section
variable {κ : Type}

def Content.missing : Content κ → Bool
  | value _ | unhashable _ => false
  | none | nan | nat | na => true

variable [DecidableEq κ]

/-- Both hold the same value, or miss one. -/
def Content.alike (a b : Content κ) : Bool := (a.missing && b.missing) || Decidable.decide (a = b)

def group (cells : List (Cell κ)) (c : Cell κ) : List Bool := cells.map (·.content.alike c.content)

def Large (minRows : Nat) (cells : List (Cell κ)) (c : Cell κ) : Prop := minRows ≤ (group cells c).count true

instance (minRows : Nat) (cells : List (Cell κ)) (c : Cell κ) : Decidable (Large minRows cells c) :=
  inferInstanceAs (Decidable (_ ≤ _))

end

variable {F κ σ : Type} [Field F] [LinearOrder F] [DecidableEq κ]

/-- The rows of `m` are among those that were checked. -/
def IsChecked (guard : SliceGuard F) (cells : List (Cell κ)) (m : List Bool) : Prop :=
  ∃ slices, checked guard cells = .ok slices ∧ ∃ p ∈ slices, p.2 = m

def Regressed (h : GateHost F) (guard : SliceGuard F) (q : Question F κ) (m : List Bool) : Prop :=
  ∃ betterHigh sample cur cand, higherIsBetter q.metric = .ok betterHigh ∧
    rows h q.metric q.y q.current.predictions q.X sample = .ok cur ∧
    rows h q.metric q.y q.candidate.predictions q.X sample = .ok cand ∧
    sliceAllowed guard cur.1 cur.2 m < sliceDrop cur.1 cand.1 cur.2 (signOf betterHigh) m

/-- What is promised of a slice column. -/
structure Covered [FloorSemiring F] (h : GateHost F) (rng : Generator σ) (policy : Policy F) (q : Question F κ)
    (cells : List (Cell κ)) : Prop where
  checked : ∀ c ∈ cells, Large policy.slices.minRows cells c → IsChecked policy.slices cells (group cells c)
  rejects : ∀ c ∈ cells, Large policy.slices.minRows cells c → Regressed h policy.slices q (group cells c) →
    ∀ d, decide h rng policy q = .ok d → d.verdict = .reject
  covers : ∀ (i : Nat) (c : Cell κ), cells[i]? = some c →
    ¬ Large policy.slices.minRows cells c ∨ ∃ m : List Bool, IsChecked policy.slices cells m ∧ m[i]? = some true

/-- Every group that is large enough can be told from the others by `==`. -/
structure Checkable (guard : SliceGuard F) (cells : List (Cell κ)) : Prop where
  listed : (∃ c ∈ cells, Large guard.minRows cells c) → ∀ c ∈ cells, c.content.raises = false
  missing : guard.minRows ≤ cells.countP (·.content.missing) →
    ∀ c ∈ cells, c.content.missing = true → c.content = .none

/-! ## Equality and groups -/

section
variable {guard : SliceGuard F} {cells : List (Cell κ)} {a b : Content κ}

theorem alike_self (a : Content κ) : a.alike a = true := by simp [Content.alike]

theorem eq_present (a : Content κ) (hb : b.missing = false) : a.eq b = a.alike b := by
  cases b with
  | value v =>
    cases a with
    | value w =>
      simp only [Content.eq, Content.alike, Content.missing, Content.value.injEq, Bool.and_false, Bool.false_or]
      rfl
    | unhashable _ | none | nan | nat | na => simp [Content.eq, Content.alike, Content.missing]
  | unhashable v =>
    cases a with
    | unhashable w =>
      simp only [Content.eq, Content.alike, Content.missing, Content.unhashable.injEq, Bool.and_false, Bool.false_or]
      rfl
    | value _ | none | nan | nat | na => simp [Content.eq, Content.alike, Content.missing]
  | none | nan | nat | na => cases hb

theorem none_of_eq (h : a.eq b = true) (ha : a.missing = true) : a = .none := by
  cases a with
  | none => rfl
  | value _ | unhashable _ => cases ha
  | nan | nat | na => cases b <;> cases h

theorem alike_missing (hb : b.missing = true) : a.alike b = a.missing := by
  cases ha : a.missing with
  | true =>
    rw [Content.alike, ha, hb]
    rfl
  | false =>
    have hne : a ≠ b := by
      rintro rfl
      rw [ha] at hb
      cases hb
    simp [Content.alike, hne, ha]

theorem mem_unique : ∀ {cells : List (Cell κ)} {c : Cell κ}, c ∈ cells → ∃ u ∈ unique cells, u.content = c.content
  | c' :: cells, c, hc => by
    by_cases heq : c.content = c'.content
    · exact ⟨c', List.mem_cons_self, heq.symm⟩
    · rcases List.mem_cons.mp hc with rfl | hc
      · exact absurd rfl heq
      · obtain ⟨u, hu, hcontent⟩ := mem_unique hc
        refine ⟨u, List.mem_cons_of_mem _ (List.mem_filter.mpr ⟨hu, ?_⟩), hcontent⟩
        simpa [hcontent] using heq

theorem isChecked_iff {m : List Bool} : IsChecked guard cells m ↔
    (∀ c ∈ cells, c.content.raises = false) ∧
      ∃ u ∈ unique cells, mask cells u.content = m ∧ guard.minRows ≤ m.count true := by
  have hraises : (cells.any fun c => c.content.raises) = false ↔ ∀ c ∈ cells, c.content.raises = false := by simp
  unfold IsChecked checked
  rw [← hraises]
  cases cells.any fun c => c.content.raises with
  | true => simp
  | false => simp [and_assoc]

theorem large_missing {c : Cell κ} (hc : c.content.missing = true) :
    Large guard.minRows cells c ↔ guard.minRows ≤ cells.countP (·.content.missing) := by
  have hgroup : group cells c = cells.map (·.content.missing) := List.map_congr_left fun x _ => alike_missing hc
  rw [Large, hgroup, List.count_eq_countP, List.countP_map]
  simp [Function.comp_def]

theorem group_eq_mask {c : Cell κ} (hc : c ∈ cells) (hlarge : Large guard.minRows cells c)
    (h : Checkable guard cells) : group cells c = mask cells c.content := by
  cases hmissing : c.content.missing with
  | true =>
    have hall := h.missing ((large_missing hmissing).mp hlarge)
    have hnone := hall c hc hmissing
    apply List.map_congr_left
    intro x hx
    rw [alike_missing hmissing, hnone]
    cases hxm : x.content.missing with
    | true => rw [hall x hx hxm, Content.eq]
    | false =>
      cases hcontent : x.content with
      | value _ | unhashable _ => rfl
      | none | nan | nat | na =>
        rw [hcontent] at hxm
        cases hxm
  | false =>
    apply List.map_congr_left
    intro x _
    rw [eq_present _ hmissing]

theorem Checkable.isChecked (h : Checkable guard cells) {c : Cell κ} (hc : c ∈ cells)
    (hlarge : Large guard.minRows cells c) : IsChecked guard cells (group cells c) := by
  obtain ⟨u, hu, hcontent⟩ := mem_unique hc
  refine isChecked_iff.mpr ⟨h.listed ⟨c, hc, hlarge⟩, u, hu, ?_, hlarge⟩
  rw [hcontent, group_eq_mask hc hlarge h]

theorem checkable_of_checked (h : ∀ c ∈ cells, Large guard.minRows cells c → IsChecked guard cells (group cells c)) :
    Checkable guard cells where
  listed := by
    rintro ⟨c, hc, hlarge⟩
    exact (isChecked_iff.mp (h c hc hlarge)).1
  missing hcount c hc hmissing := by
    obtain ⟨-, u, -, hmask, -⟩ := isChecked_iff.mp (h c hc ((large_missing hmissing).mpr hcount))
    have heq := List.map_inj_left.mp hmask c hc
    rw [alike_self] at heq
    exact none_of_eq heq hmissing

end

/-! ## The verdict -/

variable [FloorSemiring F] {h : GateHost F} {rng : Generator σ} {policy : Policy F} {q : Question F κ}
  {column : String} {cells : List (Cell κ)} {m : RowMetric}

omit [FloorSemiring F] [DecidableEq κ] in
theorem sliceResult_failed {cur cand : List (Row F)} {stat : Stat F} {sign : F} {slices : List (Cell κ × List Bool)}
    {p : Cell κ × List Bool} (hp : p ∈ slices)
    (hdrop : sliceAllowed policy.slices cur stat p.2 < sliceDrop cur cand stat sign p.2) :
    (sliceResult h policy.slices column cur cand stat sign slices).passed = false := by
  have hne : slices.isEmpty = false := by
    rw [List.isEmpty_eq_false_iff]
    exact List.ne_nil_of_mem hp
  have hfailed : (slices.filter fun p => Decidable.decide (sliceAllowed policy.slices cur stat p.2 <
      sliceDrop cur cand stat sign p.2)) ≠ [] :=
    List.ne_nil_of_mem (List.mem_filter.mpr ⟨hp, decide_eq_true hdrop⟩)
  rw [sliceResult]
  simp only [hne]
  exact List.isEmpty_eq_false_iff.mpr hfailed

omit [FloorSemiring F] in
theorem rows_sample (m : RowMetric) (y : Option (Labels F)) (pred : Labels F) (X : List (List F)) (s s' : List Nat) :
    rows h m.name y pred X s = rows h m.name y pred X s' := by
  cases m <;> rfl

theorem RowMetric.name_ne (m : RowMetric) : m.name ≠ "silhouette" := by
  cases m <;> decide

theorem rejects_of_checked (hcolumn : column ∈ policy.slices.columns)
    (hcells : q.context.bind (·.lookup column) = some cells) (hm : q.metric = m.name) {rowsOf : List Bool}
    (hchecked : IsChecked policy.slices cells rowsOf) (hregressed : Regressed h policy.slices q rowsOf)
    {d : GateDecision F} (hd : decide h rng policy q = .ok d) : d.verdict = .reject := by
  obtain ⟨betterHigh, sampled, cur, cand, slices, hby⟩ := decide_ok h rng hd
  obtain ⟨betterHigh', sample, cur', cand', hsign, hcur, hcand, hdrop⟩ := hregressed
  obtain ⟨checkedSlices, hok, p, hp, rfl⟩ := hchecked
  have hby_cur := hby.curRows
  have hby_cand := hby.candRows
  rw [hm, rows_sample m _ _ _ _ sample] at hby_cur hby_cand
  rw [hm] at hcur hcand
  cases hsign.symm.trans hby.sign
  cases hcur.symm.trans hby_cur
  cases hcand.symm.trans hby_cand
  obtain ⟨g, hg, hslice⟩ := exists_of_mem_left (mapM_ok hby.sliced) hcolumn
  have hperRow : Decidable.decide (q.metric ≠ "silhouette") = true := by
    rw [hm]
    exact decide_eq_true m.name_ne
  rw [slice, hperRow, hcells] at hslice
  simp only [Bool.not_true, Bool.false_eq_true, if_false] at hslice
  rw [hok] at hslice
  cases hslice
  by_contra hverdict
  have haccept : d.verdict = .accept := by
    cases hv : d.verdict with
    | accept => rfl
    | reject => exact absurd hv hverdict
  have hpassed := (hby.accept_iff.mp haccept).2 _ (by
    rw [hby.guardrails_eq, List.append_assoc]
    exact List.mem_append_left _ hg)
  rw [sliceResult_failed hp hdrop] at hpassed
  cases hpassed

theorem Checkable.covered (hcheckable : Checkable policy.slices cells) (hcolumn : column ∈ policy.slices.columns)
    (hcells : q.context.bind (·.lookup column) = some cells) (hm : q.metric = m.name) :
    Covered h rng policy q cells where
  checked c hc hlarge := hcheckable.isChecked hc hlarge
  rejects c hc hlarge hregressed d hd :=
    rejects_of_checked hcolumn hcells hm (hcheckable.isChecked hc hlarge) hregressed hd
  covers i c hi := by
    by_cases hlarge : Large policy.slices.minRows cells c
    · refine .inr ⟨group cells c, hcheckable.isChecked (List.mem_of_getElem? hi) hlarge, ?_⟩
      rw [group, List.getElem?_map, hi, Option.map_some, alike_self]
    · exact .inl hlarge

/-- A slice column is covered exactly where its large groups can be told by `==`. -/
theorem slices_covered_iff (h : GateHost F) (rng : Generator σ) (policy : Policy F) (q : Question F κ) (m : RowMetric)
    (column : String) (cells : List (Cell κ)) (hm : q.metric = m.name) (hcolumn : column ∈ policy.slices.columns)
    (hcells : q.context.bind (·.lookup column) = some cells) :
    Covered h rng policy q cells ↔ Checkable policy.slices cells := by
  constructor
  · intro hcovered
    exact checkable_of_checked hcovered.checked
  · intro hcheckable
    exact hcheckable.covered hcolumn hcells hm

/-! ## A missing region -/

noncomputable def slicePolicy : Policy ℝ :=
  { realPolicy with
    slices := { columns := ["region"], maxDrop := 0, minRows := 1, maxDrop_nonneg :=
      margin_sample, minRows_pos := Nat.le_refl 1 } }

/-- The second row has no region, and the candidate loses it. -/
def regions (missing : Content String) : List (Cell String) := [⟨"north", .value "north"⟩, ⟨"", missing⟩]

def regionLost (missing : Content String) : Question ℝ String :=
  { oneRowLost with context := some [("region", regions missing)] }

theorem none_covered : Covered realHost firstRows slicePolicy (regionLost .none) (regions .none) := by
  refine (slices_covered_iff realHost firstRows slicePolicy (regionLost .none) .accuracy "region" (regions .none) rfl
    (by simp [slicePolicy]) rfl).mpr ⟨?_, ?_⟩
  · intro _
    decide
  · intro _
    decide

/-- The row without a region is in no slice, and a region that is a list leaves none. -/
theorem nan_not_covered : ¬ Covered realHost firstRows slicePolicy (regionLost .nan) (regions .nan) ∧
    ¬ Covered realHost firstRows slicePolicy (regionLost (.unhashable "[]")) (regions (.unhashable "[]")) := by
  constructor
  · intro hcovered
    have hcheckable := checkable_of_checked hcovered.checked
    have hnone := hcheckable.missing (by decide) ⟨"", .nan⟩ (by simp [regions]) rfl
    cases hnone
  · intro hcovered
    have hcheckable := checkable_of_checked hcovered.checked
    have hraises := hcheckable.listed ⟨⟨"north", .value "north"⟩, by simp [regions], by decide⟩
      ⟨"", .unhashable "[]"⟩
      (by simp [regions])
    cases hraises

end OranAdapt.Gate
