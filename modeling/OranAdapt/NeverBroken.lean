import Mathlib.Data.List.Perm.Basic
import Mathlib.Data.List.Sort
import Mathlib.Data.Rat.Sqrt
import OranAdapt.JudgedVersions
import OranAdapt.Sorting

/-!
# One bad version

A check returns one evaluation for each of the newest versions and for LIVE,
in the order of their numbers, where each of them is judged. A version whose
scoring raises anything else than an error of the framework ends the check.
-/

namespace OranAdapt.VersionCheck

open Scoring Declared

/-! ## Sorting by number -/

def number (version : String) : Int := (PyInt.int? version).getD 0

theorem byNumber_ok {β : Type} {version : β → String} {items : List β}
    (h : ∀ x ∈ items, PyInt.int? (version x) ≠ none) :
    ∃ sorted, byNumber version items = .ok sorted ∧ sorted.Perm items ∧
      sorted.Pairwise fun a b => number (version a) ≤ number (version b) := by
  have hkeys : items.mapM (fun item => orRaise "ValueError" (PyInt.int? (version item))) =
      .ok (items.map fun x => number (version x)) := by
    apply mapM_ok_map
    intro x hx
    obtain ⟨n, hn⟩ := Option.ne_none_iff_exists'.mp (h x hx)
    rw [number, hn]
    rfl
  have hzip : (items.map fun x => number (version x)).zip items = items.map fun x => (number (version x), x) := by
    rw [List.zip_map_left, List.zip_eq_zipWith, List.zipWith_self, List.map_map]
    rfl
  refine ⟨_, by rw [byNumber, hkeys, bind_ok_eq], ?_, ?_⟩
  · have hperm := ((List.mergeSort_perm ((items.map fun x => number (version x)).zip items) fun a b =>
      decide (a.1 ≤ b.1)).map Prod.snd)
    rw [hzip, List.map_map] at hperm
    rw [hzip]
    simpa [Function.comp_def] using hperm
  · rw [hzip, List.pairwise_map]
    have hsorted := @List.pairwise_mergeSort _ (fun a b : Int × β => decide (a.1 ≤ b.1))
      (by
        intro a b c hab hbc
        simp only [decide_eq_true_eq] at *
        exact le_trans hab hbc)
      (by
        intro a b
        simpa using le_total a.1 b.1)
      (items.map fun x => (number (version x), x))
    refine hsorted.imp_of_mem ?_
    intro a b ha hb hab
    obtain ⟨x, _, rfl⟩ := List.mem_map.mp (List.mem_mergeSort.mp ha)
    obtain ⟨y, _, rfl⟩ := List.mem_map.mp (List.mem_mergeSort.mp hb)
    simpa using hab

namespace Listing

variable (l : Listing)

theorem numbers_eq : l.versions.map (fun v => number v.version) = l.numbers.map fun n : Nat => (n : Int) := by
  have h := congrArg (List.map number) l.numbered
  rw [List.map_map, List.map_map] at h
  rw [show (fun v : ModelVersion => number v.version) = number ∘ fun v => v.version from rfl, h]
  apply List.map_congr_left
  intro n hn
  show (PyInt.int? (toString (n : Int))).getD 0 = n
  rw [PyInt.int?_toString (l.written n hn)]
  rfl

theorem versions_ascending : l.versions.Pairwise fun a b => number a.version < number b.version := by
  have h : (l.numbers.map fun n : Nat => (n : Int)).Pairwise (· < ·) := by
    rw [List.pairwise_map]
    exact l.ascending.imp fun hlt => Int.ofNat_lt.mpr hlt
  rw [← numbers_eq, List.pairwise_map] at h
  exact h

theorem int?_version {v : ModelVersion} (hv : v ∈ l.versions) : PyInt.int? v.version ≠ none := by
  have h : v.version ∈ l.versions.map (·.version) := List.mem_map_of_mem hv
  rw [l.numbered] at h
  obtain ⟨n, hn, hversion⟩ := List.mem_map.mp h
  rw [← hversion, PyInt.int?_toString (l.written n hn)]
  exact nofun

end Listing

section
variable {α ε μ : Type} (s : Setting α ε μ) (l : Listing)

/-! ## The versions that are checked -/

/-- The newest READY versions, and LIVE where it is READY, in their order. -/
def wanted : List ModelVersion :=
  let ready := l.versions.filter (·.status = "READY")
  ready.filter fun v => v ∈ ready.drop (ready.length - s.reuseMaxVersions) ∨ v.version = s.liveVersion

theorem wanted_sublist : (wanted s l).Sublist l.versions := List.filter_sublist.trans List.filter_sublist

theorem wanted_ascending : (wanted s l).Pairwise fun a b => number a.version < number b.version :=
  l.versions_ascending.sublist (wanted_sublist s l)

theorem newest_perm {k : Nat} {versions : List ModelVersion}
    (h : versions.Pairwise fun a b => number a.version < number b.version)
    (live : String) :
    (if ∀ v ∈ versions.drop k, v.version ≠ live then versions.drop k ++ versions.filter (·.version = live)
      else versions.drop k).Perm
      (versions.filter fun v => v ∈ versions.drop k ∨ v.version = live) := by
  have hsplit := List.take_append_drop k versions
  have hbefore : ∀ v ∈ versions.take k, ∀ w ∈ versions.drop k, number v.version < number w.version := by
    rw [← hsplit] at h
    exact (List.pairwise_append.mp h).2.2
  have hlater : (versions.drop k).filter (fun v => v ∈ versions.drop k ∨ v.version = live) = versions.drop k := by
    rw [List.filter_eq_self]
    intro v hv
    simp [hv]
  have hearlier : (versions.take k).filter (fun v => v ∈ versions.drop k ∨ v.version = live) =
      (versions.take k).filter (·.version = live) := by
    apply List.filter_congr
    intro v hv
    have : v ∉ versions.drop k := fun hdrop => lt_irrefl _ (hbefore v hv v hdrop)
    simp [this]
  have hwanted : versions.filter (fun v => v ∈ versions.drop k ∨ v.version = live) =
      (versions.take k).filter (·.version = live) ++ versions.drop k := by
    conv_lhs => rw [← hsplit]
    rw [List.filter_append, hsplit, hearlier, hlater]
  rw [hwanted]
  split
  · rename_i hold
    have hlive : versions.filter (·.version = live) = (versions.take k).filter (·.version = live) := by
      have hnil : (versions.drop k).filter (·.version = live) = [] := List.filter_eq_nil_iff.mpr (by simpa using hold)
      conv_lhs => rw [← hsplit]
      rw [List.filter_append, hnil, List.append_nil]
    rw [hlive]
    exact List.perm_append_comm
  · rename_i hnew
    have hnone : (versions.take k).filter (·.version = live) = [] := by
      rw [List.filter_eq_nil_iff]
      intro v hv hversion
      apply hnew
      intro w hw hlive
      have := hbefore v hv w hw
      rw [of_decide_eq_true hversion, hlive] at this
      exact lt_irrefl _ this
    rw [hnone]
    exact .refl _

theorem candidates_ok : ∃ infos, candidates s l.versions = .ok infos ∧ infos.Perm (wanted s l) := by
  have hready : (l.versions.filter (·.status = "READY")).Pairwise fun a b => number a.version < number b.version :=
    l.versions_ascending.sublist List.filter_sublist
  have hperm := newest_perm hready (k := (l.versions.filter (·.status = "READY")).length - s.reuseMaxVersions) s.liveVersion
  obtain ⟨infos, hinfos, hsorted, _⟩ := byNumber_ok fun v hv =>
    l.int?_version ((wanted_sublist s l).subset (hperm.mem_iff.mp hv))
  exact ⟨infos, hinfos, hsorted.trans hperm⟩

theorem wanted_nodup : ((wanted s l).map (·.version)).Nodup := by
  rw [List.Nodup, List.pairwise_map]
  refine (wanted_ascending s l).imp ?_
  intro a b hlt heq
  rw [heq] at hlt
  exact lt_irrefl _ hlt

variable (stored : String → StoredVersion)

/-! ## What each is scored against -/

def expectedFor (info : ModelVersion) : Option String :=
  if info.version = s.liveVersion then none
  else if ∃ v ∈ wanted s l, v.version = s.liveVersion then estimatorOf s (stored s.liveVersion) s.liveVersion
  else none

variable [DecidableEq ε]

def evaluateWanted (info : ModelVersion) : Except AdaptationError VersionEvaluation :=
  evaluateOne s (stored info.version) info (expectedFor s l stored info)

variable {s l stored}

theorem evaluateEach_others {expected : Option String} :
    ∀ {infos : List ModelVersion}, (∀ v ∈ infos, v.version ≠ s.liveVersion) →
    (∀ v ∈ infos, expectedFor s l stored v = expected) →
      evaluateEach s stored expected infos = infos.mapM (evaluateWanted s l stored)
  | [], _, _ => rfl
  | info :: infos, hother, hexpected => by
    rw [evaluateEach, List.mapM_cons, evaluateWanted, hexpected info List.mem_cons_self]
    cases hone : evaluateOne s (stored info.version) info expected with
    | error e => rfl
    | ok ev =>
      have hlive : ev.isLive = false := by
        rw [(evaluateOne_ok hone).2.1]
        exact beq_eq_false_iff_ne.mpr (hother info List.mem_cons_self)
      show (evaluateEach s stored (if ev.isLive then ev.estimatorType else expected) infos >>= _) = _
      rw [hlive, if_neg Bool.false_ne_true, evaluateEach_others (fun v hv => hother v (List.mem_cons_of_mem _ hv))
        fun v hv => hexpected v (List.mem_cons_of_mem _ hv)]
      rfl

theorem evaluateEach_live {live : ModelVersion} {others : List ModelVersion} (hmem : live ∈ wanted s l)
    (hlive : live.version = s.liveVersion) (hothers : ∀ v ∈ others, v.version ≠ s.liveVersion) :
    evaluateEach s stored none (live :: others) = (live :: others).mapM (evaluateWanted s l stored) := by
  have hexpected : ∀ v ∈ others, expectedFor s l stored v = estimatorOf s (stored s.liveVersion) s.liveVersion := by
    intro v hv
    rw [expectedFor, if_neg (hothers v hv), if_pos ⟨live, hmem, hlive⟩]
  rw [evaluateEach, List.mapM_cons, evaluateWanted, expectedFor, if_pos hlive]
  cases hone : evaluateOne s (stored live.version) live none with
  | error e => rfl
  | ok ev =>
    obtain ⟨_, hisLive, hestimator, _⟩ := evaluateOne_ok hone
    rw [beq_iff_eq.mpr hlive] at hisLive
    rw [hlive] at hestimator
    show (evaluateEach s stored (if ev.isLive then ev.estimatorType else none) others >>= _) = _
    rw [hisLive, if_pos rfl, hestimator, evaluateEach_others hothers hexpected]
    rfl

omit [DecidableEq ε] in
theorem live_alone {infos : List ModelVersion} (h : infos.Perm (wanted s l)) :
    infos.filter (·.version = s.liveVersion) = [] ∧ (¬ ∃ v ∈ wanted s l, v.version = s.liveVersion) ∨
      ∃ live ∈ wanted s l, live.version = s.liveVersion ∧ infos.filter (·.version = s.liveVersion) = [live] := by
  have hsame : (infos.filter (·.version = s.liveVersion)).map (·.version) =
      List.replicate (infos.filter (·.version = s.liveVersion)).length s.liveVersion := by
    rw [List.eq_replicate_iff, List.length_map]
    refine ⟨rfl, ?_⟩
    intro version hversion
    obtain ⟨v, hv, rfl⟩ := List.mem_map.mp hversion
    exact of_decide_eq_true (List.mem_filter.mp hv).2
  have hnodup : ((infos.filter (·.version = s.liveVersion)).map (·.version)).Nodup :=
    (((h.map _).nodup_iff).mpr (wanted_nodup s l)).sublist (List.filter_sublist.map _)
  rw [hsame, List.nodup_replicate, Nat.le_one_iff_eq_zero_or_eq_one] at hnodup
  cases hnodup with
  | inl hzero =>
    have hnil := List.length_eq_zero_iff.mp hzero
    refine .inl ⟨hnil, ?_⟩
    intro ⟨v, hv, hversion⟩
    rw [List.filter_eq_nil_iff] at hnil
    exact hnil v (h.mem_iff.mpr hv) (decide_eq_true hversion)
  | inr hone =>
    obtain ⟨live, hlive⟩ := List.length_eq_one_iff.mp hone
    have hmem : live ∈ infos.filter (·.version = s.liveVersion) := by
      rw [hlive]
      exact List.mem_singleton_self live
    rw [List.mem_filter] at hmem
    exact .inr ⟨live, h.mem_iff.mp hmem.1, of_decide_eq_true hmem.2, hlive⟩

theorem evaluateEach_wanted {infos : List ModelVersion} (h : infos.Perm (wanted s l)) :
    evaluateEach s stored none (infos.filter (·.version = s.liveVersion) ++ infos.filter (·.version ≠ s.liveVersion)) =
      (infos.filter (·.version = s.liveVersion) ++
        infos.filter (·.version ≠ s.liveVersion)).mapM (evaluateWanted s l stored) := by
  have hothers : ∀ v ∈ infos.filter (·.version ≠ s.liveVersion), v.version ≠ s.liveVersion := by
    intro v hv
    exact of_decide_eq_true (List.mem_filter.mp hv).2
  rcases live_alone h with ⟨hnil, hnone⟩ | ⟨live, hmem, hlive, hsingle⟩
  · rw [hnil, List.nil_append]
    apply evaluateEach_others hothers
    intro v hv
    rw [expectedFor, if_neg (hothers v hv), if_neg hnone]
  · rw [hsingle, List.singleton_append]
    exact evaluateEach_live hmem hlive hothers

/-! ## All of them -/

variable (s l stored) in
theorem evaluateVersions_run : ∃ infos : List ModelVersion, infos.Perm (wanted s l) ∧
    evaluateVersions s l stored = infos.mapM (evaluateWanted s l stored) >>= byNumber (·.version) := by
  obtain ⟨infos, hinfos, hperm⟩ := candidates_ok s l
  refine ⟨infos.filter (·.version = s.liveVersion) ++ infos.filter (·.version ≠ s.liveVersion), ?_, ?_⟩
  · refine List.Perm.trans ?_ hperm
    simpa using List.filter_append_perm (fun v : ModelVersion => decide (v.version = s.liveVersion)) infos
  · rw [evaluateVersions, hinfos, ← evaluateEach_wanted hperm]
    rfl

theorem versions_of_each {infos : List ModelVersion} {es : List VersionEvaluation}
    (h : List.Forall₂ (fun info ev => evaluateWanted s l stored info = .ok ev) infos es) :
    es.map (·.version) = infos.map (·.version) := by
  induction h with
  | nil => rfl
  | cons hone _ ih => rw [List.map_cons, List.map_cons, ih, (evaluateOne_ok hone).1]

theorem byNumber_results {infos : List ModelVersion} (h : infos.Perm (wanted s l)) {results : List VersionEvaluation}
    (heach : List.Forall₂ (fun info ev => evaluateWanted s l stored info = .ok ev) infos results) :
    ∃ es, byNumber (·.version) results = .ok es ∧
      List.Forall₂ (fun info ev => evaluateWanted s l stored info = .ok ev) (wanted s l) es := by
  obtain ⟨es, hwanted, hperm⟩ := List.perm_comp_forall₂ h.symm heach
  have hversions := versions_of_each hwanted
  have hnumbers : ∀ ev ∈ results, PyInt.int? ev.version ≠ none := by
    intro ev hev
    have : ev.version ∈ es.map (·.version) := List.mem_map_of_mem (hperm.mem_iff.mpr hev)
    rw [hversions] at this
    obtain ⟨v, hv, hversion⟩ := List.mem_map.mp this
    rw [← hversion]
    exact l.int?_version ((wanted_sublist s l).subset hv)
  obtain ⟨sorted, hsorted, hsortedPerm, hascending⟩ := byNumber_ok hnumbers
  have hes : es.Pairwise fun a b => number a.version < number b.version := by
    have := wanted_ascending s l
    rw [← List.pairwise_map (f := fun v : ModelVersion => v.version) (R := fun a b => number a < number b), ← hversions,
      List.pairwise_map] at this
    exact this
  have hnodup : (es.map fun ev => number ev.version).Nodup := List.pairwise_map.mpr (hes.imp ne_of_lt)
  refine ⟨sorted, hsorted, ?_⟩
  rw [← StableOrder.eq_of_sorted_of_nodup (hperm.trans hsortedPerm.symm) (hes.imp le_of_lt) hascending hnodup]
  exact hwanted

theorem evaluateVersions_ok {es : List VersionEvaluation} (h : evaluateVersions s l stored = .ok es) :
    List.Forall₂ (fun info ev => evaluateWanted s l stored info = .ok ev) (wanted s l) es := by
  obtain ⟨infos, hperm, hrun⟩ := evaluateVersions_run s l stored
  rw [hrun] at h
  obtain ⟨results, hresults, h⟩ := bind_ok h
  obtain ⟨sorted, hsorted, heach⟩ := byNumber_results hperm (mapM_ok hresults)
  rw [hsorted] at h
  cases h
  exact heach

theorem returns_evaluateVersions : Returns (evaluateVersions s l stored) ↔
    ∀ info ∈ wanted s l, Returns (evaluateWanted s l stored info) := by
  obtain ⟨infos, hperm, hrun⟩ := evaluateVersions_run s l stored
  have hmem : (∀ info ∈ infos, Returns (evaluateWanted s l stored info)) ↔
      ∀ info ∈ wanted s l, Returns (evaluateWanted s l stored info) :=
    forall_congr' fun info => imp_congr_left hperm.mem_iff
  rw [hrun, ← hmem, ← returns_mapM, returns_bind]
  constructor
  · intro ⟨results, hresults, _⟩
    exact ⟨results, hresults⟩
  · intro ⟨results, hresults⟩
    obtain ⟨sorted, hsorted, _⟩ := byNumber_results hperm (mapM_ok hresults)
    exact ⟨results, hresults, sorted, hsorted⟩

/-! ## A check and its versions -/

variable (s l stored)

/-- One evaluation for each version that is checked, in their order, compatible or with a reason. -/
def Judged : Prop :=
  ∃ es, evaluateVersions s l stored = .ok es ∧ es.map (·.version) = (wanted s l).map (·.version) ∧
    ∀ ev ∈ es, IsJudged ev

/-- With something else in the place of one version, the evaluations of all others are the same. -/
def Unmoved (version : String) (replaced : StoredVersion) : Prop :=
  ∃ es es', evaluateVersions s l stored = .ok es ∧
    evaluateVersions s l (Function.update stored version replaced) = .ok es' ∧
    es.filter (·.version ≠ version) = es'.filter (·.version ≠ version)

def AllSettle : Prop := ∀ info ∈ wanted s l, Settles s (stored info.version) info.version (expectedFor s l stored info)

variable {s l stored}

theorem allSettle_iff : AllSettle s l stored ↔ Returns (evaluateVersions s l stored) := by
  rw [returns_evaluateVersions]
  exact forall₂_congr fun _ _ => returns_evaluateOne.symm

theorem judged_of_each {infos : List ModelVersion} {es : List VersionEvaluation}
    (h : List.Forall₂ (fun info ev => evaluateWanted s l stored info = .ok ev) infos es) : ∀ ev ∈ es, IsJudged ev := by
  induction h with
  | nil =>
    intro ev hev
    cases hev
  | cons hone _ ih => exact List.forall_mem_cons.mpr ⟨(evaluateOne_ok hone).2.2.2, ih⟩

theorem judged_iff : Judged s l stored ↔ AllSettle s l stored := by
  rw [allSettle_iff]
  constructor
  · intro ⟨es, hes, _⟩
    exact ⟨es, hes⟩
  · intro ⟨es, hes⟩
    have heach := evaluateVersions_ok hes
    exact ⟨es, hes, versions_of_each heach, judged_of_each heach⟩

section
variable {version : String} {replaced : StoredVersion}

omit [DecidableEq ε] in
theorem expectedFor_update (h : version ≠ s.liveVersion) (info : ModelVersion) :
    expectedFor s l (Function.update stored version replaced) info = expectedFor s l stored info := by
  rw [expectedFor, Function.update_of_ne h.symm, expectedFor]

/-- What a version is judged by is its own, and the estimator type of LIVE. -/
theorem evaluateWanted_update (h : version ≠ s.liveVersion) {info : ModelVersion} (hother : info.version ≠ version) :
    evaluateWanted s l (Function.update stored version replaced) info = evaluateWanted s l stored info := by
  rw [evaluateWanted, expectedFor_update h, Function.update_of_ne hother, evaluateWanted]

theorem others_same (h : version ≠ s.liveVersion) {infos : List ModelVersion} {es es' : List VersionEvaluation}
    (heach : List.Forall₂ (fun info ev => evaluateWanted s l stored info = .ok ev) infos es)
    (heach' : List.Forall₂ (fun info ev => evaluateWanted s l (Function.update stored version replaced) info = .ok ev)
      infos es') :
    es.filter (·.version ≠ version) = es'.filter (·.version ≠ version) := by
  induction heach generalizing es' with
  | nil =>
    cases heach'
    rfl
  | @cons info ev infos es hone _ ih =>
    cases heach' with
    | @cons _ ev' _ es' hone' hrest' =>
      have hversion := (evaluateOne_ok hone).1
      have hversion' := (evaluateOne_ok hone').1
      by_cases hother : info.version = version
      · rw [List.filter_cons_of_neg (by simp [hversion, hother]), List.filter_cons_of_neg (by simp [hversion', hother])]
        exact ih hrest'
      · rw [evaluateWanted_update h hother, hone] at hone'
        cases hone'
        rw [List.filter_cons_of_pos (by simp [hversion, hother]),
          List.filter_cons_of_pos (by simp [hversion, hother]), ih hrest']

theorem unmoved_iff (h : version ≠ s.liveVersion) :
    Unmoved s l stored version replaced ↔ AllSettle s l stored ∧
      AllSettle s l (Function.update stored version replaced) := by
  rw [allSettle_iff, allSettle_iff]
  constructor
  · intro ⟨es, es', hes, hes', _⟩
    exact ⟨⟨es, hes⟩, es', hes'⟩
  · intro ⟨⟨es, hes⟩, es', hes'⟩
    exact ⟨es, es', hes, hes', others_same h (evaluateVersions_ok hes) (evaluateVersions_ok hes')⟩

end

variable (s l stored)

theorem never_broken_iff (version : String) (replaced : StoredVersion) :
    (Judged s l stored ∧ (version ≠ s.liveVersion → Unmoved s l stored version replaced)) ↔
      AllSettle s l stored ∧ (version ≠ s.liveVersion → AllSettle s l (Function.update stored version replaced)) := by
  rw [judged_iff]
  apply and_congr_right
  intro hsettle
  apply imp_congr_right
  intro hother
  rw [unmoved_iff hother]
  exact and_iff_right hsettle

end

/-! ## A version that has diverged -/

namespace Diverged

/-- What scikit-learn checks of its input: no `nan` and no infinity. -/
def finiteValues (values : List PyFloat) : Except String (List Rat) :=
  values.mapM fun v => match v with
    | .fin q => .ok q
    | _ => .error "ValueError"

def mean (values : List Rat) : Rat := values.sum / values.length

def overRows (f : Rat → Rat → Rat) (truth pred : List PyFloat) : Except String PyFloat := do
  let truth ← finiteValues truth
  let pred ← finiteValues pred
  .ok (.fin (mean (List.zipWith f truth pred)))

def squaredError : List PyFloat → List PyFloat → Except String PyFloat := overRows fun t p => (t - p) ^ 2

def rootOf (value : PyFloat) : PyFloat :=
  match value with
  | .fin q => .fin (Rat.sqrt q)
  | other => other

def variance (values : List PyFloat) : PyFloat :=
  match finiteValues values with
  | .ok qs => .fin (mean (qs.map fun q => q ^ 2) - mean qs ^ 2)
  | .error _ => .nan

def quotient (a b : PyFloat) : PyFloat :=
  match a, b with
  | .fin p, .fin q => .fin (p / q)
  | _, _ => .nan

def difference (a b : PyFloat) : PyFloat :=
  match a, b with
  | .fin p, .fin q => .fin (p - q)
  | _, _ => .nan

/-- The labels of a column of measurements, which no metric of classes or clusters takes. -/
def refused : Except String PyFloat := .error "ValueError"

def libraries : Libraries (List PyFloat) PyFloat where
  repr text := "'" ++ text ++ "'"
  concatenate a b := .ok (a ++ b)
  unique a := .ok (a.dedup.mergeSort PyFloat.le)
  pdUnique a := .ok a.dedup
  len a := .ok a.length
  asFloat a := .ok a
  equalTo a label := .ok (a.map fun v => .fin (if v = label then 1 else 0))
  isBool _ := false
  one := .fin 1
  minusOne := .fin (-1)
  count a := (a.filter (· = .fin 1)).length
  var := variance
  anyZero a := a.any (· = .fin 0)
  sqrt a := .ok (rootOf a)
  div := quotient
  symmetricError truth pred := (overRows (fun t p => 2 * |p - t| / (|t| + |p|)) truth pred).map some
  naiveError truth season := (overRows (fun t p => |t - p|) (truth.drop season) truth).map some
  matrix X := .ok (X.flatMap Prod.snd)
  accuracyScore _ _ := refused
  precisionScore _ _ _ := refused
  recallScore _ _ _ := refused
  f1Score _ _ _ := refused
  rocAucScore _ _ := refused
  averagePrecisionScore _ _ := refused
  meanSquaredError := squaredError
  meanAbsoluteError := overRows fun t p => |t - p|
  r2Score truth pred := (squaredError truth pred).map fun e => difference (.fin 1) (quotient e (variance truth))
  meanAbsolutePercentageError := overRows fun t p => |t - p| / |t|
  silhouetteScore _ _ := refused
  daviesBouldinScore _ _ := refused
  pair y predictions := .ok (y ++ predictions)
  report _ frame := (squaredError (frame.take (frame.length / 2)) (frame.drop (frame.length / 2))).map rootOf

/-- A linear regression without an intercept is its coefficient. -/
def linear : ModelTypePort (List PyFloat) PyFloat where
  frameworks := ["sklearn"]
  accepts _ _ := .ok true
  inspect _ _ := .ok ⟨"regressor", some ["prb"], none⟩
  predict coefficient X _ :=
    .ok ((X.flatMap Prod.snd).map fun x => match coefficient, x with
      | .fin c, .fin q => .fin (c * q)
      | _, _ => .nan)

def modelTypes : ModelTypes (List PyFloat) PyFloat PyFloat where
  types := [("sklearn", linear)]
  lower text := String.ofList (text.toList.map Char.toLower)
  repr text := "'" ++ text ++ "'"
  className _ := "LinearRegression"
  hasPredictProba _ := false
  classes _ := []
  predictProba _ _ := .error "no attribute predict_proba"
  hasDecisionFunction _ := false
  decisionFunction _ _ := .error "no attribute decision_function"

def manifest : Integrity.Name := "MLmodel".toList.map Char.toNat

def weights : Integrity.Name := "model.skops".toList.map Char.toNat

/-- The manifest beside the coefficient, which is 1 or has become `nan`. -/
def artifact (coefficient : UInt8) : Integrity.Entry := .dir [(manifest, .file []), (weights, .file [coefficient])]

def flavors : ModelHandler PyFloat where
  frameworks := ["sklearn"]
  detect
    | .dir entries => .ok (entries.any fun e => e.1 = manifest && e.2.isFile)
    | .file _ => .ok false
  load
    | .dir [_, (_, .file [1])], _ => .ok (.fin 1)
    | _, _ => .ok .nan

def drifted : Setting (List PyFloat) PyFloat PyFloat where
  lib := libraries
  types := modelTypes
  handlers := [("mlflow-flavors", flavors)]
  sha := Integrity.lengthHasher
  policy := ⟨2147483648, 1048576, "artifact.sha256"⟩
  sub := difference
  ageDays created := .fin ((1767225600000 - created) / 86400000)
  name := "cell-load"
  framework := "sklearn"
  targetColumn := "throughput"
  liveVersion := "2"
  taskType := none
  data := [("prb", [.fin (1 / 2), .fin (3 / 2)]), ("throughput", [.fin (1 / 2), .fin (3 / 2)])]
  nRows := 2
  reuseMaxVersions := 10
  scores_some := by decide

def twoVersions : Listing where
  versions := [⟨"1", "READY", none⟩, ⟨"2", "READY", none⟩]
  numbers := [1, 2]
  numbered := by decide
  ascending := by decide
  written := by decide

/-- Every answer of the registry, with a coefficient that is `nan` in version 1. -/
def stored (version : String) : StoredVersion where
  metrics := .ok []
  tags := .ok []
  download := .ok ("/tmp/job/versions/" ++ version, artifact (if version = "1" then 0 else 1))
  setTags := .ok ()

theorem names_valid : ∀ name ∈ [manifest, weights], Integrity.ValidName name ∧ Integrity.Encodable name := by
  have hvalid : ∀ name ∈ [manifest, weights], name ≠ [] ∧ (name ≠ [46] ∧ name ≠ [46, 46]) ∧
      (∀ c ∈ name, c ≠ 0 ∧ c ≠ Integrity.slash) ∧ ∀ c ∈ name, c.isValidChar := by decide
  intro name hname
  obtain ⟨hne, hdots, hplain, hchars⟩ := hvalid name hname
  exact ⟨⟨hne, hdots, hplain⟩, hchars⟩

theorem artifact_wellFormed (coefficient : UInt8) : (artifact coefficient).WellFormed := by
  have hnodup : [manifest, weights].Nodup := by decide
  refine .dir hnodup ?_ ?_
  · intro e he
    have hname : e.1 ∈ [manifest, weights] := List.mem_map_of_mem he
    exact (names_valid e.1 hname).1
  · intro e he
    simp only [List.mem_cons, List.not_mem_nil, or_false] at he
    rcases he with rfl | rfl
    · exact .file _
    · exact .file _

theorem artifact_encodable (coefficient : UInt8) : (artifact coefficient).Encodable := by
  intro f hf name hname
  simp only [artifact, Integrity.filesOf, Integrity.filesBelow, List.map_cons, List.map_nil,
    List.append_nil, List.cons_append,
    List.nil_append, List.mem_cons, List.not_mem_nil, or_false] at hf
  apply (names_valid name _).2
  rcases hf with rfl | rfl
  · rw [List.mem_singleton.mp hname]
    exact List.mem_cons_self
  · exact List.mem_cons_of_mem _ hname

theorem artifact_digest (coefficient : UInt8) :
    ∃ digest, Integrity.sha256Path drifted.sha drifted.policy.hashChunkBytes (artifact coefficient) = .ok digest := by
  apply returns_sha256Path
  rw [Integrity.hashedText_eq (artifact_wellFormed coefficient) (by decide) (artifact_encodable coefficient)]
  exact Option.some_ne_none _

theorem stored_verified (version : String) : ∃ digest, verifyVersionArtifact drifted (stored version) version =
    .ok ("/tmp/job/versions/" ++ version, artifact (if version = "1" then 0 else 1), digest) := by
  obtain ⟨digest, hdigest⟩ := artifact_digest (if version = "1" then 0 else 1)
  refine ⟨digest, ?_⟩
  show (Integrity.sha256Path drifted.sha drifted.policy.hashChunkBytes (artifact (if version = "1" then 0 else 1)) >>= _) = _
  rw [hdigest]
  rfl

theorem live_regressor : expectedFor drifted twoVersions stored ⟨"1", "READY", none⟩ = some "regressor" := by
  obtain ⟨digest, hverified⟩ := stored_verified "2"
  have hlive : ∃ v ∈ wanted drifted twoVersions, v.version = drifted.liveVersion := by decide
  have hkept : verifyVersionArtifact drifted (stored drifted.liveVersion) drifted.liveVersion = _ := hverified
  rw [expectedFor, if_neg (by decide), if_pos hlive, estimatorOf, hkept]
  rfl

theorem diverged_breaks_check : (∀ version, Returns (stored version).metrics ∧ Returns (stored version).tags ∧
    Returns (stored version).download ∧ Returns (stored version).setTags) ∧ ¬ Judged drifted twoVersions stored := by
  refine ⟨fun _ => ⟨⟨_, rfl⟩, ⟨_, rfl⟩, ⟨_, rfl⟩, ⟨_, rfl⟩⟩, ?_⟩
  rw [judged_iff]
  intro h
  have hsettles := h ⟨"1", "READY", none⟩ (by decide)
  rw [live_regressor] at hsettles
  obtain ⟨digest, hverified⟩ := stored_verified "1"
  have hscored := hsettles.scored _ _ _ .nan ⟨"regressor", some ["prb"], some "sklearn"⟩ hverified (by rfl) (by rfl)
  obtain ⟨truth, htruth, htaken⟩ := hscored (fun _ => rfl) (by decide)
  cases htruth
  obtain ⟨⟨_, hactual, _, hvalues, _, hmse, _⟩, _⟩ := htaken .regression (by rfl) [.nan, .nan] none (by rfl)
  cases hactual
  cases hvalues
  cases hmse

end Diverged

end OranAdapt.VersionCheck
