import OranAdapt.TrainingRows
import OranAdapt.JsonText
import Mathlib.Data.List.Dedup

/-!
# What the leakage checks let through

A copy of a held-out row is found by the text of its values, and one value has
several texts: an integer and the float it equals, `true` and 1, the two zeros.
The checks keep exactly the rows they should where a training row with the
values of a held-out row has the text of one.
-/

namespace OranAdapt

namespace Json

/-! ## Equal values -/

variable (floatValue : String → Rat)

def number? : Json → Option Rat
  | .bool b => some (if b then 1 else 0)
  | .int n => some n
  | .float r => some (floatValue r)
  | _ => none

mutual

/-- `v == w`, of a float the value its text stands for -/
def same : Json → Json → Bool
  | .null, .null => true
  | .str s, .str t => s == t
  | .arr vs, .arr ws => sameItems vs ws
  | .obj fs, .obj gs => sameFields fs gs
  | .bool b, w => w.number? floatValue == some (if b then 1 else 0)
  | .int n, w => w.number? floatValue == some (n : Rat)
  | .float r, w => w.number? floatValue == some (floatValue r)
  | _, _ => false

def sameItems : List Json → List Json → Bool
  | [], [] => true
  | v :: vs, w :: ws => same v w && sameItems vs ws
  | _, _ => false

def sameFields : List (String × Json) → List (String × Json) → Bool
  | [], [] => true
  | (k, v) :: fs, (l, w) :: gs => k == l && same v w && sameFields fs gs
  | _, _ => false

end

mutual

theorem same_refl : ∀ v : Json, same floatValue v v = true
  | .null => by simp [same]
  | .bool b => by simp [same, number?]
  | .int n => by simp [same, number?]
  | .float r => by simp [same, number?]
  | .str s => by simp [same]
  | .arr vs => by
    rw [same]
    exact sameItems_refl vs
  | .obj fs => by
    rw [same]
    exact sameFields_refl fs

theorem sameItems_refl : ∀ vs : List Json, sameItems floatValue vs vs = true
  | [] => by simp [sameItems]
  | v :: vs => by simp [sameItems, same_refl v, sameItems_refl vs]

theorem sameFields_refl : ∀ fs : List (String × Json), sameFields floatValue fs fs = true
  | [] => by simp [sameFields]
  | (k, v) :: fs => by simp [sameFields, same_refl v, sameFields_refl fs]

end

end Json

namespace Leakage

variable (floatValue : String → Rat) (settings : LeakageSettings) (columns : List String) (holdout : List Row)

def value (r : Row) (column : String) : Json := (r.payload.get column).getD .null

def SameValues (r h : Row) : Prop := ∀ c ∈ columns, Json.same floatValue (value r c) (value h c) = true

instance (r h : Row) : Decidable (SameValues floatValue columns r h) :=
  inferInstanceAs (Decidable (∀ c ∈ columns, Json.same floatValue (value r c) (value h c) = true))

/-- The row is none of the held-out rows, and not newer than the oldest of them. -/
def Past (r : Row) : Prop :=
  (∀ h ∈ holdout, r.id ≠ h.id) ∧ (settings.allowFutureRows = true ∨
    ∀ h ∈ holdout, r.observedAt ≤ h.observedAt)

instance (r : Row) : Decidable (Past settings holdout r) :=
  inferInstanceAs (Decidable ((∀ h ∈ holdout, r.id ≠ h.id) ∧
    (settings.allowFutureRows = true ∨ ∀ h ∈ holdout, r.observedAt ≤ h.observedAt)))

/-- The row may be trained on: it is past, and differs from every held-out row in some value. -/
def Safe (r : Row) : Prop := Past settings holdout r ∧ ∀ h ∈ holdout, ¬ SameValues floatValue columns r h

instance (r : Row) : Decidable (Safe floatValue settings columns holdout r) :=
  inferInstanceAs (Decidable (Past settings holdout r ∧ ∀ h ∈ holdout, ¬ SameValues floatValue columns r h))

/-- A past training row with the values of a held-out row is written like one. -/
def CopiesTold (train : List Row) : Prop :=
  ∀ r ∈ train, Past settings holdout r → (∃ h ∈ holdout, SameValues floatValue columns r h) →
    ∃ h ∈ holdout, rowKey columns r = rowKey columns h

instance (train : List Row) : Decidable (CopiesTold floatValue settings columns holdout train) :=
  inferInstanceAs (Decidable (∀ r ∈ train, Past settings holdout r →
    (∃ h ∈ holdout, SameValues floatValue columns r h) → ∃ h ∈ holdout, rowKey columns r = rowKey columns h))

/-- What the checks are for: the safe rows are returned, in their order, and the counts account for the others. -/
structure Sound (train kept : List Row) (report : LeakageReport) : Prop where
  rows : kept = train.filter fun r => Safe floatValue settings columns holdout r
  counts : report.holdoutOverlapRemoved + report.holdoutDuplicatesRemoved + report.futureRowsRemoved +
    kept.length = train.length

variable {floatValue settings columns holdout} {r h : Row}

theorem notNewer_eq (rows : List Row) : notNewer settings holdout rows =
    rows.filter fun r => settings.allowFutureRows = true ∨ ∀ h ∈ holdout, r.observedAt ≤ h.observedAt := by
  unfold notNewer
  split
  · rename_i hnone
    have hempty : holdout = [] := by simpa using List.min?_eq_none_iff.mp hnone
    simp [hempty]
  · rename_i cutoff hmin
    by_cases hallow : settings.allowFutureRows = true
    · simp [hallow]
    · rw [if_neg hallow]
      apply List.filter_congr
      intro r _
      have hle : r.observedAt ≤ cutoff ↔ ∀ t ∈ holdout.map (·.observedAt), r.observedAt ≤ t :=
        List.le_min?_iff hmin
      simp [hallow, hle]

theorem kept_eq (train : List Row) : kept settings columns holdout train =
    train.filter fun r => Past settings holdout r ∧ rowKey columns r ∉ holdout.map (rowKey columns) := by
  rw [kept, notNewer_eq, copies, overlap, List.filter_filter, List.filter_filter]
  apply List.filter_congr
  intro r _
  simp only [Past, List.mem_map, ← Bool.decide_and, decide_eq_decide]
  constructor
  · rintro ⟨⟨htime, hkey⟩, hid⟩
    exact ⟨⟨fun h hh he => hid ⟨h, hh, he.symm⟩, htime⟩, hkey⟩
  · rintro ⟨⟨hid, htime⟩, hkey⟩
    refine ⟨⟨htime, hkey⟩, ?_⟩
    rintro ⟨h, hh, he⟩
    exact hid h hh he.symm

theorem wellFormed_value (r : Row) (c : String) : (value r c).WellFormed := by
  unfold value
  cases hget : r.payload.get c with
  | none => exact .null
  | some v =>
    obtain ⟨before, after, heq, -⟩ := List.lookup_eq_some_iff.mp hget
    cases r.payload.wellFormed with
    | obj hsorted hvalues => exact hvalues (c, v) (by rw [heq]; simp)

theorem same_of_rowKey (hsorted : columns.Pairwise (· < ·)) (hkey : rowKey columns r = rowKey columns h) :
    SameValues floatValue columns r h := by
  have hwell : ∀ r : Row, (Json.obj (columns.map fun c => (c, value r c))).WellFormed := by
    intro r
    have hkeys : (columns.map fun c => (c, value r c)).map Prod.fst = columns := by simp [Function.comp_def]
    refine .obj (by rwa [hkeys]) ?_
    · intro f hf
      obtain ⟨c, -, rfl⟩ := List.mem_map.mp hf
      exact wellFormed_value r c
  have hfields := Json.obj.inj (Json.dumps_inj (hwell r) (hwell h) hkey)
  intro c hc
  have hvalue : value r c = value h c := (Prod.mk.inj (List.map_inj_left.mp hfields c hc)).2
  rw [hvalue]
  exact Json.same_refl floatValue _

theorem kept_eq_safe_iff (hsorted : columns.Pairwise (· < ·)) (train : List Row) :
    kept settings columns holdout train = (train.filter fun r => Safe floatValue settings columns holdout r) ↔
      CopiesTold floatValue settings columns holdout train := by
  rw [kept_eq]
  constructor
  · rintro heq r hr hpast ⟨h, hh, hsame⟩
    by_contra hnone
    have hkey : rowKey columns r ∉ holdout.map (rowKey columns) := by
      rw [List.mem_map]
      rintro ⟨h', hh', he⟩
      exact hnone ⟨h', hh', he.symm⟩
    have hin : r ∈ train.filter fun r => Past settings holdout r ∧ rowKey columns r ∉ holdout.map (rowKey columns) :=
      List.mem_filter.mpr ⟨hr, decide_eq_true ⟨hpast, hkey⟩⟩
    rw [heq] at hin
    have hsafe : Safe floatValue settings columns holdout r := of_decide_eq_true (List.mem_filter.mp hin).2
    exact hsafe.2 h hh hsame
  · intro htold
    apply List.filter_congr
    intro r hr
    rw [decide_eq_decide]
    constructor
    · rintro ⟨hpast, hkey⟩
      refine ⟨hpast, fun h hh hsame => hkey ?_⟩
      obtain ⟨h', hh', he⟩ := htold r hr hpast ⟨h, hh, hsame⟩
      rw [he]
      exact List.mem_map_of_mem hh'
    · rintro ⟨hpast, hdiffers⟩
      refine ⟨hpast, fun hkey => ?_⟩
      obtain ⟨h, hh, heq⟩ := List.mem_map.mp hkey
      exact hdiffers h hh (same_of_rowKey hsorted heq.symm)

def checkedColumns (target : String) (featureNames : List String) : List String :=
  (target :: featureNames).dedup.insertionSort (· ≤ ·)

theorem checkedColumns_sorted (target : String) (featureNames : List String) :
    (checkedColumns target featureNames).Pairwise (· < ·) := by
  have hle : (checkedColumns target featureNames).Pairwise (· ≤ ·) := List.pairwise_insertionSort (· ≤ ·) _
  have hnodup : (checkedColumns target featureNames).Nodup :=
    (List.perm_insertionSort (· ≤ ·) _).nodup_iff.mpr (List.nodup_dedup _)
  exact (hle.and hnodup).imp fun h => lt_of_le_of_ne h.1 h.2

/-- What is returned is what may be trained on, exactly where copies are told by their text. -/
theorem sound_iff {targetLeaks : List Payload → List String} {train holdout kept : List Row} {target : String}
    {featureNames : List String} {settings : LeakageSettings} {report : LeakageReport}
    (henabled : settings.checksEnabled = true)
    (hrun : checkLeakage targetLeaks train holdout target featureNames settings = .ok (kept, report)) :
    Sound floatValue settings (checkedColumns target featureNames) holdout train kept report ↔
      CopiesTold floatValue settings (checkedColumns target featureNames) holdout train := by
  have hsorted := checkedColumns_sorted target featureNames
  unfold checkLeakage at hrun
  rw [if_neg (by simp [henabled])] at hrun
  simp only at hrun
  split at hrun
  · cases hrun
  split at hrun
  · cases hrun
  obtain ⟨rfl, rfl⟩ := Prod.mk.inj (Except.ok.inj hrun)
  have hover : (overlap holdout train).length ≤ train.length := List.length_filter_le ..
  have hcopies : (copies (checkedColumns target featureNames) holdout train).length ≤ (overlap holdout train).length :=
    List.length_filter_le ..
  have hkept : (Leakage.kept settings (checkedColumns target featureNames) holdout train).length ≤
      (copies (checkedColumns target featureNames) holdout train).length := by
    rw [Leakage.kept, notNewer_eq]
    exact List.length_filter_le ..
  constructor
  · intro h
    exact (kept_eq_safe_iff hsorted train).mp h.rows
  · intro h
    refine ⟨(kept_eq_safe_iff hsorted train).mpr h, ?_⟩
    change train.length - (overlap holdout train).length +
      ((overlap holdout train).length - (copies (checkedColumns target featureNames) holdout train).length) +
      ((copies (checkedColumns target featureNames) holdout train).length -
        (Leakage.kept settings (checkedColumns target featureNames) holdout train).length) +
      (Leakage.kept settings (checkedColumns target featureNames) holdout train).length = train.length
    omega

/-! ## An integer and the float it equals -/

theorem measured_wellFormed {x : Json} (h : x.WellFormed) : (Json.obj [("x", x), ("y", .int 2)]).WellFormed := by
  have hsorted : ["x", "y"].Pairwise (· < ·) := by decide +kernel
  refine .obj hsorted ?_
  intro f hf
  rcases List.mem_cons.mp hf with rfl | hf
  · exact h
  · rw [List.mem_singleton.mp hf]
    exact .int 2

theorem oneText_float : Json.IsFloatText "1.0".toList := by
  have htext : "1.0".toList = ['1', '.', '0'] := rfl
  rw [htext]
  exact ⟨by simp [Json.numberChar, Char.isDigit], '.', by simp, rfl⟩

/-- A row of a version whose column is of integers. -/
def intRow (x : Int) : Row :=
  ⟨1, 1, VersionCall.atHour 0, ⟨[("x", .int x), ("y", .int 2)], measured_wellFormed (.int x)⟩, none⟩

def floatRow : Row :=
  ⟨2, 2, VersionCall.atHour 1, ⟨[("x", .float "1.0"), ("y", .int 2)],
    measured_wellFormed (.float oneText_float)⟩, none⟩

def oneOnly (r : String) : Rat := if r = "1.0" then 1 else 0

theorem checkLeakage_intRow {x : Int} (h : Past {} [floatRow] (intRow x) ∧
    rowKey (checkedColumns "y" ["x"]) (intRow x) ∉ [floatRow].map (rowKey (checkedColumns "y" ["x"]))) :
    ∃ report, checkLeakage (fun _ => []) [intRow x] [floatRow] "y" ["x"] {} = .ok ([intRow x], report) := by
  have hkept : Leakage.kept {} (checkedColumns "y" ["x"]) [floatRow] [intRow x] = [intRow x] := by
    rw [kept_eq, List.filter_eq_self]
    intro r hr
    rw [List.mem_singleton.mp hr]
    exact decide_eq_true h
  have hcolumns : checkedColumns "y" ["x"] = ["x", "y"] := by decide +kernel
  rw [hcolumns] at hkept
  simp [checkLeakage, hkept]

/-- An older row with the held-out row's values. -/
def copiedRow : Row := { floatRow with id := 3, dataVersionId := 1, observedAt := VersionCall.atHour 0 }

/-- A row with the held-out row's id. -/
def overlappingRow : Row := { intRow 4 with id := 2 }

def newerRow : Row := { intRow 5 with id := 4, observedAt := VersionCall.atHour 2 }

def mixedRows : List Row := [intRow 3, copiedRow, overlappingRow, newerRow]

theorem kept_mixedRows : Leakage.kept {} (checkedColumns "y" ["x"]) [floatRow] mixedRows = [intRow 3] := by
  have hother : Past {} [floatRow] (intRow 3) ∧
      rowKey (checkedColumns "y" ["x"]) (intRow 3) ∉ [floatRow].map (rowKey (checkedColumns "y" ["x"])) := by decide +kernel
  have hrest : ∀ r ∈ [copiedRow, overlappingRow, newerRow], ¬ (Past {} [floatRow] r ∧
      rowKey (checkedColumns "y" ["x"]) r ∉ [floatRow].map (rowKey (checkedColumns "y" ["x"]))) := by decide +kernel
  rw [kept_eq]
  unfold mixedRows
  rw [List.filter_cons, if_pos (decide_eq_true hother), List.filter_eq_nil_iff.mpr]
  exact fun r hr hkept => hrest r hr (of_decide_eq_true hkept)

/-- Of a row with other values, a copy, a row with a held-out id and a newer row the first is returned, as it should be. -/
theorem sound_other : ∃ report, checkLeakage (fun _ => []) mixedRows [floatRow] "y" ["x"] {} = .ok ([intRow 3], report) ∧
    report.holdoutOverlapRemoved = 1 ∧ report.holdoutDuplicatesRemoved = 1 ∧ report.futureRowsRemoved = 1 ∧
    Sound oneOnly {} (checkedColumns "y" ["x"]) [floatRow] mixedRows [intRow 3] report := by
  have hkept := kept_mixedRows
  have hcounts : (overlap [floatRow] mixedRows).length = 3 ∧
      (copies (checkedColumns "y" ["x"]) [floatRow] mixedRows).length = 2 := by decide +kernel
  have hcolumns : checkedColumns "y" ["x"] = ["x", "y"] := by decide +kernel
  have hrun : checkLeakage (fun _ => []) mixedRows [floatRow] "y" ["x"] {} = .ok ([intRow 3],
      { Leakage.report {} (checkedColumns "y" ["x"]) [floatRow] mixedRows with targetLeakage := [] }) := by
    rw [hcolumns] at hkept ⊢
    simp [checkLeakage, hkept]
  refine ⟨_, hrun, ?_, ?_, ?_, (sound_iff rfl hrun).mpr (by decide +kernel)⟩
  · change mixedRows.length - (overlap [floatRow] mixedRows).length = 1
    rw [hcounts.1]
    rfl
  · change (overlap [floatRow] mixedRows).length - (copies (checkedColumns "y" ["x"]) [floatRow] mixedRows).length = 1
    rw [hcounts.1, hcounts.2]
  · change (copies (checkedColumns "y" ["x"]) [floatRow] mixedRows).length -
      (Leakage.kept {} (checkedColumns "y" ["x"]) [floatRow] mixedRows).length = 1
    rw [hcounts.2, hkept]
    rfl

/-- A copy of the held-out row with 1 for 1.0 is returned. -/
theorem integer_copy_kept : ∃ kept report, checkLeakage (fun _ => []) [intRow 1] [floatRow] "y" ["x"] {} =
    .ok (kept, report) ∧
    ¬ Sound oneOnly {} (checkedColumns "y" ["x"]) [floatRow] [intRow 1] kept report := by
  have hpast : Past {} [floatRow] (intRow 1) ∧
      rowKey (checkedColumns "y" ["x"]) (intRow 1) ∉ [floatRow].map (rowKey (checkedColumns "y" ["x"])) := by decide +kernel
  obtain ⟨report, hrun⟩ := checkLeakage_intRow hpast
  refine ⟨_, report, hrun, fun h => ?_⟩
  have hlength := congrArg List.length h.rows
  revert hlength
  decide +kernel

end Leakage

end OranAdapt
