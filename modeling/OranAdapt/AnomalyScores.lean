import OranAdapt.Gate
import Mathlib.Tactic.FieldSimp

/-!
# Scores of anomaly detectors

What `validation.metrics` and the gate report of a detector's flags, in exact
arithmetic. Labels come as 0 and 1 or as booleans, predictions as -1 and 1, and
which of the two a vector holds is guessed from the values in it. A vector has
one type: booleans in a vector of objects would be read as the numbers 0 and 1.
-/

namespace OranAdapt.AnomalyScores

open Gate

/-! ## The metric set -/

section
variable {F : Type} [Field F] [LinearOrder F]

def count (truth flagged : List Bool) (pair : Bool × Bool) : Nat := (truth.zip flagged).count pair

/-- A ratio of counts with `zero_division=0`. -/
def ratio (num den : Nat) : F := if den = 0 then 0 else num / den

def confusionF1 (truth flagged : List Bool) : F :=
  ratio (2 * count truth flagged (true, true))
    (2 * count truth flagged (true, true) + count truth flagged (false, true) + count truth flagged (true, false))

/-- `sklearn.metrics` on flags, where `f1_score` is that of the confusion counts. -/
structure FlagScores (F : Type) [Field F] where
  precisionScore : List Bool → List Bool → F
  recallScore : List Bool → List Bool → F
  f1Score : List Bool → List Bool → F
  averagePrecisionScore : List Bool → List F → Option F
  f1_counts (truth flagged : List Bool) : truth.length = flagged.length → f1Score truth flagged = confusionF1 truth flagged

variable (skm : FlagScores F)

def anomaly (yTrue yPred : Labels F) (yScore : Option (List F)) : List (String × Option F) :=
  let truth := anomalyFlags yTrue
  let pred := anomalyFlags yPred
  [("precision", some (skm.precisionScore truth pred)), ("recall", some (skm.recallScore truth pred)),
    ("f1", some (skm.f1Score truth pred))] ++
  match yScore with
  | some score =>
    if 0 < truth.count true ∧ truth.count true < truth.length then
      [("pr_auc", skm.averagePrecisionScore truth score)] else []
  | none => []

def finite (values : List (String × Option F)) : List (String × F) := values.filterMap fun p => p.2.map (p.1, ·)

def primaryFirst (primary : String) (out : List (String × F)) : List (String × F) :=
  match out.lookup primary with
  | some value => (primary, value) :: out.filter (·.1 ≠ primary)
  | none => out

def computeMetrics (yTrue : Option (Labels F)) (yPred : Labels F) (yScore : Option (List F)) : List (String × F) :=
  match yTrue with
  | some yTrue => primaryFirst "f1" (finite (anomaly skm yTrue yPred yScore))
  | none => []

theorem length_anomalyFlags (l : Labels F) : (anomalyFlags l).length = l.size := by
  cases l with
  | bools l => rfl
  | numbers l =>
    rw [anomalyFlags, Labels.size]
    split <;> rw [List.length_map]
  | texts l => rw [anomalyFlags, Labels.size, List.length_map]

theorem lookup_f1 {yTrue yPred : Labels F} (hsize : yTrue.size = yPred.size) (yScore : Option (List F)) :
    (computeMetrics skm (some yTrue) yPred yScore).lookup "f1" =
      some (confusionF1 (anomalyFlags yTrue) (anomalyFlags yPred)) := by
  have hlength : (anomalyFlags yTrue).length = (anomalyFlags yPred).length := by
    rw [length_anomalyFlags, length_anomalyFlags, hsize]
  have hf1 : (finite (anomaly skm yTrue yPred yScore)).lookup "f1" =
      some (confusionF1 (anomalyFlags yTrue) (anomalyFlags yPred)) := by
    rw [← skm.f1_counts _ _ hlength]
    simp [finite, anomaly, List.lookup_cons]
  simp [computeMetrics, primaryFirst, hf1]

end

/-! ## What labels and predictions mean -/

inductive Encoding where
  | bool | number
deriving DecidableEq, Repr

section
variable {F : Type} [Field F]

/-- Labels that mark these rows as anomalies. -/
def labels : Encoding → List Bool → Labels F
  | .bool, truth => .bools truth
  | .number, truth => .numbers (truth.map ofBool)

/-- What a detector predicts that flags these rows. -/
def detections (flagged : List Bool) : Labels F := .numbers (flagged.map fun f => if f then -1 else 1)

theorem size_labels (encoding : Encoding) (truth : List Bool) : (labels encoding truth : Labels F).size = truth.length := by
  cases encoding with
  | bool => rfl
  | number => exact List.length_map _

theorem size_detections (flagged : List Bool) : (detections flagged : Labels F).size = flagged.length :=
  List.length_map _

def masked (mask : List Bool) : Labels F → Labels F
  | .bools l => .bools (select l mask)
  | .numbers l => .numbers (select l mask)
  | .texts l => .texts (select l mask)

end

theorem select_map {α β : Type} (f : α → β) (l : List α) (mask : List Bool) :
    select (l.map f) mask = (select l mask).map f := by
  induction l generalizing mask with
  | nil => simp [select]
  | cons a l ih =>
    cases mask with
    | nil => simp [select]
    | cons b mask =>
      have hrest := ih mask
      unfold select at hrest ⊢
      cases b <;> simp [hrest]

theorem select_subset {α : Type} {l : List α} {mask : List Bool} {a : α} (h : a ∈ select l mask) : a ∈ l := by
  obtain ⟨p, hp, hsome⟩ := List.mem_filterMap.mp h
  by_cases hb : p.2 = true
  · rw [if_pos hb] at hsome
    cases hsome
    exact (List.of_mem_zip hp).1
  · rw [if_neg hb] at hsome
    cases hsome

section
variable {F : Type} [Field F] [LinearOrder F]

omit [LinearOrder F] in
theorem masked_labels (mask : List Bool) (encoding : Encoding) (truth : List Bool) :
    masked mask (labels encoding truth : Labels F) = labels encoding (select truth mask) := by
  cases encoding with
  | bool => rfl
  | number => simp [labels, masked, select_map]

omit [LinearOrder F] in
theorem masked_detections (mask flagged : List Bool) :
    masked mask (detections flagged : Labels F) = detections (select flagged mask) := by
  simp [detections, masked, select_map]

variable [IsStrictOrderedRing F]

theorem flags_detections (flagged : List Bool) : anomalyFlags (detections flagged : Labels F) = flagged := by
  have hone : (1 : F) ≠ -1 := by
    have : (-1 : F) < 1 := by linarith [zero_lt_one (α := F)]
    exact this.ne'
  have hall : ∀ x ∈ flagged.map (fun f => if f then (-1 : F) else 1), x = -1 ∨ x = 1 := by
    intro x hx
    obtain ⟨f, -, rfl⟩ := List.mem_map.mp hx
    cases f <;> simp
  rw [detections, anomalyFlags, if_pos hall, List.map_map]
  conv_rhs => rw [← List.map_id flagged]
  apply List.map_congr_left
  intro f _
  cases f <;> simp [hone]

theorem flags_numbers (truth : List Bool) :
    anomalyFlags (labels .number truth : Labels F) = if ∀ t ∈ truth, t = true then truth.map fun _ => false
      else truth := by
  have hneg : (1 : F) ≠ -1 ∧ (0 : F) ≠ -1 := by
    have : (-1 : F) < 0 := by linarith [zero_lt_one (α := F)]
    exact ⟨(this.trans zero_lt_one).ne', this.ne'⟩
  have hread : (∀ x ∈ truth.map (ofBool (F := F)), x = -1 ∨ x = 1) ↔ ∀ t ∈ truth, t = true := by
    rw [List.forall_mem_map]
    refine forall₂_congr fun t _ => ?_
    cases t <;> simp [ofBool, hneg.2]
  rw [labels, anomalyFlags]
  by_cases hall : ∀ t ∈ truth, t = true
  · rw [if_pos hall, if_pos (hread.mpr hall), List.map_map]
    apply List.map_congr_left
    intro t ht
    simp [ofBool, hall t ht, hneg.1]
  · rw [if_neg hall, if_neg (mt hread.mp hall), List.map_map]
    conv_rhs => rw [← List.map_id truth]
    apply List.map_congr_left
    intro t _
    cases t <;> simp [ofBool]

/-! ## The gate's per-row form -/

omit [LinearOrder F] [IsStrictOrderedRing F] in
theorem sum_flagRow (truth flagged : List Bool) (pair : Bool × Bool) (j : Nat)
    (hcell : ∀ t f, flagRow (F := F) t f j = if (t, f) = pair then 1 else 0) :
    ((truth.zipWith flagRow flagged).map fun r : Gate.Row F => r j).sum = count truth flagged pair := by
  unfold count
  induction truth generalizing flagged with
  | nil => simp
  | cons t truth ih =>
    cases flagged with
    | nil => simp
    | cons f flagged =>
      rw [List.zipWith_cons_cons, List.map_cons, List.sum_cons, hcell, ih, List.zip_cons_cons, List.count_cons]
      by_cases h : (t, f) = pair
      · simp [h, add_comm]
      · simp [h]

omit [LinearOrder F] [IsStrictOrderedRing F] in
theorem mean_flagRow (truth flagged : List Bool) (pair : Bool × Bool) (j : Nat)
    (hcell : ∀ t f, flagRow (F := F) t f j = if (t, f) = pair then 1 else 0) :
    mean (truth.zipWith flagRow flagged) j = (count truth flagged pair : F) / (min truth.length flagged.length : Nat) := by
  rw [mean, Quantile.mean, sum_flagRow truth flagged pair j hcell]
  simp

theorem ratio_means {n tp fp fn : Nat} (hn : n = 0 → 2 * tp + fp + fn = 0) :
    (if 0 < 2 * ((tp : F) / n) + fp / n + fn / n then 2 * ((tp : F) / n) / (2 * (tp / n) + fp / n + fn / n) else 0) =
      ratio (2 * tp) (2 * tp + fp + fn) := by
  have hsum : 2 * ((tp : F) / n) + fp / n + fn / n = ((2 * tp + fp + fn : Nat) : F) / n := by
    push_cast
    ring
  rw [hsum, ratio]
  by_cases hden : 2 * tp + fp + fn = 0
  · simp [hden]
  · have hpos : (0 : F) < n := by
      rw [Nat.cast_pos]
      exact Nat.pos_of_ne_zero fun h => hden (hn h)
    have hden' : (0 : F) < ((2 * tp + fp + fn : Nat) : F) := Nat.cast_pos.mpr (Nat.pos_of_ne_zero hden)
    rw [if_pos (div_pos hden' hpos), if_neg hden]
    push_cast
    field_simp

theorem count_le (truth flagged : List Bool) (pair : Bool × Bool) :
    count truth flagged pair ≤ min truth.length flagged.length := by
  rw [← List.length_zip]
  exact List.count_le_length

theorem point_f1 (truth flagged : List Bool) : point (truth.zipWith (flagRow (F := F)) flagged) f1 =
    confusionF1 truth flagged := by
  have htp := mean_flagRow (F := F) truth flagged (true,
    true) 0 (by intro t f; cases t <;> cases f <;> simp [flagRow, ofBool])
  have hfp := mean_flagRow (F := F) truth flagged (false,
    true) 1 (by intro t f; cases t <;> cases f <;> simp [flagRow, ofBool])
  have hfn := mean_flagRow (F := F) truth flagged (true,
    false) 2 (by intro t f; cases t <;> cases f <;> simp [flagRow, ofBool])
  rw [point, f1, htp, hfp, hfn, confusionF1]
  apply ratio_means
  intro hn
  have hle := count_le truth flagged
  simp only [hn, Nat.le_zero] at hle
  simp [hle]

omit [IsStrictOrderedRing F] in
theorem rows_done (h : GateHost F) (y pred : Labels F) (X : List (List F)) (sample : List Nat) :
    rows h "f1" (some y) pred X sample = .ok ((anomalyFlags y).zipWith flagRow (anomalyFlags pred), f1) := by
  simp [rows, labelsOr, bind, Except.bind]

/-! ## Scores under the meanings -/

theorem confusionF1_eq_zero_iff (truth flagged : List Bool) :
    confusionF1 (F := F) truth flagged = 0 ↔ count truth flagged (true, true) = 0 := by
  rw [confusionF1, ratio]
  constructor
  · intro h
    by_contra hne
    have hden : 2 * count truth flagged (true, true) + count truth flagged (false, true) +
        count truth flagged (true, false) ≠ 0 := by
      omega
    rw [if_neg hden, div_eq_zero_iff, Nat.cast_eq_zero, Nat.cast_eq_zero] at h
    omega
  · intro h
    simp [h]

/-- Flags that are never raised score nothing. -/
theorem confusionF1_false (truth flagged : List Bool) : confusionF1 (F := F) (truth.map fun _ => false) flagged = 0 := by
  rw [confusionF1_eq_zero_iff, count, List.count_eq_zero]
  intro hmem
  have := (List.of_mem_zip hmem).1
  simp at this

/-- Among anomalies alone every flag is a hit. -/
theorem count_anomalies {truth flagged : List Bool} (hlength : truth.length = flagged.length)
    (hall : ∀ t ∈ truth, t = true) :
    count truth flagged (true, true) = 0 ↔ ∀ f ∈ flagged, f = false := by
  rw [count, List.count_eq_zero]
  constructor
  · intro hnone f hf
    rw [← Bool.not_eq_true]
    rintro rfl
    obtain ⟨i, hi, hget⟩ := List.mem_iff_getElem.mp hf
    have hpair := List.getElem_mem (l := truth.zip flagged) (n := i) (by rw [List.length_zip]; omega)
    rw [List.getElem_zip, hget, hall _ (List.getElem_mem _)] at hpair
    exact hnone hpair
  · intro hnone hmem
    have := hnone _ (List.of_mem_zip hmem).2
    cases this

/-- The f1 of both reports under the meanings, and flags that do not depend on the rows around them. -/
structure KeepsMeaning (skm : FlagScores F) (h : GateHost F) (encoding : Encoding)
    (truth flagged mask : List Bool) : Prop where
  scored : ∀ score, (computeMetrics skm (some (labels encoding truth)) (detections flagged) score).lookup "f1" =
    some (confusionF1 truth flagged)
  gated : ∀ X sample, ∃ cells stat, rows h "f1" (some (labels encoding truth)) (detections flagged) X sample =
    .ok (cells, stat) ∧
    point cells stat = confusionF1 truth flagged
  part : anomalyFlags (masked mask (labels encoding truth : Labels F)) =
    select (anomalyFlags (labels encoding truth : Labels F)) mask
  detected : anomalyFlags (masked mask (detections flagged : Labels F)) =
    select (anomalyFlags (detections flagged : Labels F)) mask

variable (skm : FlagScores F) (h : GateHost F) {truth flagged mask : List Bool}

theorem keepsMeaning_iff_flags (encoding : Encoding) (hlength : truth.length = flagged.length) :
    KeepsMeaning skm h encoding truth flagged mask ↔
    confusionF1 (F := F) (anomalyFlags (labels encoding truth : Labels F)) flagged = confusionF1 truth flagged ∧
      anomalyFlags (labels encoding (select truth mask) : Labels F) =
        select (anomalyFlags (labels encoding truth : Labels F)) mask := by
  have hsize : (labels encoding truth : Labels F).size = (detections flagged : Labels F).size := by
    rw [size_labels, size_detections, hlength]
  constructor
  · intro hkeeps
    have hscored := hkeeps.scored none
    rw [lookup_f1 skm hsize, flags_detections, Option.some.injEq] at hscored
    refine ⟨hscored, ?_⟩
    rw [← masked_labels]
    exact hkeeps.part
  · rintro ⟨hscore, hpart⟩
    constructor
    · intro score
      rw [lookup_f1 skm hsize, flags_detections, hscore]
    · intro X sample
      refine ⟨_, _, rows_done h _ _ X sample, ?_⟩
      rw [flags_detections, point_f1, hscore]
    · rw [masked_labels, hpart]
    · rw [masked_detections, flags_detections, flags_detections]

/-- Labels of 0 and 1 are read as they are meant unless none of them is 0. -/
theorem keepsMeaning_iff (encoding : Encoding) (hlength : truth.length = flagged.length) :
    KeepsMeaning skm h encoding truth flagged mask ↔
      encoding = .bool ∨
        ((∀ t ∈ truth, t = true) → ∀ f ∈ flagged, f = false) ∧
          ((∀ t ∈ select truth mask, t = true) → select truth mask = [] ∨ ∀ t ∈ truth, t = true) := by
  rw [keepsMeaning_iff_flags skm h encoding hlength]
  cases encoding with
  | bool => simp [labels, anomalyFlags]
  | number =>
    rw [flags_numbers, flags_numbers]
    by_cases hall : ∀ t ∈ truth, t = true
    · have hpart : ∀ t ∈ select truth mask, t = true := fun t ht => hall t (select_subset ht)
      rw [if_pos hall, if_pos hpart, confusionF1_false, eq_comm, confusionF1_eq_zero_iff,
        count_anomalies hlength hall, select_map]
      constructor
      · intro hnone
        exact .inr ⟨fun _ => hnone.1, fun _ => .inr hall⟩
      · rintro (hbool | hboth)
        · cases hbool
        · exact ⟨hboth.1 hall, rfl⟩
    · rw [if_neg hall]
      by_cases hpart : ∀ t ∈ select truth mask, t = true
      · have hnil : (select truth mask).map (fun _ => false) = select truth mask ↔ select truth mask = [] := by
          cases hselect : select truth mask with
          | nil => simp
          | cons t rest =>
            have ht := hpart t (by simp [hselect])
            simp [ht]
        rw [if_pos hpart, hnil]
        constructor
        · intro hboth
          exact .inr ⟨fun h => absurd h hall, fun _ => .inl hboth.2⟩
        · rintro (hbool | hboth)
          · cases hbool
          · exact ⟨rfl, (hboth.2 hpart).resolve_right hall⟩
      · rw [if_neg hpart]
        exact iff_of_true ⟨rfl, rfl⟩ (.inr ⟨fun h => absurd h hall, fun h => absurd h hpart⟩)

end

/-! ## A hold-out of anomalies alone -/

def countedScores : FlagScores Rat where
  precisionScore truth flagged :=
    ratio (count truth flagged (true, true)) (count truth flagged (true, true) + count truth flagged (false, true))
  recallScore truth flagged :=
    ratio (count truth flagged (true, true)) (count truth flagged (true, true) + count truth flagged (true, false))
  f1Score := confusionF1
  averagePrecisionScore _ _ := none
  f1_counts _ _ _ := rfl

def plainHost : GateHost Rat where
  sqrt x := x
  fixed4 _ := ""
  signed4 _ := ""
  percent _ := ""
  text _ := ""
  quoted s := s
  round6 x := x
  float? _ := none
  silhouetteSamples _ _ := []
  sqrt_mono _ _ _ h := h

theorem keepsMeaning_mixed :
    KeepsMeaning countedScores plainHost .number [true, false, true] [true, false, false] [true, true, false] :=
  (keepsMeaning_iff countedScores plainHost .number (by decide)).mpr (by decide)

/-- Both anomalies are found, and the score is that of a detector that finds none. -/
theorem anomalies_alone_lost :
    (computeMetrics countedScores (some (labels .number [true, true])) (detections [true, true]) none).lookup
      "f1" = some 0 ∧
      confusionF1 (F := Rat) [true, true] [true, true] = 1 ∧
      ¬KeepsMeaning countedScores plainHost .number [true, true] [true, true] [true, false] := by
  have hlost : (computeMetrics countedScores (some (labels .number [true, true]))
    (detections [true, true]) none).lookup "f1" =
      some 0 := by decide +kernel
  have hscore : confusionF1 (F := Rat) [true, true] [true, true] = 1 := by decide +kernel
  refine ⟨hlost, hscore, fun hkeeps => ?_⟩
  have hscored := hkeeps.scored none
  rw [hlost, hscore] at hscored
  exact absurd hscored (by decide)

end OranAdapt.AnomalyScores
