import OranAdapt.Gate
import Mathlib.Analysis.Real.Sqrt
import Mathlib.Tactic.Positivity

/-!
# The gate respects dominance

A candidate that is on no row better than the incumbent scores no better on
any draw of the rows, since both are scored on the same draw. The interval of
its improvement then never lies above zero, and of a candidate that is on
every row at least as good it never reaches below.
-/

namespace OranAdapt.Gate

open Metrics

/-- The metrics that are a mean over the rows, a root of one, or a ratio of such means. -/
inductive RowMetric where
  | accuracy | rmse | f1
deriving DecidableEq, Repr

def RowMetric.name : RowMetric → String
  | accuracy => "accuracy"
  | rmse => "rmse"
  | f1 => "f1"

def RowMetric.higherBetter : RowMetric → Bool
  | accuracy => true
  | rmse => false
  | f1 => true

variable {F κ σ : Type} [Field F] [LinearOrder F] (h : GateHost F)

def squaredErrors (truth guess : List F) : List F := truth.zipWith (fun t g => (t - g) ^ 2) guess

def NoBetter (m : RowMetric) (y a b : Labels F) : Prop :=
  match m with
  | .accuracy => List.Forall₂ (fun hit hit' => hit = true → hit' = true) (y.same a) (y.same b)
  | .rmse => ∀ truth guess guess', y.floats h = .ok truth → a.floats h = .ok guess → b.floats h = .ok guess' →
      List.Forall₂ (· ≤ ·) (squaredErrors truth guess') (squaredErrors truth guess)
  | .f1 => List.Forall₂ (fun right right' => right = true → right' = true)
      ((anomalyFlags y).zipWith (· == ·) (anomalyFlags a)) ((anomalyFlags y).zipWith (· == ·) (anomalyFlags b))

/-- The labels and both models' predictions stand by the rows, and there are some. -/
structure Question.Aligned (q : Question F κ) (y : Labels F) : Prop where
  labelled : q.y = some y
  rows : q.X ≠ []
  labels : y.size = q.X.length
  current : q.current.predictions.size = q.X.length
  candidate : q.candidate.predictions.size = q.X.length

/-! ## Rows -/

def Worse (m : RowMetric) (a b : Row F) : Prop :=
  match m with
  | .accuracy => a 0 ≤ b 0
  | .rmse => 0 ≤ b 0 ∧ b 0 ≤ a 0
  | .f1 => 0 ≤ a 0 ∧ 0 ≤ b 1 ∧ 0 ≤ b 2 ∧ a 0 ≤ b 0 ∧ b 1 ≤ a 1 ∧ b 2 ≤ a 2

def statOf : RowMetric → Stat F
  | .accuracy => meanStat
  | .rmse => rootMean h
  | .f1 => f1

section
variable [IsStrictOrderedRing F]

theorem mean_col {as bs : List (Row F)} {j k : Nat} (hrows : List.Forall₂ (fun a b => a j ≤ b k) as bs) :
    mean as j ≤ mean bs k := by
  apply Quantile.mean_le_mean
  rw [List.forall₂_map_left_iff, List.forall₂_map_right_iff]
  exact hrows

theorem mean_col_nonneg {as : List (Row F)} {j : Nat} (hrows : ∀ a ∈ as, 0 ≤ a j) : 0 ≤ mean as j := by
  apply Quantile.mean_nonneg
  intro x hx
  obtain ⟨a, ha, rfl⟩ := List.mem_map.mp hx
  exact hrows a ha

theorem forall_left {α β : Type} {R : α → β → Prop} {p : α → Prop} {as : List α} {bs : List β}
    (hrows : List.Forall₂ R as bs) (hp : ∀ a b, R a b → p a) : ∀ a ∈ as, p a := by
  induction hrows with
  | nil => simp
  | cons hab _ ih =>
    intro a ha
    rcases List.mem_cons.mp ha with rfl | ha
    · exact hp _ _ hab
    · exact ih a ha

theorem forall_right {α β : Type} {R : α → β → Prop} {p : β → Prop} {as : List α} {bs : List β}
    (hrows : List.Forall₂ R as bs) (hp : ∀ a b, R a b → p b) : ∀ b ∈ bs, p b :=
  forall_left hrows.flip fun b a hab => hp a b hab

theorem worse_mean {m : RowMetric} {as bs : List (Row F)} (hrows : List.Forall₂ (Worse m) as bs) :
    Worse m (mean as) (mean bs) := by
  cases m with
  | accuracy => exact mean_col hrows
  | rmse =>
    exact ⟨mean_col_nonneg (forall_right hrows fun _ _ hab => hab.1), mean_col (hrows.flip.imp fun _ _ hab => hab.2)⟩
  | f1 =>
    refine ⟨mean_col_nonneg (forall_left hrows fun _ _ hab => hab.1),
      mean_col_nonneg (forall_right hrows fun _ _ hab => hab.2.1),
      mean_col_nonneg (forall_right hrows fun _ _ hab => hab.2.2.1), ?_, ?_, ?_⟩
    · exact mean_col (hrows.imp fun _ _ hab => hab.2.2.2.1)
    · exact mean_col (hrows.flip.imp fun _ _ hab => hab.2.2.2.2.1)
    · exact mean_col (hrows.flip.imp fun _ _ hab => hab.2.2.2.2.2)

theorem f1_nonneg {m : Row F} (htp : 0 ≤ m 0) : 0 ≤ f1 m := by
  unfold f1
  split
  · rename_i hpos
    exact div_nonneg (mul_nonneg zero_le_two htp) hpos.le
  · exact le_refl 0

/-- More true positives and fewer of both errors never lower the score, which is zero where
nothing is or should be flagged. -/
theorem f1_mono {a b : Row F} (hab : Worse .f1 a b) : f1 a ≤ f1 b := by
  obtain ⟨ha, hfp, hfn, htp, hfp', hfn'⟩ := hab
  have hb : 0 ≤ b 0 := ha.trans htp
  by_cases hzero : a 0 = 0
  · have : f1 a = 0 := by simp [f1, hzero]
    rw [this]
    exact f1_nonneg hb
  · have hapos : 0 < a 0 := lt_of_le_of_ne ha (Ne.symm hzero)
    have hda : 0 < 2 * a 0 + a 1 + a 2 := by linarith
    have hdb : 0 < 2 * b 0 + b 1 + b 2 := by linarith
    have herr : a 0 * (b 1 + b 2) ≤ b 0 * (a 1 + a 2) :=
      mul_le_mul htp (by linarith) (by linarith) hb
    rw [f1, f1, if_pos hda, if_pos hdb, div_le_div_iff₀ hda hdb]
    linarith

theorem stat_worse {m : RowMetric} {a b : Row F} (hab : Worse m a b) :
    signOf m.higherBetter * (statOf h m a - statOf h m b) ≤ 0 := by
  cases m with
  | accuracy =>
    have : a 0 ≤ b 0 := hab
    simpa [signOf, RowMetric.higherBetter, statOf, meanStat] using this
  | rmse =>
    have hroot : h.sqrt (b 0) ≤ h.sqrt (a 0) := h.sqrt_mono _ _ hab.1 hab.2
    simpa [signOf, RowMetric.higherBetter, statOf, rootMean] using hroot
  | f1 =>
    have hscore : f1 a ≤ f1 b := f1_mono hab
    simpa [signOf, RowMetric.higherBetter, statOf] using hscore

end

/-! ## Draws -/

theorem getElem?_forall₂ {α β : Type} {R : α → β → Prop} {as : List α} {bs : List β}
    (hrows : List.Forall₂ R as bs)
    (i : Nat) : (as[i]? = none ∧ bs[i]? = none) ∨ ∃ a b, as[i]? = some a ∧ bs[i]? = some b ∧ R a b := by
  induction hrows generalizing i with
  | nil => exact .inl ⟨rfl, rfl⟩
  | cons hab _ ih =>
    cases i with
    | zero => exact .inr ⟨_, _, rfl, rfl, hab⟩
    | succ i => exact ih i

/-- One draw picks rows that stand beside each other. -/
theorem pick_forall₂ {α β : Type} {R : α → β → Prop} {as : List α} {bs : List β} (hrows : List.Forall₂ R as bs)
    (idx : List Nat) : List.Forall₂ R (pick as idx) (pick bs idx) := by
  unfold pick
  induction idx with
  | nil => exact .nil
  | cons i idx ih =>
    rcases getElem?_forall₂ hrows i with ⟨ha, hb⟩ | ⟨a, b, ha, hb, hab⟩
    · rw [List.filterMap_cons_none ha, List.filterMap_cons_none hb]
      exact ih
    · rw [List.filterMap_cons_some ha, List.filterMap_cons_some hb]
      exact .cons hab ih

section
variable (rng : Generator σ) {cur cand : List (Row F)} {stat : Stat F} {sign : F}

omit [LinearOrder F] in
theorem mem_bootstrap {sizes : List Nat} {r : σ} {d : F} (hd : d ∈ bootstrap rng cur cand stat sign sizes r) :
    ∃ idx, d = sign * (stat (mean (pick cand idx)) - stat (mean (pick cur idx))) := by
  induction sizes generalizing r with
  | nil => cases hd
  | cons size sizes ih =>
    rcases List.mem_append.mp hd with hd | hd
    · obtain ⟨idx, -, rfl⟩ := List.mem_map.mp hd
      exact ⟨idx, rfl⟩
    · exact ih hd

theorem mem_diffs {policy : Policy F} {r : σ} {d : F} (hd : d ∈ diffs rng policy cur cand stat sign r) :
    ∃ idxs : List (List Nat), d = sign * (stat (mean (idxs.foldl pick cand)) - stat (mean (idxs.foldl pick cur))) := by
  unfold diffs at hd
  split at hd
  · obtain ⟨idx, rfl⟩ := mem_bootstrap rng hd
    exact ⟨[_, idx], rfl⟩
  · obtain ⟨idx, rfl⟩ := mem_bootstrap rng hd
    exact ⟨[idx], rfl⟩

theorem picks_forall₂ {α β : Type} {R : α → β → Prop} (idxs : List (List Nat)) :
    ∀ {as : List α} {bs : List β}, List.Forall₂ R as bs →
      List.Forall₂ R (idxs.foldl pick as) (idxs.foldl pick bs) := by
  induction idxs with
  | nil => exact fun hrows => hrows
  | cons idx idxs ih => exact fun hrows => ih (pick_forall₂ hrows idx)

theorem batchSizes_cons (policy : Policy F) :
    ∃ size sizes, batchSizes policy.resamples policy.batch = size :: sizes ∧ 0 < size := by
  have hresamples := policy.resamples_le
  have hbatch := policy.batch_pos
  have hcount : 0 < (policy.resamples + policy.batch - 1) / policy.batch :=
    Nat.div_pos (by omega) hbatch
  obtain ⟨k, hk⟩ := Nat.exists_eq_add_one_of_ne_zero hcount.ne'
  rw [batchSizes, hk, List.range_succ_eq_map, List.map_cons]
  exact ⟨_, _, rfl, by omega⟩

theorem bootstrap_ne_nil (policy : Policy F) (hne : 0 < cur.length) (r : σ) :
    bootstrap rng cur cand stat sign (batchSizes policy.resamples policy.batch) r ≠ [] := by
  obtain ⟨size, sizes, heq, hsize⟩ := batchSizes_cons policy
  rw [heq, bootstrap]
  apply List.append_ne_nil_of_left_ne_nil
  rw [ne_eq, List.map_eq_nil_iff, ← List.length_eq_zero_iff, rng.integers_length r _ _ _ hne]
  omega

theorem pick_length {α : Type} {rows : List α} : ∀ {idx : List Nat}, (∀ i ∈ idx, i < rows.length) →
    (pick rows idx).length = idx.length
  | [], _ => rfl
  | i :: idx, hidx => by
    have hi : rows[i]? = some (rows.get ⟨i, hidx i List.mem_cons_self⟩) := List.getElem?_eq_getElem _
    rw [pick, List.filterMap_cons_some hi, List.length_cons, List.length_cons]
    exact congrArg (· + 1) (pick_length fun j hj => hidx j (List.mem_cons_of_mem _ hj))

theorem diffs_ne_nil (policy : Policy F) (hne : 0 < cur.length) (r : σ) : diffs rng policy cur cand stat sign r ≠ [] := by
  unfold diffs
  split
  · rename_i hmax
    apply bootstrap_ne_nil
    rw [pick_length (rng.choice_lt _ _ _ hmax.le), rng.choice_length _ _ _ hmax.le]
    exact lt_of_lt_of_le (by decide) policy.maxRows_le
  · exact bootstrap_ne_nil rng policy hne r

end

/-! ## Predictions -/

theorem higherIsBetter_name (m : RowMetric) : higherIsBetter m.name = .ok m.higherBetter := by
  cases m <;> rfl

theorem zipWith_length {α β γ : Type} (f : α → β → γ) {as : List α} {bs : List β} (hlen : as.length = bs.length) :
    (as.zipWith f bs).length = as.length := by
  rw [List.length_zipWith, hlen, Nat.min_self]

theorem same_length {a b : Labels F} (hsize : a.size = b.size) : (a.same b).length = a.size := by
  cases a <;> cases b <;> simp_all [Labels.same, Labels.size]

theorem anomalyFlags_length (a : Labels F) : (anomalyFlags a).length = a.size := by
  cases a with
  | bools l => rfl
  | numbers l =>
    rw [anomalyFlags]
    split
    · exact List.length_map ..
    · exact List.length_map ..
  | texts l => exact List.length_map ..

theorem floats_length {a : Labels F} {xs : List F} (hfloats : a.floats h = .ok xs) : xs.length = a.size := by
  cases a with
  | bools l =>
    cases hfloats
    exact List.length_map ..
  | numbers l =>
    cases hfloats
    rfl
  | texts l => exact (mapM_ok hfloats).length_eq.symm

section
variable {m : RowMetric} {y a b : Labels F} {X : List (List F)} {sample : List Nat} {ra rb : List (Row F) × Stat F}

theorem rows_accuracy (hrows : rows h "accuracy" (some y) a X sample = .ok ra) :
    ra = ((y.same a).map hitRow, meanStat) := by
  cases hrows
  rfl

theorem rows_rmse (hrows : rows h "rmse" (some y) a X sample = .ok ra) :
    ∃ truth guess, y.floats h = .ok truth ∧ a.floats h = .ok guess ∧
      ra = (truth.zipWith errorRow guess, rootMean h) := by
  obtain ⟨y', hy, hrows⟩ := bind_ok hrows
  cases hy
  obtain ⟨truth, htruth, hrows⟩ := bind_ok hrows
  obtain ⟨guess, hguess, hrows⟩ := bind_ok hrows
  cases hrows
  exact ⟨truth, guess, htruth, hguess, rfl⟩

theorem rows_f1 (hrows : rows h "f1" (some y) a X sample = .ok ra) :
    ra = ((anomalyFlags y).zipWith flagRow (anomalyFlags a), f1) := by
  cases hrows
  rfl

theorem rows_stat (hrows : rows h m.name (some y) a X sample = .ok ra) : ra.2 = statOf h m := by
  cases m with
  | accuracy => rw [rows_accuracy h hrows, statOf]
  | rmse =>
    obtain ⟨_, _, -, -, rfl⟩ := rows_rmse h hrows
    rfl
  | f1 => rw [rows_f1 h hrows, statOf]

theorem rows_length (hrows : rows h m.name (some y) a X sample = .ok ra) (hsize : y.size = a.size) :
    ra.1.length = y.size := by
  cases m with
  | accuracy => rw [rows_accuracy h hrows, List.length_map, same_length hsize]
  | rmse =>
    obtain ⟨truth, guess, htruth, hguess, rfl⟩ := rows_rmse h hrows
    rw [← floats_length h htruth]
    exact zipWith_length _ (by rw [floats_length h htruth, floats_length h hguess, hsize])
  | f1 =>
    rw [rows_f1 h hrows, ← anomalyFlags_length y]
    exact zipWith_length _ (by rw [anomalyFlags_length, anomalyFlags_length, hsize])

variable [IsStrictOrderedRing F]

theorem ofBool_mono {hit hit' : Bool} (hhit : hit = true → hit' = true) : (ofBool hit : F) ≤ ofBool hit' := by
  cases hit with
  | false => cases hit' <;> simp [ofBool]
  | true => rw [hhit rfl]

theorem flagRow_worse {truth flagged flagged' : Bool} (hright : (truth == flagged) = true → (truth == flagged') = true) :
    Worse .f1 (flagRow truth flagged : Row F) (flagRow truth flagged') := by
  cases truth <;> cases flagged <;> cases flagged' <;> simp_all [Worse, flagRow, ofBool]

theorem flagRows_worse : ∀ {truth flags flags' : List Bool},
    List.Forall₂ (fun right right' => right = true → right' = true)
      (truth.zipWith (· == ·) flags) (truth.zipWith (· == ·) flags') →
    List.Forall₂ (Worse .f1) (truth.zipWith flagRow flags : List (Row F)) (truth.zipWith flagRow flags')
  | [], _, _, _ => .nil
  | _ :: _, [], [], _ => .nil
  | _ :: _, [], _ :: _, hright => by cases hright
  | _ :: _, _ :: _, [], hright => by cases hright
  | _ :: _, _ :: _, _ :: _, .cons hhead hright => .cons (flagRow_worse hhead) (flagRows_worse hright)

theorem errorRows_worse {truth guess guess' : List F}
    (herror : List.Forall₂ (· ≤ ·) (squaredErrors truth guess') (squaredErrors truth guess)) :
    List.Forall₂ (Worse .rmse) (truth.zipWith errorRow guess) (truth.zipWith errorRow guess') := by
  have hmap : ∀ g : List F, truth.zipWith errorRow g = (squaredErrors truth g).map fun e _ => e := by
    intro g
    rw [squaredErrors, List.map_zipWith]
    rfl
  rw [hmap, hmap, List.forall₂_map_left_iff, List.forall₂_map_right_iff]
  have hnonneg : ∀ e ∈ squaredErrors truth guess', 0 ≤ e := by
    intro e he
    rw [squaredErrors, ← List.map_uncurry_zip_eq_zipWith] at he
    obtain ⟨p, -, rfl⟩ := List.mem_map.mp he
    exact sq_nonneg _
  exact ((List.forall₂_and_left _ _).mpr ⟨hnonneg, herror⟩).flip

/-- Predictions that are nowhere better give rows that are nowhere better. -/
theorem rows_worse (hno : NoBetter h m y a b) (ha : rows h m.name (some y) a X sample = .ok ra)
    (hb : rows h m.name (some y) b X sample = .ok rb) : List.Forall₂ (Worse m) ra.1 rb.1 := by
  cases m with
  | accuracy =>
    rw [rows_accuracy h ha, rows_accuracy h hb]
    rw [List.forall₂_map_left_iff, List.forall₂_map_right_iff]
    exact hno.imp fun _ _ hhit => ofBool_mono hhit
  | rmse =>
    obtain ⟨truth, guess, htruth, hguess, rfl⟩ := rows_rmse h ha
    obtain ⟨truth', guess', htruth', hguess', rfl⟩ := rows_rmse h hb
    cases htruth.symm.trans htruth'
    exact errorRows_worse (hno truth guess guess' htruth hguess hguess')
  | f1 =>
    rw [rows_f1 h ha, rows_f1 h hb]
    exact flagRows_worse hno

end

/-! ## The decision -/

section
variable [FloorSemiring F] [IsStrictOrderedRing F]

theorem half_alpha {policy : Policy F} : 0 ≤ (1 - policy.confidence) / 2 ∧ (1 - policy.confidence) / 2 ≤ 1 := by
  have hgt := policy.confidence_gt
  have hlt := policy.confidence_lt
  have hhalf : (0 : F) < 1 / 2 := by positivity
  constructor
  · linarith
  · linarith

theorem base_nonneg (policy : Policy F) (x : F) : 0 ≤ policy.margin * (if policy.marginRelative then |x| else 1) := by
  apply mul_nonneg policy.margin_nonneg
  split
  · exact abs_nonneg x
  · exact zero_le_one

/-- Improvements that are nowhere positive do not show superiority. -/
theorem primary_superiority {policy : Policy F} (hmode : policy.mode = .superiority) {sign cv dv : F} {ds : List F}
    (hne : ds ≠ []) (hds : ∀ d ∈ ds, d ≤ 0) : (primary h policy sign ds cv dv).ok = false := by
  have hlow : Quantile.quantile ds ((1 - policy.confidence) / 2) ≤ 0 :=
    Quantile.quantile_le hne half_alpha.1 half_alpha.2 hds
  simp only [primary, hmode, decide_eq_false_iff_not, not_lt]
  exact hlow.trans (base_nonneg policy cv)

/-- Improvements that are nowhere negative show non-inferiority. -/
theorem primary_nonInferiority {policy : Policy F} (hmode : policy.mode = .nonInferiority) {sign cv dv : F}
    {ds : List F} (hne : ds ≠ []) (hds : ∀ d ∈ ds, 0 ≤ d) : (primary h policy sign ds cv dv).ok = true := by
  have hlow : 0 ≤ Quantile.quantile ds ((1 - policy.confidence) / 2) :=
    Quantile.le_quantile hne half_alpha.1 half_alpha.2 hds
  simp only [primary, hmode, decide_eq_true_eq]
  exact (neg_nonpos.mpr (base_nonneg policy cv)).trans hlow

variable [DecidableEq κ] {rng : Generator σ} {policy : Policy F} {q : Question F κ} {m : RowMetric} {y : Labels F}
  {d : GateDecision F} {betterHigh : Bool} {sampled : List Nat × σ} {cur cand : List (Row F) × Stat F}
  {slices : List (GuardrailResult F)}

omit [IsStrictOrderedRing F] in
/-- The improvements are those of the metric, drawn from rows of which there are some. -/
theorem DecidedBy.metric (hby : DecidedBy h rng policy q d betterHigh sampled cur cand slices) (hm : q.metric = m.name)
    (hq : q.Aligned y) : betterHigh = m.higherBetter ∧ cur.2 = statOf h m ∧ 0 < cur.1.length := by
  have hcur := hby.curRows
  have hsign := hby.sign
  rw [hm, hq.labelled] at hcur
  rw [hm, higherIsBetter_name] at hsign
  refine ⟨(Except.ok.inj hsign).symm, rows_stat h hcur, ?_⟩
  rw [rows_length h hcur (hq.labels.trans hq.current.symm), hq.labels]
  exact List.length_pos_iff.mpr hq.rows

theorem DecidedBy.worse (hby : DecidedBy h rng policy q d betterHigh sampled cur cand slices) (hm : q.metric = m.name)
    (hq : q.Aligned y) (hno : NoBetter h m y q.candidate.predictions q.current.predictions) :
    ∀ x ∈ diffs rng policy cur.1 cand.1 cur.2 (signOf betterHigh) sampled.2, x ≤ 0 := by
  obtain ⟨rfl, hstat, -⟩ := hby.metric h hm hq
  have hcur := hby.curRows
  have hcand := hby.candRows
  rw [hm, hq.labelled] at hcur hcand
  intro x hx
  rw [hstat] at hx
  obtain ⟨idxs, rfl⟩ := mem_diffs rng hx
  exact stat_worse h (worse_mean (picks_forall₂ idxs (rows_worse h hno hcand hcur)))

theorem DecidedBy.better (hby : DecidedBy h rng policy q d betterHigh sampled cur cand slices) (hm : q.metric = m.name)
    (hq : q.Aligned y) (hno : NoBetter h m y q.current.predictions q.candidate.predictions) :
    ∀ x ∈ diffs rng policy cur.1 cand.1 cur.2 (signOf betterHigh) sampled.2, 0 ≤ x := by
  obtain ⟨rfl, hstat, -⟩ := hby.metric h hm hq
  have hcur := hby.curRows
  have hcand := hby.candRows
  rw [hm, hq.labelled] at hcur hcand
  intro x hx
  rw [hstat] at hx
  obtain ⟨idxs, rfl⟩ := mem_diffs rng hx
  have hneg := stat_worse h (worse_mean (picks_forall₂ idxs (rows_worse h hno hcur hcand)))
  rw [← neg_sub, mul_neg] at hneg
  exact neg_nonpos.mp hneg

/-- In superiority mode a candidate that is on no row better is rejected; in non-inferiority mode
one that is on every row at least as good passes the primary test, and only a guardrail rejects it. -/
theorem gate_dominance (h : GateHost F) (rng : Generator σ) (policy : Policy F) (q : Question F κ) (m : RowMetric)
    (y : Labels F) (hm : q.metric = m.name) (hq : q.Aligned y) (d : GateDecision F)
    (hd : decide h rng policy q = .ok d) :
    (policy.mode = .superiority → NoBetter h m y q.candidate.predictions q.current.predictions →
      d.verdict ≠ .accept) ∧
      (policy.mode = .nonInferiority → NoBetter h m y q.current.predictions q.candidate.predictions →
        d.ok = true ∧ (d.verdict = .reject → ∃ g ∈ d.guardrails, g.passed = false)) := by
  obtain ⟨betterHigh, sampled, cur, cand, slices, hby⟩ := decide_ok h rng hd
  obtain ⟨-, -, hne⟩ := hby.metric h hm hq
  constructor
  · intro hmode hno haccept
    have hok := (hby.accept_iff.mp haccept).1
    rw [hby.ok_eq, primary_superiority h hmode (diffs_ne_nil rng policy hne _) (hby.worse h hm hq hno)] at hok
    cases hok
  · intro hmode hno
    have hok : d.ok = true := by
      rw [hby.ok_eq]
      exact primary_nonInferiority h hmode (diffs_ne_nil rng policy hne _) (hby.better h hm hq hno)
    refine ⟨hok, fun hreject => ?_⟩
    by_contra hall
    have haccept : d.verdict = .accept := hby.accept_iff.mpr ⟨hok, fun g hg => by
      by_contra hfailed
      exact hall ⟨g, hg, Bool.eq_false_iff.mpr hfailed⟩⟩
    rw [haccept] at hreject
    cases hreject

end

/-! ## On the reals -/

noncomputable def realHost : GateHost ℝ where
  sqrt := Real.sqrt
  fixed4 _ := ""
  signed4 _ := ""
  percent _ := ""
  text _ := ""
  quoted := id
  round6 := id
  float? _ := none
  silhouetteSamples _ _ := []
  sqrt_mono _ _ _ hxy := Real.sqrt_le_sqrt hxy

def firstRows : Generator Unit where
  seeded _ := ()
  choice _ _ size := (List.range size, ())
  integers _ _ size width := (List.replicate size (List.replicate width 0), ())
  choice_length _ _ _ _ := List.length_range
  choice_nodup _ _ _ _ := List.nodup_range
  choice_lt _ _ _ hsize _ hi := lt_of_lt_of_le (List.mem_range.mp hi) hsize
  integers_length _ _ _ _ _ := List.length_replicate
  integers_width _ _ _ _ _ _ hidx := by
    rw [List.eq_of_mem_replicate hidx]
    exact List.length_replicate
  integers_lt _ _ _ _ hn _ hidx _ hi := by
    rw [List.eq_of_mem_replicate hidx] at hi
    rwa [List.eq_of_mem_replicate hi]

theorem margin_sample : (0 : ℝ) ≤ 0 := le_refl 0

theorem confidence_sample_gt : (1 / 2 : ℝ) < 19 / 20 := by norm_num

theorem confidence_sample_lt : (19 / 20 : ℝ) < 1 := by norm_num

theorem minRows_sample : 1 ≤ 30 := by decide

theorem resamples_sample : 100 ≤ 1000 := by decide

theorem maxRows_sample : 10 ≤ 5000 := by decide

theorem batch_sample : 1 ≤ 50 := by decide

theorem pairwiseMaxRows_sample : 10 ≤ 2000 := by decide

theorem guards_sample : ∀ g ∈ ([] : List (String × ℝ)), 0 ≤ g.2 := List.forall_mem_nil _

noncomputable def realPolicy : Policy ℝ where
  margin := 0
  confidence := 19 / 20
  slices := { maxDrop := 0, maxDrop_nonneg := margin_sample, minRows_pos := minRows_sample }
  margin_nonneg := margin_sample
  confidence_gt := confidence_sample_gt
  confidence_lt := confidence_sample_lt
  resamples_le := resamples_sample
  maxRows_le := maxRows_sample
  batch_pos := batch_sample
  pairwiseMaxRows_le := pairwiseMaxRows_sample
  guards_nonneg := guards_sample

def oneRowLost : Question ℝ String where
  metric := "accuracy"
  X := [[], []]
  y := some (.texts ["up", "down"])
  current := ⟨.texts ["up", "down"], []⟩
  candidate := ⟨.texts ["up", "up"], []⟩
  context := none
  measured := []

theorem gate_dominance_lost :
    ∃ d, decide realHost firstRows realPolicy oneRowLost = .ok d ∧ d.verdict ≠ .accept := by
  refine ⟨_, rfl, ?_⟩
  refine (gate_dominance realHost firstRows realPolicy oneRowLost .accuracy (.texts ["up", "down"]) rfl
    ⟨rfl, by simp [oneRowLost], rfl, rfl, rfl⟩ _ rfl).1 rfl ?_
  exact .cons (fun _ => rfl) (.cons (fun hlost => absurd hlost (by decide)) .nil)

end OranAdapt.Gate
