import OranAdapt.Health
import Mathlib.Tactic.Linarith

/-!
# A worse candidate and its health

A limit and a degradation that a mean breaks are broken by every worse mean. A
ratio of a metric that should be high is only compared while the candidate's
mean is positive, so a breach can vanish when the mean falls to 0.
-/

namespace OranAdapt

namespace HealthRule

def Worse (rule : HealthRule) (c c' : Rat) : Prop :=
  match rule.direction with
  | .lower => c ≤ c'
  | .higher => c' ≤ c

/-- A threshold of the rule is broken by the candidate's mean `c`. -/
def Broken (rule : HealthRule) (stable : Option Rat) (c : Rat) : Prop :=
  (∃ limit ∈ rule.limit, beyondLimit rule limit c = true) ∨
    ∃ s ∈ stable, (∃ allowed ∈ rule.maxDegradation, allowed < worseBy rule c s) ∨
      ∃ ratio ∈ rule.maxRatio, ratioBreached rule ratio c s = true

instance (rule : HealthRule) (stable : Option Rat) (c : Rat) : Decidable (rule.Broken stable c) :=
  inferInstanceAs (Decidable ((∃ limit ∈ rule.limit, beyondLimit rule limit c = true) ∨
    ∃ s ∈ stable, (∃ allowed ∈ rule.maxDegradation, allowed < worseBy rule c s) ∨
      ∃ ratio ∈ rule.maxRatio, ratioBreached rule ratio c s = true))

variable {rule : HealthRule} {stable : Option Rat} {c c' : Rat}

theorem Worse.refl (rule : HealthRule) (c : Rat) : rule.Worse c c := by
  unfold Worse
  split <;> exact le_refl c

theorem beyondLimit_mono {limit : Rat} (h : beyondLimit rule limit c = true) (hw : rule.Worse c c') :
    beyondLimit rule limit c' = true := by
  unfold beyondLimit at h ⊢
  unfold Worse at hw
  cases hd : rule.direction <;> simp only [hd, decide_eq_true_eq] at h hw ⊢ <;> linarith

theorem worseBy_mono {s : Rat} (hw : rule.Worse c c') : worseBy rule c s ≤ worseBy rule c' s := by
  unfold worseBy
  unfold Worse at hw
  cases hd : rule.direction <;> simp only [hd] at hw ⊢ <;> linarith

/-- The ratio of a metric that should be high needs a mean that stays positive. -/
theorem ratioBreached_mono {ratio s : Rat} (hr : 0 < ratio) (h : ratioBreached rule ratio c s = true) (hw : rule.Worse c c')
    (hpos : rule.direction = .higher → 0 < c → 0 < c') : ratioBreached rule ratio c' s = true := by
  unfold ratioBreached at h ⊢
  unfold Worse at hw
  cases hd : rule.direction with
  | lower =>
    simp only [hd, Bool.and_eq_true, decide_eq_true_eq] at h hw ⊢
    exact ⟨h.1, h.2.trans_le hw⟩
  | higher =>
    simp only [hd, Bool.and_eq_true, decide_eq_true_eq] at h hw ⊢
    have hless : ratio * c' ≤ ratio * c := mul_le_mul_of_nonneg_left hw hr.le
    exact ⟨hpos hd h.1, hless.trans_lt h.2⟩

theorem Broken.mono (h : rule.Broken stable c) (hw : rule.Worse c c')
    (hpos : rule.direction = .higher → 0 < c → 0 < c') : rule.Broken stable c' := by
  rcases h with ⟨limit, hl, hb⟩ | ⟨s, hs, ⟨allowed, ha, hb⟩ | ⟨ratio, hr, hb⟩⟩
  · exact .inl ⟨limit, hl, beyondLimit_mono hb hw⟩
  · exact .inr ⟨s, hs, .inl ⟨allowed, ha, hb.trans_le (worseBy_mono hw)⟩⟩
  · exact .inr ⟨s, hs, .inr ⟨ratio, hr, ratioBreached_mono (rule.ratio_pos ratio hr) hb hw hpos⟩⟩

end HealthRule

/-! ## When a verdict is a breach -/

section
variable {policy : DeliveryPolicy} {stable candidate candidate' : ArmStats}

theorem filterMap_option_ne_nil {α β : Type} (o : Option α) (p : α → Bool) (f : α → β) :
    (o.toList.filterMap fun a => if p a = true then some (f a) else none) ≠ [] ↔ ∃ a ∈ o, p a = true := by
  cases o with
  | none => simp
  | some a => by_cases h : p a = true <;> simp [h]

theorem checkRule_ne_nil (rule : HealthRule) : (checkRule stable candidate rule).1 ≠ [] ↔
    ∃ c ∈ candidate.mean rule.metric, rule.Broken (stable.mean rule.metric) c := by
  unfold checkRule
  cases hc : candidate.mean rule.metric with
  | none => simp
  | some c =>
    have hlimits := filterMap_option_ne_nil rule.limit (fun limit => beyondLimit rule limit c)
      (fun limit => HealthReason.limit rule.metric c limit)
    have hone : (∃ x ∈ some c, rule.Broken (stable.mean rule.metric) x) ↔
      rule.Broken (stable.mean rule.metric) c := by simp
    rw [hone]
    dsimp only
    by_cases hnone : rule.maxDegradation = none ∧ rule.maxRatio = none
    · rw [if_pos hnone]
      simp only [hlimits, HealthRule.Broken, hnone.1, hnone.2]
      simp
    · rw [if_neg hnone]
      cases hs : stable.mean rule.metric with
      | none =>
        simp only [hlimits, HealthRule.Broken]
        simp
      | some s =>
        have hdegraded := filterMap_option_ne_nil rule.maxDegradation (fun allowed => decide (allowed < worseBy rule c s))
          (fun allowed => HealthReason.degradation rule.metric c (worseBy rule c s) s allowed)
        have hratios := filterMap_option_ne_nil rule.maxRatio (fun ratio => ratioBreached rule ratio c s)
          (fun ratio => HealthReason.ratio rule.metric c s ratio)
        simp only [decide_eq_true_eq] at hdegraded
        dsimp only
        rw [ne_eq, List.append_eq_nil_iff, List.append_eq_nil_iff, not_and_or, not_and_or]
        simp only [hlimits, hdegraded, hratios, HealthRule.Broken]
        simp [or_assoc]

theorem breach_iff : (evaluateHealth policy stable candidate).status = .breach ↔
    (policy.minSamples ≤ candidate.count ∧ policy.minSamples ≤ stable.count) ∧
      ∃ rule ∈ policy.health, ∃ c ∈ candidate.mean rule.metric, rule.Broken (stable.mean rule.metric) c := by
  unfold evaluateHealth
  by_cases hfew : candidate.count < policy.minSamples ∨ stable.count < policy.minSamples
  · rw [if_pos hfew]
    simp only [reduceCtorEq, false_iff]
    omega
  · rw [if_neg hfew]
    have henough : policy.minSamples ≤ candidate.count ∧ policy.minSamples ≤ stable.count := by omega
    have hreasons : (policy.health.map (checkRule stable candidate)).flatMap Prod.fst ≠ [] ↔
        ∃ rule ∈ policy.health, ∃ c ∈ candidate.mean rule.metric, rule.Broken (stable.mean rule.metric) c := by
      simp only [← checkRule_ne_nil]
      simp [List.flatMap_eq_nil_iff]
    dsimp only
    by_cases hr : (policy.health.map (checkRule stable candidate)).flatMap Prod.fst ≠ []
    · rw [if_pos hr]
      simp only [true_iff]
      exact ⟨henough, hreasons.mp hr⟩
    · rw [if_neg hr]
      have hnone := mt hreasons.mpr hr
      by_cases hm : (policy.health.map (checkRule stable candidate)).flatMap Prod.snd ≠ []
      · rw [if_pos hm]
        simp only [reduceCtorEq, false_iff]
        exact fun h => hnone h.2
      · rw [if_neg hm]
        simp only [reduceCtorEq, false_iff]
        exact fun h => hnone h.2

/-! ## Monotonicity -/

/-- An arm with the same requests and metrics, and on the metric of every rule the same mean or a worse one. -/
structure WorseArm (policy : DeliveryPolicy) (candidate candidate' : ArmStats) : Prop where
  count : candidate'.count = candidate.count
  present : ∀ rule ∈ policy.health, (candidate'.mean rule.metric).isSome = (candidate.mean rule.metric).isSome
  worse : ∀ rule ∈ policy.health, ∀ c ∈ candidate.mean rule.metric, ∀ c' ∈ candidate'.mean rule.metric,
    rule.Worse c c'

def MonotoneAt (policy : DeliveryPolicy) (stable candidate : ArmStats) : Prop :=
  (evaluateHealth policy stable candidate).status = .breach →
    ∀ candidate', WorseArm policy candidate candidate' → (evaluateHealth policy stable candidate').status = .breach

/-- The metric is positive and only judged by rules that want it high, none of which a mean of 0 breaks. -/
def HealedByZero (policy : DeliveryPolicy) (stable : ArmStats) (metric : String) (c : Rat) : Prop :=
  0 < c ∧ ∀ rule ∈ policy.health, rule.metric = metric → rule.direction = .higher ∧
    ¬ rule.Broken (stable.mean metric) 0

def KeptByWorse (policy : DeliveryPolicy) (stable candidate : ArmStats) : Prop :=
  policy.minSamples ≤ candidate.count → policy.minSamples ≤ stable.count →
    (∃ rule ∈ policy.health, ∃ c ∈ candidate.mean rule.metric, rule.Broken (stable.mean rule.metric) c) →
    ∃ rule ∈ policy.health, ∃ c ∈ candidate.mean rule.metric, rule.Broken (stable.mean rule.metric) c ∧
      ¬ HealedByZero policy stable rule.metric c

theorem broken_of_not_healed {rule : HealthRule} {c c' : Rat} (hrule : rule ∈ policy.health)
    (hb : rule.Broken (stable.mean rule.metric) c) (hnot : ¬ HealedByZero policy stable rule.metric c)
    (hw : ∀ r ∈ policy.health, r.metric = rule.metric → r.Worse c c') :
    ∃ r ∈ policy.health, r.metric = rule.metric ∧ r.Broken (stable.mean rule.metric) c' := by
  have hown := hw rule hrule rfl
  by_cases hc : 0 < c
  · have hother : ∃ r ∈ policy.health, r.metric = rule.metric ∧
        (r.direction = .higher → r.Broken (stable.mean rule.metric) 0) := by
      by_contra hno
      apply hnot
      refine ⟨hc, fun r hr hm => ?_⟩
      by_contra hcon
      exact hno ⟨r, hr, hm, fun hd => by_contra fun hbr => hcon ⟨hd, hbr⟩⟩
    obtain ⟨r, hr, hm, hzero⟩ := hother
    cases hd : r.direction with
    | lower =>
      -- the other rule lets the mean only rise, so a rule that wants it high fixes it
      have hle : c ≤ c' := by simpa [HealthRule.Worse, hd] using hw r hr hm
      exact ⟨rule, hrule, rfl, hb.mono hown fun _ h => h.trans_le hle⟩
    | higher =>
      have hle : c' ≤ c := by simpa [HealthRule.Worse, hd] using hw r hr hm
      by_cases hc' : 0 < c'
      · exact ⟨rule, hrule, rfl, hb.mono hown fun _ _ => hc'⟩
      · have hfall : r.Worse 0 c' := by simpa [HealthRule.Worse, hd] using hc'
        exact ⟨r, hr, hm, (hzero hd).mono hfall fun _ h => absurd h (lt_irrefl 0)⟩
  · exact ⟨rule, hrule, rfl, hb.mono hown fun _ h => absurd h hc⟩

instance (policy : DeliveryPolicy) (stable : ArmStats) (metric : String) (c : Rat) :
    Decidable (HealedByZero policy stable metric c) :=
  inferInstanceAs (Decidable (0 < c ∧ ∀ rule ∈ policy.health, rule.metric = metric →
    rule.direction = .higher ∧ ¬ rule.Broken (stable.mean metric) 0))

def fallen (policy : DeliveryPolicy) (stable candidate : ArmStats) : ArmStats where
  count := candidate.count
  samples := policy.health.filterMap fun rule => (candidate.mean rule.metric).map fun c =>
    (rule.metric, [if HealedByZero policy stable rule.metric c then 0 else c])

theorem lookup_filterMap {α β γ : Type} [DecidableEq β] (key : α → β) (f : β → Option γ) (l : List α) (k : β) :
    (l.filterMap fun x => (f (key x)).map fun y => (key x, y)).lookup k = if k ∈ l.map key then f k else none := by
  induction l with
  | nil => rfl
  | cons x l ih =>
    by_cases hk : k = key x
    · subst hk
      cases hf : f (key x) with
      | none => simpa [hf] using ih
      | some y => simp [hf]
    · cases hf : f (key x) with
      | none => simp [hk, hf, ih]
      | some y => simp [hk, hf, ih, List.lookup_cons, beq_false_of_ne hk]

theorem mean_fallen {rule : HealthRule} (hrule : rule ∈ policy.health) :
    (fallen policy stable candidate).mean rule.metric =
      (candidate.mean rule.metric).map fun c => if HealedByZero policy stable rule.metric c then 0 else c := by
  have hlookup := lookup_filterMap HealthRule.metric (fun metric => (candidate.mean metric).map fun c =>
    [if HealedByZero policy stable metric c then 0 else c]) policy.health rule.metric
  rw [if_pos (List.mem_map_of_mem hrule)] at hlookup
  simp only [Option.map_map] at hlookup
  have hsamples : (fallen policy stable candidate).samples.lookup rule.metric =
      (candidate.mean rule.metric).map fun c => [if HealedByZero policy stable rule.metric c then 0 else c] := hlookup
  rw [ArmStats.mean, hsamples]
  cases candidate.mean rule.metric <;> simp [fmean]

theorem fallen_worse : WorseArm policy candidate (fallen policy stable candidate) where
  count := rfl
  present rule hrule := by simp [mean_fallen hrule]
  worse rule hrule c hc c' hc' := by
    rw [mean_fallen hrule, Option.mem_def.mp hc] at hc'
    obtain rfl : (if HealedByZero policy stable rule.metric c then 0 else c) = c' := by simpa using hc'
    by_cases hz : HealedByZero policy stable rule.metric c
    · have hd := (hz.2 rule hrule rfl).1
      simp only [if_pos hz, HealthRule.Worse, hd]
      exact hz.1.le
    · rw [if_neg hz]
      exact .refl rule c

/-- A breach is kept by every worse arm exactly where one that falls to 0 cannot heal it. -/
theorem monotone_iff (policy : DeliveryPolicy) (stable candidate : ArmStats) :
    MonotoneAt policy stable candidate ↔ KeptByWorse policy stable candidate := by
  constructor
  · intro hmono hc hs hbroken
    have hworse : WorseArm policy candidate (fallen policy stable candidate) := fallen_worse
    have hbreach := hmono (breach_iff.mpr ⟨⟨hc, hs⟩, hbroken⟩) _ hworse
    obtain ⟨-, rule, hrule, v, hv, hb⟩ := breach_iff.mp hbreach
    rw [mean_fallen hrule] at hv
    obtain ⟨c, hmean, rfl⟩ := Option.mem_map.mp hv
    by_cases hz : HealedByZero policy stable rule.metric c
    · rw [if_pos hz] at hb
      exact absurd hb (hz.2 rule hrule rfl).2
    · rw [if_neg hz] at hb
      exact ⟨rule, hrule, c, hmean, hb, hz⟩
  · intro hkept hbreach candidate' hworse
    obtain ⟨henough, hbroken⟩ := breach_iff.mp hbreach
    obtain ⟨rule, hrule, c, hc, hb, hnot⟩ := hkept henough.1 henough.2 hbroken
    have hsome : (candidate'.mean rule.metric).isSome = true := by
      rw [hworse.present rule hrule, Option.mem_def.mp hc]
      rfl
    obtain ⟨c', hc'⟩ := Option.isSome_iff_exists.mp hsome
    have hall : ∀ r ∈ policy.health, r.metric = rule.metric → r.Worse c c' := fun r hr hm =>
      hworse.worse r hr c (by rwa [hm]) c' (by rw [hm]; exact hc')
    obtain ⟨r, hr, hm, hbr⟩ := broken_of_not_healed hrule hb hnot hall
    refine breach_iff.mpr ⟨⟨?_, henough.2⟩, r, hr, c', ?_, ?_⟩
    · rw [hworse.count]
      exact henough.1
    · rw [hm]
      exact hc'
    · rwa [hm]

theorem one_sample : 1 ≤ 1 := le_rfl

theorem unset_nonneg : ∀ x ∈ (none : Option Rat), 0 ≤ x := by simp

theorem ratio_positive : ∀ x ∈ some (3 / 2 : Rat), 0 < x := by norm_num

/-- Throughput should be high, and may not fall below two thirds of stable's. -/
def throughputPolicy : DeliveryPolicy :=
  { DeliveryPolicy.defaults with
    minSamples := 1
    samples_pos := one_sample
    health := [
      { metric := "throughput"
        direction := .higher
        maxRatio := some (3 / 2)
        degradation_nonneg := unset_nonneg
        ratio_pos := ratio_positive }] }

def throughputArm (mean : Rat) : ArmStats := ⟨1, [("throughput", [mean])]⟩

/-- Half of stable's throughput is a breach, none at all is healthy. -/
theorem zero_throughput_healthy : ¬ MonotoneAt throughputPolicy (throughputArm 100) (throughputArm 50) := by
  intro hmono
  have hbreach := hmono (by decide +kernel) (throughputArm 0) ⟨rfl, by decide +kernel, ?_⟩
  · revert hbreach
    decide +kernel
  · intro rule hrule c hc c' hc'
    rw [List.mem_singleton.mp hrule] at hc hc' ⊢
    cases hc
    cases hc'
    change fmean [0] ≤ fmean [50]
    decide +kernel

end

end OranAdapt
