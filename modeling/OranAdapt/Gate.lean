import OranAdapt.Metrics
import OranAdapt.Quantile

/-!
# The validation gate

`validation.gate.decide` in exact arithmetic: the paired bootstrap over the
held-out rows, the slice guard and the guards on secondary metrics. What the
guards on calibration, latency and size measured on the models is given.
-/

namespace OranAdapt.Gate

open Metrics

/-! ## Labels -/

/-- An array of labels or of predictions. An array of objects, whose booleans `np.unique` compares as numbers, is not one. -/
inductive Labels (F : Type) where
  | bools (l : List Bool)
  | numbers (l : List F)
  | texts (l : List String)

def Labels.size {F : Type} : Labels F → Nat
  | bools l => l.length
  | numbers l => l.length
  | texts l => l.length

/-- The columns of a row of per-row values. -/
abbrev Row (F : Type) := Nat → F

/-- From the means of the columns to the metric. -/
abbrev Stat (F : Type) := Row F → F

/-- Square roots, how numbers are written and read, silhouettes, and the hash of a policy. -/
structure GateHost (F : Type) [Zero F] [LE F] where
  sqrt : F → F
  fixed4 : F → String
  signed4 : F → String
  percent : F → String
  text : F → String
  quoted : String → String
  round6 : F → F
  /-- a string as `astype(float)` reads it -/
  float? : String → Option F
  silhouetteSamples : List (List F) → Labels F → List F
  sqrt_mono : ∀ x y, 0 ≤ x → x ≤ y → sqrt x ≤ sqrt y

/-- `numpy.random.Generator`, with what its draws satisfy. -/
structure Generator (σ : Type) where
  seeded : Nat → σ
  /-- `choice(n, size, replace=False)` -/
  choice : σ → Nat → Nat → List Nat × σ
  /-- `integers(0, n, size=(size, width))` -/
  integers : σ → Nat → Nat → Nat → List (List Nat) × σ
  choice_length : ∀ r n size, size ≤ n → (choice r n size).1.length = size
  choice_nodup : ∀ r n size, size ≤ n → (choice r n size).1.Nodup
  choice_lt : ∀ r n size, size ≤ n → ∀ i ∈ (choice r n size).1, i < n
  integers_length : ∀ r n size width, 0 < n → (integers r n size width).1.length = size
  integers_width : ∀ r n size width, 0 < n → ∀ idx ∈ (integers r n size width).1, idx.length = width
  integers_lt : ∀ r n size width, 0 < n → ∀ idx ∈ (integers r n size width).1, ∀ i ∈ idx, i < n

/-- `rows[idx]`; the indices are drawn within the rows. -/
def pick {α : Type} (rows : List α) (idx : List Nat) : List α := idx.filterMap (rows[·]?)

def Labels.pick {F : Type} (idx : List Nat) : Labels F → Labels F
  | bools l => bools (Gate.pick l idx)
  | numbers l => numbers (Gate.pick l idx)
  | texts l => texts (Gate.pick l idx)

section
variable {F : Type} [Field F] [LinearOrder F]

def ofBool (b : Bool) : F := if b then 1 else 0

def Labels.same : Labels F → Labels F → List Bool
  | bools a, bools b => a.zipWith (· == ·) b
  | bools a, numbers b => a.zipWith (fun x y => decide (ofBool x = y)) b
  | numbers a, bools b => a.zipWith (fun x y => decide (x = ofBool y)) b
  | numbers a, numbers b => a.zipWith (fun x y => decide (x = y)) b
  | texts a, texts b => a.zipWith (· == ·) b
  | a, _ => List.replicate a.size false

def Labels.floats (h : GateHost F) : Labels F → Except AdaptationError (List F)
  | bools l => .ok (l.map ofBool)
  | numbers l => .ok l
  | texts l => l.mapM fun t => orRaise "ValueError" (h.float? t)

/-- Outlier detectors predict -1 and 1; labels mark anomalies by 1 or `True`. -/
def anomalyFlags : Labels F → List Bool
  | .bools l => l
  | .numbers l =>
    if ∀ x ∈ l, x = -1 ∨ x = 1 then l.map fun x => decide (x = -1) else l.map fun x => decide (x = 1)
  | .texts l => l.map fun _ => false

/-! ## Per-row values -/

def mean (rows : List (Row F)) : Row F := fun j => Quantile.mean (rows.map (· j))

def meanStat : Stat F := fun m => m 0

def rootMean (h : GateHost F) : Stat F := fun m => h.sqrt (m 0)

def f1 : Stat F := fun m => if 0 < 2 * m 0 + m 1 + m 2 then 2 * m 0 / (2 * m 0 + m 1 + m 2) else 0

def hitRow (hit : Bool) : Row F := fun _ => ofBool hit

def errorRow (truth guess : F) : Row F := fun _ => (truth - guess) ^ 2

/-- True positives, false positives, false negatives. -/
def flagRow (truth flagged : Bool) : Row F
  | 0 => ofBool (truth && flagged)
  | 1 => ofBool (!truth && flagged)
  | _ => ofBool (truth && !flagged)

def labelsOr : Option (Labels F) → Except AdaptationError (Labels F)
  | some y => .ok y
  | none => .error (pythonError "AssertionError")

variable (h : GateHost F)

def rows (metric : String) (y : Option (Labels F)) (pred : Labels F) (X : List (List F)) (sample : List Nat) :
    Except AdaptationError (List (Row F) × Stat F) :=
  if metric = "accuracy" then do
    let y ← labelsOr y
    .ok ((y.same pred).map hitRow, meanStat)
  else if metric = "rmse" then do
    let y ← labelsOr y
    let truth ← y.floats h
    let guess ← pred.floats h
    .ok (truth.zipWith errorRow guess, rootMean h)
  else if metric = "f1" then do
    let y ← labelsOr y
    .ok ((anomalyFlags y).zipWith flagRow (anomalyFlags pred), f1)
  else if metric = "silhouette" then
    .ok ((h.silhouetteSamples (pick X sample) (pred.pick sample)).map fun v _ => v, meanStat)
  else .error (pythonError "ValueError")

def point (rows : List (Row F)) (stat : Stat F) : F := stat (mean rows)

/-! ## The policy -/

inductive Mode where
  | superiority | nonInferiority
deriving DecidableEq, Repr

def Mode.value : Mode → String
  | superiority => "superiority"
  | nonInferiority => "non_inferiority"

structure SliceGuard (F : Type) [Zero F] [LE F] where
  columns : List String := []
  maxDrop : F
  relative : Bool := false
  minRows : Nat := 30
  requireColumns : Bool := false
  maxDrop_nonneg : 0 ≤ maxDrop
  minRows_pos : 1 ≤ minRows

/-- `GatePolicy`, within the bounds that it is checked against. -/
structure Policy (F : Type) [Field F] [LinearOrder F] where
  version : String := "1"
  mode : Mode := .superiority
  margin : F
  marginRelative : Bool := false
  confidence : F
  resamples : Nat := 1000
  seed : Int := 0
  maxRows : Nat := 5000
  batch : Nat := 50
  pairwiseMaxRows : Nat := 2000
  slices : SliceGuard F
  metricGuards : List (String × F) := []
  margin_nonneg : 0 ≤ margin
  confidence_gt : 1 / 2 < confidence
  confidence_lt : confidence < 1
  resamples_le : 100 ≤ resamples
  maxRows_le : 10 ≤ maxRows
  batch_pos : 1 ≤ batch
  pairwiseMaxRows_le : 10 ≤ pairwiseMaxRows
  guards_nonneg : ∀ g ∈ metricGuards, 0 ≤ g.2

/-! ## The paired bootstrap -/

section
variable {σ : Type} (rng : Generator σ)

def batchSizes (resamples batch : Nat) : List Nat :=
  (List.range ((resamples + batch - 1) / batch)).map fun k => min batch (resamples - k * batch)

/-- `_bootstrap`, batch by batch: both models are scored on the rows of one draw. -/
def bootstrap (cur cand : List (Row F)) (stat : Stat F) (sign : F) : List Nat → σ → List F
  | [], _ => []
  | size :: sizes, r =>
    let drawn := rng.integers r cur.length size cur.length
    (drawn.1.map fun idx => sign * (stat (mean (pick cand idx)) - stat (mean (pick cur idx)))) ++
      bootstrap cur cand stat sign sizes drawn.2

/-- The bootstrapped improvements, on at most `maxRows` of the rows. -/
def diffs (policy : Policy F) (cur cand : List (Row F)) (stat : Stat F) (sign : F) (r : σ) : List F :=
  if policy.maxRows < cur.length then
    let picked := rng.choice r cur.length policy.maxRows
    bootstrap rng (pick cur picked.1) (pick cand picked.1) stat sign (batchSizes policy.resamples policy.batch) picked.2
  else bootstrap rng cur cand stat sign (batchSizes policy.resamples policy.batch) r

end

/-! ## Guardrails -/

structure GuardrailResult (F : Type) where
  name : String
  passed : Bool
  evaluated : Bool
  detail : String
  values : List (String × F) := []

/-- What a cell of a slice column holds: a value with its equality, one without a hash (a list, a
dict), or one of the ways to miss one. -/
inductive Content (κ : Type) where
  | value (v : κ)
  | unhashable (v : κ)
  | none
  | nan
  | nat
  | na
deriving DecidableEq

/-- `shown` is the `str` of the cell, by which equal values may differ. -/
structure Cell (κ : Type) where
  shown : String
  content : Content κ

variable {κ : Type} [DecidableEq κ]

/-- Python's `==`: a `nan` and a `NaT` equal nothing, themselves included. -/
def Content.eq : Content κ → Content κ → Bool
  | value a, value b | unhashable a, unhashable b => a == b
  | none, none => true
  | _, _ => false

/-- `pd.unique` lists what is equal to it, or missing in its way, once. -/
def unique : List (Cell κ) → List (Cell κ)
  | [] => []
  | c :: cells => c :: (unique cells).filter (·.content ≠ c.content)

def mask (cells : List (Cell κ)) (content : Content κ) : List Bool := cells.map (·.content.eq content)

/-- `pd.unique` hashes every cell, and a comparison with a `pd.NA` is no bool. -/
def Content.raises : Content κ → Bool
  | unhashable _ | na => true
  | value _ | none | nan | nat => false

/-- The values that are checked, with the rows that hold them. -/
def checked (guard : SliceGuard F) (cells : List (Cell κ)) : Except AdaptationError (List (Cell κ × List Bool)) :=
  if cells.any (·.content.raises) then .error (pythonError "TypeError")
  else .ok (((unique cells).map fun c => (c, mask cells c.content)).filter fun p => guard.minRows ≤ p.2.count true)

def select {α : Type} (rows : List α) (mask : List Bool) : List α :=
  (rows.zip mask).filterMap fun p => if p.2 then some p.1 else none

/-- How much worse the candidate is on the rows, and how much worse it may be. -/
def sliceDrop (cur cand : List (Row F)) (stat : Stat F) (sign : F) (mask : List Bool) : F :=
  sign * (point (select cur mask) stat - point (select cand mask) stat)

def sliceAllowed (guard : SliceGuard F) (cur : List (Row F)) (stat : Stat F) (mask : List Bool) : F :=
  guard.maxDrop * (if guard.relative then |point (select cur mask) stat| else 1)

/-- A dict takes a key once, with the value set last. -/
def setItem {α : Type} (d : List (String × α)) (key : String) (x : α) : List (String × α) :=
  if d.any (·.1 = key) then d.map fun p => if p.1 = key then (key, x) else p else d ++ [(key, x)]

def sliceResult (guard : SliceGuard F) (column : String) (cur cand : List (Row F)) (stat : Stat F) (sign : F)
    (slices : List (Cell κ × List Bool)) : GuardrailResult F :=
  let drop := fun p : Cell κ × List Bool => sliceDrop cur cand stat sign p.2
  let allowed := fun p : Cell κ × List Bool => sliceAllowed guard cur stat p.2
  let failed := slices.filter fun p => allowed p < drop p
  if slices.isEmpty then
    ⟨"slice:" ++ column, true, false, "no slice has " ++ toString guard.minRows ++ " rows", []⟩
  else
    { name := "slice:" ++ column, passed := failed.isEmpty, evaluated := true
      detail :=
        if failed.isEmpty then toString slices.length ++ " slices within " ++ h.text guard.maxDrop
        else "regressed slices: " ++ ", ".intercalate (failed.map fun p =>
          p.1.shown ++ " (worse by " ++ h.fixed4 (drop p) ++ " > " ++ h.fixed4 (allowed p) ++ ")")
      values := slices.foldl (fun worst p => setItem worst p.1.shown (h.round6 (drop p))) [] }

def slice (guard : SliceGuard F) (context : Option (List (String × List (Cell κ)))) (cur cand : List (Row F))
    (stat : Stat F) (sign : F) (perRow : Bool) (column : String) : Except AdaptationError (GuardrailResult F) :=
  if !perRow then .ok ⟨"slice:" ++ column, true, false, "not applicable to this task's metric", []⟩
  else
    match context.bind (·.lookup column) with
    | none =>
      .ok ⟨"slice:" ++ column, !guard.requireColumns, false,
        "column " ++ h.quoted column ++ " is not in the held-out data", []⟩
    | some cells => (checked guard cells).map (sliceResult h guard column cur cand stat sign)

/-- One model on the held-out rows. -/
structure Scored (F : Type) where
  predictions : Labels F
  metrics : List (String × F)

def metricGuard (current candidate : Scored F) (guard : String × F) : GuardrailResult F :=
  match higherIsBetter guard.1 with
  | .error _ => ⟨"metric:" ++ guard.1, false, false, "unknown metric " ++ h.quoted guard.1, []⟩
  | .ok better =>
    match current.metrics.lookup guard.1, candidate.metrics.lookup guard.1 with
    | some cur, some cand =>
      let drop := (if better then 1 else -1) * (cur - cand)
      { name := "metric:" ++ guard.1, passed := drop ≤ guard.2, evaluated := true
        detail := "worse by " ++ h.fixed4 drop ++ " (allowed " ++ h.text guard.2 ++ ")"
        values := [("current", cur), ("candidate", cand)] }
    | _, _ => ⟨"metric:" ++ guard.1, true, false, "metric not defined for both models", []⟩

def metricGuards (policy : Policy F) (current candidate : Scored F) : List (GuardrailResult F) :=
  (policy.metricGuards.mergeSort fun a b => decide (a.1 ≤ b.1)).map (metricGuard h current candidate)

/-! ## The decision -/

/-- What the gate is asked: the held-out rows, both models on them, and what the guards on
calibration, latency and size found. -/
structure Question (F κ : Type) where
  metric : String
  X : List (List F)
  y : Option (Labels F)
  current : Scored F
  candidate : Scored F
  context : Option (List (String × List (Cell κ)))
  measured : List (GuardrailResult F)

inductive Verdict where
  | accept | reject
deriving DecidableEq, Repr

structure Primary (F : Type) where
  currentValue : F
  candidateValue : F
  delta : F
  ciLow : F
  ciHigh : F
  threshold : F
  ok : Bool
  wanted : String

structure GateDecision (F : Type) extends Primary F where
  verdict : Verdict
  reasons : List String
  policyVersion : String
  mode : Mode
  metric : String
  higherIsBetter : Bool
  confidence : F
  resamples : Nat
  nRows : Nat
  guardrails : List (GuardrailResult F)

def signOf (betterHigh : Bool) : F := if betterHigh then 1 else -1

/-- The primary test, from the bootstrapped improvements and the values of both models. -/
def primary [FloorSemiring F] (policy : Policy F) (sign : F) (diffs : List F) (currentValue candidateValue : F) :
    Primary F :=
  let alpha := 1 - policy.confidence
  let ciLow := Quantile.quantile diffs (alpha / 2)
  let base := policy.margin * (if policy.marginRelative then |currentValue| else 1)
  let test : Primary F :=
    { currentValue, candidateValue, delta := sign * (candidateValue - currentValue), ciLow
      ciHigh := Quantile.quantile diffs (1 - alpha / 2), threshold := base, ok := base < ciLow
      wanted := "improvement interval must lie above " ++ h.fixed4 base }
  match policy.mode with
  | .superiority => test
  | .nonInferiority =>
    { test with
      threshold := -base, ok := -base ≤ ciLow, wanted := "improvement interval must not go below " ++ h.fixed4 (-base) }

def Primary.summary (p : Primary F) (policy : Policy F) (metric : String) : String :=
  metric ++ ": candidate " ++ h.fixed4 p.candidateValue ++ " vs current " ++ h.fixed4 p.currentValue ++
    ", improvement " ++ h.signed4 p.delta ++ " with " ++ h.percent policy.confidence ++ " interval [" ++
    h.signed4 p.ciLow ++ ", " ++ h.signed4 p.ciHigh ++ "]"

/-- `reasons` before an acceptance is worded -/
def objections (policy : Policy F) (metric : String) (p : Primary F) (guardrails : List (GuardrailResult F)) :
    List String :=
  (if p.ok then [] else [p.summary h policy metric ++ "; " ++ policy.mode.value ++ " " ++ p.wanted]) ++
    (guardrails.filter (!·.passed)).map fun g => "guardrail " ++ g.name ++ " failed: " ++ g.detail

def verdictOn (policy : Policy F) (q : Question F κ) (betterHigh : Bool) (p : Primary F)
    (guardrails : List (GuardrailResult F)) : GateDecision F :=
  let reasons := objections h policy q.metric p guardrails
  { p with
    verdict := if reasons.isEmpty then .accept else .reject
    reasons :=
      if reasons.isEmpty then
        [p.summary h policy q.metric ++ " passes " ++ policy.mode.value ++ "; all guardrails passed"]
      else reasons
    policyVersion := policy.version, mode := policy.mode, metric := q.metric, higherIsBetter := betterHigh
    confidence := policy.confidence, resamples := policy.resamples, nRows := q.X.length, guardrails }

section
variable [FloorSemiring F] {σ : Type} (rng : Generator σ)

def defaultRng (seed : Int) : Except AdaptationError σ :=
  if seed < 0 then .error (pythonError "ValueError") else .ok (rng.seeded seed.toNat)

/-- The rows silhouettes are computed on; every row elsewhere. -/
def pairSample (policy : Policy F) (q : Question F κ) (r : σ) : List Nat × σ :=
  let limit := if q.metric = "silhouette" then policy.pairwiseMaxRows else q.X.length
  if limit < q.X.length then
    let chosen := rng.choice r q.X.length limit
    (chosen.1.mergeSort (fun a b => decide (a ≤ b)), chosen.2)
  else (List.range q.X.length, r)

def decide (policy : Policy F) (q : Question F κ) : Except AdaptationError (GateDecision F) := do
  let betterHigh ← higherIsBetter q.metric
  let sign : F := signOf betterHigh
  let start ← defaultRng rng policy.seed
  let sampled := pairSample rng policy q start
  let cur ← rows h q.metric q.y q.current.predictions q.X sampled.1
  let cand ← rows h q.metric q.y q.candidate.predictions q.X sampled.1
  let improvements := diffs rng policy cur.1 cand.1 cur.2 sign sampled.2
  let p := primary h policy sign improvements ((q.current.metrics.lookup q.metric).getD (point cur.1 cur.2))
    ((q.candidate.metrics.lookup q.metric).getD (point cand.1 cur.2))
  let slices ← policy.slices.columns.mapM
    (slice h policy.slices q.context cur.1 cand.1 cur.2 sign (q.metric ≠ "silhouette"))
  .ok (verdictOn h policy q betterHigh p (slices ++ q.measured ++ metricGuards h policy q.current q.candidate))

structure DecidedBy (policy : Policy F) (q : Question F κ) (d : GateDecision F) (betterHigh : Bool)
    (sampled : List Nat × σ) (cur cand : List (Row F) × Stat F) (slices : List (GuardrailResult F)) : Prop where
  sign : higherIsBetter q.metric = .ok betterHigh
  curRows : rows h q.metric q.y q.current.predictions q.X sampled.1 = .ok cur
  candRows : rows h q.metric q.y q.candidate.predictions q.X sampled.1 = .ok cand
  sliced : policy.slices.columns.mapM (slice h policy.slices q.context cur.1 cand.1 cur.2 (signOf betterHigh)
    (q.metric ≠ "silhouette")) = .ok slices
  made : d = verdictOn h policy q betterHigh
    (primary h policy (signOf betterHigh) (diffs rng policy cur.1 cand.1 cur.2 (signOf betterHigh) sampled.2)
      ((q.current.metrics.lookup q.metric).getD (point cur.1 cur.2))
      ((q.candidate.metrics.lookup q.metric).getD (point cand.1 cur.2)))
    (slices ++ q.measured ++ metricGuards h policy q.current q.candidate)

theorem decide_ok {policy : Policy F} {q : Question F κ} {d : GateDecision F} (hd : decide h rng policy q = .ok d) :
    ∃ betterHigh sampled cur cand slices, DecidedBy h rng policy q d betterHigh sampled cur cand slices := by
  obtain ⟨betterHigh, hsign, hd⟩ := bind_ok hd
  obtain ⟨start, -, hd⟩ := bind_ok hd
  obtain ⟨cur, hcur, hd⟩ := bind_ok hd
  obtain ⟨cand, hcand, hd⟩ := bind_ok hd
  obtain ⟨slices, hslices, hd⟩ := bind_ok hd
  exact ⟨betterHigh, _, cur, cand, slices, hsign, hcur, hcand, hslices, (Except.ok.inj hd).symm⟩

variable {h rng} {policy : Policy F} {q : Question F κ} {d : GateDecision F} {betterHigh : Bool}
  {sampled : List Nat × σ} {cur cand : List (Row F) × Stat F} {slices : List (GuardrailResult F)}

omit [FloorSemiring F] in
theorem objections_eq_nil (h : GateHost F) (policy : Policy F) (metric : String) {p : Primary F}
    {guardrails : List (GuardrailResult F)} :
    objections h policy metric p guardrails = [] ↔ p.ok = true ∧ ∀ g ∈ guardrails, g.passed = true := by
  rw [objections, List.append_eq_nil_iff, List.map_eq_nil_iff, List.filter_eq_nil_iff]
  refine and_congr ?_ ?_
  · cases p.ok with
    | true => simp
    | false => simp
  · simp

theorem DecidedBy.ok_eq (hby : DecidedBy h rng policy q d betterHigh sampled cur cand slices) :
    d.ok = (primary h policy (signOf betterHigh) (diffs rng policy cur.1 cand.1 cur.2 (signOf betterHigh) sampled.2)
      ((q.current.metrics.lookup q.metric).getD (point cur.1 cur.2))
      ((q.candidate.metrics.lookup q.metric).getD (point cand.1 cur.2))).ok := by
  rw [hby.made]
  rfl

theorem DecidedBy.guardrails_eq (hby : DecidedBy h rng policy q d betterHigh sampled cur cand slices) :
    d.guardrails = slices ++ q.measured ++ metricGuards h policy q.current q.candidate := by
  rw [hby.made]
  rfl

/-- A candidate is accepted where the primary test and every guardrail pass. -/
theorem DecidedBy.accept_iff (hby : DecidedBy h rng policy q d betterHigh sampled cur cand slices) :
    d.verdict = .accept ↔ d.ok = true ∧ ∀ g ∈ d.guardrails, g.passed = true := by
  rw [hby.ok_eq, hby.guardrails_eq, ← objections_eq_nil h policy q.metric, hby.made]
  rw [← List.isEmpty_iff, verdictOn]
  simp only
  split
  · rename_i hnone
    exact iff_of_true rfl hnone
  · rename_i hsome
    exact iff_of_false (by simp) hsome

end

end

end OranAdapt.Gate
