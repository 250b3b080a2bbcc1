import Mathlib.Data.Rat.Floor
import OranAdapt.Store

/-!
# Windows over time

`adaptation.sequence`: the rows of a table, oldest first, are split by time and
cut into windows that end with the row they are for. A window that begins before
the first row repeats that row.
-/

namespace OranAdapt.SequenceWindows

/-- `round` of a number, to the even integer between two. -/
def pyRound (q : Rat) : Int :=
  if q - ⌊q⌋ = 1 / 2 then if ⌊q⌋ % 2 = 0 then ⌊q⌋ else ⌊q⌋ + 1 else ⌊q + 1 / 2⌋

def pyRange (start stop : Nat) : List Nat := List.range' start (stop - start)

def timeOrderedSplit (n : Nat) (fraction : Rat) : List Nat × List Nat :=
  if n < 2 ∨ fraction ≤ 0 then (pyRange 0 n, pyRange n n)
  else
    let held := min (n - 1) (max 1 (pyRound (n * fraction))).toNat
    (pyRange 0 (n - held), pyRange (n - held) n)

/-- An array of rows, or one of another number of dimensions. -/
inductive SequenceInput (ρ : Type) where
  | table (rows : List ρ)
  | array (shape : List Nat)

section
variable {ρ σ τ : Type} (asFloat32 : ρ → σ)

def SequenceInput.len : SequenceInput ρ → Except AdaptationError Nat
  | .table rows => .ok rows.length
  | .array (n :: _) => .ok n
  | .array [] => .error (pythonError "TypeError")

/-- The rows behind as many copies of the first as a window can reach back. -/
def padded (rows : List σ) (window : Nat) : List σ := (rows.take 1).flatMap (List.replicate (window - 1)) ++ rows

/-- `sliding_windows`. The shape in an error's context has its numbers as texts. -/
def slidingWindows (X : SequenceInput ρ) (window : Int) : Except AdaptationError (List (List σ)) :=
  if window < 1 then .error ⟨.artifactError, "a sequence window must hold at least one row", [("window", .num window)]⟩
  else match X with
    | .array shape =>
      .error ⟨.artifactError, "sequence input must be a table of rows", [("shape", .strs (shape.map toString))]⟩
    | .table rows =>
      let rows := rows.map asFloat32
      if rows.length = 0 then .ok []
      else
        (List.range rows.length).mapM fun i => (List.range window.toNat).mapM fun j =>
          orRaise "IndexError" (padded rows window.toNat)[i + j]?

def trainingWindows (X : SequenceInput ρ) (y : List τ)
    (window : Int) : Except AdaptationError (List (List σ) × List τ) := do
  let n ← X.len
  if (n : Int) < window then
    .error ⟨.artifactError, "a sequence model with a window of " ++ toString window ++
      " rows needs at least " ++ toString window ++
      " training rows, got " ++ toString n, [("window", .num window), ("rows", .nat n)]⟩
  else do
    let windows ← slidingWindows asFloat32 X window
    .ok (windows.drop (window - 1).toNat, y.drop (window - 1).toNat)

end

/-! ## The split -/

theorem pyRange_append {a b c : Nat} (hab : a ≤ b) (hbc : b ≤ c) : pyRange a b ++ pyRange b c = pyRange a c := by
  rw [pyRange, pyRange, pyRange]
  conv_lhs => rw [show b = a + (b - a) by omega]
  rw [show a + (b - a) - a = b - a by omega, List.range'_append_1, show b - a + (c - (a + (b - a))) = c - a by omega]

theorem pyRange_ne_nil {a b : Nat} (h : a < b) : pyRange a b ≠ [] := by
  rw [pyRange, ne_eq, List.range'_eq_nil_iff]
  omega

theorem timeOrderedSplit_parts {n : Nat} {fraction : Rat} (hn : 2 ≤ n) (hpos : 0 < fraction) :
    ∃ held, 1 ≤ held ∧ held < n ∧ timeOrderedSplit n fraction = (pyRange 0 (n - held), pyRange (n - held) n) := by
  refine ⟨min (n - 1) (max 1 (pyRound (n * fraction))).toNat, ?_, ?_, ?_⟩
  · omega
  · omega
  · rw [timeOrderedSplit, if_neg]
    intro h
    cases h with
    | inl hfew => omega
    | inr hzero => exact absurd hpos (not_lt.mpr hzero)

/-! ## The windows -/

section
variable {ρ σ τ : Type} {asFloat32 : ρ → σ}

theorem padded_getElem? {rows : List σ} (h : rows ≠ [])
    (window p : Nat) : (padded rows window)[p]? = rows[p - (window - 1)]? := by
  cases rows with
  | nil => exact absurd rfl h
  | cons first rest =>
    have hpadded : padded (first :: rest) window = List.replicate (window - 1) first ++ first :: rest := by
      simp [padded]
    rw [hpadded]
    by_cases hp : p < window - 1
    · rw [List.getElem?_append_left (by simpa using hp), List.getElem?_replicate, if_pos hp,
        show p - (window - 1) = 0 by omega]
      rfl
    · rw [List.getElem?_append_right (by simpa using hp), List.length_replicate]

theorem mapM_range {α : Type} {f : Nat → Except AdaptationError α} {n : Nat} (h : ∀ j < n, ∃ a, f j = .ok a) :
    ∃ as, (List.range n).mapM f = .ok as ∧ as.length = n ∧ ∀ j < n, ∃ a, f j = .ok a ∧ as[j]? = some a := by
  obtain ⟨as, has⟩ := mapM_total fun j hj => h j (List.mem_range.mp hj)
  obtain ⟨hlength, heach⟩ := List.forall₂_iff_get.mp (mapM_ok has)
  rw [List.length_range] at hlength
  refine ⟨as, has, hlength.symm, ?_⟩
  intro j hj
  have hget := heach j (by simpa using hj) (by omega)
  simp only [List.get_eq_getElem, List.getElem_range] at hget
  exact ⟨as[j], hget, List.getElem?_eq_getElem _⟩

variable {rows : List ρ} {window : Int}

def rowAt (rows : List ρ) (window : Int) (i j : Nat) : Option ρ := rows[(max 0 ((i : Int) - window + 1 + j)).toNat]?

theorem slidingWindows_ok (asFloat32 : ρ → σ) (rows : List ρ) {window : Int} (hw : 1 ≤ window) :
    ∃ windows, slidingWindows asFloat32 (.table rows) window = .ok windows ∧
    windows.length = rows.length ∧ ∀ i < rows.length, ∃ cut, windows[i]? = some cut ∧ cut.length = window.toNat ∧
      ∀ j < window.toNat, cut[j]? = (rowAt rows window i j).map asFloat32 := by
  by_cases hempty : rows = []
  · subst hempty
    refine ⟨[], ?_, rfl, ?_⟩
    · rw [slidingWindows, if_neg (by omega)]
      rfl
    · intro i hi
      cases hi
  · have hpositive : rows.length ≠ 0 := fun h => hempty (List.length_eq_zero_iff.mp h)
    have hcast : rows.map asFloat32 ≠ [] := fun h => hempty (List.map_eq_nil_iff.mp h)
    have hposition : ∀ i j, (padded (rows.map asFloat32) window.toNat)[i + j]? = (rowAt rows window i j).map asFloat32 := by
      intro i j
      rw [padded_getElem? hcast, List.getElem?_map, rowAt,
        show i + j - (window.toNat - 1) = (max 0 ((i : Int) - window + 1 + j)).toNat by omega]
    have hin : ∀ i < rows.length, ∀ j < window.toNat, ∃ x, (rowAt rows window i j).map asFloat32 = some x := by
      intro i hi j hj
      rw [rowAt, List.getElem?_eq_getElem (by omega)]
      exact ⟨_, rfl⟩
    have hcut : ∀ i < rows.length, ∃ cut, ((List.range window.toNat).mapM fun j =>
        orRaise "IndexError" (padded (rows.map asFloat32) window.toNat)[i + j]?) = .ok cut ∧ cut.length = window.toNat ∧
          ∀ j < window.toNat, cut[j]? = (rowAt rows window i j).map asFloat32 := by
      intro i hi
      obtain ⟨cut, hmap, hlength, heach⟩ := mapM_range (n := window.toNat)
        (f := fun j => orRaise "IndexError" (padded (rows.map asFloat32) window.toNat)[i + j]?) (by
          intro j hj
          obtain ⟨x, hx⟩ := hin i hi j hj
          rw [hposition, hx]
          exact ⟨x, rfl⟩)
      refine ⟨cut, hmap, hlength, ?_⟩
      intro j hj
      obtain ⟨x, hx, hget⟩ := heach j hj
      rw [hget, ← hposition, orRaise_ok hx]
    obtain ⟨windows, hmap, hlength, heach⟩ := mapM_range fun i hi => (hcut i hi).imp fun _ h => h.1
    refine ⟨windows, ?_, hlength, ?_⟩
    · rw [slidingWindows, if_neg (by omega)]
      simp only [List.length_map]
      rw [if_neg hpositive]
      exact hmap
    · intro i hi
      obtain ⟨cut, hrow, hget⟩ := heach i hi
      obtain ⟨cut', hrow', hcut'⟩ := hcut i hi
      rw [hrow] at hrow'
      cases hrow'
      exact ⟨cut, hget, hcut'⟩

theorem whole_window {i : Nat} {cut : List σ} (hw : 1 ≤ window) (hwhole : window.toNat ≤ i + 1)
    (hlength : cut.length = window.toNat) (heach : ∀ j < window.toNat, cut[j]? = (rowAt rows window i j).map asFloat32) :
    cut = ((rows.drop (i + 1 - window.toNat)).take window.toNat).map asFloat32 := by
  apply List.ext_getElem?
  intro j
  by_cases hj : j < window.toNat
  · rw [heach j hj, List.getElem?_map, List.getElem?_take_of_lt hj, List.getElem?_drop, rowAt,
      show (max 0 ((i : Int) - window + 1 + j)).toNat = i + 1 - window.toNat + j by omega]
  · rw [List.getElem?_eq_none (by omega), List.getElem?_eq_none (by simp; omega)]

theorem trainingWindows_ok {y : List τ} (hw : 1 ≤ window) (henough : window ≤ rows.length) :
    trainingWindows asFloat32 (.table rows) y window =
      .ok ((List.range (rows.length + 1 - window.toNat)).map fun k => ((rows.drop k).take window.toNat).map asFloat32,
        y.drop (window - 1).toNat) := by
  obtain ⟨windows, hwindows, hlength, heach⟩ := slidingWindows_ok asFloat32 rows hw
  have hkept : windows.drop (window - 1).toNat =
      (List.range (rows.length + 1 - window.toNat)).map fun k => ((rows.drop k).take window.toNat).map asFloat32 := by
    apply List.ext_getElem?
    intro k
    rw [List.getElem?_drop, List.getElem?_map]
    by_cases hk : k < rows.length + 1 - window.toNat
    · obtain ⟨cut, hget, hsize, hrows⟩ := heach ((window - 1).toNat + k) (by omega)
      rw [hget, whole_window hw (by omega) hsize hrows, List.getElem?_range hk,
        show (window - 1).toNat + k + 1 - window.toNat = k by omega]
      rfl
    · rw [List.getElem?_eq_none (by omega), List.getElem?_eq_none (by simpa using hk)]
      rfl
  have hlen : ¬ ((rows.length : Int) < window) := by omega
  show (if (rows.length : Int) < window then _ else _) = _
  rw [if_neg hlen, hwindows, ← hkept]
  rfl

/-- Windows look back only, those to train on are whole, and the newer part of a split validates. -/
theorem windows_look_back (asFloat32 : ρ → σ) (rows : List ρ) (y : List τ) {window : Int} (hw : 1 ≤ window) :
    (∃ windows, slidingWindows asFloat32 (.table rows) window = .ok windows ∧ windows.length = rows.length ∧
      ∀ i < rows.length, ∃ cut, windows[i]? = some cut ∧ cut.length = window.toNat ∧ ∀ j < window.toNat,
        cut[j]? = (rows[(max 0 ((i : Int) - window + 1 + j)).toNat]?).map asFloat32 ∧
          max 0 ((i : Int) - window + 1 + j) ≤ i) ∧
    (window ≤ rows.length → ∃ windows targets,
      trainingWindows asFloat32 (.table rows) y window = .ok (windows, targets) ∧
      windows = ((List.range (rows.length + 1 - window.toNat)).map fun k =>
        ((rows.drop k).take window.toNat).map asFloat32) ∧
      (∀ k < windows.length, targets[k]? = y[k + window.toNat - 1]?) ∧
        (y.length = rows.length → targets.length = windows.length)) ∧
    ∀ (n : Nat) (fraction : Rat), 2 ≤ n → 0 < fraction →
      ∃ train held, timeOrderedSplit n fraction = (train, held) ∧
      train ++ held = List.range n ∧ train ≠ [] ∧ held ≠ [] := by
  refine ⟨?_, ?_, ?_⟩
  · obtain ⟨windows, hwindows, hlength, heach⟩ := slidingWindows_ok asFloat32 rows hw
    refine ⟨windows, hwindows, hlength, ?_⟩
    intro i hi
    obtain ⟨cut, hget, hsize, hrows⟩ := heach i hi
    refine ⟨cut, hget, hsize, ?_⟩
    intro j hj
    exact ⟨hrows j hj, by omega⟩
  · intro henough
    refine ⟨_, _, trainingWindows_ok hw henough, rfl, ?_, ?_⟩
    · intro k _
      rw [List.getElem?_drop, show (window - 1).toNat + k = k + window.toNat - 1 by omega]
    · intro htargets
      rw [List.length_drop, List.length_map, List.length_range]
      omega
  · intro n fraction hn hpos
    obtain ⟨held, hsome, hfew, hsplit⟩ := timeOrderedSplit_parts hn hpos
    refine ⟨_, _, hsplit, ?_, pyRange_ne_nil (by omega), pyRange_ne_nil (by omega)⟩
    rw [pyRange_append (Nat.zero_le _) (Nat.sub_le n held), pyRange, List.range_eq_range', Nat.sub_zero]

theorem windows_look_back_three : ∃ windows targets,
    trainingWindows id (.table ["a", "b", "c", "d"]) ["p", "q", "r", "s"] 3 = .ok (windows, targets) ∧
      windows = [["a", "b", "c"], ["b", "c", "d"]] ∧ targets.length = 2 := by
  obtain ⟨_, htraining, _⟩ := windows_look_back id ["a", "b", "c", "d"] ["p", "q", "r", "s"]
    (show (1 : Int) ≤ 3 by decide)
  obtain ⟨windows, targets, hrun, hwindows, _, hlength⟩ := htraining (by decide)
  refine ⟨windows, targets, hrun, hwindows, ?_⟩
  rw [hlength rfl, hwindows]
  rfl

end

end OranAdapt.SequenceWindows
