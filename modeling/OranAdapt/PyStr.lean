import OranAdapt.PyNumbers

/-!
# Texts taken apart

Methods of `str` on the list of its characters.
-/

namespace PyStr

def isSpace (c : Char) : Bool := PyInt.blank c || (0x1c ≤ c.toNat && c.toNat ≤ 0x1f)

/-- A property of each character of a text, by looking at them. -/
theorem forall_chars {p : Char → Prop} [DecidablePred p] {cs : List Char}
    (h : cs.all (fun c => decide (p c)) = true) : ∀ c ∈ cs, p c :=
  fun c hc => of_decide_eq_true (List.all_eq_true.mp h c hc)

/-- The text without the characters at its two ends that have the property. -/
def stripBy (drop : Char → Bool) (text : List Char) : List Char := ((text.dropWhile drop).reverse.dropWhile drop).reverse

def strip (text : List Char) : List Char := stripBy isSpace text

def unbracket (text : List Char) : List Char := stripBy (· ∈ ['[', ']']) text

/-- `text.partition(sep)`: what stands before the first separator, and what follows it, if there is one. -/
def partition (sep : Char) : List Char → List Char × Option (List Char)
  | [] => ([], none)
  | c :: cs => if c = sep then ([], some cs) else ((c :: (partition sep cs).1), (partition sep cs).2)

/-- `text.rpartition(sep)[2]`, what follows the last separator. -/
def afterLast (sep : Char) (text : List Char) : List Char := (text.reverse.takeWhile (· ≠ sep)).reverse

/-- `text.rpartition(sep)`: what stands before the last separator and what follows it, if there is one. -/
def rpartition (sep : Char) : List Char → Option (List Char × List Char)
  | [] => none
  | c :: cs =>
    match rpartition sep cs with
    | some (before, after) => some (c :: before, after)
    | none => if c = sep then some ([], cs) else none

def partitionAt (sep : List Char) : List Char → List Char × Option (List Char)
  | [] => if sep = [] then ([], some []) else ([], none)
  | c :: cs =>
    if sep.isPrefixOf (c :: cs) then ([], some ((c :: cs).drop sep.length))
    else ((c :: (partitionAt sep cs).1), (partitionAt sep cs).2)

/-- What `text.split(sep)` has still to read: how much of a separator is left, and the piece it is in. -/
def splitRest (sep : List Char) : Nat → List Char → List Char → List (List Char)
  | _, piece, [] => [piece]
  | skip + 1, piece, _ :: cs => splitRest sep skip piece cs
  | 0, piece, c :: cs =>
    if sep.isPrefixOf (c :: cs) then piece :: splitRest sep (sep.length - 1) [] cs
    else splitRest sep 0 (piece ++ [c]) cs

def split (sep text : List Char) : List (List Char) := splitRest sep 0 [] text

example : split ", ".toList "a, b,, c".toList = ["a".toList, "b,".toList, "c".toList] := by decide

/-! ## Where a text is taken apart -/

section
variable {sep : Char} {before after text : List Char}

theorem partition_of_notMem (h : sep ∉ text) : partition sep text = (text, none) := by
  induction text with
  | nil => rfl
  | cons c cs ih =>
    rw [List.mem_cons, not_or] at h
    rw [partition, if_neg (Ne.symm h.1), ih h.2]

theorem partition_append (h : sep ∉ before) :
    partition sep (before ++ text) = (before ++ (partition sep text).1, (partition sep text).2) := by
  induction before with
  | nil => rfl
  | cons c cs ih =>
    rw [List.mem_cons, not_or] at h
    rw [List.cons_append, partition, if_neg (Ne.symm h.1), ih h.2]
    rfl

theorem partition_join (h : sep ∉ before) : partition sep (before ++ sep :: after) = (before, some after) := by
  rw [partition_append h]
  simp [partition]

theorem notMem_partition : sep ∉ (partition sep text).1 := by
  induction text with
  | nil => simp [partition]
  | cons c cs ih =>
    by_cases hc : c = sep
    · simp [partition, hc]
    · simp [partition, hc, ih, Ne.symm hc]

theorem exists_partition (h : sep ∈ text) :
    ∃ before after, sep ∉ before ∧ text = before ++ sep :: after ∧ partition sep text = (before, some after) := by
  obtain ⟨before, after, rfl, hbefore⟩ := List.eq_append_cons_of_mem h
  exact ⟨before, after, hbefore, rfl, partition_join hbefore⟩

theorem rpartition_of_notMem (h : sep ∉ text) : rpartition sep text = none := by
  induction text with
  | nil => rfl
  | cons c cs ih =>
    rw [List.mem_cons, not_or] at h
    simp [rpartition, ih h.2, Ne.symm h.1]

theorem rpartition_join (h : sep ∉ after) : rpartition sep (before ++ sep :: after) = some (before, after) := by
  induction before with
  | nil => simp [rpartition, rpartition_of_notMem h]
  | cons c cs ih => simp [rpartition, ih]

theorem exists_last (h : sep ∈ text) : ∃ before after, text = before ++ sep :: after ∧ sep ∉ after := by
  obtain ⟨before, after, htext, hbefore⟩ := List.eq_append_cons_of_mem (List.mem_reverse.mpr h)
  refine ⟨after.reverse, before.reverse, ?_, by simpa using hbefore⟩
  rw [← List.reverse_reverse text, htext]
  simp

theorem afterLast_of_notMem (h : sep ∉ text) : afterLast sep text = text := by
  have hall : ∀ c ∈ text.reverse, (decide (c ≠ sep)) = true := by
    intro c hc
    rw [List.mem_reverse] at hc
    have : c ≠ sep := by
      rintro rfl
      exact h hc
    simpa using this
  rw [afterLast, List.takeWhile_eq_self_iff.mpr hall, List.reverse_reverse]

theorem afterLast_join (h : sep ∉ after) : afterLast sep (before ++ sep :: after) = after := by
  have hall : ∀ c ∈ after.reverse, (decide (c ≠ sep)) = true := by
    intro c hc
    rw [List.mem_reverse] at hc
    have : c ≠ sep := by
      rintro rfl
      exact h hc
    simpa using this
  rw [afterLast, List.reverse_append, List.reverse_cons, List.append_assoc, List.takeWhile_append_of_pos hall]
  simp

theorem afterLast_append_of_mem (h : sep ∈ after) : afterLast sep (before ++ after) = afterLast sep after := by
  obtain ⟨front, tail, rfl, htail⟩ := exists_last h
  rw [← List.append_assoc, afterLast_join htail, afterLast_join htail]

theorem afterLast_append_of_notMem (h : sep ∉ after) : afterLast sep (before ++ after) = afterLast sep before ++ after := by
  by_cases hbefore : sep ∈ before
  · obtain ⟨front, tail, rfl, htail⟩ := exists_last hbefore
    have hall : sep ∉ tail ++ after := by simp [htail, h]
    rw [List.append_assoc, List.cons_append, afterLast_join hall, afterLast_join htail]
  · have hall : sep ∉ before ++ after := by simp [hbefore, h]
    rw [afterLast_of_notMem hall, afterLast_of_notMem hbefore]

theorem afterLast_after : afterLast sep (before ++ sep :: text) = afterLast sep text := by
  by_cases h : sep ∈ text
  · rw [← List.singleton_append, ← List.append_assoc, afterLast_append_of_mem h]
  · rw [afterLast_join h, afterLast_of_notMem h]

theorem mem_of_mem_afterLast {c : Char} (h : c ∈ afterLast sep text) : c ∈ text := by
  rw [afterLast, List.mem_reverse] at h
  exact List.mem_reverse.mp ((List.takeWhile_prefix _).subset h)

end

end PyStr
