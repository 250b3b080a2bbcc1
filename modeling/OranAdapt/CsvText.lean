import Mathlib.Data.List.Basic

/-!
# Rows written as CSV

What `csv.writer(lineterminator="\n")` writes: a field that holds a comma, a
quote or the end of a line is quoted, with its quotes doubled, and so is an
empty field that is alone in its row. The text says which rows were written.
-/

namespace CsvText

def special (c : Char) : Bool := c ∈ [',', '"', '\n', '\r']

/-- Each quote is written twice. -/
def doubled : List Char → List Char
  | [] => []
  | c :: cs => if c = '"' then '"' :: '"' :: doubled cs else c :: doubled cs

def field (alone : Bool) (text : List Char) : List Char :=
  if alone || text.any special then '"' :: (doubled text ++ ['"']) else text

/-- The fields behind the first one, and the end of the line. -/
def more : List (List Char) → List Char
  | [] => ['\n']
  | f :: fs => ',' :: (field false f ++ more fs)

def line : List (List Char) → List Char
  | [] => ['\n']
  | f :: fs => field (f = [] && fs.isEmpty) f ++ more fs

def lines (rows : List (List (List Char))) : List Char := rows.flatMap line

example : lines [["a,b".toList, "c\"".toList], [[]]] = "\"a,b\",\"c\"\"\"\n\"\"\n".toList := by decide

/-! ## What was written -/

section
variable {a b s t : List Char} {alone alone' : Bool} {fs gs : List (List Char)}

def Ends (s : List Char) : Prop := ∃ c rest, s = c :: rest ∧ (c = ',' ∨ c = '\n')

theorem ends_more (fs : List (List Char)) (s : List Char) : Ends (more fs ++ s) := by
  cases fs with
  | nil => exact ⟨'\n', s, rfl, .inr rfl⟩
  | cons f fs => exact ⟨',', field false f ++ more fs ++ s, rfl, .inl rfl⟩

theorem Ends.special (h : Ends s) : ∃ c rest, s = c :: rest ∧ CsvText.special c = true ∧ c ≠ '"' := by
  obtain ⟨c, rest, rfl, hc⟩ := h
  rcases hc with rfl | rfl
  · exact ⟨',', rest, rfl, by decide, by decide⟩
  · exact ⟨'\n', rest, rfl, by decide, by decide⟩

theorem doubled_inj (hs : Ends s) (ht : Ends t) (h : doubled a ++ '"' :: s = doubled b ++ '"' :: t) : a = b ∧ s = t := by
  obtain ⟨c, s', hs', _, hc⟩ := hs.special
  obtain ⟨d, t', ht', _, hd⟩ := ht.special
  induction a generalizing b with
  | nil =>
    cases b with
    | nil => exact ⟨rfl, (List.cons.inj h).2⟩
    | cons y b =>
      by_cases hy : y = '"'
      · simp [doubled, hy, hs'] at h
        exact absurd h.1 hc
      · simp [doubled, hy, Ne.symm hy] at h
  | cons x a ih =>
    cases b with
    | nil =>
      by_cases hx : x = '"'
      · simp [doubled, hx, ht'] at h
        exact absurd h.1.symm hd
      · simp [doubled, hx] at h
    | cons y b =>
      by_cases hx : x = '"'
      · by_cases hy : y = '"'
        · simp only [doubled, hx, hy, if_true, List.cons_append, List.cons.injEq, true_and] at h
          obtain ⟨hab, hst⟩ := ih h
          exact ⟨by rw [hx, hy, hab], hst⟩
        · simp [doubled, hx, hy, Ne.symm hy] at h
      · by_cases hy : y = '"'
        · simp [doubled, hx, hy] at h
        · simp only [doubled, hx, hy, if_false, List.cons_append, List.cons.injEq] at h
          obtain ⟨hab, hst⟩ := ih h.2
          exact ⟨by rw [h.1, hab], hst⟩

theorem plain_inj (ha : a.any special = false) (hb : b.any special = false) (hs : Ends s)
    (ht : Ends t) (h : a ++ s = b ++ t) :
    a = b ∧ s = t := by
  obtain ⟨c, s', rfl, hc, _⟩ := hs.special
  obtain ⟨d, t', rfl, hd, _⟩ := ht.special
  induction a generalizing b with
  | nil =>
    cases b with
    | nil => exact ⟨rfl, h⟩
    | cons y b =>
      rw [List.any_cons, Bool.or_eq_false_iff] at hb
      rw [(List.cons.inj h).1, hb.1] at hc
      cases hc
  | cons x a ih =>
    rw [List.any_cons, Bool.or_eq_false_iff] at ha
    cases b with
    | nil =>
      rw [← (List.cons.inj h).1, ha.1] at hd
      cases hd
    | cons y b =>
      rw [List.any_cons, Bool.or_eq_false_iff] at hb
      obtain ⟨hxy, h⟩ := List.cons.inj h
      obtain ⟨hab, hst⟩ := ih ha.2 hb.2 h
      exact ⟨by rw [hxy, hab], hst⟩

/-- A text without a special character does not begin like a quoted one. -/
theorem head_plain (hb : b.any special = false) (ht : Ends t) {rest : List Char} : '"' :: rest ≠ b ++ t := by
  intro h
  cases b with
  | nil =>
    obtain ⟨d, t', rfl, _, hd⟩ := ht.special
    exact hd (List.cons.inj h).1.symm
  | cons y b =>
    rw [List.any_cons, Bool.or_eq_false_iff, ← (List.cons.inj h).1] at hb
    exact absurd hb.1 (by decide)

theorem field_quoted (h : (alone || a.any special) = true) : field alone a ++ s = '"' :: (doubled a ++ '"' :: s) := by
  rw [field, if_pos h]
  simp

theorem field_plain (h : (alone || a.any special) = false) : field alone a ++ s = a ++ s := by
  rw [field, if_neg (by simp [h])]

theorem field_inj (hs : Ends s) (ht : Ends t) (h : field alone a ++ s = field alone' b ++ t) : a = b ∧ s = t := by
  cases ha : (alone || a.any special) with
  | true =>
    rw [field_quoted ha] at h
    cases hb : (alone' || b.any special) with
    | true =>
      rw [field_quoted hb] at h
      exact doubled_inj hs ht (List.cons.inj h).2
    | false =>
      rw [field_plain hb] at h
      exact absurd h (head_plain (Bool.or_eq_false_iff.mp hb).2 ht)
  | false =>
    rw [field_plain ha] at h
    cases hb : (alone' || b.any special) with
    | true =>
      rw [field_quoted hb] at h
      exact absurd h.symm (head_plain (Bool.or_eq_false_iff.mp ha).2 hs)
    | false =>
      rw [field_plain hb] at h
      exact plain_inj (Bool.or_eq_false_iff.mp ha).2 (Bool.or_eq_false_iff.mp hb).2 hs ht h

theorem more_inj (h : more fs ++ s = more gs ++ t) : fs = gs ∧ s = t := by
  induction fs generalizing gs with
  | nil =>
    cases gs with
    | nil => exact ⟨rfl, (List.cons.inj h).2⟩
    | cons g gs => exact absurd (List.cons.inj h).1 (by decide)
  | cons f fs ih =>
    cases gs with
    | nil => exact absurd (List.cons.inj h).1 (by decide)
    | cons g gs =>
      simp only [more, List.cons_append, List.append_assoc, List.cons.injEq, true_and] at h
      obtain ⟨rfl, hmore⟩ := field_inj (ends_more fs s) (ends_more gs t) h
      obtain ⟨rfl, hst⟩ := ih hmore
      exact ⟨rfl, hst⟩

/-- A row with a field does not begin with the end of a line. -/
theorem line_ne_newline {f : List Char} : line (f :: fs) ++ s ≠ '\n' :: t := by
  intro h
  rw [line, List.append_assoc] at h
  cases hq : ((decide (f = []) && fs.isEmpty) || f.any special) with
  | true =>
    rw [field_quoted hq] at h
    exact absurd (List.cons.inj h).1 (by decide)
  | false =>
    rw [field_plain hq] at h
    rw [Bool.or_eq_false_iff] at hq
    cases f with
    | nil =>
      cases fs with
      | nil => exact absurd hq.1 (by decide)
      | cons g gs => exact absurd (List.cons.inj h).1 (by decide)
    | cons c f =>
      rw [List.any_cons, Bool.or_eq_false_iff, (List.cons.inj h).1] at hq
      exact absurd hq.2.1 (by decide)

theorem line_inj (h : line fs ++ s = line gs ++ t) : fs = gs ∧ s = t := by
  cases fs with
  | nil =>
    cases gs with
    | nil => exact ⟨rfl, (List.cons.inj h).2⟩
    | cons g gs => exact absurd h.symm line_ne_newline
  | cons f fs =>
    cases gs with
    | nil => exact absurd h line_ne_newline
    | cons g gs =>
      rw [line, line, List.append_assoc, List.append_assoc] at h
      obtain ⟨rfl, hmore⟩ := field_inj (ends_more fs s) (ends_more gs t) h
      obtain ⟨rfl, hst⟩ := more_inj hmore
      exact ⟨rfl, hst⟩

theorem line_ne_nil : line fs ≠ [] := by
  cases fs with
  | nil => simp [line]
  | cons f fs =>
    cases fs <;> simp [line, more]

theorem lines_inj {rows rows' : List (List (List Char))} (h : lines rows = lines rows') : rows = rows' := by
  induction rows generalizing rows' with
  | nil =>
    cases rows' with
    | nil => rfl
    | cons r rows' => exact absurd (List.append_eq_nil_iff.mp h.symm).1 line_ne_nil
  | cons r rows ih =>
    cases rows' with
    | nil => exact absurd (List.append_eq_nil_iff.mp h).1 line_ne_nil
    | cons r' rows' =>
      obtain ⟨rfl, hrest⟩ := line_inj h
      rw [ih hrest]

end

end CsvText
