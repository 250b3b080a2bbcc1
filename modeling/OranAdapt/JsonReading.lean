import Mathlib.Data.List.Sort
import Mathlib.Data.String.Basic
import OranAdapt.JsonText
import OranAdapt.PyNumbers

/-!
# JSON read back

`json.dumps` with any separators and indentation, and `json.loads`: whatever
blanks a text is laid out with, the value it was written for is read from it.
With `sort_keys=True` two values are the same where they differ in the order of
their dicts' items alone.
-/

namespace OranAdapt

namespace Json

def blank (c : Char) : Bool := c == ' ' || c == '\n' || c == '\r' || c == '\t'

/-- The blanks that `json.dumps` puts behind an opening bracket, between two items, in front of a
closing bracket (each by the depth it stands at) and behind a colon. -/
structure Layout where
  opening : Nat → List Char
  between : Nat → List Char
  closing : Nat → List Char
  colon : List Char
  opening_blank : ∀ d, ∀ c ∈ opening d, blank c = true
  between_blank : ∀ d, ∀ c ∈ between d, blank c = true
  closing_blank : ∀ d, ∀ c ∈ closing d, blank c = true
  colon_blank : ∀ c ∈ colon, blank c = true

/-- A new line at a depth, two blanks for each level. -/
def newline (d : Nat) : List Char := '\n' :: List.replicate (2 * d) ' '

theorem blank_newline (d : Nat) : ∀ c ∈ newline d, blank c = true := by
  intro c hc
  rcases List.mem_cons.mp hc with rfl | hc
  · rfl
  · rw [List.eq_of_mem_replicate hc]
    rfl

namespace Layout

def compact : Layout where
  opening _ := []
  between _ := []
  closing _ := []
  colon := []
  opening_blank _ _ h := by cases h
  between_blank _ _ h := by cases h
  closing_blank _ _ h := by cases h
  colon_blank _ h := by cases h

def spaced : Layout where
  opening _ := []
  between _ := [' ']
  closing _ := []
  colon := [' ']
  opening_blank _ _ h := by cases h
  between_blank _ c h := by rw [List.mem_singleton.mp h]; rfl
  closing_blank _ _ h := by cases h
  colon_blank c h := by rw [List.mem_singleton.mp h]; rfl

def indented : Layout where
  opening := newline
  between := newline
  closing := newline
  colon := [' ']
  opening_blank := blank_newline
  between_blank := blank_newline
  closing_blank := blank_newline
  colon_blank c h := by rw [List.mem_singleton.mp h]; rfl

end Layout

/-! ## Writing -/

section Writing

variable (l : Layout)

mutual

def write (d : Nat) : Json → List Char
  | .null => "null".toList
  | .bool true => "true".toList
  | .bool false => "false".toList
  | .int n => intText n
  | .float r => r.toList
  | .str s => strText s
  | .arr [] => ['[', ']']
  | .arr (v :: vs) => '[' :: (l.opening (d + 1) ++ (write (d + 1) v ++ writeItems d vs))
  | .obj [] => ['\x7b', '\x7d']
  | .obj ((k, v) :: fs) => '\x7b' :: (l.opening (d + 1) ++
      (strText k ++ ':' :: (l.colon ++ (write (d + 1) v ++ writeFields d fs))))

/-- The items after the first, and the end of a list at a depth. -/
def writeItems (d : Nat) : List Json → List Char
  | [] => l.closing d ++ [']']
  | v :: vs => ',' :: (l.between (d + 1) ++ (write (d + 1) v ++ writeItems d vs))

/-- The fields after the first, and the end of a dict at a depth. -/
def writeFields (d : Nat) : List (String × Json) → List Char
  | [] => l.closing d ++ ['\x7d']
  | (k, v) :: fs => ',' :: (l.between (d + 1) ++ (strText k ++ ':' :: (l.colon ++ (write (d + 1) v ++ writeFields d fs))))

end

end Writing

/-! ## Reading -/

/-- The characters of a string up to its quote; a control character may not stand in it. -/
def readString : Nat → List Char → Option (List Char × List Char)
  | 0, _ => none
  | _ + 1, '"' :: s => some ([], s)
  | n + 1, s =>
    match unescape s with
    | some (c, rest) => if s.head?.any (· < ' ') then none else (readString n rest).map fun p => (c :: p.1, p.2)
    | none => none

def nat? (digits : List Char) : Option Nat :=
  if digits ≠ [] ∧ digits.all Char.isDigit then some (Nat.ofDigitChars 10 digits 0) else none

def int? : List Char → Option Int
  | '-' :: digits => (nat? digits).map fun n => -(n : Int)
  | digits => (nat? digits).map Int.ofNat

def namedFloats : List String := ["NaN", "Infinity", "-Infinity"]

def readNumber (s : List Char) : Option (Json × List Char) :=
  match namedFloats.find? fun r => r.toList.isPrefixOf s with
  | some r => some (.float r, s.drop r.toList.length)
  | none =>
    let token := s.takeWhile numberChar
    let rest := s.dropWhile numberChar
    if token.any floatMark then some (.float (String.ofList token), rest)
    else (int? token).map fun n => (.int n, rest)

mutual

def readValue : Nat → List Char → Option (Json × List Char)
  | 0, _ => none
  | n + 1, s =>
    match s.dropWhile blank with
    | '"' :: s => (readString s.length s).map fun p => (.str (String.ofList p.1), p.2)
    | '[' :: s =>
      match s.dropWhile blank with
      | ']' :: s => some (.arr [], s)
      | _ => (readItems n s).map fun p => (.arr p.1, p.2)
    | '\x7b' :: s =>
      match s.dropWhile blank with
      | '\x7d' :: s => some (.obj [], s)
      | _ => (readFields n s).map fun p => (.obj p.1, p.2)
    | 'n' :: 'u' :: 'l' :: 'l' :: s => some (.null, s)
    | 't' :: 'r' :: 'u' :: 'e' :: s => some (.bool true, s)
    | 'f' :: 'a' :: 'l' :: 's' :: 'e' :: s => some (.bool false, s)
    | s => readNumber s

def readItems : Nat → List Char → Option (List Json × List Char)
  | 0, _ => none
  | n + 1, s => do
    let (v, s) ← readValue n s
    match s.dropWhile blank with
    | ',' :: s => (readItems n s).map fun p => (v :: p.1, p.2)
    | ']' :: s => some ([v], s)
    | _ => none

/-- The fields of a dict up to its bracket. -/
def readFields : Nat → List Char → Option (List (String × Json) × List Char)
  | 0, _ => none
  | n + 1, s =>
    match s.dropWhile blank with
    | '"' :: s => do
      let (k, s) ← readString s.length s
      match s.dropWhile blank with
      | ':' :: s => do
        let (v, s) ← readValue n s
        match s.dropWhile blank with
        | ',' :: s => (readFields n s).map fun p => ((String.ofList k, v) :: p.1, p.2)
        | '\x7d' :: s => some ([(String.ofList k, v)], s)
        | _ => none
      | _ => none
    | _ => none

end

def loads (s : List Char) : Option Json :=
  match readValue (s.length + 1) s with
  | some (v, rest) => if rest.all blank then some v else none
  | none => none

/-! ## Strings read back -/

theorem hexDigit_range (n : Nat) : ' ' ≤ hexDigit n ∧ hexDigit n ≤ '~' := by
  have hall : ∀ m < 16, ' ' ≤ Nat.digitChar m ∧ Nat.digitChar m ≤ '~' := by decide
  exact hall _ (Nat.mod_lt _ (by decide))

theorem unicodeEscape_range {n : Nat} : ∀ c ∈ unicodeEscape n, ' ' ≤ c ∧ c ≤ '~' := by
  intro c hc
  simp only [unicodeEscape, hex4, List.mem_cons, List.not_mem_nil, or_false] at hc
  rcases hc with rfl | rfl | rfl | rfl | rfl | rfl
  · decide
  · decide
  · exact hexDigit_range _
  · exact hexDigit_range _
  · exact hexDigit_range _
  · exact hexDigit_range _

/-- An escaped text is printable ASCII. -/
theorem escapeChar_range (c : Char) : ∀ d ∈ escapeChar c, ' ' ≤ d ∧ d ≤ '~' := by
  intro d hd
  unfold escapeChar at hd
  repeat' split at hd
  all_goals first
    | exact unicodeEscape_range d hd
    | (rcases List.mem_append.mp hd with hd | hd <;> exact unicodeEscape_range d hd)
    | (rw [List.mem_singleton.mp hd]; assumption)
    | (simp only [List.mem_cons, List.not_mem_nil, or_false] at hd
       rcases hd with rfl | rfl <;> decide)

theorem readString_quote (n : Nat) (s : List Char) : readString (n + 1) ('"' :: s) = some ([], s) := by
  rw [readString]

theorem readString_escapeChar (n : Nat) (c : Char) (s : List Char) :
    readString (n + 1) (escapeChar c ++ s) = (readString n s).map fun p => (c :: p.1, p.2) := by
  obtain ⟨d, ds, hd, hne⟩ := escapeChar_head c
  have hrange := escapeChar_range c d (by rw [hd]; exact List.mem_cons_self)
  have hread := unescape_escapeChar c s
  rw [hd, List.cons_append] at hread ⊢
  have hlow : ¬d < ' ' := Char.not_lt.mpr hrange.1
  rw [readString, hread]
  · simp [hlow]
  · intro _ heq
    exact hne (List.cons.inj heq).1

theorem readString_escape {a : List Char} {n : Nat} (h : a.length < n) (s : List Char) :
    readString n (escape a ++ '"' :: s) = some (a, s) := by
  induction a generalizing n with
  | nil =>
    cases n with
    | zero => omega
    | succ n => exact readString_quote n s
  | cons c a ih =>
    cases n with
    | zero => omega
    | succ n =>
      have hcons : escape (c :: a) ++ '"' :: s = escapeChar c ++ (escape a ++ '"' :: s) := by
        rw [escape, List.flatMap_cons, List.append_assoc]
        rfl
      rw [hcons, readString_escapeChar, ih (by rw [List.length_cons] at h; omega)]
      rfl

theorem length_le_escape (a : List Char) : a.length ≤ (escape a).length := by
  induction a with
  | nil => exact Nat.le_refl 0
  | cons c a ih =>
    obtain ⟨d, ds, hd, -⟩ := escapeChar_head c
    rw [escape, List.flatMap_cons, List.length_append, hd, List.length_cons, List.length_cons]
    rw [escape] at ih
    omega

/-- What follows the opening quote of a string's text. -/
theorem readString_rest (k : String) (s : List Char) :
    readString (escape k.toList ++ '"' :: s).length (escape k.toList ++ '"' :: s) = some (k.toList, s) := by
  apply readString_escape
  have := length_le_escape k.toList
  rw [List.length_append, List.length_cons]
  omega

theorem strText_append (k : String) (s : List Char) : strText k ++ s = '"' :: (escape k.toList ++ '"' :: s) := by
  simp [strText]

/-! ## Numbers read back -/

theorem nat?_digits (n : Nat) : nat? (digits n) = some n := by
  have hall : (digits n).all Char.isDigit = true := by
    rw [List.all_eq_true]
    exact fun c hc => isDigit_of_mem_digits hc
  have hne : digits n ≠ [] := Nat.toDigits_ne_nil
  rw [nat?, if_pos ⟨hne, hall⟩, ofDigitChars_digits]

theorem int?_intText (n : Int) : int? (intText n) = some n := by
  cases n with
  | ofNat n =>
    have hhead : ∀ ds, digits n ≠ '-' :: ds := by
      intro ds heq
      have hdigit : '-'.isDigit = true := isDigit_of_mem_digits (n := n) (by rw [heq]; exact List.mem_cons_self)
      cases hdigit
    rw [intText, int?]
    · rw [nat?_digits]
      rfl
    · exact hhead
  | negSucc n =>
    rw [intText, int?, nat?_digits]
    rfl

/-- A number's text is followed by what does not go on with it, and is no text of a float with a name. -/
theorem readNumber_token {token s : List Char} (htoken : ∀ c ∈ token, numberChar c = true)
    (hne : token ≠ []) (hminus : token ≠ ['-'])
    (hs : Follows s) : readNumber (token ++ s) = if token.any floatMark then some (.float (String.ofList token), s)
      else (int? token).map fun n => (.int n, s) := by
  have hnamed : namedFloats.find? (fun r => r.toList.isPrefixOf (token ++ s)) = none := by
    cases token with
    | nil => exact absurd rfl hne
    | cons c token =>
      have hc := htoken c List.mem_cons_self
      cases token with
      | nil =>
        have hcne : c ≠ '-' := fun h => hminus (by rw [h])
        have hN : c ≠ 'N' := by rintro rfl; cases hc
        have hI : c ≠ 'I' := by rintro rfl; cases hc
        simp [namedFloats, hN.symm, hI.symm, hcne.symm]
      | cons d token =>
        have hd := htoken d (List.mem_cons_of_mem _ List.mem_cons_self)
        have hN : c ≠ 'N' := by rintro rfl; cases hc
        have hI : c ≠ 'I' := by rintro rfl; cases hc
        have hdI : d ≠ 'I' := by rintro rfl; cases hd
        simp [namedFloats, hN.symm, hI.symm, hdI.symm]
  have htake := takeWhile_number htoken hs
  have hdrop : (token ++ s).dropWhile numberChar = s := by
    have hsplit := List.takeWhile_append_dropWhile (p := numberChar) (l := token ++ s)
    rw [htake] at hsplit
    exact List.append_cancel_left hsplit
  rw [readNumber, hnamed]
  simp only [htake, hdrop]

/-! ## Values read back -/

/-- What `json.dumps` writes: it refuses no float, and an integer that has too many digits. -/
inductive Readable : Json → Prop where
  | null : Readable .null
  | bool (b : Bool) : Readable (.bool b)
  | int {n : Int} (h : PyInt.width n ≤ PyInt.maxStrDigits) : Readable (.int n)
  | float {r : String} (h : IsFloatText r.toList ∨ r ∈ namedFloats) : Readable (.float r)
  | str (s : String) : Readable (.str s)
  | arr {items : List Json} (h : ∀ v ∈ items, Readable v) : Readable (.arr items)
  | obj {fields : List (String × Json)} (h : ∀ f ∈ fields, Readable f.2) : Readable (.obj fields)

theorem Readable.items {items : List Json} (h : (Json.arr items).Readable) : ∀ v ∈ items, v.Readable := by
  cases h with
  | arr h => exact h

theorem Readable.fields {fields : List (String × Json)}
    (h : (Json.obj fields).Readable) : ∀ f ∈ fields, f.2.Readable := by
  cases h with
  | obj h => exact h

theorem dropWhile_gap {gap : List Char} (h : ∀ c ∈ gap, blank c = true) (s : List Char) :
    (gap ++ s).dropWhile blank = s.dropWhile blank := List.dropWhile_append_of_pos h

theorem readValue_gap {gap : List Char} (h : ∀ c ∈ gap, blank c = true) (n : Nat) (s : List Char) :
    readValue n (gap ++ s) = readValue n s := by
  cases n with
  | zero => rw [readValue, readValue]
  | succ n => rw [readValue, readValue, dropWhile_gap h]

theorem readValue_number {c : Char} (hc : numberChar c = true) (n : Nat) (cs : List Char) :
    readValue (n + 1) (c :: cs) = readNumber (c :: cs) := by
  have hblank : blank c = false := by
    by_contra h
    simp only [blank, Bool.not_eq_false, Bool.or_eq_true, beq_iff_eq] at h
    rcases h with ((rfl | rfl) | rfl) | rfl <;> cases hc
  rw [readValue, List.dropWhile_cons_of_neg (by simp [hblank])]
  split
  all_goals first
    | rfl
    | (rename_i heq
       rw [(List.cons.inj heq).1] at hc
       cases hc)

theorem readValue_token {token s : List Char} (htoken : ∀ c ∈ token, numberChar c = true) (hne : token ≠ []) (n : Nat) :
    readValue (n + 1) (token ++ s) = readNumber (token ++ s) := by
  cases token with
  | nil => exact absurd rfl hne
  | cons c token => exact readValue_number (htoken c List.mem_cons_self) n _

theorem intText_ne_minus (n : Int) : intText n ≠ ['-'] := by
  intro h
  cases n with
  | ofNat n =>
    have hdigit : '-'.isDigit = true :=
      isDigit_of_mem_digits (n := n) (by rw [show digits n = _ from h]; exact List.mem_cons_self)
    cases hdigit
  | negSucc n => exact Nat.toDigits_ne_nil (List.cons.inj h).2

theorem readValue_int (i : Int) (n : Nat) {s : List Char}
    (hs : Follows s) : readValue (n + 1) (intText i ++ s) = some (.int i, s) := by
  have hmark : (intText i).any floatMark = false := by
    rw [List.any_eq_false]
    intro c hc
    simp [no_mark_of_mem_intText c hc]
  rw [readValue_token numberChar_of_mem_intText (intText_ne_nil i),
    readNumber_token numberChar_of_mem_intText (intText_ne_nil i)
    (intText_ne_minus i) hs, hmark, int?_intText]
  rfl

theorem readValue_float {r : String} (h : IsFloatText r.toList ∨ r ∈ namedFloats) (n : Nat)
    {s : List Char} (hs : Follows s) :
    readValue (n + 1) (r.toList ++ s) = some (.float r, s) := by
  rcases h with h | h
  · obtain ⟨c, hc, hmark⟩ := h.mark
    have hne : r.toList ≠ [] := List.ne_nil_of_mem hc
    have hminus : r.toList ≠ ['-'] := by
      intro heq
      rw [heq, List.mem_singleton] at hc
      rw [hc] at hmark
      cases hmark
    have hany : r.toList.any floatMark = true := List.any_eq_true.mpr ⟨c, hc, hmark⟩
    rw [readValue_token h.chars hne, readNumber_token h.chars hne hminus hs, hany, if_pos rfl, String.ofList_toList]
  · simp only [namedFloats, List.mem_cons, List.not_mem_nil, or_false] at h
    rcases h with rfl | rfl | rfl
    · rfl
    · rfl
    · rfl

variable {l : Layout}

theorem follows_gap {gap s : List Char} (h : ∀ c ∈ gap, blank c = true) (hs : Follows s) : Follows (gap ++ s) := by
  cases gap with
  | nil => exact hs
  | cons c gap =>
    apply Follows.cons
    have hc := h c List.mem_cons_self
    simp only [blank, Bool.or_eq_true, beq_iff_eq] at hc
    rcases hc with ((rfl | rfl) | rfl) | rfl <;> rfl

theorem follows_writeItems (d : Nat) (vs : List Json) (s : List Char) : Follows (writeItems l d vs ++ s) := by
  cases vs with
  | nil =>
    rw [writeItems, List.append_assoc]
    exact follows_gap (l.closing_blank d) (.cons rfl _)
  | cons v vs => exact .cons rfl _

theorem follows_writeFields (d : Nat) (fs : List (String × Json)) (s : List Char) : Follows (writeFields l d fs ++ s) := by
  cases fs with
  | nil =>
    rw [writeFields, List.append_assoc]
    exact follows_gap (l.closing_blank d) (.cons rfl _)
  | cons f fs => exact .cons rfl _

/-- A value's text starts with a character that is no blank and no closing bracket. -/
theorem write_head (d : Nat) {v : Json} (h : v.Readable) : ∃ c cs, write l d v = c :: cs ∧
    blank c = false ∧ c ≠ ']' := by
  have hnumber : ∀ {c : Char}, numberChar c = true → blank c = false ∧ c ≠ ']' := by
    intro c hc
    constructor
    · by_contra hblank
      simp only [blank, Bool.not_eq_false, Bool.or_eq_true, beq_iff_eq] at hblank
      rcases hblank with ((rfl | rfl) | rfl) | rfl <;> cases hc
    · rintro rfl
      cases hc
  cases h with
  | null => exact ⟨_, _, rfl, rfl, by decide⟩
  | bool b => cases b <;> exact ⟨_, _, rfl, rfl, by decide⟩
  | @int n _ =>
    cases hn : intText n with
    | nil => exact absurd hn (intText_ne_nil n)
    | cons c cs =>
      have hc : c ∈ intText n := by rw [hn]; exact List.mem_cons_self
      exact ⟨c, cs, by rw [write, hn], hnumber (numberChar_of_mem_intText c hc)⟩
  | @float r hr =>
    rcases hr with hr | hr
    · obtain ⟨d, hd, -⟩ := hr.mark
      cases hn : r.toList with
      | nil => rw [hn] at hd; cases hd
      | cons c cs =>
        have hc : c ∈ r.toList := by rw [hn]; exact List.mem_cons_self
        exact ⟨c, cs, by rw [write, hn], hnumber (hr.chars c hc)⟩
    · simp only [namedFloats, List.mem_cons, List.not_mem_nil, or_false] at hr
      rcases hr with rfl | rfl | rfl <;> exact ⟨_, _, rfl, rfl, by decide⟩
  | str s => exact ⟨_, _, rfl, rfl, by decide⟩
  | @arr items => cases items <;> exact ⟨_, _, rfl, rfl, by decide⟩
  | @obj fields =>
    cases fields with
    | nil => exact ⟨_, _, rfl, rfl, by decide⟩
    | cons f fs =>
      obtain ⟨k, v⟩ := f
      exact ⟨_, _, rfl, rfl, by decide⟩

theorem dropWhile_nonblank {c : Char} (h : blank c = false) (s : List Char) : (c :: s).dropWhile blank = c :: s :=
  List.dropWhile_cons_of_neg (by simp [h])

theorem length_writeItems (d : Nat) (vs : List Json) : 0 < (writeItems l d vs).length := by
  cases vs with
  | nil =>
    rw [writeItems, List.length_append]
    exact Nat.lt_add_left _ Nat.one_pos
  | cons v vs =>
    rw [writeItems]
    exact Nat.succ_pos _

theorem length_writeFields (d : Nat) (fs : List (String × Json)) : 0 < (writeFields l d fs).length := by
  cases fs with
  | nil =>
    rw [writeFields, List.length_append]
    exact Nat.lt_add_left _ Nat.one_pos
  | cons f fs =>
    rw [writeFields]
    exact Nat.succ_pos _

theorem readItems_gap {gap : List Char} (h : ∀ c ∈ gap, blank c = true) (n : Nat) (s : List Char) :
    readItems n (gap ++ s) = readItems n s := by
  cases n with
  | zero => rw [readItems, readItems]
  | succ n => rw [readItems, readItems, readValue_gap h]

theorem readFields_gap {gap : List Char} (h : ∀ c ∈ gap, blank c = true) (n : Nat) (s : List Char) :
    readFields n (gap ++ s) = readFields n s := by
  cases n with
  | zero => rw [readFields, readFields]
  | succ n => rw [readFields, readFields, dropWhile_gap h]

theorem readValue_items {n : Nat} {c : Char} {cs s : List Char} (h : s.dropWhile blank = c :: cs) (hc : c ≠ ']') :
    readValue (n + 1) ('[' :: s) = (readItems n s).map fun p => (.arr p.1, p.2) := by
  rw [readValue, dropWhile_nonblank rfl]
  simp only [h]
  split
  · rename_i heq
    exact absurd (List.cons.inj heq).1 hc
  · rfl

theorem readFields_key (k : String) (n : Nat) (s : List Char) :
    readFields (n + 1) (strText k ++ ':' :: (l.colon ++ s)) = (readValue n s).bind fun p =>
      match p.2.dropWhile blank with
      | ',' :: s => (readFields n s).map fun q => ((k, p.1) :: q.1, q.2)
      | '\x7d' :: s => some ([(k, p.1)], s)
      | _ => none := by
  rw [strText_append, readFields, dropWhile_nonblank rfl]
  simp only [readString_rest, Option.bind_eq_bind, Option.bind_some, dropWhile_nonblank (show blank ':' = false from rfl),
    readValue_gap l.colon_blank, String.ofList_toList]

mutual

/-- The fuel is the length of the text, of which each level takes a character at least. -/
theorem readValue_write : ∀ (v : Json) (d n : Nat) (s : List Char), v.Readable → Follows s →
    (write l d v).length ≤ n →
    readValue n (write l d v ++ s) = some (v, s)
  | v, d, 0, s, hv, _, hn => by
    obtain ⟨c, cs, hc, -⟩ := write_head d hv (l := l)
    rw [hc] at hn
    cases hn
  | .null, d, n + 1, s, _, _, _ => rfl
  | .bool true, d, n + 1, s, _, _, _ => rfl
  | .bool false, d, n + 1, s, _, _, _ => rfl
  | .int i, d, n + 1, s, _, hs, _ => readValue_int i n hs
  | .float r, d, n + 1, s, hv, hs, _ => by
    cases hv with
    | float h => exact readValue_float h n hs
  | .str k, d, n + 1, s, _, _, _ => by
    rw [write, strText_append, readValue, dropWhile_nonblank rfl]
    simp only [readString_rest, Option.map_some, String.ofList_toList]
  | .arr [], d, n + 1, s, _, _, _ => rfl
  | .arr (v :: vs), d, n + 1, s, hv, _, hn => by
    have hvalue := hv.items v List.mem_cons_self
    have hrest : ∀ w ∈ vs, w.Readable := fun w hw => hv.items w (List.mem_cons_of_mem _ hw)
    have hlen : (write l (d + 1) v).length + (writeItems l d vs).length ≤ n := by
      rw [write, List.length_cons, List.length_append, List.length_append] at hn
      omega
    obtain ⟨c, cs, hc, hblank, hclose⟩ := write_head (d + 1) hvalue (l := l)
    have hitems := readItems_write v vs d n s hvalue hrest hlen
    have htext : write l d (.arr (v :: vs)) ++ s =
        '[' :: (l.opening (d + 1) ++ (write l (d + 1) v ++ (writeItems l d vs ++ s))) := by
      simp only [write, List.cons_append, List.append_assoc]
    have hread : readItems n (l.opening (d + 1) ++ (write l (d + 1) v ++ (writeItems l d vs ++ s))) = some (v :: vs, s) := by
      rw [← hitems]
      exact readItems_gap (l.opening_blank _) n _
    have hhead : (l.opening (d + 1) ++ (write l (d + 1) v ++ (writeItems l d vs ++ s))).dropWhile blank =
        c :: (cs ++ (writeItems l d vs ++ s)) := by
      rw [dropWhile_gap (l.opening_blank _), hc, List.cons_append, dropWhile_nonblank hblank]
    rw [htext, readValue_items hhead hclose, hread]
    rfl
  | .obj [], d, n + 1, s, _, _, _ => rfl
  | .obj ((k, v) :: fs), d, n + 1, s, hv, _, hn => by
    have hvalue := hv.fields (k, v) List.mem_cons_self
    have hrest : ∀ f ∈ fs, f.2.Readable := fun f hf => hv.fields f (List.mem_cons_of_mem _ hf)
    have hlen : (write l (d + 1) v).length + (writeFields l d fs).length + 1 ≤ n := by
      simp only [write, strText, List.length_cons, List.length_append] at hn
      omega
    have hfields := readFields_write k v fs d n s hvalue hrest hlen
    have htext : write l d (.obj ((k, v) :: fs)) ++ s =
        '\x7b' :: (l.opening (d + 1) ++ (strText k ++
          ':' :: (l.colon ++ (write l (d + 1) v ++ (writeFields l d fs ++ s))))) := by
      simp only [write, List.cons_append, List.append_assoc]
    rw [htext, readValue, dropWhile_nonblank rfl]
    simp only [dropWhile_gap (l.opening_blank (d + 1)), readFields_gap (l.opening_blank (d + 1)), hfields, Option.map_some]
    rw [strText_append, dropWhile_nonblank rfl]
    rfl

theorem readItems_write : ∀ (v : Json) (vs : List Json) (d n : Nat) (s : List Char), v.Readable →
    (∀ w ∈ vs, w.Readable) →
    (write l (d + 1) v).length + (writeItems l d vs).length ≤ n →
      readItems n (write l (d + 1) v ++ (writeItems l d vs ++ s)) = some (v :: vs, s)
  | v, vs, d, 0, s, _, _, hn => by
    have := length_writeItems (l := l) d vs
    omega
  | v, [], d, n + 1, s, hv, _, hn => by
    have hlen := length_writeItems (l := l) d []
    rw [readItems, readValue_write v (d + 1) n _ hv (follows_writeItems d [] s) (by omega)]
    simp only [Option.bind_eq_bind, Option.bind_some, writeItems, List.append_assoc, dropWhile_gap (l.closing_blank d)]
    rfl
  | v, w :: vs, d, n + 1, s, hv, hvs, hn => by
    have hlen := length_writeItems (l := l) d (w :: vs)
    have hnext : (write l (d + 1) w).length + (writeItems l d vs).length ≤ n := by
      simp only [writeItems, List.length_cons, List.length_append] at hn
      omega
    have hrest := readItems_write w vs d n s (hvs w List.mem_cons_self) (fun u hu => hvs u (List.mem_cons_of_mem _ hu)) hnext
    rw [readItems, readValue_write v (d + 1) n _ hv (follows_writeItems d (w :: vs) s) (by omega)]
    simp only [Option.bind_eq_bind, Option.bind_some, writeItems, List.cons_append, List.append_assoc,
      dropWhile_nonblank (show blank ',' = false from rfl), readItems_gap (l.between_blank (d + 1)), hrest, Option.map_some]

theorem readFields_write : ∀ (k : String) (v : Json) (fs : List (String × Json)) (d n : Nat) (s : List Char),
    v.Readable →
    (∀ f ∈ fs, f.2.Readable) → (write l (d + 1) v).length + (writeFields l d fs).length + 1 ≤ n →
      readFields n (strText k ++ ':' :: (l.colon ++ (write l (d + 1) v ++ (writeFields l d fs ++ s)))) =
        some ((k, v) :: fs, s)
  | k, v, fs, d, 0, s, _, _, hn => by omega
  | k, v, [], d, n + 1, s, hv, _, hn => by
    rw [readFields_key, readValue_write v (d + 1) n _ hv (follows_writeFields d [] s) (by omega)]
    simp only [Option.bind_some, writeFields, List.append_assoc, dropWhile_gap (l.closing_blank d)]
    rfl
  | k, v, (k', w) :: fs, d, n + 1, s, hv, hfs, hn => by
    have hnext : (write l (d + 1) w).length + (writeFields l d fs).length + 1 ≤ n := by
      simp only [writeFields, strText, List.length_cons, List.length_append] at hn
      omega
    have hrest := readFields_write k' w fs d n s (hfs _ List.mem_cons_self)
      (fun f hf => hfs f (List.mem_cons_of_mem _ hf)) hnext
    rw [readFields_key, readValue_write v (d + 1) n _ hv (follows_writeFields d ((k', w) :: fs) s) (by omega)]
    simp only [Option.bind_some, writeFields, List.cons_append, List.append_assoc,
      dropWhile_nonblank (show blank ',' = false from rfl), readFields_gap (l.between_blank (d + 1)), hrest, Option.map_some]

end

/-- A text in any layout, with white space behind it, is read as the value it was written for. -/
theorem loads_write {v : Json} (h : v.Readable) {space : List Char} (hspace : ∀ c ∈ space, blank c = true) :
    loads (write l 0 v ++ space) = some v := by
  have hend : Follows [] := fun c hc => by cases hc
  have hfollows : Follows space := by simpa using follows_gap hspace hend
  have hread := readValue_write (l := l) v 0 ((write l 0 v ++ space).length + 1) space h hfollows (by
    rw [List.length_append]
    omega)
  have hall : space.all blank = true := List.all_eq_true.mpr hspace
  rw [loads, hread]
  simp only [hall, if_true]

theorem loads_written {v : Json} (h : v.Readable) : loads (write l 0 v) = some v := by
  have hread := loads_write (l := l) h (fun c (hc : c ∈ []) => by cases hc)
  rwa [List.append_nil] at hread

mutual

def sortKeys : Json → Json
  | .arr vs => .arr (sortItems vs)
  | .obj fs => .obj ((sortFields fs).insertionSort fun f g => f.1 ≤ g.1)
  | v => v

def sortItems : List Json → List Json
  | [] => []
  | v :: vs => sortKeys v :: sortItems vs

def sortFields : List (String × Json) → List (String × Json)
  | [] => []
  | (k, v) :: fs => (k, sortKeys v) :: sortFields fs

end

def Same (v w : Json) : Prop := sortKeys v = sortKeys w

theorem sortFields_eq (fs : List (String × Json)) : sortFields fs = fs.map fun f => (f.1, sortKeys f.2) := by
  induction fs with
  | nil => rfl
  | cons f fs ih => rw [sortFields, ih, List.map_cons]

theorem insertionSort_keys (fs : List (String × Json)) :
    (fs.insertionSort fun f g => f.1 ≤ g.1).insertionSort (fun f g => f.1 ≤ g.1) = fs.insertionSort fun f g =>
      f.1 ≤ g.1 := by
  apply List.Pairwise.insertionSort_eq
  have htotal : Std.Total fun f g : String × Json => f.1 ≤ g.1 := ⟨fun f g => le_total f.1 g.1⟩
  have htrans : IsTrans (String × Json) fun f g => f.1 ≤ g.1 := ⟨fun _ _ _ hab hbc => le_trans hab hbc⟩
  exact List.pairwise_insertionSort _ _

mutual

theorem sortKeys_sortKeys : ∀ v : Json, sortKeys (sortKeys v) = sortKeys v
  | .null => rfl
  | .bool _ => rfl
  | .int _ => rfl
  | .float _ => rfl
  | .str _ => rfl
  | .arr vs => by rw [sortKeys, sortKeys, sortItems_sortItems vs]
  | .obj fs => by
    have hsort : sortFields ((sortFields fs).insertionSort fun f g => f.1 ≤ g.1) =
        (sortFields (sortFields fs)).insertionSort fun f g => f.1 ≤ g.1 := by
      rw [sortFields_eq, sortFields_eq (sortFields fs)]
      exact List.map_insertionSort _ _ _ _ fun _ _ _ _ => Iff.rfl
    rw [sortKeys, sortKeys, hsort, sortFields_sortFields fs, insertionSort_keys]

theorem sortItems_sortItems : ∀ vs : List Json, sortItems (sortItems vs) = sortItems vs
  | [] => rfl
  | v :: vs => by rw [sortItems, sortItems, sortKeys_sortKeys v, sortItems_sortItems vs]

theorem sortFields_sortFields : ∀ fs : List (String × Json), sortFields (sortFields fs) = sortFields fs
  | [] => rfl
  | (k, v) :: fs => by rw [sortFields, sortFields, sortKeys_sortKeys v, sortFields_sortFields fs]

end

theorem same_sortKeys (v : Json) : Same (sortKeys v) v := sortKeys_sortKeys v

mutual

theorem Readable.sortKeys : ∀ {v : Json}, v.Readable → v.sortKeys.Readable
  | .null, h => h
  | .bool _, h => h
  | .int _, h => h
  | .float _, h => h
  | .str _, h => h
  | .arr _, h => .arr (Readable.sortItems h.items)
  | .obj _, h => .obj fun f hf => Readable.sortFields h.fields f ((List.mem_insertionSort _).mp hf)

theorem Readable.sortItems : ∀ {vs : List Json}, (∀ v ∈ vs, v.Readable) → ∀ v ∈ Json.sortItems vs, v.Readable
  | [], _, v, hv => by cases hv
  | w :: vs, h, v, hv => by
    rcases List.mem_cons.mp hv with rfl | hv
    · exact Readable.sortKeys (h w List.mem_cons_self)
    · exact Readable.sortItems (fun u hu => h u (List.mem_cons_of_mem _ hu)) v hv

theorem Readable.sortFields : ∀ {fs : List (String × Json)}, (∀ f ∈ fs, f.2.Readable) →
    ∀ f ∈ Json.sortFields fs, f.2.Readable
  | [], _, f, hf => by cases hf
  | (k, v) :: fs, h, f, hf => by
    rcases List.mem_cons.mp hf with rfl | hf
    · exact Readable.sortKeys (h (k, v) List.mem_cons_self)
    · exact Readable.sortFields (fun g hg => h g (List.mem_cons_of_mem _ hg)) f hf

end

end Json

end OranAdapt
