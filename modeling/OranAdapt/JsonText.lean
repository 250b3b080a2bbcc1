import OranAdapt.CdcEvents
import Mathlib.Data.List.Basic

/-!
# JSON text

`json.dumps`, and that the text tells values apart: followed by what may follow
a value in a JSON text, a value's text belongs to no other value and is no part
of another one's. A dict is written as its items in the order of its keys, the
way `sort_keys` writes every dict.
-/

namespace OranAdapt

namespace Json

/-! ## Strings -/

def hexDigit (n : Nat) : Char := Nat.digitChar (n % 16)

def hex4 (n : Nat) : List Char := [hexDigit (n / 4096), hexDigit (n / 256), hexDigit (n / 16), hexDigit n]

def unicodeEscape (n : Nat) : List Char := '\\' :: 'u' :: hex4 n

/-- What `ensure_ascii` makes of a character; one outside the basic plane is a surrogate pair. -/
def escapeChar (c : Char) : List Char :=
  if c = '"' then ['\\', '"']
  else if c = '\\' then ['\\', '\\']
  else if c = '\n' then ['\\', 'n']
  else if c = '\r' then ['\\', 'r']
  else if c = '\t' then ['\\', 't']
  else if c = '\x08' then ['\\', 'b']
  else if c = '\x0c' then ['\\', 'f']
  else if ' ' ≤ c ∧ c ≤ '~' then [c]
  else if c.toNat < 0x10000 then unicodeEscape c.toNat
  else unicodeEscape (0xd800 + (c.toNat - 0x10000) / 0x400) ++ unicodeEscape (0xdc00 + (c.toNat - 0x10000) % 0x400)

def escape (s : List Char) : List Char := s.flatMap escapeChar

def strText (s : String) : List Char := '"' :: (escape s.toList ++ ['"'])

/-! ## Numbers -/

def digits (n : Nat) : List Char := Nat.toDigits 10 n

def intText : Int → List Char
  | .ofNat n => digits n
  | .negSucc n => '-' :: digits (n + 1)

def numberChar (c : Char) : Bool := c.isDigit || c == '-' || c == '+' || c == '.' || c == 'e'

def floatMark (c : Char) : Bool := c == '.' || c == 'e'

/-- The `repr` of a finite float. -/
structure IsFloatText (r : List Char) : Prop where
  chars : ∀ c ∈ r, numberChar c = true
  mark : ∃ c ∈ r, floatMark c = true

/-! ## Values -/

mutual

def text : Json → List Char
  | .null => "null".toList
  | .bool true => "true".toList
  | .bool false => "false".toList
  | .int n => intText n
  | .float r => r.toList
  | .str s => strText s
  | .arr [] => ['[', ']']
  | .arr (v :: vs) => '[' :: (text v ++ itemsText vs ++ [']'])
  | .obj [] => ['\x7b', '\x7d']
  | .obj ((k, v) :: fs) => '\x7b' :: (strText k ++ ": ".toList ++ text v ++ fieldsText fs ++ ['\x7d'])

def itemsText : List Json → List Char
  | [] => []
  | v :: vs => ", ".toList ++ text v ++ itemsText vs

def fieldsText : List (String × Json) → List Char
  | [] => []
  | (k, v) :: fs => ", ".toList ++ strText k ++ ": ".toList ++ text v ++ fieldsText fs

end

/-- `json.dumps(v, sort_keys=True)` -/
def dumps (v : Json) : String := String.ofList (text v)

/-- Each float is a finite float's `repr`, and each dict in normal form. -/
inductive WellFormed : Json → Prop where
  | null : WellFormed .null
  | bool (b : Bool) : WellFormed (.bool b)
  | int (n : Int) : WellFormed (.int n)
  | float {r : String} (h : IsFloatText r.toList) : WellFormed (.float r)
  | str (s : String) : WellFormed (.str s)
  | arr {items : List Json} (h : ∀ v ∈ items, WellFormed v) : WellFormed (.arr items)
  | obj {fields : List (String × Json)} (sorted : (fields.map Prod.fst).Pairwise (· < ·))
      (h : ∀ f ∈ fields, WellFormed f.2) : WellFormed (.obj fields)

/-! ## Reading a character back -/

def hexVal (c : Char) : Nat := if c.isDigit then c.toNat - 48 else c.toNat - 87

def unhex4 (a b c d : Char) : Nat := 4096 * hexVal a + 256 * hexVal b + 16 * hexVal c + hexVal d

def unescapeLetter (c : Char) : Char :=
  if c = 'n' then '\n' else if c = 'r' then '\r' else if c = 't' then '\t' else if c = 'b' then '\x08'
  else if c = 'f' then '\x0c' else c

/-- The first character of an escaped text, and what follows it. -/
def unescape : List Char → Option (Char × List Char)
  | '\\' :: 'u' :: a :: b :: c :: d :: s =>
    let n := unhex4 a b c d
    if 0xd800 ≤ n ∧ n < 0xdc00 then
      match s with
      | '\\' :: 'u' :: a :: b :: c :: d :: s =>
        some (Char.ofNat (0x10000 + (n - 0xd800) * 0x400 + (unhex4 a b c d - 0xdc00)), s)
      | _ => none
    else some (Char.ofNat n, s)
  | '\\' :: c :: s => some (unescapeLetter c, s)
  | c :: s => some (c, s)
  | [] => none

theorem hexVal_hexDigit (n : Nat) : hexVal (hexDigit n) = n % 16 := by
  have hall : ∀ m < 16, hexVal (Nat.digitChar m) = m := by decide
  exact hall _ (Nat.mod_lt _ (by decide))

theorem unhex4_hex4 {n : Nat} (h : n < 0x10000) :
    unhex4 (hexDigit (n / 4096)) (hexDigit (n / 256)) (hexDigit (n / 16)) (hexDigit n) = n := by
  unfold unhex4
  simp only [hexVal_hexDigit]
  omega

theorem unescape_basic {c : Char} (h : c.toNat < 0x10000) (s : List Char) :
    unescape (unicodeEscape c.toNat ++ s) = some (c, s) := by
  have hvalid : ¬(0xd800 ≤ c.toNat ∧ c.toNat < 0xdc00) := by
    have hc := c.valid
    simp only [UInt32.isValidChar, Nat.isValidChar] at hc
    have : c.toNat = c.val.toNat := rfl
    omega
  simp only [unicodeEscape, hex4, List.cons_append, List.nil_append, unescape, unhex4_hex4 h, if_neg hvalid,
    Char.ofNat_toNat]

theorem unescape_surrogates {c : Char} (h : ¬c.toNat < 0x10000) (s : List Char) :
    unescape (unicodeEscape (0xd800 + (c.toNat - 0x10000) / 0x400) ++
      unicodeEscape (0xdc00 + (c.toNat - 0x10000) % 0x400) ++ s) = some (c, s) := by
  have hlt : c.toNat < 0x110000 := by
    have hc := c.valid
    simp only [UInt32.isValidChar, Nat.isValidChar] at hc
    have : c.toNat = c.val.toNat := rfl
    omega
  have hhigh : 0xd800 + (c.toNat - 0x10000) / 0x400 < 0x10000 := by omega
  have hlow : 0xdc00 + (c.toNat - 0x10000) % 0x400 < 0x10000 := by omega
  have hsurrogate : 0xd800 ≤ 0xd800 + (c.toNat - 0x10000) / 0x400 ∧ 0xd800 + (c.toNat - 0x10000) / 0x400 < 0xdc00 := by
    omega
  have hback : 0x10000 + (0xd800 + (c.toNat - 0x10000) / 0x400 - 0xd800) * 0x400 +
      (0xdc00 + (c.toNat - 0x10000) % 0x400 - 0xdc00) = c.toNat := by
    omega
  simp only [unicodeEscape, hex4, List.cons_append, List.nil_append, unescape, unhex4_hex4 hhigh, unhex4_hex4 hlow,
    if_pos hsurrogate, hback, Char.ofNat_toNat]

theorem unescape_plain {c : Char} (h : c ≠ '\\') (s : List Char) : unescape (c :: s) = some (c, s) := by
  unfold unescape
  split
  · simp_all
  · simp_all
  · simp_all
  · simp_all

theorem unescape_escapeChar (c : Char) (s : List Char) : unescape (escapeChar c ++ s) = some (c, s) := by
  unfold escapeChar
  split
  · subst c; rfl
  split
  · subst c; rfl
  split
  · subst c; rfl
  split
  · subst c; rfl
  split
  · subst c; rfl
  split
  · subst c; rfl
  split
  · subst c; rfl
  split
  · exact unescape_plain ‹_› s
  split
  · exact unescape_basic ‹_› s
  · exact unescape_surrogates ‹_› s

theorem escapeChar_head (c : Char) : ∃ d ds, escapeChar c = d :: ds ∧ d ≠ '"' := by
  unfold escapeChar unicodeEscape
  repeat' split
  all_goals first
    | exact ⟨_, _, rfl, by decide⟩
    | exact ⟨_, _, rfl, ‹_›⟩

/-! ## Texts tell values apart -/

/-- A string's text ends with the quote that ends it. -/
theorem escape_inj {a b s t : List Char} (h : escape a ++ '"' :: s = escape b ++ '"' :: t) : a = b ∧ s = t := by
  have hquote : ∀ (c : Char) (u v w : List Char), '"' :: u ≠ escapeChar c ++ v ++ w := by
    intro c u v w heq
    obtain ⟨d, ds, hd, hne⟩ := escapeChar_head c
    rw [hd] at heq
    exact hne (List.cons.inj heq).1.symm
  induction a generalizing b with
  | nil =>
    cases b with
    | nil => exact ⟨rfl, (List.cons.inj h).2⟩
    | cons d b => exact absurd h (hquote _ _ _ _)
  | cons c a ih =>
    cases b with
    | nil => exact absurd h.symm (hquote _ _ _ _)
    | cons d b =>
      simp only [escape, List.flatMap_cons, List.append_assoc] at h
      have hread := congrArg unescape h
      rw [unescape_escapeChar, unescape_escapeChar, Option.some.injEq, Prod.mk.injEq] at hread
      obtain ⟨rfl, hrest⟩ := hread
      obtain ⟨rfl, rfl⟩ := ih hrest
      exact ⟨rfl, rfl⟩

theorem strText_inj {a b : String} {s t : List Char} (h : strText a ++ s = strText b ++ t) : a = b ∧ s = t := by
  have htail : escape a.toList ++ '"' :: s = escape b.toList ++ '"' :: t := by simpa [strText] using h
  obtain ⟨hab, rfl⟩ := escape_inj htail
  exact ⟨String.toList_injective hab, rfl⟩

def Follows (s : List Char) : Prop := ∀ c ∈ s.head?, numberChar c = false

theorem takeWhile_number {a s : List Char} (ha : ∀ c ∈ a, numberChar c = true) (hs : Follows s) :
    (a ++ s).takeWhile numberChar = a := by
  rw [List.takeWhile_append_of_pos ha]
  cases s with
  | nil => simp
  | cons c s => simp [hs c rfl]

theorem number_inj {a b s t : List Char} (ha : ∀ c ∈ a, numberChar c = true) (hb : ∀ c ∈ b, numberChar c = true)
    (hs : Follows s) (ht : Follows t) (h : a ++ s = b ++ t) : a = b ∧ s = t := by
  have hab : a = b := by rw [← takeWhile_number ha hs, h, takeWhile_number hb ht]
  subst hab
  exact ⟨rfl, List.append_cancel_left h⟩

theorem ofDigitChars_digits (n : Nat) : Nat.ofDigitChars 10 (digits n) 0 = n :=
  Nat.ofDigitChars_toDigits (by decide) (by decide)

theorem digits_inj {m n : Nat} (h : digits m = digits n) : m = n := by
  rw [← ofDigitChars_digits m, h, ofDigitChars_digits]

theorem isDigit_of_mem_digits {n : Nat} {c : Char} (h : c ∈ digits n) : c.isDigit = true :=
  Nat.isDigit_of_mem_toDigits (by decide) (by decide) h

theorem mem_intText {n : Int} {c : Char} (h : c ∈ intText n) : c.isDigit = true ∨ c = '-' := by
  cases n with
  | ofNat n => exact .inl (isDigit_of_mem_digits h)
  | negSucc n =>
    rcases List.mem_cons.mp h with rfl | h
    · exact .inr rfl
    · exact .inl (isDigit_of_mem_digits h)

theorem numberChar_of_mem_intText {n : Int} : ∀ c ∈ intText n, numberChar c = true := by
  intro c hc
  rcases mem_intText hc with h | rfl
  · simp [numberChar, h]
  · rfl

theorem no_mark_of_mem_intText {n : Int} : ∀ c ∈ intText n, floatMark c = false := by
  intro c hc
  rcases mem_intText hc with h | rfl
  · by_contra hmark
    simp only [floatMark, Bool.not_eq_false, Bool.or_eq_true, beq_iff_eq] at hmark
    rcases hmark with rfl | rfl <;> cases h
  · rfl

theorem intText_ne_nil (n : Int) : intText n ≠ [] := by
  cases n with
  | ofNat n => exact Nat.toDigits_ne_nil
  | negSucc n => exact List.cons_ne_nil _ _

theorem intText_inj {m n : Int} (h : intText m = intText n) : m = n := by
  have hminus : ∀ a b : Nat, digits a ≠ '-' :: digits b := by
    intro a b heq
    have hdigit : '-'.isDigit = true := isDigit_of_mem_digits (n := a) (by rw [heq]; exact List.mem_cons_self)
    cases hdigit
  cases m with
  | ofNat a =>
    cases n with
    | ofNat b => exact congrArg Int.ofNat (digits_inj h)
    | negSucc b => exact absurd h (hminus _ _)
  | negSucc a =>
    cases n with
    | ofNat b => exact absurd h.symm (hminus _ _)
    | negSucc b =>
      have hab : a + 1 = b + 1 := digits_inj (List.cons.inj h).2
      rw [Nat.add_right_cancel hab]

def kind : Json → Nat
  | .null => 0
  | .bool true => 1
  | .bool false => 2
  | .str _ => 3
  | .arr _ => 4
  | .obj _ => 5
  | .int _ | .float _ => 6

/-- The sort of the value whose text starts with a character. -/
def kindOf (c : Char) : Nat :=
  if c = 'n' then 0 else if c = 't' then 1 else if c = 'f' then 2 else if c = '"' then 3 else if c = '[' then 4
  else if c = '\x7b' then 5 else 6

theorem kindOf_number {c : Char} (h : numberChar c = true) : kindOf c = 6 := by
  have hne : ∀ d ∈ ['n', 't', 'f', '"', '[', '\x7b'], c ≠ d := by
    rintro d hd rfl
    simp only [List.mem_cons, List.not_mem_nil, or_false] at hd
    rcases hd with rfl | rfl | rfl | rfl | rfl | rfl <;> cases h
  simp [kindOf, hne]

theorem text_head {v : Json} (h : v.WellFormed) : ∃ c cs, text v = c :: cs ∧ kindOf c = v.kind := by
  cases h with
  | null => exact ⟨_, _, rfl, rfl⟩
  | bool b => cases b <;> exact ⟨_, _, rfl, rfl⟩
  | int n =>
    cases hn : intText n with
    | nil => exact absurd hn (intText_ne_nil n)
    | cons c cs =>
      have hc : c ∈ intText n := by rw [hn]; exact List.mem_cons_self
      exact ⟨c, cs, by rw [text, hn], kindOf_number (numberChar_of_mem_intText c hc)⟩
  | @float r hr =>
    obtain ⟨d, hd, -⟩ := hr.mark
    cases hn : r.toList with
    | nil => rw [hn] at hd; cases hd
    | cons c cs =>
      have hc : c ∈ r.toList := by rw [hn]; exact List.mem_cons_self
      exact ⟨c, cs, by rw [text, hn], kindOf_number (hr.chars c hc)⟩
  | str s => exact ⟨_, _, rfl, rfl⟩
  | @arr items => cases items <;> exact ⟨_, _, rfl, rfl⟩
  | @obj fields =>
    cases fields with
    | nil => exact ⟨_, _, rfl, rfl⟩
    | cons f fs =>
      obtain ⟨k, v⟩ := f
      exact ⟨_, _, rfl, rfl⟩

theorem kind_eq {v w : Json} {s t : List Char} (hv : v.WellFormed) (hw : w.WellFormed) (h : text v ++ s = text w ++ t) :
    v.kind = w.kind := by
  obtain ⟨c, cs, hc, hkind⟩ := text_head hv
  obtain ⟨d, ds, hd, hkind'⟩ := text_head hw
  rw [hc, hd, List.cons_append, List.cons_append] at h
  rw [← hkind, ← hkind', (List.cons.inj h).1]

theorem Follows.cons {c : Char} (h : numberChar c = false) (s : List Char) : Follows (c :: s) := by
  intro d hd
  cases hd
  exact h

theorem follows_itemsText (vs : List Json) (s : List Char) : Follows (itemsText vs ++ ']' :: s) := by
  cases vs with
  | nil => exact .cons rfl _
  | cons v vs => exact .cons rfl _

theorem follows_fieldsText (fs : List (String × Json)) (s : List Char) : Follows (fieldsText fs ++ '\x7d' :: s) := by
  cases fs with
  | nil => exact .cons rfl _
  | cons f fs => exact .cons rfl _

theorem number_text {v : Json} (hv : v.WellFormed) (h : v.kind = 6) : ∀ c ∈ text v, numberChar c = true := by
  cases hv with
  | int n => exact numberChar_of_mem_intText
  | float hr => exact hr.chars
  | bool b => cases b <;> cases h
  | _ => cases h

theorem number_text_inj {v w : Json} (hv : v.WellFormed) (hw : w.WellFormed) (hkv : v.kind = 6) (hkw : w.kind = 6)
    (h : text v = text w) : v = w := by
  cases hv with
  | @int m =>
    cases hw with
    | @int n => exact congrArg Json.int (intText_inj h)
    | float hr =>
      obtain ⟨c, hc, hmark⟩ := hr.mark
      rw [no_mark_of_mem_intText c (by rw [show intText m = _ from h]; exact hc)] at hmark
      cases hmark
    | bool b => cases b <;> cases hkw
    | _ => cases hkw
  | float hr =>
    cases hw with
    | @int n =>
      obtain ⟨c, hc, hmark⟩ := hr.mark
      rw [no_mark_of_mem_intText c (by rw [← show _ = intText n from h]; exact hc)] at hmark
      cases hmark
    | float => exact congrArg Json.float (String.toList_injective h)
    | bool b => cases b <;> cases hkw
    | _ => cases hkw
  | bool b => cases b <;> cases hkv
  | _ => cases hkv

theorem WellFormed.items {items : List Json} (h : (Json.arr items).WellFormed) : ∀ v ∈ items, v.WellFormed := by
  cases h with
  | arr h => exact h

theorem WellFormed.fields {fields : List (String × Json)} (h : (Json.obj fields).WellFormed) :
    ∀ f ∈ fields, f.2.WellFormed := by
  cases h with
  | obj _ h => exact h

theorem kind_null {v : Json} (h : v.kind = 0) : v = .null := by
  cases v with
  | null => rfl
  | bool b => cases b <;> cases h
  | _ => cases h

theorem kind_bool {v : Json} {b : Bool} (h : v.kind = (Json.bool b).kind) : v = .bool b := by
  cases v with
  | bool a => cases a <;> cases b <;> first | rfl | cases h
  | _ => cases b <;> cases h

theorem kind_str {v : Json} (h : v.kind = 3) : ∃ s, v = .str s := by
  cases v with
  | str s => exact ⟨s, rfl⟩
  | bool b => cases b <;> cases h
  | _ => cases h

theorem kind_arr {v : Json} (h : v.kind = 4) : ∃ items, v = .arr items := by
  cases v with
  | arr items => exact ⟨items, rfl⟩
  | bool b => cases b <;> cases h
  | _ => cases h

theorem kind_obj {v : Json} (h : v.kind = 5) : ∃ fields, v = .obj fields := by
  cases v with
  | obj fields => exact ⟨fields, rfl⟩
  | bool b => cases b <;> cases h
  | _ => cases h

/-- No value's text starts with the bracket that ends a list. -/
theorem text_ne_close {v : Json} (hv : v.WellFormed) (s t : List Char) : text v ++ s ≠ ']' :: t := by
  obtain ⟨c, cs, hc, hkind⟩ := text_head hv
  intro h
  rw [hc, List.cons_append, List.cons.injEq] at h
  have hnumber : numberChar c = true := by
    apply number_text hv
    · rw [← hkind, h.1]
      rfl
    · rw [hc]
      exact List.mem_cons_self
  rw [h.1] at hnumber
  cases hnumber

mutual

theorem text_inj : ∀ (v w : Json) (s t : List Char), v.WellFormed → w.WellFormed → Follows s → Follows t →
    text v ++ s = text w ++ t → v = w ∧ s = t
  | .null, w, s, t, hv, hw, hs, ht, h => by
    have hw' : w = .null := kind_null (kind_eq hv hw h).symm
    subst hw'
    exact ⟨rfl, List.append_cancel_left h⟩
  | .bool b, w, s, t, hv, hw, hs, ht, h => by
    have hw' : w = .bool b := kind_bool (kind_eq hv hw h).symm
    subst hw'
    exact ⟨rfl, List.append_cancel_left h⟩
  | .int n, w, s, t, hv, hw, hs, ht, h => by
    have hkind : w.kind = 6 := (kind_eq hv hw h).symm
    obtain ⟨htext, rfl⟩ := number_inj (number_text hv rfl) (number_text hw hkind) hs ht h
    exact ⟨number_text_inj hv hw rfl hkind htext, rfl⟩
  | .float r, w, s, t, hv, hw, hs, ht, h => by
    have hkind : w.kind = 6 := (kind_eq hv hw h).symm
    obtain ⟨htext, rfl⟩ := number_inj (number_text hv rfl) (number_text hw hkind) hs ht h
    exact ⟨number_text_inj hv hw rfl hkind htext, rfl⟩
  | .str a, w, s, t, hv, hw, hs, ht, h => by
    obtain ⟨b, rfl⟩ := kind_str (kind_eq hv hw h).symm
    obtain ⟨rfl, rfl⟩ := strText_inj h
    exact ⟨rfl, rfl⟩
  | .arr [], w, s, t, hv, hw, hs, ht, h => by
    obtain ⟨items, rfl⟩ := kind_arr (kind_eq hv hw h).symm
    cases items with
    | nil => exact ⟨rfl, List.append_cancel_left h⟩
    | cons w ws =>
      simp only [text, List.cons_append, List.nil_append, List.append_assoc, List.cons.injEq, true_and] at h
      exact absurd h.symm (text_ne_close (hw.items w List.mem_cons_self) _ _)
  | .arr (v :: vs), w, s, t, hv, hw, hs, ht, h => by
    obtain ⟨items, rfl⟩ := kind_arr (kind_eq hv hw h).symm
    cases items with
    | nil =>
      simp only [text, List.cons_append, List.nil_append, List.append_assoc, List.cons.injEq, true_and] at h
      exact absurd h (text_ne_close (hv.items v List.mem_cons_self) _ _)
    | cons w ws =>
      simp only [text, List.cons_append, List.nil_append, List.append_assoc, List.cons.injEq, true_and] at h
      obtain ⟨rfl, hrest⟩ := text_inj v w _ _ (hv.items v List.mem_cons_self) (hw.items w List.mem_cons_self)
        (follows_itemsText vs s) (follows_itemsText ws t) h
      obtain ⟨rfl, rfl⟩ := itemsText_inj vs ws s t (fun u hu => hv.items u (List.mem_cons_of_mem _ hu))
        (fun u hu => hw.items u (List.mem_cons_of_mem _ hu)) hrest
      exact ⟨rfl, rfl⟩
  | .obj [], w, s, t, hv, hw, hs, ht, h => by
    obtain ⟨fields, rfl⟩ := kind_obj (kind_eq hv hw h).symm
    cases fields with
    | nil => exact ⟨rfl, List.append_cancel_left h⟩
    | cons g gs =>
      obtain ⟨l, w⟩ := g
      simp [text, strText] at h
  | .obj ((k, v) :: fs), w, s, t, hv, hw, hs, ht, h => by
    obtain ⟨fields, rfl⟩ := kind_obj (kind_eq hv hw h).symm
    cases fields with
    | nil => simp [text, strText] at h
    | cons g gs =>
      obtain ⟨l, w⟩ := g
      simp only [text, List.cons_append, List.nil_append, List.append_assoc, List.cons.injEq, true_and] at h
      obtain ⟨rfl, hvalue⟩ := strText_inj h
      rw [List.append_cancel_left_eq] at hvalue
      obtain ⟨rfl, hrest⟩ := text_inj v w _ _ (hv.fields _ List.mem_cons_self) (hw.fields _ List.mem_cons_self)
        (follows_fieldsText fs s) (follows_fieldsText gs t) hvalue
      obtain ⟨rfl, rfl⟩ := fieldsText_inj fs gs s t (fun u hu => hv.fields u (List.mem_cons_of_mem _ hu))
        (fun u hu => hw.fields u (List.mem_cons_of_mem _ hu)) hrest
      exact ⟨rfl, rfl⟩

theorem itemsText_inj : ∀ (vs ws : List Json) (s t : List Char), (∀ v ∈ vs, v.WellFormed) →
    (∀ w ∈ ws, w.WellFormed) →
    itemsText vs ++ ']' :: s = itemsText ws ++ ']' :: t → vs = ws ∧ s = t
  | [], [], s, t, _, _, h => ⟨rfl, (List.cons.inj h).2⟩
  | [], w :: ws, s, t, _, _, h => by cases (List.cons.inj h).1
  | v :: vs, [], s, t, _, _, h => by cases (List.cons.inj h).1
  | v :: vs, w :: ws, s, t, hv, hw, h => by
    simp only [itemsText, List.append_assoc, List.append_cancel_left_eq] at h
    obtain ⟨rfl, hrest⟩ := text_inj v w _ _ (hv v List.mem_cons_self) (hw w List.mem_cons_self)
      (follows_itemsText vs s) (follows_itemsText ws t) h
    obtain ⟨rfl, rfl⟩ := itemsText_inj vs ws s t (fun u hu => hv u (List.mem_cons_of_mem _ hu))
      (fun u hu => hw u (List.mem_cons_of_mem _ hu)) hrest
    exact ⟨rfl, rfl⟩

theorem fieldsText_inj : ∀ (fs gs : List (String × Json)) (s t : List Char), (∀ f ∈ fs, f.2.WellFormed) →
    (∀ g ∈ gs, g.2.WellFormed) → fieldsText fs ++ '\x7d' :: s = fieldsText gs ++ '\x7d' :: t → fs = gs ∧ s = t
  | [], [], s, t, _, _, h => ⟨rfl, (List.cons.inj h).2⟩
  | [], g :: gs, s, t, _, _, h => by cases (List.cons.inj h).1
  | f :: fs, [], s, t, _, _, h => by cases (List.cons.inj h).1
  | (k, v) :: fs, (l, w) :: gs, s, t, hf, hg, h => by
    simp only [fieldsText, List.append_assoc, List.append_cancel_left_eq] at h
    obtain ⟨rfl, hvalue⟩ := strText_inj h
    rw [List.append_cancel_left_eq] at hvalue
    obtain ⟨rfl, hrest⟩ := text_inj v w _ _ (hf _ List.mem_cons_self) (hg _ List.mem_cons_self)
      (follows_fieldsText fs s) (follows_fieldsText gs t) hvalue
    obtain ⟨rfl, rfl⟩ := fieldsText_inj fs gs s t (fun u hu => hf u (List.mem_cons_of_mem _ hu))
      (fun u hu => hg u (List.mem_cons_of_mem _ hu)) hrest
    exact ⟨rfl, rfl⟩

end

theorem dumps_inj {v w : Json} (hv : v.WellFormed) (hw : w.WellFormed) (h : v.dumps = w.dumps) : v = w := by
  have htext : text v ++ [] = text w ++ [] := by
    rw [List.append_nil, List.append_nil]
    exact String.ofList_injective h
  exact (text_inj v w [] [] hv hw (fun c hc => by cases hc) (fun c hc => by cases hc) htext).1

end Json

end OranAdapt
