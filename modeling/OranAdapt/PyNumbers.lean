import Mathlib.Algebra.Group.Nat.Defs
import Mathlib.Data.Int.Basic
import Mathlib.Data.List.Basic
import Mathlib.Data.List.TakeWhile
import Mathlib.Data.Rat.Floor

/-!
# Numbers

A float as comparisons see it: a finite value, an infinity, or `nan`, which is
neither below nor above anything. `min` and `max` keep their first argument
unless the second one is strictly better, so a `nan` in front stays.

`int(text)`: the blanks around the number are dropped, a sign may lead, a
decimal digit of any script counts, and an underscore may stand between two
digits. What an integer is written as reads back as the integer.
-/

inductive PyFloat where
  | fin (q : Rat)
  | inf
  | negInf
  | nan
deriving DecidableEq, Repr

namespace PyFloat

instance : Coe Rat PyFloat := ⟨fin⟩

def lt : PyFloat → PyFloat → Bool
  | nan, _ => false
  | _, nan => false
  | fin a, fin b => decide (a < b)
  | negInf, b => b != negInf
  | fin _, b => b == inf
  | inf, _ => false

def le : PyFloat → PyFloat → Bool
  | nan, _ => false
  | a, b => lt a b || a == b

def pyMin (a b : PyFloat) : PyFloat := if b.lt a then b else a

def pyMax (a b : PyFloat) : PyFloat := if a.lt b then b else a

variable {a b : PyFloat}

@[simp] theorem lt_fin {p q : Rat} : (fin p).lt (fin q) = decide (p < q) := rfl

@[simp] theorem lt_self (a : PyFloat) : a.lt a = false := by
  cases a <;> simp [lt]

/-- The minimum is above neither argument, unless it is `nan`, which is above nothing. -/
theorem not_lt_pyMin (a b : PyFloat) : b.lt (pyMin a b) = false := by
  unfold pyMin
  split
  · simp
  · rename_i h
    simpa using h

theorem pyMin_cases (P : PyFloat → Prop) (ha : P a) (hb : P b) : P (pyMin a b) := by
  unfold pyMin
  split
  · exact hb
  · exact ha

/-- The float is checked to lie between 0 and 1. A `nan` passes the check. -/
def InUnit (c : PyFloat) : Prop := c.lt (fin 0) = false ∧ (fin 1).lt c = false

instance : DecidablePred InUnit := fun c => inferInstanceAs (Decidable (c.lt (fin 0) = false ∧ (fin 1).lt c = false))

theorem inUnit_fin {q : Rat} (h₀ : 0 ≤ q) (h₁ : q ≤ 1) : InUnit (fin q) := by
  simp [InUnit, h₀, h₁]

theorem inUnit_pyMin (ha : InUnit a) (hb : InUnit b) : InUnit (pyMin a b) := pyMin_cases InUnit ha hb

end PyFloat

namespace PyInt

/-- Where each block of ten decimal digits starts. -/
def decimalZeros : List Nat :=
  [0x30, 0x660, 0x6f0, 0x7c0, 0x966, 0x9e6, 0xa66, 0xae6, 0xb66, 0xbe6, 0xc66, 0xce6, 0xd66, 0xde6, 0xe50, 0xed0,
    0xf20, 0x1040, 0x1090, 0x17e0, 0x1810, 0x1946, 0x19d0, 0x1a80, 0x1a90, 0x1b50, 0x1bb0, 0x1c40, 0x1c50, 0xa620,
    0xa8d0, 0xa900, 0xa9d0, 0xa9f0, 0xaa50, 0xabf0, 0xff10, 0x104a0, 0x10d30, 0x11066, 0x110f0, 0x11136, 0x111d0,
    0x112f0, 0x11450, 0x114d0, 0x11650, 0x116c0, 0x11730, 0x118e0, 0x11950, 0x11c50, 0x11d50, 0x11da0, 0x11f50,
    0x16a60, 0x16ac0, 0x16b50, 0x1d7ce, 0x1d7d8, 0x1d7e2, 0x1d7ec, 0x1d7f6, 0x1e140, 0x1e2f0, 0x1e4f0, 0x1e950,
    0x1fbf0]

def digit? (c : Char) : Option Nat :=
  (decimalZeros.find? fun z => z ≤ c.toNat && c.toNat < z + 10).map (c.toNat - ·)

/-- The blanks beyond the ASCII ones. -/
def wideBlanks : List Nat :=
  [0x85, 0xa0, 0x1680, 0x2000, 0x2001, 0x2002, 0x2003, 0x2004, 0x2005, 0x2006, 0x2007, 0x2008, 0x2009, 0x200a, 0x2028,
    0x2029, 0x202f, 0x205f, 0x3000]

/-- A character that `int` drops in front of a number and behind it. -/
def blank (c : Char) : Bool := c == ' ' || (9 ≤ c.toNat && c.toNat ≤ 13) || c.toNat ∈ wideBlanks

def strip (cs : List Char) : List Char := ((cs.dropWhile blank).reverse.dropWhile blank).reverse

def moreDigits? : List Char → Option (List Nat)
  | [] => some []
  | '_' :: c :: cs => do
    let d ← digit? c
    let ds ← moreDigits? cs
    some (d :: ds)
  | c :: cs => do
    let d ← digit? c
    let ds ← moreDigits? cs
    some (d :: ds)

def digits? : List Char → Option (List Nat)
  | [] => none
  | c :: cs => do
    let d ← digit? c
    let ds ← moreDigits? cs
    some (d :: ds)

/-- `sys.int_info.default_max_str_digits` -/
def maxStrDigits : Nat := 4300

def nat? (cs : List Char) : Option Nat := do
  let ds ← digits? cs
  if ds.length ≤ maxStrDigits then some (ds.foldl (fun n d => 10 * n + d) 0) else none

def signed? : List Char → Option Int
  | '-' :: cs => (nat? cs).map fun n : Nat => -(n : Int)
  | '+' :: cs => (nat? cs).map Int.ofNat
  | cs => (nat? cs).map Int.ofNat

/-- `int(text)`: `none` where it raises a ValueError. -/
def int? (text : String) : Option Int := signed? (strip text.toList)

example : int? " -1_0\n" = some (-10) := by decide

example : int? "1__0" = none := by decide

/-! ## What an integer is written as -/

theorem toNat_digit {c : Char} (h : c.isDigit = true) : 48 ≤ c.toNat ∧ c.toNat ≤ 57 := by
  have hval : 48 ≤ c.val ∧ c.val ≤ 57 := by simpa [Char.isDigit] using h
  exact ⟨hval.1, hval.2⟩

theorem find?_digit {c : Char} (h : c.isDigit = true) :
    decimalZeros.find? (fun z => z ≤ c.toNat && c.toNat < z + 10) = some 0x30 := by
  obtain ⟨hlow, hhigh⟩ := toNat_digit h
  have : (decide (48 ≤ c.toNat) && decide (c.toNat < 48 + 10)) = true := by simp; omega
  exact List.find?_cons_of_pos this

theorem digit?_of_isDigit {c : Char} (h : c.isDigit = true) : digit? c = some (c.toNat - '0'.toNat) := by
  rw [digit?, find?_digit h]
  rfl

theorem blank_digit {c : Char} (h : c.isDigit = true) : blank c = false := by
  obtain ⟨hlow, hhigh⟩ := toNat_digit h
  have hspace : c ≠ ' ' := by
    rintro rfl
    exact absurd hlow (by decide)
  have hwide : c.toNat ∉ wideBlanks := by
    intro hmem
    simp only [wideBlanks, List.mem_cons, List.not_mem_nil, or_false] at hmem
    omega
  have hlow' : ¬ c.toNat ≤ 13 := by omega
  simp [blank, hspace, hwide, hlow']

theorem strip_of_ends {cs : List Char} (hfirst : ∀ c ∈ cs.head?, blank c = false)
    (hlast : ∀ c ∈ cs.getLast?, blank c = false) : strip cs = cs := by
  have hdrop : ∀ l : List Char, (∀ c ∈ l.head?, blank c = false) → l.dropWhile blank = l := by
    intro l hl
    cases l with
    | nil => rfl
    | cons c l => exact List.dropWhile_cons_of_neg (by simp [hl c rfl])
  unfold strip
  rw [hdrop cs hfirst, hdrop cs.reverse (by rwa [List.head?_reverse]), List.reverse_reverse]

theorem moreDigits?_digits {cs : List Char} (h : ∀ c ∈ cs, c.isDigit = true) :
    moreDigits? cs = some (cs.map fun c => c.toNat - '0'.toNat) := by
  induction cs with
  | nil => rfl
  | cons c cs ih =>
    have hc := h c List.mem_cons_self
    have hne : c ≠ '_' := by
      rintro rfl
      cases hc
    have hstep : moreDigits? (c :: cs) = (digit? c).bind fun d => (moreDigits? cs).bind fun ds => some (d :: ds) := by
      cases cs with
      | nil => simp [moreDigits?]
      | cons c' cs => simp [moreDigits?, hne]
    rw [hstep, digit?_of_isDigit hc, ih fun c' hc' => h c' (List.mem_cons_of_mem _ hc')]
    rfl

theorem digits?_digits {cs : List Char} (hne : cs ≠ []) (h : ∀ c ∈ cs, c.isDigit = true) :
    digits? cs = some (cs.map fun c => c.toNat - '0'.toNat) := by
  cases cs with
  | nil => exact absurd rfl hne
  | cons c cs =>
    rw [digits?, digit?_of_isDigit (h c List.mem_cons_self),
      moreDigits?_digits fun c' hc' => h c' (List.mem_cons_of_mem _ hc')]
    rfl

theorem isDigit_of_mem {n : Nat} {c : Char} (h : c ∈ Nat.toDigits 10 n) : c.isDigit = true :=
  Nat.isDigit_of_mem_toDigits (by decide) (by decide) h

theorem nat?_toDigits {n : Nat} (h : (Nat.toDigits 10 n).length ≤ maxStrDigits) : nat? (Nat.toDigits 10 n) = some n := by
  have hvalue : Nat.ofDigitChars 10 (Nat.toDigits 10 n) 0 = n := Nat.ofDigitChars_toDigits (by decide) (by decide)
  rw [nat?, digits?_digits Nat.toDigits_ne_nil fun c => isDigit_of_mem]
  simp only [Option.bind_eq_bind, Option.bind_some, List.length_map, h, if_true, List.foldl_map]
  exact congrArg some hvalue

/-- The number of digits an integer is written with. -/
def width (n : Int) : Nat := (Nat.toDigits 10 n.natAbs).length

theorem toList_toString (n : Int) :
    (toString n).toList = if 0 ≤ n then Nat.toDigits 10 n.natAbs else '-' :: Nat.toDigits 10 n.natAbs := by
  cases n with
  | ofNat n =>
    have : toString (Int.ofNat n) = n.repr := rfl
    rw [this, Nat.toList_repr, if_pos (show (0 : Int) ≤ Int.ofNat n from Int.natCast_nonneg n)]
    rfl
  | negSucc n =>
    have : toString (Int.negSucc n) = "-" ++ (n + 1).repr := rfl
    rw [this, String.toList_append, Nat.toList_repr, if_neg (by omega)]
    rfl

theorem signed?_of_digit {c : Char} {cs : List Char} (h : c.isDigit = true) :
    signed? (c :: cs) = (nat? (c :: cs)).map Int.ofNat := by
  have hminus : c ≠ '-' := by
    rintro rfl
    cases h
  have hplus : c ≠ '+' := by
    rintro rfl
    cases h
  simp [signed?, hminus, hplus]

/-- What an integer is written as reads back as the integer. -/
theorem int?_toString {n : Int} (h : width n ≤ maxStrDigits) : int? (toString n) = some n := by
  have hlast : ∀ c ∈ (Nat.toDigits 10 n.natAbs).getLast?, blank c = false := by
    intro c hc
    exact blank_digit (isDigit_of_mem (List.mem_of_getLast? hc))
  rw [int?, toList_toString]
  by_cases hn : 0 ≤ n
  · rw [if_pos hn, strip_of_ends (fun c hc => blank_digit (isDigit_of_mem (List.mem_of_head? hc))) hlast]
    obtain ⟨c, cs, hcs⟩ := List.exists_cons_of_ne_nil (Nat.toDigits_ne_nil (b := 10) (n := n.natAbs))
    have hc : c.isDigit = true := isDigit_of_mem (n := n.natAbs) (by rw [hcs]; exact List.mem_cons_self)
    have hvalue := nat?_toDigits h
    rw [hcs] at hvalue ⊢
    rw [signed?_of_digit hc, hvalue]
    exact congrArg some (Int.natAbs_of_nonneg hn)
  · have hlast' : ∀ c ∈ ('-' :: Nat.toDigits 10 n.natAbs).getLast?, blank c = false := by
      rw [List.getLast?_cons_of_ne_nil Nat.toDigits_ne_nil]
      exact hlast
    have hminus : ∀ c ∈ ('-' :: Nat.toDigits 10 n.natAbs).head?, blank c = false := by
      intro c hc
      cases hc
      decide
    rw [if_neg hn, strip_of_ends hminus hlast', signed?, nat?_toDigits h]
    have : -((n.natAbs : Nat) : Int) = n := by omega
    exact congrArg some this

/-! ## What an integer is read from -/

/-- A character of a text that reads as an integer. -/
def numeric (c : Char) : Bool := blank c || (digit? c).isSome || c == '_' || c == '-' || c == '+'

theorem mem_dropWhile {p : Char → Bool} {cs : List Char} {c : Char}
    (h : c ∈ cs) : p c = true ∨ c ∈ cs.dropWhile p := by
  rw [← List.takeWhile_append_dropWhile (p := p) (l := cs)] at h
  rcases List.mem_append.mp h with h | h
  · exact .inl (List.mem_takeWhile_imp h)
  · exact .inr h

theorem mem_strip {cs : List Char} {c : Char} (h : c ∈ cs) : blank c = true ∨ c ∈ strip cs := by
  rcases mem_dropWhile (p := blank) h with hblank | hmem
  · exact .inl hblank
  rcases mem_dropWhile (p := blank) (List.mem_reverse.mpr hmem) with hblank | hmem
  · exact .inl hblank
  · exact .inr (List.mem_reverse.mpr hmem)

theorem numeric_digit {c : Char} {d : Nat} (h : digit? c = some d) : numeric c = true := by simp [numeric, h]

theorem moreDigits?_numeric : ∀ {cs : List Char} {ds : List Nat}, moreDigits? cs = some ds →
    ∀ c ∈ cs, numeric c = true := by
  intro cs
  induction cs using moreDigits?.induct with
  | case1 => simp
  | case2 c cs ih =>
    intro ds h
    obtain ⟨d, hd, h⟩ := Option.bind_eq_some_iff.mp h
    obtain ⟨ds', hds, -⟩ := Option.bind_eq_some_iff.mp h
    intro x hx
    rcases List.mem_cons.mp hx with rfl | hx
    · rfl
    rcases List.mem_cons.mp hx with rfl | hx
    · exact numeric_digit hd
    · exact ih hds x hx
  | case3 c cs hne ih =>
    intro ds h
    rw [moreDigits?] at h
    · obtain ⟨d, hd, h⟩ := Option.bind_eq_some_iff.mp h
      obtain ⟨ds', hds, -⟩ := Option.bind_eq_some_iff.mp h
      intro x hx
      rcases List.mem_cons.mp hx with rfl | hx
      · exact numeric_digit hd
      · exact ih hds x hx
    · exact hne

theorem nat?_numeric {cs : List Char} {n : Nat} (h : nat? cs = some n) : ∀ c ∈ cs, numeric c = true := by
  obtain ⟨ds, hds, -⟩ := Option.bind_eq_some_iff.mp h
  cases cs with
  | nil => simp
  | cons c cs =>
    obtain ⟨d, hd, hds⟩ := Option.bind_eq_some_iff.mp hds
    obtain ⟨ds', hmore, -⟩ := Option.bind_eq_some_iff.mp hds
    intro x hx
    rcases List.mem_cons.mp hx with rfl | hx
    · exact numeric_digit hd
    · exact moreDigits?_numeric hmore x hx

theorem signed?_numeric {cs : List Char} {n : Int} (h : signed? cs = some n) : ∀ c ∈ cs, numeric c = true := by
  unfold signed? at h
  split at h
  · obtain ⟨m, hm, -⟩ := Option.map_eq_some_iff.mp h
    exact List.forall_mem_cons.mpr ⟨rfl, nat?_numeric hm⟩
  · obtain ⟨m, hm, -⟩ := Option.map_eq_some_iff.mp h
    exact List.forall_mem_cons.mpr ⟨rfl, nat?_numeric hm⟩
  · obtain ⟨m, hm, -⟩ := Option.map_eq_some_iff.mp h
    exact nat?_numeric hm

theorem int?_numeric {text : String} {n : Int} (h : int? text = some n) : ∀ c ∈ text.toList, numeric c = true := by
  intro c hc
  rcases mem_strip hc with hblank | hmem
  · simp [numeric, hblank]
  · exact signed?_numeric h c hmem

/-! ## Integers that a float holds -/

def power (n : Nat) : Nat := 2 ^ n

/-- What no float holds: an integer from here on raises an OverflowError. -/
def floatLimit : Nat := power 1024 - power 970

theorem power_mono {m n : Nat} (hmn : m ≤ n) : power m ≤ power n := Nat.pow_le_pow_right (by decide) hmn

theorem power_succ (n : Nat) : power (n + 1) = power n + power n := by
  rw [power, power, Nat.pow_succ, Nat.mul_two]

theorem le_floatLimit : power 970 ≤ floatLimit := by
  have hdouble : power 970 + power 970 ≤ power 1024 := by
    rw [← power_succ]
    exact power_mono (by decide)
  exact Nat.le_sub_of_add_le hdouble

theorem power_pos (n : Nat) : 0 < power n := Nat.pow_pos (by decide)

theorem power_le (n : Nat) : power n ≤ 10 ^ n := Nat.pow_le_pow_left (by decide) n

theorem power_le_digits {m : Nat} (hm : m ≤ maxStrDigits) : power m ≤ 10 ^ maxStrDigits :=
  Nat.le_trans (power_mono hm) (power_le _)

/-- What a float holds is written with few enough digits. -/
theorem width_le {n : Int} (hn : n.natAbs < floatLimit) : width n ≤ maxStrDigits := by
  have hlimit : floatLimit ≤ 10 ^ maxStrDigits := Nat.le_trans (Nat.sub_le _ _) (power_le_digits (by decide))
  exact (Nat.length_toDigits_le_iff (by decide) (by decide)).mpr (lt_of_lt_of_le hn hlimit)

theorem width_floatLimit : width floatLimit ≤ maxStrDigits := by
  have hlimit : floatLimit < power 1024 := Nat.sub_lt (power_pos _) (power_pos _)
  exact (Nat.length_toDigits_le_iff (by decide) (by decide)).mpr (Nat.lt_of_lt_of_le hlimit (power_le_digits (by decide)))

end PyInt
