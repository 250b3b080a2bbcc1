import Mathlib.Data.Char
import Mathlib.Data.List.Basic

/-!
# Texts as bytes, and bytes as text

What UTF-8 makes of a text, as a list of bytes. Different texts have different
bytes, and the byte of an ASCII character comes from that character alone.

`base64.urlsafe_b64decode`: characters outside the alphabet are skipped, both
alphabets are read, and what follows a complete padding is not looked at, so
many texts stand for the same bytes. `base64.b64encode` writes one of them.
-/

namespace Utf8

def encode (text : String) : List UInt8 := text.toList.flatMap String.utf8EncodeChar

def decode (data : List UInt8) : Option String := String.fromUTF8? data.toByteArray

def ascii (c : Char) : Bool := decide (c.toNat < 128)

theorem encode_inj {s t : String} (h : encode s = encode t) : s = t := by
  have htoList : s.toList.utf8Encode = t.toList.utf8Encode := congrArg List.toByteArray h
  rw [← String.toByteArray_inj]
  simpa using htoList

theorem decode_encode (text : String) : decode (encode text) = some text := by
  have hbytes : (encode text).toByteArray = text.toByteArray := by
    show text.toList.utf8Encode = text.toByteArray
    simp
  have hvalid : (encode text).toByteArray.IsValidUTF8 := by
    rw [hbytes]
    exact text.isValidUTF8
  rw [decode, String.fromUTF8?, dif_pos hvalid, Option.some.injEq, ← String.toByteArray_inj]
  exact hbytes

/-- No other character's bytes hold the byte of an ASCII character. -/
theorem eq_of_mem_encodeChar {a c : Char} (ha : a.toNat < 128) (h : UInt8.ofNat a.toNat ∈ String.utf8EncodeChar c) :
    c = a := by
  have hbyte : ∀ n, 128 ≤ n → n < 256 → UInt8.ofNat a.toNat ≠ UInt8.ofNat n := by
    intro n hlow hhigh heq
    have := congrArg UInt8.toNat heq
    simp only [UInt8.toNat_ofNat'] at this
    omega
  unfold String.utf8EncodeChar at h
  simp only at h
  split at h
  · rename_i hsmall
    have heq := congrArg UInt8.toNat (List.mem_singleton.mp h)
    simp only [UInt8.toNat_ofNat'] at heq
    apply Char.toNat_inj.mp
    have : c.toNat = c.val.toNat := rfl
    omega
  · exfalso
    have hmem : ∀ n m, 0x80 ≤ m → n + m < 256 → UInt8.ofNat a.toNat ≠ UInt8.ofNat (n + m) := fun n m hm hn =>
      hbyte (n + m) (by omega) hn
    split at h
    · simp only [List.mem_cons, List.not_mem_nil, or_false] at h
      rcases h with h | h
      · exact hmem _ _ (by decide) (by omega) h
      · exact hmem _ _ (by decide) (by omega) h
    split at h
    · simp only [List.mem_cons, List.not_mem_nil, or_false] at h
      rcases h with h | h | h
      · exact hmem _ _ (by decide) (by omega) h
      · exact hmem _ _ (by decide) (by omega) h
      · exact hmem _ _ (by decide) (by omega) h
    · simp only [List.mem_cons, List.not_mem_nil, or_false] at h
      rcases h with h | h | h | h
      · exact hmem _ _ (by decide) (by omega) h
      · exact hmem _ _ (by decide) (by omega) h
      · exact hmem _ _ (by decide) (by omega) h
      · exact hmem _ _ (by decide) (by omega) h

theorem mem_of_mem_encode {text : String} {a : Char} (ha : a.toNat < 128) (h : UInt8.ofNat a.toNat ∈ encode text) :
    a ∈ text.toList := by
  obtain ⟨c, hc, hbyte⟩ := List.mem_flatMap.mp h
  rwa [← eq_of_mem_encodeChar ha hbyte]

theorem toNat_ofNat_of_valid {c : Nat} (h : c.isValidChar) : (Char.ofNat c).toNat = c := by
  unfold Char.ofNat
  rw [dif_pos h]
  rfl

end Utf8

namespace Base64

def urlsafe (c : Char) : Char := if c = '-' then '+' else if c = '_' then '/' else c

/-- The six bits that a character stands for. -/
def sextet? (c : Char) : Option Nat :=
  if 'A' ≤ c ∧ c ≤ 'Z' then some (c.toNat - 'A'.toNat)
  else if 'a' ≤ c ∧ c ≤ 'z' then some (c.toNat - 'a'.toNat + 26)
  else if '0' ≤ c ∧ c ≤ '9' then some (c.toNat - '0'.toNat + 52)
  else if c = '+' then some 62
  else if c = '/' then some 63
  else none

/-- `binascii.a2b_base64` in the middle of a text: how many characters of a group of four were
read, the bits that are left of them, and the padding that followed. -/
def decodeFrom (pos left pads : Nat) : List Char → Option (List UInt8)
  | [] => if pos = 0 then some [] else none
  | c :: cs =>
    if c = '=' then
      if 2 ≤ pos then if 4 ≤ pos + (pads + 1) then some [] else decodeFrom pos left (pads + 1) cs
      else decodeFrom pos left pads cs
    else
      match sextet? c with
      | none => decodeFrom pos left pads cs
      | some v =>
        match pos with
        | 0 => decodeFrom 1 v 0 cs
        | 1 => (decodeFrom 2 (v % 16) 0 cs).map (UInt8.ofNat (left * 4 + v / 16) :: ·)
        | 2 => (decodeFrom 3 (v % 4) 0 cs).map (UInt8.ofNat (left * 16 + v / 4) :: ·)
        | _ => (decodeFrom 0 0 0 cs).map (UInt8.ofNat (left * 64 + v) :: ·)

/-- `base64.urlsafe_b64decode(text)`: `none` where it raises a ValueError. -/
def urlsafeDecode (text : List Char) : Option (List UInt8) :=
  if text.all Utf8.ascii then decodeFrom 0 0 0 (text.map urlsafe) else none

theorem ascii_of_urlsafeDecode {text : List Char} {bytes : List UInt8} (h : urlsafeDecode text = some bytes) :
    text.all Utf8.ascii = true := by
  unfold urlsafeDecode at h
  split at h
  · assumption
  · cases h

example : urlsafeDecode ['a', 'G', 'k', '='] = some [104, 105] := by decide

/-! ## Writing -/

def letter (v : Nat) : Char :=
  Char.ofNat (if v < 26 then 65 + v else if v < 52 then 71 + v else if v < 62 then v - 4 else if v = 62 then 43 else 47)

def encode : List UInt8 → List Char
  | [] => []
  | [a] => [letter (a.toNat / 4), letter (a.toNat % 4 * 16), '=', '=']
  | [a, b] => [letter (a.toNat / 4), letter (a.toNat % 4 * 16 + b.toNat / 16), letter (b.toNat % 16 * 4), '=']
  | a :: b :: c :: bytes =>
    letter (a.toNat / 4) :: letter (a.toNat % 4 * 16 + b.toNat / 16) :: letter (b.toNat % 16 * 4 + c.toNat / 64) ::
      letter (c.toNat % 64) :: encode bytes

def decode (text : List Char) : Option (List UInt8) := if text.all Utf8.ascii then decodeFrom 0 0 0 text else none

theorem letter_reads : ∀ v < 64, sextet? (letter v) = some v ∧ letter v ≠ '=' ∧
    Utf8.ascii (letter v) = true := by decide +kernel

theorem decodeFrom_letter {v : Nat} (h : v < 64) (pos left pads : Nat) (cs : List Char) :
    decodeFrom pos left pads (letter v :: cs) =
      match pos with
      | 0 => decodeFrom 1 v 0 cs
      | 1 => (decodeFrom 2 (v % 16) 0 cs).map (UInt8.ofNat (left * 4 + v / 16) :: ·)
      | 2 => (decodeFrom 3 (v % 4) 0 cs).map (UInt8.ofNat (left * 16 + v / 4) :: ·)
      | _ => (decodeFrom 0 0 0 cs).map (UInt8.ofNat (left * 64 + v) :: ·) := by
  obtain ⟨hread, hpad, -⟩ := letter_reads v h
  rw [decodeFrom, if_neg hpad]
  simp only [hread]

theorem ofNat_eq {a : UInt8} {n : Nat} (h : n = a.toNat) : UInt8.ofNat n = a := by rw [h, UInt8.ofNat_toNat]

theorem decodeFrom_encode : ∀ bytes : List UInt8, decodeFrom 0 0 0 (encode bytes) = some bytes
  | [] => rfl
  | [a] => by
    have ha := a.toNat_lt
    rw [encode, decodeFrom_letter (by omega)]
    simp only
    rw [decodeFrom_letter (by omega)]
    simp only
    rw [ofNat_eq (a := a) (by omega)]
    rfl
  | [a, b] => by
    have ha := a.toNat_lt
    have hb := b.toNat_lt
    rw [encode, decodeFrom_letter (by omega)]
    simp only
    rw [decodeFrom_letter (by omega)]
    simp only
    rw [ofNat_eq (a := a) (by omega), decodeFrom_letter (by omega)]
    simp only
    rw [ofNat_eq (a := b) (by omega)]
    rfl
  | a :: b :: c :: bytes => by
    have ha := a.toNat_lt
    have hb := b.toNat_lt
    have hc := c.toNat_lt
    rw [encode, decodeFrom_letter (by omega)]
    simp only
    rw [decodeFrom_letter (by omega)]
    simp only
    rw [ofNat_eq (a := a) (by omega), decodeFrom_letter (by omega)]
    simp only
    rw [ofNat_eq (a := b) (by omega), decodeFrom_letter (by omega)]
    simp only
    rw [ofNat_eq (a := c) (by omega), decodeFrom_encode bytes]
    rfl

theorem ascii_encode : ∀ bytes : List UInt8, (encode bytes).all Utf8.ascii = true
  | [] => rfl
  | [a] => by
    have ha := a.toNat_lt
    simp only [encode, List.all_cons, List.all_nil, (letter_reads (a.toNat / 4) (by omega)).2.2,
      (letter_reads (a.toNat % 4 * 16) (by omega)).2.2]
    rfl
  | [a, b] => by
    have ha := a.toNat_lt
    have hb := b.toNat_lt
    simp only [encode, List.all_cons, List.all_nil, (letter_reads (a.toNat / 4) (by omega)).2.2,
      (letter_reads (a.toNat % 4 * 16 + b.toNat / 16) (by omega)).2.2, (letter_reads (b.toNat % 16 * 4) (by omega)).2.2]
    rfl
  | a :: b :: c :: bytes => by
    have ha := a.toNat_lt
    have hb := b.toNat_lt
    have hc := c.toNat_lt
    simp only [encode, List.all_cons, (letter_reads (a.toNat / 4) (by omega)).2.2,
      (letter_reads (a.toNat % 4 * 16 + b.toNat / 16) (by omega)).2.2,
      (letter_reads (b.toNat % 16 * 4 + c.toNat / 64) (by omega)).2.2, (letter_reads (c.toNat % 64) (by omega)).2.2,
      ascii_encode bytes]
    rfl

theorem decode_encode (bytes : List UInt8) : decode (encode bytes) = some bytes := by
  rw [decode, if_pos (ascii_encode bytes), decodeFrom_encode]

end Base64
