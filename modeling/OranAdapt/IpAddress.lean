import Mathlib.Data.List.Basic
import OranAdapt.PyStr

/-!
# Addresses

`ipaddress`: how addresses and networks are read, which of them are special, and
which IPv4 address an IPv6 address stands for. The special blocks are those of
the two IANA registries.
-/

namespace Ip

inductive Address where
  | v4 (n : BitVec 32)
  | v6 (n : BitVec 128)
deriving DecidableEq, Repr

/-! ## Blocks -/

/-- The addresses that begin with the first `length` bits of `base`. -/
structure Block (w : Nat) where
  base : BitVec w
  length : Nat
deriving DecidableEq, Repr

namespace Block

variable {w : Nat} {b c : Block w} {n : BitVec w}

def contains (b : Block w) (n : BitVec w) : Bool := n >>> (w - b.length) == b.base >>> (w - b.length)

/-- The addresses of one block are addresses of the other. -/
def meets (b c : Block w) : Bool :=
  b.base >>> (w - min b.length c.length) == c.base >>> (w - min b.length c.length)

theorem prefix_eq (h : b.contains n = true) {k : Nat} (hk : k ≤ b.length) : n >>> (w - k) = b.base >>> (w - k) := by
  have hsplit : w - k = w - b.length + (b.length - k - (b.length - w)) := by omega
  rw [hsplit, BitVec.shiftRight_add, BitVec.shiftRight_add, beq_iff_eq.mp h]

theorem meets_of_contains (hb : b.contains n = true) (hc : c.contains n = true) : b.meets c = true := by
  rw [meets, beq_iff_eq, ← prefix_eq hb (Nat.min_le_left _ _), ← prefix_eq hc (Nat.min_le_right _ _)]

theorem contains_of_meets (hb : b.contains n = true) (hmeets : b.meets c = true) (hlength : c.length ≤ b.length) :
    c.contains n = true := by
  rw [meets, Nat.min_eq_right hlength, beq_iff_eq] at hmeets
  rw [contains, beq_iff_eq, prefix_eq hb hlength, hmeets]

end Block

/-! ## What is special -/

def octets (a b c d : Nat) : BitVec 32 := BitVec.ofNat 32 (((a * 256 + b) * 256 + c) * 256 + d)

/-- Groups of 16 bits from the left; zeros follow. -/
def groups (l : List Nat) : BitVec 128 :=
  BitVec.ofNat 128 ((l ++ List.replicate (8 - l.length) 0).foldl (fun n g => n * 65536 + g) 0)

def privateBlocks4 : List (Block 32) :=
  [⟨octets 0 0 0 0, 8⟩, ⟨octets 10 0 0 0, 8⟩, ⟨octets 127 0 0 0, 8⟩, ⟨octets 169 254 0 0, 16⟩,
    ⟨octets 172 16 0 0, 12⟩,
    ⟨octets 192 0 0 0, 24⟩, ⟨octets 192 0 0 170, 31⟩, ⟨octets 192 0 2 0, 24⟩, ⟨octets 192 168 0 0, 16⟩,
    ⟨octets 198 18 0 0, 15⟩, ⟨octets 198 51 100 0, 24⟩, ⟨octets 203 0 113 0, 24⟩, ⟨octets 240 0 0 0, 4⟩,
    ⟨octets 255 255 255 255, 32⟩]

def privateExceptions4 : List (Block 32) := [⟨octets 192 0 0 9, 32⟩, ⟨octets 192 0 0 10, 32⟩]

/-- Carrier-grade NAT. -/
def sharedBlock : Block 32 := ⟨octets 100 64 0 0, 10⟩

def multicastBlock4 : Block 32 := ⟨octets 224 0 0 0, 4⟩

def sixToFour : Block 128 := ⟨groups [0x2002], 16⟩

def privateBlocks6 : List (Block 128) :=
  [⟨groups [0, 0, 0, 0, 0, 0, 0, 1], 128⟩, ⟨groups [], 128⟩, ⟨groups [0, 0, 0, 0, 0, 0xffff], 96⟩,
    ⟨groups [0x64, 0xff9b, 1], 48⟩, ⟨groups [0x100], 64⟩, ⟨groups [0x2001], 23⟩,
    ⟨groups [0x2001, 0xdb8], 32⟩, sixToFour,
    ⟨groups [0x3fff], 20⟩, ⟨groups [0xfc00], 7⟩, ⟨groups [0xfe80], 10⟩]

def privateExceptions6 : List (Block 128) :=
  [⟨groups [0x2001, 1, 0, 0, 0, 0, 0, 1], 128⟩, ⟨groups [0x2001, 1, 0, 0, 0, 0, 0, 2], 128⟩,
    ⟨groups [0x2001, 3], 32⟩,
    ⟨groups [0x2001, 4, 0x112], 48⟩, ⟨groups [0x2001, 0x20], 28⟩, ⟨groups [0x2001, 0x30], 28⟩]

def multicastBlock6 : Block 128 := ⟨groups [0xff00], 8⟩

def inAny {w : Nat} (blocks : List (Block w)) (n : BitVec w) : Bool := blocks.any (·.contains n)

def private4 (n : BitVec 32) : Bool := inAny privateBlocks4 n && !inAny privateExceptions4 n

def private6 (n : BitVec 128) : Bool := inAny privateBlocks6 n && !inAny privateExceptions6 n

def global4 (n : BitVec 32) : Bool := !sharedBlock.contains n && !private4 n

def mapped? (n : BitVec 128) : Option (BitVec 32) := if n >>> 32 = 0xffff then some (n.setWidth 32) else none

def Address.isGlobal : Address → Bool
  | v4 n => global4 n
  | v6 n =>
    match mapped? n with
    | some m => global4 m
    | none => !private6 n

def Address.isMulticast : Address → Bool
  | v4 n => multicastBlock4.contains n
  | v6 n =>
    match mapped? n with
    | some m => multicastBlock4.contains m
    | none => multicastBlock6.contains n

/-! ## Reading addresses -/

def isDigits (text : List Char) : Bool := !text.isEmpty && text.all Char.isDigit

def decimal (text : List Char) : Nat := text.foldl (fun n c => 10 * n + (c.toNat - '0'.toNat)) 0

def octet? (text : List Char) : Option Nat :=
  if isDigits text && text.length ≤ 3 && (text == ['0'] || text.head? != some '0') && decimal text ≤ 255 then
    some (decimal text)
  else none

def v4? (text : List Char) : Option (BitVec 32) :=
  match (text.splitOn '.').mapM octet? with
  | some [a, b, c, d] => some (octets a b c d)
  | _ => none

def hexValue? (c : Char) : Option Nat :=
  if c.isDigit then some (c.toNat - '0'.toNat)
  else if 'a' ≤ c ∧ c ≤ 'f' then some (c.toNat - 'a'.toNat + 10)
  else if 'A' ≤ c ∧ c ≤ 'F' then some (c.toNat - 'A'.toNat + 10)
  else none

def hextet? (text : List Char) : Option Nat := do
  let ds ← text.mapM hexValue?
  if ds.isEmpty || 4 < ds.length then none else some (ds.foldl (fun n d => 16 * n + d) 0)

/-- The parts between the colons; an IPv4 address at the end stands for two. -/
def parts6? (text : List Char) : Option (List (List Char)) :=
  let parts := text.splitOn ':'
  if parts.length < 3 then none
  else
    let last := parts.getLastD []
    if '.' ∈ last then
      (v4? last).map fun n => parts.dropLast ++ [Nat.toDigits 16 (n.toNat / 65536), Nat.toDigits 16 (n.toNat % 65536)]
    else some parts

/-- The parts on one side of `::`; at the end of the text there is an empty one, which then stands alone. -/
def side? (outer : Option (List Char)) (parts : List (List Char)) : Option (List (List Char)) :=
  if outer = some [] then if parts.length = 1 then some [] else none else some parts

def groups? (text : List Char) : Option (List Nat) := do
  let parts ← parts6? text
  if 9 < parts.length then none
  else
    match (parts.drop 1).dropLast.findIdxs (·.isEmpty) with
    | [] => if parts.length = 8 then parts.mapM hextet? else none
    | [i] => do
      let high ← side? parts.head? (parts.take (i + 1))
      let low ← side? parts.getLast? (parts.drop (i + 2))
      if 8 ≤ high.length + low.length then none
      else do
        let high ← high.mapM hextet?
        let low ← low.mapM hextet?
        some (high ++ List.replicate (8 - (high.length + low.length)) 0 ++ low)
    | _ => none

def v6? (text : List Char) : Option (BitVec 128) :=
  match PyStr.partition '%' text with
  | (address, none) => (groups? address).map groups
  | (address, some zone) => if zone.isEmpty || '%' ∈ zone then none else (groups? address).map groups

/-- `ipaddress.ip_address(text)`: `none` where it raises a ValueError. -/
def address? (text : List Char) : Option Address :=
  if '/' ∈ text then none else ((v4? text).map .v4).or ((v6? text).map .v6)

/-! ## Reading networks -/

inductive Network where
  | v4 (block : Block 32)
  | v6 (block : Block 128)
deriving DecidableEq, Repr

def Network.contains : Network → Address → Bool
  | v4 block, .v4 n => block.contains n
  | v6 block, .v6 n => block.contains n
  | _, _ => false

def prefixLength? (width : Nat) (text : List Char) : Option Nat :=
  if isDigits text && decimal text ≤ width then some (decimal text) else none

/-- `_prefix_from_ip_string`: a mask of ones and then zeros, or the other way round. -/
def maskLength? (text : List Char) : Option Nat := do
  let mask ← v4? text
  ((List.range 33).find? fun k => mask.toNat == 4294967296 - 2 ^ (32 - k)).or
    ((List.range 33).find? fun k => mask.toNat == 2 ^ (32 - k) - 1)

/-- `ipaddress.ip_network(text, strict=False)`: `none` where it raises a ValueError. -/
def network? (text : List Char) : Option Network :=
  match text.splitOn '/' with
  | [address] => ((v4? address).map fun n => Network.v4 ⟨n, 32⟩).or ((v6? address).map fun n => .v6 ⟨n, 128⟩)
  | [address, length] =>
    (do
      let n ← v4? address
      let k ← (prefixLength? 32 length).or (maskLength? length)
      some (Network.v4 ⟨n, k⟩)).or
    (do
      let n ← v6? address
      let k ← prefixLength? 128 length
      some (.v6 ⟨n, k⟩))
  | _ => none

example : address? "64:ff9b::169.254.169.254".toList = some (.v6 (groups [0x64, 0xff9b, 0, 0, 0, 0, 0xa9fe, 0xa9fe])) := by
  decide +kernel

/-! ## What an address reaches -/

/-- IPv4-mapped, IPv4-compatible and IPv4-translated addresses, and those of a NAT64: the last 32 bits are
an IPv4 address. -/
def carriers : List (Block 128) :=
  [⟨groups [0, 0, 0, 0, 0, 0xffff], 96⟩, ⟨groups [], 96⟩, ⟨groups [0, 0, 0, 0, 0xffff], 96⟩,
    ⟨groups [0x64, 0xff9b], 96⟩]

def teredo : Block 128 := ⟨groups [0x2001], 32⟩

/-- The IPv4 address that an IPv6 address embeds. -/
def embedded? (n : BitVec 128) : Option (BitVec 32) :=
  if inAny carriers n then some (n.setWidth 32)
  else if sixToFour.contains n then some ((n >>> 80).setWidth 32)
  else if teredo.contains n then some (~~~n.setWidth 32)
  else none

/-- The only IPv6 addresses that were given out for global unicast. -/
def globalUnicast : Block 128 := ⟨groups [0x2000], 3⟩

def public4 (n : BitVec 32) : Bool := global4 n && !multicastBlock4.contains n

def Address.public : Address → Bool
  | v4 n => public4 n
  | v6 n =>
    match embedded? n with
    | some m => public4 m
    | none => globalUnicast.contains n && !private6 n

/-- What is left to ask of an address that is not special: an IPv4 address that it carries is public,
and otherwise it was given out. -/
def Address.leadsOut : Address → Bool
  | v4 _ => true
  | v6 n => if inAny carriers n then public4 (n.setWidth 32) else globalUnicast.contains n

section
variable {w : Nat} {blocks : List (Block w)} {b c : Block w} {n : BitVec w}

theorem inAny_of_mem (hc : c ∈ blocks) (hn : c.contains n = true) : inAny blocks n = true :=
  List.any_eq_true.mpr ⟨c, hc, hn⟩

theorem not_inAny (hb : b.contains n = true) (hmeets : ∀ c ∈ blocks, c.meets b = false) : inAny blocks n = false := by
  rw [inAny, List.any_eq_false]
  intro c hc hn
  have hnot := hmeets c hc
  rw [Block.meets_of_contains hn hb] at hnot
  cases hnot

end

section
variable {n : BitVec 128}

theorem private6_of_sixToFour (h : sixToFour.contains n = true) : private6 n = true := by
  have hblock : inAny privateBlocks6 n = true := inAny_of_mem (by decide) h
  have hexception : inAny privateExceptions6 n = false := not_inAny h (by decide +kernel)
  rw [private6, hblock, hexception]
  rfl

theorem private6_of_teredo (h : teredo.contains n = true) : private6 n = true := by
  have hwide : (⟨groups [0x2001], 23⟩ : Block 128).contains n = true :=
    Block.contains_of_meets h (by decide +kernel) (by decide)
  have hblock : inAny privateBlocks6 n = true := inAny_of_mem (by decide) hwide
  have hexception : inAny privateExceptions6 n = false := not_inAny h (by decide +kernel)
  rw [private6, hblock, hexception]
  rfl

theorem mapped?_eq_some {m : BitVec 32} (h : mapped? n = some m) : inAny carriers n = true ∧ m = n.setWidth 32 := by
  unfold mapped? at h
  split at h
  · rename_i hmapped
    have hblock : (⟨groups [0, 0, 0, 0, 0, 0xffff], 96⟩ : Block 128).contains n = true := by
      rw [Block.contains, beq_iff_eq]
      exact hmapped.trans (by decide +kernel)
    exact ⟨inAny_of_mem (by decide) hblock, (Option.some.inj h).symm⟩
  · cases h

/-- Of what is not mapped and not special, 6to4 and Teredo addresses are no part. -/
theorem public_v6 (hspecial : private6 n = false) : (Address.v6 n).public = (Address.v6 n).leadsOut := by
  have hsix : sixToFour.contains n ≠ true := fun hn => by
    rw [private6_of_sixToFour hn] at hspecial
    cases hspecial
  have hteredo : teredo.contains n ≠ true := fun hn => by
    rw [private6_of_teredo hn] at hspecial
    cases hspecial
  by_cases hcarrier : inAny carriers n = true
  · simp [Address.public, embedded?, Address.leadsOut, hcarrier]
  · simp [Address.public, embedded?, Address.leadsOut, hcarrier, hsix, hteredo, hspecial]

end

end Ip
