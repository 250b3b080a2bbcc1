import OranAdapt.Encodings
import OranAdapt.IpAddress

/-!
# URLs taken apart

`urllib.parse.urlsplit`: the scheme and the host, then what follows the host
(path, query, fragment, credentials and port), and `parse_qsl`, which reads a
query as names with values.
-/

namespace UrlSplit

structure Parts where
  scheme : List Char
  netloc : List Char
deriving DecidableEq, Repr

def schemeChar (c : Char) : Bool := c.isAlphanum || c ∈ ['+', '-', '.']

def splitScheme (url : List Char) : List Char × List Char :=
  match PyStr.partition ':' url with
  | (scheme, some rest) =>
    if scheme.head?.any Char.isAlpha && scheme.all schemeChar then (scheme.map Char.toLower, rest) else ([], url)
  | (_, none) => ([], url)

def splitNetloc : List Char → List Char
  | '/' :: '/' :: rest => rest.takeWhile fun c => c ∉ ['/', '?', '#']
  | _ => []

/-- An address of a kind that is yet to come: `v`, a version, a dot and more. -/
def futureAddress : List Char → Bool
  | 'v' :: rest =>
    let digits := rest.takeWhile fun c => (Ip.hexValue? c).isSome
    !digits.isEmpty && (rest.drop digits.length).head? == some '.' && 1 < (rest.drop digits.length).length
  | _ => false

def bracketedHost (host : List Char) : Bool :=
  if host.head? == some 'v' then futureAddress host
  else
    match Ip.address? host with
    | some (.v6 _) => true
    | _ => false

/-- `_check_bracketed_netloc`: nothing stands before the bracket, and nothing but a port after it. -/
def bracketedNetloc (netloc : List Char) : Bool :=
  match PyStr.partition '[' (PyStr.afterLast '@' netloc) with
  | (before, some bracketed) =>
    let (host, port) := PyStr.partition ']' bracketed
    before.isEmpty && (port.getD []).head?.all (· == ':') && bracketedHost host
  | (rest, none) => bracketedHost (PyStr.partition ':' rest).1

/-- `_checknetloc`: a character that compatibility turns into a delimiter is refused. -/
def plainNetloc (nfkc : List Char → List Char) (netloc : List Char) : Bool :=
  let rest := netloc.filter fun c => c ∉ ['@', ':', '#', '?']
  netloc.all Utf8.ascii || nfkc rest == rest || (nfkc rest).all fun c => c ∉ ['/', '?', '#', '@', ':']

/-- `urlsplit(url)`: `none` where it raises a ValueError. -/
def split? (nfkc : List Char → List Char) (url : List Char) : Option Parts :=
  let url := (url.dropWhile fun c => c.toNat ≤ 0x20).filter fun c => c ∉ ['\t', '\r', '\n']
  let (scheme, rest) := splitScheme url
  let netloc := splitNetloc rest
  let opened := '[' ∈ netloc
  let closed := ']' ∈ netloc
  if (opened ↔ closed) ∧ (opened → bracketedNetloc netloc) ∧
    plainNetloc nfkc netloc then some ⟨scheme, netloc⟩ else none

def Parts.hostText (parts : Parts) : List Char :=
  match PyStr.partition '[' (PyStr.afterLast '@' parts.netloc) with
  | (_, some bracketed) => (PyStr.partition ']' bracketed).1
  | (rest, none) => (PyStr.partition ':' rest).1

def Parts.hostname (lower : String → String) (parts : Parts) : String :=
  match PyStr.partition '%' parts.hostText with
  | (host, some zone) => lower (String.ofList host) ++ "%" ++ String.ofList zone
  | (host, none) => lower (String.ofList host)

structure Reference extends Parts where
  path : List Char
  query : List Char
  fragment : List Char
deriving DecidableEq, Repr

def afterNetloc : List Char → List Char
  | '/' :: '/' :: rest => rest.dropWhile fun c => c ∉ ['/', '?', '#']
  | rest => rest

/-- `urlsplit(url)` in full: `none` where it raises a ValueError. -/
def reference? (nfkc : List Char → List Char) (url : List Char) : Option Reference := do
  let parts ← split? nfkc url
  let url := (url.dropWhile fun c => c.toNat ≤ 0x20).filter fun c => c ∉ ['\t', '\r', '\n']
  let (rest, fragment) := PyStr.partition '#' (afterNetloc (splitScheme url).2)
  let (path, query) := PyStr.partition '?' rest
  some { parts with path := path, query := query.getD [], fragment := fragment.getD [] }

def Parts.username (parts : Parts) : Option (List Char) :=
  (PyStr.rpartition '@' parts.netloc).map fun split => (PyStr.partition ':' split.1).1

def Parts.password (parts : Parts) : Option (List Char) :=
  (PyStr.rpartition '@' parts.netloc).bind fun split => (PyStr.partition ':' split.1).2

/-- What stands behind the colon of the host. -/
def Parts.portText (parts : Parts) : List Char :=
  match PyStr.partition '[' (PyStr.afterLast '@' parts.netloc) with
  | (_, some bracketed) => ((PyStr.partition ':' ((PyStr.partition ']' bracketed).2.getD [])).2).getD []
  | (rest, none) => (PyStr.partition ':' rest).2.getD []

def Parts.port? (parts : Parts) : Option (Option Nat) :=
  if parts.portText = [] then some none
  else if parts.portText.all Char.isDigit then
    match PyInt.nat? parts.portText with
    | some port => if port ≤ 65535 then some (some port) else none
    | none => none
  else none

end UrlSplit

/-! ## Queries -/

namespace QueryString

/-- What the bytes so far of a character leave open: how many are missing, what the next one may be, and the value. -/
structure Pending where
  missing : Nat
  low : Nat
  high : Nat
  value : Nat

inductive Lead where
  | char (c : Char)
  | pending (p : Pending)
  | invalid

def lead (b : UInt8) : Lead :=
  let n := b.toNat
  if n < 0x80 then .char (Char.ofNat n)
  else if 0xc2 ≤ n ∧ n ≤ 0xdf then .pending ⟨1, 0x80, 0xbf, n - 0xc0⟩
  else if n = 0xe0 then .pending ⟨2, 0xa0, 0xbf, 0⟩
  else if n = 0xed then .pending ⟨2, 0x80, 0x9f, 13⟩
  else if 0xe1 ≤ n ∧ n ≤ 0xef then .pending ⟨2, 0x80, 0xbf, n - 0xe0⟩
  else if n = 0xf0 then .pending ⟨3, 0x90, 0xbf, 0⟩
  else if 0xf1 ≤ n ∧ n ≤ 0xf3 then .pending ⟨3, 0x80, 0xbf, n - 0xf0⟩
  else if n = 0xf4 then .pending ⟨3, 0x80, 0x8f, 4⟩
  else .invalid

def replacement : Char := Char.ofNat 0xfffd

/-- `bytes.decode("utf-8", "replace")`: one replacement for as many bytes as begin a character. -/
def decodeFrom : Option Pending → List UInt8 → List Char
  | none, [] => []
  | some _, [] => [replacement]
  | pending, b :: bs =>
    let first (before : List Char) : List Char :=
      match lead b with
      | .char c => before ++ c :: decodeFrom none bs
      | .pending p => before ++ decodeFrom (some p) bs
      | .invalid => before ++ replacement :: decodeFrom none bs
    match pending with
    | none => first []
    | some p =>
      if p.low ≤ b.toNat ∧ b.toNat ≤ p.high then
        let value := 64 * p.value + (b.toNat - 0x80)
        if p.missing = 1 then Char.ofNat value :: decodeFrom none bs
        else decodeFrom (some ⟨p.missing - 1, 0x80, 0xbf, value⟩) bs
      else first [replacement]

def hexByte? (high low : Char) : Option UInt8 := do
  let h ← Ip.hexValue? high
  let l ← Ip.hexValue? low
  some (UInt8.ofNat (16 * h + l))

def unquoteBytes : List Char → List UInt8
  | '%' :: high :: low :: rest =>
    match hexByte? high low with
    | some b => b :: unquoteBytes rest
    | none => 0x25 :: unquoteBytes (high :: low :: rest)
  | c :: rest => UInt8.ofNat c.toNat :: unquoteBytes rest
  | [] => []

/-- `unquote(text)`: each run of ASCII characters is decoded on its own. -/
def unquoteRuns : (fuel : Nat) → List Char → List Char
  | 0, _ => []
  | _ + 1, [] => []
  | fuel + 1, c :: cs =>
    if Utf8.ascii c then
      decodeFrom none (unquoteBytes ((c :: cs).takeWhile Utf8.ascii)) ++ unquoteRuns fuel ((c :: cs).dropWhile Utf8.ascii)
    else c :: unquoteRuns fuel cs

def unquote (text : List Char) : List Char := unquoteRuns text.length text

def unquotePlus (text : List Char) : List Char := unquote (text.map fun c => if c = '+' then ' ' else c)

example : unquotePlus "a+b%C3%A9%zz%".toList = "a bé%zz%".toList := by decide

/-- `parse_qsl(query, keep_blank_values=True, strict_parsing=bool(query))`: `none` where it raises a ValueError. -/
def parse? (query : List Char) : Option (List (List Char × List Char)) :=
  if query = [] then some []
  else
    (query.splitOn '&').mapM fun field =>
      match PyStr.partition '=' field with
      | (name, some value) => some (unquotePlus name, unquotePlus value)
      | (_, none) => none

end QueryString
