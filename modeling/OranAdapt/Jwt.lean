import OranAdapt.Encodings
import OranAdapt.JwksCache
import OranAdapt.PyNumbers

/-!
# Tokens

`verify` of `adapters.jwt`. A token is taken apart, its algorithm is looked up
in two lists, its signature is checked with the keys of the issuer, and its
claims are compared with the rules. The claims are whatever JSON the issuer
signed, so the dates among them may be `null`, `nan` or too large for a float.
-/

namespace OranAdapt.Jwt

def unauthenticated : ErrorClass := .other "UNAUTHENTICATED"

inductive Hash where
  | sha256 | sha384 | sha512
deriving DecidableEq, Repr

def hashes : List (String × Hash) := [("256", .sha256), ("384", .sha384), ("512", .sha512)]

inductive Curve where
  | p256 | p384 | p521
deriving DecidableEq, Repr

def curves : List (String × Curve) := [("P-256", .p256), ("P-384", .p384), ("P-521", .p521)]

inductive Padding where
  | pss | pkcs1v15
deriving DecidableEq, Repr

def supportedAlgorithms : List String := ["RS", "PS", "ES"].flatMap fun family => hashes.map fun h => family ++ h.1

inductive LoadError where
  /-- a `ValueError`, which text that is no JSON raises -/
  | value
  /-- a `RecursionError`, which arrays in arrays raise -/
  | recursion
deriving DecidableEq, Repr

/-- What the code calls: `json`, floats, and the keys of `cryptography`, whose errors are named
as they are raised. -/
structure Host (ρ ε : Type) where
  loads : List UInt8 → Except LoadError Json
  /-- `str` of a value that is no text; a value nested too deeply has none -/
  text : Json → Option String
  /-- `repr` of a text -/
  quoted : String → String
  /-- the float that is written so -/
  float : String → PyFloat
  /-- `float` of an integer that a float holds -/
  ofInt : Int → ℚ
  add : PyFloat → PyFloat → PyFloat
  add_nan : ∀ a, add a .nan = .nan
  add_fin : ∀ q b, b ≠ .nan → add (.fin q) b ≠ .nan
  /-- `RSAPublicNumbers(e, n).public_key()` -/
  rsaPublic : Nat → Nat → Except String ρ
  /-- `EllipticCurvePublicNumbers(x, y, curve).public_key()` -/
  ecPublic : Curve → Nat → Nat → Except String ε
  /-- `key.verify(signature, signed, pad, digest)` -/
  rsaVerify : ρ → Padding → Hash → List UInt8 → List UInt8 → Except String Unit
  /-- `key.verify(encode_dss_signature(r, s), signed, ec.ECDSA(digest))` -/
  ecVerify : ε → Hash → Nat → Nat → List UInt8 → Except String Unit

structure TokenRules where
  issuer : String
  audience : Option String
  algorithms : List String
  leeway : PyFloat
  requiredClaims : List String := ["exp"]

/-- What `_segments` returns. -/
structure Token where
  header : JsonDict
  claims : JsonDict
  signed : List UInt8
  signature : List UInt8

def padded (part : List Char) : List Char := part ++ List.replicate ((4 - part.length % 4) % 4) '='

def b64urlDecode (part : List Char) : Option (List UInt8) := Base64.urlsafeDecode (padded part)

def fromBytes (value : List UInt8) : Nat := value.foldl (fun n b => 256 * n + b.toNat) 0

section
variable {ρ ε : Type} (h : Host ρ ε)

def str : Json → Option String
  | .str s => some s
  | v => h.text v

/-! ## The parts of a token -/

def orMalformed {α : Type} : Except LoadError α → Except AdaptationError α
  | .ok a => .ok a
  | .error .value => .error (authenticationError "malformed token" [])
  | .error .recursion => .error (pythonError "RecursionError")

def decoded (part : List Char) : Except LoadError (List UInt8) :=
  match b64urlDecode part with
  | some bytes => .ok bytes
  | none => .error .value

/-- `json.loads(b64url_decode(part))` -/
def load (part : List Char) : Except LoadError Json := do
  let bytes ← decoded part
  h.loads bytes

def signedPart (first second : List Char) : Except AdaptationError (List UInt8) :=
  let text := first ++ '.' :: second
  if text.all Utf8.ascii then .ok (text.map fun c => UInt8.ofNat c.toNat) else .error (pythonError "UnicodeEncodeError")

/-- The last lines of `_segments`. -/
def assembled (first second : List Char) (signature : List UInt8) : Json → Json → Except AdaptationError Token
  | .obj header, .obj claims => (signedPart first second).map fun signed => ⟨header, claims, signed, signature⟩
  | _, _ => .error (authenticationError "malformed token" [])

def segments (token : String) : Except AdaptationError Token :=
  match token.toList.splitOn '.' with
  | [first, second, third] => do
    let header ← orMalformed (load h first)
    let claims ← orMalformed (load h second)
    let signature ← orMalformed (decoded third)
    assembled first second signature header claims
  | _ => .error (authenticationError "malformed token" [])

/-! ## Its signature -/

inductive PublicKey (ρ ε : Type) where
  | rsa (key : ρ)
  | ec (key : ε)

def intOf (jwk : Jwk) (name : String) : Except String Nat :=
  match jwk.lookup name with
  | none => .error "KeyError"
  | some (.str s) =>
    match b64urlDecode s.toList with
    | none => .error "ValueError"
    | some bytes => .ok (fromBytes bytes)
  -- other values have no length, or no text can be added to them
  | some _ => .error "TypeError"

def publicKey (jwk : Jwk) : Except String (PublicKey ρ ε) :=
  match JsonDict.read jwk "kty" with
  | .str "RSA" => do
    let e ← intOf jwk "e"
    let n ← intOf jwk "n"
    let key ← h.rsaPublic e n
    .ok (.rsa key)
  | .str "EC" =>
    match str h (JsonDict.read jwk "crv") with
    | none => .error "RecursionError"
    | some crv =>
      match curves.lookup crv with
      | none => .error "ValueError"
      | some curve => do
        let x ← intOf jwk "x"
        let y ← intOf jwk "y"
        let key ← h.ecPublic curve x y
        .ok (.ec key)
  | _ => .error "ValueError"

def startsWith (alg family : String) : Bool := family.toList.isPrefixOf alg.toList

def verifySignature (alg : String) (key : PublicKey ρ ε) (signed signature : List UInt8) : Except String Unit :=
  match hashes.lookup (String.ofList (alg.toList.drop 2)) with
  | none => .error "KeyError"
  | some digest =>
    if startsWith alg "ES" then
      match key with
      | .rsa _ => .error "InvalidSignature"
      | .ec key =>
        let half := signature.length / 2
        if half = 0 ∨ signature.length % 2 ≠ 0 then .error "InvalidSignature"
        else h.ecVerify key digest (fromBytes (signature.take half)) (fromBytes (signature.drop half)) signed
    else
      match key with
      | .ec _ => .error "InvalidSignature"
      | .rsa key => h.rsaVerify key (if startsWith alg "PS" then .pss else .pkcs1v15) digest signature signed

def check (alg : String) (t : Token) (jwk : Jwk) : Except String Unit := do
  let key ← publicKey h jwk
  verifySignature h alg key t.signed t.signature

/-- The exceptions that send the loop on to the next key. -/
def rejections : List String := ["InvalidSignature", "ValueError", "KeyError", "TypeError"]

def tryKeys (alg : String) (t : Token) : List Jwk → Except AdaptationError Unit
  | [] => .error (authenticationError "token signature is invalid" [])
  | jwk :: rest =>
    match check h alg t jwk with
    | .ok () => .ok ()
    | .error name => if name ∈ rejections then tryKeys alg t rest else .error (pythonError name)

def keyType (alg : String) : String := if startsWith alg "ES" then "EC" else "RSA"

def isText (s : String) : Json → Bool
  | .str s' => s' == s
  | _ => false

def candidate (alg : String) (k : Jwk) : Bool :=
  isText (keyType alg) (JsonDict.read k "kty") && isText "sig" ((k.lookup "use").getD (.str "sig")) &&
    isText alg ((k.lookup "alg").getD (.str alg))

def kidOf (header : JsonDict) : Option String :=
  match header.read "kid" with
  | .str kid => some kid
  | _ => none

def allowed (rules : TokenRules) (header : JsonDict) : Option String :=
  match header.read "alg" with
  | .str alg => if alg ∈ rules.algorithms ∧ alg ∈ supportedAlgorithms then some alg else none
  | _ => none

def refuse {α : Type} (message name : String) (value : Json) : Except AdaptationError α :=
  match str h value with
  | some s => .error (authenticationError message [(name, .str s)])
  | none => .error (pythonError "RecursionError")

def algorithm (rules : TokenRules) (header : JsonDict) : Except AdaptationError String :=
  match allowed rules header with
  | some alg => .ok alg
  | none => refuse h "token algorithm not allowed" "alg" (header.read "alg")

/-- What is known of a token before the keys are asked for. -/
def opened (rules : TokenRules) (token : String) : Except AdaptationError (Token × String) := do
  let t ← segments h token
  let alg ← algorithm h rules t.header
  .ok (t, alg)

def verifiedBy (t : Token) (alg : String) (keys : List Jwk) : Except AdaptationError Token := do
  let candidates := keys.filter (candidate alg)
  if candidates.isEmpty then refuse h "token signed by an unknown key" "kid" (t.header.read "kid")
  else do
    tryKeys h alg t candidates
    .ok t

variable (c : JwksCache) (s : JwksState) (call : KeysCall)

def asked (t : Token) : KeysCall := { call with kid := kidOf t.header }

/-- `verify` up to the signature. -/
def authentic (rules : TokenRules) (token : String) : JwksState × Except AdaptationError Token :=
  match opened h rules token with
  | .error e => (s, .error e)
  | .ok (t, alg) =>
    let answer := c.keys s (asked call t)
    (answer.1, answer.2 >>= verifiedBy h t alg)

/-! ## Its claims -/

def number (claims : JsonDict) (name : String) : Except AdaptationError (Option PyFloat) :=
  match claims.read name with
  | .null => .ok none
  | .int n =>
    if PyInt.floatLimit ≤ n.natAbs then .error (pythonError "OverflowError") else .ok (some (.fin (h.ofInt n)))
  | .float r => .ok (some (h.float r))
  | _ => .error (authenticationError ("token claim " ++ h.quoted name ++ " is not a number") [])

def hasRequired (rules : TokenRules) (claims : JsonDict) : Except AdaptationError Unit :=
  match rules.requiredClaims.find? fun name => (claims.lookup name).isNone with
  | some name => .error (authenticationError ("token has no " ++ h.quoted name ++ " claim") [])
  | none => .ok ()

def audiences : Json → List Json
  | .arr l => l
  | aud => [aud]

def forUs (rules : TokenRules) (claims : JsonDict) : Except AdaptationError Unit :=
  if !isText rules.issuer (claims.read "iss") then .error (authenticationError "token issuer not accepted" [])
  else
    match rules.audience with
    | none => .ok ()
    | some audience =>
      if (audiences (claims.read "aud")).any (isText audience) then .ok ()
      else .error (authenticationError "token audience not accepted" [])

variable (rules : TokenRules) (now : ℚ)

def notExpired (claims : JsonDict) : Except AdaptationError Unit := do
  let exp ← number h claims "exp"
  if exp.any fun exp => (h.add exp rules.leeway).lt (.fin now) then
    .error (authenticationError "token expired" []) else .ok ()

def notAhead (claims : JsonDict) (name : String) : Except AdaptationError Unit := do
  let at_ ← number h claims name
  if at_.any fun at_ => (h.add (.fin now) rules.leeway).lt at_ then
    .error (authenticationError ("token " ++ h.quoted name ++ " is in the future") [])
  else .ok ()

def checkDates (claims : JsonDict) : Except AdaptationError Unit := do
  notExpired h rules now claims
  notAhead h rules now claims "nbf"
  notAhead h rules now claims "iat"

def checkClaims (claims : JsonDict) : Except AdaptationError Unit := do
  hasRequired h rules claims
  forUs rules claims
  checkDates h rules now claims

def verify (token : String) : JwksState × Except AdaptationError JsonDict :=
  let result := authentic h c s call rules token
  (result.1, do
    let t ← result.2
    checkClaims h rules now t.claims
    .ok t.claims)

end

end OranAdapt.Jwt
