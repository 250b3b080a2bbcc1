import OranAdapt.Jwt

/-!
# What an accepted token satisfies

A token that is accepted keeps every rule, and one that is not raises the error
of its own, where nothing that the code leaves open comes up: dates that no
comparison orders, and errors that are not caught on the way.
-/

namespace OranAdapt.Jwt

/-- The result has the property, or the error is the one of a token. -/
def Keeps {α : Type} (P : α → Prop) : Except AdaptationError α → Prop
  | .ok a => P a
  | .error e => e.cls = unauthenticated

/-- Nothing else is raised. -/
def Settles {α : Type} (x : Except AdaptationError α) : Prop := Keeps (fun _ => True) x

section
variable {ρ ε : Type} (h : Host ρ ε) (c : JwksCache) (s : JwksState) (call : KeysCall) (rules : TokenRules) (now : ℚ)

/-! ## The rules -/

/-- The key is of the right type, is the one that the token asks for, and verifies the signature. -/
structure Vouches (alg : String) (header : JsonDict) (signed signature : List UInt8) (jwk : Jwk) : Prop where
  kid : ∀ kid, header.read "kid" = .str kid → jwk.named kid = true
  kty : JsonDict.read jwk "kty" = .str (keyType alg)
  use : ∀ v, jwk.lookup "use" = some v → v = .str "sig"
  sameAlg : ∀ v, jwk.lookup "alg" = some v → v = .str alg
  verifies : ∃ key, publicKey h jwk = .ok key ∧ verifySignature h alg key signed signature = .ok ()

def date? (claims : JsonDict) (name : String) : Option PyFloat :=
  match claims.read name with
  | .int n => some (.fin (h.ofInt n))
  | .float r => some (h.float r)
  | _ => none

structure Lawful (keys : List Jwk) (token : String) (claims : JsonDict) : Prop where
  signature : ∃ (first second third : List Char) (header : JsonDict) (signature : List UInt8) (alg : String),
    token.toList.splitOn '.' = [first, second, third] ∧ load h first = .ok (.obj header) ∧
      load h second = .ok (.obj claims) ∧ b64urlDecode third = some signature ∧
      header.read "alg" = .str alg ∧ alg ∈ rules.algorithms ∧ alg ∈ supportedAlgorithms ∧
      ∃ jwk ∈ keys, Vouches h alg header ((first ++ '.' :: second).map fun c => UInt8.ofNat c.toNat) signature jwk
  iss : claims.read "iss" = .str rules.issuer
  aud : ∀ audience, rules.audience = some audience → .str audience ∈ audiences (claims.read "aud")
  exp : ∃ q, date? h claims "exp" = some (.fin q) ∧ (PyFloat.fin now).le (h.add (.fin q) rules.leeway) = true
  ahead : ∀ name ∈ ["nbf", "iat"], (claims.lookup name).isSome = true →
    ∃ d, date? h claims name = some d ∧ d.le (h.add (.fin now) rules.leeway) = true

/-- The claims that are returned keep every rule, and no other error is raised. -/
def Verified (token : String) : Prop :=
  Keeps (Lawful h rules now (verify h c s call rules now token).1.keys token) (verify h c s call rules now token).2

/-! ## What the code leaves open -/

/-- The parser gets through the two parts of the token that are JSON. -/
def Shallow (token : String) : Prop :=
  ∀ first second third, token.toList.splitOn '.' = [first, second, third] →
    load h first ≠ .error .recursion ∧ ∀ v, load h first = .ok v → load h second ≠ .error .recursion

def Listed (r : FetchEnd) : Prop := ∃ keys, r.answer = .ok keys ∧ (dictsOf keys).isSome = true

/-- The issuer does, or the request fails in a way that is caught. -/
def Handled (r : FetchEnd) : Prop :=
  Listed r ∨ ∃ e, r.answer = .error e ∧ (e.cls.isFetchError = true ∨ e.cls = unauthenticated)

/-- The cache once it is neither empty nor stale. -/
def refreshed : JwksState :=
  if c.stale s call.time then (c.fetch { s with now := call.time } .stale call.first).1 else { s with now := call.time }

/-- The requests that are sent are handled. -/
structure Served : Prop where
  first : c.stale s call.time = true → Handled call.first
  second : (c.stale s call.time = true → Listed call.first) → c.refetch (refreshed c s call) call.kid call.time = true →
    Handled call.second

def passes (alg : String) (t : Token) (jwk : Jwk) : Bool := (check h alg t jwk).toOption.isSome

/-- The keys that are tried before one verifies are refused with an error that is caught. -/
def Judged (alg : String) (t : Token) (candidates : List Jwk) : Prop :=
  ∀ jwk ∈ candidates.takeWhile fun k => !passes h alg t k, ∀ name, check h alg t jwk = .error name →
    name ∈ rejections

/-- A float holds the number, if it is an integer. -/
def Fits (v : Json) : Prop := ∀ n, v = .int n → n.natAbs < PyInt.floatLimit

/-- The dates are numbers that can be compared, and the token ends. -/
structure Comparable (claims : JsonDict) : Prop where
  leeway : rules.leeway ≠ .nan
  exp : ∃ q, date? h claims "exp" = some (.fin q)
  ahead : ∀ name ∈ ["nbf", "iat"], (claims.lookup name).isSome = true →
    ∃ d, date? h claims name = some d ∧ d ≠ .nan

/-- The dates that are read fit a float, and if none of them refuses the token they can be compared. -/
structure Dated (claims : JsonDict) : Prop where
  exp : Fits (claims.read "exp")
  nbf : notExpired h rules now claims = .ok () → Fits (claims.read "nbf")
  iat : notExpired h rules now claims = .ok () → notAhead h rules now claims "nbf" = .ok () → Fits (claims.read "iat")
  comparable : checkDates h rules now claims = .ok () → Comparable h rules claims

/-- Nothing that the code leaves open comes up. -/
structure Ordinary (token : String) : Prop where
  shallow : Shallow h token
  alg : ∀ t, segments h token = .ok t → allowed rules t.header = none → (str h (t.header.read "alg")).isSome = true
  served : ∀ t alg, opened h rules token = .ok (t, alg) → Served c s (asked call t)
  kid : ∀ t alg keys, opened h rules token = .ok (t, alg) → (c.keys s (asked call t)).2 = .ok keys →
    keys.filter (candidate alg) = [] → (str h (t.header.read "kid")).isSome = true
  judged : ∀ t alg keys, opened h rules token = .ok (t, alg) → (c.keys s (asked call t)).2 = .ok keys →
    Judged h alg t (keys.filter (candidate alg))
  dates : ∀ t, (authentic h c s call rules token).2 = .ok t → hasRequired h rules t.claims = .ok () →
    forUs rules t.claims = .ok () → Dated h rules now t.claims

end

/-! ## Results that settle -/

section
variable {α β : Type} {P : α → Prop} {x : Except AdaptationError α} {f : α → Except AdaptationError β}

@[simp] theorem keeps_ok {a : α} : Keeps P (.ok a) ↔ P a := Iff.rfl

@[simp] theorem keeps_error {e : AdaptationError} :
    Keeps P (.error e : Except AdaptationError α) ↔ e.cls = unauthenticated :=
  Iff.rfl

@[simp] theorem settles_ok {a : α} : Settles (.ok a) := True.intro

@[simp] theorem settles_authenticationError {message : String} {context : Context} :
    Settles (.error (authenticationError message context) : Except AdaptationError α) := rfl

@[simp] theorem settles_python {name : String} : ¬Settles (.error (pythonError name) : Except AdaptationError α) := by
  intro hsettles
  cases hsettles

theorem keeps_iff : Keeps P x ↔ Settles x ∧ ∀ a, x = .ok a → P a := by
  cases x with
  | error e => exact ⟨fun he => ⟨he, fun a ha => by cases ha⟩, And.left⟩
  | ok a =>
    refine ⟨fun ha => ⟨True.intro, fun b hb => ?_⟩, fun hx => hx.2 a rfl⟩
    cases hb
    exact ha

theorem settles_bind : Settles (x >>= f) ↔ Settles x ∧ ∀ a, x = .ok a → Settles (f a) := by
  rw [← keeps_iff]
  cases x <;> rfl

theorem settles_then {x : Except AdaptationError Unit} {f : Unit → Except AdaptationError β} :
    Settles (x >>= f) ↔ Settles x ∧ (x = .ok () → Settles (f ())) := by
  rw [settles_bind]
  exact and_congr_right fun _ => ⟨fun hall => hall (), fun hunit _ => hunit⟩

end

section
variable {ρ ε : Type} {h : Host ρ ε} {c : JwksCache} {s : JwksState} {call : KeysCall} {rules : TokenRules} {now : ℚ}
  {token : String} {t : Token} {alg : String} {keys : List Jwk} {claims : JsonDict}

/-! ## The parts of a token -/

theorem settles_orMalformed {α : Type} {x : Except LoadError α} : Settles (orMalformed x) ↔ x ≠ .error .recursion := by
  cases x with
  | ok a => simp [orMalformed]
  | error e => cases e <;> simp [orMalformed]

theorem orMalformed_ok {α : Type} {x : Except LoadError α} {a : α} : orMalformed x = .ok a ↔ x = .ok a := by
  cases x with
  | ok b => simp [orMalformed]
  | error e => cases e <;> simp [orMalformed]

theorem decoded_ok {part : List Char} {bytes : List UInt8} : decoded part = .ok bytes ↔ b64urlDecode part = some bytes := by
  unfold decoded
  split <;> simp_all

theorem decoded_ne (part : List Char) : decoded part ≠ .error .recursion := by
  unfold decoded
  split <;> simp

theorem ascii_of_b64urlDecode {part : List Char} {bytes : List UInt8} (hdecode : b64urlDecode part = some bytes) :
    ∀ c ∈ part, Utf8.ascii c = true := fun _ hc =>
  List.all_eq_true.mp (Base64.ascii_of_urlsafeDecode hdecode) _ (List.mem_append_left _ hc)

theorem ascii_of_load {part : List Char} {v : Json} (hload : load h part = .ok v) : ∀ c ∈ part, Utf8.ascii c = true := by
  obtain ⟨bytes, hbytes, -⟩ := bind_ok hload
  exact ascii_of_b64urlDecode (decoded_ok.mp hbytes)

theorem signedPart_of_load {first second : List Char} {v w : Json} (hfirst : load h first = .ok v)
    (hsecond : load h second = .ok w) :
    signedPart first second = .ok ((first ++ '.' :: second).map fun c => UInt8.ofNat c.toNat) := by
  have hascii : (first ++ '.' :: second).all Utf8.ascii = true := by
    rw [List.all_append, List.all_cons, List.all_eq_true.mpr (ascii_of_load hfirst),
      List.all_eq_true.mpr (ascii_of_load hsecond)]
    rfl
  unfold signedPart
  rw [if_pos hascii]

theorem assembled_ok {first second : List Char} {signature : List UInt8} {v w : Json} (hfirst : load h first = .ok v)
    (hsecond : load h second = .ok w) (ht : assembled first second signature v w = .ok t) :
    v = .obj t.header ∧ w = .obj t.claims ∧ t.signature = signature ∧
      t.signed = (first ++ '.' :: second).map fun c => UInt8.ofNat c.toNat := by
  unfold assembled at ht
  split at ht
  · rw [signedPart_of_load hfirst hsecond] at ht
    cases ht
    exact ⟨rfl, rfl, rfl, rfl⟩
  · cases ht

theorem settles_assembled {first second : List Char} {signature : List UInt8} {v w : Json} (hfirst : load h first = .ok v)
    (hsecond : load h second = .ok w) : Settles (assembled first second signature v w) := by
  unfold assembled
  split
  · rw [signedPart_of_load hfirst hsecond]
    exact settles_ok
  · exact settles_authenticationError

theorem segments_ok (hseg : segments h token = .ok t) : ∃ first second third,
    token.toList.splitOn '.' = [first, second, third] ∧ load h first = .ok (.obj t.header) ∧
      load h second = .ok (.obj t.claims) ∧ b64urlDecode third = some t.signature ∧
      t.signed = (first ++ '.' :: second).map fun c => UInt8.ofNat c.toNat := by
  unfold segments at hseg
  split at hseg
  · rename_i first second third hparts
    obtain ⟨header, hheader, hseg⟩ := bind_ok hseg
    obtain ⟨claims, hclaims, hseg⟩ := bind_ok hseg
    obtain ⟨signature, hsig, hseg⟩ := bind_ok hseg
    rw [orMalformed_ok] at hheader hclaims hsig
    obtain ⟨rfl, rfl, rfl, hsigned⟩ := assembled_ok hheader hclaims hseg
    exact ⟨first, second, third, hparts, hheader, hclaims, decoded_ok.mp hsig, hsigned⟩
  · cases hseg

theorem settles_segments : Settles (segments h token) ↔ Shallow h token := by
  unfold segments Shallow
  generalize token.toList.splitOn '.' = parts
  split
  · rename_i first second third
    simp only [settles_bind, settles_orMalformed, orMalformed_ok]
    constructor
    · rintro ⟨hfirst, hsecond⟩ first' second' third' hparts
      cases hparts
      exact ⟨hfirst, fun v hv => (hsecond v hv).1⟩
    · intro hshallow
      obtain ⟨hfirst, hsecond⟩ := hshallow first second third rfl
      exact ⟨hfirst, fun v hv => ⟨hsecond v hv,
        fun w hw => ⟨decoded_ne third, fun _ _ => settles_assembled hv hw⟩⟩⟩
  · rename_i hnot
    exact ⟨fun _ first second third hparts => absurd hparts (hnot first second third),
      fun _ => settles_authenticationError⟩

/-! ## Its algorithm -/

theorem settles_refuse {α : Type} {message name : String} {value : Json} :
    Settles (refuse h message name value : Except AdaptationError α) ↔ (str h value).isSome = true := by
  unfold refuse
  split <;> simp_all

theorem refuse_ne {α : Type} {message name : String} {value : Json} {a : α} : refuse h message name value ≠ .ok a := by
  unfold refuse
  split <;> simp

theorem settles_algorithm {header : JsonDict} : Settles (algorithm h rules header) ↔
    (allowed rules header = none → (str h (header.read "alg")).isSome = true) := by
  unfold algorithm
  split
  · simp_all
  · simp_all [settles_refuse]

theorem algorithm_ok {header : JsonDict} (halg : algorithm h rules header = .ok alg) :
    header.read "alg" = .str alg ∧ alg ∈ rules.algorithms ∧ alg ∈ supportedAlgorithms := by
  unfold algorithm allowed at halg
  split at halg
  · rename_i alg' hallowed
    cases halg
    split at hallowed
    · rename_i alg' hread
      split at hallowed
      · rename_i hlists
        cases hallowed
        exact ⟨hread, hlists⟩
      · cases hallowed
    · cases hallowed
  · exact absurd halg refuse_ne

theorem opened_ok (hopened : opened h rules token = .ok (t, alg)) :
    segments h token = .ok t ∧ t.header.read "alg" = .str alg ∧ alg ∈ rules.algorithms ∧
      alg ∈ supportedAlgorithms := by
  obtain ⟨t', hseg, hopened⟩ := bind_ok hopened
  obtain ⟨alg', halg, hopened⟩ := bind_ok hopened
  cases hopened
  exact ⟨hseg, algorithm_ok halg⟩

theorem settles_opened : Settles (opened h rules token) ↔ Shallow h token ∧
    ∀ t, segments h token = .ok t → allowed rules t.header = none → (str h (t.header.read "alg")).isSome = true := by
  unfold opened
  simp only [settles_bind, settles_segments, settles_algorithm, settles_ok, implies_true, and_true]

/-! ## The keys of the issuer -/

theorem settles_fetch (cause : FetchCause) {r : FetchEnd} : Settles (c.fetch s cause r).2 ↔ Handled r := by
  unfold JwksCache.fetch Handled Listed
  cases r.answer with
  | error e =>
    by_cases hcaught : e.cls.isFetchError = true
    · simp [Settles, JwksCache.fetchError, hcaught, authenticationError, unauthenticated]
    · simp [Settles, JwksCache.fetchError, hcaught]
  | ok keys => cases hkeys : dictsOf keys <;> simp [hkeys]

theorem fetch_ok {cause : FetchCause} {r : FetchEnd} (hok : (c.fetch s cause r).2 = .ok ()) : Listed r := by
  unfold JwksCache.fetch at hok
  unfold Listed
  cases hanswer : r.answer with
  | error e =>
    rw [hanswer] at hok
    cases hok
  | ok keys =>
    rw [hanswer] at hok
    cases hkeys : dictsOf keys with
    | none =>
      simp only [hkeys] at hok
      cases hok
    | some l => exact ⟨keys, rfl, by rw [hkeys]; rfl⟩

theorem fetch_listed {cause : FetchCause} {r : FetchEnd} (hlisted : Listed r) : (c.fetch s cause r).2 = .ok () := by
  obtain ⟨keys, hanswer, hkeys⟩ := hlisted
  obtain ⟨l, hl⟩ := Option.isSome_iff_exists.mp hkeys
  simp [JwksCache.fetch, hanswer, hl]

/-- A call looks the key up in the refreshed cache, unless the cache could not be refreshed. -/
theorem keys_eq : c.keys s call =
    if c.stale s call.time = true ∧ (c.fetch { s with now := call.time } .stale call.first).2 ≠ .ok () then
      (refreshed c s call, (c.fetch { s with now := call.time } .stale call.first).2.map fun _ => [])
    else c.lookUp (refreshed c s call) call := by
  unfold JwksCache.keys refreshed
  have hstale : c.stale { s with now := call.time } call.time = c.stale s call.time := rfl
  by_cases h : c.stale s call.time = true
  · simp only [hstale, h, if_true, true_and]
    rcases hfetch : c.fetch { s with now := call.time } .stale call.first with ⟨s', _ | _⟩
    · simp [Except.map]
    · simp
  · simp [hstale, h]

theorem lookUp_found {s' : JwksState} (hlook : c.lookUp s call = (s', .ok keys)) : keys = JwksCache.found s' call.kid := by
  unfold JwksCache.lookUp at hlook
  split at hlook
  · rcases hfetch : c.fetch s .unknownKid call.second with ⟨s'', _ | _⟩
    · rw [hfetch] at hlook
      cases hlook
    · rw [hfetch] at hlook
      cases hlook
      rfl
  · cases hlook
    rfl

theorem settles_lookUp : Settles (c.lookUp s call).2 ↔ (c.refetch s call.kid call.time = true → Handled call.second) := by
  rw [← settles_fetch (c := c) (s := s) .unknownKid]
  unfold JwksCache.lookUp
  split
  · rename_i hrefetch
    rcases hfetch : c.fetch s .unknownKid call.second with ⟨s', _ | _⟩
    · simp [hrefetch, Settles]
    · simp [Settles]
  · simp_all

theorem keys_found (hkeys : (c.keys s call).2 = .ok keys) : keys = JwksCache.found (c.keys s call).1 call.kid := by
  rw [keys_eq] at hkeys ⊢
  split at hkeys
  · rename_i hfailed
    cases hfetch : (c.fetch { s with now := call.time } .stale call.first).2 with
    | error e =>
      rw [hfetch] at hkeys
      cases hkeys
    | ok u => exact absurd hfetch hfailed.2
  · rename_i hnot
    rw [if_neg hnot]
    exact lookUp_found (Prod.ext rfl hkeys)

theorem settles_keys : Settles (c.keys s call).2 ↔ Served c s call := by
  rw [keys_eq]
  by_cases hstale : c.stale s call.time = true
  · cases hfetch : (c.fetch { s with now := call.time } .stale call.first).2 with
    | error e =>
      have hnot : ¬Listed call.first := by
        intro hlisted
        rw [fetch_listed hlisted] at hfetch
        cases hfetch
      have hhandled : Settles (.error e : Except AdaptationError Unit) ↔ Handled call.first := by
        rw [← hfetch]
        exact settles_fetch .stale
      simp only [hstale, ne_eq, reduceCtorEq, not_false_eq_true, and_self, if_true]
      refine ⟨fun he => ⟨fun _ => hhandled.mp he, fun hlisted => absurd (hlisted hstale) hnot⟩, fun hserved => ?_⟩
      exact hhandled.mpr (hserved.first hstale)
    | ok u =>
      have hlisted : Listed call.first := fetch_ok hfetch
      simp only [ne_eq, not_true_eq_false, and_false, if_false, settles_lookUp]
      exact ⟨fun hsecond => ⟨fun _ => .inl hlisted, fun _ => hsecond⟩, fun hserved => hserved.second fun _ => hlisted⟩
  · rw [if_neg fun hboth => hstale hboth.1, settles_lookUp]
    exact ⟨fun hsecond => ⟨fun hstale' => absurd hstale' hstale, fun _ => hsecond⟩,
      fun hserved => hserved.second fun hstale' => absurd hstale' hstale⟩

theorem mem_found {kid : Option String} {jwk : Jwk} (hmem : jwk ∈ JwksCache.found s kid) :
    jwk ∈ s.keys ∧ ∀ k ∈ kid, jwk.named k = true := by
  cases kid with
  | none => exact ⟨hmem, fun k hk => by cases hk⟩
  | some kid =>
    obtain ⟨hmem, hnamed⟩ := List.mem_filter.mp hmem
    refine ⟨hmem, fun k hk => ?_⟩
    rw [← Option.mem_some.mp hk]
    exact hnamed

/-! ## The signature -/

theorem isText_iff {text : String} {v : Json} : isText text v = true ↔ v = .str text := by
  cases v <;> simp [isText]

theorem getD_text {jwk : Jwk} {name text : String} (hget : isText text ((jwk.lookup name).getD (.str text)) = true) :
    ∀ v, jwk.lookup name = some v → v = .str text := by
  intro v hv
  rw [hv] at hget
  exact isText_iff.mp hget

theorem check_ok {jwk : Jwk} (hcheck : check h alg t jwk = .ok ()) :
    ∃ key, publicKey h jwk = .ok key ∧ verifySignature h alg key t.signed t.signature = .ok () := by
  cases hkey : publicKey h jwk with
  | error name =>
    simp only [check, hkey, bind, Except.bind] at hcheck
    cases hcheck
  | ok key =>
    simp only [check, hkey, bind, Except.bind] at hcheck
    exact ⟨key, rfl, hcheck⟩

theorem vouches_of_candidate {jwk : Jwk} (hcandidate : candidate alg jwk = true)
    (hkid : ∀ kid ∈ kidOf t.header, jwk.named kid = true) (hcheck : check h alg t jwk = .ok ()) :
    Vouches h alg t.header t.signed t.signature jwk := by
  simp only [candidate, Bool.and_eq_true] at hcandidate
  obtain ⟨⟨hkty, huse⟩, halg⟩ := hcandidate
  refine ⟨fun kid hread => hkid kid ?_, isText_iff.mp hkty, getD_text huse, getD_text halg, check_ok hcheck⟩
  simp [kidOf, hread]

theorem tryKeys_ok {candidates : List Jwk} (hok : tryKeys h alg t candidates = .ok ()) :
    ∃ jwk ∈ candidates, check h alg t jwk = .ok () := by
  induction candidates with
  | nil => cases hok
  | cons jwk rest ih =>
    rw [tryKeys] at hok
    split at hok
    · rename_i hcheck
      exact ⟨jwk, List.mem_cons_self, hcheck⟩
    · split at hok
      · obtain ⟨jwk', hmem, hcheck⟩ := ih hok
        exact ⟨jwk', List.mem_cons_of_mem _ hmem, hcheck⟩
      · cases hok

theorem settles_tryKeys {candidates : List Jwk} : Settles (tryKeys h alg t candidates) ↔ Judged h alg t candidates := by
  induction candidates with
  | nil =>
    refine ⟨fun _ jwk hmem => ?_, fun _ => settles_authenticationError⟩
    cases hmem
  | cons jwk rest ih =>
    unfold Judged at ih ⊢
    cases hcheck : check h alg t jwk with
    | ok u => simp [tryKeys, hcheck, passes, Except.toOption]
    | error name =>
      have hfails : (!passes h alg t jwk) = true := by
        rw [passes, hcheck]
        rfl
      rw [tryKeys, hcheck, List.takeWhile_cons_of_pos (p := fun k => !passes h alg t k) hfails, List.forall_mem_cons, ← ih]
      by_cases hname : name ∈ rejections
      · simp [hname, hcheck]
      · simp [hname, hcheck]

theorem settles_verifiedBy : Settles (verifiedBy h t alg keys) ↔
    (keys.filter (candidate alg) = [] → (str h (t.header.read "kid")).isSome = true) ∧
      Judged h alg t (keys.filter (candidate alg)) := by
  unfold verifiedBy
  simp only
  cases hcandidates : keys.filter (candidate alg) with
  | nil => simp [settles_refuse, Judged]
  | cons jwk rest => simp [settles_bind, settles_tryKeys]

theorem verifiedBy_ok {t' : Token} (hok : verifiedBy h t alg keys = .ok t') :
    t' = t ∧ ∃ jwk ∈ keys, candidate alg jwk = true ∧ check h alg t jwk = .ok () := by
  unfold verifiedBy at hok
  simp only at hok
  split at hok
  · exact absurd hok refuse_ne
  · obtain ⟨u, htry, hok⟩ := bind_ok hok
    cases hok
    obtain ⟨jwk, hmem, hcheck⟩ := tryKeys_ok htry
    obtain ⟨hmem, hcandidate⟩ := List.mem_filter.mp hmem
    exact ⟨rfl, jwk, hmem, hcandidate, hcheck⟩

theorem authentic_ok (hok : (authentic h c s call rules token).2 = .ok t) :
    ∃ alg, opened h rules token = .ok (t, alg) ∧
      ∃ jwk ∈ (authentic h c s call rules token).1.keys, Vouches h alg t.header t.signed t.signature jwk := by
  unfold authentic at hok ⊢
  cases hopened : opened h rules token with
  | error e =>
    rw [hopened] at hok
    cases hok
  | ok result =>
    obtain ⟨t', alg⟩ := result
    rw [hopened] at hok
    obtain ⟨keys, hkeys, hverified⟩ := bind_ok hok
    obtain ⟨rfl, jwk, hmem, hcandidate, hcheck⟩ := verifiedBy_ok hverified
    rw [keys_found hkeys] at hmem
    obtain ⟨hmem, hkid⟩ := mem_found hmem
    exact ⟨alg, rfl, jwk, hmem, vouches_of_candidate hcandidate hkid hcheck⟩

theorem settles_authentic : Settles (authentic h c s call rules token).2 ↔
    Settles (opened h rules token) ∧ ∀ t alg, opened h rules token = .ok (t, alg) →
      Served c s (asked call t) ∧ ∀ keys, (c.keys s (asked call t)).2 = .ok keys →
        (keys.filter (candidate alg) = [] → (str h (t.header.read "kid")).isSome = true) ∧
          Judged h alg t (keys.filter (candidate alg)) := by
  unfold authentic
  cases hopened : opened h rules token with
  | error e =>
    refine ⟨fun hsettles => ⟨hsettles, fun t alg ht => ?_⟩, And.left⟩
    cases ht
  | ok result =>
    obtain ⟨t, alg⟩ := result
    simp only [settles_bind, settles_keys, settles_verifiedBy, settles_ok, true_and]
    constructor
    · intro hsettles t' alg' ht
      cases ht
      exact hsettles
    · intro hall
      exact hall t alg rfl

/-! ## The claims -/

theorem settles_hasRequired : Settles (hasRequired h rules claims) := by
  unfold hasRequired
  split
  · exact settles_authenticationError
  · exact settles_ok

theorem settles_forUs : Settles (forUs rules claims) := by
  unfold forUs
  split
  · exact settles_authenticationError
  · split
    · exact settles_ok
    · split
      · exact settles_ok
      · exact settles_authenticationError

theorem forUs_ok (hok : forUs rules claims = .ok ()) : claims.read "iss" = .str rules.issuer ∧
    ∀ audience, rules.audience = some audience → .str audience ∈ audiences (claims.read "aud") := by
  unfold forUs at hok
  split at hok
  · cases hok
  · rename_i hiss
    refine ⟨isText_iff.mp (by simpa using hiss), fun audience haudience => ?_⟩
    rw [haudience] at hok
    simp only at hok
    split at hok
    · rename_i hany
      obtain ⟨v, hmem, htext⟩ := List.any_eq_true.mp hany
      rw [← isText_iff.mp htext]
      exact hmem
    · cases hok

theorem settles_number {name : String} : Settles (number h claims name) ↔ Fits (claims.read name) := by
  unfold number Fits
  split
  · simp_all
  · rename_i n hread
    split
    · rename_i hbig
      simp [hread, hbig]
    · rename_i hsmall
      simp only [settles_ok, hread, true_iff]
      intro m hm
      cases hm
      exact Nat.lt_of_not_le hsmall
  · simp_all
  · simp_all

theorem number_ok {name : String} {d : Option PyFloat} (hok : number h claims name = .ok d) :
    d = date? h claims name ∧ (d = none → claims.read name = .null) := by
  unfold number at hok
  unfold date?
  split at hok
  · rename_i hread
    cases hok
    simp [hread]
  · rename_i n hread
    split at hok
    · cases hok
    · cases hok
      simp [hread]
  · rename_i r hread
    cases hok
    simp [hread]
  · cases hok

theorem settles_unless {refused : Prop} [Decidable refused] {message : String} :
    Settles (if refused then .error (authenticationError message []) else .ok () : Except AdaptationError Unit) := by
  split
  · exact settles_authenticationError
  · exact settles_ok

theorem settles_notExpired : Settles (notExpired h rules now claims) ↔ Fits (claims.read "exp") := by
  unfold notExpired
  simp only [settles_bind, settles_number, settles_unless, implies_true, and_true]

theorem settles_notAhead {name : String} : Settles (notAhead h rules now claims name) ↔ Fits (claims.read name) := by
  unfold notAhead
  simp only [settles_bind, settles_number, settles_unless, implies_true, and_true]

theorem settles_checkDates : Settles (checkDates h rules now claims) ↔
    Fits (claims.read "exp") ∧ (notExpired h rules now claims = .ok () → Fits (claims.read "nbf") ∧
      (notAhead h rules now claims "nbf" = .ok () → Fits (claims.read "iat"))) := by
  unfold checkDates
  simp only [settles_then, settles_notExpired, settles_notAhead]

theorem checkDates_ok (hok : checkDates h rules now claims = .ok ()) :
    notExpired h rules now claims = .ok () ∧ ∀ name ∈ ["nbf", "iat"], notAhead h rules now claims name = .ok () := by
  obtain ⟨_, hexp, hok⟩ := bind_ok hok
  obtain ⟨_, hnbf, hiat⟩ := bind_ok hok
  refine ⟨hexp, ?_⟩
  rw [List.forall_mem_cons, List.forall_mem_singleton]
  exact ⟨hnbf, hiat⟩

theorem le_of_not_lt {a b : PyFloat} (ha : a ≠ .nan) (hb : b ≠ .nan) (hlt : b.lt a = false) : a.le b = true := by
  cases a <;> cases b <;> simp_all [PyFloat.le, PyFloat.lt, le_iff_lt_or_eq]

/-- An end that is a number lies ahead. -/
theorem exp_of_notExpired (hok : notExpired h rules now claims = .ok ()) {q : ℚ}
    (hexp : date? h claims "exp" = some (.fin q))
    (hleeway : rules.leeway ≠ .nan) : (PyFloat.fin now).le (h.add (.fin q) rules.leeway) = true := by
  obtain ⟨d, hd, hok⟩ := bind_ok hok
  rw [(number_ok hd).1, hexp] at hok
  split at hok
  · cases hok
  · rename_i hlate
    exact le_of_not_lt (by simp) (h.add_fin q _ hleeway) (by simpa using hlate)

theorem ahead_of_notAhead {name : String} (hok : notAhead h rules now claims name = .ok ()) {d : PyFloat}
    (hdate : date? h claims name = some d) (hd : d ≠ .nan) (hleeway : rules.leeway ≠ .nan) :
    d.le (h.add (.fin now) rules.leeway) = true := by
  obtain ⟨d', hd', hok⟩ := bind_ok hok
  rw [(number_ok hd').1, hdate] at hok
  split at hok
  · cases hok
  · rename_i hlate
    exact le_of_not_lt hd (h.add_fin now _ hleeway) (by simpa using hlate)

theorem ne_nan_of_le {a b : PyFloat} (hle : a.le b = true) : a ≠ .nan ∧ b ≠ .nan := by
  constructor
  · rintro rfl
    cases hle
  · rintro rfl
    cases a <;> cases hle

/-- Of the dates that refuse nothing, those that can be compared are those that keep the rules. -/
theorem comparable_iff (hok : checkDates h rules now claims = .ok ()) : Comparable h rules claims ↔
    (∃ q, date? h claims "exp" = some (.fin q) ∧ (PyFloat.fin now).le (h.add (.fin q) rules.leeway) = true) ∧
      ∀ name ∈ ["nbf", "iat"], (claims.lookup name).isSome = true →
        ∃ d, date? h claims name = some d ∧ d.le (h.add (.fin now) rules.leeway) = true := by
  obtain ⟨hexpired, hahead⟩ := checkDates_ok hok
  constructor
  · intro hcomp
    obtain ⟨q, hq⟩ := hcomp.exp
    refine ⟨⟨q, hq, exp_of_notExpired hexpired hq hcomp.leeway⟩, fun name hname hpresent => ?_⟩
    obtain ⟨d, hdate, hd⟩ := hcomp.ahead name hname hpresent
    exact ⟨d, hdate, ahead_of_notAhead (hahead name hname) hdate hd hcomp.leeway⟩
  · rintro ⟨⟨q, hq, hle⟩, hdates⟩
    refine ⟨fun hnan => ?_, ⟨q, hq⟩, fun name hname hpresent => ?_⟩
    · rw [hnan, h.add_nan] at hle
      exact (ne_nan_of_le hle).2 rfl
    · obtain ⟨d, hdate, hle⟩ := hdates name hname hpresent
      exact ⟨d, hdate, (ne_nan_of_le hle).1⟩

theorem settles_checkClaims : Settles (checkClaims h rules now claims) ↔
    (hasRequired h rules claims = .ok () → forUs rules claims = .ok () → Settles (checkDates h rules now claims)) := by
  unfold checkClaims
  simp only [settles_then, settles_hasRequired, settles_forUs, true_and]

theorem checkClaims_ok (hok : checkClaims h rules now claims = .ok ()) :
    hasRequired h rules claims = .ok () ∧ forUs rules claims = .ok () ∧ checkDates h rules now claims = .ok () := by
  obtain ⟨_, hrequired, hok⟩ := bind_ok hok
  obtain ⟨_, hus, hok⟩ := bind_ok hok
  exact ⟨hrequired, hus, hok⟩

/-! ## Verification -/

theorem verify_ok (hok : (verify h c s call rules now token).2 = .ok claims) :
    ∃ t, (authentic h c s call rules token).2 = .ok t ∧ t.claims = claims ∧
      checkClaims h rules now claims = .ok () := by
  obtain ⟨t, hauth, hok⟩ := bind_ok hok
  obtain ⟨_, hclaims, hok⟩ := bind_ok hok
  cases hok
  exact ⟨t, hauth, rfl, hclaims⟩

theorem verify_of_ok (hauth : (authentic h c s call rules token).2 = .ok t)
    (hclaims : checkClaims h rules now t.claims = .ok ()) : (verify h c s call rules now token).2 = .ok t.claims := by
  simp only [verify, hauth, hclaims, bind, Except.bind]

theorem settles_verify : Settles (verify h c s call rules now token).2 ↔
    Settles (authentic h c s call rules token).2 ∧
      ∀ t, (authentic h c s call rules token).2 = .ok t → Settles (checkClaims h rules now t.claims) := by
  unfold verify
  simp only [settles_bind, settles_ok, implies_true, and_true]

theorem Verified.lawful (hverified : Verified h c s call rules now token)
    (hok : (verify h c s call rules now token).2 = .ok claims) :
    Lawful h rules now (verify h c s call rules now token).1.keys token claims :=
  (keeps_iff.mp hverified).2 claims hok

theorem not_verified_of_no_date (haccepted : ((verify h c s call rules now token).2.toOption.any
    fun claims => (date? h claims "exp").isNone) = true) : ¬Verified h c s call rules now token := by
  intro hverified
  obtain ⟨claims, hresult, hnone⟩ := (Option.any_eq_true _ _).mp haccepted
  obtain ⟨q, hq, -⟩ := (hverified.lawful (ok_of_toOption hresult)).exp
  rw [hq] at hnone
  cases hnone

/-- Whatever is accepted keeps the rules, apart from its dates. -/
theorem lawful_iff (hauth : (authentic h c s call rules token).2 = .ok t)
    (hclaims : checkClaims h rules now t.claims = .ok ()) :
    Lawful h rules now (authentic h c s call rules token).1.keys token t.claims ↔ Comparable h rules t.claims := by
  obtain ⟨-, hus, hdates⟩ := checkClaims_ok hclaims
  rw [comparable_iff hdates]
  refine ⟨fun hlawful => ⟨hlawful.exp, hlawful.ahead⟩, fun hdated => ?_⟩
  obtain ⟨alg, hopened, jwk, hmem, hvouches⟩ := authentic_ok hauth
  obtain ⟨hseg, halg, hconfigured, hsupported⟩ := opened_ok hopened
  obtain ⟨first, second, third, hparts, hheader, hsecond, hthird, hsigned⟩ := segments_ok hseg
  rw [hsigned] at hvouches
  obtain ⟨hiss, haud⟩ := forUs_ok hus
  exact ⟨⟨first, second, third, t.header, t.signature, alg, hparts, hheader, hsecond, hthird,
    halg, hconfigured, hsupported,
    jwk, hmem, hvouches⟩, hiss, haud, hdated.1, hdated.2⟩

end

/-- A token is verified as promised exactly where nothing that the code leaves open comes up. -/
theorem verified_iff {ρ ε : Type} (h : Host ρ ε) (c : JwksCache) (s : JwksState) (call : KeysCall)
    (rules : TokenRules) (now : ℚ)
    (token : String) : Verified h c s call rules now token ↔ Ordinary h c s call rules now token := by
  have hkeeps : Verified h c s call rules now token ↔ Settles (verify h c s call rules now token).2 ∧
      ∀ t, (authentic h c s call rules token).2 = .ok t → checkClaims h rules now t.claims = .ok () →
        Comparable h rules t.claims := by
    unfold Verified
    rw [keeps_iff]
    refine and_congr_right fun _ => ⟨fun hall t hauth hclaims => ?_, fun hall claims hok => ?_⟩
    · exact (lawful_iff hauth hclaims).mp (hall t.claims (verify_of_ok hauth hclaims))
    · obtain ⟨t, hauth, rfl, hclaims⟩ := verify_ok hok
      exact (lawful_iff hauth hclaims).mpr (hall t hauth hclaims)
  rw [hkeeps, settles_verify, settles_authentic, settles_opened]
  constructor
  · rintro ⟨⟨⟨⟨hshallow, halg⟩, hkeys⟩, hclaims⟩, hcomparable⟩
    refine ⟨hshallow, halg, fun t alg ht => (hkeys t alg ht).1, fun t alg keys ht hkeys' =>
      ((hkeys t alg ht).2 keys hkeys').1,
      fun t alg keys ht hkeys' => ((hkeys t alg ht).2 keys hkeys').2, fun t hauth hrequired hus => ?_⟩
    obtain ⟨hexp, hahead⟩ := settles_checkDates.mp (settles_checkClaims.mp (hclaims t hauth) hrequired hus)
    refine ⟨hexp, fun hexpired => (hahead hexpired).1, fun hexpired => (hahead hexpired).2, fun hdates => ?_⟩
    refine hcomparable t hauth ?_
    simp only [checkClaims, hrequired, hus, hdates, bind, Except.bind]
  · intro hord
    refine ⟨⟨⟨⟨hord.shallow, hord.alg⟩, fun t alg ht => ⟨hord.served t alg ht, fun keys hkeys =>
      ⟨hord.kid t alg keys ht hkeys, hord.judged t alg keys ht hkeys⟩⟩⟩, fun t hauth => ?_⟩,
        fun t hauth hclaims => ?_⟩
    · refine settles_checkClaims.mpr fun hrequired hus => ?_
      have hdated := hord.dates t hauth hrequired hus
      exact settles_checkDates.mpr ⟨hdated.exp, fun hexpired => ⟨hdated.nbf hexpired, hdated.iat hexpired⟩⟩
    · obtain ⟨hrequired, hus, hdates⟩ := checkClaims_ok hclaims
      exact (hord.dates t hauth hrequired hus).comparable hdates

/-! ## A token that never ends -/

def headerText : String := "\x7b\"alg\":\"RS256\"\x7d"

def claimsText : String := "\x7b\"iss\":\"issuer\",\"exp\":null\x7d"

/-- Reads the two texts that come up. -/
def smallLoads (bytes : List UInt8) : Except LoadError Json :=
  if bytes = Utf8.encode headerText then .ok (.obj [("alg", .str "RS256")])
  else if bytes = Utf8.encode claimsText then .ok (.obj [("iss", .str "issuer"), ("exp", .null)])
  else .error .value

def exactAdd : PyFloat → PyFloat → PyFloat
  | .nan, _ | _, .nan | .inf, .negInf | .negInf, .inf => .nan
  | .inf, _ | _, .inf => .inf
  | .negInf, _ | _, .negInf => .negInf
  | .fin a, .fin b => .fin (a + b)

theorem exactAdd_nan (a : PyFloat) : exactAdd a .nan = .nan := by
  cases a <;> rfl

theorem exactAdd_fin (q : ℚ) (b : PyFloat) (hb : b ≠ .nan) : exactAdd (.fin q) b ≠ .nan := by
  cases b <;> simp_all [exactAdd]

def checksum (bytes : List UInt8) : Nat := bytes.foldl (fun n b => (n + b.toNat) % 256) 0

def sumHost : Host (Nat × Nat) Unit where
  loads := smallLoads
  text _ := none
  quoted := id
  float _ := .nan
  ofInt := Rat.ofInt
  add := exactAdd
  add_nan := exactAdd_nan
  add_fin := exactAdd_fin
  rsaPublic e n := .ok (e, n)
  ecPublic _ _ _ := .error "ValueError"
  rsaVerify _ _ _ signature signed := if signature.map UInt8.toNat = [checksum signed] then .ok ()
    else .error "InvalidSignature"
  ecVerify _ _ _ _ _ := .error "InvalidSignature"

def issuerRules : TokenRules where
  issuer := "issuer"
  audience := none
  algorithms := ["RS256", "ES256"]
  leeway := .fin 60

def fetched : KeysCall where
  kid := none
  time := 1
  first := ⟨1, .ok (.arr [.obj [("kty", .str "RSA"), ("n", .str "AQAB"), ("e", .str "AQAB")]])⟩
  second := ⟨1, .error (pythonError "ConnectError")⟩

def endless : String := "eyJhbGciOiJSUzI1NiJ9.eyJpc3MiOiJpc3N1ZXIiLCJleHAiOm51bGx9.8g"

/-- A token whose `exp` is `null` is accepted at any time. -/
theorem null_exp_accepted : ¬Verified sumHost JwksCache.sample { now := 0 } fetched issuerRules 1800000000 endless :=
  not_verified_of_no_date (by decide +kernel)

end OranAdapt.Jwt
