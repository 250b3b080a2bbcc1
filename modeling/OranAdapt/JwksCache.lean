import Mathlib.Algebra.Field.Rat
import Mathlib.Algebra.Order.Ring.Rat
import OranAdapt.CdcEvents
import OranAdapt.Runs
import OranAdapt.SlidingWindow
import OranAdapt.Store

/-!
# The cache of an issuer's keys

`JwksCache` of `adapters.jwt`. One timestamp decides both refreshes: the cache
is fetched again when it is stale, and when a token names a key that is not in
it. Only a fetch that succeeds moves the timestamp, so a fetch that fails holds
the next one back no longer than it took.
-/

namespace OranAdapt

open Runs Spacing

/-- A key of the issuer: what it sent, not yet looked at. -/
abbrev Jwk := JsonDict

/-- AUTH_JWKS_CACHE_TTL_S and AUTH_JWKS_MIN_REFETCH_S, as the configuration accepts them. -/
structure JwksCache where
  url : String
  cacheTtl : ℚ
  minRefetch : ℚ
  ttl_pos : 0 < cacheTtl
  refetch_nonneg : 0 ≤ minRefetch

inductive FetchCause where
  /-- the cache is empty or stale -/
  | stale
  /-- the token names a key that is not in the cache -/
  | unknownKid
deriving DecidableEq, Repr

/-- A request that was sent to the issuer. -/
structure Fetch where
  sent : ℚ
  cause : FetchCause
  ok : Bool
deriving DecidableEq, Repr

/-- How a request ends: when, and `response.json()["keys"]` or what was raised before that. -/
structure FetchEnd where
  time : ℚ
  answer : Except AdaptationError Json

structure JwksState where
  keys : List Jwk := []
  fetchedAt : Option ℚ := none
  /-- the last reading of the clock -/
  now : ℚ
  sent : List Fetch := []

/-- A call of `keys`: the reading it begins with, and how the requests it may send end. -/
structure KeysCall where
  kid : Option String
  time : ℚ
  first : FetchEnd
  second : FetchEnd

def authenticationError (message : String) (context : Context) : AdaptationError :=
  ⟨.other "UNAUTHENTICATED", message, context⟩

/-- The exceptions `_fetch` answers for: `httpx.HTTPError`, `OutboundBlockedError`, `ValueError`,
`KeyError` and `TypeError`, with the subclasses that come up. -/
def ErrorClass.isFetchError : ErrorClass → Bool
  | python name => name ∈ ["HTTPStatusError", "ConnectError", "ReadError", "WriteError", "CloseError", "ConnectTimeout",
      "ReadTimeout", "WriteTimeout", "PoolTimeout", "LocalProtocolError", "RemoteProtocolError", "ProxyError",
      "UnsupportedProtocol", "DecodingError", "TooManyRedirects", "ValueError", "JSONDecodeError", "UnicodeDecodeError",
      "KeyError", "TypeError"]
  | other code => code == "OUTBOUND_BLOCKED"
  | _ => false

/-- `[k for k in keys if isinstance(k, dict)]`; `none` where `keys` cannot be iterated. -/
def dictsOf : Json → Option (List Jwk)
  | .arr items => some (items.filterMap fun v => match v with | .obj fields => some fields | _ => none)
  | .obj _ | .str _ => some []
  | _ => none

def Jwk.named (kid : String) (k : Jwk) : Bool :=
  match JsonDict.read k "kid" with
  | .str s => s == kid
  | _ => false

namespace JwksCache

variable (c : JwksCache)

def fetchError (e : AdaptationError) : AdaptationError :=
  if e.cls.isFetchError then
    authenticationError "the token issuer's signing keys could not be fetched"
      [("jwks_url", .str c.url), ("cause", .str e.cls.code)]
  else e

def fetch (s : JwksState) (cause : FetchCause) (r : FetchEnd) : JwksState × Except AdaptationError Unit :=
  match r.answer with
  | .error e => ({ s with now := r.time, sent := s.sent ++ [⟨s.now, cause, false⟩] }, .error (c.fetchError e))
  | .ok keys =>
    match dictsOf keys with
    | none => ({ s with now := r.time, sent := s.sent ++ [⟨s.now, cause, false⟩] }, .error (pythonError "TypeError"))
    | some keys =>
      ({ keys, fetchedAt := some r.time, now := r.time, sent := s.sent ++ [⟨s.now, cause, true⟩] }, .ok ())

def stale (s : JwksState) (now : ℚ) : Bool :=
  match s.fetchedAt with
  | none => true
  | some at_ => c.cacheTtl < now - at_

def found (s : JwksState) : Option String → List Jwk
  | none => s.keys
  | some kid => s.keys.filter (Jwk.named kid)

/-- `now - (self._fetched_at or now)`; a timestamp of `0.0` counts as none. -/
def age (s : JwksState) (now : ℚ) : ℚ := now - (if s.fetchedAt.getD 0 = 0 then now else s.fetchedAt.getD 0)

/-- The key is looked for at the issuer once more. -/
def refetch (s : JwksState) (kid : Option String) (now : ℚ) : Bool :=
  (found s kid).isEmpty && kid.isSome && decide (c.minRefetch ≤ age s now)

/-- `keys` once the cache is neither empty nor stale. -/
def lookUp (s : JwksState) (call : KeysCall) : JwksState × Except AdaptationError (List Jwk) :=
  if c.refetch s call.kid call.time then
    match c.fetch s .unknownKid call.second with
    | (s, .error e) => (s, .error e)
    | (s, .ok ()) => (s, .ok (found s call.kid))
  else (s, .ok (found s call.kid))

def keys (s : JwksState) (call : KeysCall) : JwksState × Except AdaptationError (List Jwk) :=
  let s := { s with now := call.time }
  if c.stale s call.time then
    match c.fetch s .stale call.first with
    | (s, .error e) => (s, .error e)
    | (s, .ok ()) => c.lookUp s call
  else c.lookUp s call

/-- The clock does not go back. -/
def inOrder (s : JwksState) (call : KeysCall) : Bool :=
  s.now ≤ call.time && call.time ≤ call.first.time && call.first.time ≤ call.second.time

/-- One call after the other: the lock is held while a call lasts. -/
def step (s : JwksState) (call : KeysCall) : Option JwksState :=
  if inOrder s call then some (c.keys s call).1 else none

/-- What is promised of the requests that were sent. -/
structure IssuerSpared (sent : List Fetch) : Prop where
  apart : (sent.filter fun f => f.cause = .unknownKid).Pairwise fun f g => f.sent + c.minRefetch ≤ g.sent
  rate : 0 < c.minRefetch → Sparse Fetch.sent c.minRefetch c.cacheTtl sent

def fetches (s : JwksState) (call : KeysCall) : Bool := c.stale s call.time || c.refetch s call.kid call.time

/-- No request follows a failed one within the time that is to lie between two. -/
def Patient (s : JwksState) (call : KeysCall) : Prop :=
  c.fetches s call = true → ∀ f ∈ s.sent.getLast?, f.ok = false → f.sent + c.minRefetch ≤ call.time

instance (s : JwksState) (call : KeysCall) : Decidable (c.Patient s call) := inferInstanceAs (Decidable (_ → _))

/-! ## One request -/

section
variable {c : JwksCache} {s s' : JwksState} {call : KeysCall} {cause : FetchCause} {r : FetchEnd} {t : ℚ}

theorem fetch_cases (s : JwksState) (cause : FetchCause) (r : FetchEnd) :
    (∃ e, c.fetch s cause r = ({ s with now := r.time, sent := s.sent ++ [⟨s.now, cause, false⟩] }, .error e)) ∨
      ∃ keys, c.fetch s cause r =
        ({ keys, fetchedAt := some r.time, now := r.time, sent := s.sent ++ [⟨s.now, cause, true⟩] }, .ok ()) := by
  unfold fetch
  split
  · exact .inl ⟨_, rfl⟩
  · split
    · exact .inl ⟨_, rfl⟩
    · exact .inr ⟨_, rfl⟩

/-- What holds after every call: the last request came last, and it moved the timestamp if it succeeded. -/
structure Inv (c : JwksCache) (s : JwksState) : Prop where
  times : ∀ f ∈ s.sent, f.sent ≤ s.now
  last : ∀ g ∈ s.sent.getLast?, (∀ f ∈ s.sent, f.sent ≤ g.sent) ∧
    (g.ok = true → ∃ t, s.fetchedAt = some t ∧ g.sent ≤ t)
  spared : c.IssuerSpared s.sent

theorem Inv.init (start : ℚ) : Inv c { now := start } where
  times := by
    intro f hf
    cases hf
  last := by
    intro g hg
    cases hg
  spared := ⟨.nil, fun hpos => .nil hpos c.ttl_pos⟩

theorem Inv.later (h : Inv c s) (hle : s.now ≤ t) : Inv c { s with now := t } where
  times := fun f hf => (h.times f hf).trans hle
  last := h.last
  spared := h.spared

/-- A request keeps the invariant when it is sent late enough after those before it. -/
theorem Inv.fetch (h : Inv c s) (hr : s.now ≤ r.time)
    (hkid : cause = .unknownKid → ∀ f ∈ s.sent, f.sent + c.minRefetch ≤ s.now)
    (hany : (∀ f ∈ s.sent, f.sent + c.minRefetch ≤ s.now) ∨ ∀ f ∈ s.sent, f.sent + c.cacheTtl ≤ s.now) :
    Inv c (c.fetch s cause r).1 := by
  have hspared : ∀ ok, c.IssuerSpared (s.sent ++ [⟨s.now, cause, ok⟩]) := by
    intro ok
    constructor
    · rw [List.filter_append, List.pairwise_append]
      refine ⟨h.spared.apart, List.Pairwise.filter _ (List.pairwise_singleton _ _), ?_⟩
      intro f hf g hg
      obtain ⟨hg, hcause⟩ := List.mem_filter.mp hg
      obtain rfl := List.mem_singleton.mp hg
      exact hkid (of_decide_eq_true hcause) f (List.mem_of_mem_filter hf)
    · intro hpos
      rcases hany with hmin | httl
      · exact (h.spared.rate hpos).append_left hpos c.ttl_pos hmin
      · exact (h.spared.rate hpos).append_right hpos c.ttl_pos httl
  have htimes : ∀ ok, ∀ f ∈ s.sent ++ [⟨s.now, cause, ok⟩], f.sent ≤ s.now := by
    intro ok f hf
    rcases List.mem_append.mp hf with hf | hf
    · exact h.times f hf
    · rw [List.mem_singleton.mp hf]
  rcases fetch_cases (c := c) s cause r with ⟨e, hfetch⟩ | ⟨keys, hfetch⟩
  · rw [hfetch]
    refine ⟨fun f hf => (htimes _ f hf).trans hr, ?_, hspared _⟩
    intro g hg
    rw [List.getLast?_concat, Option.mem_some] at hg
    subst hg
    exact ⟨htimes _, fun hok => by cases hok⟩
  · rw [hfetch]
    refine ⟨fun f hf => (htimes _ f hf).trans hr, ?_, hspared _⟩
    intro g hg
    rw [List.getLast?_concat, Option.mem_some] at hg
    subst hg
    exact ⟨htimes _, fun _ => ⟨_, rfl, hr⟩⟩

/-! ## One call -/

/-- Every request is long past, or the timestamp is of none before them. -/
def Clear (c : JwksCache) (s : JwksState) : Prop :=
  (∀ f ∈ s.sent, f.sent + c.minRefetch ≤ s.now) ∨ ∃ t, s.fetchedAt = some t ∧ ∀ f ∈ s.sent, f.sent ≤ t

theorem Inv.clear (h : Inv c s) (hpatient : ∀ f ∈ s.sent.getLast?, f.ok = false → f.sent + c.minRefetch ≤ s.now) :
    Clear c s := by
  cases hlast : s.sent.getLast? with
  | none =>
    refine .inl fun f hf => ?_
    rw [List.getLast?_eq_none_iff.mp hlast] at hf
    cases hf
  | some g =>
    obtain ⟨hbefore, hmoved⟩ := h.last g hlast
    cases hok : g.ok with
    | false =>
      have hg := hpatient g hlast hok
      exact .inl fun f hf => (by linarith [hbefore f hf])
    | true =>
      obtain ⟨t, ht, hle⟩ := hmoved hok
      exact .inr ⟨t, ht, fun f hf => (hbefore f hf).trans hle⟩

theorem stale_of_some (h : c.stale s s.now = true) (ht : s.fetchedAt = some t) : t + c.cacheTtl ≤ s.now := by
  rw [stale, ht] at h
  linarith [of_decide_eq_true h]

theorem Clear.of_stale (h : Clear c s) (hstale : c.stale s s.now = true) :
    (∀ f ∈ s.sent, f.sent + c.minRefetch ≤ s.now) ∨ ∀ f ∈ s.sent, f.sent + c.cacheTtl ≤ s.now := by
  rcases h with hmin | ⟨t, ht, hle⟩
  · exact .inl hmin
  · exact .inr fun f hf => by linarith [hle f hf, stale_of_some hstale ht]

/-- An unknown key is looked for again only when the last fetch that succeeded is old enough. -/
theorem Clear.of_refetch (h : Clear c s) (htimes : ∀ f ∈ s.sent, f.sent ≤ s.now)
    {kid : Option String} (ht : t ≤ s.now)
    (hrefetch : c.refetch s kid t = true) : ∀ f ∈ s.sent, f.sent + c.minRefetch ≤ s.now := by
  rcases h with hmin | ⟨at_, hat, hle⟩
  · exact hmin
  · rw [refetch, Bool.and_eq_true, age, hat] at hrefetch
    have hage := of_decide_eq_true hrefetch.2
    intro f hf
    by_cases hzero : at_ = 0
    · simp only [Option.getD_some, hzero, if_true, sub_self] at hage
      linarith [htimes f hf]
    · simp only [Option.getD_some, if_neg hzero] at hage
      linarith [hle f hf]

theorem Inv.lookUp (h : Inv c s) (ht : call.time ≤ s.now) (hr : s.now ≤ call.second.time)
    (hclear : c.refetch s call.kid call.time = true → Clear c s) : Inv c (c.lookUp s call).1 := by
  unfold JwksCache.lookUp
  split
  · rename_i hrefetch
    have hgap := (hclear hrefetch).of_refetch h.times ht hrefetch
    have hinv : Inv c (c.fetch s .unknownKid call.second).1 := h.fetch hr (fun _ => hgap) (.inl hgap)
    rcases fetch_cases (c := c) s .unknownKid call.second with ⟨e, hfetch⟩ | ⟨keys, hfetch⟩
    · rw [hfetch] at hinv ⊢
      exact hinv
    · rw [hfetch] at hinv ⊢
      exact hinv
  · exact h

theorem Inv.keys (h : Inv c s) (hnow : s.now ≤ call.time) (hfirst : call.time ≤ call.first.time)
    (hsecond : call.first.time ≤ call.second.time) (hpatient : c.Patient s call) : Inv c (c.keys s call).1 := by
  have hlater := h.later hnow
  unfold JwksCache.keys
  simp only
  split
  · rename_i hstale
    have hclear := hlater.clear (hpatient (by rw [fetches]; simp only [Bool.or_eq_true]; exact .inl hstale))
    have hinv : Inv c (c.fetch { s with now := call.time } .stale call.first).1 :=
      hlater.fetch hfirst (fun hcause => by cases hcause) (hclear.of_stale hstale)
    rcases fetch_cases (c := c) { s with now := call.time } .stale call.first with ⟨e, hfetch⟩ | ⟨keys, hfetch⟩
    · rw [hfetch] at hinv ⊢
      exact hinv
    · rw [hfetch] at hinv ⊢
      exact hinv.lookUp hfirst hsecond fun _ => .inr ⟨_, rfl, hinv.times⟩
  · refine hlater.lookUp le_rfl (hfirst.trans hsecond) fun hrefetch => hlater.clear (hpatient ?_)
    rw [fetches]
    simp only [Bool.or_eq_true]
    exact .inr hrefetch

theorem step_cases (h : c.step s call = some s') :
    s.now ≤ call.time ∧ call.time ≤ call.first.time ∧ call.first.time ≤ call.second.time ∧
      s' = (c.keys s call).1 := by
  unfold step at h
  split at h
  · rename_i horder
    simp only [inOrder, Bool.and_eq_true, decide_eq_true_eq] at horder
    exact ⟨horder.1.1, horder.1.2, horder.2, (Option.some.inj h).symm⟩
  · cases h

/-- Calls that leave a failed request its time send few requests, whatever keys they ask for. -/
theorem issuer_spared {start : ℚ} (h : Steps c.step c.Patient { now := start } s) : c.IssuerSpared s.sent := by
  refine (h.inv (Inv c) ?_ (Inv.init start)).spared
  intro s call s' hs hpatient hstep
  obtain ⟨hnow, hfirst, hsecond, rfl⟩ := step_cases hstep
  exact hs.keys hnow hfirst hsecond hpatient

end

theorem ttl_sample : (0 : ℚ) < 300 := by norm_num

theorem refetch_sample : (0 : ℚ) ≤ 30 := by norm_num

def sample : JwksCache where
  url := "https://issuer.example/jwks"
  cacheTtl := 300
  minRefetch := 30
  ttl_pos := ttl_sample
  refetch_nonneg := refetch_sample

/-- A call for a forged key whose requests are answered at once. -/
def forged (time : ℚ) (answer : Except AdaptationError Json) : KeysCall where
  kid := some "forged"
  time := time
  first := ⟨time, answer⟩
  second := ⟨time, answer⟩

/-- The second of three requests fails, and the third leaves it its time. -/
theorem issuer_spared_sample : ∃ s, Steps sample.step sample.Patient { now := 0 } s ∧
    s.sent = [⟨1, .stale, true⟩, ⟨31, .unknownKid, false⟩, ⟨61, .unknownKid, true⟩] ∧
      sample.IssuerSpared s.sent := by
  obtain ⟨s, hs, hsent⟩ := Steps.exists_of_runs sample.step sample.Patient { now := 0 }
    [forged 1 (.ok (.arr [])), forged 31 (.error (pythonError "ConnectError")), forged 61 (.ok (.arr []))]
    (fun s => s.sent == [⟨1, .stale, true⟩, ⟨31, .unknownKid, false⟩, ⟨61, .unknownKid, true⟩])
      (by decide +kernel)
  exact ⟨s, hs, beq_iff_eq.mp hsent, issuer_spared hs⟩

/-- While the issuer cannot be reached, every token with a forged key sends a request. -/
theorem forged_keys_hammer : ∃ s, Steps sample.step Free { now := 0 } s ∧ ¬sample.IssuerSpared s.sent := by
  obtain ⟨s, hs, hsent⟩ := Steps.exists_of_runs sample.step Free { now := 0 }
    [forged 1 (.ok (.arr [])), forged 31 (.error (pythonError "ConnectError")),
      forged 31 (.error (pythonError "ConnectError"))]
    (fun s => s.sent == [⟨1, .stale, true⟩, ⟨31, .unknownKid, false⟩, ⟨31, .unknownKid, false⟩])
      (by decide +kernel)
  refine ⟨s, hs, fun h => ?_⟩
  have hapart := h.apart
  rw [beq_iff_eq.mp hsent] at hapart
  revert hapart
  decide +kernel

end JwksCache

end OranAdapt
