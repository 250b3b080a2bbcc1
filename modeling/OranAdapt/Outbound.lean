import OranAdapt.Store
import OranAdapt.UrlSplit

/-!
# The outbound policy

`OutboundPolicy` of `core.outbound`. A host that is not trusted is compared with
the names that are blocked, and with resolution on its addresses are looked at.
Names are compared as texts, so the dot of the root counts, and of the ways in
which an IPv6 address carries an IPv4 address one is seen through.
-/

namespace OranAdapt.Outbound

open Ip (Address Network)

/-- `s` as names are compared: capital ASCII letters are small ones. -/
def fold (s : String) : List Char := s.toList.map Char.toLower

inductive ResolveError where
  | osError
  | raised (name : String)
deriving DecidableEq, Repr

structure Host where
  /-- `str.lower` -/
  lower : String → String
  lower_ascii : ∀ s, s.toList.all Utf8.ascii = true → (lower s).toList = fold s
  lower_lower : ∀ s, fold (lower s) = (lower s).toList
  /-- `unicodedata.normalize("NFKC", text)` -/
  nfkc : List Char → List Char
  /-- `socket.getaddrinfo`, the texts of the addresses -/
  getaddrinfo : String → Except ResolveError (List String)
  /-- `str(address)` -/
  text : Address → String

structure PolicyArgs where
  allowlist : List String := []
  plainHttpHosts : List String := []
  blockedHosts : List String := []
  resolveHosts : Bool := true
  requireHttps : Bool := false
  tlsMinVersion : String := "TLSv1.2"
  caFile : Option String := none

structure OutboundPolicy where
  hosts : List String
  suffixes : List String
  networks : List Network
  plainHttpHosts : List String
  blockedHosts : List String
  resolveHosts : Bool
  requireHttps : Bool
  tlsMinVersion : String
  caFile : Option String

/-- What an entry of the allowlist is read as. -/
inductive Entry where
  | host (name : String)
  | suffix (name : String)
  | network (net : Network)

def blocked (message url : String) (context : Context) : AdaptationError :=
  ⟨.other "OUTBOUND_BLOCKED", message, ("url", .str url) :: context⟩

def endsWith (text suffix : String) : Bool := suffix.toList.isSuffixOf text.toList

section
variable (h : Host)

def entry? (raw : String) : Option Entry :=
  let entry := h.lower (String.ofList (PyStr.strip raw.toList))
  if entry = "" then none
  else if entry.toList.head? = some '.' then some (.suffix entry)
  else
    match Ip.network? entry.toList with
    | some net => some (.network net)
    | none => some (.host (String.ofList (PyStr.unbracket entry.toList)))

def built (args : PolicyArgs) : OutboundPolicy where
  hosts := args.allowlist.filterMap fun raw => match entry? h raw with | some (.host name) => some name | _ => none
  suffixes := args.allowlist.filterMap fun raw => match entry? h raw with | some (.suffix name) => some name | _ => none
  networks := args.allowlist.filterMap fun raw => match entry? h raw with | some (.network net) => some net | _ => none
  plainHttpHosts := args.plainHttpHosts.map h.lower
  blockedHosts := args.blockedHosts.map h.lower
  resolveHosts := args.resolveHosts
  requireHttps := args.requireHttps
  tlsMinVersion := args.tlsMinVersion
  caFile := args.caFile

def create (args : PolicyArgs) : Except AdaptationError OutboundPolicy :=
  if args.tlsMinVersion ∈ ["TLSv1.2", "TLSv1.3"] then .ok (built h args) else .error (pythonError "ValueError")

def isPublic (address : Address) : Bool :=
  let address := match address with
    | .v6 n => ((Ip.mapped? n).map Address.v4).getD address
    | .v4 _ => address
  address.isGlobal && !address.isMulticast

variable (p : OutboundPolicy)

def trusted (host : String) : Bool :=
  let host := String.ofList (PyStr.unbracket (h.lower host).toList)
  host ∈ p.hosts || p.suffixes.any (fun s => endsWith host s || host.toList == s.toList.drop 1) ||
    match Ip.address? host.toList with
    | some address => p.networks.any fun net => net.contains address
    | none => false

def addresses (host : String) : Except AdaptationError (List Address) :=
  match Ip.address? (PyStr.unbracket host.toList) with
  | some address => .ok [address]
  | none =>
    if !p.resolveHosts then .ok []
    else
      match h.getaddrinfo host with
      -- unresolvable: the connection fails on its own
      | .error .osError => .ok []
      | .error (.raised name) => .error (pythonError name)
      | .ok texts => texts.mapM fun text => orRaise "ValueError" (Ip.address? (PyStr.partition '%' text.toList).1)

def target (url : String) : Except AdaptationError (String × String) :=
  match UrlSplit.split? h.nfkc url.toList with
  | some parts => .ok (h.lower (String.ofList parts.scheme), h.lower (parts.hostname h.lower))
  | none => .error (pythonError "ValueError")

def checkScheme (scheme host : String) : Except AdaptationError Unit :=
  if scheme ∉ ["http", "https"] ∨ host = "" then
    .error (blocked "only http and https URLs may be called" (scheme ++ "://" ++ host) [])
  else if scheme = "http" ∧ p.requireHttps = true ∧ host ∉ p.plainHttpHosts then
    .error (blocked "plain http is refused (OUTBOUND_REQUIRE_HTTPS); use https" (scheme ++ "://" ++ host) [])
  else .ok ()

def isUnder (host b : String) : Bool := host = b || endsWith host ("." ++ b)

def checkName (scheme host : String) : Except AdaptationError Unit :=
  if p.blockedHosts.any (isUnder host) then
    .error (blocked "host is on OUTBOUND_BLOCKED_HOSTS" (scheme ++ "://" ++ host) [("key", .str "OUTBOUND_ALLOWLIST")])
  else .ok ()

def checkAddresses (scheme host : String) : Except AdaptationError Unit := do
  let found ← addresses h p host
  match found.find? fun address => !isPublic address with
  | some address =>
    .error (blocked "destination is not a public address; add it to OUTBOUND_ALLOWLIST if it is meant to be reached"
      (scheme ++ "://" ++ host) [("address", .str (h.text address)), ("key", .str "OUTBOUND_ALLOWLIST")])
  | none => .ok ()

def check (url : String) : Except AdaptationError Unit := do
  let (scheme, host) ← target h url
  checkScheme p scheme host
  if trusted h p host then .ok ()
  else do
    checkName p scheme host
    checkAddresses h p scheme host

end

/-! ## What is promised of a call -/

def rooted (name : List Char) : Bool := name.getLast? == some '.'

def dropRoot (name : List Char) : List Char := if rooted name then name.dropLast else name

def canonical (name : String) : List Char := dropRoot (fold name)

/-- The text is a name of the DNS that is not the root's. -/
def IsName (b : String) : Prop := b.toList.all Utf8.ascii = true ∧ canonical b ≠ []

def Below (host b : String) : Prop := canonical host = canonical b ∨ '.' :: canonical b <:+ canonical host

instance : DecidablePred IsName :=
  fun b => inferInstanceAs (Decidable (b.toList.all Utf8.ascii = true ∧ canonical b ≠ []))

instance (host b : String) : Decidable (Below host b) :=
  inferInstanceAs (Decidable (canonical host = canonical b ∨ '.' :: canonical b <:+ canonical host))

section
variable (h : Host) (args : PolicyArgs) (url : String)

structure Guarded : Prop where
  names : ∀ scheme host, target h url = .ok (scheme, host) → trusted h (built h args) host = false →
    (∃ b ∈ args.blockedHosts, IsName b ∧ Below host b) → check h (built h args) url ≠ .ok ()
  addresses : ∀ scheme host, target h url = .ok (scheme, host) → trusted h (built h args) host = false →
    args.resolveHosts = true → check h (built h args) url = .ok () →
    ∃ found, addresses h (built h args) host = .ok found ∧ ∀ a ∈ found, a.public = true

/-- The host and the name that blocks it both end with the dot of the root, or neither does; a
text that is no name is compared as it stands. -/
def SameSpelling (host b : String) : Prop :=
  IsName b ∧ Below host b ∧ rooted host.toList = rooted b.toList ∨ ¬IsName b ∧ isUnder host (h.lower b) = true

/-- The spelling of the host makes no difference. -/
structure Plain : Prop where
  names : ∀ scheme host, target h url = .ok (scheme, host) → trusted h (built h args) host = false →
    checkScheme (built h args) scheme host = .ok () → checkAddresses h (built h args) scheme host = .ok () →
    (∃ b ∈ args.blockedHosts, IsName b ∧ Below host b) → ∃ b ∈ args.blockedHosts, SameSpelling h host b
  addresses : ∀ scheme host, target h url = .ok (scheme, host) → trusted h (built h args) host = false →
    args.resolveHosts = true → checkScheme (built h args) scheme host = .ok () →
    checkName (built h args) scheme host = .ok () → ∀ found, addresses h (built h args) host = .ok found →
    (∀ a ∈ found, isPublic a = true) → ∀ a ∈ found, a.leadsOut = true

end

/-! ## Names that are blocked -/

section
variable {h : Host} {args : PolicyArgs} {p : OutboundPolicy} {url scheme host b : String} {x y : List Char}

theorem concat_of_rooted (hx : rooted x = true) : x = dropRoot x ++ ['.'] := by
  rw [dropRoot, if_pos hx]
  exact (List.dropLast_append_getLast? '.' (beq_iff_eq.mp hx)).symm

theorem suffix_concat_iff {a : Char} : y ++ [a] <:+ x ++ [a] ↔ y <:+ x := by
  constructor
  · rintro ⟨t, ht⟩
    rw [← List.append_assoc] at ht
    exact ⟨t, List.append_cancel_right ht⟩
  · rintro ⟨t, rfl⟩
    exact ⟨t, by rw [List.append_assoc]⟩

/-- Two names that are spelled with a dot at the end, or both without, are compared as their canonical forms are. -/
theorem under_iff_of_rooted (hrooted : rooted x = rooted y) :
    (x = y ∨ '.' :: y <:+ x) ↔ (dropRoot x = dropRoot y ∨ '.' :: dropRoot y <:+ dropRoot x) := by
  by_cases hx : rooted x = true
  · have hy : rooted y = true := by rw [← hrooted, hx]
    generalize hx' : dropRoot x = x'
    generalize hy' : dropRoot y = y'
    rw [concat_of_rooted hx, concat_of_rooted hy, hx', hy', ← List.cons_append, suffix_concat_iff,
      List.append_left_inj]
  · have hy : rooted y ≠ true := by rwa [← hrooted]
    rw [dropRoot, if_neg hx, dropRoot, if_neg hy]

theorem rooted_of_under (hy : y ≠ []) (hunder : x = y ∨ '.' :: y <:+ x) : rooted x = rooted y := by
  rcases hunder with rfl | ⟨t, rfl⟩
  · rfl
  · cases y with
    | nil => exact absurd rfl hy
    | cons c y => simp [rooted, List.getLast?_append, List.getLast?_cons_cons]

theorem toNat_toLower (c : Char) :
    c.toLower.toNat = if 65 ≤ c.toNat ∧ c.toNat ≤ 90 then c.toNat + 32 else c.toNat := by
  have hcapital : (c.val ≥ 'A'.val ∧ c.val ≤ 'Z'.val) ↔ 65 ≤ c.toNat ∧ c.toNat ≤ 90 := Iff.rfl
  unfold Char.toLower
  by_cases h : 65 ≤ c.toNat ∧ c.toNat ≤ 90
  · rw [dif_pos (hcapital.mpr h), if_pos h]
    have hval : c.toNat = c.val.toNat := rfl
    have hsum : (c.val + ('a'.val - 'A'.val)).toNat = (c.val.toNat + 32) % 4294967296 := UInt32.toNat_add _ _
    exact hsum.trans (by omega)
  · rw [dif_neg fun hc => h (hcapital.mp hc), if_neg h]

theorem toLower_eq_dot {c : Char} : c.toLower = '.' ↔ c = '.' := by
  have hdot : '.'.toNat = 46 := rfl
  rw [← Char.toNat_inj, ← Char.toNat_inj, toNat_toLower, hdot]
  split <;> omega

theorem rooted_fold (b : String) : rooted (fold b) = rooted b.toList := by
  rw [rooted, rooted, fold, List.getLast?_map]
  cases b.toList.getLast? with
  | none => rfl
  | some c => simp [toLower_eq_dot]

theorem isUnder_iff : isUnder host b = true ↔ host.toList = b.toList ∨ '.' :: b.toList <:+ host.toList := by
  simp [isUnder, endsWith, String.toList_inj]

/-- What the code compares is what the DNS compares, where both names end in the same way. -/
theorem isUnder_name (hname : IsName b) (hhost : fold host = host.toList) :
    isUnder host (h.lower b) = true ↔ Below host b ∧ rooted host.toList = rooted b.toList := by
  have hempty : fold b ≠ [] := by
    intro hnil
    apply hname.2
    rw [canonical, hnil]
    rfl
  rw [isUnder_iff, h.lower_ascii b hname.1, Below, canonical, canonical, hhost, ← rooted_fold b]
  constructor
  · intro hunder
    have hrooted := rooted_of_under hempty hunder
    exact ⟨(under_iff_of_rooted hrooted).mp hunder, hrooted⟩
  · rintro ⟨hbelow, hrooted⟩
    exact (under_iff_of_rooted hrooted).mpr hbelow

theorem isUnder_lower (hhost : fold host = host.toList) : isUnder host (h.lower b) = true ↔ SameSpelling h host b := by
  unfold SameSpelling
  by_cases hname : IsName b
  · rw [isUnder_name hname hhost]
    simp [hname]
  · simp [hname]

theorem checkName_iff (hhost : fold host = host.toList) :
    checkName (built h args) scheme host = .ok () ↔ ∀ b ∈ args.blockedHosts, ¬SameSpelling h host b := by
  have hany : (built h args).blockedHosts.any (isUnder host) = true ↔
      ∃ b ∈ args.blockedHosts, SameSpelling h host b := by
    simp only [built, List.any_map, List.any_eq_true, Function.comp_apply, isUnder_lower hhost]
  unfold checkName
  split
  · rename_i hblocked
    obtain ⟨b, hb, hsame⟩ := hany.mp hblocked
    exact ⟨fun herror => (by cases herror), fun hnone => absurd hsame (hnone b hb)⟩
  · rename_i hnot
    exact ⟨fun _ b hb hsame => hnot (hany.mpr ⟨b, hb, hsame⟩), fun _ => rfl⟩

/-! ## The check -/

theorem isPublic_leadsOut {a : Address} (ha : isPublic a = true) : a.public = a.leadsOut := by
  cases a with
  | v4 n =>
    simp only [isPublic, Address.isGlobal, Address.isMulticast] at ha
    simp [Address.public, Address.leadsOut, Ip.public4, ha]
  | v6 n =>
    cases hmapped : Ip.mapped? n with
    | some m =>
      obtain ⟨hcarrier, rfl⟩ := Ip.mapped?_eq_some hmapped
      simp [Address.public, Address.leadsOut, Ip.embedded?, hcarrier]
    | none =>
      simp only [isPublic, hmapped, Option.map_none, Option.getD_none, Address.isGlobal, Bool.and_eq_true,
        Bool.not_eq_true'] at ha
      exact Ip.public_v6 ha.1

theorem checkAddresses_iff : checkAddresses h p scheme host = .ok () ↔
    ∃ found, addresses h p host = .ok found ∧ ∀ a ∈ found, isPublic a = true := by
  unfold checkAddresses
  cases addresses h p host with
  | error e =>
    refine ⟨fun herror => (by cases herror), ?_⟩
    rintro ⟨found, hfound, -⟩
    cases hfound
  | ok found =>
    simp only [bind, Except.bind, Except.ok.injEq, exists_eq_left']
    split
    · rename_i a ha
      refine ⟨fun herror => (by cases herror), fun hall => ?_⟩
      have hpublic := List.find?_some ha
      rw [hall a (List.mem_of_find?_eq_some ha)] at hpublic
      cases hpublic
    · rename_i hnone
      simpa using hnone

theorem target_lower (htarget : target h url = .ok (scheme, host)) : fold host = host.toList := by
  unfold target at htarget
  split at htarget
  · cases htarget
    exact h.lower_lower _
  · cases htarget

theorem check_iff (htarget : target h url = .ok (scheme, host)) (htrusted : trusted h p host = false) :
    check h p url = .ok () ↔
      checkScheme p scheme host = .ok () ∧ checkName p scheme host = .ok () ∧
        checkAddresses h p scheme host = .ok () := by
  simp only [check, htarget, htrusted, bind, Except.bind]
  cases checkScheme p scheme host <;> cases checkName p scheme host <;> simp

theorem not_guarded (htarget : (target h url).toOption = some (scheme, host))
    (htrusted : trusted h (built h args) host = false)
    (hblocked : ∃ b ∈ args.blockedHosts, IsName b ∧ Below host b)
    (hok : (check h (built h args) url).toOption = some ()) :
    ¬Guarded h args url := fun hguarded =>
  hguarded.names scheme host (ok_of_toOption htarget) htrusted hblocked (ok_of_toOption hok)

end

/-- A call is guarded as promised exactly where the spelling of its host makes no difference. -/
theorem guarded_iff (h : Host) (args : PolicyArgs) (url : String) : Guarded h args url ↔ Plain h args url := by
  constructor
  · intro hguarded
    refine ⟨fun scheme host htarget htrusted hscheme haddresses hblocked => ?_,
      fun scheme host htarget htrusted hresolve hscheme hname found hfound hpublic a ha => ?_⟩
    · have hrefused := hguarded.names scheme host htarget htrusted hblocked
      by_contra hnone
      apply hrefused
      rw [check_iff htarget htrusted, checkName_iff (target_lower htarget)]
      exact ⟨hscheme, fun b hb hsame => hnone ⟨b, hb, hsame⟩, haddresses⟩
    · have hok : check h (built h args) url = .ok () :=
        (check_iff htarget htrusted).mpr ⟨hscheme, hname, checkAddresses_iff.mpr ⟨found, hfound, hpublic⟩⟩
      obtain ⟨found', hfound', hall⟩ := hguarded.addresses scheme host htarget htrusted hresolve hok
      rw [hfound] at hfound'
      cases hfound'
      rw [← isPublic_leadsOut (hpublic a ha)]
      exact hall a ha
  · intro hplain
    refine ⟨fun scheme host htarget htrusted hblocked hok => ?_, fun scheme host htarget htrusted hresolve hok => ?_⟩
    · obtain ⟨hscheme, hname, haddresses⟩ := (check_iff htarget htrusted).mp hok
      obtain ⟨b, hb, hsame⟩ := hplain.names scheme host htarget htrusted hscheme haddresses hblocked
      exact (checkName_iff (target_lower htarget)).mp hname b hb hsame
    · obtain ⟨hscheme, hname, haddresses⟩ := (check_iff htarget htrusted).mp hok
      obtain ⟨found, hfound, hpublic⟩ := checkAddresses_iff.mp haddresses
      refine ⟨found, hfound, fun a ha => ?_⟩
      rw [isPublic_leadsOut (hpublic a ha)]
      exact hplain.addresses scheme host htarget htrusted hresolve hscheme hname found hfound hpublic a ha

/-- A NAT64 carries the metadata address of a cloud. -/
example : isPublic (.v6 (Ip.groups [0x64, 0xff9b, 0, 0, 0, 0, 0xa9fe, 0xa9fe])) = true ∧
    (Address.v6 (Ip.groups [0x64, 0xff9b, 0, 0, 0, 0, 0xa9fe, 0xa9fe])).public = false := by
  decide +kernel

/-! ## The dot of the root -/

def foldText (s : String) : String := String.ofList (fold s)

theorem foldText_ascii (s : String) (_ : s.toList.all Utf8.ascii = true) : (foldText s).toList = fold s :=
  String.toList_ofList

theorem toLower_toLower (c : Char) : c.toLower.toLower = c.toLower := by
  rw [← Char.toNat_inj, toNat_toLower, toNat_toLower]
  by_cases hc : 65 ≤ c.toNat ∧ c.toNat ≤ 90
  · have hsmall : ¬(65 ≤ c.toNat + 32 ∧ c.toNat + 32 ≤ 90) := by omega
    rw [if_pos hc, if_neg hsmall]
  · rw [if_neg hc, if_neg hc]

theorem foldText_foldText (s : String) : fold (foldText s) = (foldText s).toList := by
  rw [fold, foldText, String.toList_ofList, fold, List.map_map]
  exact List.map_congr_left fun c _ => toLower_toLower c

/-- No name resolves. -/
def offline : Host where
  lower := foldText
  lower_ascii := foldText_ascii
  lower_lower := foldText_foldText
  nfkc := id
  getaddrinfo _ := .error .osError
  text _ := ""

/-- The defaults, without resolution. -/
def unresolved : PolicyArgs where
  blockedHosts := ["localhost", "metadata.google.internal", "metadata", "instance-data"]
  resolveHosts := false

theorem root_dot_passes : ¬Guarded offline unresolved "http://localhost./admin" := by
  have htarget : (target offline "http://localhost./admin").toOption = some ("http", "localhost.") := by decide +kernel
  exact not_guarded htarget (by decide +kernel) (by decide +kernel) (by decide +kernel)

end OranAdapt.Outbound
