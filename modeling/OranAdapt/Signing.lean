import OranAdapt.PyNumbers
import OranAdapt.PyStr
import OranAdapt.Separators
import OranAdapt.Store
import OranAdapt.Encodings
import Mathlib.Logic.Equiv.List

/-!
# Signed messages

`sign` and `verify` of `notifications.signing`. A message is signed as its id,
its timestamp and its body with a dot between each two, so what a signature
vouches for is that text; where an id has a dot of its own, the text does not
say where the id ends.
-/

namespace OranAdapt.Signing

open PyInt (floatLimit power)
open PyStr (isSpace)
open Utf8 (ascii)

def idHeader : String := "webhook-id"

def timestampHeader : String := "webhook-timestamp"

def signatureHeader : String := "webhook-signature"

def version : List Char := ['v', '1']

def base64Char (c : Char) : Bool := c.isAlphanum || c == '+' || c == '/' || c == '='

/-- A header's text as its code points; a byte that is no text came as a lone surrogate. -/
abbrev Text := List Nat

def codePoints (text : String) : Text := text.toList.map Char.toNat

/-- A text to split, compare and read numbers from: U+FFFD stands for a lone surrogate, which like
it is no blank, no comma, no digit and not ASCII. -/
def readable (text : Text) : String := String.ofList (text.map fun c => if c.isValidChar then Char.ofNat c else '\uFFFD')

/-- `text.encode("utf-8")` returns. -/
def Encodes (text : Text) : Prop := ∀ c ∈ text, c.isValidChar

instance (text : Text) : Decidable (Encodes text) := inferInstanceAs (Decidable (∀ c ∈ text, c.isValidChar))

/-- `base64.b64encode(hmac.new(key, message, hashlib.sha256).digest())` -/
structure Hmac where
  text : List UInt8 → List UInt8 → List Char
  text_chars : ∀ key message, ∀ c ∈ text key message, base64Char c = true

/-- `str.lower`, which leaves the names of the headers as they are. -/
structure Lower where
  lower : String → String
  lower_names : ∀ name ∈ [idHeader, timestampHeader, signatureHeader], lower name = name

/-- `abs(current - sent) > tolerance_s`, of an integer that a float can hold. -/
structure Clock where
  tooFar : Int → Bool
  toleranceS : Rat

def dot : UInt8 := UInt8.ofNat '.'.toNat

/-- `msg_id.encode("utf-8") + b"." + timestamp.encode("ascii") + b"." + body` -/
def signed (msgId timestamp : String) (body : List UInt8) : List UInt8 :=
  Separators.join dot (Utf8.encode msgId) (Separators.join dot (Utf8.encode timestamp) body)

section
variable (h : Hmac)

def mac (key : List UInt8) (msgId timestamp : Text) (body : List UInt8) : Except AdaptationError (List Char) :=
  if Encodes msgId ∧ (readable timestamp).toList.all ascii then
    .ok (h.text key (signed (readable msgId) (readable timestamp) body))
  else .error (pythonError "UnicodeEncodeError")

/-- A call of `sign` for an id that encodes; for another one there is nothing signed. -/
structure SignCall where
  msgId : String
  body : List UInt8
  keys : List (List UInt8)
  timestamp : Int

def signatures (macs : List (List Char)) : String :=
  String.ofList ([' '].intercalate (macs.map fun m => version ++ ',' :: m))

def sign (call : SignCall) : Except AdaptationError (List (String × String)) :=
  if PyInt.maxStrDigits < PyInt.width call.timestamp then .error (pythonError "ValueError")
  else do
    let ts := toString call.timestamp
    let macs ← call.keys.mapM fun key => mac h key (codePoints call.msgId) (codePoints ts) call.body
    .ok ([(idHeader, call.msgId), (timestampHeader, ts)] ++
      if call.keys.isEmpty then [] else [(signatureHeader, signatures macs)])

/-! ## Verification -/

def invalid (message : String) (context : Context) : AdaptationError := ⟨.other "INVALID_SIGNATURE", message, context⟩

/-- `lower.get(name)`: of equal names the last one counts, and an empty value counts as none. -/
def header (l : Lower) (headers : List (String × Text)) (name : String) : Option Text :=
  ((headers.map fun p => (l.lower p.1, p.2)).reverse.lookup name).filter (· ≠ [])

def words (text : List Char) : List (List Char) := (text.splitOnP isSpace).filter (!·.isEmpty)

/-- `text.partition(",")`, its first and its last part -/
def partition (text : List Char) : List Char × List Char :=
  (text.takeWhile (· ≠ ','), (text.dropWhile (· ≠ ',')).drop 1)

def offered (signatures : String) : List (List Char) :=
  ((words signatures.toList).map partition).filterMap fun p => if p.1 = version then some p.2 else none

/-- `any(hmac.compare_digest(expected, sig) for sig in offered)`; it takes ASCII texts only. -/
def anyDigest (expected : List Char) : List (List Char) → Except AdaptationError Bool
  | [] => .ok false
  | sig :: rest =>
    if sig.all ascii then if sig = expected then .ok true else anyDigest expected rest
    else .error (pythonError "TypeError")

def tryKeys (msgId timestamp : Text) (body : List UInt8) (offered : List (List Char)) :
    List (List UInt8) → Except AdaptationError Text
  | [] => .error (invalid "no signature matches a known key" [])
  | key :: keys => do
    let expected ← mac h key msgId timestamp body
    let found ← anyDigest expected offered
    if found then .ok msgId else tryKeys msgId timestamp body offered keys

def Clock.outside (clock : Clock) (sent : Int) : Except AdaptationError Bool :=
  if floatLimit ≤ sent.natAbs then .error (pythonError "OverflowError") else .ok (clock.tooFar sent)

def verify (l : Lower) (clock : Clock) (body : List UInt8) (headers : List (String × Text))
    (keys : List (List UInt8)) : Except AdaptationError Text :=
  match header l headers idHeader, header l headers timestampHeader, header l headers signatureHeader with
  | some msgId, some timestamp, some sigs =>
    match PyInt.int? (readable timestamp) with
    | none => .error (invalid "webhook-timestamp is not an integer" [])
    | some sent => do
      let late ← clock.outside sent
      if late then .error (invalid "webhook-timestamp is outside the tolerance" [("tolerance_s", .num clock.toleranceS)])
      else tryKeys h msgId timestamp body (offered (readable sigs)) keys
  | _, _, _ =>
    .error (invalid "missing signature headers"
      [("required", .strs [idHeader, timestampHeader, signatureHeader])])

end

/-! ## What is promised of a signature -/

/-- The id encodes, the timestamp is ASCII text of a number that a float holds, if of any, and the
signatures are ASCII. -/
structure Plain (l : Lower) (headers : List (String × Text)) : Prop where
  msgId : ∀ msgId, header l headers idHeader = some msgId → Encodes msgId
  timestamp : ∀ ts, header l headers timestampHeader = some ts →
    (readable ts).toList.all ascii = true ∧ ∀ n, PyInt.int? (readable ts) = some n → n.natAbs < floatLimit
  signatures : ∀ sigs, header l headers signatureHeader = some sigs →
    ∀ sig ∈ offered (readable sigs), sig.all ascii = true

/-- A signature that is offered and fits a key was made by a holder of that key. -/
def Unforgeable (h : Hmac) (l : Lower) (headers : List (String × Text)) (keys : List (List UInt8))
    (calls : List SignCall) : Prop :=
  ∀ sigs, header l headers signatureHeader = some sigs → ∀ key ∈ keys, ∀ message,
    h.text key message ∈ offered (readable sigs) →
    ∃ call ∈ calls, key ∈ call.keys ∧ signed call.msgId (toString call.timestamp) call.body = message

structure SignCall.Exactly (call : SignCall) (msgId timestamp : Text) (body : List UInt8) : Prop where
  msgId : codePoints call.msgId = msgId
  timestamp : codePoints (toString call.timestamp) = timestamp
  body : call.body = body

structure Sound (h : Hmac) (l : Lower) (clock : Clock) : Prop where
  total : ∀ body headers keys, Plain l headers →
    (∃ msgId, header l headers idHeader = some msgId ∧ verify h l clock body headers keys = .ok msgId) ∨
      ∃ message context, verify h l clock body headers keys = .error (invalid message context)
  roundTrip : ∀ (call : SignCall) keys, call.msgId ≠ "" → (∃ key ∈ call.keys, key ∈ keys) →
    call.timestamp.natAbs < floatLimit → clock.tooFar call.timestamp = false →
    ∃ headers, sign h call = .ok headers ∧
      verify h l clock call.body (headers.map fun p => (p.1, codePoints p.2)) keys = .ok (codePoints call.msgId)
  authentic : ∀ body headers keys calls msgId, verify h l clock body headers keys = .ok msgId →
    Unforgeable h l headers keys calls →
    ∃ timestamp, header l headers timestampHeader = some timestamp ∧
      ∃ call ∈ calls, (∃ key ∈ keys, key ∈ call.keys) ∧
        signed call.msgId (toString call.timestamp) call.body = signed (readable msgId) (readable timestamp) body ∧
        ('.' ∉ (readable msgId).toList → '.' ∉ call.msgId.toList → call.Exactly msgId timestamp body)

/-- What a signature would vouch for if the signed text told its parts. -/
def Authentic (h : Hmac) (l : Lower) (clock : Clock) : Prop :=
  ∀ body headers keys calls msgId, verify h l clock body headers keys = .ok msgId →
    Unforgeable h l headers keys calls →
    ∃ timestamp, header l headers timestampHeader = some timestamp ∧
      ∃ call ∈ calls, (∃ key ∈ keys, key ∈ call.keys) ∧ call.Exactly msgId timestamp body

/-! ## Texts -/

theorem readable_codePoints (text : String) : readable (codePoints text) = text := by
  have hsame : ∀ c : Char, (if c.toNat.isValidChar then Char.ofNat c.toNat else '\uFFFD') = c := by
    intro c
    have hvalid : c.toNat.isValidChar := c.valid
    rw [if_pos hvalid, Char.ofNat_toNat]
  rw [readable, codePoints, List.map_map]
  simp only [Function.comp_def, hsame, List.map_id', String.ofList_toList]

theorem codePoints_readable {text : Text} (henc : Encodes text) : codePoints (readable text) = text := by
  rw [readable, codePoints, String.toList_ofList, List.map_map]
  refine (List.map_congr_left fun c hc => ?_).trans (List.map_id _)
  rw [Function.comp_apply, if_pos (henc c hc), Utf8.toNat_ofNat_of_valid (henc c hc), id]

theorem encodes_codePoints (text : String) : Encodes (codePoints text) := by
  intro c hc
  obtain ⟨c, -, rfl⟩ := List.mem_map.mp hc
  exact c.valid

/-- U+FFFD is not ASCII. -/
theorem encodes_of_ascii {text : Text} (hascii : (readable text).toList.all ascii = true) : Encodes text := by
  intro c hc
  by_contra hno
  rw [readable, String.toList_ofList, List.all_map, List.all_eq_true] at hascii
  have h := hascii c hc
  rw [Function.comp_apply, if_neg hno] at h
  exact absurd h (by decide)

theorem codePoints_ne {text : String} (hne : text ≠ "") : codePoints text ≠ [] := by
  intro hnil
  apply hne
  rw [← readable_codePoints text, hnil]
  rfl

/-! ## Comparing signatures -/

section
variable {h : Hmac} {l : Lower} {clock : Clock} {msgId timestamp : Text} {body : List UInt8}
  {sigs : List (List Char)} {headers : List (String × Text)} {keys : List (List UInt8)}

theorem anyDigest_ascii {expected : List Char} (hsigs : ∀ sig ∈ sigs, sig.all ascii = true) :
    anyDigest expected sigs = .ok (Decidable.decide (expected ∈ sigs)) := by
  induction sigs with
  | nil => rfl
  | cons sig sigs ih =>
    rw [anyDigest, if_pos (hsigs sig List.mem_cons_self), ih fun s hs => hsigs s (List.mem_cons_of_mem _ hs)]
    by_cases heq : sig = expected
    · simp [heq]
    · simp [heq, Ne.symm heq]

theorem mem_of_anyDigest {expected : List Char} (hany : anyDigest expected sigs = .ok true) : expected ∈ sigs := by
  induction sigs with
  | nil => cases hany
  | cons sig sigs ih =>
    rw [anyDigest] at hany
    split at hany
    · split at hany
      · rename_i heq
        rw [heq]
        exact List.mem_cons_self
      · exact List.mem_cons_of_mem _ (ih hany)
    · cases hany

theorem outside_small {sent : Int} (hsmall : sent.natAbs < floatLimit) : clock.outside sent = .ok (clock.tooFar sent) := by
  have hnot : ¬floatLimit ≤ sent.natAbs := not_le_of_gt hsmall
  unfold Clock.outside
  rw [if_neg hnot]

theorem mac_ascii (henc : Encodes msgId) (hts : (readable timestamp).toList.all ascii = true) (key : List UInt8) :
    mac h key msgId timestamp body = .ok (h.text key (signed (readable msgId) (readable timestamp) body)) := by
  rw [mac, if_pos ⟨henc, hts⟩]

/-- Without a text that its steps refuse, every key is tried. -/
theorem tryKeys_plain (henc : Encodes msgId) (hts : (readable timestamp).toList.all ascii = true)
    (hsigs : ∀ sig ∈ sigs, sig.all ascii = true) :
    tryKeys h msgId timestamp body sigs keys =
      if ∃ key ∈ keys, h.text key (signed (readable msgId) (readable timestamp) body) ∈ sigs then .ok msgId
      else .error (invalid "no signature matches a known key" []) := by
  induction keys with
  | nil => simp [tryKeys]
  | cons key keys ih =>
    rw [tryKeys, mac_ascii henc hts]
    simp only [bind, Except.bind, anyDigest_ascii hsigs]
    by_cases hmem : h.text key (signed (readable msgId) (readable timestamp) body) ∈ sigs
    · simp [hmem]
    · simp [hmem, ih]

theorem key_of_tryKeys {found : Text} (hok : tryKeys h msgId timestamp body sigs keys = .ok found) :
    found = msgId ∧ (Encodes msgId ∧ (readable timestamp).toList.all ascii = true) ∧
      ∃ key ∈ keys, h.text key (signed (readable msgId) (readable timestamp) body) ∈ sigs := by
  induction keys with
  | nil => cases hok
  | cons key keys ih =>
    obtain ⟨expected, hmac, hok⟩ := bind_ok hok
    obtain ⟨hit, hany, hok⟩ := bind_ok hok
    rw [mac] at hmac
    split at hmac
    · rename_i hplain
      cases hmac
      cases hit with
      | true =>
        cases hok
        exact ⟨rfl, hplain, key, List.mem_cons_self, mem_of_anyDigest hany⟩
      | false =>
        obtain ⟨heq, -, key', hkey', hmem⟩ := ih hok
        exact ⟨heq, hplain, key', List.mem_cons_of_mem _ hkey', hmem⟩
    · cases hmac

/-! ## Verification, step by step -/

/-- What `verify` has read once it tries the keys. -/
structure Read (l : Lower) (clock : Clock) (headers : List (String × Text)) (msgId timestamp signatures : Text)
    (sent : Int) : Prop where
  hasId : header l headers idHeader = some msgId
  hasTimestamp : header l headers timestampHeader = some timestamp
  hasSignatures : header l headers signatureHeader = some signatures
  integer : PyInt.int? (readable timestamp) = some sent
  inTime : clock.outside sent = .ok false

theorem verify_read {signatures : Text} {sent : Int} (hr : Read l clock headers msgId timestamp signatures sent) :
    verify h l clock body headers keys = tryKeys h msgId timestamp body (offered (readable signatures)) keys := by
  rw [verify, hr.hasId, hr.hasTimestamp, hr.hasSignatures]
  simp only [hr.integer, hr.inTime]
  rfl

theorem read_of_verify {found : Text} (hok : verify h l clock body headers keys = .ok found) :
    ∃ timestamp signatures sent, Read l clock headers found timestamp signatures sent ∧
      (Encodes found ∧ (readable timestamp).toList.all ascii = true) ∧
      ∃ key ∈ keys, h.text key (signed (readable found) (readable timestamp) body) ∈ offered (readable signatures) := by
  rw [verify] at hok
  split at hok
  · rename_i msgId timestamp signatures hid hts hsigs
    split at hok
    · cases hok
    · rename_i sent hsent
      obtain ⟨late, hlate, hok⟩ := bind_ok hok
      cases late with
      | true => cases hok
      | false =>
        obtain ⟨rfl, hkey⟩ := key_of_tryKeys hok
        exact ⟨timestamp, signatures, sent, ⟨hid, hts, hsigs, hsent, hlate⟩, hkey⟩
  · cases hok

theorem verify_total (hplain : Plain l headers) :
    (∃ msgId, header l headers idHeader = some msgId ∧ verify h l clock body headers keys = .ok msgId) ∨
      ∃ message context, verify h l clock body headers keys = .error (invalid message context) := by
  rw [verify]
  split
  · rename_i msgId timestamp signatures hid hts hsigs
    obtain ⟨hascii, hfloat⟩ := hplain.timestamp timestamp hts
    split
    · exact .inr ⟨_, _, rfl⟩
    · rename_i sent hsent
      rw [outside_small (hfloat sent hsent)]
      simp only [bind, Except.bind]
      split
      · exact .inr ⟨_, _, rfl⟩
      rw [tryKeys_plain (hplain.msgId msgId hid) hascii (hplain.signatures signatures hsigs)]
      split
      · exact .inl ⟨msgId, hid, rfl⟩
      · exact .inr ⟨_, _, rfl⟩
  · exact .inr ⟨_, _, rfl⟩

/-! ## The headers of a call -/

theorem base64_range {c : Char} (hc : base64Char c = true) : 43 ≤ c.toNat ∧ c.toNat ≤ 122 := by
  have hval : c.toNat = c.val.toNat := rfl
  have hcases : (65 ≤ c.val ∧ c.val ≤ 90 ∨ 97 ≤ c.val ∧ c.val ≤ 122) ∨
    (48 ≤ c.val ∧ c.val ≤ 57) ∨ c = '+' ∨ c = '/' ∨
      c = '=' := by
    have hchar : (((Decidable.decide (65 ≤ c.val ∧ c.val ≤ 90) ||
      (Decidable.decide (97 ≤ c.val) && Decidable.decide (c.val ≤ 122))) ||
        (Decidable.decide (48 ≤ c.val) && Decidable.decide (c.val ≤ 57))) || c == '+' || c ==
          '/' || c == '=') = true := hc
    simp only [Bool.or_eq_true, Bool.and_eq_true, decide_eq_true_eq, beq_iff_eq] at hchar
    tauto
  simp only [UInt32.le_iff_toNat_le] at hcases
  rcases hcases with (hcases | hcases) | hcases | rfl | rfl | rfl
  · exact ⟨by rw [hval]; exact le_trans (by decide) hcases.1, by rw [hval]; exact hcases.2.trans (by decide)⟩
  · exact ⟨by rw [hval]; exact le_trans (by decide) hcases.1, by rw [hval]; exact hcases.2⟩
  · exact ⟨by rw [hval]; exact le_trans (by decide) hcases.1, by rw [hval]; exact hcases.2.trans (by decide)⟩
  · decide
  · decide
  · decide

theorem ascii_base64 {c : Char} (hc : base64Char c = true) : ascii c = true := by
  have := (base64_range hc).2
  simp only [ascii, decide_eq_true_eq]
  omega

theorem isSpace_base64 {c : Char} (hc : base64Char c = true) : isSpace c = false := by
  obtain ⟨hlow, hhigh⟩ := base64_range hc
  have hblank : c ≠ ' ' := by
    rintro rfl
    exact absurd hlow (by decide)
  have hwide : c.toNat ∉ PyInt.wideBlanks := by
    intro hmem
    simp only [PyInt.wideBlanks, List.mem_cons, List.not_mem_nil, or_false] at hmem
    omega
  have h13 : ¬c.toNat ≤ 13 := by omega
  have h31 : ¬c.toNat ≤ 31 := by omega
  simp [isSpace, PyInt.blank, hblank, hwide, h13, h31]

/-- A word is found in front of a blank; without a character it is none. -/
theorem words_append {p : List Char} (hspace : ∀ c ∈ p, isSpace c = false) (text : List Char) :
    words (p ++ ' ' :: text) = [p].filter (!·.isEmpty) ++ words text := by
  rw [words, List.splitOnP_append_cons_of_forall_mem hspace ' ' rfl]
  exact List.filter_append [p] _

/-- Parts without blanks are found again in the text they are joined to. -/
theorem words_intercalate : ∀ {parts : List (List Char)}, (∀ p ∈ parts, p ≠ [] ∧ ∀ c ∈ p, isSpace c = false) →
    words ([' '].intercalate parts) = parts
  | [], _ => rfl
  | [p], hparts => by
    obtain ⟨hne, hspace⟩ := hparts p List.mem_cons_self
    rw [words, List.intercalate_singleton, List.splitOnP_eq_singleton hspace]
    simp [hne]
  | p :: p' :: parts, hparts => by
    obtain ⟨hne, hspace⟩ := hparts p List.mem_cons_self
    have ih := words_intercalate fun x hx => hparts x (List.mem_cons_of_mem _ hx)
    have hjoin : [' '].intercalate (p :: p' :: parts) = p ++ ' ' :: [' '].intercalate (p' :: parts) := by simp
    rw [hjoin, words_append hspace, ih]
    simp [hne]

theorem partition_version (m : List Char) : partition (version ++ ',' :: m) = (version, m) := rfl

theorem offered_signatures {macs : List (List Char)} (hmacs : ∀ m ∈ macs, ∀ c ∈ m, base64Char c = true) :
    offered (signatures macs) = macs := by
  have hparts : ∀ p ∈ macs.map fun m => version ++ ',' :: m, p ≠ [] ∧ ∀ c ∈ p, isSpace c = false := by
    intro p hp
    obtain ⟨m, hm, rfl⟩ := List.mem_map.mp hp
    refine ⟨by simp [version], fun c hc => ?_⟩
    simp only [version, List.cons_append, List.nil_append, List.mem_cons] at hc
    rcases hc with rfl | rfl | rfl | hc
    · decide
    · decide
    · decide
    · exact isSpace_base64 (hmacs m hm c hc)
  have hsome : ∀ m ∈ macs, ((fun p : List Char × List Char => if p.1 = version then some p.2 else none) ∘ partition ∘
      fun m => version ++ ',' :: m) m = some m := fun m _ => by simp [partition_version]
  rw [offered, signatures, String.toList_ofList, words_intercalate hparts, List.map_map, List.filterMap_map,
    List.filterMap_congr hsome, List.filterMap_some]

theorem ascii_toString (n : Int) : (toString n).toList.all ascii = true := by
  rw [List.all_eq_true]
  intro c hc
  have hdigit : ∀ c ∈ Nat.toDigits 10 n.natAbs, ascii c = true := by
    intro c hc
    have := (PyInt.toNat_digit (PyInt.isDigit_of_mem hc)).2
    simp only [ascii, decide_eq_true_eq]
    omega
  rw [PyInt.toList_toString] at hc
  split at hc
  · exact hdigit c hc
  · rcases List.mem_cons.mp hc with rfl | hc
    · decide
    · exact hdigit c hc

theorem toString_ne (n : Int) : toString n ≠ "" := by
  intro heq
  have hlist := congrArg String.toList heq
  rw [PyInt.toList_toString] at hlist
  split at hlist
  · exact Nat.toDigits_ne_nil hlist
  · cases hlist

/-- The headers of a signed message are read back. -/
theorem header_signed {i t g : Text} (hi : i ≠ []) (ht : t ≠ []) (hg : g ≠ []) :
    header l [(idHeader, i), (timestampHeader, t), (signatureHeader, g)] idHeader = some i ∧
      header l [(idHeader, i), (timestampHeader, t), (signatureHeader, g)] timestampHeader = some t ∧
      header l [(idHeader, i), (timestampHeader, t), (signatureHeader, g)] signatureHeader = some g := by
  have h₁ : l.lower idHeader = idHeader := l.lower_names _ (by simp)
  have h₂ : l.lower timestampHeader = timestampHeader := l.lower_names _ (by simp)
  have h₃ : l.lower signatureHeader = signatureHeader := l.lower_names _ (by simp)
  have h₁₂ : (idHeader == timestampHeader) = false := by decide
  have h₁₃ : (idHeader == signatureHeader) = false := by decide
  have h₂₃ : (timestampHeader == signatureHeader) = false := by decide
  simp [header, h₁, h₂, h₃, List.lookup_cons, h₁₂, h₁₃, h₂₃, hi, ht, hg]

theorem sign_eq {call : SignCall} (hfloat : call.timestamp.natAbs < floatLimit) :
    sign h call = .ok ([(idHeader, call.msgId), (timestampHeader, toString call.timestamp)] ++
      if call.keys.isEmpty then [] else [(signatureHeader, signatures (call.keys.map fun key =>
        h.text key (signed call.msgId (toString call.timestamp) call.body)))]) := by
  have hmac : ∀ key, mac h key (codePoints call.msgId) (codePoints (toString call.timestamp)) call.body =
      .ok (h.text key (signed call.msgId (toString call.timestamp) call.body)) := by
    intro key
    have hascii : (readable (codePoints (toString call.timestamp))).toList.all ascii = true := by
      rw [readable_codePoints]
      exact ascii_toString call.timestamp
    rw [mac_ascii (encodes_codePoints _) hascii, readable_codePoints, readable_codePoints]
  have hmacs : call.keys.mapM (fun key => mac h key (codePoints call.msgId)
    (codePoints (toString call.timestamp)) call.body) =
      .ok (call.keys.map fun key => h.text key (signed call.msgId (toString call.timestamp) call.body)) :=
    mapM_ok_map fun key _ => hmac key
  rw [sign, if_neg (Nat.not_lt.mpr (PyInt.width_le hfloat))]
  simp only [hmacs, bind, Except.bind]

theorem sign_ok {call : SignCall} (hfloat : call.timestamp.natAbs < floatLimit) (hkeys : call.keys ≠ []) :
    sign h call = .ok [(idHeader, call.msgId), (timestampHeader, toString call.timestamp),
      (signatureHeader, signatures (call.keys.map fun key =>
        h.text key (signed call.msgId (toString call.timestamp) call.body)))] := by
  have hempty : call.keys.isEmpty = false := List.isEmpty_eq_false_iff.mpr hkeys
  rw [sign_eq hfloat, hempty]
  rfl

theorem verify_signed {call : SignCall} (hid : call.msgId ≠ "") (hshared : ∃ key ∈ call.keys, key ∈ keys)
    (hfloat : call.timestamp.natAbs < floatLimit) (hin : clock.tooFar call.timestamp = false) :
    ∃ headers, sign h call = .ok headers ∧
      verify h l clock call.body (headers.map fun p => (p.1, codePoints p.2)) keys = .ok (codePoints call.msgId) := by
  obtain ⟨key, hkey, hkeys⟩ := hshared
  refine ⟨_, sign_ok hfloat (List.ne_nil_of_mem hkey), ?_⟩
  have hmacs : ∀ m ∈ call.keys.map fun key => h.text key (signed call.msgId (toString call.timestamp) call.body),
      ∀ c ∈ m, base64Char c = true := by
    intro m hm
    obtain ⟨key, -, rfl⟩ := List.mem_map.mp hm
    exact h.text_chars _ _
  have hsigs := offered_signatures hmacs
  have hne : signatures (call.keys.map fun key =>
      h.text key (signed call.msgId (toString call.timestamp) call.body)) ≠ "" := by
    intro heq
    rw [heq] at hsigs
    have hnil := congrArg List.length hsigs
    rw [List.length_map] at hnil
    have hzero : (offered "").length = 0 := rfl
    rw [hzero] at hnil
    exact List.ne_nil_of_mem hkey (List.length_eq_zero_iff.mp hnil.symm)
  obtain ⟨h₁, h₂, h₃⟩ :=
    header_signed (l := l) (codePoints_ne hid) (codePoints_ne (toString_ne call.timestamp)) (codePoints_ne hne)
  have hint : PyInt.int? (readable (codePoints (toString call.timestamp))) = some call.timestamp := by
    rw [readable_codePoints]
    exact PyInt.int?_toString (PyInt.width_le hfloat)
  have hascii : (readable (codePoints (toString call.timestamp))).toList.all ascii = true := by
    rw [readable_codePoints]
    exact ascii_toString _
  simp only [List.map_cons, List.map_nil]
  rw [verify_read ⟨h₁, h₂, h₃, hint, (outside_small hfloat).trans (congrArg _ hin)⟩, readable_codePoints, hsigs,
    tryKeys_plain (encodes_codePoints _) hascii fun sig hsig => ?_, readable_codePoints, readable_codePoints,
    if_pos ⟨key, hkeys, List.mem_map_of_mem hkey⟩]
  rw [List.all_eq_true]
  exact fun c hc => ascii_base64 (hmacs sig hsig c hc)

/-! ## What an accepted message was signed as -/

theorem dot_encode {text : String} (hdot : '.' ∉ text.toList) : dot ∉ Utf8.encode text := fun hmem =>
  hdot (Utf8.mem_of_mem_encode (by decide) hmem)

theorem no_dot_toString (n : Int) : '.' ∉ (toString n).toList := by
  intro hmem
  rw [PyInt.toList_toString] at hmem
  have hdigits : '.' ∉ Nat.toDigits 10 n.natAbs := fun hmem => by cases PyInt.isDigit_of_mem hmem
  split at hmem
  · exact hdigits hmem
  · rcases List.mem_cons.mp hmem with heq | hmem
    · cases heq
    · exact hdigits hmem

theorem no_dot_int? {text : String} {n : Int} (hint : PyInt.int? text = some n) : '.' ∉ text.toList := fun hmem =>
  absurd (PyInt.int?_numeric hint '.' hmem) (by decide)

/-- Without dots in the ids and the timestamps, the signed text tells its three parts. -/
theorem signed_inj {msgId timestamp msgId' timestamp' : String} {body' : List UInt8} (hid : '.' ∉ msgId.toList)
    (hid' : '.' ∉ msgId'.toList) (hts : '.' ∉ timestamp.toList) (hts' : '.' ∉ timestamp'.toList)
    (heq : signed msgId timestamp body = signed msgId' timestamp' body') :
    msgId = msgId' ∧ timestamp = timestamp' ∧ body = body' := by
  obtain ⟨hids, hrest⟩ := Separators.join_inj_left (dot_encode hid) (dot_encode hid') heq
  obtain ⟨htimes, hbody⟩ := Separators.join_inj_left (dot_encode hts) (dot_encode hts') hrest
  exact ⟨Utf8.encode_inj hids, Utf8.encode_inj htimes, hbody⟩

end

/-- Verification returns or raises its own error on plain headers, accepts what was signed, and
accepts nothing else but what reads the same when it is signed. -/
theorem verify_sound (h : Hmac) (l : Lower) (clock : Clock) : Sound h l clock where
  total body headers keys hplain := verify_total hplain
  roundTrip call keys hid hshared hfloat hin := verify_signed hid hshared hfloat hin
  authentic body headers keys calls msgId hok hunforgeable := by
    obtain ⟨timestamp, signatures, sent, hread, ⟨henc, hascii⟩, key, hkey, hmem⟩ := read_of_verify hok
    obtain ⟨call, hcall, hkey', hsame⟩ := hunforgeable signatures hread.hasSignatures key hkey _ hmem
    refine ⟨timestamp, hread.hasTimestamp, call, hcall, ⟨key, hkey, hkey'⟩, hsame, fun hid hid' => ?_⟩
    obtain ⟨h₁, h₂, h₃⟩ := signed_inj hid' hid (no_dot_toString _) (no_dot_int? hread.integer) hsame
    exact ⟨h₁ ▸ codePoints_readable henc, h₂ ▸ codePoints_readable (encodes_of_ascii hascii), h₃⟩

/-! ## An id with a dot -/

/-- As many letters as the message has among all messages. -/
def letters (_ message : List UInt8) : List Char := List.replicate (Encodable.encode (message.map UInt8.toNat)) 'A'

theorem letters_chars (key message : List UInt8) : ∀ c ∈ letters key message, base64Char c = true := by
  intro c hc
  rw [List.eq_of_mem_replicate hc]
  rfl

theorem letters_inj {key key' message message' : List UInt8} (heq : letters key message = letters key' message') :
    message = message' := by
  have hlength := congrArg List.length heq
  rw [letters, letters, List.length_replicate, List.length_replicate] at hlength
  exact List.map_injective_iff.mpr (fun _ _ => UInt8.toNat_inj.mp) (Encodable.encode_injective hlength)

def letterHmac : Hmac := ⟨letters, letters_chars⟩

theorem lower_names : ∀ name ∈ [idHeader, timestampHeader, signatureHeader], id name = name := fun _ _ => rfl

def sameLower : Lower := ⟨id, lower_names⟩

def stopped : Clock := ⟨fun _ => false, 60⟩

def signedCall : SignCall := ⟨"a", Utf8.encode "5.x", [[0]], 1⟩

/-- The same text read as the id `a.1`, the timestamp `5` and the body `x`. -/
def shiftedHeaders : List (String × Text) :=
  [(idHeader, codePoints "a.1"), (timestampHeader, codePoints "5"),
    (signatureHeader, codePoints (signatures [letters [0] (signed "a" "1" (Utf8.encode "5.x"))]))]

theorem dotted_id_accepted : ¬Authentic letterHmac sameLower stopped := by
  intro hauthentic
  have hmacs : ∀ m ∈ [letters [0] (signed "a" "1" (Utf8.encode "5.x"))], ∀ c ∈ m, base64Char c = true := by
    intro m hm
    rw [List.mem_singleton.mp hm]
    exact letters_chars _ _
  have hsigs := offered_signatures hmacs
  have hshift : signed "a.1" "5" (Utf8.encode "x") = signed "a" "1" (Utf8.encode "5.x") := by decide
  have hne : signatures [letters [0] (signed "a" "1" (Utf8.encode "5.x"))] ≠ "" := by
    intro heq
    rw [heq] at hsigs
    cases hsigs
  obtain ⟨h₁, h₂, h₃⟩ :=
    header_signed (l := sameLower) (i := codePoints "a.1") (t := codePoints "5") (by decide) (by decide)
    (codePoints_ne hne)
  have hok : verify letterHmac sameLower stopped (Utf8.encode "x") shiftedHeaders [[0]] = .ok (codePoints "a.1") := by
    have hsmall : (5 : Int).natAbs < floatLimit :=
      calc (5 : Int).natAbs < power 3 := by decide
        _ ≤ power 970 := PyInt.power_mono (by decide)
        _ ≤ floatLimit := PyInt.le_floatLimit
    have hread : Read sameLower stopped shiftedHeaders (codePoints "a.1") (codePoints "5") _ 5 :=
      ⟨h₁, h₂, h₃, by decide, outside_small hsmall⟩
    have hascii : ∀ sig ∈ [letters [0] (signed "a" "1" (Utf8.encode "5.x"))], sig.all ascii = true := by
      intro sig hsig
      rw [List.all_eq_true]
      exact fun c hc => ascii_base64 (hmacs sig hsig c hc)
    have hmem : letterHmac.text [0] (signed (readable (codePoints "a.1")) (readable (codePoints "5")) (Utf8.encode "x")) ∈
        [letters [0] (signed "a" "1" (Utf8.encode "5.x"))] := by
      rw [readable_codePoints, readable_codePoints, hshift]
      exact List.mem_singleton_self _
    rw [verify_read hread, readable_codePoints, hsigs, tryKeys_plain (encodes_codePoints _) (by decide) hascii,
      if_pos ⟨[0], List.mem_singleton_self _, hmem⟩]
  have hunforgeable : Unforgeable letterHmac sameLower shiftedHeaders [[0]] [signedCall] := by
    intro sigs hheader key hkey message hmem
    rw [shiftedHeaders, h₃] at hheader
    rw [← Option.some.inj hheader, readable_codePoints, hsigs] at hmem
    refine ⟨signedCall, List.mem_singleton_self _, hkey, ?_⟩
    have heq : letters key message = letters [0] (signed "a" "1" (Utf8.encode "5.x")) := List.mem_singleton.mp hmem
    exact (letters_inj heq).symm
  obtain ⟨timestamp, -, call, hcall, -, hexact⟩ := hauthentic _ _ _ _ _ hok hunforgeable
  rw [List.mem_singleton.mp hcall] at hexact
  exact absurd hexact.msgId (by decide)

end OranAdapt.Signing
