import Mathlib.Data.List.DropRight
import OranAdapt.Onboarding
import OranAdapt.Separators

/-!
# Names of serving objects

`dns_name` of `adapters.deployment._common`. A name that is a label already is
kept; any other one is rewritten, cut, and told apart by a hash of the text it
was made of. Names that were kept carry no mark of it, so one of them can read
like a rewritten one.
-/

namespace OranAdapt

/-- `hashlib.sha256(text.encode()).hexdigest()` -/
structure Sha256 where
  hexdigest : String → String
  hexdigest_length : ∀ s, (hexdigest s).toList.length = 64
  hexdigest_chars : ∀ s, ∀ c ∈ (hexdigest s).toList, c ∈ "0123456789abcdef".toList

namespace DnsNames

def dnsMax : Nat := 63

def labelChar (c : Char) : Bool := ('a' ≤ c && c ≤ 'z') || ('0' ≤ c && c ≤ '9') || c == '-'

/-- `re.sub(r"[^a-z0-9-]", "-", text)` -/
def dashed (text : List Char) : List Char := text.map fun c => if labelChar c then c else '-'

def rstrip (text : List Char) : List Char := text.rdropWhile (· = '-')

def strip (text : List Char) : List Char := rstrip (text.dropWhile (· = '-'))

def orM (text : List Char) : List Char := if text = [] then ['m'] else text

def lettered (text : List Char) : List Char := if text.head?.any Char.isAlpha then text else 'm' :: text

section
variable (lower : String → String)

def base (raw : String) : List Char := lettered (orM (strip (dashed (lower raw).toList)))

/-- The text passes unchanged. -/
def Kept (raw : String) : Prop := base lower raw = raw.toList ∧ (base lower raw).length ≤ dnsMax

instance (raw : String) : Decidable (Kept lower raw) := inferInstanceAs (Decidable (_ ∧ _))

variable (sha : Sha256)

def digest (raw : String) : List Char := (sha.hexdigest raw).toList.take 10

/-- What a rewritten name keeps of the letters. -/
def stem (raw : String) : List Char := rstrip ((base lower raw).take (dnsMax - (digest sha raw).length - 1))

def nameOf (raw : String) : List Char :=
  if Kept lower raw then base lower raw else Separators.join '-' (stem lower sha raw) (digest sha raw)

def dnsName (host : Onboarding.Host) (namePrefix model : String) : Except AdaptationError String := do
  Onboarding.checkModelName host model
  .ok (String.ofList (nameOf lower sha (namePrefix ++ model)))

end

structure IsLabel (name : List Char) : Prop where
  chars : ∀ c ∈ name, labelChar c = true
  length_le : name.length ≤ dnsMax
  head : ∃ c, name.head? = some c ∧ c ≠ '-'
  last : ∃ c, name.getLast? = some c ∧ c ≠ '-'

/-- What is promised of the names of two models. -/
structure Apart (lower : String → String) (sha : Sha256) (host : Onboarding.Host)
    (namePrefix model model' : String) : Prop where
  differ : dnsName lower sha host namePrefix model ≠ dnsName lower sha host namePrefix model'
  label : ∃ name, dnsName lower sha host namePrefix model = .ok name ∧ IsLabel name.toList
  label' : ∃ name, dnsName lower sha host namePrefix model' = .ok name ∧ IsLabel name.toList

/-- The first text passes unchanged and reads like the second one rewritten: the second one's
letters, a hyphen, and ten digits of the second one's hash. -/
structure ReadsLike (lower : String → String) (sha : Sha256) (raw raw' : String) : Prop where
  kept : Kept lower raw
  rewritten : ¬Kept lower raw'
  parts : raw.toList = Separators.join '-' (stem lower sha raw') (digest sha raw')

instance (lower : String → String) (sha : Sha256) (raw raw' : String) : Decidable (ReadsLike lower sha raw raw') :=
  decidable_of_iff (Kept lower raw ∧ ¬Kept lower raw' ∧
      raw.toList = Separators.join '-' (stem lower sha raw') (digest sha raw'))
    ⟨fun h => ⟨h.1, h.2.1, h.2.2⟩, fun h => ⟨h.kept, h.rewritten, h.parts⟩⟩

/-! ## Stripped texts -/

section
variable {text : List Char} {c : Char}

theorem labelChar_of_mem_dashed (h : c ∈ dashed text) : labelChar c = true := by
  obtain ⟨d, -, rfl⟩ := List.mem_map.mp h
  split
  · assumption
  · rfl

theorem mem_of_mem_rstrip (h : c ∈ rstrip text) : c ∈ text :=
  (List.rdropWhile_prefix _ _).subset h

theorem mem_of_mem_strip (h : c ∈ strip text) : c ∈ text :=
  (List.dropWhile_suffix _).subset (mem_of_mem_rstrip h)

theorem rstrip_last (h : (rstrip text).getLast? = some c) : c ≠ '-' := by
  have hne : rstrip text ≠ [] := by
    intro hnil
    rw [hnil] at h
    cases h
  rw [List.getLast?_eq_some_getLast hne, Option.some.injEq] at h
  have hlast : ¬decide ((rstrip text).getLast hne = '-') = true := List.rdropWhile_last_not _ _ hne
  rw [← h]
  simpa using hlast

theorem rstrip_cons (hc : c ≠ '-') (text : List Char) : ∃ rest, rstrip (c :: text) = c :: rest := by
  cases h : rstrip (c :: text) with
  | nil =>
    have hall := List.rdropWhile_eq_nil_iff.mp h c List.mem_cons_self
    exact absurd (of_decide_eq_true hall) hc
  | cons d rest =>
    have hprefix : d :: rest <+: c :: text := h ▸ List.rdropWhile_prefix _ _
    rw [(List.cons_prefix_cons.mp hprefix).1]
    exact ⟨rest, rfl⟩

theorem mem_orM (h : c ∈ orM text) : c = 'm' ∨ c ∈ text := by
  unfold orM at h
  split at h
  · exact .inl (List.mem_singleton.mp h)
  · exact .inr h

theorem orM_last (h : (orM text).getLast? = some c) : c = 'm' ∨ text.getLast? = some c := by
  unfold orM at h
  split at h
  · exact .inl (Option.some.inj h).symm
  · exact .inr h

theorem lettered_head (text : List Char) : ∃ c rest, lettered text = c :: rest ∧ c.isAlpha = true := by
  unfold lettered
  split
  · rename_i h
    obtain ⟨c, hc, halpha⟩ := (Option.any_eq_true _ _).mp h
    exact ⟨c, _, List.eq_cons_of_mem_head? hc, halpha⟩
  · exact ⟨'m', _, rfl, rfl⟩

theorem mem_lettered (h : c ∈ lettered text) : c = 'm' ∨ c ∈ text := by
  unfold lettered at h
  split at h
  · exact .inr h
  · exact List.mem_cons.mp h

theorem lettered_last (h : (lettered text).getLast? = some c) : c = 'm' ∨ text.getLast? = some c := by
  unfold lettered at h
  split at h
  · exact .inr h
  · cases text with
    | nil => exact .inl (Option.some.inj h).symm
    | cons d rest => exact .inr (by rwa [List.getLast?_cons_cons] at h)

end

/-! ## The letters of a name -/

section
variable (lower : String → String) (sha : Sha256) (raw : String)

theorem base_head : ∃ c rest, base lower raw = c :: rest ∧ c.isAlpha = true := lettered_head _

theorem base_chars : ∀ c ∈ base lower raw, labelChar c = true := by
  intro c hc
  rcases mem_lettered hc with rfl | hc
  · rfl
  rcases mem_orM hc with rfl | hc
  · rfl
  · exact labelChar_of_mem_dashed (mem_of_mem_strip hc)

theorem base_last {c : Char} (h : (base lower raw).getLast? = some c) : c ≠ '-' := by
  rcases lettered_last h with rfl | h
  · decide
  rcases orM_last h with rfl | h
  · decide
  · exact rstrip_last h

theorem isAlpha_ne_hyphen {c : Char} (h : c.isAlpha = true) : c ≠ '-' := by
  rintro rfl
  cases h

theorem digest_length : (digest sha raw).length = 10 := by
  rw [digest, List.length_take, sha.hexdigest_length]
  rfl

theorem hexDigit_chars : ∀ c ∈ "0123456789abcdef".toList, labelChar c = true ∧ c ≠ '-' := by
  have hall : ("0123456789abcdef".toList.all fun c => labelChar c && c != '-') = true := by decide +kernel
  intro c hc
  have hchar := List.all_eq_true.mp hall c hc
  rw [Bool.and_eq_true, bne_iff_ne] at hchar
  exact hchar

theorem digest_chars : ∀ c ∈ digest sha raw, labelChar c = true ∧ c ≠ '-' := fun c hc =>
  hexDigit_chars c (sha.hexdigest_chars raw c (List.mem_of_mem_take hc))

theorem stem_head : ∃ c rest, stem lower sha raw = c :: rest ∧ c.isAlpha = true := by
  obtain ⟨c, rest, hbase, halpha⟩ := base_head lower raw
  rw [stem, hbase, digest_length]
  obtain ⟨kept, hkept⟩ := rstrip_cons (isAlpha_ne_hyphen halpha) (rest.take 51)
  exact ⟨c, kept, hkept, halpha⟩

theorem stem_chars : ∀ c ∈ stem lower sha raw, labelChar c = true := fun c hc =>
  base_chars lower raw c (List.mem_of_mem_take (mem_of_mem_rstrip hc))

theorem stem_length : (stem lower sha raw).length ≤ 52 := by
  have hprefix : (stem lower sha raw).length ≤ _ := (List.rdropWhile_prefix _ _).length_le
  rw [List.length_take, digest_length] at hprefix
  exact le_trans hprefix (min_le_left _ _)

/-! ## Every name is a label -/

theorem kept_label (h : Kept lower raw) : IsLabel (base lower raw) where
  chars := base_chars lower raw
  length_le := h.2
  head := by
    obtain ⟨c, rest, hbase, halpha⟩ := base_head lower raw
    exact ⟨c, by rw [hbase]; rfl, isAlpha_ne_hyphen halpha⟩
  last := by
    obtain ⟨c, rest, hbase, -⟩ := base_head lower raw
    have hlast : (base lower raw).getLast? = some ((base lower raw).getLast (by rw [hbase]; exact List.cons_ne_nil _ _)) :=
      List.getLast?_eq_some_getLast _
    exact ⟨_, hlast, base_last lower raw hlast⟩

theorem rewritten_label : IsLabel (Separators.join '-' (stem lower sha raw) (digest sha raw)) where
  chars := by
    intro c hc
    rcases List.mem_append.mp hc with hc | hc
    · exact stem_chars lower sha raw c hc
    rcases List.mem_cons.mp hc with rfl | hc
    · rfl
    · exact (digest_chars sha raw c hc).1
  length_le := by
    have hstem := stem_length lower sha raw
    rw [Separators.join, List.length_append, List.length_cons, digest_length]
    exact Nat.add_le_add_right hstem 11
  head := by
    obtain ⟨c, rest, hstem, halpha⟩ := stem_head lower sha raw
    exact ⟨c, by rw [hstem]; rfl, isAlpha_ne_hyphen halpha⟩
  last := by
    have hne : digest sha raw ≠ [] := List.ne_nil_of_length_pos (by rw [digest_length]; decide)
    refine ⟨(digest sha raw).getLast hne, ?_, (digest_chars sha raw _ (List.getLast_mem hne)).2⟩
    rw [Separators.join, List.getLast?_append_cons, List.getLast?_cons, List.getLast?_eq_some_getLast hne]
    rfl

theorem nameOf_label : IsLabel (nameOf lower sha raw) := by
  unfold nameOf
  split
  · rename_i h
    exact kept_label lower raw h
  · exact rewritten_label lower sha raw

/-! ## When names differ -/

variable {lower sha raw} {raw' : String}

theorem nameOf_kept (h : Kept lower raw) : nameOf lower sha raw = raw.toList := by
  rw [nameOf, if_pos h, h.1]

theorem nameOf_rewritten (h : ¬Kept lower raw) :
    nameOf lower sha raw = Separators.join '-' (stem lower sha raw) (digest sha raw) := by
  rw [nameOf, if_neg h]

/-- Two texts get one name only where one of them reads like the other, unless their hashes collide. -/
theorem nameOf_eq_iff (hne : raw ≠ raw') (hdigest : digest sha raw ≠ digest sha raw') :
    nameOf lower sha raw = nameOf lower sha raw' ↔ ReadsLike lower sha raw raw' ∨ ReadsLike lower sha raw' raw := by
  have hhyphen : ∀ s, '-' ∉ digest sha s := fun s hmem => (digest_chars sha s _ hmem).2 rfl
  have hkept : ∀ s, nameOf lower sha s =
      if Kept lower s then s.toList else Separators.join '-' (stem lower sha s) (digest sha s) := by
    intro s
    by_cases hk : Kept lower s
    · rw [nameOf_kept hk, if_pos hk]
    · rw [nameOf_rewritten hk, if_neg hk]
  rw [hkept, hkept, Separators.kept_eq_iff (fun h => hne (String.toList_inj.mp h)) hdigest (hhyphen raw) (hhyphen raw')]
  constructor
  · rintro (⟨hk, hk', hparts⟩ | ⟨hk', hk, hparts⟩)
    · exact .inl ⟨hk, hk', hparts⟩
    · exact .inr ⟨hk', hk, hparts⟩
  · rintro (h | h)
    · exact .inl ⟨h.kept, h.rewritten, h.parts⟩
    · exact .inr ⟨h.kept, h.rewritten, h.parts⟩

end

/-! ## The names of two models -/

section
variable (lower : String → String) (sha : Sha256) (host : Onboarding.Host) (namePrefix : String)

theorem dnsName_ok {model : String} (h : Onboarding.validModelName model = true) :
    dnsName lower sha host namePrefix model = .ok (String.ofList (nameOf lower sha (namePrefix ++ model))) := by
  rw [dnsName, Onboarding.checkModelName, if_pos h]
  rfl

theorem dnsName_label {model : String} (h : Onboarding.validModelName model = true) :
    ∃ name, dnsName lower sha host namePrefix model = .ok name ∧ IsLabel name.toList := by
  refine ⟨_, dnsName_ok lower sha host namePrefix h, ?_⟩
  rw [String.toList_ofList]
  exact nameOf_label lower sha _

/-- Two models whose hashes do not collide get two names unless one of them reads like the other. -/
theorem names_apart {model model' : String} (hm : Onboarding.validModelName model = true)
    (hm' : Onboarding.validModelName model' = true) (hne : model ≠ model')
    (hdigest : digest sha (namePrefix ++ model) ≠ digest sha (namePrefix ++ model')) :
    Apart lower sha host namePrefix model model' ↔
      ¬ReadsLike lower sha (namePrefix ++ model) (namePrefix ++ model') ∧
        ¬ReadsLike lower sha (namePrefix ++ model') (namePrefix ++ model) := by
  have hraw : namePrefix ++ model ≠ namePrefix ++ model' := by
    intro h
    rw [← String.toList_inj, String.toList_append, String.toList_append, List.append_cancel_left_eq, String.toList_inj] at h
    exact hne h
  rw [← not_or, ← nameOf_eq_iff hraw hdigest]
  constructor
  · intro h heq
    apply h.differ
    rw [dnsName_ok _ _ _ _ hm, dnsName_ok _ _ _ _ hm', heq]
  · intro h
    refine ⟨fun heq => h ?_, dnsName_label _ _ _ _ hm, dnsName_label _ _ _ _ hm'⟩
    rw [dnsName_ok _ _ _ _ hm, dnsName_ok _ _ _ _ hm', Except.ok.injEq, ← String.toList_inj, String.toList_ofList,
      String.toList_ofList] at heq
    exact heq

end

def fooHexdigest (text : String) : String :=
  if text = "Foo" then "1cbec737f863e4922cee63cc2ebbfaafcd1cff8b790d8cfd2e6a5d550b648afa"
  else if text = "foo-1cbec737f8" then "f960523481243e54ab92f2dbe6331f0d10cc7bee5b3b35122d5bbd0fbfd3e340"
  else "0000000000000000000000000000000000000000000000000000000000000000"

theorem fooHexdigest_length (s : String) : (fooHexdigest s).toList.length = 64 := by
  unfold fooHexdigest
  split
  · decide +kernel
  · split <;> decide +kernel

theorem fooHexdigest_chars (s : String) : ∀ c ∈ (fooHexdigest s).toList, c ∈ "0123456789abcdef".toList := by
  have hall : (fooHexdigest s).toList.all (fun c => decide (c ∈ "0123456789abcdef".toList)) = true := by
    unfold fooHexdigest
    split
    · decide +kernel
    · split <;> decide +kernel
  exact fun c hc => of_decide_eq_true (List.all_eq_true.mp hall c hc)

def fooSha : Sha256 where
  hexdigest := fooHexdigest
  hexdigest_length := fooHexdigest_length
  hexdigest_chars := fooHexdigest_chars

def plainHost : Onboarding.Host where
  sha256 := id
  repr := id
  lengths := false
  maxBytes := 0

def asciiLower (s : String) : String := String.ofList (s.toList.map Char.toLower)

theorem names_apart_foo_bar : Apart asciiLower fooSha plainHost "" "Foo" "bar" :=
  (names_apart asciiLower fooSha plainHost "" (by decide +kernel) (by decide +kernel) (by decide) (by decide +kernel)).mpr
    (by decide +kernel)

/-- `Foo` is served under the name that another model keeps. -/
theorem foo_shares_its_name :
    Onboarding.validModelName "Foo" = true ∧ Onboarding.validModelName "foo-1cbec737f8" = true ∧
      digest fooSha "Foo" ≠ digest fooSha "foo-1cbec737f8" ∧
      ¬Apart asciiLower fooSha plainHost "" "Foo" "foo-1cbec737f8" :=
  ⟨by decide +kernel, by decide +kernel, by decide +kernel, fun h => h.differ (by decide +kernel)⟩

end DnsNames

end OranAdapt
