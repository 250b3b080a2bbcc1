import OranAdapt.DnsNames
import OranAdapt.PyStr

/-!
# Names of cloud objects

`group_name` and the endpoint name of SageMaker, and `model_id` of Vertex. As
with serving objects, a name that will do is kept, and any other one is
rewritten, cut, and told apart by a hash. Whether a group's name will do is
judged by a pattern that counts letters and digits and no hyphens.
-/

namespace OranAdapt.CloudNames

open DnsNames (digest strip lettered)
open Onboarding (Host alnum validModelName checkModelName)

def groupMax : Nat := 63

def idMax : Nat := 63

def groupChar (c : Char) : Bool := alnum c || c == '-'

/-- `(-*[a-zA-Z0-9]){0,n}` up to the end -/
def groupTail : Nat → List Char → Bool
  | 0, text => text.isEmpty
  | n + 1, text =>
    text.isEmpty || match text.dropWhile (· = '-') with
      | [] => false
      | c :: rest => alnum c && groupTail n rest

/-- `_GROUP_RE.match`; its `$` also stands before a final newline. -/
def groupRe (text : List Char) : Bool :=
  match if text.getLast? = some '\n' then text.dropLast else text with
  | [] => false
  | c :: rest => alnum c && groupTail 62 rest

section
variable (sha : Sha256) (namePrefix name : String)

/-- `prefix + re.sub(r"[^A-Za-z0-9-]", "-", name)` -/
def groupBase : List Char := namePrefix.toList ++ name.toList.map fun c => if groupChar c then c else '-'

def GroupKept : Prop := groupRe (groupBase namePrefix name) = true ∧
  groupBase namePrefix name = namePrefix.toList ++ name.toList

instance : Decidable (GroupKept namePrefix name) := inferInstanceAs (Decidable (_ ∧ _))

def groupHead : List Char := strip ((groupBase namePrefix name).take (groupMax - (digest sha name).length - 1))

def groupNameOf : List Char :=
  if GroupKept namePrefix name then groupBase namePrefix name
    else Separators.join '-' (groupHead sha namePrefix name) (digest sha name)

def groupName (host : Host) : Except AdaptationError String := do
  checkModelName host name
  .ok (String.ofList (groupNameOf sha namePrefix name))

def endpoint (endpointPrefix groupPrefix model : String) (host : Host) : Except AdaptationError String :=
  groupName sha (endpointPrefix ++ groupPrefix) model host

/-- The lower-cased name, which is of ASCII once it is checked, with hyphens for dots and a letter in front. -/
def idBase : List Char := lettered ((name.toList.map Char.toLower).map fun c => if c = '.' then '-' else c)

def IdKept : Prop := idBase name = name.toList ∧ (idBase name).length ≤ idMax

instance : Decidable (IdKept name) := inferInstanceAs (Decidable (_ ∧ _))

def idStem : List Char := (idBase name).take (idMax - (digest sha name).length - 1)

def modelIdOf : List Char := if IdKept name then idBase name else Separators.join '-' (idStem sha name) (digest sha name)

def modelId (host : Host) : Except AdaptationError String := do
  checkModelName host name
  .ok (String.ofList (modelIdOf sha name))

end

/-! ## What is promised -/

/-- Of letters, digits and hyphens, with a letter in front. -/
structure IsPrefix (namePrefix : String) : Prop where
  chars : ∀ c ∈ namePrefix.toList, groupChar c = true
  head : ∃ c rest, namePrefix.toList = c :: rest ∧ c.isAlpha = true

structure IsGroupName (name : List Char) : Prop where
  chars : ∀ c ∈ name, groupChar c = true
  length_le : name.length ≤ groupMax
  head : ∃ c, name.head? = some c ∧ alnum c = true
  last : ∃ c, name.getLast? = some c ∧ alnum c = true

structure IsModelId (name : List Char) : Prop where
  length_le : name.length ≤ idMax
  head : ∃ c, name.head? = some c ∧ c.isLower = true

/-- Two names that differ, each as it is promised to be. -/
structure Apart (Valid : List Char → Prop) (result result' : Except AdaptationError String) : Prop where
  differ : result ≠ result'
  valid : ∃ name, result = .ok name ∧ Valid name.toList
  valid' : ∃ name, result' = .ok name ∧ Valid name.toList

/-- The group of a name stays within its limit: with more characters it does not pass unchanged. -/
def Fits (namePrefix name : String) : Prop := GroupKept namePrefix name → (namePrefix ++ name).toList.length ≤ groupMax

instance (namePrefix name : String) : Decidable (Fits namePrefix name) := inferInstanceAs (Decidable (_ → _))

/-- The group of the first name passes unchanged and reads like that of the second one, rewritten. -/
def GroupReadsLike (sha : Sha256) (namePrefix name name' : String) : Prop :=
  GroupKept namePrefix name ∧ ¬ GroupKept namePrefix name' ∧
    namePrefix.toList ++ name.toList = Separators.join '-' (groupHead sha namePrefix name') (digest sha name')

instance (sha : Sha256) (namePrefix name name' : String) : Decidable (GroupReadsLike sha namePrefix name name') :=
  inferInstanceAs (Decidable (_ ∧ _ ∧ _))

/-- The same of the ids of two models. -/
def IdReadsLike (sha : Sha256) (name name' : String) : Prop :=
  IdKept name ∧ ¬ IdKept name' ∧ name.toList = Separators.join '-' (idStem sha name') (digest sha name')

instance (sha : Sha256) (name name' : String) : Decidable (IdReadsLike sha name name') :=
  inferInstanceAs (Decidable (_ ∧ _ ∧ _))

/-! ## Groups -/

theorem groupTail_last {n : Nat} {text : List Char}
    (h : groupTail n text = true) : ∀ c, text.getLast? = some c → alnum c = true := by
  induction n generalizing text with
  | zero =>
    intro c hc
    rw [groupTail, List.isEmpty_iff] at h
    rw [h] at hc
    cases hc
  | succ n ih =>
    intro c hc
    rw [groupTail, Bool.or_eq_true, List.isEmpty_iff] at h
    rcases h with rfl | h
    · cases hc
    · cases hdrop : text.dropWhile (· = '-') with
      | nil =>
        rw [hdrop] at h
        cases h
      | cons d rest =>
        rw [hdrop] at h
        obtain ⟨hd, hrest⟩ := Bool.and_eq_true_iff.mp h
        rw [← List.takeWhile_append_dropWhile (p := (· = '-')) (l := text), hdrop,
          List.getLast?_append_cons, List.getLast?_cons] at hc
        cases hlast : rest.getLast? with
        | none =>
          rw [hlast] at hc
          cases hc
          exact hd
        | some e =>
          rw [hlast] at hc
          cases hc
          exact ih hrest e hlast

theorem groupRe_ends {text : List Char} (hline : text.getLast? ≠ some '\n') (h : groupRe text = true) :
    (∃ c, text.head? = some c ∧ alnum c = true) ∧ ∃ c, text.getLast? = some c ∧ alnum c = true := by
  rw [groupRe, if_neg hline] at h
  cases text with
  | nil => cases h
  | cons c rest =>
    obtain ⟨hc, hrest⟩ := Bool.and_eq_true_iff.mp h
    refine ⟨⟨c, rfl, hc⟩, ?_⟩
    rw [List.getLast?_cons]
    cases hlast : rest.getLast? with
    | none => exact ⟨c, rfl, hc⟩
    | some d => exact ⟨d, rfl, groupTail_last hrest d hlast⟩

theorem groupChar_of_label {c : Char} (h : DnsNames.labelChar c = true ∧ c ≠ '-') : alnum c = true := by
  obtain ⟨hlabel, hne⟩ := h
  simp only [DnsNames.labelChar, Bool.or_eq_true, beq_iff_eq, hne, or_false] at hlabel
  rw [alnum, Bool.or_eq_true, Bool.or_eq_true]
  rcases hlabel with h | h
  · exact .inl (.inr h)
  · exact .inr h

theorem groupChar_of_alnum {c : Char} (h : alnum c = true) : groupChar c = true := by
  rw [groupChar, h, Bool.true_or]

section
variable {sha : Sha256} {namePrefix name name' : String}

theorem digest_last (sha : Sha256) (name : String) (stem : List Char) :
    ∃ c, (Separators.join '-' stem (digest sha name)).getLast? = some c ∧ alnum c = true := by
  have hne : digest sha name ≠ [] := List.ne_nil_of_length_pos (by rw [DnsNames.digest_length]; decide)
  refine ⟨(digest sha name).getLast hne, ?_, groupChar_of_label (DnsNames.digest_chars sha name _ (List.getLast_mem hne))⟩
  rw [Separators.join, List.getLast?_append_cons, List.getLast?_cons, List.getLast?_eq_some_getLast hne]
  rfl

theorem join_length (stem : List Char) : (Separators.join '-' stem (digest sha name)).length = stem.length + 11 := by
  rw [Separators.join, List.length_append, List.length_cons, DnsNames.digest_length]

theorem groupBase_chars (hp : IsPrefix namePrefix) : ∀ c ∈ groupBase namePrefix name, groupChar c = true := by
  intro c hc
  rcases List.mem_append.mp hc with hc | hc
  · exact hp.chars c hc
  · obtain ⟨d, _, rfl⟩ := List.mem_map.mp hc
    by_cases hd : groupChar d = true
    · rw [if_pos hd]
      exact hd
    · rw [if_neg hd]
      rfl

theorem groupKept_valid (hp : IsPrefix namePrefix) (h : GroupKept namePrefix name) :
    IsGroupName (groupBase namePrefix name) ↔ (namePrefix ++ name).toList.length ≤ groupMax := by
  have hlength : (groupBase namePrefix name).length = (namePrefix ++ name).toList.length := by
    rw [h.2, String.toList_append]
  rw [← hlength]
  constructor
  · intro hvalid
    exact hvalid.length_le
  · intro hfits
    have hline : (groupBase namePrefix name).getLast? ≠ some '\n' := by
      intro hlast
      have := groupBase_chars hp _ (List.mem_of_getLast? hlast)
      cases this
    obtain ⟨hhead, hlast⟩ := groupRe_ends hline h.1
    exact ⟨groupBase_chars hp, hfits, hhead, hlast⟩

theorem groupHead_starts (sha : Sha256) (name : String) (hp : IsPrefix namePrefix) :
    ∃ c rest, groupHead sha namePrefix name = c :: rest ∧ c.isAlpha = true := by
  obtain ⟨c, rest, hprefix, hc⟩ := hp.head
  have hne := DnsNames.isAlpha_ne_hyphen hc
  rw [groupHead, groupBase, hprefix, DnsNames.digest_length]
  show ∃ d kept, DnsNames.rstrip ((c :: (rest ++ _).take 51).dropWhile (· = '-')) = d :: kept ∧ d.isAlpha = true
  rw [List.dropWhile_cons_of_neg (by simpa using hne)]
  obtain ⟨kept, hkept⟩ :=
    DnsNames.rstrip_cons hne ((rest ++ name.toList.map fun c => if groupChar c then c else '-').take 51)
  exact ⟨c, kept, hkept, hc⟩

theorem groupHead_length (sha : Sha256) (namePrefix name : String) : (groupHead sha namePrefix name).length ≤ 52 := by
  have hstrip : (groupHead sha namePrefix name).length ≤ _ :=
    ((List.rdropWhile_prefix _ _).length_le).trans (List.dropWhile_suffix _).length_le
  rw [List.length_take, DnsNames.digest_length] at hstrip
  exact hstrip.trans (min_le_left _ _)

theorem alnum_of_isAlpha {c : Char} (h : c.isAlpha = true) : alnum c = true := by
  unfold Char.isAlpha Char.isUpper Char.isLower at h
  simp only [Bool.or_eq_true, Bool.and_eq_true, decide_eq_true_eq] at h
  simp only [alnum, Bool.or_eq_true, Bool.and_eq_true, decide_eq_true_eq, Char.le_def]
  exact .inl h

theorem groupRewritten_valid (hp : IsPrefix namePrefix) :
    IsGroupName (Separators.join '-' (groupHead sha namePrefix name) (digest sha name)) where
  chars := by
    intro c hc
    rcases List.mem_append.mp hc with hc | hc
    · exact groupBase_chars hp c (List.mem_of_mem_take (DnsNames.mem_of_mem_strip hc))
    rcases List.mem_cons.mp hc with rfl | hc
    · rfl
    · exact groupChar_of_alnum (groupChar_of_label (DnsNames.digest_chars sha name c hc))
  length_le := by
    rw [join_length]
    exact Nat.add_le_add_right (groupHead_length sha namePrefix name) 11
  head := by
    obtain ⟨c, rest, hhead, hc⟩ := groupHead_starts sha name hp
    exact ⟨c, by rw [hhead]; rfl, alnum_of_isAlpha hc⟩
  last := digest_last sha name _

theorem groupNameOf_valid (sha : Sha256) (name : String) (hp : IsPrefix namePrefix) :
    IsGroupName (groupNameOf sha namePrefix name) ↔ Fits namePrefix name := by
  unfold groupNameOf Fits
  by_cases hk : GroupKept namePrefix name
  · rw [if_pos hk, groupKept_valid hp hk, forall_prop_of_true hk]
  · rw [if_neg hk]
    refine iff_of_true (groupRewritten_valid hp) ?_
    intro hkept
    exact absurd hkept hk

/-! ## Ids -/

theorem not_isUpper_toLower (c : Char) : c.toLower.isUpper = false := by
  by_cases h : c.val ≥ 'A'.val ∧ c.val ≤ 'Z'.val
  · have hfrom := h.1
    have hto := h.2
    simp [UInt32.le_iff_toNat_le] at hfrom hto
    unfold Char.toLower Char.isUpper
    rw [dif_pos h]
    simp [UInt32.le_iff_toNat_le]
    omega
  · unfold Char.toLower Char.isUpper
    rw [dif_neg h]
    simpa using h

theorem idBase_head (name : String) : ∃ c rest, idBase name = c :: rest ∧ c.isLower = true := by
  unfold idBase lettered
  by_cases hletter : ((name.toList.map Char.toLower).map fun c => if c = '.' then '-' else c).head?.any Char.isAlpha = true
  · rw [if_pos hletter]
    cases hname : name.toList with
    | nil =>
      rw [hname] at hletter
      cases hletter
    | cons c rest =>
      rw [hname] at hletter
      refine ⟨if c.toLower = '.' then '-' else c.toLower, _, rfl, ?_⟩
      have halpha : (if c.toLower = '.' then '-' else c.toLower).isAlpha = true := hletter
      by_cases hdot : c.toLower = '.'
      · rw [if_pos hdot] at halpha
        cases halpha
      · rw [if_neg hdot] at halpha ⊢
        unfold Char.isAlpha at halpha
        rw [not_isUpper_toLower, Bool.false_or] at halpha
        exact halpha
  · rw [if_neg hletter]
    exact ⟨'m', _, rfl, rfl⟩

theorem modelIdOf_valid (sha : Sha256) (name : String) : IsModelId (modelIdOf sha name) := by
  obtain ⟨c, rest, hbase, hc⟩ := idBase_head name
  unfold modelIdOf
  by_cases hk : IdKept name
  · rw [if_pos hk]
    exact ⟨hk.2, c, by rw [hbase]; rfl, hc⟩
  · rw [if_neg hk]
    constructor
    · have hstem : (idStem sha name).length ≤ 52 := by
        rw [idStem, List.length_take, DnsNames.digest_length]
        exact min_le_left _ _
      rw [join_length]
      exact Nat.add_le_add_right hstem 11
    · refine ⟨c, ?_, hc⟩
      rw [idStem, hbase, DnsNames.digest_length]
      rfl

/-! ## Two models -/

theorem hyphen_notMem_digest (sha : Sha256) (name : String) : '-' ∉ digest sha name := fun hmem =>
  (DnsNames.digest_chars sha name _ hmem).2 rfl

theorem groupNameOf_eq_iff (hne : name ≠ name') (hdigest : digest sha name ≠ digest sha name') :
    groupNameOf sha namePrefix name = groupNameOf sha namePrefix name' ↔
      GroupReadsLike sha namePrefix name name' ∨ GroupReadsLike sha namePrefix name' name := by
  have hkept : ∀ n, groupNameOf sha namePrefix n =
      if GroupKept namePrefix n then namePrefix.toList ++ n.toList
      else Separators.join '-' (groupHead sha namePrefix n) (digest sha n) := by
    intro n
    by_cases hk : GroupKept namePrefix n
    · rw [groupNameOf, if_pos hk, if_pos hk, hk.2]
    · rw [groupNameOf, if_neg hk, if_neg hk]
  have htext : namePrefix.toList ++ name.toList ≠ namePrefix.toList ++ name'.toList := by
    intro h
    exact hne (String.toList_inj.mp (List.append_cancel_left h))
  rw [hkept, hkept]
  exact Separators.kept_eq_iff htext hdigest (hyphen_notMem_digest sha name) (hyphen_notMem_digest sha name')

theorem modelIdOf_eq_iff (hne : name ≠ name') (hdigest : digest sha name ≠ digest sha name') :
    modelIdOf sha name = modelIdOf sha name' ↔ IdReadsLike sha name name' ∨ IdReadsLike sha name' name := by
  have hkept : ∀ n, modelIdOf sha n = if IdKept n then n.toList else Separators.join '-' (idStem sha n) (digest sha n) := by
    intro n
    by_cases hk : IdKept n
    · rw [modelIdOf, if_pos hk, if_pos hk, hk.1]
    · rw [modelIdOf, if_neg hk, if_neg hk]
  rw [hkept, hkept]
  exact Separators.kept_eq_iff (fun h => hne (String.toList_inj.mp h)) hdigest (hyphen_notMem_digest sha name)
    (hyphen_notMem_digest sha name')

theorem apart_iff {Valid : List Char → Prop} {text text' : List Char} :
    Apart Valid (.ok (String.ofList text)) (.ok (String.ofList text')) ↔ Valid text ∧ Valid text' ∧ text ≠ text' := by
  constructor
  · intro ⟨hdiffer, ⟨name, hname, hvalid⟩, name', hname', hvalid'⟩
    cases hname
    cases hname'
    rw [String.toList_ofList] at hvalid hvalid'
    exact ⟨hvalid, hvalid', fun h => hdiffer (by rw [h])⟩
  · intro ⟨hvalid, hvalid', hne⟩
    refine ⟨?_, ⟨_, rfl, by rwa [String.toList_ofList]⟩, _, rfl, by rwa [String.toList_ofList]⟩
    intro h
    apply hne
    rw [Except.ok.injEq, ← String.toList_inj, String.toList_ofList, String.toList_ofList] at h
    exact h

/-- When the groups of two models are apart. -/
structure GroupsTell (sha : Sha256) (namePrefix name name' : String) : Prop where
  fits : Fits namePrefix name
  fits' : Fits namePrefix name'
  unlike : ¬ GroupReadsLike sha namePrefix name name'
  unlike' : ¬ GroupReadsLike sha namePrefix name' name

variable {host : Host}

theorem groupName_ok (h : validModelName name = true) :
    groupName sha namePrefix name host = .ok (String.ofList (groupNameOf sha namePrefix name)) := by
  rw [groupName, checkModelName, if_pos h]
  rfl

theorem modelId_ok (h : validModelName name = true) : modelId sha name host = .ok (String.ofList (modelIdOf sha name)) := by
  rw [modelId, checkModelName, if_pos h]
  rfl

theorem groups_apart_iff (hp : IsPrefix namePrefix) (h : validModelName name = true)
    (h' : validModelName name' = true) (hne : name ≠ name')
    (hdigest : digest sha name ≠ digest sha name') :
    Apart IsGroupName (groupName sha namePrefix name host) (groupName sha namePrefix name' host) ↔
      GroupsTell sha namePrefix name name' := by
  rw [groupName_ok h, groupName_ok h', apart_iff, groupNameOf_valid sha name hp, groupNameOf_valid sha name' hp, ne_eq,
    groupNameOf_eq_iff hne hdigest, not_or]
  constructor
  · intro ⟨hfits, hfits', hunlike, hunlike'⟩
    exact ⟨hfits, hfits', hunlike, hunlike'⟩
  · intro ⟨hfits, hfits', hunlike, hunlike'⟩
    exact ⟨hfits, hfits', hunlike, hunlike'⟩

theorem isPrefix_append {first second : String} (h : IsPrefix first) (h' : IsPrefix second) : IsPrefix (first ++ second) := by
  obtain ⟨c, rest, hhead, hc⟩ := h.head
  constructor
  · intro d hd
    rw [String.toList_append, List.mem_append] at hd
    rcases hd with hd | hd
    · exact h.chars d hd
    · exact h'.chars d hd
  · exact ⟨c, rest ++ second.toList, by rw [String.toList_append, hhead, List.cons_append], hc⟩

/-- The names of two models in the registries and in front of them, unless two hashes collide. -/
theorem cloud_names_apart_iff (sha : Sha256) (host : Host) {endpointPrefix groupPrefix name name' : String}
    (he : IsPrefix endpointPrefix)
    (hg : IsPrefix groupPrefix) (h : validModelName name = true) (h' : validModelName name' = true) (hne : name ≠ name')
    (hdigest : digest sha name ≠ digest sha name') :
    (Apart IsGroupName (groupName sha groupPrefix name host) (groupName sha groupPrefix name' host) ∧
      Apart IsGroupName (endpoint sha endpointPrefix groupPrefix name host)
        (endpoint sha endpointPrefix groupPrefix name' host) ∧
        Apart IsModelId (modelId sha name host) (modelId sha name' host)) ↔
      GroupsTell sha groupPrefix name name' ∧ GroupsTell sha (endpointPrefix ++ groupPrefix) name name' ∧
        ¬ IdReadsLike sha name name' ∧ ¬ IdReadsLike sha name' name := by
  rw [endpoint, endpoint, groups_apart_iff hg h h' hne hdigest, groups_apart_iff (isPrefix_append he hg) h h' hne hdigest,
    modelId_ok h, modelId_ok h', apart_iff, ne_eq, modelIdOf_eq_iff hne hdigest, not_or,
    and_iff_right (modelIdOf_valid sha name), and_iff_right (modelIdOf_valid sha name')]

end

def dashes : String := String.ofList ('x' :: (List.replicate 70 '-' ++ ['y']))

def cloudHexdigest (text : String) : String :=
  if text = dashes then "200ec8ce0b53c7cde9c35fd12fba17daf47147a10416a44becaa1030cc4ea6a6"
  else if text = "kpi" then "1da4ffdd6043470577f8e5f838f76aa2bbd1718d05ca4bc6a3a6fea7559750d4"
  else if text = "cell_load" then "faadd0b9c4bd77773844121f78713066f916652a1026640940d9877576cd7618"
  else DnsNames.fooHexdigest text

def cloudSha : Sha256 where
  hexdigest := cloudHexdigest
  hexdigest_length s := by
    unfold cloudHexdigest
    split
    · decide +kernel
    split
    · decide +kernel
    split
    · decide +kernel
    · exact DnsNames.fooHexdigest_length s
  hexdigest_chars s := by
    unfold cloudHexdigest
    split
    · exact PyStr.forall_chars (by decide +kernel)
    split
    · exact PyStr.forall_chars (by decide +kernel)
    split
    · exact PyStr.forall_chars (by decide +kernel)
    · exact DnsNames.fooHexdigest_chars s

theorem oran_isPrefix : IsPrefix "oran-" := ⟨PyStr.forall_chars (by decide +kernel), 'o', ['r', 'a', 'n', '-'],
  by decide +kernel, by decide +kernel⟩

theorem cloud_names_apart_kpi :
    Apart IsGroupName (groupName cloudSha "oran-" "kpi" DnsNames.plainHost)
      (groupName cloudSha "oran-" "cell_load" DnsNames.plainHost) ∧
      Apart IsGroupName (endpoint cloudSha "oran-" "oran-" "kpi" DnsNames.plainHost)
        (endpoint cloudSha "oran-" "oran-" "cell_load" DnsNames.plainHost) ∧
        Apart IsModelId (modelId cloudSha "kpi" DnsNames.plainHost) (modelId cloudSha "cell_load" DnsNames.plainHost) :=
  (cloud_names_apart_iff cloudSha DnsNames.plainHost oran_isPrefix oran_isPrefix (by decide +kernel)
    (by decide +kernel) (by decide)
    (by decide +kernel)).mpr ⟨⟨by decide +kernel, by decide +kernel, by decide +kernel, by decide +kernel⟩,
      ⟨by decide +kernel, by decide +kernel, by decide +kernel, by decide +kernel⟩, by
        decide +kernel, by decide +kernel⟩

/-- The group of the long name is longer than a group may be, and `Foo` has the id that another model keeps. -/
theorem cloud_names_shared :
    (validModelName dashes = true ∧ validModelName "kpi" = true ∧ digest cloudSha dashes ≠ digest cloudSha "kpi" ∧
      ¬ Apart IsGroupName (groupName cloudSha "oran-" dashes DnsNames.plainHost)
        (groupName cloudSha "oran-" "kpi" DnsNames.plainHost)) ∧
    validModelName "Foo" = true ∧ validModelName "foo-1cbec737f8" = true ∧
      digest cloudSha "Foo" ≠ digest cloudSha "foo-1cbec737f8" ∧
      ¬ Apart IsModelId (modelId cloudSha "Foo" DnsNames.plainHost)
        (modelId cloudSha "foo-1cbec737f8" DnsNames.plainHost) := by
  refine ⟨⟨by decide +kernel, by decide +kernel, by decide +kernel, ?_⟩, by decide +kernel,
    by decide +kernel, by decide +kernel, ?_⟩
  · rw [groups_apart_iff oran_isPrefix (by decide +kernel) (by decide +kernel) (by decide +kernel) (by decide +kernel)]
    intro h
    exact absurd (h.fits (by decide +kernel)) (by decide +kernel)
  · intro h
    exact h.differ (by decide +kernel)

end OranAdapt.CloudNames
