import OranAdapt.PyDict
import OranAdapt.Store

/-!
# The configuration file

`flatten` and `read_config_file` of `core.config_sources`: the tables of a TOML
document become flat keys. Keys that differ in case, dashes or nesting can
become one flat key, and the value that comes last is the one that stays.
-/

namespace OranAdapt

def configurationError (message : String) (context : Context) : AdaptationError :=
  ⟨.other "CONFIGURATION_ERROR", message, context⟩

namespace ConfigFile

/-! ## The schema -/

/-- An annotation of a field: a class, or a generic type with its arguments. -/
inductive Annotation where
  | cls (name : String)
  | generic (origin : String) (args : List Annotation)

def Annotation.origin : Annotation → Option String
  | cls _ => none
  | generic origin _ => some origin

def Annotation.args : Annotation → List Annotation
  | cls _ => []
  | generic _ args => args

def Annotation.isSecretStr : Annotation → Bool
  | cls name => name == "SecretStr"
  | generic _ _ => false

def isDictField (field : Annotation) : Bool :=
  field.origin == some "dict" || field.args.any fun arg => arg.origin == some "dict"

def isSecretField (field : Annotation) : Bool := field.isSecretStr || field.args.any Annotation.isSecretStr

/-- `settings_cls.model_fields` -/
abbrev Schema := List (String × Annotation)

def Schema.dictFields (schema : Schema) : List String := (schema.filter fun f => isDictField f.2).map Prod.fst

def Schema.names (schema : Schema) : List String := schema.map Prod.fst

def Schema.isSecret (schema : Schema) (key : String) : Bool := (schema.lookup key).any isSecretField

/-! ## Documents -/

/-- A value of a TOML document. An array is a `plain` value whatever it holds. -/
inductive Toml (α : Type) where
  | plain (value : α)
  | table (entries : List (String × Toml α))

variable {α : Type}

def Toml.isTable : Toml α → Bool
  | plain _ => false
  | table _ => true

section
variable (lower : String → String)

def normalKey (raw : String) : String := String.ofList ((lower raw).toList.map fun c => if c = '-' then '_' else c)

def joinKey (above key : String) : String := if above = "" then key else above ++ "_" ++ key

/-- The flat name of the place that the raw keys lead to. -/
def flatKey (path : List String) : String := path.foldl (fun above raw => joinKey above (normalKey lower raw)) ""

variable (dictFields : List String)

mutual

/-- `flatten(value, dict_fields, flat)` for a table, where the interpreter takes
`depth` more calls inside one another. -/
def flattenTable (depth : Nat) (above : String) : Toml α → Except String (Table String (Toml α))
  | .plain _ => .ok Table.empty
  | .table entries => flattenEntries depth above Table.empty entries

def flattenEntries (depth : Nat) (above : String) (out : Table String (Toml α)) :
    List (String × Toml α) → Except String (Table String (Toml α))
  | [] => .ok out
  | (raw, value) :: entries =>
    let flat := joinKey above (normalKey lower raw)
    if value.isTable ∧ flat ∉ dictFields then
      if depth = 0 then .error "RecursionError"
      else do
        let inner ← flattenTable (depth - 1) flat value
        flattenEntries depth above (out.update inner.rows) entries
    else flattenEntries depth above (out.put flat value) entries

end

def flatten (depth : Nat) (entries : List (String × Toml α)) : Except String (Table String (Toml α)) :=
  flattenEntries lower dictFields depth "" Table.empty entries

mutual

/-- The values of a document, each with the raw keys that lead to it. A table is a value where its flat name is a dict's. -/
def leavesBelow (path : List String) : Toml α → List (List String × Toml α)
  | .plain _ => []
  | .table entries => leavesOf path entries

def leavesOf (path : List String) : List (String × Toml α) → List (List String × Toml α)
  | [] => []
  | (raw, value) :: entries =>
    (if value.isTable ∧ flatKey lower (path ++ [raw]) ∉ dictFields then leavesBelow (path ++ [raw]) value
      else [(path ++ [raw], value)]) ++ leavesOf path entries

end

def leaves (entries : List (String × Toml α)) : List (List String × Toml α) := leavesOf lower dictFields [] entries

def flatLeaf (leaf : List String × Toml α) : String × Toml α := (flatKey lower leaf.1, leaf.2)

mutual

/-- How many tables stand inside one another, down to the leaves. -/
def nestingBelow (path : List String) : Toml α → Nat
  | .plain _ => 0
  | .table entries => nestingOf path entries

def nestingOf (path : List String) : List (String × Toml α) → Nat
  | [] => 0
  | (raw, value) :: entries =>
    max (if value.isTable ∧ flatKey lower (path ++ [raw]) ∉ dictFields then nestingBelow (path ++ [raw]) value + 1 else 0)
      (nestingOf path entries)

end

theorem flatKey_snoc (path : List String) (raw : String) :
    flatKey lower (path ++ [raw]) = joinKey (flatKey lower path) (normalKey lower raw) := by
  simp [flatKey]

/-! ## What flat keys hold -/

/-- Too many tables inside one another end the recursion; otherwise the flat keys
hold what setting the leaves one after the other leaves. -/
def Flattens (depth nesting : Nat) (out : Table String (Toml α)) (below : List (List String × Toml α)) :
    Except String (Table String (Toml α)) → Prop
  | .error name => depth < nesting ∧ name = "RecursionError"
  | .ok values => nesting ≤ depth ∧ ∀ k, values.get? k = (out.update (below.map (flatLeaf lower))).get? k

mutual

theorem flattenTable_flattens (depth : Nat) (path : List String) : ∀ value : Toml α,
    Flattens lower depth (nestingBelow lower dictFields path value) Table.empty (leavesBelow lower dictFields path value)
      (flattenTable lower dictFields depth (flatKey lower path) value)
  | .plain _ => ⟨Nat.zero_le _, fun _ => rfl⟩
  | .table entries => flattenEntries_flattens depth path Table.empty entries

/-- The loop sets the values of the document one after the other. -/
theorem flattenEntries_flattens (depth : Nat) (path : List String) (out : Table String (Toml α)) :
    ∀ entries : List (String × Toml α),
      Flattens lower depth (nestingOf lower dictFields path entries) out (leavesOf lower dictFields path entries)
        (flattenEntries lower dictFields depth (flatKey lower path) out entries)
  | [] => ⟨Nat.zero_le _, fun _ => rfl⟩
  | (raw, value) :: entries => by
    have hflat := flatKey_snoc lower path raw
    rw [flattenEntries, leavesOf, nestingOf]
    simp only [← hflat]
    by_cases htable : value.isTable ∧ flatKey lower (path ++ [raw]) ∉ dictFields
    · rw [if_pos htable, if_pos htable, if_pos htable]
      by_cases hzero : depth = 0
      · rw [if_pos hzero]
        exact ⟨by omega, rfl⟩
      · rw [if_neg hzero]
        have hinner := flattenTable_flattens (depth - 1) (path ++ [raw]) value
        cases hvalue : flattenTable lower dictFields (depth - 1) (flatKey lower (path ++ [raw])) value with
        | error name =>
          rw [hvalue] at hinner
          exact ⟨by have := hinner.1; omega, hinner.2⟩
        | ok inner =>
          rw [hvalue] at hinner
          have hrest := flattenEntries_flattens depth path (out.update inner.rows) entries
          simp only [bind_ok_eq]
          cases hentries : flattenEntries lower dictFields depth (flatKey lower path) (out.update inner.rows) entries with
          | error name =>
            rw [hentries] at hrest
            exact ⟨by have := hrest.1; omega, hrest.2⟩
          | ok values =>
            rw [hentries] at hrest
            refine ⟨by have := hinner.1; have := hrest.1; omega, fun k => ?_⟩
            have hout : (out.update inner.rows).get? k =
                (out.update ((leavesBelow lower dictFields (path ++ [raw]) value).map (flatLeaf lower))).get? k := by
              rw [Table.get?_update_rows, hinner.2 k, Table.get?_update, Table.get?_update]
              simp
            rw [hrest.2 k, List.map_append, Table.update_append, Table.get?_update, hout, Table.get?_update (out.update _)]
    · rw [if_neg htable, if_neg htable, if_neg htable]
      have hrest := flattenEntries_flattens depth path (out.put (flatKey lower (path ++ [raw])) value) entries
      rw [Nat.zero_max]
      exact hrest

end

theorem flatten_flattens (depth : Nat) (entries : List (String × Toml α)) :
    Flattens lower depth (nestingOf lower dictFields [] entries) Table.empty (leaves lower dictFields entries)
      (flatten lower dictFields depth entries) :=
  flattenEntries_flattens lower dictFields depth [] Table.empty entries

theorem mem_keys_flatten {depth : Nat} {entries : List (String × Toml α)} {values : Table String (Toml α)} {k : String}
    (h : flatten lower dictFields depth entries = .ok values) :
    k ∈ values.keys ↔ ∃ leaf ∈ leaves lower dictFields entries, flatKey lower leaf.1 = k := by
  have hflattens := flatten_flattens lower dictFields depth entries
  rw [h] at hflattens
  rw [Table.mem_keys, hflattens.2, ← Table.mem_keys, Table.mem_keys_update, List.map_map, List.mem_map]
  simp [Table.keys, Table.empty, flatLeaf]

end

/-! ## Reading the file -/

/-- What comes of opening a file and reading it as TOML. `raised` is an exception of
`tomllib` that is neither: a RecursionError for arrays or tables that nest too
deep, a ValueError for an integer of too many digits or bytes that are no UTF-8. -/
inductive Loaded (α : Type) where
  | osError (cause : String)
  | decodeError (cause : String)
  | raised (name : String)
  | document (entries : List (String × Toml α))

/-- What the code asks of `str`: `lower`, and `upper` for the name of an environment variable. -/
structure Letters where
  lower : String → String
  upper : String → String

section
variable (letters : Letters) (schema : Schema) (depth : Nat) (path : String)

def configFileEnv : CtxValue := .str "ORAN_CONFIG_FILE"

def sortedKeys (keys : List String) : List String := keys.mergeSort fun a b => decide (a ≤ b)

def unknownKeys (values : Table String (Toml α)) : List String := sortedKeys (values.keys.filter (· ∉ schema.names))

def secretKeys (values : Table String (Toml α)) : List String := sortedKeys (values.keys.filter schema.isSecret)

def readConfigFile : Loaded α → Except AdaptationError (Table String (Toml α))
  | .osError cause =>
    .error (configurationError ("config file " ++ path ++ " cannot be read") [("key", configFileEnv), ("cause", .str cause)])
  | .decodeError cause =>
    .error (configurationError ("config file " ++ path ++ " is not valid TOML")
      [("key", configFileEnv), ("cause", .str cause)])
  | .raised name => .error (pythonError name)
  | .document entries =>
    match flatten letters.lower schema.dictFields depth entries with
    | .error name => .error (pythonError name)
    | .ok values =>
      match unknownKeys schema values with
      | key :: keys =>
        .error (configurationError ("config file " ++ path ++ " has unknown key(s): " ++ ", ".intercalate (key :: keys))
          [("key", configFileEnv), ("unknown", .strs (key :: keys))])
      | [] =>
        match secretKeys schema values with
        | key :: keys =>
          .error (configurationError ("config file " ++ path ++ " holds secret key(s): " ++ ", ".intercalate (key :: keys))
            [("key", .str (letters.upper key)),
              ("hint", .str "set secrets in the environment or through SECRETS_BACKEND, never in a file")])
        | [] => .ok values

def Refused (key : String) : Prop := key ∉ schema.names ∨ schema.isSecret key = true

instance (key : String) : Decidable (Refused schema key) := inferInstanceAs (Decidable (_ ∨ _))

/-- The values of a document that is read. -/
def valuesOf : Loaded α → List (List String × Toml α)
  | .document entries => leaves letters.lower schema.dictFields entries
  | .osError _ | .decodeError _ | .raised _ => []

/-- The file is refused as misconfigured, or each of its values is found under its flat key. -/
def NothingLost (loaded : Loaded α) : Prop :=
  (∃ message context, readConfigFile letters schema depth path loaded = .error (configurationError message context)) ∨
    ∃ values, readConfigFile letters schema depth path loaded = .ok values ∧
      ∀ leaf ∈ valuesOf letters schema loaded, values.get? (flatKey letters.lower leaf.1) = some leaf.2

/-- The file cannot be opened or is no TOML; or it is read, its tables do not nest too
deep to be flattened, and one of its keys is refused or no two of its values meet under
one flat key. -/
def Unmixed : Loaded α → Prop
  | .osError _ | .decodeError _ => True
  | .raised _ => False
  | .document entries =>
    nestingOf letters.lower schema.dictFields [] entries ≤ depth ∧
      ((∃ leaf ∈ leaves letters.lower schema.dictFields entries, Refused schema (flatKey letters.lower leaf.1)) ∨
        ∀ leaf ∈ leaves letters.lower schema.dictFields entries,
        ∀ leaf' ∈ leaves letters.lower schema.dictFields entries,
          flatKey letters.lower leaf.1 = flatKey letters.lower leaf'.1 → leaf.2 = leaf'.2)

theorem sorted_filter_eq_nil {keys : List String} {p : String → Bool} :
    sortedKeys (keys.filter p) = [] ↔ ∀ key ∈ keys, p key = false := by
  rw [← List.length_eq_zero_iff, sortedKeys, List.length_mergeSort, List.length_eq_zero_iff, List.filter_eq_nil_iff]
  simp

theorem readConfigFile_cases {entries : List (String × Toml α)} {values : Table String (Toml α)}
    (hflat : flatten letters.lower schema.dictFields depth entries = .ok values) :
    ((∃ leaf ∈ leaves letters.lower schema.dictFields entries, Refused schema (flatKey letters.lower leaf.1)) ∧
        ∃ message context,
          readConfigFile letters schema depth path (.document entries) = .error (configurationError message context)) ∨
      (∀ leaf ∈ leaves letters.lower schema.dictFields entries, ¬Refused schema (flatKey letters.lower leaf.1)) ∧
        readConfigFile letters schema depth path (.document entries) = .ok values := by
  rw [readConfigFile, hflat]
  cases hunknown : unknownKeys schema values with
  | cons key keys =>
    have hk : key ∈ unknownKeys schema values := by simp [hunknown]
    rw [unknownKeys, sortedKeys, List.mem_mergeSort, List.mem_filter, mem_keys_flatten _ _ hflat] at hk
    obtain ⟨⟨leaf, hleaf, rfl⟩, hname⟩ := hk
    exact .inl ⟨⟨leaf, hleaf, .inl (by simpa using hname)⟩, _, _, by simp only [hunknown]; rfl⟩
  | nil =>
    have hknown := hunknown
    rw [unknownKeys, sorted_filter_eq_nil] at hunknown
    cases hsecret : secretKeys schema values with
    | cons key keys =>
      have hk : key ∈ secretKeys schema values := by simp [hsecret]
      rw [secretKeys, sortedKeys, List.mem_mergeSort, List.mem_filter, mem_keys_flatten _ _ hflat] at hk
      obtain ⟨⟨leaf, hleaf, rfl⟩, hsecretKey⟩ := hk
      exact .inl ⟨⟨leaf, hleaf, .inr hsecretKey⟩, _, _, by simp only [hknown, hsecret]; rfl⟩
    | nil =>
      have hopen := hsecret
      rw [secretKeys, sorted_filter_eq_nil] at hsecret
      refine .inr ⟨?_, by simp only [hknown, hopen]⟩
      intro leaf hleaf hrefused
      have hk := (mem_keys_flatten letters.lower schema.dictFields hflat).mpr ⟨leaf, hleaf, rfl⟩
      rcases hrefused with hname | hsecretKey
      · simpa [hname] using hunknown _ hk
      · simpa [hsecretKey] using hsecret _ hk

theorem not_nothingLost_of_raised {loaded : Loaded α} {name : String}
    (h : readConfigFile letters schema depth path loaded = .error (pythonError name)) :
    ¬NothingLost letters schema depth path loaded := by
  rintro (⟨message, context, herror⟩ | ⟨values, hvalues, -⟩)
  · rw [h] at herror
    cases herror
  · rw [h] at hvalues
    cases hvalues

/-- Nothing is lost exactly where the file is unmixed. -/
theorem nothingLost_iff (loaded : Loaded α) :
    NothingLost letters schema depth path loaded ↔ Unmixed letters schema depth loaded := by
  cases loaded with
  | osError cause | decodeError cause => exact iff_of_true (.inl ⟨_, _, rfl⟩) trivial
  | raised name => exact iff_of_false (not_nothingLost_of_raised letters schema depth path rfl) id
  | document entries =>
    have hflattens := flatten_flattens letters.lower schema.dictFields depth entries
    cases hflat : flatten letters.lower schema.dictFields depth entries with
    | error name =>
      rw [hflat] at hflattens
      have hraised : readConfigFile letters schema depth path (.document entries) = .error (pythonError name) := by
        rw [readConfigFile, hflat]
      refine iff_of_false (not_nothingLost_of_raised letters schema depth path hraised) fun h => ?_
      exact absurd h.1 (Nat.not_le.mpr hflattens.1)
    | ok values =>
      rw [hflat] at hflattens
      rw [Unmixed, and_iff_right hflattens.1]
      rcases readConfigFile_cases letters schema depth path hflat with ⟨hrefused, message, context, herror⟩ |
        ⟨hnone, hok⟩
      · exact iff_of_true (.inl ⟨message, context, herror⟩) (.inl hrefused)
      · constructor
        · rintro (⟨message, context, herror⟩ | ⟨values', hvalues, hall⟩)
          · rw [hok] at herror
            cases herror
          · right
            intro leaf hleaf leaf' hleaf' hkey
            have hfound := hall leaf hleaf
            rw [hkey, hall leaf' hleaf'] at hfound
            exact (Option.some.inj hfound).symm
        · rintro (⟨leaf, hleaf, hrefused⟩ | hsame)
          · exact absurd hrefused (hnone leaf hleaf)
          · refine .inr ⟨_, hok, ?_⟩
            intro leaf hleaf
            rw [hflattens.2]
            apply Table.get?_update_of_mem
            · exact List.mem_map.mpr ⟨leaf, hleaf, rfl⟩
            · intro value hmem
              obtain ⟨leaf', hleaf', heq⟩ := List.mem_map.mp hmem
              rw [flatLeaf, Prod.mk.injEq] at heq
              rw [← heq.2]
              exact hsame leaf' hleaf' leaf hleaf heq.1

end

/-! ## Two spellings of a key -/

def asciiLetters : Letters where
  lower s := String.ofList (s.toList.map Char.toLower)
  upper s := String.ofList (s.toList.map Char.toUpper)

def logSchema : Schema := [("log_level", .cls "str"), ("api_keys", .generic "dict" [.cls "str", .cls "str"])]

def spelledTwice : List (String × Toml String) := [("log-level", .plain "DEBUG"), ("log", .table [("level", .plain "INFO")])]

def plainValue : Toml String → Option String
  | .plain value => some value
  | .table _ => none

/-- One of the two values is lost. -/
theorem spelledTwice_lost : ¬NothingLost asciiLetters logSchema 900 "oran.toml" (.document spelledTwice) := by
  have hread : (readConfigFile asciiLetters logSchema 900 "oran.toml" (.document spelledTwice)).toOption.map
      (fun values => (values.get? "log_level").bind plainValue) = some (some "INFO") := by
    decide +kernel
  rintro (⟨message, context, herror⟩ | ⟨values, hvalues, hall⟩)
  · rw [herror] at hread
    cases hread
  · have hdebug := hall (["log-level"], .plain "DEBUG") (by simp [spelledTwice, valuesOf, leaves, leavesOf, Toml.isTable])
    have hkey : flatKey asciiLetters.lower ["log-level"] = "log_level" := by decide +kernel
    rw [hkey] at hdebug
    have hlast : (values.get? "log_level").bind plainValue = some "INFO" := by
      rw [hvalues] at hread
      exact Option.some.inj hread
    rw [hdebug] at hlast
    exact absurd hlast (by decide)

end ConfigFile

end OranAdapt
