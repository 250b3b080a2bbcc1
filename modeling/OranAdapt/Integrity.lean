import Mathlib.Data.List.Lex
import Mathlib.Data.List.Flatten
import OranAdapt.BatchTypes
import OranAdapt.Separators
import OranAdapt.Encodings

/-!
# Checksums of artifacts

`core.integrity`: the SHA-256 of a file's bytes, or of a stream that holds the
relative path and the digest of each file of a directory. The stream can be
read back, and it depends on nothing but the files; but it is hashed like the
bytes of a file, so a file may hold it.
-/

namespace OranAdapt.Integrity

abbrev Bytes := List UInt8

/-- A file's name as the code points that Python reads it as; a byte that is no UTF-8 is a lone surrogate. -/
abbrev Name := List Nat

/-- What a path is: nothing below it is a link. Entries stand in the order that the file system lists them in. -/
inductive Entry where
  | file (contents : Bytes)
  | dir (entries : List (Name × Entry))

def slash : Nat := 47

structure ValidName (name : Name) : Prop where
  nonempty : name ≠ []
  noDots : name ≠ [46] ∧ name ≠ [46, 46]
  plain : ∀ c ∈ name, c ≠ 0 ∧ c ≠ slash

inductive Entry.WellFormed : Entry → Prop where
  | file (contents : Bytes) : WellFormed (.file contents)
  | dir {entries : List (Name × Entry)} (names : (entries.map Prod.fst).Nodup) (valid : ∀ e ∈ entries, ValidName e.1)
      (below : ∀ e ∈ entries, WellFormed e.2) : WellFormed (.dir entries)

/-- `hashlib.sha256` of bytes -/
structure Hasher where
  hexdigest : Bytes → String
  hexdigest_length : ∀ m, (hexdigest m).toList.length = 64
  hexdigest_ascii : ∀ m, ∀ c ∈ (hexdigest m).toList, c.toNat < 128

/-! ## The files of a tree -/

mutual

def filesOf : Entry → List (List Name × Bytes)
  | .file contents => [([], contents)]
  | .dir entries => filesBelow entries

def filesBelow : List (Name × Entry) → List (List Name × Bytes)
  | [] => []
  | (name, entry) :: entries => (filesOf entry).map (fun f => (name :: f.1, f.2)) ++ filesBelow entries

end

def Entry.isFile : Entry → Bool
  | file _ => true
  | dir _ => false

structure SameArtifact (a b : Entry) : Prop where
  kind : a.isFile = b.isFile
  files : ∀ f, f ∈ filesOf a ↔ f ∈ filesOf b

/-! ## Walking a tree -/

def sortedByName {β : Type} (items : List (Name × β)) : List (Name × β) :=
  items.mergeSort fun a b => decide (a.1 ≤ b.1)

def plainFiles (entries : List (Name × Entry)) : List (Name × Bytes) :=
  entries.filterMap fun e =>
    match e.2 with
    | .file contents => some (e.1, contents)
    | .dir _ => none

mutual

/-- The files of a directory in the order that `os.walk` reaches them in. -/
def walk : Entry → List (List Name × Bytes)
  | .file _ => []
  | .dir entries =>
    (sortedByName (plainFiles entries)).map (fun f => ([f.1], f.2)) ++
      (sortedByName (walkDirs entries)).flatMap fun d => d.2.map fun f => (d.1 :: f.1, f.2)

def walkDirs : List (Name × Entry) → List (Name × List (List Name × Bytes))
  | [] => []
  | (name, .dir below) :: entries => (name, walk (.dir below)) :: walkDirs entries
  | (_, .file _) :: entries => walkDirs entries

end

/-! ## The order of a walk -/

/-- A directory's own files come first, then its directories, both by name. -/
inductive Before : List Name → List Name → Prop where
  | files {m n : Name} (h : m < n) : Before [m] [n]
  | fileFirst {m n : Name} {below : List Name} (h : below ≠ []) : Before [m] (n :: below)
  | dirs {m n : Name} {p q : List Name} (hp : p ≠ []) (hq : q ≠ []) (h : m < n) : Before (m :: p) (n :: q)
  | inside {n : Name} {p q : List Name} (h : Before p q) : Before (n :: p) (n :: q)

theorem Before.ne_nil {p q : List Name} (h : Before p q) : p ≠ [] ∧ q ≠ [] := by
  cases h <;> simp

theorem Before.asymm {p q : List Name} (h : Before p q) : ¬ Before q p := by
  induction h with
  | files h =>
    intro h'
    cases h' with
    | files h' => exact lt_asymm h h'
    | fileFirst h' => exact h' rfl
    | dirs hp => exact hp rfl
    | inside h' => exact h'.ne_nil.1 rfl
  | fileFirst h =>
    intro h'
    cases h' with
    | files => exact h rfl
    | fileFirst h' => exact h' rfl
    | dirs _ hq => exact hq rfl
    | inside h' => exact h'.ne_nil.2 rfl
  | dirs hp hq h =>
    intro h'
    cases h' with
    | files => exact hp rfl
    | fileFirst => exact hq rfl
    | dirs _ _ h' => exact lt_asymm h h'
    | inside => exact lt_irrefl _ h
  | inside h ih =>
    intro h'
    cases h' with
    | files h' => exact lt_irrefl _ h'
    | fileFirst => exact h.ne_nil.2 rfl
    | dirs _ _ h' => exact lt_irrefl _ h'
    | inside h' => exact ih h'

section
variable {β : Type} {items : List (Name × β)}

theorem mem_sortedByName {item : Name × β} : item ∈ sortedByName items ↔ item ∈ items := List.mem_mergeSort

theorem sortedByName_pairwise (h : (items.map Prod.fst).Nodup) : (sortedByName items).Pairwise fun a b => a.1 < b.1 := by
  have hsorted : (sortedByName items).Pairwise fun a b => a.1 ≤ b.1 := by
    have := @List.pairwise_mergeSort _ (fun a b : Name × β => decide (a.1 ≤ b.1))
      (fun a b c hab hbc => by simpa using le_trans (by simpa using hab) (by simpa using hbc))
      (fun a b => by simpa using le_total a.1 b.1) items
    simpa [sortedByName] using this
  have hne : (sortedByName items).Pairwise fun a b => a.1 ≠ b.1 := by
    have hperm : ((sortedByName items).map Prod.fst).Nodup := ((List.mergeSort_perm _ _).map Prod.fst).nodup_iff.mpr h
    exact List.pairwise_map.mp hperm
  exact (hsorted.and hne).imp fun h => lt_of_le_of_ne h.1 h.2

end

theorem walkDirs_eq (entries : List (Name × Entry)) :
    walkDirs entries = entries.filterMap fun e =>
      match e.2 with
      | .file _ => none
      | .dir _ => some (e.1, walk e.2) := by
  induction entries with
  | nil => simp [walkDirs]
  | cons e entries ih =>
    obtain ⟨name, entry⟩ := e
    cases entry <;> simp [walkDirs, ih]

theorem nodup_filterMap {β γ : Type} {items : List (Name × β)} {g : Name × β → Option (Name × γ)}
    (hname : ∀ item kept, g item = some kept → kept.1 = item.1) (h : (items.map Prod.fst).Nodup) :
    ((items.filterMap g).map Prod.fst).Nodup := by
  refine List.Nodup.sublist ?_ h
  induction items with
  | nil => simp
  | cons item items ih =>
    have ih := ih (List.nodup_cons.mp h).2
    cases hg : g item with
    | none => simpa [List.filterMap_cons, hg] using ih.cons item.1
    | some kept => simpa [List.filterMap_cons, hg, hname item kept hg] using ih

theorem nodup_plainFiles {entries : List (Name × Entry)} (h : (entries.map Prod.fst).Nodup) :
    ((plainFiles entries).map Prod.fst).Nodup := by
  apply nodup_filterMap _ h
  rintro ⟨name, entry⟩ kept hkept
  cases entry <;> simp at hkept
  simp [← hkept]

theorem nodup_walkDirs {entries : List (Name × Entry)} (h : (entries.map Prod.fst).Nodup) :
    ((walkDirs entries).map Prod.fst).Nodup := by
  rw [walkDirs_eq]
  apply nodup_filterMap _ h
  rintro ⟨name, entry⟩ kept hkept
  cases entry <;> simp at hkept
  simp [← hkept]

theorem mem_plainFiles {entries : List (Name × Entry)} {f : Name × Bytes} :
    f ∈ plainFiles entries ↔ (f.1, .file f.2) ∈ entries := by
  simp only [plainFiles, List.mem_filterMap]
  constructor
  · rintro ⟨⟨name, entry⟩, hmem, h⟩
    cases entry with
    | file contents =>
      simp only [Option.some.injEq] at h
      subst h
      exact hmem
    | dir below => simp at h
  · intro h
    exact ⟨_, h, rfl⟩

theorem mem_walkDirs {entries : List (Name × Entry)} {d : Name × List (List Name × Bytes)} :
    d ∈ walkDirs entries ↔ ∃ below, (d.1, .dir below) ∈ entries ∧ d.2 = walk (.dir below) := by
  rw [walkDirs_eq, List.mem_filterMap]
  constructor
  · rintro ⟨⟨name, entry⟩, hmem, h⟩
    cases entry with
    | file contents => simp at h
    | dir below =>
      simp only [Option.some.injEq] at h
      subst h
      exact ⟨below, hmem, rfl⟩
  · rintro ⟨below, hmem, h⟩
    exact ⟨_, hmem, by simp [← h]⟩

theorem mem_filesBelow {entries : List (Name × Entry)} {f : List Name × Bytes} :
    f ∈ filesBelow entries ↔ ∃ e ∈ entries, ∃ g ∈ filesOf e.2, f = (e.1 :: g.1, g.2) := by
  induction entries with
  | nil => simp [filesBelow]
  | cons e entries ih =>
    obtain ⟨name, entry⟩ := e
    simp [filesBelow, ih, eq_comm]

theorem mem_walk_dir {entries : List (Name × Entry)} {f : List Name × Bytes} :
    f ∈ walk (.dir entries) ↔
      (∃ name contents, (name, .file contents) ∈ entries ∧ f = ([name], contents)) ∨
      ∃ name below, (name, .dir below) ∈ entries ∧ ∃ g ∈ walk (.dir below), f = (name :: g.1, g.2) := by
  rw [walk, List.mem_append, List.mem_map, List.mem_flatMap]
  apply or_congr
  · simp [mem_sortedByName, mem_plainFiles, eq_comm]
  · constructor
    · rintro ⟨⟨name, inner⟩, hmem, hf⟩
      obtain ⟨below, hmem, rfl⟩ := mem_walkDirs.mp (mem_sortedByName.mp hmem)
      obtain ⟨g, hg, rfl⟩ := List.mem_map.mp hf
      exact ⟨name, below, hmem, g, hg, rfl⟩
    · rintro ⟨name, below, hmem, g, hg, rfl⟩
      have hd : (name, walk (.dir below)) ∈ walkDirs entries := mem_walkDirs.mpr ⟨below, hmem, rfl⟩
      exact ⟨_, mem_sortedByName.mpr hd, List.mem_map_of_mem hg⟩

theorem Entry.WellFormed.mem_walk {e : Entry} (h : e.WellFormed) (hdir : e.isFile = false) (f : List Name × Bytes) :
    f ∈ walk e ↔ f ∈ filesOf e := by
  induction h generalizing f with
  | file contents => simp [Entry.isFile] at hdir
  | @dir entries names valid below ih =>
    rw [mem_walk_dir, filesOf, mem_filesBelow]
    constructor
    · rintro (⟨name, contents, hmem, rfl⟩ | ⟨name, inner, hmem, g, hg, rfl⟩)
      · exact ⟨_, hmem, ([], contents), by simp [filesOf], rfl⟩
      · exact ⟨_, hmem, g, (ih _ hmem rfl g).mp hg, rfl⟩
    · rintro ⟨⟨name, entry⟩, hmem, g, hg, rfl⟩
      cases entry with
      | file contents =>
        simp only [filesOf, List.mem_singleton] at hg
        subst hg
        exact .inl ⟨name, contents, hmem, rfl⟩
      | dir inner => exact .inr ⟨name, inner, hmem, g, (ih _ hmem rfl g).mpr hg, rfl⟩

theorem ne_nil_of_mem_walk {e : Entry} {f : List Name × Bytes} (h : f ∈ walk e) : f.1 ≠ [] := by
  cases e with
  | file contents => simp [walk] at h
  | dir entries =>
    rcases mem_walk_dir.mp h with ⟨name, contents, _, rfl⟩ | ⟨name, below, _, g, _, rfl⟩
    · simp
    · simp

theorem Entry.WellFormed.pairwise_walk {e : Entry} (h : e.WellFormed) : (walk e).Pairwise fun f g => Before f.1 g.1 := by
  induction h with
  | file contents => simp [walk]
  | @dir entries names valid below ih =>
    rw [walk, List.pairwise_append, List.pairwise_map, List.pairwise_flatMap]
    refine ⟨?_, ⟨?_, ?_⟩, ?_⟩
    · exact (sortedByName_pairwise (nodup_plainFiles names)).imp .files
    · intro d hd
      obtain ⟨inner, hmem, hwalk⟩ := mem_walkDirs.mp (mem_sortedByName.mp hd)
      rw [List.pairwise_map, hwalk]
      exact (ih _ hmem).imp .inside
    · apply List.Pairwise.imp_of_mem _ (sortedByName_pairwise (nodup_walkDirs names))
      intro d d' hd hd' hlt f hf g hg
      obtain ⟨inner, _, hwalk⟩ := mem_walkDirs.mp (mem_sortedByName.mp hd)
      obtain ⟨inner', _, hwalk'⟩ := mem_walkDirs.mp (mem_sortedByName.mp hd')
      rw [hwalk] at hf
      rw [hwalk'] at hg
      obtain ⟨f', hf', rfl⟩ := List.mem_map.mp hf
      obtain ⟨g', hg', rfl⟩ := List.mem_map.mp hg
      exact .dirs (ne_nil_of_mem_walk hf') (ne_nil_of_mem_walk hg') hlt
    · intro f hf g hg
      obtain ⟨plain, _, rfl⟩ := List.mem_map.mp hf
      obtain ⟨d, hd, hg⟩ := List.mem_flatMap.mp hg
      obtain ⟨inner, _, hwalk⟩ := mem_walkDirs.mp (mem_sortedByName.mp hd)
      rw [hwalk] at hg
      obtain ⟨g', hg', rfl⟩ := List.mem_map.mp hg
      exact .fileFirst (ne_nil_of_mem_walk hg')

/-- The order that the file system lists the entries in does not matter. -/
theorem walk_eq_iff {a b : Entry} (ha : a.WellFormed) (hb : b.WellFormed) (hda : a.isFile = false) (hdb : b.isFile = false) :
    walk a = walk b ↔ ∀ f, f ∈ filesOf a ↔ f ∈ filesOf b := by
  constructor
  · intro h f
    rw [← ha.mem_walk hda, ← hb.mem_walk hdb, h]
  · intro h
    have hnodup : ∀ {e : Entry}, e.WellFormed → (walk e).Nodup := by
      intro e he
      apply he.pairwise_walk.imp
      intro f g hbefore heq
      rw [heq] at hbefore
      exact hbefore.asymm hbefore
    apply List.Perm.eq_of_pairwise _ ha.pairwise_walk hb.pairwise_walk
    · rw [List.perm_ext_iff_of_nodup (hnodup ha) (hnodup hb)]
      intro f
      rw [ha.mem_walk hda, hb.mem_walk hdb, h]
    · intro f g _ _ hfg hgf
      exact absurd hgf hfg.asymm

/-! ## Checksums -/

/-- `text.encode()`: `none` where it raises a UnicodeEncodeError. -/
def encodeText (text : List Nat) : Option Bytes :=
  if ∀ c ∈ text, c.isValidChar then some (Utf8.encode (String.ofList (text.map Char.ofNat))) else none

/-- `os.path.relpath(full, path)` -/
def relativePath (path : List Name) : List Nat := [slash].intercalate path

def Encodable (text : List Nat) : Prop := ∀ c ∈ text, c.isValidChar

def textBytes (text : List Nat) : Bytes := Utf8.encode (String.ofList (text.map Char.ofNat))

theorem encodeText_eq {text : List Nat} (h : Encodable text) : encodeText text = some (textBytes text) := if_pos h

theorem encodeText_eq_none {text : List Nat} (h : ¬ Encodable text) : encodeText text = none := if_neg h

theorem textBytes_inj {s t : List Nat} (hs : Encodable s) (ht : Encodable t) (h : textBytes s = textBytes t) : s = t := by
  have hchars : s.map Char.ofNat = t.map Char.ofNat := by simpa using congrArg String.toList (Utf8.encode_inj h)
  have hback : ∀ {u : List Nat}, Encodable u → (u.map Char.ofNat).map Char.toNat = u := by
    intro u hu
    rw [List.map_map]
    conv_rhs => rw [← List.map_id u]
    exact List.map_congr_left fun c hc => Utf8.toNat_ofNat_of_valid (hu c hc)
  rw [← hback hs, hchars, hback ht]

theorem zero_notMem_textBytes {text : List Nat} (h : Encodable text) (hzero : 0 ∉ text) : 0 ∉ textBytes text := by
  intro hmem
  have hmem := Utf8.mem_of_mem_encode (a := Char.ofNat 0) (by decide) hmem
  simp only [String.toList_ofList, List.mem_map] at hmem
  obtain ⟨c, hc, heq⟩ := hmem
  have : c = 0 := by rw [← Utf8.toNat_ofNat_of_valid (h c hc), heq]; rfl
  exact hzero (this ▸ hc)

section
variable (sha : Hasher) (chunkBytes : Nat)

def sha256File (contents : Bytes) : String := sha.hexdigest (Batches.chunks chunkBytes contents).flatten

def fileRecord (f : List Name × Bytes) : Option Bytes :=
  (encodeText (relativePath f.1)).map (· ++ 0 :: Utf8.encode (sha256File sha chunkBytes f.2))

/-- What is hashed of a path: `none` where a name cannot be encoded. -/
def hashedText : Entry → Option Bytes
  | .file contents => some (Batches.chunks chunkBytes contents).flatten
  | .dir entries => ((walk (.dir entries)).mapM (fileRecord sha chunkBytes)).map List.flatten

def sha256Path (entry : Entry) : Except AdaptationError String :=
  (orRaise "UnicodeEncodeError" (hashedText sha chunkBytes entry)).map sha.hexdigest

end

theorem relativePath_inj {p q : List Name} (hp : ∀ name ∈ p, ValidName name)
    (hq : ∀ name ∈ q, ValidName name) (hne : p ≠ [])
    (hne' : q ≠ []) (h : relativePath p = relativePath q) : p = q := by
  have hnot : ∀ {r : List Name}, (∀ name ∈ r, ValidName name) → ∀ name ∈ r, slash ∉ name :=
    fun hr name hname hmem =>
    ((hr name hname).plain slash hmem).2 rfl
  rw [← List.splitOn_intercalate slash (hnot hp) hne, ← List.splitOn_intercalate slash (hnot hq) hne']
  exact congrArg _ h

theorem mem_relativePath {path : List Name} {c : Nat}
    (h : c ∈ relativePath path) : c = slash ∨ ∃ name ∈ path, c ∈ name := by
  induction path with
  | nil => simp [relativePath] at h
  | cons name path ih =>
    cases path with
    | nil => exact .inr ⟨name, by simp, by simpa [relativePath] using h⟩
    | cons next path =>
      simp only [relativePath, List.intercalate_cons_cons, List.mem_append, List.mem_singleton] at h
      rcases h with (h | h) | h
      · exact .inr ⟨name, by simp, h⟩
      · exact .inl h
      · rcases ih h with h | ⟨found, hmem, h⟩
        · exact .inl h
        · exact .inr ⟨found, .tail _ hmem, h⟩

theorem mem_relativePath_of_mem {path : List Name} {name : Name} {c : Nat} (hname : name ∈ path) (hc : c ∈ name) :
    c ∈ relativePath path := by
  induction path with
  | nil => simp at hname
  | cons head path ih =>
    cases path with
    | nil =>
      rw [List.mem_singleton.mp hname] at hc
      simpa [relativePath] using hc
    | cons next path =>
      simp only [relativePath, List.intercalate_cons_cons, List.mem_append]
      rcases List.mem_cons.mp hname with rfl | hname
      · exact .inl (.inl hc)
      · exact .inr (ih hname)

theorem encodable_relativePath {path : List Name} : Encodable (relativePath path) ↔ ∀ name ∈ path, Encodable name := by
  constructor
  · intro h name hname c hc
    exact h c (mem_relativePath_of_mem hname hc)
  · intro h c hc
    rcases mem_relativePath hc with rfl | ⟨name, hname, hc⟩
    · decide
    · exact h name hname c hc

/-! ## Checksums read back -/

/-- Every name on the way to a file is text. -/
def Entry.Encodable (e : Entry) : Prop := ∀ f ∈ filesOf e, ∀ name ∈ f.1, Integrity.Encodable name

section
variable (sha : Hasher) (chunkBytes : Nat)

def record (f : List Name × Bytes) : Bytes × Bytes := (textBytes (relativePath f.1), Utf8.encode (sha.hexdigest f.2))

/-- Path, 0 byte and digest of each file. -/
def listing (e : Entry) : Bytes := (walk e).flatMap fun f => Separators.join 0 (record sha f).1 (record sha f).2

/-- What the checksum of an artifact is a digest of. -/
def hashed : Entry → Bytes
  | .file contents => contents
  | .dir entries => listing sha (.dir entries)

def messages (e : Entry) : List Bytes := hashed sha e :: (filesOf e).map Prod.snd

def NoCollisions (a b : Entry) : Prop :=
  ∀ m ∈ messages sha a ++ messages sha b, ∀ n ∈ messages sha a ++ messages sha b,
    sha.hexdigest m = sha.hexdigest n → m = n

def HoldsListing (a b : Entry) : Prop := ∃ contents, a = .file contents ∧ b.isFile = false ∧ contents = listing sha b

def Identifies (a b : Entry) : Prop :=
  ∃ x y, sha256Path sha chunkBytes a = .ok x ∧ sha256Path sha chunkBytes b = .ok y ∧ (x = y ↔ SameArtifact a b)

variable {sha chunkBytes} {a b e : Entry}

theorem sha256File_eq (hchunk : 1 ≤ chunkBytes) (contents : Bytes) :
    sha256File sha chunkBytes contents = sha.hexdigest contents := by
  rw [sha256File, Batches.chunks_flatten hchunk]

theorem length_digest (m : Bytes) : (Utf8.encode (sha.hexdigest m)).length = 64 := by
  rw [Utf8.encode, List.length_flatMap, ← sha.hexdigest_length m]
  have hone : ∀ c ∈ (sha.hexdigest m).toList, (String.utf8EncodeChar c).length = 1 := by
    intro c hc
    rw [String.length_utf8EncodeChar, Char.utf8Size_eq_one_iff]
    have := sha.hexdigest_ascii m c hc
    exact UInt32.le_iff_toNat_le.mpr (Nat.le_of_lt_succ this)
  rw [List.map_congr_left hone, List.map_const', List.sum_replicate_nat, Nat.mul_one]

theorem fileRecord_eq (hchunk : 1 ≤ chunkBytes) {f : List Name × Bytes} (h : ∀ name ∈ f.1, Encodable name) :
    fileRecord sha chunkBytes f = some (Separators.join 0 (record sha f).1 (record sha f).2) := by
  rw [fileRecord, encodeText_eq (encodable_relativePath.mpr h), sha256File_eq hchunk]
  rfl

theorem fileRecord_eq_none {f : List Name × Bytes}
    (h : ¬ ∀ name ∈ f.1, Encodable name) : fileRecord sha chunkBytes f = none := by
  rw [fileRecord, encodeText_eq_none (encodable_relativePath.not.mpr h)]
  rfl

theorem hashedText_eq (he : e.WellFormed) (hchunk : 1 ≤ chunkBytes) (h : e.Encodable) :
    hashedText sha chunkBytes e = some (hashed sha e) := by
  cases e with
  | file contents => rw [hashedText, Batches.chunks_flatten hchunk, hashed]
  | dir entries =>
    have hrecords : ∀ {files : List (List Name × Bytes)}, (∀ f ∈ files, ∀ name ∈ f.1, Encodable name) →
        files.mapM (fileRecord sha chunkBytes) = some (files.map fun f =>
          Separators.join 0 (record sha f).1 (record sha f).2) := by
      intro files hfiles
      induction files with
      | nil => rfl
      | cons f files ih =>
        rw [List.mapM_cons, fileRecord_eq hchunk (hfiles f (by simp)), ih fun g hg => hfiles g (by simp [hg])]
        rfl
    rw [hashedText, hrecords fun f hf => h f ((he.mem_walk rfl f).mp hf), hashed, listing, List.flatMap_def]
    rfl

theorem hashedText_eq_none (he : e.WellFormed) (h : ¬ e.Encodable) : hashedText sha chunkBytes e = none := by
  simp only [Entry.Encodable, not_forall] at h
  obtain ⟨f, hf, hnames⟩ := h
  cases e with
  | file contents => simp_all [filesOf]
  | dir entries =>
    have hf := (he.mem_walk rfl f).mpr hf
    have hrecords : ∀ {files : List (List Name × Bytes)}, f ∈ files →
        files.mapM (fileRecord sha chunkBytes) = none := by
      intro files hmem
      induction files with
      | nil => simp at hmem
      | cons g files ih =>
        rw [List.mapM_cons]
        rcases List.mem_cons.mp hmem with rfl | hmem
        · rw [fileRecord_eq_none (by simpa using hnames)]
          rfl
        · rw [ih hmem]
          cases fileRecord sha chunkBytes g <;> rfl
    rw [hashedText, hrecords hf]
    rfl

theorem sha256Path_ok_iff (he : e.WellFormed) (hchunk : 1 ≤ chunkBytes) {x : String} :
    sha256Path sha chunkBytes e = .ok x ↔ e.Encodable ∧ sha.hexdigest (hashed sha e) = x := by
  rw [sha256Path]
  by_cases h : e.Encodable
  · rw [hashedText_eq he hchunk h]
    simp [h, orRaise, Except.map]
  · rw [hashedText_eq_none he h]
    simp [h, orRaise, pythonError, Except.map]

theorem Entry.WellFormed.validName (he : e.WellFormed) {f : List Name × Bytes}
    (hf : f ∈ filesOf e) : ∀ name ∈ f.1, ValidName name := by
  induction he generalizing f with
  | file contents => simp_all [filesOf]
  | dir names valid below ih =>
    obtain ⟨entry, hentry, g, hg, rfl⟩ := mem_filesBelow.mp hf
    intro name hname
    rcases List.mem_cons.mp hname with rfl | hname
    · exact valid _ hentry
    · exact ih entry hentry hg name hname

theorem isRecord (he : e.WellFormed) (h : e.Encodable) (hdir : e.isFile = false) {f : List Name × Bytes}
    (hf : f ∈ walk e) :
    Separators.IsRecord 0 64 (record sha f) := by
  have hf := (he.mem_walk hdir f).mp hf
  refine ⟨?_, length_digest f.2⟩
  apply zero_notMem_textBytes (encodable_relativePath.mpr (h f hf))
  intro hzero
  rcases mem_relativePath hzero with hslash | ⟨name, hname, hc⟩
  · cases hslash
  · exact ((he.validName hf name hname).plain 0 hc).1 rfl

theorem digest_inj {m n : Bytes} (h : Utf8.encode (sha.hexdigest m) = Utf8.encode (sha.hexdigest n)) :
    sha.hexdigest m = sha.hexdigest n :=
  Utf8.encode_inj h

theorem map_inj_on {α β γ : Type} {f : α → γ} {g : β → γ} {r : α → β → Prop} :
    ∀ {as : List α} {bs : List β}, (∀ a ∈ as, ∀ b ∈ bs, f a = g b → r a b) →
      as.map f = bs.map g → List.Forall₂ r as bs
  | [], [], _, _ => .nil
  | [], _ :: _, _, h => by simp at h
  | _ :: _, [], _, h => by simp at h
  | a :: as, b :: bs, hinj, h => by
    simp only [List.map_cons, List.cons.injEq] at h
    exact .cons (hinj a (by simp) b (by simp) h.1) (map_inj_on (fun a ha b hb => hinj a (by simp [ha]) b (by simp [hb])) h.2)

/-- The listing of a directory names its files and, through their digests, what is in them. -/
theorem listing_inj (ha : a.WellFormed) (hb : b.WellFormed) (hea : a.Encodable) (heb : b.Encodable) (hda : a.isFile = false)
    (hdb : b.isFile = false) (hno : NoCollisions sha a b) (h : listing sha a = listing sha b) : walk a = walk b := by
  have hrecords : (walk a).map (record sha) = (walk b).map (record sha) := by
    apply @Separators.records_inj _ 0 64
    · intro r hr
      obtain ⟨f, hf, rfl⟩ := List.mem_map.mp hr
      exact isRecord ha hea hda hf
    · intro r hr
      obtain ⟨f, hf, rfl⟩ := List.mem_map.mp hr
      exact isRecord hb heb hdb hf
    · rwa [List.flatMap_map, List.flatMap_map]
  apply List.forall₂_eq_eq_eq ▸ map_inj_on _ hrecords
  intro f hf g hg heq
  have hmf := (ha.mem_walk hda f).mp hf
  have hmg := (hb.mem_walk hdb g).mp hg
  simp only [record, Prod.mk.injEq] at heq
  have hpath := textBytes_inj (encodable_relativePath.mpr (hea f hmf)) (encodable_relativePath.mpr (heb g hmg)) heq.1
  have hnames := relativePath_inj (ha.validName hmf) (hb.validName hmg) (ne_nil_of_mem_walk hf) (ne_nil_of_mem_walk hg) hpath
  have hin : f.2 ∈ messages sha a ++ messages sha b := List.mem_append_left _ (.tail _ (List.mem_map_of_mem hmf))
  have hin' : g.2 ∈ messages sha a ++ messages sha b := List.mem_append_right _ (.tail _ (List.mem_map_of_mem hmg))
  exact Prod.ext hnames (hno _ hin _ hin' (digest_inj heq.2))

theorem hashed_eq_iff (ha : a.WellFormed) (hb : b.WellFormed) (hea : a.Encodable) (heb : b.Encodable)
    (hno : NoCollisions sha a b) :
    hashed sha a = hashed sha b ↔ SameArtifact a b ∨ HoldsListing sha a b ∨ HoldsListing sha b a := by
  cases a with
  | file contents =>
    cases b with
    | file contents' =>
      constructor
      · intro h
        rw [hashed, hashed] at h
        exact .inl ⟨rfl, by simp [filesOf, h]⟩
      · rintro (h | ⟨_, _, h, _⟩ | ⟨_, _, h, _⟩)
        · have := h.files ([], contents)
          simpa [filesOf, hashed] using this
        · cases h
        · cases h
    | dir entries =>
      constructor
      · intro h
        exact .inr (.inl ⟨contents, rfl, rfl, h⟩)
      · rintro (h | ⟨_, h, _, heq⟩ | ⟨_, h, _⟩)
        · cases h.kind
        · cases h
          exact heq
        · cases h
  | dir entries =>
    cases b with
    | file contents =>
      constructor
      · intro h
        exact .inr (.inr ⟨contents, rfl, rfl, h.symm⟩)
      · rintro (h | ⟨_, h, _⟩ | ⟨_, h, _, heq⟩)
        · cases h.kind
        · cases h
        · cases h
          exact heq.symm
    | dir entries' =>
      constructor
      · intro h
        exact .inl ⟨rfl, (walk_eq_iff ha hb rfl rfl).mp (listing_inj ha hb hea heb rfl rfl hno h)⟩
      · rintro (h | ⟨_, h, _⟩ | ⟨_, h, _⟩)
        · rw [hashed, hashed, listing, listing, (walk_eq_iff ha hb rfl rfl).mpr h.files]
        · cases h
        · cases h

/-! ## Which artifacts the checksums tell apart -/

theorem identifies_iff (ha : a.WellFormed) (hb : b.WellFormed) (hchunk : 1 ≤ chunkBytes) (hno : NoCollisions sha a b) :
    Identifies sha chunkBytes a b ↔
      a.Encodable ∧ b.Encodable ∧ ¬ HoldsListing sha a b ∧ ¬ HoldsListing sha b a := by
  simp only [Identifies, sha256Path_ok_iff ha hchunk, sha256Path_ok_iff hb hchunk]
  have hkind : SameArtifact a b → ¬ HoldsListing sha a b ∧ ¬ HoldsListing sha b a := by
    intro h
    constructor
    · rintro ⟨_, rfl, hdir, _⟩
      rw [← h.kind] at hdir
      cases hdir
    · rintro ⟨_, rfl, hdir, _⟩
      rw [h.kind] at hdir
      cases hdir
  have hdigest : sha.hexdigest (hashed sha a) = sha.hexdigest (hashed sha b) ↔ hashed sha a = hashed sha b :=
    ⟨hno _ (by simp [messages]) _ (by simp [messages]), congrArg _⟩
  constructor
  · rintro ⟨_, _, ⟨hea, rfl⟩, ⟨heb, rfl⟩, h⟩
    rw [hdigest, hashed_eq_iff ha hb hea heb hno] at h
    have hdiff : ∀ hholds : HoldsListing sha a b ∨ HoldsListing sha b a, False := by
      intro hholds
      have := hkind (h.mp (.inr hholds))
      tauto
    exact ⟨hea, heb, fun h => hdiff (.inl h), fun h => hdiff (.inr h)⟩
  · rintro ⟨hea, heb, hab, hba⟩
    refine ⟨_, _, ⟨hea, rfl⟩, ⟨heb, rfl⟩, ?_⟩
    rw [hdigest, hashed_eq_iff ha hb hea heb hno]
    tauto

end

/-- Digests that tell texts apart by their length. -/
def lengthHasher : Hasher where
  hexdigest m := String.ofList (Nat.digitChar (m.length % 16) :: List.replicate 63 '0')
  hexdigest_length m := by simp
  hexdigest_ascii m := by
    have hdigit : ∀ n < 16, (Nat.digitChar n).toNat < 128 := by decide
    have hlast := hdigit (m.length % 16) (Nat.mod_lt _ (by decide))
    simpa using hlast

theorem lengthHasher_inj {m n : Bytes} (h : lengthHasher.hexdigest m = lengthHasher.hexdigest n) :
    m.length % 16 = n.length % 16 := by
  have hdigit : ∀ i < 16, ∀ j < 16, Nat.digitChar i = Nat.digitChar j → i = j := by decide
  have h := congrArg String.toList h
  simp only [lengthHasher, String.toList_ofList, List.cons.injEq] at h
  exact hdigit _ (Nat.mod_lt _ (by decide)) _ (Nat.mod_lt _ (by decide)) h.1

/-- `m` with one byte, and `m/n` with the same byte. -/
def flat : Entry := .dir [([109], .file [1])]

def nested : Entry := .dir [([109], .dir [([110], .file [1])])]

theorem walk_flat : walk flat = [([[109]], [1])] := by
  simp [flat, walk, walkDirs, plainFiles, sortedByName]

theorem walk_nested : walk nested = [([[109], [110]], [1])] := by
  simp [nested, walk, walkDirs, plainFiles, sortedByName]

theorem listing_length_flat : (listing lengthHasher flat).length = 66 := by
  simp only [listing, walk_flat, List.flatMap_cons, List.flatMap_nil, List.append_nil]
  decide

theorem listing_length_nested : (listing lengthHasher nested).length = 68 := by
  simp only [listing, walk_nested, List.flatMap_cons, List.flatMap_nil, List.append_nil]
  decide

theorem wellFormed_nested : nested.WellFormed := by
  have hvalid : ∀ c, c ≠ 0 → c ≠ slash → c ≠ 46 → ValidName [c] :=
    fun c h h' h'' => ⟨by simp, by simp [h''], by simp [h, h']⟩
  refine .dir (by simp) ?_ ?_
  · simp [hvalid 109 (by decide) (by decide) (by decide)]
  · simp only [List.mem_singleton, forall_eq]
    refine .dir (by simp) ?_ ?_
    · simp [hvalid 110 (by decide) (by decide) (by decide)]
    · simpa using .file [1]

theorem wellFormed_flat : flat.WellFormed := by
  refine .dir (by simp) ?_ ?_
  · simpa using ⟨by simp, by simp, by simp [slash]⟩
  · simpa using .file [1]

theorem noCollisions_nested : NoCollisions lengthHasher flat nested := by
  have hmessages : messages lengthHasher flat ++ messages lengthHasher nested =
      [listing lengthHasher flat, [1], listing lengthHasher nested, [1]] := rfl
  intro m hm n hn heq
  have hlength := lengthHasher_inj heq
  rw [hmessages] at hm hn
  simp only [List.mem_cons, List.not_mem_nil, or_false] at hm hn
  rcases hm with rfl | rfl | rfl | rfl <;> rcases hn with rfl | rfl | rfl | rfl <;>
    simp_all [listing_length_flat, listing_length_nested]

theorem identifies_nested : Identifies lengthHasher 4096 flat nested := by
  refine (identifies_iff wellFormed_flat wellFormed_nested (by decide) noCollisions_nested).mpr ⟨?_, ?_, ?_, ?_⟩
  · simpa [Entry.Encodable, flat, filesOf, filesBelow, Encodable] using by decide
  · simpa [Entry.Encodable, nested, filesOf, filesBelow, Encodable] using by decide
  · rintro ⟨_, h, _⟩
    cases h
  · rintro ⟨_, h, _⟩
    cases h

theorem empty_artifacts_alike : ¬ ∀ (sha : Hasher) (chunkBytes : Nat) (a b : Entry), 1 ≤ chunkBytes →
    a.WellFormed → b.WellFormed →
    NoCollisions sha a b → Identifies sha chunkBytes a b := by
  intro h
  have hdir : Entry.WellFormed (.dir []) := .dir (by simp) (by simp) (by simp)
  have hlisting : listing lengthHasher (.dir []) = [] := by simp [listing, walk, walkDirs, plainFiles, sortedByName]
  have hno : NoCollisions lengthHasher (.file []) (.dir []) := by
    intro m hm n hn _
    simp [messages, hashed, hlisting, filesOf, filesBelow] at hm hn
    rw [hm, hn]
  obtain ⟨x, y, hx, hy, hsame⟩ := h lengthHasher 4096 (.file []) (.dir []) (by decide) (.file []) hdir hno
  rw [sha256Path_ok_iff (.file []) (by decide)] at hx
  rw [sha256Path_ok_iff hdir (by decide), hashed, hlisting] at hy
  rw [← hx.2, ← hy.2] at hsame
  cases (hsame.mp rfl).kind

end OranAdapt.Integrity
