import OranAdapt.Selection
import OranAdapt.DataAccess

/-!
# Cleaning the source rows

`datastore.current_data.clean_records`: of the rows of one key only the newest
stays, and it goes when a newer one of the versions read deletes the key; exact
duplicates go, and rows without a required value. The versions whose deletions
count are those of the rows given.
-/

namespace OranAdapt

open Newest

/-- What each step of a loop keeps, with the items done so far, the loop keeps. -/
theorem foldl_keeps {α σ : Type} {P : List α → σ → Prop} {f : σ → α → σ}
    (hstep : ∀ {done : List α} {s : σ} (a : α), P done s → P (done ++ [a]) (f s a)) :
    ∀ (rest : List α) {done : List α} {s : σ}, P done s → P (done ++ rest) (rest.foldl f s) := by
  intro rest
  induction rest with
  | nil =>
    intro done s h
    rw [List.append_nil]
    exact h
  | cons a rest ih =>
    intro done s h
    have hrest := ih (hstep a h)
    rw [List.append_assoc] at hrest
    exact hrest

/-- `CleanResult.quality` -/
structure Quality where
  inputRows : Nat
  conflictsResolved : Nat
  deletedRemoved : Nat
  duplicatesRemoved : Nat
  schemaRejected : Nat
  outputRows : Nat
deriving DecidableEq, Repr

structure CleanResult where
  records : List Row
  quality : Quality

/-- A row at its place in the list: two rows that look the same are still two. -/
abbrev PlacedRow := Row × Nat

namespace Row

def rank (r : Row) : Lex (Nat × Lex (DateTime × Int)) := toLex (r.dataVersionId, toLex (r.observedAt, r.id))

/-- What tells exact duplicates. -/
def signature (r : Row) : String × String := (r.observedAt.isoformat, (Json.obj r.payload.fields).dumps)

def lacks (r : Row) (column : String) : Bool :=
  match r.payload.get column with
  | none | some .null => true
  | some _ => false

end Row

namespace Cleaning

section
variable (versions : List DataVersion) (records : List Row)

def deletedIn (key : String) : Nat :=
  ((versions.filter fun v => v.id ∈ records.map Row.dataVersionId ∧ key ∈ v.deletedKeys).map DataVersion.id).foldl max 0

def newestOf (key : String) : Option PlacedRow :=
  newest (fun p : PlacedRow => p.1.recordKey) (fun p => p.1.rank) key records.zipIdx

def superseded (p : PlacedRow) : Bool :=
  match p.1.recordKey with
  | some key => (newestOf records key).map Prod.snd ≠ some p.2
  | none => false

def deleted (p : PlacedRow) : Bool :=
  match p.1.recordKey with
  | some key => p.1.dataVersionId < deletedIn versions records key
  | none => false

end

structure Loop where
  conflicts : Nat := 0
  deleted : Nat := 0
  duplicates : Nat := 0
  rejected : Nat := 0
  seen : List (String × String) := []
  kept : List PlacedRow := []

def Loop.step (versions : List DataVersion) (records : List Row) (required : List String) (s : Loop) (p : PlacedRow) : Loop :=
  if superseded records p then { s with conflicts := s.conflicts + 1 }
  else if Cleaning.deleted versions records p then { s with deleted := s.deleted + 1 }
  else if p.1.signature ∈ s.seen then { s with duplicates := s.duplicates + 1 }
  else if required.any p.1.lacks then
    { s with seen := p.1.signature :: s.seen, rejected := s.rejected + 1 }
  else { s with seen := p.1.signature :: s.seen, kept := s.kept ++ [p] }

def run (versions : List DataVersion) (records : List Row) (required : List String) : Loop :=
  records.zipIdx.foldl (Loop.step versions records required) {}

end Cleaning

def cleanRecords (db : Datastore) (records : List Row) (required : List String) : CleanResult :=
  let loop := Cleaning.run db.versions records required
  { records := sortRows (loop.kept.map Prod.fst)
    quality := ⟨records.length, loop.conflicts, loop.deleted, loop.duplicates, loop.rejected, loop.kept.length⟩ }

namespace Cleaning

variable {versions : List DataVersion} {records : List Row} {required : List String}

/-! ## What the loop keeps -/

/-- What the loop did with the rows so far. -/
structure Kept (versions : List DataVersion) (records : List Row) (required : List String) (done : List PlacedRow)
    (s : Loop) : Prop where
  sublist : s.kept.Sublist done
  fine : ∀ p ∈ s.kept, superseded records p = false ∧ deleted versions records p = false ∧
    required.any p.1.lacks = false
  signatures : (s.kept.map fun p => p.1.signature).Nodup
  seen : ∀ p ∈ s.kept, p.1.signature ∈ s.seen
  counted : s.kept.length + (s.conflicts + s.deleted + s.duplicates + s.rejected) = done.length

theorem Kept.step {done : List PlacedRow} {s : Loop} (h : Kept versions records required done s) (p : PlacedRow) :
    Kept versions records required (done ++ [p]) (s.step versions records required p) := by
  have hcounted := h.counted
  have hmore : s.kept.Sublist (done ++ [p]) := h.sublist.trans (List.sublist_append_left _ _)
  unfold Loop.step
  split
  · exact ⟨hmore, h.fine, h.signatures, h.seen, by simp only [List.length_append, List.length_singleton]; omega⟩
  split
  · exact ⟨hmore, h.fine, h.signatures, h.seen, by simp only [List.length_append, List.length_singleton]; omega⟩
  split
  · exact ⟨hmore, h.fine, h.signatures, h.seen, by simp only [List.length_append, List.length_singleton]; omega⟩
  split
  · exact ⟨hmore, h.fine, h.signatures, fun q hq => List.mem_cons_of_mem _ (h.seen q hq),
      by simp only [List.length_append, List.length_singleton]; omega⟩
  · rename_i hsuperseded hdeleted hunseen hpresent
    refine ⟨h.sublist.append (List.Sublist.refl _), ?_, ?_, ?_, ?_⟩
    · intro q hq
      rcases List.mem_append.mp hq with hq | hq
      · exact h.fine q hq
      · rw [List.mem_singleton.mp hq]
        simp only [Bool.not_eq_true] at hsuperseded hdeleted hpresent
        exact ⟨hsuperseded, hdeleted, hpresent⟩
    · rw [List.map_append, List.nodup_append]
      refine ⟨h.signatures, List.nodup_singleton _, ?_⟩
      intro a ha b hb hab
      obtain ⟨q, hq, rfl⟩ := List.mem_map.mp ha
      rw [List.map_singleton, List.mem_singleton] at hb
      rw [← hb, ← hab] at hunseen
      exact hunseen (h.seen q hq)
    · intro q hq
      rcases List.mem_append.mp hq with hq | hq
      · exact List.mem_cons_of_mem _ (h.seen q hq)
      · rw [List.mem_singleton.mp hq]
        exact List.mem_cons_self
    · simp only [List.length_append, List.length_singleton]
      omega

theorem kept_run (versions : List DataVersion) (records : List Row) (required : List String) :
    Kept versions records required records.zipIdx (run versions records required) := by
  have h : Kept versions records required [] {} := by
    refine ⟨List.Sublist.refl _, ?_, List.nodup_nil, ?_, rfl⟩
    · intro p hp
      cases hp
    · intro p hp
      cases hp
  exact foldl_keeps (fun p h => h.step p) _ h

/-! ## Newest rows -/

theorem zipIdx_nodup (records : List Row) : (records.zipIdx.map Prod.snd).Nodup := by
  rw [List.zipIdx_map_snd]
  exact List.nodup_range'

theorem zipIdx_map_fst (records : List Row) : records.zipIdx.map Prod.fst = records := by
  simp

theorem newestOf_of_kept {p : PlacedRow} {key : String} (hmem : p ∈ records.zipIdx) (hkey : p.1.recordKey = some key)
    (h : superseded records p = false) : newestOf records key = some p := by
  rw [superseded, hkey] at h
  simp only [ne_eq, decide_not, Bool.not_eq_false', decide_eq_true_eq] at h
  obtain ⟨n, hn, hplace⟩ := Option.map_eq_some_iff.mp h
  rw [hn, List.inj_on_of_nodup_map (zipIdx_nodup records) (newest_mem hn).1 hmem hplace]

theorem rank_le_newest {p q : PlacedRow} {key : String} (h : newestOf records key = some p) (hmem : q ∈ records.zipIdx)
    (hkey : q.1.recordKey = some key) : q.1.rank ≤ p.1.rank := by
  have hle := @le_newest PlacedRow String _ _ _ (fun p => p.1.recordKey) (fun p => p.1.rank) key _ p q h hmem hkey
  exact hle

theorem kept_unique {p q : PlacedRow} {key : String} (hp : p ∈ (run versions records required).kept)
    (hq : q ∈ (run versions records required).kept) (hkey : p.1.recordKey = some key) (hkey' : q.1.recordKey = some key) :
    p = q := by
  have hkept := kept_run versions records required
  have hnewest := newestOf_of_kept (hkept.sublist.subset hp) hkey (hkept.fine p hp).1
  have hnewest' := newestOf_of_kept (hkept.sublist.subset hq) hkey' (hkept.fine q hq).1
  rw [hnewest, Option.some.injEq] at hnewest'
  exact hnewest'

theorem le_deletedIn {v : DataVersion} {key : String} (hv : v ∈ versions) (hrow : v.id ∈ records.map Row.dataVersionId)
    (hkey : key ∈ v.deletedKeys) : v.id ≤ deletedIn versions records key := by
  have hmem : v.id ∈ (versions.filter fun v => v.id ∈ records.map Row.dataVersionId ∧
      key ∈ v.deletedKeys).map DataVersion.id :=
    List.mem_map_of_mem (List.mem_filter.mpr ⟨hv, decide_eq_true ⟨hrow, hkey⟩⟩)
  have hmax : ∀ (l : List Nat) (m : Nat), m ≤ l.foldl max m ∧ ∀ n ∈ l, n ≤ l.foldl max m := by
    intro l
    induction l with
    | nil => exact fun m => ⟨Nat.le_refl _, fun n hn => by cases hn⟩
    | cons a l ih =>
      intro m
      obtain ⟨hm, hall⟩ := ih (max m a)
      refine ⟨Nat.le_trans (Nat.le_max_left _ _) hm, ?_⟩
      intro n hn
      rcases List.mem_cons.mp hn with rfl | hn
      · exact Nat.le_trans (Nat.le_max_right _ _) hm
      · exact hall n hn
  exact (hmax _ 0).2 _ hmem

/-! ## When every row stays -/

/-- Rows that cleaning has nothing to do with: a key is one row's, no newer version deletes it, no
two rows look the same, and none lacks a required value. -/
structure Spotless (versions : List DataVersion) (records : List Row) (required : List String) : Prop where
  once : ∀ r ∈ records, ∀ t ∈ records, ∀ key, r.recordKey = some key → t.recordKey = some key → r = t
  alive : ∀ r ∈ records, ∀ key, r.recordKey = some key → deletedIn versions records key ≤ r.dataVersionId
  distinct : ∀ r ∈ records, ∀ t ∈ records, r.signature = t.signature → r = t
  present : ∀ r ∈ records, required.any r.lacks = false

/-- A row the loop is through with is superseded or deleted, or its signature was seen; and where
a signature was seen, a row that looks so is kept or lacks a value. -/
structure Through (versions : List DataVersion) (records : List Row) (required : List String) (done : List PlacedRow)
    (s : Loop) : Prop where
  seen : ∀ sig ∈ s.seen, (∃ q ∈ s.kept, q.1.signature = sig) ∨
    ∃ q ∈ done, q.1.signature = sig ∧ required.any q.1.lacks = true
  through : ∀ p ∈ done, superseded records p = true ∨ deleted versions records p = true ∨ p.1.signature ∈ s.seen

theorem Through.step {done : List PlacedRow} {s : Loop} (h : Through versions records required done s) (p : PlacedRow) :
    Through versions records required (done ++ [p]) (s.step versions records required p) := by
  have hseen : ∀ sig ∈ s.seen, (∃ q ∈ s.kept, q.1.signature = sig) ∨
      ∃ q ∈ done ++ [p], q.1.signature = sig ∧ required.any q.1.lacks = true := by
    intro sig hsig
    rcases h.seen sig hsig with hq | ⟨q, hq, hlacks⟩
    · exact .inl hq
    · exact .inr ⟨q, List.mem_append_left _ hq, hlacks⟩
  have hlast : ∀ seen : List (String × String), (∀ sig ∈ s.seen, sig ∈ seen) → (superseded records p = true ∨
      deleted versions records p = true ∨ p.1.signature ∈ seen) → ∀ q ∈ done ++ [p], superseded records q = true ∨
      deleted versions records q = true ∨ q.1.signature ∈ seen := by
    intro seen hmore hp q hq
    rcases List.mem_append.mp hq with hq | hq
    · exact (h.through q hq).imp_right fun hq => hq.imp_right (hmore _)
    · rw [List.mem_singleton.mp hq]
      exact hp
  unfold Loop.step
  split
  · rename_i hp
    exact ⟨hseen, hlast _ (fun _ hq => hq) (.inl hp)⟩
  split
  · rename_i hp
    exact ⟨hseen, hlast _ (fun _ hq => hq) (.inr (.inl hp))⟩
  split
  · rename_i hp
    exact ⟨hseen, hlast _ (fun _ hq => hq) (.inr (.inr hp))⟩
  have hhead : p.1.signature ∈ p.1.signature :: s.seen := List.mem_cons_self
  split
  · rename_i hlacks
    refine ⟨?_, hlast _ (fun q hq => List.mem_cons_of_mem _ hq) (.inr (.inr hhead))⟩
    intro sig hsig
    rcases List.mem_cons.mp hsig with rfl | hsig
    · exact .inr ⟨p, List.mem_append_right _ (List.mem_singleton.mpr rfl), rfl, hlacks⟩
    · exact hseen sig hsig
  · refine ⟨?_, hlast _ (fun q hq => List.mem_cons_of_mem _ hq) (.inr (.inr hhead))⟩
    intro sig hsig
    rcases List.mem_cons.mp hsig with rfl | hsig
    · exact .inl ⟨p, List.mem_append_right _ (List.mem_singleton.mpr rfl), rfl⟩
    · rcases hseen sig hsig with ⟨q, hq, heq⟩ | hlacks
      · exact .inl ⟨q, List.mem_append_left _ hq, heq⟩
      · exact .inr hlacks

theorem through_run (versions : List DataVersion) (records : List Row) (required : List String) :
    Through versions records required records.zipIdx (run versions records required) := by
  have hstart : Through versions records required [] {} := ⟨fun sig hsig => (by cases hsig), fun p hp => (by cases hp)⟩
  exact foldl_keeps (fun p h => h.step p) _ hstart

theorem mem_of_placed {p : PlacedRow} (h : p ∈ records.zipIdx) : p.1 ∈ records := by
  rw [← zipIdx_map_fst records]
  exact List.mem_map_of_mem h

theorem placed_of_mem {r : Row} (h : r ∈ records) : ∃ i, (r, i) ∈ records.zipIdx := by
  rw [← zipIdx_map_fst records] at h
  obtain ⟨⟨r', i⟩, hp, rfl⟩ := List.mem_map.mp h
  exact ⟨i, hp⟩

theorem spotless_of_all (h : ∀ r ∈ records, r ∈ (run versions records required).kept.map Prod.fst) :
    Spotless versions records required := by
  have hkept := kept_run versions records required
  have hplaced : ∀ r ∈ records, ∃ i, (r, i) ∈ (run versions records required).kept := by
    intro r hr
    obtain ⟨⟨r', i⟩, hp, rfl⟩ := List.mem_map.mp (h r hr)
    exact ⟨i, hp⟩
  constructor
  · intro r hr t ht key hrkey htkey
    obtain ⟨i, hi⟩ := hplaced r hr
    obtain ⟨j, hj⟩ := hplaced t ht
    exact congrArg Prod.fst (kept_unique hi hj hrkey htkey)
  · intro r hr key hkey
    obtain ⟨i, hi⟩ := hplaced r hr
    have halive := (hkept.fine _ hi).2.1
    rw [deleted, hkey] at halive
    exact Nat.le_of_not_lt (of_decide_eq_false halive)
  · intro r hr t ht hsig
    obtain ⟨i, hi⟩ := hplaced r hr
    obtain ⟨j, hj⟩ := hplaced t ht
    exact congrArg Prod.fst (List.inj_on_of_nodup_map hkept.signatures hi hj hsig)
  · intro r hr
    obtain ⟨i, hi⟩ := hplaced r hr
    exact (hkept.fine _ hi).2.2

theorem all_of_spotless (h : Spotless versions records required) :
    ∀ r ∈ records, r ∈ (run versions records required).kept.map Prod.fst := by
  have hkept := kept_run versions records required
  have hthrough := through_run versions records required
  have hstays : ∀ p ∈ records.zipIdx, superseded records p = false →
      p.1 ∈ (run versions records required).kept.map Prod.fst := by
    intro p hp hsuperseded
    rcases hthrough.through p hp with habsurd | hdeleted | hseen
    · rw [hsuperseded] at habsurd
      cases habsurd
    · unfold deleted at hdeleted
      split at hdeleted
      · rename_i key hkey
        have halive := h.alive p.1 (mem_of_placed hp) key hkey
        exact absurd (of_decide_eq_true hdeleted) (Nat.not_lt_of_le halive)
      · cases hdeleted
    · rcases hthrough.seen _ hseen with ⟨q, hq, hsig⟩ | ⟨q, hq, -, hlacks⟩
      · rw [← h.distinct q.1 (mem_of_placed (hkept.sublist.subset hq)) p.1 (mem_of_placed hp) hsig]
        exact List.mem_map_of_mem hq
      · rw [h.present q.1 (mem_of_placed hq)] at hlacks
        cases hlacks
  intro r hr
  obtain ⟨i, hi⟩ := placed_of_mem hr
  cases hsuperseded : superseded records (r, i) with
  | false => exact hstays (r, i) hi hsuperseded
  | true =>
    -- the newest row of the key is the same row
    cases hkey : r.recordKey with
    | none =>
      rw [superseded, hkey] at hsuperseded
      cases hsuperseded
    | some key =>
      obtain ⟨n, hn⟩ := @exists_newest PlacedRow String _ _ _ (fun p => p.1.recordKey)
        (fun p => p.1.rank) key _ (r, i) hi hkey
      obtain ⟨hmem, hnkey⟩ := newest_mem hn
      have hnewest : superseded records n = false := by
        have hof : newestOf records key = some n := hn
        rw [superseded, hnkey]
        simp [hof]
      have hstay := hstays n hmem hnewest
      rw [h.once n.1 (mem_of_placed hmem) r hr key hnkey hkey] at hstay
      exact hstay

/-- Every row stays exactly when the rows are spotless. -/
theorem mem_cleanRecords_iff {db : Datastore} : (∀ r ∈ records, r ∈ (cleanRecords db records required).records) ↔
    Spotless db.versions records required := by
  have hmem : ∀ r, r ∈ (cleanRecords db records required).records ↔
      r ∈ (run db.versions records required).kept.map Prod.fst :=
    fun r => (List.perm_insertionSort _ _).mem_iff
  simp only [hmem]
  exact ⟨spotless_of_all, all_of_spotless⟩

end Cleaning

end OranAdapt
