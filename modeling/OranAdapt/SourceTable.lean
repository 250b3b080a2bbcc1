import OranAdapt.CdcPolling
import Mathlib.Data.List.AList

/-!
# The source table

The table the changelog triggers stand on: one row for each key, written by
statements that the primary key lets through. A change is told at one place, a
key and a dataset: of an update that is where the row arrives, and nothing is
told of the place it leaves.
-/

namespace OranAdapt

variable {δ : Type}

def ChangelogTrigger.keyText (t : ChangelogTrigger) (row : JsonDict) : String := t.text (JsonDict.read row t.key)

def RowChange.told : RowChange → JsonDict
  | insert new | update _ new => new
  | delete old => old

structure SourceTable (t : ChangelogTrigger) where
  rows : AList fun _ : String => JsonDict := ∅
  keyed : ∀ {key : String} {row : JsonDict}, rows.lookup key = some row → t.keyText row = key

inductive Statement where
  | insert (row : JsonDict)
  | update (key : String) (row : JsonDict)
  | delete (key : String)

namespace SourceTable

variable {t : ChangelogTrigger}

theorem keyed_empty {key : String} {row : JsonDict} (h : (∅ : AList fun _ : String => JsonDict).lookup key = some row) :
    t.keyText row = key := by
  rw [AList.lookup_empty] at h
  cases h

def empty (t : ChangelogTrigger) : SourceTable t := ⟨∅, keyed_empty⟩

variable (table : SourceTable t)

theorem keyed_insert {rows : AList fun _ : String => JsonDict}
    (h : ∀ {key : String} {row : JsonDict}, rows.lookup key = some row → t.keyText row = key)
    (new : JsonDict) {key : String}
    {row : JsonDict} (hrow : (rows.insert (t.keyText new) new).lookup key = some row) : t.keyText row = key := by
  by_cases hkey : key = t.keyText new
  · subst hkey
    rw [AList.lookup_insert, Option.some.injEq] at hrow
    rw [hrow]
  · rw [AList.lookup_insert_ne hkey] at hrow
    exact h hrow

theorem keyed_erase {rows : AList fun _ : String => JsonDict}
    (h : ∀ {key : String} {row : JsonDict}, rows.lookup key = some row → t.keyText row = key)
    (gone : String) {key : String}
    {row : JsonDict} (hrow : (rows.erase gone).lookup key = some row) : t.keyText row = key := by
  by_cases hkey : key = gone
  · subst hkey
    rw [AList.lookup_erase] at hrow
    cases hrow
  · rw [AList.lookup_erase_ne hkey] at hrow
    exact h hrow

def put (new : JsonDict) : SourceTable t := ⟨table.rows.insert (t.keyText new) new, keyed_insert table.keyed new⟩

def drop (key : String) : SourceTable t := ⟨table.rows.erase key, keyed_erase table.keyed key⟩

/-- The change a statement makes, `none` when it finds no row or the key is taken. -/
def change : Statement → Option RowChange
  | .insert new => if (table.rows.lookup (t.keyText new)).isNone then some (.insert new) else none
  | .update key new =>
    (table.rows.lookup key).bind fun old =>
      if t.keyText new = key ∨ (table.rows.lookup (t.keyText new)).isNone then some (.update old new) else none
  | .delete key => (table.rows.lookup key).map .delete

def apply : RowChange → SourceTable t
  | .insert new => table.put new
  | .update old new => (table.drop (t.keyText old)).put new
  | .delete old => table.drop (t.keyText old)

end SourceTable

/-- The changes written so far, and the table they left. -/
inductive TableHistory (t : ChangelogTrigger) : List RowChange → SourceTable t → Prop
  | nil : TableHistory t [] (SourceTable.empty t)
  | snoc {changes : List RowChange} {table : SourceTable t} {s : Statement} {c : RowChange} (h : TableHistory t changes table)
      (hc : table.change s = some c) : TableHistory t (changes ++ [c]) (table.apply c)

/-! ## Places -/

section
variable (t : ChangelogTrigger) (datasetOf : JsonDict → Option String) (dataset key : String)

def StandsAt (row : JsonDict) : Prop := t.keyText row = key ∧ datasetOf row = some dataset

instance (row : JsonDict) : Decidable (StandsAt t datasetOf dataset key row) := inferInstanceAs (Decidable (_ ∧ _))

def SourceTable.rowAt {t : ChangelogTrigger} (table : SourceTable t) (datasetOf : JsonDict → Option String)
    (dataset key : String) : Option JsonDict :=
  (table.rows.lookup key).filter fun row => datasetOf row = some dataset

def lastTold (changes : List RowChange) : Option (Option JsonDict) :=
  ((changes.filter fun c => StandsAt t datasetOf dataset key c.told).getLast?).map RowChange.new

/-- An update takes the row at a place elsewhere. -/
def MovesFrom (c : RowChange) : Prop :=
  ∃ old new, c = .update old new ∧ StandsAt t datasetOf dataset key old ∧ ¬StandsAt t datasetOf dataset key new

def LeftBehind (changes : List RowChange) : Prop :=
  ∃ pre c post, changes = pre ++ c :: post ∧ MovesFrom t datasetOf dataset key c ∧
    ∀ later ∈ post, ¬StandsAt t datasetOf dataset key later.told

end

/-- Every place an update takes a row from is told of again. -/
def NoneLeftBehind (t : ChangelogTrigger) (datasetOf : JsonDict → Option String) (changes : List RowChange) : Prop :=
  ∀ dataset key, ¬LeftBehind t datasetOf dataset key changes

variable {t : ChangelogTrigger} {datasetOf : JsonDict → Option String} {dataset key : String} {changes : List RowChange}
  {c : RowChange}

theorem lastTold_snoc : lastTold t datasetOf dataset key (changes ++ [c]) =
    if StandsAt t datasetOf dataset key c.told then some c.new else lastTold t datasetOf dataset key changes := by
  unfold lastTold
  rw [List.filter_append]
  by_cases hc : StandsAt t datasetOf dataset key c.told
  · simp [hc]
  · simp [hc]

theorem leftBehind_snoc : LeftBehind t datasetOf dataset key (changes ++ [c]) ↔
    ¬StandsAt t datasetOf dataset key c.told ∧ LeftBehind t datasetOf dataset key changes ∨
      MovesFrom t datasetOf dataset key c := by
  constructor
  · rintro ⟨pre, x, post, heq, hleaves, hpost⟩
    rcases List.eq_nil_or_concat post with rfl | ⟨post, y, rfl⟩
    · have hx := (List.append_inj' heq rfl).2
      rw [List.cons.injEq] at hx
      exact .inr (hx.1 ▸ hleaves)
    · rw [List.concat_eq_append, ← List.cons_append, ← List.append_assoc] at heq
      obtain ⟨hpre, hy⟩ := List.append_inj' heq rfl
      rw [List.cons.injEq] at hy
      rw [hy.1]
      exact .inl ⟨hpost y (by simp), pre, x, post, hpre, hleaves,
        fun later hl => hpost later (by simp [hl])⟩
  · rintro (⟨htold, pre, x, post, rfl, hleaves, hpost⟩ | hleaves)
    · refine ⟨pre, x, post ++ [c], by simp, hleaves, ?_⟩
      intro later hl
      rcases List.mem_append.mp hl with hl | hl
      · exact hpost later hl
      · rw [List.mem_singleton.mp hl]
        exact htold
    · exact ⟨changes, c, [], rfl, hleaves, fun _ hl => absurd hl List.not_mem_nil⟩

namespace SourceTable

variable {table : SourceTable t} {row new : JsonDict}

theorem rowAt_eq_some : table.rowAt datasetOf dataset key = some row ↔
    table.rows.lookup key = some row ∧ datasetOf row = some dataset := by
  rw [rowAt, Option.filter_eq_some_iff, decide_eq_true_eq]

theorem rowAt_eq_none (h : table.rows.lookup key = none) : table.rowAt datasetOf dataset key = none := by
  rw [rowAt, h]
  rfl

/-- After a row is put, its own place has it, and every other place of its key is bare. -/
theorem rowAt_put : (table.put new).rowAt datasetOf dataset key =
    if t.keyText new = key then if datasetOf new = some dataset then some new else none
    else table.rowAt datasetOf dataset key := by
  unfold rowAt put
  by_cases hkey : t.keyText new = key
  · subst hkey
    rw [AList.lookup_insert, if_pos rfl]
    by_cases hd : datasetOf new = some dataset
    · simp [Option.filter, hd]
    · simp [Option.filter, hd]
  · rw [AList.lookup_insert_ne (Ne.symm hkey), if_neg hkey]

theorem rowAt_drop {gone : String} : (table.drop gone).rowAt datasetOf dataset key =
    if gone = key then none else table.rowAt datasetOf dataset key := by
  unfold rowAt drop
  by_cases hkey : gone = key
  · subst hkey
    rw [AList.lookup_erase, if_pos rfl]
    rfl
  · rw [AList.lookup_erase_ne (Ne.symm hkey), if_neg hkey]

theorem change_ok {s : Statement} (h : table.change s = some c) :
    (∀ old, c.old = some old → table.rows.lookup (t.keyText old) = some old) ∧
      ∀ new, c.new = some new → table.rows.lookup (t.keyText new) = none ∨
        ∃ old, c.old = some old ∧ t.keyText old = t.keyText new := by
  cases s with
  | insert new =>
    rw [change] at h
    split at h
    · rename_i hfree
      cases h
      exact ⟨nofun, fun _ hn => Option.some.inj hn ▸ .inl (Option.isNone_iff_eq_none.mp hfree)⟩
    · cases h
  | update key new =>
    obtain ⟨old, hold, h⟩ := Option.bind_eq_some_iff.mp h
    have hkey : t.keyText old = key := table.keyed hold
    subst hkey
    split at h
    · rename_i hfree
      cases h
      refine ⟨fun _ ho => Option.some.inj ho ▸ hold, fun _ hn => Option.some.inj hn ▸ ?_⟩
      rcases hfree with hsame | hnone
      · exact .inr ⟨old, rfl, hsame.symm⟩
      · exact .inl (Option.isNone_iff_eq_none.mp hnone)
    · cases h
  | delete key =>
    obtain ⟨old, hold, rfl⟩ := Option.map_eq_some_iff.mp h
    have hkey : t.keyText old = key := table.keyed hold
    subst hkey
    exact ⟨fun _ ho => Option.some.inj ho ▸ hold, nofun⟩

theorem rowAt_apply_told (c : RowChange) (h : StandsAt t datasetOf dataset key c.told) :
    (table.apply c).rowAt datasetOf dataset key = c.new := by
  obtain ⟨hkey, hdataset⟩ := h
  cases c with
  | insert new => exact rowAt_put.trans ((if_pos hkey).trans (if_pos hdataset))
  | update old new => exact rowAt_put.trans ((if_pos hkey).trans (if_pos hdataset))
  | delete old => exact rowAt_drop.trans (if_pos hkey)

theorem rowAt_apply_leaves {s : Statement} (hc : table.change s = some c) (h : MovesFrom t datasetOf dataset key c) :
    (∃ old, c.old = some old ∧ table.rowAt datasetOf dataset key = some old) ∧
      (table.apply c).rowAt datasetOf dataset key = none := by
  obtain ⟨old, new, rfl, ⟨hkey, hdataset⟩, hnew⟩ := h
  subst hkey
  refine ⟨⟨old, rfl, rowAt_eq_some.mpr ⟨(change_ok hc).1 old rfl, hdataset⟩⟩, rowAt_put.trans ?_⟩
  by_cases hsame : t.keyText new = t.keyText old
  · rw [if_pos hsame]
    exact if_neg fun hd => hnew ⟨hsame, hd⟩
  · rw [if_neg hsame]
    exact rowAt_drop.trans (if_pos rfl)

theorem rowAt_apply_other {s : Statement} (hc : table.change s = some c) (htold : ¬StandsAt t datasetOf dataset key c.told)
    (hleaves : ¬MovesFrom t datasetOf dataset key c) :
    (table.apply c).rowAt datasetOf dataset key = table.rowAt datasetOf dataset key := by
  obtain ⟨hold, hnew⟩ := change_ok hc
  -- a row under the key that is not of the dataset
  have hbare : ∀ row, table.rows.lookup key = some row → ¬StandsAt t datasetOf dataset key row →
      table.rowAt datasetOf dataset key = none := by
    intro row hrow hnot
    rw [rowAt, hrow]
    exact Option.filter_some_neg (by simpa using fun hd => hnot ⟨table.keyed hrow, hd⟩)
  cases c with
  | insert new =>
    refine rowAt_put.trans ?_
    by_cases hkey : t.keyText new = key
    · subst hkey
      have hother : datasetOf new ≠ some dataset := fun hd => htold ⟨rfl, hd⟩
      rw [if_pos rfl, if_neg hother]
      rcases hnew new rfl with hnone | ⟨_, habsurd, -⟩
      · exact (rowAt_eq_none hnone).symm
      · cases habsurd
    · exact if_neg hkey
  | update old new =>
    have hstays : ¬StandsAt t datasetOf dataset key old := fun ho => hleaves ⟨old, new, rfl, ho, htold⟩
    refine rowAt_put.trans ?_
    by_cases hkey : t.keyText new = key
    · subst hkey
      have hother : datasetOf new ≠ some dataset := fun hd => htold ⟨rfl, hd⟩
      rw [if_pos rfl, if_neg hother]
      rcases hnew new rfl with hnone | ⟨_, hsome, hsame⟩
      · exact (rowAt_eq_none hnone).symm
      · cases hsome
        have hrow := hold old rfl
        rw [hsame] at hrow
        exact (hbare old hrow hstays).symm
    · rw [if_neg hkey]
      refine rowAt_drop.trans ?_
      by_cases hgone : t.keyText old = key
      · subst hgone
        rw [if_pos rfl]
        exact (hbare old (hold old rfl) hstays).symm
      · exact if_neg hgone
  | delete old =>
    refine rowAt_drop.trans ?_
    by_cases hgone : t.keyText old = key
    · subst hgone
      rw [if_pos rfl]
      exact (hbare old (hold old rfl) htold).symm
    · exact if_neg hgone

end SourceTable

/-- A place that was left and not told of since is bare, and what was last told there is a row;
every other place has the row that was last told there. -/
theorem TableHistory.places {table : SourceTable t} (h : TableHistory t changes table)
    (datasetOf : JsonDict → Option String)
    (dataset key : String) :
    LeftBehind t datasetOf dataset key changes ∧ table.rowAt datasetOf dataset key = none ∧
        (∃ old, lastTold t datasetOf dataset key changes = some (some old)) ∨
      ¬LeftBehind t datasetOf dataset key changes ∧
        (lastTold t datasetOf dataset key changes).join = table.rowAt datasetOf dataset key := by
  induction h with
  | nil =>
    refine .inr ⟨?_, rfl⟩
    rintro ⟨pre, c, post, heq, -⟩
    simp at heq
  | @snoc changes table s c _ hc ih =>
    rw [leftBehind_snoc, lastTold_snoc]
    by_cases htold : StandsAt t datasetOf dataset key c.told
    · have hstays : ¬MovesFrom t datasetOf dataset key c := by
        rintro ⟨old, new, rfl, -, hnew⟩
        exact hnew htold
      rw [if_pos htold, SourceTable.rowAt_apply_told c htold]
      exact .inr ⟨by simp [htold, hstays], rfl⟩
    · rw [if_neg htold]
      by_cases hleaves : MovesFrom t datasetOf dataset key c
      · obtain ⟨⟨old, -, hrow⟩, hbare⟩ := SourceTable.rowAt_apply_leaves hc hleaves
        refine .inl ⟨.inr hleaves, hbare, old, ?_⟩
        rcases ih with ⟨-, hnone, -⟩ | ⟨-, hlast⟩
        · rw [hrow] at hnone
          cases hnone
        · rw [hrow] at hlast
          exact Option.join_eq_some_iff.mp hlast
      · rw [SourceTable.rowAt_apply_other hc htold hleaves]
        simp only [htold, hleaves, not_false_eq_true, true_and, or_false]
        exact ih

end OranAdapt
