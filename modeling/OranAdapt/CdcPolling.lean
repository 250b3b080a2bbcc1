import OranAdapt.CdcStore
import Mathlib.Data.List.Sort

/-!
# The polling source

The changelog triggers and `PollingCdcSource`. A trigger numbers its row when
the statement runs, and the row is seen once its transaction commits; the
poller reads past the number it saved. A transaction's rows wait in `pending`
until then. A commit between a poll's read and its store is one after the poll,
which reads the changelog once.
-/

namespace OranAdapt

open Effects

variable {δ : Type}

/-! ## The triggers -/

inductive RowChange where
  | insert (new : JsonDict)
  | update (old new : JsonDict)
  | delete (old : JsonDict)

def RowChange.operation : RowChange → CdcOperation
  | insert _ => .insert
  | update _ _ => .update
  | delete _ => .delete

def RowChange.old : RowChange → Option JsonDict
  | insert _ => none
  | update old _ | delete old => some old

def RowChange.new : RowChange → Option JsonDict
  | insert new | update _ new => some new
  | delete _ => none

/-- The key column of the triggers, and the text a key is cast to. -/
structure ChangelogTrigger where
  key : String
  text : Json → String

def ChangelogTrigger.pk (t : ChangelogTrigger) : RowChange → String
  | .delete old => t.text (JsonDict.read old t.key)
  | .insert new | .update _ new => t.text (JsonDict.read new t.key)

def ChangelogTrigger.row (t : ChangelogTrigger) (table : String) (change : RowChange) (seq : Nat) (txId : Option String)
    (changedAt : String) : ChangelogRow where
  seq
  tableName := table
  operation := change.operation.value
  pk := t.pk change
  oldRow := change.old.map .obj
  newRow := change.new.map .obj
  txId
  changedAt

def ChangelogTrigger.postgresql (t : ChangelogTrigger) (table : String) (change : RowChange) (seq txid : Nat)
    (changedAt : String) : ChangelogRow :=
  t.row table change seq (some (toString txid)) changedAt

def ChangelogTrigger.sqlite (t : ChangelogTrigger) (table : String) (change : RowChange) (seq : Nat)
    (changedAt : String) : ChangelogRow :=
  t.row table change seq none changedAt

/-! ## The source -/

structure PollingCdcSource where
  table : String
  schemaRef : String
  mapping : CdcRowMapping := {}

namespace PollingCdcSource

variable (src : PollingCdcSource) (c : CdcCodec δ)

def name : String := s!"polling:{src.table}"

/-- `int(get_offset(session, self.name) or 0)` -/
def after (db : CdcDb δ) : Except AdaptationError Nat :=
  match getOffset db src.name with
  | none => .ok 0
  | some (.seq n) => .ok n
  | some (.offsets _) => .error (pythonError "ValueError")

/-- The rows a batch takes: `ORDER BY seq LIMIT`. -/
def due (after limit : Nat) (changelog : List ChangelogRow) : List ChangelogRow :=
  ((changelog.filter fun r => r.tableName = src.table ∧ after < r.seq).insertionSort (·.seq ≤ ·.seq)).take limit

def batch (limit : Nat) (w : CdcWorld (List ChangelogRow) δ) :
    Except AdaptationError (List (CdcEvent δ) × Option Position) := do
  let after ← src.after w.db
  let rows := src.due after limit w.outside
  let events ← rows.mapM (fromChangelogRow c src.schemaRef src.mapping)
  pure (events, rows.getLast?.map (.seq ·.seq))

def port (read : Fate AdaptationError) : CdcSource (List ChangelogRow) δ where
  name := src.name
  fetch limit := perform read fun w => (src.batch c limit w).map (·, w)
  ack := pure ()

end PollingCdcSource

/-! ## Transactions and polls -/

/-- The answers of one poll, and `cdc_batch_size`. -/
structure PollAnswers where
  limit : Nat
  read : Fate AdaptationError := .ok
  store : Fate AdaptationError := .ok
  limit_pos : 1 ≤ limit := by decide

def PollAnswers.lands (f : PollAnswers) : Bool := decide (f.read = .ok) && f.store.takesEffect

inductive PollAction where
  /-- a statement of the transaction `tx` on `table`, and the time of it -/
  | change (tx : Nat) (table : String) (row : RowChange) (changedAt : String)
  | commit (tx : Nat)
  | abort (tx : Nat)
  | poll (f : PollAnswers)

structure PollWorld (δ : Type) where
  lastSeq : Nat := 0
  pending : List (Nat × ChangelogRow) := []
  changelog : List ChangelogRow := []
  db : CdcDb δ := {}

structure Poller (δ : Type) where
  codec : CdcCodec δ
  source : PollingCdcSource
  trigger : ChangelogTrigger

namespace Poller

variable [DecidableEq δ] (p : Poller δ)

def poll (f : PollAnswers) (w : PollWorld δ) : PollWorld δ :=
  { w with db := ((runCdcOnce (p.source.port p.codec f.read) f.limit f.store).after ⟨w.changelog, w.db⟩).db }

def step (w : PollWorld δ) : PollAction → PollWorld δ
  | .change tx table row changedAt =>
    { w with
      lastSeq := w.lastSeq + 1
      pending := w.pending ++ [(tx, p.trigger.postgresql table row (w.lastSeq + 1) tx changedAt)] }
  | .commit tx =>
    { w with
      pending := w.pending.filter fun x => x.1 ≠ tx
      changelog := w.changelog ++ (w.pending.filter fun x => x.1 = tx).map (·.2) }
  | .abort tx => { w with pending := w.pending.filter fun x => x.1 ≠ tx }
  | .poll f => p.poll f w

def run (as : List PollAction) (w : PollWorld δ) : PollWorld δ := as.foldl p.step w

end Poller

/-! ## What a batch takes -/

instance : Std.Total fun a b : ChangelogRow => a.seq ≤ b.seq := ⟨fun a b => Nat.le_total a.seq b.seq⟩

instance : IsTrans ChangelogRow fun a b => a.seq ≤ b.seq := ⟨fun _ _ _ h h' => Nat.le_trans h h'⟩

namespace PollingCdcSource

variable (src : PollingCdcSource) {after limit : Nat} {log : List ChangelogRow} {r l : ChangelogRow}

def Past (after : Nat) (log : List ChangelogRow) (r : ChangelogRow) : Prop :=
  r ∈ log ∧ r.tableName = src.table ∧ after < r.seq

/-- The rows past the saved number are those taken and those left, which come after. -/
theorem due_split (after limit : Nat) (log : List ChangelogRow) :
    ∃ rest, (src.due after limit log ++ rest).Perm (log.filter fun r => r.tableName = src.table ∧ after < r.seq) ∧
      (src.due after limit log ++ rest).Pairwise (·.seq ≤ ·.seq) ∧
      (rest ≠ [] → (src.due after limit log).length = limit) := by
  unfold due
  generalize log.filter (fun r => r.tableName = src.table ∧ after < r.seq) = past
  refine ⟨(past.insertionSort (·.seq ≤ ·.seq)).drop limit, ?_, ?_, ?_⟩
  · rw [List.take_append_drop]
    exact List.perm_insertionSort _ _
  · rw [List.take_append_drop]
    exact List.pairwise_insertionSort _ _
  · intro hrest
    rw [ne_eq, List.drop_eq_nil_iff, Nat.not_le] at hrest
    rw [List.length_take]
    omega

theorem past_of_due (h : r ∈ src.due after limit log) : src.Past after log r := by
  have hr := (List.mem_insertionSort _).mp (List.mem_of_mem_take h)
  have hp := List.mem_filter.mp hr
  simp only [decide_eq_true_eq] at hp
  exact hp

theorem le_last (h : (src.due after limit log).getLast? = some l) (hr : r ∈ src.due after limit log) : r.seq ≤ l.seq := by
  obtain ⟨rest, -, hsort, -⟩ := src.due_split after limit log
  obtain ⟨ys, hys⟩ := List.getLast?_eq_some_iff.mp h
  have hs := (List.pairwise_append.mp hsort).1
  rw [hys] at hs hr
  rcases List.mem_append.mp hr with hr | hr
  · exact (List.pairwise_append.mp hs).2.2 r hr l (.head _)
  · rw [List.mem_singleton.mp hr]

theorem mem_or_rest {rest : List ChangelogRow}
    (hperm : (src.due after limit log ++ rest).Perm (log.filter fun r => r.tableName = src.table ∧ after < r.seq))
    (h : src.Past after log r) : r ∈ src.due after limit log ∨ r ∈ rest := by
  refine List.mem_append.mp (hperm.mem_iff.mpr (List.mem_filter.mpr ⟨h.1, ?_⟩))
  simpa using h.2

/-- Every row up to the last row taken is taken. -/
theorem due_of_le (hlog : (log.map (·.seq)).Nodup) (h : (src.due after limit log).getLast? = some l)
    (hr : src.Past after log r) (hle : r.seq ≤ l.seq) : r ∈ src.due after limit log := by
  obtain ⟨rest, hperm, hsort, -⟩ := src.due_split after limit log
  have hl : l ∈ src.due after limit log := List.mem_of_getLast? h
  rcases src.mem_or_rest hperm hr with hr' | hr'
  · exact hr'
  · have hge := (List.pairwise_append.mp hsort).2.2 l hl r hr'
    have heq := List.inj_on_of_nodup_map hlog hr.1 (src.past_of_due hl).1 (Nat.le_antisymm hle hge)
    exact heq ▸ hl

theorem due_last (hlimit : 1 ≤ limit) (hr : src.Past after log r) :
    ∃ l, (src.due after limit log).getLast? = some l := by
  obtain ⟨rest, hperm, -, hfull⟩ := src.due_split after limit log
  cases hd : src.due after limit log with
  | cons x xs => exact ⟨_, List.getLast?_eq_some_getLast (List.cons_ne_nil x xs)⟩
  | nil =>
    rcases src.mem_or_rest hperm hr with hr' | hr'
    · rw [hd] at hr'
      cases hr'
    · have := hfull (List.ne_nil_of_mem hr')
      rw [hd] at this
      rw [← this] at hlimit
      cases hlimit

/-- A batch reaches past the number `n`, which no row has, exactly when some row is above it and
the rows below it do not fill the batch. -/
theorem reaches_iff {n : Nat} (hn : ∀ v ∈ log, v.seq ≠ n) :
    (∃ l, (src.due after limit log).getLast? = some l ∧ n < l.seq) ↔
      (∃ v, src.Past after log v ∧ n < v.seq) ∧
        (log.countP fun v => v.tableName = src.table ∧ after < v.seq ∧ v.seq < n) < limit := by
  obtain ⟨rest, hperm, hsort, hfull⟩ := src.due_split after limit log
  have hbelow : (log.countP fun v => v.tableName = src.table ∧ after < v.seq ∧ v.seq < n) =
      (src.due after limit log ++ rest).countP (·.seq < n) := by
    rw [hperm.countP_eq, List.countP_filter]
    congr 1
    funext v
    rw [Bool.eq_iff_iff]
    simp only [Bool.and_eq_true, decide_eq_true_eq]
    grind
  rw [hbelow, List.countP_append]
  constructor
  · rintro ⟨l, hl, hlt⟩
    have hmem : l ∈ src.due after limit log := List.mem_of_getLast? hl
    refine ⟨⟨l, src.past_of_due hmem, hlt⟩, ?_⟩
    have hrest : rest.countP (·.seq < n) = 0 := by
      refine List.countP_eq_zero.mpr fun v hv => ?_
      have := (List.pairwise_append.mp hsort).2.2 l hmem v hv
      simp only [decide_eq_true_eq, Nat.not_lt]
      omega
    have hdue : (src.due after limit log).countP (·.seq < n) < (src.due after limit log).length := by
      refine Nat.lt_of_le_of_ne List.countP_le_length fun h => ?_
      have := List.countP_eq_length.mp h l hmem
      simp only [decide_eq_true_eq] at this
      omega
    have hlen : (src.due after limit log).length ≤ limit := List.length_take_le _ _
    omega
  · rintro ⟨⟨v, hv, hlt⟩, hcount⟩
    by_cases habove : ∃ x ∈ src.due after limit log, n < x.seq
    · obtain ⟨x, hx, hnx⟩ := habove
      obtain ⟨l, hl⟩ := src.due_last (Nat.lt_of_le_of_lt (Nat.zero_le _) hcount) (src.past_of_due hx)
      exact ⟨l, hl, Nat.lt_of_lt_of_le hnx (src.le_last hl hx)⟩
    · exfalso
      have hall : (src.due after limit log).countP (·.seq < n) = (src.due after limit log).length := by
        refine List.countP_eq_length.mpr fun x hx => ?_
        have hne := hn x (src.past_of_due hx).1
        have hle : ¬ n < x.seq := fun h => habove ⟨x, hx, h⟩
        simp only [decide_eq_true_eq]
        omega
      rcases src.mem_or_rest hperm hv with hv' | hv'
      · exact habove ⟨v, hv', hlt⟩
      · have := hfull (List.ne_nil_of_mem hv')
        omega

end PollingCdcSource

/-! ## What a poll does -/

namespace Poller

variable (p : Poller δ)

/-- The number saved for the source, 0 before the first batch. -/
def saved (w : PollWorld δ) : Nat :=
  match getOffset w.db p.source.name with
  | some (.seq n) => n
  | _ => 0

def Becomes (r : ChangelogRow) (e : CdcEvent δ) : Prop :=
  fromChangelogRow p.codec p.source.schemaRef p.source.mapping r = .ok e

def Stored (w : PollWorld δ) (r : ChangelogRow) : Prop := ∃ x ∈ w.db.events, p.Becomes r x.event

theorem batch_ok {limit : Nat} {w : PollWorld δ} {events : List (CdcEvent δ)} {position : Option Position}
    (h : p.source.batch p.codec limit ⟨w.changelog, w.db⟩ = .ok (events, position)) :
    List.Forall₂ p.Becomes (p.source.due (p.saved w) limit w.changelog) events ∧
      position = (p.source.due (p.saved w) limit w.changelog).getLast?.map (.seq ·.seq) := by
  obtain ⟨after, hafter, h⟩ := bind_ok h
  obtain ⟨events', hevents, h⟩ := bind_ok h
  have hsaved : after = p.saved w := by
    unfold PollingCdcSource.after at hafter
    unfold saved
    split at hafter
    · rename_i ho; cases hafter; rw [ho]
    · rename_i ho; cases hafter; rw [ho]
    · cases hafter
  subst hsaved
  cases h
  exact ⟨mapM_ok hevents, rfl⟩

variable [DecidableEq δ]

theorem poll_eq (f : PollAnswers) (w : PollWorld δ) : p.poll f w =
    { w with
      db := match f.lands, p.source.batch p.codec f.limit ⟨w.changelog, w.db⟩ with
        | true, .ok (events, position) => (storeEvents w.db events p.source.name position).2
        | _, _ => w.db } := by
  unfold poll Act.after
  rw [runCdcOnce_eq]
  have hfetch : (p.source.port p.codec f.read).fetch f.limit ⟨w.changelog, w.db⟩ =
      perform f.read (fun w => (p.source.batch p.codec f.limit w).map (·, w)) ⟨w.changelog, w.db⟩ := rfl
  rw [hfetch]
  unfold perform PollAnswers.lands
  beta_reduce
  cases f.read with
  | ok =>
    cases p.source.batch p.codec f.limit ⟨w.changelog, w.db⟩ with
    | error e => cases f.store <;> rfl
    | ok b =>
      cases f.store with
      | ok | stop => rfl
      | before e | after e =>
        change { w with db := (storeFailed _ _ _ _).2.db } = _
        unfold storeFailed
        split <;> rfl
  | before e | stop => rfl
  | after e => cases p.source.batch p.codec f.limit ⟨w.changelog, w.db⟩ <;> rfl

/-- A poll leaves the database alone, or it stored the batch it read. -/
theorem poll_db (f : PollAnswers) (w : PollWorld δ) : (p.poll f w).db = w.db ∨
    ∃ events position, f.lands = true ∧ p.source.batch p.codec f.limit ⟨w.changelog, w.db⟩ =
      .ok (events, position) ∧
      (p.poll f w).db = (storeEvents w.db events p.source.name position).2 := by
  rw [poll_eq]
  dsimp only
  split
  · rename_i hl hb
    exact .inr ⟨_, _, hl, hb, rfl⟩
  · exact .inl rfl

theorem saved_store {w w' : PollWorld δ} {events : List (CdcEvent δ)} {rows : List ChangelogRow}
    (h : w'.db = (storeEvents w.db events p.source.name (rows.getLast?.map (.seq ·.seq))).2) :
    p.saved w' = match rows.getLast? with
      | some l => l.seq
      | none => p.saved w := by
  unfold saved
  rw [h, storeEvents_offset]
  cases rows.getLast? <;> rfl

end Poller

end OranAdapt
