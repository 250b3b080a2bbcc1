import OranAdapt.Store

/-!
# The model lock

`orchestrator.locks`: at most one holder per model. A lock past its
`expires_at` counts as abandoned and is handed over by a conditional update.
-/

namespace OranAdapt.Db

/-- Hand an expired lock to `holder`; `none` when it was not expired (or there is none). -/
def takeOverExpiredLock (db : Db) (model : ModelId) (holder : Holder) (ttl now : Time) : Option Db :=
  (db.locks.updateWhere? model (fun l => l.expiresAt < now)
    fun _ => ⟨holder, now, now + ttl⟩).map fun locks => { db with locks }

/-- `none` is the IntegrityError of a lock row that exists. -/
def addLock (db : Db) (model : ModelId) (holder : Holder) (ttl now : Time) : Option Db :=
  (db.locks.insert? model ⟨holder, now, now + ttl⟩).map fun locks => { db with locks }

def releaseLock (db : Db) (model : ModelId) (holder : Holder) : Db :=
  { db with locks := db.locks.keep fun m l => !(m == model && l.jobId == holder) }

/-- Extend the lock if `holder` still holds it (a claim and a supervisor tick). -/
def renewLock (db : Db) (model : ModelId) (holder : Holder) (until_ : Time) : Db :=
  { db with locks := (db.locks.updateWhere? model (fun l => l.jobId == holder)
      fun l => { l with expiresAt := until_ }).getD db.locks }

/-! ## What they do -/

theorem takeOverExpiredLock_some {db db' : Db} {model : ModelId} {holder : Holder} {ttl now : Time}
    (h : db.takeOverExpiredLock model holder ttl now = some db') :
    ∃ l, db.locks.get? model = some l ∧ l.expiresAt < now ∧
      db' = { db with locks := db.locks.modify model fun _ => ⟨holder, now, now + ttl⟩ } := by
  obtain ⟨locks, hu, rfl⟩ := Option.map_eq_some_iff.mp h
  obtain ⟨l, hl, he, rfl⟩ := Table.updateWhere?_eq_some hu
  exact ⟨l, hl, by simpa using he, rfl⟩

theorem takeOverExpiredLock_none {db : Db} {model : ModelId} {holder : Holder} {ttl now : Time}
    (h : db.takeOverExpiredLock model holder ttl now = none) {l : ModelLock}
    (hl : db.locks.get? model = some l) : now ≤ l.expiresAt := by
  have := Table.updateWhere?_eq_none.mp (Option.map_eq_none_iff.mp h) l hl
  simpa using this

theorem addLock_some {db db' : Db} {model : ModelId} {holder : Holder} {ttl now : Time}
    (h : db.addLock model holder ttl now = some db') :
    db.locks.get? model = none ∧ ∃ locks, db.locks.insert? model ⟨holder, now, now + ttl⟩ = some locks ∧
      db' = { db with locks } := by
  obtain ⟨locks, hi, rfl⟩ := Option.map_eq_some_iff.mp h
  exact ⟨Table.insert?_fresh hi, locks, hi, rfl⟩

theorem addLock_none {db : Db} {model : ModelId} {holder : Holder} {ttl now : Time} :
    db.addLock model holder ttl now = none ↔ db.locks.get? model ≠ none := by
  rw [addLock, Option.map_eq_none_iff, Table.insert?_eq_none]

theorem get?_releaseLock {db : Db} {model m : ModelId} {holder : Holder} {l : ModelLock} :
    (db.releaseLock model holder).locks.get? m = some l ↔
      db.locks.get? m = some l ∧ ¬ (m = model ∧ l.jobId = holder) := by
  rw [releaseLock, Table.get?_keep_some]
  simp only [Bool.not_eq_true', Bool.and_eq_false_imp, beq_iff_eq, beq_eq_false_iff_ne, ne_eq, not_and]

/-- A renewal never changes who holds a lock. -/
theorem get?_renewLock (db : Db) (model m : ModelId) (holder : Holder) (until_ : Time) :
    ((db.renewLock model holder until_).locks.get? m).map ModelLock.jobId =
      (db.locks.get? m).map ModelLock.jobId := by
  unfold renewLock
  cases hu : db.locks.updateWhere? model (fun l => l.jobId == holder) fun l => { l with expiresAt := until_ } with
  | none => rfl
  | some locks =>
    obtain ⟨l, hl, -, rfl⟩ := Table.updateWhere?_eq_some hu
    simp only [Option.getD_some, Table.get?_modify]
    by_cases hm : m = model
    · subst hm; simp [hl]
    · simp [hm]

section
variable (db : Db) (model : ModelId) (holder : Holder) (until_ : Time)

@[simp] theorem releaseLock_jobs : (db.releaseLock model holder).jobs = db.jobs := rfl
@[simp] theorem releaseLock_events : (db.releaseLock model holder).events = db.events := rfl
@[simp] theorem releaseLock_slots : (db.releaseLock model holder).slots = db.slots := rfl
@[simp] theorem renewLock_jobs : (db.renewLock model holder until_).jobs = db.jobs := rfl
@[simp] theorem renewLock_events : (db.renewLock model holder until_).events = db.events := rfl
@[simp] theorem renewLock_slots : (db.renewLock model holder until_).slots = db.slots := rfl

end

end OranAdapt.Db
