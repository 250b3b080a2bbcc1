import OranAdapt.CdcEvents
import OranAdapt.Effects

/-!
# Storing change events

`cdc.store` and the consumer of `cdc.consumer`. A batch is fetched, stored
with the consumer's offset in one transaction, and acknowledged to its source;
each database call is answered from outside.
-/

namespace OranAdapt

open Effects

variable {κ δ : Type}

structure CdcEventRecord (δ : Type) where
  id : Nat
  event : CdcEvent δ
  dataVersionId : Option Nat

/-- A consumer's saved position: the text of a changelog sequence number, or
of the offset read from each partition. -/
inductive Position where
  | seq (n : Nat)
  | offsets (read : List (Nat × Nat))
deriving DecidableEq, Repr

structure CdcDb (δ : Type) where
  events : List (CdcEventRecord δ) := []
  offsets : List (String × Position) := []

def getOffset (db : CdcDb δ) (consumer : String) : Option Position := db.offsets.lookup consumer

def setOffset (db : CdcDb δ) (consumer : String) (position : Position) : CdcDb δ :=
  { db with offsets := (consumer, position) :: db.offsets.filter fun p => p.1 != consumer }

def eventIds (db : CdcDb δ) : List δ := db.events.map (·.event.eventId)

section
variable [DecidableEq δ]

/-- The events of a batch not already known, each once. -/
def unknownEvents : List δ → List (CdcEvent δ) → List (CdcEvent δ)
  | _, [] => []
  | known, ev :: events =>
    if ev.eventId ∈ known then unknownEvents known events
    else ev :: unknownEvents (ev.eventId :: known) events

def addEvents (db : CdcDb δ) : List (CdcEvent δ) → CdcDb δ
  | [] => db
  | ev :: events => addEvents { db with events := db.events ++ [⟨db.events.length + 1, ev, none⟩] } events

structure StoreResult (δ : Type) where
  stored : Nat
  duplicates : Nat
  accepted : List (CdcEvent δ)

def storeEvents (db : CdcDb δ) (events : List (CdcEvent δ)) (consumer : String) (position : Option Position) :
    StoreResult δ × CdcDb δ :=
  let known := (eventIds db).filter fun i => i ∈ events.map (·.eventId)
  let accepted := unknownEvents known events
  let added := addEvents db accepted
  (⟨accepted.length, events.length - accepted.length, accepted⟩,
    match position with
    | some p => setOffset added consumer p
    | none => added)

/-! ### What a batch leaves -/

theorem mem_unknownEvents {ev : CdcEvent δ} : ∀ {known : List δ} {events : List (CdcEvent δ)},
    ev ∈ unknownEvents known events → ev ∈ events ∧ ev.eventId ∉ known
  | _, [], h => nomatch h
  | known, x :: events, h => by
    rw [unknownEvents] at h
    split at h
    · have := mem_unknownEvents h
      exact ⟨.tail _ this.1, this.2⟩
    · rename_i hx
      rcases List.mem_cons.mp h with rfl | h
      · exact ⟨.head _, hx⟩
      · have := mem_unknownEvents h
        exact ⟨.tail _ this.1, fun hk => this.2 (.tail _ hk)⟩

theorem unknownEvents_covers {ev : CdcEvent δ} : ∀ (known : List δ) {events : List (CdcEvent δ)}, ev ∈ events →
    ev.eventId ∈ known ∨ ∃ ev' ∈ unknownEvents known events, ev'.eventId = ev.eventId
  | known, x :: events, h => by
    rw [unknownEvents]
    split
    · rename_i hx
      rcases List.mem_cons.mp h with rfl | h
      · exact .inl hx
      · exact unknownEvents_covers known h
    · rcases List.mem_cons.mp h with rfl | h
      · exact .inr ⟨ev, .head _, rfl⟩
      · rcases unknownEvents_covers (x.eventId :: known) h with hk | ⟨y, hy, he⟩
        · rcases List.mem_cons.mp hk with he | hk
          · exact .inr ⟨x, .head _, he.symm⟩
          · exact .inl hk
        · exact .inr ⟨y, .tail _ hy, he⟩

theorem unknownEvents_nodup : ∀ (known : List δ) (events : List (CdcEvent δ)),
    ((unknownEvents known events).map (·.eventId)).Nodup
  | _, [] => List.nodup_nil
  | known, x :: events => by
    rw [unknownEvents]
    split
    · exact unknownEvents_nodup known events
    · rw [List.map_cons, List.nodup_cons]
      refine ⟨fun h => ?_, unknownEvents_nodup _ events⟩
      obtain ⟨y, hy, he⟩ := List.mem_map.mp h
      exact (mem_unknownEvents hy).2 (he ▸ .head _)

omit [DecidableEq δ] in
theorem addEvents_events : ∀ (events : List (CdcEvent δ)) (db : CdcDb δ),
    ∃ new : List (CdcEventRecord δ), (addEvents db events).events = db.events ++ new ∧
      new.map (·.event) = events ∧ (∀ r ∈ new, r.dataVersionId = none) ∧
      new.map (·.id) = List.range' (db.events.length + 1) events.length
  | [], db => ⟨[], by simp [addEvents], rfl, by simp, rfl⟩
  | ev :: events, db => by
    obtain ⟨new, hev, hnew, hnone, hid⟩ := addEvents_events events
      { db with events := db.events ++ [⟨db.events.length + 1, ev, none⟩] }
    refine ⟨⟨db.events.length + 1, ev, none⟩ :: new, ?_, ?_, ?_, ?_⟩
    · rw [addEvents, hev]; simp
    · rw [List.map_cons, hnew]
    · intro r hr
      rcases List.mem_cons.mp hr with rfl | hr
      · rfl
      · exact hnone r hr
    · rw [List.map_cons, hid, List.length_append, List.length_singleton, List.length_cons, List.range'_succ]

omit [DecidableEq δ] in
theorem addEvents_offsets : ∀ (events : List (CdcEvent δ)) (db : CdcDb δ), (addEvents db events).offsets = db.offsets
  | [], _ => rfl
  | _ :: events, _ => addEvents_offsets events _

omit [DecidableEq δ] in
theorem getOffset_setOffset (db : CdcDb δ) (consumer : String) (p : Position) :
    getOffset (setOffset db consumer p) consumer = some p := by
  simp [getOffset, setOffset]

variable (db : CdcDb δ) (events : List (CdcEvent δ)) (consumer : String) (position : Option Position)

theorem storeEvents_events : ∃ new : List (CdcEventRecord δ),
    (storeEvents db events consumer position).2.events = db.events ++ new ∧
    new.map (·.event) = unknownEvents ((eventIds db).filter fun i => i ∈ events.map (·.eventId)) events ∧
    (∀ r ∈ new, r.dataVersionId = none) ∧ new.map (·.id) = List.range' (db.events.length + 1) new.length := by
  obtain ⟨new, hev, hnew, hnone, hid⟩ := addEvents_events
    (unknownEvents ((eventIds db).filter fun i => i ∈ events.map (·.eventId)) events) db
  refine ⟨new, ?_, hnew, hnone, ?_⟩
  · cases position <;> exact hev
  · rw [hid, ← hnew, List.length_map]

theorem storeEvents_offset :
    getOffset (storeEvents db events consumer position).2 consumer = position.or (getOffset db consumer) := by
  cases position with
  | none => exact congrArg (List.lookup consumer) (addEvents_offsets _ _)
  | some p => exact getOffset_setOffset _ _ _

theorem storeEvents_keeps {r : CdcEventRecord δ} (h : r ∈ db.events) :
    r ∈ (storeEvents db events consumer position).2.events := by
  obtain ⟨new, hev, -⟩ := storeEvents_events db events consumer position
  rw [hev]
  exact List.mem_append_left _ h

theorem storeEvents_from {r : CdcEventRecord δ} (h : r ∈ (storeEvents db events consumer position).2.events) :
    r ∈ db.events ∨ r.event ∈ events ∧ r.event.eventId ∉ eventIds db := by
  obtain ⟨new, hev, hnew, -⟩ := storeEvents_events db events consumer position
  rw [hev] at h
  rcases List.mem_append.mp h with h | h
  · exact .inl h
  · have hu := mem_unknownEvents (hnew ▸ List.mem_map_of_mem h : r.event ∈ _)
    refine .inr ⟨hu.1, fun hk => hu.2 (List.mem_filter.mpr ⟨hk, ?_⟩)⟩
    simpa using ⟨_, hu.1, rfl⟩

theorem storeEvents_covers {ev : CdcEvent δ} (h : ev ∈ events) :
    ∃ r ∈ (storeEvents db events consumer position).2.events, r.event.eventId = ev.eventId := by
  obtain ⟨new, hev, hnew, -⟩ := storeEvents_events db events consumer position
  rcases unknownEvents_covers ((eventIds db).filter fun i => i ∈ events.map (·.eventId)) h with hk | ⟨y, hy, he⟩
  · obtain ⟨r, hr, he⟩ := List.mem_map.mp (List.mem_filter.mp hk).1
    exact ⟨r, storeEvents_keeps db events consumer position hr, he⟩
  · rw [← hnew] at hy
    obtain ⟨r, hr, rfl⟩ := List.mem_map.mp hy
    exact ⟨r, hev ▸ List.mem_append_right _ hr, he⟩

theorem storeEvents_nodup (h : (eventIds db).Nodup) : (eventIds (storeEvents db events consumer position).2).Nodup := by
  obtain ⟨new, hev, hnew, -⟩ := storeEvents_events db events consumer position
  have hids : new.map (·.event.eventId) =
      (unknownEvents ((eventIds db).filter fun i => i ∈ events.map (·.eventId)) events).map (·.eventId) := by
    rw [← hnew, List.map_map]; rfl
  unfold eventIds
  rw [hev, List.map_append, List.nodup_append, hids]
  refine ⟨h, unknownEvents_nodup _ _, ?_⟩
  intro i hi j hj hij
  obtain ⟨y, hy, rfl⟩ := List.mem_map.mp hj
  have hu := mem_unknownEvents hy
  refine hu.2 (List.mem_filter.mpr ⟨hij ▸ hi, ?_⟩)
  simpa using ⟨_, hu.1, rfl⟩

end

/-! ## The consumer -/

/-- The database, and what a source reads and moves outside it. -/
structure CdcWorld (κ δ : Type) where
  outside : κ
  db : CdcDb δ

abbrev CdcAct (κ δ α : Type) := Act (CdcWorld κ δ) AdaptationError α

/-- `CdcSourcePort`, with the answers of one call. -/
structure CdcSource (κ δ : Type) where
  name : String
  fetch : Nat → CdcAct κ δ (List (CdcEvent δ) × Option Position)
  ack : CdcAct κ δ Unit

structure CdcSummary where
  fetched : Nat
  stored : Nat
  duplicates : Nat
  position : Option Position

def storeFailed {α : Type} (consumer : String) (events : Nat) (e : AdaptationError) : CdcAct κ δ α :=
  if e.cls = .python "SQLAlchemyError" then
    .raise (cdcProcessingError "could not store CDC batch; it will be redelivered"
      [("consumer", .str consumer), ("events", .nat events)])
  else .raise e

def runCdcOnce [DecidableEq δ] (source : CdcSource κ δ) (batchSize : Nat) (store : Fate AdaptationError) :
    CdcAct κ δ CdcSummary := do
  let (events, position) ← source.fetch batchSize
  let result ← (perform store fun w =>
      let (result, db) := storeEvents w.db events source.name position
      .ok (result, { w with db })).handle (storeFailed source.name events.length)
  source.ack
  pure ⟨events.length, result.stored, result.duplicates, position⟩

theorem storeFailed_raises {α : Type} {consumer : String} {n : Nat} {e : AdaptationError} {w : CdcWorld κ δ}
    {D : α → CdcWorld κ δ → Prop} {R : CdcWorld κ δ → Prop} {S : CdcWorld κ δ → Prop} (h : R w) :
    Ensures (storeFailed consumer n e : CdcAct κ δ α) w D (fun _ => R) S := by
  unfold storeFailed
  split <;> exact .raise h

/-- One call, by how its fetch ends and how its transaction is answered. -/
theorem runCdcOnce_eq [DecidableEq δ] (source : CdcSource κ δ) (batchSize : Nat) (store : Fate AdaptationError)
    (w : CdcWorld κ δ) : runCdcOnce source batchSize store w =
      match source.fetch batchSize w with
      | (.raised e, w₁) => (.raised e, w₁)
      | (.stopped, w₁) => (.stopped, w₁)
      | (.done (events, position), w₁) =>
        let (result, db) := storeEvents w₁.db events source.name position
        match store with
        | .stop => (.stopped, w₁)
        | .before e => storeFailed source.name events.length e w₁
        | .after e => storeFailed source.name events.length e { w₁ with db }
        | .ok => (source.ack >>= fun _ => pure ⟨events.length, result.stored, result.duplicates, position⟩)
            { w₁ with db } := by
  change Act.bind (source.fetch batchSize) _ w = _
  unfold Act.bind
  rcases source.fetch batchSize w with ⟨_ | _ | _, w₁⟩
  · cases store with
    | stop => rfl
    | ok => rfl
    | before e | after e =>
      change Act.bind (Act.handle _ _) _ w₁ = _
      unfold Act.bind Act.handle perform storeFailed
      by_cases he : e.cls = .python "SQLAlchemyError"
      · simp only [he, if_true]; rfl
      · simp only [he, if_false]; rfl
  · rfl
  · rfl

end OranAdapt
