import OranAdapt.CdcStore
import Mathlib.Logic.Function.Basic

/-!
# The Kafka source

`KafkaCdcSource` on a consumer group of one member. The messages of a
partition come in order from the consumer's in-memory position, `commit()`
saves that position for the group, and a fresh consumer starts at the saved
one. Positions count the messages of a partition; their offsets may have gaps.
-/

namespace OranAdapt

open Effects

variable {δ : Type}

structure KafkaState where
  log : Nat → List Message := fun _ => []
  committed : Nat → Nat := fun _ => 0
  memory : Nat → Nat := fun _ => 0
  /-- `_uncommitted` of the source object -/
  uncommitted : Bool := false

/-- What the client hands out next: a message of a partition, or an error. -/
inductive HandOut where
  | message (partition : Nat)
  | error (text : String) (topicNotCreated : Bool)

inductive Polled where
  | message (m : Message)
  | error (text : String) (topicNotCreated : Bool)

def Polled.isMessage : Polled → Bool
  | message _ => true
  | error _ _ => false

def KafkaState.advance (k : KafkaState) (p : Nat) : KafkaState :=
  { k with memory := Function.update k.memory p (k.memory p + 1) }

/-- `consume`; a partition that is read to its end has nothing to hand out. -/
def consume : List HandOut → KafkaState → List Polled × KafkaState
  | [], k => ([], k)
  | .error text n :: ds, k => (.error text n :: (consume ds k).1, (consume ds k).2)
  | .message p :: ds, k =>
    match (k.log p)[k.memory p]? with
    | some m => (.message m :: (consume ds (k.advance p)).1, (consume ds (k.advance p)).2)
    | none => consume ds k

/-- The answers of one call, and `cdc_batch_size`. -/
structure KafkaAnswers where
  limit : Nat
  handOuts : List HandOut
  consume : Fate AdaptationError := .ok
  probe : Fate AdaptationError := .ok
  now : Message → Int := fun _ => 0
  store : Fate AdaptationError := .ok
  commit : Fate AdaptationError := .ok

structure KafkaCdcSource where
  topic : String
  group : String
  schemaRef : String
  mapping : CdcRowMapping := {}

namespace KafkaCdcSource

variable (src : KafkaCdcSource) (c : CdcCodec δ)

def name : String := s!"kafka:{src.group}:{src.topic}"

def unavailable {α : Type} (what : String) (e : AdaptationError) : CdcAct KafkaState δ α :=
  .raise (cdcUnavailableError s!"{what}: {e.message}" [("topic", .str src.topic)])

/-- `offsets[str(msg.partition())] = msg.offset()` -/
def setRead (offsets : List (Nat × Nat)) (m : Message) : List (Nat × Nat) :=
  (m.partition, m.offset) :: offsets.filter fun p => p.1 != m.partition

/-- The loop of `fetch` over the messages. -/
def readPolled (now : Message → Int) (events : List (CdcEvent δ)) (offsets : List (Nat × Nat)) :
    List Polled → Except AdaptationError (List (CdcEvent δ) × List (Nat × Nat))
  | [] => .ok (events, offsets)
  -- Debezium creates the topic with the table's first change
  | .error _ true :: ps => readPolled now events offsets ps
  | .error text false :: _ => .error (cdcUnavailableError s!"Kafka error: {text}" [("topic", .str src.topic)])
  | .message m :: ps => do
    let event ← fromDebezium c src.schemaRef src.mapping (now m) m
    readPolled now (events ++ event.toList) (setRead offsets m) ps

def probe (f : KafkaAnswers) : CdcAct KafkaState δ Unit :=
  (perform f.probe fun w => .ok ((), w)).handle (src.unavailable "Kafka unreachable")

def fetch (f : KafkaAnswers) (limit : Nat) : CdcAct KafkaState δ (List (CdcEvent δ) × Option Position) := do
  let polled ← (perform f.consume fun w =>
      let (polled, k) := consume (f.handOuts.take limit) w.outside
      .ok (polled, { w with outside := k })).handle (src.unavailable "Kafka consume failed")
  .skipIf (polled.any Polled.isMessage) (src.probe f)
  match src.readPolled c f.now [] [] polled with
  | .error e => .raise e
  | .ok (events, offsets) => do
    .modify fun w => { w with outside.uncommitted := !offsets.isEmpty }
    pure (events, if offsets.isEmpty then none else some (.offsets offsets))

def ack (f : KafkaAnswers) : CdcAct KafkaState δ Unit := do
  let w ← Act.get
  .skipIf (w.outside.uncommitted = false) do
    perform f.commit fun w => .ok ((), { w with outside.committed := w.outside.memory })
    .modify fun w => { w with outside.uncommitted := false }

def port (f : KafkaAnswers) : CdcSource KafkaState δ where
  name := src.name
  fetch := src.fetch c f
  ack := ack f

end KafkaCdcSource

/-! ## Calls, restarts and messages -/

inductive KafkaAction where
  /-- a message with the next offset of the partition, or one after a gap -/
  | produce (partition gap : Nat) (value : Option (Option Json))
  /-- a fresh consumer on a fresh source object -/
  | restart
  | call (f : KafkaAnswers)

structure KafkaReader (δ : Type) where
  codec : CdcCodec δ
  source : KafkaCdcSource

abbrev KafkaWorld (δ : Type) := CdcWorld KafkaState δ

def KafkaState.produce (k : KafkaState) (topic : String) (p gap : Nat) (value : Option (Option Json)) : KafkaState :=
  let offset := match (k.log p).getLast? with
    | some m => m.offset + 1 + gap
    | none => gap
  { k with log := Function.update k.log p (k.log p ++ [⟨topic, p, offset, value⟩]) }

namespace KafkaReader

variable [DecidableEq δ] (k : KafkaReader δ)

def call (f : KafkaAnswers) : CdcAct KafkaState δ CdcSummary := runCdcOnce (k.source.port k.codec f) f.limit f.store

def step (w : KafkaWorld δ) : KafkaAction → KafkaWorld δ
  | .produce p gap value => { w with outside := w.outside.produce k.source.topic p gap value }
  | .restart => { w with outside.memory := w.outside.committed, outside.uncommitted := false }
  | .call f => (k.call f).after w

def run (as : List KafkaAction) (w : KafkaWorld δ) : KafkaWorld δ := as.foldl k.step w

def initial : KafkaWorld δ := ⟨{}, {}⟩

end KafkaReader

/-! ## What a call does -/

namespace KafkaCdcSource

variable {src : KafkaCdcSource} {c : CdcCodec δ} {f : KafkaAnswers}

theorem setRead_ne_nil (offsets : List (Nat × Nat)) (m : Message) : setRead offsets m ≠ [] := List.cons_ne_nil _ _

theorem readPolled_ok {now : Message → Int} : ∀ (ps : List Polled) {events evs : List (CdcEvent δ)}
    {offsets offs : List (Nat × Nat)}, src.readPolled c now events offsets ps = .ok (evs, offs) →
    (∀ m, .message m ∈ ps → ∃ r, fromDebezium c src.schemaRef src.mapping (now m) m = .ok r ∧
      ∀ e ∈ r, e ∈ evs) ∧
      (∀ e ∈ events, e ∈ evs) ∧
      (∀ e ∈ evs, e ∈ events ∨ ∃ m, .message m ∈ ps ∧
        fromDebezium c src.schemaRef src.mapping (now m) m = .ok (some e)) ∧
      (offs = [] ↔ offsets = [] ∧ ps.any Polled.isMessage = false)
  | [], _, _, _, _, h => by
    cases h
    exact ⟨nofun, fun _ he => he, fun _ he => .inl he, by simp⟩
  | .error _ true :: ps, _, _, _, _, h => by
    obtain ⟨hm, hev, hfrom, hoff⟩ := readPolled_ok ps h
    refine ⟨fun m hmem => hm m (by simpa using hmem), hev, fun e he => ?_, hoff⟩
    rcases hfrom e he with he | ⟨m, hmem, he⟩
    · exact .inl he
    · exact .inr ⟨m, .tail _ hmem, he⟩
  | .error _ false :: _, _, _, _, _, h => by cases h
  | .message m :: ps, events, evs, offsets, offs, h => by
    obtain ⟨r, hr, h⟩ := bind_ok h
    obtain ⟨hm, hev, hfrom, hoff⟩ := readPolled_ok ps h
    refine ⟨fun m' hmem => ?_, fun e he => hev e (List.mem_append_left _ he), fun e he => ?_, ?_⟩
    · rcases List.mem_cons.mp hmem with heq | hmem
      · cases heq
        refine ⟨r, hr, fun e he => hev e (List.mem_append_right _ ?_)⟩
        cases he
        exact .head _
      · exact hm m' hmem
    · rcases hfrom e he with he | ⟨m', hmem, he⟩
      · rcases List.mem_append.mp he with he | he
        · exact .inl he
        · refine .inr ⟨m, .head _, ?_⟩
          cases r with
          | none => cases he
          | some e' =>
            cases List.mem_singleton.mp he
            exact hr
      · exact .inr ⟨m', .tail _ hmem, he⟩
    · constructor
      · intro hnil
        exact absurd (hoff.mp hnil).1 (setRead_ne_nil _ _)
      · rintro ⟨-, hany⟩
        cases hany

variable (src c f) (limit : Nat) (w : CdcWorld KafkaState δ)

/-- What the client hands out, and where it leaves the in-memory position. -/
def handed (f : KafkaAnswers) (limit : Nat) (k : KafkaState) : List Polled × KafkaState :=
  consume (f.handOuts.take limit) k

/-- A batch was read: the source object remembers whether it has something to commit. -/
def fetched (offsets : List (Nat × Nat)) : CdcWorld KafkaState δ :=
  { w with outside := { (handed f limit w.outside).2 with uncommitted := !offsets.isEmpty } }

theorem fetch_ends : Ensures (src.fetch c f limit) w
    (fun r w' => f.consume = .ok ∧ ∃ offsets,
      src.readPolled c f.now [] [] (handed f limit w.outside).1 = .ok (r.1, offsets) ∧ w' = fetched f limit w offsets)
    (fun _ w' => w' = w ∨ w' = { w with outside := (handed f limit w.outside).2 })
    (fun w' => w' = w ∨ w' = { w with outside := (handed f limit w.outside).2 }) := by
  have hread : f.consume = .ok → Ensures (match src.readPolled c f.now [] [] (handed f limit w.outside).1 with
        | .error e => (.raise e : CdcAct KafkaState δ (List (CdcEvent δ) × Option Position))
        | .ok (events, offsets) => do
          .modify fun w => { w with outside.uncommitted := !offsets.isEmpty }
          pure (events, if offsets.isEmpty then none else some (.offsets offsets)))
      { w with outside := (handed f limit w.outside).2 }
      (fun r w' => f.consume = .ok ∧ ∃ offsets,
        src.readPolled c f.now [] [] (handed f limit w.outside).1 = .ok (r.1, offsets) ∧ w' = fetched f limit w offsets)
      (fun _ w' => w' = w ∨ w' = { w with outside := (handed f limit w.outside).2 })
      (fun w' => w' = w ∨ w' = { w with outside := (handed f limit w.outside).2 }) := by
    intro hc
    cases hr : src.readPolled c f.now [] [] (handed f limit w.outside).1 with
    | error e => exact .raise (.inr rfl)
    | ok r => exact .bind (.modify (.ret ⟨hc, r.2, rfl, rfl⟩))
  unfold fetch
  refine .bind (.handle (.perform (fun polled w' hp => ⟨fun hc => ?_, fun _ _ => ?_⟩) ?_ ?_))
  · cases hp
    refine .bind (.skipIf (fun _ => hread hc) fun _ =>
      .handle (.perform (fun a w' hp' => ⟨fun _ => ?_, fun _ _ => ?_⟩) ?_ ?_))
    · cases hp'
      exact hread hc
    · cases hp'
      exact .raise (.inr rfl)
    · exact fun _ => .raise (.inr rfl)
    · exact fun _ => .inr rfl
  · cases hp
    exact .raise (.inr rfl)
  · exact fun _ => .raise (.inl rfl)
  · exact fun _ => .inl rfl

theorem fetch_done {events : List (CdcEvent δ)} {offsets : List (Nat × Nat)} (hc : f.consume = .ok)
    (hr : src.readPolled c f.now [] [] (handed f limit w.outside).1 = .ok (events, offsets)) (hne : offsets ≠ []) :
    src.fetch c f limit w = (.done (events, some (.offsets offsets)), fetched f limit w offsets) := by
  have hany : (handed f limit w.outside).1.any Polled.isMessage = true := by
    by_contra h
    rw [Bool.not_eq_true] at h
    exact hne ((readPolled_ok _ hr).2.2.2.mpr ⟨rfl, h⟩)
  have hempty : offsets.isEmpty = false := by
    cases offsets with
    | nil => exact absurd rfl hne
    | cons => rfl
  change Act.bind (Act.handle (perform f.consume _) _) _ w = _
  rw [hc]
  change Act.bind (.skipIf ((handed f limit w.outside).1.any Polled.isMessage) (src.probe f)) _
    { w with outside := (handed f limit w.outside).2 } = _
  unfold Act.skipIf
  rw [if_pos hany]
  change (match src.readPolled c f.now [] [] (handed f limit w.outside).1 with
    | .error e => (.raise e : CdcAct KafkaState δ (List (CdcEvent δ) × Option Position))
    | .ok (events, offsets) => _) _ = _
  rw [hr]
  change (Ended.done (events, if offsets.isEmpty then none else some (Position.offsets offsets)),
    fetched f limit w offsets) = _
  rw [hempty]
  rfl

theorem ack_ends (f : KafkaAnswers) (w : CdcWorld KafkaState δ) : Ensures (ack f) w
    (fun _ w' => w.outside.uncommitted = false ∧ w' = w ∨ f.commit = .ok ∧ w.outside.uncommitted = true ∧
      w' = { w with outside := { w.outside with committed := w.outside.memory, uncommitted := false } })
    (fun _ w' => w' = w ∨ f.commit.takesEffect = true ∧ w.outside.uncommitted = true ∧
      w' = { w with outside := { w.outside with committed := w.outside.memory } })
    (fun w' => w' = w) := by
  refine .bind (.get (.skipIf (fun hu => .inl ⟨hu, rfl⟩) fun hu => ?_))
  rw [Bool.not_eq_false] at hu
  refine .bind (.perform (fun _ w' hp => ⟨fun hc => ?_, fun e hc => ?_⟩) ?_ ?_)
  · cases hp
    exact .modify (.inr ⟨hc, hu, rfl⟩)
  · cases hp
    exact .inr ⟨by rw [hc]; rfl, hu, rfl⟩
  · exact fun _ => .inl rfl
  · exact fun _ => rfl

end KafkaCdcSource

namespace KafkaReader

open KafkaCdcSource

variable (k : KafkaReader δ) (f : KafkaAnswers)

def Batch (w : KafkaWorld δ) (events : List (CdcEvent δ)) (offsets : List (Nat × Nat)) : Prop :=
  f.consume = .ok ∧ k.source.readPolled k.codec f.now [] [] (handed f f.limit w.outside).1 = .ok (events, offsets)

variable [DecidableEq δ]

/-- The state a call leaves, its batch stored. -/
structure BatchStored (w w' : KafkaWorld δ) (events : List (CdcEvent δ)) (offsets : List (Nat × Nat)) : Prop where
  batch : k.Batch f w events offsets
  log : w'.outside.log = w.outside.log
  memory : w'.outside.memory = (handed f f.limit w.outside).2.memory
  db : ∃ position, w'.db = (storeEvents w.db events k.source.name position).2

/-- What a call leaves: it stored nothing and committed nothing, or it stored its batch, and
committed the in-memory position or did not. -/
inductive Called (w w' : KafkaWorld δ) : Prop
  | idle (db : w'.db = w.db) (committed : w'.outside.committed = w.outside.committed)
      (log : w'.outside.log = w.outside.log)
      (memory : w'.outside.memory = w.outside.memory ∨ w'.outside.memory = (handed f f.limit w.outside).2.memory)
  | stored (events : List (CdcEvent δ)) (offsets : List (Nat × Nat)) (h : BatchStored k f w w' events offsets)
      (committed : w'.outside.committed = w.outside.committed)
  | committed (events : List (CdcEvent δ)) (offsets : List (Nat × Nat)) (h : BatchStored k f w w' events offsets)
      (some_ : offsets ≠ []) (store : f.store = .ok) (commit : f.commit.takesEffect = true)
      (committed : w'.outside.committed = w'.outside.memory)

omit [DecidableEq δ] in
theorem consume_keeps : ∀ (ds : List HandOut) (s : KafkaState), (consume ds s).2.log = s.log ∧
    (consume ds s).2.committed = s.committed ∧ (consume ds s).2.uncommitted = s.uncommitted
  | [], _ => ⟨rfl, rfl, rfl⟩
  | .error _ _ :: ds, s => consume_keeps ds s
  | .message p :: ds, s => by
    unfold consume
    split
    · exact consume_keeps ds (s.advance p)
    · exact consume_keeps ds s

/-- A call that returned committed what it was handed. -/
def Acked (w w' : KafkaWorld δ) : Prop :=
  ∃ events offsets, BatchStored k f w w' events offsets ∧ (offsets = [] ∨ w'.outside.committed = w'.outside.memory)

theorem call_ends (w : KafkaWorld δ) : Ensures (k.call f) w (fun _ w' => Called k f w w' ∧ Acked k f w w')
    (fun _ w' => Called k f w w') (fun w' => Called k f w w') := by
  obtain ⟨hlog, hcom, -⟩ := consume_keeps (f.handOuts.take f.limit) w.outside
  have hidle : ∀ w', w' = w ∨ w' = { w with outside := (handed f f.limit w.outside).2 } → Called k f w w' := by
    rintro w' (rfl | rfl)
    · exact .idle rfl rfl rfl (.inl rfl)
    · exact .idle rfl hcom hlog (.inr rfl)
  refine .bind ((fetch_ends k.source k.codec f f.limit w).mono ?_ (fun _ => hidle) hidle)
  rintro ⟨events, position⟩ w₁ ⟨hconsume, offsets, hread, rfl⟩
  have hb : k.Batch f w events offsets := ⟨hconsume, hread⟩
  have hstored : BatchStored k f w
      { fetched f f.limit w offsets with db := (storeEvents w.db events k.source.name position).2 } events offsets :=
    ⟨hb, hlog, rfl, position, rfl⟩
  have hunstored : Called k f w (fetched f f.limit w offsets) := .idle rfl hcom hlog (.inr rfl)
  refine .bind (.handle (.perform (fun r w' hp => ⟨fun hs => ?_, fun _ _ => ?_⟩) ?_ ?_))
  · cases hp
    refine .bind ((ack_ends f _).mono ?_ ?_ ?_)
    · rintro - w' (⟨hu, rfl⟩ | ⟨hc, hu, rfl⟩)
      · refine .ret ⟨.stored events offsets hstored hcom, events, offsets, hstored, .inl ?_⟩
        change (!offsets.isEmpty) = false at hu
        simpa using hu
      · refine .ret ⟨.committed events offsets ⟨hb, hlog, rfl, position, rfl⟩ ?_ hs (by rw [hc]; rfl) rfl,
          events, offsets, ⟨hb, hlog, rfl, position, rfl⟩, .inr rfl⟩
        rintro rfl
        cases hu
    · rintro e w' (rfl | ⟨hc, hu, rfl⟩)
      · exact .stored events offsets hstored hcom
      · refine .committed events offsets ⟨hb, hlog, rfl, position, rfl⟩ ?_ hs hc rfl
        rintro rfl
        cases hu
    · rintro w' rfl
      exact .stored events offsets hstored hcom
  · cases hp
    exact storeFailed_raises (.stored events offsets hstored hcom)
  · exact fun _ => storeFailed_raises hunstored
  · exact fun _ => hunstored

/-- The call commits what it was handed: it read a batch with a message in it, and its transaction and `commit()` work. -/
def Commits (w : KafkaWorld δ) : Prop :=
  (∃ events offsets, k.Batch f w events offsets ∧ offsets ≠ []) ∧ f.store = .ok ∧ f.commit.takesEffect = true

theorem call_commits {w : KafkaWorld δ} (h : k.Commits f w) :
    ∃ events offsets, BatchStored k f w ((k.call f).after w) events offsets ∧
      ((k.call f).after w).outside.committed = ((k.call f).after w).outside.memory := by
  obtain ⟨⟨events, offsets, ⟨hc, hr⟩, hne⟩, hs, hcommit⟩ := h
  obtain ⟨hlog, -, -⟩ := consume_keeps (f.handOuts.take f.limit) w.outside
  have hu : (!offsets.isEmpty) = true := by
    cases offsets with
    | nil => exact absurd rfl hne
    | cons => rfl
  obtain ⟨r, hrun⟩ : ∃ r : CdcSummary, k.call f w = (ack f >>= fun _ => pure r)
      { fetched f f.limit w offsets with
        db := (storeEvents w.db events k.source.name (some (.offsets offsets))).2 } := by
    unfold call
    rw [runCdcOnce_eq, show (k.source.port k.codec f).fetch f.limit w = _ from fetch_done _ _ _ _ _ hc hr hne, hs]
    exact ⟨_, rfl⟩
  unfold Act.after
  rw [hrun]
  unfold KafkaCdcSource.ack Act.skipIf fetched
  rw [hu]
  cases hf : f.commit with
  | ok | after e => exact ⟨events, offsets, ⟨⟨hc, hr⟩, hlog, rfl, some (.offsets offsets), rfl⟩, rfl⟩
  | before e | stop =>
    rw [hf] at hcommit
    cases hcommit

end KafkaReader

end OranAdapt
