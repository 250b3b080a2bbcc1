import OranAdapt.KafkaCdc

/-!
# Once into the store

A source object whose batch failed keeps its in-memory position past the
messages that were not stored, and the next call on it that commits saves that
position. The committed position stays behind the changes not stored exactly
when no call does this, and then every change is stored in the end.
-/

namespace OranAdapt

open Effects

variable {δ : Type}

namespace KafkaReader

open KafkaCdcSource

variable (k : KafkaReader δ)

def Carries (m : Message) (e : CdcEvent δ) : Prop :=
  ∃ now, fromDebezium k.codec k.source.schemaRef k.source.mapping now m = .ok (some e)

/-- Two messages carry the same change of the source's log. -/
def SameChange (m m' : Message) : Prop := ∃ e e', k.Carries m e ∧ k.Carries m' e' ∧ e.sourceTable = e'.sourceTable ∧
  e.primaryKey = e'.primaryKey ∧ e.operation = e'.operation ∧ m.logPosition k.codec = m'.logPosition k.codec

def StoredAs (w : KafkaWorld δ) (m : Message) (x : CdcEventRecord δ) : Prop :=
  x ∈ w.db.events ∧ ∃ m', k.Carries m' x.event ∧ k.SameChange m m'

def Stored (w : KafkaWorld δ) (m : Message) : Prop := ∃ x, k.StoredAs w m x

/-- The committed position passes no message that bears a change and is not stored. -/
def Behind (bears : Message → Prop) (w : KafkaWorld δ) : Prop :=
  ∀ p i m, i < w.outside.committed p → (w.outside.log p)[i]? = some m → bears m → k.Stored w m

variable {k} {w w' : KafkaWorld δ} {m m' : Message} {e e' : CdcEvent δ} {f : KafkaAnswers}

theorem Carries.eventId (h : k.Carries m e) :
    e.eventId = makeEventId k.codec "debezium" e.sourceTable e.primaryKey e.operation.value (m.logPosition k.codec) :=
  fromDebezium_eventId h.choose_spec

theorem Carries.same (h : k.Carries m e) (h' : k.Carries m e') : e.eventId = e'.eventId :=
  fromDebezium_same h.choose_spec h'.choose_spec

theorem SameChange.of_eventId (hsha : Function.Injective k.codec.sha256) (h : k.Carries m e) (h' : k.Carries m' e')
    (hid : e.eventId = e'.eventId) : k.SameChange m m' := by
  refine ⟨e, e', h, h', ?_⟩
  rw [h.eventId, h'.eventId] at hid
  have hparts := hsha hid
  simp only [List.cons.injEq, and_true, true_and] at hparts
  exact ⟨hparts.1, hparts.2.1, CdcOperation.value_injective hparts.2.2.1, hparts.2.2.2⟩

theorem SameChange.eventId (hs : k.SameChange m m') (h : k.Carries m e) (h' : k.Carries m' e') : e.eventId = e'.eventId := by
  obtain ⟨a, a', ha, ha', ht, hp, ho, hl⟩ := hs
  calc e.eventId = a.eventId := h.same ha
    _ = a'.eventId := by rw [ha.eventId, ha'.eventId, ht, hp, ho, hl]
    _ = e'.eventId := ha'.same h'

theorem SameChange.carries (hs : k.SameChange m m') : ∃ e, k.Carries m e :=
  let ⟨e, _, h, _⟩ := hs
  ⟨e, h⟩

/-! ## Every reachable state -/

structure Sound (k : KafkaReader δ) (w : KafkaWorld δ) : Prop where
  ids : (eventIds w.db).Nodup
  carried : ∀ x ∈ w.db.events, ∃ m, k.Carries m x.event
  committed_le : ∀ p, w.outside.committed p ≤ w.outside.memory p
  memory_le : ∀ p, w.outside.memory p ≤ (w.outside.log p).length

theorem Sound.once (h : Sound k w) {x y : CdcEventRecord δ} (hx : k.StoredAs w m x) (hy : k.StoredAs w m y) : x = y := by
  obtain ⟨hx, mx, hmx, hsx⟩ := hx
  obtain ⟨hy, my, hmy, hsy⟩ := hy
  obtain ⟨e, he⟩ := hsx.carries
  have hid : x.event.eventId = y.event.eventId := (hsx.eventId he hmx).symm.trans (hsy.eventId he hmy)
  exact List.inj_on_of_nodup_map h.ids hx hy hid

/-- What `consume` hands out: the messages from the in-memory position on, which it advances past them. -/
theorem consume_hands (p : Nat) : ∀ (ds : List HandOut) (s : KafkaState), s.memory p ≤ (consume ds s).2.memory p ∧
    (s.memory p ≤ (s.log p).length → (consume ds s).2.memory p ≤ (s.log p).length) ∧
    ∀ i, s.memory p ≤ i → i < (consume ds s).2.memory p → ∃ m, (s.log p)[i]? = some m ∧
      .message m ∈ (consume ds s).1
  | [], s => ⟨Nat.le_refl _, id, fun i h h' => absurd h' (Nat.not_lt.mpr h)⟩
  | .error text n :: ds, s => by
    obtain ⟨hle, hlen, hm⟩ := consume_hands p ds s
    refine ⟨hle, hlen, fun i h h' => ?_⟩
    obtain ⟨m, hget, hmem⟩ := hm i h h'
    exact ⟨m, hget, .tail _ hmem⟩
  | .message q :: ds, s => by
    unfold consume
    split
    · rename_i m hm
      obtain ⟨hle, hlen, hhand⟩ := consume_hands p ds (s.advance q)
      by_cases hq : p = q
      · subst hq
        have hadv : (s.advance p).memory p = s.memory p + 1 := Function.update_self p _ _
        rw [hadv] at hle hlen hhand
        have hlt : s.memory p < (s.log p).length := (List.getElem?_eq_some_iff.mp hm).1
        refine ⟨Nat.le_of_succ_le hle, fun _ => hlen hlt, fun i h h' => ?_⟩
        rcases Nat.eq_or_lt_of_le h with rfl | h
        · exact ⟨m, hm, .head _⟩
        · obtain ⟨m', hget, hmem⟩ := hhand i h h'
          exact ⟨m', hget, .tail _ hmem⟩
      · have hadv : (s.advance q).memory p = s.memory p := Function.update_of_ne hq _ _
        rw [hadv] at hle hlen hhand
        refine ⟨hle, hlen, fun i h h' => ?_⟩
        obtain ⟨m', hget, hmem⟩ := hhand i h h'
        exact ⟨m', hget, .tail _ hmem⟩
    · exact consume_hands p ds s

variable [DecidableEq δ]

theorem call_called (k : KafkaReader δ) (f : KafkaAnswers) (w : KafkaWorld δ) : Called k f w ((k.call f).after w) :=
  ((call_ends k f w).mono (fun _ _ h => h.1) (fun _ _ h => h) fun _ h => h).after

namespace BatchStored

variable {events : List (CdcEvent δ)} {offsets : List (Nat × Nat)} (h : BatchStored k f w w' events offsets)

include h

theorem keeps {x : CdcEventRecord δ} (hx : x ∈ w.db.events) : x ∈ w'.db.events := by
  obtain ⟨position, hdb⟩ := h.db
  rw [hdb]
  exact storeEvents_keeps _ _ _ _ hx

theorem from_ {x : CdcEventRecord δ} (hx : x ∈ w'.db.events) : x ∈ w.db.events ∨
    ∃ m, .message m ∈ (handed f f.limit w.outside).1 ∧ k.Carries m x.event := by
  obtain ⟨position, hdb⟩ := h.db
  rw [hdb] at hx
  rcases storeEvents_from _ _ _ _ hx with hx | ⟨hx, -⟩
  · exact .inl hx
  · rcases (readPolled_ok _ h.batch.2).2.2.1 _ hx with hx | ⟨m, hm, hx⟩
    · cases hx
    · exact .inr ⟨m, hm, _, hx⟩

theorem carried (hw : Sound k w) : ∀ x ∈ w'.db.events, ∃ m, k.Carries m x.event := by
  intro x hx
  rcases h.from_ hx with hx | ⟨m, -, hm⟩
  · exact hw.carried x hx
  · exact ⟨m, hm⟩

theorem stored (hsha : Function.Injective k.codec.sha256) (hw : Sound k w)
    (hm : .message m ∈ (handed f f.limit w.outside).1) :
    k.Stored w' m ∨ ∃ now, fromDebezium k.codec k.source.schemaRef k.source.mapping now m = .ok none := by
  obtain ⟨r, hr, hev⟩ := (readPolled_ok _ h.batch.2).1 m hm
  cases r with
  | none => exact .inr ⟨_, hr⟩
  | some e =>
    obtain ⟨position, hdb⟩ := h.db
    obtain ⟨x, hx, hid⟩ := storeEvents_covers w.db events k.source.name position (hev e rfl)
    rw [← hdb] at hx
    obtain ⟨m', hm'⟩ := h.carried hw x hx
    exact .inl ⟨x, hx, m', hm', .of_eventId hsha ⟨_, hr⟩ hm' hid.symm⟩

theorem sound_db (hw : Sound k w) : (eventIds w'.db).Nodup := by
  obtain ⟨position, hdb⟩ := h.db
  rw [hdb]
  exact storeEvents_nodup _ _ _ _ hw.ids

end BatchStored

/-! ## One step -/

variable {a : KafkaAction} {p i : Nat} {bears : Message → Prop}

theorem Called.log (h : Called k f w w') : w'.outside.log = w.outside.log := by
  cases h with
  | idle _ _ hlog _ => exact hlog
  | stored _ _ h _ => exact h.log
  | committed _ _ h _ _ _ _ => exact h.log

theorem Called.memory (h : Called k f w w') :
    w'.outside.memory = w.outside.memory ∨ w'.outside.memory = (handed f f.limit w.outside).2.memory := by
  cases h with
  | idle _ _ _ hmem => exact hmem
  | stored _ _ h _ => exact .inr h.memory
  | committed _ _ h _ _ _ _ => exact .inr h.memory

theorem Called.sound (h : Called k f w w') (hw : Sound k w) : Sound k w' := by
  have hhand := fun p => consume_hands p (f.handOuts.take f.limit) w.outside
  have hmem : ∀ p, w.outside.memory p ≤ w'.outside.memory p ∧ w'.outside.memory p ≤ (w'.outside.log p).length := by
    intro p
    rw [h.log]
    rcases h.memory with hm | hm
    · rw [hm]
      exact ⟨Nat.le_refl _, hw.memory_le p⟩
    · rw [hm]
      exact ⟨(hhand p).1, (hhand p).2.1 (hw.memory_le p)⟩
  have hcom : w'.outside.committed = w.outside.committed ∨ w'.outside.committed = w'.outside.memory := by
    cases h with
    | idle _ hc _ _ => exact .inl hc
    | stored _ _ _ hc => exact .inl hc
    | committed _ _ _ _ _ _ hc => exact .inr hc
  have hdb : (eventIds w'.db).Nodup ∧ ∀ x ∈ w'.db.events, ∃ m, k.Carries m x.event := by
    cases h with
    | idle hdb _ _ _ => rw [hdb]; exact ⟨hw.ids, hw.carried⟩
    | stored _ _ h _ => exact ⟨h.sound_db hw, h.carried hw⟩
    | committed _ _ h _ _ _ _ => exact ⟨h.sound_db hw, h.carried hw⟩
  refine ⟨hdb.1, hdb.2, fun p => ?_, fun p => (hmem p).2⟩
  rcases hcom with hc | hc
  · rw [hc]
    exact Nat.le_trans (hw.committed_le p) (hmem p).1
  · exact Nat.le_of_eq (congrFun hc p)

theorem Sound.step (h : Sound k w) (a : KafkaAction) : Sound k (k.step w a) := by
  cases a with
  | produce p gap value =>
    refine ⟨h.ids, h.carried, h.committed_le, fun q => Nat.le_trans (h.memory_le q) ?_⟩
    change _ ≤ (Function.update w.outside.log p _ q).length
    by_cases hq : q = p
    · subst hq
      rw [Function.update_self, List.length_append]
      exact Nat.le_add_right _ _
    · exact Nat.le_of_eq (by rw [Function.update_of_ne hq])
  | restart => exact ⟨h.ids, h.carried, fun _ => Nat.le_refl _, fun p => Nat.le_trans (h.committed_le p) (h.memory_le p)⟩
  | call f => exact (call_called k f w).sound h

omit [DecidableEq δ] in
theorem sound_initial : Sound k initial :=
  ⟨List.nodup_nil, fun _ hx => absurd hx List.not_mem_nil, fun _ => Nat.le_refl _, fun _ => Nat.le_refl _⟩

theorem run_cons (a : KafkaAction) (as : List KafkaAction) (w : KafkaWorld δ) : k.run (a :: as) w = k.run as (k.step w a) :=
  rfl

theorem run_append (as bs : List KafkaAction) (w : KafkaWorld δ) : k.run (as ++ bs) w = k.run bs (k.run as w) :=
  List.foldl_append

theorem sound_run (as : List KafkaAction) (h : Sound k w) : Sound k (k.run as w) := by
  induction as generalizing w with
  | nil => exact h
  | cons a as ih =>
    rw [run_cons]
    exact ih (h.step a)

theorem Stored.step (h : k.Stored w m) (a : KafkaAction) : k.Stored (k.step w a) m := by
  obtain ⟨x, hx, hm⟩ := h
  cases a with
  | produce | restart => exact ⟨x, hx, hm⟩
  | call f =>
    refine ⟨x, ?_, hm⟩
    cases call_called k f w with
    | idle hdb _ _ _ => exact hdb ▸ hx
    | stored _ _ h _ => exact h.keeps hx
    | committed _ _ h _ _ _ _ => exact h.keeps hx

theorem log_step (hm : (w.outside.log p)[i]? = some m) (a : KafkaAction) : ((k.step w a).outside.log p)[i]? = some m := by
  cases a with
  | restart => exact hm
  | produce q gap value =>
    change (Function.update w.outside.log q _ p)[i]? = some m
    by_cases hq : p = q
    · subst hq
      rw [Function.update_self]
      exact List.getElem?_append_left (List.getElem?_eq_some_iff.mp hm).1 ▸ hm
    · rw [Function.update_of_ne hq]
      exact hm
  | call f =>
    change (((k.call f).after w).outside.log p)[i]? = some m
    rw [(call_called k f w).log]
    exact hm

theorem log_of_lt (hm : ((k.step w a).outside.log p)[i]? = some m) (hi : i < (w.outside.log p).length) :
    (w.outside.log p)[i]? = some m := by
  have hold := log_step (k := k) (List.getElem?_eq_getElem hi) a
  rw [hm] at hold
  cases hold
  exact List.getElem?_eq_getElem hi

variable (k)

/-- What a call that commits needs: every change between the committed position and the in-memory
position the call starts from is stored, or is handed out again in the call's batch. -/
def SafeCall (bears : Message → Prop) (f : KafkaAnswers) (w : KafkaWorld δ) : Prop :=
  k.Commits f w → ∀ p i m, w.outside.committed p ≤ i → i < w.outside.memory p →
    (w.outside.log p)[i]? = some m → bears m →
    k.Stored w m ∨ ∃ m', .message m' ∈ (handed f f.limit w.outside).1 ∧ k.SameChange m m'

/-- No call of the run commits past a change that is not stored. -/
def CommitsSafely (bears : Message → Prop) (as : List KafkaAction) (w : KafkaWorld δ) : Prop :=
  ∀ pre f post, as = pre ++ .call f :: post → k.SafeCall bears f (k.run pre w)

variable {k}

theorem CommitsSafely.tail {as : List KafkaAction} (h : k.CommitsSafely bears (a :: as) w) :
    k.CommitsSafely bears as (k.step w a) :=
  fun pre f post has => h (a :: pre) f post (by rw [has]; rfl)

theorem BatchStored.handed_or {events : List (CdcEvent δ)} {offsets : List (Nat × Nat)}
    (h : BatchStored k f w w' events offsets) (hsha : Function.Injective k.codec.sha256) (hs : k.Stored w' m) :
    k.Stored w m ∨ ∃ m', .message m' ∈ (handed f f.limit w.outside).1 ∧ k.SameChange m m' := by
  obtain ⟨x, hx, m₁, hm₁, hsame⟩ := hs
  rcases h.from_ hx with hx | ⟨m₂, hmem, hm₂⟩
  · exact .inl ⟨x, hx, m₁, hm₁, hsame⟩
  · obtain ⟨e, he⟩ := hsame.carries
    exact .inr ⟨m₂, hmem, .of_eventId hsha he hm₂ (hsame.eventId he hm₁)⟩

omit [DecidableEq δ] in
theorem Stored.same (hsha : Function.Injective k.codec.sha256) (hs : k.SameChange m m')
    (h : k.Stored w m') : k.Stored w m := by
  obtain ⟨x, hx, m₁, hm₁, hsame⟩ := h
  obtain ⟨e, he⟩ := hs.carries
  obtain ⟨e', he'⟩ := hsame.carries
  exact ⟨x, hx, m₁, hm₁, .of_eventId hsha he hm₁ ((hs.eventId he he').trans (hsame.eventId he' hm₁))⟩

theorem Behind.call (h : k.Behind bears w) (hsha : Function.Injective k.codec.sha256) (hw : Sound k w)
    (hbears : ∀ m now, fromDebezium k.codec k.source.schemaRef k.source.mapping now m = .ok none → ¬ bears m)
    (hsafe : k.SafeCall bears f w) : k.Behind bears (k.step w (.call f)) := by
  have hstep : ∀ m, k.Stored w m → k.Stored (k.step w (.call f)) m := fun m hm => hm.step (.call f)
  intro p i m hi hm hb
  have hcalled : Called k f w (k.step w (.call f)) := call_called k f w
  rw [hcalled.log] at hm
  cases hcalled with
  | idle _ hc _ _ => exact hstep m (h p i m (hc ▸ hi) hm hb)
  | stored _ _ _ hc => exact hstep m (h p i m (hc ▸ hi) hm hb)
  | committed events offsets hs hne hstore hcommit hc =>
    rw [hc, hs.memory] at hi
    by_cases hold : i < w.outside.committed p
    · exact hstep m (h p i m hold hm hb)
    · by_cases hmem : i < w.outside.memory p
      · rcases hsafe ⟨⟨events, offsets, hs.batch, hne⟩, hstore, hcommit⟩ p i m (Nat.not_lt.mp hold) hmem hm hb with
          hstored | ⟨m', hhand, hsame⟩
        · exact hstep m hstored
        · rcases hs.stored hsha hw hhand with hstored | ⟨now, hnone⟩
          · exact hstored.same hsha hsame
          · obtain ⟨_, e', _, ⟨now', he'⟩, -⟩ := hsame
            exact absurd hnone (fromDebezium_ne_none he')
      · obtain ⟨m', hget, hhand⟩ := (consume_hands p (f.handOuts.take f.limit) w.outside).2.2 i (Nat.not_lt.mp hmem) hi
        rw [hm] at hget
        cases hget
        rcases hs.stored hsha hw hhand with hstored | ⟨now, hnone⟩
        · exact hstored
        · exact absurd hb (hbears m now hnone)

theorem Behind.step (h : k.Behind bears w) (hsha : Function.Injective k.codec.sha256) (hw : Sound k w)
    (hbears : ∀ m now, fromDebezium k.codec k.source.schemaRef k.source.mapping now m = .ok none → ¬ bears m)
    (hsafe : ∀ f, a = .call f → k.SafeCall bears f w) : k.Behind bears (k.step w a) := by
  cases a with
  | call f => exact h.call hsha hw hbears (hsafe f rfl)
  | restart => exact h
  | produce q gap value =>
    intro p i m hi hm hb
    exact h p i m hi (log_of_lt hm (Nat.lt_of_lt_of_le hi (Nat.le_trans (hw.committed_le p) (hw.memory_le p)))) hb

/-- Calls that commit safely keep the committed position behind the changes not stored. -/
theorem behind_run (hsha : Function.Injective k.codec.sha256)
    (hbears : ∀ m now, fromDebezium k.codec k.source.schemaRef k.source.mapping now m = .ok none → ¬ bears m)
    (as : List KafkaAction) (hw : Sound k w) (h : k.Behind bears w) (hsafe : k.CommitsSafely bears as w) :
    k.Behind bears (k.run as w) := by
  induction as generalizing w with
  | nil => exact h
  | cons a as ih =>
    rw [run_cons]
    exact ih (hw.step a) (h.step hsha hw hbears fun f ha => hsafe [] f as (by rw [ha]; rfl)) hsafe.tail

/-- A call that commits leaves the position behind only if it commits safely. -/
theorem Behind.safe (h : k.Behind bears (k.step w (.call f))) (hsha : Function.Injective k.codec.sha256) :
    k.SafeCall bears f w := by
  intro hcommits p i m hle hlt hm hb
  obtain ⟨events, offsets, hs, hc⟩ := call_commits k f hcommits
  refine hs.handed_or hsha (h p i m ?_ (log_step hm (.call f)) hb)
  change i < ((k.call f).after w).outside.committed p
  rw [hc, hs.memory]
  exact Nat.lt_of_lt_of_le hlt (consume_hands p (f.handOuts.take f.limit) w.outside).1

/-! ## When the failures stop -/

variable (k)

def Returns : List KafkaAction → KafkaWorld δ → Prop
  | [], _ => True
  | a :: as, w => (∀ f, a = .call f → (k.call f w).1.returned = true) ∧ Returns as (k.step w a)

/-- How many messages of the partition a step hands out. -/
def handedBy (p : Nat) (w : KafkaWorld δ) : KafkaAction → Nat
  | .call f => (handed f f.limit w.outside).2.memory p - w.outside.memory p
  | _ => 0

def handedOver (p : Nat) : List KafkaAction → KafkaWorld δ → Nat
  | [], _ => 0
  | a :: as, w => handedBy p w a + handedOver p as (k.step w a)

/-- Once the failures stop, every message of the log that bears a change is stored when enough
messages of its partition have been handed out. -/
def EventuallyStored (bears : Message → Prop) (as : List KafkaAction) : Prop :=
  ∀ (p i : Nat) (m : Message), ((k.run as initial).outside.log p)[i]? = some m → bears m → ∃ n, ∀ bs,
    k.CommitsSafely bears (as ++ bs) initial → k.Returns bs (k.run as initial) →
    n ≤ k.handedOver p bs (k.run as initial) → k.Stored (k.run (as ++ bs) initial) m

variable {k}

theorem committed_step (hw : Sound k w) (hret : ∀ f, a = .call f → (k.call f w).1.returned = true) (p : Nat) :
    w.outside.committed p + handedBy p w a ≤ (k.step w a).outside.committed p := by
  cases a with
  | produce | restart => exact Nat.le_refl _
  | call f =>
    have hacked : Acked k f w ((k.call f).after w) := by
      have hends := call_ends k f w
      have hdone := hret f rfl
      unfold Ensures at hends
      unfold Act.after
      split at hends
      · rename_i hrun
        rw [hrun]
        exact hends.2
      · rename_i hrun
        rw [hrun] at hdone
        cases hdone
      · rename_i hrun
        rw [hrun] at hdone
        cases hdone
    obtain ⟨events, offsets, hs, hnil | hc⟩ := hacked
    · have hnone := ((readPolled_ok _ hs.batch.2).2.2.2.mp hnil).2
      have hhand := consume_hands p (f.handOuts.take f.limit) w.outside
      have hmem : handedBy p w (.call f) = 0 := by
        refine Nat.sub_eq_zero_of_le (Nat.not_lt.mp fun hlt => ?_)
        obtain ⟨m, -, hmem⟩ := hhand.2.2 _ (Nat.le_refl _) hlt
        have hany : (handed f f.limit w.outside).1.any Polled.isMessage = true :=
          List.any_eq_true.mpr ⟨.message m, hmem, rfl⟩
        rw [hnone] at hany
        cases hany
      rw [hmem]
      cases call_called k f w with
      | idle _ hc _ _ => exact Nat.le_of_eq (congrFun hc.symm p)
      | stored _ _ _ hc => exact Nat.le_of_eq (congrFun hc.symm p)
      | committed events' offsets' hs' hne _ _ _ =>
        have := hs.batch.2.symm.trans hs'.batch.2
        cases this
        exact absurd hnil hne
    · change _ ≤ ((k.call f).after w).outside.committed p
      have hle := (consume_hands p (f.handOuts.take f.limit) w.outside).1
      have hcom := hw.committed_le p
      have hby : handedBy p w (.call f) =
          (consume (f.handOuts.take f.limit) w.outside).2.memory p - w.outside.memory p := rfl
      rw [hc, hs.memory, hby]
      unfold handed
      omega

theorem committed_run (p : Nat) (bs : List KafkaAction) (hw : Sound k w) (hret : k.Returns bs w) :
    w.outside.committed p + k.handedOver p bs w ≤ (k.run bs w).outside.committed p := by
  induction bs generalizing w with
  | nil => exact Nat.le_refl _
  | cons b bs ih =>
    rw [run_cons]
    have hstep := committed_step hw hret.1 p
    have hrun := ih (hw.step b) hret.2
    unfold handedOver
    omega

theorem log_run (bs : List KafkaAction) (hm : (w.outside.log p)[i]? = some m) :
    ((k.run bs w).outside.log p)[i]? = some m := by
  induction bs generalizing w with
  | nil => exact hm
  | cons b bs ih =>
    rw [run_cons]
    exact ih (log_step hm b)

/-- For every run of calls, restarts and messages: no change is stored twice; the committed
position stays behind the changes not stored exactly when every call that commits does so safely;
and then every change is stored once the failures stop. What bears a change is any set of messages
without those that parse to nothing. -/
theorem kafka_exactly_once (k : KafkaReader δ) (hsha : Function.Injective k.codec.sha256) (bears : Message → Prop)
    (hbears : ∀ m now, fromDebezium k.codec k.source.schemaRef k.source.mapping now m = .ok none → ¬ bears m)
    (as : List KafkaAction) :
    (∀ m x y, k.StoredAs (k.run as initial) m x → k.StoredAs (k.run as initial) m y → x = y) ∧
      ((∀ pre post, as = pre ++ post → k.Behind bears (k.run pre initial)) ↔ k.CommitsSafely bears as initial) ∧
      k.EventuallyStored bears as := by
  have hsound : ∀ as, Sound k (k.run as initial) := fun as => sound_run as sound_initial
  have hinit : k.Behind bears initial := fun p i m hi => absurd hi (Nat.not_lt_zero i)
  refine ⟨fun m x y hx hy => (hsound as).once hx hy, ⟨fun h pre f post has => ?_, fun h pre post has => ?_⟩, ?_⟩
  · have hnext := h (pre ++ [.call f]) post (by simpa using has)
    rw [run_append] at hnext
    exact Behind.safe hnext hsha
  · subst has
    exact behind_run hsha hbears pre sound_initial hinit fun pre' f post' hpre =>
      h pre' f (post' ++ post) (by rw [hpre]; simp)
  · intro p i m hm hb
    refine ⟨i + 1, fun bs hsafe hret hn => ?_⟩
    have hbehind := behind_run hsha hbears (as ++ bs) sound_initial hinit hsafe
    have hcom := committed_run p bs (hsound as) hret
    rw [run_append] at hbehind ⊢
    exact hbehind p i m (by omega) (log_run bs hm) hb

/-! ### A batch that was not stored -/

def cellCodec : CdcCodec (List String) where
  sha256 := id
  loads _ := none
  timestamp _ := none
  fromMicros n := some n
  fromMillis
    | .int n => some (1000 * n)
    | _ => none
  repr _ := ""

def cellReader : KafkaReader (List String) where
  codec := cellCodec
  source :=
    { topic := "oran.public.cell_kpi", group := "oran-adapt-cdc", schemaRef := "cell_kpi/1"
      mapping := { payloadColumn := "" } }

/-- The value Debezium writes for an inserted row. -/
def cellInsert (id lsn : Int) : Json :=
  .obj [("op", .str "c"), ("before", .null),
    ("after", .obj [("id", .int id), ("dataset_id", .str "kpi"), ("observed_at", .int 1767226500000000), ("load", .int 10)]),
    ("source", .obj [("table", .str "cell_kpi"), ("lsn", .int lsn), ("ts_ms", .int 1767226500000)])]

/-- The first call is handed the first message and cannot store it; the second, on the same source
object, is handed the second message and stores it. -/
def failedStore : List KafkaAction :=
  [.produce 0 0 (some (some (cellInsert 1 100))), .produce 0 0 (some (some (cellInsert 2 200))),
   .call { limit := 1, handOuts := [.message 0], store := .before ⟨.python "SQLAlchemyError", "", []⟩ },
   .call { limit := 1, handOuts := [.message 0] }]

theorem kafka_exactly_once_failedStore :
    (∀ m x y, cellReader.StoredAs (cellReader.run failedStore initial) m x →
        cellReader.StoredAs (cellReader.run failedStore initial) m y → x = y) ∧
      ((∀ pre post, failedStore = pre ++ post →
        cellReader.Behind (∃ e, cellReader.Carries · e) (cellReader.run pre initial)) ↔
        cellReader.CommitsSafely (∃ e, cellReader.Carries · e) failedStore initial) ∧
      cellReader.EventuallyStored (∃ e, cellReader.Carries · e) failedStore :=
  kafka_exactly_once cellReader Function.injective_id (∃ e, cellReader.Carries · e)
    (fun _ _ hnone ⟨_, _, he⟩ => fromDebezium_ne_none he hnone) failedStore

def lostMessage : Message := ⟨"oran.public.cell_kpi", 0, 0, some (some (cellInsert 1 100))⟩

/-- The group's committed position passes the first message, which holds a change and is not stored. -/
theorem failedStore_passes : ∃ m e, cellReader.Carries m e ∧
    (((cellReader.run failedStore initial).outside.log 0)[0]? = some m ∧
      0 < (cellReader.run failedStore initial).outside.committed 0 ∧
        ¬ cellReader.Stored (cellReader.run failedStore initial) m) := by
  obtain ⟨e, he⟩ : ∃ e, cellReader.Carries lostMessage e := ⟨_, 0, rfl⟩
  refine ⟨lostMessage, e, he, rfl, by decide +kernel, ?_⟩
  rintro ⟨x, hx, m', hm', hsame⟩
  have hid : x.event.eventId ∈ eventIds (cellReader.run failedStore initial).db := List.mem_map_of_mem hx
  have hids : eventIds (cellReader.run failedStore initial).db = [["debezium", "cell_kpi", "2", "INSERT", "200"]] := by
    decide +kernel
  have hlost : e.eventId = ["debezium", "cell_kpi", "1", "INSERT", "100"] := he.same ⟨0, rfl⟩
  rw [hids, List.mem_singleton, ← hsame.eventId he hm', hlost] at hid
  exact absurd hid (by decide)

end KafkaReader

end OranAdapt
