import OranAdapt.DeliveryStore
import OranAdapt.JsonReading
import OranAdapt.Signing

/-!
# Events and their messages

`record_event` and `record_job_transition` of `notifications.events`, the
message that the dispatcher makes of a recorded event, and the line of text that
the sinks for people send of it.
-/

namespace OranAdapt.Sinks

open Json (write loads Layout)
open PyStr (forall_chars)

/-- `text.lower()` of a name in ASCII letters -/
def lower (text : String) : String := String.ofList (text.toList.map Char.toLower)

/-- The states as `delivery.controller` spells them. -/
def rolloutState : RolloutState → String
  | .shadow => "SHADOW"
  | .canary => "CANARY"
  | .ab => "AB"
  | .awaitingApproval => "AWAITING_APPROVAL"
  | .promoted => "PROMOTED"
  | .rolledBack => "ROLLED_BACK"
  | .expired => "EXPIRED"
  | .rejected => "REJECTED"

structure UuidHex where
  text : String
  length : text.toList.length = 32
  chars : ∀ c ∈ text.toList, c ∈ "0123456789abcdef".toList

/-- A job's error: `to_dict()` of an `AdaptationError`, or code and message alone. The context is what JSON keeps of it. -/
structure JobError where
  code : String
  message : String
  context : Option JsonDict
  readable : ∀ fields, context = some fields → ∀ f ∈ fields, f.2.Readable

structure JobTransition where
  jobId : String
  modelId : Option String
  fromStatus : Option JobStatus
  toStatus : JobStatus
  message : String := ""
  error : Option JobError := none
  strategy : Option String := none

/-- What `delivery.controller` records of a rollout's transition. -/
structure RolloutTransition where
  rolloutId : String
  modelId : String
  strategy : String
  fromState : RolloutState
  toState : RolloutState
  stableVersion : Option String
  candidateVersion : String
  percent : Nat
  reason : String
  percent_le : percent ≤ 100

inductive Change where
  | job (t : JobTransition)
  | rollout (t : RolloutTransition)

def orNull : Option String → Json
  | some s => .str s
  | none => .null

def JobError.json (e : JobError) : Json :=
  .obj ([("code", .str e.code), ("message", .str e.message)] ++
    match e.context with
    | some fields => [("context", .obj fields)]
    | none => [])

namespace Change

def eventType : Change → String
  | job t => "job." ++ lower t.toStatus.value
  | rollout t => "rollout." ++ lower (rolloutState t.toState)

def subject : Change → String
  | job t => t.jobId
  | rollout t => t.rolloutId

def data : Change → JsonDict
  | job t => [
      ("job_id", .str t.jobId),
      ("model_id", orNull t.modelId),
      ("from_status", orNull (t.fromStatus.map JobStatus.value)),
      ("to_status", .str t.toStatus.value),
      ("message", .str t.message),
      ("strategy", orNull t.strategy),
      ("error", (t.error.map JobError.json).getD .null)]
  | rollout t => [
      ("rollout_id", .str t.rolloutId),
      ("model_id", .str t.modelId),
      ("strategy", .str t.strategy),
      ("from_state", .str (rolloutState t.fromState)),
      ("to_state", .str (rolloutState t.toState)),
      ("stable_version", orNull t.stableVersion),
      ("candidate_version", .str t.candidateVersion),
      ("percent", .int t.percent),
      ("reason", .str t.reason)]

end Change

/-- `NOTIFICATION_SOURCE` and `NOTIFICATION_EVENT_TYPE_PREFIX` -/
structure EventSettings where
  source : String := "oran-adapt"
  eventTypePrefix : String := "oran.adapt."

structure NotificationEvent where
  eventId : String
  eventType : String
  subject : String
  envelope : Json

/-- `record_event`: the event it stages, `now` being the time's text. -/
def recordEvent (settings : EventSettings) (eventId now eventType subject : String) (data : JsonDict) :
    Except AdaptationError NotificationEvent := do
  let data ← orRaise "ValueError" (loads (write .spaced 0 (.obj data)))
  .ok {
    eventId, eventType, subject
    envelope := .obj [
      ("specversion", .str "1.0"),
      ("id", .str eventId),
      ("source", .str settings.source),
      ("type", .str (settings.eventTypePrefix ++ eventType)),
      ("subject", .str subject),
      ("time", .str now),
      ("datacontenttype", .str "application/json"),
      ("data", data)] }

/-- `record_job_transition`, and the `record_event` of a rollout -/
def record (settings : EventSettings) (eventId : UuidHex) (now : String) (change : Change) :
    Except AdaptationError NotificationEvent :=
  recordEvent settings eventId.text now change.eventType change.subject change.data

def bodyOf (envelope : Json) : List UInt8 := Utf8.encode (String.ofList (write .compact 0 envelope.sortKeys))

structure OutboundMessage where
  eventId : String
  eventType : String
  subject : String
  envelope : Json
  body : List UInt8
  headers : List (String × String)

/-- The time of an attempt: `int(time.time())`, of a float. -/
structure Seconds where
  value : Int
  float : value.natAbs < PyInt.floatLimit

def messageOf (h : Signing.Hmac) (keys : List (List UInt8)) (now : Seconds) (event : NotificationEvent) :
    Except AdaptationError OutboundMessage := do
  let body := bodyOf event.envelope
  let headers ← Signing.sign h ⟨event.eventId, body, keys, now.value⟩
  .ok ⟨event.eventId, event.eventType, event.subject, event.envelope, body, headers⟩

/-! ## The summary -/

def get (v : Json) (k : String) : Json :=
  match v with
  | .obj fields => JsonDict.read fields k
  | _ => .null

/-- The text of a field that holds a text or nothing. -/
def said : Json → String
  | .str s => s
  | _ => ""

/-- `summary(message)`: a field that is empty is left out. -/
def summary (message : OutboundMessage) : String :=
  let data := get message.envelope "data"
  let text := said (get data "message")
  let error := said (get (get data "error") "code")
  let model := said (get data "model_id")
  let line := ", ".intercalate (["[" ++ message.eventType ++ "] job " ++ message.subject] ++
    (if model = "" then [] else ["model " ++ model]) ++ if error = "" then [] else ["error " ++ error])
  if text = "" then line else line ++ ": " ++ text

/-! ## Every change has a message -/

theorem orNull_readable (s : Option String) : (orNull s).Readable := by
  cases s with
  | none => exact .null
  | some s => exact .str s

theorem JobError.json_readable (e : JobError) : e.json.Readable := by
  apply Json.Readable.obj
  intro f hf
  rcases List.mem_append.mp hf with hf | hf
  · simp only [List.mem_cons, List.not_mem_nil, or_false] at hf
    rcases hf with rfl | rfl <;> exact .str _
  · cases hc : e.context with
    | none =>
      rw [hc] at hf
      cases hf
    | some fields =>
      rw [hc] at hf
      rw [List.mem_singleton.mp hf]
      exact .obj (e.readable fields hc)

theorem Change.data_readable (change : Change) : (Json.obj change.data).Readable := by
  apply Json.Readable.obj
  cases change with
  | job t =>
    have herror : ((t.error.map JobError.json).getD .null).Readable := by
      cases t.error with
      | none => exact .null
      | some e => exact e.json_readable
    intro f hf
    simp only [Change.data, List.mem_cons, List.not_mem_nil, or_false] at hf
    rcases hf with rfl | rfl | rfl | rfl | rfl | rfl | rfl
    · exact .str _
    · exact orNull_readable _
    · exact orNull_readable _
    · exact .str _
    · exact .str _
    · exact orNull_readable _
    · exact herror
  | rollout t =>
    have hpercent : PyInt.width t.percent ≤ PyInt.maxStrDigits := by
      have hle := t.percent_le
      apply PyInt.width_le
      calc (t.percent : Int).natAbs
        _ < PyInt.power 7 := by
          rw [show PyInt.power 7 = 128 from rfl]
          omega
        _ ≤ PyInt.power 970 := PyInt.power_mono (by decide)
        _ ≤ PyInt.floatLimit := PyInt.le_floatLimit
    intro f hf
    simp only [Change.data, List.mem_cons, List.not_mem_nil, or_false] at hf
    rcases hf with rfl | rfl | rfl | rfl | rfl | rfl | rfl | rfl | rfl
    · exact .str _
    · exact .str _
    · exact .str _
    · exact .str _
    · exact .str _
    · exact orNull_readable _
    · exact .str _
    · exact .int hpercent
    · exact .str _

def envelope (settings : EventSettings) (eventId now : String) (change : Change) : Json := .obj [
  ("specversion", .str "1.0"),
  ("id", .str eventId),
  ("source", .str settings.source),
  ("type", .str (settings.eventTypePrefix ++ change.eventType)),
  ("subject", .str change.subject),
  ("time", .str now),
  ("datacontenttype", .str "application/json"),
  ("data", .obj change.data)]

def recorded (settings : EventSettings) (eventId : UuidHex) (now : String) (change : Change) : NotificationEvent :=
  ⟨eventId.text, change.eventType, change.subject, envelope settings eventId.text now change⟩

theorem record_ok (settings : EventSettings) (eventId : UuidHex) (now : String) (change : Change) :
    record settings eventId now change = .ok (recorded settings eventId now change) := by
  have hloads : loads (write .spaced 0 (.obj change.data)) = some (.obj change.data) :=
    Json.loads_written change.data_readable
  rw [record, recordEvent, hloads]
  rfl

theorem envelope_readable (settings : EventSettings) (eventId now : String) (change : Change) :
    (envelope settings eventId now change).Readable := by
  apply Json.Readable.obj
  intro f hf
  simp only [List.mem_cons, List.not_mem_nil, or_false] at hf
  rcases hf with rfl | rfl | rfl | rfl | rfl | rfl | rfl | rfl
  · exact .str _
  · exact .str _
  · exact .str _
  · exact .str _
  · exact .str _
  · exact .str _
  · exact .str _
  · exact change.data_readable

/-! ## Its headers -/

/-- Printable ASCII without a blank at either end. -/
structure Plain (value : List Char) : Prop where
  range : ∀ c ∈ value, ' ' ≤ c ∧ c ≤ '~'
  first : value.head? ≠ some ' '
  last : value.getLast? ≠ some ' '

theorem plain_of_graphic {value : List Char} (h : ∀ c ∈ value, '!' ≤ c ∧ c ≤ '~') : Plain value where
  range c hc := ⟨le_trans (by decide) (h c hc).1, (h c hc).2⟩
  first hhead := absurd (h ' ' (List.mem_of_head? hhead)).1 (by decide)
  last hlast := absurd (h ' ' (List.mem_of_getLast? hlast)).1 (by decide)

theorem graphic_of_range {c : Char} (h : 33 ≤ c.toNat ∧ c.toNat ≤ 126) : '!' ≤ c ∧ c ≤ '~' :=
  ⟨Char.le_def.mpr (UInt32.le_iff_toNat_le.mpr h.1), Char.le_def.mpr (UInt32.le_iff_toNat_le.mpr h.2)⟩

theorem intercalate_ne_nil {w : List Char} (hw : w ≠ [])
    (words : List (List Char)) : [' '].intercalate (w :: words) ≠ [] := by
  cases words with
  | nil => rwa [List.intercalate_singleton]
  | cons v words =>
    rw [List.intercalate_cons_cons, List.append_assoc]
    exact List.append_ne_nil_of_left_ne_nil hw _

theorem plain_words : ∀ {words : List (List Char)}, (∀ w ∈ words, w ≠ [] ∧ ∀ c ∈ w, '!' ≤ c ∧ c ≤ '~') →
    Plain ([' '].intercalate words)
  | [], _ => plain_of_graphic fun c hc => by cases hc
  | [w], h => by
    rw [List.intercalate_singleton]
    exact plain_of_graphic (h w List.mem_cons_self).2
  | w :: v :: words, h => by
    have hw := h w List.mem_cons_self
    have hrest := plain_words (fun u hu => h u (List.mem_cons_of_mem w hu))
    have hne := intercalate_ne_nil (h v (List.mem_cons_of_mem w List.mem_cons_self)).1 words
    rw [List.intercalate_cons_cons, List.append_assoc]
    constructor
    · intro c hc
      rcases List.mem_append.mp hc with hc | hc
      · exact (plain_of_graphic hw.2).range c hc
      · rcases List.mem_append.mp hc with hc | hc
        · rw [List.mem_singleton.mp hc]
          decide
        · exact hrest.range c hc
    · rw [List.head?_append_of_ne_nil _ hw.1]
      exact (plain_of_graphic hw.2).first
    · rw [List.getLast?_append_of_ne_nil _ (List.append_ne_nil_of_right_ne_nil _ hne), List.getLast?_append_of_ne_nil _ hne]
      exact hrest.last

theorem graphic_hex (id : UuidHex) : ∀ c ∈ id.text.toList, '!' ≤ c ∧ c ≤ '~' := by
  have hall : ∀ c ∈ "0123456789abcdef".toList, '!' ≤ c ∧ c ≤ '~' := forall_chars (by decide)
  exact fun c hc => hall c (id.chars c hc)

theorem graphic_toString (n : Int) : ∀ c ∈ (toString n).toList, '!' ≤ c ∧ c ≤ '~' := by
  have hdigit : ∀ c ∈ Nat.toDigits 10 n.natAbs, '!' ≤ c ∧ c ≤ '~' := by
    intro c hc
    have hrange := PyInt.toNat_digit (PyInt.isDigit_of_mem hc)
    exact graphic_of_range ⟨le_trans (by decide) hrange.1, le_trans hrange.2 (by decide)⟩
  intro c hc
  rw [PyInt.toList_toString] at hc
  split at hc
  · exact hdigit c hc
  · rcases List.mem_cons.mp hc with rfl | hc
    · decide
    · exact hdigit c hc

theorem graphic_signature {m : List Char} (h : ∀ c ∈ m, Signing.base64Char c = true) :
    ∀ c ∈ Signing.version ++ ',' :: m, '!' ≤ c ∧ c ≤ '~' := by
  intro c hc
  rw [Signing.version] at hc
  simp only [List.cons_append, List.nil_append, List.mem_cons] at hc
  rcases hc with rfl | rfl | rfl | hc
  · decide
  · decide
  · decide
  · have hrange := Signing.base64_range (h c hc)
    exact graphic_of_range ⟨le_trans (by decide) hrange.1, le_trans hrange.2 (by decide)⟩

theorem graphic_eventType (change : Change) : ∀ c ∈ change.eventType.toList, '!' ≤ c ∧ c ≤ '~' := by
  have hjob : ∀ status : JobStatus, ∀ c ∈ ("job." ++ lower status.value).toList, '!' ≤ c ∧ c ≤ '~' := by
    intro status
    cases status <;> exact forall_chars (by decide)
  have hrollout : ∀ state : RolloutState, ∀ c ∈ ("rollout." ++ lower (rolloutState state)).toList, '!' ≤ c ∧
      c ≤ '~' := by
    intro state
    cases state <;> exact forall_chars (by decide)
  cases change with
  | job t => exact hjob t.toStatus
  | rollout t => exact hrollout t.toState

section
variable (h : Signing.Hmac) (keys : List (List UInt8)) (now : Seconds) (event : NotificationEvent)

def headersOf : List (String × String) :=
  [(Signing.idHeader, event.eventId), (Signing.timestampHeader, toString now.value)] ++
    if keys.isEmpty then [] else [(Signing.signatureHeader, Signing.signatures (keys.map fun key =>
      h.text key (Signing.signed event.eventId (toString now.value) (bodyOf event.envelope))))]

def outbound : OutboundMessage :=
  ⟨event.eventId, event.eventType, event.subject, event.envelope, bodyOf event.envelope, headersOf h keys now event⟩

theorem messageOf_eq : messageOf h keys now event = .ok (outbound h keys now event) := by
  rw [messageOf, Signing.sign_eq now.float]
  rfl

theorem headersOf_names : List.Sublist ((headersOf h keys now event).map Prod.fst)
    [Signing.idHeader, Signing.timestampHeader, Signing.signatureHeader] := by
  rw [headersOf]
  split
  · exact .cons_cons _ (.cons_cons _ (.cons _ .slnil))
  · exact .refl _

theorem outbound_body : (outbound h keys now event).body = bodyOf (outbound h keys now event).envelope := rfl

theorem headersOf_id : (headersOf h keys now event).lookup Signing.idHeader = some event.eventId := rfl

end

/-! ## What every message has -/

/-- What the sinks rely on in a message. -/
structure Sendable (m : OutboundMessage) : Prop where
  id : ∃ id : UuidHex, m.eventId = id.text
  eventType : ∀ c ∈ m.eventType.toList, '!' ≤ c ∧ c ≤ '~'
  names : List.Sublist (m.headers.map Prod.fst) [Signing.idHeader, Signing.timestampHeader, Signing.signatureHeader]
  header : m.headers.lookup Signing.idHeader = some m.eventId
  plain : ∀ p ∈ m.headers, Plain p.2.toList
  body : m.body = bodyOf m.envelope
  fields : ∃ f fields, m.envelope = .obj (f :: fields)
  readable : m.envelope.Readable

theorem headersOf_plain (h : Signing.Hmac) (keys : List (List UInt8)) (now : Seconds)
    {event : NotificationEvent} {id : UuidHex}
    (hid : event.eventId = id.text) : ∀ p ∈ headersOf h keys now event, Plain p.2.toList := by
  intro p hp
  rcases List.mem_append.mp hp with hp | hp
  · simp only [List.mem_cons, List.not_mem_nil, or_false] at hp
    rcases hp with rfl | rfl
    · rw [hid]
      exact plain_of_graphic (graphic_hex id)
    · exact plain_of_graphic (graphic_toString now.value)
  · split at hp
    · cases hp
    · rw [List.mem_singleton.mp hp, Signing.signatures, String.toList_ofList]
      apply plain_words
      intro w hw
      obtain ⟨m, hm, rfl⟩ := List.mem_map.mp hw
      obtain ⟨key, -, rfl⟩ := List.mem_map.mp hm
      exact ⟨List.cons_ne_nil _ _, graphic_signature (h.text_chars _ _)⟩

theorem outbound_sendable (h : Signing.Hmac) (keys : List (List UInt8)) (at_ : Seconds)
    (settings : EventSettings) (eventId : UuidHex)
    (now : String) (change : Change) : Sendable (outbound h keys at_ (recorded settings eventId now change)) where
  id := ⟨eventId, rfl⟩
  eventType := graphic_eventType change
  names := headersOf_names h keys at_ (recorded settings eventId now change)
  header := headersOf_id h keys at_ (recorded settings eventId now change)
  plain := headersOf_plain h keys at_ (show (recorded settings eventId now change).eventId = eventId.text from rfl)
  body := outbound_body h keys at_ (recorded settings eventId now change)
  fields := ⟨_, _, rfl⟩
  readable := envelope_readable settings eventId.text now change

end OranAdapt.Sinks
