import OranAdapt.NotificationSinks

/-!
# What receivers read

The other side of each sink: the id that a receiver finds in what it is sent,
and the envelope, where that is carried.
-/

namespace OranAdapt.Sinks

open Json (loads)
open PyStr (forall_chars)

def readJson (bytes : List UInt8) : Option Json := do
  let text ← Utf8.decode bytes
  loads text.toList

def text? : Json → Option String
  | .str s => some s
  | _ => none

/-! ## HTTP -/

/-- The message of a push of Pub/Sub. -/
def pubsubMessage (body : Json) : Option Json :=
  match get body "messages" with
  | .arr (m :: _) => some m
  | _ => none

namespace HttpRequest

variable (r : HttpRequest)

/-- The header `webhook-id`; in a body the key of an incident or the attribute of a message. -/
def eventId : Option String :=
  match r.headers.lookup Signing.idHeader with
  | some id => some id
  | none => do
    let body ← readJson r.content
    match pubsubMessage body with
    | some m => text? (get (get m "attributes") Signing.idHeader)
    | none => text? (get body "dedup_key")

/-- The body of a CloudEvents request, or the data of a message. -/
def envelope : Option Json :=
  if r.headers.lookup "Content-Type" = some cloudeventsJson then readJson r.content
  else do
    let body ← readJson r.content
    let m ← pubsubMessage body
    let data ← text? (get m "data")
    let bytes ← Base64.decode data.toList
    readJson bytes

end HttpRequest

/-! ## Mail -/

/-- From the last line on that starts with a brace. -/
def lastObject : List Char → Option (List Char)
  | [] => none
  | c :: s =>
    match lastObject s with
    | some object => some object
    | none => if c = '\n' ∧ s.head? = some '\x7b' then some s else none

namespace Mail

variable (m : Mail)

def eventId : Option String := do
  let id ← m.headers.lookup "Message-ID"
  match id.toList with
  | '<' :: id => some (String.ofList (id.takeWhile (· ≠ '@')))
  | _ => none

def envelope : Option Json := do
  let object ← lastObject m.content
  loads object

end Mail

/-! ## NATS -/

def headerLine (line : List Char) : Option (String × String) :=
  match PyStr.partition ':' line with
  | (name, some value) => some (String.ofList name, String.ofList (value.dropWhile (· = ' ')))
  | (_, none) => none

/-- What follows the first line, of which the words are given: as many bytes as it says. -/
def readPayload (payload : List UInt8) : List (List Char) → Option NatsFrame
  | [verb, subject, size, total] => do
    let size ← Json.nat? size
    let total ← Json.nat? total
    let block ← Utf8.decode (payload.take size)
    if verb = "HPUB".toList ∧ payload.drop total = [13, 10] then
      some {
        subject := String.ofList subject
        headers := (splitlines block.toList).filterMap headerLine
        body := (payload.take total).drop size }
    else none
  | _ => none

def readFrame (bytes : List UInt8) : Option NatsFrame := do
  let line ← Utf8.decode (bytes.takeWhile (· ≠ 13))
  readPayload ((bytes.dropWhile (· ≠ 13)).drop 2) (Signing.words line.toList)

/-! ## Every sink -/

def utf8Headers (headers : List (String × List UInt8)) (name : String) : Option String := do
  let value ← headers.lookup name
  Utf8.decode value

namespace Sent

def eventId : Sent → Option String
  | record r => r.extra.lookup "event_id"
  | request r => r.eventId
  | mail m => m.eventId
  | kafka r => utf8Headers r.headers Signing.idHeader
  | aws m => m.attributes.lookup Signing.idHeader
  | frame bytes => (readFrame bytes).bind fun f => f.headers.lookup "Nats-Msg-Id"

def envelope : Sent → Option Json
  | record _ => none
  | request r => r.envelope
  | mail m => m.envelope
  | kafka r => readJson r.value
  | aws m => loads m.body.toList
  | frame bytes => (readFrame bytes).bind fun f => readJson f.body

@[simp] theorem eventId_request (r : HttpRequest) : (request r).eventId = r.eventId := rfl

@[simp] theorem envelope_request (r : HttpRequest) : (request r).envelope = r.envelope := rfl

@[simp] theorem eventId_mail (m : Mail) : (mail m).eventId = m.eventId := rfl

@[simp] theorem envelope_mail (m : Mail) : (mail m).envelope = m.envelope := rfl

@[simp] theorem eventId_frame (bytes : List UInt8) :
    (frame bytes).eventId = (readFrame bytes).bind fun f => f.headers.lookup "Nats-Msg-Id" := rfl

@[simp] theorem envelope_frame (bytes : List UInt8) :
    (frame bytes).envelope = (readFrame bytes).bind fun f => readJson f.body := rfl

end Sent

/-! ## Bodies read back -/

theorem readJson_encode {v : Json} (h : v.Readable)
    (l : Json.Layout) : readJson (Utf8.encode (String.ofList (Json.write l 0 v))) = some v := by
  rw [readJson, Utf8.decode_encode]
  simp only [Option.bind_eq_bind, Option.bind_some, String.toList_ofList, Json.loads_written h]

theorem readJson_bodyOf {v : Json} (h : v.Readable) : readJson (bodyOf v) = some v.sortKeys :=
  readJson_encode h.sortKeys .compact

theorem get_readable {v : Json} (h : v.Readable) (k : String) : (get v k).Readable := by
  cases h with
  | @obj fields h =>
    rw [get, JsonDict.read]
    cases hk : fields.lookup k with
    | none => exact .null
    | some w => exact h _ (Table.lookup_mem hk)
  | null => exact .null
  | bool b => exact .null
  | int h => exact .null
  | float h => exact .null
  | str s => exact .null
  | arr h => exact .null

/-- What is asked of what leaves the process: its receiver finds the event's id, and the envelope where it is carried. -/
structure Reads (m : OutboundMessage) (carried : Bool) (sent : Sent) : Prop where
  id : sent.eventId = some m.eventId
  envelope : carried = true → ∃ v, sent.envelope = some v ∧ v.Same m.envelope

section
variable {m : OutboundMessage} (hm : Sendable m)

include hm

theorem Sendable.readJson_body : readJson m.body = some m.envelope.sortKeys := by rw [hm.body, readJson_bodyOf hm.readable]

theorem Sendable.nodup {d : List (String × String)}
    (h : (d.map Prod.fst ++ [Signing.idHeader, Signing.timestampHeader, Signing.signatureHeader]).Nodup) :
    ((d ++ m.headers).map Prod.fst).Nodup := by
  rw [List.map_append]
  exact h.sublist (List.Sublist.append_left hm.names _)

theorem Sendable.nodup_right {d : List (String × String)}
    (h : ([Signing.idHeader, Signing.timestampHeader, Signing.signatureHeader] ++ d.map Prod.fst).Nodup) :
    ((m.headers ++ d).map Prod.fst).Nodup := by
  rw [List.map_append]
  exact h.sublist (List.Sublist.append_right hm.names _)

theorem Sendable.lookup_append (d : List (String × String)) : (m.headers ++ d).lookup Signing.idHeader = some m.eventId := by
  rw [List.lookup_append, hm.header]
  rfl

end

/-! ## The log -/

theorem reads_log (m : OutboundMessage) : Reads m false (.record (LogSink.send m)) where
  id := rfl
  envelope h := by cases h

/-! ## HTTP -/

theorem fieldValue_plain {value : List Char} (h : Plain value) : fieldValue value = true := by
  have hnotab : '\t' ∉ value := fun hmem => absurd (h.range _ hmem).1 (by decide)
  have hchar : value.all fieldChar = true := by
    rw [List.all_eq_true]
    intro c hc
    have hlow := (h.range c hc).1
    have hnul : c ≠ '\x00' := fun heq => absurd (heq ▸ hlow) (by decide)
    have hcontrol : ¬c ≤ '\r' := fun hle => absurd (le_trans hlow hle) (by decide)
    simp [fieldChar, hnul, hcontrol]
  have hfirst : value.head?.any (· ∈ [' ', '\t']) = false := by
    cases hv : value.head? with
    | none => rfl
    | some c =>
      have hblank : c ≠ ' ' := fun heq => h.first (hv.trans (congrArg some heq))
      have htab : c ≠ '\t' := fun heq => hnotab (heq ▸ List.mem_of_head? hv)
      simp [hblank, htab]
  have hlast : value.getLast?.any (· ∈ [' ', '\t']) = false := by
    cases hv : value.getLast? with
    | none => rfl
    | some c =>
      have hblank : c ≠ ' ' := fun heq => h.last (hv.trans (congrArg some heq))
      have htab : c ≠ '\t' := fun heq => hnotab (heq ▸ List.mem_of_getLast? hv)
      simp [hblank, htab]
  rw [fieldValue, hchar, hfirst, hlast]
  rfl

theorem post_ok (url sink : String) (content : List UInt8) {headers : List (String × String)}
    (h : ∀ p ∈ headers, Plain p.2.toList) :
    post url sink content headers = .ok ⟨url, headers, content⟩ := by
  have hascii : headers.all (fun p => p.2.toList.all Utf8.ascii) = true := by
    simp only [List.all_eq_true, Utf8.ascii, decide_eq_true_eq]
    intro p hp c hc
    have hle : c.toNat ≤ '~'.toNat := UInt32.le_iff_toNat_le.mp (Char.le_def.mp ((h p hp).range c hc).2)
    exact lt_of_le_of_lt hle (by decide)
  have hfield : headers.all (fun p => fieldValue p.2.toList) = true :=
    List.all_eq_true.mpr fun p hp => fieldValue_plain (h p hp)
  rw [post, hascii, hfield]
  rfl

theorem plain_contentType : ∀ p ∈ [("Content-Type", "application/json")], Plain p.2.toList := by
  intro p hp
  rw [List.mem_singleton.mp hp]
  exact plain_of_graphic (forall_chars (by decide))

section
variable {m : OutboundMessage} (hm : Sendable m)

include hm

theorem reads_webhook (url : String) : ∃ r, WebhookSink.send url m = .ok r ∧ Reads m true (.request r) := by
  have hmerge : merge [("Content-Type", cloudeventsJson)] m.headers = ("Content-Type", cloudeventsJson) :: m.headers :=
    merge_eq (hm.nodup (by decide))
  have hplain : ∀ p ∈ ("Content-Type", cloudeventsJson) :: m.headers, Plain p.2.toList := by
    intro p hp
    rcases List.mem_cons.mp hp with rfl | hp
    · exact plain_of_graphic (forall_chars (by decide))
    · exact hm.plain p hp
  refine ⟨_, by rw [WebhookSink.send, hmerge]; exact post_ok _ _ _ hplain, ?_, fun _ => ?_⟩
  · have hlookup : (("Content-Type", cloudeventsJson) :: m.headers).lookup Signing.idHeader = some m.eventId := hm.header
    rw [Sent.eventId_request, HttpRequest.eventId, hlookup]
  · refine ⟨m.envelope.sortKeys, ?_, Json.same_sortKeys _⟩
    rw [Sent.envelope_request, HttpRequest.envelope, if_pos (by rfl)]
    exact hm.readJson_body

end

theorem SlackSink.body_readable (m : OutboundMessage) : (SlackSink.body m).Readable := by
  apply Json.Readable.obj
  intro f hf
  rw [List.mem_singleton.mp hf]
  exact .str _

theorem eventId_json {v : Json} (h : v.Readable) (url : String) {headers : List (String × String)}
    (hlookup : headers.lookup Signing.idHeader = none) :
    HttpRequest.eventId ⟨url, headers, jsonContent v⟩ =
      match pubsubMessage v with
      | some m => text? (get (get m "attributes") Signing.idHeader)
      | none => text? (get v "dedup_key") := by
  rw [HttpRequest.eventId, hlookup, jsonContent, readJson_encode h .spaced]
  rfl

theorem slack_anonymous (url : String) (m : OutboundMessage) :
    ∃ r, SlackSink.send url m = .ok r ∧ (Sent.request r).eventId = none := by
  refine ⟨_, post_ok url "slack" (jsonContent (SlackSink.body m)) plain_contentType, ?_⟩
  rw [Sent.eventId_request, eventId_json (SlackSink.body_readable m) _ rfl]
  rfl

theorem readable_strings {fields : List (String × String)} : (Json.obj (fields.map fun p => (p.1, .str p.2))).Readable := by
  apply Json.Readable.obj
  intro f hf
  obtain ⟨p, -, rfl⟩ := List.mem_map.mp hf
  exact .str _

theorem lookup_map {β γ : Type} (f : β → γ) (k : String) (d : List (String × β)) :
    (d.map fun p => (p.1, f p.2)).lookup k = (d.lookup k).map f := by
  induction d with
  | nil => rfl
  | cons p d ih =>
    rw [List.map_cons, List.lookup_cons, List.lookup_cons, ih]
    cases k == p.1 <;> rfl

section
variable {m : OutboundMessage} (hm : Sendable m)

include hm

theorem PagerDutySink.payload_readable (sink : PagerDutySink) : (sink.payload m).Readable := by
  have hpayload : ∀ f ∈ [
      ("summary", .str (String.ofList ((summary m).toList.take 1024))), ("source", .str sink.source),
      ("severity", .str sink.severity.text), ("timestamp", get m.envelope "time"), ("component", .str m.subject),
      ("class", .str m.eventType), ("custom_details", get m.envelope "data")], f.2.Readable := by
    intro f hf
    simp only [List.mem_cons, List.not_mem_nil, or_false] at hf
    rcases hf with rfl | rfl | rfl | rfl | rfl | rfl | rfl
    · exact .str _
    · exact .str _
    · exact .str _
    · exact get_readable hm.readable _
    · exact .str _
    · exact .str _
    · exact get_readable hm.readable _
  apply Json.Readable.obj
  intro f hf
  simp only [List.mem_cons, List.not_mem_nil, or_false] at hf
  rcases hf with rfl | rfl | rfl | rfl
  · exact .str _
  · exact .str _
  · exact .str _
  · exact .obj hpayload

theorem reads_pagerduty (sink : PagerDutySink) : ∃ r, sink.send m = .ok r ∧ Reads m false (.request r) := by
  refine ⟨_, post_ok sink.url "pagerduty" (jsonContent (sink.payload m)) plain_contentType, ?_, fun h => by cases h⟩
  rw [Sent.eventId_request, eventId_json (sink.payload_readable hm) _ rfl]
  rfl

/-! ## Kafka, SQS and SNS -/

theorem reads_kafka (topic : String) : Reads m true (.kafka (KafkaSink.send topic m)) where
  id := by
    show (do
      let value ← (m.headers.map fun p => (p.1, Utf8.encode p.2)).lookup Signing.idHeader
      Utf8.decode value) = some m.eventId
    rw [lookup_map, hm.header]
    exact Utf8.decode_encode m.eventId
  envelope _ := ⟨m.envelope.sortKeys, hm.readJson_body, Json.same_sortKeys _⟩

theorem merge_eventType : merge m.headers [("event-type", m.eventType)] = m.headers ++ [("event-type", m.eventType)] :=
  merge_eq (hm.nodup_right
    (show ([Signing.idHeader, Signing.timestampHeader, Signing.signatureHeader] ++ ["event-type"]).Nodup by decide))

theorem reads_aws (target : String) : ∃ a, awsSend target m = .ok a ∧ Reads m true (.aws a) := by
  have hbody : Utf8.decode m.body = some (String.ofList (Json.write .compact 0 m.envelope.sortKeys)) := by
    rw [hm.body, bodyOf, Utf8.decode_encode]
  refine ⟨_, by rw [awsSend, hbody], ?_, fun _ => ⟨m.envelope.sortKeys, ?_, Json.same_sortKeys _⟩⟩
  · show (awsAttributes m).lookup Signing.idHeader = _
    rw [awsAttributes, merge_eventType hm, hm.lookup_append]
  · show loads (String.ofList (Json.write .compact 0 m.envelope.sortKeys)).toList = _
    rw [String.toList_ofList, Json.loads_written hm.readable.sortKeys]

/-! ## Pub/Sub -/

omit hm in
theorem PubSubSink.headers_eq (sink : PubSubSink) : ∃ token, merge [("Content-Type", "application/json")] sink.headers =
    ("Content-Type", "application/json") :: token ∧ token.lookup Signing.idHeader = none ∧
      ∀ p ∈ token, Plain p.2.toList := by
  cases ht : sink.token with
  | none =>
    refine ⟨[], by rw [PubSubSink.headers, ht]; rfl, rfl, fun p hp => by cases hp⟩
  | some token =>
    by_cases hempty : token.text = ""
    · refine ⟨[], by rw [PubSubSink.headers, ht]; simp only [hempty]; rfl, rfl, fun p hp => by cases hp⟩
    · have hne : token.text.toList ≠ [] := fun h => hempty (String.toList_eq_nil_iff.mp h)
      have hwords : Plain ([' '].intercalate ["Bearer".toList, token.text.toList]) := by
        apply plain_words
        intro w hw
        simp only [List.mem_cons, List.not_mem_nil, or_false] at hw
        rcases hw with rfl | rfl
        · exact ⟨by decide, forall_chars (by decide)⟩
        · exact ⟨hne, token.chars⟩
      have htext : ("Bearer " ++ token.text).toList = [' '].intercalate ["Bearer".toList, token.text.toList] := by
        rw [String.toList_append, List.intercalate_cons_cons, List.intercalate_singleton]
        rfl
      refine ⟨[("Authorization", "Bearer " ++ token.text)], ?_, rfl, ?_⟩
      · rw [PubSubSink.headers, ht]
        simp only [hempty]
        rfl
      · intro p hp
        rw [List.mem_singleton.mp hp, htext]
        exact hwords

omit hm in
theorem PubSubSink.body_readable (m : OutboundMessage) : (PubSubSink.body m).Readable := by
  apply Json.Readable.obj
  intro f hf
  rw [List.mem_singleton.mp hf]
  apply Json.Readable.arr
  intro v hv
  rw [List.mem_singleton.mp hv]
  apply Json.Readable.obj
  intro f hf
  simp only [List.mem_cons, List.not_mem_nil, or_false] at hf
  rcases hf with rfl | rfl
  · exact .str _
  · exact readable_strings

theorem reads_pubsub (sink : PubSubSink) : ∃ r, sink.send m = .ok r ∧ Reads m true (.request r) := by
  obtain ⟨token, hheaders, hid, hplain⟩ := sink.headers_eq
  have hall : ∀ p ∈ ("Content-Type", "application/json") :: token, Plain p.2.toList := by
    intro p hp
    rcases List.mem_cons.mp hp with rfl | hp
    · exact plain_contentType _ List.mem_cons_self
    · exact hplain p hp
  have hlookup : (("Content-Type", "application/json") :: token).lookup Signing.idHeader = none := hid
  have htype : (("Content-Type", "application/json") :: token).lookup "Content-Type" = some "application/json" := rfl
  refine ⟨_, by rw [PubSubSink.send, hheaders]; exact post_ok _ _ _ hall, ?_,
    fun _ => ⟨m.envelope.sortKeys, ?_, Json.same_sortKeys _⟩⟩
  · rw [Sent.eventId_request, eventId_json (PubSubSink.body_readable m) _ hlookup]
    show text? (get (.obj ((merge m.headers [("event-type", m.eventType)]).map fun p => (p.1, .str p.2)))
      Signing.idHeader) = _
    rw [get, JsonDict.read, lookup_map, merge_eventType hm, hm.lookup_append]
    rfl
  · rw [Sent.envelope_request, HttpRequest.envelope, htype, if_neg (by decide), jsonContent,
      readJson_encode (PubSubSink.body_readable m) .spaced]
    show (do
      let bytes ← Base64.decode (String.ofList (Base64.encode m.body)).toList
      readJson bytes) = some m.envelope.sortKeys
    rw [String.toList_ofList, Base64.decode_encode]
    exact hm.readJson_body

end

end OranAdapt.Sinks
