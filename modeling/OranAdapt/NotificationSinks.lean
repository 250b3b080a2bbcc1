import OranAdapt.Encodings
import OranAdapt.Notifications
import OranAdapt.RecordedEvents

/-!
# The sinks

What `adapters.notify`, `adapters.notify_email` and `adapters.notify_brokers`
hand to the other side for a message: a log record, a POST, a mail, or what
Kafka, SQS, SNS, Pub/Sub and NATS are given; and every sink's `send` up to what
leaves the process.
-/

namespace OranAdapt.Sinks

open Json (write Layout)
open PyStr (afterLast)

/-! ## Errors -/

/-- `repr` of a text, and `str` of an exception that is not of the framework. -/
structure ErrorTexts where
  repr : String → String
  str : AdaptationError → String

/-- What leaves `send`: a `NotificationDeliveryError`, or an exception that breaks the port's contract. -/
inductive SendError where
  | failed (message : String) (retryable : Bool)
  | raised (e : AdaptationError)

def SendError.result (texts : ErrorTexts) : SendError → SendResult
  | failed message retryable => .refused message retryable none
  | raised e => .raised e.cls.code (texts.str e)

/-! ## Dicts of headers -/

def withItem (d : List (String × String)) (p : String × String) : List (String × String) :=
  if p.1 ∈ d.map Prod.fst then d.map fun q => if q.1 = p.1 then p else q else d ++ [p]

def merge (d items : List (String × String)) : List (String × String) := items.foldl withItem d

theorem merge_eq {d items : List (String × String)}
    (h : ((d ++ items).map Prod.fst).Nodup) : merge d items = d ++ items := by
  induction items generalizing d with
  | nil => simp [merge]
  | cons p items ih =>
    have hp : p.1 ∉ d.map Prod.fst := by
      intro hmem
      rw [List.map_append, List.nodup_append] at h
      exact h.2.2 _ hmem _ (List.mem_map_of_mem List.mem_cons_self) rfl
    have hstep : merge d (p :: items) = merge (d ++ [p]) items := by
      rw [merge, List.foldl_cons, withItem, if_neg hp]
      rfl
    have hnodup : (((d ++ [p]) ++ items).map Prod.fst).Nodup := by rwa [List.append_assoc]
    rw [hstep, ih hnodup, List.append_assoc]
    rfl

/-! ## The log -/

def contextFields : List String := [
  "correlation_id", "adaptation_job_id", "model_id", "model_version", "strategy", "component", "status", "error", "event_id",
  "event_type", "sink", "delivery_id", "trace_id", "span_id"]

structure LogRecord where
  message : String
  extra : List (String × String)

def logEvent (message : String) (ctx : List (String × String)) : LogRecord :=
  ⟨message, ctx.filter fun p => p.1 ∈ contextFields⟩

def LogSink.send (message : OutboundMessage) : LogRecord :=
  logEvent (summary message) [("event_id", message.eventId), ("event_type", message.eventType), ("sink", "log")]

/-! ## HTTP -/

structure HttpRequest where
  url : String
  headers : List (String × String)
  content : List UInt8

/-- A character that the value of a header may have: no NUL, and of the white space the blank and the tab alone. -/
def fieldChar (c : Char) : Bool := c ≠ '\x00' && (c = '\t' || !('\t' ≤ c && c ≤ '\r'))

/-- The values that h11 sends, which have no white space at their ends. -/
def fieldValue (value : List Char) : Bool :=
  value.all fieldChar && !(value.head?.any (· ∈ [' ', '\t'])) && !(value.getLast?.any (· ∈ [' ', '\t']))

/-- `post`, up to the request: httpx encodes the values of the headers in ASCII. -/
def post (url sink : String) (content : List UInt8) (headers : List (String × String)) : Except SendError HttpRequest :=
  if headers.all fun p => p.2.toList.all Utf8.ascii then
    if headers.all fun p => fieldValue p.2.toList then .ok ⟨url, headers, content⟩
    else .error (.failed (sink ++ " unreachable: LocalProtocolError") true)
  else .error (.raised (pythonError "UnicodeEncodeError"))

def jsonContent (v : Json) : List UInt8 := Utf8.encode (String.ofList (write .spaced 0 v))

def cloudeventsJson : String := "application/cloudevents+json"

def WebhookSink.send (url : String) (message : OutboundMessage) : Except SendError HttpRequest :=
  post url "webhook" message.body (merge [("Content-Type", cloudeventsJson)] message.headers)

def SlackSink.body (message : OutboundMessage) : Json := .obj [("text", .str (summary message))]

def SlackSink.send (url : String) (message : OutboundMessage) : Except SendError HttpRequest :=
  post url "slack" (jsonContent (SlackSink.body message)) [("Content-Type", "application/json")]

inductive Severity where
  | critical | error | warning | info

def Severity.text : Severity → String
  | critical => "critical"
  | error => "error"
  | warning => "warning"
  | info => "info"

structure PagerDutySink where
  url : String
  routingKey : String
  severity : Severity
  source : String

def PagerDutySink.payload (sink : PagerDutySink) (message : OutboundMessage) : Json := .obj [
  ("routing_key", .str sink.routingKey),
  ("event_action", .str "trigger"),
  ("dedup_key", .str message.eventId),
  ("payload", .obj [
    ("summary", .str (String.ofList ((summary message).toList.take 1024))),
    ("source", .str sink.source),
    ("severity", .str sink.severity.text),
    ("timestamp", get message.envelope "time"),
    ("component", .str message.subject),
    ("class", .str message.eventType),
    ("custom_details", get message.envelope "data")])]

def PagerDutySink.send (sink : PagerDutySink) (message : OutboundMessage) : Except SendError HttpRequest :=
  post sink.url "pagerduty" (jsonContent (sink.payload message)) [("Content-Type", "application/json")]

/-! ## Mail -/

/-- The characters at which `str.splitlines` ends a line. -/
def lineBreaks : List Char := ['\n', '\r', '\x0b', '\x0c', '\x1c', '\x1d', '\x1e', '\x85', '\u2028', '\u2029']

structure Mail where
  headers : List (String × String)
  content : List Char

def setHeader (p : String × String) : Except SendError (String × String) :=
  if p.2.toList.any (· ∈ lineBreaks) then .error (.raised (pythonError "ValueError")) else .ok p

def pushFirst (c : Char) : List (List Char) → List (List Char)
  | [] => [[c]]
  | line :: lines => (c :: line) :: lines

def splitlines : List Char → List (List Char)
  | [] => []
  | '\r' :: '\n' :: s => [] :: splitlines s
  | '\n' :: s => [] :: splitlines s
  | '\r' :: s => [] :: splitlines s
  | c :: s => pushFirst c (splitlines s)

/-- `set_content(text)`: each line ends in a line feed. -/
def setContent (text : List Char) : List Char := ['\n'].intercalate (splitlines text) ++ ['\n']

structure EmailSink where
  sender : String
  recipients : List String

def EmailSink.domain (sink : EmailSink) : List Char :=
  let host := afterLast '@' sink.sender.toList
  if host.isEmpty then "localhost".toList else host

def EmailSink.headers (sink : EmailSink) (message : OutboundMessage) : List (String × String) := [
  ("Subject", String.ofList ((summary message).toList.take 200)),
  ("From", sink.sender),
  ("To", ", ".intercalate sink.recipients),
  ("Message-ID", String.ofList ('<' :: (message.eventId.toList ++ '@' :: (sink.domain ++ ['>']))))] ++
  message.headers.map fun p => ("X-" ++ p.1, p.2)

def EmailSink.compose (sink : EmailSink) (message : OutboundMessage) : Except SendError Mail := do
  let headers ← (sink.headers message).mapM setHeader
  .ok ⟨headers, setContent ((summary message).toList ++ '\n' :: '\n' :: write .indented 0 message.envelope)⟩

open PyStr (isSpace)

/-! ## Kafka -/

/-- The arguments of `produce`. -/
structure KafkaRecord where
  topic : String
  key : List UInt8
  value : List UInt8
  headers : List (String × List UInt8)

def KafkaSink.send (topic : String) (message : OutboundMessage) : KafkaRecord where
  topic := topic
  key := Utf8.encode message.subject
  value := message.body
  headers := message.headers.map fun p => (p.1, Utf8.encode p.2)

/-! ## SQS and SNS -/

/-- The arguments of `send_message` and of `publish`: the queue or the topic, the text, the values of the
attributes, and the two ids
of a FIFO target. -/
structure AwsMessage where
  target : String
  body : String
  attributes : List (String × String)
  groupId : Option String
  deduplicationId : Option String

def awsAttributes (message : OutboundMessage) : List (String × String) :=
  merge message.headers [("event-type", message.eventType)]

/-- `SqsSink.send` and `SnsSink.send`, which differ in the names of the arguments. -/
def awsSend (target : String) (message : OutboundMessage) : Except SendError AwsMessage :=
  match Utf8.decode message.body with
  | none => .error (.raised (pythonError "UnicodeDecodeError"))
  | some body =>
    let fifo := ".fifo".toList.isSuffixOf target.toList
    .ok {
      target, body
      attributes := awsAttributes message
      groupId := if fifo then some message.subject else none
      deduplicationId := if fifo then some message.eventId else none }

def SqsSink.send (queueUrl : String) (message : OutboundMessage) : Except SendError AwsMessage := awsSend queueUrl message

def SnsSink.send (topicArn : String) (message : OutboundMessage) : Except SendError AwsMessage := awsSend topicArn message

/-! ## Pub/Sub -/

/-- What an authorization server issues: visible ASCII. -/
structure BearerToken where
  text : String
  chars : ∀ c ∈ text.toList, '!' ≤ c ∧ c ≤ '~'

structure PubSubSink where
  topicUrl : String
  token : Option BearerToken

def PubSubSink.headers (sink : PubSubSink) : List (String × String) :=
  match sink.token with
  | some token => if token.text = "" then [] else [("Authorization", "Bearer " ++ token.text)]
  | none => []

def PubSubSink.body (message : OutboundMessage) : Json := .obj [
  ("messages", .arr [.obj [
    ("data", .str (String.ofList (Base64.encode message.body))),
    ("attributes", .obj ((merge message.headers [("event-type", message.eventType)]).map fun p => (p.1, .str p.2)))]])]

def PubSubSink.send (sink : PubSubSink) (message : OutboundMessage) : Except SendError HttpRequest :=
  post (sink.topicUrl ++ ":publish") "pubsub" (jsonContent (PubSubSink.body message))
    (merge [("Content-Type", "application/json")] sink.headers)

/-! ## NATS -/

/-- A part of a format string: a text, `{event_type}`, or any other field, which may raise. -/
inductive Piece where
  | literal (text : String)
  | eventType
  | field (render : String → Except AdaptationError String)

def format (template : List Piece) (eventType : String) : Except AdaptationError String := do
  let parts ← template.mapM fun
    | .literal text => .ok text
    | .eventType => .ok eventType
    | .field render => render eventType
  .ok (String.join parts)

structure NatsFrame where
  subject : String
  headers : List (String × String)
  body : List UInt8

namespace NatsFrame

def headerBlock (f : NatsFrame) : List UInt8 :=
  Utf8.encode (String.ofList ("NATS/1.0\r\n".toList ++
    (f.headers.flatMap fun p => p.1.toList ++ ": ".toList ++ p.2.toList ++ "\r\n".toList) ++
    "\r\n".toList))

def bytes (f : NatsFrame) : List UInt8 :=
  let block := f.headerBlock
  let line := ["HPUB", f.subject, toString block.length, toString (block.length + f.body.length)]
  Utf8.encode (" ".intercalate line ++ "\r\n") ++ block ++ f.body ++ Utf8.encode "\r\n"

end NatsFrame

def NatsSink.send (texts : ErrorTexts) (template : List Piece) (message : OutboundMessage) : Except SendError NatsFrame :=
  match format template message.eventType with
  | .error e => .error (.raised e)
  | .ok subject =>
    if subject.toList.any isSpace then
      .error (.failed ("nats subject " ++ texts.repr subject ++ " contains whitespace") false)
    else .ok {
      subject
      headers := merge message.headers [("Nats-Msg-Id", message.eventId), ("event-type", message.eventType)]
      body := message.body }

/-! ## Every sink -/

inductive Sink where
  | log
  | webhook (url : String)
  | slack (url : String)
  | pagerduty (sink : PagerDutySink)
  | email (sink : EmailSink)
  | kafka (topic : String)
  | sqs (queueUrl : String)
  | sns (topicArn : String)
  | pubsub (sink : PubSubSink)
  | nats (template : List Piece)

/-- What a message leaves the process as. -/
inductive Sent where
  | record (r : LogRecord)
  | request (r : HttpRequest)
  | mail (m : Mail)
  | kafka (r : KafkaRecord)
  | aws (m : AwsMessage)
  | frame (bytes : List UInt8)

def Sink.send (texts : ErrorTexts) (message : OutboundMessage) : Sink → Except SendError Sent
  | log => .ok (.record (LogSink.send message))
  | webhook url => (WebhookSink.send url message).map .request
  | slack url => (SlackSink.send url message).map .request
  | pagerduty sink => (sink.send message).map .request
  | email sink => (sink.compose message).map .mail
  | kafka topic => .ok (.kafka (KafkaSink.send topic message))
  | sqs queueUrl => (SqsSink.send queueUrl message).map .aws
  | sns topicArn => (SnsSink.send topicArn message).map .aws
  | pubsub sink => (sink.send message).map .request
  | nats template => (NatsSink.send texts template message).map fun f => .frame f.bytes

end OranAdapt.Sinks
