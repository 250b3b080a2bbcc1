import OranAdapt.NatsReceivers

/-!
# Which events are delivered

When an event can be sent over a sink and is read back by its receiver, and who
is to blame where a delivery is dead.
-/

namespace OranAdapt.Sinks

/-! ## Attempts -/

/-- One attempt: when its message is made and its outcome settled, and what the other side answers to what it is sent. -/
structure Attempt where
  made : Seconds
  now : Time
  answer : Sent → SendResult
  rng : Rat

section
variable (h : Signing.Hmac) (keys : List (List UInt8)) (texts : ErrorTexts) (sink : Sink) (event : NotificationEvent)

def attempt (a : Attempt) : Except AdaptationError SendResult := do
  let message ← messageOf h keys a.made event
  match sink.send texts message with
  | .error e => .ok (e.result texts)
  | .ok sent => .ok (a.answer sent)

def deliver (settings : NotificationSettings) (n : Nat) : List Attempt → Except AdaptationError DeliveryStatus
  | [] => .ok .pending
  | a :: attempts => do
    let result ← attempt h keys texts sink event a
    match Dispatcher.outcome settings a.now ⟨event.eventId, n⟩ result a.rng with
    | .delivered _ => .ok .delivered
    | .dead _ _ => .ok .dead
    | .retry _ _ => deliver settings (n + 1) attempts

def ReceiverFailed (a : Attempt) : Prop :=
  ∃ message sent, messageOf h keys a.made event = .ok message ∧ sink.send texts message = .ok sent ∧
    a.answer sent ≠ .accepted

def Sink.carriesEnvelope : Sink → Bool
  | .log | .slack _ | .pagerduty _ => false
  | .webhook _ | .email _ | .kafka _ | .sqs _ | .sns _ | .pubsub _ | .nats _ => true

structure Deliverable (settings : NotificationSettings) : Prop where
  reads : ∀ made, ∃ message sent, messageOf h keys made event = .ok message ∧ sink.send texts message = .ok sent ∧
    sent.eventId = some event.eventId ∧
      (sink.carriesEnvelope = true → ∃ v, sent.envelope = some v ∧ v.Same event.envelope)
  dead : ∀ attempts, deliver h keys texts sink event settings 1 attempts = .ok .dead →
    ∃ made rest, attempts = made ++ rest ∧ made ≠ [] ∧ ∀ a ∈ made, ReceiverFailed h keys texts sink event a

end

/-! ## The condition -/

def labelled (label : String) (s : String) : List Char := if s = "" then [] else label.toList ++ s.toList

def Change.details : Change → List Char
  | job t =>
    labelled ", model " (t.modelId.getD "") ++ labelled ", error " ((t.error.map JobError.code).getD "") ++
      labelled ": " t.message
  | rollout t => labelled ", model " t.modelId

def Change.line (change : Change) : List Char :=
  ("[" ++ change.eventType ++ "] job " ++ change.subject).toList ++ change.details

/-- What a sink takes of a change. Slack's messages have no place for an id; the headers of a mail are lines. -/
def Sink.Fits (change : Change) : Sink → Prop
  | .slack _ => False
  | .email sink => sink.Fits change.line
  | .nats template => Template.Fits template change.eventType
  | .log | .webhook _ | .pagerduty _ | .kafka _ | .sqs _ | .sns _ | .pubsub _ => True

theorem toList_parts (head model error : String) :
    (", ".intercalate ([head] ++ (if model = "" then [] else ["model " ++ model]) ++ if error = "" then []
      else ["error " ++ error])).toList =
      head.toList ++ labelled ", model " model ++ labelled ", error " error := by
  rw [String.toList_intercalate]
  by_cases hmodel : model = ""
  · by_cases herror : error = ""
    · simp [hmodel, herror, labelled]
    · simp [hmodel, herror, labelled]
  · by_cases herror : error = ""
    · simp [hmodel, herror, labelled]
    · simp [hmodel, herror, labelled]

theorem toList_text (line text : String) : (if text = "" then line else line ++ ": " ++ text).toList =
    line.toList ++ labelled ": " text := by
  by_cases htext : text = ""
  · simp [htext, labelled]
  · simp [htext, labelled]

theorem said_orNull (s : Option String) : said (orNull s) = s.getD "" := by cases s <;> rfl

theorem said_error (e : Option JobError) : said (get ((e.map JobError.json).getD .null) "code") =
    (e.map JobError.code).getD "" := by
  cases e <;> rfl

theorem job_message (t : JobTransition) : said (get (.obj (Change.job t).data) "message") = t.message := by
  simp [get, JsonDict.read, Change.data, List.lookup_cons, said]

theorem job_model (t : JobTransition) : said (get (.obj (Change.job t).data) "model_id") = t.modelId.getD "" := by
  simp [get, JsonDict.read, Change.data, List.lookup_cons, said_orNull]

theorem job_error (t : JobTransition) :
    said (get (get (.obj (Change.job t).data) "error") "code") = (t.error.map JobError.code).getD "" := by
  rw [← said_error]
  simp [get, JsonDict.read, Change.data, List.lookup_cons]

theorem rollout_message (t : RolloutTransition) : said (get (.obj (Change.rollout t).data) "message") = "" := by
  simp [get, JsonDict.read, Change.data, List.lookup_cons, said]

theorem rollout_model (t : RolloutTransition) : said (get (.obj (Change.rollout t).data) "model_id") = t.modelId := by
  simp [get, JsonDict.read, Change.data, List.lookup_cons, said]

theorem rollout_error (t : RolloutTransition) : said (get (get (.obj (Change.rollout t).data) "error") "code") = "" := by
  simp [get, JsonDict.read, Change.data, List.lookup_cons, said]

section
variable (h : Signing.Hmac) (keys : List (List UInt8)) (made : Seconds) (settings : EventSettings)
  (eventId : UuidHex) (now : String)

theorem toList_summary (change : Change) :
    (summary (outbound h keys made (recorded settings eventId now change))).toList = change.line := by
  have hdata : get (envelope settings eventId.text now change) "data" = .obj change.data := rfl
  have htype : (outbound h keys made (recorded settings eventId now change)).eventType = change.eventType := rfl
  have hsubject : (outbound h keys made (recorded settings eventId now change)).subject = change.subject := rfl
  have henvelope : (outbound h keys made (recorded settings eventId now change)).envelope =
    envelope settings eventId.text now change := rfl
  rw [summary]
  simp only [henvelope, hdata, htype, hsubject, toList_text, toList_parts]
  cases change with
  | job t =>
    rw [job_message, job_model, job_error, Change.line, Change.details, List.append_assoc,
      List.append_assoc, List.append_assoc]
  | rollout t =>
    have hnone : ∀ label, labelled label "" = [] := fun _ => if_pos rfl
    rw [rollout_message, rollout_model, rollout_error, Change.line, Change.details, hnone, hnone,
      List.append_nil, List.append_nil]

theorem slack_same (url : String) (made' : Seconds) (settings' : EventSettings) (eventId' : UuidHex)
    (now' : String) (change : Change) :
    SlackSink.send url (outbound h keys made (recorded settings eventId now change)) =
      SlackSink.send url (outbound h keys made' (recorded settings' eventId' now' change)) := by
  have hsummary : summary (outbound h keys made (recorded settings eventId now change)) =
      summary (outbound h keys made' (recorded settings' eventId' now' change)) := by
    apply String.toList_inj.mp
    rw [toList_summary, toList_summary]
  rw [SlackSink.send, SlackSink.send, SlackSink.body, SlackSink.body, hsummary]

end

/-! ## Sending -/

theorem send_map {α : Type} {x : Except SendError α} {a : α} (h : x = .ok a)
    (f : α → Sent) : x.map f = .ok (f a) := by rw [h]; rfl

section
variable (texts : ErrorTexts) {m : OutboundMessage} {change : Change} (sink : Sink)

theorem reads_of_fits (hm : Sendable m) (hline : (summary m).toList = change.line) (htype : m.eventType = change.eventType)
    (h : sink.Fits change) : ∃ sent, sink.send texts m = .ok sent ∧ Reads m sink.carriesEnvelope sent := by
  cases sink with
  | log => exact ⟨_, rfl, reads_log m⟩
  | webhook url =>
    obtain ⟨r, hr, hreads⟩ := reads_webhook hm url
    exact ⟨_, send_map hr .request, hreads⟩
  | slack url => exact h.elim
  | pagerduty sink =>
    obtain ⟨r, hr, hreads⟩ := reads_pagerduty hm sink
    exact ⟨_, send_map hr .request, hreads⟩
  | email sink =>
    obtain ⟨mail, hmail, hreads⟩ := reads_email hm sink (by rw [hline]; exact h)
    exact ⟨_, send_map hmail .mail, hreads⟩
  | kafka topic => exact ⟨_, rfl, reads_kafka hm topic⟩
  | sqs queueUrl =>
    obtain ⟨a, ha, hreads⟩ := reads_aws hm queueUrl
    exact ⟨_, send_map ha .aws, hreads⟩
  | sns topicArn =>
    obtain ⟨a, ha, hreads⟩ := reads_aws hm topicArn
    exact ⟨_, send_map ha .aws, hreads⟩
  | pubsub sink =>
    obtain ⟨r, hr, hreads⟩ := reads_pubsub hm sink
    exact ⟨_, send_map hr .request, hreads⟩
  | nats template =>
    obtain ⟨f, hf, hreads⟩ := reads_nats texts hm template (by rw [htype]; exact h)
    exact ⟨_, send_map hf fun f => .frame f.bytes, hreads⟩

theorem fits_of_send {sent : Sent} (hline : (summary m).toList = change.line) (htype : m.eventType = change.eventType)
    (hsend : sink.send texts m = .ok sent) (hid : sent.eventId ≠ none) : sink.Fits change := by
  cases sink with
  | slack url =>
    obtain ⟨r, hr, hnone⟩ := slack_anonymous url m
    have heq : Except.ok (Sent.request r) = Except.ok (ε := SendError) sent := (send_map hr .request).symm.trans hsend
    injection heq with heq
    exact hid (by rw [← heq, hnone])
  | email sink =>
    by_contra hfits
    have hraise := compose_raises (m := m) sink (by rw [hline]; exact hfits)
    rw [Sink.send, hraise] at hsend
    cases hsend
  | nats template =>
    rw [Sink.send] at hsend
    cases hframe : NatsSink.send texts template m with
    | error e =>
      rw [hframe] at hsend
      cases hsend
    | ok f =>
      rw [hframe] at hsend
      injection hsend with hsend
      have hread : readFrame f.bytes ≠ none := by
        intro hnone
        rw [← hsend, Sent.eventId_frame, hnone] at hid
        exact hid rfl
      have hfits := fits_of_nats texts template hframe hread
      rwa [htype] at hfits
  | log => trivial
  | webhook url => trivial
  | pagerduty sink => trivial
  | kafka topic => trivial
  | sqs queueUrl => trivial
  | sns topicArn => trivial
  | pubsub sink => trivial

end

/-! ## Dead deliveries -/

section
variable (h : Signing.Hmac) (keys : List (List UInt8)) (texts : ErrorTexts) (sink : Sink) {event : NotificationEvent}

theorem dead_failed (hsend : ∀ made, ∃ message sent, messageOf h keys made event = .ok message ∧
    sink.send texts message = .ok sent)
    (settings : NotificationSettings) {attempts : List Attempt} {n : Nat}
    (hdead : deliver h keys texts sink event settings n attempts = .ok .dead) :
    ∃ made rest, attempts = made ++ rest ∧ made ≠ [] ∧ ∀ a ∈ made, ReceiverFailed h keys texts sink event a := by
  induction attempts generalizing n with
  | nil => cases hdead
  | cons a attempts ih =>
    obtain ⟨message, sent, hmessage, hsent⟩ := hsend a.made
    have hresult : attempt h keys texts sink event a = .ok (a.answer sent) := by
      rw [attempt, hmessage]
      show (match sink.send texts message with
        | .error e => _
        | .ok sent => _) = _
      rw [hsent]
    rw [deliver, hresult] at hdead
    by_cases haccepted : a.answer sent = .accepted
    · rw [haccepted] at hdead
      cases hdead
    · have hfailed : ReceiverFailed h keys texts sink event a := ⟨message, sent, hmessage, hsent, haccepted⟩
      have hdead : (match Dispatcher.outcome settings a.now ⟨event.eventId, n⟩ (a.answer sent) a.rng with
        | .delivered _ => .ok .delivered
        | .dead _ _ => .ok .dead
        | .retry _ _ => deliver h keys texts sink event settings (n + 1) attempts) = Except.ok (ε :=
            AdaptationError) .dead := hdead
      cases houtcome : Dispatcher.outcome settings a.now ⟨event.eventId, n⟩ (a.answer sent) a.rng with
      | delivered at_ =>
        rw [houtcome] at hdead
        cases hdead
      | dead at_ detail => exact ⟨[a], attempts, rfl, List.cons_ne_nil _ _, fun b hb => by rwa [List.mem_singleton.mp hb]⟩
      | retry due detail =>
        rw [houtcome] at hdead
        obtain ⟨made, rest, hsplit, -, hall⟩ := ih hdead
        refine ⟨a :: made, rest, by rw [hsplit]; rfl, List.cons_ne_nil _ _, fun b hb => ?_⟩
        rcases List.mem_cons.mp hb with rfl | hb
        · exact hfailed
        · exact hall b hb

/-- An exception out of `send` is tried again until the attempts are used up, whatever the receiver would answer. -/
theorem dead_of_raised (hraise : ∀ made, ∃ message e, messageOf h keys made event = .ok message ∧
    sink.send texts message = .error (.raised e)) (settings : NotificationSettings) {attempts : List Attempt} {n : Nat}
    (hne : attempts ≠ []) (hlen : settings.maxAttempts < n + attempts.length) :
    deliver h keys texts sink event settings n attempts = .ok .dead := by
  induction attempts generalizing n with
  | nil => exact absurd rfl hne
  | cons a attempts ih =>
    obtain ⟨message, e, hmessage, hsend⟩ := hraise a.made
    have hresult : attempt h keys texts sink event a = .ok (.raised e.cls.code (texts.str e)) := by
      rw [attempt, hmessage]
      show (match sink.send texts message with
        | .error e => _
        | .ok sent => _) = _
      rw [hsend]
      rfl
    rw [deliver, hresult]
    show (match Dispatcher.outcome settings a.now ⟨event.eventId, n⟩ (.raised e.cls.code (texts.str e)) a.rng with
      | .delivered _ => .ok .delivered
      | .dead _ _ => .ok .dead
      | .retry _ _ => deliver h keys texts sink event settings (n + 1) attempts) = Except.ok (ε := AdaptationError) .dead
    rw [Dispatcher.outcome, Dispatcher.error]
    rw [List.length_cons] at hlen
    by_cases hleft : n < settings.maxAttempts
    · have hmore : attempts ≠ [] := by
        rintro rfl
        rw [List.length_nil] at hlen
        omega
      simp only [hleft, and_self, if_true]
      exact ih hmore (by omega)
    · simp only [hleft, and_false, if_false]

end

/-! ## The result -/

/-- What a recorded event's text can do to its delivery, over any sink. -/
theorem recorded_deliverable_iff (h : Signing.Hmac) (keys : List (List UInt8)) (texts : ErrorTexts) (settings : EventSettings)
    (dispatch : NotificationSettings) (sink : Sink) (eventId : UuidHex) (now : String) (change : Change) :
    (∃ event, record settings eventId now change = .ok event ∧ Deliverable h keys texts sink event dispatch) ↔
      sink.Fits change := by
  constructor
  · rintro ⟨event, hevent, hdeliver⟩
    rw [record_ok] at hevent
    injection hevent with hevent
    subst hevent
    obtain ⟨message, sent, hmessage, hsend, hid, -⟩ := hdeliver.reads ⟨0, by decide +kernel⟩
    rw [messageOf_eq] at hmessage
    injection hmessage with hmessage
    subst hmessage
    exact fits_of_send texts sink (toList_summary h keys _ settings eventId now change) rfl hsend (by rw [hid]; exact nofun)
  · intro hfits
    have hreads : ∀ made, ∃ message sent, messageOf h keys made (recorded settings eventId now change) = .ok message ∧
        sink.send texts message = .ok sent ∧ Reads message sink.carriesEnvelope sent ∧
          message = outbound h keys made (recorded settings eventId now change) := by
      intro made
      have hm := outbound_sendable h keys made settings eventId now change
      obtain ⟨sent, hsend, hreads⟩ :=
        reads_of_fits texts sink hm (toList_summary h keys made settings eventId now change) rfl hfits
      exact ⟨_, sent, messageOf_eq h keys made _, hsend, hreads, rfl⟩
    refine ⟨_, record_ok settings eventId now change, fun made => ?_, fun attempts hdead => ?_⟩
    · obtain ⟨message, sent, hmessage, hsend, hreads, hout⟩ := hreads made
      refine ⟨message, sent, hmessage, hsend, ?_, fun hcarries => ?_⟩
      · rw [hreads.id, hout]
        rfl
      · obtain ⟨v, hv, hsame⟩ := hreads.envelope hcarries
        rw [hout] at hsame
        exact ⟨v, hv, hsame⟩
    · apply dead_failed h keys texts sink _ dispatch hdead
      intro made
      obtain ⟨message, sent, hmessage, hsend, -, -⟩ := hreads made
      exact ⟨message, sent, hmessage, hsend⟩

def lockedJob : Change := .job {
  jobId := "5f0c", modelId := some "m1", fromStatus := some .adapting, toStatus := .failed
  message := "(sqlite3.OperationalError) database is locked\n[SQL: COMMIT]" }

def mailSink : Sink := .email ⟨"oran-adapt@example.com", ["ops@example.com"]⟩

def someId : UuidHex := ⟨"0123456789abcdef0123456789abcdef", by decide, PyStr.forall_chars (by decide)⟩

def plainTexts : ErrorTexts := ⟨id, fun e => e.cls.code⟩

def welcome : Attempt := ⟨⟨0, by decide +kernel⟩, 0, fun _ => .accepted, 0⟩

/-- An error of two lines is never mailed: its delivery dies before a server that takes every mail. -/
theorem locked_undeliverable :
    (¬∃ event, record {} someId "2026-09-29T12:00:00+00:00" lockedJob = .ok event ∧
      Deliverable Signing.letterHmac [] plainTexts mailSink event {}) ∧
    ∃ event, record {} someId "2026-09-29T12:00:00+00:00" lockedJob = .ok event ∧
      deliver Signing.letterHmac [] plainTexts mailSink event {} 1 (List.replicate 8 welcome) = .ok .dead := by
  have hbroken : '\n' ∈ lockedJob.line.take 200 := by decide +kernel
  have hfits : ¬mailSink.Fits lockedJob := fun hfits => hfits.subject '\n' hbroken (by decide)
  have hraise : ∀ made, ∃ message e,
    messageOf Signing.letterHmac [] made (recorded {} someId "2026-09-29T12:00:00+00:00" lockedJob) =
      .ok message ∧ mailSink.send plainTexts message = .error (.raised e) := by
    intro made
    have hline := toList_summary Signing.letterHmac [] made {} someId "2026-09-29T12:00:00+00:00" lockedJob
    refine ⟨_, pythonError "ValueError", messageOf_eq _ _ made _, ?_⟩
    rw [mailSink, Sink.send, compose_raises _ (by rw [hline]; exact hfits)]
    rfl
  constructor
  · rintro ⟨event, hevent, hdeliver⟩
    rw [record_ok] at hevent
    injection hevent with hevent
    subst hevent
    obtain ⟨message, sent, hmessage, hsend, -⟩ := hdeliver.reads welcome.made
    obtain ⟨message', e, hmessage', hraised⟩ := hraise welcome.made
    have hsame : message = message' := Except.ok.inj (hmessage.symm.trans hmessage')
    rw [hsame, hraised] at hsend
    cases hsend
  · exact ⟨_, record_ok _ _ _ _, dead_of_raised _ _ _ _ hraise {} (by decide) (by decide)⟩

end OranAdapt.Sinks
