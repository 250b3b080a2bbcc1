import OranAdapt.MailReceivers

/-!
# Frames read back

A server takes a frame apart by the sizes in its first line, so the body may
hold any bytes; a subject may hold no white space, and must not be empty.
-/

namespace OranAdapt.Sinks

open PyStr (forall_chars isSpace)

/-! ## Headers -/

/-- A header that a line can carry. -/
structure LineText (p : String × String) : Prop where
  name : ∀ c ∈ p.1.toList, c ≠ ':' ∧ c ≠ '\r' ∧ c ≠ '\n'
  value : Plain p.2.toList

theorem splitlines_line {line : List Char} (h : ∀ c ∈ line, c ≠ '\r' ∧ c ≠ '\n') (s : List Char) :
    splitlines (line ++ '\r' :: '\n' :: s) = line :: splitlines s := by
  induction line with
  | nil => rw [List.nil_append, splitlines]
  | cons c line ih =>
    have hc := h c List.mem_cons_self
    rw [List.cons_append, splitlines_push hc.1 hc.2, ih fun d hd => h d (List.mem_cons_of_mem c hd)]
    rfl

theorem plain_line {value : List Char} (h : Plain value) : ∀ c ∈ value, c ≠ '\r' ∧ c ≠ '\n' := by
  intro c hc
  have hlow := (h.range c hc).1
  constructor
  · rintro rfl
    exact absurd hlow (by decide)
  · rintro rfl
    exact absurd hlow (by decide)

/-- The line of a header, without its end. -/
def lineOf (p : String × String) : List Char := p.1.toList ++ ':' :: ' ' :: p.2.toList

theorem headerLine_lineOf {p : String × String} (h : LineText p) : headerLine (lineOf p) = some p := by
  have hcolon : ':' ∉ p.1.toList := fun hmem => (h.name _ hmem).1 rfl
  have hdrop : (' ' :: p.2.toList).dropWhile (· = ' ') = p.2.toList := by
    rw [List.dropWhile_cons_of_pos (by simp)]
    cases hv : p.2.toList with
    | nil => rfl
    | cons c cs =>
      have hc : c ≠ ' ' := fun heq => h.value.first (by rw [hv, heq]; rfl)
      rw [List.dropWhile_cons_of_neg (by simpa using hc)]
  rw [headerLine, lineOf, PyStr.partition_join hcolon]
  simp only [hdrop, String.ofList_toList]

theorem lineOf_chars {p : String × String} (h : LineText p) : ∀ c ∈ lineOf p, c ≠ '\r' ∧ c ≠ '\n' := by
  intro c hc
  rcases List.mem_append.mp hc with hc | hc
  · exact (h.name c hc).2
  · simp only [List.mem_cons] at hc
    rcases hc with rfl | rfl | hc
    · decide
    · decide
    · exact plain_line h.value c hc

def headerLines (headers : List (String × String)) : List Char :=
  (headers.flatMap fun p => lineOf p ++ ['\r', '\n']) ++ ['\r', '\n']

theorem headerLines_cons (p : String × String) (headers : List (String × String)) :
    headerLines (p :: headers) = lineOf p ++ '\r' :: '\n' :: headerLines headers := by
  simp [headerLines]

theorem read_headerLines {headers : List (String × String)} (h : ∀ p ∈ headers, LineText p) :
    (splitlines (headerLines headers)).filterMap headerLine = headers := by
  induction headers with
  | nil => rfl
  | cons p headers ih =>
    have hp := h p List.mem_cons_self
    rw [headerLines_cons, splitlines_line (lineOf_chars hp), List.filterMap_cons, headerLine_lineOf hp,
      ih fun q hq => h q (List.mem_cons_of_mem p hq)]

theorem headers_headerBlock {f : NatsFrame} (h : ∀ p ∈ f.headers, LineText p) :
    ∃ text, Utf8.decode f.headerBlock = some text ∧ (splitlines text.toList).filterMap headerLine = f.headers := by
  refine ⟨_, Utf8.decode_encode _, ?_⟩
  have htext : "NATS/1.0\r\n".toList ++ (f.headers.flatMap fun p => p.1.toList ++ ": ".toList ++
    p.2.toList ++ "\r\n".toList) ++
      "\r\n".toList = "NATS/1.0".toList ++ '\r' :: '\n' :: headerLines f.headers := by
    simp [headerLines, lineOf]
  rw [String.toList_ofList, htext, splitlines_line (forall_chars (by decide)), List.filterMap_cons, read_headerLines h]
  rfl

/-! ## The frame -/

theorem encode_append (s t : String) : Utf8.encode (s ++ t) = Utf8.encode s ++ Utf8.encode t := by
  rw [Utf8.encode, String.toList_append, List.flatMap_append]
  rfl

/-- The words of the first line. -/
def NatsFrame.sizes (f : NatsFrame) : List (List Char) :=
  ["HPUB".toList, f.subject.toList, Json.digits f.headerBlock.length, Json.digits (f.headerBlock.length + f.body.length)]

theorem digits_space (n : Nat) : ∀ c ∈ Json.digits n, isSpace c = false := by
  intro c hc
  have hdigit : c.isDigit = true := PyInt.isDigit_of_mem hc
  apply Signing.isSpace_base64
  simp [Signing.base64Char, Char.isAlphanum, hdigit]

theorem sizes_space {f : NatsFrame} (hspace : ∀ c ∈ f.subject.toList, isSpace c = false) :
    ∀ w ∈ f.sizes, ∀ c ∈ w, isSpace c = false := by
  intro w hw
  simp only [NatsFrame.sizes, List.mem_cons, List.not_mem_nil, or_false] at hw
  rcases hw with rfl | rfl | rfl | rfl
  · exact forall_chars (by decide)
  · exact hspace
  · exact digits_space _
  · exact digits_space _

theorem sizes_ne_nil {f : NatsFrame} (hne : f.subject ≠ "") : ∀ w ∈ f.sizes, w ≠ [] := by
  intro w hw
  simp only [NatsFrame.sizes, List.mem_cons, List.not_mem_nil, or_false] at hw
  rcases hw with rfl | rfl | rfl | rfl
  · decide
  · exact fun h => hne (String.toList_eq_nil_iff.mp h)
  · exact Nat.toDigits_ne_nil
  · exact Nat.toDigits_ne_nil

/-- The first line, without its end. -/
def NatsFrame.line (f : NatsFrame) : String :=
  " ".intercalate ["HPUB", f.subject, toString f.headerBlock.length, toString (f.headerBlock.length + f.body.length)]

theorem toList_line (f : NatsFrame) : f.line.toList = [' '].intercalate f.sizes := by
  have hdigits : ∀ n : Nat, (toString n).toList = Json.digits n := fun n => Nat.toList_repr
  rw [NatsFrame.line, String.toList_intercalate, List.map_cons, List.map_cons, List.map_cons,
    List.map_singleton, hdigits, hdigits]
  rfl

theorem bytes_eq (f : NatsFrame) : f.bytes = Utf8.encode f.line ++ 13 :: 10 :: (f.headerBlock ++ (f.body ++ [13, 10])) := by
  have hend : Utf8.encode "\r\n" = [13, 10] := by decide
  show Utf8.encode (f.line ++ "\r\n") ++ f.headerBlock ++ f.body ++ Utf8.encode "\r\n" = _
  rw [encode_append, hend]
  simp

theorem readFrame_line {f : NatsFrame} (hspace : ∀ c ∈ f.subject.toList, isSpace c = false) :
    readFrame f.bytes = readPayload (f.headerBlock ++ (f.body ++ [13, 10])) (Signing.words f.line.toList) := by
  have hreturn : ∀ b ∈ Utf8.encode f.line, decide (b ≠ 13) = true := by
    intro b hb
    apply decide_eq_true
    rintro rfl
    have hmem : '\r' ∈ f.line.toList := Utf8.mem_of_mem_encode (by decide) hb
    have hall : ∀ c ∈ f.line.toList, c ≠ '\r' := by
      rw [toList_line, forall_mem_intercalate (forall_chars (by decide))]
      rintro w hw c hc rfl
      exact absurd (sizes_space hspace w hw _ hc) (by decide)
    exact hall _ hmem rfl
  rw [bytes_eq, readFrame, List.takeWhile_append_of_pos hreturn, List.takeWhile_cons_of_neg (by simp), List.append_nil,
    List.dropWhile_append_of_pos hreturn, List.dropWhile_cons_of_neg (by simp), Utf8.decode_encode]
  rfl

theorem readFrame_bytes {f : NatsFrame} (hne : f.subject ≠ "") (hspace : ∀ c ∈ f.subject.toList, isSpace c = false)
    (hheaders : ∀ p ∈ f.headers, LineText p) : readFrame f.bytes = some f := by
  obtain ⟨text, htext, hlines⟩ := headers_headerBlock hheaders
  have hsizes : Signing.words f.line.toList =
      ["HPUB".toList, f.subject.toList, Json.digits f.headerBlock.length,
        Json.digits (f.headerBlock.length + f.body.length)] := by
    rw [toList_line, Signing.words_intercalate fun w hw => ⟨sizes_ne_nil hne w hw, sizes_space hspace w hw⟩]
    rfl
  have hblock : (f.headerBlock ++ (f.body ++ [13, 10])).take f.headerBlock.length = f.headerBlock := List.take_left
  have hrest : (f.headerBlock ++ (f.body ++ [13, 10])).drop (f.headerBlock.length + f.body.length) = [13, 10] := by
    rw [← List.append_assoc, ← List.length_append]
    exact List.drop_left
  have hbody : ((f.headerBlock ++ (f.body ++ [13, 10])).take (f.headerBlock.length + f.body.length)).drop
      f.headerBlock.length = f.body := by
    rw [← List.append_assoc, ← List.length_append, List.take_left, List.drop_left]
  rw [readFrame_line hspace, hsizes, readPayload]
  simp only [Option.bind_eq_bind, Option.bind_some, Json.nat?_digits, hblock, htext, hrest, hbody, hlines, and_self, if_true,
    String.ofList_toList]

/-- Without a subject the line has a word too few. -/
theorem readFrame_empty {f : NatsFrame} (h : f.subject = "") : readFrame f.bytes = none := by
  have hspace : ∀ c ∈ f.subject.toList, isSpace c = false := by
    rw [h]
    exact fun c hc => by cases hc
  have hwords : Signing.words f.line.toList =
      ["HPUB".toList, Json.digits f.headerBlock.length, Json.digits (f.headerBlock.length + f.body.length)] := by
    have hline : f.line.toList = "HPUB".toList ++ ' ' :: ([] ++ ' ' ::
        [' '].intercalate [Json.digits f.headerBlock.length, Json.digits (f.headerBlock.length + f.body.length)]) := by
      rw [toList_line, NatsFrame.sizes, h]
      simp
    have hdigits : ∀ w ∈ [Json.digits f.headerBlock.length, Json.digits (f.headerBlock.length + f.body.length)],
        w ≠ [] ∧ ∀ c ∈ w, isSpace c = false := by
      intro w hw
      simp only [List.mem_cons, List.not_mem_nil, or_false] at hw
      rcases hw with rfl | rfl
      · exact ⟨Nat.toDigits_ne_nil, digits_space _⟩
      · exact ⟨Nat.toDigits_ne_nil, digits_space _⟩
    rw [hline, Signing.words_append (forall_chars (by decide)), Signing.words_append (fun c hc => by cases hc),
      Signing.words_intercalate hdigits]
    rfl
  rw [readFrame_line hspace, hwords, readPayload]
  exact fun _ _ _ _ heq => by cases heq

/-! ## Sending -/

def Template.Fits (template : List Piece) (eventType : String) : Prop :=
  ∃ subject, format template eventType = .ok subject ∧ subject ≠ "" ∧ ∀ c ∈ subject.toList, isSpace c = false

section
variable (texts : ErrorTexts) {m : OutboundMessage} (hm : Sendable m) (template : List Piece)

include hm

theorem lineText_headers : ∀ p ∈ m.headers ++ [("Nats-Msg-Id", m.eventId), ("event-type", m.eventType)], LineText p := by
  intro p hp
  rcases List.mem_append.mp hp with hp | hp
  · have hname : p.1 ∈ [Signing.idHeader, Signing.timestampHeader, Signing.signatureHeader] :=
      hm.names.subset (List.mem_map_of_mem hp)
    have hnames : ∀ name ∈ [Signing.idHeader, Signing.timestampHeader, Signing.signatureHeader],
        ∀ c ∈ name.toList, c ≠ ':' ∧ c ≠ '\r' ∧ c ≠ '\n' := by
      intro name hname
      simp only [List.mem_cons, List.not_mem_nil, or_false] at hname
      rcases hname with rfl | rfl | rfl
      · exact forall_chars (by decide)
      · exact forall_chars (by decide)
      · exact forall_chars (by decide)
    exact ⟨hnames p.1 hname, hm.plain p hp⟩
  · simp only [List.mem_cons, List.not_mem_nil, or_false] at hp
    rcases hp with rfl | rfl
    · obtain ⟨id, hid⟩ := hm.id
      have hname : ∀ c ∈ "Nats-Msg-Id".toList, c ≠ ':' ∧ c ≠ '\r' ∧ c ≠ '\n' := forall_chars (by decide)
      have hvalue : Plain m.eventId.toList := by
        rw [hid]
        exact plain_of_graphic (graphic_hex id)
      exact ⟨hname, hvalue⟩
    · have hname : ∀ c ∈ "event-type".toList, c ≠ ':' ∧ c ≠ '\r' ∧ c ≠ '\n' := forall_chars (by decide)
      exact ⟨hname, plain_of_graphic hm.eventType⟩

theorem lookup_msgId :
    (m.headers ++ [("Nats-Msg-Id", m.eventId), ("event-type", m.eventType)]).lookup "Nats-Msg-Id" = some m.eventId := by
  have hnone : m.headers.lookup "Nats-Msg-Id" = none := by
    rw [List.lookup_eq_none_iff]
    intro p hp
    have hname : p.1 ∈ [Signing.idHeader, Signing.timestampHeader, Signing.signatureHeader] :=
      hm.names.subset (List.mem_map_of_mem hp)
    have hnames : ∀ name ∈ [Signing.idHeader, Signing.timestampHeader, Signing.signatureHeader],
        ("Nats-Msg-Id" != name) = true := by
      decide
    exact hnames p.1 hname
  rw [List.lookup_append, hnone]
  rfl

theorem send_nats {subject : String} (hformat : format template m.eventType = .ok subject)
    (hspace : ∀ c ∈ subject.toList, isSpace c = false) : NatsSink.send texts template m =
      .ok ⟨subject, m.headers ++ [("Nats-Msg-Id", m.eventId), ("event-type", m.eventType)], m.body⟩ := by
  have hnodup : ([Signing.idHeader, Signing.timestampHeader, Signing.signatureHeader] ++
    ["Nats-Msg-Id", "event-type"]).Nodup := by decide
  have hmerge : merge m.headers [("Nats-Msg-Id", m.eventId), ("event-type", m.eventType)] =
      m.headers ++ [("Nats-Msg-Id", m.eventId), ("event-type", m.eventType)] := merge_eq (hm.nodup_right hnodup)
  have hany : subject.toList.any isSpace = false := by
    rw [List.any_eq_false]
    exact fun c hc => by simp [hspace c hc]
  rw [NatsSink.send, hformat]
  simp only [hany, hmerge]
  rfl

theorem reads_nats (h : Template.Fits template m.eventType) :
    ∃ f, NatsSink.send texts template m = .ok f ∧ Reads m true (.frame f.bytes) := by
  obtain ⟨subject, hformat, hne, hspace⟩ := h
  refine ⟨_, send_nats texts hm template hformat hspace, ?_, fun _ => ⟨m.envelope.sortKeys, ?_, Json.same_sortKeys _⟩⟩
  · rw [Sent.eventId_frame, readFrame_bytes hne hspace (lineText_headers hm)]
    exact lookup_msgId hm
  · rw [Sent.envelope_frame, readFrame_bytes hne hspace (lineText_headers hm)]
    exact hm.readJson_body

omit hm in
/-- Any other template raises, or makes a frame that no server reads. -/
theorem fits_of_nats {f : NatsFrame} (hsend : NatsSink.send texts template m = .ok f) (hread : readFrame f.bytes ≠ none) :
    Template.Fits template m.eventType := by
  rw [NatsSink.send] at hsend
  cases hformat : format template m.eventType with
  | error e =>
    rw [hformat] at hsend
    cases hsend
  | ok subject =>
    rw [hformat] at hsend
    by_cases hany : subject.toList.any isSpace = true
    · simp only [hany, if_true] at hsend
      cases hsend
    · simp only [hany] at hsend
      injection hsend with hf
      refine ⟨subject, hformat, fun hempty => ?_, fun c hc => ?_⟩
      · rw [← hf] at hread
        exact hread (readFrame_empty hempty)
      · by_contra hspace
        exact hany (List.any_eq_true.mpr ⟨c, hc, by simpa using hspace⟩)

end

end OranAdapt.Sinks
