import OranAdapt.SinkReceivers

/-!
# Mails read back

Which messages can be composed as a mail, and that the id and the envelope are
read from every one that is. The lines of a content may end in any way, and the
text before the envelope may hold braces of its own: no line of the envelope but
its first starts with one.
-/

namespace OranAdapt.Sinks

open Json (write writeItems writeFields Layout newline)
open PyStr (forall_chars)

/-! ## Lines -/

def ended (lines : List (List Char)) : List Char := lines.flatMap (· ++ ['\n'])

theorem ended_cons (line : List Char) (lines : List (List Char)) : ended (line :: lines) = line ++ '\n' :: ended lines := by
  simp [ended]

theorem ended_append (a b : List (List Char)) : ended (a ++ b) = ended a ++ ended b := List.flatMap_append

theorem ended_intercalate : ∀ {lines : List (List Char)}, lines ≠ [] → ['\n'].intercalate lines ++ ['\n'] = ended lines
  | [], h => absurd rfl h
  | [line], _ => by
    rw [List.intercalate_singleton, ended, List.flatMap_singleton]
  | line :: next :: lines, _ => by
    have ih := ended_intercalate (List.cons_ne_nil next lines)
    rw [List.intercalate_cons_cons, List.append_assoc, ih, ended_cons line, List.append_assoc]
    rfl

theorem exists_ended {lines : List (List Char)} (h : lines ≠ []) : ∃ text, ended lines = text ++ ['\n'] :=
  ⟨_, (ended_intercalate h).symm⟩

theorem pushFirst_append (c : Char) {a : List (List Char)} (h : a ≠ []) (b : List (List Char)) :
    pushFirst c (a ++ b) = pushFirst c a ++ b := by
  cases a with
  | nil => exact absurd rfl h
  | cons line lines => rfl

theorem ended_pushFirst (c : Char) {a : List (List Char)} (h : a ≠ []) : ended (pushFirst c a) = c :: ended a := by
  cases a with
  | nil => exact absurd rfl h
  | cons line lines => rfl

theorem splitlines_push {c : Char} (hreturn : c ≠ '\r') (hfeed : c ≠ '\n') (s : List Char) :
    splitlines (c :: s) = pushFirst c (splitlines s) := by
  rw [splitlines]
  · exact fun _ heq _ => hreturn heq
  · exact hfeed
  · exact hreturn

theorem splitlines_return {c : Char} (hc : c ≠ '\n')
    (s : List Char) : splitlines ('\r' :: c :: s) = [] :: splitlines (c :: s) := by
  rw [splitlines]
  exact fun _ heq => hc (List.cons.inj heq).1

theorem splitlines_ne_nil {s : List Char} (h : s ≠ []) : splitlines s ≠ [] := by
  fun_cases splitlines s with
  | case1 => exact absurd rfl h
  | case2 s => exact List.cons_ne_nil _ _
  | case3 s => exact List.cons_ne_nil _ _
  | case4 s => exact List.cons_ne_nil _ _
  | case5 c s =>
    cases splitlines s with
    | nil => exact List.cons_ne_nil _ _
    | cons line lines => exact List.cons_ne_nil _ _

theorem splitlines_feed (s t : List Char) : splitlines (s ++ '\n' :: t) = splitlines (s ++ ['\n']) ++ splitlines t := by
  fun_induction splitlines s with
  | case1 => rfl
  | case2 s ih =>
    show [] :: splitlines (s ++ '\n' :: t) = _
    rw [ih]
    rfl
  | case3 s ih =>
    show [] :: splitlines (s ++ '\n' :: t) = _
    rw [ih]
    rfl
  | case4 s hs ih =>
    cases s with
    | nil => rfl
    | cons c s =>
      have hc : c ≠ '\n' := fun heq => hs s (by rw [heq])
      show splitlines ('\r' :: c :: (s ++ '\n' :: t)) = splitlines ('\r' :: c :: (s ++ ['\n'])) ++ splitlines t
      rw [splitlines_return hc, splitlines_return hc, List.cons_append]
      exact congrArg _ ih
  | case5 c s hs hfeed hreturn ih =>
    have hne : splitlines (s ++ ['\n']) ≠ [] :=
      splitlines_ne_nil (List.append_ne_nil_of_right_ne_nil _ (List.cons_ne_nil _ _))
    rw [List.cons_append, List.cons_append, splitlines_push hreturn hfeed, splitlines_push hreturn hfeed, ih,
      pushFirst_append c hne]

/-- A text without carriage returns. -/
theorem ended_splitlines {s : List Char} (hs : '\r' ∉ s) {c : Char} (hreturn : c ≠ '\r') (hfeed : c ≠ '\n') :
    ended (splitlines (s ++ [c])) = s ++ [c, '\n'] := by
  induction s with
  | nil =>
    rw [List.nil_append, splitlines_push hreturn hfeed]
    rfl
  | cons d s ih =>
    have hd : d ≠ '\r' := fun heq => hs (by rw [heq]; exact List.mem_cons_self)
    have ih := ih fun hmem => hs (List.mem_cons_of_mem _ hmem)
    by_cases hnl : d = '\n'
    · rw [hnl, List.cons_append, splitlines, ended_cons, ih]
      rfl
    · have hne : splitlines (s ++ [c]) ≠ [] :=
        splitlines_ne_nil (List.append_ne_nil_of_right_ne_nil _ (List.cons_ne_nil _ _))
      rw [List.cons_append, splitlines_push hd hnl, ended_pushFirst d hne, ih]
      rfl

/-! ## The last object -/

/-- Skipped by a reader that looks for the last line with a brace in front. -/
structure Calm (s : List Char) : Prop where
  skips : ∀ t, lastObject (s ++ t) = lastObject t
  noReturn : '\r' ∉ s

theorem lastObject_cons {c : Char} (h : c ≠ '\n') (s : List Char) : lastObject (c :: s) = lastObject s := by
  rw [lastObject]
  cases lastObject s with
  | some object => rfl
  | none => exact if_neg fun hc => h hc.1

theorem lastObject_feed {c : Char} (h : c ≠ '\x7b')
    (s : List Char) : lastObject ('\n' :: c :: s) = lastObject (c :: s) := by
  rw [lastObject]
  cases lastObject (c :: s) with
  | some object => rfl
  | none => exact if_neg fun hc => h (Option.some.inj hc.2)

theorem lastObject_append {t object : List Char} (h : lastObject t = some object) (s : List Char) :
    lastObject (s ++ t) = some object := by
  induction s with
  | nil => exact h
  | cons c s ih => rw [List.cons_append, lastObject, ih]

namespace Calm

theorem nil : Calm [] := ⟨fun _ => rfl, List.not_mem_nil⟩

theorem append {a b : List Char} (ha : Calm a) (hb : Calm b) : Calm (a ++ b) where
  skips t := by rw [List.append_assoc, ha.skips, hb.skips]
  noReturn h := (List.mem_append.mp h).elim ha.noReturn hb.noReturn

theorem of_printable {s : List Char} (h : ∀ c ∈ s, ' ' ≤ c) : Calm s where
  skips t := by
    induction s with
    | nil => rfl
    | cons c s ih =>
      have hc : c ≠ '\n' := fun heq => absurd (heq ▸ h c List.mem_cons_self) (by decide)
      rw [List.cons_append, lastObject_cons hc, ih fun d hd => h d (List.mem_cons_of_mem c hd)]
  noReturn hmem := absurd (h _ hmem) (by decide)

theorem cons {c : Char} (hc : ' ' ≤ c) {s : List Char} (h : Calm s) : Calm (c :: s) := by
  have hone : Calm [c] := of_printable fun d hd => by rwa [List.mem_singleton.mp hd]
  exact append hone h

theorem feed {c : Char} (hc : c ≠ '\x7b') {s : List Char} (h : Calm (c :: s)) : Calm ('\n' :: c :: s) where
  skips t := by
    rw [List.cons_append, List.cons_append, lastObject_feed hc]
    exact h.skips t
  noReturn hmem := (List.mem_cons.mp hmem).elim (by decide) h.noReturn

theorem indent (d : Nat) {s : List Char} (h : Calm s) : Calm (newline (d + 1) ++ s) := by
  have hblanks : Calm (List.replicate (2 * d + 1) ' ' ++ s) :=
    append (of_printable fun b hb => by rw [List.eq_of_mem_replicate hb]) h
  exact feed (by decide) (cons (by decide) hblanks)

theorem close (d : Nat) {c : Char} (hc : ' ' ≤ c) (hbrace : c ≠ '\x7b') : Calm (newline d ++ [c]) := by
  have hone : Calm [c] := cons hc nil
  cases d with
  | zero => exact feed hbrace hone
  | succ d => exact indent d hone

theorem colon : Calm Layout.indented.colon := cons (by decide) nil

theorem number {s : List Char} (h : ∀ c ∈ s, Json.numberChar c = true) : Calm s := by
  apply of_printable
  intro c hc
  have hnum := h c hc
  simp only [Json.numberChar, Bool.or_eq_true, beq_iff_eq] at hnum
  rcases hnum with (((hdigit | rfl) | rfl) | rfl) | rfl
  · exact Char.le_def.mpr (UInt32.le_iff_toNat_le.mpr (le_trans (by decide) (PyInt.toNat_digit hdigit).1))
  · decide
  · decide
  · decide
  · decide

theorem string (k : String) : Calm (Json.strText k) := by
  have hescape : Calm (Json.escape k.toList) := of_printable fun c hc => by
    obtain ⟨d, -, hd⟩ := List.mem_flatMap.mp hc
    exact (Json.escapeChar_range d c hd).1
  exact cons (by decide) (append hescape (cons (by decide) nil))

end Calm

theorem calm_scalar {v : Json} (h : v.Readable) (harr : ∀ vs, v ≠ .arr vs) (hobj : ∀ fs, v ≠ .obj fs) (d : Nat) :
    Calm (write .indented d v) := by
  cases h with
  | null => exact .of_printable (by rw [write]; exact forall_chars (by decide))
  | bool b => cases b <;> exact .of_printable (by rw [write]; exact forall_chars (by decide))
  | int h => exact .number Json.numberChar_of_mem_intText
  | float h =>
    rcases h with h | h
    · exact .number h.chars
    · simp only [Json.namedFloats, List.mem_cons, List.not_mem_nil, or_false] at h
      rcases h with rfl | rfl | rfl <;> exact .of_printable (by rw [write]; exact forall_chars (by decide))
  | str s => exact .string s
  | arr h => exact absurd rfl (harr _)
  | obj h => exact absurd rfl (hobj _)

mutual

theorem calm_write : ∀ (v : Json) (d : Nat), v.Readable → Calm (write .indented d v)
  | .arr [], d, _ => .of_printable (by rw [write]; exact forall_chars (by decide))
  | .arr (v :: vs), d, h => by
    have hvalue := calm_write v (d + 1) (h.items v List.mem_cons_self)
    have hitems := calm_writeItems vs d fun w hw => h.items w (List.mem_cons_of_mem _ hw)
    exact .cons (by decide) (.indent d (.append hvalue hitems))
  | .obj [], d, _ => .of_printable (by rw [write]; exact forall_chars (by decide))
  | .obj ((k, v) :: fs), d, h => by
    have hvalue := calm_write v (d + 1) (h.fields (k, v) List.mem_cons_self)
    have hfields := calm_writeFields fs d fun f hf => h.fields f (List.mem_cons_of_mem _ hf)
    exact .cons (by decide) (.indent d (.append (.string k) (.cons (by decide) (.append .colon (.append hvalue hfields)))))
  | .null, d, h => calm_scalar h (fun _ => nofun) (fun _ => nofun) d
  | .bool b, d, h => calm_scalar h (fun _ => nofun) (fun _ => nofun) d
  | .int n, d, h => calm_scalar h (fun _ => nofun) (fun _ => nofun) d
  | .float r, d, h => calm_scalar h (fun _ => nofun) (fun _ => nofun) d
  | .str s, d, h => calm_scalar h (fun _ => nofun) (fun _ => nofun) d

theorem calm_writeItems : ∀ (vs : List Json) (d : Nat), (∀ v ∈ vs, v.Readable) → Calm (writeItems .indented d vs)
  | [], d, _ => .close d (by decide) (by decide)
  | v :: vs, d, h => by
    have hvalue := calm_write v (d + 1) (h v List.mem_cons_self)
    have hitems := calm_writeItems vs d fun w hw => h w (List.mem_cons_of_mem _ hw)
    exact .cons (by decide) (.indent d (.append hvalue hitems))

theorem calm_writeFields : ∀ (fs : List (String × Json)) (d : Nat), (∀ f ∈ fs, f.2.Readable) →
    Calm (writeFields .indented d fs)
  | [], d, _ => .close d (by decide) (by decide)
  | (k, v) :: fs, d, h => by
    have hvalue := calm_write v (d + 1) (h (k, v) List.mem_cons_self)
    have hfields := calm_writeFields fs d fun f hf => h f (List.mem_cons_of_mem _ hf)
    exact .cons (by decide) (.indent d (.append (.string k) (.cons (by decide) (.append .colon (.append hvalue hfields)))))

end

theorem writeFields_last (l : Layout) (d : Nat) (fs : List (String × Json)) :
    ∃ body, writeFields l d fs = body ++ ['\x7d'] := by
  induction fs with
  | nil => exact ⟨l.closing d, rfl⟩
  | cons f fs ih =>
    obtain ⟨body, hbody⟩ := ih
    obtain ⟨k, v⟩ := f
    exact ⟨',' :: (l.between (d + 1) ++ (Json.strText k ++ ':' :: (l.colon ++ (write l (d + 1) v ++ body)))), by
      rw [writeFields, hbody]
      simp⟩

theorem write_last (l : Layout) (f : String × Json) (fs : List (String × Json)) :
    ∃ body, write l 0 (.obj (f :: fs)) = body ++ ['\x7d'] := by
  obtain ⟨k, v⟩ := f
  obtain ⟨body, hbody⟩ := writeFields_last l 0 fs
  exact ⟨'\x7b' :: (l.opening 1 ++ (Json.strText k ++ ':' :: (l.colon ++ (write l 1 v ++ body)))), by
    rw [write, hbody]
    simp⟩

/-- The envelope is found behind any text. -/
theorem lastObject_content (line : List Char) {f : String × Json} {fs : List (String × Json)}
    (h : (Json.obj (f :: fs)).Readable) :
    lastObject (setContent (line ++ '\n' :: '\n' :: write .indented 0 (.obj (f :: fs)))) =
      some (write .indented 0 (.obj (f :: fs)) ++ ['\n']) := by
  have hcalm := calm_write _ 0 h
  have hlast : ended (splitlines (write .indented 0 (.obj (f :: fs)))) = write .indented 0 (.obj (f :: fs)) ++ ['\n'] := by
    obtain ⟨body, hbody⟩ := write_last .indented f fs
    have hreturn : '\r' ∉ body := fun hmem => hcalm.noReturn (by rw [hbody]; exact List.mem_append_left _ hmem)
    rw [hbody, ended_splitlines hreturn (by decide) (by decide), List.append_assoc]
    rfl
  have hlines : splitlines (line ++ '\n' :: '\n' :: write .indented 0 (.obj (f :: fs))) =
      splitlines (line ++ ['\n'] ++ ['\n']) ++ splitlines (write .indented 0 (.obj (f :: fs))) := by
    rw [← splitlines_feed, List.append_assoc]
    rfl
  have hne : splitlines (line ++ ['\n'] ++ ['\n']) ≠ [] :=
    splitlines_ne_nil (List.append_ne_nil_of_right_ne_nil _ (List.cons_ne_nil _ _))
  obtain ⟨before, hbefore⟩ := exists_ended hne
  have hcontent : setContent (line ++ '\n' :: '\n' :: write .indented 0 (.obj (f :: fs))) =
      before ++ '\n' :: (write .indented 0 (.obj (f :: fs)) ++ ['\n']) := by
    rw [setContent, ended_intercalate (by rw [hlines]; exact List.append_ne_nil_of_left_ne_nil hne _),
      hlines, ended_append, hlast, hbefore,
      List.append_assoc]
    rfl
  rw [hcontent]
  apply lastObject_append
  have hnone : lastObject (write .indented 0 (.obj (f :: fs)) ++ ['\n']) = none := by
    rw [hcalm.skips]
    rfl
  rw [lastObject, hnone]
  exact if_pos ⟨rfl, rfl⟩

/-! ## Headers -/

def Unbroken (text : List Char) : Prop := ∀ c ∈ text, c ∉ lineBreaks

theorem unbroken_plain {text : List Char} (h : Plain text) : Unbroken text := by
  have hbreaks : ∀ b ∈ lineBreaks, ¬(' ' ≤ b ∧ b ≤ '~') := forall_chars (by decide)
  exact fun c hc hmem => hbreaks c hmem (h.range c hc)

theorem Unbroken.append {a b : List Char} (ha : Unbroken a) (hb : Unbroken b) : Unbroken (a ++ b) := fun c hc =>
  (List.mem_append.mp hc).elim (ha c) (hb c)

theorem forall_mem_intercalate {P : Char → Prop} {sep : List Char} (hsep : ∀ c ∈ sep, P c) :
    ∀ parts : List (List Char), (∀ c ∈ sep.intercalate parts, P c) ↔ ∀ p ∈ parts, ∀ c ∈ p, P c
  | [] => ⟨fun _ p hp => (List.not_mem_nil hp).elim, fun _ c hc => (List.not_mem_nil hc).elim⟩
  | [part] => by
    rw [List.intercalate_singleton, List.forall_mem_singleton]
  | part :: next :: parts => by
    have ih := forall_mem_intercalate hsep (next :: parts)
    rw [List.intercalate_cons_cons, List.forall_mem_cons, ← ih, List.append_assoc,
      List.forall_mem_append, List.forall_mem_append]
    exact and_congr_right fun _ => ⟨fun h => h.2, fun h => ⟨hsep, h⟩⟩

theorem setHeader_ok {p : String × String} (h : Unbroken p.2.toList) : setHeader p = .ok p := by
  rw [setHeader, if_neg]
  intro hany
  obtain ⟨c, hc, hbreak⟩ := List.any_eq_true.mp hany
  exact h c hc (of_decide_eq_true hbreak)

theorem setHeader_raises {p : String × String} (h : ¬Unbroken p.2.toList) :
    setHeader p = .error (.raised (pythonError "ValueError")) := by
  rw [setHeader, if_pos]
  by_contra hany
  apply h
  intro c hc hbreak
  exact hany (List.any_eq_true.mpr ⟨c, hc, decide_eq_true hbreak⟩)

theorem mapM_setHeader_ok {l : List (String × String)}
    (h : ∀ p ∈ l, Unbroken p.2.toList) : l.mapM setHeader = .ok l := by
  rw [mapM_ok_map (g := fun p => p) fun p hp => setHeader_ok (h p hp), List.map_id']

theorem mapM_setHeader_raises {l : List (String × String)} {p : String × String} (hp : p ∈ l)
    (h : ¬Unbroken p.2.toList) :
    l.mapM setHeader = .error (.raised (pythonError "ValueError")) := by
  induction l with
  | nil => cases hp
  | cons q l ih =>
    rw [List.mapM_cons]
    by_cases hq : Unbroken q.2.toList
    · rcases List.mem_cons.mp hp with rfl | hp
      · exact absurd hq h
      · rw [setHeader_ok hq, ih hp]
        rfl
    · rw [setHeader_raises hq]
      rfl

/-! ## Composing -/

theorem takeWhile_ne {a : Char} {s : List Char} (h : a ∉ s) (t : List Char) : (s ++ a :: t).takeWhile (· ≠ a) = s := by
  have hs : ∀ c ∈ s, decide (c ≠ a) = true := fun c hc => decide_eq_true fun heq => h (heq ▸ hc)
  rw [List.takeWhile_append_of_pos hs, List.takeWhile_cons_of_neg (by simp), List.append_nil]

/-- The texts of a mail that become headers have no line break. -/
structure EmailSink.Fits (sink : EmailSink) (line : List Char) : Prop where
  subject : Unbroken (line.take 200)
  sender : Unbroken sink.sender.toList
  recipients : ∀ r ∈ sink.recipients, Unbroken r.toList

section
variable {m : OutboundMessage} (hm : Sendable m) (sink : EmailSink)

theorem unbroken_recipients : Unbroken (", ".intercalate sink.recipients).toList ↔
    ∀ r ∈ sink.recipients, Unbroken r.toList := by
  have hsep : Unbroken ", ".toList := forall_chars (by decide)
  rw [String.toList_intercalate, Unbroken, forall_mem_intercalate hsep]
  exact List.forall_mem_map

theorem EmailSink.domain_unbroken (h : Unbroken sink.sender.toList) : Unbroken sink.domain := by
  rw [EmailSink.domain]
  split
  · exact forall_chars (by decide)
  · exact fun c hc => h c (PyStr.mem_of_mem_afterLast hc)

include hm

theorem EmailSink.headers_unbroken (h : sink.Fits (summary m).toList) : ∀ p ∈ sink.headers m, Unbroken p.2.toList := by
  intro p hp
  rcases List.mem_append.mp hp with hp | hp
  · simp only [List.mem_cons, List.not_mem_nil, or_false] at hp
    rcases hp with rfl | rfl | rfl | rfl
    · rw [String.toList_ofList]
      exact h.subject
    · exact h.sender
    · exact (unbroken_recipients sink).mpr h.recipients
    · obtain ⟨id, hid⟩ := hm.id
      have hhex : Unbroken m.eventId.toList := by
        rw [hid]
        exact unbroken_plain (plain_of_graphic (graphic_hex id))
      have hat : Unbroken ['@'] := forall_chars (by decide)
      have hopen : Unbroken ['<'] := forall_chars (by decide)
      have hclose : Unbroken ['>'] := forall_chars (by decide)
      rw [String.toList_ofList]
      exact hopen.append (hhex.append (hat.append ((sink.domain_unbroken h.sender).append hclose)))
  · obtain ⟨q, hq, rfl⟩ := List.mem_map.mp hp
    exact unbroken_plain (hm.plain q hq)

theorem reads_email (h : sink.Fits (summary m).toList) : ∃ mail, sink.compose m = .ok mail ∧
    Reads m true (.mail mail) := by
  obtain ⟨id, hid⟩ := hm.id
  obtain ⟨f, fs, hfields⟩ := hm.fields
  refine ⟨_, by rw [EmailSink.compose, mapM_setHeader_ok (sink.headers_unbroken hm h)]; rfl,
    ?_, fun _ => ⟨m.envelope, ?_, rfl⟩⟩
  · have hlookup : (sink.headers m).lookup "Message-ID" =
        some (String.ofList ('<' :: (m.eventId.toList ++ '@' :: (sink.domain ++ ['>'])))) := rfl
    have hat : '@' ∉ m.eventId.toList := by
      rw [hid]
      exact fun hmem => absurd (id.chars _ hmem) (by decide)
    rw [Sent.eventId_mail, Mail.eventId]
    simp only [hlookup, Option.bind_eq_bind, Option.bind_some, String.toList_ofList, takeWhile_ne hat, String.ofList_toList]
  · have hreadable := hm.readable
    rw [hfields] at hreadable
    rw [Sent.envelope_mail, Mail.envelope]
    simp only [hfields, lastObject_content _ hreadable]
    exact Json.loads_write hreadable (forall_chars (by decide))

omit hm in
theorem compose_raises (h : ¬sink.Fits (summary m).toList) :
    sink.compose m = .error (.raised (pythonError "ValueError")) := by
  have hbroken : ∃ p ∈ sink.headers m, ¬Unbroken p.2.toList := by
    by_contra hall
    have hhead : ∀ p ∈ sink.headers m, Unbroken p.2.toList :=
      fun p hp => Classical.not_not.mp fun hp' => hall ⟨p, hp, hp'⟩
    apply h
    constructor
    · have hsubject := hhead ("Subject", String.ofList ((summary m).toList.take 200)) (by simp [EmailSink.headers])
      rwa [String.toList_ofList] at hsubject
    · exact hhead ("From", sink.sender) (by simp [EmailSink.headers])
    · exact (unbroken_recipients sink).mp (hhead ("To", ", ".intercalate sink.recipients) (by simp [EmailSink.headers]))
  obtain ⟨p, hp, hbroken⟩ := hbroken
  rw [EmailSink.compose, mapM_setHeader_raises hp hbroken]
  rfl

end

end OranAdapt.Sinks
