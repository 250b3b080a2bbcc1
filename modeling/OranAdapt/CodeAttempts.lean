import OranAdapt.JsonText
import OranAdapt.LlmAdapter

/-!
# Written, scanned, run and fixed

How the attempts at generating code follow each other, whatever the LLM writes
and whatever becomes of its code in the sandbox: no code is run that was not
scanned, no two attempts are given one directory, what failed is in the next
prompt, and the model that is dumped is the one of the last run.
-/

namespace OranAdapt

open Effects

namespace LlmAdapter

/-! ## The protocol -/

/-- Where the attempts stand, after the failures so far. -/
inductive Stage (M : Type) where
  | asking (failed : List (String × CodeFailure))
  | scanning (failed : List (String × CodeFailure)) (code : String)
  | running (failed : List (String × CodeFailure)) (code : String)
  | ran (failed : List (String × CodeFailure)) (model : M)
  | saved (failed : List (String × CodeFailure)) (model : M)
  | closed

variable {ω M : Type} (parts : Parts ω M) (call : Call M)

def fixing (failed : List (String × CodeFailure)) (code : String) (e : AdaptationError) : Stage M :=
  if caught e then .asking (failed ++ [(code, failureOf parts.showDict e)]) else .closed

def afterReply (failed : List (String × CodeFailure)) : Option String → Stage M
  | some raw => .scanning failed (extractCode raw)
  | none => .closed

def afterScan (failed : List (String × CodeFailure)) (code : String) : Option AdaptationError → Stage M
  | none => .running failed code
  | some e => fixing parts failed code e

def afterRun (failed : List (String × CodeFailure)) (code : String) : Ended AdaptationError M → Stage M
  | .done model => .ran failed model
  | .raised e => fixing parts failed code e
  | .stopped => .closed

def afterDump (failed : List (String × CodeFailure)) (model : M) : Ended AdaptationError Unit → Stage M
  | .done _ => .saved failed model
  | _ => .closed

def dumpPath : String := joinPath call.workdir "model.joblib"

/-- What is run of a code after some failures. -/
def runAfter (failed : List (String × CodeFailure)) (code : String) : SandboxRun M :=
  sandboxRun call code (attemptDir call (failed.length + 1))

/-- The protocol of the attempts; a model is no value that could be compared. -/
def Accepts : Stage M → Event M → Prop
  | .asking failed, .asked asked _ => failed.length < parts.maxAttempts ∧ asked.user = userPrompt parts call failed
  | .scanning _ code, .scanned code' failure => code' = code ∧
      (failure = none → checkCodeSafety parts.python code = .ok ())
  | .running failed code, .ran run _ => run = runAfter call failed code
  | .ran _ model, .dumped path model' _ => path = dumpPath call ∧ model' = model
  | _, _ => False

def advance : Stage M → Event M → Stage M
  | .asking failed, .asked _ reply => afterReply failed reply
  | .scanning failed code, .scanned _ failure => afterScan parts failed code failure
  | .running failed code, .ran _ end_ => afterRun parts failed code end_
  | .ran failed model, .dumped _ _ end_ => afterDump failed model end_
  | q, _ => q

noncomputable def protocol : Monitor (Stage M) (Event M) := Monitor.guarded (Accepts parts call) (advance parts)

/-! ## What a log shows -/

/-- The failures that go back to the LLM. -/
def failureOfEvent : Event M → Option (String × CodeFailure)
  | .scanned code (some e) => if caught e then some (code, failureOf parts.showDict e) else none
  | .ran run (.raised e) => if caught e then some (run.code, failureOf parts.showDict e) else none
  | _ => none

def failuresIn (log : List (Event M)) : List (String × CodeFailure) := log.filterMap (failureOfEvent parts)

def asks (log : List (Event M)) : Nat := log.countP fun
  | .asked _ _ => true
  | _ => false

def Proper (before : List (Event M)) : Event M → Prop
  -- there is an attempt left, and what failed so far is in the prompt
  | .asked asked _ => asks before < parts.maxAttempts ∧ asked.user = userPrompt parts call (failuresIn parts before)
  | .scanned code _ => ∃ earlier asked raw, before = earlier ++ [.asked asked (some raw)] ∧ extractCode raw = code
  -- the code of the last reply, which passed the scan, with the job's own model and rows, in a directory no run
  -- before was given
  | .ran run _ => run = sandboxRun call run.code run.workdir ∧ checkCodeSafety parts.python run.code = .ok () ∧
    (∃ earlier asked raw, before = earlier ++ [.asked asked (some raw), .scanned run.code none] ∧
      extractCode raw = run.code) ∧
      ∀ run' end_, Event.ran run' end_ ∈ before → run'.workdir ≠ run.workdir
  -- the model of the last run
  | .dumped path model _ => path = dumpPath call ∧ ∃ earlier run, before = earlier ++ [.ran run (.done model)]

/-- The runs so far were in the directories of the attempts up to one. -/
def RanWithin (log : List (Event M)) (n : Nat) : Prop :=
  ∀ run end_, Event.ran run end_ ∈ log → ∃ k, k < n ∧ run.workdir = attemptDir call (k + 1)

def Knows (log : List (Event M)) : Stage M → Prop
  | .asking failed => failuresIn parts log = failed ∧ asks log = failed.length ∧ asks log ≤ parts.maxAttempts ∧
    RanWithin call log failed.length
  | .scanning failed code => failuresIn parts log = failed ∧ asks log = failed.length + 1 ∧
      asks log ≤ parts.maxAttempts ∧
    RanWithin call log failed.length ∧ ∃ earlier asked raw, log = earlier ++ [.asked asked (some raw)] ∧
    extractCode raw = code
  | .running failed code => failuresIn parts log = failed ∧ asks log = failed.length + 1 ∧
      asks log ≤ parts.maxAttempts ∧
    RanWithin call log failed.length ∧ checkCodeSafety parts.python code = .ok () ∧
      ∃ earlier asked raw, log = earlier ++ [.asked asked (some raw), .scanned code none] ∧ extractCode raw = code
  | .ran failed model => failuresIn parts log = failed ∧ asks log = failed.length + 1 ∧ asks log ≤ parts.maxAttempts ∧
    ∃ earlier run, log = earlier ++ [.ran run (.done model)]
  | .saved failed model => failuresIn parts log = failed ∧ asks log = failed.length + 1 ∧
      asks log ≤ parts.maxAttempts ∧
    ∃ earlier run, log = earlier ++ [.ran run (.done model), .dumped (dumpPath call) model (.done ())]
  | .closed => asks log ≤ parts.maxAttempts

section
variable {parts call} {log : List (Event M)} {failed : List (String × CodeFailure)} {code : String}

theorem toString_inj {m n : Nat} (h : toString m = toString n) : m = n := by
  have hdigits : Nat.toDigits 10 m = Nat.toDigits 10 n := by
    have := congrArg String.toList h
    simpa using this
  exact Json.digits_inj hdigits

theorem attemptDir_inj {m n : Nat} (h : attemptDir call m = attemptDir call n) : m = n := by
  have hlonger : ∀ name : String, name ≠ "" → joinPath call.workdir name ≠ call.workdir := by
    intro name hname heq
    have hpos : 0 < name.length := Nat.pos_of_ne_zero fun h0 => hname (by simpa using h0)
    have hlen := congrArg String.length heq
    unfold joinPath at hlen
    split at hlen <;> simp only [String.length_append] at hlen <;> omega
  have hname : ∀ k : Nat, "attempt-" ++ toString k ≠ "" := by
    intro k hk
    have := congrArg String.length hk
    rw [String.length_append] at this
    have h8 : "attempt-".length = 8 := by decide
    have h0 : "".length = 0 := rfl
    omega
  unfold attemptDir at h
  split at h
  · rename_i h1
    split at h
    · rename_i h2
      rw [h1, h2]
    · exact absurd h.symm (hlonger _ (hname n))
  · split at h
    · exact absurd h (hlonger _ (hname m))
    · unfold joinPath at h
      split at h
      · exact toString_inj (String.append_right_inj _ |>.mp (String.append_right_inj _ |>.mp h))
      · exact toString_inj (String.append_right_inj _ |>.mp (String.append_right_inj _ |>.mp h))

theorem failuresIn_snoc (log : List (Event M)) (i : Event M) :
    failuresIn parts (log ++ [i]) = failuresIn parts log ++ (failureOfEvent parts i).toList := by
  unfold failuresIn
  rw [List.filterMap_append]
  cases h : failureOfEvent parts i <;> simp [h]

theorem asks_snoc (log : List (Event M)) (i : Event M) : asks (log ++ [i]) = asks log + asks [i] := by
  unfold asks
  exact List.countP_append

theorem RanWithin.mono {m n : Nat} (h : RanWithin call log m) (hmn : m ≤ n) : RanWithin call log n := by
  intro run end_ hmem
  obtain ⟨k, hk, hdir⟩ := h run end_ hmem
  exact ⟨k, hk.trans_le hmn, hdir⟩

theorem RanWithin.snoc {n : Nat} {i : Event M} (h : RanWithin call log n)
    (hi : ∀ run end_, i = .ran run end_ → ∃ k, k < n ∧ run.workdir = attemptDir call (k + 1)) :
    RanWithin call (log ++ [i]) n := by
  intro run end_ hmem
  rcases List.mem_append.mp hmem with hmem | hmem
  · exact h run end_ hmem
  · exact hi run end_ (List.mem_singleton.mp hmem).symm

theorem knows_fixing {i : Event M} {e : AdaptationError} (hfailures : failuresIn parts log = failed)
    (hasks : asks log = failed.length + 1) (hlimit : asks log ≤ parts.maxAttempts)
    (hi : failureOfEvent parts i = if caught e then some (code, failureOf parts.showDict e) else none) (hquiet : asks [i] = 0)
    (hran : RanWithin call (log ++ [i]) (failed.length + 1)) :
    Knows parts call (log ++ [i]) (fixing parts failed code e) := by
  unfold fixing
  split
  · rename_i hc
    rw [if_pos hc] at hi
    refine ⟨?_, ?_, ?_, ?_⟩
    · rw [failuresIn_snoc, hfailures, hi]
      rfl
    · rw [asks_snoc, hasks, hquiet, List.length_append]
      rfl
    · rw [asks_snoc, hquiet]
      exact hlimit
    · rw [List.length_append]
      exact hran
  · change asks (log ++ [i]) ≤ parts.maxAttempts
    rw [asks_snoc, hquiet]
    exact hlimit

/-- What nothing goes back to the LLM from and what asks nothing changes neither count. -/
theorem quiet_snoc {n : Nat} {i : Event M} (hfailures : failuresIn parts log = failed) (hasks : asks log = n)
    (hlimit : asks log ≤ parts.maxAttempts) (hi : failureOfEvent parts i = none) (hquiet : asks [i] = 0) :
    failuresIn parts (log ++ [i]) = failed ∧ asks (log ++ [i]) = n ∧ asks (log ++ [i]) ≤ parts.maxAttempts := by
  have hsame : asks (log ++ [i]) = asks log := by rw [asks_snoc, hquiet, Nat.add_zero]
  refine ⟨?_, hsame.trans hasks, hsame.le.trans hlimit⟩
  rw [failuresIn_snoc, hfailures, hi, Option.toList_none, List.append_nil]

theorem knows_asked {asked : Asked} {reply : Option String} (h : Knows parts call log (.asking failed))
    (hi : Accepts parts call (.asking failed) (.asked asked reply)) :
    Proper parts call log (.asked asked reply) ∧
      Knows parts call (log ++ [.asked asked reply]) (afterReply failed reply) := by
  obtain ⟨hfailures, hasks, -, hran⟩ := h
  refine ⟨⟨by rw [hasks]; exact hi.1, by rw [hfailures]; exact hi.2⟩, ?_⟩
  have hcount : asks (log ++ [.asked asked reply]) = failed.length + 1 := by
    rw [asks_snoc, hasks]
    rfl
  have hlimit : asks (log ++ [.asked asked reply]) ≤ parts.maxAttempts := hcount ▸ hi.1
  cases reply with
  | none => exact hlimit
  | some raw =>
    have hfailures' : failuresIn parts (log ++ [.asked asked (some raw)]) = failed := by
      rw [failuresIn_snoc, hfailures]
      simp [failureOfEvent]
    have hran' : RanWithin call (log ++ [.asked asked (some raw)]) failed.length :=
      hran.snoc fun _ _ he => by cases he
    exact ⟨hfailures', hcount, hlimit, hran', log, asked, raw, rfl, rfl⟩

theorem knows_scanned {failure : Option AdaptationError} (h : Knows parts call log (.scanning failed code))
    (hsafe : failure = none → checkCodeSafety parts.python code = .ok ()) :
    Proper parts call log (.scanned code failure) ∧
      Knows parts call (log ++ [.scanned code failure]) (afterScan parts failed code failure) := by
  obtain ⟨hfailures, hasks, hlimit, hran, hsource⟩ := h
  refine ⟨hsource, ?_⟩
  have hran' : RanWithin call (log ++ [.scanned code failure]) failed.length := hran.snoc fun _ _ he => by cases he
  cases failure with
  | some e => exact knows_fixing hfailures hasks hlimit rfl rfl (hran'.mono (Nat.le_succ _))
  | none =>
    obtain ⟨hfailures', hasks', hlimit'⟩ := quiet_snoc (i := .scanned code none) hfailures hasks hlimit rfl rfl
    obtain ⟨earlier, asked, raw, rfl, hcode⟩ := hsource
    exact ⟨hfailures', hasks', hlimit', hran', hsafe rfl, earlier, asked, raw, List.append_assoc _ _ _, hcode⟩

/-- No run so far was given the directory of the next attempt. -/
theorem knows_ran {end_ : Ended AdaptationError M} (h : Knows parts call log (.running failed code)) :
    Proper parts call log (.ran (runAfter call failed code) end_) ∧
      Knows parts call (log ++ [.ran (runAfter call failed code) end_]) (afterRun parts failed code end_) := by
  obtain ⟨hfailures, hasks, hlimit, hran, hsafe, hsource⟩ := h
  refine ⟨⟨rfl, hsafe, hsource, fun run' end₁ hmem heq => ?_⟩, ?_⟩
  · obtain ⟨k, hk, hdir⟩ := hran run' end₁ hmem
    have := attemptDir_inj (hdir.symm.trans heq)
    omega
  have hwithin : RanWithin call (log ++ [.ran (runAfter call failed code) end_]) (failed.length + 1) := by
    refine (hran.mono (Nat.le_succ _)).snoc fun run' end₁ he => ?_
    cases he
    exact ⟨failed.length, Nat.lt_succ_self _, rfl⟩
  cases end_ with
  | done model =>
    obtain ⟨hfailures', hasks', hlimit'⟩ :=
      quiet_snoc (i := .ran (runAfter call failed code) (.done model)) hfailures hasks hlimit rfl rfl
    exact ⟨hfailures', hasks', hlimit', log, _, rfl⟩
  | raised e => exact knows_fixing hfailures hasks hlimit rfl rfl hwithin
  | stopped => exact (asks_snoc log _).le.trans hlimit

theorem knows_dumped {model : M} {end_ : Ended AdaptationError Unit} (h : Knows parts call log (.ran failed model)) :
    Proper parts call log (.dumped (dumpPath call) model end_) ∧
      Knows parts call (log ++ [.dumped (dumpPath call) model end_]) (afterDump failed model end_) := by
  obtain ⟨hfailures, hasks, hlimit, hsource⟩ := h
  obtain ⟨hfailures', hasks', hlimit'⟩ :=
    quiet_snoc (i := .dumped (dumpPath call) model end_) hfailures hasks hlimit rfl rfl
  obtain ⟨earlier, run, rfl⟩ := hsource
  refine ⟨⟨rfl, earlier, run, rfl⟩, ?_⟩
  cases end_ with
  | done u => exact ⟨hfailures', hasks', hlimit', earlier, run, List.append_assoc _ _ _⟩
  | raised e => exact hlimit'
  | stopped => exact hlimit'

theorem knows_step {q q' : Stage M} {i : Event M} (h : Knows parts call log q) (hq : protocol parts call q i = some q') :
    Proper parts call log i ∧ Knows parts call (log ++ [i]) q' := by
  obtain ⟨haccepts, rfl⟩ := Monitor.guarded_of_some hq
  cases q with
  | asking failed =>
    cases i with
    | asked asked reply => exact knows_asked h haccepts
    | _ => cases haccepts
  | scanning failed code =>
    cases i with
    | scanned code' failure =>
      obtain ⟨rfl, hsafe⟩ := haccepts
      exact knows_scanned h hsafe
    | _ => cases haccepts
  | running failed code =>
    cases i with
    | ran run end_ =>
      have hrun : run = runAfter call failed code := haccepts
      subst hrun
      exact knows_ran h
    | _ => cases haccepts
  | ran failed model =>
    cases i with
    | dumped path model' end_ =>
      obtain ⟨rfl, rfl⟩ := haccepts
      exact knows_dumped h
    | _ => cases haccepts
  | saved failed model => cases i <;> cases haccepts
  | closed => cases i <;> cases haccepts

theorem proper_of_read {q : Stage M} (h : (protocol parts call).read (.asking []) log = some q) :
    Each (Proper parts call) log ∧ Knows parts call log q := by
  refine Monitor.read_induction (P := fun log q => Each (Proper parts call) log ∧ Knows parts call log q) ?_ ?_ h
  · exact ⟨.nil, rfl, rfl, Nat.zero_le _, fun _ _ hmem => by cases hmem⟩
  · rintro log q i q' ⟨heach, hknows⟩ hq
    obtain ⟨hproper, hknows'⟩ := knows_step hknows hq
    exact ⟨heach.snoc hproper, hknows'⟩

/-! ## Every run keeps to it -/

theorem note_user (asked : Asked) (o : Ended AdaptationError String) : (asked.note o).user = asked.user := by
  unfold Asked.note
  split
  · rfl
  · split <;> rfl
  · rfl

theorem ask_watches {prompt : Prompt} (h : failed.length < parts.maxAttempts) :
    Watches (protocol parts call) (ask parts prompt (userPrompt parts call failed) (failed.length + 1)) (.asking failed)
      (fun raw q => q = .scanning failed (extractCode raw)) (fun _ _ => True) fun _ => True := by
  have hnote : ∀ o, protocol parts call (.asking failed) (.asked ((sent parts prompt (userPrompt parts call failed)
      (failed.length + 1)).note o) (replyOf o)) = some (afterReply failed (replyOf o)) :=
    fun o => Monitor.guarded_some ⟨h, note_user _ o⟩
  apply Watches.noted
  · exact fun _ raw _ => ⟨_, hnote (.done raw), rfl⟩
  · exact fun _ e _ => ⟨_, hnote (.raised e), trivial⟩
  · exact fun _ _ => ⟨_, hnote .stopped, trivial⟩

variable (parts call) in
theorem scan_watches :
    Watches (protocol parts call) (scan parts code) (.scanning failed code) (fun _ q => q = .running failed code)
      (fun e q => q = fixing parts failed code e) fun _ => True := by
  have hscan : ∀ (w : ω) o, (Act.ofExcept (checkCodeSafety parts.python code) w).1 = o → (failureIn o = none →
      checkCodeSafety parts.python code = .ok ()) := by
    intro w o ho hnone
    cases hc : checkCodeSafety parts.python code with
    | ok u => rfl
    | error e =>
      rw [hc] at ho
      subst ho
      cases hnone
  have hnote : ∀ (w : ω) o, (Act.ofExcept (checkCodeSafety parts.python code) w).1 = o →
      protocol parts call (.scanning failed code) (.scanned code (failureIn o)) =
        some (afterScan parts failed code (failureIn o)) :=
    fun w o ho => Monitor.guarded_some ⟨rfl, hscan w o ho⟩
  apply Watches.noted
  · exact fun w u h => ⟨_, hnote w _ h, rfl⟩
  · exact fun w e h => ⟨_, hnote w _ h, rfl⟩
  · exact fun w h => ⟨_, hnote w _ h, trivial⟩

theorem run_watches :
    Watches (protocol parts call) (runSandboxed parts call code (attemptDir call (failed.length + 1))) (.running failed code)
      (fun model q => q = .ran failed model) (fun e q => q = fixing parts failed code e) fun _ => True := by
  have hnote : ∀ o : Ended AdaptationError M, protocol parts call (.running failed code)
    (.ran (runAfter call failed code) o) =
      some (afterRun parts failed code o) := fun o => Monitor.guarded_some rfl
  apply Watches.noted
  · exact fun _ model _ => ⟨_, hnote (.done model), rfl⟩
  · exact fun _ e _ => ⟨_, hnote (.raised e), rfl⟩
  · exact fun _ _ => ⟨_, hnote .stopped, trivial⟩

theorem dump_watches {model : M} :
    Watches (protocol parts call) ((parts.dump (dumpPath call) model).noted (.dumped (dumpPath call) model))
      (.ran failed model)
      (fun _ q => q = .saved failed model) (fun _ _ => True) fun _ => True := by
  have hnote : ∀ o : Ended AdaptationError Unit, protocol parts call (.ran failed model) (.dumped (dumpPath call) model o) =
      some (afterDump failed model o) := fun o => Monitor.guarded_some ⟨rfl, rfl⟩
  apply Watches.noted
  · exact fun _ u _ => ⟨_, hnote (.done u), rfl⟩
  · exact fun _ e _ => ⟨_, hnote (.raised e), trivial⟩
  · exact fun _ _ => ⟨_, hnote .stopped, trivial⟩

theorem fixing_caught {e : AdaptationError} (h : caught e = true) :
    fixing parts failed code e = .asking (failed ++ [(code, failureOf parts.showDict e)]) := by
  unfold fixing
  rw [if_pos h]

theorem attempts_watches {prompt : Prompt} : ∀ (left : Nat) (failed : List (String × CodeFailure)),
    left + failed.length = parts.maxAttempts → Watches (protocol parts call)
      (attempts parts call prompt left failed) (.asking failed)
      (fun answer q => ∃ failed', q = .ran failed' answer.1 ∧
        answer.2 = traceOf failed' ++ [⟨failed'.length + 1, none⟩])
      (fun _ _ => True) fun _ => True := by
  intro left
  induction left with
  | zero =>
    intro failed _
    exact .raise trivial
  | succ left ih =>
    intro failed hleft
    unfold attempts
    apply Watches.bind (ask_watches (by omega))
    rintro raw q rfl
    dsimp only
    apply Watches.bind_catching
    · apply Watches.bind (scan_watches parts call)
      rintro u q rfl
      exact run_watches
    · exact fun model q h => .ret ⟨failed, h, rfl⟩
    · rintro e q hc rfl
      dsimp only
      split
      · exact .raise trivial
      · rw [fixing_caught hc]
        apply ih
        rw [List.length_append, List.length_singleton]
        omega
    · exact fun _ _ _ _ => trivial

variable (parts call) in
theorem adaptViaLlm_watches :
    Watches (protocol parts call) (adaptViaLlm parts call) (.asking [])
      (fun c q => ∃ failed model, q = .saved failed model ∧
        c.generationAttempts = traceOf failed ++ [⟨failed.length + 1, none⟩] ∧
        c.engine = llmGenerated ∧ c.modelClass = parts.className model ∧ c.artifactPath = dumpPath call)
      (fun _ _ => True) fun _ => True := by
  unfold adaptViaLlm
  apply Watches.bind
  · exact Watches.ofExcept (D := fun _ q => q = .asking []) (fun _ _ => rfl) fun _ _ => trivial
  · rintro prompt q rfl
    apply Watches.bind (attempts_watches parts.maxAttempts [] rfl)
    rintro ⟨model, trace⟩ q ⟨failed, rfl, htrace⟩
    apply Watches.bind dump_watches
    rintro u q rfl
    exact .ret ⟨failed, model, rfl, htrace, rfl, rfl, rfl⟩

end

/-- Whatever the LLM writes and the sandbox does: each prompt carries every failure before it,
only code that passed the scan is run, in a directory that no attempt before it was given, and a
candidate's file is the model that the last run ended with. -/
theorem adaptViaLlm_proper (w : ω) :
    Each (Proper parts call) (adaptViaLlm parts call ⟨w, []⟩).2.log ∧
      asks (adaptViaLlm parts call ⟨w, []⟩).2.log ≤ parts.maxAttempts ∧
      ∀ c, (adaptViaLlm parts call ⟨w, []⟩).1 = .done c →
        c.generationAttempts = traceOf (failuresIn parts (adaptViaLlm parts call ⟨w, []⟩).2.log) ++
          [⟨asks (adaptViaLlm parts call ⟨w, []⟩).2.log, none⟩] ∧
        ∃ earlier run model, (adaptViaLlm parts call ⟨w, []⟩).2.log =
          earlier ++ [.ran run (.done model), .dumped c.artifactPath model (.done ())] ∧
            c.modelClass = parts.className model := by
  obtain ⟨q, hread, hend⟩ := (adaptViaLlm_watches parts call).run w
  obtain ⟨heach, hknows⟩ := proper_of_read hread
  refine ⟨heach, ?_, fun c hc => ?_⟩
  · cases q with
    | asking failed => exact hknows.2.2.1
    | scanning failed code => exact hknows.2.2.1
    | running failed code => exact hknows.2.2.1
    | ran failed model => exact hknows.2.2.1
    | saved failed model => exact hknows.2.2.1
    | closed => exact hknows
  · rw [hc] at hend
    obtain ⟨failed, model, rfl, htrace, -, hclass, hpath⟩ := hend
    obtain ⟨hfailures, hasks, -, earlier, run, hlog⟩ := hknows
    rw [hfailures, hasks, hpath]
    exact ⟨htrace, earlier, run, model, hlog, hclass⟩

end LlmAdapter

end OranAdapt
