import OranAdapt.Moves

/-!
# What a step does to everything else

The attempts, the clock, the lists that were read in earlier transactions, and
who is deciding: what each of them can be after a step.
-/

namespace OranAdapt

/-! ## What a step does to an attempt -/

/-- Where an attempt's phase can lead in one step. -/
inductive PhaseStep : Phase → Phase → Prop
  | same (p : Phase) : PhaseStep p p
  | started (p : Phase) : PhaseStep .claimed p
  | left (p : Phase) : PhaseStep .running p
  | halted (e : AdaptationError) : PhaseStep (.stopping e) (.ended (.raised e))
  | handled (o : Outcome) : PhaseStep (.ended o) (.handling o)
  | staged (e : AdaptationError) (lastStage : JobStatus) (he : e.cls = .jobTimeout) :
      PhaseStep (.handling (.raised e)) (.timingOut e lastStage)
  | closed (p : Phase) : PhaseStep p .closed

def Follows (a a' : Attempt) : Prop := a'.claim = a.claim ∧ PhaseStep a.phase a'.phase

theorem Follows.rfl {a : Attempt} : Follows a a := ⟨Eq.refl _, .same _⟩

namespace System

section
variable {P : Platform} {cfg : Settings} {s s' : System} {token : Token} {a : Attempt}

theorem pipelineOver_follows (a : Attempt) (o : Outcome) : Follows a (a.pipelineOver o) := by
  refine ⟨rfl, ?_⟩
  unfold Attempt.pipelineOver
  cases a.phase <;> first | exact .left _ | exact .same _

theorem get?_setAttempt (s : System) (token t : Token) (a : Attempt) (h : s.attempts.get? token ≠ none) :
    (s.setAttempt token a).attempts.get? t = if t = token then some a else s.attempts.get? t := by
  simp only [setAttempt, Table.get?_modify]
  split
  · rename_i e; subst e
    obtain ⟨b, hb⟩ := Option.ne_none_iff_exists'.mp h
    rw [hb]; rfl
  · rfl

inductive AttemptsStep (cfg : Settings) (s s' : System) (act : Action) : Prop
  | same (h : s'.attempts = s.attempts)
  | won (source : Source) (read : Time) (id : JobId) (owner : String) (token : Token) (c : Claim)
      (hact : act = .claim source read id owner token) (hread : read ≤ s.now)
      (hc : tryClaim cfg s.db read s.now id owner token = .ok (some (s'.db, c)))
      (hi : s.attempts.insert? token (newAttempt c) = some s'.attempts)
  | acted (token : Token) (a a' : Attempt) (ha : s.attempts.get? token = some a) (hf : Follows a a')
      (h : s'.attempts = (s.setAttempt token a').attempts)

theorem step_attempts {act : Action} (h : step P cfg s act = some s') : AttemptsStep cfg s s' act := by
  unfold step at h
  cases act with
  | advance | drop | reapSkip | unpublish => cases h; exact .same rfl
  | submit | cancel | publish =>
    simp only at h
    split at h <;> cases h <;> exact .same rfl
  | poll | reapSelect | overdueSelect | endRollout | deciderDies | unlock | reapSlots =>
    simp only at h
    split at h
    · cases h; exact .same rfl
    · cases h
  | checkAvailable id =>
    simp only at h
    split at h
    · split at h
      · cases h; exact .same rfl
      · cases h
    · cases h
  | reapLease | reapOverdue =>
    simp only at h
    split at h
    · split at h <;> cases h <;> exact .same rfl
    · cases h
  | lock holder model =>
    rcases lockStep_some h with rfl | ⟨-, -, -, -, -, ha, -⟩
    · exact .same rfl
    · exact .same ha
  | startRollout token rollout =>
    obtain ⟨a, -, h⟩ := onAttempt_some h
    unfold startRolloutStep at h
    split at h
    · cases h
    · split at h
      · obtain ⟨_, -, rfl⟩ := Option.map_eq_some_iff.mp h
        exact .same rfl
      · cases h
  | claim source read id owner token =>
    simp only at h
    unfold claimStep at h
    split at h
    · rename_i hr
      simp only at h
      split at h
      · rename_i db c hc
        obtain ⟨attempts, hi, rfl⟩ := Option.map_eq_some_iff.mp h
        exact .won source read id owner token c rfl hr.1 hc hi
      · cases h; exact .same rfl
    · cases h
  | start token =>
    obtain ⟨a, ha, h⟩ := onAttempt_some h
    unfold startStep at h
    split at h
    · rename_i hp
      simp only at h
      split at h <;> cases h <;> refine .acted token a _ ha ⟨?_, ?_⟩ rfl
      · rfl
      · rw [hp]; exact .started _
      · rfl
      · rw [hp]; exact .started _
    · cases h
  | report token toStatus message =>
    obtain ⟨a, ha, h⟩ := onAttempt_some h
    unfold reportStep at h
    split at h
    · split at h <;> cases h
      · exact .same rfl
      · exact .acted token a _ ha (pipelineOver_follows a _) rfl
    · cases h
  | finish token o =>
    obtain ⟨a, ha, h⟩ := onAttempt_some h
    split at h
    · cases h; exact .acted token a _ ha (pipelineOver_follows a _) rfl
    · cases h
  | heartbeat token read drainExpired =>
    obtain ⟨a, ha, h⟩ := onAttempt_some h
    unfold heartbeatStep at h
    split at h
    · rename_i hp
      split at h
      · cases h
        refine .acted token a _ ha ⟨?_, by rw [hp]; exact .left _⟩ rfl
        split <;> split <;> rfl
      · cases h
    · cases h
  | heartbeatFailed token read =>
    obtain ⟨a, ha, h⟩ := onAttempt_some h
    unfold heartbeatFailedStep at h
    split at h
    · rename_i hp
      split at h
      · simp only at h
        split at h <;> cases h
        · refine .acted token a _ ha ⟨?_, ?_⟩ rfl
          · rfl
          · rw [hp]; exact .left _
        · exact .same rfl
      · cases h
    · cases h
  | timeout token =>
    obtain ⟨a, ha, h⟩ := onAttempt_some h
    split at h
    · rename_i hp
      cases h
      refine .acted token a _ ha ⟨?_, ?_⟩ rfl
      · rfl
      · rw [hp]; exact .left _
    · cases h
  | halt token =>
    obtain ⟨a, ha, h⟩ := onAttempt_some h
    split at h
    · rename_i e hp
      cases h
      refine .acted token a _ ha ⟨?_, ?_⟩ rfl
      · unfold Attempt.halt; split <;> rfl
      · rw [hp]; unfold Attempt.halt; split <;> exact .halted e
    · cases h
  | handle token =>
    obtain ⟨a, ha, h⟩ := onAttempt_some h
    split at h
    · rename_i o hp
      cases h
      refine .acted token a _ ha ⟨?_, ?_⟩ rfl
      · rfl
      · rw [hp]; exact .handled o
    · cases h
  | readStage token =>
    obtain ⟨a, ha, h⟩ := onAttempt_some h
    unfold readStageStep at h
    split at h
    · rename_i e hp
      split at h
      · rename_i he
        split at h <;> cases h <;> refine .acted token a _ ha ⟨?_, ?_⟩ rfl
        · rfl
        · rw [hp]; exact .staged e _ he
        · rfl
        · exact .closed _
      · cases h
    · cases h
  | record token =>
    obtain ⟨a, ha, h⟩ := onAttempt_some h
    obtain ⟨-, hs'⟩ := recordStep_some h
    refine .acted token a { a with phase := .closed } ha ⟨rfl, .closed _⟩ ?_
    rw [hs']
  | onAbandoned token =>
    obtain ⟨a, ha, h⟩ := onAttempt_some h
    unfold onAbandonedStep at h
    split at h
    · simp only [Option.some.injEq] at h
      refine .acted token a { a with finishDue := false } ha ⟨rfl, .same _⟩ ?_
      rw [← h]
      split <;> rfl
    · cases h
  | die token =>
    obtain ⟨a, ha, h⟩ := onAttempt_some h
    cases h
    exact .acted token a (a.die cfg.inProcess) ha ⟨rfl, .closed _⟩ rfl

/-- Attempts are never forgotten, and keep their claim. -/
theorem attempt_kept {act : Action} (h : step P cfg s act = some s') (ha : s.attempts.get? token = some a) :
    ∃ a', s'.attempts.get? token = some a' ∧ Follows a a' := by
  cases step_attempts h with
  | same he => exact ⟨a, by rw [he]; exact ha, .rfl⟩
  | won source read id owner token' c hact hread hc hi =>
    have hne : token ≠ token' := fun e => by rw [e, Table.insert?_fresh hi] at ha; cases ha
    exact ⟨a, by rw [Table.get?_insert? hi, if_neg hne]; exact ha, .rfl⟩
  | acted token' b b' hb hf he =>
    rw [he, get?_setAttempt s token' token b' (by simp [hb])]
    split
    · rename_i e; subst e
      rw [ha] at hb; cases hb
      exact ⟨b', rfl, hf⟩
    · exact ⟨a, ha, .rfl⟩

theorem attempt_origin {act : Action} {a' : Attempt} (h : step P cfg s act = some s')
    (ha' : s'.attempts.get? token = some a') :
    (∃ a, s.attempts.get? token = some a ∧ Follows a a') ∨
    (s.attempts.get? token = none ∧ ∃ source read id owner c, act = .claim source read id owner token ∧
      read ≤ s.now ∧
      tryClaim cfg s.db read s.now id owner token = .ok (some (s'.db, c)) ∧ a' = newAttempt c) := by
  cases step_attempts h with
  | same he => exact .inl ⟨a', by rw [← he]; exact ha', .rfl⟩
  | won source read id owner token' c hact hread hc hi =>
    rw [Table.get?_insert? hi] at ha'
    split at ha'
    · rename_i e; subst e
      cases ha'
      exact .inr ⟨Table.insert?_fresh hi, source, read, id, owner, c, hact, hread, hc, rfl⟩
    · exact .inl ⟨a', ha', .rfl⟩
  | acted token' b b' hb hf he =>
    rw [he, get?_setAttempt s token' token b' (by simp [hb])] at ha'
    split at ha'
    · rename_i e; subst e
      cases ha'
      exact .inl ⟨b, hb, hf⟩
    · exact .inl ⟨a', ha', .rfl⟩

/-! ## What a step does to the clock and to what was read before -/

/-- The clock, the lists read in earlier transactions, and who is deciding. -/
structure Frame (cfg : Settings) (s s' : System) (act : Action) : Prop where
  now : s.now ≤ s'.now
  selected : ∀ x ∈ s'.selected, x ∈ s.selected ∨
    ∃ read, act = .reapSelect read ∧ read ≤ s.now ∧ x ∈ expiredLeases s.db read
  listed : ∀ id ∈ s'.listed, id ∈ s.listed ∨
    (∃ read classes, act = .poll read classes ∧ read ≤ s.now ∧ id ∈ candidates cfg s.db read classes) ∨
    (act = .checkAvailable id ∧ ∃ job, s.db.jobs.get? id = some job ∧ job.status = .queued ∧
      job.available s.now = true)
  deciding : s'.deciding = s.deciding ∨ ∃ holder model,
    (act = .lock holder model ∧ s'.deciding = (holder, model) :: s.deciding) ∨
    ((act = .unlock holder model ∨ act = .deciderDies holder model) ∧
      s'.deciding = s.deciding.erase (holder, model))

theorem Frame.same {act : Action} (hn : s'.now = s.now) (hs : s'.selected = s.selected) (hl : s'.listed = s.listed)
    (hd : s'.deciding = s.deciding) : Frame cfg s s' act :=
  ⟨by rw [hn], fun _ hx => .inl (hs ▸ hx), fun _ hx => .inl (hl ▸ hx), .inl hd⟩

/-- A claim writes the database, the attempts and the poller's list, which it only shortens. -/
theorem claimStep_some {source : Source} {read : Time} {id : JobId} {owner : String} {token : Token}
    (h : s.claimStep cfg source read id owner token = some s') :
    ∃ db attempts listed, (∀ x, x ∈ listed → x ∈ s.listed) ∧ s' = { s with db, attempts, listed } := by
  unfold claimStep at h
  cases source with
  | listed =>
    have hlisted : ∀ x, x ∈ s.listed.erase id → x ∈ s.listed := fun x hx => List.mem_of_mem_erase hx
    split at h
    · simp only at h
      split at h
      · obtain ⟨attempts, -, rfl⟩ := Option.map_eq_some_iff.mp h
        exact ⟨_, attempts, _, hlisted, rfl⟩
      · cases h
        exact ⟨s.db, s.attempts, _, hlisted, rfl⟩
    · cases h
  | message =>
    split at h
    · simp only at h
      split at h
      · obtain ⟨attempts, -, rfl⟩ := Option.map_eq_some_iff.mp h
        exact ⟨_, attempts, s.listed, fun _ hx => hx, rfl⟩
      · cases h
        exact ⟨s.db, s.attempts, s.listed, fun _ hx => hx, rfl⟩
    · cases h

theorem step_frame {act : Action} (h : step P cfg s act = some s') : Frame cfg s s' act := by
  unfold step at h
  cases act with
  | advance dt =>
    cases h
    exact ⟨Nat.le_add_right _ _, fun _ hx => .inl hx, fun _ hx => .inl hx, .inl rfl⟩
  | submit | cancel | publish =>
    simp only at h
    split at h <;> cases h <;> exact .same rfl rfl rfl rfl
  | unpublish id => cases h; exact .same rfl rfl rfl rfl
  | poll read classes =>
    simp only at h
    split at h
    · rename_i hr
      cases h
      refine ⟨Nat.le_refl _, fun _ hx => .inl hx, fun id hx => ?_, .inl rfl⟩
      rcases List.mem_append.mp hx with hx | hx
      · exact .inl hx
      · exact .inr (.inl ⟨read, classes, rfl, hr, hx⟩)
    · cases h
  | checkAvailable id =>
    simp only at h
    split at h
    · rename_i job hj
      split at h
      · rename_i hc
        cases h
        refine ⟨Nat.le_refl _, fun _ hx => .inl hx, fun id' hx => ?_, .inl rfl⟩
        rcases List.mem_append.mp hx with hx | hx
        · exact .inl hx
        · rw [List.mem_singleton.mp hx]
          exact .inr (.inr ⟨rfl, job, hj, hc.1, hc.2⟩)
      · cases h
    · cases h
  | drop id =>
    cases h
    exact ⟨Nat.le_refl _, fun _ hx => .inl hx, fun _ hx => .inl (List.mem_of_mem_erase hx), .inl rfl⟩
  | claim source read id owner token =>
    obtain ⟨db, attempts, listed, hlisted, rfl⟩ := claimStep_some h
    exact ⟨Nat.le_refl _, fun _ hx => .inl hx, fun x hx => .inl (hlisted x hx), .inl rfl⟩
  | reapSelect read =>
    simp only at h
    split at h
    · rename_i hr
      cases h
      refine ⟨Nat.le_refl _, fun x hx => ?_, fun _ hx => .inl hx, .inl rfl⟩
      rcases List.mem_append.mp hx with hx | hx
      · exact .inl hx
      · exact .inr ⟨read, rfl, hr, hx⟩
    · cases h
  | reapLease id token =>
    simp only at h
    split at h
    · split at h <;> cases h <;>
        exact ⟨Nat.le_refl _, fun _ hx => .inl (List.mem_of_mem_erase hx), fun _ hx => .inl hx, .inl rfl⟩
    · cases h
  | reapSkip id token =>
    cases h
    exact ⟨Nat.le_refl _, fun _ hx => .inl (List.mem_of_mem_erase hx), fun _ hx => .inl hx, .inl rfl⟩
  | overdueSelect | reapSlots | endRollout =>
    simp only at h
    split at h
    · cases h; exact .same rfl rfl rfl rfl
    · cases h
  | reapOverdue id =>
    simp only at h
    split at h
    · split at h <;> cases h <;> exact .same rfl rfl rfl rfl
    · cases h
  | lock holder model =>
    simp only at h
    unfold lockStep at h
    split at h
    · split at h
      · cases h
        exact ⟨Nat.le_refl _, fun _ hx => .inl hx, fun _ hx => .inl hx, .inr ⟨holder, model, .inl ⟨rfl, rfl⟩⟩⟩
      · split at h
        · cases h
          exact ⟨Nat.le_refl _, fun _ hx => .inl hx, fun _ hx => .inl hx, .inr ⟨holder, model, .inl ⟨rfl, rfl⟩⟩⟩
        · cases h; exact .same rfl rfl rfl rfl
    · cases h
  | unlock holder model =>
    simp only at h
    split at h
    · cases h
      exact ⟨Nat.le_refl _, fun _ hx => .inl hx, fun _ hx => .inl hx, .inr ⟨holder, model, .inr ⟨.inl rfl, rfl⟩⟩⟩
    · cases h
  | deciderDies holder model =>
    simp only at h
    split at h
    · cases h
      exact ⟨Nat.le_refl _, fun _ hx => .inl hx, fun _ hx => .inl hx, .inr ⟨holder, model, .inr ⟨.inr rfl, rfl⟩⟩⟩
    · cases h
  | start token =>
    obtain ⟨a, -, h⟩ := onAttempt_some h
    unfold startStep at h
    split at h
    · simp only at h
      split at h <;> cases h <;> exact .same rfl rfl rfl rfl
    · cases h
  | report token toStatus message =>
    obtain ⟨a, -, h⟩ := onAttempt_some h
    unfold reportStep at h
    split at h
    · split at h <;> cases h <;> exact .same rfl rfl rfl rfl
    · cases h
  | finish token o =>
    obtain ⟨a, -, h⟩ := onAttempt_some h
    split at h
    · cases h; exact .same rfl rfl rfl rfl
    · cases h
  | heartbeat token read drainExpired =>
    obtain ⟨a, -, h⟩ := onAttempt_some h
    unfold heartbeatStep at h
    split at h
    · split at h
      · cases h; exact .same rfl rfl rfl rfl
      · cases h
    · cases h
  | heartbeatFailed token read =>
    obtain ⟨a, -, h⟩ := onAttempt_some h
    unfold heartbeatFailedStep at h
    split at h
    · split at h
      · simp only at h
        split at h <;> cases h <;> exact .same rfl rfl rfl rfl
      · cases h
    · cases h
  | timeout | halt | handle =>
    obtain ⟨a, -, h⟩ := onAttempt_some h
    split at h
    · cases h; exact .same rfl rfl rfl rfl
    · cases h
  | readStage token =>
    obtain ⟨a, -, h⟩ := onAttempt_some h
    unfold readStageStep at h
    split at h
    · split at h
      · split at h <;> cases h <;> exact .same rfl rfl rfl rfl
      · cases h
    · cases h
  | record token =>
    obtain ⟨a, -, h⟩ := onAttempt_some h
    obtain ⟨-, hs'⟩ := recordStep_some h
    rw [hs']; exact .same rfl rfl rfl rfl
  | onAbandoned token =>
    obtain ⟨a, -, h⟩ := onAttempt_some h
    unfold onAbandonedStep at h
    split at h
    · simp only [Option.some.injEq] at h
      rw [← h]
      split <;> exact .same rfl rfl rfl rfl
    · cases h
  | die token =>
    obtain ⟨a, -, h⟩ := onAttempt_some h
    cases h; exact .same rfl rfl rfl rfl
  | startRollout token rollout =>
    obtain ⟨a, -, h⟩ := onAttempt_some h
    unfold startRolloutStep at h
    split at h
    · cases h
    · split at h
      · obtain ⟨_, -, rfl⟩ := Option.map_eq_some_iff.mp h
        exact .same rfl rfl rfl rfl
      · cases h

end

end System

end OranAdapt
