import OranAdapt.Evidence

/-!
# Canary steps in order

A canary climbs `canary_steps` one index at a time, at the percentage of the
step it is on, and a rollout is moved at most so often before it ends, unless
its only step is at 100 percent: such a canary is recorded at 0 percent before
it is promoted, and stays there when the promotion raises.
-/

namespace OranAdapt

open Effects World Outside Delivery

namespace RolloutCall

variable {σ : Type} (d : Delivery σ) (id : RolloutId)

def reads (r : Rollout) (c : RolloutCall) : Option Nat :=
  match c.decision d r with
  | some .enterCanary => some 0
  | some (.advance _ _) | some .outOfSteps => some (r.step + 1)
  | some .promote => if r.state = .canary then some (r.step + 1) else none
  | _ => none

def afterAll (w : World σ) (cs : List RolloutCall) : World σ := cs.foldl (fun w c => c.run d id w) w

def changes (w : World σ) : List RolloutCall → List Rollout
  | [] => []
  | c :: cs =>
    match w.stored.rollouts.get? id, (c.run d id w).stored.rollouts.get? id with
    | some r, some r' =>
      if r'.position = r.position then changes (c.run d id w) cs else r' :: changes (c.run d id w) cs
    | _, _ => changes (c.run d id w) cs

def canaryEntries (w : World σ) (cs : List RolloutCall) : List Nat :=
  (((w.stored.rollouts.get? id).toList ++ changes d id w cs).filter (·.state = .canary)).map (·.percent)

end RolloutCall

/-! ## One move -/

section
variable {steps : List Nat} {step percent : Nat}

theorem CanarySteps.first_lt (h : CanarySteps steps) (hn : steps ≠ [100]) :
    ∃ first, steps[0]? = some first ∧ 0 < first ∧ first < 100 ∧ 1 < steps.length := by
  cases steps with
  | nil => cases h.last
  | cons first rest =>
    have hr := h.range first (by simp)
    cases rest with
    | nil =>
      have hlast := h.last
      simp only [List.getLast?_singleton, Option.some.injEq] at hlast
      exact absurd (by rw [hlast]) hn
    | cons second rest =>
      have hlt := (List.pairwise_cons.mp h.increasing).1 second (by simp)
      have hle := (h.range second (by simp)).2
      exact ⟨first, rfl, by omega, by omega, by simp⟩

theorem CanarySteps.next_lt (h : CanarySteps steps) (hs : steps[step]? = some percent) (hp : percent < 100) :
    step + 1 < steps.length := by
  obtain ⟨hi, rfl⟩ := List.getElem?_eq_some_iff.mp hs
  by_contra hlast
  have hstep : step = steps.length - 1 := by omega
  have hend := h.last
  rw [List.getLast?_eq_getElem?, ← hstep, List.getElem?_eq_getElem hi, Option.some.injEq] at hend
  omega

theorem CanarySteps.next_gt (h : CanarySteps steps) {next : Nat} (hs : steps[step]? = some percent)
    (hn : steps[step + 1]? = some next) : percent < next := by
  obtain ⟨hi, rfl⟩ := List.getElem?_eq_some_iff.mp hs
  obtain ⟨hj, rfl⟩ := List.getElem?_eq_some_iff.mp hn
  exact List.pairwise_iff_getElem.mp h.increasing step (step + 1) hi hj (by omega)

end

/-- A canary is on a step below 100 percent, at its percentage, or its first
split was `lost`: then it is at none, before a first step below 100. -/
def OnCourse (lost : Prop) (r : Rollout) : Prop :=
  r.state = .canary → (r.policy.canarySteps[r.step]? = some r.percent ∧ r.percent < 100) ∨
    lost ∧ r.percent = 0 ∧ r.step = 0 ∧ 1 < r.policy.canarySteps.length

/-- How often the rollout may still be moved. -/
def Rollout.movesLeft (r : Rollout) : Nat :=
  match r.state with
  | .shadow | .ab => r.policy.canarySteps.length + 2
  | .awaitingApproval => r.policy.canarySteps.length + 1
  | .canary => r.policy.canarySteps.length - r.step
  | .promoted | .rolledBack | .expired | .rejected => 0

section
variable {σ : Type} {d : Delivery σ} {id : RolloutId} {w : World σ} {r r' : Rollout} {c : RolloutCall} {lost lost' : Prop}

theorem OnCourse.mono (h : OnCourse lost r) (hl : lost → lost') : OnCourse lost' r :=
  fun hs => (h hs).imp_right fun h => ⟨hl h.1, h.2⟩

theorem OnCourse.same (h : OnCourse lost r) (hs : r.Same r') : OnCourse lost r' := by
  unfold OnCourse
  rw [hs.state, hs.policy, hs.step, hs.percent]
  exact h

theorem Rollout.Same.movesLeft (h : r.Same r') : r'.movesLeft = r.movesLeft := by
  unfold Rollout.movesLeft
  rw [h.state, h.policy, h.step]

theorem Rollout.movesLeft_le (r : Rollout) : r.movesLeft ≤ r.policy.canarySteps.length + 2 := by
  unfold Rollout.movesLeft
  split <;> omega

theorem Rollout.movesLeft_ended (h : r.state.active = false) : r.movesLeft = 0 := by
  unfold Rollout.movesLeft
  cases hs : r.state <;> rw [hs] at h <;> first | rfl | cases h

theorem OnCourse.next (h : OnCourse lost r) (hs : r.state = .canary) : r.step + 1 < r.policy.canarySteps.length := by
  rcases h hs with ⟨hp, hlt⟩ | ⟨-, -, hstep, hlen⟩
  · exact r.policy.steps.next_lt hp hlt
  · rw [hstep]
    exact hlen

theorem RolloutCall.advances_step {percent step : Nat} (hd : c.decision d r = some (.advance percent step)) :
    r.state = .canary ∧ step = r.step + 1 ∧ r.policy.canarySteps[step]? = some percent ∧ percent < 100 := by
  cases decision_decided hd with
  | ends he => obtain ⟨_, he⟩ := he; cases he
  | approved _ he => rcases he with he | he | he <;> cases he
  | ticked health judged grounds =>
    cases grounds with
    | shadow _ stays => exact absurd rfl (stays percent step)
    | climbs state healthy held next below => exact ⟨state, rfl, next, below⟩
    | tested _ _ he => rcases he with he | he <;> cases he
    | ends he => rcases he with he | he | ⟨_, he⟩ <;> cases he

theorem RolloutCall.splits_step {dec : Decision} {percent step : Nat} (hd : c.decision d r = some dec)
    (hs : dec.splits r = some (percent, step)) : r.policy.canarySteps[step]? = some percent ∧ percent < 100 ∧
      (r.state = .canary ∧ step = r.step + 1 ∨ r.state ≠ .canary ∧ step = 0) := by
  cases dec with
  | advance p s =>
    obtain ⟨rfl, rfl⟩ := Prod.mk.inj (Option.some.inj hs)
    obtain ⟨state, hstep, next, below⟩ := advances_step hd
    exact ⟨next, below, .inl ⟨state, hstep⟩⟩
  | enterCanary =>
    have hcanary : r.state ≠ .canary := by
      cases decision_decided hd with
      | ends he => obtain ⟨_, he⟩ := he; cases he
      | approved state => rw [state]; decide
      | ticked health judged grounds =>
        cases grounds with
        | shadow state => rw [state]; decide
        | tested state => exact state.2
        | ends he => rcases he with he | he | ⟨_, he⟩ <;> cases he
    simp only [Decision.splits] at hs
    split at hs
    · rename_i first hfirst
      split at hs
      · cases hs
      · rename_i hlt
        obtain ⟨rfl, rfl⟩ := Prod.mk.inj (Option.some.inj hs)
        exact ⟨hfirst, Nat.lt_of_not_le hlt, .inr ⟨hcanary, rfl⟩⟩
    · cases hs
  | _ => cases hs

theorem RolloutCall.awaits_from (ha : r.state.active = true) (hd : c.decision d r = some .awaitApproval) :
    r.state = .shadow ∨ r.state = .ab := by
  cases decision_decided hd with
  | ends he => obtain ⟨_, he⟩ := he; cases he
  | approved _ he => rcases he with he | he | he <;> cases he
  | ticked health judged grounds =>
    cases grounds with
    | shadow state => exact .inl state
    | tested state =>
      have hawaits : r.state ≠ .awaitingApproval := by
        intro hs
        cases c with
        | tick => simp [judgement, hs] at judged
        | approve | reject => simp [judgement] at judged
      cases hs : r.state with
      | ab => exact .inr rfl
      | shadow => exact absurd hs state.1
      | canary => exact absurd hs state.2
      | awaitingApproval => exact absurd hs hawaits
      | _ => rw [hs] at ha; cases ha
    | ends he => rcases he with he | he | ⟨_, he⟩ <;> cases he

/-- What moves a rollout that is on course leaves it on course, with fewer
moves left; a canary is moved to a larger share, or ended. -/
structure Moved (r r' : Rollout) : Prop where
  position : r'.position ≠ r.position
  onCourse : OnCourse False r'
  fewer : r'.movesLeft < r.movesLeft
  larger : r.state = .canary → r'.state = .canary ∧ r.percent < r'.percent ∨ r'.state.active = false

theorem OnCourse.move (h : OnCourse lost r) (hm : RowMove d id w c r r') : r.Same r' ∨ Moved r r' := by
  have hactive : ∀ s : RolloutState, r.state.active = true → s.active = false → s ≠ r.state := by
    intro s ha hs he
    rw [he, ha] at hs
    cases hs
  cases hm with
  | kept hs => exact .inl hs
  | ended hf enters dec decided state =>
    have hended := RolloutCall.not_active_of_ended decided state
    have hne := hactive _ enters.active hended
    refine .inr ⟨fun he => hne (congrArg Prod.fst he), fun hs => ?_, ?_, fun _ => .inr hended⟩
    · rw [hs] at hended
      cases hended
    · rw [Rollout.movesLeft_ended hended]
      unfold Rollout.movesLeft
      have ha := enters.active
      cases hs : r.state with
      | canary => have := h.next hs; dsimp only; omega
      | shadow | ab | awaitingApproval => dsimp only; omega
      | _ => rw [hs] at ha; cases ha
  | split hf enters dec decided percent step splits readBack state at_ started =>
    obtain ⟨hp, hlt, hfrom⟩ := RolloutCall.splits_step decided splits
    have honstep : OnCourse False r' := fun _ => .inl (by rw [hf.policy, at_.1, at_.2]; exact ⟨hp, hlt⟩)
    have hlen := honstep.next state
    rw [hf.policy, at_.2] at hlen
    have hleft : r'.movesLeft = r.policy.canarySteps.length - step := by
      simp [Rollout.movesLeft, state, hf.policy, at_.2]
    rcases hfrom with ⟨hs, rfl⟩ | ⟨hs, rfl⟩
    · refine .inr ⟨fun he => ?_, honstep, ?_, fun _ => .inl ⟨state, ?_⟩⟩
      · have := congrArg (fun p => p.2.1) he
        simp [Rollout.position, at_.2] at this
      · rw [hleft, Rollout.movesLeft, hs]
        dsimp only
        omega
      · rw [at_.1]
        rcases h hs with ⟨hp', -⟩ | ⟨-, hzero, -, -⟩
        · exact r.policy.steps.next_gt hp' hp
        · rw [hzero]
          exact Nat.lt_of_lt_of_le Nat.zero_lt_one (r.policy.steps.range _ (List.mem_of_getElem? hp)).1
    · refine .inr ⟨fun he => hs ?_, honstep, ?_, fun h => absurd h hs⟩
      · rw [← state]
        exact (congrArg Prod.fst he).symm
      · rw [hleft]
        unfold Rollout.movesLeft
        have ha := enters.active
        cases hs' : r.state with
        | canary => exact absurd hs' hs
        | shadow | ab | awaitingApproval => dsimp only; omega
        | _ => rw [hs'] at ha; cases ha
  | awaits hf enters decided state at_ =>
    have hfrom := RolloutCall.awaits_from enters.active decided
    refine .inr ⟨fun he => ?_, fun hs => ?_, ?_, fun hs => ?_⟩
    · have he' : r'.state = r.state := congrArg Prod.fst he
      rcases hfrom with hs | hs <;> rw [state, hs] at he' <;> cases he'
    · rw [state] at hs
      cases hs
    · have hleft : r'.movesLeft = r.policy.canarySteps.length + 1 := by
        simp [Rollout.movesLeft, state, hf.policy]
      rw [hleft]
      rcases hfrom with hs | hs <;> simp [Rollout.movesLeft, hs]
    · rcases hfrom with hs' | hs' <;> rw [hs'] at hs <;> cases hs

theorem RolloutCall.decision_outOfSteps (hd : c.decision d r = some .outOfSteps) : r.state = .canary := by
  cases c with
  | tick f now clock stable candidate =>
    simp only [decision] at hd
    split at hd
    · rw [Option.some.injEq, Rollout.decideApproval] at hd
      split at hd <;> cases hd
    · split at hd
      · rw [Option.some.injEq, Rollout.decide] at hd
        split at hd
        · cases hd
        · split at hd
          · unfold Rollout.decideShadow at hd
            split at hd
            · split at hd <;> cases hd
            · split at hd <;> cases hd
          · assumption
          · unfold Rollout.decideAb at hd
            split at hd
            · cases hd
            · split at hd <;> cases hd
      · cases hd
  | approve f now clock actor =>
    simp only [decision] at hd
    split at hd
    · cases hd
    · split at hd
      · cases hd
      · split at hd <;> cases hd
  | reject => cases hd

theorem RolloutCall.reads_step {i : Nat} (hi : i ∈ c.reads d r) : i = 0 ∨ r.state = .canary ∧ i = r.step + 1 := by
  unfold reads at hi
  split at hi
  · exact .inl (Option.mem_some.mp hi).symm
  · rename_i percent step hd
    exact .inr ⟨(advances_step hd).1, (Option.mem_some.mp hi).symm⟩
  · rename_i hd
    exact .inr ⟨decision_outOfSteps hd, (Option.mem_some.mp hi).symm⟩
  · split at hi
    · exact .inr ⟨‹_›, (Option.mem_some.mp hi).symm⟩
    · cases hi
  · cases hi

theorem OnCourse.reads (h : OnCourse lost r) : ∀ i ∈ c.reads d r, i < r.policy.canarySteps.length := by
  intro i hi
  rcases RolloutCall.reads_step hi with rfl | ⟨hs, rfl⟩
  · apply List.length_pos_iff.mpr
    intro hnil
    have hlast := r.policy.steps.last
    rw [hnil] at hlast
    cases hlast
  · exact h.next hs

end

/-! ## Every history -/

section
variable {σ : Type} {d : Delivery σ} {id : RolloutId} {w : World σ} {r : Rollout} {lost : Prop}

theorem RolloutCall.unrecorded (cs : List RolloutCall) (hr : w.stored.rollouts.get? id = none) :
    (afterAll d id w cs).stored.rollouts.get? id = none ∧ changes d id w cs = [] := by
  induction cs generalizing w with
  | nil => exact ⟨hr, rfl⟩
  | cons c cs ih =>
    have hrun : (c.run d id w).stored.rollouts.get? id = none := by
      have hsome : ((c.run d id w).stored.rollouts.get? id).isSome = (w.stored.rollouts.get? id).isSome := run_isSome
      rw [hr] at hsome
      simpa using hsome
    obtain ⟨hrow, hchanges⟩ := ih hrun
    exact ⟨hrow, by simp only [changes, hr, hrun, hchanges]⟩

/-- What every number of calls leaves of a rollout on course. -/
structure Ran (d : Delivery σ) (id : RolloutId) (w : World σ) (lost : Prop) (r : Rollout)
    (cs : List RolloutCall) : Prop where
  row : ∀ r', (RolloutCall.afterAll d id w cs).stored.rollouts.get? id = some r' →
    OnCourse (lost ∧ RolloutCall.changes d id w cs = []) r'
  bounded : (RolloutCall.changes d id w cs).length ≤ r.movesLeft
  larger : r.state = .canary → ∀ r' ∈ RolloutCall.changes d id w cs, r'.state = .canary → r.percent < r'.percent
  increases : (((RolloutCall.changes d id w cs).filter (·.state = .canary)).map (·.percent)).Pairwise (· < ·)

theorem OnCourse.ran (cs : List RolloutCall) (hr : w.stored.rollouts.get? id = some r) (h : OnCourse lost r) :
    Ran d id w lost r cs := by
  induction cs generalizing w r lost with
  | nil =>
    refine ⟨fun r' hr' => ?_, Nat.zero_le _, fun _ r' hr' => ?_, List.Pairwise.nil⟩
    · obtain rfl := Option.some.inj (hr.symm.trans hr')
      exact h.mono fun hl => ⟨hl, rfl⟩
    · cases hr'
  | cons c cs ih =>
    have hsome : ((c.run d id w).stored.rollouts.get? id).isSome := by
      rw [RolloutCall.run_isSome, hr]; rfl
    obtain ⟨r₁, hr₁⟩ := Option.isSome_iff_exists.mp hsome
    have hafter : RolloutCall.afterAll d id w (c :: cs) = RolloutCall.afterAll d id (c.run d id w) cs := rfl
    rcases h.move (RolloutCall.run_moves hr hr₁) with hs | hm
    · have hchanges : RolloutCall.changes d id w (c :: cs) = RolloutCall.changes d id (c.run d id w) cs := by
        simp only [RolloutCall.changes, hr, hr₁, if_pos hs.position]
      obtain ⟨row, bounded, larger, increases⟩ := ih hr₁ (h.same hs)
      refine ⟨?_, ?_, ?_, ?_⟩
      · rw [hafter, hchanges]
        exact row
      · rw [hchanges, ← hs.movesLeft]
        exact bounded
      · rw [hchanges, ← hs.state, ← hs.percent]
        exact larger
      · rw [hchanges]
        exact increases
    · have hchanges : RolloutCall.changes d id w (c :: cs) = r₁ :: RolloutCall.changes d id (c.run d id w) cs := by
        simp only [RolloutCall.changes, hr, hr₁, if_neg hm.position]
      obtain ⟨row, bounded, larger, increases⟩ := ih hr₁ hm.onCourse
      refine ⟨?_, ?_, fun hs r' hr' hs' => ?_, ?_⟩
      · rw [hafter]
        exact fun r' hr' => (row r' hr').mono fun hl => hl.1.elim
      · have := hm.fewer
        rw [hchanges, List.length_cons]
        omega
      · rw [hchanges, List.mem_cons] at hr'
        rcases hm.larger hs with ⟨hs₁, hlt⟩ | hended
        · rcases hr' with rfl | hr'
          · exact hlt
          · exact Nat.lt_trans hlt (larger hs₁ r' hr' hs')
        · rcases hr' with rfl | hr'
          · rw [hs'] at hended
            cases hended
          · -- an ended rollout is moved no more
            rw [Rollout.movesLeft_ended hended, Nat.le_zero, List.length_eq_zero_iff] at bounded
            rw [bounded] at hr'
            cases hr'
      · rw [hchanges, List.filter_cons]
        split
        · rename_i hs₁
          rw [List.map_cons, List.pairwise_cons]
          refine ⟨fun p hp => ?_, increases⟩
          obtain ⟨r', hr', rfl⟩ := List.mem_map.mp hp
          obtain ⟨hr', hs'⟩ := List.mem_filter.mp hr'
          exact larger (of_decide_eq_true hs₁) r' hr' (of_decide_eq_true hs')
        · exact increases

end

namespace Subject

section
variable {σ : Type} (d : Delivery σ) (x : Subject) (f : ControllerAnswers) (strategy : Strategy) (job : Option JobId)
  (now : Time) (w₀ : World σ) (cs : List RolloutCall)

/-- The rollout's canary steps are in order when it is started and then called
as in `cs`: what the next call reads of them is there, a canary that the
controller recorded is at its step's percentage, each entry of CANARY is at a
larger one, and the calls that moved the rollout are few. -/
structure InOrder : Prop where
  defined : ∀ (c : RolloutCall) r,
    (RolloutCall.afterAll d x.id ((start d x f strategy job now).after w₀) cs).stored.rollouts.get? x.id = some r →
    c.Enters d x.id (RolloutCall.afterAll d x.id ((start d x f strategy job now).after w₀) cs) r →
    ∀ i ∈ c.reads d r, i < r.policy.canarySteps.length
  atStep : ∀ r,
    (RolloutCall.afterAll d x.id ((start d x f strategy job now).after w₀) cs).stored.rollouts.get? x.id = some r →
    r.state = .canary →
    (x.SplitLost d f strategy job now w₀ →
      RolloutCall.changes d x.id ((start d x f strategy job now).after w₀) cs ≠ []) →
    r.policy.canarySteps[r.step]? = some r.percent
  increases : (RolloutCall.canaryEntries d x.id ((start d x f strategy job now).after w₀) cs).Pairwise (· < ·)
  bounded : (RolloutCall.changes d x.id ((start d x f strategy job now).after w₀) cs).length ≤
    d.policy.canarySteps.length + 3

end

section
variable {σ : Type} {d : Delivery σ} {x : Subject} {f : ControllerAnswers} {strategy : Strategy} {job : Option JobId}
  {now : Time} {w₀ : World σ} {cs : List RolloutCall} {r : Rollout}

theorem firstPercent_lt (h : ¬ (strategy = .canary ∧ d.policy.canarySteps = [100])) :
    firstPercent d.policy strategy < 100 := by
  by_contra hfull
  obtain rfl := full_canary (Nat.le_of_not_lt hfull)
  obtain ⟨first, hfirst, -, hlt, -⟩ := d.policy.steps.first_lt fun hs => h ⟨rfl, hs⟩
  rw [(firstPercent_canary d.policy).1, Option.some.injEq] at hfirst
  omega

theorem StartMove.onCourse (hc : ¬ (strategy = .canary ∧ d.policy.canarySteps = [100]))
    (h : x.StartMove d f strategy job now w₀ r) : OnCourse (x.SplitLost d f strategy job now w₀) r := by
  intro hs
  have hpolicy : r.policy = d.policy := h.fixed.policy
  have hfirst := firstPercent_lt hc
  rw [hpolicy]
  cases h with
  | begun h state at_ =>
    rw [state] at hs
    have hcanary : strategy = .canary := by cases strategy <;> first | rfl | cases hs
    subst hcanary
    rw [at_.1, at_.2]
    exact .inl ⟨(firstPercent_canary d.policy).1, hfirst⟩
  | promoting _ _ _ full => omega
  | ended h state => rcases state with h | ⟨h, -⟩ <;> rw [h] at hs <;> cases hs
  | lost h hl =>
    have hcanary : strategy = .canary := by
      rw [h.state] at hs
      cases strategy <;> first | rfl | cases hs
    obtain ⟨_, -, -, -, hlen⟩ := d.policy.steps.first_lt fun h => hc ⟨hcanary, h⟩
    exact .inr ⟨hl, h.percent, h.step, hlen⟩

theorem in_order_of_steps (hc : ¬ (strategy = .canary ∧ d.policy.canarySteps = [100]))
    (h₀ : w₀.stored.rollouts.get? x.id = none) : x.InOrder d f strategy job now w₀ cs := by
  cases hr : ((start d x f strategy job now).after w₀).stored.rollouts.get? x.id with
  | none =>
    obtain ⟨hrow, hchanges⟩ := RolloutCall.unrecorded cs hr
    refine ⟨fun c r hr => ?_, fun r hr => ?_, ?_, ?_⟩
    · rw [hrow] at hr
      cases hr
    · rw [hrow] at hr
      cases hr
    · simp [RolloutCall.canaryEntries, hr, hchanges]
    · simp [hchanges]
  | some r₀ =>
    have hstart := start_moves h₀ hr
    have hran := OnCourse.ran (d := d) cs hr (hstart.onCourse hc)
    refine ⟨fun c r hr _ => (hran.row r hr).reads, fun r hr hs hl => ?_, ?_, ?_⟩
    · rcases hran.row r hr hs with h | ⟨⟨hlost, hchanges⟩, -⟩
      · exact h.1
      · exact absurd hchanges (hl hlost)
    · rw [RolloutCall.canaryEntries, hr, Option.toList_some, List.singleton_append, List.filter_cons]
      split
      · rename_i hs
        rw [List.map_cons, List.pairwise_cons]
        refine ⟨fun p hp => ?_, hran.increases⟩
        obtain ⟨r', hr', rfl⟩ := List.mem_map.mp hp
        obtain ⟨hr', hs'⟩ := List.mem_filter.mp hr'
        exact hran.larger (of_decide_eq_true hs) r' hr' (of_decide_eq_true hs')
      · exact hran.increases
    · have hpolicy : r₀.policy = d.policy := hstart.fixed.policy
      rw [← hpolicy]
      exact Nat.le_trans hran.bounded (Nat.le_succ_of_le r₀.movesLeft_le)

def emptyWorld (o : Outside σ) : World σ := ⟨o, ⟨.empty, .empty, []⟩, ⟨.empty, .empty, []⟩⟩

/-- The promotion of a model that is not known raises once it is planned. -/
theorem promote_unknown {w : World σ} {id : RolloutId} {actor : String} (hr : w.session.rollouts.get? id = some r)
    (hm : w.session.db.models.get? r.modelId = none) (hp : w.session.promotions = []) :
    Ensures (d.promote {} id now actor) w (fun _ _ => False) (fun _ w' => w'.stored = w.session) fun _ => False := by
  refine .bind (commit_ok (.bind (getRollout_ends (r := r) ?_ ?_)))
  · exact hr
  refine .bind (.handle (.bind (.bind (.get ?_))))
  have hearlier : (promotionRequest id r actor).earlier w.session = none := by
    rw [promotionRequest_earlier, hp]
    rfl
  dsimp only
  rw [hearlier]
  refine .bind (.bind (.get ?_))
  rw [show (promotionRequest id r actor).modelId = r.modelId from rfl, hm]
  refine .raise ?_
  rw [if_neg (show ¬ (ErrorClass.modelNotFound = .promotion ∨ ErrorClass.modelNotFound.isConflict = true) by decide)]
  exact .raise rfl

/-- A promotion that raises leaves the canary at 0 percent, where it was recorded. -/
theorem full_start_stays {o : Outside σ} (hfull : firstPercent d.policy .canary = 100) :
    ∃ r, ((start d x {} .canary none 0).after (emptyWorld o)).stored.rollouts.get? x.id = some r ∧
      r.policy = d.policy ∧ r.state = .canary ∧ r.step = 0 ∧ r.percent = 0 := by
  let recorded : World σ → Prop := fun w => ∃ r, w.stored.rollouts.get? x.id = some r ∧
    r.policy = d.policy ∧ r.state = .canary ∧ r.step = 0 ∧ r.percent = 0
  suffices hstart : Ensures (start d x {} .canary none 0) (emptyWorld o) (fun _ _ => False)
    (fun _ => recorded) fun _ => False from
    Ensures.after (hstart.mono (fun _ _ h => h.elim) (fun _ _ h => h) fun _ h => h.elim)
  refine .bind (.get ?_)
  rw [if_neg (by simp [hasActiveRollout, emptyWorld, Table.empty])]
  split
  · rename_i hins
    simp [emptyWorld, Table.empty, Table.insert?] at hins
  rename_i rollouts hins
  have hget := Table.get?_insert? hins x.id
  rw [if_pos rfl] at hget
  refine .bind (.modify ?_)
  dsimp only
  rw [if_pos (by rw [hfull])]
  refine .bind (.modify (Ensures.mono (promote_unknown
    (r := (x.inserted d .canary none 0).record .canary 0 "system" none none none)
    ?_ rfl rfl) (fun _ _ h => h) ?_ fun _ h => h))
  · simp [hget, inserted, initialState]
  · intro e w' hw'
    refine ⟨(x.inserted d .canary none 0).record .canary 0 "system" none none none, ?_, rfl, rfl, rfl, rfl⟩
    rw [hw']
    simp [hget, inserted, initialState]

/-- Its first split, had it one, would not be lost: it would not find the model. -/
theorem not_splitLost {o : Outside σ} : ¬ x.SplitLost d {} .canary none 0 (emptyWorld o) := by
  rintro ⟨e, w₁, e', w₂, hsplit, he, -⟩
  have hget : (x.opened d .canary none 0 (emptyWorld o)).session.rollouts.get? x.id = some (x.inserted d .canary none 0) := by
    cases hins : (Table.empty : Table RolloutId Rollout).insert? x.id (x.inserted d .canary none 0) with
    | none => simp [Table.empty, Table.insert?] at hins
    | some rollouts =>
      simp only [opened, emptyWorld, hins, Option.getD_some]
      rw [Table.get?_insert? hins, if_pos rfl]
  have hraised : Ensures (d.splitTraffic {} .ok .ok x.id (firstPercent d.policy .canary))
      (x.opened d .canary none 0 (emptyWorld o)) (fun _ _ => True) (fun e _ => e.cls = .modelNotFound) fun _ => True := by
    exact .bind (getRollout_ends hget (.bind (.bind (.get (.raise rfl)))))
  unfold Ensures at hraised
  rw [hsplit] at hraised
  rw [show e.cls = .modelNotFound from hraised] at he
  cases he

/-- The rollout's canary steps are in order in every history exactly when it is
no canary whose only step is 100 percent. -/
theorem in_order_iff (o : Outside σ) : (∀ (x : Subject) (f : ControllerAnswers) (job : Option JobId) (now : Time)
      (w₀ : World σ) (cs : List RolloutCall), w₀.stored.rollouts.get? x.id = none →
        x.InOrder d f strategy job now w₀ cs) ↔
    ¬ (strategy = .canary ∧ d.policy.canarySteps = [100]) := by
  constructor
  · rintro h ⟨rfl, hsteps⟩
    have hfull : firstPercent d.policy .canary = 100 := by simp [firstPercent, hsteps]
    let x : Subject := ⟨"r1", "m", "m", "1", "2", by decide⟩
    obtain ⟨r, hr, hpolicy, hs, hstep, hpercent⟩ := full_start_stays (d := d) (x := x) (o := o) hfull
    have hat := (h x {} none 0 (emptyWorld o) [] rfl).atStep r hr hs fun hl => absurd hl not_splitLost
    rw [hpolicy, hsteps, hstep, hpercent] at hat
    cases hat
  · intro hc x f job now w₀ cs h₀
    exact in_order_of_steps hc h₀

end

def singleStepDelivery : Delivery Unit :=
  { aliasDelivery with policy := { DeliveryPolicy.defaults with
      canarySteps := [100], steps := ⟨by decide, by decide, by decide⟩ } }

def downloadFailed : AdaptationError := ⟨.artifactError, "artifact download failed", []⟩

theorem downloadFailed_port : downloadFailed.cls.framework = true ∧ downloadFailed.cls ≠ .modelNotFound := by decide

def noArtifact : ControllerAnswers :=
  { promote := { verify := { download := .before ⟨downloadFailed, downloadFailed_port⟩ } } }

/-- The promotion of the only step raised; the next healthy tick reads a step
that is not there. -/
theorem steps_run_out : ∃ c r,
    ((start singleStepDelivery deliver2 noArtifact .canary (some "a1") 0).after cellLoadWorld).stored.rollouts.get?
      "r1" = some r ∧
    r.state = .canary ∧ r.step = 0 ∧ r.percent = 0 ∧ r.policy.canarySteps = [100] ∧
    RolloutCall.reads singleStepDelivery r c = some 1 ∧
    ¬ deliver2.InOrder singleStepDelivery noArtifact .canary (some "a1") 0 cellLoadWorld [] := by
  obtain ⟨r, hr, hp⟩ :=
    (Option.any_eq_true _ _).mp (show (((start singleStepDelivery deliver2 noArtifact .canary (some "a1")
    0).after cellLoadWorld).stored.rollouts.get? "r1").any (fun r => r.state = .canary && decide (r.step = 0) &&
      decide (r.percent = 0) && decide (r.policy.canarySteps = [100]) &&
      lockFree singleStepDelivery ((start singleStepDelivery deliver2 noArtifact .canary (some "a1") 0).after
        cellLoadWorld).stored r.modelId (.rollout "r1") 600000000 &&
      decide (RolloutCall.reads singleStepDelivery r (healthyTick 1) = some 1)) = true by decide +kernel)
  simp only [Bool.and_eq_true, decide_eq_true_eq] at hp
  obtain ⟨⟨⟨⟨⟨hs, hstep⟩, hpercent⟩, hsteps⟩, hfree⟩, hreads⟩ := hp
  refine ⟨healthyTick 1, r, hr, hs, hstep, hpercent, hsteps, hreads, fun h => ?_⟩
  have hlt := h.defined (healthyTick 1) r hr ⟨by rw [hs]; rfl, hfree, rfl⟩ 1 hreads
  rw [hsteps] at hlt
  exact absurd hlt (by decide)

end Subject

end OranAdapt
