import OranAdapt.KServeDeployment
import OranAdapt.RolloutMoves

/-!
# Traffic a start leaves behind

The first split is made before the rollout is committed. However a start ends,
candidate traffic is left without a rollout that some later call would undo
exactly when a failure that is no DeploymentError leads out of it with traffic
on the candidate, or when a promotion that fails leaves the candidate serving.
-/

namespace OranAdapt

open Effects World Outside Delivery

namespace Subject

variable {σ : Type} (d : Delivery σ) (x : Subject)

def CandidateTraffic (o : Outside σ) : Prop :=
  d.port.splitTo o x.name = some x.candidate ∨ d.port.served o x.name = some x.candidate

instance (o : Outside σ) : Decidable (x.CandidateTraffic d o) := inferInstanceAs (Decidable (_ ∨ _))

/-- Candidate traffic belongs to an active rollout of the candidate, or the
rollout promoted it; a rollout that rolled back has none. -/
structure Tracked (s : Records) (o : Outside σ) : Prop where
  owned : x.CandidateTraffic d o →
    (∃ id r, s.rollouts.get? id = some r ∧ r.modelId = x.model ∧ r.candidateVersion = x.candidate ∧
      r.state.active = true) ∨ ∃ r, s.rollouts.get? x.id = some r ∧ r.state = .promoted
  removed : ∀ r, s.rollouts.get? x.id = some r → r.state = .rolledBack → ¬ x.CandidateTraffic d o

def Solo (s : Records) (_ : Outside σ) : Prop :=
  ∀ id r, s.rollouts.get? id = some r → r.modelId = x.model → r.state.active = true → id = x.id

variable (f : ControllerAnswers) (strategy : Strategy) (job : Option JobId) (now : Time)

/-- The rollout as it is when its promotion starts: the canary of one step. -/
def promoting : Rollout := (x.inserted d strategy job now).record (initialState strategy) now "system" none none none

/-- The world in which the start promotes: its rollout is committed. -/
def planned (w : World σ) : World σ :=
  let s := { (x.opened d strategy job now w).session with
    rollouts := (x.opened d strategy job now w).session.rollouts.modify x.id fun r =>
      r.record (initialState strategy) now "system" none none none }
  { w with stored := s, session := s }

/-- What goes wrong in a start that begins. -/
inductive LeavesTraffic (w : World σ) : Prop where
  /-- the first split fails in another way than by a DeploymentError -/
  | split (begins : hasActiveRollout w.session x.model = false) (e : AdaptationError) (w₁ : World σ)
      (part : 0 < firstPercent d.policy strategy ∧ firstPercent d.policy strategy < 100)
      (fails : d.splitTraffic f.split f.stableTarget f.candidateTarget x.id (firstPercent d.policy strategy)
        (x.opened d strategy job now w) = (.raised e, w₁)) (other : e.cls ≠ .deployment)
      (left : x.CandidateTraffic d w₁.outside)
  /-- it fails by one, and its undo in another way -/
  | undo (begins : hasActiveRollout w.session x.model = false) (e : AdaptationError) (w₁ : World σ)
      (part : 0 < firstPercent d.policy strategy ∧ firstPercent d.policy strategy < 100)
      (fails : d.splitTraffic f.split f.stableTarget f.candidateTarget x.id (firstPercent d.policy strategy)
        (x.opened d strategy job now w) = (.raised e, w₁)) (cls : e.cls = .deployment)
      (e' : AdaptationError) (w₂ : World σ) (undoFails : d.undoTraffic f x.id w₁ = (.raised e', w₂))
      (other : e'.cls ≠ .deployment) (left : x.CandidateTraffic d w₂.outside)
  /-- the promotion at once fails, and what the undo finds to do leaves the candidate serving -/
  | promotion (begins : hasActiveRollout w.session x.model = false) (e : AdaptationError) (w₁ w₂ : World σ)
      (full : 100 ≤ firstPercent d.policy strategy)
      (fails : d.promoteVersion f.promote (promotionRequest x.id (x.promoting d strategy job now) "system")
        (x.planned d strategy job now w) = (.raised e, w₁)) (cls : e.cls = .promotion ∨ e.cls.isConflict)
      (undone : d.undoTraffic f x.id { w₁ with session := w₁.stored } = (.done (), w₂))
      (left : x.CandidateTraffic d w₂.outside)

section
variable {d x} {w w' : World σ} {s : Records} {o : Outside σ} {r r' : Rollout}

theorem Tracked.of_clean (h : ¬ x.CandidateTraffic d o) : x.Tracked d s o := ⟨fun h' => absurd h' h, fun _ _ _ => h⟩

theorem Tracked.of_row (hr : s.rollouts.get? x.id = some r) (hm : r.modelId = x.model)
    (hc : r.candidateVersion = x.candidate) (hs : r.state.active = true ∨ r.state = .promoted) : x.Tracked d s o := by
  refine ⟨fun _ => ?_, fun r' hr' hs' => ?_⟩
  · rcases hs with hs | hs
    · exact .inl ⟨x.id, r, hr, hm, hc, hs⟩
    · exact .inr ⟨r, hr, hs⟩
  · obtain rfl := Option.some.inj (hr.symm.trans hr')
    rw [hs'] at hs
    rcases hs with hs | hs <;> cases hs

/-- Without a row of its own that is active or promoted, nothing may be left. -/
theorem tracked_iff (hsolo : x.Solo s o)
    (h : ∀ r, s.rollouts.get? x.id = some r → r.state.active = false ∧ r.state ≠ .promoted) :
    x.Tracked d s o ↔ ¬ x.CandidateTraffic d o := by
  refine ⟨fun ht hc => ?_, .of_clean⟩
  rcases ht.owned hc with ⟨id, r, hr, hm, -, ha⟩ | ⟨r, hr, hs⟩
  · obtain rfl := hsolo id r hr hm ha
    rw [(h r hr).1] at ha
    cases ha
  · exact (h r hr).2 hs

/-! ## The undo -/

/-- The undo finds the traffic there is: the backend splits, and the split is
recorded or visible. -/
def Findable (d : Delivery σ) (x : Subject) (r : Rollout) (o : Outside σ) : Prop :=
  x.CandidateTraffic d o → d.port.splitsTraffic = true ∧ (0 < r.percent ∨ (d.port.splitTo o x.name).isSome)

theorem findable_of_moved (h : TrafficMoved d x.name r w w') (hst : r.stableVersion = some x.stable)
    (hclean : ¬ x.CandidateTraffic d w.outside) : Findable d x r w'.outside := by
  intro hc
  cases h with
  | same => exact absurd hc hclean
  | moved sv c o' stable splits hm hl =>
    refine ⟨splits, .inr ?_⟩
    rcases hl with hl | ⟨-, hl⟩ | ⟨hserved, hsplit⟩
    · rcases hc with hc | hc
      · rw [hc]; rfl
      · obtain rfl := Option.some.inj (hst.symm.trans stable)
        exact absurd (Option.some.inj (hl.symm.trans hc)) x.differ
    · exact hl
    · refine absurd ?_ hclean
      rw [CandidateTraffic, ← hserved, ← hsplit]
      exact hc

theorem undoTraffic_clears (hP : d.port.Lawful d.settings.liveAlias) (hr : w.session.rollouts.get? x.id = some r)
    (hst : r.stableVersion = some x.stable)
    (hname : ∀ m, w.session.db.models.get? r.modelId = some m → m.mlflowModelName = x.name)
    (hf : Findable d x r w.outside) : Ensures (d.undoTraffic f x.id) w
      (fun _ w' => ¬ x.CandidateTraffic d w'.outside) (fun _ _ => True) fun _ => True := by
  have hsplit : Ensures (d.splitTraffic f.undo f.undoTarget .ok x.id 0) w
      (fun _ w' => ¬ x.CandidateTraffic d w'.outside) (fun _ _ => True) fun _ => True := by
    refine (OranAdapt.splitTraffic_ends hP hr hname).mono ?_ (fun _ _ _ => trivial) fun _ _ => trivial
    rintro _ w' ⟨-, -, h⟩ hc
    obtain ⟨hserved, hto⟩ := h rfl
    rcases hc with hc | hc
    · rw [hto] at hc; cases hc
    · rw [hserved, hst] at hc
      exact x.differ (Option.some.inj hc)
  refine .bind (getRollout_ends hr ?_)
  split
  · rename_i hno
    refine .ret fun hc => ?_
    rcases hno with hno | hno
    · rw [(hf hc).1] at hno; cases hno
    · rw [hst] at hno; cases hno
  · split
    · exact hsplit
    · rename_i hp
      refine .bind (nameOf_ends (fun m hm => ?_) fun _ => trivial)
      rw [hname m hm]
      refine .bind (reach_ends ((hP.traffic f.traffic x.name w.outside).mono ?_ (fun _ _ _ => trivial) fun _ _ => trivial))
      rintro t _ ⟨rfl, ht⟩
      refine .skipIf (fun hn hc => ?_) fun _ => hsplit
      rcases (hf hc).2 with h | h
      · exact hp h
      · rw [← ht, hn] at h; cases h

/-! ## The start -/

variable {f strategy job now}

def Recorded (x : Subject) (r : Rollout) : World σ → Prop :=
  Both fun s o => (∃ r', s.rollouts.get? x.id = some r' ∧ r.Same r') ∧ x.Solo s o

theorem Solo.edited (h : x.Solo s o) (g : Rollout → Rollout) :
    x.Solo { s with rollouts := s.rollouts.modify x.id g } o := by
  intro id r hr hm ha
  by_cases hid : id = x.id
  · exact hid
  · rw [Table.get?_modify, if_neg hid] at hr
    exact h id r hr hm ha

theorem recorded_across (r : Rollout) : AcrossCommits (Recorded (σ := σ) x r) x.id where
  same h h' hs := by
    obtain ⟨⟨hr, hsolo⟩, hr', hsolo'⟩ := hs
    exact ⟨⟨by rw [h.rollouts]; exact hr, fun id r hr => hsolo id r (by rw [← h.rollouts]; exact hr)⟩,
      by rw [h'.rollouts]; exact hr', fun id r hr => hsolo' id r (by rw [← h'.rollouts]; exact hr)⟩
  edited g hg hs := by
    obtain ⟨h, ⟨r', hr', hsame⟩, hsolo⟩ := hs
    exact ⟨h, ⟨g r', by simp [hr'], hsame.trans (hg r')⟩, hsolo.edited g⟩
  commits hs := ⟨hs.2, hs.2⟩
  rollsBack hs := ⟨hs.1, hs.1⟩

theorem Recorded.tracked (h : Recorded x r w) (hm : r.modelId = x.model) (hc : r.candidateVersion = x.candidate)
    (ha : r.state.active = true) : x.Tracked d w.stored w.outside := by
  obtain ⟨⟨r', hr', hsame⟩, -⟩ := h.1
  exact .of_row hr' (hsame.modelId.trans hm) (hsame.candidate.trans hc) (.inl (by rw [hsame.state]; exact ha))

/-- Nothing is committed of the rollout yet; the session holds it as it was inserted. -/
structure Opened (d : Delivery σ) (x : Subject) (strategy : Strategy) (job : Option JobId) (now : Time) (w w' : World σ) :
    Prop where
  stored : w'.stored = w.stored
  session : w'.session = (x.opened d strategy job now w).session

theorem Opened.inward : Inward (Opened d x strategy job now w) := fun _ _ h => ⟨h.stored, h.session⟩

structure Begins (d : Delivery σ) (x : Subject) (w : World σ) : Prop where
  absent : w.stored.rollouts.get? x.id = none
  same : w.session.rollouts = w.stored.rollouts
  named : ∀ m, w.session.db.models.get? x.model = some m → m.mlflowModelName = x.name
  free : hasActiveRollout w.session x.model = false
  clean : ¬ x.CandidateTraffic d w.outside

theorem solo_of_free (h : hasActiveRollout s x.model = false) : x.Solo s o := by
  intro id r hr hm ha
  unfold hasActiveRollout at h
  rw [List.any_eq_false] at h
  have := h (id, r) (Table.mem_rows.mpr hr)
  simp [hm, ha] at this

theorem Begins.opened_row (h : Begins d x w) (h' : Opened d x strategy job now w w') :
    w'.session.rollouts.get? x.id = some (x.inserted d strategy job now) ∧ x.Solo w'.session o := by
  have habsent : w.session.rollouts.get? x.id = none := by rw [h.same]; exact h.absent
  obtain ⟨t, ht⟩ := Option.ne_none_iff_exists'.mp fun hn =>
    Table.insert?_eq_none (r := x.inserted d strategy job now).mp hn habsent
  have hget := fun id => Table.get?_insert? ht id
  rw [h'.session]
  have ho : (x.opened d strategy job now w).session.rollouts = t := by
    unfold opened
    rw [ht]
    rfl
  refine ⟨?_, fun id r hr hm ha => ?_⟩
  · rw [ho, hget, if_pos rfl]
  · by_cases hid : id = x.id
    · exact hid
    · rw [ho, hget, if_neg hid] at hr
      exact solo_of_free (x := x) (o := o) h.free id r hr hm ha

theorem Begins.unrecorded (h : Begins d x w) (h' : Opened d x strategy job now w w') :
    x.Tracked d w'.stored w'.outside ↔ ¬ x.CandidateTraffic d w'.outside := by
  rw [h'.stored]
  refine tracked_iff ?_ fun r hr => ?_
  · intro id r hr hm ha
    rw [← h.same] at hr
    exact solo_of_free (x := x) (o := w.outside) h.free id r hr hm ha
  · rw [h.absent] at hr
    cases hr

/-- Only ports fail: what the start commits, it commits. -/
structure Commits (f : ControllerAnswers) : Prop where
  plan : f.plan = .ok
  record : f.record = .ok
  note : f.note = .ok

theorem recordAs_ends {to_ : RolloutState} {percent step : Option Nat} {deadline : Option Time} {actor : String}
    (hf : Commits f) (hr : w.session.rollouts.get? x.id = some r) (hsolo : x.Solo w.session w.outside)
    {D : Unit → World σ → Prop} {R : AdaptationError → World σ → Prop} {S : World σ → Prop}
    (hD : ∀ w' : World σ, w'.outside = w.outside →
      w'.stored.rollouts.get? x.id = some (r.record to_ now actor percent step deadline) →
      x.Solo w'.stored w'.outside → D () w') :
    Ensures (editRollout x.id (fun r => r.record to_ now actor percent step deadline) >>= fun _ =>
      commit f.record) w D R S := by
  rw [hf.record]
  exact .bind (.modify (commit_ok (hD _ rfl (by simp [hr]) (hsolo.edited _))))

theorem firstSplitFailed_tracks (hP : d.port.Lawful d.settings.liveAlias) (hf : Commits f) (h : Begins d x w)
    (hpart : 0 < firstPercent d.policy strategy ∧ firstPercent d.policy strategy < 100)
    {w₁ : World σ} {e : AdaptationError}
    (hfails : d.splitTraffic f.split f.stableTarget f.candidateTarget x.id (firstPercent d.policy strategy)
      (x.opened d strategy job now w) = (.raised e, w₁)) (h₁ : Opened d x strategy job now w w₁)
    (hfind : Findable d x (x.inserted d strategy job now) w₁.outside) :
    Ensures (d.firstSplitFailed f x.id now e) w₁
      (fun _ w' => x.Tracked d w'.stored w'.outside ↔ ¬ x.LeavesTraffic d f strategy job now w)
      (fun _ w' => x.Tracked d w'.stored w'.outside ↔ ¬ x.LeavesTraffic d f strategy job now w) fun _ => True := by
  obtain ⟨hr, hsolo⟩ := h.opened_row (o := w₁.outside) h₁
  unfold firstSplitFailed
  split
  · rename_i he
    -- what the undo ends with, and what goes wrong then
    have hundo : Ensures (d.undoTraffic f x.id) w₁
        (fun _ w₂ => Opened d x strategy job now w w₂ ∧ ¬ x.CandidateTraffic d w₂.outside ∧
          ¬ x.LeavesTraffic d f strategy job now w)
        (fun e' w₂ => Opened d x strategy job now w w₂ ∧
          (x.LeavesTraffic d f strategy job now w ↔ e'.cls ≠ .deployment ∧ x.CandidateTraffic d w₂.outside))
        fun _ => True := by
      refine ((Opened.inward.undoTraffic f w₁ h₁).and ((undoTraffic_clears f hP hr rfl ?_ hfind).and (.self _ _))).mono
        ?_ ?_ fun _ _ => trivial
      · intro m hm
        rw [h₁.session] at hm
        exact h.named m hm
      · rintro _ w₂ ⟨h₂, hclear, hdone⟩
        refine ⟨h₂, hclear, fun hl => ?_⟩
        cases hl with
        | split _ e' w' _ fails other =>
          obtain ⟨he', -⟩ := Prod.mk.inj (hfails.symm.trans fails)
          exact other (Ended.raised.inj he' ▸ he)
        | undo _ e' w' _ fails _ e'' w'' undoFails =>
          obtain ⟨-, rfl⟩ := Prod.mk.inj (hfails.symm.trans fails)
          cases (Prod.mk.inj (hdone.symm.trans undoFails)).1
        | promotion _ _ _ _ full => exact absurd hpart.2 (Nat.not_lt_of_le full)
      · rintro e' w₂ ⟨h₂, -, hraised⟩
        refine ⟨h₂, fun hl => ?_, fun ⟨ho, hc⟩ => .undo h.free e w₁ hpart hfails he e' w₂ hraised ho hc⟩
        cases hl with
        | split _ e' w' _ fails other =>
          obtain ⟨he', -⟩ := Prod.mk.inj (hfails.symm.trans fails)
          exact absurd (Ended.raised.inj he' ▸ he) other
        | undo _ e₁ w' _ fails _ e'' w'' undoFails other left =>
          obtain ⟨-, rfl⟩ := Prod.mk.inj (hfails.symm.trans fails)
          obtain ⟨he', rfl⟩ := Prod.mk.inj (hraised.symm.trans undoFails)
          exact ⟨Ended.raised.inj he' ▸ other, left⟩
        | promotion _ _ _ _ full => exact absurd hpart.2 (Nat.not_lt_of_le full)
    refine .handle (.bind (hundo.mono ?_ ?_ fun _ _ => trivial))
    · rintro _ w₂ ⟨h₂, hclear, hno⟩
      obtain ⟨hr₂, hsolo₂⟩ := h.opened_row (o := w₂.outside) h₂
      refine recordAs_ends hf hr₂ hsolo₂ fun w' ho _ _ => ?_
      rw [ho]
      exact ⟨fun _ => hno, fun _ => .of_clean hclear⟩
    · rintro e' w₂ ⟨h₂, hleaves⟩
      split
      · rename_i he'
        obtain ⟨hr₂, -⟩ := h.opened_row (o := w₂.outside) h₂
        rw [hf.note]
        refine .bind (.modify (commit_ok ⟨fun _ hl => (hleaves.mp hl).1 he', fun _ => ?_⟩))
        exact .of_row (r := (x.inserted d strategy job now).note now "split undo failed") (by simp [hr₂]) rfl rfl
          (.inl (initialState_active strategy))
      · rename_i he'
        refine .raise ((h.unrecorded h₂).trans (not_congr ?_))
        rw [hleaves]
        exact ⟨fun hc => ⟨he', hc⟩, And.right⟩
  · rename_i he
    refine .raise ((h.unrecorded h₁).trans (not_congr ⟨fun hc => .split h.free e w₁ hpart hfails he hc,
      fun hl => ?_⟩))
    cases hl with
    | split _ e' w' _ fails _ left =>
      obtain ⟨-, rfl⟩ := Prod.mk.inj (hfails.symm.trans fails)
      exact left
    | undo _ e' w' _ fails cls =>
      obtain ⟨he', -⟩ := Prod.mk.inj (hfails.symm.trans fails)
      exact absurd (Ended.raised.inj he' ▸ cls) he
    | promotion _ _ _ _ full => exact absurd hpart.2 (Nat.not_lt_of_le full)

theorem Begins.planned_row (h : Begins d x w) : (x.planned d strategy job now w).session.rollouts.get? x.id =
    some (x.promoting d strategy job now) := by
  have hopened : Opened d x strategy job now w (x.opened d strategy job now w) := ⟨rfl, rfl⟩
  simp [planned, (h.opened_row (o := w.outside) hopened).1, promoting]

theorem Begins.planned (h : Begins d x w) :
    Recorded x (x.promoting d strategy job now) (x.planned d strategy job now w) := by
  have hopened : Opened d x strategy job now w (x.opened d strategy job now w) := ⟨rfl, rfl⟩
  have hsolo := (h.opened_row (o := w.outside) hopened).2
  exact ⟨⟨⟨_, h.planned_row, .refl _⟩, hsolo.edited _⟩, ⟨_, h.planned_row, .refl _⟩, hsolo.edited _⟩

/-- A canary of one step is promoted at once. -/
theorem promote_tracks (hf : Commits f) (h : Begins d x w) (hfull : 100 ≤ firstPercent d.policy strategy) :
    Ensures (d.promote f x.id now "system") { w with session := (x.planned d strategy job now w).session }
      (fun _ w' => x.Tracked d w'.stored w'.outside ↔ ¬ x.LeavesTraffic d f strategy job now w)
      (fun _ w' => x.Tracked d w'.stored w'.outside ↔ ¬ x.LeavesTraffic d f strategy job now w) fun _ => True := by
  let r₀ := x.promoting d strategy job now
  have ha : r₀.state.active = true := initialState_active strategy
  have hJ := recorded_across (σ := σ) (x := x) r₀
  have htracked : ∀ {w'}, Recorded x r₀ w' → x.Tracked d w'.stored w'.outside := fun h => h.tracked rfl rfl ha
  unfold Delivery.promote
  rw [hf.plan]
  refine .bind (commit_ok ?_)
  change Ensures _ (x.planned d strategy job now w) _ _ _
  refine .bind (getRollout_ends h.planned_row ?_)
  refine .bind (.handle (.bind (((hJ.promoteVersion f.promote _ _ h.planned).and (.self _ _)).mono ?_ ?_
    fun _ _ => trivial)))
  · rintro row w₁ ⟨h₁, hdone⟩
    have hno : ¬ x.LeavesTraffic d f strategy job now w := by
      intro hl
      cases hl with
      | split _ _ _ part | undo _ _ _ part => exact absurd part.2 (Nat.not_lt_of_le hfull)
      | promotion _ e w' _ _ fails => cases (Prod.mk.inj (hdone.symm.trans fails)).1
    refine .ret (.skipIf (fun hn => by cases hn) fun _ => .bind ((hJ.clearSplit f now w₁ h₁).mono ?_ ?_
      fun _ _ => trivial))
    · intro _ w₂ h₂
      obtain ⟨⟨r, hr, hsame⟩, hsolo⟩ := h₂.2
      refine recordAs_ends hf hr hsolo fun w' _ hr' _ => ⟨fun _ => hno, fun _ => .of_row hr' ?_ ?_ (.inr rfl)⟩
      · exact hsame.modelId
      · exact hsame.candidate
    · exact fun _ w₂ h₂ => ⟨fun _ => hno, fun _ => htracked h₂⟩
  · rintro e w₁ ⟨h₁, hraised⟩
    split
    · rename_i hcls
      have hback : Recorded x r₀ { w₁ with session := w₁.stored } := hJ.rollsBack h₁
      refine .bind (.modify (.bind (.bind (((hJ.undoTraffic f _ hback).and (.self _ _)).mono ?_ ?_ fun _ _ => trivial))))
      · rintro _ w₂ ⟨h₂, hundone⟩
        obtain ⟨⟨r, hr, -⟩, hsolo⟩ := h₂.2
        refine recordAs_ends hf hr hsolo fun w' ho hr' hsolo' => .ret (.skipIf (fun _ => ?_) fun hn => absurd rfl hn)
        refine (tracked_iff hsolo' fun r' h' => ?_).trans (not_congr ?_)
        · obtain rfl := Option.some.inj (hr'.symm.trans h')
          exact ⟨rfl, RolloutState.noConfusion⟩
        · rw [ho]
          refine ⟨fun hc => .promotion h.free e w₁ w₂ hfull hraised hcls hundone hc, fun hl => ?_⟩
          cases hl with
          | split _ _ _ part | undo _ _ _ part => exact absurd part.2 (Nat.not_lt_of_le hfull)
          | promotion _ e' w₁' w₂' _ fails _ undone left =>
            obtain ⟨-, rfl⟩ := Prod.mk.inj (hraised.symm.trans fails)
            obtain ⟨-, rfl⟩ := Prod.mk.inj (hundone.symm.trans undone)
            exact left
      · rintro e' w₂ ⟨h₂, hraised'⟩
        refine ⟨fun _ hl => ?_, fun _ => htracked h₂⟩
        cases hl with
        | split _ _ _ part | undo _ _ _ part => exact absurd part.2 (Nat.not_lt_of_le hfull)
        | promotion _ e' w₁' w₂' _ fails _ undone =>
          obtain ⟨-, rfl⟩ := Prod.mk.inj (hraised.symm.trans fails)
          cases (Prod.mk.inj (hraised'.symm.trans undone)).1
    · rename_i hcls
      refine .raise ⟨fun _ hl => ?_, fun _ => htracked h₁⟩
      cases hl with
      | split _ _ _ part | undo _ _ _ part => exact absurd part.2 (Nat.not_lt_of_le hfull)
      | promotion _ e' w₁' _ _ fails cls =>
        obtain ⟨he, -⟩ := Prod.mk.inj (hraised.symm.trans fails)
        exact hcls (Ended.raised.inj he ▸ cls)

theorem LeavesTraffic.free (h : x.LeavesTraffic d f strategy job now w) : hasActiveRollout w.session x.model = false := by
  cases h <;> assumption

theorem start_tracks_ends (hP : d.port.Lawful d.settings.liveAlias) (hf : Commits f)
    (hb : hasActiveRollout w.session x.model = false → Begins d x w) (hclean : ¬ x.CandidateTraffic d w.outside) :
    Ensures (start d x f strategy job now) w
      (fun _ w' => x.Tracked d w'.stored w'.outside ↔ ¬ x.LeavesTraffic d f strategy job now w)
      (fun _ w' => x.Tracked d w'.stored w'.outside ↔ ¬ x.LeavesTraffic d f strategy job now w) fun _ => True := by
  refine .bind (.get ?_)
  split
  · rename_i hactive
    refine .raise ⟨fun _ hl => ?_, fun _ => .of_clean hclean⟩
    rw [hl.free] at hactive
    cases hactive
  · rename_i hfree
    have h := hb (by simpa using hfree)
    split
    · rename_i hins
      exact absurd (h.same ▸ h.absent) (Table.insert?_eq_none.mp hins)
    · rename_i rollouts hins
      have hopened : x.opened d strategy job now w = { w with session := { w.session with rollouts := rollouts } } := by
        unfold opened
        rw [show w.session.rollouts.insert? x.id (x.inserted d strategy job now) = some rollouts from hins]
        rfl
      refine .bind (.modify ?_)
      change Ensures _ { w with session := { w.session with rollouts := rollouts } } _ _ _
      rw [← hopened]
      have h₀ : Opened d x strategy job now w (x.opened d strategy job now w) := ⟨rfl, rfl⟩
      obtain ⟨hr, hsolo⟩ := h.opened_row (o := w.outside) h₀
      dsimp only
      split
      · rename_i hfull
        have hp : Ensures (d.promote f x.id now "system") { w with session := (x.planned d strategy job now w).session }
            (fun _ w' => x.Tracked d w'.stored w'.outside ↔ ¬ x.LeavesTraffic d f strategy job now w)
            (fun _ w' => x.Tracked d w'.stored w'.outside ↔ ¬ x.LeavesTraffic d f strategy job now w) fun _ => True :=
          promote_tracks hf h hfull
        refine .bind (.modify ?_)
        exact hp
      · rename_i hbelow
        split
        · rename_i hz
          refine recordAs_ends hf hr hsolo fun w' ho _ _ => ?_
          rw [ho]
          refine ⟨fun _ hl => ?_, fun _ => .of_clean hclean⟩
          cases hl with
          | split _ _ _ part | undo _ _ _ part => exact absurd part.1 (by omega)
          | promotion _ _ _ _ full => exact hbelow full
        · rename_i hz
          have hpart : 0 < firstPercent d.policy strategy ∧ firstPercent d.policy strategy < 100 := by omega
          refine .bind (.handle (.bind
            (((Opened.inward.splitTraffic _ _ _ _ _ h₀).and ((OranAdapt.splitTraffic_ends hP hr h.named).and
            (.self _ _))).mono ?_ ?_ fun _ _ => trivial)))
          · rintro _ w₁ ⟨h₁, -, hdone⟩
            obtain ⟨hr₁, hsolo₁⟩ := h.opened_row (o := w₁.outside) h₁
            refine .ret (.skipIf (fun hn => by cases hn) fun _ => recordAs_ends hf hr₁ hsolo₁ fun w' _ hr' _ => ?_)
            refine ⟨fun _ hl => ?_, fun _ => .of_row hr' rfl rfl (.inl (initialState_active strategy))⟩
            cases hl with
            | split _ _ _ _ fails | undo _ _ _ _ fails => cases (Prod.mk.inj (hdone.symm.trans fails)).1
            | promotion _ _ _ _ full => exact hbelow full
          · rintro e w₁ ⟨h₁, hmoved, hraised⟩
            have hfind := findable_of_moved hmoved rfl (hopened ▸ hclean)
            refine .bind ((firstSplitFailed_tracks hP hf h hpart hraised h₁ hfind).mono ?_ (fun _ _ h => h) fun _ h => h)
            exact fun _ _ h => .ret (.skipIf (fun _ => h) fun hn => absurd rfl hn)

/-- Whatever port calls fail, a start that returns or raises leaves candidate
traffic without a rollout that is still to be ended exactly when a failure that
is no DeploymentError leads out of it with traffic on the candidate, or when a
promotion that fails leaves the candidate serving. -/
theorem start_tracks (hP : d.port.Lawful d.settings.liveAlias) (hf : Commits f)
    (habsent : w.stored.rollouts.get? x.id = none) (hsame : w.session.rollouts = w.stored.rollouts)
    (hname : ∀ m, w.session.db.models.get? x.model = some m → m.mlflowModelName = x.name)
    (hclean : ¬ x.CandidateTraffic d w.outside) {ended : Ended AdaptationError Unit}
    (hrun : start d x f strategy job now w = (ended, w')) (hends : ended ≠ .stopped) :
    x.Tracked d w'.stored w'.outside ↔ ¬ x.LeavesTraffic d f strategy job now w := by
  have h : Ensures (start d x f strategy job now) w
      (fun _ w' => x.Tracked d w'.stored w'.outside ↔ ¬ x.LeavesTraffic d f strategy job now w)
      (fun _ w' => x.Tracked d w'.stored w'.outside ↔ ¬ x.LeavesTraffic d f strategy job now w) fun _ => True :=
    start_tracks_ends hP hf (fun hfree => ⟨habsent, hsame, hname, hfree, hclean⟩) hclean
  unfold Ensures at h
  rw [hrun] at h
  cases ended with
  | done | raised => exact h
  | stopped => exact absurd rfl hends

end

/-! ## A split that takes effect and raises -/

def kserve : KServeDeployment := ⟨fun t => "s3://models/" ++ t.model ++ "/" ++ t.version, "sklearn"⟩

def kserveDelivery : Delivery InferenceServices where
  settings := .defaults
  port := kserve.port
  policy := .defaults
  ttest := fun _ _ => none

def kserveWorld : World InferenceServices where
  outside := ⟨threeVersions, fun m => if m = "cell-load" then some { modelVersion := some "1" } else none⟩
  stored := cellLoadRecords
  session := cellLoadRecords

/-- The update of the object takes effect and its response is lost. -/
def unreachable : PortError := ⟨⟨.deploymentUnavailable, "the Kubernetes API is not reachable", []⟩, by decide⟩

/-- The same under a controller that answers with a conflict. -/
def conflicted : PortError := ⟨⟨.deployment, "another writer changed the object during the update", []⟩, by decide⟩

def losing (e : PortError) : ControllerAnswers := { split := { set := fun i => if i = 1 then .after e else .ok } }

/-- After a DeploymentError the split is undone. -/
theorem start_tracks_conflicted : ∃ ended w',
    start kserveDelivery deliver2 (losing conflicted) .canary (some "a1") 0 kserveWorld = (ended, w') ∧
    deliver2.Tracked kserveDelivery w'.stored w'.outside := by
  have hraised : (kserveDelivery.splitTraffic (losing conflicted).split .ok .ok "r1" 5
      (deliver2.opened kserveDelivery .canary (some "a1") 0 kserveWorld)).1 = .raised conflicted.1 := by rfl
  have hundone : (kserveDelivery.undoTraffic (losing conflicted) "r1" (kserveDelivery.splitTraffic
      (losing conflicted).split .ok .ok "r1" 5
      (deliver2.opened kserveDelivery .canary (some "a1") 0 kserveWorld)).2).1.returned = true := by decide +kernel
  have hrun : start kserveDelivery deliver2 (losing conflicted) .canary (some "a1") 0 kserveWorld =
      (.done (), (start kserveDelivery deliver2 (losing conflicted) .canary (some "a1") 0).after kserveWorld) :=
    Prod.ext (by rfl) rfl
  refine ⟨_, _, hrun, (start_tracks (d := kserveDelivery) (x := deliver2) (kserve.lawful _) ⟨rfl, rfl, rfl⟩ rfl rfl
    (fun m hm => by cases hm; rfl) (by decide +kernel) hrun (by simp)).mpr fun hl => ?_⟩
  cases hl with
  | split _ e w₁ _ fails other =>
    have he : Ended.raised conflicted.1 = .raised e := hraised.symm.trans (congrArg Prod.fst fails)
    exact other (Ended.raised.inj he ▸ rfl)
  | undo _ e w₁ _ fails _ e' w₂ undoFails =>
    have hw : (kserveDelivery.splitTraffic (losing conflicted).split .ok .ok "r1" 5
      (deliver2.opened kserveDelivery .canary (some "a1") 0 kserveWorld)).2 = w₁ := congrArg Prod.snd fails
    have hreturned := hundone
    rw [hw, show kserveDelivery.undoTraffic (losing conflicted) "r1" w₁ = _ from undoFails] at hreturned
    cases hreturned
  | promotion _ _ _ _ full => exact absurd full (by decide)

/-- After a DeploymentUnavailableError the candidate keeps its 5 percent, and no
rollout is recorded. -/
theorem start_abandons_split : ∃ ended w',
    start kserveDelivery deliver2 (losing unreachable) .canary (some "a1") 0 kserveWorld = (ended, w') ∧
    ended = .raised unreachable.1 ∧ w'.stored.rollouts.rows = [] ∧
    kserveDelivery.port.splitTo w'.outside "cell-load" = some "2" ∧
    ¬ deliver2.Tracked kserveDelivery w'.stored w'.outside := by
  refine ⟨.raised unreachable.1,
    (start kserveDelivery deliver2 (losing unreachable) .canary (some "a1") 0).after kserveWorld,
    Prod.ext (by rfl) rfl, rfl, by rfl, by rfl, fun h => ?_⟩
  have hempty : ((start kserveDelivery deliver2 (losing unreachable) .canary (some "a1") 0).after
      kserveWorld).stored.rollouts = .empty := by rfl
  rcases h.owned (.inl (by rfl)) with ⟨id, r, hr, -⟩ | ⟨r, hr, -⟩
  · rw [hempty] at hr
    cases hr
  · rw [hempty] at hr
    cases hr

end Subject

end OranAdapt
