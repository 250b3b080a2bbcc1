import OranAdapt.Rollback
import OranAdapt.RolloutRuns

/-!
# LIVE and the history of promotions

Promotions record where LIVE goes. Where the serving system follows LIVE, a
traffic change writes LIVE too and records nothing, so LIVE is what the history
says as long as every traffic change finds it there already.
-/

namespace OranAdapt

open Effects World Outside Delivery

/-- A model under its name in the registry, with the version it began with. -/
structure LiveModel where
  id : ModelId
  name : String
  initial : Version

namespace LiveModel

def recorded (m : LiveModel) (s : Records) : Version :=
  ((lastAppliedPromotion s m.id).map ModelPromotion.toVersion).getD m.initial

variable {σ : Type} (d : Delivery σ) (m : LiveModel)

structure Explained (s : Records) (o : Outside σ) : Prop where
  named : ∀ i, s.db.models.get? m.id = some i → i.mlflowModelName = m.name
  live : o.live m.name d.settings.liveAlias = some (m.recorded s)

/-- LIVE is where the rollout's traffic changes put it. -/
def Follows (r : Rollout) (o : Outside σ) : Prop :=
  ∀ v ∈ r.stableVersion, o.live m.name d.settings.liveAlias = some v

def HasSplit (r : Rollout) (o : Outside σ) : Prop := 0 < r.percent ∨ (d.port.splitTo o m.name).isSome = true

def PromotesUndisturbed (id : RolloutId) (r : Rollout) (s : Records) (o : Outside σ) : Prop :=
  if (s.promotions.find? fun row => row.idempotencyKey = some (promoteKey id)).isSome then
    0 < r.percent → o.live m.name d.settings.liveAlias = some r.candidateVersion
  else m.HasSplit d r o → m.Follows d r o

def Undisturbed (id : RolloutId) (r : Rollout) (s : Records) (o : Outside σ) : Decision → Prop
  | .waiting | .awaitApproval | .outOfSteps => True
  | .endAs _ => m.HasSplit d r o → m.Follows d r o
  | .advance _ _ => m.Follows d r o
  | .promote => m.PromotesUndisturbed d id r s o
  | .enterCanary =>
    if Decision.enterCanary.promotes r then m.PromotesUndisturbed d id r s o else m.Follows d r o

/-! ## Traffic that leaves LIVE alone -/

section
variable {d m} {s s' : Records} {o o' : Outside σ} {w w' : World σ} {id : RolloutId} {r : Rollout}

theorem Explained.of_same (h : m.Explained d s o) (hp : s'.promotions = s.promotions)
    (hd : s'.db.models = s.db.models) : m.Explained d s' o := by
  refine ⟨fun i => by rw [hd]; exact h.named i, ?_⟩
  unfold recorded lastAppliedPromotion
  rw [hp]
  exact h.live

theorem blind : Blind (m.Explained d) id :=
  ⟨fun hs h => h.of_same hs.promotions hs.models, fun _ _ h => h.of_same rfl rfl⟩

/-- Only the outside changed, and LIVE did not. -/
structure SameLive (d : Delivery σ) (m : LiveModel) (w w' : World σ) : Prop where
  stored : w'.stored = w.stored
  session : w'.session = w.session
  live : w'.outside.live m.name d.settings.liveAlias = w.outside.live m.name d.settings.liveAlias

theorem SameLive.refl (w : World σ) : SameLive d m w w := ⟨rfl, rfl, rfl⟩

theorem SameLive.both (h : SameLive d m w w') (hI : Both (m.Explained d) w) : Both (m.Explained d) w' :=
  ⟨⟨h.stored ▸ hI.1.named, by rw [h.live, h.stored]; exact hI.1.live⟩,
    ⟨h.session ▸ hI.2.named, by rw [h.live, h.session]; exact hI.2.live⟩⟩

theorem SameLive.of_moved {v : Version} (hm : w.outside.Moved o' m.name d.settings.liveAlias (some v))
    (hv : w.outside.live m.name d.settings.liveAlias = some v) : SameLive d m w { w with outside := o' } := by
  refine ⟨rfl, rfl, ?_⟩
  rcases hm.live with h | h
  · exact h
  · exact h.trans hv.symm

theorem SameLive.of_traffic (h : TrafficMoved d m.name r w w') (hf : m.Follows d r w.outside) : SameLive d m w w' := by
  cases h with
  | same => exact .refl w
  | moved sv c o' stable splits hm hl => exact .of_moved hm (hf sv stable)

/-- The rollout as an action on it finds it. -/
structure Ready (d : Delivery σ) (m : LiveModel) (id : RolloutId) (r : Rollout) (w : World σ) : Prop where
  get : w.session.rollouts.get? id = some r
  model : r.modelId = m.id
  explained : Both (m.Explained d) w

theorem Ready.named (h : Ready d m id r w) (i : ModelMetadata) (hi : w.session.db.models.get? r.modelId = some i) :
    i.mlflowModelName = m.name := by
  rw [h.model] at hi
  exact h.explained.2.named i hi

variable (hP : d.port.Lawful d.settings.liveAlias) {f : ControllerAnswers} {now : Time} {actor : String}

include hP in
theorem splitTraffic_same {g : SplitAnswers} {gt gc : Answer} {percent : Nat} (h : Ready d m id r w)
    (hf : m.Follows d r w.outside) : Ensures (d.splitTraffic g gt gc id percent) w (fun _ => SameLive d m w)
      (fun _ => SameLive d m w) (SameLive d m w) :=
  (splitTraffic_ends hP h.get h.named).mono (fun _ _ h => .of_traffic h.1 hf) (fun _ _ h => .of_traffic h hf)
    fun _ h => .of_traffic h hf

include hP in
theorem undoTraffic_same (h : Ready d m id r w) (hf : m.HasSplit d r w.outside → m.Follows d r w.outside) :
    Ensures (d.undoTraffic f id) w (fun _ => SameLive d m w) (fun _ => SameLive d m w) (SameLive d m w) := by
  refine .bind (getRollout_ends h.get ?_)
  split
  · exact .ret (.refl w)
  · split
    · rename_i hp
      exact splitTraffic_same hP h (hf (.inl hp))
    · refine .bind (nameOf_ends (fun i hi => ?_) fun _ => .refl w)
      rw [h.named i hi]
      refine .bind (reach_ends ((hP.traffic f.traffic m.name w.outside).mono ?_ ?_ ?_))
      · rintro t _ ⟨rfl, ht⟩
        refine .skipIf (fun _ => .refl w) fun hc => splitTraffic_same hP h (hf (.inr ?_))
        rw [← ht]
        exact Option.isSome_iff_ne_none.mpr hc
      · rintro _ _ rfl
        exact .refl w
      · rintro _ rfl
        exact .refl w

theorem both_edited (h : Both (m.Explained d) w) (g : Rollout → Rollout) :
    Both (m.Explained d) { w with session := { w.session with rollouts := w.session.rollouts.modify id g } } :=
  ⟨h.1, h.2.of_same rfl rfl⟩

include hP in
theorem endWithoutPromotion_explained {to_ : RolloutState} (h : Ready d m id r w)
    (hf : m.HasSplit d r w.outside → m.Follows d r w.outside) :
    Ensures (d.endWithoutPromotion f id to_ now actor) w (fun _ => Both (m.Explained d))
      (fun _ => Both (m.Explained d)) (Stored (m.Explained d)) := by
  refine .bind ((undoTraffic_same hP h hf).mono ?_ (fun _ _ hs => hs.both h.explained) fun _ hs => (hs.both h.explained).1)
  exact fun _ w' hs => .bind (.modify (commit_both (both_edited (hs.both h.explained) _)))

include hP in
theorem moveTraffic_explained {percent step : Nat} (h : Ready d m id r w) (hf : m.Follows d r w.outside) :
    Ensures (d.moveTraffic f id percent step now actor) w (fun _ => Both (m.Explained d))
      (fun _ => Both (m.Explained d)) (Stored (m.Explained d)) := by
  refine .bind ((splitTraffic_same hP h hf).mono ?_ (fun _ _ hs => hs.both h.explained) fun _ hs => (hs.both h.explained).1)
  exact fun _ w' hs => .bind (.modify (commit_both (both_edited (hs.both h.explained) _)))

end

/-! ## Promotions that are recorded -/

section
variable {d m} {w w' : World σ} {id : RolloutId} {r : Rollout} {q : PromotionRequest}
  (hP : d.port.Lawful d.settings.liveAlias)

/-- A row that does not move LIVE does not change what the history says; one
that does says where LIVE went. -/
theorem recorded_append {s : Records} {row : ModelPromotion} (hm : row.modelId = m.id) :
    m.recorded { s with promotions := s.promotions ++ [row] } =
      if row.status = .applied then row.toVersion else m.recorded s := by
  unfold recorded
  rw [lastAppliedPromotion_append]
  by_cases hs : row.status = .applied
  · rw [if_pos ⟨hm, hs⟩, if_pos hs]; rfl
  · rw [if_neg fun h => hs h.2, if_neg hs]

theorem Explained.noChange {s : Records} {o : Outside σ} {row : ModelPromotion} (h : m.Explained d s o)
    (hm : row.modelId = m.id) (hs : row.status = .noChange) :
    m.Explained d { s with promotions := s.promotions ++ [row] } o :=
  ⟨h.named, by rw [recorded_append hm, if_neg (by rw [hs]; simp)]; exact h.live⟩

theorem Explained.applied {s : Records} {o o' : Outside σ} {row : ModelPromotion} (h : m.Explained d s o)
    (hm : row.modelId = m.id) (hs : row.status = .applied)
    (hl : o'.live m.name d.settings.liveAlias = some row.toVersion) :
    m.Explained d { s with promotions := s.promotions ++ [row] } o' :=
  ⟨h.named, by rw [recorded_append hm, if_pos hs]; exact hl⟩

/-- What a promotion that returns leaves. -/
structure Promoted (d : Delivery σ) (m : LiveModel) (q : PromotionRequest) (w w' : World σ) : Prop where
  explained : Both (m.Explained d) w'
  stored : w'.stored.rollouts = w.stored.rollouts
  session : w'.session.rollouts = w.stored.rollouts
  again : (q.earlier w.stored).isSome → w'.outside = w.outside
  first : q.earlier w.stored = none → w'.outside.live m.name d.settings.liveAlias = some q.version

/-- What one that raises leaves: nothing was tried, or LIVE is where it was expected. -/
structure Refused (d : Delivery σ) (m : LiveModel) (q : PromotionRequest) (w w' : World σ) : Prop where
  first : q.earlier w.stored = none
  stored : w'.stored = w.stored
  session : w'.session = w.stored
  outside : w'.outside = w.outside ∨
    w'.outside.live m.name d.settings.liveAlias = w.outside.live m.name d.settings.liveAlias ∧
      ∀ v ∈ q.expectedLive, w.outside.live m.name d.settings.liveAlias = some v

theorem Refused.explained (h : Refused d m q w w') (hI : Stored (m.Explained d) w) : Both (m.Explained d) w' := by
  have hlive : w'.outside.live m.name d.settings.liveAlias = w.outside.live m.name d.settings.liveAlias := by
    rcases h.outside with h | h
    · rw [h]
    · exact h.1
  have hE : m.Explained d w.stored w'.outside := ⟨hI.named, hlive.trans hI.live⟩
  exact ⟨h.stored ▸ hE, h.session ▸ hE⟩

theorem commit_ok {D : Unit → World σ → Prop} {R : AdaptationError → World σ → Prop} {S : World σ → Prop}
    (h : D () { w with stored := w.session }) : Ensures (commit .ok) w D R S := h

include hP in
theorem promoteVersion_explained (hq : q.modelId = m.id) (hws : w.session = w.stored) (h : Stored (m.Explained d) w) :
    Ensures (d.promoteVersion {} q) w (fun _ => Promoted d m q w) (fun _ => Refused d m q w)
      (Stored (m.Explained d)) := by
  refine .bind (.get ?_)
  rw [hws]
  cases hk : q.earlier w.stored with
  | some earlier =>
    exact .ret ⟨⟨h, hws ▸ h⟩, rfl, by rw [hws], fun _ => rfl, fun hn => absurd (hk.symm.trans hn) (by simp)⟩
  | none =>
    have hsame : Refused d m q w w := ⟨hk, rfl, hws, .inl rfl⟩
    refine .bind ?_
    unfold modelMeta
    refine .bind (.get ?_)
    rw [hws, hq]
    cases hi : w.stored.db.models.get? m.id with
    | none => exact .raise hsame
    | some i =>
      refine .ret ?_
      rw [h.named i hi]
      refine .bind (reach_ends (.within (Registry.alias?_ends.mono ?_ ?_ ?_)))
      · rintro previous _ ⟨rfl, hp⟩
        obtain rfl : previous = some (m.recorded w.stored) := hp.trans h.live
        split
        · exact .raise hsame
        rename_i hexp
        split
        · rename_i hv
          have hv : m.recorded w.stored = q.version := Option.some.inj hv
          refine .bind (.modify (.bind (commit_ok (.ret ?_))))
          have hE : ∀ row : ModelPromotion, row.modelId = m.id → row.status = .noChange →
              m.Explained d { w.stored with promotions := w.stored.promotions ++ [row] } w.outside :=
            fun _ => Explained.noChange h
          rw [hws]
          refine ⟨⟨hE _ rfl rfl, hE _ rfl rfl⟩, rfl, rfl, fun _ => rfl, fun _ => ?_⟩
          rw [← hv]
          exact h.live
        · refine (moveTo_ends hP .ok hws h.live).mono ?_ ?_ ?_
          · intro row w' ⟨⟨hrm, hst, hto, _⟩, ha⟩
            have hE := Explained.applied h (hrm.trans hq) hst (hto.symm ▸ ha.live)
            refine ⟨⟨ha.stored ▸ hE, ha.session ▸ hE⟩, by rw [ha.stored],
              by rw [ha.session], fun hs => ?_, fun _ => ha.live⟩
            rw [hk] at hs; cases hs
          · intro e w' hu
            refine ⟨hk, hu.stored, hu.session, .inr ⟨hu.outside.live.trans h.live.symm, fun v hv => ?_⟩⟩
            rw [Option.mem_def] at hv
            by_contra hne
            refine hexp ⟨by rw [hv]; simp, ?_⟩
            rw [hv]
            exact fun he => hne (h.live.trans he)
          · intro w' hh
            exact ⟨hh.1 ▸ h.named, by rw [hh.1]; exact hh.2.live⟩
      · rintro e _ ⟨rfl, -⟩
        exact hsame
      · rintro _ ⟨rfl, -⟩
        exact h

variable {f : ControllerAnswers} {now clock : Time} {actor : String}

include hP in
theorem clearSplit_explained (h : Ready d m id r w)
    (hl : 0 < r.percent → w.outside.live m.name d.settings.liveAlias = some r.candidateVersion) :
    Ensures (d.clearSplit f id now) w (fun _ => Both (m.Explained d)) (fun _ => Both (m.Explained d))
      (Stored (m.Explained d)) := by
  refine .bind (getRollout_ends h.get (.skipIf (fun _ => h.explained) fun hc => ?_))
  rw [not_not] at hc
  refine .bind (nameOf_ends (fun i hi => ?_) fun _ => h.explained)
  rw [h.named i hi]
  refine .bind (reach_ends (target_ends.mono ?_ ?_ ?_))
  · rintro live _ ⟨rfl, ht⟩
    rw [ht]
    have hmoved : ∀ o', w.outside.Moved o' m.name d.settings.liveAlias (some r.candidateVersion) →
        Both (m.Explained d) { w with outside := o' } :=
      fun o' hm => (SameLive.of_moved hm (hl hc.2)).both h.explained
    refine .handle (reach_ends ((Deployer.split_ends hP).mono ?_ ?_ ?_))
    · exact fun _ o' ⟨_, hm, _⟩ => hmoved o' hm
    · intro e o' ⟨hm, _⟩
      split
      · exact .modify (both_edited (hmoved o' hm) _)
      · exact .raise (hmoved o' hm)
    · exact fun o' ⟨hm, _⟩ => (hmoved o' hm).1
  · rintro _ _ rfl
    exact h.explained
  · rintro _ rfl
    exact h.explained.1

include hP in
/-- A promotion moves LIVE on record, or leaves it; the traffic it then clears
or undoes finds LIVE where it puts it. -/
theorem promote_explained (h : Ready d m id r w) (hu : m.PromotesUndisturbed d id r w.session w.outside) :
    Ensures (d.promote {} id now actor) w (fun _ => Both (m.Explained d))
      (fun _ => Both (m.Explained d)) (Stored (m.Explained d)) := by
  have hsession : Stored (m.Explained d) { w with stored := w.session } := h.explained.2
  refine .bind (commit_ok (.bind (getRollout_ends (w := { w with stored := w.session }) h.get ?_)))
  have hkey := promotionRequest_earlier id r actor w.session
  refine .bind (.handle (.bind ((promoteVersion_explained hP (q := promotionRequest id r actor)
    (w := { w with stored := w.session }) h.model rfl hsession).mono ?_ ?_ ?_)))
  · intro _ w' hp
    have hready : Ready d m id r w' := ⟨by rw [hp.session]; exact h.get, h.model, hp.explained⟩
    have hl : 0 < r.percent → w'.outside.live m.name d.settings.liveAlias = some r.candidateVersion := by
      intro hpercent
      unfold PromotesUndisturbed at hu
      rw [← hkey] at hu
      cases hk : (promotionRequest id r actor).earlier w.session with
      | some row =>
        rw [hk, if_pos (by rfl)] at hu
        rw [hp.again (by rw [hk]; rfl)]
        exact hu hpercent
      | none => exact hp.first hk
    refine .ret (.skipIf (fun hf => by cases hf) fun _ => ?_)
    refine .bind ((clearSplit_explained hP hready hl).mono ?_ (fun _ _ h => h) fun _ h => h)
    exact fun _ w'' hE => .bind (.modify (commit_both (both_edited hE _)))
  · intro e w' hr
    have hE : Both (m.Explained d) w' := hr.explained hsession
    split
    · have hw : w'.stored = w.session := hr.stored
      refine .bind (.modify (.bind ((endWithoutPromotion_explained hP (r := r) ?_ ?_).mono ?_ (fun _ _ h => h) fun _ h => h)))
      · exact ⟨by rw [hw]; exact h.get, h.model, ⟨hE.1, hE.1⟩⟩
      · intro hs v hv
        rcases hr.outside with ho | ⟨hlive, hexp⟩
        · dsimp only at hs ⊢
          rw [ho] at hs ⊢
          have hk : (promotionRequest id r actor).earlier w.session = none := hr.first
          unfold PromotesUndisturbed at hu
          rw [← hkey, hk, if_neg (by simp)] at hu
          exact hu hs v hv
        · exact hlive.trans (hexp v hv)
      · exact fun _ w'' hE' => .ret (.skipIf (fun _ => hE') fun hc => absurd rfl hc)
    · exact .raise hE
  · exact fun _ hs => hs

include hP in
theorem enterCanary_explained (h : Ready d m id r w) (hu : m.Undisturbed d id r w.session w.outside .enterCanary) :
    Ensures (d.enterCanary {} id now actor) w (fun _ => Both (m.Explained d))
      (fun _ => Both (m.Explained d)) (Stored (m.Explained d)) := by
  refine .bind (getRollout_ends h.get ?_)
  cases hc : r.policy.canarySteps[0]? with
  | none => exact .raise h.explained
  | some first =>
    have hpromotes : Decision.enterCanary.promotes r = decide (100 ≤ first) := by simp [Decision.promotes, hc]
    unfold Undisturbed at hu
    rw [hpromotes] at hu
    dsimp only
    split
    · rename_i hf
      rw [if_pos (by simpa using hf)] at hu
      exact promote_explained hP h hu
    · rename_i hf
      rw [if_neg (by simpa using hf)] at hu
      exact moveTraffic_explained hP h hu

theorem awaitApproval_explained (h : Both (m.Explained d) w) : Ensures (awaitApproval f id now) w
    (fun _ => Both (m.Explained d)) (fun _ => Both (m.Explained d)) (Stored (m.Explained d)) :=
  .bind (.modify (commit_both (both_edited h _)))

include hP in
theorem act_explained {dec : Decision} (h : Ready d m id r w) (hu : m.Undisturbed d id r w.session w.outside dec) :
    Ensures (d.act {} id now actor dec) w (fun _ => Both (m.Explained d)) (fun _ => Both (m.Explained d))
      (Stored (m.Explained d)) := by
  cases dec with
  | waiting => exact .ret h.explained
  | endAs state => exact endWithoutPromotion_explained hP h hu
  | promote => exact promote_explained hP h hu
  | enterCanary => exact enterCanary_explained hP h hu
  | awaitApproval => exact awaitApproval_explained h.explained
  | advance percent step => exact moveTraffic_explained hP h hu
  | outOfSteps => exact .raise h.explained

theorem Ready.edited (h : Ready d m id r w) (g : Rollout → Rollout) (hm : (g r).modelId = r.modelId) :
    Ready d m id (g r) { w with session := { w.session with rollouts := w.session.rollouts.modify id g } } :=
  ⟨by simp [h.get], hm.trans h.model, both_edited h.explained _⟩

theorem Undisturbed.decided {s s' : Records} {o : Outside σ} {dec : Decision} (h : m.Undisturbed d id r s o dec)
    (hs : s'.promotions = s.promotions) (who : Option String) :
    m.Undisturbed d id { r with decidedBy := who } s' o dec := by
  cases dec <;> simp only [Undisturbed, PromotesUndisturbed, hs] at h ⊢ <;> exact h

end

end LiveModel

/-! ## The calls on a model -/

/-- The call with everything outside working. -/
def RolloutCall.unfailing : RolloutCall → RolloutCall
  | .tick _ now clock stable candidate => .tick {} now clock stable candidate
  | .approve _ now clock actor => .approve {} now clock actor
  | .reject _ now clock actor => .reject {} now clock actor

/-- A job takes the model's lock when it is submitted and gives it back when it
ends; in between it may promote or start a rollout. A rollout's call and an
operator's rollback take the lock themselves. -/
inductive LiveCall where
  | submit (job : JobId) (clock : Time)
  | promote (job : JobId) (q : PromotionRequest)
  | deliver (job : JobId) (id : RolloutId) (strategy : Strategy) (stable candidate : Version) (now : Time)
  | finish (job : JobId)
  | rollout (id : RolloutId) (c : RolloutCall)
  | rollback (q : RollbackRequest) (load : DbAnswer) (holder : String) (clock : Time) (actor : String)

def Delivery.firstDecision {σ : Type} (d : Delivery σ) (strategy : Strategy) : Decision :=
  if firstPercent d.policy strategy = 0 then .waiting
  else if 100 ≤ firstPercent d.policy strategy then .promote
  else .advance (firstPercent d.policy strategy) 0

namespace LiveModel

variable {σ : Type} (d : Delivery σ) (m : LiveModel)

def holder (w : World σ) : Option Holder := (w.stored.db.locks.get? m.id).map ModelLock.jobId

/-- One call, of this model, with everything outside working. -/
def step (w : World σ) : LiveCall → Option (World σ)
  | .submit job clock => some ((d.lock {} m.id (.job job) clock).after w.reopened)
  | .promote job q =>
    if m.holder w = some (.job job) ∧ q.modelId = m.id then some ((d.promoteVersion {} q).after w.reopened) else none
  | .deliver job id strategy stable candidate now =>
    if m.holder w = some (.job job) then
      some ((d.startRollout {} id m.id strategy stable candidate (some job) now).after w.reopened)
    else none
  | .finish job => some ((unlock {} m.id (.job job)).after w.reopened)
  | .rollout id c =>
    if ∀ r ∈ w.stored.rollouts.get? id, r.modelId = m.id then some (c.unfailing.run d id w) else none
  | .rollback q load holder clock actor =>
    some ((d.rollbackEndpoint { load := load } m.id q holder clock actor).after w.reopened)

/-- Every traffic change of the call finds LIVE where it puts it. -/
def Clean (w : World σ) : LiveCall → Prop
  | .deliver job id strategy stable candidate now =>
    m.Undisturbed d id (d.newRollout m.id strategy stable candidate (some job) now) w.stored w.outside
      (d.firstDecision strategy)
  | .rollout id c =>
    ∀ r ∈ w.stored.rollouts.get? id, r.state.active = true →
      lockFree d w.stored r.modelId (.rollout id) c.clock = true → ∀ dec ∈ c.unfailing.decision d r,
        m.Undisturbed d id r w.stored w.outside dec
  | _ => True

section
variable {d m} {w : World σ} {id : RolloutId} {r : Rollout} (hP : d.port.Lawful d.settings.liveAlias)

include hP in
theorem rollout_explained {c : RolloutCall} (h : Stored (m.Explained d) w)
    (hm : ∀ r ∈ w.stored.rollouts.get? id, r.modelId = m.id) (hc : m.Clean d w (.rollout id c)) :
    Stored (m.Explained d) (c.unfailing.run d id w) := by
  have hb : Blind (m.Explained d) id := blind
  refine RolloutCall.run_keeps hb h fun r dec hr he hd w' ho hsame hse => ?_
  have hkept : Stored (m.Explained d) w' := hb.stored h ho hsame
  have hready : Ready d m id r w' := ⟨by rw [hse, hsame.rollouts]; exact hr, hm r hr, hkept, hse ▸ hkept⟩
  have hu : m.Undisturbed d id r w'.session w'.outside dec := by
    rw [ho]
    refine Undisturbed.decided (hc r hr he.active ?_ dec hd) (hse ▸ hsame.promotions) r.decidedBy
    have hfree := he.free
    cases c <;> exact hfree
  cases c with
  | tick f now clock stable candidate => exact act_explained hP hready hu
  | approve f now clock actor =>
    cases dec with
    | endAs state => exact act_explained hP hready hu
    | _ =>
      exact .bind (.modify (act_explained hP (hready.edited (fun r => { r with decidedBy := some actor }) rfl)
        (hu.decided rfl (some actor))))
  | reject f now clock actor =>
    exact .bind (.modify (act_explained hP (hready.edited (fun r => { r with decidedBy := some actor }) rfl)
      (hu.decided rfl (some actor))))

theorem submit_explained {job : JobId} {clock : Time} (h : Stored (m.Explained d) w) :
    Stored (m.Explained d) ((d.lock {} m.id (.job job) clock).after w.reopened) := by
  have hb : Blind (m.Explained d) "" := blind
  have h' : Stored (m.Explained d) w.reopened := h
  exact Ensures.after ((lock_ends rfl).mono (fun _ _ hl => hb.stored h' hl.1 hl.2.1) (fun _ _ hl => hb.stored h' hl.1 hl.2)
    fun _ hl => hb.stored h' hl.1 hl.2)

include hP in
/-- A rollout that cannot make its first split ends with LIVE where it is. -/
theorem firstSplitFailed_explained {now : Time} {e : AdaptationError} (h : Ready d m id r w)
    (hf : m.Follows d r w.outside) : Ensures (d.firstSplitFailed {} id now e) w (fun _ => Both (m.Explained d))
      (fun _ => Both (m.Explained d)) (Stored (m.Explained d)) := by
  unfold firstSplitFailed
  split
  · refine .handle ((endWithoutPromotion_explained hP h fun _ => hf).mono (fun _ _ h => h) ?_ fun _ h => h)
    intro undo w' hE
    split
    · exact .bind (.modify (commit_both (both_edited hE _)))
    · exact .raise hE
  · exact .raise h.explained

include hP in
theorem deliver_explained {job : JobId} {strategy : Strategy} {stable candidate : Version} {now : Time}
    (h : Stored (m.Explained d) w) (hc : m.Clean d w (.deliver job id strategy stable candidate now)) :
    Stored (m.Explained d) ((d.startRollout {} id m.id strategy stable candidate (some job) now).after w.reopened) := by
  have h' : Both (m.Explained d) w.reopened := ⟨h, h⟩
  have both : ∀ {a : WorldAct σ Unit} {w' : World σ},
      Ensures a w' (fun _ => Both (m.Explained d)) (fun _ => Both (m.Explained d)) (Stored (m.Explained d)) →
      Ensures a w' (fun _ => Stored (m.Explained d)) (fun _ => Stored (m.Explained d)) (Stored (m.Explained d)) :=
    fun ha => ha.mono (fun _ _ h => h.1) (fun _ _ h => h.1) fun _ h => h
  refine Ensures.after (both (.bind (.get ?_)))
  split
  · exact .raise h'
  split
  · exact .raise h'
  rename_i rollouts hins
  have hget := Table.get?_insert? hins id
  rw [if_pos rfl] at hget
  have hready : Ready d m id (d.newRollout m.id strategy stable candidate (some job) now)
      { w with session := { w.stored with rollouts := rollouts } } := ⟨hget, rfl, h, Explained.of_same h rfl rfl⟩
  refine .bind (.modify ?_)
  unfold Clean Delivery.firstDecision at hc
  dsimp only at hc ⊢
  split
  · rename_i hp
    rw [if_neg (by omega), if_pos hp] at hc
    exact .bind (.modify (promote_explained hP (hready.edited _ rfl) hc))
  · rename_i hp
    split
    · exact .bind (.modify (commit_both (both_edited hready.explained _)))
    · rename_i h0
      rw [if_neg h0, if_neg hp] at hc
      refine .bind (.handle (.bind ((splitTraffic_same hP hready hc).mono ?_ ?_ fun _ hs => (hs.both hready.explained).1)))
      · intro _ w' hs
        refine .ret (.skipIf (fun hf => by cases hf) fun _ => ?_)
        exact .bind (.modify (commit_both (both_edited (hs.both hready.explained) _)))
      · intro e w' hs
        have hready' : Ready d m id (d.newRollout m.id strategy stable candidate (some job) now) w' :=
          ⟨by rw [hs.session]; exact hget, rfl, hs.both hready.explained⟩
        have hf : m.Follows d (d.newRollout m.id strategy stable candidate (some job) now) w'.outside :=
          fun v hv => hs.live.trans (hc v hv)
        refine .bind ((firstSplitFailed_explained hP hready' hf).mono ?_ (fun _ _ h => h) fun _ h => h)
        exact fun _ w'' hE => .ret (.skipIf (fun _ => hE) fun hn => absurd rfl hn)

include hP in
theorem promoteVersion_keeps {q : PromotionRequest} (hq : q.modelId = m.id) (hws : w.session = w.stored)
    (h : Stored (m.Explained d) w) : Ensures (d.promoteVersion {} q) w (fun _ => Both (m.Explained d))
      (fun _ => Both (m.Explained d)) (Stored (m.Explained d)) :=
  (promoteVersion_explained hP hq hws h).mono (fun _ _ hp => hp.explained) (fun _ _ hr => hr.explained h) fun _ h => h

include hP in
theorem rollbackModel_explained {f : RollbackAnswers} (hf : f.promote = {}) {q : RollbackRequest} {actor : String}
    {key : Option String} (hws : w.session = w.stored) (h : Stored (m.Explained d) w) :
    Ensures (d.rollbackModel f m.id q actor key) w (fun _ => Both (m.Explained d))
      (fun _ => Both (m.Explained d)) (Stored (m.Explained d)) := by
  have hboth : Both (m.Explained d) w := ⟨h, hws ▸ h⟩
  -- the target is looked at, at most its checksum is recorded
  have hlook : ∀ o', w.outside.Retagged o' → Both (m.Explained d) { w with outside := o' } :=
    fun o' ho => SameLive.both (w := w) ⟨rfl, rfl, ho.live ..⟩ hboth
  refine .bind ?_
  unfold modelMeta
  refine .bind (.get ?_)
  cases hi : w.session.db.models.get? m.id with
  | none => exact .raise hboth
  | some i =>
    refine .ret (.bind (.get ?_))
    split
    · exact .raise hboth
    rename_i version _
    refine .bind (reach_ends (.within (Registry.getVersion_ends.mono ?_ ?_ ?_)))
    · rintro _ _ ⟨rfl, -⟩
      refine .bind (reach_ends (.within (verify_ends.mono ?_ ?_ ?_)))
      · intro _ reg hr
        have hw := hlook { w.outside with registry := reg } ⟨hr, rfl⟩
        split
        · exact .raise hw
        · refine .bind (.handle (.perform (fun _ w' he => ?_) (fun _ => .raise hw) fun _ => hw.1))
          cases he
          refine ⟨fun _ => ?_, fun _ _ => .raise hw⟩
          rw [hf]
          exact promoteVersion_keeps hP rfl hws hw.1
      · exact fun _ reg hr => hlook _ ⟨hr, rfl⟩
      · exact fun reg hr => (hlook { w.outside with registry := reg } ⟨hr, rfl⟩).1
    · rintro _ _ rfl
      exact hboth
    · rintro _ ⟨rfl, -⟩
      exact h

include hP in
theorem rollback_explained {q : RollbackRequest} {load : DbAnswer} {holder actor : String} {clock : Time}
    (h : Stored (m.Explained d) w) : Stored (m.Explained d)
      ((d.rollbackEndpoint { load := load } m.id q holder clock actor).after w.reopened) := by
  have hb : Blind (m.Explained d) "" := blind
  have h' : Stored (m.Explained d) w.reopened := h
  refine Ensures.after (.bind ?_)
  unfold modelMeta
  refine .bind (.get ?_)
  split
  · refine .ret (.bind ((lock_ends rfl).mono ?_ (fun _ _ hl => hb.stored h' hl.1 hl.2) fun _ hl => hb.stored h' hl.1 hl.2))
    rintro locked w' ⟨ho, hsame, hse, _⟩
    have hw : Stored (m.Explained d) w' := hb.stored h' ho hsame
    split
    · exact .bind (.get (.raise hw))
    · refine .andFinally (.bind ((rollbackModel_explained hP rfl hse hw).mono ?_ ?_ fun _ h => h))
      · intro _ w'' hE
        refine .bind ((commit_both hE).mono (fun _ _ hE => ?_) (fun _ _ hE => ?_) fun _ h => h)
        · exact .ret (unlock_ends hb hE.1)
        · exact unlock_ends hb hE.1
      · exact fun _ _ hE => unlock_ends hb hE.1
  · exact .raise h'

include hP in
theorem step_explained {w' : World σ} {c : LiveCall} (h : Stored (m.Explained d) w) (hc : m.Clean d w c)
    (hs : m.step d w c = some w') : Stored (m.Explained d) w' := by
  have hb : Blind (m.Explained d) "" := blind
  have h' : Stored (m.Explained d) w.reopened := h
  cases c with
  | submit job clock =>
    cases hs
    exact submit_explained h
  | promote job q =>
    simp only [step] at hs
    split at hs
    · rename_i hg
      cases hs
      exact Ensures.after ((promoteVersion_keeps hP hg.2 rfl h').mono (fun _ _ h => h.1) (fun _ _ h => h.1) fun _ h => h)
    · cases hs
  | deliver job id strategy stable candidate now =>
    simp only [step] at hs
    split at hs <;> cases hs
    exact deliver_explained hP h hc
  | finish job =>
    cases hs
    exact Ensures.after (unlock_ends hb h')
  | rollout id c =>
    simp only [step] at hs
    split at hs
    · rename_i hm
      cases hs
      exact rollout_explained hP h hm hc
    · cases hs
  | rollback q load holder clock actor =>
    cases hs
    exact rollback_explained hP h

end

/-! ## Runs -/

section
variable {d} {m}

/-- In every run of calls on a model whose traffic changes all find LIVE where
they put it, LIVE is the version of the latest applied promotion. -/
theorem live_recorded {d : Delivery Unit} {a : RegistryAliasDeployment}
    (ha : RegistryAliasDeployment.fromSettings d.settings = some a) (hport : d.port = a.port) {w₀ w : World Unit}
    (hname : ∀ i, w₀.stored.db.models.get? m.id = some i → i.mlflowModelName = m.name)
    (hlive : w₀.outside.live m.name d.settings.liveAlias = some (m.recorded w₀.stored))
    (hrun : Runs.Steps (m.step d) (m.Clean d) w₀ w) :
    w.outside.live m.name d.settings.liveAlias = some (m.recorded w.stored) := by
  have hP : d.port.Lawful d.settings.liveAlias := by
    rw [hport]
    unfold RegistryAliasDeployment.fromSettings at ha
    split at ha <;> cases ha
    exact RegistryAliasDeployment.lawful _ d.settings.canary_live
  have hI : Stored (m.Explained d) w :=
    hrun.inv (Stored (m.Explained d)) (fun w c w' h hc hs => step_explained hP h hc hs) ⟨hname, hlive⟩
  exact hI.live

instance (r : Rollout) (o : Outside σ) : Decidable (m.Follows d r o) :=
  inferInstanceAs (Decidable (∀ v ∈ r.stableVersion, _))

instance (r : Rollout) (o : Outside σ) : Decidable (m.HasSplit d r o) := inferInstanceAs (Decidable (_ ∨ _))

instance (id : RolloutId) (r : Rollout) (s : Records) (o : Outside σ) : Decidable (m.PromotesUndisturbed d id r s o) :=
  inferInstanceAs (Decidable (if (Option.isSome _) = true then (_ < _ → _ = _) else m.HasSplit d r o → m.Follows d r o))

instance (id : RolloutId) (r : Rollout) (s : Records) (o : Outside σ) : (dec : Decision) →
    Decidable (m.Undisturbed d id r s o dec)
  | .waiting | .awaitApproval | .outOfSteps => inferInstanceAs (Decidable True)
  | .endAs _ => inferInstanceAs (Decidable (_ → _))
  | .advance _ _ => inferInstanceAs (Decidable (m.Follows d r o))
  | .promote => inferInstanceAs (Decidable (m.PromotesUndisturbed d id r s o))
  | .enterCanary => inferInstanceAs (Decidable
      (if Decision.enterCanary.promotes r then m.PromotesUndisturbed d id r s o else m.Follows d r o))

instance (w : World σ) : (c : LiveCall) → Decidable (m.Clean d w c)
  | .deliver .. => inferInstanceAs (Decidable (m.Undisturbed d _ _ _ _ _))
  | .rollout .. => inferInstanceAs (Decidable (∀ r ∈ _, _ → _ → ∀ dec ∈ _, _))
  | .submit .. | .promote .. | .finish .. | .rollback .. => inferInstanceAs (Decidable True)

end

/-! ## An operator's rollback -/

def cellLoadModel : LiveModel := ⟨"cell-load", "cell-load", "1"⟩

/-- Version 2 is promoted, and a canary of version 3 is started. -/
def canaryOf3 : List LiveCall :=
  [.submit "a1" 0, .promote "a1" ⟨"cell-load", "2", .promoteCandidate, "", "system", some "a1",
    some "1", some "a1:promote"⟩,
   .finish "a1", .submit "a2" 1, .deliver "a2" "r1" .canary "2" "3" 1, .finish "a2"]

theorem live_recorded_rejected : ∃ w, Runs.Steps (cellLoadModel.step aliasDelivery) (cellLoadModel.Clean aliasDelivery)
    cellLoadWorld w ∧ (w.stored.rollouts.get? "r1").map Rollout.state = some .rejected ∧
    w.outside.live "cell-load" "live" = some (cellLoadModel.recorded w.stored) := by
  obtain ⟨w, hrun, hw⟩ := Runs.Steps.exists_of_runs (cellLoadModel.step aliasDelivery) (cellLoadModel.Clean aliasDelivery)
    cellLoadWorld (canaryOf3 ++ [.rollout "r1" (.reject {} 2 2 "oncall")])
    (fun w => (w.stored.rollouts.get? "r1").map Rollout.state == some .rejected) (by decide +kernel)
  refine ⟨w, hrun, by simpa using hw, live_recorded (d := aliasDelivery) (m := cellLoadModel) (a := liveDeployment)
    rfl rfl (fun i hi => ?_) rfl hrun⟩
  cases hi
  rfl

/-- An operator rolls LIVE back to version 1; when the canary is rejected, its
split is undone and LIVE is version 2 again. -/
theorem rollback_undone : ∃ w, Runs.Steps (cellLoadModel.step aliasDelivery) Runs.Free cellLoadWorld w ∧
    cellLoadWorld.outside.live "cell-load" "live" = some (cellLoadModel.recorded cellLoadWorld.stored) ∧
    (lastAppliedPromotion w.stored "cell-load").map (fun row => (row.kind, row.toVersion)) = some (.rollback, "1") ∧
    w.outside.live "cell-load" "live" = some "2" := by
  obtain ⟨w, hrun, hw⟩ := Runs.Steps.exists_of_runs (cellLoadModel.step aliasDelivery) Runs.Free cellLoadWorld
    (canaryOf3 ++ [.rollback {} .ok "b1" 2 "oncall", .rollout "r1" (.reject {} 3 3 "oncall")])
    (fun w => (lastAppliedPromotion w.stored "cell-load").map (fun row => (row.kind, row.toVersion)) ==
      some (.rollback, "1") && w.outside.live "cell-load" "live" == some "2") (by decide +kernel)
  simp only [Bool.and_eq_true, beq_iff_eq] at hw
  exact ⟨w, hrun, rfl, hw⟩

end LiveModel

end OranAdapt
