import OranAdapt.AliasDeployment
import OranAdapt.Health

/-!
# The delivery store

Rollouts and promotions as they are recorded, and the world a delivery
operation runs in: the database as it is committed, the session's view of it,
and what lies outside the database.
-/

namespace OranAdapt

inductive RolloutState where
  | shadow | canary | ab | awaitingApproval
  | promoted | rolledBack | expired | rejected
deriving DecidableEq, Repr

def RolloutState.active : RolloutState → Bool
  | shadow | canary | ab | awaitingApproval => true
  | promoted | rolledBack | expired | rejected => false

def RolloutState.withdrawn : RolloutState → Bool
  | rolledBack | expired | rejected => true
  | _ => false

theorem RolloutState.not_active_of_withdrawn {s : RolloutState} (h : s.withdrawn = true) : s.active = false := by
  cases s <;> first | rfl | cases h

inductive Strategy where
  | shadow | canary | ab | manual
deriving DecidableEq, Repr

inductive HistoryEntry where
  | moved (at_ : Time) (before to_ : RolloutState) (step percent : Nat) (actor : String)
  | note (at_ : Time) (what : String)
deriving DecidableEq, Repr

structure Rollout where
  modelId : ModelId
  jobId : Option JobId
  strategy : Strategy
  state : RolloutState
  stableVersion : Option Version
  candidateVersion : Version
  step : Nat
  percent : Nat
  policy : DeliveryPolicy
  stepStartedAt : Time
  deadlineAt : Option Time
  decidedBy : Option String
  history : List HistoryEntry
  finishedAt : Option Time

inductive PromotionKind where
  | promoteCandidate | reuse | rollback
deriving DecidableEq, Repr

inductive PromotionStatus where
  | applied | noChange
deriving DecidableEq, Repr

structure ModelPromotion where
  modelId : ModelId
  kind : PromotionKind
  fromVersion : Option Version
  toVersion : Version
  status : PromotionStatus
  reason : String
  actor : String
  jobId : Option JobId
  idempotencyKey : Option String
  artifactSha256 : Option String
deriving DecidableEq, Repr

/-- The database: the job store with its locks, the rollouts, and the
promotions in the order of their ids. -/
structure Records where
  db : Db
  rollouts : Table RolloutId Rollout
  promotions : List ModelPromotion

structure World (σ : Type) where
  outside : Outside σ
  stored : Records
  session : Records

/-- How the database answers: a flush or a commit may raise, and the process
may stop before it. -/
abbrev DbAnswer := Effects.Fate AdaptationError

abbrev WorldAct (σ α : Type) := Effects.Act (World σ) AdaptationError α

instance (σ : Type) : LawfulMonad (WorldAct σ) := inferInstanceAs (LawfulMonad (Effects.Act (World σ) AdaptationError))

namespace World

open Effects

variable {σ : Type}

def reach {α : Type} (m : OutsideAct σ α) : WorldAct σ α := m.within outside fun w o => { w with outside := o }

def commit (f : DbAnswer) : WorldAct σ Unit := perform f fun w => .ok ((), { w with stored := w.session })

def flush (f : DbAnswer) : WorldAct σ Unit := perform f fun w => .ok ((), w)

def rollback : WorldAct σ Unit := .modify fun w => { w with session := w.stored }

def edit (g : Records → Records) : WorldAct σ Unit := .modify fun w => { w with session := g w.session }

/-- A new session on the committed database. -/
def reopened (w : World σ) : World σ := { w with session := w.stored }

/-! ## Their rules -/

section
variable {α : Type} {w : World σ} {D : α → World σ → Prop} {R : AdaptationError → World σ → Prop}
  {S : World σ → Prop}

theorem reach_ends {m : OutsideAct σ α} (h : Ensures m w.outside (fun a o => D a { w with outside := o })
    (fun e o => R e { w with outside := o }) (fun o => S { w with outside := o })) : Ensures (reach m) w D R S :=
  .within h

theorem reach_bind {β : Type} (m : OutsideAct σ α) (f : α → OutsideAct σ β) :
    reach (m >>= f) = reach m >>= fun a => reach (f a) := by
  funext w
  change reach (Act.bind m f) w = Act.bind (reach m) _ w
  unfold reach Act.within Act.bind
  cases hm : m w.outside with
  | mk o o' => cases o <;> simp [hm]

theorem commit_ends {f : DbAnswer} {D : Unit → World σ → Prop}
    (hok : f = .ok → D () { w with stored := w.session })
    (hafter : ∀ e, f = .after e → R e { w with stored := w.session }) (hbefore : ∀ e, R e w)
    (hstop : f = .stop → S w) : Ensures (commit f) w D R S := by
  refine .perform (fun _ w' h => ?_) hbefore hstop
  cases h
  exact ⟨hok, hafter⟩

theorem commit_cases {f : DbAnswer} {D : Unit → World σ → Prop} (hok : f = .ok → D () { w with stored := w.session })
    (hafter : ∀ e, f = .after e → R e { w with stored := w.session }) (hbefore : ∀ e, f = .before e → R e w)
    (hstop : f = .stop → S w) : Ensures (commit f) w D R S := by
  cases f with
  | ok => exact hok rfl
  | before e => exact hbefore e rfl
  | after e => exact hafter e rfl
  | stop => exact hstop rfl

theorem commit_ok {D : Unit → World σ → Prop}
    (h : D () { w with stored := w.session }) : Ensures (commit .ok) w D R S := h

theorem flush_ok {D : Unit → World σ → Prop} (h : D () w) : Ensures (flush .ok) w D R S := h

theorem flush_ends {f : DbAnswer} {D : Unit → World σ → Prop} (hok : D () w) (hraise : ∀ e, R e w)
    (hstop : f = .stop → S w) : Ensures (flush f) w D R S := by
  refine .perform (fun _ w' h => ?_) hraise hstop
  cases h
  exact ⟨fun _ => hok, fun e _ => hraise e⟩

def Stored (I : Records → Outside σ → Prop) (w : World σ) : Prop := I w.stored w.outside

def Both (I : Records → Outside σ → Prop) (w : World σ) : Prop := I w.stored w.outside ∧ I w.session w.outside

theorem commit_both {I : Records → Outside σ → Prop} {f : DbAnswer} (h : Both I w) :
    Ensures (commit f) w (fun _ => Both I) (fun _ => Both I) (Stored I) :=
  commit_ends (fun _ => ⟨h.2, h.2⟩) (fun _ _ => ⟨h.2, h.2⟩) (fun _ => h) (fun _ => h.1)

end

end World

end OranAdapt
