import OranAdapt.Moves

/-!
# The reaper's wake-ups

The last loop of `reap`: the jobs due for publishing are selected in one
transaction and published one by one, while everything else goes on. `publish`
answers `False` for a broker that cannot be reached and for a job that is no
longer queued, and the loop stops at either.
-/

namespace OranAdapt

namespace System

section

variable (P : Platform) (cfg : Settings)

/-- The reaper's due query, JOB_REPUBLISH_AFTER_S after the last wake-up. -/
def wakeDue (job : Job) (republishAfterS read : Time) : Bool :=
  job.status == .queued && job.leaseToken == none && !job.quarantined && job.available read &&
    match job.publishedAt with
    | none => true
    | some t => decide (t + republishAfterS < read)

/-- Highest priority first, then oldest. -/
def dueLe (p q : JobId × Job) : Bool :=
  if p.2.priority ≠ q.2.priority then decide (q.2.priority < p.2.priority) else decide (p.2.createdAt ≤ q.2.createdAt)

def dueJobs (db : Db) (republishAfterS read : Time) : List JobId :=
  ((db.jobs.rows.filter fun p => wakeDue p.2 republishAfterS read).insertionSort fun p q => dueLe p q = true).map Prod.fst

/-- What happens around a job of the pass: what the others do before it is reached, what its
broker call gives, and what the others do during the call. -/
structure Turn where
  before : List Action
  answer : Except AdaptationError Unit
  during : List Action

def others (s : System) (acts : List Action) : System := acts.foldl (fun s a => (step P cfg s a).getD s) s

inductive Woken where
  | yes
  | no
  | raised (e : AdaptationError)

def publish (s : System) (id : JobId) (t : Turn) : Woken × System :=
  match loadJob s.db id with
  | .error e => (.raised e, s)
  | .ok job =>
    if job.status ≠ .queued then (.no, s)
    else
      let s := s.others P cfg t.during
      match t.answer with
      | .error e => (if e.cls = .other "JOB_QUEUE_UNAVAILABLE" then .no else .raised e, s)
      | .ok _ =>
        match published s.db s.now id with
        | .error e => (.raised e, s)
        | .ok db => (.yes, { s with db })

structure Pass where
  published : List JobId
  /-- the due jobs the pass did not come to -/
  left : List JobId
  raised : Option AdaptationError
  system : System

def wake : System → List (JobId × Turn) → Pass
  | s, [] => ⟨[], [], none, s⟩
  | s, (id, t) :: rest =>
    match publish P cfg (s.others P cfg t.before) id t with
    | (.yes, s) =>
      let pass := wake s rest
      { pass with published := id :: pass.published }
    | (.no, s) => ⟨[], rest.map Prod.fst, none, s⟩
    | (.raised e, s) => ⟨[], rest.map Prod.fst, some e, s⟩

def reapWake (s : System) (republishAfterS read : Time) (turn : JobId → Turn) : Pass :=
  wake P cfg s ((dueJobs s.db republishAfterS read).map fun id => (id, turn id))

/-! ## What there is to wake -/

/-- A due job when its turn comes: still queued, and taken by the broker. -/
structure Finding where
  id : JobId
  queued : Bool
  answered : Bool
deriving DecidableEq

def Finding.failed (f : Finding) : Bool := f.queued && !f.answered

def Finding.wakes (f : Finding) : Bool := f.queued && f.answered

def queuedNow (s : System) (id : JobId) : Bool := (s.db.jobs.get? id).any fun job => job.status == .queued

def answers (t : Turn) : Bool :=
  match t.answer with
  | .ok _ => true
  | .error _ => false

/-- Every due job as its turn comes, whatever became of those before it. -/
def findings : System → List (JobId × Turn) → List Finding
  | _, [] => []
  | s, (id, t) :: rest =>
    let s := s.others P cfg t.before
    ⟨id, s.queuedNow id, answers t⟩ :: findings (publish P cfg s id t).2 rest

def reapFindings (s : System) (republishAfterS read : Time) (turn : JobId → Turn) : List Finding :=
  findings P cfg s ((dueJobs s.db republishAfterS read).map fun id => (id, turn id))

/-- Until the broker fails every job still queued is published, and nothing else ends the pass early. -/
structure WakesAll (found : List Finding) (pass : Pass) : Prop where
  every : ∀ f ∈ found.takeWhile (!·.failed), f.queued = true → f.id ∈ pass.published
  early : pass.left ≠ [] → ∃ front f back, found = front ++ f :: back ∧ f.failed = true ∧
    pass.left = back.map (·.id)

/-- Until the broker fails no job but the last one due has left the queue when its turn comes. -/
def OnlyLastTaken (found : List Finding) : Prop :=
  ∀ front f back, found = front ++ f :: back → (∀ g ∈ front, g.failed = false) → f.queued = false → back = []

end

section

variable {P : Platform} {cfg : Settings} {s : System} {id : JobId} {t : Turn}

def Known (s : System) (id : JobId) : Prop := ∃ job, s.db.jobs.get? id = some job

theorem known_step {a : Action} {s' : System} (h : s.Known id) (hs : step P cfg s a = some s') : s'.Known id := by
  obtain ⟨job, hj⟩ := h
  obtain ⟨job', _, hj', _⟩ := (step_effect hs).old id job hj
  exact ⟨job', hj'⟩

theorem known_others {acts : List Action} (h : s.Known id) : (s.others P cfg acts).Known id := by
  induction acts generalizing s with
  | nil => exact h
  | cons a acts ih =>
    change ((((step P cfg s a).getD s)).others P cfg acts).Known id
    apply ih
    cases hs : step P cfg s a with
    | none => exact h
    | some s' => exact known_step h hs

theorem known_published {db : Db} {now : Time} {id' : JobId} (h : s.Known id) (hp : published s.db now id' = .ok db) :
    ({ s with db } : System).Known id := by
  obtain ⟨job, hj⟩ := h
  obtain ⟨job', hj', rfl⟩ := published_ok hp
  by_cases hid : id = id'
  · exact ⟨_, (Db.get?_put s.db hj' _ _ _).trans (if_pos hid)⟩
  · exact ⟨job, ((Db.get?_put s.db hj' _ _ _).trans (if_neg hid)).trans hj⟩

theorem known_publish {id' : JobId} (h : s.Known id) : (publish P cfg s id' t).2.Known id := by
  unfold publish
  split
  · exact h
  · split
    · exact h
    · simp only
      split
      · exact known_others h
      · split
        · exact known_others h
        · rename_i hp
          exact known_published (known_others h) hp

/-- A job is published exactly when it is still queued and the broker takes it. -/
theorem publish_yes_iff (h : s.Known id) :
    (publish P cfg s id t).1 = .yes ↔ (Finding.mk id (s.queuedNow id) (answers t)).wakes = true := by
  obtain ⟨job, hj⟩ := h
  unfold publish Finding.wakes queuedNow answers
  rw [loadJob_ok.mpr hj, hj]
  simp only [Option.any_some]
  by_cases hq : job.status = .queued
  · simp only [hq, ne_eq, not_true_eq_false, if_false, beq_self_eq_true, Bool.true_and]
    cases t.answer with
    | error e =>
      by_cases he : e.cls = .other "JOB_QUEUE_UNAVAILABLE"
      · simp [he]
      · simp [he]
    | ok _ =>
      have hknown : (s.others P cfg t.during).Known id := known_others ⟨job, hj⟩
      obtain ⟨job', hj'⟩ := hknown
      obtain ⟨db, hpublished⟩ : ∃ db,
          published (s.others P cfg t.during).db (s.others P cfg t.during).now id = .ok db :=
        ⟨_, by rw [published, loadJob_ok.mpr hj']; rfl⟩
      simp [hpublished]
  · simp [hq]

section
variable (P cfg)

theorem findings_ids (s : System) (turns : List (JobId × Turn)) :
    (findings P cfg s turns).map (·.id) = turns.map Prod.fst := by
  induction turns generalizing s with
  | nil => rfl
  | cons p rest ih => exact congrArg _ (ih _)

end

theorem wake_yes (rest : List (JobId × Turn)) (h : (publish P cfg (s.others P cfg t.before) id t).1 = .yes) :
    (wake P cfg s ((id, t) :: rest)).published = id ::
      (wake P cfg (publish P cfg (s.others P cfg t.before) id t).2 rest).published ∧
      (wake P cfg s ((id, t) :: rest)).left = (wake P cfg (publish P cfg (s.others P cfg t.before) id t).2 rest).left := by
  rw [wake]
  generalize publish P cfg (s.others P cfg t.before) id t = r at h
  obtain ⟨woken, s'⟩ := r
  cases h
  exact ⟨rfl, rfl⟩

theorem wake_stop (rest : List (JobId × Turn)) (h : (publish P cfg (s.others P cfg t.before) id t).1 ≠ .yes) :
    (wake P cfg s ((id, t) :: rest)).published = [] ∧ (wake P cfg s ((id, t) :: rest)).left = rest.map Prod.fst := by
  rw [wake]
  generalize publish P cfg (s.others P cfg t.before) id t = r at h
  obtain ⟨woken, s'⟩ := r
  cases woken with
  | yes => exact absurd rfl h
  | no => exact ⟨rfl, rfl⟩
  | raised e => exact ⟨rfl, rfl⟩

/-- The pass publishes while there is something to wake, and leaves what follows the job it stopped at. -/
theorem wake_findings (P : Platform) (cfg : Settings) {turns : List (JobId × Turn)} (h : ∀ p ∈ turns, s.Known p.1) :
    (wake P cfg s turns).published = ((findings P cfg s turns).takeWhile (·.wakes)).map (·.id) ∧
      (wake P cfg s turns).left = ((findings P cfg s turns).dropWhile (·.wakes)).tail.map (·.id) := by
  induction turns generalizing s with
  | nil => exact ⟨rfl, rfl⟩
  | cons p rest ih =>
    obtain ⟨id, t⟩ := p
    have hid : (s.others P cfg t.before).Known id := known_others (h (id, t) List.mem_cons_self)
    have hrest : ∀ p ∈ rest, (publish P cfg (s.others P cfg t.before) id t).2.Known p.1 := fun p hp =>
      known_publish (known_others (h p (List.mem_cons_of_mem _ hp)))
    have hyes : (publish P cfg (s.others P cfg t.before) id t).1 = .yes ↔ _ := publish_yes_iff hid
    rw [findings]
    by_cases hwakes : (Finding.mk id ((s.others P cfg t.before).queuedNow id) (answers t)).wakes = true
    · obtain ⟨hpublished, hleft⟩ := wake_yes rest (hyes.mpr hwakes)
      obtain ⟨hpub, hlft⟩ := ih hrest
      simp only [List.takeWhile_cons, List.dropWhile_cons, hwakes, if_true, List.map_cons]
      exact ⟨by rw [hpublished, hpub], by rw [hleft, hlft]⟩
    · obtain ⟨hpublished, hleft⟩ := wake_stop rest fun hp => hwakes (hyes.mp hp)
      simp only [List.takeWhile_cons, List.dropWhile_cons, hwakes]
      exact ⟨hpublished, by rw [hleft]; exact (findings_ids P cfg _ rest).symm⟩

/-! ## Where the pass ends -/

variable {f : Finding} {found : List Finding}

theorem wakes_iff : f.wakes = true ↔ f.queued = true ∧ f.failed = false := by
  unfold Finding.wakes Finding.failed
  cases f.queued <;> cases f.answered <;> simp

theorem onlyLastTaken_cons : OnlyLastTaken (f :: found) ↔
    (f.queued = false → found = []) ∧ (f.failed = false → OnlyLastTaken found) := by
  constructor
  · intro h
    refine ⟨fun hq => h [] f found rfl (by simp) hq, fun hf front g back heq hfront hg => ?_⟩
    apply h (f :: front) g back (by rw [heq, List.cons_append]) _ hg
    intro g' hg'
    rcases List.mem_cons.mp hg' with rfl | hg'
    · exact hf
    · exact hfront g' hg'
  · intro h front g back heq hfront hg
    cases front with
    | nil =>
      obtain ⟨rfl, rfl⟩ := List.cons.inj heq
      exact h.1 hg
    | cons f' front =>
      obtain ⟨rfl, hrest⟩ := List.cons.inj heq
      exact h.2 (hfront f List.mem_cons_self) front g back hrest (fun g' hg' => hfront g' (List.mem_cons_of_mem _ hg')) hg

/-- What the pass leaves follows a broker failure, if it leaves anything. -/
def LeftByFailure (found : List Finding) : Prop :=
  (found.dropWhile (·.wakes)).tail ≠ [] → ∃ front f back, found = front ++ f :: back ∧ f.failed = true ∧
    (found.dropWhile (·.wakes)).tail.map (·.id) = back.map (·.id)

theorem onlyLastTaken_nil : OnlyLastTaken [] := by
  intro front f back heq
  simp at heq

theorem leftByFailure_wakes (hwakes : f.wakes = true) : LeftByFailure (f :: found) ↔ LeftByFailure found := by
  unfold LeftByFailure
  simp only [List.dropWhile_cons, hwakes, if_true]
  constructor
  · intro h hne
    obtain ⟨front, g, back, heq, hg, hids⟩ := h hne
    cases front with
    | nil =>
      obtain ⟨rfl, -⟩ := List.cons.inj heq
      rw [(wakes_iff.mp hwakes).2] at hg
      cases hg
    | cons f' front => exact ⟨front, g, back, (List.cons.inj heq).2, hg, hids⟩
  · intro h hne
    obtain ⟨front, g, back, heq, hg, hids⟩ := h hne
    exact ⟨f :: front, g, back, by rw [heq, List.cons_append], hg, hids⟩

theorem leftByFailure_taken (hqueued : f.queued = false) : LeftByFailure (f :: found) ↔ found = [] := by
  have hwakes : f.wakes = false := by simp [Finding.wakes, hqueued]
  have hfailed : f.failed = false := by simp [Finding.failed, hqueued]
  unfold LeftByFailure
  simp only [List.dropWhile_cons, hwakes, Bool.false_eq_true, if_false, List.tail_cons]
  constructor
  · intro h
    by_contra hne
    obtain ⟨front, g, back, heq, hg, hids⟩ := h hne
    have hlength := congrArg List.length hids
    have hlength' := congrArg List.length heq
    simp only [List.length_map, List.length_cons, List.length_append] at hlength hlength'
    have hnil : front = [] := List.length_eq_zero_iff.mp (by omega)
    rw [hnil] at heq
    obtain ⟨rfl, -⟩ := List.cons.inj heq
    rw [hfailed] at hg
    cases hg
  · intro h hne
    exact absurd h hne

theorem leftByFailure_iff : LeftByFailure found ↔ OnlyLastTaken found := by
  induction found with
  | nil => exact iff_of_true (fun h => absurd rfl h) onlyLastTaken_nil
  | cons f found ih =>
    rw [onlyLastTaken_cons]
    cases hqueued : f.queued with
    | false =>
      rw [leftByFailure_taken hqueued]
      constructor
      · rintro rfl
        exact ⟨fun _ => rfl, fun _ => onlyLastTaken_nil⟩
      · intro h
        exact h.1 rfl
    | true =>
      cases hfailed : f.failed with
      | false =>
        rw [leftByFailure_wakes (wakes_iff.mpr ⟨hqueued, hfailed⟩), ih]
        simp
      | true =>
        have hwakes : f.wakes = false := by
          rw [Bool.eq_false_iff, ne_eq, wakes_iff, hfailed]
          simp
        have hleft : LeftByFailure (f :: found) := fun _ => ⟨[], f, found, rfl, hfailed, by simp [hwakes]⟩
        simp [hleft]

/-- Where only the last may be taken, everything to wake before a broker failure is woken. -/
theorem OnlyLastTaken.wakes (h : OnlyLastTaken found) :
    ∀ f ∈ found.takeWhile (!·.failed), f.queued = true → f ∈ found.takeWhile (·.wakes) := by
  induction found with
  | nil =>
    intro f hf
    cases hf
  | cons g found ih =>
    obtain ⟨hlast, hrest⟩ := onlyLastTaken_cons.mp h
    intro f hf hq
    cases hfailed : g.failed with
    | true => simp [hfailed] at hf
    | false =>
      simp only [List.takeWhile_cons, hfailed, Bool.not_false, if_true] at hf
      cases hqueued : g.queued with
      | true =>
        simp only [List.takeWhile_cons, wakes_iff.mpr ⟨hqueued, hfailed⟩, if_true]
        rcases List.mem_cons.mp hf with rfl | hf
        · exact List.mem_cons_self
        · exact List.mem_cons_of_mem _ (ih (hrest hfailed) f hf hq)
      | false =>
        rw [hlast hqueued] at hf
        rw [List.mem_singleton.mp hf, hqueued] at hq
        cases hq

theorem known_due {republishAfterS read : Time} (h : id ∈ dueJobs s.db republishAfterS read) : s.Known id := by
  obtain ⟨p, hp, rfl⟩ := List.mem_map.mp h
  have hrow := List.mem_of_mem_filter ((List.perm_insertionSort _ _).mem_iff.mp hp)
  exact ⟨p.2, Table.mem_rows.mp hrow⟩

/-- A pass wakes every due job exactly where no job before the last has left the queue when its turn comes. -/
theorem wakesAll_iff (P : Platform) (cfg : Settings) (s : System) (republishAfterS read : Time) (turn : JobId → Turn) :
    WakesAll (reapFindings P cfg s republishAfterS read turn) (reapWake P cfg s republishAfterS read turn) ↔
      OnlyLastTaken (reapFindings P cfg s republishAfterS read turn) := by
  have hknown : ∀ p ∈ (dueJobs s.db republishAfterS read).map fun id => (id, turn id), s.Known p.1 := by
    intro p hp
    obtain ⟨id, hid, rfl⟩ := List.mem_map.mp hp
    exact known_due hid
  obtain ⟨hpublished, hleft⟩ := wake_findings P cfg hknown
  rw [← leftByFailure_iff]
  constructor
  · intro h hne
    have hleft' : (reapWake P cfg s republishAfterS read turn).left ≠ [] := by
      rw [reapWake, hleft]
      exact fun hnil => hne (List.map_eq_nil_iff.mp hnil)
    obtain ⟨front, f, back, heq, hf, hids⟩ := h.early hleft'
    exact ⟨front, f, back, heq, hf, by rw [← hids, reapWake, hleft]; rfl⟩
  · intro h
    refine ⟨fun f hf hq => ?_, fun hne => ?_⟩
    · rw [reapWake, hpublished]
      exact List.mem_map_of_mem ((leftByFailure_iff.mp h).wakes f hf hq)
    · rw [reapWake, hleft] at hne ⊢
      exact h fun hnil => hne (List.map_eq_nil_iff.mpr hnil)

end

/-! ## A job claimed before its turn -/

theorem twoCells_nodup : ([("cell-load", (⟨"cell-load", some "sklearn"⟩ : ModelMetadata)),
    ("beam-load", ⟨"beam-load", some "sklearn"⟩)].map Prod.fst).Nodup := by decide

def twoDue : System :=
  others (.sqlite id) .defaults (init ⟨_, twoCells_nodup⟩)
    [.submit "a1" (driftOf "cell-load" "e1") "oncall", .submit "b1" (driftOf "beam-load" "e2") "oncall"]

def claimsFirst (id : JobId) : Turn :=
  ⟨if id = "a1" then [.claim .message 0 "a1" "w1" "t1"] else [], .ok (), []⟩

/-- The other one is not published, although it is queued and the broker would take it. -/
theorem claimed_ends_pass : ¬ WakesAll (reapFindings (.sqlite id) .defaults twoDue 300000000 0 claimsFirst)
    (reapWake (.sqlite id) .defaults twoDue 300000000 0 claimsFirst) := by
  have hfound : reapFindings (.sqlite id) .defaults twoDue 300000000 0 claimsFirst =
      [⟨"a1", false, true⟩, ⟨"b1", true, true⟩] := by decide +kernel
  have hpublished : (reapWake (.sqlite id) .defaults twoDue 300000000 0 claimsFirst).published = [] := by decide +kernel
  intro h
  rw [hfound] at h
  have hb := h.every ⟨"b1", true, true⟩ (by decide) rfl
  rw [hpublished] at hb
  cases hb

end System

end OranAdapt
