import Mathlib.Data.List.DropRight
import OranAdapt.RetryAccounts
import OranAdapt.Separators
import OranAdapt.CdcEvents

/-!
# Wake-ups as Kubernetes Jobs

`adapters.job_queues.KubernetesJobQueue` beside the running system: a publish
creates a worker Job named after the queued job and its next attempt, and an
answer 409 counts as published. A finished worker Job keeps its name until its
TTL, so a wake-up whose name was used before is swallowed.
-/

namespace OranAdapt

open Runs

namespace KubernetesJobQueue

/-- The fields of `QueuedJob` the name is made of. -/
structure QueuedJob where
  jobId : JobId
  attempt : Nat
deriving DecidableEq, Repr

/-- `str.lower()` of an ASCII text; the API takes no other name. -/
def lower (s : String) : String := s.map Char.toLower

variable (k8sNamePrefix : String)

def fullName (job : QueuedJob) : String :=
  lower (k8sNamePrefix ++ "oran-job-" ++ job.jobId ++ "-a" ++ toString (job.attempt + 1))

def k8sNameMax : Nat := 63

def jobName (job : QueuedJob) : String :=
  String.ofList (((fullName k8sNamePrefix job).toList.take k8sNameMax).rdropWhile (· = '-'))

structure WorkerJob where
  name : String
  job : QueuedJob
  /-- Its pod has ended. -/
  ran : Bool
deriving DecidableEq, Repr

structure Cluster where
  system : System
  /-- the calls of `publish`, the latest first, as they read the job -/
  calls : List QueuedJob
  created : List WorkerJob

def Cluster.init (models : Table ModelId ModelMetadata) : Cluster := ⟨.init models, [], []⟩

inductive Event where
  /-- a step of the workers, pollers, reapers and callers -/
  | system (a : Action)
  /-- `jobs.publish` reads the job and finds it queued -/
  | call (id : JobId)
  /-- its POST is answered, with 201 or 409 -/
  | post (job : QueuedJob)
  /-- a worker Job ends -/
  | ran (name : String)

/-- A new job is given a `uuid4().hex`. -/
def newId : Action → Bool
  | .submit id _ _ => decide (lower id = id)
  | _ => true

def names (c : Cluster) : List String := c.created.map (·.name)

def postStep (c : Cluster) (job : QueuedJob) : Cluster :=
  if jobName k8sNamePrefix job ∈ names c then c
  else { c with created := c.created ++ [⟨jobName k8sNamePrefix job, job, false⟩] }

def ranStep (c : Cluster) (name : String) : Cluster :=
  { c with created := c.created.map fun w => if w.name = name then { w with ran := true } else w }

def callStep (c : Cluster) (id : JobId) : Option Cluster :=
  match c.system.db.jobs.get? id with
  | some job => if job.status = .queued then some { c with calls := ⟨id, job.attempt⟩ :: c.calls } else none
  | none => none

def step (P : Platform) (cfg : Settings) (c : Cluster) : Event → Option Cluster
  | .system a => if newId a = true then (System.step P cfg c.system a).map fun system => { c with system } else none
  | .call id => callStep c id
  | .post job => if job ∈ c.calls then some (postStep k8sNamePrefix c job) else none
  | .ran name => some (ranStep c name)

/-! ## What is promised of a wake-up -/

def lastCall (c : Cluster) (id : JobId) : Option QueuedJob := c.calls.find? fun m => m.jobId = id

/-- What holds when a queued job is published now. -/
structure Woken (c : Cluster) (job : QueuedJob) : Prop where
  /-- When the worker Job of its previous publish has run, the name is new. -/
  fresh : ∀ last, lastCall c job.jobId = some last →
    (∃ w ∈ c.created, w.name = jobName k8sNamePrefix last ∧ w.ran = true) → jobName k8sNamePrefix job ∉ names c
  /-- A 409 means that a wake-up of this attempt is pending or running. -/
  answered : ∀ w ∈ c.created, w.name = jobName k8sNamePrefix job → w.job = job ∧ w.ran = false
  /-- No other job uses the name. -/
  apart : ∀ m ∈ c.calls, jobName k8sNamePrefix m = jobName k8sNamePrefix job → m.jobId = job.jobId

def Fits (job : QueuedJob) : Prop := (fullName k8sNamePrefix job).toList.length ≤ k8sNameMax

instance (job : QueuedJob) : Decidable (Fits k8sNamePrefix job) := inferInstanceAs (Decidable (_ ≤ _))

/-- The worker Job leaves its job queued as it was published: its claim was refused or drained, or never made. -/
def leavesQueued (c : Cluster) (w : WorkerJob) : Bool :=
  (c.system.db.jobs.get? w.job.jobId).any fun job => job.status == .queued && job.attempt == w.job.attempt

/-- The action takes a job back, by a drain, to an attempt whose worker Job has run. -/
def drainsBack (cfg : Settings) (c : Cluster) (a : Action) : Bool :=
  match c.system.entry cfg a with
  | some (id, .drained) => c.created.any fun w => w.ran && w.job.jobId == id &&
      (c.system.db.jobs.get? id).any fun job => job.attempt == w.job.attempt + 1
  | _ => false

/-- The steps that lose no wake-up. -/
def Kept (cfg : Settings) (c : Cluster) : Event → Prop
  | .system a => drainsBack cfg c a = false
  | .call id => ∀ job ∈ c.system.db.jobs.get? id, Fits k8sNamePrefix ⟨id, job.attempt⟩
  | .post _ => True
  | .ran name => ∀ w ∈ c.created, w.name = name → leavesQueued c w = false

/-! ## Names -/

variable {k8sNamePrefix} {m m' : QueuedJob}

theorem lower_toList (s : String) : (lower s).toList = s.toList.map Char.toLower := by
  simp [lower]

/-- The name, in two parts around the last hyphen. -/
theorem fullName_toList (m : QueuedJob) : (fullName k8sNamePrefix m).toList =
    Separators.join '-' ((k8sNamePrefix ++ "oran-job-" ++ m.jobId).toList.map Char.toLower)
      ('a' :: (toString (m.attempt + 1)).toList.map Char.toLower) := by
  rw [fullName, lower_toList]
  simp [Separators.join]

theorem toLower_digit {c : Char} (h : c.isDigit = true) : c.toLower = c := by
  unfold Char.toLower
  split
  · rename_i hupper
    simp only [Char.isDigit, Bool.and_eq_true, decide_eq_true_eq, ge_iff_le] at h
    have hle := UInt32.le_trans hupper.1 h.2
    exact absurd hle (by decide)
  · rfl

theorem attempt_digits (n : Nat) : (toString n).toList.map Char.toLower = (toString n).toList := by
  rw [List.map_congr_left (g := id)]
  · exact List.map_id _
  · intro c hc
    rw [Nat.toString_eq_ofList_toDigits, String.toList_ofList] at hc
    exact toLower_digit (Nat.isDigit_of_mem_toDigits (by decide) (by decide) hc)

theorem hyphen_notMem_attempt (n : Nat) : '-' ∉ 'a' :: (toString n).toList := by
  intro h
  rcases List.mem_cons.mp h with h | h
  · cases h
  · rw [Nat.toString_eq_ofList_toDigits, String.toList_ofList] at h
    have hdigit := Nat.isDigit_of_mem_toDigits (by decide) (by decide) h
    cases hdigit

theorem jobName_toList (h : Fits k8sNamePrefix m) : (jobName k8sNamePrefix m).toList = (fullName k8sNamePrefix m).toList := by
  rw [jobName, String.toList_ofList, List.take_of_length_le h, List.rdropWhile_eq_self_iff]
  intro hne
  simp only [fullName_toList, attempt_digits, Separators.join] at hne ⊢
  rw [List.getLast_append_of_ne_nil _ (List.cons_ne_nil _ _), List.getLast_cons (List.cons_ne_nil _ _)]
  intro hlast
  have hmem := List.getLast_mem (List.cons_ne_nil 'a' (toString (m.attempt + 1)).toList)
  rw [of_decide_eq_true hlast] at hmem
  exact hyphen_notMem_attempt _ hmem

/-- Uncut names tell jobs and attempts apart. -/
theorem jobName_injective (h : Fits k8sNamePrefix m) (h' : Fits k8sNamePrefix m') (hid : lower m.jobId = m.jobId)
    (hid' : lower m'.jobId = m'.jobId) (heq : jobName k8sNamePrefix m = jobName k8sNamePrefix m') : m = m' := by
  have hlist := congrArg String.toList heq
  rw [jobName_toList h, jobName_toList h', fullName_toList, fullName_toList, attempt_digits, attempt_digits] at hlist
  obtain ⟨hjob, hattempt⟩ := Separators.join_inj_right (hyphen_notMem_attempt _) (hyphen_notMem_attempt _) hlist
  simp only [String.toList_append, List.map_append, List.append_cancel_left_eq, ← lower_toList, hid, hid'] at hjob
  have hn := repr_injective (String.toList_inj.mp (List.cons.inj hattempt).2)
  cases m
  cases m'
  simp only [String.toList_inj] at hjob hn
  simp only [QueuedJob.mk.injEq]
  exact ⟨hjob, by omega⟩

/-! ## Attempts only go up past a call -/

/-- The job is over, or has attempts left of at least `k`, not counting a running one. -/
def Level (k : Nat) (job : Job) : Prop := job.status.terminal = true ∨ k + job.leased ≤ job.attempt

def Passed (k : Nat) (job : Job) : Prop := job.status.terminal = true ∨ k < job.attempt

section
variable {P : Platform} {cfg : Settings} {s s' : System} {a : Action} {id : JobId} {job : Job} {k : Nat}

theorem not_terminal_of_leased (h : job.WellLeased) (hl : job.leased = 1) : job.status.terminal = false := by
  have hactive : job.status.active = true := by
    rw [← h.token]
    unfold Job.leased at hl
    split at hl
    · assumption
    · cases hl
  cases ht : job.status.terminal with
  | false => rfl
  | true =>
    rw [JobStatus.active_of_terminal ht] at hactive
    cases hactive

theorem leased_of_queued (h : job.WellLeased) (hq : job.status = .queued) : job.leased = 0 := by
  have htoken := h.token
  rw [hq] at htoken
  simp only [Job.leased, htoken]
  rfl

theorem queued_of_not_leased (h : job.WellLeased) (hl : job.leased = 0) (ht : job.status.terminal = false) :
    job.status = .queued := by
  have hactive : job.status.active = false := by
    rw [← h.token]
    unfold Job.leased at hl
    split at hl
    · cases hl
    · rename_i hnot
      exact Bool.eq_false_iff.mpr hnot
  simpa [JobStatus.active, ht] using hactive

theorem not_terminal_of_queued (h : job.status = .queued) : job.status.terminal = false := by
  rw [h]
  rfl

theorem step_attempt (hsound : s.Sound) (hst : System.step P cfg s a = some s') (hj : s.db.jobs.get? id = some job) :
    ∃ job', s'.db.jobs.get? id = some job' ∧
      ((job'.attempt = job.attempt ∧ (job'.status.terminal = false → job.status.terminal = false ∧
        job'.leased = job.leased)) ∨
        job.status.terminal = false ∧ (job.leased = 0 ∧ job'.leased = 1 ∧ job'.attempt = job.attempt + 1 ∨
          job.leased = 1 ∧ job'.leased = 0 ∧ job'.attempt = job.attempt ∨
          s.entry cfg a = some (id, .drained) ∧ job.leased = 1 ∧ job'.leased = 0 ∧
            job'.attempt = job.attempt - 1)) := by
  by_cases hentry : ∃ e, s.entry cfg a = some (id, e)
  · obtain ⟨e, he⟩ := hentry
    obtain ⟨job₀, job', hj₀, hj', hbilled⟩ := System.step_billed hst he
    rw [hj] at hj₀
    cases hj₀
    have hwell := hsound.leased id job hj
    refine ⟨job', hj', .inr ?_⟩
    cases e with
    | claimed => exact ⟨not_terminal_of_queued hbilled.1, .inl ⟨hbilled.2.1, hbilled.2.2.1, hbilled.2.2.2.1⟩⟩
    | transient => exact ⟨not_terminal_of_leased hwell hbilled.1, .inr (.inl ⟨hbilled.1, hbilled.2.1, hbilled.2.2.1⟩)⟩
    | drained => exact ⟨not_terminal_of_leased hwell hbilled.1,
        .inr (.inr ⟨he, hbilled.1, hbilled.2.1, hbilled.2.2.1⟩)⟩
    | lost => exact ⟨not_terminal_of_leased hwell hbilled.1, .inr (.inl ⟨hbilled.1, hbilled.2.1, hbilled.2.2.1⟩)⟩
  · obtain ⟨job', hj', hun⟩ := System.step_unbilled hst hj fun e he => hentry ⟨e, he⟩
    exact ⟨job', hj', .inl ⟨hun.attempt, hun.leased⟩⟩

theorem level_step (hsound : s.Sound) (hst : System.step P cfg s a = some s') (hj : s.db.jobs.get? id = some job)
    (h : Level k job) : ∃ job', s'.db.jobs.get? id = some job' ∧ Level k job' := by
  obtain ⟨job', hj', hstep⟩ := step_attempt hsound hst hj
  refine ⟨job', hj', ?_⟩
  cases ht' : job'.status.terminal with
  | true => exact .inl ht'
  | false =>
    right
    rcases hstep with ⟨hattempt, hkeeps⟩ | ⟨ht, hmoves⟩
    · obtain ⟨ht, hleased⟩ := hkeeps ht'
      have hle := h.resolve_left (by simp [ht])
      omega
    · have hle := h.resolve_left (by simp [ht])
      omega

/-- A claimed attempt stays claimed, unless a drain takes it back. -/
theorem passed_step (hsound : s.Sound) (hst : System.step P cfg s a = some s') (hj : s.db.jobs.get? id = some job)
    (h : Passed k job) (hdrain : s.entry cfg a = some (id, .drained) → job.attempt ≠ k + 1) :
    ∀ job', s'.db.jobs.get? id = some job' → Passed k job' := by
  obtain ⟨job₁, hj₁, hstep⟩ := step_attempt hsound hst hj
  intro job' hj'
  rw [hj₁] at hj'
  cases hj'
  cases ht' : job₁.status.terminal with
  | true => exact .inl ht'
  | false =>
    right
    rcases hstep with ⟨hattempt, hkeeps⟩ | ⟨ht, hmoves⟩
    · obtain ⟨ht, hleased⟩ := hkeeps ht'
      have hlt := h.resolve_left (by simp [ht])
      omega
    · have hlt := h.resolve_left (by simp [ht])
      rcases hmoves with hm | hm | ⟨he, hm⟩
      · omega
      · omega
      · have hne := hdrain he
        omega

end

/-! ## The invariant -/

variable (k8sNamePrefix) in
/-- What every state reached without losing a wake-up satisfies. -/
structure Sound (c : Cluster) : Prop where
  system : c.system.Sound
  ids : ∀ id job, c.system.db.jobs.get? id = some job → lower id = id
  fits : ∀ m ∈ c.calls, Fits k8sNamePrefix m
  level : ∀ m ∈ c.calls, ∃ job, c.system.db.jobs.get? m.jobId = some job ∧ Level m.attempt job
  ordered : c.calls.Pairwise fun later earlier => later.jobId = earlier.jobId → earlier.attempt ≤ later.attempt
  called : ∀ w ∈ c.created, w.job ∈ c.calls ∧ w.name = jobName k8sNamePrefix w.job
  passed : ∀ w ∈ c.created, w.ran = true → ∀ job, c.system.db.jobs.get? w.job.jobId = some job →
    Passed w.job.attempt job

theorem sound_init (models : Table ModelId ModelMetadata) : Sound k8sNamePrefix (Cluster.init models) where
  system := System.sound_init models
  ids id job h := by cases h
  fits m hm := by cases hm
  level m hm := by cases hm
  ordered := .nil
  called w hw := by cases hw
  passed w hw := by cases hw

section
variable {P : Platform} {cfg : Settings} {c c' : Cluster} {id : JobId}

theorem sound_system {a : Action} {s' : System} (h : Sound k8sNamePrefix c) (hnew : newId a = true)
    (hkept : drainsBack cfg c a = false) (hst : System.step P cfg c.system a = some s') :
    Sound k8sNamePrefix { c with system := s' } where
  system := System.sound_step h.system hst
  ids id job hj := by
    cases hold : c.system.db.jobs.get? id with
    | some job₀ => exact h.ids id job₀ hold
    | none =>
      rcases (System.step_effect hst).new id hold with ⟨hnone, -⟩ | ⟨event, actor, rfl, -, -⟩
      · change s'.db.jobs.get? id = some job at hj
        rw [hnone] at hj
        cases hj
      · exact of_decide_eq_true hnew
  fits := h.fits
  level m hm := by
    obtain ⟨job, hj, hlevel⟩ := h.level m hm
    exact level_step h.system hst hj hlevel
  ordered := h.ordered
  called := h.called
  passed w hw hran := by
    obtain ⟨job, hj, -⟩ := h.level w.job (h.called w hw).1
    refine passed_step h.system hst hj (h.passed w hw hran job hj) fun hdrained heq => ?_
    have hback : drainsBack cfg c a = true := by
      simp only [drainsBack, hdrained, List.any_eq_true]
      exact ⟨w, hw, by simp [hran, hj, heq]⟩
    rw [hkept] at hback
    cases hback

theorem sound_call {job : Job} (h : Sound k8sNamePrefix c) (hj : c.system.db.jobs.get? id = some job)
    (hq : job.status = .queued) (hfits : Fits k8sNamePrefix ⟨id, job.attempt⟩) :
    Sound k8sNamePrefix { c with calls := ⟨id, job.attempt⟩ :: c.calls } where
  system := h.system
  ids := h.ids
  fits m hm := by
    rcases List.mem_cons.mp hm with rfl | hm
    · exact hfits
    · exact h.fits m hm
  level m hm := by
    rcases List.mem_cons.mp hm with rfl | hm
    · exact ⟨job, hj, .inr (by rw [leased_of_queued (h.system.leased id job hj) hq]; exact Nat.le_refl _)⟩
    · exact h.level m hm
  ordered := by
    refine .cons ?_ h.ordered
    intro m hm hid
    obtain ⟨job', hj', hlevel⟩ := h.level m hm
    rw [← hid, hj] at hj'
    cases hj'
    have hle := hlevel.resolve_left (by simp [not_terminal_of_queued hq])
    exact Nat.le_trans (Nat.le_add_right _ _) hle
  called w hw := ⟨List.mem_cons_of_mem _ (h.called w hw).1, (h.called w hw).2⟩
  passed := h.passed

theorem sound_post (h : Sound k8sNamePrefix c) (hm : m ∈ c.calls) : Sound k8sNamePrefix (postStep k8sNamePrefix c m) := by
  unfold postStep
  split
  · exact h
  · refine ⟨h.system, h.ids, h.fits, h.level, h.ordered, fun w hw => ?_, fun w hw hran => ?_⟩
    · rcases List.mem_append.mp hw with hw | hw
      · exact h.called w hw
      · rw [List.mem_singleton.mp hw]
        exact ⟨hm, rfl⟩
    · rcases List.mem_append.mp hw with hw | hw
      · exact h.passed w hw hran
      · rw [List.mem_singleton.mp hw] at hran
        cases hran

theorem passed_of_ran {w : WorkerJob} {job : Job} (h : Sound k8sNamePrefix c) (hw : w ∈ c.created)
    (hleaves : leavesQueued c w = false) (hj : c.system.db.jobs.get? w.job.jobId = some job) :
    Passed w.job.attempt job := by
  obtain ⟨job', hj', hlevel⟩ := h.level w.job (h.called w hw).1
  rw [hj] at hj'
  cases hj'
  cases ht : job.status.terminal with
  | true => exact .inl ht
  | false =>
    right
    have hle := hlevel.resolve_left (by simp [ht])
    by_contra hlt
    have hleased : job.leased = 0 := by omega
    have hq := queued_of_not_leased (h.system.leased _ job hj) hleased ht
    have hleft : leavesQueued c w = true := by
      simp only [leavesQueued, hj, Option.any_some, hq, beq_self_eq_true, Bool.true_and, beq_iff_eq]
      omega
    rw [hleaves] at hleft
    cases hleft

theorem sound_ran {name : String} (h : Sound k8sNamePrefix c)
    (hkept : ∀ w ∈ c.created, w.name = name → leavesQueued c w = false) : Sound k8sNamePrefix (ranStep c name) := by
  refine ⟨h.system, h.ids, h.fits, h.level, h.ordered, fun w hw => ?_, fun w hw hran job hj => ?_⟩
  · obtain ⟨w₀, hw₀, rfl⟩ := List.mem_map.mp hw
    split
    · exact h.called w₀ hw₀
    · exact h.called w₀ hw₀
  · obtain ⟨w₀, hw₀, rfl⟩ := List.mem_map.mp hw
    by_cases hname : w₀.name = name
    · simp only [hname, if_true] at hj ⊢
      exact passed_of_ran h hw₀ (hkept w₀ hw₀ hname) hj
    · simp only [hname, if_false] at hran hj ⊢
      exact h.passed w₀ hw₀ hran job hj

theorem sound_step {e : Event} (h : Sound k8sNamePrefix c) (hkept : Kept k8sNamePrefix cfg c e)
    (hst : step k8sNamePrefix P cfg c e = some c') : Sound k8sNamePrefix c' := by
  cases e with
  | system a =>
    unfold step at hst
    simp only at hst
    split at hst
    · rename_i hnew
      obtain ⟨s', hs', rfl⟩ := Option.map_eq_some_iff.mp hst
      exact sound_system h hnew hkept hs'
    · cases hst
  | call id =>
    change callStep c id = some c' at hst
    unfold callStep at hst
    split at hst
    · rename_i job hj
      split at hst
      · rename_i hq
        cases hst
        exact sound_call h hj hq (hkept job hj)
      · cases hst
    · cases hst
  | post m =>
    unfold step at hst
    simp only at hst
    split at hst
    · rename_i hm
      cases hst
      exact sound_post h hm
    · cases hst
  | ran name =>
    cases hst
    exact sound_ran h hkept

/-! ## No wake-up is swallowed -/

theorem lastCall_latest {last : QueuedJob} (h : Sound k8sNamePrefix c) (hlast : lastCall c id = some last) {m : QueuedJob}
    (hm : m ∈ c.calls) (hid : m.jobId = id) : m.attempt ≤ last.attempt := by
  have hordered := h.ordered
  unfold lastCall at hlast
  generalize c.calls = calls at *
  induction calls with
  | nil => cases hm
  | cons m₀ calls ih =>
    obtain ⟨hhead, htail⟩ := List.pairwise_cons.mp hordered
    by_cases hid₀ : m₀.jobId = id
    · simp only [List.find?_cons, hid₀, decide_true, Option.some.injEq] at hlast
      subst hlast
      rcases List.mem_cons.mp hm with rfl | hm
      · exact Nat.le_refl _
      · exact hhead m hm (hid₀.trans hid.symm)
    · simp only [List.find?_cons, hid₀, decide_false] at hlast
      rcases List.mem_cons.mp hm with rfl | hm
      · exact absurd hid hid₀
      · exact ih hlast hm htail

/-- In a sound state a queued job is published under a name that wakes a worker. -/
theorem Sound.woken {job : Job} (h : Sound k8sNamePrefix c) (hj : c.system.db.jobs.get? id = some job)
    (hq : job.status = .queued) (hfits : Fits k8sNamePrefix ⟨id, job.attempt⟩) :
    Woken k8sNamePrefix c ⟨id, job.attempt⟩ := by
  have hsame : ∀ m ∈ c.calls, jobName k8sNamePrefix m = jobName k8sNamePrefix ⟨id, job.attempt⟩ →
      m = ⟨id, job.attempt⟩ := by
    intro m hm heq
    obtain ⟨job', hj', -⟩ := h.level m hm
    exact jobName_injective (h.fits m hm) hfits (h.ids _ _ hj') (h.ids _ _ hj) heq
  have hpassed : ∀ w ∈ c.created, w.ran = true → w.job.jobId = id → w.job.attempt < job.attempt := by
    intro w hw hran hid
    rw [← hid] at hj
    exact (h.passed w hw hran job hj).resolve_left (by simp [not_terminal_of_queued hq])
  refine ⟨?_, ?_, ?_⟩
  · rintro last hlast ⟨w, hw, hname, hran⟩ hused
    have hmem : last ∈ c.calls := List.mem_of_find?_eq_some hlast
    have hid : last.jobId = id := by simpa using List.find?_some hlast
    obtain ⟨hcalled, hwname⟩ := h.called w hw
    obtain ⟨job₁, hj₁, -⟩ := h.level _ hcalled
    obtain ⟨job₂, hj₂, -⟩ := h.level _ hmem
    have hwjob : w.job = last := jobName_injective (h.fits _ hcalled) (h.fits _ hmem) (h.ids _ _ hj₁) (h.ids _ _ hj₂)
      (hwname.symm.trans hname)
    have hlt := hpassed w hw hran (by rw [hwjob, hid])
    obtain ⟨w', hw', hname'⟩ := List.mem_map.mp hused
    obtain ⟨hcalled', hwname'⟩ := h.called w' hw'
    have hwjob' := hsame w'.job hcalled' (hwname'.symm.trans hname')
    rw [hwjob'] at hcalled'
    have hle := lastCall_latest h hlast hcalled' rfl
    rw [hwjob] at hlt
    exact absurd (Nat.lt_of_lt_of_le hlt hle) (Nat.lt_irrefl _)
  · intro w hw hname
    have hwjob := hsame w.job (h.called w hw).1 ((h.called w hw).2.symm.trans hname)
    refine ⟨hwjob, ?_⟩
    by_contra hran
    have hlt := hpassed w hw (by simpa using hran) (by rw [hwjob])
    rw [hwjob] at hlt
    exact Nat.lt_irrefl _ hlt
  · intro m hm heq
    rw [hsame m hm heq]

end

/-- In every run without a lost wake-up the next one is not lost either. -/
theorem wakeups_kept {P : Platform} {cfg : Settings} {models : Table ModelId ModelMetadata} {c : Cluster} {id : JobId}
    {job : Job} (h : Steps (step k8sNamePrefix P cfg) (Kept k8sNamePrefix cfg) (Cluster.init models) c)
    (hkept : Kept k8sNamePrefix cfg c (.call id)) (hj : c.system.db.jobs.get? id = some job) (hq : job.status = .queued) :
    Woken k8sNamePrefix c ⟨id, job.attempt⟩ := by
  have hsound : Sound k8sNamePrefix c :=
    h.inv (Sound k8sNamePrefix) (fun _ _ _ hs hk hst => sound_step hs hk hst) (sound_init models)
  exact hsound.woken hj hq (hkept job hj)

/-! ## A claim refused -/

instance decidableKept (k8sNamePrefix : String) (cfg : Settings) (c : Cluster) (e : Event) :
    Decidable (Kept k8sNamePrefix cfg c e) :=
  match e with
  | .system _ => inferInstanceAs (Decidable (_ = _))
  | .call _ => inferInstanceAs (Decidable (∀ job ∈ _, _))
  | .post _ => inferInstanceAs (Decidable True)
  | .ran _ => inferInstanceAs (Decidable (∀ w ∈ _, _))

def jobA : JobId := "0a4c18e2d95b4f6f8e4a7c1d2b3e5f60"

def jobB : JobId := "7f21d0c3b4a5968778695a4b3c2d1e0f"

def oneAtATime : Settings := { Settings.defaults with jobTenantConcurrency := 1 }

theorem cells_nodup : ([("cell-load", (⟨"cell-load", some "sklearn"⟩ : ModelMetadata)),
    ("handover", ⟨"handover", some "sklearn"⟩)].map Prod.fst).Nodup := by decide

def cells : Table ModelId ModelMetadata := ⟨_, cells_nodup⟩

/-- A job of one model runs, one of the other is published. -/
def published : List Event :=
  [.system (.submit jobA (driftOf "cell-load" "e1") "oncall"), .system (.submit jobB (driftOf "handover" "e2") "oncall"),
    .system (.claim .message 0 jobA "w1" "t1"), .call jobB, .post ⟨jobB, 0⟩]

/-- A published job whose first attempt fails transiently: it is queued again, and the worker Job of the attempt has run. -/
def retried : List Event :=
  [.system (.submit jobA (driftOf "cell-load" "e1") "oncall"), .system (.submit jobB (driftOf "handover" "e2") "oncall"),
    .call jobB, .post ⟨jobB, 0⟩, .system (.claim .message 0 jobB "w1" "t1"), .system (.start "t1"),
    .system (.finish "t1" (.raised ⟨.registryUnavailable, "timed out", []⟩)), .system (.handle "t1"),
    .system (.record "t1"),
    .ran (jobName "" ⟨jobB, 0⟩)]

theorem published_kept : ∃ c job, Steps (step "" (.postgres id) oneAtATime) (Kept "" oneAtATime) (Cluster.init cells) c ∧
    c.created = [⟨jobName "" ⟨jobB, 0⟩, ⟨jobB, 0⟩, true⟩] ∧ lastCall c jobB = some ⟨jobB, 0⟩ ∧
    c.system.db.jobs.get? jobB = some job ∧ job.attempt = 1 ∧ Woken "" c ⟨jobB, job.attempt⟩ := by
  obtain ⟨c, hc, hp⟩ := Steps.exists_of_runs (step "" (.postgres id) oneAtATime) (Kept "" oneAtATime) (Cluster.init cells)
    retried (fun c => decide (c.created = [⟨jobName "" ⟨jobB, 0⟩, ⟨jobB, 0⟩, true⟩]) &&
      (decide (lastCall c jobB = some ⟨jobB, 0⟩) && (c.system.db.jobs.get? jobB).any fun job =>
        job.status == .queued && (job.attempt == 1 && decide (Fits "" ⟨jobB, job.attempt⟩)))) (by decide +kernel)
  simp only [Bool.and_eq_true, decide_eq_true_eq] at hp
  obtain ⟨hcreated, hlast, hjob⟩ := hp
  obtain ⟨job, hj, hjob⟩ := (Option.any_eq_true _ _).mp hjob
  simp only [Bool.and_eq_true, beq_iff_eq, decide_eq_true_eq] at hjob
  obtain ⟨hqueued, hattempt, hfits⟩ := hjob
  refine ⟨c, job, hc, hcreated, hlast, hj, hattempt, wakeups_kept hc ?_ hj hqueued⟩
  intro job' hj'
  rw [hj] at hj'
  cases hj'
  exact hfits

/-- The worker Job finds the tenant's slot taken, has the job published again and ends: the next
POST is answered with 409 for it. -/
theorem wakeup_swallowed : ∃ c job, Steps (step "" (.sqlite id) oneAtATime) Free (Cluster.init cells) c ∧
    c.system.db.jobs.get? jobB = some job ∧ job.status = .queued ∧ job.publishedAt = none ∧
    ¬ Woken "" c ⟨jobB, job.attempt⟩ := by
  obtain ⟨c, hc, hp⟩ := Steps.exists_of_runs (step "" (.sqlite id) oneAtATime) Free (Cluster.init cells)
    (published ++ [.system (.publish jobB), .system (.claim .message 0 jobB "w2" "t2"), .system (.unpublish jobB),
      .ran (jobName "" ⟨jobB, 0⟩)])
    (fun c => decide (c.created = [⟨jobName "" ⟨jobB, 0⟩, ⟨jobB, 0⟩, true⟩]) &&
      (c.system.db.jobs.get? jobB).any fun job => job.status == .queued && job.publishedAt == none && job.attempt == 0)
    (by decide +kernel)
  simp only [Bool.and_eq_true, decide_eq_true_eq] at hp
  obtain ⟨hcreated, hjob⟩ := hp
  obtain ⟨job, hj, hjob⟩ := (Option.any_eq_true _ _).mp hjob
  simp only [Bool.and_eq_true, beq_iff_eq] at hjob
  refine ⟨c, job, hc, hj, hjob.1.1, hjob.1.2, fun h => ?_⟩
  rw [hjob.2] at h
  have hanswered := h.answered ⟨jobName "" ⟨jobB, 0⟩, ⟨jobB, 0⟩, true⟩
    (by rw [hcreated]; exact List.mem_singleton_self _) rfl
  cases hanswered.2

end KubernetesJobQueue

end OranAdapt
