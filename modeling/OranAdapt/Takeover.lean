import OranAdapt.Leases

/-!
# Submissions and the holder of an expired lock

A submission asks whether the job an expired lock names is still waiting or
running. It looks the job up by the lock's text against the integer primary
key, so what it asks about is the row whose number that text is, if any: the
holder itself is found only by accident.
-/

namespace OranAdapt

open Runs

def Job.live (job : Job) (now : Time) : Prop :=
  job.status = .queued ∨ (job.status.active = true ∧
    ∃ token expires, job.leaseToken = some token ∧ job.leaseExpiresAt = some expires ∧ now < expires)

def LiveHolder (db : Db) (now : Time) (model : ModelId) (old : JobId) (job : Job) : Prop :=
  ∃ l, db.locks.get? model = some l ∧ l.expiresAt < now ∧ l.jobId = .job old ∧ db.jobs.get? old = some job ∧
    job.live now

/-- A submission never takes over a live holder: it is refused as busy, which
changes nothing (unless its event is stored already, which changes nothing
either), and a job it does record FAILED was not live. -/
structure KeepsLiveHolder (P : Platform) (cfg : Settings) (db : Db) (now : Time) (id : JobId) (event : DriftEvent)
    (actor : String) : Prop where
  refused : ∀ old job, LiveHolder db now event.modelId old job →
    (∃ e, submit P cfg db now id event actor = .error e ∧ e.cls = .modelBusy) ∨
    ∃ id₀ job₀, submit P cfg db now id event actor = .ok (db, .duplicate id₀ job₀)
  failed : ∀ db' r old job job', submit P cfg db now id event actor = .ok (db', r) →
    db.jobs.get? old = some job → db'.jobs.get? old = some job' → job' ≠ job →
    ¬ job.live now ∧ job'.status = .failed ∧ job'.error.map ErrorDict.code = some "JOB_ABANDONED"

/-- The row whose primary key the text is read as is waiting or running. -/
def PkRowLive (P : Platform) (db : Db) (now : Time) (text : String) : Prop :=
  ∃ n p, P.readPk text = some (some n) ∧ (db.jobs.rows.find? fun p => p.2.id = n) = some p ∧
    p.2.waitsOrRuns now = true

section
variable {P : Platform} {cfg : Settings} {db : Db} {now : Time} {id : JobId} {event : DriftEvent} {actor : String}

/-- The primary key lookup, with the submission's own row already inserted. -/
theorem sessionGet_inserted {jobs : Table JobId Job} {new : Job} {text : String}
    (hi : db.jobs.insert? id new = some jobs) {o : Option (JobId × Job)}
    (h : sessionGet P { db with jobs } text = .ok o) :
    (P.readPk text = some none ∧ o = none) ∨
    ∃ n, P.readPk text = some (some n) ∧
      (o = db.jobs.rows.find? (fun p => p.2.id = n) ∨
        (db.jobs.rows.find? (fun p => p.2.id = n) = none ∧ o = some (id, new))) := by
  unfold sessionGet at h
  split at h
  · cases h
  · rename_i hr; cases h; exact .inl ⟨hr, rfl⟩
  · rename_i n hr
    refine .inr ⟨n, hr, ?_⟩
    rw [Except.ok.injEq, Table.rows_insert? hi, List.find?_append] at h
    cases hf : db.jobs.rows.find? fun p => p.2.id = n with
    | some p => rw [hf, Option.some_or] at h; exact .inl h.symm
    | none =>
      rw [hf, Option.none_or, List.find?_singleton] at h
      split at h
      · exact .inr ⟨rfl, h.symm⟩
      · exact .inl h.symm

/-- The check finds the holder active exactly when the row its text is the number of is. -/
theorem holderIsActive_iff {jobs : Table JobId Job} {h : Holder}
    (hi : db.jobs.insert? id (newJob P cfg db now event actor) = some jobs) :
    holderIsActive P { db with jobs } (some h) now = .ok true ↔ PkRowLive P db now h.text := by
  unfold holderIsActive
  constructor
  · intro ha
    obtain ⟨o, ho, ha⟩ := bind_ok ha
    cases o with
    | none => cases ha
    | some p =>
      have hw : p.2.waitsOrRuns now = true := Except.ok.inj ha
      rcases sessionGet_inserted hi ho with ⟨-, hn⟩ | ⟨n, hr, hf | ⟨-, hnew⟩⟩
      · cases hn
      · exact ⟨n, p, hr, hf.symm, hw⟩
      · cases hnew; cases hw
  · rintro ⟨n, p, hr, hf, hw⟩
    have hget : sessionGet P { db with jobs } h.text = .ok (some p) := by
      unfold sessionGet
      rw [hr]
      simp only [Table.rows_insert? hi, List.find?_append, hf, Option.some_or]
    simp only [hget, bind, Except.bind]
    exact congrArg Except.ok hw

theorem holderIsActive_error {holder : Option Holder} {e : AdaptationError}
    (h : holderIsActive P db holder now = .error e) : e.cls = .dataError := by
  unfold holderIsActive at h
  split at h
  · cases h
  · rename_i hd
    cases hg : sessionGet P db hd.text with
    | ok o => cases o <;> simp [hg, bind, Except.bind, pure, Except.pure] at h
    | error e' =>
      simp only [hg, bind, Except.bind, Except.error.injEq] at h
      subst h
      unfold sessionGet at hg
      split at hg <;> cases hg
      rfl

theorem lockForJob_error {model : ModelId} {e : AdaptationError} (h : lockForJob cfg db model id now = .error e) :
    ∃ l, db.locks.get? model = some l ∧ now ≤ l.expiresAt := by
  unfold lockForJob at h
  simp only at h
  cases ht : db.takeOverExpiredLock model (.job id) cfg.modelLockTtlS now with
  | some taken =>
    exfalso
    obtain ⟨l, hl, -, -⟩ := Db.takeOverExpiredLock_some ht
    simp only [ht, hl, Option.map_some] at h
    split at h
    · unfold failAbandonedJob at h
      split at h
      · split at h
        · cases h
        · split at h
          · cases h
          · rename_i job _ hterm
            rw [applyTransition_of _ (JobStatus.mayMove_failed (by simpa using hterm))] at h
            cases h
      · cases h
    · cases h
  | none =>
    simp only [ht] at h
    cases ha : db.addLock model (.job id) cfg.modelLockTtlS now with
    | some added => rw [ha] at h; cases h
    | none =>
      obtain ⟨l, hl⟩ := Option.ne_none_iff_exists'.mp (Db.addLock_none.mp ha)
      exact ⟨l, hl, Db.takeOverExpiredLock_none ht hl⟩

theorem submit_busy {e : AdaptationError} (h : submit P cfg db now id event actor = .error e) (hb : e.cls = .modelBusy)
    (hfresh : db.jobs.get? id = none) :
    ∃ l, db.locks.get? event.modelId = some l ∧ (now ≤ l.expiresAt ∨ PkRowLive P db now l.jobId.text) := by
  unfold submit at h
  split at h
  · cases h
  · simp only at h
    split at h
    · rename_i hi
      exact absurd hfresh (Table.insert?_eq_none.mp hi)
    · rename_i jobs hi
      cases ha : holderIsActive P { db with jobs } ((db.locks.get? event.modelId).map ModelLock.jobId) now with
      | error e' =>
        rw [ha] at h
        cases h
        rw [holderIsActive_error ha] at hb; cases hb
      | ok live =>
        rw [ha] at h
        cases live with
        | true =>
          cases hl : db.locks.get? event.modelId with
          | none => rw [hl] at ha; cases ha
          | some l =>
            rw [hl, Option.map_some] at ha
            exact ⟨l, rfl, .inr ((holderIsActive_iff hi).mp ha)⟩
        | false =>
          simp only [bind, Except.bind] at h
          cases hlock : lockForJob cfg { db with jobs } event.modelId id now with
          | error e' =>
            obtain ⟨l, hl, hle⟩ := lockForJob_error hlock
            exact ⟨l, hl, .inl hle⟩
          | ok db₁ =>
            have hq : (newJob P cfg db now event actor).status.mayMove .queued = true := rfl
            rw [if_neg (by simp), hlock] at h
            simp only [enqueue, bind, Except.bind, applyTransition_of _ hq] at h
            cases h

/-- A submission that sees its model's holder as active is refused as busy. -/
theorem submit_refused (hk : db.byKey (idempotencyKey P event) = none) {l : ModelLock}
    (hl : db.locks.get? event.modelId = some l) (hlive : PkRowLive P db now l.jobId.text) :
    ∃ e, submit P cfg db now id event actor = .error e ∧ e.cls = .modelBusy := by
  unfold submit
  simp only [hk]
  split
  · exact ⟨_, rfl, rfl⟩
  · rename_i jobs hi
    rw [hl, Option.map_some, (holderIsActive_iff hi).mpr hlive]
    exact ⟨_, rfl, rfl⟩

/-- A submission keeps a live holder exactly when its event is stored already,
or the row its model's lock happens to be the number of is itself live. -/
theorem keeps_live_holder_iff (hfresh : db.jobs.get? id = none) :
    KeepsLiveHolder P cfg db now id event actor ↔
      ∀ old job, LiveHolder db now event.modelId old job →
        db.byKey (idempotencyKey P event) ≠ none ∨ PkRowLive P db now (Holder.job old).text := by
  constructor
  · rintro ⟨hrefused, -⟩ old job hlive
    have ⟨l, hl, hexp, hold, _⟩ := hlive
    rcases hrefused old job hlive with ⟨e, he, hb⟩ | ⟨id₀, job₀, hdup⟩
    · obtain ⟨l', hl', hle | hpk⟩ := submit_busy he hb hfresh
      · rw [hl] at hl'; cases hl'
        exact absurd hexp (Nat.not_lt.mpr hle)
      · rw [hl] at hl'; cases hl'
        rw [hold] at hpk
        exact .inr hpk
    · rcases submit_ok hdup with ⟨-, id₁, job₁, hk, -⟩ | ⟨-, -, hr, -⟩
      · exact .inl (by rw [hk]; simp)
      · cases hr
  · intro hcond
    have hrefused : ∀ old job, LiveHolder db now event.modelId old job →
        (∃ e, submit P cfg db now id event actor = .error e ∧ e.cls = .modelBusy) ∨
        ∃ id₀ job₀, submit P cfg db now id event actor = .ok (db, .duplicate id₀ job₀) := by
      intro old job hlive
      cases hk : db.byKey (idempotencyKey P event) with
      | some p => exact .inr ⟨p.1, p.2, by simp [submit, hk]⟩
      | none =>
        have ⟨l, hl, hexp, hold, _⟩ := hlive
        rcases hcond old job hlive with hk' | hpk
        · exact absurd hk hk'
        · exact .inl (submit_refused hk hl (by rw [hold]; exact hpk))
    refine ⟨hrefused, fun db' r old job job' hok hj hj' hne => ?_⟩
    rcases submit_ok hok with ⟨rfl, -⟩ | ⟨-, -, hr, htook, -, ⟨hw, -⟩ |
      ⟨l, old', job₁, hl, hold, hne', hj₁, hterm, hw, -⟩⟩
    · rw [hj] at hj'; exact absurd (Option.some.inj hj').symm hne
    · -- no other job was written
      have hid : old ≠ id := fun e => by rw [e, hfresh] at hj; cases hj
      rw [hw.get_ne hid, hj] at hj'
      exact absurd (Option.some.inj hj').symm hne
    · have hid : old ≠ id := fun e => by rw [e, hfresh] at hj; cases hj
      rw [hw.get_ne hid, Db.get?_put db hj₁] at hj'
      by_cases e : old = old'
      · subst e
        rw [hj] at hj₁; cases hj₁
        rw [if_pos rfl, Option.some.injEq] at hj'; subst hj'
        refine ⟨fun hlive => ?_, rfl, ?_⟩
        · rcases hrefused old job ⟨l, hl, htook.free l hl, hold, hj, hlive⟩ with ⟨e, he, -⟩ |
            ⟨id₀, job₀, hdup⟩
          · rw [hok] at he; cases he
          · rw [hok, hr] at hdup; cases hdup
        · simp only [Job.abandoned, Job.unleased, Job.moved, abandonedChange, Option.some_or, Option.map_some,
            abandonedError]
          split <;> rfl
      · rw [if_neg e, hj] at hj'
        exact absurd (Option.some.inj hj').symm hne

end

namespace System

def queuedPastLock : List Action := [.submit "a1" (drift "e1") "oncall", .advance 3600000001]

theorem keeps_live_holder_iff_stored : ∃ s : System, Steps (step (.sqlite id) .defaults) Free (init cellLoad) s ∧
    (s.db.byKey (idempotencyKey (.sqlite id) (drift "e1"))).isSome ∧
    (KeepsLiveHolder (.sqlite id) .defaults s.db s.now "a2" (drift "e1") "oncall" ↔
      ∀ old job, LiveHolder s.db s.now (drift "e1").modelId old job →
        s.db.byKey (idempotencyKey (.sqlite id) (drift "e1")) ≠ none ∨
          PkRowLive (.sqlite id) s.db s.now (Holder.job old).text) := by
  obtain ⟨s, hs, hp⟩ := Steps.exists_of_runs (step (.sqlite id) .defaults) Free (init cellLoad) queuedPastLock
    (fun s => (s.db.jobs.get? "a2").isNone && (s.db.byKey (idempotencyKey (.sqlite id) (drift "e1"))).isSome)
    (by decide)
  simp only [Bool.and_eq_true, Option.isNone_iff_eq_none] at hp
  exact ⟨s, hs, hp.2, keeps_live_holder_iff hp.1⟩

def abandonsFirst (s : System) : Bool :=
  match submit (.sqlite id) .defaults s.db s.now "a2" (drift "e2") "oncall" with
  | .ok (db, _) => (db.jobs.get? "a1").map (fun job => (job.status, job.error.map ErrorDict.code)) ==
      some (.failed, some "JOB_ABANDONED")
  | .error _ => false

/-- A job that waited longer than its lock is failed by the next submission for its model. -/
theorem takes_over_queued_job : ∃ s s' : System, Steps (step (.sqlite id) .defaults) Free (init cellLoad) s ∧
    ¬ KeepsLiveHolder (.sqlite id) .defaults s.db s.now "a2" (drift "e2") "oncall" ∧
    (s.db.jobs.get? "a1").map Job.status = some .queued ∧
    step (.sqlite id) .defaults s (.submit "a2" (drift "e2") "oncall") = some s' ∧
    (s'.db.jobs.get? "a1").map (fun job => (job.status, job.error.map ErrorDict.code)) =
      some (.failed, some "JOB_ABANDONED") := by
  obtain ⟨s, hs, hp⟩ := Steps.exists_of_runs (step (.sqlite id) .defaults) Free (init cellLoad) queuedPastLock
    (fun s => (s.db.jobs.get? "a1").map Job.status == some .queued &&
      s.abandonsFirst) (by decide)
  simp only [Bool.and_eq_true, beq_iff_eq] at hp
  obtain ⟨hqueued, hsubmit⟩ := hp
  unfold abandonsFirst at hsubmit
  split at hsubmit
  · rename_i db r hok
    rw [beq_iff_eq] at hsubmit
    refine ⟨s, { s with db }, hs, fun hk => ?_, hqueued, by simp only [step, hok], hsubmit⟩
    obtain ⟨job, hj, hstatus⟩ := Option.map_eq_some_iff.mp hqueued
    obtain ⟨job', hj', hfailed⟩ := Option.map_eq_some_iff.mp hsubmit
    have hne : job' ≠ job := by
      rintro rfl
      rw [hstatus] at hfailed; cases hfailed
    exact (hk.failed db r "a1" job job' hok hj hj' hne).1 (.inl hstatus)
  · cases hsubmit

end System

end OranAdapt
