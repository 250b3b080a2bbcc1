import OranAdapt.CdcPolling

/-!
# Numbers and commits

A changelog row is numbered before its transaction commits, so a poll can read
a row above one it cannot see yet. The number it saves then passes the hidden
row, which no later poll reads. The changes of a run are all stored in the end
exactly when no poll that lands does this to a row that commits later.
-/

namespace OranAdapt

open Effects

variable {δ : Type}

namespace Poller

variable (p : Poller δ)

def Committed (w : PollWorld δ) (r : ChangelogRow) : Prop := r ∈ w.changelog ∧ r.tableName = p.source.table

def Open (w : PollWorld δ) (r : ChangelogRow) : Prop := r ∈ w.pending.map (·.2) ∧ r.tableName = p.source.table

def Reads (r : ChangelogRow) : Prop := ∃ e, p.Becomes r e

/-! ## Every reachable state -/

structure Ordered (w : PollWorld δ) : Prop where
  unique : ((w.changelog ++ w.pending.map (·.2)).map (·.seq)).Nodup
  bound : ∀ r ∈ w.changelog ++ w.pending.map (·.2), r.seq ≤ w.lastSeq
  reads : p.source.after w.db = .ok (p.saved w)
  saved : p.saved w ≤ w.lastSeq
  known : ∀ x ∈ w.db.events, ∃ r, p.Committed w r ∧ r.seq ≤ p.saved w ∧ p.Becomes r x.event

variable {p} {w w' : PollWorld δ} {r r' : ChangelogRow} {f : PollAnswers}

theorem after_iff : p.source.after w.db = .ok (p.saved w) ↔ ∀ o, getOffset w.db p.source.name ≠ some (.offsets o) := by
  unfold PollingCdcSource.after Poller.saved
  split <;> simp_all

theorem Ordered.log_unique (h : p.Ordered w) : (w.changelog.map (·.seq)).Nodup := by
  have := h.unique
  rw [List.map_append] at this
  exact (List.nodup_append.mp this).1

theorem Ordered.same (h : p.Ordered w) (hr : p.Committed w r) (hr' : p.Committed w r') (hs : r.seq = r'.seq) : r = r' :=
  List.inj_on_of_nodup_map h.log_unique hr.1 hr'.1 hs

/-- An open row has the number of no committed row. -/
theorem Ordered.ne (h : p.Ordered w) (hr : p.Open w r) : ∀ v ∈ w.changelog, v.seq ≠ r.seq := by
  intro v hv
  have := h.unique
  rw [List.map_append] at this
  exact (List.nodup_append.mp this).2.2 v.seq (List.mem_map_of_mem hv) r.seq (List.mem_map_of_mem hr.1)

theorem Ordered.batch (h : p.Ordered w) (hr : ∀ r ∈ p.source.due (p.saved w) f.limit w.changelog, p.Reads r) :
    ∃ events, p.source.batch p.codec f.limit ⟨w.changelog, w.db⟩ =
      .ok (events, (p.source.due (p.saved w) f.limit w.changelog).getLast?.map (.seq ·.seq)) := by
  obtain ⟨events, hevents⟩ := mapM_total hr
  refine ⟨events, ?_⟩
  unfold PollingCdcSource.batch
  rw [h.reads]
  change (do
    let events ← (p.source.due (p.saved w) f.limit w.changelog).mapM (fromChangelogRow _ _ _)
    pure (events, _)) = _
  rw [hevents]
  rfl

/-- What a poll that stored a batch did. -/
structure Took (p : Poller δ) (f : PollAnswers) (w w' : PollWorld δ) : Prop where
  lands : f.lands = true
  changelog : w'.changelog = w.changelog
  pending : w'.pending = w.pending
  lastSeq : w'.lastSeq = w.lastSeq
  saved : p.saved w' = match (p.source.due (p.saved w) f.limit w.changelog).getLast? with
    | some l => l.seq
    | none => p.saved w
  reads : p.source.after w'.db = .ok (p.saved w')
  keeps : ∀ x ∈ w.db.events, x ∈ w'.db.events
  from_ : ∀ x ∈ w'.db.events, x ∈ w.db.events ∨
    ∃ r ∈ p.source.due (p.saved w) f.limit w.changelog, p.Becomes r x.event
  covers : ∀ r ∈ p.source.due (p.saved w) f.limit w.changelog, ∃ e, p.Becomes r e ∧
    ∃ x ∈ w'.db.events, x.event.eventId = e.eventId

/-- The saved number never goes back. -/
theorem Took.saved_le (h : Took p f w w') : p.saved w ≤ p.saved w' := by
  rw [h.saved]
  split
  · rename_i l hl
    exact Nat.le_of_lt (p.source.past_of_due (List.mem_of_getLast? hl)).2.2
  · exact Nat.le_refl _

theorem Took.le_saved (h : Took p f w w') (hr : r ∈ p.source.due (p.saved w) f.limit w.changelog) :
    r.seq ≤ p.saved w' := by
  rw [h.saved]
  split
  · rename_i l hl
    exact p.source.le_last hl hr
  · rename_i hl
    rw [List.getLast?_eq_none_iff] at hl
    rw [hl] at hr
    cases hr

variable [DecidableEq δ]

theorem Ordered.took (h : p.Ordered w) {events : List (CdcEvent δ)} {position : Option Position} (hlands : f.lands = true)
    (hb : p.source.batch p.codec f.limit ⟨w.changelog, w.db⟩ = .ok (events, position)) : Took p f w (p.poll f w) := by
  have hdb : (p.poll f w).db = (storeEvents w.db events p.source.name position).2 := by
    rw [poll_eq, hlands, hb]
  obtain ⟨hevents, rfl⟩ := p.batch_ok hb
  refine ⟨hlands, by rw [poll_eq], by rw [poll_eq], by rw [poll_eq], p.saved_store hdb, ?_, ?_, ?_, ?_⟩
  · have hreads := after_iff.mp h.reads
    refine after_iff.mpr fun o => ?_
    rw [hdb, storeEvents_offset]
    cases (p.source.due (p.saved w) f.limit w.changelog).getLast? with
    | some l => nofun
    | none => exact hreads o
  · intro x hx
    rw [hdb]
    exact storeEvents_keeps w.db events _ _ hx
  · intro x hx
    rw [hdb] at hx
    rcases storeEvents_from w.db events _ _ hx with hx | hx
    · exact .inl hx
    · exact .inr (exists_of_mem_right hevents hx.1)
  · intro r hr
    obtain ⟨e, he, hre⟩ := exists_of_mem_left hevents hr
    rw [hdb]
    exact ⟨e, hre, storeEvents_covers w.db events _ _ he⟩

theorem Ordered.poll_cases (h : p.Ordered w) (f : PollAnswers) : p.poll f w = w ∨ Took p f w (p.poll f w) := by
  rcases p.poll_db f w with hdb | ⟨events, position, hlands, hb, -⟩
  · exact .inl (by rw [poll_eq] at hdb ⊢; exact congrArg (fun d => { w with db := d }) hdb)
  · exact .inr (h.took hlands hb)

theorem Ordered.takes (h : p.Ordered w) (hlands : f.lands = true)
    (hr : ∀ r ∈ p.source.due (p.saved w) f.limit w.changelog, p.Reads r) : Took p f w (p.poll f w) := by
  obtain ⟨events, hb⟩ := h.batch hr
  exact h.took hlands hb

/-! ## One step -/

variable {a : PollAction} {tx : Nat}

theorem Ordered.poll (h : p.Ordered w) (f : PollAnswers) : p.Ordered (p.poll f w) := by
  rcases h.poll_cases f with hw | ht
  · rwa [hw]
  · have hrows : ∀ r ∈ p.source.due (p.saved w) f.limit w.changelog, p.Committed w r := fun r hr =>
      ⟨(p.source.past_of_due hr).1, (p.source.past_of_due hr).2.1⟩
    refine ⟨by rw [ht.changelog, ht.pending]; exact h.unique, by rw [ht.changelog, ht.pending, ht.lastSeq]; exact h.bound,
      ht.reads, ?_, ?_⟩
    · rw [ht.lastSeq, ht.saved]
      split
      · rename_i l hl
        exact h.bound l (List.mem_append_left _ (hrows l (List.mem_of_getLast? hl)).1)
      · exact h.saved
    · intro x hx
      rcases ht.from_ x hx with hx | ⟨r, hr, hrx⟩
      · obtain ⟨r, hr, hle, hrx⟩ := h.known x hx
        exact ⟨r, ⟨ht.changelog ▸ hr.1, hr.2⟩, Nat.le_trans hle ht.saved_le, hrx⟩
      · exact ⟨r, ⟨ht.changelog ▸ (hrows r hr).1, (hrows r hr).2⟩, ht.le_saved hr, hrx⟩

omit [DecidableEq δ] in
/-- The rows a transaction's end leaves or makes visible are those it found. -/
theorem commit_perm (w : PollWorld δ) (tx : Nat) :
    (w.changelog ++ (w.pending.filter fun x => x.1 = tx).map (·.2) ++ (w.pending.filter fun x => x.1 ≠ tx).map (·.2)).Perm
      (w.changelog ++ w.pending.map (·.2)) := by
  rw [List.append_assoc, ← List.map_append]
  refine List.Perm.append_left _ (List.Perm.map _ ?_)
  have := List.filter_append_perm (fun x : Nat × ChangelogRow => x.1 = tx) w.pending
  simpa using this

theorem Ordered.step (h : p.Ordered w) (a : PollAction) : p.Ordered (p.step w a) := by
  cases a with
  | change tx table row changedAt =>
    have hrows : (p.step w (.change tx table row changedAt)).pending.map (·.2) =
        w.pending.map (·.2) ++ [p.trigger.postgresql table row (w.lastSeq + 1) tx changedAt] := by
      simp [Poller.step]
    refine ⟨?_, ?_, h.reads, Nat.le_succ_of_le h.saved, h.known⟩
    · rw [hrows, ← List.append_assoc, List.map_append, List.nodup_append]
      refine ⟨h.unique, List.nodup_singleton _, ?_⟩
      intro n hn m hm hnm
      obtain ⟨r, hr, rfl⟩ := List.mem_map.mp hn
      have hle := h.bound r hr
      rw [List.map_singleton, List.mem_singleton] at hm
      have hm' : m = w.lastSeq + 1 := hm
      omega
    · intro r hr
      rw [hrows, ← List.append_assoc] at hr
      change r.seq ≤ w.lastSeq + 1
      rcases List.mem_append.mp hr with hr | hr
      · exact Nat.le_succ_of_le (h.bound r hr)
      · rw [List.mem_singleton.mp hr]
        exact Nat.le_refl _
  | commit tx =>
    have hperm := commit_perm w tx
    refine ⟨(hperm.map _).nodup_iff.mpr h.unique, fun r hr => h.bound r (hperm.mem_iff.mp hr), h.reads, h.saved, ?_⟩
    intro x hx
    obtain ⟨r, hr, hle, hrx⟩ := h.known x hx
    exact ⟨r, ⟨List.mem_append_left _ hr.1, hr.2⟩, hle, hrx⟩
  | abort tx =>
    have hsub : (w.changelog ++ (w.pending.filter fun x => x.1 ≠ tx).map (·.2)).Sublist
        (w.changelog ++ w.pending.map (·.2)) :=
      List.Sublist.append_left (List.Sublist.map _ List.filter_sublist) _
    exact ⟨(hsub.map _).nodup h.unique, fun r hr => h.bound r (hsub.subset hr), h.reads, h.saved, h.known⟩
  | poll f => exact h.poll f

omit [DecidableEq δ] in
theorem ordered_initial : p.Ordered {} :=
  ⟨List.nodup_nil, fun _ hr => absurd hr List.not_mem_nil, after_iff.mpr fun _ => nofun, Nat.le_refl 0,
    fun _ hx => absurd hx List.not_mem_nil⟩

theorem run_append (as bs : List PollAction) (w : PollWorld δ) : p.run (as ++ bs) w = p.run bs (p.run as w) :=
  List.foldl_append

theorem run_cons (a : PollAction) (as : List PollAction) (w : PollWorld δ) : p.run (a :: as) w = p.run as (p.step w a) :=
  rfl

theorem ordered_run (as : List PollAction) (h : p.Ordered w) : p.Ordered (p.run as w) := by
  induction as generalizing w with
  | nil => exact h
  | cons a as ih =>
    rw [run_cons]
    exact ih (h.step a)

/-- The poll's step, when it stores nothing and when it stores its batch. -/
theorem Ordered.step_poll (h : p.Ordered w) (f : PollAnswers) :
    p.step w (.poll f) = w ∨ Took p f w (p.step w (.poll f)) := h.poll_cases f

theorem Committed.step (hr : p.Committed w r) (a : PollAction) : p.Committed (p.step w a) r := by
  refine ⟨?_, hr.2⟩
  cases a with
  | commit tx => exact List.mem_append_left _ hr.1
  | change | abort => exact hr.1
  | poll f =>
    change r ∈ (p.poll f w).changelog
    rw [poll_eq]
    exact hr.1

theorem committed_run : ∀ (as : List PollAction) {w : PollWorld δ}, p.Committed w r → p.Committed (p.run as w) r
  | [], _, h => h
  | a :: as, _, h => committed_run as (h.step a)

theorem lastSeq_step (w : PollWorld δ) (a : PollAction) : w.lastSeq ≤ (p.step w a).lastSeq := by
  cases a with
  | change => exact Nat.le_succ _
  | commit | abort => exact Nat.le_refl _
  | poll f =>
    change _ ≤ (p.poll f w).lastSeq
    rw [poll_eq]

theorem committed_step (hr : p.Committed (p.step w a) r) : p.Committed w r ∨ p.Open w r := by
  cases a with
  | change | abort => exact .inl hr
  | commit tx =>
    rcases List.mem_append.mp hr.1 with h | h
    · exact .inl ⟨h, hr.2⟩
    · exact .inr ⟨(List.Sublist.map _ List.filter_sublist).subset h, hr.2⟩
  | poll f =>
    change p.Committed (p.poll f w) r at hr
    rw [poll_eq] at hr
    exact .inl hr

theorem open_step (hr : p.Open (p.step w a) r) : p.Open w r ∨ w.lastSeq < r.seq := by
  cases a with
  | change tx table row changedAt =>
    have h : r ∈ (w.pending ++ [(tx, p.trigger.postgresql table row (w.lastSeq + 1) tx changedAt)]).map (·.2) := hr.1
    rw [List.map_append, List.mem_append] at h
    rcases h with h | h
    · exact .inl ⟨h, hr.2⟩
    · rw [List.map_singleton, List.mem_singleton] at h
      exact .inr (h ▸ Nat.lt_succ_self _)
  | commit tx | abort tx => exact .inl ⟨(List.Sublist.map _ List.filter_sublist).subset hr.1, hr.2⟩
  | poll f =>
    change p.Open (p.poll f w) r at hr
    rw [poll_eq] at hr
    exact .inl hr

/-- A row committed in the end is committed, open or not yet numbered. -/
theorem arrives : ∀ (as : List PollAction) (w : PollWorld δ), p.Committed (p.run as w) r →
    p.Committed w r ∨ p.Open w r ∨ w.lastSeq < r.seq
  | [], _, h => .inl h
  | a :: as, w, h => by
    rcases arrives as (p.step w a) h with h | h | h
    · rcases committed_step h with h | h
      · exact .inl h
      · exact .inr (.inl h)
    · rcases open_step h with h | h
      · exact .inr (.inl h)
      · exact .inr (.inr h)
    · exact .inr (.inr (Nat.lt_of_le_of_lt (lastSeq_step w a) h))

/-! ## What is stored and what is lost -/

omit [DecidableEq δ] in
theorem Took.stores (ht : Took p f w w') (hsha : Function.Injective p.codec.sha256) (h : p.Ordered w')
    (hr : r ∈ p.source.due (p.saved w) f.limit w.changelog) : p.Stored w' r := by
  obtain ⟨e, hre, x, hx, hid⟩ := ht.covers r hr
  obtain ⟨r', hr', -, hx'⟩ := h.known x hx
  have hcom : p.Committed w' r := ⟨ht.changelog ▸ (p.source.past_of_due hr).1, (p.source.past_of_due hr).2.1⟩
  have hsame : r' = r := h.same hr' hcom (eventId_seq hsha hx' hre hid)
  exact ⟨x, hx, hsame ▸ hx'⟩

theorem Stored.step (hr : p.Stored w r) (a : PollAction) : p.Stored (p.step w a) r := by
  cases a with
  | change | commit | abort => exact hr
  | poll f =>
    change p.Stored (p.poll f w) r
    obtain ⟨x, hx, hrx⟩ := hr
    rcases p.poll_db f w with hdb | ⟨events, position, -, -, hdb⟩
    · exact ⟨x, hdb ▸ hx, hrx⟩
    · exact ⟨x, hdb ▸ storeEvents_keeps w.db events _ _ hx, hrx⟩

omit [DecidableEq δ] in
/-- An open row is not stored: only committed rows are read. -/
theorem Ordered.not_stored (h : p.Ordered w) (hsha : Function.Injective p.codec.sha256) (hr : p.Open w r) :
    ¬ p.Stored w r := by
  rintro ⟨x, hx, hrx⟩
  obtain ⟨r', hr', -, hx'⟩ := h.known x hx
  exact h.ne hr r' hr'.1 (eventId_seq hsha hx' hrx rfl)

def Lost (p : Poller δ) (w : PollWorld δ) (r : ChangelogRow) : Prop := r.seq ≤ p.saved w ∧ ¬ p.Stored w r

theorem Lost.step (hr : Lost p w r) (hsha : Function.Injective p.codec.sha256) (h : p.Ordered w) (a : PollAction) :
    Lost p (p.step w a) r := by
  cases a with
  | change | commit | abort => exact hr
  | poll f =>
    rcases h.step_poll f with hw | ht
    · rwa [hw]
    · refine ⟨Nat.le_trans hr.1 ht.saved_le, ?_⟩
      rintro ⟨x, hx, hrx⟩
      rcases ht.from_ x hx with hx | ⟨r', hr', hrx'⟩
      · exact hr.2 ⟨x, hx, hrx⟩
      · have hseq := eventId_seq hsha hrx' hrx rfl
        have hpast := (p.source.past_of_due hr').2.2
        have hle := hr.1
        omega

/-- A row passed by is never stored. -/
theorem lost_run (hsha : Function.Injective p.codec.sha256) : ∀ (as : List PollAction) {w : PollWorld δ},
    p.Ordered w → Lost p w r → Lost p (p.run as w) r
  | [], _, _, hr => hr
  | a :: as, _, h, hr => lost_run hsha as (h.step a) (hr.step hsha h a)

variable (p)

/-- The poll reads past an open row: some row above it is committed, and those between the saved
number and the open row leave room in the batch. -/
def Overtakes (w : PollWorld δ) (f : PollAnswers) (r : ChangelogRow) : Prop :=
  p.saved w < r.seq ∧ (∃ v, p.Committed w v ∧ r.seq < v.seq) ∧
    (w.changelog.countP fun v => v.tableName = p.source.table ∧ p.saved w < v.seq ∧ v.seq < r.seq) < f.limit

/-- No poll that lands reads past an open row that is committed in the end. -/
def NoneOvertaken (as : List PollAction) (w : PollWorld δ) : Prop :=
  ∀ pre f post, as = pre ++ .poll f :: post → f.lands = true → ∀ r, p.Open (p.run pre w) r →
    p.Committed (p.run as w) r → ¬ p.Overtakes (p.run pre w) f r

def AllRead (as : List PollAction) : Prop := ∀ r, p.Committed (p.run as {}) r → p.Reads r

/-- The saved number stays below the open rows that are committed in the end. -/
def OffsetBehind (as : List PollAction) : Prop :=
  ∀ pre post, as = pre ++ post → ∀ r, p.Open (p.run pre {}) r → p.Committed (p.run as {}) r →
    p.saved (p.run pre {}) < r.seq

variable {p}

omit [DecidableEq δ] in
theorem overtakes_iff (h : p.Ordered w) (hr : p.Open w r) : p.Overtakes w f r ↔ p.saved w < r.seq ∧
    ∃ l, (p.source.due (p.saved w) f.limit w.changelog).getLast? = some l ∧ r.seq < l.seq := by
  rw [p.source.reaches_iff (h.ne hr)]
  constructor
  · rintro ⟨hlt, ⟨v, hv, hrv⟩, hc⟩
    exact ⟨hlt, ⟨v, ⟨hv.1, hv.2, Nat.lt_trans hlt hrv⟩, hrv⟩, hc⟩
  · rintro ⟨hlt, ⟨v, hv, hrv⟩, hc⟩
    exact ⟨hlt, ⟨v, ⟨hv.1, hv.2.1⟩, hrv⟩, hc⟩

/-- An overtaken row is passed by: it stays open, and the saved number is past it. -/
theorem Ordered.overtaken (h : p.Ordered w) (hsha : Function.Injective p.codec.sha256) (hlands : f.lands = true)
    (hall : ∀ r, p.Committed w r → p.Reads r) (hr : p.Open w r) (ho : p.Overtakes w f r) :
    p.Open (p.step w (.poll f)) r ∧ Lost p (p.step w (.poll f)) r := by
  have ht : Took p f w (p.step w (.poll f)) := h.takes hlands fun v hv =>
    hall v ⟨(p.source.past_of_due hv).1, (p.source.past_of_due hv).2.1⟩
  obtain ⟨-, l, hl, hlt⟩ := (overtakes_iff h hr).mp ho
  have hopen : p.Open (p.step w (.poll f)) r := ⟨ht.pending ▸ hr.1, hr.2⟩
  have hsaved := ht.saved
  rw [hl] at hsaved
  refine ⟨hopen, ?_, (h.step (.poll f)).not_stored hsha hopen⟩
  rw [hsaved]
  exact Nat.le_of_lt hlt

/-- Every row up to the saved number that is committed in the end is stored. -/
def Kept (p : Poller δ) (as : List PollAction) (w : PollWorld δ) : Prop :=
  ∀ r, p.Committed (p.run as w) r → r.seq ≤ p.saved w → p.Stored w r

theorem Kept.step {as : List PollAction} (hk : Kept p (a :: as) w) (hsha : Function.Injective p.codec.sha256)
    (h : p.Ordered w) (hn : p.NoneOvertaken (a :: as) w) : Kept p as (p.step w a) := by
  intro r hr hle
  cases a with
  | change | commit | abort => exact hk r hr hle
  | poll f =>
    rcases h.step_poll f with hw | ht
    · rw [hw] at hle ⊢
      exact hk r hr hle
    · by_cases hold : r.seq ≤ p.saved w
      · exact (hk r hr hold).step (.poll f)
      · have hnew := Nat.not_le.mp hold
        rw [ht.saved] at hle
        split at hle
        · rename_i l hl
          have hlast : l.seq ≤ w.lastSeq :=
            h.bound l (List.mem_append_left _ (p.source.past_of_due (List.mem_of_getLast? hl)).1)
          rcases arrives (.poll f :: as) w hr with hc | ho | hlate
          · exact ht.stores hsha (h.step (.poll f))
              (p.source.due_of_le h.log_unique hl ⟨hc.1, hc.2, hnew⟩ hle)
          · have hlt : r.seq < l.seq := Nat.lt_of_le_of_ne hle fun he =>
              h.ne ho l (p.source.past_of_due (List.mem_of_getLast? hl)).1 he.symm
            exact absurd ((overtakes_iff h ho).mpr ⟨hnew, l, hl, hlt⟩) (hn [] f as rfl ht.lands r ho hr)
          · omega
        · exact absurd hle hold

theorem NoneOvertaken.tail {as : List PollAction} (hn : p.NoneOvertaken (a :: as) w) : p.NoneOvertaken as (p.step w a) :=
  fun pre f post has hl => hn (a :: pre) f post (by rw [has]; rfl) hl

theorem kept_run (hsha : Function.Injective p.codec.sha256) : ∀ (pre post : List PollAction) {w : PollWorld δ},
    p.Ordered w → p.NoneOvertaken (pre ++ post) w → Kept p (pre ++ post) w → Kept p post (p.run pre w)
  | [], _, _, _, _, hk => hk
  | a :: pre, post, _, h, hn, hk => kept_run hsha pre post (h.step a) hn.tail (hk.step hsha h hn)

/-! ## Polling on -/

def PollAction.lands : PollAction → Bool
  | .poll f => f.lands
  | _ => false

/-- A committed row is stored, or the saved number has come up to `n` on its way to it. -/
def Nearing (p : Poller δ) (n : Nat) (w : PollWorld δ) (r : ChangelogRow) : Prop :=
  p.Stored w r ∨ p.saved w < r.seq ∧ n ≤ p.saved w

theorem Nearing.step {n : Nat} (hr : Nearing p n w r) (hsha : Function.Injective p.codec.sha256) (h : p.Ordered w)
    (hc : p.Committed w r) (hall : ∀ r, p.Committed w r → p.Reads r) (a : PollAction) :
    Nearing p (n + if PollAction.lands a then 1 else 0) (p.step w a) r := by
  rcases hr with hr | ⟨hlt, hn⟩
  · exact .inl (hr.step a)
  · cases a with
    | change | commit | abort => exact .inr ⟨hlt, hn⟩
    | poll f =>
      by_cases hl : f.lands = true
      · have ht : Took p f w (p.step w (.poll f)) := h.takes hl fun v hv =>
          hall v ⟨(p.source.past_of_due hv).1, (p.source.past_of_due hv).2.1⟩
        obtain ⟨l, hlast⟩ := p.source.due_last f.limit_pos (r := r) ⟨hc.1, hc.2, hlt⟩
        have hpast := (p.source.past_of_due (List.mem_of_getLast? hlast)).2.2
        have hsaved := ht.saved
        rw [hlast] at hsaved
        dsimp only at hsaved
        by_cases hle : r.seq ≤ l.seq
        · exact .inl (ht.stores hsha (h.step (.poll f)) (p.source.due_of_le h.log_unique hlast ⟨hc.1, hc.2, hlt⟩ hle))
        · refine .inr ⟨by omega, ?_⟩
          simp only [PollAction.lands, hl, if_true]
          omega
      · rcases h.step_poll f with hw | ht
        · rw [hw]
          exact .inr ⟨hlt, by simpa [PollAction.lands, hl] using hn⟩
        · exact absurd ht.lands hl

/-- Every poll that lands stores the row or brings the saved number nearer to it. -/
theorem nearing_run (hsha : Function.Injective p.codec.sha256) : ∀ (bs : List PollAction) {w : PollWorld δ} {n : Nat},
    p.Ordered w → p.Committed w r → (∀ r, p.Committed (p.run bs w) r → p.Reads r) → Nearing p n w r →
    Nearing p (n + bs.countP PollAction.lands) (p.run bs w) r
  | [], _, _, _, _, _, hr => hr
  | b :: bs, w, n, h, hc, hall, hr => by
    have hstep := hr.step hsha h hc (fun v hv => hall v (committed_run (b :: bs) hv)) b
    have hrun := nearing_run hsha bs (h.step b) (hc.step b) hall hstep
    rw [List.countP_cons, Nat.add_comm (bs.countP _), ← Nat.add_assoc]
    exact hrun

variable (p)

/-- Once polling continues, whatever else happens, every committed row is stored after finitely
many polls that land, as long as the rows committed meanwhile can be read. -/
def EventuallyStored (w : PollWorld δ) : Prop :=
  ∀ r, p.Committed w r → ∃ n, ∀ bs, (∀ v, p.Committed (p.run bs w) v → p.Committed w v ∨ p.Reads v) →
    n ≤ bs.countP PollAction.lands → p.Stored (p.run bs w) r

variable {p}

theorem Kept.eventually (hk : Kept p [] w) (hsha : Function.Injective p.codec.sha256) (h : p.Ordered w)
    (hall : ∀ r, p.Committed w r → p.Reads r) : p.EventuallyStored w := by
  intro r hr
  refine ⟨r.seq, fun bs hread hn => ?_⟩
  have hstart : Nearing p 0 w r := by
    by_cases hle : r.seq ≤ p.saved w
    · exact .inl (hk r hr hle)
    · exact .inr ⟨Nat.not_le.mp hle, Nat.zero_le _⟩
  rcases nearing_run hsha bs h hr (fun v hv => (hread v hv).elim (hall v) id) hstart with hs | ⟨hlt, hle⟩
  · exact hs
  · omega

theorem one_row : 1 ≤ 1 := le_rfl

/-- Polls that work and find no new transaction. -/
def polling (n : Nat) : List PollAction := List.replicate n (.poll { limit := 1, limit_pos := one_row })

theorem polling_changelog : ∀ (n : Nat) (w : PollWorld δ), (p.run (polling n) w).changelog = w.changelog
  | 0, _ => rfl
  | n + 1, w => by
    have hstep : (p.step w (.poll { limit := 1, limit_pos := one_row })).changelog = w.changelog := by
      change (p.poll _ w).changelog = _
      rw [poll_eq]
    exact (polling_changelog n _).trans hstep

theorem EventuallyStored.polling (h : p.EventuallyStored w) (hr : p.Committed w r) :
    ∃ n, p.Stored (p.run (polling n) w) r := by
  obtain ⟨n, hn⟩ := h r hr
  refine ⟨n, hn _ (fun v hv => .inl ⟨polling_changelog n w ▸ hv.1, hv.2⟩) ?_⟩
  unfold Poller.polling
  rw [List.countP_replicate]
  exact Nat.le_refl n

/-- For every run: the committed changes are all stored once polling continues exactly when each
can be read and no poll that lands overtakes one; and the saved number stays behind the changes
still hidden exactly when none is overtaken. -/
theorem polling_loses_none (p : Poller δ) (hsha : Function.Injective p.codec.sha256) (as : List PollAction) :
    (p.EventuallyStored (p.run as {}) ↔ p.AllRead as ∧ p.NoneOvertaken as {}) ∧
      (p.AllRead as → (p.OffsetBehind as ↔ p.NoneOvertaken as {})) := by
  have hord : ∀ pre, p.Ordered (p.run pre {}) := fun pre => ordered_run pre ordered_initial
  have hkept : ∀ pre post, as = pre ++ post → p.NoneOvertaken as {} → Kept p post (p.run pre {}) := by
    intro pre post has hn
    subst has
    exact kept_run hsha pre post ordered_initial hn fun r hr hle => by
      rcases arrives (pre ++ post) {} hr with hc | ho | hlt
      · exact absurd hc.1 (List.not_mem_nil)
      · exact absurd ho.1 (List.not_mem_nil)
      · exact absurd hle (Nat.not_le.mpr hlt)
  have hpasses : p.AllRead as → ∀ pre f post, as = pre ++ .poll f :: post → f.lands = true → ∀ r,
      p.Open (p.run pre {}) r → p.Overtakes (p.run pre {}) f r →
      p.Open (p.run (pre ++ [.poll f]) {}) r ∧ Lost p (p.run (pre ++ [.poll f]) {}) r := by
    intro hall pre f post has hl r ho hover
    rw [run_append]
    refine (hord pre).overtaken hsha hl (fun v hv => hall v ?_) ho hover
    rw [has, run_append]
    exact committed_run _ hv
  refine ⟨⟨fun hev => ?_, fun ⟨hall, hn⟩ => ?_⟩, fun hall => ⟨fun hb => ?_, fun hn => ?_⟩⟩
  · have hall : p.AllRead as := by
      intro r hr
      obtain ⟨n, x, -, hx⟩ := hev.polling hr
      exact ⟨_, hx⟩
    refine ⟨hall, fun pre f post has hl r ho hc hover => ?_⟩
    have hlost := (hpasses hall pre f post has hl r ho hover).2
    obtain ⟨n, hs⟩ := hev.polling hc
    have hrun : p.run (polling n) (p.run as {}) = p.run (post ++ polling n) (p.run (pre ++ [.poll f]) {}) := by
      rw [has, ← run_append, ← run_append]
      simp
    rw [hrun] at hs
    exact (lost_run hsha _ (hord _) hlost).2 hs
  · exact (hkept as [] (List.append_nil as).symm hn).eventually hsha (hord as) hall
  · intro pre f post has hl r ho hc hover
    obtain ⟨hopen, hlost⟩ := hpasses hall pre f post has hl r ho hover
    have hlt := hb (pre ++ [.poll f]) post (by simpa using has) r hopen hc
    exact absurd hlost.1 (Nat.not_le.mpr hlt)
  · intro pre post has r ho hc
    refine Nat.lt_of_not_le fun hle => (hord pre).not_stored hsha ho (hkept pre post has hn r ?_ hle)
    rw [← run_append, ← has]
    exact hc

/-! ### Two writers -/

/-- The texts of one example, as `pd.Timestamp` and `json.dumps` read and write them. -/
def kpiCodec : CdcCodec (List String) where
  sha256 := id
  loads _ := none
  timestamp
    | .str "2026-01-01T00:00:00.000000Z" => some 1767225600000000
    | .str "2026-01-01T00:15:00+00:00" => some 1767226500000000
    | _ => none
  fromMicros n := some n
  fromMillis
    | .int n => some (1000 * n)
    | _ => none
  repr _ := ""

def kpiText : Json → String
  | .int n => toString n
  | .str s => s
  | _ => ""

def kpiPoller : Poller (List String) where
  codec := kpiCodec
  source := { table := "kpi_sample", schemaRef := "kpi_sample/1" }
  trigger := { key := "id", text := kpiText }

def kpiRow (id load : Int) : JsonDict :=
  [("id", .int id), ("dataset_id", .str "kpi"), ("observed_at", .str "2026-01-01T00:15:00+00:00"),
    ("payload", .obj [("load", .int load)])]

/-- The first writer numbers its row first and commits last, after a poll saw the second writer's row. -/
def lateCommit : List PollAction :=
  [.change 1 "kpi_sample" (.insert (kpiRow 1 10)) "2026-01-01T00:00:00.000000Z",
   .change 2 "kpi_sample" (.insert (kpiRow 2 20)) "2026-01-01T00:00:00.000000Z", .commit 2,
   .poll { limit := 500 }, .commit 1]

theorem polling_loses_none_lateCommit :
    (kpiPoller.EventuallyStored (kpiPoller.run lateCommit {}) ↔
        kpiPoller.AllRead lateCommit ∧ kpiPoller.NoneOvertaken lateCommit {}) ∧
      (kpiPoller.AllRead lateCommit → (kpiPoller.OffsetBehind lateCommit ↔ kpiPoller.NoneOvertaken lateCommit {})) :=
  polling_loses_none kpiPoller Function.injective_id lateCommit

def lateRow : ChangelogRow :=
  kpiPoller.trigger.postgresql "kpi_sample" (.insert (kpiRow 1 10)) 1 1 "2026-01-01T00:00:00.000000Z"

theorem lateRow_passed : kpiPoller.Open (kpiPoller.run (lateCommit.take 4) {}) lateRow ∧
    Lost kpiPoller (kpiPoller.run (lateCommit.take 4) {}) lateRow := by
  have hord : kpiPoller.Ordered (kpiPoller.run (lateCommit.take 3) {}) := ordered_run _ ordered_initial
  refine hord.overtaken (f := { limit := 500 }) Function.injective_id rfl ?_ ⟨.head _, rfl⟩ ?_
  · rintro r ⟨hr, -⟩
    cases List.mem_singleton.mp hr
    exact ⟨_, rfl⟩
  · exact ⟨by decide +kernel, ⟨_, ⟨.head _, rfl⟩, by decide +kernel⟩, by decide +kernel⟩

/-- The change of the first writer is committed and never stored. -/
theorem lateCommit_loses :
    (∃ r, kpiPoller.Committed (kpiPoller.run lateCommit {}) r ∧
        ∀ bs, ¬ kpiPoller.Stored (kpiPoller.run bs (kpiPoller.run lateCommit {})) r) ∧
      ¬ kpiPoller.OffsetBehind lateCommit := by
  obtain ⟨hopen, hlost⟩ := lateRow_passed
  refine ⟨⟨lateRow, ⟨.tail _ (.head _), rfl⟩, fun bs => ?_⟩, fun hb => ?_⟩
  · exact (lost_run Function.injective_id ([.commit 1] ++ bs) (ordered_run _ ordered_initial) hlost).2
  · exact absurd hlost.1 (Nat.not_le.mpr (hb (lateCommit.take 4) [.commit 1] rfl lateRow hopen ⟨.tail _ (.head _), rfl⟩))

end Poller

end OranAdapt
