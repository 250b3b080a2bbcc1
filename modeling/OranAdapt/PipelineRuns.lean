import OranAdapt.GuardedPipeline

/-!
# Whole jobs

What holds of every run of a job, however its calls end: the stages it reports,
what it writes to the registry and when, and the rows that no candidate is made
from before it is scored on them.
-/

namespace OranAdapt

open Effects

namespace Pipeline

section
variable {ω M : Type} {ports : Ports ω M} {settings : PipelineSettings} {event : DriftRef} {log : List (Event M)}

theorem known_snoc (log : List (Event M)) (i : Event M) : known (log ++ [i]) = (known log).next i := by
  unfold known
  rw [List.foldl_append]
  rfl

abbrev Orderly (ports : Ports ω M) (settings : PipelineSettings) (event : DriftRef) (log : List (Event M)) : Prop :=
  Each (fun before i => Allows ports settings event (known before) i) log

/-- What holds of the empty log and is kept by every allowed event holds of an orderly log. -/
theorem Orderly.induction {P : List (Event M) → Prop} (h : Orderly ports settings event log) (hnil : P [])
    (hstep : ∀ log i, Orderly ports settings event log → P log → Allows ports settings event (known log) i →
      P (log ++ [i])) :
    P log := by
  induction log using List.reverseRecOn with
  | nil => exact hnil
  | append_singleton log i ih =>
    have hlog : Orderly ports settings event log := fun before j after hsplit =>
      h before j (after ++ [i]) (by rw [hsplit, List.append_assoc]; rfl)
    exact hstep log i hlog (ih hlog) (h log i [] rfl)

/-! ## Stages -/

def stagesIn (log : List (Event M)) : List JobStatus := log.filterMap fun
  | .reported status _ => some status
  | _ => none

structure Staged (log : List (Event M)) : Prop where
  chain : List.IsChain (fun s t : JobStatus => s.mayMove t = true) (.dataPreparing :: stagesIn log)
  last : (known log).stage = (stagesIn log).getLastD .dataPreparing

theorem next_stage {k : Known} {i : Event M} (h : ∀ status message, i ≠ .reported status message) :
    (k.next i).stage = k.stage := by
  cases i with
  | reported status message => exact absurd rfl (h status message)
  | committed worked => cases worked <;> rfl
  | _ => rfl

theorem staged_of_orderly (h : Orderly ports settings event log) : Staged log := by
  apply h.induction
  · exact ⟨List.IsChain.singleton _, rfl⟩
  · intro log i _ hstaged hallow
    by_cases hi : ∃ status message, i = .reported status message
    · obtain ⟨status, message, rfl⟩ := hi
      have hstages : stagesIn (log ++ [.reported status message]) = stagesIn log ++ [status] := by
        unfold stagesIn
        rw [List.filterMap_append]
        rfl
      refine ⟨?_, ?_⟩
      · rw [hstages, ← List.cons_append, List.isChain_append]
        refine ⟨hstaged.chain, List.IsChain.singleton _, ?_⟩
        intro s hs t ht
        cases ht
        rw [List.getLast?_cons, Option.mem_some_iff] at hs
        rw [← hs, ← List.getLastD_eq_getLast?, ← hstaged.last]
        exact hallow.1
      · rw [known_snoc, hstages, List.getLastD_concat]
        rfl
    · have hquiet : ∀ status message, i ≠ .reported status message :=
        fun status message heq => hi ⟨status, message, heq⟩
      have hstages : stagesIn (log ++ [i]) = stagesIn log := by
        unfold stagesIn
        rw [List.filterMap_append, List.filterMap_cons]
        cases i with
        | reported status message => exact absurd rfl (hquiet status message)
        | _ => exact List.append_nil _
      refine ⟨?_, ?_⟩
      · rw [hstages]
        exact hstaged.chain
      · rw [known_snoc, next_stage hquiet, hstages]
        exact hstaged.last

/-! ## Rows -/

section
variable {k : Known} {i : Event M}

theorem next_frozen {f : List Row × List Row} (hallow : Allows ports settings event k i) (h : k.frozen = some f) :
    (k.next i).frozen = some f := by
  cases i with
  | frozen source holdout =>
    rw [hallow.1] at h
    cases h
  | committed worked => cases worked <;> exact h
  | _ => exact h

theorem next_training {t : Training} (hallow : Allows ports settings event k i) (h : k.training = some t) :
    (k.next i).training = some t := by
  cases i with
  | trainingSet t' =>
    rw [hallow.1] at h
    cases h
  | committed worked => cases worked <;> exact h
  | _ => exact h

/-- What is held out comes from its own event. -/
theorem frozen_of_next {f : List Row × List Row} (h : (k.next i).frozen = some f) :
    k.frozen = some f ∨ ∃ source, i = .frozen source f.2 ∧ source.records = f.1 := by
  cases i with
  | frozen source holdout =>
    cases h
    exact .inr ⟨source, rfl, rfl⟩
  | committed worked => cases worked <;> exact .inl h
  | _ => exact .inl h

theorem training_of_next {t : Training} (hallow : Allows ports settings event k i) (h : (k.next i).training = some t) :
    k.training = some t ∨ k.Trains t := by
  cases i with
  | trainingSet t' => exact .inr (hallow.2 t h)
  | committed worked => cases worked <;> exact .inl h
  | _ => exact .inl h

end

def scoredRows : Event M → Option (List Row)
  | .scored rows _ | .validated _ rows _ => some rows
  | _ => none

/-- The rows that a candidate is made from, by an engine or by generated code in the sandbox. -/
def givenRows : Event M → Option (List Row)
  | .candidate (.engine _ data _) => some data.rows
  | .candidate (.adapter (.ran run _)) => some run.rows
  | _ => none

section
variable {k : Known} {i : Event M} {rows : List Row}

theorem scoredRows_known (hallow : Allows ports settings event k i) (h : scoredRows i = some rows) :
    ∃ records, k.frozen = some (records, rows) := by
  cases i with
  | scored rows' evaluations =>
    cases h
    exact hallow.2
  | validated artifact rows' report =>
    cases h
    exact hallow.2.1
  | _ => cases h

theorem givenRows_known (hallow : Allows ports settings event k i) (h : givenRows i = some rows) :
    ∃ t, k.training = some t ∧ rows = t.rows := by
  cases i with
  | candidate event =>
    cases event with
    | engine chosen data end_ =>
      cases h
      exact hallow.2
    | adapter event =>
      cases event with
      | ran run end_ =>
        cases h
        exact hallow.2
      | _ => cases h
    | _ => cases h
  | _ => cases h

end

/-- The rows of a log as its last event leaves them known. -/
structure RowsKnown (log : List (Event M)) : Prop where
  heldOut : ∀ f, (known log).frozen = some f → ∃ source, .frozen source f.2 ∈ log ∧
    source.records = f.1 ∧ ∀ r ∈ f.2, r ∈ f.1
  scored : ∀ i ∈ log, ∀ rows, scoredRows i = some rows → ∃ records, (known log).frozen = some (records, rows)
  training : ∀ t, (known log).training = some t → (known log).Trains t
  given : ∀ i ∈ log, ∀ rows, givenRows i = some rows → ∃ t, (known log).training = some t ∧ rows = t.rows
  snapshot : ∀ call, Event.snapshotted call ∈ log → ∃ t, (known log).training = some t ∧
    call.excludeRecordIds = t.excluded

theorem rowsKnown_of_orderly (h : Orderly ports settings event log) : RowsKnown log := by
  apply h.induction
  · refine ⟨?_, ?_, ?_, ?_, ?_⟩
    · exact fun _ hf => by cases hf
    · exact fun _ hmem => by cases hmem
    · exact fun _ ht => by cases ht
    · exact fun _ hmem => by cases hmem
    · exact fun _ hmem => by cases hmem
  · intro log i _ hrows hallow
    have hfrozen : ∀ f, (known log).frozen = some f → (known (log ++ [i])).frozen = some f := by
      intro f hf
      rw [known_snoc]
      exact next_frozen hallow hf
    have htraining : ∀ t, (known log).training = some t → (known (log ++ [i])).training = some t := by
      intro t ht
      rw [known_snoc]
      exact next_training hallow ht
    have htrains : ∀ t, (known log).Trains t → (known (log ++ [i])).Trains t := by
      rintro t ⟨records, holdout, hf, hrest⟩
      exact ⟨records, holdout, hfrozen _ hf, hrest⟩
    refine ⟨?_, ?_, ?_, ?_, ?_⟩
    · intro f hf
      rw [known_snoc] at hf
      rcases frozen_of_next hf with hf | ⟨source, rfl, hsource⟩
      · obtain ⟨source, hmem, hrest⟩ := hrows.heldOut f hf
        exact ⟨source, List.mem_append_left _ hmem, hrest⟩
      · exact ⟨source, List.mem_append_right _ (List.mem_singleton_self _), hsource, hsource ▸ hallow.2⟩
    · intro j hmem rows hj
      rcases List.mem_append.mp hmem with hmem | hmem
      · obtain ⟨records, hf⟩ := hrows.scored j hmem rows hj
        exact ⟨records, hfrozen _ hf⟩
      · rw [List.mem_singleton.mp hmem] at hj
        obtain ⟨records, hf⟩ := scoredRows_known hallow hj
        exact ⟨records, hfrozen _ hf⟩
    · intro t ht
      rw [known_snoc] at ht
      rcases training_of_next hallow ht with ht | ht
      · exact htrains t (hrows.training t ht)
      · exact htrains t ht
    · intro j hmem rows hj
      rcases List.mem_append.mp hmem with hmem | hmem
      · obtain ⟨t, ht, hdata⟩ := hrows.given j hmem rows hj
        exact ⟨t, htraining t ht, hdata⟩
      · rw [List.mem_singleton.mp hmem] at hj
        obtain ⟨t, ht, hdata⟩ := givenRows_known hallow hj
        exact ⟨t, htraining t ht, hdata⟩
    · intro call hmem
      rcases List.mem_append.mp hmem with hmem | hmem
      · obtain ⟨t, ht, hexcluded⟩ := hrows.snapshot call hmem
        exact ⟨t, htraining t ht, hexcluded⟩
      · rw [← List.mem_singleton.mp hmem] at hallow
        obtain ⟨-, -, t, ht, hexcluded⟩ := hallow
        exact ⟨t, htraining t ht, hexcluded⟩

/-- An orderly log is orderly up to each of its events. -/
theorem Orderly.upTo {before after : List (Event M)} (h : Orderly ports settings event (before ++ after)) :
    Orderly ports settings event before := by
  intro earlier i later hsplit
  exact h earlier i (later ++ after) (by rw [hsplit, List.append_assoc]; rfl)

def ScoredOn (log : List (Event M)) (rows : List Row) : Prop := ∃ i ∈ log, scoredRows i = some rows

/-- The rows that versions and candidates are scored on are one set of cleaned rows, frozen before
anything is scored, of which neither an engine nor the sandbox is given one; the snapshot of the
training data leaves all of them out, and leaves out nothing that a candidate was made from. -/
structure HeldOut (log : List (Event M)) : Prop where
  same : ∀ rows rows', ScoredOn log rows → ScoredOn log rows' → rows = rows'
  before : ∀ earlier i later rows, log = earlier ++ i :: later → scoredRows i = some rows →
    ∃ source, Event.frozen source rows ∈ earlier ∧ ∀ r ∈ rows, r ∈ source.records
  given : ∀ rows, ScoredOn log rows → ∀ i ∈ log, ∀ made, givenRows i = some made →
    ∀ r ∈ made, ∀ h ∈ rows, r.id ≠ h.id
  snapshot : ∀ rows call, ScoredOn log rows → Event.snapshotted call ∈ log →
    ∀ h ∈ rows, h.id ∈ call.excludeRecordIds
  kept : ∀ call, Event.snapshotted call ∈ log → ∀ i ∈ log, ∀ made, givenRows i = some made → ∀ r ∈ made,
    r.id ∉ call.excludeRecordIds

theorem RowsKnown.scoredOn (h : RowsKnown log) {rows : List Row} (hrows : ScoredOn log rows) :
    ∃ records, (known log).frozen = some (records, rows) := by
  obtain ⟨i, hmem, hi⟩ := hrows
  exact h.scored i hmem rows hi

theorem RowsKnown.apart (h : RowsKnown log) {rows : List Row} {t : Training} (hrows : ScoredOn log rows)
    (ht : (known log).training = some t) : ∀ r ∈ t.rows, ∀ o ∈ rows, r.id ≠ o.id := by
  obtain ⟨records, hf⟩ := h.scoredOn hrows
  obtain ⟨records', holdout, hf', htrained, -⟩ := h.training t ht
  rw [hf] at hf'
  cases hf'
  exact fun r hr => (htrained r hr).2

/-- What is scored was frozen before. -/
theorem frozen_before {earlier later : List (Event M)} {i : Event M} {rows : List Row}
    (h : Orderly ports settings event (earlier ++ i :: later)) (hi : scoredRows i = some rows) :
    ∃ source, Event.frozen source rows ∈ earlier ∧ ∀ r ∈ rows, r ∈ source.records := by
  obtain ⟨records, hf⟩ := scoredRows_known (h earlier i later rfl) hi
  obtain ⟨source, hmem, hsource, hrecords⟩ := (rowsKnown_of_orderly h.upTo).heldOut _ hf
  exact ⟨source, hmem, fun r hr => hsource ▸ hrecords r hr⟩

theorem heldOut_of_orderly (h : Orderly ports settings event log) : HeldOut log := by
  have hknown := rowsKnown_of_orderly h
  refine ⟨?_, ?_, ?_, ?_, ?_⟩
  · intro rows rows' hrows hrows'
    obtain ⟨records, hf⟩ := hknown.scoredOn hrows
    obtain ⟨records', hf'⟩ := hknown.scoredOn hrows'
    rw [hf] at hf'
    cases hf'
    rfl
  · rintro earlier i later rows rfl hi
    exact frozen_before h hi
  · intro rows hrows i hmem made hi r hr
    obtain ⟨t, ht, hdata⟩ := hknown.given i hmem made hi
    rw [hdata] at hr
    exact hknown.apart hrows ht r hr
  · intro rows call hrows hsnapshot o ho
    obtain ⟨t, ht, hexcluded⟩ := hknown.snapshot call hsnapshot
    obtain ⟨records, holdout, hf, -, hleft⟩ := hknown.training t ht
    obtain ⟨records', hf'⟩ := hknown.scoredOn hrows
    rw [hf'] at hf
    cases hf
    obtain ⟨-, -, -, hrecords⟩ := hknown.heldOut _ hf'
    rw [hexcluded, hleft]
    refine ⟨List.mem_map_of_mem (hrecords o ho), fun htrained => ?_⟩
    obtain ⟨r, hr, hid⟩ := List.mem_map.mp htrained
    exact hknown.apart hrows ht r hr o ho hid
  · intro call hsnapshot i hmem made hi r hr hexcluded
    obtain ⟨t, ht, hcall⟩ := hknown.snapshot call hsnapshot
    obtain ⟨t', ht', hdata⟩ := hknown.given i hmem made hi
    rw [ht] at ht'
    cases ht'
    obtain ⟨records, holdout, -, -, hleft⟩ := hknown.training t ht
    rw [hcall, hleft] at hexcluded
    rw [hdata] at hr
    exact hexcluded.2 (List.mem_map_of_mem hr)

end

/-! ## The main results -/

section
variable {ω M : Type} (ports : Ports ω M) (settings : PipelineSettings) (event : DriftRef) (workdir : String)

theorem runJob_runs (w : ω) : Orderly ports settings event (runJob ports settings event workdir ⟨w, []⟩).2.log ∧
    ∀ r, (runJob ports settings event workdir ⟨w, []⟩).1 = .done r →
      Final r (known (runJob ports settings event workdir ⟨w, []⟩).2.log) := by
  obtain ⟨k, hread, hend⟩ := (runJob_goes ports settings event workdir).run w
  obtain ⟨rfl, heach⟩ := Monitor.read_guarded hread
  refine ⟨heach, fun r hr => ?_⟩
  rw [hr] at hend
  exact hend

/-- Whatever a job calls and whatever becomes of it, each thing it does is allowed by what its log
before makes known: a candidate is registered only from the file that was made, scored on the
held-out rows and passed, LIVE is moved at most once, from the version that was read and with
everything committed before; and the result tells the truth of what was done, while in a job that
does not return no call that moves LIVE has returned. -/
theorem runJob_orderly (w : ω) : Orderly ports settings event (runJob ports settings event workdir ⟨w, []⟩).2.log ∧
    match (runJob ports settings event workdir ⟨w, []⟩).1 with
    | .done r => Final r (known (runJob ports settings event workdir ⟨w, []⟩).2.log)
    | .raised _ | .stopped => (known (runJob ports settings event workdir ⟨w, []⟩).2.log).Unmoved := by
  obtain ⟨k, hread, hend⟩ := (runJob_goes ports settings event workdir).run w
  obtain ⟨rfl, heach⟩ := Monitor.read_guarded hread
  refine ⟨heach, ?_⟩
  cases hrun : (runJob ports settings event workdir ⟨w, []⟩).1 with
  | done r =>
    rw [hrun] at hend
    exact hend
  | raised e =>
    rw [hrun] at hend
    exact hend
  | stopped =>
    rw [hrun] at hend
    exact hend

/-- The stages a job reports follow the table from `DATA_PREPARING` on, and so does the status its result is recorded with. -/
theorem runJob_stages (w : ω) :
    List.IsChain (fun s t : JobStatus => s.mayMove t = true)
      (.dataPreparing :: stagesIn (runJob ports settings event workdir ⟨w, []⟩).2.log) ∧
    ∀ r, (runJob ports settings event workdir ⟨w, []⟩).1 = .done r →
      ((stagesIn (runJob ports settings event workdir ⟨w, []⟩).2.log).getLastD .dataPreparing).mayMove
        r.terminal = true := by
  obtain ⟨horderly, hend⟩ := runJob_runs ports settings event workdir w
  have hstaged := staged_of_orderly horderly
  refine ⟨hstaged.chain, fun r hr => ?_⟩
  rw [← hstaged.last]
  exact (hend r hr).2

/-- Whatever a job calls, no row that it scores on is trained on, and the snapshot of its training
data is what was trained on. -/
theorem runJob_held_out (w : ω) : HeldOut (runJob ports settings event workdir ⟨w, []⟩).2.log :=
  heldOut_of_orderly (runJob_runs ports settings event workdir w).1

end

end Pipeline

end OranAdapt
