import OranAdapt.PollingOrder

/-!
# A log consumed in order

Statements that commit one after the other number the changelog from 1 without
a gap, and a poll that lands takes the next rows of it. So the events stored
are those of the log's first rows, in the order of the log.
-/

namespace OranAdapt

open Effects

variable {δ : Type} [DecidableEq δ]

namespace Poller

variable (p : Poller δ)

/-- The changelog of statements on the table: changes with their transactions and times. -/
def logRows (log : List (RowChange × Nat × String)) : List ChangelogRow :=
  (log.zipIdx 1).map fun l => p.trigger.postgresql p.source.table l.1.1 l.2 l.1.2.1 l.1.2.2

variable {p} {log : List (RowChange × Nat × String)}

omit [DecidableEq δ] in
theorem logRows_snoc (l : RowChange × Nat × String) : p.logRows (log ++ [l]) =
    p.logRows log ++ [p.trigger.postgresql p.source.table l.1 (log.length + 1) l.2.1 l.2.2] := by
  rw [logRows, List.zipIdx_append, List.map_append, Nat.add_comm 1]
  rfl

omit [DecidableEq δ] in
theorem logRows_seqs : (p.logRows log).map (·.seq) = List.range' 1 log.length := by
  rw [logRows, List.map_map]
  exact List.zipIdx_map_snd 1 log

omit [DecidableEq δ] in
theorem length_logRows : (p.logRows log).length = log.length := by
  rw [logRows, List.length_map, List.length_zipIdx]

omit [DecidableEq δ] in
theorem logRows_table {r : ChangelogRow} (h : r ∈ p.logRows log) : r.tableName = p.source.table := by
  obtain ⟨l, -, rfl⟩ := List.mem_map.mp h
  rfl

theorem filter_numbered {rows : List ChangelogRow} (h : rows.map (·.seq) = List.range' 1 rows.length) (n : Nat) :
    rows.filter (fun r => n < r.seq) = rows.drop n := by
  have hseq : ∀ (i : Nat) (hi : i < rows.length), rows[i].seq = 1 + i := by
    intro i hi
    have hget := congrArg (·[i]?) h
    simpa [hi] using hget
  have htake : ∀ r ∈ rows.take n, ¬(decide (n < r.seq)) = true := by
    intro r hr hlt
    obtain ⟨i, hi, rfl⟩ := List.mem_take_iff_getElem.mp hr
    have := of_decide_eq_true hlt
    rw [hseq] at this
    omega
  have hdrop : ∀ r ∈ rows.drop n, decide (n < r.seq) = true := by
    intro r hr
    obtain ⟨i, hi, rfl⟩ := List.mem_drop_iff_getElem.mp hr
    rw [hseq]
    exact decide_eq_true (by omega)
  conv_lhs => rw [← List.take_append_drop n rows]
  rw [List.filter_append, List.filter_eq_nil_iff.mpr htake, List.filter_eq_self.mpr hdrop, List.nil_append]

omit [DecidableEq δ] in
theorem due_logRows (after limit : Nat) : p.source.due after limit (p.logRows log) =
    ((p.logRows log).drop after).take limit := by
  have hfilter : (p.logRows log).filter (fun r => decide (r.tableName = p.source.table ∧ after < r.seq)) =
      (p.logRows log).drop after := by
    rw [← filter_numbered (logRows_seqs.trans (by rw [length_logRows]))]
    refine List.filter_congr fun r hr => ?_
    rw [logRows_table hr]
    simp
  have hsorted : ((p.logRows log).drop after).Pairwise fun a b => a.seq ≤ b.seq := by
    refine List.Pairwise.sublist (List.drop_sublist _ _) (List.pairwise_map.mp ?_ : (p.logRows log).Pairwise _)
    rw [logRows_seqs]
    exact List.Pairwise.imp Nat.le_of_lt List.pairwise_lt_range'
  rw [PollingCdcSource.due, hfilter, List.Pairwise.insertionSort_eq hsorted]

variable (p)

/-- The log is the changelog, and the events stored are those of its rows up to the saved number, in order. -/
structure Consumed (log : List (RowChange × Nat × String)) (w : PollWorld δ) : Prop where
  pending : w.pending = []
  lastSeq : w.lastSeq = log.length
  changelog : w.changelog = p.logRows log
  reads : p.source.after w.db = .ok (p.saved w)
  le : p.saved w ≤ log.length
  events : List.Forall₂ p.Becomes ((p.logRows log).take (p.saved w)) (w.db.events.map (·.event))

variable {p} {w : PollWorld δ}

theorem Consumed.write (h : p.Consumed log w) (c : RowChange) (tx : Nat) (changedAt : String) :
    p.Consumed (log ++ [(c, tx, changedAt)]) (p.run [.change tx p.source.table c changedAt, .commit tx] w) := by
  have hrow : p.run [.change tx p.source.table c changedAt, .commit tx] w =
      { w with
        lastSeq := w.lastSeq + 1
        changelog := w.changelog ++ [p.trigger.postgresql p.source.table c (w.lastSeq + 1) tx changedAt] } := by
    simp [Poller.run, Poller.step, h.pending]
  rw [hrow]
  refine ⟨h.pending, ?_, ?_, h.reads, ?_, ?_⟩
  · rw [List.length_append, ← h.lastSeq]
    rfl
  · rw [logRows_snoc, ← h.changelog, ← h.lastSeq]
  · rw [List.length_append]
    exact Nat.le_succ_of_le h.le
  · rw [logRows_snoc, List.take_append_of_le_length (by rw [length_logRows]; exact h.le)]
    exact h.events

omit [DecidableEq δ] in
theorem ids_nodup (hsha : Function.Injective p.codec.sha256) {rows : List ChangelogRow} {events : List (CdcEvent δ)}
    (h : List.Forall₂ p.Becomes rows events) (hrows : (rows.map (·.seq)).Nodup) : (events.map (·.eventId)).Nodup := by
  induction h with
  | nil => exact List.nodup_nil
  | @cons r e rows events hre hall ih =>
    rw [List.map_cons, List.nodup_cons] at hrows ⊢
    refine ⟨fun hmem => hrows.1 ?_, ih hrows.2⟩
    obtain ⟨e', he', hid⟩ := List.mem_map.mp hmem
    obtain ⟨r', hr', hre'⟩ := exists_of_mem_right hall he'
    rw [eventId_seq hsha hre hre' hid.symm]
    exact List.mem_map_of_mem hr'

theorem unknownEvents_fresh : ∀ {known : List δ} {events : List (CdcEvent δ)}, (events.map (·.eventId)).Nodup →
    (∀ e ∈ events, e.eventId ∉ known) → unknownEvents known events = events
  | _, [], _, _ => rfl
  | known, e :: events, hnodup, hknown => by
    rw [List.map_cons, List.nodup_cons] at hnodup
    rw [unknownEvents, if_neg (hknown e List.mem_cons_self), unknownEvents_fresh hnodup.2]
    intro x hx hmem
    rcases List.mem_cons.mp hmem with heq | hmem
    · exact hnodup.1 (heq ▸ List.mem_map_of_mem hx)
    · exact hknown x (List.mem_cons_of_mem _ hx) hmem

variable (p log) in
omit [DecidableEq δ] in
/-- The rows a poll takes come next in the log. -/
theorem take_due (after limit : Nat) : (p.logRows log).take (after + (p.source.due after limit (p.logRows log)).length) =
    (p.logRows log).take after ++ p.source.due after limit (p.logRows log) := by
  have hprefix : p.source.due after limit (p.logRows log) <+: (p.logRows log).drop after := by
    rw [due_logRows]
    exact List.take_prefix _ _
  rw [List.take_add, ← List.prefix_iff_eq_take.mp hprefix]

omit [DecidableEq δ] in
theorem due_le {after : Nat} (hle : after ≤ log.length) (limit : Nat) :
    after + (p.source.due after limit (p.logRows log)).length ≤ log.length := by
  have hlength := congrArg List.length (take_due p log after limit)
  rw [List.length_take, List.length_append, List.length_take, length_logRows] at hlength
  omega

omit [DecidableEq δ] in
theorem last_due {after limit : Nat} (hle : after ≤ log.length) {l : ChangelogRow}
    (hl : (p.source.due after limit (p.logRows log)).getLast? = some l) :
    l.seq = after + (p.source.due after limit (p.logRows log)).length := by
  have hbound : after + (p.source.due after limit (p.logRows log)).length ≤ log.length := due_le hle limit
  have hlast := congrArg (fun rows => (rows.map (·.seq)).getLast?) (take_due p log after limit)
  simp only [List.getLast?_map, List.getLast?_append, hl, Option.some_or, Option.map_some] at hlast
  rw [← List.getLast?_map, List.map_take, logRows_seqs, List.take_range'_of_length_ge hbound, List.getLast?_range'] at hlast
  split at hlast
  · cases hlast
  · rw [← Option.some.inj hlast, Nat.add_comm 1, Nat.add_sub_cancel]

theorem Consumed.took (h : p.Consumed log w) (hsha : Function.Injective p.codec.sha256) (limit : Nat)
    {events : List (CdcEvent δ)}
    (hbecomes : List.Forall₂ p.Becomes (p.source.due (p.saved w) limit (p.logRows log)) events) {db : CdcDb δ}
    (hdb : db = (storeEvents w.db events p.source.name
      ((p.source.due (p.saved w) limit (p.logRows log)).getLast?.map (.seq ·.seq))).2) :
    p.Consumed log { w with db } ∧ ∃ new : List (CdcEventRecord δ), db.events = w.db.events ++ new ∧
      (∀ e ∈ new, e.dataVersionId = none) ∧ new.map (·.id) = List.range' (w.db.events.length + 1) new.length := by
  have hall : List.Forall₂ p.Becomes ((p.logRows log).take (p.saved w +
    (p.source.due (p.saved w) limit (p.logRows log)).length))
      (w.db.events.map (·.event) ++ events) := by
    rw [take_due]
    exact List.rel_append h.events hbecomes
  have hseqs : (((p.logRows log).take (p.saved w + (p.source.due (p.saved w) limit (p.logRows log)).length)).map
      (·.seq)).Nodup := by
    rw [List.map_take, logRows_seqs]
    exact List.Nodup.sublist (List.take_sublist _ _) List.nodup_range'
  have hnodup := ids_nodup hsha hall hseqs
  rw [List.map_append, List.nodup_append] at hnodup
  obtain ⟨new, hevents, hnew, hnone, hids⟩ := storeEvents_events w.db events p.source.name
    ((p.source.due (p.saved w) limit (p.logRows log)).getLast?.map (.seq ·.seq))
  rw [unknownEvents_fresh hnodup.2.1] at hnew
  · rw [← hdb] at hevents
    have hsaved : p.saved { w with db } = p.saved w + (p.source.due (p.saved w) limit (p.logRows log)).length := by
      have hdb' : ({ w with db } : PollWorld δ).db = (storeEvents w.db events p.source.name
          ((p.source.due (p.saved w) limit (p.logRows log)).getLast?.map (.seq ·.seq))).2 := hdb
      rw [p.saved_store hdb']
      split
      · rename_i l hl
        exact last_due h.le hl
      · rename_i hnil
        rw [List.getLast?_eq_none_iff.mp hnil]
        rfl
    refine ⟨⟨h.pending, h.lastSeq, h.changelog, ?_, ?_, ?_⟩, new, hevents, hnone, hids⟩
    · have hreads := after_iff.mp h.reads
      refine after_iff.mpr fun o => ?_
      change getOffset db p.source.name ≠ _
      rw [hdb, storeEvents_offset]
      cases (p.source.due (p.saved w) limit (p.logRows log)).getLast? with
      | some l => nofun
      | none => exact hreads o
    · rw [hsaved]
      exact due_le h.le limit
    · rw [hsaved]
      change List.Forall₂ _ _ (db.events.map _)
      rw [hevents, List.map_append, hnew]
      exact hall
  · intro e he hknown
    obtain ⟨x, hx, hid⟩ := List.mem_map.mp (List.mem_filter.mp hknown).1
    have hx' : x.event.eventId ∈ (w.db.events.map (·.event)).map (·.eventId) :=
      List.mem_map_of_mem (List.mem_map_of_mem hx)
    exact hnodup.2.2 _ hx' _ (List.mem_map_of_mem he) hid

/-- A poll either changes nothing, or it stores the events of the rows it takes. -/
theorem Consumed.poll (h : p.Consumed log w) (hsha : Function.Injective p.codec.sha256) (f : PollAnswers) :
    p.Consumed log (p.poll f w) ∧ ∃ new : List (CdcEventRecord δ), (p.poll f w).db.events = w.db.events ++ new ∧
      (∀ e ∈ new, e.dataVersionId = none) ∧ new.map (·.id) = List.range' (w.db.events.length + 1) new.length := by
  rw [poll_eq]
  split
  · rename_i events position hlands hb
    obtain ⟨hbecomes, rfl⟩ := p.batch_ok hb
    rw [h.changelog] at hbecomes ⊢
    have htook := h.took hsha f.limit hbecomes rfl
    rw [h.changelog] at htook
    exact htook
  · exact ⟨h, [], by simp, by simp, rfl⟩

omit [DecidableEq δ] in
theorem Consumed.marked (h : p.Consumed log w) {db : CdcDb δ}
    (hevents : db.events.map (·.event) = w.db.events.map (·.event))
    (hoffsets : db.offsets = w.db.offsets) : p.Consumed log { w with db } := by
  have hoffset : getOffset db p.source.name = getOffset w.db p.source.name := by rw [getOffset, hoffsets, getOffset]
  have hsaved : p.saved { w with db } = p.saved w := by
    unfold saved
    rw [hoffset]
  refine ⟨h.pending, h.lastSeq, h.changelog, ?_, hsaved ▸ h.le, ?_⟩
  · exact after_iff.mpr fun o ho => after_iff.mp h.reads o (hoffset ▸ ho)
  · rw [hsaved]
    change List.Forall₂ _ _ (db.events.map _)
    rw [hevents]
    exact h.events

omit [DecidableEq δ] in
theorem Consumed.all (h : p.Consumed log w) (hsha : Function.Injective p.codec.sha256)
    (hstored : ∀ r ∈ w.changelog, p.Stored w r) :
    List.Forall₂ p.Becomes (p.logRows log) (w.db.events.map (·.event)) := by
  have hevents := h.events
  by_cases hall : (p.logRows log).length ≤ p.saved w
  · rwa [List.take_of_length_le hall] at hevents
  · exfalso
    -- the first row past the saved number has the number of none before it
    have hlt := Nat.not_le.mp hall
    have hmem : (p.logRows log)[p.saved w] ∈ (p.logRows log).drop (p.saved w) := by
      rw [List.drop_eq_getElem_cons hlt]
      exact List.mem_cons_self
    have hrow : (p.logRows log)[p.saved w] ∈ w.changelog := by
      rw [h.changelog]
      exact List.mem_of_mem_drop hmem
    obtain ⟨x, hx, hbecomes⟩ := hstored _ hrow
    obtain ⟨r, hr, hbecomes'⟩ := exists_of_mem_right hevents (List.mem_map_of_mem hx)
    have hnodup : ((p.logRows log).map (·.seq)).Nodup := by
      rw [logRows_seqs]
      exact List.nodup_range'
    rw [← List.take_append_drop (p.saved w) (p.logRows log), List.map_append, List.nodup_append] at hnodup
    exact hnodup.2.2 _ (List.mem_map_of_mem hr) _ (List.mem_map_of_mem hmem) (eventId_seq hsha hbecomes' hbecomes rfl)

omit [DecidableEq δ] in
theorem Consumed.stored (h : p.Consumed log w) (hle : log.length ≤ p.saved w) : ∀ r ∈ w.changelog, p.Stored w r := by
  intro r hr
  have hevents := h.events
  rw [List.take_of_length_le (by rw [length_logRows]; exact hle)] at hevents
  rw [h.changelog] at hr
  obtain ⟨e, he, hbecomes⟩ := exists_of_mem_left hevents hr
  obtain ⟨x, hx, rfl⟩ := List.mem_map.mp he
  exact ⟨x, hx, hbecomes⟩

end Poller

end OranAdapt
