import OranAdapt.BatchCuts

/-!
# What a scan comes to

A scan succeeds on an object with rows, a column of timestamps in every batch,
and the same columns in all of them. It then has the types of the whole columns,
and of each batch what that batch comes to.
-/

namespace OranAdapt

namespace Batches

/-! ## Names and batches -/

theorem nodup_eraseDups (l : List String) : l.eraseDups.Nodup := by
  induction h : l.length using Nat.strongRecOn generalizing l with
  | ind n ih =>
    cases l with
    | nil => simp
    | cons a as =>
      rw [List.eraseDups_cons, List.nodup_cons]
      constructor
      · simp [List.mem_eraseDups]
      · apply ih _ _ _ rfl
        rw [← h, List.length_cons]
        exact Nat.lt_succ_of_le (List.length_filter_le _ _)

namespace TextObject

variable (pd : Pandas) (o : TextObject) {k : Nat} {tc c : String} {batch : List FieldRow}

theorem names_nodup (batch : List FieldRow) : (o.names batch).Nodup := by
  cases o with
  | csv header lines nodup fits => exact nodup
  | jsonl lines nodup => exact nodup_eraseDups _

theorem mem_names_flatten {parts : List (List FieldRow)} (hne : parts ≠ []) :
    c ∈ o.names parts.flatten ↔ ∃ batch ∈ parts, c ∈ o.names batch := by
  cases o with
  | csv header lines nodup fits =>
    obtain ⟨batch, hb⟩ := List.exists_mem_of_ne_nil _ hne
    constructor
    · intro h
      exact ⟨batch, hb, h⟩
    · rintro ⟨_, _, h⟩
      exact h
  | jsonl lines nodup =>
    simp only [names, List.mem_eraseDups, List.mem_flatMap, List.mem_flatten]
    constructor
    · rintro ⟨row, ⟨batch, hb, hrow⟩, hc⟩
      exact ⟨batch, hb, row, hrow, hc⟩
    · rintro ⟨batch, hb, row, hrow, hc⟩
      exact ⟨row, ⟨batch, hb, hrow⟩, hc⟩

variable {pd o}

theorem batches_eq (h : o.rows pd ≠ []) : o.batches pd k = chunks k (o.rows pd) := by
  cases o with
  | csv header lines nodup fits =>
    cases lines with
    | nil => exact absurd rfl h
    | cons line lines => rfl
  | jsonl lines nodup => rfl

theorem batches_flatten (hk : 1 ≤ k) : (o.batches pd k).flatten = o.rows pd := by
  by_cases h : o.rows pd = []
  · cases o with
    | csv header lines nodup fits =>
      cases lines with
      | nil => rfl
      | cons line lines => cases h
    | jsonl lines nodup => exact chunks_flatten hk _
  · rw [batches_eq h, chunks_flatten hk]

theorem mem_rows_of_mem_batch (hk : 1 ≤ k) (hb : batch ∈ o.batches pd k) : ∀ row ∈ batch, row ∈ o.rows pd := by
  intro row hrow
  rw [← batches_flatten hk]
  exact List.mem_flatten.mpr ⟨batch, hb, hrow⟩

theorem batches_ne_nil (hk : 1 ≤ k) (h : o.rows pd ≠ []) : o.batches pd k ≠ [] := by
  intro hnil
  rw [← batches_flatten hk, hnil] at h
  exact h rfl

theorem batch_ne_nil (hk : 1 ≤ k) (h : o.rows pd ≠ []) (hb : batch ∈ o.batches pd k) : batch ≠ [] := by
  rw [batches_eq h] at hb
  exact ne_nil_of_mem_chunks hk hb

theorem batches_whole (h : o.rows pd ≠ []) (hk : (o.rows pd).length ≤ k) : o.batches pd k = [o.rows pd] := by
  rw [batches_eq h, chunks_whole h hk]

end TextObject

/-! ## One pass over a list of batches -/

section
variable {pd : Pandas} {ns : List String} {tc : String} {seen whole batch : List FieldRow}
  {columns columns' : List (String × String)} {frame : DataFrame}

theorem unify_names (h : unifyDtypes columns frame = .ok columns') : columns'.map Prod.fst = frame.names := by
  unfold unifyDtypes at h
  simp only at h
  split at h
  · cases h
  · cases h
    simp [DataFrame.names, Function.comp_def]

theorem column_append (c : String) : column (seen ++ batch) c = column seen c ++ column batch c :=
  List.map_append

theorem column_ne_nil (h : batch ≠ []) (c : String) : column batch c ≠ [] := by
  simpa [column] using h

theorem Types.lookup (h : Types seen ns columns) {c : String} (hc : c ∈ ns) :
    columns.lookup c = some (infer (column seen c)).name := by
  obtain ⟨p, hp, rfl⟩ := List.mem_map.mp ((h.names c).mpr hc)
  have hmem : (p.1, (infer (column seen p.1)).name) ∈ columns := by
    rw [← h.types p hp]
    exact hp
  exact Table.lookup_of_mem h.nodup hmem

theorem unify_first (pd : Pandas) (batch : List FieldRow)
    (hn : ns.Nodup) : ∃ columns, unifyDtypes [] (pd.frame ns batch) = .ok columns ∧ Types batch ns columns := by
  unfold unifyDtypes
  rw [if_neg (by simp)]
  refine ⟨_, rfl, ?_, ?_, ?_⟩
  · simpa [Pandas.frame, Function.comp_def] using hn
  · simp [Pandas.frame, Function.comp_def]
  · intro c hc
    simp only [Pandas.frame, List.mem_map] at hc
    obtain ⟨_, ⟨_, ⟨c, -, rfl⟩, rfl⟩, rfl⟩ := hc
    rfl

theorem unify_next (pd : Pandas) {ms : List String} (hm : ms.Nodup) (hns : ∀ c, c ∈ ms ↔ c ∈ ns)
    (hseen : seen ≠ []) (hbatch : batch ≠ [])
    (htypes : Types seen ns columns) :
    ∃ columns', unifyDtypes columns (pd.frame ms batch) = .ok columns' ∧ Types (seen ++ batch) ns columns' := by
  have hsame : (∀ c ∈ columns.map Prod.fst, c ∈ (pd.frame ms batch).names) ∧
      ∀ c ∈ (pd.frame ms batch).names, c ∈ columns.map Prod.fst := by
    rw [frame_names]
    exact ⟨fun c hc => (hns c).mpr ((htypes.names c).mp hc), fun c hc => (htypes.names c).mpr ((hns c).mp hc)⟩
  unfold unifyDtypes
  simp only
  rw [if_neg (fun h => h.2 hsame)]
  refine ⟨_, rfl, ?_, ?_, ?_⟩
  · simpa [Pandas.frame, Function.comp_def] using hm
  · intro c
    rw [← hns]
    simp [Pandas.frame, Function.comp_def]
  · intro c hc
    simp only [Pandas.frame, List.mem_map] at hc
    obtain ⟨_, ⟨_, ⟨c, hc, rfl⟩, rfl⟩, rfl⟩ := hc
    rw [htypes.lookup ((hns c).mp hc), column_append]
    exact merge_infer (column_ne_nil hseen c) (column_ne_nil hbatch c)

theorem conform_names {rows : List (List (String × Value))} (h : pd.conform frame columns = .ok rows)
    (hcolumns : (columns.map Prod.fst).Nodup) (c : String) :
    c ∈ columns.map Prod.fst ↔ c ∈ frame.names := by
  unfold Pandas.conform at h
  by_cases hbad : (∃ c ∈ columns, c.1 ∉ frame.names) ∨ columns.length ≠ frame.columns.length
  · rw [if_pos hbad] at h
    cases h
  · rw [not_or, not_not] at hbad
    have hsub : columns.map Prod.fst ⊆ frame.names := by
      intro c hc
      obtain ⟨p, hp, rfl⟩ := List.mem_map.mp hc
      by_contra hnot
      exact hbad.1 ⟨p, hp, hnot⟩
    have hperm : (columns.map Prod.fst).Perm frame.names := by
      apply (List.subperm_of_subset hcolumns hsub).perm_of_length_le
      simp [DataFrame.names, hbad.2]
    exact hperm.mem_iff

theorem batchRows_eq {stamps : List DateTime} {ms : List String} (hstamps : pd.stampsOf ms tc batch = some stamps)
    (hn : ns.Nodup) (hm : ms.Nodup) (hns : ∀ c, c ∈ ms.filter (· ≠ tc) ↔ c ∈ ns) (htypes : Types whole ns columns)
    (hsub : ∀ row ∈ batch, row ∈ whole) :
    pd.batchRows tc columns (pd.frame ms batch) = .ok (stamps.zip (batch.map (pd.settledRow ns whole batch))) := by
  have htypes' : Types whole (ms.filter (· ≠ tc)) columns :=
    ⟨htypes.nodup, fun c => (htypes.names c).trans (hns c).symm, htypes.types⟩
  have hrows : (batch.map fun row => (columns.map Prod.fst).map fun c =>
      (c, pd.settled (column whole c) (column batch c) (field row c))).map pd.payload =
      batch.map (pd.settledRow ns whole batch) := by
    rw [List.map_map]
    apply List.map_congr_left
    intro row _
    exact (Pandas.payloadOf_eq_iff htypes.nodup hn htypes.names).mpr fun c _ => rfl
  unfold Pandas.batchRows
  rw [split_some hstamps]
  change (pd.conform (pd.frame (ms.filter (· ≠ tc)) batch) columns >>= fun rows => _) = _
  rw [conform_eq htypes' (hm.filter _) hsub]
  change IngestCall.zipStrict stamps _ = _
  rw [hrows, IngestCall.zipStrict, if_pos (by simp [length_stampsOf hstamps])]

theorem batchRows_ok {rows : List (DateTime × Payload)} {ms : List String}
    (h : pd.batchRows tc columns (pd.frame ms batch) = .ok rows) (hcolumns : (columns.map Prod.fst).Nodup) :
    (∃ stamps, pd.stampsOf ms tc batch = some stamps) ∧ ∀ c, c ∈ columns.map Prod.fst ↔
      c ∈ ms.filter (· ≠ tc) := by
  unfold Pandas.batchRows at h
  obtain ⟨split, hsplit, h⟩ := bind_ok h
  obtain ⟨stamps, hstamps, rfl⟩ := split_ok hsplit
  obtain ⟨values, hvalues, h⟩ := bind_ok h
  refine ⟨⟨stamps, hstamps⟩, fun c => ?_⟩
  have hnames := conform_names hvalues hcolumns c
  rwa [frame_names] at hnames

theorem batchRows_length {rows : List (DateTime × Payload)} {ms : List String}
    (h : pd.batchRows tc columns (pd.frame ms batch) = .ok rows) : rows.length = batch.length := by
  unfold Pandas.batchRows at h
  obtain ⟨split, hsplit, h⟩ := bind_ok h
  obtain ⟨stamps, hstamps, rfl⟩ := split_ok hsplit
  obtain ⟨values, -, h⟩ := bind_ok h
  unfold IngestCall.zipStrict at h
  by_cases hlength : stamps.length = (values.map pd.payload).length
  · rw [if_pos hlength] at h
    cases h
    rw [List.length_zip, ← hlength, Nat.min_self, length_stampsOf hstamps]
  · rw [if_neg hlength] at h
    cases h

end

/-! ## The scan -/

theorem hasher_rows (h : RowHasher) (rows : List JsonDict) : (rows.foldl RowHasher.add h).rows = h.rows + rows.length := by
  induction rows generalizing h with
  | nil => rfl
  | cons row rows ih =>
    rw [List.foldl_cons, ih, List.length_cons]
    simp only [RowHasher.add]
    omega

namespace ScanState

variable {sha256 : String → String} {uri : String} {rows rows' : List (DateTime × Payload)}

theorem add_append (s : ScanState) : (s.add rows).add rows' = s.add (rows ++ rows') := by
  simp [add, List.foldl_append]

theorem foldl_earliest (t : DateTime) (ts : List DateTime) : ∃ first, ts.foldl earliest (some t) = some first := by
  induction ts generalizing t with
  | nil => exact ⟨t, rfl⟩
  | cons u ts ih => exact ih _

theorem foldl_latest (t : DateTime) (ts : List DateTime) : ∃ last, ts.foldl latest (some t) = some last := by
  induction ts generalizing t with
  | nil => exact ⟨t, rfl⟩
  | cons u ts ih => exact ih _

theorem finish_eq (sha256 : String → String) (uri : String) (h : rows ≠ []) : ∃ start stop, ∀ columns,
    (({} : ScanState).add rows).finish sha256 uri columns =
      .ok ⟨columns, rows.length, start, stop, rowsDigest sha256 rows⟩ := by
  cases rows with
  | nil => exact absurd rfl h
  | cons row rows =>
    obtain ⟨start, hstart⟩ := foldl_earliest row.1 (rows.map Prod.fst)
    obtain ⟨stop, hstop⟩ := foldl_latest row.1 (rows.map Prod.fst)
    refine ⟨start, stop, fun columns => ?_⟩
    have hs : (({} : ScanState).add (row :: rows)).start = some start := hstart
    have ht : (({} : ScanState).add (row :: rows)).stop = some stop := hstop
    have hcount : (({} : ScanState).add (row :: rows)).hasher.rows = (row :: rows).length := by
      change (((row :: rows).map fun r => canonicalRow r.1 r.2).foldl RowHasher.add {}).rows = _
      rw [hasher_rows, List.length_map]
      exact Nat.zero_add _
    unfold finish
    rw [hs, ht]
    simp only [hcount, List.length_cons, Nat.add_eq_zero_iff, one_ne_zero, and_false, if_false]
    rfl

theorem finish_nil (sha256 : String → String) (uri : String) (columns : List (String × String)) :
    (({} : ScanState).add []).finish sha256 uri columns = .error (emptyObject uri) := rfl

theorem foldlM_add {ε α : Type} (g : α → Except ε (List (DateTime × Payload))) (frames : List α) (s : ScanState) :
    (frames.foldlM (fun (s : ScanState) frame => do
      let rows ← g frame
      pure (s.add rows)) s) = (do
      let parts ← frames.mapM g
      pure (s.add parts.flatten)) := by
  induction frames generalizing s with
  | nil => rfl
  | cons frame frames ih =>
    rw [List.foldlM_cons, List.mapM_cons]
    cases g frame with
    | error e => rfl
    | ok rows =>
      change (frames.foldlM _ (s.add rows)) = _
      rw [ih]
      change _ = ((frames.mapM g >>= fun parts => pure (rows :: parts)) >>= fun parts => pure (s.add parts.flatten))
      cases frames.mapM g with
      | error e => rfl
      | ok parts => simp [add_append, Bind.bind, Except.bind, pure, Except.pure]

end ScanState

namespace TextObject

variable {sha256 : String → String} {pd : Pandas} {k : Nat} {tc uri c : String} {o : TextObject} {batch : List FieldRow}
  {columns : List (String × String)} {rows : List (DateTime × Payload)}

theorem scan_eq (sha256 : String → String) (pd : Pandas) (k : Nat) (tc uri : String) (o : TextObject) :
    o.scan sha256 pd k tc uri = (do
      let columns ← o.columnsOf pd k tc
      let rows ← o.rowsOf pd k tc columns
      (({} : ScanState).add rows).finish sha256 uri columns) := by
  unfold scan rowsOf
  simp only [ScanState.foldlM_add, bind_assoc, pure_bind]

def payloadNames (pd : Pandas) (tc : String) (o : TextObject) : List String := (o.names (o.rows pd)).filter (· ≠ tc)

theorem payloadNames_nodup : (o.payloadNames pd tc).Nodup := (o.names_nodup _).filter _

/-- The object has rows, each batch has timestamps, and all have the same columns. -/
structure Readable (pd : Pandas) (tc : String) (k : Nat) (o : TextObject) : Prop where
  rows : o.rows pd ≠ []
  stamps : ∀ batch ∈ o.batches pd k, ∃ stamps, pd.stampsOf (o.names batch) tc batch = some stamps
  names : ∀ a ∈ o.batches pd k, ∀ b ∈ o.batches pd k, ∀ c ∈ o.names a, c ∈ o.names b

theorem Readable.mem (hr : Readable pd tc k o) (hk : 1 ≤ k) (hb : batch ∈ o.batches pd k) (c : String) :
    c ∈ (o.names batch).filter (· ≠ tc) ↔ c ∈ o.payloadNames pd tc := by
  have hwhole : c ∈ o.names (o.rows pd) ↔ c ∈ o.names batch := by
    rw [← batches_flatten hk, o.mem_names_flatten (batches_ne_nil hk hr.rows)]
    constructor
    · rintro ⟨a, ha, hc⟩
      exact hr.names a ha batch hb c hc
    · intro hc
      exact ⟨batch, hb, hc⟩
  rw [payloadNames, List.mem_filter, List.mem_filter, hwhole]

def settledRows (pd : Pandas) (tc : String) (k : Nat) (o : TextObject) : List (DateTime × Payload) :=
  (o.batches pd k).flatMap fun batch =>
    ((pd.stampsOf (o.names batch) tc batch).getD []).zip (batch.map (pd.settledRow (o.payloadNames pd tc) (o.rows pd) batch))

theorem columns_run (hr : Readable pd tc k o) (hk : 1 ≤ k) : ∀ (rest : List (List FieldRow)) (seen : List FieldRow)
    (columns : List (String × String)), (∀ batch ∈ rest, batch ∈ o.batches pd k) → seen ≠ [] →
    Types seen (o.payloadNames pd tc) columns →
    ∃ columns', (rest.map fun batch => pd.frame (o.names batch) batch).foldlM (pd.widen tc) columns = .ok columns' ∧
      Types (seen ++ rest.flatten) (o.payloadNames pd tc) columns' := by
  intro rest
  induction rest with
  | nil =>
    intro seen columns _ _ htypes
    refine ⟨columns, rfl, ?_⟩
    simpa using htypes
  | cons batch rest ih =>
    intro seen columns hmem hseen htypes
    have hb := hmem batch List.mem_cons_self
    obtain ⟨stamps, hstamps⟩ := hr.stamps batch hb
    obtain ⟨columns', hunify, htypes'⟩ := unify_next pd ((o.names_nodup batch).filter _) (hr.mem hk hb) hseen
      (batch_ne_nil hk hr.rows hb) htypes
    obtain ⟨final, hrun, hfinal⟩ := ih (seen ++ batch) columns' (fun b hb => hmem b (List.mem_cons_of_mem _ hb))
      (by simp [hseen]) htypes'
    refine ⟨final, ?_, ?_⟩
    · rw [List.map_cons, List.foldlM_cons, Pandas.widen, split_some hstamps]
      change (unifyDtypes columns _ >>= _) = _
      rw [hunify]
      exact hrun
    · rw [List.flatten_cons, ← List.append_assoc]
      exact hfinal

theorem columnsOf_eq (hr : Readable pd tc k o) (hk : 1 ≤ k) :
    ∃ columns, o.columnsOf pd k tc = .ok columns ∧ Types (o.rows pd) (o.payloadNames pd tc) columns := by
  have hne := batches_ne_nil hk hr.rows
  cases hparts : o.batches pd k with
  | nil => exact absurd hparts hne
  | cons first rest =>
    have hfirst : first ∈ o.batches pd k := by simp [hparts]
    obtain ⟨stamps, hstamps⟩ := hr.stamps first hfirst
    obtain ⟨columns, hunify, htypes⟩ := unify_first pd first ((o.names_nodup first).filter (· ≠ tc))
    have htypes' : Types first (o.payloadNames pd tc) columns :=
      ⟨htypes.nodup, fun c => (htypes.names c).trans (hr.mem hk hfirst c), htypes.types⟩
    obtain ⟨final, hrun, hfinal⟩ := columns_run hr hk rest first columns (fun b hb => by simp [hparts, hb])
      (batch_ne_nil hk hr.rows hfirst) htypes'
    refine ⟨final, ?_, ?_⟩
    · unfold columnsOf iterFrames
      rw [hparts, List.map_cons, List.foldlM_cons, Pandas.widen, split_some hstamps]
      change (unifyDtypes [] _ >>= _) = _
      rw [hunify]
      exact hrun
    · rw [← batches_flatten hk, hparts, List.flatten_cons]
      exact hfinal

theorem rowsOf_eq (hr : Readable pd tc k o) (hk : 1 ≤ k) (htypes : Types (o.rows pd) (o.payloadNames pd tc) columns) :
    o.rowsOf pd k tc columns = .ok (o.settledRows pd tc k) := by
  unfold rowsOf iterFrames
  rw [List.mapM_map, mapM_ok_map (g := fun batch => ((pd.stampsOf (o.names batch) tc batch).getD []).zip
    (batch.map (pd.settledRow (o.payloadNames pd tc) (o.rows pd) batch)))]
  · rfl
  · intro batch hb
    obtain ⟨stamps, hstamps⟩ := hr.stamps batch hb
    rw [Function.comp_apply, batchRows_eq hstamps payloadNames_nodup (o.names_nodup batch) (hr.mem hk hb) htypes
      (mem_rows_of_mem_batch hk hb), hstamps]
    rfl

theorem length_settledRows (hr : Readable pd tc k o)
    (hk : 1 ≤ k) : (o.settledRows pd tc k).length = (o.rows pd).length := by
  have hlength : ∀ parts : List (List FieldRow), (∀ batch ∈ parts, batch ∈ o.batches pd k) →
      (parts.flatMap fun batch => ((pd.stampsOf (o.names batch) tc batch).getD []).zip
        (batch.map (pd.settledRow (o.payloadNames pd tc) (o.rows pd) batch))).length = parts.flatten.length := by
    intro parts
    induction parts with
    | nil => intro _; rfl
    | cons batch parts ih =>
      intro hmem
      obtain ⟨stamps, hstamps⟩ := hr.stamps batch (hmem batch List.mem_cons_self)
      rw [List.flatMap_cons, List.length_append, ih fun b hb => hmem b (List.mem_cons_of_mem _ hb), List.flatten_cons,
        List.length_append, hstamps]
      simp [length_stampsOf hstamps]
  rw [settledRows, hlength _ fun _ hb => hb, batches_flatten hk]

theorem settledRows_ne_nil (hr : Readable pd tc k o) (hk : 1 ≤ k) : o.settledRows pd tc k ≠ [] := by
  intro hnil
  have hlength := length_settledRows hr hk
  rw [hnil] at hlength
  exact hr.rows (List.eq_nil_of_length_eq_zero hlength.symm)

theorem columnsOf_nodup (h : o.columnsOf pd k tc = .ok columns) : (columns.map Prod.fst).Nodup := by
  have hrun : ∀ (parts : List (List FieldRow)) (seen : List (String × String)), (seen.map Prod.fst).Nodup →
      (parts.map fun batch => pd.frame (o.names batch) batch).foldlM (pd.widen tc) seen = .ok columns →
      (columns.map Prod.fst).Nodup := by
    intro parts
    induction parts with
    | nil =>
      intro seen hseen h
      cases h
      exact hseen
    | cons batch parts ih =>
      intro seen _ h
      rw [List.map_cons, List.foldlM_cons] at h
      obtain ⟨next, hnext, h⟩ := bind_ok h
      obtain ⟨split, hsplit, hunify⟩ := bind_ok hnext
      apply ih next ?_ h
      obtain ⟨stamps, -, rfl⟩ := split_ok hsplit
      rw [unify_names hunify, frame_names]
      exact (o.names_nodup batch).filter _
  exact hrun _ [] (by simp) h

theorem readable_of_rowsOf (hk : 1 ≤ k) (hcolumns : (columns.map Prod.fst).Nodup) (h : o.rowsOf pd k tc columns = .ok rows)
    (hrows : rows ≠ []) : Readable pd tc k o := by
  unfold rowsOf iterFrames at h
  obtain ⟨parts, hparts, h⟩ := bind_ok h
  cases h
  rw [List.mapM_map] at hparts
  have hall := mapM_ok hparts
  have hbatch : ∀ batch ∈ o.batches pd k, ∃ part ∈ parts,
      pd.batchRows tc columns (pd.frame (o.names batch) batch) = .ok part :=
    fun batch hb => exists_of_mem_left hall hb
  refine ⟨?_, ?_, ?_⟩
  · intro hnil
    obtain ⟨row, hrow⟩ := List.exists_mem_of_ne_nil _ hrows
    obtain ⟨part, hpart, hrow⟩ := List.mem_flatten.mp hrow
    obtain ⟨batch, hb, hread⟩ := exists_of_mem_right hall hpart
    have hempty : batch = [] := by
      apply List.eq_nil_iff_forall_not_mem.mpr
      intro r hr
      have := mem_rows_of_mem_batch hk hb r hr
      simp [hnil] at this
    have hlength := batchRows_length hread
    rw [hempty] at hlength
    rw [List.eq_nil_of_length_eq_zero hlength] at hrow
    cases hrow
  · intro batch hb
    obtain ⟨part, -, hread⟩ := hbatch batch hb
    exact (batchRows_ok hread hcolumns).1
  · intro a ha b hb c hc
    obtain ⟨_, -, hreadA⟩ := hbatch a ha
    obtain ⟨_, -, hreadB⟩ := hbatch b hb
    have hA := batchRows_ok hreadA hcolumns
    have hB := batchRows_ok hreadB hcolumns
    by_cases htc : c = tc
    · obtain ⟨_, hstamps⟩ := hB.1
      rw [htc]
      exact mem_of_stampsOf hstamps
    · have hkept : c ∈ (o.names a).filter (· ≠ tc) := List.mem_filter.mpr ⟨hc, by simpa using htc⟩
      exact List.mem_of_mem_filter ((hB.2 c).mp ((hA.2 c).mpr hkept))

theorem scan_readable (sha256 : String → String) (uri : String) (hr : Readable pd tc k o) (hk : 1 ≤ k) :
    ∃ columns, Types (o.rows pd) (o.payloadNames pd tc) columns ∧
      o.scan sha256 pd k tc uri = (({} : ScanState).add (o.settledRows pd tc k)).finish sha256 uri columns := by
  obtain ⟨columns, hcolumns, htypes⟩ := columnsOf_eq hr hk
  refine ⟨columns, htypes, ?_⟩
  rw [scan_eq, hcolumns]
  change (o.rowsOf pd k tc columns >>= _) = _
  rw [rowsOf_eq hr hk htypes]
  rfl

theorem readable_of_scan {s : Scan} (hk : 1 ≤ k) (h : o.scan sha256 pd k tc uri = .ok s) : Readable pd tc k o := by
  rw [scan_eq] at h
  obtain ⟨columns, hcolumns, h⟩ := bind_ok h
  obtain ⟨rows, hrows, h⟩ := bind_ok h
  apply readable_of_rowsOf hk (columnsOf_nodup hcolumns) hrows
  rintro rfl
  rw [ScanState.finish_nil] at h
  cases h

end TextObject

end Batches

end OranAdapt
