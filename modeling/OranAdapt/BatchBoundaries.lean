import OranAdapt.SteadyColumns
import OranAdapt.VersionContents

/-!
# Where the batch boundaries fall

The boundaries do not matter exactly for an object that no chunk size can read,
and for one whose rows have the same columns, whose timestamps come out the same
however it is cut, and whose other columns are steady.
-/

namespace OranAdapt

namespace Batches

/-! ## What is claimed of the boundaries -/

/-- Two scans say the same. Columns are a dict: their order does not count. -/
structure Scan.Same (s t : Scan) : Prop where
  columns : ∀ c, s.columns.lookup c = t.columns.lookup c
  rowCount : s.rowCount = t.rowCount
  dataStart : s.dataStart = t.dataStart
  dataEnd : s.dataEnd = t.dataEnd
  contentHash : s.contentHash = t.contentHash

def SameOutcome : Except AdaptationError Scan → Except AdaptationError Scan → Prop
  | .ok s, .ok t => s.Same t
  | .error _, .error _ => True
  | _, _ => False

namespace TextObject

def reference (uri tc : String) (stat : SourceStat) (o : TextObject) : Reference :=
  ⟨uri, stat.pinnedUri, stat.fingerprint, o.format, tc⟩

/-- Every chunk size scans to the same, reads the same rows of a version that another one
registered, with the hash that was registered, and that is the hash of the table sent inline. -/
structure BoundariesIrrelevant (sha256 : String → String) (pd : Pandas) (tc : String) (o : TextObject) : Prop where
  scans : ∀ k ≥ 1, ∀ l ≥ 1, ∀ uri, SameOutcome (o.scan sha256 pd k tc uri) (o.scan sha256 pd l tc uri)
  reads : ∀ k ≥ 1, ∀ l ≥ 1, ∀ uri stat s, o.scan sha256 pd k tc uri = .ok s →
    ∀ dv : DataVersion, dv.columns = s.columns → dv.contentHash = s.contentHash →
    ∃ rows, (o.access pd k tc stat).iterReference sha256 dv (o.reference uri tc stat) none = .ok rows ∧
      (o.access pd l tc stat).iterReference sha256 dv (o.reference uri tc stat) none = .ok rows
  inline : ∀ k ≥ 1, ∀ uri s, o.scan sha256 pd k tc uri = .ok s →
    ∀ dataset version kind, o.inlineHash sha256 pd tc dataset version kind = .ok s.contentHash

/-! ## The condition -/

def stampsAt (pd : Pandas) (tc : String) (k : Nat) (o : TextObject) : Option (List DateTime) :=
  ((o.batches pd k).mapM fun batch => pd.stampsOf (o.names batch) tc batch).map List.flatten

/-- The object reads the same however it is cut. -/
structure Steady (pd : Pandas) (tc : String) (o : TextObject) : Prop where
  rows : o.rows pd ≠ []
  keys : ∀ row ∈ o.rows pd, ∀ row' ∈ o.rows pd, ∀ c ∈ row.map Prod.fst, c ∈ row'.map Prod.fst
  times : ∃ stamps, ∀ k ≥ 1, o.stampsAt pd tc k = some stamps
  columns : ∀ c ∈ o.payloadNames pd tc, o.SteadyColumn pd c

/-- No chunk size can read the object. -/
def Refused (pd : Pandas) (tc : String) (o : TextObject) : Prop := ∀ k ≥ 1, ¬Readable pd tc k o

end TextObject

/-! ## Lists of batches -/

section
variable {α β : Type}

theorem flatMap_map_inj {f g : List α → α → β} : ∀ {parts : List (List α)},
    (parts.flatMap fun b => b.map (f b)) = (parts.flatMap fun b => b.map (g b)) →
      ∀ b ∈ parts, ∀ a ∈ b, f b a = g b a := by
  intro parts
  induction parts with
  | nil =>
    intro _ b hb
    cases hb
  | cons part parts ih =>
    intro h b hb a ha
    rw [List.flatMap_cons, List.flatMap_cons] at h
    obtain ⟨hfirst, hrest⟩ := List.append_inj h (by simp)
    rcases List.mem_cons.mp hb with rfl | hb
    · exact List.map_inj_left.mp hfirst a ha
    · exact ih hrest b hb a ha

theorem flatMap_map_congr {f g : List α → α → β} {parts : List (List α)}
    (h : ∀ b ∈ parts, ∀ a ∈ b, f b a = g b a) :
    (parts.flatMap fun b => b.map (f b)) = (parts.flatMap fun b => b.map (g b)) := by
  induction parts with
  | nil => rfl
  | cons part parts ih =>
    rw [List.flatMap_cons, List.flatMap_cons, ih fun b hb => h b (List.mem_cons_of_mem _ hb),
      List.map_congr_left (h part List.mem_cons_self)]

theorem flatMap_zip {γ : Type} (stamps : List α → List β) (f : List α → α → γ) : ∀ {parts : List (List α)},
    (∀ b ∈ parts, (stamps b).length = b.length) →
    (parts.flatMap fun b => (stamps b).zip (b.map (f b))).map Prod.fst = parts.flatMap stamps ∧
    (parts.flatMap fun b => (stamps b).zip (b.map (f b))).map Prod.snd = parts.flatMap fun b => b.map (f b) := by
  intro parts
  induction parts with
  | nil =>
    intro _
    exact ⟨rfl, rfl⟩
  | cons part parts ih =>
    intro h
    obtain ⟨hfst, hsnd⟩ := ih fun b hb => h b (List.mem_cons_of_mem _ hb)
    have hlength := h part List.mem_cons_self
    constructor
    · rw [List.flatMap_cons, List.map_append, hfst, List.map_fst_zip (by simp [hlength]), List.flatMap_cons]
    · rw [List.flatMap_cons, List.map_append, hsnd, List.map_snd_zip (by simp [hlength]), List.flatMap_cons]

theorem mapM_getD {f : α → Option (List β)} {l : List α} (h : ∀ a ∈ l, ∃ b, f a = some b) :
    (l.mapM f).map List.flatten = some (l.flatMap fun a => (f a).getD []) := by
  induction l with
  | nil => rfl
  | cons a l ih =>
    obtain ⟨b, hb⟩ := h a List.mem_cons_self
    have hrest := ih fun a ha => h a (List.mem_cons_of_mem _ ha)
    obtain ⟨bs, hbs, hflat⟩ := Option.map_eq_some_iff.mp hrest
    rw [List.mapM_cons, hb, hbs, List.flatMap_cons, ← hflat, hb]
    rfl

end

namespace TextObject

variable {sha256 : String → String} {pd : Pandas} {k l : Nat} {tc uri c : String} {o : TextObject} {batch : List FieldRow}
  {columns : List (String × String)} {rows : List (DateTime × Payload)} {stat : SourceStat}

/-! ## Cuts that give the same rows -/

theorem settledRows_parts (hr : Readable pd tc k o) :
    o.stampsAt pd tc k = some ((o.settledRows pd tc k).map Prod.fst) ∧ (o.settledRows pd tc k).map Prod.snd =
      (o.batches pd k).flatMap fun batch => batch.map (pd.settledRow (o.payloadNames pd tc) (o.rows pd) batch) := by
  have hlength : ∀ batch ∈ o.batches pd k, ((pd.stampsOf (o.names batch) tc batch).getD []).length = batch.length := by
    intro batch hb
    obtain ⟨stamps, hstamps⟩ := hr.stamps batch hb
    rw [hstamps]
    exact length_stampsOf hstamps
  obtain ⟨hfst, hsnd⟩ := flatMap_zip (fun batch => (pd.stampsOf (o.names batch) tc batch).getD [])
    (fun batch => pd.settledRow (o.payloadNames pd tc) (o.rows pd) batch) hlength
  refine ⟨?_, hsnd⟩
  unfold stampsAt settledRows
  rw [hfst, mapM_getD hr.stamps]

theorem whole_parts (hk : 1 ≤ k) :
    (o.rows pd).map (pd.settledRow (o.payloadNames pd tc) (o.rows pd) (o.rows pd)) =
      (o.batches pd k).flatMap fun batch => batch.map (pd.settledRow (o.payloadNames pd tc) (o.rows pd) (o.rows pd)) := by
  rw [List.flatMap_def, ← List.map_flatten, batches_flatten hk]

theorem settledRow_eq_iff {row : FieldRow} :
    pd.settledRow (o.payloadNames pd tc) (o.rows pd) batch row =
      pd.settledRow (o.payloadNames pd tc) (o.rows pd) (o.rows pd) row ↔
      ∀ c ∈ o.payloadNames pd tc, pd.json (pd.settled (column (o.rows pd) c) (column batch c) (field row c)) =
        pd.json (pd.load (column (o.rows pd) c) (field row c)) := by
  unfold Pandas.settledRow
  rw [Pandas.payloadOf_eq_iff payloadNames_nodup payloadNames_nodup fun c => Iff.rfl]
  simp only [Pandas.settled_self]

theorem length_pos (h : o.rows pd ≠ []) : 1 ≤ (o.rows pd).length := List.length_pos_of_ne_nil h

def wholeRows (pd : Pandas) (tc : String) (o : TextObject) : List (DateTime × Payload) :=
  o.settledRows pd tc (o.rows pd).length

theorem wholeRows_snd (hw : Readable pd tc (o.rows pd).length o) :
    (o.wholeRows pd tc).map Prod.snd = (o.rows pd).map (pd.settledRow (o.payloadNames pd tc) (o.rows pd) (o.rows pd)) := by
  rw [wholeRows, (settledRows_parts hw).2, batches_whole hw.rows le_rfl, List.flatMap_cons, List.flatMap_nil, List.append_nil]

/-- A cut gives the rows of one piece when the timestamps are those and no value changes. -/
theorem settledRows_eq_iff (hr : Readable pd tc k o) (hw : Readable pd tc (o.rows pd).length o) (hk : 1 ≤ k) :
    o.settledRows pd tc k = o.wholeRows pd tc ↔
      o.stampsAt pd tc k = o.stampsAt pd tc (o.rows pd).length ∧
        ∀ c ∈ o.payloadNames pd tc, ∀ batch ∈ o.batches pd k,
        ∀ f ∈ column batch c, pd.json (pd.settled (column (o.rows pd) c) (column batch c) f) =
          pd.json (pd.load (column (o.rows pd) c) f) := by
  obtain ⟨hstamps, hsnd⟩ := settledRows_parts hr
  obtain ⟨hstamps', -⟩ := settledRows_parts hw
  have hwhole := wholeRows_snd hw
  constructor
  · intro h
    refine ⟨?_, ?_⟩
    · rw [hstamps, hstamps', h, wholeRows]
    · intro c hc batch hb f hf
      obtain ⟨row, hrow, rfl⟩ := List.mem_map.mp hf
      rw [h, hwhole, whole_parts hk] at hsnd
      exact settledRow_eq_iff.mp (flatMap_map_inj hsnd batch hb row hrow).symm c hc
  · rintro ⟨htimes, hvalues⟩
    have hfirst : (o.settledRows pd tc k).map Prod.fst = (o.wholeRows pd tc).map Prod.fst := by
      rw [hstamps, hstamps'] at htimes
      exact Option.some.inj htimes
    have hsecond : (o.settledRows pd tc k).map Prod.snd = (o.wholeRows pd tc).map Prod.snd := by
      rw [hsnd, hwhole, whole_parts hk]
      apply flatMap_map_congr
      intro batch hb row hrow
      exact settledRow_eq_iff.mpr fun c hc => hvalues c hc batch hb _ (List.mem_map_of_mem hrow)
    rw [List.zip_of_prod hfirst hsecond]
    exact (List.zip_of_prod rfl rfl).symm

/-! ## Scanning and reading -/

theorem scan_refused (sha256 : String → String) (uri : String) (hk : 1 ≤ k)
    (h : ¬Readable pd tc k o) : ∃ e, o.scan sha256 pd k tc uri = .error e := by
  cases hscan : o.scan sha256 pd k tc uri with
  | error e => exact ⟨e, rfl⟩
  | ok s => exact absurd (readable_of_scan hk hscan) h

/-- What a version registered from the scan of a readable object holds, and what it says. -/
theorem scan_ok (sha256 : String → String) (uri : String) (hr : Readable pd tc k o) (hk : 1 ≤ k) :
    ∃ s, o.scan sha256 pd k tc uri = .ok s ∧
    Types (o.rows pd) (o.payloadNames pd tc) s.columns ∧ s.contentHash = rowsDigest sha256 (o.settledRows pd tc k) := by
  obtain ⟨columns, htypes, hscan⟩ := scan_readable sha256 uri hr hk
  obtain ⟨start, stop, hfinish⟩ := ScanState.finish_eq sha256 uri (settledRows_ne_nil hr hk)
  rw [hfinish] at hscan
  exact ⟨_, hscan, htypes, rfl⟩

theorem iterReference_eq (dv : DataVersion) :
    (o.access pd k tc stat).iterReference sha256 dv (o.reference uri tc stat) none = (do
      let rows ← o.rowsOf pd k tc dv.columns
      if rowsDigest sha256 rows ≠ dv.contentHash then
        .error (DataAccess.changed "the rows behind this data version changed since it was registered" dv
          (o.reference uri tc stat) dv.contentHash (rowsDigest sha256 rows))
      else pure (DataAccess.referenceRows dv.id rows)) := by
  have hcheck : (o.access pd k tc stat).checkUnchanged dv (o.reference uri tc stat) = .ok true := by
    unfold DataAccess.checkUnchanged
    cases hf : stat.fingerprint with
    | none => simp [access, reference, hf]
    | some registered =>
      simp only [access, reference, hf, port]
      change (if stat.fingerprint ≠ some registered then _ else _) = _
      rw [if_neg (by simp [hf])]
      rfl
  unfold DataAccess.iterReference
  simp only [hcheck]
  change (o.rowsOf pd k tc dv.columns >>= fun rows => _) = _
  simp

theorem read_eq (hr : Readable pd tc k o) (hk : 1 ≤ k) {dv : DataVersion}
    (htypes : Types (o.rows pd) (o.payloadNames pd tc) dv.columns)
    (hhash : dv.contentHash = rowsDigest sha256 (o.settledRows pd tc k)) :
    (o.access pd k tc stat).iterReference sha256 dv (o.reference uri tc stat) none =
      .ok (DataAccess.referenceRows dv.id (o.settledRows pd tc k)) := by
  rw [iterReference_eq, rowsOf_eq hr hk htypes]
  change (if rowsDigest sha256 (o.settledRows pd tc k) ≠ dv.contentHash then _ else _) = _
  rw [if_neg (by simp [hhash])]
  rfl

theorem read_ok {read : List Row} (dv : DataVersion) (hr : Readable pd tc k o) (hk : 1 ≤ k)
    (htypes : Types (o.rows pd) (o.payloadNames pd tc) dv.columns)
    (h : (o.access pd k tc stat).iterReference sha256 dv (o.reference uri tc stat) none = .ok read) :
    read = DataAccess.referenceRows dv.id (o.settledRows pd tc k) := by
  rw [iterReference_eq, rowsOf_eq hr hk htypes] at h
  change (if rowsDigest sha256 (o.settledRows pd tc k) ≠ dv.contentHash then _ else _) = _ at h
  by_cases hhash : rowsDigest sha256 (o.settledRows pd tc k) ≠ dv.contentHash
  · rw [if_pos hhash] at h
    cases h
  · rw [if_neg hhash] at h
    cases h
    rfl

theorem inlineHash_eq (hw : Readable pd tc (o.rows pd).length o) (dataset version : String) (kind : DataKind) :
    o.inlineHash sha256 pd tc dataset version kind = .ok (rowsDigest sha256 (o.wholeRows pd tc)) := by
  have hbatches : o.batches pd (o.rows pd).length = [o.rows pd] := batches_whole hw.rows le_rfl
  obtain ⟨stamps, hstamps⟩ := hw.stamps (o.rows pd) (by simp [hbatches])
  have htc := mem_of_stampsOf hstamps
  have hread : (pd.toDatetime ((o.whole pd).values tc)).bind (·.mapM id) = some stamps := by
    rw [whole, frame_values pd htc]
    unfold Pandas.stampsOf at hstamps
    rwa [if_pos htc] at hstamps
  have htimes : pd.timestamps (o.whole pd) tc = .ok (pd.written ((o.whole pd).drop tc), stamps) := by
    unfold Pandas.timestamps
    rw [if_neg (by simpa [whole] using htc), hread]
  have hrecords : (pd.written ((o.whole pd).drop tc)).records =
      (o.rows pd).map (pd.settledRow (o.payloadNames pd tc) (o.rows pd) (o.rows pd)) := by
    rw [whole, frame_drop]
    change ((o.rows pd).map _).map pd.payload = _
    rw [List.map_map]
    apply List.map_congr_left
    intro row _
    unfold Pandas.settledRow
    simp only [Pandas.settled_self]
    rfl
  have hlength : stamps.length = (pd.written ((o.whole pd).drop tc)).records.length := by
    rw [hrecords, List.length_map, length_stampsOf hstamps]
  have hempty : (o.inline pd tc dataset version kind).frame.empty = false := by
    have hcolumns : (o.names (o.rows pd)).isEmpty = false := by
      rw [List.isEmpty_eq_false_iff]
      exact List.ne_nil_of_mem htc
    have hrows : (o.rows pd).isEmpty = false := List.isEmpty_eq_false_iff.mpr hw.rows
    simp [inline, Pandas.written, whole, Pandas.frame, Frame.empty, hcolumns, hrows]
  have hsplit : (o.inline pd tc dataset version kind).split = .ok (pd.written ((o.whole pd).drop tc), stamps) := by
    unfold IngestCall.split
    rw [if_neg (by simp [hempty]), if_neg (by simp [inline])]
    change (pd.timestamps (o.whole pd) tc >>= _) = _
    rw [htimes]
    change (IngestCall.zipStrict stamps _ >>= _) = _
    rw [IngestCall.zipStrict, if_pos hlength]
    rfl
  have hrows : o.wholeRows pd tc = stamps.zip (pd.written ((o.whole pd).drop tc)).records := by
    rw [wholeRows, settledRows, hbatches, List.flatMap_cons, List.flatMap_nil, List.append_nil, hstamps, hrecords]
    rfl
  change ((o.inline pd tc dataset version kind).split >>= _) = _
  rw [hsplit, hrows]
  rfl

/-! ## Any two chunk sizes -/

/-- Every chunk size reads the object, and to the same rows. -/
def Agree (pd : Pandas) (tc : String) (o : TextObject) : Prop :=
  ∀ k ≥ 1, Readable pd tc k o ∧ o.settledRows pd tc k = o.wholeRows pd tc

theorem Agree.whole (h : o.Agree pd tc) : Readable pd tc (o.rows pd).length o := (h _ (length_pos (h 1 le_rfl).1.rows)).1

theorem boundaries_of_agree (sha256 : String → String) (h : o.Agree pd tc) : o.BoundariesIrrelevant sha256 pd tc where
  scans := by
    intro k hk l hl uri
    obtain ⟨hrk, hk'⟩ := h k hk
    obtain ⟨hrl, hl'⟩ := h l hl
    obtain ⟨columns, htypes, hscan⟩ := scan_readable sha256 uri hrk hk
    obtain ⟨columns', htypes', hscan'⟩ := scan_readable sha256 uri hrl hl
    obtain ⟨start, stop, hfinish⟩ := ScanState.finish_eq sha256 uri (settledRows_ne_nil hrk hk)
    rw [hscan, hscan', hl', ← hk', hfinish, hfinish]
    refine ⟨fun c => ?_, rfl, rfl, rfl, rfl⟩
    by_cases hc : c ∈ o.payloadNames pd tc
    · rw [htypes.lookup hc, htypes'.lookup hc]
    · have hnone : ∀ columns, Types (o.rows pd) (o.payloadNames pd tc) columns → columns.lookup c = none := by
        intro columns ht
        rw [List.lookup_eq_none_iff]
        intro p hp
        have hne : c ≠ p.1 := by
          rintro rfl
          exact hc ((ht.names _).mp (List.mem_map_of_mem hp))
        simpa using hne
      rw [hnone _ htypes, hnone _ htypes']
  reads := by
    intro k hk l hl uri stat s hs dv hcolumns hhash
    obtain ⟨hrk, hk'⟩ := h k hk
    obtain ⟨hrl, hl'⟩ := h l hl
    obtain ⟨s', hs', htypes, hdigest⟩ := scan_ok sha256 uri hrk hk
    rw [hs] at hs'
    cases hs'
    rw [← hcolumns] at htypes
    rw [← hhash] at hdigest
    refine ⟨_, read_eq hrk hk htypes hdigest, ?_⟩
    rw [hk', ← hl'] at hdigest ⊢
    exact read_eq hrl hl htypes hdigest
  inline := by
    intro k hk uri s hs dataset version kind
    obtain ⟨s', hs', -, hdigest⟩ := scan_ok sha256 uri (h k hk).1 hk
    rw [hs] at hs'
    cases hs'
    rw [inlineHash_eq h.whole, hdigest, (h k hk).2]

theorem boundaries_of_refused (sha256 : String → String) (h : o.Refused pd tc) : o.BoundariesIrrelevant sha256 pd tc where
  scans := by
    intro k hk l hl uri
    obtain ⟨e, he⟩ := scan_refused sha256 uri hk (h k hk)
    obtain ⟨e', he'⟩ := scan_refused sha256 uri hl (h l hl)
    rw [he, he']
    trivial
  reads := by
    intro k hk l hl uri stat s hs
    exact absurd (readable_of_scan hk hs) (h k hk)
  inline := by
    intro k hk uri s hs
    exact absurd (readable_of_scan hk hs) (h k hk)

theorem payload_keys (hr : Readable pd tc k o) {r : DateTime × Payload} (h : r ∈ o.settledRows pd tc k) :
    c ∈ r.2.keys ↔ c ∈ o.payloadNames pd tc := by
  have hmem : r.2 ∈ (o.settledRows pd tc k).map Prod.snd := List.mem_map_of_mem h
  rw [(settledRows_parts hr).2] at hmem
  obtain ⟨batch, -, hrow⟩ := List.mem_flatMap.mp hmem
  obtain ⟨row, -, heq⟩ := List.mem_map.mp hrow
  rw [← heq]
  exact Pandas.mem_keys_payloadOf payloadNames_nodup

theorem rows_eq {rows rows' : List (DateTime × Payload)} (h : List.Forall₂ SameButTime rows rows')
    (hread : (rows.map fun r => (r.1, r.2.without "observed_at")) = rows'.map fun r => (r.1, r.2.without "observed_at"))
    (hkeys : ∀ r ∈ rows, ∀ r' ∈ rows', ("observed_at" ∈ r.2.keys ↔ "observed_at" ∈ r'.2.keys)) :
    rows = rows' := by
  induction h with
  | nil => rfl
  | @cons r r' rows rows' hr _ ih =>
    rw [List.map_cons, List.map_cons, List.cons.injEq, Prod.mk.injEq] at hread
    have hsame := hkeys r List.mem_cons_self r' List.mem_cons_self
    have hrow : r = r' := by
      rcases hr with heq | ⟨hpayload, -⟩ | hcarries | hcarries
      · exact heq
      · exact Prod.ext hread.1.1 hpayload
      · have hmem := hsame.mp (List.mem_map_of_mem (Payload.mem_keys_of_get hcarries.1))
        rw [← hcarries.2] at hmem
        exact absurd hmem (Payload.not_mem_keys_without _ _)
      · have hmem := hsame.mpr (List.mem_map_of_mem (Payload.mem_keys_of_get hcarries.1))
        rw [← hcarries.2] at hmem
        exact absurd hmem (Payload.not_mem_keys_without _ _)
    rw [hrow, ih hread.2 fun a ha b hb => hkeys a (List.mem_cons_of_mem _ ha) b (List.mem_cons_of_mem _ hb)]

theorem readable_of_same (h : SameOutcome (o.scan sha256 pd k tc uri) (o.scan sha256 pd l tc uri)) (hk : 1 ≤ k)
    (hl : 1 ≤ l) (hr : Readable pd tc k o) : Readable pd tc l o := by
  by_contra hnot
  obtain ⟨s, hs, -⟩ := scan_ok sha256 uri hr hk
  obtain ⟨e, he⟩ := scan_refused sha256 uri hl hnot
  rw [hs, he] at h
  exact h

def registered (o : TextObject) (uri tc : String) (stat : SourceStat) (s : Scan) : DataVersion where
  id := 1
  dataset := "dataset"
  version := "v1"
  kind := .historical
  parentVersionId := none
  rowCount := s.rowCount
  contentHash := s.contentHash
  columns := s.columns
  deletedKeys := []
  storage := .reference (o.reference uri tc stat)

theorem agree_of_boundaries (hsha : sha256.Injective) (h : o.BoundariesIrrelevant sha256 pd tc) :
    o.Refused pd tc ∨ o.Agree pd tc := by
  by_cases hone : Readable pd tc 1 o
  · right
    have hpos := length_pos hone.rows
    have hreadable : ∀ k ≥ 1, Readable pd tc k o := fun k hk => readable_of_same (h.scans 1 le_rfl k hk "") le_rfl hk hone
    intro k hk
    have hr := hreadable k hk
    have hw := hreadable _ hpos
    refine ⟨hr, ?_⟩
    obtain ⟨s, hs, htypes, hhash⟩ := scan_ok sha256 "" hr hk
    obtain ⟨t, ht, -, hhash'⟩ := scan_ok sha256 "" hw hpos
    have hsame := h.scans k hk _ hpos ""
    rw [hs, ht] at hsame
    obtain ⟨rows, hreadk, hreadw⟩ :=
      h.reads k hk _ hpos "" ⟨"", none⟩ s hs (o.registered "" tc ⟨"", none⟩ s) rfl rfl
    apply rows_eq
    · apply rowsDigest_inj hsha
      rw [← hhash, hsame.contentHash, hhash', wholeRows]
    · rw [← DataAccess.referenceRows_pairs 1, ← DataAccess.referenceRows_pairs 1]
      have hleft := read_ok (o.registered "" tc ⟨"", none⟩ s) hr hk htypes hreadk
      have hright := read_ok (o.registered "" tc ⟨"", none⟩ s) hw hpos htypes hreadw
      rw [hright] at hleft
      exact congrArg _ hleft.symm
    · intro r hmem r' hmem'
      rw [payload_keys hr hmem, payload_keys hw hmem']
  · left
    intro k hk hr
    exact hone (readable_of_same (h.scans k hk 1 le_rfl "") hk le_rfl hr)

/-! ## Cuts of the rows -/

theorem csvRow_keys (pd : Pandas) : ∀ header line, (pd.csvRow header line).map Prod.fst = header := by
  intro header
  induction header with
  | nil => intro line; rfl
  | cons h header ih =>
    intro line
    cases line with
    | nil => simp [Pandas.csvRow, ih]
    | cons s line => simp [Pandas.csvRow, ih]

theorem mem_names (hsub : ∀ row ∈ batch, row ∈ o.rows pd) (hne : batch ≠ []) :
    c ∈ o.names batch ↔ ∃ row ∈ batch, c ∈ row.map Prod.fst := by
  cases o with
  | csv header lines nodup fits =>
    have hkeys : ∀ row ∈ batch, row.map Prod.fst = header := by
      intro row hrow
      obtain ⟨line, -, rfl⟩ := List.mem_map.mp (hsub row hrow)
      exact csvRow_keys pd header line
    constructor
    · intro hc
      obtain ⟨row, hrow⟩ := List.exists_mem_of_ne_nil _ hne
      exact ⟨row, hrow, (hkeys row hrow).symm ▸ hc⟩
    · rintro ⟨row, hrow, hc⟩
      rw [hkeys row hrow] at hc
      exact hc
  | jsonl lines nodup => simp [names, List.mem_eraseDups]

theorem batches_one {row : FieldRow} (h : row ∈ o.rows pd) : [row] ∈ o.batches pd 1 := by
  rw [batches_eq (List.ne_nil_of_mem h)]
  exact mem_chunks_one h

theorem readable_of_steady (h : o.Steady pd tc) (hk : 1 ≤ k) : Readable pd tc k o := by
  obtain ⟨stamps, htimes⟩ := h.times
  refine ⟨h.rows, ?_, ?_⟩
  · intro batch hb
    obtain ⟨parts, hparts, -⟩ := Option.map_eq_some_iff.mp (htimes k hk)
    exact Datastore.mapM_some_mem hparts hb
  · intro a ha b hb c hc
    have hsuba := mem_rows_of_mem_batch hk ha
    have hsubb := mem_rows_of_mem_batch hk hb
    have hneb := batch_ne_nil hk h.rows hb
    obtain ⟨row, hrow, hmem⟩ := (mem_names hsuba (batch_ne_nil hk h.rows ha)).mp hc
    obtain ⟨row', hrow'⟩ := List.exists_mem_of_ne_nil _ hneb
    exact (mem_names hsubb hneb).mpr ⟨row', hrow', h.keys row (hsuba row hrow) row' (hsubb row' hrow') c hmem⟩

theorem agree_iff_steady : o.Agree pd tc ↔ o.Steady pd tc := by
  constructor
  · intro h
    have hone := (h 1 le_rfl).1
    have hw := h.whole
    refine ⟨hone.rows, ?_, ⟨(o.wholeRows pd tc).map Prod.fst, fun k hk => ?_⟩, ?_⟩
    · intro row hrow row' hrow' c hc
      have hsub : ∀ r ∈ o.rows pd, ∀ r' ∈ [r], r' ∈ o.rows pd := by
        intro r hr r' hr'
        rw [List.mem_singleton.mp hr']
        exact hr
      have hnames := hone.names [row] (batches_one hrow) [row'] (batches_one hrow') c
        ((mem_names (hsub row hrow) (by simp)).mpr ⟨row, by simp, hc⟩)
      obtain ⟨r, hr, hmem⟩ := (mem_names (hsub row' hrow') (by simp)).mp hnames
      rwa [List.mem_singleton.mp hr] at hmem
    · rw [(settledRows_parts (h k hk).1).1, (h k hk).2]
    · intro c hc
      rw [steady_iff]
      intro k hk batch hb f hf
      exact ((settledRows_eq_iff (h k hk).1 hw hk).mp (h k hk).2).2 c hc batch hb f hf
  · intro h k hk
    have hr := readable_of_steady h hk
    have hpos := length_pos h.rows
    have hw := readable_of_steady h hpos
    obtain ⟨stamps, htimes⟩ := h.times
    refine ⟨hr, (settledRows_eq_iff hr hw hk).mpr ⟨?_, ?_⟩⟩
    · rw [htimes k hk, htimes _ hpos]
    · intro c hc batch hb f hf
      exact (steady_iff o).mp (h.columns c hc) k hk batch hb f hf

theorem boundaries_iff (hsha : sha256.Injective) : o.BoundariesIrrelevant sha256 pd tc ↔
    o.Refused pd tc ∨ o.Steady pd tc := by
  constructor
  · intro h
    rcases agree_of_boundaries hsha h with hrefused | hagree
    · exact .inl hrefused
    · exact .inr (agree_iff_steady.mp hagree)
  · rintro (h | h)
    · exact boundaries_of_refused sha256 h
    · exact boundaries_of_agree sha256 (agree_iff_steady.mpr h)

/-- `DataAccess.scan` over the object's store is this scan, without the time range. -/
theorem scan_port (sha256 : String → String) (pd : Pandas) (k : Nat) (tc uri : String) (stat : SourceStat) (o : TextObject)
    (fmt : Option String) : (o.access pd k tc stat).scan sha256 uri fmt none =
      (o.scan sha256 pd k tc uri).map fun s => ⟨o.reference uri tc stat, s.columns, s.rowCount, s.contentHash⟩ := by
  rw [scan_eq]
  change (o.columnsOf pd k tc >>= fun columns => o.rowsOf pd k tc columns >>= fun rows => _) = _
  cases o.columnsOf pd k tc with
  | error e => rfl
  | ok columns =>
    change (o.rowsOf pd k tc columns >>= fun rows => _) = Except.map _ (o.rowsOf pd k tc columns >>= fun rows => _)
    cases o.rowsOf pd k tc columns with
    | error e => rfl
    | ok rows =>
      change (if rows = [] then _ else _) = Except.map _ ((({} : ScanState).add rows).finish sha256 uri columns)
      by_cases h : rows = []
      · rw [if_pos h, h]
        rfl
      · obtain ⟨start, stop, hfinish⟩ := ScanState.finish_eq sha256 uri h
        rw [if_neg h, hfinish]
        rfl

end TextObject

/-! ## Numbers that turn to text -/

theorem wholeText (n : Int) : Json.IsFloatText (String.ofList (Json.intText n ++ ['.', '0'])).toList := by
  rw [String.toList_ofList]
  constructor
  · intro c hc
    rcases List.mem_append.mp hc with hc | hc
    · exact Json.numberChar_of_mem_intText c hc
    · rcases List.mem_cons.mp hc with rfl | hc
      · rfl
      · rw [List.mem_singleton.mp hc]
        rfl
  · exact ⟨'.', by simp, rfl⟩

def timeOf : Value → Option (Option DateTime)
  | .text s =>
    if s = "2024-05-01T00:00Z" then some (some (VersionCall.atHour 0))
    else if s = "2024-05-01T01:00Z" then some (some (VersionCall.atHour 1))
    else none
  | .missing => some none
  | _ => none

def examplePandas : Pandas where
  literal s :=
    if s = "" then some .missing
    else if s = "True" then some (.bool true)
    else if s = "False" then some (.bool false)
    else if s.toList.all Char.isDigit then some (.int (Nat.ofDigitChars 10 s.toList 0))
    else none
  ofInt n := .fin n
  write
    | .fin q => if q.den = 1 then some ⟨_, wholeText q.num⟩ else none
    | _ => none
  astype t v :=
    if t = "object" then some v
    else if t = "float64" then
      match v with
      | .int n => some (.float (.fin n))
      | .float x => some (.float x)
      | _ => none
    else none
  toDatetime column := column.mapM timeOf
  write_nan := rfl
  astype_object _ := rfl
  astype_float64 _ := rfl
  length_toDatetime h := length_mapM h

theorem loads_nodup : ["time", "load"].Nodup := by decide

theorem loads_fit (second : String) :
    ∀ row ∈ [["2024-05-01T00:00Z", "1"], ["2024-05-01T01:00Z", second]], row.length ≤ ["time", "load"].length := by
  simp

def loads (second : String) : TextObject :=
  .csv ["time", "load"] [["2024-05-01T00:00Z", "1"], ["2024-05-01T01:00Z", second]] loads_nodup (loads_fit second)

def timeField (s : String) : Field := ⟨.text s, .text s⟩

def loadsRow (time : String) (load : Field) : FieldRow := [("time", timeField time), ("load", load)]

def one : Field := ⟨.int 1, .text "1"⟩

theorem loads_rows (second : String) : (loads second).rows examplePandas =
    [loadsRow "2024-05-01T00:00Z" one, loadsRow "2024-05-01T01:00Z" (examplePandas.csvField second)] := rfl

theorem loads_payloadNames (second : String) : (loads second).payloadNames examplePandas "time" = ["load"] := rfl

theorem stampsOf_first (load : Field) : examplePandas.stampsOf ["time", "load"] "time" [loadsRow "2024-05-01T00:00Z" load] =
    some [VersionCall.atHour 0] := rfl

theorem stampsOf_second (load : Field) : examplePandas.stampsOf ["time", "load"] "time" [loadsRow "2024-05-01T01:00Z" load] =
    some [VersionCall.atHour 1] := rfl

namespace TextObject

/-- The second load is text. Row by row the first one is a number, and stays one; with two rows to a batch it is text. -/
theorem mixed_loads : ¬(loads "x").BoundariesIrrelevant id examplePandas "time" := by
  intro h
  rcases agree_of_boundaries Function.injective_id h with hrefused | hagree
  · apply hrefused 1 le_rfl
    refine ⟨by simp [loads_rows], ?_, ?_⟩
    · intro batch hb
      change batch ∈ [[loadsRow "2024-05-01T00:00Z" one], [loadsRow "2024-05-01T01:00Z" (examplePandas.csvField "x")]] at hb
      rcases List.mem_cons.mp hb with rfl | hb
      · exact ⟨_, stampsOf_first one⟩
      · rw [List.mem_singleton.mp hb]
        exact ⟨_, stampsOf_second (examplePandas.csvField "x")⟩
    · intro a _ b _ c hc
      exact hc
  · have hsteady := agree_iff_steady.mp hagree
    have hcolumn := hsteady.columns "load" (by simp [loads_payloadNames])
    change OneKind [one, timeField "x"] at hcolumn
    rcases hcolumn with hnumbers | hbools | htexts
    · simpa [timeField, Value.isNumber, Value.isMissing] using hnumbers (timeField "x") (by simp)
    · simpa [one, Value.isBool, Value.isMissing] using hbools one (by simp)
    · simpa [one, Value.isText, Value.isMissing] using htexts one (by simp)

theorem steady_loads : (loads "1").Steady examplePandas "time" := by
  refine ⟨by simp [loads_rows], ?_, ⟨[VersionCall.atHour 0, VersionCall.atHour 1], ?_⟩, ?_⟩
  · intro row hrow row' hrow' c hc
    obtain ⟨line, -, rfl⟩ := List.mem_map.mp hrow
    obtain ⟨line', -, rfl⟩ := List.mem_map.mp hrow'
    rw [csvRow_keys] at hc ⊢
    exact hc
  · intro k hk
    by_cases hone : k = 1
    · rw [hone]
      rfl
    · have htwo : ((loads "1").rows examplePandas).length ≤ k := by
        rw [loads_rows]
        change 2 ≤ k
        omega
      have hbatches := batches_whole (by simp [loads_rows]) htwo
      unfold stampsAt
      rw [hbatches, loads_rows]
      rfl
  · intro c hc
    rw [loads_payloadNames, List.mem_singleton] at hc
    rw [hc]
    change OneKind [one, one]
    refine .inl fun f hf => .inl ?_
    simp only [List.mem_cons, List.not_mem_nil, or_false, or_self] at hf
    rw [hf]
    rfl

theorem boundaries_loads : (loads "1").BoundariesIrrelevant id examplePandas "time" :=
  (boundaries_iff Function.injective_id).mpr (.inr steady_loads)

end TextObject

end Batches

end OranAdapt
