import OranAdapt.SqlDatasets

/-!
# What bounds a rankpi query

The `rankpi` adapter accepts a query that filters on `run_id` or gives `to`.
The statement takes over a `to` that is not blank; one that is blank is given
all the same.
-/

namespace OranAdapt.RankpiBounds

open SqlDataset

/-! ## The parameters of a query -/

def valuesOf (pairs : List (List Char × List Char)) (name : String) : List String :=
  (pairs.filter fun p => String.ofList p.1 = name).map fun p => String.ofList p.2

def Reserved (name : String) : Prop := name ∈ ["from", "to", "time_column"]

section
variable {pairs : List (List Char × List Char)} {name : String} {params : Params}

theorem valuesOf_cons (p : List Char × List Char) :
    valuesOf (p :: pairs) name = (if String.ofList p.1 = name then [String.ofList p.2] else []) ++ valuesOf pairs name := by
  by_cases h : String.ofList p.1 = name <;> simp [valuesOf, h]

theorem filters_read (hcolumns : name ≠ "columns") (hreserved : ¬ Reserved name) :
    (pairs.foldl Params.read params).filters.get? name =
      if valuesOf pairs name = [] then params.filters.get? name
      else some ((params.filters.get? name).getD [] ++ valuesOf pairs name) := by
  induction pairs generalizing params with
  | nil => simp [valuesOf]
  | cons p pairs ih =>
    rw [List.foldl_cons, ih, valuesOf_cons]
    by_cases hname : String.ofList p.1 = name
    · have hput : (params.read p).filters.get? name = some ((params.filters.get? name).getD [] ++ [String.ofList p.2]) := by
        have hnot : name ∉ ["from", "to", "time_column"] := hreserved
        simp only [Params.read, hname, if_neg hcolumns, if_neg hnot, Table.get?_put, if_true]
      by_cases hmore : valuesOf pairs name = [] <;> simp [hname, hput, hmore]
    · have hput : (params.read p).filters.get? name = params.filters.get? name := by
        unfold Params.read
        by_cases hc : String.ofList p.1 = "columns"
        · simp [hc]
        · by_cases hr : String.ofList p.1 ∈ ["from", "to", "time_column"]
          · simp [hc, hr]
          · simp only [hc, hr, if_false, Table.get?_put, if_neg (Ne.symm hname)]
      simp [hname, hput]

theorem reserved_read (hcolumns : name ≠ "columns") (hreserved : Reserved name) :
    (pairs.foldl Params.read params).reserved.get? name =
      ((valuesOf pairs name).getLast?).or (params.reserved.get? name) := by
  induction pairs generalizing params with
  | nil => simp [valuesOf]
  | cons p pairs ih =>
    rw [List.foldl_cons, ih, valuesOf_cons]
    by_cases hname : String.ofList p.1 = name
    · have hput : (params.read p).reserved.get? name = some (String.ofList p.2) := by
        have hin : name ∈ ["from", "to", "time_column"] := hreserved
        simp only [Params.read, hname, if_neg hcolumns, if_pos hin, Table.get?_put, if_true]
      cases hmore : valuesOf pairs name with
      | nil => simp [hname, hput]
      | cons v vs => simp [hname, hput, List.getLast?_cons]
    · have hput : (params.read p).reserved.get? name = params.reserved.get? name := by
        unfold Params.read
        by_cases hc : String.ofList p.1 = "columns"
        · simp [hc]
        · by_cases hr : String.ofList p.1 ∈ ["from", "to", "time_column"]
          · simp only [hc, hr, if_false, if_true, Table.get?_put, if_neg (Ne.symm hname)]
          · simp [hc, hr]
      simp [hname, hput]

end

/-! ## What is known of a statement -/

section
variable {ν ρ : Type} {rules : TextRules} {conv : Conversions ν} {a : SqlDataset}
  {conn : Connection ν ρ} {uri : String} {q : Query}
  {pairs : List (List Char × List Char)} {stmt : Select ν}

theorem parseQuery_ok {source relation : String} (h : parseQuery rules a uri source relation pairs = .ok q) :
    q = a.queryOf source relation (pairs.foldl Params.read {}) ∧ a.unbounded q = false := by
  simp only [parseQuery] at h
  split at h
  · cases h
  · obtain ⟨_, _, h⟩ := bind_ok h
    obtain ⟨_, hbound, h⟩ := bind_ok h
    cases h
    exact ⟨rfl, by simpa using raiseIf_ok.mp hbound⟩

theorem parse_ok (h : parse rules a uri = .ok q) :
    ∃ parts pairs source relation, UrlSplit.reference? rules.nfkc uri.toList = some parts ∧
      QueryString.parse? parts.query = some pairs ∧ parseQuery rules a uri source relation pairs = .ok q := by
  obtain ⟨parts, hparts, h⟩ := bind_ok h
  obtain ⟨target, _, h⟩ := bind_ok h
  simp only at h
  split at h
  · exact ⟨parts, _, _, _, orRaise_ok hparts, ‹_›, h⟩
  · cases h

theorem statement_ok (h : statement rules conv a conn uri q = .ok stmt) :
    ∃ types, guardListed a conn uri q types = .ok () ∧ (∀ f ∈ q.filters, f.1 ∈ types.keys) ∧
      (q.stop.getD "" ≠ "" → q.timeColumn ∈ types.keys) ∧
        select rules conv types q (selectedColumns q types) = .ok stmt := by
  obtain ⟨types, _, h⟩ := bind_ok h
  obtain ⟨_, hguard, h⟩ := bind_ok h
  simp only at h
  split at h
  · cases h
  · rename_i hfind
    obtain ⟨_, _, h⟩ := bind_ok h
    obtain ⟨_, htime, h⟩ := bind_ok h
    refine ⟨types, hguard, ?_, ?_, h⟩
    · intro f hf
      have := List.find?_eq_none.mp hfind f.1 (List.mem_append_right _ (List.mem_map_of_mem hf))
      simpa using this
    · intro hstop
      by_contra hkeys
      exact raiseIf_ok.mp htime ⟨.inr hstop, hkeys⟩

theorem select_ok {types : Table String SqlType} {selected : List String}
    (h : select rules conv types q selected = .ok stmt) :
    ∃ filters start stop, q.filters.mapM (filterCondition rules conv types) = .ok filters ∧
      timeCondition rules conv types q q.start (.ge q.timeColumn) = .ok start ∧
      timeCondition rules conv types q q.stop (.le q.timeColumn) = .ok stop ∧
        stmt.conditions = filters ++ start ++ stop := by
  obtain ⟨filters, hfilters, h⟩ := bind_ok h
  obtain ⟨start, hstart, h⟩ := bind_ok h
  obtain ⟨stop, hstop, h⟩ := bind_ok h
  cases h
  exact ⟨filters, start, stop, hfilters, hstart, hstop, rfl⟩

theorem forM_ok {α : Type} {f : α → Except AdaptationError Unit} {l : List α}
    (h : l.forM f = .ok ()) : ∀ x ∈ l, f x = .ok () := by
  induction l with
  | nil => simp
  | cons y l ih =>
    obtain ⟨_, hy, hl⟩ := bind_ok h
    intro x hx
    rcases List.mem_cons.mp hx with rfl | hx
    · exact hy
    · exact ih hl x hx

theorem asked_ok {α : Type} {answer : Except DriverError α} {x : α} (h : asked uri answer = .ok x) : answer = .ok x := by
  unfold asked at h
  split at h
  · cases h
  · exact driver_ok h

/-- What the guard asks of the runs: they have ended, and not too much of them was dropped. -/
structure RunsChecked (conn : Connection ν ρ) (guard : RunGuard) (ids : List Int) : Prop where
  closed : guard.requireClosed = true → ∃ rows, conn.endedAt ids = .ok rows ∧
    ∀ id ∈ ids, ∃ endedAt, (Table.empty.update rows).get? id = some (some endedAt)
  kept : ∀ limit ∈ guard.maxDropped, ∃ rows, conn.dropped ids = .ok rows ∧
    ∀ id ∈ ids, ∃ dropped, (Table.empty.update rows).get? id = some dropped ∧ ∀ lost ∈ dropped, lost ≤ limit

theorem guardRuns_ok {guard : RunGuard} {runs : List String} (h : guardRuns uri conn guard runs = .ok ()) :
    ∃ ids, runs.mapM PyInt.int? = some ids ∧ RunsChecked conn guard ids := by
  unfold guardRuns at h
  split at h
  · cases h
  · rename_i ids hids
    obtain ⟨_, hclosed, hdropped⟩ := bind_ok h
    refine ⟨ids, hids, ?_, ?_⟩
    · intro hrequire
      rw [guardClosed, if_pos hrequire] at hclosed
      obtain ⟨rows, hrows, hall⟩ := bind_ok hclosed
      refine ⟨rows, asked_ok hrows, fun id hid => ?_⟩
      have hid := forM_ok hall id hid
      unfold checkClosed at hid
      split at hid
      · cases hid
      · cases hid
      · exact ⟨_, ‹_›⟩
    · intro limit hlimit
      rw [guardDropped, hlimit] at hdropped
      obtain ⟨rows, hrows, hall⟩ := bind_ok hdropped
      refine ⟨rows, asked_ok hrows, fun id hid => ?_⟩
      have hid := forM_ok hall id hid
      unfold checkDropped at hid
      split at hid
      · cases hid
      · exact ⟨none, ‹_›, by simp⟩
      · rename_i lost hlost
        exact ⟨some lost, hlost, by simpa using raiseIf_ok.mp hid⟩

theorem filterCondition_ok {types : Table String SqlType} {f : String × List String} {condition : Condition ν}
    (h : filterCondition rules conv types f = .ok condition) :
    ∃ coerced, f.2.mapM (fun v => coerce rules conv v ((types.get? f.1).getD none)) = .ok coerced ∧
      ((∃ v, coerced = [v] ∧ condition = .eq f.1 v) ∨ condition = .isIn f.1 coerced) := by
  obtain ⟨coerced, hcoerced, h⟩ := bind_ok h
  refine ⟨coerced, hcoerced, ?_⟩
  split at h
  · exact .inl ⟨_, rfl, (Except.ok.inj h).symm⟩
  · exact .inr (Except.ok.inj h).symm

end

/-! ## Bounds -/

section
variable {ν ρ : Type} (rules : TextRules) (conv : Conversions ν)

def Restricts (stmt : Select ν) (column : String) (values : List (Param ν)) : Prop :=
  (∃ v, values = [v] ∧ .eq column v ∈ stmt.conditions) ∨ .isIn column values ∈ stmt.conditions

structure BoundByRuns (guard : Option RunGuard) (conn : Connection ν ρ) (runs : List String) (stmt : Select ν) : Prop where
  listed : runs ≠ []
  restricted : ∃ type values, runs.mapM (fun v => coerce rules conv v type) = .ok values ∧ Restricts stmt "run_id" values
  checked : ∀ g ∈ guard, ∃ ids, runs.mapM PyInt.int? = some ids ∧ RunsChecked conn g ids

def BoundByTime (timeColumn : String) (stmt : Select ν) : Prop := ∃ v, .le timeColumn v ∈ stmt.conditions

def Bounded (guard : Option RunGuard) (conn : Connection ν ρ) (pairs : List (List Char × List Char))
    (q : Query) (stmt : Select ν) : Prop :=
  BoundByRuns rules conv guard conn (valuesOf pairs "run_id") stmt ∨ BoundByTime q.timeColumn stmt

end

section
variable {ν ρ : Type} {rules : TextRules} {conv : Conversions ν} {a : SqlDataset}
  {conn : Connection ν ρ} {uri : String} {q : Query}
  {pairs : List (List Char × List Char)} {stmt : Select ν} {source relation : String}

theorem filters_of_listed (h : valuesOf pairs "run_id" ≠ []) :
    ("run_id", valuesOf pairs "run_id") ∈ (a.queryOf source relation (pairs.foldl Params.read {})).filters := by
  have hget := @filters_read pairs "run_id" {} (by decide) (by unfold Reserved; decide)
  rw [if_neg h] at hget
  rw [queryOf, List.mem_mergeSort]
  exact Table.lookup_mem hget

theorem listed_of_filters {values : List String}
    (h : ("run_id", values) ∈ (a.queryOf source relation (pairs.foldl Params.read {})).filters) :
    valuesOf pairs "run_id" ≠ [] := by
  have hget := @filters_read pairs "run_id" {} (by decide) (by unfold Reserved; decide)
  intro hnone
  rw [queryOf, List.mem_mergeSort] at h
  rw [if_pos hnone, Table.get?, Table.lookup_of_mem (Table.nodup _) h] at hget
  cases hget

theorem lookup_filters (h : valuesOf pairs "run_id" ≠ []) :
    (a.queryOf source relation (pairs.foldl Params.read {})).filters.lookup "run_id" = some (valuesOf pairs "run_id") := by
  apply Table.lookup_of_mem _ (filters_of_listed h)
  exact ((List.mergeSort_perm _ _).map Prod.fst).nodup_iff.mpr (Table.nodup _)

theorem stop_eq : (a.queryOf source relation (pairs.foldl Params.read {})).stop = (valuesOf pairs "to").getLast? := by
  have hget := @reserved_read pairs "to" {} (by decide) (by unfold Reserved; decide)
  show (pairs.foldl Params.read {}).reserved.get? "to" = _
  rw [hget]
  exact Option.or_none

theorem boundByRuns (hq : q = a.queryOf source relation (pairs.foldl Params.read {}))
    (h : statement rules conv a conn uri q = .ok stmt)
    (hlisted : valuesOf pairs "run_id" ≠ []) : BoundByRuns rules conv a.runGuard conn (valuesOf pairs "run_id") stmt := by
  obtain ⟨types, hguard, hkeys, _, hselect⟩ := statement_ok h
  obtain ⟨filters, start, stop, hfilters, _, _, hconditions⟩ := select_ok hselect
  have hmem : ("run_id", valuesOf pairs "run_id") ∈ q.filters := hq ▸ filters_of_listed hlisted
  have hlookup : q.filters.lookup "run_id" = some (valuesOf pairs "run_id") := hq ▸ lookup_filters hlisted
  refine ⟨hlisted, ?_, ?_⟩
  · obtain ⟨condition, hcondition, hf⟩ := exists_of_mem_left (mapM_ok hfilters) hmem
    obtain ⟨coerced, hcoerced, hshape⟩ := filterCondition_ok hf
    refine ⟨_, coerced, hcoerced, ?_⟩
    have hin : condition ∈ stmt.conditions := by simp [hconditions, hcondition]
    rcases hshape with ⟨v, hv, rfl⟩ | rfl
    · exact .inl ⟨v, hv, hin⟩
    · exact .inr hin
  · intro guard hsome
    have hsome : a.runGuard = some guard := hsome
    simp only [guardListed, hsome, hlookup, Option.getD_some] at hguard
    rw [if_pos ⟨hlisted, hkeys _ hmem⟩] at hguard
    exact guardRuns_ok hguard

theorem compared_checked {runs : List String} {ids : List Int} {values : List (Param ν)}
    (hids : runs.mapM PyInt.int? = some ids)
    (hvalues : runs.mapM (fun v => coerce rules conv v (some .int)) = .ok values) : values = ids.map .int := by
  induction runs generalizing ids values with
  | nil =>
    cases hids
    cases hvalues
    rfl
  | cons run runs ih =>
    rw [List.mapM_cons] at hids hvalues
    obtain ⟨v, hv, hvalues⟩ := bind_ok hvalues
    obtain ⟨vs, hvs, hvalues⟩ := bind_ok hvalues
    cases hid : PyInt.int? run with
    | none => simp [hid] at hids
    | some id =>
      cases hrest : runs.mapM PyInt.int? with
      | none => simp [hid, hrest] at hids
      | some rest =>
        simp only [hid, hrest, Option.bind_eq_bind, Option.bind_some, Option.pure_def, Option.some.injEq] at hids
        simp only [coerce, hid, Option.map_some, Except.ok.injEq] at hv
        cases hvalues
        rw [← hids, ← hv, ih hrest hvs]
        rfl

theorem boundByTime_iff (h : statement rules conv a conn uri q = .ok stmt) :
    BoundByTime q.timeColumn stmt ↔ q.stop.getD "" ≠ "" := by
  obtain ⟨types, _, _, htime, hselect⟩ := statement_ok h
  obtain ⟨filters, start, stop, hfilters, hstart, hstop, hconditions⟩ := select_ok hselect
  constructor
  · rintro ⟨v, hv⟩ hblank
    rw [timeCondition, if_neg (fun h => h.2 hblank)] at hstop
    cases hstop
    rw [hconditions, List.append_nil, List.mem_append] at hv
    rcases hv with hv | hv
    · obtain ⟨f, _, hf⟩ := exists_of_mem_right (mapM_ok hfilters) hv
      obtain ⟨_, _, ⟨_, _, hshape⟩ | hshape⟩ := filterCondition_ok hf
      · cases hshape
      · cases hshape
    · unfold timeCondition at hstart
      split at hstart
      · obtain ⟨w, _, rfl⟩ := map_ok hstart
        simp at hv
      · cases hstart
        cases hv
  · intro hgiven
    rw [timeCondition, if_pos ⟨htime hgiven, hgiven⟩] at hstop
    obtain ⟨v, _, rfl⟩ := map_ok hstop
    exact ⟨v, by simp [hconditions]⟩

end

/-! ## The rankpi adapter -/

def rankpiCumulative : List String :=
  ["dl_aggr_tbs", "ul_aggr_tbs", "dl_aggr_sdus", "ul_aggr_sdus", "dl_aggr_prb", "ul_aggr_prb", "dl_aggr_retx_prb",
    "ul_aggr_retx_prb", "dl_harq_r1", "dl_harq_r2", "dl_harq_r3", "dl_harq_r4", "dl_harq_fail", "ul_harq_r1", "ul_harq_r2",
    "ul_harq_r3", "ul_harq_r4", "ul_harq_fail", "tx_pdu_pkt", "tx_pdu_byte", "rx_pdu_pkt", "rx_pdu_byte", "tx_sdu_pkt",
    "tx_sdu_byte", "rx_sdu_pkt", "rx_sdu_byte", "dl_pdcp_vol_kb", "ul_pdcp_vol_kb", "dl_prb_tot", "ul_prb_tot"]

def rankpiDead : List String := ["slot", "dl_mcs2", "ul_mcs2", "dl_aggr_bytes_sdus", "ul_aggr_bytes_sdus"]

structure RankpiSettings where
  url : String
  relations : List String
  timeColumn : String := "ts"
  maxSourceBytes : Nat
  requireClosedRun : Bool := true
  maxDropped : Option Int
  allowCumulative : Bool := false

def rankpi (s : RankpiSettings) : SqlDataset where
  scheme := "rankpi"
  sources := Table.empty.put "" s.url
  relations := s.relations
  timeColumn := s.timeColumn
  maxBytes := s.maxSourceBytes
  requireBound := some ["run_id"]
  refusedColumns := if s.allowCumulative then [] else rankpiCumulative ++ rankpiDead
  runGuard := some ⟨s.requireClosedRun, s.maxDropped⟩

section
variable {ν ρ : Type} {rules : TextRules} {conv : Conversions ν} {s : RankpiSettings}
  {conn : Connection ν ρ} {uri : String} {q : Query}
  {parts : UrlSplit.Reference} {pairs : List (List Char × List Char)} {stmt : Select ν}

theorem bounded_iff (hparts : UrlSplit.reference? rules.nfkc uri.toList = some parts)
    (hpairs : QueryString.parse? parts.query = some pairs)
    (h : executed rules conv (rankpi s) conn uri = .ok (q, stmt)) :
    Bounded rules conv (rankpi s).runGuard conn pairs q stmt ↔
      valuesOf pairs "run_id" ≠ [] ∨ (valuesOf pairs "to").getLast? ≠ some "" := by
  obtain ⟨_, hparse, h⟩ := bind_ok h
  obtain ⟨_, hstmt, h⟩ := bind_ok h
  cases h
  obtain ⟨parts', pairs', source, relation, hparts', hpairs', hquery⟩ := parse_ok hparse
  cases hparts.symm.trans hparts'
  cases hpairs.symm.trans hpairs'
  obtain ⟨hq, hbound⟩ := parseQuery_ok hquery
  have hstop : q.stop = (valuesOf pairs "to").getLast? := by rw [hq, stop_eq]
  rw [Bounded, boundByTime_iff hstmt]
  constructor
  · rintro (hruns | hgiven)
    · exact .inl hruns.listed
    · refine .inr fun hblank => hgiven ?_
      rw [hstop, hblank]
      rfl
  · intro hcond
    by_cases hlisted : valuesOf pairs "run_id" = []
    · refine .inr fun hblank => ?_
      have hto := hcond.resolve_left (not_not.mpr hlisted)
      rw [← hstop] at hto
      -- no run is listed, so it was accepted for its upper bound
      have hnone : q.stop ≠ none := by
        intro hnone
        simp only [unbounded, rankpi, hnone, beq_self_eq_true, Bool.true_and, Bool.not_eq_false', List.any_eq_true] at hbound
        obtain ⟨f, hf, hname⟩ := hbound
        obtain ⟨name, values⟩ := f
        simp only [List.mem_singleton, decide_eq_true_eq] at hname
        subst hname
        exact listed_of_filters (hq ▸ hf) hlisted
      cases hsome : q.stop with
      | none => exact hnone hsome
      | some t =>
        rw [hsome] at hblank hto
        exact hto (congrArg some hblank)
    · exact .inl (boundByRuns hq hstmt hlisted)

end

/-! ## A reference to a rate view -/

def plainRules : TextRules := ⟨id, (· == ·), id⟩

def noConversions : Conversions Unit := ⟨fun _ => none, fun _ => none, fun _ => none, fun _ => none, id⟩

def rates : Connection Unit Unit where
  getColumns _ := .ok [("ts", some .datetime), ("run_id", some .int), ("serving_cell", some (.other "str"))]
  endedAt ids := .ok (ids.map fun id => (id, some "2024-05-01T00:00:00"))
  dropped ids := .ok (ids.map fun id => (id, some 0))
  execute _ := .ok []

def rateSettings : RankpiSettings where
  url := "postgresql://db"
  relations := ["v_ue_rate"]
  maxSourceBytes := 1000
  maxDropped := some 0

def rateQuery (filters : List (String × List String)) (stop : Option String) : Query :=
  ⟨"", "v_ue_rate", [], filters, "ts", none, stop⟩

def rateParts (query : List Char) : UrlSplit.Reference := ⟨⟨"rankpi".toList, []⟩, "/v_ue_rate".toList, query, []⟩

def rateTypes : Table String SqlType :=
  Table.empty.update [("ts", some .datetime), ("run_id", some .int), ("serving_cell", some (.other "str"))]

theorem parseTarget_rates (uri : String) (query : List Char) :
    parseTarget plainRules (rankpi rateSettings) uri (rateParts query) = .ok ("", "v_ue_rate") := by
  have hscheme : ¬ String.ofList (rateParts query).scheme ≠ (rankpi rateSettings).scheme :=
    show ¬ String.ofList (rateParts []).scheme ≠ (rankpi rateSettings).scheme by decide
  have hcredentials : ¬ ((rateParts query).username.getD [] ≠ [] ∨ (rateParts query).password.getD [] ≠ []) :=
    show ¬ ((rateParts []).username.getD [] ≠ [] ∨ (rateParts []).password.getD [] ≠ []) by decide
  have hport : (rateParts query).port? = some none := show (rateParts []).port? = some none by decide
  have hrelation : String.ofList (relationOf (rateParts query).path) = "v_ue_rate" :=
    show String.ofList (relationOf (rateParts []).path) = "v_ue_rate" by decide
  have hsource : String.ofList (rateParts query).netloc = "" := show String.ofList (rateParts []).netloc = "" by decide
  have hfragment : ¬ (rateParts query).fragment ≠ [] := by simp [rateParts]
  rw [parseTarget, bind_raiseIf hscheme, bind_raiseIf hcredentials, hport, bind_orRaise,
    bind_raiseIf (by decide), bind_raiseIf hfragment]
  simp only [hrelation, hsource]
  rw [bind_raiseIf (by decide), bind_raiseIf (by decide), bind_raiseIf (by decide)]

theorem executed_rates {query : List Char} {pairs : List (List Char × List Char)} {uri : String}
    {q : Query} {stmt : Select Unit}
    (hparts : UrlSplit.reference? plainRules.nfkc uri.toList = some (rateParts query))
    (hpairs : QueryString.parse? query = some pairs)
    (hquery : parseQuery plainRules (rankpi rateSettings) uri "" "v_ue_rate" pairs = .ok q)
    (hstmt : statement plainRules noConversions (rankpi rateSettings) rates uri q = .ok stmt) :
    executed plainRules noConversions (rankpi rateSettings) rates uri = .ok (q, stmt) := by
  have hparse : parse plainRules (rankpi rateSettings) uri = .ok q := by
    rw [parse, hparts, bind_orRaise, parseTarget_rates, bind_ok_eq]
    have hread : QueryString.parse? (rateParts query).query = some pairs := hpairs
    simp only [hread]
    exact hquery
  rw [executed, hparse, bind_ok_eq, hstmt, bind_ok_eq]

theorem parseQuery_rates {uri : String} {pairs : List (List Char × List Char)}
    {filters : List (String × List String)} {stop : Option String}
    (hcolumns : (pairs.foldl Params.read {}).columns = [])
    (hidents : ([] ++ (pairs.foldl Params.read {}).filters.keys ++ ["ts"]).find? (fun ident => !isIdent ident) = none)
    (hq : (rankpi rateSettings).queryOf "" "v_ue_rate" (pairs.foldl Params.read {}) = rateQuery filters stop)
    (hbound : (rankpi rateSettings).unbounded (rateQuery filters stop) = false) :
    parseQuery plainRules (rankpi rateSettings) uri "" "v_ue_rate" pairs = .ok (rateQuery filters stop) := by
  have hrefused : (rankpi rateSettings).refusedOf [] = [] := by simp [refusedOf, sorted]
  have hts : (rateQuery filters stop).timeColumn = "ts" := rfl
  simp only [parseQuery, hq, hcolumns, hts, hidents, hrefused]
  rw [bind_raiseIf (by simp), bind_raiseIf (by simp [hbound])]

theorem statement_rates {uri : String} {filters : List (String × List String)} {stop : Option String} {stmt : Select Unit}
    (hguard : guardListed (rankpi rateSettings) rates uri (rateQuery filters stop) rateTypes = .ok ())
    (hnames : (["ts", "run_id", "serving_cell"] ++ filters.map Prod.fst).find? (fun name => name ∉ rateTypes.keys) = none)
    (hselect : select plainRules noConversions rateTypes (rateQuery filters stop)
      ["ts", "run_id", "serving_cell"] = .ok stmt) :
    statement plainRules noConversions (rankpi rateSettings) rates uri (rateQuery filters stop) = .ok stmt := by
  have hrefused : (rankpi rateSettings).refusedOf ["ts", "run_id", "serving_cell"] = [] := by
    have hnone : (rankpi rateSettings).refusedColumns.filter (· ∈ ["ts", "run_id", "serving_cell"]) = [] := by decide
    rw [refusedOf, hnone]
    simp [sorted]
  have htypes : columnTypes rates uri (rateQuery filters stop).relation = .ok rateTypes := by
    rw [columnTypes, rates, bind_driver, bind_raiseIf (by decide)]
    rfl
  have hselected : selectedColumns (rateQuery filters stop) rateTypes = ["ts", "run_id", "serving_cell"] := rfl
  have hfilters : (rateQuery filters stop).filters = filters := rfl
  have htime : (rateQuery filters stop).timeColumn ∈ rateTypes.keys := by
    show "ts" ∈ rateTypes.keys
    decide
  rw [statement, htypes, bind_ok_eq, hguard, bind_ok_eq]
  simp only [hselected, hfilters, hnames, hrefused]
  rw [bind_raiseIf (by simp), bind_raiseIf (fun h => h.2 htime), hselect]

theorem executed_blank : executed plainRules noConversions (rankpi rateSettings) rates "rankpi:///v_ue_rate?to=" =
    .ok (rateQuery [] (some ""), ⟨"v_ue_rate", ["ts", "run_id", "serving_cell"], [],
      ["ts", "run_id", "serving_cell"]⟩) := by
  apply @executed_rates "to=".toList [("to".toList, [])] _ _ _ (by decide) (by decide)
  · apply parseQuery_rates (by decide) (by decide) _ (by decide)
    have hfilters : (Params.read {} ("to".toList, [])).filters.rows = [] := rfl
    simp only [queryOf, List.foldl_cons, List.foldl_nil, hfilters, List.mergeSort_nil]
    rfl
  · exact statement_rates rfl (by decide) rfl

theorem executed_run : executed plainRules noConversions (rankpi rateSettings) rates "rankpi:///v_ue_rate?run_id=5" =
    .ok (rateQuery [("run_id", ["5"])] none, ⟨"v_ue_rate", ["ts", "run_id", "serving_cell"],
      [.eq "run_id" (.int 5)], ["ts", "run_id", "serving_cell"]⟩) := by
  apply @executed_rates "run_id=5".toList [("run_id".toList, "5".toList)] _ _ _ (by decide) (by decide)
  · apply parseQuery_rates (by decide) (by decide) _ (by decide)
    have hfilters : (Params.read {} ("run_id".toList, "5".toList)).filters.rows = [("run_id", ["5"])] := rfl
    simp only [queryOf, List.foldl_cons, List.foldl_nil, hfilters, List.mergeSort_singleton]
    rfl
  · exact statement_rates rfl (by decide) rfl

theorem bounded_run : Bounded plainRules noConversions (rankpi rateSettings).runGuard rates [("run_id".toList, "5".toList)]
    (rateQuery [("run_id", ["5"])] none) ⟨"v_ue_rate", ["ts", "run_id", "serving_cell"],
      [.eq "run_id" (.int 5)], ["ts", "run_id", "serving_cell"]⟩ := by
  have hparts : UrlSplit.reference? plainRules.nfkc "rankpi:///v_ue_rate?run_id=5".toList =
    some (rateParts "run_id=5".toList) := by decide
  apply (bounded_iff hparts (by decide) executed_run).mpr
  exact .inl (by decide)

/-- A blank `to` is given when the reference is taken apart, and no bound in the statement. -/
theorem blank_to_unbounded :
    ¬ ∀ (rules : TextRules) (conv : Conversions Unit) (s : RankpiSettings) (conn : Connection Unit Unit)
    (uri : String) (parts : UrlSplit.Reference) (pairs : List (List Char × List Char)) (q : Query) (stmt : Select Unit),
    UrlSplit.reference? rules.nfkc uri.toList = some parts → QueryString.parse? parts.query = some pairs →
    executed rules conv (rankpi s) conn uri = .ok (q, stmt) → Bounded rules conv (rankpi s).runGuard conn pairs q stmt := by
  intro h
  have hbounded := h plainRules noConversions rateSettings rates "rankpi:///v_ue_rate?to=" (rateParts "to=".toList)
    [("to".toList, [])] _ _ (by decide) (by decide) executed_blank
  rcases hbounded with hruns | ⟨v, hv⟩
  · exact hruns.listed (by decide)
  · cases hv

end OranAdapt.RankpiBounds
