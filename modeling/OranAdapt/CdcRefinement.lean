import OranAdapt.CdcFolds
import OranAdapt.ConsumedLog
import OranAdapt.SourceTable

/-!
# From the source table to the folds

Statements on the source table, polls and `materialize_cdc` runs, in any
order. The changelog tells every change at the place its row arrives, so once
all of it is stored and materialized the folds hold the rows of the table, and
beside them the rows that an update took from a place nothing was told of
since.
-/

namespace OranAdapt

open Effects

variable {δ : Type} [DecidableEq δ]

structure CdcPipeline (δ : Type) (t : ChangelogTrigger) where
  table : SourceTable t := .empty t
  polled : PollWorld δ := {}
  data : Datastore := {}

inductive CdcAction where
  /-- a statement, in a transaction of its own -/
  | write (s : Statement) (tx : Nat) (changedAt : String)
  | poll (f : PollAnswers)
  | materialize (dataset : String)

namespace CdcPipeline

section
variable (p : Poller δ) (reader : ImageReader) (sha256 : String → String)

def write (w : CdcPipeline δ p.trigger) (s : Statement) (tx : Nat) (changedAt : String) : CdcPipeline δ p.trigger :=
  match w.table.change s with
  | none => w
  | some c =>
    { w with
      table := w.table.apply c
      polled := p.run [.change tx p.source.table c changedAt, .commit tx] w.polled }

/-- A call that raises is rolled back. -/
def materialize (w : CdcPipeline δ p.trigger) (dataset : String) : CdcPipeline δ p.trigger :=
  match materializeCdc dataset sha256 reader w.polled.db w.data with
  | .error _ => w
  | .ok (_, events, data) => { w with polled := { w.polled with db := events }, data }

def step (w : CdcPipeline δ p.trigger) : CdcAction → CdcPipeline δ p.trigger
  | .write s tx changedAt => write p w s tx changedAt
  | .poll f => { w with polled := p.poll f w.polled }
  | .materialize dataset => materialize p reader sha256 w dataset

def run (as : List CdcAction) (w : CdcPipeline δ p.trigger) : CdcPipeline δ p.trigger := as.foldl (step p reader sha256) w

def changes {t : ChangelogTrigger} : List CdcAction → SourceTable t → List RowChange
  | [], _ => []
  | .write s _ _ :: as, table =>
    match table.change s with
    | none => changes as table
    | some c => c :: changes as (table.apply c)
  | .poll _ :: as, table | .materialize _ :: as, table => changes as table

/-- Every version's payloads come back from its frame. -/
def FramesKept (as : List CdcAction) : Prop :=
  ∀ pre dataset post, as = pre ++ .materialize dataset :: post →
    FrameKept reader dataset (run p reader sha256 pre {}).polled.db

end

/-! ## What is to hold -/

variable (p : Poller δ) (reader : ImageReader)

/-- Every change is stored, and every event of a dataset is in a version. -/
structure Settled (w : CdcPipeline δ p.trigger) : Prop where
  stored : ∀ r ∈ w.polled.changelog, p.Stored w.polled r
  materialized : ∀ dataset, pendingEvents dataset w.polled.db = []

def datasetOf (row : JsonDict) : Option String := p.source.mapping.dataset p.codec row

def imageOf (row : JsonDict) : Option RowImage := (normalizeRow p.codec p.source.mapping (.obj row)).toOption.join

def Mirrors (w : CdcPipeline δ p.trigger) : Prop :=
  ∀ dataset key, (w.data.cdcFold dataset).lookup key =
    (w.table.rowAt (datasetOf p) dataset key).bind fun row => (imageOf p row).bind reader.image

def MarkedOnce {t : ChangelogTrigger} (w : CdcPipeline δ t) : Prop :=
  ∀ e ∈ w.polled.db.events, ∀ dataset, e.event.datasetId = some dataset →
    ∃ v ∈ w.data.versions, v.dataset = dataset ∧ ∀ u ∈ w.data.versions, e.dataVersionId = some u.id ↔ u = v

variable {p reader} {sha256 : String → String} {log : List (RowChange × Nat × String)} {w : CdcPipeline δ p.trigger}

/-! ## Every reachable state -/

/-- The table and the log are those of the same changes, and the versions are the events stored of them. -/
structure Follows (reader : ImageReader) (log : List (RowChange × Nat × String)) (w : CdcPipeline δ p.trigger) : Prop where
  table : TableHistory p.trigger (log.map Prod.fst) w.table
  consumed : p.Consumed log w.polled
  folded : Folded reader w.polled.db w.data

omit [DecidableEq δ] in
theorem follows_initial (reader : ImageReader) : Follows reader [] ({} : CdcPipeline δ p.trigger) := by
  refine ⟨.nil, ⟨rfl, rfl, rfl, ?_, Nat.le_refl 0, .nil⟩, folded_empty reader⟩
  exact Poller.after_iff.mpr fun _ => nofun

theorem Follows.write (h : Follows reader log w) (s : Statement) (tx : Nat) (changedAt : String) :
    ∃ more, Follows reader (log ++ more) (CdcPipeline.write p w s tx changedAt) ∧
      more.map Prod.fst = (w.table.change s).toList := by
  unfold CdcPipeline.write
  cases hc : w.table.change s with
  | none => exact ⟨[], by rwa [List.append_nil], rfl⟩
  | some c =>
    refine ⟨[(c, tx, changedAt)], ⟨?_, h.consumed.write c tx changedAt, ?_⟩, rfl⟩
    · rw [List.map_append]
      exact h.table.snoc hc
    · have hdb : (p.run [.change tx p.source.table c changedAt, .commit tx] w.polled).db = w.polled.db := rfl
      rw [hdb]
      exact h.folded

theorem Follows.poll (h : Follows reader log w) (hsha : Function.Injective p.codec.sha256) (f : PollAnswers) :
    Follows reader log (step p reader sha256 w (.poll f)) := by
  obtain ⟨hconsumed, new, hevents, hnone, hids⟩ := h.consumed.poll hsha f
  exact ⟨h.table, hconsumed, h.folded.append hevents hnone hids⟩

omit [DecidableEq δ] in
theorem markEvents_events (dataset : String) (id : Nat) (events : CdcDb δ) :
    (markEvents dataset id events).events.map (·.event) = events.events.map (·.event) := by
  rw [markEvents, List.map_map]
  refine List.map_congr_left fun e _ => ?_
  simp only [Function.comp_apply]
  split <;> rfl

omit [DecidableEq δ] in
theorem Follows.materialize (h : Follows reader log w) (dataset : String) (hkept : FrameKept reader dataset w.polled.db) :
    Follows reader log (CdcPipeline.materialize p reader sha256 w dataset) := by
  unfold CdcPipeline.materialize
  cases hrun : materializeCdc dataset sha256 reader w.polled.db w.data with
  | error => exact h
  | ok made =>
    obtain ⟨result, events, data⟩ := made
    refine ⟨h.table, ?_, h.folded.materialize hkept hrun⟩
    rcases materializeCdc_ok hrun with ⟨-, -, rfl, -⟩ | ⟨info, _, _, _, _, _, -, -, -, -, rfl, -⟩
    · exact h.consumed
    · exact h.consumed.marked (markEvents_events dataset info.dataVersionId w.polled.db) rfl

theorem changes_write (s : Statement) (tx : Nat) (changedAt : String) (as : List CdcAction) (w : CdcPipeline δ p.trigger) :
    changes (.write s tx changedAt :: as) w.table =
      (w.table.change s).toList ++ changes as (write p w s tx changedAt).table := by
  rw [changes, write]
  cases w.table.change s <;> rfl

theorem follows_run (hsha : Function.Injective p.codec.sha256) : ∀ (as : List CdcAction) {w : CdcPipeline δ p.trigger}
    {log : List (RowChange × Nat × String)}, Follows reader log w →
    (∀ pre dataset post, as = pre ++ .materialize dataset :: post →
      FrameKept reader dataset (run p reader sha256 pre w).polled.db) →
    ∃ more, Follows reader (log ++ more) (run p reader sha256 as w) ∧ more.map Prod.fst = changes as w.table
  | [], _, _, h, _ => ⟨[], by rwa [List.append_nil], rfl⟩
  | a :: as, w, log, h, hkept => by
    have hstep : ∃ more, Follows reader (log ++ more) (step p reader sha256 w a) ∧
        changes (a :: as) w.table = more.map Prod.fst ++ changes as (step p reader sha256 w a).table := by
      cases a with
      | write s tx changedAt =>
        obtain ⟨more, hmore, hchanges⟩ := h.write s tx changedAt
        exact ⟨more, hmore, (changes_write s tx changedAt as w).trans (by rw [hchanges]; rfl)⟩
      | poll f => exact ⟨[], by rw [List.append_nil]; exact h.poll hsha f, rfl⟩
      | materialize dataset =>
        have hnext : Follows reader log (CdcPipeline.materialize p reader sha256 w dataset) :=
          h.materialize dataset (hkept [] dataset as rfl)
        refine ⟨[], by rw [List.append_nil]; exact hnext, ?_⟩
        rw [changes, step, CdcPipeline.materialize]
        cases materializeCdc dataset sha256 reader w.polled.db w.data <;> rfl
    obtain ⟨more, hnext, hchanges⟩ := hstep
    obtain ⟨rest, hrun, hrest⟩ := follows_run hsha as hnext fun pre dataset post has =>
      hkept (a :: pre) dataset post (by rw [has]; rfl)
    refine ⟨more ++ rest, ?_, by rw [List.map_append, hrest, hchanges]⟩
    rw [← List.append_assoc]
    exact hrun

/-! ## What the log tells -/

structure Tells (p : Poller δ) (c : RowChange) (e : CdcEvent δ) : Prop where
  key : e.primaryKey = p.trigger.keyText c.told
  dataset : e.datasetId = datasetOf p c.told
  change : e.change = c.new.bind (imageOf p)
  imaged : ∀ row, c.new = some row → ∃ image, imageOf p row = some image

omit [DecidableEq δ] in
theorem normalizeRow_obj {row : JsonDict} {i : Option RowImage}
    (h : normalizeRow p.codec p.source.mapping (.obj row) = .ok i) :
    ∃ image, i = some image ∧ imageOf p row = some image ∧ image.datasetId = datasetOf p row := by
  have himage : imageOf p row = i := by
    rw [imageOf, h]
    cases i <;> rfl
  obtain ⟨observedAt, -, h⟩ := bind_ok h
  obtain ⟨payload, -, h⟩ := bind_ok h
  cases h
  exact ⟨_, rfl, himage, rfl⟩

theorem operation_inj {a b : CdcOperation} (h : a.value = b.value) : a = b := by
  cases a <;> cases b <;> first | rfl | exact absurd h (by decide)

omit [DecidableEq δ] in
theorem tells_new {c : RowChange} {new : JsonDict} {e : CdcEvent δ} (htold : c.told = new) (hc : c.new = some new)
    (hkey : e.primaryKey = p.trigger.keyText new) (hop : e.operation ≠ .delete)
    (h : normalizeRow p.codec p.source.mapping (.obj new) = .ok e.newValue) : Tells p c e := by
  obtain ⟨image, hvalue, himage, hdataset⟩ := normalizeRow_obj h
  refine ⟨htold ▸ hkey, ?_, ?_, ?_⟩
  · rw [CdcEvent.datasetId, hvalue, htold, ← hdataset]
    rfl
  · rw [CdcEvent.change, if_neg hop, hvalue, hc]
    exact himage.symm
  · intro row hrow
    rw [hc, Option.some.injEq] at hrow
    exact ⟨image, hrow ▸ himage⟩

omit [DecidableEq δ] in
theorem tells_of_becomes {c : RowChange} {seq tx : Nat} {changedAt : String} {e : CdcEvent δ}
    (h : p.Becomes (p.trigger.postgresql p.source.table c seq tx changedAt) e) : Tells p c e := by
  obtain ⟨-, hop, hkey, hold, hnew⟩ := fromChangelogRow_ok h
  have hop' : e.operation = c.operation := operation_inj hop
  cases c with
  | insert new => exact tells_new rfl rfl hkey (by rw [hop']; nofun) hnew
  | update old new => exact tells_new rfl rfl hkey (by rw [hop']; nofun) hnew
  | delete old =>
    obtain ⟨image, hvalue, himage, hdataset⟩ := normalizeRow_obj hold
    have hnone : e.newValue = none := (Except.ok.inj hnew).symm
    have hdelete : e.operation = .delete := hop'
    refine ⟨hkey, ?_, ?_, nofun⟩
    · rw [CdcEvent.datasetId, hnone, hvalue]
      exact hdataset
    · rw [CdcEvent.change, if_pos hdelete]
      rfl

/-- The last of the items a test picks, in two lists that agree on it. -/
theorem last_filter {α β : Type} {R : α → β → Prop} {P : α → Bool} {Q : β → Bool}
    (hPQ : ∀ a b, R a b → P a = Q b) :
    ∀ {as : List α} {bs : List β}, List.Forall₂ R as bs →
      Option.Rel R (as.filter P).getLast? (bs.filter Q).getLast? := by
  intro as bs h
  have hfilter : List.Forall₂ R (as.filter P) (bs.filter Q) := by
    induction h with
    | nil => exact .nil
    | @cons a b as bs hab _ ih =>
      rw [List.filter_cons, List.filter_cons, hPQ a b hab]
      split
      · exact .cons hab ih
      · exact ih
  generalize as.filter P = as at hfilter
  generalize bs.filter Q = bs at hfilter
  induction hfilter with
  | nil => exact .none
  | @cons a b as bs hab hrest ih =>
    cases hrest with
    | nil => exact .some hab
    | cons hab' hrest => exact ih

omit [DecidableEq δ] in
theorem Follows.tells (h : Follows reader log w) (hsha : Function.Injective p.codec.sha256) (hsettled : Settled p w) :
    List.Forall₂ (Tells p) (log.map Prod.fst) (w.polled.db.events.map (·.event)) := by
  have hall := h.consumed.all hsha hsettled.stored
  rw [Poller.logRows, List.forall₂_map_left_iff] at hall
  have hlog : log.map Prod.fst = (log.zipIdx 1).map fun l => l.1.1 := by
    conv_lhs => rw [← List.zipIdx_map_fst 1 log, List.map_map]
    rfl
  rw [hlog, List.forall₂_map_left_iff]
  exact hall.imp fun _ _ => tells_of_becomes

omit [DecidableEq δ] in
theorem Follows.change (h : Follows reader log w) (hsha : Function.Injective p.codec.sha256) (hsettled : Settled p w)
    (dataset key : String) : foldedChange dataset w.polled.db key =
      (lastTold p.trigger (datasetOf p) dataset key (log.map Prod.fst)).map (·.bind (imageOf p)) ∧
    ∀ row, lastTold p.trigger (datasetOf p) dataset key (log.map Prod.fst) = some (some row) →
      ∃ image, imageOf p row = some image := by
  have hevents : (foldedEvents dataset w.polled.db).map (·.event) =
      (w.polled.db.events.map (·.event)).filter fun e => decide (e.datasetId = some dataset) := by
    have hparted := h.folded.parted dataset
    rw [hsettled.materialized, List.append_nil] at hparted
    rw [hparted, eventsOf, List.filter_map]
    rfl
  have hlast := last_filter (P := fun c : RowChange => decide (StandsAt p.trigger (datasetOf p) dataset key c.told))
    (Q := fun e : CdcEvent δ => decide (e.primaryKey = key) && decide (e.datasetId = some dataset)) (R := Tells p)
    (fun c e hc => by rw [hc.key, hc.dataset, ← Bool.decide_and]; rfl) (h.tells hsha hsettled)
  rw [foldedChange, hevents, lookup_netChange, List.filter_filter, lastTold]
  generalize ((log.map Prod.fst).filter _).getLast? = c at hlast ⊢
  generalize ((w.polled.db.events.map (·.event)).filter _).getLast? = e at hlast ⊢
  cases hlast with
  | none => exact ⟨rfl, fun row hrow => by cases hrow⟩
  | some hc => exact ⟨congrArg some hc.change, fun row hrow => hc.imaged row (Option.some.inj hrow)⟩

/-! ## Refinement -/

omit [DecidableEq δ] in
/-- Every event of a dataset has its version, and no other. -/
theorem Follows.markedOnce (h : Follows reader log w) (hsettled : Settled p w) : MarkedOnce w := by
  intro e he dataset hd
  cases hid : e.dataVersionId with
  | none =>
    have hpending : e ∈ pendingEvents dataset w.polled.db := mem_pendingEvents.mpr ⟨he, hd, hid⟩
    rw [hsettled.materialized] at hpending
    cases hpending
  | some id =>
    obtain ⟨v, hv, hvid, hd'⟩ := h.folded.marked e he id hid
    rw [hd, Option.some.injEq] at hd'
    refine ⟨v, hv, hd'.symm, fun u hu => ⟨fun hu' => ?_, fun huv => ?_⟩⟩
    · obtain ⟨i, hi, rfl⟩ := List.getElem_of_mem hu
      obtain ⟨j, hj, rfl⟩ := List.getElem_of_mem hv
      have hij := (Option.some.inj hu').symm.trans hvid.symm
      rw [h.folded.numbered.ids, h.folded.numbered.ids] at hij
      have hsame : i = j := Nat.succ.inj hij
      subst hsame
      rfl
    · rw [huv, hvid]

omit [DecidableEq δ] in
theorem Follows.mirrors_iff (h : Follows reader log w) (hsha : Function.Injective p.codec.sha256) (hsettled : Settled p w) :
    Mirrors p reader w ↔ NoneLeftBehind p.trigger (datasetOf p) (log.map Prod.fst) := by
  have hplace : ∀ dataset key, (w.data.cdcFold dataset).lookup key =
      (lastTold p.trigger (datasetOf p) dataset key (log.map Prod.fst)).join.bind fun row =>
        (imageOf p row).bind reader.image := by
    intro dataset key
    rw [h.folded.folded, (h.change hsha hsettled dataset key).1]
    cases lastTold p.trigger (datasetOf p) dataset key (log.map Prod.fst) with
    | none => rfl
    | some row => cases row <;> rfl
  constructor
  · intro hmirrors dataset key hleft
    rcases h.table.places (datasetOf p) dataset key with ⟨-, hnone, old, hold⟩ | ⟨hnot, -⟩
    · obtain ⟨hchange, himaged⟩ := h.change hsha hsettled dataset key
      obtain ⟨image, himage⟩ := himaged old hold
      have hread : ∃ row, reader.image image = some row := by
        refine h.folded.readable dataset key image ?_
        rw [hchange, hold]
        exact congrArg some himage
      obtain ⟨row, hrow⟩ := hread
      have hlookup := (hplace dataset key).symm.trans (hmirrors dataset key)
      rw [hnone, hold] at hlookup
      change (imageOf p old).bind reader.image = none at hlookup
      rw [himage] at hlookup
      change reader.image image = none at hlookup
      rw [hrow] at hlookup
      cases hlookup
    · exact hnot hleft
  · intro hnone dataset key
    rw [hplace]
    rcases h.table.places (datasetOf p) dataset key with ⟨hleft, -⟩ | ⟨-, hlast⟩
    · exact absurd hleft (hnone dataset key)
    · rw [hlast]

/-- For every order of statements, polls and materializations whose frames keep the payloads: once
everything is stored and materialized, the folds hold the rows of the table and every event is
marked once, exactly when every place an update took a row from was told of again. -/
theorem cdc_refines (p : Poller δ) (reader : ImageReader) (sha256 : String → String)
    (hsha : Function.Injective p.codec.sha256)
    (as : List CdcAction) (hframes : FramesKept p reader sha256 as) (hsettled : Settled p (run p reader sha256 as {})) :
    (Mirrors p reader (run p reader sha256 as {}) ∧ MarkedOnce (run p reader sha256 as {})) ↔
      NoneLeftBehind p.trigger (datasetOf p) (changes as (SourceTable.empty p.trigger)) := by
  obtain ⟨log, hfollows, hlog⟩ := follows_run hsha as (follows_initial reader) hframes
  rw [List.nil_append] at hfollows
  have hiff := hfollows.mirrors_iff hsha hsettled
  rw [hlog] at hiff
  exact ⟨fun h => hiff.mp h.1, fun h => ⟨hiff.mpr h, hfollows.markedOnce hsettled⟩⟩

/-! ### A row under a new key -/

open Poller

def quarter : DateTime :=
  { VersionCall.atHour 0 with
    year := 2026
    month := 1
    minute := 15
    year_le := by decide
    month_le := by decide
    minute_lt := by decide }

def loadOf (n : Int) : Payload := ⟨[("load", .int n)], .obj (List.pairwise_singleton _ _) fun f hf => by
  rw [List.mem_singleton.mp hf]
  exact .int n⟩

def loadReader : ImageReader where
  image i :=
    match i.observedAt, i.payload with
    | some 1767226500000000, .obj [("load", .int n)] => some (quarter, loadOf n)
    | _, _ => none
  reframe payloads := ⟨[("load", "int64")], payloads⟩

omit [DecidableEq δ] in
theorem loadReader_keeps (dataset : String) (events : CdcDb δ) : FrameKept loadReader dataset events := by
  intro upserts hups
  refine ⟨rfl, fun payload hpayload => ?_⟩
  obtain ⟨u, hu, rfl⟩ := List.mem_map.mp hpayload
  obtain ⟨image, -, hread⟩ := NetChange.mem_upserts hups hu
  have hload : ∃ n, u.payload = loadOf n := by
    simp only [loadReader] at hread
    split at hread
    · rename_i n _ _
      exact ⟨n, (Prod.mk.inj (Option.some.inj hread)).2.symm⟩
    · cases hread
  obtain ⟨n, hn⟩ := hload
  rw [hn, Payload.keys]
  show "__observed_at" ∉ ["load"]
  decide

/-- A row is stored and materialized, gets the key 2, and is stored and materialized again. -/
def rekeyed : List CdcAction :=
  [.write (.insert (kpiRow 1 10)) 1 "2026-01-01T00:00:00.000000Z", .poll { limit := 1, limit_pos := one_row },
   .materialize "kpi",
   .write (.update "1" (kpiRow 2 10)) 2 "2026-01-01T00:00:00.000000Z", .poll { limit := 1, limit_pos := one_row },
   .materialize "kpi"]

theorem rekeyed_frames : FramesKept kpiPoller loadReader id rekeyed := fun _ dataset _ _ => loadReader_keeps dataset _

theorem rekeyed_settled : Settled kpiPoller (run kpiPoller loadReader id rekeyed {}) := by
  have hmarks : (run kpiPoller loadReader id rekeyed {}).polled.db.events.map (·.dataVersionId) = [some 1, some 2] := by
    decide +kernel
  constructor
  · obtain ⟨log, hfollows, hlog⟩ := follows_run Function.injective_id rekeyed (follows_initial loadReader) rekeyed_frames
    rw [List.nil_append] at hfollows
    have hsaved : kpiPoller.saved (run kpiPoller loadReader id rekeyed {}).polled = 2 := by decide +kernel
    have hlength := congrArg List.length hlog
    rw [List.length_map] at hlength
    refine hfollows.consumed.stored ?_
    rw [hsaved, hlength]
    exact Nat.le_refl 2
  · intro dataset
    rw [pendingEvents, List.filter_eq_nil_iff]
    intro e he hpending
    have hmem := List.mem_map_of_mem (f := (·.dataVersionId)) he
    rw [hmarks, (of_decide_eq_true hpending).2] at hmem
    simp at hmem

theorem cdc_refines_rekeyed :
    (Mirrors kpiPoller loadReader (run kpiPoller loadReader id rekeyed {}) ∧
        MarkedOnce (run kpiPoller loadReader id rekeyed {})) ↔
      NoneLeftBehind kpiPoller.trigger (datasetOf kpiPoller) (changes rekeyed (SourceTable.empty kpiPoller.trigger)) :=
  cdc_refines kpiPoller loadReader id Function.injective_id rekeyed rekeyed_frames rekeyed_settled

/-- All is stored and materialized, and the fold still holds a row under the key 1, which the table has no row of. -/
theorem rekeyed_diverges : Settled kpiPoller (run kpiPoller loadReader id rekeyed {}) ∧
    (run kpiPoller loadReader id rekeyed {}).table.rows.lookup "1" = none ∧
    ((run kpiPoller loadReader id rekeyed {}).data.cdcFold "kpi").lookup "1" ≠ none ∧
    ¬Mirrors kpiPoller loadReader (run kpiPoller loadReader id rekeyed {}) := by
  have hgone : (run kpiPoller loadReader id rekeyed {}).table.rows.lookup "1" = none :=
    Option.isNone_iff_eq_none.mp (by decide +kernel)
  have hfold : ((run kpiPoller loadReader id rekeyed {}).data.cdcFold "kpi").lookup "1" ≠ none :=
    Option.isSome_iff_ne_none.mp (by decide +kernel)
  refine ⟨rekeyed_settled, hgone, hfold, fun hmirrors => hfold ?_⟩
  rw [hmirrors, SourceTable.rowAt_eq_none hgone]
  rfl

end CdcPipeline

end OranAdapt
