import OranAdapt.IdempotencyKeys

/-!
# Which requests share a key

A key is joined from texts the caller chooses by a separator these may hold, and
an event id may be the digest of another event. This says for which requests
that matters.
-/

namespace OranAdapt

namespace IdempotencyKeys

open Separators

/-! ## The body tells events apart -/

theorem orNull_inj {α : Type} {dump : α → Json} (hdump : ∀ a b, dump a = dump b → a = b)
    (hnull : ∀ a, dump a ≠ .null)
    {x y : Option α} (h : orNull dump x = orNull dump y) : x = y := by
  cases x with
  | none =>
    cases y with
    | none => rfl
    | some b => exact absurd h.symm (hnull b)
  | some a =>
    cases y with
    | none => exact absurd h (hnull a)
    | some b => rw [hdump a b h]

theorem orNull_str_inj {x y : Option String} (h : orNull .str x = orNull .str y) : x = y :=
  orNull_inj (fun _ _ h => Json.str.inj h) (fun _ h => (by cases h)) h

theorem driftType_value_inj {t t' : DriftType} (h : t.value = t'.value) : t = t' := by
  cases t <;> cases t' <;> first | rfl | exact absurd h (by decide)

theorem severity_value_inj {s s' : Severity} (h : s.value = s'.value) : s = s' := by
  cases s <;> cases s' <;> first | rfl | exact absurd h (by decide)

theorem unset_orNull {α : Type} {dump : α → Json} (hdump : ∀ a, unset (dump a) = false) {x : Option α}
    (h : unset (orNull dump x) = true) : orNull dump x = .null := by
  cases x with
  | none => rfl
  | some a =>
    rw [orNull, hdump] at h
    cases h

theorem unset_arr {items : List Json} (h : unset (.arr items) = true) : items = [] := by
  cases items with
  | nil => rfl
  | cons _ _ => cases h

theorem unset_obj {fields : JsonDict} (h : unset (.obj fields) = true) : fields = [] := by
  cases fields with
  | nil => rfl
  | cons _ _ => cases h

/-- Two fields of one name that are the same when both are unset. -/
def Alike (f g : String × Json) : Prop := f.1 = g.1 ∧ (unset f.2 = true → unset g.2 = true → f.2 = g.2)

theorem alike_orNull {α : Type} {dump : α → Json} (hdump : ∀ a, unset (dump a) = false)
    (name : String) (x y : Option α) :
    Alike (name, orNull dump x) (name, orNull dump y) :=
  ⟨rfl, fun hx hy => by rw [unset_orNull hdump hx, unset_orNull hdump hy]⟩

theorem alike_set {name : String} {v w : Json} (h : unset v = false) : Alike (name, v) (name, w) :=
  ⟨rfl, fun hv => by rw [h] at hv; cases hv⟩

theorem alike_arr (name : String) (items items' : List Json) : Alike (name, .arr items) (name, .arr items') :=
  ⟨rfl, fun h h' => by rw [unset_arr h, unset_arr h']⟩

theorem alike_obj (name : String) (fields fields' : JsonDict) : Alike (name, .obj fields) (name, .obj fields') :=
  ⟨rfl, fun h h' => by rw [unset_obj h, unset_obj h']⟩

/-- What is left without the unset fields tells what was there with them. -/
theorem filter_inj {keep : String × Json → Bool} (hkeep : ∀ f, keep f = false → unset f.2 = true) {fs gs : JsonDict}
    (halike : List.Forall₂ Alike fs gs) (hnodup : (fs.map Prod.fst).Nodup) (h : fs.filter keep = gs.filter keep) :
    fs = gs := by
  induction halike with
  | nil => rfl
  | @cons f g fs gs hfg halike ih =>
    have hnames : fs.map Prod.fst = gs.map Prod.fst := by
      clear ih h hnodup
      induction halike with
      | nil => rfl
      | cons hfg _ ih => rw [List.map_cons, List.map_cons, hfg.1, ih]
    rw [List.map_cons, List.nodup_cons] at hnodup
    have hmiss : ∀ {hs : JsonDict}, f.1 ∉ hs.map Prod.fst → ∀ x ∈ hs.filter keep, x.1 ≠ f.1 := by
      intro hs hf x hx heq
      exact hf (heq ▸ List.mem_map_of_mem (List.mem_of_mem_filter hx))
    rw [List.filter_cons, List.filter_cons] at h
    cases hf : keep f <;> cases hg : keep g <;> simp only [hf, hg, if_true, if_false, Bool.false_eq_true] at h
    · have heq : f = g := Prod.ext hfg.1 (hfg.2 (hkeep f hf) (hkeep g hg))
      rw [heq, ih hnodup.2 h]
    · have hmem : g ∈ fs.filter keep := by
        rw [h]
        exact List.mem_cons_self
      exact absurd hfg.1.symm (hmiss hnodup.1 g hmem)
    · have hmem : f ∈ gs.filter keep := by
        rw [← h]
        exact List.mem_cons_self
      rw [hnames] at hnodup
      exact absurd rfl (hmiss hnodup.1 f hmem)
    · rw [List.cons.injEq] at h
      rw [h.1, ih hnodup.2 h.2]

namespace DriftEvent

variable {e e' : DriftEvent}

def fieldNames : List String :=
  ["affected_features", "data_end_time", "data_start_time", "dataset_id", "detected_at", "drift_detected", "drift_metrics",
    "drift_score", "drift_type", "drifted_data_version", "event_id", "evidence", "model_id", "model_type", "model_version",
    "severity", "source_dataset_version", "timestamp"]

theorem modelDump_names (e : DriftEvent) : e.modelDump.map Prod.fst = fieldNames := rfl

theorem fieldNames_sorted : fieldNames.Pairwise (· < ·) := by decide

theorem modelDump_alike (e e' : DriftEvent) : List.Forall₂ Alike e.modelDump e'.modelDump := by
  have hstr : ∀ s : String, unset (.str s) = false := fun _ => rfl
  unfold modelDump
  refine .cons (alike_arr _ _ _) ?_
  refine .cons (alike_orNull hstr _ _ _) <| .cons (alike_orNull hstr _ _ _) <| .cons (alike_orNull hstr _ _ _) <|
    .cons (alike_orNull hstr _ _ _) ?_
  refine .cons (alike_set rfl) <| .cons (alike_obj _ _ _) ?_
  refine .cons (alike_orNull (fun _ => rfl) _ _ _) <| .cons (alike_orNull (fun _ => rfl) _ _ _) <|
    .cons (alike_orNull hstr _ _ _) <| .cons (alike_orNull hstr _ _ _) ?_
  refine .cons (alike_obj _ _ _) <| .cons (alike_set rfl) ?_
  refine .cons (alike_orNull hstr _ _ _) <| .cons (alike_orNull hstr _ _ _) <| .cons (alike_orNull (fun _ => rfl) _ _ _) ?_
  exact .cons (alike_orNull hstr _ _ _) <| .cons (alike_orNull hstr _ _ _) .nil

theorem modelDump_inj (h : e.modelDump = e'.modelDump) : e = e' := by
  simp only [modelDump, List.cons.injEq, Prod.mk.injEq, true_and, and_true] at h
  obtain ⟨hfeatures, hdataEnd, hdataStart, hdataset, hdetectedAt, hdetected, hmetrics, hscore, htype, hdrifted, hid,
    hevidence, hmodel, hmodelType, hversion, hseverity, hsource, htimestamp⟩ := h
  have hfeatures := List.map_injective_iff.mpr (fun _ _ h => Json.str.inj h) (Json.arr.inj hfeatures)
  have hmetrics := Payload.ext (Json.obj.inj hmetrics)
  have hevidence := Payload.ext (Json.obj.inj hevidence)
  have hscore := orNull_inj (fun _ _ h => Subtype.ext (Json.float.inj h)) (fun _ h => (by cases h)) hscore
  have htype := orNull_inj (fun _ _ h => driftType_value_inj (Json.str.inj h)) (fun _ h => (by cases h)) htype
  have hseverity := orNull_inj (fun _ _ h => severity_value_inj (Json.str.inj h)) (fun _ h => (by cases h)) hseverity
  have hdetected := Json.bool.inj hdetected
  have hmodel := Json.str.inj hmodel
  have hdataEnd := orNull_str_inj hdataEnd
  have hdataStart := orNull_str_inj hdataStart
  have hdataset := orNull_str_inj hdataset
  have hdetectedAt := orNull_str_inj hdetectedAt
  have hdrifted := orNull_str_inj hdrifted
  have hid := orNull_str_inj hid
  have hmodelType := orNull_str_inj hmodelType
  have hversion := orNull_str_inj hversion
  have hsource := orNull_str_inj hsource
  have htimestamp := orNull_str_inj htimestamp
  cases e
  cases e'
  simp only at *
  subst_vars
  rfl

theorem body_inj (h : e.body = e'.body) : e = e' := by
  apply modelDump_inj
  refine filter_inj ?_ (modelDump_alike e e') ?_ h
  · intro f hf
    simp only [Bool.not_eq_false', Bool.and_eq_true] at hf
    exact hf.2
  · rw [modelDump_names]
    exact fieldNames_sorted.imp fun h => ne_of_lt h

theorem wellFormed_orNull {α : Type} {dump : α → Json} (hdump : ∀ a, (dump a).WellFormed) (x : Option α) :
    (orNull dump x).WellFormed := by
  cases x with
  | none => exact .null
  | some a => exact hdump a

theorem modelDump_wellFormed (e : DriftEvent) : ∀ f ∈ e.modelDump, f.2.WellFormed := by
  have hfeatures : ∀ v ∈ e.affectedFeatures.map Json.str, v.WellFormed := by
    intro v hv
    obtain ⟨s, -, rfl⟩ := List.mem_map.mp hv
    exact .str s
  have hstr := fun x => wellFormed_orNull Json.WellFormed.str x
  have hscore := wellFormed_orNull (fun r : FloatText => .float r.2) e.driftScore
  have htype := wellFormed_orNull (fun t : DriftType => .str t.value) e.driftType
  have hseverity := wellFormed_orNull (fun s : Severity => .str s.value) e.severity
  unfold modelDump
  simp only [List.forall_mem_cons]
  exact ⟨.arr hfeatures, hstr _, hstr _, hstr _, hstr _, .bool _, e.driftMetrics.wellFormed, hscore, htype, hstr _, hstr _,
    e.evidence.wellFormed, .str _, hstr _, hstr _, hseverity, hstr _, hstr _, fun _ h => (by cases h)⟩

theorem body_wellFormed (e : DriftEvent) : (Json.obj e.body).WellFormed := by
  have hsub : e.body.Sublist e.modelDump := List.filter_sublist
  refine .obj ?_ fun f hf => modelDump_wellFormed e f (hsub.subset hf)
  refine List.Pairwise.sublist (hsub.map Prod.fst) ?_
  rw [modelDump_names]
  exact fieldNames_sorted

theorem canonical_inj (h : e.canonical = e'.canonical) : e = e' :=
  body_inj (Json.obj.inj (Json.dumps_inj (body_wellFormed e) (body_wellFormed e') h))

/-! ## Keys of events -/

variable {sha256 : String → BitVec 256}

theorem hexDigit_ne_colon (n : Nat) : Json.hexDigit n ≠ ':' := by
  have hall : ∀ m < 16, Nat.digitChar m ≠ ':' := by decide
  exact hall _ (Nat.mod_lt _ (by decide))

theorem digest_length (e : DriftEvent) : (e.digest sha256).length = 32 := by
  rw [digest, String.length_ofList, List.length_take, hexdigest, List.length_map, List.length_range]
  rfl

theorem colon_notMem_digest (e : DriftEvent) : ':' ∉ (e.digest sha256).toList := by
  rw [digest, String.toList_ofList]
  intro h
  obtain ⟨i, -, hi⟩ := List.mem_map.mp (List.mem_of_mem_take h)
  exact hexDigit_ne_colon _ hi

variable (sha256) in
def tail (e : DriftEvent) : String := e.carried.getD (e.digest sha256)

theorem idempotencyKey_eq (e : DriftEvent) : e.idempotencyKey sha256 = e.modelId ++ ":" ++ e.tail sha256 := by
  unfold idempotencyKey tail
  cases e.carried <;> rfl

theorem toList_joined (a b : String) : (a ++ ":" ++ b).toList = join ':' a.toList b.toList := by
  simp [join, String.toList_append]

end DriftEvent

/-- The first text ends, at a colon inside the second, where another pair's
first text ends. -/
def Shifts (modelId tail modelId' tail' : String) : Prop :=
  ∃ between, modelId' = modelId ++ ":" ++ between ∧ tail = between ++ ":" ++ tail'

theorem shifts_iff {modelId tail modelId' tail' : String} :
    Shifts modelId tail modelId' tail' ↔
      ∃ between, Shifted ':' modelId.toList tail.toList modelId'.toList tail'.toList between := by
  constructor
  · rintro ⟨between, rfl, rfl⟩
    exact ⟨between.toList, DriftEvent.toList_joined _ _, DriftEvent.toList_joined _ _⟩
  · rintro ⟨between, h⟩
    refine ⟨String.ofList between, ?_, ?_⟩
    · rw [← String.toList_inj, DriftEvent.toList_joined, String.toList_ofList, h.first]
    · rw [← String.toList_inj, DriftEvent.toList_joined, String.toList_ofList, h.second]

theorem joined_eq_iff {a b c d : String} :
    a ++ ":" ++ b = c ++ ":" ++ d ↔ a = c ∧ b = d ∨ Shifts a b c d ∨ Shifts c d a b := by
  rw [← String.toList_inj, DriftEvent.toList_joined, DriftEvent.toList_joined, join_eq_iff, shifts_iff, shifts_iff,
    String.toList_inj, String.toList_inj]

theorem Shifts.ne {a b c d : String} (h : Shifts a b c d) : a ≠ c := by
  obtain ⟨between, hs⟩ := shifts_iff.mp h
  exact fun heq => hs.ne (congrArg String.toList heq)

theorem Shifts.mem {a b c d : String} (h : Shifts a b c d) : ':' ∈ b.toList := by
  obtain ⟨between, hs⟩ := shifts_iff.mp h
  exact hs.mem.1

/-! ## Events that share a key -/

section
variable {sha256 : String → BitVec 256} {e e' : DriftEvent}

theorem SameEvent.symm (h : SameEvent e e') : SameEvent e' e := by
  rcases h with ⟨id, hid, hid', hmodel⟩ | ⟨hnone, hnone', heq⟩
  · exact .inl ⟨id, hid', hid, hmodel.symm⟩
  · exact .inr ⟨hnone', hnone, heq.symm⟩

variable (sha256 e e') in
/-- An event id that goes on from one model's id into another's, or that is the
digest of an event of the same model that carries none. -/
def EventClash : Prop :=
  (∃ id, e.carried = some id ∧ Shifts e.modelId id e'.modelId (e'.tail sha256)) ∨
    (e.carried = some (e'.digest sha256) ∧ e'.carried = none ∧ e.modelId = e'.modelId)

theorem EventClash.key_eq (h : EventClash sha256 e e') : e.idempotencyKey sha256 = e'.idempotencyKey sha256 := by
  rw [DriftEvent.idempotencyKey_eq, DriftEvent.idempotencyKey_eq, joined_eq_iff]
  rcases h with ⟨id, hid, hshift⟩ | ⟨hid, hnone, hmodel⟩
  · refine .inr (.inl ?_)
    rw [DriftEvent.tail, hid]
    exact hshift
  · refine .inl ⟨hmodel, ?_⟩
    rw [DriftEvent.tail, DriftEvent.tail, hid, hnone, Option.getD_some, Option.getD_none]

theorem EventClash.not_same (h : EventClash sha256 e e') : ¬ SameEvent e e' := by
  rintro (⟨id, hid, hid', hmodel⟩ | ⟨hnone, hnone', heq⟩)
  · rcases h with ⟨_, -, hshift⟩ | ⟨-, hnone, -⟩
    · exact hshift.ne hmodel
    · rw [hnone] at hid'
      cases hid'
  · rcases h with ⟨_, hid, -⟩ | ⟨hid, -, -⟩
    · rw [hnone] at hid
      cases hid
    · rw [hnone] at hid
      cases hid

theorem carried_of_shifts {modelId rest : String} (h : Shifts e.modelId (e.tail sha256) modelId rest) :
    ∃ id, e.carried = some id ∧ Shifts e.modelId id modelId rest := by
  cases hid : e.carried with
  | some id =>
    rw [DriftEvent.tail, hid] at h
    exact ⟨id, rfl, h⟩
  | none =>
    have hcolon := h.mem
    rw [DriftEvent.tail, hid] at hcolon
    exact absurd hcolon (DriftEvent.colon_notMem_digest e)

theorem sameEvent_iff (hsha : e.carried = none → e'.carried = none → e.digest sha256 = e'.digest sha256 →
      e.canonical = e'.canonical) :
    (e.idempotencyKey sha256 = e'.idempotencyKey sha256 → SameEvent e e') ↔
      ¬ EventClash sha256 e e' ∧ ¬ EventClash sha256 e' e := by
  constructor
  · intro hsame
    refine ⟨fun hclash => hclash.not_same (hsame hclash.key_eq), fun hclash => ?_⟩
    exact hclash.not_same (hsame hclash.key_eq.symm).symm
  · intro ⟨hclash, hclash'⟩ hkey
    rw [DriftEvent.idempotencyKey_eq, DriftEvent.idempotencyKey_eq, joined_eq_iff] at hkey
    rcases hkey with ⟨hmodel, htail⟩ | hshift | hshift
    · rw [DriftEvent.tail, DriftEvent.tail] at htail
      cases hid : e.carried with
      | some id =>
        cases hid' : e'.carried with
        | some id' =>
          rw [hid, hid'] at htail
          exact .inl ⟨id, hid, by rw [hid']; exact congrArg some htail.symm, hmodel⟩
        | none =>
          rw [hid, hid'] at htail
          exact absurd (.inr ⟨by rw [hid]; exact congrArg some htail, hid', hmodel⟩) hclash
      | none =>
        cases hid' : e'.carried with
        | some id' =>
          rw [hid, hid'] at htail
          exact absurd (.inr ⟨by rw [hid']; exact congrArg some htail.symm, hid, hmodel.symm⟩) hclash'
        | none =>
          rw [hid, hid'] at htail
          exact .inr ⟨hid, hid', DriftEvent.canonical_inj (hsha hid hid' htail)⟩
    · exact absurd (.inl (carried_of_shifts hshift)) hclash
    · exact absurd (.inl (carried_of_shifts hshift)) hclash'

theorem idempotencyKey_length (e : DriftEvent) :
    (e.idempotencyKey sha256).length = e.modelId.length + 1 + e.carried.elim 32 String.length := by
  rw [DriftEvent.idempotencyKey_eq, String.length_append, String.length_append, DriftEvent.tail]
  cases e.carried with
  | some id => rfl
  | none =>
    rw [Option.getD_none, DriftEvent.digest_length]
    rfl

end

/-! ## Promotions that share a key -/

theorem rollbackKey_eq_iff {m k m' k' : String} :
    rollbackKey m k = rollbackKey m' k' ↔ m = m' ∧ k = k' ∨ Shifts m k m' k' ∨ Shifts m' k' m k := by
  have hassoc : ∀ m k, rollbackKey m k = "rollback:" ++ (m ++ ":" ++ k) := by
    intro m k
    simp [rollbackKey, String.append_assoc]
  rw [← joined_eq_iff, hassoc, hassoc]
  constructor
  · intro h
    have hlist : "rollback:".toList ++ (m ++ ":" ++ k).toList = "rollback:".toList ++ (m' ++ ":" ++ k').toList := by
      rw [← String.toList_append, ← String.toList_append, h]
    exact String.toList_inj.mp (List.append_cancel_left hlist)
  · intro h
    rw [h]

theorem rollbackKey_length (m k : String) : (rollbackKey m k).length = 10 + m.length + k.length := by
  have hprefix : "rollback:".length = 9 := rfl
  have hcolon : ":".length = 1 := rfl
  simp only [rollbackKey, String.length_append, hprefix, hcolon]
  omega

namespace UuidHex

theorem head (id : UuidHex) : ∃ c cs, id.hex.toList = c :: cs ∧ c ∈ "0123456789abcdef".toList := by
  cases hlist : id.hex.toList with
  | nil =>
    have hlength := id.length
    rw [← String.length_toList, hlist] at hlength
    cases hlength
  | cons c cs => exact ⟨c, cs, rfl, id.chars c (by rw [hlist]; exact List.mem_cons_self)⟩

theorem colon_notMem (id : UuidHex) : ':' ∉ id.hex.toList := by
  intro h
  exact absurd (id.chars _ h) (by decide)

theorem ext {id id' : UuidHex} (h : id.hex = id'.hex) : id = id' := by
  cases id
  cases id'
  simp only at h
  subst h
  rfl

end UuidHex

/-! ## Requests that share a key -/

section
variable (sha256 : String → BitVec 256) (requests : Set Request)

/-- The digests of events without an event id tell their bodies apart. -/
def CollisionFree : Prop :=
  ∀ e e', .drift e ∈ requests → .drift e' ∈ requests → e.carried = none → e'.carried = none →
    e.digest sha256 = e'.digest sha256 → e.canonical = e'.canonical

/-- No two of the requests clash, and their parts are short enough together. -/
structure Clear : Prop where
  events : ∀ e e', .drift e ∈ requests → .drift e' ∈ requests → ¬ EventClash sha256 e e'
  rollbacks : ∀ r r' key key', .rollback r ∈ requests → .rollback r' ∈ requests → r.idempotencyKey = some key →
    r'.idempotencyKey = some key' → key ≠ "" → key' ≠ "" → ¬ Shifts r.modelId key r'.modelId key'
  eventLengths : ∀ e, .drift e ∈ requests → e.modelId.length + 1 + e.carried.elim 32 String.length ≤ 128
  rollbackLengths : ∀ r key, .rollback r ∈ requests → r.idempotencyKey = some key → key ≠ "" →
    10 + r.modelId.length + key.length ≤ 200

end

section
variable {sha256 : String → BitVec 256} {requests : Set Request}

theorem rollback_key {r : RollbackRequest} {key : Table × String} (h : (Request.rollback r).key sha256 = some key) :
    ∃ k, r.idempotencyKey = some k ∧ k ≠ "" ∧ key = (.modelPromotion, rollbackKey r.modelId k) := by
  unfold Request.key at h
  cases hk : r.idempotencyKey with
  | none =>
    simp only [hk] at h
    cases h
  | some k =>
    simp only [hk] at h
    by_cases hempty : k = ""
    · rw [if_pos hempty] at h
      cases h
    · rw [if_neg hempty] at h
      cases h
      exact ⟨k, rfl, hempty, rfl⟩

theorem key_of_rollback {r : RollbackRequest} {k : String} (h : r.idempotencyKey = some k) (hk : k ≠ "") :
    (Request.rollback r).key sha256 = some (.modelPromotion, rollbackKey r.modelId k) := by
  simp only [Request.key, h, if_neg hk]

/-- Which form of request a key belongs to, read off its text. -/
def keyForm : Table × String → Nat
  | (.adaptationJob, _) => 0
  | (.modelPromotion, text) =>
    match text.toList with
    | 'r' :: _ :: _ :: _ :: 'b' :: _ => 1
    | 'r' :: _ => 2
    | _ => 3

def Request.form : Request → Nat
  | .drift _ => 0
  | .rollback _ => 1
  | .rolloutPromotion _ => 2
  | .jobPromotion _ _ => 3

theorem keyForm_of_hex {id : UuidHex} {rest : String} : keyForm (.modelPromotion, id.hex ++ rest) = 3 := by
  obtain ⟨c, cs, hlist, hc⟩ := id.head
  have hr : c ≠ 'r' := by
    rintro rfl
    exact absurd hc (by decide)
  unfold keyForm
  simp only [String.toList_append, hlist, List.cons_append]
  split
  · rename_i heq
    exact absurd (List.cons.inj heq).1 hr
  · rename_i heq
    exact absurd (List.cons.inj heq).1 hr
  · rfl

theorem keyForm_key {r : Request} {key : Table × String} (h : r.key sha256 = some key) : keyForm key = r.form := by
  cases r with
  | drift e =>
    cases h
    rfl
  | rollback q =>
    obtain ⟨k, -, -, rfl⟩ := rollback_key h
    simp [keyForm, rollbackKey, String.toList_append, Request.form]
  | rolloutPromotion id =>
    cases h
    simp [keyForm, String.toList_append, Request.form]
  | jobPromotion id reuse =>
    cases h
    rw [String.append_assoc]
    exact keyForm_of_hex

theorem job_key_inj {id id' : UuidHex} {reuse reuse' : Bool}
    (h : (Request.jobPromotion id reuse).key sha256 = (Request.jobPromotion id' reuse').key sha256) :
    id = id' ∧ reuse = reuse' := by
  have htext := congrArg Prod.snd (Option.some.inj h)
  have hlist := congrArg String.toList htext
  simp only [DriftEvent.toList_joined] at hlist
  obtain ⟨hid, hsuffix⟩ := join_inj_left id.colon_notMem id'.colon_notMem hlist
  refine ⟨UuidHex.ext (String.toList_inj.mp hid), ?_⟩
  cases reuse <;> cases reuse' <;> first | rfl | exact absurd hsuffix (by decide)

theorem rollout_key_inj {id id' : UuidHex}
    (h : (Request.rolloutPromotion id).key sha256 = (Request.rolloutPromotion id').key sha256) : id = id' := by
  have htext := congrArg Prod.snd (Option.some.inj h)
  have hlist := congrArg String.toList htext
  simp only [String.toList_append] at hlist
  have hid := List.append_cancel_left (List.append_cancel_right hlist)
  exact UuidHex.ext (String.toList_inj.mp hid)

theorem rollback_same_of_key (hclear : Clear sha256 requests) {r r' : RollbackRequest} {key : Table × String}
    (hr : .rollback r ∈ requests) (hr' : .rollback r' ∈ requests) (hkey : (Request.rollback r).key sha256 = some key)
    (hkey' : (Request.rollback r').key sha256 = some key) :
    r.modelId = r'.modelId ∧ r.idempotencyKey = r'.idempotencyKey := by
  obtain ⟨k, hk, hne, rfl⟩ := rollback_key hkey
  obtain ⟨k', hk', hne', heq⟩ := rollback_key hkey'
  rcases rollbackKey_eq_iff.mp (Prod.mk.inj heq).2 with ⟨hmodel, hsame⟩ | hshift | hshift
  · rw [hk, hk', hsame]
    exact ⟨hmodel, rfl⟩
  · exact absurd hshift (hclear.rollbacks r r' k k' hr hr' hk hk' hne hne')
  · exact absurd hshift (hclear.rollbacks r' r k' k hr' hr hk' hk hne' hne)

/-- The forms of promotion keys keep apart, and all but rollbacks tell their requests. -/
theorem same_of_key (hsha : CollisionFree sha256 requests) (hclear : Clear sha256 requests) {r r' : Request}
    {key : Table × String} (hr : r ∈ requests) (hr' : r' ∈ requests) (hkey : r.key sha256 = some key)
    (hkey' : r'.key sha256 = some key) : r.Same r' := by
  have hform : r.form = r'.form := (keyForm_key hkey).symm.trans (keyForm_key hkey')
  cases r with
  | drift e =>
    cases r' with
    | drift e' =>
      have hkeys := congrArg Prod.snd (Option.some.inj (hkey.trans hkey'.symm))
      exact (sameEvent_iff (hsha e e' hr hr')).mpr ⟨hclear.events e e' hr hr', hclear.events e' e hr' hr⟩ hkeys
    | _ => cases hform
  | rollback q =>
    cases r' with
    | rollback q' => exact rollback_same_of_key hclear hr hr' hkey hkey'
    | _ => cases hform
  | rolloutPromotion id =>
    cases r' with
    | rolloutPromotion id' => exact rollout_key_inj (hkey.trans hkey'.symm)
    | _ => cases hform
  | jobPromotion id reuse =>
    cases r' with
    | jobPromotion id' reuse' => exact job_key_inj (hkey.trans hkey'.symm)
    | _ => cases hform

theorem key_length (hclear : Clear sha256 requests) {r : Request} {key : Table × String} (hr : r ∈ requests)
    (hkey : r.key sha256 = some key) : key.2.length ≤ key.1.keyLength := by
  cases r with
  | drift e =>
    cases hkey
    change (e.idempotencyKey sha256).length ≤ 128
    rw [idempotencyKey_length]
    exact hclear.eventLengths e hr
  | rollback q =>
    obtain ⟨k, hk, hne, rfl⟩ := rollback_key hkey
    have hlength := hclear.rollbackLengths q k hr hk hne
    change (rollbackKey q.modelId k).length ≤ 200
    rw [rollbackKey_length]
    exact hlength
  | rolloutPromotion id =>
    cases hkey
    simp only [String.length_append, id.length, Table.keyLength]
    decide
  | jobPromotion id reuse =>
    cases hkey
    simp only [String.length_append, id.length, Table.keyLength]
    cases reuse <;> decide

/-! ## Runs -/

def Recorded (sha256 : String → BitVec 256) (requests : Set Request) (records : Records) : Prop :=
  ∀ p ∈ records, p.2 ∈ requests ∧ p.2.key sha256 = some p.1

/-- The answer does not refuse the request for its key, nor give it another's result. -/
def Right (p : Request × Reply) : Prop := p.2 ≠ .tooLong ∧ ∀ first, p.2 = .recorded first → p.1.Same first

theorem serve_right (hsha : CollisionFree sha256 requests) (hclear : Clear sha256 requests) {records : Records}
    (hrecords : Recorded sha256 requests records) {request : Request} (hrequest : request ∈ requests) (course : Course) :
    Right (request, (serve sha256 records request course).1) ∧
      Recorded sha256 requests (serve sha256 records request course).2 := by
  have hfailed : Right (request, .failed) := ⟨fun h => (by cases h), fun _ h => (by cases h)⟩
  have hserved : Right (request, .served) := ⟨fun h => (by cases h), fun _ h => (by cases h)⟩
  unfold serve
  by_cases hearly : course = .early
  · rw [if_pos hearly]
    exact ⟨hfailed, hrecords⟩
  rw [if_neg hearly]
  cases hkey : request.key sha256 with
  | none =>
    refine ⟨?_, hrecords⟩
    by_cases hlate : course = .late
    · simp only [if_pos hlate]
      exact hfailed
    · simp only [if_neg hlate]
      exact hserved
  | some key =>
    dsimp only
    cases hfound : records.lookup key with
    | some first =>
      obtain ⟨before, later, hmem, -⟩ := List.lookup_eq_some_iff.mp hfound
      obtain ⟨hfirst, hfirstKey⟩ := hrecords (key, first) (by rw [hmem]; simp)
      refine ⟨⟨fun h => (by cases h), fun other h => ?_⟩, hrecords⟩
      cases h
      exact same_of_key hsha hclear hrequest hfirst hkey hfirstKey
    | none =>
      have hfits := key_length hclear hrequest hkey
      simp only [if_neg (not_lt.mpr hfits)]
      by_cases hlate : course = .late
      · simp only [if_pos hlate]
        exact ⟨hfailed, hrecords⟩
      · simp only [if_neg hlate]
        refine ⟨hserved, fun p hp => ?_⟩
        rcases List.mem_cons.mp hp with rfl | hp
        · exact ⟨hrequest, hkey⟩
        · exact hrecords p hp

theorem replies_right (hsha : CollisionFree sha256 requests) (hclear : Clear sha256 requests) {records : Records}
    (hrecords : Recorded sha256 requests records) {run : List (Request × Course)} (hrun : ∀ p ∈ run, p.1 ∈ requests) :
    ∀ x ∈ replies sha256 records run, Right x := by
  induction run generalizing records with
  | nil =>
    intro x hx
    cases hx
  | cons p run ih =>
    obtain ⟨hright, hnext⟩ := serve_right hsha hclear hrecords (hrun p List.mem_cons_self) p.2
    intro x hx
    rcases List.mem_cons.mp hx with rfl | hx
    · exact hright
    · exact ih hnext (fun q hq => hrun q (List.mem_cons_of_mem _ hq)) x hx

/-! ## When no key is shared -/

/-- A request whose key is too long is refused when it comes first. -/
theorem alone_tooLong {request : Request} {key : Table × String} (hkey : request.key sha256 = some key)
    (hlong : key.1.keyLength < key.2.length) : (request, Reply.tooLong) ∈ replies sha256 [] [(request, .through)] := by
  simp [replies, serve, hkey, hlong]

/-- Requests of any kind never share a key, and are never refused for one or
answered with another's result, exactly when no two of them clash and their
parts are short enough. -/
theorem keys_distinct_iff (hsha : CollisionFree sha256 requests) : Distinct sha256 requests ↔ Clear sha256 requests := by
  constructor
  · intro h
    refine ⟨?_, ?_, ?_, ?_⟩
    · intro e e' he he'
      exact ((sameEvent_iff (hsha e e' he he')).mp (h.events e e' he he')).1
    · intro r r' k k' hr hr' hk hk' hne hne' hshift
      have hkeys := rollbackKey_eq_iff.mpr (.inr (.inl hshift))
      have hsame := h.rollbacks r r' _ hr hr' (key_of_rollback hk hne) (by rw [key_of_rollback hk' hne', hkeys])
      exact hshift.ne hsame.1
    · intro e he
      have hlength : (e.idempotencyKey sha256).length = _ := idempotencyKey_length e
      rw [← hlength]
      exact h.columns e he
    · intro r k hr hk hne
      by_contra hlong
      rw [← rollbackKey_length, not_le] at hlong
      have hmem : (Request.rollback r, Reply.tooLong) ∈ replies sha256 [] [(.rollback r, .through)] :=
        alone_tooLong (key_of_rollback hk hne) hlong
      refine (h.answers _ (fun p hp => ?_) _ hmem).1 rfl
      rw [List.mem_singleton.mp hp]
      exact hr
  · intro h
    refine ⟨?_, ?_, ?_, ?_⟩
    · intro e e' he he'
      exact (sameEvent_iff (hsha e e' he he')).mpr ⟨h.events e e' he he', h.events e' e he' he⟩
    · intro r r' key hr hr' hkey hkey'
      exact rollback_same_of_key h hr hr' hkey hkey'
    · intro e he
      rw [idempotencyKey_length]
      exact h.eventLengths e he
    · intro run hrun
      exact replies_right hsha h (fun p hp => (by cases hp)) hrun

end

/-! ## Requests that do -/

theorem noKeys_wellFormed : (Json.obj []).WellFormed := .obj .nil fun _ h => (by cases h)

def bareEvent (modelId id : String) (hmodel : 1 ≤ modelId.length ∧ modelId.length ≤ 200)
    (hid : id.length ≤ 128) : DriftEvent where
  modelId := modelId
  modelType := none
  driftDetected := true
  driftScore := none
  evidence := ⟨[], noKeys_wellFormed⟩
  eventId := some id
  datasetId := none
  driftedDataVersion := none
  detectedAt := none
  modelVersion := none
  timestamp := none
  driftType := none
  severity := none
  driftMetrics := ⟨[], noKeys_wellFormed⟩
  affectedFeatures := []
  sourceDatasetVersion := none
  dataStartTime := none
  dataEndTime := none
  modelId_length := hmodel
  eventId_length := by
    intro i h
    cases h
    exact hid
  modelVersion_length := by
    intro v h
    cases h

def rollbackOf (modelId key : String) (h : key.length ≤ 128) : RollbackRequest where
  modelId := modelId
  idempotencyKey := some key
  length := by
    intro k hk
    cases hk
    exact h

def cellEvent : DriftEvent := bareEvent "cell" "7:drift" (by decide) (by decide)
def sectorEvent : DriftEvent := bareEvent "cell:7" "drift" (by decide) (by decide)

def longEvent : DriftEvent :=
  bareEvent (String.ofList (List.replicate 100 'm')) (String.ofList (List.replicate 28 'e')) (by decide) (by decide)

def noHash (_ : String) : BitVec 256 := 0

/-- Two events of two models share a key, so do two rollbacks, and a third event's
key is longer than its column. -/
theorem keys_shared : ¬ Distinct noHash {.drift cellEvent, .drift sectorEvent} ∧
    ¬ Distinct noHash {.rollback (rollbackOf "cell" "7:undo" (by decide)),
      .rollback (rollbackOf "cell:7" "undo" (by decide))} ∧
    ¬ Distinct noHash {.drift longEvent} := by
  refine ⟨fun h => ?_, fun h => ?_, fun h => ?_⟩
  · have hkeys : cellEvent.idempotencyKey noHash = sectorEvent.idempotencyKey noHash := by decide
    rcases h.events cellEvent sectorEvent (.inl rfl) (.inr rfl) hkeys with ⟨id, -, -, hmodel⟩ | ⟨hnone, -, -⟩
    · exact absurd hmodel (by decide)
    · exact absurd hnone (by decide)
  · have hsame := h.rollbacks _ _ (.modelPromotion, "rollback:cell:7:undo") (.inl rfl) (.inr rfl) (by decide) (by decide)
    exact absurd hsame.1 (by decide)
  · exact absurd (h.columns longEvent rfl) (by decide +kernel)

def driftSeven : DriftEvent := bareEvent "cell" "drift-7" (by decide) (by decide)

def undo : RollbackRequest := rollbackOf "cell" "undo" (by decide)

/-- An event without an id, told by its body. -/
def unnamed (detected : Bool) : DriftEvent :=
  { driftSeven with eventId := none, driftDetected := detected, eventId_length := fun _ h => by cases h }

/-- A stand-in for SHA-256 that tells texts of two lengths apart in the digits that are kept. -/
def lengthHash (text : String) : BitVec 256 := BitVec.ofNat 256 (text.length * 2 ^ 128)

def ofOneCell : Set Request := {.drift (unnamed true), .drift (unnamed false), .drift driftSeven, .rollback undo}

theorem mem_ofOneCell {e : DriftEvent} (h : .drift e ∈ ofOneCell) : e = unnamed true ∨
    e = unnamed false ∨ e = driftSeven := by
  rcases h with h | h | h | h
  · exact .inl (Request.drift.inj h)
  · exact .inr (.inl (Request.drift.inj h))
  · exact .inr (.inr (Request.drift.inj h))
  · cases h

theorem undo_ofOneCell {r : RollbackRequest} (h : .rollback r ∈ ofOneCell) : r = undo := by
  rcases h with h | h | h | h
  · cases h
  · cases h
  · cases h
  · exact Request.rollback.inj h

theorem ofOneCell_model {e : DriftEvent} (h : .drift e ∈ ofOneCell) : e.modelId = "cell" := by
  rcases mem_ofOneCell h with rfl | rfl | rfl <;> rfl

theorem ofOneCell_collisionFree : CollisionFree lengthHash ofOneCell := by
  have hapart : (unnamed true).digest lengthHash ≠ (unnamed false).digest lengthHash := by decide +kernel
  intro e e' he he' hnone hnone' hdigest
  rcases mem_ofOneCell he with rfl | rfl | rfl
  · rcases mem_ofOneCell he' with rfl | rfl | rfl
    · rfl
    · exact absurd hdigest hapart
    · cases hnone'
  · rcases mem_ofOneCell he' with rfl | rfl | rfl
    · exact absurd hdigest.symm hapart
    · rfl
    · cases hnone'
  · cases hnone

/-- Two events without an id, one with an id and a rollback, all of one model. -/
theorem keys_distinct_plain : Distinct lengthHash ofOneCell := by
  refine (keys_distinct_iff ofOneCell_collisionFree).mpr ⟨?_, ?_, ?_, ?_⟩
  · rintro e e' he he' (⟨id, -, hshift⟩ | ⟨hcarried, -, -⟩)
    · exact hshift.ne ((ofOneCell_model he).trans (ofOneCell_model he').symm)
    · have hlength : ∀ id, e.carried = some id → id.length = 7 := by
        rcases mem_ofOneCell he with rfl | rfl | rfl
        · exact fun _ h => by cases h
        · exact fun _ h => by cases h
        · exact fun _ h => by cases h; rfl
      have h32 : (e'.digest lengthHash).length = 32 := DriftEvent.digest_length ..
      rw [hlength _ hcarried] at h32
      cases h32
  · intro r r' k k' hr hr' _ _ _ _ hshift
    rw [undo_ofOneCell hr, undo_ofOneCell hr'] at hshift
    exact hshift.ne rfl
  · intro e he
    rcases mem_ofOneCell he with rfl | rfl | rfl <;> decide
  · intro r k hr hk _
    rw [undo_ofOneCell hr] at hk ⊢
    cases hk
    decide

end IdempotencyKeys

end OranAdapt
