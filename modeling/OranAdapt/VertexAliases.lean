import Mathlib.Data.List.Sort
import Mathlib.Logic.Function.Basic
import OranAdapt.Runs

/-!
# Aliases in the Vertex registry

The alias operations of `adapters.registry.vertex` on one model, at the
granularity of their REST calls. An alias of a version is native to Vertex and
`:mergeVersionAliases` changes the aliases of the one version it names, so
`set_alias` moves an alias in two requests, and reads it from a list that comes
in pages.
-/

namespace OranAdapt.VertexRegistry

open Runs

def reservedAlias : String := "default"

/-- `_ALIAS_RE`; the `$` of a match also stands before a final newline. -/
def matchesAlias (alias_ : String) : Bool :=
  let all := alias_.toList
  let cs := if all.getLast? = some '\n' then all.dropLast else all
  let lower (c : Char) : Bool := decide ('a' ≤ c ∧ c ≤ 'z')
  let digit (c : Char) : Bool := decide ('0' ≤ c ∧ c ≤ '9')
  let upper (c : Char) : Bool := decide ('A' ≤ c ∧ c ≤ 'Z')
  cs.head?.any lower && cs.getLast?.any (fun c => lower c || digit c) &&
    cs.all (fun c => lower c || upper c || digit c || c == '-') && decide (2 ≤ cs.length ∧ cs.length ≤ 128)

def checkAlias (alias_ : String) : Bool := alias_ != reservedAlias && matchesAlias alias_

/-! ## Calls -/

inductive Request where
  | setAlias (name : String) (version : Nat)
  | deleteAlias (name : String)
  | getVersionByAlias (name : String)
deriving DecidableEq, Repr

def Request.name : Request → String
  | setAlias name _ | deleteAlias name | getVersionByAlias name => name

/-- The REST call a call comes to next. -/
inductive Phase where
  /-- `_raw_version`: the model, then its version. -/
  | getModel
  | getVersion
  /-- `_list_raw`: the model, then the pages of its versions. -/
  | findModel
  | listVersions (seen : List (Nat × List String)) (rest : List Nat)
  | remove (current : Nat)
  | add (version : Nat)
deriving DecidableEq, Repr

/-- A call on its way. `owed`: the alias pointed at a version when the call
began, and no `delete_alias` has taken it off one since. -/
structure Call where
  request : Request
  phase : Phase
  owed : Bool

/-- What `get_version_by_alias` returned; `none` is ModelNotFoundError. -/
structure Found where
  name : String
  owed : Bool
  version : Option Nat

structure Model where
  versions : List Nat
  versionAliases : Nat → List String
  calls : Nat → Option Call
  /-- The alias once pointed at a version, and no `delete_alias` has taken it off one since. -/
  pointed : String → Bool
  found : List Found

namespace Model

def points (m : Model) (name : String) : Bool :=
  name != reservedAlias && m.versions.any fun v => decide (name ∈ m.versionAliases v)

def mergeAliases (m : Model) (version : Nat) (name : String) (on : Bool) : Model :=
  let old := m.versionAliases version
  let new := if on then (if name ∈ old then old else old ++ [name]) else old.filter fun a => a ≠ name
  { m with versionAliases := Function.update m.versionAliases version new }

def setCall (m : Model) (id : Nat) (c : Option Call) : Model := { m with calls := Function.update m.calls id c }

/-- The version of an alias in `get_registered_model().aliases`. -/
def current (seen : List (Nat × List String)) (name : String) : Option Nat :=
  if name = reservedAlias then none
  else (((seen.insertionSort fun a b => a.1 ≤ b.1).filter fun v => decide (name ∈ v.2)).getLast?).map Prod.fst

/-- What a call does once it has read every page. -/
def listed (m : Model) (c : Call) (seen : List (Nat × List String)) : Model × Option Call :=
  match c.request with
  | .getVersionByAlias name => ({ m with found := m.found ++ [⟨name, c.owed, current seen name⟩] }, none)
  | .deleteAlias name => (m, (current seen name).map fun v => { c with phase := .remove v })
  | .setAlias name version =>
    match current seen name with
    | none => (m, some { c with phase := .add version })
    | some v => (m, if v = version then none else some { c with phase := .remove v })

def acted (m : Model) (c : Call) : Model :=
  match c.phase with
  | .remove v => m.mergeAliases v c.request.name false
  | .add v => m.mergeAliases v c.request.name true
  | _ => m

/-- The next REST call is answered: what it does, and where the call is then.
`page` is how many versions the answer to a list holds. -/
def answered (m : Model) (c : Call) (page : Nat) : Model × Option Call :=
  match c.phase with
  | .getModel => (m, some { c with phase := .getVersion })
  | .getVersion =>
    match c.request with
    | .setAlias _ version => (m, if version ∈ m.versions then some { c with phase := .findModel } else none)
    | _ => (m, none)
  | .findModel => (m, some { c with phase := .listVersions [] m.versions })
  | .listVersions seen rest =>
    let seen := seen ++ (rest.take page).map fun v => (v, m.versionAliases v)
    if rest.drop page = [] then m.listed c seen
    else (m, some { c with phase := .listVersions seen (rest.drop page) })
  | .remove _ =>
    (m.acted c, match c.request with
      | .setAlias _ version => some { c with phase := .add version }
      | _ => none)
  | .add _ => (m.acted c, none)

/-- The alias a `delete_alias` takes off a version with its next REST call. -/
def deleting (c : Call) : Option String :=
  match c.request, c.phase with
  | .deleteAlias name, .remove _ => some name
  | _, _ => none

/-- Bring up to date what is owed to readers. -/
def observe (m : Model) (deleted : Option String) : Model :=
  { m with
    pointed := fun name => (m.pointed name && deleted != some name) || m.points name
    calls := fun id => (m.calls id).map fun c => { c with owed := c.owed && deleted != some c.request.name } }

inductive Action where
  | call (id : Nat) (r : Request)
  /-- The next REST call acts and is answered. -/
  | request (id : Nat) (page : Nat)
  /-- The next REST call fails, before or after it acted; the call raises. -/
  | fail (id : Nat) (afterActing : Bool)
  /-- The process stops between two calls. -/
  | stop (id : Nat)

def Action.id : Action → Nat
  | .call id _ | .request id _ | .fail id _ | .stop id => id

def begin (r : Request) : Phase :=
  match r with
  | .setAlias _ _ => .getModel
  | _ => .findModel

def refused : Request → Bool
  | .setAlias name _ => !checkAlias name
  | _ => false

def step (m : Model) : Action → Option Model
  | .call id r =>
    match m.calls id with
    | some _ => none
    | none => some (if refused r then m else m.setCall id (some ⟨r, begin r, m.pointed r.name⟩))
  | .request id page => (m.calls id).map fun c =>
    let after := m.answered c page
    (after.1.setCall id after.2).observe (deleting c)
  | .fail id afterActing => (m.calls id).map fun c =>
    if afterActing then ((m.acted c).setCall id none).observe (deleting c) else m.setCall id none
  | .stop id => some (m.setCall id none)

/-- Nobody reads a missing alias that is owed to him, and once every call has
ended an alias is on one version at most. -/
structure AliasesKept (m : Model) : Prop where
  found : ∀ f ∈ m.found, f.owed = true → f.version ≠ none
  single : (∀ id, m.calls id = none) → ∀ name, ∀ v ∈ m.versions, ∀ w ∈ m.versions,
    name ∈ m.versionAliases v → name ∈ m.versionAliases w → v = w

def start (versions : List Nat) (versionAliases : Nat → List String) : Model :=
  let m : Model := { versions, versionAliases, calls := fun _ => none, pointed := fun _ => false, found := [] }
  { m with pointed := m.points }

/-- The REST call is the one of a `set_alias` that takes the alias off the only
version it is on, or puts it on a version while another has it. -/
def movesAlias (m : Model) (c : Call) : Bool :=
  match c.request, c.phase with
  | .setAlias name _, .remove v => decide (name ∈ m.versionAliases v) &&
      m.versions.all fun w => w == v || decide (name ∉ m.versionAliases w)
  | .setAlias name _, .add v => m.versions.any fun w => w != v && decide (name ∈ m.versionAliases w)
  | _, _ => false

def moves (m : Model) : Action → Bool
  | .request id _ | .fail id true => (m.calls id).any m.movesAlias
  | _ => false

/-! ## What a REST call does -/

section
variable {m m' : Model} {c c' : Call} {name : String} {v w version : Nat} {on : Bool}

theorem mem_mergeAliases : name ∈ (m.mergeAliases v c.request.name on).versionAliases w ↔
    if w = v ∧ name = c.request.name then on = true else name ∈ m.versionAliases w := by
  unfold mergeAliases
  by_cases hw : w = v
  · subst hw
    cases on with
    | true =>
      by_cases hn : c.request.name ∈ m.versionAliases w <;> by_cases he : name = c.request.name <;> simp [hn, he]
    | false => by_cases he : name = c.request.name <;> simp [he]
  · simp [hw]

@[simp] theorem acted_versions : (m.acted c).versions = m.versions := by
  unfold acted; split <;> rfl

@[simp] theorem acted_calls : (m.acted c).calls = m.calls := by
  unfold acted; split <;> rfl

@[simp] theorem acted_pointed : (m.acted c).pointed = m.pointed := by
  unfold acted; split <;> rfl

@[simp] theorem acted_found : (m.acted c).found = m.found := by
  unfold acted; split <;> rfl

def Single (m : Model) : Prop :=
  ∀ name, ∀ v ∈ m.versions, ∀ w ∈ m.versions, name ∈ m.versionAliases v → name ∈ m.versionAliases w → v = w

/-- A call only comes to the REST calls of its kind. -/
def shaped (c : Call) : Bool :=
  match c.request, c.phase with
  | .setAlias _ _, _ => true
  | .deleteAlias _, .remove _ => true
  | _, .findModel | _, .listVersions _ _ => true
  | _, _ => false

theorem acted_single (hs : m.Single) (hm : m.movesAlias c = false) (hc : shaped c = true) : (m.acted c).Single := by
  unfold acted
  split
  · intro name v hv w hw hav haw
    rw [mem_mergeAliases] at hav haw
    split at hav
    · cases hav
    · split at haw
      · cases haw
      · exact hs name v hv w hw hav haw
  · rename_i u hp
    -- the added alias is on no other version
    have hset : ∃ version, c.request = .setAlias c.request.name version := by
      cases hr : c.request with
      | setAlias n version => exact ⟨version, rfl⟩
      | deleteAlias n => simp [shaped, hr, hp] at hc
      | getVersionByAlias n => simp [shaped, hr, hp] at hc
    obtain ⟨version, hr⟩ := hset
    have hother : ∀ w ∈ m.versions, w ≠ u → c.request.name ∉ m.versionAliases w := by
      intro w hw hne hin
      unfold movesAlias at hm
      rw [hr, hp] at hm
      simp only [List.any_eq_false, Bool.and_eq_true, bne_iff_ne, decide_eq_true_eq, not_and] at hm
      exact hm w hw hne hin
    intro name v hv w hw hav haw
    simp only [mem_mergeAliases] at hav haw
    by_cases hn : name = c.request.name
    · subst hn
      by_cases hvu : v = u
      · by_cases hwu : w = u
        · rw [hvu, hwu]
        · simp only [hwu, false_and, if_false] at haw
          exact absurd haw (hother w hw hwu)
      · simp only [hvu, false_and, if_false] at hav
        exact absurd hav (hother v hv hvu)
    · simp only [hn, and_false, if_false] at hav haw
      exact hs name v hv w hw hav haw
  · exact hs

/-- An alias stays where it is unless a `delete_alias` takes it off. -/
theorem acted_keeps (hs : m.Single) (hm : m.movesAlias c = false) (hc : shaped c = true) (hd : deleting c ≠ some name)
    (hv : v ∈ m.versions) (ha : name ∈ m.versionAliases v) : name ∈ (m.acted c).versionAliases v := by
  unfold acted
  split
  · rename_i u hp
    rw [mem_mergeAliases]
    split
    · rename_i he
      obtain ⟨rfl, rfl⟩ := he
      exfalso
      cases hr : c.request with
      | setAlias n version =>
        rw [hr] at ha
        unfold movesAlias at hm
        simp only [hr, hp, Request.name] at hm ha
        simp only [ha, decide_true, Bool.true_and, List.all_eq_false, Bool.or_eq_true, beq_iff_eq, decide_eq_true_eq,
          not_or, not_not] at hm
        obtain ⟨w, hw, hne, hin⟩ := hm
        exact hne (hs n w hw v hv hin ha)
      | deleteAlias n => simp [deleting, hr, hp, Request.name] at hd
      | getVersionByAlias n => simp [shaped, hr, hp] at hc
    · exact ha
  · rw [mem_mergeAliases]
    split
    · rfl
    · exact ha
  · exact ha

/-- What is owed to a call: its alias is on a version that its list shows or has still to show. -/
def Owed (m : Model) (c : Call) : Prop :=
  c.request.name ≠ reservedAlias ∧ ∃ v ∈ m.versions, c.request.name ∈ m.versionAliases v ∧
    ∀ seen rest, c.phase = .listVersions seen rest → v ∈ rest ∨ ∃ l, (v, l) ∈ seen ∧ c.request.name ∈ l

theorem points_iff : m.points name = true ↔ name ≠ reservedAlias ∧
    ∃ v ∈ m.versions, name ∈ m.versionAliases v := by
  simp [points]

theorem current_ne_none {seen : List (Nat × List String)} (hr : name ≠ reservedAlias)
    (h : ∃ v l, (v, l) ∈ seen ∧ name ∈ l) : current seen name ≠ none := by
  obtain ⟨v, l, hin, hl⟩ := h
  unfold current
  simp only [hr, if_false, ne_eq, Option.map_eq_none_iff, List.getLast?_eq_none_iff, List.filter_eq_nil_iff, not_forall]
  exact ⟨(v, l), (List.mem_insertionSort _).mpr hin, by simpa using hl⟩

/-- What an answered call leaves: the aliases as `acted` has them, and the call
a step further. -/
structure Answered (m : Model) (c : Call) (m' : Model) (c' : Option Call) : Prop where
  versions : m'.versions = m.versions
  aliases : m'.versionAliases = (m.acted c).versionAliases
  calls : m'.calls = m.calls
  pointed : m'.pointed = m.pointed
  found : ∀ f ∈ m'.found, f ∈ m.found ∨ (f.owed = c.owed ∧ (m.Owed c → f.version ≠ none))
  next : ∀ d, c' = some d → d.request = c.request ∧ d.owed = c.owed ∧ shaped d = true ∧ (m.Owed c → m.Owed d)

theorem owed_of_phase {d : Call} (h : m.Owed c) (hr : d.request = c.request)
    (hp : ∀ seen rest, d.phase ≠ .listVersions seen rest) : m.Owed d := by
  obtain ⟨hres, v, hv, ha, -⟩ := h
  rw [← hr] at hres ha
  exact ⟨hres, v, hv, ha, fun seen rest he => absurd he (hp seen rest)⟩

theorem listed_answered {seen : List (Nat × List String)} (hp : ∃ seen rest, c.phase = .listVersions seen rest)
    (hseen : m.Owed c → ∃ v l, (v, l) ∈ seen ∧ c.request.name ∈ l) :
    Answered m c (m.listed c seen).1 (m.listed c seen).2 := by
  have hacted : m.acted c = m := by
    obtain ⟨seen, rest, hp⟩ := hp
    simp [acted, hp]
  unfold listed
  split
  · rename_i name hr
    refine ⟨rfl, by rw [hacted], rfl, rfl, fun f hf => ?_, fun d hd => nomatch hd⟩
    rcases List.mem_append.mp hf with hf | hf
    · exact .inl hf
    · right
      rw [List.mem_singleton.mp hf]
      refine ⟨rfl, fun ho => ?_⟩
      have hname : c.request.name = name := by rw [hr]; rfl
      rw [← hname]
      exact current_ne_none ho.1 (hseen ho)
  · rename_i name hr
    refine ⟨rfl, by rw [hacted], rfl, rfl, fun f hf => .inl hf, fun d hd => ?_⟩
    obtain ⟨v, -, rfl⟩ := Option.map_eq_some_iff.mp hd
    refine ⟨rfl, rfl, by simp [shaped, hr], fun ho => owed_of_phase ho rfl ?_⟩
    intro seen rest he
    cases he
  · rename_i name version hr
    split
    · refine ⟨rfl, by rw [hacted], rfl, rfl, fun f hf => .inl hf, fun d hd => ?_⟩
      cases hd
      refine ⟨rfl, rfl, by simp [shaped, hr], fun ho => owed_of_phase ho rfl ?_⟩
      intro seen rest he
      cases he
    · refine ⟨rfl, by rw [hacted], rfl, rfl, fun f hf => .inl hf, fun d hd => ?_⟩
      simp only at hd
      split at hd
      · cases hd
      · cases hd
        refine ⟨rfl, rfl, by simp [shaped, hr], fun ho => owed_of_phase ho rfl ?_⟩
        intro seen rest he
        cases he

theorem Answered.goesOn {d : Call} (ha : m.acted c = m) (hr : d.request = c.request) (ho : d.owed = c.owed)
    (hs : shaped d = true) (hp : m.Owed c → m.Owed d) : Answered m c m (some d) where
  versions := rfl
  aliases := by rw [ha]
  calls := rfl
  pointed := rfl
  found f hf := .inl hf
  next e he := by
    cases he
    exact ⟨hr, ho, hs, hp⟩

theorem Answered.acted (c' : Option Call)
    (h : ∀ d, c' = some d → d.request = c.request ∧ d.owed = c.owed ∧ shaped d = true ∧ (m.Owed c → m.Owed d)) :
    Answered m c (m.acted c) c' where
  versions := acted_versions
  aliases := rfl
  calls := acted_calls
  pointed := acted_pointed
  found f hf := .inl (by rw [acted_found] at hf; exact hf)
  next := h

theorem answered_spec (page : Nat) (hc : shaped c = true) :
    Answered m c (m.answered c page).1 (m.answered c page).2 := by
  unfold answered
  split
  · rename_i hp
    have hacted : m.acted c = m := by simp [Model.acted, hp]
    refine .goesOn hacted rfl rfl ?_ fun ho => owed_of_phase ho rfl ?_
    · unfold shaped at hc ⊢
      rw [hp] at hc
      cases hr : c.request <;> simp [hr] at hc ⊢
    · intro seen rest he
      cases he
  · rename_i hp
    have hacted : m.acted c = m := by simp [Model.acted, hp]
    have hended : Answered m c m none := ⟨rfl, by rw [hacted], rfl, rfl, fun f hf => .inl hf, fun d hd => nomatch hd⟩
    split
    · rename_i name version hr
      by_cases hv : version ∈ m.versions
      · simp only [hv, if_true]
        refine .goesOn hacted rfl rfl (by simp [shaped, hr]) fun ho => owed_of_phase ho rfl ?_
        intro seen rest he
        cases he
      · simp only [hv, if_false]
        exact hended
    · exact hended
  · rename_i hp
    have hacted : m.acted c = m := by simp [Model.acted, hp]
    refine .goesOn hacted rfl rfl ?_ ?_
    · cases c.request <;> simp [shaped]
    · rintro ⟨hres, v, hv, ha, -⟩
      refine ⟨hres, v, hv, ha, fun seen rest he => ?_⟩
      cases he
      exact .inl hv
  · rename_i seen rest hp
    have hacted : m.acted c = m := by simp [Model.acted, hp]
    -- a page shows the alias of each of its versions as it is now
    have hpage : ∀ v, c.request.name ∈ m.versionAliases v →
      (v ∈ rest ∨ ∃ l, (v, l) ∈ seen ∧ c.request.name ∈ l) →
        v ∈ rest.drop page ∨ ∃ l, (v, l) ∈ seen ++ (rest.take page).map (fun v => (v, m.versionAliases v)) ∧
          c.request.name ∈ l := by
      intro v ha h
      rcases h with h | ⟨l, hin, hl⟩
      · rw [← List.take_append_drop page rest, List.mem_append] at h
        rcases h with h | h
        · right
          exact ⟨m.versionAliases v, List.mem_append_right _ (List.mem_map.mpr ⟨v, h, rfl⟩), ha⟩
        · exact .inl h
      · exact .inr ⟨l, List.mem_append_left _ hin, hl⟩
    by_cases hdone : rest.drop page = []
    · simp only [hdone, if_true]
      apply listed_answered ⟨seen, rest, hp⟩
      rintro ⟨-, v, -, ha, hread⟩
      rcases hpage v ha (hread seen rest hp) with h | ⟨l, hin, hl⟩
      · rw [hdone] at h
        cases h
      · exact ⟨v, l, hin, hl⟩
    · simp only [hdone, if_false]
      refine .goesOn hacted rfl rfl ?_ ?_
      · cases c.request <;> simp [shaped]
      · rintro ⟨hres, v, hv, ha, hread⟩
        refine ⟨hres, v, hv, ha, fun seen' rest' he => ?_⟩
        cases he
        exact hpage v ha (hread seen rest hp)
  · apply Answered.acted
    intro d hd
    split at hd
    · rename_i name version hr
      cases hd
      refine ⟨rfl, rfl, by simp [shaped, hr], fun ho => owed_of_phase ho rfl ?_⟩
      intro seen rest he
      cases he
    · cases hd
  · apply Answered.acted
    intro d hd
    cases hd

/-! ## What a step keeps -/

/-- What holds of the model in every run whose steps move no alias. -/
structure Sound (m : Model) : Prop where
  single : m.Single
  pointed : ∀ name, m.pointed name = true → m.points name = true
  calls : ∀ id c, m.calls id = some c → shaped c = true ∧ (c.owed = true → m.Owed c)
  found : ∀ f ∈ m.found, f.owed = true → f.version ≠ none

theorem Owed.keep {d : Call} (ho : m.Owed d) (hv : m'.versions = m.versions)
    (ha : ∀ v ∈ m.versions, d.request.name ∈ m.versionAliases v → d.request.name ∈ m'.versionAliases v) :
    m'.Owed d := by
  obtain ⟨hres, v, hin, hav, hread⟩ := ho
  exact ⟨hres, v, by rw [hv]; exact hin, ha v hin hav, hread⟩

theorem Sound.acted {c' : Option Call} {id : Nat} (h : m.Sound) (hid : m.calls id = some c) (hm : m.movesAlias c = false)
    (ha : Answered m c m' c') : ((m'.setCall id c').observe (deleting c)).Sound := by
  obtain ⟨hc, howed⟩ := h.calls id c hid
  have hsingle := acted_single h.single hm hc
  have hkeep (name : String) (hd : deleting c ≠ some name) (v : Nat) (hv : v ∈ m.versions)
      (hin : name ∈ m.versionAliases v) : name ∈ m'.versionAliases v := by
    rw [ha.aliases]
    exact acted_keeps h.single hm hc hd hv hin
  refine ⟨?_, fun name hp => ?_, fun i d hd => ?_, fun f hf ho => ?_⟩
  · intro name v hv w hw hav haw
    simp only [observe, setCall, ha.versions] at hv hw hav haw
    rw [ha.aliases] at hav haw
    have hacted := hsingle name v (by rw [acted_versions]; exact hv) w (by rw [acted_versions]; exact hw)
    exact hacted hav haw
  · have hpt : (m'.points name) = true := by
      simp only [observe, setCall, Bool.or_eq_true, Bool.and_eq_true, bne_iff_ne, ne_eq, ha.pointed] at hp
      rcases hp with ⟨hp, hd⟩ | hp
      · obtain ⟨hres, v, hv, hin⟩ := points_iff.mp (h.pointed name hp)
        exact points_iff.mpr ⟨hres, v, by rw [ha.versions]; exact hv, hkeep name hd v hv hin⟩
      · exact hp
    exact hpt
  · simp only [observe, setCall] at hd
    obtain ⟨d₀, hd₀, rfl⟩ := Option.map_eq_some_iff.mp hd
    have hboth : shaped d₀ = true ∧ (d₀.owed = true → m.Owed d₀) := by
      by_cases hi : i = id
      · subst hi
        rw [Function.update_self] at hd₀
        obtain ⟨hr, ho, hs, hnext⟩ := ha.next d₀ hd₀
        exact ⟨hs, fun hd => hnext (howed (by rw [← ho]; exact hd))⟩
      · rw [Function.update_of_ne hi, ha.calls] at hd₀
        exact h.calls i d₀ hd₀
    refine ⟨hboth.1, fun ho => ?_⟩
    simp only [Bool.and_eq_true, bne_iff_ne, ne_eq] at ho
    exact (hboth.2 ho.1).keep ha.versions fun v hv hin => hkeep _ ho.2 v hv hin
  · simp only [observe, setCall] at hf
    rcases ha.found f hf with hf | ⟨hfo, hne⟩
    · exact h.found f hf ho
    · exact hne (howed (by rw [← hfo]; exact ho))

theorem Sound.ended {id : Nat} (h : m.Sound) : (m.setCall id none).Sound := by
  refine ⟨h.single, h.pointed, fun i d hd => ?_, h.found⟩
  by_cases hi : i = id
  · subst hi
    simp [setCall] at hd
  · simp only [setCall, Function.update_of_ne hi] at hd
    exact h.calls i d hd

theorem Sound.step {a : Action} (h : m.Sound) (hm : m.moves a = false) (hs : step m a = some m') : m'.Sound := by
  unfold Model.step at hs
  cases a with
  | call id r =>
    simp only at hs
    split at hs
    · cases hs
    · cases hs
      split
      · exact h
      · refine ⟨h.single, h.pointed, fun i d hd => ?_, h.found⟩
        by_cases hi : i = id
        · subst hi
          simp only [setCall, Function.update_self, Option.some.injEq] at hd
          subst hd
          refine ⟨by cases r <;> rfl, fun ho => ?_⟩
          obtain ⟨hres, v, hv, hin⟩ := points_iff.mp (h.pointed r.name ho)
          refine ⟨hres, v, hv, hin, fun seen rest he => ?_⟩
          cases r <;> cases he
        · simp only [setCall, Function.update_of_ne hi] at hd
          exact h.calls i d hd
  | request id page =>
    obtain ⟨c, hid, rfl⟩ := Option.map_eq_some_iff.mp hs
    simp only [moves, hid, Option.any_some] at hm
    exact h.acted hid hm (answered_spec page (h.calls id c hid).1)
  | fail id afterActing =>
    obtain ⟨c, hid, rfl⟩ := Option.map_eq_some_iff.mp hs
    split
    · rename_i hact
      subst hact
      simp only [moves, hid, Option.any_some] at hm
      refine h.acted hid hm (.acted none fun d hd => ?_)
      cases hd
    · exact h.ended
  | stop id =>
    cases hs
    exact h.ended

end

theorem start_sound {versions : List Nat} {versionAliases : Nat → List String}
    (h : (start versions versionAliases).Single) :
    (start versions versionAliases).Sound where
  single := h
  pointed _ hp := hp
  calls _ _ hc := nomatch hc
  found _ hf := nomatch hf

/-- While no `set_alias` moves an alias that is set, no alias is lost: a reader
it is owed to finds it, and it is on one version at most. -/
theorem aliases_kept {versions : List Nat} {versionAliases : Nat → List String} {m : Model}
    (h0 : (start versions versionAliases).Single)
    (h : Steps step (fun m a => m.moves a = false) (start versions versionAliases) m) : m.AliasesKept := by
  have hsound : m.Sound := h.inv Sound (fun _ _ _ hI hC hst => hI.step hC hst) (start_sound h0)
  exact ⟨hsound.found, fun _ => hsound.single⟩

def liveOnFirst : Model := start [1, 2] fun v => if v = 1 then ["live"] else []

/-- One process makes the second version the candidate, another reads LIVE. -/
def candidateBesideLive : List Action :=
  [.call 0 (.setAlias "candidate" 2), .call 1 (.getVersionByAlias "live"), .request 0 0, .request 0 0, .request 1 0,
    .request 0 0, .request 1 1, .request 0 2, .request 1 1, .request 0 0]

theorem aliases_kept_candidate : ∃ m, Steps step (fun m a => m.moves a = false) liveOnFirst m ∧
    m.versionAliases 2 = ["candidate"] ∧ (∃ f ∈ m.found, f.owed = true ∧ f.version = some 1) ∧ m.AliasesKept := by
  obtain ⟨m, hm, hp⟩ := Steps.exists_of_runs step (fun m a => m.moves a = false) liveOnFirst candidateBesideLive
    (fun m => m.versionAliases 2 == ["candidate"] && m.found.any fun f => f.owed && f.version == some 1) (by decide)
  simp only [Bool.and_eq_true, beq_iff_eq, List.any_eq_true] at hp
  have hsingle : liveOnFirst.Single := by
    intro name v hv w hw hav haw
    have first (u : Nat) (hu : name ∈ liveOnFirst.versionAliases u) : u = 1 := by
      by_contra hne
      simp [liveOnFirst, start, hne] at hu
    rw [first v hav, first w haw]
  exact ⟨m, hm, hp.1, hp.2, aliases_kept hsingle hm⟩

/-- LIVE is moved to the second version, and read between the two requests of the move. -/
def readBetween : List Action :=
  [.call 0 (.setAlias "live" 2), .request 0 0, .request 0 0, .request 0 0, .request 0 2, .request 0 0,
    .call 1 (.getVersionByAlias "live"), .request 1 0, .request 1 2]

/-- Two processes move LIVE to versions of their own, and both have read where it was. -/
def movedTwice : List Action :=
  [.call 0 (.setAlias "live" 2), .request 0 0, .request 0 0, .request 0 0, .request 0 3,
    .call 1 (.setAlias "live" 3), .request 1 0, .request 1 0, .request 1 0, .request 1 3,
    .request 0 0, .request 0 0, .request 1 0, .request 1 0]

def liveOnFirstOfThree : Model := start [1, 2, 3] fun v => if v = 1 then ["live"] else []

@[simp] theorem listed_calls {m : Model} {c : Call} {seen : List (Nat × List String)} :
    (m.listed c seen).1.calls = m.calls := by
  unfold listed
  split
  · rfl
  · rfl
  · split <;> rfl

@[simp] theorem answered_calls {m : Model} {c : Call} {page : Nat} : (m.answered c page).1.calls = m.calls := by
  unfold answered
  split
  · rfl
  · split <;> rfl
  · rfl
  · simp only
    split <;> simp
  · simp
  · simp

theorem calls_other {m m' : Model} {a : Action} {i : Nat} (hs : step m a = some m') (hi : a.id ≠ i)
    (hn : m.calls i = none) : m'.calls i = none := by
  unfold step at hs
  cases a with
  | call id r =>
    replace hi : i ≠ id := Ne.symm hi
    simp only at hs
    split at hs
    · cases hs
    · cases hs
      split
      · exact hn
      · simp [setCall, hi, hn]
  | request id page =>
    replace hi : i ≠ id := Ne.symm hi
    obtain ⟨c, hid, rfl⟩ := Option.map_eq_some_iff.mp hs
    simp [observe, setCall, hi, hn]
  | fail id afterActing =>
    replace hi : i ≠ id := Ne.symm hi
    obtain ⟨c, hid, rfl⟩ := Option.map_eq_some_iff.mp hs
    split <;> simp [observe, setCall, hi, hn]
  | stop id =>
    replace hi : i ≠ id := Ne.symm hi
    cases hs
    simp [setCall, hi, hn]

/-- A reader finds no LIVE although nobody deleted it; and two moves leave it on two versions. -/
theorem alias_lost : (∃ m, Steps step Free liveOnFirst m ∧ ¬ m.AliasesKept) ∧
    ∃ m, Steps step Free liveOnFirstOfThree m ∧ ¬ m.AliasesKept := by
  constructor
  · obtain ⟨m, hm, hp⟩ := Steps.exists_of_runs step Free liveOnFirst readBetween
      (fun m => m.found.any fun f => f.owed && f.version == none) (by decide)
    simp only [List.any_eq_true, Bool.and_eq_true, beq_iff_eq] at hp
    obtain ⟨f, hf, ho, hv⟩ := hp
    exact ⟨m, hm, fun h => h.found f hf ho hv⟩
  · obtain ⟨m, hm, hp⟩ := Steps.exists_of_runs step (fun _ a => a.id ≤ 1) liveOnFirstOfThree movedTwice
      (fun m => (m.calls 0).isNone && (m.calls 1).isNone && m.versions == [1, 2, 3] &&
        m.versionAliases 2 == ["live"] && m.versionAliases 3 == ["live"]) (by decide)
    simp only [Bool.and_eq_true, beq_iff_eq, Option.isNone_iff_eq_none] at hp
    obtain ⟨⟨⟨⟨h0, h1⟩, hv⟩, h2⟩, h3⟩ := hp
    have hquiet : ∀ i, 2 ≤ i → m.calls i = none :=
      hm.inv (fun m => ∀ i, 2 ≤ i → m.calls i = none)
        (fun _ _ _ hI hC hst i hi => calls_other hst (by omega) (hI i hi)) (fun _ _ => rfl)
    refine ⟨m, hm.free, fun h => ?_⟩
    have hall : ∀ id, m.calls id = none := fun id => by
      by_cases e0 : id = 0
      · rw [e0]; exact h0
      · by_cases e1 : id = 1
        · rw [e1]; exact h1
        · exact hquiet id (by omega)
    have := h.single hall "live" 2 (by simp [hv]) 3 (by simp [hv]) (by simp [h2]) (by simp [h3])
    omega

end Model

end OranAdapt.VertexRegistry
