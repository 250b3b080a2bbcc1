import Mathlib.Data.List.Induction
import OranAdapt.Effects

/-!
# Calls that are noted

A program that knows its world only by what its calls come to. Each call is
noted, and a monitor reads the notes one by one. What the program promises of
every world is that no note is refused, and where the monitor stands at each of
its three ends.
-/

namespace Effects

structure Logged (ω ι : Type) where
  world : ω
  log : List ι

variable {σ ω ι κ ε α β : Type}

namespace Act

def noted (note : Ended ε α → ι) (m : Act ω ε α) : Act (Logged ω ι) ε α := fun s =>
  ((m s.world).1, ⟨(m s.world).2, s.log ++ [note (m s.world).1]⟩)

def quietly (m : Act ω ε α) : Act (Logged ω ι) ε α := fun s => ((m s.world).1, ⟨(m s.world).2, s.log⟩)

/-- A part of a program that keeps notes of its own. -/
def relog {ι' : Type} (f : ι → ι') (m : Act (Logged ω ι) ε α) : Act (Logged ω ι') ε α := fun s =>
  ((m ⟨s.world, []⟩).1, ⟨(m ⟨s.world, []⟩).2.world, s.log ++ (m ⟨s.world, []⟩).2.log.map f⟩)

def catching (caught : ε → Bool) (m : Act σ ε α) : Act σ ε (Except ε α) :=
  (m >>= fun a => pure (.ok a)).handle fun e => if caught e then pure (.error e) else raise e

def ofExcept : Except ε α → Act σ ε α
  | .ok a => pure a
  | .error e => raise e

end Act

/-! ## How a run goes on -/

section
variable {m : Act σ ε α} {f : α → Act σ ε β} {caught : ε → Bool} {s s' : σ} {a : α} {e : ε}

theorem Act.bind_done (h : m s = (.done a, s')) : (m >>= f) s = f a s' := by
  change Act.bind m f s = f a s'
  unfold Act.bind
  rw [h]

theorem Act.bind_raised (h : m s = (.raised e, s')) : (m >>= f) s = (.raised e, s') := by
  change Act.bind m f s = (.raised e, s')
  unfold Act.bind
  rw [h]

theorem Act.bind_stopped (h : m s = (.stopped, s')) : (m >>= f) s = (.stopped, s') := by
  change Act.bind m f s = (.stopped, s')
  unfold Act.bind
  rw [h]

theorem Act.catching_done (h : m s = (.done a, s')) : m.catching caught s = (.done (.ok a), s') := by
  have hbind : (m >>= fun a => (pure (.ok a) : Act σ ε (Except ε α))) s = (.done (.ok a), s') := Act.bind_done h
  unfold Act.catching Act.handle
  rw [hbind]

variable (caught) in
theorem Act.catching_raised (h : m s = (.raised e, s')) :
    m.catching caught s = if caught e then (.done (.error e), s') else (.raised e, s') := by
  have hbind : (m >>= fun a => (pure (.ok a) : Act σ ε (Except ε α))) s = (.raised e, s') := Act.bind_raised h
  unfold Act.catching Act.handle
  rw [hbind]
  dsimp only
  split <;> rfl

theorem Act.catching_stopped (h : m s = (.stopped, s')) : m.catching caught s = (.stopped, s') := by
  have hbind : (m >>= fun a => (pure (.ok a) : Act σ ε (Except ε α))) s = (.stopped, s') := Act.bind_stopped h
  unfold Act.catching Act.handle
  rw [hbind]

theorem Act.noted_eq (note : Ended ε α → ι) {call : Act ω ε α} {o : Ended ε α} {w w' : ω}
    (log : List ι) (h : call w = (o, w')) :
    call.noted note ⟨w, log⟩ = (o, ⟨w', log ++ [note o]⟩) := by
  unfold Act.noted
  rw [h]

theorem Act.relog_eq {ι' : Type} (f : ι → ι') {m : Act (Logged ω ι) ε α} {o : Ended ε α}
    {w : ω} {s' : Logged ω ι} (log : List ι')
    (h : m ⟨w, []⟩ = (o, s')) : m.relog f ⟨w, log⟩ = (o, ⟨s'.world, log ++ s'.log.map f⟩) := by
  unfold Act.relog
  rw [h]

end

namespace Keeps

variable {I : ω → Prop} {call : Act ω ε α}

theorem noted {note : Ended ε α → ι} (h : Keeps I call) : Keeps (fun s => I s.world) (call.noted note) := by
  intro s hs
  have hcall := h s.world hs
  unfold Ensures at hcall ⊢
  unfold Act.noted
  cases hend : call s.world with
  | mk o w =>
    rw [hend] at hcall
    cases o <;> exact hcall

theorem ofExcept {I : σ → Prop} (x : Except ε α) : Keeps I (Act.ofExcept x : Act σ ε α) := by
  cases x with
  | ok a => exact .ret a
  | error e => exact .raise e

theorem catching {I : σ → Prop} {m : Act σ ε α} {caught : ε → Bool}
    (h : Keeps I m) : Keeps I (m.catching caught) := by
  apply Keeps.handle
  · exact h.bind fun a => .ret (Except.ok a)
  · intro e
    split
    · exact .ret (Except.error e)
    · exact .raise e

end Keeps

/-! ## Monitors -/

/-- What is known after one more note; `none` where the note is refused. -/
abbrev Monitor (κ ι : Type) := κ → ι → Option κ

namespace Monitor

def read (mon : Monitor κ ι) (q : κ) (notes : List ι) : Option κ := notes.foldlM mon q

variable {mon : Monitor κ ι} {q q' q'' : κ} {i : ι} {notes more : List ι}

theorem read_cons : mon.read q (i :: notes) = (mon q i).bind fun q' => mon.read q' notes := rfl

theorem read_append : mon.read q (notes ++ more) = (mon.read q notes).bind fun q' => mon.read q' more :=
  List.foldlM_append

theorem read_trans (h : mon.read q notes = some q') (h' : mon.read q' more = some q'') :
    mon.read q (notes ++ more) = some q'' := by
  rw [read_append, h]
  exact h'

theorem read_single (h : mon q i = some q') : mon.read q [i] = some q' := by
  rw [read_cons, h]
  rfl

/-- What the monitor knew when it came to a note that it let through. -/
theorem read_split (h : mon.read q (notes ++ i :: more) = some q'') :
    ∃ q₁ q₂, mon.read q notes = some q₁ ∧ mon q₁ i = some q₂ ∧ mon.read q₂ more = some q'' := by
  rw [read_append] at h
  obtain ⟨q₁, h₁, h⟩ := Option.bind_eq_some_iff.mp h
  rw [read_cons] at h
  obtain ⟨q₂, h₂, h⟩ := Option.bind_eq_some_iff.mp h
  exact ⟨q₁, q₂, h₁, h₂, h⟩

/-- A monitor that keeps up with each note of another one keeps up with all of them. -/
theorem read_simulate {κ' : Type} {mon' : Monitor κ' ι} {rel : κ → κ' → Prop}
    (hstep : ∀ q k i q', rel q k → mon q i = some q' → ∃ k', mon' k i = some k' ∧ rel q' k') :
    ∀ {notes q k q'}, rel q k → mon.read q notes = some q' → ∃ k', mon'.read k notes = some k' ∧ rel q' k' := by
  intro notes
  induction notes with
  | nil =>
    intro q k q' hrel h
    cases h
    exact ⟨k, rfl, hrel⟩
  | cons i notes ih =>
    intro q k q' hrel h
    rw [read_cons] at h
    obtain ⟨q₁, h₁, h⟩ := Option.bind_eq_some_iff.mp h
    obtain ⟨k₁, hk, hrel₁⟩ := hstep q k i q₁ hrel h₁
    obtain ⟨k', hk', hrel'⟩ := ih hrel₁ h
    exact ⟨k', by rw [read_cons, hk]; exact hk', hrel'⟩

/-- What holds at the start and is kept by every note holds of the notes so far. -/
theorem read_induction {P : List ι → κ → Prop} (base : P [] q)
    (step : ∀ notes q₁ i q₂, P notes q₁ → mon q₁ i = some q₂ → P (notes ++ [i]) q₂) :
    ∀ {notes q'}, mon.read q notes = some q' → P notes q' := by
  intro notes
  induction notes using List.reverseRecOn with
  | nil =>
    intro q' h
    cases h
    exact base
  | append_singleton notes i ih =>
    intro q' h
    obtain ⟨q₁, q₂, h₁, h₂, h⟩ := read_split h
    cases h
    exact step notes q₁ i q' (ih h₁) h₂

end Monitor

def Each (P : List ι → ι → Prop) (notes : List ι) : Prop :=
  ∀ before i after, notes = before ++ i :: after → P before i

namespace Each

variable {P : List ι → ι → Prop} {notes : List ι} {i : ι}

theorem nil : Each P ([] : List ι) := by
  intro before i after h
  cases before <;> cases h

theorem snoc (h : Each P notes) (hi : P notes i) : Each P (notes ++ [i]) := by
  intro before j after hsplit
  rcases List.eq_nil_or_concat after with rfl | ⟨after, k, rfl⟩
  · obtain ⟨rfl, hj⟩ := List.append_inj' hsplit rfl
    cases hj
    exact hi
  · rw [List.concat_eq_append, ← List.cons_append, ← List.append_assoc] at hsplit
    exact h before j after (List.append_inj' hsplit rfl).1

end Each

open Classical in
/-- The monitor that lets through what `allows` holds of; `next` is what is known after a note. -/
noncomputable def Monitor.guarded (allows : κ → ι → Prop) (next : κ → ι → κ) : Monitor κ ι := fun q i =>
  if allows q i then some (next q i) else none

namespace Monitor

variable {allows : κ → ι → Prop} {next : κ → ι → κ}

theorem guarded_some {q : κ} {i : ι} (h : allows q i) : guarded allows next q i = some (next q i) := by
  unfold guarded
  rw [if_pos h]

theorem guarded_of_some {q q' : κ} {i : ι} (h : guarded allows next q i = some q') : allows q i ∧ q' = next q i := by
  unfold guarded at h
  split at h
  · rename_i hi
    cases h
    exact ⟨hi, rfl⟩
  · cases h

/-- What it knows is what the notes so far make known, and it allowed each of them. -/
theorem read_guarded {q q' : κ} {notes : List ι} (h : (guarded allows next).read q notes = some q') :
    q' = notes.foldl next q ∧ Each (fun before i => allows (before.foldl next q) i) notes := by
  refine read_induction (P := fun notes q' => q' = notes.foldl next q ∧
    Each (fun before i => allows (before.foldl next q) i) notes)
    ⟨rfl, .nil⟩ ?_ h
  rintro notes q₁ i q₂ ⟨rfl, heach⟩ hstep
  obtain ⟨hi, rfl⟩ := guarded_of_some hstep
  exact ⟨by rw [List.foldl_append]; rfl, heach.snoc hi⟩

noncomputable abbrev history (P : List ι → ι → Prop) : Monitor (List ι) ι := guarded P fun log i => log ++ [i]

theorem history_some {P : List ι → ι → Prop} {log : List ι} {i : ι} (h : P log i) :
    history P log i = some (log ++ [i]) :=
  guarded_some h

theorem foldl_snoc (notes log : List ι) : notes.foldl (fun log i => log ++ [i]) log = log ++ notes := by
  induction notes generalizing log with
  | nil => rw [List.append_nil]; rfl
  | cons i notes ih => rw [List.foldl_cons, ih, List.append_assoc]; rfl

theorem read_history {P : List ι → ι → Prop} {notes log : List ι} (h : (history P).read [] notes = some log) :
    log = notes ∧ Each P notes := by
  obtain ⟨hlog, heach⟩ := read_guarded h
  rw [foldl_snoc, List.nil_append] at hlog
  refine ⟨hlog, fun before i after hsplit => ?_⟩
  have hi : P (before.foldl (fun log i => log ++ [i]) []) i := heach before i after hsplit
  rw [foldl_snoc, List.nil_append] at hi
  exact hi

end Monitor

/-- The monitor read on from one log to a longer one and came to a state in `P`. -/
def Reads (mon : Monitor κ ι) (q : κ) (log log' : List ι) (P : κ → Prop) : Prop :=
  ∃ new q', log' = log ++ new ∧ mon.read q new = some q' ∧ P q'

theorem Reads.here {mon : Monitor κ ι} {q : κ} {log : List ι} {P : κ → Prop} (h : P q) : Reads mon q log log P :=
  ⟨[], q, (List.append_nil log).symm, rfl, h⟩

theorem Reads.mono {mon : Monitor κ ι} {q : κ} {log log' : List ι} {P P' : κ → Prop} (h : Reads mon q log log' P)
    (hP : ∀ q', P q' → P' q') : Reads mon q log log' P' := by
  obtain ⟨new, q', hlog, hread, hq⟩ := h
  exact ⟨new, q', hlog, hread, hP q' hq⟩

theorem Reads.trans {mon : Monitor κ ι} {q : κ} {log log' log'' : List ι} {P : κ → Prop}
    (h : Reads mon q log log' fun q' => Reads mon q' log' log'' P) : Reads mon q log log'' P := by
  obtain ⟨new, q', rfl, hread, more, q'', rfl, hread', hq⟩ := h
  exact ⟨new ++ more, q'', List.append_assoc _ _ _, Monitor.read_trans hread hread', hq⟩

/-- In every world the notes of `m` are let through from `q` on, and the monitor is in `D`, `R` or `S` at its end. -/
def Watches (mon : Monitor κ ι) (m : Act (Logged ω ι) ε α) (q : κ) (D : α → κ → Prop) (R : ε → κ → Prop)
    (S : κ → Prop) : Prop :=
  ∀ s, Ensures m s (fun a s' => Reads mon q s.log s'.log (D a)) (fun e s' => Reads mon q s.log s'.log (R e))
    fun s' => Reads mon q s.log s'.log S

namespace Watches

variable {mon : Monitor κ ι} {m : Act (Logged ω ι) ε α} {q : κ} {D D' : α → κ → Prop}
  {R R' T : ε → κ → Prop} {S S' : κ → Prop}

theorem ret {a : α} (h : D a q) : Watches mon (pure a : Act (Logged ω ι) ε α) q D R S := fun _ => .ret (.here h)

theorem raise {e : ε} (h : R e q) : Watches mon (Act.raise e : Act (Logged ω ι) ε α) q D R S := fun _ => .raise (.here h)

theorem mono (h : Watches mon m q D R S) (hD : ∀ a q', D a q' → D' a q') (hR : ∀ e q', R e q' → R' e q')
    (hS : ∀ q', S q' → S' q') : Watches mon m q D' R' S' := fun s =>
  (h s).mono (fun a _ h' => h'.mono (hD a)) (fun e _ h' => h'.mono (hR e)) fun _ h' => h'.mono hS

theorem ofExcept {x : Except ε α} (hok : ∀ a, x = .ok a → D a q) (herror : ∀ e, x = .error e → R e q) :
    Watches mon (Act.ofExcept x : Act (Logged ω ι) ε α) q D R S := by
  cases x with
  | ok a => exact ret (hok a rfl)
  | error e => exact raise (herror e rfl)

theorem bind {f : α → Act (Logged ω ι) ε β} {E : β → κ → Prop} (h : Watches mon m q D R S)
    (hf : ∀ a q', D a q' → Watches mon (f a) q' E R S) : Watches mon (m >>= f) q E R S := by
  intro s
  apply Ensures.bind
  apply (h s).mono
  · rintro a s' ⟨new, q', hlog, hread, hq⟩
    have hrest : ∀ {P : κ → Prop} {log''}, Reads mon q' s'.log log'' P → Reads mon q s.log log'' P :=
      fun h' => .trans ⟨new, q', hlog, hread, h'⟩
    exact (hf a q' hq s').mono (fun _ _ => hrest) (fun _ _ => hrest) fun _ => hrest
  · exact fun _ _ h' => h'
  · exact fun _ h' => h'

theorem handle {g : ε → Act (Logged ω ι) ε α} (h : Watches mon m q D T S)
    (hg : ∀ e q', T e q' → Watches mon (g e) q' D R S) : Watches mon (m.handle g) q D R S := by
  intro s
  apply Ensures.handle
  apply (h s).mono
  · exact fun _ _ h' => h'
  · rintro e s' ⟨new, q', hlog, hread, hq⟩
    have hrest : ∀ {P : κ → Prop} {log''}, Reads mon q' s'.log log'' P → Reads mon q s.log log'' P :=
      fun h' => .trans ⟨new, q', hlog, hread, h'⟩
    exact (hg e q' hq s').mono (fun _ _ => hrest) (fun _ _ => hrest) fun _ => hrest
  · exact fun _ h' => h'

theorem noted {note : Ended ε α → ι} {call : Act ω ε α}
    (hdone : ∀ w a, (call w).1 = .done a → ∃ q', mon q (note (.done a)) = some q' ∧ D a q')
    (hraised : ∀ w e, (call w).1 = .raised e → ∃ q', mon q (note (.raised e)) = some q' ∧ R e q')
    (hstopped : ∀ w, (call w).1 = .stopped → ∃ q', mon q (note .stopped) = some q' ∧ S q') :
    Watches mon (call.noted note) q D R S := by
  intro s
  have hread : ∀ {o : Ended ε α} {P : κ → Prop}, (∃ q', mon q (note o) = some q' ∧ P q') →
      Reads mon q s.log (s.log ++ [note o]) P := by
    rintro o P ⟨q', hq, hP⟩
    exact ⟨[note o], q', rfl, Monitor.read_single hq, hP⟩
  unfold Ensures Act.noted
  cases ho : (call s.world).1 with
  | done a => exact hread (hdone s.world a ho)
  | raised e => exact hread (hraised s.world e ho)
  | stopped => exact hread (hstopped s.world ho)

theorem quietly {call : Act ω ε α} (hdone : ∀ a, D a q) (hraised : ∀ e, R e q) (hstopped : S q) :
    Watches mon (call.quietly (ι := ι)) q D R S := by
  intro s
  unfold Ensures Act.quietly
  cases (call s.world).1 with
  | done a => exact .here (hdone a)
  | raised e => exact .here (hraised e)
  | stopped => exact .here hstopped

theorem catching {caught : ε → Bool} {E : Except ε α → κ → Prop} (h : Watches mon m q (fun a => E (.ok a)) T S)
    (hcaught : ∀ e q', caught e = true → T e q' → E (.error e) q')
    (hraised : ∀ e q', caught e = false → T e q' → R e q') :
    Watches mon (m.catching caught) q E R S := by
  apply handle (T := T)
  · exact bind h fun a q' ha => ret ha
  · intro e q' he
    split
    · rename_i hc
      exact ret (hcaught e q' hc he)
    · rename_i hc
      exact raise (hraised e q' (Bool.eq_false_iff.mpr hc) he)

theorem bind_catching {caught : ε → Bool} {f : Except ε α → Act (Logged ω ι) ε β}
    {E : β → κ → Prop} (h : Watches mon m q D T S)
    (hok : ∀ a q', D a q' → Watches mon (f (.ok a)) q' E R S)
    (hcaught : ∀ e q', caught e = true → T e q' → Watches mon (f (.error e)) q' E R S)
    (hraised : ∀ e q', caught e = false → T e q' → R e q') : Watches mon (m.catching caught >>= f) q E R S := by
  apply bind (D := fun answer q' => Watches mon (f answer) q' E R S)
  · exact catching (h.mono hok (fun _ _ he => he) fun _ hs => hs) hcaught hraised
  · exact fun _ _ h' => h'

theorem relog {ι' : Type} {f : ι → ι'} {mon : Monitor κ ι'} (h : Watches (fun q i => mon q (f i)) m q D R S) :
    Watches mon (m.relog f) q D R S := by
  intro s
  have hm := h ⟨s.world, []⟩
  have hread : ∀ {P : κ → Prop}, Reads (fun q i => mon q (f i)) q [] (m ⟨s.world, []⟩).2.log P →
      Reads mon q s.log (s.log ++ (m ⟨s.world, []⟩).2.log.map f) P := by
    rintro P ⟨new, q', hlog, hread, hq⟩
    refine ⟨new.map f, q', by rw [hlog, List.nil_append], ?_, hq⟩
    rw [← hread]
    exact List.foldlM_map
  unfold Ensures at hm ⊢
  unfold Act.relog
  dsimp only
  cases ho : m ⟨s.world, []⟩ with
  | mk o s' =>
    rw [ho] at hm hread
    cases o <;> exact hread hm

/-- A part whose notes tell the monitor nothing, whatever they are. -/
theorem heard {ι' : Type} {f : ι → ι'} {mon : Monitor κ ι'} (hstill : ∀ i, mon q (f i) = some q) (hD : ∀ a, D a q)
    (hR : ∀ e, R e q) (hS : S q) : Watches mon (m.relog f) q D R S := by
  intro s
  have hread : ∀ notes : List ι, mon.read q (notes.map f) = some q := by
    intro notes
    induction notes with
    | nil => rfl
    | cons i notes ih =>
      rw [List.map_cons, Monitor.read_cons, hstill]
      exact ih
  unfold Ensures Act.relog
  cases (m ⟨s.world, []⟩).1 with
  | done a => exact ⟨_, q, rfl, hread _, hD a⟩
  | raised e => exact ⟨_, q, rfl, hread _, hR e⟩
  | stopped => exact ⟨_, q, rfl, hread _, hS⟩

theorem simulate {κ' : Type} {mon' : Monitor κ' ι} (rel : κ → κ' → Prop) {k : κ'}
    (h : Watches mon m q D R S) (hrel : rel q k)
    (hstep : ∀ q k i q', rel q k → mon q i = some q' → ∃ k', mon' k i = some k' ∧ rel q' k') :
    Watches mon' m k (fun a k' => ∃ q', rel q' k' ∧ D a q') (fun e k' => ∃ q', rel q' k' ∧ R e q')
      fun k' => ∃ q', rel q' k' ∧ S q' := by
  have hread : ∀ {P : κ → Prop} {log log' : List ι}, Reads mon q log log' P →
      Reads mon' k log log' fun k' => ∃ q', rel q' k' ∧ P q' := by
    rintro P log log' ⟨new, q', rfl, hread, hq⟩
    obtain ⟨k', hread', hrel'⟩ := Monitor.read_simulate hstep hrel hread
    exact ⟨new, k', rfl, hread', q', hrel', hq⟩
  exact fun s => (h s).mono (fun _ _ => hread) (fun _ _ => hread) fun _ => hread

theorem run (h : Watches mon m q D R S) (w : ω) : ∃ q', mon.read q (m ⟨w, []⟩).2.log = some q' ∧
    match (m ⟨w, []⟩).1 with
    | .done a => D a q'
    | .raised e => R e q'
    | .stopped => S q' := by
  have hw := h ⟨w, []⟩
  unfold Ensures at hw
  split at hw
  all_goals
    rename_i hm
    obtain ⟨new, q', hlog, hread, hq⟩ := hw
    rw [hm]
    dsimp only at hlog ⊢
    rw [hlog]
    exact ⟨q', hread, hq⟩

end Watches

end Effects
