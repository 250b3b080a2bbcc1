import Mathlib.Data.List.Basic

/-!
# Errors that are declared

A computation may say which errors it raises. Whether it keeps to them is
read off its steps, and a loop that stops at its first error keeps to them
where every element does that no refused one stands in front of.
-/

namespace Declared

variable {ε α β σ : Type} {d : ε → Prop} {x : Except ε α} {f : α → Except ε β} {l : List α}

/-- The computation returns, or it raises an error of the declared kind. -/
def Keeps (d : ε → Prop) (x : Except ε α) : Prop := ∀ e, x = .error e → d e

def Refuses (d : ε → Prop) (x : Except ε α) : Prop := ∃ e, x = .error e ∧ d e

@[simp] theorem keeps_ok (a : α) : Keeps d (Except.ok a) := by
  intro e h
  cases h

@[simp] theorem keeps_error {e : ε} : Keeps d (Except.error e : Except ε α) ↔ d e := by
  constructor
  · intro h
    exact h e rfl
  · intro h e' he
    cases he
    exact h

@[simp] theorem not_refuses_ok (a : α) : ¬ Refuses d (Except.ok a : Except ε α) := by
  intro h
  obtain ⟨_, he, _⟩ := h
  cases he

@[simp] theorem refuses_error {e : ε} : Refuses d (Except.error e : Except ε α) ↔ d e := by
  constructor
  · intro h
    obtain ⟨_, he, hd⟩ := h
    cases he
    exact hd
  · intro h
    exact ⟨e, rfl, h⟩

theorem ok_of_keeps (h : Keeps d x) (hnot : ¬ Refuses d x) : ∃ a, x = .ok a := by
  cases x with
  | ok a => exact ⟨a, rfl⟩
  | error e => exact absurd (refuses_error.mpr (keeps_error.mp h)) hnot

/-! ## One step after another -/

theorem keeps_bind : Keeps d (x >>= f) ↔ Keeps d x ∧ ∀ a, x = .ok a → Keeps d (f a) := by
  cases x with
  | error e =>
    show Keeps d (Except.error e : Except ε β) ↔ _
    simp
  | ok a =>
    show Keeps d (f a) ↔ _
    simp

theorem refuses_bind : Refuses d (x >>= f) ↔ Refuses d x ∨ ∃ a, x = .ok a ∧ Refuses d (f a) := by
  cases x with
  | error e =>
    show Refuses d (Except.error e : Except ε β) ↔ _
    simp
  | ok a =>
    show Refuses d (f a) ↔ _
    simp

theorem keeps_map {g : α → β} : Keeps d (x.map g) ↔ Keeps d x := by
  cases x <;> simp [Except.map]

theorem refuses_map {g : α → β} : Refuses d (x.map g) ↔ Refuses d x := by
  cases x <;> simp [Except.map]

/-! ## Computations that return -/

def Returns (x : Except ε α) : Prop := ∃ a, x = .ok a

@[simp] theorem returns_ok (a : α) : Returns (Except.ok a : Except ε α) := ⟨a, rfl⟩

@[simp] theorem not_returns_error (e : ε) : ¬ Returns (Except.error e : Except ε α) := by
  intro h
  obtain ⟨_, h⟩ := h
  cases h

theorem returns_bind : Returns (x >>= f) ↔ ∃ a, x = .ok a ∧ Returns (f a) := by
  cases x with
  | error e =>
    show Returns (Except.error e : Except ε β) ↔ _
    simp
  | ok a =>
    show Returns (f a) ↔ _
    simp

theorem returns_map {g : α → β} : Returns (x.map g) ↔ Returns x := by
  cases x <;> simp [Except.map]

/-- A step whose value nothing depends on. -/
theorem returns_bind_const {P : Prop} (h : ∀ a, Returns (f a) ↔ P) : Returns (x >>= f) ↔ Returns x ∧ P := by
  rw [returns_bind]
  constructor
  · intro hreturns
    obtain ⟨a, ha, hf⟩ := hreturns
    exact ⟨⟨a, ha⟩, (h a).mp hf⟩
  · intro hreturns
    obtain ⟨⟨a, ha⟩, hP⟩ := hreturns
    exact ⟨a, ha, (h a).mpr hP⟩

theorem returns_if {p : Prop} [Decidable p] {y : α} : Returns (if p then x else .ok y) ↔ (p → Returns x) := by
  by_cases hp : p
  · rw [if_pos hp]
    exact ⟨fun h _ => h, fun h => h hp⟩
  · rw [if_neg hp]
    exact iff_of_true (returns_ok y) fun h => absurd h hp

theorem returns_mapM : Returns (l.mapM f) ↔ ∀ a ∈ l, Returns (f a) := by
  induction l with
  | nil => simp [pure, Except.pure]
  | cons a l ih =>
    rw [List.mapM_cons, returns_bind_const (P := ∀ b ∈ l, Returns (f b)), List.forall_mem_cons]
    intro b
    rw [← ih, returns_bind, Returns]
    exact exists_congr fun bs => and_iff_left ⟨b :: bs, rfl⟩

/-! ## Loops -/

/-- An element that breaks what is declared stands behind a refused one. What an element does is read off
something that belongs to it. -/
theorem keeps_mapM_map {γ : Type} {g : α → γ} {P R : γ → Prop} (hkeeps : ∀ a ∈ l, (Keeps d (f a) ↔ P (g a)))
    (hrefuses : ∀ a ∈ l, P (g a) → (Refuses d (f a) ↔ R (g a))) :
    Keeps d (l.mapM f) ↔ ∀ front c back, l.map g = front ++ c :: back → (∀ b ∈ front, ¬ R b) → P c := by
  induction l with
  | nil => simp [pure, Except.pure]
  | cons b l ih =>
    have ih := ih (fun a ha => hkeeps a (.tail _ ha)) fun a ha => hrefuses a (.tail _ ha)
    rw [List.mapM_cons, keeps_bind, hkeeps b (.head _), List.map_cons]
    constructor
    · intro h front c back hl hfront
      cases front with
      | nil =>
        cases hl
        exact h.1
      | cons first front =>
        obtain ⟨rfl, htail⟩ := List.cons.inj hl
        have hnot := (hrefuses b (.head _) h.1).not.mpr (hfront _ (.head _))
        obtain ⟨r, hr⟩ := ok_of_keeps ((hkeeps b (.head _)).mpr h.1) hnot
        exact ih.mp (keeps_bind.mp (h.2 r hr)).1 front c back htail fun b hb => hfront b (.tail _ hb)
    · intro h
      have hb := h [] (g b) (l.map g) rfl (by simp)
      refine ⟨hb, ?_⟩
      intro r hr
      rw [keeps_bind]
      refine ⟨ih.mpr ?_, fun _ _ => keeps_ok _⟩
      intro front c back hl hfront
      apply h (g b :: front) c back (by rw [hl, List.cons_append])
      intro q hq
      rcases List.mem_cons.mp hq with rfl | hq
      · rw [← hrefuses b (.head _) hb, hr]
        exact not_refuses_ok r
      · exact hfront q hq

theorem keeps_mapM : Keeps d (l.mapM f) ↔
    ∀ front a back, l = front ++ a :: back → (∀ b ∈ front, ¬ Refuses d (f b)) → Keeps d (f a) := by
  have h := keeps_mapM_map (l := l) (g := id) (P := fun a => Keeps d (f a)) (R := fun a => Refuses d (f a))
    (fun _ _ => Iff.rfl) fun _ _ _ => Iff.rfl
  rwa [List.map_id] at h

theorem refuses_mapM (h : Keeps d (l.mapM f)) : Refuses d (l.mapM f) ↔ ∃ a ∈ l, Refuses d (f a) := by
  induction l with
  | nil => simp [pure, Except.pure]
  | cons b l ih =>
    rw [List.mapM_cons] at h ⊢
    obtain ⟨hb, htail⟩ := keeps_bind.mp h
    rw [refuses_bind]
    simp only [List.mem_cons, exists_eq_or_imp]
    apply or_congr_right'
    intro hnot
    obtain ⟨r, hr⟩ := ok_of_keeps hb hnot
    have hkeeps := (keeps_bind.mp (htail r hr)).1
    rw [← ih hkeeps]
    constructor
    · intro hrefused
      obtain ⟨_, _, hrest⟩ := hrefused
      rcases refuses_bind.mp hrest with hrest | hrest
      · exact hrest
      · obtain ⟨_, _, hpure⟩ := hrest
        exact absurd hpure (not_refuses_ok _)
    · intro hrefused
      exact ⟨r, hr, refuses_bind.mpr (.inl hrefused)⟩

theorem not_refuses_mapM (h : ∀ a ∈ l, ¬ Refuses d (f a)) : ¬ Refuses d (l.mapM f) := by
  induction l with
  | nil => exact not_refuses_ok _
  | cons b l ih =>
    rw [List.mapM_cons, refuses_bind]
    intro hrefused
    rcases hrefused with hb | ⟨r, _, hrest⟩
    · exact h b (.head _) hb
    · rcases refuses_bind.mp hrest with hrest | ⟨_, _, hpure⟩
      · exact ih (fun a ha => h a (.tail _ ha)) hrest
      · exact not_refuses_ok _ hpure

theorem keeps_mapM_of_not_refuses (h : ∀ a ∈ l, ¬ Refuses d (f a)) : Keeps d (l.mapM f) ↔
    ∀ a ∈ l, Keeps d (f a) := by
  rw [keeps_mapM]
  constructor
  · intro hall a ha
    obtain ⟨front, back, rfl⟩ := List.append_of_mem ha
    exact hall front a back rfl fun b hb => h b (List.mem_append_left _ hb)
  · intro hall front a back hl _
    exact hall a (by simp [hl])

/-- A loop whose steps read nothing of its state can read everything first. -/
theorem foldlM_eq_mapM (read : α → Except ε β) (store : σ → α → β → σ) (s : σ) :
    l.foldlM (fun s a => (read a).map (store s a)) s =
      (l.mapM read).map fun bs => (l.zip bs).foldl (fun s p => store s p.1 p.2) s := by
  induction l generalizing s with
  | nil => rfl
  | cons a l ih =>
    rw [List.foldlM_cons, List.mapM_cons]
    cases read a with
    | error e => rfl
    | ok b =>
      show l.foldlM _ (store s a b) = _
      rw [ih]
      show _ = Except.map _ (l.mapM read >>= fun bs => pure (b :: bs))
      cases l.mapM read <;> rfl

theorem keeps_forM {f : α → Except ε Unit} (h : ∀ a ∈ l, Keeps d (f a)) : Keeps d (l.forM f) := by
  induction l with
  | nil => exact keeps_ok _
  | cons a l ih =>
    show Keeps d (f a >>= fun _ => l.forM f)
    rw [keeps_bind]
    exact ⟨h a (.head _), fun _ _ => ih fun b hb => h b (.tail _ hb)⟩

/-! ## What is raised -/

/-- The computation without what it returns. -/
def raised (x : Except ε α) : Except ε Unit := x.map fun _ => ()

theorem keeps_raised : Keeps d (raised x) ↔ Keeps d x := keeps_map

/-- What is raised behind a step does not depend on what the step returns. -/
theorem raised_bind_const {y : Except ε Unit} (h : ∀ a, raised (f a) = y) :
    raised (x >>= f) = raised x >>= fun _ => y := by
  cases x with
  | error e => rfl
  | ok a => exact h a

theorem raised_mapM : raised (l.mapM f) = l.forM fun a => raised (f a) := by
  induction l with
  | nil => rfl
  | cons a l ih =>
    have htail : ∀ b, raised (l.mapM f >>= fun bs => (pure (b :: bs) : Except ε (List β))) = l.forM fun a =>
        raised (f a) := by
      intro b
      rw [raised_bind_const (y := pure ()) fun _ => rfl, ih]
      cases l.forM fun a => raised (f a) <;> rfl
    rw [List.mapM_cons, raised_bind_const htail]
    rfl

theorem forM_flatMap {γ : Type} {g : α → List γ} {f : γ → Except ε Unit} :
    (l.flatMap g).forM f = l.forM fun a => (g a).forM f := by
  induction l with
  | nil => rfl
  | cons a l ih =>
    have happend : (g a ++ l.flatMap g).forM f = (g a).forM f >>= fun _ => (l.flatMap g).forM f := List.forM_append
    rw [List.flatMap_cons, happend, ih]
    rfl

end Declared
