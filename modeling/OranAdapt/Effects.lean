import Mathlib.Order.Basic

/-!
# Programs that raise and that stop

A program over an outside state ends in one of three ways: it returns, it
raises an exception that a handler may catch, or its process stops, which no
handler sees and no cleanup survives. `Ensures` is what holds at each of the
three ends, and the rules below compute it along the program.
-/

namespace Effects

inductive Ended (ε α : Type) where
  | done (a : α)
  | raised (e : ε)
  | stopped

def Ended.returned {ε α : Type} : Ended ε α → Bool
  | done _ => true
  | _ => false

def Act (σ ε α : Type) : Type := σ → Ended ε α × σ

variable {σ τ ε α β : Type}

namespace Act

def bind (m : Act σ ε α) (f : α → Act σ ε β) : Act σ ε β := fun s =>
  match m s with
  | (.done a, s') => f a s'
  | (.raised e, s') => (.raised e, s')
  | (.stopped, s') => (.stopped, s')

instance : Monad (Act σ ε) where
  pure a := fun s => (.done a, s)
  bind := bind

instance : LawfulMonad (Act σ ε) := by
  refine LawfulMonad.mk' _ (fun m => ?_) (fun _ _ => rfl) (fun m f g => ?_)
  · funext s
    change bind m _ s = m s
    unfold bind
    cases m s with
    | mk o s' => cases o <;> rfl
  · funext s
    change bind (bind m f) g s = bind m _ s
    unfold bind
    cases m s with
    | mk o s' => cases o <;> rfl

def raise (e : ε) : Act σ ε α := fun s => (.raised e, s)

def get : Act σ ε σ := fun s => (.done s, s)

def modify (f : σ → σ) : Act σ ε Unit := fun s => (.done (), f s)

def handle (m : Act σ ε α) (h : ε → Act σ ε α) : Act σ ε α := fun s =>
  match m s with
  | (.done a, s') => (.done a, s')
  | (.raised e, s') => h e s'
  | (.stopped, s') => (.stopped, s')

def andFinally (m : Act σ ε α) (c : Act σ ε Unit) : Act σ ε α := fun s =>
  match m s with
  | (.done a, s') => bind c (fun _ => pure a) s'
  | (.raised e, s') => bind c (fun _ => raise e) s'
  | (.stopped, s') => (.stopped, s')

def skipIf (c : Prop) [Decidable c] (m : Act σ ε Unit) : Act σ ε Unit := if c then pure () else m

/-- Run on a part of the state. -/
def within (get : σ → τ) (put : σ → τ → σ) (m : Act τ ε α) : Act σ ε α := fun s =>
  ((m (get s)).1, put s (m (get s)).2)

/-- The state a run leaves, however it ends. -/
def after (m : Act σ ε α) (s : σ) : σ := (m s).2

end Act

/-- Two guarded blocks agree when what follows each of their ends does. -/
theorem Act.handle_bind_congr {γ δ : Type} {m : Act σ ε α} {a : β} {b : γ} {h : ε → Act σ ε β}
    {h' : ε → Act σ ε γ}
    {k : β → Act σ ε δ} {k' : γ → Act σ ε δ} (hdone : k a = k' b) (hraised : ∀ e, (h e >>= k) = (h' e >>= k')) :
    ((m >>= fun _ => pure a).handle h >>= k) = ((m >>= fun _ => pure b).handle h' >>= k') := by
  funext s
  change Act.bind (handle (Act.bind m _) h) k s = Act.bind (handle (Act.bind m _) h') k' s
  simp only [Act.bind, handle]
  cases m s with
  | mk o s' =>
    cases o with
    | done _ => exact congrFun hdone s'
    | raised e => exact congrFun (hraised e) s'
    | stopped => rfl

/-- What a call meets: it works, it raises before or after it took effect, or
the process stops before it. -/
inductive Fate (ε : Type) where
  | ok
  | before (e : ε)
  | after (e : ε)
  | stop
deriving DecidableEq

def Fate.map (f : ε → τ) : Fate ε → Fate τ
  | ok => .ok
  | before e => .before (f e)
  | after e => .after (f e)
  | stop => .stop

/-- A call that works also takes effect when its answer is lost. -/
def Fate.takesEffect : Fate ε → Bool
  | ok | after _ => true
  | before _ | stop => false

def perform (f : Fate ε) (act : σ → Except ε (α × σ)) : Act σ ε α := fun s =>
  match f, act s with
  | .stop, _ => (.stopped, s)
  | .before e, _ => (.raised e, s)
  | .ok, .ok (a, s') => (.done a, s')
  | .after e, .ok (_, s') => (.raised e, s')
  | _, .error e => (.raised e, s)

/-! ## What holds at the end -/

def Ensures (m : Act σ ε α) (s : σ) (D : α → σ → Prop) (R : ε → σ → Prop) (S : σ → Prop) : Prop :=
  match m s with
  | (.done a, s') => D a s'
  | (.raised e, s') => R e s'
  | (.stopped, s') => S s'

theorem Ensures.self (m : Act σ ε α) (s : σ) : Ensures m s (fun a s' => m s = (.done a, s'))
    (fun e s' => m s = (.raised e, s')) fun s' => m s = (.stopped, s') := by
  unfold Ensures
  split <;> assumption

theorem Ensures.of_done {m : Act σ ε α} {s s' : σ} {a : α} {D : α → σ → Prop}
    {R : ε → σ → Prop} {S : σ → Prop}
    (hm : m s = (.done a, s')) (hD : D a s') : Ensures m s D R S := by
  unfold Ensures
  rw [hm]
  exact hD

theorem Ensures.elim_done {m : Act σ ε α} {s s' : σ} {a : α} {D : α → σ → Prop}
    {R : ε → σ → Prop} {S : σ → Prop}
    (h : Ensures m s D R S) (hm : m s = (.done a, s')) : D a s' := by
  unfold Ensures at h
  rw [hm] at h
  exact h

def Keeps (I : σ → Prop) (m : Act σ ε α) : Prop := ∀ s, I s → Ensures m s (fun _ => I) (fun _ => I) I

namespace Ensures

variable {m : Act σ ε α} {s : σ} {D D' D₀ : α → σ → Prop} {R R' R₀ : ε → σ → Prop}
  {S S' S₀ : σ → Prop}

theorem mono (h : Ensures m s D R S) (hD : ∀ a s', D a s' → D' a s') (hR : ∀ e s', R e s' → R' e s')
    (hS : ∀ s', S s' → S' s') : Ensures m s D' R' S' := by
  unfold Ensures at *
  split at h
  · exact hD _ _ h
  · exact hR _ _ h
  · exact hS _ h

theorem and (h : Ensures m s D R S) (h' : Ensures m s D' R' S') :
    Ensures m s (fun a s' => D a s' ∧ D' a s') (fun e s' => R e s' ∧ R' e s') (fun s' => S s' ∧ S' s') := by
  unfold Ensures at *
  cases hm : m s with
  | mk o s' => rw [hm] at h h'; cases o <;> exact ⟨h, h'⟩

theorem ret {a : α} (h : D a s) : Ensures (pure a : Act σ ε α) s D R S := h

theorem raise {e : ε} (h : R e s) : Ensures (Act.raise e : Act σ ε α) s D R S := h

theorem get {D : σ → σ → Prop} (h : D s s) : Ensures (Act.get : Act σ ε σ) s D R S := h

theorem modify {D : Unit → σ → Prop} {f : σ → σ} (h : D () (f s)) :
    Ensures (Act.modify f : Act σ ε Unit) s D R S := h

theorem bind {f : α → Act σ ε β} {D : β → σ → Prop}
    (h : Ensures m s (fun a s' => Ensures (f a) s' D R S) R S) : Ensures (m >>= f) s D R S := by
  change Ensures (Act.bind m f) s D R S
  unfold Ensures Act.bind at *
  cases hm : m s with
  | mk o s' => rw [hm] at h; cases o <;> exact h

theorem handle {g : ε → Act σ ε α}
    (h : Ensures m s D (fun e s' => Ensures (g e) s' D R S) S) : Ensures (m.handle g) s D R S := by
  unfold Ensures Act.handle at *
  cases hm : m s with
  | mk o s' => rw [hm] at h; cases o <;> exact h

theorem andFinally {c : Act σ ε Unit}
    (h : Ensures m s (fun a s' => Ensures c s' (fun _ s'' => D a s'') R S)
      (fun e s' => Ensures c s' (fun _ s'' => R e s'') R S) S) : Ensures (m.andFinally c) s D R S := by
  have hm : Ensures m s (fun a s' => m.andFinally c s = (c >>= fun _ => pure a) s')
      (fun e s' => m.andFinally c s = (c >>= fun _ => Act.raise e) s')
      (fun s' => m.andFinally c s = (.stopped, s')) := by
    unfold Ensures Act.andFinally
    cases m s with
    | mk o s' => cases o <;> rfl
  have hend := h.and hm
  unfold Ensures at hend
  split at hend
  · obtain ⟨hc, he⟩ := hend
    unfold Ensures
    rw [he]
    exact bind (f := fun _ => pure _) hc
  · obtain ⟨hc, he⟩ := hend
    unfold Ensures
    rw [he]
    exact bind (f := fun _ => Act.raise _) hc
  · obtain ⟨hs, he⟩ := hend
    unfold Ensures
    rw [he]; exact hs

theorem skipIf {c : Prop} [Decidable c] {m : Act σ ε Unit} {D : Unit → σ → Prop} (hc : c → D () s)
    (h : ¬ c → Ensures m s D R S) : Ensures (Act.skipIf c m) s D R S := by
  unfold Act.skipIf
  split
  · rename_i h'; exact hc h'
  · rename_i h'; exact h h'

theorem within {m : Act τ ε α} {get : σ → τ} {put : σ → τ → σ}
    (h : Ensures m (get s) (fun a t => D a (put s t)) (fun e t => R e (put s t)) (fun t => S (put s t))) :
    Ensures (m.within get put) s D R S := by
  unfold Ensures Act.within at *
  cases hm : m (get s) with
  | mk o t => rw [hm] at h; cases o <;> exact h

theorem perform {f : Fate ε} {act : σ → Except ε (α × σ)}
    (hok : ∀ a s', act s = .ok (a, s') → (f = .ok → D a s') ∧ ∀ e, f = .after e → R e s')
    (herr : ∀ e, R e s) (hstop : f = .stop → S s) : Ensures (perform f act) s D R S := by
  unfold Ensures Effects.perform
  cases hf : f with
  | stop => exact hstop hf
  | before e => exact herr e
  | ok =>
    cases ha : act s with
    | ok p => exact (hok p.1 p.2 ha).1 hf
    | error e => exact herr e
  | after e =>
    cases ha : act s with
    | ok p => exact (hok p.1 p.2 ha).2 e hf
    | error e => exact herr e

/-! ### Exactly -/

theorem iff_done {a : α} {s' : σ} (hm : m s = (.done a, s')) : Ensures m s D R S ↔ D a s' := by
  unfold Ensures
  rw [hm]

theorem iff_raised {e : ε} {s' : σ} (hm : m s = (.raised e, s')) : Ensures m s D R S ↔ R e s' := by
  unfold Ensures
  rw [hm]

theorem bind_iff {f : α → Act σ ε β} {D : β → σ → Prop} :
    Ensures (m >>= f) s D R S ↔ Ensures m s (fun a s' => Ensures (f a) s' D R S) R S := by
  change Ensures (Act.bind m f) s D R S ↔ _
  unfold Ensures Act.bind
  cases m s with
  | mk o s' => cases o <;> rfl

theorem handle_iff {g : ε → Act σ ε α} :
    Ensures (m.handle g) s D R S ↔ Ensures m s D (fun e s' => Ensures (g e) s' D R S) S := by
  unfold Ensures Act.handle
  cases m s with
  | mk o s' => cases o <;> rfl

theorem andFinally_iff {c : Act σ ε Unit} : Ensures (m.andFinally c) s D R S ↔
    Ensures m s (fun a s' => Ensures c s' (fun _ s'' => D a s'') R S)
      (fun e s' => Ensures c s' (fun _ s'' => R e s'') R S) S := by
  unfold Ensures Act.andFinally Act.bind
  cases m s with
  | mk o s' =>
    cases o with
    | stopped => rfl
    | _ =>
      dsimp only
      cases c s' with
      | mk o s'' => cases o <;> rfl

/-- Ends that agree where the run may end. -/
theorem iff_of (h : Ensures m s D₀ R₀ S₀) (hD : ∀ a s', D₀ a s' → (D a s' ↔ D' a s'))
    (hR : ∀ e s', R₀ e s' → (R e s' ↔ R' e s')) (hS : ∀ s', S₀ s' → (S s' ↔ S' s')) :
    Ensures m s D R S ↔ Ensures m s D' R' S' := by
  unfold Ensures at *
  split at h
  · exact hD _ _ h
  · exact hR _ _ h
  · exact hS _ h

/-- A run that ends in `P` either way leaves a state in `P`. -/
theorem after {P : σ → Prop} (h : Ensures m s (fun _ => P) (fun _ => P) P) : P (m.after s) := by
  unfold Ensures at h
  unfold Act.after
  split at h <;> simp_all

end Ensures

namespace Keeps

variable {I : σ → Prop} {m : Act σ ε α}

theorem ret (a : α) : Keeps I (pure a : Act σ ε α) := fun _ h => .ret h

theorem raise (e : ε) : Keeps I (Act.raise e : Act σ ε α) := fun _ h => .raise h

theorem modify {f : σ → σ} (hf : ∀ s, I s → I (f s)) : Keeps I (Act.modify f : Act σ ε Unit) :=
  fun s h => .modify (hf s h)

theorem bind {f : α → Act σ ε β} (hm : Keeps I m) (hf : ∀ a, Keeps I (f a)) : Keeps I (m >>= f) :=
  fun s h => .bind ((hm s h).mono (fun a s' h' => hf a s' h') (fun _ _ h' => h') fun _ h' => h')

/-- What is read is the state the rest starts in. -/
theorem get {f : σ → Act σ ε β} (hf : ∀ s, Keeps I (f s)) : Keeps I (Act.get >>= f) :=
  fun s h => .bind (.get (hf s s h))

theorem handle {g : ε → Act σ ε α} (hm : Keeps I m) (hg : ∀ e, Keeps I (g e)) : Keeps I (m.handle g) :=
  fun s h => .handle ((hm s h).mono (fun _ _ h' => h') (fun e s' h' => hg e s' h') fun _ h' => h')

theorem skipIf {c : Prop} [Decidable c] {m : Act σ ε Unit} (hm : ¬ c → Keeps I m) : Keeps I (Act.skipIf c m) :=
  fun s h => .skipIf (fun _ => h) fun hc => hm hc s h

theorem perform {f : Fate ε} {act : σ → Except ε (α × σ)} (hact : ∀ s a s', I s → act s = .ok (a, s') → I s') :
    Keeps I (perform f act) :=
  fun s h => .perform (fun a s' ha => ⟨fun _ => hact s a s' h ha, fun _ _ => hact s a s' h ha⟩) (fun _ => h) fun _ => h

theorem after (hm : Keeps I m) {s : σ} (h : I s) : I (m s).2 := Ensures.after (hm s h)

end Keeps

end Effects
