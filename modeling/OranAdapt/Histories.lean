import Mathlib.Data.List.Basic

/-!
# Linearizing a history

Calls on one shared object, each with the moments it was invoked and returned.
An order of effects linearizes the history when it has the effect of every call
that returned, does not turn the order of two calls in real time around, and
leads to the object's state. It may have the effect of a call that has not
returned. The lemmas say how an order grows with the history.
-/

namespace Histories

variable {σ Op Res Eff : Type}

/-- What calls may do to the object, one after the other. `allows` is what a call
with its result may have done. -/
structure Object (σ Op Res Eff : Type) where
  apply : σ → Eff → σ
  legal : σ → Eff → Prop
  allows : Op → Res → Eff → Prop

structure CallRecord (Op Res : Type) where
  op : Op
  invoked : Nat
  returned : Option (Nat × Res)

def Before (calls : List (CallRecord Op Res)) (a b : Nat) : Prop :=
  ∃ x y r, calls[a]? = some x ∧ calls[b]? = some y ∧ x.returned = some r ∧ r.1 < y.invoked

namespace Object

variable (O : Object σ Op Res Eff)

def Legal : σ → List Eff → Prop
  | _, [] => True
  | s, e :: es => O.legal s e ∧ Legal (O.apply s e) es

structure Linearizes (s₀ : σ) (calls : List (CallRecord Op Res)) (order : List (Nat × Eff)) (s : σ) : Prop where
  once : (order.map Prod.fst).Nodup
  completed : ∀ a x r, calls[a]? = some x → x.returned = some r → ∃ e, (a, e) ∈ order ∧ O.allows x.op r.2 e
  called : ∀ p ∈ order, ∃ x, calls[p.1]? = some x ∧ ∃ r, O.allows x.op r p.2
  realTime : order.Pairwise fun p q => ¬ Before calls q.1 p.1
  legal : O.Legal s₀ (order.map Prod.snd)
  outcome : (order.map Prod.snd).foldl O.apply s₀ = s

variable {O} {s₀ s : σ} {calls : List (CallRecord Op Res)} {order : List (Nat × Eff)} {a b : Nat} {e : Eff}
  {x : CallRecord Op Res}

theorem legal_append {es : List Eff} (h : O.Legal s₀ es) (he : O.legal (es.foldl O.apply s₀) e) :
    O.Legal s₀ (es ++ [e]) := by
  induction es generalizing s₀ with
  | nil => exact ⟨he, trivial⟩
  | cons d es ih => exact ⟨h.1, ih h.2 he⟩

namespace Linearizes

theorem empty (s₀ : σ) : O.Linearizes s₀ [] [] s₀ where
  once := List.nodup_nil
  completed := by
    intro a x r h
    simp at h
  called := by simp
  realTime := .nil
  legal := trivial
  outcome := rfl

theorem lt_length (h : O.Linearizes s₀ calls order s) {p : Nat × Eff} (hp : p ∈ order) : p.1 < calls.length := by
  obtain ⟨x, hx, -⟩ := h.called p hp
  exact (List.getElem?_eq_some_iff.mp hx).1

/-- A new call comes after everything that was ordered. -/
theorem invoke (h : O.Linearizes s₀ calls order s) (op : Op) (t : Nat) :
    O.Linearizes s₀ (calls ++ [⟨op, t, none⟩]) order s where
  once := h.once
  completed := by
    intro a x r hx hr
    by_cases ha : a < calls.length
    · rw [List.getElem?_append_left ha] at hx
      exact h.completed a x r hx hr
    · rw [List.getElem?_append_right (by omega)] at hx
      have hnew : x = ⟨op, t, none⟩ := by simpa [eq_comm] using (List.mem_of_getElem? hx)
      rw [hnew] at hr
      cases hr
  called := by
    intro p hp
    obtain ⟨x, hx, hall⟩ := h.called p hp
    exact ⟨x, by rw [List.getElem?_append_left (h.lt_length hp), hx], hall⟩
  realTime := by
    refine h.realTime.imp_of_mem ?_
    intro p q hp hq hno ⟨x, y, r, hx, hy, hr, hlt⟩
    rw [List.getElem?_append_left (h.lt_length hq)] at hx
    rw [List.getElem?_append_left (h.lt_length hp)] at hy
    exact hno ⟨x, y, r, hx, hy, hr, hlt⟩
  legal := h.legal
  outcome := h.outcome

theorem act (h : O.Linearizes s₀ calls order s) (hx : calls[a]? = some x) (hr : x.returned = none)
    (hnew : a ∉ order.map Prod.fst) (hlegal : O.legal s e) (hallows : ∃ r, O.allows x.op r e) :
    O.Linearizes s₀ calls (order ++ [(a, e)]) (O.apply s e) where
  once := by
    rw [List.map_append, List.nodup_append]
    refine ⟨h.once, by simp, ?_⟩
    intro b hb c hc
    have hca : c = a := by simpa using hc
    rw [hca]
    exact fun hba => hnew (hba ▸ hb)
  completed := by
    intro b y r hy hyr
    obtain ⟨e', he', hall⟩ := h.completed b y r hy hyr
    exact ⟨e', List.mem_append_left _ he', hall⟩
  called := by
    intro p hp
    rcases List.mem_append.mp hp with hp | hp
    · exact h.called p hp
    · rw [List.mem_singleton.mp hp]
      exact ⟨x, hx, hallows⟩
  realTime := by
    rw [List.pairwise_append]
    refine ⟨h.realTime, by simp, ?_⟩
    intro p _ q hq ⟨x', y, r, hx', _, hr', _⟩
    rw [List.mem_singleton.mp hq, hx] at hx'; cases hx'
    rw [hr] at hr'
    cases hr'
  legal := by
    rw [List.map_append]
    exact legal_append h.legal (by rw [h.outcome]; exact hlegal)
  outcome := by
    rw [List.map_append, List.foldl_append, h.outcome]
    rfl

theorem ret (h : O.Linearizes s₀ calls order s) (hx : calls[a]? = some x) (he : (a, e) ∈ order) {t : Nat} {r : Res}
    (hallows : O.allows x.op r e) (htime : ∀ y ∈ calls, y.invoked ≤ t) :
    O.Linearizes s₀ (calls.set a { x with returned := some (t, r) }) order s where
  once := h.once
  completed := by
    intro b y r' hy hr'
    rw [List.getElem?_set] at hy
    split at hy
    · rename_i hab
      subst hab
      split at hy
      · cases hy
        cases hr'
        exact ⟨e, he, hallows⟩
      · cases hy
    · exact h.completed b y r' hy hr'
  called := by
    intro p hp
    obtain ⟨y, hy, hall⟩ := h.called p hp
    by_cases hab : a = p.1
    · rw [← hab] at hy
      rw [hx] at hy; cases hy
      refine ⟨{ x with returned := some (t, r) }, ?_, hall⟩
      rw [← hab, List.getElem?_set_self (List.getElem?_eq_some_iff.mp hx).1]
    · exact ⟨y, by rw [List.getElem?_set_ne hab, hy], hall⟩
  realTime := by
    refine h.realTime.imp ?_
    intro p q hno ⟨x', y, r', hx', hy, hr', hlt⟩
    have hy' : ∃ y', calls[p.1]? = some y' ∧ y'.invoked = y.invoked := by
      by_cases hab : a = p.1
      · rw [← hab, List.getElem?_set_self (List.getElem?_eq_some_iff.mp hx).1] at hy
        cases hy
        exact ⟨x, hab ▸ hx, rfl⟩
      · rw [List.getElem?_set_ne hab] at hy
        exact ⟨y, hy, rfl⟩
    obtain ⟨y', hy', hinv⟩ := hy'
    by_cases hab : a = q.1
    · rw [← hab, List.getElem?_set_self (List.getElem?_eq_some_iff.mp hx).1] at hx'
      cases hx'
      cases hr'
      have := htime y' (List.mem_of_getElem? hy')
      simp only at hlt
      omega
    · rw [List.getElem?_set_ne hab] at hx'
      exact hno ⟨x', y', r', hx', hy', hr', by rw [hinv]; exact hlt⟩
  legal := h.legal
  outcome := h.outcome

end Linearizes

end Object

end Histories
