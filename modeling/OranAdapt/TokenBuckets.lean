import Mathlib.Algebra.Field.Rat
import Mathlib.Algebra.Order.Ring.Rat
import Mathlib.Tactic.FieldSimp
import Mathlib.Tactic.Linarith
import Mathlib.Tactic.Ring
import OranAdapt.Runs
import OranAdapt.SlidingWindow
import OranAdapt.Table

/-!
# Token buckets

`api.ratelimit`, in rational arithmetic: each key has a bucket that fills at a
steady rate up to its capacity, in a bounded map that drops the key used least
recently. What a bucket holds and what was taken from it since any moment
together never exceed the capacity and what has flowed in since.
-/

namespace OranAdapt

open Runs SlidingWindow

structure TokenBuckets where
  perMinute : Int
  burst : Int
  maxKeys : Nat
deriving DecidableEq, Repr

/-- `_buckets`, the key used least recently first: its tokens, and when it had them. -/
abbrev BucketMap := List (String × (ℚ × ℚ))

/-- A call of `take`: what it returns, the map it leaves, and the keys it dropped. -/
structure Taken where
  answer : ℚ
  buckets : BucketMap
  evicted : List String := []

namespace TokenBuckets

variable (b : TokenBuckets)

def rate : ℚ := b.perMinute / 60

def capacity : ℚ := max b.burst 1

def enabled : Bool := 0 < b.rate

def level (buckets : BucketMap) (key : String) (now : ℚ) : ℚ :=
  let (tokens, last) := (buckets.lookup key).getD (b.capacity, now)
  min b.capacity (tokens + (now - last) * b.rate)

def put (buckets : BucketMap) (key : String) (value : ℚ × ℚ) : BucketMap :=
  buckets.filter (fun p => p.1 ≠ key) ++ [(key, value)]

/-- `popitem(last=False)` while there are too many keys. -/
def evict : BucketMap → BucketMap × List String
  | [] => ([], [])
  | p :: ps => if b.maxKeys < (p :: ps).length then ((evict ps).1, p.1 :: (evict ps).2) else (p :: ps, [])

def retryAfter (buckets : BucketMap) (key : String) (now : ℚ) : ℚ :=
  let level := b.level buckets key now
  if 1 ≤ level ∨ b.enabled = false then 0 else (1 - level) / b.rate

def take (buckets : BucketMap) (key : String) (now : ℚ) : Taken :=
  if b.enabled = false then { answer := 0, buckets }
  else
    let level := b.level buckets key now
    if level < 1 then { answer := (1 - level) / b.rate, buckets := put buckets key (level, now) }
    else
      let kept := b.evict (put buckets key (level - 1, now))
      { answer := 0, buckets := kept.1, evicted := kept.2 }

/-! ## Calls -/

inductive Call where
  | take (key : String)
  | retryAfter (key : String)
deriving DecidableEq, Repr

structure Served where
  time : ℚ
  call : Call
  answer : ℚ
  evicted : List String
deriving DecidableEq

/-- The map, the last reading of the clock, and every call so far. -/
structure Limiter where
  buckets : BucketMap := []
  now : ℚ := 0
  log : List Served := []
deriving DecidableEq

def serve (s : Limiter) (now : ℚ) : Call → Limiter
  | .take key =>
    let r := b.take s.buckets key now
    { buckets := r.buckets, now, log := s.log ++ [⟨now, .take key, r.answer, r.evicted⟩] }
  | .retryAfter key => { s with now, log := s.log ++ [⟨now, .retryAfter key, b.retryAfter s.buckets key now, []⟩] }

/-- A call at a reading of the clock, which never goes back. -/
def step (s : Limiter) (a : ℚ × Call) : Option Limiter := if s.now ≤ a.1 then some (b.serve s a.1 a.2) else none

/-- The limiter after any sequence of calls, the clock starting anywhere. -/
def Reachable (s : Limiter) : Prop := ∃ start, Steps b.step Free { now := start } s

/-! ## What is promised of the limit -/

def accepted (key : String) (r : Served) : Nat := if r.call = .take key ∧ r.answer = 0 then 1 else 0

/-- The key stays in the map through the calls of an interval. -/
def Kept (log : List Served) (key : String) (start stop : ℚ) : Prop :=
  ∀ r ∈ log, start ≤ r.time → r.time ≤ stop → key ∉ r.evicted

instance (log : List Served) (key : String) (start stop : ℚ) : Decidable (Kept log key start stop) :=
  inferInstanceAs (Decidable (∀ r ∈ log, _))

/-- The calls made on the way from one state of the limiter to a later one. -/
def Between (s t : Limiter) (p : Served → Prop) : Prop := ∃ calls, t.log = s.log ++ calls ∧ ∀ r ∈ calls, p r

/-- `applies` says when the bound on an interval is promised. -/
structure LimitHolds (applies : Prop) : Prop where
  /-- In no interval are more takes of a key accepted than fit its capacity and what flows in meanwhile. -/
  window : applies → ∀ s, b.Reachable s → ∀ key start stop, start ≤ stop → Kept s.log key start stop →
    ((within Served.time (accepted key) start stop s.log : Nat) : ℚ) ≤ b.capacity + b.rate * (stop - start)
  /-- A refused take, asked for again with no take of the key in between, is accepted once its
  wait has passed and no earlier. -/
  waits : ∀ s, b.Reachable s → ∀ key now, s.now ≤ now → ∀ wait, (b.take s.buckets key now).answer = wait →
    wait ≠ 0 →
    ∀ t, Steps b.step Free (b.serve s now (.take key)) t →
    Between (b.serve s now (.take key)) t (fun r => r.call ≠ .take key ∧ key ∉ r.evicted) →
    ∀ later, t.now ≤ later → ((b.take t.buckets key later).answer = 0 ↔ now + wait ≤ later)
  /-- Asking how long to wait changes no bucket. -/
  asking : ∀ s now key, (b.serve s now (.retryAfter key)).buckets = s.buckets
  bounded : ∀ s, b.Reachable s → s.buckets.length ≤ b.maxKeys

/-! ## The map -/

section
variable {b : TokenBuckets} {buckets : BucketMap} {key other : String} {value : ℚ × ℚ} {now later : ℚ}

theorem lookup_put (buckets : BucketMap) (key : String) (value : ℚ × ℚ) (other : String) :
    (put buckets key value).lookup other = if other = key then some value else buckets.lookup other := by
  induction buckets with
  | nil =>
    by_cases h : other = key <;> simp [put, h]
  | cons p ps ih =>
    by_cases hp : p.1 = key
    · have hput : put (p :: ps) key value = put ps key value := by simp [put, hp]
      rw [hput, ih]
      by_cases h : other = key
      · simp [h]
      · rw [if_neg h, if_neg h, Table.lookup_cons_if, if_neg (by rw [hp]; exact h)]
    · have hput : put (p :: ps) key value = p :: put ps key value := by simp [put, hp]
      rw [hput, Table.lookup_cons_if, Table.lookup_cons_if, ih]
      by_cases h : other = p.1
      · rw [if_pos h, if_pos h, if_neg (by rw [h]; exact hp)]
      · rw [if_neg h, if_neg h]

theorem length_put (h : (buckets.lookup key).isSome = true)
    (value : ℚ × ℚ) : (put buckets key value).length ≤ buckets.length := by
  have hmem : ∃ p ∈ buckets, ¬decide (p.1 ≠ key) = true := by
    obtain ⟨v, hv⟩ := Option.isSome_iff_exists.mp h
    exact ⟨(key, v), Table.lookup_mem hv, by simp⟩
  have hlt := List.length_filter_lt_length_iff_exists.mpr hmem
  rw [put, List.length_append, List.length_singleton]
  exact hlt

theorem length_evict (buckets : BucketMap) : (b.evict buckets).1.length ≤ b.maxKeys := by
  induction buckets with
  | nil => exact Nat.zero_le _
  | cons p ps ih =>
    rw [evict]
    split
    · exact ih
    · rename_i h
      exact Nat.le_of_not_lt h

theorem lookup_evict (h : key ∉ (b.evict buckets).2) : (b.evict buckets).1.lookup key = buckets.lookup key := by
  induction buckets with
  | nil => rfl
  | cons p ps ih =>
    rw [evict] at h ⊢
    split
    · rename_i hlong
      rw [if_pos hlong, List.mem_cons, not_or] at h
      rw [ih h.2, Table.lookup_cons_if, if_neg h.1]
    · rfl

theorem mem_of_mem_evict {p : String × (ℚ × ℚ)} (h : p ∈ (b.evict buckets).1) : p ∈ buckets := by
  induction buckets with
  | nil => exact h
  | cons q qs ih =>
    rw [evict] at h
    split at h
    · exact List.mem_cons_of_mem _ (ih h)
    · exact h

theorem mem_of_mem_put {p : String × (ℚ × ℚ)}
    (h : p ∈ put buckets key value) : p ∈ buckets ∨ p = (key, value) := by
  rw [put, List.mem_append, List.mem_singleton] at h
  exact h.imp_left List.mem_of_mem_filter

/-! ## Levels -/

theorem one_le_capacity (b : TokenBuckets) : 1 ≤ b.capacity := by
  rw [capacity]
  exact_mod_cast le_max_right _ _

theorem level_le_capacity (buckets : BucketMap) (key : String) (now : ℚ) : b.level buckets key now ≤ b.capacity :=
  min_le_left _ _

theorem level_of_lookup (h : buckets.lookup key = some value) :
    b.level buckets key now = min b.capacity (value.1 + (now - value.2) * b.rate) := by
  rw [level, h]
  rfl

theorem level_of_absent (h : buckets.lookup key = none) : b.level buckets key now = b.capacity := by
  rw [level, h]
  simp

theorem level_congr {buckets' : BucketMap} (h : buckets'.lookup key = buckets.lookup key) :
    b.level buckets' key now = b.level buckets key now := by
  rw [level, h, level]

theorem rate_pos (h : b.enabled = true) : 0 < b.rate := of_decide_eq_true h

theorem level_later (hrate : 0 < b.rate) (h : now ≤ later) :
    b.level buckets key later ≤ b.level buckets key now + b.rate * (later - now) := by
  have hflow : 0 ≤ b.rate * (later - now) := mul_nonneg hrate.le (sub_nonneg.mpr h)
  cases hl : buckets.lookup key with
  | none =>
    rw [level_of_absent hl, level_of_absent hl]
    linarith
  | some value =>
    rw [level_of_lookup hl, level_of_lookup hl, ← min_add_add_right]
    apply le_min
    · exact (min_le_left _ _).trans (by linarith)
    · exact (min_le_right _ _).trans (by linarith)

theorem stored_of_refused (h : b.level buckets key now < 1) : (buckets.lookup key).isSome = true := by
  cases hl : buckets.lookup key with
  | none =>
    rw [level_of_absent hl] at h
    exact absurd (one_le_capacity b) (not_le.mpr h)
  | some value => rfl

theorem take_cases (henabled : b.enabled = true) (buckets : BucketMap) (key : String) (now : ℚ) :
    (b.level buckets key now < 1 ∧ b.take buckets key now =
        ⟨(1 - b.level buckets key now) / b.rate, put buckets key (b.level buckets key now, now), []⟩) ∨
      (1 ≤ b.level buckets key now ∧ b.take buckets key now =
        ⟨0, (b.evict (put buckets key (b.level buckets key now - 1, now))).1,
          (b.evict (put buckets key (b.level buckets key now - 1, now))).2⟩) := by
  rw [take, if_neg (by simp [henabled])]
  by_cases h : b.level buckets key now < 1
  · exact .inl ⟨h, by simp [h]⟩
  · exact .inr ⟨not_lt.mp h, by simp [h]⟩

theorem refused_answer (henabled : b.enabled = true) (h : b.level buckets key now < 1) :
    (1 - b.level buckets key now) / b.rate ≠ 0 :=
  ne_of_gt (div_pos (sub_pos.mpr h) (rate_pos henabled))

theorem lookup_take (henabled : b.enabled = true) (hne : other ≠ key) (h : other ∉ (b.take buckets key now).evicted) :
    (b.take buckets key now).buckets.lookup other = buckets.lookup other := by
  rcases take_cases henabled buckets key now with ⟨-, htake⟩ | ⟨-, htake⟩
  · rw [htake, lookup_put, if_neg hne]
  · rw [htake] at h ⊢
    rw [lookup_evict h, lookup_put, if_neg hne]

end

/-! ## One call -/

section
variable {b : TokenBuckets} {s s' : Limiter} {now : ℚ} {call : Call} {key : String}

def record (b : TokenBuckets) (s : Limiter) (now : ℚ) : Call → Served
  | .take key => ⟨now, .take key, (b.take s.buckets key now).answer, (b.take s.buckets key now).evicted⟩
  | .retryAfter key => ⟨now, .retryAfter key, b.retryAfter s.buckets key now, []⟩

@[simp] theorem serve_log : (b.serve s now call).log = s.log ++ [b.record s now call] := by cases call <;> rfl

@[simp] theorem serve_now : (b.serve s now call).now = now := by cases call <;> rfl

@[simp] theorem record_time : (b.record s now call).time = now := by cases call <;> rfl

@[simp] theorem record_call : (b.record s now call).call = call := by cases call <;> rfl

theorem step_cases {a : ℚ × Call} (h : b.step s a = some s') : s.now ≤ a.1 ∧ s' = b.serve s a.1 a.2 := by
  unfold step at h
  split at h
  · rename_i hnow
    exact ⟨hnow, (Option.some.inj h).symm⟩
  · cases h

/-- A call that neither takes nor drops a key leaves its bucket. -/
theorem lookup_serve (henabled : b.enabled = true) (hcall : call ≠ .take key) (h : key ∉ (b.record s now call).evicted) :
    (b.serve s now call).buckets.lookup key = s.buckets.lookup key := by
  cases call with
  | take other => exact lookup_take henabled (fun heq => hcall (heq ▸ rfl)) h
  | retryAfter other => rfl

theorem level_serve (henabled : b.enabled = true) (h : key ∉ (b.record s now call).evicted) :
    b.level (b.serve s now call).buckets key now + (accepted key (b.record s now call) : ℚ) ≤
      b.level s.buckets key now := by
  by_cases hcall : call = .take key
  · subst hcall
    have hlevel := level_le_capacity (b := b) s.buckets key now
    rcases take_cases henabled s.buckets key now with ⟨hlow, htake⟩ | ⟨hfull, htake⟩
    · have hbuckets : (b.serve s now (.take key)).buckets = put s.buckets key (b.level s.buckets key now, now) := by
        rw [serve, htake]
      have hrefused : accepted key (b.record s now (.take key)) = 0 := by
        rw [accepted, record, htake, if_neg (fun hr => refused_answer henabled hlow hr.2)]
      rw [hbuckets, hrefused, level_of_lookup (by rw [lookup_put, if_pos rfl])]
      simp [hlevel]
    · have hbuckets : (b.serve s now (.take key)).buckets =
          (b.evict (put s.buckets key (b.level s.buckets key now - 1, now))).1 := by
        rw [serve, htake]
      have haccepted : accepted key (b.record s now (.take key)) = 1 := by
        rw [accepted, record, htake, if_pos ⟨rfl, rfl⟩]
      rw [record, htake] at h
      rw [hbuckets, haccepted, level_of_lookup (by rw [lookup_evict h, lookup_put, if_pos rfl])]
      simp only [sub_self, zero_mul, add_zero, Nat.cast_one]
      have hmin := min_le_right b.capacity (b.level s.buckets key now - 1)
      linarith
  · have hnone : accepted key (b.record s now call) = 0 := by
      rw [accepted, record_call, if_neg (fun hr => hcall hr.1)]
    rw [hnone, level_congr (lookup_serve henabled hcall h), Nat.cast_zero, add_zero]

end

/-! ## Every interval -/

section
variable {b : TokenBuckets} {s : Limiter} {key : String} {start stop now : ℚ} {r : Served} {log : List Served}

theorem Kept.of_append (h : Kept (log ++ [r]) key start stop) : Kept log key start stop :=
  fun r hr => h r (List.mem_append_left _ hr)

theorem Kept.shorten {stop' : ℚ} (h : Kept log key start stop) (hle : stop' ≤ stop) : Kept log key start stop' :=
  fun r hr hstart hstop => h r hr hstart (hstop.trans hle)

/-- No bucket holds less than nothing, and nothing is from the future. -/
structure Sound (s : Limiter) : Prop where
  times : ∀ r ∈ s.log, r.time ≤ s.now
  stored : ∀ p ∈ s.buckets, 0 ≤ p.2.1 ∧ p.2.2 ≤ s.now

theorem Sound.level_nonneg (h : Sound s) (hrate : 0 < b.rate) (hnow : s.now ≤ now) : 0 ≤ b.level s.buckets key now := by
  have hcap := (zero_le_one (α := ℚ)).trans (one_le_capacity b)
  cases hl : s.buckets.lookup key with
  | none => rwa [level_of_absent hl]
  | some value =>
    obtain ⟨htokens, hlast⟩ := h.stored _ (Table.lookup_mem hl)
    simp only at htokens hlast
    rw [level_of_lookup hl]
    have hflow : 0 ≤ (now - value.2) * b.rate := mul_nonneg (by linarith) hrate.le
    exact le_min hcap (by linarith)

theorem Sound.serve (h : Sound s) (henabled : b.enabled = true) (call : Call) (hnow : s.now ≤ now) :
    Sound (b.serve s now call) where
  times := by
    intro r hr
    rw [serve_log, List.mem_append, List.mem_singleton] at hr
    rw [serve_now]
    rcases hr with hr | rfl
    · exact (h.times r hr).trans hnow
    · rw [record_time]
  stored := by
    have hold : ∀ p ∈ s.buckets, 0 ≤ p.2.1 ∧ p.2.2 ≤ now := fun p hp =>
      ⟨(h.stored p hp).1, (h.stored p hp).2.trans hnow⟩
    intro p hp
    rw [serve_now]
    cases call with
    | retryAfter key => exact hold p hp
    | take key =>
      have hlevel : 0 ≤ b.level s.buckets key now := h.level_nonneg (rate_pos henabled) hnow
      rcases take_cases henabled s.buckets key now with ⟨-, htake⟩ | ⟨hfull, htake⟩
      · rw [TokenBuckets.serve, htake] at hp
        rcases mem_of_mem_put hp with hp | rfl
        · exact hold p hp
        · exact ⟨hlevel, le_rfl⟩
      · rw [TokenBuckets.serve, htake] at hp
        rcases mem_of_mem_put (mem_of_mem_evict hp) with hp | rfl
        · exact hold p hp
        · exact ⟨sub_nonneg.mpr hfull, le_rfl⟩

/-- What holds after every call while the limit is on. -/
structure Inv (b : TokenBuckets) (s : Limiter) : Prop extends Sound s where
  /-- What is left and what was taken never exceed the capacity and what flowed in. -/
  flow : ∀ key start, start ≤ s.now → Kept s.log key start s.now →
    b.level s.buckets key s.now + (within Served.time (accepted key) start s.now s.log : Nat) ≤
      b.capacity + b.rate * (s.now - start)
  window : ∀ key start stop, start ≤ stop → Kept s.log key start stop →
    ((within Served.time (accepted key) start stop s.log : Nat) : ℚ) ≤ b.capacity + b.rate * (stop - start)

theorem Inv.init (start : ℚ) (hrate : 0 < b.rate) : Inv b { now := start } where
  times := by
    intro r hr
    cases hr
  stored := by
    intro p hp
    cases hp
  flow := by
    intro key from_ hle _
    have hflow : 0 ≤ b.rate * (start - from_) := mul_nonneg hrate.le (sub_nonneg.mpr hle)
    have hlevel := level_le_capacity (b := b) [] key start
    simp only [within, List.filter_nil, List.map_nil, List.sum_nil, Nat.cast_zero, add_zero]
    linarith
  window := by
    intro key from_ stop hle _
    have hflow : 0 ≤ b.rate * (stop - from_) := mul_nonneg hrate.le (sub_nonneg.mpr hle)
    have hcap := (zero_le_one (α := ℚ)).trans (one_le_capacity b)
    simp only [within, List.filter_nil, List.map_nil, List.sum_nil, Nat.cast_zero]
    linarith

theorem Inv.flow_at (h : Inv b s) (hrate : 0 < b.rate) (hnow : s.now ≤ now) (hstart : start ≤ now)
    (hkept : Kept s.log key start now) :
    b.level s.buckets key now + (within Served.time (accepted key) start now s.log : Nat) ≤
      b.capacity + b.rate * (now - start) := by
  by_cases hle : start ≤ s.now
  · have hflow := h.flow key start hle (hkept.shorten hnow)
    have hlater : b.level s.buckets key now ≤ b.level s.buckets key s.now + b.rate * (now - s.now) := level_later hrate hnow
    rw [within_congr (fun r hr => ⟨(h.times r hr).trans hnow, h.times r hr⟩)]
    have hsplit : b.rate * (now - start) = b.rate * (s.now - start) + b.rate * (now - s.now) := by ring
    linarith
  · rw [within_eq_zero (fun r hr => (h.times r hr).trans_lt (not_le.mp hle)), Nat.cast_zero, add_zero]
    have hflow : 0 ≤ b.rate * (now - start) := mul_nonneg hrate.le (sub_nonneg.mpr hstart)
    exact (level_le_capacity _ _ _).trans (by linarith)

theorem Inv.flow_serve (h : Inv b s) (henabled : b.enabled = true) (call : Call) (hnow : s.now ≤ now)
    (hstart : start ≤ now)
    (hkept : Kept (b.serve s now call).log key start now) :
    b.level (b.serve s now call).buckets key now +
        (within Served.time (accepted key) start now (b.serve s now call).log : Nat) ≤
      b.capacity + b.rate * (now - start) := by
  rw [serve_log] at hkept ⊢
  have hrecord : key ∉ (b.record s now call).evicted :=
    hkept _ (List.mem_append_right _ (List.mem_singleton_self _)) (by rwa [record_time]) (by rw [record_time])
  have hflow := h.flow_at (rate_pos henabled) hnow hstart hkept.of_append
  have hlevel := level_serve henabled hrecord
  rw [within_append, if_pos ⟨by rwa [record_time], by rw [record_time]⟩, Nat.cast_add]
  linarith

theorem Inv.serve (h : Inv b s) (henabled : b.enabled = true) (call : Call) (hnow : s.now ≤ now) :
    Inv b (b.serve s now call) := by
  have hsound := h.toSound.serve henabled call hnow
  refine ⟨hsound, ?_, ?_⟩
  · intro key start hstart hkept
    rw [serve_now] at hstart hkept ⊢
    exact h.flow_serve henabled call hnow hstart hkept
  · intro key start stop hle hkept
    have htimes := hsound.times
    rw [serve_now] at htimes
    by_cases hstop : now ≤ stop
    · by_cases hstart : start ≤ now
      · have hflow := h.flow_serve henabled call hnow hstart (hkept.shorten hstop)
        have hleft : 0 ≤ b.level (b.serve s now call).buckets key now :=
          hsound.level_nonneg (rate_pos henabled) (by rw [serve_now])
        have hmore : b.rate * (now - start) ≤ b.rate * (stop - start) :=
          mul_le_mul_of_nonneg_left (by linarith) (rate_pos henabled).le
        rw [within_congr (fun r hr => ⟨(htimes r hr).trans hstop, htimes r hr⟩)]
        linarith
      · have hflow : 0 ≤ b.rate * (stop - start) := mul_nonneg (rate_pos henabled).le (sub_nonneg.mpr hle)
        have hcap := (zero_le_one (α := ℚ)).trans (one_le_capacity b)
        rw [within_eq_zero (fun r hr => (htimes r hr).trans_lt (not_le.mp hstart)), Nat.cast_zero]
        linarith
    · rw [serve_log] at hkept ⊢
      rw [within_append, if_neg (by rw [record_time]; exact fun hr => hstop hr.2), add_zero]
      exact h.window key start stop hle hkept.of_append

/-- The limit's invariant holds after any sequence of calls. -/
theorem Reachable.inv (henabled : b.enabled = true) (h : b.Reachable s) : Inv b s := by
  obtain ⟨start, hsteps⟩ := h
  refine hsteps.inv (Inv b) ?_ (Inv.init start (rate_pos henabled))
  intro s a s' hs _ hstep
  obtain ⟨hnow, rfl⟩ := step_cases hstep
  exact hs.serve henabled a.2 hnow

/-! ## The size of the map -/

theorem length_take (buckets : BucketMap) (hlength : buckets.length ≤ b.maxKeys) :
    (b.take buckets key now).buckets.length ≤ b.maxKeys := by
  by_cases henabled : b.enabled = true
  · rcases take_cases henabled buckets key now with ⟨hlow, htake⟩ | ⟨-, htake⟩
    · rw [htake]
      exact (length_put (stored_of_refused hlow) _).trans hlength
    · rw [htake]
      exact length_evict _
  · rw [take, if_pos (Bool.eq_false_iff.mpr henabled)]
    exact hlength

theorem Reachable.bounded (h : b.Reachable s) : s.buckets.length ≤ b.maxKeys := by
  obtain ⟨start, hsteps⟩ := h
  refine hsteps.inv (fun s => s.buckets.length ≤ b.maxKeys) ?_ (Nat.zero_le _)
  intro s a s' hs _ hstep
  obtain ⟨-, rfl⟩ := step_cases hstep
  cases a.2 with
  | take key => exact length_take s.buckets hs
  | retryAfter key => exact hs

/-! ## Waiting -/

/-- Calls that neither take nor drop a key leave its bucket. -/
theorem lookup_steps (henabled : b.enabled = true) {t : Limiter} (h : Steps b.step Free s t)
    (hbetween : Between s t fun r => r.call ≠ .take key ∧ key ∉ r.evicted) :
    t.buckets.lookup key = s.buckets.lookup key := by
  have hrun : ∃ calls, t.log = s.log ++ calls ∧
      ((∀ r ∈ calls, r.call ≠ .take key ∧ key ∉ r.evicted) → t.buckets.lookup key = s.buckets.lookup key) := by
    refine h.inv (fun t => ∃ calls, t.log = s.log ++ calls ∧
      ((∀ r ∈ calls, r.call ≠ .take key ∧ key ∉ r.evicted) → t.buckets.lookup key = s.buckets.lookup key)) ?_
      ⟨[], (List.append_nil _).symm, fun _ => rfl⟩
    rintro t a t' ⟨calls, hlog, hsame⟩ - hstep
    obtain ⟨-, rfl⟩ := step_cases hstep
    refine ⟨calls ++ [b.record t a.1 a.2], by rw [serve_log, hlog, List.append_assoc], fun hall => ?_⟩
    have hlast := hall _ (List.mem_append_right _ (List.mem_singleton_self _))
    rw [record_call] at hlast
    rw [lookup_serve henabled hlast.1 hlast.2]
    exact hsame fun r hr => hall r (List.mem_append_left _ hr)
  obtain ⟨calls, hlog, hsame⟩ := hrun
  obtain ⟨calls', hlog', hall⟩ := hbetween
  rw [hlog, List.append_cancel_left_eq] at hlog'
  subst hlog'
  exact hsame hall

theorem take_answer_eq_zero (henabled : b.enabled = true) (buckets : BucketMap) :
    (b.take buckets key now).answer = 0 ↔ 1 ≤ b.level buckets key now := by
  rcases take_cases henabled buckets key now with ⟨hlow, htake⟩ | ⟨hfull, htake⟩
  · rw [htake]
    exact ⟨fun h => absurd h (refused_answer henabled hlow), fun h => absurd hlow (not_lt.mpr h)⟩
  · rw [htake]
    exact ⟨fun _ => hfull, fun _ => rfl⟩

/-- A bucket that held less than a token holds one when the time it lacks has passed. -/
theorem one_le_level (hrate : 0 < b.rate) {buckets : BucketMap} {tokens last : ℚ}
    (h : buckets.lookup key = some (tokens, last)) : 1 ≤ b.level buckets key now ↔
      last + (1 - tokens) / b.rate ≤ now := by
  have hcap := one_le_capacity b
  rw [level_of_lookup h, le_min_iff, and_iff_right hcap, ← le_sub_iff_add_le', div_le_iff₀ hrate, sub_le_iff_le_add']

theorem enabled_of_wait {buckets : BucketMap} (h : (b.take buckets key now).answer ≠ 0) : b.enabled = true := by
  by_contra henabled
  rw [take, if_pos (Bool.eq_false_iff.mpr henabled)] at h
  exact h rfl

theorem waits {wait : ℚ} (hwait : (b.take s.buckets key now).answer = wait) (hne : wait ≠ 0)
    {t : Limiter} (ht : Steps b.step Free (b.serve s now (.take key)) t)
    (hbetween : Between (b.serve s now (.take key)) t fun r => r.call ≠ .take key ∧ key ∉ r.evicted) (later : ℚ) :
    (b.take t.buckets key later).answer = 0 ↔ now + wait ≤ later := by
  have henabled : b.enabled = true := enabled_of_wait (hwait ▸ hne)
  rcases take_cases henabled s.buckets key now with ⟨-, htake⟩ | ⟨-, htake⟩
  · have hstored : t.buckets.lookup key = some (b.level s.buckets key now, now) := by
      rw [lookup_steps henabled ht hbetween, serve, htake]
      exact (lookup_put _ _ _ _).trans (if_pos rfl)
    rw [take_answer_eq_zero henabled, one_le_level (rate_pos henabled) hstored, ← hwait, htake]
  · rw [htake] at hwait
    exact absurd hwait.symm hne

end

/-- A limit holds, its bound on intervals where it is of more than nothing a minute. -/
theorem limit_holds (b : TokenBuckets) : b.LimitHolds (0 < b.perMinute) := by
  refine ⟨?_, ?_, fun _ _ _ => rfl, fun s hs => hs.bounded⟩
  · intro hpos s hs key start stop hle hkept
    have henabled : b.enabled = true := decide_eq_true (div_pos (Int.cast_pos.mpr hpos) (by norm_num))
    exact (hs.inv henabled).window key start stop hle hkept
  · intro s _ key now _ wait hwait hne t ht hbetween later _
    exact waits hwait hne ht hbetween later

def twoTakes : List Served := [⟨0, .take "a", 0, []⟩, ⟨0, .take "a", 0, []⟩]

/-- With nothing a minute the limit is off, and takes are accepted beyond the capacity. -/
theorem limit_off : ¬LimitHolds ⟨0, 1, 3⟩ True := by
  intro h
  have hfirst : step ⟨0, 1, 3⟩ {} (0, .take "a") = some { log := twoTakes.take 1 } := by decide +kernel
  have hsecond : step ⟨0, 1, 3⟩ { log := twoTakes.take 1 } (0, .take "a") = some { log := twoTakes } := by decide +kernel
  have hreach : Reachable ⟨0, 1, 3⟩ { log := twoTakes } :=
    ⟨0, .tail (.tail (.refl _) trivial hfirst) trivial hsecond⟩
  have hwindow := h.window trivial _ hreach "a" 0 0 le_rfl (by decide +kernel)
  have htwo : within Served.time (accepted "a") 0 0 twoTakes = 2 := by decide +kernel
  rw [htwo] at hwindow
  norm_num [capacity, rate] at hwindow

end TokenBuckets

end OranAdapt
