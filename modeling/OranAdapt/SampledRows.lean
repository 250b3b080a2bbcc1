import Mathlib.Algebra.Order.Floor.Div
import OranAdapt.ChangedReading

/-!
# Even samples

What `DataAccess.sample` picks of a version that is read to the end: all of its
rows, or as many as the limit at positions that are as far apart as they can be.
-/

namespace OranAdapt

namespace StreamAccess

open DataAccess Generator

/-- The loop picks the rows at its targets, in their order, and breaks at the last. -/
theorem sample_picks {rows : List Row} {index target : Nat} {wanted : List Nat} (before : List Row)
    (hsorted : (target :: wanted).Pairwise (· < ·)) (hindex : index ≤ target)
    (hin : ∀ t ∈ target :: wanted, t < index + rows.length) :
    ∃ made picked, loop sampleStep ⟨index, target, wanted, before⟩ rows = .done made ∧
      made.picked = before ++ picked ∧
      picked.Sublist rows ∧ picked.map some = (target :: wanted).map fun t => rows[t - index]? := by
  induction rows generalizing index target wanted before with
  | nil =>
    have := hin target List.mem_cons_self
    simp only [List.length_nil] at this
    omega
  | cons row rows ih =>
    have hlater : ∀ t, index < t → (row :: rows)[t - index]? = rows[t - (index + 1)]? := by
      intro t ht
      rw [show t - index = t - (index + 1) + 1 by omega, List.getElem?_cons_succ]
    have hrest : ∀ t ∈ target :: wanted, t < index + 1 + rows.length := by
      intro t ht
      have := hin t ht
      rw [List.length_cons] at this
      omega
    by_cases htarget : index = target
    · subst htarget
      cases wanted with
      | nil =>
        refine ⟨⟨index, index, [], before ++ [row]⟩, [row], ?_, rfl, ?_, ?_⟩
        · simp only [loop, sampleStep, if_pos]
        · exact List.singleton_sublist.mpr List.mem_cons_self
        · simp
      | cons next wanted =>
        obtain ⟨hfirst, hsorted⟩ := List.pairwise_cons.mp hsorted
        obtain ⟨made, picked, hloop, hmade, hsub, hpicked⟩ :=
          ih (before ++ [row]) hsorted (hfirst next List.mem_cons_self)
          fun t ht => hrest t (List.mem_cons_of_mem _ ht)
        refine ⟨made, row :: picked, ?_, ?_, hsub.cons_cons row, ?_⟩
        · simp only [loop, sampleStep, if_pos]
          exact hloop
        · rw [hmade, List.append_assoc, List.singleton_append]
        · show some row :: picked.map some = (row :: rows)[index - index]? :: (next :: wanted).map fun t =>
            (row :: rows)[t - index]?
          rw [hpicked, Nat.sub_self, List.getElem?_cons_zero]
          congr 1
          apply List.map_congr_left
          intro t ht
          exact (hlater t (hfirst t ht)).symm
    · obtain ⟨made, picked, hloop, hmade, hsub, hpicked⟩ := ih before hsorted (by omega) hrest
      refine ⟨made, picked, ?_, hmade, hsub.cons row, ?_⟩
      · simp only [loop, sampleStep, if_neg htarget]
        exact hloop
      · rw [hpicked]
        apply List.map_congr_left
        intro t ht
        have hle : target ≤ t := by
          rcases List.mem_cons.mp ht with rfl | hmem
          · exact le_refl _
          · exact le_of_lt (List.rel_of_pairwise_cons hsorted hmem)
        exact (hlater t (by omega)).symm

section
variable {sha256 : String → String} {access : StreamAccess} {db : Datastore} {dv : DataVersion} {rows : List Row}

theorem wanted_lt (access : StreamAccess) {total : Nat}
    (h : access.analysisMaxRows < total) : ∀ t ∈ access.wanted total, t < total := by
  have hpos := access.analysisMaxRows_pos
  intro t ht
  obtain ⟨k, hk, rfl⟩ := List.mem_map.mp ht
  rw [Nat.div_lt_iff_lt_mul hpos, Nat.mul_comm total]
  exact Nat.mul_lt_mul_of_pos_right (List.mem_range.mp hk) (by omega)

theorem yielded_of_drain {ε α : Type} {g : Generator ε α} {made : List α}
    (h : g.drain = .ok made) : g.yielded = made := by
  unfold drain ending at h
  split at h
  · exact Except.ok.inj h
  · cases h

theorem sample_some (hread : (access.iterRows sha256 db dv).yielded = rows) (htotal : rows.length = dv.rowCount)
    (hmore : access.analysisMaxRows < dv.rowCount) :
    ∃ picked, access.sample sha256 db dv = .ok picked ∧ picked.Sublist rows ∧
      picked.map some = (access.wanted dv.rowCount).map fun t => rows[t]? := by
  have hsorted := wanted_sorted access hmore
  have hin := wanted_lt access hmore
  have hpos := access.analysisMaxRows_pos
  rw [sample, if_neg (by omega)]
  cases hwanted : access.wanted dv.rowCount with
  | nil =>
    have hlength := congrArg List.length hwanted
    rw [wanted, List.length_map, List.length_range, List.length_nil] at hlength
    omega
  | cons target wanted =>
    rw [hwanted] at hsorted hin
    rw [← htotal] at hin
    obtain ⟨made, picked, hloop, hmade, hsub, hpicked⟩ := sample_picks [] hsorted (Nat.zero_le target)
      (by simpa using hin)
    refine ⟨picked, ?_, hsub, hpicked⟩
    simp only [Generator.consume, hread, hloop]
    rw [← List.nil_append picked, ← hmade]
    rfl

/-- Where the `k`-th pick stands -/
def position (total limit k : Nat) : Nat := k * total / limit

theorem ceilDiv_of_rest {total limit : Nat} (hpos : 0 < limit)
    (hrest : total % limit ≠ 0) : total ⌈/⌉ limit = total / limit + 1 := by
  rw [Nat.ceilDiv_eq_add_pred_div]
  have hsplit := Nat.div_add_mod total limit
  have hsmall := Nat.mod_lt total hpos
  apply Nat.div_eq_of_lt_le
  · rw [Nat.add_mul, Nat.one_mul, Nat.mul_comm]
    omega
  · rw [Nat.add_mul, Nat.add_mul, Nat.one_mul, Nat.mul_comm]
    omega

/-- From one pick to the next it is as far as the rows go into the limit, rounded down or up. -/
theorem position_step (total : Nat) {limit : Nat} (hpos : 0 < limit) (k : Nat) :
    position total limit (k + 1) = position total limit k + total / limit ∨
      position total limit (k + 1) = position total limit k + total ⌈/⌉ limit := by
  rw [position, position, Nat.add_mul, Nat.one_mul, Nat.add_div hpos]
  by_cases hcarry : limit ≤ k * total % limit + total % limit
  · have hrest : total % limit ≠ 0 := by
      have := Nat.mod_lt (k * total) hpos
      omega
    rw [if_pos hcarry, ceilDiv_of_rest hpos hrest]
    exact .inr rfl
  · rw [if_neg hcarry]
    exact .inl rfl

theorem position_lt {total limit : Nat} (hpos : 0 < limit) (h : limit < total) (k : Nat) :
    position total limit k < position total limit (k + 1) := by
  have hfloor : 0 < total / limit := Nat.div_pos h.le hpos
  have hceil : 0 < total ⌈/⌉ limit := by
    rw [Nat.ceilDiv_eq_add_pred_div]
    exact Nat.div_pos (by omega) hpos
  rcases position_step total hpos k with hstep | hstep
  · omega
  · omega

/-- All rows where they are few enough, and else as many as the limit, at even positions. -/
theorem sample_even (sha256 : String → String) (access : StreamAccess) (db : Datastore) (dv : DataVersion) {rows : List Row}
    (hread : (access.iterRows sha256 db dv).drain = .ok rows) (htotal : rows.length = dv.rowCount) :
    ∃ picked, access.sample sha256 db dv = .ok picked ∧ (dv.rowCount ≤ access.analysisMaxRows → picked = rows) ∧
      (access.analysisMaxRows < dv.rowCount → picked.length = access.analysisMaxRows ∧
        picked.Sublist rows ∧ picked[0]? = rows[0]? ∧
        (∀ k < access.analysisMaxRows, position dv.rowCount access.analysisMaxRows k < rows.length ∧
          picked[k]? = rows[position dv.rowCount access.analysisMaxRows k]?) ∧
        ∀ k, position dv.rowCount access.analysisMaxRows k < position dv.rowCount access.analysisMaxRows (k + 1) ∧
          (position dv.rowCount access.analysisMaxRows (k + 1) =
              position dv.rowCount access.analysisMaxRows k + dv.rowCount / access.analysisMaxRows ∨
            position dv.rowCount access.analysisMaxRows (k + 1) =
              position dv.rowCount access.analysisMaxRows k + dv.rowCount ⌈/⌉ access.analysisMaxRows)) := by
  have hpos := access.analysisMaxRows_pos
  by_cases hfew : dv.rowCount ≤ access.analysisMaxRows
  · refine ⟨rows, ?_, fun _ => rfl, fun hmore => absurd hmore (not_lt.mpr hfew)⟩
    rw [sample, if_pos hfew, hread]
  · have hmore := not_le.mp hfew
    obtain ⟨picked, hsample, hsub, hpicked⟩ := sample_some (yielded_of_drain hread) htotal hmore
    have hlength : picked.length = access.analysisMaxRows := by
      have := congrArg List.length hpicked
      simpa [wanted] using this
    have hat : ∀ k < access.analysisMaxRows, position dv.rowCount access.analysisMaxRows k < rows.length ∧
        picked[k]? = rows[position dv.rowCount access.analysisMaxRows k]? := by
      intro k hk
      have hin : position dv.rowCount access.analysisMaxRows k < rows.length := by
        rw [htotal]
        exact wanted_lt access hmore _ (List.mem_map_of_mem (List.mem_range.mpr hk))
      refine ⟨hin, ?_⟩
      have hget := congrArg (·[k]?) hpicked
      simp only [wanted, List.getElem?_map, List.getElem?_range hk,
        List.getElem?_eq_getElem (show k < picked.length by omega),
        Option.map_some, Option.some.injEq] at hget
      rw [List.getElem?_eq_getElem (by omega), hget]
      rfl
    refine ⟨picked, hsample, fun hle => absurd hle hfew, fun _ => ⟨hlength, hsub, ?_, hat, ?_⟩⟩
    · rw [(hat 0 hpos).2, position, Nat.zero_mul, Nat.zero_div]
    · intro k
      exact ⟨position_lt hpos hmore k, position_step _ hpos k⟩

end

def measuredWeek : List (DateTime × Payload) :=
  [0, 1, 2, 3, 4, 5, 6].map fun k : Fin 24 => (VersionCall.atHour k, ⟨[("x", .int k.val)], measure_wellFormed k.val⟩)

def weekVersion : DataVersion :=
  ⟨1, "kpi", "v1", .historical, none, 7, rowsDigest id measuredWeek, [("x", "int64")], [], .reference kpiReference⟩

/-- At most three rows of the object are analysed. -/
def threeOf : StreamAccess := { holding measuredWeek with analysisMaxRows := 3, analysisMaxRows_pos := Nat.succ_pos 2 }

/-- Of seven rows three are picked, two rows apart. -/
theorem sample_even_week : ∃ picked, threeOf.sample id {} weekVersion = .ok picked ∧ picked.length = 3 ∧
    ∀ k < 3, picked[k]? = (referenceRows weekVersion.id measuredWeek)[2 * k]? := by
  have hrows : threeOf.objectRows weekVersion kpiReference = ⟨measuredWeek, none⟩ := rfl
  have hend : threeOf.referenceEnd id weekVersion kpiReference true = none := by
    unfold referenceEnd
    rw [hrows]
    exact if_neg fun h => h.2 rfl
  have hread : (threeOf.iterRows id {} weekVersion).drain = .ok (referenceRows weekVersion.id measuredWeek) := by
    rw [iterRows]
    show (threeOf.iterReference id weekVersion kpiReference).drain = _
    rw [iterReference_checked true rfl, drain, ending, hend, hrows]
  obtain ⟨picked, hsample, -, hmore⟩ := sample_even id threeOf {} weekVersion hread rfl
  obtain ⟨hlength, -, -, hpicked, -⟩ := hmore (by decide)
  have hposition : ∀ k < 3, position weekVersion.rowCount threeOf.analysisMaxRows k = 2 * k := by decide
  refine ⟨picked, hsample, hlength, fun k hk => ?_⟩
  rw [(hpicked k hk).2, hposition k hk]

end StreamAccess

end OranAdapt
