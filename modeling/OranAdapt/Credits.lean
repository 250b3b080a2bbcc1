import Mathlib.Data.Finset.Card

/-!
# Credits

Parties spend what they were granted before, one unit each. What was spent and
what the parties can still spend never exceed what was granted: stated for every
finite set of parties, so that there may be infinitely many of them.
-/

namespace Credits

variable {ι : Type} {holds holds' : ι → Prop} {spent granted granted' : Nat} {i : ι}

/-- Whatever the holders among finitely many parties spend next was granted. -/
def Covers (holds : ι → Prop) (spent granted : Nat) : Prop :=
  ∀ F : Finset ι, (∀ i ∈ F, holds i) → spent + F.card ≤ granted

theorem Covers.spent_le (h : Covers holds spent granted) : spent ≤ granted := by
  simpa using h ∅ (by simp)

theorem Covers.of_none (hnone : ∀ i, ¬holds i) (hle : spent ≤ granted) : Covers holds spent granted := by
  intro F hF
  have hempty : F = ∅ := Finset.eq_empty_of_forall_notMem fun i hi => hnone i (hF i hi)
  simpa [hempty] using hle

theorem Covers.mono (h : Covers holds spent granted) (hsub : ∀ i, holds' i → holds i) (hle : granted ≤ granted') :
    Covers holds' spent granted' := by
  intro F hF
  exact (h F fun i hi => hsub i (hF i hi)).trans hle

variable [DecidableEq ι]

theorem Covers.grant (h : Covers holds spent granted) (i : ι) (hsub : ∀ j, j ≠ i → holds' j → holds j) :
    Covers holds' spent (granted + 1) := by
  intro F hF
  have herase : spent + (F.erase i).card ≤ granted :=
    h _ fun j hj => hsub j (Finset.ne_of_mem_erase hj) (hF j (Finset.mem_of_mem_erase hj))
  have hcard : F.card ≤ (F.erase i).card + 1 := by
    have := F.pred_card_le_card_erase (a := i)
    omega
  omega

theorem Covers.insert (h : Covers holds spent granted) (hi : holds i) (hsub : ∀ j, holds' j → j ≠ i ∧ holds j)
    (F : Finset ι) (hF : ∀ j ∈ F, holds' j) : spent + F.card + 1 ≤ granted := by
  have hnot : i ∉ F := fun hmem => (hsub i (hF i hmem)).1 rfl
  have hinsert : spent + (Insert.insert i F).card ≤ granted := by
    apply h
    intro j hj
    rcases Finset.mem_insert.mp hj with rfl | hj
    · exact hi
    · exact (hsub j (hF j hj)).2
  rw [Finset.card_insert_of_notMem hnot] at hinsert
  omega

theorem Covers.spend (h : Covers holds spent granted) (hi : holds i) (hsub : ∀ j, holds' j → j ≠ i ∧ holds j) :
    Covers holds' (spent + 1) granted := by
  intro F hF
  have hinsert := h.insert hi hsub F hF
  omega

theorem Covers.refund (h : Covers holds spent granted) (hi : holds i) (hsub : ∀ j, holds' j → j ≠ i ∧ holds j) :
    Covers holds' spent (granted - 1) := by
  intro F hF
  have hinsert := h.insert hi hsub F hF
  omega

end Credits
