import Mathlib.Data.Finset.Card
import Mathlib.Data.Finset.Interval
import Mathlib.Order.Interval.Finset.Nat

/-! # Streaks

    How often something has happened since it was last interrupted.  Along
    a sequence of moments, some are `counted` and some are a `reset`;
    `streak` counts the former that no reset has followed yet.

    The definition looks back over the whole past; the lemmas give the
    three ways it changes from one moment to the next, which is all that a
    counter in a program can see.
-/

section streak
variable (counted reset : Nat → Bool)

/-- No reset from `j` on, before `k`. -/
def Unbroken (k j : Nat) : Prop := ∀ i ∈ Finset.Ico j k, reset i = false

instance (k j : Nat) : Decidable (Unbroken reset k j) := Finset.decidableDforallFinset

/-- The counted moments before `k` since the last reset before `k`. -/
def streak (k : Nat) : Nat :=
  ((Finset.range k).filter fun j => counted j = true ∧ Unbroken reset k j).card

variable {counted reset} {k : Nat}

/-- A reset clears the streak. -/
theorem streak_succ_of_reset (h : reset k = true) : streak counted reset (k + 1) = 0 := by
  unfold streak
  rw [Finset.card_eq_zero, Finset.filter_eq_empty_iff]
  intro j hj hcounted
  have hjk : j < k + 1 := Finset.mem_range.mp hj
  have hreset : reset k = false := hcounted.2 k (Finset.mem_Ico.mpr ⟨by omega, by omega⟩)
  rw [h] at hreset
  cases hreset

theorem unbroken_succ_iff (hreset : reset k = false) {j : Nat} :
    Unbroken reset (k + 1) j ↔ Unbroken reset k j := by
  constructor
  · intro h i hi
    rw [Finset.mem_Ico] at hi
    exact h i (Finset.mem_Ico.mpr ⟨hi.1, by omega⟩)
  · intro h i hi
    rw [Finset.mem_Ico] at hi
    by_cases hik : i = k
    · rw [hik]
      exact hreset
    · exact h i (Finset.mem_Ico.mpr ⟨hi.1, by omega⟩)

/-- Before a moment that is no reset, what was counted stays counted. -/
theorem filter_streak_succ (hreset : reset k = false) :
    (Finset.range k).filter (fun j => counted j = true ∧ Unbroken reset (k + 1) j) =
      (Finset.range k).filter fun j => counted j = true ∧ Unbroken reset k j := by
  apply Finset.filter_congr
  intro j _
  rw [unbroken_succ_iff hreset]

/-- A counted moment prolongs the streak. -/
theorem streak_succ_of_counted (hcounted : counted k = true) (hreset : reset k = false) :
    streak counted reset (k + 1) = streak counted reset k + 1 := by
  unfold streak
  rw [Finset.range_add_one, Finset.filter_insert, if_pos, filter_streak_succ hreset,
    Finset.card_insert_of_notMem]
  · intro hmem
    exact Finset.notMem_range_self (Finset.mem_filter.mp hmem).1
  · refine ⟨hcounted, ?_⟩
    intro i hi
    rw [Finset.mem_Ico] at hi
    rw [show i = k by omega]
    exact hreset

/-- Any other moment leaves the streak as it is. -/
theorem streak_succ_of_neither (hcounted : counted k = false) (hreset : reset k = false) :
    streak counted reset (k + 1) = streak counted reset k := by
  unfold streak
  rw [Finset.range_add_one, Finset.filter_insert, if_neg, filter_streak_succ hreset]
  rw [hcounted]
  exact fun h => Bool.false_ne_true h.1

end streak
