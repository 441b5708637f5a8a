import Mathlib.Logic.Function.Basic
import Mathlib.Data.List.Nodup

/-! # Lifetimes

    Things that are constructed and destroyed by hand, each known by the
    number of its construction.

    * `Ledger`: how many were constructed, and which were destroyed, in
      order.
    * `Ledger.Balanced`: owners hold exactly the things that were
      constructed and not yet destroyed, no two of them the same.
    * `Balanced.construct`, `Balanced.destroy`: what keeps the balance.
    * `Balanced.settled`: once no owner holds anything, everything was
      destroyed exactly once.
    * `Stored`: a table of what is alive, kept beside the ledger.
-/

structure Ledger where
  constructed : Nat
  destroyed : List Nat

namespace Ledger

def empty : Ledger := ⟨0, []⟩

/-- The next thing is constructed; it is number `l.constructed`. -/
def construct (l : Ledger) : Ledger := { l with constructed := l.constructed + 1 }

def destroy (l : Ledger) (id : Nat) : Ledger := { l with destroyed := l.destroyed ++ [id] }

variable {ι : Type _}

/-- The owners hold what is alive. -/
structure Balanced (l : Ledger) (owns : ι → Option Nat) : Prop where
  owned_lt : ∀ i id, owns i = some id → id < l.constructed
  owned_once : ∀ i j id, owns i = some id → owns j = some id → i = j
  owned_alive : ∀ i id, owns i = some id → id ∉ l.destroyed
  destroyed_lt : ∀ id ∈ l.destroyed, id < l.constructed
  destroyed_once : l.destroyed.Nodup
  accounted : ∀ id, id < l.constructed → id ∈ l.destroyed ∨ ∃ i, owns i = some id

namespace Balanced
variable {l : Ledger} {owns owns' : ι → Option Nat}

theorem empty : Ledger.empty.Balanced (fun _ : ι => none) where
  owned_lt := by simp
  owned_once := by simp
  owned_alive := by simp
  destroyed_lt := by simp [Ledger.empty]
  destroyed_once := by simp [Ledger.empty]
  accounted := by simp [Ledger.empty]

variable [DecidableEq ι]

/-- Whoever holds nothing can take the next thing. -/
theorem construct (h : l.Balanced owns) {i : ι} (hi : owns i = none) :
    l.construct.Balanced (Function.update owns i (some l.constructed)) := by
  -- a holder after the step is the new one, or an old one with an older thing
  have hcases : ∀ j id, Function.update owns i (some l.constructed) j = some id →
      (j = i ∧ id = l.constructed) ∨ (j ≠ i ∧ owns j = some id ∧ id < l.constructed) := by
    intro j id hj
    by_cases hji : j = i
    · subst hji
      rw [Function.update_self, Option.some.injEq] at hj
      exact Or.inl ⟨rfl, hj.symm⟩
    · rw [Function.update_of_ne hji] at hj
      exact Or.inr ⟨hji, hj, h.owned_lt j id hj⟩
  refine ⟨?_, ?_, ?_, ?_, h.destroyed_once, ?_⟩
  · intro j id hj
    show id < l.constructed + 1
    rcases hcases j id hj with ⟨-, rfl⟩ | ⟨-, -, hlt⟩ <;> omega
  · intro j k id hj hk
    rcases hcases j id hj with ⟨rfl, hid⟩ | ⟨-, hj, hlt⟩
    · rcases hcases k id hk with ⟨rfl, -⟩ | ⟨-, -, hlt⟩
      · rfl
      · omega
    · rcases hcases k id hk with ⟨-, hid⟩ | ⟨-, hk, -⟩
      · omega
      · exact h.owned_once j k id hj hk
  · intro j id hj hmem
    rcases hcases j id hj with ⟨-, rfl⟩ | ⟨-, hj, -⟩
    · exact absurd (h.destroyed_lt _ hmem) (Nat.lt_irrefl _)
    · exact h.owned_alive j id hj hmem
  · intro id hid
    exact Nat.lt_succ_of_lt (h.destroyed_lt id hid)
  · intro id hid
    rcases Nat.lt_succ_iff_lt_or_eq.mp hid with hlt | rfl
    · rcases h.accounted id hlt with hmem | ⟨j, hj⟩
      · exact Or.inl hmem
      · have hji : j ≠ i := by
          rintro rfl
          rw [hi] at hj
          cases hj
        exact Or.inr ⟨j, by rw [Function.update_of_ne hji]; exact hj⟩
    · exact Or.inr ⟨i, Function.update_self ..⟩

/-- What a holder gives up is destroyed. -/
theorem destroy (h : l.Balanced owns) {i : ι} {id : Nat} (hi : owns i = some id) :
    (l.destroy id).Balanced (Function.update owns i none) := by
  -- the other holders keep what they had, which is something else
  have hcases : ∀ j id', Function.update owns i none j = some id' →
      j ≠ i ∧ owns j = some id' ∧ id' ≠ id := by
    intro j id' hj
    by_cases hji : j = i
    · subst hji
      rw [Function.update_self] at hj
      cases hj
    · rw [Function.update_of_ne hji] at hj
      refine ⟨hji, hj, ?_⟩
      rintro rfl
      exact hji (h.owned_once j i id' hj hi)
  have hmem : ∀ id', id' ∈ (l.destroy id).destroyed ↔ id' ∈ l.destroyed ∨ id' = id := by
    intro id'
    show id' ∈ l.destroyed ++ [id] ↔ _
    simp
  refine ⟨?_, ?_, ?_, ?_, ?_, ?_⟩
  · intro j id' hj
    exact h.owned_lt j id' (hcases j id' hj).2.1
  · intro j k id' hj hk
    exact h.owned_once j k id' (hcases j id' hj).2.1 (hcases k id' hk).2.1
  · intro j id' hj hdestroyed
    obtain ⟨-, hj, hne⟩ := hcases j id' hj
    rcases (hmem id').mp hdestroyed with hold | rfl
    · exact h.owned_alive j id' hj hold
    · exact hne rfl
  · intro id' hdestroyed
    rcases (hmem id').mp hdestroyed with hold | rfl
    · exact h.destroyed_lt id' hold
    · exact h.owned_lt i id' hi
  · show (l.destroyed ++ [id]).Nodup
    rw [List.nodup_append_comm]
    exact List.nodup_cons.mpr ⟨h.owned_alive i id hi, h.destroyed_once⟩
  · intro id' hlt
    rcases h.accounted id' hlt with hold | ⟨j, hj⟩
    · exact Or.inl ((hmem id').mpr (Or.inl hold))
    · by_cases hji : j = i
      · subst hji
        rw [hi, Option.some.injEq] at hj
        exact Or.inl ((hmem id').mpr (Or.inr hj.symm))
      · exact Or.inr ⟨j, by rw [Function.update_of_ne hji]; exact hj⟩

omit [DecidableEq ι] in
/-- **Nothing leaks and nothing is destroyed twice**: with no holder left,
    everything constructed was destroyed exactly once. -/
theorem settled (h : l.Balanced owns) (hnone : ∀ i, owns i = none) :
    ∀ id, id < l.constructed → l.destroyed.count id = 1 := by
  intro id hid
  rcases h.accounted id hid with hmem | ⟨i, hi⟩
  · exact List.count_eq_one_of_mem h.destroyed_once hmem
  · rw [hnone i] at hi
    cases hi

end Balanced

/-! ## Contents -/

section contents
variable {ι α : Type _}

/-- The table has an entry for what has an owner, and no other. -/
def Stored (table : Nat → Option α) (owns : ι → Option Nat) : Prop :=
  ∀ id, (table id).isSome = true ↔ ∃ i, owns i = some id

variable {table : Nat → Option α} {l : Ledger} {owns : ι → Option Nat}

/-- Writing to an entry that is there. -/
theorem Stored.write (h : Stored table owns) {id : Nat} {old new : α} (hid : table id = some old) :
    Stored (Function.update table id (some new)) owns := by
  intro other
  rw [← h]
  by_cases ho : other = id
  · rw [ho, Function.update_self, hid]
    exact iff_of_true rfl rfl
  · rw [Function.update_of_ne ho]

variable [DecidableEq ι]

/-- An entry for the next thing. -/
theorem Stored.construct (h : Stored table owns) {i : ι} (hi : owns i = none) (new : α) :
    Stored (Function.update table l.constructed (some new))
      (Function.update owns i (some l.constructed)) := by
  intro id
  by_cases hnew : id = l.constructed
  · subst hnew
    rw [Function.update_self]
    exact iff_of_true rfl ⟨i, Function.update_self ..⟩
  · rw [Function.update_of_ne hnew, h]
    constructor
    · intro hold
      obtain ⟨j, hj⟩ := hold
      have hji : j ≠ i := by
        rintro rfl
        rw [hi] at hj
        cases hj
      exact ⟨j, by rw [Function.update_of_ne hji]; exact hj⟩
    · intro hold
      obtain ⟨j, hj⟩ := hold
      by_cases hji : j = i
      · subst hji
        rw [Function.update_self] at hj
        exact absurd (Option.some.inj hj).symm hnew
      · rw [Function.update_of_ne hji] at hj
        exact ⟨j, hj⟩

/-- The entry goes with its owner. -/
theorem Stored.destroy (h : Stored table owns) (hbalanced : l.Balanced owns) {i : ι} {id : Nat}
    (hi : owns i = some id) :
    Stored (Function.update table id none) (Function.update owns i none) := by
  intro other
  by_cases ho : other = id
  · subst ho
    rw [Function.update_self]
    refine iff_of_false (by simp) ?_
    intro hother
    obtain ⟨j, hj⟩ := hother
    by_cases hji : j = i
    · rw [hji, Function.update_self] at hj
      cases hj
    · rw [Function.update_of_ne hji] at hj
      exact hji (hbalanced.owned_once j i other hj hi)
  · rw [Function.update_of_ne ho, h]
    constructor
    · intro hother
      obtain ⟨j, hj⟩ := hother
      have hji : j ≠ i := by
        rintro rfl
        rw [hi] at hj
        exact ho (Option.some.inj hj).symm
      exact ⟨j, by rw [Function.update_of_ne hji]; exact hj⟩
    · intro hother
      obtain ⟨j, hj⟩ := hother
      by_cases hji : j = i
      · rw [hji, Function.update_self] at hj
        cases hj
      · rw [Function.update_of_ne hji] at hj
        exact ⟨j, hj⟩

end contents

end Ledger
