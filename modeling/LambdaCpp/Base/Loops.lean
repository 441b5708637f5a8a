import Mathlib.Data.List.Induction

/-! # Loops That May Stop

    A loop over a list whose body may stop the program is `List.foldlM` in
    `Except`.

    * `ForLoop.append_ok`: a loop that went through went through its first
      part.
    * `ForLoop.invariant`: what holds before the loop and is kept by every
      round holds after it, for the elements gone through so far.
    * `ForLoop.error_iff`: a loop that was stopped, by the round that did it.
    * `ForLoop.component`: a loop that works on one part of its state only.
    * `lastWith`: where every round writes one entry of a table, the last
      element with a key decides what is under the key.
-/

namespace ForLoop

variable {ε σ α : Type _} {f : σ → α → Except ε σ}

/-- A program that went through went through its first step. -/
theorem bind_ok {β : Type _} {x : Except ε α} {g : α → Except ε β} {b : β} :
    x >>= g = .ok b ↔ ∃ a, x = .ok a ∧ g a = .ok b := by
  cases x with
  | error e =>
    show Except.error e = Except.ok b ↔ _
    simp
  | ok a =>
    show g a = .ok b ↔ _
    simp

theorem bind_error {β : Type _} {x : Except ε α} {g : α → Except ε β} {e : ε} :
    x >>= g = .error e ↔ x = .error e ∨ ∃ a, x = .ok a ∧ g a = .error e := by
  cases x with
  | error e' =>
    show Except.error e' = Except.error e ↔ _
    simp
  | ok a =>
    show g a = .error e ↔ _
    simp

theorem map_ok {β : Type _} {x : Except ε α} {g : α → β} {b : β} :
    x.map g = .ok b ↔ ∃ a, x = .ok a ∧ g a = b := by
  cases x with
  | error e => simp [Except.map]
  | ok a => simp [Except.map]

theorem map_error {β : Type _} {x : Except ε α} {e : ε} (g : α → β) :
    x.map g = .error e ↔ x = .error e := by
  cases x with
  | error e' => simp [Except.map]
  | ok a => simp [Except.map]

theorem append_ok {l l' : List α} {s s' : σ} :
    (l ++ l').foldlM f s = .ok s' ↔
      ∃ s₁, l.foldlM f s = .ok s₁ ∧ l'.foldlM f s₁ = .ok s' := by
  rw [List.foldlM_append]
  exact bind_ok

/-- **Invariant rule.** -/
theorem invariant {I : List α → σ → Prop} {l : List α} {s s' : σ} (hinit : I [] s)
    (hstep : ∀ pre a s₁ s₂, I pre s₁ → f s₁ a = .ok s₂ → I (pre ++ [a]) s₂)
    (h : l.foldlM f s = .ok s') : I l s' := by
  induction l using List.reverseRecOn generalizing s' with
  | nil =>
    obtain rfl : s = s' := Except.ok.inj h
    exact hinit
  | append_singleton l a ih =>
    obtain ⟨s₁, hl, ha⟩ := append_ok.mp h
    rw [List.foldlM_cons] at ha
    obtain ⟨s₂, hround, hnil⟩ := bind_ok.mp ha
    obtain rfl : s₂ = s' := Except.ok.inj hnil
    exact hstep l a s₁ s₂ (ih hl) hround

/-- A loop that was stopped was stopped in one of its rounds. -/
theorem error_iff {l : List α} {s : σ} {e : ε} : l.foldlM f s = .error e ↔
    ∃ pre a s₁, pre ++ [a] <+: l ∧ pre.foldlM f s = .ok s₁ ∧ f s₁ a = .error e := by
  constructor
  · intro h
    induction l generalizing s with
    | nil => cases h
    | cons a l ih =>
      rw [List.foldlM_cons] at h
      rcases bind_error.mp h with hround | ⟨s₁, hround, hrest⟩
      · exact ⟨[], a, s, by simp, rfl, hround⟩
      · obtain ⟨pre, b, s₂, hpre, hrun, hfails⟩ := ih hrest
        refine ⟨a :: pre, b, s₂, List.cons_prefix_cons.mpr ⟨rfl, hpre⟩, ?_, hfails⟩
        rw [List.foldlM_cons, hround]
        exact hrun
  · intro h
    obtain ⟨pre, a, s₁, ⟨post, rfl⟩, hrun, hfails⟩ := h
    rw [List.foldlM_append, List.foldlM_append, hrun]
    show (f s₁ a >>= _) >>= _ = _
    rw [hfails]
    rfl

/-- **A loop on one part of a larger state.**  Every round, named by `k`,
    takes the part out, works on it and puts it back; so does the loop. -/
theorem component {β τ : Type _} {g : τ → β → Except ε τ} {k : α → β} (part : τ → σ)
    (put : τ → σ → τ) (hpart : ∀ t s, part (put t s) = s) (hput : ∀ t s s', put (put t s) s' = put t s')
    (hsame : ∀ t, put t (part t) = t) (hround : ∀ t a, g t (k a) = (f (part t) a).map (put t))
    (l : List α) (t : τ) : (l.map k).foldlM g t = (l.foldlM f (part t)).map (put t) := by
  induction l generalizing t with
  | nil =>
    show Except.ok t = Except.ok (put t (part t))
    rw [hsame]
  | cons a l ih =>
    rw [List.map_cons, List.foldlM_cons, List.foldlM_cons, hround]
    match hfa : f (part t) a with
    | .error e => rfl
    | .ok s =>
      -- the rest of the loop begins with the part just put back
      have hput_t : put (put t s) = put t := funext (hput t s)
      show (l.map k).foldlM g (put t s) = (l.foldlM f s).map (put t)
      rw [ih, hpart, hput_t]

/-- One more element to choose from. -/
theorem exists_mem_concat {P : α → Prop} {l : List α} {a : α} :
    (∃ b ∈ l ++ [a], P b) ↔ (∃ b ∈ l, P b) ∨ P a := by
  simp only [List.mem_append, List.mem_singleton, or_and_right, exists_or, exists_eq_left]

theorem forall_mem_concat {P : α → Prop} {l : List α} {a : α} :
    (∀ b ∈ l ++ [a], P b) ↔ (∀ b ∈ l, P b) ∧ P a := by
  rw [List.forall_mem_append, List.forall_mem_singleton]

end ForLoop

section lastWith
variable {α κ : Type _} [DecidableEq κ]

/-- The last element with the key `k`. -/
def lastWith (key : α → κ) (k : κ) (l : List α) : Option α :=
  (l.filter fun a => key a = k).getLast?

variable {key : α → κ} {k : κ} {l : List α} {a : α}

theorem lastWith_concat :
    lastWith key k (l ++ [a]) = if key a = k then some a else lastWith key k l := by
  unfold lastWith
  split
  · next h => simp [h]
  · next h => simp [h]

theorem mem_of_lastWith (h : lastWith key k l = some a) : a ∈ l ∧ key a = k := by
  have hmem := List.mem_of_getLast? h
  simpa using hmem

end lastWith
