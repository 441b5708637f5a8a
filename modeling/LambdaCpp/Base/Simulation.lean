import Mathlib.Data.List.Forall2
import LambdaCpp.Base.System

/-! # Simulation

    One system does whatever another does, up to a relation on the states
    and one on the labels.

    * `Simulates.run`: every run of the one has a run of the other beside
      it, label by label.
    * `Simulates.interleave`: components that simulate others can be put in
      their place in any interleaving.
-/

namespace System

variable {C A LabelC LabelA : Type _}

/-- Every step of `c` has a step of `a` beside it. -/
structure Simulates (c : System C LabelC) (a : System A LabelA) (L : LabelC → LabelA → Prop)
    (R : C → A → Prop) : Prop where
  init : ∀ s, c.init s → ∃ s', a.init s' ∧ R s s'
  step : ∀ s s' l u, R s s' → c.step s l u → ∃ l' u', L l l' ∧ a.step s' l' u' ∧ R u u'

section
variable {c : System C LabelC} {a : System A LabelA} {L : LabelC → LabelA → Prop}
  {R : C → A → Prop}

/-- **Runs are simulated.** -/
theorem Simulates.run (h : Simulates c a L R) {tr : List LabelC} {s : C} (hrun : c.Run tr s) :
    ∃ tr' s', a.Run tr' s' ∧ List.Forall₂ L tr tr' ∧ R s s' := by
  induction hrun with
  | init hs =>
    obtain ⟨s', hs', hR⟩ := h.init _ hs
    exact ⟨[], s', Run.init hs', List.Forall₂.nil, hR⟩
  | @step tr s l u _ hstep ih =>
    obtain ⟨tr', s', hrun', htr, hR⟩ := ih
    obtain ⟨l', u', hl, hstep', hR'⟩ := h.step _ _ _ _ hR hstep
    have hlast : List.Forall₂ L [l] [l'] := List.Forall₂.cons hl List.Forall₂.nil
    exact ⟨tr' ++ [l'], u', Run.step hrun' hstep', List.rel_append htr hlast, hR'⟩

end

/-- **Interleavings are simulated** component by component. -/
theorem Simulates.interleave {ι : Type _} [DecidableEq ι] {c : ι → System C LabelC}
    {a : ι → System A LabelA} {L : LabelC → LabelA → Prop} {R : C → A → Prop}
    (h : ∀ i, Simulates (c i) (a i) L R) :
    Simulates (System.interleave c) (System.interleave a)
      (fun l l' => l.1 = l'.1 ∧ L l.2 l'.2) (fun s s' => ∀ i, R (s i) (s' i)) where
  init := by
    intro s hs
    have hcomponent : ∀ i, ∃ s', (a i).init s' ∧ R (s i) s' := fun i => (h i).init _ (hs i)
    choose s' hs' hR using hcomponent
    exact ⟨s', hs', hR⟩
  step := by
    intro s s' l u hR hstep
    obtain ⟨hmove, hframe⟩ := hstep
    obtain ⟨l', v, hl, hmove', hv⟩ := (h l.1).step _ _ _ _ (hR l.1) hmove
    refine ⟨(l.1, l'), Function.update s' l.1 v, ⟨rfl, hl⟩, interleave_step hmove', ?_⟩
    intro i
    by_cases hi : i = l.1
    · -- the component that moved
      subst hi
      rw [Function.update_self]
      exact hv
    · rw [Function.update_of_ne hi, hframe i hi]
      exact hR i

end System
