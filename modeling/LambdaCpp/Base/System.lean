import Mathlib.Data.List.Basic
import Mathlib.Logic.Function.Basic

/-! # Labelled Transition Systems

    * `System`: initial states and labelled steps.
    * `Run`: the finite runs from an initial state, with the labels taken.
    * `Run.invariant`: the induction rule for properties of the labels and
      the state reached.
    * `Since`: what was done since the last label that undoes everything.
    * `interleave`: components that take their steps in any order, each
      touching only its own state.  A run of the whole projects to a run
      of each component (`Run.project`), so what holds of every run of a
      component holds of it in every interleaving.
-/

structure System (State : Type _) (Label : Type _) where
  init : State → Prop
  step : State → Label → State → Prop

namespace System

variable {State Label : Type _}

/-- `sys.Run tr s`: some run from an initial state takes the labels `tr`
    and ends in `s`. -/
inductive Run (sys : System State Label) : List Label → State → Prop where
  | init : ∀ {s}, sys.init s → Run sys [] s
  | step : ∀ {tr s l s'}, Run sys tr s → sys.step s l s' → Run sys (tr ++ [l]) s'

/-- **Invariant rule**: what holds initially and is kept by every step
    holds after every run. -/
theorem Run.invariant {sys : System State Label} {I : List Label → State → Prop}
    (hinit : ∀ s, sys.init s → I [] s)
    (hstep : ∀ tr s l s', I tr s → sys.step s l s' → I (tr ++ [l]) s')
    {tr : List Label} {s : State} (h : sys.Run tr s) : I tr s := by
  induction h with
  | init hs => exact hinit _ hs
  | step _ hl ih => exact hstep _ _ _ _ ih hl

/-- Where an occurrence of a label lies in a run that took one more step. -/
theorem append_singleton_eq_iff {tr pre post : List Label} {l e : Label} :
    tr ++ [l] = pre ++ e :: post ↔
      (post = [] ∧ tr = pre ∧ l = e) ∨ ∃ post', post = post' ++ [l] ∧ tr = pre ++ e :: post' := by
  constructor
  · intro h
    rcases List.eq_nil_or_concat post with rfl | ⟨post', x, rfl⟩
    · -- the new label itself
      left
      have := List.append_inj' h rfl
      simpa using this
    · -- a label of the run before
      right
      rw [List.concat_eq_append, ← List.cons_append, ← List.append_assoc] at h
      obtain ⟨htr, hx⟩ := List.append_inj' h rfl
      simp only [List.cons.injEq, and_true] at hx
      exact ⟨post', by rw [hx, List.concat_eq_append], htr⟩
  · intro h
    rcases h with ⟨rfl, rfl, rfl⟩ | ⟨post', rfl, rfl⟩
    · rfl
    · simp

/-- The last step of a run. -/
theorem run_concat {sys : System State Label} {tr : List Label} {l : Label} {s' : State} :
    sys.Run (tr ++ [l]) s' ↔ ∃ s, sys.Run tr s ∧ sys.step s l s' := by
  constructor
  · intro h
    generalize hlabels : tr ++ [l] = labels at h
    cases h with
    | init => simp at hlabels
    | @step tr' s l' _ hrun hstep =>
      obtain ⟨rfl, hl⟩ := List.append_inj' hlabels rfl
      obtain rfl := List.singleton_inj.mp hl
      exact ⟨s, hrun, hstep⟩
  · intro h
    obtain ⟨s, hrun, hstep⟩ := h
    exact Run.step hrun hstep

/-! ## Since the last reset -/

/-- Some label that no reset followed, and that is none itself, has `P`. -/
def Since (reset P : Label → Prop) (tr : List Label) : Prop :=
  ∃ pre l post, tr = pre ++ l :: post ∧ P l ∧ ∀ m ∈ l :: post, ¬ reset m

theorem not_since_nil {reset P : Label → Prop} : ¬ Since reset P [] := by
  rintro ⟨pre, l, post, hsplit, -⟩
  simp at hsplit

/-- One more label: a reset forgets everything before it. -/
theorem since_concat {reset P : Label → Prop} {tr : List Label} {l : Label} :
    Since reset P (tr ++ [l]) ↔ ¬ reset l ∧ (Since reset P tr ∨ P l) := by
  constructor
  · intro h
    obtain ⟨pre, e, post, hsplit, hP, hnone⟩ := h
    rcases append_singleton_eq_iff.mp hsplit with ⟨rfl, rfl, rfl⟩ | ⟨post', rfl, rfl⟩
    · exact ⟨hnone _ (by simp), Or.inr hP⟩
    · refine ⟨hnone l (by simp), Or.inl ⟨pre, e, post', rfl, hP, ?_⟩⟩
      intro m hm
      exact hnone m (List.mem_append_left [l] hm)
  · intro h
    obtain ⟨hl, ⟨pre, e, post, rfl, hP, hnone⟩ | hP⟩ := h
    · refine ⟨pre, e, post ++ [l], by simp, hP, ?_⟩
      rw [← List.cons_append, List.forall_mem_append]
      exact ⟨hnone, by simpa using hl⟩
    · exact ⟨tr, l, [], rfl, hP, by simpa using hl⟩

/-! ## Interleaving -/

section interleave
variable {ι : Type _} [DecidableEq ι]

/-- Components that step one at a time, each on its own state. -/
def interleave (sys : ι → System State Label) : System (ι → State) (ι × Label) where
  init := fun s => ∀ i, (sys i).init (s i)
  step := fun s l s' =>
    (sys l.1).step (s l.1) l.2 (s' l.1) ∧ ∀ j, j ≠ l.1 → s' j = s j

/-- The labels of component `i`. -/
def project (i : ι) (tr : List (ι × Label)) : List Label :=
  tr.filterMap fun l => if l.1 = i then some l.2 else none

@[simp] theorem mem_project {i : ι} {tr : List (ι × Label)} {l : Label} :
    l ∈ project i tr ↔ (i, l) ∈ tr := by
  simp only [project, List.mem_filterMap, Option.ite_none_right_eq_some, Option.some.injEq,
    Prod.exists]
  constructor
  · intro h
    obtain ⟨j, l', hmem, rfl, rfl⟩ := h
    exact hmem
  · intro hmem; exact ⟨i, l, hmem, rfl, rfl⟩

theorem project_append (i : ι) (tr tr' : List (ι × Label)) :
    project i (tr ++ tr') = project i tr ++ project i tr' :=
  List.filterMap_append

theorem project_singleton_self (l : ι × Label) : project l.1 [l] = [l.2] := by
  simp [project]

theorem project_singleton_ne {i : ι} {l : ι × Label} (h : l.1 ≠ i) : project i [l] = [] := by
  simp [project, h]

/-- Each component of an interleaved run has run by itself. -/
theorem Run.project {sys : ι → System State Label} {tr : List (ι × Label)} {s : ι → State}
    (h : (interleave sys).Run tr s) (i : ι) : (sys i).Run (System.project i tr) (s i) := by
  induction h with
  | init hs => exact Run.init (hs i)
  | @step tr s l s' _ hl ih =>
    obtain ⟨hstep, hframe⟩ := hl
    rw [project_append]
    by_cases hi : l.1 = i
    · -- a step of this component
      subst hi
      rw [project_singleton_self]
      exact Run.step ih hstep
    · -- another one moved
      rw [project_singleton_ne hi, List.append_nil, hframe i (Ne.symm hi)]
      exact ih

/-- What one component can do, the whole can. -/
theorem interleave_step {sys : ι → System State Label} {s : ι → State} {i : ι} {l : Label}
    {s' : State} (h : (sys i).step (s i) l s') :
    (interleave sys).step s (i, l) (Function.update s i s') := by
  constructor
  · show (sys i).step (s i) l (Function.update s i s' i)
    rw [Function.update_self]
    exact h
  · intro j hj
    exact Function.update_of_ne hj s' s

end interleave

end System
