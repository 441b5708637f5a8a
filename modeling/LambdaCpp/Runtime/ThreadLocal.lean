import LambdaCpp.Base.Ledger
import LambdaCpp.Base.Simulation
import LambdaCpp.Runtime.Handle

/-! # Easy Handles of Many Threads

    `m_curl_handle_wrapper` is `thread_local`: the first use on a thread
    constructs the thread's wrapper, which asks libcurl for an easy handle,
    and the thread's exit destroys it.  The handles themselves live in
    libcurl, in one process, and a thread reaches its own through a pointer.

    Two levels of this design:

    * `Process`: all handles, and for each thread the wrapper with its
      pointer.  Threads take turns at every single libcurl call.
    * `Local`: a thread with an option table of its own, as the modules
      before this one have it.

    `process_simulates` states that the pointers lead where the second level
    says, `threads_isolated` and `handles_settled` what follows for whole
    programs.
-/

namespace LambdaCpp

/-! ### The process -/

/-- `m_curl_handle_wrapper` on one thread. -/
inductive Wrapper where
  /-- Nothing on the thread has used it. -/
  | untouched
  /-- Its `handle`, which may be null. -/
  | constructed (handle : Option Nat)
  | destroyed
  deriving DecidableEq, Repr

structure Process (ι : Type) where
  /-- The option tables of the easy handles that are alive. -/
  pool : Nat → Option OptionTable
  /-- What `curl_easy_init` has returned and `curl_easy_cleanup` has taken. -/
  ledger : Ledger
  wrapper : ι → Wrapper
  /-- The objects of each thread. -/
  heap : ι → Heap
  performs : ι → List Perform

namespace Process
variable {ι : Type}

def start : Process ι where
  pool := fun _ => none
  ledger := Ledger.empty
  wrapper := fun _ => .untouched
  heap := fun _ => Heap.empty 0
  performs := fun _ => []

/-- A new easy handle, or a null pointer when libcurl cannot make one. -/
def curl_easy_init (made : Bool) (p : Process ι) : Option Nat × Process ι :=
  if made then
    (some p.ledger.constructed, { p with
      pool := Function.update p.pool p.ledger.constructed (some fun _ => .default)
      ledger := p.ledger.construct })
  else (none, p)

def curl_easy_cleanup (handle : Nat) (p : Process ι) : Checked (Process ι) :=
  match p.pool handle with
  | some _ => .ok { p with
      pool := Function.update p.pool handle none
      ledger := p.ledger.destroy handle }
  | none => .error .dangling

variable [DecidableEq ι]

/-- `curl_handle_wrapper()`. -/
def construct_wrapper (i : ι) (made : Bool) (p : Process ι) : Process ι :=
  let (handle, p) := p.curl_easy_init made
  { p with wrapper := Function.update p.wrapper i (.constructed handle) }

/-- The first use of `m_curl_handle` on a thread constructs the wrapper. -/
def touch (i : ι) (made : Bool) (p : Process ι) : Process ι :=
  match p.wrapper i with
  | .untouched => p.construct_wrapper i made
  | _ => p

/-- `~curl_handle_wrapper()`, when the thread exits. -/
def exit (i : ι) (p : Process ι) : Checked (Process ι) := do
  let p ← match p.wrapper i with
    | .constructed (some handle) => p.curl_easy_cleanup handle
    | _ => .ok p
  return { p with wrapper := Function.update p.wrapper i .destroyed }

/-- Thread `i` runs code that reaches its handle through `m_curl_handle`.
    The first thing any call does with it is `curl_easy_reset`, which
    follows the pointer, null or not. -/
def run (i : ι) (x : M Unit) (p : Process ι) : Checked (Process ι) :=
  match p.wrapper i with
  | .constructed (some handle) =>
    match p.pool handle with
    | some table =>
      match x ⟨table, p.heap i, p.performs i⟩ with
      | (.ok (), w) => .ok { p with
          pool := Function.update p.pool handle (some w.handle)
          heap := Function.update p.heap i w.heap
          performs := Function.update p.performs i w.performs }
      | (.error e, _) => .error e
    | none => .error .dangling
  | _ => .error .dangling

end Process

/-- What a thread does next; `made` is what `curl_easy_init` answers if this
    is the thread's first use of the handle. -/
inductive ThreadOp where
  /-- `runtime(endpoint, user_agent)`, which looks at the handle. -/
  | construct (made : Bool)
  /-- A libcurl call, or several. -/
  | run (made : Bool) (x : M Unit)
  | exit

/-- The program: any number of threads, one step at a time. -/
def process_system (ι : Type) [DecidableEq ι] : System (Process ι) (ι × ThreadOp) where
  init := fun p => p = Process.start
  step := fun p l p' =>
    match l.2 with
    | .construct made => p.wrapper l.1 ≠ .destroyed ∧ p' = p.touch l.1 made
    | .run made x => (p.touch l.1 made).run l.1 x = .ok p'
    | .exit => p.wrapper l.1 ≠ .destroyed ∧ p.exit l.1 = .ok p'

/-! ### A thread by itself -/

/-- A thread and its own option table. -/
inductive Local where
  | untouched
  /-- `curl_easy_init` returned a null pointer. -/
  | null
  | working (w : Thread)
  | exited

namespace Local

def touch (made : Bool) : Local → Local
  | untouched => if made then working Thread.new else null
  | l => l

def run (x : M Unit) : Local → Checked Local
  | working w =>
    match x w with
    | (.ok (), w') => .ok (working w')
    | (.error e, _) => .error e
  | _ => .error .dangling

end Local

def thread_system : System Local ThreadOp where
  init := fun l => l = .untouched
  step := fun l op l' =>
    match op with
    | .construct made => l ≠ .exited ∧ l' = l.touch made
    | .run made x => (l.touch made).run x = .ok l'
    | .exit => l ≠ .exited ∧ l' = .exited

/-! ### One level in the other -/

namespace Process
variable {ι : Type}

/-- The handle a thread holds. -/
def owns (p : Process ι) (i : ι) : Option Nat :=
  match p.wrapper i with
  | .constructed handle => handle
  | _ => none

/-- The thread as it sees itself through its pointer. -/
def view (p : Process ι) (i : ι) : Local :=
  match p.wrapper i with
  | .untouched => .untouched
  | .constructed none => .null
  | .constructed (some handle) =>
    match p.pool handle with
    | some table => .working ⟨table, p.heap i, p.performs i⟩
    | none => .exited
  | .destroyed => .exited

/-- Every handle that is alive has one owner, and a thread that has not
    started has nothing yet. -/
structure Sound (p : Process ι) : Prop where
  balanced : p.ledger.Balanced p.owns
  stored : Ledger.Stored p.pool p.owns
  untouched : ∀ i, p.wrapper i = .untouched → p.heap i = Heap.empty 0 ∧ p.performs i = []

theorem Sound.start : (start : Process ι).Sound where
  balanced := Ledger.Balanced.empty
  stored := by
    intro handle
    simp [Process.start, owns]
  untouched := fun _ _ => ⟨rfl, rfl⟩

variable {p p' : Process ι} {i j : ι} {handle : Nat}

theorem owns_of_constructed (h : p.wrapper i = .constructed (some handle)) :
    p.owns i = some handle := by
  unfold owns
  rw [h]

/-- The handle of a thread is alive. -/
theorem Sound.table (h : p.Sound) (hi : p.wrapper i = .constructed (some handle)) :
    ∃ table, p.pool handle = some table :=
  Option.isSome_iff_exists.mp ((h.stored handle).mpr ⟨i, owns_of_constructed hi⟩)

/-- A thread that is not over still has a view. -/
theorem Sound.view_eq_exited_iff (h : p.Sound) : p.view i = .exited ↔ p.wrapper i = .destroyed := by
  unfold view
  rcases hw : p.wrapper i with _ | (_ | handle) | _
  · simp
  · simp
  · obtain ⟨table, htable⟩ := h.table hw
    simp [htable]
  · simp

/-- A thread's view depends on its own wrapper, its own objects and the
    table of its own handle. -/
theorem view_congr (hwrapper : p'.wrapper j = p.wrapper j) (hheap : p'.heap j = p.heap j)
    (hperforms : p'.performs j = p.performs j)
    (hpool : ∀ handle, p.owns j = some handle → p'.pool handle = p.pool handle) :
    p'.view j = p.view j := by
  unfold view
  rw [hwrapper, hheap, hperforms]
  rcases hw : p.wrapper j with _ | (_ | handle) | _
  · rfl
  · rfl
  · simp only [hpool handle (owns_of_constructed hw)]
  · rfl

variable [DecidableEq ι]

/-! #### First use -/

/-- A new wrapper, with a handle or without. -/
theorem construct_cases (made : Bool) :
    (made = true ∧ p.construct_wrapper i made = { p with
        pool := Function.update p.pool p.ledger.constructed (some fun _ => .default)
        ledger := p.ledger.construct
        wrapper := Function.update p.wrapper i (.constructed (some p.ledger.constructed)) }) ∨
      (made = false ∧ p.construct_wrapper i made = { p with
        wrapper := Function.update p.wrapper i (.constructed none) }) := by
  cases made with
  | true =>
    left
    exact ⟨rfl, rfl⟩
  | false =>
    right
    exact ⟨rfl, rfl⟩

theorem touch_cases (made : Bool) :
    (p.wrapper i = .untouched ∧ p.touch i made = p.construct_wrapper i made) ∨
      (p.wrapper i ≠ .untouched ∧ p.touch i made = p) := by
  unfold Process.touch
  rcases hw : p.wrapper i with _ | handle | _
  · left
    exact ⟨rfl, rfl⟩
  · right
    exact ⟨Wrapper.noConfusion, rfl⟩
  · right
    exact ⟨Wrapper.noConfusion, rfl⟩

theorem Sound.construct (h : p.Sound) (made : Bool) (hi : p.wrapper i = .untouched) :
    (p.construct_wrapper i made).Sound := by
  have hnone : p.owns i = none := by
    unfold owns
    rw [hi]
  -- no thread becomes untouched again
  have huntouched : ∀ v j, v ≠ .untouched → Function.update p.wrapper i v j = .untouched →
      p.heap j = Heap.empty 0 ∧ p.performs j = [] := by
    intro v j hv hj
    by_cases hji : j = i
    · rw [hji, Function.update_self] at hj
      exact absurd hj hv
    · rw [Function.update_of_ne hji] at hj
      exact h.untouched j hj
  rcases construct_cases (p := p) (i := i) made with ⟨-, heq⟩ | ⟨-, heq⟩
  · have howns : (p.construct_wrapper i made).owns =
        Function.update p.owns i (some p.ledger.constructed) := by
      rw [heq]
      funext j
      by_cases hj : j = i
      · subst hj
        simp [owns]
      · simp [owns, Function.update_of_ne hj]
    refine ⟨?_, ?_, ?_⟩
    · rw [howns, heq]
      exact h.balanced.construct hnone
    · rw [howns, heq]
      exact h.stored.construct hnone _
    · rw [heq]
      intro j hj
      exact huntouched _ j Wrapper.noConfusion hj
  · have howns : (p.construct_wrapper i made).owns = p.owns := by
      rw [heq]
      funext j
      by_cases hj : j = i
      · subst hj
        simp [owns, hi]
      · simp [owns, Function.update_of_ne hj]
    refine ⟨?_, ?_, ?_⟩
    · rw [howns, heq]
      exact h.balanced
    · rw [howns, heq]
      exact h.stored
    · rw [heq]
      intro j hj
      exact huntouched _ j Wrapper.noConfusion hj

theorem Sound.touch (h : p.Sound) (made : Bool) : (p.touch i made).Sound := by
  rcases touch_cases (p := p) (i := i) made with ⟨hi, heq⟩ | ⟨-, heq⟩
  · rw [heq]
    exact h.construct made hi
  · rw [heq]
    exact h

/-- **First use** gives the thread a new table. -/
theorem Sound.view_touch (h : p.Sound) (made : Bool) :
    (p.touch i made).view i = (p.view i).touch made := by
  rcases touch_cases (p := p) (i := i) made with ⟨hi, heq⟩ | ⟨hi, heq⟩
  · have hview : p.view i = .untouched := by
      unfold view
      rw [hi]
    obtain ⟨hheap, hperforms⟩ := h.untouched i hi
    rw [heq, hview]
    rcases construct_cases (p := p) (i := i) made with ⟨hmade, heq⟩ | ⟨hmade, heq⟩
    · rw [heq, hmade]
      simp [view, Local.touch, hheap, hperforms, Thread.new]
    · rw [heq, hmade]
      simp [view, Local.touch]
  · rw [heq]
    unfold view
    rcases hw : p.wrapper i with _ | (_ | handle) | _
    · exact absurd hw hi
    · rfl
    · simp only
      cases p.pool handle <;> rfl
    · rfl

/-- The others do not notice. -/
theorem Sound.view_touch_of_ne (h : p.Sound) (made : Bool) (hj : j ≠ i) :
    (p.touch i made).view j = p.view j := by
  rcases touch_cases (p := p) (i := i) made with ⟨-, heq⟩ | ⟨-, heq⟩
  · rw [heq]
    rcases construct_cases (p := p) (i := i) made with ⟨-, heq⟩ | ⟨-, heq⟩
    · rw [heq]
      apply view_congr
      · exact Function.update_of_ne hj ..
      · rfl
      · rfl
      · -- the new handle is newer than any that is owned
        intro handle hhandle
        have hlt := h.balanced.owned_lt j handle hhandle
        exact Function.update_of_ne (Nat.ne_of_lt hlt) ..
    · rw [heq]
      exact view_congr (Function.update_of_ne hj ..) rfl rfl fun _ _ => rfl
  · rw [heq]

/-! #### Use -/

/-- Code that ran had a handle that was alive. -/
theorem run_cases {x : M Unit} (hrun : p.run i x = .ok p') :
    ∃ handle table w, p.wrapper i = .constructed (some handle) ∧ p.pool handle = some table ∧
      x ⟨table, p.heap i, p.performs i⟩ = (.ok (), w) ∧ p' = { p with
        pool := Function.update p.pool handle (some w.handle)
        heap := Function.update p.heap i w.heap
        performs := Function.update p.performs i w.performs } := by
  unfold Process.run at hrun
  split at hrun
  · next handle hw =>
    split at hrun
    · next table htable =>
      split at hrun
      · next w hx => exact ⟨handle, table, w, hw, htable, hx, (Except.ok.inj hrun).symm⟩
      · cases hrun
    · cases hrun
  · cases hrun

theorem Sound.run (h : p.Sound) {x : M Unit} (hrun : p.run i x = .ok p') : p'.Sound := by
  obtain ⟨handle, table, w, hw, htable, -, rfl⟩ := run_cases hrun
  refine ⟨h.balanced, h.stored.write htable, ?_⟩
  intro j hj
  have hji : j ≠ i := by
    rintro rfl
    rw [show p.wrapper j = .untouched from hj] at hw
    cases hw
  show Function.update p.heap i w.heap j = _ ∧ Function.update p.performs i w.performs j = _
  rw [Function.update_of_ne hji, Function.update_of_ne hji]
  exact h.untouched j hj

/-- **Use through the pointer** is use of the thread's own table. -/
theorem view_run {x : M Unit} (hrun : p.run i x = .ok p') : (p.view i).run x = .ok (p'.view i) := by
  obtain ⟨handle, table, w, hw, htable, hx, rfl⟩ := run_cases hrun
  unfold view
  simp only [hw, htable, Local.run, hx, Function.update_self]

theorem Sound.view_run_of_ne (h : p.Sound) {x : M Unit} (hrun : p.run i x = .ok p') (hj : j ≠ i) :
    p'.view j = p.view j := by
  obtain ⟨handle, table, w, hw, htable, -, rfl⟩ := run_cases hrun
  apply view_congr
  · rfl
  · exact Function.update_of_ne hj ..
  · exact Function.update_of_ne hj ..
  · -- no two threads have the same handle
    intro other hother
    have hne : other ≠ handle := by
      rintro rfl
      exact hj (h.balanced.owned_once j i other hother (owns_of_constructed hw))
    exact Function.update_of_ne hne ..

/-! #### Exit -/

/-- A thread that exits cleans up its handle, if it has one. -/
theorem Sound.exit_cases (h : p.Sound) :
    (∃ handle, p.owns i = some handle ∧ p.exit i = .ok { p with
        pool := Function.update p.pool handle none
        ledger := p.ledger.destroy handle
        wrapper := Function.update p.wrapper i .destroyed }) ∨
      (p.owns i = none ∧ p.exit i = .ok { p with
        wrapper := Function.update p.wrapper i .destroyed }) := by
  unfold Process.exit owns
  rcases hw : p.wrapper i with _ | (_ | handle) | _
  · right
    exact ⟨rfl, rfl⟩
  · right
    exact ⟨rfl, rfl⟩
  · left
    obtain ⟨table, htable⟩ := h.table hw
    refine ⟨handle, rfl, ?_⟩
    simp [curl_easy_cleanup, htable]
  · right
    exact ⟨rfl, rfl⟩

theorem owns_exit {q : Process ι} (hq : q.wrapper = Function.update p.wrapper i .destroyed) :
    q.owns = Function.update p.owns i none := by
  funext j
  by_cases hj : j = i
  · subst hj
    simp [owns, hq]
  · simp [owns, hq, Function.update_of_ne hj]

theorem Sound.exit (h : p.Sound) (hexit : p.exit i = .ok p') : p'.Sound := by
  have huntouched : ∀ j, Function.update p.wrapper i .destroyed j = .untouched →
      p.heap j = Heap.empty 0 ∧ p.performs j = [] := by
    intro j hj
    by_cases hji : j = i
    · rw [hji, Function.update_self] at hj
      cases hj
    · rw [Function.update_of_ne hji] at hj
      exact h.untouched j hj
  rcases h.exit_cases (i := i) with ⟨handle, hi, heq⟩ | ⟨hi, heq⟩
  · rw [heq] at hexit
    obtain rfl := Except.ok.inj hexit
    refine ⟨?_, ?_, huntouched⟩
    · rw [owns_exit rfl]
      exact h.balanced.destroy hi
    · rw [owns_exit rfl]
      exact h.stored.destroy h.balanced hi
  · rw [heq] at hexit
    obtain rfl := Except.ok.inj hexit
    have hsame : Function.update p.owns i none = p.owns := by
      rw [← hi, Function.update_eq_self]
    refine ⟨?_, ?_, huntouched⟩
    · rw [owns_exit rfl, hsame]
      exact h.balanced
    · rw [owns_exit rfl, hsame]
      exact h.stored

/-- **Exit** is seen by the thread itself only. -/
theorem Sound.view_exit (h : p.Sound) (hexit : p.exit i = .ok p') :
    p'.view i = .exited ∧ ∀ j, j ≠ i → p'.view j = p.view j := by
  rcases h.exit_cases (i := i) with ⟨handle, hi, heq⟩ | ⟨hi, heq⟩
  · rw [heq] at hexit
    obtain rfl := Except.ok.inj hexit
    refine ⟨by simp [view], ?_⟩
    intro j hj
    apply view_congr
    · exact Function.update_of_ne hj ..
    · rfl
    · rfl
    · intro other hother
      have hne : other ≠ handle := by
        rintro rfl
        exact hj (h.balanced.owned_once j i other hother hi)
      exact Function.update_of_ne hne ..
  · rw [heq] at hexit
    obtain rfl := Except.ok.inj hexit
    refine ⟨by simp [view], ?_⟩
    intro j hj
    exact view_congr (Function.update_of_ne hj ..) rfl rfl fun _ _ => rfl

end Process

/-! ### The simulation -/

section
variable {ι : Type} [DecidableEq ι]

/-- The process and the threads, each by itself. -/
def Matches (p : Process ι) (locals : ι → Local) : Prop := p.Sound ∧ ∀ i, locals i = p.view i

theorem matches_update {p p' : Process ι} {locals : ι → Local} {i : ι} (hsound : p'.Sound)
    (h : Matches p locals) (hothers : ∀ j, j ≠ i → p'.view j = p.view j) :
    Matches p' (Function.update locals i (p'.view i)) := by
  refine ⟨hsound, ?_⟩
  intro j
  by_cases hj : j = i
  · rw [hj, Function.update_self]
  · rw [Function.update_of_ne hj, hothers j hj]
    exact h.2 j

/-- **The process simulates its threads**: what a thread does through its
    pointer is what it would do with a table of its own. -/
theorem process_simulates :
    System.Simulates (process_system ι) (System.interleave fun _ : ι => thread_system) Eq Matches where
  init := by
    intro p hp
    rw [show p = Process.start from hp]
    exact ⟨fun _ => .untouched, fun _ => rfl, Process.Sound.start, fun _ => rfl⟩
  step := by
    intro p locals l p' hmatches hstep
    obtain ⟨hsound, hviews⟩ := hmatches
    obtain ⟨i, op⟩ := l
    have hrunning : p.wrapper i ≠ .destroyed → locals i ≠ .exited := by
      intro hw hexited
      rw [hviews i] at hexited
      exact hw (hsound.view_eq_exited_iff.mp hexited)
    suffices hlocal : p'.Sound ∧ thread_system.step (locals i) op (p'.view i) ∧
        ∀ j, j ≠ i → p'.view j = p.view j by
      obtain ⟨hsound', hmove, hothers⟩ := hlocal
      exact ⟨(i, op), _, rfl, System.interleave_step (s := locals) (i := i) hmove,
        matches_update hsound' ⟨hsound, hviews⟩ hothers⟩
    cases op with
    | construct made =>
      obtain ⟨hw, rfl⟩ := hstep
      refine ⟨hsound.touch made, ⟨hrunning hw, ?_⟩, ?_⟩
      · rw [hviews i]
        exact hsound.view_touch made
      · intro j hj
        exact hsound.view_touch_of_ne made hj
    | run made x =>
      -- the first use comes before the rest
      have hrun : (p.touch i made).run i x = .ok p' := hstep
      have htouched := hsound.touch (i := i) made
      refine ⟨htouched.run hrun, ?_, ?_⟩
      · show ((locals i).touch made).run x = .ok (p'.view i)
        rw [hviews i, ← hsound.view_touch made]
        exact Process.view_run hrun
      · intro j hj
        rw [htouched.view_run_of_ne hrun hj]
        exact hsound.view_touch_of_ne made hj
    | exit =>
      obtain ⟨hw, hexit⟩ := hstep
      obtain ⟨hview, hothers⟩ := hsound.view_exit hexit
      exact ⟨hsound.exit hexit, ⟨hrunning hw, hview⟩, hothers⟩

end

/-! ### What a thread has done -/

/-- One after the other. -/
def M.sequence : List (M Unit) → M Unit
  | [] => pure ()
  | x :: xs => do
    x
    sequence xs

theorem M.sequence_snoc {xs : List (M Unit)} {w w' : Thread} (x : M Unit)
    (h : M.sequence xs w = (.ok (), w')) : M.sequence (xs ++ [x]) w = x w' := by
  induction xs generalizing w with
  | nil =>
    obtain ⟨-, rfl⟩ := Prod.mk.inj h
    show (x >>= fun _ => (pure () : M Unit)) w = x w
    rw [M.bind_run]
    rcases x w with ⟨e | u, w'⟩ <;> rfl
  | cons y xs ih =>
    unfold M.sequence at h
    rw [M.bind_run] at h
    rw [List.cons_append, M.sequence, M.bind_run]
    rcases hy : y w with ⟨e | u, w₁⟩
    · rw [hy] at h
      cases h
    · rw [hy] at h
      exact ih h

/-- A fault is the end. -/
theorem M.sequence_append_error {xs : List (M Unit)} (ys : List (M Unit)) {w w' : Thread} {e : Fault}
    (h : M.sequence xs w = (.error e, w')) : M.sequence (xs ++ ys) w = (.error e, w') := by
  induction xs generalizing w with
  | nil => cases h
  | cons x xs ih =>
    rw [M.sequence, M.bind_run] at h
    rw [List.cons_append, M.sequence, M.bind_run]
    rcases hx : x w with ⟨e' | u, w₁⟩
    · rw [hx] at h
      exact h
    · rw [hx] at h
      exact ih h

/-- The code among what a thread does. -/
def ThreadOp.code? : ThreadOp → Option (M Unit)
  | .run _ x => some x
  | _ => none

def codes (ops : List ThreadOp) : List (M Unit) := ops.filterMap ThreadOp.code?

/-- Where a thread stands after this code. -/
def Executed (xs : List (M Unit)) : Local → Prop
  | .working w => M.sequence xs Thread.new = (.ok (), w)
  | .exited => True
  | _ => xs = []

theorem Executed.touch {xs : List (M Unit)} {l : Local} (made : Bool) (h : Executed xs l) :
    Executed xs (l.touch made) := by
  rcases l with _ | _ | w | _
  · obtain rfl : xs = [] := h
    cases made <;> rfl
  · exact h
  · exact h
  · exact h

/-- A thread by itself has run its code in order, on a new handle. -/
theorem thread_executed {ops : List ThreadOp} {l : Local} (h : thread_system.Run ops l) :
    Executed (codes ops) l := by
  refine System.Run.invariant (I := fun ops l => Executed (codes ops) l) ?_ ?_ h
  · intro l hl
    rw [show l = .untouched from hl]
    rfl
  · intro ops l op l' hl hstep
    have hcodes : codes (ops ++ [op]) = codes ops ++ op.code?.toList := by
      unfold codes
      rw [List.filterMap_append]
      cases op <;> rfl
    rw [hcodes]
    cases op with
    | construct made =>
      obtain ⟨-, rfl⟩ := hstep
      simpa [ThreadOp.code?] using hl.touch made
    | run made x =>
      have hstep : (l.touch made).run x = .ok l' := hstep
      have htouched := hl.touch made
      generalize l.touch made = m at hstep htouched
      rcases m with _ | _ | w | _
      · cases hstep
      · cases hstep
      · -- one more piece of code
        unfold Local.run at hstep
        rcases hx : x w with ⟨e | u, w'⟩
        · simp only [hx] at hstep
          cases hstep
        · simp only [hx] at hstep
          obtain rfl := Except.ok.inj hstep
          show M.sequence (codes ops ++ [x]) Thread.new = (.ok (), w')
          rw [M.sequence_snoc x htouched, hx]
      · cases hstep
    | exit =>
      obtain ⟨-, rfl⟩ := hstep
      trivial

/-- Calls of member functions, one after the other, are a history of the
    handle. -/
theorem handle_system_of_sequence {t : Target} {calls : List Call} {w : Thread}
    (h : M.sequence (calls.map (Call.run t)) Thread.new = (.ok (), w)) :
    (handle_system t).Run calls w := by
  induction calls using List.reverseRecOn generalizing w with
  | nil =>
    obtain ⟨-, rfl⟩ := Prod.mk.inj h
    exact System.Run.init rfl
  | append_singleton calls c ih =>
    rcases hbefore : M.sequence (calls.map (Call.run t)) Thread.new with ⟨e | u, w₁⟩
    · rw [List.map_append, M.sequence_append_error _ hbefore] at h
      cases h
    · rw [List.map_append, List.map_singleton, M.sequence_snoc _ hbefore] at h
      exact System.Run.step (ih hbefore) h

/-! ### Programs -/

section
variable {ι : Type} [DecidableEq ι] {tr : List (ι × ThreadOp)} {p : Process ι}

theorem process_sound (h : (process_system ι).Run tr p) : p.Sound := by
  obtain ⟨-, -, -, -, hsound, -⟩ := process_simulates.run h
  exact hsound

/-- Each thread of a program has run by itself. -/
theorem process_thread (h : (process_system ι).Run tr p) (i : ι) :
    thread_system.Run (System.project i tr) (p.view i) := by
  obtain ⟨tr', locals, hrun, htr, -, hviews⟩ := process_simulates.run h
  rw [List.forall₂_eq_eq_eq] at htr
  rw [htr, ← hviews i]
  exact hrun.project i

/-- **Threads do not see each other**: in every interleaving of libcurl
    calls, a thread's handle, objects and requests are what its own code,
    run in order on a new handle, makes of them. -/
theorem threads_isolated (h : (process_system ι).Run tr p) (i : ι) {handle : Nat}
    (hi : p.wrapper i = .constructed (some handle)) :
    ∃ table, p.pool handle = some table ∧
      M.sequence (codes (System.project i tr)) Thread.new =
        (.ok (), ⟨table, p.heap i, p.performs i⟩) ∧
      ∀ t calls, codes (System.project i tr) = calls.map (Call.run t) →
        (handle_system t).Run calls ⟨table, p.heap i, p.performs i⟩ := by
  obtain ⟨table, htable⟩ := (process_sound h).table hi
  have hview : p.view i = .working ⟨table, p.heap i, p.performs i⟩ := by
    unfold Process.view
    simp only [hi, htable]
  have hexecuted := thread_executed (process_thread h i)
  rw [hview] at hexecuted
  refine ⟨table, htable, hexecuted, ?_⟩
  intro t calls hcalls
  have hsequence : M.sequence (codes (System.project i tr)) Thread.new =
      (.ok (), ⟨table, p.heap i, p.performs i⟩) := hexecuted
  rw [hcalls] at hsequence
  exact handle_system_of_sequence hsequence

/-- **Handles are not shared, lost or cleaned up twice**: in every program
    state the handle of a thread is alive and no other thread's, no thread
    that has one is kept from using it, and once every thread that used one
    has exited, each handle that libcurl ever made has been cleaned up
    once. -/
theorem handles_settled (h : (process_system ι).Run tr p) :
    (∀ i j handle, p.owns i = some handle → p.owns j = some handle → i = j) ∧
      (∀ handle, (p.pool handle).isSome = true ↔ ∃ i, p.owns i = some handle) ∧
      (∀ i x w w', p.view i = .working w → x w = (.ok (), w') → ∃ p', p.run i x = .ok p') ∧
      ((∀ i, p.owns i = none) →
        ∀ handle, p.pool handle = none ∧
          (handle < p.ledger.constructed → p.ledger.destroyed.count handle = 1)) := by
  have hsound := process_sound h
  refine ⟨hsound.balanced.owned_once, hsound.stored, ?_, ?_⟩
  · intro i x w w' hview hx
    unfold Process.view at hview
    rcases hw : p.wrapper i with _ | (_ | handle) | _
    · rw [hw] at hview; cases hview
    · rw [hw] at hview; cases hview
    · obtain ⟨table, htable⟩ := hsound.table hw
      simp only [hw, htable] at hview
      obtain rfl := Local.working.inj hview
      refine ⟨{ p with
        pool := Function.update p.pool handle (some w'.handle)
        heap := Function.update p.heap i w'.heap
        performs := Function.update p.performs i w'.performs }, ?_⟩
      unfold Process.run
      simp only [hw, htable, hx]
    · rw [hw] at hview; cases hview
  · intro hnone handle
    constructor
    · rw [← Option.not_isSome_iff_eq_none, hsound.stored]
      rintro ⟨i, hi⟩
      rw [hnone i] at hi
      cases hi
    · exact hsound.balanced.settled hnone handle

end

/-- The first thread sets an option and is gone before the second has set
    one. -/
def two_threads_ops : List (Bool × ThreadOp) :=
  [(true, .construct true), (false, .construct true),
    (true, .run true (curl_easy_setopt .POST (.long 1))),
    (false, .run true (curl_easy_setopt .HTTPGET (.long 1))), (true, .exit)]

theorem two_threads_run : ∃ p, (process_system Bool).Run two_threads_ops p ∧
    p.wrapper false = .constructed (some 1) ∧ p.ledger.destroyed = [0] := by
  have hrun₀ : (process_system Bool).Run [] Process.start := System.Run.init rfl
  have hrun₁ := System.Run.step hrun₀ (l := (true, ThreadOp.construct true))
    ⟨Wrapper.noConfusion, rfl⟩
  have hrun₂ := System.Run.step hrun₁ (l := (false, ThreadOp.construct true))
    ⟨Wrapper.noConfusion, rfl⟩
  have hrun₃ := System.Run.step hrun₂
    (l := (true, ThreadOp.run true (curl_easy_setopt .POST (.long 1)))) rfl
  have hrun₄ := System.Run.step hrun₃
    (l := (false, ThreadOp.run true (curl_easy_setopt .HTTPGET (.long 1)))) rfl
  have hrun₅ := System.Run.step hrun₄ (l := (true, ThreadOp.exit)) ⟨Wrapper.noConfusion, rfl⟩
  exact ⟨_, hrun₅, rfl, rfl⟩

/-- The second thread has not seen the option of the first. -/
theorem threads_isolated_two : ∃ p table, (process_system Bool).Run two_threads_ops p ∧
    p.pool 1 = some table ∧ table .HTTPGET = .long 1 ∧ table .POST = .default := by
  obtain ⟨p, hrun, hw, -⟩ := two_threads_run
  obtain ⟨table, htable, hsequence, -⟩ := threads_isolated hrun false hw
  have hthread := (Prod.mk.inj hsequence).2
  have hhandle : table = Function.update (fun _ => OptionValue.default) .HTTPGET (.long 1) :=
    (congrArg Thread.handle hthread).symm
  exact ⟨p, table, hrun, htable, by rw [hhandle]; rfl, by rw [hhandle]; rfl⟩

theorem handles_settled_two : ∃ p, (process_system Bool).Run two_threads_ops p ∧
    p.pool 0 = none ∧ ∀ i j handle, p.owns i = some handle → p.owns j = some handle → i = j := by
  obtain ⟨p, hrun, hw, hdestroyed⟩ := two_threads_run
  obtain ⟨honce, halive, -, -⟩ := handles_settled hrun
  refine ⟨p, hrun, ?_, honce⟩
  rw [← Option.not_isSome_iff_eq_none, halive]
  rintro ⟨i, hi⟩
  exact (process_sound hrun).balanced.owned_alive i 0 hi (by simp [hdestroyed])

end LambdaCpp
