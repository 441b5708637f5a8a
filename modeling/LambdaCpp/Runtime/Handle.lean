import LambdaCpp.Base.System
import LambdaCpp.Runtime.Post

/-! # The Handle over Many Calls

    The calls that any number of `runtime` objects make on one thread, one
    after the other, all through the same easy handle.

    When a call returns it leaves the handle with pointers to objects it has
    released.  The invariant over any history of calls is that nothing is
    alive between two calls; `handle_carries_nothing_over` states that the
    next call never acts on what the handle still holds.
-/

namespace LambdaCpp

/-! ### Calls -/

/-- Run `x` for what it does. -/
def M.discard {α : Type} (x : M α) : M Unit := do
  let _ ← x

/-- A call of a public member function, on some `runtime` object, and what
    the network makes of its transfer. -/
inductive Call where
  | get_next (rt : runtime) (x : Exchange)
  | post_success (rt : runtime) (request_id : Bytes) (response : invocation_response)
      (invocation_id : Bytes) (x : Exchange)
  | post_failure (rt : runtime) (request_id : Bytes) (response : invocation_response)
      (invocation_id : Bytes) (x : Exchange)
  | post_init_error (rt : runtime) (response : runtime_response) (x : Exchange)

namespace Call
variable (t : Target)

/-- The call as code; what it returns plays no role here. -/
def run : Call → M Unit
  | get_next rt x => (LambdaCpp.get_next t rt x).discard
  | post_success rt request_id response invocation_id x =>
    (LambdaCpp.post_success t rt request_id response invocation_id x).discard
  | post_failure rt request_id response invocation_id x =>
    (LambdaCpp.post_failure t rt request_id response invocation_id x).discard
  | post_init_error rt response x => (LambdaCpp.post_init_error t rt response x).discard

/-- The handle and the objects at the call's `curl_easy_perform`. -/
def perform (h : Heap) : Call → Perform
  | get_next rt _ => next_perform t rt h
  | post_success rt request_id response invocation_id _ =>
    post_perform t rt (.of_response (success_url rt request_id) response.toruntime_response
      invocation_id) h
  | post_failure rt request_id response invocation_id _ =>
    post_perform t rt (.of_response (failure_url rt request_id) response.toruntime_response
      invocation_id) h
  | post_init_error rt response _ =>
    post_perform t rt (.of_response (rt.m_endpoints .INIT) response []) h

def is_get : Call → Bool
  | get_next .. => true
  | _ => false

end Call

/-! ### One call -/

section
variable {t : Target}

/-- What a call does to the thread: one request, and nothing left alive. -/
structure Clean (t : Target) (w : Thread) (p : Perform) (r : Checked Unit) (w' : Thread) : Prop where
  performs : w'.performs = w.performs ++ [p]
  heap : ∀ n, r = .ok () → w.heap = Heap.empty n → ∃ m, w'.heap = Heap.empty m

/-- Dropping the value a call returns. -/
theorem run_discard {α : Type} {x : M α} {w w' : Thread} {r : Checked α} (h : x w = (r, w')) :
    x.discard w = (r.map fun _ => (), w') := by
  unfold M.discard
  cases r with
  | ok a => rw [M.bind_ok h]; rfl
  | error e => rw [M.bind_error h]; rfl

theorem discard_eq_ok {α : Type} {r : Checked α} (h : (r.map fun _ => ()) = .ok ()) :
    ∃ a, r = .ok a := by
  cases r with
  | ok a => exact ⟨a, rfl⟩
  | error e => cases h

theorem clean_post (rt : runtime) (p : Post) (x : Exchange) (w : Thread) :
    ∃ r w', (do_post t rt p.url p.content_type p.payload p.xray_response p.invocation_id x).discard
        w = (r, w') ∧
      Clean t w (post_perform t rt p w.heap) r w' := by
  obtain ⟨w', hrun, hperforms, hheap⟩ := do_post_eq t rt p x w
  refine ⟨_, w', run_discard hrun, hperforms, ?_⟩
  -- a POST uses three addresses: list, context and response
  intro n hr hn
  obtain ⟨out, hout⟩ := discard_eq_ok hr
  exact ⟨n + 3, hheap out n hout hn⟩

/-- **Every call** makes one request, which depends on the objects alive
    before it but not on what the handle held, and leaves nothing alive. -/
theorem Call.run_eq (c : Call) (w : Thread) :
    ∃ r w', c.run t w = (r, w') ∧ Clean t w (c.perform t w.heap) r w' := by
  cases c with
  | get_next rt x =>
    obtain ⟨w', hrun, hperforms, hheap⟩ := get_next_eq t rt x w
    refine ⟨_, w', run_discard hrun, hperforms, ?_⟩
    intro n hr hn
    obtain ⟨out, hout⟩ := discard_eq_ok hr
    exact ⟨n + 2, hheap out n hout hn⟩
  | post_success rt request_id response invocation_id x =>
    exact clean_post rt (.of_response (success_url rt request_id) response.toruntime_response
      invocation_id) x w
  | post_failure rt request_id response invocation_id x =>
    exact clean_post rt (.of_response (failure_url rt request_id) response.toruntime_response
      invocation_id) x w
  | post_init_error rt response x =>
    exact clean_post rt (.of_response (rt.m_endpoints .INIT) response []) x w

/-! ### Pointers -/

/-- The object an option points to is alive and of the type the callback
    expects.  No other option is a pointer. -/
def PointsTo (h : Heap) (o : CURLoption) (a : Address) : Prop :=
  match o with
  | .WRITEDATA | .HEADERDATA => (h.responses a).isSome
  | .READDATA => (h.uploads a).isSome
  | .HTTPHEADER => (h.slists a).isSome
  | _ => False

/-- Every pointer of the table leads to a live object made since the address
    `fresh` was the next one. -/
def OwnPointers (fresh : Address) (p : Perform) : Prop :=
  ∀ o a, p.options o = .pointer a → fresh ≤ a ∧ PointsTo p.heap o a

theorem next_own_pointers (rt : runtime) (h : Heap) : OwnPointers h.fresh (next_perform t rt h) := by
  intro o a ha
  simp only [next_perform, next_options] at ha
  cases o with
  | WRITEDATA | HEADERDATA =>
    obtain rfl : h.fresh = a := by simpa using ha
    exact ⟨Nat.le_refl _, by simp [PointsTo, next_perform, next_heap]⟩
  | HTTPHEADER =>
    obtain rfl : h.fresh + 1 = a := by simpa using ha
    exact ⟨Nat.le_succ _, by simp [PointsTo, next_perform, next_heap]⟩
  | VERBOSE | DEBUGFUNCTION =>
    -- set in debug builds only, never to a pointer
    cases hd : t.ndebug <;> simp [hd] at ha
  | _ => cases ha

theorem post_own_pointers (rt : runtime) (p : Post) (h : Heap) :
    OwnPointers h.fresh (post_perform t rt p h) := by
  intro o a ha
  simp only [post_perform, post_options] at ha
  cases o with
  | WRITEDATA | HEADERDATA =>
    obtain rfl : h.fresh + 2 = a := by simpa using ha
    exact ⟨Nat.le_add_right _ _, by simp [PointsTo, post_perform, post_heap]⟩
  | READDATA =>
    obtain rfl : h.fresh + 1 = a := by simpa using ha
    exact ⟨Nat.le_succ _, by simp [PointsTo, post_perform, post_heap]⟩
  | HTTPHEADER =>
    obtain rfl : h.fresh = a := by simpa using ha
    exact ⟨Nat.le_refl _, by simp [PointsTo, post_perform, post_heap]⟩
  | VERBOSE | DEBUGFUNCTION =>
    cases hd : t.ndebug <;> simp [hd] at ha
  | _ => cases ha

theorem Call.own_pointers (c : Call) (h : Heap) : OwnPointers h.fresh (c.perform t h) := by
  cases c with
  | get_next rt x => exact next_own_pointers rt h
  | post_success rt request_id response invocation_id x => exact post_own_pointers rt _ h
  | post_failure rt request_id response invocation_id x => exact post_own_pointers rt _ h
  | post_init_error rt response x => exact post_own_pointers rt _ h

end

/-! ### Histories -/

/-- The thread between calls.  A call that faults is the last one. -/
def handle_system (t : Target) : System Thread Call where
  init := fun w => w = Thread.new
  step := fun w c w' => c.run t w = (.ok (), w')

/-- Between calls nothing is alive. -/
theorem handle_system_idle {t : Target} {calls : List Call} {w : Thread}
    (h : (handle_system t).Run calls w) : ∃ n, w.heap = Heap.empty n := by
  apply System.Run.invariant (I := fun _ w => ∃ n, w.heap = Heap.empty n) _ _ h
  · intro w hinit
    exact ⟨0, by rw [hinit]; rfl⟩
  · intro calls w c w' hidle hstep
    obtain ⟨n, hn⟩ := hidle
    obtain ⟨r, w'', hrun, hclean⟩ := c.run_eq (t := t) w
    -- the step is this very call, and it did not fault
    rw [show c.run t w = (.ok (), w') from hstep] at hrun
    obtain ⟨hr, hw⟩ := Prod.mk.inj hrun
    rw [hw]
    exact hclean.heap n hr.symm hn

/-- The option table of a GET holds nothing of a POST, and the other way
    round. -/
def Separate (c : Call) (p : Perform) : Prop :=
  if c.is_get then
    p.options .POST = .default ∧ p.options .READFUNCTION = .default ∧
      p.options .READDATA = .default
  else
    p.options .HTTPGET = .default ∧ p.options .READFUNCTION = .function .read_data

theorem Call.separate (t : Target) (c : Call) (h : Heap) : Separate c (c.perform t h) := by
  cases c with
  | get_next rt x => exact ⟨rfl, rfl, rfl⟩
  | post_success rt request_id response invocation_id x => exact ⟨rfl, rfl⟩
  | post_failure rt request_id response invocation_id x => exact ⟨rfl, rfl⟩
  | post_init_error rt response x => exact ⟨rfl, rfl⟩

/-- **A reused handle carries nothing over**: after any history of calls,
    the next call's `curl_easy_perform` sees the option table it would see
    on a fresh handle, and every pointer in it leads to a live object of
    this call. -/
theorem handle_carries_nothing_over (t : Target) {calls : List Call} {w : Thread}
    (h : (handle_system t).Run calls w) (c : Call) :
    (∀ a, ¬ w.heap.live a) ∧
      ∃ p, (c.run t w).2.performs = w.performs ++ [p] ∧
        (∃ q, (c.run t { w with handle := Thread.new.handle }).2.performs = w.performs ++ [q] ∧
          p.options = q.options) ∧
        OwnPointers w.heap.fresh p ∧ Separate c p := by
  obtain ⟨n, hidle⟩ := handle_system_idle h
  obtain ⟨r, w₁, hrun, hclean⟩ := c.run_eq (t := t) w
  -- the same call on a fresh handle makes the same request
  obtain ⟨r', w₂, hrun', hclean'⟩ := c.run_eq (t := t) { w with handle := Thread.new.handle }
  refine ⟨?_, c.perform t w.heap, ?_, ⟨c.perform t w.heap, ?_, rfl⟩, c.own_pointers w.heap,
    c.separate t w.heap⟩
  · intro a
    rw [hidle]
    simp [Heap.live, Heap.empty]
  · rw [hrun]
    exact hclean.performs
  · rw [hrun']
    exact hclean'.performs

/-- A GET after another GET and a POST whose transfer broke off. -/
theorem handle_carries_nothing_over_get :
    ∃ calls w, (handle_system (Target.linux true false [])).Run calls w ∧ calls.length = 2 ∧
      ∃ p, (((Call.get_next (.with_user_agent [] []) ⟨[], 7, 0, none, 0⟩).run
          (Target.linux true false []) w).2.performs = w.performs ++ [p]) ∧
        OwnPointers w.heap.fresh p ∧ p.options .READDATA = .default := by
  obtain ⟨w₁, hget, -, -⟩ := get_next_eq (Target.linux true false []) (.with_user_agent [] [])
    ⟨[], 7, 0, none, 0⟩ Thread.new
  have hnext : next_result (Target.linux true false []) ⟨[], 7, 0, none, 0⟩ =
      .ok (.failure REQUEST_NOT_MADE) := by decide +kernel
  rw [hnext] at hget
  obtain ⟨w₂, hpost, -, -⟩ := do_post_eq (Target.linux true false []) (.with_user_agent [] [])
    (.of_response ((runtime.with_user_agent [] []).m_endpoints .INIT) ⟨[], [], []⟩ [])
    ⟨[.read 1 1], 55, 0, none, 0⟩ w₁
  have hbroken : post_result (Target.linux true false []) ⟨[.read 1 1], 55, 0, none, 0⟩ =
      .ok (.failure REQUEST_NOT_MADE) := by decide +kernel
  rw [hbroken] at hpost
  have hstep₁ : (handle_system (Target.linux true false [])).step Thread.new
      (.get_next (.with_user_agent [] []) ⟨[], 7, 0, none, 0⟩) w₁ := run_discard hget
  have hstep₂ : (handle_system (Target.linux true false [])).step w₁
      (.post_init_error (.with_user_agent [] []) ⟨[], [], []⟩ ⟨[.read 1 1], 55, 0, none, 0⟩) w₂ :=
    run_discard hpost
  have hrun := System.Run.step (System.Run.step (System.Run.init rfl) hstep₁) hstep₂
  obtain ⟨-, p, hp, -, hown, hseparate⟩ := handle_carries_nothing_over _ hrun
    (.get_next (.with_user_agent [] []) ⟨[], 7, 0, none, 0⟩)
  exact ⟨_, _, hrun, rfl, p, hp, hown, hseparate.2.2⟩

end LambdaCpp
