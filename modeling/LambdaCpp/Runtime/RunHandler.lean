import LambdaCpp.Base.Streak
import LambdaCpp.Runtime.Threads

/-! # When `run_handler` Returns

    One call of `run_handler`, from its start, against a handler with a
    state of its own and an infinite supply of transfers: the `k`-th request
    the call makes gets the `k`-th transfer.

    The transfers alone decide which requests are GETs (`is_post`), how many
    of them have just failed (`failures`) and which request ends the call
    (`Stops`).  `run_handler_exits` states that the code agrees.
-/

namespace LambdaCpp

open Bytes (ascii)

/-! ### The call -/

section
variable (t : Target) (rt : runtime) {σ : Type}
  (handler : σ → invocation_request → invocation_response × σ) (xs : Nat → Exchange)

/-- One step of the call, with the state of the handler. -/
def run_handler_step (r : Loop × σ) : Loop × σ :=
  match r.1.pc with
  | .head =>
    if r.1.retries < max_retries then (r.1.next t rt (xs r.1.requests), r.2)
    else ({ r.1 with pc := .returned }, r.2)
  | .calling req => ({ r.1 with pc := .posting req (handler r.2 req).1 }, (handler r.2 req).2)
  | .posting req res => (r.1.post t rt req res (xs r.1.requests), r.2)
  | .returned => r
  | .aborted _ => r

/-- `run_handler(handler)` after `n` steps. -/
def run_handler (env : Option Bytes) (mem : σ) (n : Nat) : Loop × σ :=
  (run_handler_step t (runtime.for_endpoint t (run_handler_endpoint env)) handler xs)^[n]
    (Loop.start, mem)

end

/-- The call is one of the loops that may share a program with others. -/
theorem run_handler_run {σ : Type} (t : Target)
    (handler : σ → invocation_request → invocation_response × σ) (xs : Nat → Exchange)
    (env : Option Bytes) (mem : σ) (n : Nat) :
    ∃ tr, (loop_system t (runtime.for_endpoint t (run_handler_endpoint env))).Run tr
      (run_handler t handler xs env mem n).1 := by
  induction n with
  | zero => exact ⟨[], System.Run.init rfl⟩
  | succ n ih =>
    obtain ⟨tr, hrun⟩ := ih
    unfold run_handler at hrun ⊢
    rw [Function.iterate_succ_apply']
    generalize (run_handler_step t _ handler xs)^[n] (Loop.start, mem) = r at hrun ⊢
    unfold run_handler_step
    cases hpc : r.1.pc with
    | head =>
      by_cases hretries : r.1.retries < max_retries
      · simp only [if_pos hretries]
        exact ⟨_, System.Run.step hrun (can_ask _ _ hpc hretries _)⟩
      · simp only [if_neg hretries]
        exact ⟨_, System.Run.step hrun (can_give_up _ _ hpc hretries)⟩
    | calling req => exact ⟨_, System.Run.step hrun (can_call _ _ hpc _)⟩
    | posting req res => exact ⟨_, System.Run.step hrun (can_post _ _ hpc _)⟩
    | returned => exact ⟨tr, hrun⟩
    | aborted e => exact ⟨tr, hrun⟩

/-! ### What the transfers decide -/

/-- `get_next` finds an invocation in the transfer. -/
def BringsInvocation (x : Exchange) : Prop :=
  x.code = CURLE_OK ∧ 200 ≤ x.response_code ∧ x.response_code ≤ 299 ∧
    ∃ line ∈ x.lines, ∃ value, IsHeaderLine REQUEST_ID_HEADER value line

/-- The transfer accepts a POST. -/
def Accepts (x : Exchange) : Prop :=
  x.code = CURLE_OK ∧ 200 ≤ x.response_code ∧ x.response_code ≤ 299

theorem has_invocation_iff {x : Exchange} : has_invocation x = true ↔ BringsInvocation x := by
  unfold has_invocation BringsInvocation
  rw [Bool.and_eq_true, Bool.and_eq_true, decide_eq_true_iff, is_success_iff, received_header_iff,
    and_assoc, and_assoc]

instance (x : Exchange) : Decidable (BringsInvocation x) := decidable_of_iff _ has_invocation_iff

instance (x : Exchange) : Decidable (Accepts x) := inferInstanceAs (Decidable (_ ∧ _ ∧ _))

variable (xs : Nat → Exchange)

/-- The `k`-th request is a POST: the one before it was a GET that brought
    an invocation. -/
def is_post : Nat → Bool
  | 0 => false
  | k + 1 => !is_post k && decide (BringsInvocation (xs k))

def successful_get (k : Nat) : Bool := !is_post xs k && decide (BringsInvocation (xs k))

def failed_get (k : Nat) : Bool := !is_post xs k && !decide (BringsInvocation (xs k))

/-- The GETs that failed among the first `k` requests, since the last one
    that did not. -/
def failures (k : Nat) : Nat := streak (failed_get xs) (successful_get xs) k

/-- The `k`-th request ends the call: it is a POST that is not accepted, or
    the third of three GETs in a row that fail. -/
def Stops (k : Nat) : Prop :=
  (is_post xs k = true ∧ ¬ Accepts (xs k)) ∨
    ∃ j, k = j + 2 ∧ failed_get xs j = true ∧ failed_get xs (j + 1) = true ∧
      failed_get xs (j + 2) = true

/-! ### The failures, request by request -/

section
variable {xs} {k : Nat}

theorem is_post_succ : is_post xs (k + 1) = successful_get xs k := rfl

theorem get_of_successful (h : successful_get xs k = true) : is_post xs k = false := by
  unfold successful_get at h
  rw [Bool.and_eq_true, Bool.not_eq_true'] at h
  exact h.1

theorem get_of_failed (h : failed_get xs k = true) : is_post xs k = false := by
  unfold failed_get at h
  rw [Bool.and_eq_true, Bool.not_eq_true'] at h
  exact h.1

theorem not_successful_of_failed (h : failed_get xs k = true) : successful_get xs k = false := by
  unfold failed_get at h
  unfold successful_get
  rw [Bool.and_eq_true, Bool.not_eq_true'] at h
  simpa [h.1] using h.2

theorem failures_of_post (h : is_post xs k = true) : failures xs k = 0 := by
  cases k with
  | zero => rfl
  | succ k => exact streak_succ_of_reset h

theorem failures_succ_of_success (h : successful_get xs k = true) : failures xs (k + 1) = 0 :=
  streak_succ_of_reset h

theorem failures_succ_of_failed (h : failed_get xs k = true) :
    failures xs (k + 1) = failures xs k + 1 :=
  streak_succ_of_counted h (not_successful_of_failed h)

theorem failures_succ_of_post (h : is_post xs k = true) : failures xs (k + 1) = failures xs k := by
  apply streak_succ_of_neither
  · simp [failed_get, h]
  · simp [successful_get, h]

/-- The three kinds of request. -/
theorem request_cases (xs : Nat → Exchange) (k : Nat) :
    is_post xs k = true ∨ successful_get xs k = true ∨ failed_get xs k = true := by
  unfold successful_get failed_get
  cases is_post xs k <;> cases decide (BringsInvocation (xs k)) <;> simp

/-- After a request that left failures behind, it was one of them. -/
theorem failed_of_failures_pos (h : 0 < failures xs (k + 1)) :
    failed_get xs k = true ∧ failures xs (k + 1) = failures xs k + 1 := by
  rcases request_cases xs k with hpost | hsuccess | hfailed
  · have hsame := failures_succ_of_post hpost
    have hzero := failures_of_post hpost
    omega
  · have hzero := failures_succ_of_success hsuccess
    omega
  · exact ⟨hfailed, failures_succ_of_failed hfailed⟩

/-- Three GETs in a row have failed exactly when three failures are
    counted. -/
theorem three_failed_iff :
    (∃ j, k = j + 2 ∧ failed_get xs j = true ∧ failed_get xs (j + 1) = true ∧
      failed_get xs (j + 2) = true) ↔ 3 ≤ failures xs (k + 1) := by
  constructor
  · intro h
    obtain ⟨j, rfl, h₁, h₂, h₃⟩ := h
    have hf₁ := failures_succ_of_failed h₁
    have hf₂ : failures xs (j + 2) = failures xs (j + 1) + 1 := failures_succ_of_failed h₂
    have hf₃ : failures xs (j + 3) = failures xs (j + 2) + 1 := failures_succ_of_failed h₃
    show 3 ≤ failures xs (j + 3)
    omega
  · intro h
    -- each of the last three requests left failures behind
    have hpos₃ : 0 < failures xs (k + 1) := by omega
    obtain ⟨h₃, hf₃⟩ := failed_of_failures_pos hpos₃
    have hpos₂ : 1 < failures xs k := by omega
    obtain _ | k := k
    · exact absurd hpos₂ (Nat.not_lt_zero _)
    obtain ⟨h₂, hf₂⟩ := failed_of_failures_pos (Nat.zero_lt_of_lt hpos₂)
    have hpos₁ : 0 < failures xs k := by omega
    obtain _ | j := k
    · exact absurd hpos₁ (Nat.not_lt_zero _)
    obtain ⟨h₁, -⟩ := failed_of_failures_pos hpos₁
    exact ⟨j, rfl, h₁, h₂, h₃⟩

theorem stops_iff :
    Stops xs k ↔ (is_post xs k = true ∧ ¬ Accepts (xs k)) ∨ 3 ≤ failures xs (k + 1) := by
  unfold Stops
  rw [three_failed_iff]

end

/-! ### What the code does with a transfer -/

section
variable {s d : Bool} {v : Bytes} (rt : runtime) {x : Exchange}

theorem next_of_well_formed (hx : WellFormed (Target.linux s d v) x) (l : Loop) :
    ∃ w, w.performs = l.thread.performs ++ [next_perform (Target.linux s d v) rt l.thread.heap] ∧
      l.next (Target.linux s d v) rt x =
        if BringsInvocation x then ⟨.calling (request_of x), 0, w⟩ else ⟨.head, l.retries + 1, w⟩ := by
  obtain ⟨w, heq, -, hperforms⟩ := Loop.next_eq (Target.linux s d v) rt x l
  refine ⟨w, hperforms, ?_⟩
  rw [heq, hx.next_result]
  by_cases hb : BringsInvocation x
  · rw [if_pos hb, classify_of_has_invocation (has_invocation_iff.mpr hb)]
    rfl
  · obtain ⟨c, hc⟩ := classify_of_not_has_invocation
      (Bool.eq_false_iff.mpr (mt has_invocation_iff.mp hb))
    rw [if_neg hb, hc]
    rfl

theorem post_of_any (req : invocation_request) (res : invocation_response) (l : Loop) :
    ∃ w, w.performs = l.thread.performs ++
        [post_perform (Target.linux s d v) rt (answer rt req res) l.thread.heap] ∧
      l.post (Target.linux s d v) rt req res x =
        if Accepts x then ⟨.head, l.retries, w⟩ else ⟨.returned, l.retries, w⟩ := by
  obtain ⟨w, heq, hperforms⟩ := Loop.post_eq (Target.linux s d v) rt req res x l
  refine ⟨w, hperforms, ?_⟩
  rw [heq, post_result_linux]
  unfold post_of_response
  have hcode := @is_success_iff x.response_code
  by_cases ha : Accepts x
  · have hrange := hcode.mpr ha.2
    simp [ha, ha.1, hrange, after_post]
  · rw [if_neg ha]
    by_cases hok : x.code = CURLE_OK
    · have hrange : is_success x.response_code = false := by
        rw [← Bool.not_eq_true, hcode]
        intro h
        exact ha ⟨hok, h⟩
      simp [hok, hrange, after_post]
    · simp [hok, after_post]

end

/-! ### Where the call stands -/

/-- The request is a GET. -/
def Perform.is_get (p : Perform) : Bool := p.options .HTTPGET = .long 1

/-- None of the first `k` requests ends the call. -/
def Open (k : Nat) : Prop := ∀ j < k, ¬ Stops xs j

/-- What the transfers say about a call that stands at `l`. -/
def Standing (l : Loop) : Prop :=
  match l.pc with
  | .head =>
    is_post xs l.requests = false ∧ l.retries = failures xs l.requests ∧ l.retries ≤ max_retries ∧
      if l.retries < max_retries then Open xs l.requests
      else ∃ k, l.requests = k + 1 ∧ Stops xs k ∧ Open xs k
  | .calling _ => is_post xs l.requests = true ∧ l.retries = 0 ∧ Open xs l.requests
  | .posting _ _ => is_post xs l.requests = true ∧ l.retries = 0 ∧ Open xs l.requests
  | .returned => ∃ k, l.requests = k + 1 ∧ Stops xs k ∧ Open xs k
  | .aborted _ => False

/-- The requests made so far are of the kinds the transfers ask for. -/
def Kinds (l : Loop) : Prop :=
  l.thread.performs.map Perform.is_get = (List.range l.requests).map fun k => !is_post xs k

section
variable {xs} {k : Nat}

theorem Open.succ (h : Open xs k) (hk : ¬ Stops xs k) : Open xs (k + 1) := by
  intro j hj
  by_cases hjk : j = k
  · rw [hjk]
    exact hk
  · exact h j (by omega)

theorem Open.before {j : Nat} (h : Open xs k) (hj : j ≤ k) : Open xs j := by
  intro i hi
  exact h i (by omega)

theorem standing_start : Standing xs Loop.start := by
  refine ⟨rfl, rfl, Nat.zero_le _, ?_⟩
  show Open xs 0
  intro j hj
  exact absurd hj (Nat.not_lt_zero j)

theorem Standing.at_head {l : Loop} (h : Standing xs l) (hpc : l.pc = .head) :
    is_post xs l.requests = false ∧ l.retries = failures xs l.requests ∧ l.retries ≤ max_retries ∧
      if l.retries < max_retries then Open xs l.requests
      else ∃ k, l.requests = k + 1 ∧ Stops xs k ∧ Open xs k := by
  unfold Standing at h
  rw [hpc] at h
  exact h

theorem Standing.at_call {l : Loop} {req : invocation_request} (h : Standing xs l)
    (hpc : l.pc = .calling req) :
    is_post xs l.requests = true ∧ l.retries = 0 ∧ Open xs l.requests := by
  unfold Standing at h
  rw [hpc] at h
  exact h

theorem Standing.at_post {l : Loop} {req : invocation_request} {res : invocation_response}
    (h : Standing xs l) (hpc : l.pc = .posting req res) :
    is_post xs l.requests = true ∧ l.retries = 0 ∧ Open xs l.requests := by
  unfold Standing at h
  rw [hpc] at h
  exact h

theorem Standing.at_return {l : Loop} (h : Standing xs l) (hpc : l.pc = .returned) :
    ∃ k, l.requests = k + 1 ∧ Stops xs k ∧ Open xs k := by
  unfold Standing at h
  rw [hpc] at h
  exact h

theorem Standing.not_aborted {l : Loop} (h : Standing xs l) (e : Fault) : l.pc ≠ .aborted e := by
  intro hpc
  unfold Standing at h
  rw [hpc] at h
  exact h

/-- Only the last request can end the call. -/
theorem Standing.open_before {l : Loop} (h : Standing xs l) (hrequests : l.requests = k + 1) :
    Open xs k := by
  cases hpc : l.pc with
  | head =>
    obtain ⟨-, -, -, hopen⟩ := h.at_head hpc
    split at hopen
    · exact hopen.before (by omega)
    · obtain ⟨j, hj, -, hopen⟩ := hopen
      exact hopen.before (by omega)
  | calling req =>
    obtain ⟨-, -, hopen⟩ := h.at_call hpc
    exact hopen.before (by omega)
  | posting req res =>
    obtain ⟨-, -, hopen⟩ := h.at_post hpc
    exact hopen.before (by omega)
  | returned =>
    obtain ⟨j, hj, -, hopen⟩ := h.at_return hpc
    exact hopen.before (by omega)
  | aborted e => exact absurd hpc (h.not_aborted e)

theorem Kinds.extend {l l' : Loop} {p : Perform} (h : Kinds xs l)
    (hperforms : l'.thread.performs = l.thread.performs ++ [p])
    (hkind : p.is_get = !is_post xs l.requests) : Kinds xs l' := by
  have hrequests : l'.requests = l.requests + 1 := by
    unfold Loop.requests
    rw [hperforms, List.length_append, List.length_singleton]
  unfold Kinds
  rw [hperforms, hrequests, List.map_append, h, List.range_succ, List.map_append, List.map_singleton,
    List.map_singleton, hkind]

end

section
variable {xs} {s d : Bool} {v : Bytes} {rt : runtime}

instance (k : Nat) : Decidable (Stops xs k) := decidable_of_iff _ stops_iff.symm

theorem stops_get_iff {k : Nat} (hget : is_post xs k = false) :
    Stops xs k ↔ max_retries ≤ failures xs (k + 1) := by
  rw [stops_iff, hget]
  simp [max_retries]

theorem stops_post_iff {k : Nat} (hpost : is_post xs k = true) :
    Stops xs k ↔ ¬ Accepts (xs k) := by
  have hzero : failures xs (k + 1) = 0 := by
    rw [failures_succ_of_post hpost, failures_of_post hpost]
  rw [stops_iff, hpost, hzero]
  simp

/-- A GET at the loop head. -/
theorem standing_next {l : Loop} (hx : WellFormed (Target.linux s d v) (xs l.requests))
    (h : Standing xs l) (hpc : l.pc = .head) (hretries : l.retries < max_retries) :
    Standing xs (l.next (Target.linux s d v) rt (xs l.requests)) := by
  obtain ⟨hget, hfailures, -, hopen⟩ := h.at_head hpc
  rw [if_pos hretries] at hopen
  obtain ⟨w, hperforms, hnext⟩ := next_of_well_formed rt hx l
  have hrequests : w.performs.length = l.requests + 1 := by
    rw [hperforms, List.length_append]
    rfl
  have hstops := stops_get_iff hget
  rw [hnext]
  by_cases hb : BringsInvocation (xs l.requests)
  · -- an invocation: the failures so far are forgotten
    have hsuccess : successful_get xs l.requests = true := by simp [successful_get, hget, hb]
    have hzero := failures_succ_of_success hsuccess
    rw [if_pos hb]
    show is_post xs w.performs.length = true ∧ 0 = 0 ∧ Open xs w.performs.length
    rw [hrequests]
    refine ⟨hsuccess, rfl, hopen.succ ?_⟩
    rw [hstops, hzero, max_retries]
    omega
  · -- one more failure
    have hfailed : failed_get xs l.requests = true := by simp [failed_get, hget, hb]
    have hsucc := failures_succ_of_failed hfailed
    rw [if_neg hb]
    show is_post xs w.performs.length = false ∧ l.retries + 1 = failures xs w.performs.length ∧
      l.retries + 1 ≤ max_retries ∧ if l.retries + 1 < max_retries then Open xs w.performs.length
        else ∃ k, w.performs.length = k + 1 ∧ Stops xs k ∧ Open xs k
    rw [hrequests]
    refine ⟨?_, ?_, ?_, ?_⟩
    · simp [is_post_succ, successful_get, hb]
    · rw [hsucc, hfailures]
    · omega
    · split
      · next hlt =>
        apply hopen.succ
        rw [hstops]
        omega
      · next hnot =>
        refine ⟨l.requests, rfl, ?_, hopen⟩
        rw [hstops]
        omega

/-- The POST after the handler. -/
theorem standing_post {l : Loop} {req : invocation_request} {res : invocation_response}
    (h : Standing xs l) (hpc : l.pc = .posting req res) :
    Standing xs (l.post (Target.linux s d v) rt req res (xs l.requests)) := by
  obtain ⟨hpost, hretries, hopen⟩ := h.at_post hpc
  obtain ⟨w, hperforms, heq⟩ :=
    post_of_any (s := s) (d := d) (v := v) rt (x := xs l.requests) req res l
  have hrequests : w.performs.length = l.requests + 1 := by
    rw [hperforms, List.length_append]
    rfl
  have hstops := stops_post_iff hpost
  rw [heq]
  by_cases ha : Accepts (xs l.requests)
  · -- back to the head with no failures counted
    rw [if_pos ha]
    show is_post xs w.performs.length = false ∧ l.retries = failures xs w.performs.length ∧
      l.retries ≤ max_retries ∧ if l.retries < max_retries then Open xs w.performs.length
        else ∃ k, w.performs.length = k + 1 ∧ Stops xs k ∧ Open xs k
    rw [hrequests, hretries]
    refine ⟨?_, ?_, Nat.zero_le _, ?_⟩
    · simp [is_post_succ, successful_get, hpost]
    · rw [failures_succ_of_post hpost, failures_of_post hpost]
    · rw [if_pos (by decide)]
      apply hopen.succ
      rw [hstops]
      exact not_not.mpr ha
  · -- the call returns, and this request is why
    rw [if_neg ha]
    show ∃ k, w.performs.length = k + 1 ∧ Stops xs k ∧ Open xs k
    exact ⟨l.requests, hrequests, hstops.mpr ha, hopen⟩

theorem kinds_next {l : Loop} (h : Standing xs l) (hkinds : Kinds xs l) (hpc : l.pc = .head) :
    Kinds xs (l.next (Target.linux s d v) rt (xs l.requests)) := by
  apply hkinds.extend (Loop.next_performs ..)
  rw [(h.at_head hpc).1]
  rfl

theorem kinds_post {l : Loop} {req : invocation_request} {res : invocation_response}
    (h : Standing xs l) (hkinds : Kinds xs l) (hpc : l.pc = .posting req res) :
    Kinds xs (l.post (Target.linux s d v) rt req res (xs l.requests)) := by
  apply hkinds.extend (Loop.post_performs ..)
  rw [(h.at_post hpc).1]
  rfl

end

/-! ### The whole call -/

section
variable {xs} {s d : Bool} {v : Bytes} {rt : runtime} {σ : Type}
  (handler : σ → invocation_request → invocation_response × σ)

/-- One step keeps the loop where the transfers say. -/
theorem run_handler_step_standing (hxs : ∀ k, WellFormed (Target.linux s d v) (xs k))
    (r : Loop × σ) (h : Standing xs r.1 ∧ Kinds xs r.1) :
    Standing xs (run_handler_step (Target.linux s d v) rt handler xs r).1 ∧
      Kinds xs (run_handler_step (Target.linux s d v) rt handler xs r).1 := by
  obtain ⟨hstanding, hkinds⟩ := h
  unfold run_handler_step
  cases hpc : r.1.pc with
  | head =>
    by_cases hretries : r.1.retries < max_retries
    · rw [if_pos hretries]
      exact ⟨standing_next (hxs _) hstanding hpc hretries, kinds_next hstanding hkinds hpc⟩
    · rw [if_neg hretries]
      obtain ⟨-, -, -, hstops⟩ := hstanding.at_head hpc
      rw [if_neg hretries] at hstops
      exact ⟨hstops, hkinds⟩
  | calling req => exact ⟨hstanding.at_call hpc, hkinds⟩
  | posting req res =>
    exact ⟨standing_post hstanding hpc, kinds_post hstanding hkinds hpc⟩
  | returned => exact ⟨hstanding, hkinds⟩
  | aborted e => exact ⟨hstanding, hkinds⟩

theorem run_handler_succ (t : Target) (xs : Nat → Exchange) (env : Option Bytes) (mem : σ) (n : Nat) :
    run_handler t handler xs env mem (n + 1) =
      run_handler_step t (runtime.for_endpoint t (run_handler_endpoint env)) handler xs
        (run_handler t handler xs env mem n) :=
  Function.iterate_succ_apply' _ n _

theorem run_handler_standing (hxs : ∀ k, WellFormed (Target.linux s d v) (xs k))
    (env : Option Bytes) (mem : σ) (n : Nat) :
    Standing xs (run_handler (Target.linux s d v) handler xs env mem n).1 ∧
      Kinds xs (run_handler (Target.linux s d v) handler xs env mem n).1 := by
  induction n with
  | zero => exact ⟨standing_start, rfl⟩
  | succ n ih =>
    rw [run_handler_succ]
    exact run_handler_step_standing handler hxs _ ih

/-- Some steps later another request has been made, or the call is over. -/
theorem run_handler_advances (hxs : ∀ k, WellFormed (Target.linux s d v) (xs k))
    (env : Option Bytes) (mem : σ) (n : Nat) :
    ∃ m, (run_handler (Target.linux s d v) handler xs env mem m).1.pc = .returned ∨
      (run_handler (Target.linux s d v) handler xs env mem m).1.requests =
        (run_handler (Target.linux s d v) handler xs env mem n).1.requests + 1 := by
  have hsucc := run_handler_succ handler (Target.linux s d v) xs env mem
  obtain ⟨hstanding, -⟩ := run_handler_standing handler hxs env mem n
  generalize hr : run_handler (Target.linux s d v) handler xs env mem n = r at hstanding
  cases hpc : r.1.pc with
  | head =>
    refine ⟨n + 1, ?_⟩
    rw [hsucc, hr]
    unfold run_handler_step
    rw [hpc]
    by_cases hretries : r.1.retries < max_retries
    · right
      simp only [if_pos hretries]
      unfold Loop.requests
      rw [Loop.next_performs, List.length_append]
      rfl
    · left
      simp only [if_neg hretries]
  | calling req =>
    -- the handler first, then the request
    refine ⟨n + 2, ?_⟩
    right
    rw [hsucc, hsucc, hr]
    have hcall : run_handler_step (Target.linux s d v)
        (runtime.for_endpoint (Target.linux s d v) (run_handler_endpoint env)) handler xs r =
        ({ r.1 with pc := .posting req (handler r.2 req).1 }, (handler r.2 req).2) := by
      unfold run_handler_step
      rw [hpc]
    rw [hcall]
    unfold run_handler_step Loop.requests
    simp only
    rw [Loop.post_performs, List.length_append]
    rfl
  | posting req res =>
    refine ⟨n + 1, ?_⟩
    right
    rw [hsucc, hr]
    unfold run_handler_step Loop.requests
    rw [hpc]
    simp only
    rw [Loop.post_performs, List.length_append]
    rfl
  | returned =>
    refine ⟨n, ?_⟩
    left
    rw [hr, hpc]
  | aborted e => exact absurd hpc (hstanding.not_aborted e)

/-- The call makes any number of requests, unless it returns. -/
theorem run_handler_progress (hxs : ∀ k, WellFormed (Target.linux s d v) (xs k))
    (env : Option Bytes) (mem : σ) (k : Nat) :
    ∃ n, (run_handler (Target.linux s d v) handler xs env mem n).1.pc = .returned ∨
      (run_handler (Target.linux s d v) handler xs env mem n).1.requests = k := by
  induction k with
  | zero =>
    refine ⟨0, ?_⟩
    right
    rfl
  | succ k ih =>
    obtain ⟨n, hreturned | hrequests⟩ := ih
    · refine ⟨n, ?_⟩
      left
      exact hreturned
    · obtain ⟨m, hm⟩ := run_handler_advances handler hxs env mem n
      rw [hrequests] at hm
      exact ⟨m, hm⟩

end

/-! ### How many requests -/

section
variable {xs} {k : Nat}

/-- The GETs among the first `k` requests. -/
def gets (xs : Nat → Exchange) (k : Nat) : Nat := (List.range k).countP fun j => !is_post xs j

/-- Those that brought an invocation. -/
def successes (xs : Nat → Exchange) (k : Nat) : Nat := (List.range k).countP (successful_get xs)

theorem gets_succ (xs : Nat → Exchange) (k : Nat) :
    gets xs (k + 1) = gets xs k + if is_post xs k = true then 0 else 1 := by
  unfold gets
  rw [List.range_succ, List.countP_append, List.countP_singleton]
  cases is_post xs k <;> rfl

theorem successes_succ (xs : Nat → Exchange) (k : Nat) :
    successes xs (k + 1) = successes xs k + if successful_get xs k = true then 1 else 0 := by
  unfold successes
  rw [List.range_succ, List.countP_append, List.countP_singleton]

/-- While the call is open, no more than two GETs fail for each that does
    not, except for those that have just failed. -/
theorem gets_le (h : Open xs k) : gets xs k ≤ 3 * successes xs k + failures xs k ∧
    failures xs k < max_retries := by
  induction k with
  | zero =>
    constructor
    · show 0 ≤ 3 * successes xs 0 + failures xs 0
      omega
    · show 0 < max_retries
      decide
  | succ k ih =>
    obtain ⟨hle, hlt⟩ := ih (h.before (by omega))
    have hstops : ¬ Stops xs k := h k (by omega)
    have hgets := gets_succ xs k
    have hsuccesses := successes_succ xs k
    unfold max_retries at hlt ⊢
    rcases request_cases xs k with hpost | hsuccess | hfailed
    · -- a POST changes no count
      have hfailures := failures_succ_of_post hpost
      rw [if_pos hpost] at hgets
      constructor <;> omega
    · -- an invocation pays for the failures before it
      have hfailures := failures_succ_of_success hsuccess
      rw [if_pos hsuccess] at hsuccesses
      rw [if_neg (Bool.eq_false_iff.mp (get_of_successful hsuccess))] at hgets
      constructor <;> omega
    · have hfailures := failures_succ_of_failed hfailed
      rw [stops_get_iff (get_of_failed hfailed), max_retries] at hstops
      rw [if_neg (Bool.eq_false_iff.mp (get_of_failed hfailed))] at hgets
      rw [if_neg (Bool.eq_false_iff.mp (not_successful_of_failed hfailed))] at hsuccesses
      constructor <;> omega

theorem gets_le_of_open (h : Open xs k) : gets xs (k + 1) ≤ 3 * (successes xs (k + 1) + 1) := by
  obtain ⟨hle, hlt⟩ := gets_le h
  have hgets : gets xs (k + 1) ≤ gets xs k + 1 := by
    rw [gets_succ]
    split <;> omega
  have hsuccesses : successes xs k ≤ successes xs (k + 1) := by
    rw [successes_succ]
    omega
  unfold max_retries at hlt
  omega

theorem Kinds.count {l : Loop} (h : Kinds xs l) :
    l.thread.performs.countP Perform.is_get = gets xs l.requests := by
  have hcount := congrArg (List.countP id) h
  rw [List.countP_map, List.countP_map] at hcount
  exact hcount

end

/-! ### The exit condition -/

/-- When a call whose states are `run` ends, by the transfers it sees. -/
structure ExitCondition (run : Nat → Loop) : Prop where
  /-- At the loop head, `retries` counts the GETs that have just failed. -/
  head : ∀ n, (run n).pc = .head →
    (run n).retries = failures xs (run n).requests ∧ (run n).retries ≤ 3
  /-- The requests are GETs and POSTs as the transfers say. -/
  kinds : ∀ n, (run n).thread.performs.map Perform.is_get =
    (List.range (run n).requests).map fun k => !is_post xs k
  /-- The first request that ends the call is its last one. -/
  returns : ∀ k, Stops xs k → (∀ j < k, ¬ Stops xs j) →
    (∃ n, (run n).pc = .returned) ∧ ∀ n, (run n).pc = .returned → (run n).requests = k + 1
  /-- Without such a request the call goes on for ever. -/
  runs_on : (∀ k, ¬ Stops xs k) →
    (∀ n, (run n).pc ≠ .returned) ∧ ∀ k, ∃ n, (run n).requests = k
  /-- The call stays inside the defined behaviour. -/
  defined : ∀ n e, (run n).pc ≠ .aborted e
  /-- A call that is over made few GETs. -/
  few : ∀ n, (run n).pc = .returned →
    (run n).thread.performs.countP Perform.is_get ≤ 3 * (successes xs (run n).requests + 1)

/-- **`run_handler` returns after the first request that ends the call**,
    and only then, for every handler and every network that keeps to the
    protocol. -/
theorem run_handler_exits {σ : Type} (s d : Bool) (v : Bytes) (env : Option Bytes)
    (handler : σ → invocation_request → invocation_response × σ) (mem : σ)
    (hxs : ∀ k, WellFormed (Target.linux s d v) (xs k)) :
    ExitCondition xs fun n => (run_handler (Target.linux s d v) handler xs env mem n).1 := by
  have hrun := run_handler_standing handler hxs env mem
  have hprogress := run_handler_progress handler hxs env mem
  -- a call that has returned did so at the first request that ends it
  have hreturned : ∀ n, (run_handler (Target.linux s d v) handler xs env mem n).1.pc = .returned →
      ∃ k, (run_handler (Target.linux s d v) handler xs env mem n).1.requests = k + 1 ∧
        Stops xs k ∧ Open xs k := by
    intro n hpc
    exact (hrun n).1.at_return hpc
  constructor
  case head =>
    intro n hpc
    obtain ⟨-, hfailures, hbounded, -⟩ := (hrun n).1.at_head hpc
    exact ⟨hfailures, hbounded⟩
  case kinds =>
    intro n
    exact (hrun n).2
  case returns =>
    intro k hstops hfirst
    constructor
    · -- it cannot go past that request
      obtain ⟨n, hpc | hrequests⟩ := hprogress (k + 2)
      · exact ⟨n, hpc⟩
      · have hopen : Open xs (k + 1) := (hrun n).1.open_before hrequests
        exact absurd hstops (hopen k (by omega))
    · -- there is only one first request that ends the call
      intro n hpc
      obtain ⟨j, hrequests, hj, hopen⟩ := hreturned n hpc
      have hjk : ¬ j < k := fun hlt => hfirst j hlt hj
      have hkj : ¬ k < j := fun hlt => hopen k hlt hstops
      rw [hrequests]
      omega
  case runs_on =>
    intro hnever
    have hnot : ∀ n, (run_handler (Target.linux s d v) handler xs env mem n).1.pc ≠ .returned := by
      intro n hpc
      obtain ⟨j, -, hj, -⟩ := hreturned n hpc
      exact hnever j hj
    refine ⟨hnot, ?_⟩
    intro k
    obtain ⟨n, hpc | hrequests⟩ := hprogress k
    · exact absurd hpc (hnot n)
    · exact ⟨n, hrequests⟩
  case defined =>
    intro n e
    exact (hrun n).1.not_aborted e
  case few =>
    intro n hpc
    obtain ⟨k, hrequests, -, hopen⟩ := hreturned n hpc
    rw [(hrun n).2.count, hrequests]
    exact gets_le_of_open hopen

/-- Two failures, an invocation that is answered, three failures. -/
def flaky_exchanges (k : Nat) : Exchange :=
  if k = 2 then seven_exchange
  else if k = 3 then { seven_exchange with callbacks := [] }
  else lost_exchange

/-- The call returns after the seventh request: the two failures before the
    invocation do not count with the three after it. -/
theorem run_handler_exits_flaky :
    (∃ n, (run_handler (Target.linux true false []) (fun _ _ => (.success [] [], ()))
      flaky_exchanges none () n).1.pc = .returned) ∧
    ∀ n, (run_handler (Target.linux true false []) (fun _ _ => (.success [] [], ()))
        flaky_exchanges none () n).1.pc = .returned →
      (run_handler (Target.linux true false []) (fun _ _ => (.success [] [], ()))
        flaky_exchanges none () n).1.requests = 7 := by
  have hwf : ∀ k, WellFormed (Target.linux true false []) (flaky_exchanges k) := by
    intro k
    unfold flaky_exchanges
    split
    · exact .of_no_deadline (by decide) (by decide +kernel)
    · split
      · exact .of_no_deadline (by decide) (by decide +kernel)
      · exact .of_no_deadline (by decide) (by decide +kernel)
  have hstops : Stops flaky_exchanges 6 := by decide +kernel
  have hopen : ∀ j < 6, ¬ Stops flaky_exchanges j := by decide +kernel
  exact (run_handler_exits flaky_exchanges true false [] none _ () hwf).returns 6 hstops hopen

end LambdaCpp
