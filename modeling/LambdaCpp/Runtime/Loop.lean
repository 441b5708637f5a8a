import LambdaCpp.Base.System
import LambdaCpp.Runtime.Post

/-! # The Invocation Loop

    `run_handler` as a machine that moves from one call to the next: it asks
    for an invocation, calls the handler, posts the answer.  What the network
    makes of a request and what the handler answers come from outside, so
    one machine serves for every handler, with or without state of its own.

    `Loop.next_eq` and `Loop.post_eq` state what the two kinds of request do
    to the loop, `WellFormed.next_result` and `post_result_linux` what comes
    back over a network that keeps to the protocol.
-/

namespace LambdaCpp

open Bytes (ascii)

/-! ### The code -/

/-- The endpoint, given `getenv("AWS_LAMBDA_RUNTIME_API")`. -/
def run_handler_endpoint (env : Option Bytes) : Bytes :=
  match env with
  | none => ascii "http://"
  | some ep => ascii "http://" ++ Bytes.c_str ep

def max_retries : Nat := 3

variable (t : Target) (rt : runtime)

def handle_post_outcome (o : post_outcome) : Checked Bool := do
  if o.is_success then return true
  let code ← o.get_failure t
  if code = REQUEST_NOT_MADE then return false
  -- the code is read once more, for the log
  let _ ← o.get_failure t
  return false

/-- The loop body up to the handler: the new value of `retries`, and the
    invocation if there is one. -/
def next_turn (x : Exchange) (retries : Nat) : M (Nat × Option invocation_request) := do
  let next_outcome ← get_next t rt x
  if !next_outcome.is_success then
    let code ← M.lift (next_outcome.get_failure t)
    if code = REQUEST_NOT_MADE then return (retries + 1, none)
    let _ ← M.lift (next_outcome.get_failure t)
    return (retries + 1, none)
  let req ← M.lift (next_outcome.get_result t)
  return (0, some req)

/-- The loop body from the handler's answer on: `false` returns from
    `run_handler`. -/
def post_turn (req : invocation_request) (res : invocation_response) (x : Exchange) : M Bool := do
  if res.is_success then
    let post_outcome ← post_success t rt req.request_id res req.invocation_id x
    M.lift (handle_post_outcome t post_outcome)
  else
    let post_outcome ← post_failure t rt req.request_id res req.invocation_id x
    M.lift (handle_post_outcome t post_outcome)

/-! ### The machine -/

/-- Where a loop stands. -/
inductive Pc where
  /-- At the head of the `while` loop. -/
  | head
  /-- About to call the handler. -/
  | calling (req : invocation_request)
  /-- About to post the handler's answer. -/
  | posting (req : invocation_request) (res : invocation_response)
  | returned
  /-- The execution left the defined behaviour. -/
  | aborted (e : Fault)
  deriving DecidableEq, Repr

/-- The locals of `run_handler` and the thread it runs on. -/
structure Loop where
  pc : Pc
  retries : Nat
  thread : Thread

namespace Loop

def start : Loop where
  pc := .head
  retries := 0
  thread := Thread.new

/-- The number of requests so far. -/
def requests (l : Loop) : Nat := l.thread.performs.length

def next (x : Exchange) (l : Loop) : Loop :=
  match next_turn t rt x l.retries l.thread with
  | (.ok (retries, none), w) => ⟨.head, retries, w⟩
  | (.ok (retries, some req), w) => ⟨.calling req, retries, w⟩
  | (.error e, w) => ⟨.aborted e, l.retries, w⟩

def post (req : invocation_request) (res : invocation_response) (x : Exchange) (l : Loop) : Loop :=
  match post_turn t rt req res x l.thread with
  | (.ok true, w) => ⟨.head, l.retries, w⟩
  | (.ok false, w) => ⟨.returned, l.retries, w⟩
  | (.error e, w) => ⟨.aborted e, l.retries, w⟩

end Loop

/-! ### What the requests do -/

/-- The POST that answers an invocation. -/
def answer (req : invocation_request) (res : invocation_response) : Post :=
  .of_response (if res.is_success then success_url rt req.request_id
    else failure_url rt req.request_id) res.toruntime_response req.invocation_id

theorem handle_post_outcome_eq (o : post_outcome) : handle_post_outcome t o = .ok o.is_success := by
  unfold handle_post_outcome
  cases o with
  | result s => rfl
  | failure f => by_cases hf : f = REQUEST_NOT_MADE <;> simp [hf]

/-- Where the loop stands after `get_next`. -/
def after_next (l : Loop) (r : Checked next_outcome) (w : Thread) : Loop :=
  match r with
  | .error e => ⟨.aborted e, l.retries, w⟩
  | .ok (.failure _) => ⟨.head, l.retries + 1, w⟩
  | .ok (.result req) => ⟨.calling req, 0, w⟩

/-- Where the loop stands after a POST. -/
def after_post (l : Loop) (r : Checked post_outcome) (w : Thread) : Loop :=
  match r with
  | .error e => ⟨.aborted e, l.retries, w⟩
  | .ok (.failure _) => ⟨.returned, l.retries, w⟩
  | .ok (.result _) => ⟨.head, l.retries, w⟩

theorem Loop.next_eq (x : Exchange) (l : Loop) :
    ∃ w, l.next t rt x = after_next l (next_result t x) w ∧
      (get_next t rt x l.thread).1 = next_result t x ∧
      w.performs = l.thread.performs ++ [next_perform t rt l.thread.heap] := by
  obtain ⟨w, hrun, hperforms, -⟩ := get_next_eq t rt x l.thread
  refine ⟨w, ?_, by rw [hrun], hperforms⟩
  unfold Loop.next next_turn
  cases hresult : next_result t x with
  | error e =>
    rw [hresult] at hrun
    rw [M.bind_error hrun]
    rfl
  | ok out =>
    rw [hresult] at hrun
    rw [M.bind_ok hrun]
    cases out with
    | failure c =>
      -- the two failure branches differ in what they log
      by_cases hc : c = REQUEST_NOT_MADE
      · simp [hc, M.lift, M.bind_run, after_next]
      · simp [hc, M.lift, M.bind_run, after_next]
    | result req => simp [M.lift, M.bind_run, after_next]

/-- Both branches post the same answer, to their own URL. -/
theorem post_turn_eq (req : invocation_request) (res : invocation_response) (x : Exchange) :
    post_turn t rt req res x = (do
      let out ← do_post t rt (answer rt req res).url (answer rt req res).content_type
        (answer rt req res).payload (answer rt req res).xray_response (answer rt req res).invocation_id x
      M.lift (handle_post_outcome t out) : M Bool) := by
  unfold post_turn answer
  cases res.is_success <;> rfl

theorem Loop.post_eq (req : invocation_request) (res : invocation_response) (x : Exchange)
    (l : Loop) :
    ∃ w, l.post t rt req res x = after_post l (post_result t x) w ∧
      w.performs = l.thread.performs ++ [post_perform t rt (answer rt req res) l.thread.heap] := by
  obtain ⟨w, hrun, hperforms, -⟩ := do_post_eq t rt (answer rt req res) x l.thread
  refine ⟨w, ?_, hperforms⟩
  unfold Loop.post
  rw [post_turn_eq]
  cases hresult : post_result t x with
  | error e =>
    rw [hresult] at hrun
    rw [M.bind_error hrun]
    rfl
  | ok out =>
    rw [hresult] at hrun
    rw [M.bind_ok hrun, handle_post_outcome_eq]
    cases out <;> rfl

/-- Every turn of the loop up to the handler makes one request. -/
theorem Loop.next_performs (x : Exchange) (l : Loop) :
    (l.next t rt x).thread.performs = l.thread.performs ++ [next_perform t rt l.thread.heap] := by
  obtain ⟨w, heq, -, hperforms⟩ := Loop.next_eq t rt x l
  have hthread : (after_next l (next_result t x) w).thread = w := by
    unfold after_next
    split <;> rfl
  rw [heq, hthread, hperforms]

/-- And so does every turn from the handler on. -/
theorem Loop.post_performs (req : invocation_request) (res : invocation_response) (x : Exchange)
    (l : Loop) :
    (l.post t rt req res x).thread.performs =
      l.thread.performs ++ [post_perform t rt (answer rt req res) l.thread.heap] := by
  obtain ⟨w, heq, hperforms⟩ := Loop.post_eq t rt req res x l
  have hthread : (after_post l (post_result t x) w).thread = w := by
    unfold after_post
    split <;> rfl
  rw [heq, hthread, hperforms]

/-- The thread after a turn is as `get_next` left it. -/
theorem Loop.next_thread (x : Exchange) (l : Loop) :
    (l.next t rt x).thread = (get_next t rt x l.thread).2 := by
  unfold Loop.next next_turn
  rcases hrun : get_next t rt x l.thread with ⟨r, w⟩
  cases r with
  | error e =>
    rw [M.bind_error hrun]
  | ok out =>
    rw [M.bind_ok hrun]
    cases out with
    | failure c => by_cases hc : c = REQUEST_NOT_MADE <;> simp [hc, M.lift, M.bind_run]
    | result req => simp [M.lift, M.bind_run]

/-- A turn of the loop up to the handler leaves nothing alive. -/
theorem Loop.next_heap (x : Exchange) {l : Loop} {n : Nat} {out : next_outcome}
    (hout : next_result t x = .ok out) (hn : l.thread.heap = Heap.empty n) :
    (l.next t rt x).thread.heap = Heap.empty (n + 2) := by
  obtain ⟨w, hrun, -, hheap⟩ := get_next_eq t rt x l.thread
  rw [Loop.next_thread, hrun]
  exact hheap out n hout hn

/-- And neither does a turn from the handler on. -/
theorem Loop.post_heap (req : invocation_request) (res : invocation_response) (x : Exchange)
    {l : Loop} {n : Nat} {out : post_outcome} (hout : post_result t x = .ok out)
    (hn : l.thread.heap = Heap.empty n) :
    (l.post t rt req res x).thread.heap = Heap.empty (n + 3) := by
  obtain ⟨w, hrun, -, hheap⟩ := do_post_eq t rt (answer rt req res) x l.thread
  unfold Loop.post
  rw [post_turn_eq]
  rw [hout] at hrun
  rw [M.bind_ok hrun, handle_post_outcome_eq]
  have hw := hheap out n hout hn
  cases out <;> exact hw

/-! ### Well-formed transfers -/

/-- A completed transfer has a content type, and a deadline header that is
    there can be read. -/
structure WellFormed (x : Exchange) : Prop where
  content_type : x.code = CURLE_OK → x.content_type.isSome
  deadline : ∀ text, lookup DEADLINE_MS_HEADER (headers_of x.lines) = some text →
    deadline_ok t (x.now.val : Int) text

theorem WellFormed.of_no_deadline {t : Target} {x : Exchange}
    (hcontent : x.code = CURLE_OK → x.content_type.isSome)
    (hnone : lookup DEADLINE_MS_HEADER (headers_of x.lines) = none) : WellFormed t x := by
  refine ⟨hcontent, ?_⟩
  intro text htext
  rw [hnone] at htext
  cases htext

section
variable {s d : Bool} {v : Bytes} {x : Exchange}

theorem WellFormed.next_defined (h : WellFormed (Target.linux s d v) x) :
    next_defined (Target.linux s d v) x := by
  have hcontent : (x.code ≠ CURLE_OK || x.content_type.isSome) = true := by
    by_cases hok : x.code = CURLE_OK
    · simp [h.content_type hok]
    · simp [hok]
  unfold LambdaCpp.next_defined
  rw [hcontent]
  cases htext : lookup DEADLINE_MS_HEADER (headers_of x.lines) with
  | none => simp
  | some text => simp [h.deadline text htext]

/-- `get_next` classifies a well-formed transfer. -/
theorem WellFormed.next_result (h : WellFormed (Target.linux s d v) x) :
    next_result (Target.linux s d v) x = .ok (classify x) := by
  have hresult := next_result_eq (Target.linux s d v) x
  rw [if_pos h.next_defined] at hresult
  exact hresult

/-- A POST never faults here: it reads neither content type nor deadline. -/
theorem post_result_linux : post_result (Target.linux s d v) x = .ok (post_of_response x x.code) := by
  have hlines : x.lines.all (lowerable_line (Target.linux s d v)) = true := by simp
  unfold post_result
  rw [receive_eq, if_pos hlines]
  rfl

end

end LambdaCpp
