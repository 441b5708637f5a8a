import LambdaCpp.Runtime.RunHandler
import LambdaCpp.Runtime.Wire

/-! # From One End to the Other

    Everything that a call of `run_handler` sends, as a function of what it
    receives and of the handler.

    * `run_handler_history`: the requests of a call, one by one, with every
      option and header.
    * `end_to_end`: an invocation that comes in over the wire is answered by
      the handler's response, which goes out byte for byte.
-/

namespace LambdaCpp

open Bytes (ascii)

/-! ### What libcurl is handed -/

/-- What the upload callback returns during a transfer, from the context
    `ctx` on. -/
def uploaded_from : upload_ctx → List Callback → Checked Bytes
  | _, [] => .ok []
  | ctx, .read size nitems :: cbs => do
    let r ← read_data size nitems ctx
    let rest ← uploaded_from r.ctx cbs
    return r.buffer ++ rest
  | ctx, .header _ :: cbs => uploaded_from ctx cbs
  | ctx, .body _ :: cbs => uploaded_from ctx cbs

/-- The body that libcurl gets for the request `p` during the transfer `x`. -/
def Perform.uploaded (p : Perform) (x : Exchange) : Checked Bytes :=
  match p.options .READFUNCTION, p.options .READDATA with
  | .function .read_data, .pointer q =>
    match p.heap.uploads q with
    | some ctx => uploaded_from ctx x.callbacks
    | none => .error .dangling
  | _, _ => .ok []

/-- The room in the buffer that libcurl passes. -/
def Callback.room : Callback → Nat
  | .read size nitems => size * nitems % 2 ^ 64
  | .header _ => 0
  | .body _ => 0

/-- How many bytes of the upload libcurl asks for. -/
def Exchange.asked (x : Exchange) : Nat := (x.callbacks.map Callback.room).sum

/-- From a cut on, libcurl gets as much of the payload as it asks for. -/
theorem uploaded_from_eq {payload : Bytes} (c : Cut payload) (cbs : List Callback) :
    uploaded_from c.ctx cbs = .ok ((payload.drop c.offset).take (cbs.map Callback.room).sum) := by
  induction cbs generalizing c with
  | nil => rfl
  | cons cb cbs ih =>
    cases cb with
    | header line =>
      rw [List.map_cons, List.sum_cons, Callback.room, Nat.zero_add]
      exact ih c
    | body chunk =>
      rw [List.map_cons, List.sum_cons, Callback.room, Nat.zero_add]
      exact ih c
    | read size nitems =>
      -- one block, then what follows the cut after it
      rw [List.map_cons, List.sum_cons, List.take_add, ← c.drop_advance]
      unfold uploaded_from
      rw [read_data_eq, Checked.ok_bind, ih, Checked.ok_bind]
      rfl

/-- **What a POST uploads.** -/
theorem uploaded_post (t : Target) (rt : runtime) (p : Post) (h : Heap) (x : Exchange) :
    (post_perform t rt p h).uploaded x = .ok (p.payload.take x.asked) := by
  have hctx : (post_perform t rt p h).heap.uploads (h.fresh + 1) = some (Cut.start p.payload).ctx := by
    simp [post_perform, post_heap, Cut.start, Cut.ctx]
  unfold Perform.uploaded
  show (match (post_perform t rt p h).heap.uploads (h.fresh + 1) with
    | some ctx => uploaded_from ctx x.callbacks
    | none => .error .dangling) = _
  rw [hctx]
  exact uploaded_from_eq (Cut.start p.payload) x.callbacks

/-! ### The history of a call -/

section
variable (t : Target) (rt : runtime) {σ : Type}
  (handler : σ → invocation_request → invocation_response × σ) (xs : Nat → Exchange) (mem : σ)

/-- The handler's memory when the `k`-th request is made. -/
def memory : Nat → σ
  | 0 => mem
  | k + 1 =>
    if is_post xs (k + 1) then (handler (memory k) (request_of (xs k))).2
    else memory k

/-- What the handler answers to the invocation that the `k`-th request
    brings. -/
def reply (k : Nat) : invocation_response :=
  (handler (memory handler xs mem k) (request_of (xs k))).1

/-- The next address when the `k`-th request is made: a GET uses two, a POST
    three. -/
def next_address : Nat → Address
  | 0 => 0
  | k + 1 => next_address k + if is_post xs k then 3 else 2

/-- The `k`-th request. -/
def request_at : Nat → Perform
  | 0 => next_perform t rt (Heap.empty 0)
  | k + 1 =>
    if is_post xs (k + 1) then
      post_perform t rt (answer rt (request_of (xs k)) (reply handler xs mem k))
        (Heap.empty (next_address xs (k + 1)))
    else next_perform t rt (Heap.empty (next_address xs (k + 1)))

variable {xs} {k : Nat}

/-- After a POST comes a GET. -/
theorem not_is_post_succ (h : is_post xs k = true) : is_post xs (k + 1) = false := by
  rw [is_post_succ, successful_get, h]
  rfl

theorem request_at_get (h : is_post xs k = false) :
    request_at t rt handler xs mem k = next_perform t rt (Heap.empty (next_address xs k)) := by
  cases k with
  | zero => rfl
  | succ k =>
    rw [request_at, if_neg (by simp [h])]

theorem request_at_post (h : is_post xs (k + 1) = true) :
    request_at t rt handler xs mem (k + 1) =
      post_perform t rt (answer rt (request_of (xs k)) (reply handler xs mem k))
        (Heap.empty (next_address xs (k + 1))) := by
  rw [request_at, if_pos h]

theorem memory_succ_get (h : is_post xs (k + 1) = false) :
    memory handler xs mem (k + 1) = memory handler xs mem k := by
  rw [memory, if_neg (by simp [h])]

theorem memory_succ_post (h : is_post xs (k + 1) = true) :
    memory handler xs mem (k + 1) = (handler (memory handler xs mem k) (request_of (xs k))).2 := by
  rw [memory, if_pos h]

end

section
variable {σ : Type} (t : Target) (rt : runtime)
  (handler : σ → invocation_request → invocation_response × σ) (xs : Nat → Exchange) (mem : σ)

/-- What the loop carries from one request to the next. -/
def Pending (r : Loop × σ) : Prop :=
  match r.1.pc with
  | .calling req =>
    ∃ k, r.1.requests = k + 1 ∧ req = request_of (xs k) ∧ r.2 = memory handler xs mem k
  | .posting req res =>
    ∃ k, r.1.requests = k + 1 ∧ req = request_of (xs k) ∧ res = reply handler xs mem k ∧
      r.2 = memory handler xs mem (k + 1)
  | .aborted _ => True
  | _ => r.2 = memory handler xs mem r.1.requests

/-- The call so far has sent what it should, and nothing is left alive. -/
structure Tracked (r : Loop × σ) : Prop where
  requests : r.1.thread.performs =
    (List.range r.1.requests).map (request_at t rt handler xs mem)
  heap : r.1.thread.heap = Heap.empty (next_address xs r.1.requests)
  pending : Pending handler xs mem r

end

section
variable {σ : Type} {s d : Bool} {v : Bytes} {rt : runtime}
  {handler : σ → invocation_request → invocation_response × σ} {xs : Nat → Exchange} {mem : σ}
  {r : Loop × σ}

/-- One more request. -/
theorem Tracked.extend {t : Target} {l : Loop} {p : Perform} (h : Tracked t rt handler xs mem r)
    (hperforms : l.thread.performs = r.1.thread.performs ++ [p])
    (hp : p = request_at t rt handler xs mem r.1.requests) :
    l.requests = r.1.requests + 1 ∧
      l.thread.performs = (List.range l.requests).map (request_at t rt handler xs mem) := by
  have hrequests : l.requests = r.1.requests + 1 := by
    unfold Loop.requests
    rw [hperforms, List.length_append, List.length_singleton]
  refine ⟨hrequests, ?_⟩
  rw [hperforms, hrequests, h.requests, List.range_succ, List.map_append, List.map_singleton, hp]

/-- A GET. -/
theorem Tracked.next (h : Tracked (Target.linux s d v) rt handler xs mem r)
    (hx : WellFormed (Target.linux s d v) (xs r.1.requests)) (hstanding : Standing xs r.1)
    (hpc : r.1.pc = .head) :
    Tracked (Target.linux s d v) rt handler xs mem
      (r.1.next (Target.linux s d v) rt (xs r.1.requests), r.2) := by
  obtain ⟨hget, -, -, -⟩ := hstanding.at_head hpc
  obtain ⟨w, hperforms, heq⟩ := next_of_well_formed rt hx r.1
  have hmemory : r.2 = memory handler xs mem r.1.requests := by
    have hpending := h.pending
    unfold Pending at hpending
    rw [hpc] at hpending
    exact hpending
  have hperforms' := Loop.next_performs (Target.linux s d v) rt (xs r.1.requests) r.1
  rw [h.heap, ← request_at_get (Target.linux s d v) rt handler mem hget] at hperforms'
  obtain ⟨hrequests, hhistory⟩ := h.extend hperforms' rfl
  refine ⟨hhistory, ?_, ?_⟩
  · rw [Loop.next_heap (Target.linux s d v) rt _ hx.next_result h.heap, hrequests, next_address,
      if_neg (by simp [hget])]
  · unfold Pending
    simp only [hrequests]
    rw [heq]
    by_cases hb : BringsInvocation (xs r.1.requests)
    · -- the handler is next
      rw [if_pos hb]
      exact ⟨r.1.requests, rfl, rfl, hmemory⟩
    · rw [if_neg hb]
      have hagain : is_post xs (r.1.requests + 1) = false := by simp [is_post, hb]
      show r.2 = memory handler xs mem (r.1.requests + 1)
      rw [memory_succ_get handler mem hagain]
      exact hmemory

/-- A POST. -/
theorem Tracked.post (h : Tracked (Target.linux s d v) rt handler xs mem r)
    (hstanding : Standing xs r.1) {req : invocation_request} {res : invocation_response}
    (hpc : r.1.pc = .posting req res) :
    Tracked (Target.linux s d v) rt handler xs mem
      (r.1.post (Target.linux s d v) rt req res (xs r.1.requests), r.2) := by
  obtain ⟨hpost, -, -⟩ := hstanding.at_post hpc
  have hpending := h.pending
  unfold Pending at hpending
  rw [hpc] at hpending
  obtain ⟨k, hk, rfl, rfl, hmemory⟩ := hpending
  rw [hk] at hpost
  obtain ⟨w, hperforms, heq⟩ := post_of_any (s := s) (d := d) (v := v) rt (x := xs r.1.requests)
    (request_of (xs k)) (reply handler xs mem k) r.1
  have hperforms' := Loop.post_performs (Target.linux s d v) rt (request_of (xs k))
    (reply handler xs mem k) (xs r.1.requests) r.1
  rw [h.heap, hk, ← request_at_post (Target.linux s d v) rt handler mem hpost] at hperforms'
  obtain ⟨hrequests, hhistory⟩ := h.extend hperforms' (by rw [hk])
  rw [← hk] at hhistory hrequests
  refine ⟨hhistory, ?_, ?_⟩
  · rw [Loop.post_heap (Target.linux s d v) rt _ _ _ post_result_linux h.heap, hrequests,
      next_address, if_pos (by rw [hk]; exact hpost)]
  · -- the handler has nothing to do until the next invocation
    have hmemory' : r.2 = memory handler xs mem (r.1.requests + 1) := by
      rw [hk, memory_succ_get handler mem (not_is_post_succ hpost)]
      exact hmemory
    unfold Pending
    simp only [hrequests]
    rw [heq]
    by_cases ha : Accepts (xs r.1.requests)
    · rw [if_pos ha]
      exact hmemory'
    · rw [if_neg ha]
      exact hmemory'

/-- The handler is called. -/
theorem Tracked.call {t : Target} (h : Tracked t rt handler xs mem r) (hstanding : Standing xs r.1)
    {req : invocation_request} (hpc : r.1.pc = .calling req) :
    Tracked t rt handler xs mem
      ({ r.1 with pc := .posting req (handler r.2 req).1 }, (handler r.2 req).2) := by
  obtain ⟨hpost, -, -⟩ := hstanding.at_call hpc
  have hpending := h.pending
  unfold Pending at hpending
  rw [hpc] at hpending
  obtain ⟨k, hk, rfl, hmemory⟩ := hpending
  refine ⟨h.requests, h.heap, k, hk, rfl, ?_, ?_⟩
  · show (handler r.2 (request_of (xs k))).1 = _
    rw [hmemory]
    rfl
  · rw [hk] at hpost
    show (handler r.2 (request_of (xs k))).2 = _
    rw [memory_succ_post handler mem hpost, hmemory]

/-- The loop condition is false. -/
theorem Tracked.give_up {t : Target} (h : Tracked t rt handler xs mem r) (hpc : r.1.pc = .head) :
    Tracked t rt handler xs mem ({ r.1 with pc := .returned }, r.2) := by
  have hpending := h.pending
  unfold Pending at hpending
  rw [hpc] at hpending
  exact ⟨h.requests, h.heap, hpending⟩

end

/-! ### Whole calls -/

section
variable {σ : Type} {s d : Bool} {v : Bytes}
  (handler : σ → invocation_request → invocation_response × σ) {xs : Nat → Exchange}

theorem run_handler_tracked (hxs : ∀ k, WellFormed (Target.linux s d v) (xs k))
    (env : Option Bytes) (mem : σ) (n : Nat) :
    Tracked (Target.linux s d v) (runtime.for_endpoint (Target.linux s d v) (run_handler_endpoint env))
      handler xs mem (run_handler (Target.linux s d v) handler xs env mem n) := by
  induction n with
  | zero => exact ⟨rfl, rfl, rfl⟩
  | succ n ih =>
    obtain ⟨hstanding, -⟩ := run_handler_standing handler hxs env mem n
    rw [run_handler_succ]
    generalize run_handler (Target.linux s d v) handler xs env mem n = r at ih hstanding
    unfold run_handler_step
    cases hpc : r.1.pc with
    | head =>
      simp only
      split
      · exact ih.next (hxs _) hstanding hpc
      · exact ih.give_up hpc
    | calling req => exact ih.call hstanding hpc
    | posting req res => exact ih.post hstanding hpc
    | returned => exact ih
    | aborted e => exact ih

/-- **The history of a call**: the transfers and the handler decide every
    request of a call, with all its options, headers and bytes. -/
theorem run_handler_history (s d : Bool) (v : Bytes) (env : Option Bytes)
    (hxs : ∀ k, WellFormed (Target.linux s d v) (xs k)) (mem : σ) (n : Nat) :
    (run_handler (Target.linux s d v) handler xs env mem n).1.thread.performs =
      (List.range (run_handler (Target.linux s d v) handler xs env mem n).1.requests).map
        (request_at (Target.linux s d v)
          (runtime.for_endpoint (Target.linux s d v) (run_handler_endpoint env)) handler xs mem) :=
  (run_handler_tracked handler hxs env mem n).requests

/-- An invocation that comes in is answered, unless the call is over before
    it comes. -/
theorem run_handler_answers (hxs : ∀ k, WellFormed (Target.linux s d v) (xs k))
    (env : Option Bytes) (mem : σ) {k : Nat} (hopen : Open xs k)
    (hsuccess : successful_get xs k = true) :
    ∃ n, k + 1 < (run_handler (Target.linux s d v) handler xs env mem n).1.requests := by
  obtain ⟨n, hreturned | hrequests⟩ := run_handler_progress handler hxs env mem (k + 2)
  · -- a call that has returned has got past the invocation
    obtain ⟨hstanding, -⟩ := run_handler_standing handler hxs env mem n
    obtain ⟨j, hrequests, hstops, -⟩ := hstanding.at_return hreturned
    refine ⟨n, ?_⟩
    have hlt : ¬ j < k := fun hlt => hopen j hlt hstops
    have hne : j ≠ k := by
      rintro rfl
      rw [stops_get_iff (get_of_successful hsuccess), failures_succ_of_success hsuccess] at hstops
      exact absurd hstops (by decide)
    omega
  · exact ⟨n, by omega⟩

end

/-! ### From invocation to answer -/

theorem Sends.brings_invocation {inv : Invocation} {x : Exchange} (h : Sends inv x) :
    BringsInvocation x := by
  have hid : received_header x REQUEST_ID_HEADER = true := by
    unfold received_header
    rw [h.lookup_eq (o := some inv.request_id.text) (by simp [Invocation.slots])]
    rfl
  exact ⟨h.ok, h.status.1, h.status.2, received_header_iff.mp hid⟩

/-- A transfer that sends an invocation keeps to the protocol. -/
theorem Sends.well_formed {inv : Invocation} {x : Exchange} (h : Sends inv x) (t : Target) :
    WellFormed t x where
  content_type := by
    intro _
    rw [h.content_type]
    rfl
  deadline := by
    intro text htext
    rw [h.lookup_deadline] at htext
    obtain ⟨n, -, rfl⟩ := Option.map_eq_some_iff.mp htext
    exact n.ok t x.now

theorem FieldText.not_nul (f : FieldText) : (0 : UInt8) ∉ f.text := by
  intro hmem
  exact (f.plain 0 hmem).1 rfl

theorem run_handler_endpoint_not_nul (env : Option Bytes) :
    (0 : UInt8) ∉ run_handler_endpoint env := by
  have hscheme : (0 : UInt8) ∉ ascii "http://" := by decide
  unfold run_handler_endpoint
  cases env with
  | none => exact hscheme
  | some ep =>
    intro hmem
    rcases List.mem_append.mp hmem with h | h
    · exact hscheme h
    · exact Bytes.not_mem_c_str ep h

/-- The request `p` answers `inv` with `res` when its transfer is `x`. -/
structure Delivered (endpoint : Bytes) (inv : Invocation) (res : invocation_response) (x : Exchange)
    (p : Perform) : Prop where
  answers : Answers endpoint inv.request res p
  /-- Nothing of the URL is lost on the way to libcurl. -/
  url : p.options .URL = .text (endpoint ++ ascii "/2018-06-01/runtime/invocation/" ++
    inv.request_id.text ++ if res.is_success then ascii "/response" else ascii "/error")
  /-- libcurl gets as much of the payload as it asks for. -/
  body : p.uploaded x = .ok (res.get_payload.take x.asked)

theorem delivered_answer (t : Target) (env : Option Bytes) (user_agent : Bytes) (inv : Invocation)
    (res : invocation_response) (x : Exchange) (h : Heap) :
    Delivered (run_handler_endpoint env) inv res x
      (post_perform t (runtime.with_user_agent (run_handler_endpoint env) user_agent)
        (answer (runtime.with_user_agent (run_handler_endpoint env) user_agent) inv.request res) h) := by
  have hanswers := answer_answers t (run_handler_endpoint env) user_agent inv.request res h
  refine ⟨hanswers, ?_, uploaded_post ..⟩
  have hnul : (0 : UInt8) ∉ run_handler_endpoint env ++ ascii "/2018-06-01/runtime/invocation/" ++
      inv.request_id.text ++ if res.is_success then ascii "/response" else ascii "/error" := by
    have hpath : (0 : UInt8) ∉ ascii "/2018-06-01/runtime/invocation/" := by decide
    have hkind : (0 : UInt8) ∉ if res.is_success then ascii "/response" else ascii "/error" := by
      cases res.is_success <;> decide
    simp only [List.mem_append, not_or]
    exact ⟨⟨⟨run_handler_endpoint_not_nul env, hpath⟩, inv.request_id.not_nul⟩, hkind⟩
  rw [hanswers.url]
  exact congrArg OptionValue.text (Bytes.c_str_of_not_mem hnul)

/-- The request after an invocation is the handler's answer to it. -/
theorem answer_sent {σ : Type} (s d : Bool) (v : Bytes) (env : Option Bytes)
    (handler : σ → invocation_request → invocation_response × σ) (mem : σ) {xs : Nat → Exchange}
    (hxs : ∀ k, WellFormed (Target.linux s d v) (xs k)) {k : Nat} (hopen : Open xs k)
    (hget : is_post xs k = false) {inv : Invocation} (hsends : Sends inv (xs k)) :
    ∃ n user_agent h, (run_handler (Target.linux s d v) handler xs env mem n).1.thread.performs[k + 1]? =
      some (post_perform (Target.linux s d v)
        (runtime.with_user_agent (run_handler_endpoint env) user_agent)
        (answer (runtime.with_user_agent (run_handler_endpoint env) user_agent) inv.request
          (handler (memory handler xs mem k) inv.request).1) h) := by
  have hsuccess : successful_get xs k = true := by
    simp [successful_get, hget, hsends.brings_invocation]
  obtain ⟨n, hn⟩ := run_handler_answers handler hxs env mem hopen hsuccess
  refine ⟨n, ascii "AWS_Lambda_Cpp/" ++ v, Heap.empty (next_address xs (k + 1)), ?_⟩
  rw [(run_handler_tracked handler hxs env mem n).requests, List.getElem?_map, List.getElem?_range hn,
    Option.map_some, request_at_post _ _ _ _ (is_post_succ.trans hsuccess)]
  unfold reply
  rw [hsends.request_of_eq]
  rfl

/-- **End to end**: an invocation that comes in, in any encoding, while the
    call is going on, is handed to the handler as it was sent, and the
    request after it takes the handler's answer to the invocation's own
    URL, byte for byte. -/
theorem end_to_end {σ : Type} (s d : Bool) (v : Bytes) (env : Option Bytes)
    (handler : σ → invocation_request → invocation_response × σ) (mem : σ) {xs : Nat → Exchange}
    (hxs : ∀ k, WellFormed (Target.linux s d v) (xs k)) {k : Nat} (hopen : Open xs k)
    (hget : is_post xs k = false) {inv : Invocation} (hsends : Sends inv (xs k)) :
    ∃ n p, (run_handler (Target.linux s d v) handler xs env mem n).1.thread.performs[k + 1]? =
        some p ∧
      Delivered (run_handler_endpoint env) inv
        (handler (memory handler xs mem k) inv.request).1 (xs (k + 1)) p := by
  obtain ⟨n, user_agent, h, hsent⟩ := answer_sent s d v env handler mem hxs hopen hget hsends
  exact ⟨n, _, hsent, delivered_answer ..⟩

/-! ### The echo function -/

/-- The handler of the test function that returns what it is sent. -/
def echo_success (request : invocation_request) : invocation_response :=
  .success request.payload (ascii "application/json")

/-- **Echo**: every body, sent in any pieces, comes back in whatever pieces
    libcurl asks for. -/
theorem echo_returns_body (s d : Bool) (v : Bytes) (env : Option Bytes) {xs : Nat → Exchange}
    (hxs : ∀ k, WellFormed (Target.linux s d v) (xs k)) {k : Nat} (hopen : Open xs k)
    (hget : is_post xs k = false) {inv : Invocation} (hsends : Sends inv (xs k))
    (hasked : inv.body.length ≤ (xs (k + 1)).asked) :
    ∃ n p, (run_handler (Target.linux s d v) (fun _ req => (echo_success req, ())) xs env ()
        n).1.thread.performs[k + 1]? = some p ∧
      p.uploaded (xs (k + 1)) = .ok inv.body ∧
      p.options .URL = .text (run_handler_endpoint env ++ ascii "/2018-06-01/runtime/invocation/" ++
        inv.request_id.text ++ ascii "/response") := by
  obtain ⟨n, user_agent, h, hsent⟩ := answer_sent s d v env
    (fun (_ : Unit) req => (echo_success req, ())) () hxs hopen hget hsends
  have hdelivered := delivered_answer (Target.linux s d v) env user_agent inv
    (echo_success inv.request) (xs (k + 1)) h
  refine ⟨n, _, hsent, ?_, hdelivered.url⟩
  rw [hdelivered.body]
  show Except.ok (inv.body.take _) = _
  rw [List.take_of_length_le hasked]

/-! ### A call -/

/-- An invocation, a POST that is read in two pieces, and nothing more. -/
def echo_exchanges (k : Nat) : Exchange :=
  if k = 0 then traced_exchange
  else if k = 1 then { seven_exchange with callbacks := [.read 1 3, .read 1 16384] }
  else lost_exchange

theorem echo_exchanges_well_formed (k : Nat) :
    WellFormed (Target.linux true false []) (echo_exchanges k) := by
  unfold echo_exchanges
  split
  · exact traced_exchange_sends.well_formed _
  · split
    · exact .of_no_deadline (by decide) (by decide +kernel)
    · exact .of_no_deadline (by decide) (by decide +kernel)

/-- Three steps of the call: the GET, the handler, and the POST of its
    answer. -/
theorem run_handler_history_echo :
    let t := Target.linux true false []
    let rt := runtime.for_endpoint t (run_handler_endpoint none)
    (run_handler t (fun _ req => (echo_success req, ())) echo_exchanges none () 3).1.thread.performs =
      [next_perform t rt (Heap.empty 0),
        post_perform t rt (answer rt traced_invocation.request
          (echo_success traced_invocation.request)) (Heap.empty 2)] := by
  intro t rt
  let handler : Unit → invocation_request → invocation_response × Unit :=
    fun _ req => (echo_success req, ())
  have hrequests : (run_handler t handler echo_exchanges none () 3).1.requests = 2 := by
    decide +kernel
  have hpost : is_post echo_exchanges 1 = true := by decide +kernel
  have hrequest : request_of (echo_exchanges 0) = traced_invocation.request :=
    traced_exchange_sends.request_of_eq
  have hsecond : request_at t rt handler echo_exchanges () 1 =
      post_perform t rt (answer rt traced_invocation.request
        (echo_success traced_invocation.request)) (Heap.empty 2) := by
    rw [request_at_post t rt handler () hpost, hrequest]
    show post_perform t rt (answer rt _ (echo_success (request_of (echo_exchanges 0)))) _ = _
    rw [hrequest]
    rfl
  rw [run_handler_history handler true false [] none echo_exchanges_well_formed () 3, hrequests,
    List.range_succ, List.range_one, List.map_append, List.map_singleton, List.map_singleton,
    hsecond]
  rfl

/-- Libcurl has seen three bytes of the answer before it asks for the
    rest. -/
theorem end_to_end_traced :
    ∃ n p, (run_handler (Target.linux true false []) (fun _ req => (echo_success req, ()))
        echo_exchanges none () n).1.thread.performs[1]? = some p ∧
      p.options .URL = .text (ascii "http:///2018-06-01/runtime/invocation/8476a536/response") ∧
      p.uploaded (echo_exchanges 1) = .ok (ascii "[1,2]") := by
  obtain ⟨n, p, hp, hdelivered⟩ := end_to_end true false [] none
    (fun (_ : Unit) req => (echo_success req, ())) () echo_exchanges_well_formed (k := 0)
    (fun j hj => absurd hj (Nat.not_lt_zero j)) rfl traced_exchange_sends
  refine ⟨n, p, hp, ?_, ?_⟩
  · have hurl : run_handler_endpoint none ++ ascii "/2018-06-01/runtime/invocation/" ++
        traced_invocation.request_id.text ++ (if (echo_success traced_invocation.request).is_success
          then ascii "/response" else ascii "/error") =
        ascii "http:///2018-06-01/runtime/invocation/8476a536/response" := by decide +kernel
    rw [hdelivered.url]
    exact congrArg OptionValue.text hurl
  · have hbody : (echo_success traced_invocation.request).get_payload.take
        (echo_exchanges 1).asked = ascii "[1,2]" := by decide +kernel
    rw [hdelivered.body]
    exact congrArg Except.ok hbody

theorem echo_returns_body_traced :
    ∃ n p, (run_handler (Target.linux true false []) (fun _ req => (echo_success req, ()))
        echo_exchanges none () n).1.thread.performs[1]? = some p ∧
      p.uploaded (echo_exchanges 1) = .ok traced_invocation.body := by
  have hasked : traced_invocation.body.length ≤ (echo_exchanges 1).asked := by decide +kernel
  obtain ⟨n, p, hp, hbody, -⟩ := echo_returns_body true false [] none echo_exchanges_well_formed
    (k := 0) (fun j hj => absurd hj (Nat.not_lt_zero j)) rfl traced_exchange_sends hasked
  exact ⟨n, p, hp, hbody⟩

end LambdaCpp
