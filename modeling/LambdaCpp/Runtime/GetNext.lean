import LambdaCpp.Runtime.Curl
import LambdaCpp.Runtime.InvocationRequest

/-! # `runtime::get_next`

    The `runtime` object, the options of a GET and `get_next` itself, from
    the request to the `invocation_request` it returns.

    `get_next_eq` gives the whole call in one equation for any state the
    thread is in; `get_next_classifies_iff` states when the call stays inside the
    defined behaviour of the program and what it returns then.
-/

namespace LambdaCpp

open Bytes (ascii)

@[irreducible] def REQUEST_ID_HEADER : Bytes := ascii "lambda-runtime-aws-request-id"
@[irreducible] def TRACE_ID_HEADER : Bytes := ascii "lambda-runtime-trace-id"
@[irreducible] def CLIENT_CONTEXT_HEADER : Bytes := ascii "lambda-runtime-client-context"
@[irreducible] def COGNITO_IDENTITY_HEADER : Bytes := ascii "lambda-runtime-cognito-identity"
@[irreducible] def DEADLINE_MS_HEADER : Bytes := ascii "lambda-runtime-deadline-ms"
@[irreducible] def FUNCTION_ARN_HEADER : Bytes := ascii "lambda-runtime-invoked-function-arn"
@[irreducible] def TENANT_ID_HEADER : Bytes := ascii "lambda-runtime-aws-tenant-id"
@[irreducible] def INVOCATION_ID_HEADER : Bytes := ascii "lambda-runtime-invocation-id"

/-- The names `get_next` looks up. -/
def known_headers : List Bytes :=
  [REQUEST_ID_HEADER, TRACE_ID_HEADER, CLIENT_CONTEXT_HEADER, COGNITO_IDENTITY_HEADER,
    FUNCTION_ARN_HEADER, TENANT_ID_HEADER, INVOCATION_ID_HEADER, DEADLINE_MS_HEADER]

theorem known_headers_nodup : known_headers.Nodup := by decide +kernel

/-- The names are C strings without colons, white space or upper-case letters. -/
theorem known_headers_plain : ∀ h ∈ known_headers,
    (0 : UInt8) ∉ h ∧ (0x3a : UInt8) ∉ h ∧ (∀ b ∈ h, Bytes.isSpace b = false) ∧
      ∀ b ∈ h, Bytes.isUpper b = false := by decide +kernel

/-! ### The runtime object -/

inductive Endpoints where
  | INIT | NEXT | RESULT
  deriving DecidableEq, Repr

structure runtime where
  m_user_agent_header : Bytes
  m_endpoints : Endpoints → Bytes

/-- `runtime(endpoint, user_agent)`. -/
def runtime.with_user_agent (endpoint user_agent : Bytes) : runtime where
  m_user_agent_header := ascii "User-Agent: " ++ user_agent
  m_endpoints := fun
    | .INIT => endpoint ++ ascii "/2018-06-01/runtime/init/error"
    | .NEXT => endpoint ++ ascii "/2018-06-01/runtime/invocation/next"
    | .RESULT => endpoint ++ ascii "/2018-06-01/runtime/invocation/"

variable (t : Target)

/-- `runtime(endpoint)`. -/
def runtime.for_endpoint (endpoint : Bytes) : runtime :=
  runtime.with_user_agent endpoint (ascii "AWS_Lambda_Cpp/" ++ t.version)

/-! ### The code -/

variable (rt : runtime)

def set_curl_next_options : M Unit := do
  curl_easy_reset
  curl_easy_setopt .TIMEOUT (.long 0)
  curl_easy_setopt .CONNECTTIMEOUT (.long 1)
  curl_easy_setopt .NOSIGNAL (.long 1)
  curl_easy_setopt .TCP_NODELAY (.long 1)
  curl_easy_setopt .HTTP_VERSION (.long CURL_HTTP_VERSION_1_1)
  curl_easy_setopt .HTTPGET (.long 1)
  curl_easy_setopt .URL (.text (Bytes.c_str (rt.m_endpoints .NEXT)))
  curl_easy_setopt .WRITEFUNCTION (.function .write_data)
  curl_easy_setopt .HEADERFUNCTION (.function .write_header)
  curl_easy_setopt .PROXY (.text [])
  if !t.ndebug then
    curl_easy_setopt .VERBOSE (.long 1)
    curl_easy_setopt .DEBUGFUNCTION (.function .rt_curl_debug_callback)

abbrev next_outcome : Type := outcome invocation_request response_code

/-- `if (out.is_success()) { req.field = std::move(out).get_result(); }`. -/
def assign_if_success (out : outcome Bytes Bool) (req : invocation_request)
    (set : invocation_request → Bytes → invocation_request) : Checked invocation_request := do
  if out.is_success then
    let value ← out.get_result t
    return set req value
  else return req

/-- The part of `get_next` that reads the optional headers. -/
def read_fields (resp : response) (req : invocation_request) : Checked invocation_request := do
  let out := resp.get_header TRACE_ID_HEADER
  let req ← assign_if_success t out req fun req s => { req with xray_trace_id := s }
  let out := resp.get_header CLIENT_CONTEXT_HEADER
  let req ← assign_if_success t out req fun req s => { req with client_context := s }
  let out := resp.get_header COGNITO_IDENTITY_HEADER
  let req ← assign_if_success t out req fun req s => { req with cognito_identity := s }
  let out := resp.get_header FUNCTION_ARN_HEADER
  let req ← assign_if_success t out req fun req s => { req with function_arn := s }
  let out := resp.get_header TENANT_ID_HEADER
  let req ← assign_if_success t out req fun req s => { req with tenant_id := s }
  let out := resp.get_header INVOCATION_ID_HEADER
  assign_if_success t out req fun req s => { req with invocation_id := s }

/-- `get_next` from the response code on, once the transfer succeeded.

    Its log calls are in `Runtime.Logs`.  With `AWS_LAMBDA_LOG` at 1 or more
    the payload of a request with a deadline is logged too, and `log` itself
    leaves the defined behaviour if that text has `INT_MAX` bytes or more. -/
def read_next (x : Exchange) (resp : response) : Checked next_outcome := do
  let resp := resp.set_response_code x.response_code
  let resp ← resp.set_content_type x.content_type
  let code ← resp.get_response_code
  if !is_success code then
    return .failure code
  let out := resp.get_header REQUEST_ID_HEADER
  if !out.is_success then
    return .failure REQUEST_NOT_MADE
  let req := invocation_request.default_init
  let req := { req with payload := resp.get_body }
  let request_id ← out.get_result t
  let req := { req with request_id := request_id }
  let req := { req with content_type := resp.get_content_type }
  let req ← read_fields t resp req
  let out := resp.get_header DEADLINE_MS_HEADER
  if out.is_success then
    let deadline_string ← out.get_result t
    let req ← read_deadline t (x.now.val : Int) deadline_string req
    return .result req
  else return .result req

/-- `get_next` after the transfer. -/
def next_of_response (x : Exchange) (resp : Address) (curl_code : CURLcode) : M next_outcome :=
  if curl_code ≠ CURLE_OK then pure (.failure REQUEST_NOT_MADE)
  else do
    let received ← load_response resp
    M.lift (read_next t x received)

def get_next (x : Exchange) : M next_outcome := do
  let resp ← new_response .default_init
  set_curl_next_options t rt
  curl_easy_setopt .WRITEDATA (.pointer resp)
  curl_easy_setopt .HEADERDATA (.pointer resp)
  let headers ← curl_slist_append none rt.m_user_agent_header
  curl_easy_setopt .HTTPHEADER (slist_value headers)
  let curl_code ← curl_easy_perform t x
  curl_slist_free_all headers
  let out ← next_of_response t x resp curl_code
  -- the response goes out of scope
  delete_response resp
  pure out

/-! ### The request it makes -/

/-- The option table of a GET with response `p` and header list `h`. -/
def next_options (p h : Address) : OptionTable
  | .TIMEOUT => .long 0
  | .CONNECTTIMEOUT => .long 1
  | .NOSIGNAL => .long 1
  | .TCP_NODELAY => .long 1
  | .HTTP_VERSION => .long CURL_HTTP_VERSION_1_1
  | .HTTPGET => .long 1
  | .URL => .text (Bytes.c_str (rt.m_endpoints .NEXT))
  | .WRITEFUNCTION => .function .write_data
  | .HEADERFUNCTION => .function .write_header
  | .PROXY => .text []
  | .VERBOSE => if t.ndebug then .default else .long 1
  | .DEBUGFUNCTION => if t.ndebug then .default else .function .rt_curl_debug_callback
  | .WRITEDATA => .pointer p
  | .HEADERDATA => .pointer p
  | .HTTPHEADER => .pointer h
  | _ => .default

/-- The objects alive during a GET: the response and the header list. -/
def next_heap (h : Heap) : Heap where
  responses := Function.update h.responses h.fresh (some .default_init)
  uploads := h.uploads
  slists := Function.update h.slists (h.fresh + 1) (some [Bytes.c_str rt.m_user_agent_header])
  fresh := h.fresh + 2

/-- The handle and the objects when `get_next` performs its request. -/
def next_perform (h : Heap) : Perform :=
  ⟨next_options t rt h.fresh (h.fresh + 1), next_heap rt h⟩

/-- The thread when `get_next` performs its request. -/
def Thread.at_next (w : Thread) : Thread where
  handle := next_options t rt w.heap.fresh (w.heap.fresh + 1)
  heap := next_heap rt w.heap
  performs := w.performs

/-! ### The call as a whole -/

theorem set_curl_next_options_eq (w : Thread) :
    ∃ o : OptionTable, set_curl_next_options t rt w = (.ok (), { w with handle := o }) ∧
      ∀ p h, Function.update (Function.update (Function.update o .WRITEDATA (.pointer p))
        .HEADERDATA (.pointer p)) .HTTPHEADER (.pointer h) = next_options t rt p h := by
  cases hd : t.ndebug with
  | true =>
    refine ⟨_, by unfold set_curl_next_options; simp only [hd]; rfl, ?_⟩
    intro p h; funext o
    cases o <;> simp [Function.update, next_options, hd]
  | false =>
    refine ⟨_, by unfold set_curl_next_options; simp only [hd]; rfl, ?_⟩
    intro p h; funext o
    cases o <;> simp [Function.update, next_options, hd]

/-- What `get_next` makes of a transfer. -/
def next_result (x : Exchange) : Checked next_outcome := do
  let resp ← receive t x.callbacks .default_init
  if x.code ≠ CURLE_OK then return .failure REQUEST_NOT_MADE
  else read_next t x resp

theorem Thread.at_next_listening (w : Thread) :
    Listening w.heap.fresh .default_init (w.at_next t rt) where
  header_function := rfl
  header_data := rfl
  write_function := rfl
  write_data := rfl
  live := by simp [Thread.at_next, next_heap]
  upload := by simp [Thread.at_next, next_options]

/-- Everything `get_next` does before the transfer. -/
theorem get_next_prologue (x : Exchange) (w : Thread) :
    get_next t rt x w = (do
      let curl_code ← curl_easy_perform t x
      curl_slist_free_all (some (w.heap.fresh + 1))
      let out ← next_of_response t x w.heap.fresh curl_code
      delete_response w.heap.fresh
      pure out : M next_outcome) (w.at_next t rt) := by
  unfold get_next
  -- the response comes first, so its address is the one that was fresh
  rw [M.bind_ok (new_response_run ..)]
  obtain ⟨o, hset, htable⟩ := set_curl_next_options_eq t rt
    { w with heap := { w.heap with
      responses := Function.update w.heap.responses w.heap.fresh (some .default_init)
      fresh := w.heap.fresh + 1 } }
  rw [M.bind_ok hset, M.bind_ok (curl_easy_setopt_run ..), M.bind_ok (curl_easy_setopt_run ..),
    M.bind_ok (curl_slist_start_run ..), M.bind_ok (curl_easy_setopt_run ..)]
  simp only [slist_value, Thread.with_slist, htable]
  rfl

theorem next_of_response_run (x : Exchange) {p : Address} {resp : response} {w : Thread}
    (hp : w.heap.responses p = some resp) (hr : receive t x.callbacks .default_init = .ok resp) :
    next_of_response t x p x.code w = (next_result t x, w) := by
  unfold next_of_response next_result
  rw [hr]
  by_cases hcode : x.code = CURLE_OK
  · simp [hcode, load_response, hp, M.bind_run, M.lift]
  · simp [hcode]

/-- **`get_next`** from any state of the thread: its result is that of the
    transfer, it performs one request, and when it returns it has released
    what it created. -/
theorem get_next_eq (x : Exchange) (w : Thread) :
    ∃ w', get_next t rt x w = (next_result t x, w') ∧
      w'.performs = w.performs ++ [next_perform t rt w.heap] ∧
      ∀ out n, next_result t x = .ok out → w.heap = Heap.empty n → w'.heap = Heap.empty (n + 2) := by
  rw [get_next_prologue]
  rcases curl_easy_perform_eq (t := t) x (w.at_next_listening t rt) with
    ⟨resp, u, hr, hu, hp⟩ | ⟨e, w', hr, hw', hp⟩
  · -- the thread once the header list is freed
    let w₁ : Thread := {
      handle := next_options t rt w.heap.fresh (w.heap.fresh + 1)
      heap :=
        { responses := Function.update w.heap.responses w.heap.fresh (some resp)
          uploads := u
          slists := Function.update w.heap.slists (w.heap.fresh + 1) none
          fresh := w.heap.fresh + 2 }
      performs := w.performs ++ [next_perform t rt w.heap] }
    have hfree : curl_slist_free_all (some (w.heap.fresh + 1))
        ((w.at_next t rt).record.received w.heap.fresh resp u) = (.ok (), w₁) := by
      simp [curl_slist_free_all, Thread.received, Thread.record, Thread.at_next, next_heap,
        next_perform, w₁]
    have hlive : w₁.heap.responses w.heap.fresh = some resp := by simp [w₁]
    rw [M.bind_ok hp, M.bind_ok hfree]
    have hout := next_of_response_run t x hlive hr
    cases hresult : next_result t x with
    | error e =>
      -- reading the response faulted
      rw [hresult] at hout
      refine ⟨w₁, M.bind_error hout, rfl, ?_⟩
      intro out n h
      cases h
    | ok out =>
      rw [hresult] at hout
      have hdelete : delete_response w.heap.fresh w₁ = (.ok (), { w₁ with heap := { w₁.heap with
          responses := Function.update w.heap.responses w.heap.fresh none } }) := by
        simp [delete_response, w₁]
      rw [M.bind_ok hout, M.bind_ok hdelete]
      refine ⟨_, rfl, rfl, ?_⟩
      intro out' n _ hn
      -- the transfer created no upload context
      have hu' : u = fun _ => none := by
        funext a
        have hnone : (w.at_next t rt).heap.uploads a = none := by
          simp [Thread.at_next, next_heap, hn, Heap.empty]
        exact hu.none_of hnone
      simp [hn, hu', Heap.empty, w₁]
  · -- a callback faulted
    have hresult : next_result t x = .error e := by
      unfold next_result
      rw [hr]; rfl
    rw [M.bind_error hp, hresult]
    refine ⟨w', rfl, hw', ?_⟩
    intro out n h
    cases h

/-! ### Classification -/

/-- What was received under a name, or the empty string. -/
def field (hs : List (Bytes × Bytes)) (name : Bytes) : Bytes := (lookup name hs).getD []

/-- The invocation in a transfer, with the deadline its header gives. -/
def request_of (x : Exchange) : invocation_request where
  payload := x.chunks.flatten
  request_id := field (headers_of x.lines) REQUEST_ID_HEADER
  xray_trace_id := field (headers_of x.lines) TRACE_ID_HEADER
  client_context := field (headers_of x.lines) CLIENT_CONTEXT_HEADER
  cognito_identity := field (headers_of x.lines) COGNITO_IDENTITY_HEADER
  function_arn := field (headers_of x.lines) FUNCTION_ARN_HEADER
  content_type := Bytes.c_str (x.content_type.getD [])
  deadline := match lookup DEADLINE_MS_HEADER (headers_of x.lines) with
    | none => 0
    | some text => to_int64 (strtoul text) * 1000000
  tenant_id := field (headers_of x.lines) TENANT_ID_HEADER
  invocation_id := field (headers_of x.lines) INVOCATION_ID_HEADER

/-- Some line gives the header a text. -/
def received_header (x : Exchange) (name : Bytes) : Bool :=
  (lookup name (headers_of x.lines)).isSome

/-- The transfer brought an invocation. -/
def has_invocation (x : Exchange) : Bool :=
  x.code = CURLE_OK && is_success x.response_code && received_header x REQUEST_ID_HEADER

/-- How `get_next` should answer a transfer. -/
def classify (x : Exchange) : next_outcome :=
  if x.code ≠ CURLE_OK then .failure REQUEST_NOT_MADE
  else if !is_success x.response_code then .failure x.response_code
  else if !received_header x REQUEST_ID_HEADER then .failure REQUEST_NOT_MADE
  else .result (request_of x)

theorem classify_of_has_invocation {x : Exchange} (h : has_invocation x = true) :
    classify x = .result (request_of x) := by
  simp only [has_invocation, Bool.and_eq_true, decide_eq_true_eq] at h
  obtain ⟨⟨hok, hcode⟩, hid⟩ := h
  simp [classify, hok, hcode, hid]

theorem classify_of_not_has_invocation {x : Exchange} (h : has_invocation x = false) :
    ∃ c, classify x = .failure c := by
  unfold classify
  by_cases hok : x.code = CURLE_OK
  · cases hcode : is_success x.response_code with
    | false => exact ⟨x.response_code, by simp [hok]⟩
    | true =>
      have hid : received_header x REQUEST_ID_HEADER = false := by
        simpa [has_invocation, hok, hcode] using h
      exact ⟨REQUEST_NOT_MADE, by simp [hok, hid]⟩
  · exact ⟨REQUEST_NOT_MADE, by simp [hok]⟩

/-- The transfers `get_next` can process inside the defined behaviour of the
    program: every name is in the domain of `::tolower`, a completed
    transfer has a content type, and the deadline of an invocation can be
    read. -/
def next_defined (x : Exchange) : Bool :=
  x.lines.all (lowerable_line t) && (x.code ≠ CURLE_OK || x.content_type.isSome) &&
    (!has_invocation x || match lookup DEADLINE_MS_HEADER (headers_of x.lines) with
      | none => true
      | some text => deadline_ok t (x.now.val : Int) text)

theorem assign_if_success_eq (resp : response) {h : Bytes} (hnul : 0 ∉ h)
    {req : invocation_request} {set : invocation_request → Bytes → invocation_request} {old : Bytes}
    (hset : set req old = req) :
    assign_if_success t (resp.get_header h) req set =
      .ok (set req ((lookup h resp.m_headers).getD old)) := by
  rw [get_header_eq resp hnul]
  cases lookup h resp.m_headers with
  | none => simp [assign_if_success, hset]
  | some v => simp [assign_if_success]

theorem known_headers_nul {h : Bytes} (hh : h ∈ known_headers) : 0 ∉ h :=
  (known_headers_plain h hh).1

/-- Each optional header goes into its own field. -/
theorem read_fields_eq (resp : response) (req : invocation_request) :
    read_fields t resp req = .ok { req with
      xray_trace_id := (lookup TRACE_ID_HEADER resp.m_headers).getD req.xray_trace_id
      client_context := (lookup CLIENT_CONTEXT_HEADER resp.m_headers).getD req.client_context
      cognito_identity := (lookup COGNITO_IDENTITY_HEADER resp.m_headers).getD req.cognito_identity
      function_arn := (lookup FUNCTION_ARN_HEADER resp.m_headers).getD req.function_arn
      tenant_id := (lookup TENANT_ID_HEADER resp.m_headers).getD req.tenant_id
      invocation_id := (lookup INVOCATION_ID_HEADER resp.m_headers).getD req.invocation_id } := by
  -- `out` is reused for every header; a failed lookup leaves the field as it was
  have hassign : ∀ h ∈ known_headers, ∀ (old : invocation_request → Bytes)
      (set : invocation_request → Bytes → invocation_request), (∀ req, set req (old req) = req) →
      ∀ req, assign_if_success t (resp.get_header h) req set =
        .ok (set req ((lookup h resp.m_headers).getD (old req))) :=
    fun h hh old set hset req => assign_if_success_eq t resp (known_headers_nul hh) (hset req)
  have htrace := hassign TRACE_ID_HEADER (by simp [known_headers]) (·.xray_trace_id)
    (fun req s => { req with xray_trace_id := s }) (fun _ => rfl)
  have hclient := hassign CLIENT_CONTEXT_HEADER (by simp [known_headers]) (·.client_context)
    (fun req s => { req with client_context := s }) (fun _ => rfl)
  have hcognito := hassign COGNITO_IDENTITY_HEADER (by simp [known_headers]) (·.cognito_identity)
    (fun req s => { req with cognito_identity := s }) (fun _ => rfl)
  have harn := hassign FUNCTION_ARN_HEADER (by simp [known_headers]) (·.function_arn)
    (fun req s => { req with function_arn := s }) (fun _ => rfl)
  have htenant := hassign TENANT_ID_HEADER (by simp [known_headers]) (·.tenant_id)
    (fun req s => { req with tenant_id := s }) (fun _ => rfl)
  have hinvocation := hassign INVOCATION_ID_HEADER (by simp [known_headers]) (·.invocation_id)
    (fun req s => { req with invocation_id := s }) (fun _ => rfl)
  unfold read_fields
  simp only [htrace, hclient, hcognito, harn, htenant, hinvocation, Checked.ok_bind]

theorem read_next_success (x : Exchange) {resp : response} {ct : Bytes}
    (hheaders : resp.m_headers = headers_of x.lines) (hbody : resp.m_body = x.chunks.flatten)
    (hct : x.content_type = some ct) (hcode : is_success x.response_code = true)
    (hid : received_header x REQUEST_ID_HEADER = true) :
    read_next t x resp =
      match lookup DEADLINE_MS_HEADER (headers_of x.lines) with
      | none => .ok (.result (request_of x))
      | some text => do
        let req ← read_deadline t (x.now.val : Int) text { request_of x with deadline := 0 }
        return .result req := by
  obtain ⟨id, hid⟩ := Option.isSome_iff_exists.mp hid
  -- the response once its status and content type are set
  have hget : ∀ {h}, h ∈ known_headers →
      response.get_header
          ⟨some x.response_code, headers_of x.lines, x.chunks.flatten, Bytes.c_str ct⟩ h =
        match lookup h (headers_of x.lines) with
        | none => .failure false
        | some v => .result v :=
    fun hh => get_header_eq _ (known_headers_nul hh)
  have hrequest := hget (h := REQUEST_ID_HEADER) (by simp [known_headers])
  have hdeadline := hget (h := DEADLINE_MS_HEADER) (by simp [known_headers])
  rw [hid] at hrequest
  unfold read_next
  simp only [hct, response.set_content_type, response.set_response_code, Checked.ok_bind,
    response.get_response_code, hcode, hheaders, hbody, hrequest, read_fields_eq]
  cases htext : lookup DEADLINE_MS_HEADER (headers_of x.lines) with
  | none =>
    -- without the header the deadline stays at the epoch
    rw [htext] at hdeadline
    simp [hdeadline, request_of, field, hid, htext, hct, response.get_body,
      response.get_content_type, invocation_request.default_init]
  | some text =>
    rw [htext] at hdeadline
    simp [hdeadline, request_of, field, hid, hct, response.get_body,
      response.get_content_type, invocation_request.default_init]

theorem read_next_failure (x : Exchange) {resp : response} {ct : Bytes}
    (hheaders : resp.m_headers = headers_of x.lines) (hct : x.content_type = some ct)
    (hok : x.code = CURLE_OK) (hinv : has_invocation x = false) :
    read_next t x resp = .ok (classify x) := by
  unfold read_next
  by_cases hcode : is_success x.response_code = true
  · -- a 2xx without a request id
    have hid : received_header x REQUEST_ID_HEADER = false := by
      simpa [has_invocation, hok, hcode] using hinv
    have hnone : lookup REQUEST_ID_HEADER (headers_of x.lines) = none := by
      simpa [received_header] using hid
    have hrequest := get_header_eq
      ⟨some x.response_code, headers_of x.lines, resp.m_body, Bytes.c_str ct⟩
      (known_headers_nul (h := REQUEST_ID_HEADER) (by simp [known_headers]))
    rw [hnone] at hrequest
    simp [hct, response.set_content_type, response.set_response_code, response.get_response_code,
      hcode, hheaders, hrequest, classify, hok, hid]
  · simp [hct, response.set_content_type, response.set_response_code, response.get_response_code,
      hcode, classify, hok]

theorem read_next_eq (x : Exchange) {resp : response}
    (hheaders : resp.m_headers = headers_of x.lines) (hbody : resp.m_body = x.chunks.flatten)
    (hok : x.code = CURLE_OK) (hlines : x.lines.all (lowerable_line t) = true) :
    if next_defined t x then read_next t x resp = .ok (classify x)
    else ∃ e, read_next t x resp = .error e := by
  cases hct : x.content_type with
  | none =>
    -- `set_content_type` comes before the status check
    have hdefined : next_defined t x = false := by simp [next_defined, hct, hok]
    simp [hdefined, read_next, hct, response.set_content_type]
  | some ct =>
    have hlines' : (x.lines.all (lowerable_line t) && (x.code ≠ CURLE_OK || x.content_type.isSome)) =
        true := by rw [hlines, hct]; simp
    by_cases hinv : has_invocation x = true
    · have hinv' := hinv
      simp only [has_invocation, Bool.and_eq_true] at hinv'
      obtain ⟨⟨-, hcode⟩, hid⟩ := hinv'
      rw [read_next_success t x hheaders hbody hct hcode hid, classify_of_has_invocation hinv]
      unfold next_defined
      rw [hlines', hinv]
      cases hdeadline : lookup DEADLINE_MS_HEADER (headers_of x.lines) with
      | none => simp
      | some text =>
        have hread : if deadline_ok t (x.now.val : Int) text then
            read_deadline t (x.now.val : Int) text { request_of x with deadline := 0 } =
              .ok { request_of x with deadline := to_int64 (strtoul text) * 1000000 }
            else ∃ e, read_deadline t (x.now.val : Int) text { request_of x with deadline := 0 } =
              .error e := read_deadline_eq t rfl
        have hreq : { request_of x with deadline := to_int64 (strtoul text) * 1000000 } =
            request_of x := by
          simp [request_of, hdeadline]
        rw [hreq] at hread
        by_cases hok : deadline_ok t (x.now.val : Int) text = true
        · rw [if_pos hok] at hread
          simp [hok, hread]
        · rw [if_neg hok] at hread
          obtain ⟨e, he⟩ := hread
          simp [hok, he]
    · -- no invocation: the deadline is not looked at
      have hdefined : next_defined t x = true := by
        unfold next_defined
        rw [hlines']
        simp [hinv]
      rw [if_pos hdefined]
      exact read_next_failure t x hheaders hct hok (by simpa using hinv)

/-- **What `get_next` answers**: inside the defined behaviour, the
    classification of the transfer. -/
theorem next_result_eq (x : Exchange) :
    if next_defined t x then next_result t x = .ok (classify x)
    else ∃ e, next_result t x = .error e := by
  unfold next_result
  rw [receive_eq]
  by_cases hlines : x.lines.all (lowerable_line t) = true
  · -- every header was stored
    rw [if_pos hlines, Checked.ok_bind]
    by_cases hcode : x.code = CURLE_OK
    · have hheaders : response.default_init.m_headers ++ headers_of x.lines = headers_of x.lines :=
        List.nil_append _
      have hbody : response.default_init.m_body ++ x.chunks.flatten = x.chunks.flatten :=
        List.nil_append _
      rw [if_neg (not_not.mpr hcode), hheaders, hbody]
      exact read_next_eq t x rfl rfl hcode hlines
    · have hdefined : next_defined t x = true := by
        simp only [next_defined, has_invocation, hlines]
        simp [hcode]
      simp [hdefined, hcode, classify]
  · -- `write_header` faulted during the transfer
    have hdefined : next_defined t x = false := by
      simp only [next_defined, hlines]
      simp
    rw [if_neg hlines]
    simp [hdefined]

/-! ### Totality and classification -/

theorem received_header_iff {x : Exchange} {name : Bytes} :
    received_header x name = true ↔
      ∃ line ∈ x.lines, ∃ value, IsHeaderLine name value line :=
  lookup_headers_of_isSome_iff

/-- What the answer to a transfer must be: by transport, status and request
    id. -/
structure Classified (x : Exchange) (out : next_outcome) : Prop where
  not_made : out = .failure REQUEST_NOT_MADE ↔
    x.code ≠ CURLE_OK ∨ (200 ≤ x.response_code ∧ x.response_code ≤ 299 ∧
      ¬ ∃ line ∈ x.lines, ∃ value, IsHeaderLine REQUEST_ID_HEADER value line)
  status : ∀ c, c ≠ REQUEST_NOT_MADE → (out = .failure c ↔
    x.code = CURLE_OK ∧ x.response_code = c ∧ ¬ (200 ≤ c ∧ c ≤ 299))
  success : out.is_success ↔
    x.code = CURLE_OK ∧ 200 ≤ x.response_code ∧ x.response_code ≤ 299 ∧
      ∃ line ∈ x.lines, ∃ value, IsHeaderLine REQUEST_ID_HEADER value line

theorem classify_classified {x : Exchange}
    (hmade : x.code = CURLE_OK → x.response_code ≠ REQUEST_NOT_MADE) :
    Classified x (classify x) := by
  have hcode := @is_success_iff x.response_code
  by_cases hok : x.code = CURLE_OK
  · have hmade := hmade hok
    by_cases hs : is_success x.response_code = true
    · have hrange := hcode.mp hs
      by_cases hid : received_header x REQUEST_ID_HEADER = true
      · -- an invocation
        have hlines := received_header_iff.mp hid
        rw [classify_of_has_invocation (by simp [has_invocation, hok, hs, hid])]
        refine ⟨?_, ?_, ?_⟩
        · simp [hok, hlines]
        · intro c hc
          simp only [reduceCtorEq, false_iff]
          rintro ⟨-, rfl, hout⟩
          exact hout hrange
        · simp [hok, hlines, hrange]
      · -- a 2xx without a request id
        have hlines := mt received_header_iff.mpr hid
        have hclassify : classify x = .failure REQUEST_NOT_MADE := by
          simp [classify, hok, hs, hid]
        rw [hclassify]
        refine ⟨?_, ?_, ?_⟩
        · simp only [true_iff]
          exact Or.inr ⟨hrange.1, hrange.2, hlines⟩
        · intro c hc
          simp only [outcome.failure.injEq, hc.symm, false_iff]
          rintro ⟨-, rfl, hout⟩
          exact hout hrange
        · simp only [outcome.is_success_failure, Bool.false_eq_true, false_iff]
          rintro ⟨-, -, -, h⟩
          exact hlines h
    · -- any other status
      have hrange := mt hcode.mpr hs
      have hclassify : classify x = .failure x.response_code := by
        simp [classify, hok, hs]
      rw [hclassify]
      refine ⟨?_, ?_, ?_⟩
      · simp only [outcome.failure.injEq, hmade, false_iff]
        rintro (h | ⟨h₁, h₂, -⟩)
        · exact h hok
        · exact hrange ⟨h₁, h₂⟩
      · intro c hc
        simp only [outcome.failure.injEq, hok, true_and]
        constructor
        · intro h
          exact ⟨h, h ▸ hrange⟩
        · intro h
          exact h.1
      · simp only [outcome.is_success_failure, Bool.false_eq_true, false_iff]
        rintro ⟨-, h₁, h₂, -⟩
        exact hrange ⟨h₁, h₂⟩
  · -- no response at all
    have hclassify : classify x = .failure REQUEST_NOT_MADE := by simp [classify, hok]
    rw [hclassify]
    refine ⟨by simp [hok], ?_, by simp [hok]⟩
    intro c hc
    simp [hok, hc.symm]

/-- **`get_next` is total and classifies every response** exactly on the
    transfers that are `next_defined`: a byte above `0x7f` in a header name,
    a missing content type or a deadline that cannot be read leaves the
    defined behaviour of the program. -/
theorem get_next_classifies_iff (s d : Bool) (v : Bytes) (rt : runtime) (w : Thread) (x : Exchange)
    (hstatus : x.code = CURLE_OK → 100 ≤ x.response_code ∧ x.response_code ≤ 999) :
    (∃ out w', get_next (Target.standard s d v) rt x w = (.ok out, w') ∧ Classified x out) ↔
      next_defined (Target.standard s d v) x := by
  obtain ⟨w', hrun, -, -⟩ := get_next_eq (Target.standard s d v) rt x w
  have hresult := next_result_eq (Target.standard s d v) x
  have hmade : x.code = CURLE_OK → x.response_code ≠ REQUEST_NOT_MADE := by
    intro hok hnot
    have := hstatus hok
    rw [hnot, REQUEST_NOT_MADE] at this
    omega
  rw [hrun]
  by_cases hdefined : next_defined (Target.standard s d v) x = true
  · rw [if_pos hdefined] at hresult
    rw [hresult]
    exact iff_of_true ⟨_, _, rfl, classify_classified hmade⟩ hdefined
  · rw [if_neg hdefined] at hresult
    obtain ⟨e, he⟩ := hresult
    rw [he]
    refine iff_of_false ?_ hdefined
    rintro ⟨out, w'', h, -⟩
    cases h

/-- A 200 with a request id and a content type, on x86-64. -/
theorem get_next_classifies_iff_ok :
    ∃ out w', get_next (Target.standard true false [])
        (runtime.with_user_agent (ascii "http://host") (ascii "agent"))
        ⟨[.header (ascii "Lambda-Runtime-Aws-Request-Id: 7\r\n"), .body (ascii "\x7b\x7d")], CURLE_OK, 200,
          some (ascii "application/json"), 0⟩ Thread.new = (.ok out, w') ∧
      Classified ⟨[.header (ascii "Lambda-Runtime-Aws-Request-Id: 7\r\n"), .body (ascii "\x7b\x7d")],
        CURLE_OK, 200, some (ascii "application/json"), 0⟩ out :=
  (get_next_classifies_iff true false [] _ Thread.new _ (by decide)).mpr (by decide +kernel)

/-- A completed transfer with status 500 and no content type: the answer
    should be `failure(500)`, but the null pointer becomes a `std::string`. -/
theorem get_next_null_content_type :
    (get_next (Target.standard true false [])
        (runtime.with_user_agent (ascii "http://host") (ascii "agent"))
        ⟨[], CURLE_OK, 500, none, 0⟩ Thread.new).1 = .error .null_string ∧
      ¬ ∃ out w', get_next (Target.standard true false [])
        (runtime.with_user_agent (ascii "http://host") (ascii "agent"))
        ⟨[], CURLE_OK, 500, none, 0⟩ Thread.new = (.ok out, w') := by
  obtain ⟨w', hrun, -, -⟩ := get_next_eq (Target.standard true false [])
    (runtime.with_user_agent (ascii "http://host") (ascii "agent")) ⟨[], CURLE_OK, 500, none, 0⟩ Thread.new
  have hresult : next_result (Target.standard true false []) ⟨[], CURLE_OK, 500, none, 0⟩ =
      .error .null_string := by decide +kernel
  rw [hrun, hresult]
  refine ⟨rfl, ?_⟩
  rintro ⟨out, w'', h⟩
  cases h

end LambdaCpp
