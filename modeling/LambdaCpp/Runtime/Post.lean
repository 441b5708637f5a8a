import LambdaCpp.Runtime.GetNext
import LambdaCpp.Runtime.InvocationResponse

/-! # Posting a Response

    `do_post` and the three functions that call it: `post_success`,
    `post_failure` and `post_init_error`.

    `do_post_eq` gives the whole call in one equation for any state the
    thread is in; `post_perform` is what libcurl is asked to send.
-/

namespace LambdaCpp

open Bytes (ascii)

variable (t : Target) (rt : runtime)

/-! ### The code -/

structure no_result where
  deriving DecidableEq, Repr

abbrev post_outcome : Type := outcome no_result response_code

def set_curl_post_result_options : M Unit := do
  curl_easy_reset
  curl_easy_setopt .TIMEOUT (.long 0)
  curl_easy_setopt .CONNECTTIMEOUT (.long 1)
  curl_easy_setopt .NOSIGNAL (.long 1)
  curl_easy_setopt .TCP_NODELAY (.long 1)
  curl_easy_setopt .HTTP_VERSION (.long CURL_HTTP_VERSION_1_1)
  curl_easy_setopt .POST (.long 1)
  curl_easy_setopt .READFUNCTION (.function .read_data)
  curl_easy_setopt .WRITEFUNCTION (.function .write_data)
  curl_easy_setopt .HEADERFUNCTION (.function .write_header)
  curl_easy_setopt .PROXY (.text [])
  if !t.ndebug then
    curl_easy_setopt .VERBOSE (.long 1)
    curl_easy_setopt .DEBUGFUNCTION (.function .rt_curl_debug_callback)

/-- The entry for the invocation id, if there is one. -/
def append_invocation_id (headers : Option Address) (invocation_id : Bytes) : M (Option Address) :=
  if invocation_id ≠ [] then
    curl_slist_append headers (INVOCATION_ID_HEADER ++ ascii ": " ++ invocation_id)
  else pure headers

/-- The part of `do_post` that builds the header list. -/
def post_headers (content_type payload xray_response invocation_id : Bytes) : M (Option Address) := do
  let headers ← curl_slist_append none
    (if content_type = [] then ascii "content-type: text/html"
      else ascii "content-type: " ++ content_type)
  let headers ← curl_slist_append headers
    (ascii "lambda-runtime-function-xray-error-cause: " ++ xray_response)
  let headers ← curl_slist_append headers (ascii "Expect:")
  let headers ← curl_slist_append headers (ascii "transfer-encoding:")
  let headers ← curl_slist_append headers rt.m_user_agent_header
  let headers ← append_invocation_id headers invocation_id
  curl_slist_append headers (content_length_header payload)

/-- `do_post` after the transfer. -/
def post_of_response (x : Exchange) (curl_code : CURLcode) : post_outcome :=
  if curl_code ≠ CURLE_OK then .failure REQUEST_NOT_MADE
  else if !is_success x.response_code then .failure x.response_code
  else .result ⟨⟩

def do_post (url content_type payload xray_response invocation_id : Bytes) (x : Exchange) :
    M post_outcome := do
  set_curl_post_result_options t
  curl_easy_setopt .URL (.text (Bytes.c_str url))
  let headers ← post_headers rt content_type payload xray_response invocation_id
  let ctx ← new_upload ⟨payload, 0⟩
  let resp ← new_response .default_init
  curl_easy_setopt .WRITEDATA (.pointer resp)
  curl_easy_setopt .HEADERDATA (.pointer resp)
  curl_easy_setopt .READDATA (.pointer ctx)
  curl_easy_setopt .HTTPHEADER (slist_value headers)
  let curl_code ← curl_easy_perform t x
  curl_slist_free_all headers
  let out := post_of_response x curl_code
  -- the response and the context go out of scope
  delete_response resp
  delete_upload ctx
  pure out

def success_url (request_id : Bytes) : Bytes :=
  rt.m_endpoints .RESULT ++ request_id ++ ascii "/response"

def failure_url (request_id : Bytes) : Bytes :=
  rt.m_endpoints .RESULT ++ request_id ++ ascii "/error"

def post_success (request_id : Bytes) (handler_response : invocation_response)
    (invocation_id : Bytes) (x : Exchange) : M post_outcome :=
  do_post t rt (success_url rt request_id) handler_response.get_content_type
    handler_response.get_payload handler_response.get_xray_response invocation_id x

def post_failure (request_id : Bytes) (handler_response : invocation_response)
    (invocation_id : Bytes) (x : Exchange) : M post_outcome :=
  do_post t rt (failure_url rt request_id) handler_response.get_content_type
    handler_response.get_payload handler_response.get_xray_response invocation_id x

def post_init_error (init_error_response : runtime_response) (x : Exchange) : M post_outcome :=
  do_post t rt (rt.m_endpoints .INIT) init_error_response.get_content_type
    init_error_response.get_payload init_error_response.get_xray_response [] x

/-! ### The request it makes -/

/-- What `do_post` is asked to send. -/
structure Post where
  url : Bytes
  content_type : Bytes
  payload : Bytes
  xray_response : Bytes
  invocation_id : Bytes
  deriving DecidableEq, Repr

/-- What is sent for a response. -/
def Post.of_response (url : Bytes) (response : runtime_response) (invocation_id : Bytes) : Post :=
  ⟨url, response.get_content_type, response.get_payload, response.get_xray_response, invocation_id⟩

/-- The header entries of a POST, as `do_post` writes them. -/
def Post.entries (p : Post) : List Bytes :=
  [if p.content_type = [] then ascii "content-type: text/html"
    else ascii "content-type: " ++ p.content_type,
    ascii "lambda-runtime-function-xray-error-cause: " ++ p.xray_response,
    ascii "Expect:", ascii "transfer-encoding:", rt.m_user_agent_header] ++
  (if p.invocation_id = [] then [] else [INVOCATION_ID_HEADER ++ ascii ": " ++ p.invocation_id]) ++
  [content_length_header p.payload]

/-- The option table of a POST with header list `h`, context `q` and
    response `r`. -/
def post_options (url : Bytes) (h q r : Address) : OptionTable
  | .TIMEOUT => .long 0
  | .CONNECTTIMEOUT => .long 1
  | .NOSIGNAL => .long 1
  | .TCP_NODELAY => .long 1
  | .HTTP_VERSION => .long CURL_HTTP_VERSION_1_1
  | .POST => .long 1
  | .URL => .text (Bytes.c_str url)
  | .READFUNCTION => .function .read_data
  | .WRITEFUNCTION => .function .write_data
  | .HEADERFUNCTION => .function .write_header
  | .PROXY => .text []
  | .VERBOSE => if t.ndebug then .default else .long 1
  | .DEBUGFUNCTION => if t.ndebug then .default else .function .rt_curl_debug_callback
  | .WRITEDATA => .pointer r
  | .HEADERDATA => .pointer r
  | .READDATA => .pointer q
  | .HTTPHEADER => .pointer h
  | _ => .default

/-- The objects alive during a POST: the header list, the upload context and
    the response. -/
def post_heap (p : Post) (h : Heap) : Heap where
  responses := Function.update h.responses (h.fresh + 2) (some .default_init)
  uploads := Function.update h.uploads (h.fresh + 1) (some ⟨p.payload, 0⟩)
  slists := Function.update h.slists h.fresh (some ((p.entries rt).map Bytes.c_str))
  fresh := h.fresh + 3

/-- The handle and the objects when `do_post` performs its request. -/
def post_perform (p : Post) (h : Heap) : Perform :=
  ⟨post_options t p.url h.fresh (h.fresh + 1) (h.fresh + 2), post_heap rt p h⟩

/-! ### The call as a whole -/

theorem set_curl_post_result_options_eq (url : Bytes) (w : Thread) :
    ∃ o : OptionTable, set_curl_post_result_options t w = (.ok (), { w with handle := o }) ∧
      ∀ h q r, Function.update (Function.update (Function.update (Function.update (Function.update o
        .URL (.text (Bytes.c_str url))) .WRITEDATA (.pointer r)) .HEADERDATA (.pointer r))
        .READDATA (.pointer q)) .HTTPHEADER (.pointer h) = post_options t url h q r := by
  cases hd : t.ndebug with
  | true =>
    refine ⟨_, by unfold set_curl_post_result_options; simp only [hd]; rfl, ?_⟩
    intro h q r; funext o
    cases o <;> simp [Function.update, post_options, hd]
  | false =>
    refine ⟨_, by unfold set_curl_post_result_options; simp only [hd]; rfl, ?_⟩
    intro h q r; funext o
    cases o <;> simp [Function.update, post_options, hd]

theorem append_invocation_id_run (entries : List Bytes) (invocation_id : Bytes) (w : Thread) :
    append_invocation_id (some w.heap.fresh) invocation_id (w.with_slist entries) =
      (.ok (some w.heap.fresh), w.with_slist (entries ++ (if invocation_id = [] then []
        else [INVOCATION_ID_HEADER ++ ascii ": " ++ invocation_id]).map Bytes.c_str)) := by
  unfold append_invocation_id
  by_cases h : invocation_id = []
  · simp [h]
  · rw [if_pos h, curl_slist_append_run, if_neg h]
    rfl

theorem post_headers_eq (p : Post) (w : Thread) :
    post_headers rt p.content_type p.payload p.xray_response p.invocation_id w =
      (.ok (some w.heap.fresh), w.with_slist ((p.entries rt).map Bytes.c_str)) := by
  unfold post_headers
  rw [M.bind_ok (curl_slist_start_run ..), M.bind_ok (curl_slist_append_run ..),
    M.bind_ok (curl_slist_append_run ..), M.bind_ok (curl_slist_append_run ..),
    M.bind_ok (curl_slist_append_run ..), M.bind_ok (append_invocation_id_run ..),
    curl_slist_append_run]
  unfold Post.entries
  simp

/-- The thread when `do_post` performs its request. -/
def Thread.at_post (w : Thread) (p : Post) : Thread where
  handle := post_options t p.url w.heap.fresh (w.heap.fresh + 1) (w.heap.fresh + 2)
  heap := post_heap rt p w.heap
  performs := w.performs

theorem Thread.at_post_listening (w : Thread) (p : Post) :
    Listening (w.heap.fresh + 2) .default_init (w.at_post t rt p) where
  header_function := rfl
  header_data := rfl
  write_function := rfl
  write_data := rfl
  live := by simp [Thread.at_post, post_heap]
  upload := fun _ => ⟨w.heap.fresh + 1, p.payload, Cut.start p.payload, rfl,
    by simp [Thread.at_post, post_heap, Cut.start, Cut.ctx]⟩

/-- Everything `do_post` does before the transfer. -/
theorem do_post_prologue (p : Post) (x : Exchange) (w : Thread) :
    do_post t rt p.url p.content_type p.payload p.xray_response p.invocation_id x w = (do
      let curl_code ← curl_easy_perform t x
      curl_slist_free_all (some w.heap.fresh)
      let out := post_of_response x curl_code
      delete_response (w.heap.fresh + 2)
      delete_upload (w.heap.fresh + 1)
      pure out : M post_outcome) (w.at_post t rt p) := by
  obtain ⟨o, hset, htable⟩ := set_curl_post_result_options_eq t p.url w
  unfold do_post
  rw [M.bind_ok hset, M.bind_ok (curl_easy_setopt_run ..), M.bind_ok (post_headers_eq ..),
    M.bind_ok (new_upload_run ..), M.bind_ok (new_response_run ..),
    M.bind_ok (curl_easy_setopt_run ..), M.bind_ok (curl_easy_setopt_run ..),
    M.bind_ok (curl_easy_setopt_run ..), M.bind_ok (curl_easy_setopt_run ..)]
  simp only [slist_value, Thread.with_slist, htable]
  rfl

/-- What `do_post` makes of a transfer. -/
def post_result (x : Exchange) : Checked post_outcome := do
  let _ ← receive t x.callbacks .default_init
  return post_of_response x x.code

/-- **`do_post`** from any state of the thread: its result is that of the
    transfer, it performs one request, and when it returns it has released
    what it created. -/
theorem do_post_eq (p : Post) (x : Exchange) (w : Thread) :
    ∃ w', do_post t rt p.url p.content_type p.payload p.xray_response p.invocation_id x w =
        (post_result t x, w') ∧
      w'.performs = w.performs ++ [post_perform t rt p w.heap] ∧
      ∀ out n, post_result t x = .ok out → w.heap = Heap.empty n → w'.heap = Heap.empty (n + 3) := by
  rw [do_post_prologue]
  rcases curl_easy_perform_eq (t := t) x (w.at_post_listening t rt p) with
    ⟨resp, u, hr, hu, hp⟩ | ⟨e, w', hr, hw', hp⟩
  · have hresult : post_result t x = .ok (post_of_response x x.code) := by
      unfold post_result
      rw [hr]; rfl
    -- the thread once the header list is freed
    let w₁ : Thread := {
      handle := post_options t p.url w.heap.fresh (w.heap.fresh + 1) (w.heap.fresh + 2)
      heap :=
        { responses := Function.update w.heap.responses (w.heap.fresh + 2) (some resp)
          uploads := u
          slists := Function.update w.heap.slists w.heap.fresh none
          fresh := w.heap.fresh + 3 }
      performs := w.performs ++ [post_perform t rt p w.heap] }
    have hfree : curl_slist_free_all (some w.heap.fresh)
        ((w.at_post t rt p).record.received (w.heap.fresh + 2) resp u) = (.ok (), w₁) := by
      simp [curl_slist_free_all, Thread.received, Thread.record, Thread.at_post, post_heap,
        post_perform, w₁]
    -- the upload context is still there: a transfer keeps its address
    have hctx := hu (w.heap.fresh + 1)
    have hsome : ((w.at_post t rt p).heap.uploads (w.heap.fresh + 1)).isSome = true := by
      simp [Thread.at_post, post_heap]
    rw [hsome] at hctx
    obtain ⟨ctx, hctx⟩ := Option.isSome_iff_exists.mp hctx
    -- and once the response is gone as well
    let w₂ : Thread := { w₁ with heap := { w₁.heap with
      responses := Function.update w.heap.responses (w.heap.fresh + 2) none } }
    have hresponse : delete_response (w.heap.fresh + 2) w₁ = (.ok (), w₂) := by
      simp [delete_response, w₁, w₂]
    have hupload : delete_upload (w.heap.fresh + 1) w₂ = (.ok (), { w₂ with heap := { w₂.heap with
        uploads := Function.update u (w.heap.fresh + 1) none } }) := by
      simp [delete_upload, w₁, w₂, hctx]
    rw [M.bind_ok hp, M.bind_ok hfree, hresult]
    rw [M.bind_ok hresponse, M.bind_ok hupload]
    refine ⟨_, rfl, rfl, ?_⟩
    intro out n _ hn
    -- the transfer created no other context
    have hu' : Function.update u (w.heap.fresh + 1) none = fun _ => none := by
      funext a
      by_cases ha : a = w.heap.fresh + 1
      · simp [ha]
      · have hbefore : w.heap.uploads a = none := by rw [hn]; rfl
        have hnone : (w.at_post t rt p).heap.uploads a = none := by
          simp [Thread.at_post, post_heap, Function.update_of_ne ha, hbefore]
        rw [Function.update_of_ne ha]
        exact hu.none_of hnone
    simp only [hu', w₁, w₂]
    simp [hn, Heap.empty]
  · -- a callback faulted
    have hresult : post_result t x = .error e := by
      unfold post_result
      rw [hr]; rfl
    rw [M.bind_error hp, hresult]
    refine ⟨w', rfl, hw', ?_⟩
    intro out n h
    cases h

end LambdaCpp
