import LambdaCpp.Logging
import LambdaCpp.Runtime.EndToEnd

/-! # What the Runtime Logs

    The calls of `log_error`, `log_info` and `log_debug` that `run_handler`
    makes, with the texts their formats give.  They are spread over five
    functions, several of which report the same failure at different levels;
    `AWS_LAMBDA_LOG` decides which levels a build has.

    `errors_logged` states what remains at the level of errors, and so all a
    release build prints: one line for each request that failed.
-/

namespace LambdaCpp

open Bytes (ascii)

/-! ### Calls of `log` -/

def LOG_TAG : Bytes := ascii "LAMBDA_RUNTIME"

/-- A call with `LOG_TAG` and the text that its format and arguments give. -/
inductive LogCall where
  | log_error (text : Bytes)
  | log_info (text : Bytes)
  | log_debug (text : Bytes)
  deriving DecidableEq, Repr

/-- `vsnprintf`, for the text that the arguments give. -/
def vsnprintf (text : Bytes) : Formatted :=
  if h : text.length ≤ INT_MAX then .text text h
  else .error (-1) (by decide) (by decide)

namespace LogCall

/-- What the call does in a build with `AWS_LAMBDA_LOG=level`, at time `ms`. -/
def run (level : Nat) (ms : Int) : LogCall → Checked (List LogEvent)
  | log_error text => LambdaCpp.log_error level LOG_TAG (vsnprintf text) ms
  | log_info text => LambdaCpp.log_info level LOG_TAG (vsnprintf text) ms
  | log_debug text => LambdaCpp.log_debug level LOG_TAG (vsnprintf text) ms

/-- What the call prints. -/
def output (level : Nat) (ms : Int) (c : LogCall) : List Bytes :=
  match c.run level ms with
  | .ok events => events.filterMap LogEvent.output
  | .error _ => []

end LogCall

/-- What the calls print, each at its own time. -/
def printed (level : Nat) (calls : List (Int × LogCall)) : List Bytes :=
  calls.flatMap fun c => c.2.output level c.1

/-- The texts that are logged as errors. -/
def logged_errors : List LogCall → List Bytes
  | [] => []
  | .log_error text :: calls => text :: logged_errors calls
  | .log_info _ :: calls => logged_errors calls
  | .log_debug _ :: calls => logged_errors calls

/-! ### The environment -/

/-- What libcurl says of itself. -/
structure Libcurl where
  /-- `LIBCURL_VERSION`. -/
  version : Bytes
  curl_easy_strerror : CURLcode → Bytes

/-- A callback that logs. -/
inductive Heard where
  | write_header (line : Bytes)
  /-- What libcurl says about the transfer in a debug build. -/
  | rt_curl_debug_callback (data : Bytes)
  deriving DecidableEq, Repr

def Heard.line? : Heard → Option Bytes
  | write_header line => some line
  | rt_curl_debug_callback _ => none

/-- `"%s"` stops at a NUL. -/
def Heard.log : Heard → LogCall
  | write_header line => .log_debug (ascii "received header: " ++ Bytes.c_str line)
  | rt_curl_debug_callback data => .log_debug (ascii "CURL DBG: " ++ Bytes.c_str data)

/-- What the callbacks hear during a transfer, in order. -/
structure Hearing (t : Target) (x : Exchange) where
  heard : List Heard
  lines : heard.filterMap Heard.line? = x.lines
  /-- `CURLOPT_DEBUGFUNCTION` is set in debug builds only. -/
  silent : t.ndebug = true → ∀ h ∈ heard, h.line?.isSome

/-- Nothing but the header lines. -/
def Hearing.of_lines (t : Target) (x : Exchange) : Hearing t x where
  heard := x.lines.map Heard.write_header
  lines := by
    rw [List.filterMap_map]
    exact List.filterMap_some
  silent := by
    intro _ h hmem
    obtain ⟨line, -, rfl⟩ := List.mem_map.mp hmem
    rfl

/-! ### The code -/

section
variable (t : Target) (rt : runtime) (lib : Libcurl)

def no_response (url : Bytes) : Bytes :=
  ascii "Failed to get next invocation. No Response from endpoint \"" ++ Bytes.c_str url ++ ascii "\""

def not_successful (code : response_code) : Bytes :=
  ascii "Failed to get next invocation. Http Response code: " ++ signed_decimal code

def no_request_id : Bytes :=
  ascii "Failed to find header " ++ REQUEST_ID_HEADER ++ ascii " in response"

/-- `get_next` from the response code on. -/
def read_next_log (x : Exchange) (resp : response) : List LogCall :=
  match read_next t x resp with
  -- everything that can go wrong comes before the first message
  | .error _ => []
  | .ok (.failure code) =>
    if !is_success x.response_code then [.log_error (not_successful code)]
    else [.log_error no_request_id]
  | .ok (.result req) =>
    if (resp.get_header DEADLINE_MS_HEADER).is_success then
      match get_time_remaining req x.now.val with
      | .ok ms => [.log_info (ascii "Received payload: " ++ Bytes.c_str req.payload ++
          ascii "\nTime remaining: " ++ signed_decimal ms)]
      | .error _ => []
    else []

def curl_failed (code : CURLcode) : Bytes :=
  ascii "CURL returned error code " ++ Bytes.decimal code ++ ascii " - " ++
    Bytes.c_str (lib.curl_easy_strerror code)

def get_next_log (x : Exchange) (heard : List Heard) : List LogCall :=
  let url := rt.m_endpoints .NEXT
  match receive t x.callbacks .default_init with
  | .error _ => .log_debug (ascii "Making request to " ++ Bytes.c_str url) :: heard.map Heard.log
  | .ok resp =>
    .log_debug (ascii "Making request to " ++ Bytes.c_str url) :: heard.map Heard.log ++
      [.log_debug (ascii "Completed request to " ++ Bytes.c_str url)] ++
      if x.code ≠ CURLE_OK then
        [.log_debug (curl_failed lib x.code), .log_error (no_response url)]
      else read_next_log t x resp

def not_accepted (code : response_code) (body : Bytes) : Bytes :=
  ascii "Failed to post handler success response. Http response code: " ++ signed_decimal code ++
    ascii ". " ++ Bytes.c_str body

def do_post_log (p : Post) (x : Exchange) (heard : List Heard) : List LogCall :=
  .log_info (ascii "Making request to " ++ Bytes.c_str p.url) ::
    .log_debug (ascii "calculating content length... " ++
      Bytes.c_str (content_length_header p.payload)) :: heard.map Heard.log ++
    match receive t x.callbacks .default_init with
    | .error _ => []
    | .ok resp =>
      if x.code ≠ CURLE_OK then
        [.log_debug (curl_failed lib x.code ++ ascii ", when calling " ++ Bytes.c_str p.url)]
      else if !is_success x.response_code then
        [.log_error (not_accepted x.response_code resp.get_body)]
      else []

def not_sent (request_id : Bytes) : Bytes :=
  ascii "Failed to send HTTP request for invocation " ++ Bytes.c_str request_id ++ ascii "."

def handle_post_outcome_log (o : post_outcome) (request_id : Bytes) : List LogCall :=
  match o with
  | .result _ => []
  | .failure code =>
    if code = REQUEST_NOT_MADE then [.log_error (not_sent request_id)]
    else
      [.log_info (ascii "HTTP Request for invocation " ++ Bytes.c_str request_id ++
        ascii " was not successful. HTTP response code: " ++ signed_decimal code ++ ascii ".")]

/-- The loop body up to the handler. -/
def next_turn_log (x : Exchange) (heard : List Heard) : List LogCall :=
  get_next_log t rt lib x heard ++
    match next_result t x with
    | .ok (.failure code) =>
      if code = REQUEST_NOT_MADE then []
      else
        [.log_info (ascii "HTTP request was not successful. HTTP response code: " ++
          signed_decimal code ++ ascii ". Retrying..")]
    | .ok (.result _) => []
    | .error _ => []

/-- The loop body around the call of the handler. -/
def call_log : List LogCall :=
  [.log_info (ascii "Invoking user handler"), .log_info (ascii "Invoking user handler completed.")]

/-- The loop body from the handler's answer on. -/
def post_turn_log (req : invocation_request) (res : invocation_response) (x : Exchange)
    (heard : List Heard) : List LogCall :=
  do_post_log t lib (answer rt req res) x heard ++
    match post_result t x with
    | .ok o => handle_post_outcome_log o req.request_id
    | .error _ => []

def exhausted_all_retries : Bytes :=
  ascii "Exhausted all retries. This is probably a bug in libcurl v" ++ Bytes.c_str lib.version ++
    ascii " Exiting!"

/-- `run_handler` up to the loop; the thread has an easy handle. -/
def start_log (env : Option Bytes) : List LogCall :=
  .log_info (ascii "Initializing the C++ Lambda Runtime version " ++ Bytes.c_str t.version) ::
    match env with
    | none => []
    | some ep =>
      [.log_debug (ascii "LAMBDA_SERVER_ADDRESS defined in environment as: " ++ Bytes.c_str ep)]

/-- What the next step of the call logs. -/
def step_log (xs : Nat → Exchange) (heard : ∀ k, Hearing t (xs k)) (l : Loop) : List LogCall :=
  match l.pc with
  | .head =>
    if l.retries < max_retries then
      next_turn_log t rt lib (xs l.requests) (heard l.requests).heard
    else if l.retries = max_retries then [.log_error (exhausted_all_retries lib)]
    else []
  | .calling _ => call_log
  | .posting req res =>
    post_turn_log t rt lib req res (xs l.requests) (heard l.requests).heard
  | .returned => []
  | .aborted _ => []

/-- What the first `n` steps of `run_handler(handler)` log. -/
def run_handler_log {σ : Type} (handler : σ → invocation_request → invocation_response × σ)
    (xs : Nat → Exchange) (heard : ∀ k, Hearing t (xs k)) (env : Option Bytes) (mem : σ) (n : Nat) :
    List LogCall :=
  start_log t env ++ (List.range n).flatMap fun m =>
    step_log t (runtime.for_endpoint t (run_handler_endpoint env)) lib xs heard
      (run_handler t handler xs env mem m).1

end

/-! ### The reports -/

/-- What is reported of a GET. -/
def get_report (rt : runtime) (x : Exchange) : Bytes :=
  if x.code ≠ CURLE_OK then no_response (rt.m_endpoints .NEXT)
  else if !is_success x.response_code then not_successful x.response_code
  else no_request_id

/-- What is reported of a POST. -/
def post_report (request_id : Bytes) (x : Exchange) : Bytes :=
  if x.code ≠ CURLE_OK then not_sent request_id
  else not_accepted x.response_code x.chunks.flatten

section
variable (rt : runtime) (lib : Libcurl) (xs : Nat → Exchange)

/-- The `k`-th request fails. -/
def Fails (k : Nat) : Prop :=
  if is_post xs k = true then ¬ Accepts (xs k) else ¬ BringsInvocation (xs k)

instance (k : Nat) : Decidable (Fails xs k) := by
  unfold Fails
  infer_instance

/-- What is reported of the `k`-th request. -/
def report (k : Nat) : Bytes :=
  if is_post xs k = true then post_report (request_of (xs (k - 1))).request_id (xs k)
  else get_report rt (xs k)

/-- The call has ended because three GETs in a row failed. -/
def GaveUp (l : Loop) : Prop := l.pc = .returned ∧ failures xs l.requests = max_retries

instance (l : Loop) : Decidable (GaveUp xs l) := inferInstanceAs (Decidable (_ ∧ _))

/-- The errors of a call that stands at `l`. -/
def errors (l : Loop) : List Bytes :=
  ((List.range l.requests).filter fun k => decide (Fails xs k)).map (report rt xs) ++
    if GaveUp xs l then [exhausted_all_retries lib] else []

end

/-! ### One function at a time -/

@[simp] theorem logged_errors_nil : logged_errors [] = [] := rfl

@[simp] theorem logged_errors_error (text : Bytes) (calls : List LogCall) :
    logged_errors (.log_error text :: calls) = text :: logged_errors calls := rfl

@[simp] theorem logged_errors_info (text : Bytes) (calls : List LogCall) :
    logged_errors (.log_info text :: calls) = logged_errors calls := rfl

@[simp] theorem logged_errors_debug (text : Bytes) (calls : List LogCall) :
    logged_errors (.log_debug text :: calls) = logged_errors calls := rfl

@[simp] theorem logged_errors_append (calls calls' : List LogCall) :
    logged_errors (calls ++ calls') = logged_errors calls ++ logged_errors calls' := by
  induction calls with
  | nil => rfl
  | cons c calls ih =>
    rcases c with text | text | text
    · simp [ih]
    · simp [ih]
    · simp [ih]

@[simp] theorem logged_errors_heard (heard : List Heard) :
    logged_errors (heard.map Heard.log) = [] := by
  induction heard with
  | nil => rfl
  | cons h heard ih =>
    rcases h with line | data
    · exact ih
    · exact ih

section
variable {s d : Bool} {v : Bytes} (rt : runtime) (lib : Libcurl) {x : Exchange}

theorem receive_linux (x : Exchange) :
    ∃ resp, receive (Target.linux s d v) x.callbacks .default_init = .ok resp ∧
      resp.get_body = x.chunks.flatten := by
  have hlines : x.lines.all (lowerable_line (Target.linux s d v)) = true := by simp
  refine ⟨_, by rw [receive_eq, if_pos hlines], ?_⟩
  simp [response.get_body, response.default_init]

/-- A GET is reported once if it fails, whichever way. -/
theorem next_turn_errors (hx : WellFormed (Target.linux s d v) x) (heard : List Heard) :
    logged_errors (next_turn_log (Target.linux s d v) rt lib x heard) =
      if BringsInvocation x then [] else [get_report rt x] := by
  obtain ⟨resp, hreceive, -⟩ := @receive_linux s d v x
  have hresult := hx.next_result
  have hread : x.code = CURLE_OK → read_next (Target.linux s d v) x resp = .ok (classify x) := by
    intro hok
    rw [← hresult]
    unfold next_result
    rw [hreceive, Checked.ok_bind, if_neg (not_not.mpr hok)]
  unfold next_turn_log get_next_log
  simp only [hreceive, hresult]
  by_cases hb : BringsInvocation x
  · -- at most the payload is logged
    have hclass := classify_of_has_invocation (has_invocation_iff.mpr hb)
    have hquiet : logged_errors (read_next_log (Target.linux s d v) x resp) = [] := by
      unfold read_next_log
      rw [hread hb.1, hclass]
      simp only
      split
      · split <;> rfl
      · rfl
    rw [hclass, if_pos hb, if_neg (not_not.mpr hb.1)]
    simp [hquiet]
  · rw [if_neg hb]
    unfold get_report
    by_cases hok : x.code = CURLE_OK
    · by_cases hcode : is_success x.response_code = true
      · -- the header is missing
        have hid : received_header x REQUEST_ID_HEADER = false := by
          rw [← has_invocation_iff] at hb
          simpa [has_invocation, hok, hcode] using hb
        have hclass : classify x = .failure REQUEST_NOT_MADE := by simp [classify, hok, hcode, hid]
        simp [read_next_log, hread hok, hclass, hok, hcode]
      · -- `get_next` logs the error, the loop body repeats it as information
        have hclass : classify x = .failure x.response_code := by simp [classify, hok, hcode]
        have hagain : ∀ text : Bytes, logged_errors (if x.response_code = REQUEST_NOT_MADE then [] else
            [LogCall.log_info text]) = [] := by
          intro text
          split <;> rfl
        simp [read_next_log, hread hok, hclass, hok, hcode, hagain]
    · have hclass : classify x = .failure REQUEST_NOT_MADE := by simp [classify, hok]
      simp [hclass, hok]

/-- So is a POST: `do_post` reports an answer that is not a success, and
    `handle_post_outcome` that there was none. -/
theorem post_turn_errors (hcode : 0 ≤ x.response_code) (req : invocation_request)
    (res : invocation_response) (heard : List Heard) :
    logged_errors (post_turn_log (Target.linux s d v) rt lib req res x heard) =
      if Accepts x then [] else [post_report req.request_id x] := by
  obtain ⟨resp, hreceive, hbody⟩ := @receive_linux s d v x
  have hmade : x.response_code ≠ REQUEST_NOT_MADE := by
    intro heq
    rw [heq] at hcode
    exact absurd hcode (by decide)
  unfold post_turn_log do_post_log post_report
  simp only [hreceive, post_result_linux, hbody]
  unfold post_of_response
  by_cases hok : x.code = CURLE_OK
  · by_cases hsuccess : is_success x.response_code = true
    · have ha : Accepts x := ⟨hok, is_success_iff.mp hsuccess⟩
      simp [hok, hsuccess, ha, handle_post_outcome_log]
    · have ha : ¬ Accepts x := fun h => hsuccess (is_success_iff.mpr h.2)
      simp [hok, hsuccess, ha, hmade, handle_post_outcome_log]
  · have ha : ¬ Accepts x := fun h => hok h.1
    simp [hok, ha, handle_post_outcome_log]

end

/-! ### Whole calls -/

section
variable {s d : Bool} {v : Bytes} {rt : runtime} {lib : Libcurl} {xs : Nat → Exchange} {l l' : Loop}

theorem not_gaveUp (h : l.pc ≠ .returned) : ¬ GaveUp xs l := fun hgave => h hgave.1

theorem fails_get {k : Nat} (hget : is_post xs k = false) : Fails xs k ↔ ¬ BringsInvocation (xs k) := by
  unfold Fails
  rw [hget]
  simp

theorem fails_post {k : Nat} (hpost : is_post xs k = true) : Fails xs k ↔ ¬ Accepts (xs k) := by
  unfold Fails
  rw [if_pos hpost]

theorem report_get {k : Nat} (hget : is_post xs k = false) :
    report rt xs k = get_report rt (xs k) := by
  unfold report
  rw [hget]
  simp

/-- A POST is about the invocation that the request before it brought. -/
theorem report_post {k : Nat} (hpost : is_post xs (k + 1) = true) :
    report rt xs (k + 1) = post_report (request_of (xs k)).request_id (xs (k + 1)) := by
  unfold report
  rw [if_pos hpost, Nat.add_sub_cancel]

/-- One more request. -/
theorem errors_succ (hrequests : l'.requests = l.requests + 1) (hbefore : ¬ GaveUp xs l)
    (hafter : ¬ GaveUp xs l') :
    errors rt lib xs l' =
      errors rt lib xs l ++ if Fails xs l.requests then [report rt xs l.requests] else [] := by
  unfold errors
  rw [if_neg hbefore, if_neg hafter, hrequests, List.range_succ, List.filter_append,
    List.map_append, List.append_nil, List.append_nil]
  by_cases hfails : Fails xs l.requests
  · simp [hfails]
  · simp [hfails]

/-- No request, and the call is not given up. -/
theorem errors_same (hrequests : l'.requests = l.requests) (hbefore : ¬ GaveUp xs l)
    (hafter : ¬ GaveUp xs l') : errors rt lib xs l' = errors rt lib xs l := by
  unfold errors
  rw [if_neg hbefore, if_neg hafter, hrequests]

variable {σ : Type} {handler : σ → invocation_request → invocation_response × σ} {mem : σ}
  {r : Loop × σ}

/-- **One step** logs the errors that it adds. -/
theorem step_errors (hxs : ∀ k, WellFormed (Target.linux s d v) (xs k))
    (hcodes : ∀ k, 0 ≤ (xs k).response_code) (heard : ∀ k, Hearing (Target.linux s d v) (xs k))
    (hstanding : Standing xs r.1) (hpending : Pending handler xs mem r) :
    errors rt lib xs (run_handler_step (Target.linux s d v) rt handler xs r).1 =
      errors rt lib xs r.1 ++
        logged_errors (step_log (Target.linux s d v) rt lib xs heard r.1) := by
  unfold run_handler_step step_log
  cases hpc : r.1.pc with
  | head =>
    obtain ⟨hget, hfailures, hbound, -⟩ := hstanding.at_head hpc
    have hbefore : ¬ GaveUp xs r.1 := not_gaveUp (by rw [hpc]; exact Pc.noConfusion)
    simp only
    by_cases hretries : r.1.retries < max_retries
    · -- a GET
      rw [if_pos hretries, if_pos hretries, next_turn_errors rt lib (hxs _)]
      have hrequests : (r.1.next (Target.linux s d v) rt (xs r.1.requests)).requests =
          r.1.requests + 1 := by
        unfold Loop.requests
        rw [Loop.next_performs, List.length_append]
        rfl
      have hafter : ¬ GaveUp xs (r.1.next (Target.linux s d v) rt (xs r.1.requests)) := by
        apply not_gaveUp
        obtain ⟨w, -, hnext⟩ := next_of_well_formed rt (hxs r.1.requests) r.1
        rw [hnext]
        split <;> exact Pc.noConfusion
      show errors rt lib xs (r.1.next (Target.linux s d v) rt (xs r.1.requests)) = _
      rw [errors_succ hrequests hbefore hafter, report_get hget]
      by_cases hb : BringsInvocation (xs r.1.requests)
      · simp [fails_get hget, hb]
      · simp [fails_get hget, hb]
    · -- the loop condition is false: `retries` is the number of failures
      have hmax : r.1.retries = max_retries := by omega
      have hgave : GaveUp xs { r.1 with pc := .returned } := by
        refine ⟨rfl, ?_⟩
        show failures xs r.1.requests = max_retries
        rw [← hfailures, hmax]
      rw [if_neg hretries, if_neg hretries, if_pos hmax]
      unfold errors
      rw [if_pos hgave, if_neg hbefore]
      simp [Loop.requests]
  | calling req =>
    have hsame := @errors_same rt lib xs r.1 { r.1 with pc := .posting req (handler r.2 req).1 } rfl
      (not_gaveUp (by rw [hpc]; exact Pc.noConfusion)) (not_gaveUp Pc.noConfusion)
    simp only [hsame, call_log, logged_errors_info, logged_errors_nil, List.append_nil]
  | posting req res =>
    obtain ⟨hpost, -, -⟩ := hstanding.at_post hpc
    unfold Pending at hpending
    rw [hpc] at hpending
    obtain ⟨k, hk, rfl, -, -⟩ := hpending
    simp only
    rw [post_turn_errors rt lib (hcodes _)]
    have hrequests : (r.1.post (Target.linux s d v) rt (request_of (xs k)) res
        (xs r.1.requests)).requests = r.1.requests + 1 := by
      unfold Loop.requests
      rw [Loop.post_performs, List.length_append]
      rfl
    -- after a POST no failures are counted
    have hafter : ¬ GaveUp xs (r.1.post (Target.linux s d v) rt (request_of (xs k)) res
        (xs r.1.requests)) := by
      intro hgave
      have hcount := hgave.2
      rw [hrequests, failures_succ_of_post hpost, failures_of_post hpost] at hcount
      exact absurd hcount (by decide)
    rw [errors_succ hrequests (not_gaveUp (by rw [hpc]; exact Pc.noConfusion)) hafter]
    rw [hk] at hpost ⊢
    rw [report_post hpost]
    by_cases ha : Accepts (xs (k + 1))
    · simp [fails_post hpost, ha]
    · simp [fails_post hpost, ha]
  | returned =>
    simp
  | aborted e => exact absurd hpc (hstanding.not_aborted e)

/-- What has been logged as an error is what the transfers say. -/
theorem logged_errors_eq (hxs : ∀ k, WellFormed (Target.linux s d v) (xs k))
    (hcodes : ∀ k, 0 ≤ (xs k).response_code) (heard : ∀ k, Hearing (Target.linux s d v) (xs k))
    (env : Option Bytes) (n : Nat) :
    logged_errors (run_handler_log (Target.linux s d v) lib handler xs heard env mem n) =
      errors (runtime.for_endpoint (Target.linux s d v) (run_handler_endpoint env)) lib xs
        (run_handler (Target.linux s d v) handler xs env mem n).1 := by
  induction n with
  | zero =>
    have hstart : ¬ GaveUp xs Loop.start := not_gaveUp Pc.noConfusion
    have hinit : logged_errors (start_log (Target.linux s d v) env) = [] := by
      cases env <;> rfl
    show logged_errors (start_log (Target.linux s d v) env ++ []) = errors _ lib xs Loop.start
    unfold errors
    rw [if_neg hstart, List.append_nil, hinit]
    rfl
  | succ n ih =>
    obtain ⟨hstanding, -⟩ := run_handler_standing handler hxs env mem n
    have htracked := run_handler_tracked handler hxs env mem n
    rw [run_handler_succ, step_errors hxs hcodes heard hstanding htracked.pending, ← ih]
    unfold run_handler_log
    rw [List.range_succ, List.flatMap_append, ← List.append_assoc, logged_errors_append]
    simp

end

/-! ### What a release build prints -/

theorem output_error {text : Bytes} (hlength : text.length < INT_MAX) (hnul : (0 : UInt8) ∉ text)
    (ms : Int) : (LogCall.log_error text).output 0 ms = [log_line .error ms LOG_TAG text] := by
  have hle : text.length ≤ INT_MAX := Nat.le_of_lt hlength
  have hrun : (LogCall.log_error text).run 0 ms = .ok (text_events .error LOG_TAG ms text) := by
    show log .error LOG_TAG (vsnprintf text) ms = _
    unfold vsnprintf
    rw [dif_pos hle]
    exact log_text .error LOG_TAG ms hle (by omega)
  unfold LogCall.output
  rw [hrun]
  simp only
  rw [text_events_output, Bytes.c_str_of_not_mem hnul]

/-- One line for each error, and no other. -/
theorem printed_errors (calls : List (Int × LogCall))
    (h : ∀ e ∈ logged_errors (calls.map Prod.snd), e.length < INT_MAX ∧ (0 : UInt8) ∉ e) :
    ∃ times : List Int, times.length = (logged_errors (calls.map Prod.snd)).length ∧
      printed 0 calls = List.zipWith (fun ms e => log_line .error ms LOG_TAG e) times
        (logged_errors (calls.map Prod.snd)) := by
  induction calls with
  | nil => exact ⟨[], rfl, rfl⟩
  | cons c calls ih =>
    obtain ⟨ms, c⟩ := c
    rcases c with text | text | text
    · obtain ⟨hlength, hnul⟩ := h text (by simp)
      obtain ⟨times, htimes, hprinted⟩ := ih (fun e he => h e (List.mem_cons_of_mem _ he))
      refine ⟨ms :: times, congrArg (· + 1) htimes, ?_⟩
      show (LogCall.log_error text).output 0 ms ++ printed 0 calls = _
      rw [output_error hlength hnul, hprinted]
      rfl
    · -- the other levels are compiled out
      exact ih h
    · exact ih h

theorem not_nul_report {rt : runtime} {xs : Nat → Exchange} (k : Nat) :
    (0 : UInt8) ∉ report rt xs k := by
  have hconst : ∀ text ∈ [ascii "Failed to get next invocation. No Response from endpoint \"",
      ascii "\"", ascii "Failed to get next invocation. Http Response code: ",
      ascii "Failed to find header ", ascii " in response",
      ascii "Failed to post handler success response. Http response code: ", ascii ". ",
      ascii "Failed to send HTTP request for invocation ", ascii "."], (0 : UInt8) ∉ text := by
    decide +kernel
  have hheader : (0 : UInt8) ∉ REQUEST_ID_HEADER := known_headers_nul (by simp [known_headers])
  simp only [List.forall_mem_cons] at hconst
  unfold report post_report get_report not_sent not_accepted no_response not_successful no_request_id
  split_ifs <;> simp [Bytes.not_mem_c_str, not_nul_signed_decimal, hheader, hconst]

theorem not_nul_exhausted (lib : Libcurl) : (0 : UInt8) ∉ exhausted_all_retries lib := by
  have hconst : (0 : UInt8) ∉ ascii "Exhausted all retries. This is probably a bug in libcurl v" ∧
      (0 : UInt8) ∉ ascii " Exiting!" := by decide +kernel
  unfold exhausted_all_retries
  simp [Bytes.not_mem_c_str, hconst]

theorem not_nul_errors {rt : runtime} {lib : Libcurl} {xs : Nat → Exchange} {l : Loop} :
    ∀ e ∈ errors rt lib xs l, (0 : UInt8) ∉ e := by
  intro e he
  unfold errors at he
  rcases List.mem_append.mp he with hreport | hexhausted
  · obtain ⟨k, -, rfl⟩ := List.mem_map.mp hreport
    exact not_nul_report k
  · split at hexhausted
    · obtain rfl := List.mem_singleton.mp hexhausted
      exact not_nul_exhausted lib
    · cases hexhausted

/-- The log has the errors `reports`, in their order. -/
structure ErrorLog (calls : List LogCall) (reports : List Bytes) : Prop where
  logged : logged_errors calls = reports
  /-- A build with `AWS_LAMBDA_LOG=0` prints a line for each of them and
      nothing else, unless one is too long to be formatted. -/
  released : ∀ stamped : List (Int × LogCall), stamped.map Prod.snd = calls →
    (∀ e ∈ reports, e.length < INT_MAX) → ∃ times : List Int, times.length = reports.length ∧
      printed 0 stamped = List.zipWith (fun ms e => log_line .error ms LOG_TAG e) times reports

theorem ErrorLog.of_logged {calls : List LogCall} {reports : List Bytes}
    (hlogged : logged_errors calls = reports) (hnul : ∀ e ∈ reports, (0 : UInt8) ∉ e) :
    ErrorLog calls reports where
  logged := hlogged
  released := by
    intro stamped hstamped hlengths
    rw [← hstamped] at hlogged
    rw [← hlogged] at hlengths hnul ⊢
    apply printed_errors
    intro e he
    exact ⟨hlengths e he, hnul e he⟩

/-- **Every request that fails is logged as an error, once**: at any moment
    of a call the errors in the log are the reports of the requests that have
    failed, in their order, and at the end a line that says so if the call
    was given up.  This is all a release build prints. -/
theorem errors_logged {σ : Type} (s d : Bool) (v : Bytes) (lib : Libcurl) (env : Option Bytes)
    (handler : σ → invocation_request → invocation_response × σ) (mem : σ) {xs : Nat → Exchange}
    (heard : ∀ k, Hearing (Target.linux s d v) (xs k))
    (hxs : ∀ k, WellFormed (Target.linux s d v) (xs k)) (hcodes : ∀ k, 0 ≤ (xs k).response_code)
    (n : Nat) :
    ErrorLog (run_handler_log (Target.linux s d v) lib handler xs heard env mem n)
      (errors (runtime.for_endpoint (Target.linux s d v) (run_handler_endpoint env)) lib xs
        (run_handler (Target.linux s d v) handler xs env mem n).1) :=
  .of_logged (logged_errors_eq hxs hcodes heard env n) not_nul_errors

/-- A transfer that libcurl cannot even start. -/
def refused : Exchange where
  callbacks := []
  code := 7
  response_code := 0
  content_type := none
  now := Exchange.epoch

def some_libcurl : Libcurl where
  version := ascii "8.5.0"
  curl_easy_strerror := fun code =>
    if code = 7 then ascii "Could not connect to server" else ascii "Unknown error"

/-- Nobody listens: the three attempts are logged, and that they were the
    last. -/
theorem errors_logged_refused :
    logged_errors (run_handler_log (Target.linux true true []) some_libcurl
        (fun (u : Unit) req => (echo_success req, u)) (fun _ => refused)
        (fun _ => Hearing.of_lines _ refused) none () 4) =
      [no_response (ascii "http:///2018-06-01/runtime/invocation/next"),
        no_response (ascii "http:///2018-06-01/runtime/invocation/next"),
        no_response (ascii "http:///2018-06-01/runtime/invocation/next"),
        ascii "Exhausted all retries. This is probably a bug in libcurl v8.5.0 Exiting!"] := by
  have hwf : ∀ k : Nat, WellFormed (Target.linux true true []) refused :=
    fun _ => .of_no_deadline (fun h => absurd h (by decide)) rfl
  have hlog := (errors_logged true true [] some_libcurl none
    (fun (u : Unit) req => (echo_success req, u)) () (fun _ : Nat => Hearing.of_lines _ refused) hwf
    (fun _ => Int.le_refl 0) 4).logged
  have hstate : (run_handler (Target.linux true true []) (fun (u : Unit) req => (echo_success req, u))
      (fun _ => refused) none () 4).1.requests = 3 ∧
      (run_handler (Target.linux true true []) (fun (u : Unit) req => (echo_success req, u))
        (fun _ => refused) none () 4).1.pc = .returned := by decide +kernel
  have hgave : GaveUp (fun _ => refused) (run_handler (Target.linux true true [])
      (fun (u : Unit) req => (echo_success req, u)) (fun _ => refused) none () 4).1 := by
    refine ⟨hstate.2, ?_⟩
    rw [hstate.1]
    decide +kernel
  have hfailed : ((List.range 3).filter fun k => decide (Fails (fun _ => refused) k)) = [0, 1, 2] := by
    decide +kernel
  have htext : exhausted_all_retries some_libcurl =
      ascii "Exhausted all retries. This is probably a bug in libcurl v8.5.0 Exiting!" := by
    decide +kernel
  rw [hlog]
  unfold errors
  rw [if_pos hgave, hstate.1, hfailed, htext]
  rfl

end LambdaCpp
