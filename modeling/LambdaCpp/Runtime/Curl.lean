import Mathlib.Logic.Function.Basic
import LambdaCpp.Runtime.Callbacks
import LambdaCpp.Runtime.Upload

/-! # The Thread-Local curl Handle

    Each thread has one easy handle, whose option table outlives the calls
    that set it, and the objects those calls create: responses, upload
    contexts and header lists.  Several options are pointers to such
    objects, and nothing but the order of statements keeps a pointer from
    being followed after its object is gone.

    The model keeps the table, the live objects and, as history, what the
    handle looked like at each `curl_easy_perform`.  An address names one
    object for ever: a later object at the same place in memory has another
    address.  What libcurl does during a transfer is an `Exchange`, chosen by
    the network.
-/

namespace LambdaCpp

/-! ### Options -/

inductive CURLoption where
  | TIMEOUT | CONNECTTIMEOUT | NOSIGNAL | TCP_NODELAY | HTTP_VERSION
  | HTTPGET | POST | URL | PROXY | VERBOSE | DEBUGFUNCTION
  | WRITEFUNCTION | HEADERFUNCTION | READFUNCTION
  | WRITEDATA | HEADERDATA | READDATA | HTTPHEADER
  /-- Any option the runtime never sets. -/
  | other (n : Nat)
  deriving DecidableEq, Repr

/-- The callbacks the runtime installs. -/
inductive Function where
  | write_data | write_header | read_data | rt_curl_debug_callback
  deriving DecidableEq, Repr

abbrev Address : Type := Nat

inductive OptionValue where
  /-- As `curl_easy_reset` leaves it. -/
  | default
  | long (n : Int)
  /-- libcurl copies the text up to the first NUL. -/
  | text (s : Bytes)
  | function (f : Function)
  | pointer (p : Address)
  deriving DecidableEq, Repr

abbrev OptionTable : Type := CURLoption → OptionValue

def CURL_HTTP_VERSION_1_1 : Int := 2

/-! ### A thread -/

/-- The live objects, by the type they have. -/
structure Heap where
  responses : Address → Option response
  uploads : Address → Option upload_ctx
  slists : Address → Option (List Bytes)
  /-- The next address to be given out. -/
  fresh : Address

namespace Heap

def empty (fresh : Address) : Heap where
  responses := fun _ => none
  uploads := fun _ => none
  slists := fun _ => none
  fresh := fresh

/-- Some live object has this address. -/
def live (h : Heap) (p : Address) : Prop :=
  (h.responses p).isSome ∨ (h.uploads p).isSome ∨ (h.slists p).isSome

end Heap

/-- The handle and the objects at the moment of a `curl_easy_perform`. -/
structure Perform where
  options : OptionTable
  heap : Heap

structure Thread where
  /-- The option table of the thread's easy handle. -/
  handle : OptionTable
  heap : Heap
  /-- History: every `curl_easy_perform` so far. -/
  performs : List Perform

/-- A thread whose handle nobody has used: `curl_easy_init()`. -/
def Thread.new : Thread where
  handle := fun _ => .default
  heap := Heap.empty 0
  performs := []

/-- Code that runs on a thread.  A fault ends the run; what it did to the
    thread before stays visible. -/
def M (α : Type) : Type := Thread → Checked α × Thread

namespace M

instance : Monad M where
  pure a := fun w => (.ok a, w)
  bind x f := fun w =>
    match x w with
    | (.ok a, w) => f a w
    | (.error e, w) => (.error e, w)

/-- Code that does not touch the thread. -/
def lift {α : Type} (x : Checked α) : M α := fun w => (x, w)

variable {α β : Type}

@[simp] theorem pure_run (a : α) (w : Thread) : (pure a : M α) w = (.ok a, w) := rfl

theorem bind_run (x : M α) (f : α → M β) (w : Thread) :
    (x >>= f) w = match x w with
      | (.ok a, w) => f a w
      | (.error e, w) => (.error e, w) := rfl

theorem bind_ok {x : M α} {f : α → M β} {w w' : Thread} {a : α} (h : x w = (.ok a, w')) :
    (x >>= f) w = f a w' := by
  rw [bind_run, h]

theorem bind_error {x : M α} {f : α → M β} {w w' : Thread} {e : Fault}
    (h : x w = (.error e, w')) : (x >>= f) w = (.error e, w') := by
  rw [bind_run, h]

end M

/-! ### Objects -/

def new_response (resp : response) : M Address := fun w =>
  (.ok w.heap.fresh, { w with heap := { w.heap with
    responses := Function.update w.heap.responses w.heap.fresh (some resp)
    fresh := w.heap.fresh + 1 } })

def load_response (p : Address) : M response := fun w =>
  match w.heap.responses p with
  | some resp => (.ok resp, w)
  | none => (.error .dangling, w)

def store_response (p : Address) (resp : response) : M Unit := fun w =>
  (.ok (), { w with heap := { w.heap with
    responses := Function.update w.heap.responses p (some resp) } })

def delete_response (p : Address) : M Unit := fun w =>
  match w.heap.responses p with
  | some _ => (.ok (), { w with heap := { w.heap with
      responses := Function.update w.heap.responses p none } })
  | none => (.error .dangling, w)

def new_upload (ctx : upload_ctx) : M Address := fun w =>
  (.ok w.heap.fresh, { w with heap := { w.heap with
    uploads := Function.update w.heap.uploads w.heap.fresh (some ctx)
    fresh := w.heap.fresh + 1 } })

def load_upload (p : Address) : M upload_ctx := fun w =>
  match w.heap.uploads p with
  | some ctx => (.ok ctx, w)
  | none => (.error .dangling, w)

def store_upload (p : Address) (ctx : upload_ctx) : M Unit := fun w =>
  (.ok (), { w with heap := { w.heap with
    uploads := Function.update w.heap.uploads p (some ctx) } })

def delete_upload (p : Address) : M Unit := fun w =>
  match w.heap.uploads p with
  | some _ => (.ok (), { w with heap := { w.heap with
      uploads := Function.update w.heap.uploads p none } })
  | none => (.error .dangling, w)

/-- `curl_slist_append`: a null list starts a new one; the text is copied up
    to its first NUL. -/
def curl_slist_append (list : Option Address) (s : Bytes) : M (Option Address) := fun w =>
  match list with
  | none => (.ok (some w.heap.fresh), { w with heap := { w.heap with
      slists := Function.update w.heap.slists w.heap.fresh (some [Bytes.c_str s])
      fresh := w.heap.fresh + 1 } })
  | some p =>
    match w.heap.slists p with
    | some entries => (.ok (some p), { w with heap := { w.heap with
        slists := Function.update w.heap.slists p (some (entries ++ [Bytes.c_str s])) } })
    | none => (.error .dangling, w)

def curl_slist_free_all (list : Option Address) : M Unit := fun w =>
  match list with
  | none => (.ok (), w)
  | some p =>
    match w.heap.slists p with
    | some _ => (.ok (), { w with heap := { w.heap with
        slists := Function.update w.heap.slists p none } })
    | none => (.error .dangling, w)

/-! ### The handle -/

def curl_easy_reset : M Unit := fun w => (.ok (), { w with handle := fun _ => .default })

def curl_easy_setopt (o : CURLoption) (v : OptionValue) : M Unit := fun w =>
  (.ok (), { w with handle := Function.update w.handle o v })

theorem new_response_run (resp : response) (w : Thread) :
    new_response resp w = (.ok w.heap.fresh, { w with heap := { w.heap with
      responses := Function.update w.heap.responses w.heap.fresh (some resp)
      fresh := w.heap.fresh + 1 } }) := rfl

theorem new_upload_run (ctx : upload_ctx) (w : Thread) :
    new_upload ctx w = (.ok w.heap.fresh, { w with heap := { w.heap with
      uploads := Function.update w.heap.uploads w.heap.fresh (some ctx)
      fresh := w.heap.fresh + 1 } }) := rfl

/-- The thread with a new list of these entries. -/
def Thread.with_slist (w : Thread) (entries : List Bytes) : Thread :=
  { w with heap := { w.heap with
    slists := Function.update w.heap.slists w.heap.fresh (some entries)
    fresh := w.heap.fresh + 1 } }

theorem curl_slist_start_run (s : Bytes) (w : Thread) :
    curl_slist_append none s w = (.ok (some w.heap.fresh), w.with_slist [Bytes.c_str s]) := rfl

theorem curl_slist_append_run (entries : List Bytes) (s : Bytes) (w : Thread) :
    curl_slist_append (some w.heap.fresh) s (w.with_slist entries) =
      (.ok (some w.heap.fresh), w.with_slist (entries ++ [Bytes.c_str s])) := by
  simp [curl_slist_append, Thread.with_slist]

theorem curl_easy_setopt_run (o : CURLoption) (v : OptionValue) (w : Thread) :
    curl_easy_setopt o v w = (.ok (), { w with handle := Function.update w.handle o v }) := rfl

/-- `CURLOPT_HTTPHEADER` takes the list itself; a null list unsets it. -/
def slist_value : Option Address → OptionValue
  | none => .default
  | some p => .pointer p

abbrev CURLcode : Type := Nat

def CURLE_OK : CURLcode := 0
def CURLE_WRITE_ERROR : CURLcode := 23

/-- A call libcurl makes during a transfer. -/
inductive Callback where
  /-- A header line arrived. -/
  | header (line : Bytes)
  /-- A piece of the body arrived. -/
  | body (chunk : Bytes)
  /-- More of the upload is wanted. -/
  | read (size nitems : Nat)
  deriving DecidableEq, Repr

namespace Callback

@[simp] def line? : Callback → Option Bytes
  | header line => some line
  | _ => none

@[simp] def chunk? : Callback → Option Bytes
  | body chunk => some chunk
  | _ => none

end Callback

/-- What the network makes of one transfer, and the clock after it. -/
structure Exchange where
  callbacks : List Callback
  code : CURLcode
  /-- `CURLINFO_RESPONSE_CODE`: three digits, or 0 when there was no status
      line.  The cast from `long` to `response_code` leaves such a code as it
      is, and is not modelled. -/
  response_code : Int
  /-- `CURLINFO_CONTENT_TYPE`: a null pointer when there was none. -/
  content_type : Option Bytes
  /-- `system_clock::now()` in nanoseconds since the epoch. -/
  now : Fin (2 ^ 63)
  deriving DecidableEq, Repr

namespace Exchange

/-- The header lines that arrived. -/
def lines (x : Exchange) : List Bytes := x.callbacks.filterMap Callback.line?

/-- The pieces of the body that arrived. -/
def chunks (x : Exchange) : List Bytes := x.callbacks.filterMap Callback.chunk?

/-- The clock of a transfer at the epoch. -/
def epoch : Fin (2 ^ 63) := 0

end Exchange

/-- The value of a pointer option. -/
def data_pointer (o : CURLoption) : M Address := fun w =>
  match w.handle o with
  | .pointer p => (.ok p, w)
  | _ => (.error .dangling, w)

/-- One call of an installed callback; `false` aborts the transfer.  Without
    the runtime's callback libcurl falls back on its own. -/
def invoke (t : Target) (cb : Callback) : M Bool := fun w =>
  match cb with
  | .header line =>
    if w.handle .HEADERFUNCTION = .function .write_header then
      (do let p ← data_pointer .HEADERDATA
          let resp ← load_response p
          let (n, resp) ← M.lift (write_header t (some line) 1 resp)
          store_response p resp
          pure (decide (n = line.length))) w
    else (.ok true, w)
  | .body chunk =>
    if w.handle .WRITEFUNCTION = .function .write_data then
      (do let p ← data_pointer .WRITEDATA
          let resp ← load_response p
          let (n, resp) ← M.lift (write_data t (some chunk) 1 resp)
          store_response p resp
          pure (decide (n = chunk.length))) w
    else (.ok true, w)
  | .read size nitems =>
    if w.handle .READFUNCTION = .function .read_data then
      (do let q ← data_pointer .READDATA
          let ctx ← load_upload q
          let r ← M.lift (read_data size nitems ctx)
          store_upload q r.ctx
          pure true) w
    else (.ok true, w)

/-- The callbacks of a transfer, until one aborts it. -/
def deliver (t : Target) : List Callback → M Bool
  | [] => pure true
  | cb :: cbs => do
    if ← invoke t cb then deliver t cbs else pure false

/-- Enter the handle as it is now into the history. -/
def Thread.record (w : Thread) : Thread :=
  { w with performs := w.performs ++ [⟨w.handle, w.heap⟩] }

def curl_easy_perform (t : Target) (x : Exchange) : M CURLcode := fun w =>
  (do if ← deliver t x.callbacks then pure x.code else pure CURLE_WRITE_ERROR : M CURLcode) w.record

/-! ### What a transfer does

    `receive` is the effect of the callbacks on the response alone.  When
    the pointers lead to live objects (`Listening`), a transfer changes the
    response as `receive` says, perhaps the upload context, and nothing
    else. -/

section transfer
variable (t : Target)

def receive : List Callback → response → Checked response
  | [], resp => .ok resp
  | .header line :: cbs, resp =>
    if lowerable_line t line then receive cbs (store_line resp line) else .error .ctype_domain
  | .body chunk :: cbs, resp => receive cbs (resp.append_body chunk)
  | .read _ _ :: cbs, resp => receive cbs resp

/-- The download callbacks are installed and point to the live response `p`;
    the upload callback, if installed, points to a live context inside its
    payload. -/
structure Listening (p : Address) (resp : response) (w : Thread) : Prop where
  header_function : w.handle .HEADERFUNCTION = .function .write_header
  header_data : w.handle .HEADERDATA = .pointer p
  write_function : w.handle .WRITEFUNCTION = .function .write_data
  write_data : w.handle .WRITEDATA = .pointer p
  live : w.heap.responses p = some resp
  upload : w.handle .READFUNCTION = .function .read_data →
    ∃ (q : Address) (payload : Bytes) (c : Cut payload),
      w.handle .READDATA = .pointer q ∧ w.heap.uploads q = some c.ctx

/-- The thread after a transfer left `resp` at `p`. -/
def Thread.received (w : Thread) (p : Address) (resp : response)
    (uploads : Address → Option upload_ctx) : Thread :=
  { w with heap := { w.heap with
    responses := Function.update w.heap.responses p (some resp)
    uploads := uploads } }

/-- The same addresses hold an upload context. -/
def SameUploads (u u' : Address → Option upload_ctx) : Prop :=
  ∀ a, (u a).isSome = (u' a).isSome

theorem SameUploads.none_of {u u' : Address → Option upload_ctx} (h : SameUploads u u')
    {a : Address} (ha : u' a = none) : u a = none := by
  have hsame := h a
  rw [ha] at hsame
  simpa using hsame

variable {t} {p : Address} {resp : response} {w : Thread}

theorem Listening.load (h : Listening p resp w) : load_response p w = (.ok resp, w) := by
  simp [load_response, h.live]

/-- Nothing received. -/
theorem Listening.received_self (h : Listening p resp w) : w.received p resp w.heap.uploads = w := by
  unfold Thread.received
  rw [← h.live, Function.update_eq_self]

/-- After any callback the handle listens on. -/
theorem Listening.keep (h : Listening p resp w) (resp' : response) :
    Listening p resp' (w.received p resp' w.heap.uploads) :=
  { h with live := by simp [Thread.received] }

/-- The upload callback: the context stays a cut of the same payload, and the
    response is not touched. -/
theorem invoke_read_eq (h : Listening p resp w) (size nitems : Nat) :
    ∃ uploads, SameUploads uploads w.heap.uploads ∧
      invoke t (.read size nitems) w = (.ok true, w.received p resp uploads) ∧
      Listening p resp (w.received p resp uploads) := by
  by_cases hread : w.handle .READFUNCTION = .function .read_data
  · obtain ⟨q, payload, c, hdata, hq⟩ := h.upload hread
    have hpointer : data_pointer .READDATA w = (.ok q, w) := by simp [data_pointer, hdata]
    have hload : load_upload q w = (.ok c.ctx, w) := by simp [load_upload, hq]
    let c' := c.advance (size * nitems % 2 ^ 64)
    have hsame : Function.update w.heap.responses p (some resp) = w.heap.responses := by
      rw [← h.live, Function.update_eq_self]
    refine ⟨Function.update w.heap.uploads q (some c'.ctx), ?_, ?_, ?_⟩
    · intro a
      by_cases ha : a = q
      · subst ha; simp [hq]
      · simp [Function.update_of_ne ha]
    · unfold invoke
      simp only [hread, if_true]
      rw [M.bind_ok hpointer, M.bind_ok hload, read_data_eq]
      simp [M.lift, M.bind_run, store_upload, Thread.received, hsame, c']
    · exact { h.keep resp with
        upload := fun _ => ⟨q, payload, c', hdata, by simp [Thread.received]⟩ }
  · -- a GET has no upload callback, and nothing of the thread is touched
    refine ⟨w.heap.uploads, fun a => rfl, ?_, h.keep resp⟩
    rw [h.received_self]
    simp [invoke, hread]

/-- Each callback: the response moves on as `receive` says. -/
theorem invoke_eq (h : Listening p resp w) (cb : Callback) :
    (∃ resp' uploads, receive t [cb] resp = .ok resp' ∧
      SameUploads uploads w.heap.uploads ∧
      invoke t cb w = (.ok true, w.received p resp' uploads) ∧
      Listening p resp' (w.received p resp' uploads)) ∨
    ∃ e, receive t [cb] resp = .error e ∧ invoke t cb w = (.error e, w) := by
  cases cb with
  | header line =>
    have hdata : data_pointer .HEADERDATA w = (.ok p, w) := by
      simp [data_pointer, h.header_data]
    unfold invoke
    simp only [h.header_function, if_true]
    rw [M.bind_ok hdata, M.bind_ok h.load]
    by_cases hline : lowerable_line t line
    · -- the callback reports the whole line, so libcurl goes on
      left
      have hwrite : write_header t (some line) 1 resp = .ok (line.length, store_line resp line) := by
        rw [write_header_eq, if_pos hline, Nat.one_mul]
      refine ⟨store_line resp line, w.heap.uploads, by simp [receive, hline], fun a => rfl, ?_,
        h.keep _⟩
      rw [hwrite]
      simp [M.lift, M.bind_run, store_response, Thread.received]
    · -- `::tolower` is called outside its domain
      right
      have hwrite : write_header t (some line) 1 resp = .error .ctype_domain := by
        rw [write_header_eq, if_neg hline]
      refine ⟨.ctype_domain, by simp [receive, hline], ?_⟩
      rw [hwrite]
      simp [M.lift, M.bind_run]
  | body chunk =>
    left
    have hdata : data_pointer .WRITEDATA w = (.ok p, w) := by
      simp [data_pointer, h.write_data]
    refine ⟨resp.append_body chunk, w.heap.uploads, by simp [receive], fun a => rfl, ?_, h.keep _⟩
    unfold invoke
    simp only [h.write_function, if_true]
    rw [M.bind_ok hdata, M.bind_ok h.load, write_data_eq]
    simp [M.lift, M.bind_run, store_response, Thread.received]
  | read size nitems =>
    left
    obtain ⟨uploads, hsame, hinvoke, hlistening⟩ := invoke_read_eq (t := t) h size nitems
    exact ⟨resp, uploads, by simp [receive], hsame, hinvoke, hlistening⟩

theorem receive_cons (cb : Callback) (cbs : List Callback) (resp : response) :
    receive t (cb :: cbs) resp = receive t [cb] resp >>= receive t cbs := by
  cases cb with
  | header line => by_cases h : lowerable_line t line <;> simp [receive, h]
  | body chunk => rfl
  | read size nitems => rfl

theorem Thread.received_received (w : Thread) (p : Address) (r r' : response)
    (u u' : Address → Option upload_ctx) :
    (w.received p r u).received p r' u' = w.received p r' u' := by
  simp [Thread.received]

/-- A whole transfer; it is never aborted by the callbacks. -/
theorem deliver_eq (cbs : List Callback) : ∀ {resp w}, Listening p resp w →
    (∃ resp' uploads, receive t cbs resp = .ok resp' ∧ SameUploads uploads w.heap.uploads ∧
      deliver t cbs w = (.ok true, w.received p resp' uploads)) ∨
    ∃ e w', receive t cbs resp = .error e ∧ w'.performs = w.performs ∧
      deliver t cbs w = (.error e, w') := by
  induction cbs with
  | nil =>
    intro resp w h
    left
    refine ⟨resp, w.heap.uploads, rfl, fun a => rfl, ?_⟩
    rw [h.received_self]
    rfl
  | cons cb cbs ih =>
    intro resp w h
    rw [receive_cons]
    rcases invoke_eq (t := t) h cb with ⟨resp₁, u₁, hr₁, hu₁, hi₁, hl₁⟩ | ⟨e, hr₁, hi₁⟩
    · -- the callback kept the pointers, so the rest of the transfer can use them
      have hrest : deliver t (cb :: cbs) w = deliver t cbs (w.received p resp₁ u₁) := by
        rw [deliver, M.bind_ok hi₁]; rfl
      rw [hr₁, hrest]
      rcases ih hl₁ with ⟨resp₂, u₂, hr₂, hu₂, hd₂⟩ | ⟨e, w₂, hr₂, hp₂, hd₂⟩
      · left
        rw [Thread.received_received] at hd₂
        exact ⟨resp₂, u₂, hr₂, fun a => (hu₂ a).trans (hu₁ a), hd₂⟩
      · right
        exact ⟨e, w₂, hr₂, hp₂, hd₂⟩
    · -- the first callback faulted
      right
      refine ⟨e, w, by rw [hr₁]; rfl, rfl, ?_⟩
      rw [deliver, M.bind_error hi₁]

/-- **`curl_easy_perform`** records the handle it was called with and does
    the transfer. -/
theorem curl_easy_perform_eq (x : Exchange) (h : Listening p resp w) :
    (∃ resp' uploads, receive t x.callbacks resp = .ok resp' ∧
      SameUploads uploads w.heap.uploads ∧
      curl_easy_perform t x w = (.ok x.code, w.record.received p resp' uploads)) ∨
    ∃ e w', receive t x.callbacks resp = .error e ∧ w'.performs = w.record.performs ∧
      curl_easy_perform t x w = (.error e, w') := by
  have hrecord : Listening p resp w.record := { h with }
  unfold curl_easy_perform
  rcases deliver_eq (t := t) x.callbacks hrecord with ⟨resp', u, hr, hu, hd⟩ | ⟨e, w', hr, hp, hd⟩
  · left
    refine ⟨resp', u, hr, hu, ?_⟩
    rw [M.bind_ok hd]; rfl
  · right
    refine ⟨e, w', hr, hp, ?_⟩
    rw [M.bind_error hd]

/-- What is received, in one piece. -/
theorem receive_eq (x : Exchange) (resp : response) :
    receive t x.callbacks resp =
      if x.lines.all (lowerable_line t) then
        .ok { resp with
          m_headers := resp.m_headers ++ headers_of x.lines
          m_body := resp.m_body ++ x.chunks.flatten }
      else .error .ctype_domain := by
  unfold Exchange.lines Exchange.chunks
  generalize x.callbacks = cbs
  induction cbs generalizing resp with
  | nil => simp [receive, headers_of]
  | cons cb cbs ih =>
    cases cb with
    | header line =>
      by_cases hline : lowerable_line t line
      · simp [receive, hline, ih, store_line, headers_of_cons, List.filterMap_cons]
      · simp [receive, hline]
    | body chunk => simp [receive, ih, response.append_body, List.filterMap_cons]
    | read size nitems => simp [receive, ih, List.filterMap_cons]

end transfer

end LambdaCpp
