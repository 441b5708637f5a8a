import LambdaCpp.Runtime.Framing
import LambdaCpp.Runtime.Loop

/-! # Loops on Many Threads

    Any number of `run_handler` loops, each with its own locals and its own
    thread-local handle, taking their steps in any order.  The network and
    the handlers choose what every step sees, so a handler may share state
    with the handlers of other threads.

    `every_invocation_answered` states that no answer is lost, duplicated or
    sent for another invocation, in any interleaving.
-/

namespace LambdaCpp

open Bytes (ascii)

variable (t : Target) (rt : runtime)

/-! ### Events -/

/-- What a loop does, with what others can see of it. -/
inductive Event where
  /-- `get_next` returned, or faulted. -/
  | next (x : Exchange) (perform : Perform) (out : Checked next_outcome)
  /-- The handler was called and answered. -/
  | call (req : invocation_request) (res : invocation_response)
  /-- A POST was attempted. -/
  | post (x : Exchange) (perform : Perform)
  /-- The loop condition was false. -/
  | exhausted

/-- One loop as a system. -/
def loop_system : System Loop Event where
  init := fun l => l = Loop.start
  step := fun l e l' =>
    match e with
    | .next x perform out =>
      l.pc = .head ∧ l.retries < max_retries ∧ l' = l.next t rt x ∧
        out = (get_next t rt x l.thread).1 ∧
        l'.thread.performs = l.thread.performs ++ [perform]
    | .call req res => l.pc = .calling req ∧ l' = { l with pc := .posting req res }
    | .post x perform =>
      ∃ req res, l.pc = .posting req res ∧ l' = l.post t rt req res x ∧
        l'.thread.performs = l.thread.performs ++ [perform]
    | .exhausted => l.pc = .head ∧ ¬ l.retries < max_retries ∧ l' = { l with pc := .returned }

/-! ### Answers -/

/-- The entry gives this header. -/
def names (name : Bytes) (entry : Bytes) : Bool := (header_of entry).map Prod.fst = some name

/-- The request answers `req` with `res`: the URL, the entry for the
    invocation id and the body are those of this invocation and this
    answer.  libcurl reads the URL and the entries as C strings. -/
structure Answers (endpoint : Bytes) (req : invocation_request) (res : invocation_response)
    (p : Perform) : Prop where
  url : p.options .URL = .text (Bytes.c_str (endpoint ++ ascii "/2018-06-01/runtime/invocation/" ++
    req.request_id ++ if res.is_success then ascii "/response" else ascii "/error"))
  headers : ∃ a entries, p.options .HTTPHEADER = .pointer a ∧ p.heap.slists a = some entries ∧
    entries.filter (names INVOCATION_ID_HEADER) =
      if req.invocation_id = [] then []
      else [Bytes.c_str (INVOCATION_ID_HEADER ++ ascii ": " ++ req.invocation_id)]
  body : ∃ a, p.options .READDATA = .pointer a ∧ p.heap.uploads a = some ⟨res.get_payload, 0⟩

/-- Every invocation is answered once, and nothing else is: in the trace of
    one loop, which stands at `pc`. -/
structure Answered (endpoint : Bytes) (tr : List Event) (pc : Pc) : Prop where
  /-- After an invocation came its handler call and its POST, unless the
      loop is still busy with it. -/
  invoked : ∀ pre x p req post, tr = pre ++ .next x p (.ok (.result req)) :: post →
    (post = [] ∧ pc = .calling req) ∨
    (∃ res, post = [.call req res] ∧ pc = .posting req res) ∨
    ∃ res y q rest, post = .call req res :: .post y q :: rest ∧ Answers endpoint req res q
  /-- A handler call belongs to the invocation just received. -/
  called : ∀ pre req res post, tr = pre ++ .call req res :: post →
    ∃ pre' x p, pre = pre' ++ [.next x p (.ok (.result req))]
  /-- A POST belongs to the invocation just handled. -/
  posted : ∀ pre y q post, tr = pre ++ .post y q :: post →
    ∃ pre' x p req res, pre = pre' ++ [.next x p (.ok (.result req)), .call req res] ∧
      Answers endpoint req res q

/-! ### The request of an answer -/

section
variable (endpoint user_agent : Bytes)

theorem names_entry {e : Entry} (h : e.NamePlain) (name : Bytes) :
    names name (Bytes.c_str e.text) = decide (e.name.map Bytes.lower = name) := by
  unfold names
  rw [c_str_text h, header_of_line h]
  simp

/-- Only the entry for the invocation id gives that header. -/
theorem filter_named_entries (p : Post) :
    (p.named_entries user_agent).filter
        (fun e => decide (e.name.map Bytes.lower = INVOCATION_ID_HEADER)) =
      if p.invocation_id = [] then [] else [⟨INVOCATION_ID_HEADER, ascii " " ++ p.invocation_id⟩] := by
  have hother : ∀ n ∈ [ascii "content-type", ascii "lambda-runtime-function-xray-error-cause",
      ascii "Expect", ascii "transfer-encoding", ascii "User-Agent", ascii "content-length"],
        n.map Bytes.lower ≠ INVOCATION_ID_HEADER := by decide +kernel
  have hself : INVOCATION_ID_HEADER.map Bytes.lower = INVOCATION_ID_HEADER := by decide +kernel
  unfold Post.named_entries
  by_cases hid : p.invocation_id = []
  · simp [hid, hother]
  · simp [hid, hother, hself]

theorem filter_entries (p : Post) :
    ((p.entries (runtime.with_user_agent endpoint user_agent)).map Bytes.c_str).filter
        (names INVOCATION_ID_HEADER) =
      if p.invocation_id = [] then []
      else [Bytes.c_str (INVOCATION_ID_HEADER ++ ascii ": " ++ p.invocation_id)] := by
  have hfilter : (p.named_entries user_agent).filter
      (names INVOCATION_ID_HEADER ∘ fun e => Bytes.c_str e.text) =
      (p.named_entries user_agent).filter
        (fun e => decide (e.name.map Bytes.lower = INVOCATION_ID_HEADER)) := by
    apply List.filter_congr
    intro e he
    exact names_entry (named_entries_plain user_agent p e he) _
  have htext : ascii ": " ++ p.invocation_id = 0x3a :: (ascii " " ++ p.invocation_id) := rfl
  rw [entries_eq, List.map_map]
  have hcomp : Bytes.c_str ∘ Entry.text = fun e => Bytes.c_str e.text := rfl
  rw [hcomp, List.filter_map, hfilter, filter_named_entries]
  by_cases hid : p.invocation_id = []
  · simp [hid]
  · simp [hid, Entry.text, List.append_assoc, htext]

/-- The POST of the loop answers the invocation. -/
theorem answer_answers (req : invocation_request) (res : invocation_response) (h : Heap) :
    Answers endpoint req res (post_perform t (runtime.with_user_agent endpoint user_agent)
      (answer (runtime.with_user_agent endpoint user_agent) req res) h) where
  url := by
    unfold answer success_url failure_url runtime.with_user_agent
    cases res.is_success <;> rfl
  headers := by
    refine ⟨h.fresh, _, rfl, ?_, filter_entries endpoint user_agent
      (answer (runtime.with_user_agent endpoint user_agent) req res)⟩
    simp [post_perform, post_heap]
  body := by
    refine ⟨h.fresh + 1, rfl, ?_⟩
    simp [post_perform, post_heap, answer, Post.of_response]

end

/-! ### One step -/

/-- One more event keeps every invocation answered, if it is the one the
    loop was waiting for. -/
theorem Answered.extend {endpoint : Bytes} {tr : List Event} {pc pc' : Pc} {e : Event}
    (h : Answered endpoint tr pc)
    (hnext : ∀ x p req, e = .next x p (.ok (.result req)) → pc' = .calling req)
    (hcall : ∀ req res, e = .call req res → ∃ pre x p, tr = pre ++ [.next x p (.ok (.result req))])
    (hpost : ∀ y q, e = .post y q → ∃ pre x p req res,
      tr = pre ++ [.next x p (.ok (.result req)), .call req res] ∧ Answers endpoint req res q)
    (hcalling : ∀ req, pc = .calling req → ∃ res, e = .call req res ∧ pc' = .posting req res)
    (hposting : ∀ req res, pc = .posting req res → ∃ y q, e = .post y q ∧ Answers endpoint req res q) :
    Answered endpoint (tr ++ [e]) pc' where
  invoked := by
    intro pre x p req post hsplit
    rcases System.append_singleton_eq_iff.mp hsplit with ⟨rfl, -, he⟩ | ⟨post', rfl, htr⟩
    · left
      exact ⟨rfl, hnext x p req he⟩
    · rcases h.invoked pre x p req post' htr with
        ⟨rfl, hpc⟩ | ⟨res, rfl, hpc⟩ | ⟨res, y, q, rest, rfl, hanswers⟩
      · -- the handler call
        obtain ⟨res, rfl, hpc'⟩ := hcalling req hpc
        right; left
        exact ⟨res, rfl, hpc'⟩
      · -- the POST
        obtain ⟨y, q, rfl, hanswers⟩ := hposting req res hpc
        right; right
        exact ⟨res, y, q, [], rfl, hanswers⟩
      · right; right
        exact ⟨res, y, q, rest ++ [e], rfl, hanswers⟩
  called := by
    intro pre req res post hsplit
    rcases System.append_singleton_eq_iff.mp hsplit with ⟨-, htr, he⟩ | ⟨post', -, htr⟩
    · rw [← htr]
      exact hcall req res he
    · exact h.called pre req res post' htr
  posted := by
    intro pre y q post hsplit
    rcases System.append_singleton_eq_iff.mp hsplit with ⟨-, htr, he⟩ | ⟨post', -, htr⟩
    · rw [← htr]
      exact hpost y q he
    · exact h.posted pre y q post' htr

section
variable {endpoint : Bytes} {tr : List Event}

/-- At the head of the loop an invocation may come. -/
theorem Answered.next {pc' : Pc} {x : Exchange} {p : Perform}
    {out : Checked next_outcome} (h : Answered endpoint tr .head)
    (hpc : ∀ req, out = .ok (.result req) → pc' = .calling req) :
    Answered endpoint (tr ++ [.next x p out]) pc' := by
  apply h.extend
  · intro x' p' req he
    obtain ⟨-, -, hout⟩ := Event.next.inj he
    exact hpc req hout
  · intro req res he; cases he
  · intro y q he; cases he
  · intro req hcalling; cases hcalling
  · intro req res hposting; cases hposting

/-- The handler is called with the invocation that came. -/
theorem Answered.call {req : invocation_request} {res : invocation_response}
    (h : Answered endpoint tr (.calling req))
    (hnext : ∃ pre x p, tr = pre ++ [.next x p (.ok (.result req))]) :
    Answered endpoint (tr ++ [.call req res]) (.posting req res) := by
  apply h.extend
  · intro x p req' he; cases he
  · intro req' res' he
    obtain ⟨rfl, -⟩ := Event.call.inj he
    exact hnext
  · intro y q he; cases he
  · intro req' hcalling
    obtain rfl := Pc.calling.inj hcalling
    exact ⟨res, rfl, rfl⟩
  · intro req' res' hposting; cases hposting

/-- Its answer is posted. -/
theorem Answered.post {req : invocation_request} {res : invocation_response} {pc' : Pc}
    {x : Exchange} {perform : Perform} (h : Answered endpoint tr (.posting req res))
    (hcall : ∃ pre x p, tr = pre ++ [.next x p (.ok (.result req)), .call req res])
    (hperform : Answers endpoint req res perform) :
    Answered endpoint (tr ++ [.post x perform]) pc' := by
  obtain ⟨pre, x', p', htr⟩ := hcall
  apply h.extend
  · intro x'' p'' req' he; cases he
  · intro req' res' he; cases he
  · intro y q he
    obtain ⟨-, rfl⟩ := Event.post.inj he
    exact ⟨pre, x', p', req, res, htr, hperform⟩
  · intro req' hcalling; cases hcalling
  · intro req' res' hposting
    obtain ⟨rfl, rfl⟩ := Pc.posting.inj hposting
    exact ⟨x, perform, rfl, hperform⟩

theorem Answered.exhausted {pc' : Pc} (h : Answered endpoint tr .head) :
    Answered endpoint (tr ++ [.exhausted]) pc' := by
  apply h.extend
  · intro x p req he; cases he
  · intro req res he; cases he
  · intro y q he; cases he
  · intro req hcalling; cases hcalling
  · intro req res hposting; cases hposting

end

/-- What has just happened, by where the loop stands. -/
def Waiting (tr : List Event) : Pc → Prop
  | .calling req => ∃ pre x p, tr = pre ++ [.next x p (.ok (.result req))]
  | .posting req res =>
    ∃ pre x p, tr = pre ++ [.next x p (.ok (.result req)), .call req res]
  | _ => True

section
variable {t} (endpoint user_agent : Bytes)

theorem answered_step {tr : List Event} {l l' : Loop} {e : Event}
    (h : Answered endpoint tr l.pc ∧ Waiting tr l.pc)
    (hstep : (loop_system t (runtime.with_user_agent endpoint user_agent)).step l e l') :
    Answered endpoint (tr ++ [e]) l'.pc ∧ Waiting (tr ++ [e]) l'.pc := by
  obtain ⟨hanswered, hwaiting⟩ := h
  cases e with
  | next x perform out =>
    obtain ⟨hpc, -, hl', hout, -⟩ := hstep
    obtain ⟨w, heq, hresult, -⟩ :=
      Loop.next_eq t (runtime.with_user_agent endpoint user_agent) x l
    rw [heq, ← hresult, ← hout] at hl'
    rw [hpc] at hanswered
    refine ⟨hanswered.next ?_, ?_⟩
    · rintro req rfl
      rw [hl']; rfl
    · rw [hl']
      cases out with
      | error e => exact trivial
      | ok out =>
        cases out with
        | failure c => exact trivial
        | result req => exact ⟨tr, x, perform, rfl⟩
  | call req res =>
    obtain ⟨hpc, hl'⟩ := hstep
    rw [hpc] at hanswered hwaiting
    rw [hl']
    refine ⟨hanswered.call hwaiting, ?_⟩
    obtain ⟨pre, x, p, htr⟩ := hwaiting
    rw [htr]
    exact ⟨pre, x, p, by simp⟩
  | post x perform =>
    obtain ⟨req, res, hpc, hl', hperforms⟩ := hstep
    have hrecord := Loop.post_performs t (runtime.with_user_agent endpoint user_agent) req res x l
    obtain ⟨w, heq, -⟩ := Loop.post_eq t (runtime.with_user_agent endpoint user_agent) req res x l
    -- the request is the one `answer` describes
    have hperform : Answers endpoint req res perform := by
      rw [hl', hrecord] at hperforms
      have := List.append_cancel_left hperforms
      simp only [List.cons.injEq, and_true] at this
      rw [← this]
      exact answer_answers t endpoint user_agent req res l.thread.heap
    rw [hpc] at hanswered hwaiting
    refine ⟨hanswered.post hwaiting hperform, ?_⟩
    rw [hl', heq]
    unfold after_post
    split <;> exact trivial
  | exhausted =>
    obtain ⟨hpc, -, hl'⟩ := hstep
    rw [hpc] at hanswered
    refine ⟨hanswered.exhausted, ?_⟩
    rw [hl']
    exact trivial

/-! ### Runs of one loop -/

theorem Answered.nil (pc : Pc) : Answered endpoint [] pc where
  invoked := by
    intro pre x p req post h
    simp at h
  called := by
    intro pre req res post h
    simp at h
  posted := by
    intro pre y q post h
    simp at h

theorem loop_answered {tr : List Event} {l : Loop}
    (h : (loop_system t (runtime.with_user_agent endpoint user_agent)).Run tr l) :
    Answered endpoint tr l.pc := by
  have hinv : Answered endpoint tr l.pc ∧ Waiting tr l.pc := by
    refine System.Run.invariant (I := fun tr l => Answered endpoint tr l.pc ∧ Waiting tr l.pc) ?_ ?_ h
    · intro l hl
      rw [show l = Loop.start from hl]
      exact ⟨Answered.nil endpoint _, trivial⟩
    · intro tr l e l' hl hstep
      exact answered_step endpoint user_agent hl hstep
  exact hinv.1

end

/-- The transfer of the event, if it has one, is well formed. -/
def Event.WellFormed (t : Target) : Event → Prop
  | .next x _ _ => LambdaCpp.WellFormed t x
  | .post x _ => LambdaCpp.WellFormed t x
  | .call _ _ => True
  | .exhausted => True

/-- Well-formed transfers keep the loop inside the defined behaviour. -/
theorem loop_not_aborted {s d : Bool} {v : Bytes} {tr : List Event} {l : Loop}
    (h : (loop_system (Target.linux s d v) rt).Run tr l)
    (hwf : ∀ e ∈ tr, e.WellFormed (Target.linux s d v)) (f : Fault) : l.pc ≠ .aborted f := by
  cases h with
  | init hl =>
    rw [show l = Loop.start from hl]
    exact Pc.noConfusion
  | @step tr l₀ e _ _ hstep =>
    have he : e.WellFormed (Target.linux s d v) := hwf e (by simp)
    cases e with
    | next x perform out =>
      obtain ⟨-, -, hl, -⟩ := hstep
      obtain ⟨w, heq, -, -⟩ := Loop.next_eq (Target.linux s d v) rt x l₀
      have hx : LambdaCpp.WellFormed (Target.linux s d v) x := he
      rw [hl, heq, hx.next_result]
      cases classify x <;> exact Pc.noConfusion
    | call req res =>
      obtain ⟨-, hl⟩ := hstep
      rw [hl]
      exact Pc.noConfusion
    | post x perform =>
      obtain ⟨req, res, -, hl, -⟩ := hstep
      obtain ⟨w, heq, -⟩ := Loop.post_eq (Target.linux s d v) rt req res x l₀
      rw [hl, heq, post_result_linux]
      cases post_of_response x x.code <;> exact Pc.noConfusion
    | exhausted =>
      obtain ⟨-, -, hl⟩ := hstep
      rw [hl]
      exact Pc.noConfusion

/-! ### What a loop can do next -/

section
variable {l : Loop}

theorem can_ask (hpc : l.pc = .head) (hretries : l.retries < max_retries) (x : Exchange) :
    (loop_system t rt).step l (.next x (next_perform t rt l.thread.heap) (next_result t x))
      (l.next t rt x) := by
  obtain ⟨w, -, hresult, -⟩ := Loop.next_eq t rt x l
  exact ⟨hpc, hretries, rfl, hresult.symm, Loop.next_performs t rt x l⟩

theorem can_call {req : invocation_request} (hpc : l.pc = .calling req)
    (res : invocation_response) :
    (loop_system t rt).step l (.call req res) { l with pc := .posting req res } :=
  ⟨hpc, rfl⟩

theorem can_post {req : invocation_request} {res : invocation_response}
    (hpc : l.pc = .posting req res) (x : Exchange) :
    (loop_system t rt).step l (.post x (post_perform t rt (answer rt req res) l.thread.heap))
      (l.post t rt req res x) :=
  ⟨req, res, hpc, rfl, Loop.post_performs t rt req res x l⟩

theorem can_give_up (hpc : l.pc = .head) (hretries : ¬ l.retries < max_retries) :
    (loop_system t rt).step l .exhausted { l with pc := .returned } :=
  ⟨hpc, hretries, rfl⟩

/-- No loop is ever stuck: whatever the network and the handler answer, it
    goes on until it has returned or left the defined behaviour. -/
theorem loop_progress (x : Exchange) (res : invocation_response) :
    l.pc = .returned ∨ (∃ f, l.pc = .aborted f) ∨ ∃ e l', (loop_system t rt).step l e l' := by
  cases hpc : l.pc with
  | head =>
    right; right
    by_cases hretries : l.retries < max_retries
    · exact ⟨_, _, can_ask t rt hpc hretries x⟩
    · exact ⟨_, _, can_give_up t rt hpc hretries⟩
  | calling req =>
    right; right
    exact ⟨_, _, can_call t rt hpc res⟩
  | posting req res =>
    right; right
    exact ⟨_, _, can_post t rt hpc x⟩
  | returned =>
    left
    rfl
  | aborted f =>
    right; left
    exact ⟨f, rfl⟩

end

/-! ### Many threads -/

/-- A `run_handler` loop on every thread, each with the endpoint it found
    in its environment. -/
def fleet {ι : Type} [DecidableEq ι] (t : Target) (env : ι → Option Bytes) :
    System (ι → Loop) (ι × Event) :=
  System.interleave fun i => loop_system t (runtime.for_endpoint t (run_handler_endpoint (env i)))

/-- Any loop of a run can be the one that takes the next step. -/
theorem fleet_step {ι : Type} [DecidableEq ι] {t : Target} {env : ι → Option Bytes}
    {tr : List (ι × Event)} {st : ι → Loop} (h : (fleet t env).Run tr st) (i : ι) {e : Event}
    {l : Loop}
    (hstep : (loop_system t (runtime.for_endpoint t (run_handler_endpoint (env i)))).step (st i) e l) :
    (fleet t env).Run (tr ++ [(i, e)]) (Function.update st i l) :=
  System.Run.step h (System.interleave_step hstep)

/-- **Every invocation is answered once, with its own answer**, on every
    thread and in every interleaving; and while the network keeps to the
    protocol no loop leaves the defined behaviour. -/
theorem every_invocation_answered {ι : Type} [DecidableEq ι] (s d : Bool) (v : Bytes)
    (env : ι → Option Bytes) {tr : List (ι × Event)} {st : ι → Loop}
    (h : (fleet (Target.linux s d v) env).Run tr st) (i : ι) :
    Answered (run_handler_endpoint (env i)) (System.project i tr) (st i).pc ∧
      ((∀ e ∈ System.project i tr, e.WellFormed (Target.linux s d v)) →
        ∀ f, (st i).pc ≠ .aborted f) := by
  have hrun := System.Run.project h i
  constructor
  · exact loop_answered _ _ hrun
  · intro hwf f
    exact loop_not_aborted _ hrun hwf f

/-! ### Two runs -/

/-- An invocation with the request id `7`. -/
def seven_exchange : Exchange where
  callbacks := [.header (ascii "Lambda-Runtime-Aws-Request-Id: 7\r\n")]
  code := CURLE_OK
  response_code := 200
  content_type := some (ascii "application/json")
  now := Exchange.epoch

/-- An invocation whose request id has a NUL in it. -/
def nul_exchange : Exchange where
  callbacks := [.header (ascii "Lambda-Runtime-Aws-Request-Id: a" ++ 0 :: ascii "b\r\n")]
  code := CURLE_OK
  response_code := 200
  content_type := some (ascii "application/json")
  now := Exchange.epoch

/-- A request that does not get through. -/
def lost_exchange : Exchange where
  callbacks := []
  code := 7
  response_code := 0
  content_type := none
  now := Exchange.epoch

/-- Two threads take an invocation each; the first has answered its own
    while the second is still busy. -/
theorem every_invocation_answered_two :
    ∃ tr st, (fleet (Target.linux true false []) fun _ : Bool => none).Run tr st ∧
      tr.map Prod.fst = [true, false, true, true] ∧
      (st true).pc = .returned ∧ (st false).pc = .calling (request_of seven_exchange) ∧
      ∀ i, Answered (run_handler_endpoint none) (System.project i tr) (st i).pc ∧
        ∀ f, (st i).pc ≠ .aborted f := by
  let t := Target.linux true false []
  let rt := runtime.for_endpoint t (run_handler_endpoint none)
  let res := invocation_response.success (ascii "ok") (ascii "text/plain")
  have hresult : next_result t seven_exchange = .ok (.result (request_of seven_exchange)) := by
    decide +kernel
  have hlost : post_result t lost_exchange = .ok (.failure REQUEST_NOT_MADE) := by decide +kernel
  have hseven : LambdaCpp.WellFormed t seven_exchange :=
    .of_no_deadline (by decide) (by decide +kernel)
  have hlost' : LambdaCpp.WellFormed t lost_exchange := .of_no_deadline (by decide) (by decide +kernel)
  -- both threads ask, then the first calls its handler and posts
  have hrun₀ : (fleet t fun _ : Bool => none).Run [] fun _ => Loop.start :=
    System.Run.init fun _ => rfl
  have hask := can_ask t rt (l := Loop.start) rfl (by decide) seven_exchange
  obtain ⟨w₁, hnext, -⟩ := Loop.next_eq t rt seven_exchange Loop.start
  rw [hnext, hresult] at hask
  have hrun₁ := fleet_step hrun₀ true hask
  have hrun₂ := fleet_step hrun₁ false hask
  have hrun₃ := fleet_step hrun₂ true (can_call t rt (by rfl) res)
  let busy : Loop := ⟨.posting (request_of seven_exchange) res, 0, w₁⟩
  have hpost := can_post t rt (l := busy) rfl lost_exchange
  obtain ⟨w₂, heq, -⟩ := Loop.post_eq t rt (request_of seven_exchange) res lost_exchange busy
  rw [heq, hlost] at hpost
  have hrun₄ := fleet_step hrun₃ true hpost
  refine ⟨_, _, hrun₄, rfl, rfl, rfl, ?_⟩
  intro i
  have hanswered := every_invocation_answered true false [] (fun _ : Bool => none) hrun₄ i
  refine ⟨hanswered.1, hanswered.2 ?_⟩
  intro e he
  rw [System.mem_project] at he
  simp only [List.nil_append, List.cons_append, List.mem_cons, Prod.mk.injEq, List.not_mem_nil,
    or_false] at he
  rcases he with ⟨-, rfl⟩ | ⟨-, rfl⟩ | ⟨-, rfl⟩ | ⟨-, rfl⟩
  · exact hseven
  · exact hseven
  · exact trivial
  · exact hlost'

/-- With a NUL in the request id, libcurl gets less than the endpoint, the id
    and the suffix put together. -/
theorem answer_url_cut_at_nul :
    ∃ p q st, (fleet (Target.linux true false []) fun _ : Unit => none).Run
        [((), .next nul_exchange p (.ok (.result (request_of nul_exchange)))),
          ((), .call (request_of nul_exchange) (.success [] [])), ((), .post lost_exchange q)] st ∧
      LambdaCpp.WellFormed (Target.linux true false []) nul_exchange ∧
      q.options .URL ≠ .text (run_handler_endpoint none ++
        ascii "/2018-06-01/runtime/invocation/" ++ (request_of nul_exchange).request_id ++
        ascii "/response") := by
  let t := Target.linux true false []
  let rt := runtime.for_endpoint t (run_handler_endpoint none)
  have hresult : next_result t nul_exchange = .ok (.result (request_of nul_exchange)) := by
    decide +kernel
  have hrun₀ : (fleet t fun _ : Unit => none).Run [] fun _ => Loop.start :=
    System.Run.init fun _ => rfl
  have hask := can_ask t rt (l := Loop.start) rfl (by decide) nul_exchange
  obtain ⟨w₁, hnext, -⟩ := Loop.next_eq t rt nul_exchange Loop.start
  rw [hnext, hresult] at hask
  have hrun₁ := fleet_step hrun₀ () hask
  have hrun₂ := fleet_step hrun₁ () (can_call t rt (by rfl) (.success [] []))
  have hpost := can_post t rt
    (l := ⟨.posting (request_of nul_exchange) (.success [] []), 0, w₁⟩) rfl lost_exchange
  have hrun₃ := fleet_step hrun₂ () hpost
  refine ⟨_, _, _, hrun₃, .of_no_deadline (by decide) (by decide +kernel), ?_⟩
  show OptionValue.text _ ≠ _
  decide +kernel

end LambdaCpp
