import LambdaCpp.Runtime.Logs

/-! # What a Release Log Gives Away

    The payloads of the invocations, the answers of the handler and its
    memory pass through the runtime; a release build should not leave them
    in its log.

    `run_handler_outline` states that the course of a call is that of a
    small machine that sees two bits of each transfer.  With
    `errors_logged` it follows that two calls whose failures look alike have
    the same log: `release_log_private`.
-/

namespace LambdaCpp

open Bytes (ascii)

/-! ### The course of a call -/

/-- A `Pc` without the data it carries. -/
inductive Stage where
  | head | calling | posting | returned | aborted
  deriving DecidableEq, Repr

def Pc.stage : Pc → Stage
  | .head => .head
  | .calling _ => .calling
  | .posting _ _ => .posting
  | .returned => .returned
  | .aborted _ => .aborted

structure Outline where
  stage : Stage
  retries : Nat
  requests : Nat
  deriving DecidableEq, Repr

def Outline.start : Outline := ⟨.head, 0, 0⟩

/-- The machine: `brings` and `accepts` are what it sees of the transfers. -/
def Outline.step (brings accepts : Nat → Bool) (o : Outline) : Outline :=
  match o.stage with
  | .head =>
    if o.retries < max_retries then
      if brings o.requests then ⟨.calling, 0, o.requests + 1⟩
      else ⟨.head, o.retries + 1, o.requests + 1⟩
    else { o with stage := .returned }
  | .calling => { o with stage := .posting }
  | .posting =>
    if accepts o.requests then ⟨.head, o.retries, o.requests + 1⟩
    else ⟨.returned, o.retries, o.requests + 1⟩
  | .returned => o
  | .aborted => o

def Loop.outline (l : Loop) : Outline := ⟨l.pc.stage, l.retries, l.requests⟩

/-- The bits that the machine sees. -/
def outline_step (xs : Nat → Exchange) : Outline → Outline :=
  Outline.step (fun k => decide (BringsInvocation (xs k))) (fun k => decide (Accepts (xs k)))

section
variable {s d : Bool} {v : Bytes} {rt : runtime} {xs : Nat → Exchange} {σ : Type}
  (handler : σ → invocation_request → invocation_response × σ)

/-- Each step of the call is a step of the machine. -/
theorem run_handler_step_outline (hxs : ∀ k, WellFormed (Target.linux s d v) (xs k)) (r : Loop × σ) :
    (run_handler_step (Target.linux s d v) rt handler xs r).1.outline =
      outline_step xs r.1.outline := by
  obtain ⟨⟨pc, retries, w⟩, mem⟩ := r
  unfold run_handler_step outline_step Outline.step Loop.outline
  rcases pc with _ | req | ⟨req, res⟩ | _ | e
  · -- a GET, or the end of the loop
    by_cases hretries : retries < max_retries
    · simp only [Pc.stage, if_pos hretries]
      obtain ⟨w', hperforms, hnext⟩ := next_of_well_formed rt (hxs w.performs.length) ⟨.head, retries, w⟩
      have hrequests : w'.performs.length = w.performs.length + 1 := by
        rw [hperforms, List.length_append]
        rfl
      show Outline.mk (Loop.next (Target.linux s d v) rt (xs w.performs.length)
        ⟨.head, retries, w⟩).pc.stage _ _ = _
      unfold Loop.requests
      simp only
      rw [hnext]
      by_cases hb : BringsInvocation (xs w.performs.length)
      · simp [hb, hrequests, Pc.stage]
      · simp [hb, hrequests, Pc.stage]
    · simp only [Pc.stage, if_neg hretries]
      rfl
  · rfl
  · obtain ⟨w', hperforms, hpost⟩ := @post_of_any s d v rt (xs w.performs.length) req res
      ⟨.posting req res, retries, w⟩
    have hrequests : w'.performs.length = w.performs.length + 1 := by
      rw [hperforms, List.length_append]
      rfl
    simp only [Pc.stage]
    unfold Loop.requests
    simp only
    rw [hpost]
    by_cases ha : Accepts (xs w.performs.length)
    · simp [ha, hrequests]
    · simp [ha, hrequests]
  · rfl
  · rfl

/-- **The transfers decide the course of a call**, two bits of each. -/
theorem run_handler_outline (hxs : ∀ k, WellFormed (Target.linux s d v) (xs k))
    (env : Option Bytes) (mem : σ) (n : Nat) :
    (run_handler (Target.linux s d v) handler xs env mem n).1.outline =
      (outline_step xs)^[n] Outline.start := by
  have hsemi : Function.Semiconj (fun r : Loop × σ => r.1.outline)
      (run_handler_step (Target.linux s d v)
        (runtime.for_endpoint (Target.linux s d v) (run_handler_endpoint env)) handler xs)
      (outline_step xs) := fun r => run_handler_step_outline handler hxs r
  exact (hsemi.iterate_right n).eq (Loop.start, mem)

end

/-! ### Calls that look alike -/

/-- What a log of errors is about is the same in both supplies of transfers.
    Payloads, headers other than the id, content types and clocks may
    differ, and so may the bodies of the answers to accepted requests. -/
structure Alike (xs xs' : Nat → Exchange) : Prop where
  code : ∀ k, (xs k).code = (xs' k).code
  response_code : ∀ k, (xs k).code = CURLE_OK → (xs k).response_code = (xs' k).response_code
  brings : ∀ k, BringsInvocation (xs k) ↔ BringsInvocation (xs' k)
  /-- The id of an invocation whose answer cannot be sent. -/
  request_id : ∀ k, is_post xs (k + 1) = true → (xs (k + 1)).code ≠ CURLE_OK →
    (request_of (xs k)).request_id = (request_of (xs' k)).request_id
  /-- What the service says of an answer that it does not accept. -/
  body : ∀ k, is_post xs k = true → (xs k).code = CURLE_OK →
    is_success (xs k).response_code = false → (xs k).chunks.flatten = (xs' k).chunks.flatten

section
variable {xs xs' : Nat → Exchange}

theorem Alike.accepts (h : Alike xs xs') (k : Nat) : Accepts (xs k) ↔ Accepts (xs' k) := by
  unfold Accepts
  rw [← h.code k]
  by_cases hok : (xs k).code = CURLE_OK
  · rw [h.response_code k hok]
  · simp [hok]

theorem Alike.is_post (h : Alike xs xs') (k : Nat) : is_post xs k = is_post xs' k := by
  induction k with
  | zero => rfl
  | succ k ih =>
    unfold LambdaCpp.is_post
    rw [ih, decide_eq_decide.mpr (h.brings k)]

theorem Alike.failures (h : Alike xs xs') (k : Nat) : failures xs k = failures xs' k := by
  have hfailed : failed_get xs = failed_get xs' := by
    funext k
    unfold failed_get
    rw [h.is_post, decide_eq_decide.mpr (h.brings k)]
  have hsuccessful : successful_get xs = successful_get xs' := by
    funext k
    unfold successful_get
    rw [h.is_post, decide_eq_decide.mpr (h.brings k)]
  unfold LambdaCpp.failures
  rw [hfailed, hsuccessful]

theorem Alike.fails (h : Alike xs xs') (k : Nat) : Fails xs k ↔ Fails xs' k := by
  unfold Fails
  rw [h.is_post, h.accepts, h.brings]

/-- Requests that fail alike are reported alike. -/
theorem Alike.report (h : Alike xs xs') (rt : runtime) {k : Nat} (hfails : Fails xs k) :
    report rt xs k = report rt xs' k := by
  rcases hpost : LambdaCpp.is_post xs k with _ | _
  · -- the report of a GET is about its codes
    rw [report_get hpost, report_get ((h.is_post k).symm.trans hpost)]
    unfold get_report
    rw [← h.code k]
    by_cases hok : (xs k).code = CURLE_OK
    · rw [h.response_code k hok]
    · simp [hok]
  · rcases k with _ | k
    · cases hpost
    · rw [report_post hpost, report_post ((h.is_post (k + 1)).symm.trans hpost)]
      unfold post_report
      rw [← h.code (k + 1)]
      by_cases hok : (xs (k + 1)).code = CURLE_OK
      · -- an answer that was not accepted, so its body is one that may be seen
        have hrefused : is_success (xs (k + 1)).response_code = false := by
          rw [← Bool.not_eq_true, is_success_iff]
          intro hrange
          exact (fails_post hpost).mp hfails ⟨hok, hrange⟩
        rw [h.response_code (k + 1) hok, h.body (k + 1) hpost hok hrefused]
        simp [hok]
      · simp [hok, h.request_id k hpost hok]

theorem gaveUp_iff {l : Loop} :
    GaveUp xs l ↔ l.outline.stage = .returned ∧ LambdaCpp.failures xs l.outline.requests = max_retries := by
  obtain ⟨pc, retries, w⟩ := l
  unfold GaveUp Loop.outline
  rcases pc with _ | req | ⟨req, res⟩ | _ | e <;> simp [Pc.stage, Loop.requests]

/-- Calls that are equally far have the same errors. -/
theorem Alike.errors (h : Alike xs xs') (rt : runtime) (lib : Libcurl) {l l' : Loop}
    (houtline : l.outline = l'.outline) : errors rt lib xs l = errors rt lib xs' l' := by
  have hrequests : l.requests = l'.requests := congrArg Outline.requests houtline
  have hfilter : (fun k => decide (Fails xs k)) = fun k => decide (Fails xs' k) := by
    funext k
    rw [decide_eq_decide]
    exact h.fails k
  have hreports : ((List.range l.requests).filter fun k => decide (Fails xs k)).map
      (LambdaCpp.report rt xs) =
        ((List.range l.requests).filter fun k => decide (Fails xs k)).map
          (LambdaCpp.report rt xs') := by
    apply List.map_congr_left
    intro k hk
    exact h.report rt (of_decide_eq_true (List.mem_filter.mp hk).2)
  have hgave : GaveUp xs l ↔ GaveUp xs' l' := by
    rw [gaveUp_iff, gaveUp_iff, houtline, h.failures]
  unfold LambdaCpp.errors
  rw [hreports, hfilter, hrequests]
  by_cases hl : GaveUp xs l
  · rw [if_pos hl, if_pos (hgave.mp hl)]
  · rw [if_neg hl, if_neg (mt hgave.mpr hl)]

theorem Alike.outline_step (h : Alike xs xs') : outline_step xs = outline_step xs' := by
  have hbrings : (fun k => decide (BringsInvocation (xs k))) =
      fun k => decide (BringsInvocation (xs' k)) := by
    funext k
    rw [decide_eq_decide]
    exact h.brings k
  have haccepts : (fun k => decide (Accepts (xs k))) = fun k => decide (Accepts (xs' k)) := by
    funext k
    rw [decide_eq_decide]
    exact h.accepts k
  unfold LambdaCpp.outline_step
  rw [hbrings, haccepts]

end

/-- **A log of errors keeps the function's data to itself**: two calls, with
    any two handlers and any payloads, whose failures look alike have logged
    the same errors after every step, and print nothing else in a release
    build. -/
theorem release_log_private {σ σ' : Type} (s d : Bool) (v : Bytes) (lib : Libcurl)
    (env : Option Bytes) (handler : σ → invocation_request → invocation_response × σ) (mem : σ)
    (handler' : σ' → invocation_request → invocation_response × σ') (mem' : σ')
    {xs xs' : Nat → Exchange} (heard : ∀ k, Hearing (Target.linux s d v) (xs k))
    (heard' : ∀ k, Hearing (Target.linux s d v) (xs' k))
    (hxs : ∀ k, WellFormed (Target.linux s d v) (xs k))
    (hxs' : ∀ k, WellFormed (Target.linux s d v) (xs' k))
    (hcodes : ∀ k, 0 ≤ (xs k).response_code) (hcodes' : ∀ k, 0 ≤ (xs' k).response_code)
    (halike : Alike xs xs') (n : Nat) :
    ∃ reports,
      ErrorLog (run_handler_log (Target.linux s d v) lib handler xs heard env mem n) reports ∧
      ErrorLog (run_handler_log (Target.linux s d v) lib handler' xs' heard' env mem' n) reports := by
  have houtline : (run_handler (Target.linux s d v) handler xs env mem n).1.outline =
      (run_handler (Target.linux s d v) handler' xs' env mem' n).1.outline := by
    rw [run_handler_outline handler hxs, run_handler_outline handler' hxs', halike.outline_step]
  have hlog := @logged_errors_eq s d v lib xs σ handler mem hxs hcodes heard env n
  have hlog' := @logged_errors_eq s d v lib xs' σ' handler' mem' hxs' hcodes' heard' env n
  rw [← halike.errors _ lib houtline] at hlog'
  exact ⟨_, .of_logged hlog not_nul_errors, .of_logged hlog' not_nul_errors⟩

/-- An invocation that no answer can be sent to. -/
def unanswered (body : Bytes) : Nat → Exchange
  | 0 => { traced_exchange with callbacks := traced_exchange.callbacks ++ [.body body] }
  | _ + 1 => refused

/-- The body is in no line. -/
theorem unanswered_lines (body : Bytes) : (unanswered body 0).lines = traced_exchange.lines := rfl

theorem unanswered_well_formed (body : Bytes) (k : Nat) :
    WellFormed (Target.linux true true []) (unanswered body k) := by
  have hx := traced_exchange_sends.well_formed (Target.linux true true [])
  rcases k with _ | k
  · refine ⟨hx.content_type, ?_⟩
    rw [unanswered_lines]
    exact hx.deadline
  · have hcode : refused.code ≠ CURLE_OK := by decide
    exact .of_no_deadline (fun h => absurd h hcode) rfl

theorem unanswered_alike (body body' : Bytes) : Alike (unanswered body) (unanswered body') where
  code := by
    intro k
    rcases k with _ | k <;> rfl
  response_code := by
    intro k _
    rcases k with _ | k <;> rfl
  brings := by
    intro k
    rcases k with _ | k
    · unfold BringsInvocation
      rw [unanswered_lines, unanswered_lines]
      rfl
    · rfl
  request_id := by
    intro k _ _
    rcases k with _ | k
    · show field (headers_of (unanswered body 0).lines) REQUEST_ID_HEADER =
        field (headers_of (unanswered body' 0).lines) REQUEST_ID_HEADER
      rw [unanswered_lines, unanswered_lines]
    · rfl
  body := by
    intro k hpost _ _
    rcases k with _ | k
    · cases hpost
    · rfl

/-- Neither the payload nor what the handler makes of it can be told from
    the log. -/
theorem release_log_private_unanswered :
    ∃ reports,
      ErrorLog (run_handler_log (Target.linux true true []) some_libcurl
        (fun (u : Unit) req => (echo_success req, u)) (unanswered (ascii "3,4"))
        (fun _ => .of_lines _ _) none () 3) reports ∧
      ErrorLog (run_handler_log (Target.linux true true []) some_libcurl
        (fun (n : Nat) _ => (invocation_response.failure (Target.linux true true []) (ascii "secret")
          (ascii "E"), n + 1))
        (unanswered (ascii "secret")) (fun _ => .of_lines _ _) none 0 3) reports ∧
      reports = [ascii "Failed to send HTTP request for invocation 8476a536."] := by
  have hcodes : ∀ body k, 0 ≤ (unanswered body k).response_code := by
    intro body k
    have htraced : 0 ≤ traced_exchange.response_code := by decide
    have hrefused : 0 ≤ refused.response_code := by decide
    rcases k with _ | k
    · exact htraced
    · exact hrefused
  obtain ⟨reports, hlog, hlog'⟩ := release_log_private true true [] some_libcurl none
    (fun (u : Unit) req => (echo_success req, u)) ()
    (fun (n : Nat) _ => (invocation_response.failure (Target.linux true true []) (ascii "secret")
      (ascii "E"), n + 1)) 0 (fun _ => .of_lines _ _) (fun _ => .of_lines _ _)
    (unanswered_well_formed (ascii "3,4")) (unanswered_well_formed (ascii "secret")) (hcodes _)
    (hcodes _) (unanswered_alike _ _) 3
  refine ⟨reports, hlog, hlog', ?_⟩
  rw [← hlog.logged]
  decide +kernel

end LambdaCpp
