import LambdaCpp.Base.Simulation
import LambdaCpp.Runtime.Threads

/-! # Debug and Release Builds

    The runtime is built with assertions and curl's verbose output, or with
    `NDEBUG` and without them, for machines whose `char` is signed and for
    machines whose `char` is not.

    `Agrees` compares a computation of the one build with the same
    computation of the other: it is the same, unless an assertion stopped
    the first.  The code of the runtime keeps the relation from statement to
    statement, and `builds_agree` carries it to any number of loops in any
    interleaving.
-/

namespace LambdaCpp

/-! ### Computations -/

/-- Where an assertion does not stop `a`, `b` is the same. -/
def Agrees {α : Type} (a b : Checked α) : Prop := a = .error .assertion ∨ a = b

namespace Agrees
variable {α β : Type}

theorem refl (a : Checked α) : Agrees a a := Or.inr rfl

theorem of_eq {a b : Checked α} (h : a = b) : Agrees a b := Or.inr h

theorem bind {a b : Checked α} {f g : α → Checked β} (h : Agrees a b)
    (hf : ∀ x, Agrees (f x) (g x)) : Agrees (a >>= f) (b >>= g) := by
  rcases h with rfl | rfl
  · left
    rfl
  · cases a with
    | error e => exact refl _
    | ok x => exact hf x

theorem ite {a b a' b' : Checked α} {p : Prop} [Decidable p] (h : Agrees a b)
    (h' : Agrees a' b') : Agrees (if p then a else a') (if p then b else b') := by
  by_cases hp : p
  · rw [if_pos hp, if_pos hp]
    exact h
  · rw [if_neg hp, if_neg hp]
    exact h'

end Agrees

/-- `t'` has no more assertions than `t`. -/
def FewerAssertions (t t' : Target) : Prop := t.ndebug = true → t'.ndebug = true

/-! ### The code, statement by statement -/

section
variable {t t' : Target} (h : FewerAssertions t t')
include h

theorem assert_agrees (condition : Bool) : Agrees (t.assert condition) (t'.assert condition) := by
  cases condition with
  | true =>
    rw [Target.assert_true, Target.assert_true]
    exact Agrees.refl _
  | false =>
    by_cases hd : t.ndebug = true
    · -- neither build looks at the condition
      right
      simp [Target.assert, hd, h hd]
    · left
      simp [Target.assert, hd]

theorem get_result_agrees {α β : Type} (o : outcome α β) :
    Agrees (o.get_result t) (o.get_result t') :=
  (assert_agrees h _).bind fun _ => Agrees.refl _

theorem assign_agrees (out : outcome Bytes Bool) (req : invocation_request)
    (set : invocation_request → Bytes → invocation_request) :
    Agrees (assign_if_success t out req set) (assign_if_success t' out req set) := by
  unfold assign_if_success
  apply Agrees.ite
  · exact (get_result_agrees h out).bind fun _ => Agrees.refl _
  · exact Agrees.refl _

theorem read_fields_agrees (resp : response) (req : invocation_request) :
    Agrees (read_fields t resp req) (read_fields t' resp req) := by
  unfold read_fields
  apply (assign_agrees h _ _ _).bind; intro req
  apply (assign_agrees h _ _ _).bind; intro req
  apply (assign_agrees h _ _ _).bind; intro req
  apply (assign_agrees h _ _ _).bind; intro req
  apply (assign_agrees h _ _ _).bind; intro req
  exact assign_agrees h _ _ _

theorem read_deadline_agrees (now : Int) (text : Bytes) (req : invocation_request) :
    Agrees (read_deadline t now text req) (read_deadline t' now text req) := by
  unfold read_deadline
  apply (assert_agrees h _).bind; intro _
  apply (assert_agrees h _).bind; intro _
  exact Agrees.refl _

theorem read_next_agrees (x : Exchange) (resp : response) :
    Agrees (read_next t x resp) (read_next t' x resp) := by
  unfold read_next
  apply (Agrees.refl _).bind; intro resp
  apply (Agrees.refl _).bind; intro code
  apply Agrees.ite
  · exact Agrees.refl _
  apply Agrees.ite
  · exact Agrees.refl _
  apply (get_result_agrees h _).bind; intro request_id
  apply (read_fields_agrees h _ _).bind; intro req
  apply Agrees.ite
  · apply (get_result_agrees h _).bind; intro text
    exact (read_deadline_agrees h _ _ _).bind fun _ => Agrees.refl _
  · exact Agrees.refl _

end

/-! ### Two builds for Linux -/

section
variable {s s' d d' : Bool} {v : Bytes}

/-- The callbacks of a transfer do not depend on the build. -/
theorem receive_builds (x : Exchange) (resp : response) :
    receive (Target.linux s d v) x.callbacks resp =
      receive (Target.linux s' d' v) x.callbacks resp := by
  have hlines : ∀ s d, x.lines.all (lowerable_line (Target.linux s d v)) = true := by simp
  rw [receive_eq, receive_eq, if_pos (hlines s d), if_pos (hlines s' d')]

theorem next_result_agrees (h : d = true → d' = true) (x : Exchange) :
    Agrees (next_result (Target.linux s d v) x) (next_result (Target.linux s' d' v) x) := by
  have hfewer : FewerAssertions (Target.linux s d v) (Target.linux s' d' v) := h
  unfold next_result
  apply (Agrees.of_eq (receive_builds x _)).bind
  intro resp
  apply Agrees.ite
  · exact Agrees.refl _
  · exact read_next_agrees hfewer x resp

end

/-! ### Requests -/

/-- The same request, but for what curl logs about it. -/
structure SameRequest (p p' : Perform) : Prop where
  options : ∀ o, o ≠ .VERBOSE → o ≠ .DEBUGFUNCTION → p.options o = p'.options o
  heap : p.heap = p'.heap

section
variable (t t' : Target) (rt : runtime)

theorem next_same_request (h : Heap) :
    SameRequest (next_perform t rt h) (next_perform t' rt h) where
  options := by
    intro o hverbose hdebug
    cases o with
    | VERBOSE => exact absurd rfl hverbose
    | DEBUGFUNCTION => exact absurd rfl hdebug
    | _ => rfl
  heap := rfl

theorem post_same_request (p : Post) (h : Heap) :
    SameRequest (post_perform t rt p h) (post_perform t' rt p h) where
  options := by
    intro o hverbose hdebug
    cases o with
    | VERBOSE => exact absurd rfl hverbose
    | DEBUGFUNCTION => exact absurd rfl hdebug
    | _ => rfl
  heap := rfl

end

/-- The same event, as both builds would show it. -/
inductive SameEvent : Event → Event → Prop where
  | next {x p p' out out'} : SameRequest p p' → Agrees out out' →
      SameEvent (.next x p out) (.next x p' out')
  | call {req res} : SameEvent (.call req res) (.call req res)
  | post {x p p'} : SameRequest p p' → SameEvent (.post x p) (.post x p')
  | exhausted : SameEvent .exhausted .exhausted

/-! ### Loops -/

/-- Two loops that stand at the same place, have made the same requests and
    will make the same ones. -/
structure Twins (l l' : Loop) : Prop where
  pc : l.pc = l'.pc
  retries : l.retries = l'.retries
  requests : List.Forall₂ SameRequest l.thread.performs l'.thread.performs
  idle : (∀ f, l.pc ≠ .aborted f) →
    ∃ n, l.thread.heap = Heap.empty n ∧ l'.thread.heap = Heap.empty n

theorem Twins.start : Twins Loop.start Loop.start where
  pc := rfl
  retries := rfl
  requests := List.Forall₂.nil
  idle := fun _ => ⟨0, rfl, rfl⟩

/-- The loops of the two builds: twins, or an assertion stopped the first. -/
def Paired (l l' : Loop) : Prop := l.pc = .aborted .assertion ∨ Twins l l'

section
variable {s s' d d' : Bool} {v : Bytes} {rt : runtime} {l l' : Loop}

/-- `get_next` in both builds. -/
theorem Twins.next (h : Twins l l') (hd : d = true → d' = true) (hpc : l.pc = .head)
    (x : Exchange) :
    Paired (l.next (Target.linux s d v) rt x) (l'.next (Target.linux s' d' v) rt x) := by
  obtain ⟨n, hn, hn'⟩ := h.idle (by simp [hpc])
  obtain ⟨w, heq, -, hp⟩ := Loop.next_eq (Target.linux s d v) rt x l
  obtain ⟨w', heq', -, hp'⟩ := Loop.next_eq (Target.linux s' d' v) rt x l'
  have hagrees : Agrees (next_result (Target.linux s d v) x) (next_result (Target.linux s' d' v) x) :=
    next_result_agrees hd x
  rcases hagrees with hassert | hsame
  · left
    rw [heq, hassert]
    rfl
  · right
    have hrequests : List.Forall₂ SameRequest w.performs w'.performs := by
      rw [hp, hp', hn, hn']
      exact List.rel_append h.requests (List.Forall₂.cons (next_same_request _ _ rt _) .nil)
    have hheap : ∀ out, next_result (Target.linux s d v) x = .ok out →
        w.heap = Heap.empty (n + 2) ∧ w'.heap = Heap.empty (n + 2) := by
      intro out hout
      have hleft := Loop.next_heap (Target.linux s d v) rt x hout hn
      have hright := Loop.next_heap (Target.linux s' d' v) rt x (hsame ▸ hout) hn'
      rw [heq, hout] at hleft
      rw [heq', ← hsame, hout] at hright
      cases out <;> exact ⟨hleft, hright⟩
    rw [heq, heq', ← hsame]
    cases hout : next_result (Target.linux s d v) x with
    | error e => exact ⟨rfl, h.retries, hrequests, fun hnot => absurd rfl (hnot e)⟩
    | ok out =>
      have hempty := hheap out hout
      cases out with
      | failure c => exact ⟨rfl, congrArg (· + 1) h.retries, hrequests, fun _ => ⟨_, hempty⟩⟩
      | result req => exact ⟨rfl, rfl, hrequests, fun _ => ⟨_, hempty⟩⟩

/-- A POST in both builds. -/
theorem Twins.post (h : Twins l l') {req : invocation_request} {res : invocation_response}
    (hpc : l.pc = .posting req res) (x : Exchange) :
    Twins (l.post (Target.linux s d v) rt req res x)
      (l'.post (Target.linux s' d' v) rt req res x) := by
  obtain ⟨n, hn, hn'⟩ := h.idle (by simp [hpc])
  obtain ⟨w, heq, hp⟩ := Loop.post_eq (Target.linux s d v) rt req res x l
  obtain ⟨w', heq', hp'⟩ := Loop.post_eq (Target.linux s' d' v) rt req res x l'
  have hrequests : List.Forall₂ SameRequest w.performs w'.performs := by
    rw [hp, hp', hn, hn']
    exact List.rel_append h.requests (List.Forall₂.cons (post_same_request _ _ rt _ _) .nil)
  have hleft := Loop.post_heap (Target.linux s d v) rt req res x post_result_linux hn
  have hright := Loop.post_heap (Target.linux s' d' v) rt req res x post_result_linux hn'
  rw [heq, post_result_linux] at hleft ⊢
  rw [heq', post_result_linux] at hright ⊢
  generalize post_of_response x x.code = out at hleft hright
  cases out with
  | failure c => exact ⟨rfl, h.retries, hrequests, fun _ => ⟨_, hleft, hright⟩⟩
  | result r => exact ⟨rfl, h.retries, hrequests, fun _ => ⟨_, hleft, hright⟩⟩

/-- **One loop**: whatever the build with more assertions does, the other
    does too. -/
theorem loop_simulates (s s' : Bool) (hd : d = true → d' = true) (v : Bytes) (rt : runtime) :
    System.Simulates (loop_system (Target.linux s d v) rt) (loop_system (Target.linux s' d' v) rt)
      SameEvent Paired where
  init := by
    intro l hl
    rw [show l = Loop.start from hl]
    exact ⟨Loop.start, rfl, Or.inr Twins.start⟩
  step := by
    intro l l' e m hpaired hstep
    -- a loop that an assertion stopped takes no step
    have hrunning : ∀ pc, l.pc = pc → pc ≠ .aborted .assertion → Twins l l' := by
      intro pc hpc hnot
      rcases hpaired with hstopped | htwins
      · exact absurd (hpc.symm.trans hstopped) hnot
      · exact htwins
    cases e with
    | next x perform out =>
      obtain ⟨hpc, hretries, rfl, hout, hperforms⟩ := hstep
      have htwins := hrunning _ hpc Pc.noConfusion
      obtain ⟨w, hrun, -, -⟩ := get_next_eq (Target.linux s d v) rt x l.thread
      have hstep' := can_ask (Target.linux s' d' v) rt (htwins.pc ▸ hpc)
        (htwins.retries ▸ hretries) x
      refine ⟨_, _, ?_, hstep', htwins.next hd hpc x⟩
      obtain ⟨n, hn, hn'⟩ := htwins.idle (by simp [hpc])
      have hperform : perform = next_perform (Target.linux s d v) rt l.thread.heap := by
        rw [Loop.next_performs] at hperforms
        simpa using (List.append_cancel_left hperforms).symm
      rw [hperform, hout, hrun, hn, hn']
      exact SameEvent.next (next_same_request _ _ rt _) (next_result_agrees hd x)
    | call req res =>
      obtain ⟨hpc, rfl⟩ := hstep
      have htwins := hrunning _ hpc Pc.noConfusion
      refine ⟨_, _, SameEvent.call, can_call _ rt (htwins.pc ▸ hpc) res, ?_⟩
      right
      exact ⟨rfl, htwins.retries, htwins.requests, fun _ => htwins.idle (by simp [hpc])⟩
    | post x perform =>
      obtain ⟨req, res, hpc, rfl, hperforms⟩ := hstep
      have htwins := hrunning _ hpc Pc.noConfusion
      have hstep' := can_post (Target.linux s' d' v) rt (htwins.pc ▸ hpc) x
      refine ⟨_, _, ?_, hstep', Or.inr (htwins.post hpc x)⟩
      obtain ⟨n, hn, hn'⟩ := htwins.idle (by simp [hpc])
      have hperform : perform =
          post_perform (Target.linux s d v) rt (answer rt req res) l.thread.heap := by
        rw [Loop.post_performs] at hperforms
        simpa using (List.append_cancel_left hperforms).symm
      rw [hperform, hn, hn']
      exact SameEvent.post (post_same_request _ _ rt _ _)
    | exhausted =>
      obtain ⟨hpc, hretries, rfl⟩ := hstep
      have htwins := hrunning _ hpc Pc.noConfusion
      refine ⟨_, _, SameEvent.exhausted,
        can_give_up _ rt (htwins.pc ▸ hpc) (htwins.retries ▸ hretries), ?_⟩
      right
      exact ⟨rfl, htwins.retries, htwins.requests, fun _ => htwins.idle (by simp [hpc])⟩

end

/-! ### Which assertion -/

theorem strtoul_le (text : Bytes) : strtoul text ≤ ULONG_MAX := by
  have hmod : ∀ n, (2 ^ 64 - n) % 2 ^ 64 ≤ ULONG_MAX := by
    intro n
    unfold ULONG_MAX
    omega
  unfold strtoul
  generalize take_sign ((Bytes.c_str text).dropWhile Bytes.isSpace) = signed
  simp only
  split
  · exact Nat.le_refl _
  · split
    · exact hmod _
    · omega

/-- The deadline header reads as a value at one end of `unsigned long`:
    what `strtoul` also returns for a text that is no number, or one that is
    too large. -/
def DeadlineAtLimit (x : Exchange) : Prop :=
  ∃ text, lookup DEADLINE_MS_HEADER (headers_of x.lines) = some text ∧
    (strtoul text = 0 ∨ strtoul text = ULONG_MAX)

/-- Some step of a computation is the one that an assertion stopped. -/
theorem bind_assertion {α β : Type} {x : Checked α} {f : α → Checked β}
    (h : (x >>= f) = .error .assertion) :
    x = .error .assertion ∨ ∃ a, f a = .error .assertion := by
  cases x with
  | error e =>
    left
    rw [Checked.error_bind] at h
    rw [Except.error.inj h]
  | ok a =>
    right
    exact ⟨a, h⟩

theorem assert_failed {t : Target} {condition : Bool}
    (h : t.assert condition = .error .assertion) : condition = false := by
  cases condition with
  | true =>
    rw [Target.assert_true] at h
    cases h
  | false => rfl

theorem int64_not_assertion (n : Int) : int64 n ≠ .error .assertion := by
  unfold int64
  split <;> simp

theorem read_deadline_assertion {t : Target} {now : Int} {text : Bytes} {req : invocation_request}
    (h : read_deadline t now text req = .error .assertion) :
    strtoul text = 0 ∨ strtoul text = ULONG_MAX := by
  unfold read_deadline at h
  rcases bind_assertion h with hassert | ⟨_, h⟩
  · have hnot := of_decide_eq_false (assert_failed hassert)
    omega
  rcases bind_assertion h with hassert | ⟨_, h⟩
  · have hnot := of_decide_eq_false (assert_failed hassert)
    have hle := strtoul_le text
    omega
  -- what is left are signed computations
  rcases bind_assertion h with hsum | ⟨deadline, h⟩
  · rcases bind_assertion hsum with hns | ⟨ns, hns⟩
    · exact absurd hns (int64_not_assertion _)
    · exact absurd hns (int64_not_assertion _)
  rcases bind_assertion h with hremaining | ⟨_, h⟩
  · rcases bind_assertion hremaining with hns | ⟨_, hns⟩
    · exact absurd hns (int64_not_assertion _)
    · cases hns
  · cases h

/-- On Linux no other assertion of `get_next` can fail. -/
theorem next_result_assertion {s d : Bool} {v : Bytes} {x : Exchange}
    (h : next_result (Target.linux s d v) x = .error .assertion) : DeadlineAtLimit x := by
  have hlines : x.lines.all (lowerable_line (Target.linux s d v)) = true := by simp
  unfold next_result at h
  rw [receive_eq, if_pos hlines, Checked.ok_bind] at h
  have hheaders : response.default_init.m_headers ++ headers_of x.lines = headers_of x.lines :=
    List.nil_append _
  have hbody : response.default_init.m_body ++ x.chunks.flatten = x.chunks.flatten :=
    List.nil_append _
  rw [hheaders, hbody] at h
  by_cases hcode : x.code = CURLE_OK
  · rw [if_neg (not_not.mpr hcode)] at h
    cases hct : x.content_type with
    | none =>
      simp [read_next, hct, response.set_content_type] at h
    | some ct =>
      by_cases hinv : has_invocation x = true
      · have hparts := hinv
        simp only [has_invocation, Bool.and_eq_true] at hparts
        rw [read_next_success _ x rfl rfl hct hparts.1.2 hparts.2] at h
        cases htext : lookup DEADLINE_MS_HEADER (headers_of x.lines) with
        | none =>
          rw [htext] at h
          cases h
        | some text =>
          simp only [htext] at h
          refine ⟨text, htext, ?_⟩
          rcases bind_assertion h with hread | ⟨req, h⟩
          · exact read_deadline_assertion hread
          · cases h
      · rw [read_next_failure _ x rfl hct hcode (by simpa using hinv)] at h
        cases h
  · rw [if_pos hcode] at h
    cases h

/-- A loop that an assertion stopped had just read such a deadline. -/
theorem loop_stopped {s d : Bool} {v : Bytes} {rt : runtime} {tr : List Event} {l : Loop}
    (h : (loop_system (Target.linux s d v) rt).Run tr l) (hpc : l.pc = .aborted .assertion) :
    ∃ pre x p, tr = pre ++ [.next x p (.error .assertion)] ∧ DeadlineAtLimit x := by
  cases h with
  | init hl =>
    rw [show l = Loop.start from hl] at hpc
    cases hpc
  | @step tr l₀ e _ _ hstep =>
    cases e with
    | next x perform out =>
      obtain ⟨-, -, rfl, rfl, -⟩ := hstep
      obtain ⟨w, heq, hresult, -⟩ := Loop.next_eq (Target.linux s d v) rt x l₀
      rw [heq] at hpc
      have hassert : next_result (Target.linux s d v) x = .error .assertion := by
        unfold after_next at hpc
        split at hpc
        · next e he =>
          obtain rfl : e = .assertion := Pc.aborted.inj hpc
          exact he
        · cases hpc
        · cases hpc
      rw [hresult, hassert]
      exact ⟨tr, x, perform, rfl, next_result_assertion hassert⟩
    | call req res =>
      obtain ⟨-, rfl⟩ := hstep
      cases hpc
    | post x perform =>
      obtain ⟨req, res, -, rfl, -⟩ := hstep
      obtain ⟨w, heq, -⟩ := Loop.post_eq (Target.linux s d v) rt req res x l₀
      rw [heq, post_result_linux] at hpc
      generalize post_of_response x x.code = out at hpc
      cases out <;> cases hpc
    | exhausted =>
      obtain ⟨-, -, rfl⟩ := hstep
      cases hpc

/-! ### Programs -/

/-- **Builds agree**: to every run of any number of loops in the one build
    there is a run of the other, on any Linux machine, with no more
    assertions than the first.  The events are the same, but for curl's
    verbose output, and each loop ends up where its twin does, unless the
    first has just been stopped by an assertion, on a deadline at the end of
    its type. -/
theorem builds_agree {ι : Type} [DecidableEq ι] (s s' d d' : Bool) (hd : d = true → d' = true)
    (v : Bytes) (env : ι → Option Bytes) {tr : List (ι × Event)} {st : ι → Loop}
    (hrun : (fleet (Target.linux s d v) env).Run tr st) :
    ∃ tr' st', (fleet (Target.linux s' d' v) env).Run tr' st' ∧
      List.Forall₂ (fun e e' => e.1 = e'.1 ∧ SameEvent e.2 e'.2) tr tr' ∧
      ∀ i, Twins (st i) (st' i) ∨ (st i).pc = .aborted .assertion ∧
        ∃ pre x p, System.project i tr = pre ++ [.next x p (.error .assertion)] ∧
          DeadlineAtLimit x := by
  have hloops := fun i => loop_simulates s s' hd v
    (runtime.for_endpoint (Target.linux s d v) (run_handler_endpoint (env i)))
  obtain ⟨tr', st', hrun', htr, hpaired⟩ := (System.Simulates.interleave hloops).run hrun
  refine ⟨tr', st', hrun', htr, ?_⟩
  intro i
  rcases hpaired i with hstopped | htwins
  · right
    exact ⟨hstopped, loop_stopped (hrun.project i) hstopped⟩
  · left
    exact htwins

/-- A debug build on x86-64 that has taken an invocation, and a release build
    on AArch64 that has taken the same one. -/
theorem builds_agree_seven :
    ∃ tr st, (fleet (Target.linux true false []) fun _ : Unit => none).Run tr st ∧
      ∃ tr' st', (fleet (Target.linux false true []) fun _ : Unit => none).Run tr' st' ∧
        List.Forall₂ (fun e e' => e.1 = e'.1 ∧ SameEvent e.2 e'.2) tr tr' ∧
        (st' ()).pc = .calling (request_of seven_exchange) := by
  let t := Target.linux true false []
  let rt := runtime.for_endpoint t (run_handler_endpoint none)
  have hresult : next_result t seven_exchange = .ok (.result (request_of seven_exchange)) := by
    decide +kernel
  have hrun₀ : (fleet t fun _ : Unit => none).Run [] fun _ => Loop.start :=
    System.Run.init fun _ => rfl
  have hask := can_ask t rt (l := Loop.start) rfl (by decide) seven_exchange
  obtain ⟨w, hnext, -⟩ := Loop.next_eq t rt seven_exchange Loop.start
  rw [hnext, hresult] at hask
  have hrun₁ := fleet_step hrun₀ () hask
  obtain ⟨tr', st', hrun', htr, hloops⟩ :=
    builds_agree true false false true (by decide) [] (fun _ : Unit => none) hrun₁
  refine ⟨_, _, hrun₁, tr', st', hrun', htr, ?_⟩
  rcases hloops () with htwins | ⟨hstopped, -⟩
  · rw [← htwins.pc]
    rfl
  · cases hstopped

end LambdaCpp
