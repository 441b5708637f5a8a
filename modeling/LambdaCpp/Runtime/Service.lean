import LambdaCpp.Runtime.EndToEnd

/-! # The Loops and the Service

    The other side of the requests: a service that gives out invocations,
    each under an id of its own and to one loop, and takes what is posted.
    Between the two the network may lose a request, or the response to one.

    `service_consistent` states what the service can rely on, in any
    interleaving of any number of loops: what it gets is the answer of the
    loop that has the invocation, whole and once.
-/

namespace LambdaCpp

open Bytes (ascii)

/-! ### The service -/

/-- An invocation that was given out, and whether the response with it
    arrived. -/
structure Handout (ι : Type) where
  recipient : ι
  inv : Invocation
  arrived : Bool

/-- A request that came through in full. -/
structure Receipt where
  url : Bytes
  body : Bytes
  deriving DecidableEq, Repr

structure Service (ι : Type) where
  handouts : List (Handout ι)
  receipts : List Receipt

/-- The request announces a body of `n` bytes. -/
def Announces (p : Perform) (n : Nat) : Prop :=
  ∃ a entries, p.options .HTTPHEADER = .pointer a ∧ p.heap.slists a = some entries ∧
    entries.filter (names (ascii "content-length")) = [ascii "content-length: " ++ Bytes.decimal n]

/-- With the transfer `x` the whole request came through: libcurl got as many
    bytes for the body as are announced.

    This is read off what libcurl is handed, not off what it sends.  The two
    agree where the handler's strings have no line breaks, with which a
    content type could bring in header lines of its own. -/
structure Receives (p : Perform) (x : Exchange) (r : Receipt) : Prop where
  url : p.options .URL = .text r.url
  body : p.uploaded x = .ok r.body
  announced : Announces p r.body.length

section
variable {ι : Type}

def Service.ids (s : Service ι) : List Bytes := s.handouts.map fun h => h.inv.request_id.text

def Service.give (s : Service ι) (h : Handout ι) : Service ι :=
  { s with handouts := s.handouts ++ [h] }

def Service.take (s : Service ι) (r : Receipt) : Service ι :=
  { s with receipts := s.receipts ++ [r] }

/-- What an event of the loop `i` can be for the service. -/
inductive Service.Sees (s : Service ι) (i : ι) : Event → Service ι → Prop where
  /-- Nothing is given out, whatever comes back. -/
  | no_invocation {x p out} : ¬ BringsInvocation x → s.Sees i (.next x p out) s
  | invocation {x p out inv} : inv.request_id.text ∉ s.ids → Sends inv x →
      s.Sees i (.next x p out) (s.give ⟨i, inv, true⟩)
  /-- The response is lost on its way. -/
  | lost_invocation {x p out inv} : inv.request_id.text ∉ s.ids → ¬ BringsInvocation x →
      s.Sees i (.next x p out) (s.give ⟨i, inv, false⟩)
  /-- A request comes through, whatever comes back. -/
  | answer {x p r} : Receives p x r → s.Sees i (.post x p) (s.take r)
  | lost_answer {x p} : ¬ Accepts x → s.Sees i (.post x p) s
  | call {req res} : s.Sees i (.call req res) s
  | exhausted : s.Sees i .exhausted s

/-- **The loops and the service together.** -/
def service_system [DecidableEq ι] (t : Target) (env : ι → Option Bytes) :
    System ((ι → Loop) × Service ι) (ι × Event) where
  init := fun s => (fleet t env).init s.1 ∧ s.2 = ⟨[], []⟩
  step := fun s l s' =>
    (fleet t env).step s.1 l s'.1 ∧ l.2.WellFormed t ∧ s.2.Sees l.1 l.2 s'.2

end

/-! ### What comes through -/

theorem decimal_injective {m n : Nat} (h : Bytes.decimal m = Bytes.decimal n) : m = n := by
  have hval := congrArg Bytes.decimalVal h
  rwa [Bytes.decimalVal_decimal, Bytes.decimalVal_decimal] at hval

/-- Only the last entry gives the length of the content. -/
theorem filter_content_length (endpoint user_agent : Bytes) (p : Post) :
    ((p.entries (runtime.with_user_agent endpoint user_agent)).map Bytes.c_str).filter
        (names (ascii "content-length")) =
      [ascii "content-length: " ++ Bytes.decimal p.payload.length] := by
  have hother : ∀ n ∈ [ascii "content-type", ascii "lambda-runtime-function-xray-error-cause",
      ascii "Expect", ascii "transfer-encoding", ascii "User-Agent", INVOCATION_ID_HEADER],
        n.map Bytes.lower ≠ ascii "content-length" := by decide +kernel
  have hself : (ascii "content-length").map Bytes.lower = ascii "content-length" := by decide
  have hfilter : (p.named_entries user_agent).filter
      (names (ascii "content-length") ∘ fun e => Bytes.c_str e.text) =
      (p.named_entries user_agent).filter
        (fun e => decide (e.name.map Bytes.lower = ascii "content-length")) := by
    apply List.filter_congr
    intro e he
    exact names_entry (named_entries_plain user_agent p e he) _
  have hlast : (p.named_entries user_agent).filter
      (fun e => decide (e.name.map Bytes.lower = ascii "content-length")) =
        [⟨ascii "content-length", ascii " " ++ Bytes.decimal p.payload.length⟩] := by
    unfold Post.named_entries
    by_cases hid : p.invocation_id = []
    · simp [hid, hother, hself]
    · simp [hid, hother, hself]
  have hcomp : Bytes.c_str ∘ Entry.text = fun e => Bytes.c_str e.text := rfl
  rw [entries_eq, List.map_map, hcomp, List.filter_map, hfilter, hlast, List.map_singleton]
  -- a numeral has no NUL
  have hnul : (0 : UInt8) ∉ ascii "content-length: " ++ Bytes.decimal p.payload.length := by
    rw [List.mem_append, not_or]
    refine ⟨by decide, ?_⟩
    intro hmem
    cases Bytes.isDigit_decimal _ 0 hmem
  exact congrArg (fun s => [s]) (Bytes.c_str_of_not_mem hnul)

/-- A POST announces the length of its payload. -/
theorem announces_post {t : Target} {endpoint user_agent : Bytes} {p : Post} {h : Heap} {n : Nat}
    (hannounces : Announces (post_perform t (runtime.with_user_agent endpoint user_agent) p h) n) :
    n = p.payload.length := by
  obtain ⟨a, entries, ha, hentries, hlength⟩ := hannounces
  obtain rfl := OptionValue.pointer.inj ha
  have hslist : Function.update h.slists h.fresh (some
      ((p.entries (runtime.with_user_agent endpoint user_agent)).map Bytes.c_str)) h.fresh =
        some entries := hentries
  rw [Function.update_self] at hslist
  obtain rfl := Option.some.inj hslist
  rw [filter_content_length, List.singleton_inj] at hlength
  exact (decimal_injective (List.append_cancel_left hlength)).symm

/-- An answer of a loop to an invocation it was given. -/
structure Answer (ι : Type) where
  sender : ι
  inv : Invocation
  res : invocation_response

/-- What the service gets of it. -/
def Answer.receipt {ι : Type} (env : ι → Option Bytes) (q : Answer ι) : Receipt where
  url := run_handler_endpoint (env q.sender) ++ ascii "/2018-06-01/runtime/invocation/" ++
    q.inv.request_id.text ++ if q.res.is_success then ascii "/response" else ascii "/error"
  body := q.res.get_payload

/-- **What comes through is the whole answer.** -/
theorem receives_answer_iff {ι : Type} {t : Target} {env : ι → Option Bytes} {user_agent : Bytes}
    {q : Answer ι} {x : Exchange} {h : Heap} {r : Receipt} :
    Receives (post_perform t
      (runtime.with_user_agent (run_handler_endpoint (env q.sender)) user_agent)
      (answer (runtime.with_user_agent (run_handler_endpoint (env q.sender)) user_agent)
        q.inv.request q.res) h) x r ↔
      q.res.get_payload.length ≤ x.asked ∧ r = q.receipt env := by
  obtain ⟨-, hurl, hbody⟩ := delivered_answer t (env q.sender) user_agent q.inv q.res x h
  have hpayload : (answer (runtime.with_user_agent (run_handler_endpoint (env q.sender)) user_agent)
      q.inv.request q.res).payload = q.res.get_payload := rfl
  constructor
  · intro hreceives
    have hannounced := announces_post hreceives.announced
    have htaken : r.body = q.res.get_payload.take x.asked :=
      Except.ok.inj (hreceives.body.symm.trans hbody)
    -- nothing is missing, since the length is right
    have hasked : q.res.get_payload.length ≤ x.asked := by
      rw [hpayload, htaken, List.length_take] at hannounced
      omega
    rw [List.take_of_length_le hasked] at htaken
    refine ⟨hasked, ?_⟩
    obtain ⟨url, body⟩ := r
    obtain rfl : body = _ := htaken
    obtain rfl := OptionValue.text.inj (hreceives.url.symm.trans hurl)
    rfl
  · rintro ⟨hasked, rfl⟩
    refine ⟨hurl, ?_, ?_⟩
    · rw [hbody, List.take_of_length_le hasked]
      rfl
    · exact ⟨h.fresh, _, rfl, Function.update_self .., filter_content_length _ _ _⟩

/-! ### The invariant -/

/-- The loop is at work on the request. -/
def Busy (pc : Pc) (req : invocation_request) : Prop :=
  pc = .calling req ∨ ∃ res, pc = .posting req res

section
variable {ι : Type}

def Answer.id (q : Answer ι) : Bytes := q.inv.request_id.text

/-- `sent` are the answers that came through so far. -/
structure Consistent (env : ι → Option Bytes) (tr : List (ι × Event)) (st : ι → Loop)
    (s : Service ι) (sent : List (Answer ι)) : Prop where
  ids : s.ids.Nodup
  receipts : s.receipts = sent.map (Answer.receipt env)
  /-- No invocation is answered twice. -/
  once : (sent.map Answer.id).Nodup
  /-- An answer comes from the loop that has the invocation, and is what its
      handler returned for it. -/
  own : ∀ q ∈ sent, ⟨q.sender, q.inv, true⟩ ∈ s.handouts ∧
    (q.sender, .call q.inv.request q.res) ∈ tr
  busy : ∀ i req, Busy (st i).pc req →
    ∃ inv, ⟨i, inv, true⟩ ∈ s.handouts ∧ req = inv.request ∧
      inv.request_id.text ∉ sent.map Answer.id
  called : ∀ i req res, (st i).pc = .posting req res → (i, .call req res) ∈ tr
  /-- Nothing that arrived is forgotten. -/
  answered : ∀ h ∈ s.handouts, h.arrived = true →
    (∃ res, ⟨h.recipient, h.inv, res⟩ ∈ sent) ∨ Busy (st h.recipient).pc h.inv.request ∨
      (st h.recipient).pc = .returned

variable {env : ι → Option Bytes} {tr : List (ι × Event)} {st st' : ι → Loop} {s : Service ι}
  {sent : List (Answer ι)} {i : ι} {e : Event}

theorem Service.mem_give {h h' : Handout ι} : h ∈ (s.give h').handouts ↔ h ∈ s.handouts ∨ h = h' := by
  simp [Service.give]

theorem Service.ids_give (h : Handout ι) : (s.give h).ids = s.ids ++ [h.inv.request_id.text] := by
  simp [Service.give, Service.ids]

theorem Service.mem_ids {h : Handout ι} (hmem : h ∈ s.handouts) : h.inv.request_id.text ∈ s.ids :=
  List.mem_map.mpr ⟨h, hmem, rfl⟩

/-- Ids tell the invocations that were given out apart. -/
theorem Consistent.handout_unique (hc : Consistent env tr st s sent) {h h' : Handout ι}
    (hmem : h ∈ s.handouts) (hmem' : h' ∈ s.handouts)
    (hid : h.inv.request_id.text = h'.inv.request_id.text) : h = h' :=
  List.inj_on_of_nodup_map hc.ids hmem hmem' hid

/-- What was answered had been given out. -/
theorem Consistent.mem_ids (hc : Consistent env tr st s sent) {id : Bytes}
    (hid : id ∈ sent.map Answer.id) : id ∈ s.ids := by
  obtain ⟨q, hq, rfl⟩ := List.mem_map.mp hid
  exact Service.mem_ids (hc.own q hq).1

theorem nodup_concat {l : List Bytes} {a : Bytes} (h : l.Nodup) (ha : a ∉ l) : (l ++ [a]).Nodup := by
  rw [List.nodup_append]
  refine ⟨h, by simp, ?_⟩
  intro b hb c hc heq
  obtain rfl := List.mem_singleton.mp hc
  exact ha (heq ▸ hb)

/-- One loop takes a step that the service sees nothing of. -/
theorem Consistent.move (hc : Consistent env tr st s sent) (hframe : ∀ j, j ≠ i → st' j = st j)
    (hbusy : ∀ req, Busy (st' i).pc req → Busy (st i).pc req)
    (hcalled : ∀ req res, (st' i).pc = .posting req res → (i, .call req res) ∈ tr ++ [(i, e)])
    (hkept : ∀ req, Busy (st i).pc req → Busy (st' i).pc req ∨ (st' i).pc = .returned)
    (hgoing : (st i).pc ≠ .returned) : Consistent env (tr ++ [(i, e)]) st' s sent where
  ids := hc.ids
  receipts := hc.receipts
  once := hc.once
  own := fun q hq => ⟨(hc.own q hq).1, List.mem_append_left _ (hc.own q hq).2⟩
  busy := by
    intro j req hj
    by_cases hij : j = i
    · subst hij
      exact hc.busy j req (hbusy req hj)
    · rw [hframe j hij] at hj
      exact hc.busy j req hj
  called := by
    intro j req res hj
    by_cases hij : j = i
    · subst hij
      exact hcalled req res hj
    · rw [hframe j hij] at hj
      exact List.mem_append_left _ (hc.called j req res hj)
  answered := by
    intro h hmem harrived
    by_cases hij : h.recipient = i
    · rcases hc.answered h hmem harrived with hsent | hworking | hreturned
      · exact Or.inl hsent
      · rw [hij] at hworking ⊢
        exact Or.inr (hkept _ hworking)
      · rw [hij] at hreturned
        exact absurd hreturned hgoing
    · rw [hframe _ hij]
      exact hc.answered h hmem harrived

/-- An invocation is given out, and lost. -/
theorem Consistent.lose (hc : Consistent env tr st s sent) {inv : Invocation}
    (hfresh : inv.request_id.text ∉ s.ids) :
    Consistent env tr st (s.give ⟨i, inv, false⟩) sent where
  ids := by
    rw [Service.ids_give]
    exact nodup_concat hc.ids hfresh
  receipts := hc.receipts
  once := hc.once
  own := fun q hq => ⟨Service.mem_give.mpr (Or.inl (hc.own q hq).1), (hc.own q hq).2⟩
  busy := by
    intro j req hj
    obtain ⟨inv', hmem, hreq, hnot⟩ := hc.busy j req hj
    exact ⟨inv', Service.mem_give.mpr (Or.inl hmem), hreq, hnot⟩
  called := hc.called
  answered := by
    intro h hmem harrived
    rcases Service.mem_give.mp hmem with hmem | rfl
    · exact hc.answered h hmem harrived
    · cases harrived

theorem not_busy_of_idle {pc : Pc} (h : pc = .head ∨ pc = .returned) (req : invocation_request) :
    ¬ Busy pc req := by
  rcases h with rfl | rfl
  · rintro (hpc | ⟨res, hpc⟩) <;> cases hpc
  · rintro (hpc | ⟨res, hpc⟩) <;> cases hpc

/-- An invocation is given out, and arrives at an idle loop. -/
theorem Consistent.receive (hc : Consistent env tr st s sent) {inv : Invocation}
    (hfresh : inv.request_id.text ∉ s.ids) (hframe : ∀ j, j ≠ i → st' j = st j)
    (hhead : (st i).pc = .head) (hpc : (st' i).pc = .calling inv.request) :
    Consistent env (tr ++ [(i, e)]) st' (s.give ⟨i, inv, true⟩) sent where
  ids := by
    rw [Service.ids_give]
    exact nodup_concat hc.ids hfresh
  receipts := hc.receipts
  once := hc.once
  own := fun q hq =>
    ⟨Service.mem_give.mpr (Or.inl (hc.own q hq).1), List.mem_append_left _ (hc.own q hq).2⟩
  busy := by
    intro j req hj
    by_cases hij : j = i
    · -- the new invocation, which nothing was sent for
      subst hij
      rw [hpc] at hj
      rcases hj with hreq | ⟨res, hreq⟩
      · obtain rfl := Pc.calling.inj hreq
        exact ⟨inv, Service.mem_give.mpr (Or.inr rfl), rfl, fun hid => hfresh (hc.mem_ids hid)⟩
      · cases hreq
    · rw [hframe j hij] at hj
      obtain ⟨inv', hmem, hreq, hnot⟩ := hc.busy j req hj
      exact ⟨inv', Service.mem_give.mpr (Or.inl hmem), hreq, hnot⟩
  called := by
    intro j req res hj
    by_cases hij : j = i
    · subst hij
      rw [hpc] at hj
      cases hj
    · rw [hframe j hij] at hj
      exact List.mem_append_left _ (hc.called j req res hj)
  answered := by
    intro h hmem harrived
    rcases Service.mem_give.mp hmem with hmem | rfl
    · have hold := hc.answered h hmem harrived
      by_cases hij : h.recipient = i
      · -- the loop was at its head, so all it had before is answered
        rw [hij, hhead] at hold
        rcases hold with ⟨res, hsent⟩ | hbusy | hreturned
        · exact Or.inl ⟨res, by rw [hij]; exact hsent⟩
        · exact absurd hbusy (not_busy_of_idle (Or.inl rfl) _)
        · cases hreturned
      · rw [hframe _ hij]
        exact hold
    · right; left
      exact Or.inl hpc

/-- The answer of a loop comes through. -/
theorem Consistent.take (hc : Consistent env tr st s sent) {inv : Invocation}
    {res : invocation_response} (hframe : ∀ j, j ≠ i → st' j = st j)
    (hmem : ⟨i, inv, true⟩ ∈ s.handouts) (hnot : inv.request_id.text ∉ sent.map Answer.id)
    (hposting : (st i).pc = .posting inv.request res)
    (hidle : (st' i).pc = .head ∨ (st' i).pc = .returned) :
    Consistent env (tr ++ [(i, e)]) st' (s.take (Answer.receipt env ⟨i, inv, res⟩))
      (sent ++ [⟨i, inv, res⟩]) where
  ids := hc.ids
  receipts := by
    show s.receipts ++ _ = _
    rw [hc.receipts, List.map_append]
    rfl
  once := by
    rw [List.map_append]
    exact nodup_concat hc.once hnot
  own := by
    intro q hq
    rw [List.mem_append, List.mem_singleton] at hq
    rcases hq with hq | rfl
    · exact ⟨(hc.own q hq).1, List.mem_append_left _ (hc.own q hq).2⟩
    · exact ⟨hmem, List.mem_append_left _ (hc.called i _ res hposting)⟩
  busy := by
    intro j req hj
    by_cases hij : j = i
    · subst hij
      exact absurd hj (not_busy_of_idle hidle req)
    · rw [hframe j hij] at hj
      obtain ⟨inv', hmem', hreq, hnot'⟩ := hc.busy j req hj
      refine ⟨inv', hmem', hreq, ?_⟩
      rw [List.map_append, List.mem_append, not_or]
      refine ⟨hnot', ?_⟩
      -- another loop has another invocation
      intro hid
      have heq := hc.handout_unique hmem' hmem (List.mem_singleton.mp hid)
      exact hij (Handout.mk.inj heq).1
  called := by
    intro j req res' hj
    by_cases hij : j = i
    · subst hij
      exact absurd (Or.inr ⟨res', hj⟩) (not_busy_of_idle hidle req)
    · rw [hframe j hij] at hj
      exact List.mem_append_left _ (hc.called j req res' hj)
  answered := by
    intro h hmem' harrived
    have hold := hc.answered h hmem' harrived
    by_cases hij : h.recipient = i
    · rw [hij, hposting] at hold
      rcases hold with ⟨res', hsent⟩ | hbusy | hreturned
      · exact Or.inl ⟨res', by rw [hij]; exact List.mem_append_left _ hsent⟩
      · -- it is the invocation just answered
        have hid : h.inv.request_id.text = inv.request_id.text := by
          rcases hbusy with hreq | ⟨res', hreq⟩
          · cases hreq
          · exact (congrArg invocation_request.request_id (Pc.posting.inj hreq).1).symm
        obtain rfl := hc.handout_unique hmem' hmem hid
        exact Or.inl ⟨res, by simp⟩
      · cases hreturned
    · rw [hframe _ hij]
      rcases hold with ⟨res', hsent⟩ | hrest
      · exact Or.inl ⟨res', List.mem_append_left _ hsent⟩
      · exact Or.inr hrest

/-! ### Every step -/

section
variable {b d : Bool} {v : Bytes}

theorem Consistent.next (hc : Consistent env tr st s sent) {x : Exchange} {p : Perform}
    {out : Checked next_outcome} {s' : Service ι} (hwf : WellFormed (Target.linux b d v) x)
    (hframe : ∀ j, j ≠ i → st' j = st j)
    (hstep : (loop_system (Target.linux b d v)
      (runtime.for_endpoint (Target.linux b d v) (run_handler_endpoint (env i)))).step (st i)
        (.next x p out) (st' i)) (hsees : s.Sees i (.next x p out) s') :
    Consistent env (tr ++ [(i, .next x p out)]) st' s' sent := by
  obtain ⟨hhead, -, hloop, -⟩ := hstep
  obtain ⟨w, -, hnext⟩ := next_of_well_formed
    (runtime.for_endpoint (Target.linux b d v) (run_handler_endpoint (env i))) hwf (st i)
  rw [hnext] at hloop
  -- without an invocation the loop is back at its head
  have hstays : ∀ {s₁ : Service ι}, Consistent env tr st s₁ sent → ¬ BringsInvocation x →
      Consistent env (tr ++ [(i, .next x p out)]) st' s₁ sent := by
    intro s₁ hc₁ hnone
    rw [if_neg hnone] at hloop
    have hidle : (st' i).pc = .head := by rw [hloop]
    apply hc₁.move hframe
    · intro req hbusy
      exact absurd hbusy (not_busy_of_idle (Or.inl hidle) req)
    · intro req res hposting
      rw [hidle] at hposting
      cases hposting
    · intro req hbusy
      exact absurd hbusy (not_busy_of_idle (Or.inl hhead) req)
    · rw [hhead]
      exact Pc.noConfusion
  cases hsees with
  | no_invocation hnone => exact hstays hc hnone
  | invocation hfresh hsends =>
    rw [if_pos hsends.brings_invocation, hsends.request_of_eq] at hloop
    exact hc.receive hfresh hframe hhead (by rw [hloop])
  | lost_invocation hfresh hnone => exact hstays (hc.lose hfresh) hnone

theorem Consistent.post (hc : Consistent env tr st s sent) {x : Exchange} {p : Perform}
    {s' : Service ι} (hframe : ∀ j, j ≠ i → st' j = st j)
    (hstep : (loop_system (Target.linux b d v)
      (runtime.for_endpoint (Target.linux b d v) (run_handler_endpoint (env i)))).step (st i)
        (.post x p) (st' i)) (hsees : s.Sees i (.post x p) s') :
    ∃ sent', Consistent env (tr ++ [(i, .post x p)]) st' s' sent' := by
  let rt := runtime.for_endpoint (Target.linux b d v) (run_handler_endpoint (env i))
  obtain ⟨req, res, hposting, hloop, hperforms⟩ := hstep
  obtain ⟨inv, hmem, rfl, hnot⟩ := hc.busy i req (Or.inr ⟨res, hposting⟩)
  obtain ⟨w, hw, hpost⟩ := @post_of_any b d v rt x inv.request res (st i)
  have hidle : (st' i).pc = .head ∨ (st' i).pc = .returned := by
    rw [hloop, hpost]
    split
    · exact Or.inl rfl
    · exact Or.inr rfl
  have hperform : p = post_perform (Target.linux b d v) rt (answer rt inv.request res)
      (st i).thread.heap := by
    have hthread := Loop.post_performs (Target.linux b d v) rt inv.request res x (st i)
    rw [hloop, hthread] at hperforms
    exact (List.singleton_inj.mp (List.append_cancel_left hperforms)).symm
  cases hsees with
  | answer hreceives =>
    rw [hperform] at hreceives
    obtain rfl := (@receives_answer_iff _ _ env _ ⟨i, inv, res⟩ _ _ _).mp hreceives |>.2
    exact ⟨_, hc.take hframe hmem hnot hposting hidle⟩
  | lost_answer hlost =>
    rw [hpost, if_neg hlost] at hloop
    have hreturned : (st' i).pc = .returned := by rw [hloop]
    refine ⟨sent, hc.move hframe ?_ ?_ ?_ ?_⟩
    · intro req hbusy
      exact absurd hbusy (not_busy_of_idle hidle req)
    · intro req res' hposting'
      rw [hreturned] at hposting'
      cases hposting'
    · intro req _
      exact Or.inr hreturned
    · rw [hposting]
      exact Pc.noConfusion

theorem consistent_start (hst : ∀ i, st i = Loop.start) : Consistent env [] st ⟨[], []⟩ [] where
  ids := List.nodup_nil
  receipts := rfl
  once := List.nodup_nil
  own := by
    intro q hq
    cases hq
  busy := by
    intro i req hbusy
    rw [hst] at hbusy
    exact absurd hbusy (not_busy_of_idle (Or.inl rfl) req)
  called := by
    intro i req res hposting
    rw [hst] at hposting
    cases hposting
  answered := by
    intro h hmem
    cases hmem

theorem consistent_step [DecidableEq ι] (hc : Consistent env tr st s sent) {s' : Service ι}
    (hstep : (service_system (Target.linux b d v) env).step (st, s) (i, e) (st', s')) :
    ∃ sent', Consistent env (tr ++ [(i, e)]) st' s' sent' := by
  obtain ⟨⟨hloop, hframe⟩, hwf, hsees⟩ := hstep
  match e with
  | .next x p out => exact ⟨sent, hc.next hwf hframe hloop hsees⟩
  | .post x p => exact hc.post hframe hloop hsees
  | .call req res =>
    cases hsees
    have hcalling : (st i).pc = .calling req := hloop.1
    have hposting : (st' i).pc = .posting req res := congrArg Loop.pc hloop.2
    refine ⟨sent, hc.move hframe ?_ ?_ ?_ ?_⟩
    · intro req' hbusy
      rw [hposting] at hbusy
      rcases hbusy with hpc | ⟨res', hpc⟩
      · cases hpc
      · obtain rfl := (Pc.posting.inj hpc).1
        exact Or.inl hcalling
    · intro req' res' hpc
      rw [hposting] at hpc
      obtain ⟨rfl, rfl⟩ := Pc.posting.inj hpc
      simp
    · intro req' hbusy
      rw [hcalling] at hbusy
      rcases hbusy with hpc | ⟨res', hpc⟩
      · obtain rfl := Pc.calling.inj hpc
        exact Or.inl (Or.inr ⟨res, hposting⟩)
      · cases hpc
    · rw [hcalling]
      exact Pc.noConfusion
  | .exhausted =>
    cases hsees
    have hhead : (st i).pc = .head := hloop.1
    have hreturned : (st' i).pc = .returned := congrArg Loop.pc hloop.2.2
    refine ⟨sent, hc.move hframe ?_ ?_ ?_ ?_⟩
    · intro req hbusy
      exact absurd hbusy (not_busy_of_idle (Or.inr hreturned) req)
    · intro req res hposting
      rw [hreturned] at hposting
      cases hposting
    · intro req _
      exact Or.inr hreturned
    · rw [hhead]
      exact Pc.noConfusion

end

end

/-- **The service and the loops agree**, in every interleaving of any number
    of loops and whatever the network loses: each request that comes through
    is the whole answer of the handler that was given the invocation, there
    is one such request for an invocation at most, and a loop that is still
    asking has sent one for every invocation that reached it. -/
theorem service_consistent {ι : Type} [DecidableEq ι] (b d : Bool) (v : Bytes)
    (env : ι → Option Bytes) {tr : List (ι × Event)} {st : ι → Loop} {s : Service ι}
    (h : (service_system (Target.linux b d v) env).Run tr (st, s)) :
    ∃ sent, Consistent env tr st s sent := by
  have hinv : ∀ r : (ι → Loop) × Service ι, (service_system (Target.linux b d v) env).Run tr r →
      ∃ sent, Consistent env tr r.1 r.2 sent := by
    intro r hr
    apply System.Run.invariant (I := fun tr r => ∃ sent, Consistent env tr r.1 r.2 sent) _ _ hr
    · rintro ⟨st, s⟩ ⟨hst, hs⟩
      obtain rfl : s = ⟨[], []⟩ := hs
      exact ⟨[], consistent_start hst⟩
    · rintro tr ⟨st, s⟩ ⟨i, e⟩ ⟨st', s'⟩ ⟨sent, hc⟩ hstep
      exact consistent_step hc hstep
  exact hinv _ h

theorem service_step {ι : Type} [DecidableEq ι] {t : Target} {env : ι → Option Bytes}
    {tr : List (ι × Event)} {st : ι → Loop} {s s' : Service ι} {e : Event} {l : Loop}
    (h : (service_system t env).Run tr (st, s)) (i : ι)
    (hstep : (loop_system t (runtime.for_endpoint t (run_handler_endpoint (env i)))).step (st i) e l)
    (hwf : e.WellFormed t) (hsees : s.Sees i e s') :
    (service_system t env).Run (tr ++ [(i, e)]) (Function.update st i l, s') :=
  System.Run.step h ⟨System.interleave_step hstep, hwf, hsees⟩

/-- A loop at its head may be sent an invocation. -/
theorem can_receive {b d : Bool} {v : Bytes} (rt : runtime) {l : Loop} {inv : Invocation}
    {x : Exchange} (hpc : l.pc = .head) (hretries : l.retries < max_retries) (hsends : Sends inv x) :
    ∃ p out w, (loop_system (Target.linux b d v) rt).step l (.next x p out)
      ⟨.calling inv.request, 0, w⟩ := by
  obtain ⟨w, -, hnext⟩ :=
    next_of_well_formed rt (hsends.well_formed (Target.linux b d v)) l
  have hstep := can_ask (Target.linux b d v) rt hpc hretries x
  rw [hnext, if_pos hsends.brings_invocation, hsends.request_of_eq] at hstep
  exact ⟨_, _, w, hstep⟩

/-- One loop echoes one invocation; the service is given the body back. -/
theorem service_consistent_echo :
    ∃ (tr : List (Unit × Event)) (st : Unit → Loop) (s : Service Unit) (sent : List (Answer Unit)),
      (service_system (Target.linux true false []) fun _ => none).Run tr (st, s) ∧
      Consistent (fun _ => none) tr st s sent ∧ sent.length = 1 ∧
      s.receipts = [⟨ascii "http:///2018-06-01/runtime/invocation/8476a536/response",
        ascii "[1,2]"⟩] := by
  let rt := runtime.for_endpoint (Target.linux true false []) (run_handler_endpoint none)
  let q : Answer Unit := ⟨(), traced_invocation, echo_success traced_invocation.request⟩
  have hrun₀ : (service_system (Target.linux true false []) fun _ : Unit => none).Run []
      (fun _ => Loop.start, ⟨[], []⟩) := System.Run.init ⟨fun _ => rfl, rfl⟩
  obtain ⟨p, out, w, hreceive⟩ := @can_receive true false [] rt Loop.start traced_invocation
    traced_exchange rfl (by decide) traced_exchange_sends
  have hrun₁ := service_step hrun₀ () hreceive (traced_exchange_sends.well_formed _)
    (.invocation List.not_mem_nil traced_exchange_sends)
  have hrun₂ := service_step hrun₁ () (can_call (Target.linux true false []) rt (by rfl) q.res)
    trivial .call
  -- libcurl asks for the whole answer
  have hasked : q.res.get_payload.length ≤ (echo_exchanges 1).asked := by decide +kernel
  have hreceives := (@receives_answer_iff _ (Target.linux true false []) (fun _ => none)
    (ascii "AWS_Lambda_Cpp/" ++ []) q (echo_exchanges 1) w.heap _).mpr ⟨hasked, rfl⟩
  have hpost := can_post (Target.linux true false []) rt
    (l := ⟨.posting traced_invocation.request q.res, 0, w⟩) rfl (echo_exchanges 1)
  have hrun₃ := service_step hrun₂ () hpost (echo_exchanges_well_formed 1) (.answer hreceives)
  obtain ⟨sent, hconsistent⟩ := service_consistent true false [] (fun _ : Unit => none) hrun₃
  have hreceipt : q.receipt (fun _ => none) =
      ⟨ascii "http:///2018-06-01/runtime/invocation/8476a536/response", ascii "[1,2]"⟩ := by
    decide +kernel
  refine ⟨_, _, _, sent, hrun₃, hconsistent, ?_, ?_⟩
  · have hlength := congrArg List.length hconsistent.receipts
    rw [List.length_map] at hlength
    exact hlength.symm
  · exact congrArg (fun r => [r]) hreceipt

end LambdaCpp
