import Mathlib.Data.List.Nodup
import LambdaCpp.Runtime.Deadline

/-! # Invocations on the Wire

    What an invocation is, independently of HTTP, and every way a server may
    send it: the header lines in any order and letter case, padded with any
    white space, between any lines that give other headers or none, and the
    body in any pieces.

    `get_next_lossless` states that `get_next` undoes every such encoding.
-/

namespace LambdaCpp

open Bytes (ascii)

/-! ### Invocations -/

/-- Nothing to trim on either side. -/
structure Trimmed (text : Bytes) : Prop where
  head : ∀ b ∈ text.head?, ¬ Bytes.isSpace b
  last : ∀ b ∈ text.getLast?, ¬ Bytes.isSpace b

/-- A text a header line can carry: one line, a C string, with nothing to
    trim. -/
structure FieldText where
  text : Bytes
  plain : ∀ b ∈ text, b ≠ 0 ∧ b ≠ 10 ∧ b ≠ 13
  trimmed : Trimmed text

/-- A number of milliseconds as a run of decimal digits. -/
structure DeadlineText where
  text : Bytes
  digits : ∀ b ∈ text, Bytes.isDigit b
  positive : 0 < Bytes.decimalVal text
  bounded : Bytes.decimalVal text < 9223372036854

/-- What the service has to tell a function. -/
structure Invocation where
  request_id : FieldText
  content_type : FieldText
  body : Bytes
  xray_trace_id : Option FieldText
  client_context : Option FieldText
  cognito_identity : Option FieldText
  function_arn : Option FieldText
  tenant_id : Option FieldText
  invocation_id : Option FieldText
  deadline : Option DeadlineText

namespace Invocation

/-- Every header an invocation can have, with its text if it has one. -/
def slots (inv : Invocation) : List (Bytes × Option Bytes) :=
  [(REQUEST_ID_HEADER, some inv.request_id.text),
    (TRACE_ID_HEADER, inv.xray_trace_id.map FieldText.text),
    (CLIENT_CONTEXT_HEADER, inv.client_context.map FieldText.text),
    (COGNITO_IDENTITY_HEADER, inv.cognito_identity.map FieldText.text),
    (FUNCTION_ARN_HEADER, inv.function_arn.map FieldText.text),
    (TENANT_ID_HEADER, inv.tenant_id.map FieldText.text),
    (INVOCATION_ID_HEADER, inv.invocation_id.map FieldText.text),
    (DEADLINE_MS_HEADER, inv.deadline.map DeadlineText.text)]

/-- The headers to be sent. -/
def headers (inv : Invocation) : List (Bytes × Bytes) :=
  inv.slots.filterMap fun p => p.2.map fun text => (p.1, text)

/-- The invocation as the handler should see it. -/
def request (inv : Invocation) : invocation_request where
  payload := inv.body
  request_id := inv.request_id.text
  xray_trace_id := (inv.xray_trace_id.map FieldText.text).getD []
  client_context := (inv.client_context.map FieldText.text).getD []
  cognito_identity := (inv.cognito_identity.map FieldText.text).getD []
  function_arn := (inv.function_arn.map FieldText.text).getD []
  content_type := inv.content_type.text
  -- milliseconds since the epoch, in nanoseconds
  deadline := match inv.deadline with
    | none => 0
    | some n => Bytes.decimalVal n.text * 1000000
  tenant_id := (inv.tenant_id.map FieldText.text).getD []
  invocation_id := (inv.invocation_id.map FieldText.text).getD []

end Invocation

/-! ### Encodings -/

/-- A line that sends `value` under `name`: the name in any letter case, and
    white space around both. -/
def WireLine (name value line : Bytes) : Prop :=
  ∃ l cased r l' r' : Bytes, line = (l ++ cased ++ r) ++ 0x3a :: (l' ++ value ++ r') ∧
    cased.map Bytes.lower = name ∧
    (∀ b ∈ l, Bytes.isSpace b) ∧ (∀ b ∈ r, Bytes.isSpace b) ∧
    (∀ b ∈ l', Bytes.isSpace b) ∧ ∀ b ∈ r', Bytes.isSpace b

/-- A line that gives none of the known headers: the status line, the final
    blank line, any other header. -/
def Foreign (line : Bytes) : Prop :=
  ∀ name ∈ known_headers, ∀ value, ¬ IsHeaderLine name value line

/-- The lines that send the headers `hs`, in this order, between any foreign
    lines. -/
inductive Interleaved : List (Bytes × Bytes) → List Bytes → Prop where
  | nil : Interleaved [] []
  | foreign {hs lines line} : Foreign line → Interleaved hs lines → Interleaved hs (line :: lines)
  | field {name value hs lines line} : WireLine name value line → Interleaved hs lines →
      Interleaved ((name, value) :: hs) (line :: lines)

/-- The transfer `x` is one successful response that sends `inv`. -/
structure Sends (inv : Invocation) (x : Exchange) : Prop where
  ok : x.code = CURLE_OK
  status : 200 ≤ x.response_code ∧ x.response_code ≤ 299
  content_type : x.content_type = some inv.content_type.text
  body : x.chunks.flatten = inv.body
  /-- The headers come in any order. -/
  headers : ∃ hs, hs.Perm inv.headers ∧ Interleaved hs x.lines

/-! ### Association lists without repeated names -/

theorem lookup_eq_some_iff_mem {name value : Bytes} {hs : List (Bytes × Bytes)}
    (hnodup : (hs.map Prod.fst).Nodup) : lookup name hs = some value ↔ (name, value) ∈ hs := by
  induction hs with
  | nil => simp [lookup]
  | cons p hs ih =>
    obtain ⟨n, v⟩ := p
    rw [List.map_cons, List.nodup_cons] at hnodup
    obtain ⟨hn, hhs⟩ := hnodup
    rw [lookup_cons]
    by_cases h : n = name
    · subst h
      -- the name does not come again
      have hrest : (n, value) ∉ hs := by
        intro hmem
        exact hn (List.mem_map.mpr ⟨_, hmem, rfl⟩)
      simp [hrest, eq_comm]
    · simp [h, ih hhs, Ne.symm h]

/-- The order of the headers does not matter. -/
theorem lookup_perm {hs hs' : List (Bytes × Bytes)} (hperm : hs.Perm hs')
    (hnodup : (hs'.map Prod.fst).Nodup) (name : Bytes) : lookup name hs = lookup name hs' := by
  have hnodup' : (hs.map Prod.fst).Nodup := (hperm.map Prod.fst).nodup_iff.mpr hnodup
  have hsome : ∀ value, lookup name hs = some value ↔ lookup name hs' = some value := by
    intro value
    rw [lookup_eq_some_iff_mem hnodup', lookup_eq_some_iff_mem hnodup, hperm.mem_iff]
  exact Option.ext hsome

theorem Invocation.slots_nodup (inv : Invocation) : (inv.slots.map Prod.fst).Nodup :=
  known_headers_nodup

/-- The names sent are among the names of the slots. -/
theorem sublist_sent (slots : List (Bytes × Option Bytes)) :
    ((slots.filterMap fun p => p.2.map fun text => (p.1, text)).map Prod.fst).Sublist
      (slots.map Prod.fst) := by
  induction slots with
  | nil => simp
  | cons p slots ih =>
    obtain ⟨n, o⟩ := p
    cases o with
    | none => simpa using ih.cons n
    | some text => simpa using ih.cons_cons n

/-- What is found under a name is what its slot holds. -/
theorem lookup_sent {slots : List (Bytes × Option Bytes)} (hnodup : (slots.map Prod.fst).Nodup)
    {name : Bytes} {o : Option Bytes} (hmem : (name, o) ∈ slots) :
    lookup name (slots.filterMap fun p => p.2.map fun text => (p.1, text)) = o := by
  have hsent := (sublist_sent slots).nodup hnodup
  apply Option.ext
  intro value
  rw [lookup_eq_some_iff_mem hsent]
  simp only [List.mem_filterMap, Option.map_eq_some_iff, Prod.mk.injEq, Prod.exists]
  constructor
  · intro h
    obtain ⟨n, o', hmem', text, ho', hn, htext⟩ := h
    subst hn htext
    -- both slots have this name
    have heq : o = o' := by
      have := List.inj_on_of_nodup_map hnodup hmem hmem' rfl
      simpa using this
    rw [heq, ho']
  · intro h
    exact ⟨name, o, hmem, value, h, rfl, rfl⟩

theorem Invocation.headers_nodup (inv : Invocation) : (inv.headers.map Prod.fst).Nodup :=
  (sublist_sent inv.slots).nodup inv.slots_nodup

theorem Invocation.lookup_headers (inv : Invocation) {name : Bytes} {o : Option Bytes}
    (hmem : (name, o) ∈ inv.slots) : lookup name inv.headers = o :=
  lookup_sent inv.slots_nodup hmem

/-! ### Reading the lines back -/

theorem not_isSpace_colon : Bytes.isSpace 0x3a = false := by decide

theorem lower_colon_iff : ∀ b : UInt8, Bytes.lower b = 0x3a ↔ b = 0x3a :=
  Bytes.forall_byte (by decide +kernel)

/-- Lower-casing makes no white space. -/
theorem isSpace_lower : ∀ b : UInt8, Bytes.isSpace (Bytes.lower b) = Bytes.isSpace b :=
  Bytes.forall_byte (by decide +kernel)

/-- A wire line is a header line that gives exactly what was sent. -/
theorem WireLine.isHeaderLine {name value line : Bytes} (h : WireLine name value line)
    (hcolon : 0x3a ∉ name) (hspace : ∀ b ∈ name, Bytes.isSpace b = false)
    (htrimmed : Trimmed value) : IsHeaderLine name value line := by
  obtain ⟨l, cased, r, l', r', hline, hname, hl, hr, hl', hr'⟩ := h
  -- neither the name nor its padding has a colon or, in the name, white space
  have hcased : ∀ b ∈ cased, b ≠ 0x3a ∧ Bytes.isSpace b = false := by
    intro b hb
    have hmem : Bytes.lower b ∈ name := by
      rw [← hname]
      exact List.mem_map_of_mem hb
    refine ⟨?_, ?_⟩
    · intro heq
      rw [(lower_colon_iff b).mpr heq] at hmem
      exact hcolon hmem
    · rw [← isSpace_lower]
      exact hspace _ hmem
  have hpad : ∀ s : Bytes, (∀ b ∈ s, Bytes.isSpace b) → 0x3a ∉ s := by
    intro s hs hmem
    have := hs _ hmem
    rw [not_isSpace_colon] at this
    cases this
  refine ⟨l ++ cased ++ r, l' ++ value ++ r', cased, hline, ?_, ⟨⟨l, r, rfl, hl, hr⟩, ?_, ?_⟩,
    hname.symm, ⟨⟨l', r', rfl, hl', hr'⟩, htrimmed.head, htrimmed.last⟩⟩
  · simp only [List.mem_append, not_or]
    exact ⟨⟨hpad l hl, fun hmem => (hcased _ hmem).1 rfl⟩, hpad r hr⟩
  · intro b hb
    simp [(hcased b (List.mem_of_mem_head? hb)).2]
  · intro b hb
    simp [(hcased b (List.mem_of_mem_getLast? hb)).2]

theorem foreign_iff {line : Bytes} :
    Foreign line ↔ ∀ p ∈ (header_of line).toList, p.1 ∉ known_headers := by
  unfold Foreign
  simp only [isHeaderLine_iff, Option.mem_toList]
  constructor
  · intro h p hp hname
    exact h p.1 hname p.2 hp
  · intro h name hname value hline
    exact h (name, value) hline hname

instance (line : Bytes) : Decidable (Foreign line) := decidable_of_iff _ foreign_iff.symm

theorem Foreign.lookup_cons {line : Bytes} (h : Foreign line) {name : Bytes}
    (hname : name ∈ known_headers) (lines : List Bytes) :
    lookup name (headers_of (line :: lines)) = lookup name (headers_of lines) := by
  rw [headers_of_cons]
  cases hline : header_of line with
  | none => rfl
  | some p =>
    have hne : p.1 ≠ name := by
      intro heq
      apply h name hname p.2
      rw [isHeaderLine_iff, hline, ← heq]
    rw [Option.toList_some, List.singleton_append, LambdaCpp.lookup_cons, if_neg hne]

/-- Among the known names, the lines give what was sent and nothing else. -/
theorem Interleaved.lookup_eq {hs : List (Bytes × Bytes)} {lines : List Bytes}
    (h : Interleaved hs lines)
    (hnames : ∀ p ∈ hs, p.1 ∈ known_headers)
    (htexts : ∀ p ∈ hs, Trimmed p.2)
    {name : Bytes} (hname : name ∈ known_headers) :
    lookup name (headers_of lines) = lookup name hs := by
  induction h with
  | nil => rfl
  | foreign hforeign _ ih =>
    rw [hforeign.lookup_cons hname]
    exact ih hnames htexts
  | @field n v hs lines line hwire _ ih =>
    -- the line is read as the header it was written from
    have hih := ih (fun p hp => hnames p (by simp [hp])) (fun p hp => htexts p (by simp [hp]))
    obtain ⟨-, hcolon, hspace, -⟩ := known_headers_plain n (hnames (n, v) (by simp))
    have htext := htexts (n, v) (by simp)
    have hline := isHeaderLine_iff.mp (hwire.isHeaderLine hcolon hspace htext)
    rw [headers_of_cons, hline, Option.toList_some, List.singleton_append, lookup_cons,
      lookup_cons, hih]

/-! ### Lossless reception -/

theorem DeadlineText.trimmed (n : DeadlineText) : Trimmed n.text where
  head := by
    intro b hb
    simp [(digit_plain b (n.digits b (List.mem_of_mem_head? hb))).2.1]
  last := by
    intro b hb
    simp [(digit_plain b (n.digits b (List.mem_of_mem_getLast? hb))).2.1]

theorem Invocation.slots_trimmed (inv : Invocation) :
    ∀ p ∈ inv.slots, ∀ text ∈ p.2, Trimmed text := by
  have hoption : ∀ o : Option FieldText, ∀ text ∈ o.map FieldText.text, Trimmed text := by
    intro o text h
    obtain ⟨f, -, rfl⟩ := Option.map_eq_some_iff.mp h
    exact f.trimmed
  intro p hp
  simp only [slots, List.mem_cons, List.not_mem_nil, or_false] at hp
  rcases hp with rfl | rfl | rfl | rfl | rfl | rfl | rfl | rfl
  · exact hoption (some inv.request_id)
  · exact hoption inv.xray_trace_id
  · exact hoption inv.client_context
  · exact hoption inv.cognito_identity
  · exact hoption inv.function_arn
  · exact hoption inv.tenant_id
  · exact hoption inv.invocation_id
  · intro text h
    obtain ⟨n, -, rfl⟩ := Option.map_eq_some_iff.mp h
    exact n.trimmed

theorem Invocation.mem_headers {inv : Invocation} {p : Bytes × Bytes} (hp : p ∈ inv.headers) :
    p.1 ∈ known_headers ∧ Trimmed p.2 := by
  obtain ⟨slot, hslot, htext⟩ := List.mem_filterMap.mp hp
  obtain ⟨text, ho, rfl⟩ := Option.map_eq_some_iff.mp htext
  exact ⟨List.mem_map_of_mem (f := Prod.fst) hslot, inv.slots_trimmed slot hslot text ho⟩

section
variable {inv : Invocation} {x : Exchange}

/-- What is received under each known name is what the invocation has. -/
theorem Sends.lookup_eq (h : Sends inv x) {name : Bytes} {o : Option Bytes}
    (hmem : (name, o) ∈ inv.slots) : lookup name (headers_of x.lines) = o := by
  obtain ⟨hs, hperm, hlines⟩ := h.headers
  have hknown : ∀ p ∈ hs, p.1 ∈ known_headers ∧ Trimmed p.2 := fun p hp =>
    Invocation.mem_headers (hperm.mem_iff.mp hp)
  have hname : name ∈ known_headers := List.mem_map_of_mem (f := Prod.fst) hmem
  rw [hlines.lookup_eq (fun p hp => (hknown p hp).1) (fun p hp => (hknown p hp).2) hname,
    lookup_perm hperm inv.headers_nodup, inv.lookup_headers hmem]

theorem Sends.lookup_deadline (h : Sends inv x) :
    lookup DEADLINE_MS_HEADER (headers_of x.lines) = inv.deadline.map DeadlineText.text :=
  h.lookup_eq (by simp [Invocation.slots])

theorem DeadlineText.asserted (n : DeadlineText) : Asserted n.text where
  digits := n.digits
  positive := n.positive
  below := by
    have := n.bounded
    unfold ULONG_MAX
    omega

theorem DeadlineText.to_int64_eq (n : DeadlineText) :
    to_int64 (strtoul n.text) = (Bytes.decimalVal n.text : Int) := by
  rw [n.asserted.strtoul_eq]
  apply to_int64_of_lt
  have := n.bounded
  omega

/-- A deadline of fewer than 9223372036854 milliseconds fits the clock. -/
theorem DeadlineText.ok (t : Target) (n : DeadlineText) (now : Fin (2 ^ 63)) :
    deadline_ok t (now.val : Int) n.text = true := by
  have hle : Bytes.decimalVal n.text ≤ LAST_MILLISECOND := Nat.le_of_lt n.bounded
  have hepoch : (0 : Int) ≤ now.val := by omega
  have hmax : (now.val : Int) < 2 ^ 63 := by omega
  exact (n.asserted.deadline_ok_iff hepoch hmax n.to_int64_eq).mpr hle

theorem Sends.request_of_eq (h : Sends inv x) : request_of x = inv.request := by
  have hct : Bytes.c_str inv.content_type.text = inv.content_type.text := by
    apply Bytes.c_str_of_not_mem
    intro hmem
    exact (inv.content_type.plain 0 hmem).1 rfl
  have hfield : ∀ name o, (name, o) ∈ inv.slots → field (headers_of x.lines) name = o.getD [] := by
    intro name o hmem
    unfold field
    rw [h.lookup_eq hmem]
  have hdeadline := h.lookup_deadline
  unfold request_of Invocation.request
  rw [hfield REQUEST_ID_HEADER (some inv.request_id.text) (by simp [Invocation.slots]),
    hfield TRACE_ID_HEADER (inv.xray_trace_id.map FieldText.text) (by simp [Invocation.slots]),
    hfield CLIENT_CONTEXT_HEADER (inv.client_context.map FieldText.text) (by simp [Invocation.slots]),
    hfield COGNITO_IDENTITY_HEADER (inv.cognito_identity.map FieldText.text)
      (by simp [Invocation.slots]),
    hfield FUNCTION_ARN_HEADER (inv.function_arn.map FieldText.text) (by simp [Invocation.slots]),
    hfield TENANT_ID_HEADER (inv.tenant_id.map FieldText.text) (by simp [Invocation.slots]),
    hfield INVOCATION_ID_HEADER (inv.invocation_id.map FieldText.text) (by simp [Invocation.slots]),
    h.content_type, h.body, hdeadline]
  cases inv.deadline with
  | none => simp [hct]
  | some n => simp [hct, n.to_int64_eq]

end

/-- **Receiving an invocation is lossless** and independent of how it is
    sent. -/
theorem get_next_lossless (s d : Bool) (v : Bytes) (rt : runtime) (w : Thread)
    (inv : Invocation) (x : Exchange) (h : Sends inv x) :
    (get_next (Target.linux s d v) rt x w).1 = .ok (.result inv.request) := by
  obtain ⟨w', hrun, -, -⟩ := get_next_eq (Target.linux s d v) rt x w
  have hresult := next_result_eq (Target.linux s d v) x
  have hid : received_header x REQUEST_ID_HEADER = true := by
    unfold received_header
    rw [h.lookup_eq (o := some inv.request_id.text) (by simp [Invocation.slots])]
    rfl
  -- the deadline is in range, so nothing leaves the defined behaviour
  have hdefined : next_defined (Target.linux s d v) x = true := by
    unfold next_defined
    rw [h.lookup_deadline, h.content_type]
    cases inv.deadline with
    | none => simp
    | some n => simp [n.ok]
  have hclassify : classify x = .result inv.request := by
    have hsuccess := is_success_iff.mpr h.status
    have hinv : has_invocation x = true := by simp [has_invocation, h.ok, hsuccess, hid]
    rw [classify_of_has_invocation hinv, h.request_of_eq]
  rw [if_pos hdefined, hclassify] at hresult
  rw [hrun, hresult]

/-- A trace id with colons, sent after the status line with an upper-case
    name, and a body in two pieces. -/
def traced_invocation : Invocation where
  request_id := ⟨ascii "8476a536", by decide, ⟨by decide, by decide⟩⟩
  content_type := ⟨ascii "application/json", by decide, ⟨by decide, by decide⟩⟩
  body := ascii "[1,2]"
  xray_trace_id := some ⟨ascii "Root=1:5bef", by decide, ⟨by decide, by decide⟩⟩
  client_context := none
  cognito_identity := none
  function_arn := none
  tenant_id := none
  invocation_id := none
  deadline := some ⟨ascii "1542409706888", by decide, by decide, by decide⟩

def traced_exchange : Exchange where
  callbacks :=
    [.header (ascii "HTTP/1.1 200 OK\r\n"),
      .header (ascii "LAMBDA-RUNTIME-TRACE-ID : \tRoot=1:5bef\r\n"),
      .header (ascii "Date: Sat, 17 Nov 2018 23:08:23 GMT\r\n"),
      .header (ascii "lambda-runtime-aws-request-id:8476a536\r\n"),
      .header (ascii "Lambda-Runtime-Deadline-Ms: 1542409706888\r\n"),
      .header (ascii "\r\n"), .body (ascii "[1,"), .body (ascii "2]")]
  code := CURLE_OK
  response_code := 200
  content_type := some (ascii "application/json")
  now := Exchange.epoch

theorem traced_exchange_sends : Sends traced_invocation traced_exchange where
  ok := rfl
  status := by decide
  content_type := rfl
  body := by decide
  headers := by
    refine ⟨[(TRACE_ID_HEADER, ascii "Root=1:5bef"), (REQUEST_ID_HEADER, ascii "8476a536"),
      (DEADLINE_MS_HEADER, ascii "1542409706888")], List.Perm.swap _ _ _, ?_⟩
    have htrace : WireLine TRACE_ID_HEADER (ascii "Root=1:5bef")
        (ascii "LAMBDA-RUNTIME-TRACE-ID : \tRoot=1:5bef\r\n") :=
      ⟨[], ascii "LAMBDA-RUNTIME-TRACE-ID", ascii " ", ascii " \t", ascii "\r\n",
        by decide +kernel⟩
    have hrequest : WireLine REQUEST_ID_HEADER (ascii "8476a536")
        (ascii "lambda-runtime-aws-request-id:8476a536\r\n") :=
      ⟨[], ascii "lambda-runtime-aws-request-id", [], [], ascii "\r\n", by decide +kernel⟩
    have hdeadline : WireLine DEADLINE_MS_HEADER (ascii "1542409706888")
        (ascii "Lambda-Runtime-Deadline-Ms: 1542409706888\r\n") :=
      ⟨[], ascii "Lambda-Runtime-Deadline-Ms", [], ascii " ", ascii "\r\n", by decide +kernel⟩
    exact .foreign (by decide +kernel) <| .field htrace <| .foreign (by decide +kernel) <|
      .field hrequest <| .field hdeadline <| .foreign (by decide +kernel) .nil

theorem get_next_lossless_traced :
    ∃ req, (get_next (Target.linux true false []) (runtime.with_user_agent [] []) traced_exchange
        Thread.new).1 = .ok (.result req) ∧
      req.payload = ascii "[1,2]" ∧ req.request_id = ascii "8476a536" ∧
      req.xray_trace_id = ascii "Root=1:5bef" ∧ req.client_context = [] ∧
      req.deadline = 1542409706888 * 1000000 :=
  ⟨_, get_next_lossless true false [] _ Thread.new traced_invocation traced_exchange
    traced_exchange_sends, rfl, rfl, rfl, rfl, by decide +kernel⟩

end LambdaCpp
