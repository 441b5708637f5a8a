import LambdaCpp.Http.Response

/-! # The Download Callbacks

    `write_data` and `write_header`, which libcurl calls for every piece of
    body and every header line it receives, and the `trim` they use.

    The code is compared with a reference reading of a header line,
    `IsHeaderLine`: the text before the first colon, trimmed and
    lower-cased, and the text after it, trimmed.  `header_store_reference`
    states that what `get_header` finds after any sequence of lines is
    exactly what the reference reading finds.
-/

namespace LambdaCpp

variable (t : Target)

/-! ### The code -/

def write_data (ptr : Option Bytes) (size : Nat) (resp : response) : Checked (Nat × response) :=
  match ptr with
  | none => .ok (0, resp)
  | some ptr => do
    t.assert (size = 1)
    .ok (ptr.length, resp.append_body ptr)

def is_whitespace (ch : Int) : Bool :=
  let space := 0x20
  let form_feed := 0x0c
  let line_feed := 0x0a
  let carriage_return := 0x0d
  let horizontal_tab := 0x09
  let vertical_tab := 0x0b
  ch = space || ch = form_feed || ch = line_feed || ch = carriage_return ||
    ch = horizontal_tab || ch = vertical_tab

/-- `find_if` over `[begin, end)` for the first non-whitespace position. -/
def find_non_whitespace (s : Bytes) : Nat :=
  s.findIdx fun ch => !is_whitespace (t.promote ch)

def trim (s : Bytes) : Bytes :=
  -- trim right: the base of the reverse iterator counts from the end
  let s := s.take (s.length - find_non_whitespace t s.reverse)
  -- trim left
  s.drop (find_non_whitespace t s)

/-- The `for` loop of `write_header` at index `i`, with `rest` the bytes
    from `ptr + i` on. -/
def write_header_loop (ptr : Bytes) (resp : response) : Nat → Bytes → Checked response
  | _, [] => .ok resp
  | i, ch :: rest =>
    if ch ≠ 0x3a then write_header_loop ptr resp (i + 1) rest
    else resp.add_header t (trim t (ptr.take i)) (trim t (ptr.drop (i + 1)))

def write_header (ptr : Option Bytes) (size : Nat) (resp : response) :
    Checked (Nat × response) :=
  match ptr with
  | none => .ok (0, resp)
  | some ptr => do
    let resp ← write_header_loop t ptr resp 0 ptr
    .ok (size * ptr.length, resp)

/-! ### `trim` is two-sided trimming -/

theorem is_whitespace_promote (ch : UInt8) : is_whitespace (t.promote ch) = Bytes.isSpace ch := by
  unfold Target.promote
  cases t.char_signed with
  | false => revert ch; exact Bytes.forall_byte (by decide +kernel)
  | true => revert ch; exact Bytes.forall_byte (by decide +kernel)

theorem drop_find_non_whitespace (s : Bytes) :
    s.drop (find_non_whitespace t s) = s.dropWhile Bytes.isSpace := by
  unfold find_non_whitespace
  induction s with
  | nil => rfl
  | cons ch s ih =>
    rw [List.findIdx_cons, is_whitespace_promote]
    cases hch : Bytes.isSpace ch with
    | true =>
      rw [List.dropWhile_cons_of_pos hch]
      simpa using ih
    | false =>
      rw [List.dropWhile_cons_of_neg (by simp [hch])]
      simp

theorem trim_eq_strip (s : Bytes) : trim t s = Bytes.strip Bytes.isSpace s := by
  have hright : s.take (s.length - find_non_whitespace t s.reverse) =
      s.rdropWhile Bytes.isSpace := by
    have h := congrArg List.reverse (drop_find_non_whitespace t s.reverse)
    rw [List.reverse_drop, List.reverse_reverse, List.length_reverse] at h
    exact h
  unfold trim Bytes.strip
  simp only [hright]
  exact drop_find_non_whitespace t _

/-! ### The reference reading of a header line -/

/-- `line` is a header line that gives `name` the text `value`. -/
def IsHeaderLine (name value line : Bytes) : Prop :=
  ∃ before after trimmed, line = before ++ 0x3a :: after ∧ 0x3a ∉ before ∧
    Bytes.IsStrip Bytes.isSpace before trimmed ∧ name = trimmed.map Bytes.lower ∧
    Bytes.IsStrip Bytes.isSpace after value

/-- The name and text of a line, if it has a colon. -/
def header_of (line : Bytes) : Option (Bytes × Bytes) :=
  (Bytes.cutAt 0x3a line).map fun c =>
    ((Bytes.strip Bytes.isSpace c.1).map Bytes.lower, Bytes.strip Bytes.isSpace c.2)

theorem isHeaderLine_iff {name value line : Bytes} :
    IsHeaderLine name value line ↔ header_of line = some (name, value) := by
  simp only [IsHeaderLine, header_of, Option.map_eq_some_iff, Prod.exists, Prod.mk.injEq,
    Bytes.cutAt_eq_some_iff, Bytes.isStrip_iff]
  constructor
  · intro h
    obtain ⟨before, after, _, hline, hcolon, rfl, rfl, rfl⟩ := h
    exact ⟨before, after, ⟨hline, hcolon⟩, rfl, rfl⟩
  · intro h
    obtain ⟨before, after, ⟨hline, hcolon⟩, rfl, rfl⟩ := h
    exact ⟨before, after, _, hline, hcolon, rfl, rfl, rfl⟩

/-- A stored name is lower-case. -/
theorem header_of_lower {line name value : Bytes} (h : header_of line = some (name, value)) :
    ∀ b ∈ name, Bytes.isUpper b = false := by
  simp only [header_of, Option.map_eq_some_iff, Prod.exists, Prod.mk.injEq] at h
  obtain ⟨_, _, -, rfl, -⟩ := h
  intro b hb
  exact Bytes.not_isUpper_of_mem_map_lower hb

/-- A line as it is stored: a colon-free line leaves no trace. -/
def store_line (resp : response) (line : Bytes) : response :=
  { resp with m_headers := resp.m_headers ++ (header_of line).toList }

/-- Every byte `write_header` passes to `::tolower` for this line is in its
    domain. -/
def lowerable_line (line : Bytes) : Bool :=
  match Bytes.cutAt 0x3a line with
  | none => true
  | some c => (Bytes.strip Bytes.isSpace c.1).all t.lowerable

@[simp] theorem linux_lowerable_line (s d : Bool) (v line : Bytes) :
    lowerable_line (Target.linux s d v) line = true := by
  unfold lowerable_line
  split <;> simp

/-- The loop at index `i` has seen no colon in `ptr.take i`. -/
theorem write_header_loop_eq (ptr : Bytes) (resp : response) (rest : Bytes) :
    ∀ seen, ptr = seen ++ rest → 0x3a ∉ seen →
      write_header_loop t ptr resp seen.length rest =
        if lowerable_line t ptr then .ok (store_line resp ptr) else .error .ctype_domain := by
  induction rest with
  | nil =>
    -- no colon at all: the line is dropped
    intro seen hptr hseen
    have hnone : Bytes.cutAt 0x3a ptr = none := by
      rw [Bytes.cutAt_eq_none_iff, hptr, List.append_nil]; exact hseen
    simp [write_header_loop, lowerable_line, store_line, header_of, hnone]
  | cons ch rest ih =>
    intro seen hptr hseen
    by_cases hch : ch = 0x3a
    · -- the first colon: the line is cut here
      subst hch
      have hcut : Bytes.cutAt 0x3a ptr = some (seen, rest) := by
        rw [hptr]; exact Bytes.cutAt_append hseen rest
      have htake : ptr.take seen.length = seen := by rw [hptr]; simp
      have hdrop : ptr.drop (seen.length + 1) = rest := by rw [hptr]; simp
      simp only [write_header_loop, htake, hdrop, trim_eq_strip, response.add_header_eq,
        lowerable_line, store_line, header_of, hcut]
      simp
    · -- one more byte without a colon
      have hstep := ih (seen ++ [ch]) (by rw [hptr]; simp) (by simp [hseen, Ne.symm hch])
      rw [List.length_append, List.length_singleton] at hstep
      rw [write_header_loop, if_pos hch]
      exact hstep

/-- **`write_header`**: the line is stored as the reference reads it, and
    the whole line counts as handled. -/
theorem write_header_eq (line : Bytes) (size : Nat) (resp : response) :
    write_header t (some line) size resp =
      if lowerable_line t line then .ok (size * line.length, store_line resp line)
      else .error .ctype_domain := by
  unfold write_header
  have hloop := write_header_loop_eq t line resp line [] rfl (by simp)
  simp only [List.length_nil] at hloop
  simp only [hloop]
  split <;> simp

theorem write_data_eq (chunk : Bytes) (resp : response) :
    write_data t (some chunk) 1 resp = .ok (chunk.length, resp.append_body chunk) := by
  simp [write_data]

/-! ### A sequence of header lines -/

/-- libcurl passing each line to `write_header`: the sizes returned, and the
    response after the last one. -/
def feed_headers : List Bytes → response → Checked (List Nat × response)
  | [], resp => .ok ([], resp)
  | line :: lines, resp => do
    let (n, resp) ← write_header t (some line) 1 resp
    let (ns, resp) ← feed_headers lines resp
    .ok (n :: ns, resp)

/-- The fields a sequence of lines gives, in order. -/
def headers_of (lines : List Bytes) : List (Bytes × Bytes) := lines.filterMap header_of

theorem headers_of_cons (line : Bytes) (lines : List Bytes) :
    headers_of (line :: lines) = (header_of line).toList ++ headers_of lines := by
  unfold headers_of
  cases h : header_of line <;> simp [h]

theorem feed_headers_eq {lines : List Bytes} (h : ∀ line ∈ lines, lowerable_line t line)
    (resp : response) :
    feed_headers t lines resp = .ok (lines.map List.length,
      { resp with m_headers := resp.m_headers ++ headers_of lines }) := by
  induction lines generalizing resp with
  | nil => simp [feed_headers, headers_of]
  | cons line lines ih =>
    have hline := h line (by simp)
    have hrest := ih (fun l hl => h l (by simp [hl])) (store_line resp line)
    have hhead := write_header_eq t line 1 resp
    rw [if_pos hline] at hhead
    unfold feed_headers
    simp only [hhead, hrest, Checked.ok_bind, headers_of_cons]
    simp [store_line]

/-! ### Looking a field up -/

/-- The first field of that name. -/
def lookup (name : Bytes) (hs : List (Bytes × Bytes)) : Option Bytes :=
  (hs.find? fun p => p.1 = name).map Prod.snd

/-- `get_header`, for a C string that holds its text whole. -/
theorem get_header_eq (resp : response) {h : Bytes} (hnul : 0 ∉ h) :
    resp.get_header h =
      match lookup h resp.m_headers with
      | none => .failure false
      | some v => .result v := by
  have hm : response.matches_header h = fun p => decide (p.1 = h) := by
    funext p; simp [response.matches_header, Bytes.c_str_of_not_mem hnul]
  unfold response.get_header lookup
  rw [hm]
  cases resp.m_headers.find? fun p => decide (p.1 = h) <;> rfl

theorem lookup_cons (name : Bytes) (p : Bytes × Bytes) (hs : List (Bytes × Bytes)) :
    lookup name (p :: hs) = if p.1 = name then some p.2 else lookup name hs := by
  unfold lookup
  by_cases h : p.1 = name <;> simp [h]

/-- What the store answers is the text of the first line of that name. -/
theorem lookup_headers_of_iff {lines : List Bytes} {name value : Bytes} :
    lookup name (headers_of lines) = some value ↔
      ∃ pre line post, lines = pre ++ line :: post ∧ IsHeaderLine name value line ∧
        ∀ l ∈ pre, ∀ v, ¬ IsHeaderLine name v l := by
  simp only [isHeaderLine_iff]
  induction lines with
  | nil => simp [headers_of, lookup]
  | cons line lines ih =>
    -- either the first line has the name, or the answer is that of the rest
    by_cases hfirst : ∃ v, header_of line = some (name, v)
    · obtain ⟨v, hv⟩ := hfirst
      rw [headers_of_cons, hv, Option.toList_some, List.singleton_append, lookup_cons, if_pos rfl]
      constructor
      · intro h
        obtain rfl : v = value := by simpa using h
        exact ⟨[], line, lines, rfl, hv, by simp⟩
      · intro h
        obtain ⟨pre, line', post, hsplit, hline', hpre⟩ := h
        cases pre with
        | nil =>
          obtain ⟨rfl, rfl⟩ : line = line' ∧ lines = post := by simpa using hsplit
          rw [hv] at hline'; simpa using hline'
        | cons l pre =>
          obtain ⟨rfl, -⟩ : line = l ∧ lines = pre ++ line' :: post := by simpa using hsplit
          exact absurd hv (hpre line (by simp) v)
    · have hskip : lookup name (headers_of (line :: lines)) = lookup name (headers_of lines) := by
        rw [headers_of_cons]
        cases hl : header_of line with
        | none => rfl
        | some p =>
          rw [Option.toList_some, List.singleton_append, lookup_cons, if_neg]
          intro hp
          exact hfirst ⟨p.2, by rw [hl, ← hp]⟩
      rw [hskip, ih]
      constructor
      · intro h
        obtain ⟨pre, line', post, rfl, hline', hpre⟩ := h
        refine ⟨line :: pre, line', post, rfl, hline', ?_⟩
        intro l hl v hv
        rcases List.mem_cons.mp hl with rfl | hl
        · exact hfirst ⟨v, hv⟩
        · exact hpre l hl v hv
      · intro h
        obtain ⟨pre, line', post, hsplit, hline', hpre⟩ := h
        cases pre with
        | nil =>
          obtain ⟨rfl, -⟩ : line = line' ∧ lines = post := by simpa using hsplit
          exact absurd ⟨value, hline'⟩ hfirst
        | cons l pre =>
          obtain ⟨rfl, rfl⟩ : line = l ∧ lines = pre ++ line' :: post := by simpa using hsplit
          exact ⟨pre, line', post, rfl, hline', fun l hl => hpre l (by simp [hl])⟩

theorem lookup_headers_of_isSome_iff {lines : List Bytes} {name : Bytes} :
    (lookup name (headers_of lines)).isSome ↔
      ∃ line ∈ lines, ∃ value, IsHeaderLine name value line := by
  simp only [lookup, headers_of, isHeaderLine_iff, Option.isSome_map, List.find?_isSome,
    List.mem_filterMap, decide_eq_true_eq, Prod.exists]
  constructor
  · intro h
    obtain ⟨_, value, ⟨line, hmem, hline⟩, rfl⟩ := h
    exact ⟨line, hmem, value, hline⟩
  · intro h
    obtain ⟨line, hmem, value, hline⟩ := h
    exact ⟨name, value, ⟨line, hmem, hline⟩, rfl⟩

/-- No stored name has an upper-case letter. -/
theorem lookup_headers_of_upper {lines : List Bytes} {name : Bytes}
    (h : ∃ b ∈ name, Bytes.isUpper b) : lookup name (headers_of lines) = none := by
  rw [← Option.not_isSome_iff_eq_none, lookup_headers_of_isSome_iff]
  intro hfound
  obtain ⟨line, -, value, hline⟩ := hfound
  obtain ⟨b, hb, hupper⟩ := h
  have hlower := header_of_lower (isHeaderLine_iff.mp hline) b hb
  exact Bool.false_ne_true (hlower.symm.trans hupper)

/-- **Header parser and store**: on a target whose `::tolower` is ASCII
    lower-casing, after any sequence of byte lines the store answers every
    query as the reference reading of the lines does. -/
theorem header_store_reference (s d : Bool) (v : Bytes) (lines : List Bytes) :
    ∃ resp, feed_headers (Target.linux s d v) lines .default_init =
        .ok (lines.map List.length, resp) ∧
      (∀ h, 0 ∉ h → (∀ b ∈ h, Bytes.isUpper b = false) →
        ((resp.get_header h).is_success ↔ ∃ line ∈ lines, ∃ value, IsHeaderLine h value line) ∧
        ∀ value, resp.get_header h = .result value ↔
          ∃ pre line post, lines = pre ++ line :: post ∧ IsHeaderLine h value line ∧
            ∀ l ∈ pre, ∀ v, ¬ IsHeaderLine h v l) ∧
      (∀ h, resp.has_header h = (resp.get_header h).is_success) ∧
      (∀ h, 0 ∉ h → (∃ b ∈ h, Bytes.isUpper b) → (resp.get_header h).is_success = false) ∧
      (∀ line r, 0x3a ∉ line →
        write_header (Target.linux s d v) (some line) 1 r = .ok (line.length, r)) := by
  have hlower : ∀ line ∈ lines, lowerable_line (Target.linux s d v) line := by simp
  have hfeed := feed_headers_eq (Target.linux s d v) hlower .default_init
  refine ⟨_, hfeed, ?_, response.has_header_eq_is_success _, ?_, ?_⟩
  · -- success, and the text of the first line
    intro h hnul _
    rw [get_header_eq _ hnul]
    have hfields : response.default_init.m_headers ++ headers_of lines = headers_of lines := rfl
    simp only [hfields, ← lookup_headers_of_isSome_iff, ← lookup_headers_of_iff]
    cases lookup h (headers_of lines) <;> simp
  · intro h hnul hupper
    have hnone : lookup h (response.default_init.m_headers ++ headers_of lines) = none :=
      lookup_headers_of_upper hupper
    rw [get_header_eq _ hnul]
    simp only [hnone, outcome.is_success_failure]
  · -- a line without a colon
    intro line r hcolon
    have hnone : header_of line = none := by
      simp [header_of, Bytes.cutAt_eq_none_iff.mpr hcolon]
    rw [write_header_eq, if_pos (linux_lowerable_line ..)]
    simp [store_line, hnone]

end LambdaCpp
