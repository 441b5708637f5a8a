import LambdaCpp.Target

/-! # `aws::logging::log`

    A message is formatted twice: once without a buffer, for its length, and
    once into a buffer of that length, which is on the stack or on the heap.
    The line is then printed with the buffer as a C string.

    What `vsnprintf` makes of a format and its arguments is an input here.
    Buffers remember which of their bytes were ever written.
-/

namespace LambdaCpp

open Bytes (ascii)

/-! ### Integers and buffers -/

def INT_MAX : Nat := 2 ^ 31 - 1

/-- The result of an `int` operation. -/
def int (n : Int) : Checked Int :=
  if -2 ^ 31 ≤ n ∧ n ≤ INT_MAX then .ok n else .error .signed_overflow

/-- A `char` array; a byte that was never written has no value. -/
abbrev Buffer : Type := List (Option UInt8)

def uninitialised (capacity : Nat) : Buffer := List.replicate capacity none

/-- Reading the buffer as a C string. -/
def read_c_string : Buffer → Checked Bytes
  | [] => .error .out_of_range
  | none :: _ => .error .indeterminate
  | some b :: rest =>
    if b = 0 then .ok [] else do
      let s ← read_c_string rest
      return b :: s

/-- What `vsnprintf` makes of a format and its arguments, at every call: a
    negative value, or a text whose length fits in an `int`. -/
inductive Formatted where
  | error (code : Int) (negative : code < 0) (representable : -2 ^ 31 ≤ code)
  | text (s : Bytes) (bounded : s.length ≤ INT_MAX)

namespace Formatted

/-- The value `vsnprintf` returns. -/
def value : Formatted → Int
  | error code _ _ => code
  | text s _ => s.length

/-- What `vsnprintf(buf, n, fmt, args)` leaves in the buffer. -/
def write (buf : Buffer) (n : Nat) : Formatted → Checked Buffer
  | error _ _ _ => .ok buf
  | text s _ =>
    if n = 0 then .ok buf
    else
      let written := (s.take (n - 1)).map some ++ [some 0]
      if written.length ≤ buf.length then .ok (written ++ buf.drop written.length)
      else .error .out_of_range

end Formatted

/-! ### The code -/

/-- `enum class verbosity : std::uint8_t`. -/
inductive verbosity where
  | error | info | debug
  | other (value : UInt8)
  deriving DecidableEq, Repr

def get_prefix : verbosity → Bytes
  | .error => ascii "[ERROR]"
  | .info => ascii "[INFO]"
  | .debug => ascii "[DEBUG]"
  | .other _ => ascii "[UNKNOWN]"

/-- `%lld`. -/
def signed_decimal (n : Int) : Bytes :=
  if n < 0 then 0x2d :: Bytes.decimal n.natAbs else Bytes.decimal n.natAbs

/-- What `log` does, in order. -/
inductive LogEvent where
  | vsnprintf (capacity n : Nat)
  | puts (s : Bytes)
  | new_array (size : Nat)
  /-- `printf`, taken to write its whole output, also where that is longer
      than the `INT_MAX` bytes that it can return; `log` ignores what it
      returns. -/
  | printf (line : Bytes)
  | fflush
  | delete_array
  deriving DecidableEq, Repr

/-- `"%s [%lld] %s %s\n"`. -/
def log_line (v : verbosity) (ms : Int) (tag text : Bytes) : Bytes :=
  get_prefix v ++ ascii " [" ++ signed_decimal ms ++ ascii "] " ++ Bytes.c_str tag ++ ascii " " ++
    text ++ ascii "\n"

def formatting_error : Bytes := ascii "error occurred during log formatting!\n"

def max_stack_buffer_size : Nat := 512

/-- `log(v, tag, msg, args)` at time `ms`; allocation succeeds. -/
def log (v : verbosity) (tag : Bytes) (format : Formatted) (ms : Int) :
    Checked (List LogEvent) := do
  let sz ← int (format.value + 1)
  if sz < 0 then
    return [.vsnprintf 0 0, .puts formatting_error]
  else
    let on_heap := decide (sz ≥ max_stack_buffer_size)
    let capacity := if on_heap then sz.toNat else max_stack_buffer_size
    let out ← format.write (uninitialised capacity) sz.toNat
    let text ← read_c_string out
    return [.vsnprintf 0 0] ++ (if on_heap then [.new_array sz.toNat] else []) ++
      [.vsnprintf capacity sz.toNat, .printf (log_line v ms tag text), .fflush] ++
      if on_heap then [.delete_array] else []

/-- `log_error`, `log_info` and `log_debug`, which the build's
    `AWS_LAMBDA_LOG` can turn off. -/
def log_at (v : verbosity) (threshold level : Nat) (tag : Bytes) (format : Formatted) (ms : Int) :
    Checked (List LogEvent) :=
  if level ≥ threshold then log v tag format ms else .ok []

def log_error : Nat → Bytes → Formatted → Int → Checked (List LogEvent) := log_at .error 0

def log_info : Nat → Bytes → Formatted → Int → Checked (List LogEvent) := log_at .info 1

def log_debug : Nat → Bytes → Formatted → Int → Checked (List LogEvent) := log_at .debug 2

/-! ### What callers rely on -/

/-- What reaches standard output. -/
def LogEvent.output : LogEvent → Option Bytes
  | .puts s => some (s ++ ascii "\n")
  | .printf line => some line
  | _ => none

def LogEvent.is_allocation : LogEvent → Bool
  | .new_array _ => true
  | _ => false

/-- A message was logged in full. -/
structure Complete (text : Bytes) (events : List LogEvent) : Prop where
  /-- One line is printed, with the whole text. -/
  printed : ∃ line, events.filterMap LogEvent.output = [line] ∧ text <:+: line
  /-- The buffer has room for the text and its terminator. -/
  fits : ∃ capacity, .vsnprintf capacity (text.length + 1) ∈ events ∧ text.length + 1 ≤ capacity
  /-- A heap buffer is released once if there was one. -/
  released : events.count .delete_array = events.countP LogEvent.is_allocation
  allocated : events.countP LogEvent.is_allocation ≤ 1

/-- `log` never prints a truncated or uninitialised message. -/
def Reliable (format : Formatted) (logged : Checked (List LogEvent)) : Prop :=
  match format with
  | .error _ _ _ => logged = .ok [.vsnprintf 0 0, .puts formatting_error]
  | .text s _ => ∃ events, logged = .ok events ∧ Complete s events

/-- The messages `log` can print: the value `-1` does not look negative once
    it is incremented, `INT_MAX` cannot be incremented, and `%s` stops at a
    NUL. -/
def Formatted.printable : Formatted → Prop
  | .error code _ _ => code ≠ -1
  | .text s _ => s.length ≠ INT_MAX ∧ 0 ∉ s

/-! ### Formatting into the buffer -/

/-- A terminated text is read back up to its first NUL, whatever follows. -/
theorem read_c_string_terminated (s : Bytes) (rest : Buffer) :
    read_c_string (s.map some ++ some 0 :: rest) = .ok (Bytes.c_str s) := by
  induction s with
  | nil => rfl
  | cons b s ih =>
    by_cases hb : b = 0
    · subst hb
      rfl
    · simp [read_c_string, hb, ih, Bytes.c_str]

theorem read_c_string_uninitialised {capacity : Nat} (h : 0 < capacity) :
    read_c_string (uninitialised capacity) = .error .indeterminate := by
  obtain ⟨n, rfl⟩ := Nat.exists_eq_succ_of_ne_zero (Nat.pos_iff_ne_zero.mp h)
  rfl

/-- A buffer with room for the terminator receives the whole text. -/
theorem write_text {s : Bytes} (hs : s.length ≤ INT_MAX) {capacity : Nat}
    (hroom : s.length + 1 ≤ capacity) :
    ∃ rest, (Formatted.text s hs).write (uninitialised capacity) (s.length + 1) =
      .ok (s.map some ++ some 0 :: rest) := by
  refine ⟨(uninitialised capacity).drop (s.length + 1), ?_⟩
  simp [Formatted.write, uninitialised, hroom]

theorem int_of_fits {n : Int} (hlow : -2 ^ 31 ≤ n) (hhigh : n ≤ INT_MAX) : int n = .ok n :=
  if_pos ⟨hlow, hhigh⟩

/-! ### The four cases -/

variable (v : verbosity) (tag : Bytes) (ms : Int)

/-- A value below `-1` is recognised as an error. -/
theorem log_error_code {code : Int} (hneg : code < 0) (hrep : -2 ^ 31 ≤ code) (hcode : code ≠ -1) :
    log v tag (.error code hneg hrep) ms = .ok [.vsnprintf 0 0, .puts formatting_error] := by
  have hsz : int (code + 1) = .ok (code + 1) := int_of_fits (by omega) (by unfold INT_MAX; omega)
  have hnegative : code + 1 < 0 := by omega
  simp [log, Formatted.value, hsz, hnegative]

/-- The value `-1` becomes the size `0`, which nothing is written for. -/
theorem log_minus_one (hneg : (-1 : Int) < 0) (hrep : -2 ^ 31 ≤ (-1 : Int)) :
    log v tag (.error (-1) hneg hrep) ms = .error .indeterminate := by
  have hsz : int 0 = .ok 0 := int_of_fits (by omega) (by decide)
  have hread : read_c_string (uninitialised max_stack_buffer_size) = .error .indeterminate :=
    read_c_string_uninitialised (by decide)
  have hstack : max_stack_buffer_size ≠ 0 := by decide
  simp [log, Formatted.value, Formatted.write, hsz, hread, hstack]

theorem log_int_max {s : Bytes} (hs : s.length ≤ INT_MAX) (hmax : s.length = INT_MAX) :
    log v tag (.text s hs) ms = .error .signed_overflow := by
  have hsz : int ((s.length : Int) + 1) = .error .signed_overflow := by
    apply if_neg
    omega
  simp [log, Formatted.value, hsz]

/-- The size of the buffer a message of size `sz` is formatted into. -/
def buffer_capacity (sz : Nat) : Nat :=
  if max_stack_buffer_size ≤ sz then sz else max_stack_buffer_size

theorem le_buffer_capacity (sz : Nat) : sz ≤ buffer_capacity sz := by
  unfold buffer_capacity
  split <;> omega

/-- What `log` does for a message whose size is an `int`. -/
def text_events (s : Bytes) : List LogEvent :=
  [.vsnprintf 0 0] ++
    (if max_stack_buffer_size ≤ s.length + 1 then [.new_array (s.length + 1)] else []) ++
    [.vsnprintf (buffer_capacity (s.length + 1)) (s.length + 1),
      .printf (log_line v ms tag (Bytes.c_str s)), .fflush] ++
    if max_stack_buffer_size ≤ s.length + 1 then [.delete_array] else []

/-- **Every other message** is formatted in full and printed as a C string. -/
theorem log_text {s : Bytes} (hs : s.length ≤ INT_MAX) (hmax : s.length ≠ INT_MAX) :
    log v tag (.text s hs) ms = .ok (text_events v tag ms s) := by
  have hsz : int ((s.length : Int) + 1) = .ok ((s.length + 1 : Nat) : Int) := by
    rw [Int.natCast_add]
    apply int_of_fits <;> omega
  obtain ⟨rest, hwrite⟩ := write_text hs (le_buffer_capacity (s.length + 1))
  have hread := read_c_string_terminated s rest
  have hnot : ¬ ((s.length + 1 : Nat) : Int) < 0 := by omega
  unfold log
  simp only [Formatted.value, hsz, Checked.ok_bind, hnot, if_false, Int.toNat_natCast,
    decide_eq_true_eq, ge_iff_le, Int.ofNat_le]
  show ((Formatted.text s hs).write (uninitialised (buffer_capacity (s.length + 1))) (s.length + 1)
    >>= fun out => _) = _
  rw [hwrite, Checked.ok_bind, hread]
  rfl

/-! ### The line -/

theorem text_events_output (s : Bytes) :
    (text_events v tag ms s).filterMap LogEvent.output = [log_line v ms tag (Bytes.c_str s)] := by
  unfold text_events
  split <;> rfl

theorem infix_log_line (text : Bytes) : text <:+: log_line v ms tag text :=
  ⟨_, ascii "\n", rfl⟩

theorem not_nul_level : (0 : UInt8) ∉ get_prefix v := by
  cases v <;> simp only [ get_prefix] <;> decide

theorem not_nul_signed_decimal (n : Int) : (0 : UInt8) ∉ signed_decimal n := by
  have hdecimal : ∀ n, (0 : UInt8) ∉ Bytes.decimal n := by
    intro n hmem
    have hdigit := Bytes.isDigit_decimal n 0 hmem
    cases hdigit
  unfold signed_decimal
  split
  · intro hmem
    rcases List.mem_cons.mp hmem with hsign | hmem
    · cases hsign
    · exact hdecimal _ hmem
  · exact hdecimal _

/-- Only the text could bring a NUL into the line. -/
theorem not_nul_log_line {text : Bytes} (h : (0 : UInt8) ∉ text) :
    (0 : UInt8) ∉ log_line v ms tag text := by
  have hspace : (0 : UInt8) ∉ ascii " [" ∧ (0 : UInt8) ∉ ascii "] " ∧ (0 : UInt8) ∉ ascii " " ∧
      (0 : UInt8) ∉ ascii "\n" := by decide
  obtain ⟨hopen, hclose, hblank, hend⟩ := hspace
  simp only [log_line, List.mem_append, not_or]
  exact ⟨⟨⟨⟨⟨⟨⟨not_nul_level v, hopen⟩, not_nul_signed_decimal ms⟩, hclose⟩,
    Bytes.not_mem_c_str tag⟩, hblank⟩, h⟩, hend⟩

/-- A text without NULs is logged in full. -/
theorem text_events_complete {s : Bytes} (hnul : (0 : UInt8) ∉ s) :
    Complete s (text_events v tag ms s) where
  printed := by
    refine ⟨log_line v ms tag s, ?_, infix_log_line v tag ms s⟩
    rw [text_events_output, Bytes.c_str_of_not_mem hnul]
  fits := by
    refine ⟨buffer_capacity (s.length + 1), ?_, le_buffer_capacity _⟩
    simp [text_events]
  released := by
    unfold text_events
    split <;> rfl
  allocated := by
    unfold text_events
    split
    · exact Nat.le_refl 1
    · exact Nat.zero_le 1

/-- A text with a NUL is not in the line, which has none. -/
theorem not_complete_of_nul {s : Bytes} (hnul : (0 : UInt8) ∈ s) :
    ¬ Complete s (text_events v tag ms s) := by
  intro h
  obtain ⟨line, hline, hinfix⟩ := h.printed
  rw [text_events_output, List.singleton_inj] at hline
  have hmem : (0 : UInt8) ∈ line := hinfix.subset hnul
  rw [← hline] at hmem
  exact not_nul_log_line v tag ms (Bytes.not_mem_c_str s) hmem

/-- **What `log` can print**: exactly the `printable` messages are handled
    as callers rely on, for every verbosity, tag and time. -/
theorem log_reliable_iff (format : Formatted) :
    Reliable format (log v tag format ms) ↔ format.printable := by
  cases format with
  | error code hneg hrep =>
    show log v tag (.error code hneg hrep) ms = _ ↔ code ≠ -1
    by_cases hcode : code = -1
    · subst hcode
      rw [log_minus_one]
      simp
    · rw [log_error_code v tag ms hneg hrep hcode]
      simp [hcode]
  | text s hs =>
    show (∃ events, log v tag (.text s hs) ms = .ok events ∧ Complete s events) ↔
      s.length ≠ INT_MAX ∧ 0 ∉ s
    by_cases hmax : s.length = INT_MAX
    · rw [log_int_max v tag ms hs hmax]
      simp [hmax]
    · rw [log_text v tag ms hs hmax]
      constructor
      · intro h
        obtain ⟨events, heq, hcomplete⟩ := h
        refine ⟨hmax, ?_⟩
        intro hnul
        rw [← Except.ok.inj heq] at hcomplete
        exact not_complete_of_nul v tag ms hnul hcomplete
      · intro h
        exact ⟨_, rfl, text_events_complete v tag ms h.2⟩

/-- When formatting fails with `-1` (as in the GNU C library), the line is
    printed from a buffer nothing was written to. -/
theorem log_prints_uninitialised :
    log .error (ascii "LAMBDA_RUNTIME") (.error (-1) (by decide) (by decide)) 0 =
        .error .indeterminate ∧
      ¬ Reliable (.error (-1) (by decide) (by decide))
        (log .error (ascii "LAMBDA_RUNTIME") (.error (-1) (by decide) (by decide)) 0) := by
  refine ⟨log_minus_one .error (ascii "LAMBDA_RUNTIME") 0 _ _, ?_⟩
  show ¬ log .error (ascii "LAMBDA_RUNTIME") _ 0 = _
  rw [log_minus_one]
  simp

end LambdaCpp
