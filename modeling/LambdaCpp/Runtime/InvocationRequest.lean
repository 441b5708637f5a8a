import LambdaCpp.Outcome

/-! # `invocation_request` and Its Deadline

    The deadline of an invocation goes through three representations: the
    `unsigned long` that `strtoul` returns, a signed 64-bit count of
    milliseconds, and the signed 64-bit count of nanoseconds of
    `system_clock`.  Every step that the standard leaves undefined on
    overflow is a `Fault` here.
-/

namespace LambdaCpp

/-! ### Integers -/

def ULONG_MAX : Nat := 2 ^ 64 - 1

def fits_int64 (n : Int) : Bool := -2 ^ 63 ≤ n && n < 2 ^ 63

/-- The result of a signed 64-bit operation. -/
def int64 (n : Int) : Checked Int :=
  if fits_int64 n then .ok n else .error .signed_overflow

/-- An `unsigned long` converted to a signed 64-bit integer. -/
def to_int64 (n : Nat) : Int := Int.bmod n (2 ^ 64)

theorem to_int64_of_lt {n : Nat} (h : n < 2 ^ 63) : to_int64 n = n := by
  unfold to_int64
  apply Int.bmod_eq_of_le <;> omega

/-- Whether there is a minus sign, and what follows the sign if there is
    one. -/
def take_sign : Bytes → Bool × Bytes
  | 0x2d :: s => (true, s)
  | 0x2b :: s => (false, s)
  | s => (false, s)

/-- `strtoul(s, nullptr, 10)`: white space, a sign, digits; a value that does
    not fit is `ULONG_MAX`, and a minus sign negates in `unsigned long`. -/
def strtoul (s : Bytes) : Nat :=
  let signed := take_sign ((Bytes.c_str s).dropWhile Bytes.isSpace)
  let n := Bytes.decimalVal (signed.2.takeWhile Bytes.isDigit)
  if n > ULONG_MAX then ULONG_MAX
  else if signed.1 then (2 ^ 64 - n) % 2 ^ 64
  else n

theorem digit_plain : ∀ b : UInt8, Bytes.isDigit b = true →
    b ≠ 0 ∧ Bytes.isSpace b = false ∧ b ≠ 0x2d ∧ b ≠ 0x2b :=
  Bytes.forall_byte (by decide +kernel)

theorem take_sign_of_digits {s : Bytes} (hdigits : ∀ b ∈ s, Bytes.isDigit b) :
    take_sign s = (false, s) := by
  unfold take_sign
  -- a digit is no sign
  split
  · exact absurd rfl (digit_plain _ (hdigits _ (by simp))).2.2.1
  · exact absurd rfl (digit_plain _ (hdigits _ (by simp))).2.2.2
  · rfl

/-- `strtoul` reads a run of digits that fits as its decimal value. -/
theorem strtoul_of_digits {s : Bytes} (hdigits : ∀ b ∈ s, Bytes.isDigit b)
    (hfits : Bytes.decimalVal s ≤ ULONG_MAX) : strtoul s = Bytes.decimalVal s := by
  have hnul : (0 : UInt8) ∉ s := by
    intro h
    exact (digit_plain 0 (hdigits 0 h)).1 rfl
  have hspace : s.dropWhile Bytes.isSpace = s := by
    apply Bytes.dropWhile_of_head
    intro b hb
    simp [(digit_plain b (hdigits b (List.mem_of_mem_head? hb))).2.1]
  have htake : s.takeWhile Bytes.isDigit = s := List.takeWhile_eq_self_iff.mpr hdigits
  have hfits : ¬ Bytes.decimalVal s > ULONG_MAX := by omega
  unfold strtoul
  rw [Bytes.c_str_of_not_mem hnul, hspace, take_sign_of_digits hdigits]
  simp [htake, hfits]

/-! ### The request -/

structure invocation_request where
  payload : Bytes
  request_id : Bytes
  xray_trace_id : Bytes
  client_context : Bytes
  cognito_identity : Bytes
  function_arn : Bytes
  content_type : Bytes
  /-- Nanoseconds since the epoch. -/
  deadline : Int
  tenant_id : Bytes
  invocation_id : Bytes
  deriving DecidableEq, Repr

/-- `invocation_request req;` -/
def invocation_request.default_init : invocation_request where
  payload := []
  request_id := []
  xray_trace_id := []
  client_context := []
  cognito_identity := []
  function_arn := []
  content_type := []
  deadline := 0
  tenant_id := []
  invocation_id := []

/-- `deadline += std::chrono::milliseconds(ms)`. -/
def add_milliseconds (deadline : Int) (ms : Nat) : Checked Int := do
  let count := to_int64 ms
  -- milliseconds are converted to the nanoseconds of system_clock
  let ns ← int64 (count * 1000000)
  int64 (deadline + ns)

/-- `duration_cast<milliseconds>(deadline - system_clock::now())`. -/
def get_time_remaining (req : invocation_request) (now : Int) : Checked Int := do
  let remaining ← int64 (req.deadline - now)
  return remaining.tdiv 1000000

/-! ### Reading the deadline header -/

variable (t : Target)

/-- The deadline branch of `get_next`; the remaining time is computed for
    the log. -/
def read_deadline (now : Int) (deadline_string : Bytes) (req : invocation_request) :
    Checked invocation_request := do
  let ms := strtoul deadline_string
  t.assert (0 < ms)
  t.assert (ms < ULONG_MAX)
  let deadline ← add_milliseconds req.deadline ms
  let req := { req with deadline := deadline }
  let _ ← get_time_remaining req now
  return req

/-- The texts `read_deadline` can process: both assertions hold where they
    are compiled in, and no signed computation overflows. -/
def deadline_ok (now : Int) (text : Bytes) : Bool :=
  (t.ndebug || (0 < strtoul text && strtoul text < ULONG_MAX)) &&
    fits_int64 (to_int64 (strtoul text) * 1000000) &&
    fits_int64 (to_int64 (strtoul text) * 1000000 - now)

theorem int64_twice (n : Int) : (int64 n >>= int64 : Checked Int) = int64 n := by
  cases hn : fits_int64 n <;> simp [int64, hn]

/-- Only whether a discarded computation succeeds matters. -/
theorem discard_bind {α β γ : Type} (x : Checked α) (g : α → β) (c : Checked γ) :
    (do let _ ← (do let a ← x; return g a); c) = (do let _ ← x; c) := by
  cases x <;> simp

theorem add_milliseconds_zero (ms : Nat) :
    add_milliseconds 0 ms = int64 (to_int64 ms * 1000000) := by
  have h := int64_twice (to_int64 ms * 1000000)
  simp only [add_milliseconds, Int.zero_add]
  exact h

/-- The checks of `read_deadline`, in the order the code makes them. -/
theorem deadline_checks_eq {α : Type} (positive below : Bool) (ns now : Int) (f : Int → α) :
    let checked : Checked α := do
      t.assert positive
      t.assert below
      let deadline ← int64 ns
      let _ ← int64 (deadline - now)
      return f deadline
    if (t.ndebug || (positive && below)) && fits_int64 ns && fits_int64 (ns - now) then
      checked = .ok (f ns)
    else ∃ e, checked = .error e := by
  simp only [Target.assert, int64]
  cases t.ndebug <;> cases positive <;> cases below <;> cases hns : fits_int64 ns <;>
    cases hremaining : fits_int64 (ns - now) <;> simp [hremaining]

/-- From the epoch, `read_deadline` succeeds exactly on the texts that are
    `deadline_ok`. -/
theorem read_deadline_eq {now : Int} {text : Bytes} {req : invocation_request}
    (hreq : req.deadline = 0) :
    if deadline_ok t now text then
      read_deadline t now text req =
        .ok { req with deadline := to_int64 (strtoul text) * 1000000 }
    else ∃ e, read_deadline t now text req = .error e := by
  have h := deadline_checks_eq t (0 < strtoul text) (strtoul text < ULONG_MAX)
    (to_int64 (strtoul text) * 1000000) now fun deadline => { req with deadline := deadline }
  have hcode : read_deadline t now text req = (do
      t.assert (0 < strtoul text)
      t.assert (strtoul text < ULONG_MAX)
      let deadline ← int64 (to_int64 (strtoul text) * 1000000)
      let _ ← int64 (deadline - now)
      return { req with deadline := deadline }) := by
    simp only [read_deadline, get_time_remaining, hreq, add_milliseconds_zero, discard_bind]
  rw [hcode]
  exact h

end LambdaCpp
