import LambdaCpp.Runtime.GetNext

/-! # How Far Deadlines Are Exact

    The number in the deadline header passes through an `unsigned long`, a
    signed count of milliseconds and a signed count of nanoseconds.  The
    assertions of `get_next` look at the first of the three only.

    * Up to `LAST_MILLISECOND` every step keeps the value.
    * Above it the conversion to nanoseconds overflows, or, from `2 ^ 63`
      on, the conversion to a signed count changes the value.
-/

namespace LambdaCpp

open Bytes (ascii)

/-- The last whole millisecond that `system_clock` can represent. -/
def LAST_MILLISECOND : Nat := 9223372036854

/-- The texts the assertions of `get_next` are made for. -/
structure Asserted (text : Bytes) : Prop where
  digits : ∀ b ∈ text, Bytes.isDigit b
  positive : 0 < Bytes.decimalVal text
  below : Bytes.decimalVal text < ULONG_MAX

/-- Nothing on the way from the text to the time remaining changes the
    value: `req` has the deadline of `n` milliseconds, and the time
    remaining is measured from it. -/
structure ExactDeadline (text : Bytes) (n : Nat) (req : invocation_request) : Prop where
  parsed : strtoul text = n
  converted : to_int64 (strtoul text) = n
  deadline : req.deadline = n * 1000000
  remaining : ∀ now : Int, 0 ≤ now → now < 2 ^ 63 →
    get_time_remaining req now = .ok ((n * 1000000 - now).tdiv 1000000)

/-! ### The three ranges -/

theorem fits_int64_iff {n : Int} : fits_int64 n = true ↔ -2 ^ 63 ≤ n ∧ n < 2 ^ 63 := by
  simp [fits_int64]

/-- A count of milliseconds fits in nanoseconds up to `LAST_MILLISECOND`. -/
theorem fits_nanoseconds_iff (n : Nat) :
    fits_int64 (n * 1000000) = true ↔ n ≤ LAST_MILLISECOND := by
  rw [fits_int64_iff, LAST_MILLISECOND]
  omega

/-- From `2 ^ 63` on the signed count is negative. -/
theorem to_int64_of_ge {n : Nat} (hlow : 2 ^ 63 ≤ n) (hhigh : n < 2 ^ 64) :
    to_int64 n = n - 2 ^ 64 := by
  have hwrap : Int.bmod ((n : Int) - (2 ^ 64 : Nat)) (2 ^ 64) = Int.bmod n (2 ^ 64) :=
    Int.sub_bmod_right ..
  unfold to_int64
  rw [← hwrap]
  apply Int.bmod_eq_of_le <;> omega

theorem Asserted.strtoul_eq {text : Bytes} (h : Asserted text) :
    strtoul text = Bytes.decimalVal text :=
  strtoul_of_digits h.digits (Nat.le_of_lt h.below)

/-! ### The computations -/

/-- Between the epoch and the end of the clock the time remaining never
    overflows. -/
theorem get_time_remaining_exact {n : Nat} (hn : n ≤ LAST_MILLISECOND) {req : invocation_request}
    (hreq : req.deadline = n * 1000000) {now : Int} (hepoch : 0 ≤ now) (hmax : now < 2 ^ 63) :
    get_time_remaining req now = .ok ((n * 1000000 - now).tdiv 1000000) := by
  have hdeadline := fits_int64_iff.mp ((fits_nanoseconds_iff n).mpr hn)
  have hfits : fits_int64 ((n : Int) * 1000000 - now) = true := by
    apply fits_int64_iff.mpr
    omega
  simp [get_time_remaining, hreq, int64, hfits]

variable {t : Target} {text : Bytes}

theorem Asserted.deadline_ok_iff (h : Asserted text) {now : Int} (hepoch : 0 ≤ now)
    (hmax : now < 2 ^ 63) (hcount : to_int64 (strtoul text) = Bytes.decimalVal text) :
    deadline_ok t now text = true ↔ Bytes.decimalVal text ≤ LAST_MILLISECOND := by
  have hpos := h.positive
  have hbelow := h.below
  have hfits := fits_nanoseconds_iff (Bytes.decimalVal text)
  unfold deadline_ok
  rw [hcount, h.strtoul_eq]
  constructor
  · intro hok
    simp only [Bool.and_eq_true] at hok
    exact hfits.mp hok.1.2
  · intro hle
    have hns := fits_int64_iff.mp (hfits.mpr hle)
    have hremaining : fits_int64 ((Bytes.decimalVal text : Int) * 1000000 - now) = true := by
      apply fits_int64_iff.mpr
      omega
    simp [hpos, hbelow, hfits.mpr hle, hremaining]

/-- **Reading a deadline is exact** up to `LAST_MILLISECOND`. -/
theorem Asserted.exact (h : Asserted text) (hle : Bytes.decimalVal text ≤ LAST_MILLISECOND)
    {req : invocation_request} (hreq : req.deadline = to_int64 (strtoul text) * 1000000) :
    ExactDeadline text (Bytes.decimalVal text) req := by
  have hcount : to_int64 (strtoul text) = Bytes.decimalVal text := by
    rw [h.strtoul_eq]
    apply to_int64_of_lt
    rw [LAST_MILLISECOND] at hle
    omega
  rw [hcount] at hreq
  exact ⟨h.strtoul_eq, hcount, hreq, fun now => get_time_remaining_exact hle hreq⟩

/-- A value near `ULONG_MAX` passes both assertions and gives a deadline
    before the epoch, without any overflow. -/
theorem add_milliseconds_wraps {ms : Nat} (hhigh : ms < ULONG_MAX)
    (hlow : 2 ^ 64 - LAST_MILLISECOND ≤ ms) :
    add_milliseconds 0 ms = .ok ((ms - 2 ^ 64) * 1000000) := by
  rw [LAST_MILLISECOND] at hlow
  rw [ULONG_MAX] at hhigh
  have hfits : fits_int64 (((ms : Int) - 2 ^ 64) * 1000000) = true := by
    apply fits_int64_iff.mpr
    omega
  rw [add_milliseconds_zero, to_int64_of_ge (by omega) (by omega), int64, if_pos hfits]

/-! ### `get_next` -/

/-- **Deadlines are exact up to `LAST_MILLISECOND`**, and never above it: for
    every invocation with a deadline text that the assertions let through. -/
theorem deadline_exact_iff (s d : Bool) (v : Bytes) (rt : runtime) (w : Thread) (x : Exchange)
    (hinv : has_invocation x) (hct : x.content_type.isSome)
    (htext : lookup DEADLINE_MS_HEADER (headers_of x.lines) = some text) (h : Asserted text) :
    (∃ req w', get_next (Target.linux s d v) rt x w = (.ok (.result req), w') ∧
        ExactDeadline text (Bytes.decimalVal text) req) ↔
      Bytes.decimalVal text ≤ LAST_MILLISECOND := by
  obtain ⟨w', hrun, -, -⟩ := get_next_eq (Target.linux s d v) rt x w
  have hresult := next_result_eq (Target.linux s d v) x
  have hepoch : (0 : Int) ≤ x.now.val := by omega
  have hmax : (x.now.val : Int) < 2 ^ 63 := by omega
  -- on Linux only the deadline can make the transfer undefined
  have hlines : x.lines.all (lowerable_line (Target.linux s d v)) = true := by
    simp
  have hdefined : next_defined (Target.linux s d v) x =
      deadline_ok (Target.linux s d v) (x.now.val : Int) text := by
    simp [next_defined, hlines, hct, hinv, htext]
  have hreq : (request_of x).deadline = to_int64 (strtoul text) * 1000000 := by
    simp [request_of, htext]
  rw [hrun]
  constructor
  · intro hexact
    obtain ⟨req, w'', heq, hexact⟩ := hexact
    have hok : next_defined (Target.linux s d v) x = true := by
      by_contra hnot
      rw [if_neg hnot] at hresult
      obtain ⟨e, he⟩ := hresult
      rw [he] at heq
      cases heq
    rw [hdefined] at hok
    exact (h.deadline_ok_iff hepoch hmax hexact.converted).mp hok
  · intro hle
    have hexact := h.exact hle hreq
    have hok := (h.deadline_ok_iff (t := Target.linux s d v) hepoch hmax hexact.converted).mpr hle
    rw [if_pos (by rw [hdefined]; exact hok), classify_of_has_invocation hinv] at hresult
    exact ⟨request_of x, w', by rw [hresult], hexact⟩

/-- A transfer with the deadline header `text`. -/
def deadline_exchange (text : Bytes) : Exchange where
  callbacks :=
    [.header (ascii "Lambda-Runtime-Aws-Request-Id: 7\r\n"),
      .header (ascii "Lambda-Runtime-Deadline-Ms: " ++ text ++ ascii "\r\n")]
  code := CURLE_OK
  response_code := 200
  content_type := some (ascii "application/json")
  now := Exchange.epoch

/-- Leading zeros do not matter, and the last value that is exact is. -/
theorem deadline_exact_iff_last :
    ∃ req w', get_next (Target.linux true false []) (runtime.with_user_agent [] [])
        (deadline_exchange (ascii "009223372036854")) Thread.new = (.ok (.result req), w') ∧
      ExactDeadline (ascii "009223372036854")
        (Bytes.decimalVal (ascii "009223372036854")) req :=
  (deadline_exact_iff true false [] _ Thread.new (deadline_exchange (ascii "009223372036854"))
    (by decide +kernel) rfl (by decide +kernel) ⟨by decide, by decide, by decide⟩).mpr (by decide)

/-- The next value passes the assertions and overflows. -/
theorem deadline_overflows :
    Asserted (ascii "9223372036855") ∧
      (get_next (Target.linux true false []) (runtime.with_user_agent [] [])
        (deadline_exchange (ascii "9223372036855")) Thread.new).1 = .error .signed_overflow := by
  obtain ⟨w', hrun, -, -⟩ := get_next_eq (Target.linux true false [])
    (runtime.with_user_agent [] []) (deadline_exchange (ascii "9223372036855")) Thread.new
  have hresult : next_result (Target.linux true false [])
      (deadline_exchange (ascii "9223372036855")) = .error .signed_overflow := by decide +kernel
  rw [hrun, hresult]
  exact ⟨⟨by decide, by decide, by decide⟩, rfl⟩

end LambdaCpp
