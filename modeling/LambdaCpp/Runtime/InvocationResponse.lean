import LambdaCpp.Target

/-! # `runtime_response` and `invocation_response`

    What a handler gives back, and the JSON payload that
    `invocation_response::failure` builds with `json_escape`.

    `json_escape` works byte by byte, and what it makes of one byte depends
    on whether plain `char` is signed (`Runtime.ErrorPayload` has both).
-/

namespace LambdaCpp

open Bytes (ascii)

/-! ### The classes -/

structure runtime_response where
  m_payload : Bytes
  m_content_type : Bytes
  m_xray_response : Bytes
  deriving DecidableEq, Repr

namespace runtime_response

def get_payload (r : runtime_response) : Bytes := r.m_payload

def get_content_type (r : runtime_response) : Bytes := r.m_content_type

def get_xray_response (r : runtime_response) : Bytes := r.m_xray_response

end runtime_response

structure invocation_response extends runtime_response where
  m_success : Bool
  deriving DecidableEq, Repr

def invocation_response.is_success (r : invocation_response) : Bool := r.m_success

def invocation_response.success (payload content_type : Bytes) : invocation_response where
  m_payload := payload
  m_content_type := content_type
  m_xray_response := []
  m_success := true

/-! ### `json_escape` -/

/-- The digits of an `unsigned int` in base 16, without leading zeros. -/
def hex_digits (n : Nat) : List Nat :=
  ((List.range 8).reverse.map fun i => n / 16 ^ i % 16).dropWhile (· = 0)

def hex_digit (d : Nat) : UInt8 := if d < 10 then UInt8.ofNat (0x30 + d) else UInt8.ofNat (0x57 + d)

/-- `%04x`: at least four digits. -/
def format_04x (n : Nat) : Bytes :=
  let digits := (hex_digits n).map hex_digit
  List.replicate (4 - digits.length) 0x30 ++ digits

/-- The buffer after `snprintf(buf, size, "u%04x", arg)`: the text, cut to
    leave room for the NUL.  The argument is read as an `unsigned int`. -/
def snprintf_u04x (size : Nat) (arg : Int) : Bytes :=
  (0x75 :: format_04x (arg % 2 ^ 32).toNat).take (size - 1) ++ [0]

variable (t : Target)

/-- What one character adds to `out`. -/
def json_escape_char (ch : UInt8) : Bytes :=
  let last_non_printable_character : Int := 31
  if t.promote ch > last_non_printable_character && ch ≠ 0x22 && ch ≠ 0x5c then [ch]
  else
    let printed_unicode_length := 6
    0x5c ::
      if ch = 0x5c then [0x5c]
      else if ch = 0x22 then [0x22]
      else if ch = 0x08 then [0x62]
      else if ch = 0x0c then [0x66]
      else if ch = 0x0a then [0x6e]
      else if ch = 0x0d then [0x72]
      else if ch = 0x09 then [0x74]
      -- only five, discarding the null terminator
      else (snprintf_u04x printed_unicode_length (t.promote ch)).take (printed_unicode_length - 1)

def json_escape (in_ : Bytes) : Bytes :=
  in_.foldl (fun out ch => out ++ json_escape_char t ch) []

/-- `failure(error_message, error_type, xray_response)`. -/
def invocation_response.failure_xray (error_message error_type xray_response : Bytes) :
    invocation_response where
  m_payload := ascii "\x7b\"errorMessage\":\"" ++ json_escape t error_message ++
    ascii "\",\"errorType\":\"" ++ json_escape t error_type ++ ascii "\",\"stackTrace\":[]\x7d"
  m_content_type := ascii "application/json"
  m_xray_response := xray_response
  m_success := false

/-- `failure(error_message, error_type)`. -/
def invocation_response.failure (error_message error_type : Bytes) : invocation_response :=
  invocation_response.failure_xray t error_message error_type []

/-! ### Byte by byte -/

theorem json_escape_eq (in_ : Bytes) : json_escape t in_ = in_.flatMap (json_escape_char t) := by
  have hfold : ∀ out, in_.foldl (fun out ch => out ++ json_escape_char t ch) out =
      out ++ in_.flatMap (json_escape_char t) := by
    induction in_ with
    | nil => simp
    | cons ch in_ ih =>
      intro out
      rw [List.foldl_cons, ih, List.flatMap_cons, List.append_assoc]
  exact hfold []

end LambdaCpp
