import LambdaCpp.Outcome

/-! # `aws::http::response`

    The response object that libcurl's callbacks fill in: a status code,
    the header fields in arrival order, the body and the content type.
-/

namespace LambdaCpp

/-! ### Status codes -/

/-- `enum class response_code`: its underlying type is `int`, and every code
    that libcurl reports fits in it. -/
abbrev response_code : Type := Int

def REQUEST_NOT_MADE : response_code := -1

def is_success (httpcode : response_code) : Bool :=
  let http_first_success_error_code := 200
  let http_last_success_error_code := 299
  httpcode ≥ http_first_success_error_code && httpcode ≤ http_last_success_error_code

theorem is_success_iff {c : response_code} : is_success c = true ↔ 200 ≤ c ∧ c ≤ 299 := by
  simp [is_success]

/-! ### The response object -/

structure response where
  /-- Indeterminate until `set_response_code`: the class does not
      initialise it. -/
  m_response_code : Option response_code
  m_headers : List (Bytes × Bytes)
  m_body : Bytes
  m_content_type : Bytes
  deriving DecidableEq, Repr

namespace response

/-- `http::response resp;` -/
def default_init : response where
  m_response_code := none
  m_headers := []
  m_body := []
  m_content_type := []

/-- Lower-case the name but store the value as is. -/
def add_header (t : Target) (resp : response) (name value : Bytes) : Checked response := do
  let name ← name.mapM fun ch => to_char <$> t.tolower (t.promote ch)
  .ok { resp with m_headers := resp.m_headers ++ [(name, value)] }

def append_body (resp : response) (p : Bytes) : response :=
  { resp with m_body := resp.m_body ++ p }

/-- `p.first == header`, against a C string. -/
def matches_header (header : Bytes) (p : Bytes × Bytes) : Bool :=
  p.1 = Bytes.c_str header

def has_header (resp : response) (header : Bytes) : Bool :=
  resp.m_headers.any (matches_header header)

def get_header (resp : response) (header : Bytes) : outcome Bytes Bool :=
  match resp.m_headers.find? (matches_header header) with
  | none => .failure false
  | some it => .result it.2

def get_response_code (resp : response) : Checked response_code :=
  match resp.m_response_code with
  | none => .error .indeterminate
  | some c => .ok c

def set_response_code (resp : response) (c : response_code) : response :=
  { resp with m_response_code := some c }

/-- `m_content_type = ct`: assigning from a null pointer is undefined. -/
def set_content_type (resp : response) (ct : Option Bytes) : Checked response :=
  match ct with
  | none => .error .null_string
  | some ct => .ok { resp with m_content_type := Bytes.c_str ct }

def get_body (resp : response) : Bytes := resp.m_body

def get_content_type (resp : response) : Bytes := resp.m_content_type

/-! ### What each operation does -/

section add_header
variable (t : Target)

theorem mapM_tolower (name : Bytes) :
    name.mapM (fun ch => to_char <$> t.tolower (t.promote ch)) =
      if name.all t.lowerable then Except.ok (name.map Bytes.lower)
      else .error Fault.ctype_domain := by
  induction name with
  | nil => rfl
  | cons ch name ih =>
    rw [List.mapM_cons, Target.tolower_promote, ih]
    by_cases hch : t.lowerable ch
    · by_cases hname : name.all t.lowerable
      · simp [hch, hname]
      · simp [hch, hname]
    · simp [hch]

/-- `add_header` stores the lower-cased name, unless some byte of the name
    is outside the domain of `::tolower`. -/
theorem add_header_eq (resp : response) (name value : Bytes) :
    resp.add_header t name value =
      if name.all t.lowerable then
        .ok { resp with m_headers := resp.m_headers ++ [(name.map Bytes.lower, value)] }
      else .error .ctype_domain := by
  unfold add_header
  rw [mapM_tolower]
  split <;> simp

end add_header

theorem has_header_eq_is_success (resp : response) (header : Bytes) :
    resp.has_header header = (resp.get_header header).is_success := by
  unfold has_header get_header
  cases h : resp.m_headers.find? (matches_header header) with
  | none =>
    rw [List.find?_eq_none] at h
    simp only [outcome.is_success_failure]
    rw [List.any_eq_false]
    exact h
  | some p =>
    simp only [outcome.is_success_result]
    rw [List.any_eq_true]
    exact ⟨p, List.mem_of_find?_eq_some h, List.find?_some h⟩

end response

end LambdaCpp
