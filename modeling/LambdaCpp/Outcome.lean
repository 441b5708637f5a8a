import LambdaCpp.Target

/-! # `outcome`

    `outcome<TResult, TFailure>` as its users see it: either a result or a
    failure.
-/

namespace LambdaCpp

inductive outcome (TResult TFailure : Type) where
  | result (s : TResult)
  | failure (f : TFailure)
  deriving DecidableEq, Repr

namespace outcome
variable {TResult TFailure : Type}

def is_success : outcome TResult TFailure → Bool
  | result _ => true
  | failure _ => false

/-- `get_result()`: with `assert(m_success)` compiled out, a failure's
    union member would be read. -/
def get_result (t : Target) (o : outcome TResult TFailure) : Checked TResult := do
  t.assert o.is_success
  match o with
  | result s => .ok s
  | failure _ => .error .inactive_member

def get_failure (t : Target) (o : outcome TResult TFailure) : Checked TFailure := do
  t.assert (!o.is_success)
  match o with
  | result _ => .error .inactive_member
  | failure f => .ok f

@[simp] theorem is_success_result (s : TResult) :
    (result s : outcome TResult TFailure).is_success = true := rfl

@[simp] theorem is_success_failure (f : TFailure) :
    (failure f : outcome TResult TFailure).is_success = false := rfl

@[simp] theorem get_result_result (t : Target) (s : TResult) :
    (result s : outcome TResult TFailure).get_result t = .ok s := by
  simp [get_result]

@[simp] theorem get_failure_failure (t : Target) (f : TFailure) :
    (failure f : outcome TResult TFailure).get_failure t = .ok f := by
  simp [get_failure]

end outcome

end LambdaCpp
