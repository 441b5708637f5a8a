import LambdaCpp.Base.Ledger
import LambdaCpp.Base.System
import LambdaCpp.Outcome

/-! # `outcome` in Storage

    The class as it is written: a union of a result and a failure, a flag
    that says which of the two is alive, and special member functions that
    begin and end lifetimes by hand.

    The objects live at locations; a ledger counts the union members.
    Touching a member that is not alive is a `Fault`.  Each function is shown
    to act on what the objects hold as the type `outcome` of values does.
-/

namespace LambdaCpp

variable {TResult TFailure : Type}

/-! ### Objects -/

abbrev Location : Type := Nat

/-- A union member that is alive: `result` is `m_s`, `failure` is `m_f`. -/
structure Member (TResult TFailure : Type) where
  id : Nat
  value : outcome TResult TFailure

/-- The data members of an object.  The members of the union share their
    storage, so at most one of them is alive. -/
structure Storage (TResult TFailure : Type) where
  member : Option (Member TResult TFailure)
  m_success : Bool

structure World (TResult TFailure : Type) where
  objects : Location → Option (Storage TResult TFailure)
  ledger : Ledger

/-- What a value becomes when it is moved from. -/
structure Residue (TResult TFailure : Type) where
  of_result : TResult → TResult
  of_failure : TFailure → TFailure

def Residue.apply (left : Residue TResult TFailure) :
    outcome TResult TFailure → outcome TResult TFailure
  | .result s => .result (left.of_result s)
  | .failure f => .failure (left.of_failure f)

@[simp] theorem Residue.is_success_apply (left : Residue TResult TFailure)
    (v : outcome TResult TFailure) : (left.apply v).is_success = v.is_success := by
  cases v <;> rfl

namespace World

def empty : World TResult TFailure := ⟨fun _ => none, Ledger.empty⟩

variable (w : World TResult TFailure)

/-! ### Data members -/

def load (this : Location) : Checked (Storage TResult TFailure) :=
  match w.objects this with
  | some o => .ok o
  | none => .error .dangling

def store (this : Location) (o : Storage TResult TFailure) : World TResult TFailure :=
  { w with objects := Function.update w.objects this (some o) }

/-- The storage of an object goes away. -/
def release (this : Location) : World TResult TFailure :=
  { w with objects := Function.update w.objects this none }

/-- `m_s` as an lvalue. -/
def m_s (this : Location) : Checked TResult := do
  let o ← w.load this
  match o.member with
  | some ⟨_, .result s⟩ => .ok s
  | _ => .error .inactive_member

def m_f (this : Location) : Checked TFailure := do
  let o ← w.load this
  match o.member with
  | some ⟨_, .failure f⟩ => .ok f
  | _ => .error .inactive_member

/-- `std::move(m_s)`, moved from. -/
def move_m_s (this : Location) (left : Residue TResult TFailure) :
    Checked (TResult × World TResult TFailure) := do
  let o ← w.load this
  match o.member with
  | some ⟨id, .result s⟩ =>
    return (s, w.store this { o with member := some ⟨id, left.apply (.result s)⟩ })
  | _ => .error .inactive_member

def move_m_f (this : Location) (left : Residue TResult TFailure) :
    Checked (TFailure × World TResult TFailure) := do
  let o ← w.load this
  match o.member with
  | some ⟨id, .failure f⟩ =>
    return (f, w.store this { o with member := some ⟨id, left.apply (.failure f)⟩ })
  | _ => .error .inactive_member

/-- `new (&m_s) TResult(...)` and `new (&m_f) TFailure(...)`.  A member that
    is still alive loses its storage without being destroyed. -/
def placement_new (this : Location) (value : outcome TResult TFailure) :
    Checked (World TResult TFailure) := do
  let o ← w.load this
  return { w.store this { o with member := some ⟨w.ledger.constructed, value⟩ } with
    ledger := w.ledger.construct }

/-- `m_s.~TResult()`. -/
def destroy_m_s (this : Location) : Checked (World TResult TFailure) := do
  let o ← w.load this
  match o.member with
  | some ⟨id, .result _⟩ =>
    return { w.store this { o with member := none } with ledger := w.ledger.destroy id }
  | _ => .error .inactive_member

/-- `m_f.~TFailure()`. -/
def destroy_m_f (this : Location) : Checked (World TResult TFailure) := do
  let o ← w.load this
  match o.member with
  | some ⟨id, .failure _⟩ =>
    return { w.store this { o with member := none } with ledger := w.ledger.destroy id }
  | _ => .error .inactive_member

/-! ### Member functions -/

/-- `outcome(TResult const& s)` and `outcome(TResult&& s)`, which differ in
    what they leave in the argument. -/
def construct_from_result (this : Location) (s : TResult) : Checked (World TResult TFailure) :=
  (w.store this ⟨none, true⟩).placement_new this (.result s)

/-- `outcome(TFailure const& f)` and `outcome(TFailure&& f)`. -/
def construct_from_failure (this : Location) (f : TFailure) : Checked (World TResult TFailure) :=
  (w.store this ⟨none, false⟩).placement_new this (.failure f)

/-- `outcome(outcome const& other)`. -/
def copy_construct (this other : Location) : Checked (World TResult TFailure) := do
  let o ← w.load other
  let w := w.store this ⟨none, o.m_success⟩
  if o.m_success then
    let s ← w.m_s other
    w.placement_new this (.result s)
  else
    let f ← w.m_f other
    w.placement_new this (.failure f)

/-- `outcome(outcome&& other)`. -/
def move_construct (this other : Location) (left : Residue TResult TFailure) :
    Checked (World TResult TFailure) := do
  let o ← w.load other
  let w := w.store this ⟨none, o.m_success⟩
  if o.m_success then
    let (s, w) ← w.move_m_s other left
    w.placement_new this (.result s)
  else
    let (f, w) ← w.move_m_f other left
    w.placement_new this (.failure f)

def destroy (this : Location) : Checked (World TResult TFailure) := do
  let o ← w.load this
  if o.m_success then w.destroy_m_s this
  else w.destroy_m_f this

/-- `~outcome()`. -/
def destruct (this : Location) : Checked (World TResult TFailure) := do
  let w ← w.destroy this
  return w.release this

variable (t : Target)

/-- `operator=(outcome&& other)`. -/
def move_assign (this other : Location) (left : Residue TResult TFailure) :
    Checked (World TResult TFailure) := do
  t.assert (this ≠ other)
  let w ← w.destroy this
  let o ← w.load other
  let w ←
    if o.m_success then do
      let (s, w) ← w.move_m_s other left
      w.placement_new this (.result s)
    else do
      let (f, w) ← w.move_m_f other left
      w.placement_new this (.failure f)
  let source ← w.load other
  let target ← w.load this
  return w.store this { target with m_success := source.m_success }

def is_success (this : Location) : Checked Bool := do
  let o ← w.load this
  return o.m_success

/-- `get_result() const&`. -/
def get_result (this : Location) : Checked TResult := do
  let o ← w.load this
  t.assert o.m_success
  w.m_s this

/-- `get_failure() const&`. -/
def get_failure (this : Location) : Checked TFailure := do
  let o ← w.load this
  t.assert (!o.m_success)
  w.m_f this

/-- `std::move(o).get_result()`, moved from. -/
def take_result (this : Location) (left : Residue TResult TFailure) :
    Checked (TResult × World TResult TFailure) := do
  let o ← w.load this
  t.assert o.m_success
  w.move_m_s this left

/-- `std::move(o).get_failure()`, moved from. -/
def take_failure (this : Location) (left : Residue TResult TFailure) :
    Checked (TFailure × World TResult TFailure) := do
  let o ← w.load this
  t.assert (!o.m_success)
  w.move_m_f this left

/-! ### What they do to the objects -/

/-- The object holds `v`: the flag names the member that is alive. -/
def Holds (this : Location) (id : Nat) (v : outcome TResult TFailure) : Prop :=
  w.objects this = some ⟨some ⟨id, v⟩, v.is_success⟩

/-- A new object that holds `v`. -/
def put (this : Location) (v : outcome TResult TFailure) : World TResult TFailure where
  objects := Function.update w.objects this (some ⟨some ⟨w.ledger.constructed, v⟩, v.is_success⟩)
  ledger := w.ledger.construct

/-- The same member with another value. -/
def leave (this : Location) (id : Nat) (v : outcome TResult TFailure) : World TResult TFailure where
  objects := Function.update w.objects this (some ⟨some ⟨id, v⟩, v.is_success⟩)
  ledger := w.ledger

/-- The object is gone, and its member was destroyed. -/
def drop (this : Location) (id : Nat) : World TResult TFailure where
  objects := Function.update w.objects this none
  ledger := w.ledger.destroy id

variable {w t} {this other : Location} {id id' : Nat} {v v' : outcome TResult TFailure}
  {left : Residue TResult TFailure}

theorem Holds.load (h : w.Holds this id v) : w.load this = .ok ⟨some ⟨id, v⟩, v.is_success⟩ := by
  unfold World.load
  rw [h]

/-- The other objects keep their storage. -/
theorem Holds.store (h : w.Holds other id v) (hne : other ≠ this) (o : Storage TResult TFailure) :
    (w.store this o).Holds other id v := by
  show Function.update w.objects this (some o) other = _
  rw [Function.update_of_ne hne]
  exact h

/-- A lifetime begins in storage where none is running. -/
theorem placement_new_eq (m : Option (Member TResult TFailure)) (b : Bool) :
    (w.store this ⟨m, b⟩).placement_new this v =
      .ok { w.store this ⟨some ⟨w.ledger.constructed, v⟩, b⟩ with ledger := w.ledger.construct } := by
  simp [placement_new, load, store]

theorem placement_new_put : (w.store this ⟨none, v.is_success⟩).placement_new this v =
    .ok (w.put this v) :=
  placement_new_eq ..

theorem m_s_eq {s : TResult} (h : w.Holds this id (.result s)) : w.m_s this = .ok s := by
  unfold m_s
  rw [h.load]
  rfl

theorem m_f_eq {f : TFailure} (h : w.Holds this id (.failure f)) : w.m_f this = .ok f := by
  unfold m_f
  rw [h.load]
  rfl

theorem move_m_s_eq {s : TResult} (h : w.Holds this id (.result s)) :
    w.move_m_s this left = .ok (s, w.leave this id (left.apply (.result s))) := by
  unfold move_m_s
  rw [h.load]
  rfl

theorem move_m_f_eq {f : TFailure} (h : w.Holds this id (.failure f)) :
    w.move_m_f this left = .ok (f, w.leave this id (left.apply (.failure f))) := by
  unfold move_m_f
  rw [h.load]
  rfl

/-- Two objects change independently. -/
theorem leave_store_comm (hne : other ≠ this) (o : Storage TResult TFailure) :
    (w.store this o).leave other id v = (w.leave other id v).store this o := by
  simp only [store, leave, Function.update_comm hne]

/-! ### Each member function -/

theorem construct_from_result_eq (s : TResult) :
    w.construct_from_result this s = .ok (w.put this (.result s)) :=
  placement_new_put (v := .result s)

theorem construct_from_failure_eq (f : TFailure) :
    w.construct_from_failure this f = .ok (w.put this (.failure f)) :=
  placement_new_put (v := .failure f)

theorem copy_construct_eq (h : w.Holds other id v) (hne : other ≠ this) :
    w.copy_construct this other = .ok (w.put this v) := by
  unfold copy_construct
  rw [h.load, Checked.ok_bind]
  cases v with
  | result s =>
    have hother : (w.store this ⟨none, true⟩).Holds other id (.result s) := h.store hne _
    simp only [outcome.is_success_result, if_true, m_s_eq hother, Checked.ok_bind]
    exact placement_new_put (v := .result s)
  | failure f =>
    have hother : (w.store this ⟨none, false⟩).Holds other id (.failure f) := h.store hne _
    simp only [outcome.is_success_failure, Bool.false_eq_true, if_false, m_f_eq hother,
      Checked.ok_bind]
    exact placement_new_put (v := .failure f)

theorem move_construct_eq (h : w.Holds other id v) (hne : other ≠ this) :
    w.move_construct this other left =
      .ok ((w.leave other id (left.apply v)).put this v) := by
  unfold move_construct
  rw [h.load, Checked.ok_bind]
  cases v with
  | result s =>
    have hother : (w.store this ⟨none, true⟩).Holds other id (.result s) := h.store hne _
    simp only [outcome.is_success_result, if_true, move_m_s_eq hother, Checked.ok_bind,
      leave_store_comm hne]
    exact placement_new_put (v := .result s)
  | failure f =>
    have hother : (w.store this ⟨none, false⟩).Holds other id (.failure f) := h.store hne _
    simp only [outcome.is_success_failure, Bool.false_eq_true, if_false, move_m_f_eq hother,
      Checked.ok_bind, leave_store_comm hne]
    exact placement_new_put (v := .failure f)

/-- Between `destroy` and the end of the object, or the next construction,
    the storage is there with nothing alive in it. -/
theorem destroy_eq (h : w.Holds this id v) :
    w.destroy this = .ok ((w.drop this id).store this ⟨none, v.is_success⟩) := by
  unfold destroy
  rw [h.load, Checked.ok_bind]
  cases v with
  | result s =>
    show w.destroy_m_s this = _
    unfold destroy_m_s
    rw [h.load]
    simp [store, drop]
  | failure f =>
    show w.destroy_m_f this = _
    unfold destroy_m_f
    rw [h.load]
    simp [store, drop]

theorem destruct_eq (h : w.Holds this id v) : w.destruct this = .ok (w.drop this id) := by
  unfold destruct
  rw [destroy_eq h]
  simp [release, store, drop]

/-- The end of an assignment: the flag is copied from the source. -/
theorem assign_flag (w : World TResult TFailure) (id id' : Nat) (b : Bool) (hne : this ≠ other)
    {u : outcome TResult TFailure} (hu : u.is_success = v.is_success) :
    (do
      let w ← (((w.drop this id).store this ⟨none, b⟩).leave other id' u).placement_new this v
      let source ← w.load other
      let target ← w.load this
      return w.store this { target with m_success := source.m_success }) =
    (.ok (((w.drop this id).leave other id' u).put this v) : Checked (World TResult TFailure)) := by
  rw [leave_store_comm hne.symm, placement_new_eq]
  simp [load, store, put, leave, drop, Function.update_of_ne hne.symm, hu]

theorem move_assign_eq (h : w.Holds this id v) (h' : w.Holds other id' v') (hne : this ≠ other) :
    w.move_assign t this other left =
      .ok (((w.drop this id).leave other id' (left.apply v')).put this v') := by
  -- the source is still there once the old member is destroyed
  have hother : ((w.drop this id).store this ⟨none, v.is_success⟩).Holds other id' v' := by
    apply Holds.store _ hne.symm
    show Function.update w.objects this none other = _
    rw [Function.update_of_ne hne.symm]
    exact h'
  have hflag := assign_flag w id id' v.is_success hne (left.is_success_apply v')
  unfold move_assign
  rw [decide_eq_true hne, Target.assert_true, Checked.ok_bind, destroy_eq h, Checked.ok_bind,
    hother.load, Checked.ok_bind]
  cases v' with
  | result s =>
    simp only [outcome.is_success_result, if_true, move_m_s_eq hother, Checked.ok_bind]
    exact hflag
  | failure f =>
    simp only [outcome.is_success_failure, Bool.false_eq_true, if_false, move_m_f_eq hother,
      Checked.ok_bind]
    exact hflag

theorem is_success_eq (h : w.Holds this id v) : w.is_success this = .ok v.is_success := by
  unfold is_success
  rw [h.load]
  rfl

/-- The accessors of an object are those of the value it holds. -/
theorem get_result_eq (h : w.Holds this id v) : w.get_result t this = v.get_result t := by
  unfold get_result
  rw [h.load]
  cases v with
  | result s => simp [m_s_eq h]
  | failure f => simp [outcome.get_result, m_s, h.load]

theorem get_failure_eq (h : w.Holds this id v) : w.get_failure t this = v.get_failure t := by
  unfold get_failure
  rw [h.load]
  cases v with
  | result s => simp [outcome.get_failure, m_f, h.load]
  | failure f => simp [m_f_eq h]

theorem take_result_eq (h : w.Holds this id v) :
    w.take_result t this left = (do
      let s ← v.get_result t
      return (s, w.leave this id (left.apply v))) := by
  unfold take_result
  rw [h.load]
  cases v with
  | result s => simp [move_m_s_eq h]
  | failure f => simp [outcome.get_result, move_m_s, h.load]

theorem take_failure_eq (h : w.Holds this id v) :
    w.take_failure t this left = (do
      let f ← v.get_failure t
      return (f, w.leave this id (left.apply v))) := by
  unfold take_failure
  rw [h.load]
  cases v with
  | result s => simp [outcome.get_failure, move_m_f, h.load]
  | failure f => simp [move_m_f_eq h]

end World

end LambdaCpp
