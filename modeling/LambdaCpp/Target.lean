import LambdaCpp.Base.Bytes

/-! # The Target and What Can Go Wrong on It

    The C++ standard leaves several things the runtime's behaviour depends
    on to the target: whether plain `char` is signed (x86-64) or not
    (AArch64), what `::tolower` does outside its domain, and whether
    `assert` is compiled in.  `Target` collects them.

    A step the standard does not define, or an assertion that fails, is a
    `Fault`; code that can fault returns `Checked`.
-/

namespace LambdaCpp

/-- How an execution can leave the defined behaviour of the program. -/
inductive Fault where
  /-- `assert` saw a false condition. -/
  | assertion
  /-- A `std::string` was made from a null `char const*`. -/
  | null_string
  /-- `::tolower` was called on a negative value other than `EOF`. -/
  | ctype_domain
  /-- A signed integer computation left the range of its type. -/
  | signed_overflow
  /-- An object was read before it was given a value. -/
  | indeterminate
  /-- The member of a union that is not the active one was read. -/
  | inactive_member
  /-- A pointer to no live object was followed. -/
  | dangling
  /-- An iterator was moved or read outside its container. -/
  | out_of_range
  deriving DecidableEq, Repr

abbrev Checked (α : Type) : Type := Except Fault α

namespace Checked
variable {α β : Type}

@[simp] theorem pure_eq (a : α) : (pure a : Checked α) = .ok a := rfl

@[simp] theorem ok_bind (a : α) (f : α → Checked β) : (Except.ok a >>= f : Checked β) = f a := rfl

@[simp] theorem error_bind (e : Fault) (f : α → Checked β) :
    (Except.error e >>= f : Checked β) = .error e := rfl

@[simp] theorem map_ok (f : α → β) (a : α) : (f <$> Except.ok a : Checked β) = .ok (f a) := rfl

end Checked

/-- What the standard leaves to the target, and what the build decides. -/
structure Target where
  /-- Plain `char` is signed. -/
  char_signed : Bool
  /-- The C library gives `::tolower` a meaning on every negative `char`. -/
  tolower_negative : Bool
  /-- `NDEBUG` is defined: assertions are compiled out. -/
  ndebug : Bool
  /-- The text of `get_version()`. -/
  version : Bytes

/-- A GNU/Linux target: glibc and musl both map a negative `char` that is
    not an upper-case letter to itself. -/
def Target.linux (char_signed ndebug : Bool) (version : Bytes) : Target where
  char_signed := char_signed
  tolower_negative := true
  ndebug := ndebug
  version := version

@[simp] theorem Target.linux_tolower_negative (s d : Bool) (v : Bytes) :
    (Target.linux s d v).tolower_negative = true := rfl

/-- A target that promises no more than the standard does: `::tolower` on a
    negative value other than `EOF` is outside its domain. -/
def Target.standard (char_signed ndebug : Bool) (version : Bytes) : Target where
  char_signed := char_signed
  tolower_negative := false
  ndebug := ndebug
  version := version

variable (t : Target)

/-- `assert(condition)`. -/
def Target.assert (condition : Bool) : Checked Unit :=
  if t.ndebug || condition then .ok () else .error .assertion

@[simp] theorem Target.assert_true : t.assert true = .ok () := by
  simp [Target.assert]

/-! ## Characters -/

/-- A `char` promoted to `int`. -/
def Target.promote (ch : UInt8) : Int :=
  if t.char_signed && 0x80 ≤ ch then (ch.toNat : Int) - 256 else ch.toNat

/-- An `int` converted to `char`. -/
def to_char (c : Int) : UInt8 := UInt8.ofNat (c % 256).toNat

def EOF : Int := -1

/-- `::tolower` in the C locale. -/
def Target.tolower (c : Int) : Checked Int :=
  if c < 0 ∧ c ≠ EOF ∧ !t.tolower_negative then .error .ctype_domain
  else .ok (if 0x41 ≤ c ∧ c ≤ 0x5a then c + 0x20 else c)

/-- The byte is inside the domain of `::tolower` when passed as a `char`. -/
def Target.lowerable (ch : UInt8) : Bool :=
  !t.char_signed || t.tolower_negative || ch < 0x80 || ch = 0xff

@[simp] theorem Target.linux_lowerable (s d : Bool) (v : Bytes) (ch : UInt8) :
    (Target.linux s d v).lowerable ch = true := by
  simp [Target.lowerable]

/-- On its domain, `::tolower` through `char` is ASCII lower-casing. -/
theorem Target.tolower_promote (ch : UInt8) :
    to_char <$> t.tolower (t.promote ch) =
      if t.lowerable ch then .ok (Bytes.lower ch) else .error .ctype_domain := by
  unfold Target.tolower Target.promote Target.lowerable
  cases t.char_signed <;> cases t.tolower_negative <;> revert ch <;>
    exact Bytes.forall_byte (by decide +kernel)

end LambdaCpp
