import Mathlib.Data.List.DropRight
import Mathlib.Data.List.TakeDrop
import Mathlib.Data.Nat.Digits.Defs

/-! # Byte Strings

    Operations on byte strings that C and C++ text code is made of, stated
    over `List UInt8` (or over any list, where the element type plays no
    role):

    * `strip`: both-sided trimming, with its defining property `IsStrip`.
    * `cutAt`: the two sides of the first separator.
    * `c_str`: what a reader of the C string sees.
    * `cutLines`: cutting a block of text after each line feed.
    * ASCII letter case, whitespace and digits.
    * `decimal` and `decimalVal`: decimal numerals and their values.
-/

abbrev Bytes : Type := List UInt8

namespace Bytes

/-- What holds of every byte of a string is decided along the string, not
    along all bytes. -/
instance (priority := high) decidableForallMem (p : UInt8 → Prop) [DecidablePred p] (s : Bytes) :
    Decidable (∀ b ∈ s, p b) := List.decidableBAll p s

instance (priority := high) decidableForallMemOption (p : UInt8 → Prop) [DecidablePred p]
    (o : Option UInt8) : Decidable (∀ b ∈ o, p b) := Option.decidableForallMem o

/-- The bytes of an ASCII literal. -/
def ascii (s : String) : Bytes := s.toList.map fun c => UInt8.ofNat c.toNat

/-! ## Trimming -/

section strip
variable {α : Type _} (p : α → Bool)

/-- Remove the longest leading and trailing runs of elements satisfying `p`. -/
def strip (s : List α) : List α := (s.rdropWhile p).dropWhile p

/-- `m` is `s` without its longest leading and trailing runs of `p`. -/
structure IsStrip (s m : List α) : Prop where
  /-- What is removed on either side satisfies `p`. -/
  split : ∃ l r, s = l ++ m ++ r ∧ (∀ x ∈ l, p x) ∧ (∀ x ∈ r, p x)
  /-- Nothing more can be removed on the left. -/
  head : ∀ x ∈ m.head?, ¬ p x
  /-- Nothing more can be removed on the right. -/
  last : ∀ x ∈ m.getLast?, ¬ p x

variable {p}

theorem dropWhile_append_of_all {l : List α} (hl : ∀ x ∈ l, p x) (s : List α) :
    (l ++ s).dropWhile p = s.dropWhile p := by
  induction l with
  | nil => rfl
  | cons x l ih =>
    have hx : p x = true := hl x (by simp)
    rw [List.cons_append, List.dropWhile_cons_of_pos hx]
    exact ih fun y hy => hl y (by simp [hy])

theorem dropWhile_of_head {s : List α} (hs : ∀ x ∈ s.head?, ¬ p x) : s.dropWhile p = s := by
  cases s with
  | nil => rfl
  | cons x s => rw [List.dropWhile_cons_of_neg (hs x (by simp))]

theorem rdropWhile_append_of_all {r : List α} (hr : ∀ x ∈ r, p x) (s : List α) :
    (s ++ r).rdropWhile p = s.rdropWhile p := by
  unfold List.rdropWhile
  rw [List.reverse_append, dropWhile_append_of_all (by simpa using hr)]

theorem rdropWhile_of_last {s : List α} (hs : ∀ x ∈ s.getLast?, ¬ p x) : s.rdropWhile p = s := by
  unfold List.rdropWhile
  rw [dropWhile_of_head (by simpa using hs), List.reverse_reverse]

theorem head?_dropWhile (s : List α) : ∀ x ∈ (s.dropWhile p).head?, ¬ p x := by
  induction s with
  | nil => simp
  | cons y s ih =>
    by_cases hy : p y
    · rw [List.dropWhile_cons_of_pos hy]; exact ih
    · rw [List.dropWhile_cons_of_neg hy]; simp [hy]

theorem getLast?_rdropWhile (s : List α) : ∀ x ∈ (s.rdropWhile p).getLast?, ¬ p x := by
  unfold List.rdropWhile
  simpa using head?_dropWhile (p := p) s.reverse

theorem strip_isStrip (s : List α) : IsStrip p s (strip p s) := by
  -- the right end is trimmed first
  have hr : s = s.rdropWhile p ++ s.rtakeWhile p := (List.rdropWhile_append_rtakeWhile ..).symm
  have hl : s.rdropWhile p = (s.rdropWhile p).takeWhile p ++ strip p s :=
    (List.takeWhile_append_dropWhile ..).symm
  refine ⟨⟨(s.rdropWhile p).takeWhile p, s.rtakeWhile p, ?_, ?_, ?_⟩, head?_dropWhile _, ?_⟩
  · rw [← hl]; exact hr
  · intro x hx; exact List.mem_takeWhile_imp hx
  · intro x hx; exact List.mem_rtakeWhile_imp hx
  · intro x hx
    apply getLast?_rdropWhile s x
    rw [hl, Option.mem_def, List.getLast?_append, Option.mem_def.mp hx]
    rfl

theorem strip_eq_of_isStrip {s m : List α} (h : IsStrip p s m) : strip p s = m := by
  obtain ⟨l, r, rfl, hl, hr⟩ := h.split
  unfold strip
  rw [rdropWhile_append_of_all hr]
  by_cases hm : m = []
  · -- nothing is left, so the right side has taken `l` as well
    subst hm
    have hnil : (l ++ []).rdropWhile p = [] := by
      rw [List.rdropWhile_eq_nil_iff]; simpa using hl
    rw [hnil]; rfl
  · have hlast : ∀ x ∈ (l ++ m).getLast?, ¬ p x := by
      rw [List.getLast?_append_of_ne_nil _ hm]; exact h.last
    rw [rdropWhile_of_last hlast, dropWhile_append_of_all hl, dropWhile_of_head h.head]

/-- `IsStrip` determines its result. -/
theorem isStrip_iff {s m : List α} : IsStrip p s m ↔ strip p s = m :=
  ⟨strip_eq_of_isStrip, fun h => h ▸ strip_isStrip s⟩

theorem strip_append_of_all {r : List α} (hr : ∀ x ∈ r, p x) (s : List α) :
    strip p (s ++ r) = strip p s := by
  unfold strip
  rw [rdropWhile_append_of_all hr]

theorem strip_cons_of_pos {x : α} (hx : p x) (s : List α) : strip p (x :: s) = strip p s := by
  apply strip_eq_of_isStrip
  have h := strip_isStrip (p := p) s
  obtain ⟨l, r, hs, hl, hr⟩ := h.split
  refine ⟨⟨x :: l, r, ?_, by simpa [hx] using hl, hr⟩, h.head, h.last⟩
  rw [List.cons_append, List.cons_append, ← hs]

/-- An element that is not trimmed away stays. -/
theorem mem_strip_of_mem {s : List α} {x : α} (hx : x ∈ s) (hp : ¬ p x) : x ∈ strip p s := by
  obtain ⟨l, r, hs, hl, hr⟩ := (strip_isStrip (p := p) s).split
  rw [hs] at hx
  simp only [List.mem_append] at hx
  rcases hx with (hx | hx) | hx
  · exact absurd (hl x hx) hp
  · exact hx
  · exact absurd (hr x hx) hp

theorem mem_of_mem_strip {s : List α} {x : α} (hx : x ∈ strip p s) : x ∈ s := by
  obtain ⟨l, r, hs, -, -⟩ := (strip_isStrip (p := p) s).split
  rw [hs]; simp [hx]

/-- Trimming removes no element outside `p`. -/
theorem filter_strip (s : List α) : (strip p s).filter (fun x => !p x) = s.filter fun x => !p x := by
  obtain ⟨l, r, hs, hl, hr⟩ := (strip_isStrip (p := p) s).split
  have hnone : ∀ t : List α, (∀ x ∈ t, p x) → t.filter (fun x => !p x) = [] := by
    intro t ht
    rw [List.filter_eq_nil_iff]
    intro x hx
    simp [ht x hx]
  conv => rhs; rw [hs]
  rw [List.filter_append, List.filter_append, hnone l hl, hnone r hr]
  simp

end strip

/-! ## The first separator -/

section cutAt
variable {α : Type _} [DecidableEq α]

/-- Both sides of the first `sep`, if there is one. -/
def cutAt (sep : α) : List α → Option (List α × List α)
  | [] => none
  | x :: s => if x = sep then some ([], s) else (cutAt sep s).map fun c => (x :: c.1, c.2)

theorem cutAt_eq_none_iff {sep : α} {s : List α} : cutAt sep s = none ↔ sep ∉ s := by
  induction s with
  | nil => simp [cutAt]
  | cons x s ih =>
    by_cases hx : x = sep
    · simp [cutAt, hx]
    · simp [cutAt, hx, ih, Ne.symm hx]

theorem cutAt_eq_some_iff {sep : α} {s l r : List α} :
    cutAt sep s = some (l, r) ↔ s = l ++ sep :: r ∧ sep ∉ l := by
  induction s generalizing l with
  | nil => simp [cutAt]
  | cons x s ih =>
    by_cases hx : x = sep
    · subst hx
      cases l with
      | nil => simp [cutAt]
      | cons y l => simp [cutAt]; intro h; simp [h]
    · -- `x` goes to the left side
      cases l with
      | nil => simp [cutAt, hx]
      | cons y l =>
        simp only [cutAt, hx, if_false, Option.map_eq_some_iff, Prod.exists, Prod.mk.injEq,
          List.cons.injEq, List.cons_append, List.mem_cons, not_or]
        constructor
        · intro h
          obtain ⟨l', r', h, ⟨rfl, rfl⟩, rfl⟩ := h
          obtain ⟨rfl, hl⟩ := ih.mp h
          exact ⟨⟨rfl, rfl⟩, Ne.symm hx, hl⟩
        · intro h
          obtain ⟨⟨rfl, rfl⟩, -, hl⟩ := h
          exact ⟨l, r, ih.mpr ⟨rfl, hl⟩, ⟨rfl, rfl⟩, rfl⟩

theorem cutAt_append {sep : α} {l : List α} (hl : sep ∉ l) (r : List α) :
    cutAt sep (l ++ sep :: r) = some (l, r) :=
  cutAt_eq_some_iff.mpr ⟨rfl, hl⟩

end cutAt

/-! ## C strings -/

/-- The text a reader of `s.c_str()` sees: everything before the first NUL. -/
def c_str (s : Bytes) : Bytes := s.takeWhile (· ≠ 0)

theorem not_nul_of_not_mem {s : Bytes} (h : (0 : UInt8) ∉ s) : ∀ b ∈ s, decide (b ≠ 0) = true := by
  intro b hb
  rw [decide_eq_true_iff]
  intro hnul
  exact h (hnul ▸ hb)

theorem c_str_of_not_mem {s : Bytes} (h : (0 : UInt8) ∉ s) : c_str s = s :=
  List.takeWhile_eq_self_iff.mpr (not_nul_of_not_mem h)

theorem not_mem_c_str (s : Bytes) : (0 : UInt8) ∉ c_str s := by
  intro h
  simpa using List.mem_takeWhile_imp h

theorem c_str_append {l : Bytes} (hl : (0 : UInt8) ∉ l) (r : Bytes) :
    c_str (l ++ r) = l ++ c_str r :=
  List.takeWhile_append_of_pos (not_nul_of_not_mem hl)

/-! ## Lines -/

/-- The lines of a block of text, each with the line feed that ends it. -/
def cutLines : Bytes → List Bytes
  | [] => []
  | b :: s =>
    if b = 10 then [b] :: cutLines s
    else match cutLines s with
      | [] => [[b]]
      | l :: ls => (b :: l) :: ls

theorem cutLines_line {l : Bytes} (hl : (10 : UInt8) ∉ l) (rest : Bytes) :
    cutLines (l ++ 10 :: rest) = (l ++ [10]) :: cutLines rest := by
  induction l with
  | nil => simp [cutLines]
  | cons b l ih =>
    have hb : b ≠ 10 := fun h => hl (by simp [h])
    have hl' : (10 : UInt8) ∉ l := fun h => hl (by simp [h])
    simp [cutLines, hb, ih hl']

/-- A block of text is cut at its complete lines independently of what follows. -/
theorem cutLines_append (s rest : Bytes) :
    cutLines (s ++ 10 :: rest) = cutLines (s ++ [10]) ++ cutLines rest := by
  induction s with
  | nil => simp [cutLines]
  | cons b s ih =>
    by_cases hb : b = 10
    · simp [cutLines, hb, ih]
    · -- the first line goes on, and there is one
      have hne : cutLines (s ++ [10]) ≠ [] := by
        cases s with
        | nil => simp [cutLines]
        | cons c s =>
          simp only [cutLines, List.cons_append]
          split
          · simp
          · split <;> simp
      obtain ⟨l, ls, hls⟩ := List.exists_cons_of_ne_nil hne
      simp [cutLines, hb, ih, hls]

/-! ## ASCII classes -/

/-- Space, `\t`, `\n`, `\v`, `\f` and `\r`. -/
def isSpace (b : UInt8) : Bool :=
  b = 0x20 || b = 0x09 || b = 0x0a || b = 0x0b || b = 0x0c || b = 0x0d

def isUpper (b : UInt8) : Bool := 0x41 ≤ b && b ≤ 0x5a

def isDigit (b : UInt8) : Bool := 0x30 ≤ b && b ≤ 0x39

/-- ASCII lower-casing of one byte. -/
def lower (b : UInt8) : UInt8 := if isUpper b then b + 0x20 else b

/-- A property of every byte, checked byte by byte. -/
theorem forall_byte {P : UInt8 → Prop} (h : ∀ n : Fin 256, P (UInt8.ofNat n)) (b : UInt8) :
    P b := by
  have hb := h ⟨b.toNat, b.toNat_lt⟩
  rwa [UInt8.ofNat_toNat] at hb

theorem not_isUpper_lower : ∀ b : UInt8, isUpper (lower b) = false :=
  forall_byte (by decide +kernel)

theorem not_isUpper_of_mem_map_lower {s : Bytes} {b : UInt8} (h : b ∈ s.map lower) :
    isUpper b = false := by
  obtain ⟨c, -, rfl⟩ := List.mem_map.mp h
  exact not_isUpper_lower c

/-! ## Decimal numerals -/

/-- The value of one decimal digit. -/
def digitVal (b : UInt8) : Nat := b.toNat - 0x30

/-- The value of a run of decimal digits, read after the value `n`. -/
def decimalFrom (n : Nat) (s : Bytes) : Nat := s.foldl (fun n b => 10 * n + digitVal b) n

/-- The value of a run of decimal digits. -/
def decimalVal (s : Bytes) : Nat := decimalFrom 0 s

/-- The ASCII digit of value `d`. -/
def digit (d : Nat) : UInt8 := UInt8.ofNat (0x30 + d)

/-- The decimal numeral of a number, as `std::to_string` writes it. -/
def decimal (n : Nat) : Bytes :=
  if n = 0 then [0x30] else (Nat.digits 10 n).reverse.map digit

theorem digit_spec : ∀ d < 10, isDigit (digit d) = true ∧ digitVal (digit d) = d := by
  decide

theorem decimalFrom_append (n : Nat) (s s' : Bytes) :
    decimalFrom n (s ++ s') = decimalFrom (decimalFrom n s) s' :=
  List.foldl_append

/-- Reading the digits of a number back, the most significant one first. -/
theorem decimalVal_digits {ds : List Nat} (h : ∀ d ∈ ds, d < 10) :
    decimalVal (ds.reverse.map digit) = Nat.ofDigits 10 ds := by
  induction ds with
  | nil => rfl
  | cons d ds ih =>
    have hd : digitVal (digit d) = d := (digit_spec d (h d (by simp))).2
    have hds := ih fun e he => h e (by simp [he])
    unfold decimalVal at hds ⊢
    rw [List.reverse_cons, List.map_append, decimalFrom_append, hds, Nat.ofDigits_cons]
    simp only [decimalFrom, List.map_cons, List.map_nil, List.foldl_cons, List.foldl_nil, hd]
    omega

/-- A numeral has the value it was made from. -/
theorem decimalVal_decimal (n : Nat) : decimalVal (decimal n) = n := by
  unfold decimal
  split
  · next h => rw [h]; decide
  · rw [decimalVal_digits fun d hd => Nat.digits_lt_base (by omega) hd, Nat.ofDigits_digits]

theorem isDigit_decimal (n : Nat) : ∀ b ∈ decimal n, isDigit b = true := by
  unfold decimal
  split
  · simp [isDigit]
  · intro b hb
    obtain ⟨d, hd, rfl⟩ := List.mem_map.mp hb
    exact (digit_spec d (Nat.digits_lt_base (by omega) (List.mem_reverse.mp hd))).1

theorem decimal_ne_nil (n : Nat) : decimal n ≠ [] := by
  unfold decimal
  split
  · simp
  · next h => simp [Nat.digits_ne_nil_iff_ne_zero.mpr h]

end Bytes
