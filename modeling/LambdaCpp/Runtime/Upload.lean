import LambdaCpp.Target

/-! # The Upload Callback

    `read_data` hands libcurl the payload piece by piece.  Its context is a
    reference to the payload and an offset into it, with nothing in the type
    that keeps the offset inside the payload: `length() - offset` is an
    unsigned subtraction.

    `Cut` is the same context with the bound as a field.  `read_data_eq`
    states that from a cut the code moves to a later cut and returns exactly
    the bytes between them, so no call can leave the payload, and
    `read_data_streams_payload` what any infinite sequence of calls returns.
-/

namespace LambdaCpp

/-! ### The code -/

/-- `a - b` in `size_t`. -/
def size_t_sub (a b : Nat) : Nat := if b ≤ a then a - b else a + 2 ^ 64 - b

/-- `std::pair<std::string const&, size_t>`. -/
structure upload_ctx where
  first : Bytes
  second : Nat
  deriving DecidableEq, Repr

/-- `std::copy_n` from `s.begin() + start`. -/
def copy_n (s : Bytes) (start count : Nat) : Checked Bytes :=
  if start + count ≤ s.length then .ok ((s.drop start).take count) else .error .out_of_range

/-- What one call leaves behind. -/
structure read_result where
  /-- The value returned. -/
  returned : Nat
  /-- The bytes written to the buffer. -/
  buffer : Bytes
  /-- The context after the call. -/
  ctx : upload_ctx
  deriving DecidableEq, Repr

def read_data (size nitems : Nat) (ctx : upload_ctx) : Checked read_result := do
  let limit := size * nitems % 2 ^ 64
  let unread := size_t_sub ctx.first.length ctx.second
  if unread = 0 then
    return ⟨0, [], ctx⟩
  if unread ≤ limit then
    let block ← copy_n ctx.first ctx.second unread
    return ⟨unread, block, { ctx with second := ctx.second + unread }⟩
  let block ← copy_n ctx.first ctx.second limit
  return ⟨limit, block, { ctx with second := ctx.second + limit }⟩

/-- The entry `do_post` announces the payload with. -/
def content_length_header (payload : Bytes) : Bytes :=
  Bytes.ascii "content-length: " ++ Bytes.decimal payload.length

/-! ### Cuts of a payload -/

/-- A position between two bytes of the payload. -/
structure Cut (payload : Bytes) where
  offset : Nat
  bounded : offset ≤ payload.length

namespace Cut
variable {payload : Bytes}

def start (payload : Bytes) : Cut payload := ⟨0, Nat.zero_le _⟩

/-- At most `limit` bytes from the cut on. -/
def block (c : Cut payload) (limit : Nat) : Bytes := (payload.drop c.offset).take limit

/-- The cut after the block. -/
def advance (c : Cut payload) (limit : Nat) : Cut payload where
  offset := c.offset + min limit (payload.length - c.offset)
  bounded := by have := c.bounded; omega

/-- The context of `read_data` at a cut. -/
def ctx (c : Cut payload) : upload_ctx := ⟨payload, c.offset⟩

@[simp] theorem ctx_first (c : Cut payload) : c.ctx.first = payload := rfl

@[simp] theorem ctx_second (c : Cut payload) : c.ctx.second = c.offset := rfl

theorem length_block (c : Cut payload) (limit : Nat) :
    (c.block limit).length = min limit (payload.length - c.offset) := by
  simp [block]

theorem block_eq_nil_iff (c : Cut payload) {limit : Nat} (h : 1 ≤ limit) :
    c.block limit = [] ↔ c.offset = payload.length := by
  have hb := c.bounded
  rw [← List.length_eq_zero_iff, length_block]
  omega

theorem take_advance (c : Cut payload) (limit : Nat) :
    payload.take (c.advance limit).offset = payload.take c.offset ++ c.block limit := by
  unfold advance block
  rw [List.take_add, ← List.length_drop, ← List.take_take, List.take_length]

end Cut

/-- What follows the cut after a block. -/
theorem Cut.drop_advance {payload : Bytes} (c : Cut payload) (limit : Nat) :
    payload.drop (c.advance limit).offset = (payload.drop c.offset).drop limit := by
  show payload.drop (c.offset + min limit (payload.length - c.offset)) = _
  rw [List.drop_drop]
  rcases Nat.le_total limit (payload.length - c.offset) with hle | hle
  · rw [Nat.min_eq_left hle]
  · -- nothing is left
    have hb := c.bounded
    rw [Nat.min_eq_right hle, List.drop_eq_nil_of_le (by omega), List.drop_eq_nil_of_le (by omega)]

/-- **`read_data` from a cut**: it returns the next block and moves past it. -/
theorem read_data_eq {payload : Bytes} (c : Cut payload) (size nitems : Nat) :
    read_data size nitems c.ctx =
      .ok ⟨(c.block (size * nitems % 2 ^ 64)).length, c.block (size * nitems % 2 ^ 64),
        (c.advance (size * nitems % 2 ^ 64)).ctx⟩ := by
  have hb := c.bounded
  -- the subtraction does not wrap: the offset is inside the payload
  have hunread : size_t_sub payload.length c.offset = payload.length - c.offset := by
    simp [size_t_sub, hb]
  unfold read_data
  simp only [Cut.ctx_first, Cut.ctx_second, Cut.length_block, hunread]
  generalize size * nitems % 2 ^ 64 = limit
  by_cases hdone : payload.length - c.offset = 0
  · -- everything has been delivered
    have hnil : payload.drop c.offset = [] := List.drop_eq_nil_of_le (by omega)
    simp [hdone, Cut.block, Cut.advance, hnil]
  · by_cases hle : payload.length - c.offset ≤ limit
    · -- the rest fits
      have hcopy : copy_n payload c.offset (payload.length - c.offset) = .ok (c.block limit) := by
        unfold copy_n Cut.block
        rw [if_pos (by omega), ← List.length_drop, List.take_length,
          List.take_of_length_le (by rw [List.length_drop]; exact hle)]
      rw [if_neg hdone, if_pos hle, hcopy]
      simp [Cut.advance, Cut.ctx, Nat.min_eq_right hle]
    · -- the buffer is filled
      have hcopy : copy_n payload c.offset limit = .ok (c.block limit) := by
        unfold copy_n Cut.block
        rw [if_pos (by omega)]
      rw [if_neg hdone, if_neg hle, hcopy]
      simp [Cut.advance, Cut.ctx, Nat.min_eq_left (Nat.le_of_not_le hle)]

/-! ### Sequences of calls -/

/-- The cut before call `n`, when call `k` may return up to `limit k` bytes. -/
def cuts (payload : Bytes) (limit : Nat → Nat) : Nat → Cut payload
  | 0 => Cut.start payload
  | n + 1 => (cuts payload limit n).advance (limit n)

section cuts
variable {payload : Bytes} {limit : Nat → Nat}

/-- The blocks returned so far are the payload up to the cut. -/
theorem flatMap_block_eq_take (n : Nat) :
    ((List.range n).flatMap fun k => (cuts payload limit k).block (limit k)) =
      payload.take (cuts payload limit n).offset := by
  induction n with
  | zero => simp [cuts, Cut.start]
  | succ n ih =>
    rw [List.range_succ, List.flatMap_append, ih, cuts, Cut.take_advance]
    simp

/-- Every call makes progress until the payload is exhausted. -/
theorem min_le_cuts_offset (hlimit : ∀ k, 1 ≤ limit k) (n : Nat) :
    min n payload.length ≤ (cuts payload limit n).offset := by
  induction n with
  | zero => simp
  | succ n ih =>
    have hn := hlimit n
    have hb := (cuts payload limit n).bounded
    simp only [cuts, Cut.advance]
    omega

theorem cuts_offset_eq_length (hlimit : ∀ k, 1 ≤ limit k) {n : Nat} (hn : payload.length ≤ n) :
    (cuts payload limit n).offset = payload.length := by
  have hmin : min n payload.length ≤ (cuts payload limit n).offset := min_le_cuts_offset hlimit n
  have hb := (cuts payload limit n).bounded
  omega

theorem cuts_offset_mono {m n : Nat} (h : m ≤ n) :
    (cuts payload limit m).offset ≤ (cuts payload limit n).offset := by
  induction n with
  | zero =>
    have : m = 0 := Nat.le_zero.mp h
    rw [this]
  | succ n ih =>
    rcases Nat.eq_or_lt_of_le h with rfl | hlt
    · exact Nat.le_refl _
    · have hn := ih (by omega)
      simp only [cuts, Cut.advance]
      omega

end cuts

/-- The number after `content-length: ` is the length of the payload. -/
theorem content_length_header_value (payload : Bytes) :
    ∃ digits, content_length_header payload = Bytes.ascii "content-length: " ++ digits ∧
      digits ≠ [] ∧ (∀ b ∈ digits, Bytes.isDigit b) ∧
      Bytes.decimalVal digits = payload.length :=
  ⟨_, rfl, Bytes.decimal_ne_nil _, Bytes.isDigit_decimal _, Bytes.decimalVal_decimal _⟩

/-- **The upload callback streams exactly the payload**, for every sequence
    of buffer sizes libcurl may pass, starting from offset 0. -/
theorem read_data_streams_payload (payload : Bytes) (size nitems : Nat → Nat)
    (hpos : ∀ k, 1 ≤ size k * nitems k) (hfits : ∀ k, size k * nitems k < 2 ^ 64) :
    ∃ (offset : Nat → Nat) (block : Nat → Bytes),
      offset 0 = 0 ∧
      (∀ k, read_data (size k) (nitems k) ⟨payload, offset k⟩ =
        .ok ⟨(block k).length, block k, ⟨payload, offset (k + 1)⟩⟩) ∧
      (∀ k, offset k ≤ payload.length ∧
        size_t_sub payload.length (offset k) = payload.length - offset k) ∧
      (∀ k, (block k).length ≤ size k * nitems k) ∧
      (∀ k, (block k).length = 0 →
        (List.range k).flatMap block = payload ∧ ∀ j, k ≤ j → (block j).length = 0) ∧
      (∃ k, k < payload.length + 1 ∧ (block k).length = 0) ∧
      (∀ n, payload.length ≤ n → (List.range n).flatMap block = payload) ∧
      ∃ digits, content_length_header payload = Bytes.ascii "content-length: " ++ digits ∧
        (∀ b ∈ digits, Bytes.isDigit b) ∧
        ∀ n, payload.length ≤ n →
          Bytes.decimalVal digits = ((List.range n).map fun k => (block k).length).sum := by
  let limit := fun k => size k * nitems k
  have hlimit : ∀ k, 1 ≤ limit k := hpos
  have hmod : ∀ k, size k * nitems k % 2 ^ 64 = limit k := fun k => Nat.mod_eq_of_lt (hfits k)
  -- an empty block means that the cut is at the end
  have hempty : ∀ k, ((cuts payload limit k).block (limit k)).length = 0 ↔
      (cuts payload limit k).offset = payload.length := by
    intro k
    rw [List.length_eq_zero_iff]
    exact Cut.block_eq_nil_iff _ (hlimit k)
  have hall : ∀ n, payload.length ≤ n →
      ((List.range n).flatMap fun k => (cuts payload limit k).block (limit k)) = payload := by
    intro n hn
    rw [flatMap_block_eq_take, cuts_offset_eq_length hlimit hn, List.take_length]
  obtain ⟨digits, hheader, -, hdigits, hval⟩ := content_length_header_value payload
  refine ⟨fun k => (cuts payload limit k).offset,
    fun k => (cuts payload limit k).block (limit k), rfl, ?_, ?_, ?_, ?_, ?_, hall,
    digits, hheader, hdigits, ?_⟩
  · intro k
    have h := read_data_eq (cuts payload limit k) (size k) (nitems k)
    rw [hmod k] at h
    exact h
  · intro k
    have hb := (cuts payload limit k).bounded
    exact ⟨hb, by simp [size_t_sub, hb]⟩
  · intro k
    simp only [Cut.length_block]
    exact Nat.min_le_left _ _
  · -- once a call returns 0, everything is delivered and stays so
    intro k hk
    have hdone := (hempty k).mp hk
    refine ⟨by rw [flatMap_block_eq_take, hdone, List.take_length], ?_⟩
    intro j hj
    have hmono : (cuts payload limit k).offset ≤ (cuts payload limit j).offset :=
      cuts_offset_mono hj
    have hb := (cuts payload limit j).bounded
    exact (hempty j).mpr (by omega)
  · exact ⟨payload.length, by omega,
      (hempty _).mpr (cuts_offset_eq_length hlimit (Nat.le_refl _))⟩
  · intro n hn
    have hlen := congrArg List.length (hall n hn)
    rw [hval, ← hlen, List.length_flatMap]

/-- Seven bytes through buffers of 3, 4 and 2 bytes. -/
theorem read_data_streams_payload_seven :
    ∃ (offset : Nat → Nat) (block : Nat → Bytes),
      offset 0 = 0 ∧
      (∀ k, read_data 1 (k % 3 + 2) ⟨Bytes.ascii "payload", offset k⟩ =
        .ok ⟨(block k).length, block k, ⟨Bytes.ascii "payload", offset (k + 1)⟩⟩) ∧
      (List.range 7).flatMap block = Bytes.ascii "payload" := by
  obtain ⟨offset, block, h0, hread, -, -, -, -, hall, -⟩ :=
    read_data_streams_payload (Bytes.ascii "payload") (fun _ => 1) (fun k => k % 3 + 2)
      (fun k => by omega) (fun k => by omega)
  exact ⟨offset, block, h0, hread, hall 7 (by decide)⟩

end LambdaCpp
