import LambdaCpp.Base.Bytes

/-! # UTF-8

    The encoding of a sequence of Unicode scalar values, from the encoding
    of one of them in the core library: a byte string is valid UTF-8 exactly
    when it is `utf8 text` for some `text`, and then for only one.
-/

/-- The UTF-8 encoding of a text. -/
def utf8 (text : List Char) : Bytes := text.flatMap String.utf8EncodeChar

@[simp] theorem utf8_nil : utf8 [] = [] := rfl

@[simp] theorem utf8_append (l l' : List Char) : utf8 (l ++ l') = utf8 l ++ utf8 l' :=
  List.flatMap_append

@[simp] theorem utf8_cons (c : Char) (l : List Char) :
    utf8 (c :: l) = String.utf8EncodeChar c ++ utf8 l := rfl

/-- The encoding determines the text. -/
theorem utf8_injective {l l' : List Char} (h : utf8 l = utf8 l') : l = l' := by
  have hbytes : l.utf8Encode = l'.utf8Encode := congrArg List.toByteArray h
  have hdecode := congrArg ByteArray.utf8Decode? hbytes
  rw [List.utf8Decode?_utf8Encode, List.utf8Decode?_utf8Encode] at hdecode
  simpa using hdecode

/-- An ASCII character is one byte. -/
theorem utf8EncodeChar_ascii {c : Char} (h : c.toNat < 0x80) :
    String.utf8EncodeChar c = [UInt8.ofNat c.toNat] := by
  have hle : c.val.toNat ≤ 0x7f := Nat.le_of_lt_succ h
  unfold String.utf8EncodeChar
  simp only [hle, if_true]
  rfl

/-- Any other character is bytes above `0x7f`, at least two of them. -/
theorem utf8EncodeChar_not_ascii {c : Char} (h : ¬ c.toNat < 0x80) :
    2 ≤ (String.utf8EncodeChar c).length ∧ ∀ b ∈ String.utf8EncodeChar c, 0x80 ≤ b := by
  have hgt : ¬ c.val.toNat ≤ 0x7f := fun hle => h (Nat.lt_succ_of_le hle)
  have hbyte : ∀ n : Nat, 0x80 ≤ n → n < 0x100 → (0x80 : UInt8) ≤ UInt8.ofNat n := by
    intro n hlo hhi
    rw [UInt8.le_iff_toNat_le, UInt8.toNat_ofNat_of_lt' hhi]
    exact hlo
  unfold String.utf8EncodeChar
  simp only [hgt, if_false]
  split
  · refine ⟨by simp, ?_⟩
    simp only [List.mem_cons, List.not_mem_nil, or_false, forall_eq_or_imp, forall_eq]
    exact ⟨hbyte _ (by omega) (by omega), hbyte _ (by omega) (by omega)⟩
  · split
    · refine ⟨by simp, ?_⟩
      simp only [List.mem_cons, List.not_mem_nil, or_false, forall_eq_or_imp, forall_eq]
      exact ⟨hbyte _ (by omega) (by omega), hbyte _ (by omega) (by omega),
        hbyte _ (by omega) (by omega)⟩
    · refine ⟨by simp, ?_⟩
      simp only [List.mem_cons, List.not_mem_nil, or_false, forall_eq_or_imp, forall_eq]
      exact ⟨hbyte _ (by omega) (by omega), hbyte _ (by omega) (by omega),
        hbyte _ (by omega) (by omega), hbyte _ (by omega) (by omega)⟩

/-- A text with a character outside ASCII has more bytes than characters. -/
theorem length_le_length_utf8 (l : List Char) : l.length ≤ (utf8 l).length := by
  induction l with
  | nil => simp
  | cons c l ih =>
    have hpos := List.length_pos_of_ne_nil (String.utf8EncodeChar_ne_nil (c := c))
    rw [utf8_cons, List.length_append, List.length_cons]
    omega

theorem ascii_of_length_utf8 {l : List Char} (h : (utf8 l).length = l.length) :
    ∀ c ∈ l, c.toNat < 0x80 := by
  induction l with
  | nil => simp
  | cons c l ih =>
    have hpos := List.length_pos_of_ne_nil (String.utf8EncodeChar_ne_nil (c := c))
    have hle := length_le_length_utf8 l
    rw [utf8_cons, List.length_append, List.length_cons] at h
    intro d hd
    rcases List.mem_cons.mp hd with rfl | hd
    · by_contra hnot
      have := (utf8EncodeChar_not_ascii hnot).1
      omega
    · exact ih (by omega) d hd
