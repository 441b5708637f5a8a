import Mathlib.Data.List.Forall2
import LambdaCpp.Base.Json
import LambdaCpp.Base.Utf8
import LambdaCpp.Runtime.InvocationResponse

/-! # The Error Payload as JSON

    `invocation_response::failure` builds a JSON text by hand.  Read byte by
    byte it is always an object with three members (`failure_payload_parses`),
    whatever the two strings are.  Read as Unicode text it gives the two
    strings back exactly when `char` is unsigned or both are ASCII
    (`failure_round_trip_iff`): with a signed `char` every byte above `0x7f`
    is taken for a control character and becomes `\uffff`.
-/

namespace LambdaCpp

open Bytes (ascii)

variable (t : Target)

/-- The numbers a JSON reader sees. -/
def byte_codes (s : Bytes) : List Nat := s.map UInt8.toNat

/-- The unit that an escaped character stands for. -/
def escaped_unit (ch : UInt8) : Nat :=
  if t.char_signed && 0x80 ≤ ch then 0xffff else ch.toNat

/-- Each character becomes one element of a JSON string. -/
theorem json_escape_char_element (ch : UInt8) :
    Json.Element (escaped_unit t ch) (byte_codes (json_escape_char t ch)) := by
  apply Json.element_of_isElement
  unfold escaped_unit json_escape_char Target.promote
  cases t.char_signed with
  | false => revert ch; exact Bytes.forall_byte (by decide +kernel)
  | true => revert ch; exact Bytes.forall_byte (by decide +kernel)

theorem byte_codes_json_escape (s : Bytes) :
    byte_codes (json_escape t s) = s.flatMap fun ch => byte_codes (json_escape_char t ch) := by
  rw [json_escape_eq]
  unfold byte_codes
  rw [List.map_flatMap]

theorem json_escape_body (s : Bytes) : Json.StringBody (byte_codes (json_escape t s)) := by
  rw [byte_codes_json_escape]
  exact Json.StringBody.flatMap fun ch _ => json_escape_char_element t ch

/-! ### The payload around the two strings -/

/-- The payload's text around two string bodies. -/
def error_text (message type : List Nat) : List Nat :=
  Json.codes "\x7b\"errorMessage\":\"" ++ message ++ Json.codes "\",\"errorType\":\"" ++ type ++
    Json.codes "\",\"stackTrace\":[]\x7d"

/-- The object it denotes. -/
def error_object (message type : List Nat) : Json.Value :=
  .object [(Json.codes "errorMessage", .string message), (Json.codes "errorType", .string type),
    (Json.codes "stackTrace", .array [])]

theorem parse_error_text {message type : List Nat} (hmessage : Json.StringBody message)
    (htype : Json.StringBody type) :
    Json.parse (error_text message type) = some (error_object message type) := by
  have hnames : ∀ name ∈ [Json.codes "errorMessage", Json.codes "errorType", Json.codes "stackTrace"],
      Json.StringBody name := by
    intro name hname
    apply Json.StringBody.of_plain
    revert name
    decide
  -- the text, member by member
  have htext : error_text message type = Json.openBrace :: Json.quote :: (Json.codes "errorMessage" ++
      Json.quote :: Json.code ':' :: Json.quote :: (message ++ Json.quote :: Json.code ',' ::
      Json.quote :: (Json.codes "errorType" ++ Json.quote :: Json.code ':' :: Json.quote :: (type ++
      Json.quote :: Json.code ',' :: Json.quote :: (Json.codes "stackTrace" ++ Json.quote ::
      Json.code ':' :: Json.openBracket :: Json.closeBracket :: Json.closeBrace :: []))))) := by
    unfold error_text
    simp only [List.append_assoc]
    rfl
  obtain ⟨fuel, hfuel⟩ : ∃ fuel, (error_text message type).length + 1 = fuel + 5 :=
    ⟨(error_text message type).length - 4, by rw [htext]; simp; omega⟩
  -- innermost first: each member is read with one unit of fuel less
  have hstack := Json.readMembers_last (hnames (Json.codes "stackTrace") (by simp))
    (Json.readValue_empty_array fuel [Json.closeBrace])
  have htypes := Json.readMembers_cons (hnames (Json.codes "errorType") (by simp))
    (Json.readValue_string fuel.succ htype _) hstack
  have hmembers := Json.readMembers_cons (hnames (Json.codes "errorMessage") (by simp))
    (Json.readValue_string (fuel + 2) hmessage _) htypes
  have hobject := Json.readValue_object hmembers
  unfold Json.parse
  rw [hfuel, htext, hobject]
  rfl

/-! ### Read byte by byte -/

theorem byte_codes_append (s s' : Bytes) : byte_codes (s ++ s') = byte_codes s ++ byte_codes s' :=
  List.map_append

theorem failure_payload_codes (message type : Bytes) :
    byte_codes (invocation_response.failure t message type).get_payload =
      error_text (byte_codes (json_escape t message)) (byte_codes (json_escape t type)) := by
  simp only [invocation_response.failure, invocation_response.failure_xray,
    runtime_response.get_payload, byte_codes_append, error_text]
  rfl

/-- **No JSON injection**: whatever the two strings are, the payload is one
    object with the three members, and the bodies of the first two are the
    escaped strings. -/
theorem failure_payload_parses (message type : Bytes) :
    Json.StringBody (byte_codes (json_escape t message)) ∧
      Json.StringBody (byte_codes (json_escape t type)) ∧
      Json.parse (byte_codes (invocation_response.failure t message type).get_payload) =
        some (.object
          [(Json.codes "errorMessage", .string (byte_codes (json_escape t message))),
            (Json.codes "errorType", .string (byte_codes (json_escape t type))),
            (Json.codes "stackTrace", .array [])]) := by
  have hmessage := json_escape_body t message
  have htype := json_escape_body t type
  refine ⟨hmessage, htype, ?_⟩
  rw [failure_payload_codes]
  exact parse_error_text hmessage htype

/-! ### Read as Unicode text -/

/-- The code points a JSON reader sees. -/
def char_codes (text : List Char) : List Nat := text.map Char.toNat

/-- The text has a member of that name, and it decodes to `value`. -/
def HasMember (members : List (List Nat × Json.Value)) (name : String) (value : List Char) : Prop :=
  ∃ body, members.lookup (Json.codes name) = some (.string body) ∧
    Json.unescape body = char_codes value

/-- `payload` is JSON whose members `errorMessage` and `errorType` decode to
    `message` and `type`. -/
def DecodesTo (payload : Bytes) (message type : List Char) : Prop :=
  ∃ text members, payload = utf8 text ∧ Json.parse (char_codes text) = some (.object members) ∧
    HasMember members "errorMessage" message ∧ HasMember members "errorType" type

/-- `json_escape` on the encoding of one character, as text. -/
def escaped_char (c : Char) : List Char :=
  if c.toNat < 0x80 then (json_escape_char t (UInt8.ofNat c.toNat)).map fun b => Char.ofNat b.toNat
  else [c]

/-- The characters `json_escape` handles as its comments say it should. -/
def Intact (c : Char) : Prop := t.char_signed = false ∨ c.toNat < 0x80

/-- What an ASCII character becomes is ASCII. -/
theorem json_escape_char_ascii : ∀ ch : UInt8, ch < 0x80 ∨ t.char_signed = true →
    ∀ b ∈ json_escape_char t ch, b < 0x80 := by
  unfold json_escape_char Target.promote
  cases t.char_signed with
  | false => exact Bytes.forall_byte (by decide +kernel)
  | true => exact Bytes.forall_byte (by decide +kernel)

/-- An unsigned `char` above `0x7f` is left as it is. -/
theorem json_escape_char_unsigned (hunsigned : t.char_signed = false) :
    ∀ ch : UInt8, 0x80 ≤ ch → json_escape_char t ch = [ch] := by
  unfold json_escape_char Target.promote
  rw [hunsigned]
  exact Bytes.forall_byte (by decide +kernel)

theorem toNat_ofNat_byte (b : UInt8) : (Char.ofNat b.toNat).toNat = b.toNat := by
  revert b
  exact Bytes.forall_byte (by decide +kernel)

/-- ASCII bytes are the encoding of the text they spell. -/
theorem utf8_of_ascii {s : Bytes} (h : ∀ b ∈ s, b < 0x80) :
    utf8 (s.map fun b => Char.ofNat b.toNat) = s := by
  induction s with
  | nil => rfl
  | cons b s ih =>
    have hb : (Char.ofNat b.toNat).toNat < 0x80 := by
      rw [toNat_ofNat_byte]
      exact UInt8.lt_iff_toNat_lt.mp (h b (by simp))
    rw [List.map_cons, utf8_cons, utf8EncodeChar_ascii hb, ih fun d hd => h d (by simp [hd]),
      toNat_ofNat_byte, UInt8.ofNat_toNat]
    rfl

theorem char_codes_of_bytes (s : Bytes) :
    char_codes (s.map fun b => Char.ofNat b.toNat) = byte_codes s := by
  unfold char_codes byte_codes
  rw [List.map_map]
  apply List.map_congr_left
  intro b _
  exact toNat_ofNat_byte b

theorem ofNat_toNat_ascii {c : Char} (h : c.toNat < 0x80) : (UInt8.ofNat c.toNat).toNat = c.toNat :=
  UInt8.toNat_ofNat_of_lt' (by unfold UInt8.size; omega)

theorem ofNat_lt_ascii {c : Char} (h : c.toNat < 0x80) : UInt8.ofNat c.toNat < 0x80 := by
  rw [UInt8.lt_iff_toNat_lt, ofNat_toNat_ascii h]
  exact h

theorem json_escape_utf8_char {c : Char} (h : Intact t c) :
    json_escape t (String.utf8EncodeChar c) = utf8 (escaped_char t c) := by
  rw [json_escape_eq]
  unfold escaped_char
  by_cases hc : c.toNat < 0x80
  · -- one byte, escaped on its own
    have hascii := json_escape_char_ascii t _ (Or.inl (ofNat_lt_ascii hc))
    rw [if_pos hc, utf8EncodeChar_ascii hc, utf8_of_ascii hascii]
    simp
  · -- only an unsigned `char` is left, and every byte of `c` is above `0x7f`
    have hunsigned := h.resolve_right hc
    have hbytes := (utf8EncodeChar_not_ascii hc).2
    have hsame : (String.utf8EncodeChar c).flatMap (json_escape_char t) =
        (String.utf8EncodeChar c).flatMap fun b => [b] :=
      List.flatMap_congr fun b hb => json_escape_char_unsigned t hunsigned b (hbytes b hb)
    rw [if_neg hc, hsame]
    simp

theorem json_escape_utf8 {text : List Char} (h : ∀ c ∈ text, Intact t c) :
    json_escape t (utf8 text) = utf8 (text.flatMap (escaped_char t)) := by
  induction text with
  | nil => rfl
  | cons c text ih =>
    have hc := json_escape_utf8_char t (h c (by simp))
    have htext := ih fun d hd => h d (by simp [hd])
    rw [json_escape_eq] at hc htext ⊢
    rw [utf8_cons, List.flatMap_append, hc, htext, List.flatMap_cons, utf8_append]

theorem escaped_char_element (c : Char) :
    Json.Element c.toNat (char_codes (escaped_char t c)) := by
  unfold escaped_char
  by_cases hc : c.toNat < 0x80
  · -- an ASCII character stands for itself, escaped or not
    have hunit : escaped_unit t (UInt8.ofNat c.toNat) = c.toNat := by
      unfold escaped_unit
      have hnot := UInt8.not_le.mpr (ofNat_lt_ascii hc)
      simp [hnot, ofNat_toNat_ascii hc]
    have helement := json_escape_char_element t (UInt8.ofNat c.toNat)
    rw [hunit] at helement
    rw [if_pos hc, char_codes_of_bytes]
    exact helement
  · rw [if_neg hc]
    exact .unescaped (by omega) (by unfold Json.quote; omega) (by unfold Json.backslash; omega)

theorem not_isHighSurrogate_char (c : Char) : Json.isHighSurrogate c.toNat = false := by
  have hvalid := c.valid
  have hval : c.toNat = c.val.toNat := rfl
  unfold Json.isHighSurrogate
  -- a `Char` is below the surrogates or above them
  rcases hvalid with h | h
  · simp only [Bool.and_eq_false_iff, decide_eq_false_iff_not]
    left
    omega
  · simp only [Bool.and_eq_false_iff, decide_eq_false_iff_not]
    right
    omega

theorem char_codes_flatMap_escaped (text : List Char) :
    char_codes (text.flatMap (escaped_char t)) = text.flatMap fun c => char_codes (escaped_char t c) := by
  unfold char_codes
  rw [List.map_flatMap]

/-- Escaping text can be undone. -/
theorem unescape_escaped (text : List Char) :
    Json.unescape (char_codes (text.flatMap (escaped_char t))) = char_codes text := by
  rw [char_codes_flatMap_escaped]
  exact Json.unescape_flatMap (fun c _ => escaped_char_element t c)
    fun c _ => not_isHighSurrogate_char c

theorem body_escaped (text : List Char) :
    Json.StringBody (char_codes (text.flatMap (escaped_char t))) := by
  rw [char_codes_flatMap_escaped]
  exact Json.StringBody.flatMap fun c _ => escaped_char_element t c

/-- The members of the payload's object. -/
theorem hasMember_error_object {message type : List Nat} {members : List (List Nat × Json.Value)}
    (h : error_object message type = .object members) {m n : List Char} :
    (HasMember members "errorMessage" m ↔ Json.unescape message = char_codes m) ∧
      (HasMember members "errorType" n ↔ Json.unescape type = char_codes n) := by
  simp only [error_object, Json.Value.object.injEq] at h
  subst h
  have hne : (Json.codes "errorType" == Json.codes "errorMessage") = false := by decide
  unfold HasMember
  simp [List.lookup_cons, hne]

/-- With characters that stay intact, the payload decodes to the strings. -/
theorem decodesTo_of_intact {message type : List Char} (hmessage : ∀ c ∈ message, Intact t c)
    (htype : ∀ c ∈ type, Intact t c) :
    DecodesTo (invocation_response.failure t (utf8 message) (utf8 type)).get_payload message type := by
  let m := message.flatMap (escaped_char t)
  let n := type.flatMap (escaped_char t)
  let text := "\x7b\"errorMessage\":\"".toList ++ m ++ "\",\"errorType\":\"".toList ++ n ++
    "\",\"stackTrace\":[]\x7d".toList
  have hpayload : (invocation_response.failure t (utf8 message) (utf8 type)).get_payload =
      utf8 text := by
    simp only [invocation_response.failure, invocation_response.failure_xray,
      runtime_response.get_payload, json_escape_utf8 t hmessage, json_escape_utf8 t htype, text,
      utf8_append, m, n]
    rfl
  have hcodes : char_codes text = error_text (char_codes m) (char_codes n) := by
    simp only [text, char_codes, error_text, Json.codes, List.map_append]
  have hparse := parse_error_text (body_escaped t message) (body_escaped t type)
  rw [← hcodes] at hparse
  have hmembers := @hasMember_error_object (char_codes m) (char_codes n) _ rfl message type
  exact ⟨text, _, hpayload, hparse, hmembers.1.mpr (unescape_escaped t message),
    hmembers.2.mpr (unescape_escaped t type)⟩

/-- A signed `char` leaves only ASCII in the payload. -/
theorem failure_payload_ascii (hsigned : t.char_signed = true) (message type : Bytes) :
    ∀ b ∈ (invocation_response.failure t message type).get_payload, b < 0x80 := by
  have hescape : ∀ s : Bytes, ∀ b ∈ json_escape t s, b < 0x80 := by
    intro s b hb
    rw [json_escape_eq] at hb
    obtain ⟨ch, -, hch⟩ := List.mem_flatMap.mp hb
    exact json_escape_char_ascii t ch (Or.inr hsigned) b hch
  have hliteral : ∀ s ∈ ["\x7b\"errorMessage\":\"", "\",\"errorType\":\"",
      "\",\"stackTrace\":[]\x7d"], ∀ b ∈ ascii s, b < 0x80 := by decide
  intro b hb
  simp only [invocation_response.failure, invocation_response.failure_xray,
    runtime_response.get_payload, List.mem_append] at hb
  rcases hb with (((hb | hb) | hb) | hb) | hb
  · exact hliteral _ (by simp) b hb
  · exact hescape _ b hb
  · exact hliteral _ (by simp) b hb
  · exact hescape _ b hb
  · exact hliteral _ (by simp) b hb

/-- What an escaped byte string decodes to: one unit for each byte. -/
theorem unescape_json_escape (s : Bytes) :
    Json.unescape (byte_codes (json_escape t s)) = s.map (escaped_unit t) := by
  rw [byte_codes_json_escape]
  apply Json.unescape_flatMap
  · intro ch _
    exact json_escape_char_element t ch
  · intro ch _
    unfold escaped_unit Json.isHighSurrogate
    have hch := ch.toNat_lt
    split
    · decide
    · simp only [Bool.and_eq_false_iff, decide_eq_false_iff_not]
      left
      omega

/-- With a signed `char`, only ASCII text survives: any other character
    comes back as several units. -/
theorem ascii_of_unescape {text : List Char}
    (h : Json.unescape (byte_codes (json_escape t (utf8 text))) = char_codes text) :
    ∀ c ∈ text, c.toNat < 0x80 := by
  rw [unescape_json_escape] at h
  -- one unit for each byte, one code point for each character
  apply ascii_of_length_utf8
  have hlength := congrArg List.length h
  simpa [char_codes] using hlength

theorem ascii_of_decodesTo (hsigned : t.char_signed = true) {message type : List Char}
    (h : DecodesTo (invocation_response.failure t (utf8 message) (utf8 type)).get_payload
      message type) :
    (∀ c ∈ message, c.toNat < 0x80) ∧ ∀ c ∈ type, c.toNat < 0x80 := by
  obtain ⟨text, members, hpayload, hparse, hmessage, htype⟩ := h
  -- the payload is ASCII, so the text can only be the one its bytes spell
  have hascii := utf8_of_ascii (failure_payload_ascii t hsigned (utf8 message) (utf8 type))
  have htext := utf8_injective (hpayload.symm.trans hascii.symm)
  rw [htext, char_codes_of_bytes, failure_payload_codes,
    parse_error_text (json_escape_body t _) (json_escape_body t _)] at hparse
  have hmembers := hasMember_error_object (Option.some.inj hparse) (m := message) (n := type)
  exact ⟨ascii_of_unescape t (hmembers.1.mp hmessage), ascii_of_unescape t (hmembers.2.mp htype)⟩

/-- **JSON error payload round trip**: the payload decodes to the two
    strings exactly when plain `char` is unsigned or both are ASCII. -/
theorem failure_round_trip_iff (message type : List Char) :
    DecodesTo (invocation_response.failure t (utf8 message) (utf8 type)).get_payload message type ↔
      t.char_signed = false ∨
        ((∀ c ∈ message, c.toNat < 0x80) ∧ ∀ c ∈ type, c.toNat < 0x80) := by
  constructor
  · intro h
    cases hsigned : t.char_signed with
    | false => exact Or.inl rfl
    | true => exact Or.inr (ascii_of_decodesTo t hsigned h)
  · intro h
    rcases h with hunsigned | ⟨hmessage, htype⟩
    · exact decodesTo_of_intact t (fun _ _ => Or.inl hunsigned) fun _ _ => Or.inl hunsigned
    · exact decodesTo_of_intact t (fun c hc => Or.inr (hmessage c hc))
        fun c hc => Or.inr (htype c hc)

/-- The message `é` on x86-64: the payload holds `\uffff` twice. -/
theorem failure_round_trip_e_acute :
    (invocation_response.failure (Target.standard true true []) (utf8 ['é'])
        (ascii "E")).get_payload =
      ascii "\x7b\"errorMessage\":\"\\uffff\\uffff\",\"errorType\":\"E\",\"stackTrace\":[]\x7d" ∧
    ¬ DecodesTo (invocation_response.failure (Target.standard true true []) (utf8 ['é'])
        (utf8 ['E'])).get_payload ['é'] ['E'] := by
  refine ⟨by decide +kernel, ?_⟩
  intro h
  have hascii := (ascii_of_decodesTo (Target.standard true true []) rfl h).1 'é' (by simp)
  exact absurd hascii (by decide)

/-! ### What a payload tells apart -/

/-- Two bytes that a payload does not tell apart. -/
def Confused (a b : UInt8) : Prop := a = b ∨ (t.char_signed = true ∧ 0x80 ≤ a ∧ 0x80 ≤ b)

theorem escaped_unit_eq_iff {a b : UInt8} : escaped_unit t a = escaped_unit t b ↔ Confused t a b := by
  have hsmall : ∀ b : UInt8, b.toNat ≠ 0xffff := by
    intro b hb
    have hlt := b.toNat_lt
    omega
  unfold escaped_unit Confused
  by_cases hsigned : t.char_signed = true
  · by_cases ha : 0x80 ≤ a
    · by_cases hb : 0x80 ≤ b
      · simp [hsigned, ha, hb]
      · -- only one of them is a control character for the code
        have hne : a ≠ b := by
          rintro rfl
          exact hb ha
        simp [hsigned, ha, hb, hne, (hsmall b).symm]
    · by_cases hb : 0x80 ≤ b
      · have hne : a ≠ b := by
          rintro rfl
          exact ha hb
        simp [hsigned, ha, hb, hne, hsmall a]
      · simp [hsigned, ha, hb, UInt8.toNat_inj]
  · simp [hsigned, UInt8.toNat_inj]

/-- A signed `char` above `0x7f` always becomes the same text. -/
theorem json_escape_char_signed (hsigned : t.char_signed = true) :
    ∀ ch : UInt8, 0x80 ≤ ch → json_escape_char t ch = ascii "\\uffff" := by
  unfold json_escape_char Target.promote
  rw [hsigned]
  exact Bytes.forall_byte (by decide +kernel)

theorem json_escape_char_confused {a b : UInt8} (h : Confused t a b) :
    json_escape_char t a = json_escape_char t b := by
  rcases h with rfl | ⟨hsigned, ha, hb⟩
  · rfl
  · rw [json_escape_char_signed t hsigned a ha, json_escape_char_signed t hsigned b hb]

theorem json_escape_eq_iff {s s' : Bytes} :
    json_escape t s = json_escape t s' ↔ List.Forall₂ (Confused t) s s' := by
  constructor
  · intro h
    -- the two decode to the same units
    have hunits := unescape_json_escape t s
    rw [h, unescape_json_escape, ← List.forall₂_eq_eq_eq, List.forall₂_map_left_iff,
      List.forall₂_map_right_iff] at hunits
    exact hunits.flip.imp fun a b hab => (escaped_unit_eq_iff t).mp hab.symm
  · intro h
    rw [json_escape_eq, json_escape_eq]
    induction h with
    | nil => rfl
    | cons hab _ ih => rw [List.flatMap_cons, List.flatMap_cons, json_escape_char_confused t hab, ih]

theorem byte_codes_injective {s s' : Bytes} (h : byte_codes s = byte_codes s') : s = s' :=
  List.map_injective_iff.mpr (fun _ _ => UInt8.toNat_inj.mp) h

/-- **When two errors look the same**: a payload gives the message and the
    type away, except that with a signed `char` any bytes above `0x7f` look
    alike. -/
theorem failure_payload_eq_iff (message type message' type' : Bytes) :
    (invocation_response.failure t message type).get_payload =
        (invocation_response.failure t message' type').get_payload ↔
      List.Forall₂ (Confused t) message message' ∧ List.Forall₂ (Confused t) type type' := by
  rw [← json_escape_eq_iff, ← json_escape_eq_iff]
  constructor
  · intro h
    have hparse := parse_error_text (json_escape_body t message) (json_escape_body t type)
    rw [← failure_payload_codes, h, failure_payload_codes,
      parse_error_text (json_escape_body t message') (json_escape_body t type')] at hparse
    -- the same object, so the same two members
    simp only [error_object, Option.some.injEq, Json.Value.object.injEq, List.cons.injEq,
      Prod.mk.injEq, Json.Value.string.injEq, true_and, and_true] at hparse
    exact ⟨byte_codes_injective hparse.1.symm, byte_codes_injective hparse.2.symm⟩
  · intro h
    obtain ⟨hmessage, htype⟩ := h
    simp only [invocation_response.failure, invocation_response.failure_xray,
      runtime_response.get_payload, hmessage, htype]

end LambdaCpp
