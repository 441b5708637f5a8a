import Mathlib.Data.List.Basic

/-! # JSON Text

    The grammar of RFC 8259 over sequences of numbers, so that one reader
    serves both for text given as Unicode code points and for text read byte
    by byte.

    * `Element` and `StringBody`: the grammar of what stands between two
      quotes, and `readBody`, which reads a body up to the quote that closes
      it.
    * `parse`: the value a text denotes, with the bodies of its strings left
      as they stand in the text.
    * `unescape`: the code points a string body stands for.

    The readers of values take fuel; every nested call has consumed a
    character, so the length of the text is enough.
-/

namespace Json

/-- The code of an ASCII character. -/
def code (c : Char) : Nat := c.toNat

/-- The codes of an ASCII literal. -/
def codes (s : String) : List Nat := s.toList.map Char.toNat

def quote : Nat := 0x22
def backslash : Nat := 0x5c
def letter_u : Nat := 0x75
def openBrace : Nat := 0x7b
def closeBrace : Nat := 0x7d
def openBracket : Nat := 0x5b
def closeBracket : Nat := 0x5d

/-! ### Strings -/

/-- The characters that may follow a backslash, without `u`. -/
def isEscape (c : Nat) : Bool :=
  c = 0x22 || c = 0x5c || c = 0x2f || c = 0x62 || c = 0x66 || c = 0x6e || c = 0x72 || c = 0x74

def isHex (c : Nat) : Bool :=
  (0x30 ≤ c && c ≤ 0x39) || (0x41 ≤ c && c ≤ 0x46) || (0x61 ≤ c && c ≤ 0x66)

def hexVal (c : Nat) : Nat :=
  if c ≤ 0x39 then c - 0x30 else if c ≤ 0x46 then c - 0x41 + 10 else c - 0x61 + 10

/-- The number four hexadecimal digits stand for. -/
def hexVal4 (a b c d : Nat) : Nat := ((hexVal a * 16 + hexVal b) * 16 + hexVal c) * 16 + hexVal d

/-- The character a two-character escape stands for. -/
def escapeVal (e : Nat) : Nat :=
  if e = 0x62 then 0x08
  else if e = 0x66 then 0x0c
  else if e = 0x6e then 0x0a
  else if e = 0x72 then 0x0d
  else if e = 0x74 then 0x09
  else e

/-- `Element v s`: the characters `s` are one element of a string and stand
    for the unit `v`. -/
inductive Element : Nat → List Nat → Prop where
  | unescaped {c} : 0x20 ≤ c → c ≠ quote → c ≠ backslash → Element c [c]
  | escape {e} : isEscape e → Element (escapeVal e) [backslash, e]
  | unicode {a b c d} : isHex a → isHex b → isHex c → isHex d →
      Element (hexVal4 a b c d) [backslash, letter_u, a, b, c, d]

/-- `Element`, as a check. -/
def isElement (v : Nat) : List Nat → Bool
  | [c] => 0x20 ≤ c && c ≠ quote && c ≠ backslash && c = v
  | [x, e] => x = backslash && isEscape e && escapeVal e = v
  | [x, u, a, b, c, d] =>
    x = backslash && u = letter_u && isHex a && isHex b && isHex c && isHex d && hexVal4 a b c d = v
  | _ => false

theorem element_of_isElement {v : Nat} {s : List Nat} (h : isElement v s = true) : Element v s := by
  unfold isElement at h
  split at h
  · simp only [Bool.and_eq_true, decide_eq_true_eq] at h
    obtain ⟨⟨⟨hc, hq⟩, hb⟩, rfl⟩ := h
    exact .unescaped hc hq hb
  · simp only [Bool.and_eq_true, decide_eq_true_eq] at h
    obtain ⟨⟨rfl, he⟩, rfl⟩ := h
    exact .escape he
  · simp only [Bool.and_eq_true, decide_eq_true_eq] at h
    obtain ⟨⟨⟨⟨⟨⟨rfl, rfl⟩, ha⟩, hb⟩, hc⟩, hd⟩, rfl⟩ := h
    exact .unicode ha hb hc hd
  · cases h

/-- What may stand between the quotes of a string. -/
inductive StringBody : List Nat → Prop where
  | nil : StringBody []
  | cons {v e s} : Element v e → StringBody s → StringBody (e ++ s)

/-- A body made element by element. -/
theorem StringBody.flatMap {α : Type _} {f : α → List Nat} {unit : α → Nat} {l : List α}
    (h : ∀ x ∈ l, Element (unit x) (f x)) : StringBody (l.flatMap f) := by
  induction l with
  | nil => exact .nil
  | cons x l ih =>
    rw [List.flatMap_cons]
    exact .cons (h x (by simp)) (ih fun y hy => h y (by simp [hy]))

/-- Read a string from after its opening quote: its body, and what follows
    the closing quote. -/
def readBody : List Nat → Option (List Nat × List Nat)
  | [] => none
  | c :: s =>
    if c = quote then some ([], s)
    else if c = backslash then
      match s with
      | [] => none
      | e :: s =>
        if e = letter_u then
          match s with
          | h₁ :: h₂ :: h₃ :: h₄ :: s =>
            if isHex h₁ && isHex h₂ && isHex h₃ && isHex h₄ then
              (readBody s).map fun r => (c :: e :: h₁ :: h₂ :: h₃ :: h₄ :: r.1, r.2)
            else none
          | _ => none
        else if isEscape e then (readBody s).map fun r => (c :: e :: r.1, r.2)
        else none
    else if c < 0x20 then none
    else (readBody s).map fun r => (c :: r.1, r.2)

theorem backslash_ne_quote : backslash ≠ quote := by decide

theorem isEscape_ne_u {e : Nat} (h : isEscape e = true) : e ≠ letter_u := by
  intro heq
  subst heq
  exact absurd h (by decide)

/-- A body is read up to the first quote after it. -/
theorem readBody_append {body : List Nat} (h : StringBody body) (rest : List Nat) :
    readBody (body ++ quote :: rest) = some (body, rest) := by
  induction h with
  | nil =>
    unfold readBody
    simp
  | cons he _ ih =>
    cases he with
    | unescaped hc hq hb =>
      have hge := Nat.not_lt.mpr hc
      simp only [List.cons_append, List.nil_append]
      unfold readBody
      simp [hq, hb, hge, ih]
    | escape he =>
      simp only [List.cons_append, List.nil_append]
      unfold readBody
      simp [isEscape_ne_u he, he, ih, backslash_ne_quote]
    | unicode ha hb hc hd =>
      simp only [List.cons_append, List.nil_append]
      unfold readBody
      simp [ha, hb, hc, hd, ih, backslash_ne_quote]

/-! ### What a string stands for -/

/-- The units of a body: code points, and UTF-16 code units where it has
    `\u` escapes. -/
def units : List Nat → List Nat
  | [] => []
  | c :: s =>
    if c = backslash then
      match s with
      | [] => []
      | e :: s =>
        if e = letter_u then
          match s with
          | h₁ :: h₂ :: h₃ :: h₄ :: s =>
            hexVal4 h₁ h₂ h₃ h₄ :: units s
          | _ => []
        else escapeVal e :: units s
    else c :: units s

def isHighSurrogate (n : Nat) : Bool := 0xd800 ≤ n && n < 0xdc00
def isLowSurrogate (n : Nat) : Bool := 0xdc00 ≤ n && n < 0xe000

/-- Each surrogate pair becomes the code point it encodes. -/
def joinSurrogates : List Nat → List Nat
  | [] => []
  | [n] => [n]
  | h :: l :: s =>
    if isHighSurrogate h && isLowSurrogate l then
      (0x10000 + (h - 0xd800) * 0x400 + (l - 0xdc00)) :: joinSurrogates s
    else h :: joinSurrogates (l :: s)

/-- The code points a body stands for. -/
def unescape (body : List Nat) : List Nat := joinSurrogates (units body)

theorem joinSurrogates_of_not {s : List Nat} (h : ∀ n ∈ s, isHighSurrogate n = false) :
    joinSurrogates s = s := by
  induction s with
  | nil => rfl
  | cons n s ih =>
    have hn := h n (by simp)
    have hs := ih fun m hm => h m (by simp [hm])
    cases s with
    | nil => rfl
    | cons l s => simp [joinSurrogates, hn, hs]

theorem units_element {v : Nat} {e : List Nat} (h : Element v e) (s : List Nat) :
    units (e ++ s) = v :: units s := by
  cases h with
  | unescaped hc hq hb =>
    simp only [List.cons_append, List.nil_append]
    rw [units.eq_def]
    simp [hb]
  | escape he =>
    simp only [List.cons_append, List.nil_append]
    rw [units.eq_def]
    simp [isEscape_ne_u he]
  | unicode ha hb hc hd =>
    simp only [List.cons_append, List.nil_append]
    rw [units.eq_def]
    simp

/-- The units of a body made element by element. -/
theorem units_flatMap {α : Type _} {f : α → List Nat} {unit : α → Nat} {l : List α}
    (h : ∀ x ∈ l, Element (unit x) (f x)) : units (l.flatMap f) = l.map unit := by
  induction l with
  | nil => rfl
  | cons x l ih =>
    have hrest := ih fun y hy => h y (by simp [hy])
    rw [List.flatMap_cons, units_element (h x (by simp)), hrest, List.map_cons]

/-- **A body made element by element** from units that are no surrogates
    stands for these units. -/
theorem unescape_flatMap {α : Type _} {f : α → List Nat} {unit : α → Nat} {l : List α}
    (h : ∀ x ∈ l, Element (unit x) (f x)) (hunit : ∀ x ∈ l, isHighSurrogate (unit x) = false) :
    unescape (l.flatMap f) = l.map unit := by
  unfold unescape
  rw [units_flatMap h]
  apply joinSurrogates_of_not
  intro n hn
  obtain ⟨x, hx, rfl⟩ := List.mem_map.mp hn
  exact hunit x hx

/-! ### Values -/

inductive Value where
  | null
  | true
  | false
  | number (literal : List Nat)
  | string (body : List Nat)
  | array (items : List Value)
  | object (members : List (List Nat × Value))

def isWhitespace (c : Nat) : Bool := c = 0x20 || c = 0x09 || c = 0x0a || c = 0x0d

def skip (s : List Nat) : List Nat := s.dropWhile isWhitespace

/-- Skip white space and then exactly these characters. -/
def expect (literal : List Nat) (s : List Nat) : Option (List Nat) :=
  if literal <+: skip s then some ((skip s).drop literal.length) else none

def isDigit (c : Nat) : Bool := 0x30 ≤ c && c ≤ 0x39

/-- One or more digits. -/
def readDigits (s : List Nat) : Option (List Nat × List Nat) :=
  if s.takeWhile isDigit = [] then none else some (s.takeWhile isDigit, s.dropWhile isDigit)

/-- The integer part: no leading zero unless it is the only digit. -/
def readInt : List Nat → Option (List Nat × List Nat)
  | [] => none
  | c :: s => if c = code '0' then some ([c], s) else readDigits (c :: s)

def readFraction : List Nat → Option (List Nat × List Nat)
  | [] => some ([], [])
  | c :: s =>
    if c = code '.' then (readDigits s).map fun r => (c :: r.1, r.2) else some ([], c :: s)

def readExponent : List Nat → Option (List Nat × List Nat)
  | [] => some ([], [])
  | c :: s =>
    if c = code 'e' || c = code 'E' then
      match s with
      | [] => none
      | sign :: s' =>
        if sign = code '+' || sign = code '-' then
          (readDigits s').map fun r => (c :: sign :: r.1, r.2)
        else (readDigits (sign :: s')).map fun r => (c :: r.1, r.2)
    else some ([], c :: s)

def readNumber (s : List Nat) : Option (List Nat × List Nat) := do
  let minus := if s.head? = some (code '-') then [code '-'] else []
  let (int, s) ← readInt (s.drop minus.length)
  let (frac, s) ← readFraction s
  let (exp, s) ← readExponent s
  return (minus ++ int ++ frac ++ exp, s)

mutual

/-- Read one value. -/
def readValue : Nat → List Nat → Option (Value × List Nat)
  | 0, _ => none
  | fuel + 1, s =>
    match skip s with
    | [] => none
    | c :: s =>
      if c = quote then (readBody s).map fun r => (.string r.1, r.2)
      else if c = openBrace then
        match expect [closeBrace] s with
        | some s => some (.object [], s)
        | none => (readMembers fuel s).map fun r => (.object r.1, r.2)
      else if c = openBracket then
        match expect [closeBracket] s with
        | some s => some (.array [], s)
        | none => (readElements fuel s).map fun r => (.array r.1, r.2)
      else if c = code 'n' then (expect (codes "null") (c :: s)).map fun s => (.null, s)
      else if c = code 't' then (expect (codes "true") (c :: s)).map fun s => (.true, s)
      else if c = code 'f' then (expect (codes "false") (c :: s)).map fun s => (.false, s)
      else (readNumber (c :: s)).map fun r => (.number r.1, r.2)

/-- Read `members` and the brace that closes the object. -/
def readMembers : Nat → List Nat → Option (List (List Nat × Value) × List Nat)
  | 0, _ => none
  | fuel + 1, s => do
    let (name, s) ← readBody (← expect [quote] s)
    let (value, s) ← readValue fuel (← expect [code ':'] s)
    match expect [code ','] s with
    | some s =>
      let (members, s) ← readMembers fuel s
      return ((name, value) :: members, s)
    | none =>
      let s ← expect [closeBrace] s
      return ([(name, value)], s)

/-- Read the elements of an array and the bracket that closes it. -/
def readElements : Nat → List Nat → Option (List Value × List Nat)
  | 0, _ => none
  | fuel + 1, s => do
    let (value, s) ← readValue fuel s
    match expect [code ','] s with
    | some s =>
      let (values, s) ← readElements fuel s
      return (value :: values, s)
    | none =>
      let s ← expect [closeBracket] s
      return ([value], s)

end

/-- The value of a JSON text, if it is one. -/
def parse (text : List Nat) : Option Value := do
  let (value, rest) ← readValue (text.length + 1) text
  if skip rest = [] then some value else none

/-! ### Rules for reading a text made of values -/

theorem skip_cons {c : Nat} (h : isWhitespace c = false) (s : List Nat) : skip (c :: s) = c :: s := by
  simp [skip, h]

theorem expect_self {c : Nat} (h : isWhitespace c = false) (s : List Nat) :
    expect [c] (c :: s) = some s := by
  simp [expect, skip_cons h]

theorem expect_other {c d : Nat} (h : isWhitespace d = false) (hne : c ≠ d) (s : List Nat) :
    expect [c] (d :: s) = none := by
  simp [expect, skip_cons h, hne]

theorem readValue_string (fuel : Nat) {body : List Nat} (h : StringBody body) (rest : List Nat) :
    readValue (fuel + 1) (quote :: (body ++ quote :: rest)) = some (.string body, rest) := by
  have hskip := skip_cons (c := quote) (by decide) (body ++ quote :: rest)
  rw [readValue, hskip]
  simp [readBody_append h]

theorem readValue_empty_array (fuel : Nat) (rest : List Nat) :
    readValue (fuel + 1) (openBracket :: closeBracket :: rest) = some (.array [], rest) := by
  have hskip := skip_cons (c := openBracket) (by decide) (closeBracket :: rest)
  have hexpect := expect_self (c := closeBracket) (by decide) rest
  have hquote : openBracket ≠ quote := by decide
  have hbrace : openBracket ≠ openBrace := by decide
  rw [readValue, hskip]
  simp [hexpect, hquote, hbrace]

/-- An object that begins with a member. -/
theorem readValue_object {fuel : Nat} {s rest : List Nat} {members : List (List Nat × Value)}
    (h : readMembers fuel (quote :: s) = some (members, rest)) :
    readValue (fuel + 1) (openBrace :: quote :: s) = some (.object members, rest) := by
  have hskip := skip_cons (c := openBrace) (by decide) (quote :: s)
  have hexpect := expect_other (c := closeBrace) (d := quote) (by decide) (by decide) s
  have hquote : openBrace ≠ quote := by decide
  rw [readValue, hskip]
  simp [hexpect, h, hquote]

/-- A member before a comma. -/
theorem readMembers_cons {fuel : Nat} {name s s' rest : List Nat} {v : Value}
    {members : List (List Nat × Value)} (hname : StringBody name)
    (hvalue : readValue fuel s = some (v, code ',' :: s'))
    (hmembers : readMembers fuel s' = some (members, rest)) :
    readMembers (fuel + 1) (quote :: (name ++ quote :: code ':' :: s)) =
      some ((name, v) :: members, rest) := by
  have hquote := expect_self (c := quote) (by decide) (name ++ quote :: code ':' :: s)
  have hcolon := expect_self (c := code ':') (by decide) s
  have hcomma := expect_self (c := code ',') (by decide) s'
  rw [readMembers, hquote]
  simp [readBody_append hname, hcolon, hvalue, hcomma, hmembers]

/-- A member before the closing brace. -/
theorem readMembers_last {fuel : Nat} {name s rest : List Nat} {v : Value}
    (hname : StringBody name) (hvalue : readValue fuel s = some (v, closeBrace :: rest)) :
    readMembers (fuel + 1) (quote :: (name ++ quote :: code ':' :: s)) =
      some ([(name, v)], rest) := by
  have hquote := expect_self (c := quote) (by decide) (name ++ quote :: code ':' :: s)
  have hcolon := expect_self (c := code ':') (by decide) s
  have hcomma := expect_other (c := code ',') (d := closeBrace) (by decide) (by decide) rest
  have hbrace := expect_self (c := closeBrace) (by decide) rest
  rw [readMembers, hquote]
  simp [readBody_append hname, hcolon, hvalue, hcomma, hbrace]

/-- A text without quotes, backslashes or control characters is a body. -/
theorem StringBody.of_plain {s : List Nat} (h : ∀ c ∈ s, 0x20 ≤ c ∧ c ≠ quote ∧ c ≠ backslash) :
    StringBody s := by
  induction s with
  | nil => exact .nil
  | cons c s ih =>
    obtain ⟨hc, hq, hb⟩ := h c (by simp)
    have hs := ih fun d hd => h d (by simp [hd])
    exact .cons (.unescaped hc hq hb) hs

end Json
