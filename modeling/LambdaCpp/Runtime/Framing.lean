import Mathlib.Tactic.Tauto
import LambdaCpp.Runtime.Post

/-! # The Header Block of a POST

    libcurl writes each entry of the header list as it is, as one line.  The
    entries are made from strings that `do_post` does not check, so a line
    feed in one of them starts a new line, and a NUL ends the entry.

    `entry_headers_eq_iff` states exactly when one entry gives its own
    header and nothing else, and `post_block_parses_iff` lifts this to the
    whole block: it gives the intended headers exactly when each string is
    `Framed`.
-/

namespace LambdaCpp

open Bytes (ascii)

/-! ### Writing and reading a block -/

def CRLF : Bytes := [13, 10]

/-- The entries as libcurl writes them. -/
def sent_block (entries : List Bytes) : Bytes := entries.flatMap fun e => e ++ CRLF

/-- The headers a block gives when it is cut at line ends and every line is
    read as `write_header` does. -/
def block_headers (block : Bytes) : List (Bytes × Bytes) := headers_of (Bytes.cutLines block)

/-- A block is read entry by entry. -/
theorem block_headers_sent (entries : List Bytes) :
    block_headers (sent_block entries) = entries.flatMap fun e => block_headers (e ++ CRLF) := by
  induction entries with
  | nil => rfl
  | cons e entries ih =>
    -- the line feed of the first entry ends a line, whatever comes before it
    have hcut := Bytes.cutLines_append (e ++ [13]) (sent_block entries)
    have hsplit : sent_block (e :: entries) = (e ++ [13]) ++ 10 :: sent_block entries := by
      simp [sent_block, CRLF]
    have hline : (e ++ [13]) ++ [10] = e ++ CRLF := by simp [CRLF]
    rw [List.flatMap_cons, ← ih]
    unfold block_headers
    rw [hsplit, hcut, hline]
    unfold headers_of
    rw [List.filterMap_append]

/-- Every byte of a line is a byte of the block. -/
theorem mem_of_mem_cutLines {s : Bytes} : ∀ l ∈ Bytes.cutLines s, ∀ b ∈ l, b ∈ s := by
  induction s with
  | nil => simp [Bytes.cutLines]
  | cons c s ih =>
    intro l hl b hb
    unfold Bytes.cutLines at hl
    split at hl
    · rcases List.mem_cons.mp hl with rfl | hl
      · have : b = c := by simpa using hb
        simp [this]
      · exact List.mem_cons_of_mem c (ih l hl b hb)
    · split at hl
      · obtain rfl : l = [c] := by simpa using hl
        have : b = c := by simpa using hb
        simp [this]
      · next l₀ ls hlines =>
        rcases List.mem_cons.mp hl with rfl | hl
        · rcases List.mem_cons.mp hb with rfl | hb
          · simp
          · exact List.mem_cons_of_mem c (ih l₀ (by simp [hlines]) b hb)
        · exact List.mem_cons_of_mem c (ih l (by simp [hlines, hl]) b hb)

/-- A block without colons gives no header. -/
theorem block_headers_of_not_mem {s : Bytes} (h : (0x3a : UInt8) ∉ s) : block_headers s = [] := by
  unfold block_headers headers_of
  rw [List.filterMap_eq_nil_iff]
  intro l hl
  have hcolon : (0x3a : UInt8) ∉ l := fun hmem => h (mem_of_mem_cutLines l hl _ hmem)
  simp [header_of, Bytes.cutAt_eq_none_iff.mpr hcolon]

/-! ### One entry -/

/-- An entry: the header's name as it is written, and all that follows the
    colon. -/
structure Entry where
  name : Bytes
  value : Bytes

namespace Entry

def text (e : Entry) : Bytes := e.name ++ 0x3a :: e.value

/-- The header the entry is meant to give. -/
def header (e : Entry) : Bytes × Bytes :=
  (e.name.map Bytes.lower, Bytes.strip Bytes.isSpace e.value)

/-- The name is one that needs no trimming and has no NUL, colon or line
    feed. -/
structure NamePlain (e : Entry) : Prop where
  nul : (0 : UInt8) ∉ e.name
  colon : (0x3a : UInt8) ∉ e.name
  feed : (10 : UInt8) ∉ e.name
  stripped : Bytes.strip Bytes.isSpace e.name = e.name

end Entry

/-- The text after the first line feed, if there is one, is white space, and
    there is no NUL. -/
structure Framed (v : Bytes) : Prop where
  nul : (0 : UInt8) ∉ v
  feed : ∀ a b, v = a ++ 10 :: b → (10 : UInt8) ∉ a → ∀ x ∈ b, Bytes.isSpace x

theorem header_of_line {e : Entry} (h : e.NamePlain) (v : Bytes) :
    header_of (e.name ++ 0x3a :: v) = some (e.name.map Bytes.lower, Bytes.strip Bytes.isSpace v) := by
  unfold header_of
  rw [Bytes.cutAt_append h.colon]
  simp [h.stripped]

theorem space_crlf : ∀ b ∈ CRLF, Bytes.isSpace b = true := by decide

/-- An entry on one line. -/
theorem block_headers_one_line {e : Entry} (h : e.NamePlain) {v : Bytes} (hv : (10 : UInt8) ∉ v) :
    block_headers (e.name ++ 0x3a :: v ++ CRLF) =
      [(e.name.map Bytes.lower, Bytes.strip Bytes.isSpace v)] := by
  have hfeed : (10 : UInt8) ∉ e.name ++ 0x3a :: (v ++ [13]) := by
    simp [h.feed, hv]
  have hcut := Bytes.cutLines_line hfeed []
  have hline : e.name ++ 0x3a :: v ++ CRLF = (e.name ++ 0x3a :: (v ++ [13])) ++ 10 :: [] := by
    simp [CRLF]
  have hlast : (e.name ++ 0x3a :: (v ++ [13])) ++ [10] = e.name ++ 0x3a :: (v ++ CRLF) := by
    simp [CRLF]
  unfold block_headers
  rw [hline, hcut, hlast]
  unfold headers_of
  simp [Bytes.cutLines, header_of_line h, Bytes.strip_append_of_all space_crlf]

/-- An entry with a line feed: the header ends there, and what follows is
    read on its own. -/
theorem block_headers_two_lines {e : Entry} (h : e.NamePlain) {a : Bytes} (ha : (10 : UInt8) ∉ a)
    (b : Bytes) :
    block_headers (e.name ++ 0x3a :: (a ++ 10 :: b) ++ CRLF) =
      (e.name.map Bytes.lower, Bytes.strip Bytes.isSpace a) :: block_headers (b ++ CRLF) := by
  have hfeed : (10 : UInt8) ∉ e.name ++ 0x3a :: a := by
    simp [h.feed, ha]
  have hcut := Bytes.cutLines_line hfeed (b ++ CRLF)
  have hline : e.name ++ 0x3a :: (a ++ 10 :: b) ++ CRLF =
      (e.name ++ 0x3a :: a) ++ 10 :: (b ++ CRLF) := by
    simp
  have hfirst : (e.name ++ 0x3a :: a) ++ [10] = e.name ++ 0x3a :: (a ++ [10]) := by simp
  have hspace : ∀ x ∈ [(10 : UInt8)], Bytes.isSpace x = true := by decide
  unfold block_headers
  rw [hline, hcut, hfirst]
  unfold headers_of
  simp [header_of_line h, Bytes.strip_append_of_all hspace]

/-- What an entry with this value gives first. -/
theorem exists_block_headers_cons {e : Entry} (h : e.NamePlain) (v : Bytes) :
    ∃ first extra, block_headers (e.name ++ 0x3a :: v ++ CRLF) =
      (e.name.map Bytes.lower, Bytes.strip Bytes.isSpace first) :: extra ∧
      ((10 : UInt8) ∉ v ∧ first = v ∧ extra = [] ∨
        ∃ b, v = first ++ 10 :: b ∧ (10 : UInt8) ∉ first ∧ extra = block_headers (b ++ CRLF)) := by
  cases hcut : Bytes.cutAt 10 v with
  | none =>
    -- one line
    have hv := Bytes.cutAt_eq_none_iff.mp hcut
    exact ⟨v, [], block_headers_one_line h hv, Or.inl ⟨hv, rfl, rfl⟩⟩
  | some c =>
    obtain ⟨a, b⟩ := c
    obtain ⟨hsplit, ha⟩ := Bytes.cutAt_eq_some_iff.mp hcut
    subst hsplit
    exact ⟨a, _, block_headers_two_lines h ha b, Or.inr ⟨b, rfl, ha, rfl⟩⟩

theorem c_str_text {e : Entry} (h : e.NamePlain) :
    Bytes.c_str e.text = e.name ++ 0x3a :: Bytes.c_str e.value := by
  have hcolon : (0 : UInt8) ∉ e.name ++ [0x3a] := by simp [h.nul]
  have := Bytes.c_str_append hcolon e.value
  simpa [Entry.text] using this

/-- Trimming takes nothing but white space away behind a line feed. -/
theorem spaces_of_strip_eq {first b : Bytes}
    (h : Bytes.strip Bytes.isSpace first = Bytes.strip Bytes.isSpace (first ++ 10 :: b)) :
    ∀ x ∈ b, Bytes.isSpace x = true := by
  have hfilter := congrArg (List.filter fun x => !Bytes.isSpace x) h
  rw [Bytes.filter_strip, Bytes.filter_strip, List.filter_append] at hfilter
  have hnone : b.filter (fun x => !Bytes.isSpace x) = [] := by
    have hten : Bytes.isSpace 10 = true := by decide
    simpa [hten] using hfilter
  rw [List.filter_eq_nil_iff] at hnone
  intro x hx
  simpa using hnone x hx

/-- An entry gives its own header and nothing else exactly when its value is
    framed. -/
theorem entry_headers_eq_iff {e : Entry} (h : e.NamePlain) :
    block_headers (Bytes.c_str e.text ++ CRLF) = [e.header] ↔ Framed e.value := by
  obtain ⟨first, extra, heq, hshape⟩ := exists_block_headers_cons h (Bytes.c_str e.value)
  rw [c_str_text h, heq]
  simp only [Entry.header, List.cons.injEq, Prod.mk.injEq, true_and]
  constructor
  · intro hall
    obtain ⟨hstrip, hextra⟩ := hall
    have hsub : ∀ x ∈ first, x ∈ Bytes.c_str e.value := by
      intro x hx
      rcases hshape with ⟨-, rfl, -⟩ | ⟨b, hb, -, -⟩
      · exact hx
      · rw [hb]; simp [hx]
    -- a NUL in the value would be in the trimmed value, but not in what was read
    have hnul : (0 : UInt8) ∉ e.value := by
      intro hmem
      have hkept := Bytes.mem_strip_of_mem hmem (p := Bytes.isSpace) (by decide)
      rw [← hstrip] at hkept
      exact Bytes.not_mem_c_str e.value (hsub 0 (Bytes.mem_of_mem_strip hkept))
    have hc_str := Bytes.c_str_of_not_mem hnul
    refine ⟨hnul, ?_⟩
    intro a b hvalue ha x hx
    rw [hc_str] at hshape
    rcases hshape with ⟨hfeed, -, -⟩ | ⟨b', hvalue', ha', -⟩
    · exact absurd (by rw [hvalue]; simp) hfeed
    · -- both are the text up to the first line feed
      have hcut := Bytes.cutAt_eq_some_iff.mpr ⟨hvalue, ha⟩
      have hcut' := Bytes.cutAt_eq_some_iff.mpr ⟨hvalue', ha'⟩
      rw [hcut] at hcut'
      obtain ⟨rfl, rfl⟩ : a = first ∧ b = b' := by simpa using hcut'
      rw [hvalue] at hstrip
      exact spaces_of_strip_eq hstrip x hx
  · intro hframed
    have hc_str := Bytes.c_str_of_not_mem hframed.nul
    rw [hc_str] at hshape
    rcases hshape with ⟨-, rfl, rfl⟩ | ⟨b, hvalue, ha, rfl⟩
    · exact ⟨rfl, rfl⟩
    · -- white space after the line feed is trimmed from the value as well
      have hspace := hframed.feed first b hvalue ha
      constructor
      · have hall : ∀ x ∈ 10 :: b, Bytes.isSpace x = true := by
          intro x hx
          rcases List.mem_cons.mp hx with rfl | hx
          · decide
          · exact hspace x hx
        rw [hvalue, Bytes.strip_append_of_all hall]
      · -- only white space is left, so there is no colon
        apply block_headers_of_not_mem
        intro hmem
        rcases List.mem_append.mp hmem with hmem | hmem
        · exact absurd (hspace _ hmem) (by decide)
        · exact absurd hmem (by decide)

/-! ### The block -/

/-- Pieces of at least one element each make a list of that many elements
    only when each is the one element. -/
theorem flatMap_eq_map_iff {α β : Type} {f : α → List β} {g : α → β} {l : List α}
    (h : ∀ x ∈ l, f x ≠ []) : l.flatMap f = l.map g ↔ ∀ x ∈ l, f x = [g x] := by
  have hlength : ∀ l : List α, (∀ x ∈ l, f x ≠ []) → l.length ≤ (l.flatMap f).length := by
    intro l hl
    induction l with
    | nil => simp
    | cons x l ih =>
      have hx := List.length_pos_of_ne_nil (hl x (by simp))
      have hrest := ih fun y hy => hl y (by simp [hy])
      rw [List.flatMap_cons, List.length_append, List.length_cons]
      omega
  induction l with
  | nil => simp
  | cons x l ih =>
    have hl : ∀ y ∈ l, f y ≠ [] := fun y hy => h y (by simp [hy])
    have hrest := hlength l hl
    obtain ⟨y, ys, hy⟩ := List.exists_cons_of_ne_nil (h x (by simp))
    rw [List.flatMap_cons, List.map_cons, hy]
    constructor
    · intro heq
      have hlen := congrArg List.length heq
      simp only [List.length_append, List.length_cons, List.length_map] at hlen
      -- the other pieces already fill the rest
      have hys : ys = [] := List.length_eq_zero_iff.mp (by omega)
      subst hys
      simp only [List.cons_append, List.nil_append, List.cons.injEq] at heq
      obtain ⟨rfl, hflat⟩ := heq
      intro z hz
      rcases List.mem_cons.mp hz with rfl | hz
      · exact hy
      · exact (ih hl).mp hflat z hz
    · intro hall
      have hx := hall x (by simp)
      rw [hy] at hx
      rw [hx, (ih hl).mpr fun z hz => hall z (by simp [hz])]
      rfl

/-- **A block of entries** gives exactly the headers it is meant to give
    when, and only when, every value is framed. -/
theorem block_headers_eq_iff {entries : List Entry} (h : ∀ e ∈ entries, e.NamePlain) :
    block_headers (sent_block (entries.map fun e => Bytes.c_str e.text)) = entries.map Entry.header ↔
      ∀ e ∈ entries, Framed e.value := by
  have hne : ∀ e ∈ entries, block_headers (Bytes.c_str e.text ++ CRLF) ≠ [] := by
    intro e he
    obtain ⟨first, extra, heq, -⟩ := exists_block_headers_cons (h e he) (Bytes.c_str e.value)
    rw [c_str_text (h e he), heq]
    simp
  rw [block_headers_sent, List.flatMap_map, flatMap_eq_map_iff hne]
  constructor
  · intro hall e he
    exact (entry_headers_eq_iff (h e he)).mp (hall e he)
  · intro hall e he
    exact (entry_headers_eq_iff (h e he)).mpr (hall e he)

/-! ### The block of `do_post` -/

/-- The entries of `do_post`, with names and values apart. -/
def Post.named_entries (user_agent : Bytes) (p : Post) : List Entry :=
  [⟨ascii "content-type", ascii " " ++
      if p.content_type = [] then ascii "text/html" else p.content_type⟩,
    ⟨ascii "lambda-runtime-function-xray-error-cause", ascii " " ++ p.xray_response⟩,
    ⟨ascii "Expect", []⟩, ⟨ascii "transfer-encoding", []⟩,
    ⟨ascii "User-Agent", ascii " " ++ user_agent⟩] ++
  (if p.invocation_id = [] then []
    else [⟨INVOCATION_ID_HEADER, ascii " " ++ p.invocation_id⟩]) ++
  [⟨ascii "content-length", ascii " " ++ Bytes.decimal p.payload.length⟩]

/-- The headers of a POST as they are meant to arrive. -/
def Post.intended_headers (user_agent : Bytes) (p : Post) : List (Bytes × Bytes) :=
  [(ascii "content-type", if p.content_type = [] then ascii "text/html"
      else Bytes.strip Bytes.isSpace p.content_type),
    (ascii "lambda-runtime-function-xray-error-cause", Bytes.strip Bytes.isSpace p.xray_response),
    (ascii "expect", []), (ascii "transfer-encoding", []),
    (ascii "user-agent", Bytes.strip Bytes.isSpace user_agent)] ++
  (if p.invocation_id = [] then []
    else [(INVOCATION_ID_HEADER, Bytes.strip Bytes.isSpace p.invocation_id)]) ++
  [(ascii "content-length", Bytes.decimal p.payload.length)]

section
variable (endpoint user_agent : Bytes) (p : Post)

theorem entries_eq : p.entries (runtime.with_user_agent endpoint user_agent) =
    (p.named_entries user_agent).map Entry.text := by
  have hprefix : ∀ v : Bytes,
      ascii "content-type: " ++ v = Entry.text ⟨ascii "content-type", ascii " " ++ v⟩ ∧
      ascii "lambda-runtime-function-xray-error-cause: " ++ v =
        Entry.text ⟨ascii "lambda-runtime-function-xray-error-cause", ascii " " ++ v⟩ ∧
      ascii "User-Agent: " ++ v = Entry.text ⟨ascii "User-Agent", ascii " " ++ v⟩ ∧
      ascii "content-length: " ++ v = Entry.text ⟨ascii "content-length", ascii " " ++ v⟩ ∧
      INVOCATION_ID_HEADER ++ ascii ": " ++ v = Entry.text ⟨INVOCATION_ID_HEADER, ascii " " ++ v⟩ := by
    intro v
    refine ⟨rfl, rfl, rfl, rfl, ?_⟩
    rw [List.append_assoc]
    rfl
  have hempty : ascii "Expect:" = Entry.text ⟨ascii "Expect", []⟩ ∧
      ascii "transfer-encoding:" = Entry.text ⟨ascii "transfer-encoding", []⟩ ∧
      ascii "content-type: text/html" = ascii "content-type: " ++ ascii "text/html" := by decide
  unfold Post.entries Post.named_entries runtime.with_user_agent content_length_header
  by_cases hct : p.content_type = []
  · by_cases hid : p.invocation_id = []
    · simp [hct, hid, hprefix, hempty]
    · simp [hct, hid, hprefix, hempty]
  · by_cases hid : p.invocation_id = []
    · simp [hct, hid, hprefix, hempty]
    · simp [hct, hid, hprefix, hempty]

/-- The names are plain, so each entry is read as the header it is. -/
theorem named_entries_plain : ∀ e ∈ p.named_entries user_agent, e.NamePlain := by
  have hplain : ∀ n ∈ [ascii "content-type", ascii "lambda-runtime-function-xray-error-cause",
      ascii "Expect", ascii "transfer-encoding", ascii "User-Agent", INVOCATION_ID_HEADER,
      ascii "content-length"], (0 : UInt8) ∉ n ∧ (0x3a : UInt8) ∉ n ∧ (10 : UInt8) ∉ n ∧
        Bytes.strip Bytes.isSpace n = n := by decide +kernel
  intro e he
  have hname : e.name ∈ [ascii "content-type", ascii "lambda-runtime-function-xray-error-cause",
      ascii "Expect", ascii "transfer-encoding", ascii "User-Agent", INVOCATION_ID_HEADER,
      ascii "content-length"] := by
    unfold Post.named_entries at he
    simp only [List.mem_append, List.mem_cons, List.not_mem_nil, or_false, List.mem_ite_nil_left] at he
    rcases he with ((rfl | rfl | rfl | rfl | rfl) | ⟨-, rfl⟩) | rfl <;> simp
  obtain ⟨hnul, hcolon, hfeed, hstripped⟩ := hplain e.name hname
  exact ⟨hnul, hcolon, hfeed, hstripped⟩

theorem strip_space_append (v : Bytes) :
    Bytes.strip Bytes.isSpace (ascii " " ++ v) = Bytes.strip Bytes.isSpace v :=
  Bytes.strip_cons_of_pos (by decide) v

theorem strip_decimal (n : Nat) : Bytes.strip Bytes.isSpace (Bytes.decimal n) = Bytes.decimal n := by
  have hspace : ∀ b ∈ Bytes.decimal n, ¬ Bytes.isSpace b := by
    intro b hb
    simp [(digit_plain b (Bytes.isDigit_decimal n b hb)).2.1]
  apply Bytes.strip_eq_of_isStrip
  exact ⟨⟨[], [], by simp, by simp, by simp⟩, fun b hb => hspace b (List.mem_of_mem_head? hb),
    fun b hb => hspace b (List.mem_of_mem_getLast? hb)⟩

theorem named_entries_header :
    (p.named_entries user_agent).map Entry.header = p.intended_headers user_agent := by
  have hlower : ∀ n ∈ [ascii "content-type", ascii "lambda-runtime-function-xray-error-cause",
      ascii "transfer-encoding", INVOCATION_ID_HEADER, ascii "content-length"],
        n.map Bytes.lower = n := by decide +kernel
  have hcased : (ascii "Expect").map Bytes.lower = ascii "expect" ∧
      (ascii "User-Agent").map Bytes.lower = ascii "user-agent" := by decide
  have hhtml : Bytes.strip Bytes.isSpace (ascii "text/html") = ascii "text/html" := by decide
  have hnil : Bytes.strip Bytes.isSpace [] = [] := rfl
  unfold Post.named_entries Post.intended_headers
  by_cases hct : p.content_type = []
  · by_cases hid : p.invocation_id = []
    · simp [hct, hid, Entry.header, strip_space_append, strip_decimal, hlower, hcased, hhtml, hnil]
    · simp [hct, hid, Entry.header, strip_space_append, strip_decimal, hlower, hcased, hhtml, hnil]
  · by_cases hid : p.invocation_id = []
    · simp [hct, hid, Entry.header, strip_space_append, strip_decimal, hlower, hcased, hnil]
    · simp [hct, hid, Entry.header, strip_space_append, strip_decimal, hlower, hcased, hnil]

theorem framed_of_plain {v : Bytes} (hnul : (0 : UInt8) ∉ v) (hfeed : (10 : UInt8) ∉ v) :
    Framed v where
  nul := hnul
  feed := by
    intro a b hv
    exact absurd (by rw [hv]; simp) hfeed

/-- The space after the colon does not matter. -/
theorem framed_space_append_iff {v : Bytes} : Framed (ascii " " ++ v) ↔ Framed v := by
  have hspace : ascii " " = [0x20] := by decide
  rw [hspace]
  constructor
  · intro h
    refine ⟨fun hmem => h.nul (by simp [hmem]), ?_⟩
    intro a b hv ha
    exact h.feed (0x20 :: a) b (by simp [hv]) (by simp [ha])
  · intro h
    refine ⟨by simp [h.nul], ?_⟩
    intro a b hv ha
    cases a with
    | nil => simp at hv
    | cons c a =>
      simp only [List.cons_append, List.cons.injEq] at hv
      exact h.feed a b hv.2 (fun hmem => ha (by simp [hmem]))

theorem named_entries_framed_iff :
    (∀ e ∈ p.named_entries user_agent, Framed e.value) ↔
      Framed user_agent ∧ Framed p.content_type ∧ Framed p.xray_response ∧ Framed p.invocation_id := by
  have hnil : Framed [] := framed_of_plain (by simp) (by simp)
  have hhtml : Framed (ascii "text/html") := framed_of_plain (by decide) (by decide)
  have hlength : Framed (Bytes.decimal p.payload.length) := by
    have hdigit := Bytes.isDigit_decimal p.payload.length
    exact framed_of_plain (fun h => absurd (hdigit 0 h) (by decide))
      fun h => absurd (hdigit 10 h) (by decide)
  unfold Post.named_entries
  by_cases hct : p.content_type = []
  · by_cases hid : p.invocation_id = []
    · simp [hct, hid, framed_space_append_iff, hnil, hhtml, hlength, and_comm]
    · simp [hct, hid, framed_space_append_iff, hnil, hhtml, hlength]
      tauto
  · by_cases hid : p.invocation_id = []
    · simp [hct, hid, framed_space_append_iff, hnil, hlength]
      tauto
    · simp [hct, hid, framed_space_append_iff, hnil, hlength]
      tauto

end

/-- What libcurl writes for a POST, as `write_header` reads it. -/
theorem block_headers_post_iff (endpoint user_agent : Bytes) (p : Post) :
    block_headers (sent_block
        ((p.entries (runtime.with_user_agent endpoint user_agent)).map Bytes.c_str)) =
      p.intended_headers user_agent ↔
      Framed user_agent ∧ Framed p.content_type ∧ Framed p.xray_response ∧ Framed p.invocation_id := by
  rw [entries_eq, List.map_map, ← named_entries_header, ← named_entries_framed_iff]
  exact block_headers_eq_iff (named_entries_plain user_agent p)

/-- **Request framing**: the header block that `do_post` hands to libcurl,
    fed line by line to `write_header`, gives exactly the intended headers
    when, and only when, each of the four strings in it is framed. -/
theorem post_block_parses_iff (s d : Bool) (v endpoint user_agent url content_type payload
    xray_response invocation_id : Bytes) (x : Exchange) (w : Thread) :
    ∃ perform a entries ns resp,
      (do_post (Target.linux s d v) (runtime.with_user_agent endpoint user_agent) url content_type
        payload xray_response invocation_id x w).2.performs = w.performs ++ [perform] ∧
      perform.options .HTTPHEADER = .pointer a ∧ perform.heap.slists a = some entries ∧
      feed_headers (Target.linux s d v) (Bytes.cutLines (sent_block entries)) .default_init =
        .ok (ns, resp) ∧
      (resp.m_headers = Post.intended_headers user_agent
          ⟨url, content_type, payload, xray_response, invocation_id⟩ ↔
        Framed user_agent ∧ Framed content_type ∧ Framed xray_response ∧ Framed invocation_id) := by
  let rt := runtime.with_user_agent endpoint user_agent
  let p : Post := ⟨url, content_type, payload, xray_response, invocation_id⟩
  obtain ⟨w', hrun, hperforms, -⟩ := do_post_eq (Target.linux s d v) rt p x w
  let entries := (p.entries rt).map Bytes.c_str
  have hlower : ∀ line ∈ Bytes.cutLines (sent_block entries),
      lowerable_line (Target.linux s d v) line := by simp
  have hfeed := feed_headers_eq (Target.linux s d v) hlower .default_init
  refine ⟨post_perform (Target.linux s d v) rt p w.heap, w.heap.fresh, entries, _, _, ?_, rfl, ?_,
    hfeed, block_headers_post_iff endpoint user_agent p⟩
  · rw [show do_post (Target.linux s d v) rt url content_type payload xray_response invocation_id x w
      = _ from hrun]
    exact hperforms
  · simp [post_perform, post_heap, entries]

/-- A response whose X-Ray cause has two lines. -/
def two_line_response : invocation_response :=
  ⟨⟨[], [], ascii "a\r\nx-injected: b"⟩, true⟩

/-- It adds a header of its own. -/
theorem post_block_injected_header :
    ∃ perform a entries ns resp,
      (post_success (Target.linux true false []) (runtime.with_user_agent [] (ascii "agent"))
        (ascii "1") two_line_response [] ⟨[], 7, 0, none, 0⟩ Thread.new).2.performs = [perform] ∧
      perform.options .HTTPHEADER = .pointer a ∧ perform.heap.slists a = some entries ∧
      feed_headers (Target.linux true false []) (Bytes.cutLines (sent_block entries))
        .default_init = .ok (ns, resp) ∧
      (ascii "x-injected", ascii "b") ∈ resp.m_headers ∧
      (ascii "x-injected", ascii "b") ∉ Post.intended_headers (ascii "agent")
        (.of_response [] two_line_response.toruntime_response []) := by
  let rt := runtime.with_user_agent [] (ascii "agent")
  let p := Post.of_response (success_url rt (ascii "1")) two_line_response.toruntime_response []
  obtain ⟨w', hrun, hperforms, -⟩ :=
    do_post_eq (Target.linux true false []) rt p ⟨[], 7, 0, none, 0⟩ Thread.new
  let entries := (p.entries rt).map Bytes.c_str
  have hlower : ∀ line ∈ Bytes.cutLines (sent_block entries),
      lowerable_line (Target.linux true false []) line := by simp
  have hfeed := feed_headers_eq (Target.linux true false []) hlower .default_init
  refine ⟨post_perform (Target.linux true false []) rt p Thread.new.heap, 0, entries, _, _, ?_, rfl,
    ?_, hfeed, ?_, by decide +kernel⟩
  · rw [show post_success (Target.linux true false []) rt (ascii "1") two_line_response []
      ⟨[], 7, 0, none, 0⟩ Thread.new = _ from hrun]
    exact hperforms
  · simp [post_perform, post_heap, Thread.new, Heap.empty, entries]
  · have hinjected : (ascii "x-injected", ascii "b") ∈ block_headers (sent_block
        (((Post.of_response (success_url (runtime.with_user_agent [] (ascii "agent")) (ascii "1"))
          two_line_response.toruntime_response []).entries
            (runtime.with_user_agent [] (ascii "agent"))).map Bytes.c_str)) := by decide +kernel
    exact hinjected

end LambdaCpp
