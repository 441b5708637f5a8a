import LambdaCpp.Packaging.Packager

/-! # The Output of `ldd`

    The four kinds of lines, the library each of them names, and the word
    that `awk '{print $(NF-1)}'` takes from it: for a path its last piece
    between blanks, for a library that was not found the word `not`.
-/

namespace LambdaCpp

open Bytes (ascii)

/-! ### Lines -/

/-- The name of a library, as it stands in a line. -/
structure LddName where
  text : Bytes
  one_line : 0x0a ∉ text := by decide

/-- A path has to say something. -/
def NotBlank (path : Bytes) : Prop := ∃ b ∈ path, is_blank b = false

instance (path : Bytes) : Decidable (NotBlank path) :=
  inferInstanceAs (Decidable (∃ b ∈ path, is_blank b = false))

structure LddPath extends LddName where
  not_blank : NotBlank text := by decide

/-- An address, as printed between parentheses. -/
structure LoadAddress where
  text : Bytes
  no_blank : ∀ b ∈ text, is_blank b = false := by decide

inductive LddLine where
  /-- `linux-vdso.so.1 (0x...)`: no file. -/
  | vdso (name : Word) (addr : LoadAddress) (hname : OneWord name)
  | direct (path : LddPath) (addr : LoadAddress)
  | resolved (name : LddName) (path : LddPath) (addr : LoadAddress)
  | not_found (name : LddName)

namespace LddLine

/-- The line as `ldd` prints it. -/
def text : LddLine → Bytes
  | vdso name addr _ => name ++ ascii " (" ++ addr.text ++ ascii ")"
  | direct path addr => path.text ++ ascii " (" ++ addr.text ++ ascii ")"
  | resolved name path addr =>
    name.text ++ ascii " => " ++ path.text ++ ascii " (" ++ addr.text ++ ascii ")"
  | not_found name => name.text ++ ascii " => not found"

/-- The path of a dependency that was resolved. -/
def path : LddLine → Option Bytes
  | vdso _ _ _ => none
  | direct path _ => some path.text
  | resolved _ path _ => some path.text
  | not_found _ => none

/-- The base name of the library that the line names. -/
def library : LddLine → Option Bytes
  | vdso _ _ _ => none
  | direct path _ => some (basename path.text)
  | resolved _ path _ => some (basename path.text)
  | not_found name => some (basename name.text)

/-- The path, if any, was found and is without spaces. -/
def Resolved : LddLine → Prop
  | vdso _ _ _ => True
  | direct path _ => 0x20 ∉ path.text
  | resolved _ path _ => 0x20 ∉ path.text
  | not_found _ => False

instance (l : LddLine) : Decidable l.Resolved :=
  match l with
  | vdso _ _ _ => inferInstanceAs (Decidable True)
  | direct path _ => inferInstanceAs (Decidable (0x20 ∉ path.text))
  | resolved _ path _ => inferInstanceAs (Decidable (0x20 ∉ path.text))
  | not_found _ => inferInstanceAs (Decidable False)

end LddLine

/-- Each of them is one line of the output, and one record for `awk`. -/
theorem LddLine.one_line (l : LddLine) : 0x0a ∉ l.text := by
  have hend : ∀ {addr : LoadAddress} {s : Bytes}, 0x0a ∉ s →
      0x0a ∉ s ++ ascii " (" ++ addr.text ++ ascii ")" := by
    intro addr s hs
    have haddr : 0x0a ∉ addr.text := by
      intro hmem
      exact absurd (addr.no_blank _ hmem) (by decide)
    have htexts : 0x0a ∉ ascii " (" ∧ 0x0a ∉ ascii ")" := by decide
    simp only [List.mem_append, not_or]
    exact ⟨⟨⟨hs, htexts.1⟩, haddr⟩, htexts.2⟩
  match l with
  | vdso name addr hname =>
    apply hend
    intro hmem
    exact absurd (hname.no_blank _ hmem) (by decide)
  | direct path addr => exact hend path.one_line
  | resolved name path addr =>
    have harrow : 0x0a ∉ ascii " => " := by decide
    apply hend
    simp only [List.mem_append, not_or]
    exact ⟨⟨name.one_line, harrow⟩, path.one_line⟩
  | not_found name =>
    have hrest : 0x0a ∉ ascii " => not found" := by decide
    show 0x0a ∉ name.text ++ ascii " => not found"
    simp only [List.mem_append, not_or]
    exact ⟨name.one_line, hrest⟩

/-- The last piece of a path between blanks. -/
def last_word (path : Bytes) : Word :=
  (path.rdropWhile is_blank).rtakeWhile fun b => !is_blank b

/-- The word taken from a line. -/
def LddLine.word : LddLine → Word
  | vdso name _ _ => name
  | direct path _ => last_word path.text
  | resolved _ path _ => last_word path.text
  | not_found _ => ascii "not"

/-! ### Words of a path -/

theorem split_words_blanks {l : Bytes} (hl : ∀ b ∈ l, is_blank b = true) : split_words l = [] := by
  have := split_words_indent hl []
  rwa [List.append_nil, split_words_nil] at this

theorem split_words_trailing {l : Bytes} (hl : ∀ b ∈ l, is_blank b = true) (s : Bytes) :
    split_words (s ++ l) = split_words s := by
  cases l with
  | nil => rw [List.append_nil]
  | cons b l =>
    have hrest : split_words l = [] := split_words_blanks fun c hc => hl c (by simp [hc])
    rw [split_words_blank s (hl b (by simp)), hrest, List.append_nil]

/-- A path without blanks is its own last piece. -/
theorem last_word_of_word {path : Bytes} (h : OneWord path) : last_word path = path := by
  have hdrop : path.rdropWhile is_blank = path := by
    rw [List.rdropWhile_eq_self_iff]
    intro hne
    simp [h.no_blank _ (List.getLast_mem hne)]
  unfold last_word
  rw [hdrop, List.rtakeWhile_eq_self_iff]
  intro b hb
  simp [h.no_blank b hb]

theorem oneWord_last_word {path : Bytes} (h : NotBlank path) : OneWord (last_word path) where
  ne_nil := by
    obtain ⟨b, hb, hblank⟩ := h
    have hne : path.rdropWhile is_blank ≠ [] := by
      intro hnil
      rw [List.rdropWhile_eq_nil_iff] at hnil
      rw [hnil b hb] at hblank
      cases hblank
    have hlast := List.rdropWhile_last_not is_blank path hne
    unfold last_word
    rw [ne_eq, List.rtakeWhile_eq_nil_iff]
    intro hnot
    exact hnot hne (by simpa using hlast)
  no_blank := by
    intro b hb
    have := List.mem_rtakeWhile_imp hb
    simpa using this

/-- The last piece is the last word. -/
theorem split_words_last {path : Bytes} (h : NotBlank path) :
    ∃ pre, split_words path = pre ++ [last_word path] := by
  have hword := split_words_of_word (oneWord_last_word h)
  -- blanks at the end, then the piece, then the rest
  have htrailing : split_words path = split_words (path.rdropWhile is_blank) := by
    have hblanks := split_words_trailing (l := path.rtakeWhile is_blank)
      (fun b hb => List.mem_rtakeWhile_imp hb) (path.rdropWhile is_blank)
    rwa [List.rdropWhile_append_rtakeWhile] at hblanks
  have hpiece : path.rdropWhile is_blank =
      (path.rdropWhile is_blank).rdropWhile (fun b => !is_blank b) ++ last_word path :=
    List.rdropWhile_append_rtakeWhile.symm
  generalize hrest : (path.rdropWhile is_blank).rdropWhile (fun b => !is_blank b) = rest at hpiece
  rw [htrailing, hpiece]
  rcases List.eq_nil_or_concat rest with rfl | ⟨before, b, rfl⟩
  · exact ⟨[], by rw [List.nil_append, List.nil_append, hword]⟩
  · -- the byte before the piece is a blank
    have hne : (path.rdropWhile is_blank).rdropWhile (fun b => !is_blank b) ≠ [] := by
      rw [hrest]
      simp
    have hlast := List.rdropWhile_last_not (fun b => !is_blank b) (path.rdropWhile is_blank) hne
    have hblank : is_blank b = true := by
      simpa [hrest] using hlast
    refine ⟨split_words before, ?_⟩
    rw [List.concat_eq_append, List.append_assoc, List.singleton_append,
      split_words_blank before hblank, hword]

/-! ### Words of a line -/

/-- The word before the last is printed. -/
theorem print_field_of_words {line : Bytes} {pre : List Word} {w z : Word}
    (h : split_words line = pre ++ [w, z]) : print_field line = some w := by
  unfold print_field
  rw [h]
  simp

theorem oneWord_address (addr : LoadAddress) : OneWord (ascii "(" ++ addr.text ++ ascii ")") where
  ne_nil := by simp [ascii]
  no_blank := by
    intro b hb
    have hparentheses : ∀ b ∈ ascii "(" ++ ascii ")", is_blank b = false := by decide
    simp only [List.mem_append] at hb
    rcases hb with (hopen | haddr) | hclose
    · exact hparentheses b (by simp [hopen])
    · exact addr.no_blank b haddr
    · exact hparentheses b (by simp [hclose])

/-- A text followed by an address: one more word. -/
theorem split_words_address (s : Bytes) (addr : LoadAddress) :
    split_words (s ++ ascii " (" ++ addr.text ++ ascii ")") =
      split_words s ++ [ascii "(" ++ addr.text ++ ascii ")"] := by
  have heq : s ++ ascii " (" ++ addr.text ++ ascii ")" =
      s ++ 0x20 :: (ascii "(" ++ addr.text ++ ascii ")") := by
    simp [ascii]
  rw [heq, split_words_blank s (b := 0x20) rfl, split_words_of_word (oneWord_address addr)]

theorem split_words_arrow (name s : Bytes) :
    split_words (name ++ ascii " => " ++ s) = split_words name ++ ascii "=>" :: split_words s := by
  have heq : name ++ ascii " => " ++ s = name ++ 0x20 :: (ascii "=>" ++ 0x20 :: s) := by
    simp [ascii]
  have harrow : split_words (ascii "=>") = [ascii "=>"] := split_words_of_word (by decide)
  rw [heq, split_words_blank name (b := 0x20) rfl, split_words_blank (ascii "=>") (b := 0x20) rfl,
    harrow, List.singleton_append]

theorem LddLine.split_words_text (l : LddLine) :
    ∃ pre z, split_words l.text = pre ++ [l.word, z] := by
  match l with
  | vdso name addr hname =>
    refine ⟨[], ascii "(" ++ addr.text ++ ascii ")", ?_⟩
    show split_words (name ++ ascii " (" ++ addr.text ++ ascii ")") = _
    rw [split_words_address, split_words_of_word hname]
    rfl
  | direct path addr =>
    obtain ⟨pre, hpre⟩ := split_words_last path.not_blank
    refine ⟨pre, ascii "(" ++ addr.text ++ ascii ")", ?_⟩
    show split_words (path.text ++ ascii " (" ++ addr.text ++ ascii ")") = _
    rw [split_words_address, hpre, List.append_assoc]
    rfl
  | resolved name path addr =>
    obtain ⟨pre, hpre⟩ := split_words_last path.not_blank
    refine ⟨split_words name.text ++ ascii "=>" :: pre, ascii "(" ++ addr.text ++ ascii ")", ?_⟩
    show split_words
      (name.text ++ ascii " => " ++ path.text ++ ascii " (" ++ addr.text ++ ascii ")") = _
    rw [split_words_address, split_words_arrow, hpre]
    simp [word]
  | not_found name =>
    have hwords : split_words (ascii "not found") = [ascii "not", ascii "found"] := by decide
    refine ⟨split_words name.text ++ [ascii "=>"], ascii "found", ?_⟩
    have heq : name.text ++ ascii " => not found" =
        name.text ++ ascii " => " ++ ascii "not found" := by
      rw [List.append_assoc]
      rfl
    show split_words (name.text ++ ascii " => not found") = _
    rw [heq, split_words_arrow, hwords]
    simp [word]

theorem LddLine.oneWord_word (l : LddLine) : OneWord l.word := by
  match l with
  | vdso _ _ hname => exact hname
  | direct path _ => exact oneWord_last_word path.not_blank
  | resolved _ path _ => exact oneWord_last_word path.not_blank
  | not_found _ => exact (by decide : OneWord (ascii "not"))

/-- What `ldd` prints, with the tabs it begins a line with. -/
def ldd_output (tabs : Nat) (listing : List LddLine) : List Bytes :=
  listing.map fun l => List.replicate tabs 0x09 ++ l.text

/-- The words the first copy loop goes through. -/
def listed_words (fs : FileSystem) (listing : List LddLine) : List Word :=
  listing.flatMap fun l => expand fs.glob l.word

theorem mapM_print_field (tabs : Nat) (listing : List LddLine) :
    (ldd_output tabs listing).mapM print_field = some (listing.map LddLine.word) := by
  have htabs : ∀ b ∈ List.replicate tabs (0x09 : UInt8), is_blank b = true := by
    intro b hb
    rw [List.eq_of_mem_replicate hb]
    rfl
  have hline : ∀ l : LddLine, print_field (List.replicate tabs 0x09 ++ l.text) = some l.word := by
    intro l
    obtain ⟨pre, z, hwords⟩ := l.split_words_text
    apply print_field_of_words
    rw [split_words_indent htabs, hwords]
  induction listing with
  | nil => rfl
  | cons l listing ih =>
    show ((List.replicate tabs 0x09 ++ l.text) :: ldd_output tabs listing).mapM print_field = _
    rw [List.mapM_cons, hline, ih]
    rfl

/-- **What the first loop goes through**: for each line of the listing, what
    its word expands to. -/
theorem dependency_list_eq {fs : FileSystem} (tabs : Nat) (listing : List LddLine) :
    dependency_list fs (ldd_output tabs listing) = .ok (listed_words fs listing) := by
  have hwords : ∀ l : LddLine, split_words l.word = [l.word] :=
    fun l => split_words_of_word l.oneWord_word
  unfold dependency_list
  rw [mapM_print_field]
  show Except.ok (substituted fs (listing.map LddLine.word)) = _
  unfold substituted listed_words
  rw [split_words_lines, List.flatMap_map]
  simp [hwords, List.flatMap_assoc]

end LambdaCpp
