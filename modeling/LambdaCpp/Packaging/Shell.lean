import Mathlib.Data.List.DropRight
import LambdaCpp.Base.Bytes

/-! # Words and Names

    How the packager script takes text apart: word splitting and pathname
    expansion of an unquoted variable, the fields of `awk`, `basename`, and
    the test for the name of a loader.
-/

namespace LambdaCpp

open Bytes (ascii)

abbrev Word : Type := Bytes

/-! ### Word splitting -/

/-- Space, tab and newline: the default `IFS`. -/
def is_blank (b : UInt8) : Bool := b = 0x20 || b = 0x09 || b = 0x0a

/-- The words of a text.  The fields that `awk` finds in a line are the
    same. -/
def split_words (s : Bytes) : List Word := (s.splitOnP is_blank).filter (· ≠ [])

/-- A text without blanks, which splitting leaves in one piece. -/
structure OneWord (w : Bytes) : Prop where
  ne_nil : w ≠ []
  no_blank : ∀ b ∈ w, is_blank b = false

instance (w : Bytes) : Decidable (OneWord w) :=
  decidable_of_iff (w ≠ [] ∧ ∀ b ∈ w, is_blank b = false)
    ⟨fun h => ⟨h.1, h.2⟩, fun h => ⟨h.1, h.2⟩⟩

@[simp] theorem split_words_nil : split_words [] = [] := by
  simp [split_words]

theorem split_words_blank (s : Bytes) {b : UInt8} (hb : is_blank b = true) (s' : Bytes) :
    split_words (s ++ b :: s') = split_words s ++ split_words s' := by
  unfold split_words
  rw [List.splitOnP_append_cons s s' hb, List.filter_append]

theorem split_words_of_word {w : Bytes} (h : OneWord w) : split_words w = [w] := by
  unfold split_words
  rw [List.splitOnP_eq_singleton h.no_blank]
  simp [h.ne_nil]

/-- Leading blanks play no role. -/
theorem split_words_indent {l : Bytes} (hl : ∀ b ∈ l, is_blank b = true) (s : Bytes) :
    split_words (l ++ s) = split_words s := by
  induction l with
  | nil => rfl
  | cons b l ih =>
    have hsplit := split_words_blank [] (hl b (by simp)) (l ++ s)
    rw [split_words_nil, List.nil_append, List.nil_append] at hsplit
    rw [List.cons_append, hsplit]
    exact ih (fun c hc => hl c (by simp [hc]))

theorem oneWord_of_mem {s w : Bytes} (h : w ∈ split_words s) : OneWord w := by
  have hpieces : ∀ w ∈ s.splitOnP is_blank, ∀ b ∈ w, is_blank b = false := by
    clear h
    induction s with
    | nil => simp [List.splitOnP_nil]
    | cons c s ih =>
      rw [List.splitOnP_cons_eq_if_modifyHead]
      by_cases hc : is_blank c = true
      · rw [if_pos hc]
        simpa using ih
      · -- the first piece grows by `c`
        rw [if_neg hc]
        match hs : s.splitOnP is_blank with
        | [] => simp
        | piece :: rest =>
          rw [hs, List.forall_mem_cons] at ih
          rw [List.modifyHead_cons, List.forall_mem_cons, List.forall_mem_cons]
          exact ⟨⟨Bool.eq_false_iff.mpr hc, ih.1⟩, ih.2⟩
  obtain ⟨hpiece, hne⟩ := List.mem_filter.mp h
  exact ⟨by simpa using hne, hpieces w hpiece⟩

/-- Words that a blank follows, and the rest of the line. -/
theorem split_words_line {words : List Word} (h : ∀ w ∈ words, OneWord w) (s : Bytes) :
    split_words (words.flatMap (· ++ [0x20]) ++ s) = words ++ split_words s := by
  induction words with
  | nil => rfl
  | cons w words ih =>
    rw [List.flatMap_cons, List.append_assoc, List.append_assoc, List.singleton_append,
      split_words_blank w rfl, split_words_of_word (h w List.mem_cons_self),
      ih fun v hv => h v (List.mem_cons_of_mem w hv), List.singleton_append, List.cons_append]

/-- Lines one below the other. -/
theorem split_words_lines (lines : List Bytes) :
    split_words (lines.flatMap (· ++ [0x0a])) = lines.flatMap split_words := by
  induction lines with
  | nil => simp
  | cons line lines ih =>
    have hsplit := split_words_blank line (b := 0x0a) rfl (lines.flatMap (· ++ [0x0a]))
    rw [List.flatMap_cons, List.flatMap_cons, List.append_assoc, List.singleton_append, hsplit, ih]

/-- `awk '{print $(NF-1)}'` on one line: without any field the index is
    negative, an error; with one field it is `$0`. -/
def print_field (line : Bytes) : Option Bytes :=
  match (split_words line).length with
  | 0 => none
  | 1 => some line
  | n + 2 => (split_words line)[n]?

/-! ### Pathname expansion -/

def has_glob (w : Word) : Bool := w.any fun b => b = 0x2a || b = 0x3f || b = 0x5b

/-- A word that is a pattern becomes the paths that match it, if any. -/
def expand (glob : Word → List Word) (w : Word) : List Word :=
  if has_glob w then
    match glob w with
    | [] => [w]
    | matching => matching
  else [w]

/-- Words without patterns stay as they are. -/
theorem flatMap_expand {glob : Word → List Word} {words : List Word}
    (h : ∀ w ∈ words, has_glob w = false) : words.flatMap (expand glob) = words := by
  have hsame : ∀ w ∈ words, expand glob w = [w] := by
    intro w hw
    unfold expand
    rw [h w hw, if_neg Bool.false_ne_true]
  rw [List.flatMap_congr hsame, List.flatMap_singleton']

/-! ### Names -/

/-- `basename`. -/
def basename (p : Word) : Bytes :=
  let s := p.rdropWhile (· = 0x2f)
  if s = [] then (if p = [] then [] else [0x2f])
  else s.rtakeWhile (· ≠ 0x2f)

/-- `"${filename##ld-*}"`. -/
def strip_ld (filename : Bytes) : Bytes :=
  if (ascii "ld-").isPrefixOf filename then [] else filename

/-- `[[ -z "${filename##ld-*}" ]]`. -/
def is_loader (filename : Bytes) : Bool := (strip_ld filename).isEmpty

/-- The name of a dynamic loader. -/
def LoaderName (filename : Bytes) : Prop := ascii "ld-" <+: filename

instance (filename : Bytes) : Decidable (LoaderName filename) :=
  inferInstanceAs (Decidable (ascii "ld-" <+: filename))

theorem basename_ne_nil {p : Word} (h : p ≠ []) : basename p ≠ [] := by
  unfold basename
  by_cases hs : p.rdropWhile (· = 0x2f) = []
  · simp [hs, h]
  · -- the last byte left is no slash
    have hlast := List.rdropWhile_last_not (fun b : UInt8 => decide (b = 0x2f)) p hs
    simp only [if_neg hs]
    intro hnil
    rw [List.rtakeWhile_eq_nil_iff] at hnil
    exact hnil hs (by simpa using hlast)

/-- Apart from the empty name, the test accepts the names of loaders. -/
theorem is_loader_iff {filename : Bytes} :
    is_loader filename = true ↔ filename = [] ∨ LoaderName filename := by
  unfold is_loader strip_ld LoaderName
  rw [← List.isPrefixOf_iff_prefix]
  split
  · next h => simp [h]
  · next h => simp [h]

theorem is_loader_basename_iff {p : Word} (h : p ≠ []) :
    is_loader (basename p) = true ↔ LoaderName (basename p) := by
  rw [is_loader_iff]
  simp [basename_ne_nil h]

end LambdaCpp
