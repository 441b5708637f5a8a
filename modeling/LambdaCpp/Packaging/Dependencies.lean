import LambdaCpp.Packaging.Listing

/-! # The Package and the Binary's Dependencies

    The names in `tmp/lib` after each of the copy loops, from the words of
    the listing and the C library's files alone: `package_names`.

    The first loop leaves out every word that is no file, not only the
    vdso's.  A library that was not found, or one whose path is torn apart at
    a blank, is therefore missing without a word, unless something else
    brings a file of its name.
-/

namespace LambdaCpp

open Bytes (ascii)

variable {fs : FileSystem} {libc_libs pre : List Word} {s₁ s s' : Packaging} {i : Word}

/-! ### After the first loop -/

/-- `pre` was gone through. -/
structure DependenciesCopied (fs : FileSystem) (libc_libs pre : List Word) (s : Packaging) :
    Prop where
  names : ∀ name, (s.lib name).isSome ↔
    ∃ i ∈ pre, is_copied fs libc_libs i = true ∧ basename i = name
  loader : s.PKG_LD = [] ↔
    ∀ i ∈ pre, is_copied fs libc_libs i = true → is_loader (basename i) = false

theorem next_loader_eq_nil {PKG_LD : Bytes} (hne : i ≠ []) :
    next_loader libc_libs PKG_LD i = [] ↔ PKG_LD = [] ∧ is_loader (basename i) = false := by
  unfold next_loader
  by_cases hloader : is_loader (basename i) = true
  · by_cases hset : PKG_LD = []
    · simp [hloader, hset, basename_ne_nil hne]
    · simp only [hset, hloader, false_and, iff_false]
      split
      · exact basename_ne_nil hne
      · exact hset
  · simp [hloader]

theorem DependenciesCopied.step (h : DependenciesCopied fs libc_libs pre s)
    (hstep : copy_dependency fs libc_libs s i = .ok s') :
    DependenciesCopied fs libc_libs (pre ++ [i]) s' := by
  rcases copy_dependency_cases hstep with ⟨hskip, rfl⟩ | ⟨hcopied, hcp, hloader⟩
  · constructor
    · intro name
      rw [h.names name, ForLoop.exists_mem_concat]
      simp [hskip]
    · rw [h.loader, ForLoop.forall_mem_concat]
      simp [hskip]
  · obtain ⟨hne, hcopies⟩ := cp_copies hcp
    constructor
    · intro name
      rw [hcopies.isSome_iff, h.names name, ForLoop.exists_mem_concat]
      simp [hcopied]
    · rw [hloader, next_loader_eq_nil hne, h.loader, ForLoop.forall_mem_concat]
      simp [hcopied]

theorem dependencies_copied {list : List Word}
    (h : list.foldlM (copy_dependency fs libc_libs) .initial = .ok s) :
    DependenciesCopied fs libc_libs list s := by
  have hstart : DependenciesCopied fs libc_libs [] .initial := by
    constructor
    · intro name
      simp [Packaging.initial, Directory.empty]
    · simp [Packaging.initial]
  exact ForLoop.invariant (I := DependenciesCopied fs libc_libs) hstart
    (fun _ _ _ _ hs hstep => hs.step hstep) h

/-! ### After the second loop -/

/-- The loader that is packaged when the listing has none. -/
def first_loader (libc_libs : List Word) : Option Word :=
  libc_libs.find? fun i => is_loader (basename i)

theorem first_loader_concat :
    first_loader (pre ++ [i]) =
      (first_loader pre).or (if is_loader (basename i) then some i else none) := by
  unfold first_loader
  rw [List.find?_append, List.find?_singleton]

/-- `pre` was gone through, from the state `s₁`. -/
structure LibcCopied (s₁ : Packaging) (pre : List Word) (s : Packaging) : Prop where
  names : ∀ name, (s.lib name).isSome ↔ (s₁.lib name).isSome ∨
    (∃ i ∈ pre, is_loader (basename i) = false ∧ basename i = name) ∨
    (s₁.PKG_LD = [] ∧ ∃ i, first_loader pre = some i ∧ basename i = name)
  loader : s.PKG_LD = [] ↔ s₁.PKG_LD = [] ∧ first_loader pre = none

theorem LibcCopied.step (h : LibcCopied s₁ pre s) (hstep : copy_libc fs s i = .ok s') :
    LibcCopied s₁ (pre ++ [i]) s' := by
  rcases copy_libc_cases hstep with ⟨hloader, hunset, hcp, hPKG_LD⟩ | ⟨hloader, hset, rfl⟩ |
    ⟨hno, hcp, hPKG_LD⟩
  · -- the first loader
    obtain ⟨hne, hcopies⟩ := cp_copies hcp
    obtain ⟨hunset₁, hnone⟩ := h.loader.mp hunset
    have hfirst : first_loader (pre ++ [i]) = some i := by
      rw [first_loader_concat, hnone, if_pos hloader]
      rfl
    constructor
    · intro name
      rw [hcopies.isSome_iff, h.names name, ForLoop.exists_mem_concat, hfirst]
      simp [hunset₁, hnone, hloader, or_assoc]
    · rw [hPKG_LD, hfirst]
      simp [basename_ne_nil hne]
  · -- another one is there already
    have hsame : ∀ name, (s₁.PKG_LD = [] ∧ ∃ i, first_loader pre = some i ∧ basename i = name) ↔
        (s₁.PKG_LD = [] ∧ ∃ j, first_loader (pre ++ [i]) = some j ∧ basename j = name) := by
      intro name
      apply and_congr_right
      intro hunset₁
      rw [first_loader_concat]
      match hfirst : first_loader pre with
      | none => exact absurd (h.loader.mpr ⟨hunset₁, hfirst⟩) hset
      | some j => simp
    constructor
    · intro name
      rw [h.names name, hsame name, ForLoop.exists_mem_concat]
      simp [hloader]
    · have hnot : ¬ (s₁.PKG_LD = [] ∧ first_loader (pre ++ [i]) = none) := by
        intro hnone
        rw [first_loader_concat] at hnone
        simp [hloader] at hnone
      exact iff_of_false hset hnot
  · obtain ⟨-, hcopies⟩ := cp_copies hcp
    have hsame : first_loader (pre ++ [i]) = first_loader pre := by
      rw [first_loader_concat]
      simp [hno]
    constructor
    · intro name
      rw [hcopies.isSome_iff, h.names name, hsame, ForLoop.exists_mem_concat]
      simp only [hno, true_and]
      rw [or_assoc, or_right_comm]
    · rw [hPKG_LD, hsame]
      exact h.loader

theorem libc_copied (h : libc_libs.foldlM (copy_libc fs) s₁ = .ok s) :
    LibcCopied s₁ libc_libs s := by
  have hstart : LibcCopied s₁ [] s₁ := by
    constructor
    · intro name
      simp [first_loader]
    · simp [first_loader]
  exact ForLoop.invariant (I := LibcCopied s₁) hstart
    (fun _ _ _ _ hs hstep => hs.step hstep) h

/-! ### The names of the package -/

/-- What brings a file with the base name `name` into the package, when the
    first loop goes through `list`. -/
inductive Provided (fs : FileSystem) (libc_libs list : List Word) (name : Bytes) : Prop where
  | listed {i : Word} : i ∈ list → fs.is_file i = true → basename i = name →
      Provided fs libc_libs list name
  | libc {i : Word} : i ∈ libc_libs → is_loader (basename i) = false → basename i = name →
      Provided fs libc_libs list name
  /-- Only a listing without a loader takes one from the C library. -/
  | loader {i : Word} : (∀ j ∈ list, fs.is_file j = true → is_loader (basename j) = false) →
      first_loader libc_libs = some i → basename i = name → Provided fs libc_libs list name

theorem is_copied_and_loader :
    (is_copied fs libc_libs i = true → is_loader (basename i) = false) ↔
      (fs.is_file i = true → is_loader (basename i) = false) := by
  unfold is_copied
  by_cases hloader : is_loader (basename i) = true
  · simp [hloader]
  · simp [hloader]

/-- A file of the listing is copied by one of the loops. -/
theorem copied_or_libc (hfile : fs.is_file i = true) :
    is_copied fs libc_libs i = true ∨ (i ∈ libc_libs ∧ is_loader (basename i) = false) := by
  unfold is_copied
  by_cases hlibc : i ∈ libc_libs
  · by_cases hloader : is_loader (basename i) = true
    · simp [hfile, hloader]
    · simp [hlibc, hloader]
  · have hnot : hasElement i libc_libs = false := by
      rw [Bool.eq_false_iff, ne_eq, hasElement_iff]
      exact hlibc
    simp [hfile, hnot]

/-- **The names in `tmp/lib`** when the C library is included. -/
theorem package_names {lines : List Bytes} {list : List Word}
    (hlist : dependency_list fs lines = .ok list)
    (h : copy_files fs libc_libs true lines = .ok s) (name : Bytes) :
    (s.lib name).isSome ↔ Provided fs libc_libs list name := by
  obtain ⟨list', s₁, hlist', hdependencies, hlibc, -⟩ := copy_files_cases h
  obtain rfl : list = list' := Except.ok.inj (hlist.symm.trans hlist')
  have hfirst := dependencies_copied hdependencies
  have hsecond := libc_copied (hlibc rfl).1
  have hno_loader : s₁.PKG_LD = [] ↔
      ∀ j ∈ list, fs.is_file j = true → is_loader (basename j) = false := by
    rw [hfirst.loader]
    apply forall₂_congr
    intro j _
    exact is_copied_and_loader
  rw [hsecond.names name, hfirst.names name, hno_loader]
  constructor
  · intro hsome
    rcases hsome with ⟨i, hi, hcopied, hname⟩ | ⟨i, hi, hno, hname⟩ | ⟨hnone, i, hi, hname⟩
    · have hfile : fs.is_file i = true := by
        unfold is_copied at hcopied
        exact (Bool.and_eq_true_iff.mp hcopied).1
      exact .listed hi hfile hname
    · exact .libc hi hno hname
    · exact .loader hnone hi hname
  · intro hprovided
    cases hprovided with
    | @listed i hi hfile hname =>
      rcases copied_or_libc hfile with hcopied | ⟨hlibc, hno⟩
      · exact Or.inl ⟨i, hi, hcopied, hname⟩
      · exact Or.inr (Or.inl ⟨i, hlibc, hno, hname⟩)
    | @libc i hi hno hname => exact Or.inr (Or.inl ⟨i, hi, hno, hname⟩)
    | @loader i hnone hi hname => exact Or.inr (Or.inr ⟨hnone, i, hi, hname⟩)

/-! ### Closure under the dependencies -/

/-- A package without gaps: a file for every library that the listing names;
    and a listing with a library that was not found, or with a space in a
    path, does not lead to a package. -/
structure ClosedUnderDependencies (listing : List LddLine) (s : Packaging) : Prop where
  packaged : ∀ l ∈ listing, ∀ name, l.library = some name → (s.lib name).isSome
  resolved : ∀ l ∈ listing, l.Resolved

variable {listing : List LddLine} {tabs : Nat}

/-- A path without blanks and without a pattern, if it is a file. -/
theorem provided_of_file {l : LddLine} {path : Bytes} (hl : l ∈ listing)
    (hpath : l.path = some path) (hword : OneWord path) (hglob : has_glob path = false)
    (hfile : fs.is_file path = true) :
    Provided fs libc_libs (listed_words fs listing) (basename path) := by
  have hlisted : path ∈ listed_words fs listing := by
    have hline : l.word = path := by
      match l with
      | .vdso _ _ _ => cases hpath
      | .direct p _ =>
        obtain rfl := Option.some.inj hpath
        exact last_word_of_word hword
      | .resolved _ p _ =>
        obtain rfl := Option.some.inj hpath
        exact last_word_of_word hword
      | .not_found _ => cases hpath
    have hexpand : path ∈ expand fs.glob l.word := by
      unfold expand
      rw [hline, hglob]
      simp
    exact List.mem_flatMap.mpr ⟨l, hl, hexpand⟩
  exact .listed hlisted hfile rfl

/-- **When the package is closed under the binary's dependencies**: every
    line is resolved, and something provides a file of its base name. -/
theorem closed_under_dependencies_iff
    (h : copy_files fs libc_libs true (ldd_output tabs listing) = .ok s) :
    ClosedUnderDependencies listing s ↔
      ∀ l ∈ listing, l.Resolved ∧ ∀ name, l.library = some name →
        Provided fs libc_libs (listed_words fs listing) name := by
  have hnames := package_names (dependency_list_eq tabs listing) h
  constructor
  · intro hclosed l hl
    refine ⟨hclosed.resolved l hl, ?_⟩
    intro name hname
    exact (hnames name).mp (hclosed.packaged l hl name hname)
  · intro hprovided
    refine ⟨?_, fun l hl => (hprovided l hl).1⟩
    intro l hl name hname
    exact (hnames name).mpr ((hprovided l hl).2 name hname)

/-- The loader and one library. -/
def glibc_files : FileSystem :=
  .small [(ascii "/lib64/ld-linux-x86-64.so.2", 1), (ascii "/lib/libm.so.6", 2)] []

def loader_line : LddLine :=
  .direct { text := ascii "/lib64/ld-linux-x86-64.so.2" } { text := ascii "0x7f1" }

def libm_line : LddLine :=
  .resolved { text := ascii "libm.so.6" } { text := ascii "/lib/libm.so.6" }
    { text := ascii "0x7f2" }

theorem closed_under_dependencies_glibc :
    ∃ s, copy_files glibc_files [] true (ldd_output 1 [libm_line, loader_line]) = .ok s ∧
      ClosedUnderDependencies [libm_line, loader_line] s := by
  have hrun : (copy_files glibc_files [] true
      (ldd_output 1 [libm_line, loader_line])).map Packaging.PKG_LD =
        .ok (ascii "ld-linux-x86-64.so.2") := by decide +kernel
  obtain ⟨s, hs, -⟩ := exists_of_map_eq hrun
  refine ⟨s, hs, (closed_under_dependencies_iff hs).mpr ?_⟩
  intro l hl
  simp only [List.mem_cons, List.not_mem_nil, or_false] at hl
  rcases hl with rfl | rfl
  · refine ⟨by decide, ?_⟩
    intro name hname
    obtain rfl := Option.some.inj hname
    exact provided_of_file (l := libm_line) (by simp) rfl (by decide) (by decide) (by decide)
  · refine ⟨by decide, ?_⟩
    intro name hname
    obtain rfl := Option.some.inj hname
    exact provided_of_file (l := loader_line) (by simp) rfl (by decide) (by decide) (by decide)

def missing_line : LddLine := .not_found { text := ascii "libfoo.so" }

/-- A library that was not found: the run goes through, and the package is
    without it. -/
theorem dependency_left_out :
    ∃ s, copy_files glibc_files [] true (ldd_output 1 [missing_line, loader_line]) = .ok s ∧
      s.lib (ascii "libfoo.so") = none ∧
      ¬ ∀ l ∈ [missing_line, loader_line], ∀ name, l.library = some name → (s.lib name).isSome := by
  have hrun : (copy_files glibc_files [] true
      (ldd_output 1 [missing_line, loader_line])).map (fun s => s.lib (ascii "libfoo.so")) =
        .ok none := by decide +kernel
  obtain ⟨s, hs, hnone⟩ := exists_of_map_eq hrun
  refine ⟨s, hs, hnone, ?_⟩
  intro hclosed
  have hsome := hclosed missing_line (by simp) (ascii "libfoo.so") (by decide)
  rw [hnone] at hsome
  cases hsome

end LambdaCpp
