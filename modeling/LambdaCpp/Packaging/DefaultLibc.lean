import LambdaCpp.Packaging.Dependencies
import LambdaCpp.Packaging.Loader

/-! # Packaging Without the C Library

    With `--default-libc` only the first loop runs, and the last of the
    copied words with a base name decides what is under that name:
    `default_libc_entries`.

    Whether a file belongs to the C library is decided by its path.  The
    paths of `ldd` and those of the package manager may differ for the same
    file (`/lib64` and `/usr/lib64`); it is then packaged after all.
-/

namespace LambdaCpp

open Bytes (ascii)

variable {fs : FileSystem} {libc_libs pre list : List Word} {s s' : Packaging} {i : Word}

/-! ### What stays -/

/-- The word is copied, and no later copy has its base name. -/
def Survives (fs : FileSystem) (libc_libs list : List Word) (i : Word) : Prop :=
  lastWith basename (basename i) (list.filter (is_copied fs libc_libs)) = some i

instance : Decidable (Survives fs libc_libs list i) :=
  inferInstanceAs (Decidable (lastWith _ _ _ = _))

theorem Survives.mem (h : Survives fs libc_libs list i) :
    i ∈ list ∧ is_copied fs libc_libs i = true :=
  List.mem_filter.mp (mem_of_lastWith h).1

/-- A copy of the file at `i`, links followed. -/
def copy_of (fs : FileSystem) (i : Word) : Option DirEntry :=
  (fs.stat i).map fun f => .regular f.id true

/-- `pre` was gone through. -/
structure LastCopied (fs : FileSystem) (libc_libs pre : List Word) (s : Packaging) : Prop where
  followed : AllFollowed s.lib
  entries : ∀ name, s.lib name =
    (lastWith basename name (pre.filter (is_copied fs libc_libs))).bind (copy_of fs)

theorem LastCopied.step (h : LastCopied fs libc_libs pre s)
    (hstep : copy_dependency fs libc_libs s i = .ok s') :
    LastCopied fs libc_libs (pre ++ [i]) s' := by
  rcases copy_dependency_cases hstep with ⟨hskip, rfl⟩ | ⟨hcopied, hcp, -⟩
  · have hfilter : (pre ++ [i]).filter (is_copied fs libc_libs) =
        pre.filter (is_copied fs libc_libs) := by
      rw [List.filter_append, List.filter_singleton, hskip]
      simp
    refine ⟨h.followed, ?_⟩
    intro name
    rw [hfilter]
    exact h.entries name
  · obtain ⟨-, f, hstat, hlib⟩ := written_of_followed h.followed hcp
    have hfilter : (pre ++ [i]).filter (is_copied fs libc_libs) =
        pre.filter (is_copied fs libc_libs) ++ [i] := by
      rw [List.filter_append, List.filter_singleton, hcopied]
      simp
    constructor
    · rw [hlib]
      exact h.followed.update _ _
    · intro name
      rw [hlib, hfilter, lastWith_concat]
      by_cases hname : basename i = name
      · subst hname
        rw [Function.update_self, if_pos rfl]
        show _ = copy_of fs i
        unfold copy_of
        rw [hstat]
        rfl
      · rw [Function.update_of_ne (Ne.symm hname), if_neg hname]
        exact h.entries name

theorem last_copied (h : list.foldlM (copy_dependency fs libc_libs) .initial = .ok s) :
    LastCopied fs libc_libs list s := by
  have hstart : LastCopied fs libc_libs [] .initial := by
    refine ⟨?_, fun name => rfl⟩
    intro name e he
    cases he
  exact ForLoop.invariant (I := LastCopied fs libc_libs) hstart
    (fun _ _ _ _ hs hstep => hs.step hstep) h

/-- **The entries of `tmp/lib`** when the C library is left out. -/
theorem default_libc_entries {lines : List Bytes} (hlist : dependency_list fs lines = .ok list)
    (h : copy_files fs libc_libs false lines = .ok s) {name : Bytes} {e : DirEntry} :
    s.lib name = some e ↔
      ∃ i f, Survives fs libc_libs list i ∧ basename i = name ∧ fs.stat i = some f ∧
        e = .regular f.id true := by
  obtain ⟨list', s₁, hlist', hdependencies, -, hdefault⟩ := copy_files_cases h
  obtain rfl : list = list' := Except.ok.inj (hlist.symm.trans hlist')
  obtain rfl := hdefault rfl
  rw [(last_copied hdependencies).entries name, Option.bind_eq_some_iff]
  unfold copy_of Survives
  constructor
  · intro hentry
    obtain ⟨i, hlast, hcopy⟩ := hentry
    obtain ⟨f, hstat, he⟩ := Option.map_eq_some_iff.mp hcopy
    obtain rfl := (mem_of_lastWith hlast).2
    exact ⟨i, f, hlast, rfl, hstat, he.symm⟩
  · intro hentry
    obtain ⟨i, f, hlast, rfl, hstat, rfl⟩ := hentry
    refine ⟨i, hlast, ?_⟩
    rw [hstat]
    rfl

/-! ### The C library's files -/

/-- A file of the C library, under one path or another. -/
def BelongsToLibc (fs : FileSystem) (libc_libs : List Word) (source : Nat) : Prop :=
  ∃ i ∈ libc_libs, ∃ f, fs.stat i = some f ∧ f.id = source

/-- A regular file that is no file of the C library, or its loader. -/
def Needed (fs : FileSystem) (libc_libs : List Word) (path : Word) (f : File) : Prop :=
  fs.stat path = some f ∧ f.kind = .regular ∧
    (BelongsToLibc fs libc_libs f.id → LoaderName (basename path))

/-- What `--default-libc` is for. -/
structure LeavesLibcOut (fs : FileSystem) (libc_libs : List Word) (listing : List LddLine)
    (s : Packaging) : Prop where
  left_out : ∀ name source followed, s.lib name = some (.regular source followed) →
    BelongsToLibc fs libc_libs source → LoaderName name
  dependencies : ∀ l ∈ listing, ∀ path f, l.path = some path → Needed fs libc_libs path f →
    ∃ followed, s.lib (basename path) = some (.regular f.id followed)

/-- The paths tell the C library's files from the others. -/
structure KnownByPath (fs : FileSystem) (libc_libs : List Word) (listing : List LddLine) :
    Prop where
  /-- No word that stays is another path of a file of the C library. -/
  no_alias : ∀ i f, Survives fs libc_libs (listed_words fs listing) i → fs.stat i = some f →
    BelongsToLibc fs libc_libs f.id → LoaderName (basename i)
  /-- The others stay, and no different file takes their name. -/
  own : ∀ l ∈ listing, ∀ path f, l.path = some path → Needed fs libc_libs path f →
    ∃ i g, Survives fs libc_libs (listed_words fs listing) i ∧ basename i = basename path ∧
      fs.stat i = some g ∧ g.id = f.id

variable {listing : List LddLine} {tabs : Nat}

/-- **When `--default-libc` leaves the C library out**, and nothing else. -/
theorem leaves_libc_out_iff
    (h : copy_files fs libc_libs false (ldd_output tabs listing) = .ok s) :
    LeavesLibcOut fs libc_libs listing s ↔ KnownByPath fs libc_libs listing := by
  have hentries : ∀ {name e}, s.lib name = some e ↔
      ∃ i f, Survives fs libc_libs (listed_words fs listing) i ∧ basename i = name ∧
        fs.stat i = some f ∧ e = .regular f.id true :=
    default_libc_entries (dependency_list_eq tabs listing) h
  constructor
  · intro hout
    constructor
    · intro i f hsurvives hstat hlibc
      have hentry : s.lib (basename i) = some (.regular f.id true) :=
        hentries.mpr ⟨i, f, hsurvives, rfl, hstat, rfl⟩
      exact hout.left_out _ _ _ hentry hlibc
    · intro l hl path f hpath hneeded
      obtain ⟨followed, hentry⟩ := hout.dependencies l hl path f hpath hneeded
      obtain ⟨i, g, hsurvives, hname, hstat, he⟩ := hentries.mp hentry
      obtain ⟨hid, -⟩ := DirEntry.regular.inj he
      exact ⟨i, g, hsurvives, hname, hstat, hid.symm⟩
  · intro hknown
    constructor
    · intro name source followed hentry hlibc
      obtain ⟨i, f, hsurvives, rfl, hstat, he⟩ := hentries.mp hentry
      obtain ⟨rfl, -⟩ := DirEntry.regular.inj he
      exact hknown.no_alias i f hsurvives hstat hlibc
    · intro l hl path f hpath hneeded
      obtain ⟨i, g, hsurvives, hname, hstat, hid⟩ := hknown.own l hl path f hpath hneeded
      exact ⟨true, hentries.mpr ⟨i, g, hsurvives, hname, hstat, by rw [hid]⟩⟩

/-- `/lib64` is a link to `/usr/lib64`. -/
def usrmerge_files : FileSystem :=
  .small [(ascii "/lib64/ld-linux-x86-64.so.2", 1), (ascii "/lib64/libc.so.6", 2),
    (ascii "/usr/lib64/libc.so.6", 2), (ascii "/opt/lib/libbar.so", 3)] []

def libc_line : LddLine :=
  .resolved { text := ascii "libc.so.6" } { text := ascii "/lib64/libc.so.6" }
    { text := ascii "0x7f3" }

def libbar_line : LddLine :=
  .resolved { text := ascii "libbar.so" } { text := ascii "/opt/lib/libbar.so" }
    { text := ascii "0x7f4" }

/-- `ldd` and the package manager name the C library by the same path. -/
theorem leaves_libc_out_same_path :
    ∃ s, copy_files usrmerge_files [ascii "/lib64/libc.so.6"] false
        (ldd_output 1 [libbar_line, libc_line]) = .ok s ∧
      LeavesLibcOut usrmerge_files [ascii "/lib64/libc.so.6"] [libbar_line, libc_line] s := by
  have hrun : (copy_files usrmerge_files [ascii "/lib64/libc.so.6"] false
      (ldd_output 1 [libbar_line, libc_line])).map Packaging.PKG_LD = .ok [] := by decide +kernel
  obtain ⟨s, hs, -⟩ := exists_of_map_eq hrun
  have hother : ¬ BelongsToLibc usrmerge_files [ascii "/lib64/libc.so.6"] 3 := by
    rintro ⟨i, hi, f, hstat, hid⟩
    obtain rfl := List.mem_singleton.mp hi
    obtain rfl : (⟨2, .regular⟩ : File) = f := Option.some.inj hstat
    exact absurd hid (by decide)
  refine ⟨s, hs, (leaves_libc_out_iff hs).mpr ⟨?_, ?_⟩⟩
  · intro i f hsurvives hstat hlibc
    obtain ⟨hlisted, hcopied⟩ := hsurvives.mem
    have hwords : listed_words usrmerge_files [libbar_line, libc_line] =
        [ascii "/opt/lib/libbar.so", ascii "/lib64/libc.so.6"] := by decide +kernel
    rw [hwords] at hlisted
    simp only [List.mem_cons, List.not_mem_nil, or_false] at hlisted
    rcases hlisted with rfl | rfl
    · obtain rfl : (⟨3, .regular⟩ : File) = f := Option.some.inj hstat
      exact absurd hlibc hother
    · exact absurd hcopied (by decide)
  · intro l hl path f hpath hneeded
    simp only [List.mem_cons, List.not_mem_nil, or_false] at hl
    rcases hl with rfl | rfl
    · obtain rfl := Option.some.inj hpath
      exact ⟨_, f, by decide +kernel, rfl, hneeded.1, rfl⟩
    · obtain rfl := Option.some.inj hpath
      obtain ⟨hstat, -, hloader⟩ := hneeded
      exact absurd (hloader ⟨_, List.mem_singleton_self _, f, hstat, rfl⟩) (by decide)

/-- The C library is packaged under the name it has in the listing. -/
theorem libc_packaged_usrmerge :
    ∃ s, copy_files usrmerge_files [ascii "/usr/lib64/libc.so.6"] false
        (ldd_output 1 [libbar_line, libc_line]) = .ok s ∧
      s.lib (ascii "libc.so.6") = some (.regular 2 true) ∧
      ¬ LeavesLibcOut usrmerge_files [ascii "/usr/lib64/libc.so.6"] [libbar_line, libc_line] s := by
  have hrun : (copy_files usrmerge_files [ascii "/usr/lib64/libc.so.6"] false
      (ldd_output 1 [libbar_line, libc_line])).map (fun s => s.lib (ascii "libc.so.6")) =
        .ok (some (.regular 2 true)) := by decide +kernel
  obtain ⟨s, hs, hlibc⟩ := exists_of_map_eq hrun
  refine ⟨s, hs, hlibc, ?_⟩
  intro hout
  have hbelongs : BelongsToLibc usrmerge_files [ascii "/usr/lib64/libc.so.6"] 2 :=
    ⟨ascii "/usr/lib64/libc.so.6", by simp, ⟨2, .regular⟩, by decide, rfl⟩
  exact absurd (hout.left_out _ _ _ hlibc hbelongs) (by decide)

end LambdaCpp
