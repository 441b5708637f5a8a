import Mathlib.Logic.Function.Basic
import LambdaCpp.Packaging.Shell

/-! # Files, Links and `cp`

    The file system around the package, and the package's own directory
    `tmp/lib`, which only `cp` changes.

    Every file has an identity, so that two paths may lead to the same file.
    An entry of `tmp/lib` is a copy of a file or a symbolic link; a link may
    lead to another entry, and GNU `cp` writes through a link that is in its
    way.
-/

namespace LambdaCpp

/-! ### The file system -/

inductive Kind where
  | regular | directory | other
  deriving DecidableEq, Repr

structure File where
  id : Nat
  kind : Kind
  deriving DecidableEq, Repr

/-- Where a symbolic link in `tmp/lib` leads: to an entry of `tmp/lib`, or to
    a file elsewhere if there is one. -/
inductive Landing where
  | inside (name : Bytes)
  | outside (f : Option File)

/-- What is outside the package; no path of it leads through `tmp/lib`. -/
structure FileSystem where
  /-- The file that a path leads to, symbolic links followed. -/
  stat : Word → Option File
  /-- The target of a path that is itself a symbolic link. -/
  readlink : Word → Option Bytes
  /-- Where a link with a given target leads from `tmp/lib`. -/
  lead : Bytes → Landing
  /-- The paths that match a pattern; no name has a line break. -/
  glob : Word → List Word
  stat_empty : stat [] = none
  readlink_empty : readlink [] = none
  glob_one_line : ∀ w, ∀ i ∈ glob w, 0x0a ∉ i

/-- `[[ -f $i ]]`. -/
def FileSystem.is_file (fs : FileSystem) (i : Word) : Bool :=
  (fs.stat i).any fun f => f.kind = .regular

/-! ### The directory -/

inductive DirEntry where
  /-- A copy of a file, and whether the last copy to it followed links. -/
  | regular (source : Nat) (followed : Bool)
  | symlink (target : Bytes)
  deriving DecidableEq, Repr

/-- `tmp/lib`. -/
abbrev Directory : Type := Bytes → Option DirEntry

def Directory.empty : Directory := fun _ => none

/-- What a name in the directory leads to. -/
inductive Destination where
  | inside (name : Bytes)
  | outside (f : File)
  | nothing

/-- The longest chain of links that is followed. -/
def MAXSYMLINKS : Nat := 40

variable (fs : FileSystem)

def resolve (lib : Directory) : Nat → Bytes → Destination
  | 0, _ => .nothing
  | links + 1, name =>
    match lib name with
    | none => .nothing
    | some (.regular _ _) => .inside name
    | some (.symlink target) =>
      match fs.lead target with
      | .inside name' => resolve lib links name'
      | .outside none => .nothing
      | .outside (some f) => .outside f

/-! ### Commands -/

/-- A word that begins with a dash is taken for options, and refused.  Two
    such words are not refused by GNU `basename` and `cp`, `--help` and
    `--version`: they print a text and copy nothing. -/
def is_option (i : Word) : Bool := i.head? = some 0x2d

/-- The contents of `f` go to `tmp/lib/name`. -/
def write_contents (dereference : Bool) (f : File) (name : Bytes) (lib : Directory) :
    Option Directory :=
  match lib name with
  | none | some (.regular _ _) => some (Function.update lib name (some (.regular f.id dereference)))
  | some (.symlink _) =>
    match resolve fs lib MAXSYMLINKS name with
    | .inside name' => some (Function.update lib name' (some (.regular f.id dereference)))
    | .outside g => if g.kind = .directory ∨ g.id = f.id then none else some lib
    | .nothing => none

/-- `cp "$i" tmp/lib`, and `cp --no-dereference "$i" tmp/lib`. -/
def cp (dereference : Bool) (i : Word) (lib : Directory) : Option Directory :=
  if is_option i then none
  else
    match if dereference then none else fs.readlink i with
    | some target => some (Function.update lib (basename i) (some (.symlink target)))
    | none =>
      match fs.stat i with
      | none => none
      | some f =>
        if f.kind = .directory then none else write_contents fs dereference f (basename i) lib

/-- `$(basename "$i")`. -/
def basename_command (i : Word) : Option Bytes :=
  if is_option i then none else some (basename i)

/-! ### What a copy does -/

/-- The ways a copy of `i` can change `tmp/lib`. -/
inductive Copies (dereference : Bool) (i : Word) (lib : Directory) : Directory → Prop where
  /-- A link takes the place of whatever had its name. -/
  | link {target : Bytes} : dereference = false → fs.readlink i = some target →
      Copies dereference i lib (Function.update lib (basename i) (some (.symlink target)))
  | written {f : File} : fs.stat i = some f →
      (∀ target, lib (basename i) ≠ some (.symlink target)) →
      Copies dereference i lib
        (Function.update lib (basename i) (some (.regular f.id dereference)))
  /-- A link was in the way, and led to another entry. -/
  | through {f : File} {target name : Bytes} : (dereference = true ∨ fs.readlink i = none) →
      fs.stat i = some f → lib (basename i) = some (.symlink target) →
      resolve fs lib MAXSYMLINKS (basename i) = .inside name →
      Copies dereference i lib (Function.update lib name (some (.regular f.id dereference)))
  /-- A link was in the way, and led out of the directory. -/
  | away {target : Bytes} {g : File} : lib (basename i) = some (.symlink target) →
      resolve fs lib MAXSYMLINKS (basename i) = .outside g → Copies dereference i lib lib

variable {fs} {lib lib' : Directory} {dereference : Bool} {i : Word}

theorem copies_of_write {f : File} (hstat : fs.stat i = some f)
    (hlink : dereference = true ∨ fs.readlink i = none)
    (h : write_contents fs dereference f (basename i) lib = some lib') :
    Copies fs dereference i lib lib' := by
  unfold write_contents at h
  split at h
  · next hnone =>
    obtain rfl := Option.some.inj h
    exact .written hstat (by simp [hnone])
  · next hregular =>
    obtain rfl := Option.some.inj h
    exact .written hstat (by simp [hregular])
  · next hsymlink =>
    -- the destination of the link decides
    split at h
    · next hinside =>
      obtain rfl := Option.some.inj h
      exact .through hlink hstat hsymlink hinside
    · next houtside =>
      split at h
      · cases h
      · obtain rfl := Option.some.inj h
        exact .away hsymlink houtside
    · cases h

/-- **`cp`** succeeds in one of these ways only. -/
theorem cp_copies (h : cp fs dereference i lib = some lib') :
    i ≠ [] ∧ Copies fs dereference i lib lib' := by
  unfold cp at h
  split at h
  · cases h
  · split at h
    · next target hreadlink =>
      obtain rfl := Option.some.inj h
      cases dereference with
      | true => cases hreadlink
      | false =>
        refine ⟨?_, .link rfl hreadlink⟩
        rintro rfl
        rw [if_neg Bool.false_ne_true, fs.readlink_empty] at hreadlink
        cases hreadlink
    · next hreadlink =>
      split at h
      · cases h
      · next f hstat =>
        split at h
        · cases h
        · have hlink : dereference = true ∨ fs.readlink i = none := by
            cases dereference with
            | true => exact Or.inl rfl
            | false => exact Or.inr hreadlink
          refine ⟨?_, copies_of_write hstat hlink h⟩
          rintro rfl
          rw [fs.stat_empty] at hstat
          cases hstat

theorem resolve_inside {links : Nat} {name name' : Bytes}
    (h : resolve fs lib links name = .inside name') :
    ∃ source followed, lib name' = some (.regular source followed) := by
  induction links generalizing name with
  | zero => cases h
  | succ links ih =>
    unfold resolve at h
    split at h
    · cases h
    · next hregular =>
      obtain rfl := Destination.inside.inj h
      exact ⟨_, _, hregular⟩
    · split at h
      · exact ih h
      · cases h
      · cases h

/-- A copy adds the base name of its source to the directory, and no other
    name. -/
theorem Copies.isSome_iff (h : Copies fs dereference i lib lib') (name : Bytes) :
    (lib' name).isSome ↔ (lib name).isSome ∨ basename i = name := by
  -- changing an entry to another entry changes no names but its own
  have hupdate : ∀ m e, (Function.update lib m (some e) name).isSome ↔
      (lib name).isSome ∨ m = name := by
    intro m e
    by_cases hm : m = name
    · subst hm
      simp
    · rw [Function.update_of_ne (Ne.symm hm)]
      simp [hm]
  have hpresent : ∀ {m e}, lib m = some e → ((lib name).isSome ∨ m = name ↔ (lib name).isSome) := by
    intro m e hm
    constructor
    · intro h
      rcases h with h | rfl
      · exact h
      · rw [hm]
        rfl
    · exact Or.inl
  cases h with
  | link => exact hupdate _ _
  | written => exact hupdate _ _
  | through _ _ hsymlink hinside =>
    obtain ⟨source, followed, hregular⟩ := resolve_inside hinside
    rw [hupdate, hpresent hregular, hpresent hsymlink]
  | away hsymlink => rw [hpresent hsymlink]

/-! ### Small file systems -/

/-- Regular files at some paths, of which some are links.  A link leads to
    the entry of `tmp/lib` with the name of its target. -/
def FileSystem.small (files : List (Word × Nat)) (links : List (Word × Bytes)) : FileSystem where
  stat := fun i => if i = [] then none else (files.lookup i).map fun id => ⟨id, .regular⟩
  readlink := fun i => if i = [] then none else links.lookup i
  lead := .inside
  glob := fun _ => []
  stat_empty := rfl
  readlink_empty := rfl
  glob_one_line := by
    intro w i hi
    cases hi

end LambdaCpp
