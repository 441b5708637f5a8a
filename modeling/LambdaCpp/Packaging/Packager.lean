import LambdaCpp.Base.Loops
import LambdaCpp.Packaging.FileSystem

/-! # The Packager Script

    `packager` copies the binary's dependencies and, unless told not to, the
    C library into `tmp/lib`, and writes a bootstrap that starts the binary
    through the packaged loader.

    A run either exits early or comes to the point where the archive is
    made.  Under `set -euo pipefail` a command that fails ends the run.
    `copy_dependency_cases` and `copy_libc_cases` say what one round of the
    two copy loops can do.
-/

namespace LambdaCpp

open Bytes (ascii)

inductive Exit where
  | missing_arguments
  /-- `$1` is not set. -/
  | unbound_variable
  | no_such_file (path : Word)
  | no_zip
  | command_failed
  | no_loader
  deriving DecidableEq, Repr

/-- A command that fails ends the run. -/
def or_exit {α : Type} : Option α → Except Exit α
  | some a => .ok a
  | none => .error .command_failed

/-! ### The C library's files -/

/-- What a query tool of the host does. -/
inductive Tool where
  | absent
  | fails
  | prints (lines : List Bytes)

/-- Ends in `.so`, or in `.so.` and digits. -/
def is_so_file (line : Bytes) : Bool :=
  (ascii ".so").isSuffixOf line ||
    (line.rtakeWhile Bytes.isDigit ≠ [] &&
      (ascii ".so.").isSuffixOf (line.rdropWhile Bytes.isDigit))

def pluck_so_files (lines : List Bytes) : List Bytes := lines.filter is_so_file

/-- The host as the script sees it. -/
structure Host where
  files : FileSystem
  has_zip : Bool
  ldd : Word → Option (List Bytes)
  /-- `/etc/os-release` names the distribution. -/
  is_alpine : Bool
  is_arch : Bool
  apk : Tool
  pacman : Tool
  dpkg_query : Tool
  rpm : Tool

variable (host : Host)

/-- `sed 's/^/\//'` makes absolute paths of `apk`'s. -/
def package_libc_alpine : Option (List Bytes) :=
  if host.is_alpine then
    match host.apk with
    | .absent => some []
    | .fails => none
    | .prints lines => some ((pluck_so_files lines).map (0x2f :: ·))
  else some []

def package_libc_pacman : Option (List Bytes) :=
  if host.is_arch then
    match host.pacman with
    | .absent => some []
    | .fails => none
    | .prints lines => some (pluck_so_files lines)
  else some []

/-- The number of lines is looked at first; a query that fails has none. -/
def package_libc_dpkg : Option (List Bytes) :=
  match host.dpkg_query with
  | .prints lines => if lines.length > 0 then some (pluck_so_files lines) else some []
  | _ => some []

/-- A single line only says that the package is not installed. -/
def package_libc_rpm : Option (List Bytes) :=
  match host.rpm with
  | .prints lines => if lines.length > 1 then some (pluck_so_files lines) else some []
  | _ => some []

/-- The words of an unquoted `$(...)`. -/
def substituted (fs : FileSystem) (lines : List Bytes) : List Word :=
  (split_words (lines.flatMap (· ++ [0x0a]))).flatMap (expand fs.glob)

def find_libc_libs : Except Exit (List Word) := do
  let dpkg ← or_exit (package_libc_dpkg host)
  let rpm ← or_exit (package_libc_rpm host)
  let pacman ← or_exit (package_libc_pacman host)
  let alpine ← or_exit (package_libc_alpine host)
  return [dpkg, rpm, pacman, alpine].flatMap (substituted host.files)

/-! ### The copy loops -/

/-- What the copy loops change. -/
structure Packaging where
  PKG_LD : Bytes
  lib : Directory

def Packaging.initial : Packaging := ⟨[], Directory.empty⟩

def hasElement (key : Word) (haystack : List Word) : Bool := haystack.any fun el => el = key

variable (fs : FileSystem) (libc_libs : List Word)

/-- `for i in $list`. -/
def copy_dependency (s : Packaging) (i : Word) : Except Exit Packaging :=
  if !fs.is_file i then
    -- ignore linux-vdso.so.1
    .ok s
  else if hasElement i libc_libs then do
    let filename ← or_exit (basename_command i)
    if is_loader filename then
      let lib ← or_exit (cp fs true i s.lib)
      return { PKG_LD := filename, lib := lib }
    else return s
  else do
    let filename ← or_exit (basename_command i)
    let PKG_LD := if is_loader filename && s.PKG_LD.isEmpty then filename else s.PKG_LD
    let lib ← or_exit (cp fs true i s.lib)
    return { PKG_LD := PKG_LD, lib := lib }

/-- `for i in "${libc_libs[@]}"`. -/
def copy_libc (s : Packaging) (i : Word) : Except Exit Packaging := do
  let filename ← or_exit (basename_command i)
  if is_loader filename then
    if s.PKG_LD.isEmpty then
      let lib ← or_exit (cp fs true i s.lib)
      return { PKG_LD := filename, lib := lib }
    else return s
  else
    let lib ← or_exit (cp fs false i s.lib)
    return { s with lib := lib }

/-- `list=$(ldd "$PKG_BIN_PATH" | awk '{print $(NF-1)}')`, and the words of
    `$list`. -/
def dependency_list (lines : List Bytes) : Except Exit (List Word) := do
  let fields ← or_exit (lines.mapM print_field)
  return substituted fs fields

/-- The script from the output of `ldd` to the check for the loader. -/
def copy_files (include_libc : Bool) (lines : List Bytes) : Except Exit Packaging := do
  let list ← dependency_list fs lines
  let s ← list.foldlM (copy_dependency fs libc_libs) .initial
  if include_libc then
    let s ← libc_libs.foldlM (copy_libc fs) s
    if s.PKG_LD.isEmpty then .error .no_loader
    else return s
  else return s

/-! ### The whole run -/

/-- `bootstrap` is a script, or the binary itself. -/
inductive Bootstrap where
  | script (text : Bytes)
  | binary (source : Word)

structure Package where
  lib : Directory
  /-- What is in `tmp/bin`. -/
  bin : Option Word
  bootstrap : Bootstrap

/-- The text given to `echo -e`. -/
def bootstrap_script (PKG_LD PKG_BIN_FILENAME : Bytes) : Bytes :=
  ascii "#!/bin/bash\nset -euo pipefail\nexport AWS_EXECUTION_ENV=lambda-cpp\nexec $LAMBDA_TASK_ROOT/lib/" ++
    PKG_LD ++ ascii " --library-path $LAMBDA_TASK_ROOT/lib $LAMBDA_TASK_ROOT/bin/" ++
    PKG_BIN_FILENAME ++ ascii " $\x7b_HANDLER\x7d"

/-- Whether the C library is included, and the other arguments. -/
def parse_arguments : List Word → Bool × List Word
  | [] => (true, [])
  | key :: rest =>
    let (include_libc, positional) := parse_arguments rest
    if key = ascii "-d" ∨ key = ascii "--default-libc" then (false, positional)
    else (include_libc, key :: positional)

def packager (arguments : List Word) : Except Exit Package :=
  if arguments.length < 1 then .error .missing_arguments
  else
    let (include_libc, positional) := parse_arguments arguments
    match positional with
    | [] => .error .unbound_variable
    | PKG_BIN_PATH :: _ =>
      if !host.files.is_file PKG_BIN_PATH then .error (.no_such_file PKG_BIN_PATH)
      else if !host.has_zip then .error .no_zip
      else do
        let PKG_BIN_FILENAME ← or_exit (basename_command PKG_BIN_PATH)
        let lines ← or_exit (host.ldd PKG_BIN_PATH)
        let libc_libs ← find_libc_libs host
        let s ← copy_files host.files libc_libs include_libc lines
        if include_libc then
          return { lib := s.lib, bin := some PKG_BIN_PATH
                   bootstrap := .script (bootstrap_script s.PKG_LD PKG_BIN_FILENAME) }
        else return { lib := s.lib, bin := none, bootstrap := .binary PKG_BIN_PATH }

/-! ### One round -/

variable {fs libc_libs} {s s' : Packaging} {i : Word}

theorem or_exit_eq_ok {α : Type} {result : Option α} {a : α} :
    or_exit result = .ok a ↔ result = some a := by
  cases result <;> simp [or_exit]

theorem basename_command_eq {i : Word} {filename : Bytes}
    (h : basename_command i = some filename) : filename = basename i := by
  unfold basename_command at h
  split at h
  · cases h
  · exact (Option.some.inj h).symm

theorem hasElement_iff {key : Word} {haystack : List Word} :
    hasElement key haystack = true ↔ key ∈ haystack := by
  simp [hasElement]

/-- The paths of the listing that are copied: all that exist as regular
    files, without those of the C library that are no loader. -/
def is_copied (fs : FileSystem) (libc_libs : List Word) (i : Word) : Bool :=
  fs.is_file i && (!hasElement i libc_libs || is_loader (basename i))

/-- The loader after a dependency was copied: a loader of the C library
    takes over, any other only when there is none. -/
def next_loader (libc_libs : List Word) (PKG_LD : Bytes) (i : Word) : Bytes :=
  if is_loader (basename i) && (hasElement i libc_libs || PKG_LD.isEmpty) then basename i
  else PKG_LD

/-- **One round of the first loop.** -/
theorem copy_dependency_cases (h : copy_dependency fs libc_libs s i = .ok s') :
    (is_copied fs libc_libs i = false ∧ s' = s) ∨
    (is_copied fs libc_libs i = true ∧ cp fs true i s.lib = some s'.lib ∧
      s'.PKG_LD = next_loader libc_libs s.PKG_LD i) := by
  unfold copy_dependency at h
  unfold is_copied next_loader
  split at h
  · next hfile =>
    left
    refine ⟨?_, (Except.ok.inj h).symm⟩
    have hfile : fs.is_file i = false := by simpa using hfile
    rw [hfile, Bool.false_and]
  · next hfile =>
    have hfile : fs.is_file i = true := by simpa using hfile
    split at h
    · next hlibc =>
      obtain ⟨filename, hname, h⟩ := ForLoop.bind_ok.mp h
      obtain rfl := basename_command_eq (or_exit_eq_ok.mp hname)
      split at h
      · next hloader =>
        -- the loader is packaged although it is a file of the C library
        obtain ⟨lib, hcp, h⟩ := ForLoop.bind_ok.mp h
        obtain rfl := Except.ok.inj h
        right
        refine ⟨?_, or_exit_eq_ok.mp hcp, ?_⟩
        · simp [hfile, hloader]
        · simp [hloader, hlibc]
      · next hloader =>
        left
        refine ⟨?_, (Except.ok.inj h).symm⟩
        simp [hfile, hlibc, hloader]
    · next hlibc =>
      obtain ⟨filename, hname, h⟩ := ForLoop.bind_ok.mp h
      obtain rfl := basename_command_eq (or_exit_eq_ok.mp hname)
      obtain ⟨lib, hcp, h⟩ := ForLoop.bind_ok.mp h
      obtain rfl := Except.ok.inj h
      right
      refine ⟨?_, or_exit_eq_ok.mp hcp, ?_⟩
      · simp [hfile, hlibc]
      · simp [hlibc]

/-- **One round of the second loop.** -/
theorem copy_libc_cases (h : copy_libc fs s i = .ok s') :
    (is_loader (basename i) = true ∧ s.PKG_LD = [] ∧ cp fs true i s.lib = some s'.lib ∧
      s'.PKG_LD = basename i) ∨
    (is_loader (basename i) = true ∧ s.PKG_LD ≠ [] ∧ s' = s) ∨
    (is_loader (basename i) = false ∧ cp fs false i s.lib = some s'.lib ∧
      s'.PKG_LD = s.PKG_LD) := by
  unfold copy_libc at h
  obtain ⟨filename, hname, h⟩ := ForLoop.bind_ok.mp h
  obtain rfl := basename_command_eq (or_exit_eq_ok.mp hname)
  split at h
  · next hloader =>
    split at h
    · next hempty =>
      obtain ⟨lib, hcp, h⟩ := ForLoop.bind_ok.mp h
      obtain rfl := Except.ok.inj h
      left
      exact ⟨hloader, List.isEmpty_iff.mp hempty, or_exit_eq_ok.mp hcp, rfl⟩
    · next hempty =>
      right; left
      refine ⟨hloader, ?_, (Except.ok.inj h).symm⟩
      intro hnil
      exact hempty (by rw [hnil]; rfl)
  · next hloader =>
    obtain ⟨lib, hcp, h⟩ := ForLoop.bind_ok.mp h
    obtain rfl := Except.ok.inj h
    right; right
    exact ⟨by simpa using hloader, or_exit_eq_ok.mp hcp, rfl⟩

/-! ### The loops together -/

/-- A run that comes through: the words of the listing, and the state after
    each loop. -/
theorem copy_files_cases {include_libc : Bool} {lines : List Bytes}
    (h : copy_files fs libc_libs include_libc lines = .ok s') :
    ∃ list s₁, dependency_list fs lines = .ok list ∧
      list.foldlM (copy_dependency fs libc_libs) .initial = .ok s₁ ∧
      (include_libc = true → libc_libs.foldlM (copy_libc fs) s₁ = .ok s' ∧ s'.PKG_LD ≠ []) ∧
      (include_libc = false → s' = s₁) := by
  unfold copy_files at h
  obtain ⟨list, hlist, h⟩ := ForLoop.bind_ok.mp h
  obtain ⟨s₁, hdependencies, h⟩ := ForLoop.bind_ok.mp h
  refine ⟨list, s₁, hlist, hdependencies, ?_⟩
  cases include_libc with
  | false =>
    refine ⟨fun hlibc => absurd hlibc Bool.false_ne_true, ?_⟩
    intro _
    exact (Except.ok.inj h).symm
  | true =>
    refine ⟨?_, fun hlibc => absurd hlibc.symm Bool.false_ne_true⟩
    intro _
    rw [if_pos rfl] at h
    obtain ⟨s₂, hlibc, h⟩ := ForLoop.bind_ok.mp h
    split at h
    · cases h
    · next hloader =>
      obtain rfl := Except.ok.inj h
      refine ⟨hlibc, ?_⟩
      intro hnil
      exact hloader (by rw [hnil]; rfl)

/-- The C library is left out as soon as one argument asks for it. -/
theorem parse_arguments_default_libc {arguments : List Word} :
    (parse_arguments arguments).1 = false ↔
      ascii "-d" ∈ arguments ∨ ascii "--default-libc" ∈ arguments := by
  induction arguments with
  | nil => simp [parse_arguments]
  | cons key rest ih =>
    rw [List.mem_cons, List.mem_cons, or_or_or_comm, ← ih]
    show (if key = ascii "-d" ∨ key = ascii "--default-libc" then (false, (parse_arguments rest).2)
      else ((parse_arguments rest).1, key :: (parse_arguments rest).2)).1 = false ↔ _
    split
    · next hkey =>
      rcases hkey with rfl | rfl
      · simp
      · simp
    · next hkey =>
      rw [not_or] at hkey
      simp [Ne.symm hkey.1, Ne.symm hkey.2]

/-- The package is what the loops left, and the bootstrap is written for the
    loader they found. -/
theorem packager_cases {host : Host} {arguments : List Word} {p : Package}
    (h : packager host arguments = .ok p) :
    ∃ PKG_BIN_PATH lines libc_libs s, host.ldd PKG_BIN_PATH = some lines ∧
      find_libc_libs host = .ok libc_libs ∧
      copy_files host.files libc_libs (parse_arguments arguments).1 lines = .ok s ∧
      p.lib = s.lib ∧
      ((parse_arguments arguments).1 = true →
        p.bootstrap = .script (bootstrap_script s.PKG_LD (basename PKG_BIN_PATH))) := by
  unfold packager at h
  split at h
  · cases h
  · generalize parse_arguments arguments = parsed at h ⊢
    obtain ⟨include_libc, positional⟩ := parsed
    match positional with
    | [] => cases h
    | PKG_BIN_PATH :: _ =>
      dsimp only at h
      split at h
      · cases h
      · split at h
        · cases h
        · obtain ⟨filename, hname, h⟩ := ForLoop.bind_ok.mp h
          obtain ⟨lines, hldd, h⟩ := ForLoop.bind_ok.mp h
          obtain ⟨libc_libs, hlibc, h⟩ := ForLoop.bind_ok.mp h
          obtain ⟨s, hs, h⟩ := ForLoop.bind_ok.mp h
          obtain rfl := basename_command_eq (or_exit_eq_ok.mp hname)
          refine ⟨PKG_BIN_PATH, lines, libc_libs, s, or_exit_eq_ok.mp hldd, hlibc, hs, ?_⟩
          cases include_libc with
          | true =>
            obtain rfl := Except.ok.inj h
            exact ⟨rfl, fun _ => rfl⟩
          | false =>
            obtain rfl := Except.ok.inj h
            exact ⟨rfl, fun hlibc => absurd hlibc Bool.false_ne_true⟩

/-- A run is known by what it says about its result. -/
theorem exists_of_map_eq {α : Type} {run : Except Exit Packaging} {f : Packaging → α} {a : α}
    (h : run.map f = .ok a) : ∃ s, run = .ok s ∧ f s = a := by
  cases run with
  | error e => cases h
  | ok s => exact ⟨s, rfl, Except.ok.inj h⟩

end LambdaCpp
