import LambdaCpp.Packaging.Dependencies
import LambdaCpp.Packaging.Loader

/-! # The Package Directory Across Runs

    `tmp` is made with `mkdir -p` and removed by the last command of the
    script only.  A run that fails, or is stopped, leaves it behind, and the
    next one packages what it finds there.

    A session is one run of the script from `mkdir` on, as far as it came.
    `packaging` is the working directory under one session after the other,
    each on a host of its own; no path that a host knows leads through
    `tmp`.
-/

namespace LambdaCpp

open Bytes (ascii)

/-! ### The script as a list of commands -/

/-- What the script has found out when it makes `tmp`. -/
structure Job where
  host : Host
  include_libc : Bool
  PKG_BIN_PATH : Word
  PKG_BIN_FILENAME : Bytes
  list : List Word
  libc_libs : List Word

/-- The script before `mkdir`. -/
def prepare (host : Host) (arguments : List Word) : Except Exit Job :=
  if arguments.length < 1 then .error .missing_arguments
  else
    let (include_libc, positional) := parse_arguments arguments
    match positional with
    | [] => .error .unbound_variable
    | PKG_BIN_PATH :: _ =>
      if !host.files.is_file PKG_BIN_PATH then .error (.no_such_file PKG_BIN_PATH)
      else if !host.has_zip then .error .no_zip
      else do
        let PKG_BIN_FILENAME ← or_exit (basename_command PKG_BIN_PATH)
        let lines ← or_exit (host.ldd PKG_BIN_PATH)
        let list ← dependency_list host.files lines
        let libc_libs ← find_libc_libs host
        return { host, include_libc, PKG_BIN_PATH, PKG_BIN_FILENAME, list, libc_libs }

theorem prepare_eq_ok {host : Host} {arguments : List Word} {job : Job}
    (h : prepare host arguments = .ok job) :
    job.host = host ∧ job.PKG_BIN_FILENAME = basename job.PKG_BIN_PATH := by
  unfold prepare at h
  split at h
  · cases h
  · dsimp only at h
    split at h
    · cases h
    · split at h
      · cases h
      · split at h
        · cases h
        · obtain ⟨filename, hname, h⟩ := ForLoop.bind_ok.mp h
          obtain ⟨_, -, h⟩ := ForLoop.bind_ok.mp h
          obtain ⟨_, -, h⟩ := ForLoop.bind_ok.mp h
          obtain ⟨_, -, h⟩ := ForLoop.bind_ok.mp h
          obtain rfl := Except.ok.inj h
          exact ⟨rfl, basename_command_eq (or_exit_eq_ok.mp hname)⟩

inductive Command where
  /-- One round of `for i in $list`. -/
  | dependency (i : Word)
  /-- One round of `for i in "${libc_libs[@]}"`. -/
  | libc (i : Word)
  | check_loader
  | cp_binary
  | write_bootstrap
  /-- `zip`, and the `mv` of what it made, in one.  A run killed between the
      two leaves an archive of its own in `tmp`, which is not modelled, and
      neither is a name that begins with a dash, which `zip` takes for
      options. -/
  | zip
  | rm
  deriving DecidableEq

/-- `tmp`, or an archive of it. -/
structure Tree where
  lib : Directory
  bin : Bytes → Option Word
  bootstrap : Option Bootstrap

def Tree.empty : Tree := ⟨Directory.empty, fun _ => none, none⟩

/-- The directory the script is run in. -/
structure Workspace where
  tmp : Tree
  archives : Bytes → Option Tree

structure Shell extends Workspace where
  PKG_LD : Bytes

/-- A run begins without a loader, and with what is in `tmp`. -/
def Workspace.shell (w : Workspace) : Shell := { w with PKG_LD := [] }

def Shell.packaging (sh : Shell) : Packaging := ⟨sh.PKG_LD, sh.tmp.lib⟩

def Shell.repack (sh : Shell) (s : Packaging) : Shell :=
  { sh with PKG_LD := s.PKG_LD, tmp := { sh.tmp with lib := s.lib } }

def Job.archive_name (job : Job) : Bytes := job.PKG_BIN_FILENAME ++ ascii ".zip"

def exec (job : Job) (sh : Shell) : Command → Except Exit Shell
  | .dependency i =>
    (copy_dependency job.host.files job.libc_libs sh.packaging i).map sh.repack
  | .libc i => (copy_libc job.host.files sh.packaging i).map sh.repack
  | .check_loader =>
    if job.include_libc && sh.PKG_LD.isEmpty then .error .no_loader else .ok sh
  | .cp_binary =>
    if job.include_libc then
      .ok { sh with tmp := { sh.tmp with
        bin := Function.update sh.tmp.bin job.PKG_BIN_FILENAME (some job.PKG_BIN_PATH) } }
    else .ok sh
  | .write_bootstrap =>
    let bootstrap : Bootstrap :=
      if job.include_libc then .script (bootstrap_script sh.PKG_LD job.PKG_BIN_FILENAME)
      else .binary job.PKG_BIN_PATH
    .ok { sh with tmp := { sh.tmp with bootstrap := some bootstrap } }
  | .zip => .ok { sh with archives := Function.update sh.archives job.archive_name (some sh.tmp) }
  | .rm => .ok { sh with tmp := Tree.empty }

/-- The two loops. -/
def copy_commands (job : Job) : List Command :=
  job.list.map .dependency ++ if job.include_libc then job.libc_libs.map .libc else []

/-- Everything that comes before `zip`. -/
def stage (job : Job) : List Command :=
  copy_commands job ++ [.check_loader, .cp_binary, .write_bootstrap]

def script (job : Job) : List Command := stage job ++ [.zip, .rm]

/-! ### Sessions -/

/-- A run of the script, and the commands it went through. -/
structure Session where
  job : Job
  done : List Command

/-- **Runs in one directory.**  Each goes through a first part of its
    commands; it then fails or is stopped, unless it was at the end. -/
def packaging : System Workspace Session where
  init := fun w => w = ⟨Tree.empty, fun _ => none⟩
  step := fun w l w' =>
    (∃ host arguments, prepare host arguments = .ok l.job) ∧ l.done <+: script l.job ∧
      ∃ sh, l.done.foldlM (exec l.job) w.shell = .ok sh ∧ w' = sh.toWorkspace

/-! ### The names that commands bring -/

/-- The name that a command copies a file to; `found` says whether a loader
    was found before. -/
def places (job : Job) (found : Bool) : Command → Option Bytes
  | .dependency i => if is_copied job.host.files job.libc_libs i then some (basename i) else none
  | .libc i => if is_loader (basename i) && found then none else some (basename i)
  | _ => none

/-- After the command there is a loader. -/
def finds (job : Job) : Command → Bool
  | .dependency i => is_copied job.host.files job.libc_libs i && is_loader (basename i)
  | .libc i => is_loader (basename i)
  | _ => false

/-- One of the commands copies a file to this name. -/
def Placed (job : Job) (done : List Command) (name : Bytes) : Prop :=
  ∃ pre c post, done = pre ++ c :: post ∧ places job (pre.any (finds job)) c = some name

variable {job : Job} {sh sh' : Shell} {w w' : Workspace} {c : Command} {done : List Command}
  {name : Bytes}

theorem not_placed_nil : ¬ Placed job [] name := by
  rintro ⟨pre, c, post, hsplit, -⟩
  simp at hsplit

theorem placed_concat : Placed job (done ++ [c]) name ↔
    Placed job done name ∨ places job (done.any (finds job)) c = some name := by
  constructor
  · intro h
    obtain ⟨pre, e, post, hsplit, hplaces⟩ := h
    rcases System.append_singleton_eq_iff.mp hsplit with ⟨rfl, rfl, rfl⟩ | ⟨post', rfl, rfl⟩
    · exact Or.inr hplaces
    · exact Or.inl ⟨pre, e, post', rfl, hplaces⟩
  · intro h
    rcases h with ⟨pre, e, post, rfl, hplaces⟩ | hplaces
    · exact ⟨pre, e, post ++ [c], by simp, hplaces⟩
    · exact ⟨done, c, [], rfl, hplaces⟩

/-- What a command but `rm` does to the names in `tmp/lib` and to `PKG_LD`. -/
structure Brings (job : Job) (c : Command) (sh sh' : Shell) : Prop where
  names : ∀ name, (sh'.tmp.lib name).isSome ↔
    (sh.tmp.lib name).isSome ∨ places job (!sh.PKG_LD.isEmpty) c = some name
  loader : sh'.PKG_LD.isEmpty = (sh.PKG_LD.isEmpty && !finds job c)

/-- Copying nothing, and leaving `PKG_LD` alone. -/
theorem brings_nothing (hlib : sh'.tmp.lib = sh.tmp.lib) (hPKG_LD : sh'.PKG_LD = sh.PKG_LD)
    (hplaces : places job (!sh.PKG_LD.isEmpty) c = none)
    (hfinds : finds job c = true → sh.PKG_LD ≠ []) : Brings job c sh sh' where
  names := by
    intro name
    rw [hlib, hplaces]
    simp
  loader := by
    rw [hPKG_LD]
    by_cases hempty : sh.PKG_LD = []
    · have hfinds : finds job c = false := Bool.eq_false_iff.mpr fun h => hfinds h hempty
      rw [hfinds, Bool.not_false, Bool.and_true]
    · simp [hempty]

theorem dependency_brings {i : Word} (h : exec job sh (.dependency i) = .ok sh') :
    Brings job (.dependency i) sh sh' := by
  obtain ⟨s, hround, rfl⟩ := ForLoop.map_ok.mp h
  rcases copy_dependency_cases hround with ⟨hskip, rfl⟩ | ⟨hcopied, hcp, hloader⟩
  · apply brings_nothing rfl rfl
    · simp [places, hskip]
    · simp [finds, hskip]
  · obtain ⟨hne, hcopies⟩ := cp_copies hcp
    constructor
    · intro name
      show (s.lib name).isSome ↔ _
      rw [hcopies.isSome_iff]
      simp [places, hcopied, Shell.packaging]
    · show s.PKG_LD.isEmpty = _
      have hunset : next_loader job.libc_libs sh.packaging.PKG_LD i = [] ↔ _ :=
        next_loader_eq_nil hne
      rw [← hloader] at hunset
      rw [Bool.eq_iff_iff, List.isEmpty_iff, hunset]
      simp [finds, hcopied, Shell.packaging]

theorem libc_brings {i : Word} (h : exec job sh (.libc i) = .ok sh') :
    Brings job (.libc i) sh sh' := by
  obtain ⟨s, hround, rfl⟩ := ForLoop.map_ok.mp h
  rcases copy_libc_cases hround with ⟨hloader, hunset, hcp, hPKG_LD⟩ | ⟨hloader, hset, rfl⟩ |
    ⟨hno, hcp, hPKG_LD⟩
  · -- the first loader
    have hunset : sh.PKG_LD = [] := hunset
    obtain ⟨hne, hcopies⟩ := cp_copies hcp
    constructor
    · intro name
      show (s.lib name).isSome ↔ _
      rw [hcopies.isSome_iff]
      simp [places, hunset, Shell.packaging]
    · show s.PKG_LD.isEmpty = _
      rw [hPKG_LD]
      simp [finds, hloader, basename_ne_nil hne]
  · have hset : sh.PKG_LD ≠ [] := hset
    apply brings_nothing rfl rfl
    · simp [places, hloader, hset]
    · intro _
      exact hset
  · obtain ⟨-, hcopies⟩ := cp_copies hcp
    constructor
    · intro name
      show (s.lib name).isSome ↔ _
      rw [hcopies.isSome_iff]
      simp [places, hno, Shell.packaging]
    · show s.PKG_LD.isEmpty = _
      rw [hPKG_LD]
      simp [finds, hno, Shell.packaging]

theorem exec_brings (hrm : c ≠ .rm) (h : exec job sh c = .ok sh') : Brings job c sh sh' := by
  match c with
  | .dependency i => exact dependency_brings h
  | .libc i => exact libc_brings h
  | .check_loader =>
    simp only [exec] at h
    split at h
    · cases h
    · obtain rfl := Except.ok.inj h
      exact brings_nothing rfl rfl rfl (by simp [finds])
  | .cp_binary =>
    simp only [exec] at h
    split at h
    · obtain rfl := Except.ok.inj h
      exact brings_nothing rfl rfl rfl (by simp [finds])
    · obtain rfl := Except.ok.inj h
      exact brings_nothing rfl rfl rfl (by simp [finds])
  | .write_bootstrap =>
    obtain rfl := Except.ok.inj h
    exact brings_nothing rfl rfl rfl (by simp [finds])
  | .zip =>
    obtain rfl := Except.ok.inj h
    exact brings_nothing rfl rfl rfl (by simp [finds])
  | .rm => exact absurd rfl hrm

/-! ### What a session leaves -/

/-- The names and the loader after the commands `done`, none of them `rm`. -/
structure Left (job : Job) (w : Workspace) (done : List Command) (sh : Shell) : Prop where
  names : ∀ name, (sh.tmp.lib name).isSome ↔ (w.tmp.lib name).isSome ∨ Placed job done name
  loader : sh.PKG_LD.isEmpty = !done.any (finds job)

theorem Left.step (h : Left job w done sh) (hstep : Brings job c sh sh') :
    Left job w (done ++ [c]) sh' where
  names := by
    intro name
    rw [hstep.names, h.names, h.loader, Bool.not_not, placed_concat, or_assoc]
  loader := by
    rw [hstep.loader, h.loader, List.any_append, Bool.not_or]
    simp

theorem left_of_exec (hrm : .rm ∉ done) (h : done.foldlM (exec job) w.shell = .ok sh) :
    Left job w done sh := by
  have hstart : Left job w [] w.shell := by
    constructor
    · intro name
      simp [not_placed_nil, Workspace.shell]
    · rfl
  apply ForLoop.invariant (I := fun done sh => .rm ∉ done → Left job w done sh) _ _ h hrm
  · intro _
    exact hstart
  · intro pre c s₁ s₂ hleft hexec hnot
    rw [List.mem_append, List.mem_singleton, not_or] at hnot
    exact (hleft hnot.1).step (exec_brings (Ne.symm hnot.2) hexec)

theorem not_mem_stage (hzip : c = .zip ∨ c = .rm) : c ∉ stage job := by
  unfold stage copy_commands
  rcases hzip with rfl | rfl <;> split <;> simp

/-- Where a session can have ended. -/
theorem done_cases (h : done <+: script job) :
    done <+: stage job ∨ done = stage job ++ [.zip] ∨ done = script job := by
  have hscript : script job = (stage job ++ [.zip]) ++ [.rm] := by simp [script]
  rw [hscript, List.prefix_concat_iff, List.prefix_concat_iff] at h
  rw [hscript]
  tauto

/-- Only a session that came to its end removed `tmp`. -/
theorem rm_mem_iff (h : done <+: script job) : .rm ∈ done ↔ done = script job := by
  constructor
  · intro hmem
    rcases done_cases h with hstage | rfl | hscript
    · exact absurd (hstage.subset hmem) (not_mem_stage (Or.inr rfl))
    · simp [not_mem_stage] at hmem
    · exact hscript
  · rintro rfl
    simp [script]

theorem done_of_zip_mem (h : done <+: script job) (hzip : .zip ∈ done) :
    done = stage job ++ [.zip] ∨ done = script job := by
  rcases done_cases h with hstage | hdone
  · exact absurd (hstage.subset hzip) (not_mem_stage (Or.inl rfl))
  · exact hdone

/-- A session that came to its end leaves no `tmp` behind. -/
theorem removed (h : (script job).foldlM (exec job) sh = .ok sh') : sh'.tmp = Tree.empty := by
  have hscript : script job = (stage job ++ [.zip]) ++ [.rm] := by simp [script]
  rw [hscript] at h
  obtain ⟨s, -, hrm⟩ := ForLoop.append_ok.mp h
  obtain ⟨s', hexec, hend⟩ := ForLoop.bind_ok.mp hrm
  obtain rfl := Except.ok.inj hexec
  obtain rfl := Except.ok.inj hend
  rfl

/-- `name` was copied in some session, and `tmp` was not removed since. -/
def LeftBehind (tr : List Session) (name : Bytes) : Prop :=
  System.Since (fun l => .rm ∈ l.done) (fun l => Placed l.job l.done name) tr

/-- **What is in `tmp/lib`** after any history. -/
theorem left_behind_iff {tr : List Session} (h : packaging.Run tr w) (name : Bytes) :
    (w.tmp.lib name).isSome ↔ LeftBehind tr name := by
  induction h with
  | init hw =>
    obtain rfl := hw
    exact iff_of_false Bool.false_ne_true System.not_since_nil
  | @step tr w l w' _ hstep ih =>
    obtain ⟨-, hfirst, sh, hdone, rfl⟩ := hstep
    unfold LeftBehind at ih ⊢
    rw [System.since_concat, ← ih]
    by_cases hrm : .rm ∈ l.done
    · -- everything is gone
      obtain hscript := (rm_mem_iff hfirst).mp hrm
      rw [hscript] at hdone
      rw [removed hdone]
      simp [hrm, Tree.empty, Directory.empty]
    · rw [(left_of_exec hrm hdone).names]
      simp [hrm]

/-! ### The archive of a session -/

theorem placed_dependencies {list : List Word} : Placed job (list.map .dependency) name ↔
    ∃ i ∈ list, is_copied job.host.files job.libc_libs i = true ∧ basename i = name := by
  induction list using List.reverseRecOn with
  | nil => simp [not_placed_nil]
  | append_singleton list i ih =>
    rw [List.map_append, List.map_singleton, placed_concat, ih, ForLoop.exists_mem_concat]
    simp [places]

theorem finds_dependencies {list : List Word} : (list.map .dependency).any (finds job) = false ↔
    ∀ i ∈ list, is_copied job.host.files job.libc_libs i = true →
      is_loader (basename i) = false := by
  rw [List.any_eq_false]
  simp [finds]

/-- Some commands, and then the second loop. -/
theorem placed_libc {libc_libs : List Word} :
    Placed job (done ++ libc_libs.map .libc) name ↔ Placed job done name ∨
      (∃ i ∈ libc_libs, is_loader (basename i) = false ∧ basename i = name) ∨
      (done.any (finds job) = false ∧ ∃ i, first_loader libc_libs = some i ∧ basename i = name) := by
  induction libc_libs using List.reverseRecOn with
  | nil => simp [first_loader]
  | append_singleton pre i ih =>
    have hfound : (done ++ pre.map Command.libc).any (finds job) =
        (done.any (finds job) || (first_loader pre).isSome) := by
      rw [List.any_append, Bool.eq_iff_iff]
      simp [first_loader, finds]
    rw [List.map_append, List.map_singleton, ← List.append_assoc, placed_concat, ih, hfound,
      first_loader_concat, ForLoop.exists_mem_concat]
    by_cases hloader : is_loader (basename i) = true
    · -- only the first loader is copied
      rcases first_loader pre with _ | j
      · simp [places, hloader, or_assoc]
      · simp [places, hloader]
    · have hno : is_loader (basename i) = false := Bool.eq_false_iff.mpr hloader
      simp only [places, hno, Bool.false_and, Bool.false_eq_true, if_false, Option.or_none,
        Option.some.injEq, true_and]
      rw [or_assoc, or_assoc, or_assoc, or_comm (a := _ ∧ _)]

/-- Something brings a file of this name into a package that is made in an
    empty directory. -/
def Brought (job : Job) (name : Bytes) : Prop :=
  if job.include_libc then Provided job.host.files job.libc_libs job.list name
  else ∃ i ∈ job.list, is_copied job.host.files job.libc_libs i = true ∧ basename i = name

/-- What `Provided` says, loop by loop. -/
theorem provided_iff {fs : FileSystem} {libc_libs list : List Word} :
    Provided fs libc_libs list name ↔
      (∃ i ∈ list, is_copied fs libc_libs i = true ∧ basename i = name) ∨
      (∃ i ∈ libc_libs, is_loader (basename i) = false ∧ basename i = name) ∨
      ((∀ j ∈ list, is_copied fs libc_libs j = true → is_loader (basename j) = false) ∧
        ∃ i, first_loader libc_libs = some i ∧ basename i = name) := by
  simp only [is_copied_and_loader]
  constructor
  · intro hprovided
    cases hprovided with
    | @listed i hi hfile hname =>
      rcases copied_or_libc hfile with hcopied | ⟨hlibc, hno⟩
      · exact Or.inl ⟨i, hi, hcopied, hname⟩
      · exact Or.inr (Or.inl ⟨i, hlibc, hno, hname⟩)
    | libc hi hno hname => exact Or.inr (Or.inl ⟨_, hi, hno, hname⟩)
    | loader hnone hfirst hname => exact Or.inr (Or.inr ⟨hnone, _, hfirst, hname⟩)
  · intro h
    rcases h with ⟨i, hi, hcopied, hname⟩ | ⟨i, hi, hno, hname⟩ | ⟨hnone, i, hfirst, hname⟩
    · unfold is_copied at hcopied
      exact .listed hi (Bool.and_eq_true_iff.mp hcopied).1 hname
    · exact .libc hi hno hname
    · exact .loader hnone hfirst hname

/-- The two loops copy exactly what is to be brought. -/
theorem placed_stage : Placed job (stage job) name ↔ Brought job name := by
  have hcopies : Placed job (stage job) name ↔ Placed job (copy_commands job) name := by
    have hstage : stage job =
        ((copy_commands job ++ [.check_loader]) ++ [.cp_binary]) ++ [.write_bootstrap] := by
      simp [stage]
    rw [hstage, placed_concat, placed_concat, placed_concat]
    simp [places]
  rw [hcopies]
  unfold copy_commands Brought
  split
  · rw [provided_iff, placed_libc, placed_dependencies, finds_dependencies]
  · rw [List.append_nil, placed_dependencies]

/-- The shell when the archive is made. -/
theorem staged_of_zip_mem (h : done.foldlM (exec job) w.shell = .ok sh)
    (hfirst : done <+: script job) (hzip : .zip ∈ done) :
    ∃ staged, (stage job).foldlM (exec job) w.shell = .ok staged ∧
      sh.archives = Function.update staged.archives job.archive_name (some staged.tmp) := by
  have hscript : script job = (stage job ++ [.zip]) ++ [.rm] := by simp [script]
  have hzipped : ∀ {zipped}, (stage job ++ [Command.zip]).foldlM (exec job) w.shell = .ok zipped →
      ∃ staged, (stage job).foldlM (exec job) w.shell = .ok staged ∧
        zipped.archives = Function.update staged.archives job.archive_name (some staged.tmp) := by
    intro zipped hzipped
    obtain ⟨staged, hstaged, hexec⟩ := ForLoop.append_ok.mp hzipped
    obtain ⟨s, hs, hend⟩ := ForLoop.bind_ok.mp hexec
    obtain rfl := Except.ok.inj hs
    obtain rfl := Except.ok.inj hend
    exact ⟨staged, hstaged, rfl⟩
  rcases done_of_zip_mem hfirst hzip with rfl | rfl
  · exact hzipped h
  · -- removing `tmp` leaves the archive alone
    rw [hscript] at h
    obtain ⟨zipped, hrun, hrm⟩ := ForLoop.append_ok.mp h
    obtain ⟨s, hs, hend⟩ := ForLoop.bind_ok.mp hrm
    obtain rfl := Except.ok.inj hs
    obtain rfl := Except.ok.inj hend
    have hstaged := hzipped hrun
    exact hstaged

/-- **The names of an archive**, after any history: what the session that
    made it brings, and everything that was left behind. -/
theorem archive_names {tr : List Session} {l : Session} (h : packaging.Run (tr ++ [l]) w)
    (hzip : .zip ∈ l.done) :
    ∃ archive, w.archives l.job.archive_name = some archive ∧
      ∀ name, (archive.lib name).isSome ↔ Brought l.job name ∨ LeftBehind tr name := by
  obtain ⟨w₁, hrun, -, hfirst, sh, hdone, rfl⟩ := System.run_concat.mp h
  obtain ⟨staged, hstaged, harchives⟩ := staged_of_zip_mem hdone hfirst hzip
  refine ⟨staged.tmp, ?_, ?_⟩
  · rw [harchives, Function.update_self]
  · intro name
    rw [(left_of_exec (not_mem_stage (Or.inr rfl)) hstaged).names, left_behind_iff hrun,
      placed_stage, or_comm]

/-- A Debian host, and a binary that needs the C library only. -/
def debian : Host where
  files := .small [(ascii "/lib64/ld-linux-x86-64.so.2", 1), (ascii "/lib/libc.so.6", 2),
    (ascii "app", 3)] []
  has_zip := true
  ldd := fun _ => some [ascii "\tlibc.so.6 => /lib/libc.so.6 (0x7f2)",
    ascii "\t/lib64/ld-linux-x86-64.so.2 (0x7f1)"]
  is_alpine := false
  is_arch := false
  apk := .absent
  pacman := .absent
  dpkg_query := .prints [ascii "/lib64/ld-linux-x86-64.so.2", ascii "/lib/libc.so.6"]
  rpm := .absent

def debian_job (include_libc : Bool) : Job where
  host := debian
  include_libc := include_libc
  PKG_BIN_PATH := ascii "app"
  PKG_BIN_FILENAME := ascii "app"
  list := [ascii "/lib/libc.so.6", ascii "/lib64/ld-linux-x86-64.so.2"]
  libc_libs := [ascii "/lib64/ld-linux-x86-64.so.2", ascii "/lib/libc.so.6"]

/-- What a job says beside its host. -/
def Job.words (job : Job) : Bool × List (List Word) :=
  (job.include_libc, [[job.PKG_BIN_PATH, job.PKG_BIN_FILENAME], job.list, job.libc_libs])

theorem prepare_of_words {host : Host} {arguments : List Word} (hhost : job.host = host)
    (h : (prepare host arguments).map Job.words = .ok job.words) :
    prepare host arguments = .ok job := by
  obtain ⟨job', hprepare, hwords⟩ := ForLoop.map_ok.mp h
  obtain ⟨hhost', -⟩ := prepare_eq_ok hprepare
  obtain ⟨host₁, include_libc, path, filename, list, libc_libs⟩ := job
  obtain ⟨host₂, include_libc', path', filename', list', libc_libs'⟩ := job'
  simp only [Job.words, Prod.mk.injEq, List.cons.injEq, and_true] at hwords
  obtain ⟨rfl, ⟨rfl, rfl⟩, rfl, rfl⟩ := hwords
  obtain rfl : host₁ = host := hhost
  obtain rfl : host₂ = host₁ := hhost'
  exact hprepare

theorem prepare_debian : prepare debian [ascii "app"] = .ok (debian_job true) ∧
    prepare debian [ascii "-d", ascii "app"] = .ok (debian_job false) := by
  have hhost : ∀ include_libc, (debian_job include_libc).host = debian := fun _ => rfl
  constructor
  · apply prepare_of_words (hhost true)
    decide +kernel
  · apply prepare_of_words (hhost false)
    decide +kernel

/-- A run that is stopped in the second loop. -/
def stopped_session : Session := ⟨debian_job true, (script (debian_job true)).take 4⟩

def default_libc_session : Session := ⟨debian_job false, script (debian_job false)⟩

theorem debian_history : ∃ w, packaging.Run ([stopped_session] ++ [default_libc_session]) w := by
  have hruns : ((stopped_session.done.foldlM (exec stopped_session.job)
      (Workspace.shell ⟨Tree.empty, fun _ => none⟩) >>= fun sh =>
        default_libc_session.done.foldlM (exec default_libc_session.job) sh.shell).map
          Shell.PKG_LD) = .ok (ascii "ld-linux-x86-64.so.2") := by decide +kernel
  obtain ⟨sh', hruns, -⟩ := ForLoop.map_ok.mp hruns
  obtain ⟨sh, hstopped, hdefault⟩ := ForLoop.bind_ok.mp hruns
  have hfirst : packaging.Run [stopped_session] sh.toWorkspace :=
    System.Run.step (System.Run.init rfl)
      ⟨⟨debian, _, prepare_debian.1⟩, List.take_prefix _ _, sh, hstopped, rfl⟩
  exact ⟨sh'.toWorkspace, System.Run.step hfirst
    ⟨⟨debian, _, prepare_debian.2⟩, List.prefix_rfl, sh', hdefault, rfl⟩⟩

/-- The C library is in an archive that was made with `--default-libc`. -/
theorem archive_names_stopped :
    ∃ w archive, packaging.Run ([stopped_session] ++ [default_libc_session]) w ∧
      w.archives (ascii "app.zip") = some archive ∧ (archive.lib (ascii "libc.so.6")).isSome ∧
      ¬ Brought default_libc_session.job (ascii "libc.so.6") := by
  obtain ⟨w, hrun⟩ := debian_history
  obtain ⟨archive, harchive, hnames⟩ := archive_names hrun (by decide +kernel)
  have hleft : LeftBehind [stopped_session] (ascii "libc.so.6") := by
    refine ⟨[], stopped_session, [], rfl, ?_, ?_⟩
    · exact ⟨stopped_session.done.take 3, .libc (ascii "/lib/libc.so.6"), [], by decide +kernel,
        by decide +kernel⟩
    · intro m hm
      obtain rfl := List.mem_singleton.mp hm
      decide +kernel
  refine ⟨w, archive, hrun, harchive, (hnames _).mpr (Or.inr hleft), ?_⟩
  rintro ⟨i, hi, hcopied, hname⟩
  have hnone : ∀ i ∈ (debian_job false).list,
      is_copied debian.files (debian_job false).libc_libs i = true →
        basename i ≠ ascii "libc.so.6" := by decide +kernel
  exact hnone i hi hcopied hname

end LambdaCpp
