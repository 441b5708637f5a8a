import LambdaCpp.Packaging.Bootstrap
import LambdaCpp.Packaging.Sessions

/-! # The Archives

    What holds of every archive that a history of runs has made, whatever
    was left in `tmp` when it was made: its parts are there
    (`Startable`), and which of the archives can be started
    (`archives_start`).

    A run that finds nothing there makes the package of `packager`, or fails
    as it does: `run_after_complete`.
-/

namespace LambdaCpp

open Bytes (ascii)

variable {job : Job} {sh sh' : Shell} {w w' : Workspace} {c : Command} {done : List Command}
  {name : Bytes}

/-! ### The loader of every archive -/

/-- No link has a loader's name. -/
def NoLoaderLink (lib : Directory) : Prop :=
  ∀ name, LoaderName name → ∀ target, lib name ≠ some (.symlink target)

def IsCopy (lib : Directory) (name : Bytes) : Prop :=
  ∃ source followed, lib name = some (.regular source followed)

section copies
variable {fs : FileSystem} {lib lib' : Directory} {dereference : Bool} {i : Word}

theorem IsCopy.update {m : Bytes} {source : Nat} {followed : Bool} (h : IsCopy lib name) :
    IsCopy (Function.update lib m (some (.regular source followed))) name := by
  by_cases hname : name = m
  · subst hname
    exact ⟨source, followed, Function.update_self ..⟩
  · obtain ⟨source', followed', hentry⟩ := h
    exact ⟨source', followed', by rw [Function.update_of_ne hname]; exact hentry⟩

/-- A file that is copied with links followed, or under no loader's name,
    makes no link of a loader's name, and leaves copies of loaders copies. -/
theorem Copies.keeps_loaders (h : Copies fs dereference i lib lib')
    (hname : dereference = true ∨ ¬ LoaderName (basename i)) (hlink : NoLoaderLink lib) :
    NoLoaderLink lib' ∧ ∀ name, LoaderName name → IsCopy lib name → IsCopy lib' name := by
  cases h with
  | link hfalse _ =>
    have hno : ¬ LoaderName (basename i) := by
      rcases hname with htrue | hno
      · exact absurd (htrue.symm.trans hfalse) Bool.false_ne_true.symm
      · exact hno
    have hother : ∀ {name}, LoaderName name → name ≠ basename i := by
      rintro name hloader rfl
      exact hno hloader
    constructor
    · intro name hloader target
      rw [Function.update_of_ne (hother hloader)]
      exact hlink name hloader target
    · intro name hloader hcopy
      unfold IsCopy
      rw [Function.update_of_ne (hother hloader)]
      exact hcopy
  | written =>
    exact ⟨fun name hloader target hentry => hlink name hloader target (link_of_update hentry),
      fun _ _ hcopy => hcopy.update⟩
  | through =>
    exact ⟨fun name hloader target hentry => hlink name hloader target (link_of_update hentry),
      fun _ _ hcopy => hcopy.update⟩
  | away => exact ⟨hlink, fun _ _ hcopy => hcopy⟩

/-- A loader that is copied is there afterwards. -/
theorem Copies.loader (h : Copies fs true i lib lib') (hlink : NoLoaderLink lib)
    (hloader : LoaderName (basename i)) : IsCopy lib' (basename i) := by
  cases h with
  | link hfalse => cases hfalse
  | written => exact ⟨_, _, Function.update_self ..⟩
  | through _ _ hentry => exact absurd hentry (hlink _ hloader _)
  | away hentry => exact absurd hentry (hlink _ hloader _)

end copies

/-- `PKG_LD` names a copy in `tmp/lib` once it is set, whatever was there
    before. -/
structure LoaderReady (sh : Shell) : Prop where
  no_link : NoLoaderLink sh.tmp.lib
  ready : sh.PKG_LD ≠ [] → LoaderName sh.PKG_LD ∧ IsCopy sh.tmp.lib sh.PKG_LD

theorem LoaderReady.dependency {i : Word} (h : LoaderReady sh)
    (hexec : exec job sh (.dependency i) = .ok sh') : LoaderReady sh' := by
  obtain ⟨s, hround, rfl⟩ := ForLoop.map_ok.mp hexec
  rcases copy_dependency_cases hround with ⟨-, rfl⟩ | ⟨-, hcp, hloader⟩
  · exact h
  · obtain ⟨hne, hcopies⟩ := cp_copies hcp
    obtain ⟨hlink, hkept⟩ := hcopies.keeps_loaders (Or.inl rfl) h.no_link
    refine ⟨hlink, ?_⟩
    show s.PKG_LD ≠ [] → LoaderName s.PKG_LD ∧ IsCopy s.lib s.PKG_LD
    rw [hloader]
    intro hset
    unfold next_loader at hset ⊢
    split
    · next htakes =>
      have hname : LoaderName (basename i) :=
        (is_loader_basename_iff hne).mp (Bool.and_eq_true_iff.mp htakes).1
      exact ⟨hname, hcopies.loader h.no_link hname⟩
    · next hstays =>
      rw [if_neg hstays] at hset
      obtain ⟨hname, hcopy⟩ := h.ready hset
      exact ⟨hname, hkept _ hname hcopy⟩

theorem LoaderReady.libc {i : Word} (h : LoaderReady sh)
    (hexec : exec job sh (.libc i) = .ok sh') : LoaderReady sh' := by
  obtain ⟨s, hround, rfl⟩ := ForLoop.map_ok.mp hexec
  rcases copy_libc_cases hround with ⟨hloader, -, hcp, hPKG_LD⟩ | ⟨-, -, rfl⟩ | ⟨hno, hcp, hPKG_LD⟩
  · obtain ⟨hne, hcopies⟩ := cp_copies hcp
    obtain ⟨hlink, -⟩ := hcopies.keeps_loaders (Or.inl rfl) h.no_link
    have hname := (is_loader_basename_iff hne).mp hloader
    refine ⟨hlink, ?_⟩
    intro _
    show LoaderName s.PKG_LD ∧ IsCopy s.lib s.PKG_LD
    rw [hPKG_LD]
    exact ⟨hname, hcopies.loader h.no_link hname⟩
  · exact h
  · obtain ⟨hne, hcopies⟩ := cp_copies hcp
    have hname : ¬ LoaderName (basename i) := by
      intro hname
      rw [(is_loader_basename_iff hne).mpr hname] at hno
      cases hno
    obtain ⟨hlink, hkept⟩ := hcopies.keeps_loaders (Or.inr hname) h.no_link
    refine ⟨hlink, ?_⟩
    show s.PKG_LD ≠ [] → LoaderName s.PKG_LD ∧ IsCopy s.lib s.PKG_LD
    rw [hPKG_LD]
    intro hset
    obtain ⟨hname, hcopy⟩ := h.ready hset
    exact ⟨hname, hkept _ hname hcopy⟩

theorem LoaderReady.exec (h : LoaderReady sh) (hexec : exec job sh c = .ok sh') (hrm : c ≠ .rm) :
    LoaderReady sh' := by
  match c with
  | .dependency i => exact h.dependency hexec
  | .libc i => exact h.libc hexec
  | .check_loader =>
    simp only [LambdaCpp.exec] at hexec
    split at hexec
    · cases hexec
    · obtain rfl := Except.ok.inj hexec
      exact h
  | .cp_binary =>
    simp only [LambdaCpp.exec] at hexec
    split at hexec
    · obtain rfl := Except.ok.inj hexec
      exact ⟨h.no_link, h.ready⟩
    · obtain rfl := Except.ok.inj hexec
      exact h
  | .write_bootstrap =>
    obtain rfl := Except.ok.inj hexec
    exact ⟨h.no_link, h.ready⟩
  | .zip =>
    obtain rfl := Except.ok.inj hexec
    exact ⟨h.no_link, h.ready⟩
  | .rm => exact absurd rfl hrm

/-! ### The end of the staging -/

/-- What is written after the loops. -/
def finish (job : Job) (sh : Shell) : Shell :=
  { sh with tmp :=
    { lib := sh.tmp.lib
      bin := if job.include_libc then
          Function.update sh.tmp.bin job.PKG_BIN_FILENAME (some job.PKG_BIN_PATH)
        else sh.tmp.bin
      bootstrap := some (if job.include_libc then
          .script (bootstrap_script sh.PKG_LD job.PKG_BIN_FILENAME)
        else .binary job.PKG_BIN_PATH) } }

/-- The check for the loader, and then `finish`. -/
def check_and_finish (job : Job) (sh : Shell) : Except Exit Shell :=
  if job.include_libc && sh.PKG_LD.isEmpty then .error .no_loader else .ok (finish job sh)

theorem stage_eq (sh : Shell) : (stage job).foldlM (exec job) sh =
    (copy_commands job).foldlM (exec job) sh >>= check_and_finish job := by
  unfold stage
  rw [List.foldlM_append]
  apply bind_congr
  intro copied
  show (exec job copied .check_loader >>= fun sh => exec job sh .cp_binary >>= fun sh =>
    exec job sh .write_bootstrap >>= fun sh => .ok sh) = _
  unfold check_and_finish finish
  simp only [exec]
  by_cases hlibc : job.include_libc = true
  · by_cases hempty : copied.PKG_LD.isEmpty = true
    · rw [if_pos (by simp [hlibc, hempty]), if_pos (by simp [hlibc, hempty])]
      rfl
    · rw [if_neg (by simp [hempty]), if_neg (by simp [hempty])]
      simp only [hlibc, if_true]
      rfl
  · rw [if_neg (by simp [hlibc]), if_neg (by simp [hlibc])]
    simp only [hlibc]
    rfl

/-- An archive that has its parts: the bootstrap is the binary, or written
    for a packaged loader and a packaged binary. -/
inductive Assembled (archive_name : Bytes) (archive : Tree) : Prop where
  | binary {path : Word} : archive_name = basename path ++ ascii ".zip" →
      archive.bootstrap = some (.binary path) → Assembled archive_name archive
  | loader {path : Word} {PKG_LD : Bytes} : archive_name = basename path ++ ascii ".zip" →
      archive.bootstrap = some (.script (bootstrap_script PKG_LD (basename path))) →
      LoaderName PKG_LD → IsCopy archive.lib PKG_LD →
      archive.bin (basename path) = some path → Assembled archive_name archive

theorem assembled_of_staged (hfilename : job.PKG_BIN_FILENAME = basename job.PKG_BIN_PATH)
    (hready : LoaderReady sh) (h : check_and_finish job sh = .ok sh') :
    Assembled job.archive_name sh'.tmp := by
  unfold check_and_finish at h
  split at h
  · cases h
  · next hchecked =>
    obtain rfl := Except.ok.inj h
    have hname : job.archive_name = basename job.PKG_BIN_PATH ++ ascii ".zip" := by
      rw [← hfilename]
      rfl
    by_cases hlibc : job.include_libc = true
    · have hset : sh.PKG_LD ≠ [] := by
        intro hnil
        simp [hlibc, hnil] at hchecked
      obtain ⟨hloader, hcopy⟩ := hready.ready hset
      refine @Assembled.loader _ _ job.PKG_BIN_PATH sh.PKG_LD hname ?_ hloader hcopy ?_
      · simp [finish, hlibc, hfilename]
      · simp [finish, hlibc, hfilename]
    · refine @Assembled.binary _ _ job.PKG_BIN_PATH hname ?_
      simp [finish, hlibc]

/-! ### Every archive -/

theorem exec_archives (h : exec job sh c = .ok sh') (hzip : c ≠ .zip) :
    sh'.archives = sh.archives := by
  match c with
  | .dependency i | .libc i =>
    obtain ⟨s, -, rfl⟩ := ForLoop.map_ok.mp h
    rfl
  | .check_loader =>
    simp only [exec] at h
    split at h
    · cases h
    · cases h
      rfl
  | .cp_binary =>
    simp only [exec] at h
    split at h
    · cases h
      rfl
    · cases h
      rfl
  | .write_bootstrap | .rm =>
    cases h
    rfl
  | .zip => exact absurd rfl hzip

theorem archives_kept (hzip : .zip ∉ done) (h : done.foldlM (exec job) sh = .ok sh') :
    sh'.archives = sh.archives := by
  apply ForLoop.invariant (I := fun done s => .zip ∉ done → s.archives = sh.archives) _ _ h hzip
  · intro _
    rfl
  · intro pre c s₁ s₂ hkept hexec hnot
    rw [List.mem_append, List.mem_singleton, not_or] at hnot
    rw [exec_archives hexec (Ne.symm hnot.2)]
    exact hkept hnot.1

theorem ready_of_exec (hrm : .rm ∉ done) (hlink : NoLoaderLink w.tmp.lib)
    (h : done.foldlM (exec job) w.shell = .ok sh) : LoaderReady sh := by
  apply ForLoop.invariant (I := fun done s => .rm ∉ done → LoaderReady s) _ _ h hrm
  · intro _
    refine ⟨hlink, ?_⟩
    intro hset
    exact absurd rfl hset
  · intro pre c s₁ s₂ hready hexec hnot
    rw [List.mem_append, List.mem_singleton, not_or] at hnot
    exact (hready hnot.1).exec hexec (Ne.symm hnot.2)

/-- Links of the C library may be left behind, but none that takes the place
    of a loader. -/
structure Startable (w : Workspace) : Prop where
  no_link : NoLoaderLink w.tmp.lib
  assembled : ∀ archive_name archive, w.archives archive_name = some archive →
    Assembled archive_name archive

theorem Startable.session {l : Session} (h : Startable w) (hstep : packaging.step w l w') : Startable w' := by
  obtain ⟨⟨host, arguments, hprepare⟩, hfirst, sh, hdone, rfl⟩ := hstep
  constructor
  · show NoLoaderLink sh.tmp.lib
    by_cases hrm : .rm ∈ l.done
    · rw [(rm_mem_iff hfirst).mp hrm] at hdone
      rw [removed hdone]
      intro name _ target hentry
      cases hentry
    · exact (ready_of_exec hrm h.no_link hdone).no_link
  · show ∀ archive_name archive, sh.archives archive_name = some archive → _
    by_cases hzip : .zip ∈ l.done
    · obtain ⟨staged, hstaged, harchives⟩ := staged_of_zip_mem hdone hfirst hzip
      have hkept : staged.archives = w.archives :=
        archives_kept (not_mem_stage (Or.inl rfl)) hstaged
      rw [stage_eq] at hstaged
      obtain ⟨copied, hcopied, hfinish⟩ := ForLoop.bind_ok.mp hstaged
      have hnot : .rm ∉ copy_commands l.job := by
        intro hmem
        exact not_mem_stage (Or.inr rfl) (List.mem_append_left _ hmem)
      have hready := ready_of_exec hnot h.no_link hcopied
      intro archive_name archive hentry
      rw [harchives, hkept] at hentry
      by_cases hname : archive_name = l.job.archive_name
      · -- the archive of this session
        subst hname
        rw [Function.update_self] at hentry
        obtain rfl := Option.some.inj hentry
        exact assembled_of_staged (prepare_eq_ok hprepare).2 hready hfinish
      · rw [Function.update_of_ne hname] at hentry
        exact h.assembled _ _ hentry
    · rw [archives_kept hzip hdone]
      exact h.assembled

theorem startable_of_run {tr : List Session} (h : packaging.Run tr w) : Startable w := by
  apply System.Run.invariant (I := fun _ w => Startable w) _ _ h
  · intro s hs
    obtain rfl := hs
    constructor
    · intro name _ target hentry
      cases hentry
    · intro archive_name archive hentry
      cases hentry
  · intro tr s l s' hs hstep
    exact hs.session hstep

/-- An archive whose bootstrap starts the binary: it is the binary, or what
    the shell makes of it starts a packaged loader on the packaged binary. -/
inductive Starts (archive_name : Bytes) (archive : Tree) : Prop where
  | binary {path : Word} : archive_name = basename path ++ ascii ".zip" →
      archive.bootstrap = some (.binary path) → Starts archive_name archive
  | loader {path : Word} {PKG_LD text : Bytes} : archive_name = basename path ++ ascii ".zip" →
      archive.bootstrap = some (.script text) → LoaderName PKG_LD → IsCopy archive.lib PKG_LD →
      archive.bin (basename path) = some path → Launches text PKG_LD (basename path) →
      Starts archive_name archive

/-- Everything the session copies has an ordinary name. -/
theorem debian_names : ∀ c ∈ stage (debian_job true), ∀ found,
    ∀ name ∈ (places (debian_job true) found c).toList, ∀ b ∈ name, is_ordinary b := by
  decide +kernel

/-- The two loops, from whatever `tmp/lib` and `PKG_LD` are. -/
def copy_rounds (job : Job) (s : Packaging) : Except Exit Packaging := do
  let s ← job.list.foldlM (copy_dependency job.host.files job.libc_libs) s
  if job.include_libc then job.libc_libs.foldlM (copy_libc job.host.files) s
  else return s

theorem copy_commands_eq (sh : Shell) :
    (copy_commands job).foldlM (exec job) sh = (copy_rounds job sh.packaging).map sh.repack := by
  have hloop : ∀ {f : Packaging → Word → Except Exit Packaging} {k : Word → Command},
      (∀ sh i, exec job sh (k i) = (f sh.packaging i).map sh.repack) →
      ∀ (list : List Word) sh, (list.map k).foldlM (exec job) sh = (list.foldlM f sh.packaging).map sh.repack := by
    intro f k hround list sh
    exact ForLoop.component Shell.packaging Shell.repack (fun _ _ => rfl) (fun _ _ _ => rfl)
      (fun _ => rfl) hround list sh
  unfold copy_commands copy_rounds
  rw [List.foldlM_append, hloop (fun _ _ => rfl)]
  match job.list.foldlM (copy_dependency job.host.files job.libc_libs) sh.packaging with
  | .error e => rfl
  | .ok s =>
    show List.foldlM (exec job) (sh.repack s) _ = _
    by_cases hlibc : job.include_libc = true
    · rw [if_pos hlibc, hloop (fun _ _ => rfl)]
      show _ = (if job.include_libc = true then _ else _ : Except Exit Packaging).map _
      rw [if_pos hlibc]
      rfl
    · rw [if_neg hlibc]
      show _ = (if job.include_libc = true then _ else _ : Except Exit Packaging).map _
      rw [if_neg hlibc]
      rfl

/-- The package that the loops end in. -/
def Job.package (job : Job) (s : Packaging) : Package where
  lib := s.lib
  bin := if job.include_libc then some job.PKG_BIN_PATH else none
  bootstrap :=
    if job.include_libc then .script (bootstrap_script s.PKG_LD job.PKG_BIN_FILENAME)
    else .binary job.PKG_BIN_PATH

def Job.build (job : Job) : Except Exit Package := do
  let s ← copy_rounds job .initial
  if job.include_libc && s.PKG_LD.isEmpty then .error .no_loader
  else return job.package s

theorem or_exit_error {α : Type} {result : Option α} {e : Exit} (h : or_exit result = .error e) :
    e = .command_failed := by
  cases result with
  | none => exact (Except.error.inj h).symm
  | some a => cases h

theorem dependency_list_error {fs : FileSystem} {lines : List Bytes} {e : Exit}
    (h : dependency_list fs lines = .error e) : e = .command_failed := by
  rcases ForLoop.bind_error.mp h with hfields | ⟨_, -, h⟩
  · exact or_exit_error hfields
  · cases h

theorem find_libc_libs_error {host : Host} {e : Exit} (h : find_libc_libs host = .error e) :
    e = .command_failed := by
  rcases ForLoop.bind_error.mp h with hdpkg | ⟨_, -, h⟩
  · exact or_exit_error hdpkg
  · rcases ForLoop.bind_error.mp h with hrpm | ⟨_, -, h⟩
    · exact or_exit_error hrpm
    · rcases ForLoop.bind_error.mp h with hpacman | ⟨_, -, h⟩
      · exact or_exit_error hpacman
      · rcases ForLoop.bind_error.mp h with halpine | ⟨_, -, h⟩
        · exact or_exit_error halpine
        · cases h

theorem build_eq {lines : List Bytes}
    (hlist : dependency_list job.host.files lines = .ok job.list) :
    job.build = copy_files job.host.files job.libc_libs job.include_libc lines >>= fun s =>
      .ok (job.package s) := by
  unfold copy_files Job.build copy_rounds
  rw [hlist]
  show (List.foldlM _ _ _ >>= _) >>= _ = (List.foldlM _ _ _ >>= _) >>= _
  rw [bind_assoc, bind_assoc]
  apply bind_congr
  intro s
  by_cases hlibc : job.include_libc = true
  · rw [if_pos hlibc, if_pos hlibc, bind_assoc]
    apply bind_congr
    intro s
    rw [hlibc, Bool.true_and]
    -- the check for the loader
    by_cases hempty : s.PKG_LD.isEmpty = true
    · rw [if_pos hempty, if_pos hempty]
      rfl
    · rw [if_neg hempty, if_neg hempty]
      rfl
  · have hlibc : job.include_libc = false := Bool.eq_false_iff.mpr hlibc
    rw [hlibc]
    rfl

/-- **The whole script** is its first part, and then the loops. -/
theorem packager_eq (host : Host) (arguments : List Word) :
    packager host arguments = prepare host arguments >>= Job.build := by
  unfold packager prepare
  by_cases hlength : arguments.length < 1
  · rw [if_pos hlength, if_pos hlength]
    rfl
  · rw [if_neg hlength, if_neg hlength]
    generalize parse_arguments arguments = parsed
    obtain ⟨include_libc, positional⟩ := parsed
    match positional with
    | [] => rfl
    | PKG_BIN_PATH :: _ =>
      dsimp only
      split
      · rfl
      · split
        · rfl
        · match basename_command PKG_BIN_PATH, host.ldd PKG_BIN_PATH with
          | none, _ => rfl
          | some _, none => rfl
          | some PKG_BIN_FILENAME, some lines =>
            show (find_libc_libs host >>= fun libc_libs =>
                copy_files host.files libc_libs include_libc lines >>= fun s => _) =
              ((dependency_list host.files lines >>= fun list =>
                find_libc_libs host >>= fun libc_libs => _) >>= Job.build)
            -- the listing is looked at before the C library, or after it
            match hlist : dependency_list host.files lines, hlibc : find_libc_libs host with
            | .error e, .error e' =>
              rw [dependency_list_error hlist, find_libc_libs_error hlibc]
              rfl
            | .error e, .ok libc_libs =>
              show copy_files host.files libc_libs include_libc lines >>= _ = .error e
              unfold copy_files
              rw [hlist]
              rfl
            | .ok list, .error e => rfl
            | .ok list, .ok libc_libs =>
              show _ = Job.build ⟨host, include_libc, PKG_BIN_PATH, PKG_BIN_FILENAME, list, libc_libs⟩
              rw [build_eq hlist]
              cases include_libc with
              | true => rfl
              | false => rfl

/-- A package as an archive. -/
def Package.tree (p : Package) (PKG_BIN_FILENAME : Bytes) : Tree where
  lib := p.lib
  bin := fun name => if name = PKG_BIN_FILENAME then p.bin else none
  bootstrap := some p.bootstrap

theorem Package.tree_inj {p p' : Package} {PKG_BIN_FILENAME : Bytes}
    (h : p.tree PKG_BIN_FILENAME = p'.tree PKG_BIN_FILENAME) : p = p' := by
  obtain ⟨hlib, hbin, hbootstrap⟩ := Tree.mk.inj h
  have hbin := congrFun hbin PKG_BIN_FILENAME
  rw [if_pos rfl, if_pos rfl] at hbin
  obtain ⟨lib, bin, bootstrap⟩ := p
  obtain rfl : lib = p'.lib := hlib
  obtain rfl : bin = p'.bin := hbin
  obtain rfl : bootstrap = p'.bootstrap := Option.some.inj hbootstrap
  rfl

/-- What a session leaves that made `p` in an empty `tmp`. -/
def Workspace.archive (w : Workspace) (job : Job) (p : Package) : Workspace where
  tmp := Tree.empty
  archives := Function.update w.archives job.archive_name (some (p.tree job.PKG_BIN_FILENAME))

theorem finish_package (job : Job) (s : Packaging) (htmp : w.tmp = Tree.empty) :
    (finish job (w.shell.repack s)).tmp = (job.package s).tree job.PKG_BIN_FILENAME := by
  have hbin : w.shell.tmp.bin = fun _ => none := by
    show w.tmp.bin = _
    rw [htmp]
    rfl
  unfold finish Job.package Package.tree
  by_cases hlibc : job.include_libc = true
  · simp only [hlibc, if_true, Shell.repack, hbin]
    congr 1
    funext name
    rw [Function.update_apply]
  · simp [hlibc, Shell.repack, hbin]

/-- A whole run in an empty `tmp` makes what `packager` makes. -/
theorem script_eq (htmp : w.tmp = Tree.empty) :
    ((script job).foldlM (exec job) w.shell).map Shell.toWorkspace =
      job.build.map (w.archive job) := by
  have hstart : w.shell.packaging = .initial := by
    unfold Workspace.shell Shell.packaging Packaging.initial
    rw [htmp]
    rfl
  unfold script Job.build
  rw [List.foldlM_append, stage_eq, copy_commands_eq, hstart]
  match copy_rounds job .initial with
  | .error e => rfl
  | .ok s =>
    show ((check_and_finish job (w.shell.repack s) >>= _).map _ : Except Exit Workspace) =
      Except.map _ (if _ then _ else _)
    by_cases hunset : (job.include_libc && s.PKG_LD.isEmpty) = true
    · have hcheck : check_and_finish job (w.shell.repack s) = .error .no_loader := if_pos hunset
      rw [hcheck, if_pos hunset]
      rfl
    · have hcheck : check_and_finish job (w.shell.repack s) =
          .ok (finish job (w.shell.repack s)) := if_neg hunset
      rw [hcheck, if_neg hunset]
      show Except.ok (Workspace.mk Tree.empty (Function.update w.archives job.archive_name
        (some (finish job (w.shell.repack s)).tmp))) = Except.ok (w.archive job (job.package s))
      rw [finish_package job s htmp]
      rfl

/-- No `tmp` is left where every run before came to its end, or there was
    none. -/
theorem tmp_removed {tr : List Session} (h : packaging.Run tr w)
    (hcomplete : ∀ l ∈ tr.getLast?, l.done = script l.job) : w.tmp = Tree.empty := by
  cases h with
  | init hw =>
    obtain rfl := hw
    rfl
  | @step tr w l w' _ hstep =>
    obtain ⟨-, -, sh, hdone, rfl⟩ := hstep
    have hscript : l.done = script l.job := hcomplete l (by simp)
    rw [hscript] at hdone
    exact removed hdone

/-- **A run does not depend on the runs before it** when the last of them
    came to its end: it makes the package, or fails, as in a fresh
    directory. -/
theorem run_after_complete {tr : List Session} (h : packaging.Run tr w)
    (hcomplete : ∀ l ∈ tr.getLast?, l.done = script l.job) (host : Host) (arguments : List Word) :
    (∀ p, packager host arguments = .ok p ↔ ∃ job, prepare host arguments = .ok job ∧
      packaging.step w ⟨job, script job⟩ (w.archive job p)) ∧
    ∀ e, packager host arguments = .error e ↔ prepare host arguments = .error e ∨
      ∃ job done c sh, prepare host arguments = .ok job ∧ done ++ [c] <+: script job ∧
        done.foldlM (exec job) w.shell = .ok sh ∧ exec job sh c = .error e := by
  have htmp := tmp_removed h hcomplete
  rw [packager_eq]
  constructor
  · intro p
    rw [ForLoop.bind_ok]
    apply exists_congr
    intro job
    apply and_congr_right
    intro hprepare
    have hscript := @script_eq job w htmp
    constructor
    · intro hbuild
      rw [hbuild] at hscript
      obtain ⟨sh, hrun, hw⟩ := ForLoop.map_ok.mp hscript
      exact ⟨⟨host, arguments, hprepare⟩, List.prefix_rfl, sh, hrun, hw.symm⟩
    · intro hstep
      obtain ⟨-, -, sh, hrun, hw⟩ := hstep
      rw [hrun] at hscript
      obtain ⟨p', hbuild, hw'⟩ := ForLoop.map_ok.mp hscript.symm
      -- the archive determines the package
      have harchives := congrArg (fun w => w.archives job.archive_name) (hw'.trans hw.symm)
      simp only [Workspace.archive, Function.update_self, Option.some.injEq] at harchives
      obtain rfl := Package.tree_inj harchives
      exact hbuild
  · intro e
    rw [ForLoop.bind_error]
    apply or_congr_right
    have hscript : ∀ job : Job, job.build = .error e ↔
        (script job).foldlM (exec job) w.shell = .error e := by
      intro job
      rw [← ForLoop.map_error (w.archive job), ← script_eq htmp, ForLoop.map_error]
    constructor
    · intro h
      obtain ⟨job, hprepare, hbuild⟩ := h
      obtain ⟨done, c, sh, hfirst, hrun, hfails⟩ := ForLoop.error_iff.mp ((hscript job).mp hbuild)
      exact ⟨job, done, c, sh, hprepare, hfirst, hrun, hfails⟩
    · intro h
      obtain ⟨job, done, c, sh, hprepare, hfirst, hrun, hfails⟩ := h
      refine ⟨job, hprepare, (hscript job).mpr ?_⟩
      exact ForLoop.error_iff.mpr ⟨done, c, sh, hfirst, hrun, hfails⟩

theorem run_after_complete_debian :
    ∃ w p, packaging.Run [⟨debian_job true, script (debian_job true)⟩] w ∧
      packager debian [ascii "-d", ascii "app"] = .ok p ∧
      packaging.step w default_libc_session (w.archive (debian_job false) p) := by
  have hcomplete : ((script (debian_job true)).foldlM (exec (debian_job true))
      (Workspace.shell ⟨Tree.empty, fun _ => none⟩)).map Shell.PKG_LD =
        .ok (ascii "ld-linux-x86-64.so.2") := by decide +kernel
  obtain ⟨sh, hrun, -⟩ := ForLoop.map_ok.mp hcomplete
  have hfirst : packaging.Run [⟨debian_job true, script (debian_job true)⟩] sh.toWorkspace :=
    System.Run.step (System.Run.init rfl)
      ⟨⟨debian, _, prepare_debian.1⟩, List.prefix_rfl, sh, hrun, rfl⟩
  have hpackager : (packager debian [ascii "-d", ascii "app"]).map Package.bin = .ok none := by
    decide +kernel
  obtain ⟨p, hp, -⟩ := ForLoop.map_ok.mp hpackager
  obtain ⟨job, hprepare, hstep⟩ := ((run_after_complete hfirst (by simp) _ _).1 p).mp hp
  obtain rfl := Except.ok.inj (prepare_debian.2.symm.trans hprepare)
  exact ⟨sh.toWorkspace, p, hfirst, hp, hstep⟩

end LambdaCpp
