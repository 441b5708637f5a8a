import LambdaCpp.Base.System
import LambdaCpp.Packaging.Packager

/-! # The Packaged Loader

    The bootstrap starts the binary through `lib/$PKG_LD`.  `PKG_LD` is
    assigned at three places, in two loops; the invariant of both is that it
    is empty as long as no loader was packaged, and then names one that is a
    copy of a file.

    A link of the C library is never packaged under a loader's name.  It may
    lead to the loader, though, and a later file of the same name is then
    written through it: `Clobbered` says when this happens.
-/

namespace LambdaCpp

open Bytes (ascii)

variable {fs : FileSystem} {libc_libs : List Word} {s s' : Packaging} {i : Word}

/-! ### The invariant -/

/-- `PKG_LD` and the loaders of `tmp/lib` belong together. -/
structure LoaderInvariant (s : Packaging) : Prop where
  unset : s.PKG_LD = [] → ∀ name, LoaderName name → s.lib name = none
  named : s.PKG_LD ≠ [] → LoaderName s.PKG_LD
  present : s.PKG_LD ≠ [] → ∃ source followed, s.lib s.PKG_LD = some (.regular source followed)
  no_link : ∀ name, LoaderName name → ∀ target, s.lib name ≠ some (.symlink target)

/-- As long as only `cp` without options was used, every entry is a copy with
    links followed. -/
def AllFollowed (lib : Directory) : Prop :=
  ∀ name e, lib name = some e → ∃ source, e = .regular source true

/-- Copying a file makes no link. -/
theorem link_of_update {lib : Directory} {m name target : Bytes} {source : Nat} {followed : Bool}
    (h : Function.update lib m (some (.regular source followed)) name = some (.symlink target)) :
    lib name = some (.symlink target) := by
  by_cases hname : name = m
  · subst hname
    simp at h
  · rwa [Function.update_of_ne hname] at h

theorem LoaderName.ne_nil {name : Bytes} (h : LoaderName name) : name ≠ [] := by
  rintro rfl
  exact absurd h (by decide)

/-- A loader is copied and becomes `PKG_LD`. -/
theorem LoaderInvariant.take {lib : Directory} {source : Nat} {followed : Bool}
    (hlink : ∀ name, LoaderName name → ∀ target, s.lib name ≠ some (.symlink target))
    (hloader : LoaderName (basename i))
    (hlib : lib = Function.update s.lib (basename i) (some (.regular source followed))) :
    LoaderInvariant ⟨basename i, lib⟩ where
  unset := fun hnil => absurd hnil hloader.ne_nil
  named := fun _ => hloader
  present := fun _ => ⟨source, followed, by rw [hlib]; exact Function.update_self ..⟩
  no_link := by
    intro name hname target
    show lib name ≠ _
    rw [hlib]
    exact fun hentry => hlink name hname target (link_of_update hentry)

/-- Something is copied under a name that is no loader's, or over a file;
    `PKG_LD` stays. -/
theorem LoaderInvariant.keep (h : LoaderInvariant s) {name : Bytes} {e : DirEntry}
    (hname : ¬ LoaderName name ∨ (∃ source followed, e = .regular source followed) ∧
      (s.lib name).isSome) :
    LoaderInvariant ⟨s.PKG_LD, Function.update s.lib name (some e)⟩ where
  unset := by
    intro hnil name' hname'
    have habsent := h.unset hnil name' hname'
    have hne : name' ≠ name := by
      rintro rfl
      rcases hname with hno | ⟨-, hsome⟩
      · exact hno hname'
      · rw [habsent] at hsome
        cases hsome
    show Function.update s.lib name (some e) name' = none
    rw [Function.update_of_ne hne]
    exact habsent
  named := h.named
  present := by
    intro hne
    show ∃ source followed, Function.update s.lib name (some e) s.PKG_LD = _
    by_cases heq : s.PKG_LD = name
    · subst heq
      rcases hname with hno | ⟨⟨source, followed, rfl⟩, -⟩
      · exact absurd (h.named hne) hno
      · exact ⟨source, followed, Function.update_self ..⟩
    · rw [Function.update_of_ne heq]
      exact h.present hne
  no_link := by
    intro name' hname' target
    show Function.update s.lib name (some e) name' ≠ _
    by_cases heq : name' = name
    · subst heq
      rcases hname with hno | ⟨⟨source, followed, rfl⟩, -⟩
      · exact absurd hname' hno
      · simp
    · rw [Function.update_of_ne heq]
      exact h.no_link name' hname' target

/-! ### The first loop -/

/-- Without a link in the way, a copy is a new file under its base name. -/
theorem written_of_no_link {lib lib' : Directory}
    (hnolink : ∀ target, lib (basename i) ≠ some (.symlink target))
    (h : cp fs true i lib = some lib') :
    i ≠ [] ∧ ∃ f, fs.stat i = some f ∧
      lib' = Function.update lib (basename i) (some (.regular f.id true)) := by
  obtain ⟨hne, hcopies⟩ := cp_copies h
  refine ⟨hne, ?_⟩
  cases hcopies with
  | link hfalse => cases hfalse
  | written hstat => exact ⟨_, hstat, rfl⟩
  | through _ _ hlink => exact absurd hlink (hnolink _)
  | away hlink => exact absurd hlink (hnolink _)

theorem written_of_followed {lib lib' : Directory} (hfollowed : AllFollowed lib)
    (h : cp fs true i lib = some lib') :
    i ≠ [] ∧ ∃ f, fs.stat i = some f ∧
      lib' = Function.update lib (basename i) (some (.regular f.id true)) := by
  apply written_of_no_link _ h
  intro target hlink
  obtain ⟨source, heq⟩ := hfollowed _ _ hlink
  cases heq

theorem AllFollowed.update {lib : Directory} (h : AllFollowed lib) (name : Bytes) (source : Nat) :
    AllFollowed (Function.update lib name (some (.regular source true))) := by
  intro name' e he
  by_cases heq : name' = name
  · subst heq
    rw [Function.update_self] at he
    exact ⟨source, (Option.some.inj he).symm⟩
  · rw [Function.update_of_ne heq] at he
    exact h name' e he

/-- A step of the first loop keeps the invariant. -/
theorem LoaderInvariant.dependency (h : LoaderInvariant s) (hfollowed : AllFollowed s.lib)
    (hstep : copy_dependency fs libc_libs s i = .ok s') :
    LoaderInvariant s' ∧ AllFollowed s'.lib := by
  rcases copy_dependency_cases hstep with ⟨-, rfl⟩ | ⟨-, hcp, hloader⟩
  · exact ⟨h, hfollowed⟩
  · obtain ⟨hne, f, -, hlib⟩ := written_of_followed hfollowed hcp
    have hfollowed' : AllFollowed s'.lib := by
      rw [hlib]
      exact hfollowed.update _ _
    refine ⟨?_, hfollowed'⟩
    have heq : s' = ⟨s'.PKG_LD, s'.lib⟩ := rfl
    rw [heq, hloader]
    unfold next_loader
    by_cases hname : LoaderName (basename i)
    · by_cases htakes : (hasElement i libc_libs || s.PKG_LD.isEmpty) = true
      · -- this file is the loader from now on
        rw [if_pos (by simp [(is_loader_basename_iff hne).mpr hname, htakes])]
        exact LoaderInvariant.take h.no_link hname hlib
      · -- another loader was there first; if it has the same name it is overwritten
        rw [if_neg (by simp [htakes])]
        have hset : s.PKG_LD ≠ [] := by
          intro hnil
          exact htakes (by simp [hnil])
        have htake := LoaderInvariant.take h.no_link hname hlib
        refine ⟨fun hnil => absurd hnil hset, fun _ => h.named hset, ?_, htake.no_link⟩
        intro _
        obtain ⟨source, followed, hpresent⟩ := h.present hset
        show ∃ source followed, s'.lib s.PKG_LD = _
        rw [hlib]
        by_cases hsame : s.PKG_LD = basename i
        · exact ⟨f.id, true, by rw [hsame]; exact Function.update_self ..⟩
        · exact ⟨source, followed, by rw [Function.update_of_ne hsame]; exact hpresent⟩
    · have hno : is_loader (basename i) = false :=
        Bool.eq_false_iff.mpr (mt (is_loader_basename_iff hne).mp hname)
      rw [hno, Bool.false_and, if_neg Bool.false_ne_true, hlib]
      exact h.keep (Or.inl hname)

theorem loader_after_dependencies {list : List Word}
    (h : list.foldlM (copy_dependency fs libc_libs) .initial = .ok s) :
    LoaderInvariant s ∧ AllFollowed s.lib := by
  apply ForLoop.invariant (I := fun _ s => LoaderInvariant s ∧ AllFollowed s.lib) _ _ h
  · refine ⟨⟨?_, ?_, ?_, ?_⟩, ?_⟩
    · intro _ name _
      rfl
    · intro hne
      exact absurd rfl hne
    · intro hne
      exact absurd rfl hne
    · intro name _ target hlink
      cases hlink
    · intro name e he
      cases he
  · intro pre i s₁ s₂ hinv hstep
    exact hinv.1.dependency hinv.2 hstep

/-! ### The second loop -/

/-- A file of the C library is copied to a name that `tmp/lib` holds as a
    link to the loader. -/
def Overwrites (fs : FileSystem) (s : Packaging) (i : Word) : Prop :=
  s.PKG_LD ≠ [] ∧ is_loader (basename i) = false ∧ fs.readlink i = none ∧
    (∃ target, s.lib (basename i) = some (.symlink target)) ∧
    resolve fs s.lib MAXSYMLINKS (basename i) = .inside s.PKG_LD

/-- Some round of the second loop, which starts in `s₁`, overwrites the
    loader. -/
def Clobbered (fs : FileSystem) (s₁ : Packaging) (libc_libs : List Word) : Prop :=
  ∃ pre i post s, libc_libs = pre ++ i :: post ∧ pre.foldlM (copy_libc fs) s₁ = .ok s ∧
    Overwrites fs s i

theorem clobbered_concat {s₁ : Packaging} {pre : List Word}
    (h : pre.foldlM (copy_libc fs) s₁ = .ok s) :
    Clobbered fs s₁ (pre ++ [i]) ↔ Clobbered fs s₁ pre ∨ Overwrites fs s i := by
  constructor
  · intro hclobbered
    obtain ⟨p, j, q, s₂, hsplit, hp, hover⟩ := hclobbered
    rcases System.append_singleton_eq_iff.mp hsplit with ⟨-, rfl, rfl⟩ | ⟨q', -, hpre⟩
    · -- the last round
      obtain rfl : s = s₂ := Except.ok.inj (h.symm.trans hp)
      exact Or.inr hover
    · exact Or.inl ⟨p, j, q', s₂, hpre, hp, hover⟩
  · intro hcases
    rcases hcases with ⟨p, j, q, s₂, rfl, hp, hover⟩ | hover
    · exact ⟨p, j, q ++ [i], s₂, by simp, hp, hover⟩
    · exact ⟨pre, i, [], s, by simp, h, hover⟩

/-- What a round of the second loop does to `PKG_LD` and its entry. -/
inductive LoaderStep (fs : FileSystem) (s : Packaging) (i : Word) (s' : Packaging) : Prop where
  /-- The loader is only in the list of the C library. -/
  | found {source : Nat} : s.PKG_LD = [] → s'.lib s'.PKG_LD = some (.regular source true) →
      LoaderStep fs s i s'
  | kept : s'.PKG_LD = s.PKG_LD → (s.PKG_LD ≠ [] → s'.lib s.PKG_LD = s.lib s.PKG_LD) →
      ¬ Overwrites fs s i → LoaderStep fs s i s'
  | overwritten {source : Nat} : s'.PKG_LD = s.PKG_LD →
      s'.lib s.PKG_LD = some (.regular source false) → Overwrites fs s i → LoaderStep fs s i s'

/-- A file of the C library is copied as it is. -/
theorem LoaderInvariant.no_dereference (h : LoaderInvariant s) {lib : Directory}
    (hname : ¬ LoaderName (basename i)) (hno : is_loader (basename i) = false)
    (hcopies : Copies fs false i s.lib lib) :
    LoaderInvariant ⟨s.PKG_LD, lib⟩ ∧ LoaderStep fs s i ⟨s.PKG_LD, lib⟩ := by
  -- the name of the copy is not that of the loader
  have hother : s.PKG_LD ≠ [] → s.PKG_LD ≠ basename i := by
    intro hset heq
    exact hname (heq ▸ h.named hset)
  cases hcopies with
  | link _ hreadlink =>
    refine ⟨h.keep (Or.inl hname), .kept rfl ?_ ?_⟩
    · intro hset
      exact Function.update_of_ne (hother hset) ..
    · intro hover
      obtain ⟨-, -, hnot, -⟩ := hover
      rw [hreadlink] at hnot
      cases hnot
  | written _ hnolink =>
    refine ⟨h.keep (Or.inl hname), .kept rfl ?_ ?_⟩
    · intro hset
      exact Function.update_of_ne (hother hset) ..
    · intro hover
      obtain ⟨-, -, -, ⟨target, hlink⟩, -⟩ := hover
      exact hnolink target hlink
  | @through f target name hlink hstat hsymlink hinside =>
    obtain ⟨source, followed, hregular⟩ := resolve_inside hinside
    refine ⟨h.keep (Or.inr ⟨⟨_, _, rfl⟩, by rw [hregular]; rfl⟩), ?_⟩
    have hreadlink : fs.readlink i = none := by
      rcases hlink with hfalse | hreadlink
      · cases hfalse
      · exact hreadlink
    by_cases hset : s.PKG_LD = []
    · -- there is no loader yet
      refine .kept rfl (fun hne => absurd hset hne) ?_
      intro hover
      exact hover.1 hset
    · by_cases heq : s.PKG_LD = name
      · subst heq
        exact .overwritten rfl (Function.update_self ..)
          ⟨hset, hno, hreadlink, ⟨target, hsymlink⟩, hinside⟩
      · refine .kept rfl (fun _ => Function.update_of_ne heq ..) ?_
        intro hover
        obtain ⟨-, -, -, -, hloader⟩ := hover
        rw [hinside] at hloader
        exact heq (Destination.inside.inj hloader).symm
  | away _ houtside =>
    refine ⟨h, .kept rfl (fun _ => rfl) ?_⟩
    intro hover
    obtain ⟨-, -, -, -, hloader⟩ := hover
    rw [houtside] at hloader
    cases hloader

/-- A round of the second loop keeps the invariant. -/
theorem LoaderInvariant.libc (h : LoaderInvariant s) (hstep : copy_libc fs s i = .ok s') :
    LoaderInvariant s' ∧ LoaderStep fs s i s' := by
  have heta : s' = ⟨s'.PKG_LD, s'.lib⟩ := rfl
  rcases copy_libc_cases hstep with ⟨hloader, hunset, hcp, hPKG_LD⟩ | ⟨hloader, hset, rfl⟩ |
    ⟨hno, hcp, hPKG_LD⟩
  · -- the first loader of the list, with links followed
    have hname : LoaderName (basename i) := (is_loader_basename_iff (cp_copies hcp).1).mp hloader
    obtain ⟨-, f, -, hlib⟩ := written_of_no_link (h.no_link _ hname) hcp
    rw [heta, hPKG_LD]
    have hfile : s'.lib (basename i) = some (.regular f.id true) := by
      rw [hlib]
      exact Function.update_self ..
    exact ⟨LoaderInvariant.take h.no_link hname hlib, .found hunset hfile⟩
  · -- the other loaders are not packaged
    refine ⟨h, .kept rfl (fun _ => rfl) ?_⟩
    intro hover
    obtain ⟨-, hno, -⟩ := hover
    rw [hloader] at hno
    cases hno
  · obtain ⟨hne, hcopies⟩ := cp_copies hcp
    have hname : ¬ LoaderName (basename i) := by
      intro hname
      rw [(is_loader_basename_iff hne).mpr hname] at hno
      cases hno
    rw [heta, hPKG_LD]
    exact h.no_dereference hname hno hcopies

/-- The state after some rounds of the second loop. -/
structure SecondLoop (fs : FileSystem) (s₁ : Packaging) (pre : List Word) (s : Packaging) :
    Prop where
  reached : pre.foldlM (copy_libc fs) s₁ = .ok s
  invariant : LoaderInvariant s
  unset : s.PKG_LD = [] → ¬ Clobbered fs s₁ pre
  followed : s.PKG_LD ≠ [] →
    ((∃ source, s.lib s.PKG_LD = some (.regular source true)) ↔ ¬ Clobbered fs s₁ pre)

theorem SecondLoop.step {s₁ : Packaging} {pre : List Word} (h : SecondLoop fs s₁ pre s)
    (hstep : copy_libc fs s i = .ok s') : SecondLoop fs s₁ (pre ++ [i]) s' := by
  obtain ⟨hinvariant, hloader⟩ := h.invariant.libc hstep
  have hreached : (pre ++ [i]).foldlM (copy_libc fs) s₁ = .ok s' := by
    apply ForLoop.append_ok.mpr
    refine ⟨s, h.reached, ?_⟩
    rw [List.foldlM_cons, hstep]
    rfl
  have hclobbered := clobbered_concat (i := i) h.reached
  cases hloader with
  | @found source hunset hfile =>
    -- before there was a loader nothing could overwrite it
    have hnot : ¬ Clobbered fs s₁ (pre ++ [i]) := by
      rw [hclobbered]
      intro hcases
      rcases hcases with hold | hover
      · exact h.unset hunset hold
      · exact hover.1 hunset
    exact ⟨hreached, hinvariant, fun _ => hnot, fun _ => iff_of_true ⟨source, hfile⟩ hnot⟩
  | kept hPKG_LD hfile hover =>
    have hsame : Clobbered fs s₁ (pre ++ [i]) ↔ Clobbered fs s₁ pre := by
      rw [hclobbered]
      simp [hover]
    refine ⟨hreached, hinvariant, ?_, ?_⟩
    · intro hunset
      rw [hsame]
      exact h.unset (hPKG_LD ▸ hunset)
    · intro hset
      have hset' : s.PKG_LD ≠ [] := hPKG_LD ▸ hset
      rw [hsame, hPKG_LD, hfile hset']
      exact h.followed hset'
  | overwritten hPKG_LD hfile hover =>
    have hnow : Clobbered fs s₁ (pre ++ [i]) := hclobbered.mpr (Or.inr hover)
    refine ⟨hreached, hinvariant, ?_, ?_⟩
    · intro hunset
      exact absurd (hPKG_LD ▸ hunset) hover.1
    · intro _
      rw [hPKG_LD, hfile]
      simp [hnow]

/-! ### The package -/

/-- In the run on this listing a file of the C library is written through a
    link to the loader. -/
def LoaderOverwritten (fs : FileSystem) (libc_libs : List Word) (lines : List Bytes) : Prop :=
  ∃ list s₁, dependency_list fs lines = .ok list ∧
    list.foldlM (copy_dependency fs libc_libs) .initial = .ok s₁ ∧ Clobbered fs s₁ libc_libs

/-- Every link in the directory was copied from a path that ends in its
    name. -/
def LinksCopied (pre : List Word) (lib : Directory) : Prop :=
  ∀ name target, lib name = some (.symlink target) → ∃ j ∈ pre, basename j = name

theorem LinksCopied.copy {pre : List Word} {dereference : Bool} {lib lib' : Directory}
    (h : LinksCopied pre lib) (hcopies : Copies fs dereference i lib lib') :
    LinksCopied (pre ++ [i]) lib' := by
  have hold : ∀ {name target}, lib name = some (.symlink target) →
      ∃ j ∈ pre ++ [i], basename j = name := by
    intro name target hlink
    rw [ForLoop.exists_mem_concat]
    exact Or.inl (h name target hlink)
  intro name target hlink
  cases hcopies with
  | link _ _ =>
    by_cases hname : name = basename i
    · rw [ForLoop.exists_mem_concat]
      exact Or.inr hname.symm
    · rw [Function.update_of_ne hname] at hlink
      exact hold hlink
  | written => exact hold (link_of_update hlink)
  | through => exact hold (link_of_update hlink)
  | away => exact hold hlink

theorem links_copied {s₁ : Packaging} {pre : List Word} (hfollowed : AllFollowed s₁.lib)
    (h : pre.foldlM (copy_libc fs) s₁ = .ok s) : LinksCopied pre s.lib := by
  apply ForLoop.invariant (I := fun pre s => LinksCopied pre s.lib) _ _ h
  · intro name target hlink
    obtain ⟨source, he⟩ := hfollowed _ _ hlink
    cases he
  · intro pre i s s' hs hstep
    rcases copy_libc_cases hstep with ⟨-, -, hcp, -⟩ | ⟨-, -, rfl⟩ | ⟨-, hcp, -⟩
    · exact hs.copy (cp_copies hcp).2
    · intro name target hlink
      rw [ForLoop.exists_mem_concat]
      exact Or.inl (hs name target hlink)
    · exact hs.copy (cp_copies hcp).2

/-- **Nothing is written over the loader** as long as no two files of the C
    library have the same base name. -/
theorem not_loader_overwritten {lines : List Bytes} (h : (libc_libs.map basename).Nodup) :
    ¬ LoaderOverwritten fs libc_libs lines := by
  rintro ⟨list, s₁, -, hdependencies, pre, i, post, s, rfl, hloop, -, -, -, ⟨target, hlink⟩, -⟩
  have hfollowed := (loader_after_dependencies hdependencies).2
  obtain ⟨j, hj, hname⟩ := links_copied hfollowed hloop _ _ hlink
  rw [List.map_append, List.map_cons, List.nodup_append] at h
  exact h.2.2 _ (List.mem_map_of_mem hj) _ List.mem_cons_self hname

/-- The loader of a package that includes the C library. -/
structure LoaderPackaged (fs : FileSystem) (libc_libs : List Word) (lines : List Bytes)
    (s : Packaging) : Prop where
  named : s.PKG_LD ≠ [] ∧ LoaderName s.PKG_LD
  /-- A file, not a link. -/
  regular : ∃ source followed, s.lib s.PKG_LD = some (.regular source followed)
  /-- Its contents were copied with links followed, unless they were
      overwritten. -/
  followed : (∃ source, s.lib s.PKG_LD = some (.regular source true)) ↔
    ¬ LoaderOverwritten fs libc_libs lines
  /-- They never were when the C library's files differ in their base
      names. -/
  distinct : (libc_libs.map basename).Nodup →
    ∃ source, s.lib s.PKG_LD = some (.regular source true)

/-- A run that comes through the check for the loader. -/
theorem loader_after_libc {lines : List Bytes} (h : copy_files fs libc_libs true lines = .ok s) :
    ∃ list s₁, dependency_list fs lines = .ok list ∧
      list.foldlM (copy_dependency fs libc_libs) .initial = .ok s₁ ∧
      SecondLoop fs s₁ libc_libs s ∧ s.PKG_LD ≠ [] := by
  obtain ⟨list, s₁, hlist, hdependencies, hlibc, -⟩ := copy_files_cases h
  obtain ⟨hloop, hset⟩ := hlibc rfl
  obtain ⟨hinvariant, hfollowed⟩ := loader_after_dependencies hdependencies
  have hnone : ¬ Clobbered fs s₁ [] := by
    intro hclobbered
    obtain ⟨pre, i, post, -, hsplit, -⟩ := hclobbered
    simp at hsplit
  have hstart : SecondLoop fs s₁ [] s₁ := by
    refine ⟨rfl, hinvariant, fun _ => hnone, ?_⟩
    intro hset
    refine iff_of_true ?_ hnone
    obtain ⟨source, followed, hpresent⟩ := hinvariant.present hset
    obtain ⟨source', heq⟩ := hfollowed _ _ hpresent
    exact ⟨source', by rw [hpresent, heq]⟩
  have hend : SecondLoop fs s₁ libc_libs s :=
    ForLoop.invariant (I := SecondLoop fs s₁) hstart (fun _ _ _ _ hs hstep => hs.step hstep) hloop
  exact ⟨list, s₁, hlist, hdependencies, hend, hset⟩

/-- **The packaged bootstrap's loader exists**, whatever the listing, the C
    library's files and the file system. -/
theorem loader_packaged {lines : List Bytes} (h : copy_files fs libc_libs true lines = .ok s) :
    LoaderPackaged fs libc_libs lines s := by
  obtain ⟨list, s₁, hlist, hdependencies, hend, hset⟩ := loader_after_libc h
  have hoverwritten : LoaderOverwritten fs libc_libs lines ↔ Clobbered fs s₁ libc_libs := by
    constructor
    · intro hsome
      obtain ⟨list', s₂, hlist', hdependencies', hclobbered⟩ := hsome
      obtain rfl : list = list' := Except.ok.inj (hlist.symm.trans hlist')
      obtain rfl : s₁ = s₂ := Except.ok.inj (hdependencies.symm.trans hdependencies')
      exact hclobbered
    · intro hclobbered
      exact ⟨list, s₁, hlist, hdependencies, hclobbered⟩
  have hfollowed : (∃ source, s.lib s.PKG_LD = some (.regular source true)) ↔
      ¬ LoaderOverwritten fs libc_libs lines := by
    rw [hoverwritten]
    exact hend.followed hset
  refine ⟨⟨hset, hend.invariant.named hset⟩, hend.invariant.present hset, hfollowed, ?_⟩
  intro hdistinct
  exact hfollowed.mpr (not_loader_overwritten hdistinct)

/-- musl: `libc` is a link to the loader, and one more `libc` is installed
    elsewhere. -/
def musl_files : FileSystem :=
  .small [(ascii "/lib/ld-musl-x86_64.so.1", 1), (ascii "/lib/libc.musl-x86_64.so.1", 1),
      (ascii "/usr/lib/libc.musl-x86_64.so.1", 2)]
    [(ascii "/lib/libc.musl-x86_64.so.1", ascii "ld-musl-x86_64.so.1")]

theorem loader_packaged_musl :
    ∃ s, copy_files musl_files
        [ascii "/lib/ld-musl-x86_64.so.1", ascii "/lib/libc.musl-x86_64.so.1"] true
        [ascii "\t/lib/ld-musl-x86_64.so.1 (0x7f1)"] = .ok s ∧
      s.PKG_LD = ascii "ld-musl-x86_64.so.1" ∧
      LoaderPackaged musl_files
        [ascii "/lib/ld-musl-x86_64.so.1", ascii "/lib/libc.musl-x86_64.so.1"]
        [ascii "\t/lib/ld-musl-x86_64.so.1 (0x7f1)"] s := by
  have hrun : (copy_files musl_files
      [ascii "/lib/ld-musl-x86_64.so.1", ascii "/lib/libc.musl-x86_64.so.1"] true
      [ascii "\t/lib/ld-musl-x86_64.so.1 (0x7f1)"]).map Packaging.PKG_LD =
        .ok (ascii "ld-musl-x86_64.so.1") := by decide +kernel
  obtain ⟨s, hs, hPKG_LD⟩ := exists_of_map_eq hrun
  exact ⟨s, hs, hPKG_LD, loader_packaged hs⟩

/-- The second `libc` is written through the link, over the loader. -/
theorem loader_overwritten_musl :
    (copy_files musl_files
      [ascii "/lib/ld-musl-x86_64.so.1", ascii "/lib/libc.musl-x86_64.so.1",
        ascii "/usr/lib/libc.musl-x86_64.so.1"] true
      [ascii "\t/lib/ld-musl-x86_64.so.1 (0x7f1)"]).map (fun s => (s.PKG_LD, s.lib s.PKG_LD)) =
        .ok (ascii "ld-musl-x86_64.so.1", some (.regular 2 false)) := by decide +kernel

/-- **The bootstrap is written for a loader of the package**, in every run of
    the script that includes the C library. -/
theorem bootstrap_names_loader {host : Host} {arguments : List Word} {p : Package}
    (hlibc : ascii "-d" ∉ arguments ∧ ascii "--default-libc" ∉ arguments)
    (h : packager host arguments = .ok p) :
    ∃ PKG_LD PKG_BIN_FILENAME source followed,
      p.bootstrap = .script (bootstrap_script PKG_LD PKG_BIN_FILENAME) ∧
      LoaderName PKG_LD ∧ p.lib PKG_LD = some (.regular source followed) := by
  have hincluded : (parse_arguments arguments).1 = true := by
    rw [← Bool.not_eq_false, parse_arguments_default_libc, not_or]
    exact hlibc
  obtain ⟨PKG_BIN_PATH, lines, libc_libs, s, -, -, hs, hlib, hbootstrap⟩ := packager_cases h
  rw [hincluded] at hs
  obtain ⟨_, _, -, -, hend, hset⟩ := loader_after_libc hs
  obtain ⟨source, followed, hpresent⟩ := hend.invariant.present hset
  refine ⟨s.PKG_LD, basename PKG_BIN_PATH, source, followed, hbootstrap hincluded,
    hend.invariant.named hset, ?_⟩
  rw [hlib]
  exact hpresent

end LambdaCpp
