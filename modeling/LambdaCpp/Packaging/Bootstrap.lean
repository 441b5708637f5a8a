import LambdaCpp.Packaging.Packager

/-! # What the Bootstrap Starts

    The bootstrap is written with `echo -e` and read by the shell of the
    target.  Nothing in its last line is quoted, so the names of the loader
    and of the binary are taken apart like any other text.

    Only as much of the shell is here as the script needs: comments, `set`,
    `export`, `exec`, and unquoted words of ordinary characters and
    parameters.  Where a text has anything else, or the script fails, there
    is no result (`none`).

    `launches_iff`: the loader is started on the binary exactly when the
    name of the binary has no blank.
-/

namespace LambdaCpp

open Bytes (ascii)

/-! ### Parameters -/

/-- Letters, digits and `_`: the characters of a parameter's name. -/
def is_name_byte (b : UInt8) : Bool :=
  Bytes.isDigit b || Bytes.isUpper b || (0x61 ≤ b && b ≤ 0x7a) || b = 0x5f

/-- The characters that stand for themselves, to `echo -e` and to the
    shell, wherever they are in a word. -/
def is_ordinary (b : UInt8) : Bool := is_name_byte b || (ascii "%+,-./:=@").contains b

/-- What the shell that runs the script has around it. -/
structure Environment where
  parameter : Bytes → Option Bytes
  glob : Word → List Word

/-- Where the scan of a line stands. -/
inductive Scan where
  | text
  /-- After a `$`. -/
  | dollar
  /-- In `$name`. -/
  | name (n : Bytes)
  /-- In `${name}`. -/
  | braced (n : Bytes)
  deriving DecidableEq, Repr

/-- A line with its parameters replaced by their values.  The script is run
    with `-u`, so it ends where a parameter has none. -/
def expand_parameters (env : Environment) : Scan → Bytes → Option Bytes
  | .text, [] => some []
  | .text, b :: s =>
    if b = 0x24 then expand_parameters env .dollar s
    else if is_ordinary b || is_blank b then do
      let rest ← expand_parameters env .text s
      return b :: rest
    else none
  | .dollar, [] => none
  | .dollar, b :: s =>
    -- `$1`, `$?` and `$(...)` are not in the script
    if b = 0x7b then expand_parameters env (.braced []) s
    else if is_name_byte b && !Bytes.isDigit b then expand_parameters env (.name [b]) s
    else none
  | .name n, [] => env.parameter n
  | .name n, b :: s =>
    if is_name_byte b then expand_parameters env (.name (n ++ [b])) s
    else if is_ordinary b || is_blank b then do
      let value ← env.parameter n
      let rest ← expand_parameters env .text s
      return value ++ b :: rest
    else none
  | .braced _, [] => none
  | .braced n, b :: s =>
    if b = 0x7d then do
      let value ← if n = [] then none else env.parameter n
      let rest ← expand_parameters env .text s
      return value ++ rest
    else if is_name_byte b && !(n.isEmpty && Bytes.isDigit b) then
      expand_parameters env (.braced (n ++ [b])) s
    else none

/-! ### Commands -/

/-- The words of a line.  Without quotes the blanks of a value separate
    words as those of the line do. -/
def command_words (env : Environment) (line : Bytes) : Option (List Word) := do
  let text ← expand_parameters env .text line
  return (split_words text).flatMap (expand env.glob)

/-- `export name=value`. -/
def Environment.assign (env : Environment) (argument : Word) : Environment :=
  match Bytes.cutAt 0x3d argument with
  | none => env
  | some (name, value) => { env with parameter := Function.update env.parameter name (some value) }

/-- What the shell does for a command: it goes on, or the command takes its
    place. -/
inductive Effect where
  | continues (env : Environment)
  | replaced (argv : List Word)

def run_command (env : Environment) (line : Bytes) (command : Word) (arguments : List Word) :
    Option Effect :=
  if command = ascii "set" ∧ arguments = [ascii "-euo", ascii "pipefail"] then some (.continues env)
  -- the value of an assignment would not be split: there is no parameter in it
  else if command = ascii "export" ∧ 0x24 ∉ line then
    some (.continues (arguments.foldl Environment.assign env))
  else if command = ascii "exec" ∧ arguments.head?.any is_option = false then
    some (.replaced arguments)
  else none

/-- The program that takes the place of the shell, with its arguments. -/
def run_script (env : Environment) : List Bytes → Option (List Word)
  | [] => none
  | line :: rest =>
    if line.head? = some 0x23 then run_script env rest
    else
      match command_words env line with
      | none => none
      | some [] => run_script env rest
      | some (command :: arguments) =>
        match run_command env line command arguments with
        | none => none
        | some (.continues env) => run_script env rest
        | some (.replaced argv) => some argv

/-- `echo -e`, of a text without escapes. -/
def echo_e (text : Bytes) : Option Bytes := if 0x5c ∈ text then none else some (text ++ [0x0a])

/-- What the bootstrap that is written from `text` starts. -/
def bootstrap_argv (env : Environment) (text : Bytes) : Option (List Word) := do
  let script ← echo_e text
  run_script env (Bytes.cutLines script)

/-! ### The bootstrap -/

/-- A directory that the shell leaves in one piece. -/
structure IsTaskRoot (root : Bytes) : Prop where
  ordinary : ∀ b ∈ root, is_ordinary b
  no_option : is_option root = false

/-- The packaged loader, to run the packaged binary. -/
def loader_argv (root PKG_LD PKG_BIN_FILENAME : Bytes) : List Word :=
  [root ++ ascii "/lib/" ++ PKG_LD, ascii "--library-path", root ++ ascii "/lib",
    root ++ ascii "/bin/" ++ PKG_BIN_FILENAME]

/-- Wherever the package is unpacked, the bootstrap starts the loader on the
    binary, with the words of the handler's name as its arguments.  Versions
    of the shell differ in whether a backslash in that name makes a pattern
    of it. -/
def Launches (text PKG_LD PKG_BIN_FILENAME : Bytes) : Prop :=
  ∀ env root handler, env.parameter (ascii "LAMBDA_TASK_ROOT") = some root → IsTaskRoot root →
    env.parameter (ascii "_HANDLER") = some handler → 0x5c ∉ handler →
    bootstrap_argv env text = some (loader_argv root PKG_LD PKG_BIN_FILENAME ++
      (split_words handler).flatMap (expand env.glob))

/-! ### Expansion -/

section
variable {env : Environment} {b : UInt8}

theorem not_dollar (hb : is_ordinary b || is_blank b) : b ≠ 0x24 := by
  rintro rfl
  exact absurd hb (by decide)

theorem expand_text_cons (hb : is_ordinary b || is_blank b) (s : Bytes) :
    expand_parameters env .text (b :: s) = (expand_parameters env .text s).map (b :: ·) := by
  rw [expand_parameters, if_neg (not_dollar hb), if_pos hb]
  cases expand_parameters env .text s <;> rfl

/-- Ordinary text stays as it is. -/
theorem expand_text {s : Bytes} (hs : ∀ b ∈ s, is_ordinary b || is_blank b) (s' : Bytes) :
    expand_parameters env .text (s ++ s') = (expand_parameters env .text s').map (s ++ ·) := by
  induction s with
  | nil =>
    show expand_parameters env .text s' = (expand_parameters env .text s').map id
    rw [Option.map_id]
    rfl
  | cons b s ih =>
    rw [List.cons_append, expand_text_cons (hs b List.mem_cons_self),
      ih fun c hc => hs c (List.mem_cons_of_mem b hc), Option.map_map]
    rfl

theorem expand_name_cons (hb : is_name_byte b) (m s : Bytes) :
    expand_parameters env (.name m) (b :: s) = expand_parameters env (.name (m ++ [b])) s := by
  rw [expand_parameters, if_pos hb]

/-- A parameter's name goes up to the first character that is not in one. -/
theorem expand_name {n : Bytes} (hn : ∀ b ∈ n, is_name_byte b) (m : Bytes)
    (hend : is_name_byte b = false) (hb : is_ordinary b || is_blank b) (s : Bytes) :
    expand_parameters env (.name m) (n ++ b :: s) =
      (env.parameter (m ++ n)).bind fun value =>
        (expand_parameters env .text (b :: s)).map (value ++ ·) := by
  -- `m` is what of the name has been read
  induction n generalizing m with
  | nil =>
    rw [expand_text_cons hb, List.nil_append, List.append_nil, expand_parameters, hend,
      if_neg Bool.false_ne_true, if_pos hb]
    cases env.parameter m with
    | none => rfl
    | some value => cases expand_parameters env .text s <;> rfl
  | cons c n ih =>
    rw [List.cons_append, expand_name_cons (hn c List.mem_cons_self),
      ih fun d hd => hn d (List.mem_cons_of_mem c hd), List.append_assoc, List.singleton_append]

theorem expand_dollar {c : UInt8} (hc : is_name_byte c && !Bytes.isDigit c) (s : Bytes) :
    expand_parameters env .text (0x24 :: c :: s) = expand_parameters env (.name [c]) s := by
  have hbrace : c ≠ 0x7b := by
    rintro rfl
    exact absurd hc (by decide)
  rw [expand_parameters, if_pos rfl, expand_parameters, if_neg hbrace, if_pos hc]

/-- The directory of the package, and what follows. -/
theorem expand_root {root : Bytes} (hroot : env.parameter (ascii "LAMBDA_TASK_ROOT") = some root)
    (s : Bytes) :
    expand_parameters env .text (ascii "$LAMBDA_TASK_ROOT" ++ 0x2f :: s) =
      (expand_parameters env .text s).map (root ++ 0x2f :: ·) := by
  have hname : ∀ b ∈ ascii "AMBDA_TASK_ROOT", is_name_byte b := by decide
  have hsplit : ascii "$LAMBDA_TASK_ROOT" ++ 0x2f :: s =
      0x24 :: 0x4c :: (ascii "AMBDA_TASK_ROOT" ++ 0x2f :: s) := rfl
  have hfull : [0x4c] ++ ascii "AMBDA_TASK_ROOT" = ascii "LAMBDA_TASK_ROOT" := rfl
  rw [hsplit, expand_dollar (by decide), expand_name hname _ (by decide) (by decide), hfull, hroot,
    Option.bind_some, expand_text_cons (by decide), Option.map_map]
  rfl

/-- The handler's name, at the end of the line. -/
theorem expand_handler {handler : Bytes} (hhandler : env.parameter (ascii "_HANDLER") = some handler) :
    expand_parameters env .text (ascii "$\x7b_HANDLER\x7d\n") = some (handler ++ [0x0a]) := by
  have hend : expand_parameters env .text [0x0a] = some [0x0a] := rfl
  have hbraced : expand_parameters env .text (ascii "$\x7b_HANDLER\x7d\n") =
      (env.parameter (ascii "_HANDLER")).bind fun value =>
        (expand_parameters env .text [0x0a]).bind fun rest => some (value ++ rest) := rfl
  rw [hbraced, hhandler, hend]
  rfl

/-! ### Words -/

theorem not_blank_of_ordinary : ∀ b : UInt8, is_ordinary b → is_blank b = false :=
  Bytes.forall_byte (by decide +kernel)

theorem has_glob_of_ordinary {s : Bytes} (hs : ∀ b ∈ s, is_ordinary b) : has_glob s = false := by
  have hbyte : ∀ b : UInt8, is_ordinary b → (b = 0x2a || b = 0x3f || b = 0x5b) = false :=
    Bytes.forall_byte (by decide +kernel)
  unfold has_glob
  rw [List.any_eq_false]
  intro b hb
  rw [hbyte b (hs b hb)]
  exact Bool.false_ne_true

/-- The shell leaves an ordinary text in one piece. -/
theorem word_of_ordinary {s : Bytes} (hs : ∀ b ∈ s, is_ordinary b) (hne : s ≠ []) :
    OneWord s ∧ has_glob s = false :=
  ⟨⟨hne, fun b hb => not_blank_of_ordinary b (hs b hb)⟩, has_glob_of_ordinary hs⟩

/-! ### The commands of the script -/

theorem foldl_assign_glob (env : Environment) (arguments : List Word) :
    (arguments.foldl Environment.assign env).glob = env.glob := by
  induction arguments generalizing env with
  | nil => rfl
  | cons argument arguments ih =>
    rw [List.foldl_cons, ih]
    unfold Environment.assign
    split <;> rfl

/-- Where no pattern matches anything, no word has a blank. -/
theorem command_words_no_blank {line : Bytes} {words : List Word} (hglob : ∀ w, env.glob w = [])
    (h : command_words env line = some words) : ∀ w ∈ words, ∀ b ∈ w, is_blank b = false := by
  obtain ⟨text, -, hwords⟩ := Option.bind_eq_some_iff.mp h
  obtain rfl := Option.some.inj hwords
  intro w hw
  obtain ⟨piece, hpiece, hw⟩ := List.mem_flatMap.mp hw
  have hsame : expand env.glob piece = [piece] := by
    unfold expand
    rw [hglob]
    split <;> rfl
  rw [hsame, List.mem_singleton] at hw
  rw [hw]
  exact (oneWord_of_mem hpiece).no_blank

variable {line : Bytes} {rest : List Bytes} {command : Word} {arguments : List Word}

theorem run_command_cases {effect : Effect} (h : run_command env line command arguments = some effect) :
    (∃ env', effect = .continues env' ∧ env'.glob = env.glob) ∨ effect = .replaced arguments := by
  unfold run_command at h
  split at h
  · exact Or.inl ⟨env, (Option.some.inj h).symm, rfl⟩
  · split at h
    · exact Or.inl ⟨_, (Option.some.inj h).symm, foldl_assign_glob env arguments⟩
    · split at h
      · exact Or.inr (Option.some.inj h).symm
      · cases h

theorem run_script_no_blank {lines : List Bytes} {argv : List Word} (hglob : ∀ w, env.glob w = [])
    (h : run_script env lines = some argv) : ∀ w ∈ argv, ∀ b ∈ w, is_blank b = false := by
  -- only assignments change the environment, and they leave `glob` alone
  induction lines generalizing env with
  | nil => cases h
  | cons line rest ih =>
    rw [run_script] at h
    split at h
    · exact ih hglob h
    · split at h
      · cases h
      · exact ih hglob h
      · next command arguments hwords =>
        split at h
        · cases h
        · next env' heffect =>
          rcases run_command_cases heffect with ⟨env'', heq, hkept⟩ | heq
          · obtain rfl := Effect.continues.inj heq
            exact ih (by rw [hkept]; exact hglob) h
          · cases heq
        · next argv' heffect =>
          rcases run_command_cases heffect with ⟨env'', heq, -⟩ | heq
          · cases heq
          · -- the words of this line
            obtain rfl := Effect.replaced.inj heq
            obtain rfl := Option.some.inj h
            intro w hw
            exact command_words_no_blank hglob hwords w (List.mem_cons_of_mem _ hw)

theorem run_comment (hcomment : line.head? = some 0x23) :
    run_script env (line :: rest) = run_script env rest := by
  rw [run_script, if_pos hcomment]

theorem run_continues {env' : Environment} (hcomment : line.head? ≠ some 0x23)
    (hwords : command_words env line = some (command :: arguments))
    (heffect : run_command env line command arguments = some (.continues env')) :
    run_script env (line :: rest) = run_script env' rest := by
  rw [run_script, if_neg hcomment, hwords]
  simp only [heffect]

theorem run_replaced {argv : List Word} (hcomment : line.head? ≠ some 0x23)
    (hwords : command_words env line = some (command :: arguments))
    (heffect : run_command env line command arguments = some (.replaced argv)) :
    run_script env (line :: rest) = some argv := by
  rw [run_script, if_neg hcomment, hwords]
  simp only [heffect]

theorem run_exec (hoption : arguments.head?.any is_option = false) :
    run_command env line (ascii "exec") arguments = some (.replaced arguments) := by
  have hset : ¬ (ascii "exec" = ascii "set" ∧ arguments = [ascii "-euo", ascii "pipefail"]) := by
    rintro ⟨hcommand, -⟩
    exact absurd hcommand (by decide)
  have hexport : ¬ (ascii "exec" = ascii "export" ∧ 0x24 ∉ line) := by
    rintro ⟨hcommand, -⟩
    exact absurd hcommand (by decide)
  unfold run_command
  rw [if_neg hset, if_neg hexport, if_pos ⟨rfl, hoption⟩]

/-- A line without parameters and patterns. -/
theorem plain_words {words : List Word} (hline : ∀ b ∈ line, is_ordinary b || is_blank b)
    (hwords : split_words line = words) (hglob : ∀ w ∈ words, has_glob w = false) :
    command_words env line = some words := by
  have hexpand : expand_parameters env .text line = some line := by
    have happend := @expand_text env line hline []
    rw [List.append_nil] at happend
    rw [happend]
    show some (line ++ []) = _
    rw [List.append_nil]
  unfold command_words
  rw [hexpand, Option.bind_eq_bind, Option.bind_some, hwords, flatMap_expand hglob]
  rfl

/-- The last line, as the shell reads it. -/
def exec_line (PKG_LD PKG_BIN_FILENAME : Bytes) : Bytes :=
  ascii "exec " ++ (ascii "$LAMBDA_TASK_ROOT" ++ 0x2f :: (ascii "lib/" ++ PKG_LD ++
    ascii " --library-path " ++ (ascii "$LAMBDA_TASK_ROOT" ++ 0x2f :: (ascii "lib " ++
      (ascii "$LAMBDA_TASK_ROOT" ++ 0x2f :: (ascii "bin/" ++ PKG_BIN_FILENAME ++ ascii " " ++
        ascii "$\x7b_HANDLER\x7d\n"))))))

theorem bootstrap_script_lines (PKG_LD PKG_BIN_FILENAME : Bytes) :
    bootstrap_script PKG_LD PKG_BIN_FILENAME ++ [0x0a] =
      ascii "#!/bin/bash\n" ++ (ascii "set -euo pipefail\n" ++
        (ascii "export AWS_EXECUTION_ENV=lambda-cpp\n" ++ exec_line PKG_LD PKG_BIN_FILENAME)) := by
  have hstart : ascii "#!/bin/bash\nset -euo pipefail\nexport AWS_EXECUTION_ENV=lambda-cpp\nexec $LAMBDA_TASK_ROOT/lib/" =
      ascii "#!/bin/bash\n" ++ (ascii "set -euo pipefail\n" ++
        (ascii "export AWS_EXECUTION_ENV=lambda-cpp\n" ++ (ascii "exec " ++
          (ascii "$LAMBDA_TASK_ROOT" ++ 0x2f :: ascii "lib/")))) := by decide +kernel
  have hmiddle : ascii " --library-path $LAMBDA_TASK_ROOT/lib $LAMBDA_TASK_ROOT/bin/" =
      ascii " --library-path " ++ (ascii "$LAMBDA_TASK_ROOT" ++ 0x2f :: (ascii "lib " ++
        (ascii "$LAMBDA_TASK_ROOT" ++ 0x2f :: ascii "bin/"))) := by decide +kernel
  have hend : ascii " $\x7b_HANDLER\x7d" ++ [0x0a] = ascii " " ++ ascii "$\x7b_HANDLER\x7d\n" := by
    decide +kernel
  unfold bootstrap_script exec_line
  rw [hstart, hmiddle, List.append_assoc _ _ [0x0a], hend]
  simp only [List.append_assoc, List.cons_append]

/-- The words of the last line up to the handler's. -/
theorem loader_argv_words {root PKG_LD PKG_BIN_FILENAME : Bytes} (htask : IsTaskRoot root)
    (hloader : ∀ b ∈ PKG_LD, is_ordinary b) (hname : ∀ b ∈ PKG_BIN_FILENAME, is_ordinary b) :
    ∀ w ∈ ascii "exec" :: loader_argv root PKG_LD PKG_BIN_FILENAME,
      OneWord w ∧ has_glob w = false := by
  have hpath : ∀ dir s, (∀ b ∈ dir, is_ordinary b) → dir ≠ [] → (∀ b ∈ s, is_ordinary b) →
      OneWord (root ++ dir ++ s) ∧ has_glob (root ++ dir ++ s) = false := by
    intro dir s hdir hne hs
    apply word_of_ordinary
    · intro b hb
      rcases List.mem_append.mp hb with hb | hb
      · rcases List.mem_append.mp hb with hb | hb
        · exact htask.ordinary b hb
        · exact hdir b hb
      · exact hs b hb
    · simp [hne]
  have hlib := hpath (ascii "/lib/") PKG_LD (by decide) (by decide) hloader
  have hbin := hpath (ascii "/bin/") PKG_BIN_FILENAME (by decide) (by decide) hname
  have hdir := hpath (ascii "/lib") [] (by decide) (by decide) (by simp)
  have hconst : ∀ w ∈ [ascii "exec", ascii "--library-path"], OneWord w ∧ has_glob w = false := by
    decide
  rw [List.append_nil] at hdir
  unfold loader_argv
  simp only [List.forall_mem_cons] at hconst ⊢
  exact ⟨hconst.1, hlib, hconst.2.1, hdir, hbin, hconst.2.2⟩

theorem expand_exec_line {root handler PKG_LD PKG_BIN_FILENAME : Bytes}
    (hroot : env.parameter (ascii "LAMBDA_TASK_ROOT") = some root)
    (hhandler : env.parameter (ascii "_HANDLER") = some handler)
    (hloader : ∀ b ∈ PKG_LD, is_ordinary b) (hname : ∀ b ∈ PKG_BIN_FILENAME, is_ordinary b) :
    expand_parameters env .text (exec_line PKG_LD PKG_BIN_FILENAME) =
      some ((ascii "exec" :: loader_argv root PKG_LD PKG_BIN_FILENAME).flatMap (· ++ [0x20]) ++
        (handler ++ [0x0a])) := by
  have hplain : ∀ {s s₁ s₂ : Bytes}, (∀ b ∈ s₁, is_ordinary b || is_blank b) →
      (∀ b ∈ s, is_ordinary b) → (∀ b ∈ s₂, is_ordinary b || is_blank b) →
      ∀ b ∈ s₁ ++ s ++ s₂, is_ordinary b || is_blank b := by
    intro s s₁ s₂ h₁ hs h₂ b hb
    rcases List.mem_append.mp hb with hb | hb
    · rcases List.mem_append.mp hb with hb | hb
      · exact h₁ b hb
      · simp [hs b hb]
    · exact h₂ b hb
  unfold exec_line loader_argv
  -- piece by piece: plain text, a parameter, plain text, and so on
  rw [expand_text (by decide), expand_root hroot,
    expand_text (hplain (by decide) hloader (by decide)), expand_root hroot,
    expand_text (by decide), expand_root hroot,
    expand_text (hplain (by decide) hname (by decide)), expand_handler hhandler]
  simp only [Option.map_some, List.flatMap_cons, List.flatMap_nil, List.append_assoc, List.nil_append]
  rfl

/-- **The words of the last line**, when the names are left in one piece. -/
theorem exec_line_words {root handler PKG_LD PKG_BIN_FILENAME : Bytes}
    (hroot : env.parameter (ascii "LAMBDA_TASK_ROOT") = some root) (htask : IsTaskRoot root)
    (hhandler : env.parameter (ascii "_HANDLER") = some handler)
    (hloader : ∀ b ∈ PKG_LD, is_ordinary b) (hname : ∀ b ∈ PKG_BIN_FILENAME, is_ordinary b) :
    command_words env (exec_line PKG_LD PKG_BIN_FILENAME) =
      some (ascii "exec" :: (loader_argv root PKG_LD PKG_BIN_FILENAME ++
        (split_words handler).flatMap (expand env.glob))) := by
  have hargv := loader_argv_words htask hloader hname
  have hhandler_words : split_words (handler ++ [0x0a]) = split_words handler := by
    rw [split_words_blank handler rfl, split_words_nil, List.append_nil]
  unfold command_words
  rw [expand_exec_line hroot hhandler hloader hname, Option.bind_eq_bind, Option.bind_some,
    split_words_line fun w hw => (hargv w hw).1, hhandler_words, List.flatMap_append,
    flatMap_expand fun w hw => (hargv w hw).2]
  rfl

end

/-! ### The whole script -/

section
variable {PKG_LD PKG_BIN_FILENAME : Bytes}

/-- Nothing in the text is an escape, or ends the last line early. -/
theorem bootstrap_script_bytes (hloader : ∀ b ∈ PKG_LD, is_ordinary b)
    (hname : ∀ b ∈ PKG_BIN_FILENAME, is_ordinary b) :
    0x5c ∉ bootstrap_script PKG_LD PKG_BIN_FILENAME ∧
      ∃ body, exec_line PKG_LD PKG_BIN_FILENAME = body ++ [0x0a] ∧ 0x0a ∉ body := by
  have hordinary : ¬ is_ordinary 0x5c ∧ ¬ is_ordinary 0x0a := by decide
  constructor
  · have hconst : ∀ s ∈ [ascii "#!/bin/bash\nset -euo pipefail\nexport AWS_EXECUTION_ENV=lambda-cpp\nexec $LAMBDA_TASK_ROOT/lib/",
        ascii " --library-path $LAMBDA_TASK_ROOT/lib $LAMBDA_TASK_ROOT/bin/",
        ascii " $\x7b_HANDLER\x7d"], (0x5c : UInt8) ∉ s := by decide +kernel
    simp only [List.forall_mem_cons] at hconst
    unfold bootstrap_script
    simp only [List.mem_append, not_or]
    exact ⟨⟨⟨⟨hconst.1, fun h => hordinary.1 (hloader _ h)⟩, hconst.2.1⟩,
      fun h => hordinary.1 (hname _ h)⟩, hconst.2.2.1⟩
  · refine ⟨ascii "exec " ++ (ascii "$LAMBDA_TASK_ROOT" ++ 0x2f :: (ascii "lib/" ++ PKG_LD ++
      ascii " --library-path " ++ (ascii "$LAMBDA_TASK_ROOT" ++ 0x2f :: (ascii "lib " ++
        (ascii "$LAMBDA_TASK_ROOT" ++ 0x2f :: (ascii "bin/" ++ PKG_BIN_FILENAME ++ ascii " " ++
          ascii "$\x7b_HANDLER\x7d")))))), ?_, ?_⟩
    · have hlast : ascii "$\x7b_HANDLER\x7d\n" = ascii "$\x7b_HANDLER\x7d" ++ [0x0a] := by decide
      unfold exec_line
      rw [hlast]
      simp only [List.append_assoc, List.cons_append]
    · have hconst : ∀ s ∈ [ascii "exec ", ascii "$LAMBDA_TASK_ROOT", ascii "lib/",
          ascii " --library-path ", ascii "lib ", ascii "bin/", ascii " ",
          ascii "$\x7b_HANDLER\x7d"], (0x0a : UInt8) ∉ s := by decide
      have hslash : (0x0a : UInt8) ≠ 0x2f := by decide
      have hloader' : 0x0a ∉ PKG_LD := fun h => hordinary.2 (hloader _ h)
      have hname' : 0x0a ∉ PKG_BIN_FILENAME := fun h => hordinary.2 (hname _ h)
      simp only [List.forall_mem_cons] at hconst
      simp [hconst, hslash, hloader', hname']

/-- Ordinary names are launched. -/
theorem launches_of_ordinary (hloader : ∀ b ∈ PKG_LD, is_ordinary b)
    (hname : ∀ b ∈ PKG_BIN_FILENAME, is_ordinary b) :
    Launches (bootstrap_script PKG_LD PKG_BIN_FILENAME) PKG_LD PKG_BIN_FILENAME := by
  intro env root handler hroot htask hhandler _
  -- the four lines, each with its words, and then what the shell does
  obtain ⟨hescape, body, hbody, hline⟩ := bootstrap_script_bytes hloader hname
  have hcut : Bytes.cutLines (bootstrap_script PKG_LD PKG_BIN_FILENAME ++ [0x0a]) =
      [ascii "#!/bin/bash\n", ascii "set -euo pipefail\n",
        ascii "export AWS_EXECUTION_ENV=lambda-cpp\n", exec_line PKG_LD PKG_BIN_FILENAME] := by
    have h₁ : ascii "#!/bin/bash\n" = ascii "#!/bin/bash" ++ [0x0a] := by decide
    have h₂ : ascii "set -euo pipefail\n" = ascii "set -euo pipefail" ++ [0x0a] := by decide
    have h₃ : ascii "export AWS_EXECUTION_ENV=lambda-cpp\n" =
        ascii "export AWS_EXECUTION_ENV=lambda-cpp" ++ [0x0a] := by decide
    rw [bootstrap_script_lines, h₁, h₂, h₃, hbody, List.append_assoc, List.singleton_append,
      Bytes.cutLines_line (by decide), List.append_assoc, List.singleton_append,
      Bytes.cutLines_line (by decide), List.append_assoc, List.singleton_append,
      Bytes.cutLines_line (by decide), Bytes.cutLines_line hline]
    rfl
  have hset : command_words env (ascii "set -euo pipefail\n") =
      some [ascii "set", ascii "-euo", ascii "pipefail"] :=
    plain_words (by decide) (by decide +kernel) (by decide)
  have hexport : command_words env (ascii "export AWS_EXECUTION_ENV=lambda-cpp\n") =
      some [ascii "export", ascii "AWS_EXECUTION_ENV=lambda-cpp"] :=
    plain_words (by decide) (by decide +kernel) (by decide)
  -- the exported variable is neither of the two that are read
  let env' := env.assign (ascii "AWS_EXECUTION_ENV=lambda-cpp")
  have hassign : env'.parameter =
      Function.update env.parameter (ascii "AWS_EXECUTION_ENV") (some (ascii "lambda-cpp")) := rfl
  have hroot' : env'.parameter (ascii "LAMBDA_TASK_ROOT") = some root := by
    rw [hassign, Function.update_of_ne (by decide), hroot]
  have hhandler' : env'.parameter (ascii "_HANDLER") = some handler := by
    rw [hassign, Function.update_of_ne (by decide), hhandler]
  have hoption : (loader_argv root PKG_LD PKG_BIN_FILENAME ++
      (split_words handler).flatMap (expand env'.glob)).head?.any is_option = false := by
    show is_option (root ++ ascii "/lib/" ++ PKG_LD) = false
    have hroot := htask.no_option
    unfold is_option at hroot ⊢
    cases root with
    | nil => rfl
    | cons b root => exact hroot
  have hcomment : (exec_line PKG_LD PKG_BIN_FILENAME).head? ≠ some 0x23 := by
    show some _ ≠ some _
    decide
  have hexec := exec_line_words hroot' htask hhandler' hloader hname
  have hecho : echo_e (bootstrap_script PKG_LD PKG_BIN_FILENAME) =
      some (bootstrap_script PKG_LD PKG_BIN_FILENAME ++ [0x0a]) := if_neg hescape
  unfold bootstrap_argv
  rw [hecho, Option.bind_eq_bind, Option.bind_some, hcut, run_comment rfl, run_continues (by decide) hset rfl,
    run_continues (by decide) hexport rfl]
  exact run_replaced hcomment hexec (run_exec hoption)

/-- A host without files, where the package is in `/var/task`. -/
def var_task : Environment where
  parameter := fun n =>
    if n = ascii "LAMBDA_TASK_ROOT" then some (ascii "/var/task")
    else if n = ascii "_HANDLER" then some []
    else none
  glob := fun _ => []

/-- A name with a blank never is. -/
theorem not_blank_of_launches {text : Bytes} (h : Launches text PKG_LD PKG_BIN_FILENAME) :
    ∀ b ∈ PKG_BIN_FILENAME, is_blank b = false := by
  have hargv := h var_task (ascii "/var/task") [] rfl ⟨by decide, by decide⟩ rfl List.not_mem_nil
  obtain ⟨script, -, hrun⟩ := Option.bind_eq_some_iff.mp hargv
  have hwords := run_script_no_blank (fun _ => rfl) hrun
  intro b hb
  apply hwords (ascii "/var/task" ++ ascii "/bin/" ++ PKG_BIN_FILENAME)
  · simp [loader_argv]
  · exact List.mem_append_right _ hb

/-- **What the bootstrap starts**: the loader on the binary exactly when the
    name of the binary has no blank, among the names that are otherwise
    ordinary. -/
theorem launches_iff (hloader : ∀ b ∈ PKG_LD, is_ordinary b)
    (hname : ∀ b ∈ PKG_BIN_FILENAME, is_ordinary b || is_blank b) :
    Launches (bootstrap_script PKG_LD PKG_BIN_FILENAME) PKG_LD PKG_BIN_FILENAME ↔
      ∀ b ∈ PKG_BIN_FILENAME, is_blank b = false := by
  constructor
  · exact not_blank_of_launches
  · intro hblank
    apply launches_of_ordinary hloader
    intro b hb
    have hb' := hname b hb
    rwa [hblank b hb, Bool.or_false] at hb'

end

example : bootstrap_argv var_task (bootstrap_script (ascii "ld-2.31.so") (ascii "my app")) =
    some (loader_argv (ascii "/var/task") (ascii "ld-2.31.so") (ascii "my") ++ [ascii "app"]) := by
  decide +kernel

end LambdaCpp
