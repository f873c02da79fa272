import Mathlib.Data.List.TakeWhile
import SecReviewBot.Agents.SetupDeclarations

/-!
# Bootstrap of the environment

`setup_bootstrap.py`: each step of the declaration is flattened to one text for the shell, in
which `cd` and the exports stand before the text of `run`. The shell is one of
`ShellPrograms`, so what a step does is what the program does that its text is read as.
-/

namespace SetupBootstrap

open ShellPrograms SetupDeclarations

def workspaceRootInContainer : String := "/workspace"

def quoteChar (c : Char) : List Char := if c = '\'' then "'\"'\"'".toList else [c]

/-- `shlex.quote`. -/
def quote (text : List Char) : List Char :=
  if text = [] then ['\'', '\'']
  else if text.all plainChar then text
  else '\'' :: (text.flatMap quoteChar ++ ['\''])

def stepDirectory (workspaceRoot : String) (step : SetupDeclarationStep) : String :=
  match step.workingDirectory with
  | none => workspaceRoot
  | some directory => if directory = "" then workspaceRoot else s!"{workspaceRoot}/{directory}"

def joinAnd (parts : List (List Char)) : List Char := " && ".toList.intercalate parts

def exportPart (entry : String × String) : List Char :=
  s!"export {entry.1}={String.ofList (quote entry.2.toList)}".toList

def flattenStepCommand (workspaceRoot : String) (step : SetupDeclarationStep) : String :=
  let cd := s!"cd {String.ofList (quote (stepDirectory workspaceRoot step).toList)}".toList
  let exports := if step.env = [] then [] else [joinAnd (step.env.map exportPart)]
  String.ofList (joinAnd ([cd] ++ exports ++ [step.run.toList]))

structure Response where
  /-- An `int` that is no `bool`. -/
  exitCode : Option Int
  output : String

inductive BootstrapStatus
  | notDeclared
  | completed
  | incomplete
  deriving DecidableEq

structure BootstrapStepResult where
  run : String
  exitCode : Int
  output : String

structure BootstrapResult where
  status : BootstrapStatus
  reason : Option String := none
  steps : List BootstrapStepResult := []

def exitCodeUndetermined : Int := -1

def exitCodeFromResponse (response : Response) : Int :=
  response.exitCode.getD exitCodeUndetermined

section Bootstrap

variable {Sandbox : Type*}

/-- A command and its timeout in a sandbox, or the error that the sandbox raises. -/
abbrev Execute (Sandbox : Type*) :=
  (command : String) → (timeout : Nat) → Sandbox → Except String Response × Sandbox

def bootstrapSteps (aexecute : Execute Sandbox) (workspaceRoot : String) :
    List SetupDeclarationStep → (results : List BootstrapStepResult) → Sandbox →
      BootstrapResult × Sandbox
  | [], results, sandbox => ({ status := .completed, steps := results }, sandbox)
  | step :: steps, results, sandbox =>
    match aexecute (flattenStepCommand workspaceRoot step) step.timeoutSeconds sandbox with
    | (.error error, sandbox) =>
      ({ status := .incomplete
         reason := some s!"setup step could not run ({error}): {step.run}"
         steps := results }, sandbox)
    | (.ok response, sandbox) =>
      let exitCode := exitCodeFromResponse response
      let results := results ++ [{ run := step.run, exitCode, output := response.output }]
      if exitCode ≠ 0 then
        ({ status := .incomplete
           reason := some s!"setup step failed (exit {exitCode}): {step.run}"
           steps := results }, sandbox)
      else bootstrapSteps aexecute workspaceRoot steps results sandbox

def bootstrapEnvironment (yaml : Yaml) (maxTimeout : Nat) (aexecute : Execute Sandbox)
    (workspaceRoot : String) (content : Option String) (sandbox : Sandbox) :
    Except String (BootstrapResult × Sandbox) :=
  match content with
  | none => .ok ({ status := .notDeclared }, sandbox)
  | some content =>
    if isBlankSetupDeclaration content then .ok ({ status := .notDeclared }, sandbox)
    else (parseSetupDeclaration yaml maxTimeout content).map fun steps =>
      bootstrapSteps aexecute workspaceRoot steps [] sandbox

end Bootstrap

theorem quoteChar_ordinary {c : Char} (ordinary : c ≠ '\'') : quoteChar c = [c] := if_neg ordinary

theorem mem_quote {text : List Char} (mem : '\x00' ∈ text) : '\x00' ∈ quote text := by
  rw [quote]
  split
  · next empty => simp [empty] at mem
  · split
    · exact mem
    · refine List.mem_cons_of_mem _ (List.mem_append_left _ ?_)
      exact List.mem_flatMap.mpr ⟨_, mem, by decide⟩

theorem lexes_quoteChar {c : Char} (ordinary : '\x00' ≠ c) (w : List Char) :
    Lexes { nest := [.single], word := some w } (quoteChar c)
      { nest := [.single], word := some (w ++ quoteChar c) } [] := by
  by_cases quoted : c = '\''
  · subst quoted
    have step : Lexes { nest := [.single], word := some w } (quoteChar '\'')
        { nest := [.single],
          word := some (((((w ++ ['\'']) ++ ['"']) ++ ['\'']) ++ ['"']) ++ ['\'']) } [] :=
      Lexes.of_scanAll rfl
    simpa [quoteChar] using step
  · rw [quoteChar_ordinary quoted]
    exact lexes_single w (by simpa using ordinary) (by simpa using Ne.symm quoted)

theorem lexes_quoteChars {text : List Char} (ordinary : '\x00' ∉ text) (w : List Char) :
    Lexes { nest := [.single], word := some w } (text.flatMap quoteChar)
      { nest := [.single], word := some (w ++ text.flatMap quoteChar) } [] := by
  induction text generalizing w with
  | nil =>
    rw [List.flatMap_nil, List.append_nil]
    exact Lexes.nil
  | cons c text ih =>
    rw [List.mem_cons, not_or] at ordinary
    have both := (lexes_quoteChar ordinary.1 w).append (ih ordinary.2 (w ++ quoteChar c))
    rw [List.append_assoc] at both
    rw [List.flatMap_cons]
    exact both

/-- A quoted text is one word of the shell, or the rest of one. -/
theorem lexes_quote {text : List Char} (ordinary : '\x00' ∉ text) (w : Option (List Char)) :
    Lexes { word := w } (quote text) { word := some (w.getD [] ++ quote text) } [] := by
  rw [quote]
  split
  · have step : Lexes { word := w } ['\'', '\'']
        { word := some ((w.getD [] ++ ['\'']) ++ ['\'']) } [] := Lexes.of_scanAll rfl
    simpa using step
  · next nonempty =>
    split
    · next plain => exact lexes_plain (List.all_eq_true.mp plain) nonempty
    · have inner := lexes_quoteChars ordinary (w.getD [] ++ ['\''])
      have start : Lexes { word := w } ['\'']
          { nest := [.single], word := some (w.getD [] ++ ['\'']) } [] := Lexes.char rfl
      have stop : ∀ raw, Lexes { nest := [.single], word := some raw } ['\'']
          { word := some (raw ++ ['\'']) } [] := fun raw => Lexes.char rfl
      have all := (start.append inner).append (stop _)
      simpa using all

theorem unquote_quoteChars (text : List Char) :
    unquote .single (text.flatMap quoteChar ++ ['\'']) = some text := by
  induction text with
  | nil => rfl
  | cons c text ih =>
    rw [List.flatMap_cons, List.append_assoc]
    by_cases quoted : c = '\''
    · subst quoted
      have piece : quoteChar '\'' = ['\'', '"', '\'', '"', '\''] := rfl
      simp [piece, unquote, ih]
    · rw [quoteChar_ordinary quoted, List.singleton_append, unquote, if_neg quoted, ih]
      rfl

/-- A quoted text stands for itself. -/
theorem unquote_quote (text : List Char) : unquote .plain (quote text) = some text := by
  rw [quote]
  split
  · next empty =>
    rw [empty]
    rfl
  · split
    · next plain => exact unquote_plain (List.all_eq_true.mp plain)
    · rw [unquote, if_pos rfl, unquote_quoteChars]

section Program

variable {root : String} {step : SetupDeclarationStep}

def setupCommands (root : String) (step : SetupDeclarationStep) : List Command :=
  cdCommand (quote (stepDirectory root step).toList) ::
    step.env.map fun entry => exportCommand entry.1.toList (quote entry.2.toList)

/-- A command as it is written before `&&`. -/
def commandText (command : Command) : List Char := [' '].intercalate command ++ " && ".toList

theorem joinAnd_front (parts : List (List Char)) (last : List Char) :
    joinAnd (parts ++ [last]) = parts.flatMap (· ++ " && ".toList) ++ last := by
  induction parts with
  | nil => simp [joinAnd]
  | cons part parts ih =>
    have nonempty : parts ++ [last] ≠ [] := by simp
    obtain ⟨next, rest, eq⟩ := List.exists_cons_of_ne_nil nonempty
    rw [List.cons_append, List.flatMap_cons, List.append_assoc, ← ih, eq, joinAnd, joinAnd,
      List.intercalate_cons_cons]

theorem commandText_pair (first second : List Char) :
    commandText [first, second] = first ++ ' ' :: second ++ " && ".toList := by
  rw [commandText, List.intercalate_cons_cons, List.intercalate_singleton]
  simp only [List.append_assoc, List.cons_append, List.nil_append]

theorem exportPart_text (entry : String × String) :
    exportPart entry ++ " && ".toList =
      commandText (exportCommand entry.1.toList (quote entry.2.toList)) := by
  rw [exportCommand, commandText_pair, exportPart]
  simp [String.toList_append, toString]

theorem flattenStepCommand_text (root : String) (step : SetupDeclarationStep) :
    (flattenStepCommand root step).toList =
      (setupCommands root step).flatMap commandText ++ step.run.toList := by
  have exports : (if step.env = [] then [] else [joinAnd (step.env.map exportPart)]).flatMap
      (· ++ " && ".toList) = (step.env.map exportPart).flatMap (· ++ " && ".toList) := by
    split
    · next empty => rw [empty]; rfl
    · next declared =>
      have nonempty : step.env.map exportPart ≠ [] := fun empty =>
        declared (List.map_eq_nil_iff.mp empty)
      rw [← List.dropLast_append_getLast nonempty, joinAnd_front, List.flatMap_cons,
        List.flatMap_nil, List.append_nil, List.flatMap_append, List.flatMap_cons,
        List.flatMap_nil, List.append_nil, List.append_assoc]
  rw [flattenStepCommand, String.toList_ofList, joinAnd_front, List.flatMap_append, exports,
    setupCommands, List.flatMap_cons, List.flatMap_cons, cdCommand, commandText_pair]
  simp only [List.flatMap_map, exportPart_text, List.flatMap_nil, List.append_nil]
  simp [String.toList_append, toString]

theorem lexes_and (raw : List Char) :
    Lexes { word := some raw } " && ".toList {} [.word raw, .andIf] := Lexes.of_scanAll rfl

/-- A command of two words before `&&`. -/
theorem lexes_command {builtin word : List Char}
    (first : Lexes {} builtin { word := some builtin } [])
    (second : Lexes {} word { word := some word } []) :
    Lexes {} (commandText [builtin, word]) {} [.word builtin, .word word, .andIf] := by
  rw [commandText_pair, ← List.singleton_append, ← List.append_assoc]
  exact ((first.append (lexes_blank builtin)).append second).append (lexes_and word)

theorem nameChar_plain {c : Char} (own : nameChar c = true) : plainChar c = true := by
  simp only [nameChar, plainChar, Bool.or_eq_true, decide_eq_true_eq] at own ⊢
  rcases own with own | rfl
  · exact .inl own
  · exact .inr (by decide)

/-- The commands before `run`, read to the last `&&`. -/
theorem lexes_setup {commands : List Command}
    (each : ∀ command ∈ commands, ∃ builtin word, command = [builtin, word] ∧
      Lexes {} builtin { word := some builtin } [] ∧ Lexes {} word { word := some word } []) :
    Lexes {} (commands.flatMap commandText) {}
      (commands.flatMap fun command => command.map Token.word ++ [.andIf]) := by
  induction commands with
  | nil => exact Lexes.nil
  | cons command commands ih =>
    obtain ⟨builtin, word, rfl, first, second⟩ := each _ (List.mem_cons_self ..)
    have rest := ih fun command mem => each command (List.mem_cons_of_mem _ mem)
    rw [List.flatMap_cons, List.flatMap_cons]
    exact (lexes_command first second).append rest

/-- Nothing of the data of a step ends a word early: names are names of the shell, and no text
has a NUL. -/
structure PlainData (root : String) (step : SetupDeclarationStep) : Prop where
  directory : '\x00' ∉ (stepDirectory root step).toList
  names : ∀ entry ∈ step.env, isName entry.1.toList = true
  values : ∀ entry ∈ step.env, '\x00' ∉ entry.2.toList

theorem lexes_export {name value : List Char} (valid : isName name = true)
    (ordinary : '\x00' ∉ value) :
    Lexes {} (name ++ '=' :: quote value) { word := some (name ++ '=' :: quote value) } [] := by
  obtain ⟨nonempty, all⟩ := isName_chars valid
  have plain := fun c mem => nameChar_plain (all c mem)
  have equals : Lexes { word := some name } ['='] { word := some (name ++ ['=']) } [] :=
    Lexes.char rfl
  have all := ((lexes_plain (w := none) plain nonempty).append equals).append
    (lexes_quote ordinary (some (name ++ ['='])))
  simpa using all

theorem lexes_setupCommands (plain : PlainData root step) :
    ∀ command ∈ setupCommands root step, ∃ builtin word, command = [builtin, word] ∧
      Lexes {} builtin { word := some builtin } [] ∧ Lexes {} word { word := some word } [] := by
  intro command mem
  rcases List.mem_cons.mp mem with rfl | mem
  · refine ⟨_, _, rfl, Lexes.of_scanAll rfl, ?_⟩
    simpa using lexes_quote plain.directory none
  · obtain ⟨entry, inEnv, rfl⟩ := List.mem_map.mp mem
    exact ⟨_, _, rfl, Lexes.of_scanAll rfl,
      lexes_export (plain.names entry inEnv) (plain.values entry inEnv)⟩

theorem parse_pair {before : List (Command × Connector)} {builtin word : List Char}
    (simple : simpleCommand [builtin, word] = true) (tokens : List Token) :
    parse (.connected before) (.word builtin :: .word word :: .andIf :: tokens) =
      parse (.connected (before ++ [([builtin, word], .andIf)])) tokens := by
  rw [parse, parse, parse, List.singleton_append, if_pos simple]

theorem parse_commands {commands : List Command} (before : List (Command × Connector))
    (each : ∀ command ∈ commands, ∃ builtin word, command = [builtin, word] ∧
      simpleCommand command = true) (tokens : List Token) :
    parse (.connected before)
        ((commands.flatMap fun command => command.map Token.word ++ [.andIf]) ++ tokens) =
      parse (.connected (before ++ commands.map (·, .andIf))) tokens := by
  induction commands generalizing before with
  | nil => simp
  | cons command commands ih =>
    obtain ⟨builtin, word, rfl, simple⟩ := each _ (List.mem_cons_self ..)
    have rest := ih (before ++ [([builtin, word], .andIf)])
      fun command mem => each command (List.mem_cons_of_mem _ mem)
    rw [List.append_assoc, List.singleton_append] at rest
    rw [List.flatMap_cons, List.append_assoc]
    exact (parse_pair simple _).trans rest

theorem setupCommands_simple : ∀ command ∈ setupCommands root step,
    ∃ builtin word, command = [builtin, word] ∧ simpleCommand command = true := by
  intro command mem
  rcases List.mem_cons.mp mem with rfl | mem
  · exact ⟨_, _, rfl, by simp [cdCommand, simpleCommand, reserved]⟩
  · obtain ⟨entry, _, rfl⟩ := List.mem_map.mp mem
    exact ⟨_, _, rfl, by simp [exportCommand, simpleCommand, reserved]⟩

/-- The commands before `run` stand in front of the first list of its program. -/
theorem readProgram_flatten (plain : PlainData root step) :
    readProgram (flattenStepCommand root step) =
      (readProgram step.run).bind (joinFront ((setupCommands root step).map (·, .andIf))) := by
  have lexed := lexes_setup (lexes_setupCommands plain) step.run.toList
  rw [readProgram, flattenStepCommand_text, lexed, readProgram]
  cases lex {} step.run.toList with
  | none => rfl
  | some tokens =>
    rw [Option.map_some, Option.bind_some, Option.bind_some, ← parse_connected]
    -- a list begins like what follows `&&`
    have start : ∀ rest, parse .start ((setupCommands root step).flatMap
        (fun command => command.map Token.word ++ [.andIf]) ++ rest) =
        parse (.connected []) ((setupCommands root step).flatMap
          (fun command => command.map Token.word ++ [.andIf]) ++ rest) := fun rest => rfl
    rw [start, parse_commands [] setupCommands_simple, List.nil_append]

/-- A text with a NUL is none for a shell. -/
theorem lex_nul {s : Scan} {text : List Char} (mem : '\x00' ∈ text) : lex s text = none := by
  induction text generalizing s with
  | nil => exact absurd mem List.not_mem_nil
  | cons c text ih =>
    rw [lex]
    rcases List.mem_cons.mp mem with rfl | mem
    · rfl
    · cases scan s c with
      | none => rfl
      | some scanned =>
        obtain ⟨next, out⟩ := scanned
        simp only [Option.bind_some, ih mem, Option.map_none]

end Program

section Environment

variable {root : String} {step : SetupDeclarationStep}

def addVariable (environment : String → Option String) (entry : String × String) :
    String → Option String :=
  Function.update environment entry.1 (some entry.2)

def declaredEnvironment (step : SetupDeclarationStep) (environment : String → Option String) :
    String → Option String :=
  step.env.foldl addVariable environment

/-- A sandbox that runs each text in a new shell; files and processes stay. -/
def shellSandbox {σ : Type} (shell : Shell σ) (start : State σ) : Execute σ :=
  fun command _ rest =>
    let out := runText shell.exec command { start with rest }
    (.ok { exitCode := some out.1, output := "" }, out.2.rest)

/-- In every shell: where `cd` or an export fails, the step ends there, with the status and the
state of the command that failed, and the bootstrap is incomplete; else `run` is executed where
and with what the step declares. -/
def RunsInEnvironment (root : String) (step : SetupDeclarationStep) (program : Program) : Prop :=
  ∀ (σ : Type) (shell : Shell σ) (start : State σ),
    match prepare shell.exec (setupCommands root step) start with
    | .error stopped =>
      runText shell.exec (flattenStepCommand root step) start = stopped ∧ stopped.1 ≠ 0 ∧
        ∀ later, ∃ reason result, bootstrapSteps (shellSandbox shell start) root (step :: later) []
          start.rest = ({ status := .incomplete, reason, steps := [result] }, stopped.2.rest)
    | .ok ready =>
      ready.directory = stepDirectory root step ∧
        ready.environment = declaredEnvironment step start.environment ∧
        runText shell.exec (flattenStepCommand root step) start =
          runProgram shell.exec program ready

/-- A text that ends with another status than zero stops the bootstrap. -/
theorem bootstrapSteps_stops {σ : Type} {shell : Shell σ} {start : State σ}
    {stopped : Nat × State σ}
    (out : runText shell.exec (flattenStepCommand root step) start = stopped)
    (nonzero : stopped.1 ≠ 0) (later : List SetupDeclarationStep) :
    ∃ reason result, bootstrapSteps (shellSandbox shell start) root (step :: later) []
      start.rest = ({ status := .incomplete, reason, steps := [result] }, stopped.2.rest) := by
  rw [bootstrapSteps]
  simp only [shellSandbox, out]
  have code : exitCodeFromResponse { exitCode := some (stopped.1 : Int), output := "" } ≠ 0 := by
    simpa [exitCodeFromResponse] using nonzero
  rw [if_pos code]
  exact ⟨_, _, rfl⟩

theorem prepare_exports {σ : Type} {shell : Shell σ} {env : List (String × String)}
    (names : ∀ entry ∈ env, isName entry.1.toList = true)
    (values : ∀ entry ∈ env, '\x00' ∉ entry.2.toList) {s ready : State σ}
    (prepared : prepare shell.exec
      (env.map fun entry => exportCommand entry.1.toList (quote entry.2.toList)) s = .ok ready) :
    ready.directory = s.directory ∧
      ready.environment = env.foldl addVariable s.environment := by
  induction env generalizing s with
  | nil =>
    cases prepared
    exact ⟨rfl, rfl⟩
  | cons entry env ih =>
    rw [List.map_cons, prepare] at prepared
    split at prepared
    · next zero =>
      have own := shell.export_succeeds (names entry (List.mem_cons_self ..))
        (unquote_quote entry.2.toList) (values entry (List.mem_cons_self ..)) zero
      have rest := ih (fun entry mem => names entry (List.mem_cons_of_mem _ mem))
        (fun entry mem => values entry (List.mem_cons_of_mem _ mem)) prepared
      rw [own.1, own.2, String.ofList_toList, String.ofList_toList] at rest
      exact rest
    · cases prepared

theorem stepDirectory_absolute (step : SetupDeclarationStep) :
    (stepDirectory workspaceRootInContainer step).toList.head? = some '/' := by
  rw [stepDirectory]
  split
  · decide
  · split
    · decide
    · simp [workspaceRootInContainer, String.toList_append, toString]

theorem prepare_setup {σ : Type} {shell : Shell σ} {s ready : State σ}
    (plain : PlainData workspaceRootInContainer step)
    (prepared : prepare shell.exec (setupCommands workspaceRootInContainer step) s = .ok ready) :
    ready.directory = stepDirectory workspaceRootInContainer step ∧
      ready.environment = declaredEnvironment step s.environment := by
  rw [setupCommands, prepare] at prepared
  split at prepared
  · next zero =>
    have own := shell.cd_succeeds (unquote_quote _) (stepDirectory_absolute step)
      plain.directory zero
    have rest := prepare_exports plain.names plain.values prepared
    rw [own.1, own.2, String.ofList_toList] at rest
    exact rest
  · cases prepared

/-- One list whose commands are joined by `&&` alone. -/
def OneGuardedList (program : Program) : Prop :=
  ∃ list, program = [list] ∧ ∀ entry ∈ list.before, entry.2 = .andIf

theorem runsInEnvironment_of_guarded {program : Program}
    (plain : PlainData workspaceRootInContainer step) (read : readProgram step.run = some program)
    (guarded : OneGuardedList program) :
    RunsInEnvironment workspaceRootInContainer step program := by
  obtain ⟨list, rfl, joined⟩ := guarded
  intro σ shell start
  have run : runText shell.exec (flattenStepCommand workspaceRootInContainer step) start =
      runList shell.exec true (0, start)
        ((setupCommands workspaceRootInContainer step).map (·, .andIf) ++ list.before)
        list.last := by
    rw [runText, readProgram_flatten plain, read]
    rfl
  rw [runList_prepare] at run
  cases prepared : prepare shell.exec (setupCommands workspaceRootInContainer step) start with
  | error stopped =>
    have nonzero := prepare_fails prepared
    rw [prepared] at run
    have out := run.trans (runList_skip nonzero joined list.last)
    exact ⟨out, nonzero, bootstrapSteps_stops out nonzero⟩
  | ok ready =>
    rw [prepared] at run
    obtain ⟨directory, environment⟩ := prepare_setup plain prepared
    exact ⟨directory, environment, run⟩

def emptyState {σ : Type} (rest : σ) : State σ :=
  { directory := "", environment := fun _ => none, rest }

/-- A name that is none of the shell ends in a line break. -/
theorem newline_of_not_isName {name : String} (matched : envNameMatches name = true)
    (other : isName name.toList ≠ true) : '\n' ∈ name.toList := by
  rw [envNameMatches] at matched
  split at matched
  · cases matched
  · next first rest chars =>
    rw [Bool.and_eq_true, List.contains_iff_mem] at matched
    have whole := List.takeWhile_append_dropWhile (p := nameChar) (l := rest)
    rw [chars] at other ⊢
    rcases List.mem_cons.mp matched.2 with ended | broken
    · refine absurd ?_ other
      rw [isName, matched.1, Bool.true_and, List.all_eq_true]
      exact List.dropWhile_eq_nil_iff.mp ended
    · rw [List.mem_singleton.mp broken] at whole
      rw [← whole]
      simp

theorem builtinEffect_environment {name : String} (broken : '\n' ∈ name.toList)
    (command : Command) (s : State Unit) :
    (builtinEffect command s).environment name = s.environment name := by
  simp only [builtinEffect]
  split
  · split
    · split <;> rfl
    · split
      · split
        · split
          · refine Function.update_of_ne ?_ _ _
            rintro rfl
            rw [String.toList_ofList] at broken
            exact absurd (List.mem_takeWhile_imp broken) (by decide)
          · rfl
        · rfl
      · rfl
  · rfl

theorem quiet_prepare_environment {name : String} (broken : '\n' ∈ name.toList)
    {commands : List Command} {s ready : State Unit}
    (prepared : prepare quietShell.exec commands s = .ok ready) :
    ready.environment name = s.environment name := by
  induction commands generalizing s with
  | nil =>
    cases prepared
    rfl
  | cons command commands ih =>
    have zero : (quietShell.exec command s).1 = 0 := rfl
    rw [prepare, if_pos zero] at prepared
    rw [ih prepared]
    exact builtinEffect_environment broken command s

theorem foldl_addVariable {env : List (String × String)} {name : String}
    {environment : String → Option String}
    (declared : environment name ≠ none ∨ ∃ entry ∈ env, entry.1 = name) :
    env.foldl addVariable environment name ≠ none := by
  induction env generalizing environment with
  | nil =>
    rcases declared with already | ⟨entry, mem, _⟩
    · exact already
    · exact absurd mem List.not_mem_nil
  | cons entry env ih =>
    refine ih ?_
    by_cases own : entry.1 = name
    · refine .inl ?_
      rw [addVariable, own, Function.update_self]
      exact Option.some_ne_none _
    · rcases declared with already | ⟨other, mem, eq⟩
      · refine .inl ?_
        rw [addVariable, Function.update_of_ne (Ne.symm own)]
        exact already
      · rcases List.mem_cons.mp mem with rfl | mem
        · exact absurd eq own
        · exact .inr ⟨other, mem, eq⟩

/-- A text that the shell rejects does not run the program of the step. -/
theorem not_runs_of_rejected {program : Program}
    (rejected : readProgram (flattenStepCommand root step) = none) :
    ¬ RunsInEnvironment root step program := by
  intro runs
  obtain ⟨ready, prepared⟩ := quiet_prepare (setupCommands root step) (emptyState ())
  have out := runs Unit quietShell (emptyState ())
  rw [prepared] at out
  have status := congrArg Prod.fst out.2.2
  rw [runText, rejected, runProgram, quiet_runLists _ rfl] at status
  cases status

theorem names_of_runs {program : Program}
    (matched : ∀ entry ∈ step.env, envNameMatches entry.1 = true)
    (runs : RunsInEnvironment root step program) :
    ∀ entry ∈ step.env, isName entry.1.toList = true := by
  intro entry mem
  by_contra other
  have broken := newline_of_not_isName (matched entry mem) other
  obtain ⟨ready, prepared⟩ := quiet_prepare (setupCommands root step) (emptyState ())
  have out := runs Unit quietShell (emptyState ())
  rw [prepared] at out
  have own := congrFun out.2.1 entry.1
  rw [quiet_prepare_environment broken prepared] at own
  exact foldl_addVariable (.inr ⟨entry, mem, rfl⟩) own.symm

theorem readProgram_nul {text : String} (mem : '\x00' ∈ text.toList) : readProgram text = none := by
  rw [readProgram, lex_nul mem, Option.bind_none]

theorem mem_flatten {command : Command} (own : command ∈ setupCommands root step)
    {word : List Char} (inCommand : word ∈ command) (nul : '\x00' ∈ word) :
    '\x00' ∈ (flattenStepCommand root step).toList := by
  rw [flattenStepCommand_text]
  refine List.mem_append_left _ (List.mem_flatMap.mpr ⟨command, own, ?_⟩)
  obtain ⟨builtin, last, rfl, _⟩ := setupCommands_simple command own
  rw [commandText_pair]
  refine List.mem_append_left _ (List.mem_append.mpr ?_)
  rcases List.mem_cons.mp inCommand with rfl | inCommand
  · exact .inl nul
  · rw [List.mem_singleton.mp inCommand] at nul
    exact .inr (List.mem_cons_of_mem _ nul)

theorem plainData_of_runs {program : Program}
    (matched : ∀ entry ∈ step.env, envNameMatches entry.1 = true)
    (runs : RunsInEnvironment root step program) : PlainData root step where
  names := names_of_runs matched runs
  directory := by
    intro nul
    refine not_runs_of_rejected (readProgram_nul ?_) runs
    exact mem_flatten (List.mem_cons_self ..) (List.mem_cons_of_mem _ (List.mem_cons_self ..))
      (mem_quote nul)
  values := by
    intro entry mem nul
    refine not_runs_of_rejected (readProgram_nul ?_) runs
    refine mem_flatten (List.mem_cons_of_mem _ (List.mem_map_of_mem mem))
      (List.mem_cons_of_mem _ (List.mem_cons_self ..)) ?_
    exact List.mem_append_right _ (List.mem_cons_of_mem _ (mem_quote nul))

theorem guarded_of_runs {program : Program} (plain : PlainData root step)
    (read : readProgram step.run = some program) (runs : RunsInEnvironment root step program) :
    OneGuardedList program := by
  have flat := readProgram_flatten plain
  rw [read, Option.bind_some] at flat
  cases program with
  | nil => exact absurd runs (not_runs_of_rejected flat)
  | cons list lists =>
    have out := runs Nat failingShell (emptyState 0)
    have stopped : prepare failingShell.exec (setupCommands root step) (emptyState 0) =
        .error (1, emptyState 1) := rfl
    rw [stopped] at out
    have counted := congrArg (fun end_ => end_.2.rest) out.1
    have first : (AndOr.run failingShell.exec { list with
        before := (setupCommands root step).map (·, .andIf) ++ list.before } (emptyState 0)) =
        runList failingShell.exec false (1, emptyState 1) list.before list.last := by
      rw [AndOr.run, runList_prepare, stopped]
    have whole : (runText failingShell.exec (flattenStepCommand root step) (emptyState 0)) =
        runLists failingShell.exec
          (runList failingShell.exec false (1, emptyState 1) list.before list.last) lists := by
      rw [runText, flat, ← first]
      rfl
    have atLeast : (emptyState 1).rest ≤
        (runList failingShell.exec false (1, emptyState 1) list.before list.last).2.rest :=
      failing_runList_le false (1, emptyState 1) list.before list.last
    rw [whole] at counted
    refine ⟨list, ?_, ?_⟩
    · cases lists with
      | nil => rfl
      | cons next lists =>
        have begun := failing_run_lt next
          (runList failingShell.exec false (1, emptyState 1) list.before list.last).2
        have after := failing_runLists_le (next.run failingShell.exec
          (runList failingShell.exec false (1, emptyState 1) list.before list.last).2) lists
        rw [runLists] at counted
        simp only at counted
        omega
    · intro entry mem
      by_contra other
      have either : entry.2 = .orIf := by
        cases connector : entry.2 with
        | andIf => exact absurd connector other
        | orIf => rfl
      have traced : (emptyState 1).rest <
          (runList failingShell.exec false (1, emptyState 1) list.before list.last).2.rest :=
        @failing_or_lt (1, emptyState 1) (by simp) list.before list.last ⟨entry, mem, either⟩
      have after := failing_runLists_le
        (runList failingShell.exec false (1, emptyState 1) list.before list.last) lists
      simp only at counted
      omega

/-- A loader that answers with one value, of a text without tags. -/
def untaggedYaml (value : Value) : Yaml where
  events := fun _ => ([], none)
  load := fun _ => .ok value
  str := fun _ => ""
  repr := fun text => text

def agentsStep (run : String) : SetupDeclarationStep where
  run := run
  workingDirectory := some "agents"
  env := [("A", "it's")]
  timeoutSeconds := 300

/-- `setup: [{run: .., working-directory: agents, env: {A: it's}}]`. -/
def agentsDeclaration (run : String) : Value :=
  .dict [(.str "setup", .list [.dict [(.str "run", .str run),
    (.str "working-directory", .str "agents"), (.str "env", .dict [(.str "A", .str "it's")])]])]

end Environment

end SetupBootstrap
