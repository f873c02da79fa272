import Mathlib.Data.List.Basic
import Mathlib.Logic.Function.Basic
import SecReviewBot.TextCodecs

/-!
# Shell programs

Texts that the shell grammar reads as a sequence of and-or lists of simple commands, and how
such a program is executed. The words of a command are kept as they are written, quotes,
redirections and substitutions included. A text with a here document, a compound command, or
a comment or `case` inside a substitution is not read as a program, and neither is one whose
reading POSIX leaves to the shell (`$'`, `$[`, and `'` in braces that stand in double quotes).
-/

namespace ShellPrograms

inductive Token
  | word (raw : List Char)
  | andIf
  | orIf
  | semicolon
  | newline
  deriving DecidableEq

/-- What is open around the next character, the innermost first. -/
inductive Nest
  | comment
  | single
  | double
  | brace
  | paren
  | backquote
  deriving DecidableEq

/-- A character that the next one decides about. -/
inductive Pending
  | nothing
  | backslash
  | ampersand
  | bar
  | dollar
  | less
  | greater
  | target
  deriving DecidableEq

structure Scan where
  nest : List Nest := []
  pending : Pending := .nothing
  word : Option (List Char) := none
  deriving DecidableEq

namespace Scan

def add (s : Scan) (raw : List Char) : Scan :=
  { s with pending := .nothing, word := some (s.word.getD [] ++ raw) }

def enter (s : Scan) (nest : Nest) : Scan := { s with nest := nest :: s.nest }

/-- The word that a separator ends. -/
def tokens (s : Scan) : List Token :=
  match s.word with
  | none => []
  | some raw => [.word raw]

/-- A character of a word: quotes and substitutions open, an escape waits for its character. -/
def inWord (s : Scan) (opens : List (Char × Nest)) (c : Char) : Scan :=
  if c = '\\' then { s with pending := .backslash }
  else if c = '$' then { s with pending := .dollar }
  else
    match opens.lookup c with
    | some nest => (s.add [c]).enter nest
    | none => s.add [c]

/-- A character inside of what a closing character ends. -/
def inside (s : Scan) (outer : List Nest) (closer : Char) (opens : List (Char × Nest))
    (c : Char) : Scan :=
  if c = closer then { s.add [c] with nest := outer } else s.inWord opens c

end Scan

def quotes : List (Char × Nest) := [('\'', .single), ('"', .double), ('`', .backquote)]

def scanTop (s : Scan) (c : Char) : Option (Scan × List Token) :=
  if c = ' ' ∨ c = '\t' then some ({}, s.tokens)
  else if c = '\n' then some ({}, s.tokens ++ [.newline])
  else if c = ';' then some ({}, s.tokens ++ [.semicolon])
  else if c = '&' then some ({ pending := .ampersand }, s.tokens)
  else if c = '|' then some ({ pending := .bar }, s.tokens)
  else if c = '(' ∨ c = ')' then none
  else if c = '<' then some ({ s.add [c] with pending := .less }, [])
  else if c = '>' then some ({ s.add [c] with pending := .greater }, [])
  else if c = '#' ∧ s.word = none then some ({ nest := [.comment] }, [])
  else some (s.inWord quotes c, [])

/-- Inside a substitution, what has quotes or parentheses of its own: a comment, a here document,
the patterns of `case`. -/
def notRead (raw : List Char) (c : Char) : Bool :=
  let breaks := [' ', '\t', '\n', ';', '&', '|', '(', ')', '<', '>']
  match c, raw.reverse with
  | '#', last :: _ => breaks.contains last
  | '<', last :: _ => last = '<'
  | 'e', 's' :: 'a' :: 'c' :: last :: _ => breaks.contains last
  | _, _ => false

def scanNest (s : Scan) (c : Char) : Option (Scan × List Token) :=
  match s.nest with
  | [] => scanTop s c
  | .comment :: _ => some (if c = '\n' then ({}, [.newline]) else (s, []))
  | .single :: outer =>
    some (if c = '\'' then { s.add [c] with nest := outer } else s.add [c], [])
  | .double :: outer => some (s.inside outer '"' [('`', .backquote)] c, [])
  | .backquote :: outer => some (s.inside outer '`' [] c, [])
  | .paren :: outer =>
    if notRead (s.word.getD []) c then none
    else some (s.inside outer ')' (('(', .paren) :: quotes) c, [])
  | .brace :: outer =>
    -- with double quotes around, it depends on the expansion whether a single quote opens
    if .double ∈ outer ∧ c = '\'' then none else some (s.inside outer '}' quotes c, [])

/-- A redirection is followed by the file it is from or to. -/
def scanTarget (s : Scan) (c : Char) : Option (Scan × List Token) :=
  if c = ' ' ∨ c = '\t' then some ({ pending := .target }, s.tokens)
  else if ['\n', ';', '&', '|', '(', ')', '<', '>', '#'].contains c then none
  else scanNest { s with pending := .nothing } c

def scan (s : Scan) (c : Char) : Option (Scan × List Token) :=
  if c = '\x00' then none
  else
    match s.pending with
    | .nothing => scanNest s c
    | .backslash =>
      if c ≠ '\n' then some (s.add ['\\', c], [])
      -- the line break may stand in the middle of an operator
      else if ['$', '<', '>'].any fun last => (s.word.getD []).getLast? = some last then none
      else some ({ s with pending := .nothing }, [])
    | .ampersand => if c = '&' then some ({}, [.andIf]) else none
    | .bar => if c = '|' then some ({}, [.orIf]) else none
    | .dollar =>
      -- backquotes end at the next one, whatever stands in them
      if s.nest.head? = some .backquote then scanNest (s.add ['$']) c
      else if c = '(' then some ((s.add ['$', c]).enter .paren, [])
      else if c = '{' then some ((s.add ['$', c]).enter .brace, [])
      else if c = '$' then some (s.add ['$', c], [])
      else if c = '[' ∨ c = '\'' ∧ s.nest.head? ≠ some .double then none
      else scanNest (s.add ['$']) c
    | .less =>
      if c = '&' ∨ c = '>' then some ({ s.add [c] with pending := .target }, [])
      else scanTarget s c
    | .greater =>
      if c = '&' ∨ c = '|' ∨ c = '>' then some ({ s.add [c] with pending := .target }, [])
      else scanTarget s c
    | .target => scanTarget s c

/-- The tokens at the end of a text, where nothing is left open. -/
def Scan.finish (s : Scan) : Option (List Token) :=
  match s.nest, s.pending with
  | [], .nothing => some s.tokens
  | [], .dollar => some (s.add ['$']).tokens
  | [.comment], _ => some []
  | _, _ => none

def lex : Scan → List Char → Option (List Token)
  | s, [] => s.finish
  | s, c :: text => (scan s c).bind fun (next, out) => (lex next text).map (out ++ ·)

/-- The front of a text takes the scan somewhere, whatever follows. -/
def Lexes (s : Scan) (front : List Char) (next : Scan) (out : List Token) : Prop :=
  ∀ text, lex s (front ++ text) = (lex next text).map (out ++ ·)

section Lexes

variable {s mid next : Scan} {out out' : List Token} {w : Option (List Char)}

theorem Lexes.nil : Lexes s [] s [] := by
  intro text
  cases lexed : lex s text <;> simp [lexed]

theorem Lexes.append {first second : List Char} (before : Lexes s first mid out)
    (after : Lexes mid second next out') : Lexes s (first ++ second) next (out ++ out') := by
  intro text
  rw [List.append_assoc, before, after, Option.map_map]
  congr 1
  funext tokens
  exact (List.append_assoc ..).symm

theorem Lexes.char {c : Char} (scanned : scan s c = some (next, out)) : Lexes s [c] next out := by
  intro text
  rw [List.singleton_append, lex, scanned, Option.bind_some]

/-- The scan of a whole front. -/
def scanAll : Scan → List Char → Option (Scan × List Token)
  | s, [] => some (s, [])
  | s, c :: front =>
    (scan s c).bind fun (mid, out) =>
      (scanAll mid front).map fun (next, later) => (next, out ++ later)

theorem Lexes.of_scanAll {front : List Char} (scanned : scanAll s front = some (next, out)) :
    Lexes s front next out := by
  induction front generalizing s out with
  | nil =>
    cases scanned
    exact Lexes.nil
  | cons c front ih =>
    obtain ⟨⟨mid, first⟩, own, scanned⟩ := Option.bind_eq_some_iff.mp scanned
    obtain ⟨⟨last, later⟩, rest, eq⟩ := Option.map_eq_some_iff.mp scanned
    cases eq
    exact (Lexes.char own).append (ih rest)

/-- Characters that stand for themselves in a word. -/
def plainChar (c : Char) : Bool := c.isAlphanum || "_@%+=:,./-".toList.contains c

theorem plainChar_ne {c other : Char} (plain : plainChar c = true)
    (special : plainChar other = false) : c ≠ other := by
  rintro rfl
  rw [plain] at special
  cases special

theorem scan_plain {c : Char} (plain : plainChar c = true) :
    scan { word := w } c = some ({ word := some (w.getD [] ++ [c]) }, []) := by
  have other : ∀ d ∈ ['\x00', ' ', '\t', '\n', ';', '&', '|', '(', ')', '<', '>', '#', '\\', '$',
      '\'', '"', '`'], c ≠ d := by
    intro d mem
    refine plainChar_ne plain ?_
    revert d
    decide
  simp only [List.mem_cons, List.not_mem_nil, or_false, forall_eq_or_imp, forall_eq] at other
  have quote : ∀ d ∈ ['\'', '"', '`'], (c == d) = false := by
    simp [other]
  simp only [List.mem_cons, List.not_mem_nil, or_false, forall_eq_or_imp, forall_eq] at quote
  simp [scan, scanNest, scanTop, Scan.inWord, quotes, List.lookup_cons, Scan.add, other, quote]

theorem lexes_plain {raw : List Char} (plain : ∀ c ∈ raw, plainChar c = true)
    (nonempty : raw ≠ []) : Lexes { word := w } raw { word := some (w.getD [] ++ raw) } [] := by
  induction raw generalizing w with
  | nil => exact absurd rfl nonempty
  | cons c raw ih =>
    have first := Lexes.char (scan_plain (w := w) (plain c (List.mem_cons_self ..)))
    cases raw with
    | nil => exact first
    | cons d raw =>
      have rest := ih (w := some (w.getD [] ++ [c]))
        (fun c mem => plain c (List.mem_cons_of_mem _ mem)) (List.cons_ne_nil _ _)
      have both := first.append rest
      rw [Option.getD_some, List.append_assoc] at both
      exact both

theorem lexes_single {raw : List Char} (w : List Char) (ordinary : '\x00' ∉ raw)
    (unquoted : '\'' ∉ raw) :
    Lexes { nest := [.single], word := some w } raw
      { nest := [.single], word := some (w ++ raw) } [] := by
  induction raw generalizing w with
  | nil =>
    rw [List.append_nil]
    exact Lexes.nil
  | cons c raw ih =>
    rw [List.mem_cons, not_or] at ordinary unquoted
    have first : scan { nest := [.single], word := some w } c =
        some ({ nest := [.single], word := some (w ++ [c]) }, []) := by
      simp [scan, scanNest, Scan.add, Ne.symm ordinary.1, Ne.symm unquoted.1]
    have both := (Lexes.char first).append (ih (w ++ [c]) ordinary.2 unquoted.2)
    rw [List.append_assoc] at both
    exact both

/-- The end of a word before a blank. -/
theorem lexes_blank (raw : List Char) : Lexes { word := some raw } [' '] {} [.word raw] :=
  Lexes.char rfl

end Lexes

/-- The words of a simple command. -/
abbrev Command := List (List Char)

inductive Connector
  | andIf
  | orIf
  deriving DecidableEq

/-- Commands with what stands after each, and the last one. -/
structure AndOr where
  before : List (Command × Connector)
  last : Command
  deriving DecidableEq

abbrev Program := List AndOr

def reserved : List (List Char) :=
  ["!", "\x7b", "\x7d", "case", "do", "done", "elif", "else", "esac", "fi", "for", "if", "in", "then",
    "until", "while", "[[", "]]", "function", "select"].map String.toList

/-- No reserved word stands first. -/
def simpleCommand (words : Command) : Bool :=
  match words with
  | [] => false
  | first :: _ => !reserved.contains first

inductive Place
  | start
  | command (before : List (Command × Connector)) (words : Command)
  | connected (before : List (Command × Connector))

def parse : Place → List Token → Option Program
  | .start, [] => some []
  | .start, .word raw :: rest => parse (.command [] [raw]) rest
  | .start, .newline :: rest => parse .start rest
  | .start, _ :: _ => none
  | .command before words, [] =>
    if simpleCommand words then some [{ before, last := words }] else none
  | .command before words, .word raw :: rest => parse (.command before (words ++ [raw])) rest
  | .command before words, .andIf :: rest =>
    if simpleCommand words then parse (.connected (before ++ [(words, .andIf)])) rest else none
  | .command before words, .orIf :: rest =>
    if simpleCommand words then parse (.connected (before ++ [(words, .orIf)])) rest else none
  | .command before words, _ :: rest =>
    if simpleCommand words then (parse .start rest).map ({ before, last := words } :: ·) else none
  | .connected before, .word raw :: rest => parse (.command before [raw]) rest
  | .connected before, .newline :: rest => parse (.connected before) rest
  | .connected _, _ => none

/-- Commands in front of a program, joined to its first list. -/
def joinFront (front : List (Command × Connector)) : Program → Option Program
  | [] => none
  | list :: lists => some ({ list with before := front ++ list.before } :: lists)

theorem parse_joined (front : List (Command × Connector)) (tokens : List Token) :
    (∀ before words, parse (.command (front ++ before) words) tokens =
      (parse (.command before words) tokens).bind (joinFront front)) ∧
    ∀ before, parse (.connected (front ++ before)) tokens =
      (parse (.connected before) tokens).bind (joinFront front) := by
  induction tokens with
  | nil =>
    refine ⟨fun before words => ?_, fun before => rfl⟩
    rw [parse, parse]
    split <;> rfl
  | cons token tokens ih =>
    obtain ⟨ihCommand, ihConnected⟩ := ih
    refine ⟨fun before words => ?_, fun before => ?_⟩
    · cases token with
      | word raw => exact ihCommand before (words ++ [raw])
      | andIf | orIf =>
        rw [parse, parse]
        split
        · rw [List.append_assoc]
          exact ihConnected _
        · rfl
      | semicolon | newline =>
        rw [parse, parse]
        split
        · cases parse .start tokens <;> rfl
        · rfl
        all_goals simp
    · cases token with
      | word raw => exact ihCommand before [raw]
      | newline => exact ihConnected before
      | andIf | orIf | semicolon => rfl

/-- What follows `&&` is read as by itself, and must hold a command. -/
theorem parse_connected (front : List (Command × Connector)) (tokens : List Token) :
    parse (.connected front) tokens = (parse .start tokens).bind (joinFront front) := by
  induction tokens with
  | nil => rfl
  | cons token tokens ih =>
    cases token with
    | word raw =>
      have joined := (parse_joined front tokens).1 [] [raw]
      rw [List.append_nil] at joined
      exact joined
    | newline => exact ih
    | andIf | orIf | semicolon => rfl

/-- The program that a text is read as. -/
def readProgram (text : String) : Option Program :=
  (lex {} text.toList).bind (parse .start)

section Execution

variable {σ : Type*}

structure State (σ : Type*) where
  directory : String
  environment : String → Option String
  /-- Files, processes and all else that commands change. -/
  rest : σ

abbrev Exec (σ : Type*) := Command → State σ → Nat × State σ

variable (exec : Exec σ)

/-- Whether a connector goes on to its command after a status. -/
def Connector.goes : Connector → Nat → Bool
  | .andIf, status => status = 0
  | .orIf, status => status ≠ 0

/-- A command that is passed over leaves the status as it is. -/
def runList (go : Bool) (now : Nat × State σ) :
    List (Command × Connector) → Command → Nat × State σ
  | [], last => if go then exec last now.2 else now
  | (command, connector) :: before, last =>
    let next := if go then exec command now.2 else now
    runList (connector.goes next.1) next before last

def AndOr.run (list : AndOr) (s : State σ) : Nat × State σ :=
  runList exec true (0, s) list.before list.last

/-- The lists one after the other, whatever their statuses. -/
def runLists (now : Nat × State σ) : Program → Nat × State σ
  | [] => now
  | list :: lists => runLists (list.run exec now.2) lists

def runProgram (program : Program) (s : State σ) : Nat × State σ := runLists exec (0, s) program

/-- A text that is no program is rejected before anything is executed. -/
def runText (text : String) (s : State σ) : Nat × State σ :=
  match readProgram text with
  | some program => runProgram exec program s
  | none => (2, s)

/-- Commands one after the other, up to the first that fails. -/
def prepare : List Command → State σ → Except (Nat × State σ) (State σ)
  | [], s => .ok s
  | command :: commands, s =>
    let next := exec command s
    if next.1 = 0 then prepare commands next.2 else .error next

variable {exec} {commands : List Command} {s : State σ}

theorem prepare_fails {stopped : Nat × State σ} (fails : prepare exec commands s = .error stopped) :
    stopped.1 ≠ 0 := by
  induction commands generalizing s with
  | nil => cases fails
  | cons command commands ih =>
    rw [prepare] at fails
    split at fails
    · exact ih fails
    · next nonzero =>
      cases fails
      exact nonzero

/-- What a failure passes over, as far as no `||` stands in it. -/
theorem runList_pass {now : Nat × State σ} (nonzero : now.1 ≠ 0)
    {guarded : List (Command × Connector)} (joined : ∀ entry ∈ guarded, entry.2 = .andIf)
    (before : List (Command × Connector)) (last : Command) :
    runList exec false now (guarded ++ before) last = runList exec false now before last := by
  induction guarded with
  | nil => rfl
  | cons entry guarded ih =>
    obtain ⟨command, connector⟩ := entry
    obtain rfl : connector = .andIf := joined _ (List.mem_cons_self ..)
    rw [List.cons_append, runList]
    simp only [Bool.false_eq_true, if_false, Connector.goes, nonzero, decide_false]
    exact ih fun entry mem => joined entry (List.mem_cons_of_mem _ mem)

theorem runList_skip {now : Nat × State σ} (nonzero : now.1 ≠ 0)
    {before : List (Command × Connector)} (joined : ∀ entry ∈ before, entry.2 = .andIf)
    (last : Command) : runList exec false now before last = now := by
  rw [← List.append_nil before, runList_pass nonzero joined]
  rfl

/-- Commands that are joined to the front of a list by `&&`. -/
theorem runList_prepare (before : List (Command × Connector)) (last : Command) :
    runList exec true (0, s) (commands.map (·, .andIf) ++ before) last =
      match prepare exec commands s with
      | .ok ready => runList exec true (0, ready) before last
      | .error stopped => runList exec false stopped before last := by
  induction commands generalizing s with
  | nil => rfl
  | cons command commands ih =>
    rw [List.map_cons, List.cons_append, runList, prepare]
    simp only [if_true, Connector.goes]
    by_cases zero : (exec command s).1 = 0
    · have out : exec command s = (0, (exec command s).2) := Prod.ext zero rfl
      rw [if_pos zero, ← ih, decide_eq_true zero, out]
    · rw [if_neg zero, decide_eq_false zero]
      refine runList_pass zero ?_ before last
      intro entry mem
      obtain ⟨other, _, rfl⟩ := List.mem_map.mp mem
      rfl

end Execution

inductive Quoting
  | plain
  | single
  | double

/-- The text that a word stands for, where nothing in it is expanded. -/
def unquote : Quoting → List Char → Option (List Char)
  | .plain, [] => some []
  | .plain, c :: raw =>
    if c = '\'' then unquote .single raw
    else if c = '"' then unquote .double raw
    else if plainChar c then (unquote .plain raw).map (c :: ·)
    else none
  | .single, c :: raw =>
    if c = '\'' then unquote .plain raw else (unquote .single raw).map (c :: ·)
  | .double, c :: raw =>
    if c = '"' then unquote .plain raw
    else if ['$', '`', '\\'].contains c then none
    else (unquote .double raw).map (c :: ·)
  | _, [] => none

theorem unquote_plain {raw : List Char} (plain : ∀ c ∈ raw, plainChar c = true) :
    unquote .plain raw = some raw := by
  induction raw with
  | nil => rfl
  | cons c raw ih =>
    have own := plain c (List.mem_cons_self ..)
    rw [unquote, if_neg (plainChar_ne own (by decide)), if_neg (plainChar_ne own (by decide)),
      if_pos own, ih fun c mem => plain c (List.mem_cons_of_mem _ mem)]
    rfl

def nameStart (c : Char) : Bool := c.isAlpha || c = '_'

def nameChar (c : Char) : Bool := c.isAlphanum || c = '_'

/-- Names that a variable of the shell can have. -/
def isName (name : List Char) : Bool :=
  match name with
  | [] => false
  | first :: rest => nameStart first && rest.all nameChar

def cdCommand (word : List Char) : Command := ["cd".toList, word]

def exportCommand (name word : List Char) : Command := ["export".toList, name ++ '=' :: word]

/-- Commands of a shell, of which `cd` and `export` do as documented where they succeed. The
variables are those that the shell does not keep itself (`PWD` and `OLDPWD`). -/
structure Shell (σ : Type*) where
  exec : Exec σ
  cd_succeeds : ∀ {word dir : List Char} {s : State σ}, unquote .plain word = some dir →
    dir.head? = some '/' → '\x00' ∉ dir → (exec (cdCommand word) s).1 = 0 →
      (exec (cdCommand word) s).2.directory = String.ofList dir ∧
        (exec (cdCommand word) s).2.environment = s.environment
  export_succeeds : ∀ {name word value : List Char} {s : State σ}, isName name = true →
    unquote .plain word = some value → '\x00' ∉ value →
      (exec (exportCommand name word) s).1 = 0 →
      (exec (exportCommand name word) s).2.directory = s.directory ∧
        (exec (exportCommand name word) s).2.environment =
          Function.update s.environment (String.ofList name) (some (String.ofList value))

/-- A shell whose every command fails, with a trace of its failing. -/
def failingShell : Shell Nat where
  exec := fun _ s => (1, { s with rest := s.rest + 1 })
  cd_succeeds := fun _ _ _ zero => absurd zero (by simp)
  export_succeeds := fun _ _ _ zero => absurd zero (by simp)

theorem failing_runList_le (go : Bool) (now : Nat × State Nat)
    (before : List (Command × Connector)) (last : Command) :
    now.2.rest ≤ (runList failingShell.exec go now before last).2.rest := by
  induction before generalizing go now with
  | nil =>
    cases go with
    | true => exact Nat.le_succ _
    | false => exact Nat.le_refl _
  | cons entry before ih =>
    rw [runList]
    cases go with
    | true =>
      refine Nat.le_trans ?_ (ih _ _)
      exact Nat.le_succ now.2.rest
    | false => exact ih _ _

/-- A list that is begun leaves a trace. -/
theorem failing_run_lt (list : AndOr) (s : State Nat) :
    s.rest < (list.run failingShell.exec s).2.rest := by
  rw [AndOr.run]
  cases list.before with
  | nil => exact Nat.lt_succ_self _
  | cons entry before =>
    rw [runList]
    refine Nat.lt_of_lt_of_le ?_ (failing_runList_le _ _ _ _)
    exact Nat.lt_succ_self s.rest

/-- After a failure, what stands behind `||` leaves a trace. -/
theorem failing_or_lt {now : Nat × State Nat} (nonzero : now.1 ≠ 0)
    {before : List (Command × Connector)} (last : Command)
    (either : ∃ entry ∈ before, entry.2 = .orIf) :
    now.2.rest < (runList failingShell.exec false now before last).2.rest := by
  induction before with
  | nil => exact absurd either (by simp)
  | cons entry before ih =>
    obtain ⟨command, connector⟩ := entry
    rw [runList]
    simp only [Bool.false_eq_true, if_false]
    cases connector with
    | orIf =>
      simp only [Connector.goes, decide_eq_true nonzero]
      cases before with
      | nil => exact Nat.lt_succ_self _
      | cons next before =>
        rw [runList]
        refine Nat.lt_of_lt_of_le ?_ (failing_runList_le _ _ _ _)
        exact Nat.lt_succ_self now.2.rest
    | andIf =>
      rw [Connector.goes, decide_eq_false nonzero]
      refine ih ?_
      obtain ⟨entry, mem, eq⟩ := either
      rcases List.mem_cons.mp mem with rfl | mem
      · cases eq
      · exact ⟨entry, mem, eq⟩

theorem failing_runLists_le (now : Nat × State Nat) (program : Program) :
    now.2.rest ≤ (runLists failingShell.exec now program).2.rest := by
  induction program generalizing now with
  | nil => exact Nat.le_refl _
  | cons list program ih => exact Nat.le_trans (Nat.le_of_lt (failing_run_lt list now.2)) (ih _)

/-- What `cd` and `export` do, where nothing else has an effect. -/
def builtinEffect {σ : Type*} (command : Command) (s : State σ) : State σ :=
  match command with
  | [builtin, word] =>
    if builtin = "cd".toList then
      match unquote .plain word with
      | some dir => { s with directory := String.ofList dir }
      | none => s
    else if builtin = "export".toList then
      match word.dropWhile nameChar with
      | '=' :: raw =>
        match unquote .plain raw with
        | some value =>
          let name := String.ofList (word.takeWhile nameChar)
          { s with environment := Function.update s.environment name (some (String.ofList value)) }
        | none => s
      | _ => s
    else s
  | _ => s

theorem isName_chars {name : List Char} (valid : isName name = true) :
    name ≠ [] ∧ ∀ c ∈ name, nameChar c = true := by
  cases name with
  | nil => cases valid
  | cons first rest =>
    rw [isName, Bool.and_eq_true, List.all_eq_true] at valid
    refine ⟨List.cons_ne_nil _ _, fun c mem => ?_⟩
    rcases List.mem_cons.mp mem with rfl | mem
    · have start := valid.1
      simp only [nameStart, nameChar, Char.isAlphanum, Bool.or_eq_true] at start ⊢
      tauto
    · exact valid.2 c mem

theorem name_span {name word : List Char} (valid : isName name = true) :
    (name ++ '=' :: word).takeWhile nameChar = name ∧
      (name ++ '=' :: word).dropWhile nameChar = '=' :: word := by
  have all := (isName_chars valid).2
  constructor
  · rw [List.takeWhile_append_of_pos all, List.takeWhile_cons_of_neg (by decide), List.append_nil]
  · rw [List.dropWhile_append_of_pos all, List.dropWhile_cons_of_neg (by decide)]

/-- A shell whose every command succeeds. -/
def quietShell : Shell Unit where
  exec := fun command s => (0, builtinEffect command s)
  cd_succeeds := by
    intro word dir s denotes _ _ _
    simp [cdCommand, builtinEffect, denotes]
  export_succeeds := by
    intro name word value s valid denotes _ _
    have different : "export".toList ≠ "cd".toList := by decide
    simp only [exportCommand, builtinEffect, if_neg different, if_true, name_span valid, denotes,
      and_self]

theorem quiet_runList (go : Bool) (now : Nat × State Unit) (zero : now.1 = 0)
    (before : List (Command × Connector)) (last : Command) :
    (runList quietShell.exec go now before last).1 = 0 := by
  induction before generalizing go now with
  | nil =>
    rw [runList]
    split
    · rfl
    · exact zero
  | cons entry before ih =>
    rw [runList]
    refine ih _ _ ?_
    split
    · rfl
    · exact zero

theorem quiet_runLists (now : Nat × State Unit) (zero : now.1 = 0) (program : Program) :
    (runLists quietShell.exec now program).1 = 0 := by
  induction program generalizing now with
  | nil => exact zero
  | cons list program ih => exact ih _ (quiet_runList _ _ rfl _ _)

theorem quiet_prepare (commands : List Command) (s : State Unit) :
    ∃ ready, prepare quietShell.exec commands s = .ok ready := by
  induction commands generalizing s with
  | nil => exact ⟨s, rfl⟩
  | cons command commands ih => exact ih (builtinEffect command s)

end ShellPrograms
