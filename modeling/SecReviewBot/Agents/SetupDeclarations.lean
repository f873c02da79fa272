import Mathlib.Data.List.Sort
import SecReviewBot.ShellPrograms
import SecReviewBot.TextCodecs

/-!
# Setup declarations

`setup_declaration.py`: the declaration of a repository's environment, parsed strictly. The
YAML library is a parameter that answers with the tags of its events and the value it loads.
-/

namespace SetupDeclarations

open TextCodecs

/-- A value as the loader builds it; the keys of a mapping are distinct. -/
inductive Value
  | null
  | bool (value : Bool)
  | int (value : Int)
  | float (text : String)
  | str (text : String)
  | list (items : List Value)
  | dict (items : List (Value × Value))

inductive LoadError
  | yaml (message : String)
  /-- A bare error of the loader or a constructor. -/
  | construction (message : String)

/-- The YAML library and how Python renders values. -/
structure Yaml where
  /-- The tags of the events of a text, and the error that ends them. -/
  events : (content : String) → List (Option String) × Option String
  load : (content : String) → Except LoadError Value
  str : Value → String
  repr : (text : String) → String

def defaultStepTimeoutSeconds : Nat := 300

def defaultMaxStepTimeoutSeconds : Nat := 600

def maxSetupDeclarationBytes : Nat := 65536

def allowedStepKeys : List String := ["run", "working-directory", "env", "timeout_seconds"]

/-- `^[A-Za-z_][A-Za-z0-9_]*$`, whose end may stand before a last line break. -/
def envNameMatches (name : String) : Bool :=
  match name.toList with
  | [] => false
  | first :: rest =>
    ShellPrograms.nameStart first &&
      [[], ['\n']].contains (rest.dropWhile ShellPrograms.nameChar)

structure SetupDeclarationStep where
  run : String
  workingDirectory : Option String
  env : List (String × String)
  timeoutSeconds : Nat

/-- `SEC_REVIEW_SETUP_STEP_MAX_SECONDS`, read by `int`. -/
def maxStepTimeoutSeconds (int : String → Option Int) (raw : Option String) : Nat :=
  match raw with
  | none => defaultMaxStepTimeoutSeconds
  | some raw =>
    if strip pythonSpace raw = "" then defaultMaxStepTimeoutSeconds
    else
      match int raw with
      | none => defaultMaxStepTimeoutSeconds
      | some value => if 0 < value then value.toNat else defaultMaxStepTimeoutSeconds

def isBlankSetupDeclaration (content : String) : Bool := strip pythonSpace content = ""

def isKey (name : String) : Value → Bool
  | .str text => text = name
  | _ => false

/-- `dict.get`. -/
def get (items : List (Value × Value)) (name : String) : Value :=
  match items.find? fun item => isKey name item.1 with
  | some item => item.2
  | none => .null

section Parsing

variable (yaml : Yaml)

local instance lawfulChars : LawfulBEq (List Char) := List.instLawfulBEq

def unknownKeys (items : List (Value × Value)) (allowed : List String) : List String :=
  ((items.map Prod.fst).filter fun key => !allowed.any fun name => isKey name key).map yaml.str
    |>.insertionSort (· ≤ ·)

def parseWorkingDirectory (value : Value) (label : String) : Except String (Option String) :=
  match value with
  | .null => .ok none
  | .str text =>
    let normalized := strip pythonSpace text
    if normalized = "" then .error s!"{label}.working-directory must be a non-empty string."
    else
      let parts := normalized.toList.splitOn '/'
      if normalized.toList.head? = some '/' ∨ parts.head? = some "..".toList then
        .error (s!"{label}.working-directory must be relative to the repository root: " ++
          yaml.repr text)
      else if "..".toList ∈ parts then
        .error (s!"{label}.working-directory must not escape the repository root: " ++
          yaml.repr text)
      else .ok (some normalized)
  | _ => .error s!"{label}.working-directory must be a non-empty string."

def parseEnvEntry (label : String) (item : Value × Value) : Except String (String × String) :=
  match item with
  | (.str key, .str value) =>
    if envNameMatches key then .ok (key, value)
    else .error (s!"{label}.env has an invalid variable name: " ++ yaml.repr key)
  | _ => .error s!"{label}.env must map string keys to string values."

def parseEnv (value : Value) (label : String) : Except String (List (String × String)) :=
  match value with
  | .null => .ok []
  | .dict items => items.mapM (parseEnvEntry yaml label)
  | _ => .error s!"{label}.env must be a mapping of strings."

def parseTimeout (value : Value) (label : String) (maxTimeout : Nat) : Except String Nat :=
  match value with
  | .null => .ok (min defaultStepTimeoutSeconds maxTimeout)
  | .int seconds =>
    if seconds ≤ 0 then .error s!"{label}.timeout_seconds must be positive."
    else .ok (min seconds.toNat maxTimeout)
  | _ => .error s!"{label}.timeout_seconds must be an integer."

def parseRun (value : Value) (label : String) : Except String String :=
  match value with
  | .null => .error s!"{label} is missing the required 'run' key."
  | .str run =>
    if strip pythonSpace run = "" then .error s!"{label}.run must be a non-empty string."
    else .ok run
  | _ => .error s!"{label}.run must be a non-empty string."

def parseStep (maxTimeout : Nat) (rawStep : Value) (index : Nat) :
    Except String SetupDeclarationStep := do
  let label := s!"setup[{index}]"
  let .dict items := rawStep | .error s!"{label} must be a mapping."
  let unknown := unknownKeys yaml items allowedStepKeys
  if unknown ≠ [] then
    .error (s!"{label} has unsupported key(s): " ++ String.intercalate ", " unknown)
  let run ← parseRun (get items "run") label
  let workingDirectory ← parseWorkingDirectory yaml (get items "working-directory") label
  let env ← parseEnv yaml (get items "env") label
  let timeoutSeconds ← parseTimeout (get items "timeout_seconds") label maxTimeout
  return { run, workingDirectory, env, timeoutSeconds }

def parseSteps (maxTimeout : Nat) :
    (rawSteps : List Value) → (index : Nat) → Except String (List SetupDeclarationStep)
  | [], _ => .ok []
  | rawStep :: rest, index => do
    let step ← parseStep yaml maxTimeout rawStep index
    let steps ← parseSteps maxTimeout rest (index + 1)
    return step :: steps

/-- The first explicit tag among the events, or the error that ends them. -/
def rejectTags (events : List (Option String) × Option String) : Except String Unit :=
  match events.1.filterMap id with
  | tag :: _ =>
    .error (s!"Setup declaration must not use explicit YAML tags ({tag}). " ++
      "Use plain scalars; the YAML 1.2 Core schema already resolves booleans, numbers, and null.")
  | [] =>
    match events.2 with
    | some error => .error s!"Setup declaration is not valid YAML: {error}"
    | none => .ok ()

def loadDeclaration (content : String) : Except String Value :=
  match yaml.load content with
  | .ok parsed => .ok parsed
  | .error (.yaml message) => .error s!"Setup declaration is not valid YAML: {message}"
  | .error (.construction message) =>
    .error s!"Setup declaration could not be constructed: {message}"

def parseSetupDeclaration (maxTimeout : Nat) (content : String) :
    Except String (List SetupDeclarationStep) := do
  if isBlankSetupDeclaration content then
    .error "Setup declaration is blank; blank content means no declaration."
  if content.utf8ByteSize > maxSetupDeclarationBytes then
    .error s!"Setup declaration exceeds {maxSetupDeclarationBytes} bytes."
  rejectTags (yaml.events content)
  let parsed ← loadDeclaration yaml content
  let .dict items := parsed | .error "Setup declaration must be a mapping at the top level."
  let unknown := unknownKeys yaml items ["setup"]
  if unknown ≠ [] then
    .error ("Setup declaration has unsupported top-level key(s): " ++
      String.intercalate ", " unknown)
  match get items "setup" with
  | .null => .error "Setup declaration is missing the required 'setup' key."
  | .list rawSteps => parseSteps yaml maxTimeout rawSteps 0
  | _ => .error "Setup declaration 'setup' must be a list of steps."

end Parsing

section Steps

variable {yaml : Yaml} {maxTimeout : Nat} {step : SetupDeclarationStep}

theorem bind_ok {α β : Type} {x : Except String α} {f : α → Except String β} {b : β}
    (bound : (x >>= f) = .ok b) : ∃ a, x = .ok a ∧ f a = .ok b := by
  cases x with
  | error message => cases bound
  | ok a => exact ⟨a, rfl, bound⟩

theorem parseEnvEntry_name {label : String} {item : Value × Value} {entry : String × String}
    (parsed : parseEnvEntry yaml label item = .ok entry) : envNameMatches entry.1 = true := by
  obtain ⟨key, value⟩ := item
  cases key with
  | str key =>
    cases value with
    | str value =>
      rw [parseEnvEntry] at parsed
      split at parsed
      · next valid =>
        cases parsed
        exact valid
      · cases parsed
    | null | bool | int | float | list | dict => cases parsed
  | null | bool | int | float | list | dict => cases parsed

theorem parseEnv_names {value : Value} {label : String} {env : List (String × String)}
    (parsed : parseEnv yaml value label = .ok env) :
    ∀ entry ∈ env, envNameMatches entry.1 = true := by
  cases value with
  | null =>
    cases parsed
    exact fun entry mem => absurd mem List.not_mem_nil
  | dict items =>
    rw [parseEnv] at parsed
    induction items generalizing env with
    | nil =>
      cases parsed
      exact fun entry mem => absurd mem List.not_mem_nil
    | cons item items ih =>
      rw [List.mapM_cons] at parsed
      obtain ⟨first, read, parsed⟩ := bind_ok parsed
      obtain ⟨rest, others, parsed⟩ := bind_ok parsed
      cases parsed
      intro entry mem
      rcases List.mem_cons.mp mem with rfl | mem
      · exact parseEnvEntry_name read
      · exact ih others entry mem
  | bool | int | float | str | list => cases parsed

theorem parseStep_names {rawStep : Value} {index : Nat}
    (parsed : parseStep yaml maxTimeout rawStep index = .ok step) :
    ∀ entry ∈ step.env, envNameMatches entry.1 = true := by
  cases rawStep with
  | dict items =>
    rw [parseStep] at parsed
    split at parsed
    · cases parsed
    · obtain ⟨_, _, parsed⟩ := bind_ok parsed
      obtain ⟨_, _, parsed⟩ := bind_ok parsed
      obtain ⟨env, read, parsed⟩ := bind_ok parsed
      obtain ⟨_, _, parsed⟩ := bind_ok parsed
      cases parsed
      exact parseEnv_names read
  | null | bool | int | float | str | list => cases parsed

theorem parseSteps_mem {rawSteps : List Value} {index : Nat} {steps : List SetupDeclarationStep}
    (parsed : parseSteps yaml maxTimeout rawSteps index = .ok steps) (mem : step ∈ steps) :
    ∃ rawStep own, parseStep yaml maxTimeout rawStep own = .ok step := by
  induction rawSteps generalizing index steps with
  | nil =>
    cases parsed
    exact absurd mem List.not_mem_nil
  | cons rawStep rest ih =>
    rw [parseSteps] at parsed
    obtain ⟨first, read, parsed⟩ := bind_ok parsed
    obtain ⟨others, later, parsed⟩ := bind_ok parsed
    cases parsed
    rcases List.mem_cons.mp mem with rfl | mem
    · exact ⟨rawStep, index, read⟩
    · exact ih later mem

/-- Every step of a declaration is one that its own mapping parses to. -/
theorem parseSetupDeclaration_mem {content : String} {steps : List SetupDeclarationStep}
    (parsed : parseSetupDeclaration yaml maxTimeout content = .ok steps) (mem : step ∈ steps) :
    ∃ rawStep index, parseStep yaml maxTimeout rawStep index = .ok step := by
  rw [parseSetupDeclaration] at parsed
  split at parsed
  · cases parsed
  split at parsed
  · cases parsed
  obtain ⟨_, _, parsed⟩ := bind_ok parsed
  obtain ⟨value, _, parsed⟩ := bind_ok parsed
  cases value with
  | dict items =>
    simp only at parsed
    split at parsed
    · cases parsed
    cases setup : get items "setup" with
    | list rawSteps =>
      rw [setup] at parsed
      exact parseSteps_mem parsed mem
    | null | bool | int | float | str | dict =>
      rw [setup] at parsed
      cases parsed
  | null | bool | int | float | str | list => cases parsed

end Steps

end SetupDeclarations
