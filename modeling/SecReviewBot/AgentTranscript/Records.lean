import Mathlib.Data.List.Induction
import Mathlib.Data.List.Nodup
import SecReviewBot.Checks
import SecReviewBot.JsonValues

/-!
# Transcript records and files

The contract of agent transcripts: what one record is, and which sequences of records make a
file. A file is given by the values of its non-blank lines, read in order. Two readers and one
writer are held against these rules.
-/

namespace AgentTranscript

open Checks JsonValues

/-- The value of a member; `null` when it is missing. -/
def get (value : Json) (key : String) : Json := (value.member key).getD .null

/-- The names of an object, each once. -/
def keys : Json → List String
  | .obj members => (members.map Prod.fst).eraseDups
  | _ => []

def nonEmptyText : Json → Bool
  | .str text => text ≠ ""
  | _ => false

def isText : Json → Bool
  | .str _ => true
  | _ => false

def isArray : Json → Bool
  | .arr _ => true
  | _ => false

def integer : Json → Option Int
  | .num value => if value.den = 1 then some value.num else none
  | _ => none

/-- The largest integer that Python and JavaScript both count with. -/
def maxSafeInteger : Int := 9007199254740991

/-- The names a record's `event` may have. -/
inductive Kind
  | message
  | modelCallsStart
  | modelCallsEnd
  | modelCallStart
  | modelCallEnd
  deriving DecidableEq

def Kind.name : Kind → String
  | .message => "message"
  | .modelCallsStart => "model_calls_start"
  | .modelCallsEnd => "model_calls_end"
  | .modelCallStart => "model_call_start"
  | .modelCallEnd => "model_call_end"

def kindOf : Json → Option Kind
  | .str name =>
    [.message, .modelCallsStart, .modelCallsEnd, .modelCallStart, .modelCallEnd].find?
      fun kind => kind.name = name
  | _ => none

theorem kindOf_name (kind : Kind) : kindOf (.str kind.name) = some kind := by
  cases kind <;> decide

def kind (event : Json) : Option Kind := kindOf (get event "event")

/-- The sequence number of a record that has one. -/
def seqOf (event : Json) : Int := (integer (get event "seq")).getD 0

def messageId (event : Json) : Json := get (get event "message") "id"

def callId (event : Json) : Json := get event "call_id"

def roles : List String := ["system", "user", "assistant", "tool"]

def statuses : List String := ["completed", "failed", "interrupted"]

def tokenFields : List String :=
  ["input_tokens", "output_tokens", "total_tokens", "cache_read_input_tokens",
    "cache_creation_input_tokens", "reasoning_tokens"]

/-- A nonnegative safe integer. -/
def safeCount (value : Json) : Option Int :=
  (integer value).filter fun n => 0 ≤ n ∧ n ≤ maxSafeInteger

/-- The sum of two counts where both are known. -/
def bothKnown (input output : Option Int) : Option Int :=
  match input, output with
  | some i, some o => some (i + o)
  | _, _ => none

/-- Token usage: exactly the canonical fields, inclusive totals, subsets within them. -/
structure ValidUsage (usage : Json) : Prop where
  object : usage.isObject = true
  fields : (keys usage).Perm tokenFields
  counts : ∀ key ∈ tokenFields, get usage key = .null ∨ (safeCount (get usage key)).isSome
  total : safeCount (get usage "total_tokens") =
    bothKnown (safeCount (get usage "input_tokens")) (safeCount (get usage "output_tokens"))
  caches : ∀ input ∈ safeCount (get usage "input_tokens"),
    (safeCount (get usage "cache_read_input_tokens")).getD 0 +
      (safeCount (get usage "cache_creation_input_tokens")).getD 0 ≤ input
  reasoning : ∀ part ∈ safeCount (get usage "reasoning_tokens"),
    ∀ output ∈ safeCount (get usage "output_tokens"), part ≤ output

structure ValidMessage (message : Json) : Prop where
  object : message.isObject = true
  untyped : message.member "type" = none
  role : get message "role" ∈ roles.map Json.str
  id : nonEmptyText (get message "id") = true
  content : isText (get message "content") = true ∨ isArray (get message "content") = true
  usage : get message "usage_metadata" = .null ∨ ValidUsage (get message "usage_metadata")

/-- What the kind of a record asks of its fields. -/
def ValidFields (event : Json) : Option Kind → Prop
  | some .message => ValidMessage (get event "message")
  | some .modelCallsStart => True
  | some .modelCallsEnd => get event "status" ∈ statuses.map Json.str
  | some .modelCallStart => nonEmptyText (callId event) = true
  | some .modelCallEnd =>
    nonEmptyText (callId event) = true ∧ nonEmptyText (get event "message_id") = true
  | none => False

def labelKeys : List String := ["agent", "source", "run_id", "call_id"]

/-- A list of labels none of which is empty. -/
def isAncestry : Json → Bool
  | .arr items => items.all nonEmptyText
  | _ => false

structure ValidRecord (event : Json) : Prop where
  object : event.isObject = true
  seq : ∃ n ∈ integer (get event "seq"), 1 ≤ n ∧ n ≤ maxSafeInteger
  fields : ValidFields event (kind event)
  labels : ∀ key ∈ labelKeys, get event key = .null ∨ nonEmptyText (get event key) = true
  ancestry : ∀ parents ∈ event.member "parent_ids", isAncestry parents = true
  metadata : ∀ metadata ∈ event.member "metadata", metadata.isObject = true

theorem ValidRecord.positive {event : Json} (valid : ValidRecord event) : 1 ≤ seqOf event := by
  obtain ⟨n, known, low, -⟩ := valid.seq
  rw [Option.mem_def] at known
  rw [seqOf, known]
  exact low

/-- The records of a kind. -/
def ofKind (wanted : Kind) (lines : List Json) : List Json :=
  lines.filter fun e => kind e = some wanted

theorem ofKind_snoc (wanted : Kind) (lines : List Json) (event : Json) :
    ofKind wanted (lines ++ [event]) =
      if kind event = some wanted then ofKind wanted lines ++ [event] else ofKind wanted lines := by
  by_cases same : kind event = some wanted <;> simp [ofKind, same]

/-- The first message record with the id. -/
def response (lines : List Json) (id : Json) : Option Json :=
  (ofKind .message lines).find? fun e => messageId e = id

def Opened (lines : List Json) : Prop := ofKind .modelCallsStart lines ≠ []

instance (lines : List Json) : Decidable (Opened lines) := inferInstanceAs (Decidable (_ ≠ _))

def Closed (lines : List Json) : Prop := ofKind .modelCallsEnd lines ≠ []

instance (lines : List Json) : Decidable (Closed lines) := inferInstanceAs (Decidable (_ ≠ _))

/-- The ids of the calls that have a record of the kind. -/
def callsOf (wanted : Kind) (lines : List Json) : List Json := (ofKind wanted lines).map callId

/-- What the records before it allow a record to be. `named` is the call that a message record
names as its own. -/
def Admits (named : Json → Option Json) (before : List Json) (event : Json) : Option Kind → Prop
  | some .message => response before (messageId event) = none ∧
    (Opened before → ∀ call ∈ named event, call ∈ callsOf .modelCallStart before)
  | some .modelCallsStart => ¬ Opened before
  | some .modelCallsEnd => Opened before
  | some .modelCallStart => Opened before ∧ callId event ∉ callsOf .modelCallStart before
  | some .modelCallEnd => Opened before ∧ callId event ∈ callsOf .modelCallStart before ∧
    callId event ∉ callsOf .modelCallEnd before ∧
    ∃ r ∈ response before (get event "message_id"), callId r = callId event
  | none => False

/-- The record may stand behind the records before it. -/
structure Follows (named : Json → Option Json) (before : List Json) (event : Json) : Prop where
  unfinished : ¬ Closed before
  ascends : ∀ last ∈ before.getLast?, seqOf last < seqOf event
  admitted : Admits named before event (kind event)

/-- A file: every record is valid and follows those before it. -/
inductive WellFormed (named : Json → Option Json) : List Json → Prop
  | nil : WellFormed named []
  | snoc (before : List Json) (event : Json) (file : WellFormed named before)
      (valid : ValidRecord event) (follows : Follows named before event) :
      WellFormed named (before ++ [event])

/-- The contract's own reading: a message names a call unless the field is absent or null. -/
def namedCall (event : Json) : Option Json :=
  if callId event = .null then none else some (callId event)

variable {named : Json → Option Json} {lines before after : List Json} {event : Json}

theorem WellFormed.snoc_iff :
    WellFormed named (before ++ [event]) ↔
      WellFormed named before ∧ ValidRecord event ∧ Follows named before event := by
  constructor
  · intro file
    generalize whole : before ++ [event] = lines at file
    cases file with
    | nil => simp at whole
    | snoc xs x file valid follows =>
      obtain ⟨rfl, rfl⟩ := List.append_inj' whole rfl |>.imp id List.singleton_inj.mp
      exact ⟨file, valid, follows⟩
  · rintro ⟨file, valid, follows⟩
    exact .snoc before event file valid follows

/-- What stands before and behind a record of a file. -/
theorem WellFormed.at_record (file : WellFormed named (before ++ event :: after)) :
    WellFormed named before ∧ ValidRecord event ∧ Follows named before event := by
  induction after using List.reverseRecOn with
  | nil => exact WellFormed.snoc_iff.mp file
  | append_singleton rest last ih =>
    apply ih
    have whole : before ++ event :: (rest ++ [last]) = (before ++ event :: rest) ++ [last] := by simp
    rw [whole] at file
    exact (WellFormed.snoc_iff.mp file).1

theorem WellFormed.of_append (file : WellFormed named (before ++ after)) :
    WellFormed named before := by
  cases after with
  | nil => rwa [List.append_nil] at file
  | cons event later => exact file.at_record.1

theorem WellFormed.valid (file : WellFormed named lines) : ∀ e ∈ lines, ValidRecord e := by
  intro e mem
  obtain ⟨before, after, rfl⟩ := List.append_of_mem mem
  exact file.at_record.2.1

/-- A reader whose every step goes on exactly where the rules allow it reads exactly the files. -/
theorem folds_files {S : Type} {step : S → Json → Except String S} {held : List Json → S}
    (steps : ∀ lines event next, step (held lines) event = .ok next ↔
      (ValidRecord event ∧ Follows named lines event) ∧ next = held (lines ++ [event]))
    {s : S} : lines.foldlM step (held []) = .ok s ↔ WellFormed named lines ∧ s = held lines := by
  induction lines using List.reverseRecOn generalizing s with
  | nil =>
    constructor
    · intro same
      cases same
      exact ⟨.nil, rfl⟩
    · rintro ⟨-, rfl⟩
      rfl
  | append_singleton lines event ih =>
    have whole : (lines ++ [event]).foldlM step (held []) =
        lines.foldlM step (held []) >>= fun s => step s event := by
      rw [List.foldlM_append]
      change (lines.foldlM step (held []) >>= fun s => step s event >>= pure) = _
      simp only [bind_pure]
    rw [whole, bind_ok, WellFormed.snoc_iff]
    constructor
    · rintro ⟨before, read, stepped⟩
      obtain ⟨file, rfl⟩ := ih.mp read
      obtain ⟨⟨valid, follows⟩, rfl⟩ := (steps _ _ _).mp stepped
      exact ⟨⟨file, valid, follows⟩, rfl⟩
    · rintro ⟨⟨file, valid, follows⟩, rfl⟩
      exact ⟨_, ih.mpr ⟨file, rfl⟩, (steps _ _ _).mpr ⟨⟨valid, follows⟩, rfl⟩⟩

theorem ValidRecord.known_kind (valid : ValidRecord event) : ∃ found, kind event = some found := by
  have fields := valid.fields
  cases own : kind event with
  | none =>
    rw [own] at fields
    exact fields.elim
  | some found => exact ⟨found, rfl⟩

theorem lookup_messages (lines : List Json) (id : Json) :
    ((ofKind .message lines).map fun e => (messageId e, e)).lookup id = response lines id := by
  rw [response]
  induction ofKind .message lines with
  | nil => rfl
  | cons e rest ih =>
    rw [List.map_cons, List.lookup_cons, List.find?_cons, ih]
    by_cases same : messageId e = id
    · simp [same]
    · have other : (id == messageId e) = false := beq_eq_false_iff_ne.mpr (Ne.symm same)
      rw [other, decide_eq_false same]

end AgentTranscript
