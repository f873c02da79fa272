import SecReviewBot.Agents.TokenUsage

/-!
# Transcript records

The readers' half of `trajectories.py`: what a record is and which files of records are read.
A file is given by the values of its non-blank lines.
-/

namespace TrajectoryRecords

open AgentTranscript Checks JsonValues TokenUsage

def validateMessage (message : Json) : Except String Unit := do
  require (message.isObject = true ∧ message.member "type" = none)
    "Transcript message must use role"
  require (get message "role" ∈ roles.map Json.str) "Invalid transcript message role"
  require (nonEmptyText (get message "id") = true) "Transcript message requires an ID"
  require (isText (get message "content") = true ∨ isArray (get message "content") = true)
    "Transcript content must be text or content blocks"
  validateTokenUsage (get message "usage_metadata")

/-- The checks on the fields of one kind of record. -/
def validateFields (event : Json) : Option Kind → Except String Unit
  | some .message => validateMessage (get event "message")
  | some .modelCallsStart => .ok ()
  | some .modelCallsEnd =>
    require (get event "status" ∈ statuses.map Json.str) "Invalid transcript execution status"
  | some .modelCallStart =>
    require (nonEmptyText (get event "call_id") = true) "Transcript model call requires an ID"
  | some .modelCallEnd => do
    require (nonEmptyText (get event "call_id") = true) "Transcript model call requires an ID"
    require (nonEmptyText (get event "message_id") = true)
      "Transcript call end requires a response ID"
  | none => .error "Unknown transcript event"

/-- Absent, `None`, or text that is not empty. -/
def isLabel (value : Json) : Prop := value = .null ∨ nonEmptyText value = true

instance (value : Json) : Decidable (isLabel value) :=
  inferInstanceAs (Decidable (_ ∨ _))

/-- Validate one transcript record. -/
def validateTrajectoryEvent (event : Json) : Except String Json := do
  require (event.isObject = true) "Transcript record must be an object"
  require (∃ seq ∈ integer (get event "seq"), 1 ≤ seq ∧ seq ≤ 9007199254740991)
    "Transcript seq must be a positive integer"
  validateFields event (kindOf (get event "event"))
  require (∀ metadata ∈ event.member "metadata", metadata.isObject = true)
    "Invalid transcript metadata"
  labelKeys.forM fun key =>
    require (isLabel (get event key)) ("Invalid transcript " ++ key)
  require (∀ parents ∈ event.member "parent_ids", isAncestry parents = true)
    "Invalid transcript ancestry"
  pure event

/-- What the reader holds between two lines. -/
structure Reading where
  events : List Json := []
  /-- The message records by id. -/
  seen : List (Json × Json) := []
  starts : List Json := []
  ends : List Json := []
  opened : Bool := false
  closed : Bool := false

def readMessage (s : Reading) (event : Json) : Except String Reading := do
  require (s.seen.lookup (messageId event) = none) "Duplicate transcript message ID"
  require (¬ (s.opened = true ∧ get event "call_id" ≠ .null ∧ get event "call_id" ∉ s.starts))
    "Transcript response has no model call start"
  pure { s with seen := s.seen ++ [(messageId event, event)] }

def readCallEnd (s : Reading) (event : Json) : Except String Reading := do
  let callId := get event "call_id"
  require (callId ∈ s.starts ∧ callId ∉ s.ends ∧
      ∃ response ∈ s.seen.lookup (get event "message_id"), get response "call_id" = callId)
    "Inconsistent transcript model call end"
  pure { s with ends := callId :: s.ends }

/-- How a validated record changes what the reader holds. -/
def readKind (s : Reading) (event : Json) : Option Kind → Except String Reading
  | some .message => readMessage s event
  | some .modelCallsStart => do
    require (s.opened = false) "Duplicate transcript recording start"
    pure { s with opened := true }
  | some .modelCallsEnd => do
    require (s.opened = true) "Transcript recording end has no start"
    pure { s with closed := true }
  | some .modelCallStart => do
    require (s.opened = true) "Transcript model call has no recording start"
    require (get event "call_id" ∉ s.starts) "Duplicate transcript model call start"
    pure { s with starts := get event "call_id" :: s.starts }
  | some .modelCallEnd => do
    require (s.opened = true) "Transcript model call has no recording start"
    readCallEnd s event
  | none => pure s

def readLine (s : Reading) (line : Json) : Except String Reading := do
  let event ← validateTrajectoryEvent line
  require (s.closed = false ∧ ∀ last ∈ s.events.getLast?, seqOf last < seqOf event)
    "Invalid transcript record order"
  let next ← readKind s event (kindOf (get event "event"))
  pure { next with events := next.events ++ [event] }

/-- The reader after the lines. -/
def readLines (lines : List Json) : Except String Reading := lines.foldlM readLine {}

/-- Read canonical records; interrupted execution is not malformed JSONL. -/
def parseTrajectoryJsonl (lines : List Json) : Except String (List Json) := do
  let read ← readLines lines
  pure read.events

theorem validateMessage_ok {message : Json} {r : Unit} :
    validateMessage message = .ok r ↔ ValidMessage message := by
  simp only [validateMessage, require_bind, validateTokenUsage_ok]
  constructor
  · rintro ⟨⟨object, untyped⟩, role, id, content, usage⟩
    exact ⟨object, untyped, role, id, content, usage⟩
  · intro valid
    exact ⟨⟨valid.object, valid.untyped⟩, valid.role, valid.id, valid.content, valid.usage⟩

theorem validateFields_ok {event : Json} {found : Option Kind} {r : Unit} :
    validateFields event found = .ok r ↔ ValidFields event found := by
  cases found with
  | none => simp [validateFields, ValidFields]
  | some found =>
    cases found with
    | message => exact validateMessage_ok
    | modelCallsStart => simp [validateFields, ValidFields]
    | modelCallsEnd => exact require_ok
    | modelCallStart => exact require_ok
    | modelCallEnd => simp only [validateFields, ValidFields, require_bind, require_ok, callId]

theorem forM_require {holds : String → Prop} [∀ key, Decidable (holds key)]
    {error : String → String} {all : List String} {r : PUnit} :
    (all.forM fun key => require (holds key) (error key)) = .ok r ↔ ∀ key ∈ all, holds key := by
  induction all with
  | nil => simp [List.forM, pure, Except.pure]
  | cons key rest ih =>
    change (require (holds key) (error key) >>= fun _ =>
      rest.forM fun key => require (holds key) (error key)) = .ok r ↔ _
    rw [require_bind, ih, List.forall_mem_cons]

/-- The runtime accepts exactly the records that the contract allows. -/
theorem validateTrajectoryEvent_ok {event r : Json} :
    validateTrajectoryEvent event = .ok r ↔ ValidRecord event ∧ r = event := by
  have unit {x : Except String Unit} {P : Prop} (known : ∀ r, x = .ok r ↔ P)
      {rest : Unit → Except String Json} :
      (x >>= rest) = .ok r ↔ P ∧ rest () = .ok r := by
    rw [bind_ok]
    constructor
    · rintro ⟨⟨⟩, passed, later⟩
      exact ⟨(known _).mp passed, later⟩
    · rintro ⟨passed, later⟩
      exact ⟨(), (known _).mpr passed, later⟩
  rw [validateTrajectoryEvent, require_bind, require_bind, unit fun _ => validateFields_ok,
    require_bind, unit fun _ => forM_require, require_bind]
  constructor
  · rintro ⟨object, seq, fields, metadata, labels, ancestry, same⟩
    cases same
    exact ⟨⟨object, seq, fields, labels, ancestry, metadata⟩, rfl⟩
  · rintro ⟨valid, rfl⟩
    exact ⟨valid.object, valid.seq, valid.fields, valid.metadata, valid.labels, valid.ancestry, rfl⟩

/-- What the reader holds after the records of a file. -/
def reading (lines : List Json) : Reading where
  events := lines
  seen := (ofKind .message lines).map fun e => (messageId e, e)
  starts := (callsOf .modelCallStart lines).reverse
  ends := (callsOf .modelCallEnd lines).reverse
  opened := !(ofKind .modelCallsStart lines).isEmpty
  closed := !(ofKind .modelCallsEnd lines).isEmpty

theorem reading_opened (lines : List Json) : (reading lines).opened = true ↔ Opened lines := by
  simp [reading, Opened]

theorem reading_closed (lines : List Json) : (reading lines).closed = true ↔ Closed lines := by
  simp [reading, Closed]

theorem unstarted_iff (lines : List Json) (event : Json) :
    ¬ ((reading lines).opened = true ∧ get event "call_id" ≠ .null ∧
      get event "call_id" ∉ (reading lines).starts) ↔
        (Opened lines → ∀ call ∈ namedCall event, call ∈ callsOf .modelCallStart lines) := by
  rw [reading_opened, reading, List.mem_reverse, namedCall, callId]
  by_cases unnamed : get event "call_id" = .null
  · simp [unnamed]
  · rw [if_neg unnamed]
    constructor
    · intro started opened call named
      cases named
      by_contra missing
      exact started ⟨opened, unnamed, missing⟩
    · rintro started ⟨opened, -, missing⟩
      exact missing (started opened _ rfl)

/-- Where a record is admitted, the reader holds what the longer file makes it hold. -/
theorem readKind_ok {lines : List Json} {event : Json} {next : Reading} {found : Kind}
    (own : kind event = some found) :
    readKind (reading lines) event (some found) = .ok next ↔
      Admits namedCall lines event (some found) ∧
        next = { reading (lines ++ [event]) with events := lines } := by
  have longer : ∀ wanted, ofKind wanted (lines ++ [event]) =
      if found = wanted then ofKind wanted lines ++ [event] else ofKind wanted lines := by
    intro wanted
    rw [ofKind_snoc, own]
    simp only [Option.some.injEq]
  have done (s : Reading) : (pure s : Except String Reading) = .ok next ↔ next = s := by
    simp [pure, Except.pure, eq_comm]
  have unopened : (reading lines).opened = false ↔ ¬ Opened lines := by
    rw [← reading_opened, Bool.not_eq_true]
  have grown (xs : List Json) : (xs ++ [event]).isEmpty = false := by
    cases xs <;> rfl
  cases found with
  | message =>
    have lookup : (reading lines).seen.lookup (messageId event) =
        response lines (messageId event) := lookup_messages lines _
    rw [readKind, readMessage, require_bind, require_bind, unstarted_iff, lookup, done,
      ← and_assoc]
    refine and_congr Iff.rfl ?_
    simp [reading, longer, callsOf]
  | modelCallsStart =>
    rw [readKind, require_bind, done, unopened]
    refine and_congr Iff.rfl ?_
    simp [reading, longer, callsOf, grown]
  | modelCallsEnd =>
    rw [readKind, require_bind, done, reading_opened]
    refine and_congr Iff.rfl ?_
    simp [reading, longer, callsOf, grown]
  | modelCallStart =>
    rw [readKind, require_bind, require_bind, done, ← and_assoc, reading_opened]
    refine and_congr (by simp [reading, Admits, callId]) ?_
    simp [reading, longer, callsOf, callId]
  | modelCallEnd =>
    have lookup : (reading lines).seen.lookup (get event "message_id") =
        response lines (get event "message_id") := lookup_messages lines _
    rw [readKind, require_bind, readCallEnd, reading_opened]
    dsimp only
    rw [require_bind, done, ← and_assoc, lookup]
    refine and_congr (by simp [reading, Admits, callId]) ?_
    simp [reading, longer, callsOf, callId]

/-- One line more is read exactly when it is valid and follows the lines before it. -/
theorem readLine_ok {lines : List Json} {event : Json} {next : Reading} :
    readLine (reading lines) event = .ok next ↔
      (ValidRecord event ∧ Follows namedCall lines event) ∧ next = reading (lines ++ [event]) := by
  rw [readLine, bind_ok]
  simp only [validateTrajectoryEvent_ok]
  constructor
  · rintro ⟨_, ⟨valid, read⟩, rest⟩
    rw [read, require_bind, bind_ok] at rest
    obtain ⟨⟨unfinished, ascends⟩, _, stepped, same⟩ := rest
    cases same
    obtain ⟨found, own⟩ := valid.known_kind
    rw [show kindOf (get event "event") = some found from own, readKind_ok own] at stepped
    obtain ⟨admitted, rfl⟩ := stepped
    have open_file : ¬ Closed lines := by
      rw [← reading_closed, unfinished]
      exact Bool.false_ne_true
    exact ⟨⟨valid, open_file, ascends, own.symm ▸ admitted⟩, rfl⟩
  · rintro ⟨⟨valid, follows⟩, rfl⟩
    obtain ⟨found, own⟩ := valid.known_kind
    have admitted := follows.admitted
    rw [own] at admitted
    refine ⟨event, ⟨valid, rfl⟩, ?_⟩
    rw [require_bind, bind_ok, show kindOf (get event "event") = some found from own]
    refine ⟨⟨?_, follows.ascends⟩, _, (readKind_ok own).mpr ⟨admitted, rfl⟩, rfl⟩
    rw [← Bool.not_eq_true, reading_closed]
    exact follows.unfinished

theorem readLines_ok {lines : List Json} {s : Reading} :
    readLines lines = .ok s ↔ WellFormed namedCall lines ∧ s = reading lines :=
  folds_files fun _ _ _ => readLine_ok

/-- The runtime reads exactly the files of the contract. -/
theorem parseTrajectoryJsonl_ok {lines events : List Json} :
    parseTrajectoryJsonl lines = .ok events ↔
      WellFormed namedCall lines ∧ events = lines := by
  rw [parseTrajectoryJsonl, bind_ok]
  simp only [readLines_ok]
  constructor
  · rintro ⟨s, ⟨file, rfl⟩, same⟩
    cases same
    exact ⟨file, rfl⟩
  · rintro ⟨file, rfl⟩
    exact ⟨_, ⟨file, rfl⟩, rfl⟩

end TrajectoryRecords
