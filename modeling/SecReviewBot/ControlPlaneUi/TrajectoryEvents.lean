import SecReviewBot.AgentTranscript.Records
import SecReviewBot.Checks
import SecReviewBot.FirstOccurrences

/-!
# Transcripts in the viewer

`trajectory-events.ts`: the viewer validates every record and the order of the records. It
reads a missing member as `undefined`, which is not `null`.
-/

namespace TrajectoryEvents

open AgentTranscript Checks JsonValues

def invalid : String := "invalid_trajectory_artifact"

/-- `Number.isSafeInteger(value)`, with the integer. -/
def safeInteger (value : Json) : Option Int :=
  (integer value).filter fun n => -maxSafeInteger ≤ n ∧ n ≤ maxSafeInteger

/-- `value[key] === undefined || value[key] === null || check` -/
def undefinedOrNull (value : Json) (key : String) : Prop :=
  value.member key = none ∨ value.member key = some .null

instance (value : Json) (key : String) : Decidable (undefinedOrNull value key) :=
  inferInstanceAs (Decidable (_ ∨ _))

/-- A count as the viewer computes with it: `null` is unknown. Sums beyond the safe integers
compare with a safe integer as their exact values do. -/
def count (usage : Json) (key : String) : Option Int := safeInteger (get usage key)

def validateUsage (usage : Json) : Except String Unit := do
  require (usage.isObject = true) invalid
  require ((keys usage).length = tokenFields.length ∧ ∀ key ∈ tokenFields, key ∈ keys usage) invalid
  require (∀ key ∈ tokenFields, get usage key = .null ∨ ∃ n ∈ safeInteger (get usage key), 0 ≤ n)
    invalid
  let input := count usage "input_tokens"
  let output := count usage "output_tokens"
  require (count usage "total_tokens" = bothKnown input output) invalid
  require (∀ i ∈ input, (count usage "cache_read_input_tokens").getD 0 +
    (count usage "cache_creation_input_tokens").getD 0 ≤ i) invalid
  require (∀ o ∈ output, ∀ r ∈ count usage "reasoning_tokens", r ≤ o) invalid

def validateMessage (message : Json) : Except String Unit := do
  require (message.isObject = true) invalid
  require (message.member "type" = none) invalid
  require (nonEmptyText (get message "id") = true) invalid
  require (get message "role" ∈ roles.map Json.str) invalid
  require (isText (get message "content") = true ∨ isArray (get message "content") = true) invalid
  if undefinedOrNull message "usage_metadata" then pure ()
  else validateUsage (get message "usage_metadata")

/-- The checks on the fields of one kind of record. -/
def validateFields (value : Json) : Option Kind → Except String Unit
  | some .message => validateMessage (get value "message")
  | some .modelCallsStart => pure ()
  | some .modelCallsEnd => require (get value "status" ∈ statuses.map Json.str) invalid
  | some .modelCallStart => require (nonEmptyText (get value "call_id") = true) invalid
  | some .modelCallEnd => do
    require (nonEmptyText (get value "call_id") = true) invalid
    require (nonEmptyText (get value "message_id") = true) invalid
  | none => throw invalid

/-- Validate one transcript record. -/
def validateTrajectoryEvent (value : Json) : Except String Json := do
  require (value.isObject = true) invalid
  require (∃ seq ∈ safeInteger (get value "seq"), 1 ≤ seq) invalid
  require (∀ key ∈ labelKeys, undefinedOrNull value key ∨ nonEmptyText (get value key) = true)
    invalid
  require (∀ parents ∈ value.member "parent_ids", isAncestry parents = true) invalid
  require (∀ metadata ∈ value.member "metadata", metadata.isObject = true) invalid
  validateFields value (kindOf (get value "event"))
  pure value

/-- What the reader holds between two lines. -/
structure Reading where
  events : List Json := []
  /-- The message records by id. -/
  messages : List (Json × Json) := []
  starts : List Json := []
  ends : List Json := []
  opened : Bool := false
  closed : Bool := false
  previous : Int := 0

/-- How a validated record changes what the reader holds. -/
def readKind (s : Reading) (event : Json) : Option Kind → Except String Reading
  | some .message => do
    let id := messageId event
    require (s.messages.lookup id = none) invalid
    require (¬ (s.opened = true ∧ ∃ call ∈ event.member "call_id", call ∉ s.starts)) invalid
    pure { s with messages := s.messages ++ [(id, event)] }
  | some .modelCallsStart => do
    require (s.opened = false) invalid
    pure { s with opened := true }
  | some .modelCallsEnd => do
    require (s.opened = true) invalid
    pure { s with closed := true }
  | some .modelCallStart => do
    require (s.opened = true) invalid
    require (get event "call_id" ∉ s.starts) invalid
    pure { s with starts := get event "call_id" :: s.starts }
  | some .modelCallEnd => do
    require (s.opened = true) invalid
    let callId := get event "call_id"
    require (callId ∈ s.starts ∧ callId ∉ s.ends ∧
        ∃ response ∈ s.messages.lookup (get event "message_id"), get response "call_id" = callId)
      invalid
    pure { s with ends := callId :: s.ends }
  | none => pure s

def readLine (s : Reading) (line : Json) : Except String Reading := do
  let event ← validateTrajectoryEvent line
  require (s.closed = false ∧ s.previous < seqOf event) invalid
  let next ← readKind { s with previous := seqOf event } event (kindOf (get event "event"))
  pure { next with events := next.events ++ [event] }

/-- The reader after the lines. -/
def readLines (lines : List Json) : Except String Reading := lines.foldlM readLine {}

def readTrajectoryJsonl (lines : List Json) : Except String (List Json) := do
  let read ← readLines lines
  pure read.events

theorem undefinedOrNull_iff {value : Json} {key : String} :
    undefinedOrNull value key ↔ get value key = .null := by
  rw [undefinedOrNull, AgentTranscript.get]
  cases value.member key with
  | none => simp
  | some found => simp

theorem safeInteger_count {value : Json} :
    (value = .null ∨ ∃ n ∈ safeInteger value, 0 ≤ n) ↔
      value = .null ∨ (safeCount value).isSome = true := by
  refine or_congr Iff.rfl ?_
  rw [safeInteger, safeCount]
  cases integer value with
  | none => simp
  | some n =>
    simp only [Option.mem_def, Option.filter_eq_some_iff, Option.isSome_filter, Option.any_some,
      decide_eq_true_eq, Option.some.injEq]
    constructor
    · rintro ⟨_, ⟨rfl, low, high⟩, nonneg⟩
      exact ⟨nonneg, high⟩
    · rintro ⟨nonneg, high⟩
      exact ⟨n, ⟨rfl, by rw [maxSafeInteger]; omega, high⟩, nonneg⟩

/-- A count that passed its check is the same integer for the contract. -/
theorem count_eq {usage : Json} {key : String}
    (checked : get usage key = .null ∨ ∃ n ∈ safeInteger (get usage key), 0 ≤ n) :
    count usage key = safeCount (get usage key) := by
  rw [count]
  rcases checked with null | ⟨n, known, nonneg⟩
  · rw [null]
    rfl
  · have whole := known
    rw [Option.mem_def, safeInteger, Option.filter_eq_some_iff] at whole
    obtain ⟨found, bounds⟩ := whole
    have bounds : -maxSafeInteger ≤ n ∧ n ≤ maxSafeInteger := of_decide_eq_true bounds
    rw [Option.mem_def.mp known, safeCount, found, Option.filter_some,
      if_pos (decide_eq_true ⟨nonneg, bounds.2⟩)]

theorem fields_iff {usage : Json} :
    ((keys usage).length = tokenFields.length ∧ ∀ key ∈ tokenFields, key ∈ keys usage) ↔
      (keys usage).Perm tokenFields := by
  constructor
  · rintro ⟨length, listed⟩
    have distinct : tokenFields.Nodup := by decide
    exact ((distinct.subperm listed).perm_of_length_le length.le).symm
  · intro perm
    exact ⟨perm.length_eq, fun key mem => perm.mem_iff.mpr mem⟩

/-- The viewer's arithmetic on counts is the contract's. -/
theorem subsets_iff {usage : Json} (counts : ∀ key ∈ tokenFields,
    get usage key = .null ∨ ∃ n ∈ safeInteger (get usage key), 0 ≤ n) :
    (count usage "total_tokens" =
        bothKnown (count usage "input_tokens") (count usage "output_tokens") ∧
      (∀ i ∈ count usage "input_tokens", (count usage "cache_read_input_tokens").getD 0 +
        (count usage "cache_creation_input_tokens").getD 0 ≤ i) ∧
      ∀ o ∈ count usage "output_tokens", ∀ r ∈ count usage "reasoning_tokens", r ≤ o) ↔
    (safeCount (get usage "total_tokens") =
        bothKnown (safeCount (get usage "input_tokens")) (safeCount (get usage "output_tokens")) ∧
      (∀ i ∈ safeCount (get usage "input_tokens"),
        (safeCount (get usage "cache_read_input_tokens")).getD 0 +
          (safeCount (get usage "cache_creation_input_tokens")).getD 0 ≤ i) ∧
      ∀ r ∈ safeCount (get usage "reasoning_tokens"),
        ∀ o ∈ safeCount (get usage "output_tokens"), r ≤ o) := by
  have known : ∀ key ∈ tokenFields, count usage key = safeCount (get usage key) :=
    fun key mem => count_eq (counts key mem)
  rw [known "total_tokens" (by decide), known "input_tokens" (by decide),
    known "output_tokens" (by decide), known "cache_read_input_tokens" (by decide),
    known "cache_creation_input_tokens" (by decide), known "reasoning_tokens" (by decide)]
  refine and_congr Iff.rfl (and_congr Iff.rfl ?_)
  exact ⟨fun h r isPart o isWhole => h o isWhole r isPart,
    fun h o isWhole r isPart => h r isPart o isWhole⟩

theorem validateUsage_ok {usage : Json} {r : Unit} :
    validateUsage usage = .ok r ↔ ValidUsage usage := by
  rw [validateUsage, require_bind, require_bind, require_bind]
  dsimp only
  rw [require_bind, require_bind, require_ok, fields_iff]
  constructor
  · rintro ⟨object, fields, counts, sums⟩
    obtain ⟨total, caches, reasoning⟩ := (subsets_iff counts).mp sums
    exact ⟨object, fields, fun key mem => safeInteger_count.mp (counts key mem), total, caches,
      reasoning⟩
  · intro valid
    have counts : ∀ key ∈ tokenFields,
        get usage key = .null ∨ ∃ n ∈ safeInteger (get usage key), 0 ≤ n :=
      fun key mem => safeInteger_count.mpr (valid.counts key mem)
    exact ⟨valid.object, valid.fields, counts,
      (subsets_iff counts).mpr ⟨valid.total, valid.caches, valid.reasoning⟩⟩

theorem validateMessage_ok {message : Json} {r : Unit} :
    validateMessage message = .ok r ↔ ValidMessage message := by
  rw [validateMessage, require_bind, require_bind, require_bind, require_bind, require_bind]
  have usage : (if undefinedOrNull message "usage_metadata" then pure ()
      else validateUsage (get message "usage_metadata")) = .ok r ↔
        get message "usage_metadata" = .null ∨ ValidUsage (get message "usage_metadata") := by
    by_cases missing : undefinedOrNull message "usage_metadata"
    · rw [if_pos missing]
      exact ⟨fun _ => .inl (undefinedOrNull_iff.mp missing), fun _ => rfl⟩
    · rw [if_neg missing, validateUsage_ok]
      have present : get message "usage_metadata" ≠ .null := mt undefinedOrNull_iff.mpr missing
      exact ⟨.inr, fun either => either.resolve_left present⟩
  rw [usage]
  constructor
  · rintro ⟨object, untyped, id, role, content, usage⟩
    exact ⟨object, untyped, role, id, content, usage⟩
  · intro valid
    exact ⟨valid.object, valid.untyped, valid.id, valid.role, valid.content, valid.usage⟩

theorem validateFields_ok {value : Json} {found : Option Kind} {r : Unit} :
    validateFields value found = .ok r ↔ ValidFields value found := by
  cases found with
  | none => simp [validateFields, ValidFields, throw, throwThe, MonadExceptOf.throw]
  | some found =>
    cases found with
    | message => exact validateMessage_ok
    | modelCallsStart => simp [validateFields, ValidFields, pure, Except.pure]
    | modelCallsEnd => exact require_ok
    | modelCallStart => exact require_ok
    | modelCallEnd => simp only [validateFields, ValidFields, require_bind, require_ok, callId]

/-- The viewer accepts exactly the records that the contract allows. -/
theorem validateTrajectoryEvent_ok {value r : Json} :
    validateTrajectoryEvent value = .ok r ↔ ValidRecord value ∧ r = value := by
  have seq : (∃ seq ∈ safeInteger (get value "seq"), 1 ≤ seq) ↔
      ∃ n ∈ integer (get value "seq"), 1 ≤ n ∧ n ≤ maxSafeInteger := by
    rw [safeInteger]
    simp only [Option.mem_def, Option.filter_eq_some_iff, decide_eq_true_eq]
    constructor
    · rintro ⟨n, ⟨known, -, high⟩, low⟩
      exact ⟨n, known, low, high⟩
    · rintro ⟨n, known, low, high⟩
      exact ⟨n, ⟨known, by rw [maxSafeInteger]; omega, high⟩, low⟩
  rw [validateTrajectoryEvent, require_bind, require_bind, require_bind, require_bind,
    require_bind, bind_ok, seq]
  simp only [undefinedOrNull_iff]
  constructor
  · rintro ⟨object, seq, labels, ancestry, metadata, _, fields, same⟩
    cases same
    exact ⟨⟨object, seq, validateFields_ok.mp fields, labels, ancestry, metadata⟩, rfl⟩
  · rintro ⟨valid, rfl⟩
    exact ⟨valid.object, valid.seq, valid.labels, valid.ancestry, valid.metadata, (),
      validateFields_ok.mpr valid.fields, rfl⟩

/-- What the reader holds after the records of a file. -/
def reading (lines : List Json) : Reading where
  events := lines
  messages := (ofKind .message lines).map fun e => (messageId e, e)
  starts := (callsOf .modelCallStart lines).reverse
  ends := (callsOf .modelCallEnd lines).reverse
  opened := !(ofKind .modelCallsStart lines).isEmpty
  closed := !(ofKind .modelCallsEnd lines).isEmpty
  previous := (lines.getLast?.map seqOf).getD 0

theorem reading_opened (lines : List Json) : (reading lines).opened = true ↔ Opened lines := by
  simp [reading, Opened]

theorem reading_closed (lines : List Json) : (reading lines).closed = true ↔ Closed lines := by
  simp [reading, Closed]

/-- The viewer's reading of a message's call: `null` names a call. -/
def definedCall (event : Json) : Option Json := event.member "call_id"

theorem unstarted_iff (lines : List Json) (event : Json) :
    ¬ ((reading lines).opened = true ∧
      ∃ call ∈ event.member "call_id", call ∉ (reading lines).starts) ↔
        (Opened lines → ∀ call ∈ definedCall event, call ∈ callsOf .modelCallStart lines) := by
  rw [reading_opened, reading, definedCall]
  simp only [List.mem_reverse]
  constructor
  · intro started opened call named
    by_contra missing
    exact started ⟨opened, call, named, missing⟩
  · rintro started ⟨opened, call, named, missing⟩
    exact missing (started opened call named)

/-- Where a record is admitted, the reader holds what the longer file makes it hold. -/
theorem readKind_ok {lines : List Json} {event : Json} {next : Reading} {found : Kind}
    (own : kind event = some found) :
    readKind { reading lines with previous := seqOf event } event (some found) = .ok next ↔
      Admits definedCall lines event (some found) ∧
        next = { reading (lines ++ [event]) with events := lines } := by
  have longer : ∀ wanted, ofKind wanted (lines ++ [event]) =
      if found = wanted then ofKind wanted lines ++ [event] else ofKind wanted lines := by
    intro wanted
    rw [ofKind_snoc, own]
    simp only [Option.some.injEq]
  have done (s : Reading) : (pure s : Except String Reading) = .ok next ↔ next = s := by
    simp [pure, Except.pure, eq_comm]
  have unopened : (reading lines).opened = false ↔ ¬ Opened lines := by
    rw [← reading_opened, Bool.not_eq_true]
  have grown (xs : List Json) : (xs ++ [event]).isEmpty = false := by
    cases xs <;> rfl
  cases found with
  | message =>
    have lookup : (reading lines).messages.lookup (messageId event) =
        response lines (messageId event) := lookup_messages lines _
    rw [readKind]
    dsimp only
    rw [require_bind, require_bind, unstarted_iff, lookup, done, ← and_assoc]
    refine and_congr Iff.rfl ?_
    simp [reading, longer, callsOf]
  | modelCallsStart =>
    rw [readKind, require_bind, done, unopened]
    refine and_congr Iff.rfl ?_
    simp [reading, longer, callsOf, grown]
  | modelCallsEnd =>
    rw [readKind, require_bind, done, reading_opened]
    refine and_congr Iff.rfl ?_
    simp [reading, longer, callsOf, grown]
  | modelCallStart =>
    rw [readKind, require_bind, require_bind, done, ← and_assoc, reading_opened]
    refine and_congr (by simp [reading, Admits, callId]) ?_
    simp [reading, longer, callsOf, callId]
  | modelCallEnd =>
    have lookup : (reading lines).messages.lookup (get event "message_id") =
        response lines (get event "message_id") := lookup_messages lines _
    rw [readKind, require_bind, reading_opened]
    dsimp only
    rw [require_bind, done, ← and_assoc, lookup]
    refine and_congr (by simp [reading, Admits, callId]) ?_
    simp [reading, longer, callsOf, callId]

theorem ascends_iff {lines : List Json} {event : Json} (positive : 1 ≤ seqOf event) :
    (reading lines).previous < seqOf event ↔
      ∀ last ∈ lines.getLast?, seqOf last < seqOf event := by
  rw [reading]
  cases lines.getLast? with
  | none =>
    have zero : (0 : Int) < seqOf event := by omega
    simpa using zero
  | some last => simp

/-- One line more is read exactly when it is valid and follows the lines before it. -/
theorem readLine_ok {lines : List Json} {event : Json} {next : Reading} :
    readLine (reading lines) event = .ok next ↔
      (ValidRecord event ∧ Follows definedCall lines event) ∧
        next = reading (lines ++ [event]) := by
  rw [readLine, bind_ok]
  simp only [validateTrajectoryEvent_ok]
  constructor
  · rintro ⟨_, ⟨valid, read⟩, rest⟩
    rw [read, require_bind, bind_ok] at rest
    obtain ⟨⟨unfinished, ascends⟩, _, stepped, same⟩ := rest
    cases same
    obtain ⟨found, own⟩ := valid.known_kind
    rw [show kindOf (get event "event") = some found from own, readKind_ok own] at stepped
    obtain ⟨admitted, rfl⟩ := stepped
    have open_file : ¬ Closed lines := by
      rw [← reading_closed, unfinished]
      exact Bool.false_ne_true
    exact ⟨⟨valid, open_file, (ascends_iff valid.positive).mp ascends, own.symm ▸ admitted⟩, rfl⟩
  · rintro ⟨⟨valid, follows⟩, rfl⟩
    obtain ⟨found, own⟩ := valid.known_kind
    have admitted := follows.admitted
    rw [own] at admitted
    refine ⟨event, ⟨valid, rfl⟩, ?_⟩
    rw [require_bind, bind_ok, show kindOf (get event "event") = some found from own]
    refine ⟨⟨?_, (ascends_iff valid.positive).mpr follows.ascends⟩, _,
      (readKind_ok own).mpr ⟨admitted, rfl⟩, rfl⟩
    rw [← Bool.not_eq_true, reading_closed]
    exact follows.unfinished

/-- The viewer reads exactly the files of the contract, with `null` for the name of a call. -/
theorem readTrajectoryJsonl_ok {lines events : List Json} :
    readTrajectoryJsonl lines = .ok events ↔ WellFormed definedCall lines ∧ events = lines := by
  have read {s : Reading} : readLines lines = .ok s ↔
      WellFormed definedCall lines ∧ s = reading lines := folds_files fun _ _ _ => readLine_ok
  rw [readTrajectoryJsonl, bind_ok]
  simp only [read]
  constructor
  · rintro ⟨s, ⟨file, rfl⟩, same⟩
    cases same
    exact ⟨file, rfl⟩
  · rintro ⟨file, rfl⟩
    exact ⟨_, ⟨file, rfl⟩, rfl⟩

end TrajectoryEvents
