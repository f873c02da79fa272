import SecReviewBot.Agents.AgentInvocations
import SecReviewBot.AgentTranscript.ReaderAgreement

/-!
# Transcripts can always be read

However an invocation goes, and wherever it is killed, the lines in the file by then are a file
of the contract. What carries the proof is an invariant of the writer that survives every call,
also one that raises: the lines are a file, later records get larger numbers, and the writer
knows every message id that is recorded.
-/

namespace ReadableTranscripts

open AgentTranscript Checks JsonValues ThrowingPrograms TrajectoryRecords TrajectoryWriter
open AgentInvocations
open TrajectoryEvents (definedCall readTrajectoryJsonl)

variable {c : Context} {m : Message} {w t : Writer} {ids more : List String}
  {starts ends : List Json}

def values (w : Writer) : List Json := w.lines.map Record.json

theorem values_record (w : Writer) (line : Record) :
    values (w.record line) = values w ++ [line.json] := by
  simp [values, Writer.record]

section Records

variable {seq : Nat} {agent source serialized : Json} {found : Kind}
  {fields : List (String × Json)}

theorem kind_message : kind (Record.message seq c agent source serialized).json = some .message :=
  kindOf_name .message

theorem kind_event : kind (Record.event seq found fields).json = some found := kindOf_name found

theorem seqOf_num {event : Json} {n : Nat} (own : get event "seq" = .num n) : seqOf event = n := by
  simp [seqOf, own, integer]

theorem seqOf_message : seqOf (Record.message seq c agent source serialized).json = seq :=
  seqOf_num rfl

theorem seqOf_event : seqOf (Record.event seq found fields).json = seq := seqOf_num rfl

theorem messageId_message :
    messageId (Record.message seq c agent source serialized).json = get serialized "id" := rfl

theorem call_message :
    (Record.message seq c agent source serialized).json.member "call_id" = c.callId := by
  obtain ⟨_, _, runId, parentIds, name, metadata, call⟩ := c
  cases call <;> cases runId <;> cases parentIds <;> cases name <;> cases metadata <;> rfl

end Records

theorem callsOf_snoc {wanted : Kind} {lines : List Json} {event : Json} :
    callsOf wanted (lines ++ [event]) =
      callsOf wanted lines ++ if kind event = some wanted then [callId event] else [] := by
  rw [callsOf, ofKind_snoc]
  split
  · rw [List.map_append, List.map_singleton, callsOf]
  · rw [List.append_nil, callsOf]

theorem closed_snoc {lines : List Json} {event : Json} :
    Closed (lines ++ [event]) ↔ Closed lines ∨ kind event = some .modelCallsEnd := by
  rw [Closed, ofKind_snoc]
  by_cases closes : kind event = some .modelCallsEnd <;> simp [closes, Closed]

theorem opened_snoc {lines : List Json} {event : Json} :
    Opened (lines ++ [event]) ↔ Opened lines ∨ kind event = some .modelCallsStart := by
  rw [Opened, ofKind_snoc]
  by_cases opens : kind event = some .modelCallsStart <;> simp [opens, Opened]

/-- What holds of the writer while the recording is open: `ids` are the messages observed so
far, `starts` and `ends` the calls that have begun and ended. -/
structure Recorded (ids : List String) (starts ends : List Json) (w : Writer) : Prop where
  file : WellFormed definedCall (values w)
  opened : Opened (values w)
  unfinished : ¬ Closed (values w)
  counted : ∀ last ∈ (values w).getLast?, seqOf last ≤ w.seq
  started : callsOf .modelCallStart (values w) = starts
  ended : callsOf .modelCallEnd (values w) = ends
  listed : ∀ e ∈ ofKind .message (values w), ∃ id ∈ w.seenMessageIds, messageId e = .str id
  known : ∀ id ∈ w.seenMessageIds, id ∈ ids
  queued : ∀ entry ∈ w.pendingMessages,
    entry.2.2.callId = none ∧ ensureMessageId entry.2.1 ∈ ids

/-- The same lines, a number no smaller and no message forgotten. -/
theorem Recorded.stopped (recorded : Recorded ids starts ends w) (stopped : Stopped w t)
    (known : ∀ id ∈ t.seenMessageIds, id ∈ ids)
    (queued : ∀ entry ∈ t.pendingMessages,
      entry.2.2.callId = none ∧ ensureMessageId entry.2.1 ∈ ids) :
    Recorded ids starts ends t := by
  have same : values t = values w := congrArg (List.map Record.json) stopped.lines
  refine ⟨same ▸ recorded.file, same ▸ recorded.opened, same ▸ recorded.unfinished, ?_,
    same ▸ recorded.started, same ▸ recorded.ended, ?_, known, queued⟩
  · intro last own
    rw [same] at own
    have before := recorded.counted last own
    have later := stopped.seq
    omega
  · intro e mem
    rw [same] at mem
    obtain ⟨id, seen, own⟩ := recorded.listed e mem
    exact ⟨id, stopped.seen id seen, own⟩

theorem Recorded.mono (recorded : Recorded ids starts ends w) (larger : ids ⊆ more) :
    Recorded more starts ends w :=
  { recorded with
    known := fun id seen => larger (recorded.known id seen)
    queued := fun entry held =>
      ⟨(recorded.queued entry held).1, larger (recorded.queued entry held).2⟩ }

/-- A valid line with the next number is in order wherever it is admitted. -/
theorem Recorded.follows (recorded : Recorded ids starts ends w) {line : Json}
    (valid : validateTrajectoryEvent line = .ok line) (next : seqOf line = w.seq + 1)
    (admitted : Admits definedCall (values w) line (kind line)) :
    WellFormed definedCall (values w ++ [line]) := by
  refine WellFormed.snoc_iff.mpr ⟨recorded.file, (validateTrajectoryEvent_ok.mp valid).1,
    recorded.unfinished, ?_, admitted⟩
  intro last own
  have before := recorded.counted last own
  omega

/-- One more line in the file. -/
theorem Recorded.extend (recorded : Recorded ids starts ends w) {line : Json} {found : Kind}
    (own : kind line = some found) (continues : found ≠ .modelCallsEnd)
    (valid : validateTrajectoryEvent line = .ok line) (number : seqOf line = w.seq + 1)
    (admitted : Admits definedCall (values w) line (some found))
    (lines : values t = values w ++ [line]) (counter : t.seq = w.seq + 1)
    (seen : w.seenMessageIds ⊆ t.seenMessageIds)
    (named : found = .message → ∃ id ∈ t.seenMessageIds, messageId line = .str id)
    (known : ∀ id ∈ t.seenMessageIds, id ∈ ids)
    (queued : ∀ entry ∈ t.pendingMessages,
      entry.2.2.callId = none ∧ ensureMessageId entry.2.1 ∈ ids) :
    Recorded ids (starts ++ if found = .modelCallStart then [callId line] else [])
      (ends ++ if found = .modelCallEnd then [callId line] else []) t := by
  constructor
  · exact lines ▸ recorded.follows valid number (own ▸ admitted)
  · exact lines ▸ opened_snoc.mpr (.inl recorded.opened)
  · rw [lines, closed_snoc, own, Option.some.injEq]
    rintro (closed | closes)
    · exact recorded.unfinished closed
    · exact continues closes
  · intro last isLast
    rw [lines, List.getLast?_concat] at isLast
    cases isLast
    rw [number, counter]
    omega
  · rw [lines, callsOf_snoc, own, recorded.started]
    simp only [Option.some.injEq]
  · rw [lines, callsOf_snoc, own, recorded.ended]
    simp only [Option.some.injEq]
  · have before : ∀ e ∈ ofKind .message (values w),
        ∃ id ∈ t.seenMessageIds, messageId e = .str id := by
      intro e mem
      obtain ⟨id, known, same⟩ := recorded.listed e mem
      exact ⟨id, seen known, same⟩
    intro e mem
    rw [lines, ofKind_snoc] at mem
    split at mem
    · rename_i message
      rcases List.mem_append.mp mem with old | isLast
      · exact before e old
      · rw [List.mem_singleton.mp isLast]
        exact named (Option.some.inj (own.symm.trans message))
    · exact before e mem
  · exact known
  · exact queued

/-- An id that the writer does not know has no message in the file. -/
theorem Recorded.unanswered (recorded : Recorded ids starts ends w) {id : String}
    (fresh : id ∉ w.seenMessageIds) : response (values w) (.str id) = none := by
  rw [response, List.find?_eq_none]
  intro e mem
  obtain ⟨known, seen, own⟩ := recorded.listed e mem
  rw [own, decide_eq_true_eq]
  intro same
  cases same
  exact fresh seen

/-- Writing a message takes at most this message from the queue and into the known ids. -/
structure Takes (m : Message) (w t : Writer) : Prop where
  seen : ∀ id ∈ t.seenMessageIds, id = ensureMessageId m ∨ id ∈ w.seenMessageIds
  queue : ∀ entry ∈ t.pendingMessages, entry ∈ w.pendingMessages

theorem Remembers.takes (remembers : Remembers c m w t) : Takes m w t :=
  ⟨fun _ seen => .inr (remembers.seen ▸ seen), fun _ held => remembers.pending ▸ held⟩

theorem Takes.take (takes : Takes m w t) : Takes m w (t.take (ensureMessageId m)) := by
  refine ⟨fun id seen => ?_, fun entry held => takes.queue entry (List.mem_of_mem_filter held)⟩
  rcases List.mem_cons.mp seen with rfl | before
  · exact .inl rfl
  · exact takes.seen id before

theorem writeMessage_takes (c : Context) (m : Message) (w : Writer) :
    Ends (writeMessage c m) w (fun _ t => Takes m w t) (fun _ t => Takes m w t) := by
  have same : Takes m w w := ⟨fun _ seen => .inr seen, fun _ held => held⟩
  rw [writeMessage, ends_bind]
  refine (isUnchangedSystemMessage_ends c m w).mono ?_ ?_
  · intro unchanged t outcome
    cases unchanged with
    | true =>
      obtain ⟨-, rfl⟩ := outcome
      exact same
    | false =>
      have takes : Takes m w t := Remembers.takes outcome
      have taken := takes.take
      rw [if_neg Bool.false_ne_true, ends_bind, ends_get]
      split
      · exact takes
      · rw [ends_bind, ends_set, ends_bind, ends_raised]
        refine ⟨fun source _ => ?_, fun _ _ => taken⟩
        rw [ends_bind, ends_modify, ends_bind, ends_raised]
        refine ⟨fun serialized _ => ?_, fun _ _ => ⟨taken.seen, taken.queue⟩⟩
        rw [ends_bind, ends_get]
        refine (append_ends _ _ _).mono ?_ ?_
        · rintro _ u ⟨-, rfl⟩
          exact ⟨taken.seen, taken.queue⟩
        · rintro _ u rfl
          exact ⟨taken.seen, taken.queue⟩
  · rintro _ t rfl
    exact same

theorem values_wrote (remembers : Remembers c m w t) (line : Record) :
    values (((t.take (ensureMessageId m)).advance).record line) = values w ++ [line.json] := by
  rw [values_record]
  exact congrArg (· ++ _) (congrArg (List.map Record.json) remembers.lines)

/-- A message of an open call, or of none, may always be written. -/
theorem writeMessage_recorded (known : ensureMessageId m ∈ ids)
    (own : ∀ call ∈ c.callId, call ∈ starts) :
    Keeps (Recorded ids starts ends) (writeMessage c m) := by
  intro w recorded
  have bounded : ∀ {t}, Takes m w t → (∀ id ∈ t.seenMessageIds, id ∈ ids) ∧
      ∀ entry ∈ t.pendingMessages, entry.2.2.callId = none ∧ ensureMessageId entry.2.1 ∈ ids := by
    intro t takes
    refine ⟨fun id seen => ?_, fun entry held => recorded.queued entry (takes.queue entry held)⟩
    rcases takes.seen id seen with rfl | before
    · exact known
    · exact recorded.known id before
  have stops : ∀ {t}, Stopped w t → Takes m w t → Recorded ids starts ends t :=
    fun stopped takes => recorded.stopped stopped (bounded takes).1 (bounded takes).2
  refine ((writeMessage_ends c m w).and (writeMessage_takes c m w)).mono ?_
    fun _ t h => stops h.1 h.2
  rintro _ t ⟨wrote, takes⟩
  cases wrote with
  | unchanged same => exact recorded
  | known t remembers seen => exact stops remembers.stopped takes
  | recorded t remembers fresh source serialized originates serializes valid =>
    have id : messageId (w.messageLine c source serialized).json = .str (ensureMessageId m) :=
      (serialize_ok serializes).2.1
    have message : kind (w.messageLine c source serialized).json = some .message := kind_message
    have number : seqOf (w.messageLine c source serialized).json = w.seq + 1 := by
      rw [Writer.messageLine, seqOf_message]
      rfl
    have admitted : Admits definedCall (values w) (w.messageLine c source serialized).json
        (some .message) := by
      rw [Admits, id, definedCall, Writer.messageLine, call_message, recorded.started]
      exact ⟨recorded.unanswered fresh, fun _ => own⟩
    have counter : (((t.take (ensureMessageId m)).advance).record
        (w.messageLine c source serialized)).seq = w.seq + 1 := by
      rw [← remembers.seq]
      rfl
    have seen : w.seenMessageIds ⊆ ensureMessageId m :: t.seenMessageIds :=
      remembers.seen ▸ List.subset_cons_self _ _
    have extended := recorded.extend message (by simp) valid number admitted
      (values_wrote remembers _) counter seen (fun _ => ⟨_, List.mem_cons_self, id⟩)
      (bounded takes).1 (bounded takes).2
    simpa using extended

theorem mem_messagesOf {entries : List Observed} :
    m ∈ messagesOf entries ↔ .message m ∈ entries := by
  rw [messagesOf, List.mem_filterMap]
  constructor
  · rintro ⟨entry, listed, found⟩
    cases entry with
    | removeMessage => cases found
    | message own =>
      cases found
      exact listed
  · intro listed
    exact ⟨_, listed, rfl⟩

theorem writeMessages_recorded {messages : Option (List Observed)}
    (known : ∀ m ∈ messagesOf (messages.getD []), ensureMessageId m ∈ ids)
    (own : ∀ call ∈ c.callId, call ∈ starts) :
    Keeps (Recorded ids starts ends) (writeMessages messages c) := by
  rw [writeMessages, writeAll]
  refine Keeps.forM fun write listed => ?_
  obtain ⟨entry, mem, rfl⟩ := List.mem_map.mp listed
  cases entry with
  | removeMessage => exact keeps_pure _
  | message m => exact writeMessage_recorded (known m (mem_messagesOf.mpr mem)) own

/-- What is held belongs to no call, so it can be written at any time. -/
theorem flush_recorded (parentIds : Option (List Json)) :
    Keeps (Recorded ids starts ends) (flushPendingMessages parentIds) := by
  intro w recorded
  rw [flushPendingMessages, ends_bind, ends_get, writeAll]
  refine Keeps.forM (P := Recorded ids starts ends) (fun write listed => ?_) w recorded
  rw [Writer.flushed] at listed
  obtain ⟨entry, held, rfl⟩ := List.mem_map.mp listed
  obtain ⟨plain, known⟩ := recorded.queued entry (List.mem_of_mem_filter held)
  refine writeMessage_recorded known ?_
  rw [plain]
  rintro call ⟨⟩

theorem defer_recorded (recorded : Recorded ids starts ends w) (plain : c.callId = none)
    {entry : Observed} (known : ∀ m, entry = .message m → ensureMessageId m ∈ ids) :
    Recorded ids starts ends (w.defer c entry) := by
  cases entry with
  | removeMessage => exact recorded
  | message m =>
    simp only [Writer.defer]
    split
    · exact recorded
    · refine { recorded with queued := fun entry held => ?_ }
      rcases List.mem_append.mp held with before | isLast
      · exact recorded.queued entry before
      · rw [List.mem_singleton.mp isLast]
        exact ⟨plain, known m rfl⟩

theorem deferMessages_recorded (plain : c.callId = none) {messages : Option (List Observed)}
    (known : ∀ m ∈ messagesOf (messages.getD []), ensureMessageId m ∈ ids) :
    Keeps (Recorded ids starts ends) (deferMessages messages c) := by
  intro w recorded
  rw [deferMessages, ends_modify]
  generalize messages.getD [] = entries at known
  induction entries generalizing w with
  | nil => exact recorded
  | cons entry entries ih =>
    rw [List.foldl_cons]
    refine ih _ (defer_recorded recorded plain ?_) fun m mem => ?_
    · rintro m rfl
      exact known m (mem_messagesOf.mpr List.mem_cons_self)
    · exact known m (mem_messagesOf.mpr (List.mem_cons_of_mem _ (mem_messagesOf.mp mem)))

theorem input_recorded {batches : List (List Observed)} (plain : c.callId = none)
    (known : ∀ m ∈ messagesOf batches.flatten, ensureMessageId m ∈ ids) :
    Keeps (Recorded ids starts ends) (writeModelInputMessages batches c) := by
  have own : ∀ call ∈ c.callId, call ∈ starts := by
    rw [plain]
    rintro call ⟨⟩
  have part : ∀ part : List Observed → List Observed, (∀ ms, part ms ⊆ ms) →
      Keeps (Recorded ids starts ends) (writeBatches part batches c) := by
    intro part smaller
    refine Keeps.forM fun ms listed => writeMessages_recorded (fun m mem => ?_) own
    have inside := smaller ms (mem_messagesOf.mp mem)
    exact known m (mem_messagesOf.mpr (List.mem_flatten.mpr ⟨ms, listed, inside⟩))
  rw [writeModelInputMessages]
  refine (part leadingSystems fun ms => (List.takeWhile_sublist _).subset).bind fun _ =>
    Keeps.bind ?_ fun _ => part id fun ms => List.Subset.refl ms
  rw [flushBranch]
  split
  · exact keeps_pure _
  · exact flush_recorded _

/-- The record of a call that is admitted leaves its call among those begun or ended. -/
theorem event_recorded (recorded : Recorded ids starts ends w) {found : Kind}
    {fields : List (String × Json)} (ofCall : found = .modelCallStart ∨ found = .modelCallEnd)
    {call : Json} (own : ∀ seq, callId (Record.event seq found fields).json = call)
    (admitted : ∀ seq, Admits definedCall (values w) (Record.event seq found fields).json
      (some found)) :
    Ends (writeEvent found fields) w
      (fun _ t => Recorded ids (starts ++ if found = .modelCallStart then [call] else [])
        (ends ++ if found = .modelCallEnd then [call] else []) t)
      (fun _ t => Recorded ids starts ends t) := by
  have queue := writeEvent_queue found fields w w ⟨rfl, rfl⟩
  refine ((writeEvent_ends found fields w).and queue).mono ?_ ?_
  · rintro _ t ⟨⟨valid, rfl⟩, -⟩
    have continues : found ≠ .modelCallsEnd := by rcases ofCall with rfl | rfl <;> simp
    have aside : found ≠ .message := by rcases ofCall with rfl | rfl <;> simp
    have lines : values (w.advance.record (.event (w.seq + 1) found fields)) =
        values w ++ [(Record.event (w.seq + 1) found fields).json] := values_record _ _
    have extended := recorded.extend kind_event continues valid seqOf_event (admitted _) lines rfl
      (List.Subset.refl _) (fun message => absurd message aside) recorded.known recorded.queued
    rw [own] at extended
    exact extended
  · rintro _ t ⟨stopped, seen, queue⟩
    exact recorded.stopped stopped (seen ▸ recorded.known) (queue ▸ recorded.queued)

theorem response_new {lines : List Json} {id line : Json} (absent : response lines id = none)
    (message : kind line = some .message) (own : messageId line = id) :
    response (lines ++ [line]) id = some line := by
  rw [response, ofKind_snoc, if_pos message, List.find?_append]
  rw [response] at absent
  simp [absent, own]

/-- A new message that is no instruction is in the file once it is written. -/
theorem response_written (fresh : ensureMessageId m ∉ w.seenMessageIds)
    (other : messageType m ≠ "system") :
    Ends (writeMessages (some [.message m]) c) w
      (fun _ t => ∃ line, values t = values w ++ [line] ∧ kind line = some .message ∧
        messageId line = .str (ensureMessageId m) ∧ line.member "call_id" = c.callId)
      (fun _ _ => True) := by
  change Ends (writeMessage c m >>= fun _ => pure ()) w _ _
  rw [ends_bind]
  refine (writeMessage_ends c m w).mono (fun _ t wrote => ?_) fun _ _ _ => trivial
  rw [ends_pure]
  cases wrote with
  | unchanged same => exact absurd same.system other
  | known t remembers seen => exact absurd seen fresh
  | recorded t remembers fresh source serialized originates serializes valid =>
    exact ⟨(w.messageLine c source serialized).json, values_wrote remembers _, kind_message,
      (serialize_ok serializes).2.1, call_message⟩

def callsIn (runs : List String) : List Json := runs.map .str

theorem mem_callsIn {runs : List String} {run : String} :
    .str run ∈ callsIn runs ↔ run ∈ runs := by
  simp [callsIn]

/-- The writer after the events of `done`, when it knows no more than `ids`. -/
def RecordedAfter (ids : List String) (done : List Streamed) (w : Writer) : Prop :=
  Recorded ids (callsIn (startsOf done)) (callsIn (endsOf done)) w

theorem startsOf_snoc (done : List Streamed) (streamed : Streamed) :
    startsOf (done ++ [streamed]) = startsOf done ++ (startOf streamed.event).toList := by
  rw [startsOf, startsOf, List.filterMap_append]
  cases own : startOf streamed.event <;> simp [own]

theorem endsOf_snoc (done : List Streamed) (streamed : Streamed) :
    endsOf (done ++ [streamed]) = endsOf done ++ (endOf streamed.event).toList := by
  rw [endsOf, endsOf, List.filterMap_append]
  cases own : endOf streamed.event <;> simp [own]

variable {agentName : String} {userMessage : Message} {done events : List Streamed}
  {streamed : Streamed} {ending : Ending}

/-- An event that starts and ends no model run. -/
theorem aside_recorded (recorded : RecordedAfter ids done w)
    (start : startOf streamed.event = none) (ended : endOf streamed.event = none) :
    RecordedAfter ids (done ++ [streamed]) w := by
  rw [RecordedAfter, startsOf_snoc, endsOf_snoc, start, ended, Option.toList_none,
    List.append_nil, List.append_nil]
  exact recorded

/-- An invocation that stops here leaves a writer that is still recording. -/
def Recording (ids : List String) (w : Writer) : Prop := ∃ starts ends, Recorded ids starts ends w

theorem start_recorded (regular : Regular agentName userMessage done streamed.event)
    {batches : List (List Observed)} (data : streamed.event.data = .onChatModelStart batches)
    (known : ∀ m ∈ messagesOf batches.flatten, ensureMessageId m ∈ ids)
    (recorded : RecordedAfter ids done w) :
    Ends (writeExecutionEvent streamed.event) w
      (fun _ t => RecordedAfter ids (done ++ [streamed]) t) (fun _ t => Recording ids t) := by
  rw [Regular, data] at regular
  rw [writeExecutionEvent, data, ends_bind]
  refine (input_recorded rfl known w recorded).mono (fun _ t recorded => ?_)
    fun _ t recorded => ⟨_, _, recorded⟩
  refine (event_recorded recorded (.inl rfl) (fun _ => rfl) fun seq => ?_).mono ?_
    fun _ t recorded => ⟨_, _, recorded⟩
  · refine ⟨recorded.opened, ?_⟩
    rw [recorded.started]
    exact fun started => regular (mem_callsIn.mp started)
  · intro _ t recorded
    rw [RecordedAfter, startsOf_snoc, endsOf_snoc, startOf, endOf, data]
    simpa [callsIn] using recorded

theorem end_recorded (regular : Regular agentName userMessage done streamed.event)
    {response : Message} (data : streamed.event.data = .onChatModelEnd response)
    (known : ensureMessageId response ∈ ids)
    (recorded : RecordedAfter ids done w)
    (fresh : ensureMessageId response ∉ w.seenMessageIds) :
    Ends (writeExecutionEvent streamed.event) w
      (fun _ t => RecordedAfter ids (done ++ [streamed]) t) (fun _ t => Recording ids t) := by
  rw [Regular, data] at regular
  obtain ⟨started, unended, other, -⟩ := regular
  have own : ∀ call ∈ streamed.event.callContext.callId, call ∈ callsIn (startsOf done) := by
    rintro call ⟨⟩
    exact mem_callsIn.mpr started
  have inside : ∀ m ∈ messagesOf ((some [Observed.message response]).getD []),
      ensureMessageId m ∈ ids := by
    intro m mem
    cases List.mem_singleton.mp (mem_messagesOf.mp mem)
    exact known
  rw [writeExecutionEvent, data, ends_bind]
  refine ((writeMessages_recorded inside own w recorded).and
    (response_written fresh other)).mono ?_ fun _ t h => ⟨_, _, h.1⟩
  rintro _ t ⟨after, line, lines, message, named, call⟩
  have answered : AgentTranscript.response (values t) (.str (ensureMessageId response)) =
      some line := by
    rw [lines]
    exact response_new (recorded.unanswered fresh) message named
  refine (event_recorded after (.inr rfl) (fun _ => rfl) fun seq => ?_).mono ?_
    fun _ t recorded => ⟨_, _, recorded⟩
  · refine ⟨after.opened, ?_, ?_, line, answered, ?_⟩
    · rw [after.started]
      exact mem_callsIn.mpr started
    · rw [after.ended]
      exact fun ended => unended (mem_callsIn.mp ended)
    · rw [callId, AgentTranscript.get, call]
      rfl
  · intro _ u recorded
    rw [RecordedAfter, startsOf_snoc, endsOf_snoc, startOf, endOf, data]
    simpa [callsIn] using recorded

theorem idsOf_inContext (entries : List Observed) (c : Context) :
    idsOf (inContext c entries) = (messagesOf entries).map ensureMessageId := by
  simp [idsOf, inContext, Function.comp_def]

theorem mem_idsOf_batches {batches : List (List Observed)}
    (listed : m ∈ messagesOf batches.flatten) :
    ensureMessageId m ∈ idsOf (batches.flatMap (inContext c)) := by
  obtain ⟨ms, batch, inside⟩ := List.mem_flatten.mp (mem_messagesOf.mp listed)
  refine List.mem_map.mpr ⟨(c, m), List.mem_flatMap.mpr ⟨ms, batch, ?_⟩, rfl⟩
  exact List.mem_map.mpr ⟨m, mem_messagesOf.mpr inside, rfl⟩

theorem observations_snoc : observations agentName userMessage (done ++ [streamed]) =
    observations agentName userMessage done ++ streamedMessages agentName streamed := by
  simp [observations]

/-- An event that starts and ends no model run keeps the books. -/
theorem aside_keeps {event : ExecutionEvent} (start : startOf event = none)
    (ended : endOf event = none) (shown : idsOf (eventMessages event) ⊆ ids) :
    Keeps (Recorded ids starts ends) (writeExecutionEvent event) := by
  have plain : ∀ call ∈ event.context.callId, call ∈ starts := by
    rintro call ⟨⟩
  have messages : ∀ {entries : List Observed}, idsOf (inContext event.context entries) ⊆ ids →
      ∀ m ∈ messagesOf entries, ensureMessageId m ∈ ids := by
    intro entries inside m mem
    rw [idsOf_inContext] at inside
    exact inside (List.mem_map_of_mem mem)
  rw [startOf] at start
  rw [endOf] at ended
  rw [eventMessages] at shown
  rw [writeExecutionEvent]
  cases data : event.data with
  | onChatModelStart batches => simp [data] at start
  | onChatModelEnd response => simp [data] at ended
  | onToolEnd output =>
    rw [data] at shown
    cases output with
    | message m =>
      by_cases tool : messageType m = "tool"
      · simp only [if_pos tool] at shown ⊢
        refine writeMessages_recorded (fun own mem => ?_) plain
        cases List.mem_singleton.mp (mem_messagesOf.mp mem)
        exact shown List.mem_cons_self
      · simp only [if_neg tool]
        exact keeps_pure _
    | command entries => exact writeMessages_recorded (messages shown) plain
    | other => exact keeps_pure _
  | onChainStart entries | onChainEnd entries =>
    rw [data] at shown
    exact deferMessages_recorded rfl (messages shown)
  | unobserved => exact keeps_pure _

theorem event_step (regular : Regular agentName userMessage done streamed.event)
    (old : idsOf (observations agentName userMessage done) ⊆ ids)
    (shown : idsOf (eventMessages streamed.event) ⊆ ids)
    (recorded : RecordedAfter (idsOf (observations agentName userMessage done)) done w) :
    Ends (writeExecutionEvent streamed.event) w
      (fun _ t => RecordedAfter ids (done ++ [streamed]) t) (fun _ t => Recording ids t) := by
  have later : RecordedAfter ids done w := Recorded.mono recorded old
  have aside : startOf streamed.event = none → endOf streamed.event = none →
      Ends (writeExecutionEvent streamed.event) w
        (fun _ t => RecordedAfter ids (done ++ [streamed]) t) (fun _ t => Recording ids t) :=
    fun start ended => (aside_keeps start ended shown w later).mono
      (fun _ _ recorded => aside_recorded recorded start ended) fun _ _ recorded => ⟨_, _, recorded⟩
  cases data : streamed.event.data with
  | onChatModelStart batches =>
    rw [eventMessages, data] at shown
    exact start_recorded regular data (fun m mem => shown (mem_idsOf_batches mem)) later
  | onChatModelEnd response =>
    rw [eventMessages, data] at shown
    refine end_recorded regular data (shown List.mem_cons_self) later fun seen => ?_
    rw [Regular, data] at regular
    exact regular.2.2.2 (recorded.known _ seen)
  | onToolEnd output | onChainStart entries | onChainEnd entries | unobserved =>
    exact aside (by rw [startOf, data]) (by rw [endOf, data])

/-- One event of the stream. -/
theorem streamed_step (regular : Regular agentName userMessage done streamed.event)
    (recorded : RecordedAfter (idsOf (observations agentName userMessage done)) done w) :
    Ends (recordStreamed agentName streamed) w
      (fun _ t => RecordedAfter
        (idsOf (observations agentName userMessage (done ++ [streamed]))) (done ++ [streamed]) t)
      (fun _ t => ∃ ids, Recording ids t) := by
  generalize whole : idsOf (observations agentName userMessage (done ++ [streamed])) = ids
  rw [observations_snoc, idsOf, List.map_append] at whole
  have old : idsOf (observations agentName userMessage done) ⊆ ids := by
    rw [← whole]
    exact List.subset_append_left _ _
  have new : idsOf (streamedMessages agentName streamed) ⊆ ids := by
    rw [← whole]
    exact List.subset_append_right _ _
  rw [streamedMessages, idsOf, List.map_append] at new
  obtain ⟨shown, updates⟩ := List.append_subset.mp new
  rw [recordStreamed, ends_bind]
  refine (event_step regular old shown recorded).mono (fun _ t recorded => ?_)
    fun _ t recording => ⟨_, recording⟩
  by_cases inner : streamed.event.parentIds ≠ []
  · rw [if_pos inner, ends_pure]
    exact recorded
  · rw [if_neg inner] at updates ⊢
    refine (Keeps.forM (P := RecordedAfter ids (done ++ [streamed])) (fun messages listed => ?_) t
      recorded).mono (fun _ _ kept => kept) fun _ u kept => ⟨_, _, _, kept⟩
    refine deferMessages_recorded rfl fun m mem => updates (List.mem_map.mpr ?_)
    exact ⟨(updateContext agentName streamed.event, m), List.mem_flatMap.mpr
      ⟨messages, listed, List.mem_map.mpr ⟨m, mem, rfl⟩⟩, rfl⟩

theorem run_recorded (regular : RegularAfter agentName userMessage done events)
    (recorded : RecordedAfter (idsOf (observations agentName userMessage done)) done w) :
    Ends (invokeAgent agentName events) w (fun _ t => ∃ ids, Recording ids t)
      (fun _ t => ∃ ids, Recording ids t) := by
  induction events generalizing done w with
  | nil => exact ⟨_, _, _, recorded⟩
  | cons streamed later ih =>
    change Ends (recordStreamed agentName streamed >>= fun _ => invokeAgent agentName later) w _ _
    rw [ends_bind]
    exact (streamed_step regular.1 recorded).mono (fun _ t recorded => ih regular.2 recorded)
      fun _ _ recording => recording

/-- The recording of an empty file begins; messages may be held already. -/
theorem opening_recorded (empty : w.lines = []) (unseen : w.seenMessageIds = [])
    (queued : ∀ entry ∈ w.pendingMessages,
      entry.2.2.callId = none ∧ ensureMessageId entry.2.1 ∈ ids) (fields : List (String × Json)) :
    Ends (writeEvent .modelCallsStart fields) w
      (fun _ t => Recorded ids [] [] t) (fun _ t => values t = []) := by
  refine (writeEvent_ends .modelCallsStart fields w).mono ?_ ?_
  · rintro _ t ⟨valid, rfl⟩
    have lines : values (w.advance.record (.event (w.seq + 1) .modelCallsStart fields)) =
        [] ++ [(Record.event (w.seq + 1) .modelCallsStart fields).json] := by
      rw [values_record]
      exact congrArg (· ++ _) (congrArg (List.map Record.json) empty)
    have own : kind (Record.event (w.seq + 1) .modelCallsStart fields).json =
        some .modelCallsStart := kind_event
    constructor
    · rw [lines]
      refine .snoc [] _ .nil (validateTrajectoryEvent_ok.mp valid).1 ⟨fun closed => closed rfl,
        fun _ last => (nomatch last), ?_⟩
      rw [own]
      exact fun opened => opened rfl
    · exact lines ▸ opened_snoc.mpr (.inr own)
    · rw [lines, closed_snoc, own]
      rintro (before | closes)
      · exact before rfl
      · cases closes
    · intro last isLast
      rw [lines, List.getLast?_concat] at isLast
      cases isLast
      rw [seqOf_event]
      exact Int.le_refl _
    · rw [lines, callsOf_snoc, own]
      rfl
    · rw [lines, callsOf_snoc, own]
      rfl
    · intro e mem
      rw [lines, ofKind_snoc, own] at mem
      cases mem
    · intro id seen
      have before : id ∈ w.seenMessageIds := seen
      rw [unseen] at before
      cases before
    · exact queued
  · intro _ t stopped
    rw [values, stopped.lines, empty]
    rfl

/-- However the recording ends, its lines are a file. -/
theorem closing_recorded (recorded : Recorded ids starts ends w) (status : String) :
    Ends (writeEvent .modelCallsEnd [("status", .str status)]) w
      (fun _ t => WellFormed definedCall (values t))
      (fun _ t => WellFormed definedCall (values t)) := by
  refine (writeEvent_ends _ _ w).mono ?_ fun _ t stopped => ?_
  · rintro _ t ⟨valid, rfl⟩
    rw [values_record]
    refine recorded.follows valid seqOf_event ?_
    rw [kind_event]
    exact recorded.opened
  · have same : values t = values w := congrArg (List.map Record.json) stopped.lines
    exact same ▸ recorded.file

/-- What follows the stream: whatever was raised, the held messages and the end are written. -/
theorem closing_file (recorded : Recorded ids starts ends w) (status : String)
    (result : Except String Unit) :
    Ends (flushPendingMessages none >>= fun _ =>
        writeEvent .modelCallsEnd [("status", .str status)] >>= fun _ => raised result) w
      (fun _ t => WellFormed definedCall (values t))
      (fun _ t => WellFormed definedCall (values t)) := by
  rw [ends_bind]
  refine (flush_recorded none w recorded).mono (fun _ t flushed => ?_) fun _ t kept => kept.file
  rw [ends_bind]
  refine (closing_recorded flushed status).mono (fun _ t file => ?_) fun _ _ file => file
  rw [ends_raised]
  exact ⟨fun _ _ => file, fun _ _ => file⟩

/-- The recording from its start on. -/
theorem opening_file (regular : RegularStream agentName userMessage events)
    (empty : w.lines = []) (unseen : w.seenMessageIds = [])
    (queued : ∀ entry ∈ w.pendingMessages, entry.2.2.callId = none ∧
      ensureMessageId entry.2.1 ∈ idsOf (observations agentName userMessage [])) :
    Ends (writeEvent .modelCallsStart [] >>= fun _ =>
        attempt (invokeAgent agentName events) >>= fun result =>
          flushPendingMessages none >>= fun _ =>
            writeEvent .modelCallsEnd [("status", .str (statusOf ending result))] >>= fun _ =>
              raised result) w
      (fun _ t => WellFormed definedCall (values t))
      (fun _ t => WellFormed definedCall (values t)) := by
  rw [ends_bind]
  refine (opening_recorded empty unseen queued []).mono (fun _ t recorded => ?_)
    fun _ t none => none ▸ .nil
  rw [ends_bind, ends_attempt]
  refine (run_recorded regular recorded).mono ?_ ?_
  · rintro _ u ⟨_, _, _, recorded⟩
    exact closing_file recorded _ _
  · rintro _ u ⟨_, _, _, recorded⟩
    exact closing_file recorded _ _

theorem invocation_file (regular : RegularStream agentName userMessage events)
    (empty : w.lines = []) (unseen : w.seenMessageIds = []) (idle : w.pendingMessages = []) :
    WellFormed definedCall
      (values (final (invokeAgentRuntimeGraph agentName userMessage events ending) w)) := by
  refine ends_final (P := fun t => WellFormed definedCall (values t)) |>.mp ?_
  rw [invokeAgentRuntimeGraph, ends_bind, deferMessages, ends_modify]
  have held : w.defer (userContext agentName) (.message userMessage) =
      { w with pendingMessages :=
          [(ensureMessageId userMessage, userMessage, userContext agentName)] } := by
    simp [Writer.defer, unseen, idle]
  refine opening_file (w := w.defer (userContext agentName) (.message userMessage)) regular
    ?_ ?_ ?_
  · rw [held, empty]
  · rw [held, unseen]
  · rw [held]
    intro entry mem
    cases List.mem_singleton.mp mem
    exact ⟨rfl, List.mem_cons_self⟩

/-- The lines that an invocation leaves in its file. -/
def transcript (agentName : String) (userMessage : Message) (events : List Streamed)
    (ending : Ending) : List Json :=
  values (final (invokeAgentRuntimeGraph agentName userMessage events ending)
    (start (some agentName)))

theorem oneCall_regular : RegularStream "reviewer" (spoken "human" "u1" "Review.") oneCall := by
  refine ⟨?_, ⟨?_, ?_, ?_, ?_⟩, trivial⟩
  · exact List.not_mem_nil
  · exact List.mem_singleton_self "c1"
  · exact List.not_mem_nil
  · decide
  · decide

example :
    (transcript "reviewer" (spoken "human" "u1" "Review.") oneCall .completed).length = 6 := by
  decide

end ReadableTranscripts
