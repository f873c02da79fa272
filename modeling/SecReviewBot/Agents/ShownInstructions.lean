import SecReviewBot.Agents.WriterOutcomes

/-!
# The instructions a transcript shows

Before a model call starts, the writer records the system message of its request unless the
branch already shows the same one. What the branch shows is its last system record; what the
writer compares with is what it remembers. The two agree as long as every changed instruction
that it remembers is also recorded, which fails for one whose id is in the file already.
-/

namespace ShownInstructions

open AgentTranscript Checks JsonValues ThrowingPrograms TokenUsage TrajectoryRecords TrajectoryWriter

/-- The content of a system record of the branch. -/
def systemOf (branch : Branch) : Record → Option Json
  | .message _ context agent source serialized =>
    if get serialized "role" = .str "system" ∧
      (⟨agent, source, context.parents.dropLast⟩ : Branch) = branch
    then some (get serialized "content") else none
  | .event .. => none

/-- The content of the last system record of the branch. -/
def lastSystem (branch : Branch) (lines : List Record) : Option Json :=
  (lines.filterMap (systemOf branch)).getLast?

theorem lastSystem_shown {branch : Branch} {lines : List Record} {line : Record} {content : Json}
    (shown : systemOf branch line = some content) :
    lastSystem branch (lines ++ [line]) = some content := by
  simp [lastSystem, shown]

theorem lastSystem_aside {branch : Branch} {lines : List Record} {line : Record}
    (aside : systemOf branch line = none) :
    lastSystem branch (lines ++ [line]) = lastSystem branch lines := by
  simp [lastSystem, aside]

/-- What the writer remembers of a deep branch is what the file shows last. -/
def Sync (w : Writer) : Prop :=
  ∀ branch : Branch, branch.ancestry ≠ [] → ∀ content, w.systemContents branch = some content →
    lastSystem branch w.lines = some (get content "content")

/-- A changed instruction is new to the file and recorded in the branch it is compared in. -/
def Careful (w : Writer) (c : Context) (m : Message) : Prop :=
  messageType m = "system" → 2 ≤ c.parents.length →
    ∀ content, serializeAgentMessage m "system" = .ok content →
      w.systemContents (w.branchOf c) ≠ some content →
        ensureMessageId m ∉ w.seenMessageIds ∧ sourceOf m c = .ok (c.source.getD .null)

instance (w : Writer) (c : Context) (m : Message) : Decidable (Careful w c m) :=
  match h : serializeAgentMessage m "system" with
  | .error e => isTrue fun _ _ content serialized => by
    rw [h] at serialized
    cases serialized
  | .ok content => decidable_of_iff
    (messageType m = "system" → 2 ≤ c.parents.length →
      w.systemContents (w.branchOf c) ≠ some content →
        ensureMessageId m ∉ w.seenMessageIds ∧ sourceOf m c = .ok (c.source.getD .null)) (by
    constructor
    · intro careful system deep other serialized
      rw [h] at serialized
      cases serialized
      exact careful system deep
    · intro careful system deep
      exact careful system deep content h)

variable {c : Context} {m : Message} {w t : Writer}

theorem systemOf_messageLine_other {branch : Branch} (deep : branch.ancestry ≠ [])
    {source serialized : Json}
    (serializes : serializeAgentMessage m (ensureMessageId m) = .ok serialized)
    (aside : messageType m ≠ "system" ∨ c.parents.length < 2) :
    systemOf branch (w.messageLine c source serialized) = none := by
  rw [Writer.messageLine, systemOf, if_neg]
  rintro ⟨role, same⟩
  rcases aside with other | shallow
  · rw [(serialize_ok serializes).1] at role
    exact other (roleOf_system (Json.str.inj role))
  · apply deep
    rw [← same]
    apply List.eq_nil_of_length_eq_zero
    rw [List.length_dropLast]
    omega

theorem systemOf_messageLine {source serialized : Json}
    (serializes : serializeAgentMessage m (ensureMessageId m) = .ok serialized)
    (system : messageType m = "system") (same : source = c.source.getD .null) (branch : Branch) :
    systemOf branch (w.messageLine c source serialized) =
      if w.branchOf c = branch then some (get m.fields "content") else none := by
  have role : get serialized "role" = .str "system" := by
    rw [(serialize_ok serializes).1, system]
    rfl
  rw [Writer.messageLine, systemOf, (serialize_ok serializes).2.2, Writer.branchOf, ← same]
  simp [role]

theorem sync_wrote (sync : Sync w) (careful : Careful w c m) (wrote : Wrote c m w t) : Sync t := by
  cases wrote with
  | unchanged same => exact sync
  | known t remembers seen =>
    cases remembers with
    | other aside => exact sync
    | changed system deep content serialized differs =>
      exact absurd seen (careful system deep content serialized differs).1
  | recorded t remembers fresh source serialized originates serializes valid =>
    intro branch nonempty content remembered
    have lines : (((t.take (ensureMessageId m)).advance).record
        (w.messageLine c source serialized)).lines =
          w.lines ++ [w.messageLine c source serialized] := by
      rw [← remembers.lines]
      rfl
    rw [lines]
    cases remembers with
    | other aside =>
      rw [lastSystem_aside (systemOf_messageLine_other nonempty serializes aside)]
      exact sync branch nonempty content remembered
    | changed system deep known same_text differs =>
      have here := (careful system deep known same_text differs).2
      rw [originates] at here
      have line := systemOf_messageLine (w := w) serializes system (Except.ok.inj here) branch
      have remembered :
          Function.update w.systemContents (w.branchOf c) (some known) branch = some content :=
        remembered
      by_cases own : w.branchOf c = branch
      · subst own
        rw [Function.update_self] at remembered
        cases remembered
        rw [if_pos rfl] at line
        rw [lastSystem_shown line, (serialize_ok same_text).2.2]
      · rw [Function.update_of_ne (Ne.symm own)] at remembered
        rw [if_neg own] at line
        rw [lastSystem_aside line]
        exact sync branch nonempty content remembered

/-- The instruction that an entry of a request gives. -/
def instruction : Observed → Option Json
  | .removeMessage => none
  | .message m => if messageType m = "system" then some (get m.fields "content") else none

/-- What a branch remembers, as far as the content of the instruction goes. -/
def Writer.remembered (w : Writer) (branch : Branch) : Option Json :=
  (w.systemContents branch).map fun content => get content "content"

/-- Writing an instruction leaves its branch with it; writing anything else leaves it alone. -/
theorem remembered_wrote (deep : 2 ≤ c.parents.length) (wrote : Wrote c m w t) :
    Writer.remembered t (w.branchOf c) =
      (instruction (.message m)).or (Writer.remembered w (w.branchOf c)) := by
  have by_remembering : ∀ u, Remembers c m w u → Writer.remembered u (w.branchOf c) =
      (instruction (.message m)).or (Writer.remembered w (w.branchOf c)) := by
    intro u remembers
    cases remembers with
    | other aside =>
      have other : messageType m ≠ "system" := by
        rcases aside with other | shallow
        · exact other
        · omega
      rw [instruction, if_neg other, Option.none_or]
    | changed system _ content serialized differs =>
      have now : (w.remember (w.branchOf c) content).systemContents (w.branchOf c) =
          some content := Function.update_self _ _ _
      rw [instruction, if_pos system, Option.some_or, Writer.remembered, now, Option.map_some,
        (serialize_ok serialized).2.2]
  cases wrote with
  | unchanged same =>
    obtain ⟨content, serialized, remembered⟩ := same.same
    rw [instruction, if_pos same.system, Option.some_or, Writer.remembered, remembered,
      Option.map_some, (serialize_ok serialized).2.2]
  | known t remembers seen => exact by_remembering t remembers
  | recorded t remembers => exact by_remembering t remembers

def CarefulEntry (c : Context) (w : Writer) : Observed → Prop
  | .removeMessage => True
  | .message m => Careful w c m

instance (c : Context) (w : Writer) : ∀ entry, Decidable (CarefulEntry c w entry)
  | .removeMessage => isTrue trivial
  | .message m => inferInstanceAs (Decidable (Careful w c m))

/-- Every message is written with care, in the state its turn finds. -/
def CarefulMessages (c : Context) (w : Writer) (ms : List Observed) : Prop :=
  Along (CarefulEntry c) (writeObserved c) w ms

instance (c : Context) (w : Writer) (ms : List Observed) : Decidable (CarefulMessages c w ms) :=
  inferInstanceAs (Decidable (Along _ _ w ms))

def CarefulBatches (part : List Observed → List Observed) (c : Context) (w : Writer)
    (batches : List (List Observed)) : Prop :=
  Along (fun w ms => CarefulMessages c w (part ms))
    (fun ms => writeMessages (some (part ms)) c) w batches

instance (part : List Observed → List Observed) (c : Context) (w : Writer)
    (batches : List (List Observed)) : Decidable (CarefulBatches part c w batches) :=
  inferInstanceAs (Decidable (Along _ _ w batches))

def CarefulFlush (parentIds : Option (List Json)) (w : Writer) : Prop :=
  Along (fun w write => CarefulEntry write.1 w write.2)
    (fun write => writeObserved write.1 write.2) w (w.flushed parentIds)

instance (parentIds : Option (List Json)) (w : Writer) : Decidable (CarefulFlush parentIds w) :=
  inferInstanceAs (Decidable (Along _ _ w _))

def CarefulBranchFlush (c : Context) (w : Writer) : Prop :=
  get (c.metadata.getD .null) "lc_source" ≠ .str "summarization" →
    CarefulFlush (some c.parents) w

instance (c : Context) (w : Writer) : Decidable (CarefulBranchFlush c w) :=
  inferInstanceAs (Decidable (_ → CarefulFlush _ _))

/-- The three passes over the input of a model call. -/
def CarefulInput (batches : List (List Observed)) (c : Context) (w : Writer) : Prop :=
  CarefulBatches leadingSystems c w batches ∧
    Ends (writeBatches leadingSystems batches c) w
      (fun _ t => CarefulBranchFlush c t ∧
        Ends (flushBranch c) t (fun _ u => CarefulBatches id c u batches) (fun _ _ => True))
      (fun _ _ => True)

instance (batches : List (List Observed)) (c : Context) (w : Writer) :
    Decidable (CarefulInput batches c w) :=
  inferInstanceAs (Decidable (_ ∧ Ends _ _ _ _))

def CarefulData (event : ExecutionEvent) (w : Writer) : EventData → Prop
  | .onChatModelStart batches => CarefulInput batches event.context w
  | .onChatModelEnd response => CarefulMessages event.callContext w [.message response]
  | .onToolEnd (.message m) =>
    messageType m = "tool" → CarefulMessages event.context w [.message m]
  | .onToolEnd (.command messages) => CarefulMessages event.context w (messages.getD [])
  | .onToolEnd .other | .onChainStart _ | .onChainEnd _ | .unobserved => True

instance (event : ExecutionEvent) (w : Writer) : ∀ data, Decidable (CarefulData event w data)
  | .onChatModelStart _ => inferInstanceAs (Decidable (CarefulInput _ _ _))
  | .onChatModelEnd _ => inferInstanceAs (Decidable (CarefulMessages _ _ _))
  | .onToolEnd (.message _) => inferInstanceAs (Decidable (_ → CarefulMessages _ _ _))
  | .onToolEnd (.command _) => inferInstanceAs (Decidable (CarefulMessages _ _ _))
  | .onToolEnd .other | .onChainStart _ | .onChainEnd _ | .unobserved => isTrue trivial

def CarefulEvent (event : ExecutionEvent) (w : Writer) : Prop := CarefulData event w event.data

def CarefulCall (w : Writer) : Call → Prop
  | .writeExecutionEvent event => CarefulEvent event w
  | .flushPendingMessages => CarefulFlush none w
  | _ => True

instance (w : Writer) : ∀ call, Decidable (CarefulCall w call)
  | .deferMessages .. | .writeEvent .. => isTrue trivial
  | .writeExecutionEvent event => inferInstanceAs (Decidable (CarefulData event w event.data))
  | .flushPendingMessages => inferInstanceAs (Decidable (CarefulFlush none w))

/-- The last instruction of a request. -/
def lastInstruction (ms : List Observed) : Option Json := (ms.filterMap instruction).getLast?

theorem lastInstruction_append (xs ys : List Observed) :
    lastInstruction (xs ++ ys) = (lastInstruction ys).or (lastInstruction xs) := by
  rw [lastInstruction, List.filterMap_append, List.getLast?_append]
  rfl

theorem lastInstruction_singleton (m : Observed) : lastInstruction [m] = instruction m := by
  cases read : instruction m <;> simp [lastInstruction, read]

/-- The writer after a careful pass: in step with the file, and with the instruction `said` last
in the branch that was written. -/
structure Told (c : Context) (w : Writer) (said : Option Json) (t : Writer) : Prop where
  sync : Sync t
  agent : t.agent = w.agent
  remembered : 2 ≤ c.parents.length →
    Writer.remembered t (w.branchOf c) = said.or (Writer.remembered w (w.branchOf c))

theorem branchOf_agent (same : t.agent = w.agent) (c : Context) : t.branchOf c = w.branchOf c := by
  rw [Writer.branchOf, Writer.branchOf, Writer.agentOf, Writer.agentOf, same]

theorem Told.refl (sync : Sync w) : Told c w none w := ⟨sync, rfl, fun _ => rfl⟩

theorem Told.trans {said later : Option Json} {u : Writer} (first : Told c w said t)
    (second : Told c t later u) : Told c w (later.or said) u := by
  refine ⟨second.sync, second.agent.trans first.agent, fun deep => ?_⟩
  have after := second.remembered deep
  rw [branchOf_agent first.agent, first.remembered deep] at after
  rw [after, Option.or_assoc]

theorem entry_told (sync : Sync w) (entry : Observed) (careful : CarefulEntry c w entry) :
    Ends (writeObserved c entry) w (fun _ t => Told c w (instruction entry) t)
      (fun _ _ => True) := by
  cases entry with
  | removeMessage => exact Told.refl sync
  | message m =>
    refine (writeMessage_ends c m w).mono (fun _ t wrote => ?_) fun _ _ _ => trivial
    exact ⟨sync_wrote sync careful wrote, wrote.agent, fun deep => remembered_wrote deep wrote⟩

theorem forM_map {σ ε α β : Type} (f : α → β) (step : β → ExceptT ε (StateM σ) PUnit)
    (xs : List α) : (xs.map f).forM step = xs.forM fun x => step (f x) := by
  induction xs with
  | nil => rfl
  | cons x xs ih =>
    change (step (f x) >>= fun _ => (xs.map f).forM step) = _
    rw [ih]
    rfl

theorem messages_told (sync : Sync w) (messages : Option (List Observed))
    (careful : CarefulMessages c w (messages.getD [])) :
    Ends (writeMessages messages c) w
      (fun _ t => Told c w (lastInstruction (messages.getD [])) t) (fun _ _ => True) := by
  rw [writeMessages, writeAll, forM_map]
  refine ends_loop (I := fun done t => Told c w (lastInstruction done) t) careful
    (Told.refl sync) ?_
  intro done entry t told careful
  refine (entry_told told.sync entry careful).mono (fun _ u later => ?_) fun _ _ _ => trivial
  rw [lastInstruction_append, lastInstruction_singleton]
  exact told.trans later

theorem batches_told (sync : Sync w) {part : List Observed → List Observed}
    {batches : List (List Observed)} (careful : CarefulBatches part c w batches) :
    Ends (writeBatches part batches c) w
      (fun _ t => Told c w (lastInstruction (batches.flatMap part)) t) (fun _ _ => True) := by
  rw [writeBatches]
  refine ends_loop (I := fun done t => Told c w (lastInstruction (done.flatMap part)) t)
    careful (Told.refl sync) ?_
  intro done ms t told careful
  refine (messages_told told.sync (some (part ms)) careful).mono
    (fun _ u later => ?_) fun _ _ _ => trivial
  rw [List.flatMap_append, List.flatMap_singleton, lastInstruction_append]
  exact told.trans later

/-- In step with the file, and still the writer of the same agent. -/
structure Kept (w t : Writer) : Prop where
  sync : Sync t
  agent : t.agent = w.agent

theorem flush_kept (sync : Sync w) {parentIds : Option (List Json)}
    (careful : CarefulFlush parentIds w) :
    Ends (flushPendingMessages parentIds) w (fun _ t => Kept w t) (fun _ _ => True) := by
  rw [flushPendingMessages, ends_bind, ends_get, writeAll]
  refine ends_loop (I := fun _ t => Kept w t) careful ⟨sync, rfl⟩ ?_
  intro done write t kept careful
  refine (entry_told kept.sync write.2 careful).mono (fun _ u told => ?_) fun _ _ _ => trivial
  exact ⟨told.sync, told.agent.trans kept.agent⟩

theorem branch_flush_kept (sync : Sync w) (careful : CarefulBranchFlush c w) :
    Ends (flushBranch c) w (fun _ t => Kept w t) (fun _ _ => True) := by
  rw [flushBranch]
  split
  · exact ⟨sync, rfl⟩
  · rename_i continuing
    exact flush_kept sync (careful continuing)

/-- After the input of a model call its branch is left with the last instruction in it. -/
theorem input_told (sync : Sync w) {batches : List (List Observed)}
    (careful : CarefulInput batches c w) :
    Ends (writeModelInputMessages batches c) w
      (fun _ t => Kept w t ∧ ∀ said, lastInstruction (batches.flatMap id) = some said →
        2 ≤ c.parents.length → Writer.remembered t (w.branchOf c) = some said)
      (fun _ _ => True) := by
  rw [writeModelInputMessages, ends_bind]
  refine ((batches_told sync careful.1).and careful.2).mono ?_ fun _ _ _ => trivial
  rintro _ t ⟨leading, flushing, later⟩
  rw [ends_bind]
  refine ((branch_flush_kept leading.sync flushing).and later).mono ?_ fun _ _ _ => trivial
  rintro _ u ⟨flushed, whole⟩
  refine (batches_told flushed.sync whole).mono (fun _ v told => ?_) fun _ _ _ => trivial
  have agent : u.agent = w.agent := flushed.agent.trans leading.agent
  refine ⟨⟨told.sync, told.agent.trans agent⟩, fun said last deep => ?_⟩
  have remembered := told.remembered deep
  rwa [branchOf_agent agent, last, Option.some_or] at remembered

theorem event_kept (sync : Sync w) (kind : Kind) (fields : List (String × Json)) :
    Ends (writeEvent kind fields) w
      (fun _ t => Kept w t ∧ t.lines = w.lines ++ [.event (w.seq + 1) kind fields] ∧
        t.systemContents = w.systemContents) (fun _ _ => True) := by
  refine (writeEvent_ends kind fields w).mono ?_ fun _ _ _ => trivial
  rintro _ t ⟨-, rfl⟩
  refine ⟨⟨fun branch nonempty content remembered => ?_, rfl⟩, rfl, rfl⟩
  have shown := sync branch nonempty content remembered
  have aside : lastSystem branch (w.lines ++ [.event (w.seq + 1) kind fields]) =
      lastSystem branch w.lines := lastSystem_aside rfl
  rwa [← aside] at shown

theorem deferred_kept (sync : Sync w) (messages : Option (List Observed)) (c : Context) :
    Ends (deferMessages messages c) w (fun _ t => Kept w t) (fun _ _ => True) := by
  refine (deferMessages_ends messages c w).mono ?_ fun _ _ _ => trivial
  rintro _ t ⟨queue, rfl⟩
  exact ⟨sync, rfl⟩

/-- The branch a model call of the event belongs to. -/
def branchOf (event : ExecutionEvent) : Branch :=
  ⟨get (.obj event.metadata) "lc_agent_name", get (.obj event.metadata) "lc_source",
    event.parentIds.dropLast⟩

/-- The file ends with the start of the call, before which its branch shows `said` last. -/
def Shows (event : ExecutionEvent) (said : Json) (t : Writer) : Prop :=
  ∃ earlier seq, t.lines = earlier ++ [.event seq .modelCallStart event.callContext.members] ∧
    lastSystem (branchOf event) earlier = some said

theorem start_shows (sync : Sync w) {event : ExecutionEvent} {batches : List (List Observed)}
    (starts : event.data = .onChatModelStart batches) (careful : CarefulEvent event w)
    {said : Json} (deep : 2 ≤ event.parentIds.length)
    (last : lastInstruction (batches.flatMap id) = some said) :
    Ends (writeExecutionEvent event) w (fun _ t => Shows event said t) (fun _ _ => True) := by
  have input : CarefulInput batches event.context w := by
    rwa [CarefulEvent, starts] at careful
  rw [writeExecutionEvent, starts, ends_bind]
  refine (input_told sync input).mono ?_ fun _ _ _ => trivial
  rintro _ t ⟨kept, told⟩
  refine (event_kept kept.sync _ _).mono ?_ fun _ _ _ => trivial
  rintro _ u ⟨-, lines, -⟩
  refine ⟨t.lines, t.seq + 1, lines, ?_⟩
  have remembered : Writer.remembered t (branchOf event) = some said := told said last deep
  obtain ⟨content, known, same⟩ := Option.map_eq_some_iff.mp remembered
  have nonempty : (branchOf event).ancestry ≠ [] := by
    have left : event.parentIds.dropLast.length = event.parentIds.length - 1 :=
      List.length_dropLast
    intro empty
    have nil : event.parentIds.dropLast = [] := empty
    rw [nil, List.length_nil] at left
    omega
  rw [← same]
  exact kept.sync _ nonempty content known

theorem messages_kept (sync : Sync w) (messages : Option (List Observed))
    (careful : CarefulMessages c w (messages.getD [])) :
    Ends (writeMessages messages c) w (fun _ t => Kept w t) (fun _ _ => True) :=
  (messages_told sync messages careful).mono (fun _ _ told => ⟨told.sync, told.agent⟩)
    fun _ _ _ => trivial

theorem call_kept (sync : Sync w) (call : Call) (careful : CarefulCall w call) :
    Ends (perform call) w (fun _ t => Kept w t) (fun _ _ => True) := by
  cases call with
  | deferMessages messages context => exact deferred_kept sync messages context
  | writeEvent kind fields =>
    exact (event_kept sync kind fields).mono (fun _ t h => h.1) fun _ _ _ => trivial
  | flushPendingMessages => exact flush_kept sync careful
  | writeExecutionEvent event =>
    obtain ⟨runId, parentIds, name, metadata, data⟩ := event
    cases data with
    | onChatModelStart batches =>
      rw [perform, writeExecutionEvent, ends_bind]
      refine (input_told sync careful).mono (fun _ t ⟨kept, _⟩ => ?_) fun _ _ _ => trivial
      refine (event_kept kept.sync _ _).mono (fun _ u h => ?_) fun _ _ _ => trivial
      exact ⟨h.1.sync, h.1.agent.trans kept.agent⟩
    | onChatModelEnd response =>
      rw [perform, writeExecutionEvent, ends_bind]
      refine (messages_kept sync (some [.message response]) careful).mono
        (fun _ t kept => ?_) fun _ _ _ => trivial
      refine (event_kept kept.sync _ _).mono (fun _ u h => ?_) fun _ _ _ => trivial
      exact ⟨h.1.sync, h.1.agent.trans kept.agent⟩
    | onToolEnd output =>
      cases output with
      | message m =>
        by_cases tool : messageType m = "tool"
        · simp only [perform, writeExecutionEvent, if_pos tool]
          exact messages_kept sync (some [.message m]) (careful tool)
        · simp only [perform, writeExecutionEvent, if_neg tool]
          exact ⟨sync, rfl⟩
      | command messages => exact messages_kept sync messages careful
      | other => exact ⟨sync, rfl⟩
    | onChainStart messages => exact deferred_kept sync messages _
    | onChainEnd messages => exact deferred_kept sync messages _
    | unobserved => exact ⟨sync, rfl⟩

/-- Every message of the run is written with care. -/
def CarefulRun (agent : Option String) (calls : List Call) : Prop :=
  Along CarefulCall perform (start agent) calls

instance (agent : Option String) (calls : List Call) : Decidable (CarefulRun agent calls) :=
  inferInstanceAs (Decidable (Along _ _ _ _))

/-- A model call with one batch, an instruction first; a later one, if any, says the same. -/
structure Starts (event : ExecutionEvent) (first : Message) : Prop where
  input : ∃ rest, event.data = .onChatModelStart [.message first :: rest] ∧
    ∀ later, lastInstruction rest = some later → later = get first.fields "content"
  leading : messageType first = "system"
  deep : 2 ≤ event.parentIds.length

theorem Starts.last {event : ExecutionEvent} {first : Message} (h : Starts event first) :
    ∃ batches, event.data = .onChatModelStart batches ∧
      lastInstruction (batches.flatMap id) = some (get first.fields "content") := by
  obtain ⟨rest, data, agrees⟩ := h.input
  refine ⟨_, data, ?_⟩
  have whole : [Observed.message first :: rest].flatMap id = [.message first] ++ rest := by simp
  rw [whole, lastInstruction_append, lastInstruction_singleton, instruction, if_pos h.leading]
  cases read : lastInstruction rest with
  | none => rfl
  | some later => rw [agrees later read, Option.some_or]

theorem sync_start (agent : Option String) : Sync (start agent) := by
  intro branch nonempty content remembered
  cases remembered

/-- In a careful run every call shows the instruction it starts with. -/
theorem call_shows_instruction (agent : Option String) (calls : List Call)
    (event : ExecutionEvent) (first : Message) (starts : Starts event first)
    (careful : CarefulRun agent (calls ++ [.writeExecutionEvent event])) :
    Ends (performAll (calls ++ [.writeExecutionEvent event])) (start agent)
      (fun _ t => Shows event (get first.fields "content") t) (fun _ _ => True) := by
  obtain ⟨batches, data, last⟩ := starts.last
  have run := ends_loop
    (I := fun done t => Sync t ∧ (done.getLast? = some (.writeExecutionEvent event) →
      Shows event (get first.fields "content") t))
    (E := fun _ _ => True) careful ⟨sync_start agent, fun absurd => by simp at absurd⟩ ?_
  · refine Ends.mono run (fun _ t h => h.2 ?_) fun _ _ _ => trivial
    rw [List.getLast?_concat]
  · rintro done call w ⟨sync, -⟩ careful
    by_cases own : call = .writeExecutionEvent event
    · subst own
      refine ((call_kept sync _ careful).and
        (start_shows sync data careful starts.deep last)).mono ?_ fun _ _ _ => trivial
      rintro _ t ⟨kept, shows⟩
      exact ⟨kept.sync, fun _ => shows⟩
    · refine (call_kept sync call careful).mono (fun _ t kept => ?_) fun _ _ _ => trivial
      refine ⟨kept.sync, fun ends_with => ?_⟩
      rw [List.getLast?_concat] at ends_with
      exact absurd (Option.some.inj ends_with) own

/-- A system message with an id and a text. -/
def instructs (id text : String) : Message where
  isDict := false
  fields := .obj [("type", .str "system"), ("id", .str id), ("content", .str text)]
  getType := none
  given := "00000000-0000-4000-8000-000000000000"
  encodable := true

/-- An event inside the model node of the root graph. -/
def inModelNode (runId : String) (data : EventData) : ExecutionEvent where
  runId := runId
  parentIds := [.str "root", .str "model"]
  name := .str "ChatModel"
  metadata := [("lc_agent_name", .str "reviewer")]
  data := data

def firstCall : ExecutionEvent :=
  inModelNode "c1" (.onChatModelStart [[.message (instructs "s1" "Version 1")]])

def changedCall : ExecutionEvent :=
  inModelNode "c2" (.onChatModelStart [[.message (instructs "s2" "Version 2")]])

/-- A message of the user with an id and a text. -/
def requests (id text : String) : Message :=
  { instructs id text with
    fields := .obj [("type", .str "human"), ("id", .str id), ("content", .str text)] }

/-- The input of the graph is deferred, and the first call repeats its instruction. -/
def afterInput : List Call :=
  [.writeExecutionEvent (inModelNode "chain" (.onChainStart (some
      [.message (instructs "s1" "Version 1"), .message (requests "h1" "Review a.py")]))),
    .writeExecutionEvent firstCall]

theorem changed_instruction_shown :
    Starts changedCall (instructs "s2" "Version 2") ∧
      CarefulRun none (afterInput ++ [.writeExecutionEvent changedCall]) ∧
      Ends (performAll (afterInput ++ [.writeExecutionEvent changedCall])) (start none)
        (fun _ t => Shows changedCall (.str "Version 2") t) (fun _ _ => True) := by
  have starts : Starts changedCall (instructs "s2" "Version 2") := by
    refine ⟨⟨[], rfl, fun later absurd => ?_⟩, by decide, by decide⟩
    cases absurd
  have careful : CarefulRun none (afterInput ++ [.writeExecutionEvent changedCall]) := by decide
  exact ⟨starts, careful, call_shows_instruction none afterInput changedCall _ starts careful⟩

/-- The graph's input holds an instruction that the first call repeats under another id. -/
def beforeChange : List Call :=
  [.writeExecutionEvent (inModelNode "chain"
      (.onChainStart (some [.message (instructs "s0" "Version 1")]))),
    .writeExecutionEvent firstCall]

/-- The changed instruction is recorded, and then the flush records the older one behind it. -/
theorem older_instruction_shown_last :
    Starts changedCall (instructs "s2" "Version 2") ∧
      Ends (performAll (beforeChange ++ [.writeExecutionEvent changedCall])) (start none)
        (fun _ t => lastSystem (branchOf changedCall) t.lines.dropLast = some (.str "Version 1") ∧
          ¬ Shows changedCall (.str "Version 2") t)
        (fun _ _ => False) := by
  constructor
  · refine ⟨⟨[], rfl, fun later absurd => ?_⟩, by decide, by decide⟩
    cases absurd
  · have run : Ends (performAll (beforeChange ++ [.writeExecutionEvent changedCall])) (start none)
        (fun _ t => lastSystem (branchOf changedCall) t.lines.dropLast = some (.str "Version 1"))
        (fun _ _ => False) := by decide
    refine run.mono (fun _ t older => ⟨older, ?_⟩) fun _ _ absurd => absurd
    rintro ⟨earlier, seq, lines, shown⟩
    rw [lines, List.dropLast_concat, shown] at older
    exact absurd older (by decide)

end ShownInstructions
