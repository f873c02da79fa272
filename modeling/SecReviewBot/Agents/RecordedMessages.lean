import SecReviewBot.Agents.AgentInvocations

/-!
# No message is lost

An invocation that does not raise records every message it has observed, each once. Only an
instruction that repeats what its branch was told before may be left out. Messages wait in a
queue, are known by their ids and are skipped as unchanged; the invariant says where each of
them is at any time.
-/

namespace RecordedMessages

open AgentTranscript JsonValues ThrowingPrograms TrajectoryRecords TrajectoryWriter
open AgentInvocations

variable {observed : List (Context × Message)} {base w t u : Writer} {c : Context} {m : Message}
  {id : String}

/-- The ids of the message records. -/
def recordedIds (lines : List Record) : List Json :=
  lines.filterMap fun
    | .message _ _ _ _ serialized => some (get serialized "id")
    | .event .. => none

/-- An observed instruction of the branch has this content and is recorded. -/
def Shown (observed : List (Context × Message)) (base : Writer) (seen : List String)
    (branch : Branch) (content : Json) : Prop :=
  ∃ entry ∈ observed, base.branchOf entry.1 = branch ∧ messageType entry.2 = "system" ∧
    serializeAgentMessage entry.2 "system" = .ok content ∧ ensureMessageId entry.2 ∈ seen

/-- The message with the id is the instruction of a deep branch that shows the same content. -/
def Repeats (observed : List (Context × Message)) (base : Writer) (seen : List String)
    (id : String) : Prop :=
  ∃ entry ∈ observed, ensureMessageId entry.2 = id ∧ messageType entry.2 = "system" ∧
    2 ≤ entry.1.parents.length ∧ ∃ content,
      serializeAgentMessage entry.2 "system" = .ok content ∧
        Shown observed base seen (base.branchOf entry.1) content

/-- What holds of a writer that has not raised. -/
structure Books (observed : List (Context × Message)) (base w : Writer) : Prop where
  agent : w.agent = base.agent
  recorded : recordedIds w.lines = w.seenMessageIds.reverse.map Json.str
  once : w.seenMessageIds.Nodup
  remembered : ∀ branch content, w.systemContents branch = some content →
    Shown observed base w.seenMessageIds branch content
  queued : ∀ entry ∈ w.pendingMessages,
    (entry.2.2, entry.2.1) ∈ observed ∧ ensureMessageId entry.2.1 = entry.1

/-- Recorded, or nothing new. -/
def Settled (observed : List (Context × Message)) (base w : Writer) (id : String) : Prop :=
  id ∈ w.seenMessageIds ∨ Repeats observed base w.seenMessageIds id

/-- Settled or waiting. -/
def Held (observed : List (Context × Message)) (base w : Writer) (id : String) : Prop :=
  id ∈ w.pendingMessages.map Prod.fst ∨ Settled observed base w id

/-- The books are kept and no message is forgotten. -/
structure Moves (observed : List (Context × Message)) (base w t : Writer) : Prop where
  books : Books observed base t
  settled : ∀ id, Settled observed base w id → Settled observed base t id
  held : ∀ id, Held observed base w id → Held observed base t id

theorem Moves.refl (books : Books observed base w) : Moves observed base w w :=
  ⟨books, fun _ => fun known => known, fun _ => fun known => known⟩

theorem Moves.trans (first : Moves observed base w t) (second : Moves observed base t u) :
    Moves observed base w u :=
  ⟨second.books, fun id known => second.settled id (first.settled id known),
    fun id known => second.held id (first.held id known)⟩

theorem branchOf_of_agent (same : w.agent = base.agent) (c : Context) :
    w.branchOf c = base.branchOf c := by
  rw [Writer.branchOf, Writer.branchOf, Writer.agentOf, Writer.agentOf, same]

theorem Shown.mono {seen more : List String} {branch : Branch} {content : Json}
    (shown : Shown observed base seen branch content) (larger : seen ⊆ more) :
    Shown observed base more branch content := by
  obtain ⟨entry, mem, own, system, serialized, recorded⟩ := shown
  exact ⟨entry, mem, own, system, serialized, larger recorded⟩

theorem Settled.mono (settled : Settled observed base w id)
    (larger : w.seenMessageIds ⊆ t.seenMessageIds) : Settled observed base t id := by
  rcases settled with seen | ⟨entry, mem, own, system, deep, content, serialized, shown⟩
  · exact .inl (larger seen)
  · exact .inr ⟨entry, mem, own, system, deep, content, serialized, shown.mono larger⟩

/-- What a branch remembers stays shown when a changed instruction is remembered as well. -/
theorem Books.remembers (books : Books observed base w) (known : (c, m) ∈ observed)
    (remembers : Remembers c m w t) {seen : List String} (larger : w.seenMessageIds ⊆ seen)
    (recorded : ensureMessageId m ∈ seen) (branch : Branch) (content : Json)
    (remembered : t.systemContents branch = some content) :
    Shown observed base seen branch content := by
  cases remembers with
  | other aside => exact (books.remembered branch content remembered).mono larger
  | changed system deep changed serialized differs =>
    have updated : Function.update w.systemContents (w.branchOf c) (some changed) branch =
        some content := remembered
    by_cases own : branch = w.branchOf c
    · subst own
      rw [Function.update_self] at updated
      cases updated
      exact ⟨(c, m), known, (branchOf_of_agent books.agent c).symm, system, serialized, recorded⟩
    · rw [Function.update_of_ne own] at updated
      exact (books.remembered branch content updated).mono larger

/-- The message that was written is settled, and what waits has waited before. -/
structure Writes (observed : List (Context × Message)) (base : Writer) (id : String)
    (w t : Writer) : Prop where
  moves : Moves observed base w t
  own : Settled observed base t id
  queue : t.pendingMessages ⊆ w.pendingMessages

theorem wrote_settles (books : Books observed base w) (known : (c, m) ∈ observed)
    (wrote : Wrote c m w t) : Writes observed base (ensureMessageId m) w t := by
  cases wrote with
  | unchanged same =>
    obtain ⟨content, serialized, remembered⟩ := same.same
    rw [branchOf_of_agent books.agent] at remembered
    refine ⟨.refl books, .inr ⟨(c, m), known, rfl, same.system, same.deep, content, serialized,
      books.remembered _ _ remembered⟩, List.Subset.refl _⟩
  | known t remembers seen =>
    have larger : w.seenMessageIds ⊆ t.seenMessageIds := remembers.seen ▸ List.Subset.refl _
    have later : ∀ id, Settled observed base w id → Settled observed base t id :=
      fun id settled => settled.mono larger
    refine ⟨⟨?_, later, fun id held => ?_⟩, .inl (larger seen), remembers.pending ▸
      List.Subset.refl _⟩
    · refine ⟨remembers.agent.trans books.agent, ?_, remembers.seen ▸ books.once, ?_,
        remembers.pending ▸ books.queued⟩
      · rw [remembers.lines, remembers.seen]
        exact books.recorded
      · exact books.remembers known remembers larger (larger seen)
    · rcases held with waits | settled
      · exact .inl (remembers.pending ▸ waits)
      · exact .inr (later id settled)
  | recorded t remembers fresh source serialized originates serializes valid =>
    generalize after : ((t.take (ensureMessageId m)).advance).record
      (w.messageLine c source serialized) = u
    have seen : u.seenMessageIds = ensureMessageId m :: w.seenMessageIds := by
      rw [← after, ← remembers.seen]
      rfl
    have larger : w.seenMessageIds ⊆ u.seenMessageIds := seen ▸ List.subset_cons_self _ _
    have own : ensureMessageId m ∈ u.seenMessageIds := seen ▸ List.mem_cons_self
    have later : ∀ id, Settled observed base w id → Settled observed base u id :=
      fun id settled => settled.mono larger
    have queue : u.pendingMessages =
        w.pendingMessages.filter fun entry => entry.1 ≠ ensureMessageId m := by
      rw [← after, ← remembers.pending]
      rfl
    have contents : u.systemContents = t.systemContents := by
      rw [← after]
      rfl
    refine ⟨⟨?_, later, fun id held => ?_⟩, .inl own, ?_⟩
    · refine ⟨?_, ?_, ?_, ?_, fun entry waits => ?_⟩
      · rw [← after, ← books.agent, ← remembers.agent]
        rfl
      · have lines : u.lines = w.lines ++ [w.messageLine c source serialized] := by
          rw [← after, ← remembers.lines]
          rfl
        have line : recordedIds [w.messageLine c source serialized] =
            [.str (ensureMessageId m)] := by
          rw [← (serialize_ok serializes).2.1]
          rfl
        rw [lines, recordedIds, List.filterMap_append]
        change recordedIds w.lines ++ recordedIds [w.messageLine c source serialized] = _
        rw [line, books.recorded, seen, List.reverse_cons, List.map_append, List.map_singleton]
      · rw [seen]
        exact List.nodup_cons.mpr ⟨fresh, books.once⟩
      · rw [contents]
        exact books.remembers known remembers larger own
      · rw [queue] at waits
        exact books.queued entry (List.mem_of_mem_filter waits)
    · rcases held with waits | settled
      · by_cases same : id = ensureMessageId m
        · exact .inr (.inl (same ▸ own))
        · obtain ⟨entry, mem, rfl⟩ := List.mem_map.mp waits
          refine .inl (List.mem_map_of_mem ?_)
          rw [queue, List.mem_filter]
          exact ⟨mem, decide_eq_true same⟩
      · exact .inr (later id settled)
    · rw [queue]
      exact fun _ waits => List.mem_of_mem_filter waits

theorem writeMessage_settles (books : Books observed base w) (known : (c, m) ∈ observed) :
    Ends (writeMessage c m) w (fun _ t => Writes observed base (ensureMessageId m) w t)
      (fun _ _ => True) :=
  (writeMessage_ends c m w).mono (fun _ _ wrote => wrote_settles books known wrote)
    fun _ _ _ => trivial

/-- The messages of a list of writes are settled one after the other. -/
structure Settles (observed : List (Context × Message)) (base w : Writer)
    (writes : List (Context × Observed)) (t : Writer) : Prop where
  moves : Moves observed base w t
  each : ∀ c m, (c, .message m) ∈ writes → Settled observed base t (ensureMessageId m)
  queue : t.pendingMessages ⊆ w.pendingMessages

theorem writeAll_settles (books : Books observed base w) {writes : List (Context × Observed)}
    (known : ∀ c m, (c, .message m) ∈ writes → (c, m) ∈ observed) :
    Ends (writeAll writes) w (fun _ t => Settles observed base w writes t) (fun _ _ => True) := by
  rw [writeAll]
  refine Ends.forM (I := fun done t => Settles observed base w done t) ?_
    ⟨.refl books, fun _ _ mem => absurd mem List.not_mem_nil, List.Subset.refl _⟩
  rintro done ⟨c, entry⟩ mem t settles
  have onward : ∀ u, Moves observed base t u → u.pendingMessages ⊆ t.pendingMessages →
      (∀ m, entry = .message m → Settled observed base u (ensureMessageId m)) →
      Settles observed base w (done ++ [(c, entry)]) u := by
    intro u moves queue own
    refine ⟨settles.moves.trans moves, fun other m listed => ?_,
      fun _ held => settles.queue (queue held)⟩
    rcases List.mem_append.mp listed with before | isLast
    · exact moves.settled _ (settles.each other m before)
    · exact own m (congrArg Prod.snd (List.mem_singleton.mp isLast)).symm
  cases entry with
  | removeMessage =>
    refine onward t (.refl settles.moves.books) (List.Subset.refl _) ?_
    rintro _ ⟨⟩
  | message m =>
    refine (writeMessage_settles settles.moves.books (known c m mem)).mono ?_ fun _ _ _ => trivial
    intro _ u writes
    refine onward u writes.moves writes.queue fun own same => ?_
    cases same
    exact writes.own

/-- The given ids are held. -/
structure Holds (observed : List (Context × Message)) (base w : Writer) (ids : List String)
    (t : Writer) : Prop where
  moves : Moves observed base w t
  each : ∀ id ∈ ids, Held observed base t id

theorem Holds.append {ids more : List String} (first : Holds observed base w ids t)
    (second : Holds observed base t more u) : Holds observed base w (ids ++ more) u := by
  refine ⟨first.moves.trans second.moves, fun id mem => ?_⟩
  rcases List.mem_append.mp mem with before | later
  · exact second.moves.held id (first.each id before)
  · exact second.each id later

/-- Programs run one after the other hold what each of them holds. -/
theorem forM_holds {α : Type} {program : α → TrajectoryWriter.Recording PUnit}
    {ids : α → List String} {items : List α} (books : Books observed base w)
    (each : ∀ a ∈ items, ∀ t, Books observed base t →
      Ends (program a) t (fun _ u => Holds observed base t (ids a) u) (fun _ _ => True)) :
    Ends (items.forM program) w (fun _ t => Holds observed base w (items.flatMap ids) t)
      (fun _ _ => True) := by
  refine Ends.forM (I := fun done t => Holds observed base w (done.flatMap ids) t) ?_
    ⟨.refl books, fun _ mem => absurd mem List.not_mem_nil⟩
  intro done a mem t before
  refine (each a mem t before.moves.books).mono (fun _ u own => ?_) fun _ _ _ => trivial
  rw [List.flatMap_append, List.flatMap_singleton]
  exact before.append own

theorem idsOf_flatMap {α : Type} (f : α → List (Context × Message)) (items : List α) :
    idsOf (items.flatMap f) = items.flatMap fun a => idsOf (f a) := List.map_flatMap

theorem mem_inContext {entries : List Observed} :
    (c, m) ∈ inContext c entries ↔ .message m ∈ entries := by
  rw [inContext, messagesOf, List.mem_map]
  constructor
  · rintro ⟨own, mem, same⟩
    obtain rfl := (Prod.mk.inj same).2
    obtain ⟨entry, listed, found⟩ := List.mem_filterMap.mp mem
    cases entry with
    | removeMessage => cases found
    | message other =>
      cases found
      exact listed
  · intro listed
    exact ⟨m, List.mem_filterMap.mpr ⟨_, listed, rfl⟩, rfl⟩

theorem mem_ids_inContext {entries : List Observed} (mem : id ∈ idsOf (inContext c entries)) :
    ∃ m, .message m ∈ entries ∧ ensureMessageId m = id := by
  obtain ⟨⟨own, m⟩, listed, rfl⟩ := List.mem_map.mp mem
  have same : own = c := by
    rw [inContext] at listed
    obtain ⟨_, _, pair⟩ := List.mem_map.mp listed
    exact (Prod.mk.inj pair).1.symm
  subst same
  exact ⟨m, mem_inContext.mp listed, rfl⟩

theorem writeMessages_holds (books : Books observed base w) {messages : Option (List Observed)}
    (known : inContext c (messages.getD []) ⊆ observed) :
    Ends (writeMessages messages c) w
      (fun _ t => Holds observed base w (idsOf (inContext c (messages.getD []))) t)
      (fun _ _ => True) := by
  rw [writeMessages]
  refine (writeAll_settles books ?_).mono ?_ fun _ _ _ => trivial
  · intro own m mem
    obtain ⟨entry, listed, same⟩ := List.mem_map.mp mem
    obtain ⟨rfl, rfl⟩ := Prod.mk.inj same
    exact known (mem_inContext.mpr listed)
  · intro _ t settles
    refine ⟨settles.moves, fun id mem => ?_⟩
    obtain ⟨m, listed, rfl⟩ := mem_ids_inContext mem
    exact .inr (settles.each c m (List.mem_map_of_mem listed))

theorem writeBatches_holds {part : List Observed → List Observed}
    {batches : List (List Observed)} (books : Books observed base w)
    (known : ∀ ms ∈ batches, inContext c (part ms) ⊆ observed) :
    Ends (writeBatches part batches c) w
      (fun _ t => Holds observed base w (batches.flatMap fun ms => idsOf (inContext c (part ms))) t)
      (fun _ _ => True) := by
  rw [writeBatches]
  exact forM_holds books fun ms listed t books => writeMessages_holds books (known ms listed)

/-- A flush settles what it covers. -/
theorem flush_settles (books : Books observed base w) (parentIds : Option (List Json)) :
    Ends (flushPendingMessages parentIds) w
      (fun _ t => Settles observed base w (w.flushed parentIds) t) (fun _ _ => True) := by
  rw [flushPendingMessages, ends_bind, ends_get]
  refine writeAll_settles books fun c m mem => ?_
  obtain ⟨entry, covered, same⟩ := List.mem_map.mp mem
  obtain ⟨rfl, own⟩ := Prod.mk.inj same
  cases own
  exact (books.queued entry (List.mem_of_mem_filter covered)).1

theorem defer_holds (books : Books observed base w) (known : (c, m) ∈ observed) :
    Holds observed base w [ensureMessageId m] (w.defer c (.message m)) := by
  simp only [Writer.defer]
  split
  · rename_i found
    refine ⟨.refl books, fun id mem => ?_⟩
    rw [List.mem_singleton.mp mem]
    rcases found with seen | waits
    · exact .inr (.inl seen)
    · exact .inl waits
  · refine ⟨⟨⟨books.agent, books.recorded, books.once, books.remembered, fun entry waits => ?_⟩,
      fun id settled => settled, fun id held => ?_⟩, fun id mem => ?_⟩
    · rcases List.mem_append.mp waits with before | isNew
      · exact books.queued entry before
      · rw [List.mem_singleton.mp isNew]
        exact ⟨known, rfl⟩
    · rcases held with waits | settled
      · refine .inl ?_
        rw [List.map_append]
        exact List.mem_append_left _ waits
      · exact .inr settled
    · rw [List.mem_singleton.mp mem]
      refine .inl ?_
      rw [List.map_append]
      exact List.mem_append_right _ (List.mem_singleton_self _)

theorem deferMessages_holds (books : Books observed base w) {messages : Option (List Observed)}
    (known : inContext c (messages.getD []) ⊆ observed) :
    Ends (deferMessages messages c) w
      (fun _ t => Holds observed base w (idsOf (inContext c (messages.getD []))) t)
      (fun _ _ => True) := by
  rw [deferMessages, ends_modify]
  have each : ∀ m, .message m ∈ messages.getD [] → (c, m) ∈ observed :=
    fun m listed => known (mem_inContext.mpr listed)
  have step : ∀ (entries : List Observed) (t : Writer), Books observed base t →
      (∀ m, .message m ∈ entries → (c, m) ∈ observed) →
      Holds observed base t (idsOf (inContext c entries))
        (entries.foldl (fun w m => w.defer c m) t) := by
    intro entries
    induction entries with
    | nil => exact fun t books _ => ⟨.refl books, fun _ mem => absurd mem List.not_mem_nil⟩
    | cons entry later ih =>
      intro t books each
      rw [List.foldl_cons]
      cases entry with
      | removeMessage => exact ih t books fun m mem => each m (List.mem_cons_of_mem _ mem)
      | message m =>
        have first := defer_holds books (each m List.mem_cons_self)
        exact first.append (ih _ first.moves.books fun m mem => each m (List.mem_cons_of_mem _ mem))
  exact step _ w books each

theorem writeEvent_moves (books : Books observed base w) (found : Kind)
    (fields : List (String × Json)) :
    Ends (writeEvent found fields) w (fun _ t => Moves observed base w t) (fun _ _ => True) := by
  refine (writeEvent_ends found fields w).mono ?_ fun _ _ _ => trivial
  rintro _ t ⟨-, rfl⟩
  refine ⟨⟨books.agent, ?_, books.once, books.remembered, books.queued⟩, fun _ known => known,
    fun _ known => known⟩
  change recordedIds (w.lines ++ [.event (w.seq + 1) found fields]) =
    w.seenMessageIds.reverse.map Json.str
  rw [← books.recorded, recordedIds, List.filterMap_append]
  exact List.append_nil _

theorem input_holds (books : Books observed base w) {batches : List (List Observed)}
    (known : batches.flatMap (inContext c) ⊆ observed) :
    Ends (writeModelInputMessages batches c) w
      (fun _ t => Holds observed base w (idsOf (batches.flatMap (inContext c))) t)
      (fun _ _ => True) := by
  have whole : ∀ ms ∈ batches, inContext c ms ⊆ observed :=
    fun ms listed entry mem => known (List.mem_flatMap.mpr ⟨ms, listed, mem⟩)
  have leading : ∀ ms ∈ batches, inContext c (leadingSystems ms) ⊆ observed := by
    intro ms listed entry mem
    obtain ⟨m, own, rfl⟩ := List.mem_map.mp mem
    have inside := mem_inContext.mp mem
    exact whole ms listed (mem_inContext.mpr ((List.takeWhile_sublist _).subset inside))
  rw [writeModelInputMessages, ends_bind]
  refine (writeBatches_holds books leading).mono (fun _ t first => ?_) fun _ _ _ => trivial
  rw [ends_bind]
  have flushed : Ends (flushBranch c) t (fun _ u => Moves observed base t u) (fun _ _ => True) := by
    rw [flushBranch]
    split
    · exact .refl first.moves.books
    · exact (flush_settles first.moves.books _).mono (fun _ _ settles => settles.moves)
        fun _ _ _ => trivial
  refine flushed.mono (fun _ u second => ?_) fun _ _ _ => trivial
  refine (writeBatches_holds second.books whole).mono (fun _ v third => ?_) fun _ _ _ => trivial
  refine ⟨(first.moves.trans second).trans third.moves, fun id mem => third.each id ?_⟩
  obtain ⟨entry, listed, rfl⟩ := List.mem_map.mp mem
  obtain ⟨ms, batch, inside⟩ := List.mem_flatMap.mp listed
  exact List.mem_flatMap.mpr ⟨ms, batch, List.mem_map_of_mem inside⟩

theorem event_holds (books : Books observed base w) {event : ExecutionEvent}
    (known : eventMessages event ⊆ observed) :
    Ends (writeExecutionEvent event) w
      (fun _ t => Holds observed base w (idsOf (eventMessages event)) t) (fun _ _ => True) := by
  rw [eventMessages] at known
  rw [writeExecutionEvent, eventMessages]
  cases data : event.data with
  | onChatModelStart batches =>
    rw [data] at known
    dsimp only
    rw [ends_bind]
    refine (input_holds books known).mono (fun _ t held => ?_) fun _ _ _ => trivial
    refine (writeEvent_moves held.moves.books _ _).mono (fun _ u moves => ?_) fun _ _ _ => trivial
    exact ⟨held.moves.trans moves, fun id mem => moves.held id (held.each id mem)⟩
  | onChatModelEnd response =>
    rw [data] at known
    dsimp only
    have answer : inContext event.callContext ((some [Observed.message response]).getD []) ⊆
        observed := known
    rw [ends_bind]
    refine (writeMessages_holds books answer).mono (fun _ t held => ?_) fun _ _ _ => trivial
    refine (writeEvent_moves held.moves.books _ _).mono (fun _ u moves => ?_) fun _ _ _ => trivial
    exact ⟨held.moves.trans moves, fun id mem => moves.held id (held.each id mem)⟩
  | onToolEnd output =>
    rw [data] at known
    cases output with
    | message m =>
      by_cases tool : messageType m = "tool"
      · simp only [if_pos tool] at known ⊢
        exact writeMessages_holds (c := event.context) books known
      · simp only [if_neg tool]
        exact ⟨.refl books, fun _ mem => absurd mem List.not_mem_nil⟩
    | command messages => exact writeMessages_holds books known
    | other => exact ⟨.refl books, fun _ mem => absurd mem List.not_mem_nil⟩
  | onChainStart messages | onChainEnd messages =>
    rw [data] at known
    exact deferMessages_holds books known
  | unobserved => exact ⟨.refl books, fun _ mem => absurd mem List.not_mem_nil⟩

variable {agentName : String} {userMessage : Message} {events : List Streamed}
  {streamed : Streamed}

theorem streamed_holds (books : Books observed base w)
    (known : streamedMessages agentName streamed ⊆ observed) :
    Ends (recordStreamed agentName streamed) w
      (fun _ t => Holds observed base w (idsOf (streamedMessages agentName streamed)) t)
      (fun _ _ => True) := by
  rw [streamedMessages] at known
  obtain ⟨shown, updates⟩ := List.append_subset.mp known
  rw [recordStreamed, ends_bind]
  refine (event_holds books shown).mono (fun _ t first => ?_) fun _ _ _ => trivial
  rw [streamedMessages, idsOf, List.map_append]
  by_cases inner : streamed.event.parentIds ≠ []
  · rw [if_pos inner, if_pos inner, ends_pure]
    exact first.append ⟨.refl first.moves.books, fun _ mem => absurd mem List.not_mem_nil⟩
  · rw [if_neg inner] at updates
    rw [if_neg inner, if_neg inner]
    have later : Ends (streamed.updates.forM fun messages =>
          deferMessages (some messages) (updateContext agentName streamed.event)) t
        (fun _ u => Holds observed base t (idsOf (streamed.updates.flatMap
          (inContext (updateContext agentName streamed.event)))) u)
        (fun _ _ => True) := by
      rw [idsOf_flatMap]
      refine forM_holds first.moves.books fun messages listed u books => ?_
      refine deferMessages_holds books fun entry mem => updates ?_
      exact List.mem_flatMap.mpr ⟨messages, listed, mem⟩
    exact later.mono (fun _ _ second => first.append second) fun _ _ _ => trivial

theorem run_holds (books : Books observed base w)
    (known : events.flatMap (streamedMessages agentName) ⊆ observed) :
    Ends (invokeAgent agentName events) w
      (fun _ t => Holds observed base w (idsOf (events.flatMap (streamedMessages agentName))) t)
      (fun _ _ => True) := by
  rw [invokeAgent, idsOf_flatMap]
  refine forM_holds books fun streamed listed t books => ?_
  exact streamed_holds books fun entry mem => known (List.mem_flatMap.mpr ⟨streamed, listed, mem⟩)

/-- After the last flush nothing waits any longer. -/
theorem final_flush_settles (books : Books observed base w) :
    Ends (flushPendingMessages none) w
      (fun _ t => Books observed base t ∧
        ∀ id, Held observed base w id → Settled observed base t id)
      (fun _ _ => True) := by
  refine (flush_settles books none).mono (fun _ t settles => ?_) fun _ _ _ => trivial
  refine ⟨settles.moves.books, fun id held => ?_⟩
  rcases held with waits | settled
  · obtain ⟨entry, mem, rfl⟩ := List.mem_map.mp waits
    have covered : (entry.2.2, Observed.message entry.2.1) ∈ w.flushed none :=
      List.mem_map.mpr ⟨entry, List.mem_filter.mpr ⟨mem, rfl⟩, rfl⟩
    rw [← (books.queued entry mem).2]
    exact settles.each _ _ covered
  · exact settles.moves.settled id settled

/-- Each observed message has one record, or is an instruction its branch shows already. -/
def Complete (observed : List (Context × Message)) (base : Writer) (t : Writer) : Prop :=
  ∀ entry ∈ observed,
    (recordedIds t.lines).count (.str (ensureMessageId entry.2)) = 1 ∨
      Repeats observed base t.seenMessageIds (ensureMessageId entry.2)

theorem Books.complete (books : Books observed base t)
    (settled : ∀ entry ∈ observed, Settled observed base t (ensureMessageId entry.2)) :
    Complete observed base t := by
  intro entry mem
  rcases settled entry mem with seen | repeats
  · refine .inl ?_
    rw [books.recorded]
    refine List.count_eq_one_of_mem ?_ ?_
    · exact (List.nodup_reverse.mpr books.once).map fun _ _ same => Json.str.inj same
    · exact List.mem_map_of_mem (List.mem_reverse.mpr seen)
  · exact .inr repeats

/-- What follows the stream, when nothing is raised. -/
theorem closing_complete (books : Books observed base w)
    (held : ∀ entry ∈ observed, Held observed base w (ensureMessageId entry.2)) (status : String)
    (result : Except String Unit) :
    Ends (flushPendingMessages none >>= fun _ =>
        writeEvent .modelCallsEnd [("status", .str status)] >>= fun _ => raised result) w
      (fun _ t => recordedIds t.lines = t.seenMessageIds.reverse.map Json.str ∧
        Complete observed base t)
      (fun _ _ => True) := by
  rw [ends_bind]
  refine (final_flush_settles books).mono (fun _ t flushed => ?_) fun _ _ _ => trivial
  rw [ends_bind]
  refine (writeEvent_moves flushed.1 _ _).mono (fun _ u moves => ?_) fun _ _ _ => trivial
  rw [ends_raised]
  refine ⟨fun _ _ => ⟨moves.books.recorded, moves.books.complete fun entry mem => ?_⟩,
    fun _ _ => trivial⟩
  exact moves.settled _ (flushed.2 _ (held entry mem))

/-- An error of the stream is raised in the end. -/
theorem closing_raises (program : TrajectoryWriter.Recording Unit) (status : String)
    (error : String) {Q : Unit → Writer → Prop} :
    Ends (program >>= fun _ =>
        writeEvent .modelCallsEnd [("status", .str status)] >>= fun _ =>
          raised (Except.error error)) w Q (fun _ _ => True) := by
  rw [ends_bind]
  refine (ends_trivial program w).mono (fun _ t _ => ?_) fun _ _ _ => trivial
  rw [ends_bind]
  refine (ends_trivial _ t).mono (fun _ u _ => ?_) fun _ _ _ => trivial
  rw [ends_raised]
  exact ⟨fun _ same => (nomatch same), fun _ _ => trivial⟩

theorem books_empty (empty : base.lines = []) (unseen : base.seenMessageIds = [])
    (idle : base.pendingMessages = []) (untold : ∀ branch, base.systemContents branch = none) :
    Books observed base base := by
  refine ⟨rfl, ?_, ?_, fun branch content remembered => ?_, fun entry mem => ?_⟩
  · rw [empty, unseen]
    rfl
  · rw [unseen]
    exact List.nodup_nil
  · rw [untold] at remembered
    cases remembered
  · rw [idle] at mem
    cases mem

theorem invocation_complete (agentName : String) (userMessage : Message) (events : List Streamed)
    (ending : Ending)
    (books : Books (observations agentName userMessage events) base base) :
    Ends (invokeAgentRuntimeGraph agentName userMessage events ending) base
      (fun _ t => recordedIds t.lines = t.seenMessageIds.reverse.map Json.str ∧
        Complete (observations agentName userMessage events) base t)
      (fun _ _ => True) := by
  have own : inContext (userContext agentName) ((some [Observed.message userMessage]).getD []) ⊆
      observations agentName userMessage events := by
    intro entry mem
    rw [List.mem_singleton.mp mem]
    exact List.mem_cons_self
  rw [invokeAgentRuntimeGraph, ends_bind]
  refine (deferMessages_holds books own).mono (fun _ t first => ?_) fun _ _ _ => trivial
  rw [ends_bind]
  refine (writeEvent_moves first.moves.books _ _).mono (fun _ u opened => ?_) fun _ _ _ => trivial
  rw [ends_bind, ends_attempt]
  refine (run_holds opened.books (List.subset_cons_self _ _)).mono (fun _ v run => ?_)
    fun e v _ => ?_
  · refine closing_complete run.moves.books (fun entry mem => ?_) _ _
    rcases List.mem_cons.mp mem with rfl | streamed
    · exact run.moves.held _ (opened.held _ (first.each _ List.mem_cons_self))
    · exact run.each _ (List.mem_map_of_mem streamed)
  · exact closing_raises _ _ e

theorem one_call_returns :
    ((invokeAgentRuntimeGraph "reviewer" (spoken "human" "u1" "Review.") oneCall
      .completed).run.run (start (some "reviewer"))).1 = .ok () := by decide

end RecordedMessages
