import SecReviewBot.Agents.TrajectoryWriter

/-!
# What one call of the writer does

Writing a message ends in one of three ways, or raises and leaves the lines alone. Everything
said of runs of the writer is derived from these.
-/

namespace TrajectoryWriter

open AgentTranscript Checks JsonValues ThrowingPrograms TokenUsage TrajectoryRecords

variable {c : Context} {m : Message} {w t : Writer}

theorem serialize_ok {messageId : String} {serialized : Json}
    (done : serializeAgentMessage m messageId = .ok serialized) :
    get serialized "role" = .str (roleOf (messageType m)) ∧
      get serialized "id" = .str messageId ∧
      get serialized "content" = get m.fields "content" := by
  rw [serializeAgentMessage] at done
  obtain ⟨usage, -, same⟩ := bind_ok.mp done
  cases same
  exact ⟨rfl, rfl, rfl⟩

theorem roleOf_system {name : String} (system : roleOf name = "system") : name = "system" := by
  by_cases human : name = "human"
  · simp [roleOf, human] at system
  · by_cases ai : name = "ai"
    · simp [roleOf, ai] at system
    · rwa [roleOf, if_neg human, if_neg ai] at system

/-- The instruction of a deep branch is what that branch remembers. -/
structure Unchanged (c : Context) (m : Message) (w : Writer) : Prop where
  system : messageType m = "system"
  deep : 2 ≤ c.parents.length
  same : ∃ content, serializeAgentMessage m "system" = .ok content ∧
    w.systemContents (w.branchOf c) = some content

/-- What becomes of the writer when a message is not skipped as unchanged. -/
inductive Remembers (c : Context) (m : Message) (w : Writer) : Writer → Prop
  | other (aside : messageType m ≠ "system" ∨ c.parents.length < 2) : Remembers c m w w
  | changed (system : messageType m = "system") (deep : 2 ≤ c.parents.length) (content : Json)
      (serialized : serializeAgentMessage m "system" = .ok content)
      (differs : w.systemContents (w.branchOf c) ≠ some content) :
      Remembers c m w (w.remember (w.branchOf c) content)

/-- The line a recorded message adds. -/
def Writer.messageLine (w : Writer) (c : Context) (source serialized : Json) : Record :=
  .message (w.seq + 1) c (w.agentOf c) source serialized

/-- The ways in which writing a message returns. -/
inductive Wrote (c : Context) (m : Message) (w : Writer) : Writer → Prop
  | unchanged (same : Unchanged c m w) : Wrote c m w w
  | known (t : Writer) (remembers : Remembers c m w t)
      (seen : ensureMessageId m ∈ w.seenMessageIds) : Wrote c m w t
  | recorded (t : Writer) (remembers : Remembers c m w t)
      (fresh : ensureMessageId m ∉ w.seenMessageIds) (source serialized : Json)
      (originates : sourceOf m c = .ok source)
      (serializes : serializeAgentMessage m (ensureMessageId m) = .ok serialized)
      (valid : validateTrajectoryEvent (w.messageLine c source serialized).json =
        .ok (w.messageLine c source serialized).json) :
      Wrote c m w
        (((t.take (ensureMessageId m)).advance).record (w.messageLine c source serialized))

/-- Nothing more is in the file, and nothing recorded is forgotten. -/
structure Stopped (w t : Writer) : Prop where
  lines : t.lines = w.lines
  seq : w.seq ≤ t.seq
  seen : ∀ id ∈ w.seenMessageIds, id ∈ t.seenMessageIds

theorem Stopped.refl (w : Writer) : Stopped w w := ⟨rfl, Nat.le_refl _, fun _ mem => mem⟩

theorem Remembers.lines (h : Remembers c m w t) : t.lines = w.lines := by
  cases h <;> rfl

theorem Remembers.seq (h : Remembers c m w t) : t.seq = w.seq := by
  cases h <;> rfl

theorem Remembers.seen (h : Remembers c m w t) : t.seenMessageIds = w.seenMessageIds := by
  cases h <;> rfl

theorem Remembers.pending (h : Remembers c m w t) : t.pendingMessages = w.pendingMessages := by
  cases h <;> rfl

theorem Remembers.agent (h : Remembers c m w t) : t.agent = w.agent := by
  cases h <;> rfl

theorem Remembers.stopped (h : Remembers c m w t) : Stopped w t :=
  ⟨h.lines, h.seq.ge, fun _ mem => h.seen.symm ▸ mem⟩

theorem isUnchangedSystemMessage_ends (c : Context) (m : Message) (w : Writer) :
    Ends (isUnchangedSystemMessage m c) w
      (fun unchanged t => if unchanged then Unchanged c m w ∧ t = w else Remembers c m w t)
      (fun _ t => t = w) := by
  rw [isUnchangedSystemMessage]
  split
  · rename_i aside
    rw [ends_pure]
    exact Remembers.other aside
  · rename_i instruction
    have system : messageType m = "system" := by
      by_contra other
      exact instruction (.inl other)
    have deep : 2 ≤ c.parents.length := by omega
    rw [ends_bind, ends_raised]
    refine ⟨fun content serialized => ?_, fun _ _ => rfl⟩
    rw [ends_bind, ends_get]
    split
    · rename_i same
      rw [ends_pure]
      exact ⟨⟨system, deep, content, serialized, same⟩, rfl⟩
    · rename_i differs
      rw [ends_bind, ends_set, ends_pure]
      exact Remembers.changed system deep content serialized differs

theorem validate_same {line event : Json} (valid : validateTrajectoryEvent line = .ok event) :
    event = line := by
  rw [validateTrajectoryEvent] at valid
  obtain ⟨-, valid⟩ := require_bind.mp valid
  obtain ⟨-, valid⟩ := require_bind.mp valid
  obtain ⟨_, -, valid⟩ := bind_ok.mp valid
  obtain ⟨-, valid⟩ := require_bind.mp valid
  obtain ⟨_, -, valid⟩ := bind_ok.mp valid
  obtain ⟨-, valid⟩ := require_bind.mp valid
  cases valid
  rfl

theorem append_ends (line : Record) (encodable : Bool) (w : Writer) :
    Ends (append line encodable) w
      (fun _ t => validateTrajectoryEvent line.json = .ok line.json ∧ t = w.record line)
      (fun _ t => t = w) := by
  rw [append, ends_bind, ends_raised]
  refine ⟨fun event valid => ?_, fun _ _ => rfl⟩
  rw [ends_bind, ends_raised]
  refine ⟨fun _ _ => ?_, fun _ _ => rfl⟩
  rw [ends_modify]
  cases validate_same valid
  exact ⟨valid, rfl⟩

theorem writeMessage_ends (c : Context) (m : Message) (w : Writer) :
    Ends (writeMessage c m) w (fun _ t => Wrote c m w t) (fun _ t => Stopped w t) := by
  rw [writeMessage, ends_bind]
  refine (isUnchangedSystemMessage_ends c m w).mono ?_ ?_
  · intro unchanged t outcome
    cases unchanged with
    | true =>
      obtain ⟨same, rfl⟩ := outcome
      exact Wrote.unchanged same
    | false =>
      have remembers : Remembers c m w t := outcome
      rw [if_neg Bool.false_ne_true, ends_bind, ends_get]
      split
      · rename_i seen
        rw [ends_pure]
        exact Wrote.known t remembers (remembers.seen ▸ seen)
      · rename_i fresh
        have taken : Stopped w (t.take (ensureMessageId m)) :=
          ⟨remembers.lines, remembers.seq.ge,
            fun _ mem => List.mem_cons_of_mem _ (remembers.seen.symm ▸ mem)⟩
        have advanced : Stopped w (t.take (ensureMessageId m)).advance :=
          ⟨taken.lines, Nat.le_succ_of_le taken.seq, taken.seen⟩
        rw [ends_bind, ends_set, ends_bind, ends_raised]
        refine ⟨fun source originates => ?_, fun _ _ => taken⟩
        rw [ends_bind, ends_modify, ends_bind, ends_raised]
        refine ⟨fun serialized serializes => ?_, fun _ _ => advanced⟩
        rw [ends_bind, ends_get]
        have line : Record.message (t.take (ensureMessageId m)).advance.seq c
            ((t.take (ensureMessageId m)).advance.agentOf c) source serialized =
            w.messageLine c source serialized := by
          simp [Writer.messageLine, Writer.take, Writer.advance, Writer.agentOf, remembers.seq,
            remembers.agent]
        rw [line]
        refine (append_ends _ _ _).mono ?_ ?_
        · rintro _ u ⟨valid, rfl⟩
          exact Wrote.recorded t remembers (remembers.seen ▸ fresh) source serialized originates
            serializes valid
        · rintro _ u rfl
          exact advanced
  · rintro _ t rfl
    exact Stopped.refl t

theorem Wrote.agent (h : Wrote c m w t) : t.agent = w.agent := by
  cases h with
  | unchanged same => rfl
  | known t remembers seen => exact remembers.agent
  | recorded t remembers => exact remembers.agent

theorem writeEvent_ends (kind : Kind) (fields : List (String × Json)) (w : Writer) :
    Ends (writeEvent kind fields) w
      (fun _ t => validateTrajectoryEvent (Record.event (w.seq + 1) kind fields).json =
          .ok (Record.event (w.seq + 1) kind fields).json ∧
        t = w.advance.record (.event (w.seq + 1) kind fields))
      (fun _ t => Stopped w t) := by
  rw [writeEvent, ends_bind, ends_modify, ends_bind, ends_get]
  refine (append_ends _ _ _).mono (fun _ _ h => h) ?_
  rintro _ t rfl
  exact ⟨rfl, Nat.le_succ _, fun _ mem => mem⟩

/-- An event leaves the queue and the known ids alone. -/
theorem writeEvent_queue (kind : Kind) (fields : List (String × Json)) (w : Writer) :
    Keeps (fun t => t.seenMessageIds = w.seenMessageIds ∧ t.pendingMessages = w.pendingMessages)
      (writeEvent kind fields) := by
  intro t same
  rw [writeEvent, ends_bind, ends_modify, ends_bind, ends_get]
  refine (append_ends _ _ _).mono ?_ ?_
  · rintro _ u ⟨-, rfl⟩
    exact same
  · rintro _ u rfl
    exact same

/-- Deferring changes the queue and nothing else. -/
theorem defer_queue (w : Writer) (c : Context) (m : Observed) :
    ∃ queue, w.defer c m = { w with pendingMessages := queue } := by
  cases m with
  | removeMessage => exact ⟨w.pendingMessages, rfl⟩
  | message m =>
    simp only [Writer.defer]
    split
    · exact ⟨w.pendingMessages, rfl⟩
    · exact ⟨_, rfl⟩

theorem defers_queue (c : Context) (ms : List Observed) (w : Writer) :
    ∃ queue, ms.foldl (fun w m => w.defer c m) w = { w with pendingMessages := queue } := by
  induction ms generalizing w with
  | nil => exact ⟨w.pendingMessages, rfl⟩
  | cons m ms ih =>
    obtain ⟨queue, deferred⟩ := defer_queue w c m
    obtain ⟨later, rest⟩ := ih (w.defer c m)
    refine ⟨later, ?_⟩
    rw [List.foldl_cons, rest, deferred]

theorem deferMessages_ends (messages : Option (List Observed)) (c : Context) (w : Writer) :
    Ends (deferMessages messages c) w
      (fun _ t => ∃ queue, t = { w with pendingMessages := queue }) (fun _ _ => False) := by
  rw [deferMessages, ends_modify]
  exact defers_queue c _ w

end TrajectoryWriter
