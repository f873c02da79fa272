import SecReviewBot.ReviewRuns.Statements

/-!
# What a transaction is made of

Every action is a sequence of single writes: an update of one axis row, of the
steps or of the candidates, a fresh token, an appended event, a queued notice
or a rewritten one. `Writes` lists them and forgets which statement each one
is. Facts that each single write keeps (counters only grow, events are only
appended, notices stay tied to an earlier event) follow by induction.
-/

namespace TransactionWrites

open KeyedTables ReviewRunsSchema ReviewRunsTransactions Coordination Statements

/-- A lease has the time it was taken. -/
def PreparationHeld (p : Preparation) : Prop := p.status = .preparing → p.claimedAt.isSome = true

def ExecutionHeld (e : Execution) : Prop := e.claimToken.isSome = true → e.claimedAt.isSome = true

def PublicationHeld (p : Publication) : Prop :=
  p.status.inFlight = true → p.claimedAt.isSome = true

def ResultKept (e next : Execution) : Prop :=
  e.status = .succeeded → next.status = .succeeded ∧ next.workflowResult = e.workflowResult

/-- The publication row and the steps are written only while the publication
was not concluded when the transaction began. -/
inductive Writes (origin : Tx) : Tx → Prop where
  | start : Writes origin origin
  | preparation {tx : Tx} (f : Preparation → Preparation)
      (held : PreparationHeld tx.run.preparation → PreparationHeld (f tx.run.preparation))
      (h : Writes origin tx) : Writes origin (updatePreparation f tx)
  | execution {tx : Tx} (f : Execution → Execution)
      (held : ExecutionHeld tx.run.execution → ExecutionHeld (f tx.run.execution))
      (result : ResultKept tx.run.execution (f tx.run.execution))
      (h : Writes origin tx) : Writes origin (updateExecution f tx)
  | publication {tx : Tx} (f : Publication → Publication) (live : ¬ Concluded origin.run)
      (held : PublicationHeld tx.run.publication → PublicationHeld (f tx.run.publication))
      (h : Writes origin tx) : Writes origin (updatePublication f tx)
  | steps {tx : Tx} (f : Table StepKey PublicationStep → Table StepKey PublicationStep)
      (live : ¬ Concluded origin.run) (h : Writes origin tx) : Writes origin (updateSteps f tx)
  | candidates {tx : Tx}
      (f : Table Digest InputBundleCandidate → Table Digest InputBundleCandidate)
      (h : Writes origin tx) : Writes origin (updateCandidates f tx)
  | token {tx : Tx} (h : Writes origin tx) : Writes origin (randomUUID tx).2
  | event {tx : Tx} (axis : Axis) (fromStatus : Option StatusName) (toStatus : StatusName)
      (reasonCode : Option String) (h : Writes origin tx) :
      Writes origin (appendEvent axis fromStatus toStatus reasonCode tx)
  | notice {tx : Tx} (sourceEventId : Nat) (kind : NoticeKind) (axis : Axis)
      (reasonCode : Option String) (known : sourceEventId < tx.nextEventId)
      (h : Writes origin tx) : Writes origin (queueRunNotice sourceEventId kind axis reasonCode tx)
  | supersede {tx : Tx} (axis : Axis) (h : Writes origin tx) :
      Writes origin (supersedeRunAttentionNotices axis tx)
  | rewrite {tx : Tx} (noticeId : NoticeId) (n : RunNotice) (f : RunNotice → RunNotice)
      (found : tx.run.notices.row noticeId = some n)
      (source : (f n).sourceEventId = n.sourceEventId) (h : Writes origin tx) :
      Writes origin (updateNotices (fun notices => notices.put noticeId (f n)) tx)

theorem preparationHeld_of_write {now : Timestamp} {p next : Preparation}
    (write : PreparationWrite now p next) (held : PreparationHeld p) : PreparationHeld next := by
  cases write with
  | checkpoint input preparing => exact held
  | expire exhausted preparing =>
    cases exhausted <;> simp [PreparationHeld, PreparationStore.expirePreparation]
  | _ => simp [PreparationHeld, PreparationStore.closeFailed]

theorem executionHeld_of_write {resuming : Prop} {drawn : Token → Prop} {now : Timestamp}
    {e next : Execution} (write : ExecutionWrite resuming drawn now e next)
    (held : ExecutionHeld e) : ExecutionHeld next := by
  cases write with
  | recover | failRecovery | claimRecovery | resume | disconnect | fail | stop =>
    simp [ExecutionHeld]
  | _ => exact held

theorem resultKept_of_write {resuming : Prop} {drawn : Token → Prop} {now : Timestamp}
    {e next : Execution} (write : ExecutionWrite resuming drawn now e next) :
    ResultKept e next := by
  intro succeeded
  cases write <;>
    simp_all [SubmissionTransitionStore.holdsRecovery, ExecutionStore.isActive]

theorem publicationHeld_of_write {now : Timestamp} {p next : Publication}
    (write : PublicationWrite now p next) (held : PublicationHeld p) : PublicationHeld next := by
  cases write with
  | setContext context waiting => exact held
  | derive target inFlight stays => exact fun _ => held inFlight
  | fail error retry inFlight => cases retry <;> simp [PublicationHeld, PublicationStatus.inFlight]
  | _ => simp [PublicationHeld, PublicationStatus.inFlight]

theorem noticeWrite_source {now : Timestamp} {n next : RunNotice}
    (write : NoticeWrite now n next) : next.sourceEventId = n.sourceEventId := by
  cases write <;> rfl

theorem writes_of_sequence {action : RunAction} {origin tx : Tx} (h : Sequence action origin tx) :
    Writes origin tx := by
  induction h with
  | start => exact .start
  | next h s ih =>
    cases s with
    | preparation f write => exact .preparation f (preparationHeld_of_write write) ih
    | execution f write =>
      exact .execution f (executionHeld_of_write write) (resultKept_of_write write) ih
    | publication f write =>
      exact .publication f (h.live (live_of_write write)) (publicationHeld_of_write write) ih
    | steps f live => exact .steps f live ih
    | candidates f write => exact .candidates f ih
    | token => exact .token ih
    | event axis fromStatus toStatus reasonCode => exact .event _ _ _ _ ih
    | notice sourceEventId kind axis reasonCode known => exact .notice _ _ _ _ known ih
    | supersede axis => exact .supersede axis ih
    | rewrite noticeId n f found write =>
      exact .rewrite noticeId n f found (noticeWrite_source write) ih

/-- The counters only grow, all statements read one clock, and a run stays with
its connector. -/
structure Advances (tx next : Tx) : Prop where
  now : next.now = tx.now
  token : tx.nextToken ≤ next.nextToken
  event : tx.nextEventId ≤ next.nextEventId
  notice : tx.nextNoticeId ≤ next.nextNoticeId
  connector : next.run.connectorId = tx.run.connectorId

theorem advances_refl (tx : Tx) : Advances tx tx := ⟨rfl, le_rfl, le_rfl, le_rfl, rfl⟩

theorem Advances.trans {a b c : Tx} (h : Advances a b) (h' : Advances b c) : Advances a c where
  now := h'.now.trans h.now
  token := h.token.trans h'.token
  event := h.event.trans h'.event
  notice := h.notice.trans h'.notice
  connector := h'.connector.trans h.connector

theorem queueRunNotice_advances (sourceEventId : Nat) (kind : NoticeKind) (axis : Axis)
    (reasonCode : Option String) (tx : Tx) :
    Advances tx (queueRunNotice sourceEventId kind axis reasonCode tx) := by
  unfold queueRunNotice
  split
  · exact advances_refl tx
  · exact ⟨rfl, le_rfl, le_rfl, Nat.le_succ _, rfl⟩

theorem Writes.advances {tx next : Tx} (h : Writes tx next) : Advances tx next := by
  induction h with
  | start => exact advances_refl tx
  | notice sourceEventId kind axis reasonCode known h ih =>
    exact ih.trans (queueRunNotice_advances _ _ _ _ _)
  | token h ih => exact ih.trans ⟨rfl, Nat.le_succ _, le_rfl, le_rfl, rfl⟩
  | event axis fromStatus toStatus reasonCode h ih =>
    exact ih.trans ⟨rfl, le_rfl, Nat.le_succ _, le_rfl, rfl⟩
  | preparation f held h ih => exact ⟨ih.now, ih.token, ih.event, ih.notice, ih.connector⟩
  | execution f held result h ih => exact ⟨ih.now, ih.token, ih.event, ih.notice, ih.connector⟩
  | publication f live held h ih => exact ⟨ih.now, ih.token, ih.event, ih.notice, ih.connector⟩
  | steps f live h ih => exact ⟨ih.now, ih.token, ih.event, ih.notice, ih.connector⟩
  | candidates f h ih => exact ⟨ih.now, ih.token, ih.event, ih.notice, ih.connector⟩
  | supersede axis h ih => exact ⟨ih.now, ih.token, ih.event, ih.notice, ih.connector⟩
  | rewrite noticeId n f found source h ih =>
    exact ⟨ih.now, ih.token, ih.event, ih.notice, ih.connector⟩

/-- Notice ids and the events they point to were drawn before. -/
def Fresh (tx : Tx) : Prop :=
  ∀ id n, tx.run.notices.row id = some n →
    id < tx.nextNoticeId ∧ n.sourceEventId < tx.nextEventId

theorem queueRunNotice_fresh {tx : Tx} (h : Fresh tx) {sourceEventId : Nat}
    (known : sourceEventId < tx.nextEventId) (kind : NoticeKind) (axis : Axis)
    (reasonCode : Option String) :
    Fresh (queueRunNotice sourceEventId kind axis reasonCode tx) := by
  unfold queueRunNotice
  split
  · exact h
  · intro id n hn
    simp only [Table.put_row] at hn
    split at hn
    · next hid =>
      cases hn
      exact ⟨hid ▸ Nat.lt_succ_self _, known⟩
    · exact ⟨Nat.lt_succ_of_lt (h id n hn).1, (h id n hn).2⟩

theorem Writes.fresh {tx next : Tx} (h : Writes tx next) (fresh : Fresh tx) : Fresh next := by
  induction h with
  | start => exact fresh
  | notice sourceEventId kind axis reasonCode known h ih =>
    exact queueRunNotice_fresh ih known _ _ _
  | token h ih => exact ih
  | event axis fromStatus toStatus reasonCode h ih =>
    exact fun id n hn => ⟨(ih id n hn).1, Nat.lt_succ_of_lt (ih id n hn).2⟩
  | preparation f held h ih => exact ih
  | execution f held result h ih => exact ih
  | publication f live held h ih => exact ih
  | steps f live h ih => exact ih
  | candidates f h ih => exact ih
  | supersede axis h ih =>
    intro id n hn
    obtain ⟨old, hold, rfl⟩ := Option.map_eq_some_iff.mp hn
    refine ⟨(ih id old hold).1, ?_⟩
    unfold supersedeNotice
    split <;> exact (ih id old hold).2
  | rewrite noticeId n f found source h ih =>
    intro id m hm
    simp only [updateNotices, Table.put_row] at hm
    split at hm
    · next hid =>
      cases hm
      exact ⟨hid ▸ (ih noticeId n found).1, source ▸ (ih noticeId n found).2⟩
    · exact ih id m hm

/-- Every lease of the run has the time it was taken. -/
structure Held (run : Run) : Prop where
  preparation : PreparationHeld run.preparation
  execution : ExecutionHeld run.execution
  publication : PublicationHeld run.publication

theorem Writes.held {tx next : Tx} (h : Writes tx next) (held : Held tx.run) :
    Held next.run := by
  induction h with
  | start => exact held
  | preparation f keeps h ih => exact ⟨keeps ih.preparation, ih.execution, ih.publication⟩
  | execution f keeps result h ih => exact ⟨ih.preparation, keeps ih.execution, ih.publication⟩
  | publication f live keeps h ih =>
    exact ⟨ih.preparation, ih.execution, keeps ih.publication⟩
  | notice sourceEventId kind axis reasonCode known h ih =>
    simp only [queueRunNotice]
    split
    · exact ih
    · exact ⟨ih.preparation, ih.execution, ih.publication⟩
  | _ =>
    next ih => exact ⟨ih.preparation, ih.execution, ih.publication⟩

theorem Writes.resultKept {tx next : Tx} (h : Writes tx next) :
    ResultKept tx.run.execution next.run.execution := by
  intro succeeded
  induction h with
  | start => exact ⟨succeeded, rfl⟩
  | execution f held result h ih =>
    obtain ⟨still, kept⟩ := result ih.1
    exact ⟨still, kept.trans ih.2⟩
  | notice sourceEventId kind axis reasonCode known h ih =>
    simp only [queueRunNotice]
    split <;> exact ih
  | _ =>
    next ih => exact ih

end TransactionWrites
