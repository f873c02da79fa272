import SecReviewBot.ReviewRuns.Coordination

/-!
# The statements of a transaction

The `UPDATE` and `INSERT` statements of the stores, one constructor for each,
with what its `WHERE` clause requires of the row and the columns it sets.
`Statement` is one of them on the rows of a run, and `perform_statements` says
that every transaction is a sequence of such statements: it is the only place
that looks into all the actions. What a single statement keeps, a transaction
keeps.
-/

namespace TransactionWrites

open ReviewRunsSchema

/-- The publication reached one of its terminal states. -/
def Concluded (run : Run) : Prop :=
  run.publication.status = .published ∨ run.publication.status = .failed ∨
    run.publication.status = .skipped

end TransactionWrites

namespace Statements

open JsonValues KeyedTables ReviewRunsSchema ReviewRunsTransactions Coordination
open TransactionWrites (Concluded)

/-- Statements on `preparations`. -/
inductive PreparationWrite (now : Timestamp) (p : Preparation) : Preparation → Prop where
  | claim (token : Token) (waiting : p.status = .pending ∨ p.status = .uncertain) :
      PreparationWrite now p
        { p with status := .preparing, claimToken := some token, claimedAt := some now,
                 attemptCount := p.attemptCount + 1, failureCode := none,
                 failureMessage := none, startedAt := p.startedAt.or (some now),
                 updatedAt := now }
  | renew (held : p.status = .preparing) :
      PreparationWrite now p { p with claimedAt := some now, updatedAt := now }
  | checkpoint (input : Json) (held : p.status = .preparing) :
      PreparationWrite now p { p with input := input, updatedAt := now }
  | expire (exhausted : Bool) (held : p.status = .preparing) :
      PreparationWrite now p (PreparationStore.expirePreparation exhausted now p)
  | park (reason : String) (held : p.status = .preparing) :
      PreparationWrite now p
        { p with status := .disconnected, disconnectReason := some reason, claimToken := none,
                 claimedAt := none, updatedAt := now }
  | retry (availableAt : Timestamp) (error : Failure) (held : p.status = .preparing) :
      PreparationWrite now p
        { p with status := .pending, claimToken := none, claimedAt := none,
                 availableAt := availableAt, failureCode := error.code,
                 failureMessage := some error.message, lastFailureCode := error.code,
                 lastFailureMessage := some error.message, updatedAt := now }
  | close (error : Failure) (held : p.status = .preparing) :
      PreparationWrite now p (PreparationStore.closeFailed error now p)
  | submit (held : p.status = .preparing) :
      PreparationWrite now p
        { p with status := .submitted, claimToken := none, claimedAt := none,
                 finishedAt := some now, updatedAt := now }
  | failParked (code reason : String) (parked : p.status = .disconnected) :
      PreparationWrite now p
        { p with status := .failed, claimToken := none, claimedAt := none,
                 failureCode := some code, failureMessage := some reason,
                 lastFailureCode := some code, lastFailureMessage := some reason,
                 finishedAt := some now, disconnectReason := none, updatedAt := now }
  | resume (parked : p.status = .disconnected) :
      PreparationWrite now p
        { p with status := .uncertain, disconnectReason := none, attemptCount := 0,
                 availableAt := now, updatedAt := now }

/-- Statements on `executions`. Recovery tokens are drawn in the transaction
that takes the claim, and only an operator's decision is `resuming`. -/
inductive ExecutionWrite (resuming : Prop) (drawn : Token → Prop) (now : Timestamp)
    (e : Execution) : Execution → Prop where
  | skip (waiting : e.status = .pending) :
      ExecutionWrite resuming drawn now e
        { e with status := .skipped, failureCode := none, failureMessage := none,
                 finishedAt := some now, observedAt := now, updatedAt := now }
  | doubt (error : Failure) (waiting : e.status = .pending) :
      ExecutionWrite resuming drawn now e
        { e with status := .uncertain, failureCode := error.code,
                 failureMessage := some error.message, observedAt := now, updatedAt := now }
  | saveInput (input : Json) (waiting : e.status = .pending)
      (unset : e.input = none ∨ e.input = some input) :
      ExecutionWrite resuming drawn now e { e with input := some input, updatedAt := now }
  | queue (waiting : e.status = .pending) :
      ExecutionWrite resuming drawn now e
        { e with status := .queued, startedAt := e.startedAt.or (some now), failureCode := none,
                 failureMessage := none, observedAt := now, updatedAt := now }
  | recover (token : Token)
      (held : SubmissionTransitionStore.holdsRecovery token e = true) :
      ExecutionWrite resuming drawn now e
        { e with status := .queued, claimToken := none, claimedAt := none,
                 startedAt := e.startedAt.or (some now), failureCode := none,
                 failureMessage := none, observedAt := now, updatedAt := now }
  | failRecovery (token : Token) (error : Failure)
      (held : SubmissionTransitionStore.holdsRecovery token e = true) :
      ExecutionWrite resuming drawn now e
        { e with status := .failed, claimToken := none, claimedAt := none,
                 failureCode := error.code, failureMessage := some error.message,
                 finishedAt := some now, observedAt := now, updatedAt := now }
  | observe (active : ExecutionStore.isActive e = true) :
      ExecutionWrite resuming drawn now e { e with observedAt := now }
  | start (queued : e.status = .queued) :
      ExecutionWrite resuming drawn now e
        { e with status := .running, observedAt := now, updatedAt := now }
  | storeArtifact (storage : ArtifactStorage) :
      ExecutionWrite resuming drawn now e
        { e with artifactStorage := some storage, updatedAt := now }
  | succeed (result : Option Json) (storage : Option ArtifactStorage)
      (active : ExecutionStore.isActive e = true) :
      ExecutionWrite resuming drawn now e
        { e with status := .succeeded, workflowResult := result, artifactStorage := storage,
                 failureCode := none, failureMessage := none, finishedAt := some now,
                 observedAt := now, updatedAt := now }
  | claimRecovery (token : Token) (fresh : drawn token) (doubtful : e.status = .uncertain) :
      ExecutionWrite resuming drawn now e
        { e with claimToken := some token, claimedAt := some now, updatedAt := now }
  | resume (parked : e.status = .disconnected) (resumes : resuming) :
      ExecutionWrite resuming drawn now e
        { e with status := .uncertain, claimToken := none, claimedAt := none,
                 attemptCount := 0, updatedAt := now }
  | disconnect (doubtful : e.status = .uncertain) :
      ExecutionWrite resuming drawn now e
        { e with status := .disconnected, claimToken := none, claimedAt := none,
                 updatedAt := now }
  | countUnknown (token : Token)
      (held : SubmissionTransitionStore.holdsRecovery token e = true) :
      ExecutionWrite resuming drawn now e
        { e with attemptCount := e.attemptCount + 1, updatedAt := now }
  | fail (error : Failure) (storage : Option ArtifactStorage)
      (active : ExecutionStore.isActive e = true) :
      ExecutionWrite resuming drawn now e
        { e with status := .failed, claimToken := none, claimedAt := none,
                 failureCode := error.code, failureMessage := some error.message,
                 artifactStorage := storage, finishedAt := some now, observedAt := now,
                 updatedAt := now }
  -- `giveUpDisconnectedExecution` and the execution of an abandoned preparation
  | stop (code reason : String)
      (moving : e.status = .queued ∨ e.status = .running ∨ e.status = .uncertain ∨
        e.status = .disconnected) :
      ExecutionWrite resuming drawn now e
        { e with status := .failed, claimToken := none, claimedAt := none,
                 failureCode := some code, failureMessage := some reason,
                 finishedAt := e.finishedAt.or (some now), observedAt := now, updatedAt := now }

/-- Statements on `publications`. -/
inductive PublicationWrite (now : Timestamp) (p : Publication) : Publication → Prop where
  | abandon (waiting : p.status = .pending ∨ p.status = .publishing) :
      PublicationWrite now p
        { p with status := .skipped, claimToken := none, claimedAt := none,
                 finishedAt := some now, failureCode := none, failureMessage := none,
                 updatedAt := now }
  | setContext (context : Json) (waiting : p.status = .pending) :
      PublicationWrite now p { p with input := context, updatedAt := now }
  | claim (token : Token)
      (claimable : p.status = .pending ∨ p.status = .publishing ∨ p.status = .uncertain) :
      PublicationWrite now p
        { p with status := .publishing, claimToken := some token, claimedAt := some now,
                 startedAt := p.startedAt.or (some now), failureCode := none,
                 failureMessage := none, updatedAt := now }
  | derive (target : PublicationStatus) (inFlight : p.status.inFlight = true)
      (stays : target.inFlight = true) :
      PublicationWrite now p { p with status := target, updatedAt := now }
  | renew (inFlight : p.status.inFlight = true) :
      PublicationWrite now p { p with claimedAt := some now, updatedAt := now }
  | resume (parked : p.status = .disconnected) :
      PublicationWrite now p
        { p with status := .pending, claimToken := none, claimedAt := none, updatedAt := now }
  | complete (inFlight : p.status.inFlight = true) :
      PublicationWrite now p
        { p with status := .published, claimToken := none, finishedAt := some now,
                 failureCode := none, failureMessage := none, updatedAt := now }
  | fail (error : Failure) (retry : Bool) (inFlight : p.status.inFlight = true) :
      PublicationWrite now p
        { p with status := if retry then .pending else .failed, claimToken := none,
                 failureCode := error.code, failureMessage := some error.message,
                 finishedAt := if retry then none else some now, updatedAt := now }
  | failStep (error : Failure) (inFlight : p.status.inFlight = true) :
      PublicationWrite now p
        { p with status := .failed, claimToken := none, claimedAt := none,
                 failureCode := error.code, failureMessage := some error.message,
                 finishedAt := some now, updatedAt := now }
  | giveUp (code reason : String) (parked : p.status = .disconnected) :
      PublicationWrite now p
        { p with status := .failed, claimToken := none, claimedAt := none,
                 failureCode := some code, failureMessage := some reason,
                 finishedAt := p.finishedAt.or (some now), updatedAt := now }

/-- Statements on `input_bundle_candidates`. Only the transaction that saves a
prepared submission is `saving`. -/
inductive CandidatesWrite (saving : Prop) (now : Timestamp)
    (cs : Table Digest InputBundleCandidate) : Table Digest InputBundleCandidate → Prop where
  | insert (digest : Digest) (c : InputBundleCandidate) (absent : cs.row digest = none)
      (reserved : c.status = .reserved)
      (checks : InputBundleCandidateStore.satisfiesChecks digest c = true) :
      CandidatesWrite saving now cs (cs.put digest c)
  | reserveAgain (digest : Digest) (c : InputBundleCandidate) (found : cs.row digest = some c) :
      CandidatesWrite saving now cs (cs.put digest
        (if c.status = .abandoned then { c with status := .reserved, updatedAt := now } else c))
  | settle (digest : Digest) (c : InputBundleCandidate)
      (settlement : InputBundleCandidateStore.Settlement) (found : cs.row digest = some c)
      (unselected : c.status ≠ .selected) :
      CandidatesWrite saving now cs (cs.put digest
        { c with status := settlement.status
                 updatedAt := if c.status = settlement.status then c.updatedAt else now })
  | select (digest : Digest) (c : InputBundleCandidate) (found : cs.row digest = some c)
      (alone : ∀ other o, cs.row other = some o → other ≠ digest → o.status ≠ .selected)
      (saves : saving) :
      CandidatesWrite saving now cs
        (cs.put digest (SubmissionTransitionStore.selectCandidate now c))
  | abandon :
      CandidatesWrite saving now cs (cs.mapRows (abandonCandidate now))

/-- Statements on a row of `run_notices` that exists. -/
inductive NoticeWrite (now : Timestamp) (n : RunNotice) : RunNotice → Prop where
  | claim (token : Token) :
      NoticeWrite now n
        { n with status := .delivering, claimToken := some token, claimedAt := some now,
                 updatedAt := now }
  | renew (held : n.status = .delivering) :
      NoticeWrite now n { n with claimedAt := some now, updatedAt := now }
  | complete (delivered : Bool) (commentUrl : Option String) :
      NoticeWrite now n
        { n with status := if delivered then .delivered else .failed, claimToken := none,
                 claimedAt := none, commentUrl := commentUrl, updatedAt := now }

/-- The action saves a prepared submission. -/
def Saves (action : RunAction) : Prop :=
  ∃ token context input, action = .savePreparedSubmission token context input

/-- The action hands a disconnected execution back to recovery. -/
def Resumes (action : RunAction) : Prop :=
  action = .resumeSubmissionRecovery ∨ action = .resumeDisconnectedExecution ∨
    action = .resumeDisconnectedRun

/-- The recovery claim takes a token that the transaction has drawn. -/
def Drawn (action : RunAction) (origin tx : Tx) (token : Token) : Prop :=
  action = .claimSubmissionRecovery ∧ origin.nextToken ≤ token ∧ token < tx.nextToken

/-- One statement of a transaction that began in `origin`. Steps are written
only while the publication had not ended by then. -/
inductive Statement (action : RunAction) (origin : Tx) : Tx → Tx → Prop where
  | preparation {tx : Tx} (f : Preparation → Preparation)
      (write : PreparationWrite tx.now tx.run.preparation (f tx.run.preparation)) :
      Statement action origin tx (updatePreparation f tx)
  | execution {tx : Tx} (f : Execution → Execution)
      (write : ExecutionWrite (Resumes action) (Drawn action origin tx) tx.now
        tx.run.execution (f tx.run.execution)) :
      Statement action origin tx (updateExecution f tx)
  | publication {tx : Tx} (f : Publication → Publication)
      (write : PublicationWrite tx.now tx.run.publication (f tx.run.publication)) :
      Statement action origin tx (updatePublication f tx)
  | steps {tx : Tx} (f : Table StepKey PublicationStep → Table StepKey PublicationStep)
      (live : ¬ Concluded origin.run) : Statement action origin tx (updateSteps f tx)
  | candidates {tx : Tx}
      (f : Table Digest InputBundleCandidate → Table Digest InputBundleCandidate)
      (write : CandidatesWrite (Saves action) tx.now tx.run.candidates (f tx.run.candidates)) :
      Statement action origin tx (updateCandidates f tx)
  | token {tx : Tx} : Statement action origin tx (randomUUID tx).2
  | event {tx : Tx} (axis : Axis) (fromStatus : Option StatusName) (toStatus : StatusName)
      (reasonCode : Option String) :
      Statement action origin tx (appendEvent axis fromStatus toStatus reasonCode tx)
  | notice {tx : Tx} (sourceEventId : Nat) (kind : NoticeKind) (axis : Axis)
      (reasonCode : Option String) (known : sourceEventId < tx.nextEventId) :
      Statement action origin tx (queueRunNotice sourceEventId kind axis reasonCode tx)
  | supersede {tx : Tx} (axis : Axis) :
      Statement action origin tx (supersedeRunAttentionNotices axis tx)
  | rewrite {tx : Tx} (noticeId : NoticeId) (n : RunNotice) (f : RunNotice → RunNotice)
      (found : tx.run.notices.row noticeId = some n) (write : NoticeWrite tx.now n (f n)) :
      Statement action origin tx (updateNotices (fun notices => notices.put noticeId (f n)) tx)

/-- What a transaction that began in `origin` has written so far. -/
inductive Sequence (action : RunAction) (origin : Tx) : Tx → Prop where
  | start : Sequence action origin origin
  | next {tx tx' : Tx} (h : Sequence action origin tx) (s : Statement action origin tx tx') :
      Sequence action origin tx'

section Live

variable {run : Run}

theorem live_of_pending (h : run.publication.status = .pending) : ¬ Concluded run := by
  simp [Concluded, h]

theorem live_of_inFlight (h : run.publication.status.inFlight = true) : ¬ Concluded run := by
  rintro (ended | ended | ended) <;> simp [ended, PublicationStatus.inFlight] at h

theorem live_of_write {now : Timestamp} {p : Publication}
    (h : PublicationWrite now run.publication p) : ¬ Concluded run := by
  rintro (ended | ended | ended) <;> cases h <;>
    simp_all [PublicationStatus.inFlight]

theorem inFlight_of_owns {token : Token} {p : Publication}
    (h : PublicationStore.ownsPublication token p = true) : p.status.inFlight = true := by
  simp only [PublicationStore.ownsPublication, Bool.and_eq_true] at h
  exact h.1

theorem inFlight_derivedStatus {status : PublicationStatus} (h : status.inFlight = true)
    (steps : Table StepKey PublicationStep) :
    (PublicationStore.derivedStatus status steps).inFlight = true := by
  unfold PublicationStore.derivedStatus
  split_ifs <;> first | rfl | exact h

end Live

/-- Nothing touches a concluded publication or its steps. -/
theorem Sequence.concluded {action : RunAction} {origin tx : Tx} (h : Sequence action origin tx)
    (ended : Concluded origin.run) :
    tx.run.publication = origin.run.publication ∧ tx.run.steps = origin.run.steps := by
  induction h with
  | start => exact ⟨rfl, rfl⟩
  | @next before after h s ih =>
    cases s with
    | publication f write =>
      have still : Concluded before.run := by
        rw [Concluded, ih.1]
        exact ended
      exact absurd still (live_of_write write)
    | steps f live => exact absurd ended live
    | notice sourceEventId kind axis reasonCode known =>
      simp only [queueRunNotice]
      split <;> exact ih
    | _ => exact ih

section Helpers

variable {action : RunAction} {origin tx : Tx} (h : Sequence action origin tx)
include h

theorem Sequence.live (live : ¬ Concluded tx.run) : ¬ Concluded origin.run := by
  intro ended
  apply live
  rw [Concluded, (h.concluded ended).1]
  exact ended

theorem Sequence.event (axis : Axis) (fromStatus : Option StatusName) (toStatus : StatusName)
    (reasonCode : Option String) :
    Sequence action origin (appendEvent axis fromStatus toStatus reasonCode tx) :=
  .next h (.event _ _ _ _)

theorem Sequence.eventWithNotice (axis : Axis) (fromStatus : Option StatusName)
    (toStatus : StatusName) (reasonCode : Option String) (kind : NoticeKind)
    (noticeReason : Option String) :
    Sequence action origin
      (appendEventWithNotice axis fromStatus toStatus reasonCode kind noticeReason tx) :=
  .next (h.event _ _ _ _) (.notice _ _ _ _ (Nat.lt_succ_self _))

theorem Sequence.abandon : Sequence action origin (abandonInFlightPublication tx).2 := by
  have abandoned : Sequence action origin (abandonCandidates tx) :=
    .next h (.candidates _ .abandon)
  simp only [abandonInFlightPublication]
  split
  · next waiting =>
    simp only [Bool.or_eq_true, decide_eq_true_eq] at waiting
    have live : ¬ Concluded origin.run := by
      apply h.live
      rcases waiting with hp | hp <;> simp [Concluded, hp]
    dsimp only
    exact .next (.next abandoned (.publication _ (.abandon waiting))) (.steps _ live)
  · exact abandoned

theorem Sequence.abandonEvent (previous : Option PublicationStatus) :
    Sequence action origin (appendAbandonEvent previous tx) := by
  cases previous with
  | none => exact h
  | some status => exact h.event _ _ _ _

theorem Sequence.derive : Sequence action origin (PublicationStore.derivePublicationStatus tx) := by
  simp only [PublicationStore.derivePublicationStatus]
  split
  · next moves =>
    simp only [Bool.and_eq_true] at moves
    have derived : Sequence action origin (updatePublication (fun p =>
        { p with status := PublicationStore.derivedStatus tx.run.publication.status tx.run.steps
                 updatedAt := tx.now }) tx) :=
      .next h (.publication _ (.derive _ moves.1 (inFlight_derivedStatus moves.1 _)))
    split
    · exact .next (derived.event _ _ _ _) (.notice _ _ _ _ (Nat.lt_succ_self _))
    · exact derived.event _ _ _ _
  · exact h

end Helpers

/-- The error was raised by the store, not by a constraint of the schema. -/
def Own (e : StoreError) : Prop := e.code ≠ some "23505" ∧ e.code ≠ some "23514"

theorem own_uncoded (message : String) (statusCode : Option Nat) :
    Own { message := message, code := none, statusCode := statusCode } := by
  simp [Own]

/-- What is committed satisfies `P`, and what is thrown `Q`. -/
def Ends {α : Type} (P : Tx → Prop) (Q : StoreError → Prop) : Outcome α → Prop
  | .ok (_, tx) => P tx
  | .error e => Q e

structure Settled (P : Tx → Prop) (Q : StoreError → Prop) (r : Except StoreError Tx) : Prop where
  ok : ∀ tx, r = .ok tx → P tx
  error : ∀ e, r = .error e → Q e

theorem Ends.settled {α : Type} {P : Tx → Prop} {Q : StoreError → Prop} {outcome : Outcome α}
    (h : Ends P Q outcome) : Settled P Q (written outcome) := by
  cases outcome with
  | error e =>
    constructor
    · intro tx ok
      cases ok
    · intro e' thrown
      cases thrown
      exact h
  | ok result =>
    constructor
    · intro tx ok
      cases ok
      exact h
    · intro e thrown
      cases thrown

section Actions

variable {action : RunAction} (store : Store) (runId : RunId) (token : Token) (tx : Tx)

theorem holdsClaim_preparing {token : Token} {p : Preparation}
    (h : PreparationStore.holdsClaim token p = true) : p.status = .preparing := by
  simp only [PreparationStore.holdsClaim, Bool.and_eq_true, decide_eq_true_eq] at h
  exact h.1

theorem claimSelected_statements :
    Ends (Sequence action tx) Own (PreparationStore.claimSelected runId tx) := by
  unfold PreparationStore.claimSelected
  split
  · next claimable =>
    simp only [PreparationStore.claimable, Bool.and_eq_true, Bool.or_eq_true,
      decide_eq_true_eq] at claimable
    have drawn : Sequence action tx (randomUUID tx).2 := .next .start .token
    exact (drawn.next (.preparation _ (.claim _ claimable.1.1))).event _ _ _ _
  · exact .start

theorem skipPendingExecutions_statements {origin next : Tx}
    (h : skipPendingExecutions tx = some next) (written : Sequence action origin tx) :
    Sequence action origin next := by
  unfold skipPendingExecutions at h
  split at h
  · next waiting =>
    cases h
    exact written.next (.execution _ (.skip waiting))
  · cases h

theorem skipPendingExecutions_nextEventId {next : Tx}
    (h : skipPendingExecutions tx = some next) : next.nextEventId = tx.nextEventId := by
  unfold skipPendingExecutions at h
  split at h <;> cases h
  rfl

theorem abandonInFlightPublication_nextEventId :
    (abandonInFlightPublication tx).2.nextEventId = tx.nextEventId := by
  simp only [abandonInFlightPublication]
  split <;> rfl

theorem concludeExpiry_statements (attemptCount : Nat) {next : Tx}
    (h : PreparationStore.concludeExpiry runId attemptCount tx = .ok next) :
    Sequence action tx next := by
  simp only [PreparationStore.concludeExpiry] at h
  split at h
  · next held =>
    have expired (exhausted : Bool) : Sequence action tx
        (updatePreparation (PreparationStore.expirePreparation exhausted tx.now) tx) :=
      .next .start (.preparation _ (.expire exhausted held))
    split at h
    · split at h
      · cases h
      · next skipped hskip =>
        cases h
        have logged : Sequence action tx skipped :=
          skipPendingExecutions_statements _ hskip ((expired _).event _ _ _ _)
        apply Sequence.abandonEvent
        apply Sequence.event
        refine logged.abandon.next (.notice _ _ _ _ ?_)
        rw [abandonInFlightPublication_nextEventId, skipPendingExecutions_nextEventId _ hskip]
        exact Nat.lt_succ_self _
    · cases h
      exact (expired _).event _ _ _ _
  · cases h

theorem expireSelected_statements :
    Ends (Sequence action tx) Own (expireSelected store runId tx) := by
  unfold expireSelected PreparationStore.expireCandidate
  split
  · split
    · next concluded => exact concludeExpiry_statements _ _ _ concluded
    · next e lost =>
      simp only [PreparationStore.concludeExpiry] at lost
      split at lost
      · split at lost
        · split at lost <;> cases lost
        · cases lost
      · cases lost
        exact own_uncoded _ _
    · split
      · next held =>
        apply Sequence.eventWithNotice
        exact .next .start (.preparation _ (.park _ held))
      · exact .start
  · exact .start

theorem failPreparation_statements (error : Failure) (options : PreparationStore.FailOptions) :
    Ends (Sequence action tx) Own
      (PreparationStore.fail runId token error options tx) := by
  unfold PreparationStore.fail
  split
  · next retries =>
    simp only [Bool.and_eq_true] at retries
    apply Sequence.event
    exact .next .start (.preparation _ (.retry _ error (holdsClaim_preparing retries.1.2)))
  · split
    · exact .start
    · next held =>
      simp only [Bool.not_eq_true', Bool.not_eq_false] at held
      have closed : Sequence action tx
          (updatePreparation (PreparationStore.closeFailed error tx.now) tx) :=
        .next .start (.preparation _ (.close error (holdsClaim_preparing held)))
      dsimp only
      split
      · unfold PreparationStore.concludeUncertain
        split
        · next waiting =>
          exact ((closed.next (.execution _ (.doubt error waiting))).event _ _ _ _).event _ _ _ _
        · exact own_uncoded _ _
      · unfold PreparationStore.concludeSkipped
        split
        · exact own_uncoded _ _
        · next hskip =>
          have abandoned := (skipPendingExecutions_statements _ hskip closed).abandon
          exact ((abandoned.eventWithNotice _ _ _ _ _ _).event _ _ _ _).abandonEvent _

theorem validateReference_error {ref : InputBundleCandidateStore.InputBundleReference}
    {e : StoreError} (h : InputBundleCandidateStore.validateReference store runId ref = .error e) :
    Own e := by
  unfold InputBundleCandidateStore.validateReference at h
  split at h
  · cases h
    exact own_uncoded _ _
  · split at h
    · cases h
      exact own_uncoded _ _
    · split at h
      · cases h
        simp [Own]
      · split at h
        · cases h
          exact own_uncoded _ _
        · split at h
          · cases h
            exact own_uncoded _ _
          · cases h

theorem requirePreparationClaim_error {e : StoreError}
    (h : InputBundleCandidateStore.requirePreparationClaim store runId token tx = .error e) :
    Own e := by
  unfold InputBundleCandidateStore.requirePreparationClaim at h
  split at h
  · cases h
  · cases h
    exact own_uncoded _ _

/-- The row `reserve` inserts. -/
def reservedCandidate (intent : InputBundleCandidateStore.InputPublicationIntent)
    (now : Timestamp) : InputBundleCandidate where
  reference := intent.reference.toJson
  input := intent.input
  publishContext := intent.publishContext
  reservedBy := token
  status := .reserved
  createdAt := now
  updatedAt := now

/-- The schema refuses the candidate the intent asks for. -/
def Malformed (action : RunAction) : Prop :=
  match action with
  | .reserveCandidate token intent =>
    ∀ now, InputBundleCandidateStore.satisfiesChecks intent.reference.digest
      (reservedCandidate token intent now) = false
  | _ => False

theorem reserve_statements (intent : InputBundleCandidateStore.InputPublicationIntent) :
    Ends (Sequence action tx) (fun e => Own e ∨ Malformed (.reserveCandidate token intent))
      (InputBundleCandidateStore.reserve store runId token intent tx) := by
  unfold InputBundleCandidateStore.reserve
  split
  · next invalid => exact .inl (validateReference_error _ _ invalid)
  · next lost _ => exact .inl (requirePreparationClaim_error _ _ _ _ lost)
  · dsimp only
    split
    · next violates =>
      simp only [Bool.not_eq_true'] at violates
      exact .inr fun _ => violates
    · next checks =>
      split
      · next absent =>
        simp only [Bool.not_eq_true', Bool.not_eq_false] at checks
        exact .next .start (.candidates _ (.insert _ _ absent rfl checks))
      · next c found =>
        split
        · exact .next .start (.candidates _ (.reserveAgain _ c found))
        · exact .inl (own_uncoded _ _)

theorem settle_statements (digest : Digest) (settlement : InputBundleCandidateStore.Settlement) :
    Ends (Sequence action tx) Own
      (InputBundleCandidateStore.settle store runId token digest settlement tx) := by
  unfold InputBundleCandidateStore.settle
  split
  · next e lost => exact requirePreparationClaim_error _ _ _ _ lost
  · split
    · exact own_uncoded _ _
    · next c found =>
      split
      · next allowed =>
        have unselected : c.status ≠ .selected := by
          intro selected
          cases settlement <;>
            simp [selected, InputBundleCandidateStore.Settlement.status] at allowed
        exact .next .start (.candidates _ (.settle _ c settlement found unselected))
      · exact own_uncoded _ _

theorem savePreparedSubmission_statements (saves : Saves action) (context input : Json) :
    Ends (Sequence action tx) Own
      (SubmissionTransitionStore.savePreparedSubmission store runId token context input tx) := by
  unfold SubmissionTransitionStore.savePreparedSubmission
  split
  · next e lost => exact requirePreparationClaim_error _ _ _ _ lost
  · split
    · next digest matched =>
      have member : digest ∈ tx.run.candidates.keys.filter fun digest =>
          (tx.run.candidates.row digest).any
            (SubmissionTransitionStore.selectable tx context input digest) := by
        rw [matched]
        exact List.mem_singleton_self digest
      simp only [List.mem_filter, Option.any_eq_true] at member
      obtain ⟨-, c, found, selectable⟩ := member
      split
      · next waiting =>
        simp only [Bool.and_eq_true, Bool.or_eq_true, decide_eq_true_eq] at waiting
        have alone : ∀ other o, tx.run.candidates.row other = some o → other ≠ digest →
            o.status ≠ .selected := by
          simp only [SubmissionTransitionStore.selectable, Bool.and_eq_true, Bool.not_eq_true',
            List.any_eq_false, decide_eq_true_eq, not_and] at selectable
          intro other o row differs selected
          exact selectable.2 other (Table.mem_keys_of_row row) differs (by simp [row, selected])
        refine Sequence.next (.next (.next (.next .start (.candidates _ ?_))
          (.execution _ (.saveInput input waiting.1.1 waiting.1.2)))
          (.publication _ (.setContext context waiting.2))) (.candidates _ .abandon)
        simpa [found] using .select digest c found alone saves
      · exact own_uncoded _ _
    · exact own_uncoded _ _

theorem concludeExecutionFailed_statements {origin : Tx} (previous : ExecutionStatus)
    (code : Option String) (h : Sequence action origin tx) :
    Sequence action origin (SubmissionTransitionStore.concludeExecutionFailed previous code tx) :=
  (h.abandon.eventWithNotice _ _ _ _ _ _).abandonEvent _

theorem normalizeArtifactStorage_error {storage : ArtifactStorage} {context : String}
    {e : StoreError} (h : ExecutionStore.normalizeArtifactStorage storage context = .error e) :
    Own e := by
  unfold ExecutionStore.normalizeArtifactStorage at h
  split at h
  · split at h <;> cases h
    exact own_uncoded _ _
  · cases h
  · cases h

theorem storedArtifact_error {storage : Option ArtifactStorage} {e : StoreError}
    (h : ExecutionStore.storedArtifact runId storage = .error e) : Own e := by
  unfold ExecutionStore.storedArtifact at h
  split at h
  · cases h
  · split at h
    · next invalid =>
      cases h
      exact normalizeArtifactStorage_error invalid
    · cases h

theorem resumeSubmissionRecoveryOn_statements {next : Tx} (resumes : Resumes action)
    (h : ExecutionStore.resumeDisconnectedSubmissionRecoveryOn tx = some next) :
    Sequence action tx next := by
  unfold ExecutionStore.resumeDisconnectedSubmissionRecoveryOn at h
  split at h
  · next parked =>
    cases h
    have resumed : Sequence action tx (updateExecution (fun e =>
        { e with status := .uncertain, claimToken := none, claimedAt := none,
                 attemptCount := 0, updatedAt := tx.now }) tx) :=
      .next .start (.execution _ (.resume parked resumes))
    exact (resumed.event _ _ _ _).next (.supersede _)
  · cases h

theorem updateOwnedStep_statements {stepKey : StepKey} {p : PublicationStep → Bool}
    {f : PublicationStep → PublicationStep} {next : Tx}
    (h : PublicationStore.updateOwnedStep token stepKey p f tx = some next) :
    Sequence action tx next := by
  unfold PublicationStore.updateOwnedStep at h
  split at h
  · next owns =>
    split at h
    · cases h
    · split at h <;> cases h
      exact .next .start (.steps _ (live_of_inFlight (inFlight_of_owns owns)))
  · cases h

theorem reconcileRefusedClaim_statements (stepKey : StepKey) :
    Sequence action tx (PublicationStore.reconcileRefusedClaim token stepKey tx).2 := by
  unfold PublicationStore.reconcileRefusedClaim
  split
  · exact Sequence.start.derive
  · next h => exact (updateOwnedStep_statements _ _ h).derive

theorem requirePublicationStepClaim_statements (stepKey : StepKey) :
    Ends (Sequence action tx) Own
      (PublicationStore.requirePublicationStepClaim token stepKey tx) := by
  unfold PublicationStore.requirePublicationStepClaim
  split
  · next h => exact updateOwnedStep_statements _ _ h
  · exact reconcileRefusedClaim_statements _ _ _

theorem failPublicationStep_statements (stepKey : StepKey) (error : Failure)
    (retry : Option Bool) :
    Ends (Sequence action tx) Own
      (PublicationStore.failPublicationStep runId token stepKey error retry tx) := by
  unfold PublicationStore.failPublicationStep
  split
  · exact .start
  · next failed h =>
    have derived : Sequence action tx (PublicationStore.derivePublicationStatus failed) :=
      (updateOwnedStep_statements _ _ h).derive
    dsimp only
    split
    · unfold PublicationStore.failPublicationOfStep
      split
      · next owns =>
        apply Sequence.eventWithNotice
        exact derived.next (.publication _ (.failStep error (inFlight_of_owns owns)))
      · exact own_uncoded _ _
    · exact derived

theorem failParkedPreparation_statements (code reason : String)
    (parked : tx.run.preparation.status = .disconnected) :
    Sequence action tx (OperatorDecisionStore.failParkedPreparation code reason tx) := by
  apply Sequence.eventWithNotice
  exact .next .start (.preparation _ (.failParked code reason parked))

theorem abandonBlockedPreparation_statements (reason : String) :
    Ends (Sequence action tx) Own
      (OperatorDecisionStore.abandonBlockedPreparation runId reason tx) := by
  unfold OperatorDecisionStore.abandonBlockedPreparation
  split
  · exact own_uncoded _ _
  · split
    · next parked =>
      apply Sequence.abandonEvent
      apply Sequence.abandon
      have failed (code : String) : Sequence action tx
          (OperatorDecisionStore.failParkedPreparation code reason tx) :=
        failParkedPreparation_statements _ _ _ parked
      unfold OperatorDecisionStore.stopExecution
      dsimp only
      split
      · next moving =>
        simp only [Bool.or_eq_true, decide_eq_true_eq] at moving
        apply Sequence.event
        exact (failed _).next (.execution _ (.stop _ reason (by tauto)))
      · exact failed _
    · exact own_uncoded _ _

theorem resumeDisconnectedPreparation_statements :
    Ends (Sequence action tx) Own
      (OperatorDecisionStore.resumeDisconnectedPreparation runId tx) := by
  unfold OperatorDecisionStore.resumeDisconnectedPreparation
  split
  · next parked =>
    refine .next (Sequence.event ?_ _ _ _ _) (.supersede _)
    exact .next .start (.preparation _ (.resume parked))
  · exact own_uncoded _ _

theorem resumeDisconnectedExecution_statements (resumes : Resumes action) :
    Ends (Sequence action tx) Own
      (OperatorDecisionStore.resumeDisconnectedExecution runId tx) := by
  unfold OperatorDecisionStore.resumeDisconnectedExecution
  split
  · next h => exact resumeSubmissionRecoveryOn_statements _ resumes h
  · exact own_uncoded _ _

theorem resumeDisconnectedPublication_statements :
    Ends (Sequence action tx) Own
      (OperatorDecisionStore.resumeDisconnectedPublication runId tx) := by
  unfold OperatorDecisionStore.resumeDisconnectedPublication
  split
  · next h =>
    unfold PublicationStore.resumeDisconnectedOn at h
    split at h
    · next parked =>
      cases h
      have live : ¬ TransactionWrites.Concluded tx.run := by
        simp [TransactionWrites.Concluded, parked]
      refine .next (Sequence.event ?_ _ _ _ _) (.supersede _)
      exact .next (.next .start (.publication _ (.resume parked))) (.steps _ live)
    · cases h
  · exact own_uncoded _ _

theorem resumeDisconnectedRun_statements (resumes : Resumes action) :
    Ends (Sequence action tx) Own (OperatorDecisionStore.resumeDisconnectedRun runId tx) := by
  unfold OperatorDecisionStore.resumeDisconnectedRun
  split
  · split
    · exact resumeDisconnectedPreparation_statements _ _
    · exact own_uncoded _ _
  · split
    · exact resumeDisconnectedExecution_statements _ _ resumes
    · split
      · exact resumeDisconnectedPublication_statements _ _
      · exact own_uncoded _ _

theorem giveUpDisconnectedPreparation_statements (reason : String) :
    Ends (Sequence action tx) Own
      (OperatorDecisionStore.giveUpDisconnectedPreparation runId reason tx) := by
  unfold OperatorDecisionStore.giveUpDisconnectedPreparation
  split
  · next parked =>
    exact (failParkedPreparation_statements _ _ _ parked).abandon.abandonEvent _
  · exact own_uncoded _ _

theorem giveUpDisconnectedExecution_statements (reason : String) :
    Ends (Sequence action tx) Own
      (OperatorDecisionStore.giveUpDisconnectedExecution runId reason tx) := by
  unfold OperatorDecisionStore.giveUpDisconnectedExecution
  split
  · next parked =>
    apply Sequence.abandonEvent
    apply Sequence.abandon
    apply Sequence.eventWithNotice
    exact .next .start (.execution _ (.stop _ reason (.inr (.inr (.inr parked)))))
  · exact own_uncoded _ _

theorem giveUpDisconnectedPublication_statements (reason : String) :
    Ends (Sequence action tx) Own
      (OperatorDecisionStore.giveUpDisconnectedPublication runId reason tx) := by
  unfold OperatorDecisionStore.giveUpDisconnectedPublication
  split
  · next parked =>
    apply Sequence.eventWithNotice
    exact .next .start (.publication _ (.giveUp _ reason parked))
  · exact own_uncoded _ _

theorem giveUpDisconnectedRun_statements (reason : String) :
    Ends (Sequence action tx) Own
      (OperatorDecisionStore.giveUpDisconnectedRun runId reason tx) := by
  unfold OperatorDecisionStore.giveUpDisconnectedRun
  split
  · exact own_uncoded _ _
  · split
    · exact giveUpDisconnectedPreparation_statements _ _ _
    · split
      · exact giveUpDisconnectedExecution_statements _ _ _
      · split
        · exact giveUpDisconnectedPublication_statements _ _ _
        · exact own_uncoded _ _

theorem updateOwned_statements (noticeId : NoticeId) (f : RunNotice → RunNotice)
    (write : ∀ n, RunNoticeStore.holdsDelivery token n = true → NoticeWrite tx.now n (f n)) :
    Ends (Sequence action tx) Own (RunNoticeStore.updateOwned noticeId token f tx) := by
  unfold RunNoticeStore.updateOwned
  split
  · exact .start
  · next n found =>
    split
    · next held => exact .next .start (.rewrite noticeId n f found (write n held))
    · exact .start

theorem claimNotice_statements (noticeId : NoticeId) :
    Ends (Sequence action tx) Own (RunNoticeStore.claimSelected store runId noticeId tx) := by
  unfold RunNoticeStore.claimSelected
  split
  · exact .start
  · next n found =>
    split
    · exact .next (.next .start .token) (.rewrite noticeId n (fun n =>
        { n with status := .delivering, claimToken := some tx.nextToken,
                 claimedAt := some tx.now, updatedAt := tx.now }) found (.claim _))
    · exact .start

/-- The errors an action may surface. -/
def Surfaces (action : RunAction) (e : StoreError) : Prop := Own e ∨ Malformed action

theorem Ends.surfaces {α : Type} {P : Tx → Prop} {outcome : Outcome α} (h : Ends P Own outcome)
    (action : RunAction) : Settled P (Surfaces action) (written outcome) :=
  ⟨h.settled.ok, fun e thrown => .inl (h.settled.error e thrown)⟩

theorem perform_settled (action : RunAction) :
    Settled (Sequence action tx) (Surfaces action)
      (action.perform store runId tx) := by
  cases action with
  | claimPreparation => exact (claimSelected_statements _ _).surfaces _
  | expirePreparation => exact (expireSelected_statements _ _ _).surfaces _
  | renewPreparation token =>
    apply Ends.surfaces
    unfold PreparationStore.renewClaim
    split
    · next live =>
      simp only [Bool.and_eq_true] at live
      exact .next .start (.preparation _ (.renew (holdsClaim_preparing live.1)))
    · exact .start
  | checkpointInput token input =>
    apply Ends.surfaces
    unfold PreparationStore.checkpointInput
    split
    · next held =>
      exact .next .start (.preparation _ (.checkpoint input (holdsClaim_preparing held)))
    · exact own_uncoded _ _
  | failPreparation token error options => exact (failPreparation_statements _ _ _ _ _).surfaces _
  | reserveCandidate token intent => exact (reserve_statements _ _ _ _ _).settled
  | settleCandidate token digest settlement => exact (settle_statements _ _ _ _ _ _).surfaces _
  | savePreparedSubmission token context input =>
    exact (savePreparedSubmission_statements _ _ _ _ ⟨token, context, input, rfl⟩ _ _).surfaces _
  | markQueued token context =>
    apply Ends.surfaces
    unfold SubmissionTransitionStore.markQueued
    split
    · next ready =>
      simp only [Bool.and_eq_true, decide_eq_true_eq] at ready
      obtain ⟨⟨unpublished, waiting⟩, held⟩ := ready
      apply Sequence.event
      apply Sequence.event
      exact .next (.next (.next .start (.publication _ (.setContext context unpublished)))
        (.execution _ (.queue waiting))) (.preparation _ (.submit (holdsClaim_preparing held)))
    · exact own_uncoded _ _
  | completeSubmissionRecovery token =>
    apply Ends.surfaces
    unfold SubmissionTransitionStore.completeSubmissionRecovery
    split
    · next held =>
      simp only [Bool.and_eq_true] at held
      apply Sequence.event
      exact .next .start (.execution _ (.recover token held.1))
    · exact .start
  | failSubmissionRecovery token error =>
    apply Ends.surfaces
    unfold SubmissionTransitionStore.failSubmissionRecovery
    split
    · next held =>
      apply concludeExecutionFailed_statements
      exact .next .start (.execution _ (.failRecovery token error held))
    · exact .start
  | touchObservation =>
    apply Ends.surfaces
    unfold ExecutionStore.touchObservation
    split
    · next active => exact .next .start (.execution _ (.observe active))
    · exact .start
  | markRunning =>
    apply Ends.surfaces
    unfold ExecutionStore.markRunning
    split
    · next queued =>
      apply Sequence.event
      exact .next .start (.execution _ (.start queued))
    · exact .start
  | recordArtifactStorage storage =>
    apply Ends.surfaces
    unfold ExecutionStore.recordArtifactStorage
    split
    · exact .start
    · split
      · next invalid => exact normalizeArtifactStorage_error invalid
      · exact .next .start (.execution _ (.storeArtifact _))
  | recordExecutionSuccess workflowResult storage =>
    apply Ends.surfaces
    unfold ExecutionStore.recordExecutionSuccess
    split
    · next invalid => exact storedArtifact_error _ invalid
    · split
      · next active =>
        apply Sequence.event
        exact .next .start (.execution _ (.succeed _ _ active))
      · exact .start
  | claimSubmissionRecovery =>
    apply Ends.surfaces
    unfold ExecutionStore.claimSubmissionRecovery
    split
    · next unowned =>
      simp only [Bool.and_eq_true, decide_eq_true_eq] at unowned
      have drawn : Sequence .claimSubmissionRecovery tx (randomUUID tx).2 :=
        .next .start .token
      apply Sequence.event
      exact drawn.next (.execution _ (.claimRecovery _ ⟨rfl, le_rfl, Nat.lt_succ_self _⟩ unowned.1))
    · exact .start
  | resumeSubmissionRecovery =>
    apply Ends.surfaces
    unfold ExecutionStore.resumeDisconnectedSubmissionRecovery
    split
    · exact .start
    · next resumed => exact resumeSubmissionRecoveryOn_statements _ (.inl rfl) resumed
  | disconnectExhaustedSubmissionRecovery maxAttempts =>
    apply Ends.surfaces
    unfold ExecutionStore.disconnectExhaustedSubmissionRecovery
    split
    · next exhausted =>
      simp only [Bool.and_eq_true, decide_eq_true_eq] at exhausted
      apply Sequence.eventWithNotice
      exact .next .start (.execution _ (.disconnect exhausted.1.1))
    · exact .start
  | recordUnknownRecoveryOutcome token =>
    apply Ends.surfaces
    unfold ExecutionStore.recordUnknownRecoveryOutcome
    split
    · next held => exact .next .start (.execution _ (.countUnknown token held))
    · exact .start
  | failExecution error storage =>
    apply Ends.surfaces
    unfold ExecutionStore.failExecution
    split
    · next invalid => exact storedArtifact_error _ invalid
    · split
      · next active =>
        apply concludeExecutionFailed_statements
        exact .next .start (.execution _ (.fail error _ active))
      · exact .start
  | claimPublication =>
    apply Ends.surfaces
    unfold PublicationClaimStore.claim
    split
    · next claimable =>
      have open_ : tx.run.publication.status = .pending ∨
          tx.run.publication.status = .publishing ∨ tx.run.publication.status = .uncertain := by
        simp only [PublicationClaimStore.claimable, Bool.and_eq_true, Bool.or_eq_true,
          decide_eq_true_eq] at claimable
        tauto
      have drawn : Sequence .claimPublication tx (randomUUID tx).2 :=
        .next .start .token
      apply Sequence.event
      exact drawn.next (.publication _ (.claim _ open_))
    · exact .start
  | renewPublication token =>
    apply Ends.surfaces
    unfold PublicationStore.renewClaim
    split
    · next owns => exact .next .start (.publication _ (.renew (inFlight_of_owns owns)))
    · exact .start
  | completePublication token =>
    apply Ends.surfaces
    unfold PublicationStore.complete
    split
    · next done =>
      simp only [Bool.and_eq_true] at done
      apply Sequence.event
      exact .next .start (.publication _ (.complete (inFlight_of_owns done.1)))
    · exact .start
  | failPublication token error retry =>
    apply Ends.surfaces
    unfold PublicationStore.fail
    split
    · next owns =>
      cases retry
      · refine .next (Sequence.event ?_ _ _ _ _) (.notice _ _ _ _ (Nat.lt_succ_self _))
        exact .next .start (.publication _ (.fail error false (inFlight_of_owns owns)))
      · apply Sequence.event
        exact .next .start (.publication _ (.fail error true (inFlight_of_owns owns)))
    · exact .start
  | initializePublicationSteps token stepKeys =>
    apply Ends.surfaces
    unfold PublicationStore.initializePublicationSteps
    split
    · simp [Ends, Own]
    · split
      · exact own_uncoded _ _
      · next owns =>
        simp only [Bool.not_eq_true', Bool.not_eq_false] at owns
        split
        · exact .next .start (.steps _ (live_of_inFlight (inFlight_of_owns owns)))
        · split
          · simp [Ends, Own]
          · exact .start
  | requirePublicationStepClaim token stepKey =>
    exact (requirePublicationStepClaim_statements _ _ _).surfaces _
  | reconcileRefusedClaim token stepKey =>
    constructor
    · intro next committed
      cases committed
      exact reconcileRefusedClaim_statements _ _ _
    · intro e thrown
      cases thrown
  | settleExhaustedPublicationStep token stepKey found =>
    apply Ends.surfaces
    unfold PublicationStore.settleExhaustedPublicationStep
    split
    · exact .start
    · next settled => exact (updateOwnedStep_statements _ _ settled).derive
  | completePublicationStep token stepKey remote =>
    apply Ends.surfaces
    unfold PublicationStore.completePublicationStep
    split
    · exact .start
    · next completed => exact updateOwnedStep_statements _ _ completed
  | failPublicationStep token stepKey error retry =>
    exact (failPublicationStep_statements _ _ _ _ _ _).surfaces _
  | abandonBlockedPreparation reason =>
    exact (abandonBlockedPreparation_statements _ _ _).surfaces _
  | resumeDisconnectedPreparation =>
    exact (resumeDisconnectedPreparation_statements _ _).surfaces _
  | resumeDisconnectedExecution =>
    exact (resumeDisconnectedExecution_statements _ _ (.inr (.inl rfl))).surfaces _
  | resumeDisconnectedPublication =>
    exact (resumeDisconnectedPublication_statements _ _).surfaces _
  | resumeDisconnectedRun =>
    exact (resumeDisconnectedRun_statements _ _ (.inr (.inr rfl))).surfaces _
  | giveUpDisconnectedPreparation reason =>
    exact (giveUpDisconnectedPreparation_statements _ _ _).surfaces _
  | giveUpDisconnectedExecution reason =>
    exact (giveUpDisconnectedExecution_statements _ _ _).surfaces _
  | giveUpDisconnectedPublication reason =>
    exact (giveUpDisconnectedPublication_statements _ _ _).surfaces _
  | giveUpDisconnectedRun reason => exact (giveUpDisconnectedRun_statements _ _ _).surfaces _
  | claimNotice noticeId => exact (claimNotice_statements _ _ _ _).surfaces _
  | renewNotice noticeId token =>
    apply Ends.surfaces
    unfold RunNoticeStore.renewClaim
    apply updateOwned_statements
    intro n held
    simp only [RunNoticeStore.holdsDelivery, Bool.and_eq_true, decide_eq_true_eq] at held
    exact .renew held.1
  | completeNotice noticeId token delivered commentUrl =>
    apply Ends.surfaces
    unfold RunNoticeStore.complete
    split
    · exact own_uncoded _ _
    · split
      · exact own_uncoded _ _
      · exact updateOwned_statements _ _ _ _ fun _ _ => .complete _ _

end Actions

theorem perform_statements {store : Store} {runId : RunId} {action : RunAction} {tx next : Tx}
    (h : action.perform store runId tx = .ok next) : Sequence action tx next :=
  (perform_settled store runId tx action).ok next h

theorem result_statements (store : Store) (runId : RunId) (action : RunAction) (tx : Tx) :
    Sequence action tx (action.result store runId tx) := by
  unfold RunAction.result
  split
  · next h => exact perform_statements h
  · exact .start

end Statements
