import SecReviewBot.ReviewRuns.RowEffects

/-!
# The constraints of the schema

The `CHECK` constraints and unique indexes of
`001_initial_coordination_schema.sql` on the rows of one run. Value sets of
statuses and the sign of the counters are in the column types. PostgreSQL
checks a constraint at the end of each statement, so every version of the rows
on the way to a commit has to satisfy them, not only the committed one.
-/

namespace SchemaConstraints

open JsonValues KeyedTables ReviewRunsSchema ReviewRunsTransactions Coordination Statements
open RowEffects TransitionSystems

structure PreparationChecks (p : Preparation) : Prop where
  claim : (p.status = .preparing ∧ p.claimToken ≠ none ∧ p.claimedAt ≠ none) ∨
    (p.status ≠ .preparing ∧ p.claimToken = none ∧ p.claimedAt = none)
  reason : p.status = .disconnected ↔ p.disconnectReason ≠ none
  timing : match p.status with
    | .pending => p.finishedAt = none
    | .preparing | .uncertain | .disconnected => p.startedAt ≠ none ∧ p.finishedAt = none
    | .submitted | .failed => p.startedAt ≠ none ∧ p.finishedAt ≠ none

structure ExecutionChecks (e : Execution) : Prop where
  claim : (e.claimToken = none ∧ e.claimedAt = none) ∨
    (e.status = .uncertain ∧ e.claimToken ≠ none ∧ e.claimedAt ≠ none)
  timing : match e.status with
    | .pending | .uncertain | .disconnected => e.startedAt = none ∧ e.finishedAt = none
    | .queued | .running => e.startedAt ≠ none ∧ e.finishedAt = none
    | .succeeded | .skipped | .failed => e.finishedAt ≠ none

structure PublicationChecks (p : Publication) : Prop where
  timing : match p.status with
    | .pending => p.finishedAt = none
    | .publishing | .uncertain | .disconnected => p.startedAt ≠ none ∧ p.finishedAt = none
    | .skipped => p.finishedAt ≠ none
    | .published | .failed => p.startedAt ≠ none ∧ p.finishedAt ≠ none

/-- With the partial unique index `input_bundle_candidates_one_selected_idx`. -/
structure CandidatesChecks (cs : Table Digest InputBundleCandidate) : Prop where
  each : ∀ digest c, cs.row digest = some c →
    InputBundleCandidateStore.satisfiesChecks digest c = true
  oneSelected : ∀ digest other c o, cs.row digest = some c → cs.row other = some o →
    c.status = .selected → o.status = .selected → digest = other

def NoticeChecks (n : RunNotice) : Prop :=
  (n.status = .delivering ∧ n.claimToken ≠ none ∧ n.claimedAt ≠ none) ∨
    (n.status ≠ .delivering ∧ n.claimToken = none ∧ n.claimedAt = none)

/-- With the unique `source_event_id`. -/
structure NoticesChecks (notices : Table NoticeId RunNotice) : Prop where
  each : ∀ id n, notices.row id = some n → NoticeChecks n
  oneSource : ∀ id other n o, notices.row id = some n → notices.row other = some o →
    n.sourceEventId = o.sourceEventId → id = other

structure Constrained (run : Run) : Prop where
  preparation : PreparationChecks run.preparation
  execution : ExecutionChecks run.execution
  publication : PublicationChecks run.publication
  candidates : CandidatesChecks run.candidates
  notices : NoticesChecks run.notices

theorem preparationChecks_of_write {now : Timestamp} {p next : Preparation}
    (write : PreparationWrite now p next) (h : PreparationChecks p) : PreparationChecks next := by
  obtain ⟨claim, reason, timing⟩ := h
  cases write with
  | claim token waiting =>
    rcases waiting with waiting | waiting <;> simp_all <;> constructor <;> simp_all
  | expire exhausted held =>
    cases exhausted <;> constructor <;> simp_all [PreparationStore.expirePreparation]
  | close error held => constructor <;> simp_all [PreparationStore.closeFailed]
  | _ => constructor <;> simp_all

theorem executionChecks_of_write {resuming : Prop} {drawn : Token → Prop} {now : Timestamp}
    {e next : Execution} (write : ExecutionWrite resuming drawn now e next)
    (h : ExecutionChecks e) : ExecutionChecks next := by
  obtain ⟨claim, timing⟩ := h
  cases write with
  | observe active | succeed _ _ active | fail _ _ active =>
    simp only [ExecutionStore.isActive, Bool.or_eq_true, decide_eq_true_eq] at active
    rcases active with active | active <;> constructor <;> simp_all
  | stop code reason moving =>
    rcases moving with moving | moving | moving | moving <;> constructor <;> simp_all
  | _ => constructor <;> simp_all [SubmissionTransitionStore.holdsRecovery]

theorem publicationChecks_of_write {now : Timestamp} {p next : Publication}
    (write : PublicationWrite now p next) (h : PublicationChecks p) : PublicationChecks next := by
  obtain ⟨timing⟩ := h
  have flying : p.status.inFlight = true → p.startedAt ≠ none ∧ p.finishedAt = none := by
    intro inFlight
    cases status : p.status <;> simp_all [PublicationStatus.inFlight]
  constructor
  cases write with
  | claim token claimable =>
    rcases claimable with waiting | waiting | waiting <;> simp_all
  | derive target inFlight stays =>
    cases target <;> simp_all [PublicationStatus.inFlight]
  | fail error retry inFlight => cases retry <;> simp_all
  | _ => simp_all

theorem noticeChecks_of_write {now : Timestamp} {n next : RunNotice}
    (write : NoticeWrite now n next) (h : NoticeChecks n) : NoticeChecks next := by
  cases write with
  | claim token => simp [NoticeChecks]
  | renew held => simp_all [NoticeChecks]
  | complete delivered commentUrl => cases delivered <;> simp [NoticeChecks]

/-- `satisfiesChecks` reads the three documents only. -/
theorem satisfiesChecks_of_same {digest : Digest} {c next : InputBundleCandidate}
    (reference : next.reference = c.reference) (input : next.input = c.input)
    (context : next.publishContext = c.publishContext)
    (h : InputBundleCandidateStore.satisfiesChecks digest c = true) :
    InputBundleCandidateStore.satisfiesChecks digest next = true := by
  simpa only [InputBundleCandidateStore.satisfiesChecks, reference, input, context] using h

/-- A rewritten candidate keeps the checks of the table when it keeps its own
and is selected only if no other is. -/
theorem candidatesChecks_put {cs : Table Digest InputBundleCandidate} (h : CandidatesChecks cs)
    {digest : Digest} {c : InputBundleCandidate}
    (checks : InputBundleCandidateStore.satisfiesChecks digest c = true)
    (alone : c.status = .selected →
      ∀ other o, cs.row other = some o → other ≠ digest → o.status ≠ .selected) :
    CandidatesChecks (cs.put digest c) := by
  constructor
  · intro d found row
    rcases Table.put_row_cases row with ⟨rfl, rfl⟩ | ⟨-, old⟩
    · exact checks
    · exact h.each d found old
  · intro d other found o row row' selected selected'
    rcases Table.put_row_cases row with ⟨rfl, rfl⟩ | ⟨differs, old⟩ <;>
      rcases Table.put_row_cases row' with ⟨rfl, rfl⟩ | ⟨differs', old'⟩
    · rfl
    · exact absurd selected' (alone selected other o old' differs')
    · exact absurd selected (alone selected' d found old differs)
    · exact h.oneSelected d other found o old old' selected selected'

theorem candidatesChecks_of_write {saving : Prop} {now : Timestamp}
    {cs next : Table Digest InputBundleCandidate} (write : CandidatesWrite saving now cs next)
    (h : CandidatesChecks cs) : CandidatesChecks next := by
  cases write with
  | insert digest c absent reserved checks =>
    exact candidatesChecks_put h checks fun selected => by simp [reserved] at selected
  | reserveAgain digest c found =>
    apply candidatesChecks_put h
    · split
      · exact satisfiesChecks_of_same rfl rfl rfl (h.each digest c found)
      · exact h.each digest c found
    · intro selected other o row differs selected'
      split at selected
      · cases selected
      · exact differs (h.oneSelected other digest o c row found selected' selected)
  | settle digest c settlement found unselected =>
    apply candidatesChecks_put h
    · exact satisfiesChecks_of_same rfl rfl rfl (h.each digest c found)
    · intro selected
      cases settlement <;> cases selected
  | select digest c found alone saves =>
    apply candidatesChecks_put h
    · exact satisfiesChecks_of_same rfl rfl rfl (h.each digest c found)
    · exact fun _ => alone
  | abandon =>
    have kept : ∀ digest found, (cs.mapRows (abandonCandidate now)).row digest = some found →
        ∃ c, cs.row digest = some c ∧ found = abandonCandidate now c := by
      intro digest found row
      obtain ⟨c, old, rfl⟩ := Option.map_eq_some_iff.mp row
      exact ⟨c, old, rfl⟩
    constructor
    · intro digest found row
      obtain ⟨c, old, rfl⟩ := kept digest found row
      unfold abandonCandidate
      split
      · exact satisfiesChecks_of_same rfl rfl rfl (h.each digest c old)
      · exact h.each digest c old
    · intro digest other found o row row' selected selected'
      have before : ∀ c, (abandonCandidate now c).status = .selected → c.status = .selected := by
        intro c
        unfold abandonCandidate
        split
        · intro abandoned
          cases abandoned
        · exact id
      obtain ⟨c, old, rfl⟩ := kept digest found row
      obtain ⟨c', old', rfl⟩ := kept other o row'
      exact h.oneSelected digest other c c' old old' (before c selected) (before c' selected')

theorem noticesChecks_insert {notices : Table NoticeId RunNotice} (h : NoticesChecks notices)
    {id : NoticeId} {n : RunNotice} (checks : NoticeChecks n)
    (unused : notices.any (fun m => m.sourceEventId = n.sourceEventId) = false) :
    NoticesChecks (notices.put id n) := by
  simp only [Table.not_any_iff, decide_eq_false_iff_not] at unused
  constructor
  · intro a m row
    rcases Table.put_row_cases row with ⟨rfl, rfl⟩ | ⟨-, old⟩
    · exact checks
    · exact h.each a m old
  · intro a b m o row row' source
    rcases Table.put_row_cases row with ⟨rfl, rfl⟩ | ⟨-, old⟩ <;>
      rcases Table.put_row_cases row' with ⟨rfl, rfl⟩ | ⟨-, old'⟩
    · rfl
    · exact absurd source.symm (unused b o old')
    · exact absurd source (unused a m old)
    · exact h.oneSource a b m o old old' source

/-- Rewriting notices in place, without moving their events. -/
theorem noticesChecks_rewrite {notices next : Table NoticeId RunNotice} (h : NoticesChecks notices)
    (kept : ∀ id n, next.row id = some n →
      ∃ old, notices.row id = some old ∧ n.sourceEventId = old.sourceEventId ∧ NoticeChecks n) :
    NoticesChecks next := by
  constructor
  · intro id n row
    obtain ⟨_, _, _, checks⟩ := kept id n row
    exact checks
  · intro a b n o row row' source
    obtain ⟨old, was, sourced, _⟩ := kept a n row
    obtain ⟨old', was', sourced', _⟩ := kept b o row'
    exact h.oneSource a b old old' was was' (sourced.symm.trans (source.trans sourced'))

theorem noticeChecks_supersede {n : RunNotice} (h : NoticeChecks n) (axis : Axis)
    (now : Timestamp) : NoticeChecks (supersedeNotice axis now n) := by
  unfold supersedeNotice
  split
  · simp [NoticeChecks]
  · exact h

theorem statement_constrained {action : RunAction} {origin tx next : Tx}
    (s : Statement action origin tx next) (h : Constrained tx.run) : Constrained next.run := by
  cases s with
  | preparation f write =>
    exact { h with preparation := preparationChecks_of_write write h.preparation }
  | execution f write => exact { h with execution := executionChecks_of_write write h.execution }
  | publication f write =>
    exact { h with publication := publicationChecks_of_write write h.publication }
  | candidates f write =>
    exact { h with candidates := candidatesChecks_of_write write h.candidates }
  | notice sourceEventId kind axis reasonCode known =>
    simp only [queueRunNotice]
    split
    · exact h
    · next unused =>
      simp only [Bool.not_eq_true] at unused
      refine { h with notices := noticesChecks_insert h.notices ?_ unused }
      simp [NoticeChecks]
  | supersede axis =>
    refine { h with notices := noticesChecks_rewrite h.notices ?_ }
    intro id n row
    obtain ⟨old, was, rfl⟩ := Option.map_eq_some_iff.mp row
    refine ⟨old, was, ?_, noticeChecks_supersede (h.notices.each id old was) axis tx.now⟩
    unfold supersedeNotice
    split <;> rfl
  | rewrite noticeId n f found write =>
    refine { h with notices := noticesChecks_rewrite h.notices ?_ }
    intro id m row
    rcases Table.put_row_cases row with ⟨rfl, rfl⟩ | ⟨-, old⟩
    · exact ⟨n, found, TransactionWrites.noticeWrite_source write,
        noticeChecks_of_write write (h.notices.each _ n found)⟩
    · exact ⟨m, old, rfl, h.notices.each id m old⟩
  | steps | token | event => exact { h with }

/-- A sequence of statements all of whose versions satisfy the constraints. -/
inductive CheckedSequence (action : RunAction) (origin : Tx) : Tx → Prop where
  | start (meets : Constrained origin.run) : CheckedSequence action origin origin
  | next {tx tx' : Tx} (h : CheckedSequence action origin tx)
      (s : Statement action origin tx tx') (meets : Constrained tx'.run) :
      CheckedSequence action origin tx'

theorem CheckedSequence.meets {action : RunAction} {origin tx : Tx}
    (h : CheckedSequence action origin tx) : Constrained tx.run := by
  cases h with
  | start meets => exact meets
  | next h s meets => exact meets

theorem checked_of_sequence {action : RunAction} {origin tx : Tx} (h : Sequence action origin tx)
    (meets : Constrained origin.run) : CheckedSequence action origin tx := by
  induction h with
  | start => exact .start meets
  | next h s ih => exact .next ih s (statement_constrained s ih.meets)

theorem inserted_constrained (store : Store) (args : AdmissionStore.CreateReviewRunArgs)
    (db : Database) : Constrained (AdmissionStore.insertWith store args db).run where
  preparation := by
    constructor <;> simp [AdmissionStore.insertWith, AdmissionStore.insertedRun, appendEvent]
  execution := by
    constructor <;> simp [AdmissionStore.insertWith, AdmissionStore.insertedRun, appendEvent]
  publication := by
    constructor
    simp [AdmissionStore.insertWith, AdmissionStore.insertedRun, appendEvent]
  candidates := by
    constructor <;> simp [AdmissionStore.insertWith, AdmissionStore.insertedRun, appendEvent]
  notices := by
    constructor <;> simp [AdmissionStore.insertWith, AdmissionStore.insertedRun, appendEvent]

theorem constrained_reachable {db : Database} (reachable : coordination.Reachable db) :
    Everywhere (fun tx => Constrained tx.run) db := by
  refine everywhere_reachable ?_ ?_ ?_ reachable
  · intro tx next meets run _ _ _
    exact run ▸ meets
  · exact inserted_constrained
  · intro store id action tx meets
    exact (checked_of_sequence (result_statements store id action tx) meets).meets

/-- The `UPDATE` that selects a candidate matches one row at most, because a
reference names its digest. -/
theorem selectable_unique {tx : Tx} (h : CandidatesChecks tx.run.candidates) {context input : Json}
    {digest other : Digest} {c o : InputBundleCandidate}
    (row : tx.run.candidates.row digest = some c) (row' : tx.run.candidates.row other = some o)
    (matched : SubmissionTransitionStore.selectable tx context input digest c = true)
    (matched' : SubmissionTransitionStore.selectable tx context input other o = true) :
    digest = other := by
  have named := h.each digest c row
  have named' := h.each other o row'
  simp only [InputBundleCandidateStore.satisfiesChecks, Bool.and_eq_true,
    decide_eq_true_eq] at named named'
  simp only [SubmissionTransitionStore.selectable, Bool.and_eq_true,
    decide_eq_true_eq] at matched matched'
  have same : c.reference = o.reference := matched.1.1.1.1.trans matched'.1.1.1.1.symm
  have digests : some (Json.str digest) = some (.str other) := by
    rw [← named.1.2, ← named'.1.2, same]
  simpa using digests

/-- The unique keys of `review_runs` already hold the new row's identity. -/
def IdentityTaken (store : Store) (args : AdmissionStore.CreateReviewRunArgs)
    (db : Database) : Prop :=
  (∃ run, db.runs.row args.runId = some run) ∨
    ∃ id run, db.runs.row id = some run ∧
      AdmissionStore.hasIngress store args.ingressKind args.ingressKey run = true

theorem create_error {store : Store} {args : AdmissionStore.CreateReviewRunArgs} {db : Database}
    {e : StoreError} (h : (AdmissionStore.create store args db).1 = .error e) :
    IdentityTaken store args db ∧ (AdmissionStore.create store args db).2 = db := by
  unfold AdmissionStore.create at h ⊢
  split
  · next present => exact ⟨.inl (Option.isSome_iff_exists.mp present), rfl⟩
  · next absent =>
    rw [if_neg absent] at h
    split
    · next taken =>
      obtain ⟨id, found⟩ := Option.isSome_iff_exists.mp taken
      have matched := List.find?_some found
      obtain ⟨run, row, ingress⟩ := (Option.any_eq_true _ _).mp matched
      exact ⟨.inr ⟨id, run, row, ingress⟩, rfl⟩
    · next free =>
      rw [if_neg free] at h
      cases h

theorem admitRun_error {store : Store} {args : AdmissionStore.CreateReviewRunArgs}
    {db : Database} {e : StoreError} (h : (AdmissionStore.admitRun store args db).1 = .error e) :
    IdentityTaken store args db ∧ (AdmissionStore.admitRun store args db).2 = db := by
  unfold AdmissionStore.admitRun at h ⊢
  split
  · next existing found =>
    simp only [found] at h
    cases h
  · next absent =>
    simp only [absent] at h
    exact create_error h

/-- The `UPDATE` that selects a candidate matches one row at most. -/
def OneSelectable (tx : Tx) : Prop :=
  ∀ context input digest other c o, tx.run.candidates.row digest = some c →
    tx.run.candidates.row other = some o →
    SubmissionTransitionStore.selectable tx context input digest c = true →
    SubmissionTransitionStore.selectable tx context input other o = true → digest = other

/-- In every reachable database: every statement of the stores keeps every
constraint; a transaction on a run commits through versions that all satisfy
them or throws an error of its own. The schema itself answers only to a new
candidate with malformed documents and to a new run whose identity is taken,
and an operation that throws writes nothing. -/
theorem transactions_keep_constraints {db : Database} (reachable : coordination.Reachable db)
    (store : Store) :
    (∀ action origin tx next, Statement action origin tx next → Constrained tx.run →
      Constrained next.run) ∧
    (∀ id run action tx, db.runs.row id = some run → Sees db run tx →
      Constrained run ∧ OneSelectable tx ∧
        Settled (CheckedSequence action tx) (fun e => Own e ∨ Malformed action)
          (action.perform store id tx)) ∧
    (∀ id run action e, find db store id = some run →
      action.perform store id (begin db run) = .error e →
        (Operation.onRun id action).execute store db = db) ∧
    (∀ args e, (AdmissionStore.create store args db).1 = .error e →
      IdentityTaken store args db ∧ (AdmissionStore.create store args db).2 = db) ∧
    ∀ args e, (AdmissionStore.admitRun store args db).1 = .error e →
      IdentityTaken store args db ∧ (AdmissionStore.admitRun store args db).2 = db := by
  refine ⟨fun action origin tx next => statement_constrained, ?_, ?_, fun args e => create_error,
    fun args e => admitRun_error⟩
  · intro id run action tx row sees
    have meets : Constrained run := constrained_reachable reachable id run row
    have here : Constrained tx.run := sees.run ▸ meets
    have settled := perform_settled store id tx action
    refine ⟨meets, ?_, ⟨fun next committed => ?_, settled.error⟩⟩
    · intro context input digest other c o found found' matched matched'
      exact selectable_unique here.candidates found found' matched matched'
    · exact checked_of_sequence (settled.ok next committed) here
  · intro id run action e found throws
    simp only [Operation.execute, found, throws]

/-- A published run with a step left to claim. -/
theorem publishing_run_keeps_constraints : ∃ run,
    (coordination.run (byDefault toPublishing)).runs.row "run-1" = some run ∧ Constrained run ∧
      Settled (CheckedSequence .claimPublication
          (begin (coordination.run (byDefault toPublishing)) run))
        (fun e => Own e ∨ Malformed .claimPublication)
        (RunAction.perform defaultStore "run-1" .claimPublication
          (begin (coordination.run (byDefault toPublishing)) run)) := by
  have present : ((coordination.run (byDefault toPublishing)).runs.row "run-1").isSome = true := by
    decide
  obtain ⟨run, row⟩ := Option.isSome_iff_exists.mp present
  obtain ⟨-, onRuns, -⟩ := transactions_keep_constraints ⟨byDefault toPublishing, rfl⟩ defaultStore
  obtain ⟨meets, -, settled⟩ := onRuns "run-1" run .claimPublication _ row (begin_sees _ run)
  exact ⟨run, row, meets, settled⟩

/-- A reference the store accepts when the digest is well formed. -/
def bundle (digest : Digest) : InputBundleCandidateStore.InputBundleReference where
  uri := "file:///bundles/input-bundle.v1.tar.zst"
  digest := digest
  mediaType := "application/tar+zstd"
  sizeBytes := 1

def firstDigest : Digest :=
  "sha256:0123456789abcdef0123456789abcdef0123456789abcdef0123456789abcdef"

/-- An intent whose input does not contain the bundle it is about. -/
def detachedIntent : InputBundleCandidateStore.InputPublicationIntent where
  reference := bundle firstDigest
  input := .obj []
  publishContext := .obj []

/-- The first preparer of a run reserves a detached intent, and the run is
admitted a second time: both are answered by a constraint of the schema. -/
theorem schema_answers_reserve_and_admission :
    ((coordination.run (byDefault [.create issueRun])).runs.row "run-1").any (fun run =>
      (InputBundleCandidateStore.requirePreparationClaim defaultStore "run-1" 0
          (begin (coordination.run (byDefault [.create issueRun])) run)).isOk &&
        (InputBundleCandidateStore.validateReference defaultStore "run-1"
          (bundle firstDigest)).isOk &&
        match RunAction.perform defaultStore "run-1" (.reserveCandidate 0 detachedIntent)
            (begin (coordination.run (byDefault [.create issueRun])) run) with
        | .ok _ => false
        | .error e => e.code = some "23514") = true ∧
    (match (AdmissionStore.create defaultStore issueRun
        (coordination.run (byDefault [.create issueRun]))).1 with
      | .ok _ => none
      | .error e => e.code) = some "23505" := by
  decide

end SchemaConstraints
