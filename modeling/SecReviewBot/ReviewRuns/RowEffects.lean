import SecReviewBot.ReviewRuns.TransactionWrites

/-!
# What one operation does to one run

An operation either admits a run or performs at most one action on each run
that exists. `actsOn` names that action and `execute_existing` says that the
row afterwards is its result. Invariants of single runs are then lifted to all
reachable databases by one rule, and properties that only some actions keep by
its exact form.
-/

namespace RowEffects

open KeyedTables ReviewRunsSchema ReviewRunsTransactions Coordination TransactionWrites
open TransitionSystems

/-- The action an operation performs on the run `id`. -/
def actsOn (store : Store) (db : Database) (id : RunId) : Operation → Option RunAction
  | .create _ | .admitRun _ | .advance _ => none
  | .onRun runId action => if id = runId then some action else none
  | .claimNextPreparation locked =>
    if (PreparationStore.claimCandidates store locked db).head? = some id then
      some .claimPreparation
    else none
  | .expireStale locked =>
    if id ∈ PreparationStore.expiryCandidates store locked db then some .expirePreparation
    else none
  | .claimNextPublication locked =>
    if (PublicationClaimStore.claimCandidates store locked db).head? = some id then
      some .claimPublication
    else none
  | .claimNextNotice locked =>
    match (RunNoticeStore.candidates store locked db).head? with
    | some (runId, noticeId) => if id = runId then some (.claimNotice noticeId) else none
    | none => none
  | .renewNotice noticeId token =>
    if RunNoticeStore.owner db store noticeId = some id then some (.renewNotice noticeId token)
    else none
  | .completeNotice noticeId token delivered commentUrl =>
    if RunNoticeStore.owner db store noticeId = some id then
      some (.completeNotice noticeId token delivered commentUrl)
    else none

/-- `actsOn` for a run of this connector; other runs are out of reach. -/
def actionOn (call : Call) (db : Database) (id : RunId) : Option RunAction :=
  if (find db call.1 id).isSome then actsOn call.1 db id call.2 else none

/-- A transaction that reads the row `run` during an operation on `db`. -/
structure Sees (db : Database) (run : Run) (tx : Tx) : Prop where
  run : tx.run = run
  now : tx.now = db.clock
  token : db.nextToken ≤ tx.nextToken
  event : db.nextEventId ≤ tx.nextEventId
  notice : db.nextNoticeId ≤ tx.nextNoticeId

/-- The counters of `db` are past those of the transaction. -/
structure Counted (tx : Tx) (db : Database) : Prop where
  token : tx.nextToken ≤ db.nextToken
  event : tx.nextEventId ≤ db.nextEventId
  notice : tx.nextNoticeId ≤ db.nextNoticeId

def resultOf (store : Store) (id : RunId) (tx : Tx) : Option RunAction → Tx
  | none => tx
  | some action => action.result store id tx

/-- The row `id` of `next` is what `action` makes of the row `run` of `db`. -/
def RowEffect (store : Store) (db next : Database) (id : RunId) (run : Run)
    (action : Option RunAction) : Prop :=
  ∃ tx, Sees db run tx ∧ next.runs.row id = some (resultOf store id tx action).run ∧
    Counted (resultOf store id tx action) next

theorem begin_sees (db : Database) (run : Run) : Sees db run (begin db run) :=
  ⟨rfl, rfl, le_rfl, le_rfl, le_rfl⟩

theorem result_writes (store : Store) (id : RunId) (action : RunAction) (tx : Tx) :
    Writes tx (action.result store id tx) :=
  writes_of_sequence (Statements.result_statements store id action tx)

/-- The outcome writes nothing: it throws, or commits what it found. -/
def Silent {α : Type} (tx : Tx) : Outcome α → Prop
  | .ok (_, next) => next = tx
  | .error _ => True

theorem result_of_silent {α : Type} {store : Store} {id : RunId} {action : RunAction} {tx : Tx}
    {outcome : Outcome α} (performs : action.perform store id tx = written outcome)
    (silent : Silent tx outcome) : action.result store id tx = tx := by
  rw [RunAction.result, performs]
  cases outcome with
  | error e => rfl
  | ok result => exact silent

theorem resultOf_statements (store : Store) (id : RunId) (tx : Tx) (action : Option RunAction) :
    ∃ acting, Statements.Sequence acting tx (resultOf store id tx action) := by
  cases action with
  | none => exact ⟨.touchObservation, .start⟩
  | some action => exact ⟨_, Statements.result_statements store id action tx⟩

/-- No counter goes back. -/
structure Grows (db next : Database) : Prop where
  token : db.nextToken ≤ next.nextToken
  event : db.nextEventId ≤ next.nextEventId
  notice : db.nextNoticeId ≤ next.nextNoticeId

theorem grows_refl (db : Database) : Grows db db := ⟨le_rfl, le_rfl, le_rfl⟩

theorem Grows.trans {a b c : Database} (h : Grows a b) (h' : Grows b c) : Grows a c :=
  ⟨h.token.trans h'.token, h.event.trans h'.event, h.notice.trans h'.notice⟩

/-- A row no action touched. -/
theorem rowEffect_none {db next : Database} {id : RunId} {run : Run} (store : Store)
    (row : next.runs.row id = some run) (grows : Grows db next) :
    RowEffect store db next id run none :=
  ⟨begin db run, begin_sees db run, row, ⟨grows.token, grows.event, grows.notice⟩⟩

/-- The database after one action on one run. -/
def apply (store : Store) (runId : RunId) (action : RunAction) (db : Database) : Database :=
  match find db store runId with
  | none => db
  | some run => commit db runId (action.result store runId (begin db run))

theorem find_some {db : Database} {store : Store} {id : RunId} {run : Run}
    (h : find db store id = some run) :
    db.runs.row id = some run ∧ run.connectorId = store.connectorId := by
  simpa [find, Option.filter_eq_some_iff] using h

theorem commit_begin_rows (db : Database) {id : RunId} {run : Run}
    (h : db.runs.row id = some run) : commit db id (begin db run) = db := by
  have same : db.runs.put id run = db.runs := by
    apply Table.ext_rows
    · exact Table.put_keys_of_row h run
    · intro k
      by_cases hk : k = id
      · simp [hk, h]
      · simp [hk]
  simp [commit, begin, same]

theorem onRun_execute (store : Store) (runId : RunId) (action : RunAction) (db : Database) :
    (Operation.onRun runId action).execute store db = apply store runId action db := by
  unfold apply
  cases hfind : find db store runId with
  | none => simp [Operation.execute, hfind]
  | some run =>
    cases hperform : action.perform store runId (begin db run) with
    | ok next => simp [Operation.execute, RunAction.result, hfind, hperform]
    | error e =>
      simp [Operation.execute, RunAction.result, hfind, hperform,
        commit_begin_rows db (find_some hfind).1]

theorem transaction_apply {α : Type} (store : Store) (runId : RunId)
    (missing : Except StoreError α) (body : Tx → Outcome α) (action : RunAction)
    (performs : ∀ tx, action.perform store runId tx = written (body tx)) (db : Database) :
    (transaction store runId missing body db).2 = apply store runId action db := by
  unfold apply
  cases hfind : find db store runId with
  | none => simp [transaction, hfind]
  | some run =>
    cases hbody : body (begin db run) with
    | ok result => simp [transaction, RunAction.result, performs, written, hfind, hbody, Except.map]
    | error e =>
      simp [transaction, RunAction.result, performs, written, hfind, hbody, Except.map,
        commit_begin_rows db (find_some hfind).1]

theorem apply_grows (store : Store) (runId : RunId) (action : RunAction) (db : Database) :
    Grows db (apply store runId action db) := by
  unfold apply
  split
  · exact grows_refl db
  · next run _ =>
    have h := (result_writes store runId action (begin db run)).advances
    exact ⟨h.token, h.event, h.notice⟩

theorem apply_row_other (store : Store) {runId id : RunId} (hne : id ≠ runId)
    (action : RunAction) (db : Database) :
    (apply store runId action db).runs.row id = db.runs.row id := by
  unfold apply
  split
  · rfl
  · simp [commit, hne]

theorem apply_effect (store : Store) {db : Database} {id : RunId} {run : Run}
    (row : db.runs.row id = some run) (runId : RunId) (action : RunAction) :
    RowEffect store db (apply store runId action db) id run
      (if (find db store id).isSome ∧ id = runId then some action else none) := by
  by_cases hid : id = runId
  · subst hid
    cases hfind : find db store id with
    | none =>
      simp only [apply, hfind, Option.isSome_none, Bool.false_eq_true, false_and, if_false]
      exact rowEffect_none store row (grows_refl db)
    | some found =>
      have heq : found = run := by
        have := (find_some hfind).1
        rw [row] at this
        exact (Option.some.inj this).symm
      subst heq
      simp only [apply, hfind, Option.isSome_some, and_self, if_true]
      exact ⟨begin db found, begin_sees db found, by simp [commit, resultOf],
        ⟨le_rfl, le_rfl, le_rfl⟩⟩
  · simp only [hid, and_false, if_false]
    refine rowEffect_none store ?_ (apply_grows store runId action db)
    rw [apply_row_other store hid, row]

/-- An expirable row always reaches a conclusion, so no pass is rolled back. -/
theorem expireCandidate_ok {store : Store} (runId : RunId) {tx : Tx}
    (h : PreparationStore.expirable store tx.now tx.run = true) :
    ∃ blocked next, PreparationStore.expireCandidate runId tx = .ok (blocked, next) := by
  have preparing : tx.run.preparation.status = .preparing := by
    simp only [PreparationStore.expirable, Bool.and_eq_true, decide_eq_true_eq] at h
    exact h.1
  unfold PreparationStore.expireCandidate
  cases hconclude : PreparationStore.concludeExpiry runId tx.run.preparation.attemptCount tx with
  | ok next => exact ⟨false, next, rfl⟩
  | error failure =>
    cases failure with
    | unreconcilable => simp [preparing]
    | lost e =>
      simp only [PreparationStore.concludeExpiry, preparing, if_true] at hconclude
      split at hconclude
      · split at hconclude <;> cases hconclude
      · cases hconclude

/-- The rows of a list of ids, each expired in turn. -/
def expireAll (store : Store) : List RunId → Database → Database
  | [], db => db
  | id :: rest, db => expireAll store rest (apply store id .expirePreparation db)

theorem expireEach_expireAll {store : Store} {ids : List RunId} {db : Database}
    (distinct : ids.Nodup)
    (expirable : ∀ id ∈ ids, ∃ run, find db store id = some run ∧
      PreparationStore.expirable store db.clock run = true) :
    ∃ result, PreparationStore.expireEach store ids db = (.ok result, expireAll store ids db) := by
  induction ids generalizing db with
  | nil => exact ⟨_, rfl⟩
  | cons id rest ih =>
    obtain ⟨run, hfind, hexpirable⟩ := expirable id List.mem_cons_self
    have selected : PreparationStore.expirable store (begin db run).now (begin db run).run
        = true := hexpirable
    obtain ⟨blocked, next, hok⟩ := expireCandidate_ok id selected
    have applied : apply store id .expirePreparation db = commit db id next := by
      simp [apply, hfind, RunAction.result, RunAction.perform, expireSelected, selected, hok,
        written, Except.map]
    have first : transaction store id (.ok false) (PreparationStore.expireCandidate id) db
        = (.ok blocked, commit db id next) := by
      simp [transaction, hfind, hok]
    have still : ∀ other ∈ rest, ∃ run, find (commit db id next) store other = some run ∧
        PreparationStore.expirable store (commit db id next).clock run = true := by
      intro other hother
      obtain ⟨otherRun, hfound, hexp⟩ := expirable other (List.mem_cons_of_mem _ hother)
      have hne : other ≠ id := fun heq => (List.nodup_cons.mp distinct).1 (heq ▸ hother)
      exact ⟨otherRun, by simpa [find, commit, hne] using hfound, hexp⟩
    obtain ⟨result, hrest⟩ := ih (List.nodup_cons.mp distinct).2 still
    simp only [PreparationStore.expireEach, first, hrest, expireAll, applied]
    exact ⟨_, rfl⟩

theorem expireAll_grows (store : Store) (ids : List RunId) (db : Database) :
    Grows db (expireAll store ids db) := by
  induction ids generalizing db with
  | nil => exact grows_refl db
  | cons id rest ih => exact (apply_grows store id _ db).trans (ih _)

theorem expireAll_row_other (store : Store) {ids : List RunId} {id : RunId} (h : id ∉ ids)
    (db : Database) : (expireAll store ids db).runs.row id = db.runs.row id := by
  induction ids generalizing db with
  | nil => rfl
  | cons first rest ih =>
    simp only [List.mem_cons, not_or] at h
    simp only [expireAll]
    rw [ih h.2, apply_row_other store h.1]

theorem apply_clock (store : Store) (runId : RunId) (action : RunAction) (db : Database) :
    (apply store runId action db).clock = db.clock := by
  unfold apply
  split <;> rfl

theorem RowEffect.later {store : Store} {db mid next : Database} {id : RunId} {run : Run}
    {action : Option RunAction} (h : RowEffect store mid next id run action)
    (grows : Grows db mid) (clock : mid.clock = db.clock) :
    RowEffect store db next id run action := by
  obtain ⟨tx, sees, row, counted⟩ := h
  exact ⟨tx, ⟨sees.run, sees.now.trans clock, grows.token.trans sees.token,
    grows.event.trans sees.event, grows.notice.trans sees.notice⟩, row, counted⟩

theorem RowEffect.earlier {store : Store} {db mid next : Database} {id : RunId} {run : Run}
    {action : Option RunAction} (h : RowEffect store db mid id run action)
    (row : next.runs.row id = mid.runs.row id) (grows : Grows mid next) :
    RowEffect store db next id run action := by
  obtain ⟨tx, sees, hrow, counted⟩ := h
  exact ⟨tx, sees, row.trans hrow, ⟨counted.token.trans grows.token,
    counted.event.trans grows.event, counted.notice.trans grows.notice⟩⟩

theorem expireAll_effect (store : Store) {ids : List RunId} {db : Database} {id : RunId}
    {run : Run} (distinct : ids.Nodup) (row : db.runs.row id = some run) :
    RowEffect store db (expireAll store ids db) id run
      (if (find db store id).isSome ∧ id ∈ ids then some .expirePreparation else none) := by
  induction ids generalizing db with
  | nil => simpa [expireAll] using rowEffect_none store row (grows_refl db)
  | cons first rest ih =>
    obtain ⟨hfirst, hrest⟩ := List.nodup_cons.mp distinct
    by_cases hid : id = first
    · -- the later ids leave this row alone
      have touched := apply_effect store row first .expirePreparation
      simp only [hid, and_true, List.mem_cons, true_or] at touched ⊢
      exact touched.earlier (expireAll_row_other store hfirst _) (expireAll_grows store rest _)
    · have kept : (apply store first .expirePreparation db).runs.row id = some run := by
        rw [apply_row_other store hid, row]
      have found : find (apply store first .expirePreparation db) store id
          = find db store id := by
        simp only [find, kept, row]
      have later := (ih hrest kept).later (apply_grows store first _ db)
        (apply_clock store first _ db)
      simpa [found, hid, expireAll] using later

theorem expiryCandidates_expirable {store : Store} {locked : RunId → Bool} {db : Database}
    {id : RunId} (h : id ∈ PreparationStore.expiryCandidates store locked db) :
    ∃ run, find db store id = some run ∧
      PreparationStore.expirable store db.clock run = true := by
  obtain ⟨run, row, selected⟩ := Table.mem_selectKeys.mp h
  simp only [Bool.and_eq_true, decide_eq_true_eq] at selected
  exact ⟨run, by simp [find, row, selected.1.1], selected.2⟩

theorem expireStale_execute (store : Store) (locked : RunId → Bool) (db : Database) :
    (Operation.expireStale locked).execute store db =
      expireAll store (PreparationStore.expiryCandidates store locked db) db := by
  have distinct : (PreparationStore.expiryCandidates store locked db).Nodup :=
    Table.selectKeys_nodup _ _ _
  obtain ⟨result, h⟩ := expireEach_expireAll distinct fun _ => expiryCandidates_expirable
  exact congrArg Prod.snd h

theorem claimNextPreparation_execute (store : Store) (locked : RunId → Bool) (db : Database) :
    (Operation.claimNextPreparation locked).execute store db =
      match (PreparationStore.claimCandidates store locked db).head? with
      | none => db
      | some runId => apply store runId .claimPreparation db := by
  simp only [Operation.execute, PreparationStore.claimNext]
  cases (PreparationStore.claimCandidates store locked db).head? with
  | none => rfl
  | some runId => exact transaction_apply _ _ _ _ .claimPreparation (fun _ => rfl) _

theorem claimNextPublication_execute (store : Store) (locked : RunId → Bool) (db : Database) :
    (Operation.claimNextPublication locked).execute store db =
      match (PublicationClaimStore.claimCandidates store locked db).head? with
      | none => db
      | some runId => apply store runId .claimPublication db := by
  simp only [Operation.execute, PublicationClaimStore.claimNextOnce]
  cases (PublicationClaimStore.claimCandidates store locked db).head? with
  | none => rfl
  | some runId => exact transaction_apply _ _ _ _ .claimPublication (fun _ => rfl) _

theorem claimNextNotice_execute (store : Store) (locked : NoticeId → Bool) (db : Database) :
    (Operation.claimNextNotice locked).execute store db =
      match (RunNoticeStore.candidates store locked db).head? with
      | none => db
      | some (runId, noticeId) => apply store runId (.claimNotice noticeId) db := by
  simp only [Operation.execute, RunNoticeStore.claimNext]
  cases (RunNoticeStore.candidates store locked db).head? with
  | none => rfl
  | some found => exact transaction_apply _ _ _ _ (.claimNotice found.2) (fun _ => rfl) _

theorem onOwner_apply {α : Type} (store : Store) (noticeId : NoticeId) (missing : α)
    (body : Tx → Outcome α) (action : RunAction)
    (performs : ∀ runId tx, action.perform store runId tx = written (body tx))
    (db : Database) :
    (RunNoticeStore.onOwner store noticeId missing body db).2 =
      match RunNoticeStore.owner db store noticeId with
      | none => db
      | some runId => apply store runId action db := by
  unfold RunNoticeStore.onOwner
  cases RunNoticeStore.owner db store noticeId with
  | none => rfl
  | some runId => exact transaction_apply _ _ _ _ action (performs runId) _

/-- The database after an action on the selected run, if there is one. -/
theorem selected_effect (store : Store) {db : Database} {id : RunId} {run : Run}
    (row : db.runs.row id = some run) (selected : Option RunId) (action : RunAction) :
    RowEffect store db
      (match selected with
        | none => db
        | some runId => apply store runId action db) id run
      (if (find db store id).isSome ∧ selected = some id then some action else none) := by
  cases selected with
  | none => simpa using rowEffect_none store row (grows_refl db)
  | some runId =>
    have touched := apply_effect store row runId action
    simpa only [Option.some.injEq, eq_comm] using touched

/-- What admission does to the database: nothing, or one new row. -/
def Admits (store : Store) (args : AdmissionStore.CreateReviewRunArgs)
    (db next : Database) : Prop :=
  next = db ∨ db.runs.row args.runId = none ∧
    next = commit db args.runId (AdmissionStore.insertWith store args db)

theorem create_cases (store : Store) (args : AdmissionStore.CreateReviewRunArgs)
    (db : Database) : Admits store args db ((Operation.create args).execute store db) := by
  simp only [Operation.execute, AdmissionStore.create]
  split
  · exact .inl rfl
  · next absent =>
    split
    · exact .inl rfl
    · exact .inr ⟨by simpa using absent, rfl⟩

theorem admit_cases (store : Store) (args : AdmissionStore.CreateReviewRunArgs)
    (db : Database) : Admits store args db ((Operation.admitRun args).execute store db) := by
  simp only [Operation.execute, AdmissionStore.admitRun]
  split
  · exact .inl rfl
  · exact create_cases store args db

theorem insertWith_grows (store : Store) (args : AdmissionStore.CreateReviewRunArgs)
    (db : Database) :
    Grows db (commit db args.runId (AdmissionStore.insertWith store args db)) :=
  ⟨Nat.le_succ _, by simp [commit, AdmissionStore.insertWith, appendEvent, Nat.add_assoc],
    le_rfl⟩

theorem admission_effect (store : Store) {db next : Database} {id : RunId} {run : Run}
    (row : db.runs.row id = some run) {args : AdmissionStore.CreateReviewRunArgs}
    (admits : Admits store args db next) : RowEffect store db next id run none := by
  rcases admits with rfl | ⟨absent, rfl⟩
  · exact rowEffect_none store row (grows_refl _)
  · refine rowEffect_none store ?_ (insertWith_grows store args db)
    have hne : id ≠ args.runId := by
      rintro rfl
      simp [absent] at row
    simp [commit, hne, row]

theorem admission_absent {store : Store} {db next : Database} {id : RunId}
    (row : db.runs.row id = none) {args : AdmissionStore.CreateReviewRunArgs}
    (admits : Admits store args db next) :
    next.runs.row id = none ∨ ∃ args,
      next.runs.row id = some (AdmissionStore.insertWith store args db).run ∧
        Counted (AdmissionStore.insertWith store args db) next := by
  rcases admits with rfl | ⟨_, rfl⟩
  · exact .inl row
  · by_cases hid : id = args.runId
    · exact .inr ⟨args, by simp [commit, hid], ⟨le_rfl, le_rfl, le_rfl⟩⟩
    · exact .inl (by simp [commit, hid, row])

theorem apply_absent {db : Database} {id : RunId} (row : db.runs.row id = none)
    (store : Store) (runId : RunId) (action : RunAction) :
    (apply store runId action db).runs.row id = none := by
  by_cases hid : id = runId
  · subst hid
    simp [apply, find, row]
  · rw [apply_row_other store hid, row]

theorem expireAll_absent {db : Database} {id : RunId} (row : db.runs.row id = none)
    (store : Store) (ids : List RunId) :
    (expireAll store ids db).runs.row id = none := by
  induction ids generalizing db with
  | nil => exact row
  | cons first rest ih => exact ih (apply_absent row store first _)

/-- A run that exists keeps its row, rewritten by the one action the operation
performs on it. -/
theorem execute_existing (call : Call) {db : Database} {id : RunId} {run : Run}
    (row : db.runs.row id = some run) :
    RowEffect call.1 db (call.2.execute call.1 db) id run (actionOn call db id) := by
  obtain ⟨store, operation⟩ := call
  cases operation with
  | create args =>
    simpa [actionOn, actsOn] using admission_effect store row (create_cases store args db)
  | admitRun args =>
    simpa [actionOn, actsOn] using admission_effect store row (admit_cases store args db)
  | onRun runId action =>
    simpa [actionOn, actsOn, onRun_execute, ite_and] using
      apply_effect store row runId action
  | claimNextPreparation locked =>
    rw [claimNextPreparation_execute]
    simpa only [actionOn, actsOn, ite_and] using selected_effect store row
      (PreparationStore.claimCandidates store locked db).head? .claimPreparation
  | expireStale locked =>
    rw [expireStale_execute]
    have distinct : (PreparationStore.expiryCandidates store locked db).Nodup :=
      Table.selectKeys_nodup _ _ _
    simpa only [actionOn, actsOn, ite_and] using expireAll_effect store distinct row
  | claimNextPublication locked =>
    rw [claimNextPublication_execute]
    simpa only [actionOn, actsOn, ite_and] using selected_effect store row
      (PublicationClaimStore.claimCandidates store locked db).head? .claimPublication
  | claimNextNotice locked =>
    rw [claimNextNotice_execute]
    simp only [actionOn, actsOn]
    cases (RunNoticeStore.candidates store locked db).head? with
    | none => simpa using rowEffect_none store row (grows_refl db)
    | some found =>
      simpa only [ite_and] using
        apply_effect store row found.1 (.claimNotice found.2)
  | renewNotice noticeId token =>
    simp only [Operation.execute]
    rw [onOwner_apply _ _ _ _ (.renewNotice noticeId token) (fun _ _ => rfl)]
    simpa only [actionOn, actsOn, ite_and] using selected_effect store row
      (RunNoticeStore.owner db store noticeId) (.renewNotice noticeId token)
  | completeNotice noticeId token delivered commentUrl =>
    simp only [Operation.execute]
    rw [onOwner_apply _ _ _ _ (.completeNotice noticeId token delivered commentUrl)
      (fun _ _ => rfl)]
    simpa only [actionOn, actsOn, ite_and] using selected_effect store row
      (RunNoticeStore.owner db store noticeId)
      (.completeNotice noticeId token delivered commentUrl)
  | advance ms =>
    have untouched : RowEffect store db ((Operation.advance ms).execute store db) id run none :=
      rowEffect_none store row ⟨le_rfl, le_rfl, le_rfl⟩
    simpa [actionOn, actsOn] using untouched

/-- A new row can only come from admission. -/
theorem execute_absent (call : Call) {db : Database} {id : RunId}
    (row : db.runs.row id = none) :
    (call.2.execute call.1 db).runs.row id = none ∨
      ∃ args, (call.2.execute call.1 db).runs.row id
          = some (AdmissionStore.insertWith call.1 args db).run ∧
        Counted (AdmissionStore.insertWith call.1 args db) (call.2.execute call.1 db) := by
  obtain ⟨store, operation⟩ := call
  cases operation with
  | create args => exact admission_absent row (create_cases store args db)
  | admitRun args => exact admission_absent row (admit_cases store args db)
  | onRun runId action =>
    rw [onRun_execute]
    exact .inl (apply_absent row store runId action)
  | claimNextPreparation locked =>
    rw [claimNextPreparation_execute]
    split
    · exact .inl row
    · exact .inl (apply_absent row store _ _)
  | expireStale locked =>
    rw [expireStale_execute]
    exact .inl (expireAll_absent row store _)
  | claimNextPublication locked =>
    rw [claimNextPublication_execute]
    split
    · exact .inl row
    · exact .inl (apply_absent row store _ _)
  | claimNextNotice locked =>
    rw [claimNextNotice_execute]
    split
    · exact .inl row
    · exact .inl (apply_absent row store _ _)
  | renewNotice noticeId token =>
    simp only [Operation.execute]
    rw [onOwner_apply _ _ _ _ (.renewNotice noticeId token) (fun _ _ => rfl)]
    split
    · exact .inl row
    · exact .inl (apply_absent row store _ _)
  | completeNotice noticeId token delivered commentUrl =>
    simp only [Operation.execute]
    rw [onOwner_apply _ _ _ _ (.completeNotice noticeId token delivered commentUrl)
      (fun _ _ => rfl)]
    split
    · exact .inl row
    · exact .inl (apply_absent row store _ _)
  | advance ms => exact .inl row

theorem selected_grows (store : Store) (db : Database) (selected : Option RunId)
    (action : RunAction) :
    Grows db (match selected with
      | none => db
      | some runId => apply store runId action db) := by
  cases selected with
  | none => exact grows_refl db
  | some runId => exact apply_grows store runId action db

theorem admission_grows {store : Store} {args : AdmissionStore.CreateReviewRunArgs}
    {db next : Database} (admits : Admits store args db next) : Grows db next := by
  rcases admits with rfl | ⟨-, rfl⟩
  · exact grows_refl _
  · exact insertWith_grows store args db

theorem execute_grows (call : Call) (db : Database) : Grows db (call.2.execute call.1 db) := by
  obtain ⟨store, operation⟩ := call
  cases operation with
  | create args => exact admission_grows (create_cases store args db)
  | admitRun args => exact admission_grows (admit_cases store args db)
  | onRun runId action =>
    rw [onRun_execute]
    exact apply_grows store runId action db
  | claimNextPreparation locked =>
    rw [claimNextPreparation_execute]
    exact selected_grows store db _ _
  | expireStale locked =>
    rw [expireStale_execute]
    exact expireAll_grows store _ db
  | claimNextPublication locked =>
    rw [claimNextPublication_execute]
    exact selected_grows store db _ _
  | claimNextNotice locked =>
    rw [claimNextNotice_execute]
    split
    · exact grows_refl db
    · exact apply_grows store _ _ db
  | renewNotice noticeId token =>
    simp only [Operation.execute]
    rw [onOwner_apply _ _ _ _ (.renewNotice noticeId token) (fun _ _ => rfl)]
    exact selected_grows store db _ _
  | completeNotice noticeId token delivered commentUrl =>
    simp only [Operation.execute]
    rw [onOwner_apply _ _ _ _ (.completeNotice noticeId token delivered commentUrl)
      (fun _ _ => rfl)]
    exact selected_grows store db _ _
  | advance ms => exact ⟨le_rfl, le_rfl, le_rfl⟩

/-- Every run of the database satisfies `P`, read with the current counters. -/
def Everywhere (P : Tx → Prop) (db : Database) : Prop :=
  ∀ id run, db.runs.row id = some run → P (begin db run)

/-- `P` looks at the run and at lower bounds of the counters only. -/
def Stable (P : Tx → Prop) : Prop :=
  ∀ tx next : Tx, P tx → next.run = tx.run → tx.nextToken ≤ next.nextToken →
    tx.nextEventId ≤ next.nextEventId → tx.nextNoticeId ≤ next.nextNoticeId → P next

/-- `P` holds of every run just admitted. -/
def Initially (P : Tx → Prop) : Prop :=
  ∀ store args db, P (AdmissionStore.insertWith store args db)

/-- Every action the operation may perform is `Permitted`. -/
def Permits (Permitted : RunAction → Prop) (call : Call) : Prop :=
  ∀ db id action, actionOn call db id = some action → Permitted action

theorem everywhere_execute {Permitted : RunAction → Prop} {P : Tx → Prop} (stable : Stable P)
    (initially : Initially P)
    (preserved : ∀ store id action tx, Permitted action → P tx →
      P (RunAction.result store id action tx))
    {call : Call} (permits : Permits Permitted call) {db : Database} (holds : Everywhere P db) :
    Everywhere P (call.2.execute call.1 db) := by
  intro id run' row'
  cases row : db.runs.row id with
  | none =>
    rcases execute_absent call row with absent | ⟨args, new, counted⟩
    · simp [absent] at row'
    · obtain rfl := Option.some.inj (row'.symm.trans new)
      exact stable _ _ (initially call.1 args db) rfl counted.token counted.event counted.notice
  | some run =>
    obtain ⟨tx, sees, next, counted⟩ := execute_existing call row
    obtain rfl := Option.some.inj (row'.symm.trans next)
    have before : P tx :=
      stable _ _ (holds id run row) sees.run sees.token sees.event sees.notice
    have after : P (resultOf call.1 id tx (actionOn call db id)) := by
      cases acts : actionOn call db id with
      | none => exact before
      | some action => exact preserved call.1 id action tx (permits db id action acts) before
    exact stable _ _ after rfl counted.token counted.event counted.notice

theorem everywhere_reachable {P : Tx → Prop} (stable : Stable P) (initially : Initially P)
    (preserved : ∀ store id action tx, P tx → P (RunAction.result store id action tx))
    {db : Database} (reachable : coordination.Reachable db) : Everywhere P db := by
  refine coordination.reachable_invariant ?_ ?_ reachable
  · intro id run row
    cases row
  · intro db call holds
    have permits : Permits (fun _ => True) call := fun _ _ _ _ => trivial
    exact everywhere_execute stable initially (fun store id action tx _ => preserved store id action tx)
      permits holds

/-- An operation whose action on some run is `Bad` there. -/
def Performs (Bad : Store → Timestamp → RunAction → Run → Prop) (db : Database)
    (call : Call) : Prop :=
  ∃ id run action, db.runs.row id = some run ∧ actionOn call db id = some action ∧
    Bad call.1 db.clock action run

/-- Exact lifting: when `Bad` decides whether an action breaks `P`, it decides
whether an operation does. -/
theorem everywhere_execute_iff {Permitted : RunAction → Prop} {Base : Tx → Prop}
    {P : Run → Prop} {Bad : Store → Timestamp → RunAction → Run → Prop} (stable : Stable Base)
    (initially : Initially fun tx => P tx.run)
    (exactly : ∀ store id action tx, Permitted action → Base tx → P tx.run →
      (P (RunAction.result store id action tx).run ↔ ¬ Bad store tx.now action tx.run))
    {call : Call} (permits : Permits Permitted call) {db : Database} (base : Everywhere Base db)
    (holds : Everywhere (fun tx => P tx.run) db) :
    Everywhere (fun tx => P tx.run) (call.2.execute call.1 db) ↔ ¬ Performs Bad db call := by
  have effect : ∀ id run, db.runs.row id = some run →
      ∃ next, (call.2.execute call.1 db).runs.row id = some next ∧
        (P next ↔ ∀ action, actionOn call db id = some action →
          ¬ Bad call.1 db.clock action run) := by
    intro id run row
    obtain ⟨tx, sees, next, -⟩ := execute_existing call row
    have before : Base tx :=
      stable _ _ (base id run row) sees.run sees.token sees.event sees.notice
    have here : P tx.run := sees.run ▸ holds id run row
    refine ⟨_, next, ?_⟩
    cases acts : actionOn call db id with
    | none => simpa [resultOf] using here
    | some action =>
      have decides := exactly call.1 id action tx (permits db id action acts) before here
      rw [sees.now, sees.run] at decides
      simpa [resultOf] using decides
  constructor
  · rintro after ⟨id, run, action, row, acts, bad⟩
    obtain ⟨next, row', decides⟩ := effect id run row
    exact decides.mp (after id next row') action acts bad
  · intro good id run' row'
    cases row : db.runs.row id with
    | none =>
      rcases execute_absent call row with absent | ⟨args, new, -⟩
      · simp [absent] at row'
      · obtain rfl := Option.some.inj (row'.symm.trans new)
        exact initially call.1 args db
    | some run =>
      obtain ⟨next, new, decides⟩ := effect id run row
      obtain rfl := Option.some.inj (row'.symm.trans new)
      exact decides.mpr fun action acts bad => good ⟨id, run, action, row, acts, bad⟩

/-- Along whole runs of permitted actions: `P` holds of every run in every state
visited exactly when no step performs a `Bad` action. -/
theorem everywhere_visited_iff (Permitted : RunAction → Prop) (Base : Tx → Prop)
    (P : Run → Prop) {Bad : Store → Timestamp → RunAction → Run → Prop} (stable : Stable Base)
    (baseInitially : Initially Base)
    (basePreserved : ∀ store id action tx, Permitted action → Base tx →
      Base (RunAction.result store id action tx))
    (initially : Initially fun tx => P tx.run)
    (exactly : ∀ store id action tx, Permitted action → Base tx → P tx.run →
      (P (RunAction.result store id action tx).run ↔ ¬ Bad store tx.now action tx.run))
    (calls : List Call) (permits : ∀ call ∈ calls, Permits Permitted call) :
    (∀ db ∈ coordination.visited calls, Everywhere (fun tx => P tx.run) db) ↔
      ∀ step ∈ coordination.steps calls, ¬ Performs Bad step.1 step.2 := by
  refine coordination.holds_along_iff (Permits Permitted) (Everywhere Base) _
    (fun db call => ¬ Performs Bad db call) ?_ ?_ ?_ ?_ calls permits
  · intro id run row
    cases row
  · intro id run row
    cases row
  · exact fun _ call permitted base =>
      everywhere_execute stable baseInitially basePreserved permitted base
  · exact fun _ call permitted base holds =>
      everywhere_execute_iff stable initially exactly permitted base holds

end RowEffects
