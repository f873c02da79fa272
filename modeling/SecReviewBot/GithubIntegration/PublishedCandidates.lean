import SecReviewBot.GithubIntegration.StoredBundles
import SecReviewBot.ReviewRuns.CandidateWrites
import SecReviewBot.ReviewRuns.InputCandidates
import SecReviewBot.ReviewRuns.SubmissionBoundary

/-!
# Candidates with a stored object

A run is sound when the object of every candidate that is present or selected
is stored. Every transaction keeps that, provided that a candidate is confirmed
only after its object is there. A submission starts when its input is saved,
which selects the candidate, and neither the selected candidate nor the saved
input changes afterwards.
-/

namespace PublishedCandidates

open JsonValues KeyedTables ReviewRunsSchema ReviewRunsTransactions Coordination
open TransitionSystems RowEffects InputBundleCandidateStore InputStorage InputBundlePublication
open StoredBundles InputCandidates CandidateWrites TerminalStates
open Submissions (Task Reply)

variable {Body : Type} {runtime : Runtime Body}

theorem toJson_injective {a b : InputBundleReference} (h : a.toJson = b.toJson) : a = b := by
  obtain ⟨uri, digest, mediaType, sizeBytes⟩ := a
  obtain ⟨uri', digest', mediaType', sizeBytes'⟩ := b
  simpa [InputBundleReference.toJson] using h

theorem readReference_toJson {value : Json} {reference : InputBundleReference}
    (h : readReference value = some reference) : value = reference.toJson := by
  simp only [readReference] at h
  split at h
  · split at h
    · next same =>
      cases h
      exact same.symm
    · cases h
  · cases h

/-- The candidate of a reference the store has accepted. Its object is there
once the candidate is confirmed. -/
def CandidateSound (runtime : Runtime Body) (objects : Objects Body) (runId : RunId)
    (digest : Digest) (c : InputBundleCandidate) : Prop :=
  ∃ reference, c.reference = InputBundleReference.toJson reference ∧ reference.digest = digest ∧
    Accepted runtime runId reference ∧
    (c.status = .present ∨ c.status = .selected → Published runtime objects reference)

def RunSound (runtime : Runtime Body) (objects : Objects Body) (runId : RunId) (run : Run) :
    Prop :=
  ∀ digest c, run.candidates.row digest = some c → CandidateSound runtime objects runId digest c

def RunsSound (runtime : Runtime Body) (objects : Objects Body) (db : Database) : Prop :=
  ∀ id run, db.runs.row id = some run → RunSound runtime objects id run

theorem RunsSound.mono {objects next : Objects Body} (h : Extends objects next) {db : Database}
    (sound : RunsSound runtime objects db) : RunsSound runtime next db := by
  intro id run row digest c found
  obtain ⟨reference, same, named, accepted, published⟩ := sound id run row digest c found
  exact ⟨reference, same, named, accepted, fun confirmed => (published confirmed).mono h⟩

section OneRun

variable {objects : Objects Body} {id : RunId} {run next : Run}

/-- Soundness depends on the reference and on the status only. -/
theorem CandidateSound.of_same {digest : Digest} {c c' : InputBundleCandidate}
    (sound : CandidateSound runtime objects id digest c) (reference : c'.reference = c.reference)
    (status : c'.status = .present ∨ c'.status = .selected →
      c.status = .present ∨ c.status = .selected) :
    CandidateSound runtime objects id digest c' := by
  obtain ⟨ref, same, named, accepted, published⟩ := sound
  exact ⟨ref, reference.trans same, named, accepted, fun confirmed => published (status confirmed)⟩

theorem runSound_put (sound : RunSound runtime objects id run) {digest : Digest}
    {c : InputBundleCandidate} (candidates : next.candidates = run.candidates.put digest c)
    (new : CandidateSound runtime objects id digest c) : RunSound runtime objects id next := by
  intro d found row
  rw [candidates] at row
  rcases Table.put_row_cases row with ⟨rfl, rfl⟩ | ⟨-, old⟩
  · exact new
  · exact sound d found old

theorem runSound_withdrawn (sound : RunSound runtime objects id run) {now : Timestamp}
    (withdrawn : Withdrawn run.candidates now next.candidates) :
    RunSound runtime objects id next := by
  intro digest c row
  rcases withdrawn with same | abandoned
  · rw [same] at row
    exact sound digest c row
  · rw [abandoned] at row
    obtain ⟨old, found, rfl⟩ := Option.map_eq_some_iff.mp row
    rcases abandonCandidate_cases now old with kept | ⟨-, ended⟩
    · rw [kept]
      exact sound digest old found
    · refine (sound digest old found).of_same (by rw [ended]) ?_
      rw [ended]
      rintro (confirmed | confirmed) <;> cases confirmed

end OneRun

theorem written_ok {α : Type} {outcome : Outcome α} {next : Tx}
    (h : written outcome = .ok next) : ∃ result, outcome = .ok result ∧ result.2 = next := by
  cases outcome with
  | error e => cases h
  | ok result => exact ⟨result, rfl, Except.ok.inj h⟩

/-- A reservation that commits: the row under its digest carries the intent. -/
structure Reserved (store : Store) (id : RunId) (intent : InputPublicationIntent)
    (tx next : Tx) (c : InputBundleCandidate) : Prop where
  valid : validateReference store id intent.reference = .ok ()
  candidates : next.run.candidates = tx.run.candidates.put intent.reference.digest c
  reference : c.reference = intent.reference.toJson
  input : c.input = intent.input
  context : c.publishContext = intent.publishContext
  fresh : c.status = .reserved ∨ tx.run.candidates.row intent.reference.digest = some c

theorem reserve_reserved {store : Store} {id : RunId} {token : Token}
    {intent : InputPublicationIntent} {tx next : Tx} {c : InputBundleCandidate}
    (h : reserve store id token intent tx = .ok (c, next)) :
    Reserved store id intent tx next c := by
  simp only [reserve] at h
  split at h
  · cases h
  · cases h
  · next valid _ =>
    split at h
    · cases h
    · split at h
      · cases h
        exact ⟨valid, rfl, rfl, rfl, rfl, .inl rfl⟩
      · next old found =>
        split at h
        · next same =>
          simp only [Bool.and_eq_true, decide_eq_true_eq] at same
          cases h
          refine ⟨valid, rfl, ?_, ?_, ?_, ?_⟩
          · split <;> exact same.1.1
          · split <;> exact same.1.2
          · split <;> exact same.2
          · split
            · exact .inl rfl
            · exact .inr found
        · cases h

/-- A settlement that commits: the row keeps its documents. -/
structure Settled (digest : Digest) (settlement : Settlement) (tx next : Tx)
    (c answer : InputBundleCandidate) : Prop where
  found : tx.run.candidates.row digest = some c
  candidates : next.run.candidates = tx.run.candidates.put digest answer
  reference : answer.reference = c.reference
  status : answer.status = settlement.status

theorem settle_settled {store : Store} {id : RunId} {token : Token} {digest : Digest}
    {settlement : Settlement} {tx next : Tx} {answer : InputBundleCandidate}
    (h : settle store id token digest settlement tx = .ok (answer, next)) :
    ∃ c, Settled digest settlement tx next c answer := by
  simp only [settle] at h
  split at h
  · cases h
  · split at h
    · cases h
    · next c found =>
      split at h
      · cases h
        exact ⟨c, found, rfl, rfl, rfl⟩
      · cases h

/-- What an action needs in order to keep a run sound: a reservation is checked
with the URLs of the runtime, and a confirmed object is there. -/
def Fine (runtime : Runtime Body) (objects : Objects Body) (store : Store) (run : Run) :
    RunAction → Prop
  | .reserveCandidate _ _ => ∃ service : Service, store = service.store runtime
  | .settleCandidate _ digest .present => ∀ c, run.candidates.row digest = some c →
    ∀ reference, c.reference = InputBundleReference.toJson reference →
      Published runtime objects reference
  | _ => True

theorem runSound_saved {objects : Objects Body} {id : RunId} {context input : Json}
    {tx next : Tx} {digest : Digest} {c : InputBundleCandidate}
    (sound : RunSound runtime objects id tx.run) (saved : Saved context input tx next digest c)
    (confirmed : c.status = .present ∨ c.status = .selected) :
    RunSound runtime objects id next.run := by
  have selected : RunSound runtime objects id { tx.run with
      candidates := tx.run.candidates.put digest
        (SubmissionTransitionStore.selectCandidate tx.now c) } := by
    apply runSound_put sound rfl
    exact (sound digest c saved.found).of_same rfl fun _ => confirmed
  exact runSound_withdrawn selected (.inr saved.candidates)

theorem runSound_result {objects : Objects Body} {store : Store} {id : RunId}
    {action : RunAction} {tx : Tx} (fine : Fine runtime objects store tx.run action)
    (sound : RunSound runtime objects id tx.run) :
    RunSound runtime objects id (action.result store id tx).run := by
  unfold RunAction.result
  split
  · next next performed =>
    cases action
    case reserveCandidate token intent =>
      obtain ⟨service, rfl⟩ := fine
      obtain ⟨⟨c, _⟩, reserved, rfl⟩ := written_ok performed
      have made := reserve_reserved reserved
      apply runSound_put sound made.candidates
      rcases made.fresh with fresh | old
      · refine ⟨intent.reference, made.reference, rfl, ⟨service, made.valid⟩, ?_⟩
        rw [fresh]
        rintro (confirmed | confirmed) <;> cases confirmed
      · exact sound _ c old
    case settleCandidate token digest settlement =>
      obtain ⟨⟨answer, _⟩, settled, rfl⟩ := written_ok performed
      obtain ⟨c, made⟩ := settle_settled settled
      apply runSound_put sound made.candidates
      obtain ⟨reference, same, named, accepted, -⟩ := sound digest c made.found
      refine ⟨reference, made.reference.trans same, named, accepted, ?_⟩
      intro confirmed
      cases settlement with
      | present => exact fine c made.found reference same
      | abandoned =>
        rw [made.status] at confirmed
        rcases confirmed with confirmed | confirmed <;> cases confirmed
    case savePreparedSubmission token context input =>
      obtain ⟨digest, c, saved, -, confirmed⟩ := savePreparedSubmission_confirmed performed
      exact runSound_saved sound saved confirmed
    all_goals exact runSound_withdrawn sound (perform_withdrawn rfl performed)
  · exact sound

/-- One operation on the database. -/
theorem runsSound_execute {objects : Objects Body} {db : Database} {call : Call}
    (fine : ∀ id run action, db.runs.row id = some run → actionOn call db id = some action →
      Fine runtime objects call.1 run action)
    (sound : RunsSound runtime objects db) :
    RunsSound runtime objects (call.2.execute call.1 db) := by
  intro id run' row'
  cases row : db.runs.row id with
  | none =>
    rcases execute_absent call row with absent | ⟨args, new, -⟩
    · simp [absent] at row'
    · obtain rfl := Option.some.inj (row'.symm.trans new)
      intro digest c found
      simp [AdmissionStore.insertWith, AdmissionStore.insertedRun, appendEvent] at found
  | some run =>
    obtain ⟨tx, sees, next, -⟩ := execute_existing call row
    obtain rfl := Option.some.inj (row'.symm.trans next)
    have before : RunSound runtime objects id tx.run := sees.run ▸ sound id run row
    cases acts : actionOn call db id with
    | none => exact before
    | some action =>
      have allowed : Fine runtime objects call.1 tx.run action :=
        sees.run ▸ fine id run action row acts
      exact runSound_result allowed before

/-- Runs stay, with their candidates, and with their input once it is saved. -/
def Kept (db next : Database) : Prop :=
  ∀ id run, db.runs.row id = some run → ∃ run', next.runs.row id = some run' ∧
    CandidatesKept run.candidates run'.candidates ∧
    (run.execution.input ≠ none → run'.execution.input = run.execution.input)

theorem kept_refl (db : Database) : Kept db db :=
  fun _ run row => ⟨run, row, candidatesKept_refl _, fun _ => rfl⟩

theorem Kept.trans {a b c : Database} (h : Kept a b) (h' : Kept b c) : Kept a c := by
  intro id run row
  obtain ⟨mid, row', candidates, input⟩ := h id run row
  obtain ⟨last, row'', candidates', input'⟩ := h' id mid row'
  exact ⟨last, row'', candidates.trans candidates', kept_trans input input'⟩

theorem kept_step {db : Database} (reachable : coordination.Reachable db) (call : Call) :
    Kept db (coordination.step db call) := by
  intro id run row
  obtain ⟨next, row', kept⟩ := runKept_step reachable call row
  obtain ⟨again, row'', candidates⟩ := candidatesKept_run row [call]
  obtain rfl := Option.some.inj (row'.symm.trans row'')
  exact ⟨next, row', candidates, kept.input⟩

/-- The run has a candidate with this reference. -/
def Referenced (db : Database) (id : RunId) (digest : Digest) (reference : Json) : Prop :=
  ∃ run c, db.runs.row id = some run ∧ run.candidates.row digest = some c ∧
    c.reference = reference

theorem Referenced.kept {db next : Database} (h : Kept db next) {id : RunId} {digest : Digest}
    {reference : Json} (referenced : Referenced db id digest reference) :
    Referenced next id digest reference := by
  obtain ⟨run, c, row, found, same⟩ := referenced
  obtain ⟨run', row', candidates, -⟩ := h id run row
  obtain ⟨c', found', same', -⟩ := candidates digest c found
  exact ⟨run', c', row', found', same'.trans same⟩

/-- The selected candidate of the run carries this input. -/
def SelectedInput (db : Database) (id : RunId) (input : Json) : Prop :=
  ∃ run digest c, db.runs.row id = some run ∧ run.candidates.row digest = some c ∧
    c.status = .selected ∧ c.input = input ∧
    c.reference = (input.member "input_bundle").getD .null

theorem SelectedInput.kept {db next : Database} (h : Kept db next) {id : RunId} {input : Json}
    (selected : SelectedInput db id input) : SelectedInput next id input := by
  obtain ⟨run, digest, c, row, found, chosen, same, reference⟩ := selected
  obtain ⟨run', row', candidates, -⟩ := h id run row
  obtain ⟨c', found', -, -, -, stays⟩ := candidates digest c found
  obtain rfl := stays chosen
  exact ⟨run', digest, c', row', found', chosen, same, reference⟩

def SavedInput (db : Database) (id : RunId) (input : Json) : Prop :=
  ∃ run, db.runs.row id = some run ∧ run.execution.input = some input

theorem SavedInput.kept {db next : Database} (h : Kept db next) {id : RunId} {input : Json}
    (saved : SavedInput db id input) : SavedInput next id input := by
  obtain ⟨run, row, same⟩ := saved
  obtain ⟨run', row', -, stays⟩ := h id run row
  exact ⟨run', row', (stays (by simp [same])).trans same⟩

theorem SelectedInput.saved {db : Database} (reachable : coordination.Reachable db) {id : RunId}
    {input : Json} (h : SelectedInput db id input) : SavedInput db id input := by
  obtain ⟨run, digest, c, row, found, selected, rfl, -⟩ := h
  exact ⟨run, row, selectedSaved_reachable reachable id run row digest c found selected⟩

/-- A transaction that answers has committed, and its row is what it wrote. -/
theorem transaction_committed {α : Type} {store : Store} {id : RunId} {e : StoreError}
    {body : Tx → Outcome α} (action : RunAction)
    (performs : ∀ tx, action.perform store id tx = written (body tx)) {db : Database} {answer : α}
    (h : (transaction store id (.error e) body db).1 = .ok answer) :
    ∃ run next, db.runs.row id = some run ∧ body (begin db run) = .ok (answer, next) ∧
      ((Operation.onRun id action).execute store db).runs.row id = some next.run := by
  simp only [transaction] at h
  split at h
  · cases h
  · next run visible =>
    split at h
    · cases h
    · next result next ran =>
      cases h
      refine ⟨run, next, (find_some visible).1, ran, ?_⟩
      have performed : action.perform store id (begin db run) = .ok next := by
        rw [performs, ran]
        rfl
      simp [Operation.execute, visible, performed, commit]

/-- The input a prepared submission is sending. -/
def preparedInput : Submissions.Work → Option Json
  | .prepared _ _ input (.submitting _) => some input
  | _ => none

/-- The input a recovery has read. -/
def recoveryInput : Submissions.Work → Option Json
  | .recovery input _ => input
  | _ => none

structure TaskSound (db : Database) (task : Task) : Prop where
  prepared : ∀ input, preparedInput task.work = some input → SelectedInput db task.runId input
  recovery : ∀ input, recoveryInput task.work = some input → SavedInput db task.runId input

theorem TaskSound.kept {db next : Database} (h : Kept db next) {task : Task}
    (sound : TaskSound db task) : TaskSound next task :=
  ⟨fun input sending => (sound.prepared input sending).kept h,
    fun input read => (sound.recovery input read).kept h⟩

theorem preparedInput_withSubmit (submit : Submissions.Submit) (work : Submissions.Work) :
    preparedInput (work.withSubmit submit) = preparedInput work ∧
      recoveryInput (work.withSubmit submit) = recoveryInput work := by
  cases work with
  | prepared token context input phase => cases phase <;> exact ⟨rfl, rfl⟩
  | recovery input phase => cases phase <;> exact ⟨rfl, rfl⟩

theorem preparedInput_afterSubmit (result : Submissions.SubmitResult) (work : Submissions.Work) :
    (∀ input, preparedInput (work.afterSubmit result) = some input →
      preparedInput work = some input) ∧
      recoveryInput (work.afterSubmit result) = recoveryInput work := by
  cases work with
  | prepared token context input phase =>
    cases phase with
    | submitting submit =>
      refine ⟨?_, rfl⟩
      intro input sending
      cases result with
      | again attempt => exact sending
      | returned => cases sending
      | threw error => cases sending
    | _ => exact ⟨fun _ sending => sending, rfl⟩
  | recovery input phase => cases phase <;> exact ⟨fun _ sending => sending, rfl⟩

/-- Only a save that was answered starts to send. -/
theorem preparedInput_afterCall {task : Task} {db : Database} {reply : Reply} {input : Json}
    (h : preparedInput (task.afterCall db reply) = some input) :
    preparedInput task.work = some input ∨ reply = .answered ∧ ∃ token context,
      task.work = .prepared token context input .saving ∧
      Submissions.saveResult task token context input db = .ok () := by
  obtain ⟨store, runId, retries, work⟩ := task
  cases work with
  | prepared token context sent phase =>
    cases phase with
    | saving =>
      right
      cases reply with
      | lost committed e => cases h
      | answered =>
        simp only [Submissions.Task.afterCall, Reply.deliver] at h
        split at h
        · next saved =>
          cases h
          exact ⟨rfl, token, context, rfl, saved⟩
        · cases h
    | submitting submit => exact .inl h
    | queueing =>
      simp only [Submissions.Task.afterCall] at h
      split at h <;> cases h
    | cleaning error retry => cases h
    | finished => cases h
  | recovery read phase => cases phase <;> cases h

theorem recoveryInput_afterCall (task : Task) (db : Database) (reply : Reply) :
    recoveryInput (task.afterCall db reply) = recoveryInput task.work := by
  obtain ⟨store, runId, retries, work⟩ := task
  cases work with
  | prepared token context sent phase => cases phase <;> rfl
  | recovery read phase => cases phase <;> rfl

theorem kept_dbAfter {w : Submissions.World} (reachable : coordination.Reachable w.db)
    (event : Submissions.Event) : Kept w.db (w.dbAfter event) := by
  unfold Submissions.World.dbAfter
  split
  · exact kept_refl w.db
  · next call _ => exact kept_step reachable call

/-- A save that answers has selected the candidate of its input. -/
theorem selectedInput_save {task : Task} {token : Token} {context input : Json} {db : Database}
    (saved : Submissions.saveResult task token context input db = .ok ()) :
    SelectedInput ((Operation.onRun task.runId
      (.savePreparedSubmission token context input)).execute task.store db) task.runId input := by
  obtain ⟨run, next, row, ran, row'⟩ :=
    transaction_committed (.savePreparedSubmission token context input) (fun _ => rfl) saved
  have performed : RunAction.perform task.store task.runId
      (.savePreparedSubmission token context input) (begin db run) = .ok next := by
    simp only [RunAction.perform, ran]
    rfl
  obtain ⟨digest, c, written, reference, -⟩ := savePreparedSubmission_confirmed performed
  exact ⟨next.run, digest, _, row', written.selected, rfl, written.sameInput, reference⟩

theorem taskSound_after {w : Submissions.World} (reachable : coordination.Reachable w.db)
    {i : Nat} {task : Task} (found : w.tasks[i]? = some task) {event : Submissions.Event}
    (here : ∀ j reply, event = .storeCall j reply → j = i) (sound : TaskSound w.db task) :
    TaskSound (w.dbAfter event) { task with work := w.taskAfter task event } := by
  have kept : TaskSound (w.dbAfter event) task := sound.kept (kept_dbAfter reachable event)
  cases event with
  | storeCall j reply =>
    obtain rfl := here j reply rfl
    refine ⟨?_, ?_⟩
    · intro input sending
      rcases preparedInput_afterCall sending with before | ⟨rfl, token, context, saving, saved⟩
      · exact kept.prepared input before
      · have committed : w.dbAfter (.storeCall j .answered) = (Operation.onRun task.runId
            (.savePreparedSubmission token context input)).execute task.store w.db := by
          simp [Submissions.World.dbAfter, Submissions.World.calls, found, Reply.commits,
            Submissions.Task.action, saving]
        rw [committed]
        exact selectedInput_save saved
    · intro input read
      rw [Submissions.World.taskAfter, recoveryInput_afterCall] at read
      exact kept.recovery input read
  | send j =>
    simp only [Submissions.World.taskAfter]
    split
    · refine ⟨fun input sending => kept.prepared input ?_, fun input read => kept.recovery input ?_⟩
      · exact (preparedInput_withSubmit _ _).1 ▸ sending
      · exact (preparedInput_withSubmit _ _).2 ▸ read
    · exact kept
  | receive j answer =>
    simp only [Submissions.World.taskAfter]
    split
    · split
      · exact kept
      · split
        · exact kept
        · next result _ =>
          refine ⟨fun input sending => kept.prepared input ?_,
            fun input read => kept.recovery input ?_⟩
          · exact (preparedInput_afterSubmit result task.work).1 input sending
          · exact (preparedInput_afterSubmit result task.work).2 ▸ read
    · exact kept
  | crash j =>
    refine ⟨?_, fun input read => kept.recovery input ?_⟩
    · intro input sending
      simp only [Submissions.World.taskAfter] at sending
      cases crashed : task.work <;> simp [crashed, Submissions.Work.crashed, preparedInput] at sending
    · simp only [Submissions.World.taskAfter] at read
      cases work : task.work with
      | prepared token context sent phase => simp [work, Submissions.Work.crashed, recoveryInput] at read
      | recovery given phase => simpa [work, Submissions.Work.crashed, recoveryInput] using read
  | _ => exact kept

/-- A step of the saga. A recovery that starts has read the input of its run. -/
theorem tasksSound_step {w : Submissions.World} (reachable : coordination.Reachable w.db)
    (event : Submissions.Event)
    (reads : ∀ store runId retries input,
      event = .recoverReviewRunSubmission store runId retries (some input) →
      SavedInput w.db runId input)
    (sound : ∀ task ∈ w.tasks, TaskSound w.db task) :
    ∀ task ∈ (w.step event).tasks, TaskSound (w.step event).db task := by
  intro task mem
  have kept : ∀ task ∈ w.tasks, TaskSound (w.dbAfter event) task :=
    fun task mem => (sound task mem).kept (kept_dbAfter reachable event)
  have changed : ∀ i, task ∈ w.setWork i event →
      (∀ j reply, event = .storeCall j reply → j = i) → TaskSound (w.dbAfter event) task := by
    intro i mem here
    rcases SubmissionBoundary.mem_setWork mem with old | ⟨before, found, rfl⟩
    · exact kept task old
    · exact taskSound_after reachable found here (sound before (List.mem_of_getElem? found))
  cases event with
  | storeCall i reply => exact changed i mem (by rintro j r ⟨⟩; rfl)
  | send i => exact changed i mem (by rintro j r ⟨⟩)
  | receive i answer => exact changed i mem (by rintro j r ⟨⟩)
  | crash i => exact changed i mem (by rintro j r ⟨⟩)
  | submitPreparedRun store runId retries token context input =>
    simp only [Submissions.World.step, Submissions.World.tasksAfter] at mem
    split at mem
    · rcases List.mem_append.mp mem with old | new
      · exact kept task old
      · obtain rfl := List.mem_singleton.mp new
        exact ⟨by rintro _ ⟨⟩, by rintro _ ⟨⟩⟩
    · exact kept task mem
  | recoverReviewRunSubmission store runId retries input =>
    rcases List.mem_append.mp mem with old | new
    · exact kept task old
    · obtain rfl := List.mem_singleton.mp new
      refine ⟨by rintro _ ⟨⟩, ?_⟩
      rintro read ⟨⟩
      exact (reads store runId retries read rfl).kept (kept_dbAfter reachable _)
  | _ => exact kept task mem

end PublishedCandidates
