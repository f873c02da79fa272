import SecReviewBot.ReviewRuns.SchemaConstraints
import SecReviewBot.ReviewRuns.TerminalStates

/-!
# One input for a run

Candidates move between reserved, present and abandoned under successive
preparation owners. Their documents never change, and the one that is selected
never changes again: selecting it writes its input to the execution row in the
same transaction, and that column is written once.
-/

namespace InputCandidates

open JsonValues KeyedTables ReviewRunsSchema ReviewRunsTransactions Coordination Statements
open RowEffects TransitionSystems SchemaConstraints TerminalStates

/-- Every candidate stays with its documents, and a selected one as it is. -/
def CandidatesKept (cs next : Table Digest InputBundleCandidate) : Prop :=
  ∀ digest c, cs.row digest = some c → ∃ c', next.row digest = some c' ∧
    c'.reference = c.reference ∧ c'.input = c.input ∧ c'.publishContext = c.publishContext ∧
    (c.status = .selected → c' = c)

theorem candidatesKept_refl (cs : Table Digest InputBundleCandidate) : CandidatesKept cs cs :=
  fun _ c row => ⟨c, row, rfl, rfl, rfl, fun _ => rfl⟩

theorem CandidatesKept.trans {a b c : Table Digest InputBundleCandidate}
    (h : CandidatesKept a b) (h' : CandidatesKept b c) : CandidatesKept a c := by
  intro digest x row
  obtain ⟨y, row', reference, input, context, kept⟩ := h digest x row
  obtain ⟨z, row'', reference', input', context', kept'⟩ := h' digest y row'
  refine ⟨z, row'', reference'.trans reference, input'.trans input, context'.trans context, ?_⟩
  intro selected
  have same : y = x := kept selected
  subst same
  exact kept' selected

/-- A row is replaced by one with the same documents. -/
theorem candidatesKept_put {cs : Table Digest InputBundleCandidate} {digest : Digest}
    {c c' : InputBundleCandidate} (found : cs.row digest = some c)
    (reference : c'.reference = c.reference) (input : c'.input = c.input)
    (context : c'.publishContext = c.publishContext) (kept : c.status = .selected → c' = c) :
    CandidatesKept cs (cs.put digest c') := by
  intro d x row
  by_cases same : d = digest
  · subst same
    obtain rfl := Option.some.inj (found.symm.trans row)
    exact ⟨c', by simp, reference, input, context, kept⟩
  · exact ⟨x, by simp [same, row], rfl, rfl, rfl, fun _ => rfl⟩

theorem selectCandidate_selected {c : InputBundleCandidate} (selected : c.status = .selected)
    (now : Timestamp) : SubmissionTransitionStore.selectCandidate now c = c := by
  obtain ⟨⟩ := c
  cases selected
  simp [SubmissionTransitionStore.selectCandidate]

theorem abandonCandidate_settled {c : InputBundleCandidate}
    (settled : c.status = .selected ∨ c.status = .abandoned) (now : Timestamp) :
    abandonCandidate now c = c := by
  unfold abandonCandidate
  rcases settled with settled | settled <;> simp [settled]

theorem abandonCandidate_cases (now : Timestamp) (c : InputBundleCandidate) :
    abandonCandidate now c = c ∨ (c.status = .reserved ∨ c.status = .present) ∧
      abandonCandidate now c = { c with status := .abandoned, updatedAt := now } := by
  unfold abandonCandidate
  split
  · next unfinished => exact .inr ⟨by simpa using unfinished, rfl⟩
  · exact .inl rfl

theorem candidatesKept_abandon (cs : Table Digest InputBundleCandidate) (now : Timestamp) :
    CandidatesKept cs (cs.mapRows (abandonCandidate now)) := by
  intro digest c row
  refine ⟨abandonCandidate now c, by simp [row], ?_⟩
  have kept : c.status = .selected → abandonCandidate now c = c :=
    fun selected => abandonCandidate_settled (.inl selected) now
  rcases abandonCandidate_cases now c with same | ⟨-, abandoned⟩
  · rw [same]
    exact ⟨rfl, rfl, rfl, fun _ => rfl⟩
  · refine ⟨?_, ?_, ?_, kept⟩ <;> rw [abandoned]

theorem candidatesKept_of_write {saving : Prop} {now : Timestamp}
    {cs next : Table Digest InputBundleCandidate} (write : CandidatesWrite saving now cs next) :
    CandidatesKept cs next := by
  cases write with
  | insert digest c absent reserved checks =>
    intro d x row
    have differs : d ≠ digest := by
      rintro rfl
      simp [absent] at row
    exact ⟨x, by simp [differs, row], rfl, rfl, rfl, fun _ => rfl⟩
  | reserveAgain digest c found =>
    apply candidatesKept_put found
    · split <;> rfl
    · split <;> rfl
    · split <;> rfl
    · intro selected
      simp [selected]
  | settle digest c settlement found unselected =>
    exact candidatesKept_put found rfl rfl rfl fun selected => absurd selected unselected
  | select digest c found alone saves =>
    exact candidatesKept_put found rfl rfl rfl fun selected => selectCandidate_selected selected now
  | abandon => exact candidatesKept_abandon cs now

theorem candidatesKept_of_sequence {action : RunAction} {origin tx : Tx}
    (h : Sequence action origin tx) :
    CandidatesKept origin.run.candidates tx.run.candidates := by
  induction h with
  | start => exact candidatesKept_refl _
  | next h s ih =>
    cases s with
    | candidates f write => exact ih.trans (candidatesKept_of_write write)
    | notice sourceEventId kind axis reasonCode known =>
      simp only [queueRunNotice]
      split <;> exact ih
    | _ => exact ih

/-- Outside the saving transaction no candidate becomes selected. -/
theorem selected_of_write {saving : Prop} (other : ¬ saving) {now : Timestamp}
    {cs next : Table Digest InputBundleCandidate} (write : CandidatesWrite saving now cs next)
    {digest : Digest} {c : InputBundleCandidate} (row : next.row digest = some c)
    (selected : c.status = .selected) : cs.row digest = some c := by
  cases write with
  | insert d c' absent reserved checks =>
    rcases Table.put_row_cases row with ⟨rfl, rfl⟩ | ⟨-, old⟩
    · simp [reserved] at selected
    · exact old
  | reserveAgain d c' found =>
    rcases Table.put_row_cases row with ⟨rfl, rfl⟩ | ⟨-, old⟩
    · split at selected
      · cases selected
      · next kept =>
        rw [if_neg kept]
        exact found
    · exact old
  | settle d c' settlement found unselected =>
    rcases Table.put_row_cases row with ⟨rfl, rfl⟩ | ⟨-, old⟩
    · cases settlement <;> cases selected
    · exact old
  | select d c' found alone saves => exact absurd saves other
  | abandon =>
    obtain ⟨c', old, rfl⟩ := Option.map_eq_some_iff.mp row
    rcases abandonCandidate_cases now c' with same | ⟨-, abandoned⟩
    · rw [same]
      exact old
    · rw [abandoned] at selected
      cases selected

/-- The selected candidate carries the input of the execution. -/
def SelectedSaved (run : Run) : Prop :=
  ∀ digest c, run.candidates.row digest = some c → c.status = .selected →
    run.execution.input = some c.input

theorem selectedSaved_of_sequence {action : RunAction} (other : ¬ Saves action) {origin tx : Tx}
    (h : Sequence action origin tx) (saved : SelectedSaved origin.run) :
    SelectedSaved tx.run := by
  induction h with
  | start => exact saved
  | next h s ih =>
    cases s with
    | execution f write =>
      intro digest c row selected
      have input := ih digest c row selected
      exact (inputKept_of_write write (by simp [input])).trans input
    | candidates f write =>
      exact fun digest c row selected =>
        ih digest c (selected_of_write other write row selected) selected
    | notice sourceEventId kind axis reasonCode known =>
      simp only [queueRunNotice]
      split <;> exact ih
    | _ => exact ih

/-- What a saving transaction that commits found and wrote. -/
structure Saved (context input : Json) (tx next : Tx) (digest : Digest)
    (c : InputBundleCandidate) : Prop where
  found : tx.run.candidates.row digest = some c
  sameInput : c.input = input
  sameContext : c.publishContext = context
  alone : ∀ other o, tx.run.candidates.row other = some o → other ≠ digest → o.status ≠ .selected
  candidates : next.run.candidates =
    (tx.run.candidates.put digest (SubmissionTransitionStore.selectCandidate tx.now c)).mapRows
      (abandonCandidate tx.now)
  input : next.run.execution.input = some input

/-- The candidate it selects is the one its input names, and was confirmed. -/
theorem savePreparedSubmission_confirmed {store : Store} {id : RunId} {token : Token}
    {context input : Json} {tx next : Tx}
    (h : RunAction.perform store id (.savePreparedSubmission token context input) tx = .ok next) :
    ∃ digest c, Saved context input tx next digest c ∧
      c.reference = (input.member "input_bundle").getD .null ∧
      (c.status = .present ∨ c.status = .selected) := by
  simp only [RunAction.perform, SubmissionTransitionStore.savePreparedSubmission] at h
  split at h
  · cases h
  · split at h
    · next digest matched =>
      have member : digest ∈ tx.run.candidates.keys.filter fun digest =>
          (tx.run.candidates.row digest).any
            (SubmissionTransitionStore.selectable tx context input digest) := by
        rw [matched]
        exact List.mem_singleton_self digest
      simp only [List.mem_filter, Option.any_eq_true] at member
      obtain ⟨-, c, found, selectable⟩ := member
      split at h
      · cases h
        simp only [SubmissionTransitionStore.selectable, Bool.and_eq_true, Bool.not_eq_true',
          List.any_eq_false, Bool.or_eq_true, decide_eq_true_eq, not_and] at selectable
        obtain ⟨⟨⟨⟨reference, sameInput⟩, sameContext⟩, confirmed⟩, alone⟩ := selectable
        refine ⟨digest, c, ⟨found, sameInput, sameContext, ?_, ?_, rfl⟩, reference, confirmed⟩
        · intro other o row differs selected
          exact alone other (Table.mem_keys_of_row row) differs (by simp [row, selected])
        · simp [abandonCandidates, found]
      · cases h
    · cases h

theorem savePreparedSubmission_saved {store : Store} {id : RunId} {token : Token}
    {context input : Json} {tx next : Tx}
    (h : RunAction.perform store id (.savePreparedSubmission token context input) tx = .ok next) :
    ∃ digest c, Saved context input tx next digest c := by
  obtain ⟨digest, c, saved, -⟩ := savePreparedSubmission_confirmed h
  exact ⟨digest, c, saved⟩

section Saving

variable {context input : Json} {tx next : Tx} {digest : Digest} {c : InputBundleCandidate}
  (h : Saved context input tx next digest c)
include h

/-- The chosen candidate is the selected one afterwards. -/
theorem Saved.selected :
    next.run.candidates.row digest = some (SubmissionTransitionStore.selectCandidate tx.now c) := by
  rw [h.candidates]
  simp [abandonCandidate_settled, SubmissionTransitionStore.selectCandidate]

theorem Saved.selectedSaved : SelectedSaved next.run := by
  intro d found row selected
  rw [h.candidates] at row
  obtain ⟨before, put, rfl⟩ := Option.map_eq_some_iff.mp row
  rw [h.input]
  have still : before.status = .selected := by
    rcases abandonCandidate_cases tx.now before with same | ⟨-, abandoned⟩
    · exact same ▸ selected
    · rw [abandoned] at selected
      cases selected
  rw [abandonCandidate_settled (.inl still)]
  rcases Table.put_row_cases put with ⟨rfl, rfl⟩ | ⟨differs, old⟩
  · exact congrArg some h.sameInput.symm
  · exact absurd still (h.alone d before old differs)

/-- A candidate that was selected before is the one chosen. -/
theorem Saved.chosen {d : Digest} {o : InputBundleCandidate}
    (row : tx.run.candidates.row d = some o) (selected : o.status = .selected) :
    d = digest ∧ o = c := by
  have same : d = digest := by
    by_contra differs
    exact h.alone d o row differs selected
  subst same
  exact ⟨rfl, Option.some.inj (row.symm.trans h.found)⟩

end Saving

theorem selectedSaved_reachable {db : Database} (reachable : coordination.Reachable db) :
    Everywhere (fun tx => SelectedSaved tx.run) db := by
  refine everywhere_reachable ?_ ?_ ?_ reachable
  · intro tx next saved run _ _ _
    exact run ▸ saved
  · intro store args db digest c row
    simp [AdmissionStore.insertWith, AdmissionStore.insertedRun, appendEvent] at row
  · intro store id action tx saved
    by_cases saves : Saves action
    · obtain ⟨token, context, input, rfl⟩ := saves
      unfold RunAction.result
      split
      · next committed =>
        obtain ⟨digest, c, written⟩ := savePreparedSubmission_saved committed
        exact written.selectedSaved
      · exact saved
    · exact selectedSaved_of_sequence saves (result_statements store id action tx) saved

theorem candidatesKept_run {db : Database} {id : RunId} {run : Run}
    (row : db.runs.row id = some run) (calls : List Call) :
    ∃ next, (coordination.runFrom db calls).runs.row id = some next ∧
      CandidatesKept run.candidates next.candidates := by
  induction calls generalizing db run with
  | nil => exact ⟨run, row, candidatesKept_refl _⟩
  | cons call rest ih =>
    obtain ⟨tx, sees, row', -⟩ := execute_existing call row
    obtain ⟨_, sequence⟩ := resultOf_statements call.1 id tx (actionOn call db id)
    have kept := candidatesKept_of_sequence sequence
    rw [sees.run] at kept
    obtain ⟨next, last, kept'⟩ := ih row'
    exact ⟨next, last, kept.trans kept'⟩

/-- Nothing but candidates without an outcome moved, and only to abandoned. -/
def OnlyAbandons (now : Timestamp) (cs next : Table Digest InputBundleCandidate) : Prop :=
  ∀ digest, next.row digest = cs.row digest ∨
    ∃ c, cs.row digest = some c ∧ (c.status = .reserved ∨ c.status = .present) ∧
      next.row digest = some { c with status := .abandoned, updatedAt := now }

theorem onlyAbandons_of_saved {context input : Json} {tx next : Tx} {digest : Digest}
    {c : InputBundleCandidate} (h : Saved context input tx next digest c)
    (selected : c.status = .selected) :
    OnlyAbandons tx.now tx.run.candidates next.run.candidates := by
  intro d
  have same : (tx.run.candidates.put digest
      (SubmissionTransitionStore.selectCandidate tx.now c)).row d = tx.run.candidates.row d := by
    rw [selectCandidate_selected selected]
    by_cases here : d = digest
    · subst here
      simp [h.found]
    · simp [here]
  rw [h.candidates, Table.mapRows_row, same]
  cases row : tx.run.candidates.row d with
  | none => exact .inl rfl
  | some o =>
    rcases abandonCandidate_cases tx.now o with kept | ⟨unfinished, abandoned⟩
    · exact .inl (by simp [kept])
    · exact .inr ⟨o, rfl, unfinished, by simp [abandoned]⟩

theorem save_again {db : Database} {id : RunId} {run : Run} (row : db.runs.row id = some run)
    (saved : SelectedSaved run) {digest : Digest} {c : InputBundleCandidate}
    (found : run.candidates.row digest = some c) (selected : c.status = .selected)
    (store : Store) (token : Token) :
    ∃ next, (coordination.step db (store, .onRun id
        (.savePreparedSubmission token c.publishContext c.input))).runs.row id = some next ∧
      next.execution.input = run.execution.input ∧
      OnlyAbandons db.clock run.candidates next.candidates := by
  have unmoved : run.execution.input = run.execution.input ∧
      OnlyAbandons db.clock run.candidates run.candidates := ⟨rfl, fun _ => .inl rfl⟩
  simp only [coordination, Operation.execute]
  split
  · exact ⟨run, row, unmoved⟩
  · next reads visible =>
    obtain rfl := Option.some.inj ((find_some visible).1.symm.trans row)
    split
    · exact ⟨_, row, unmoved⟩
    · next next committed =>
      obtain ⟨d, o, written⟩ := savePreparedSubmission_saved committed
      obtain ⟨-, rfl⟩ := written.chosen found selected
      refine ⟨next.run, by simp [commit], ?_, onlyAbandons_of_saved written selected⟩
      rw [written.input]
      exact (saved digest _ found selected).symm

theorem save_other {db : Database} {id : RunId} {run : Run} {digest : Digest}
    {c : InputBundleCandidate} (found : run.candidates.row digest = some c)
    (selected : c.status = .selected) (store : Store) (token : Token) {context input : Json}
    (differs : ¬ (c.input = input ∧ c.publishContext = context)) :
    ∃ e, RunAction.perform store id (.savePreparedSubmission token context input)
      (begin db run) = .error e := by
  cases performed : RunAction.perform store id (.savePreparedSubmission token context input)
      (begin db run) with
  | error e => exact ⟨e, rfl⟩
  | ok next =>
    obtain ⟨d, o, written⟩ := savePreparedSubmission_saved performed
    obtain ⟨-, rfl⟩ := written.chosen found selected
    exact absurd ⟨written.sameInput, written.sameContext⟩ differs

/-- In every reachable database and for every run: one candidate at most is
selected and the execution has its input; whatever follows, candidates keep
their documents and the selected one stays as it is; saving selects what it
saves. From then on saving the same again leaves the selected candidate and the
execution's input alone and can only abandon candidates that have no outcome,
and saving anything else throws and writes nothing. -/
theorem one_input_for_a_run {db : Database} (reachable : coordination.Reachable db)
    {id : RunId} {run : Run} (row : db.runs.row id = some run) :
    (∀ digest other c o, run.candidates.row digest = some c →
      run.candidates.row other = some o → c.status = .selected → o.status = .selected →
      digest = other) ∧
    (∀ digest c, run.candidates.row digest = some c → c.status = .selected →
      run.execution.input = some c.input) ∧
    (∀ calls, ∃ next, (coordination.runFrom db calls).runs.row id = some next ∧
      CandidatesKept run.candidates next.candidates) ∧
    (∀ store token context input next,
      RunAction.perform store id (.savePreparedSubmission token context input)
        (begin db run) = .ok next →
      ∃ digest c, next.run.candidates.row digest = some c ∧ c.status = .selected ∧
        c.input = input ∧ c.publishContext = context) ∧
    ∀ digest c, run.candidates.row digest = some c → c.status = .selected →
      ∀ store token context input,
      (c.input = input ∧ c.publishContext = context →
        ∃ next, (coordination.step db (store, .onRun id
            (.savePreparedSubmission token context input))).runs.row id = some next ∧
          next.execution.input = run.execution.input ∧
          OnlyAbandons db.clock run.candidates next.candidates) ∧
      (¬ (c.input = input ∧ c.publishContext = context) →
        (∃ e, RunAction.perform store id (.savePreparedSubmission token context input)
          (begin db run) = .error e) ∧
        coordination.step db (store, .onRun id
          (.savePreparedSubmission token context input)) = db) := by
  have saved : SelectedSaved run := selectedSaved_reachable reachable id run row
  have checks : CandidatesChecks run.candidates :=
    (constrained_reachable reachable id run row).candidates
  refine ⟨checks.oneSelected, saved, candidatesKept_run row, ?_, ?_⟩
  · intro store token context input next committed
    obtain ⟨digest, c, written⟩ := savePreparedSubmission_saved committed
    exact ⟨digest, _, written.selected, rfl, written.sameInput, written.sameContext⟩
  · intro digest c found selected store token context input
    refine ⟨?_, fun differs => ⟨save_other found selected store token differs, ?_⟩⟩
    · rintro ⟨rfl, rfl⟩
      exact save_again row saved found selected store token
    · simp only [coordination, Operation.execute]
      split
      · rfl
      · next reads visible =>
        obtain rfl := Option.some.inj ((find_some visible).1.symm.trans row)
        obtain ⟨e, throws⟩ : ∃ e, RunAction.perform store id
            (.savePreparedSubmission token context input) (begin db reads) = .error e :=
          save_other found selected store token differs
        simp only [throws]

def secondDigest : Digest :=
  "sha256:fedcba9876543210fedcba9876543210fedcba9876543210fedcba9876543210"

def intentFor (digest : Digest) : InputBundleCandidateStore.InputPublicationIntent where
  reference := bundle digest
  input := .obj [("input_bundle", (bundle digest).toJson)]
  publishContext := .obj []

def saveFirst : RunAction :=
  .savePreparedSubmission 0 (.obj []) (intentFor firstDigest).input

/-- Under one live claim the first candidate is selected and then a second one
is reserved. -/
def toReservedAfterSave : List Operation :=
  .create issueRun :: onRun1
    [.reserveCandidate 0 (intentFor firstDigest), .settleCandidate 0 firstDigest .present,
      saveFirst, .reserveCandidate 0 (intentFor secondDigest)]

def candidateStatus (db : Database) (digest : Digest) : Option CandidateStatus :=
  (db.runs.row "run-1").bind fun run => (run.candidates.row digest).map (·.status)

/-- Replaying the save abandons the second candidate. -/
theorem replayed_save_abandons_reservation :
    candidateStatus (coordination.run (byDefault toReservedAfterSave)) firstDigest
        = some .selected ∧
    candidateStatus (coordination.run (byDefault toReservedAfterSave)) secondDigest
        = some .reserved ∧
    candidateStatus (coordination.step (coordination.run (byDefault toReservedAfterSave))
        (defaultStore, .onRun "run-1" saveFirst)) secondDigest = some .abandoned := by
  decide

theorem replayed_save_keeps_input : ∃ run next,
    (coordination.run (byDefault toReservedAfterSave)).runs.row "run-1" = some run ∧
    (coordination.step (coordination.run (byDefault toReservedAfterSave))
        (defaultStore, .onRun "run-1" saveFirst)).runs.row "run-1" = some next ∧
    next.execution.input = run.execution.input ∧
    OnlyAbandons (coordination.run (byDefault toReservedAfterSave)).clock
      run.candidates next.candidates := by
  have present : ((coordination.run (byDefault toReservedAfterSave)).runs.row "run-1").any
      (fun run => (run.candidates.row firstDigest).any fun c => c.status = .selected &&
        c.input = (intentFor firstDigest).input && c.publishContext = .obj []) = true := by
    decide
  obtain ⟨run, row, holds⟩ := (Option.any_eq_true _ _).mp present
  obtain ⟨c, found, holds⟩ := (Option.any_eq_true _ _).mp holds
  simp only [Bool.and_eq_true, decide_eq_true_eq] at holds
  obtain ⟨-, -, -, -, replays⟩ :=
    one_input_for_a_run ⟨byDefault toReservedAfterSave, rfl⟩ row
  obtain ⟨again, -⟩ := replays firstDigest c found holds.1.1 defaultStore 0 (.obj [])
    (intentFor firstDigest).input
  obtain ⟨next, row', kept⟩ := again ⟨holds.1.2, holds.2⟩
  exact ⟨run, next, row, row', kept⟩

end InputCandidates
