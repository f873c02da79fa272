import SecReviewBot.ReviewRuns.AuditLog

/-!
# `state-machines.generated.ts`

The transitions the contract declares, and which writes leave them. The
other fields of the table (`initial`, `terminal`, `states` and what the console
draws) are left out.

Three writes of a publisher make a change that is not declared: failing a
publication that is in doubt or parked, ending it at one of its steps in such a
state, and giving up on a step in doubt while the axis still says `publishing`.
-/

namespace StateMachines

open KeyedTables ReviewRunsSchema ReviewRunsTransactions Coordination
open TransitionSystems RowEffects Lifecycles LifecycleView ActionMoves CrossAxis PublicationAxis
open AuditLog

structure StateTransition where
  origin : StatusName
  target : StatusName
  reason : Option String
  deriving DecidableEq

structure StateMachine where
  axis : Axis
  transitions : List StateTransition

def preparationMachine : StateMachine where
  axis := .preparation
  transitions :=
    [⟨.pending, .preparing, none⟩,
     ⟨.preparing, .submitted, none⟩,
     ⟨.preparing, .pending, none⟩,
     ⟨.preparing, .uncertain, none⟩,
     ⟨.uncertain, .preparing, none⟩,
     ⟨.preparing, .disconnected, some "EXECUTION_ALREADY_ADVANCED"⟩,
     ⟨.disconnected, .uncertain, some "PREPARATION_RESUMED_BY_OPERATOR"⟩,
     ⟨.disconnected, .failed, some "PREPARATION_GIVEN_UP_BY_OPERATOR"⟩,
     ⟨.disconnected, .failed, some "EXECUTION_ALREADY_ADVANCED"⟩,
     ⟨.disconnected, .failed, some "PREPARATION_ABANDONED"⟩,
     ⟨.preparing, .failed, none⟩]

def executionMachine : StateMachine where
  axis := .execution
  transitions :=
    [⟨.pending, .queued, none⟩,
     ⟨.pending, .skipped, none⟩,
     ⟨.pending, .uncertain, some "SUBMISSION_STATE_UNCERTAIN"⟩,
     ⟨.uncertain, .uncertain, some "SUBMISSION_RECOVERY_CLAIMED"⟩,
     ⟨.uncertain, .queued, none⟩,
     ⟨.uncertain, .failed, none⟩,
     ⟨.uncertain, .disconnected, some "SUBMISSION_RECOVERY_EXHAUSTED"⟩,
     ⟨.disconnected, .uncertain, some "SUBMISSION_RECOVERY_RESUMED_BY_OPERATOR"⟩,
     ⟨.disconnected, .failed, some "SUBMISSION_RECOVERY_ABANDONED_BY_OPERATOR"⟩,
     ⟨.queued, .running, none⟩,
     ⟨.queued, .succeeded, none⟩,
     ⟨.running, .succeeded, none⟩,
     ⟨.queued, .failed, none⟩,
     ⟨.running, .failed, none⟩]

def publicationMachine : StateMachine where
  axis := .publication
  transitions :=
    [⟨.pending, .publishing, none⟩,
     ⟨.publishing, .uncertain, none⟩,
     ⟨.uncertain, .publishing, none⟩,
     ⟨.uncertain, .disconnected, none⟩,
     ⟨.disconnected, .pending, some "PUBLICATION_RESUMED_BY_OPERATOR"⟩,
     ⟨.disconnected, .failed, some "PUBLICATION_ABANDONED_BY_OPERATOR"⟩,
     ⟨.publishing, .published, none⟩,
     ⟨.publishing, .publishing, some "PUBLICATION_LEASE_EXPIRED"⟩,
     ⟨.publishing, .pending, none⟩,
     ⟨.publishing, .failed, none⟩,
     ⟨.pending, .skipped, none⟩,
     ⟨.publishing, .skipped, some "PUBLICATION_ABANDONED"⟩]

def stateMachines : List StateMachine :=
  [preparationMachine, executionMachine, publicationMachine]

/-- `stateMachine(axis)`. -/
def stateMachine (axis : Axis) : Option StateMachine :=
  stateMachines.find? fun machine => machine.axis = axis

/-- The reasons of the edges declared between two statuses; an edge without one
accepts any. -/
def declaredReasons (axis : Axis) (origin target : StatusName) : List (Option String) :=
  match stateMachine axis with
  | none => []
  | some machine =>
    (machine.transitions.filter fun t => t.origin = origin ∧ t.target = target).map (·.reason)

/-- A change of an axis from `origin` to `target` recorded by `new` is declared:
there is an edge, and when every such edge has a reason, the event of the change
carries one of them. -/
def Declared (axis : Axis) (origin target : StatusName) (new : List Logged) : Prop :=
  declaredReasons axis origin target ≠ [] ∧
    (none ∉ declaredReasons axis origin target →
      ∃ e ∈ new, e.axis = axis ∧ e.target = target ∧
        e.reason ∈ declaredReasons axis origin target)

theorem declared_of_open {axis : Axis} {origin target : StatusName}
    (edge : none ∈ declaredReasons axis origin target) (new : List Logged) :
    Declared axis origin target new :=
  ⟨List.ne_nil_of_mem edge, fun h => absurd edge h⟩

theorem declared_of_reason {axis : Axis} {origin target : StatusName} {reason : Option String}
    (edge : reason ∈ declaredReasons axis origin target) {new : List Logged} {e : Logged}
    (mem : e ∈ new) (he : e.axis = axis ∧ e.target = target ∧ e.reason = reason) :
    Declared axis origin target new :=
  ⟨List.ne_nil_of_mem edge, fun _ => ⟨e, mem, he.1, he.2.1, he.2.2 ▸ edge⟩⟩

/-- Every axis a move changes, it changes along a declared edge. -/
def Conforms (move : Move) (L : Lifecycle) : Prop :=
  ∀ axis, L.status axis ≠ (move.apply L).status axis →
    Declared axis (L.status axis) ((move.apply L).status axis) (appended move L)

/-- The reason declared for returning a parked publication to the queue, or for
ending it. -/
def parkedReason (retry : Bool) : String :=
  if retry then "PUBLICATION_RESUMED_BY_OPERATOR" else "PUBLICATION_ABANDONED_BY_OPERATOR"

/-- No declared edge with this reason leads out of `status`. -/
def NoWayOut (status : PublicationStatus) (retry : Bool) (code : Option String) : Prop :=
  status = .uncertain ∨ status = .disconnected ∧ code ≠ some (parkedReason retry)

/-- What leaves the declared edges, in terms of moves. -/
def Undeclared : Move → Lifecycle → Prop
  | .failPublication retry code, L => NoWayOut L.publication retry code
  | .endAtStep _ code, L => NoWayOut L.publication false code
  | .reviseStep key (.fail (some true)), L =>
    L.publication = .publishing ∧
      ∃ s, L.steps.row key = some s ∧ s.status = .uncertain ∧ 3 ≤ s.recoveries + 1
  | _, _ => False

theorem abandon_declared {L next : Lifecycle} (same : next.publication = L.publication)
    (waiting : L.publication = .pending) (new : List Logged) :
    Declared .publication L.publication.name next.abandon.publication.name new := by
  rw [Lifecycle.abandon_publication, same, waiting]
  exact declared_of_open (by decide) new

/-- A re-derivation follows the diagram unless it parks what was publishing. -/
theorem derive_declared {L next : Lifecycle} (same : next.publication = L.publication)
    (changed : L.publication ≠ next.derive.publication)
    (parked : L.publication = .disconnected → hasStep .disconnected next.steps = true)
    (unparked : L.publication = .publishing → hasStep .disconnected next.steps = false)
    (new : List Logged) :
    Declared .publication L.publication.name next.derive.publication.name new := by
  have derived : next.derive.publication = strongest next.steps ∧
      L.publication.inFlight = true := by
    rw [Lifecycle.derive_publication, same] at changed ⊢
    by_cases inFlight : L.publication.inFlight = true
    · simp [inFlight]
    · simp [inFlight] at changed
  rw [derived.1] at changed ⊢
  rcases inFlight_cases derived.2 with h | h | h
  · have strongest_eq : strongest next.steps = .uncertain := by
      rcases Lifecycle.strongest_cases next.steps with hs | hs | hs
      · exact absurd (h.trans hs.symm) changed
      · exact hs
      · simp only [strongest, unparked h, Bool.false_eq_true, if_false] at hs
        split at hs <;> cases hs
    rw [h, strongest_eq]
    exact declared_of_open (by decide) new
  · rw [h]
    rcases Lifecycle.strongest_cases next.steps with hs | hs | hs
    · rw [hs]
      exact declared_of_open (by decide) new
    · exact absurd (h.trans hs.symm) changed
    · rw [hs]
      exact declared_of_open (by decide) new
  · have stays : strongest next.steps = .disconnected := by
      simp [strongest, parked h]
    exact absurd (h.trans stays.symm) changed

theorem revise_disconnected_iff {revision : Revision} {s : StepState}
    (applies : revision.Applies s) :
    (revision.revise s).status = .disconnected ↔
      revision = .fail (some true) ∧ s.status = .uncertain ∧ 3 ≤ s.recoveries + 1 := by
  cases revision with
  | doubt => simp [Revision.revise]
  | settle found => cases found <;> simp [Revision.revise]
  | fail retry =>
    by_cases doubted : s.status = .uncertain ∧ retry = some true
    · by_cases exhausted : 3 ≤ s.recoveries + 1
      · simp [Revision.revise, doubted, exhausted]
      · simp [Revision.revise, doubted, exhausted]
    · simp only [Revision.revise, if_neg doubted]
      constructor
      · intro h
        split at h <;> cases h
      · rintro ⟨hretry, hstatus, -⟩
        exact absurd ⟨hstatus, by simpa using hretry⟩ doubted

theorem undeclared_reviseStep_iff {key : StepKey} {revision : Revision} {L : Lifecycle}
    {s : StepState} (row : L.steps.row key = some s) (applies : revision.Applies s) :
    Undeclared (.reviseStep key revision) L ↔
      L.publication = .publishing ∧ (revision.revise s).status = .disconnected := by
  rw [revise_disconnected_iff applies]
  cases revision with
  | doubt => simp [Undeclared]
  | settle found => simp [Undeclared]
  | fail retry =>
    cases retry with
    | none => simp [Undeclared]
    | some again => cases again <;> simp [Undeclared, row]

theorem reviseStep_conforms_iff {key : StepKey} {revision : Revision} {L : Lifecycle}
    (enabled : (Move.reviseStep key revision).Enabled L) (explained : Explained L) :
    Conforms (.reviseStep key revision) L ↔ ¬ Undeclared (.reviseStep key revision) L := by
  obtain ⟨inFlight, s, row, applies⟩ := enabled
  rw [undeclared_reviseStep_iff row applies]
  have steps := L.reviseStep_steps row revision.revise
  constructor
  · rintro conforms ⟨publishing, disconnected⟩
    have parked : hasStep .disconnected (L.reviseStep key revision.revise).steps = true := by
      rw [steps, hasStep_iff]
      exact ⟨key, revision.revise s, by simp, disconnected⟩
    have after : ((Move.reviseStep key revision).apply L).publication = .disconnected := by
      simp only [Move.apply, Lifecycle.derive_publication, Lifecycle.reviseStep_publication,
        inFlight, if_true, strongest, parked]
    have declared := conforms .publication
    simp only [Lifecycle.status, publishing, after] at declared
    exact absurd (declared (by decide)).1 (by decide)
  · intro stays axis changed
    cases axis with
    | preparation => simp [Lifecycle.status, Move.apply] at changed
    | execution => simp [Lifecycle.status, Move.apply] at changed
    | publication =>
      refine derive_declared (L.reviseStep_publication key _) ?_ ?_ ?_ _
      · exact fun h => changed (congrArg PublicationStatus.name h)
      · intro parked
        rw [steps]
        exact hasStep_put_keeps row (applies_not_disconnected applies)
          (explained.disconnected parked) _
      · intro publishing
        rw [steps, hasStep_put row (applies_not_disconnected applies) ?_]
        · exact explained.unparked (.inl publishing)
        · exact fun disconnected => stays ⟨publishing, disconnected⟩

def concludedName (retry : Bool) : StatusName := if retry then .pending else .failed

/-- A publication that leaves the publisher's hands, by an event that says so
after the `earlier` ones. -/
theorem concluded_declared_iff {status : PublicationStatus} (inFlight : status.inFlight = true)
    (retry : Bool) (code : Option String) (origin : Option StatusName) {earlier : List Logged}
    (other : ∀ e ∈ earlier, e.target ≠ concludedName retry) :
    Declared .publication status.name (concludedName retry)
      (earlier ++ [⟨.publication, origin, concludedName retry, code⟩]) ↔
        ¬ NoWayOut status retry code := by
  rcases inFlight_cases inFlight with h | h | h
  · have edge : none ∈ declaredReasons .publication .publishing (concludedName retry) := by
      cases retry <;> decide
    subst h
    simp only [NoWayOut, reduceCtorEq, false_and, or_self, not_false_eq_true, iff_true]
    exact declared_of_open edge _
  · have noEdge : declaredReasons .publication .uncertain (concludedName retry) = [] := by
      cases retry <;> decide
    subst h
    simp only [NoWayOut, true_or, not_true_eq_false, iff_false]
    exact fun declared => declared.1 noEdge
  · have edge : declaredReasons .publication PublicationStatus.disconnected.name
        (concludedName retry) = [some (parkedReason retry)] := by
      cases retry <;> decide
    subst h
    simp only [NoWayOut, reduceCtorEq, false_or, true_and, ne_eq, not_not, Declared, edge]
    constructor
    · rintro ⟨-, carries⟩
      obtain ⟨e, mem, -, ends, named⟩ := carries (by simp)
      rcases List.mem_append.mp mem with old | last
      · exact absurd ends (other e old)
      · obtain rfl := List.mem_singleton.mp last
        simpa using named
    · rintro rfl
      exact ⟨by simp, fun _ =>
        ⟨_, List.mem_append_right _ List.mem_cons_self, rfl, rfl, by simp⟩⟩

/-- A move that takes the publication out of the publisher's hands and touches
no other axis. -/
theorem concludes_conforms_iff {move : Move} {L : Lifecycle}
    (inFlight : L.publication.inFlight = true) {retry : Bool} {code : Option String}
    {origin : Option StatusName} {earlier : List Logged}
    (preparation : (move.apply L).preparation = L.preparation)
    (execution : (move.apply L).execution = L.execution)
    (publication : (move.apply L).publication.name = concludedName retry)
    (new : appended move L = earlier ++ [⟨.publication, origin, concludedName retry, code⟩])
    (other : ∀ e ∈ earlier, e.target ≠ concludedName retry) :
    Conforms move L ↔ ¬ NoWayOut L.publication retry code := by
  rw [← concluded_declared_iff inFlight retry code origin other, ← new, ← publication]
  constructor
  · intro conforms
    apply conforms .publication
    simp only [Lifecycle.status, publication]
    rcases inFlight_cases inFlight with h | h | h <;> rw [h] <;> cases retry <;> decide
  · intro declared axis changed
    cases axis with
    | preparation => simp [Lifecycle.status, preparation] at changed
    | execution => simp [Lifecycle.status, execution] at changed
    | publication => exact declared

theorem deriveLog_target {L : Lifecycle} {e : Logged} (mem : e ∈ deriveLog L) :
    e.target ≠ .failed := by
  rw [deriveLog] at mem
  split at mem
  · obtain rfl := List.mem_singleton.mp mem
    rcases Lifecycle.strongest_cases L.steps with h | h | h <;>
      simp [h, PublicationStatus.name]
  · cases mem

theorem open_edge (origin target : StatusName) {axis : Axis} {M N : Lifecycle}
    (before : M.status axis = origin) (after : N.status axis = target)
    (edge : none ∈ declaredReasons axis origin target) (new : List Logged) :
    Declared axis (M.status axis) (N.status axis) new := by
  rw [before, after]
  exact declared_of_open edge new

theorem named_edge (origin target : StatusName) {axis : Axis} {M N : Lifecycle}
    (before : M.status axis = origin) (after : N.status axis = target) {new : List Logged}
    (reason : Option String) (edge : reason ∈ declaredReasons axis origin target)
    (mem : ⟨axis, some origin, target, reason⟩ ∈ new) :
    Declared axis (M.status axis) (N.status axis) new := by
  rw [before, after]
  exact declared_of_reason edge mem ⟨rfl, rfl, rfl⟩

theorem at_preparation {L : Lifecycle} {s : PreparationStatus} (h : L.preparation = s) :
    L.status .preparation = s.name := congrArg PreparationStatus.name h

theorem at_execution {L : Lifecycle} {s : ExecutionStatus} (h : L.execution = s) :
    L.status .execution = s.name := congrArg ExecutionStatus.name h

theorem at_publication {L : Lifecycle} {s : PublicationStatus} (h : L.publication = s) :
    L.status .publication = s.name := congrArg PublicationStatus.name h

/-- The moves of preparation, of the Execution, of claims and of operators. -/
theorem conforms_of_quiet {move : Move} {L : Lifecycle} (enabled : move.Enabled L)
    (consistent : AxesConsistent L) (explained : Explained L)
    (noRevision : ∀ key revision, move ≠ .reviseStep key revision)
    (noFailure : ∀ retry code, move ≠ .failPublication retry code)
    (noEnd : ∀ key code, move ≠ .endAtStep key code) : Conforms move L := by
  have unparked := consistent.unparked
  intro axis changed
  cases move with
  | reviseStep key revision => exact absurd rfl (noRevision key revision)
  | failPublication retry code => exact absurd rfl (noFailure retry code)
  | endAtStep key code => exact absurd rfl (noEnd key code)
  -- preparation
  | takePreparation =>
    cases axis with
    | preparation =>
      rcases enabled.1 with h | h
      · exact open_edge .pending .preparing (at_preparation h) rfl (by decide) _
      · exact open_edge .uncertain .preparing (at_preparation h) rfl (by decide) _
    | _ => exact absurd rfl changed
  | retryPreparation code =>
    cases axis with
    | preparation => exact open_edge .preparing .pending (at_preparation enabled) rfl (by decide) _
    | _ => exact absurd rfl changed
  | loseLease =>
    cases axis with
    | preparation => exact open_edge .preparing .uncertain (at_preparation enabled) rfl (by decide) _
    | _ => exact absurd rfl changed
  | endUnsubmitted code =>
    cases axis with
    | preparation =>
      have after : ((Move.endUnsubmitted code).apply L).preparation = .failed := by
        simp [Move.apply]
      exact open_edge .preparing .failed (at_preparation enabled.1) (at_preparation after) (by decide) _
    | execution =>
      have after : ((Move.endUnsubmitted code).apply L).execution = .skipped := by
        simp [Move.apply]
      exact open_edge .pending .skipped (at_execution enabled.2) (at_execution after) (by decide) _
    | publication =>
      refine abandon_declared ?_ (consistent.unsubmitted (.inr (.inl enabled.1))).2 _
      rfl
  | endUncertain code =>
    cases axis with
    | preparation => exact open_edge .preparing .failed (at_preparation enabled.1) rfl (by decide) _
    | execution =>
      exact named_edge .pending .uncertain (at_execution enabled.2) rfl
        (some "SUBMISSION_STATE_UNCERTAIN") (by decide) (by simp [appended])
    | publication => exact absurd rfl changed
  | parkPreparation => exact absurd (consistent.unsubmitted (.inr (.inl enabled.1))).1 enabled.2
  | resumePreparation => exact absurd enabled unparked
  | endParkedPreparation code stop => exact absurd enabled unparked
  -- execution
  | queueExecution =>
    cases axis with
    | preparation => exact open_edge .preparing .submitted (at_preparation enabled.1) rfl (by decide) _
    | execution => exact open_edge .pending .queued (at_execution enabled.2.1) rfl (by decide) _
    | publication => exact absurd rfl changed
  | confirmSubmission =>
    cases axis with
    | execution => exact open_edge .uncertain .queued (at_execution enabled.1) rfl (by decide) _
    | _ => exact absurd rfl changed
  | startExecution =>
    cases axis with
    | execution => exact open_edge .queued .running (at_execution enabled) rfl (by decide) _
    | _ => exact absurd rfl changed
  | succeedExecution =>
    cases axis with
    | execution =>
      rcases enabled with h | h
      · exact open_edge .queued .succeeded (at_execution h) rfl (by decide) _
      · exact open_edge .running .succeeded (at_execution h) rfl (by decide) _
    | _ => exact absurd rfl changed
  | failExecution code =>
    simp only [Move.Enabled] at enabled
    cases axis with
    | preparation => simp [Lifecycle.status, Move.apply] at changed
    | execution =>
      have after : ((Move.failExecution code).apply L).execution = .failed := by
        simp [Move.apply]
      rcases enabled with h | h | h
      · exact open_edge .queued .failed (at_execution h) (at_execution after) (by decide) _
      · exact open_edge .running .failed (at_execution h) (at_execution after) (by decide) _
      · exact open_edge .uncertain .failed (at_execution h) (at_execution after) (by decide) _
    | publication =>
      refine abandon_declared ?_ (consistent.waiting (by tauto)) _
      rfl
  | parkExecution =>
    cases axis with
    | execution =>
      exact named_edge .uncertain .disconnected (at_execution enabled) rfl
        (some "SUBMISSION_RECOVERY_EXHAUSTED") (by decide) (by simp [appended])
    | _ => exact absurd rfl changed
  | resumeExecution =>
    cases axis with
    | execution =>
      exact named_edge .disconnected .uncertain (at_execution enabled) rfl
        (some "SUBMISSION_RECOVERY_RESUMED_BY_OPERATOR") (by decide) (by simp [appended])
    | _ => exact absurd rfl changed
  | giveUpExecution =>
    cases axis with
    | preparation => simp [Lifecycle.status, Move.apply] at changed
    | execution =>
      have after : (Move.giveUpExecution.apply L).execution = .failed := by
        simp [Move.apply]
      exact named_edge .disconnected .failed (at_execution enabled) (at_execution after)
        (some "SUBMISSION_RECOVERY_ABANDONED_BY_OPERATOR") (by decide) (by simp [appended])
    | publication =>
      refine abandon_declared ?_ (consistent.waiting (.inr (.inr (.inr enabled)))) _
      rfl
  -- publication
  | takePublication =>
    cases axis with
    | publication =>
      rcases enabled.2.2 with h | h | h
      · exact open_edge .pending .publishing (at_publication h) rfl (by decide) _
      · exact absurd (congrArg PublicationStatus.name h) changed
      · exact open_edge .uncertain .publishing (at_publication h) rfl (by decide) _
    | _ => exact absurd rfl changed
  | publish =>
    cases axis with
    | publication =>
      have publishing := publish_from_publishing enabled explained
      exact open_edge .publishing .published (at_publication publishing) rfl (by decide) _
    | _ => exact absurd rfl changed
  | rederive =>
    cases axis with
    | preparation => simp [Lifecycle.status, Move.apply] at changed
    | execution => simp [Lifecycle.status, Move.apply] at changed
    | publication =>
      refine derive_declared rfl ?_ explained.disconnected ?_ _
      · exact fun h => changed (congrArg PublicationStatus.name h)
      · exact fun publishing => explained.unparked (.inl publishing)
  | resumePublication =>
    cases axis with
    | publication =>
      exact named_edge .disconnected .pending (at_publication enabled) rfl
        (some "PUBLICATION_RESUMED_BY_OPERATOR") (by decide) (by simp [appended])
    | _ => exact absurd rfl changed
  | giveUpPublication =>
    cases axis with
    | publication =>
      exact named_edge .disconnected .failed (at_publication enabled) rfl
        (some "PUBLICATION_ABANDONED_BY_OPERATOR") (by decide) (by simp [appended])
    | _ => exact absurd rfl changed
  -- moves that no axis shows
  | grantStep key => cases axis <;> simp [Lifecycle.status, Move.apply] at changed
  | completeStep key => cases axis <;> simp [Lifecycle.status, Move.apply] at changed
  | idle | claimRecovery | initializeSteps | deliver => cases axis <;> exact absurd rfl changed

/-- Every move keeps to the declared edges except those `Undeclared` names. -/
theorem conforms_iff (move : Move) (L : Lifecycle) (enabled : move.Enabled L)
    (consistent : AxesConsistent L) (explained : Explained L) :
    Conforms move L ↔ ¬ Undeclared move L := by
  cases move with
  | reviseStep key revision => exact reviseStep_conforms_iff enabled explained
  | failPublication retry code =>
    have concluded : ((Move.failPublication retry code).apply L).publication.name =
        concludedName retry := by
      cases retry <;> rfl
    have new : appended (.failPublication retry code) L =
        [] ++ [⟨.publication, some .publishing, concludedName retry, code⟩] := rfl
    refine concludes_conforms_iff enabled ?_ ?_ concluded new (by simp)
    · cases retry <;> rfl
    · cases retry <;> rfl
  | endAtStep key code =>
    refine concludes_conforms_iff enabled.1 ?_ ?_ rfl rfl fun e mem => deriveLog_target mem
    · simp [Move.apply]
    · simp [Move.apply]
  | _ =>
    simp only [Undeclared, not_false_eq_true, iff_true]
    exact conforms_of_quiet enabled consistent explained (by simp) (by simp) (by simp)

/-- The actions whose change of the publication axis is not declared. -/
inductive LeavesDiagram (store : Store) (now : Timestamp) : RunAction → Run → Prop where
  | fail {token : Token} {error : Failure} {retry : Bool} {run : Run}
      (owns : PublicationStore.ownsPublication token run.publication = true)
      (noWayOut : NoWayOut run.publication.status retry error.code) :
      LeavesDiagram store now (.failPublication token error retry) run
  | failStep {token : Token} {key : StepKey} {error : Failure} {run : Run} {s : PublicationStep}
      (owns : PublicationStore.ownsPublication token run.publication = true)
      (row : run.steps.row key = some s) (open_ : s.status = .running ∨ s.status = .uncertain)
      (noWayOut : NoWayOut run.publication.status false error.code) :
      LeavesDiagram store now (.failPublicationStep token key error (some false)) run
  | parkStep {token : Token} {key : StepKey} {error : Failure} {run : Run} {s : PublicationStep}
      (owns : PublicationStore.ownsPublication token run.publication = true)
      (row : run.steps.row key = some s) (uncertain : s.status = .uncertain)
      (exhausted : PublicationStore.maxPublicationStepRecoveryAttempts ≤
        s.recoveryAttemptCount + 1)
      (publishing : run.publication.status = .publishing) :
      LeavesDiagram store now (.failPublicationStep token key error (some true)) run

theorem failPublicationStep_undeclared_iff (store : Store) (tx : Tx) (token : Token)
    (key : StepKey) (error : Failure) (retry : Option Bool) :
    LeavesDiagram store tx.now (.failPublicationStep token key error retry) tx.run ↔
      Undeclared (moveOf store tx (.failPublicationStep token key error retry))
        (view tx.run) := by
  have status : (view tx.run).publication = tx.run.publication.status := rfl
  simp only [moveOf]
  constructor
  · intro leaves
    cases leaves with
    | failStep owns row open_ noWayOut =>
      rw [if_pos (stepReady_open_iff.mpr ⟨owns, _, row, open_⟩), if_pos rfl]
      exact noWayOut
    | parkStep owns row uncertain exhausted publishing =>
      rw [if_pos (stepReady_open_iff.mpr ⟨owns, _, row, .inr uncertain⟩)]
      exact ⟨publishing, _, view_steps_row row, uncertain, exhausted⟩
  · intro undeclared
    by_cases ready : stepReady token key
        (fun s => decide (s.status = .running) || decide (s.status = .uncertain)) tx = true
    · obtain ⟨owns, s, row, open_⟩ := stepReady_open_iff.mp ready
      rw [if_pos ready] at undeclared
      cases retry with
      | none => simp [Undeclared] at undeclared
      | some again =>
        cases again with
        | false => exact .failStep owns row open_ undeclared
        | true =>
          obtain ⟨publishing, t, found, uncertain, exhausted⟩ := undeclared
          rw [view_steps_row row] at found
          obtain rfl := Option.some.inj found
          exact .parkStep owns row uncertain exhausted publishing
    · rw [if_neg ready] at undeclared
      exact undeclared.elim

theorem undeclared_moveOf_iff (store : Store) (action : RunAction) (tx : Tx) :
    LeavesDiagram store tx.now action tx.run ↔
      Undeclared (moveOf store tx action) (view tx.run) := by
  cases action
  case failPublicationStep token key error retry =>
    exact failPublicationStep_undeclared_iff store tx token key error retry
  case failPublication token error retry =>
    constructor
    · intro leaves
      cases leaves with
      | fail owns noWayOut =>
        simp only [moveOf, owns, if_true]
        exact noWayOut
    · intro undeclared
      by_cases owns : PublicationStore.ownsPublication token tx.run.publication = true
      · simp only [moveOf, owns, if_true] at undeclared
        exact .fail owns undeclared
      · simp [moveOf, owns, Undeclared] at undeclared
  all_goals
    refine iff_of_false (by intro leaves; cases leaves) ?_
    simp only [moveOf, expiryMove, failPreparationMove, refusedClaimMove]
    try split_ifs
    all_goals simp [Undeclared]

/-- Whenever the operation changes a status of an existing run, the contract
declares that change, with the reason of an event the operation appended. -/
def FollowsDiagram (db : Database) (call : Call) : Prop :=
  ∀ id run next, db.runs.row id = some run →
    (call.2.execute call.1 db).runs.row id = some next →
    ∀ axis, run.status axis ≠ next.status axis →
      Declared axis (run.status axis) (next.status axis)
        ((next.events.drop run.events.length).map logged)

theorem view_status (run : Run) (axis : Axis) : (view run).status axis = run.status axis := by
  cases axis <;> rfl

/-- The events an operation appended, read off the log before and after. -/
theorem appended_events {run next : Run} {new : List Logged}
    (log : (view next).log = (view run).log ++ new) :
    (next.events.drop run.events.length).map logged = new := by
  have mapped : next.events.map logged = run.events.map logged ++ new := log
  rw [List.map_drop, mapped]
  have length : run.events.length = (run.events.map logged).length := by simp
  rw [length, List.drop_left]

theorem followsDiagram_iff {db : Database} (reachable : coordination.Reachable db)
    (call : Call) : FollowsDiagram db call ↔ ¬ Performs LeavesDiagram db call := by
  have effect : ∀ id run, db.runs.row id = some run →
      ∃ next, (call.2.execute call.1 db).runs.row id = some next ∧
        ((∀ axis, run.status axis ≠ next.status axis →
          Declared axis (run.status axis) (next.status axis)
            ((next.events.drop run.events.length).map logged)) ↔
          ∀ action, actionOn call db id = some action →
            ¬ LeavesDiagram call.1 db.clock action run) := by
    intro id run row
    obtain ⟨next, row', idle | ⟨action, tx, acts, same, now, enabled, after⟩⟩ :=
      execute_moves reachable call row
    · refine ⟨next, row', ?_⟩
      simp [idle.1, idle.2]
    · have consistent := view_consistent reachable row
      have explained : Explained (view run) :=
        view_reachable admitted_explained apply_explained reachable row
      have log := apply_log (moveOf call.1 tx action) (view run)
      rw [← after] at log
      have decides := undeclared_moveOf_iff call.1 action tx
      rw [same, now] at decides
      have conforms := conforms_iff _ _ enabled consistent explained
      rw [← decides] at conforms
      simp only [Conforms, ← after, view_status] at conforms
      refine ⟨next, row', ?_⟩
      simpa only [acts, Option.some.injEq, forall_eq', appended_events log] using conforms
  constructor
  · rintro follows ⟨id, run, action, row, acts, leaves⟩
    obtain ⟨next, row', decides⟩ := effect id run row
    exact decides.mp (follows id run next row row') action acts leaves
  · intro none id run next row row'
    obtain ⟨found, new, decides⟩ := effect id run row
    obtain rfl := Option.some.inj (row'.symm.trans new)
    exact decides.mpr fun action acts leaves => none ⟨id, run, action, row, acts, leaves⟩

/-- Along every run of the system, every operation keeps to the declared state
machines exactly when no operation is one of the three in `LeavesDiagram`. -/
theorem follows_diagram_iff (calls : List Call) :
    (∀ step ∈ coordination.steps calls, FollowsDiagram step.1 step.2) ↔
      ∀ step ∈ coordination.steps calls, ¬ Performs LeavesDiagram step.1 step.2 := by
  refine forall₂_congr fun step taken => ?_
  exact followsDiagram_iff (coordination.steps_reachable coordination.reachable_initial taken) _

/-- A publication in doubt is returned to the queue: `uncertain` to `pending`. -/
theorem retry_in_doubt_undeclared :
    ¬ ∀ db, coordination.Reachable db → ∀ call, FollowsDiagram db call := by
  intro follows
  let call : Call := (defaultStore, .onRun "run-1" (.failPublication 1 responseLost true))
  let calls := byDefault toUncertain
  have before : ((coordination.run calls).runs.row "run-1").any (fun run =>
      run.publication.status = .uncertain) = true := by
    decide
  have after : ((coordination.run (calls ++ [call])).runs.row "run-1").any (fun run =>
      run.publication.status = .pending) = true := by
    decide
  simp only [Option.any_eq_true, decide_eq_true_eq] at before after
  obtain ⟨run, row, uncertain⟩ := before
  obtain ⟨next, row', pending⟩ := after
  have declared := follows _ ⟨calls, rfl⟩ call "run-1" run next row row' .publication
  simp only [Run.status, uncertain, pending] at declared
  exact absurd (declared (by decide)).1 (by decide)

end StateMachines
