import SecReviewBot.ReviewRuns.PublicationAxis

/-!
# What the outbox says

A run is announced as failed once, when its publication is skipped or failed,
whichever of the conclusions got there. A call for an operator is withdrawn
when the axis is resumed; when the axis leaves `disconnected` in any other way
the call stays.
-/

namespace Notices

open KeyedTables ReviewRunsSchema ReviewRunsTransactions Coordination TransitionSystems
open RowEffects Lifecycles LifecycleView ActionMoves CrossAxis PublicationAxis

/-- The conclusions a connector is told about. -/
def Ended (status : PublicationStatus) : Prop := status = .skipped ∨ status = .failed

instance (status : PublicationStatus) : Decidable (Ended status) :=
  inferInstanceAs (Decidable (_ ∨ _))

def AnnouncedOnce (L : Lifecycle) : Prop :=
  L.failures = if Ended L.publication then 1 else 0

theorem admitted_announcedOnce : AnnouncedOnce admitted := rfl

/-- A conclusion announced while nothing had been. -/
theorem announced_now {L next : Lifecycle} (h : AnnouncedOnce L) (before : ¬ Ended L.publication)
    (after : Ended next.publication) (failures : next.failures = L.failures + 1) :
    AnnouncedOnce next := by
  rw [AnnouncedOnce, if_neg before] at h
  rw [AnnouncedOnce, if_pos after, failures, h]

theorem announced_still {L next : Lifecycle} (h : AnnouncedOnce L)
    (ended : Ended next.publication ↔ Ended L.publication)
    (failures : next.failures = L.failures) : AnnouncedOnce next := by
  simp only [AnnouncedOnce, failures, ended]
  exact h

theorem inFlight_not_ended {s : PublicationStatus} (h : s.inFlight = true) : ¬ Ended s := by
  rcases inFlight_cases h with h | h | h <;> simp [Ended, h]

theorem derive_ended_iff (L : Lifecycle) : Ended L.derive.publication ↔ Ended L.publication := by
  rw [Lifecycle.derive_publication]
  by_cases inFlight : L.publication.inFlight = true
  · rw [if_pos inFlight]
    exact iff_of_false (inFlight_not_ended (strongest_inFlight _)) (inFlight_not_ended inFlight)
  · rw [if_neg inFlight]

theorem apply_announcedOnce (move : Move) (L : Lifecycle) (enabled : move.Enabled L)
    (consistent : AxesConsistent L) (h : AnnouncedOnce L) : AnnouncedOnce (move.apply L) := by
  have unparked := consistent.unparked
  cases move with
  | endUnsubmitted code =>
    have waiting := (consistent.unsubmitted (.inr (.inl enabled.1))).2
    apply announced_now h
    · simp [Ended, waiting]
    · simp [Ended, Move.apply, Lifecycle.abandon_publication, waiting]
    · simp [Move.apply]
  | parkPreparation => exact absurd (consistent.unsubmitted (.inr (.inl enabled.1))).1 enabled.2
  | resumePreparation => exact absurd enabled unparked
  | endParkedPreparation code stop => exact absurd enabled unparked
  | failExecution code =>
    simp only [Move.Enabled] at enabled
    have waiting := consistent.waiting (by tauto)
    apply announced_now h
    · simp [Ended, waiting]
    · simp [Ended, Move.apply, Lifecycle.abandon_publication, waiting]
    · simp [Move.apply]
  | giveUpExecution =>
    have waiting := consistent.waiting (.inr (.inr (.inr enabled)))
    apply announced_now h
    · simp [Ended, waiting]
    · simp [Ended, Move.apply, Lifecycle.abandon_publication, waiting]
    · simp [Move.apply]
  | takePublication =>
    refine announced_still h ?_ rfl
    rcases enabled.2.2 with hb | hb | hb <;> simp [Ended, Move.apply, hb]
  | publish =>
    refine announced_still h ?_ rfl
    exact iff_of_false (by simp [Ended, Move.apply]) (inFlight_not_ended enabled.1)
  | failPublication retry code =>
    cases retry with
    | true =>
      refine announced_still h ?_ rfl
      exact iff_of_false (by simp [Ended, Move.apply]) (inFlight_not_ended enabled)
    | false => exact announced_now h (inFlight_not_ended enabled) (.inr rfl) rfl
  | reviseStep key revision =>
    refine announced_still h ?_ (by simp [Move.apply])
    have derived := derive_ended_iff (L.reviseStep key revision.revise)
    rw [Lifecycle.reviseStep_publication] at derived
    exact derived
  | endAtStep key code =>
    exact announced_now h (inFlight_not_ended enabled.1) (.inr rfl) (by simp [Move.apply])
  | rederive => exact announced_still h (derive_ended_iff L) (by simp [Move.apply])
  | resumePublication =>
    refine announced_still h ?_ rfl
    have parked : L.publication = .disconnected := enabled
    simp [Ended, Move.apply, parked]
  | giveUpPublication =>
    have parked : L.publication = .disconnected := enabled
    exact announced_now h (by simp [Ended, parked]) (.inr rfl) rfl
  | grantStep key => exact announced_still h (by simp [Move.apply]) (by simp [Move.apply])
  | completeStep key => exact announced_still h (by simp [Move.apply]) (by simp [Move.apply])
  | _ => exact h

/-- In every reachable database a run whose publication was skipped or failed
has exactly one failure notice, and any other run has none. -/
theorem failure_notices_exactly_once {db : Database} (reachable : coordination.Reachable db)
    {id : RunId} {run : Run} (row : db.runs.row id = some run) :
    run.notices.count (fun n => n.kind = .failure) =
        (if run.publication.status = .skipped ∨ run.publication.status = .failed then 1 else 0) ∧
      (run.execution.status = .uncertain ∨ run.execution.status = .disconnected →
        run.notices.count (fun n => n.kind = .failure) = 0) := by
  have initially : AxesConsistent admitted ∧ AnnouncedOnce admitted :=
    ⟨admitted_consistent, admitted_announcedOnce⟩
  have preserved : ∀ (move : Move) L, move.Enabled L → AxesConsistent L ∧ AnnouncedOnce L →
      AxesConsistent (move.apply L) ∧ AnnouncedOnce (move.apply L) := by
    intro move L enabled h
    exact ⟨apply_consistent move L enabled h.1, apply_announcedOnce move L enabled h.1 h.2⟩
  have invariant := view_reachable initially preserved reachable row
  have once : run.notices.count (fun n => n.kind = .failure) =
      if run.publication.status = .skipped ∨ run.publication.status = .failed then 1 else 0 :=
    invariant.2
  refine ⟨once, ?_⟩
  intro unsettled
  have waiting : run.publication.status = .pending :=
    Consistent.waiting invariant.1 (.inr (.inr unsettled))
  rw [once, waiting]
  rfl

/-- A publication failed for good while a step was in doubt. -/
theorem failure_notices_after_fail :
    ∃ run, (coordination.run (byDefault (toUncertain ++
        onRun1 [.failPublication 1 responseLost false]))).runs.row "run-1" = some run ∧
      run.publication.status = .failed ∧
      run.notices.count (fun n => n.kind = .failure) = 1 := by
  have failed : ((coordination.run (byDefault (toUncertain ++
      onRun1 [.failPublication 1 responseLost false]))).runs.row "run-1").any
        (fun run => run.publication.status = .failed) = true := by
    decide
  simp only [Option.any_eq_true, decide_eq_true_eq] at failed
  obtain ⟨run, row, failed⟩ := failed
  have once := (failure_notices_exactly_once ⟨_, rfl⟩ row).1
  rw [failed] at once
  exact ⟨run, row, failed, once⟩

/-- Whoever is called to an axis finds it disconnected. -/
def CallsLive (L : Lifecycle) : Prop :=
  ∀ axis, L.attention axis = true → L.status axis = .disconnected

theorem admitted_callsLive : CallsLive admitted := by
  intro axis raised
  cases raised

/-- The moves that leave a disconnected axis without withdrawing its call. -/
def Strands : Move → Lifecycle → Prop
  | .giveUpExecution, L => L.attention .execution = true
  | .giveUpPublication, L => L.attention .publication = true
  | .failPublication _ _, L =>
    L.publication = .disconnected ∧ L.attention .publication = true
  | .endAtStep _ _, L => L.publication = .disconnected ∧ L.attention .publication = true
  | _, _ => False

theorem disconnected_of_name {s : PublicationStatus} (h : s.name = .disconnected) :
    s = .disconnected := by
  cases s <;> simp_all [PublicationStatus.name]

/-- Nobody new is called, and what was disconnected still is. -/
theorem callsLive_of_kept {L next : Lifecycle} (h : CallsLive L)
    (attention : ∀ axis, next.attention axis = true → L.attention axis = true)
    (status : ∀ axis, L.status axis = .disconnected → next.status axis = .disconnected) :
    CallsLive next := by
  intro axis raised
  exact status axis (h axis (attention axis raised))

theorem strongest_disconnected_iff {steps : Table StepKey StepState} :
    strongest steps = .disconnected ↔ hasStep .disconnected steps = true := by
  cases parked : hasStep .disconnected steps <;>
    cases doubt : hasStep .uncertain steps <;> simp [strongest, parked, doubt]

/-- Deriving calls somebody only to a publication it parks. -/
theorem derive_attention {L : Lifecycle} {axis : Axis} (raised : L.derive.attention axis = true) :
    L.attention axis = true ∨
      axis = .publication ∧ L.publication.inFlight = true ∧ L.publication ≠ .disconnected ∧
        hasStep .disconnected L.steps = true := by
  by_cases moves : L.publication.inFlight = true ∧ L.publication ≠ strongest L.steps
  · by_cases parks : strongest L.steps = .disconnected
    · by_cases here : axis = .publication
      · exact .inr ⟨here, moves.1, parks ▸ moves.2, strongest_disconnected_iff.mp parks⟩
      · simp only [Lifecycle.derive, if_pos moves, if_pos parks, Lifecycle.setAttention_attention,
          Function.update_of_ne here] at raised
        exact .inl raised
    · simp only [Lifecycle.derive, if_pos moves, if_neg parks] at raised
      exact .inl raised
  · simp only [Lifecycle.derive, if_neg moves] at raised
    exact .inl raised

theorem derive_attention_mono {L : Lifecycle} {axis : Axis} (raised : L.attention axis = true) :
    L.derive.attention axis = true := by
  simp only [Lifecycle.derive]
  split
  · split
    · by_cases here : axis = .publication
      · simp [here]
      · simpa [Function.update_of_ne here] using raised
    · exact raised
  · exact raised

/-- A publication under way with a parked step is derived to be parked. -/
theorem derive_parked {L : Lifecycle} (inFlight : L.publication.inFlight = true)
    (parked : hasStep .disconnected L.steps = true) :
    L.derive.status .publication = .disconnected := by
  simp only [Lifecycle.status, Lifecycle.derive_publication, if_pos inFlight,
    strongest_disconnected_iff.mpr parked]
  rfl

theorem derive_callsLive {L : Lifecycle} (h : CallsLive L)
    (parked : L.publication = .disconnected → hasStep .disconnected L.steps = true) :
    CallsLive L.derive := by
  intro axis raised
  rcases derive_attention raised with before | ⟨rfl, inFlight, -, step⟩
  · have status := h axis before
    cases axis with
    | preparation => simpa [Lifecycle.status] using status
    | execution => simpa [Lifecycle.status] using status
    | publication =>
      have disconnected := disconnected_of_name status
      exact derive_parked (inFlight_of_disconnected disconnected) (parked disconnected)
  · exact derive_parked inFlight step

theorem reviseStep_callsLive {L : Lifecycle} {key : StepKey} {revision : Revision}
    (enabled : (Move.reviseStep key revision).Enabled L) (explained : Explained L)
    (h : CallsLive L) : CallsLive ((Move.reviseStep key revision).apply L) := by
  obtain ⟨-, s, row, applies⟩ := enabled
  apply derive_callsLive
  · apply callsLive_of_kept h
    · intro axis raised
      simpa using raised
    · intro axis disconnected
      cases axis <;> simpa [Lifecycle.status] using disconnected
  · intro disconnected
    rw [Lifecycle.reviseStep_publication] at disconnected
    rw [L.reviseStep_steps row]
    exact hasStep_put_keeps row (applies_not_disconnected applies)
      (explained.disconnected disconnected) _

/-- Ending a publication at a step calls nobody: the step is not parked, and a
parked one would have been seen before. -/
theorem endAtStep_attention {L : Lifecycle} {key : StepKey} {code : Option String}
    (enabled : (Move.endAtStep key code).Enabled L) (explained : Explained L) {axis : Axis}
    (raised : ((Move.endAtStep key code).apply L).attention axis = true) :
    L.attention axis = true := by
  obtain ⟨-, s, row, applies⟩ := enabled
  have derived : (L.reviseStep key (Revision.fail (some false)).revise).derive.attention axis
      = true := raised
  rcases derive_attention derived with before | ⟨-, inFlight, other, parked⟩
  · simpa using before
  · rw [Lifecycle.reviseStep_publication] at inFlight other
    have unparked : hasStep .disconnected L.steps = false := by
      apply explained.unparked
      rcases inFlight_cases inFlight with hb | hb | hb
      · exact .inl hb
      · exact .inr hb
      · exact absurd hb other
    rw [L.reviseStep_steps row, hasStep_put row (applies_not_disconnected applies), unparked]
      at parked
    · cases parked
    · simp [Revision.revise]

/-- The publication leaves the publisher's hands. -/
theorem concluded_callsLive_iff {L next : Lifecycle} (h : CallsLive L)
    (preparation : next.preparation = L.preparation) (execution : next.execution = L.execution)
    (left : next.publication ≠ .disconnected)
    (attention : ∀ axis, L.attention axis = true → next.attention axis = true)
    (nobody : ∀ axis, next.attention axis = true → L.attention axis = true) :
    CallsLive next ↔ ¬ (L.publication = .disconnected ∧ L.attention .publication = true) := by
  constructor
  · rintro live ⟨-, raised⟩
    exact left (disconnected_of_name (live .publication (attention _ raised)))
  · intro quiet axis raised
    have before := nobody axis raised
    have status := h axis before
    cases axis with
    | preparation => simpa [Lifecycle.status, preparation] using status
    | execution => simpa [Lifecycle.status, execution] using status
    | publication => exact absurd ⟨disconnected_of_name status, before⟩ quiet

/-- The axis was not disconnected, so nobody was called to it. -/
theorem callsLive_of_status {L next : Lifecycle} (h : CallsLive L)
    (attention : next.attention = L.attention)
    (preparation : L.preparation = .disconnected → next.preparation = .disconnected)
    (execution : L.execution = .disconnected → next.execution = .disconnected)
    (publication : L.publication = .disconnected → next.publication = .disconnected) :
    CallsLive next := by
  apply callsLive_of_kept h
  · intro axis raised
    rw [← attention]
    exact raised
  · intro axis disconnected
    cases axis with
    | preparation =>
      have parked : L.preparation = .disconnected := by
        cases hp : L.preparation <;> simp_all [Lifecycle.status, PreparationStatus.name]
      simp only [Lifecycle.status, preparation parked]
      rfl
    | execution =>
      have parked : L.execution = .disconnected := by
        cases he : L.execution <;> simp_all [Lifecycle.status, ExecutionStatus.name]
      simp only [Lifecycle.status, execution parked]
      rfl
    | publication =>
      have parked := disconnected_of_name disconnected
      simp only [Lifecycle.status, publication parked]
      rfl

/-- A call is made or withdrawn on one axis, the others are left alone. -/
theorem callsLive_of_called {L next : Lifecycle} (h : CallsLive L) (axis : Axis)
    (others : ∀ other, other ≠ axis → (next.attention other = true → L.attention other = true) ∧
      next.status other = L.status other)
    (here : next.attention axis = true → next.status axis = .disconnected) :
    CallsLive next := by
  intro other raised
  by_cases same : other = axis
  · subst same
    exact here raised
  · obtain ⟨before, status⟩ := others other same
    rw [status]
    exact h other (before raised)

theorem apply_callsLive_iff (move : Move) (L : Lifecycle) (enabled : move.Enabled L)
    (consistent : AxesConsistent L) (explained : Explained L) (h : CallsLive L) :
    CallsLive (move.apply L) ↔ ¬ Strands move L := by
  have unparked := consistent.unparked
  cases move with
  | giveUpExecution =>
    have parked : L.execution = .disconnected := enabled
    have waiting : L.publication = .pending := consistent.waiting (.inr (.inr (.inr parked)))
    constructor
    · intro live raised
      simp only [Strands] at raised
      have status := live .execution (by simpa [Move.apply] using raised)
      simp [Lifecycle.status, Move.apply, ExecutionStatus.name] at status
    · intro quiet axis raised
      have before : L.attention axis = true := by simpa [Move.apply] using raised
      have status := h axis before
      cases axis with
      | preparation => simpa [Lifecycle.status, Move.apply] using status
      | execution => exact absurd before quiet
      | publication => simp [Lifecycle.status, waiting, PublicationStatus.name] at status
  | giveUpPublication =>
    have parked : L.publication = .disconnected := enabled
    have concluded : CallsLive (Move.giveUpPublication.apply L) ↔
        ¬ (L.publication = .disconnected ∧ L.attention .publication = true) :=
      concluded_callsLive_iff h rfl rfl (by simp [Move.apply]) (fun _ raised => raised)
        (fun _ raised => raised)
    simpa [Strands, parked] using concluded
  | failPublication retry code =>
    cases retry
    · exact concluded_callsLive_iff h rfl rfl (by simp [Move.apply])
        (fun _ raised => raised) (fun _ raised => raised)
    · exact concluded_callsLive_iff h rfl rfl (by simp [Move.apply])
        (fun _ raised => raised) (fun _ raised => raised)
  | endAtStep key code =>
    refine concluded_callsLive_iff h ?_ ?_ ?_ ?_ ?_
    · simp [Move.apply]
    · simp [Move.apply]
    · simp [Move.apply]
    · intro axis raised
      exact derive_attention_mono (by simpa using raised)
    · exact fun axis raised => endAtStep_attention enabled explained raised
  | parkExecution =>
    refine iff_of_true ?_ id
    refine callsLive_of_called h .execution ?_ ?_
    · intro axis other
      cases axis <;> first | exact absurd rfl other | exact ⟨id, rfl⟩
    · exact fun _ => rfl
  | resumeExecution =>
    refine iff_of_true ?_ id
    refine callsLive_of_called h .execution ?_ ?_
    · intro axis other
      cases axis <;> first | exact absurd rfl other | exact ⟨id, rfl⟩
    · intro raised
      simp [Move.apply] at raised
  | resumePublication =>
    refine iff_of_true ?_ id
    refine callsLive_of_called h .publication ?_ ?_
    · intro axis other
      cases axis <;> first | exact absurd rfl other | exact ⟨id, rfl⟩
    · intro raised
      simp [Move.apply] at raised
  | reviseStep key revision =>
    refine iff_of_true (reviseStep_callsLive enabled explained h) ?_
    simp [Strands]
  | rederive => exact iff_of_true (derive_callsLive h explained.disconnected) id
  | parkPreparation => exact absurd (consistent.unsubmitted (.inr (.inl enabled.1))).1 enabled.2
  | resumePreparation => exact absurd enabled unparked
  | endParkedPreparation code stop => exact absurd enabled unparked
  | deliver remaining =>
    refine iff_of_true ?_ id
    intro axis raised
    exact h axis (enabled axis raised)
  | publish =>
    have publishing := publish_from_publishing enabled explained
    refine iff_of_true (callsLive_of_status h rfl id id ?_) id
    simp [publishing]
  | takePublication =>
    refine iff_of_true (callsLive_of_status h rfl id id ?_) id
    rcases enabled.2.2 with hb | hb | hb <;> simp [hb]
  | takePreparation =>
    refine iff_of_true (callsLive_of_status h rfl ?_ id id) id
    exact fun parked => absurd parked unparked
  | endUnsubmitted code =>
    have waiting := (consistent.unsubmitted (.inr (.inl enabled.1))).2
    refine iff_of_true (callsLive_of_status h ?_ ?_ ?_ ?_) id
    · simp [Move.apply]
    · simp [enabled.1]
    · simp [enabled.2]
    · simp [waiting]
  | failExecution code =>
    simp only [Move.Enabled] at enabled
    have waiting := consistent.waiting (by tauto)
    refine iff_of_true (callsLive_of_status h ?_ ?_ ?_ ?_) id
    · simp [Move.apply]
    · simp [Move.apply]
    · rcases enabled with he | he | he <;> simp [he]
    · simp [waiting]
  | succeedExecution =>
    refine iff_of_true (callsLive_of_status h rfl id ?_ id) id
    rcases enabled with he | he <;> simp [he]
  | grantStep key =>
    refine iff_of_true (callsLive_of_status h ?_ ?_ ?_ ?_) id <;> simp [Move.apply]
  | completeStep key =>
    refine iff_of_true (callsLive_of_status h ?_ ?_ ?_ ?_) id <;> simp [Move.apply]
  | _ =>
    simp only [Move.Enabled] at enabled
    refine iff_of_true (callsLive_of_status h rfl ?_ ?_ ?_) id <;>
      first | exact id | simp [enabled]

/-- A notice of the axis that is still waiting for its connector. -/
def LiveAttention (run : Run) (axis : Axis) : Prop :=
  ∃ noticeId n, run.notices.row noticeId = some n ∧ n.kind = .attention ∧ n.axis = axis ∧
    (n.status = .pending ∨ n.status = .delivering)

theorem view_attention_iff (run : Run) (axis : Axis) :
    (view run).attention axis = true ↔ LiveAttention run axis := by
  simp only [view, Table.any_iff, isLiveAttention, Bool.and_eq_true, Bool.or_eq_true,
    decide_eq_true_eq, LiveAttention]
  constructor
  · rintro ⟨noticeId, n, row, ⟨haxis, hkind⟩, status⟩
    exact ⟨noticeId, n, row, hkind, haxis, status⟩
  · rintro ⟨noticeId, n, row, hkind, haxis, status⟩
    exact ⟨noticeId, n, row, ⟨haxis, hkind⟩, status⟩

/-- The actions that leave a disconnected axis with its notice still live. -/
inductive StrandsNotice (store : Store) (now : Timestamp) : RunAction → Run → Prop where
  | giveUpExecution {reason : String} {run : Run}
      (parked : run.execution.status = .disconnected) (live : LiveAttention run .execution) :
      StrandsNotice store now (.giveUpDisconnectedExecution reason) run
  | giveUpPublication {reason : String} {run : Run}
      (parked : run.publication.status = .disconnected) (live : LiveAttention run .publication) :
      StrandsNotice store now (.giveUpDisconnectedPublication reason) run
  | giveUpRunExecution {reason : String} {run : Run}
      (said : OperatorDecisionStore.isBlank reason = false)
      (unparked : run.preparation.status ≠ .disconnected)
      (parked : run.execution.status = .disconnected) (live : LiveAttention run .execution) :
      StrandsNotice store now (.giveUpDisconnectedRun reason) run
  | giveUpRunPublication {reason : String} {run : Run}
      (said : OperatorDecisionStore.isBlank reason = false)
      (unparked : run.preparation.status ≠ .disconnected)
      (connected : run.execution.status ≠ .disconnected)
      (parked : run.publication.status = .disconnected) (live : LiveAttention run .publication) :
      StrandsNotice store now (.giveUpDisconnectedRun reason) run
  | fail {token : Token} {error : Failure} {retry : Bool} {run : Run}
      (owns : PublicationStore.ownsPublication token run.publication = true)
      (parked : run.publication.status = .disconnected) (live : LiveAttention run .publication) :
      StrandsNotice store now (.failPublication token error retry) run
  | failStep {token : Token} {key : StepKey} {error : Failure} {run : Run} {s : PublicationStep}
      (owns : PublicationStore.ownsPublication token run.publication = true)
      (row : run.steps.row key = some s) (open_ : s.status = .running ∨ s.status = .uncertain)
      (parked : run.publication.status = .disconnected) (live : LiveAttention run .publication) :
      StrandsNotice store now (.failPublicationStep token key error (some false)) run

theorem failPublicationStep_strands_iff (store : Store) (tx : Tx) (token : Token) (key : StepKey)
    (error : Failure) (retry : Option Bool) :
    StrandsNotice store tx.now (.failPublicationStep token key error retry) tx.run ↔
      Strands (moveOf store tx (.failPublicationStep token key error retry)) (view tx.run) := by
  simp only [moveOf]
  constructor
  · intro strands
    cases strands with
    | failStep owns row open_ parked live =>
      have raised := (view_attention_iff tx.run .publication).mpr live
      rw [if_pos (stepReady_open_iff.mpr ⟨owns, _, row, open_⟩), if_pos rfl]
      exact ⟨parked, raised⟩
  · intro strands
    by_cases ready : stepReady token key
        (fun s => decide (s.status = .running) || decide (s.status = .uncertain)) tx = true
    · obtain ⟨owns, s, row, open_⟩ := stepReady_open_iff.mp ready
      rw [if_pos ready] at strands
      by_cases final : retry = some false
      · subst final
        exact .failStep owns row open_ strands.1 ((view_attention_iff _ _).mp strands.2)
      · rw [if_neg final] at strands
        exact strands.elim
    · rw [if_neg ready] at strands
      exact strands.elim

theorem giveUpDisconnectedRun_strands_iff (store : Store) (tx : Tx) (reason : String) :
    StrandsNotice store tx.now (.giveUpDisconnectedRun reason) tx.run ↔
      Strands (moveOf store tx (.giveUpDisconnectedRun reason)) (view tx.run) := by
  simp only [moveOf]
  constructor
  · intro strands
    cases strands with
    | giveUpRunExecution said unparked parked live =>
      simp only [said, unparked, parked, if_true, if_false, Bool.false_eq_true, Strands]
      exact (view_attention_iff _ _).mpr live
    | giveUpRunPublication said unparked connected parked live =>
      simp only [said, unparked, connected, parked, if_true, if_false, Bool.false_eq_true, Strands]
      exact (view_attention_iff _ _).mpr live
  · intro strands
    by_cases said : OperatorDecisionStore.isBlank reason = true
    · rw [if_pos said] at strands
      exact strands.elim
    rw [if_neg said] at strands
    by_cases unparked : tx.run.preparation.status = .disconnected
    · rw [if_pos unparked] at strands
      exact strands.elim
    rw [if_neg unparked] at strands
    by_cases execution : tx.run.execution.status = .disconnected
    · rw [if_pos execution] at strands
      exact .giveUpRunExecution (by simpa using said) unparked execution
        ((view_attention_iff _ _).mp strands)
    rw [if_neg execution] at strands
    by_cases publication : tx.run.publication.status = .disconnected
    · rw [if_pos publication] at strands
      exact .giveUpRunPublication (by simpa using said) unparked execution publication
        ((view_attention_iff _ _).mp strands)
    · rw [if_neg publication] at strands
      exact strands.elim

theorem strands_moveOf_iff (store : Store) (action : RunAction) (tx : Tx) :
    StrandsNotice store tx.now action tx.run ↔
      Strands (moveOf store tx action) (view tx.run) := by
  cases action
  case failPublicationStep token key error retry =>
    exact failPublicationStep_strands_iff store tx token key error retry
  case giveUpDisconnectedRun reason => exact giveUpDisconnectedRun_strands_iff store tx reason
  case giveUpDisconnectedExecution reason =>
    simp only [moveOf]
    constructor
    · intro strands
      cases strands with
      | giveUpExecution parked live =>
        rw [if_pos parked]
        exact (view_attention_iff _ _).mpr live
    · intro strands
      split at strands
      · next parked => exact .giveUpExecution parked ((view_attention_iff _ _).mp strands)
      · exact strands.elim
  case giveUpDisconnectedPublication reason =>
    simp only [moveOf]
    constructor
    · intro strands
      cases strands with
      | giveUpPublication parked live =>
        rw [if_pos parked]
        exact (view_attention_iff _ _).mpr live
    · intro strands
      split at strands
      · next parked => exact .giveUpPublication parked ((view_attention_iff _ _).mp strands)
      · exact strands.elim
  case failPublication token error retry =>
    simp only [moveOf]
    constructor
    · intro strands
      cases strands with
      | fail owns parked live =>
        rw [if_pos owns]
        exact ⟨parked, (view_attention_iff _ _).mpr live⟩
    · intro strands
      split at strands
      · next owns => exact .fail owns strands.1 ((view_attention_iff _ _).mp strands.2)
      · exact strands.elim
  all_goals
    refine iff_of_false (by intro strands; cases strands) ?_
    simp only [moveOf, expiryMove, failPreparationMove, refusedClaimMove]
    try split_ifs
    all_goals simp [Strands]

/-- A live attention notice describes an axis that is disconnected now. -/
def AttentionIsLive (run : Run) : Prop :=
  ∀ axis, LiveAttention run axis → run.status axis = .disconnected

/-- Along every run of the system, live attention notices describe disconnected
axes in every state exactly when no action leaves a disconnected axis, other
than by resuming it, while such a notice is live. -/
theorem attention_is_live_iff (calls : List Call) :
    (∀ db ∈ coordination.visited calls, ∀ id run, db.runs.row id = some run →
      AttentionIsLive run) ↔
      ∀ step ∈ coordination.steps calls, ¬ Performs StrandsNotice step.1 step.2 := by
  have along := view_visited_iff (fun L => AxesConsistent L ∧ Explained L) CallsLive Strands
    StrandsNotice ⟨admitted_consistent, admitted_explained⟩
    (fun move L enabled h =>
      ⟨apply_consistent move L enabled h.1, apply_explained move L enabled h.2⟩)
    admitted_callsLive
    (fun move L enabled base live => apply_callsLive_iff move L enabled base.1 base.2 live)
    strands_moveOf_iff calls
  rw [← along]
  refine forall₂_congr fun db _ => forall₃_congr fun id run _ => forall_congr' fun axis => ?_
  rw [view_attention_iff]
  cases axis <;> rfl

/-- An operator gives up on a parked publication whose notice is still queued. -/
theorem given_up_attention_stays :
    ¬ ∀ db, coordination.Reachable db → ∀ id run, db.runs.row id = some run →
      AttentionIsLive run := by
  intro live
  let calls := byDefault (toDisconnected ++ onRun1 [.giveUpDisconnectedRun "no longer needed"])
  have stranded : ((coordination.run calls).runs.row "run-1").any (fun run =>
      run.publication.status = .failed
        && run.notices.any (isLiveAttention .publication)) = true := by
    decide
  simp only [Option.any_eq_true, Bool.and_eq_true, decide_eq_true_eq] at stranded
  obtain ⟨run, row, failed, raised⟩ := stranded
  have called : LiveAttention run .publication := (view_attention_iff run .publication).mp raised
  have disconnected := live _ ⟨calls, rfl⟩ "run-1" run row .publication called
  rw [Run.status, failed] at disconnected
  cases disconnected

end Notices
