import SecReviewBot.ReviewRuns.CrossAxis

/-!
# A publication and its steps

While a publication is under way its status is meant to be the strongest of
its steps. The step writes re-derive it, a claim does not: a publication taken
over with a step in doubt becomes `publishing` again. `reflects_iff` says that
this is the only way the two come apart.
-/

namespace PublicationAxis

open KeyedTables ReviewRunsSchema ReviewRunsTransactions Coordination TransitionSystems
open RowEffects Lifecycles LifecycleView ActionMoves CrossAxis

theorem hasStep_iff {status : StepStatus} {steps : Table StepKey StepState} :
    hasStep status steps = true ↔ ∃ key s, steps.row key = some s ∧ s.status = status := by
  simp [hasStep, Table.any_iff]

theorem hasStep_put {steps : Table StepKey StepState} {key : StepKey} {s t : StepState}
    (row : steps.row key = some s) {status : StepStatus} (before : s.status ≠ status)
    (after : t.status ≠ status) : hasStep status (steps.put key t) = hasStep status steps := by
  rw [Bool.eq_iff_iff, hasStep_iff, hasStep_iff]
  constructor
  · rintro ⟨k, u, hu, status⟩
    by_cases hk : k = key
    · simp only [Table.put_row, hk, if_true, Option.some.injEq] at hu
      exact absurd (hu ▸ status) after
    · simp only [Table.put_row, hk, if_false] at hu
      exact ⟨k, u, hu, status⟩
  · rintro ⟨k, u, hu, status⟩
    have hk : k ≠ key := by
      rintro rfl
      rw [row] at hu
      exact before (Option.some.inj hu ▸ status)
    exact ⟨k, u, by simp [hk, hu], status⟩

theorem hasStep_put_keeps {steps : Table StepKey StepState} {key : StepKey} {s : StepState}
    (row : steps.row key = some s) {status : StepStatus} (other : s.status ≠ status)
    (h : hasStep status steps = true) (t : StepState) :
    hasStep status (steps.put key t) = true := by
  rw [hasStep_iff] at h ⊢
  obtain ⟨k, u, hu, hstatus⟩ := h
  have hk : k ≠ key := by
    rintro rfl
    rw [row] at hu
    exact other (Option.some.inj hu ▸ hstatus)
  exact ⟨k, u, by simp [hk, hu], hstatus⟩

theorem applies_not_disconnected {revision : Revision} {s : StepState}
    (applies : revision.Applies s) : s.status ≠ .disconnected := by
  cases revision with
  | doubt => rcases applies.2 with h | h | h <;> simp [h]
  | settle found => simp [applies.2]
  | fail retry => rcases applies with h | h <;> simp [h]

/-- Fresh steps are pending, so they answer no question about doubt. -/
theorem hasStep_initialize {status : StepStatus} (doubt : status ≠ .pending)
    (keys : List StepKey) (steps : Table StepKey StepState)
    (absent : hasStep status steps = false) :
    hasStep status (keys.foldl (fun t key => t.put key StepState.fresh) steps) = false := by
  induction keys generalizing steps with
  | nil => exact absent
  | cons key rest ih =>
    apply ih
    simp only [hasStep, Table.not_any_iff] at absent ⊢
    intro k s hs
    by_cases hk : k = key
    · simp only [Table.put_row, hk, if_true, Option.some.injEq] at hs
      simp [← hs, StepState.fresh, doubt.symm]
    · simp only [Table.put_row, hk, if_false] at hs
      exact absent k s hs

theorem hasStep_of_empty {steps : Table StepKey StepState} (empty : steps.keys = [])
    (status : StepStatus) : hasStep status steps = false := by
  simp [hasStep, Table.any, empty]

/-- The effect of a move on the publication and on the steps in doubt. -/
inductive PublicationChange (move : Move) (L next : Lifecycle) : Prop where
  | unchanged (publication : next.publication = L.publication) (steps : next.steps = L.steps)
  | still (publication : next.publication = L.publication)
      (closed : L.publication.inFlight = false)
  | ended (publication : next.publication = .skipped ∨ next.publication = .failed)
  | published (made : move = .publish) (publication : next.publication = .published)
  | queued (made : move = .resumePublication ∨ ∃ code, move = .failPublication true code)
      (publication : next.publication = .pending)
  | progressed (publication : next.publication = L.publication)
      (doubt : ∀ status, status = .uncertain ∨ status = .disconnected →
        hasStep status next.steps = hasStep status L.steps)
  | rederived (before : L.publication.inFlight = true)
      (publication : next.publication = strongest next.steps)

theorem derive_change (move : Move) (L : Lifecycle) {next : Lifecycle}
    (publication : next.publication = L.publication) : PublicationChange move L next.derive := by
  by_cases inFlight : L.publication.inFlight = true
  · apply PublicationChange.rederived inFlight
    rw [Lifecycle.derive_publication, Lifecycle.derive_steps, publication, if_pos inFlight]
  · apply PublicationChange.still
    · rw [Lifecycle.derive_publication, publication, if_neg inFlight]
    · simpa using inFlight

theorem abandon_change (move : Move) (L : Lifecycle) {next : Lifecycle}
    (publication : next.publication = L.publication) (steps : next.steps = L.steps) :
    PublicationChange move L next.abandon := by
  by_cases waiting : next.publication = .pending ∨ next.publication = .publishing
  · apply PublicationChange.ended
    rw [Lifecycle.abandon_publication, if_pos waiting]
    exact .inl rfl
  · apply PublicationChange.unchanged
    · rw [Lifecycle.abandon_publication, if_neg waiting, publication]
    · rw [Lifecycle.abandon_steps, steps]

/-- A step that was not in doubt and still is not. -/
theorem reviseStep_change (move : Move) (L : Lifecycle) {key : StepKey} {s : StepState}
    (row : L.steps.row key = some s) {f : StepState → StepState}
    (before : s.status ≠ .uncertain ∧ s.status ≠ .disconnected)
    (after : (f s).status ≠ .uncertain ∧ (f s).status ≠ .disconnected) :
    PublicationChange move L (L.reviseStep key f) := by
  apply PublicationChange.progressed (Lifecycle.reviseStep_publication L key f)
  intro status doubt
  rw [L.reviseStep_steps row]
  rcases doubt with rfl | rfl
  · exact hasStep_put row before.1 after.1
  · exact hasStep_put row before.2 after.2

theorem apply_publication (move : Move) (L : Lifecycle) (enabled : move.Enabled L)
    (other : move ≠ .takePublication) : PublicationChange move L (move.apply L) := by
  cases move with
  | takePublication => exact absurd rfl other
  | endUnsubmitted code => exact abandon_change _ L rfl rfl
  | endParkedPreparation code stop =>
    cases stop with
    | false => exact abandon_change _ L rfl rfl
    | true =>
      apply abandon_change _ L
      · simp only [if_true, Move.stopExecution]
        split <;> rfl
      · simp only [if_true, Move.stopExecution]
        split <;> rfl
  | failExecution code => exact abandon_change _ L rfl rfl
  | giveUpExecution => exact abandon_change _ L rfl rfl
  | publish => exact .published rfl rfl
  | failPublication retry code =>
    cases retry with
    | false => exact .ended (.inr rfl)
    | true => exact .queued (.inr ⟨code, rfl⟩) rfl
  | initializeSteps keys =>
    refine .progressed rfl ?_
    intro status doubt
    have none := hasStep_of_empty enabled.2 status
    rw [none]
    exact hasStep_initialize (by rcases doubt with rfl | rfl <;> simp) keys L.steps none
  | grantStep key =>
    obtain ⟨-, s, row, -, status⟩ := enabled
    refine reviseStep_change _ L row ?_ (by simp [StepState.grant])
    rcases status with h | h | h <;> simp [h]
  | completeStep key =>
    obtain ⟨-, s, row, running⟩ := enabled
    exact reviseStep_change _ L row (by simp [running]) (by simp [StepState.complete])
  | reviseStep key revision => exact derive_change _ L (L.reviseStep_publication key _)
  | endAtStep key code => exact .ended (.inr rfl)
  | rederive => exact derive_change _ L rfl
  | resumePublication => exact .queued (.inl rfl) rfl
  | giveUpPublication => exact .ended (.inr rfl)
  | _ => exact .unchanged rfl rfl

/-- What matters for a publication under way: it stays in its state with the
same doubt, it is derived from its steps, or it is under way no more. -/
theorem PublicationChange.inFlight {move : Move} {L next : Lifecycle}
    (h : PublicationChange move L next) :
    next.publication.inFlight = false ∨
      (next.publication = L.publication ∧
        ∀ status, status = .uncertain ∨ status = .disconnected →
          hasStep status next.steps = hasStep status L.steps) ∨
      next.publication = strongest next.steps := by
  cases h with
  | unchanged publication steps => exact .inr (.inl ⟨publication, fun _ _ => by rw [steps]⟩)
  | still publication closed => exact .inl (publication ▸ closed)
  | ended publication =>
    left
    rcases publication with h | h <;> rw [h] <;> rfl
  | published made publication =>
    left
    rw [publication]
    rfl
  | queued made publication =>
    left
    rw [publication]
    rfl
  | progressed publication doubt => exact .inr (.inl ⟨publication, doubt⟩)
  | rederived before publication => exact .inr (.inr publication)

theorem published_cases {move : Move} {L : Lifecycle} (enabled : move.Enabled L)
    (published : (move.apply L).publication = .published) :
    move = .publish ∨ L.publication = .published := by
  by_cases taken : move = .takePublication
  · subst taken
    cases published
  cases apply_publication move L enabled taken with
  | unchanged publication steps => exact .inr (publication ▸ published)
  | still publication closed => exact .inr (publication ▸ published)
  | ended publication => rcases publication with h | h <;> simp [h] at published
  | published made publication => exact .inl made
  | queued made publication => simp [publication] at published
  | progressed publication doubt => exact .inr (publication ▸ published)
  | rederived before publication =>
    rcases Lifecycle.strongest_cases (move.apply L).steps with h | h | h <;>
      simp [publication, h] at published

theorem pending_cases {move : Move} {L : Lifecycle} (enabled : move.Enabled L)
    (pending : (move.apply L).publication = .pending) :
    L.publication = .pending ∨ move = .resumePublication ∨
      ∃ code, move = .failPublication true code := by
  by_cases taken : move = .takePublication
  · subst taken
    cases pending
  cases apply_publication move L enabled taken with
  | unchanged publication steps => exact .inl (publication ▸ pending)
  | still publication closed => exact .inl (publication ▸ pending)
  | ended publication => rcases publication with h | h <;> simp [h] at pending
  | published made publication => simp [publication] at pending
  | queued made publication => exact .inr made
  | progressed publication doubt => exact .inl (publication ▸ pending)
  | rederived before publication =>
    rcases Lifecycle.strongest_cases (move.apply L).steps with h | h | h <;>
      simp [publication, h] at pending

/-- Doubt on the axis comes from a step, and a parked step never hides behind
work in progress. -/
structure Explained (L : Lifecycle) : Prop where
  uncertain : L.publication = .uncertain → hasStep .uncertain L.steps = true
  disconnected : L.publication = .disconnected → hasStep .disconnected L.steps = true
  unparked : L.publication = .publishing ∨ L.publication = .uncertain →
    hasStep .disconnected L.steps = false

theorem explained_of_left {L : Lifecycle} (h : L.publication.inFlight = false) :
    Explained L := by
  constructor
  · intro hp
    simp [hp, PublicationStatus.inFlight] at h
  · intro hp
    simp [hp, PublicationStatus.inFlight] at h
  · rintro (hp | hp) <;> simp [hp, PublicationStatus.inFlight] at h

theorem explained_of_strongest {L : Lifecycle} (h : L.publication = strongest L.steps) :
    Explained L := by
  cases disconnected : hasStep .disconnected L.steps <;>
    cases uncertain : hasStep .uncertain L.steps <;>
      constructor <;> simp_all [strongest]

theorem apply_explained (move : Move) (L : Lifecycle) (enabled : move.Enabled L)
    (h : Explained L) : Explained (move.apply L) := by
  by_cases taken : move = .takePublication
  · subst taken
    have unparked : hasStep .disconnected L.steps = false := enabled.2.1
    constructor <;> simp [Move.apply, unparked]
  · rcases (apply_publication move L enabled taken).inFlight with left | ⟨hb, hs⟩ | hb
    · exact explained_of_left left
    · constructor
      · rw [hb, hs _ (.inl rfl)]
        exact h.uncertain
      · rw [hb, hs _ (.inr rfl)]
        exact h.disconnected
      · rw [hb, hs _ (.inr rfl)]
        exact h.unparked
    · exact explained_of_strongest hb

theorem admitted_explained : Explained admitted := explained_of_left rfl

/-- A publication whose steps all succeeded is in no doubt. -/
theorem publish_from_publishing {L : Lifecycle} (enabled : Move.publish.Enabled L)
    (h : Explained L) : L.publication = .publishing := by
  obtain ⟨inFlight, succeeded⟩ := enabled
  have settled : ∀ status, status ≠ .succeeded → hasStep status L.steps = false := by
    intro status other
    rw [← Bool.not_eq_true, hasStep_iff]
    rintro ⟨key, s, row, hs⟩
    exact other (hs ▸ succeeded key s row)
  rcases inFlight_cases inFlight with hb | hb | hb
  · exact hb
  · have := h.uncertain hb
    simp [settled .uncertain (by simp)] at this
  · have := h.disconnected hb
    simp [settled .disconnected (by simp)] at this

def Reflects (L : Lifecycle) : Prop :=
  L.publication.inFlight = true → L.publication = strongest L.steps

theorem apply_reflects_iff (move : Move) (L : Lifecycle) (enabled : move.Enabled L)
    (h : Reflects L) : Reflects (move.apply L) ↔
      ¬ (move = .takePublication ∧ hasStep .uncertain L.steps = true) := by
  by_cases taken : move = .takePublication
  · subst taken
    have unparked : hasStep .disconnected L.steps = false := enabled.2.1
    cases doubt : hasStep .uncertain L.steps <;>
      simp [Reflects, Move.apply, strongest, unparked, doubt, PublicationStatus.inFlight]
  · simp only [taken, false_and, not_false_eq_true, iff_true]
    intro inFlight
    rcases (apply_publication move L enabled taken).inFlight with left | ⟨hb, hs⟩ | hb
    · simp [left] at inFlight
    · have before := h (hb ▸ inFlight)
      rw [hb, before]
      simp only [strongest, hs _ (.inl rfl), hs _ (.inr rfl)]
    · exact hb

def SomeStep (run : Run) (status : StepStatus) : Prop :=
  ∃ key s, run.steps.row key = some s ∧ s.status = status

theorem hasStep_view_iff (run : Run) (status : StepStatus) :
    hasStep status (view run).steps = true ↔ SomeStep run status := by
  simp [hasStep_view, PublicationStore.hasStep, Table.any_iff, SomeStep]

/-- A publication under way is disconnected exactly when some step is, uncertain
exactly when no step is disconnected and some step is uncertain, and publishing
otherwise. -/
def ReflectsStrongestStep (run : Run) : Prop :=
  run.publication.status.inFlight = true →
    (run.publication.status = .disconnected ↔ SomeStep run .disconnected) ∧
    (run.publication.status = .uncertain ↔
      ¬ SomeStep run .disconnected ∧ SomeStep run .uncertain) ∧
    (run.publication.status = .publishing ↔
      ¬ SomeStep run .disconnected ∧ ¬ SomeStep run .uncertain)

theorem reflects_view_iff (run : Run) : Reflects (view run) ↔ ReflectsStrongestStep run := by
  have status : (view run).publication = run.publication.status := rfl
  unfold Reflects ReflectsStrongestStep
  rw [status]
  refine imp_congr_right fun inFlight => ?_
  rw [← hasStep_view_iff, ← hasStep_view_iff]
  cases disconnected : hasStep .disconnected (view run).steps <;>
    cases uncertain : hasStep .uncertain (view run).steps <;>
      rcases inFlight_cases inFlight with h | h | h <;>
        simp [strongest, disconnected, uncertain, h]

theorem moveOf_takePublication (store : Store) (tx : Tx) (action : RunAction) :
    moveOf store tx action = .takePublication ↔
      action = .claimPublication ∧
        PublicationClaimStore.claimable store tx.now tx.run = true := by
  cases action
  case claimPublication => simp [moveOf]
  all_goals
    simp only [moveOf, expiryMove, failPreparationMove, refusedClaimMove, reduceCtorEq,
      false_and, iff_false]
    try split_ifs
    all_goals simp

/-- A claim that takes a publication one of whose steps is in doubt. -/
def ClaimsInDoubt (store : Store) (now : Timestamp) (action : RunAction) (run : Run) : Prop :=
  action = .claimPublication ∧ PublicationClaimStore.claimable store now run = true ∧
    SomeStep run .uncertain

/-- Along every run of the system, the publication axis reflects its strongest
step in every state exactly when no claim, by id or by polling, takes a
publication with a step in doubt. -/
theorem reflects_strongest_step_iff (calls : List Call) :
    (∀ db ∈ coordination.visited calls, ∀ id run, db.runs.row id = some run →
      ReflectsStrongestStep run) ↔
      ∀ step ∈ coordination.steps calls, ¬ Performs ClaimsInDoubt step.1 step.2 := by
  have admitted_reflects : Reflects admitted := by
    intro inFlight
    cases inFlight
  have decides : ∀ store action (tx : Tx), ClaimsInDoubt store tx.now action tx.run ↔
      moveOf store tx action = .takePublication ∧
        hasStep .uncertain (view tx.run).steps = true := by
    intro store action tx
    rw [moveOf_takePublication, hasStep_view_iff, ClaimsInDoubt, and_assoc]
  have along := view_visited_iff (fun _ => True) Reflects
    (fun move L => move = .takePublication ∧ hasStep .uncertain L.steps = true) ClaimsInDoubt
    trivial (fun _ _ _ _ => trivial) admitted_reflects
    (fun move L enabled _ h => apply_reflects_iff move L enabled h) decides calls
  simpa only [reflects_view_iff] using along

/-- Once the lease of a publisher with a step in doubt has lapsed, the next claim
calls the publication `publishing`. -/
theorem takeover_hides_doubt :
    ¬ ∀ db, coordination.Reachable db → ∀ id run, db.runs.row id = some run →
      ReflectsStrongestStep run := by
  intro reflects
  let calls := byDefault (toUncertain ++ [.advance 600000, .onRun "run-1" .claimPublication])
  have taken : ((coordination.run calls).runs.row "run-1").any (fun run =>
      run.publication.status = .publishing
        && (run.steps.row summaryStep).any fun s => s.status = .uncertain) = true := by
    decide
  simp only [Option.any_eq_true, Bool.and_eq_true, decide_eq_true_eq] at taken
  obtain ⟨run, row, publishing, s, step, uncertain⟩ := taken
  have inFlight : run.publication.status.inFlight = true := by
    rw [publishing]
    rfl
  have settled := (reflects _ ⟨calls, rfl⟩ "run-1" run row inFlight).2.2.mp publishing
  exact settled.2 ⟨summaryStep, s, step, uncertain⟩

end PublicationAxis
