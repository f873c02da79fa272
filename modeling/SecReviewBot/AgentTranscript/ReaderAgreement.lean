import SecReviewBot.Agents.TrajectoryRecords
import SecReviewBot.ControlPlaneUi.TrajectoryEvents

/-!
# Two readers of one contract

The runtime and the viewer validate records alike and keep the same books on a file. They part
where a message names its call `null`: the runtime reads that as no call, the viewer as a call
that was never started.
-/

namespace ReaderAgreement

open AgentTranscript JsonValues

/-- The two readers give the same answer, and it is the contract's. -/
structure Agree (lines : List Json) : Prop where
  same : ∀ events, TrajectoryRecords.parseTrajectoryJsonl lines = .ok events ↔
    TrajectoryEvents.readTrajectoryJsonl lines = .ok events
  runtime : (∃ events, TrajectoryRecords.parseTrajectoryJsonl lines = .ok events) ↔
    WellFormed namedCall lines
  viewer : (∃ events, TrajectoryEvents.readTrajectoryJsonl lines = .ok events) ↔
    WellFormed namedCall lines

/-- A message with a `null` call. -/
def Unnamed (event : Json) : Prop :=
  kind event = some .message ∧ event.member "call_id" = some .null

/-- Recording has started before a message with a `null` call. -/
def NullResponse (lines : List Json) : Prop :=
  ∃ before event after, lines = before ++ event :: after ∧ Opened before ∧ Unnamed event

variable {lines : List Json} {event : Json}

theorem nullResponse_snoc :
    NullResponse (lines ++ [event]) ↔ NullResponse lines ∨ (Opened lines ∧ Unnamed event) := by
  constructor
  · rintro ⟨before, found, after, whole, opened, unnamed⟩
    rcases List.eq_nil_or_concat after with rfl | ⟨rest, last, rfl⟩
    · obtain ⟨rfl, same⟩ := List.append_inj' whole rfl
      cases same
      exact .inr ⟨opened, unnamed⟩
    · have split : lines ++ [event] = (before ++ found :: rest) ++ [last] := by simpa using whole
      obtain ⟨rfl, -⟩ := List.append_inj' split rfl
      exact .inl ⟨before, found, rest, rfl, opened, unnamed⟩
  · rintro (⟨before, found, after, rfl, opened, unnamed⟩ | ⟨opened, unnamed⟩)
    · exact ⟨before, found, after ++ [event], by simp, opened, unnamed⟩
    · exact ⟨lines, event, [], rfl, opened, unnamed⟩

/-- No call of a file is named `null`. -/
theorem null_not_started (file : WellFormed namedCall lines) :
    .null ∉ callsOf .modelCallStart lines := by
  intro started
  obtain ⟨e, mem, null⟩ := List.mem_map.mp started
  obtain ⟨here, own⟩ := List.mem_filter.mp mem
  have fields := (file.valid e here).fields
  rw [of_decide_eq_true own, ValidFields, null] at fields
  cases fields

theorem admits_iff (file : WellFormed namedCall lines) (found : Option Kind)
    (own : kind event = found) :
    Admits TrajectoryEvents.definedCall lines event found ↔
      Admits namedCall lines event found ∧ ¬ (Opened lines ∧ Unnamed event) := by
  by_cases message : found = some .message
  · subst message
    rw [Admits, Admits, and_assoc]
    refine and_congr Iff.rfl ?_
    rw [Unnamed, own, TrajectoryEvents.definedCall, namedCall, callId, AgentTranscript.get]
    cases member : event.member "call_id" with
    | none => simp
    | some call =>
      by_cases null : call = .null
      · have missing := null_not_started file
        simp [null, missing]
      · simp [null]
  · have other : ¬ Unnamed event := fun unnamed => message (own ▸ unnamed.1)
    cases found with
    | none => simp [Admits]
    | some found =>
      cases found with
      | message => exact absurd rfl message
      | modelCallsStart | modelCallsEnd | modelCallStart | modelCallEnd => simp [Admits, other]

/-- What the viewer reads more narrowly than the contract. -/
theorem wellFormed_iff :
    WellFormed TrajectoryEvents.definedCall lines ↔
      WellFormed namedCall lines ∧ ¬ NullResponse lines := by
  induction lines using List.reverseRecOn with
  | nil =>
    constructor
    · intro _
      refine ⟨.nil, ?_⟩
      rintro ⟨before, found, after, whole, -⟩
      simp at whole
    · intro _
      exact .nil
  | append_singleton lines event ih =>
    rw [WellFormed.snoc_iff, WellFormed.snoc_iff, nullResponse_snoc, ih, not_or]
    constructor
    · rintro ⟨⟨file, none⟩, valid, follows⟩
      obtain ⟨admitted, named⟩ := (admits_iff file _ rfl).mp follows.admitted
      exact ⟨⟨file, valid, follows.unfinished, follows.ascends, admitted⟩, none, named⟩
    · rintro ⟨⟨file, valid, follows⟩, none, named⟩
      exact ⟨⟨file, none⟩, valid, follows.unfinished, follows.ascends,
        (admits_iff file _ rfl).mpr ⟨follows.admitted, named⟩⟩

/-- The readers agree on every list but the files in which a recorded message names `null`. -/
theorem readers_agree_iff (lines : List Json) :
    Agree lines ↔ ¬ (WellFormed namedCall lines ∧ NullResponse lines) := by
  have runtime : (∃ events, TrajectoryRecords.parseTrajectoryJsonl lines = .ok events) ↔
      WellFormed namedCall lines := by
    simp only [TrajectoryRecords.parseTrajectoryJsonl_ok, exists_and_left, exists_eq, and_true]
  have viewer : (∃ events, TrajectoryEvents.readTrajectoryJsonl lines = .ok events) ↔
      WellFormed namedCall lines ∧ ¬ NullResponse lines := by
    simp only [TrajectoryEvents.readTrajectoryJsonl_ok, exists_and_left, exists_eq, and_true,
      wellFormed_iff]
  constructor
  · rintro agree ⟨file, null⟩
    exact (viewer.mp (agree.viewer.mpr file)).2 null
  · intro named
    have same : WellFormed namedCall lines ∧ ¬ NullResponse lines ↔ WellFormed namedCall lines :=
      ⟨And.left, fun file => ⟨file, fun null => named ⟨file, null⟩⟩⟩
    refine ⟨fun events => ?_, runtime, viewer.trans same⟩
    rw [TrajectoryRecords.parseTrajectoryJsonl_ok, TrajectoryEvents.readTrajectoryJsonl_ok,
      wellFormed_iff, same]

/-- A recorded user message that says that no call made it. -/
def withNullCall : List Json :=
  [.obj [("seq", .num 1), ("event", .str "model_calls_start")],
    .obj [("seq", .num 2), ("event", .str "message"), ("call_id", .null),
      ("message", .obj [("id", .str "u1"), ("role", .str "user"), ("content", .str "Review.")])]]

theorem null_call_divides : ¬ Agree withNullCall := by
  intro agree
  have read : ∃ events, TrajectoryRecords.parseTrajectoryJsonl withNullCall = .ok events :=
    ⟨withNullCall, by decide⟩
  obtain ⟨events, viewed⟩ := agree.viewer.mpr (agree.runtime.mp read)
  have rejected : TrajectoryEvents.readTrajectoryJsonl withNullCall =
      .error TrajectoryEvents.invalid := by decide
  rw [rejected] at viewed
  cases viewed

end ReaderAgreement
