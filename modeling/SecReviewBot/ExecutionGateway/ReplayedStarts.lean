import SecReviewBot.ExecutionGateway.TemporalExecutions

/-!
# Replayed starts

However the calls for a run interleave, and whatever fails in between, the run has one workflow.
A call that is answered has asked for the same request as the call that created it, and a call
that conflicts has asked for another. The memo of the workflow carries the proof: it is the
creator's and never changes.
-/

namespace ReplayedStarts

open JsonValues Fingerprints TemporalExecutions TransitionSystems

variable {client : Client} {w t u : World} {requests : List ExecutionWorkflowInput}
  {request : ExecutionWorkflowInput} {call : Call}

/-- Workflows stay, with their memos. -/
def Kept (w t : World) : Prop :=
  ∀ runId e, w.executions runId = some e → ∃ e', t.executions runId = some e' ∧ e'.memo = e.memo

theorem kept_refl (w : World) : Kept w w := fun _ e held => ⟨e, held, rfl⟩

theorem Kept.trans (first : Kept w t) (second : Kept t u) : Kept w u := by
  intro runId e held
  obtain ⟨e', later, memo⟩ := first runId e held
  obtain ⟨e'', latest, same⟩ := second runId e' later
  exact ⟨e'', latest, same.trans memo⟩

/-- Every workflow was created once, for one of the requests. -/
structure Grounded (client : Client) (requests : List ExecutionWorkflowInput) (w : World) :
    Prop where
  nodup : w.created.Nodup
  listed : ∀ runId, runId ∈ w.created ↔ (w.executions runId).isSome = true
  origin : ∀ runId e, w.executions runId = some e →
    ∃ request ∈ requests, request.runId = runId ∧ e.memo = memoOf client request

def Recognises (client : Client) (request : ExecutionWorkflowInput) (e : Execution) : Prop :=
  e.memo.member "request_fingerprint" = some (.str (fingerprint client.platform request))

theorem memoOf_fingerprint (client : Client) (request : ExecutionWorkflowInput) :
    (memoOf client request).member "request_fingerprint" =
      some (.str (fingerprint client.platform request)) := by
  simp [memoOf, Json.member, List.lookup_cons]

/-- What is known of the run of a call by its phase. -/
def CallSound (client : Client) (w : World) (request : ExecutionWorkflowInput) : Phase → Prop
  | .starting | .raised => True
  | .refused => ∃ e, w.executions request.runId = some e
  | .compared existing => existing.isSome = true ∧ ∃ e, w.executions request.runId = some e
  | .started | .returned _ => ∃ e, w.executions request.runId = some e ∧
    Recognises client request e
  | .conflicts _ _ => ∃ e, w.executions request.runId = some e ∧ ¬ Recognises client request e

theorem CallSound.kept {phase : Phase} (sound : CallSound client w request phase)
    (kept : Kept w t) : CallSound client t request phase := by
  cases phase with
  | starting => trivial
  | raised => trivial
  | refused =>
    obtain ⟨e, held⟩ := sound
    obtain ⟨e', later, -⟩ := kept _ e held
    exact ⟨e', later⟩
  | compared existing =>
    obtain ⟨found, e, held⟩ := sound
    obtain ⟨e', later, -⟩ := kept _ e held
    exact ⟨found, e', later⟩
  | started | returned record =>
    obtain ⟨e, held, own⟩ := sound
    obtain ⟨e', later, memo⟩ := kept _ e held
    refine ⟨e', later, ?_⟩
    rw [Recognises, memo]
    exact own
  | conflicts requested existing =>
    obtain ⟨e, held, other⟩ := sound
    obtain ⟨e', later, memo⟩ := kept _ e held
    refine ⟨e', later, ?_⟩
    rw [Recognises, memo]
    exact other

/-- What holds in every state. -/
structure Sound (client : Client) (w : World) : Prop where
  grounded : Grounded client (w.calls.map Call.request) w
  calls : ∀ call ∈ w.calls, CallSound client w call.request call.phase

theorem create_taken {e : Execution} (taken : w.executions request.runId = some e) :
    w.create client request = w := by
  simp only [World.create, taken]

theorem create_free (free : w.executions request.runId = none) :
    w.create client request =
      { w with
        executions := Function.update w.executions request.runId
          (some ⟨memoOf client request, .text "RUNNING", []⟩)
        created := w.created ++ [request.runId] } := by
  simp only [World.create, free]

theorem kept_create (w : World) (client : Client) (request : ExecutionWorkflowInput) :
    Kept w (w.create client request) := by
  cases taken : w.executions request.runId with
  | some e =>
    rw [create_taken taken]
    exact kept_refl w
  | none =>
    intro runId e held
    refine ⟨e, ?_, rfl⟩
    rw [create_free taken]
    have other : runId ≠ request.runId := by
      rintro rfl
      rw [taken] at held
      cases held
    exact (Function.update_of_ne other _ _).trans held

theorem Grounded.create (grounded : Grounded client requests w) (asked : request ∈ requests) :
    Grounded client requests (w.create client request) := by
  cases taken : w.executions request.runId with
  | some e =>
    rw [create_taken taken]
    exact grounded
  | none =>
    rw [create_free taken]
    have fresh : request.runId ∉ w.created := by
      rw [grounded.listed, taken]
      exact Bool.false_ne_true
    constructor
    · refine List.nodup_append.mpr ⟨grounded.nodup, List.nodup_singleton _, ?_⟩
      rintro runId mem other isNew rfl
      rw [List.mem_singleton.mp isNew] at mem
      exact fresh mem
    · intro runId
      by_cases own : runId = request.runId
      · subst own
        simp
      · simp [own, grounded.listed]
    · intro runId e held
      by_cases own : runId = request.runId
      · subst own
        simp only [Function.update_self, Option.some.injEq] at held
        subst held
        exact ⟨request, asked, rfl, rfl⟩
      · simp only [Function.update_of_ne own] at held
        exact grounded.origin runId e held

theorem create_recognised (free : w.executions request.runId = none) :
    ∃ e, (w.create client request).executions request.runId = some e ∧
      Recognises client request e := by
  rw [create_free free]
  exact ⟨_, Function.update_self _ _ _, memoOf_fingerprint client request⟩

theorem kept_startWorkflow (w : World) (client : Client) (call : Call) :
    Kept w (w.startWorkflow client call) := by
  rw [World.startWorkflow]
  split
  · exact kept_create w client call.request
  · exact kept_refl w

theorem Grounded.startWorkflow (grounded : Grounded client requests w)
    (asked : call.request ∈ requests) : Grounded client requests (w.startWorkflow client call) := by
  rw [World.startWorkflow]
  split
  · exact grounded.create asked
  · exact grounded

/-- A workflow that is written over keeps its memo. -/
theorem kept_update {runId : String} {e e' : Execution} (held : w.executions runId = some e)
    (memo : e'.memo = e.memo) :
    Kept w { w with executions := Function.update w.executions runId (some e') } := by
  intro other known found
  by_cases own : other = runId
  · subst own
    rw [held] at found
    cases found
    exact ⟨e', Function.update_self _ _ _, memo⟩
  · exact ⟨known, (Function.update_of_ne own _ _).trans found, rfl⟩

theorem Grounded.update {runId : String} {e e' : Execution} (grounded : Grounded client requests w)
    (held : w.executions runId = some e) (memo : e'.memo = e.memo) :
    Grounded client requests
      { w with executions := Function.update w.executions runId (some e') } := by
  refine ⟨grounded.nodup, fun other => ?_, fun other known found => ?_⟩
  · by_cases own : other = runId
    · subst own
      simp [grounded.listed, held]
    · simp [own, grounded.listed]
  · by_cases own : other = runId
    · subst own
      simp only [Function.update_self, Option.some.injEq] at found
      subst found
      rw [memo]
      exact grounded.origin other e held
    · simp only [Function.update_of_ne own] at found
      exact grounded.origin other known found

/-- The phase a call goes on to is right for the state its answer leaves. -/
theorem nextPhase_sound {phase : Phase} (sound : CallSound client w request phase) :
    CallSound client (w.startWorkflow client ⟨request, phase⟩) request
      (nextPhase client w request phase) := by
  have kept := kept_startWorkflow w client ⟨request, phase⟩
  cases phase with
  | starting =>
    rw [nextPhase]
    split
    · rename_i taken
      obtain ⟨e, held⟩ := Option.isSome_iff_exists.mp taken
      have refused : CallSound client w request .refused := ⟨e, held⟩
      exact refused.kept kept
    · rename_i free
      rw [Option.not_isSome_iff_eq_none] at free
      exact create_recognised free
  | refused =>
    obtain ⟨e, held⟩ := sound
    rw [nextPhase, held]
    exact ⟨rfl, e, held⟩
  | compared existing =>
    obtain ⟨found, e, held⟩ := sound
    obtain ⟨record, rfl⟩ := Option.isSome_iff_exists.mp found
    simp only [nextPhase, held]
    split
    · rename_i own
      exact ⟨e, held, own⟩
    · rename_i other
      exact ⟨e, held, other⟩
  | started => exact sound
  | returned record => exact sound
  | conflicts requested existing => exact sound
  | raised => trivial

/-- One call moves on; the requests stay what they were. -/
theorem requests_setCall {i : Nat} {phase : Phase} (own : w.calls[i]? = some call)
    (same : t.calls = w.calls) :
    (t.setCall i { call with phase := phase }).calls.map Call.request =
      w.calls.map Call.request := by
  refine List.ext_getElem? fun j => ?_
  simp only [World.setCall, same, List.getElem?_map, List.getElem?_set]
  by_cases here : i = j
  · subst here
    obtain ⟨bound, found⟩ := List.getElem?_eq_some_iff.mp own
    simp [bound, found]
  · simp [here]

theorem startWorkflow_calls (w : World) (client : Client) (call : Call) :
    (w.startWorkflow client call).calls = w.calls := by
  rw [World.startWorkflow]
  split
  · rw [World.create]
    split <;> rfl
  · rfl

/-- A call that moves on to a right phase keeps the invariant. -/
theorem Sound.setCall (sound : Sound client w) {i : Nat} {phase : Phase}
    (own : w.calls[i]? = some call) (same : t.calls = w.calls) (kept : Kept w t)
    (grounded : Grounded client (w.calls.map Call.request) t)
    (next : CallSound client t call.request phase) :
    Sound client (t.setCall i { call with phase := phase }) := by
  refine ⟨?_, fun other mem => ?_⟩
  · rw [requests_setCall own same]
    exact ⟨grounded.nodup, grounded.listed, grounded.origin⟩
  · have listed : other ∈ t.calls.set i { call with phase := phase } := mem
    rcases List.mem_or_eq_of_mem_set listed with before | rfl
    · rw [same] at before
      exact (sound.calls other before).kept kept
    · exact next

theorem sound_step (client : Client) (w : World) (input : Input) (sound : Sound client w) :
    Sound client (step client w input) := by
  cases input with
  | call request =>
    refine ⟨⟨sound.grounded.nodup, sound.grounded.listed, fun runId e held => ?_⟩,
      fun other mem => ?_⟩
    · obtain ⟨creator, asked, rest⟩ := sound.grounded.origin runId e held
      refine ⟨creator, ?_, rest⟩
      rw [step, List.map_append]
      exact List.mem_append_left _ asked
    · rcases List.mem_append.mp mem with before | isNew
      · exact sound.calls other before
      · rw [List.mem_singleton.mp isNew]
        trivial
  | answer i =>
    rw [step]
    cases own : w.calls[i]? with
    | none => exact sound
    | some call =>
      have mem := List.mem_of_getElem? own
      exact sound.setCall own (startWorkflow_calls w client call)
        (kept_startWorkflow w client call)
        (sound.grounded.startWorkflow (List.mem_map_of_mem mem))
        (nextPhase_sound (sound.calls call mem))
  | fail i tookEffect =>
    rw [step]
    cases own : w.calls[i]? with
    | none => exact sound
    | some call =>
      dsimp only
      split
      · exact sound
      · have mem := List.mem_of_getElem? own
        cases tookEffect with
        | true =>
          exact sound.setCall own (startWorkflow_calls w client call)
            (kept_startWorkflow w client call)
            (sound.grounded.startWorkflow (List.mem_map_of_mem mem)) trivial
        | false => exact sound.setCall own rfl (kept_refl w) sound.grounded trivial
  | progress runId status response =>
    rw [step]
    cases held : w.executions runId with
    | none => exact sound
    | some execution =>
      exact ⟨sound.grounded.update held rfl,
        fun call mem => (sound.calls call mem).kept (kept_update held rfl)⟩

theorem kept_step (client : Client) (w : World) (input : Input) : Kept w (step client w input) := by
  cases input with
  | call request => exact kept_refl w
  | answer i =>
    rw [step]
    cases own : w.calls[i]? with
    | none => exact kept_refl w
    | some call => exact kept_startWorkflow w client call
  | fail i tookEffect =>
    rw [step]
    cases own : w.calls[i]? with
    | none => exact kept_refl w
    | some call =>
      dsimp only
      split
      · exact kept_refl w
      · cases tookEffect with
        | true => exact kept_startWorkflow w client call
        | false => exact kept_refl w
  | progress runId status response =>
    rw [step]
    cases held : w.executions runId with
    | none => exact kept_refl w
    | some execution => exact kept_update held rfl

theorem kept_runFrom (client : Client) (w : World) (inputs : List Input) :
    Kept w ((gateway client).runFrom w inputs) := by
  have preserved : ∀ t input, Kept w t → Kept w ((gateway client).step t input) :=
    fun t input kept => kept.trans (kept_step client t input)
  exact (gateway client).runFrom_invariant preserved (kept_refl w) inputs

/-- The request that an input brings. -/
def asked : Input → List ExecutionWorkflowInput
  | .call request => [request]
  | .answer _ | .fail _ _ | .progress _ _ _ => []

theorem requests_step (client : Client) (w : World) (input : Input) :
    (step client w input).calls.map Call.request = w.calls.map Call.request ++ asked input := by
  cases input with
  | call request => rw [step, List.map_append, asked, List.map_singleton]
  | answer i =>
    rw [step, asked, List.append_nil]
    cases own : w.calls[i]? with
    | none => rfl
    | some call => exact requests_setCall own (startWorkflow_calls w client call)
  | fail i tookEffect =>
    rw [step, asked, List.append_nil]
    cases own : w.calls[i]? with
    | none => rfl
    | some call =>
      dsimp only
      split
      · rfl
      · cases tookEffect with
        | true => exact requests_setCall own (startWorkflow_calls w client call)
        | false => exact requests_setCall own rfl
  | progress runId status response =>
    rw [step, asked, List.append_nil]
    cases w.executions runId <;> rfl

theorem requests_run (client : Client) (inputs : List Input) :
    ((gateway client).run inputs).calls.map Call.request = inputs.flatMap asked := by
  induction inputs using List.reverseRecOn with
  | nil => rfl
  | append_singleton inputs input ih =>
    rw [System.run_concat, List.flatMap_append, List.flatMap_singleton, ← ih]
    exact requests_step client _ input

theorem sound_run (client : Client) (inputs : List Input) :
    Sound client ((gateway client).run inputs) := by
  have preserved : ∀ w input, Sound client w → Sound client ((gateway client).step w input) :=
    sound_step client
  refine (gateway client).runFrom_invariant preserved ?_ inputs
  refine ⟨⟨List.nodup_nil, fun runId => ?_, fun runId e held => ?_⟩, fun call mem => ?_⟩
  · constructor
    · intro mem
      cases mem
    · intro held
      cases held
  · cases held
  · cases mem

/-- Every call of the run that returned asked for what the creator asked for, and every call that
conflicted did not. -/
structure Binds (client : Client) (w : World) (creator : ExecutionWorkflowInput) : Prop where
  returned : ∀ call ∈ w.calls, call.request.runId = creator.runId →
    ∀ record, call.phase = .returned record →
      SameRequest client.platform.collation creator call.request
  conflicts : ∀ call ∈ w.calls, call.request.runId = creator.runId →
    ∀ requested existing, call.phase = .conflicts requested existing →
      ¬ SameRequest client.platform.collation creator call.request

/-- The call has its answer: a record or a conflict. -/
def isAnswered : Phase → Bool
  | .returned _ | .conflicts .. => true
  | _ => false

theorem recognises_iff (collisionFree : Function.Injective client.platform.sha256)
    {creator : ExecutionWorkflowInput} {e : Execution} (memo : e.memo = memoOf client creator)
    (first : Parsed creator) (second : Parsed request) :
    Recognises client request e ↔ SameRequest client.platform.collation creator request := by
  rw [Recognises, memo, memoOf_fingerprint, Option.some.injEq, Json.str.injEq]
  exact fingerprint_same collisionFree first second

/-- An answered call has its run's workflow. -/
theorem CallSound.answered {phase : Phase} (sound : CallSound client w request phase)
    (answered : isAnswered phase = true) : (w.executions request.runId).isSome = true := by
  cases phase with
  | returned record | conflicts requested existing =>
    obtain ⟨e, held, -⟩ := sound
    rw [held]
    rfl
  | starting | refused | compared existing | started | raised => cases answered

/-- The memo of a run's workflow decides what each of its calls is told. -/
theorem Sound.binds (sound : Sound client w)
    (collisionFree : Function.Injective client.platform.sha256)
    (parsed : ∀ request ∈ w.calls.map Call.request, Parsed request)
    {creator : ExecutionWorkflowInput} {e : Execution} (first : Parsed creator)
    (held : w.executions creator.runId = some e) (memo : e.memo = memoOf client creator) :
    Binds client w creator := by
  refine ⟨fun call mem same record phase => ?_, fun call mem same requested existing phase => ?_⟩
  · have known := sound.calls call mem
    rw [phase] at known
    obtain ⟨e', here, recognised⟩ := known
    rw [same, held] at here
    cases here
    have second := parsed call.request (List.mem_map_of_mem mem)
    exact (recognises_iff collisionFree memo first second).mp recognised
  · have known := sound.calls call mem
    rw [phase] at known
    obtain ⟨e', here, unrecognised⟩ := known
    rw [same, held] at here
    cases here
    have second := parsed call.request (List.mem_map_of_mem mem)
    exact fun alike => unrecognised ((recognises_iff collisionFree memo first second).mpr alike)

/-- One workflow for a run, whose memo decides for good which requests it answers. -/
theorem one_execution_for_a_run (client : Client)
    (collisionFree : Function.Injective client.platform.sha256) (inputs : List Input)
    (parsed : ∀ request ∈ inputs.flatMap asked, Parsed request) :
    ((gateway client).run inputs).created.Nodup ∧
      (∀ call ∈ ((gateway client).run inputs).calls, isAnswered call.phase = true →
        call.request.runId ∈ ((gateway client).run inputs).created) ∧
      ∀ runId ∈ ((gateway client).run inputs).created, ∃ creator ∈ inputs.flatMap asked,
        creator.runId = runId ∧ Binds client ((gateway client).run inputs) creator ∧
          ∀ later, ∃ e,
            ((gateway client).runFrom ((gateway client).run inputs) later).executions runId =
              some e ∧ e.memo = memoOf client creator := by
  have sound := sound_run client inputs
  have requests := requests_run client inputs
  refine ⟨sound.grounded.nodup, fun call mem answered => ?_, fun runId created => ?_⟩
  · rw [sound.grounded.listed]
    exact (sound.calls call mem).answered answered
  · obtain ⟨e, held⟩ := Option.isSome_iff_exists.mp ((sound.grounded.listed runId).mp created)
    obtain ⟨creator, own, rfl, memo⟩ := sound.grounded.origin runId e held
    rw [requests] at own
    rw [← requests] at parsed
    have first : Parsed creator := parsed creator (requests ▸ own)
    refine ⟨creator, own, rfl, sound.binds collisionFree parsed first held memo, fun later => ?_⟩
    obtain ⟨e', found, kept⟩ := kept_runFrom client _ later _ e held
    exact ⟨e', found, kept.trans memo⟩

def plainClient : Client where
  platform := plainPlatform
  parseUrl _ := none
  validateExecutionResult _ _ := none

/-- The request is sent again while its first call is still under way. -/
def overlapping : List Input :=
  [.call (review sentInput 60), .call (review storedInput 90), .answer 0, .answer 1, .answer 0,
    .answer 1, .answer 1]

theorem overlapping_replay_bound :
    ((gateway plainClient).run overlapping).created.Nodup ∧
      (∀ call ∈ ((gateway plainClient).run overlapping).calls, isAnswered call.phase = true →
        call.request.runId ∈ ((gateway plainClient).run overlapping).created) ∧
      ∀ runId ∈ ((gateway plainClient).run overlapping).created,
        ∃ creator ∈ overlapping.flatMap asked, creator.runId = runId ∧
          Binds plainClient ((gateway plainClient).run overlapping) creator ∧
          ∀ later, ∃ e, ((gateway plainClient).runFrom ((gateway plainClient).run overlapping)
            later).executions runId = some e ∧ e.memo = memoOf plainClient creator := by
  refine one_execution_for_a_run plainClient Function.injective_id overlapping fun request mem => ?_
  have listed : request ∈ [review sentInput 60, review storedInput 90] := mem
  simp only [List.mem_cons, List.not_mem_nil, or_false] at listed
  rcases listed with rfl | rfl
  · exact parsed_sent
  · exact parsed_stored

end ReplayedStarts
