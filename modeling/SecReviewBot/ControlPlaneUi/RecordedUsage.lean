import Mathlib.Algebra.Ring.Rat
import Mathlib.Data.List.TakeWhile
import SecReviewBot.ControlPlaneUi.MessageViews

/-!
# Usage totals of the viewer

A total covers the calls that started. The reader's rules make a started call appear once and an
end name a response of its own call, so no response stands for two calls. A call without an end
has the responses that were recorded after its start.
-/

namespace RecordedUsage

open AgentTranscript JsonValues TrajectoryEvents TrajectoryModel

/-- A message that the call made. -/
def isResponse (call : Json) (event : Json) : Bool :=
  kind event = some .message && callId event = call

def isStart (call : Json) (event : Json) : Bool :=
  kind event = some .modelCallStart && callId event = call

/-- The responses of a call that are recorded after its start. -/
def recordedSince (events : List Json) (call : Json) : List Json :=
  (events.dropWhile fun event => !isStart call event).filter (isResponse call)

/-- The end of a call. -/
def endOf (events : List Json) (call : Json) : Option Json :=
  ((ofKind .modelCallEnd events).filter fun event => callId event = call).getLast?

/-- The response that a call's end names, or its only one since its start when it has no end. -/
def determined (events : List Json) (call : Json) : Option Json :=
  match endOf events call with
  | some event => response events (get event "message_id")
  | none => match recordedSince events call with
    | [event] => some event
    | _ => none

inductive Field
  | input
  | output
  | cacheRead
  | cacheCreation
  | reasoning
  | total
  deriving DecidableEq

/-- The member of a message's usage. -/
def Field.key : Field → String
  | .input => "input_tokens"
  | .output => "output_tokens"
  | .cacheRead => "cache_read_input_tokens"
  | .cacheCreation => "cache_creation_input_tokens"
  | .reasoning => "reasoning_tokens"
  | .total => "total_tokens"

def Field.view : Field → UsageView → Option Rat
  | .input => (·.input)
  | .output => (·.output)
  | .cacheRead => (·.cacheRead)
  | .cacheCreation => (·.cacheCreation)
  | .reasoning => (·.reasoning)
  | .total => (·.total)

/-- The count that a message record reports for a field. -/
def reported (field : Field) (event : Json) : Option Rat :=
  (record ((get event "message").member "usage_metadata")).bind fun usage =>
    number (usage.member field.key)

/-- The count that the response of a call reports for a field. -/
def callReports (events : List Json) (field : Field) (call : Json) : Option Rat :=
  (determined events call).bind (reported field)

variable {events lines : List Json} {event call : Json}

theorem usage_field (field : Field) (message : Json) :
    (usage message).bind field.view =
      (record (message.member "usage_metadata")).bind fun usage =>
        number (usage.member field.key) := by
  rw [usage]
  cases record (message.member "usage_metadata") with
  | none => rfl
  | some source =>
    dsimp only
    split
    · rename_i empty
      have unknown (f : Field) : f.view {} = none := by cases f <;> rfl
      have all := unknown field
      rw [← empty] at all
      rw [Option.bind_none, Option.bind_some]
      cases field <;> exact all.symm
    · cases field <;> rfl

theorem started_iff : call ∈ callsOf .modelCallStart events ↔ ∃ e ∈ events, isStart call e := by
  simp [callsOf, ofKind, isStart, and_assoc]

theorem recordedSince_started (started : call ∈ callsOf .modelCallStart events) :
    recordedSince (events ++ [event]) call =
      recordedSince events call ++ [event].filter (isResponse call) := by
  obtain ⟨e, mem, start⟩ := started_iff.mp started
  have stops : (events.dropWhile fun e => !isStart call e).isEmpty = false := by
    rw [← Bool.not_eq_true, List.isEmpty_iff, List.dropWhile_eq_nil_iff]
    intro none
    have other := none e mem
    rw [start] at other
    exact absurd other Bool.false_ne_true
  rw [recordedSince, List.dropWhile_append, stops, if_neg Bool.false_ne_true, List.filter_append]
  rfl

theorem recordedSince_unstarted (unstarted : call ∉ callsOf .modelCallStart events)
    (start : kind event = some .modelCallStart) : recordedSince (events ++ [event]) call = [] := by
  have skipped : ∀ e ∈ events, (!isStart call e) = true := by
    intro e mem
    rw [Bool.not_eq_true', ← Bool.not_eq_true]
    exact fun start => unstarted (started_iff.mpr ⟨e, mem, start⟩)
  rw [recordedSince, List.dropWhile_append_of_pos skipped]
  apply List.filter_eq_nil_iff.mpr
  intro e mem
  have same : e = event :=
    List.mem_singleton.mp ((List.dropWhile_suffix _).subset mem)
  rw [same, isResponse, start]
  simp

/-- The collected responses are those recorded since the start, call by call. -/
theorem responses_eq (file : WellFormed definedCall events) :
    responses events = (callsOf .modelCallStart events).map fun call =>
      (call, (recordedSince events call).map fun e => idText (messageId e)) := by
  induction file with
  | nil => rfl
  | snoc before event file valid follows ih =>
    have names : (responses before).map Prod.fst = callsOf .modelCallStart before := by
      rw [ih, List.map_map]
      exact List.map_id _
    have step : responses (before ++ [event]) = collect (responses before) event := by
      rw [responses, List.foldl_append]
      rfl
    have others : ∀ found, kind event = some found → found ≠ .modelCallStart →
        callsOf .modelCallStart (before ++ [event]) = callsOf .modelCallStart before := by
      intro found own other
      rw [callsOf, ofKind_snoc, own, if_neg fun same => other (Option.some.inj same)]
      rfl
    have quiet : ∀ found, kind event = some found → found ≠ .message → ∀ call,
        call ∈ callsOf .modelCallStart before →
          recordedSince (before ++ [event]) call = recordedSince before call := by
      intro found own other call started
      rw [recordedSince_started started]
      simp [isResponse, own, other]
    have unchanged : ∀ found, kind event = some found → found ≠ .message →
        (callsOf .modelCallStart before).map (fun call => (call,
          (recordedSince (before ++ [event]) call).map fun e => idText (messageId e))) =
        responses before := by
      intro found own other
      rw [ih]
      apply List.map_congr_left
      intro call started
      rw [quiet found own other call started]
    obtain ⟨found, own⟩ := valid.known_kind
    have admitted := follows.admitted
    rw [own] at admitted
    rw [step, collect, own]
    cases found with
    | message =>
      rw [others .message own (by decide), ih]
      have grown : ∀ call ∈ callsOf .modelCallStart before,
          (call, (recordedSince (before ++ [event]) call).map fun e => idText (messageId e)) =
          if call = callId event then (call, (recordedSince before call).map
              (fun e => idText (messageId e)) ++ [idText (messageId event)])
          else (call, (recordedSince before call).map fun e => idText (messageId e)) := by
        intro call started
        rw [recordedSince_started started]
        by_cases same : call = callId event
        · simp [isResponse, own, same]
        · simp [isResponse, own, same, Ne.symm same]
      rw [List.map_congr_left grown]
      by_cases text : nonEmptyText (callId event) = true
      · dsimp only
        rw [if_pos text, List.map_map]
        rfl
      · dsimp only
        rw [if_neg text]
        apply List.map_congr_left
        intro call started
        rw [if_neg]
        rintro rfl
        exact text (start_call_text file started)
    | modelCallStart =>
      dsimp only
      have calls : callsOf .modelCallStart (before ++ [event]) =
          callsOf .modelCallStart before ++ [callId event] := by
        rw [callsOf, ofKind_snoc, own, if_pos rfl, List.map_append]
        rfl
      rw [names, if_neg admitted.2, calls, List.map_append, List.map_singleton,
        unchanged .modelCallStart own (by decide), recordedSince_unstarted admitted.2 own]
      rfl
    | modelCallsStart => rw [others _ own (by decide), unchanged _ own (by decide)]
    | modelCallsEnd => rw [others _ own (by decide), unchanged _ own (by decide)]
    | modelCallEnd => rw [others _ own (by decide), unchanged _ own (by decide)]

theorem determined_response (file : WellFormed definedCall events) {r : Json}
    (found : determined events call = some r) :
    r ∈ ofKind .message events ∧ callId r = call := by
  revert found
  rw [determined]
  cases ends : endOf events call with
  | some e =>
    intro found
    obtain ⟨listed, own⟩ := List.mem_filter.mp (List.mem_of_getLast? ends)
    obtain ⟨-, named, here, same⟩ := file.end_response listed
    have same_response : named = r := Option.some.inj (here.symm.trans found)
    rw [← same_response]
    exact ⟨(response_some here).1, same.trans (of_decide_eq_true own)⟩
  | none =>
    intro found
    have only : recordedSince events call = [r] := by
      revert found
      dsimp only
      rcases recordedSince events call with _ | ⟨first, _ | ⟨second, rest⟩⟩
      · intro found
        cases found
      · intro found
        cases found
        rfl
      · intro found
        cases found
    have mem : r ∈ recordedSince events call := by simp [only]
    obtain ⟨late, response⟩ := List.mem_filter.mp mem
    obtain ⟨message, own⟩ := Bool.and_eq_true_iff.mp response
    have listed : r ∈ events := (List.dropWhile_suffix _).subset late
    exact ⟨List.mem_filter.mpr ⟨listed, message⟩, of_decide_eq_true own⟩

theorem selected_eq (file : WellFormed definedCall events) (call : Json) :
    selected events (call, (recordedSince events call).map fun e => idText (messageId e)) =
      (determined events call).map fun r => idText (messageId r) := by
  rw [selected, determined]
  have named : ended events call =
      (endOf events call).map fun e => idText (get e "message_id") := rfl
  dsimp only
  rw [named]
  cases ends : endOf events call with
  | some e =>
    obtain ⟨listed, -⟩ := List.mem_filter.mp (List.mem_of_getLast? ends)
    obtain ⟨-, r, here, -⟩ := file.end_response listed
    simp [here, (response_some here).2]
  | none =>
    rcases recordedSince events call with _ | ⟨r, _ | ⟨second, rest⟩⟩ <;> rfl

/-- What the totals read of a message. -/
def billing (message : MessageView) : String × Option UsageView := (message.id, message.usage)

theorem linkToolResults_billing (messages : List MessageView) :
    (linkToolResults messages).map billing = messages.map billing := by
  rw [linkToolResults, List.map_map]
  rfl

theorem document_billing (file : WellFormed definedCall events) :
    (buildTrajectoryDocument events).messages.map billing =
      (ofKind .message events).map fun e => (idText (messageId e), usage (get e "message")) := by
  rw [buildTrajectoryDocument]
  dsimp only
  rw [linkToolResults_billing, messageViews_map fun _ => rfl]
  apply List.map_congr_left
  intro e mem
  rw [billing, projectMessage_id (message_id_text file mem)]
  rfl

theorem document_ids (file : WellFormed definedCall events) :
    ((buildTrajectoryDocument events).messages.map (·.id)).Nodup := by
  rw [buildTrajectoryDocument]
  dsimp only
  rw [linked_ids]
  exact messageViews_distinct file

theorem find_own {messages : List MessageView} (distinct : (messages.map (·.id)).Nodup)
    {m : MessageView} (mem : m ∈ messages) :
    (messages.find? fun x => decide (some m.id = some x.id)) = some m := by
  cases found : messages.find? fun x => decide (some m.id = some x.id) with
  | none =>
    have other := List.find?_eq_none.mp found m mem
    simp at other
  | some x =>
    have same := List.find?_some found
    have listed := List.mem_of_find?_eq_some found
    rw [List.inj_on_of_nodup_map distinct listed mem]
    exact (Option.some.inj (of_decide_eq_true same)).symm

/-- What the totals read of a started call is what its determined response reports. -/
theorem covered_reports (file : WellFormed definedCall events) (field : Field) (call : Json) :
    (((buildTrajectoryDocument events).messages.find? fun message => decide
        (selected events (call, (recordedSince events call).map fun e => idText (messageId e)) =
          some message.id)).bind (·.usage)).bind field.view = callReports events field call := by
  rw [selected_eq file, callReports]
  cases found : determined events call with
  | none =>
    rw [List.find?_eq_none.mpr (by simp)]
    rfl
  | some r =>
    have listed := (determined_response file found).1
    have billed : (idText (messageId r), usage (get r "message")) ∈
        (buildTrajectoryDocument events).messages.map billing := by
      rw [document_billing file]
      exact List.mem_map_of_mem listed
    obtain ⟨m, mem, same⟩ := List.mem_map.mp billed
    have id : m.id = idText (messageId r) := congrArg Prod.fst same
    have shown : m.usage = usage (get r "message") := congrArg Prod.snd same
    rw [Option.map_some, ← id, find_own (document_ids file) mem, Option.bind_some, shown,
      usage_field, Option.bind_some, reported]

theorem totalOf_isSome (field : UsageView → Option Rat) (covered : List (Option MessageView)) :
    (totalOf field covered).isSome = true ↔
      covered ≠ [] ∧ ∀ m ∈ covered, ((m.bind (·.usage)).bind field).isSome = true := by
  rw [totalOf]
  split
  · rename_i known
    rw [List.all_map, List.all_eq_true] at known
    refine iff_of_true rfl ⟨fun empty => known.1 ?_, known.2⟩
    rw [empty, List.map_nil]
  · rename_i unknown
    refine iff_of_false Bool.false_ne_true fun known => unknown ⟨?_, ?_⟩
    · intro empty
      exact known.1 (List.map_eq_nil_iff.mp empty)
    · rw [List.all_map, List.all_eq_true]
      exact known.2

theorem totalOf_some {field : UsageView → Option Rat} {covered : List (Option MessageView)}
    {n : Rat} (known : totalOf field covered = some n) :
    n = (covered.map fun m => ((m.bind (·.usage)).bind field).getD 0).sum := by
  have added (values : List (Option Rat)) : ∀ start : Rat,
      values.foldl (fun sum value => sum + value.getD 0) start =
        start + (values.map fun value => value.getD 0).sum := by
    induction values with
    | nil =>
      intro start
      simp
    | cons value rest ih =>
      intro start
      rw [List.foldl_cons, ih, List.map_cons, List.sum_cons, add_assoc]
  rw [totalOf] at known
  split at known
  · rw [added, zero_add, List.map_map] at known
    exact (Option.some.inj known).symm
  · cases known

theorem total_view (field : Field) (events : List Json) (messages : List MessageView) :
    field.view (totalRecordedUsage events messages) =
      totalOf field.view (covered events messages) := by
  cases field <;> rfl

/-- A total is the sum over the calls that started, known when each of them reports the field. -/
theorem total_counts_calls (lines events : List Json)
    (accepted : readTrajectoryJsonl lines = .ok events) (recording : Opened events)
    (field : Field) :
    ((field.view (buildTrajectoryDocument events).totalUsage).isSome = true ↔
      callsOf .modelCallStart events ≠ [] ∧
        ∀ call ∈ callsOf .modelCallStart events, (callReports events field call).isSome = true) ∧
    (∀ n, field.view (buildTrajectoryDocument events).totalUsage = some n →
      n = ((callsOf .modelCallStart events).map fun call =>
        (callReports events field call).getD 0).sum) ∧
    (callsOf .modelCallStart events).Nodup ∧
    (∀ call ∈ callsOf .modelCallStart events, ∀ r, determined events call = some r →
      r ∈ ofKind .message events ∧ callId r = call) ∧
    (((callsOf .modelCallStart events).filterMap (determined events)).map messageId).Nodup := by
  obtain ⟨file, rfl⟩ := readTrajectoryJsonl_ok.mp accepted
  let shown := fun call => (linkToolResults (messageViews events)).find? fun message => decide
    (selected events (call, (recordedSince events call).map fun e => idText (messageId e)) =
      some message.id)
  have reads : ∀ call, ((shown call).bind (·.usage)).bind field.view =
      callReports events field call := covered_reports file field
  have covers : field.view (buildTrajectoryDocument events).totalUsage =
      totalOf field.view ((callsOf .modelCallStart events).map shown) := by
    rw [buildTrajectoryDocument, total_view, covered, if_pos recording, responses_eq file,
      List.map_map]
    rfl
  rw [covers]
  refine ⟨?_, fun n known => ?_, file.starts_nodup, fun call _ r => determined_response file, ?_⟩
  · rw [totalOf_isSome, List.forall_mem_map, ne_eq, List.map_eq_nil_iff]
    simp only [reads]
  · rw [totalOf_some known, List.map_map]
    refine congrArg List.sum (List.map_congr_left fun call _ => ?_)
    rw [Function.comp_apply, reads]
  · rw [List.map_filterMap]
    refine file.starts_nodup.filterMap ?_
    intro call call' id here here'
    obtain ⟨r, found, rfl⟩ := Option.map_eq_some_iff.mp here
    obtain ⟨r', found', same⟩ := Option.map_eq_some_iff.mp here'
    obtain ⟨listed, own⟩ := determined_response file found
    obtain ⟨listed', own'⟩ := determined_response file found'
    rw [← own, ← own', List.inj_on_of_nodup_map file.messages_nodup listed' listed same]

/-- A response of three tokens with the id of its call. -/
def reply (seq : Rat) : Json :=
  .obj [("seq", .num seq), ("event", .str "message"), ("call_id", .str "c"),
    ("message", .obj [("id", .str "a1"), ("role", .str "assistant"), ("content", .str "Done."),
      ("usage_metadata", .obj [("input_tokens", .num 2), ("output_tokens", .num 1),
        ("total_tokens", .num 3), ("cache_read_input_tokens", .null),
        ("cache_creation_input_tokens", .null), ("reasoning_tokens", .null)])])]

def recordingStart (seq : Rat) : Json :=
  .obj [("seq", .num seq), ("event", .str "model_calls_start")]

def callStart (seq : Rat) : Json :=
  .obj [("seq", .num seq), ("event", .str "model_call_start"), ("call_id", .str "c")]

/-- A call whose response was recorded before it was interrupted. -/
def interrupted : List Json := [recordingStart 1, callStart 2, reply 3]

theorem interrupted_call_total :
    Field.total.view (buildTrajectoryDocument interrupted).totalUsage = some 3 ∧
      ∀ call ∈ callsOf .modelCallStart interrupted,
        (callReports interrupted .total call).isSome = true := by
  have total : Field.total.view (buildTrajectoryDocument interrupted).totalUsage = some 3 := by
    decide +kernel
  have counts := total_counts_calls interrupted interrupted (by decide) (by decide)
    .total
  exact ⟨total, (counts.1.mp (by rw [total]; rfl)).2⟩

/-- The only recorded response of the call stands before the recording. -/
theorem early_response_not_counted :
    readTrajectoryJsonl [reply 1, recordingStart 2, callStart 3] =
        .ok [reply 1, recordingStart 2, callStart 3] ∧
      ofKind .modelCallEnd [reply 1, recordingStart 2, callStart 3] = [] ∧
      [reply 1, recordingStart 2, callStart 3].filter (isResponse (.str "c")) = [reply 1] ∧
      reported .total (reply 1) = some 3 ∧
      Field.total.view (buildTrajectoryDocument
        [reply 1, recordingStart 2, callStart 3]).totalUsage = none := by
  decide

end RecordedUsage
