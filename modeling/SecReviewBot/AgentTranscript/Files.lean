import SecReviewBot.AgentTranscript.Records

/-!
# What every file satisfies

The rules look at one record and those before it. From them follow facts about whole files:
sequence numbers ascend, message ids and calls are distinct, and an end names a response of its
own call.
-/

namespace AgentTranscript

open JsonValues

variable {named : Json → Option Json} {lines : List Json} {event : Json}

theorem WellFormed.ascending (file : WellFormed named lines) :
    lines.Pairwise fun a b => seqOf a < seqOf b := by
  induction file with
  | nil => exact .nil
  | snoc before event file valid follows ih =>
    rw [List.pairwise_append]
    refine ⟨ih, List.pairwise_singleton _ _, ?_⟩
    intro x mem y isEvent
    rw [List.mem_singleton.mp isEvent]
    rcases List.eq_nil_or_concat before with rfl | ⟨rest, last, rfl⟩
    · cases mem
    · rw [List.concat_eq_append] at *
      have below := follows.ascends last (by simp)
      rcases List.mem_append.mp mem with earlier | isLast
      · have order := (List.pairwise_append.mp ih).2.2 x earlier last (List.mem_singleton_self _)
        omega
      · rw [List.mem_singleton.mp isLast]
        exact below

theorem response_none {id : Json} (absent : response lines id = none) :
    id ∉ (ofKind .message lines).map messageId := by
  intro mem
  obtain ⟨e, listed, same⟩ := List.mem_map.mp mem
  have other := List.find?_eq_none.mp absent e listed
  simp [same] at other

theorem WellFormed.messages_nodup (file : WellFormed named lines) :
    ((ofKind .message lines).map messageId).Nodup := by
  induction file with
  | nil => exact List.nodup_nil
  | snoc before event file valid follows ih =>
    rw [ofKind_snoc]
    split
    · rename_i message
      have admitted := follows.admitted
      rw [message] at admitted
      rw [List.map_append, List.map_singleton]
      refine List.nodup_append.mpr ⟨ih, List.nodup_singleton _, ?_⟩
      rintro x mem y isEvent rfl
      rw [List.mem_singleton.mp isEvent] at mem
      exact response_none admitted.1 mem
    · exact ih

theorem WellFormed.starts_nodup (file : WellFormed named lines) :
    (callsOf .modelCallStart lines).Nodup := by
  induction file with
  | nil => exact List.nodup_nil
  | snoc before event file valid follows ih =>
    rw [callsOf, ofKind_snoc]
    split
    · rename_i start
      have admitted := follows.admitted
      rw [start] at admitted
      rw [List.map_append, List.map_singleton]
      refine List.nodup_append.mpr ⟨ih, List.nodup_singleton _, ?_⟩
      rintro x mem y isEvent rfl
      rw [List.mem_singleton.mp isEvent] at mem
      exact admitted.2 mem
    · exact ih

/-- The first message with an id stays the first. -/
theorem response_snoc {id r : Json} (found : response lines id = some r) :
    response (lines ++ [event]) id = some r := by
  rw [response, ofKind_snoc]
  split
  · rw [List.find?_append, show (ofKind .message lines).find? _ = some r from found,
      Option.some_or]
  · exact found

/-- What a response is: a message of the file with the id. -/
theorem response_some {id r : Json} (found : response lines id = some r) :
    r ∈ ofKind .message lines ∧ messageId r = id := by
  have same := List.find?_some found
  exact ⟨List.mem_of_find?_eq_some found, of_decide_eq_true same⟩

/-- The message an end names is a response of the call it ends. -/
theorem WellFormed.end_response (file : WellFormed named lines) {e : Json}
    (mem : e ∈ ofKind .modelCallEnd lines) :
    callId e ∈ callsOf .modelCallStart lines ∧
      ∃ r, response lines (get e "message_id") = some r ∧ callId r = callId e := by
  induction file with
  | nil => cases mem
  | snoc before event file valid follows ih =>
    have grows : ∀ c, c ∈ callsOf .modelCallStart before →
        c ∈ callsOf .modelCallStart (before ++ [event]) := by
      intro c started
      rw [callsOf, ofKind_snoc]
      split
      · rw [List.map_append]
        exact List.mem_append_left _ started
      · exact started
    have earlier : e ∈ ofKind .modelCallEnd before →
        callId e ∈ callsOf .modelCallStart (before ++ [event]) ∧
          ∃ r, response (before ++ [event]) (get e "message_id") = some r ∧
            callId r = callId e := by
      intro listed
      obtain ⟨started, r, found, own⟩ := ih listed
      exact ⟨grows _ started, r, response_snoc found, own⟩
    rw [ofKind_snoc] at mem
    by_cases ends : kind event = some .modelCallEnd
    · rw [if_pos ends] at mem
      rcases List.mem_append.mp mem with listed | isEvent
      · exact earlier listed
      · rw [List.mem_singleton.mp isEvent]
        have admitted := follows.admitted
        rw [ends] at admitted
        obtain ⟨-, started, -, r, found, own⟩ := admitted
        exact ⟨grows _ started, r, response_snoc found, own⟩
    · rw [if_neg ends] at mem
      exact earlier mem

theorem message_id_text (file : WellFormed named lines) {e : Json}
    (mem : e ∈ ofKind .message lines) : nonEmptyText (messageId e) = true := by
  obtain ⟨listed, message⟩ := List.mem_filter.mp mem
  have fields := (file.valid e listed).fields
  rw [of_decide_eq_true message] at fields
  exact fields.id

theorem start_call_text (file : WellFormed named lines) {call : Json}
    (mem : call ∈ callsOf .modelCallStart lines) : nonEmptyText call = true := by
  obtain ⟨e, here, rfl⟩ := List.mem_map.mp mem
  obtain ⟨listed, start⟩ := List.mem_filter.mp here
  have fields := (file.valid e listed).fields
  rw [of_decide_eq_true start] at fields
  exact fields

end AgentTranscript
