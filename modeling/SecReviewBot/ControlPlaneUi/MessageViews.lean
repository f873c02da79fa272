import SecReviewBot.AgentTranscript.Files
import SecReviewBot.ControlPlaneUi.TrajectoryModel

/-!
# The views of a file's messages

The reader's checks make every view carry the id of its record, and make ids and places distinct.
-/

namespace TrajectoryModel

open AgentTranscript JsonValues TrajectoryEvents

variable {events : List Json} {event : Json}

theorem text_of_nonEmpty {value : Json} (shown : nonEmptyText value = true) :
    ∃ t, value = .str t ∧ t ≠ "" := by
  cases value with
  | str t => exact ⟨t, rfl, of_decide_eq_true shown⟩
  | _ => cases shown

theorem member_of_get {value : Json} {key : String} {found : Json} (known : get value key = found)
    (present : found ≠ .null) : value.member key = some found := by
  rw [AgentTranscript.get] at known
  cases member : value.member key with
  | none =>
    rw [member] at known
    exact absurd known.symm present
  | some inner =>
    rw [member] at known
    rw [← known]
    rfl

/-- A checked id is taken over as it is. -/
theorem nonempty_id {message : Json} (shown : nonEmptyText (get message "id") = true)
    (fallback : String) :
    (nonempty (message.member "id")).getD fallback = idText (get message "id") := by
  obtain ⟨id, same, named⟩ := text_of_nonEmpty shown
  rw [member_of_get same (by simp), same, nonempty, text, Option.filter_some,
    if_pos (decide_eq_true named)]
  rfl

theorem projectMessage_id (shown : nonEmptyText (messageId event) = true) :
    (projectMessage event).id = idText (messageId event) :=
  nonempty_id shown _

theorem messageViews_ids (file : WellFormed definedCall events) :
    (messageViews events).map (·.id) = ((ofKind .message events).map messageId).map idText := by
  rw [messageViews_map fun _ => rfl, List.map_map]
  exact List.map_congr_left fun event mem => projectMessage_id (message_id_text file mem)

theorem messageViews_distinct (file : WellFormed definedCall events) :
    ((messageViews events).map (·.id)).Nodup := by
  rw [messageViews_ids file]
  refine List.Nodup.map_on ?_ file.messages_nodup
  intro x isId y isId' same
  obtain ⟨e, mem, rfl⟩ := List.mem_map.mp isId
  obtain ⟨e', mem', rfl⟩ := List.mem_map.mp isId'
  obtain ⟨t, text, -⟩ := text_of_nonEmpty (message_id_text file mem)
  obtain ⟨t', text', -⟩ := text_of_nonEmpty (message_id_text file mem')
  rw [text, text'] at same ⊢
  exact congrArg Json.str same

theorem messageViews_ascending (file : WellFormed definedCall events) :
    (messageViews events).Pairwise fun a b => a.seq < b.seq := by
  have seqs : (messageViews events).map (·.seq) = (ofKind .message events).map seqOf :=
    messageViews_map (fun _ => rfl) events
  have order : ((ofKind .message events).map seqOf).Pairwise (· < ·) :=
    List.pairwise_map.mpr (file.ascending.sublist List.filter_sublist)
  rw [← seqs] at order
  exact List.pairwise_map.mp order

/-- Linking keeps the messages. -/
theorem linked_ids (messages : List MessageView) :
    (linkToolResults messages).map (·.id) = messages.map (·.id) := by
  rw [linkToolResults, List.map_map]
  rfl

end TrajectoryModel
