import SecReviewBot.ControlPlaneUi.MessageViews
import SecReviewBot.Interleavings

/-!
# Tool results and their calls

A call proposes the closest of its candidates, and a proposal stands when no other call makes
it. So the links are a partial matching. Where every label is known, the candidates of a call
are the later results of its own branch, and the links are a matter of the branches alone.
-/

namespace ToolLinks

open AgentTranscript Interleavings JsonValues TrajectoryEvents TrajectoryModel

/-- Messages in ascending order with distinct ids; a known agent has a name. -/
structure Listed (messages : List MessageView) : Prop where
  ascending : messages.Pairwise fun a b => a.seq < b.seq
  distinct : (messages.map (·.id)).Nodup
  named : ∀ m ∈ messages, m.agent ≠ some ""
  asks : ∀ m ∈ messages, ∀ c ∈ m.toolCalls, c.id ≠ ""

variable {messages : List MessageView} {m r : MessageView} {c : ToolCallView}
  {request : MessageView × ToolCallView}

theorem mem_requests : request ∈ requests messages ↔
    request.1 ∈ messages ∧ request.2 ∈ request.1.toolCalls := by
  obtain ⟨m, c⟩ := request
  simp only [requests, List.mem_flatMap, List.mem_map, Prod.mk.injEq]
  constructor
  · rintro ⟨_, mem, _, listed, rfl, rfl⟩
    exact ⟨mem, listed⟩
  · rintro ⟨mem, listed⟩
    exact ⟨m, mem, c, listed, rfl, rfl⟩

theorem Listed.same (listed : Listed messages) (mem : m ∈ messages) (mem' : r ∈ messages)
    (id : m.id = r.id) : m = r :=
  List.inj_on_of_nodup_map listed.distinct mem mem' id

theorem closest_mem {candidates : List MessageView} (h : closest m candidates = some r) :
    r ∈ candidates := by
  rw [closest] at h
  have sorted := List.perm_insertionSort (fun a b => common m b ≤ common m a) candidates
  split at h
  · cases h
  · rename_i single
    cases h
    exact sorted.mem_iff.mp (by simp [single])
  · rename_i first second rest several
    split at h
    · cases h
      exact sorted.mem_iff.mp (by simp [several])
    · cases h

theorem proposed_candidate (h : proposed messages request = some r) :
    r ∈ messages ∧ isCandidate request.1 request.2.id r = true := by
  obtain ⟨inResults, candidate⟩ := List.mem_filter.mp (closest_mem h)
  exact ⟨(List.mem_filter.mp inResults).1, candidate⟩

theorem linked_iff : linked messages request = some r ↔
    proposed messages request = some r ∧ resultRequests messages r.id = 1 := by
  rw [linked, Option.filter_eq_some_iff, decide_eq_true_eq]

/-- What links a result to a call. -/
theorem candidate_iff {callId : String} : isCandidate m callId r = true ↔
    r.toolCallId = some callId ∧ m.seq < r.seq ∧ conflicts m.agent r.agent = false ∧
      (trunk m = [] ∨ trunk r = [] ∨ trunk m = trunk r) := by
  simp [isCandidate, and_assoc, or_assoc]

/-- At most one call is linked to a result. -/
theorem linked_once (id : String) :
    ((requests messages).filter fun request =>
      (linked messages request).any fun r => r.id = id).length ≤ 1 := by
  by_cases once : resultRequests messages id = 1
  · rw [← once, resultRequests]
    apply List.Sublist.length_le
    apply List.monotone_filter_right
    intro request linked_here
    obtain ⟨r, is_linked, same⟩ : ∃ r, linked messages request = some r ∧ r.id = id := by
      simpa [Option.any_eq_true] using linked_here
    rw [(linked_iff.mp is_linked).1]
    simpa using same
  · have none : (requests messages).filter (fun request =>
        (linked messages request).any fun r => r.id = id) = [] := by
      apply List.filter_eq_nil_iff.mpr
      intro request _ linked_here
      obtain ⟨r, is_linked, same⟩ : ∃ r, linked messages request = some r ∧ r.id = id := by
        simpa [Option.any_eq_true] using linked_here
      rw [← same] at once
      exact once (linked_iff.mp is_linked).2
    rw [none]
    exact Nat.zero_le _

/-- A linked result has the anchor of the call it is linked to. -/
theorem anchorOf_linked (mem : request ∈ requests messages)
    (h : linked messages request = some r) :
    anchorOf messages r = some request.2.anchorId := by
  have inside : ((requests messages).filter fun q => linked messages q = some r).Sublist
      ((requests messages).filter fun q => (linked messages q).any fun s => s.id = r.id) := by
    apply List.monotone_filter_right
    intro q same
    rw [of_decide_eq_true same]
    simp
  have few := inside.length_le.trans (linked_once r.id)
  have here : request ∈ (requests messages).filter fun q => linked messages q = some r :=
    List.mem_filter.mpr ⟨mem, decide_eq_true h⟩
  obtain ⟨only, single⟩ := List.length_eq_one_iff.mp
    (Nat.le_antisymm few (List.length_pos_of_mem here))
  rw [single, List.mem_singleton] at here
  rw [anchorOf, single, List.getLast?_singleton, ← here]
  rfl

/-- The branch of a message: its agent and its parents without the last. -/
def branch (m : MessageView) : Option String × List Json := (m.agent, trunk m)

/-- The agents of two messages can be compared: both are known, or they are the same. -/
def Comparable (m r : MessageView) : Prop :=
  m.agent = r.agent ∨ (m.agent ≠ none ∧ r.agent ≠ none)

instance (m r : MessageView) : Decidable (Comparable m r) :=
  inferInstanceAs (Decidable (_ ∨ _))

theorem conflicts_iff (named : m.agent ≠ some "") (named' : r.agent ≠ some "") :
    conflicts m.agent r.agent = false ↔ m.agent = none ∨ r.agent = none ∨ m.agent = r.agent := by
  rcases left : m.agent with _ | l
  · simp [conflicts]
  rcases right : r.agent with _ | k
  · simp [conflicts]
  have l_named : l ≠ "" := fun empty => named (left.trans (congrArg some empty))
  have k_named : k ≠ "" := fun empty => named' (right.trans (congrArg some empty))
  simp [conflicts, l_named, k_named]

/-- With known ancestries and comparable agents, a candidate is a later result of the branch. -/
theorem candidate_branch {id : String} (named : m.agent ≠ some "") (named' : r.agent ≠ some "")
    (deep : trunk m ≠ []) (deep' : r.toolCallId = some id → trunk r ≠ [])
    (comparable : r.toolCallId = some id → trunk r = trunk m → Comparable m r) :
    isCandidate m id r = true ↔
      branch r = branch m ∧ r.toolCallId = some id ∧ m.seq < r.seq := by
  rw [candidate_iff, conflicts_iff named named', branch, branch, Prod.mk.injEq]
  constructor
  · rintro ⟨answers, later, agents, trunks⟩
    have same : trunk m = trunk r := by
      rcases trunks with none | none | same
      · exact absurd none deep
      · exact absurd none (deep' answers)
      · exact same
    refine ⟨⟨?_, same.symm⟩, answers, later⟩
    rcases comparable answers same.symm with equal | ⟨known, known'⟩
    · exact equal.symm
    · rcases agents with none | none | equal
      · exact absurd none known
      · exact absurd none known'
      · exact equal.symm
  · rintro ⟨⟨agents, trunks⟩, answers, later⟩
    exact ⟨answers, later, .inr (.inr agents.symm), .inr (.inr trunks.symm)⟩

/-- A message that asks or answers with the tool id. -/
def carries (id : String) (m : MessageView) : Prop :=
  m.toolCallId = some id ∨ ∃ c ∈ m.toolCalls, c.id = id

/-- What the messages with a tool id must tell for its calls to be matched by branch. -/
structure Traced (messages : List MessageView) (id : String) (m : MessageView) : Prop where
  deep : ∀ x ∈ messages, carries id x → trunk x ≠ []
  comparable : ∀ x ∈ messages, carries id x → trunk x = trunk m → Comparable m x

/-- The candidates of a call are the later results of its branch, in their order. -/
theorem candidates_eq (listed : Listed messages) (mem : m ∈ messages) (asked : c ∈ m.toolCalls)
    (traced : Traced messages c.id m) :
    (results messages).filter (isCandidate m c.id) =
      messages.filter fun r => branch r = branch m ∧ r.toolCallId = some c.id ∧ m.seq < r.seq := by
  rw [results, List.filter_filter]
  apply List.filter_congr
  intro r mem'
  have candidate := candidate_branch (listed.named m mem) (listed.named r mem')
    (traced.deep m mem (.inr ⟨c, asked, rfl⟩))
    (fun answers => traced.deep r mem' (.inl answers))
    (fun answers => traced.comparable r mem' (.inl answers))
  rw [Bool.eq_iff_iff, Bool.and_eq_true, candidate, decide_eq_true_eq]
  constructor
  · exact And.left
  · rintro ⟨same, answers, later⟩
    refine ⟨⟨same, answers, later⟩, ?_⟩
    rw [answers]
    exact decide_eq_true (listed.asks m mem c asked)

theorem closest_singleton : closest m [r] = some r := by
  rw [closest, List.insertionSort_cons, List.insertionSort_nil, List.orderedInsert_nil]

/-- One call of a branch and one later result with its tool id are linked. -/
theorem branch_answer_linked (listed : Listed messages) (mem : request ∈ requests messages)
    (traced : Traced messages request.2.id request.1)
    (asked : (requests messages).filter (fun q => decide
      (branch q.1 = branch request.1 ∧ q.2.id = request.2.id)) = [request])
    (answered : messages.filter (fun x => decide (branch x = branch request.1 ∧
      x.toolCallId = some request.2.id ∧ request.1.seq < x.seq)) = [r]) :
    linked messages request = some r := by
  obtain ⟨inside, own⟩ := mem_requests.mp mem
  have proposes : proposed messages request = some r := by
    rw [proposed, candidates_eq listed inside own traced, answered, closest_singleton]
  obtain ⟨mem', answers⟩ := List.mem_filter.mp (by rw [answered]; exact List.mem_singleton_self r)
  obtain ⟨home, answers, -⟩ := of_decide_eq_true answers
  obtain ⟨agent, trunk_eq⟩ := Prod.mk.inj home
  refine linked_iff.mpr ⟨proposes, ?_⟩
  have only : (requests messages).filter (fun q => (proposed messages q).any fun s => s.id = r.id) =
      (requests messages).filter (fun q => decide
        (branch q.1 = branch request.1 ∧ q.2.id = request.2.id)) := by
    apply List.filter_congr
    intro q inRequests
    obtain ⟨inside', own'⟩ := mem_requests.mp inRequests
    rw [Bool.eq_iff_iff, decide_eq_true_eq]
    constructor
    · intro proposes'
      obtain ⟨s, is_proposed, same⟩ : ∃ s, proposed messages q = some s ∧ s.id = r.id := by
        simpa [Option.any_eq_true] using proposes'
      obtain ⟨inMessages, candidate⟩ := proposed_candidate is_proposed
      rw [listed.same inMessages mem' same, candidate_iff] at candidate
      obtain ⟨answers', -, agents, trunks⟩ := candidate
      have id : q.2.id = request.2.id := Option.some.inj (answers'.symm.trans answers)
      have carried : carries request.2.id q.1 := .inr ⟨q.2, own', id⟩
      have home' : trunk q.1 = trunk request.1 := by
        rcases trunks with none | none | same
        · exact absurd none (traced.deep q.1 inside' carried)
        · exact absurd none (traced.deep r mem' (.inl answers))
        · exact same.trans trunk_eq
      refine ⟨Prod.ext ?_ home', id⟩
      change q.1.agent = request.1.agent
      rw [conflicts_iff (listed.named _ inside') (listed.named _ mem'), agent] at agents
      rcases traced.comparable q.1 inside' carried home' with equal | ⟨known, known'⟩
      · exact equal.symm
      · rcases agents with none | none | equal
        · exact absurd none known'
        · exact absurd none known
        · exact equal
    · intro same
      have inFilter : q ∈ (requests messages).filter fun q => decide
          (branch q.1 = branch request.1 ∧ q.2.id = request.2.id) :=
        List.mem_filter.mpr ⟨inRequests, decide_eq_true same⟩
      rw [asked, List.mem_singleton] at inFilter
      rw [inFilter, proposes]
      simp
  rw [resultRequests, only, asked]
  rfl

/-- A message without its place in the file. -/
def bare (m : MessageView) : MessageView :=
  { m with
    seq := 0
    repeatedSystemId := none
    toolCalls := m.toolCalls.map fun c => { c with anchorId := "" } }

/-- Every message has a known ancestry, and the agents within an ancestry can be compared. -/
structure Separated (messages : List MessageView) : Prop where
  deep : ∀ x ∈ messages, trunk x ≠ []
  comparable : ∀ x ∈ messages, ∀ y ∈ messages, trunk y = trunk x → Comparable x y

theorem Separated.traced (separated : Separated messages) (mem : m ∈ messages) (id : String) :
    Traced messages id m :=
  ⟨fun x inside _ => separated.deep x inside,
    fun x inside _ same => separated.comparable m mem x inside same⟩

theorem closest_bare (candidates : List MessageView) :
    (closest m candidates).map bare = closest (bare m) (candidates.map bare) := by
  have sorted : (candidates.insertionSort fun a b => common m b ≤ common m a).map bare =
      (candidates.map bare).insertionSort fun a b => common (bare m) b ≤ common (bare m) a :=
    List.map_insertionSort _ _ bare candidates fun _ _ _ _ => Iff.rfl
  rw [closest, closest, ← sorted]
  rcases candidates.insertionSort fun a b => common m b ≤ common m a with
    _ | ⟨first, _ | ⟨second, rest⟩⟩
  · rfl
  · rfl
  · simp only [List.map_cons]
    by_cases more : common m second < common m first
    · rw [if_pos more, if_pos (show common (bare m) (bare second) < common (bare m) (bare first)
        from more)]
      rfl
    · rw [if_neg more, if_neg (show ¬ common (bare m) (bare second) < common (bare m) (bare first)
        from more)]
      rfl

theorem Listed.bare_nodup (listed : Listed messages) : (messages.map bare).Nodup := by
  have ids : ((messages.map bare).map (·.id)).Nodup := by
    rw [List.map_map]
    exact listed.distinct
  exact ids.of_map

/-- The later messages of a branch are the rest of its part behind the message. -/
theorem later_in_branch (listed : Listed messages) {before after : List MessageView}
    (cut : messages.filter (fun x => branch x = branch m) = before ++ m :: after) :
    (messages.filter fun x => branch x = branch m ∧ m.seq < x.seq) = after := by
  have order := listed.ascending.sublist (List.filter_sublist (l := messages)
    (p := fun x => decide (branch x = branch m)))
  rw [cut, List.pairwise_append, List.pairwise_cons] at order
  have split : messages.filter (fun x => decide (branch x = branch m ∧ m.seq < x.seq)) =
      (messages.filter fun x => decide (branch x = branch m)).filter
        fun x => decide (m.seq < x.seq) := by
    rw [List.filter_filter]
    apply List.filter_congr
    intro x _
    rw [Bool.decide_and, Bool.and_comm]
  rw [split, cut, List.filter_append, List.filter_cons, if_neg (by simp)]
  have earlier : before.filter (fun x => decide (m.seq < x.seq)) = [] := by
    apply List.filter_eq_nil_iff.mpr
    intro x mem later
    have below := order.2.2 x mem m List.mem_cons_self
    have above := of_decide_eq_true later
    omega
  rw [earlier, List.nil_append]
  apply List.filter_eq_self.mpr
  intro x mem
  exact decide_eq_true (order.2.1.1 x mem)

variable {others : List MessageView} {m' : MessageView} {c' : ToolCallView}

/-- A call proposes the same result however the branches are interleaved. -/
theorem proposed_bare (listed : Listed messages) (listed' : Listed others)
    (separated : Separated messages) (separated' : Separated others)
    (same : SameParts branch (messages.map bare) (others.map bare))
    (mem : m ∈ messages) (mem' : m' ∈ others) (twin : bare m = bare m')
    (asked : c ∈ m.toolCalls) (asked' : c' ∈ m'.toolCalls) (id : c.id = c'.id) :
    (proposed messages (m, c)).map bare = (proposed others (m', c')).map bare := by
  have home : branch (bare m) = branch (bare m') := congrArg branch twin
  change branch m = branch m' at home
  have inPart : m ∈ messages.filter fun x => branch x = branch m :=
    List.mem_filter.mpr ⟨mem, decide_eq_true rfl⟩
  have inPart' : m' ∈ others.filter fun x => branch x = branch m :=
    List.mem_filter.mpr ⟨mem', decide_eq_true home.symm⟩
  have part (all : List MessageView) : (all.filter fun x => branch x = branch m).map bare =
      (all.map bare).filter fun x => branch x = branch m := by
    rw [List.filter_map]
    rfl
  have images : (messages.filter fun x => branch x = branch m).map bare =
      (others.filter fun x => branch x = branch m).map bare := by
    rw [part, part, same]
  obtain ⟨before, after, cut⟩ := List.append_of_mem inPart
  obtain ⟨before', after', cut'⟩ := List.append_of_mem inPart'
  have distinct : ((messages.filter fun x => branch x = branch m).map bare).Nodup := by
    rw [part]
    exact listed.bare_nodup.filter _
  have rests := rest_of_image images cut cut' twin distinct
  have candidates (all : List MessageView) (x : MessageView) (late : List MessageView)
      (later : (all.filter fun r => branch r = branch x ∧ x.seq < r.seq) = late) :
      (all.filter fun r => branch r = branch x ∧ r.toolCallId = some c.id ∧ x.seq < r.seq) =
        late.filter fun r => r.toolCallId = some c.id := by
    rw [← later, List.filter_filter]
    apply List.filter_congr
    intro r _
    rw [← Bool.decide_and, decide_eq_decide]
    tauto
  have answers (late : List MessageView) :
      (late.filter fun r => r.toolCallId = some c.id).map bare =
        (late.map bare).filter fun r => r.toolCallId = some c.id := by
    rw [List.filter_map]
    rfl
  rw [home] at cut'
  rw [proposed, proposed, candidates_eq listed mem asked (separated.traced mem c.id),
    candidates_eq listed' mem' asked' (separated'.traced mem' c'.id), ← id,
    candidates _ _ _ (later_in_branch listed cut),
    candidates _ _ _ (later_in_branch listed' cut'), closest_bare, closest_bare, answers, answers,
    rests, twin]

/-- What the calls of a message propose. -/
def proposals (messages : List MessageView) (m : MessageView) : List (Option String) :=
  m.toolCalls.map fun c => (proposed messages (m, c)).map (·.id)

theorem proposals_twin (listed : Listed messages) (listed' : Listed others)
    (separated : Separated messages) (separated' : Separated others)
    (same : SameParts branch (messages.map bare) (others.map bare))
    (mem : m ∈ messages) (mem' : m' ∈ others) (twin : bare m = bare m') :
    proposals messages m = proposals others m' := by
  have calls : m.toolCalls.map (fun c => { c with anchorId := "" }) =
      m'.toolCalls.map fun c => { c with anchorId := "" } := congrArg MessageView.toolCalls twin
  refine map_eq_of_image calls fun c asked c' asked' alike => ?_
  have id : c.id = c'.id := (ToolCallView.mk.inj alike).2.1
  have results := proposed_bare listed listed' separated separated' same mem mem' twin asked
    asked' id
  have ids := congrArg (Option.map MessageView.id) results
  rwa [Option.map_map, Option.map_map] at ids

theorem resultRequests_eq (messages : List MessageView) (id : String) :
    resultRequests messages id =
      ((messages.map (proposals messages)).flatten.filter fun p => p = some id).length := by
  have flat : (messages.map (proposals messages)).flatten =
      (requests messages).map fun q => (proposed messages q).map (·.id) := by
    rw [requests, List.map_flatMap, ← List.flatMap_def]
    refine List.flatMap_congr fun m _ => ?_
    rw [List.map_map]
    rfl
  rw [resultRequests, flat, List.filter_map, List.length_map]
  congr 1
  apply List.filter_congr
  intro q _
  rw [Function.comp_apply]
  cases proposed messages q with
  | none => simp
  | some r => simp

theorem resultRequests_same (listed : Listed messages) (listed' : Listed others)
    (separated : Separated messages) (separated' : Separated others)
    (same : SameParts branch (messages.map bare) (others.map bare)) (id : String) :
    resultRequests messages id = resultRequests others id := by
  rw [resultRequests_eq, resultRequests_eq]
  have perm := map_perm_of_image same.perm fun m mem m' mem' twin =>
    proposals_twin listed listed' separated separated' same mem mem' twin
  exact (perm.flatten.filter _).length_eq

/-- The ids that are linked to the calls of a message. -/
def links (messages : List MessageView) (m : MessageView) : List (Option String) :=
  m.toolCalls.map fun c => (linked messages (m, c)).map (·.id)

theorem links_eq (messages : List MessageView) (m : MessageView) :
    links messages m = (proposals messages m).map fun p =>
      p.filter fun id => resultRequests messages id = 1 := by
  rw [links, proposals, List.map_map]
  refine List.map_congr_left fun c _ => ?_
  rw [Function.comp_apply, linked]
  cases proposed messages (m, c) with
  | none => rfl
  | some r =>
    rw [Option.map_some, Option.filter_some, Option.filter_some]
    split <;> rfl

theorem links_same (listed : Listed messages) (listed' : Listed others)
    (separated : Separated messages) (separated' : Separated others)
    (same : SameParts branch (messages.map bare) (others.map bare))
    (mem : m ∈ messages) (mem' : m' ∈ others) (id : m.id = m'.id) :
    links messages m = links others m' := by
  obtain ⟨twin, inOthers, alike⟩ := List.mem_map.mp
    (same.perm.mem_iff.mp (List.mem_map_of_mem (f := bare) mem))
  have ids : (bare twin).id = (bare m).id := congrArg MessageView.id alike
  have own : twin = m' := listed'.same inOthers mem' (ids.trans id)
  rw [links_eq, links_eq, proposals_twin listed listed' separated separated' same mem mem'
    (own ▸ alike.symm)]
  simp only [resultRequests_same listed listed' separated separated' same]

/-- A record without its place in the file. -/
def withoutSeq : Json → Json
  | .obj members => .obj (members.filter fun member => member.1 ≠ "seq")
  | other => other

/-- The branch a message record belongs to. -/
def recordBranch (event : Json) : Option String × List Json :=
  (text (event.member "agent"), ((parentIds event).getD []).dropLast)

theorem member_withoutSeq {key : String} (other : key ≠ "seq") (event : Json) :
    (withoutSeq event).member key = event.member key := by
  cases event with
  | obj members =>
    simp only [withoutSeq, Json.member]
    induction members with
    | nil => rfl
    | cons entry rest ih =>
      obtain ⟨name, value⟩ := entry
      by_cases seq : name = "seq"
      · have apart : (key == name) = false := beq_eq_false_iff_ne.mpr (seq ▸ other)
        rw [List.filter_cons, if_neg (by simp [seq]), ih, List.lookup_cons, apart]
      · rw [List.filter_cons, if_pos (decide_eq_true seq), List.lookup_cons, List.lookup_cons, ih]
  | _ => rfl

theorem get_withoutSeq {key : String} (other : key ≠ "seq") (event : Json) :
    get (withoutSeq event) key = get event key := by
  rw [AgentTranscript.get, AgentTranscript.get, member_withoutSeq other]

theorem toolCalls_bare (raw : Json) (seq seq' : Int) :
    (toolCalls raw seq).map (fun c => { c with anchorId := "" }) =
      (toolCalls raw seq').map fun c => { c with anchorId := "" } := by
  rw [toolCalls, toolCalls]
  split
  · rw [List.map_filterMap, List.map_filterMap]
    congr 1
    funext ⟨value, index⟩
    simp only [toolCall]
    cases record (some value) <;> rfl
  · rfl

/-- A message record shows the same, wherever in a file it stands. -/
theorem bare_withoutSeq {event : Json} (shown : nonEmptyText (messageId event) = true) :
    bare (projectMessage (withoutSeq event)) = bare (projectMessage event) := by
  have own : ∀ fallback, (nonempty ((get event "message").member "id")).getD fallback =
      idText (messageId event) := nonempty_id shown
  simp only [bare, projectMessage, get_withoutSeq (show "message" ≠ "seq" by decide), own,
    member_withoutSeq (show "agent" ≠ "seq" by decide),
    member_withoutSeq (show "source" ≠ "seq" by decide), parentIds,
    member_withoutSeq (show "parent_ids" ≠ "seq" by decide),
    toolCalls_bare _ (seqOf (withoutSeq event)) (seqOf event)]

variable {lines events events' : List Json}

/-- The message records of a file, without their places in it. -/
def stripped (events : List Json) : List Json := (ofKind .message events).map withoutSeq

theorem views_bare (file : WellFormed definedCall events) :
    (messageViews events).map bare =
      (stripped events).map fun event => bare (projectMessage event) := by
  rw [messageViews_map fun _ => rfl, stripped, List.map_map]
  exact List.map_congr_left fun event mem => (bare_withoutSeq (message_id_text file mem)).symm

theorem views_parts (file : WellFormed definedCall events) (file' : WellFormed definedCall events')
    (same : SameParts recordBranch (stripped events) (stripped events')) :
    SameParts branch ((messageViews events).map bare) ((messageViews events').map bare) := by
  intro k
  rw [views_bare file, views_bare file', List.filter_map, List.filter_map]
  exact congrArg _ (same k)

/-- A call without an id of its own gets one. -/
theorem toolCall_named {seq : Int} {index : Nat} {value : Json}
    (made : toolCall seq index value = some c) : c.id ≠ "" := by
  rw [toolCall] at made
  cases call : record (some value) with
  | none =>
    rw [call] at made
    cases made
  | some found =>
    rw [call] at made
    cases made
    change (nonempty (found.member "id")).getD ("tool-call-" ++ toString (index + 1)) ≠ ""
    cases own : nonempty (found.member "id") with
    | none =>
      rw [Option.getD_none]
      intro empty
      have length := congrArg String.length empty
      rw [String.length_append] at length
      have front : ("tool-call-" : String).length = 10 := rfl
      rw [front, String.length_empty] at length
      omega
    | some t =>
      have named := (Option.filter_eq_some_iff.mp own).2
      exact of_decide_eq_true named

theorem views_listed (file : WellFormed definedCall events) : Listed (messageViews events) where
  ascending := messageViews_ascending file
  distinct := messageViews_distinct file
  named := by
    have agents : (messageViews events).map (·.agent) =
        (ofKind .message events).map fun event => text (event.member "agent") :=
      messageViews_map (fun _ => rfl) events
    intro m mem unnamed
    have here : some "" ∈ (messageViews events).map (·.agent) :=
      List.mem_map.mpr ⟨m, mem, unnamed⟩
    rw [agents] at here
    obtain ⟨event, listed, empty⟩ := List.mem_map.mp here
    have label := (file.valid event (List.mem_filter.mp listed).1).labels "agent" (by decide)
    rw [AgentTranscript.get] at label
    cases member : event.member "agent" with
    | none =>
      rw [member] at empty
      cases empty
    | some value =>
      rw [member] at empty label
      cases value with
      | str t =>
        cases empty
        rcases label with absurd | absurd <;> cases absurd
      | _ => cases empty
  asks := by
    have calls : (messageViews events).map (·.toolCalls) =
        (ofKind .message events).map fun event => toolCalls (get event "message") (seqOf event) :=
      messageViews_map (fun _ => rfl) events
    intro m mem c asked unnamed
    have here : m.toolCalls ∈ (messageViews events).map (·.toolCalls) := List.mem_map_of_mem mem
    rw [calls] at here
    obtain ⟨event, -, same⟩ := List.mem_map.mp here
    rw [← same, toolCalls] at asked
    split at asked
    · obtain ⟨⟨value, index⟩, -, made⟩ := List.mem_filterMap.mp asked
      exact toolCall_named made unnamed
    · cases asked

theorem requests_linkToolResults (messages : List MessageView) :
    requests (linkToolResults messages) = (requests messages).map fun q =>
      (linkMessage messages q.1, linkCall messages q.1 q.2) := by
  rw [requests, linkToolResults, List.flatMap_map, requests, List.map_flatMap]
  refine List.flatMap_congr fun m _ => ?_
  rw [linkMessage, List.map_map, List.map_map]
  rfl

/-- The document's calls and results in terms of the messages before linking. -/
theorem link_fields (messages : List MessageView) (m : MessageView) (c : ToolCallView) :
    (linkCall messages m c).id = c.id ∧ (linkCall messages m c).anchorId = c.anchorId ∧
      (linkCall messages m c).resultMessageId = (linked messages (m, c)).map (·.id) ∧
      branch (linkMessage messages m) = branch m ∧ (linkMessage messages m).seq = m.seq ∧
      (linkMessage messages m).toolCallId = m.toolCallId := ⟨rfl, rfl, rfl, rfl, rfl, rfl⟩

theorem carries_linkMessage {messages : List MessageView} {id : String} {m : MessageView}
    (h : carries id m) : carries id (linkMessage messages m) := by
  rcases h with answers | ⟨c, asked, same⟩
  · exact .inl answers
  · exact .inr ⟨linkCall messages m c, List.mem_map_of_mem asked, same⟩

/-- What a linked result is to its call. -/
structure Answers (q : MessageView × ToolCallView) (r : MessageView) : Prop where
  anchor : r.requestAnchorId = some q.2.anchorId
  toolId : r.toolCallId = some q.2.id
  later : q.1.seq < r.seq
  agents : ∀ a ∈ q.1.agent, ∀ a' ∈ r.agent, a = a'
  branches : trunk q.1 ≠ [] → trunk r ≠ [] → trunk q.1 = trunk r

/-- One call of a branch asks with the tool id, and one later result of the branch has it. -/
structure AnsweredOnce (shown : List MessageView) (q : MessageView × ToolCallView)
    (r : MessageView) : Prop where
  asked : (requests shown).filter (fun p => decide
    (branch p.1 = branch q.1 ∧ p.2.id = q.2.id)) = [q]
  answered : shown.filter (fun x => decide
    (branch x = branch q.1 ∧ x.toolCallId = some q.2.id ∧ q.1.seq < x.seq)) = [r]
  traced : Traced shown q.2.id q.1

theorem shown_link {q : MessageView × ToolCallView}
    (listed : Listed messages) (mem : q ∈ requests (linkToolResults messages)) {id : String}
    (linked_to : q.2.resultMessageId = some id) :
    ∃ r ∈ linkToolResults messages, r.id = id ∧ Answers q r := by
  rw [requests_linkToolResults] at mem
  obtain ⟨p, inRequests, rfl⟩ := List.mem_map.mp mem
  obtain ⟨r, is_linked, same⟩ := Option.map_eq_some_iff.mp linked_to
  obtain ⟨inside, candidate⟩ := proposed_candidate (linked_iff.mp is_linked).1
  obtain ⟨toolId, later, agents, branches⟩ := candidate_iff.mp candidate
  have anchor : anchorOf messages r = some p.2.anchorId := anchorOf_linked inRequests is_linked
  refine ⟨linkMessage messages r, List.mem_map_of_mem inside, same, anchor, toolId, later, ?_, ?_⟩
  · rintro a known a' known'
    have asks := (mem_requests.mp inRequests).1
    rcases (conflicts_iff (listed.named _ asks) (listed.named _ inside)).mp agents with
      none | none | equal
    · exact absurd (known.symm.trans none) (Option.some_ne_none a)
    · exact absurd (known'.symm.trans none) (Option.some_ne_none a')
    · exact Option.some.inj (known.symm.trans (equal.trans known'))
  · intro known known'
    rcases branches with none | none | equal
    · exact absurd none known
    · exact absurd none known'
    · exact equal

theorem linkMessage_mem (mem : m ∈ messages) :
    linkMessage messages m ∈ linkToolResults messages := List.mem_map_of_mem mem

theorem shown_once (messages : List MessageView) (id : String) :
    ((requests (linkToolResults messages)).filter fun q =>
      q.2.resultMessageId = some id).length ≤ 1 := by
  rw [requests_linkToolResults, List.filter_map, List.length_map]
  refine le_trans (Nat.le_of_eq (congrArg List.length ?_)) (@linked_once messages id)
  apply List.filter_congr
  intro q _
  rw [Function.comp_apply, (link_fields messages q.1 q.2).2.2.1]
  cases linked messages q with
  | none => simp
  | some r => simp

theorem shown_answer {q : MessageView × ToolCallView} (listed : Listed messages)
    (mem : q ∈ requests (linkToolResults messages))
    (once : AnsweredOnce (linkToolResults messages) q r) : q.2.resultMessageId = some r.id := by
  have answered := once.answered
  have asked := once.asked
  rw [requests_linkToolResults] at mem asked
  obtain ⟨p, inRequests, rfl⟩ := List.mem_map.mp mem
  rw [List.filter_map] at asked
  obtain ⟨p', single, -⟩ := List.map_eq_singleton_iff.mp asked
  have one : (requests messages).filter (fun q => decide
      (branch q.1 = branch p.1 ∧ q.2.id = p.2.id)) = [p'] := single
  have inPart : p ∈ (requests messages).filter fun q => decide
      (branch q.1 = branch p.1 ∧ q.2.id = p.2.id) :=
    List.mem_filter.mpr ⟨inRequests, decide_eq_true ⟨rfl, rfl⟩⟩
  rw [one, List.mem_singleton] at inPart
  rw [← inPart] at one
  rw [linkToolResults, List.filter_map] at answered
  obtain ⟨r₀, result, rfl⟩ := List.map_eq_singleton_iff.mp answered
  have traced : Traced messages p.2.id p.1 :=
    ⟨fun x inside carried => once.traced.deep (linkMessage messages x) (linkMessage_mem inside)
        (carries_linkMessage carried),
      fun x inside carried same => once.traced.comparable (linkMessage messages x) (linkMessage_mem inside)
        (carries_linkMessage carried) same⟩
  have is_linked := branch_answer_linked listed inRequests traced one result
  rw [(link_fields messages p.1 p.2).2.2.1, is_linked]
  rfl

theorem shown_links (messages : List MessageView) (m : MessageView) :
    (linkMessage messages m).toolCalls.map (·.resultMessageId) = links messages m := by
  rw [linkMessage, List.map_map]
  rfl

theorem separated_of_shown (separated : Separated (linkToolResults messages)) :
    Separated messages :=
  ⟨fun x inside => separated.deep (linkMessage messages x) (linkMessage_mem inside),
    fun x inside y inside' same => separated.comparable (linkMessage messages x)
      (linkMessage_mem inside) (linkMessage messages y) (linkMessage_mem inside') same⟩

/-- The links of a document are a partial matching that keeps to tool ids, order and known
branches, links what a branch settles, and does not depend on how branches are interleaved. -/
theorem results_matched (lines events : List Json)
    (accepted : readTrajectoryJsonl lines = .ok events) :
    (∀ id, ((requests (buildTrajectoryDocument events).messages).filter fun q =>
      q.2.resultMessageId = some id).length ≤ 1) ∧
    (∀ q ∈ requests (buildTrajectoryDocument events).messages, ∀ id,
      q.2.resultMessageId = some id →
        ∃ r ∈ (buildTrajectoryDocument events).messages, r.id = id ∧ Answers q r) ∧
    (∀ q ∈ requests (buildTrajectoryDocument events).messages, ∀ r,
      AnsweredOnce (buildTrajectoryDocument events).messages q r →
        q.2.resultMessageId = some r.id) ∧
    (∀ lines' events', readTrajectoryJsonl lines' = .ok events' →
      Separated (buildTrajectoryDocument events).messages →
      Separated (buildTrajectoryDocument events').messages →
      SameParts recordBranch (stripped events) (stripped events') →
      ∀ m ∈ (buildTrajectoryDocument events).messages,
        ∀ m' ∈ (buildTrajectoryDocument events').messages, m.id = m'.id →
          m.toolCalls.map (·.resultMessageId) = m'.toolCalls.map (·.resultMessageId)) := by
  obtain ⟨file, rfl⟩ := readTrajectoryJsonl_ok.mp accepted
  have listed := views_listed file
  refine ⟨fun id => shown_once _ id, fun q mem id linked_to => shown_link listed mem linked_to,
    fun q mem r once => shown_answer listed mem once, ?_⟩
  intro lines' events' accepted' separated separated' same m mem m' mem' id
  obtain ⟨file', rfl⟩ := readTrajectoryJsonl_ok.mp accepted'
  obtain ⟨x, inside, rfl⟩ := List.mem_map.mp mem
  obtain ⟨x', inside', rfl⟩ := List.mem_map.mp mem'
  rw [shown_links, shown_links]
  exact links_same listed (views_listed file') (separated_of_shown separated)
    (separated_of_shown separated') (views_parts file file' same) inside inside' id

def ancestry (sub node : String) : Json := .arr [.str "root", .str sub, .str node]

/-- A request with the tool id `t`. -/
def ask (seq : Rat) (id agent sub : String) : Json :=
  .obj [("seq", .num seq), ("event", .str "message"), ("agent", .str agent),
    ("parent_ids", ancestry sub "model"),
    ("message", .obj [("id", .str id), ("role", .str "assistant"), ("content", .str ""),
      ("tool_calls", .arr [.obj [("id", .str "t"), ("name", .str "inspect")]])])]

/-- A result for the tool id `t`. -/
def answer (seq : Rat) (id : String) (agent : Json) (sub : String) : Json :=
  .obj [("seq", .num seq), ("event", .str "message"), ("agent", agent),
    ("parent_ids", ancestry sub "tools"),
    ("message", .obj [("id", .str id), ("role", .str "tool"), ("content", .str "Done."),
      ("tool_call_id", .str "t")])]

/-- Two branches with one tool id, one record of each in turn. -/
def inTurn : List Json :=
  [ask 1 "a1" "reviewer" "one", ask 2 "a2" "planner" "two", answer 3 "r1" (.str "reviewer") "one",
    answer 4 "r2" (.str "planner") "two"]

/-- One branch after the other. -/
def oneByOne : List Json :=
  [ask 1 "a2" "planner" "two", answer 2 "r2" (.str "planner") "two", ask 3 "a1" "reviewer" "one",
    answer 4 "r1" (.str "reviewer") "one"]

theorem separated_inTurn : Separated (buildTrajectoryDocument inTurn).messages :=
  ⟨by decide, by decide⟩

theorem separated_oneByOne : Separated (buildTrajectoryDocument oneByOne).messages :=
  ⟨by decide, by decide⟩

theorem sameParts_orders : SameParts recordBranch (stripped inTurn) (stripped oneByOne) :=
  sameParts_of_keys (by decide)

/-- Each branch gets its own result, in both orders. -/
theorem branches_linked_in_any_order :
    (∃ q ∈ requests (buildTrajectoryDocument inTurn).messages,
      ∃ r, AnsweredOnce (buildTrajectoryDocument inTurn).messages q r ∧
        q.2.resultMessageId = some r.id) ∧
    ∀ m ∈ (buildTrajectoryDocument inTurn).messages,
      ∀ m' ∈ (buildTrajectoryDocument oneByOne).messages, m.id = m'.id →
        m.toolCalls.map (·.resultMessageId) = m'.toolCalls.map (·.resultMessageId) := by
  have matched := results_matched inTurn inTurn (by decide)
  have once : ∃ q ∈ requests (buildTrajectoryDocument inTurn).messages,
      ∃ r ∈ (buildTrajectoryDocument inTurn).messages,
        (requests (buildTrajectoryDocument inTurn).messages).filter (fun p => decide
          (branch p.1 = branch q.1 ∧ p.2.id = q.2.id)) = [q] ∧
        (buildTrajectoryDocument inTurn).messages.filter (fun x => decide
          (branch x = branch q.1 ∧ x.toolCallId = some q.2.id ∧ q.1.seq < x.seq)) = [r] := by
    decide
  obtain ⟨q, mem, r, _, asked, answered⟩ := once
  have answeredOnce : AnsweredOnce (buildTrajectoryDocument inTurn).messages q r :=
    ⟨asked, answered, separated_inTurn.traced (mem_requests.mp mem).1 q.2.id⟩
  exact ⟨⟨q, mem, r, answeredOnce, matched.2.2.1 q mem r answeredOnce⟩,
    matched.2.2.2 oneByOne oneByOne (by decide) separated_inTurn separated_oneByOne
      sameParts_orders⟩

/-- A call and its result, and a second result of the ancestry whose agent is not known. -/
def unknownAgent : List Json :=
  [ask 1 "a1" "reviewer" "one", answer 2 "r1" (.str "reviewer") "one", answer 3 "r2" .null "one"]

/-- The result of the unknown agent comes before the call. -/
def unknownAgentFirst : List Json :=
  [answer 1 "r2" .null "one", ask 2 "a1" "reviewer" "one", answer 3 "r1" (.str "reviewer") "one"]

/-- The reviewer's branch asks once and answers once, and every ancestry is known; yet the result
that names no agent is as close, and the call stays without one. Where that result is earlier, the
call has its own. -/
theorem unknown_agent_contests :
    (∀ lines ∈ [unknownAgent, unknownAgentFirst], readTrajectoryJsonl lines = .ok lines ∧
      ∀ x ∈ (buildTrajectoryDocument lines).messages, 2 ≤ (x.parentIds.getD []).length) ∧
      ((requests (buildTrajectoryDocument unknownAgent).messages).filter fun q =>
        branch q.1 = (some "reviewer", [.str "root", .str "one"])).map
          (fun q => (q.2.id, q.2.resultMessageId)) = [("t", none)] ∧
      ((buildTrajectoryDocument unknownAgent).messages.filter fun x =>
        branch x = (some "reviewer", [.str "root", .str "one"]) ∧ x.toolCallId = some "t").map
          (·.id) = ["r1"] ∧
      SameParts recordBranch (stripped unknownAgent) (stripped unknownAgentFirst) ∧
      (requests (buildTrajectoryDocument unknownAgentFirst).messages).map
          (fun q => (q.2.id, q.2.resultMessageId)) = [("t", some "r1")] :=
  ⟨by decide, by decide, by decide, sameParts_of_keys (by decide), by decide⟩

end ToolLinks
