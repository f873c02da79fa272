import Mathlib.Data.List.Induction
import SecReviewBot.ReviewRuns.ExecutionStatistics

/-!
# Conservation of calls and tokens

What the loop has counted after some calls is a sum over those calls, for the run and for
the calls of each group. The groups split the calls, so their counts and complete totals
add up to those of the run.
-/

namespace StatisticsConservation

open JsonValues JsonWriting StableSorts DoubleSums GroupedSums FirstOccurrences
open ExecutionStatisticsStore ExecutionStatistics

theorem nullable_injective : Function.Injective nullable := by
  intro a b equal
  cases a with
  | none => cases b with
    | none => rfl
    | some _ => cases equal
  | some x => cases b with
    | none => cases equal
    | some y =>
      injection equal with same
      rw [same]

theorem nullableNumber_injective : Function.Injective nullableNumber := by
  intro a b equal
  cases a with
  | none => cases b with
    | none => rfl
    | some _ => cases equal
  | some m => cases b with
    | none => cases equal
    | some n =>
      injection equal with same
      rw [Rat.natCast_inj.mp same]

theorem groupKey_injective (numbers : NumberTexts) : Function.Injective (groupKey numbers) := by
  intro c d equal
  have items := stringifyJson_injective numbers equal
  simp only [Json.arr.injEq, keyItems, List.cons.injEq, Json.str.injEq, and_true] at items
  obtain ⟨agent, case, delivery, kind, pass, batch, chunk, provider, model⟩ := items
  cases c
  cases d
  simp only [GroupCoordinates.mk.injEq]
  exact ⟨agent, nullable_injective case, nullable_injective delivery, nullable_injective kind,
    nullableNumber_injective pass, nullableNumber_injective batch, nullable_injective chunk,
    provider, nullable_injective model⟩

def reportedValue (field : TokenField) (call : LangfuseObservation) : Option Nat :=
  (tokenUsage call).bind fun usage => fieldOf usage field

def countIf (p : LangfuseObservation → Bool) (calls : List LangfuseObservation) : Nat :=
  sumOf (fun call => if p call then 1 else 0) calls

def reportsUsage (call : LangfuseObservation) : Bool := (tokenUsage call).isSome

def reports (field : TokenField) (call : LangfuseObservation) : Bool :=
  (reportedValue field call).isSome

def totalsOf (calls : List LangfuseObservation) : TokenTotals where
  sums field := doubleSum (reportedValue field) calls
  reported field := countIf (reports field) calls

def callsOf (c : GroupCoordinates) (calls : List LangfuseObservation) :
    List LangfuseObservation :=
  calls.filter fun call => coordinates call = c

/-- The group that has counted these calls. -/
def groupAfter (c : GroupCoordinates) (calls : List LangfuseObservation) : GroupAccumulator where
  coordinates := c
  modelCallCount := calls.length
  usageReportedCallCount := countIf reportsUsage calls
  totals := totalsOf calls

def coordinatesOf (calls : List LangfuseObservation) : List GroupCoordinates :=
  (calls.map coordinates).eraseDups

theorem countIf_concat (p : LangfuseObservation → Bool) (calls : List LangfuseObservation)
    (call : LangfuseObservation) :
    countIf p (calls ++ [call]) = countIf p calls + if p call then 1 else 0 := by
  rw [countIf, sumOf_append, sumOf, sumOf, Nat.add_zero, countIf]

theorem totalsOf_concat (calls : List LangfuseObservation) (call : LangfuseObservation) :
    totalsOf (calls ++ [call]) = (tokenUsage call).elim (totalsOf calls) (totalsOf calls).add := by
  have sums : ∀ field, doubleSum (reportedValue field) (calls ++ [call]) =
      (reportedValue field call).elim (doubleSum (reportedValue field) calls)
        (addDouble (doubleSum (reportedValue field) calls)) := by
    intro field
    rw [doubleSum, List.filterMap_append, List.foldl_append]
    cases found : reportedValue field call with
    | none => rw [List.filterMap_cons_none found]; rfl
    | some n => rw [List.filterMap_cons_some found]; rfl
  simp only [totalsOf, sums, countIf_concat]
  cases usage : tokenUsage call with
  | none => simp [reports, reportedValue, usage]
  | some u => simp [reports, reportedValue, usage, TokenTotals.add]

theorem groupAfter_concat (c : GroupCoordinates) (calls : List LangfuseObservation)
    (call : LangfuseObservation) :
    groupAfter c (calls ++ [call]) = (groupAfter c calls).count (tokenUsage call) := by
  simp only [groupAfter, GroupAccumulator.count, countIf_concat, totalsOf_concat,
    List.length_append, List.length_singleton, reportsUsage]
  rfl

theorem callsOf_concat (c : GroupCoordinates) (calls : List LangfuseObservation)
    (call : LangfuseObservation) :
    callsOf c (calls ++ [call]) = callsOf c calls ++ if coordinates call = c then [call] else [] := by
  rw [callsOf, List.filter_append, callsOf]
  by_cases own : coordinates call = c <;> simp [own]

theorem mem_coordinatesOf {calls : List LangfuseObservation} {c : GroupCoordinates} :
    c ∈ coordinatesOf calls ↔ ∃ call ∈ calls, coordinates call = c := by
  rw [coordinatesOf, List.mem_eraseDups, List.mem_map]

theorem callsOf_eq_nil {calls : List LangfuseObservation} {c : GroupCoordinates}
    (absent : c ∉ coordinatesOf calls) : callsOf c calls = [] := by
  rw [callsOf, List.filter_eq_nil_iff]
  intro call mem own
  exact absent (mem_coordinatesOf.mpr ⟨call, mem, by simpa using own⟩)

theorem coordinatesOf_concat (calls : List LangfuseObservation) (call : LangfuseObservation) :
    coordinatesOf (calls ++ [call]) =
      if coordinates call ∈ coordinatesOf calls then coordinatesOf calls
      else coordinatesOf calls ++ [coordinates call] := by
  rw [coordinatesOf, List.map_append, List.eraseDups_append, coordinatesOf]
  by_cases known : coordinates call ∈ (calls.map coordinates).eraseDups
  · have removed : [coordinates call].removeAll (calls.map coordinates) = [] := by
      rw [List.mem_eraseDups] at known
      simpa [List.removeAll] using known
    rw [if_pos known, List.map_singleton, removed]
    simp
  · have kept : [coordinates call].removeAll (calls.map coordinates) = [coordinates call] := by
      rw [List.mem_eraseDups] at known
      simpa [List.removeAll] using known
    rw [if_neg known, List.map_singleton, kept]
    simp [List.eraseDups_cons]

/-- The groups in the order their keys were set. -/
def groupEntries (numbers : NumberTexts) (calls counted : List LangfuseObservation) :
    List (String × GroupAccumulator) :=
  (coordinatesOf calls).map fun c => (groupKey numbers c, groupAfter c (callsOf c counted))

theorem any_groupEntries (numbers : NumberTexts) (calls counted : List LangfuseObservation)
    (c : GroupCoordinates) :
    ((groupEntries numbers calls counted).any fun entry => entry.1 = groupKey numbers c) = true ↔
      c ∈ coordinatesOf calls := by
  rw [List.any_eq_true]
  constructor
  · rintro ⟨entry, mem, same⟩
    obtain ⟨d, found, rfl⟩ := List.mem_map.mp mem
    rw [decide_eq_true_eq] at same
    exact groupKey_injective numbers same ▸ found
  · intro known
    exact ⟨_, List.mem_map_of_mem known, by simp⟩

theorem countCall_groups (numbers : NumberTexts) (calls : List LangfuseObservation)
    (call : LangfuseObservation) (state : Aggregation)
    (groups : state.groups = groupEntries numbers calls calls) :
    (countCall numbers state call).groups =
      groupEntries numbers (calls ++ [call]) (calls ++ [call]) := by
  -- the key is set before the call is counted
  have opened : (if state.groups.any fun entry => entry.1 = groupKey numbers (coordinates call)
      then state.groups
      else state.groups ++ [(groupKey numbers (coordinates call), newGroup (coordinates call))]) =
        groupEntries numbers (calls ++ [call]) calls := by
    rw [groups]
    by_cases known : coordinates call ∈ coordinatesOf calls
    · rw [if_pos ((any_groupEntries numbers calls calls _).mpr known), groupEntries, groupEntries,
        coordinatesOf_concat, if_pos known]
    · rw [if_neg (mt (any_groupEntries numbers calls calls _).mp known), groupEntries,
        groupEntries, coordinatesOf_concat, if_neg known, List.map_append, List.map_singleton,
        callsOf_eq_nil known]
      rfl
  simp only [countCall]
  rw [opened, groupEntries, groupEntries, List.map_map]
  refine List.map_congr_left fun c _ => ?_
  simp only [Function.comp_apply]
  by_cases own : coordinates call = c
  · subst own
    rw [if_pos rfl, callsOf_concat, if_pos rfl, groupAfter_concat]
  · have other : groupKey numbers c ≠ groupKey numbers (coordinates call) :=
      fun same => own (groupKey_injective numbers same).symm
    rw [if_neg other, callsOf_concat, if_neg own, List.append_nil]

/-- The variables of the loop after some calls. -/
theorem loop_state (numbers : NumberTexts) (calls : List LangfuseObservation) :
    calls.foldl (countCall numbers) noCalls =
      { totals := totalsOf calls
        usageReportedCallCount := countIf reportsUsage calls
        groups := groupEntries numbers calls calls } := by
  induction calls using List.reverseRecOn with
  | nil => rfl
  | append_singleton calls call ih =>
    rw [List.foldl_append, ih, List.foldl_cons, List.foldl_nil]
    have groups := countCall_groups numbers calls call
      { totals := totalsOf calls, usageReportedCallCount := countIf reportsUsage calls,
        groups := groupEntries numbers calls calls } rfl
    simp only [countCall] at groups ⊢
    rw [groups, totalsOf_concat, countIf_concat]
    rfl

/-- The groups of a snapshot before they are sorted. -/
def groupsOf (calls : List LangfuseObservation) : List GroupAccumulator :=
  (coordinatesOf calls).map fun c => groupAfter c (callsOf c calls)

theorem snapshot_groups (runtime : Runtime) (read : ExecutionStatisticsRead) :
    (aggregateExecutionStatistics runtime read).groups =
      (sortOn runtime.collation (fun group => sortText group.coordinates)
        (groupsOf read.generations)).map groupOf := by
  simp only [aggregateExecutionStatistics, loop_state, groupEntries, List.map_map]
  rfl

theorem snapshot_groups_perm (runtime : Runtime) (read : ExecutionStatisticsRead) :
    (aggregateExecutionStatistics runtime read).groups.Perm
      ((coordinatesOf read.generations).map fun c =>
        groupOf (groupAfter c (callsOf c read.generations))) := by
  rw [snapshot_groups]
  have sorted := (sortOn_perm runtime.collation (fun group => sortText group.coordinates)
    (groupsOf read.generations)).map groupOf
  rwa [groupsOf, List.map_map] at sorted

theorem mem_snapshot_groups {runtime : Runtime} {read : ExecutionStatisticsRead}
    {group : ExecutionStatisticsGroup} :
    group ∈ (aggregateExecutionStatistics runtime read).groups ↔
      ∃ c ∈ coordinatesOf read.generations,
        groupOf (groupAfter c (callsOf c read.generations)) = group := by
  rw [(snapshot_groups_perm runtime read).mem_iff, List.mem_map]

theorem snapshot_tokenUsage (runtime : Runtime) (read : ExecutionStatisticsRead) :
    (aggregateExecutionStatistics runtime read).tokenUsage =
      completeTotals (totalsOf read.generations) read.generations.length := by
  simp only [aggregateExecutionStatistics, loop_state]

theorem snapshot_usageReported (runtime : Runtime) (read : ExecutionStatisticsRead) :
    (aggregateExecutionStatistics runtime read).usageReportedCallCount =
      countIf reportsUsage read.generations := by
  simp only [aggregateExecutionStatistics, loop_state]

theorem countIf_eq_length {p : LangfuseObservation → Bool} {calls : List LangfuseObservation} :
    countIf p calls = calls.length ↔ ∀ call ∈ calls, p call = true := by
  have below : ∀ call ∈ calls, (if p call then 1 else 0) ≤ 1 := by
    intro call _
    split <;> omega
  rw [countIf, ← sumOf_one, sumOf_eq_iff below]
  refine forall₂_congr fun call _ => ?_
  cases p call <;> simp

/-- A total is reported when every call of a scope reported the field. -/
theorem completeTotals_some {calls : List LangfuseObservation} {field : TokenField} {n : Nat} :
    fieldOf (completeTotals (totalsOf calls) calls.length) field = some n ↔
      (0 < calls.length ∧ ∀ call ∈ calls, reports field call = true) ∧
        doubleSum (reportedValue field) calls = n := by
  have same : (totalsOf calls).reported field = calls.length ↔
      ∀ call ∈ calls, reports field call = true := countIf_eq_length
  rw [completeTotals, fieldOf_ofFields, ← same]
  split
  · next complete =>
    rw [Option.some.injEq]
    exact (and_iff_right complete).symm
  · next incomplete => simp [incomplete]

theorem completeTotals_isSome {calls : List LangfuseObservation} {field : TokenField} :
    (fieldOf (completeTotals (totalsOf calls) calls.length) field).isSome = true ↔
      0 < calls.length ∧ ∀ call ∈ calls, reports field call = true := by
  rw [Option.isSome_iff_exists]
  simp only [completeTotals_some]
  exact ⟨fun ⟨_, complete, _⟩ => complete, fun complete => ⟨_, complete, rfl⟩⟩

/-- The token values add up below the bound of exact addition. -/
def Exact (calls : List LangfuseObservation) : Prop :=
  ∀ field, sumOf (fun call => (reportedValue field call).getD 0) calls < exactBound

theorem Exact.callsOf {calls : List LangfuseObservation} (exact : Exact calls)
    (c : GroupCoordinates) : Exact (callsOf c calls) :=
  fun field => lt_of_le_of_lt (sumOf_filter_le _ calls) (exact field)

theorem tokenUsage_total {call : LangfuseObservation} {usage : TokenUsage} {t : Nat}
    (found : tokenUsage call = some usage) (total : usage.totalTokens = some t) :
    ∃ i o, usage.inputTokens = some i ∧ usage.outputTokens = some o ∧ t = addDouble i o := by
  simp only [tokenUsage] at found
  split at found
  · cases found
  · split at found
    · cases found
    · cases found
      simp only [Option.bind_eq_some_iff, Option.map_eq_some_iff] at total
      obtain ⟨i, input, o, output, rfl⟩ := total
      exact ⟨i, o, by simpa using input, by simpa using output, rfl⟩

/-- A call that reports a total reports its two parts. -/
theorem reported_parts {call : LangfuseObservation} {t : Nat}
    (total : reportedValue .totalTokens call = some t) :
    ∃ i o, reportedValue .inputTokens call = some i ∧
      reportedValue .outputTokens call = some o ∧ t = addDouble i o := by
  obtain ⟨usage, found, total⟩ := Option.bind_eq_some_iff.mp total
  obtain ⟨i, o, input, output, sum⟩ := tokenUsage_total found total
  exact ⟨i, o, by simp [reportedValue, found, fieldOf, input],
    by simp [reportedValue, found, fieldOf, output], sum⟩

theorem complete_total_parts {calls : List LangfuseObservation} (exact : Exact calls) {t : Nat}
    (total : fieldOf (completeTotals (totalsOf calls) calls.length) .totalTokens = some t) :
    ∃ i o, fieldOf (completeTotals (totalsOf calls) calls.length) .inputTokens = some i ∧
      fieldOf (completeTotals (totalsOf calls) calls.length) .outputTokens = some o ∧
        t = i + o := by
  obtain ⟨⟨nonempty, all⟩, rfl⟩ := completeTotals_some.mp total
  have parts : ∀ call ∈ calls, ∃ t i o, reportedValue .totalTokens call = some t ∧
      reportedValue .inputTokens call = some i ∧ reportedValue .outputTokens call = some o ∧
        t = i + o := by
    intro call mem
    obtain ⟨t, found⟩ := Option.isSome_iff_exists.mp (all call mem)
    obtain ⟨i, o, input, output, sum⟩ := reported_parts found
    have small : t < exactBound := by
      refine lt_of_le_of_lt ?_ (exact .totalTokens)
      have least := le_sumOf (fun call => (reportedValue .totalTokens call).getD 0) mem
      simpa [found] using least
    exact ⟨t, i, o, found, input, output, sum.trans (addDouble_of_lt (sum ▸ small))⟩
  refine ⟨_, _, completeTotals_some.mpr ⟨⟨nonempty, ?_⟩, rfl⟩,
    completeTotals_some.mpr ⟨⟨nonempty, ?_⟩, rfl⟩, ?_⟩
  · intro call mem
    obtain ⟨_, i, _, _, input, _⟩ := parts call mem
    simp [reports, input]
  · intro call mem
    obtain ⟨_, _, o, _, _, output, _⟩ := parts call mem
    simp [reports, output]
  · rw [doubleSum_exact (exact .totalTokens), doubleSum_exact (exact .inputTokens),
      doubleSum_exact (exact .outputTokens), ← sumOf_add]
    refine sumOf_congr fun call mem => ?_
    obtain ⟨t, i, o, found, input, output, rfl⟩ := parts call mem
    simp [found, input, output]

theorem callsOf_nonempty {calls : List LangfuseObservation} {c : GroupCoordinates}
    (known : c ∈ coordinatesOf calls) : 0 < (callsOf c calls).length := by
  obtain ⟨call, mem, own⟩ := mem_coordinatesOf.mp known
  exact List.length_pos_of_mem (List.mem_filter.mpr ⟨mem, by simp [own]⟩)

theorem sumOf_groups (runtime : Runtime) (read : ExecutionStatisticsRead)
    (amount : ExecutionStatisticsGroup → Nat) :
    sumOf amount (aggregateExecutionStatistics runtime read).groups =
      sumOf (fun c => amount (groupOf (groupAfter c (callsOf c read.generations))))
        (coordinatesOf read.generations) := by
  rw [sumOf_perm _ (snapshot_groups_perm runtime read), sumOf_map]

theorem sumOf_callsOf (amount : LangfuseObservation → Nat) (calls : List LangfuseObservation) :
    sumOf (fun c => sumOf amount (callsOf c calls)) (coordinatesOf calls) =
      sumOf amount calls := by
  refine sumOf_fibres (nodup_eraseDups _) fun call mem => ?_
  exact mem_coordinatesOf.mpr ⟨call, mem, rfl⟩

/-- The calls of a read and what its snapshot says of them. -/
structure Conserved (read : ExecutionStatisticsRead) (snapshot : ExecutionStatisticsSnapshot) :
    Prop where
  observed : snapshot.observedCallCount = read.generations.length
  keys : (snapshot.groups.map (·.coordinates)).Nodup
  covered : ∀ call ∈ read.generations, ∃ group ∈ snapshot.groups,
    group.coordinates = coordinates call
  members : ∀ group ∈ snapshot.groups,
    0 < group.modelCallCount ∧
      group.modelCallCount = (callsOf group.coordinates read.generations).length ∧
      group.usageReportedCallCount =
        countIf reportsUsage (callsOf group.coordinates read.generations)
  calls : sumOf (·.modelCallCount) snapshot.groups = snapshot.observedCallCount
  reported : sumOf (·.usageReportedCallCount) snapshot.groups = snapshot.usageReportedCallCount
  complete : 0 < snapshot.observedCallCount → ∀ field,
    (fieldOf snapshot.tokenUsage field).isSome = true ↔
      ∀ group ∈ snapshot.groups, (fieldOf group.tokenUsage field).isSome = true
  totals : ∀ field total, fieldOf snapshot.tokenUsage field = some total →
    sumOf (fun group => (fieldOf group.tokenUsage field).getD 0) snapshot.groups = total
  groupTotals : ∀ group ∈ snapshot.groups, ∀ field total,
    fieldOf group.tokenUsage field = some total →
      total = sumOf (fun call => (reportedValue field call).getD 0)
        (callsOf group.coordinates read.generations)
  coverage : snapshot.usageCoverage = .completeForObservedCalls ↔
    ∀ call ∈ read.generations, reportsUsage call = true
  runTotal : ∀ t, snapshot.tokenUsage.totalTokens = some t →
    ∃ i o, snapshot.tokenUsage.inputTokens = some i ∧
      snapshot.tokenUsage.outputTokens = some o ∧ t = i + o
  groupTotal : ∀ group ∈ snapshot.groups, ∀ t, group.tokenUsage.totalTokens = some t →
    ∃ i o, group.tokenUsage.inputTokens = some i ∧ group.tokenUsage.outputTokens = some o ∧
      t = i + o

theorem statistics_conserve_calls_and_tokens (runtime : Runtime) (read : ExecutionStatisticsRead)
    (exact : Exact read.generations) :
    Conserved read (aggregateExecutionStatistics runtime read) where
  observed := rfl
  keys := by
    have distinct : (((coordinatesOf read.generations).map fun c =>
        groupOf (groupAfter c (callsOf c read.generations))).map (·.coordinates)).Nodup := by
      rw [List.map_map]
      have same : ((·.coordinates) ∘ fun c =>
          groupOf (groupAfter c (callsOf c read.generations))) = id := rfl
      rw [same, List.map_id]
      exact nodup_eraseDups _
    exact ((snapshot_groups_perm runtime read).map _).nodup_iff.mpr distinct
  covered call mem :=
    ⟨_, mem_snapshot_groups.mpr ⟨_, mem_coordinatesOf.mpr ⟨call, mem, rfl⟩, rfl⟩, rfl⟩
  members group mem := by
    obtain ⟨c, known, rfl⟩ := mem_snapshot_groups.mp mem
    exact ⟨callsOf_nonempty known, rfl, rfl⟩
  calls := by
    have each : ∀ c, (groupOf (groupAfter c (callsOf c read.generations))).modelCallCount =
        sumOf (fun _ => 1) (callsOf c read.generations) := fun c => (sumOf_one _).symm
    rw [sumOf_groups]
    simp only [each]
    rw [sumOf_callsOf, sumOf_one]
    rfl
  reported := by
    rw [sumOf_groups, snapshot_usageReported]
    exact sumOf_callsOf _ _
  complete some field := by
    rw [snapshot_tokenUsage, completeTotals_isSome]
    constructor
    · rintro ⟨_, all⟩ group mem
      obtain ⟨c, known, rfl⟩ := mem_snapshot_groups.mp mem
      refine completeTotals_isSome.mpr ⟨callsOf_nonempty known, fun call mem => ?_⟩
      exact all call (List.mem_of_mem_filter mem)
    · intro groups
      refine ⟨some, fun call mem => ?_⟩
      have known := mem_coordinatesOf.mpr ⟨call, mem, rfl⟩
      have group := groups _ (mem_snapshot_groups.mpr ⟨_, known, rfl⟩)
      exact (completeTotals_isSome.mp group).2 call (List.mem_filter.mpr ⟨mem, by simp⟩)
  totals field total found := by
    rw [snapshot_tokenUsage] at found
    obtain ⟨⟨_, all⟩, rfl⟩ := completeTotals_some.mp found
    have each : ∀ c ∈ coordinatesOf read.generations,
        (fieldOf (groupOf (groupAfter c (callsOf c read.generations))).tokenUsage field).getD 0 =
          sumOf (fun call => (reportedValue field call).getD 0) (callsOf c read.generations) := by
      intro c known
      have complete : fieldOf (completeTotals (totalsOf (callsOf c read.generations))
          (callsOf c read.generations).length) field = some _ :=
        completeTotals_some.mpr ⟨⟨callsOf_nonempty known,
          fun call mem => all call (List.mem_of_mem_filter mem)⟩, rfl⟩
      rw [← doubleSum_exact (exact.callsOf c field)]
      exact congrArg (Option.getD · 0) complete
    rw [sumOf_groups, sumOf_congr each, sumOf_callsOf, doubleSum_exact (exact field)]
  groupTotals group mem field total found := by
    obtain ⟨c, _, rfl⟩ := mem_snapshot_groups.mp mem
    obtain ⟨_, rfl⟩ := completeTotals_some.mp found
    exact doubleSum_exact (exact.callsOf c field)
  coverage := by
    have counts : (aggregateExecutionStatistics runtime read).usageCoverage =
        if countIf reportsUsage read.generations = read.generations.length then
          .completeForObservedCalls else .partialUsage := by
      simp only [aggregateExecutionStatistics, loop_state]
    rw [counts, ← countIf_eq_length]
    split
    · next all => simp [all]
    · next not => simp [not]
  runTotal t found := by
    rw [snapshot_tokenUsage] at found ⊢
    exact complete_total_parts exact found
  groupTotal group mem t found := by
    obtain ⟨c, _, rfl⟩ := mem_snapshot_groups.mp mem
    exact complete_total_parts (exact.callsOf c) found

def sampleRuntime : Runtime where
  numbers := fractionNumbers
  collation := codePointOrder
  sha256 text := text

/-- A call of the delivery planner in one of its passes. -/
def plannerCall (id passKind : String) (input output : Nat) : LangfuseObservation where
  id := id
  metadata := [("sec_review_agent", .str "repository-delivery-planner"),
    ("sec_review_pass_kind", .str passKind), ("sec_review_pass_index", .str "0"),
    ("ls_provider", .str "openai")]
  model := some "gpt"
  usageDetails := some [("input", .num input), ("output", .num output), ("reasoning", .num 2)]

def plannerRead : ExecutionStatisticsRead where
  roots := []
  generations := [plannerCall "a" "draft" 10 20, plannerCall "b" "refinement" 30 40]
  excludedNonReviewRootCount := 0

theorem planner_calls_conserved :
    Conserved plannerRead (aggregateExecutionStatistics sampleRuntime plannerRead) :=
  statistics_conserve_calls_and_tokens sampleRuntime plannerRead fun field => by
    cases field <;> decide

end StatisticsConservation
