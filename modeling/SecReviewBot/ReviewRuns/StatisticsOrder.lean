import SecReviewBot.ReviewRuns.StatisticsConservation

/-!
# The snapshot and the order of observations

Two reads of the same data settle a run when their snapshots agree. The observations may
arrive in any order; the groups come in the order of a text that leaves one of their
coordinates out, so groups that this text does not tell apart stand as they arrived.
-/

namespace StatisticsOrder

open DoubleSums GroupedSums StableSorts FirstOccurrences
open MemoryCatalogSchema (sortByCodeUnits utf16 utf16Units)
open ExecutionStatisticsStore ExecutionStatistics StatisticsConservation

theorem utf16Units_cancel {c d : Char} {r s : List Nat}
    (equal : utf16Units c ++ r = utf16Units d ++ s) : c = d ∧ r = s := by
  have validC := c.valid
  have validD := d.valid
  have back : ∀ {x y : Char}, x.toNat = y.toNat → x = y :=
    fun same => Char.ext (UInt32.toNat_inj.mp same)
  have rangeC : c.toNat < 0xD800 ∨ 0xDFFF < c.toNat ∧ c.toNat < 0x110000 := validC
  have rangeD : d.toNat < 0xD800 ∨ 0xDFFF < d.toNat ∧ d.toNat < 0x110000 := validD
  simp only [utf16Units] at equal
  split at equal <;> split at equal <;>
    simp only [List.cons_append, List.nil_append, List.cons.injEq] at equal
  · exact ⟨back equal.1, equal.2⟩
  · omega
  · omega
  · exact ⟨back (by omega), equal.2.2⟩

theorem utf16_injective : Function.Injective utf16 := by
  have lists : ∀ xs ys : List Char, xs.flatMap utf16Units = ys.flatMap utf16Units → xs = ys := by
    intro xs
    have units : ∀ c : Char, utf16Units c ≠ [] := by
      intro c
      simp only [utf16Units]
      split <;> simp
    induction xs with
    | nil =>
      intro ys equal
      cases ys with
      | nil => rfl
      | cons d rest =>
        rw [List.flatMap_nil, List.flatMap_cons] at equal
        exact absurd (List.append_eq_nil_iff.mp equal.symm).1 (units d)
    | cons c rest ih =>
      intro ys equal
      cases ys with
      | nil =>
        rw [List.flatMap_nil, List.flatMap_cons] at equal
        exact absurd (List.append_eq_nil_iff.mp equal).1 (units c)
      | cons d later =>
        rw [List.flatMap_cons, List.flatMap_cons] at equal
        obtain ⟨rfl, further⟩ := utf16Units_cancel equal
        rw [ih later further]
  intro a b equal
  exact String.toList_injective (lists _ _ equal)

theorem sortByCodeUnits_perm {xs ys : List String} (perm : xs.Perm ys) :
    sortByCodeUnits xs = sortByCodeUnits ys := by
  have total : Std.Total fun a b => utf16 a ≤ utf16 b := ⟨fun a b => le_total _ _⟩
  have trans : IsTrans String fun a b => utf16 a ≤ utf16 b := ⟨fun a b c => le_trans⟩
  refine List.Perm.eq_of_pairwise ?_ (List.pairwise_insertionSort _ xs)
    (List.pairwise_insertionSort _ ys)
    ((List.perm_insertionSort _ xs).trans (perm.trans (List.perm_insertionSort _ ys).symm))
  intro a b _ _ before after
  exact utf16_injective (le_antisymm before after)

/-- In double precision, too, the order of additions does not change a reported sum. -/
def SumsAgree (calls : List LangfuseObservation) : Prop :=
  ∀ field, (∀ call ∈ calls, reports field call = true) → ∀ others, others.Perm calls →
    doubleSum (reportedValue field) others = doubleSum (reportedValue field) calls

structure OrderFree (collation : Collation) (generations : List LangfuseObservation) : Prop where
  groups : ∀ a ∈ generations, ∀ b ∈ generations, coordinates a ≠ coordinates b →
    ¬ collation.Ties (sortText (coordinates a)) (sortText (coordinates b))
  run : SumsAgree generations
  group : ∀ call ∈ generations, SumsAgree (callsOf (coordinates call) generations)

/-- Every order of the roots and the generations gives the same snapshot. -/
def SameInEveryOrder (runtime : Runtime) (read : ExecutionStatisticsRead) : Prop :=
  ∀ other : ExecutionStatisticsRead, other.roots.Perm read.roots →
    other.generations.Perm read.generations →
      other.excludedNonReviewRootCount = read.excludedNonReviewRootCount →
        aggregateExecutionStatistics runtime other = aggregateExecutionStatistics runtime read

/-- Sums below the bound of exact addition agree. -/
theorem sumsAgree_of_exact {calls : List LangfuseObservation} (exact : Exact calls) :
    SumsAgree calls := by
  intro field _ others perm
  have same := sumOf_perm (fun call => (reportedValue field call).getD 0) perm
  rw [doubleSum_exact (exact field), doubleSum_exact (same ▸ exact field), same]

theorem usage_ext {u v : TokenUsage} (same : ∀ field, fieldOf u field = fieldOf v field) :
    u = v := by
  have input := same .inputTokens
  have output := same .outputTokens
  have total := same .totalTokens
  have read := same .cacheReadInputTokens
  have creation := same .cacheCreationInputTokens
  have reasoning := same .reasoningTokens
  cases u
  cases v
  simp only [fieldOf] at input output total read creation reasoning
  subst input output total read creation reasoning
  rfl

theorem completeTotals_perm {calls others : List LangfuseObservation} (perm : others.Perm calls)
    (agree : SumsAgree calls) :
    completeTotals (totalsOf others) others.length = completeTotals (totalsOf calls) calls.length := by
  refine usage_ext fun field => Option.ext fun n => ?_
  have members : (∀ call ∈ others, reports field call = true) ↔
      ∀ call ∈ calls, reports field call = true :=
    forall_congr' fun call => by rw [perm.mem_iff]
  rw [completeTotals_some, completeTotals_some, perm.length_eq, members]
  refine and_congr_right fun complete => ?_
  rw [agree field complete.2 others perm]

/-- The group of some coordinates as a snapshot shows it. -/
def groupFor (calls : List LangfuseObservation) (c : GroupCoordinates) : ExecutionStatisticsGroup :=
  groupOf (groupAfter c (callsOf c calls))

theorem groupFor_perm {calls others : List LangfuseObservation} (perm : others.Perm calls)
    {c : GroupCoordinates} (agree : SumsAgree (callsOf c calls)) :
    groupFor others c = groupFor calls c := by
  have own : (callsOf c others).Perm (callsOf c calls) := perm.filter _
  simp only [groupFor, groupOf, groupAfter]
  rw [completeTotals_perm own agree, own.length_eq, countIf, sumOf_perm _ own, countIf]

theorem groups_sorted (runtime : Runtime) (read : ExecutionStatisticsRead) :
    (aggregateExecutionStatistics runtime read).groups =
      sortOn runtime.collation (fun group => sortText group.coordinates)
        ((coordinatesOf read.generations).map (groupFor read.generations)) := by
  have mapped : sortOn runtime.collation
      (fun group : ExecutionStatisticsGroup => sortText group.coordinates)
        ((groupsOf read.generations).map groupOf) =
      (sortOn runtime.collation (fun group => sortText group.coordinates)
        (groupsOf read.generations)).map groupOf :=
    sortOn_map groupOf (fun _ => rfl) (groupsOf read.generations)
  rw [snapshot_groups, ← mapped, groupsOf, List.map_map]
  rfl

theorem groups_same {runtime : Runtime} {read other : ExecutionStatisticsRead}
    (free : OrderFree runtime.collation read.generations)
    (perm : other.generations.Perm read.generations) :
    (aggregateExecutionStatistics runtime other).groups =
      (aggregateExecutionStatistics runtime read).groups := by
  have keys : (coordinatesOf other.generations).Perm (coordinatesOf read.generations) := by
    refine (List.perm_ext_iff_of_nodup (nodup_eraseDups _) (nodup_eraseDups _)).mpr fun c => ?_
    rw [List.mem_eraseDups, List.mem_eraseDups, List.mem_map, List.mem_map]
    exact exists_congr fun call => by rw [perm.mem_iff]
  have each : ∀ c ∈ coordinatesOf other.generations,
      groupFor other.generations c = groupFor read.generations c := by
    intro c known
    obtain ⟨call, mem, rfl⟩ := mem_coordinatesOf.mp (keys.mem_iff.mp known)
    exact groupFor_perm perm (free.group call mem)
  rw [groups_sorted, groups_sorted, List.map_congr_left each]
  refine sortOn_eq_of_perm (keys.map _) ?_
  intro a ha b hb differs
  obtain ⟨c, hc, rfl⟩ := List.mem_map.mp ha
  obtain ⟨d, hd, rfl⟩ := List.mem_map.mp hb
  obtain ⟨first, memFirst, rfl⟩ := mem_coordinatesOf.mp hc
  obtain ⟨second, memSecond, rfl⟩ := mem_coordinatesOf.mp hd
  exact free.groups first memFirst second memSecond fun same => differs (by rw [same])

theorem same_of_orderFree {runtime : Runtime} {read : ExecutionStatisticsRead}
    (free : OrderFree runtime.collation read.generations) : SameInEveryOrder runtime read := by
  intro other roots generations excluded
  have groups := groups_same free generations
  have totals := completeTotals_perm generations free.run
  simp only [aggregateExecutionStatistics, loop_state] at groups ⊢
  rw [groups, totals, roots.length_eq, generations.length_eq, excluded,
    sortByCodeUnits_perm (roots.map _), sortByCodeUnits_perm (generations.map _), countIf,
    sumOf_perm _ generations, countIf]

/-- The group of the first call stands before a later one it may precede. -/
theorem listed_before {runtime : Runtime} {read : ExecutionStatisticsRead}
    {a b : LangfuseObservation} {rest : List LangfuseObservation}
    (first : read.generations = a :: rest) (mem : b ∈ rest)
    (differs : coordinates a ≠ coordinates b)
    (le : runtime.collation.le (sortText (coordinates a)) (sortText (coordinates b)) = true) :
    [coordinates a, coordinates b].Sublist
      ((aggregateExecutionStatistics runtime read).groups.map (·.coordinates)) := by
  have listed : [coordinates a, coordinates b].Sublist (coordinatesOf read.generations) := by
    rw [coordinatesOf, first, List.map_cons, List.eraseDups_cons]
    refine List.Sublist.cons_cons _ (List.singleton_sublist.mpr ?_)
    rw [List.mem_eraseDups, List.mem_filter]
    exact ⟨List.mem_map_of_mem mem, by simpa using differs.symm⟩
  have pair : [groupFor read.generations (coordinates a),
      groupFor read.generations (coordinates b)].Sublist
        ((coordinatesOf read.generations).map (groupFor read.generations)) := listed.map _
  have sorted : [groupFor read.generations (coordinates a),
      groupFor read.generations (coordinates b)].Sublist
        (aggregateExecutionStatistics runtime read).groups := by
    rw [groups_sorted]
    exact pair_sublist_sortOn le pair
  exact sorted.map (·.coordinates)

theorem keys_nodup (runtime : Runtime) (read : ExecutionStatisticsRead) :
    ((aggregateExecutionStatistics runtime read).groups.map (·.coordinates)).Nodup := by
  have perm := (snapshot_groups_perm runtime read).map (·.coordinates)
  rw [List.map_map] at perm
  refine perm.nodup_iff.mpr ?_
  have same : ((·.coordinates) ∘ fun c =>
      groupOf (groupAfter c (callsOf c read.generations))) = id := rfl
  rw [same, List.map_id]
  exact nodup_eraseDups _

/-- Two different groups that tie change places with their calls. -/
theorem untied_of_same {runtime : Runtime} {read : ExecutionStatisticsRead}
    (same : SameInEveryOrder runtime read) {a b : LangfuseObservation}
    (memA : a ∈ read.generations) (memB : b ∈ read.generations)
    (differs : coordinates a ≠ coordinates b) :
    ¬ runtime.collation.Ties (sortText (coordinates a)) (sortText (coordinates b)) := by
  intro ties
  have leading : ∀ {x y : LangfuseObservation}, x ∈ read.generations → y ∈ read.generations →
      coordinates x ≠ coordinates y →
      runtime.collation.le (sortText (coordinates x)) (sortText (coordinates y)) = true →
      [coordinates x, coordinates y].Sublist
        ((aggregateExecutionStatistics runtime read).groups.map (·.coordinates)) := by
    intro x y memX memY apart le
    obtain ⟨before, after, split⟩ := List.append_of_mem memX
    have perm : (x :: (before ++ after)).Perm read.generations := split ▸ List.perm_middle.symm
    have later : y ∈ before ++ after := by
      rcases List.mem_cons.mp (perm.mem_iff.mpr memY) with rfl | later
      · exact absurd rfl apart
      · exact later
    have snapshot := same { read with generations := x :: (before ++ after) }
      (List.Perm.refl _) perm rfl
    rw [← snapshot]
    exact listed_before rfl later apart le
  exact pair_not_both (keys_nodup runtime read) (leading memA memB differs ties.1)
    (leading memB memA differs.symm ties.2)

theorem run_of_same {runtime : Runtime} {read : ExecutionStatisticsRead}
    (same : SameInEveryOrder runtime read) : SumsAgree read.generations := by
  intro field all others perm
  cases empty : read.generations with
  | nil =>
    rw [empty] at perm
    rw [List.perm_nil.mp perm]
  | cons call rest =>
    have snapshot := same { read with generations := others } (List.Perm.refl _) perm rfl
    have totals := congrArg (fun s => fieldOf s.tokenUsage field) snapshot
    have nonempty : 0 < read.generations.length := by simp [empty]
    have complete : fieldOf (completeTotals (totalsOf read.generations) read.generations.length)
        field = some _ := completeTotals_some.mpr ⟨⟨nonempty, all⟩, rfl⟩
    simp only [snapshot_tokenUsage] at totals
    rw [complete] at totals
    rw [← empty]
    exact (completeTotals_some.mp totals).2

/-- The calls of one group may come first, in any order. -/
theorem group_of_same {runtime : Runtime} {read : ExecutionStatisticsRead}
    (same : SameInEveryOrder runtime read) {call : LangfuseObservation}
    (mem : call ∈ read.generations) :
    SumsAgree (callsOf (coordinates call) read.generations) := by
  intro field all others perm
  let generations := others ++ read.generations.filter fun other =>
    !decide (coordinates other = coordinates call)
  have whole : generations.Perm read.generations :=
    (perm.append_right _).trans (List.filter_append_perm _ _)
  have own : callsOf (coordinates call) generations = others := by
    have kept : others.filter (fun other => coordinates other = coordinates call) = others := by
      refine List.filter_eq_self.mpr fun other inside => ?_
      exact (List.mem_filter.mp (perm.mem_iff.mp inside)).2
    have gone : (read.generations.filter fun other =>
        !decide (coordinates other = coordinates call)).filter
          (fun other => coordinates other = coordinates call) = [] := by
      refine List.filter_eq_nil_iff.mpr fun other inside => ?_
      simpa using (List.mem_filter.mp inside).2
    rw [callsOf, List.filter_append, kept, gone, List.append_nil]
  have snapshot := same { read with generations := generations } (List.Perm.refl _) whole rfl
  have known : coordinates call ∈ coordinatesOf generations :=
    mem_coordinatesOf.mpr ⟨call, whole.mem_iff.mpr mem, rfl⟩
  have listed : groupFor generations (coordinates call) ∈
      (aggregateExecutionStatistics runtime read).groups := by
    rw [← snapshot, mem_snapshot_groups]
    exact ⟨_, known, rfl⟩
  obtain ⟨c, _, equal⟩ := mem_snapshot_groups.mp listed
  have key : c = coordinates call := congrArg (·.coordinates) equal
  subst key
  have totals := congrArg (fun group => fieldOf group.tokenUsage field) equal
  simp only [groupFor, groupOf, groupAfter, own] at totals
  have nonempty : 0 < (callsOf (coordinates call) read.generations).length :=
    List.length_pos_of_mem (List.mem_filter.mpr ⟨mem, by simp⟩)
  have complete : fieldOf (completeTotals (totalsOf (callsOf (coordinates call) read.generations))
      (callsOf (coordinates call) read.generations).length) field = some _ :=
    completeTotals_some.mpr ⟨⟨nonempty, all⟩, rfl⟩
  rw [complete] at totals
  exact (completeTotals_some.mp totals.symm).2

/-- Where the sums are exact, only groups that tie can change places. -/
theorem sameInEveryOrder_iff_of_exact (runtime : Runtime) {read : ExecutionStatisticsRead}
    (exact : Exact read.generations) :
    SameInEveryOrder runtime read ↔ ∀ a ∈ read.generations, ∀ b ∈ read.generations,
      coordinates a ≠ coordinates b →
        ¬ runtime.collation.Ties (sortText (coordinates a)) (sortText (coordinates b)) := by
  constructor
  · exact fun same _ memA _ memB differs => untied_of_same same memA memB differs
  · intro untied
    exact same_of_orderFree ⟨untied, sumsAgree_of_exact exact,
      fun call _ => sumsAgree_of_exact (exact.callsOf (coordinates call))⟩

/-- A snapshot is the same in every order of observations exactly when its sums are and
no two of its groups tie. -/
theorem snapshot_order_free_iff (runtime : Runtime) (read : ExecutionStatisticsRead) :
    SameInEveryOrder runtime read ↔ OrderFree runtime.collation read.generations := by
  constructor
  · intro same
    exact ⟨fun _ memA _ memB differs => untied_of_same same memA memB differs, run_of_same same,
      fun _ mem => group_of_same same mem⟩
  · exact same_of_orderFree

/-- The draft and the refinement of one plan differ in the kind of the pass only. -/
theorem passes_reordered : ¬ SameInEveryOrder sampleRuntime plannerRead := by
  intro same
  have memA : plannerCall "a" "draft" 10 20 ∈ plannerRead.generations := by simp [plannerRead]
  have memB : plannerCall "b" "refinement" 30 40 ∈ plannerRead.generations := by
    simp [plannerRead]
  have differs : coordinates (plannerCall "a" "draft" 10 20) ≠
      coordinates (plannerCall "b" "refinement" 30 40) := by decide
  have equal : sortText (coordinates (plannerCall "a" "draft" 10 20)) =
      sortText (coordinates (plannerCall "b" "refinement" 30 40)) := by decide
  refine untied_of_same same memA memB differs ?_
  have reflexive : ∀ text, codePointOrder.le text text = true := fun text => by
    rcases codePointOrder.total text text with le | le <;> exact le
  rw [equal]
  exact ⟨reflexive _, reflexive _⟩

end StatisticsOrder
