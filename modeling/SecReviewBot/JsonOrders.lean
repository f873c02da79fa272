import SecReviewBot.JsonTexts
import SecReviewBot.StableSorts

/-!
# JSON values and the order of their members

JavaScript lists the members of an object with the array indices first, in
ascending order, and the other names in the order they were added. A canonical
form adds them sorted by a collation, under which different names may compare
equal; a stable sort leaves such names in the order they had. So two values
have one canonical form exactly when they are equal up to the order of members
and their tied names stand in the same order.
-/

namespace JsonOrders

open JsonValues JsonTexts StableSorts

universe u

/-- A property of all JSON values, from items and members to the whole. -/
theorem json_induction {P : Json → Prop} (null : P .null) (bool : ∀ b, P (.bool b))
    (num : ∀ r, P (.num r)) (str : ∀ s, P (.str s))
    (arr : ∀ items, (∀ x ∈ items, P x) → P (.arr items))
    (obj : ∀ members, (∀ m ∈ members, P m.2) → P (.obj members)) : ∀ value, P value
  | .null => null
  | .bool b => bool b
  | .num r => num r
  | .str s => str s
  | .arr items => arr items fun x _ => json_induction null bool num str arr obj x
  | .obj members => obj members fun m _ => json_induction null bool num str arr obj m.2
termination_by value => sizeOf value
decreasing_by
  · have smaller := List.sizeOf_lt_of_mem ‹x ∈ items›
    simp only [Json.arr.sizeOf_spec]
    omega
  · have smaller := List.sizeOf_lt_of_mem ‹m ∈ members›
    have part : sizeOf m.2 < sizeOf m := by
      obtain ⟨key, value⟩ := m
      simp only [Prod.mk.sizeOf_spec]
      omega
    simp only [Json.obj.sizeOf_spec]
    omega

/-- No object has two members of one name. -/
inductive Distinct : Json → Prop where
  | null : Distinct .null
  | bool (b : Bool) : Distinct (.bool b)
  | num (r : Rat) : Distinct (.num r)
  | str (s : String) : Distinct (.str s)
  | arr {items : List Json} (each : ∀ x ∈ items, Distinct x) : Distinct (.arr items)
  | obj {members : List (String × Json)} (names : (members.map Prod.fst).Nodup)
      (each : ∀ m ∈ members, Distinct m.2) : Distinct (.obj members)

/-- Equal as JSON values: the order of members does not count. -/
inductive Same : Json → Json → Prop where
  | null : Same .null .null
  | bool (b : Bool) : Same (.bool b) (.bool b)
  | num (r : Rat) : Same (.num r) (.num r)
  | str (s : String) : Same (.str s) (.str s)
  | arr {xs ys : List Json} (length : xs.length = ys.length)
      (each : ∀ (i : Nat) x y, xs[i]? = some x → ys[i]? = some y → Same x y) :
      Same (.arr xs) (.arr ys)
  | obj {xs ys : List (String × Json)}
      (names : ∀ key, key ∈ xs.map Prod.fst ↔ key ∈ ys.map Prod.fst)
      (each : ∀ key x y, (key, x) ∈ xs → (key, y) ∈ ys → Same x y) : Same (.obj xs) (.obj ys)

/-- The number of a name that is an array index. -/
def arrayIndex (key : String) : Option Nat :=
  let n := digitsValue key.toList
  if Nat.toDigits 10 n = key.toList && n < 4294967295 then some n else none

theorem arrayIndex_injective {k l : String} {n : Nat} (hk : arrayIndex k = some n)
    (hl : arrayIndex l = some n) : k = l := by
  have spelled : ∀ key, arrayIndex key = some n → key.toList = Nat.toDigits 10 n := by
    intro key index
    simp only [arrayIndex] at index
    split at index
    · next spelled =>
      simp only [Bool.and_eq_true, decide_eq_true_eq] at spelled
      cases index
      exact spelled.1.symm
    · cases index
  exact String.toList_injective ((spelled k hk).trans (spelled l hl).symm)

section Entries

variable {V : Type u}

def indexBefore (a b : String × V) : Bool := (arrayIndex a.1).getD 0 ≤ (arrayIndex b.1).getD 0

/-- `Object.entries` of an object whose members were added in this order. -/
def entries (members : List (String × V)) : List (String × V) :=
  (members.filter fun m => (arrayIndex m.1).isSome).insertionSort
      (fun a b => indexBefore a b = true) ++
    members.filter fun m => (arrayIndex m.1).isNone

theorem entries_perm (members : List (String × V)) : (entries members).Perm members := by
  have split : (members.filter fun m => (arrayIndex m.1).isNone)
      = members.filter fun m => !(arrayIndex m.1).isSome := by
    congr 1
    funext m
    cases arrayIndex m.1 <;> rfl
  unfold entries
  rw [split]
  exact ((List.perm_insertionSort _ _).append_right _).trans
    (List.filter_append_perm _ _)

/-- The order depends on the names only. -/
theorem entries_map {W : Type u} (f : V → W) (members : List (String × V)) :
    entries (members.map fun m => (m.1, f m.2)) = (entries members).map fun m => (m.1, f m.2) := by
  have sorted := List.map_insertionSort (fun a b => indexBefore a b = true)
    (fun a b => indexBefore a b = true) (fun m : String × V => (m.1, f m.2))
    (members.filter fun m => (arrayIndex m.1).isSome) (fun _ _ _ _ => Iff.rfl)
  simp only [entries, List.map_append, sorted, List.filter_map]
  rfl

end Entries

section Sorting

variable {V : Type u} (collation : Collation)

/-- The stable sort of entries by their names. -/
def sortEntries (members : List (String × V)) : List (String × V) :=
  sortOn collation Prod.fst members

/-- The members of a sorted copy, as they are listed. -/
def order (members : List (String × V)) : List (String × V) :=
  entries (sortEntries collation (entries members))

theorem sortEntries_map {W : Type u} (f : V → W) (members : List (String × V)) :
    sortEntries collation (members.map fun m => (m.1, f m.2))
      = (sortEntries collation members).map fun m => (m.1, f m.2) :=
  sortOn_map (fun m : String × V => (m.1, f m.2)) (fun _ => rfl) members

theorem order_map {W : Type u} (f : V → W) (members : List (String × V)) :
    order collation (members.map fun m => (m.1, f m.2))
      = (order collation members).map fun m => (m.1, f m.2) := by
  simp only [order, entries_map, sortEntries_map]

theorem order_perm (members : List (String × V)) : (order collation members).Perm members :=
  (entries_perm _).trans ((sortOn_perm _ _ _).trans (entries_perm _))

variable {collation}

/-- Two names that only their position tells apart. -/
def Tied (collation : Collation) (k l : String) : Prop :=
  arrayIndex k = none ∧ arrayIndex l = none ∧ collation.Ties k l

/-- `k` comes before `l` when the names were added in the order of `names`. -/
def Precedes (collation : Collation) (names : List String) (k l : String) : Prop :=
  match arrayIndex k, arrayIndex l with
  | some i, some j => i ≤ j
  | some _, none => True
  | none, some _ => False
  | none, none => collation.le k l = true ∧ (collation.le l k = true → [k, l].Sublist names)

theorem pair_of_nodup {names : List String} (nodup : names.Nodup) {k l : String}
    (differs : k ≠ l) (hk : k ∈ names) (hl : l ∈ names) :
    [k, l].Sublist names ∨ [l, k].Sublist names := by
  induction names with
  | nil => cases hk
  | cons name rest ih =>
    have inside := List.nodup_cons.mp nodup
    rcases List.mem_cons.mp hk with rfl | later
    · rcases List.mem_cons.mp hl with rfl | other
      · exact absurd rfl differs
      · exact .inl ((List.singleton_sublist.mpr other).cons_cons k)
    · rcases List.mem_cons.mp hl with rfl | other
      · exact .inr ((List.singleton_sublist.mpr later).cons_cons l)
      · rcases ih inside.2 later other with first | second
        · exact .inl (first.cons name)
        · exact .inr (second.cons name)

/-- The indices of an object, ascending. -/
theorem indices_pairwise (members : List (String × V)) :
    ((members.filter fun m => (arrayIndex m.1).isSome).insertionSort
      fun a b => indexBefore a b = true).Pairwise fun a b => indexBefore a b = true := by
  have : Std.Total fun a b : String × V => indexBefore a b = true :=
    ⟨fun a b => by simpa [indexBefore] using Nat.le_total _ _⟩
  have : IsTrans (String × V) fun a b => indexBefore a b = true :=
    ⟨fun a b c => by simpa [indexBefore] using Nat.le_trans⟩
  exact List.pairwise_insertionSort _ _

/-- Names that compare as equal keep the order they were added in. -/
theorem named_sublist_sorted {members : List (String × V)} {k l : String}
    (hk : arrayIndex k = none) (hl : arrayIndex l = none) (le : collation.le k l = true)
    (before : [k, l].Sublist (members.map Prod.fst)) :
    [k, l].Sublist (((sortEntries collation (entries members)).filter
      fun m => (arrayIndex m.1).isNone).map Prod.fst) := by
  obtain ⟨pair, inside, names⟩ := List.sublist_map_iff.mp before
  obtain ⟨a, rest, rfl, rfl, tail⟩ := List.map_eq_cons_iff.mp names.symm
  obtain ⟨b, last, rfl, rfl, empty⟩ := List.map_eq_cons_iff.mp tail
  obtain rfl := List.map_eq_nil_iff.mp empty
  have kept : [a, b].filter (fun m => (arrayIndex m.1).isNone) = [a, b] := by simp [hk, hl]
  have listed : [a, b].Sublist (entries members) := by
    rw [← kept]
    exact (inside.filter _).trans (List.sublist_append_right _ _)
  have sorted : [a, b].Sublist (sortEntries collation (entries members)) :=
    pair_sublist_sortOn le listed
  have final := (sorted.filter fun m => (arrayIndex m.1).isNone).map Prod.fst
  rwa [kept] at final

/-- The names of a sorted copy stand as `Precedes` says. -/
theorem order_precedes {members : List (String × V)} (nodup : (members.map Prod.fst).Nodup) :
    ((order collation members).map Prod.fst).Pairwise
      (Precedes collation (members.map Prod.fst)) := by
  have sortedPerm : (sortEntries collation (entries members)).Perm members :=
    (sortOn_perm _ _ _).trans (entries_perm _)
  have sortedNodup : (((sortEntries collation (entries members)).filter
      fun m => (arrayIndex m.1).isNone).map Prod.fst).Nodup :=
    ((sortedPerm.map Prod.fst).nodup_iff.mpr nodup).sublist (List.filter_sublist.map Prod.fst)
  rw [order, entries, List.map_append, List.pairwise_append]
  refine ⟨?_, ?_, ?_⟩
  · rw [List.pairwise_map]
    refine (indices_pairwise _).imp_of_mem ?_
    intro a b ha hb before
    simp only [List.mem_insertionSort, List.mem_filter] at ha hb
    obtain ⟨i, hi⟩ := Option.isSome_iff_exists.mp ha.2
    obtain ⟨j, hj⟩ := Option.isSome_iff_exists.mp hb.2
    simpa [Precedes, indexBefore, hi, hj] using before
  · rw [List.pairwise_iff_forall_sublist]
    intro k l pair
    have hk := List.mem_map.mp (pair.subset (by simp : k ∈ [k, l]))
    have hl := List.mem_map.mp (pair.subset (by simp : l ∈ [k, l]))
    obtain ⟨a, ha, rfl⟩ := hk
    obtain ⟨b, hb, rfl⟩ := hl
    rw [List.mem_filter, Option.isNone_iff_eq_none] at ha hb
    have le : collation.le a.1 b.1 = true := by
      have sorted : (((sortEntries collation (entries members)).filter
          fun m => (arrayIndex m.1).isNone).map Prod.fst).Pairwise
          fun k l => collation.le k l = true := by
        rw [List.pairwise_map]
        exact (sortOn_pairwise collation Prod.fst (entries members)).filter _
      exact sorted.forall_sublist pair
    simp only [Precedes, ha.2, hb.2]
    refine ⟨le, ?_⟩
    intro tied
    have differs : a.1 ≠ b.1 := by
      intro same
      rw [same] at pair
      have twice := sortedNodup.sublist pair
      simp at twice
    rcases pair_of_nodup nodup differs
      (List.mem_map_of_mem (sortedPerm.mem_iff.mp ha.1))
      (List.mem_map_of_mem (sortedPerm.mem_iff.mp hb.1)) with first | second
    · exact first
    · exact absurd (named_sublist_sorted hb.2 ha.2 tied second) (pair_not_both sortedNodup pair)
  · intro k hk l hl
    obtain ⟨a, ha, rfl⟩ := List.mem_map.mp hk
    obtain ⟨b, hb, rfl⟩ := List.mem_map.mp hl
    rw [List.mem_insertionSort, List.mem_filter] at ha
    rw [List.mem_filter, Option.isNone_iff_eq_none] at hb
    obtain ⟨i, hi⟩ := Option.isSome_iff_exists.mp ha.2
    simp [Precedes, hi, hb.2]

theorem precedes_antisymm {names : List String} (nodup : names.Nodup) {k l : String}
    (stands : Precedes collation names k l) (back : Precedes collation names l k) : k = l := by
  cases nk : arrayIndex k with
  | some i =>
    cases nl : arrayIndex l with
    | some j =>
      simp only [Precedes, nk, nl] at stands back
      have index : i = j := Nat.le_antisymm stands back
      exact arrayIndex_injective nk (index ▸ nl)
    | none => simp [Precedes, nk, nl] at back
  | none =>
    cases nl : arrayIndex l with
    | some j => simp [Precedes, nk, nl] at stands
    | none =>
      simp only [Precedes, nk, nl] at stands back
      exact absurd (back.2 stands.1) (pair_not_both nodup (stands.2 back.1))

/-- The names of two sorted copies agree exactly when tied names stood in the
same order. -/
theorem order_names_eq_iff {xs : List (String × V)} {ys : List (String × V)}
    (hx : (xs.map Prod.fst).Nodup) (hy : (ys.map Prod.fst).Nodup)
    (same : ∀ key, key ∈ xs.map Prod.fst ↔ key ∈ ys.map Prod.fst) :
    (order collation xs).map Prod.fst = (order collation ys).map Prod.fst ↔
      ∀ k l, Tied collation k l → [k, l].Sublist (xs.map Prod.fst) →
        ¬ [l, k].Sublist (ys.map Prod.fst) := by
  have permX : ((order collation xs).map Prod.fst).Perm (xs.map Prod.fst) :=
    (order_perm collation xs).map _
  have permY : ((order collation ys).map Prod.fst).Perm (ys.map Prod.fst) :=
    (order_perm collation ys).map _
  have perm : (xs.map Prod.fst).Perm (ys.map Prod.fst) :=
    (List.perm_ext_iff_of_nodup hx hy).mpr same
  constructor
  · intro equal k l tied before after
    have precedesX : ∀ a b, [a, b].Sublist ((order collation xs).map Prod.fst) →
        Precedes collation (xs.map Prod.fst) a b :=
      fun _ _ pair => (order_precedes hx).forall_sublist pair
    have precedesY : ∀ a b, [a, b].Sublist ((order collation ys).map Prod.fst) →
        Precedes collation (ys.map Prod.fst) a b :=
      fun _ _ pair => (order_precedes hy).forall_sublist pair
    have differs : k ≠ l := by
      rintro rfl
      have twice := hx.sublist before
      simp at twice
    have hk : k ∈ (order collation xs).map Prod.fst := permX.mem_iff.mpr (before.subset (by simp))
    have hl : l ∈ (order collation xs).map Prod.fst := permX.mem_iff.mpr (before.subset (by simp))
    obtain ⟨nk, nl, le, le'⟩ := tied
    rcases pair_of_nodup (permX.nodup_iff.mpr hx) differs hk hl with first | second
    · rw [equal] at first
      have stands := precedesY k l first
      simp only [Precedes, nk, nl] at stands
      exact pair_not_both hy (stands.2 le') after
    · have stands := precedesX l k second
      simp only [Precedes, nk, nl] at stands
      exact pair_not_both hx (stands.2 le) before
  · intro agree
    have moved : ∀ k l, k ∈ xs.map Prod.fst → l ∈ xs.map Prod.fst →
        Precedes collation (xs.map Prod.fst) k l → Precedes collation (ys.map Prod.fst) k l := by
      intro k l hk hl stands
      cases nk : arrayIndex k with
      | some i => cases nl : arrayIndex l <;> simp_all [Precedes]
      | none =>
        cases nl : arrayIndex l with
        | some j => simp [Precedes, nk, nl] at stands
        | none =>
          simp only [Precedes, nk, nl] at stands ⊢
          refine ⟨stands.1, fun le => ?_⟩
          have before := stands.2 le
          have differs : k ≠ l := by
            rintro rfl
            have twice := hx.sublist before
            simp at twice
          rcases pair_of_nodup hy differs ((same k).mp hk) ((same l).mp hl) with first | second
          · exact first
          · exact absurd second (agree k l ⟨nk, nl, stands.1, le⟩ before)
    have sortedX : ((order collation xs).map Prod.fst).Pairwise
        (Precedes collation (ys.map Prod.fst)) := by
      refine (order_precedes hx).imp_of_mem ?_
      intro k l hk hl stands
      exact moved k l (permX.mem_iff.mp hk) (permX.mem_iff.mp hl) stands
    refine List.Perm.eq_of_pairwise ?_ sortedX (order_precedes hy)
      (permX.trans (perm.trans permY.symm))
    intro k l _ _ stands back
    exact precedes_antisymm hy stands back

end Sorting

end JsonOrders
