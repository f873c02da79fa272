import Mathlib.Data.List.Nodup
import Mathlib.Data.List.Perm.Subperm

/-!
# Lists without repetitions

`List.eraseDups` keeps the first occurrence of every element, as the services do
with `indexOf(item) === index` and with a set of seen ids.
-/

namespace FirstOccurrences

universe u

variable {α : Type u} [DecidableEq α]

theorem nodup_eraseDups (xs : List α) : xs.eraseDups.Nodup := by
  induction size : xs.length using Nat.strongRecOn generalizing xs with
  | _ n ih =>
  cases xs with
  | nil => simp
  | cons x xs =>
    rw [List.eraseDups_cons, List.nodup_cons]
    have shorter : (xs.filter fun b => !b == x).length < n := by
      have := List.length_filter_le (fun b => !b == x) xs
      rw [List.length_cons] at size
      omega
    constructor
    · simp [List.mem_eraseDups]
    · exact ih _ shorter _ rfl

theorem eraseDups_of_nodup {xs : List α} (h : xs.Nodup) : xs.eraseDups = xs := by
  induction xs with
  | nil => rfl
  | cons x xs ih =>
    obtain ⟨fresh, rest⟩ := List.nodup_cons.mp h
    have kept : (xs.filter fun b => !b == x) = xs := by
      apply List.filter_eq_self.mpr
      intro b hb
      have : b ≠ x := fun same => fresh (same ▸ hb)
      simpa using this
    rw [List.eraseDups_cons, kept, ih rest]

/-- It does not matter whether others are dropped before or after. -/
theorem eraseDups_filter (p : α → Bool) (xs : List α) :
    (xs.filter p).eraseDups = xs.eraseDups.filter p := by
  induction size : xs.length using Nat.strongRecOn generalizing xs with
  | _ n ih =>
  cases xs with
  | nil => simp
  | cons x xs =>
    have shorter : (xs.filter fun b => !b == x).length < n := by
      have := List.length_filter_le (fun b => !b == x) xs
      rw [List.length_cons] at size
      omega
    have later := ih _ shorter (xs.filter fun b => !b == x) rfl
    rw [List.eraseDups_cons]
    by_cases kept : p x = true
    · rw [List.filter_cons_of_pos kept, List.filter_cons_of_pos kept, List.eraseDups_cons, ← later,
        List.filter_filter, List.filter_filter]
      simp only [Bool.and_comm]
    · have same : (xs.filter fun b => !b == x).filter p = xs.filter p := by
        rw [List.filter_filter]
        refine List.filter_congr fun b _ => ?_
        by_cases eq : b = x
        · simp [eq, kept]
        · simp [eq]
      rw [List.filter_cons_of_neg kept, List.filter_cons_of_neg kept, ← later, same]

theorem length_eraseDups_le (xs : List α) : xs.eraseDups.length ≤ xs.length :=
  ((nodup_eraseDups xs).subperm fun _ mem => List.mem_eraseDups.mp mem).length_le

/-- When nothing was dropped there was nothing to drop. -/
theorem nodup_of_length_eraseDups {xs : List α} (all : xs.length ≤ xs.eraseDups.length) :
    xs.Nodup := by
  induction xs with
  | nil => exact List.nodup_nil
  | cons x xs ih =>
    rw [List.eraseDups_cons, List.length_cons, List.length_cons] at all
    have rest := length_eraseDups_le (xs.filter fun b => !b == x)
    have few := List.length_filter_le (fun b => !b == x) xs
    have full : (xs.filter fun b => !b == x).length = xs.length := by omega
    have others := List.length_filter_eq_length_iff.mp full
    have same : (xs.filter fun b => !b == x) = xs := List.filter_eq_self.mpr others
    rw [same] at all
    refine List.nodup_cons.mpr ⟨fun mem => ?_, ih (by omega)⟩
    simpa using others x mem

/-- Distinct keys find each its own value. -/
theorem filterMap_lookup {β : Type*} {items : List (α × β)} (distinct : (items.map Prod.fst).Nodup) :
    (items.map Prod.fst).filterMap (fun key => items.lookup key) = items.map Prod.snd := by
  induction items with
  | nil => rfl
  | cons item items ih =>
    obtain ⟨key, value⟩ := item
    obtain ⟨fresh, distinct⟩ := List.nodup_cons.mp distinct
    have others : ∀ other ∈ items.map Prod.fst,
        List.lookup other ((key, value) :: items) = items.lookup other := by
      intro other mem
      have different : (other == key) = false := by
        rw [beq_eq_false_iff_ne]
        intro same
        exact fresh (same ▸ mem)
      rw [List.lookup_cons, different]
    rw [List.map_cons, List.filterMap_cons, List.lookup_cons_self, List.filterMap_congr others,
      ih distinct, List.map_cons]

/-- The occurrence that is kept, with what is kept after it. -/
theorem eraseDups_split {before rest : List α} {x : α} (first : x ∉ before) :
    (before ++ x :: rest).eraseDups =
      before.eraseDups ++ x :: (rest.removeAll (before ++ [x])).eraseDups := by
  have together : before ++ x :: rest = (before ++ [x]) ++ rest := by simp
  have one : ([x] : List α).removeAll before = [x] := by
    simp [List.removeAll, first]
  rw [together, List.eraseDups_append, List.eraseDups_append, one, List.append_assoc]
  rfl

/-- An element ends up last exactly when everything behind its first occurrence has
occurred before. -/
theorem getLast?_eraseDups {xs : List α} {x : α} :
    xs.eraseDups.getLast? = some x ↔
      ∃ before rest, xs = before ++ x :: rest ∧ x ∉ before ∧
        ∀ y ∈ rest, y ∈ before ∨ y = x := by
  have behind : ∀ before rest : List α, x ∉ before →
      ((before ++ x :: rest).eraseDups.getLast? = some x ↔
        ∀ y ∈ rest, y ∈ before ∨ y = x) := by
    intro before rest first
    rw [eraseDups_split first]
    have members : ∀ y, y ∈ (rest.removeAll (before ++ [x])).eraseDups ↔
        y ∈ rest ∧ ¬ (y ∈ before ∨ y = x) := by
      intro y
      rw [List.mem_eraseDups, List.removeAll, List.mem_filter]
      simp
    constructor
    · intro last y hy
      by_contra new
      have kept : y ∈ (rest.removeAll (before ++ [x])).eraseDups := (members y).mpr ⟨hy, new⟩
      have tail : (rest.removeAll (before ++ [x])).eraseDups.getLast? = some x := by
        obtain ⟨z, found⟩ := Option.isSome_iff_exists.mp
          (List.getLast?_isSome.mpr (List.ne_nil_of_mem kept))
        rw [List.getLast?_append, List.getLast?_cons, found] at last
        rw [found]
        exact last
      exact ((members x).mp (List.mem_of_getLast? tail)).2 (.inr rfl)
    · intro seen
      have gone : (rest.removeAll (before ++ [x])).eraseDups = [] := by
        rw [List.eq_nil_iff_forall_not_mem]
        intro y mem
        exact ((members y).mp mem).2 (seen y ((members y).mp mem).1)
      simp [gone]
  constructor
  · intro last
    have mem : x ∈ xs := List.mem_eraseDups.mp (List.mem_of_getLast? last)
    obtain ⟨before, rest, rfl, first⟩ := List.eq_append_cons_of_mem mem
    exact ⟨before, rest, rfl, first, (behind before rest first).mp last⟩
  · rintro ⟨before, rest, rfl, first, seen⟩
    exact (behind before rest first).mpr seen

theorem eraseDups_map {β : Type*} [DecidableEq β] {f : α → β} (injective : Function.Injective f)
    (xs : List α) : (xs.map f).eraseDups = xs.eraseDups.map f := by
  induction size : xs.length using Nat.strongRecOn generalizing xs with
  | _ n ih =>
  cases xs with
  | nil => rfl
  | cons x xs =>
    have shorter : (xs.filter fun b => !b == x).length < n := by
      have := List.length_filter_le (fun b => !b == x) xs
      rw [List.length_cons] at size
      omega
    have others : (xs.map f).filter (fun b => !b == f x) =
        (xs.filter fun b => !b == x).map f := by
      rw [List.filter_map]
      congr 1
      apply List.filter_congr
      intro b _
      simp [injective.eq_iff]
    rw [List.map_cons, List.eraseDups_cons, List.eraseDups_cons, List.map_cons, others,
      ih _ shorter _ rfl]

end FirstOccurrences
