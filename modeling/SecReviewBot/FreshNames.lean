import Mathlib.Data.List.Nodup
import Mathlib.Logic.Function.Basic

/-!
# Numbered names

Names are given out by counting up from a number and skipping the names in use. When
different numbers have different names the search ends, and what it finds depends only
on which numbers are free from there on.
-/

namespace FreshNames

variable {ν : Type*} [DecidableEq ν] (name : Nat → ν)

/-- Count up while the name is in use, at most `fuel` times. -/
def firstFree (taken : List ν) : Nat → Nat → Nat
  | 0, n => n
  | fuel + 1, n => if name n ∈ taken then firstFree taken fuel (n + 1) else n

/-- The first number from `start` on whose name is not in use. -/
def fresh (taken : List ν) (start : Nat) : Nat := firstFree name taken taken.length start

/-- The first `count` of them. -/
def freshMany : List ν → Nat → Nat → List Nat
  | _, 0, _ => []
  | taken, count + 1, start =>
    fresh name taken start ::
      freshMany (taken ++ [name (fresh name taken start)]) count (fresh name taken start + 1)

/-- The name is free and its number not yet passed. -/
def Free (taken : List ν) (start n : Nat) : Prop := start ≤ n ∧ name n ∉ taken

variable {name} {taken : List ν} {start n : Nat}

theorem firstFree_spec (taken : List ν) (fuel n : Nat) :
    n ≤ firstFree name taken fuel n ∧
      (∀ m, n ≤ m → m < firstFree name taken fuel n → name m ∈ taken) ∧
      (name (firstFree name taken fuel n) ∈ taken → firstFree name taken fuel n = n + fuel) := by
  induction fuel generalizing n with
  | zero =>
    refine ⟨Nat.le_refl n, fun m low high => ?_, fun _ => rfl⟩
    rw [firstFree] at high
    omega
  | succ fuel ih =>
    rw [firstFree]
    split
    · next used =>
      obtain ⟨low, passed, stuck⟩ := ih (n + 1)
      refine ⟨by omega, fun m low' below => ?_, fun inside => ?_⟩
      · by_cases same : m = n
        · rw [same]
          exact used
        · exact passed m (by omega) below
      · have := stuck inside
        omega
    · next free =>
      exact ⟨Nat.le_refl n, fun m low high => by omega, fun inside => absurd inside free⟩

theorem fresh_ge (name : Nat → ν) (taken : List ν) (start : Nat) :
    start ≤ fresh name taken start :=
  (firstFree_spec taken _ start).1

theorem fresh_passed {m : Nat} (low : start ≤ m) (high : m < fresh name taken start) :
    name m ∈ taken :=
  (firstFree_spec taken _ start).2.1 m low high

theorem fresh_notMem (injective : Function.Injective name) (taken : List ν) (start : Nat) :
    name (fresh name taken start) ∉ taken := by
  intro inside
  have stuck : fresh name taken start = start + taken.length :=
    (firstFree_spec taken _ start).2.2 inside
  -- then one more name than there are in use would be in use
  have used : (List.range' start (taken.length + 1)).map name ⊆ taken := by
    intro x mem
    obtain ⟨m, range, rfl⟩ := List.mem_map.mp mem
    obtain ⟨low, high⟩ := List.mem_range'_1.mp range
    by_cases last : m = start + taken.length
    · rw [last, ← stuck]
      exact inside
    · exact fresh_passed low (by omega)
  have range : (List.range' start (taken.length + 1)).Nodup := List.nodup_range'
  have distinct := range.map injective
  have few := distinct.length_le_of_subset used
  rw [List.length_map, List.length_range'] at few
  omega

/-- The search finds the least free number. -/
theorem fresh_eq_of_least (injective : Function.Injective name) (free : Free name taken start n)
    (least : ∀ m, Free name taken start m → n ≤ m) : fresh name taken start = n := by
  have low := least _ ⟨fresh_ge name taken start, fresh_notMem injective taken start⟩
  have high : ¬ n < fresh name taken start := fun before => free.2 (fresh_passed free.1 before)
  omega

theorem fresh_free (injective : Function.Injective name) (taken : List ν) (start : Nat) :
    Free name taken start (fresh name taken start) :=
  ⟨fresh_ge name taken start, fresh_notMem injective taken start⟩

theorem fresh_least {m : Nat} (free : Free name taken start m) : fresh name taken start ≤ m := by
  by_contra before
  exact free.2 (fresh_passed free.1 (by omega))

/-- Where the same numbers are free the same one is found. -/
theorem fresh_congr (injective : Function.Injective name) {other : Nat}
    (same : ∀ n, Free name taken start n ↔ Free name taken other n) :
    fresh name taken start = fresh name taken other :=
  fresh_eq_of_least injective ((same _).mpr (fresh_free injective taken other))
    fun m free => fresh_least ((same m).mp free)

/-- The number after the last one given out. -/
def nextAfter : List Nat → Nat → Nat
  | [], start => start
  | n :: rest, _ => nextAfter rest (n + 1)

theorem freshMany_length (taken : List ν) (count start : Nat) :
    (freshMany name taken count start).length = count := by
  induction count generalizing taken start with
  | zero => rfl
  | succ count ih => rw [freshMany, List.length_cons, ih]

theorem freshMany_free (injective : Function.Injective name) (taken : List ν) (count start : Nat) :
    ∀ n ∈ freshMany name taken count start, Free name taken start n := by
  induction count generalizing taken start with
  | zero => simp [freshMany]
  | succ count ih =>
    intro n mem
    rcases List.mem_cons.mp mem with rfl | mem
    · exact fresh_free injective taken start
    · obtain ⟨low, absent⟩ := ih _ _ n mem
      have first := fresh_ge name taken start
      exact ⟨by omega, fun inside => absent (List.mem_append_left _ inside)⟩

theorem freshMany_nodup (injective : Function.Injective name) (taken : List ν) (count start : Nat) :
    (freshMany name taken count start).Nodup := by
  induction count generalizing taken start with
  | zero => exact List.nodup_nil
  | succ count ih =>
    rw [freshMany, List.nodup_cons]
    refine ⟨fun mem => ?_, ih _ _⟩
    have low := (freshMany_free injective _ _ _ _ mem).1
    omega

theorem nextAfter_ge (taken : List ν) (count start : Nat) :
    start ≤ nextAfter (freshMany name taken count start) start := by
  induction count generalizing taken start with
  | zero => exact Nat.le_refl start
  | succ count ih =>
    have first := fresh_ge name taken start
    have later := ih (taken ++ [name (fresh name taken start)]) (fresh name taken start + 1)
    rw [freshMany, nextAfter]
    omega

/-- Counting on from the start or from the last name given out leaves the same free
numbers. -/
theorem free_nextAfter_iff (taken : List ν) (count start n : Nat) :
    Free name (taken ++ (freshMany name taken count start).map name) start n ↔
      Free name (taken ++ (freshMany name taken count start).map name)
        (nextAfter (freshMany name taken count start) start) n := by
  induction count generalizing taken start with
  | zero => rfl
  | succ count ih =>
    have shift : taken ++ (freshMany name taken (count + 1) start).map name =
        taken ++ [name (fresh name taken start)] ++
          (freshMany name (taken ++ [name (fresh name taken start)]) count
            (fresh name taken start + 1)).map name := by
      rw [freshMany, List.map_cons, List.append_assoc]
      rfl
    rw [shift, freshMany, nextAfter, ← ih]
    constructor
    · rintro ⟨low, absent⟩
      refine ⟨?_, absent⟩
      by_contra before
      -- a number up to the first one found is in use
      rcases Nat.lt_or_ge n (fresh name taken start) with passed | same
      · exact absent (by simp [fresh_passed low passed])
      · have eq : n = fresh name taken start := by omega
        exact absent (by simp [eq])
    · rintro ⟨low, absent⟩
      have first := fresh_ge name taken start
      exact ⟨by omega, absent⟩

end FreshNames
