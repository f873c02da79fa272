import Mathlib.Data.List.Nodup
import Mathlib.Data.List.Perm.Basic

/-!
# Sums over groups

Items that are split by a key have, group by group, the sum they have as a whole.
-/

namespace GroupedSums

variable {α κ : Type*}

def sumOf (amount : α → Nat) : List α → Nat
  | [] => 0
  | x :: rest => amount x + sumOf amount rest

variable {amount : α → Nat} {items : List α}

@[simp] theorem sumOf_nil : sumOf amount [] = 0 := rfl

@[simp] theorem sumOf_cons (x : α) (rest : List α) :
    sumOf amount (x :: rest) = amount x + sumOf amount rest := rfl

theorem sumOf_append (amount : α → Nat) (xs ys : List α) :
    sumOf amount (xs ++ ys) = sumOf amount xs + sumOf amount ys := by
  induction xs with
  | nil => simp
  | cons x rest ih => rw [List.cons_append, sumOf_cons, sumOf_cons, ih]; omega

theorem sumOf_map {β : Type*} (f : β → α) (xs : List β) :
    sumOf amount (xs.map f) = sumOf (fun x => amount (f x)) xs := by
  induction xs with
  | nil => rfl
  | cons x rest ih => rw [List.map_cons, sumOf_cons, sumOf_cons, ih]

theorem sumOf_congr {other : α → Nat} (same : ∀ x ∈ items, amount x = other x) :
    sumOf amount items = sumOf other items := by
  induction items with
  | nil => rfl
  | cons x rest ih =>
    rw [sumOf_cons, sumOf_cons, same x (by simp), ih fun y mem => same y (by simp [mem])]

theorem sumOf_one (items : List α) : sumOf (fun _ => 1) items = items.length := by
  induction items with
  | nil => rfl
  | cons x rest ih => rw [sumOf_cons, ih, List.length_cons]; omega

theorem sumOf_perm (amount : α → Nat) {xs ys : List α} (perm : xs.Perm ys) : sumOf amount xs = sumOf amount ys := by
  induction perm with
  | nil => rfl
  | cons x _ ih => rw [sumOf_cons, sumOf_cons, ih]
  | swap x y rest => simp only [sumOf_cons]; omega
  | trans _ _ first second => exact first.trans second

theorem le_sumOf (amount : α → Nat) {x : α} (mem : x ∈ items) : amount x ≤ sumOf amount items := by
  induction items with
  | nil => cases mem
  | cons y rest ih =>
    rw [sumOf_cons]
    rcases List.mem_cons.mp mem with rfl | later
    · omega
    · have := ih later
      omega

theorem sumOf_filter_le (p : α → Bool) (items : List α) :
    sumOf amount (items.filter p) ≤ sumOf amount items := by
  induction items with
  | nil => exact Nat.le_refl _
  | cons x rest ih =>
    rw [List.filter_cons, sumOf_cons]
    split
    · rw [sumOf_cons]; omega
    · omega

/-- Two sums that are bounded item by item and agree are equal item by item. -/
theorem sumOf_eq_iff {bound : α → Nat} (below : ∀ x ∈ items, amount x ≤ bound x) :
    sumOf amount items = sumOf bound items ↔ ∀ x ∈ items, amount x = bound x := by
  constructor
  · intro equal
    induction items with
    | nil => simp
    | cons x rest ih =>
      have later : ∀ y ∈ rest, amount y ≤ bound y := fun y mem => below y (by simp [mem])
      have least : sumOf amount rest ≤ sumOf bound rest := by
        clear ih equal below
        induction rest with
        | nil => exact Nat.le_refl _
        | cons y further ih =>
          have here := later y (by simp)
          have there := ih fun z mem => later z (by simp [mem])
          rw [sumOf_cons, sumOf_cons]
          omega
      have first := below x (by simp)
      rw [sumOf_cons, sumOf_cons] at equal
      intro y mem
      rcases List.mem_cons.mp mem with rfl | mem
      · omega
      · exact ih later (by omega) y mem
  · exact sumOf_congr

theorem sumOf_add (f g : α → Nat) (items : List α) :
    sumOf (fun x => f x + g x) items = sumOf f items + sumOf g items := by
  induction items with
  | nil => rfl
  | cons x rest ih => rw [sumOf_cons, sumOf_cons, sumOf_cons, ih]; omega

section Fibres

variable [DecidableEq κ] {key : α → κ} {keys : List κ}

theorem sumOf_ite_eq {k : κ} {n : Nat} (distinct : keys.Nodup) (mem : k ∈ keys) :
    sumOf (fun l => if k = l then n else 0) keys = n := by
  induction keys with
  | nil => cases mem
  | cons l rest ih =>
    have inside := List.nodup_cons.mp distinct
    rw [sumOf_cons]
    by_cases here : k = l
    · have nothing : sumOf (fun l => if k = l then n else 0) rest = 0 := by
        have zero : ∀ x ∈ rest, (if k = x then n else 0) = 0 := by
          intro x later
          rw [if_neg]
          rintro rfl
          exact inside.1 (here ▸ later)
        rw [sumOf_congr zero]
        clear ih distinct mem inside zero
        induction rest with
        | nil => rfl
        | cons _ _ ih => rw [sumOf_cons, ih]
      rw [if_pos here, nothing, Nat.add_zero]
    · rcases List.mem_cons.mp mem with same | later
      · exact absurd same here
      · rw [if_neg here, ih inside.2 later, Nat.zero_add]

/-- The items of all keys together are the items. -/
theorem sumOf_fibres (distinct : keys.Nodup) (covered : ∀ x ∈ items, key x ∈ keys) :
    sumOf (fun k => sumOf amount (items.filter fun x => key x = k)) keys =
      sumOf amount items := by
  induction items with
  | nil =>
    rw [sumOf_nil]
    clear distinct covered
    induction keys with
    | nil => rfl
    | cons _ _ ih => rw [sumOf_cons, ih]; rfl
  | cons x rest ih =>
    have each : ∀ k ∈ keys, sumOf amount ((x :: rest).filter fun y => key y = k) =
        (if key x = k then amount x else 0) +
          sumOf amount (rest.filter fun y => key y = k) := by
      intro k _
      by_cases here : key x = k
      · simp [here, sumOf_cons]
      · simp [here]
    rw [sumOf_congr each, sumOf_add, sumOf_ite_eq distinct (covered x (by simp)),
      ih fun y mem => covered y (by simp [mem]), sumOf_cons]

end Fibres

end GroupedSums
