import Mathlib.Data.List.Sort
import Mathlib.Data.String.Basic

/-!
# Stable sorts by a text

A collation compares texts and may find different ones equal. A stable sort leaves the
items whose texts compare equal in the order they came in, so the sorted list depends on
the arrival order exactly when two different items are tied.
-/

namespace StableSorts

universe u

/-- `left.localeCompare(right) <= 0`. Different texts may compare equal. -/
structure Collation where
  le : String → String → Bool
  total : ∀ a b, le a b = true ∨ le b a = true
  trans : ∀ a b c, le a b = true → le b c = true → le a c = true

/-- `localeCompare` gives zero. -/
def Collation.Ties (collation : Collation) (a b : String) : Prop :=
  collation.le a b = true ∧ collation.le b a = true

section Sorting

variable {α : Type u} {collation : Collation} {text : α → String} {items : List α}

def sortOn (collation : Collation) (text : α → String) (items : List α) : List α :=
  items.insertionSort fun a b => collation.le (text a) (text b) = true

theorem total_on (collation : Collation) (text : α → String) :
    Std.Total fun a b => collation.le (text a) (text b) = true :=
  ⟨fun a b => collation.total (text a) (text b)⟩

theorem trans_on (collation : Collation) (text : α → String) :
    IsTrans α fun a b => collation.le (text a) (text b) = true :=
  ⟨fun a b c => collation.trans (text a) (text b) (text c)⟩

theorem sortOn_perm (collation : Collation) (text : α → String) (items : List α) :
    (sortOn collation text items).Perm items := List.perm_insertionSort _ _

theorem sortOn_pairwise (collation : Collation) (text : α → String) (items : List α) :
    (sortOn collation text items).Pairwise fun a b => collation.le (text a) (text b) = true := by
  have total := total_on collation text
  have trans := trans_on collation text
  exact List.pairwise_insertionSort _ items

theorem pair_not_both {items : List α} (nodup : items.Nodup) {a b : α}
    (first : [a, b].Sublist items) : ¬ [b, a].Sublist items := by
  induction items with
  | nil => cases first
  | cons item rest ih =>
    have inside := List.nodup_cons.mp nodup
    intro second
    cases first with
    | cons _ first =>
      cases second with
      | cons _ second => exact ih inside.2 first second
      | cons_cons _ second => exact inside.1 (first.subset (by simp))
    | cons_cons _ first =>
      cases second with
      | cons _ second => exact inside.1 (second.subset (by simp))
      | cons_cons _ second => exact inside.1 (List.singleton_sublist.mp second)

/-- An item that may stand first stays before one that came after it. -/
theorem pair_sublist_sortOn {a b : α} (le : collation.le (text a) (text b) = true)
    (before : [a, b].Sublist items) : [a, b].Sublist (sortOn collation text items) := by
  have total := total_on collation text
  have trans := trans_on collation text
  exact List.pair_sublist_insertionSort le before

theorem sortOn_map {β : Type u} (f : α → β) {other : β → String} (same : ∀ a, other (f a) = text a)
    (items : List α) :
    sortOn collation other (items.map f) = (sortOn collation text items).map f := by
  have sorted := List.map_insertionSort (fun a b => collation.le (text a) (text b) = true)
    (fun a b => collation.le (other a) (other b) = true) f items
    (fun a _ b _ => by rw [same, same])
  exact sorted.symm

/-- Without ties the sorted list does not depend on the arrival order. -/
theorem sortOn_eq_of_perm {others : List α} (perm : others.Perm items)
    (untied : ∀ a ∈ items, ∀ b ∈ items, a ≠ b → ¬ collation.Ties (text a) (text b)) :
    sortOn collation text others = sortOn collation text items := by
  have permOthers := sortOn_perm collation text others
  have permItems := sortOn_perm collation text items
  refine List.Perm.eq_of_pairwise ?_ (sortOn_pairwise collation text others)
    (sortOn_pairwise collation text items) (permOthers.trans (perm.trans permItems.symm))
  intro a b ha hb before after
  by_contra differs
  exact untied a (perm.mem_iff.mp (permOthers.mem_iff.mp ha)) b (permItems.mem_iff.mp hb) differs
    ⟨before, after⟩

end Sorting

/-- The order of the code points, which ties no two texts. -/
theorem codePoints_total (a b : String) : decide (a ≤ b) = true ∨ decide (b ≤ a) = true := by
  simpa using le_total a b

theorem codePoints_trans (a b c : String) (first : decide (a ≤ b) = true)
    (second : decide (b ≤ c) = true) : decide (a ≤ c) = true :=
  decide_eq_true (le_trans (of_decide_eq_true first) (of_decide_eq_true second))

def codePointOrder : Collation where
  le a b := decide (a ≤ b)
  total := codePoints_total
  trans := codePoints_trans

end StableSorts
