import Mathlib.Data.Nat.Log
import SecReviewBot.GroupedSums

/-!
# Sums of counts in double precision

Counts are added as doubles: exactly below the 53rd power of two, and to the nearest
double, the even one of two, above it.
-/

namespace DoubleSums

open GroupedSums

def exactBound : Nat := 9007199254740992

/-- The double that is nearest to a natural number. -/
def nearestDouble (n : Nat) : Nat :=
  if n < exactBound then n
  else
    let scale := 1 <<< (n.log2 - 52)
    let rest := n % scale
    if rest * 2 < scale ∨ rest * 2 = scale ∧ n / scale % 2 = 0 then n / scale * scale
    else (n / scale + 1) * scale

def addDouble (a b : Nat) : Nat := nearestDouble (a + b)

theorem nearestDouble_of_lt {n : Nat} (small : n < exactBound) : nearestDouble n = n :=
  if_pos small

theorem exactBound_le_nearestDouble {n : Nat} (large : exactBound ≤ n) :
    exactBound ≤ nearestDouble n := by
  have bits : 53 ≤ n.log2 := by
    rw [Nat.le_log2 (by unfold exactBound at large; omega)]
    exact large
  have top : 2 ^ n.log2 ≤ n := Nat.log2_self_le (by unfold exactBound at large; omega)
  have scale : 1 <<< (n.log2 - 52) = 2 ^ (n.log2 - 52) := Nat.one_shiftLeft _
  have whole : 2 ^ 52 * 2 ^ (n.log2 - 52) = 2 ^ n.log2 := by
    rw [← Nat.pow_add]
    congr 1
    omega
  have floor : 2 ^ 52 ≤ n / 2 ^ (n.log2 - 52) := by
    rw [Nat.le_div_iff_mul_le (Nat.two_pow_pos _), whole]
    exact top
  have least : exactBound ≤ 2 ^ n.log2 := Nat.pow_le_pow_right (show 0 < 2 by decide) bits
  have down : exactBound ≤ n / 2 ^ (n.log2 - 52) * 2 ^ (n.log2 - 52) :=
    least.trans (whole ▸ Nat.mul_le_mul_right _ floor)
  rw [nearestDouble, if_neg (by omega)]
  simp only [scale]
  split
  · exact down
  · exact down.trans (Nat.mul_le_mul_right _ (Nat.le_succ _))

/-- A sum that comes out below the bound was exact. -/
theorem addDouble_of_lt {a b : Nat} (small : addDouble a b < exactBound) :
    addDouble a b = a + b := by
  by_contra rounded
  have large : exactBound ≤ a + b := by
    by_contra below
    exact rounded (nearestDouble_of_lt (by omega))
  have := exactBound_le_nearestDouble large
  rw [addDouble] at small
  omega

theorem addDouble_exact {a b : Nat} (small : a + b < exactBound) : addDouble a b = a + b :=
  nearestDouble_of_lt small

section Lists

variable {α : Type*}

/-- The values of some items, added up in order. -/
def doubleSum (value : α → Option Nat) (items : List α) : Nat :=
  (items.filterMap value).foldl addDouble 0

theorem foldl_exact {values : List Nat} {start : Nat}
    (small : start + sumOf id values < exactBound) :
    values.foldl addDouble start = start + sumOf id values := by
  induction values generalizing start with
  | nil => rfl
  | cons n rest ih =>
    rw [sumOf, id] at small ⊢
    rw [List.foldl_cons, addDouble_exact (by omega), ih (by omega)]
    omega

theorem sumOf_filterMap (value : α → Option Nat) (items : List α) :
    sumOf id (items.filterMap value) = sumOf (fun x => (value x).getD 0) items := by
  induction items with
  | nil => rfl
  | cons x rest ih =>
    cases found : value x with
    | none => rw [List.filterMap_cons_none found, ih, sumOf, found]; simp
    | some n => rw [List.filterMap_cons_some found, sumOf, ih, sumOf, found]; rfl

/-- Below the bound the order of additions does not matter. -/
theorem doubleSum_exact {value : α → Option Nat} {items : List α}
    (small : sumOf (fun x => (value x).getD 0) items < exactBound) :
    doubleSum value items = sumOf (fun x => (value x).getD 0) items := by
  rw [← sumOf_filterMap] at small ⊢
  rw [doubleSum, foldl_exact (by omega)]
  omega

end Lists

end DoubleSums
