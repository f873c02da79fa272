import Mathlib.Data.List.Nodup
import Mathlib.Data.List.Sort
import Mathlib.Logic.Function.Basic

/-!
# Finite tables with a primary key

A table lists its keys once and gives each of them one row. Both facts are
fields, so a second row under an existing key cannot be represented and the
lemmas below need no uniqueness hypothesis. Reading a row is application;
`put` inserts or replaces, `mapRows` rewrites every row in place.
-/

namespace KeyedTables

universe u v w

structure Table (K : Type u) (V : Type v) where
  keys : List K
  row : K → Option V
  nodup : keys.Nodup
  mem_keys : ∀ k, k ∈ keys ↔ (row k).isSome = true

namespace Table

variable {K : Type u} {V : Type v} {W : Type w}

@[ext] theorem ext_rows {s t : Table K V} (keys : s.keys = t.keys)
    (rows : ∀ k, s.row k = t.row k) : s = t := by
  cases s
  cases t
  have := funext rows
  simp_all

def empty : Table K V where
  keys := []
  row := fun _ => none
  nodup := List.nodup_nil
  mem_keys := by simp

@[simp] theorem empty_row (k : K) : (empty : Table K V).row k = none := rfl

theorem mem_keys_of_row {t : Table K V} {k : K} {v : V} (h : t.row k = some v) :
    k ∈ t.keys := by
  simp [t.mem_keys, h]

theorem row_of_no_keys {t : Table K V} (empty : t.keys = []) (k : K) : t.row k = none := by
  cases row : t.row k with
  | none => rfl
  | some v =>
    have mem := mem_keys_of_row row
    simp [empty] at mem

/-- Some row satisfies `p`. -/
def any (t : Table K V) (p : V → Bool) : Bool := t.keys.any fun k => (t.row k).any p

theorem any_iff (t : Table K V) (p : V → Bool) :
    t.any p = true ↔ ∃ k v, t.row k = some v ∧ p v = true := by
  simp only [any, List.any_eq_true, Option.any_eq_true]
  constructor
  · rintro ⟨k, _, v, hv, hp⟩
    exact ⟨k, v, hv, hp⟩
  · rintro ⟨k, v, hv, hp⟩
    exact ⟨k, mem_keys_of_row hv, v, hv, hp⟩

theorem not_any_iff (t : Table K V) (p : V → Bool) :
    t.any p = false ↔ ∀ k v, t.row k = some v → p v = false := by
  rw [← Bool.not_eq_true, any_iff]
  constructor
  · intro none k v hv
    by_contra hp
    exact none ⟨k, v, hv, by simpa using hp⟩
  · rintro all ⟨k, v, hv, hp⟩
    simp [all k v hv] at hp

/-- How many rows satisfy `p`. -/
def count (t : Table K V) (p : V → Bool) : Nat := t.keys.countP fun k => (t.row k).any p

def mapRows (t : Table K V) (f : V → W) : Table K W where
  keys := t.keys
  row := fun k => (t.row k).map f
  nodup := t.nodup
  mem_keys := by simp [t.mem_keys]

@[simp] theorem mapRows_row (t : Table K V) (f : V → W) (k : K) :
    (t.mapRows f).row k = (t.row k).map f := rfl

@[simp] theorem mapRows_keys (t : Table K V) (f : V → W) :
    (t.mapRows f).keys = t.keys := rfl

/-- Rewrite every row in place, knowing its key. -/
def mapRowsWithKey (t : Table K V) (f : K → V → W) : Table K W where
  keys := t.keys
  row := fun k => (t.row k).map (f k)
  nodup := t.nodup
  mem_keys := by simp [t.mem_keys]

@[simp] theorem mapRowsWithKey_row (t : Table K V) (f : K → V → W) (k : K) :
    (t.mapRowsWithKey f).row k = (t.row k).map (f k) := rfl

theorem any_mapRows (t : Table K V) (f : V → W) (p : W → Bool) :
    (t.mapRows f).any p = t.any fun v => p (f v) := by
  simp only [any, mapRows_keys, mapRows_row]
  congr 1
  funext k
  cases t.row k <;> rfl

theorem count_mapRows (t : Table K V) (f : V → W) (p : W → Bool) :
    (t.mapRows f).count p = t.count fun v => p (f v) := by
  simp only [count, mapRows_keys, mapRows_row]
  congr 1
  funext k
  cases t.row k <;> rfl

theorem mapRows_mapRows {X : Type*} (t : Table K V) (f : V → W) (g : W → X) :
    (t.mapRows f).mapRows g = t.mapRows fun v => g (f v) := by
  apply ext_rows
  · rfl
  · intro k
    cases h : t.row k <;> simp [h]

/-- The keys of the rows satisfying `p`, in the order of the table. -/
def matching (t : Table K V) (p : K → V → Bool) : List K :=
  t.keys.filter fun k => (t.row k).any (p k)

theorem mem_matching {t : Table K V} {p : K → V → Bool} {k : K} :
    k ∈ t.matching p ↔ ∃ v, t.row k = some v ∧ p k v = true := by
  simp only [matching, List.mem_filter, Option.any_eq_true]
  constructor
  · rintro ⟨_, hv⟩
    exact hv
  · rintro ⟨v, hv, hp⟩
    exact ⟨mem_keys_of_row hv, v, hv, hp⟩

theorem matching_nodup (t : Table K V) (p : K → V → Bool) : (t.matching p).Nodup :=
  t.nodup.filter _

theorem matching_eq_nil {t : Table K V} {p : K → V → Bool} :
    t.matching p = [] ↔ ∀ k v, t.row k = some v → p k v = false := by
  rw [List.eq_nil_iff_forall_not_mem]
  constructor
  · intro none k v hv
    by_contra hp
    exact none k (mem_matching.mpr ⟨v, hv, by simpa using hp⟩)
  · intro all k mem
    obtain ⟨v, hv, hp⟩ := mem_matching.mp mem
    simp [all k v hv] at hp

theorem matching_eq_singleton {t : Table K V} {p : K → V → Bool} {k : K} {v : V}
    (found : t.row k = some v) (holds : p k v = true)
    (only : ∀ a x, t.row a = some x → p a x = true → a = k) : t.matching p = [k] := by
  apply List.perm_singleton.mp
  refine (List.perm_ext_iff_of_nodup (t.matching_nodup p) (List.nodup_singleton k)).mpr ?_
  intro a
  rw [mem_matching, List.mem_singleton]
  constructor
  · rintro ⟨x, ha, hp⟩
    exact only a x ha hp
  · rintro rfl
    exact ⟨v, found, holds⟩

/-- The keys of the rows satisfying `p`, in the order of `before`. -/
def selectKeys (t : Table K V) (p : K → V → Bool) (before : K → K → Bool) : List K :=
  (t.keys.filter fun k => (t.row k).any (p k)).insertionSort fun a b => before a b = true

theorem mem_selectKeys {t : Table K V} {p : K → V → Bool} {before : K → K → Bool} {k : K} :
    k ∈ t.selectKeys p before ↔ ∃ v, t.row k = some v ∧ p k v = true := by
  simp only [selectKeys, List.mem_insertionSort, List.mem_filter, Option.any_eq_true]
  constructor
  · rintro ⟨_, hv⟩
    exact hv
  · rintro ⟨v, hv, hp⟩
    exact ⟨mem_keys_of_row hv, v, hv, hp⟩

theorem selectKeys_nodup (t : Table K V) (p : K → V → Bool) (before : K → K → Bool) :
    (t.selectKeys p before).Nodup :=
  (List.perm_insertionSort _ _).nodup_iff.mpr (t.nodup.filter _)

section Put

variable [DecidableEq K]

def put (t : Table K V) (k : K) (v : V) : Table K V where
  keys := if k ∈ t.keys then t.keys else t.keys ++ [k]
  row := fun a => if a = k then some v else t.row a
  nodup := by
    split
    · exact t.nodup
    · next absent => exact t.nodup.append (List.nodup_singleton k) (by simpa using absent)
  mem_keys := by
    intro a
    by_cases ha : a = k
    · subst a
      by_cases hk : k ∈ t.keys <;> simp [hk]
    · by_cases hk : k ∈ t.keys <;> simp [hk, ha, t.mem_keys]

@[simp] theorem put_row (t : Table K V) (k a : K) (v : V) :
    (t.put k v).row a = if a = k then some v else t.row a := rfl

theorem put_row_cases {t : Table K V} {k a : K} {v x : V} (h : (t.put k v).row a = some x) :
    a = k ∧ x = v ∨ a ≠ k ∧ t.row a = some x := by
  by_cases same : a = k
  · simp only [put_row, same, if_true, Option.some.injEq] at h
    exact .inl ⟨same, h.symm⟩
  · simp only [put_row, same, if_false] at h
    exact .inr ⟨same, h⟩

theorem put_keys_of_row {t : Table K V} {k : K} {old : V} (h : t.row k = some old) (v : V) :
    (t.put k v).keys = t.keys := by
  simp [put, mem_keys_of_row h]

theorem put_keys_of_absent {t : Table K V} {k : K} (h : t.row k = none) (v : V) :
    (t.put k v).keys = t.keys ++ [k] := by
  simp [put, t.mem_keys, h]

theorem put_same {t : Table K V} {k : K} {v : V} (h : t.row k = some v) : t.put k v = t := by
  apply ext_rows
  · exact put_keys_of_row h v
  · intro a
    by_cases ha : a = k <;> simp [ha, h]

/-- One value under many keys. -/
theorem foldl_put_row (keys : List K) (v : V) (t : Table K V) (a : K) :
    (keys.foldl (fun t k => t.put k v) t).row a = if a ∈ keys then some v else t.row a := by
  induction keys generalizing t with
  | nil => simp
  | cons first rest ih =>
    rw [List.foldl_cons, ih]
    by_cases later : a ∈ rest
    · simp [later]
    · by_cases here : a = first <;> simp [later, here]

theorem mapRows_put (t : Table K V) (k : K) (v : V) (f : V → W) :
    (t.put k v).mapRows f = (t.mapRows f).put k (f v) := by
  apply ext_rows
  · rfl
  · intro a
    by_cases ha : a = k <;> simp [ha]

/-- Replacing a row by one that `p` cannot tell apart keeps the count. -/
theorem count_put_of_row {t : Table K V} {p : V → Bool} {k : K} {old v : V}
    (h : t.row k = some old) (same : p v = p old) : (t.put k v).count p = t.count p := by
  simp only [count, put_keys_of_row h, put_row]
  apply List.countP_congr
  intro a _
  by_cases ha : a = k
  · subst a
    simp [h, same]
  · simp [ha]

theorem count_put_of_absent {t : Table K V} {p : V → Bool} {k : K} (h : t.row k = none)
    (v : V) : (t.put k v).count p = t.count p + if p v then 1 else 0 := by
  have fresh : k ∉ t.keys := by simp [t.mem_keys, h]
  have old : t.keys.countP (fun a => ((t.put k v).row a).any p) = t.count p := by
    apply List.countP_congr
    intro a ha
    have hne : a ≠ k := fun heq => fresh (heq ▸ ha)
    simp [hne]
  simp only [count, put_keys_of_absent h] at *
  rw [List.countP_append, old]
  cases hp : p v <;> simp [hp]

end Put

end Table

end KeyedTables
