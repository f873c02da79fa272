import Mathlib.Data.List.Induction
import Mathlib.Data.List.Nodup
import Mathlib.Data.List.Perm.Basic
import Mathlib.Data.List.Sort

/-!
# Buckets and bins

Items are collected in buckets by a key, the buckets are sorted and packed into bins of a
bounded size. A bucket that fits is packed whole and a larger one is cut into slices. What
the buckets hold does not depend on the order of the items, and neither does the sorted
list of them where no two buckets are tied.
-/

namespace BucketPacking

universe u

variable {α κ : Type u}

section Buckets

variable [DecidableEq κ]

/-- `buckets.setdefault(key, []).append(item)`. -/
def append (key : κ) (item : α) : List (κ × List α) → List (κ × List α)
  | [] => [(key, [item])]
  | (other, items) :: rest =>
    if other = key then (other, items ++ [item]) :: rest
    else (other, items) :: append key item rest

def bucketsOf (pairs : List (κ × α)) : List (κ × List α) :=
  pairs.foldl (fun found pair => append pair.1 pair.2 found) []

/-- The items of a key in the order in which they came. -/
def itemsOf (key : κ) (pairs : List (κ × α)) : List α :=
  (pairs.filter fun pair => pair.1 = key).map Prod.snd

theorem itemsOf_concat (key : κ) (pairs : List (κ × α)) (pair : κ × α) :
    itemsOf key (pairs ++ [pair]) =
      if pair.1 = key then itemsOf key pairs ++ [pair.2] else itemsOf key pairs := by
  by_cases same : pair.1 = key <;> simp [itemsOf, same]

theorem itemsOf_ne_nil {key : κ} {pairs : List (κ × α)} :
    itemsOf key pairs ≠ [] ↔ key ∈ pairs.map Prod.fst := by
  simp [itemsOf]

theorem keys_append (key : κ) (item : α) (found : List (κ × List α)) :
    (append key item found).map Prod.fst =
      if key ∈ found.map Prod.fst then found.map Prod.fst else found.map Prod.fst ++ [key] := by
  induction found with
  | nil => simp [append]
  | cons bucket rest ih =>
    obtain ⟨other, items⟩ := bucket
    rw [append]
    by_cases same : other = key
    · simp [same]
    · have differs : ¬ key = other := fun eq => same eq.symm
      rw [if_neg same, List.map_cons, ih]
      by_cases mem : key ∈ rest.map Prod.fst <;> simp_all

/-- What the buckets are while the items come in. -/
structure Collects (pairs : List (κ × α)) (found : List (κ × List α)) : Prop where
  keys : (found.map Prod.fst).Nodup
  all : ∀ key, key ∈ found.map Prod.fst ↔ key ∈ pairs.map Prod.fst
  items : ∀ bucket ∈ found, bucket.2 = itemsOf bucket.1 pairs

theorem mem_append {key : κ} {item : α} {found : List (κ × List α)} {bucket : κ × List α}
    (keys : (found.map Prod.fst).Nodup) (mem : bucket ∈ append key item found) :
    (bucket.1 ≠ key ∧ bucket ∈ found) ∨
      (bucket.1 = key ∧ ((∃ items, (key, items) ∈ found ∧ bucket.2 = items ++ [item]) ∨
        (key ∉ found.map Prod.fst ∧ bucket.2 = [item]))) := by
  induction found with
  | nil =>
    rw [append, List.mem_singleton] at mem
    subst mem
    simp
  | cons first rest ih =>
    obtain ⟨other, items⟩ := first
    rw [List.map_cons, List.nodup_cons] at keys
    rw [append] at mem
    split at mem
    · next same =>
      rcases List.mem_cons.mp mem with rfl | later
      · exact .inr ⟨same, .inl ⟨items, by simp [same], rfl⟩⟩
      · refine .inl ⟨fun eq => keys.1 ?_, List.mem_cons_of_mem _ later⟩
        rw [same, ← eq]
        exact List.mem_map.mpr ⟨bucket, later, rfl⟩
    · next differs =>
      rcases List.mem_cons.mp mem with rfl | later
      · exact .inl ⟨differs, List.mem_cons_self⟩
      · rcases ih keys.2 later with ⟨apart, held⟩ | ⟨same, ⟨old, held, eq⟩ | ⟨absent, eq⟩⟩
        · exact .inl ⟨apart, List.mem_cons_of_mem _ held⟩
        · exact .inr ⟨same, .inl ⟨old, List.mem_cons_of_mem _ held, eq⟩⟩
        · refine .inr ⟨same, .inr ⟨?_, eq⟩⟩
          rw [List.map_cons, List.mem_cons, not_or]
          exact ⟨fun eq => differs eq.symm, absent⟩

theorem Collects.append {pairs : List (κ × α)} {found : List (κ × List α)}
    (h : Collects pairs found) (pair : κ × α) :
    Collects (pairs ++ [pair]) (append pair.1 pair.2 found) where
  keys := by
    rw [keys_append]
    split
    · exact h.keys
    · next absent => exact h.keys.append (List.nodup_singleton _) (by simpa using absent)
  all := by
    intro key
    rw [keys_append, List.map_append, List.mem_append, ← h.all]
    split
    · next held =>
      constructor
      · exact .inl
      · rintro (mem | last)
        · exact mem
        · rw [List.map_singleton, List.mem_singleton] at last
          rw [last]
          exact held
    · rw [List.mem_append]
      rfl
  items := by
    intro bucket mem
    rw [itemsOf_concat]
    rcases mem_append h.keys mem with ⟨apart, held⟩ | ⟨same, ⟨items, held, eq⟩ | ⟨absent, eq⟩⟩
    · rw [if_neg fun eq => apart eq.symm]
      exact h.items bucket held
    · have old : items = itemsOf pair.1 pairs := h.items _ held
      rw [if_pos same.symm, eq, old, same]
    · have nothing : itemsOf bucket.1 pairs = [] := by
        by_contra some
        have held := itemsOf_ne_nil.mp some
        rw [← h.all, same] at held
        exact absent held
      rw [if_pos same.symm, eq, nothing]
      rfl

theorem collects_bucketsOf (pairs : List (κ × α)) : Collects pairs (bucketsOf pairs) := by
  induction pairs using List.reverseRecOn with
  | nil => exact ⟨List.nodup_nil, by simp [bucketsOf], by simp [bucketsOf]⟩
  | append_singleton pairs pair ih =>
    rw [bucketsOf, List.foldl_append]
    exact ih.append pair

theorem mem_bucketsOf {pairs : List (κ × α)} {key : κ} {items : List α} :
    (key, items) ∈ bucketsOf pairs ↔ items = itemsOf key pairs ∧ items ≠ [] := by
  have h := collects_bucketsOf pairs
  constructor
  · intro mem
    have own : items = itemsOf key pairs := h.items _ mem
    refine ⟨own, ?_⟩
    rw [own, itemsOf_ne_nil, ← h.all]
    exact List.mem_map_of_mem mem
  · rintro ⟨own, some⟩
    rw [own, itemsOf_ne_nil, ← h.all] at some
    obtain ⟨⟨other, items'⟩, mem, rfl⟩ := List.mem_map.mp some
    have own' : items' = itemsOf other pairs := h.items _ mem
    rw [own, ← own']
    exact mem

/-- Each item is in the bucket of its key, as often as it came. -/
theorem bucketsOf_perm (pairs : List (κ × α)) :
    ((bucketsOf pairs).flatMap Prod.snd).Perm (pairs.map Prod.snd) := by
  induction pairs using List.reverseRecOn with
  | nil => exact List.Perm.refl _
  | append_singleton pairs pair ih =>
    have step : ∀ found : List (κ × List α),
        ((append pair.1 pair.2 found).flatMap Prod.snd).Perm
          (found.flatMap Prod.snd ++ [pair.2]) := by
      intro found
      induction found with
      | nil => exact List.Perm.refl _
      | cons first rest later =>
        obtain ⟨other, items⟩ := first
        rw [append]
        split
        · simp only [List.flatMap_cons, List.append_assoc]
          exact List.Perm.append_left items List.perm_append_comm
        · simp only [List.flatMap_cons, List.append_assoc]
          exact List.Perm.append_left items later
    rw [bucketsOf, List.foldl_append, List.map_append]
    exact (step _).trans (ih.append_right _)

/-- Buckets whose items are put in an order of their own do not depend on the order in which
the items came. -/
theorem sortedBuckets_perm {pairs others : List (κ × α)} (sort : List α → List α)
    (perm : others.Perm pairs)
    (same : ∀ key, sort (itemsOf key others) = sort (itemsOf key pairs)) :
    ((bucketsOf others).map fun bucket => (bucket.1, sort bucket.2)).Perm
      ((bucketsOf pairs).map fun bucket => (bucket.1, sort bucket.2)) := by
  have keyed : ∀ all : List (κ × α),
      ((bucketsOf all).map fun bucket => (bucket.1, sort bucket.2)).Nodup := by
    intro all
    refine List.Nodup.of_map Prod.fst ?_
    rw [List.map_map]
    exact (collects_bucketsOf all).keys
  have mem : ∀ all : List (κ × α), ∀ key sorted,
      (key, sorted) ∈ ((bucketsOf all).map fun bucket => (bucket.1, sort bucket.2)) ↔
        key ∈ all.map Prod.fst ∧ sorted = sort (itemsOf key all) := by
    intro all key sorted
    rw [List.mem_map]
    constructor
    · rintro ⟨⟨key', items⟩, held, eq⟩
      cases eq
      obtain ⟨rfl, some⟩ := mem_bucketsOf.mp held
      exact ⟨itemsOf_ne_nil.mp some, rfl⟩
    · rintro ⟨some, rfl⟩
      exact ⟨(key, itemsOf key all), mem_bucketsOf.mpr ⟨rfl, itemsOf_ne_nil.mpr some⟩, rfl⟩
  rw [List.perm_ext_iff_of_nodup (keyed others) (keyed pairs)]
  rintro ⟨key, sorted⟩
  rw [mem, mem, same key, (perm.map Prod.fst).mem_iff]

end Buckets

/-- The sorted list does not depend on the order the items came in, if no two are tied. -/
theorem mergeSort_eq_of_perm {le : α → α → Bool} {xs ys : List α}
    (trans : ∀ a b c, le a b = true → le b c = true → le a c = true)
    (total : ∀ a b, (le a b || le b a) = true) (perm : xs.Perm ys)
    (untied : ∀ a ∈ ys, ∀ b ∈ ys, le a b = true → le b a = true → a = b) :
    xs.mergeSort le = ys.mergeSort le := by
  have permX := List.mergeSort_perm xs le
  have permY := List.mergeSort_perm ys le
  refine List.Perm.eq_of_pairwise ?_ (List.pairwise_mergeSort trans total xs)
    (List.pairwise_mergeSort trans total ys) (permX.trans (perm.trans permY.symm))
  intro a b memA memB before after
  exact untied a (perm.mem_iff.mp (permX.mem_iff.mp memA)) b (permY.mem_iff.mp memB) before after

/-- One key after another. -/
def LexBefore {ι : Type*} [LinearOrder ι] (first : α → ι) (second : α → α → Prop) (a b : α) : Prop :=
  first a < first b ∨ first a = first b ∧ second a b

instance {ι : Type*} [LinearOrder ι] (first : α → ι) (second : α → α → Prop)
    [DecidableRel second] : DecidableRel (LexBefore first second) :=
  fun a b => inferInstanceAs (Decidable (first a < first b ∨ first a = first b ∧ second a b))

section LexBefore

variable {ι : Type*} [LinearOrder ι] {first : α → ι} {second : α → α → Prop}

theorem LexBefore.trans (later : ∀ a b c, second a b → second b c → second a c) {a b c : α}
    (ab : LexBefore first second a b) (bc : LexBefore first second b c) :
    LexBefore first second a c := by
  rcases ab with less | ⟨same, tied⟩ <;> rcases bc with less' | ⟨same', tied'⟩
  · exact .inl (less.trans less')
  · exact .inl (same' ▸ less)
  · exact .inl (same ▸ less')
  · exact .inr ⟨same.trans same', later a b c tied tied'⟩

theorem LexBefore.total (later : ∀ a b, second a b ∨ second b a) (a b : α) :
    LexBefore first second a b ∨ LexBefore first second b a := by
  rcases lt_trichotomy (first a) (first b) with less | same | more
  · exact .inl (.inl less)
  · rcases later a b with ab | ba
    · exact .inl (.inr ⟨same, ab⟩)
    · exact .inr (.inr ⟨same.symm, ba⟩)
  · exact .inr (.inl more)

theorem LexBefore.antisymm {a b : α} (ab : LexBefore first second a b)
    (ba : LexBefore first second b a) : second a b ∧ second b a := by
  rcases ab with less | ⟨same, tied⟩ <;> rcases ba with less' | ⟨same', tied'⟩
  · exact absurd (less.trans less') (lt_irrefl _)
  · exact absurd same' less.ne'
  · exact absurd same less'.ne'
  · exact ⟨tied, tied'⟩

end LexBefore

/-- The slices of `size` items. -/
def slices (size : Nat) (items : List α) : List (List α) :=
  (List.range ((items.length + size - 1) / size)).map fun index =>
    (items.drop (index * size)).take size

theorem slices_cons {size : Nat} (positive : 0 < size) {items : List α} (some : items ≠ []) :
    slices size items = items.take size :: slices size (items.drop size) := by
  have length : 0 < items.length := List.length_pos_iff.mpr some
  have count : (items.length + size - 1) / size =
      ((items.drop size).length + size - 1) / size + 1 := by
    rw [List.length_drop]
    rcases Nat.lt_or_ge items.length size with short | long
    · have none : items.length - size = 0 := by omega
      have one : items.length + size - 1 = items.length - 1 + size := by omega
      rw [none, one, Nat.add_div_right _ positive, Nat.div_eq_of_lt (by omega),
        Nat.div_eq_of_lt (by omega)]
    · have more : items.length + size - 1 = items.length - size + size - 1 + size := by omega
      rw [more, Nat.add_div_right _ positive]
  rw [slices, count, List.range_succ_eq_map, List.map_cons, List.map_map, slices]
  refine congrArg₂ List.cons (by simp) (List.map_congr_left fun index _ => ?_)
  rw [Function.comp_apply, List.drop_drop, Nat.succ_mul, Nat.add_comm]

theorem slices_spec {size : Nat} (positive : 0 < size) (items : List α) :
    (slices size items).flatten = items ∧
      ∀ slice ∈ slices size items, slice ≠ [] ∧ slice.length ≤ size := by
  induction length : items.length using Nat.strong_induction_on generalizing items with
  | _ n ih =>
    obtain rfl | some := eq_or_ne items []
    · have none : (size - 1) / size = 0 := Nat.div_eq_of_lt (by omega)
      simp [slices, none]
    · have pos : 0 < items.length := List.length_pos_iff.mpr some
      have shorter : (items.drop size).length < n := by
        rw [List.length_drop]
        omega
      obtain ⟨flat, each⟩ := ih _ shorter (items.drop size) rfl
      rw [slices_cons positive some]
      refine ⟨?_, ?_⟩
      · rw [List.flatten_cons, flat, List.take_append_drop]
      · intro slice mem
        rcases List.mem_cons.mp mem with rfl | later
        · refine ⟨fun none => ?_, List.length_take_le _ _⟩
          have zero := congrArg List.length none
          rw [List.length_take, List.length_nil] at zero
          omega
        · exact each slice later

/-- The parts in which buckets are packed. -/
def pieces (size : Nat) (buckets : List (List α)) : List (List α) :=
  buckets.flatMap fun bucket => if size < bucket.length then slices size bucket else [bucket]

theorem flatten_pieces {size : Nat} (positive : 0 < size) (buckets : List (List α)) :
    (pieces size buckets).flatten = buckets.flatten := by
  induction buckets with
  | nil => rfl
  | cons bucket rest ih =>
    rw [pieces, List.flatMap_cons, List.flatten_append, ← pieces, ih, List.flatten_cons]
    split
    · rw [(slices_spec positive bucket).1]
    · simp

theorem length_of_mem_pieces {size : Nat} (positive : 0 < size) {buckets : List (List α)}
    {piece : List α} (mem : piece ∈ pieces size buckets) : piece.length ≤ size := by
  obtain ⟨bucket, -, part⟩ := List.mem_flatMap.mp mem
  split at part
  · exact ((slices_spec positive bucket).2 piece part).2
  · rw [List.mem_singleton.mp part]
    omega

theorem mem_pieces {size : Nat} {buckets : List (List α)} {bucket : List α}
    (mem : bucket ∈ buckets) (fits : bucket.length ≤ size) : bucket ∈ pieces size buckets :=
  List.mem_flatMap.mpr ⟨bucket, mem, by rw [if_neg (by omega)]; exact List.mem_singleton_self _⟩

/-- Bins of a bounded size that hold the items of some parts, no part spread over two. -/
structure Packed (size : Nat) (parts bins : List (List α)) : Prop where
  bounded : ∀ bin ∈ bins, bin.length ≤ size
  items : bins.flatten.Perm parts.flatten
  whole : ∀ part ∈ parts, part ≠ [] → ∃ bin ∈ bins, part.Sublist bin

namespace Packed

variable {size : Nat} {parts bins : List (List α)} {part : List α}

theorem empty (size count : Nat) : Packed size [] (List.replicate count ([] : List α)) where
  bounded := fun bin mem => by
    rw [List.eq_of_mem_replicate mem]
    exact Nat.zero_le _
  items := by simp
  whole := by simp

/-- A part in a bin of its own. -/
theorem opens (h : Packed size parts bins) (fits : part.length ≤ size) :
    Packed size (parts ++ [part]) (bins ++ [part]) where
  bounded := by
    intro bin mem
    rcases List.mem_append.mp mem with held | last
    · exact h.bounded bin held
    · rw [List.mem_singleton.mp last]
      exact fits
  items := by
    rw [List.flatten_append, List.flatten_append]
    exact h.items.append_right _
  whole := by
    intro other mem some
    rcases List.mem_append.mp mem with earlier | last
    · obtain ⟨bin, held, inside⟩ := h.whole other earlier some
      exact ⟨bin, List.mem_append_left _ held, inside⟩
    · exact ⟨part, by simp, by rw [List.mem_singleton.mp last]⟩

/-- A part in a bin with room for it. -/
theorem adds {before after : List (List α)} {bin : List α}
    (h : Packed size parts (before ++ bin :: after)) (fits : bin.length + part.length ≤ size) :
    Packed size (parts ++ [part]) (before ++ (bin ++ part) :: after) where
  bounded := by
    intro other mem
    rcases List.mem_append.mp mem with held | held
    · exact h.bounded other (List.mem_append_left _ held)
    · rcases List.mem_cons.mp held with rfl | held
      · rw [List.length_append]
        exact fits
      · exact h.bounded other (List.mem_append_right _ (List.mem_cons_of_mem _ held))
  items := by
    have items := h.items.append_right part
    rw [List.flatten_append, List.flatten_cons, List.append_assoc, List.append_assoc] at items
    rw [List.flatten_append, List.flatten_append, List.flatten_cons, List.flatten_singleton,
      List.append_assoc]
    refine List.Perm.trans ?_ items
    exact List.Perm.append_left _ (List.Perm.append_left _ List.perm_append_comm)
  whole := by
    intro other mem some
    rcases List.mem_append.mp mem with earlier | last
    · obtain ⟨held, place, inside⟩ := h.whole other earlier some
      rcases List.mem_append.mp place with place | place
      · exact ⟨held, List.mem_append_left _ place, inside⟩
      · rcases List.mem_cons.mp place with rfl | place
        · exact ⟨held ++ part, by simp, inside.trans (List.sublist_append_left _ _)⟩
        · exact ⟨held, List.mem_append_right _ (List.mem_cons_of_mem _ place), inside⟩
    · rw [List.mem_singleton.mp last]
      exact ⟨bin ++ part, by simp, List.sublist_append_right _ _⟩

theorem filter [DecidableEq α] (h : Packed size parts bins) :
    Packed size parts (bins.filter (· ≠ [])) where
  bounded := fun bin mem => h.bounded bin (List.mem_of_mem_filter mem)
  items := by
    refine List.Perm.trans (List.Perm.of_eq ?_) h.items
    clear h
    induction bins with
    | nil => rfl
    | cons bin rest ih =>
      obtain rfl | some := eq_or_ne bin []
      · simpa using ih
      · rw [List.filter_cons_of_pos (by simpa using some), List.flatten_cons, List.flatten_cons, ih]
  whole := by
    intro other mem some
    obtain ⟨bin, held, inside⟩ := h.whole other mem some
    refine ⟨bin, List.mem_filter.mpr ⟨held, ?_⟩, inside⟩
    rw [decide_eq_true_eq]
    rintro rfl
    exact some (List.sublist_nil.mp inside)

end Packed

/-- Batches that hold each item once, and together those with one key if they fit. -/
structure Batching [DecidableEq κ] (size : Nat) (pairs : List (κ × α)) (batches : List (List α)) :
    Prop where
  nonempty : ∀ batch ∈ batches, batch ≠ []
  bounded : ∀ batch ∈ batches, batch.length ≤ size
  items : batches.flatten.Perm (pairs.map Prod.snd)
  together : ∀ key ∈ pairs.map Prod.fst, (itemsOf key pairs).length ≤ size →
    ∃ batch ∈ batches, ∀ item ∈ itemsOf key pairs, item ∈ batch

theorem sortedBuckets_flatten [DecidableEq κ] {sort : List α → List α}
    (keeps : ∀ items, (sort items).Perm items) (pairs : List (κ × α)) :
    ((bucketsOf pairs).map fun bucket => sort bucket.2).flatten.Perm (pairs.map Prod.snd) := by
  refine List.Perm.trans ?_ (bucketsOf_perm pairs)
  rw [← List.flatMap_def]
  exact List.Perm.flatMap_left _ fun bucket _ => keeps bucket.2

/-- With room for one item there are as many batches as items. -/
theorem Batching.length_of_one [DecidableEq κ] {pairs : List (κ × α)} {batches : List (List α)}
    (batching : Batching 1 pairs batches) : batches.length = pairs.length := by
  have single : ∀ count ∈ batches.map List.length, count = 1 := by
    rw [List.forall_mem_map]
    intro batch mem
    have some := List.length_pos_iff.mpr (batching.nonempty batch mem)
    have one := batching.bounded batch mem
    omega
  calc
    batches.length = (batches.map List.length).sum := by
      rw [List.eq_replicate_of_mem single, List.length_map, List.sum_replicate_nat, Nat.mul_one]
    _ = batches.flatten.length := List.length_flatten.symm
    _ = pairs.length := by rw [batching.items.length_eq, List.length_map]

/-- Packed buckets of all items are batches. -/
theorem Packed.batching [DecidableEq κ] {size : Nat} (positive : 0 < size) {pairs : List (κ × α)}
    {buckets bins : List (List α)} (all : buckets.flatten.Perm (pairs.map Prod.snd))
    (each : ∀ key ∈ pairs.map Prod.fst, ∃ bucket ∈ buckets, bucket.Perm (itemsOf key pairs))
    (packed : Packed size (pieces size buckets) bins) (nonempty : ∀ bin ∈ bins, bin ≠ []) :
    Batching size pairs bins where
  nonempty := nonempty
  bounded := packed.bounded
  items := by
    have items := packed.items
    rw [flatten_pieces positive] at items
    exact items.trans all
  together := by
    intro key mem fits
    obtain ⟨bucket, held, perm⟩ := each key mem
    have some : bucket ≠ [] := by
      rintro rfl
      exact itemsOf_ne_nil.mpr mem (List.nil_perm.mp perm)
    obtain ⟨bin, place, inside⟩ :=
      packed.whole bucket (mem_pieces held (by rw [perm.length_eq]; exact fits)) some
    exact ⟨bin, place, fun item own => inside.subset (perm.mem_iff.mpr own)⟩

end BucketPacking
