import Mathlib.Data.List.Perm.Basic
import Mathlib.Data.List.Nodup

/-!
# Interleavings

Two lists interleave the same parts when, for every key, the elements with that key form one
list in both. They are permutations of each other, and what a function reads off the elements
is one multiset in both.
-/

namespace Interleavings

universe u v w

variable {α : Type u} {β : Type v} {κ : Type w} [DecidableEq κ]

/-- The parts of the two lists are the same. -/
def SameParts (key : α → κ) (xs ys : List α) : Prop :=
  ∀ k, (xs.filter fun a => key a = k) = ys.filter fun a => key a = k

/-- Only keys that occur need to be compared. -/
theorem sameParts_of_keys {key : α → κ} {xs ys : List α}
    (same : ∀ k ∈ (xs ++ ys).map key,
      (xs.filter fun a => key a = k) = ys.filter fun a => key a = k) : SameParts key xs ys := by
  intro k
  by_cases occurs : k ∈ (xs ++ ys).map key
  · exact same k occurs
  · have none : ∀ zs : List α, (∀ a ∈ zs, a ∈ xs ++ ys) →
        (zs.filter fun a => key a = k) = [] := by
      intro zs inside
      refine List.filter_eq_nil_iff.mpr fun a mem => ?_
      rw [decide_eq_true_eq]
      rintro rfl
      exact occurs (List.mem_map_of_mem (inside a mem))
    rw [none xs fun a => List.mem_append_left ys, none ys fun a => List.mem_append_right xs]

theorem SameParts.perm [DecidableEq α] {key : α → κ} {xs ys : List α}
    (same : SameParts key xs ys) : xs.Perm ys := by
  rw [List.perm_iff_count]
  intro a
  have part (zs : List α) : zs.count a = (zs.filter fun b => key b = key a).count a :=
    (List.count_filter (by simp)).symm
  rw [part xs, part ys, same (key a)]

/-- Where elements with one image have one value, permuted images give permuted values. -/
theorem map_perm_of_image {γ : Type w} {f : α → γ} {xs ys : List α}
    (perm : (xs.map f).Perm (ys.map f)) {g h : α → β}
    (determined : ∀ x ∈ xs, ∀ y ∈ ys, f x = f y → g x = h y) :
    (xs.map g).Perm (ys.map h) := by
  induction ys generalizing xs with
  | nil =>
    rw [List.map_nil, List.perm_nil, List.map_eq_nil_iff] at perm
    rw [perm]
    exact .nil
  | cons y ys ih =>
    have image : f y ∈ xs.map f := perm.mem_iff.mpr (by simp)
    obtain ⟨x, mem, same⟩ := List.mem_map.mp image
    obtain ⟨before, after, rfl⟩ := List.append_of_mem mem
    have front : ((before ++ x :: after).map f).Perm (f x :: (before ++ after).map f) := by
      rw [List.map_append, List.map_cons, List.map_append]
      exact List.perm_middle
    have rest : ((before ++ after).map f).Perm (ys.map f) := by
      have both := front.symm.trans perm
      rw [List.map_cons, same] at both
      exact both.cons_inv
    have values : ((before ++ after).map g).Perm (ys.map h) := by
      refine ih rest ?_
      intro z inRest y' inTail
      refine determined z ?_ y' (List.mem_cons_of_mem _ inTail)
      rcases List.mem_append.mp inRest with left | right
      · exact List.mem_append_left _ left
      · exact List.mem_append_right _ (List.mem_cons_of_mem _ right)
    rw [List.map_append, List.map_cons, List.map_cons,
      ← determined x mem y List.mem_cons_self same]
    refine List.perm_middle.trans (List.Perm.cons _ ?_)
    rwa [List.map_append] at values

/-- Lists with one image have the same values, where the image determines the value. -/
theorem map_eq_of_image {γ : Type w} {f : α → γ} {xs ys : List α}
    (images : xs.map f = ys.map f) {g h : α → β}
    (determined : ∀ x ∈ xs, ∀ y ∈ ys, f x = f y → g x = h y) : xs.map g = ys.map h := by
  induction xs generalizing ys with
  | nil =>
    rw [List.map_nil, eq_comm, List.map_eq_nil_iff] at images
    rw [images]
    rfl
  | cons x xs ih =>
    cases ys with
    | nil => cases images
    | cons y ys =>
      obtain ⟨head, tail⟩ := List.cons.inj images
      rw [List.map_cons, List.map_cons, determined x List.mem_cons_self y List.mem_cons_self head,
        ih tail fun z inTail z' inTail' => determined z (List.mem_cons_of_mem _ inTail) z'
          (List.mem_cons_of_mem _ inTail')]

/-- Two lists with one image, cut at an element whose image occurs once: the rests agree. -/
theorem rest_of_image {f : α → β} {xs ys : List α} {before before' after after' : List α}
    {x y : α} (images : xs.map f = ys.map f) (cut : xs = before ++ x :: after)
    (cut' : ys = before' ++ y :: after') (same : f x = f y) (distinct : (xs.map f).Nodup) :
    after.map f = after'.map f := by
  subst cut cut'
  rw [List.map_append, List.map_cons] at images distinct
  rw [List.map_append, List.map_cons, ← same] at images
  have apart := List.nodup_middle.mp distinct
  have fresh := (List.nodup_cons.mp apart).1
  have left : f x ∉ before.map f := fun mem => fresh (List.mem_append_left _ mem)
  have right : f x ∉ after.map f := fun mem => fresh (List.mem_append_right _ mem)
  exact ((List.append_cons_inj_of_notMem left right).mp images).2.2

end Interleavings
