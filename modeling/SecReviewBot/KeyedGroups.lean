import Mathlib.Data.List.Nodup
import Mathlib.Data.List.Perm.Basic

/-!
# Items in groups

Groups in order, each under its key with the items it holds. An item is held once when no
group repeats it and no two groups share it. Giving items to one group takes them from
all the others, so it keeps every item held at most once.
-/

namespace KeyedGroups

variable {κ ι : Type*} {key : κ} {items : List ι} {groups : List (κ × List ι)}

/-- Keys are distinct and every item is held at most once. -/
structure HeldOnce (groups : List (κ × List ι)) : Prop where
  keys : groups.Pairwise fun a b => a.1 ≠ b.1
  each : ∀ group ∈ groups, group.2.Nodup
  apart : groups.Pairwise fun a b => a.2.Disjoint b.2

theorem HeldOnce.nil : HeldOnce ([] : List (κ × List ι)) :=
  ⟨List.Pairwise.nil, by simp, List.Pairwise.nil⟩

theorem HeldOnce.filter (h : HeldOnce groups) (p : κ × List ι → Bool) :
    HeldOnce (groups.filter p) where
  keys := h.keys.filter p
  each := fun group mem => h.each group (List.mem_of_mem_filter mem)
  apart := h.apart.filter p

/-- A new key starts with nothing. -/
theorem HeldOnce.concat (h : HeldOnce groups) (new : ∀ group ∈ groups, group.1 ≠ key) :
    HeldOnce (groups ++ [(key, [])]) where
  keys := by
    rw [List.pairwise_append]
    refine ⟨h.keys, List.pairwise_singleton _ _, fun group mem other last => ?_⟩
    rw [List.mem_singleton] at last
    rw [last]
    exact new group mem
  each := by
    intro group mem
    rcases List.mem_append.mp mem with mem | last
    · exact h.each group mem
    · rw [List.mem_singleton] at last
      rw [last]
      exact List.nodup_nil
  apart := by
    rw [List.pairwise_append]
    refine ⟨h.apart, List.pairwise_singleton _ _, fun group _ other last => ?_⟩
    rw [List.mem_singleton] at last
    rw [last]
    exact fun item _ none => by cases none

theorem HeldOnce.nodup (h : HeldOnce groups) : (groups.flatMap Prod.snd).Nodup := by
  rw [List.nodup_flatMap]
  exact ⟨h.each, h.apart⟩

section Reassign

variable [DecidableEq κ] [DecidableEq ι]

/-- Give `items` to the group `key` and to no other. -/
def reassign (key : κ) (items : List ι) (groups : List (κ × List ι)) : List (κ × List ι) :=
  groups.map fun group =>
    if group.1 = key then (group.1, items)
    else (group.1, group.2.filter fun item => item ∉ items)

/-- An item of a group was given to it or was there before. -/
theorem mem_of_mem_reassign {group : κ × List ι} {item : ι}
    (mem : group ∈ reassign key items groups) (held : item ∈ group.2) :
    item ∈ items ∨ ∃ earlier ∈ groups, item ∈ earlier.2 := by
  obtain ⟨earlier, before, rfl⟩ := List.mem_map.mp mem
  revert held
  split
  · exact Or.inl
  · intro held
    exact .inr ⟨earlier, before, List.mem_of_mem_filter held⟩

theorem HeldOnce.reassign (h : HeldOnce groups) (key : κ) (distinct : items.Nodup) :
    HeldOnce (reassign key items groups) where
  keys := by
    rw [KeyedGroups.reassign, List.pairwise_map]
    refine h.keys.imp fun {a b} different => ?_
    split <;> split <;> exact different
  each := by
    intro group mem
    obtain ⟨earlier, before, rfl⟩ := List.mem_map.mp mem
    split
    · exact distinct
    · exact (h.each earlier before).filter _
  apart := by
    rw [KeyedGroups.reassign, List.pairwise_map]
    refine (h.keys.and h.apart).imp fun {a b} ⟨different, apart⟩ => ?_
    intro item
    split <;> split
    · next first second => exact absurd (first.trans second.symm) different
    · intro given held
      simpa [given] using (List.mem_filter.mp held).2
    · intro held given
      simpa [given] using (List.mem_filter.mp held).2
    · intro held given
      exact apart (List.mem_of_mem_filter held) (List.mem_of_mem_filter given)

end Reassign

/-- Groups that hold known items once, and leave none out, hold exactly the items. -/
theorem HeldOnce.perm {known : List ι} (h : HeldOnce groups) (distinct : known.Nodup)
    (sound : ∀ group ∈ groups, ∀ item ∈ group.2, item ∈ known)
    (complete : ∀ item ∈ known, ∃ group ∈ groups, item ∈ group.2) :
    (groups.flatMap Prod.snd).Perm known := by
  rw [List.perm_ext_iff_of_nodup h.nodup distinct]
  intro item
  rw [List.mem_flatMap]
  constructor
  · rintro ⟨group, mem, held⟩
    exact sound group mem item held
  · exact complete item

end KeyedGroups
