import Mathlib.Data.List.Perm.Basic

/-!
# Merged streams

A list merges some streams when it holds the elements of all of them, and those of each
stream in the order of the stream. Streams grow at their ends, and so does what merges them.
-/

namespace StreamMerges

universe u v

variable {α : Type u} {β : Type v}

/-- The whole holds the elements of both lists, each in order. -/
inductive Shuffle : List α → List α → List α → Prop where
  | nil : Shuffle [] [] []
  | left {x : α} {first second whole : List α} :
      Shuffle first second whole → Shuffle (x :: first) second (x :: whole)
  | right {x : α} {first second whole : List α} :
      Shuffle first second whole → Shuffle first (x :: second) (x :: whole)

inductive Merges : List (List α) → List α → Prop where
  | nil : Merges [] []
  | cons {stream rest whole : List α} {streams : List (List α)} :
      Merges streams rest → Shuffle stream rest whole → Merges (stream :: streams) whole

theorem shuffle_nil (whole : List α) : Shuffle [] whole whole := by
  induction whole with
  | nil => exact .nil
  | cons x rest ih => exact ih.right

theorem Shuffle.eq_of_nil {second whole : List α} (shuffled : Shuffle [] second whole) :
    whole = second := by
  generalize empty : ([] : List α) = first at shuffled
  induction shuffled with
  | nil => rfl
  | left _ _ => cases empty
  | right _ ih => rw [ih empty]

theorem Shuffle.concat_left {first second whole : List α} (shuffled : Shuffle first second whole)
    (x : α) : Shuffle (first ++ [x]) second (whole ++ [x]) := by
  induction shuffled with
  | nil => exact Shuffle.nil.left
  | left _ ih => exact ih.left
  | right _ ih => exact ih.right

theorem Shuffle.concat_right {first second whole : List α} (shuffled : Shuffle first second whole)
    (x : α) : Shuffle first (second ++ [x]) (whole ++ [x]) := by
  induction shuffled with
  | nil => exact Shuffle.nil.right
  | left _ ih => exact ih.left
  | right _ ih => exact ih.right

theorem Shuffle.perm {first second whole : List α} (shuffled : Shuffle first second whole) :
    whole.Perm (first ++ second) := by
  induction shuffled with
  | nil => exact .nil
  | left _ ih => exact ih.cons _
  | right _ ih => exact (ih.cons _).trans List.perm_middle.symm

theorem Merges.perm {streams : List (List α)} {whole : List α} (merged : Merges streams whole) :
    whole.Perm streams.flatten := by
  induction merged with
  | nil => exact .nil
  | cons _ shuffled ih => exact shuffled.perm.trans (ih.append_left _)

/-- A stream that is still empty changes nothing. -/
theorem Merges.concat_nil {streams : List (List α)} {whole : List α}
    (merged : Merges streams whole) : Merges (streams ++ [[]]) whole := by
  induction merged with
  | nil => exact .cons .nil .nil
  | cons _ shuffled ih => exact .cons ih shuffled

/-- One stream and the whole grow by the same element. -/
theorem Merges.push {streams : List (List α)} {whole : List α} (merged : Merges streams whole)
    {i : Nat} (inside : i < streams.length) (x : α) :
    Merges (streams.modify i (· ++ [x])) (whole ++ [x]) := by
  induction merged generalizing i with
  | nil => simp at inside
  | cons others shuffled ih =>
    cases i with
    | zero => exact .cons others (shuffled.concat_left x)
    | succ j =>
      have later := Nat.lt_of_succ_lt_succ inside
      exact .cons (ih later) (shuffled.concat_right x)

/-- Streams that stayed empty can be left out. -/
theorem Merges.filter {keep : β → Bool} {stream : β → List α} {items : List β} {whole : List α}
    (merged : Merges (items.map stream) whole)
    (empty : ∀ item ∈ items, keep item = false → stream item = []) :
    Merges ((items.filter keep).map stream) whole := by
  induction items generalizing whole with
  | nil => exact merged
  | cons item rest ih =>
    obtain _ | ⟨others, shuffled⟩ := merged
    have later := ih others fun other mem => empty other (List.mem_cons_of_mem _ mem)
    cases kept : keep item with
    | true =>
      rw [List.filter_cons_of_pos kept, List.map_cons]
      exact .cons later shuffled
    | false =>
      rw [List.filter_cons_of_neg (by simp [kept])]
      rw [empty item List.mem_cons_self kept] at shuffled
      rw [shuffled.eq_of_nil]
      exact later

end StreamMerges
