import Mathlib.Data.List.Basic
import Mathlib.Data.List.Forall2

/-!
# Edits of a file

An edit replaces a stretch of lines by others; an edit of an empty stretch inserts. Edits
that follow one another are made together. It makes no difference whether an edit also
replaces some of the lines behind its stretch by themselves.
-/

namespace LineEdits

universe u

/-- The `count` lines from line `start` on give way to `lines`; the first line is line one. -/
structure Edit (α : Type u) where
  start : Nat
  count : Nat
  lines : List α

variable {α : Type u} {file : List α} {done k : Nat} {edit wide : Edit α}
  {edits wides : List (Edit α)}

/-- The lines before an edit, as a number of lines. -/
def Edit.before (edit : Edit α) : Nat := edit.start - 1

/-- What becomes of the file behind its first `done` lines. -/
def applyEdits (file : List α) : Nat → List (Edit α) → List α
  | done, [] => file.drop done
  | done, edit :: rest =>
    (file.take edit.before).drop done ++
      (edit.lines ++ applyEdits file (edit.before + edit.count) rest)

theorem applyEdits_absorb (apart : ∀ edit ∈ edits.head?, done + k ≤ edit.before) :
    applyEdits file done edits =
      (file.drop done).take k ++ applyEdits file (done + k) edits := by
  cases edits with
  | nil =>
    rw [applyEdits, applyEdits, ← List.drop_drop, List.take_append_drop]
  | cons edit rest =>
    have room : done + k ≤ edit.before := apart edit rfl
    have cut : (file.take edit.before).drop done =
        (file.drop done).take k ++ (file.take edit.before).drop (done + k) := by
      rw [← List.take_append_drop k ((file.take edit.before).drop done), List.drop_drop]
      congr 1
      rw [List.drop_take, List.take_take, Nat.min_eq_left (by omega)]
    rw [applyEdits, applyEdits, cut, List.append_assoc]

/-- The wide edit replaces some lines more, by themselves. -/
structure Widens (file : List α) (edit wide : Edit α) : Prop where
  start : wide.start = edit.start
  lines : ∃ k, wide.count = edit.count + k ∧
    wide.lines = edit.lines ++ (file.drop (edit.before + edit.count)).take k

/-- Every edit ends before the next one starts. -/
def Ordered (edits : List (Edit α)) : Prop :=
  edits.Pairwise fun first second => first.before + first.count ≤ second.before

theorem applyEdits_widen (ordered : Ordered wides)
    (widens : List.Forall₂ (Widens file) edits wides) :
    applyEdits file done edits = applyEdits file done wides := by
  induction widens generalizing done with
  | nil => rfl
  | @cons edit wide edits wides first others ih =>
    obtain ⟨apart, later⟩ := List.pairwise_cons.mp ordered
    obtain ⟨k, count, lines⟩ := first.lines
    have before : wide.before = edit.before := by rw [Edit.before, first.start, Edit.before]
    have room : ∀ next ∈ edits.head?, edit.before + edit.count + k ≤ next.before := by
      intro next head
      cases others with
      | nil => cases head
      | @cons next' wide' _ _ second _ =>
        cases head
        have follows := apart wide' List.mem_cons_self
        have same : wide'.before = next.before := by rw [Edit.before, second.start, Edit.before]
        omega
    rw [applyEdits, applyEdits, before, count, lines, applyEdits_absorb room, ← Nat.add_assoc,
      ih later, List.append_assoc]

end LineEdits
