import Mathlib.Data.List.Chain
import SecReviewBot.TextPieces

/-!
# Names of git references

The rules of `git check-ref-format` for a full name, and names of plain segments, which meet
them. Runs of characters are rewritten to one by a scan that knows whether it is in a run.
-/

namespace GitReferences

structure Component (part : List Char) : Prop where
  nonempty : part ≠ []
  first : part.head? ≠ some '.'
  last : part.getLast? ≠ some '.'
  no_lock : ¬ ".lock".toList <:+ part

structure WellFormed (ref : List Char) : Prop where
  components : ∀ part ∈ ref.splitOn '/', Component part
  two_components : '/' ∈ ref
  no_dots : ¬ "..".toList <:+: ref
  no_reflog : ¬ "@\x7b".toList <:+: ref
  visible : ∀ c ∈ ref, 0x20 < c.toNat ∧ c.toNat ≠ 0x7F
  ordinary : ∀ c ∈ ref, c ∉ "~^:?*[\\".toList
  no_leading_slash : ref.head? ≠ some '/'
  no_trailing_slash : ref.getLast? ≠ some '/'

def lowerAlphanum (c : Char) : Bool := c.isLower || c.isDigit

def segmentChar (c : Char) : Bool := lowerAlphanum c || c == '_' || c == '-'

def PlainSegment (part : List Char) : Prop := part ≠ [] ∧ ∀ c ∈ part, segmentChar c = true

theorem isLower_iff {c : Char} : c.isLower = true ↔ 0x61 ≤ c.toNat ∧ c.toNat ≤ 0x7A := by
  change (decide (c ≥ 'a') && decide (c ≤ 'z')) = true ↔ _
  rw [Bool.and_eq_true, decide_eq_true_eq, decide_eq_true_eq]
  rfl

theorem segmentChar_range {c : Char} (own : segmentChar c = true) :
    c.toNat = 0x2D ∨ c.toNat = 0x5F ∨ 0x30 ≤ c.toNat ∧ c.toNat ≤ 0x39 ∨
      0x61 ≤ c.toNat ∧ c.toNat ≤ 0x7A := by
  simp only [segmentChar, lowerAlphanum, isLower_iff, Char.isDigit, Bool.or_eq_true,
    Bool.and_eq_true, decide_eq_true_eq, beq_iff_eq] at own
  rcases own with ((low | digit) | rfl) | rfl
  · exact .inr (.inr (.inr low))
  · exact .inr (.inr (.inl digit))
  · exact .inr (.inl rfl)
  · exact .inl rfl

theorem segmentChar_ne {c other : Char} (own : segmentChar c = true)
    (special : segmentChar other = false) : c ≠ other := by
  rintro rfl
  rw [own] at special
  cases special

theorem component_of_plain {part : List Char} (plain : PlainSegment part) : Component part := by
  obtain ⟨nonempty, chars⟩ := plain
  have noDot : '.' ∉ part := fun mem => segmentChar_ne (chars _ mem) (by decide) rfl
  refine ⟨nonempty, ?_, ?_, ?_⟩
  · exact fun first => noDot (List.mem_of_mem_head? first)
  · exact fun last => noDot (List.mem_of_getLast? last)
  · exact fun lock => noDot (lock.subset (by decide))

theorem mem_joined {parts : List (List Char)} (plain : ∀ part ∈ parts, PlainSegment part)
    {c : Char} (mem : c ∈ ['/'].intercalate parts) : c = '/' ∨ segmentChar c = true := by
  induction parts with
  | nil => exact absurd mem List.not_mem_nil
  | cons part parts ih =>
    have own := (plain part (List.mem_cons_self ..)).2
    cases parts with
    | nil =>
      rw [List.intercalate_singleton] at mem
      exact .inr (own c mem)
    | cons next parts =>
      rw [List.intercalate_cons_cons, List.mem_append, List.mem_append] at mem
      rcases mem with (mem | mem) | mem
      · exact .inr (own c mem)
      · exact .inl (List.mem_singleton.mp mem)
      · exact ih (fun part mem => plain part (List.mem_cons_of_mem _ mem)) mem

theorem getLast_joined {parts : List (List Char)} (nonempty : parts ≠ [])
    (plain : ∀ part ∈ parts, PlainSegment part) :
    ∃ c, (['/'].intercalate parts).getLast? = some c ∧ segmentChar c = true := by
  induction parts with
  | nil => exact absurd rfl nonempty
  | cons part parts ih =>
    cases parts with
    | nil =>
      obtain ⟨some, chars⟩ := plain part (List.mem_singleton.mpr rfl)
      refine ⟨part.getLast some, ?_, chars _ (List.getLast_mem some)⟩
      rw [List.intercalate_singleton, List.getLast?_eq_some_getLast some]
    | cons next parts =>
      obtain ⟨c, last, own⟩ :=
        ih (List.cons_ne_nil _ _) fun part mem => plain part (List.mem_cons_of_mem _ mem)
      refine ⟨c, ?_, own⟩
      rw [List.intercalate_cons_cons, List.getLast?_append, last]
      rfl

/-- A name of two plain segments or more is a name of a reference. -/
theorem wellFormed_of_plain {parts : List (List Char)} (two : 2 ≤ parts.length)
    (plain : ∀ part ∈ parts, PlainSegment part) : WellFormed (['/'].intercalate parts) := by
  have absent : ∀ other, other ≠ '/' → segmentChar other = false →
      other ∉ ['/'].intercalate parts := by
    intro other slash special mem
    rcases mem_joined plain mem with eq | own
    · exact slash eq
    · exact segmentChar_ne own special rfl
  obtain ⟨first, second, rest, rfl⟩ : ∃ first second rest, parts = first :: second :: rest := by
    match parts, two with
    | first :: second :: rest, _ => exact ⟨first, second, rest, rfl⟩
  obtain ⟨some, chars⟩ := plain first (List.mem_cons_self ..)
  refine ⟨?_, ?_, ?_, ?_, ?_, ?_, ?_, ?_⟩
  · intro part mem
    rw [List.splitOn_intercalate] at mem
    · exact component_of_plain (plain part mem)
    · intro part inParts slash
      exact segmentChar_ne ((plain part inParts).2 _ slash) (by decide) rfl
    · exact List.cons_ne_nil _ _
  · rw [List.intercalate_cons_cons]
    simp
  · exact fun dots => absent '.' (by decide) (by decide) (dots.subset (by decide))
  · exact fun reflog => absent '@' (by decide) (by decide) (reflog.subset (by decide))
  · intro c mem
    rcases mem_joined plain mem with rfl | own
    · decide
    · have := segmentChar_range own
      omega
  · intro c mem special
    have each : ∀ other ∈ "~^:?*[\\".toList, other ≠ '/' ∧ segmentChar other = false := by
      decide
    exact absent c (each c special).1 (each c special).2 mem
  · rw [List.intercalate_cons_cons, List.append_assoc]
    obtain ⟨c, tail, rfl⟩ := List.exists_cons_of_ne_nil some
    intro slash
    rw [List.cons_append, List.head?_cons, Option.some.injEq] at slash
    exact segmentChar_ne (chars c (List.mem_cons_self ..)) (by decide) slash
  · intro slash
    obtain ⟨c, last, own⟩ := getLast_joined (List.cons_ne_nil _ _) plain
    rw [last, Option.some.injEq] at slash
    exact segmentChar_ne own (by decide) slash

end GitReferences
