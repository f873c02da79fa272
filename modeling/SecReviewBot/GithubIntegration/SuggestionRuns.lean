import SecReviewBot.GithubIntegration.SuggestionService
import SecReviewBot.GroupedSums

/-!
# Runs of changed lines

How the runs of a hunk lie in it: each is a stretch of its numbered lines, with unchanged
lines between one and the next, and the lines it removes have consecutive numbers.
-/

namespace SuggestionRuns

open TextPieces GroupedSums SuggestionService

variable {lines before run rest : List Numbered} {r : Run}

/-- How far a line moves the place in the old file. -/
def advance (line : String) : Nat := if startsWith line " " || startsWith line "-" then 1 else 0

def advances (lines : List String) : Nat := sumOf advance lines

theorem numberLines_cons (cursor : Nat) (line : String) (rest : List String) :
    numberLines cursor (line :: rest) = (cursor, line) :: numberLines (cursor + advance line) rest := by
  rw [numberLines, advance]
  split <;> rfl

theorem numberLines_append (cursor : Nat) (xs ys : List String) :
    numberLines cursor (xs ++ ys) =
      numberLines cursor xs ++ numberLines (cursor + advances xs) ys := by
  induction xs generalizing cursor with
  | nil => rfl
  | cons x later ih =>
    rw [List.cons_append, numberLines_cons, numberLines_cons, ih, List.cons_append, advances,
      advances, sumOf, Nat.add_assoc]

theorem numberLines_snd (cursor : Nat) (xs : List String) :
    (numberLines cursor xs).map Prod.snd = xs := by
  induction xs generalizing cursor with
  | nil => rfl
  | cons x later ih => rw [numberLines_cons, List.map_cons, ih]

/-- A stretch of numbered lines is numbered from its own place on. -/
theorem numberLines_split {cursor : Nat} {xs : List String} {first second : List Numbered}
    (split : numberLines cursor xs = first ++ second) :
    first = numberLines cursor (first.map Prod.snd) ∧
      second = numberLines (cursor + advances (first.map Prod.snd)) (second.map Prod.snd) := by
  have texts : xs = first.map Prod.snd ++ second.map Prod.snd := by
    rw [← numberLines_snd cursor xs, split, List.map_append]
  rw [texts, numberLines_append] at split
  have length : (numberLines cursor (first.map Prod.snd)).length = first.length := by
    have same := congrArg List.length (numberLines_snd cursor (first.map Prod.snd))
    simpa using same
  obtain ⟨left, right⟩ := List.append_inj split length
  exact ⟨left.symm, right.symm⟩

/-- A run in a hunk. -/
structure Lies (lines : List Numbered) (r : Run) : Prop where
  whole : lines = r.before ++ (r.lines ++ r.after)
  nonempty : r.lines ≠ []
  changes : ∀ line ∈ r.lines, isChange line = true
  stops : ∀ line ∈ r.after.head?, isChange line = false

theorem closeRun_lies (changes : ∀ line ∈ run, isChange line = true)
    (stops : ∀ line ∈ rest.head?, isChange line = false) :
    ∀ r ∈ closeRun before run rest, Lies (before ++ (run ++ rest)) r := by
  intro r mem
  rw [closeRun] at mem
  split at mem
  · cases mem
  · next some =>
    obtain rfl := List.mem_singleton.mp mem
    exact ⟨rfl, by simpa using some, changes, stops⟩

theorem scanRuns_lies (changes : ∀ line ∈ run, isChange line = true) :
    ∀ r ∈ scanRuns before run rest, Lies (before ++ (run ++ rest)) r := by
  induction rest generalizing before run with
  | nil => exact closeRun_lies changes (by simp)
  | cons line later ih =>
    intro r mem
    rw [scanRuns] at mem
    split at mem
    · next changed =>
      have more : ∀ other ∈ run ++ [line], isChange other = true := by
        intro other inside
        rcases List.mem_append.mp inside with inside | last
        · exact changes other inside
        · rw [List.mem_singleton.mp last]
          exact changed
      have lies := ih more r mem
      simpa using lies
    · next kept =>
      rcases List.mem_append.mp mem with closed | later
      · exact closeRun_lies changes (by simpa using kept) r closed
      · have lies := ih (List.forall_mem_nil _) r later
        simpa using lies

theorem runsOf_lies {hunk : WorkspaceHunk} (mem : r ∈ runsOf hunk) :
    Lies (numberLines hunk.header.oldStart hunk.lines) r := by
  have lies := scanRuns_lies (List.forall_mem_nil _) r mem
  simpa using lies

/-- The second run lies behind the first and the line that ends it. -/
def Follows (first second : Run) : Prop :=
  ∃ line, isChange line = false ∧ first.before ++ first.lines ++ [line] <+: second.before

theorem scanRuns_before : ∀ r ∈ scanRuns before run rest, before <+: r.before := by
  induction rest generalizing before run with
  | nil =>
    intro r mem
    rw [scanRuns, closeRun] at mem
    split at mem
    · cases mem
    · rw [List.mem_singleton.mp mem]
  | cons line later ih =>
    intro r mem
    rw [scanRuns] at mem
    split at mem
    · exact ih r mem
    · rcases List.mem_append.mp mem with closed | others
      · rw [closeRun] at closed
        split at closed
        · cases closed
        · rw [List.mem_singleton.mp closed]
      · have start := ih r others
        rw [List.append_assoc] at start
        exact (List.prefix_append _ _).trans start

theorem scanRuns_pairwise : (scanRuns before run rest).Pairwise Follows := by
  induction rest generalizing before run with
  | nil =>
    rw [scanRuns, closeRun]
    split
    · exact List.Pairwise.nil
    · exact List.pairwise_singleton _ _
  | cons line later ih =>
    rw [scanRuns]
    split
    · exact ih
    · next kept =>
      rw [List.pairwise_append]
      refine ⟨?_, ih, fun first closed second mem => ?_⟩
      · rw [closeRun]
        split
        · exact List.Pairwise.nil
        · exact List.pairwise_singleton _ _
      · rw [closeRun] at closed
        split at closed
        · cases closed
        · rw [List.mem_singleton.mp closed]
          exact ⟨line, by simpa using kept, scanRuns_before second mem⟩

theorem removed_not_added {line : Numbered} (removed : isRemoved line = true) :
    isAdded line = false := by
  obtain ⟨n, text⟩ := line
  obtain ⟨rest, chars⟩ := List.isPrefixOf_iff_prefix.mp removed
  simp [isAdded, startsWith, ← chars, List.isPrefixOf_cons_cons]

theorem advance_of_change {n : Nat} {text : String} (change : isChange (n, text) = true) :
    advance text = if isRemoved (n, text) then 1 else 0 := by
  have context : startsWith text " " = false := by
    rw [Bool.eq_false_iff]
    intro start
    obtain ⟨rest, chars⟩ := List.isPrefixOf_iff_prefix.mp start
    simp [isChange, isAdded, isRemoved, startsWith, ← chars, List.isPrefixOf_cons_cons] at change
  simp only [advance, context, Bool.false_or]
  rfl

/-- Among changed lines those removed have consecutive numbers. -/
theorem removed_numbers (cursor : Nat) {texts : List String}
    (changes : ∀ line ∈ numberLines cursor texts, isChange line = true) :
    ((numberLines cursor texts).filter isRemoved).map Prod.fst =
      List.range' cursor ((numberLines cursor texts).filter isRemoved).length := by
  induction texts generalizing cursor with
  | nil => rfl
  | cons text later ih =>
    rw [numberLines_cons] at changes ⊢
    have own := advance_of_change (changes _ List.mem_cons_self)
    have others := ih (cursor + advance text) fun line mem =>
      changes line (List.mem_cons_of_mem _ mem)
    rw [List.filter_cons]
    split
    · next removed =>
      rw [removed, if_pos rfl] at own
      rw [List.map_cons, List.length_cons, List.range'_succ, own] at *
      rw [others]
    · next kept =>
      rw [if_neg kept] at own
      rw [own, Nat.add_zero] at others ⊢
      exact others

theorem removed_count (cursor : Nat) {texts : List String}
    (changes : ∀ line ∈ numberLines cursor texts, isChange line = true) :
    ((numberLines cursor texts).filter isRemoved).length = advances texts := by
  induction texts generalizing cursor with
  | nil => rfl
  | cons text later ih =>
    rw [numberLines_cons] at changes ⊢
    have own := advance_of_change (changes _ List.mem_cons_self)
    have others := ih (cursor + advance text) fun line mem =>
      changes line (List.mem_cons_of_mem _ mem)
    rw [advances, sumOf, List.filter_cons]
    split
    · next removed =>
      rw [if_pos removed] at own
      rw [List.length_cons, others, own, advances]
      omega
    · next kept =>
      rw [if_neg kept] at own
      rw [others, own, advances]
      omega

/-- How many lines a run removes. -/
def removedCount (r : Run) : Nat := (r.lines.filter isRemoved).length

section Lying

variable {cursor : Nat} {texts : List String}

theorem Lies.numbered (lies : Lies (numberLines cursor texts) r) :
    r.lines = numberLines (cursor + advances (r.before.map Prod.snd)) (r.lines.map Prod.snd) ∧
      r.after = numberLines (cursor + advances (r.before.map Prod.snd) +
        advances (r.lines.map Prod.snd)) (r.after.map Prod.snd) := by
  obtain ⟨_, others⟩ := numberLines_split lies.whole
  exact numberLines_split others.symm

theorem Lies.insertionLine_eq (lies : Lies (numberLines cursor texts) r) :
    insertionLine r = cursor + advances (r.before.map Prod.snd) := by
  have numbered := lies.numbered.1
  cases first : r.lines with
  | nil => exact absurd first lies.nonempty
  | cons line rest =>
    rw [first, List.map_cons, numberLines_cons, List.cons.injEq] at numbered
    rw [insertionLine, first, List.head?_cons, Option.map_some, Option.getD_some, numbered.1]

theorem Lies.minus (lies : Lies (numberLines cursor texts) r) :
    minusLineNumbers r = List.range' (insertionLine r) (removedCount r) := by
  have numbered := lies.numbered.1
  rw [← lies.insertionLine_eq] at numbered
  have changes : ∀ line ∈ numberLines (insertionLine r) (r.lines.map Prod.snd),
      isChange line = true := by
    rw [← numbered]
    exact lies.changes
  have removed := removed_numbers _ changes
  rw [← numbered] at removed
  exact removed

theorem Lies.after_numbered (lies : Lies (numberLines cursor texts) r) :
    r.after = numberLines (insertionLine r + removedCount r) (r.after.map Prod.snd) := by
  have numbered := lies.numbered
  rw [← lies.insertionLine_eq] at numbered
  have changes : ∀ line ∈ numberLines (insertionLine r) (r.lines.map Prod.snd),
      isChange line = true := by
    rw [← numbered.1]
    exact lies.changes
  have count := removed_count _ changes
  rw [← numbered.1] at count
  rw [removedCount, count]
  exact numbered.2

theorem Lies.run_advances (lies : Lies (numberLines cursor texts) r) :
    advances (r.lines.map Prod.snd) = removedCount r := by
  have numbered := lies.numbered.1
  have changes := lies.changes
  rw [numbered] at changes
  have count := removed_count _ changes
  rw [← numbered] at count
  rw [removedCount, count]

/-- A run, with what it removes and the lines behind it, ends with the hunk. -/
theorem Lies.extent (lies : Lies (numberLines cursor texts) r) :
    insertionLine r + removedCount r + advances (r.after.map Prod.snd) =
      cursor + advances texts := by
  have whole : texts = r.before.map Prod.snd ++ (r.lines.map Prod.snd ++ r.after.map Prod.snd) := by
    rw [← numberLines_snd cursor texts, lies.whole, List.map_append, List.map_append]
  rw [lies.insertionLine_eq, ← lies.run_advances]
  conv_rhs => rw [whole]
  rw [advances, advances, advances, advances, sumOf_append, sumOf_append]
  omega

/-- A run that removes nothing adds something. -/
theorem Lies.adds (lies : Lies lines r) (none : removedCount r = 0) : plusLines r ≠ [] := by
  intro empty
  cases first : r.lines with
  | nil => exact lies.nonempty first
  | cons line rest =>
    have change := lies.changes line (by simp [first])
    have noPlus : isAdded line = false := by
      rw [plusLines, List.map_eq_nil_iff, List.filter_eq_nil_iff] at empty
      simpa using empty line (by simp [first])
    have noMinus : isRemoved line = false := by
      rw [removedCount, List.length_eq_zero_iff, List.filter_eq_nil_iff] at none
      simpa using none line (by simp [first])
    rw [isChange, noPlus, noMinus] at change
    cases change

/-- What a run adds, as the block has it. -/
def core (r : Run) : String := trimEnd (join '\n' (plusLines r))

theorem range'_head {start count : Nat} (positive : 0 < count) :
    (List.range' start count).head? = some start := by
  cases count with
  | zero => omega
  | succ count => rfl

theorem range'_last {start count : Nat} (positive : 0 < count) :
    (List.range' start count).getLast? = some (start + count - 1) := by
  cases count with
  | zero => omega
  | succ count =>
    rw [List.range'_1_concat, List.getLast?_concat]
    congr 1

/-- The block of a run that removes lines. -/
theorem suggestionBlock_minus (lies : Lies (numberLines cursor texts) r)
    (some_removed : 0 < removedCount r) :
    suggestionBlock r =
      if 0 < insertionLine r ∧ (plusLines r = [] ∨ core r ≠ "") then
        some { startLine := insertionLine r, line := insertionLine r + removedCount r - 1
               replacement := if plusLines r = [] then "" else core r }
      else none := by
  have minus := lies.minus
  have removed : removedCount r ≠ 0 := Nat.ne_of_gt some_removed
  have order : insertionLine r ≤ insertionLine r + removedCount r - 1 := by omega
  simp only [suggestionBlock, minus, range'_head some_removed, range'_last some_removed,
    Option.getD_some, block, order, and_true, core, List.isEmpty_iff]
  by_cases added : plusLines r = []
  · simp [added, removed]
  · by_cases blank : trimEnd (join '\n' (plusLines r)) = ""
    · simp [added, blank]
    · simp [added, blank, removed]

/-- The block of a run that only adds lines. -/
theorem suggestionBlock_plus (lies : Lies (numberLines cursor texts) r)
    (none_removed : removedCount r = 0) :
    suggestionBlock r =
      if core r ≠ "" ∧ 0 < insertionLine r then
        (anchoredReplacement r (core r)).map fun replacement =>
          { startLine := insertionLine r, line := insertionLine r, replacement }
      else none := by
  have minus : minusLineNumbers r = [] := by rw [lies.minus, none_removed]; rfl
  have added : (plusLines r).isEmpty = false := by simpa using lies.adds none_removed
  simp only [suggestionBlock, minus, added, List.isEmpty_nil, Bool.not_true, Bool.and_false,
    Bool.false_eq_true, if_false, core]
  by_cases blank : trimEnd (join '\n' (plusLines r)) = ""
  · simp [blank]
  · by_cases first : insertionLine r = 0
    · simp [first]
    · simp [blank, first, Nat.pos_of_ne_zero first]

end Lying

end SuggestionRuns
