import Mathlib.Data.List.Basic

/-!
# Fenced code blocks

The fenced code blocks of CommonMark: an opening line of at least three backticks with an
info string, and the lines up to the first one that closes the fence. A line ends with a
line feed, a carriage return or both.
-/

namespace FencedBlocks

/-- A line and its ending, which only the last line of a text may lack. -/
abbrev TextLine : Type := List Char × List Char

/-- A character in front of the first line. -/
def prepend (c : Char) : List TextLine → List TextLine
  | [] => [([c], [])]
  | line :: rest => (c :: line.1, line.2) :: rest

/-- A carriage return in front of the line feed that ends the first line. -/
def prependEnding : List TextLine → List TextLine
  | [] => []
  | line :: rest => (line.1, '\r' :: line.2) :: rest

def linesOf : List Char → List TextLine
  | [] => []
  | c :: rest =>
    if c = '\n' then ([], ['\n']) :: linesOf rest
    else if c = '\r' then
      if rest.head? = some '\n' then prependEnding (linesOf rest) else ([], ['\r']) :: linesOf rest
    else prepend c (linesOf rest)

/-- A closing fence: at most three spaces, enough backticks, and nothing else but blanks. -/
def closesFence (ticks : Nat) (line : List Char) : Bool :=
  let fence := line.dropWhile (· == ' ')
  decide ((line.takeWhile (· == ' ')).length ≤ 3) &&
    decide (ticks ≤ (fence.takeWhile (· == '`')).length) &&
      (fence.dropWhile (· == '`')).all fun c => c == ' ' || c == '\t'

structure Opening where
  ticks : Nat
  info : List Char
  deriving DecidableEq

def isBlank (c : Char) : Bool := c == ' ' || c == '\t'

/-- An opening fence. Its info string has no backtick. -/
def openFence (line : List Char) : Option Opening :=
  let fence := line.dropWhile (· == ' ')
  let ticks := (fence.takeWhile (· == '`')).length
  let info := (((fence.dropWhile (· == '`')).dropWhile isBlank).reverse.dropWhile isBlank).reverse
  if 3 < (line.takeWhile (· == ' ')).length ∨ ticks < 3 ∨ info.contains '`' then none
  else some { ticks, info }

/-- A fenced block at the start of a text, and the lines behind its closing fence. -/
structure Fenced where
  info : List Char
  content : List TextLine
  outside : List TextLine
  deriving DecidableEq

def readFenced (text : List Char) : Option Fenced :=
  match linesOf text with
  | [] => none
  | first :: rest =>
    (openFence first.1).map fun opening =>
      { info := opening.info
        content := rest.takeWhile fun line => !closesFence opening.ticks line.1
        outside := (rest.dropWhile fun line => !closesFence opening.ticks line.1).drop 1 }

theorem linesOf_ne_nil {text : List Char} (nonempty : text ≠ []) : linesOf text ≠ [] := by
  have added : ∀ c lines, prepend c lines ≠ [] := by
    intro c lines
    cases lines <;> simp [prepend]
  induction text with
  | nil => exact absurd rfl nonempty
  | cons c rest ih =>
    rw [linesOf]
    split
    · simp
    · split
      · split
        · next feed =>
          have more : rest ≠ [] := by
            rintro rfl
            cases feed
          cases lines : linesOf rest with
          | nil => exact absurd lines (ih more)
          | cons line later => simp [prependEnding]
        · simp
      · exact added _ _

theorem prepend_append {lines : List TextLine} (later : List TextLine) (c : Char)
    (nonempty : lines ≠ []) : prepend c (lines ++ later) = prepend c lines ++ later := by
  cases lines with
  | nil => exact absurd rfl nonempty
  | cons line rest => rfl

theorem prependEnding_append {lines : List TextLine} (later : List TextLine)
    (nonempty : lines ≠ []) : prependEnding (lines ++ later) = prependEnding lines ++ later := by
  cases lines with
  | nil => exact absurd rfl nonempty
  | cons line rest => rfl

/-- Behind a line feed a new line begins. -/
theorem linesOf_append (before rest : List Char) :
    linesOf (before ++ '\n' :: rest) = linesOf (before ++ ['\n']) ++ linesOf rest := by
  induction before with
  | nil => simp [linesOf]
  | cons c tail ih =>
    have nonempty : linesOf (tail ++ ['\n']) ≠ [] := linesOf_ne_nil (by simp)
    have head : (tail ++ '\n' :: rest).head? = (tail ++ ['\n']).head? := by
      cases tail <;> rfl
    rw [List.cons_append, List.cons_append, linesOf, linesOf, head, ih,
      prepend_append _ c nonempty, prependEnding_append _ nonempty]
    split
    · rfl
    · split
      · split <;> rfl
      · rfl

section Reading

variable {opening closing : List Char} {ticks : Nat} {info : List Char}

/-- A text between an opening and a closing line is read back exactly when no line of it
closes the fence. -/
theorem readFenced_iff (first : linesOf (opening ++ ['\n']) = [(opening, ['\n'])])
    (last : linesOf closing = [(closing, [])])
    (opens : openFence opening = some { ticks, info })
    (closes : closesFence ticks closing = true) (text : List Char) :
    readFenced (opening ++ '\n' :: (text ++ '\n' :: closing)) =
        some { info, content := linesOf (text ++ ['\n']), outside := [] } ↔
      ∀ line ∈ linesOf (text ++ ['\n']), closesFence ticks line.1 = false := by
  have lines : linesOf (opening ++ '\n' :: (text ++ '\n' :: closing)) =
      (opening, ['\n']) :: (linesOf (text ++ ['\n']) ++ [(closing, [])]) := by
    rw [linesOf_append, first, linesOf_append text, last]
    rfl
  simp only [readFenced, lines, opens, Option.map_some, Option.some.injEq, Fenced.mk.injEq,
    true_and]
  generalize linesOf (text ++ ['\n']) = inside
  have ends : ∀ p : TextLine → Bool, p (closing, []) = false →
      ((∀ line ∈ inside, p line = true) →
        (inside ++ [(closing, [])]).takeWhile p = inside ∧
          (inside ++ [(closing, [])]).dropWhile p = [(closing, [])]) := by
    intro p stops all
    constructor
    · rw [List.takeWhile_append_of_pos all]
      simp [stops]
    · rw [List.dropWhile_append_of_pos all]
      simp [stops]
  constructor
  · rintro ⟨content, -⟩ line mem
    rw [← content] at mem
    have passed := List.all_eq_true.mp (List.all_takeWhile
      (l := inside ++ [(closing, [])]) (p := fun line => !closesFence ticks line.1)) line mem
    simpa using passed
  · intro none
    obtain ⟨content, after⟩ := ends (fun line => !closesFence ticks line.1) (by simp [closes])
      (by simpa using none)
    rw [content, after]
    exact ⟨rfl, rfl⟩

end Reading

end FencedBlocks
