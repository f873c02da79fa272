import Mathlib.Data.List.Basic
import Mathlib.Data.List.Infix
import SecReviewBot.TextCodecs

/-!
# Texts in pieces

`split`, `join`, `startsWith` and `includes` of the services' string types, with one
character as the separator, and the decimal numerals of their number readers. Texts
that are written piece by piece are read back in the same pieces when no piece holds
the separator.
-/

namespace TextPieces

open TextCodecs

/-- `text.split(separator)`. -/
def split (separator : Char) (text : String) : List String :=
  (text.toList.splitOn separator).map String.ofList

/-- `pieces.join(separator)`. -/
def join (separator : Char) (pieces : List String) : String :=
  String.ofList ([separator].intercalate (pieces.map String.toList))

/-- Every piece with the separator after it. -/
def closed (separator : Char) (pieces : List String) : String :=
  String.ofList (pieces.flatMap fun piece => piece.toList ++ [separator])

variable {separator : Char} {pieces : List String}

/-- No piece of a cut list holds the separator. -/
theorem not_mem_splitOn {α : Type*} [DecidableEq α] (x : α) (whole : List α) :
    ∀ piece ∈ whole.splitOn x, x ∉ piece := by
  induction whole with
  | nil => simp
  | cons y rest ih =>
    intro piece mem
    rw [List.splitOn_cons_eq_if_modifyHead] at mem
    split at mem
    · rcases List.mem_cons.mp mem with rfl | later
      · exact List.not_mem_nil
      · exact ih piece later
    · next other =>
      cases pieces : rest.splitOn x with
      | nil => simp [pieces] at mem
      | cons first later =>
        rw [pieces, List.modifyHead_cons] at mem
        rcases List.mem_cons.mp mem with rfl | mem
        · have apart := ih first (by simp [pieces])
          have distinct : y ≠ x := by simpa using other
          simp [apart, distinct.symm]
        · exact ih piece (by simp [pieces, mem])

theorem not_mem_split (text : String) : ∀ piece ∈ split separator text, separator ∉ piece.toList := by
  intro piece mem
  obtain ⟨chars, held, rfl⟩ := List.mem_map.mp mem
  rw [String.toList_ofList]
  exact not_mem_splitOn separator text.toList chars held

theorem split_closed (none : ∀ piece ∈ pieces, separator ∉ piece.toList) :
    split separator (closed separator pieces) = pieces ++ [""] := by
  rw [split, closed, String.toList_ofList]
  induction pieces with
  | nil => simp
  | cons piece rest ih =>
    have later := ih fun other mem => none other (List.mem_cons_of_mem _ mem)
    rw [List.flatMap_cons, List.append_assoc, List.singleton_append,
      List.splitOn_append_cons_self_of_not_mem (none piece List.mem_cons_self), List.map_cons,
      later, String.ofList_toList, List.cons_append]

theorem split_join (none : ∀ piece ∈ pieces, separator ∉ piece.toList) (some : pieces ≠ []) :
    split separator (join separator pieces) = pieces := by
  rw [split, join, String.toList_ofList, List.splitOn_intercalate]
  · simp [Function.comp_def]
  · intro chars mem
    obtain ⟨piece, held, rfl⟩ := List.mem_map.mp mem
    exact none piece held
  · simpa using some

@[simp] theorem join_singleton (piece : String) : join separator [piece] = piece := by
  simp [join]

/-- A text that ends with the separator has the empty text as its last piece. -/
theorem join_append_empty (pieces : List String) :
    join separator (pieces ++ [""]) = closed separator pieces := by
  rw [join, closed, List.map_append]
  congr 1
  induction pieces with
  | nil => simp
  | cons piece rest ih =>
    have more : rest.map String.toList ++ [""].map String.toList ≠ [] := by simp
    rw [List.map_cons, List.cons_append, List.intercalate_cons_of_ne_nil more, ih,
      List.flatMap_cons]

theorem join_concat (some : pieces ≠ []) (last : String) :
    join separator (pieces ++ [last]) =
      String.ofList ((join separator pieces).toList ++ separator :: last.toList) := by
  rw [join, join, String.toList_ofList]
  congr 1
  induction pieces with
  | nil => exact absurd rfl some
  | cons piece rest ih =>
    cases rest with
    | nil => simp
    | cons next rest =>
      have more := ih (by simp)
      have own : [separator].intercalate ((piece :: next :: rest).map String.toList) =
          piece.toList ++ [separator] ++
            [separator].intercalate ((next :: rest).map String.toList) := by
        rw [List.map_cons, List.intercalate_cons_of_ne_nil (by simp)]
      rw [List.cons_append, List.map_cons, List.intercalate_cons_of_ne_nil (by simp), more, own]
      simp only [List.append_assoc]

theorem closed_append (first second : List String) :
    closed separator (first ++ second) =
      String.ofList ((closed separator first).toList ++ (closed separator second).toList) := by
  simp [closed]

@[simp] theorem closed_eq_empty_iff : closed separator pieces = "" ↔ pieces = [] := by
  constructor
  · intro empty
    cases pieces with
    | nil => rfl
    | cons piece rest =>
      have chars := congrArg String.toList empty
      simp [closed] at chars
  · rintro rfl
    rfl

/-- `text.startsWith(start)`. -/
def startsWith (text start : String) : Bool := start.toList.isPrefixOf text.toList

/-- `text.includes(needle)`. -/
def includes (text needle : String) : Bool := decide (needle.toList <:+: text.toList)

theorem prefix_of_prefix_append_cons {α : Type*} {needle before rest : List α} {x : α}
    (apart : x ∉ needle) (start : needle <+: before ++ x :: rest) : needle <+: before := by
  have whole : before ++ [x] <+: before ++ x :: rest := ⟨rest, by simp⟩
  rcases List.prefix_or_prefix_of_prefix start whole with inside | past
  · rcases List.prefix_concat_iff.mp inside with rfl | inside
    · exact absurd (by simp) apart
    · exact inside
  · exact absurd (past.subset (by simp)) apart

/-- What does not hold the separator lies on one side of it. -/
theorem infix_append_cons_iff {α : Type*} {needle before rest : List α} {x : α}
    (apart : x ∉ needle) :
    needle <:+: before ++ x :: rest ↔ needle <:+: before ∨ needle <:+: rest := by
  constructor
  · intro inside
    induction before with
    | nil =>
      rcases List.infix_cons_iff.mp inside with start | later
      · have first : needle <+: [] := prefix_of_prefix_append_cons apart start
        exact .inl first.isInfix
      · exact .inr later
    | cons y before ih =>
      rcases List.infix_cons_iff.mp inside with start | later
      · have first : needle <+: y :: before := prefix_of_prefix_append_cons apart start
        exact .inl first.isInfix
      · rcases ih later with first | second
        · exact .inl (List.infix_cons first)
        · exact .inr second
  · rintro (⟨left, right, rfl⟩ | ⟨left, right, rfl⟩)
    · exact ⟨left, right ++ x :: rest, by simp⟩
    · exact ⟨before ++ x :: left, right, by simp⟩

/-- A text without the separator is found in a joined text exactly when one of the
pieces has it. -/
theorem includes_join_iff {needle : String} (apart : separator ∉ needle.toList)
    (some : needle.toList ≠ []) :
    includes (join separator pieces) needle = true ↔
      ∃ piece ∈ pieces, includes piece needle = true := by
  simp only [includes, join, String.toList_ofList, decide_eq_true_eq]
  induction pieces with
  | nil => simp [some]
  | cons piece rest ih =>
    cases rest with
    | nil => simp
    | cons next rest =>
      rw [List.map_cons, List.intercalate_cons_of_ne_nil (by simp), List.append_assoc,
        List.singleton_append, infix_append_cons_iff apart, ih]
      simp only [List.mem_cons, exists_eq_or_imp]

theorem includes_closed_iff {needle : String} (apart : separator ∉ needle.toList)
    (some : needle.toList ≠ []) :
    includes (closed separator pieces) needle = true ↔
      ∃ piece ∈ pieces, includes piece needle = true := by
  have nothing : ¬ includes "" needle = true := by simp [includes, some]
  rw [← join_append_empty, includes_join_iff apart some]
  simp [nothing]

/-- The decimal numeral of a number. -/
def numeral (n : Nat) : List Char := Nat.toDigits 10 n

/-- The digits at the start of a text, and the rest. -/
def readNumeral (text : List Char) : Option (Nat × List Char) :=
  if text.takeWhile Char.isDigit = [] then none
  else some (Nat.ofDigitChars 10 (text.takeWhile Char.isDigit) 0, text.dropWhile Char.isDigit)

theorem numeral_isDigit {n : Nat} {c : Char} (mem : c ∈ numeral n) : c.isDigit = true :=
  Nat.isDigit_of_mem_toDigits (by omega) (by omega) mem

theorem takeWhile_numeral {n : Nat} {rest : List Char} (stop : ∀ c ∈ rest.head?, c.isDigit = false) :
    (numeral n ++ rest).takeWhile Char.isDigit = numeral n ∧
      (numeral n ++ rest).dropWhile Char.isDigit = rest := by
  have digits : ∀ c ∈ numeral n, c.isDigit = true := fun c mem => numeral_isDigit mem
  rw [List.takeWhile_append_of_pos digits, List.dropWhile_append_of_pos digits]
  cases rest with
  | nil => simp
  | cons c rest => simp [stop c (by simp)]

theorem readNumeral_numeral {n : Nat} {rest : List Char}
    (stop : ∀ c ∈ rest.head?, c.isDigit = false) :
    readNumeral (numeral n ++ rest) = some (n, rest) := by
  obtain ⟨taken, left⟩ := takeWhile_numeral (n := n) stop
  rw [readNumeral, taken, left, numeral, if_neg Nat.toDigits_ne_nil, Nat.ofDigitChars_ten_toDigits]

/-- `Number.parseInt(text, 10)`. -/
def parseInt (text : String) : Option Int :=
  match text.toList.dropWhile ecmaSpace with
  | '-' :: rest => (readNumeral rest).map fun read => -(read.1 : Int)
  | '+' :: rest => (readNumeral rest).map fun read => (read.1 : Int)
  | rest => (readNumeral rest).map fun read => (read.1 : Int)

theorem space_of_isDigit {c : Char} (digit : c.isDigit = true) : ecmaSpace c = false := by
  simp only [Char.isDigit, Bool.and_eq_true, decide_eq_true_eq] at digit
  have bounds : 48 ≤ c.toNat ∧ c.toNat ≤ 57 := digit
  have small : ¬ 0x2000 ≤ c.toNat := by omega
  simp only [ecmaSpace, small, decide_false, Bool.false_and, Bool.or_false]
  simp only [List.contains_eq_mem, decide_eq_false_iff_not, List.mem_cons, List.not_mem_nil,
    or_false, not_or]
  omega

theorem parseInt_numeral (n : Nat) : parseInt (String.ofList (numeral n)) = some (n : Int) := by
  have read : readNumeral (numeral n) = some (n, []) := by
    have whole : readNumeral (numeral n ++ []) = some (n, []) := readNumeral_numeral (by simp)
    rwa [List.append_nil] at whole
  obtain ⟨c, rest, eq⟩ := List.exists_cons_of_ne_nil (Nat.toDigits_ne_nil (n := n) (b := 10))
  have digit : c.isDigit = true := numeral_isDigit (n := n) (by rw [numeral, eq]; simp)
  have written : numeral n = c :: rest := eq
  rw [parseInt, String.toList_ofList, written,
    List.dropWhile_cons_of_neg (by simp [space_of_isDigit digit])]
  split
  · next sign =>
    cases sign
    exact absurd digit (by decide)
  · next sign =>
    cases sign
    exact absurd digit (by decide)
  · rw [← written, read]
    rfl

end TextPieces
