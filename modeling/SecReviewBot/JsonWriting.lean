import SecReviewBot.JsonOrders
import SecReviewBot.TextPieces

/-!
# Values as texts

`JSON.stringify` of a value whose members are listed in the order they are written in.
Numbers are written by `Number.prototype.toString`. A value ends where its text does:
from a text that goes on with a comma or a closing bracket both the value and what follows
can be read off, so different values have different texts.
-/

namespace JsonWriting

open JsonValues JsonTexts JsonOrders TextPieces

def numberChar (c : Char) : Bool := c.isDigit || c == '-' || c == '+' || c == '.' || c == 'e'

structure NumberTexts where
  text : Rat → List Char
  injective : Function.Injective text
  chars : ∀ r, ∀ c ∈ text r, numberChar c = true
  written : ∀ r, text r ≠ []

section Writing

variable (numbers : NumberTexts)

mutual

def write : Json → List Char
  | .null => ['n', 'u', 'l', 'l']
  | .bool true => ['t', 'r', 'u', 'e']
  | .bool false => ['f', 'a', 'l', 's', 'e']
  | .num r => numbers.text r
  | .str s => quoteChars s.toList
  | .arr items => '[' :: writeItems items
  | .obj members => '\x7b' :: writeMembers members

/-- The items and the closing bracket. -/
def writeItems : List Json → List Char
  | [] => [']']
  | x :: rest => write x ++ writeLaterItems rest

def writeLaterItems : List Json → List Char
  | [] => [']']
  | x :: rest => ',' :: (write x ++ writeLaterItems rest)

/-- The members and the closing brace. -/
def writeMembers : List (String × Json) → List Char
  | [] => ['\x7d']
  | (key, x) :: rest => quoteChars key.toList ++ ':' :: (write x ++ writeLaterMembers rest)

def writeLaterMembers : List (String × Json) → List Char
  | [] => ['\x7d']
  | (key, x) :: rest =>
    ',' :: (quoteChars key.toList ++ ':' :: (write x ++ writeLaterMembers rest))

end

/-- `JSON.stringify`. -/
def stringifyJson (value : Json) : String := String.ofList (write numbers value)

end Writing

/-- What follows does not prolong a number. -/
def Delimited (rest : List Char) : Prop := ∀ c ∈ rest.head?, numberChar c = false

theorem quoteChars_cancel {k l : String} {r s : List Char}
    (equal : quoteChars k.toList ++ r = quoteChars l.toList ++ s) : k = l ∧ r = s := by
  have read := readString_quoteChars k r
  rw [equal, readString_quoteChars] at read
  simp only [Option.some.injEq, Prod.mk.injEq] at read
  exact ⟨read.1.symm, read.2.symm⟩

variable {numbers : NumberTexts}

theorem takeWhile_number {r : Rat} {rest : List Char} (delimited : Delimited rest) :
    (numbers.text r ++ rest).takeWhile numberChar = numbers.text r := by
  rw [List.takeWhile_append_of_pos (numbers.chars r)]
  cases rest with
  | nil => simp
  | cons c later =>
    have stop : numberChar c = false := delimited c (by simp)
    simp [stop]

theorem number_cancel {q p : Rat} {r s : List Char} (hr : Delimited r) (hs : Delimited s)
    (equal : numbers.text q ++ r = numbers.text p ++ s) : q = p ∧ r = s := by
  have first : numbers.text q = numbers.text p := by
    rw [← takeWhile_number hr, equal, takeWhile_number hs]
  refine ⟨numbers.injective first, ?_⟩
  rw [first] at equal
  exact List.append_cancel_left equal

/-- The first character tells the kind of a value. -/
def leadOf (c : Char) : Nat :=
  if c = 'n' then 0 else if c = 't' then 1 else if c = 'f' then 2 else if c = '"' then 3
  else if c = '[' then 4 else if c = '\x7b' then 5 else if c = ']' then 7 else 6

def lead : Json → Nat
  | .null => 0
  | .bool true => 1
  | .bool false => 2
  | .str _ => 3
  | .arr _ => 4
  | .obj _ => 5
  | .num _ => 6

theorem leadOf_number {c : Char} (number : numberChar c = true) : leadOf c = 6 := by
  have other : ∀ d, numberChar d = false → c ≠ d := by
    rintro d not rfl
    rw [not] at number
    cases number
  simp only [leadOf, other 'n' (by decide), other 't' (by decide), other 'f' (by decide),
    other '"' (by decide), other '[' (by decide), other '\x7b' (by decide),
    other ']' (by decide), if_false]

theorem write_lead (numbers : NumberTexts) (value : Json) :
    ∃ c rest, write numbers value = c :: rest ∧ leadOf c = lead value := by
  cases value with
  | null => exact ⟨'n', _, by rw [write], rfl⟩
  | bool b =>
    cases b with
    | true => exact ⟨'t', _, by rw [write], rfl⟩
    | false => exact ⟨'f', _, by rw [write], rfl⟩
  | num r =>
    cases text : numbers.text r with
    | nil => exact absurd text (numbers.written r)
    | cons c rest =>
      refine ⟨c, rest, by rw [write, text], ?_⟩
      exact leadOf_number (numbers.chars r c (by simp [text]))
  | str s => exact ⟨'"', _, by rw [write, quoteChars], rfl⟩
  | arr items => exact ⟨'[', _, by rw [write], rfl⟩
  | obj members => exact ⟨'\x7b', _, by rw [write], rfl⟩

theorem lead_eq {a b : Json} {r s : List Char}
    (equal : write numbers a ++ r = write numbers b ++ s) : lead a = lead b := by
  obtain ⟨c, first, ha, la⟩ := write_lead numbers a
  obtain ⟨d, second, hb, lb⟩ := write_lead numbers b
  rw [ha, hb, List.cons_append, List.cons_append, List.cons.injEq] at equal
  rw [← la, ← lb, equal.1]

/-- A value can be read off any text that starts with it. -/
def Cancels (numbers : NumberTexts) (a : Json) : Prop :=
  ∀ b r s, Delimited r → Delimited s → write numbers a ++ r = write numbers b ++ s →
    a = b ∧ r = s

theorem delimited_laterItems (items : List Json) (r : List Char) :
    Delimited (writeLaterItems numbers items ++ r) := by
  intro c mem
  cases items with
  | nil =>
    rw [writeLaterItems] at mem
    cases mem
    decide
  | cons x rest =>
    rw [writeLaterItems] at mem
    cases mem
    decide

theorem delimited_laterMembers (members : List (String × Json)) (r : List Char) :
    Delimited (writeLaterMembers numbers members ++ r) := by
  intro c mem
  cases members with
  | nil =>
    rw [writeLaterMembers] at mem
    cases mem
    decide
  | cons m rest =>
    obtain ⟨key, x⟩ := m
    rw [writeLaterMembers] at mem
    cases mem
    decide

theorem laterItems_cancel {items : List Json} (each : ∀ x ∈ items, Cancels numbers x) :
    ∀ others r s, writeLaterItems numbers items ++ r = writeLaterItems numbers others ++ s →
      items = others ∧ r = s := by
  induction items with
  | nil =>
    intro others r s equal
    cases others with
    | nil => simpa [writeLaterItems] using equal
    | cons y later => simp [writeLaterItems] at equal
  | cons x rest ih =>
    intro others r s equal
    cases others with
    | nil => simp [writeLaterItems] at equal
    | cons y later =>
      simp only [writeLaterItems, List.cons_append, List.append_assoc, List.cons.injEq,
        true_and] at equal
      obtain ⟨rfl, further⟩ := each x (by simp) y _ _ (delimited_laterItems rest r)
        (delimited_laterItems later s) equal
      obtain ⟨rfl, last⟩ := ih (fun z mem => each z (by simp [mem])) later r s further
      exact ⟨rfl, last⟩

theorem laterMembers_cancel {members : List (String × Json)}
    (each : ∀ m ∈ members, Cancels numbers m.2) :
    ∀ others r s,
      writeLaterMembers numbers members ++ r = writeLaterMembers numbers others ++ s →
        members = others ∧ r = s := by
  induction members with
  | nil =>
    intro others r s equal
    cases others with
    | nil => simpa [writeLaterMembers] using equal
    | cons m later =>
      obtain ⟨key, y⟩ := m
      simp [writeLaterMembers] at equal
  | cons m rest ih =>
    obtain ⟨key, x⟩ := m
    intro others r s equal
    cases others with
    | nil => simp [writeLaterMembers] at equal
    | cons m' later =>
      obtain ⟨other, y⟩ := m'
      simp only [writeLaterMembers, List.cons_append, List.append_assoc, List.cons.injEq,
        true_and] at equal
      obtain ⟨rfl, afterName⟩ := quoteChars_cancel equal
      simp only [List.cons.injEq, true_and] at afterName
      obtain ⟨rfl, further⟩ := each (key, x) (by simp) y _ _ (delimited_laterMembers rest r)
        (delimited_laterMembers later s) afterName
      obtain ⟨rfl, last⟩ := ih (fun z mem => each z (by simp [mem])) later r s further
      exact ⟨rfl, last⟩

theorem closing_not_write {x : Json} {r s : List Char} :
    ']' :: r ≠ write numbers x ++ s := by
  intro equal
  obtain ⟨c, rest, first, kind⟩ := write_lead numbers x
  rw [first, List.cons_append, List.cons.injEq] at equal
  rw [← equal.1] at kind
  have other : lead x ≠ 7 := by
    cases x with
    | bool b => cases b <;> simp [lead]
    | _ => simp [lead]
  exact other kind.symm

theorem items_cancel {items : List Json} (each : ∀ x ∈ items, Cancels numbers x)
    {others : List Json} {r s : List Char}
    (equal : writeItems numbers items ++ r = writeItems numbers others ++ s) :
    items = others ∧ r = s := by
  cases items with
  | nil =>
    cases others with
    | nil => simpa [writeItems] using equal
    | cons y later =>
      rw [writeItems, writeItems, List.append_assoc] at equal
      exact absurd equal closing_not_write
  | cons x rest =>
    cases others with
    | nil =>
      rw [writeItems, writeItems, List.append_assoc] at equal
      exact absurd equal.symm closing_not_write
    | cons y later =>
      rw [writeItems, writeItems, List.append_assoc, List.append_assoc] at equal
      obtain ⟨rfl, further⟩ := each x (by simp) y _ _ (delimited_laterItems rest r)
        (delimited_laterItems later s) equal
      obtain ⟨rfl, last⟩ := laterItems_cancel (fun z mem => each z (by simp [mem])) later r s
        further
      exact ⟨rfl, last⟩

theorem members_cancel {members : List (String × Json)}
    (each : ∀ m ∈ members, Cancels numbers m.2) {others : List (String × Json)}
    {r s : List Char}
    (equal : writeMembers numbers members ++ r = writeMembers numbers others ++ s) :
    members = others ∧ r = s := by
  -- with a comma in front the first member is written like the later ones
  have later : writeLaterMembers numbers members ++ r = writeLaterMembers numbers others ++ s := by
    cases members with
    | nil =>
      cases others with
      | nil => simpa [writeMembers, writeLaterMembers] using equal
      | cons m rest => simp [writeMembers, quoteChars] at equal
    | cons m rest =>
      cases others with
      | nil => simp [writeMembers, quoteChars] at equal
      | cons m' rest' =>
        rw [writeMembers, writeMembers] at equal
        rw [writeLaterMembers, writeLaterMembers, List.cons_append, List.cons_append, equal]
  exact laterMembers_cancel each others r s later

theorem write_cancels (value : Json) : Cancels numbers value := by
  induction value using json_induction with
  | null =>
    intro b r s _ _ equal
    have same := lead_eq equal
    cases b with
    | null => exact ⟨rfl, List.append_cancel_left equal⟩
    | bool v => cases v <;> simp [lead] at same
    | _ => simp [lead] at same
  | bool b =>
    intro b' r s _ _ equal
    have same := lead_eq equal
    cases b' with
    | bool v =>
      have value : b = v := by cases b <;> cases v <;> simp_all [lead]
      subst value
      exact ⟨rfl, List.append_cancel_left equal⟩
    | _ => cases b <;> simp [lead] at same
  | num q =>
    intro b r s hr hs equal
    have same := lead_eq equal
    cases b with
    | num p =>
      rw [write, write] at equal
      obtain ⟨rfl, rest⟩ := number_cancel hr hs equal
      exact ⟨rfl, rest⟩
    | bool v => cases v <;> simp [lead] at same
    | _ => simp [lead] at same
  | str text =>
    intro b r s _ _ equal
    have same := lead_eq equal
    cases b with
    | str other =>
      rw [write, write] at equal
      obtain ⟨rfl, rest⟩ := quoteChars_cancel equal
      exact ⟨rfl, rest⟩
    | bool v => cases v <;> simp [lead] at same
    | _ => simp [lead] at same
  | arr items each =>
    intro b r s _ _ equal
    have same := lead_eq equal
    cases b with
    | arr others =>
      simp only [write, List.cons_append, List.cons.injEq, true_and] at equal
      obtain ⟨rfl, rest⟩ := items_cancel each equal
      exact ⟨rfl, rest⟩
    | bool v => cases v <;> simp [lead] at same
    | _ => simp [lead] at same
  | obj members each =>
    intro b r s _ _ equal
    have same := lead_eq equal
    cases b with
    | obj others =>
      simp only [write, List.cons_append, List.cons.injEq, true_and] at equal
      obtain ⟨rfl, rest⟩ := members_cancel each equal
      exact ⟨rfl, rest⟩
    | bool v => cases v <;> simp [lead] at same
    | _ => simp [lead] at same

theorem stringifyJson_injective (numbers : NumberTexts) :
    Function.Injective (stringifyJson numbers) := by
  intro a b equal
  have texts : write numbers a = write numbers b := String.ofList_injective equal
  have whole : write numbers a ++ [] = write numbers b ++ [] := by simpa using texts
  have nothing : Delimited [] := by
    intro c mem
    cases mem
  exact (write_cancels a b [] [] nothing nothing whole).1

def fractionText (r : Rat) : List Char :=
  (if r.num < 0 then ['-'] else []) ++
    (numeral r.num.natAbs ++ if r.den = 1 then [] else 'e' :: numeral r.den)

theorem readNumeral_fraction (n den : Nat) :
    readNumeral (numeral n ++ if den = 1 then [] else 'e' :: numeral den) =
      some (n, if den = 1 then [] else 'e' :: numeral den) := by
  refine readNumeral_numeral fun c mem => ?_
  split at mem
  · cases mem
  · cases mem
    decide

theorem fractionText_injective : Function.Injective fractionText := by
  have unsigned : ∀ m n d e : Nat,
      (numeral m ++ if d = 1 then [] else 'e' :: numeral d) =
        (numeral n ++ if e = 1 then [] else 'e' :: numeral e) → m = n ∧ d = e := by
    intro m n d e equal
    have read := readNumeral_fraction m d
    rw [equal, readNumeral_fraction, Option.some.injEq, Prod.mk.injEq] at read
    refine ⟨read.1.symm, ?_⟩
    have dens := read.2
    split at dens <;> split at dens
    · omega
    · cases dens
    · cases dens
    · simp only [List.cons.injEq, true_and] at dens
      have ends : ∀ k : Nat, readNumeral (numeral k) = some (k, []) := by
        intro k
        have all : readNumeral (numeral k ++ []) = some (k, []) := readNumeral_numeral (by simp)
        simpa using all
      have back := ends d
      rw [← dens, ends, Option.some.injEq, Prod.mk.injEq] at back
      exact back.1.symm
  have digit : ∀ (n : Nat) (rest later : List Char), numeral n ++ rest ≠ '-' :: later := by
    intro n rest later equal
    cases text : numeral n with
    | nil => exact absurd text (by simp [numeral])
    | cons c more =>
      rw [text, List.cons_append, List.cons.injEq] at equal
      have isDigit := numeral_isDigit (n := n) (c := c) (by simp [text])
      rw [equal.1] at isDigit
      exact absurd isDigit (by decide)
  intro a b equal
  simp only [fractionText] at equal
  by_cases ha : a.num < 0 <;> by_cases hb : b.num < 0 <;>
    simp only [ha, hb, if_true, if_false, List.nil_append, List.cons_append, List.cons.injEq,
      true_and] at equal
  · obtain ⟨nums, dens⟩ := unsigned _ _ _ _ equal
    exact Rat.ext (by omega) dens
  · exact absurd equal.symm (digit _ _ _)
  · exact absurd equal (digit _ _ _)
  · obtain ⟨nums, dens⟩ := unsigned _ _ _ _ equal
    exact Rat.ext (by omega) dens

/-- Integers as digits; any other number by its numerator and denominator. -/
def fractionNumbers : NumberTexts where
  text := fractionText
  injective := fractionText_injective
  chars := by
    have digits : ∀ n, ∀ c ∈ numeral n, numberChar c = true := by
      intro n c mem
      simp [numberChar, numeral_isDigit mem]
    intro r c mem
    simp only [fractionText, List.mem_append] at mem
    rcases mem with sign | digit | den
    · split at sign
      · rw [List.mem_singleton.mp sign]
        decide
      · cases sign
    · exact digits _ c digit
    · split at den
      · cases den
      · rcases List.mem_cons.mp den with rfl | later
        · decide
        · exact digits _ c later
  written := by
    intro r
    simp [fractionText, numeral]

end JsonWriting
