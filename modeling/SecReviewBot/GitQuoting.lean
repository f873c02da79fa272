import SecReviewBot.TextCodecs

/-!
# Git's quoting of paths

A path that has a control character, a quote or a backslash is printed between quotes with
C escapes; with `core.quotePath` so is one with a character outside ASCII, whose octets are
escaped in octal.
-/

namespace GitQuoting

open TextCodecs

def octalChars (octet : Nat) : List Char :=
  ['\\', Char.ofNat (48 + octet / 64), Char.ofNat (48 + octet / 8 % 8), Char.ofNat (48 + octet % 8)]

/-- The letter that escapes a character. -/
def shortEscape (c : Char) : Option Char :=
  if c.toNat = 7 then some 'a' else if c.toNat = 8 then some 'b' else if c.toNat = 9 then some 't'
  else if c.toNat = 10 then some 'n' else if c.toNat = 11 then some 'v'
  else if c.toNat = 12 then some 'f' else if c.toNat = 13 then some 'r'
  else if c = '"' then some '"' else if c = '\\' then some '\\' else none

/-- `quotePath` is the setting `core.quotePath`. -/
def quoteChar (quotePath : Bool) (c : Char) : List Char :=
  match shortEscape c with
  | some letter => ['\\', letter]
  | none =>
    if c.toNat < 32 ∨ c.toNat = 127 then octalChars c.toNat
    else if quotePath = true ∧ 128 ≤ c.toNat then (utf8EncodeChar c).flatMap octalChars
    else [c]

/-- A character for whose sake a path is quoted. -/
def special (quotePath : Bool) (c : Char) : Bool :=
  (shortEscape c).isSome || decide (c.toNat < 32 ∨ c.toNat = 127) ||
    decide (quotePath = true ∧ 128 ≤ c.toNat)

def isQuoted (quotePath : Bool) (path : String) : Bool := path.toList.any (special quotePath)

def cQuote (quotePath : Bool) (path : String) : String :=
  if isQuoted quotePath path then
    String.ofList ('"' :: (path.toList.flatMap (quoteChar quotePath) ++ ['"']))
  else path

theorem quoteChar_plain {quotePath : Bool} {c : Char} (plain : special quotePath c = false) :
    quoteChar quotePath c = [c] := by
  simp only [special, Bool.or_eq_false_iff, decide_eq_false_iff_not] at plain
  obtain ⟨⟨short, control⟩, wide⟩ := plain
  rw [Option.isSome_eq_false_iff, Option.isNone_iff_eq_none] at short
  rw [quoteChar, short]
  simp only [if_neg control, if_neg wide]

theorem octalChars_visible {octet : Nat} (small : octet < 256) :
    ∀ d ∈ octalChars octet, d ≠ ' ' ∧ d ≠ '\n' := by
  have digit : ∀ n < 8, Char.ofNat (48 + n) ≠ ' ' ∧ Char.ofNat (48 + n) ≠ '\n' := by decide
  intro d mem
  simp only [octalChars, List.mem_cons, List.not_mem_nil, or_false] at mem
  rcases mem with rfl | rfl | rfl | rfl
  · decide
  · exact digit _ (by omega)
  · exact digit _ (by omega)
  · exact digit _ (by omega)

theorem shortEscape_visible {c letter : Char} (short : shortEscape c = some letter) :
    letter ≠ ' ' ∧ letter ≠ '\n' := by
  simp only [shortEscape] at short
  repeat' split at short
  all_goals first | cases short; decide | cases short

theorem octets_lt (c : Char) : ∀ octet ∈ utf8EncodeChar c, octet < 256 := by
  intro octet mem
  exact utf8Encode_octets [c] octet (by simpa [utf8Encode] using mem)

/-- Quoting adds no spaces and no line feeds. -/
theorem mem_quoteChar {quotePath : Bool} {c d : Char} (mem : d ∈ quoteChar quotePath c) :
    d = c ∧ special quotePath c = false ∨ d ≠ ' ' ∧ d ≠ '\n' := by
  cases plain : special quotePath c with
  | false =>
    rw [quoteChar_plain plain, List.mem_singleton] at mem
    exact .inl ⟨mem, rfl⟩
  | true =>
    refine .inr ?_
    rw [quoteChar] at mem
    split at mem
    · next letter short =>
      simp only [List.mem_cons, List.not_mem_nil, or_false] at mem
      rcases mem with rfl | rfl
      · decide
      · exact shortEscape_visible short
    · next short =>
      split at mem
      · next control => exact octalChars_visible (by omega) d mem
      · next visible =>
        split at mem
        · obtain ⟨octet, inside, mem⟩ := List.mem_flatMap.mp mem
          exact octalChars_visible (octets_lt c octet inside) d mem
        · next narrow => simp [special, short, visible, narrow] at plain

theorem special_newline (quotePath : Bool) : special quotePath '\n' = true := by
  simp [special, shortEscape]

theorem special_space (quotePath : Bool) : special quotePath ' ' = false := by
  simp [special, shortEscape]

theorem unbroken_cQuote (quotePath : Bool) (path : String) :
    '\n' ∉ (cQuote quotePath path).toList := by
  rw [cQuote]
  split
  · simp only [String.toList_ofList, List.mem_cons, List.mem_append, List.mem_flatMap,
      List.not_mem_nil, or_false]
    rintro (wrong | ⟨c, _, mem⟩ | wrong)
    · exact absurd wrong (by decide)
    · rcases mem_quoteChar mem with ⟨rfl, plain⟩ | other
      · rw [special_newline] at plain
        cases plain
      · exact other.2 rfl
    · exact absurd wrong (by decide)
  · next plain =>
    intro mem
    exact plain (List.any_eq_true.mpr ⟨_, mem, special_newline quotePath⟩)

theorem space_mem_cQuote {quotePath : Bool} {path : String} :
    ' ' ∈ (cQuote quotePath path).toList ↔ ' ' ∈ path.toList := by
  rw [cQuote]
  split
  · simp only [String.toList_ofList, List.mem_cons, List.mem_append, List.mem_flatMap,
      List.not_mem_nil, or_false]
    constructor
    · rintro (wrong | ⟨c, inside, mem⟩ | wrong)
      · exact absurd wrong (by decide)
      · rcases mem_quoteChar mem with ⟨rfl, _⟩ | other
        · exact inside
        · exact absurd rfl other.1
      · exact absurd wrong (by decide)
    · intro mem
      refine .inr (.inl ⟨' ', mem, ?_⟩)
      rw [quoteChar_plain (special_space quotePath)]
      exact List.mem_singleton_self _
  · rfl

end GitQuoting
