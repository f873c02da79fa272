import SecReviewBot.JsonValues
import SecReviewBot.TextCodecs

/-!
# JSON texts

`JSON.stringify` on objects of strings and `JSON.parse`. An object keeps the first
place and the last value of a repeated key, as JavaScript does. A string escape of
half a surrogate pair becomes the replacement character, which is what it is sent
as.
-/

namespace JsonTexts

open TextCodecs JsonValues

def hexChar (digit : Nat) : Char :=
  if digit < 10 then Char.ofNat (48 + digit) else Char.ofNat (97 + (digit - 10))

def escapeChar (c : Char) : List Char :=
  if c = '"' then ['\\', '"']
  else if c = '\\' then ['\\', '\\']
  else if c.toNat = 8 then ['\\', 'b']
  else if c.toNat = 9 then ['\\', 't']
  else if c.toNat = 10 then ['\\', 'n']
  else if c.toNat = 12 then ['\\', 'f']
  else if c.toNat = 13 then ['\\', 'r']
  else if c.toNat < 32 then
    ['\\', 'u', '0', '0', hexChar (c.toNat / 16), hexChar (c.toNat % 16)]
  else [c]

def quoteChars (text : List Char) : List Char := '"' :: (text.flatMap escapeChar ++ ['"'])

def memberChars (member : String × String) : List Char :=
  quoteChars member.1.toList ++ ':' :: quoteChars member.2.toList

/-- The members after the first, each with its comma, and the closing brace. -/
def memberListChars : List (String × String) → List Char
  | [] => ['\x7d']
  | member :: rest => ',' :: (memberChars member ++ memberListChars rest)

/-- `JSON.stringify` of an object of strings. -/
def stringify : List (String × String) → String
  | [] => String.ofList ['\x7b', '\x7d']
  | member :: rest => String.ofList ('\x7b' :: (memberChars member ++ memberListChars rest))

def hexValue (c : Char) : Option Nat :=
  if 48 ≤ c.toNat ∧ c.toNat ≤ 57 then some (c.toNat - 48)
  else if 97 ≤ c.toNat ∧ c.toNat ≤ 102 then some (c.toNat - 97 + 10)
  else if 65 ≤ c.toNat ∧ c.toNat ≤ 70 then some (c.toNat - 65 + 10)
  else none

def hexUnit (a b c d : Char) : Option Nat := do
  let a ← hexValue a
  let b ← hexValue b
  let c ← hexValue c
  let d ← hexValue d
  some (((a * 16 + b) * 16 + c) * 16 + d)

def escapedChar (c : Char) : Option Char :=
  if c = '"' ∨ c = '\\' ∨ c = '/' then some c
  else if c = 'b' then some (Char.ofNat 8)
  else if c = 't' then some (Char.ofNat 9)
  else if c = 'n' then some (Char.ofNat 10)
  else if c = 'f' then some (Char.ofNat 12)
  else if c = 'r' then some (Char.ofNat 13)
  else none

/-- The characters and escaped code units up to the closing quote. -/
def readPieces : List Char → Option (List (Char ⊕ Nat) × List Char)
  | [] => none
  | c :: rest =>
    if c = '"' then some ([], rest)
    else if c = '\\' then
      match rest with
      | 'u' :: w :: x :: y :: z :: later => do
        let codeUnit ← hexUnit w x y z
        let (pieces, left) ← readPieces later
        some (.inr codeUnit :: pieces, left)
      | e :: later => do
        let char ← escapedChar e
        let (pieces, left) ← readPieces later
        some (.inl char :: pieces, left)
      | [] => none
    else if c.toNat < 32 then none
    else do
      let (pieces, left) ← readPieces rest
      some (.inl c :: pieces, left)

/-- A high surrogate waits for the low one that completes it. -/
def joinPieces : Option Nat → List (Char ⊕ Nat) → List Char
  | high, [] => high.toList.map fun _ => replacementCharacter
  | high, .inl c :: rest =>
    high.toList.map (fun _ => replacementCharacter) ++ c :: joinPieces none rest
  | high, .inr codeUnit :: rest =>
    if 0xDC00 ≤ codeUnit ∧ codeUnit < 0xE000 then
      high.elim replacementCharacter
        (fun h => Char.ofNat (0x10000 + (h - 0xD800) * 0x400 + (codeUnit - 0xDC00))) ::
          joinPieces none rest
    else high.toList.map (fun _ => replacementCharacter) ++
      if 0xD800 ≤ codeUnit ∧ codeUnit < 0xDC00 then joinPieces (some codeUnit) rest
      else Char.ofNat codeUnit :: joinPieces none rest

/-- A string, from its opening quote on. -/
def readString : List Char → Option (String × List Char)
  | [] => none
  | c :: rest =>
    if c = '"' then do
      let (pieces, left) ← readPieces rest
      some (String.ofList (joinPieces none pieces), left)
    else none

def isSpace (c : Char) : Bool := c == ' ' || c == '\t' || c == '\n' || c == '\r'

def skipSpace (text : List Char) : List Char := text.dropWhile isSpace

def isDigit (c : Char) : Bool := (digitValue c).isSome

def digitsValue (text : List Char) : Nat :=
  text.foldl (fun n c => n * 10 + (digitValue c).getD 0) 0

/-- At least one digit. -/
def readDigits (text : List Char) : Option (List Char × List Char) :=
  if (text.takeWhile isDigit).isEmpty then none
  else some (text.takeWhile isDigit, text.dropWhile isDigit)

def readSign (plus : Bool) : List Char → Bool × List Char
  | [] => (false, [])
  | c :: rest =>
    if c = '-' then (true, rest)
    else if plus && c == '+' then (false, rest)
    else (false, c :: rest)

def readFractionPart : List Char → Option (List Char × List Char)
  | [] => some ([], [])
  | c :: rest => if c = '.' then readDigits rest else some ([], c :: rest)

def readExponent : List Char → Option ((Bool × Nat) × List Char)
  | [] => some ((false, 0), [])
  | c :: rest =>
    if c = 'e' ∨ c = 'E' then do
      let (down, rest) := readSign true rest
      let (exponent, left) ← readDigits rest
      some ((down, digitsValue exponent), left)
    else some ((false, 0), c :: rest)

def readNumber (text : List Char) : Option (Rat × List Char) := do
  let (negative, rest) := readSign false text
  let (whole, rest) ← readDigits rest
  -- no leading zeros
  if whole.head? = some '0' ∧ 1 < whole.length then none
  else
    let (fraction, rest) ← readFractionPart rest
    let ((down, exponent), rest) ← readExponent rest
    let mantissa : Int := digitsValue (whole ++ fraction)
    let signed := if negative then -mantissa else mantissa
    some (if down then mkRat signed (radix (fraction.length + exponent))
      else mkRat (signed * radix exponent) (radix fraction.length), rest)

/-- Assignment to a property: a repeated key keeps its place. -/
def setMember (key : String) (value : Json) : List (String × Json) → List (String × Json)
  | [] => [(key, value)]
  | (k, v) :: rest => if k = key then (k, value) :: rest else (k, v) :: setMember key value rest

def readWord (word : List Char) (value : Json) (text : List Char) : Option (Json × List Char) :=
  if word.isPrefixOf text then some (value, text.drop word.length) else none

mutual

/-- A value. Every call but the first has a character less to read, so the length
of the text is fuel enough. -/
def readValue : Nat → List Char → Option (Json × List Char)
  | 0, _ => none
  | fuel + 1, text =>
    match skipSpace text with
    | [] => none
    | c :: rest =>
      if c = '"' then do
        let (value, left) ← readString (c :: rest)
        some (.str value, left)
      else if c = '\x7b' then
        match skipSpace rest with
        | d :: left => if d = '\x7d' then some (.obj [], left) else readMembers fuel rest []
        | [] => none
      else if c = '[' then
        match skipSpace rest with
        | d :: left => if d = ']' then some (.arr [], left) else readItems fuel rest []
        | [] => none
      else if c = 'n' then readWord "null".toList .null (c :: rest)
      else if c = 't' then readWord "true".toList (.bool true) (c :: rest)
      else if c = 'f' then readWord "false".toList (.bool false) (c :: rest)
      else do
        let (value, left) ← readNumber (c :: rest)
        some (.num value, left)

def readItems : Nat → List Char → List Json → Option (Json × List Char)
  | 0, _, _ => none
  | fuel + 1, text, items => do
    let (value, left) ← readValue fuel text
    match skipSpace left with
    | [] => none
    | c :: rest =>
      if c = ',' then readItems fuel rest (items ++ [value])
      else if c = ']' then some (.arr (items ++ [value]), rest)
      else none

def readMembers : Nat → List Char → List (String × Json) → Option (Json × List Char)
  | 0, _, _ => none
  | fuel + 1, text, members => do
    let (key, left) ← readString (skipSpace text)
    match skipSpace left with
    | [] => none
    | colon :: rest =>
      if colon = ':' then do
        let (value, left) ← readValue fuel rest
        match skipSpace left with
        | [] => none
        | c :: rest =>
          if c = ',' then readMembers fuel rest (setMember key value members)
          else if c = '\x7d' then some (.obj (setMember key value members), rest)
          else none
      else none

end

/-- `JSON.parse`, a thrown `SyntaxError` being `none`. -/
def parse (text : String) : Option Json := do
  let (value, left) ← readValue (text.toList.length + 1) text.toList
  if (skipSpace left).isEmpty then some value else none

theorem hexUnit_hexChar : ∀ n < 32,
    hexUnit '0' '0' (hexChar (n / 16)) (hexChar (n % 16)) = some n := by
  decide

/-- One piece for each character. -/
def pieceOf (c : Char) : Char ⊕ Nat :=
  if c = '"' ∨ c = '\\' ∨ 32 ≤ c.toNat ∨ c.toNat ∈ [8, 9, 10, 12, 13] then .inl c
  else .inr c.toNat

theorem joinPieces_pieceOf (c : Char) (pieces : List (Char ⊕ Nat)) :
    joinPieces none (pieceOf c :: pieces) = c :: joinPieces none pieces := by
  rw [pieceOf]
  split
  · rfl
  · next control =>
    simp only [not_or, Nat.not_le] at control
    have low : ¬ (0xDC00 ≤ c.toNat ∧ c.toNat < 0xE000) := by omega
    have high : ¬ (0xD800 ≤ c.toNat ∧ c.toNat < 0xDC00) := by omega
    rw [joinPieces, if_neg low, if_neg high, Char.ofNat_toNat]
    rfl

section Pieces

variable {rest left : List Char} {pieces : List (Char ⊕ Nat)}

theorem readPieces_plain {c : Char} (quote : c ≠ '"') (backslash : c ≠ '\\')
    (printable : ¬ c.toNat < 32) (later : readPieces rest = some (pieces, left)) :
    readPieces (c :: rest) = some (.inl c :: pieces, left) := by
  rw [readPieces.eq_def]
  simp [quote, backslash, printable, later]

theorem readPieces_escaped {e char : Char} (he : e ≠ 'u') (means : escapedChar e = some char)
    (later : readPieces rest = some (pieces, left)) :
    readPieces ('\\' :: e :: rest) = some (.inl char :: pieces, left) := by
  rw [readPieces.eq_def]
  simp [he, means, later]

theorem readPieces_unit {w x y z : Char} {codeUnit : Nat} (means : hexUnit w x y z = some codeUnit)
    (later : readPieces rest = some (pieces, left)) :
    readPieces ('\\' :: 'u' :: w :: x :: y :: z :: rest) =
      some (.inr codeUnit :: pieces, left) := by
  rw [readPieces.eq_def]
  simp [means, later]

theorem eq_ofNat_of_toNat {c : Char} {n : Nat} (h : c.toNat = n) : c = Char.ofNat n := by
  rw [← h, Char.ofNat_toNat]

theorem readPieces_escapeChar (c : Char) (later : readPieces rest = some (pieces, left)) :
    readPieces (escapeChar c ++ rest) = some (pieceOf c :: pieces, left) := by
  by_cases special : c = '"' ∨ c = '\\' ∨ c.toNat ∈ [8, 9, 10, 12, 13]
  · simp only [List.mem_cons, List.not_mem_nil, or_false] at special
    rcases special with rfl | rfl | h | h | h | h | h
    · exact readPieces_escaped (by decide) rfl later
    · exact readPieces_escaped (by decide) rfl later
    -- \b, \t, \n, \f and \r
    all_goals
      obtain rfl := eq_ofNat_of_toNat h
      exact readPieces_escaped (by decide) rfl later
  · have letters := special
    simp only [List.mem_cons, List.not_mem_nil, or_false, not_or] at letters
    obtain ⟨quote, backslash, hb, ht, hn, hf, hr⟩ := letters
    by_cases control : c.toNat < 32
    · have piece : pieceOf c = .inr c.toNat := by
        rw [pieceOf, if_neg]
        rintro (h | h | h | h)
        · exact quote h
        · exact backslash h
        · omega
        · exact special (.inr (.inr h))
      rw [escapeChar, if_neg quote, if_neg backslash, if_neg hb, if_neg ht, if_neg hn, if_neg hf,
        if_neg hr, if_pos control, piece]
      exact readPieces_unit (hexUnit_hexChar _ control) later
    · have piece : pieceOf c = .inl c := by
        rw [pieceOf, if_pos (.inr (.inr (.inl (Nat.not_lt.mp control))))]
      rw [escapeChar, if_neg quote, if_neg backslash, if_neg hb, if_neg ht, if_neg hn, if_neg hf,
        if_neg hr, if_neg control, piece]
      exact readPieces_plain quote backslash control later

end Pieces

theorem readPieces_flatMap (text rest : List Char) :
    readPieces (text.flatMap escapeChar ++ '"' :: rest) = some (text.map pieceOf, rest) := by
  induction text with
  | nil => simp [readPieces.eq_def]
  | cons c text ih =>
    rw [List.flatMap_cons, List.append_assoc]
    exact readPieces_escapeChar c ih

theorem joinPieces_map_pieceOf (text : List Char) :
    joinPieces none (text.map pieceOf) = text := by
  induction text with
  | nil => rfl
  | cons c text ih => rw [List.map_cons, joinPieces_pieceOf, ih]

theorem readString_quoteChars (text : String) (rest : List Char) :
    readString (quoteChars text.toList ++ rest) = some (text, rest) := by
  have pieces := readPieces_flatMap text.toList rest
  rw [quoteChars, List.cons_append, readString, if_pos rfl, List.append_assoc,
    List.singleton_append, pieces]
  simp [joinPieces_map_pieceOf]

theorem skipSpace_cons {c : Char} (h : isSpace c = false) (rest : List Char) :
    skipSpace (c :: rest) = c :: rest := by
  simp [skipSpace, h]

theorem readValue_quoteChars (fuel : Nat) (text : String) (rest : List Char) :
    readValue (fuel + 1) (quoteChars text.toList ++ rest) = some (.str text, rest) := by
  have read := readString_quoteChars text rest
  rw [quoteChars, List.cons_append] at read ⊢
  rw [readValue, skipSpace_cons rfl]
  simp only [if_true, read, Option.bind_eq_bind, Option.bind_some]

/-- The members that reading `written` after `members` gives. -/
def addMembers (members : List (String × Json)) (written : List (String × String)) :
    List (String × Json) :=
  written.foldl (fun members m => setMember m.1 (.str m.2) members) members

/-- One member, up to the separator behind it. -/
theorem readMembers_member (member : String × String) (fuel : Nat)
    (members : List (String × Json)) {c : Char} (space : isSpace c = false) (rest : List Char) :
    readMembers (fuel + 2) (memberChars member ++ c :: rest) members =
      if c = ',' then readMembers (fuel + 1) rest (setMember member.1 (.str member.2) members)
      else if c = '\x7d' then some (.obj (setMember member.1 (.str member.2) members), rest)
      else none := by
  obtain ⟨key, value⟩ := member
  have opening : skipSpace (memberChars (key, value) ++ c :: rest) =
      memberChars (key, value) ++ c :: rest := skipSpace_cons rfl _
  have readKey := readString_quoteChars key (':' :: (quoteChars value.toList ++ c :: rest))
  have readIt := readValue_quoteChars fuel value (c :: rest)
  rw [readMembers, opening, memberChars, List.append_assoc, List.cons_append, readKey]
  simp only [Option.bind_eq_bind, Option.bind_some, skipSpace_cons (show isSpace ':' = false from rfl),
    if_true, readIt, skipSpace_cons space]

theorem readMembers_memberChars (member : String × String) (rest : List (String × String))
    (fuel : Nat) (members : List (String × Json)) (enough : rest.length + 2 ≤ fuel) :
    readMembers fuel (memberChars member ++ memberListChars rest) members =
      some (.obj (addMembers members (member :: rest)), []) := by
  induction rest generalizing member fuel members with
  | nil =>
    obtain ⟨n, rfl⟩ : ∃ n, fuel = n + 2 := ⟨fuel - 2, by simp at enough; omega⟩
    rw [memberListChars, readMembers_member member n members rfl]
    simp [addMembers]
  | cons next rest ih =>
    rw [List.length_cons] at enough
    obtain ⟨n, rfl⟩ : ∃ n, fuel = n + 2 := ⟨fuel - 2, by omega⟩
    rw [memberListChars, readMembers_member member n members rfl, if_pos rfl,
      ih next (n + 1) _ (by omega)]
    rfl

theorem memberListChars_length (rest : List (String × String)) :
    rest.length < (memberListChars rest).length := by
  induction rest with
  | nil => decide
  | cons member rest ih =>
    simp only [memberListChars, List.length_cons, List.length_append]
    omega

/-- What is written is read back, member by member. -/
theorem parse_stringify (member : String × String) (rest : List (String × String)) :
    parse (stringify (member :: rest)) = some (.obj (addMembers [] (member :: rest))) := by
  have length := memberListChars_length rest
  obtain ⟨left, opening⟩ : ∃ left, memberChars member ++ memberListChars rest = '"' :: left :=
    ⟨_, rfl⟩
  have enough : rest.length + 2 ≤ ('\x7b' :: (memberChars member ++ memberListChars rest)).length := by
    rw [List.length_cons, List.length_append]
    have : 0 < (memberChars member).length := by
      rw [memberChars, List.length_append, List.length_cons]
      omega
    omega
  have read := readMembers_memberChars member rest _ [] enough
  rw [parse, stringify, String.toList_ofList, readValue, skipSpace_cons rfl]
  dsimp only
  rw [if_neg (by decide), if_pos rfl, opening, skipSpace_cons rfl]
  dsimp only
  rw [if_neg (by decide), ← opening, read]
  rfl

end JsonTexts
