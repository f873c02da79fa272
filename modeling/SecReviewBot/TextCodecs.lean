import Mathlib.Data.List.Basic
import Mathlib.Data.Nat.Basic

/-!
# Text encodings

UTF-8, base64url and decimal numerals of a fixed width, as the standard libraries
of the services read and write them. The readers are as lenient as the real ones:
malformed UTF-8 becomes replacement characters and characters outside the base64
alphabet are skipped. Octets are natural numbers.
-/

namespace TextCodecs

/-- Decided along the list, not over all characters. -/
instance (priority := high) decidableForallMem (p : Char → Prop) [DecidablePred p]
    (text : List Char) : Decidable (∀ c ∈ text, p c) := List.decidableBAll p text

instance (priority := high) decidableExistsMem (p : Char → Prop) [DecidablePred p]
    (text : List Char) : Decidable (∃ c ∈ text, p c) := List.decidableBEx p text

def utf8EncodeChar (c : Char) : List Nat :=
  let n := c.toNat
  if n < 0x80 then [n]
  else if n < 0x800 then [0xC0 + n / 64, 0x80 + n % 64]
  else if n < 0x10000 then [0xE0 + n / 4096, 0x80 + n / 64 % 64, 0x80 + n % 64]
  else [0xF0 + n / 262144, 0x80 + n / 4096 % 64, 0x80 + n / 64 % 64, 0x80 + n % 64]

def utf8Encode (text : List Char) : List Nat := text.flatMap utf8EncodeChar

/-- Between two octets: no character begun, or one with `needed` octets to come,
the next of them between `lower` and `upper`. -/
inductive Utf8State where
  | idle
  | inside (codePoint needed lower upper : Nat)

def replacementCharacter : Char := Char.ofNat 0xFFFD

/-- The first octet of a character. -/
def utf8Begin (octet : Nat) : List Char × Utf8State :=
  if octet < 0x80 then ([Char.ofNat octet], .idle)
  else if 0xC2 ≤ octet ∧ octet ≤ 0xDF then ([], .inside (octet - 0xC0) 1 0x80 0xBF)
  else if 0xE0 ≤ octet ∧ octet ≤ 0xEF then
    ([], .inside (octet - 0xE0) 2 (if octet = 0xE0 then 0xA0 else 0x80)
      (if octet = 0xED then 0x9F else 0xBF))
  else if 0xF0 ≤ octet ∧ octet ≤ 0xF4 then
    ([], .inside (octet - 0xF0) 3 (if octet = 0xF0 then 0x90 else 0x80)
      (if octet = 0xF4 then 0x8F else 0xBF))
  else ([replacementCharacter], .idle)

def utf8Step : Utf8State → Nat → List Char × Utf8State
  | .idle, octet => utf8Begin octet
  | .inside codePoint needed lower upper, octet =>
    if lower ≤ octet ∧ octet ≤ upper then
      let extended := codePoint * 64 + (octet - 0x80)
      if needed = 1 then ([Char.ofNat extended], .idle)
      else ([], .inside extended (needed - 1) 0x80 0xBF)
    else
      -- the octet is looked at again, as the start of a character
      (replacementCharacter :: (utf8Begin octet).1, (utf8Begin octet).2)

def utf8DecodeFrom : Utf8State → List Nat → List Char
  | .idle, [] => []
  | .inside _ _ _ _, [] => [replacementCharacter]
  | state, octet :: rest => (utf8Step state octet).1 ++ utf8DecodeFrom (utf8Step state octet).2 rest

/-- `Buffer.toString('utf8')`. -/
def utf8Decode (octets : List Nat) : List Char := utf8DecodeFrom .idle octets

theorem utf8DecodeFrom_cons (state : Utf8State) (octet : Nat) (rest : List Nat) :
    utf8DecodeFrom state (octet :: rest) =
      (utf8Step state octet).1 ++ utf8DecodeFrom (utf8Step state octet).2 rest := by
  cases state <;> rfl

theorem char_valid (c : Char) :
    c.toNat < 0xD800 ∨ 0xDFFF < c.toNat ∧ c.toNat < 0x110000 := c.valid

theorem utf8DecodeFrom_last {codePoint lower upper octet : Nat} (low : lower ≤ octet)
    (high : octet ≤ upper) (rest : List Nat) :
    utf8DecodeFrom (.inside codePoint 1 lower upper) (octet :: rest) =
      Char.ofNat (codePoint * 64 + (octet - 0x80)) :: utf8DecodeFrom .idle rest := by
  simp [utf8DecodeFrom_cons, utf8Step, low, high]

theorem utf8DecodeFrom_more {codePoint needed lower upper octet : Nat} (low : lower ≤ octet)
    (high : octet ≤ upper) (rest : List Nat) :
    utf8DecodeFrom (.inside codePoint (needed + 2) lower upper) (octet :: rest) =
      utf8DecodeFrom (.inside (codePoint * 64 + (octet - 0x80)) (needed + 1) 0x80 0xBF) rest := by
  simp [utf8DecodeFrom_cons, utf8Step, low, high]

theorem utf8DecodeFrom_encodeChar (c : Char) (rest : List Nat) :
    utf8DecodeFrom .idle (utf8EncodeChar c ++ rest) = c :: utf8DecodeFrom .idle rest := by
  have valid := char_valid c
  have back : Char.ofNat c.toNat = c := Char.ofNat_toNat c
  simp only [utf8EncodeChar]
  generalize c.toNat = n at *
  subst back
  split
  · next one => simp [utf8DecodeFrom_cons, utf8Step, utf8Begin, one]
  · split
    · next ge two =>
      have lead : utf8Begin (0xC0 + n / 64) = ([], .inside (n / 64) 1 0x80 0xBF) := by
        have h1 : ¬ 0xC0 + n / 64 < 0x80 := by omega
        have h2 : 0xC2 ≤ 0xC0 + n / 64 ∧ 0xC0 + n / 64 ≤ 0xDF := by omega
        simp [utf8Begin, h1, h2]
      have value : n / 64 * 64 + (0x80 + n % 64 - 0x80) = n := by omega
      simp only [List.cons_append, List.nil_append]
      rw [utf8DecodeFrom_cons, utf8Step, lead, List.nil_append,
        utf8DecodeFrom_last (by omega) (by omega), value]
    · split
      · next ge three =>
        have lead : utf8Begin (0xE0 + n / 4096) = ([], .inside (n / 4096) 2
            (if n / 4096 = 0 then 0xA0 else 0x80) (if n / 4096 = 0xD then 0x9F else 0xBF)) := by
          have h1 : ¬ 0xE0 + n / 4096 < 0x80 := by omega
          have h2 : ¬ (0xC2 ≤ 0xE0 + n / 4096 ∧ 0xE0 + n / 4096 ≤ 0xDF) := by omega
          have h3 : 0xE0 ≤ 0xE0 + n / 4096 ∧ 0xE0 + n / 4096 ≤ 0xEF := by omega
          have low : 0xE0 + n / 4096 = 0xE0 ↔ n / 4096 = 0 := by omega
          have high : 0xE0 + n / 4096 = 0xED ↔ n / 4096 = 0xD := by omega
          simp only [utf8Begin, h1, h2, h3, low, high, if_false, Nat.add_sub_cancel_left]
          simp
        have low : (if n / 4096 = 0 then 0xA0 else 0x80) ≤ 0x80 + n / 64 % 64 := by
          split <;> omega
        have high : 0x80 + n / 64 % 64 ≤ if n / 4096 = 0xD then 0x9F else 0xBF := by
          split <;> omega
        have value : (n / 4096 * 64 + (0x80 + n / 64 % 64 - 0x80)) * 64 + (0x80 + n % 64 - 0x80) =
            n := by omega
        simp only [List.cons_append, List.nil_append]
        rw [utf8DecodeFrom_cons, utf8Step, lead, List.nil_append, utf8DecodeFrom_more low high,
          utf8DecodeFrom_last (by omega) (by omega), value]
      · next ge =>
        have lead : utf8Begin (0xF0 + n / 262144) = ([], .inside (n / 262144) 3
            (if n / 262144 = 0 then 0x90 else 0x80) (if n / 262144 = 4 then 0x8F else 0xBF)) := by
          have h1 : ¬ 0xF0 + n / 262144 < 0x80 := by omega
          have h2 : ¬ (0xC2 ≤ 0xF0 + n / 262144 ∧ 0xF0 + n / 262144 ≤ 0xDF) := by omega
          have h3 : ¬ (0xE0 ≤ 0xF0 + n / 262144 ∧ 0xF0 + n / 262144 ≤ 0xEF) := by omega
          have h4 : 0xF0 ≤ 0xF0 + n / 262144 ∧ 0xF0 + n / 262144 ≤ 0xF4 := by omega
          have low : 0xF0 + n / 262144 = 0xF0 ↔ n / 262144 = 0 := by omega
          have high : 0xF0 + n / 262144 = 0xF4 ↔ n / 262144 = 4 := by omega
          simp only [utf8Begin, h1, h2, h3, h4, low, high, if_false,
            Nat.add_sub_cancel_left]
          simp
        have low : (if n / 262144 = 0 then 0x90 else 0x80) ≤ 0x80 + n / 4096 % 64 := by
          split <;> omega
        have high : 0x80 + n / 4096 % 64 ≤ if n / 262144 = 4 then 0x8F else 0xBF := by
          split <;> omega
        have value : ((n / 262144 * 64 + (0x80 + n / 4096 % 64 - 0x80)) * 64 +
            (0x80 + n / 64 % 64 - 0x80)) * 64 + (0x80 + n % 64 - 0x80) = n := by omega
        simp only [List.cons_append, List.nil_append]
        rw [utf8DecodeFrom_cons, utf8Step, lead, List.nil_append, utf8DecodeFrom_more low high,
          utf8DecodeFrom_more (by omega) (by omega), utf8DecodeFrom_last (by omega) (by omega),
          value]

theorem utf8Decode_encode (text : List Char) : utf8Decode (utf8Encode text) = text := by
  induction text with
  | nil => rfl
  | cons c rest ih =>
    rw [utf8Encode, List.flatMap_cons, utf8Decode, utf8DecodeFrom_encodeChar]
    exact congrArg (c :: ·) ih

theorem utf8Encode_octets (text : List Char) : ∀ octet ∈ utf8Encode text, octet < 256 := by
  intro octet mem
  obtain ⟨c, _, mem⟩ := List.mem_flatMap.mp mem
  have valid := char_valid c
  simp only [utf8EncodeChar] at mem
  split at mem
  · simp at mem
    omega
  · split at mem
    · simp at mem
      omega
    · split at mem <;>
      · simp at mem
        omega

def base64Char (sextet : Nat) : Char :=
  if sextet < 26 then Char.ofNat (65 + sextet)
  else if sextet < 52 then Char.ofNat (97 + (sextet - 26))
  else if sextet < 62 then Char.ofNat (48 + (sextet - 52))
  else if sextet = 62 then '-'
  else '_'

/-- Both alphabets are read. -/
def base64Value (c : Char) : Option Nat :=
  if 65 ≤ c.toNat ∧ c.toNat ≤ 90 then some (c.toNat - 65)
  else if 97 ≤ c.toNat ∧ c.toNat ≤ 122 then some (c.toNat - 97 + 26)
  else if 48 ≤ c.toNat ∧ c.toNat ≤ 57 then some (c.toNat - 48 + 52)
  else if c = '-' ∨ c = '+' then some 62
  else if c = '_' ∨ c = '/' then some 63
  else none

def toSextets : List Nat → List Nat
  | a :: b :: c :: rest =>
    a / 4 :: (a % 4 * 16 + b / 16) :: (b % 16 * 4 + c / 64) :: c % 64 :: toSextets rest
  | [a, b] => [a / 4, a % 4 * 16 + b / 16, b % 16 * 4]
  | [a] => [a / 4, a % 4 * 16]
  | [] => []

/-- Bits that do not fill an octet are dropped. -/
def ofSextets : List Nat → List Nat
  | w :: x :: y :: z :: rest =>
    (w * 4 + x / 16) :: (x % 16 * 16 + y / 4) :: (y % 4 * 64 + z) :: ofSextets rest
  | [w, x, y] => [w * 4 + x / 16, x % 16 * 16 + y / 4]
  | [w, x] => [w * 4 + x / 16]
  | [_] => []
  | [] => []

theorem base64Value_char : ∀ sextet < 64, base64Value (base64Char sextet) = some sextet := by
  decide

theorem toSextets_lt {octets : List Nat} (bounded : ∀ octet ∈ octets, octet < 256) :
    ∀ sextet ∈ toSextets octets, sextet < 64 := by
  fun_induction toSextets octets with
  | case1 a b c rest ih =>
    have later := ih fun octet mem => bounded octet (by simp [mem])
    have ha := bounded a (by simp)
    have hb := bounded b (by simp)
    have hc := bounded c (by simp)
    intro sextet mem
    simp only [List.mem_cons] at mem
    rcases mem with rfl | rfl | rfl | rfl | mem
    · omega
    · omega
    · omega
    · omega
    · exact later sextet mem
  | case2 a b =>
    have ha := bounded a (by simp)
    have hb := bounded b (by simp)
    intro sextet mem
    simp only [List.mem_cons, List.not_mem_nil, or_false] at mem
    omega
  | case3 a =>
    have ha := bounded a (by simp)
    intro sextet mem
    simp only [List.mem_cons, List.not_mem_nil, or_false] at mem
    omega
  | case4 => simp

theorem ofSextets_toSextets {octets : List Nat} (bounded : ∀ octet ∈ octets, octet < 256) :
    ofSextets (toSextets octets) = octets := by
  fun_induction toSextets octets with
  | case1 a b c rest ih =>
    have ha := bounded a (by simp)
    have hb := bounded b (by simp)
    have hc := bounded c (by simp)
    rw [ofSextets, ih fun octet mem => bounded octet (by simp [mem])]
    have h1 : a / 4 * 4 + (a % 4 * 16 + b / 16) / 16 = a := by omega
    have h2 : (a % 4 * 16 + b / 16) % 16 * 16 + (b % 16 * 4 + c / 64) / 4 = b := by omega
    have h3 : (b % 16 * 4 + c / 64) % 4 * 64 + c % 64 = c := by omega
    rw [h1, h2, h3]
  | case2 a b =>
    have hb := bounded b (by simp)
    have h1 : a / 4 * 4 + (a % 4 * 16 + b / 16) / 16 = a := by omega
    have h2 : (a % 4 * 16 + b / 16) % 16 * 16 + b % 16 * 4 / 4 = b := by omega
    rw [ofSextets, h1, h2]
  | case3 a =>
    have h1 : a / 4 * 4 + a % 4 * 16 / 16 = a := by omega
    rw [ofSextets, h1]
  | case4 => rfl

/-- `Buffer.from(text).toString('base64url')`. -/
def toBase64Url (text : String) : String :=
  String.ofList ((toSextets (utf8Encode text.toList)).map base64Char)

/-- `Buffer.from(value, 'base64url').toString('utf8')`. -/
def ofBase64Url (value : String) : String :=
  String.ofList (utf8Decode (ofSextets (value.toList.filterMap base64Value)))

theorem filterMap_base64Char {sextets : List Nat} (bounded : ∀ sextet ∈ sextets, sextet < 64) :
    (sextets.map base64Char).filterMap base64Value = sextets := by
  induction sextets with
  | nil => rfl
  | cons first rest ih =>
    rw [List.map_cons, List.filterMap_cons, base64Value_char first (bounded first (by simp))]
    exact congrArg (first :: ·) (ih fun sextet mem => bounded sextet (by simp [mem]))

@[simp] theorem ofBase64Url_toBase64Url (text : String) : ofBase64Url (toBase64Url text) = text := by
  have octets := utf8Encode_octets text.toList
  rw [ofBase64Url, toBase64Url, String.toList_ofList, filterMap_base64Char (toSextets_lt octets),
    ofSextets_toSextets octets, utf8Decode_encode, String.ofList_toList]

/-- Ten to the power `width`. -/
def radix : Nat → Nat
  | 0 => 1
  | width + 1 => 10 * radix width

def digitChar (digit : Nat) : Char := Char.ofNat (48 + digit)

def digitValue (c : Char) : Option Nat :=
  if 48 ≤ c.toNat ∧ c.toNat ≤ 57 then some (c.toNat - 48) else none

/-- The last `width` digits of `n`. -/
def digits : Nat → Nat → List Char
  | 0, _ => []
  | width + 1, n => digitChar (n / radix width % 10) :: digits width n

/-- Read exactly `width` digits. -/
def takeDigits : Nat → List Char → Option (Nat × List Char)
  | 0, rest => some (0, rest)
  | _ + 1, [] => none
  | width + 1, c :: rest => do
    let digit ← digitValue c
    let (n, rest) ← takeDigits width rest
    some (digit * radix width + n, rest)

theorem digitValue_char : ∀ digit < 10, digitValue (digitChar digit) = some digit := by
  decide

theorem takeDigits_digits (width n : Nat) (rest : List Char) :
    takeDigits width (digits width n ++ rest) = some (n % radix width, rest) := by
  induction width with
  | zero => simp [takeDigits, digits, radix, Nat.mod_one]
  | succ width ih =>
    have value : n / radix width % 10 * radix width + n % radix width = n % (10 * radix width) := by
      rw [Nat.mul_comm 10, Nat.mod_mul, Nat.mul_comm]
      omega
    rw [digits, List.cons_append, takeDigits, digitValue_char _ (Nat.mod_lt _ (by omega)), ih]
    simp [value, radix]

theorem takeDigits_digits_of_lt {width n : Nat} (fits : n < radix width) (rest : List Char) :
    takeDigits width (digits width n ++ rest) = some (n, rest) := by
  rw [takeDigits_digits, Nat.mod_eq_of_lt fits]

theorem takeDigits_length {width n : Nat} {text rest : List Char}
    (h : takeDigits width text = some (n, rest)) : text.length = width + rest.length := by
  induction width generalizing text n with
  | zero =>
    cases h
    omega
  | succ width ih =>
    cases text with
    | nil => cases h
    | cons c text =>
      simp only [takeDigits, Option.bind_eq_bind, Option.bind_eq_some_iff] at h
      obtain ⟨_, _, ⟨n, _⟩, read, eq⟩ := h
      cases eq
      have := ih read
      rw [List.length_cons]
      omega

@[simp] theorem digits_length (width n : Nat) : (digits width n).length = width := by
  induction width with
  | zero => rfl
  | succ width ih => simp [digits, ih]

/-- Every character of a numeral is a digit. -/
theorem digits_spec (width n : Nat) : ∀ c ∈ digits width n, (digitValue c).isSome = true := by
  induction width with
  | zero => simp [digits]
  | succ width ih =>
    intro c mem
    rcases List.mem_cons.mp mem with rfl | mem
    · rw [digitValue_char _ (Nat.mod_lt _ (by omega))]
      rfl
    · exact ih c mem

/-- Without the spaces at both ends. -/
def strip (space : Char → Bool) (text : String) : String :=
  String.ofList ((text.toList.dropWhile space).reverse.dropWhile space).reverse

/-- `String.prototype.trim`: WhiteSpace and LineTerminator of ECMAScript. -/
def ecmaSpace (c : Char) : Bool :=
  [0x9, 0xA, 0xB, 0xC, 0xD, 0x20, 0xA0, 0x1680, 0x2028, 0x2029, 0x202F, 0x205F, 0x3000,
    0xFEFF].contains c.toNat || (decide (0x2000 ≤ c.toNat) && decide (c.toNat ≤ 0x200A))

/-- `str.strip`: the whitespace of Python's `str.isspace`. -/
def pythonSpace (c : Char) : Bool :=
  [0x9, 0xA, 0xB, 0xC, 0xD, 0x1C, 0x1D, 0x1E, 0x1F, 0x20, 0x85, 0xA0, 0x1680, 0x2028, 0x2029,
    0x202F, 0x205F, 0x3000].contains c.toNat ||
      (decide (0x2000 ≤ c.toNat) && decide (c.toNat ≤ 0x200A))

theorem pythonSpace_of_visible {c : Char} (low : 0x21 ≤ c.toNat) (high : c.toNat ≤ 0x7E) :
    pythonSpace c = false := by
  have small : ¬ 0x2000 ≤ c.toNat := by omega
  simp only [pythonSpace, small, decide_false, Bool.false_and, Bool.or_false]
  simp only [List.contains_eq_mem, decide_eq_false_iff_not, List.mem_cons, List.not_mem_nil,
    or_false, not_or]
  omega

theorem dropWhile_of_none {p : Char → Bool} {text : List Char} (none : ∀ c ∈ text, p c = false) :
    text.dropWhile p = text := by
  cases text with
  | nil => rfl
  | cons c rest => simp [none c (by simp)]

theorem strip_of_no_space {space : Char → Bool} {text : String}
    (none : ∀ c ∈ text.toList, space c = false) : strip space text = text := by
  have back : ∀ c ∈ text.toList.reverse, space c = false := by
    intro c mem
    exact none c (List.mem_reverse.mp mem)
  rw [strip, dropWhile_of_none none, dropWhile_of_none back, List.reverse_reverse,
    String.ofList_toList]

theorem dropWhile_fixed {p : Char → Bool} {text : List Char} (first : ∀ c ∈ text.head?, p c = false) :
    text.dropWhile p = text := by
  cases text with
  | nil => rfl
  | cons c rest => simp [first c (by simp)]

theorem head_dropWhile {p : Char → Bool} {text : List Char} :
    ∀ c ∈ (text.dropWhile p).head?, p c = false := by
  induction text with
  | nil => simp
  | cons d rest ih =>
    rw [List.dropWhile_cons]
    split
    · exact ih
    · next kept =>
      intro c first
      cases first
      simpa using kept

/-- A trimmed text does not begin with a space. -/
theorem head_strip (space : Char → Bool) (text : String) :
    ∀ c ∈ (strip space text).toList.head?, space c = false := by
  rw [strip, String.toList_ofList]
  generalize shape : ((text.toList.dropWhile space).reverse.dropWhile space).reverse = trimmed
  -- the front of the trimmed text is the front of what is left after the first trim
  have start : trimmed <+: text.toList.dropWhile space := by
    rw [← List.reverse_suffix, ← shape, List.reverse_reverse]
    exact List.dropWhile_suffix _
  intro c first
  obtain ⟨rest, eq⟩ := start
  have fixed : ∀ c ∈ (text.toList.dropWhile space).head?, space c = false := head_dropWhile
  refine fixed c ?_
  cases trimmed with
  | nil => cases first
  | cons d trimmed =>
    rw [← eq]
    exact first

/-- What is trimmed has nothing left to trim. -/
theorem strip_strip (space : Char → Bool) (text : String) :
    strip space (strip space text) = strip space text := by
  have front : (strip space text).toList.dropWhile space = (strip space text).toList :=
    dropWhile_fixed (head_strip space text)
  have back : (strip space text).toList.reverse.dropWhile space =
      (strip space text).toList.reverse := by
    refine dropWhile_fixed ?_
    rw [strip, String.toList_ofList, List.reverse_reverse]
    exact head_dropWhile
  rw [strip, front, back, List.reverse_reverse, String.ofList_toList]

theorem mem_dropWhile_of_not {p : Char → Bool} {c : Char} {text : List Char} (mem : c ∈ text)
    (holds : p c = false) : c ∈ text.dropWhile p := by
  induction text with
  | nil => cases mem
  | cons d rest ih =>
    rw [List.dropWhile_cons]
    split
    · next dropped =>
      rcases List.mem_cons.mp mem with rfl | mem
      · rw [holds] at dropped
        cases dropped
      · exact ih mem
    · exact mem

/-- A text with something besides spaces is not trimmed to nothing. -/
theorem strip_ne_empty {space : Char → Bool} {text : String} {c : Char} (mem : c ∈ text.toList)
    (visible : space c = false) : strip space text ≠ "" := by
  have kept : c ∈ ((text.toList.dropWhile space).reverse.dropWhile space).reverse :=
    List.mem_reverse.mpr
      (mem_dropWhile_of_not (List.mem_reverse.mpr (mem_dropWhile_of_not mem visible)) visible)
  intro empty
  have chars := congrArg String.toList empty
  rw [strip, String.toList_ofList] at chars
  rw [chars] at kept
  cases kept

end TextCodecs
