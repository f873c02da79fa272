import Mathlib.Data.List.Basic
import SecReviewBot.TextPieces

/-!
# Paths and patterns of Python

Strings by their code points, the paths of `pathlib` on POSIX, and the patterns of
`fnmatch`. The bytes of a file name that are not UTF-8 stand in a string as lone
surrogates, which are code points too.
-/

namespace PythonPaths

open TextCodecs TextPieces

abbrev Text := List Nat

def text (value : String) : Text := value.toList.map Char.toNat

theorem text_injective {first second : String} (same : text first = text second) :
    first = second :=
  String.toList_injective (List.map_injective_iff.mpr (fun _ _ => Char.toNat_inj.mp) same)

/-- `str.isspace`; no surrogate is a space. -/
def isSpace (c : Nat) : Bool := pythonSpace (Char.ofNat c)

def strip (value : Text) : Text :=
  ((value.dropWhile isSpace).reverse.dropWhile isSpace).reverse

/-- `value.replace(old, new)` of two characters. -/
def replace (old new : Nat) (value : Text) : Text := value.map fun c => if c = old then new else c

/-- `str.lower`, which changes no other letter into one of the Latin alphabet that a file
name extension could be compared with. -/
def lower (value : Text) : Text := value.map fun c => if 65 ≤ c ∧ c ≤ 90 then c + 32 else c

structure PurePath where
  root : Text
  parts : List Text
  deriving DecidableEq

/-- Two slashes at the start are kept, any other number counts as one. -/
def pathRoot : Text → Text
  | 47 :: 47 :: 47 :: _ => [47]
  | 47 :: 47 :: _ => [47, 47]
  | 47 :: _ => [47]
  | _ => []

def isPart (part : Text) : Bool := part ≠ [] && part ≠ [46]

/-- `Path(value)`. -/
def path (value : Text) : PurePath where
  root := pathRoot value
  parts := (value.splitOn 47).filter isPart

def joined (parts : List Text) : Text := [47].intercalate parts

def PurePath.asPosix (p : PurePath) : Text :=
  if p.root = [] ∧ p.parts = [] then [46] else p.root ++ joined p.parts

def PurePath.name (p : PurePath) : Text := p.parts.getLast?.getD []

/-- From the last dot on, the dots at the start of the name aside. -/
def PurePath.suffix (p : PurePath) : Text :=
  let stem := p.name.dropWhile (· = 46)
  if 46 ∈ stem then 46 :: (stem.reverse.takeWhile (· ≠ 46)).reverse else []

def PurePath.parent (p : PurePath) : PurePath := { p with parts := p.parts.dropLast }

/-- The parts of a path hold no slash. -/
structure Parts (parts : List Text) : Prop where
  proper : ∀ part ∈ parts, isPart part = true
  single : ∀ part ∈ parts, 47 ∉ part

theorem path_parts (value : Text) : Parts (path value).parts where
  proper := fun _ mem => (List.mem_filter.mp mem).2
  single := fun part mem => not_mem_splitOn 47 value part (List.mem_filter.mp mem).1

section Round

variable {parts : List Text} (own : Parts parts)
include own

theorem filter_splitOn_joined : ((joined parts).splitOn 47).filter isPart = parts := by
  cases parts with
  | nil => decide
  | cons first rest =>
    rw [joined, List.splitOn_intercalate _ own.single (by simp)]
    exact List.filter_eq_self.mpr own.proper

/-- Parts do not start with a slash. -/
theorem head_joined : ∀ c ∈ (joined parts).head?, c ≠ 47 := by
  intro c head slash
  cases parts with
  | nil => cases head
  | cons first rest =>
    have proper := own.proper first List.mem_cons_self
    cases first with
    | nil => cases proper
    | cons d name =>
      have start : (joined ((d :: name) :: rest)).head? = some d := by
        cases rest <;> simp [joined, List.intercalate_cons_cons]
      rw [start] at head
      cases head
      exact own.single _ List.mem_cons_self (slash ▸ List.mem_cons_self)

theorem pathRoot_joined (root : Text) (slashes : root = [] ∨ root = [47] ∨ root = [47, 47]) :
    pathRoot (root ++ joined parts) = root := by
  have head := head_joined own
  rcases slashes with rfl | rfl | rfl <;> cases start : joined parts with
  | nil => rfl
  | cons c rest =>
    have other := head c (by simp [start])
    simp [pathRoot, other]

end Round

theorem pathRoot_slashes (value : Text) :
    pathRoot value = [] ∨ pathRoot value = [47] ∨ pathRoot value = [47, 47] := by
  unfold pathRoot
  split <;> simp

/-- A path is read back from its text. -/
theorem path_of_parts {root : Text} {parts : List Text} (own : Parts parts)
    (slashes : root = [] ∨ root = [47] ∨ root = [47, 47]) :
    path (PurePath.asPosix { root, parts }) = { root, parts } := by
  rw [PurePath.asPosix]
  split
  · next here =>
    obtain ⟨rfl, rfl⟩ := here
    decide
  · rw [path, pathRoot_joined own root slashes, PurePath.mk.injEq]
    refine ⟨rfl, ?_⟩
    rcases slashes with rfl | rfl | rfl
    · exact filter_splitOn_joined own
    · have cut : ([47] ++ joined parts).splitOn 47 = [] :: (joined parts).splitOn 47 :=
        List.splitOn_append_cons_self_of_not_mem List.not_mem_nil _
      rw [cut]
      exact filter_splitOn_joined own
    · have cut : ([47, 47] ++ joined parts).splitOn 47 = [] :: [] :: (joined parts).splitOn 47 := by
        rw [show [47, 47] ++ joined parts = [] ++ 47 :: ([] ++ 47 :: joined parts) from rfl,
          List.splitOn_append_cons_self_of_not_mem (by simp),
          List.splitOn_append_cons_self_of_not_mem (by simp)]
      rw [cut]
      exact filter_splitOn_joined own

theorem path_asPosix (value : Text) : path (path value).asPosix = path value :=
  path_of_parts (path_parts value) (pathRoot_slashes value)

/-- Relative paths with the same text are the same. -/
theorem parts_injective {first second : List Text} (firstOwn : Parts first)
    (secondOwn : Parts second)
    (same : PurePath.asPosix { root := [], parts := first } =
      PurePath.asPosix { root := [], parts := second }) : first = second := by
  have firstPath := path_of_parts firstOwn (.inl rfl)
  rw [same, path_of_parts secondOwn (.inl rfl)] at firstPath
  exact (congrArg PurePath.parts firstPath).symm

inductive Token where
  | star
  | any
  | set (negated : Bool) (ranges : List (Nat × Nat))
  | char (c : Nat)

/-- The members between brackets; a range that runs backwards has none. -/
def ranges : Text → List (Nat × Nat)
  | low :: 45 :: high :: rest => (low, high) :: ranges rest
  | c :: rest => (c, c) :: ranges rest
  | [] => []

/-- What follows an opening bracket, when it is closed: a closing bracket at the start is a
member. -/
def splitSet (after : Text) : Option (Token × Text) :=
  let negated := after.head? = some 33
  let body := if negated then after.drop 1 else after
  let first := (body.take 1).filter (· = 93)
  let members := first ++ (body.drop first.length).takeWhile (· ≠ 93)
  match body.drop members.length with
  | [] => none
  | _ :: rest => some (.set negated (ranges members), rest)

def tokens : Nat → Text → List Token
  | 0, _ => []
  | _, [] => []
  | fuel + 1, c :: rest =>
    if c = 42 then .star :: tokens fuel rest
    else if c = 63 then .any :: tokens fuel rest
    else if c = 91 then
      match splitSet rest with
      | none => .char 91 :: tokens fuel rest
      | some (set, later) => set :: tokens fuel later
    else .char c :: tokens fuel rest

def Token.accepts : Token → Nat → Bool
  | .star, _ => false
  | .any, _ => true
  | .set negated ranges, c => ranges.any (fun range => range.1 ≤ c && c ≤ range.2) != negated
  | .char own, c => own == c

def matchesTokens : List Token → Text → Bool
  | [], value => value.isEmpty
  | .star :: rest, value => value.tails.any (matchesTokens rest)
  | token :: rest, value =>
    match value with
    | [] => false
    | c :: later => token.accepts c && matchesTokens rest later

/-- `fnmatch.fnmatch(value, pattern)` on POSIX. -/
def fnmatch (value pattern : Text) : Bool := matchesTokens (tokens pattern.length pattern) value

example : fnmatch (text "src/app.min.js") (text "**/*.min.js") = true := by decide

end PythonPaths
