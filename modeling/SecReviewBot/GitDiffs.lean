import SecReviewBot.TextPieces

/-!
# What `git diff` prints

The changes of a range of commits and the four forms in which Git prints them:
`--name-status -z`, `--numstat -z`, `--name-only -z` and the unified diff. The first
three name every path once, raw and closed by a NUL; the unified diff has one section
a path, but renders type changes as a deletion and a creation. Which type changes it splits
so is a parameter.
-/

namespace GitDiffs

open TextCodecs TextPieces

/-- A text on one line. -/
structure Line where
  text : String
  unbroken : '\n' ∉ text.toList

/-- A path as the `-z` forms print it: any text without a NUL. File names whose bytes are not
UTF-8 are left out, since the reader of the output decodes it to a text. -/
structure GitPath where
  text : String
  nonempty : text ≠ ""
  nulFree : '\x00' ∉ text.toList

inductive ExtendedKey where
  | oldMode | newMode | deletedFileMode | newFileMode | copyFrom | copyTo | renameFrom | renameTo
  | similarityIndex | dissimilarityIndex | index
  deriving DecidableEq

def ExtendedKey.text : ExtendedKey → String
  | .oldMode => "old mode "
  | .newMode => "new mode "
  | .deletedFileMode => "deleted file mode "
  | .newFileMode => "new file mode "
  | .copyFrom => "copy from "
  | .copyTo => "copy to "
  | .renameFrom => "rename from "
  | .renameTo => "rename to "
  | .similarityIndex => "similarity index "
  | .dissimilarityIndex => "dissimilarity index "
  | .index => "index "

inductive Marker where
  | context | added | removed | noNewline
  deriving DecidableEq

def Marker.text : Marker → String
  | .context => " "
  | .added => "+"
  | .removed => "-"
  | .noNewline => "\\"

structure HunkLine where
  marker : Marker
  content : Line

def HunkLine.text (line : HunkLine) : String := line.marker.text ++ line.content.text

structure Hunk where
  oldStart : Nat
  oldCount : Nat
  newStart : Nat
  newCount : Nat
  /-- What follows the second `@@`. -/
  heading : Line
  lines : List HunkLine

/-- A count of one is left out. -/
def countChars (count : Nat) : List Char := if count = 1 then [] else ',' :: numeral count

def Hunk.header (hunk : Hunk) : String :=
  "@@ -" ++ String.ofList (numeral hunk.oldStart ++ countChars hunk.oldCount) ++
    " +" ++ String.ofList (numeral hunk.newStart ++ countChars hunk.newCount) ++
      " @@" ++ hunk.heading.text

inductive Body where
  /-- A change of the mode or the name alone. -/
  | bare
  | placeholder (names : Line)
  | text (source target : Line) (hunks : List Hunk)

def Body.isPlaceholder : Body → Bool
  | .placeholder _ => true
  | _ => false

def Body.hunkList : Body → List Hunk
  | .text _ _ hunks => hunks
  | _ => []

def Body.lines : Body → List String
  | .bare => []
  | .placeholder names => ["Binary files " ++ names.text ++ " differ"]
  | .text source target hunks =>
    ("--- " ++ source.text) :: ("+++ " ++ target.text) ::
      hunks.flatMap fun hunk => hunk.header :: hunk.lines.map HunkLine.text

structure DiffSection where
  /-- The two names of the first line, quoted where Git quotes. -/
  names : Line
  extended : List (ExtendedKey × Line)
  body : Body

def DiffSection.firstLine (part : DiffSection) : String := "diff --git " ++ part.names.text

def extendedLine (header : ExtendedKey × Line) : String := header.1.text ++ header.2.text

def DiffSection.laterLines (part : DiffSection) : List String :=
  part.extended.map extendedLine ++ part.body.lines

def DiffSection.lines (part : DiffSection) : List String :=
  part.firstLine :: part.laterLines

theorem extendedLine_startsWith (header : ExtendedKey × Line) :
    startsWith (extendedLine header) "diff --git " = false ∧
      startsWith (extendedLine header) "@@ " = false := by
  obtain ⟨key, value⟩ := header
  cases key <;>
    simp [extendedLine, ExtendedKey.text, startsWith, List.isPrefixOf_cons_cons]

theorem HunkLine.startsWith_text (line : HunkLine) :
    startsWith line.text "diff --git " = false ∧ startsWith line.text "@@ " = false := by
  cases h : line.marker <;>
    simp [HunkLine.text, h, Marker.text, startsWith, List.isPrefixOf_cons_cons]

theorem Hunk.startsWith_header (hunk : Hunk) :
    startsWith hunk.header "diff --git " = false ∧ startsWith hunk.header "@@ " = true := by
  simp [Hunk.header, startsWith, List.isPrefixOf_cons_cons]

theorem Body.startsWith_lines (body : Body) :
    ∀ line ∈ body.lines, startsWith line "diff --git " = false := by
  intro line mem
  cases body with
  | bare => cases mem
  | placeholder names =>
    rw [Body.lines, List.mem_singleton] at mem
    simp [mem, startsWith, List.isPrefixOf_cons_cons]
  | text source target hunks =>
    simp only [Body.lines, List.mem_cons, List.mem_flatMap, List.mem_map] at mem
    rcases mem with rfl | rfl | ⟨hunk, _, rfl | ⟨hunkLine, _, rfl⟩⟩
    · simp [startsWith, List.isPrefixOf_cons_cons]
    · simp [startsWith, List.isPrefixOf_cons_cons]
    · exact hunk.startsWith_header.1
    · exact hunkLine.startsWith_text.1

theorem DiffSection.startsWith_firstLine (part : DiffSection) :
    startsWith part.firstLine "diff --git " = true := by
  simp [DiffSection.firstLine, startsWith]

theorem DiffSection.startsWith_laterLines (part : DiffSection) :
    ∀ line ∈ part.laterLines, startsWith line "diff --git " = false := by
  intro line mem
  rcases List.mem_append.mp mem with mem | mem
  · obtain ⟨header, _, rfl⟩ := List.mem_map.mp mem
    exact (extendedLine_startsWith header).1
  · exact part.body.startsWith_lines line mem

theorem unbroken_numeral {n : Nat} : '\n' ∉ numeral n := by
  intro mem
  have := numeral_isDigit mem
  revert this
  decide

theorem unbroken_countChars (count : Nat) : '\n' ∉ countChars count := by
  rw [countChars]
  split
  · simp
  · simp [unbroken_numeral]

theorem Hunk.unbroken_header (hunk : Hunk) : '\n' ∉ hunk.header.toList := by
  simp [Hunk.header, unbroken_numeral, unbroken_countChars, hunk.heading.unbroken]

theorem HunkLine.unbroken_text (line : HunkLine) : '\n' ∉ line.text.toList := by
  cases h : line.marker <;> simp [HunkLine.text, h, Marker.text, line.content.unbroken]

theorem Body.unbroken_lines (body : Body) : ∀ line ∈ body.lines, '\n' ∉ line.toList := by
  intro line mem
  cases body with
  | bare => cases mem
  | placeholder names =>
    rw [Body.lines, List.mem_singleton] at mem
    simp [mem, names.unbroken]
  | text source target hunks =>
    simp only [Body.lines, List.mem_cons, List.mem_flatMap, List.mem_map] at mem
    rcases mem with rfl | rfl | ⟨hunk, _, rfl | ⟨hunkLine, _, rfl⟩⟩
    · simp [source.unbroken]
    · simp [target.unbroken]
    · exact hunk.unbroken_header
    · exact hunkLine.unbroken_text

theorem DiffSection.unbroken_lines (part : DiffSection) :
    ∀ line ∈ part.lines, '\n' ∉ line.toList := by
  intro line mem
  rcases List.mem_cons.mp mem with rfl | mem
  · simp [DiffSection.firstLine, part.names.unbroken]
  · rcases List.mem_append.mp mem with mem | mem
    · obtain ⟨⟨key, value⟩, _, rfl⟩ := List.mem_map.mp mem
      cases key <;> simp [extendedLine, ExtendedKey.text, value.unbroken]
    · exact part.body.unbroken_lines line mem

/-- The kinds of entry between which a type change goes. -/
inductive TypePair where
  | regularAndLink
  | regularAndSubmodule
  | linkAndSubmodule
  deriving DecidableEq

/-- The type changes that are rendered in two sections. -/
abbrev Rendering := TypePair → Bool

/-- Git itself splits all of them. -/
def everySplit : Rendering := fun _ => true

/-- Only a change between a regular file and a symbolic link is split. -/
def linksSplit : Rendering := fun types => types = .regularAndLink

inductive Status where
  | added | deleted | modified
  | typeChanged (types : TypePair)
  | renamed (previous : GitPath) (score : Nat)
  | copied (previous : GitPath) (score : Nat)

def Status.letter : Status → Char
  | .added => 'A'
  | .deleted => 'D'
  | .modified => 'M'
  | .typeChanged _ => 'T'
  | .renamed _ _ => 'R'
  | .copied _ _ => 'C'

/-- Renames and copies carry how similar the two files are. -/
def Status.score : Status → List Char
  | .renamed _ score => digits 3 score
  | .copied _ score => digits 3 score
  | _ => []

def Status.previous : Status → Option GitPath
  | .renamed previous _ => some previous
  | .copied previous _ => some previous
  | _ => none

def Status.sectionCount (rendering : Rendering) : Status → Nat
  | .typeChanged types => if rendering types then 2 else 1
  | _ => 1

structure Change where
  path : GitPath
  status : Status
  /-- Added and deleted lines; a binary file has none. -/
  counts : Option (Nat × Nat)
  sections : List DiffSection

/-- The changes of a range: no path changes twice. -/
structure ChangeList (rendering : Rendering) where
  changes : List Change
  distinct : (changes.map fun change => change.path.text).Nodup
  rendered : ∀ change ∈ changes, change.sections.length = change.status.sectionCount rendering

theorem Status.sectionCount_linksSplit (status : Status) :
    status.sectionCount linksSplit = 1 ↔ status ≠ .typeChanged .regularAndLink := by
  cases status with
  | typeChanged types => cases types <;> simp [Status.sectionCount, linksSplit]
  | _ => simp [Status.sectionCount]

theorem Status.sectionCount_everySplit (status : Status) :
    status.sectionCount everySplit = 1 ↔ ∀ types, status ≠ .typeChanged types := by
  cases status with
  | typeChanged types => simp [Status.sectionCount, everySplit]
  | _ => simp [Status.sectionCount]

theorem Status.sectionCount_pos (rendering : Rendering) (status : Status) :
    1 ≤ status.sectionCount rendering := by
  cases status with
  | typeChanged types =>
    rw [Status.sectionCount]
    split <;> omega
  | _ => exact Nat.le_refl 1

def Change.statusField (change : Change) : String :=
  String.ofList (change.status.letter :: change.status.score)

def Change.nameStatusFields (change : Change) : List String :=
  match change.status.previous with
  | none => [change.statusField, change.path.text]
  | some previous => [change.statusField, previous.text, change.path.text]

def Change.countsText (change : Change) : String :=
  match change.counts with
  | none => "-\t-\t"
  | some (added, deleted) =>
    String.ofList (numeral added) ++ "\t" ++ String.ofList (numeral deleted) ++ "\t"

def Change.numstatFields (change : Change) : List String :=
  match change.status.previous with
  | none => [change.countsText ++ change.path.text]
  | some previous => [change.countsText, previous.text, change.path.text]

def nameStatusZ (changes : List Change) : String :=
  closed '\x00' (changes.flatMap Change.nameStatusFields)

def numstatZ (changes : List Change) : String :=
  closed '\x00' (changes.flatMap Change.numstatFields)

def nameOnlyZ (changes : List Change) : String :=
  closed '\x00' (changes.map fun change => change.path.text)

def unifiedDiff (changes : List Change) : String :=
  closed '\n' ((changes.flatMap Change.sections).flatMap DiffSection.lines)

theorem nulFree_numeral {n : Nat} : '\x00' ∉ numeral n := by
  intro mem
  have := numeral_isDigit mem
  revert this
  decide

theorem nulFree_digits {width n : Nat} : '\x00' ∉ digits width n := by
  intro mem
  have := digits_spec width n _ mem
  revert this
  decide

theorem Change.nulFree_statusField (change : Change) : '\x00' ∉ change.statusField.toList := by
  cases h : change.status <;>
    simp [Change.statusField, h, Status.letter, Status.score, nulFree_digits]

theorem Change.nulFree_nameStatusFields (change : Change) :
    ∀ field ∈ change.nameStatusFields, '\x00' ∉ field.toList := by
  intro field mem
  rw [Change.nameStatusFields] at mem
  split at mem
  · simp only [List.mem_cons, List.not_mem_nil, or_false] at mem
    rcases mem with rfl | rfl
    · exact change.nulFree_statusField
    · exact change.path.nulFree
  · next previous _ =>
    simp only [List.mem_cons, List.not_mem_nil, or_false] at mem
    rcases mem with rfl | rfl | rfl
    · exact change.nulFree_statusField
    · exact previous.nulFree
    · exact change.path.nulFree

theorem Change.nulFree_countsText (change : Change) : '\x00' ∉ change.countsText.toList := by
  rw [Change.countsText]
  split
  · simp
  · simp [nulFree_numeral]

theorem Change.nulFree_numstatFields (change : Change) :
    ∀ field ∈ change.numstatFields, '\x00' ∉ field.toList := by
  intro field mem
  rw [Change.numstatFields] at mem
  split at mem
  · rw [List.mem_singleton] at mem
    simp [mem, change.nulFree_countsText, change.path.nulFree]
  · next previous _ =>
    simp only [List.mem_cons, List.not_mem_nil, or_false] at mem
    rcases mem with rfl | rfl | rfl
    · exact change.nulFree_countsText
    · exact previous.nulFree
    · exact change.path.nulFree

theorem split_nameStatusZ (changes : List Change) :
    split '\x00' (nameStatusZ changes) = changes.flatMap Change.nameStatusFields ++ [""] := by
  refine split_closed fun field mem => ?_
  obtain ⟨change, _, mem⟩ := List.mem_flatMap.mp mem
  exact change.nulFree_nameStatusFields field mem

theorem split_numstatZ (changes : List Change) :
    split '\x00' (numstatZ changes) = changes.flatMap Change.numstatFields ++ [""] := by
  refine split_closed fun field mem => ?_
  obtain ⟨change, _, mem⟩ := List.mem_flatMap.mp mem
  exact change.nulFree_numstatFields field mem

theorem split_nameOnlyZ (changes : List Change) :
    split '\x00' (nameOnlyZ changes) = (changes.map fun change => change.path.text) ++ [""] := by
  refine split_closed fun field mem => ?_
  obtain ⟨change, _, rfl⟩ := List.mem_map.mp mem
  exact change.path.nulFree

theorem split_unifiedDiff (changes : List Change) :
    split '\n' (unifiedDiff changes) =
      (changes.flatMap Change.sections).flatMap DiffSection.lines ++ [""] := by
  refine split_closed fun line mem => ?_
  obtain ⟨part, _, mem⟩ := List.mem_flatMap.mp mem
  exact part.unbroken_lines line mem

end GitDiffs
