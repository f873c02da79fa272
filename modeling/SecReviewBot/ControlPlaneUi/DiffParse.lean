import SecReviewBot.GithubIntegration.SuggestionAnchors
import SecReviewBot.StreamMerges

/-!
# The diff viewer

`diff-parse.ts` reads a patch of two dialects line by line into files, hunks and rows. In a
unified diff the counts of a hunk header say how many lines belong to the hunk; in the Begin
Patch dialect a hunk lasts until the next marker. A patch that cannot be accounted for is
reported as invalid, and its text is shown instead.
-/

namespace DiffParse

open TextCodecs TextPieces WorkspaceHistory SuggestionAnchors

inductive DiffRowKind where
  | context | add | remove
  deriving DecidableEq

structure DiffRow where
  kind : DiffRowKind
  text : String
  deriving DecidableEq

structure DiffHunk where
  header : String
  rows : List DiffRow
  deriving DecidableEq

inductive DiffFileStatus where
  | added | deleted
  deriving DecidableEq

structure DiffFile where
  path : String
  movedFrom : Option String
  status : Option DiffFileStatus
  hunks : List DiffHunk
  deriving DecidableEq

structure ParsedPatch where
  files : List DiffFile
  invalid : Bool
  deriving DecidableEq

inductive Dialect where
  | unified | begin
  deriving DecidableEq

/-- The variables of the loop. A hunk is pushed to the current file when it becomes current, so
`currentHunk` is the last hunk of that file and only whether there is one is kept. -/
structure ParseState where
  files : List DiffFile
  /-- The index of the file. -/
  currentFile : Option Nat
  currentHunk : Bool
  countedHunk : Bool
  oldRemaining : Nat
  newRemaining : Nat
  pendingOldPath : Option String
  pendingOldIsNull : Bool
  awaitingNewHeader : Bool
  dialect : Option Dialect
  deriving DecidableEq

def initial : ParseState where
  files := []
  currentFile := none
  currentHunk := false
  countedHunk := false
  oldRemaining := 0
  newRemaining := 0
  pendingOldPath := none
  pendingOldIsNull := false
  awaitingNewHeader := false
  dialect := none

/-- `text.replace(/\r\n/g, '\n').replace(/\r/g, '\n')`. -/
def lineFeeds : List Char → List Char
  | '\r' :: '\n' :: rest => '\n' :: lineFeeds rest
  | '\r' :: rest => '\n' :: lineFeeds rest
  | c :: rest => c :: lineFeeds rest
  | [] => []

def patchLines (text : String) : List String :=
  split '\n' (String.ofList (lineFeeds text.toList))

/-- `line.slice(n)`. -/
def slice (n : Nat) (line : String) : String := String.ofList (line.toList.drop n)

/-- `line.slice(marker.length).trim()`. -/
def markedPath (marker line : String) : String := trim (slice marker.length line)

/-- `line.slice(4).split('\t')[0].trim()`. -/
def headerPath (line : String) : String :=
  trim (String.ofList ((line.toList.drop 4).takeWhile (· ≠ '\t')))

/-- `path.replace(/^[ab]\//, '')`. -/
def stripPrefix (path : String) : String :=
  if startsWith path "a/" ∨ startsWith path "b/" then slice 2 path else path

/-- The files with one of this path, and the index of the first such file. -/
def ensureFile (path : String) (files : List DiffFile) : List DiffFile × Nat :=
  match files.findIdx? (·.path = path) with
  | some i => (files, i)
  | none => (files ++ [{ path, movedFrom := none, status := none, hunks := [] }], files.length)

def pushRow (row : DiffRow) (hunk : DiffHunk) : DiffHunk := { hunk with rows := hunk.rows ++ [row] }

/-- The last of some hunks gets a row. -/
def pushLast (row : DiffRow) : List DiffHunk → List DiffHunk
  | [] => []
  | [hunk] => [pushRow row hunk]
  | hunk :: rest => hunk :: pushLast row rest

namespace ParseState

/-- What is done to the current file, if there is one. -/
def modifyFile (change : DiffFile → DiffFile) (s : ParseState) : ParseState :=
  match s.currentFile with
  | some i => { s with files := s.files.modify i change }
  | none => s

def addRow (kind : DiffRowKind) (text : String) (s : ParseState) : ParseState :=
  s.modifyFile fun file => { file with hunks := pushLast { kind, text } file.hunks }

def openHunk (header : String) (s : ParseState) : ParseState :=
  { s.modifyFile (fun file => { file with hunks := file.hunks ++ [{ header, rows := [] }] }) with
    currentHunk := true }

def withFile (path : String) (s : ParseState) : ParseState :=
  { s with
    files := (ensureFile path s.files).1
    currentFile := some (ensureFile path s.files).2 }

/-- What every header of a file forgets. -/
def settled (dialect : Dialect) (s : ParseState) : ParseState :=
  { s with
    currentHunk := false
    pendingOldPath := none
    pendingOldIsNull := false
    awaitingNewHeader := false
    dialect := some dialect }

def withStatus (status : DiffFileStatus) (s : ParseState) : ParseState :=
  s.modifyFile fun file => { file with status := some status }

/-- `*** Move to: `. -/
def moveFile (target : String) (s : ParseState) : ParseState :=
  s.modifyFile fun file => { file with movedFrom := some file.path, path := target }

/-- `*** Add File: ` and `*** Delete File: `, which have no line with counts. -/
def wholeFile (status : DiffFileStatus) (path : String) (s : ParseState) : ParseState :=
  { (((s.withFile path).withStatus status).settled .begin).openHunk "" with countedHunk := false }

/-- The `+++ ` line of a header pair. -/
def newHeader (path : String) (s : ParseState) : ParseState :=
  if path = "/dev/null" then
    match s.pendingOldPath with
    | some old =>
      -- An empty path is as good as none.
      if old = "" then s.settled .unified
      else ((s.withFile (stripPrefix old)).withStatus .deleted).settled .unified
    | none => s.settled .unified
  else if s.pendingOldIsNull then
    ((s.withFile (stripPrefix path)).withStatus .added).settled .unified
  else (s.withFile (stripPrefix path)).settled .unified

/-- The `--- ` line of a header pair. -/
def oldHeader (path : String) (s : ParseState) : ParseState :=
  { s with
    pendingOldPath := if path = "/dev/null" then none else some path
    pendingOldIsNull := decide (path = "/dev/null")
    awaitingNewHeader := true
    dialect := some .unified }

end ParseState

/-- A line in a counted hunk that is not at its end; `none` is an invalid patch. -/
def readCounted (s : ParseState) (line : String) : Option ParseState :=
  if startsWith line "\\" then some s
  else if startsWith line " " ∧ 0 < s.oldRemaining ∧ 0 < s.newRemaining then
    some { s.addRow .context (slice 1 line) with
      oldRemaining := s.oldRemaining - 1
      newRemaining := s.newRemaining - 1 }
  else if startsWith line "-" ∧ 0 < s.oldRemaining then
    some { s.addRow .remove (slice 1 line) with oldRemaining := s.oldRemaining - 1 }
  else if startsWith line "+" ∧ 0 < s.newRemaining then
    some { s.addRow .add (slice 1 line) with newRemaining := s.newRemaining - 1 }
  else none

/-- A line in a hunk of the Begin Patch dialect. -/
def readUncounted (s : ParseState) (line : String) : Option ParseState :=
  if startsWith line "\\" then some s
  else if startsWith line "+" then some (s.addRow .add (slice 1 line))
  else if startsWith line "-" then some (s.addRow .remove (slice 1 line))
  else if startsWith line " " then some (s.addRow .context (slice 1 line))
  else if line ≠ "" then none
  else some s

/-- The lines of a hunk begin so. -/
def isContent (line : String) : Bool :=
  startsWith line " " || startsWith line "+" || startsWith line "-"

/-- Content that is neither line of a header pair. -/
def isPlainContent (line : String) : Bool :=
  startsWith line " " || (startsWith line "+" && !startsWith line "+++ ") ||
    (startsWith line "-" && !startsWith line "--- ")

/-- A line that begins a hunk or says nothing. -/
def readChunk (s : ParseState) (line : String) : Option ParseState :=
  match parseHunkHeader line with
  | some header =>
    if s.awaitingNewHeader ∨ s.currentFile = none then none
    else
      some { s.openHunk line with
        countedHunk := true
        oldRemaining := header.oldCount
        newRemaining := header.newCount }
  | none =>
    if startsWith line "@@" then
      if s.awaitingNewHeader ∨ s.dialect ≠ some .begin ∨ s.currentFile = none then none
      else some { s.openHunk line with countedHunk := false }
    else if s.currentFile ≠ none ∧ s.currentHunk = false ∧ s.dialect = some .begin ∧
        line ≠ "" ∧ isContent line then none
    else some s

/-- A line that is not the header of a section. -/
def readHeader (s : ParseState) (line : String) : Option ParseState :=
  if startsWith line "+++ " then
    if s.awaitingNewHeader then some (s.newHeader (headerPath line)) else none
  else if startsWith line "--- " then
    if s.awaitingNewHeader then none else some (s.oldHeader (headerPath line))
  else if startsWith line "*** " then some { s with dialect := some .begin }
  else readChunk s line

/-- A line outside the content of a hunk. -/
def readMarker (s : ParseState) (line : String) : Option ParseState :=
  if s.dialect = some .unified ∧ isPlainContent line then none
  else if startsWith line "Index: " then
    some ((s.withFile (markedPath "Index: " line)).settled .unified)
  else if startsWith line "*** Update File: " then
    some ((s.withFile (markedPath "*** Update File: " line)).settled .begin)
  else if startsWith line "*** Move to: " then
    some (s.moveFile (markedPath "*** Move to: " line))
  else if startsWith line "*** Add File: " then
    some (s.wholeFile .added (markedPath "*** Add File: " line))
  else if startsWith line "*** Delete File: " then
    some (s.wholeFile .deleted (markedPath "*** Delete File: " line))
  else readHeader s line

/-- A counted hunk is current and lacks lines. -/
def ParseState.inCounted (s : ParseState) : Bool :=
  s.currentHunk && s.countedHunk && (decide (0 < s.oldRemaining) || decide (0 < s.newRemaining))

/-- These lines end a hunk of the Begin Patch dialect. -/
def endsUncounted (line : String) : Bool :=
  startsWith line "@@" || startsWith line "*** " || startsWith line "Index: "

def readLine (s : ParseState) (line : String) : Option ParseState :=
  if s.inCounted then readCounted s line
  else if s.currentHunk ∧ s.countedHunk = false then
    if endsUncounted line then readMarker { s with currentHunk := false } line
    else readUncounted s line
  else readMarker s line

def readLines (s : ParseState) (lines : List String) : Option ParseState := lines.foldlM readLine s

/-- The checks behind the loop. -/
def ParseState.complete (s : ParseState) : Bool :=
  !(s.countedHunk && (decide (0 < s.oldRemaining) || decide (0 < s.newRemaining))) &&
    !s.awaitingNewHeader

/-- A file that says something. -/
def DiffFile.shown (file : DiffFile) : Bool :=
  file.hunks.any (fun hunk => !hunk.rows.isEmpty) || file.status.isSome || file.movedFrom.isSome

def parsePatch (text : String) : ParsedPatch :=
  match readLines initial (patchLines text) with
  | some s =>
    if s.complete then { files := s.files.filter DiffFile.shown, invalid := false }
    else { files := [], invalid := true }
  | none => { files := [], invalid := true }

/-- `parsePatch(text).files`. -/
def parseUnifiedDiff (text : String) : List DiffFile := (parsePatch text).files

end DiffParse
