import SecReviewBot.GithubIntegration.SuggestionAnchors

/-!
# The suggestion pipeline

`suggestion-service.ts`: a mitigation patch is read line by line, every hunk is split into
runs of added and removed lines, and every run that can be shown on the pull request
becomes a suggestion on its lines.
-/

namespace SuggestionService

open TextCodecs TextPieces SuggestionAnchors
open WorkspaceHistory (trim)

structure WorkspaceHunk where
  header : HunkHeader
  lines : List String
  deriving DecidableEq

structure WorkspacePatchFile where
  path : String
  hunks : List WorkspaceHunk
  pathError : Option String
  deriving DecidableEq

structure PullRequestFile where
  filename : String
  patch : Option String
  deriving DecidableEq

structure SuggestionCandidate where
  path : String
  startLine : Nat
  line : Nat
  replacement : String
  body : String
  deriving DecidableEq

structure UnmappedSuggestionChange where
  path : String
  reason : String
  /-- `new_start` and `new_count`. -/
  hunk : Option (Nat × Nat)
  deriving DecidableEq

structure SuggestionManifest where
  candidates : List SuggestionCandidate
  unmappedChanges : List UnmappedSuggestionChange
  skippedReason : Option String
  deriving DecidableEq

structure WorkspaceSuggestionBlock where
  startLine : Nat
  line : Nat
  replacement : String
  deriving DecidableEq

def escapes (c : Char) : Option Nat :=
  if c = 'a' then some 7 else if c = 'b' then some 8 else if c = 't' then some 9
  else if c = 'n' then some 10 else if c = 'v' then some 11 else if c = 'f' then some 12
  else if c = 'r' then some 13 else if c = '"' then some 34 else if c = '\\' then some 92
  else none

/-- `[0-7]`. -/
def octalDigit (c : Char) : Option Nat :=
  if 48 ≤ c.toNat ∧ c.toNat ≤ 55 then some (c.toNat - 48) else none

/-- `/^[0-3][0-7]{2}/`. -/
def octalEscape (a b c : Char) : Option Nat := do
  let a ← octalDigit a
  let b ← octalDigit b
  let c ← octalDigit c
  if a ≤ 3 then some (a * 64 + b * 8 + c) else none

def invalidEscape : String := "Error: Invalid escape in quoted Git path."

def unescaped (c : Char) (later : Except String (List Nat)) : Except String (List Nat) :=
  match escapes c with
  | none => .error invalidEscape
  | some octet => later.map (octet :: ·)

/-- The octets between the quotes. -/
def decodeQuoted : List Char → Except String (List Nat)
  | [] => .ok []
  | c :: rest =>
    if c = '\\' then
      match rest with
      | [] => .error invalidEscape
      | e :: tail =>
        let single := unescaped e (decodeQuoted tail)
        match tail with
        | x :: y :: later =>
          match octalEscape e x y with
          | some octet => (decodeQuoted later).map (octet :: ·)
          | none => single
        | _ => single
    else if c = '"' then .error "Error: Unexpected quote in Git path."
    else (decodeQuoted rest).map (utf8EncodeChar c ++ ·)

/-- `new TextDecoder('utf-8', { fatal: true }).decode`, which drops a byte order mark. -/
def decodeFatal (octets : List Nat) : Except String String :=
  let text := utf8Decode octets
  if utf8Encode text = octets then
    match text with
    | [] => .ok ""
    | c :: rest => .ok (String.ofList (if c.toNat = 0xFEFF then rest else c :: rest))
  else .error "TypeError: The encoded data was not valid for encoding utf-8"

def endsWithQuote (value : String) : Bool := value.toList.getLast? == some '"'

def decodeGitPatchPath (value : String) : Except String String :=
  if !startsWith value "\"" then .ok (String.ofList (value.toList.takeWhile (· ≠ '\t')))
  else if !endsWithQuote value then .error "Error: Unterminated quoted Git path."
  else do
    let octets ← decodeQuoted (value.toList.drop 1).dropLast
    decodeFatal octets

def noDestination : String := "Patch entry has no readable destination path."

/-- The variables of the loop; `current_file` is the last file, and `current_hunk`, when there
is one, its last hunk. -/
structure PatchScan where
  files : List WorkspacePatchFile
  inHunk : Bool

def updateLast {α : Type} (f : α → α) : List α → List α
  | [] => []
  | [x] => [f x]
  | x :: y :: rest => x :: updateLast f (y :: rest)

def withDestination (value : String) (file : WorkspacePatchFile) : WorkspacePatchFile :=
  match decodeGitPatchPath value with
  | .error message => { file with pathError := some message }
  | .ok path =>
    if startsWith path "b/" then
      { file with path := String.ofList (path.toList.drop 2), pathError := none }
    else { file with pathError := some "Error: Patch destination is not a repository file." }

def addHunk (header : HunkHeader) (file : WorkspacePatchFile) : WorkspacePatchFile :=
  { file with hunks := file.hunks ++ [{ header, lines := [] }] }

def addLine (line : String) (file : WorkspacePatchFile) : WorkspacePatchFile :=
  { file with
    hunks := updateLast (fun hunk => { hunk with lines := hunk.lines ++ [line] }) file.hunks }

/-- `/^[ +-]/`. -/
def isHunkLine (line : String) : Bool :=
  startsWith line " " || startsWith line "+" || startsWith line "-"

def scanLine (scan : PatchScan) (line : String) : PatchScan :=
  if startsWith line "diff --git " || startsWith line "diff -ruN " then
    { files := scan.files ++ [{ path := line, hunks := [], pathError := some noDestination }]
      inHunk := false }
  else if scan.files.isEmpty then scan
  else if !scan.inHunk && startsWith line "+++ " then
    { scan with
      files := updateLast (withDestination (String.ofList (line.toList.drop 4))) scan.files }
  else if startsWith line "@@ " then
    match parseHunkHeader line with
    | none => { scan with inHunk := false }
    | some header => { files := updateLast (addHunk header) scan.files, inHunk := true }
  else if scan.inHunk && isHunkLine line then
    { scan with files := updateLast (addLine line) scan.files }
  else scan

def parseWorkspacePatch (patchContent : String) : List WorkspacePatchFile :=
  ((split '\n' patchContent).foldl scanLine { files := [], inHunk := false }).files

/-- A line of a hunk with the number its place has in the old file. -/
abbrev Numbered : Type := Nat × String

def isAdded (line : Numbered) : Bool := startsWith line.2 "+"

def isRemoved (line : Numbered) : Bool := startsWith line.2 "-"

def isContext (line : Numbered) : Bool := startsWith line.2 " "

def isChange (line : Numbered) : Bool := isAdded line || isRemoved line

/-- `old_line_at_index` beside the lines. -/
def numberLines : Nat → List String → List Numbered
  | _, [] => []
  | cursor, line :: rest =>
    (cursor, line) ::
      numberLines (if startsWith line " " || startsWith line "-" then cursor + 1 else cursor) rest

/-- A maximal run of added and removed lines with the lines of the hunk around it. -/
structure Run where
  before : List Numbered
  lines : List Numbered
  after : List Numbered

/-- The run that has been collected when the scan stops at `after`. -/
def closeRun (before lines after : List Numbered) : List Run :=
  if lines.isEmpty then [] else [{ before, lines, after }]

/-- The scan over the lines: `run` has the changed lines since the last other line. -/
def scanRuns (before run : List Numbered) : List Numbered → List Run
  | [] => closeRun before run []
  | line :: rest =>
    if isChange line then scanRuns before (run ++ [line]) rest
    else closeRun before run (line :: rest) ++ scanRuns (before ++ run ++ [line]) [] rest

def runsOf (hunk : WorkspaceHunk) : List Run :=
  scanRuns [] [] (numberLines hunk.header.oldStart hunk.lines)

/-- The text of a line after its marker. -/
def content (line : Numbered) : String := String.ofList (line.2.toList.drop 1)

def plusLines (run : Run) : List String := (run.lines.filter isAdded).map content

def minusLineNumbers (run : Run) : List Nat := (run.lines.filter isRemoved).map Prod.fst

/-- `String.prototype.trimEnd`. -/
def trimEnd (text : String) : String :=
  String.ofList (text.toList.reverse.dropWhile ecmaSpace).reverse

def block (startLine line : Nat) (replacement : String) : Option WorkspaceSuggestionBlock :=
  if 0 < startLine ∧ startLine ≤ line then some { startLine, line, replacement } else none

def insertionLine (run : Run) : Nat := (run.lines.head?.map Prod.fst).getD 0

/-- An insertion repeats a context line of the hunk: the next one, else the one before. -/
def anchoredReplacement (run : Run) (core : String) : Option String :=
  match run.after.find? isContext with
  | some line => some (core ++ "\n" ++ content line)
  | none => (run.before.reverse.find? isContext).map fun line => content line ++ "\n" ++ core

def suggestionBlock (run : Run) : Option WorkspaceSuggestionBlock :=
  let minus := minusLineNumbers run
  let core := trimEnd (join '\n' (plusLines run))
  if (plusLines run).isEmpty && !minus.isEmpty then
    block (minus.head?.getD 0) (minus.getLast?.getD 0) ""
  else if (plusLines run).isEmpty then none
  else if core = "" then none
  else if !minus.isEmpty then block (minus.head?.getD 0) (minus.getLast?.getD 0) core
  else if insertionLine run = 0 then none
  else (anchoredReplacement run core).map fun replacement =>
    { startLine := insertionLine run, line := insertionLine run, replacement }

def splitWorkspaceHunkIntoSuggestionBlocks (workspaceHunk : WorkspaceHunk) :
    List WorkspaceSuggestionBlock := (runsOf workspaceHunk).filterMap suggestionBlock

structure LineRange where
  start : Nat
  stop : Nat
  deriving DecidableEq

def toLineRange (start count : Nat) : Option LineRange :=
  if start = 0 ∨ count = 0 then none else some { start, stop := start + count - 1 }

def rangesOverlap (left right : LineRange) : Bool :=
  left.start ≤ right.stop && right.start ≤ left.stop

def overlapsHunk (range : LineRange) (prHunk : HunkHeader) : Bool :=
  match toLineRange prHunk.newStart prHunk.newCount with
  | none => false
  | some prRange => rangesOverlap range prRange

def findAnchoringHunkForBlock (block : WorkspaceSuggestionBlock) (prHunks : List HunkHeader) :
    Option HunkHeader :=
  match toLineRange block.startLine (block.line - block.startLine + 1) with
  | none => none
  | some range => prHunks.find? (overlapsHunk range)

def buildSuggestionBody (replacement : String) : String :=
  join '\n' ["```suggestion", replacement, "```"]

/-- What the loops do next: push a candidate, or a change that stays unmapped with the reason
they remember. -/
inductive Outcome where
  | candidate (value : SuggestionCandidate)
  | unmapped (skipReason : String) (change : UnmappedSuggestionChange)

def notVisible : String := "File is not visible as a patchable PR diff file."

def unmappedFile (path reason skipReason : String) : Outcome :=
  .unmapped skipReason { path, reason, hunk := none }

def unmappedHunk (path : String) (hunk : WorkspaceHunk) (reason skipReason : String) : Outcome :=
  .unmapped skipReason { path, reason, hunk := some (hunk.header.newStart, hunk.header.newCount) }

def blockOutcomes (path : String) (prHunks : List HunkHeader) (hunk : WorkspaceHunk)
    (block : WorkspaceSuggestionBlock) : List Outcome :=
  match findAnchoringHunkForBlock block prHunks with
  | none =>
    [unmappedHunk path hunk "Workspace hunk has no overlapping PR hunk."
      ("File " ++ path ++ " has no overlapping PR hunk for a workspace hunk.")]
  | some anchoringHunk =>
    match toLineRange anchoringHunk.newStart anchoringHunk.newCount with
    | none =>
      [unmappedHunk path hunk
        "Workspace hunk has no right-side line range for inline suggestion anchoring."
        ("File " ++ path ++
          " has no right-side line range for inline suggestion anchoring.")]
    | some range =>
      let startLine := max block.startLine range.start
      let line := min block.line range.stop
      if line < startLine then []
      else
        [.candidate { path, startLine, line, replacement := block.replacement,
                      body := buildSuggestionBody block.replacement }]

def hunkOutcomes (path : String) (prHunks : List HunkHeader) (hunk : WorkspaceHunk) :
    List Outcome :=
  let blocks := splitWorkspaceHunkIntoSuggestionBlocks hunk
  if blocks.isEmpty then
    [unmappedHunk path hunk "Workspace hunk produced an empty suggestion replacement."
      ("File " ++ path ++ " produced an empty suggestion replacement.")]
  else blocks.flatMap (blockOutcomes path prHunks hunk)

/-- The patch of the file of the pull request, unless it is blank. -/
def visiblePatch (files : List PullRequestFile) (path : String) : Option String :=
  ((files.find? fun file => file.filename = path).bind PullRequestFile.patch).filter
    fun patch => trim patch ≠ ""

def fileOutcomes (files : List PullRequestFile) (file : WorkspacePatchFile) : List Outcome :=
  match file.pathError with
  | some reason => [unmappedFile file.path reason reason]
  | none =>
    match visiblePatch files file.path with
    | none =>
      [unmappedFile file.path notVisible
        ("File " ++ file.path ++ " is not visible as a patchable PR diff file.")]
    | some patch =>
      let prHunks := parsePatchHunks patch
      if prHunks.length = 0 then
        [unmappedFile file.path "File has no anchorable PR patch hunks."
          ("File " ++ file.path ++ " has no anchorable PR patch hunks.")]
      else file.hunks.flatMap (hunkOutcomes file.path prHunks)

def candidateOf : Outcome → Option SuggestionCandidate
  | .candidate value => some value
  | .unmapped _ _ => none

def unmappedOf : Outcome → Option UnmappedSuggestionChange
  | .candidate _ => none
  | .unmapped _ change => some change

def skipReasonOf : Outcome → Option String
  | .candidate _ => none
  | .unmapped skipReason _ => some skipReason

/-- `mitigated`: the review record has a mitigation. -/
def buildSuggestionManifest (patchContent : String) (files : List PullRequestFile)
    (mitigated : Bool) : SuggestionManifest :=
  let patchFiles := parseWorkspacePatch patchContent
  if !mitigated || patchFiles.isEmpty then
    { candidates := [], unmappedChanges := []
      skippedReason := some "Workspace patch contains no suggestible file entries." }
  else
    let outcomes := patchFiles.flatMap (fileOutcomes files)
    let candidates := outcomes.filterMap candidateOf
    { candidates
      unmappedChanges := outcomes.filterMap unmappedOf
      skippedReason :=
        if candidates.isEmpty then
          some ((outcomes.findSome? skipReasonOf).getD "No eligible patch candidate.")
        else none }

/-- The patch text of the mitigation, when the record has one. -/
def generateSuggestionCandidatesFromReviewRecord (files : List PullRequestFile)
    (mitigation : Option (Option String)) : Except String SuggestionManifest :=
  let patchContent := (mitigation.bind id).getD ""
  if trim patchContent = "" then
    .error "Pull request suggestion generation requires review_record.mitigation.patch_diff."
  else .ok (buildSuggestionManifest patchContent files mitigation.isSome)

end SuggestionService
