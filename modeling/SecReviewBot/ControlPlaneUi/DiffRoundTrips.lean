import SecReviewBot.GitQuoting
import SecReviewBot.ControlPlaneUi.DiffRows

/-!
# Diffs of Git in the viewer

What `git diff` prints for files with plain names, and that the viewer reads it back: every
file with its status, its hunks and their rows. Outside the hunks the lines of Git are header
pairs, hunk headers and lines that say nothing to the viewer; inside, the counts decide.
-/

namespace DiffRoundTrips

open TextCodecs TextPieces WorkspaceHistory GitQuoting GitDiffs SuggestionAnchors DiffParse DiffRows

/-- A path that Git prints as it is. -/
structure PlainPath where
  text : String
  nonempty : text ≠ ""
  unquoted : isQuoted false text = false
  trimmed : trim text = text

inductive FileChange where
  | modified (source : PlainPath)
  | added
  | deleted

structure FileDiff where
  path : PlainPath
  change : FileChange
  names : Line
  extended : List (ExtendedKey × Line)
  hunks : List Hunk

/-- A name with a space is closed with a tab. -/
def headerName (side : String) (path : PlainPath) : String :=
  if path.text.toList.contains ' ' then side ++ path.text ++ "\t" else side ++ path.text

theorem PlainPath.plain (path : PlainPath) : ∀ c ∈ path.text.toList, special false c = false := by
  have unquoted := path.unquoted
  rw [isQuoted, List.any_eq_false] at unquoted
  intro c mem
  simpa using unquoted c mem

theorem PlainPath.not_mem (path : PlainPath) {c : Char} (escaped : special false c = true) :
    c ∉ path.text.toList := by
  intro mem
  rw [path.plain c mem] at escaped
  cases escaped

theorem unbroken_headerName {side : String} (unbroken : '\n' ∉ side.toList) (path : PlainPath) :
    '\n' ∉ (headerName side path).toList := by
  have own := path.not_mem (special_newline false)
  rw [headerName]
  split
  · simp [unbroken, own]
  · simp [unbroken, own]

theorem unbroken_a : '\n' ∉ "a/".toList := by decide

theorem unbroken_b : '\n' ∉ "b/".toList := by decide

theorem unbroken_devNull : '\n' ∉ "/dev/null".toList := by decide

def FileDiff.source (part : FileDiff) : Line :=
  match part.change with
  | .modified source => ⟨headerName "a/" source, unbroken_headerName unbroken_a _⟩
  | .added => ⟨"/dev/null", unbroken_devNull⟩
  | .deleted => ⟨headerName "a/" part.path, unbroken_headerName unbroken_a _⟩

def FileDiff.target (part : FileDiff) : Line :=
  match part.change with
  | .deleted => ⟨"/dev/null", unbroken_devNull⟩
  | _ => ⟨headerName "b/" part.path, unbroken_headerName unbroken_b _⟩

def FileDiff.diff (part : FileDiff) : DiffSection where
  names := part.names
  extended := part.extended
  body := .text part.source part.target part.hunks

def gitDiff (parts : List FileDiff) : String :=
  closed '\n' (parts.flatMap fun part => part.diff.lines)

def isOld (line : HunkLine) : Bool := line.marker = .context || line.marker = .removed

def isNew (line : HunkLine) : Bool := line.marker = .context || line.marker = .added

/-- The counts of the header are those of the lines. -/
structure Counted (hunk : Hunk) : Prop where
  old : hunk.oldCount = hunk.lines.countP isOld
  new : hunk.newCount = hunk.lines.countP isNew
  some : ∃ line ∈ hunk.lines, line.marker ≠ .noNewline

/-- A diff in Git form. -/
structure WellFormed (parts : List FileDiff) : Prop where
  distinct : (parts.map fun part => part.path.text).Nodup
  hunks : ∀ part ∈ parts, part.hunks ≠ []
  counted : ∀ part ∈ parts, ∀ hunk ∈ part.hunks, Counted hunk
  noReturn : '\r' ∉ (gitDiff parts).toList

def shownRow (line : HunkLine) : Option DiffRow :=
  match line.marker with
  | .context => some ⟨.context, line.content.text⟩
  | .added => some ⟨.add, line.content.text⟩
  | .removed => some ⟨.remove, line.content.text⟩
  | .noNewline => none

def shownHunk (hunk : Hunk) : DiffHunk where
  header := hunk.header
  rows := hunk.lines.filterMap shownRow

def FileChange.status : FileChange → Option DiffFileStatus
  | .modified _ => none
  | .added => some .added
  | .deleted => some .deleted

def shownFile (part : FileDiff) : DiffFile where
  path := part.path.text
  movedFrom := none
  status := part.change.status
  hunks := part.hunks.map shownHunk

theorem last_trim {text : String} (trimmed : trim text = text) :
    ∀ c ∈ text.toList.reverse.head?, ecmaSpace c = false := by
  rw [← trimmed, trim, strip, String.toList_ofList, List.reverse_reverse]
  exact head_dropWhile

/-- A path keeps its end behind a prefix that begins with a letter. -/
theorem trim_side {side : String} {c : Char} {rest : List Char} (chars : side.toList = c :: rest)
    (visible : ecmaSpace c = false) (path : PlainPath) :
    trim (side ++ path.text) = side ++ path.text := by
  have front : (side ++ path.text).toList.dropWhile ecmaSpace = (side ++ path.text).toList := by
    refine dropWhile_fixed ?_
    rw [String.toList_append, chars]
    intro d first
    cases first
    exact visible
  have back : (side ++ path.text).toList.reverse.dropWhile ecmaSpace =
      (side ++ path.text).toList.reverse := by
    refine dropWhile_fixed ?_
    rw [String.toList_append, List.reverse_append]
    have filled : path.text.toList.reverse ≠ [] := by
      simpa using path.nonempty
    have last := last_trim path.trimmed
    cases own : path.text.toList.reverse with
    | nil => exact absurd own filled
    | cons d more =>
      rw [own] at last
      exact last
  rw [trim, strip, front, back, List.reverse_reverse, String.ofList_toList]

theorem headerPath_name {start side : String} {c : Char} {rest : List Char}
    (four : start.toList.length = 4) (chars : side.toList = c :: rest)
    (visible : ecmaSpace c = false) (tabless : '\t' ∉ side.toList) (path : PlainPath) :
    headerPath (start ++ headerName side path) = side ++ path.text := by
  have own : '\t' ∉ (side ++ path.text).toList := by
    rw [String.toList_append, List.mem_append, not_or]
    exact ⟨tabless, path.not_mem (by decide)⟩
  have kept : ∀ c ∈ (side ++ path.text).toList, decide (c ≠ '\t') = true := by
    intro c mem
    rw [decide_eq_true_eq]
    rintro rfl
    exact own mem
  have dropped : (start ++ headerName side path).toList.drop 4 = (headerName side path).toList := by
    rw [String.toList_append, List.drop_append_of_le_length (by omega), List.drop_eq_nil_of_le
      (by omega), List.nil_append]
  rw [headerPath, dropped, headerName]
  split
  · rw [String.toList_append, List.takeWhile_append_of_pos kept]
    simp [trim_side chars visible path]
  · rw [List.takeWhile_eq_self_iff.mpr kept, String.ofList_toList, trim_side chars visible path]

theorem stripPrefix_side {side : String} (known : side = "a/" ∨ side = "b/") (path : String) :
    stripPrefix (side ++ path) = path := by
  have two : slice 2 (side ++ path) = path := by
    rw [slice, String.toList_append]
    rcases known with rfl | rfl
    · exact String.ofList_toList
    · exact String.ofList_toList
  have starts : startsWith (side ++ path) side = true := by
    rw [startsWith, List.isPrefixOf_iff_prefix, String.toList_append]
    exact List.prefix_append _ _
  rw [stripPrefix, if_pos ?_, two]
  rcases known with rfl | rfl
  · exact .inl starts
  · exact .inr starts

theorem side_ne_null {side : String} (known : side = "a/" ∨ side = "b/") (path : String) :
    side ++ path ≠ "/dev/null" := by
  intro same
  have heads := congrArg (fun text => text.toList.head?) same
  rcases known with rfl | rfl
  · simp at heads
  · simp at heads

section Outside

variable {s t : ParseState} {line : String}

/-- No hunk lacks lines, and the dialect is not the other one. -/
structure Between (s : ParseState) : Prop where
  counted : s.currentHunk = true → s.countedHunk = true
  remaining : s.oldRemaining = 0 ∧ s.newRemaining = 0
  dialect : s.dialect ≠ some .begin

/-- The last file is being read. -/
structure Reading (s : ParseState) (before : List DiffFile) (file : DiffFile) : Prop
    extends Between s where
  files : s.files = before ++ [file]
  current : s.currentFile = some before.length
  settled : s.awaitingNewHeader = false
  unified : s.dialect = some .unified

theorem not_startsWith_of_head {start : String} {c : Char} {rest : List Char}
    (chars : start.toList = c :: rest) (other : line.toList.head? ≠ some c) :
    startsWith line start = false := by
  rw [Bool.eq_false_iff]
  exact fun starts => other (startsWith_head chars starts)

theorem Between.readLine_eq (between : Between s) : readLine s line = readMarker s line := by
  have closed : ¬ (s.currentHunk = true ∧ s.countedHunk = false) := by
    rintro ⟨inHunk, uncounted⟩
    rw [between.counted inHunk] at uncounted
    cases uncounted
  have outside : s.inCounted = false := by
    simp [ParseState.inCounted, between.remaining]
  rw [readLine, outside, if_neg Bool.false_ne_true, if_neg closed]

/-- A line that begins otherwise is no header of a section. -/
theorem readMarker_eq (plain : isPlainContent line = false) (index : line.toList.head? ≠ some 'I')
    (stars : line.toList.head? ≠ some '*') : readMarker s line = readHeader s line := by
  have marker {start : String} {rest : List Char} (chars : start.toList = '*' :: rest) :
      ¬ startsWith line start = true := by
    rw [not_startsWith_of_head chars stars]
    exact Bool.false_ne_true
  have unindexed : ¬ startsWith line "Index: " = true := by
    rw [not_startsWith_of_head rfl index]
    exact Bool.false_ne_true
  have expected : ¬ (s.dialect = some .unified ∧ isPlainContent line = true) := by simp [plain]
  rw [readMarker, if_neg expected, if_neg unindexed, if_neg (marker rfl), if_neg (marker rfl),
    if_neg (marker rfl), if_neg (marker rfl)]

theorem readHeader_eq (apart : ∀ c ∈ line.toList.head?, c ∉ [' ', '+', '-', 'I', '*']) :
    readMarker s line = readChunk s line := by
  have other {start : String} {c : Char} {rest : List Char} (chars : start.toList = c :: rest)
      (known : c ∈ [' ', '+', '-', 'I', '*']) : ¬ startsWith line start = true := by
    rw [not_startsWith_of_head chars fun head => apart c head known]
    exact Bool.false_ne_true
  have plain : isPlainContent line = false := by
    rw [Bool.eq_false_iff]
    intro content
    obtain ⟨c, known, head⟩ := isContent_iff.mp (isContent_of_plain content)
    simp only [List.mem_cons, List.not_mem_nil, or_false] at known
    rcases known with rfl | rfl | rfl
    all_goals exact apart _ head (by decide)
  rw [readMarker_eq plain (fun head => apart 'I' head (by decide))
    (fun head => apart '*' head (by decide)), readHeader, if_neg (other rfl (by decide)),
    if_neg (other rfl (by decide)), if_neg (other rfl (by decide))]

/-- Most lines of Git say nothing to the viewer. -/
theorem Between.quiet (between : Between s)
    (apart : ∀ c ∈ line.toList.head?, c ∉ [' ', '+', '-', 'I', '*', '@']) :
    readLine s line = some s := by
  have others : ∀ c ∈ line.toList.head?, c ∉ [' ', '+', '-', 'I', '*'] := by
    intro c head known
    refine apart c head ?_
    simp only [List.mem_cons, List.not_mem_nil, or_false] at known ⊢
    tauto
  have unheaded : parseHunkHeader line = none := by
    cases parsed : parseHunkHeader line with
    | none => rfl
    | some header => exact absurd (by decide) (apart '@' (parseHunkHeader_start parsed))
  have bare : ¬ startsWith line "@@" = true := by
    rw [not_startsWith_of_head rfl fun head => apart '@' head (by decide)]
    exact Bool.false_ne_true
  rw [between.readLine_eq, readHeader_eq others, readChunk, unheaded]
  dsimp only
  rw [if_neg bare, if_neg (by simp [between.dialect])]

theorem readMarker_old (settled : s.awaitingNewHeader = false)
    (old : startsWith line "--- " = true) :
    readMarker s line = some (s.oldHeader (headerPath line)) := by
  have head := startsWith_head rfl old
  have space := @not_startsWith line _ " " old (by decide) (by decide)
  have plus := @not_startsWith line _ "+" old (by decide) (by decide)
  have new := @not_startsWith line _ "+++ " old (by decide) (by decide)
  have plain : isPlainContent line = false := by
    rw [isPlainContent, space, plus, old]
    simp
  rw [readMarker_eq plain (by rw [head]; decide) (by rw [head]; decide), readHeader, new,
    if_neg Bool.false_ne_true, if_pos old, settled, if_neg Bool.false_ne_true]

theorem readMarker_new (waits : s.awaitingNewHeader = true)
    (new : startsWith line "+++ " = true) :
    readMarker s line = some (s.newHeader (headerPath line)) := by
  have head := startsWith_head rfl new
  have space := @not_startsWith line _ " " new (by decide) (by decide)
  have minus := @not_startsWith line _ "-" new (by decide) (by decide)
  have plain : isPlainContent line = false := by
    rw [isPlainContent, space, minus, new]
    simp
  rw [readMarker_eq plain (by rw [head]; decide) (by rw [head]; decide), readHeader, if_pos new,
    if_pos waits]

theorem waits_oldHeader (path : String) : (s.oldHeader path).awaitingNewHeader = true := rfl

theorem Between.oldHeader (between : Between s) (path : String) : Between (s.oldHeader path) :=
  ⟨between.counted, between.remaining, by simp [ParseState.oldHeader]⟩

theorem Between.pair (between : Between s) (settled : s.awaitingNewHeader = false)
    {source target : String} (old : startsWith source "--- " = true)
    (new : startsWith target "+++ " = true) :
    readLines s [source, target] =
      some ((s.oldHeader (headerPath source)).newHeader (headerPath target)) := by
  have first := readMarker_old settled old
  have second := readMarker_new (@waits_oldHeader s (headerPath source)) new
  rw [readLines_cons, between.readLine_eq, first, Option.bind_some, readLines_cons,
    (between.oldHeader _).readLine_eq, second]
  rfl

theorem withFile_fresh {path : String} (fresh : ∀ file ∈ s.files, file.path ≠ path) :
    s.withFile path = { s with
      files := s.files ++ [{ path, movedFrom := none, status := none, hunks := [] }]
      currentFile := some s.files.length } := by
  have absent : s.files.findIdx? (·.path = path) = none := by
    simpa using fresh
  rw [ParseState.withFile, ensureFile, absent]

theorem modify_concat {α : Type} (f : α → α) (items : List α) (last : α) :
    (items ++ [last]).modify items.length f = items ++ [f last] := by
  induction items with
  | nil => rfl
  | cons x rest ih => simp [ih]

theorem withStatus_fresh {path : String} (fresh : ∀ file ∈ s.files, file.path ≠ path)
    (status : DiffFileStatus) :
    (s.withFile path).withStatus status = { s with
      files := s.files ++ [{ path, movedFrom := none, status := some status, hunks := [] }]
      currentFile := some s.files.length } := by
  rw [withFile_fresh fresh, ParseState.withStatus, ParseState.modifyFile]
  dsimp only
  rw [modify_concat]

/-- A file without hunks has been named. -/
theorem reading_settled (between : Between s) {before : List DiffFile} {path : String}
    {status : Option DiffFileStatus}
    (named : t = { s with
      files := before ++ [{ path, movedFrom := none, status, hunks := [] }]
      currentFile := some before.length }) :
    Reading (t.settled .unified) before { path, movedFrom := none, status, hunks := [] } := by
  subst named
  exact ⟨⟨Bool.noConfusion, between.remaining, by simp [ParseState.settled]⟩, rfl, rfl, rfl, rfl⟩

theorem oldHeader_eq {old : String} (known : old ≠ "/dev/null") :
    s.oldHeader old = { s with
      pendingOldPath := some old
      pendingOldIsNull := false
      awaitingNewHeader := true
      dialect := some .unified } := by
  rw [ParseState.oldHeader, if_neg known, decide_eq_false known]

/-- The three header pairs of Git. -/
theorem Between.named (between : Between s) {old new path : String}
    (fresh : ∀ file ∈ s.files, file.path ≠ path) (known : old ≠ "/dev/null")
    (fits : stripPrefix new = path) (other : new ≠ "/dev/null") :
    Reading ((s.oldHeader old).newHeader new) s.files
      { path, movedFrom := none, status := none, hunks := [] } := by
  have present : (s.oldHeader old).pendingOldIsNull = false := decide_eq_false known
  rw [ParseState.newHeader, if_neg other, fits, present, if_neg Bool.false_ne_true]
  exact reading_settled (between.oldHeader old) (withFile_fresh (s := s.oldHeader old) fresh)

theorem Between.added (between : Between s) {new path : String}
    (fresh : ∀ file ∈ s.files, file.path ≠ path) (fits : stripPrefix new = path)
    (other : new ≠ "/dev/null") :
    Reading ((s.oldHeader "/dev/null").newHeader new) s.files
      { path, movedFrom := none, status := some .added, hunks := [] } := by
  rw [ParseState.newHeader, if_neg other, fits]
  have waiting := between.oldHeader "/dev/null"
  have null : (s.oldHeader "/dev/null").pendingOldIsNull = true := rfl
  rw [if_pos null]
  exact reading_settled waiting (withStatus_fresh (s := s.oldHeader _) fresh .added)

theorem Between.deleted (between : Between s) {old path : String}
    (fresh : ∀ file ∈ s.files, file.path ≠ path) (known : old ≠ "/dev/null") (filled : old ≠ "")
    (fits : stripPrefix old = path) :
    Reading ((s.oldHeader old).newHeader "/dev/null") s.files
      { path, movedFrom := none, status := some .deleted, hunks := [] } := by
  have pending : (s.oldHeader old).pendingOldPath = some old := by
    rw [oldHeader_eq known]
  rw [ParseState.newHeader, if_pos rfl, pending]
  dsimp only
  rw [if_neg filled, fits]
  exact reading_settled (between.oldHeader old)
    (withStatus_fresh (s := s.oldHeader old) fresh .deleted)

theorem headerPath_null : headerPath "--- /dev/null" = "/dev/null" ∧
    headerPath "+++ /dev/null" = "/dev/null" := by decide

/-- A header pair names the next file. -/
theorem Between.headers (between : Between s) (settled : s.awaitingNewHeader = false)
    (part : FileDiff) (fresh : ∀ file ∈ s.files, file.path ≠ part.path.text) :
    ∃ t, readLines s ["--- " ++ part.source.text, "+++ " ++ part.target.text] = some t ∧
      Reading t s.files
        { path := part.path.text, movedFrom := none, status := part.change.status, hunks := [] } := by
  refine ⟨_, between.pair settled (by simp [startsWith]) (by simp [startsWith]), ?_⟩
  have onA (path : PlainPath) : headerPath ("--- " ++ headerName "a/" path) = "a/" ++ path.text :=
    headerPath_name rfl rfl (by decide : ecmaSpace 'a' = false) (by decide) path
  have onB (path : PlainPath) : headerPath ("+++ " ++ headerName "b/" path) = "b/" ++ path.text :=
    headerPath_name rfl rfl (by decide : ecmaSpace 'b' = false) (by decide) path
  obtain ⟨path, change, names, extended, hunks⟩ := part
  cases change with
  | modified source =>
    change Reading ((s.oldHeader (headerPath ("--- " ++ headerName "a/" source))).newHeader
      (headerPath ("+++ " ++ headerName "b/" path))) s.files _
    rw [onA, onB]
    exact between.named fresh (side_ne_null (.inl rfl) _) (stripPrefix_side (.inr rfl) _)
      (side_ne_null (.inr rfl) _)
  | added =>
    change Reading ((s.oldHeader (headerPath "--- /dev/null")).newHeader
      (headerPath ("+++ " ++ headerName "b/" path))) s.files _
    rw [headerPath_null.1, onB]
    exact between.added fresh (stripPrefix_side (.inr rfl) _) (side_ne_null (.inr rfl) _)
  | deleted =>
    change Reading ((s.oldHeader (headerPath ("--- " ++ headerName "a/" path))).newHeader
      (headerPath "+++ /dev/null")) s.files _
    rw [headerPath_null.2, onA]
    exact between.deleted fresh (side_ne_null (.inl rfl) _) (by simp)
      (stripPrefix_side (.inl rfl) _)

end Outside

section Inside

variable {s t : ParseState} {before : List DiffFile} {file : DiffFile}

/-- The last hunk of the last file lacks some lines. -/
structure Within (s : ParseState) (before : List DiffFile) (file : DiffFile) (hunk : DiffHunk)
    (old new : Nat) : Prop where
  files : s.files = before ++ [{ file with hunks := file.hunks ++ [hunk] }]
  current : s.currentFile = some before.length
  inHunk : s.currentHunk = true
  counted : s.countedHunk = true
  oldRemaining : s.oldRemaining = old
  newRemaining : s.newRemaining = new
  settled : s.awaitingNewHeader = false
  unified : s.dialect = some .unified

theorem Within.inCounted {hunk : DiffHunk} {old new : Nat} (within : Within s before file hunk old new) :
    s.inCounted = (decide (0 < old) || decide (0 < new)) := by
  rw [ParseState.inCounted, within.inHunk, within.counted, within.oldRemaining,
    within.newRemaining]
  rfl

theorem Within.done {hunk : DiffHunk} (within : Within s before file hunk 0 0) :
    Reading s before { file with hunks := file.hunks ++ [hunk] } :=
  ⟨⟨fun _ => within.counted, ⟨within.oldRemaining, within.newRemaining⟩, by simp [within.unified]⟩,
    within.files, within.current, within.settled, within.unified⟩

theorem pushLast_concat (row : DiffRow) (hunks : List DiffHunk) (hunk : DiffHunk) :
    pushLast row (hunks ++ [hunk]) = hunks ++ [pushRow row hunk] := by
  induction hunks with
  | nil => rfl
  | cons first rest ih =>
    cases rest with
    | nil => rfl
    | cons next rest =>
      rw [List.cons_append, List.cons_append, pushLast, ← List.cons_append, ih]
      · rfl
      · exact List.cons_ne_nil _ _

theorem Within.addRow {hunk : DiffHunk} {old new : Nat} (within : Within s before file hunk old new)
    (kind : DiffRowKind) (text : String) :
    Within (s.addRow kind text) before file (pushRow ⟨kind, text⟩ hunk) old new := by
  have added : s.addRow kind text = { s with
      files := before ++ [{ file with hunks := file.hunks ++ [pushRow ⟨kind, text⟩ hunk] }] } := by
    rw [ParseState.addRow, ParseState.modifyFile, within.current]
    dsimp only
    rw [within.files, modify_concat, pushLast_concat]
  rw [added]
  exact ⟨rfl, within.current, within.inHunk, within.counted, within.oldRemaining,
    within.newRemaining, within.settled, within.unified⟩

theorem Within.remaining {hunk : DiffHunk} {old new old' new' : Nat}
    (within : Within s before file hunk old new) :
    Within { s with oldRemaining := old', newRemaining := new' } before file hunk old' new' :=
  ⟨within.files, within.current, within.inHunk, within.counted, rfl, rfl, within.settled,
    within.unified⟩

theorem slice_mark (kind : DiffRowKind) (text : String) : slice 1 (mark kind ++ text) = text := by
  rw [slice, String.toList_append]
  cases kind <;> exact String.ofList_toList

theorem readCounted_note (text : String) : readCounted s ("\\" ++ text) = some s := by
  simp [readCounted, startsWith]

theorem readCounted_context (text : String) (old : 0 < s.oldRemaining) (new : 0 < s.newRemaining) :
    readCounted s (mark .context ++ text) = some { s.addRow .context text with
      oldRemaining := s.oldRemaining - 1
      newRemaining := s.newRemaining - 1 } := by
  have note : startsWith (mark .context ++ text) "\\" = false := by
    simp [startsWith, mark, List.isPrefixOf_cons_cons]
  have own : startsWith (mark .context ++ text) " " = true := by simp [startsWith, mark]
  rw [readCounted, note, if_neg Bool.false_ne_true, if_pos ⟨own, old, new⟩, slice_mark]

theorem readCounted_removed (text : String) (old : 0 < s.oldRemaining) :
    readCounted s (mark .remove ++ text) = some { s.addRow .remove text with
      oldRemaining := s.oldRemaining - 1 } := by
  have note : startsWith (mark .remove ++ text) "\\" = false := by
    simp [startsWith, mark, List.isPrefixOf_cons_cons]
  have space : startsWith (mark .remove ++ text) " " = false := by
    simp [startsWith, mark, List.isPrefixOf_cons_cons]
  have own : startsWith (mark .remove ++ text) "-" = true := by simp [startsWith, mark]
  rw [readCounted, note, if_neg Bool.false_ne_true, space, if_neg (by simp), if_pos ⟨own, old⟩,
    slice_mark]

theorem readCounted_added (text : String) (new : 0 < s.newRemaining) :
    readCounted s (mark .add ++ text) = some { s.addRow .add text with
      newRemaining := s.newRemaining - 1 } := by
  have note : startsWith (mark .add ++ text) "\\" = false := by
    simp [startsWith, mark, List.isPrefixOf_cons_cons]
  have space : startsWith (mark .add ++ text) " " = false := by
    simp [startsWith, mark, List.isPrefixOf_cons_cons]
  have minus : startsWith (mark .add ++ text) "-" = false := by
    simp [startsWith, mark, List.isPrefixOf_cons_cons]
  have own : startsWith (mark .add ++ text) "+" = true := by simp [startsWith, mark]
  rw [readCounted, note, if_neg Bool.false_ne_true, space, if_neg (by simp), minus,
    if_neg (by simp), if_pos ⟨own, new⟩, slice_mark]

/-- A line of a hunk is one of those that the counts announce, or a note. -/
theorem Within.line {hunk : DiffHunk} (line : HunkLine) (rest : List HunkLine)
    (within : Within s before file hunk ((line :: rest).countP isOld) ((line :: rest).countP isNew)) :
    ∃ t, readLine s line.text = some t ∧
      Within t before file { hunk with rows := hunk.rows ++ (shownRow line).toList }
        (rest.countP isOld) (rest.countP isNew) := by
  have inside := within.inCounted
  have old := within.oldRemaining
  have new := within.newRemaining
  obtain ⟨marker, content⟩ := line
  cases marker with
  | context =>
    rw [List.countP_cons_of_pos (by simp [isOld])] at old inside
    rw [List.countP_cons_of_pos (by simp [isNew])] at new inside
    refine ⟨_, ?_, (within.addRow .context content.text).remaining⟩
    rw [readLine, if_pos (by simp [inside])]
    refine (readCounted_context content.text (by omega) (by omega)).trans ?_
    rw [old, new]
    rfl
  | added =>
    rw [List.countP_cons_of_neg (by simp [isOld])] at old inside
    rw [List.countP_cons_of_pos (by simp [isNew])] at new inside
    refine ⟨{ s.addRow .add content.text with newRemaining := s.newRemaining - 1 }, ?_, ?_⟩
    · rw [readLine, if_pos (by simp [inside])]
      exact readCounted_added content.text (by omega)
    · have grown := within.addRow .add content.text
      rw [List.countP_cons_of_neg (by simp [isOld])] at grown
      refine ⟨grown.files, grown.current, grown.inHunk, grown.counted, grown.oldRemaining, ?_,
        grown.settled, grown.unified⟩
      dsimp only
      omega
  | removed =>
    rw [List.countP_cons_of_pos (by simp [isOld])] at old inside
    rw [List.countP_cons_of_neg (by simp [isNew])] at new inside
    refine ⟨{ s.addRow .remove content.text with oldRemaining := s.oldRemaining - 1 }, ?_, ?_⟩
    · rw [readLine, if_pos (by simp [inside])]
      exact readCounted_removed content.text (by omega)
    · have grown := within.addRow .remove content.text
      rw [List.countP_cons_of_neg (p := isNew) (by simp [isNew])] at grown
      refine ⟨grown.files, grown.current, grown.inHunk, grown.counted, ?_, grown.newRemaining,
        grown.settled, grown.unified⟩
      dsimp only
      omega
  | noNewline =>
    rw [List.countP_cons_of_neg (by simp [isOld])] at within inside
    rw [List.countP_cons_of_neg (by simp [isNew])] at within inside
    have none : (shownRow ⟨.noNewline, content⟩).toList = [] := rfl
    refine ⟨s, ?_, by simpa [none] using within⟩
    -- The note may stand behind the last line that is counted.
    cases lacks : s.inCounted with
    | true =>
      rw [readLine, if_pos lacks]
      exact readCounted_note content.text
    | false =>
      rw [lacks, eq_comm, Bool.or_eq_false_iff, decide_eq_false_iff_not,
        decide_eq_false_iff_not] at inside
      have between : Between s := ⟨fun _ => within.counted,
        ⟨by have := within.oldRemaining; omega, by have := within.newRemaining; omega⟩,
        by simp [within.unified]⟩
      refine between.quiet fun c head known => ?_
      have first : (HunkLine.text ⟨.noNewline, content⟩).toList.head? = some '\\' := by
        simp [HunkLine.text, Marker.text]
      rw [first, Option.mem_some_iff] at head
      subst head
      revert known
      decide

theorem Within.lines {hunk : DiffHunk} (lines : List HunkLine)
    (within : Within s before file hunk (lines.countP isOld) (lines.countP isNew)) :
    ∃ t, readLines s (lines.map HunkLine.text) = some t ∧
      Within t before file { hunk with rows := hunk.rows ++ lines.filterMap shownRow } 0 0 := by
  induction lines generalizing s hunk with
  | nil => exact ⟨s, rfl, by simpa using within⟩
  | cons line rest ih =>
    obtain ⟨u, read, next⟩ := within.line line rest
    obtain ⟨t, run, done⟩ := ih next
    refine ⟨t, ?_, ?_⟩
    · rw [List.map_cons, readLines_cons, read]
      exact run
    · have rows : hunk.rows ++ (shownRow line).toList ++ rest.filterMap shownRow =
          hunk.rows ++ (line :: rest).filterMap shownRow := by
        rw [List.append_assoc, List.filterMap_cons]
        cases shownRow line with
        | none => rfl
        | some row => rfl
      rw [← rows]
      exact done

/-- A whole hunk is read. -/
theorem Reading.hunk (reading : Reading s before file) {hunk : Hunk} (counted : Counted hunk) :
    ∃ t, readLines s (hunk.header :: hunk.lines.map HunkLine.text) = some t ∧
      Reading t before { file with hunks := file.hunks ++ [shownHunk hunk] } := by
  have head : hunk.header.toList.head? = some '@' :=
    parseHunkHeader_start (parseHunkHeader_header hunk)
  have opened : readLine s hunk.header = some { s.openHunk hunk.header with
      countedHunk := true
      oldRemaining := hunk.oldCount
      newRemaining := hunk.newCount } := by
    have apart : ∀ c ∈ hunk.header.toList.head?, c ∉ [' ', '+', '-', 'I', '*'] := by
      intro c own
      rw [head, Option.mem_some_iff] at own
      subst own
      decide
    rw [reading.toBetween.readLine_eq, readHeader_eq apart, readChunk, parseHunkHeader_header]
    dsimp only
    rw [if_neg (by simp [reading.settled, reading.current])]
    rfl
  have within : Within { s.openHunk hunk.header with
      countedHunk := true
      oldRemaining := hunk.oldCount
      newRemaining := hunk.newCount } before file { header := hunk.header, rows := [] }
        (hunk.lines.countP isOld) (hunk.lines.countP isNew) := by
    rw [counted.old, counted.new, ParseState.openHunk, ParseState.modifyFile, reading.current]
    refine ⟨?_, rfl, rfl, rfl, rfl, rfl, reading.settled, reading.unified⟩
    dsimp only
    rw [reading.files, modify_concat]
  obtain ⟨t, run, done⟩ := within.lines
  refine ⟨t, ?_, done.done⟩
  rw [readLines_cons, opened]
  exact run

theorem Reading.hunks (reading : Reading s before file) (hunks : List Hunk)
    (counted : ∀ hunk ∈ hunks, Counted hunk) :
    ∃ t, readLines s (hunks.flatMap fun hunk => hunk.header :: hunk.lines.map HunkLine.text) =
        some t ∧
      Reading t before { file with hunks := file.hunks ++ hunks.map shownHunk } := by
  induction hunks generalizing s file with
  | nil => exact ⟨s, rfl, by simpa using reading⟩
  | cons hunk rest ih =>
    obtain ⟨u, first, next⟩ := reading.hunk (counted hunk List.mem_cons_self)
    obtain ⟨t, later, done⟩ := ih next fun other mem => counted other (List.mem_cons_of_mem _ mem)
    refine ⟨t, ?_, by simpa using done⟩
    rw [List.flatMap_cons, readLines_append, first]
    exact later

end Inside

section Whole

variable {s t : ParseState}

theorem Between.extended (between : Between s) (headers : List (ExtendedKey × Line)) :
    readLines s (headers.map extendedLine) = some s := by
  induction headers with
  | nil => rfl
  | cons header rest ih =>
    have quiet : readLine s (extendedLine header) = some s := by
      refine between.quiet fun c head => ?_
      obtain ⟨key, value⟩ := header
      cases key <;> simp [extendedLine, ExtendedKey.text] at head <;> subst head <;> decide
    rw [List.map_cons, readLines_cons, quiet]
    exact ih

/-- The section of a file adds the file. -/
theorem Between.section_read (between : Between s) (settled : s.awaitingNewHeader = false)
    (part : FileDiff) (fresh : ∀ file ∈ s.files, file.path ≠ part.path.text)
    (counted : ∀ hunk ∈ part.hunks, Counted hunk) :
    ∃ t, readLines s part.diff.lines = some t ∧ Reading t s.files (shownFile part) := by
  have first : readLine s part.diff.firstLine = some s := by
    refine between.quiet fun c head => ?_
    simp [DiffSection.firstLine] at head
    subst head
    decide
  obtain ⟨u, named, reading⟩ := between.headers settled part fresh
  obtain ⟨t, run, done⟩ := reading.hunks part.hunks counted
  refine ⟨t, ?_, by simpa [shownFile] using done⟩
  have lines : part.diff.lines = part.diff.firstLine :: (part.extended.map extendedLine ++
      (["--- " ++ part.source.text, "+++ " ++ part.target.text] ++
        part.hunks.flatMap fun hunk => hunk.header :: hunk.lines.map HunkLine.text)) := rfl
  rw [lines, readLines_cons, first, Option.bind_some, readLines_append, between.extended,
    Option.bind_some, readLines_append, named]
  exact run

theorem Between.sections (between : Between s) (settled : s.awaitingNewHeader = false)
    (parts : List FileDiff)
    (fresh : ∀ part ∈ parts, ∀ file ∈ s.files, file.path ≠ part.path.text)
    (distinct : (parts.map fun part => part.path.text).Nodup)
    (counted : ∀ part ∈ parts, ∀ hunk ∈ part.hunks, Counted hunk) :
    ∃ t, readLines s (parts.flatMap fun part => part.diff.lines) = some t ∧ Between t ∧
      t.awaitingNewHeader = false ∧ t.files = s.files ++ parts.map shownFile := by
  induction parts generalizing s with
  | nil => exact ⟨s, rfl, between, settled, by simp⟩
  | cons part rest ih =>
    rw [List.map_cons, List.nodup_cons] at distinct
    obtain ⟨u, first, reading⟩ := between.section_read settled part
      (fresh part List.mem_cons_self) (counted part List.mem_cons_self)
    obtain ⟨t, later, done, still, files⟩ := ih reading.toBetween reading.settled
      (by
        intro other mem file held
        rw [reading.files, List.mem_append, List.mem_singleton] at held
        rcases held with held | rfl
        · exact fresh other (List.mem_cons_of_mem _ mem) file held
        · intro same
          exact distinct.1 (List.mem_map.mpr ⟨other, mem, same.symm⟩))
      distinct.2 fun other mem => counted other (List.mem_cons_of_mem _ mem)
    refine ⟨t, ?_, done, still, ?_⟩
    · rw [List.flatMap_cons, readLines_append, first]
      exact later
    · rw [files, reading.files, List.map_cons, List.append_assoc]
      rfl

theorem lineFeeds_of_none {text : List Char} (none : '\r' ∉ text) : lineFeeds text = text := by
  induction text with
  | nil => rfl
  | cons c rest ih =>
    rw [List.mem_cons, not_or] at none
    rw [lineFeeds, ih none.2]
    · rintro rest rfl
      exact absurd rfl none.1
    · rintro rfl
      exact none.1 rfl

/-- A hunk with a line of either file has a row. -/
theorem shown_of_hunk {part : FileDiff} {hunk : Hunk} (mem : hunk ∈ part.hunks)
    (counted : Counted hunk) : (shownFile part).shown = true := by
  obtain ⟨line, own, marker⟩ := counted.some
  have filled : (shownHunk hunk).rows ≠ [] := by
    intro empty
    have hidden := List.filterMap_eq_nil_iff.mp empty line own
    cases kind : line.marker with
    | noNewline => exact marker kind
    | context => simp [shownRow, kind] at hidden
    | added => simp [shownRow, kind] at hidden
    | removed => simp [shownRow, kind] at hidden
  have any : (shownFile part).hunks.any (fun hunk => !hunk.rows.isEmpty) = true := by
    rw [List.any_eq_true]
    exact ⟨shownHunk hunk, List.mem_map_of_mem mem, by simpa using filled⟩
  rw [DiffFile.shown, any]
  rfl

/-- The viewer shows a diff of Git as it is. -/
theorem parsePatch_gitDiff {parts : List FileDiff} (formed : WellFormed parts) :
    parsePatch (gitDiff parts) = { files := parts.map shownFile, invalid := false } := by
  have unbroken : ∀ line ∈ parts.flatMap fun part => part.diff.lines, '\n' ∉ line.toList := by
    intro line mem
    obtain ⟨part, _, own⟩ := List.mem_flatMap.mp mem
    exact part.diff.unbroken_lines line own
  have start : Between initial := ⟨Bool.noConfusion, ⟨rfl, rfl⟩, by simp [initial]⟩
  obtain ⟨t, run, between, settled, files⟩ := start.sections rfl parts
    (by simp [initial]) formed.distinct formed.counted
  have lines : patchLines (gitDiff parts) = (parts.flatMap fun part => part.diff.lines) ++ [""] := by
    rw [patchLines, lineFeeds_of_none formed.noReturn, String.ofList_toList, gitDiff,
      split_closed unbroken]
  have last : readLines t [""] = some t := by
    rw [readLines_cons, between.quiet (by simp)]
    rfl
  have done : t.complete = true := by
    simp [ParseState.complete, between.remaining, settled]
  have shown : ∀ part ∈ parts, (shownFile part).shown = true := by
    intro part mem
    obtain ⟨hunk, own⟩ := List.exists_mem_of_ne_nil _ (formed.hunks part mem)
    exact shown_of_hunk own (formed.counted part mem hunk own)
  rw [parsePatch, lines, readLines_append, run, Option.bind_some, last]
  dsimp only
  rw [if_pos done, files, List.filter_eq_self.mpr]
  · rfl
  · intro file mem
    obtain ⟨part, own, rfl⟩ := List.mem_map.mp mem
    exact shown part own

end Whole

/-- A removal that looks like a header, and an added line without a line feed. -/
def notesDiff : FileDiff where
  path := ⟨"doc notes", by decide, by decide, by decide⟩
  change := .modified ⟨"doc notes", by decide, by decide, by decide⟩
  names := ⟨"a/doc notes b/doc notes", by decide⟩
  extended := [(.index, ⟨"1..2 100644", by decide⟩)]
  hunks := [
    { oldStart := 1, oldCount := 1, newStart := 1, newCount := 1, heading := ⟨"", unbroken_empty⟩,
      lines := [⟨.removed, ⟨"-- old", by decide⟩⟩, ⟨.added, ⟨"newer", by decide⟩⟩,
        ⟨.noNewline, ⟨" No newline at end of file", by decide⟩⟩] }]

theorem notes_wellFormed : WellFormed [notesDiff] where
  distinct := by simp
  hunks := by simp [notesDiff]
  counted := by
    intro part mem hunk own
    rw [List.mem_singleton] at mem
    subst mem
    rw [notesDiff, List.mem_singleton] at own
    subst own
    exact ⟨by decide, by decide, ⟨_, List.mem_cons_self, by decide⟩⟩
  noReturn := by decide +kernel

end DiffRoundTrips
