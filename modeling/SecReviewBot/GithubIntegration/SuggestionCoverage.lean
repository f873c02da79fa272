import Mathlib.Data.List.TakeWhile
import SecReviewBot.GithubIntegration.PatchParsing
import SecReviewBot.GithubIntegration.SuggestionRuns

/-!
# Which runs are lost

A run of a mitigation patch becomes a candidate or is reported with its file or hunk. The
pipeline drops a run without a word when it adds blank lines only or has no line to be
anchored to, as long as another run of its hunk is shown.
-/

namespace SuggestionCoverage

open TextCodecs TextPieces GroupedSums PatchParsing
open SuggestionAnchors SuggestionService SuggestionRuns

variable {file : WorkspacePatchFile} {hunk : WorkspaceHunk} {run : Run}

/-- A line of a hunk starts with its marker and is one line. -/
def Marked (line : String) : Prop := isHunkLine line = true ∧ '\n' ∉ line.toList

def HunkLines (files : List WorkspacePatchFile) : Prop :=
  ∀ file ∈ files, ∀ hunk ∈ file.hunks, ∀ line ∈ hunk.lines, Marked line

theorem mem_updateLast {α : Type} {f : α → α} {items : List α} {x : α}
    (mem : x ∈ updateLast f items) : x ∈ items ∨ ∃ y ∈ items, x = f y := by
  induction items with
  | nil => cases mem
  | cons first rest ih =>
    cases rest with
    | nil => exact .inr ⟨first, List.mem_cons_self, List.mem_singleton.mp mem⟩
    | cons next later =>
      rcases List.mem_cons.mp mem with rfl | mem
      · exact .inl List.mem_cons_self
      · rcases ih mem with mem | ⟨y, mem, eq⟩
        · exact .inl (List.mem_cons_of_mem _ mem)
        · exact .inr ⟨y, List.mem_cons_of_mem _ mem, eq⟩

/-- A change of the last file keeps the lines when it keeps those of one file. -/
theorem hunkLines_updateLast {files : List WorkspacePatchFile}
    {f : WorkspacePatchFile → WorkspacePatchFile} (lines : HunkLines files)
    (keeps : ∀ file ∈ files, HunkLines [f file]) : HunkLines (updateLast f files) := by
  intro file mem
  rcases mem_updateLast mem with held | ⟨y, held, rfl⟩
  · exact lines file held
  · exact keeps y held _ List.mem_cons_self

theorem hunkLines_addLine {line : String} (own : Marked line)
    (lines : HunkLines [file]) : HunkLines [addLine line file] := by
  intro changed mem hunk inside
  obtain rfl := List.mem_singleton.mp mem
  rcases mem_updateLast inside with held | ⟨before, held, rfl⟩
  · exact lines file List.mem_cons_self hunk held
  · intro other within
    rcases List.mem_append.mp within with earlier | last
    · exact lines file List.mem_cons_self before held other earlier
    · rw [List.mem_singleton.mp last]
      exact own

theorem hunkLines_addHunk {header : HunkHeader} (lines : HunkLines [file]) :
    HunkLines [addHunk header file] := by
  intro changed mem hunk inside
  obtain rfl := List.mem_singleton.mp mem
  rcases List.mem_append.mp inside with inside | last
  · exact lines file List.mem_cons_self hunk inside
  · rw [List.mem_singleton.mp last]
    simp

theorem hunkLines_scanLine {scan : PatchScan} (lines : HunkLines scan.files) {line : String}
    (single : '\n' ∉ line.toList) : HunkLines (scanLine scan line).files := by
  have own : ∀ file ∈ scan.files, HunkLines [file] := by
    intro file mem other only
    obtain rfl := List.mem_singleton.mp only
    exact lines other mem
  rw [scanLine]
  split
  · intro file mem
    rcases List.mem_append.mp mem with mem | last
    · exact lines file mem
    · rw [List.mem_singleton.mp last]
      simp
  · split
    · exact lines
    · split
      · refine hunkLines_updateLast lines fun file mem changed only => ?_
        obtain rfl := List.mem_singleton.mp only
        rw [withDestination_hunks]
        exact lines file mem
      · split
        · split
          · exact lines
          · exact hunkLines_updateLast lines fun file mem => hunkLines_addHunk (own file mem)
        · split
          · next shown =>
            simp only [Bool.and_eq_true] at shown
            exact hunkLines_updateLast lines fun file mem =>
              hunkLines_addLine ⟨shown.2, single⟩ (own file mem)
          · exact lines

theorem hunkLines_parse (patchContent : String) : HunkLines (parseWorkspacePatch patchContent) := by
  rw [parseWorkspacePatch]
  have start : HunkLines ({ files := [], inHunk := false } : PatchScan).files := by
    intro file mem
    cases mem
  have single : ∀ line ∈ split '\n' patchContent, '\n' ∉ line.toList := not_mem_split _
  generalize ({ files := [], inHunk := false } : PatchScan) = scan at start ⊢
  generalize split '\n' patchContent = texts at single ⊢
  induction texts generalizing scan with
  | nil => exact start
  | cons line rest ih =>
    have first := single line List.mem_cons_self
    exact ih _ (hunkLines_scanLine start first) fun other mem =>
      single other (List.mem_cons_of_mem _ mem)

/-- Among the lines of a hunk those that do not change the file are context. -/
theorem isContext_of_kept {line : Numbered} (own : isHunkLine line.2 = true)
    (kept : isChange line = false) : isContext line = true := by
  simp only [isHunkLine, Bool.or_eq_true, isChange, isAdded, isRemoved, Bool.or_eq_false_iff,
    isContext] at own kept ⊢
  rcases own with (context | added) | removed
  · exact context
  · rw [kept.1] at added
    cases added
  · rw [kept.2] at removed
    cases removed

/-- Some line the run adds is not blank. -/
def HasText (run : Run) : Prop := ∃ text ∈ plusLines run, ∃ c ∈ text.toList, ecmaSpace c = false

theorem trimEnd_eq_empty_iff (text : String) :
    trimEnd text = "" ↔ ∀ c ∈ text.toList, ecmaSpace c = true := by
  rw [trimEnd, ← String.toList_inj, String.toList_ofList, String.toList_empty,
    List.reverse_eq_nil_iff, List.dropWhile_eq_nil_iff]
  simp

theorem spaces_join_iff (pieces : List String) :
    (∀ c ∈ (join '\n' pieces).toList, ecmaSpace c = true) ↔
      ∀ piece ∈ pieces, ∀ c ∈ piece.toList, ecmaSpace c = true := by
  have feed : ecmaSpace '\n' = true := by decide
  simp only [join, String.toList_ofList]
  induction pieces with
  | nil => simp
  | cons piece rest ih =>
    cases rest with
    | nil => simp
    | cons next rest =>
      rw [List.map_cons, List.intercalate_cons_of_ne_nil (by simp), List.append_assoc,
        List.singleton_append, List.forall_mem_append, List.forall_mem_cons,
        List.forall_mem_cons]
      refine and_congr_right fun _ => ?_
      exact ⟨fun spaces => ih.mp spaces.2, fun spaces => ⟨feed, ih.mpr spaces⟩⟩

theorem core_ne_empty_iff (run : Run) : core run ≠ "" ↔ HasText run := by
  rw [core, ne_eq, trimEnd_eq_empty_iff, spaces_join_iff, HasText]
  simp

/-- The last line the run replaces, or the line in front of which it inserts. -/
def lastLine (run : Run) : Nat := insertionLine run + (removedCount run - 1)

/-- The number of the context line that the suggestion of an insertion repeats. -/
def anchorLine (run : Run) : Option Nat :=
  ((run.after.find? isContext).or (run.before.reverse.find? isContext)).map Prod.fst

/-- The lines a run removes, or the line an insertion is anchored to. -/
def ownLines (run : Run) : List Nat :=
  if (minusLineNumbers run).isEmpty then (anchorLine run).toList else minusLineNumbers run

/-- The run gets a block of suggestions. -/
structure Shown (run : Run) : Prop where
  text : plusLines run = [] ∨ HasText run
  numbered : 0 < insertionLine run
  anchored : removedCount run = 0 → ∃ line ∈ run.before ++ run.after, isContext line = true

/-- The run gets a block, on the lines it is about. -/
structure Suggestible (run : Run) : Prop where
  text : plusLines run = [] ∨ HasText run
  numbered : 0 < insertionLine run
  followed : removedCount run = 0 → run.after ≠ []

theorem anchoredReplacement_isSome_iff (run : Run) (text : String) :
    (anchoredReplacement run text).isSome = true ↔
      ∃ line ∈ run.before ++ run.after, isContext line = true := by
  rw [anchoredReplacement]
  split
  · next line found =>
    have context := List.find?_some found
    have mem := List.mem_of_find?_eq_some found
    exact ⟨fun _ => ⟨line, List.mem_append_right _ mem, context⟩, fun _ => rfl⟩
  · next missing =>
    rw [Option.isSome_map, List.find?_isSome]
    rw [List.find?_eq_none] at missing
    constructor
    · rintro ⟨line, mem, context⟩
      exact ⟨line, List.mem_append_left _ (List.mem_reverse.mp mem), context⟩
    · rintro ⟨line, mem, context⟩
      rcases List.mem_append.mp mem with earlier | later
      · exact ⟨line, List.mem_reverse.mpr earlier, context⟩
      · exact absurd context (missing line later)

theorem number_lt {cursor : Nat} {texts : List String} {line : Numbered}
    (mem : line ∈ numberLines cursor texts) (context : isContext line = true) :
    line.1 < cursor + advances texts := by
  induction texts generalizing cursor with
  | nil => cases mem
  | cons text later ih =>
    rw [numberLines_cons] at mem
    rw [advances, sumOf]
    rcases List.mem_cons.mp mem with rfl | mem
    · have one : advance text = 1 := by
        rw [advance, show startsWith text " " = true from context]
        rfl
      omega
    · have earlier := ih mem
      rw [advances] at earlier
      omega

section Lying

variable {cursor : Nat} {texts : List String} {candidate : WorkspaceSuggestionBlock}

theorem suggestionBlock_isSome_iff (lies : Lies (numberLines cursor texts) run) :
    (∃ candidate, suggestionBlock run = some candidate) ↔ Shown run := by
  rw [← Option.isSome_iff_exists]
  rcases Nat.eq_zero_or_pos (removedCount run) with none_removed | some_removed
  · rw [suggestionBlock_plus lies none_removed]
    have adds := lies.adds none_removed
    constructor
    · intro shown
      split at shown
      · next own =>
        rw [Option.isSome_map, anchoredReplacement_isSome_iff] at shown
        exact ⟨.inr ((core_ne_empty_iff run).mp own.1), own.2, fun _ => shown⟩
      · cases shown
    · rintro ⟨text, numbered, anchored⟩
      have own : core run ≠ "" := (core_ne_empty_iff run).mpr (text.resolve_left adds)
      rw [if_pos ⟨own, numbered⟩, Option.isSome_map, anchoredReplacement_isSome_iff]
      exact anchored none_removed
  · rw [suggestionBlock_minus lies some_removed]
    constructor
    · intro shown
      split at shown
      · next own =>
        exact ⟨own.2.imp_right (core_ne_empty_iff run).mp, own.1, fun none_removed => by omega⟩
      · cases shown
    · rintro ⟨text, numbered, _⟩
      rw [if_pos ⟨numbered, text.imp_right (core_ne_empty_iff run).mpr⟩]
      rfl

theorem suggestionBlock_range (lies : Lies (numberLines cursor texts) run)
    (shown : suggestionBlock run = some candidate) :
    candidate.startLine = insertionLine run ∧ candidate.line = lastLine run := by
  rcases Nat.eq_zero_or_pos (removedCount run) with none_removed | some_removed
  · rw [suggestionBlock_plus lies none_removed] at shown
    split at shown
    · obtain ⟨replacement, _, rfl⟩ := Option.map_eq_some_iff.mp shown
      rw [lastLine, none_removed]
      exact ⟨rfl, rfl⟩
    · cases shown
  · rw [suggestionBlock_minus lies some_removed] at shown
    split at shown
    · cases shown
      have last : insertionLine run + removedCount run - 1 = lastLine run := by
        rw [lastLine]
        omega
      exact ⟨rfl, last⟩
    · cases shown

/-- The places in front of a run come before its own. -/
theorem number_before_lt (lies : Lies (numberLines cursor texts) run) {line : Numbered}
    (mem : line ∈ run.before) (context : isContext line = true) : line.1 < insertionLine run := by
  rw [lies.insertionLine_eq]
  rw [(numberLines_split lies.whole).1] at mem
  exact number_lt mem context

/-- What follows a run starts with a context line. -/
theorem context_follows (lies : Lies (numberLines cursor texts) run)
    (own : ∀ text ∈ texts, Marked text) (followed : run.after ≠ []) :
    ∃ line rest, run.after = line :: rest ∧ isContext line = true := by
  cases after : run.after with
  | nil => exact absurd after followed
  | cons line rest =>
    have mem : line ∈ numberLines cursor texts := by
      rw [lies.whole, after]
      simp
    have text : line.2 ∈ texts := by
      rw [← numberLines_snd cursor texts]
      exact List.mem_map_of_mem mem
    exact ⟨line, rest, rfl, isContext_of_kept (own _ text).1 (lies.stops line (by simp [after]))⟩

/-- An insertion that something follows is anchored at its own place. -/
theorem anchorLine_of_followed (lies : Lies (numberLines cursor texts) run)
    (own : ∀ text ∈ texts, Marked text) (none_removed : removedCount run = 0)
    (followed : run.after ≠ []) : anchorLine run = some (insertionLine run) := by
  have numbered := lies.after_numbered
  obtain ⟨line, rest, after, context⟩ := context_follows lies own followed
  rw [none_removed, Nat.add_zero, after, List.map_cons, numberLines_cons, List.cons.injEq]
    at numbered
  rw [anchorLine, after, List.find?_cons_of_pos context, Option.some_or, Option.map_some,
    numbered.1]

theorem shown_of_suggestible (lies : Lies (numberLines cursor texts) run)
    (own : ∀ text ∈ texts, Marked text) (suggestible : Suggestible run) :
    Shown run := by
  refine ⟨suggestible.text, suggestible.numbered, fun none_removed => ?_⟩
  obtain ⟨line, rest, after, context⟩ :=
    context_follows lies own (suggestible.followed none_removed)
  exact ⟨line, by simp [after], context⟩

theorem anchorLine_lt (lies : Lies (numberLines cursor texts) run) (last : run.after = [])
    {n : Nat} (anchored : anchorLine run = some n) : n < insertionLine run := by
  rw [anchorLine, last, List.find?_nil, Option.none_or, Option.map_eq_some_iff] at anchored
  obtain ⟨line, found, rfl⟩ := anchored
  exact number_before_lt lies (List.mem_reverse.mp (List.mem_of_find?_eq_some found))
    (List.find?_some found)

/-- What a candidate for a run covers has a line of the run. -/
theorem meets_of_suggestible (lies : Lies (numberLines cursor texts) run)
    (own : ∀ text ∈ texts, Marked text) (suggestible : Suggestible run)
    {start stop : Nat} (low : insertionLine run ≤ start) (order : start ≤ stop)
    (high : stop ≤ lastLine run) : ∃ n ∈ ownLines run, start ≤ n ∧ n ≤ stop := by
  rw [lastLine] at high
  have minus := lies.minus
  rcases Nat.eq_zero_or_pos (removedCount run) with none_removed | some_removed
  · have anchored :=
      anchorLine_of_followed lies own none_removed (suggestible.followed none_removed)
    rw [none_removed] at minus
    refine ⟨insertionLine run, ?_, by omega, by omega⟩
    simp [ownLines, minus, anchored]
  · refine ⟨start, ?_, by omega, order⟩
    have some_minus : (minusLineNumbers run).isEmpty = false := by
      rw [minus, List.isEmpty_eq_false_iff_exists_mem]
      exact ⟨insertionLine run, List.mem_range'_1.mpr ⟨Nat.le_refl _, by omega⟩⟩
    rw [ownLines, some_minus, if_neg Bool.false_ne_true, minus, List.mem_range'_1]
    omega

theorem suggestible_of_meets (lies : Lies (numberLines cursor texts) run) (shown : Shown run)
    {start stop n : Nat} (low : insertionLine run ≤ start) (mem : n ∈ ownLines run)
    (meets : start ≤ n ∧ n ≤ stop) : Suggestible run := by
  refine ⟨shown.text, shown.numbered, fun none_removed last => ?_⟩
  have minus := lies.minus
  rw [none_removed] at minus
  rw [ownLines, minus, List.range'_zero, List.isEmpty_nil, if_pos rfl, Option.mem_toList] at mem
  have before := anchorLine_lt lies last mem
  omega

end Lying

/-- A hunk of the pull request shows one of the lines of a block of the run. -/
def Overlaps (run : Run) (prHunk : HunkHeader) : Prop :=
  0 < prHunk.newStart ∧ 0 < prHunk.newCount ∧
    insertionLine run ≤ prHunk.newStart + prHunk.newCount - 1 ∧ prHunk.newStart ≤ lastLine run

theorem toLineRange_eq_some_iff {start count : Nat} {range : LineRange} :
    toLineRange start count = some range ↔
      0 < start ∧ 0 < count ∧ range = { start, stop := start + count - 1 } := by
  rw [toLineRange]
  split
  · next empty =>
    simp only [false_iff, reduceCtorEq]
    omega
  · next positive =>
    rw [Option.some_inj]
    constructor
    · rintro rfl
      exact ⟨by omega, by omega, rfl⟩
    · rintro ⟨_, _, rfl⟩
      rfl

section Anchoring

variable {shown : WorkspaceSuggestionBlock} {prHunks : List HunkHeader} {prHunk : HunkHeader}

/-- The range of the block of a run. -/
structure Covers (shown : WorkspaceSuggestionBlock) (run : Run) : Prop where
  start : shown.startLine = insertionLine run
  line : shown.line = lastLine run
  numbered : 0 < insertionLine run

theorem Covers.lineRange (covers : Covers shown run) :
    toLineRange shown.startLine (shown.line - shown.startLine + 1) =
      some { start := insertionLine run, stop := lastLine run } := by
  rw [toLineRange_eq_some_iff, covers.start, covers.line, LineRange.mk.injEq, lastLine]
  have positive := covers.numbered
  omega

theorem overlapsHunk_iff :
    overlapsHunk { start := insertionLine run, stop := lastLine run } prHunk = true ↔
      Overlaps run prHunk := by
  rw [overlapsHunk, Overlaps]
  split
  · next empty =>
    rw [toLineRange] at empty
    split at empty
    · simp only [false_iff, reduceCtorEq]
      omega
    · cases empty
  · next range found =>
    obtain ⟨start, count, rfl⟩ := toLineRange_eq_some_iff.mp found
    simp only [rangesOverlap, Bool.and_eq_true, decide_eq_true_eq]
    omega

theorem blockOutcomes_unanchored {path : String} (covers : Covers shown run)
    (apart : ∀ prHunk ∈ prHunks, ¬ Overlaps run prHunk) :
    ∃ skipReason reason, blockOutcomes path prHunks hunk shown =
      [unmappedHunk path hunk reason skipReason] := by
  have missing : findAnchoringHunkForBlock shown prHunks = none := by
    simp only [findAnchoringHunkForBlock, covers.lineRange, List.find?_eq_none, overlapsHunk_iff]
    exact apart
  rw [blockOutcomes, missing]
  exact ⟨_, _, rfl⟩

theorem blockOutcomes_anchored {path : String} (covers : Covers shown run)
    (mem : prHunk ∈ prHunks) (overlaps : Overlaps run prHunk) :
    ∃ candidate, blockOutcomes path prHunks hunk shown = [.candidate candidate] ∧
      candidate.path = path ∧ candidate.replacement = shown.replacement ∧
      insertionLine run ≤ candidate.startLine ∧ candidate.startLine ≤ candidate.line ∧
      candidate.line ≤ lastLine run := by
  have found : (findAnchoringHunkForBlock shown prHunks).isSome = true := by
    simp only [findAnchoringHunkForBlock, covers.lineRange, List.find?_isSome, overlapsHunk_iff]
    exact ⟨prHunk, mem, overlaps⟩
  obtain ⟨anchoring, found⟩ := Option.isSome_iff_exists.mp found
  rw [blockOutcomes, found]
  simp only [findAnchoringHunkForBlock, covers.lineRange] at found
  obtain ⟨newStart, newCount, low, high⟩ := overlapsHunk_iff.mp (List.find?_some found)
  simp only [toLineRange_eq_some_iff.mpr ⟨newStart, newCount, rfl⟩, covers.start, covers.line]
  have order : insertionLine run ≤ lastLine run := Nat.le_add_right _ _
  rw [if_neg (by omega)]
  refine ⟨_, rfl, rfl, rfl, ?_, ?_, ?_⟩ <;> simp only <;> omega

end Anchoring

/-- The candidate stands for the run. -/
structure Represents (candidate : SuggestionCandidate) (file : WorkspacePatchFile) (run : Run) :
    Prop where
  path : candidate.path = file.path
  text : ∃ shown, suggestionBlock run = some shown ∧ candidate.replacement = shown.replacement
  within : insertionLine run ≤ candidate.startLine ∧ candidate.line ≤ lastLine run
  meets : ∃ n ∈ ownLines run, candidate.startLine ≤ n ∧ n ≤ candidate.line

/-- The file or the hunk is listed as unmapped. -/
def Listed (manifest : SuggestionManifest) (file : WorkspacePatchFile) (hunk : WorkspaceHunk) :
    Prop :=
  ∃ change ∈ manifest.unmappedChanges, change.path = file.path ∧
    (change.hunk = none ∨ change.hunk = some (hunk.header.newStart, hunk.header.newCount))

/-- No run of any hunk of the patch is lost. -/
def NoRunLost (patchContent : String) (files : List PullRequestFile) : Prop :=
  ∀ file ∈ parseWorkspacePatch patchContent, ∀ hunk ∈ file.hunks, ∀ run ∈ runsOf hunk,
    (∃ candidate ∈ (buildSuggestionManifest patchContent files true).candidates,
      Represents candidate file run) ∨
    Listed (buildSuggestionManifest patchContent files true) file hunk

/-- The hunks of the pull request that changes of the file may be anchored to. -/
def prHunksOf (files : List PullRequestFile) (file : WorkspacePatchFile) : List HunkHeader :=
  ((visiblePatch files file.path).map parsePatchHunks).getD []

/-- Nothing of the file can be suggested. -/
def Skipped (files : List PullRequestFile) (file : WorkspacePatchFile) : Prop :=
  file.pathError ≠ none ∨ prHunksOf files file = []

/-- No run of the hunk is shown, or one that is shown lies outside the pull request. -/
def Reported (prHunks : List HunkHeader) (hunk : WorkspaceHunk) : Prop :=
  (∀ run ∈ runsOf hunk, ¬ Shown run) ∨
    ∃ run ∈ runsOf hunk, Shown run ∧ ∀ prHunk ∈ prHunks, ¬ Overlaps run prHunk

theorem fileOutcomes_skipped {files : List PullRequestFile} (skipped : Skipped files file) :
    ∃ skipReason reason, fileOutcomes files file = [unmappedFile file.path reason skipReason] := by
  rw [fileOutcomes]
  split
  · exact ⟨_, _, rfl⟩
  · next readable =>
    split
    · exact ⟨_, _, rfl⟩
    · next patch visible =>
      have empty := skipped.resolve_left (not_not.mpr readable)
      rw [prHunksOf, visible, Option.map_some, Option.getD_some] at empty
      simp only [empty, List.length_nil, if_true]
      exact ⟨_, _, rfl⟩

theorem fileOutcomes_open {files : List PullRequestFile} (suggested : ¬ Skipped files file) :
    fileOutcomes files file =
      file.hunks.flatMap (hunkOutcomes file.path (prHunksOf files file)) := by
  simp only [Skipped, not_or, not_not] at suggested
  obtain ⟨readable, some_hunks⟩ := suggested
  rw [fileOutcomes, readable]
  cases visible : visiblePatch files file.path with
  | none => simp [prHunksOf, visible] at some_hunks
  | some patch =>
    simp only [prHunksOf, visible, Option.map_some, Option.getD_some] at some_hunks ⊢
    rw [if_neg (by simpa using some_hunks)]

theorem covers_of_shown {shown : WorkspaceSuggestionBlock} (mem : run ∈ runsOf hunk)
    (eq : suggestionBlock run = some shown) : Covers shown run := by
  have lies := runsOf_lies mem
  have range := suggestionBlock_range lies eq
  exact ⟨range.1, range.2, ((suggestionBlock_isSome_iff lies).mp ⟨shown, eq⟩).numbered⟩

theorem blocks_eq_nil_iff (hunk : WorkspaceHunk) :
    splitWorkspaceHunkIntoSuggestionBlocks hunk = [] ↔ ∀ run ∈ runsOf hunk, ¬ Shown run := by
  rw [splitWorkspaceHunkIntoSuggestionBlocks, List.filterMap_eq_nil_iff]
  refine forall₂_congr fun run mem => ?_
  rw [← suggestionBlock_isSome_iff (runsOf_lies mem), Option.eq_none_iff_forall_ne_some]
  simp

section HunkOutcomes

variable {path : String} {prHunks : List HunkHeader}

theorem reported_of_unmapped {outcome : Outcome} {change : UnmappedSuggestionChange}
    (mem : outcome ∈ hunkOutcomes path prHunks hunk) (unmapped : unmappedOf outcome = some change) :
    Reported prHunks hunk ∧ change.path = path ∧
      change.hunk = some (hunk.header.newStart, hunk.header.newCount) := by
  simp only [hunkOutcomes, List.isEmpty_iff] at mem
  split at mem
  · next empty =>
    obtain rfl := List.mem_singleton.mp mem
    cases unmapped
    exact ⟨.inl ((blocks_eq_nil_iff hunk).mp empty), rfl, rfl⟩
  · obtain ⟨shown, inside, mem⟩ := List.mem_flatMap.mp mem
    obtain ⟨run, own, eq⟩ := List.mem_filterMap.mp inside
    have covers := covers_of_shown own eq
    have shows := (suggestionBlock_isSome_iff (runsOf_lies own)).mp ⟨shown, eq⟩
    by_cases overlapped : ∃ prHunk ∈ prHunks, Overlaps run prHunk
    · obtain ⟨prHunk, some_hunk, overlaps⟩ := overlapped
      obtain ⟨candidate, outcomes, _⟩ := blockOutcomes_anchored covers some_hunk overlaps
      rw [outcomes] at mem
      obtain rfl := List.mem_singleton.mp mem
      cases unmapped
    · have apart : ∀ prHunk ∈ prHunks, ¬ Overlaps run prHunk := by
        intro prHunk some_hunk overlaps
        exact overlapped ⟨prHunk, some_hunk, overlaps⟩
      obtain ⟨skipReason, reason, outcomes⟩ := blockOutcomes_unanchored covers apart
      rw [outcomes] at mem
      obtain rfl := List.mem_singleton.mp mem
      cases unmapped
      exact ⟨.inr ⟨run, own, shows, apart⟩, rfl, rfl⟩

theorem unmapped_of_reported (reported : Reported prHunks hunk) :
    ∃ reason skipReason,
      unmappedHunk path hunk reason skipReason ∈ hunkOutcomes path prHunks hunk := by
  simp only [hunkOutcomes, List.isEmpty_iff]
  rcases reported with hidden | ⟨run, own, shows, apart⟩
  · rw [if_pos ((blocks_eq_nil_iff hunk).mpr hidden)]
    exact ⟨_, _, List.mem_singleton_self _⟩
  · obtain ⟨shown, eq⟩ := (suggestionBlock_isSome_iff (runsOf_lies own)).mpr shows
    have inside : shown ∈ splitWorkspaceHunkIntoSuggestionBlocks hunk :=
      List.mem_filterMap.mpr ⟨run, own, eq⟩
    obtain ⟨skipReason, reason, outcomes⟩ : ∃ skipReason reason,
        blockOutcomes path prHunks hunk shown = [unmappedHunk path hunk reason skipReason] :=
      blockOutcomes_unanchored (covers_of_shown own eq) apart
    rw [if_neg (List.ne_nil_of_mem inside)]
    refine ⟨reason, skipReason, List.mem_flatMap.mpr ⟨shown, inside, ?_⟩⟩
    rw [outcomes]
    exact List.mem_singleton_self _

theorem candidate_of_overlaps {prHunk : HunkHeader} (own : run ∈ runsOf hunk) (shows : Shown run)
    (mem : prHunk ∈ prHunks) (overlaps : Overlaps run prHunk) :
    ∃ candidate shown, .candidate candidate ∈ hunkOutcomes path prHunks hunk ∧
      suggestionBlock run = some shown ∧ candidate.path = path ∧
      candidate.replacement = shown.replacement ∧
      insertionLine run ≤ candidate.startLine ∧ candidate.startLine ≤ candidate.line ∧
      candidate.line ≤ lastLine run := by
  obtain ⟨shown, eq⟩ := (suggestionBlock_isSome_iff (runsOf_lies own)).mpr shows
  have inside : shown ∈ splitWorkspaceHunkIntoSuggestionBlocks hunk :=
    List.mem_filterMap.mpr ⟨run, own, eq⟩
  obtain ⟨candidate, outcomes, stands⟩ :=
    (blockOutcomes_anchored (covers_of_shown own eq) mem overlaps :
      ∃ candidate, blockOutcomes path prHunks hunk shown = [.candidate candidate] ∧ _)
  refine ⟨candidate, shown, ?_, eq, stands⟩
  simp only [hunkOutcomes, List.isEmpty_iff]
  rw [if_neg (List.ne_nil_of_mem inside)]
  refine List.mem_flatMap.mpr ⟨shown, inside, ?_⟩
  rw [outcomes]
  exact List.mem_singleton_self _

end HunkOutcomes

section Manifests

variable {patchContent : String} {files : List PullRequestFile}

theorem mem_candidates_iff {candidate : SuggestionCandidate} :
    candidate ∈ (buildSuggestionManifest patchContent files true).candidates ↔
      ∃ other ∈ parseWorkspacePatch patchContent,
        .candidate candidate ∈ fileOutcomes files other := by
  have candidates : (buildSuggestionManifest patchContent files true).candidates =
      ((parseWorkspacePatch patchContent).flatMap (fileOutcomes files)).filterMap candidateOf := by
    rw [buildSuggestionManifest]
    split
    · next empty =>
      simp only [Bool.not_true, Bool.false_or, List.isEmpty_iff] at empty
      rw [empty]
      rfl
    · rfl
  simp only [candidates, List.mem_filterMap, List.mem_flatMap]
  constructor
  · rintro ⟨outcome, ⟨other, mem, inside⟩, own⟩
    cases outcome with
    | candidate value =>
      cases own
      exact ⟨other, mem, inside⟩
    | unmapped skipReason change => cases own
  · rintro ⟨other, mem, inside⟩
    exact ⟨_, ⟨other, mem, inside⟩, rfl⟩

theorem mem_unmappedChanges_iff {change : UnmappedSuggestionChange} :
    change ∈ (buildSuggestionManifest patchContent files true).unmappedChanges ↔
      ∃ other ∈ parseWorkspacePatch patchContent, ∃ outcome ∈ fileOutcomes files other,
        unmappedOf outcome = some change := by
  have unmapped : (buildSuggestionManifest patchContent files true).unmappedChanges =
      ((parseWorkspacePatch patchContent).flatMap (fileOutcomes files)).filterMap unmappedOf := by
    rw [buildSuggestionManifest]
    split
    · next empty =>
      simp only [Bool.not_true, Bool.false_or, List.isEmpty_iff] at empty
      rw [empty]
      rfl
    · rfl
  simp only [unmapped, List.mem_filterMap, List.mem_flatMap]
  constructor
  · rintro ⟨outcome, ⟨other, mem, inside⟩, own⟩
    exact ⟨other, mem, outcome, inside, own⟩
  · rintro ⟨other, mem, outcome, inside, own⟩
    exact ⟨outcome, ⟨other, mem, inside⟩, own⟩

/-- What the sections of the patch report for a hunk of a file. -/
def SectionReports (files : List PullRequestFile) (file : WorkspacePatchFile)
    (hunk : WorkspaceHunk) (other : WorkspacePatchFile) : Prop :=
  other.path = file.path ∧
    (Skipped files other ∨ ∃ same ∈ other.hunks,
      (same.header.newStart, same.header.newCount) =
        (hunk.header.newStart, hunk.header.newCount) ∧ Reported (prHunksOf files other) same)

theorem listed_iff : Listed (buildSuggestionManifest patchContent files true) file hunk ↔
    ∃ other ∈ parseWorkspacePatch patchContent, SectionReports files file hunk other := by
  constructor
  · rintro ⟨change, mem, path, place⟩
    obtain ⟨other, own, outcome, inside, unmapped⟩ := mem_unmappedChanges_iff.mp mem
    by_cases skipped : Skipped files other
    · obtain ⟨skipReason, reason, outcomes⟩ := fileOutcomes_skipped skipped
      rw [outcomes] at inside
      obtain rfl := List.mem_singleton.mp inside
      cases unmapped
      exact ⟨other, own, path, .inl skipped⟩
    · rw [fileOutcomes_open skipped] at inside
      obtain ⟨same, held, inside⟩ := List.mem_flatMap.mp inside
      obtain ⟨reported, otherPath, range⟩ := reported_of_unmapped inside unmapped
      rw [range] at place
      have equal := place.resolve_left (by simp)
      exact ⟨other, own, otherPath.symm.trans path,
        .inr ⟨same, held, Option.some_inj.mp equal, reported⟩⟩
  · rintro ⟨other, own, path, reports⟩
    by_cases skipped : Skipped files other
    · obtain ⟨skipReason, reason, outcomes⟩ := fileOutcomes_skipped skipped
      refine ⟨{ path := other.path, reason, hunk := none },
        mem_unmappedChanges_iff.mpr
          ⟨other, own, unmappedFile other.path reason skipReason, ?_, rfl⟩, path, .inl rfl⟩
      rw [outcomes]
      exact List.mem_singleton_self _
    · obtain ⟨same, held, range, reported⟩ := reports.resolve_left skipped
      obtain ⟨reason, skipReason, inside⟩ : ∃ reason skipReason,
          unmappedHunk other.path same reason skipReason ∈
            hunkOutcomes other.path (prHunksOf files other) same := unmapped_of_reported reported
      refine ⟨{ path := other.path, reason
                hunk := some (same.header.newStart, same.header.newCount) },
        mem_unmappedChanges_iff.mpr ⟨other, own, unmappedHunk other.path same reason skipReason, ?_,
          rfl⟩, path, .inr (congrArg some range)⟩
      rw [fileOutcomes_open skipped]
      exact List.mem_flatMap.mpr ⟨same, held, inside⟩

/-- No run is lost exactly when every hunk is reported, or else each of its runs adds some
text or nothing, has a line in the old file, and removes lines or is followed by one. -/
theorem no_run_lost_iff (patchContent : String) (files : List PullRequestFile) :
    NoRunLost patchContent files ↔
      ∀ file ∈ parseWorkspacePatch patchContent, ∀ hunk ∈ file.hunks,
        (∀ run ∈ runsOf hunk, Suggestible run) ∨
          ∃ other ∈ parseWorkspacePatch patchContent, SectionReports files file hunk other := by
  constructor
  · intro kept file mem hunk inside
    by_cases listed : Listed (buildSuggestionManifest patchContent files true) file hunk
    · exact .inr (listed_iff.mp listed)
    · refine .inl fun run own => ?_
      obtain ⟨candidate, _, stands⟩ := (kept file mem hunk inside run own).resolve_right listed
      obtain ⟨shown, eq, _⟩ := stands.text
      obtain ⟨n, line, meets⟩ := stands.meets
      have lies := runsOf_lies own
      exact suggestible_of_meets lies ((suggestionBlock_isSome_iff lies).mp ⟨shown, eq⟩)
        stands.within.1 line meets
  · intro condition file mem hunk inside run own
    by_cases listed : Listed (buildSuggestionManifest patchContent files true) file hunk
    · exact .inr listed
    · refine .inl ?_
      rw [listed_iff] at listed
      have suggestible := (condition file mem hunk inside).resolve_right listed run own
      have lies := runsOf_lies own
      have lines := hunkLines_parse patchContent file mem hunk inside
      have suggested : ¬ Skipped files file := fun skipped =>
        listed ⟨file, mem, rfl, .inl skipped⟩
      have unreported : ¬ Reported (prHunksOf files file) hunk := fun reported =>
        listed ⟨file, mem, rfl, .inr ⟨hunk, inside, rfl, reported⟩⟩
      have shows := shown_of_suggestible lies lines suggestible
      by_cases overlapped : ∃ prHunk ∈ prHunksOf files file, Overlaps run prHunk
      · obtain ⟨prHunk, some_hunk, overlaps⟩ := overlapped
        obtain ⟨candidate, shown, outcome, eq, path, text, low, order, high⟩ :
            ∃ candidate shown, .candidate candidate ∈ hunkOutcomes file.path _ hunk ∧
              suggestionBlock run = some shown ∧ candidate.path = file.path ∧ _ :=
          candidate_of_overlaps own shows some_hunk overlaps
        refine ⟨candidate, mem_candidates_iff.mpr ⟨file, mem, ?_⟩, path, ⟨shown, eq, text⟩,
          ⟨low, high⟩, meets_of_suggestible lies lines suggestible low order high⟩
        rw [fileOutcomes_open suggested]
        exact List.mem_flatMap.mpr ⟨hunk, inside, outcome⟩
      · refine absurd (.inr ⟨run, own, shows, ?_⟩) unreported
        intro prHunk some_hunk overlaps
        exact overlapped ⟨prHunk, some_hunk, overlaps⟩

/-- A mitigation that changes a line of `app.ts` and sets another one apart by a blank line. -/
def spacedPatch : String :=
  join '\n' ["diff --git a/app.ts b/app.ts", "--- a/app.ts", "+++ b/app.ts",
    "@@ -1,4 +1,5 @@", "-let user = body", "+let user = read(body)", " check(user)",
    "+", " send(user)", " log(user)", ""]

def appFile : PullRequestFile where
  filename := "app.ts"
  patch := some "@@ -1,4 +1,4 @@"

def blankRun : Run where
  before := [(1, "-let user = body"), (2, "+let user = read(body)"),
    (2, " check(user)")]
  lines := [(3, "+")]
  after := [(3, " send(user)"), (4, " log(user)")]

theorem blank_line_lost : ¬ NoRunLost spacedPatch [appFile] := by
  intro kept
  have parsed : parseWorkspacePatch spacedPatch =
      [{ path := "app.ts", pathError := none
         hunks := [{
           header := { oldStart := 1, oldCount := 4, newStart := 1, newCount := 5 }
           lines := ["-let user = body", "+let user = read(body)", " check(user)",
             "+", " send(user)", " log(user)"] }] }] := by
    decide +kernel
  have unmapped : (buildSuggestionManifest spacedPatch [appFile] true).unmappedChanges = [] := by
    rw [buildSuggestionManifest, parsed]
    decide
  rw [NoRunLost, parsed] at kept
  have hidden : suggestionBlock blankRun = none := by decide
  have lost := kept _ List.mem_cons_self _ List.mem_cons_self blankRun
    (List.mem_cons_of_mem _ List.mem_cons_self)
  rcases lost with ⟨candidate, _, stands⟩ | ⟨change, mem, _⟩
  · obtain ⟨shown, eq, _⟩ := stands.text
    rw [hidden] at eq
    cases eq
  · rw [unmapped] at mem
    cases mem

end Manifests

end SuggestionCoverage
