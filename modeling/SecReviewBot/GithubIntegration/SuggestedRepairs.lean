import SecReviewBot.GithubIntegration.SuggestionCoverage
import SecReviewBot.LineEdits

/-!
# Accepted suggestions

Accepting the suggestions of a mitigation edits the head file. The edits are those of the
patch for the runs that are shown, unless a suggestion trims the text, covers a part of the
lines only, or repeats the context line in front of it.
-/

namespace SuggestedRepairs

open TextCodecs TextPieces GroupedSums LineEdits
open SuggestionAnchors SuggestionService SuggestionRuns SuggestionCoverage

variable {hunk : WorkspaceHunk} {run : Run} {head : List String} {hunks : List WorkspaceHunk}

/-- The lines of a candidate give way to those of its replacement, and to none when that is
empty. -/
def candidateEdit (candidate : SuggestionCandidate) : Edit String where
  start := candidate.startLine
  count := candidate.line + 1 - candidate.startLine
  lines := if candidate.replacement = "" then [] else split '\n' candidate.replacement

/-- What the patch does with a run. -/
def runEdit (run : Run) : Edit String where
  start := insertionLine run
  count := removedCount run
  lines := plusLines run

/-- Some candidate stands for the run. -/
def suggested (prHunks : List HunkHeader) (run : Run) : Bool :=
  (suggestionBlock run).any fun shown => (findAnchoringHunkForBlock shown prHunks).isSome

/-- What the lines of a hunk show of the old file. -/
def oldLinesOf (lines : List String) : List String :=
  (lines.filter fun line => !startsWith line "+").map fun line =>
    String.ofList (line.toList.drop 1)

def oldTexts (hunk : WorkspaceHunk) : List String := oldLinesOf hunk.lines

/-- The old lines of the hunks stand in the file one after the other. -/
def Fits (head : List String) : Nat → List WorkspaceHunk → Prop
  | _, [] => True
  | done, hunk :: rest =>
    -- a hunk without old lines takes none of the file's
    if oldTexts hunk = [] then Fits head done rest
    else done < hunk.header.oldStart ∧
      (head.drop (hunk.header.oldStart - 1)).take (oldTexts hunk).length = oldTexts hunk ∧
      Fits head (hunk.header.oldStart - 1 + (oldTexts hunk).length) rest

def candidateFor (path : String) (prHunks : List HunkHeader) (run : Run) :
    Option SuggestionCandidate := do
  let shown ← suggestionBlock run
  let anchoring ← findAnchoringHunkForBlock shown prHunks
  some { path, startLine := max shown.startLine anchoring.newStart
         line := min shown.line (anchoring.newStart + anchoring.newCount - 1)
         replacement := shown.replacement, body := buildSuggestionBody shown.replacement }

theorem candidateFor_isSome (path : String) (prHunks : List HunkHeader) (run : Run) :
    (candidateFor path prHunks run).isSome = suggested prHunks run := by
  rw [candidateFor, suggested]
  cases suggestionBlock run with
  | none => rfl
  | some shown =>
    simp only [Option.bind_eq_bind, Option.bind_some, Option.any_some]
    cases findAnchoringHunkForBlock shown prHunks <;> rfl

theorem candidateFor_nil (path : String) (run : Run) : candidateFor path [] run = none := by
  rw [candidateFor]
  cases suggestionBlock run with
  | none => rfl
  | some shown =>
    have missing : findAnchoringHunkForBlock shown [] = none := by
      rw [findAnchoringHunkForBlock]
      split <;> rfl
    simp only [Option.bind_eq_bind, Option.bind_some, missing, Option.bind_none]

/-- The hunk that anchors a block shows a line of it. -/
theorem overlaps_of_anchoring {shown : WorkspaceSuggestionBlock} {prHunks : List HunkHeader}
    {anchoring : HunkHeader} (covers : Covers shown run)
    (found : findAnchoringHunkForBlock shown prHunks = some anchoring) :
    prHunks.find? (overlapsHunk { start := insertionLine run, stop := lastLine run }) =
        some anchoring ∧ Overlaps run anchoring := by
  simp only [findAnchoringHunkForBlock, covers.lineRange] at found
  exact ⟨found, overlapsHunk_iff.mp (List.find?_some found)⟩

theorem blockOutcomes_candidate {path : String} {prHunks : List HunkHeader}
    {shown : WorkspaceSuggestionBlock} (covers : Covers shown run)
    (eq : suggestionBlock run = some shown) :
    (blockOutcomes path prHunks hunk shown).filterMap candidateOf =
      (candidateFor path prHunks run).toList := by
  rw [blockOutcomes, candidateFor, eq, Option.bind_eq_bind, Option.bind_some]
  cases found : findAnchoringHunkForBlock shown prHunks with
  | none => rfl
  | some anchoring =>
    obtain ⟨_, newStart, newCount, low, high⟩ := overlaps_of_anchoring covers found
    have order : insertionLine run ≤ lastLine run := Nat.le_add_right _ _
    simp only [toLineRange_eq_some_iff.mpr ⟨newStart, newCount, rfl⟩, Option.bind_eq_bind,
      Option.bind_some]
    rw [if_neg (by rw [covers.start, covers.line]; omega)]
    rfl

theorem hunkOutcomes_candidates (path : String) (prHunks : List HunkHeader)
    (hunk : WorkspaceHunk) :
    (hunkOutcomes path prHunks hunk).filterMap candidateOf =
      (runsOf hunk).filterMap (candidateFor path prHunks) := by
  have blocks : ((splitWorkspaceHunkIntoSuggestionBlocks hunk).flatMap
      (blockOutcomes path prHunks hunk)).filterMap candidateOf =
        (runsOf hunk).filterMap (candidateFor path prHunks) := by
    rw [splitWorkspaceHunkIntoSuggestionBlocks]
    have covers : ∀ run ∈ runsOf hunk, ∀ shown, suggestionBlock run = some shown →
        Covers shown run := fun run mem shown eq => covers_of_shown mem eq
    generalize runsOf hunk = runs at covers ⊢
    induction runs with
    | nil => rfl
    | cons run rest ih =>
      have later := ih fun other mem => covers other (List.mem_cons_of_mem _ mem)
      cases eq : suggestionBlock run with
      | none =>
        have none_for : candidateFor path prHunks run = none := by rw [candidateFor, eq]; rfl
        rw [List.filterMap_cons_none eq, List.filterMap_cons_none none_for, later]
      | some shown =>
        have own : (blockOutcomes path prHunks hunk shown).filterMap candidateOf =
            (candidateFor path prHunks run).toList :=
          blockOutcomes_candidate (covers run List.mem_cons_self shown eq) eq
        rw [List.filterMap_cons_some eq, List.flatMap_cons, List.filterMap_append, own, later,
          List.filterMap_cons]
        cases candidateFor path prHunks run <;> rfl
  simp only [hunkOutcomes, List.isEmpty_iff]
  split
  · next empty =>
    rw [empty] at blocks
    rw [← blocks]
    rfl
  · exact blocks

theorem manifest_candidates {patchContent path : String} {files : List PullRequestFile}
    {prHunks : List HunkHeader}
    (parsed : parseWorkspacePatch patchContent = [{ path, hunks, pathError := none }])
    (visible : prHunksOf files { path, hunks, pathError := none } = prHunks) :
    (buildSuggestionManifest patchContent files true).candidates =
      (hunks.flatMap runsOf).filterMap (candidateFor path prHunks) := by
  have whole : (buildSuggestionManifest patchContent files true).candidates =
      (fileOutcomes files { path, hunks, pathError := none }).filterMap candidateOf := by
    rw [buildSuggestionManifest, parsed]
    simp
  rw [whole]
  by_cases skipped : Skipped files { path, hunks, pathError := none }
  · have empty : prHunks = [] := visible.symm.trans (skipped.resolve_left fun error => error rfl)
    obtain ⟨skipReason, reason, outcomes⟩ := fileOutcomes_skipped skipped
    have none_for : (hunks.flatMap runsOf).filterMap (candidateFor path []) = [] :=
      List.filterMap_eq_nil_iff.mpr fun run _ => candidateFor_nil path run
    rw [outcomes, empty, none_for]
    rfl
  · rw [fileOutcomes_open skipped, visible]
    clear parsed visible whole skipped
    induction hunks with
    | nil => rfl
    | cons hunk rest ih =>
      rw [List.flatMap_cons, List.filterMap_append, hunkOutcomes_candidates, ih,
        List.flatMap_cons, List.filterMap_append]

theorem advance_marked {text : String} (own : Marked text) :
    advance text = if startsWith text "+" then 0 else 1 := by
  have marker := own.1
  rw [isHunkLine] at marker
  rw [advance]
  cases chars : text.toList with
  | nil => simp [startsWith, chars] at marker
  | cons c rest =>
    simp only [startsWith, chars, Bool.or_eq_true] at marker ⊢
    by_cases plus : c = '+'
    · simp [plus, List.isPrefixOf_cons_cons]
    · simp [List.isPrefixOf_cons_cons] at marker ⊢
      rw [if_pos (by tauto), if_neg (Ne.symm plus)]

theorem oldLinesOf_cons (text : String) (later : List String) :
    oldLinesOf (text :: later) =
      if startsWith text "+" then oldLinesOf later
      else content (0, text) :: oldLinesOf later := by
  rw [oldLinesOf, List.filter_cons]
  cases startsWith text "+" <;> rfl

theorem oldLinesOf_length {texts : List String} (own : ∀ text ∈ texts, Marked text) :
    (oldLinesOf texts).length = advances texts := by
  induction texts with
  | nil => rfl
  | cons text later ih =>
    have others := ih fun other mem => own other (List.mem_cons_of_mem _ mem)
    rw [oldLinesOf_cons, advances, sumOf, ← advances, ← others,
      advance_marked (own text List.mem_cons_self)]
    split
    · rw [Nat.zero_add]
    · rw [List.length_cons, Nat.add_comm]

/-- A line of the hunk that is not added is the line of its number. -/
theorem oldLinesOf_get {cursor : Nat} {texts : List String} (own : ∀ text ∈ texts, Marked text)
    {line : Numbered} (mem : line ∈ numberLines cursor texts) (old : isAdded line = false) :
    cursor ≤ line.1 ∧ (oldLinesOf texts)[line.1 - cursor]? = some (content line) := by
  induction texts generalizing cursor with
  | nil => cases mem
  | cons text later ih =>
    have advanced := advance_marked (own text List.mem_cons_self)
    rw [numberLines_cons] at mem
    rw [oldLinesOf_cons]
    rcases List.mem_cons.mp mem with rfl | mem
    · rw [if_neg (by simpa [isAdded] using old), Nat.sub_self]
      exact ⟨Nat.le_refl _, rfl⟩
    · obtain ⟨low, found⟩ := ih (fun other inside => own other (List.mem_cons_of_mem _ inside)) mem
      split
      · next added =>
        rw [if_pos added] at advanced
        rw [advanced, Nat.add_zero] at low found
        exact ⟨low, found⟩
      · next kept =>
        rw [if_neg kept] at advanced
        rw [advanced] at low found
        refine ⟨by omega, ?_⟩
        rw [show line.1 - cursor = line.1 - (cursor + 1) + 1 by omega, List.getElem?_cons_succ]
        exact found

/-- A run that only adds lines has one behind it. -/
def Followed (run : Run) : Prop := removedCount run = 0 → run.after ≠ []

section Hunks

variable {done : Nat} (own : ∀ line ∈ hunk.lines, Marked line)
include own

theorem followed_extent (mem : run ∈ runsOf hunk) (followed : Followed run) :
    hunk.header.oldStart ≤ insertionLine run ∧
      lastLine run < hunk.header.oldStart + (oldTexts hunk).length := by
  have lies := runsOf_lies mem
  have extent := lies.extent
  have start := lies.insertionLine_eq
  rw [oldTexts, oldLinesOf_length own, lastLine]
  refine ⟨by omega, ?_⟩
  rcases Nat.eq_zero_or_pos (removedCount run) with none_removed | some_removed
  · obtain ⟨line, rest, after, context⟩ := context_follows lies own (followed none_removed)
    have one : advance line.2 = 1 := by
      rw [advance, show startsWith line.2 " " = true from context]
      rfl
    rw [after, List.map_cons, advances, sumOf, one] at extent
    omega
  · omega

/-- The context line behind an insertion is the line of the file at its place. -/
theorem followed_context
    (fits : (head.drop (hunk.header.oldStart - 1)).take (oldTexts hunk).length = oldTexts hunk)
    (numbered : 0 < hunk.header.oldStart) (mem : run ∈ runsOf hunk)
    (none_removed : removedCount run = 0) (followed : run.after ≠ []) :
    ∃ line rest, run.after = line :: rest ∧ isContext line = true ∧
      (head.drop (insertionLine run - 1)).take 1 = [content line] := by
  have lies := runsOf_lies mem
  obtain ⟨line, rest, after, context⟩ := context_follows lies own followed
  refine ⟨line, rest, after, context, ?_⟩
  have number : line.1 = insertionLine run := by
    have numbered := lies.after_numbered
    rw [none_removed, Nat.add_zero, after, List.map_cons, numberLines_cons,
      List.cons.injEq] at numbered
    rw [numbered.1]
  have inside : line ∈ numberLines hunk.header.oldStart hunk.lines := by
    rw [lies.whole, after]
    simp
  have old : isAdded line = false := by
    have kept := lies.stops line (by simp [after])
    rw [isChange, Bool.or_eq_false_iff] at kept
    exact kept.1
  obtain ⟨low, found⟩ := oldLinesOf_get own inside old
  rw [number, ← oldTexts, ← fits, List.getElem?_take] at found
  split at found
  · rw [List.getElem?_drop] at found
    rw [number] at low
    rw [show hunk.header.oldStart - 1 + (insertionLine run - hunk.header.oldStart) =
      insertionLine run - 1 by omega] at found
    rw [List.take_one, List.head?_drop, found]
    rfl
  · cases found

theorem follows_apart {first second : Run} (held : first ∈ runsOf hunk)
    (later : second ∈ runsOf hunk) (follows : Follows first second) :
    lastLine first < insertionLine second := by
  obtain ⟨line, kept, more, before⟩ := follows
  have firstLies := runsOf_lies held
  have secondLies := runsOf_lies later
  have text : line.2 ∈ hunk.lines := by
    rw [← numberLines_snd hunk.header.oldStart hunk.lines, secondLies.whole, ← before]
    exact List.mem_map_of_mem (by simp)
  have one : advance line.2 = 1 := by
    rw [advance, show startsWith line.2 " " = true from isContext_of_kept (own _ text).1 kept]
    rfl
  have place := secondLies.insertionLine_eq
  have removed := firstLies.run_advances
  rw [advances] at removed
  rw [← before, List.map_append, List.map_append, List.map_append, advances, sumOf_append,
    sumOf_append, sumOf_append, List.map_singleton, sumOf, one, removed, ← advances] at place
  have start := firstLies.insertionLine_eq
  rw [lastLine]
  omega

end Hunks

/-- Hunks that fit a file one after the other have their followed runs in that order. -/
theorem runs_apart {done : Nat} (fits : Fits head done hunks)
    (own : ∀ hunk ∈ hunks, ∀ line ∈ hunk.lines, Marked line) :
    (∀ run ∈ hunks.flatMap runsOf, Followed run → done < insertionLine run) ∧
      (hunks.flatMap runsOf).Pairwise fun first second =>
        Followed first → Followed second → lastLine first < insertionLine second := by
  induction hunks generalizing done with
  | nil => simp
  | cons hunk rest ih =>
    have lines := own hunk List.mem_cons_self
    have others := fun other mem => own other (List.mem_cons_of_mem hunk mem)
    have inside : (runsOf hunk).Pairwise fun first second =>
        Followed first → Followed second → lastLine first < insertionLine second := by
      refine (scanRuns_pairwise : (runsOf hunk).Pairwise Follows).imp_of_mem ?_
      intro first second held later follows _ _
      exact follows_apart lines held later follows
    rw [Fits] at fits
    rw [List.flatMap_cons, List.pairwise_append]
    split at fits
    · next empty =>
      have none_followed : ∀ run ∈ runsOf hunk, ¬ Followed run := by
        intro run mem followed
        have extent := followed_extent lines mem followed
        rw [empty] at extent
        have order : insertionLine run ≤ lastLine run := Nat.le_add_right _ _
        simp only [List.length_nil] at extent
        omega
      obtain ⟨behind, apart⟩ := ih fits others
      refine ⟨fun run mem followed => ?_, inside, apart, fun first held _ _ follows => ?_⟩
      · rcases List.mem_append.mp mem with mem | mem
        · exact absurd followed (none_followed run mem)
        · exact behind run mem followed
      · exact absurd follows (none_followed first held)
    · obtain ⟨start, _, fits⟩ := fits
      obtain ⟨behind, apart⟩ := ih fits others
      refine ⟨fun run mem followed => ?_, inside, apart,
        fun first held second mem follows later => ?_⟩
      · rcases List.mem_append.mp mem with mem | mem
        · have extent := followed_extent lines mem followed
          omega
        · have later := behind run mem followed
          omega
      · have extent := followed_extent lines held follows
        have place := behind second mem later
        omega

/-- The last line a run adds ends in text. -/
def EndsInText (run : Run) : Prop :=
  ∃ text ∈ (plusLines run).getLast?, ∃ c ∈ text.toList.getLast?, ecmaSpace c = false

/-- The suggestion of the run leaves its text alone, covers its lines, and does not repeat
the line in front of it. -/
structure Faithful (prHunks : List HunkHeader) (run : Run) : Prop where
  untrimmed : plusLines run = [] ∨ EndsInText run
  followed : Followed run
  uncut : ∀ prHunk ∈
      prHunks.find? (overlapsHunk { start := insertionLine run, stop := lastLine run }),
    prHunk.newStart ≤ insertionLine run ∧
      lastLine run ≤ prHunk.newStart + prHunk.newCount - 1

theorem trimEnd_eq_self {text : String} {c : Char} (last : c ∈ text.toList.getLast?)
    (visible : ecmaSpace c = false) : trimEnd text = text := by
  rw [trimEnd]
  obtain ⟨init, chars⟩ := List.getLast?_eq_some_iff.mp last
  rw [chars, List.reverse_append, List.reverse_singleton, List.singleton_append,
    List.dropWhile_cons_of_neg (by simp [visible]), ← List.singleton_append,
    ← List.reverse_singleton, ← List.reverse_append, List.reverse_reverse, ← chars,
    String.ofList_toList]

theorem core_of_endsInText (ends : EndsInText run) : core run = join '\n' (plusLines run) := by
  obtain ⟨text, lastText, c, lastChar, visible⟩ := ends
  obtain ⟨init, lines⟩ := List.getLast?_eq_some_iff.mp lastText
  refine trimEnd_eq_self (c := c) ?_ visible
  rw [lines]
  cases init with
  | nil => simpa using lastChar
  | cons first rest =>
    rw [join_concat (by simp), String.toList_ofList, List.append_cons, List.getLast?_append,
      lastChar]
    rfl

section Suggestions

variable {path : String} {prHunks : List HunkHeader} {candidate : SuggestionCandidate}

theorem single_content {cursor : Nat} {texts : List String} (own : ∀ text ∈ texts, Marked text)
    {line : Numbered} (mem : line ∈ numberLines cursor texts) : '\n' ∉ (content line).toList := by
  have inside : line.2 ∈ texts := by
    rw [← numberLines_snd cursor texts]
    exact List.mem_map_of_mem mem
  rw [content, String.toList_ofList]
  exact fun feed => (own _ inside).2 (List.mem_of_mem_drop feed)

theorem single_plusLines (own : ∀ line ∈ hunk.lines, Marked line) (mem : run ∈ runsOf hunk) :
    ∀ text ∈ plusLines run, '\n' ∉ text.toList := by
  intro text held
  obtain ⟨line, added, rfl⟩ := List.mem_map.mp held
  have inside : line ∈ numberLines hunk.header.oldStart hunk.lines := by
    rw [(runsOf_lies mem).whole]
    simp [(List.mem_filter.mp added).1]
  exact single_content own inside

theorem candidateFor_eq (mem : run ∈ runsOf hunk)
    (faithful : Faithful prHunks run) (eq : candidateFor path prHunks run = some candidate) :
    candidate.startLine = insertionLine run ∧ candidate.line = lastLine run ∧
      ∃ shown, suggestionBlock run = some shown ∧ candidate.replacement = shown.replacement := by
  rw [candidateFor] at eq
  obtain ⟨shown, block, eq⟩ := Option.bind_eq_some_iff.mp eq
  obtain ⟨anchoring, found, eq⟩ := Option.bind_eq_some_iff.mp eq
  cases eq
  have covers := covers_of_shown mem block
  have uncut := faithful.uncut anchoring (overlaps_of_anchoring covers found).1
  refine ⟨?_, ?_, shown, block, rfl⟩
  · rw [covers.start]
    exact Nat.max_eq_left uncut.1
  · rw [covers.line]
    exact Nat.min_eq_left uncut.2

/-- A faithful suggestion makes the edit of its run. -/
theorem widens_of_faithful (own : ∀ line ∈ hunk.lines, Marked line)
    (fits : (head.drop (hunk.header.oldStart - 1)).take (oldTexts hunk).length = oldTexts hunk)
    (numbered : 0 < hunk.header.oldStart) (mem : run ∈ runsOf hunk)
    (faithful : Faithful prHunks run) (eq : candidateFor path prHunks run = some candidate) :
    Widens head (runEdit run) (candidateEdit candidate) := by
  have lies := runsOf_lies mem
  have single := single_plusLines own mem
  obtain ⟨start, line, shown, block, text⟩ := candidateFor_eq mem faithful eq
  rcases Nat.eq_zero_or_pos (removedCount run) with none_removed | some_removed
  · have adds := lies.adds none_removed
    have whole := core_of_endsInText (faithful.untrimmed.resolve_left adds)
    obtain ⟨context, rest, after, marked, place⟩ :=
      followed_context own fits numbered mem none_removed (faithful.followed none_removed)
    have inside : context ∈ numberLines hunk.header.oldStart hunk.lines := by
      rw [lies.whole, after]
      simp
    have pieces : ∀ text ∈ plusLines run ++ [content context], '\n' ∉ text.toList := by
      intro text held
      rcases List.mem_append.mp held with held | last
      · exact single text held
      · rw [List.mem_singleton.mp last]
        exact single_content own inside
    have replacement : candidate.replacement =
        join '\n' (plusLines run ++ [content context]) := by
      rw [suggestionBlock_plus lies none_removed, anchoredReplacement, after,
        List.find?_cons_of_pos marked] at block
      split at block
      · cases block
        rw [text, join_concat adds, ← whole, ← String.toList_inj]
        simp
      · cases block
    have shows : candidate.replacement ≠ "" := by
      rw [replacement, join_concat adds, ne_eq, ← String.toList_inj, String.toList_ofList]
      simp
    refine ⟨start, 1, ?_, ?_⟩
    · simp only [candidateEdit, runEdit, start, line, lastLine, none_removed]
      omega
    · simp only [candidateEdit, runEdit, Edit.before, none_removed, Nat.add_zero, place]
      rw [if_neg shows, replacement, split_join pieces (by simp)]
  · refine ⟨start, 0, ?_, ?_⟩
    · simp only [candidateEdit, runEdit, start, line, lastLine]
      omega
    · rw [suggestionBlock_minus lies some_removed] at block
      split at block
      · next shows =>
        cases block
        rw [candidateEdit, runEdit, text, List.take_zero, List.append_nil]
        by_cases nothing : plusLines run = []
        · simp only [nothing, if_true]
        · have ends := faithful.untrimmed.resolve_left nothing
          rw [if_neg nothing, if_neg (shows.2.resolve_left nothing), core_of_endsInText ends,
            split_join single nothing]
      · cases block

end Suggestions

/-- Accepting the candidates edits the file as the runs they stand for do, and no two of
them touch the same line. -/
structure PerformsRepair (head : List String) (prHunks : List HunkHeader)
    (hunks : List WorkspaceHunk) (candidates : List SuggestionCandidate) : Prop where
  repaired : applyEdits head 0 (candidates.map candidateEdit) =
    applyEdits head 0 (((hunks.flatMap runsOf).filter (suggested prHunks)).map runEdit)
  apart : candidates.Pairwise fun first second => first.line < second.startLine

/-- Every followed run of hunks that fit stands in a hunk that fits. -/
theorem fits_of_followed {done : Nat} (fits : Fits head done hunks)
    (own : ∀ hunk ∈ hunks, ∀ line ∈ hunk.lines, Marked line) (mem : hunk ∈ hunks)
    (held : run ∈ runsOf hunk) (followed : Followed run) :
    0 < hunk.header.oldStart ∧
      (head.drop (hunk.header.oldStart - 1)).take (oldTexts hunk).length = oldTexts hunk := by
  induction hunks generalizing done with
  | nil => cases mem
  | cons first rest ih =>
    have others := fun other mem => own other (List.mem_cons_of_mem first mem)
    rw [Fits] at fits
    split at fits
    · next empty =>
      rcases List.mem_cons.mp mem with rfl | mem
      · have extent := followed_extent (own _ List.mem_cons_self) held followed
        have order : insertionLine run ≤ lastLine run := Nat.le_add_right _ _
        rw [empty, List.length_nil] at extent
        omega
      · exact ih fits others mem
    · rcases List.mem_cons.mp mem with rfl | mem
      · exact ⟨by omega, fits.2.1⟩
      · exact ih fits.2.2 others mem

/-- Edits of runs and of their candidates, one beside the other. -/
theorem forall₂_edits {path : String} {prHunks : List HunkHeader} (runs : List Run)
    (widens : ∀ run ∈ runs, ∀ candidate, candidateFor path prHunks run = some candidate →
      Widens head (runEdit run) (candidateEdit candidate)) :
    List.Forall₂ (Widens head) ((runs.filter (suggested prHunks)).map runEdit)
      ((runs.filterMap (candidateFor path prHunks)).map candidateEdit) := by
  induction runs with
  | nil => exact .nil
  | cons run rest ih =>
    have others := ih fun other mem => widens other (List.mem_cons_of_mem _ mem)
    have chosen := candidateFor_isSome path prHunks run
    cases eq : candidateFor path prHunks run with
    | none =>
      rw [eq] at chosen
      rw [List.filter_cons_of_neg (by simp [← chosen]), List.filterMap_cons_none eq]
      exact others
    | some candidate =>
      rw [eq] at chosen
      rw [List.filter_cons_of_pos (by simp [← chosen]), List.filterMap_cons_some eq]
      exact .cons (widens run List.mem_cons_self candidate eq) others

theorem performsRepair_of_faithful {path : String} {prHunks : List HunkHeader}
    (fits : Fits head 0 hunks) (own : ∀ hunk ∈ hunks, ∀ line ∈ hunk.lines, Marked line)
    (faithful : ∀ run ∈ hunks.flatMap runsOf, suggested prHunks run = true → Faithful prHunks run) :
    PerformsRepair head prHunks hunks
      ((hunks.flatMap runsOf).filterMap (candidateFor path prHunks)) := by
  have faithful_for : ∀ run ∈ hunks.flatMap runsOf, ∀ candidate,
      candidateFor path prHunks run = some candidate → Faithful prHunks run := by
    intro run mem candidate eq
    refine faithful run mem ?_
    rw [← candidateFor_isSome path, eq]
    rfl
  have widens : ∀ run ∈ hunks.flatMap runsOf, ∀ candidate,
      candidateFor path prHunks run = some candidate →
        Widens head (runEdit run) (candidateEdit candidate) := by
    intro run mem candidate eq
    have own_faithful := faithful_for run mem candidate eq
    obtain ⟨hunk, inside, held⟩ := List.mem_flatMap.mp mem
    obtain ⟨numbered, place⟩ := fits_of_followed fits own inside held own_faithful.followed
    exact widens_of_faithful (own hunk inside) place numbered held own_faithful eq
  have apart : ((hunks.flatMap runsOf).filterMap (candidateFor path prHunks)).Pairwise
      fun first second => first.line < second.startLine := by
    rw [List.pairwise_filterMap]
    refine (runs_apart fits own).2.imp_of_mem ?_
    intro first second held later follows candidate eq other eq'
    have firstFaithful := faithful_for first held candidate eq
    have secondFaithful := faithful_for second later other eq'
    obtain ⟨hunk, _, held⟩ := List.mem_flatMap.mp held
    obtain ⟨hunk', _, later⟩ := List.mem_flatMap.mp later
    rw [(candidateFor_eq held firstFaithful eq).2.1, (candidateFor_eq later secondFaithful eq').1]
    exact follows firstFaithful.followed secondFaithful.followed
  have placed : ∀ candidate ∈ (hunks.flatMap runsOf).filterMap (candidateFor path prHunks),
      0 < candidate.startLine ∧ candidate.startLine ≤ candidate.line := by
    intro candidate chosen
    obtain ⟨run, mem, eq⟩ := List.mem_filterMap.mp chosen
    have own_faithful := faithful_for run mem candidate eq
    have positive := (runs_apart fits own).1 run mem own_faithful.followed
    obtain ⟨hunk, _, held⟩ := List.mem_flatMap.mp mem
    obtain ⟨start, line, _⟩ := candidateFor_eq held own_faithful eq
    rw [start, line, lastLine]
    omega
  refine ⟨?_, apart⟩
  refine (applyEdits_widen ?_ (forall₂_edits _ widens)).symm
  rw [Ordered, List.pairwise_map]
  refine apart.imp_of_mem fun {first second} mem _ before => ?_
  have place := placed first mem
  simp only [candidateEdit, Edit.before]
  omega

/-- Accepting the suggestions makes the repair when each run that is shown ends in text,
has a line behind it in its hunk or removes some, and is not cut by the hunk of the pull
request it is anchored to. -/
theorem suggestions_perform_repair (patchContent path : String) (files : List PullRequestFile)
    (head : List String) (hunks : List WorkspaceHunk)
    (parsed : parseWorkspacePatch patchContent = [{ path, hunks, pathError := none }])
    (fits : Fits head 0 hunks)
    (faithful : ∀ run ∈ hunks.flatMap runsOf,
      suggested (prHunksOf files { path, hunks, pathError := none }) run = true →
        Faithful (prHunksOf files { path, hunks, pathError := none }) run) :
    PerformsRepair head (prHunksOf files { path, hunks, pathError := none }) hunks
      (buildSuggestionManifest patchContent files true).candidates := by
  have own : ∀ hunk ∈ hunks, ∀ line ∈ hunk.lines, Marked line := by
    have lines := hunkLines_parse patchContent
    rw [parsed] at lines
    exact lines _ List.mem_cons_self
  rw [manifest_candidates parsed rfl]
  exact performsRepair_of_faithful fits own faithful

/-- A mitigation that logs the user before the answer is sent. -/
def loggingPatch : String :=
  join '\n' ["diff --git a/app.ts b/app.ts", "--- a/app.ts", "+++ b/app.ts",
    "@@ -1,2 +1,3 @@", " check(user)", "+log(user)", " send(user)", ""]

def loggingHunk : WorkspaceHunk where
  header := { oldStart := 1, oldCount := 2, newStart := 1, newCount := 3 }
  lines := [" check(user)", "+log(user)", " send(user)"]

def loggingRun : Run where
  before := [(1, " check(user)")]
  lines := [(2, "+log(user)")]
  after := [(2, " send(user)")]

theorem fits_single {done : Nat} (numbered : done < hunk.header.oldStart)
    (place : (head.drop (hunk.header.oldStart - 1)).take (oldTexts hunk).length = oldTexts hunk) :
    Fits head done [hunk] := by
  rw [Fits]
  split
  · trivial
  · exact ⟨numbered, place, trivial⟩

theorem logging_performed :
    PerformsRepair ["check(user)", "send(user)"]
      (prHunksOf [appFile] { path := "app.ts", hunks := [loggingHunk], pathError := none })
      [loggingHunk] (buildSuggestionManifest loggingPatch [appFile] true).candidates := by
  refine suggestions_perform_repair loggingPatch "app.ts" [appFile] _ [loggingHunk]
    (by decide) (fits_single (by decide) (by decide)) fun run mem _ => ?_
  obtain rfl : run = loggingRun := List.mem_singleton.mp mem
  refine ⟨.inr ⟨"log(user)", by decide, ')', by decide, by decide⟩, fun _ => by decide, ?_⟩
  decide

/-- A mitigation that sets its import apart by a blank line. -/
def importPatch : String :=
  join '\n' ["diff --git a/app.ts b/app.ts", "--- a/app.ts", "+++ b/app.ts",
    "@@ -1,2 +1,3 @@", "-import md5", "+import sha", "+", " run()", ""]

def importHunk : WorkspaceHunk where
  header := { oldStart := 1, oldCount := 2, newStart := 1, newCount := 3 }
  lines := ["-import md5", "+import sha", "+", " run()"]

theorem blank_line_not_suggested :
    parseWorkspacePatch importPatch =
        [{ path := "app.ts", hunks := [importHunk], pathError := none }] ∧
      Fits ["import md5", "run()"] 0 [importHunk] ∧
      ¬ PerformsRepair ["import md5", "run()"]
        (prHunksOf [appFile] { path := "app.ts", hunks := [importHunk], pathError := none })
        [importHunk] (buildSuggestionManifest importPatch [appFile] true).candidates := by
  have parsed : parseWorkspacePatch importPatch =
      [{ path := "app.ts", hunks := [importHunk], pathError := none }] := by
    decide
  refine ⟨parsed, fits_single (by decide) (by decide), fun performs => ?_⟩
  have repaired := performs.repaired
  rw [manifest_candidates parsed rfl] at repaired
  revert repaired
  decide

end SuggestedRepairs
