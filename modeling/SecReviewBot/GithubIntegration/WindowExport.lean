import Mathlib.Logic.Function.Basic
import SecReviewBot.GitDiffs
import SecReviewBot.GithubIntegration.WorkspaceHistory

/-!
# The window of a review

`exportWorkspaceWindow` of `git-workspace.ts` asks Git four times for the changes of one
range and joins the answers: statuses and line counts by the path, the sections of the
unified diff by their position. `suggestion-service.ts` anchors its suggestions to the
hunks it finds in the patch of a file.
-/

namespace WindowExport

open TextPieces GitDiffs WorkspaceHistory

inductive ChangedFileStatus where
  | added | modified | deleted | renamed | copied | typeChanged
  deriving DecidableEq

def gitStatusNames : Char → Option ChangedFileStatus
  | 'A' => some .added
  | 'C' => some .copied
  | 'D' => some .deleted
  | 'M' => some .modified
  | 'R' => some .renamed
  | 'T' => some .typeChanged
  | _ => none

structure NameStatusEntry where
  path : String
  status : ChangedFileStatus
  previousPath : Option String
  deriving DecidableEq

/-- `entries.push(entry)` unless the path is empty. -/
def pushEntry (entry : NameStatusEntry) (entries : List NameStatusEntry) : List NameStatusEntry :=
  if entry.path ≠ "" then entry :: entries else entries

/-- The loop of `parseNameStatusZ` over the fields. -/
def readNameStatus : List String → Except WorkspaceError (List NameStatusEntry)
  | rawStatus :: first :: rest =>
    match rawStatus.toList with
    | [] => .ok []
    | code :: _ =>
      match gitStatusNames code with
      | none =>
        .error (.message
          s!"workspace diff reported git status '{code}', which has no scan-scope meaning")
      | some status =>
        if code = 'R' ∨ code = 'C' then
          match rest with
          | [] => .ok []
          | path :: rest => do
            let entries ← readNameStatus rest
            .ok (pushEntry { path, status, previousPath := some first } entries)
        else do
          let entries ← readNameStatus rest
          .ok (pushEntry { path := first, status, previousPath := none } entries)
  | _ => .ok []

def parseNameStatusZ (output : String) : Except WorkspaceError (List NameStatusEntry) :=
  readNameStatus (split '\x00' output)

structure LineCounts where
  additions : Int
  deletions : Int
  deriving DecidableEq

/-- What stands before the first tab, and after it. -/
def cutAtTab (text : List Char) : Option (List Char × List Char) :=
  match text.dropWhile (· ≠ '\t') with
  | [] => none
  | _ :: rest => some (text.takeWhile (· ≠ '\t'), rest)

/-- The three parts of a numstat record; a missing tab leaves the rest empty. -/
def numstatParts (record : String) : String × String × String :=
  match cutAtTab record.toList with
  | none => ("", "", "")
  | some (added, rest) =>
    match cutAtTab rest with
    | none => (String.ofList added, "", "")
    | some (removed, inlinePath) =>
      (String.ofList added, String.ofList removed, String.ofList inlinePath)

def lineCount (text : String) : Int := if text = "-" then 0 else (parseInt text).getD 0

/-- The `Map` of `parseNumstatZ`, of which only `get` is used. -/
abbrev CountsByPath := String → Option LineCounts

/-- The loop of `parseNumstatZ` over the fields. -/
def readNumstat : List String → CountsByPath → CountsByPath
  | [], counts => counts
  | record :: rest, counts =>
    if record = "" then readNumstat rest counts
    else
      let parts := numstatParts record
      let countsForFile : LineCounts :=
        { additions := lineCount parts.1, deletions := lineCount parts.2.1 }
      if parts.2.2 ≠ "" then
        readNumstat rest (Function.update counts parts.2.2 (some countsForFile))
      else
        -- a rename or a copy: the next two fields are the old and the new path
        match rest with
        | renamedFrom :: renamedTo :: rest =>
          if renamedFrom = "" ∧ renamedTo = "" then readNumstat rest counts
          else readNumstat rest (Function.update counts renamedTo (some countsForFile))
        | [renamedFrom] =>
          if renamedFrom = "" then counts else Function.update counts "" (some countsForFile)
        | [] => counts

def parseNumstatZ (output : String) : CountsByPath := readNumstat (split '\x00' output) fun _ => none

inductive DiffSelector where
  | patch | nameStatus | numstat | nameOnly
  deriving DecidableEq

/-- The Git commands of the export, with the range they are given. -/
inductive GitQuery where
  | diff (selector : DiffSelector) (range : String)
  | revList (range : String)
  deriving DecidableEq

def workspaceDiffArgs : List String :=
  ["diff", "--no-color", "--no-textconv", "--no-ext-diff", "--find-renames"]

def DiffSelector.args : DiffSelector → List String
  | .patch => []
  | .nameStatus => ["--name-status", "-z"]
  | .numstat => ["--numstat", "-z"]
  | .nameOnly => ["--name-only", "-z"]

def GitQuery.args : GitQuery → List String
  | .diff selector range => workspaceDiffArgs ++ selector.args ++ [range]
  | .revList range => ["rev-list", "--reverse", range]

/-- `runGitCommandCapture` in one workspace. -/
abbrev GitCapture := GitQuery → Except WorkspaceError String

def requireComparableRef (value label caller : String) : Except WorkspaceError Unit :=
  if trim value = "" ∨ startsWith (trim value) "-" then
    .error (.message s!"{caller} requires a valid {label}.")
  else .ok ()

def requireComparableRefs (baseSha headSha caller : String) : Except WorkspaceError Unit := do
  requireComparableRef baseSha "base_sha" caller
  requireComparableRef headSha "head_sha" caller

def diffRange (baseSha headSha : String) : String := trim baseSha ++ "..." ++ trim headSha

def commitRange (baseSha headSha : String) : String := trim baseSha ++ ".." ++ trim headSha

structure ChangedFile where
  entry : NameStatusEntry
  counts : LineCounts
  deriving DecidableEq

def exportWorkspaceChangedFiles (runGitCommandCapture : GitCapture) (baseSha headSha : String) :
    Except WorkspaceError (List ChangedFile) := do
  requireComparableRefs baseSha headSha "exportWorkspaceChangedFiles"
  let nameStatus ← runGitCommandCapture (.diff .nameStatus (diffRange baseSha headSha))
  let numstat ← runGitCommandCapture (.diff .numstat (diffRange baseSha headSha))
  let counts := parseNumstatZ numstat
  let entries ← parseNameStatusZ nameStatus
  .ok (entries.map fun entry =>
    { entry, counts := (counts entry.path).getD { additions := 0, deletions := 0 } })

def exportWorkspaceCommits (runGitCommandCapture : GitCapture) (baseSha headSha : String) :
    Except WorkspaceError (List String) := do
  requireComparableRefs baseSha headSha "exportWorkspaceCommits"
  let output ← runGitCommandCapture (.revList (commitRange baseSha headSha))
  .ok ((split '\n' output).filter fun sha => sha ≠ "")

def exportWorkspaceDiff (runGitCommandCapture : GitCapture) (baseSha headSha : String) :
    Except WorkspaceError String := do
  requireComparableRefs baseSha headSha "exportWorkspaceDiff"
  runGitCommandCapture (.diff .patch (diffRange baseSha headSha))

/-- `sections.push(current.join('\n'))` when there is a current section. -/
def pushSection (current : List String) (sections : List String) : List String :=
  if current.length > 0 then join '\n' current :: sections else sections

/-- The loop of `splitDiffIntoSections`. -/
def collectSections : List String → List String → List String
  | [], current => pushSection current []
  | line :: rest, current =>
    if startsWith line "diff --git " then pushSection current (collectSections rest [line])
    else collectSections rest (current ++ [line])

def splitDiffIntoSections (diff : String) : List String :=
  if diff = "" then [] else collectSections (split '\n' diff) []

structure WindowFile where
  filename : String
  status : ChangedFileStatus
  previousPath : Option String
  counts : LineCounts
  patch : Option String
  deriving DecidableEq

structure ReviewWindowExport where
  patch : String
  files : List WindowFile
  commitShas : List String
  deriving DecidableEq

/-- `map.set(key, value)` for each pair in turn. -/
def setEach {β : Type} : List (String × β) → (String → Option β) → String → Option β
  | [], map => map
  | (key, value) :: rest, map => setEach rest (Function.update map key (some value))

def filePatch (patch : Option String) : Option String :=
  match patch with
  | none => none
  | some text => if includes text "Binary files" then none else some text

def exportWorkspaceWindow (runGitCommandCapture : GitCapture) (baseSha headSha : String) :
    Except WorkspaceError ReviewWindowExport := do
  requireComparableRefs baseSha headSha "exportWorkspaceWindow"
  let entries ← exportWorkspaceChangedFiles runGitCommandCapture baseSha headSha
  let patch ← exportWorkspaceDiff runGitCommandCapture baseSha headSha
  let commitShas ← exportWorkspaceCommits runGitCommandCapture baseSha headSha
  let nameOnly ← runGitCommandCapture (.diff .nameOnly (diffRange baseSha headSha))
  let orderedPaths := (split '\x00' nameOnly).filter fun path => path ≠ ""
  let sections := splitDiffIntoSections patch
  if sections.length ≠ orderedPaths.length then
    .error (.message
      s!"workspace diff sections ({sections.length}) do not match changed files ({orderedPaths.length})")
  else
    let patches := setEach (orderedPaths.zip sections) fun _ => none
    .ok
      { patch
        commitShas
        files := entries.map fun file =>
          { filename := file.entry.path
            status := file.entry.status
            previousPath := file.entry.previousPath
            counts := file.counts
            patch := filePatch (patches file.entry.path) } }

def changedFileStatus : Status → ChangedFileStatus
  | .added => .added
  | .deleted => .deleted
  | .modified => .modified
  | .typeChanged _ => .typeChanged
  | .renamed _ _ => .renamed
  | .copied _ _ => .copied

def entryOf (change : Change) : NameStatusEntry where
  path := change.path.text
  status := changedFileStatus change.status
  previousPath := change.status.previous.map GitPath.text

/-- The line counts of a change; a binary file counts no lines. -/
def lineCounts (change : Change) : LineCounts :=
  match change.counts with
  | none => { additions := 0, deletions := 0 }
  | some (added, deleted) => { additions := added, deletions := deleted }

theorem readNameStatus_change (change : Change) (rest : List String) :
    readNameStatus (change.nameStatusFields ++ rest) =
      (readNameStatus rest).map fun entries => entryOf change :: entries := by
  have named : change.path.text ≠ "" := change.path.nonempty
  cases h : change.status <;>
    cases read : readNameStatus rest <;>
      simp [Change.nameStatusFields, Change.statusField, h, Status.previous, Status.letter,
        Status.score, readNameStatus, gitStatusNames, read, pushEntry, named, entryOf,
        changedFileStatus, Except.map, bind, Except.bind]

theorem parseNameStatusZ_changes (changes : List Change) :
    parseNameStatusZ (nameStatusZ changes) = .ok (changes.map entryOf) := by
  rw [parseNameStatusZ, split_nameStatusZ]
  induction changes with
  | nil => rfl
  | cons change rest ih =>
    rw [List.flatMap_cons, List.append_assoc, readNameStatus_change, ih]
    rfl

theorem cutAtTab_cons {before rest : List Char} (none : '\t' ∉ before) :
    cutAtTab (before ++ '\t' :: rest) = some (before, rest) := by
  have others : ∀ c ∈ before, decide (c ≠ '\t') = true := by
    intro c mem
    rw [decide_eq_true_eq]
    rintro rfl
    exact none mem
  rw [cutAtTab, List.dropWhile_append_of_pos others, List.takeWhile_append_of_pos others]
  simp

theorem tab_notMem_numeral {n : Nat} : '\t' ∉ numeral n := by
  intro mem
  have := numeral_isDigit mem
  revert this
  decide

theorem numstatParts_of {added deleted path : List Char} (noTab : '\t' ∉ added)
    (noTab' : '\t' ∉ deleted) :
    numstatParts (String.ofList (added ++ '\t' :: (deleted ++ '\t' :: path))) =
      (String.ofList added, String.ofList deleted, String.ofList path) := by
  rw [numstatParts, String.toList_ofList, cutAtTab_cons noTab]
  simp only [cutAtTab_cons noTab']

theorem lineCount_numeral (n : Nat) : lineCount (String.ofList (numeral n)) = n := by
  have apart : String.ofList (numeral n) ≠ "-" := by
    intro dash
    have chars : numeral n = ['-'] := by simpa using congrArg String.toList dash
    have digit : '-'.isDigit = true := numeral_isDigit (n := n) (by simp [chars])
    revert digit
    decide
  rw [lineCount, if_neg apart, parseInt_numeral]
  rfl

theorem numstatParts_change (change : Change) (path : String) :
    ∃ added deleted, numstatParts (change.countsText ++ path) = (added, deleted, path) ∧
      lineCounts change = { additions := lineCount added, deletions := lineCount deleted } := by
  cases h : change.counts with
  | none =>
    refine ⟨"-", "-", ?_, ?_⟩
    · have noTab : '\t' ∉ ['-'] := by decide
      have whole : change.countsText ++ path =
          String.ofList (['-'] ++ '\t' :: (['-'] ++ '\t' :: path.toList)) := by
        apply String.toList_injective
        simp [Change.countsText, h]
      rw [whole, numstatParts_of noTab noTab, String.ofList_toList]
    · simp [lineCounts, h, lineCount]
  | some counts =>
    obtain ⟨added, deleted⟩ := counts
    refine ⟨String.ofList (numeral added), String.ofList (numeral deleted), ?_, ?_⟩
    · have whole : change.countsText ++ path =
          String.ofList (numeral added ++ '\t' :: (numeral deleted ++ '\t' :: path.toList)) := by
        apply String.toList_injective
        simp [Change.countsText, h]
      rw [whole, numstatParts_of tab_notMem_numeral tab_notMem_numeral, String.ofList_toList]
    · simp [lineCounts, h, lineCount_numeral]

theorem Change.numstatRecord_ne_empty (change : Change) (path : String) :
    change.countsText ++ path ≠ "" := by
  intro empty
  have chars := congrArg String.toList empty
  cases h : change.counts <;> simp [Change.countsText, h] at chars

theorem readNumstat_change (change : Change) (rest : List String) (counts : CountsByPath) :
    readNumstat (change.numstatFields ++ rest) counts =
      readNumstat rest (Function.update counts change.path.text (some (lineCounts change))) := by
  have named : change.path.text ≠ "" := change.path.nonempty
  rw [Change.numstatFields]
  cases previous : change.status.previous with
  | none =>
    obtain ⟨added, deleted, parts, eq⟩ := numstatParts_change change change.path.text
    have record := Change.numstatRecord_ne_empty change change.path.text
    simp [readNumstat, parts, record, named, eq]
  | some previous =>
    -- the third part is empty, so the two paths are the next two fields
    obtain ⟨added, deleted, parts, eq⟩ := numstatParts_change change ""
    have record := Change.numstatRecord_ne_empty change ""
    rw [String.append_empty] at parts record
    simp [readNumstat, parts, record, named, eq]

theorem parseNumstatZ_changes (changes : List Change) :
    parseNumstatZ (numstatZ changes) =
      setEach (changes.map fun change => (change.path.text, lineCounts change)) fun _ => none := by
  rw [parseNumstatZ, split_numstatZ]
  generalize (fun _ => none : CountsByPath) = counts
  induction changes generalizing counts with
  | nil => simp [readNumstat, setEach]
  | cons change rest ih =>
    rw [List.flatMap_cons, List.append_assoc, readNumstat_change, ih]
    rfl

section SetEach

variable {β : Type} {pairs : List (String × β)} {map : String → Option β} {key : String}

theorem setEach_of_notMem (absent : key ∉ pairs.map Prod.fst) : setEach pairs map key = map key := by
  induction pairs generalizing map with
  | nil => rfl
  | cons pair rest ih =>
    rw [List.map_cons, List.mem_cons, not_or] at absent
    rw [setEach, ih absent.2, Function.update_of_ne absent.1]

/-- With distinct keys every pair is found again. -/
theorem setEach_of_mem {value : β} (distinct : (pairs.map Prod.fst).Nodup)
    (mem : (key, value) ∈ pairs) : setEach pairs map key = some value := by
  induction pairs generalizing map with
  | nil => cases mem
  | cons pair rest ih =>
    rw [List.map_cons, List.nodup_cons] at distinct
    rcases List.mem_cons.mp mem with rfl | mem
    · rw [setEach, setEach_of_notMem distinct.1, Function.update_self]
    · exact ih distinct.2 mem

end SetEach

/-- The text cut out for a section: its lines, the last one of the diff with its line
break. -/
def SectionText (part : DiffSection) (text : String) : Prop :=
  text = join '\n' part.lines ∨ text = closed '\n' part.lines

/-- The texts cut out of a diff with these sections. -/
def sectionTexts : List DiffSection → List String
  | [] => []
  | [part] => [closed '\n' part.lines]
  | part :: next :: rest => join '\n' part.lines :: sectionTexts (next :: rest)

theorem sectionTexts_spec (parts : List DiffSection) :
    List.Forall₂ SectionText parts (sectionTexts parts) := by
  fun_induction sectionTexts parts with
  | case1 => exact .nil
  | case2 part => exact .cons (.inr rfl) .nil
  | case3 part next rest ih => exact .cons (.inl rfl) ih

theorem collectSections_append {later rest current : List String}
    (inside : ∀ line ∈ later, startsWith line "diff --git " = false) :
    collectSections (later ++ rest) current = collectSections rest (current ++ later) := by
  induction later generalizing current with
  | nil => simp
  | cons line later ih =>
    rw [List.cons_append, collectSections, if_neg (by simp [inside line List.mem_cons_self]),
      ih fun other mem => inside other (List.mem_cons_of_mem _ mem)]
    simp

theorem collectSections_part (part : DiffSection) (rest current : List String) :
    collectSections (part.lines ++ rest) current =
      pushSection current (collectSections rest part.lines) := by
  rw [DiffSection.lines, List.cons_append, collectSections, if_pos part.startsWith_firstLine,
    collectSections_append part.startsWith_laterLines]
  rfl

theorem collectSections_parts (parts : List DiffSection) (part : DiffSection) :
    collectSections (parts.flatMap DiffSection.lines ++ [""]) part.lines =
      sectionTexts (part :: parts) := by
  induction parts generalizing part with
  | nil =>
    -- the line break that ends the diff leaves an empty last line
    have last : startsWith "" "diff --git " = false := by decide
    simp [collectSections, last, pushSection, sectionTexts, join_append_empty]
  | cons next rest ih =>
    rw [List.flatMap_cons, List.append_assoc, collectSections_part, ih, sectionTexts]
    simp [pushSection, DiffSection.lines]

theorem splitDiffIntoSections_changes (changes : List Change) :
    splitDiffIntoSections (unifiedDiff changes) =
      sectionTexts (changes.flatMap Change.sections) := by
  rw [splitDiffIntoSections, split_unifiedDiff, unifiedDiff]
  cases changes.flatMap Change.sections with
  | nil => simp [sectionTexts]
  | cons part parts =>
    have some : ¬ closed '\n' ((part :: parts).flatMap DiffSection.lines) = "" := by
      rw [closed_eq_empty_iff]
      simp [DiffSection.lines]
    rw [if_neg some, List.flatMap_cons, List.append_assoc, collectSections_part,
      collectSections_parts]
    rfl

/-- Git as documented: it knows the two commits and prints the changes between them. -/
def documentedGit (changes : List Change) (base head : CommitSha) (commits : String) : GitCapture
  | .diff selector range =>
    if range = base.text ++ "..." ++ head.text then
      .ok (match selector with
        | .patch => unifiedDiff changes
        | .nameStatus => nameStatusZ changes
        | .numstat => numstatZ changes
        | .nameOnly => nameOnlyZ changes)
    else .error .git
  | .revList range =>
    if range = base.text ++ ".." ++ head.text then .ok commits else .error .git

/-- The record of a change, with the patch found for its path. -/
def windowFile (change : Change) (patch : Option String) : WindowFile where
  filename := change.path.text
  status := changedFileStatus change.status
  previousPath := change.status.previous.map GitPath.text
  counts := lineCounts change
  patch := filePatch patch

theorem requireComparableRef_sha (sha : CommitSha) (label caller : String) :
    requireComparableRef sha.text label caller = .ok () := by
  have dash : startsWith sha.text "-" = false := by
    have first := startsWith_sha sha
    rw [startsWith, Bool.eq_false_iff, ne_eq, List.isPrefixOf_iff_prefix]
    rintro ⟨rest, eq⟩
    exact first (by rw [← eq]; rfl)
  simp [requireComparableRef, sha.digits.1, dash]

theorem requireComparableRefs_sha (base head : CommitSha) (caller : String) :
    requireComparableRefs base.text head.text caller = .ok () := by
  simp [requireComparableRefs, requireComparableRef_sha, bind, Except.bind]

variable {rendering : Rendering} {base head : CommitSha} {commits : String}

theorem exportWorkspaceChangedFiles_documented (list : ChangeList rendering) :
    exportWorkspaceChangedFiles (documentedGit list.changes base head commits) base.text head.text =
      .ok (list.changes.map fun change => { entry := entryOf change, counts := lineCounts change }) := by
  have counted : ∀ change ∈ list.changes,
      parseNumstatZ (numstatZ list.changes) change.path.text = some (lineCounts change) := by
    intro change mem
    rw [parseNumstatZ_changes]
    refine setEach_of_mem ?_ (List.mem_map.mpr ⟨change, mem, rfl⟩)
    simpa [Function.comp_def] using list.distinct
  simp only [exportWorkspaceChangedFiles, requireComparableRefs_sha, diffRange, trim_sha,
    documentedGit, if_true, bind, Except.bind, parseNameStatusZ_changes, List.map_map]
  refine congrArg Except.ok (List.map_congr_left fun change mem => ?_)
  simp [entryOf, counted change mem]

theorem orderedPaths_documented (changes : List Change) :
    ((split '\x00' (nameOnlyZ changes)).filter fun path => path ≠ "") =
      changes.map fun change => change.path.text := by
  rw [split_nameOnlyZ, List.filter_append, List.filter_eq_self.mpr]
  · simp
  · intro path mem
    obtain ⟨change, _, rfl⟩ := List.mem_map.mp mem
    simpa using change.path.nonempty

/-- The `Map` of the patches of a documented list of changes. -/
def patchesOf (changes : List Change) : String → Option String :=
  setEach ((changes.map fun change => change.path.text).zip
    (sectionTexts (changes.flatMap Change.sections))) fun _ => none

/-- The export of a documented list of changes. -/
theorem exportWorkspaceWindow_documented (list : ChangeList rendering) :
    exportWorkspaceWindow (documentedGit list.changes base head commits) base.text head.text =
      if (sectionTexts (list.changes.flatMap Change.sections)).length ≠ list.changes.length then
        .error (.message ("workspace diff sections (" ++
          toString (sectionTexts (list.changes.flatMap Change.sections)).length ++
          ") do not match changed files (" ++ toString list.changes.length ++ ")"))
      else
        .ok
          { patch := unifiedDiff list.changes
            commitShas := (split '\n' commits).filter fun sha => sha ≠ ""
            files := list.changes.map fun change =>
              windowFile change (patchesOf list.changes change.path.text) } := by
  simp only [exportWorkspaceWindow, requireComparableRefs_sha,
    exportWorkspaceChangedFiles_documented, exportWorkspaceDiff, exportWorkspaceCommits, diffRange,
    commitRange, trim_sha, bind, Except.bind]
  simp only [documentedGit, if_true, orderedPaths_documented, splitDiffIntoSections_changes,
    List.length_map, List.map_map]
  rfl

theorem length_le_sections {changes : List Change}
    (rendered : ∀ change ∈ changes, change.sections.length = change.status.sectionCount rendering) :
    changes.length ≤ (changes.flatMap Change.sections).length := by
  induction changes with
  | nil => simp
  | cons change rest ih =>
    rw [List.forall_mem_cons] at rendered
    have := change.status.sectionCount_pos rendering
    have := ih rendered.2
    rw [List.flatMap_cons, List.length_append, List.length_cons, rendered.1]
    omega

/-- There are as many sections as changed paths when no path takes two. -/
theorem length_sections_eq_iff {changes : List Change}
    (rendered : ∀ change ∈ changes, change.sections.length = change.status.sectionCount rendering) :
    (changes.flatMap Change.sections).length = changes.length ↔
      ∀ change ∈ changes, change.status.sectionCount rendering = 1 := by
  induction changes with
  | nil => simp
  | cons change rest ih =>
    rw [List.forall_mem_cons] at rendered
    have one := change.status.sectionCount_pos rendering
    have more := length_le_sections rendered.2
    rw [List.flatMap_cons, List.length_append, List.length_cons, rendered.1,
      List.forall_mem_cons, ← ih rendered.2]
    omega

/-- Sections that are one each pair with their changes. -/
theorem forall₂_of_single {R : DiffSection → String → Prop} {changes : List Change}
    {texts : List String} (single : ∀ change ∈ changes, change.sections.length = 1)
    (h : List.Forall₂ R (changes.flatMap Change.sections) texts) :
    List.Forall₂ (fun change text => ∃ part, change.sections = [part] ∧ R part text) changes
      texts := by
  induction changes generalizing texts with
  | nil =>
    cases h
    exact .nil
  | cons change rest ih =>
    obtain ⟨part, eq⟩ := List.length_eq_one_iff.mp (single change List.mem_cons_self)
    rw [List.flatMap_cons, eq, List.singleton_append] at h
    cases h with
    | cons first later =>
      refine .cons ⟨part, eq, first⟩ (ih ?_ later)
      intro other mem
      exact single other (List.mem_cons_of_mem _ mem)

theorem exists_zip_of_mem {α β : Type} {R : α → β → Prop} {xs : List α} {ys : List β} {x : α}
    (h : List.Forall₂ R xs ys) (mem : x ∈ xs) : ∃ y, (x, y) ∈ xs.zip ys ∧ R x y := by
  induction h with
  | nil => cases mem
  | cons first _ ih =>
    rcases List.mem_cons.mp mem with rfl | mem
    · exact ⟨_, by simp, first⟩
    · obtain ⟨y, zipped, holds⟩ := ih mem
      exact ⟨y, by simp [zipped], holds⟩

/-- When no path takes two sections every path is given the text of its own one. -/
theorem patchesOf_single {list : ChangeList rendering}
    (single : ∀ change ∈ list.changes, change.status.sectionCount rendering = 1) :
    ∀ change ∈ list.changes, ∃ text, patchesOf list.changes change.path.text = some text ∧
      ∃ part, change.sections = [part] ∧ SectionText part text := by
  have paired := forall₂_of_single
    (fun change mem => (list.rendered change mem).trans (single change mem))
    (sectionTexts_spec (list.changes.flatMap Change.sections))
  intro change mem
  obtain ⟨text, zipped, own⟩ := exists_zip_of_mem paired mem
  refine ⟨text, setEach_of_mem ?_ ?_, own⟩
  · rw [List.map_fst_zip (by simp [paired.length_eq])]
    exact list.distinct
  · rw [List.zip_map_left]
    exact List.mem_map.mpr ⟨(change, text), zipped, rfl⟩

theorem exportWorkspaceWindow_ok (list : ChangeList rendering) (base head : CommitSha)
    (commits : String)
    (single : ∀ change ∈ list.changes, change.status.sectionCount rendering = 1) :
    ∃ window,
      exportWorkspaceWindow (documentedGit list.changes base head commits) base.text head.text =
          .ok window ∧
        window.files = list.changes.map fun change =>
          windowFile change (patchesOf list.changes change.path.text) := by
  have same := (length_sections_eq_iff list.rendered).mpr single
  rw [(sectionTexts_spec _).length_eq] at same
  rw [exportWorkspaceWindow_documented, if_neg (not_ne_iff.mpr same)]
  exact ⟨_, rfl, rfl⟩

/-- A path that takes two sections makes the export throw. -/
theorem exportWorkspaceWindow_error {list : ChangeList rendering} {base head : CommitSha}
    {commits : String} {window : ReviewWindowExport}
    (exported : exportWorkspaceWindow (documentedGit list.changes base head commits) base.text
      head.text = .ok window) :
    ∀ change ∈ list.changes, change.status.sectionCount rendering = 1 := by
  rw [exportWorkspaceWindow_documented] at exported
  split at exported
  · cases exported
  · next same =>
    rw [← length_sections_eq_iff list.rendered, (sectionTexts_spec _).length_eq]
    exact not_ne_iff.mp same

/-- The record names the change, with a patch from its own sections if it has one. -/
structure Attributed (change : Change) (file : WindowFile) : Prop where
  filename : file.filename = change.path.text
  status : file.status = changedFileStatus change.status
  previousPath : file.previousPath = change.status.previous.map GitPath.text
  counts : file.counts = lineCounts change
  patch : ∀ text, file.patch = some text → ∃ part ∈ change.sections, SectionText part text

theorem filePatch_some {patch : Option String} {text : String} (h : filePatch patch = some text) :
    patch = some text := by
  cases patch with
  | none => cases h
  | some found =>
    simp only [filePatch] at h
    split at h
    · cases h
    · exact h

/-- Where Git splits no other type change, the export succeeds with one record a change,
attributed to it, exactly when no regular file is replaced by a symbolic link or a symbolic
link by a regular file. -/
theorem window_attributed_iff (list : ChangeList linksSplit) (base head : CommitSha)
    (commits : String) :
    (∃ window,
      exportWorkspaceWindow (documentedGit list.changes base head commits) base.text head.text =
          .ok window ∧
        List.Forall₂ Attributed list.changes window.files) ↔
      ∀ change ∈ list.changes, change.status ≠ .typeChanged .regularAndLink := by
  constructor
  · rintro ⟨window, exported, _⟩ change mem
    exact change.status.sectionCount_linksSplit.mp (exportWorkspaceWindow_error exported change mem)
  · intro whole
    have single : ∀ change ∈ list.changes, change.status.sectionCount linksSplit = 1 :=
      fun change mem => change.status.sectionCount_linksSplit.mpr (whole change mem)
    obtain ⟨window, exported, files⟩ := exportWorkspaceWindow_ok list base head commits single
    refine ⟨window, exported, ?_⟩
    rw [files, List.forall₂_map_right_iff, List.forall₂_same]
    intro change mem
    obtain ⟨text, found, part, eq, own⟩ := patchesOf_single single change mem
    refine ⟨rfl, rfl, rfl, rfl, ?_⟩
    intro patch h
    have : some text = some patch := found.symm.trans (filePatch_some h)
    cases this
    exact ⟨part, by simp [eq], own⟩

/-- The regular file `config` becomes a symbolic link to `etc`. -/
def configLinked : ChangeList linksSplit where
  changes :=
    [{ path := ⟨"config", by decide, by decide⟩
       status := .typeChanged .regularAndLink
       counts := some (1, 1)
       sections :=
         [{ names := ⟨"a/config b/config", by decide⟩
            extended := [(.deletedFileMode, ⟨"100644", by decide⟩)]
            body := .text ⟨"a/config", by decide⟩ ⟨"/dev/null", by decide⟩
              [{ oldStart := 1, oldCount := 1, newStart := 0, newCount := 0
                 heading := ⟨"", by decide⟩
                 lines := [⟨.removed, ⟨"debug = false", by decide⟩⟩] }] },
          { names := ⟨"a/config b/config", by decide⟩
            extended := [(.newFileMode, ⟨"120000", by decide⟩)]
            body := .text ⟨"/dev/null", by decide⟩ ⟨"b/config", by decide⟩
              [{ oldStart := 0, oldCount := 0, newStart := 1, newCount := 1
                 heading := ⟨"", by decide⟩
                 lines := [⟨.added, ⟨"etc", by decide⟩⟩] }] }] }]
  distinct := by decide
  rendered := by
    intro change mem
    cases List.mem_singleton.mp mem
    rfl

theorem type_change_not_attributed :
    exportWorkspaceWindow (documentedGit configLinked.changes baseCommit headCommit "bb\n")
        baseCommit.text headCommit.text =
      .error (.message "workspace diff sections (2) do not match changed files (1)") ∧
    ¬ ∃ window,
      exportWorkspaceWindow (documentedGit configLinked.changes baseCommit headCommit "bb\n")
          baseCommit.text headCommit.text = .ok window ∧
        List.Forall₂ Attributed configLinked.changes window.files := by
  have thrown : exportWorkspaceWindow
      (documentedGit configLinked.changes baseCommit headCommit "bb\n") baseCommit.text
        headCommit.text =
          .error (.message "workspace diff sections (2) do not match changed files (1)") := by
    rw [exportWorkspaceWindow_documented]
    rfl
  refine ⟨thrown, ?_⟩
  rintro ⟨window, exported, _⟩
  rw [thrown] at exported
  cases exported

end WindowExport
