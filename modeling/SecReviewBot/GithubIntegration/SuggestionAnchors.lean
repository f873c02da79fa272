import SecReviewBot.GithubIntegration.WindowExport

/-!
# Where suggestions can be anchored

`suggestion-service.ts` turns a mitigation patch into suggestions on the lines of the pull
request. For each file of that patch it reads the hunk headers from the patch field of the
file of the same name in the exported window; a file without a patch cannot be anchored to.
-/

namespace SuggestionAnchors

open TextCodecs TextPieces GitDiffs WorkspaceHistory WindowExport

structure HunkHeader where
  oldStart : Nat
  oldCount : Nat
  newStart : Nat
  newCount : Nat
  deriving DecidableEq

def skip (start : String) (text : List Char) : Option (List Char) :=
  if start.toList.isPrefixOf text then some (text.drop start.toList.length) else none

/-- `(?:,(\d+))?`, a missing count being one. -/
def readCount (text : List Char) : Nat × List Char :=
  match text with
  | ',' :: rest => (readNumeral rest).getD (1, text)
  | _ => (1, text)

/-- The numbers are exact, where `parseInt` rounds those from 2^53 on, past any line number. -/
def parseHunkHeader (headerLine : String) : Option HunkHeader := do
  let rest ← skip "@@ -" headerLine.toList
  let (oldStart, rest) ← readNumeral rest
  let (oldCount, rest) := readCount rest
  let rest ← skip " +" rest
  let (newStart, rest) ← readNumeral rest
  let (newCount, rest) := readCount rest
  let _ ← skip " @@" rest
  some { oldStart, oldCount, newStart, newCount }

def parsePatchHunks (patchContent : String) : List HunkHeader :=
  if trim patchContent = "" then []
  else ((split '\n' patchContent).filter fun line => startsWith line "@@ ").filterMap parseHunkHeader

/-- The hunks of the pull request that `buildSuggestionManifest` may anchor changes of a
path to, or the reason why it leaves them unmapped. -/
def anchorHunks (files : List WindowFile) (path : String) : Except String (List HunkHeader) :=
  match (files.find? fun file => file.filename = path).bind WindowFile.patch with
  | none => .error "File is not visible as a patchable PR diff file."
  | some patch =>
    if trim patch = "" then .error "File is not visible as a patchable PR diff file."
    else if (parsePatchHunks patch).length = 0 then
      .error "File has no anchorable PR patch hunks."
    else .ok (parsePatchHunks patch)

def headerOf (hunk : Hunk) : HunkHeader where
  oldStart := hunk.oldStart
  oldCount := hunk.oldCount
  newStart := hunk.newStart
  newCount := hunk.newCount

theorem skip_append (start : String) (rest : List Char) :
    skip start (start.toList ++ rest) = some rest := by
  rw [skip, if_pos (List.isPrefixOf_iff_prefix.mpr (List.prefix_append _ _)), List.drop_left]

theorem readCount_countChars {count : Nat} {rest : List Char} :
    readCount (countChars count ++ ' ' :: rest) = (count, ' ' :: rest) := by
  have stop : ∀ c ∈ (' ' :: rest).head?, c.isDigit = false := by
    intro c mem
    cases mem
    decide
  rw [countChars]
  split
  · next one => simp [readCount, one]
  · simp [readCount, readNumeral_numeral stop]

theorem isDigit_head_countChars {count : Nat} {rest : List Char} :
    ∀ c ∈ (countChars count ++ ' ' :: rest).head?, c.isDigit = false := by
  intro c mem
  rw [countChars] at mem
  split at mem
  · cases mem
    decide
  · cases mem
    decide

theorem parseHunkHeader_header (hunk : Hunk) : parseHunkHeader hunk.header = some (headerOf hunk) := by
  have whole : hunk.header.toList =
      "@@ -".toList ++ (numeral hunk.oldStart ++ (countChars hunk.oldCount ++ ' ' :: '+' ::
        (numeral hunk.newStart ++ (countChars hunk.newCount ++ ' ' :: '@' :: '@' ::
          hunk.heading.text.toList)))) := by
    simp [Hunk.header]
  have plus : ∀ rest, skip " +" (' ' :: '+' :: rest) = some rest := skip_append " +"
  have close : ∀ rest, skip " @@" (' ' :: '@' :: '@' :: rest) = some rest := skip_append " @@"
  simp only [parseHunkHeader, whole, skip_append, readNumeral_numeral isDigit_head_countChars,
    readCount_countChars, plus, close, Option.bind_eq_bind, Option.bind_some]
  rfl

/-- The lines of a section that start like a hunk header are its hunk headers. -/
theorem filter_hunkLines (hunks : List Hunk) :
    ((hunks.flatMap fun hunk => hunk.header :: hunk.lines.map HunkLine.text).filter
      fun line => startsWith line "@@ ") = hunks.map Hunk.header := by
  induction hunks with
  | nil => rfl
  | cons hunk rest ih =>
    have others : (hunk.lines.map HunkLine.text).filter (fun line => startsWith line "@@ ") = [] := by
      rw [List.filter_eq_nil_iff]
      intro line mem
      obtain ⟨hunkLine, _, rfl⟩ := List.mem_map.mp mem
      simp [hunkLine.startsWith_text.2]
    rw [List.flatMap_cons, List.filter_append, ih,
      List.filter_cons_of_pos (by simp [hunk.startsWith_header.2]), others]
    rfl

theorem filter_lines (part : DiffSection) :
    (part.lines.filter fun line => startsWith line "@@ ") = part.body.hunkList.map Hunk.header := by
  have first : startsWith part.firstLine "@@ " = false := by
    simp [DiffSection.firstLine, startsWith, List.isPrefixOf_cons_cons]
  have extended : (part.extended.map extendedLine).filter (fun line => startsWith line "@@ ") =
      [] := by
    rw [List.filter_eq_nil_iff]
    intro line mem
    obtain ⟨header, _, rfl⟩ := List.mem_map.mp mem
    simp [(extendedLine_startsWith header).2]
  rw [DiffSection.lines, List.filter_cons_of_neg (by simp [first]), DiffSection.laterLines,
    List.filter_append, extended, List.nil_append]
  cases body : part.body with
  | bare => rfl
  | placeholder names =>
    simp [Body.lines, Body.hunkList, startsWith, List.isPrefixOf_cons_cons]
  | text source target hunks =>
    have sourceLine : startsWith ("--- " ++ source.text) "@@ " = false := by
      simp [startsWith, List.isPrefixOf_cons_cons]
    have targetLine : startsWith ("+++ " ++ target.text) "@@ " = false := by
      simp [startsWith, List.isPrefixOf_cons_cons]
    rw [Body.lines, List.filter_cons_of_neg (by simp [sourceLine]),
      List.filter_cons_of_neg (by simp [targetLine]), filter_hunkLines, Body.hunkList]

theorem split_sectionText {part : DiffSection} {text : String} (h : SectionText part text) :
    split '\n' text = part.lines ∨ split '\n' text = part.lines ++ [""] := by
  rcases h with rfl | rfl
  · exact .inl (split_join part.unbroken_lines (by simp [DiffSection.lines]))
  · exact .inr (split_closed part.unbroken_lines)

/-- A phrase stands in the text of a section when one of its lines has it. -/
theorem includes_sectionText {part : DiffSection} {text needle : String}
    (h : SectionText part text) (apart : '\n' ∉ needle.toList) (some : needle.toList ≠ []) :
    includes text needle = true ↔ ∃ line ∈ part.lines, includes line needle = true := by
  rcases h with rfl | rfl
  · exact includes_join_iff apart some
  · exact includes_closed_iff apart some

theorem trim_sectionText {part : DiffSection} {text : String} (h : SectionText part text) :
    trim text ≠ "" := by
  have first : includes part.firstLine "diff --git " = true := by
    rw [includes, decide_eq_true_eq]
    exact (List.isPrefixOf_iff_prefix.mp part.startsWith_firstLine).isInfix
  have whole : includes text "diff --git " = true :=
    (includes_sectionText h (by decide) (by decide)).mpr ⟨_, List.mem_cons_self, first⟩
  rw [includes, decide_eq_true_eq] at whole
  have letter : 'd' ∈ text.toList := whole.subset (by decide)
  exact strip_ne_empty letter (by decide)

theorem parsePatchHunks_sectionText {part : DiffSection} {text : String}
    (h : SectionText part text) : parsePatchHunks text = part.body.hunkList.map headerOf := by
  have found : ((split '\n' text).filter fun line => startsWith line "@@ ") =
      part.body.hunkList.map Hunk.header := by
    rcases split_sectionText h with eq | eq
    · rw [eq, filter_lines]
    · rw [eq, List.filter_append, filter_lines]
      simp [startsWith]
  have headers : parseHunkHeader ∘ Hunk.header = some ∘ headerOf :=
    funext parseHunkHeader_header
  rw [parsePatchHunks, if_neg (trim_sectionText h), found, List.filterMap_map, headers,
    List.filterMap_eq_map]

/-- The body of the section is Git's line for binary files. -/
def BinaryPlaceholder (part : DiffSection) : Prop := part.body.isPlaceholder = true

theorem includes_placeholder {part : DiffSection} (binary : BinaryPlaceholder part) :
    ∃ line ∈ part.lines, includes line "Binary files" = true := by
  cases body : part.body with
  | placeholder names =>
    refine ⟨"Binary files " ++ names.text ++ " differ", ?_, ?_⟩
    · simp [DiffSection.lines, DiffSection.laterLines, body, Body.lines]
    · rw [includes, decide_eq_true_eq]
      refine List.IsPrefix.isInfix ⟨' ' :: names.text.toList ++ " differ".toList, ?_⟩
      simp
  | bare => simp [BinaryPlaceholder, body, Body.isPlaceholder] at binary
  | text source target hunks => simp [BinaryPlaceholder, body, Body.isPlaceholder] at binary

/-- With distinct paths a file is found by its name. -/
theorem find_windowFile {changes : List Change} {change : Change} {patches : Change → Option String}
    (distinct : (changes.map fun change => change.path.text).Nodup) (mem : change ∈ changes) :
    ((changes.map fun change => windowFile change (patches change)).find?
      fun file => file.filename = change.path.text) =
        some (windowFile change (patches change)) := by
  induction changes with
  | nil => cases mem
  | cons first rest ih =>
    rw [List.map_cons, List.nodup_cons] at distinct
    rcases List.mem_cons.mp mem with rfl | mem
    · rw [List.map_cons, List.find?_cons_of_pos (by simp [windowFile])]
    · have other : ¬ (windowFile first (patches first)).filename = change.path.text := by
        intro same
        exact distinct.1 (List.mem_map.mpr ⟨change, mem, same.symm⟩)
      rw [List.map_cons, List.find?_cons_of_neg (by simpa using other)]
      exact ih distinct.2 mem

/-- What a reader of the window can rely on for one change. -/
structure PatchAvailable (files : List WindowFile) (change : Change) (file : WindowFile) : Prop where
  absent : file.patch = none ↔ ∀ part ∈ change.sections, BinaryPlaceholder part
  anchors : ∀ part ∈ change.sections, ∀ hunk ∈ part.body.hunkList,
    ∃ hunks, anchorHunks files change.path.text = .ok hunks ∧ headerOf hunk ∈ hunks

/-- No line of the section but that of a binary file has the words. -/
def WordsOnlyInPlaceholder (part : DiffSection) : Prop :=
  BinaryPlaceholder part ∨ ∀ line ∈ part.lines, includes line "Binary files" = false

theorem filePatch_eq_none_iff {part : DiffSection} {text : String} (own : SectionText part text) :
    filePatch (some text) = none ↔ ∃ line ∈ part.lines, includes line "Binary files" = true := by
  rw [← includes_sectionText own (by decide) (by decide), filePatch]
  split
  · next found => simp [found]
  · next missing => simp [missing]

/-- A section with hunks is no placeholder, so its text is kept. -/
theorem filePatch_of_hunk {part : DiffSection} {text : String} {hunk : Hunk}
    (own : SectionText part text) (words : WordsOnlyInPlaceholder part)
    (mem : hunk ∈ part.body.hunkList) : filePatch (some text) = some text := by
  have never : ∀ line ∈ part.lines, includes line "Binary files" = false := by
    rcases words with binary | never
    · cases body : part.body <;>
        simp [BinaryPlaceholder, body, Body.isPlaceholder, Body.hunkList] at binary mem
    · exact never
  have absent : ¬ includes text "Binary files" = true := by
    rw [includes_sectionText own (by decide) (by decide)]
    rintro ⟨line, inside, has⟩
    rw [never line inside] at has
    cases has
  simp only [filePatch, if_neg absent]

theorem anchorHunks_of_patch {files : List WindowFile} {path text : String} {part : DiffSection}
    {hunk : Hunk} (own : SectionText part text) (mem : hunk ∈ part.body.hunkList)
    (found : (files.find? fun file => file.filename = path).bind WindowFile.patch = some text) :
    anchorHunks files path = .ok (part.body.hunkList.map headerOf) := by
  have some : ¬ (part.body.hunkList.map headerOf).length = 0 := by
    rw [List.length_map, List.length_eq_zero_iff]
    exact List.ne_nil_of_mem mem
  simp only [anchorHunks, found, if_neg (trim_sectionText own), parsePatchHunks_sectionText own,
    if_neg some]

/-- If only binary files have no patch, the words stand nowhere else. -/
theorem wordsOnlyInPlaceholder_of_available {rendering : Rendering} {list : ChangeList rendering}
    {base head : CommitSha} {commits : String} {window : ReviewWindowExport}
    (exported : exportWorkspaceWindow (documentedGit list.changes base head commits) base.text
      head.text = .ok window)
    (available : List.Forall₂ (PatchAvailable window.files) list.changes window.files) :
    ∀ change ∈ list.changes, ∀ part ∈ change.sections, WordsOnlyInPlaceholder part := by
  have single := exportWorkspaceWindow_error exported
  obtain ⟨window', exported', files⟩ := exportWorkspaceWindow_ok list base head commits single
  cases exported.symm.trans exported'
  rw [files, List.forall₂_map_right_iff, List.forall₂_same] at available
  intro change mem
  obtain ⟨text, found, part, eq, own⟩ := patchesOf_single single change mem
  have absent := (available change mem).absent
  simp only [windowFile, found, filePatch_eq_none_iff own, eq, List.forall_mem_singleton] at absent ⊢
  by_cases binary : BinaryPlaceholder part
  · exact .inl binary
  · refine .inr fun line inside => ?_
    rw [Bool.eq_false_iff]
    intro words
    exact binary (absent.mp ⟨line, inside, words⟩)

/-- A patch is reported absent for binary files only, and every text hunk can be anchored
to, exactly when no change is a type change and no section of another file has the words
"Binary files" on one of its lines. -/
theorem patch_absent_only_if_binary_iff (list : ChangeList everySplit) (base head : CommitSha)
    (commits : String) :
    (∃ window,
      exportWorkspaceWindow (documentedGit list.changes base head commits) base.text head.text =
          .ok window ∧
        List.Forall₂ (PatchAvailable window.files) list.changes window.files) ↔
      ∀ change ∈ list.changes, (∀ types, change.status ≠ .typeChanged types) ∧
        ∀ part ∈ change.sections, WordsOnlyInPlaceholder part := by
  constructor
  · rintro ⟨window, exported, available⟩ change mem
    have single := exportWorkspaceWindow_error exported change mem
    exact ⟨change.status.sectionCount_everySplit.mp single,
      wordsOnlyInPlaceholder_of_available exported available change mem⟩
  · intro condition
    have single : ∀ change ∈ list.changes, change.status.sectionCount everySplit = 1 :=
      fun change mem => change.status.sectionCount_everySplit.mpr (condition change mem).1
    obtain ⟨window, exported, files⟩ := exportWorkspaceWindow_ok list base head commits single
    refine ⟨window, exported, ?_⟩
    rw [files, List.forall₂_map_right_iff, List.forall₂_same]
    intro change mem
    obtain ⟨text, found, part, eq, own⟩ := patchesOf_single single change mem
    have words := (condition change mem).2 part (by simp [eq])
    constructor
    · simp only [windowFile, found, filePatch_eq_none_iff own, eq, List.forall_mem_singleton]
      constructor
      · rintro ⟨line, inside, has⟩
        rcases words with binary | never
        · exact binary
        · rw [never line inside] at has
          cases has
      · exact includes_placeholder
    · simp only [eq, List.forall_mem_singleton]
      intro hunk inside
      refine ⟨_, anchorHunks_of_patch own inside ?_, List.mem_map.mpr ⟨hunk, inside, rfl⟩⟩
      rw [find_windowFile list.distinct mem, Option.bind_some, windowFile, found]
      exact filePatch_of_hunk own words inside

theorem unbroken_empty : '\n' ∉ "".toList := by decide

/-- The section of `README` that adds a line about binary files. -/
def readmeSection : DiffSection where
  names := ⟨"a/README b/README", by decide⟩
  extended := [(.index, ⟨"2f1b..9c0d 100644", by decide⟩)]
  body := .text ⟨"a/README", by decide⟩ ⟨"b/README", by decide⟩
    [{ oldStart := 1, oldCount := 0, newStart := 1, newCount := 1
       heading := ⟨"", unbroken_empty⟩
       lines := [⟨.added, ⟨"Binary files are not scanned.", by decide⟩⟩] }]

def readmeChanged : ChangeList everySplit where
  changes :=
    [{ path := ⟨"README", by decide, by decide⟩
       status := .modified
       counts := some (1, 0)
       sections := [readmeSection] }]
  distinct := by decide
  rendered := by
    intro change mem
    cases List.mem_singleton.mp mem
    rfl

theorem text_patch_reported_absent :
    ¬ ∃ window,
      exportWorkspaceWindow (documentedGit readmeChanged.changes baseCommit headCommit "bb\n")
          baseCommit.text headCommit.text = .ok window ∧
        List.Forall₂ (PatchAvailable window.files) readmeChanged.changes window.files := by
  rintro ⟨window, exported, available⟩
  have words := wordsOnlyInPlaceholder_of_available exported available _ List.mem_cons_self
    readmeSection List.mem_cons_self
  rcases words with binary | never
  · cases binary
  · have added := never "+Binary files are not scanned." (by decide)
    revert added
    decide

end SuggestionAnchors
