import Mathlib.Data.List.Lex
import Mathlib.Data.List.Sort
import SecReviewBot.DirectoryListings
import SecReviewBot.PythonPaths

/-!
# Which files a scan admits

`discovery/stage.py` selects the files of a full scan by a walk over the workspace and those
of an incremental scan by the records of the changed files; `paths_ignore.py` is the rule of
both. A link is as the file system answers for it.
-/

namespace ScanManifests

open TextCodecs DirectoryListings PythonPaths

/-- What `os.stat` and a read find at a path, links followed. -/
inductive Stat where
  | file (content : List Nat)
  | directory (size : Nat)
  deriving DecidableEq

def Stat.size : Stat → Nat
  | .file content => content.length
  | .directory size => size

def posix (names : List Text) : Text := PurePath.asPosix { root := [], parts := names }

/-- A tree of files, with the answers of the file system. It follows a link wherever the
link leads, or fails. -/
structure Workspace where
  listing : Listing Text (List Nat)
  stat : Text → Option Stat
  named : ∀ names kind, (names, kind) ∈ entries [] listing → Parts names
  files : ∀ names content, (names, .file content) ∈ entries [] listing →
    stat (posix names) = some (.file content)
  directories : ∀ names, (names, .directory) ∈ entries [] listing →
    ∃ size, stat (posix names) = some (.directory size)

inductive ChangeStatus where
  | added | modified | deleted | renamed | copied | typeChanged
  deriving DecidableEq

structure ChangedFile where
  path : Text
  status : ChangeStatus
  deriving DecidableEq

structure ScanScope where
  pathsIgnore : List Text
  incrementalChangedFiles : List ChangedFile

structure DiscoveryEntry where
  path : Text
  sizeBytes : Nat
  language : String
  includeReason : String
  deriving DecidableEq

structure DiscoverySkippedFile where
  path : Text
  reason : String
  sizeBytes : Nat
  deriving DecidableEq

inductive ScanError where
  | value (message : String)
  | os
  deriving DecidableEq

def normalizePathsIgnore (source : String) : Nat → List Text → Except ScanError (List Text)
  | _, [] => .ok []
  | index, item :: rest =>
    let pattern := replace 92 47 (strip item)
    if pattern = [] then
      .error (.value (source ++ " requires paths_ignore[" ++ toString index ++
        "] to be non-empty."))
    else (normalizePathsIgnore source (index + 1) rest).map (pattern :: ·)

def matchesPattern (value pattern : Text) : Bool :=
  !pattern.contains 42 && !pattern.contains 63 &&
      (value == pattern || (pattern ++ [47]).isPrefixOf value) ||
    fnmatch value pattern ||
    !(text "**/").isPrefixOf pattern && fnmatch value (text "**/" ++ pattern)

def matchesPathsIgnore (relativePath : PurePath) (patterns : List Text) : Bool :=
  patterns.any fun pattern => matchesPattern relativePath.asPosix (replace 92 47 pattern)

def includedCodeExtensions : List Text :=
  [".c", ".cc", ".cpp", ".cs", ".go", ".h", ".hpp", ".java", ".js", ".jsx", ".php", ".py", ".rb",
    ".rs", ".sh", ".ts", ".tsx"].map text

def textLikeExtensions : List Text :=
  [".cfg", ".conf", ".csv", ".env", ".htm", ".html", ".ini", ".json", ".log", ".md", ".rst",
    ".sql", ".text", ".tf", ".toml", ".txt", ".xml", ".yaml", ".yml"].map text

def excludedDiscoveryExtensions : List Text :=
  [".csv", ".log", ".md", ".rst", ".text", ".tsv", ".txt"].map text

def excludedDirNames : List Text :=
  [".git", ".hg", ".svn", ".venv", ".yarn", ".next", "__pycache__", "artifacts", "build", "cache",
    "coverage", "dist", "node_modules", "target", "tmp", "vendor"].map text

def pathLanguage (filePath : PurePath) : String :=
  let suffix := lower filePath.suffix
  if filePath.name ∈ ["Dockerfile", "docker-compose.yml", "docker-compose.yaml"].map text then
    "config"
  else if suffix = text ".py" then "python"
  else if suffix ∈ [".js", ".jsx"].map text then "javascript"
  else if suffix ∈ [".ts", ".tsx"].map text then "typescript"
  else if suffix ∈
      [".yaml", ".yml", ".json", ".toml", ".ini", ".conf", ".tf", ".env"].map text then "config"
  else if suffix ∈ textLikeExtensions then "text"
  else if suffix = text ".sh" then "shell"
  else if suffix ∈ includedCodeExtensions then "code"
  else "text"

/-- `Path.parts`, the root being one. -/
def allParts (p : PurePath) : List Text := if p.root = [] then p.parts else p.root :: p.parts

def classifyCandidateFile (relativePath : PurePath) : Bool × String × String :=
  if (allParts relativePath).dropLast.any (· ∈ excludedDirNames) then
    (false, "excluded-directory", pathLanguage relativePath)
  else if lower relativePath.suffix ∈ excludedDiscoveryExtensions then
    (false, "excluded-discovery-kind", pathLanguage relativePath)
  else (true, "text-candidate", pathLanguage relativePath)

/-- `None` for what cannot be read, is no UTF-8 or has a null character. -/
def readUtf8TextFile : Option Stat → Option (List Char)
  | some (.file content) =>
    let decoded := utf8Decode content
    if utf8Encode decoded = content ∧ Char.ofNat 0 ∉ decoded then some decoded else none
  | _ => none

abbrev Selected : Type := DiscoverySkippedFile ⊕ DiscoveryEntry

def isOversized (maxFileBytes sizeBytes : Nat) : Bool :=
  0 < maxFileBytes && maxFileBytes < sizeBytes

section Selection

variable (w : Workspace) (maxFileBytes : Nat) (pathsIgnore : List Text)

/-- The body of the loop over the files of the walk. -/
def selectWalked (names : List Text) : Except ScanError Selected :=
  let relativePath : PurePath := { root := [], parts := names }
  let path := relativePath.asPosix
  let (includeFile, includeReason, language) := classifyCandidateFile relativePath
  match w.stat path with
  | none => .error .os
  | some stat =>
    let sizeBytes := stat.size
    .ok (
      if matchesPathsIgnore relativePath pathsIgnore then
        .inl { path, reason := "paths-ignore", sizeBytes }
      else if !includeFile then .inl { path, reason := includeReason, sizeBytes }
      else if isOversized maxFileBytes sizeBytes then
        .inl { path, reason := "oversized", sizeBytes }
      else if readUtf8TextFile (w.stat path) = none then
        .inl { path, reason := "binary-or-unreadable", sizeBytes }
      else .inr { path, sizeBytes, language, includeReason })

def entryFromIncrementalRecord (pathValue : PurePath) : Selected :=
  let path := pathValue.asPosix
  let (includeFile, includeReason, language) := classifyCandidateFile pathValue
  let existsNow := (w.stat path).isSome
  let sizeBytes := ((w.stat path).map Stat.size).getD 0
  if matchesPathsIgnore pathValue pathsIgnore then
    .inl { path, reason := "paths-ignore", sizeBytes }
  else if !includeFile then .inl { path, reason := includeReason, sizeBytes }
  else if !existsNow then .inl { path, reason := "missing-from-workspace", sizeBytes := 0 }
  else if isOversized maxFileBytes sizeBytes then .inl { path, reason := "oversized", sizeBytes }
  else if readUtf8TextFile (w.stat path) = none then
    .inl { path, reason := "binary-or-unreadable", sizeBytes }
  else .inr { path, sizeBytes, language, includeReason }

/-- `Path(item.path.strip().replace("\\", "/"))`. -/
def normalizedPath (item : ChangedFile) : PurePath := path (replace 92 47 (strip item.path))

/-- The loop over the records, with the paths it has seen. -/
def selectChanged : List Text → List ChangedFile → List Selected
  | _, [] => []
  | seenPaths, item :: rest =>
    let path := (normalizedPath item).asPosix
    if path ∈ seenPaths then selectChanged seenPaths rest
    else if item.status = .deleted then selectChanged (path :: seenPaths) rest
    else
      entryFromIncrementalRecord w maxFileBytes pathsIgnore (normalizedPath item) ::
        selectChanged (path :: seenPaths) rest

end Selection

structure ScanManifest where
  entries : List DiscoveryEntry
  skipped : List DiscoverySkippedFile

def entryOf : Selected → Option DiscoveryEntry
  | .inl _ => none
  | .inr entry => some entry

def skippedOf : Selected → Option DiscoverySkippedFile
  | .inl skip => some skip
  | .inr _ => none

/-- Both lists sorted by path. -/
def manifestOf (selected : List Selected) : ScanManifest where
  entries := (selected.filterMap entryOf).insertionSort fun a b => a.path ≤ b.path
  skipped := (selected.filterMap skippedOf).insertionSort fun a b => a.path ≤ b.path

def sortedNames (names : List Text) : List Text := names.insertionSort (· ≤ ·)

/-- `is_dir` of an entry that `os.walk` lists. -/
def leadsToDirectory (w : Workspace) (names : List Text) : Bool :=
  match w.stat (posix names) with
  | some (.directory _) => true
  | _ => false

def walkedFiles (w : Workspace) : List (List Text) :=
  walk (leadsToDirectory w) sortedNames (· ∈ excludedDirNames) [] w.listing

def buildScanManifest (w : Workspace) (scope : ScanScope) (maxFileBytes : Nat) :
    Except ScanError ScanManifest := do
  let pathsIgnore ← normalizePathsIgnore "Repository discovery" 0 scope.pathsIgnore
  let selected ← (walkedFiles w).mapM (selectWalked w maxFileBytes pathsIgnore)
  return manifestOf selected

def buildIncrementalScanManifest (w : Workspace) (scope : ScanScope) (maxFileBytes : Nat) :
    Except ScanError ScanManifest := do
  let pathsIgnore ← normalizePathsIgnore "Repository discovery" 0 scope.pathsIgnore
  return manifestOf (selectChanged w maxFileBytes pathsIgnore [] scope.incrementalChangedFiles)

section Admission

variable {w : Workspace} {scope : ScanScope} {maxFileBytes : Nat} {pathsIgnore : List Text}
  {names : List Text} {entry : DiscoveryEntry}

/-- The file at a place is admitted as the entry. -/
def Admitted (w : Workspace) (maxFileBytes : Nat) (pathsIgnore : List Text) (pathValue : PurePath)
    (entry : DiscoveryEntry) : Prop :=
  ∃ content, w.stat pathValue.asPosix = some (.file content) ∧
    matchesPathsIgnore pathValue pathsIgnore = false ∧
    (classifyCandidateFile pathValue).1 = true ∧
    isOversized maxFileBytes content.length = false ∧
    readUtf8TextFile (some (.file content)) ≠ none ∧
    entry = { path := pathValue.asPosix, sizeBytes := content.length
              language := (classifyCandidateFile pathValue).2.2
              includeReason := (classifyCandidateFile pathValue).2.1 }

theorem selectWalked_entry_iff :
    selectWalked w maxFileBytes pathsIgnore names = .ok (.inr entry) ↔
      Admitted w maxFileBytes pathsIgnore { root := [], parts := names } entry := by
  rw [selectWalked, Admitted]
  cases found : w.stat (PurePath.asPosix { root := [], parts := names }) with
  | none => simp
  | some stat =>
    cases stat with
    | directory size =>
      have unread : readUtf8TextFile (some (.directory size)) = none := rfl
      simp only [unread, if_true]
      split_ifs <;> simp
    | file content =>
      simp only [Stat.size, Except.ok.injEq, Option.some.injEq, Stat.file.injEq]
      split_ifs <;> simp_all
      by_cases unread : readUtf8TextFile (some (.file content)) = none
      · simp [unread]
      · simp only [unread, if_false, Sum.inr.injEq, not_false_eq_true, true_and]
        exact eq_comm

theorem entryFromIncrementalRecord_entry_iff {pathValue : PurePath} :
    entryFromIncrementalRecord w maxFileBytes pathsIgnore pathValue = .inr entry ↔
      Admitted w maxFileBytes pathsIgnore pathValue entry := by
  rw [entryFromIncrementalRecord, Admitted]
  cases found : w.stat pathValue.asPosix with
  | none =>
    simp only [Option.isSome_none, Bool.not_false, if_true]
    split_ifs <;> simp
  | some stat =>
    cases stat with
    | directory size =>
      have unread : readUtf8TextFile (some (.directory size)) = none := rfl
      simp only [unread, if_true]
      split_ifs <;> simp
    | file content =>
      simp only [Stat.size, Option.isSome_some, Option.map_some, Option.getD_some,
        Option.some.injEq, Stat.file.injEq]
      split_ifs <;> simp_all
      by_cases unread : readUtf8TextFile (some (.file content)) = none
      · simp [unread]
      · simp only [unread, if_false, Sum.inr.injEq, not_false_eq_true, true_and]
        exact eq_comm

/-- Both selections of a file name its path. -/
def pathOf : Selected → Text
  | .inl skip => skip.path
  | .inr entry => entry.path

theorem pathOf_selectWalked {selected : Selected}
    (ok : selectWalked w maxFileBytes pathsIgnore names = .ok selected) :
    pathOf selected = posix names := by
  rw [selectWalked] at ok
  cases found : w.stat (PurePath.asPosix { root := [], parts := names }) with
  | none => simp [found] at ok
  | some stat =>
    simp only [found, Except.ok.injEq] at ok
    rw [← ok]
    split_ifs <;> rfl

theorem pathOf_entryFromIncrementalRecord (pathValue : PurePath) :
    pathOf (entryFromIncrementalRecord w maxFileBytes pathsIgnore pathValue) =
      pathValue.asPosix := by
  rw [entryFromIncrementalRecord]
  simp only
  split_ifs <;> rfl

/-- The file system follows every link that no excluded directory hides. -/
def FollowedLinks (w : Workspace) : Prop :=
  ∀ names, (names, .link) ∈ entries [] w.listing → Reached (· ∈ excludedDirNames) [] names →
    w.stat (posix names) ≠ none

theorem sortedNames_perm (names : List Text) : (sortedNames names).Perm names :=
  List.perm_insertionSort _ _

theorem mem_walkedFiles_iff : names ∈ walkedFiles w ↔
    ∃ kind, (names, kind) ∈ entries [] w.listing ∧ visited (leadsToDirectory w) names kind = true ∧
      Reached (· ∈ excludedDirNames) [] names :=
  mem_walk_iff sortedNames_perm

theorem stat_of_walked (followed : FollowedLinks w) (mem : names ∈ walkedFiles w) :
    w.stat (posix names) ≠ none := by
  obtain ⟨kind, inside, seen, reached⟩ := mem_walkedFiles_iff.mp mem
  cases kind with
  | file content => simp [w.files names content inside]
  | link => exact followed names inside reached
  | directory => cases seen

theorem mapM_selectWalked {files : List (List Text)}
    (found : ∀ names ∈ files, w.stat (posix names) ≠ none) :
    ∃ selected, files.mapM (selectWalked w maxFileBytes pathsIgnore) = .ok selected ∧
      ∀ item, item ∈ selected ↔
        ∃ names ∈ files, selectWalked w maxFileBytes pathsIgnore names = .ok item := by
  induction files with
  | nil => exact ⟨[], rfl, by simp⟩
  | cons names rest ih =>
    obtain ⟨later, whole, members⟩ := ih fun other mem => found other (List.mem_cons_of_mem _ mem)
    have first : ∃ item, selectWalked w maxFileBytes pathsIgnore names = .ok item := by
      rw [selectWalked]
      cases stat : w.stat (PurePath.asPosix { root := [], parts := names }) with
      | none => exact absurd stat (found names List.mem_cons_self)
      | some value => exact ⟨_, rfl⟩
    obtain ⟨item, own⟩ := first
    refine ⟨item :: later, ?_, fun other => ?_⟩
    · rw [List.mapM_cons, own, whole]
      rfl
    · rw [List.exists_mem_cons_iff, own, Except.ok.injEq, List.mem_cons, members, eq_comm]

end Admission

/-- The path by which a record is looked up. -/
def spelled (item : ChangedFile) : Text := (normalizedPath item).asPosix

/-- The first record with the path of the item. -/
def firstRecord (items : List ChangedFile) (place : Text) : Option ChangedFile :=
  items.find? fun item => spelled item = place

section Records

variable {w : Workspace} {maxFileBytes : Nat} {pathsIgnore seen : List Text}
  {items : List ChangedFile}

theorem mem_selectChanged_iff {selected : Selected} :
    selected ∈ selectChanged w maxFileBytes pathsIgnore seen items ↔
      ∃ place item, place ∉ seen ∧ firstRecord items place = some item ∧ item.status ≠ .deleted ∧
        selected = entryFromIncrementalRecord w maxFileBytes pathsIgnore (normalizedPath item) := by
  induction items generalizing seen with
  | nil => simp [selectChanged, firstRecord]
  | cons first rest ih =>
    rw [selectChanged]
    simp only [← spelled.eq_def]
    have found : ∀ place, firstRecord (first :: rest) place =
        if spelled first = place then some first else firstRecord rest place := by
      intro place
      rw [firstRecord, List.find?_cons, firstRecord]
      by_cases same : spelled first = place <;> simp [same]
    simp only [found]
    split
    · next known =>
      rw [ih]
      refine exists_congr fun place => exists_congr fun item => and_congr_right fun unknown => ?_
      rw [if_neg]
      rintro rfl
      exact unknown known
    · next unknown =>
      split
      · next deleted =>
        rw [ih]
        refine exists_congr fun place => exists_congr fun item => ?_
        rw [List.mem_cons, not_or]
        constructor
        · rintro ⟨⟨other, fresh⟩, own⟩
          rw [if_neg (Ne.symm other)]
          exact ⟨fresh, own⟩
        · rintro ⟨fresh, own, status, eq⟩
          split at own
          · cases own
            exact absurd deleted status
          · next other => exact ⟨⟨Ne.symm other, fresh⟩, own, status, eq⟩
      · next kept =>
        rw [List.mem_cons, ih]
        constructor
        · rintro (rfl | ⟨place, item, fresh, own, status, eq⟩)
          · exact ⟨spelled first, first, unknown, by rw [if_pos rfl], kept, rfl⟩
          · rw [List.mem_cons, not_or] at fresh
            exact ⟨place, item, fresh.2, by rw [if_neg (Ne.symm fresh.1)]; exact own, status, eq⟩
        · rintro ⟨place, item, fresh, own, status, eq⟩
          split at own
          · cases own
            exact .inl eq
          · next other =>
            refine .inr ⟨place, item, ?_, own, status, eq⟩
            rw [List.mem_cons, not_or]
            exact ⟨Ne.symm other, fresh⟩

/-- No path is selected twice. -/
theorem nodup_selectChanged :
    ((selectChanged w maxFileBytes pathsIgnore seen items).map pathOf).Nodup ∧
      ∀ place ∈ (selectChanged w maxFileBytes pathsIgnore seen items).map pathOf,
        place ∉ seen := by
  induction items generalizing seen with
  | nil => simp [selectChanged]
  | cons first rest ih =>
    rw [selectChanged]
    split
    · exact ih
    · next unknown =>
      obtain ⟨nodup, fresh⟩ := @ih ((normalizedPath first).asPosix :: seen)
      have later : ∀ place ∈ (selectChanged w maxFileBytes pathsIgnore
          ((normalizedPath first).asPosix :: seen) rest).map pathOf,
          place ≠ (normalizedPath first).asPosix ∧ place ∉ seen := by
        intro place mem
        simpa [not_or] using fresh place mem
      split
      · exact ⟨nodup, fun place mem => (later place mem).2⟩
      · rw [List.map_cons, pathOf_entryFromIncrementalRecord, List.nodup_cons]
        refine ⟨⟨fun mem => (later _ mem).1 rfl, nodup⟩, fun place mem => ?_⟩
        rcases List.mem_cons.mp mem with rfl | mem
        · exact unknown
        · exact (later place mem).2

end Records

theorem paths_manifestOf (selected : List Selected) :
    ((manifestOf selected).entries.map DiscoveryEntry.path ++
      (manifestOf selected).skipped.map DiscoverySkippedFile.path).Perm
        (selected.map pathOf) := by
  have entries : ((manifestOf selected).entries.map DiscoveryEntry.path).Perm
      ((selected.filterMap entryOf).map DiscoveryEntry.path) :=
    (List.perm_insertionSort _ _).map _
  have skipped : ((manifestOf selected).skipped.map DiscoverySkippedFile.path).Perm
      ((selected.filterMap skippedOf).map DiscoverySkippedFile.path) :=
    (List.perm_insertionSort _ _).map _
  refine (entries.append skipped).trans ?_
  clear entries skipped
  induction selected with
  | nil => exact .nil
  | cons item rest ih =>
    cases item with
    | inl skip => exact List.perm_middle.trans (ih.cons _)
    | inr entry => exact ih.cons _

theorem mem_manifestOf {selected : List Selected} {entry : DiscoveryEntry} :
    entry ∈ (manifestOf selected).entries ↔ .inr entry ∈ selected := by
  rw [manifestOf, (List.perm_insertionSort _ _).mem_iff, List.mem_filterMap]
  constructor
  · rintro ⟨item, mem, own⟩
    cases item with
    | inl skip => cases own
    | inr found =>
      cases own
      exact mem
  · intro mem
    exact ⟨_, mem, rfl⟩

/-- The patterns as they are compared. -/
def comparedPatterns (scope : ScanScope) : List Text :=
  scope.pathsIgnore.map fun item => replace 92 47 (strip item)

theorem normalizePathsIgnore_ok {source : String} {index : Nat} {patterns : List Text}
    (visible : ∀ pattern ∈ patterns, strip pattern ≠ []) :
    normalizePathsIgnore source index patterns =
      .ok (patterns.map fun item => replace 92 47 (strip item)) := by
  induction patterns generalizing index with
  | nil => rfl
  | cons pattern rest ih =>
    have own : replace 92 47 (strip pattern) ≠ [] := by
      rw [replace, ne_eq, List.map_eq_nil_iff]
      exact visible pattern List.mem_cons_self
    rw [normalizePathsIgnore]
    simp only [if_neg own, ih fun other mem => visible other (List.mem_cons_of_mem _ mem)]
    rfl

/-- How the manifests tell of the file at a place. -/
structure Accounted (full incremental : ScanManifest) (place : Text) : Prop where
  once : (incremental.entries.map DiscoveryEntry.path ++
    incremental.skipped.map DiscoverySkippedFile.path).count place = 1
  agree : ∀ entry : DiscoveryEntry, entry.path = place →
    (entry ∈ incremental.entries ↔ entry ∈ full.entries)

/-- A record of a file or a link of the tree, under the path it is looked up by. -/
def Placed (w : Workspace) (item : ChangedFile) : Prop :=
  ∃ names kind, (names, kind) ∈ entries [] w.listing ∧ kind ≠ .directory ∧
    spelled item = posix names

section Scans

variable {w : Workspace} {scope : ScanScope} {maxFileBytes : Nat} {pathsIgnore : List Text}
  {names : List Text} {entry : DiscoveryEntry}

/-- What is admitted at a file or link of the tree has been visited by the walk. -/
theorem walked_of_admitted {kind : Kind (List Nat)} (mem : (names, kind) ∈ entries [] w.listing)
    (noDirectory : kind ≠ .directory)
    (admitted : Admitted w maxFileBytes pathsIgnore { root := [], parts := names } entry) :
    names ∈ walkedFiles w := by
  obtain ⟨content, found, _, included, _⟩ := admitted
  refine mem_walkedFiles_iff.mpr ⟨kind, mem, ?_, ?_⟩
  · cases kind with
    | file _ => rfl
    | link => simp [visited, leadsToDirectory, posix, found]
    | directory => exact absurd rfl noDirectory
  · rintro others rfl name inside
    rw [classifyCandidateFile] at included
    split at included
    · cases included
    · next clear =>
      simp only [allParts, if_true, List.any_eq_true, decide_eq_true_eq, not_exists, not_and]
        at clear
      exact decide_eq_false (clear name inside)

theorem path_of_admitted {pathValue : PurePath}
    (admitted : Admitted w maxFileBytes pathsIgnore pathValue entry) :
    entry.path = pathValue.asPosix := by
  obtain ⟨content, _, _, _, _, _, rfl⟩ := admitted
  rfl

theorem normalizedPath_of_spelled {item : ChangedFile} (own : Parts names)
    (eq : spelled item = posix names) : normalizedPath item = { root := [], parts := names } := by
  have round := path_asPosix (replace 92 47 (strip item.path))
  rw [← normalizedPath, ← spelled, eq, posix, path_of_parts own (.inl rfl)] at round
  exact round.symm

theorem scans_complete (visible : ∀ pattern ∈ scope.pathsIgnore, strip pattern ≠ [])
    (followed : FollowedLinks w) (maxFileBytes : Nat) :
    ∃ selected,
      buildScanManifest w scope maxFileBytes = .ok (manifestOf selected) ∧
      buildIncrementalScanManifest w scope maxFileBytes =
        .ok (manifestOf (selectChanged w maxFileBytes (comparedPatterns scope) []
          scope.incrementalChangedFiles)) ∧
      ∀ item, item ∈ selected ↔ ∃ names ∈ walkedFiles w,
        selectWalked w maxFileBytes (comparedPatterns scope) names = .ok item := by
  obtain ⟨selected, whole, members⟩ := @mapM_selectWalked w maxFileBytes (comparedPatterns scope)
    (walkedFiles w) fun names mem => stat_of_walked followed mem
  rw [comparedPatterns] at *
  refine ⟨selected, ?_, ?_, members⟩
  · rw [buildScanManifest, normalizePathsIgnore_ok visible]
    simp only [bind, Except.bind, whole]
    rfl
  · rw [buildIncrementalScanManifest, normalizePathsIgnore_ok visible]
    rfl

/-- The two scans agree on a file whose first record is not a deletion. -/
theorem accounted {selected : List Selected} {item first : ChangedFile}
    (members : ∀ item, item ∈ selected ↔
      ∃ names ∈ walkedFiles w, selectWalked w maxFileBytes pathsIgnore names = .ok item)
    (placed : Placed w item)
    (found : firstRecord scope.incrementalChangedFiles (spelled item) = some first)
    (kept : first.status ≠ .deleted) :
    Accounted (manifestOf selected)
      (manifestOf (selectChanged w maxFileBytes pathsIgnore [] scope.incrementalChangedFiles))
      (spelled item) := by
  obtain ⟨names, kind, mem, noDirectory, place⟩ := placed
  have own := w.named names kind mem
  have same : spelled first = spelled item := by
    have held := List.find?_some found
    simpa using held
  have route := normalizedPath_of_spelled own (same.trans place)
  constructor
  · rw [(paths_manifestOf _).count_eq]
    refine List.count_eq_one_of_mem nodup_selectChanged.1 ?_
    refine List.mem_map.mpr ⟨_, mem_selectChanged_iff.mpr
      ⟨spelled item, first, List.not_mem_nil, found, kept, rfl⟩, ?_⟩
    rw [pathOf_entryFromIncrementalRecord]
    exact same
  · intro entry named
    rw [mem_manifestOf, mem_manifestOf, mem_selectChanged_iff, members]
    constructor
    · rintro ⟨other, record, _, chosen, _, eq⟩
      have admitted := entryFromIncrementalRecord_entry_iff.mp eq.symm
      have held := List.find?_some chosen
      have path := path_of_admitted admitted
      rw [normalizedPath_of_spelled own (path.symm.trans (named.trans place))] at admitted
      exact ⟨names, walked_of_admitted mem noDirectory admitted,
        selectWalked_entry_iff.mpr admitted⟩
    · rintro ⟨others, walked, eq⟩
      have admitted := selectWalked_entry_iff.mp eq
      obtain ⟨_, inside, _⟩ := mem_walkedFiles_iff.mp walked
      have path := path_of_admitted admitted
      obtain rfl := parts_injective (w.named others _ inside) own
        (path.symm.trans (named.trans place))
      refine ⟨spelled item, first, List.not_mem_nil, found, kept, ?_⟩
      rw [eq_comm, entryFromIncrementalRecord_entry_iff, route]
      exact admitted

end Scans

end ScanManifests
