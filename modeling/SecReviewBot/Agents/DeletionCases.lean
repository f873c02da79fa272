import Mathlib.Data.List.Dedup
import SecReviewBot.BucketPacking
import SecReviewBot.Agents.DiscoveryStage
import SecReviewBot.Agents.ScanManifests

/-!
# Cases of deleted files

`case_execution_input.py` groups the deleted files of a window by their directory. With the
two manifests every change of the window is accounted for, under the path it is looked up
by: the manifests normalise separators, the deletion cases only strip the path.
-/

namespace DeletionCases

open BucketPacking DirectoryListings DiscoveryStage PythonPaths ScanManifests

structure WindowDeletionSummary where
  deletedFileCount : Nat
  deletionReviewSkipped : Bool
  deriving DecidableEq

structure DeletedRepositoryCase where
  caseId : Text
  deletedPaths : List Text
  baseSha : Text
  headSha : Text
  deriving DecidableEq

def maxDeletedFiles : Nat := 200

/-- The ignore rule leaves the deleted path to review. -/
def isReviewed (pathsIgnore : List Text) (normalizedPath : Text) : Bool :=
  !matchesPathsIgnore (path normalizedPath) pathsIgnore

def deletedPathsForReview (scope : ScanScope) : Except ScanError (List Text) := do
  let pathsIgnore ← normalizePathsIgnore "Repository deletion cases" 0 scope.pathsIgnore
  let deleted := scope.incrementalChangedFiles.filter fun item => item.status = .deleted
  let reviewed := (deleted.map fun item => strip item.path).filter (isReviewed pathsIgnore)
  return reviewed.dedup.insertionSort (· ≤ ·)

def windowDeletionSummary (scope : ScanScope) (scanMode : String) :
    Except ScanError WindowDeletionSummary := do
  let deletedFileCount ←
    if scanMode ≠ "incremental" then .ok 0 else (deletedPathsForReview scope).map List.length
  return { deletedFileCount, deletionReviewSkipped := maxDeletedFiles < deletedFileCount }

def directoryOf (deleted : Text) : Text := (path deleted).parent.asPosix

/-- `by_directory.setdefault(directory, []).append(path)` for each path. -/
def byDirectory (paths : List Text) : List (Text × List Text) :=
  bucketsOf (paths.map fun deleted => (directoryOf deleted, deleted))

def deletionCaseSlug (sha1 : Sha1 Text) (directory : Text) : Text :=
  let spelled := replace 46 95 (replace 47 58 directory)
  let readable := if spelled = [] then text "root" else spelled
  readable ++ [45] ++ text (sha1.short 8 directory)

def caseOf (sha1 : Sha1 Text) (baseSha headSha : Text) (group : Text × List Text) :
    DeletedRepositoryCase where
  caseId := text "deletion-" ++ deletionCaseSlug sha1 group.1
  deletedPaths := group.2
  baseSha := baseSha
  headSha := headSha

def deletedRepositoryCases (sha1 : Sha1 Text) (scope : ScanScope) (baseSha headSha : Text) :
    Except ScanError (List DeletedRepositoryCase) := do
  let summary ← windowDeletionSummary scope "incremental"
  if summary.deletionReviewSkipped then return []
  let paths ← deletedPathsForReview scope
  let groups := (byDirectory paths).insertionSort fun a b => a.1 ≤ b.1
  return groups.map (caseOf sha1 baseSha headSha)

section Groups

variable {groups : List (Text × List Text)} {directory deleted : Text}

/-- Every path is in one group, and no two groups have the same directory. -/
theorem byDirectory_groups (paths : List Text) :
    ((byDirectory paths).map Prod.fst).Nodup ∧
      ((byDirectory paths).flatMap Prod.snd).Perm paths := by
  have held := bucketsOf_perm (paths.map fun deleted => (directoryOf deleted, deleted))
  rw [List.map_map] at held
  exact ⟨(collects_bucketsOf _).keys, held.trans (List.Perm.of_eq (List.map_id paths))⟩

theorem keys_byDirectory {paths : List Text} (mem : directory ∈ (byDirectory paths).map Prod.fst) :
    ∃ deleted ∈ paths, directoryOf deleted = directory := by
  rw [byDirectory, (collects_bucketsOf _).all, List.map_map] at mem
  exact List.mem_map.mp mem

/-- What is listed once in all groups together is in one of them. -/
theorem countP_groups (nodup : (groups.flatMap Prod.snd).Nodup)
    (mem : deleted ∈ groups.flatMap Prod.snd) :
    groups.countP (fun group => deleted ∈ group.2) = 1 := by
  induction groups with
  | nil => cases mem
  | cons group rest ih =>
    rw [List.flatMap_cons, List.nodup_append] at nodup
    obtain ⟨_, later, apart⟩ := nodup
    rw [List.flatMap_cons, List.mem_append] at mem
    rw [List.countP_cons]
    by_cases own : deleted ∈ group.2
    · have none_later : rest.countP (fun group => deleted ∈ group.2) = 0 := by
        rw [List.countP_eq_zero]
        intro other inside
        rw [decide_eq_true_eq]
        intro held
        exact apart deleted own deleted (List.mem_flatMap.mpr ⟨other, inside, held⟩) rfl
      rw [none_later, if_pos (decide_eq_true own)]
    · rw [ih later (mem.resolve_left own), if_neg (by simpa using own)]

end Groups

/-- What a window tells of its deleted files. -/
structure DeletionsAccounted (scope : ScanScope) (pathsIgnore : List Text)
    (summary : WindowDeletionSummary) (cases : List DeletedRepositoryCase) : Prop where
  counted : ∃ reviewed : List Text, reviewed.Nodup ∧ summary.deletedFileCount = reviewed.length ∧
    ∀ place, place ∈ reviewed ↔ isReviewed pathsIgnore place = true ∧
      ∃ item ∈ scope.incrementalChangedFiles, item.status = .deleted ∧ strip item.path = place
  distinct : (cases.map DeletedRepositoryCase.caseId).Nodup
  skipped : maxDeletedFiles < summary.deletedFileCount →
    summary.deletionReviewSkipped = true ∧ cases = []
  covered : summary.deletedFileCount ≤ maxDeletedFiles →
    summary.deletionReviewSkipped = false ∧
    ∀ item ∈ scope.incrementalChangedFiles, item.status = .deleted →
      isReviewed pathsIgnore (strip item.path) = true →
        cases.countP (fun own => strip item.path ∈ own.deletedPaths) = 1

section Deletions

variable {scope : ScanScope} {pathsIgnore : List Text} {sha1 : Sha1 Text} {baseSha headSha : Text}

theorem slug_injective {first second : Text}
    (apart : sha1.short 8 first = sha1.short 8 second → first = second)
    (same : text "deletion-" ++ deletionCaseSlug sha1 first =
      text "deletion-" ++ deletionCaseSlug sha1 second) : first = second := by
  have slugs := List.append_cancel_left same
  have width : ∀ directory, (text (sha1.short 8 directory)).length = 8 := by
    intro directory
    rw [text, Sha1.short, List.length_map, String.toList_ofList, List.length_take, sha1.length]
    rfl
  have codes := List.append_inj_right' slugs ((width first).trans (width second).symm)
  exact apart (text_injective codes)

theorem deletedPathsForReview_ok
    (patterns : ∀ source, normalizePathsIgnore source 0 scope.pathsIgnore = .ok pathsIgnore) :
    ∃ reviewed, deletedPathsForReview scope = .ok reviewed ∧ reviewed.Nodup ∧
      ∀ place, place ∈ reviewed ↔ isReviewed pathsIgnore place = true ∧
        ∃ item ∈ scope.incrementalChangedFiles, item.status = .deleted ∧
          strip item.path = place := by
  refine ⟨_, by rw [deletedPathsForReview, patterns]; rfl, ?_, fun place => ?_⟩
  · exact (List.perm_insertionSort _ _).nodup_iff.mpr (List.nodup_dedup _)
  · rw [(List.perm_insertionSort _ _).mem_iff, List.mem_dedup, List.mem_filter, List.mem_map,
      and_comm]
    simp only [List.mem_filter, decide_eq_true_eq, and_assoc]

/-- Every deleted file left to review is in one case, unless there are too many. -/
theorem deletions_accounted
    (patterns : ∀ source, normalizePathsIgnore source 0 scope.pathsIgnore = .ok pathsIgnore)
    (apart : ∀ first ∈ scope.incrementalChangedFiles, ∀ second ∈ scope.incrementalChangedFiles,
      sha1.short 8 (directoryOf (strip first.path)) =
        sha1.short 8 (directoryOf (strip second.path)) →
      directoryOf (strip first.path) = directoryOf (strip second.path)) :
    ∃ summary cases, windowDeletionSummary scope "incremental" = .ok summary ∧
      deletedRepositoryCases sha1 scope baseSha headSha = .ok cases ∧
      DeletionsAccounted scope pathsIgnore summary cases := by
  obtain ⟨reviewed, whole, nodup, members⟩ := deletedPathsForReview_ok patterns
  have summary : windowDeletionSummary scope "incremental" = .ok
      { deletedFileCount := reviewed.length
        deletionReviewSkipped := maxDeletedFiles < reviewed.length } := by
    rw [windowDeletionSummary, whole]
    rfl
  by_cases many : maxDeletedFiles < reviewed.length
  · refine ⟨_, [], summary, ?_, ⟨⟨reviewed, nodup, rfl, members⟩, by simp, ?_, ?_⟩⟩
    · rw [deletedRepositoryCases, summary]
      simp [bind, Except.bind, many, pure, Except.pure]
    · exact fun _ => ⟨decide_eq_true many, rfl⟩
    · exact fun few => absurd many (Nat.not_lt.mpr few)
  · obtain ⟨keys, held⟩ := byDirectory_groups reviewed
    have sorted := List.perm_insertionSort (fun a b : Text × List Text => a.1 ≤ b.1)
      (byDirectory reviewed)
    refine ⟨_, ((byDirectory reviewed).insertionSort fun a b => a.1 ≤ b.1).map
      (caseOf sha1 baseSha headSha), summary, ?_, ⟨⟨reviewed, nodup, rfl, members⟩, ?_, ?_, ?_⟩⟩
    · rw [deletedRepositoryCases, summary]
      simp [bind, Except.bind, many, whole, pure, Except.pure]
    · rw [List.map_map]
      refine List.Nodup.map_on ?_ (sorted.nodup_iff.mpr (List.Nodup.of_map _ keys))
      intro first firstMem second secondMem same
      have firstKey := List.mem_map_of_mem (f := Prod.fst) (sorted.mem_iff.mp firstMem)
      have secondKey := List.mem_map_of_mem (f := Prod.fst) (sorted.mem_iff.mp secondMem)
      refine List.inj_on_of_nodup_map keys (sorted.mem_iff.mp firstMem)
        (sorted.mem_iff.mp secondMem) (slug_injective (fun digests => ?_) same)
      obtain ⟨_, firstPath, firstEq⟩ := keys_byDirectory firstKey
      obtain ⟨_, secondPath, secondEq⟩ := keys_byDirectory secondKey
      obtain ⟨_, item, itemMem, _, rfl⟩ := (members _).mp firstPath
      obtain ⟨_, other, otherMem, _, rfl⟩ := (members _).mp secondPath
      rw [← firstEq, ← secondEq] at digests ⊢
      exact apart item itemMem other otherMem digests
    · exact fun above => absurd above many
    · refine fun _ => ⟨decide_eq_false many, fun item mem deleted reviewable => ?_⟩
      rw [List.countP_map, sorted.countP_eq]
      have own : strip item.path ∈ reviewed := (members _).mpr ⟨reviewable, item, mem, deleted, rfl⟩
      exact countP_groups (held.nodup_iff.mpr nodup) (held.mem_iff.mpr own)

end Deletions

/-- What the two scans and the deletion cases tell of a window. -/
structure WindowAccounted (scope : ScanScope) (full incremental : ScanManifest)
    (summary : WindowDeletionSummary) (cases : List DeletedRepositoryCase) : Prop where
  files : ∀ item ∈ scope.incrementalChangedFiles, item.status ≠ .deleted →
    ∀ first, firstRecord scope.incrementalChangedFiles (spelled item) = some first →
      first.status ≠ .deleted → Accounted full incremental (spelled item)
  deletions : DeletionsAccounted scope (comparedPatterns scope) summary cases

/-- When the links can be followed, both scans complete and account for every change under
the path its record is looked up by. -/
theorem window_accounted (w : Workspace) (scope : ScanScope) (maxFileBytes : Nat) (sha1 : Sha1 Text)
    (baseSha headSha : Text) (visible : ∀ pattern ∈ scope.pathsIgnore, strip pattern ≠ [])
    (followed : FollowedLinks w)
    (placed : ∀ item ∈ scope.incrementalChangedFiles, item.status ≠ .deleted → Placed w item)
    (apart : ∀ first ∈ scope.incrementalChangedFiles, ∀ second ∈ scope.incrementalChangedFiles,
      sha1.short 8 (directoryOf (strip first.path)) =
        sha1.short 8 (directoryOf (strip second.path)) →
      directoryOf (strip first.path) = directoryOf (strip second.path)) :
    ∃ full incremental summary cases,
      buildScanManifest w scope maxFileBytes = .ok full ∧
      buildIncrementalScanManifest w scope maxFileBytes = .ok incremental ∧
      windowDeletionSummary scope "incremental" = .ok summary ∧
      deletedRepositoryCases sha1 scope baseSha headSha = .ok cases ∧
      WindowAccounted scope full incremental summary cases := by
  obtain ⟨selected, full, incremental, members⟩ := scans_complete visible followed maxFileBytes
  obtain ⟨summary, cases, counted, grouped, deletions⟩ :=
    @deletions_accounted _ _ _ baseSha headSha (fun _ => normalizePathsIgnore_ok visible) apart
  refine ⟨_, _, summary, cases, full, incremental, counted, grouped, ⟨?_, deletions⟩⟩
  intro item mem kept first found firstKept
  exact accounted members (placed item mem kept) found firstKept

/-- A workspace of one file. -/
def singleFile (name : Text) (content : List Nat) (own : Parts [name]) : Workspace where
  listing := .file name content .done
  stat := fun place => if place = posix [name] then some (.file content) else none
  named := by
    intro names kind mem
    cases List.mem_singleton.mp mem
    exact own
  files := by
    intro names other mem
    cases List.mem_singleton.mp mem
    exact if_pos rfl
  directories := by
    intro names mem
    cases List.mem_singleton.mp mem

theorem followed_singleFile {name : Text} {content : List Nat} (own : Parts [name]) :
    FollowedLinks (singleFile name content own) := by
  intro names mem _
  cases List.mem_singleton.mp mem

theorem parts_app : Parts [text "app.py"] := ⟨by decide, by decide⟩

/-- A window that changes `app.py` and deletes a file of another directory. -/
def mixedScope : ScanScope where
  pathsIgnore := [text "vendor"]
  incrementalChangedFiles :=
    [⟨text "app.py", .modified⟩, ⟨text "auth/policy.py", .deleted⟩]

/-- A digest with the values of the hash function on the two directories. -/
def directoryDigest : Sha1 Text where
  hexdigest := fun directory =>
    if directory = text "auth" then "66a36e77fd002579809717841f998f4d21cd5913"
    else "3a52ce780950d4d969792a2559cd519d7ee8c727"
  length := by
    intro directory
    split <;> decide
  hex := by
    intro directory
    split
    · exact List.all_eq_true.mp (by decide)
    · exact List.all_eq_true.mp (by decide)

theorem mixed_window_accounted :
    ∃ full incremental summary cases,
      buildScanManifest (singleFile (text "app.py") [120] parts_app) mixedScope 262144 =
        .ok full ∧
      buildIncrementalScanManifest (singleFile (text "app.py") [120] parts_app) mixedScope
        262144 = .ok incremental ∧
      windowDeletionSummary mixedScope "incremental" = .ok summary ∧
      deletedRepositoryCases directoryDigest mixedScope (text "b") (text "h") = .ok cases ∧
      WindowAccounted mixedScope full incremental summary cases := by
  refine window_accounted _ _ _ _ _ _ (by decide) (followed_singleFile parts_app) ?_ (by decide)
  intro item mem kept
  rcases List.mem_cons.mp mem with rfl | mem
  · exact ⟨[text "app.py"], .file [120], List.mem_singleton_self _, by simp, by decide⟩
  · obtain rfl := List.mem_singleton.mp mem
    exact absurd rfl kept

theorem parts_backslash : Parts [text "a\\b.py"] := ⟨by decide, by decide⟩

/-- A window that changes the file `a\b.py`. -/
def backslashScope : ScanScope where
  pathsIgnore := []
  incrementalChangedFiles := [⟨text "a\\b.py", .modified⟩]

theorem backslash_path_missed :
    ∃ full incremental,
      buildScanManifest (singleFile (text "a\\b.py") [120] parts_backslash) backslashScope
        262144 = .ok full ∧
      buildIncrementalScanManifest (singleFile (text "a\\b.py") [120] parts_backslash)
        backslashScope 262144 = .ok incremental ∧
      (∃ entry ∈ full.entries, entry.path = text "a\\b.py") ∧
      ¬ ∃ entry ∈ incremental.entries, entry.path = text "a\\b.py" := by
  refine ⟨_, _, rfl, rfl, ?_, ?_⟩
  · decide
  · decide

end DeletionCases
