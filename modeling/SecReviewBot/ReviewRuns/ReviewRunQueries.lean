import Mathlib.Data.String.Basic
import SecReviewBot.Calendars
import SecReviewBot.KeysetPages
import SecReviewBot.ReviewRuns.ExecutionStore

/-!
# The run list

`listRunsPage` of `review-run-queries.ts` with the row that `RUN_SELECT` produces
and its projection in `run-record-projection.ts`. The cursor carries the
microseconds of `created_at` as a text, so a page starts exactly below the last
row of the one before; rows that the contract cannot represent are reported
beside the runs and do not move the pages.

Timestamps of this module are microseconds.
-/

namespace ReviewRunQueries

open JsonValues KeyedTables KeysetPages Calendars TextCodecs ReviewRunsSchema
open ReviewRunsTransactions (StoreError)

/-- What the queries run on: the order of texts in the database, and the readers of
timestamps on both sides. -/
structure Platform where
  textLe : String → String → Bool
  ordered : TextOrder textLe
  readers : TimestampReaders

attribute [instance] Platform.ordered

inductive SourcePlatform where
  | github
  deriving DecidableEq

/-- A row of `review_runs` and the rows that reference it. Any of the three axes may
be missing. -/
structure StoredRun where
  connectorId : ConnectorId
  workflow : Workflow
  sourcePlatform : SourcePlatform
  ingressKind : Option String
  ingressKey : Option String
  createdAt : Timestamp
  preparation : Option Preparation
  execution : Option Execution
  publication : Option Publication
  notices : List (NoticeId × RunNotice)
  deriving DecidableEq

structure Trunk where
  runId : RunId
  workflow : Workflow
  sourcePlatform : SourcePlatform
  connectorId : ConnectorId
  publishContext : Json
  createdAt : Timestamp
  createdAtCursor : String
  ingressKind : Option String
  ingressKey : Option String
  deriving DecidableEq

/-- The columns of a joined axis; all are null when there is no row. -/
structure AxisRowColumns (Status : Type) where
  status : Option Status
  startedAt : Option Timestamp
  finishedAt : Option Timestamp
  updatedAt : Option Timestamp
  failureCode : Option String
  failureMessage : Option String
  deriving DecidableEq

structure ExecutionColumns extends AxisRowColumns ExecutionStatus where
  missing : Bool
  input : Option Json
  observedAt : Option Timestamp
  artifactStorage : Option ArtifactStorage
  deriving DecidableEq

structure PreparationColumns extends AxisRowColumns PreparationStatus where
  missing : Bool
  attemptCount : Option Nat
  disconnectReason : Option String
  deriving DecidableEq

structure NoticeColumns where
  noticeId : NoticeId
  kind : NoticeKind
  axis : Axis
  status : NoticeStatus
  reasonCode : Option String
  commentUrl : Option String
  deriving DecidableEq

structure ReviewRunRow where
  trunk : Trunk
  execution : ExecutionColumns
  publication : AxisRowColumns PublicationStatus
  preparation : PreparationColumns
  notices : List NoticeColumns
  deriving DecidableEq

def executionColumns (execution : Option Execution) : ExecutionColumns where
  status := execution.map (·.status)
  startedAt := execution.bind (·.startedAt)
  finishedAt := execution.bind (·.finishedAt)
  updatedAt := execution.map (·.observedAt)
  failureCode := execution.bind (·.failureCode)
  failureMessage := execution.bind (·.failureMessage)
  missing := execution.isNone
  input := execution.bind (·.input)
  observedAt := execution.map (·.observedAt)
  artifactStorage := execution.bind (·.artifactStorage)

def publicationColumns (publication : Publication) : AxisRowColumns PublicationStatus where
  status := some publication.status
  startedAt := publication.startedAt
  finishedAt := publication.finishedAt
  updatedAt := some publication.updatedAt
  failureCode := publication.failureCode
  failureMessage := publication.failureMessage

def preparationColumns (preparation : Option Preparation) : PreparationColumns where
  status := preparation.map (·.status)
  startedAt := preparation.bind (·.startedAt)
  finishedAt := preparation.bind (·.finishedAt)
  updatedAt := preparation.map (·.updatedAt)
  failureCode := preparation.bind (·.failureCode)
  failureMessage := preparation.bind (·.failureMessage)
  missing := preparation.isNone
  attemptCount := preparation.map (·.attemptCount)
  disconnectReason := preparation.bind (·.disconnectReason)

def noticeColumns (notice : NoticeId × RunNotice) : NoticeColumns where
  noticeId := notice.1
  kind := notice.2.kind
  axis := notice.2.axis
  status := notice.2.status
  reasonCode := notice.2.reasonCode
  commentUrl := notice.2.commentUrl

/-- `RUN_SELECT` on one run: an inner join with its publication, outer joins with the
other axes. -/
def runSelect (runId : RunId) (run : StoredRun) : Option ReviewRunRow :=
  run.publication.map fun publication =>
    { trunk :=
        { runId
          workflow := run.workflow
          sourcePlatform := run.sourcePlatform
          connectorId := run.connectorId
          publishContext := publication.input
          createdAt := run.createdAt
          createdAtCursor := toChar run.createdAt
          ingressKind := run.ingressKind
          ingressKey := run.ingressKey }
      execution := executionColumns run.execution
      publication := publicationColumns publication
      preparation := preparationColumns run.preparation
      notices := run.notices.map noticeColumns }

def runRows (runs : Table RunId StoredRun) : List ReviewRunRow :=
  runs.keys.filterMap fun runId => (runs.row runId).bind (runSelect runId)

structure PreparationSummary where
  status : PreparationStatus
  attemptCount : Nat
  startedAt : Option String
  finishedAt : Option String
  updatedAt : String
  failureCode : Option String
  disconnectReason : Option String
  deriving DecidableEq

structure AxisSummary (Status : Type) where
  status : Option Status
  startedAt : Option String
  finishedAt : Option String
  updatedAt : String
  deriving DecidableEq

structure ReviewRunRecord where
  runId : RunId
  workflow : Workflow
  sourcePlatform : SourcePlatform
  connectorId : ConnectorId
  publishContext : Json
  executionInput : Option Json
  preparation : PreparationSummary
  execution : AxisSummary ExecutionStatus
  publication : AxisSummary PublicationStatus
  createdAt : String
  failureCode : Option String
  failureMessage : Option String
  artifactStorage : Option ArtifactStorage
  notices : List NoticeColumns
  ingressKind : Option String
  ingressKey : Option String
  deriving DecidableEq

def iso (value : Timestamp) : String := toISOString (driverDate value)

/-- `...(value ? {...} : {})`: an empty text is left out as well. -/
def truthy (value : Option String) : Option String := value.filter fun text => text ≠ ""

def rowToRecord (row : ReviewRunRow) : Except StoreError ReviewRunRecord := do
  let runId := row.trunk.runId
  if row.execution.missing then
    throw { message := s!"run {runId} has no executions row" }
  if row.preparation.missing then
    throw { message := s!"run {runId} has no preparations row" }
  let (some status, some attemptCount) := (row.preparation.status, row.preparation.attemptCount)
    | throw { message := s!"run {runId} has an incomplete preparations row" }
  let (some observedAt, some prepared, some published) :=
      (row.execution.observedAt, row.preparation.updatedAt, row.publication.updatedAt)
    | throw { message := s!"run {runId} has an incomplete axis row" }
  let publicationFailure := row.publication.status = some .failed
  let artifactStorage ← ExecutionStore.storedArtifact runId row.execution.artifactStorage
  return {
    runId
    workflow := row.trunk.workflow
    sourcePlatform := row.trunk.sourcePlatform
    connectorId := row.trunk.connectorId
    publishContext := row.trunk.publishContext
    executionInput := row.execution.input
    preparation := {
      status
      attemptCount
      startedAt := row.preparation.startedAt.map iso
      finishedAt := row.preparation.finishedAt.map iso
      updatedAt := iso prepared
      failureCode := row.preparation.failureCode
      disconnectReason := row.preparation.disconnectReason }
    execution := {
      status := row.execution.status
      startedAt := row.execution.startedAt.map iso
      finishedAt := row.execution.finishedAt.map iso
      updatedAt := iso observedAt }
    publication := {
      status := row.publication.status
      startedAt := row.publication.startedAt.map iso
      finishedAt := row.publication.finishedAt.map iso
      updatedAt := iso published }
    createdAt := iso row.trunk.createdAt
    failureCode :=
      if publicationFailure then row.publication.failureCode
      else row.execution.failureCode <|> row.preparation.failureCode
    failureMessage :=
      if publicationFailure then row.publication.failureMessage
      else row.execution.failureMessage <|> row.preparation.failureMessage
    artifactStorage
    notices := row.notices
    ingressKind := truthy row.trunk.ingressKind
    ingressKey := truthy row.trunk.ingressKey }

structure DroppedRunRow where
  runId : RunId
  error : StoreError

structure RunRowsProjection where
  runs : List ReviewRunRecord
  dropped : List DroppedRunRow

def RunRowsProjection.push (projection : RunRowsProjection) (row : ReviewRunRow) :
    RunRowsProjection :=
  match rowToRecord row with
  | .ok record => { projection with runs := projection.runs ++ [record] }
  | .error error =>
    { projection with dropped := projection.dropped ++ [{ runId := row.trunk.runId, error }] }

def projectRunRows (rows : List ReviewRunRow) : RunRowsProjection :=
  rows.foldl RunRowsProjection.push { runs := [], dropped := [] }

structure RunListCursor where
  createdAtCursor : String
  runId : String
  deriving DecidableEq

def encodeRunListCursor (cursor : RunListCursor) : String :=
  toBase64Url (cursor.createdAtCursor ++ "|" ++ cursor.runId)

/-- `text.split('|')`. -/
def splitBars (text : String) : List String := (text.toList.splitOn '|').map String.ofList

def decodeRunListCursor (readers : TimestampReaders) (cursor : String) : Option RunListCursor :=
  match splitBars (ofBase64Url cursor) with
  | [createdAt, runId] =>
    if createdAt = "" ∨ runId = "" then none
    else if (readers.dateParse createdAt).isNone then none
    else some { createdAtCursor := createdAt, runId }
  | _ => none

/-- A `date-time` of the contract: a text the database reads. -/
structure DateTime (readers : TimestampReaders) where
  text : String
  instant : Timestamp
  read : readers.timestamptz text = some instant

structure ListRunsOptions (readers : TimestampReaders) where
  limit : Option Nat
  cursor : Option String
  executionStatus : Option ExecutionStatus
  publicationStatus : Option PublicationStatus
  preparationStatus : Option PreparationStatus
  sourcePlatform : Option SourcePlatform
  workflow : Option Workflow
  fromTime : Option (DateTime readers)
  toTime : Option (DateTime readers)

/-- The clauses of the query but the one of the cursor. A missing axis passes the
filter on its status. -/
def ListRunsOptions.clauses {readers : TimestampReaders} (options : ListRunsOptions readers)
    (connectorId : ConnectorId) (row : ReviewRunRow) : Bool :=
  row.trunk.connectorId == connectorId &&
    options.workflow.all (fun workflow => row.trunk.workflow == workflow) &&
    options.sourcePlatform.all (fun platform => row.trunk.sourcePlatform == platform) &&
    options.executionStatus.all (fun status =>
      row.execution.status == some status || row.execution.missing) &&
    options.publicationStatus.all (fun status => row.publication.status == some status) &&
    options.preparationStatus.all (fun status =>
      row.preparation.status == some status || row.preparation.missing) &&
    options.fromTime.all (fun time => decide (time.instant ≤ row.trunk.createdAt)) &&
    options.toTime.all (fun time => decide (row.trunk.createdAt < time.instant))

/-- `(created_at, run_id)`. -/
def rowKey (platform : Platform) (row : ReviewRunRow) : Position platform.textLe :=
  position platform.textLe row.trunk.createdAt row.trunk.runId

/-- The bound that the cursor adds. -/
def cursorBound (platform : Platform) :
    Option String → Except StoreError (Option (Position platform.textLe))
  | none => .ok none
  | some value =>
    match decodeRunListCursor platform.readers value with
    | none => .error { message := "Invalid run list cursor." }
    | some cursor =>
      match platform.readers.timestamptz cursor.createdAtCursor with
      | none => .error { message := "invalid input syntax for type timestamp with time zone" }
      | some micros => .ok (some (position platform.textLe micros cursor.runId))

def listRunRows (platform : Platform) (connectorId : ConnectorId) (runs : Table RunId StoredRun)
    (options : ListRunsOptions platform.readers) (limit : Nat) :
    Except StoreError (List ReviewRunRow) := do
  let bound ← cursorBound platform options.cursor
  return select (rowKey platform) (options.clauses connectorId) bound limit (runRows runs)

structure RunsPage where
  runs : List ReviewRunRecord
  nextCursor : Option String
  dropped : List DroppedRunRow

def rowCursor (row : ReviewRunRow) : String :=
  encodeRunListCursor { createdAtCursor := row.trunk.createdAtCursor, runId := row.trunk.runId }

def pageLimit {readers : TimestampReaders} (options : ListRunsOptions readers) : Nat :=
  options.limit.getD 50

def listRunsPage (platform : Platform) (connectorId : ConnectorId) (runs : Table RunId StoredRun)
    (options : ListRunsOptions platform.readers) : Except StoreError RunsPage := do
  let limit := pageLimit options
  let rows ← listRunRows platform connectorId runs options (limit + 1)
  let hasMore := decide (limit < rows.length)
  let page := rows.take limit
  let nextCursor := if hasMore then page.getLast?.map rowCursor else none
  let projection := projectRunRows page
  return { runs := projection.runs, nextCursor, dropped := projection.dropped }

def projectedRun (row : ReviewRunRow) : Option ReviewRunRecord :=
  match rowToRecord row with
  | .ok record => some record
  | .error _ => none

def droppedRow (row : ReviewRunRow) : Option DroppedRunRow :=
  match rowToRecord row with
  | .ok _ => none
  | .error error => some { runId := row.trunk.runId, error }

theorem projected_or_dropped (row : ReviewRunRow) :
    (projectedRun row).isSome = true ↔ droppedRow row = none := by
  rw [projectedRun, droppedRow]
  split <;> simp

/-- What the loop has pushed after `rows`. -/
theorem foldl_push (rows : List ReviewRunRow) (projection : RunRowsProjection) :
    rows.foldl RunRowsProjection.push projection =
      { runs := projection.runs ++ rows.filterMap projectedRun
        dropped := projection.dropped ++ rows.filterMap droppedRow } := by
  induction rows generalizing projection with
  | nil => simp
  | cons row rest ih =>
    rw [List.foldl_cons, ih, RunRowsProjection.push, List.filterMap_cons, List.filterMap_cons,
      projectedRun, droppedRow]
    cases rowToRecord row <;> simp

theorem projectRunRows_eq (rows : List ReviewRunRow) :
    projectRunRows rows =
      { runs := rows.filterMap projectedRun, dropped := rows.filterMap droppedRow } := by
  rw [projectRunRows, foldl_push]
  rfl

theorem bar_not_mem_toChar (micros : Timestamp) : '|' ∉ (toChar micros).toList := by
  intro mem
  have := mem_toChar mem
  revert this
  decide

theorem splitBars_join {a b : String} (ha : '|' ∉ a.toList) (hb : '|' ∉ b.toList) :
    splitBars (a ++ "|" ++ b) = [a, b] := by
  have joined : (a ++ "|" ++ b).toList = ['|'].intercalate [a.toList, b.toList] := by
    simp [List.intercalate]
  rw [splitBars, joined, List.splitOn_intercalate]
  · simp
  · simp [ha, hb]
  · simp

/-- The rows whose cursors name them: ids without the separator, as they are
generated, and years of four digits. -/
structure ListableRuns (runs : Table RunId StoredRun) : Prop where
  named : ∀ runId run, runs.row runId = some run → runId ≠ ""
  noBar : ∀ runId run, runs.row runId = some run → '|' ∉ runId.toList
  years : ∀ runId run, runs.row runId = some run → FourDigitYear run.createdAt

theorem mem_runRows {runs : Table RunId StoredRun} {row : ReviewRunRow} (mem : row ∈ runRows runs) :
    ∃ run, runs.row row.trunk.runId = some run ∧ row.trunk.createdAt = run.createdAt ∧
      row.trunk.createdAtCursor = toChar run.createdAt := by
  obtain ⟨runId, _, eq⟩ := List.mem_filterMap.mp mem
  obtain ⟨run, found, eq⟩ := Option.bind_eq_some_iff.mp eq
  obtain ⟨publication, _, rfl⟩ := Option.map_eq_some_iff.mp eq
  exact ⟨run, found, rfl, rfl⟩

theorem decodeRunListCursor_rowCursor (platform : Platform) {runs : Table RunId StoredRun}
    (listable : ListableRuns runs) {row : ReviewRunRow} (mem : row ∈ runRows runs) :
    decodeRunListCursor platform.readers (rowCursor row) =
      some { createdAtCursor := row.trunk.createdAtCursor, runId := row.trunk.runId } := by
  obtain ⟨run, found, _, text⟩ := mem_runRows mem
  have iso := isoInstant_toChar (listable.years _ _ found)
  have parsed := platform.readers.dateParse_iso _ _ iso
  have present : toChar run.createdAt ≠ "" := by
    intro empty
    rw [empty] at iso
    cases iso
  rw [decodeRunListCursor, rowCursor, encodeRunListCursor, ofBase64Url_toBase64Url, text,
    splitBars_join (bar_not_mem_toChar _) (listable.noBar _ _ found)]
  simp [present, listable.named _ _ found, Option.isSome_iff_ne_none.mp parsed]

theorem cursorBound_rowCursor (platform : Platform) {runs : Table RunId StoredRun}
    (listable : ListableRuns runs) {row : ReviewRunRow} (mem : row ∈ runRows runs) :
    cursorBound platform (some (rowCursor row)) = .ok (some (rowKey platform row)) := by
  obtain ⟨run, found, created, text⟩ := mem_runRows mem
  have iso := isoInstant_toChar (listable.years _ _ found)
  have micros := platform.readers.timestamptz_iso _ _ iso
  rw [cursorBound, decodeRunListCursor_rowCursor platform listable mem]
  simp only [text, micros, rowKey, created]

section Walk

variable (platform : Platform) (connectorId : ConnectorId) (runs : Table RunId StoredRun)
variable (options : ListRunsOptions platform.readers)

/-- `listRunsPage` as a function of the cursor. -/
def fetchRuns (cursor : Option String) :
    Except StoreError (RunRowsProjection × Option String) :=
  (listRunsPage platform connectorId runs { options with cursor }).map fun page =>
    ({ runs := page.runs, dropped := page.dropped }, page.nextCursor)

def matchingRows : List ReviewRunRow := (runRows runs).filter (options.clauses connectorId)

theorem runRows_distinct :
    (runRows runs).Pairwise fun a b => rowKey platform a ≠ rowKey platform b := by
  refine List.Pairwise.filterMap _ ?_ runs.nodup
  intro a b apart row hrow other hother same
  obtain ⟨_, _, hrow⟩ := Option.bind_eq_some_iff.mp hrow
  obtain ⟨_, _, rfl⟩ := Option.map_eq_some_iff.mp hrow
  obtain ⟨_, _, hother⟩ := Option.bind_eq_some_iff.mp hother
  obtain ⟨_, _, rfl⟩ := Option.map_eq_some_iff.mp hother
  exact apart (position_injective same).2

theorem listRunsPage_eq {options : ListRunsOptions platform.readers} {rows : List ReviewRunRow}
    (found : listRunRows platform connectorId runs options (pageLimit options + 1) = .ok rows) :
    listRunsPage platform connectorId runs options =
      .ok { runs := (projectRunRows (shown (pageLimit options) rows)).runs
            nextCursor := (resumeRow (pageLimit options) rows).map rowCursor
            dropped := (projectRunRows (shown (pageLimit options) rows)).dropped } := by
  rw [listRunsPage, found, resumeRow]
  by_cases more : pageLimit options < rows.length
  · simp [more, bind, Except.bind, pure, Except.pure, shown]
  · simp [more, bind, Except.bind, pure, Except.pure, shown]

theorem fetchRuns_eq {cursor : Option String} {bound : Option (Position platform.textLe)}
    (read : cursorBound platform cursor = .ok bound) :
    fetchRuns platform connectorId runs options cursor =
      .ok (answer (pageLimit options) rowCursor projectRunRows
        ((ordered (rowKey platform) (matchingRows platform connectorId runs options)).filter
          fun row => bound.all fun p => decide (rowKey platform row < p))) := by
  have found : listRunRows platform connectorId runs { options with cursor }
      (pageLimit options + 1) = .ok (select (rowKey platform) (options.clauses connectorId) bound
        (pageLimit options + 1) (runRows runs)) := by
    simp only [listRunRows, bind, Except.bind, read]
    rfl
  rw [matchingRows, ← answer_take, ← select_eq _ _ _ _ (runRows_distinct platform runs),
    fetchRuns, listRunsPage_eq platform connectorId runs found]
  rfl

theorem fetchRuns_serves (listable : ListableRuns runs) :
    Serves (fetchRuns platform connectorId runs options) (rowKey platform)
      (ordered (rowKey platform) (matchingRows platform connectorId runs options))
      (pageLimit options) rowCursor (rowKey platform) projectRunRows where
  descending := ordered_descending _
    ((runRows_distinct platform runs).sublist List.filter_sublist)
  below := fun _ _ => le_rfl
  first := by
    have read : cursorBound platform none = .ok none := rfl
    rw [fetchRuns_eq platform connectorId runs options read]
    simp
  later := by
    intro row mem
    have inTable : row ∈ runRows runs :=
      (List.mem_filter.mp ((ordered_perm _ _).mem_iff.mp mem)).1
    rw [fetchRuns_eq platform connectorId runs options
      (cursorBound_rowCursor platform listable inTable)]
    simp

/-- The pages of the run list hold every matching run once, projected or dropped, the
newest first, and end. -/
structure RunListComplete : Prop where
  listed : ∃ rows : List ReviewRunRow,
    rows.Perm (matchingRows platform connectorId runs options) ∧
      Descending (rowKey platform) rows ∧
      ∃ pages : List (List ReviewRunRow),
        Walk (fetchRuns platform connectorId runs options) none (pages.map projectRunRows) ∧
        pages.flatten = rows ∧
        (pages.map projectRunRows).flatMap (·.runs) = rows.filterMap projectedRun ∧
        (pages.map projectRunRows).flatMap (·.dropped) = rows.filterMap droppedRow
  cursors : ∀ row ∈ runRows runs, decodeRunListCursor platform.readers
    (encodeRunListCursor
      { createdAtCursor := row.trunk.createdAtCursor, runId := row.trunk.runId }) =
    some { createdAtCursor := row.trunk.createdAtCursor, runId := row.trunk.runId }

theorem run_list_complete {runs : Table RunId StoredRun} (listable : ListableRuns runs)
    (positive : 1 ≤ pageLimit options) :
    RunListComplete platform connectorId runs options := by
  obtain ⟨pages, walk, all⟩ :=
    (fetchRuns_serves platform connectorId runs options listable).walk_exact positive
  refine ⟨⟨_, ordered_perm _ _, ?_, pages, walk, all, ?_, ?_⟩, ?_⟩
  · exact (fetchRuns_serves platform connectorId runs options listable).descending
  · rw [← all]
    simp only [projectRunRows_eq, List.flatMap_map, List.filterMap_flatten]
    rfl
  · rw [← all]
    simp only [projectRunRows_eq, List.flatMap_map, List.filterMap_flatten]
    rfl
  · intro row mem
    exact decodeRunListCursor_rowCursor platform listable mem

end Walk

/-- The collation `C`, and readers of the ISO texts. -/
def isoPlatform : Platform where
  textLe a b := decide (a ≤ b)
  ordered := {
    total := fun a b => by simpa using le_total a b
    trans := fun a b c h k => by simpa using le_trans (by simpa using h : a ≤ b) (by simpa using k)
    antisymm := fun a b h k => le_antisymm (by simpa using h) (by simpa using k) }
  readers := isoReaders

/-- A run of which only the publication is left. -/
def strippedRun (createdAt : Timestamp) : StoredRun where
  connectorId := "github-main"
  workflow := .issueReview
  sourcePlatform := .github
  ingressKind := none
  ingressKey := none
  createdAt := createdAt
  preparation := none
  execution := none
  publication := some {
    input := .null, status := .pending, claimToken := none, claimedAt := none,
    failureCode := none, failureMessage := none, startedAt := none, finishedAt := none,
    updatedAt := createdAt }
  notices := []

/-- Two runs of one millisecond. -/
def twoRuns : Table RunId StoredRun :=
  (Table.empty.put "a" (strippedRun 63839664000000001)).put "b" (strippedRun 63839664000000002)

def pagesOfOne (readers : TimestampReaders) : ListRunsOptions readers where
  limit := some 1
  cursor := none
  executionStatus := some .failed
  publicationStatus := none
  preparationStatus := none
  sourcePlatform := some .github
  workflow := none
  fromTime := none
  toTime := none

theorem run_list_complete_within_a_millisecond :
    RunListComplete isoPlatform "github-main" twoRuns (pagesOfOne isoReaders) := by
  have rows : ∀ runId run, twoRuns.row runId = some run →
      runId = "b" ∧ run = strippedRun 63839664000000002 ∨
        runId = "a" ∧ run = strippedRun 63839664000000001 := by
    intro runId run found
    rcases Table.put_row_cases found with new | ⟨_, found⟩
    · exact .inl new
    · rcases Table.put_row_cases found with old | ⟨_, found⟩
      · exact .inr old
      · cases found
  apply run_list_complete
  · constructor
    · intro runId run found
      rcases rows runId run found with ⟨rfl, rfl⟩ | ⟨rfl, rfl⟩ <;> decide
    · intro runId run found
      rcases rows runId run found with ⟨rfl, rfl⟩ | ⟨rfl, rfl⟩ <;> decide
    · intro runId run found
      rcases rows runId run found with ⟨rfl, rfl⟩ | ⟨rfl, rfl⟩ <;> decide
  · decide

end ReviewRunQueries
