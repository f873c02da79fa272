import Mathlib.Data.String.Basic
import SecReviewBot.Calendars
import SecReviewBot.JsonTexts
import SecReviewBot.KeysetPages
import SecReviewBot.MemoryCatalog.Schema

/-!
# The lists of the memory catalog

`listExtractions` and `listObservations` of `catalog-queries.ts`. Both order their
rows by `(created_at, extraction_id)` with the microseconds of the column, and
both name the last row of a page by the `Date` the driver made of it. The
milliseconds that are left decide which rows a walk through the pages misses.
-/

namespace CatalogQueries

open MemoryCatalogSchema KeyedTables KeysetPages Calendars TextCodecs JsonTexts JsonValues

/-- What the queries run on: the database's collation, and the readers of
timestamps on both sides. -/
structure Platform where
  collation : Collation
  readers : TimestampReaders

instance (collation : Collation) : TextOrder collation.le where
  total := collation.total
  trans := collation.trans
  antisymm := collation.antisymm

structure CatalogCursor where
  createdAt : String
  extractionId : String
  deriving DecidableEq

inductive CatalogQueryError where
  /-- `InvalidCatalogCursorError`, status 400. -/
  | invalidCatalogCursor (message : String)
  /-- PostgreSQL cannot read the text as a `timestamptz`. -/
  | invalidTimestamp (text : String)
  deriving DecidableEq

def encodeCursor (cursor : CatalogCursor) : String :=
  toBase64Url (stringify [("createdAt", cursor.createdAt), ("extractionId", cursor.extractionId)])

/-- The checks on the decoded value. Anything but an object fails them too: an array
has no `createdAt`. -/
def cursorOfJson (readers : TimestampReaders) : Json → Option CatalogCursor
  | .obj members =>
    if members.length ≠ 2 then none
    else match members.lookup "createdAt", members.lookup "extractionId" with
      | some (.str createdAt), some (.str extractionId) =>
        if (readers.dateParse createdAt).isNone then none
        else if extractionId.length = 0 then none
        else some { createdAt, extractionId }
      | _, _ => none
  | _ => none

def decodeCursor (readers : TimestampReaders) :
    Option String → Except CatalogQueryError (Option CatalogCursor)
  | none => .ok none
  | some value =>
    match (parse (ofBase64Url value)).bind (cursorOfJson readers) with
    | some cursor => .ok (some cursor)
    | none => .error (.invalidCatalogCursor "Invalid catalog pagination cursor.")

/-- The bound `($1, $2)` of the query, with `$1::timestamptz`. -/
def cursorPosition (platform : Platform) :
    Option CatalogCursor → Except CatalogQueryError (Option (Position platform.collation.le))
  | none => .ok none
  | some cursor =>
    match platform.readers.timestamptz cursor.createdAt with
    | some micros => .ok (some (position platform.collation.le micros cursor.extractionId))
    | none => .error (.invalidTimestamp cursor.createdAt)

section ListPage

variable {Row Item : Type}

/-- The two columns that order the rows and name them in a cursor. -/
structure RowKey (Row : Type) where
  createdAt : Row → Timestamp
  extractionId : Row → ExtractionId

namespace RowKey

variable (columns : RowKey Row) (platform : Platform)

/-- `(created_at, extraction_id)`. -/
def key (row : Row) : Position platform.collation.le :=
  position platform.collation.le (columns.createdAt row) (columns.extractionId row)

/-- The same with the milliseconds of the `Date`. -/
def cut (row : Row) : Position platform.collation.le :=
  position platform.collation.le (driverDate (columns.createdAt row) * 1000)
    (columns.extractionId row)

def cursor (row : Row) : CatalogCursor where
  createdAt := toISOString (driverDate (columns.createdAt row))
  extractionId := columns.extractionId row

end RowKey

/-- What the two lists have in common: the query with `limit + 1`, the page and the
cursor of its last row. -/
def listPage (platform : Platform) (columns : RowKey Row) (project : Row → Item)
    (condition : Row → Bool) (table : List Row) (limit : Nat) (cursorValue : Option String) :
    Except CatalogQueryError (List Item × Option String) := do
  let cursor ← decodeCursor platform.readers cursorValue
  let bound ← cursorPosition platform cursor
  let found := select (columns.key platform) condition bound (limit + 1) table
  let rows := found.take limit
  let nextCursor :=
    if limit < found.length ∧ 0 < rows.length then
      rows.getLast?.map fun last => encodeCursor (columns.cursor last)
    else none
  .ok (rows.map project, nextCursor)

end ListPage

/-- `extractions` with the observation that may belong to it. -/
structure ExtractionRow where
  extractionId : ExtractionId
  sourceWorkflow : String
  sourceRunId : String
  sourceUnitId : String
  diagnosticBundleDigest : Digest
  trajectoryReference : ArtifactReference
  bodyMarkdown : Option String
  createdAt : Timestamp
  deriving DecidableEq

/-- `from extractions left join observations using (extraction_id)`. -/
def extractionRows (catalog : Catalog) : List ExtractionRow :=
  catalog.extractions.keys.filterMap fun id => (catalog.extractions.row id).map fun extraction =>
    { extractionId := id
      sourceWorkflow := extraction.sourceWorkflow
      sourceRunId := extraction.sourceRunId
      sourceUnitId := extraction.sourceUnitId
      diagnosticBundleDigest := extraction.diagnosticBundleDigest
      trajectoryReference := extraction.trajectoryReference
      bodyMarkdown := (catalog.observations.row id).map (·.bodyMarkdown)
      createdAt := extraction.createdAt }

structure ExtractionListFilters where
  sourceWorkflow : Option String
  sourceRunId : Option String
  hasObservation : Option Bool

/-- `body_markdown` is not null, so it is null exactly when there is no observation. -/
def ExtractionListFilters.matches (filters : ExtractionListFilters) (row : ExtractionRow) : Bool :=
  filters.sourceWorkflow.all (fun workflow => row.sourceWorkflow == workflow) &&
    filters.sourceRunId.all (fun runId => row.sourceRunId == runId) &&
      filters.hasObservation.all (fun wanted => row.bodyMarkdown.isSome == wanted)

structure ExtractionRecord where
  extractionId : ExtractionId
  sourceWorkflow : String
  sourceRunId : String
  sourceUnitId : String
  diagnosticBundleDigest : Digest
  trajectoryReference : ArtifactReference
  observation : Option String
  createdAt : String
  deriving DecidableEq

def projectExtraction (row : ExtractionRow) : ExtractionRecord where
  extractionId := row.extractionId
  sourceWorkflow := row.sourceWorkflow
  sourceRunId := row.sourceRunId
  sourceUnitId := row.sourceUnitId
  diagnosticBundleDigest := row.diagnosticBundleDigest
  trajectoryReference := row.trajectoryReference
  observation := row.bodyMarkdown
  createdAt := toISOString (driverDate row.createdAt)

def extractionColumns : RowKey ExtractionRow where
  createdAt := ExtractionRow.createdAt
  extractionId := ExtractionRow.extractionId

structure ExtractionList where
  extractions : List ExtractionRecord
  nextCursor : Option String

def listExtractions (platform : Platform) (catalog : Catalog) (cursorValue : Option String)
    (limit : Nat) (filters : ExtractionListFilters) : Except CatalogQueryError ExtractionList :=
  (listPage platform extractionColumns projectExtraction filters.matches (extractionRows catalog)
    limit cursorValue).map fun (extractions, nextCursor) => { extractions, nextCursor }

/-- An observation with the extraction it belongs to. -/
structure ObservationRow where
  extractionId : ExtractionId
  sourceRunId : String
  sourceUnitId : String
  bodyMarkdown : String
  consumedRevision : Option Nat
  createdAt : Timestamp
  deriving DecidableEq

/-- `from observations join extractions using (extraction_id)`. -/
def observationRows (catalog : Catalog) : List ObservationRow :=
  catalog.observations.keys.filterMap fun id =>
    (catalog.observations.row id).bind fun observation =>
      (catalog.extractions.row id).map fun extraction =>
        { extractionId := id
          sourceRunId := extraction.sourceRunId
          sourceUnitId := extraction.sourceUnitId
          bodyMarkdown := observation.bodyMarkdown
          consumedRevision := observation.consumedRevision
          createdAt := observation.createdAt }

inductive ObservationStatus where
  | pending | consumed
  deriving DecidableEq

structure ObservationListFilters where
  status : Option ObservationStatus
  consumedRevision : Option Nat

def ObservationListFilters.matches (filters : ObservationListFilters) (row : ObservationRow) :
    Bool :=
  (match filters.status with
    | none => true
    | some .pending => row.consumedRevision.isNone
    | some .consumed => row.consumedRevision.isSome) &&
    filters.consumedRevision.all (fun revision => row.consumedRevision == some revision)

structure ObservationRecord where
  extractionId : ExtractionId
  sourceRunId : String
  sourceUnitId : String
  bodyMarkdown : String
  consumedRevision : Option Nat
  createdAt : String
  deriving DecidableEq

def projectObservation (row : ObservationRow) : ObservationRecord where
  extractionId := row.extractionId
  sourceRunId := row.sourceRunId
  sourceUnitId := row.sourceUnitId
  bodyMarkdown := row.bodyMarkdown
  consumedRevision := row.consumedRevision
  createdAt := toISOString (driverDate row.createdAt)

def observationColumns : RowKey ObservationRow where
  createdAt := ObservationRow.createdAt
  extractionId := ObservationRow.extractionId

structure ObservationList where
  observations : List ObservationRecord
  nextCursor : Option String

def listObservations (platform : Platform) (catalog : Catalog) (cursorValue : Option String)
    (limit : Nat) (filters : ObservationListFilters) : Except CatalogQueryError ObservationList :=
  (listPage platform observationColumns projectObservation filters.matches
    (observationRows catalog) limit cursorValue).map fun (observations, nextCursor) =>
      { observations, nextCursor }

theorem cursorOfJson_members {readers : TimestampReaders} {cursor : CatalogCursor}
    (read : (readers.dateParse cursor.createdAt).isSome = true) (named : cursor.extractionId ≠ "") :
    cursorOfJson readers (.obj (addMembers []
      [("createdAt", cursor.createdAt), ("extractionId", cursor.extractionId)])) =
        some cursor := by
  have members : addMembers []
      [("createdAt", cursor.createdAt), ("extractionId", cursor.extractionId)] =
        [("createdAt", .str cursor.createdAt), ("extractionId", .str cursor.extractionId)] := by
    simp [addMembers, setMember]
  have created : List.lookup "createdAt" [("createdAt", Json.str cursor.createdAt),
      ("extractionId", .str cursor.extractionId)] = some (.str cursor.createdAt) := by
    simp
  have extraction : List.lookup "extractionId" [("createdAt", Json.str cursor.createdAt),
      ("extractionId", .str cursor.extractionId)] = some (.str cursor.extractionId) := by
    simp [List.lookup_cons]
  have present : (readers.dateParse cursor.createdAt).isNone = false := by
    simpa using read
  have length : cursor.extractionId.length ≠ 0 := by
    simpa using named
  rw [members, cursorOfJson, created, extraction]
  simp [present, length]

/-- A cursor that was written is read back. -/
theorem decodeCursor_encodeCursor {readers : TimestampReaders} {cursor : CatalogCursor}
    (read : (readers.dateParse cursor.createdAt).isSome = true) (named : cursor.extractionId ≠ "") :
    decodeCursor readers (some (encodeCursor cursor)) = .ok (some cursor) := by
  rw [decodeCursor, encodeCursor, ofBase64Url_toBase64Url, parse_stringify, Option.bind_some,
    cursorOfJson_members read named]

/-- Its position has the milliseconds of the `Date`. -/
theorem decodeCursor_cursor {Row : Type} (platform : Platform) (columns : RowKey Row) {row : Row}
    (named : columns.extractionId row ≠ "") (year : FourDigitYear (columns.createdAt row)) :
    (decodeCursor platform.readers (some (encodeCursor (columns.cursor row)))).bind
      (cursorPosition platform) = .ok (some (columns.cut platform row)) := by
  have early : FourDigitYear (driverDate (columns.createdAt row) * 1000) := by
    rw [FourDigitYear, driverDate] at *
    omega
  have iso := isoInstant_toISOString early
  have micros := platform.readers.timestamptz_iso _ _ iso
  have decoded : decodeCursor platform.readers (some (encodeCursor (columns.cursor row))) =
      .ok (some (columns.cursor row)) :=
    decodeCursor_encodeCursor (platform.readers.dateParse_iso _ _ iso) named
  rw [decoded]
  simp only [Except.bind, cursorPosition, RowKey.cursor, micros, RowKey.cut]

section Walk

variable {Row Item : Type} (platform : Platform) (columns : RowKey Row) (project : Row → Item)
variable (condition : Row → Bool) {table : List Row} {limit : Nat}

/-- What a table must be for its rows to be named by cursors: the contract's ids are
not empty and `clock_timestamp()` is in a year of four digits. -/
structure Listable (columns : RowKey Row) (table : List Row) : Prop where
  distinct : table.Pairwise fun a b => columns.extractionId a ≠ columns.extractionId b
  named : ∀ row ∈ table, columns.extractionId row ≠ ""
  years : ∀ row ∈ table, FourDigitYear (columns.createdAt row)

theorem Listable.keys {columns : RowKey Row} (listable : Listable columns table) :
    table.Pairwise fun a b => columns.key platform a ≠ columns.key platform b :=
  listable.distinct.imp fun apart same => apart (position_injective same).2

/-- One page, once the cursor is read. -/
theorem listPage_eq {cursorValue : Option String} {bound : Option (Position platform.collation.le)}
    (read : (decodeCursor platform.readers cursorValue).bind (cursorPosition platform) = .ok bound)
    (listable : Listable columns table) :
    listPage platform columns project condition table limit cursorValue =
      .ok (answer limit (fun row => encodeCursor (columns.cursor row)) (List.map project)
        ((ordered (columns.key platform) (table.filter condition)).filter fun row =>
          bound.all fun p => decide (columns.key platform row < p))) := by
  obtain ⟨cursor, decoded, positioned⟩ : ∃ cursor,
      decodeCursor platform.readers cursorValue = .ok cursor ∧
        cursorPosition platform cursor = .ok bound := by
    cases decoded : decodeCursor platform.readers cursorValue with
    | error e =>
      rw [decoded] at read
      cases read
    | ok cursor =>
      rw [decoded] at read
      exact ⟨cursor, rfl, read⟩
  rw [← answer_take, ← select_eq _ _ _ _ (listable.keys platform), listPage, decoded]
  simp only [bind, Except.bind, positioned, answer, resumeRow, shown]
  generalize select (columns.key platform) condition bound (limit + 1) table = found
  by_cases more : limit < found.length
  · by_cases some : 0 < (found.take limit).length
    · rw [if_pos ⟨more, some⟩, if_pos more]
    · have none : found.take limit = [] := List.length_eq_zero_iff.mp (by omega)
      simp [none]
  · simp [more]

theorem listPage_serves (listable : Listable columns table) :
    Serves (fun cursorValue => listPage platform columns project condition table limit cursorValue)
      (columns.key platform) (ordered (columns.key platform) (table.filter condition)) limit
      (fun row => encodeCursor (columns.cursor row)) (columns.cut platform)
      (List.map project) where
  descending := ordered_descending _ ((listable.keys platform).sublist List.filter_sublist)
  below := by
    intro row _
    apply position_mono
    rw [driverDate]
    omega
  first := by
    have read : (decodeCursor platform.readers none).bind (cursorPosition platform) = .ok none :=
      rfl
    rw [listPage_eq platform columns project condition read listable]
    simp
  later := by
    intro row mem
    have inTable : row ∈ table := (List.mem_filter.mp ((ordered_perm _ _).mem_iff.mp mem)).1
    have read := decodeCursor_cursor platform columns (listable.named row inTable)
      (listable.years row inTable)
    rw [listPage_eq platform columns project condition read listable]
    simp

theorem listPage_listsAll_iff (listable : Listable columns table) (positive : 1 ≤ limit) :
    ListsAll (fun cursorValue => listPage platform columns project condition table limit cursorValue)
        (columns.key platform) project (table.filter condition) ↔
      Separated (columns.key platform) (columns.cut platform) limit
        (ordered (columns.key platform) (table.filter condition)) :=
  (listPage_serves platform columns project condition listable).listsAll_iff positive
    (ordered_perm _ _)

end Walk

/-- The contract's ids are not empty, and the clock is in a year of four digits. -/
structure ListableCatalog (catalog : Catalog) : Prop where
  named : ∀ id extraction, catalog.extractions.row id = some extraction → id ≠ ""
  extractionYears : ∀ id extraction, catalog.extractions.row id = some extraction →
    FourDigitYear extraction.createdAt
  observationYears : ∀ id observation, catalog.observations.row id = some observation →
    FourDigitYear observation.createdAt

theorem ListableCatalog.extractions {catalog : Catalog} (h : ListableCatalog catalog) :
    Listable extractionColumns (extractionRows catalog) where
  distinct := by
    refine List.Pairwise.filterMap _ ?_ catalog.extractions.nodup
    intro a b apart row hrow other hother
    obtain ⟨_, _, rfl⟩ := Option.map_eq_some_iff.mp hrow
    obtain ⟨_, _, rfl⟩ := Option.map_eq_some_iff.mp hother
    exact apart
  named := by
    intro row mem
    obtain ⟨id, _, eq⟩ := List.mem_filterMap.mp mem
    obtain ⟨extraction, found, rfl⟩ := Option.map_eq_some_iff.mp eq
    exact h.named id extraction found
  years := by
    intro row mem
    obtain ⟨id, _, eq⟩ := List.mem_filterMap.mp mem
    obtain ⟨extraction, found, rfl⟩ := Option.map_eq_some_iff.mp eq
    exact h.extractionYears id extraction found

theorem ListableCatalog.observations {catalog : Catalog} (h : ListableCatalog catalog) :
    Listable observationColumns (observationRows catalog) where
  distinct := by
    refine List.Pairwise.filterMap _ ?_ catalog.observations.nodup
    intro a b apart row hrow other hother
    obtain ⟨_, _, hrow⟩ := Option.bind_eq_some_iff.mp hrow
    obtain ⟨_, _, rfl⟩ := Option.map_eq_some_iff.mp hrow
    obtain ⟨_, _, hother⟩ := Option.bind_eq_some_iff.mp hother
    obtain ⟨_, _, rfl⟩ := Option.map_eq_some_iff.mp hother
    exact apart
  named := by
    intro row mem
    obtain ⟨id, _, eq⟩ := List.mem_filterMap.mp mem
    obtain ⟨observation, _, eq⟩ := Option.bind_eq_some_iff.mp eq
    obtain ⟨extraction, found, rfl⟩ := Option.map_eq_some_iff.mp eq
    exact h.named id extraction found
  years := by
    intro row mem
    obtain ⟨id, _, eq⟩ := List.mem_filterMap.mp mem
    obtain ⟨observation, found, eq⟩ := Option.bind_eq_some_iff.mp eq
    obtain ⟨extraction, _, rfl⟩ := Option.map_eq_some_iff.mp eq
    exact h.observationYears id observation found

/-- Following the cursors of `listExtractions` lists the matching extractions. -/
def ExtractionsListed (platform : Platform) (catalog : Catalog) (limit : Nat)
    (filters : ExtractionListFilters) : Prop :=
  ListsAll (fun cursorValue => (listExtractions platform catalog cursorValue limit filters).map
      fun list => (list.extractions, list.nextCursor))
    (extractionColumns.key platform) projectExtraction
    ((extractionRows catalog).filter filters.matches)

/-- Following the cursors of `listObservations` lists the matching observations. -/
def ObservationsListed (platform : Platform) (catalog : Catalog) (limit : Nat)
    (filters : ObservationListFilters) : Prop :=
  ListsAll (fun cursorValue => (listObservations platform catalog cursorValue limit filters).map
      fun list => (list.observations, list.nextCursor))
    (observationColumns.key platform) projectObservation
    ((observationRows catalog).filter filters.matches)

/-- Wherever a page of the ordered rows ends, the next row is older than the
millisecond of the last one, or has the same instant as that millisecond and a
smaller id. -/
def PagesApart {Row : Type} (platform : Platform) (columns : RowKey Row) (limit : Nat)
    (matching : List Row) : Prop :=
  Separated (columns.key platform) (columns.cut platform) limit
    (ordered (columns.key platform) matching)

theorem extractionsListed_iff (platform : Platform) {catalog : Catalog}
    (listable : ListableCatalog catalog) {limit : Nat} (positive : 1 ≤ limit)
    (filters : ExtractionListFilters) :
    ExtractionsListed platform catalog limit filters ↔
      PagesApart platform extractionColumns limit
        ((extractionRows catalog).filter filters.matches) := by
  have pages := listPage_listsAll_iff platform extractionColumns projectExtraction
    filters.matches listable.extractions positive
  have same : (fun cursorValue =>
      (listExtractions platform catalog cursorValue limit filters).map
        fun list => (list.extractions, list.nextCursor)) =
      fun cursorValue => listPage platform extractionColumns projectExtraction filters.matches
        (extractionRows catalog) limit cursorValue := by
    funext cursorValue
    rw [listExtractions]
    cases listPage platform extractionColumns projectExtraction filters.matches
      (extractionRows catalog) limit cursorValue <;> rfl
  rw [ExtractionsListed, same]
  exact pages

theorem observationsListed_iff (platform : Platform) {catalog : Catalog}
    (listable : ListableCatalog catalog) {limit : Nat} (positive : 1 ≤ limit)
    (filters : ObservationListFilters) :
    ObservationsListed platform catalog limit filters ↔
      PagesApart platform observationColumns limit
        ((observationRows catalog).filter filters.matches) := by
  have pages := listPage_listsAll_iff platform observationColumns projectObservation
    filters.matches listable.observations positive
  have same : (fun cursorValue =>
      (listObservations platform catalog cursorValue limit filters).map
        fun list => (list.observations, list.nextCursor)) =
      fun cursorValue => listPage platform observationColumns projectObservation filters.matches
        (observationRows catalog) limit cursorValue := by
    funext cursorValue
    rw [listObservations]
    cases listPage platform observationColumns projectObservation filters.matches
      (observationRows catalog) limit cursorValue <;> rfl
  rw [ObservationsListed, same]
  exact pages

/-- The two lists are complete exactly when no page ends inside a millisecond. -/
theorem catalog_lists_complete_iff (platform : Platform) {catalog : Catalog}
    (listable : ListableCatalog catalog) {limit : Nat} (positive : 1 ≤ limit)
    (extractionFilters : ExtractionListFilters) (observationFilters : ObservationListFilters) :
    (ExtractionsListed platform catalog limit extractionFilters ↔
      PagesApart platform extractionColumns limit
        ((extractionRows catalog).filter extractionFilters.matches)) ∧
    (ObservationsListed platform catalog limit observationFilters ↔
      PagesApart platform observationColumns limit
        ((observationRows catalog).filter observationFilters.matches)) :=
  ⟨extractionsListed_iff platform listable positive extractionFilters,
    observationsListed_iff platform listable positive observationFilters⟩

/-- The collation `C`. -/
def codePointOrder : Collation where
  le a b := decide (a ≤ b)
  total a b := by simpa using le_total a b
  trans a b c h k := by simpa using le_trans (by simpa using h : a ≤ b) (by simpa using k)
  antisymm a b h k := le_antisymm (by simpa using h) (by simpa using k)

def isoPlatform : Platform where
  collation := codePointOrder
  readers := isoReaders

def extractedAt (createdAt : Timestamp) : Extraction where
  sourceWorkflow := "pr-review"
  sourceRunId := "run"
  sourceUnitId := "unit"
  diagnosticBundleDigest := "sha256:0"
  trajectoryReference := { uri := "s3://t", digest := "sha256:1", mediaType := "zip", sizeBytes := 1 }
  createdAt := createdAt

/-- Two extractions that produced an observation each. -/
def twoExtractions (first second : Timestamp) : Catalog :=
  { Catalog.initial with
    extractions := (Table.empty.put "a" (extractedAt first)).put "b" (extractedAt second)
    observations := (Table.empty.put "a"
      { bodyMarkdown := "x", consumedRevision := none, createdAt := first }).put "b"
      { bodyMarkdown := "y", consumedRevision := none, createdAt := second } }

theorem twoExtractions_listable {first second : Timestamp} (h : FourDigitYear first)
    (k : FourDigitYear second) : ListableCatalog (twoExtractions first second) where
  named := by
    intro id extraction found
    rcases Table.put_row_cases found with ⟨rfl, _⟩ | ⟨_, found⟩
    · decide
    · rcases Table.put_row_cases found with ⟨rfl, _⟩ | ⟨_, found⟩
      · decide
      · cases found
  extractionYears := by
    intro id extraction found
    rcases Table.put_row_cases found with ⟨_, rfl⟩ | ⟨_, found⟩
    · exact k
    · rcases Table.put_row_cases found with ⟨_, rfl⟩ | ⟨_, found⟩
      · exact h
      · cases found
  observationYears := by
    intro id observation found
    rcases Table.put_row_cases found with ⟨_, rfl⟩ | ⟨_, found⟩
    · exact k
    · rcases Table.put_row_cases found with ⟨_, rfl⟩ | ⟨_, found⟩
      · exact h
      · cases found

def noExtractionFilters : ExtractionListFilters where
  sourceWorkflow := none
  sourceRunId := none
  hasObservation := none

def noObservationFilters : ObservationListFilters where
  status := none
  consumedRevision := none

/-- The first millisecond of 2024, and two instants within it. -/
def newYear : Timestamp := 63839664000000000

example : toChar newYear = "2024-01-01T00:00:00.000000Z" := by decide

theorem milliseconds_apart_listed :
    ExtractionsListed isoPlatform (twoExtractions newYear (newYear + 1000)) 1
      noExtractionFilters ∧
    ObservationsListed isoPlatform (twoExtractions newYear (newYear + 1000)) 1
      noObservationFilters := by
  have listable : ListableCatalog (twoExtractions newYear (newYear + 1000)) :=
    twoExtractions_listable (by decide) (by decide)
  have both := catalog_lists_complete_iff isoPlatform listable (Nat.le_refl 1) noExtractionFilters
    noObservationFilters
  constructor
  · exact both.1.mpr (separated_pair (by decide))
  · exact both.2.mpr (separated_pair (by decide))

/-- Two extractions of one millisecond, a page of one: the older one is not listed. -/
theorem same_millisecond_not_listed :
    ¬ ExtractionsListed isoPlatform (twoExtractions (newYear + 1) (newYear + 2)) 1
      noExtractionFilters := by
  have listable : ListableCatalog (twoExtractions (newYear + 1) (newYear + 2)) :=
    twoExtractions_listable (by decide) (by decide)
  rw [extractionsListed_iff isoPlatform listable (Nat.le_refl 1)]
  intro apart
  have below := apart 0 _ _ (Nat.dvd_refl 1) rfl rfl
  revert below
  decide

end CatalogQueries
