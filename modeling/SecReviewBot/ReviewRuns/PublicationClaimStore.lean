import SecReviewBot.ReviewRuns.Transactions

/-!
# `publication-claim-store.ts`

`claim` and the update of `claimNextOnce` restate one claimability condition:
a published result exists, no step is parked, and the publication is pending
or its lease has lapsed.
-/

namespace PublicationClaimStore

open JsonValues KeyedTables ReviewRunsSchema ReviewRunsTransactions

/-- `e.status='succeeded' AND jsonb_typeof(e.workflow_result) <> 'null'`; the
comparison is not true of SQL `NULL`. -/
def publishable (e : Execution) : Bool :=
  e.status = .succeeded && e.workflowResult.any fun result => result ≠ .null

def claimable (store : Store) (now : Timestamp) (run : Run) : Bool :=
  publishable run.execution && !run.steps.any (fun s => s.status = .disconnected)
    && (run.publication.status = .pending
      || ((run.publication.status = .publishing || run.publication.status = .uncertain)
        && leaseLapsed store now run.publication.claimedAt))

def claimReason (origin : PublicationStatus) : Option String :=
  if origin = .publishing || origin = .uncertain then some "PUBLICATION_LEASE_EXPIRED" else none

def claim (store : Store) (tx : Tx) : Outcome (Option Token) :=
  if claimable store tx.now tx.run then
    let origin := tx.run.publication.status
    let (token, drawn) := randomUUID tx
    .ok (some token, appendEvent .publication (some origin.name) .publishing (claimReason origin)
      (updatePublication (fun p =>
        { p with status := .publishing, claimToken := some token, claimedAt := some tx.now,
                 startedAt := p.startedAt.or (some tx.now), failureCode := none,
                 failureMessage := none, updatedAt := tx.now }) drawn))
  else .ok (none, tx)

/-- `ORDER BY p.updated_at`; ties are left in table order. -/
def olderFirst (db : Database) (a b : RunId) : Bool :=
  let updatedAt := fun id => ((db.runs.row id).map (·.publication.updatedAt)).getD 0
  updatedAt a ≤ updatedAt b

def claimCandidates (store : Store) (locked : RunId → Bool) (db : Database) : List RunId :=
  db.runs.selectKeys (fun id run =>
    run.connectorId = store.connectorId && !locked id && claimable store db.clock run)
    (olderFirst db)

/-- One poll of `claimNext`: the claim token of the run it took, with the run
and its result as the returned work. -/
def claimNextOnce (store : Store) (locked : RunId → Bool) (db : Database) :
    Except StoreError (Option Token) × Database :=
  match (claimCandidates store locked db).head? with
  | none => (.ok none, db)
  | some runId => transaction store runId (.ok none) (claim store) db

end PublicationClaimStore
