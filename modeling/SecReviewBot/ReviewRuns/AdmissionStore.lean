import SecReviewBot.ReviewRuns.Transactions

/-!
# `review-run-admission-store.ts`

Admission writes the trunk, the three axes and one event per axis, and returns
the token of the first preparation claim. `admit` is idempotent on the ingress
identity.
-/

namespace AdmissionStore

open JsonValues KeyedTables ReviewRunsSchema ReviewRunsTransactions

structure CreateReviewRunArgs where
  runId : RunId
  workflow : Workflow
  publishContext : Json
  executionInput : Option Json
  ingressKind : Option String
  ingressKey : Option String
  preparationInput : Option Json
  preparationInputVersion : Option String

structure ReviewRunAdmission where
  runId : RunId
  created : Bool
  preparationToken : Option Token
  deriving DecidableEq

/-- The rows `insertWith` writes before its events. -/
def insertedRun (store : Store) (args : CreateReviewRunArgs) (token : Token)
    (now : Timestamp) : Run where
  connectorId := store.connectorId
  workflow := args.workflow
  ingressKind := args.ingressKind
  ingressKey := args.ingressKey
  execution :=
    { status := .pending, input := args.executionInput, startedAt := none, finishedAt := none,
      failureCode := none, failureMessage := none, artifactStorage := none,
      workflowResult := none, claimToken := none, claimedAt := none, attemptCount := 0,
      observedAt := now, updatedAt := now }
  preparation :=
    { inputVersion := args.preparationInputVersion.getD "direct-v1",
      input := args.preparationInput.getD (.obj []), status := .preparing, availableAt := now,
      claimToken := some token, claimedAt := some now, attemptCount := 1, failureCode := none,
      failureMessage := none, lastFailureCode := none, lastFailureMessage := none,
      startedAt := some now, finishedAt := none, disconnectReason := none, updatedAt := now }
  publication :=
    { input := args.publishContext, status := .pending, claimToken := none, claimedAt := none,
      failureCode := none, failureMessage := none, startedAt := none, finishedAt := none,
      updatedAt := now }
  steps := Table.empty
  candidates := Table.empty
  events := []
  notices := Table.empty

/-- `insertWith` once no constraint is violated. -/
def insertWith (store : Store) (args : CreateReviewRunArgs) (db : Database) : Tx :=
  appendEvent .publication none .pending none
    (appendEvent .preparation none .preparing none
      (appendEvent .execution none .pending none
        { now := db.clock, nextToken := db.nextToken + 1, nextEventId := db.nextEventId,
          nextNoticeId := db.nextNoticeId,
          run := insertedRun store args db.nextToken db.clock }))

/-- `r.connector_id=$1 AND r.ingress_kind=$2 AND r.ingress_key=$3`; `NULL` never
compares equal, in the query and in the unique constraint alike. -/
def hasIngress (store : Store) (kind key : Option String) (run : Run) : Bool :=
  run.connectorId = store.connectorId && kind.isSome && key.isSome
    && run.ingressKind = kind && run.ingressKey = key

def findIngress (store : Store) (kind key : Option String) (db : Database) : Option RunId :=
  db.runs.keys.find? fun id => (db.runs.row id).any (hasIngress store kind key)

def uniqueViolation (constraint : String) : StoreError where
  message := s!"duplicate key value violates unique constraint {constraint}"
  code := some "23505"

def create (store : Store) (args : CreateReviewRunArgs) (db : Database) :
    Except StoreError ReviewRunAdmission × Database :=
  if (db.runs.row args.runId).isSome then (.error (uniqueViolation "review_runs_pkey"), db)
  else if (findIngress store args.ingressKind args.ingressKey db).isSome then
    (.error (uniqueViolation "review_runs_connector_id_ingress_kind_ingress_key_key"), db)
  else
    (.ok { runId := args.runId, created := true, preparationToken := some db.nextToken },
      commit db args.runId (insertWith store args db))

/-- The retry after a lost race reads the same row as the query that precedes
the insertion, so it adds nothing to this description. -/
def admitRun (store : Store) (args : CreateReviewRunArgs) (db : Database) :
    Except StoreError ReviewRunAdmission × Database :=
  match findIngress store args.ingressKind args.ingressKey db with
  | some existing =>
    (.ok { runId := existing, created := false, preparationToken := none }, db)
  | none => create store args db

end AdmissionStore
