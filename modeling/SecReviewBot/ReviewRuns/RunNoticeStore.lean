import SecReviewBot.ReviewRuns.Transactions

/-!
# `RunNoticeStore` of `run-notices.ts`

The delivery side of the outbox. A notice is addressed by its own id, so each
method first finds the run that owns it.
-/

namespace RunNoticeStore

open JsonValues KeyedTables ReviewRunsSchema ReviewRunsTransactions

/-- Pending, or delivering under a lapsed lease. -/
def claimable (store : Store) (now : Timestamp) (n : RunNotice) : Bool :=
  n.status = .pending || (n.status = .delivering && leaseLapsed store now n.claimedAt)

structure RunNoticeWork where
  noticeId : NoticeId
  runId : RunId
  input : Json
  kind : NoticeKind
  axis : Axis
  reasonCode : Option String
  claimToken : Token

/-- `claimNext` on the notice it selected. -/
def claimSelected (store : Store) (runId : RunId) (noticeId : NoticeId) (tx : Tx) :
    Outcome (Option RunNoticeWork) :=
  match tx.run.notices.row noticeId with
  | none => .ok (none, tx)
  | some n =>
    if claimable store tx.now n then
      let (token, drawn) := randomUUID tx
      .ok (some
          { noticeId := noticeId, runId := runId, input := tx.run.preparation.input,
            kind := n.kind, axis := n.axis, reasonCode := n.reasonCode, claimToken := token },
        updateNotices (fun notices => notices.put noticeId
          { n with status := .delivering, claimToken := some token,
                   claimedAt := some tx.now, updatedAt := tx.now }) drawn)
    else .ok (none, tx)

/-- `status='delivering' AND claim_token=$3`. -/
def holdsDelivery (token : Token) (n : RunNotice) : Bool :=
  n.status = .delivering && n.claimToken = some token

/-- The owned notice, rewritten by `f`; a stale token matches no row. -/
def updateOwned (noticeId : NoticeId) (token : Token) (f : RunNotice → RunNotice) (tx : Tx) :
    Outcome Bool :=
  match tx.run.notices.row noticeId with
  | none => .ok (false, tx)
  | some n =>
    if holdsDelivery token n then
      .ok (true, updateNotices (fun notices => notices.put noticeId (f n)) tx)
    else .ok (false, tx)

def renewClaim (noticeId : NoticeId) (token : Token) (tx : Tx) : Outcome Bool :=
  updateOwned noticeId token
    (fun n => { n with claimedAt := some tx.now, updatedAt := tx.now }) tx

def complete (noticeId : NoticeId) (token : Token) (delivered : Bool)
    (commentUrl : Option String) (tx : Tx) : Outcome Bool :=
  if delivered && commentUrl.isNone then
    .error { message :=
      s!"Run notice {noticeId} cannot be delivered without a comment_url." }
  else if !delivered && commentUrl.isSome then
    .error { message :=
      s!"Run notice {noticeId} cannot carry a comment_url when delivery failed." }
  else
    updateOwned noticeId token (fun n =>
      { n with status := if delivered then .delivered else .failed, claimToken := none,
               claimedAt := none, commentUrl := commentUrl, updatedAt := tx.now }) tx

/-- The run holding a notice of this connector. -/
def owner (db : Database) (store : Store) (noticeId : NoticeId) : Option RunId :=
  db.runs.keys.find? fun id =>
    (find db store id).any fun run => (run.notices.row noticeId).isSome

/-- Run `body` on the run that owns the notice. -/
def onOwner {α : Type} (store : Store) (noticeId : NoticeId) (missing : α)
    (body : Tx → Outcome α) (db : Database) : Except StoreError α × Database :=
  match owner db store noticeId with
  | none => (.ok missing, db)
  | some runId => transaction store runId (.ok missing) body db

/-- The claimable notices of one run. -/
def claimableIn (store : Store) (locked : NoticeId → Bool) (now : Timestamp)
    (run : Run) : List NoticeId :=
  run.notices.keys.filter fun id =>
    !locked id && (run.notices.row id).any (claimable store now)

/-- `ORDER BY n.updated_at, n.run_id`. -/
def olderFirst (db : Database) (a b : RunId × NoticeId) : Bool :=
  let updatedAt := fun (at_ : RunId × NoticeId) =>
    (((db.runs.row at_.1).bind fun run => run.notices.row at_.2).map (·.updatedAt)).getD 0
  updatedAt a < updatedAt b || (updatedAt a = updatedAt b && a.1 ≤ b.1)

def candidates (store : Store) (locked : NoticeId → Bool) (db : Database) :
    List (RunId × NoticeId) :=
  (db.runs.keys.flatMap fun id =>
    match find db store id with
    | none => []
    | some run => (claimableIn store locked db.clock run).map fun n => (id, n)).insertionSort
      fun a b => olderFirst db a b = true

def claimNext (store : Store) (locked : NoticeId → Bool) (db : Database) :
    Except StoreError (Option RunNoticeWork) × Database :=
  match (candidates store locked db).head? with
  | none => (.ok none, db)
  | some (runId, noticeId) =>
    transaction store runId (.ok none) (claimSelected store runId noticeId) db

end RunNoticeStore
